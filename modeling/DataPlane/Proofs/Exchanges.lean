import DataPlane.Proofs.Attempts
import DataPlane.Ref.Exchange

/-!
# What backends tell reaches the log

A backend's loop puts out tokens; the engine publishes one before it calls on
the loop again, and may crash, fail or lose its lease between any two commands
while other engines work on the same job. In the history of the request the
tokens of an attempt are still what the backend of that attempt has told: the
beginning of it, and all of it when the attempt is completed.

The exchange of an attempt goes on only while its engine generates, and nobody
draws an attempt twice. So the history and the exchange of an attempt are only
ever changed by the one engine that is in it, and where in `run_job` that
engine is says how they differ.
-/

namespace DataPlane.Proofs

open DataPlane DataPlane.Lib DataPlane.Ref

/-! ## The tokens of an attempt -/

/-- The token of an entry, if it is one of this attempt. -/
def tokenBy (text : String) (x : ResultEntry) : Option TokenChunk :=
  match x.result.event with
  | some (.token chunk) =>
      if x.result.attemptId = text then some chunk else none
  | _ => none

/-- The tokens of an attempt, among some entries. -/
def tokensBy (text : String) (entries : List ResultEntry) : List TokenChunk :=
  entries.filterMap (tokenBy text)

theorem tokensBy_concat (text : String) (entries : List ResultEntry)
    (x : ResultEntry) :
    tokensBy text (entries ++ [x]) =
      tokensBy text entries ++ (tokenBy text x).toList := by
  rw [tokensBy, List.filterMap_append]
  cases hx : tokenBy text x with
  | none => simp [tokensBy, hx]
  | some chunk => simp [tokensBy, hx]

/-- An event that is no token changes the tokens of nobody. -/
theorem tokensBy_other {text : String} {entries : List ResultEntry}
    {x : ResultEntry} (h : ∀ chunk, x.result.event ≠ some (.token chunk)) :
    tokensBy text (entries ++ [x]) = tokensBy text entries := by
  have hnone : tokenBy text x = none := by
    unfold tokenBy
    split
    · next chunk hx => exact absurd hx (h chunk)
    · rfl
  rw [tokensBy_concat, hnone]
  exact List.append_nil _

theorem tokensBy_token {text : String} {entries : List ResultEntry}
    {x : ResultEntry} {chunk : TokenChunk}
    (h : x.result.event = some (.token chunk)) :
    tokensBy text (entries ++ [x]) =
      tokensBy text entries ++
        if x.result.attemptId = text then [chunk] else [] := by
  rw [tokensBy_concat, tokenBy, h]
  dsimp only
  split
  · rfl
  · rfl

/-! ## What a move adds to a history -/

/-- The event an engine is about to append for a request. -/
inductive Told (e : Engine) (r : String) : GenerationResult → Prop
  | event {taken : ConsumedJob} {a : Uuid} {event : Event}
      (hphase : e.phase =
        .working taken (.attempt a (.publish event .append)))
      (hid : taken.job.requestId = r) :
      Told e r (resultOf taken.job a.text event)
  | concluded {taken : ConsumedJob} {a : Uuid} {result : AttemptResult}
      (hphase : e.phase = .working taken (.conclude a result .append))
      (hid : taken.job.requestId = r) :
      Told e r (conclusion taken.job a result)
  | expired {taken : ConsumedJob} :
      Told e r (deadlineFailure e.engineId taken.job)

theorem Move.tells {cfg : EngineConfig} {b b' : Broker} {e : Engine}
    {act : EngineAction} {p : Phase} (h : Move cfg b e act b' p) (r : String) :
    history b' r = history b r ∨
      ∃ res, Told e r res ∧ history b' r = history b r ++ [newEntry b res] := by
  cases h with
  | roam _ hb _ => rw [hb.frame]; exact .inl rfl
  | take _ hb _ _ => rw [hb.frame]; exact .inl rfl
  | @failAppend taken hphase =>
      rcases eq_or_ne r taken.job.requestId with rfl | hne
      · exact .inr ⟨_, .expired,
          history_appendResult b (deadlineFailure _ taken.job)⟩
      · exact .inl (history_appendResult_ne b _ hne)
  | @append taken a event hphase =>
      rcases eq_or_ne r taken.job.requestId with rfl | hne
      · exact .inr ⟨_, .event hphase rfl,
          history_appendResult b (resultOf taken.job a.text event)⟩
      · exact .inl (history_appendResult_ne b _ hne)
  | @concludeAppend taken a result hphase =>
      rcases eq_or_ne r taken.job.requestId with rfl | hne
      · have hhistory := history_appendResult b (conclusion taken.job a result)
        rw [conclusion_requestId] at hhistory
        exact .inr ⟨_, .concluded hphase rfl, hhistory⟩
      · rw [← conclusion_requestId taken.job a result] at hne
        exact .inl (history_appendResult_ne b _ hne)
  | failRecord _ | record _ | concludeRecord _ =>
      exact .inl (history_recordResult _ _ _ _ _)
  | renew _ _ => rw [renewLease_frame]; exact .inl rfl
  | release _ => rw [releaseLease_frame]; exact .inl rfl
  | _ => exact .inl rfl

/-- What is in a history was there before, or is the event told. -/
theorem Move.recent {cfg : EngineConfig} {b b' : Broker} {e : Engine}
    {act : EngineAction} {p : Phase} (h : Move cfg b e act b' p) {r : String}
    {x : ResultEntry} (hx : x ∈ history b' r) :
    x ∈ history b r ∨ Told e r x.result := by
  rcases h.tells r with hsame | ⟨res, htold, happend⟩
  · rw [hsame] at hx
    exact .inl hx
  · rw [happend] at hx
    rcases List.mem_append.mp hx with hx | hx
    · exact .inl hx
    · rw [List.mem_singleton.mp hx]
      exact .inr htold

/-- An attempt is over with a result only when the backend has returned it, or
it was over before. -/
theorem engineStep_release {cfg : EngineConfig} {b b' : Broker} {e : Engine}
    {act : EngineAction} {taken : ConsumedJob} {a : Uuid}
    {usage : GenerationUsage}
    (h : engineStep cfg b e act =
      some (b', .working taken (.release a (.ok usage)))) :
    (e.phase = .working taken (.attempt a .generate) ∧
      ∃ u, act = .finish u ∧ usage = closeUsage u) ∨
    (e.phase = .working taken (.release a (.ok usage)) ∧
      act = .renewLease) := by
  cases act with
  | finish u =>
      simp only [engineStep] at h
      split at h
      · next hphase => cases h; exact .inl ⟨hphase, u, rfl, rfl⟩
      · cases h
  | renewLease =>
      simp only [engineStep] at h
      split at h
      · next hphase =>
          simp only [Option.some.injEq, Prod.mk.injEq] at h
          exact .inr ⟨h.2, rfl⟩
      · next hphase =>
          simp only [Option.some.injEq, Prod.mk.injEq] at h
          exact .inr ⟨h.2, rfl⟩
      · cases h
  | poll =>
      simp only [engineStep] at h
      split at h
      · split at h
        · next entry b₂ _ =>
            simp only [Option.some.injEq, Prod.mk.injEq] at h
            rcases takeFresh_spec entry with hidle | ⟨job, _, hp⟩
            · exact absurd h.2 hidle.ne_working
            · rw [hp] at h
              cases h.2
        · cases h
      · cases h
  | reclaim position =>
      simp only [engineStep] at h
      split at h
      · cases h
      · split at h
        · next entry b₂ _ =>
            simp only [Option.some.injEq, Prod.mk.injEq] at h
            rcases takeStale_spec entry with hidle | ⟨job, _, hp⟩
            · exact absurd h.2 hidle.ne_working
            · rw [hp] at h
              cases h.2
        · cases h
      · cases h
  | reconnect | crash | restart =>
      simp only [engineStep] at h
      first
        | cases h
        | (split at h <;> cases h)
  | testDeadline unixMs =>
      simp only [engineStep] at h
      split at h
      · split at h <;> cases h
      · cases h
  | acquireLease c =>
      simp only [engineStep] at h
      split at h
      · split at h <;> cases h
      · cases h
  | enterAttempt =>
      simp only [engineStep] at h
      split at h
      · split at h <;> cases h
      · cases h
  | token chunk | backendError message =>
      simp only [engineStep] at h
      split at h <;> cases h
  | command =>
      simp only [engineStep] at h
      split at h
      · next step hphase =>
          unfold jobCommand at h
          split at h
          all_goals first
            | cases h
            | (split at h
               · split at h <;> cases h
               · cases h)
      · cases h
  | fail message =>
      simp only [engineStep] at h
      split at h
      · cases h
      · cases h
      · cases h
      · next step hphase =>
          obtain ⟨q, hq, heq⟩ := Option.map_eq_some_iff.mp h
          cases heq
          unfold jobFailure at hq
          split at hq <;> cases hq
      · cases h

/-- What a move adds to the tokens of an attempt: nothing, or the token its
engine was about to append. -/
theorem Move.tokens {cfg : EngineConfig} {b b' : Broker} {e : Engine}
    {act : EngineAction} {p : Phase} (h : Move cfg b e act b' p)
    (r text : String) :
    tokensBy text (history b' r) = tokensBy text (history b r) ∨
    ∃ taken a chunk, e.phase =
        .working taken (.attempt a (.publish (.token chunk) .append)) ∧
      taken.job.requestId = r ∧ a.text = text ∧
      tokensBy text (history b' r) =
        tokensBy text (history b r) ++ [chunk] := by
  rcases h.tells r with hsame | ⟨res, htold, happend⟩
  · exact .inl (congrArg (tokensBy text) hsame)
  · rw [happend]
    cases htold with
    | @event taken a event hphase hid =>
        cases event with
        | token chunk =>
            rw [tokensBy_token (show _ = some (Event.token chunk) from rfl)]
            rcases eq_or_ne a.text text with htext | htext
            · exact .inr ⟨taken, a, chunk, hphase, hid, htext,
                congrArg (_ ++ ·) (if_pos htext)⟩
            · exact .inl ((congrArg (_ ++ ·) (if_neg htext)).trans
                (List.append_nil _))
        | _ => exact .inl (tokensBy_other (fun _ hx => by cases hx))
    | @concluded taken a result _ _ =>
        refine .inl (tokensBy_other fun chunk hx => ?_)
        cases result <;> cases hx
    | expired => exact .inl (tokensBy_other fun chunk hx => by cases hx)

/-- A token belongs to the attempt of the engine that appends it. -/
theorem Told.token {e : Engine} {r : String} {res : GenerationResult}
    {chunk : TokenChunk} (h : Told e r res)
    (htoken : res.event = some (.token chunk)) :
    ∃ taken a step, e.phase = .working taken step ∧ attemptOf step = some a ∧
      res.attemptId = a.text := by
  cases h with
  | @event taken a event hphase _ => exact ⟨taken, a, _, hphase, rfl, rfl⟩
  | @concluded taken a result _ _ => cases result <;> cases htoken
  | expired => cases htoken

/-- A `Completed` is appended by an engine that concludes. -/
theorem Told.completed {e : Engine} {r : String} {res : GenerationResult}
    {done : GenerationCompleted} (h : Told e r res)
    (hplain : ∀ {taken a event x},
      e.phase = .working taken (.attempt a (.publish event x)) →
      event.terminal = false)
    (hdone : res.event = some (.completed done)) :
    ∃ taken a usage,
      e.phase = .working taken (.conclude a (.ok usage) .append) ∧
      taken.job.requestId = r ∧ res.attemptId = a.text ∧
      done = ⟨usage.promptTokens, usage.generatedTokens,
        usage.finishReason⟩ := by
  cases h with
  | event hphase _ =>
      have hterminal := hplain hphase
      cases hdone
      cases hterminal
  | @concluded taken a result hphase hid =>
      cases result with
      | ok usage =>
          cases hdone
          exact ⟨taken, a, usage, hphase, hid, rfl, rfl⟩
      | error message => cases hdone
  | expired => cases hdone

@[simp] theorem resultOf_requestId (job : GenerationJob) (a : String)
    (event : Event) : (resultOf job a event).requestId = job.requestId := rfl

/-! ## Nobody draws an attempt twice -/

/-- Engines are in attempts that were drawn, each in its own. -/
structure Drawn (s : Sys) : Prop where
  drawn : ∀ {i e taken step a}, Busy s.engines i e taken step →
    attemptOf step = some a → a ∈ s.attempts
  distinct : ∀ {i j e x taken taken' step step' a},
    Busy s.engines i e taken step → Busy s.engines j x taken' step' →
    attemptOf step = some a → attemptOf step' = some a → i = j

theorem drawn_init (now : Nat) (engines : List (String × String)) :
    Drawn (Sys.init now engines) where
  drawn hb := (not_busy_init hb).elim
  distinct hb := (not_busy_init hb).elim

/-- After a move, an engine in an attempt was in it before, or is the one that
moved and has just drawn it. -/
theorem Busy.before {s : Sys} {cfg : SysConfig} {i j : Nat} {e x : Engine}
    {act : EngineAction} {b : Broker} {p : Phase} {taken : ConsumedJob}
    {step : JobStep} {a : Uuid} (hi : s.engines[i]? = some e)
    (hmove : Move cfg.engine s.broker e act b p)
    (hb : Busy (s.engines.set i { e with phase := p }) j x taken step)
    (ha : attemptOf step = some a) :
    (∃ y step', Busy s.engines j y taken step' ∧ attemptOf step' = some a) ∨
      (j = i ∧ act.draws = some a) := by
  rcases hb.of_set with ⟨rfl, _, hp⟩ | ⟨_, hb⟩
  · rcases hmove.attempt hp ha with ⟨step', hphase, ha'⟩ | hd
    · exact .inl ⟨e, step', ⟨hi, hphase⟩, ha'⟩
    · exact .inr ⟨rfl, hd⟩
  · exact .inl ⟨x, step, hb, ha⟩

theorem drawn_step {cfg : SysConfig} {s u : Sys} {l : Label} (hI : Drawn s)
    (h : Moves cfg s l u) : Drawn u := by
  cases h with
  | @engine i act e b p hi hdraw hmove =>
      refine ⟨fun hb ha => ?_, fun hb hx ha ha' => ?_⟩
      · rcases hb.before hi hmove ha with ⟨_, _, hold, ha'⟩ | ⟨_, hd⟩
        · exact List.mem_append_right _ (hI.drawn hold ha')
        · exact List.mem_append_left _ (by simp [hd])
      · rcases hb.before hi hmove ha with ⟨_, _, hold, hao⟩ | ⟨rfl, hd⟩ <;>
          rcases hx.before hi hmove ha' with ⟨_, _, hold', hao'⟩ | ⟨rfl, hd'⟩
        · exact hI.distinct hold hold' hao hao'
        · exact absurd (hI.drawn hold hao) (hdraw _ hd')
        · exact absurd (hI.drawn hold' hao') (hdraw _ hd)
        · rfl
  | _ => exact ⟨hI.drawn, hI.distinct⟩

/-! ## Where the engine is -/

theorem Known.unique {s : Sys} {job job' : GenerationJob} (h : Known s job)
    (h' : Known s job') (hid : job.requestId = job'.requestId) : job = job' := by
  obtain ⟨step, hcall, _⟩ := h
  obtain ⟨step', hcall', _⟩ := h'
  rw [hid, hcall'] at hcall
  cases hcall
  rfl

/-- The token of an event. -/
def tokenIn : Event → Option TokenChunk
  | .token chunk => some chunk
  | _ => none

theorem tokenBy_resultOf (b : Broker) (job : GenerationJob) (text : String)
    (event : Event) :
    tokenBy text (newEntry b (resultOf job text event)) = tokenIn event := by
  cases event with
  | token chunk => exact if_pos rfl
  | _ => rfl

/-- The exchange for a job is under way, and has told this much. -/
def Telling {σ : Type} (exchange : Option (Exchange σ)) (job : GenerationJob)
    (told : List TokenChunk) : Prop :=
  ∃ x, exchange = some x ∧ x.job = job ∧ x.emission.result = none ∧
    x.emission.told = told

/-- It has returned this usage, having told this much. -/
def Returned {σ : Type} (exchange : Option (Exchange σ)) (job : GenerationJob)
    (told : List TokenChunk) (usage : GenerationUsage) : Prop :=
  ∃ x reported, exchange = some x ∧ x.job = job ∧
    x.emission.result = some (.ok reported) ∧ usage = closeUsage reported ∧
    x.emission.told = told

/-- How what an attempt has said goes with its exchange. -/
def Spoken {σ : Type} (exchange : Option (Exchange σ)) (job : GenerationJob)
    (said : List TokenChunk) : JobStep → Prop
  | .attempt _ .enter => exchange = none ∧ said = []
  | .attempt _ (.publish event .append) =>
      Telling exchange job (said ++ (tokenIn event).toList)
  | .attempt _ (.publish _ (.record _)) | .attempt _ .generate =>
      Telling exchange job said
  | .release _ (.ok usage) | .settle _ (.ok usage)
  | .conclude _ (.ok usage) _ => Returned exchange job said usage
  | _ => True

/-- What was published of an attempt was put out by its backend. -/
structure Heard {σ ι : Type} (backend : Backend σ ι) (t : StreamingSys σ) :
    Prop where
  drawn : ∀ {a x}, t.exchanges a = some x →
    a ∈ t.sys.attempts ∧ Known t.sys x.job
  reached : ∀ {a x}, t.exchanges a = some x →
    Run (Emission.step backend.next) (fun _ _ => True)
      (.start (backend.start x.job)) x.emission
  spoken : ∀ {i e taken step a}, Busy t.sys.engines i e taken step →
    attemptOf step = some a →
    Spoken (t.exchanges a) taken.job
      (tokensBy a.text (history t.sys.broker taken.job.requestId)) step
  said : ∀ r text, tokensBy text (history t.sys.broker r) = [] ∨
    ∃ a x, a.text = text ∧ t.exchanges a = some x ∧ x.job.requestId = r ∧
      tokensBy text (history t.sys.broker r) <+: x.emission.told
  completed : ∀ {r y done}, y ∈ history t.sys.broker r →
    y.result.event = some (.completed done) →
    ∃ a x usage, a.text = y.result.attemptId ∧ t.exchanges a = some x ∧
      x.job.requestId = r ∧ x.emission.result = some (.ok usage) ∧
      tokensBy y.result.attemptId (history t.sys.broker r) =
        x.emission.told ∧
      done = ⟨(closeUsage usage).promptTokens,
        (closeUsage usage).generatedTokens, (closeUsage usage).finishReason⟩

section Steps

variable {σ ι : Type} {backend : Backend σ ι} {t : StreamingSys σ}

theorem heard_init (backend : Backend σ ι) (now : Nat)
    (engines : List (String × String)) :
    Heard backend (.init now engines) where
  drawn h := by cases h
  reached h := by cases h
  spoken hb := (not_busy_init hb).elim
  said _ _ := .inl rfl
  completed hx := by cases hx

/-! ## Steps that leave the exchanges alone -/

/-- What a frontend, the clock or a stranger does appends no event. -/
theorem Moves.quiet {cfg : SysConfig} {s u : Sys} {l : Label}
    (h : Moves cfg s l u) (hl : ∀ i act, l ≠ .engine i act) :
    u.engines = s.engines ∧ u.attempts = s.attempts ∧
      ∀ r, history u.broker r = history s.broker r := by
  cases h with
  | engine => exact absurd rfl (hl _ _)
  | _ => exact ⟨rfl, rfl, fun _ => rfl⟩

theorem heard_quiet {cfg : SysConfig} {s : Sys} {l : Label}
    (hS : Sourced t.sys) (hI : Heard backend t) (h : Moves cfg t.sys l s)
    (hl : ∀ i act, l ≠ .engine i act) :
    Heard backend ⟨s, t.exchanges⟩ := by
  obtain ⟨hengines, hattempts, hhistory⟩ := h.quiet hl
  refine ⟨fun hx => ?_, hI.reached, fun hb ha => ?_, fun r text => ?_,
    fun hy hdone => ?_⟩
  · obtain ⟨hdrawn, hknown⟩ := hI.drawn hx
    refine ⟨?_, h.known hS hknown⟩
    rw [hattempts]
    exact hdrawn
  · rw [hengines] at hb
    rw [hhistory]
    exact hI.spoken hb ha
  · rw [hhistory]
    exact hI.said r text
  · rw [hhistory] at hy ⊢
    exact hI.completed hy hdone

/-- The engine that moves by itself. -/
theorem Move.speaks_on {cfg : EngineConfig} {b b' : Broker} {e : Engine}
    {act : EngineAction} {p : Phase} {taken : ConsumedJob} {step : JobStep}
    {a : Uuid} {exchanges : Uuid → Option (Exchange σ)}
    (h : Move cfg b e act b' p) (hstep : engineStep cfg b e act = some (b', p))
    (hown : act.fromBackend = false)
    (hin : act = .enterAttempt → ∀ taken a,
      p ≠ .working taken (.attempt a (.publish .attemptStarted .append)))
    (hold : ∀ {taken step a}, e.phase = .working taken step →
      attemptOf step = some a → Spoken (exchanges a) taken.job
        (tokensBy a.text (history b taken.job.requestId)) step)
    (hfresh : act.draws = some a → exchanges a = none ∧
      tokensBy a.text (history b taken.job.requestId) = [])
    (hp : p = .working taken step) (ha : attemptOf step = some a) :
    Spoken (exchanges a) taken.job
      (tokensBy a.text (history b' taken.job.requestId)) step := by
  cases h with
  | roam _ _ hidle | abandon _ _ hidle => exact absurd hp hidle.ne_working
  | take _ _ _ htakes => obtain ⟨job, _, rfl⟩ := htakes; cases hp; cases ha
  | crash | notAcquired | acknowledge => cases hp
  | acquired _ _ _ => cases hp; cases ha; exact hfresh rfl
  | entered _ => exact absurd rfl (hin rfl _ _)
  | token _ => cases hown
  | @ended _ _ _ x result hphase =>
      cases hp
      cases ha
      cases result with
      | error message => trivial
      | ok usage =>
          rcases engineStep_release hstep with ⟨_, u, rfl, _⟩ | ⟨hrel, _⟩
          · cases hown
          · rw [hphase] at hrel
            cases hrel
  | @append _ _ event hphase =>
      cases hp
      cases ha
      have hnext := hold hphase rfl
      have hhistory := history_appendResult b (resultOf taken.job a.text event)
      rw [resultOf_requestId] at hhistory
      rw [hhistory]
      show Telling _ _ (tokensBy _ _)
      rw [tokensBy_concat, tokenBy_resultOf]
      exact hnext
  | record hphase =>
      cases hp
      cases ha
      rw [history_recordResult]
      have hsaid := hold hphase rfl
      exact hsaid
  | renew hphase _ =>
      cases hp
      rw [renewLease_frame]
      exact hold hphase ha
  | @release _ _ result hphase =>
      cases hp
      cases ha
      rw [releaseLease_frame]
      have hover := hold hphase rfl
      cases result <;> exact hover
  | @settle _ _ result hphase =>
      cases hp
      cases ha
      have hover := hold hphase rfl
      cases result <;> exact hover
  | @concludeAppend _ _ result hphase =>
      cases hp
      cases ha
      have hover := hold hphase rfl
      have hhistory := history_appendResult b (conclusion taken.job a result)
      rw [conclusion_requestId] at hhistory
      rw [hhistory, tokensBy_other fun chunk hx => by cases result <;> cases hx]
      cases result <;> exact hover
  | _ => cases hp; cases ha

/-- What has not been drawn has no exchange and has said nothing. -/
theorem Heard.fresh (hI : Heard backend t) {a : Uuid}
    (ha : a ∉ t.sys.attempts) (r : String) :
    t.exchanges a = none ∧ tokensBy a.text (history t.sys.broker r) = [] := by
  refine ⟨?_, ?_⟩
  · cases hx : t.exchanges a with
    | none => rfl
    | some x => exact absurd (hI.drawn hx).1 ha
  · rcases hI.said r a.text with hnil | ⟨a', x, htext, hx, _⟩
    · exact hnil
    · rw [Uuid.text_inj htext] at hx
      exact absurd (hI.drawn hx).1 ha

theorem heard_command {cfg : SysConfig} {i : Nat} {e : Engine}
    {act : EngineAction} {b : Broker} {p : Phase} (hS : Sourced t.sys)
    (hD : Drawn t.sys) (hI : Heard backend t)
    (hi : t.sys.engines[i]? = some e)
    (hdraw : ∀ a ∈ act.draws, a ∉ t.sys.attempts)
    (hown : act.fromBackend = false)
    (hin : act = .enterAttempt → ∀ taken a,
      p ≠ .working taken (.attempt a (.publish .attemptStarted .append)))
    (hstep : engineStep cfg.engine t.sys.broker e act = some (b, p)) :
    Heard backend
      ⟨{ t.sys with
          broker := b
          engines := t.sys.engines.set i { e with phase := p }
          attempts := act.draws.toList ++ t.sys.attempts }, t.exchanges⟩ := by
  have hmove := engineStep_move hstep
  refine ⟨fun hx => ?_, hI.reached, ?_, ?_, ?_⟩
  · obtain ⟨hdrawn, hknown⟩ := hI.drawn hx
    exact ⟨List.mem_append_right _ hdrawn, hknown⟩
  · intro j x taken step a hb ha
    show Spoken (t.exchanges a) _
      (tokensBy a.text (history b taken.job.requestId)) step
    rcases hb.of_set with ⟨rfl, _, hp⟩ | ⟨hne, hb⟩
    · refine hmove.speaks_on hstep hown hin (fun hphase ha => ?_)
        (fun hd => ?_) hp ha
      · exact hI.spoken ⟨hi, hphase⟩ ha
      · exact hI.fresh (hdraw a hd) _
    · have hold := hI.spoken hb ha
      rcases hmove.tokens taken.job.requestId a.text with
        hsame | ⟨taken', a', chunk, hphase, _, htext, _⟩
      · rw [hsame]
        exact hold
      · rw [Uuid.text_inj htext] at hphase
        exact (hne (hD.distinct hb ⟨hi, hphase⟩ ha rfl)).elim
  · intro r text
    show tokensBy text (history b r) = [] ∨ ∃ a x, a.text = text ∧
      t.exchanges a = some x ∧ x.job.requestId = r ∧
        tokensBy text (history b r) <+: x.emission.told
    rcases hmove.tokens r text with
      hsame | ⟨taken, a, chunk, hphase, rfl, rfl, happend⟩
    · rw [hsame]
      exact hI.said r text
    · obtain ⟨x, hx, hjob, _, htold⟩ : Telling _ _ (_ ++ [chunk]) :=
        hI.spoken ⟨hi, hphase⟩ rfl
      have hall := happend.trans htold.symm
      exact .inr ⟨a, x, rfl, hx, congrArg _ hjob, hall ▸ List.prefix_rfl⟩
  · intro r y done hy hdone
    show ∃ a x usage, a.text = y.result.attemptId ∧ t.exchanges a = some x ∧
      x.job.requestId = r ∧ x.emission.result = some (.ok usage) ∧
      tokensBy y.result.attemptId (history b r) = x.emission.told ∧ _
    rcases hmove.recent hy with hy | htold
    · obtain ⟨a, x, usage, htext, hx, hid, hresult, hall, hcounts⟩ :=
        hI.completed hy hdone
      refine ⟨a, x, usage, htext, hx, hid, hresult, ?_, hcounts⟩
      rcases hmove.tokens r y.result.attemptId with
        hsame | ⟨taken, a', chunk, hphase, _, htext', _⟩
      · rw [hsame]
        exact hall
      · -- A backend that has returned tells nothing more.
        obtain ⟨x', hx', _, hnone, _⟩ : Telling _ _ (_ ++ [chunk]) :=
          hI.spoken ⟨hi, hphase⟩ rfl
        rw [Uuid.text_inj (htext'.trans htext.symm), hx] at hx'
        cases hx'
        rw [hnone] at hresult
        cases hresult
    · obtain ⟨taken, a, usage, hphase, rfl, hid, rfl⟩ :=
        htold.completed (fun hphase => hS.plain ⟨hi, hphase⟩) hdone
      obtain ⟨x, reported, hx, hjob, hresult, rfl, hall⟩ :
          Returned _ _ _ usage := hI.spoken ⟨hi, hphase⟩ rfl
      refine ⟨a, x, reported, hid.symm, hx, congrArg _ hjob, hresult, ?_, rfl⟩
      rw [hid, hall]
      rcases hmove.tokens taken.job.requestId a.text with
        hsame | ⟨_, _, _, hphase', _⟩
      · exact hsame
      · rw [hphase] at hphase'
        cases hphase'

/-! ## Steps of an exchange -/

/-- A step in which the exchange of one attempt begins or goes on, and the
history stays as it is. -/
theorem heard_exchange {s : Sys} {i : Nat} {e : Engine} {taken : ConsumedJob}
    {step step' : JobStep} {a : Uuid} {x : Exchange σ} (hD : Drawn t.sys)
    (hI : Heard backend t) (hb : Busy t.sys.engines i e taken step)
    (ha : attemptOf step = some a)
    (hengines : ∀ {j y taken' after}, Busy s.engines j y taken' after →
      (j = i ∧ taken' = taken ∧ after = step') ∨
        (j ≠ i ∧ Busy t.sys.engines j y taken' after))
    (ha' : attemptOf step' = some a) (hattempts : s.attempts = t.sys.attempts)
    (hcalls : s.calls = t.sys.calls)
    (hhistory : ∀ r, history s.broker r = history t.sys.broker r)
    (hknown : Known t.sys x.job)
    (hreached : Run (Emission.step backend.next) (fun _ _ => True)
      (.start (backend.start x.job)) x.emission)
    (hgrows : ∀ {y}, t.exchanges a = some y → x.job = y.job ∧
      y.emission.result = none ∧ y.emission.told <+: x.emission.told)
    (hspoken : Spoken (some x) taken.job
      (tokensBy a.text (history t.sys.broker taken.job.requestId)) step') :
    Heard backend ⟨s, Function.update t.exchanges a (some x)⟩ := by
  have hdrawn : a ∈ t.sys.attempts := hD.drawn hb ha
  refine ⟨?_, ?_, ?_, ?_, ?_⟩
  · intro a' y hy
    replace hy : Function.update t.exchanges a (some x) a' = some y := hy
    show a' ∈ s.attempts ∧ ∃ step, s.calls y.job.requestId = _ ∧ _
    rw [hattempts, hcalls]
    rcases eq_or_ne a' a with rfl | hne
    · rw [Function.update_self] at hy
      cases hy
      exact ⟨hdrawn, hknown⟩
    · rw [Function.update_of_ne hne] at hy
      exact hI.drawn hy
  · intro a' y hy
    replace hy : Function.update t.exchanges a (some x) a' = some y := hy
    rcases eq_or_ne a' a with rfl | hne
    · rw [Function.update_self] at hy
      cases hy
      exact hreached
    · rw [Function.update_of_ne hne] at hy
      exact hI.reached hy
  · intro j y taken' after a' hy hay
    show Spoken (Function.update t.exchanges a (some x) a') _
      (tokensBy a'.text (history s.broker taken'.job.requestId)) after
    rw [hhistory]
    rcases hengines hy with ⟨rfl, rfl, rfl⟩ | ⟨hne, hold⟩
    · rw [ha'] at hay
      cases hay
      rw [Function.update_self]
      exact hspoken
    · have hother : a' ≠ a := by
        rintro rfl
        exact hne (hD.distinct hold hb hay ha)
      rw [Function.update_of_ne hother]
      exact hI.spoken hold hay
  · intro r text
    show tokensBy text (history s.broker r) = [] ∨ ∃ a' y, a'.text = text ∧
      Function.update t.exchanges a (some x) a' = some y ∧
        y.job.requestId = r ∧
        tokensBy text (history s.broker r) <+: y.emission.told
    rw [hhistory]
    rcases hI.said r text with hnil | ⟨a', y, htext, hy, hid, hbegin⟩
    · exact .inl hnil
    · rcases eq_or_ne a' a with rfl | hne
      · obtain ⟨hjob, _, htold⟩ := hgrows hy
        refine .inr ⟨a', x, htext, Function.update_self .., ?_,
          hbegin.trans htold⟩
        rw [hjob]
        exact hid
      · refine .inr ⟨a', y, htext, ?_, hid, hbegin⟩
        rw [Function.update_of_ne hne]
        exact hy
  · intro r z done hz hdone
    show ∃ a' y usage, a'.text = z.result.attemptId ∧
      Function.update t.exchanges a (some x) a' = some y ∧
      y.job.requestId = r ∧ y.emission.result = some (.ok usage) ∧
      tokensBy z.result.attemptId (history s.broker r) = y.emission.told ∧ _
    replace hz : z ∈ history s.broker r := hz
    rw [hhistory] at hz ⊢
    obtain ⟨a', y, usage, htext, hy, hid, hresult, hall, hcounts⟩ :=
      hI.completed hz hdone
    refine ⟨a', y, usage, htext, ?_, hid, hresult, hall, hcounts⟩
    rcases eq_or_ne a' a with rfl | hne
    · obtain ⟨_, hnone, _⟩ := hgrows hy
      rw [hnone] at hresult
      cases hresult
    · rw [Function.update_of_ne hne]
      exact hy

/-- A step of an engine in the system, taken apart. -/
theorem engineStep_of_step {cfg : SysConfig} {s u : Sys} {i : Nat}
    {act : EngineAction} (h : s.step cfg (.engine i act) = some u) :
    ∃ e b p, s.engines[i]? = some e ∧ (∀ a ∈ act.draws, a ∉ s.attempts) ∧
      engineStep cfg.engine s.broker e act = some (b, p) ∧
      u = { s with
        broker := b
        engines := s.engines.set i { e with phase := p }
        attempts := act.draws.toList ++ s.attempts } := by
  simp only [Sys.step] at h
  split at h
  · cases h
  · next e hi =>
      split at h
      · cases h
      · next hdraw =>
          unfold Sys.engineMove at h
          split at h
          · cases h
          · next b p hengine =>
              cases h
              refine ⟨e, b, p, hi, fun a ha hmem => hdraw ?_, hengine, rfl⟩
              rw [show act.draws = some a from ha]
              simpa using hmem

/-- Who is busy after the engine that was at `step` has gone on to `step'`. -/
theorem Busy.goes_on {engines : List Engine} {i : Nat} {e : Engine}
    {taken : ConsumedJob} {step' : JobStep} {j : Nat} {y : Engine}
    {taken' : ConsumedJob} {after : JobStep}
    (h : Busy (engines.set i { e with phase := .working taken step' }) j y
      taken' after) :
    (j = i ∧ taken' = taken ∧ after = step') ∨
      (j ≠ i ∧ Busy engines j y taken' after) := by
  rcases h.of_set with ⟨hj, _, hp⟩ | hold
  · cases hp
    exact .inl ⟨hj, rfl, rfl⟩
  · exact .inr hold

theorem begin_of_ne {exchanges : Uuid → Option (Exchange σ)}
    {engine : Option Engine}
    (h : ∀ e taken a event x, engine = some e →
      e.phase ≠ .working taken (.attempt a (.publish event x))) :
    StreamingSys.begin backend exchanges engine = exchanges := by
  unfold StreamingSys.begin
  split
  · exact absurd rfl (h _ _ _ _ _ rfl)
  · rfl

theorem heard_enter {cfg : SysConfig} {s : Sys} {i : Nat} (hS : Sourced t.sys)
    (hD : Drawn t.sys) (hI : Heard backend t)
    (h : t.sys.step cfg (.engine i .enterAttempt) = some s) :
    Heard backend
      ⟨s, StreamingSys.begin backend t.exchanges s.engines[i]?⟩ := by
  obtain ⟨e, b, p, hi, hdraw, hstep, rfl⟩ := engineStep_of_step h
  have hself : (t.sys.engines.set i { e with phase := p })[i]? =
      some { e with phase := p } := by
    rw [List.getElem?_set_self (List.getElem?_eq_some_iff.mp hi).1]
  dsimp only
  rw [hself]
  have hkeep := hstep
  simp only [engineStep] at hstep
  split at hstep
  · next taken a hphase =>
      split at hstep
      · next after henter =>
          cases hstep
          unfold enterAttempt at henter
          split at henter
          · cases henter
          · split at henter <;> cases henter
            obtain ⟨hnone, hnil⟩ : t.exchanges a = none ∧ _ = [] :=
              hI.spoken ⟨hi, hphase⟩ rfl
            refine heard_exchange hD hI ⟨hi, hphase⟩ rfl (fun hy => hy.goes_on)
              rfl rfl rfl (fun _ => rfl) (hS.engines ⟨hi, hphase⟩) .refl
              (fun hy => ?_) ⟨_, rfl, rfl, rfl, ?_⟩
            · rw [hnone] at hy
              cases hy
            · rw [hnil]
              rfl
      · cases hstep
        rw [begin_of_ne fun _ _ _ _ _ he hp => by cases he; cases hp]
        exact heard_command hS hD hI hi hdraw rfl (fun _ _ _ => by simp) hkeep
  · cases hstep

theorem heard_backend (cfg : SysConfig) {i : Nat} {e : Engine}
    {taken : ConsumedJob} {a : Uuid} {x : Exchange σ} {input : ι}
    {emission : Emission σ TokenChunk AttemptResult}
    {output : Option (Output TokenChunk AttemptResult)} {s : Sys}
    (hD : Drawn t.sys) (hI : Heard backend t)
    (hb : Busy t.sys.engines i e taken (.attempt a .generate))
    (hx : t.exchanges a = some x)
    (hadvance :
      x.emission.advance backend.next input = some (emission, output))
    (hs : match output with
      | none => s = t.sys
      | some output =>
          t.sys.step cfg (.engine i (outputAction output)) = some s) :
    Heard backend ⟨s, Function.update t.exchanges a
      (some { x with emission := emission })⟩ := by
  obtain ⟨hresult, state, _, rfl⟩ := Emission.advance_spec hadvance
  obtain ⟨x', hx', hjob, _, htold⟩ : Telling (t.exchanges a) _ _ :=
    hI.spoken hb rfl
  rw [hx] at hx'
  cases hx'
  have hreached := (hI.reached hx).tail trivial
    (Emission.step_of_advance hadvance)
  have hgrows : ∀ {y}, t.exchanges a = some y → x.job = y.job ∧
      y.emission.result = none ∧
      y.emission.told <+: (x.emission.move state output).told := by
    intro y hy
    rw [hx] at hy
    cases hy
    exact ⟨rfl, hresult, Emission.told_move _ _ _⟩
  have hknown := (hI.drawn hx).2
  cases output with
  | none =>
      subst hs
      have hstays : ∀ {j y taken' after}, Busy t.sys.engines j y taken' after →
          (j = i ∧ taken' = taken ∧ after = .attempt a .generate) ∨
            (j ≠ i ∧ Busy t.sys.engines j y taken' after) := by
        intro j y taken' after hy
        rcases eq_or_ne j i with rfl | hne
        · obtain ⟨he, hphase⟩ := hy
          rw [hb.1] at he
          cases he
          rw [hb.2] at hphase
          cases hphase
          exact .inl ⟨rfl, rfl, rfl⟩
        · exact .inr ⟨hne, hy⟩
      have hspoken : Telling (some { x with emission := x.emission.move state none })
          taken.job _ := ⟨_, rfl, hjob, hresult, htold⟩
      exact heard_exchange hD hI hb rfl hstays rfl rfl rfl (fun _ => rfl) hknown
        hreached hgrows hspoken
  | some output =>
      obtain ⟨e', b, p, hi, _, hstep, rfl⟩ := engineStep_of_step hs
      rw [hb.1] at hi
      cases hi
      cases output with
      | item chunk =>
          simp only [outputAction, engineStep, hb.2, Option.some.injEq,
            Prod.mk.injEq] at hstep
          obtain ⟨rfl, rfl⟩ := hstep
          have hspoken : Telling
              (some { x with emission := x.emission.move state (some (.item chunk)) })
              taken.job (_ ++ [chunk]) :=
            ⟨_, rfl, hjob, hresult, congrArg (· ++ [chunk]) htold⟩
          exact heard_exchange hD hI hb rfl (fun hy => hy.goes_on) rfl rfl rfl
            (fun _ => rfl) hknown hreached hgrows hspoken
      | done result =>
          cases result with
          | ok usage =>
              simp only [outputAction, engineStep, hb.2, Option.some.injEq,
                Prod.mk.injEq] at hstep
              obtain ⟨rfl, rfl⟩ := hstep
              have hspoken : Returned
                  (some { x with
                    emission := x.emission.move state (some (.done (.ok usage))) })
                  taken.job _ (closeUsage usage) :=
                ⟨_, usage, rfl, hjob, rfl, rfl, htold⟩
              exact heard_exchange hD hI hb rfl (fun hy => hy.goes_on) rfl rfl
                rfl (fun _ => rfl) hknown hreached hgrows hspoken
          | error message =>
              simp only [outputAction, engineStep, hb.2, Option.some.injEq,
                Prod.mk.injEq] at hstep
              obtain ⟨rfl, rfl⟩ := hstep
              exact heard_exchange hD hI hb rfl (fun hy => hy.goes_on) rfl rfl
                rfl (fun _ => rfl) hknown hreached hgrows trivial

/-! ## Runs -/

/-- A step is a step of the system, or a silent one of a backend. -/
theorem heard_step {cfg : SysConfig} {u : StreamingSys σ}
    {l : StreamingLabel ι} (hS : Sourced t.sys) (hD : Drawn t.sys)
    (hI : Heard backend t) (h : StreamingSys.step cfg backend t l = some u) :
    Heard backend u ∧
      (u.sys = t.sys ∨ ∃ label, t.sys.step cfg label = some u.sys) := by
  unfold StreamingSys.step at h
  split at h
  · next i act =>
      split at h
      · cases h
      · next hown =>
          split at h
          · cases h
          · next s hs =>
              cases h
              refine ⟨?_, .inr ⟨_, hs⟩⟩
              split
              · next hin =>
                  subst hin
                  exact heard_enter hS hD hI hs
              · next hin =>
                  obtain ⟨e, b, p, hi, hdraw, hstep, rfl⟩ :=
                    engineStep_of_step hs
                  exact heard_command hS hD hI hi hdraw (by simpa using hown)
                    (fun heq => absurd heq hin) hstep
  · next label hl =>
      split at h
      · cases h
      · next s hs =>
          cases h
          exact ⟨heard_quiet hS hI (step_moves hs) hl, .inr ⟨_, hs⟩⟩
  · next i input =>
      split at h
      · next engineId model taken a he =>
          split at h
          · cases h
          · next x hx =>
              split at h
              · cases h
              · next emission output hadvance =>
                  have hb : Busy t.sys.engines i _ taken (.attempt a .generate) :=
                    ⟨he, rfl⟩
                  dsimp only at h
                  split at h
                  · cases h
                    exact ⟨heard_backend cfg hD hI hb hx hadvance rfl, .inl rfl⟩
                  · split at h
                    · cases h
                    · next s hs =>
                        cases h
                        exact ⟨heard_backend cfg hD hI hb hx hadvance hs,
                          .inr ⟨_, hs⟩⟩
      · cases h

end Steps

/-- What holds after every run of engines with their backends. -/
theorem heard_run {σ ι : Type} {cfg : SysConfig} {backend : Backend σ ι}
    {now : Nat} {engines : List (String × String)} {t : StreamingSys σ}
    (h : Run (StreamingSys.step cfg backend) (fun _ _ => True)
      (.init now engines) t) : Sourced t.sys ∧ Heard backend t := by
  have hI := h.invariant
    (I := fun t => Sourced t.sys ∧ Drawn t.sys ∧ Heard backend t)
    ⟨sourced_init now engines, drawn_init now engines,
      heard_init backend now engines⟩
    (by
      rintro t u l ⟨hS, hD, hI⟩ - hstep
      obtain ⟨hI', hsame | ⟨label, hlabel⟩⟩ := heard_step hS hD hI hstep
      · rw [hsame]
        exact ⟨hS, hD, hI'⟩
      · have hm := step_moves hlabel
        exact ⟨sourced_step hS hm, drawn_step hD hm, hI'⟩)
  exact ⟨hI.1, hI.2.2⟩

end DataPlane.Proofs
