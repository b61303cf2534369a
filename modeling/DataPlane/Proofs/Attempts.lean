import DataPlane.Proofs.SingleWriter

/-!
# Attempts follow one another

Two attempts of one request should not mix: once the later one has started, the
earlier one is silent. The lease arranges for that while the backend runs. It is
given back before the attempt's reservation is settled and its terminal event
appended, though, and an engine that has read the status in the meantime can
acquire it and start. That is the only way: in a run where no attempt starts
while another engine stands between its release and its terminal event, and no
deadline passes, attempts follow one another.

Earlier and later are in the order in which the attempt ids were drawn.
-/

namespace DataPlane.Proofs

open DataPlane DataPlane.Lib DataPlane.Ref

/-- Everything ever appended for a request, in order, expired or not. -/
def history (b : Broker) (requestId : String) : List ResultEntry :=
  (b.incarnations requestId).flatMap (·.value)

/-- Attempt `a` was drawn before the one with the given text. -/
def Older (attempts : List Uuid) (a : Uuid) (text : String) : Prop :=
  ∃ newer b older, attempts = newer ++ b :: older ∧ b.text = text ∧ a ∈ older

/-- No attempt is heard of after a later one has started. -/
def Apart (attempts : List Uuid) (entries : List ResultEntry) : Prop :=
  ∀ pre x post, entries = pre ++ x :: post →
    x.result.event = some .attemptStarted → ∀ y ∈ post, ∀ a,
    Older attempts a x.result.attemptId → y.result.attemptId ≠ a.text

/-- The attempt has given its lease back and owes its terminal event. -/
def owesTerminal : JobStep → Bool
  | .settle _ _ | .conclude _ _ .append => true
  | _ => false

/-- An attempt starts only when no other engine owes a terminal event for the
request. -/
def startsAlone (s : Sys) : Label → Bool
  | .engine i .command =>
      match s.engines[i]? with
      | some ⟨_, _,
          .working taken (.attempt _ (.publish .attemptStarted .append))⟩ =>
          !elsewhere s i taken.job.requestId owesTerminal
      | _ => true
  | _ => true

/-- No engine finds the deadline passed. -/
def inTime (s : Sys) : Label → Bool
  | .engine i (.testDeadline unixMs) =>
      match s.engines[i]? with
      | some ⟨_, _, .working taken .start⟩ => !deadlinePassed taken.job unixMs
      | _ => true
  | _ => true

/-- The attempt an engine may still append an event of. -/
def pendingAttempt : JobStep → Option Uuid
  | .attempt a _ | .release a _ | .settle a _ | .conclude a _ .append => some a
  | _ => none

theorem attemptOf_of_pending {step : JobStep} {a : Uuid}
    (h : pendingAttempt step = some a) : attemptOf step = some a := by
  unfold pendingAttempt at h
  split at h
  · exact h
  · exact h
  · exact h
  · exact h
  · cases h

theorem leased_or_owes {step : JobStep} {a : Uuid}
    (h : pendingAttempt step = some a) :
    leasedAttempt step = some a ∨ owesTerminal step = true := by
  unfold pendingAttempt at h
  split at h
  · exact .inl h
  · exact .inl h
  · exact .inr rfl
  · exact .inr rfl
  · cases h

/-! ## The order of attempts -/

theorem Older.mem {attempts : List Uuid} {a : Uuid} {text : String}
    (h : Older attempts a text) : a ∈ attempts := by
  obtain ⟨newer, b, older, rfl, _, ha⟩ := h
  simp [ha]

theorem not_older_self {attempts : List Uuid} (hn : attempts.Nodup) (a : Uuid) :
    ¬ Older attempts a a.text := by
  rintro ⟨newer, b, older, rfl, hb, ha⟩
  rw [Uuid.text_inj hb] at hn
  have := (List.nodup_cons.mp (List.nodup_append.mp hn).2.1).1
  exact this ha

/-- A new draw does not change the order of what was drawn before. -/
theorem Older.of_cons {attempts : List Uuid} {a c : Uuid} {text : String}
    (hc : c.text ≠ text) (h : Older (c :: attempts) a text) :
    Older attempts a text := by
  obtain ⟨newer, b, older, heq, hb, ha⟩ := h
  cases newer with
  | nil =>
      simp only [List.nil_append, List.cons.injEq] at heq
      rw [heq.1] at hc
      exact absurd hb hc
  | cons d ds =>
      simp only [List.cons_append, List.cons.injEq] at heq
      exact ⟨ds, b, older, heq.2, hb, ha⟩

/-! ## What a step appends -/

theorem history_appendResult (b : Broker) (res : GenerationResult) :
    history (b.appendResult res).2 res.requestId =
      history b res.requestId ++ [newEntry b res] := by
  unfold history
  rcases incarnations_appendResult b res with
    ⟨pre, c, _, hold, hnew⟩ | ⟨_, hnew⟩
  · rw [hold, hnew]
    simp
  · rw [hnew]
    simp

theorem history_appendResult_ne (b : Broker) (res : GenerationResult)
    {r : String} (h : r ≠ res.requestId) :
    history (b.appendResult res).2 r = history b r := by
  rw [history, incarnations_appendResult_ne b res h, history]

theorem history_recordResult (b : Broker) (cfg : StreamsConfig)
    (res : GenerationResult) (eventId : StreamId) (r : String) :
    history (b.recordResult cfg res eventId) r = history b r := by
  unfold history
  rcases eq_or_ne r res.requestId with rfl | hne
  · rcases incarnations_recordResult b cfg res eventId with
      ⟨pre, c, _, hold, hnew⟩ | ⟨_, hnew⟩
    · rw [hold, hnew]
      simp
    · rw [hnew]
  · rw [incarnations_recordResult_ne b cfg res eventId hne]

/-- What a move adds to the history of a request: nothing, or an event of the
attempt the engine is in. -/
inductive HistoryEffect (b b' : Broker) (e : Engine) (act : EngineAction)
    (r : String) : Prop
  | same (h : history b' r = history b r)
  | extended {taken : ConsumedJob} {step : JobStep} {a : Uuid}
      (entry : ResultEntry) (hphase : e.phase = .working taken step)
      (ha : pendingAttempt step = some a) (hid : taken.job.requestId = r)
      (hentry : entry.result.attemptId = a.text)
      (hstart : entry.result.event = some .attemptStarted →
        act = .command ∧ step = .attempt a (.publish .attemptStarted .append))
      (h : history b' r = history b r ++ [entry])
  | expired {taken : ConsumedJob}
      (hphase : e.phase = .working taken (.failExpired .append))

theorem Move.appends {cfg : EngineConfig} {b b' : Broker} {e : Engine}
    {act : EngineAction} {p : Phase} (h : Move cfg b e act b' p) (r : String) :
    HistoryEffect b b' e act r := by
  cases h with
  | roam _ hb _ => rw [hb.frame]; exact .same rfl
  | take _ hb _ _ => rw [hb.frame]; exact .same rfl
  | failAppend hphase => exact .expired hphase
  | @append taken a event hphase =>
      rcases eq_or_ne r taken.job.requestId with rfl | hne
      · refine .extended _ hphase rfl rfl rfl (fun hs => ?_)
          (history_appendResult b (resultOf taken.job a.text event))
        cases hs
        exact ⟨rfl, rfl⟩
      · exact .same (history_appendResult_ne b _ hne)
  | @concludeAppend taken a result hphase =>
      rcases eq_or_ne r taken.job.requestId with rfl | hne
      · have := history_appendResult b (conclusion taken.job a result)
        rw [conclusion_requestId] at this
        refine .extended _ hphase rfl rfl ?_ (fun hs => ?_) this
        · cases result <;> rfl
        · cases result <;> cases hs
      · rw [← conclusion_requestId] at hne
        exact .same (history_appendResult_ne b _ hne)
  | failRecord _ | record _ | concludeRecord _ =>
      exact .same (history_recordResult _ _ _ _ _)
  | renew _ _ => rw [renewLease_frame]; exact .same rfl
  | release _ => rw [releaseLease_frame]; exact .same rfl
  | _ => exact .same rfl

/-- An engine has an attempt pending because it had, or drew it just now. -/
theorem Move.pending {cfg : EngineConfig} {b b' : Broker} {e : Engine}
    {act : EngineAction} {p : Phase} {taken : ConsumedJob} {step : JobStep}
    {a : Uuid} (h : Move cfg b e act b' p) (hp : p = .working taken step)
    (ha : pendingAttempt step = some a) :
    (∃ step', e.phase = .working taken step' ∧
      pendingAttempt step' = some a) ∨ act.draws = some a := by
  cases h with
  | roam _ _ hidle | abandon _ _ hidle => exact absurd hp hidle.ne_working
  | take _ _ _ htakes => obtain ⟨job, _, rfl⟩ := htakes; cases hp; cases ha
  | crash | notAcquired | acknowledge => cases hp
  | acquired _ _ _ => cases hp; cases ha; exact .inr rfl
  | renew hphase _ => cases hp; exact .inl ⟨_, hphase, ha⟩
  | entered hphase | token hphase | ended hphase | append hphase
  | record hphase | release hphase | settle hphase =>
      cases hp; cases ha; exact .inl ⟨_, hphase, rfl⟩
  | _ => cases hp; cases ha

/-- The steps of the deadline branch. -/
def expiredStep : JobStep → Bool
  | .cancelExpired | .failExpired _ => true
  | _ => false

theorem Move.expiredStep_of {cfg : EngineConfig} {b b' : Broker} {e : Engine}
    {act : EngineAction} {p : Phase} {taken : ConsumedJob} {step : JobStep}
    (h : Move cfg b e act b' p) (hp : p = .working taken step)
    (hx : expiredStep step = true) :
    (∃ step', e.phase = .working taken step' ∧ expiredStep step' = true) ∨
      ∃ unixMs, act = .testDeadline unixMs ∧ e.phase = .working taken .start ∧
        deadlinePassed taken.job unixMs = true := by
  cases h with
  | roam _ _ hidle | abandon _ _ hidle => exact absurd hp hidle.ne_working
  | take _ _ _ htakes => obtain ⟨job, _, rfl⟩ := htakes; cases hp; cases hx
  | crash | notAcquired | acknowledge => cases hp
  | expired hphase hpassed => cases hp; exact .inr ⟨_, rfl, hphase, hpassed⟩
  | renew hphase _ => cases hp; exact .inl ⟨_, hphase, hx⟩
  | cancelExpired hphase | failAppend hphase =>
      cases hp; exact .inl ⟨_, hphase, rfl⟩
  | _ => cases hp; cases hx

/-! ## The invariant -/

/-- Attempts start in the order in which they were drawn. -/
structure InOrder (s : Sys) : Prop where
  drawnOnce : s.attempts.Nodup
  punctual : ∀ {i e taken step}, Busy s.engines i e taken step →
    expiredStep step = false
  known : ∀ {r x}, x ∈ history s.broker r →
    x.result.event = some .attemptStarted →
    ∃ b ∈ s.attempts, b.text = x.result.attemptId
  superseded : ∀ {r x i e taken step a}, x ∈ history s.broker r →
    x.result.event = some .attemptStarted → Busy s.engines i e taken step →
    taken.job.requestId = r → pendingAttempt step = some a →
    ¬ Older s.attempts a x.result.attemptId
  apart : ∀ r, Apart s.attempts (history s.broker r)

theorem inOrder_init (now : Nat) (engines : List (String × String)) :
    InOrder (Sys.init now engines) where
  drawnOnce := List.nodup_nil
  punctual hb := (not_busy_init hb).elim
  known hx := by cases hx
  superseded _ _ hb := (not_busy_init hb).elim
  apart _ := by intro pre x post h; cases pre <;> cases h

theorem apart_append {attempts : List Uuid} {entries : List ResultEntry}
    {y : ResultEntry} (h : Apart attempts entries)
    (hy : ∀ x ∈ entries, x.result.event = some .attemptStarted → ∀ a,
      Older attempts a x.result.attemptId → y.result.attemptId ≠ a.text) :
    Apart attempts (entries ++ [y]) := by
  intro pre x post heq hx z hz
  rcases List.eq_nil_or_concat' post with rfl | ⟨init, w, rfl⟩
  · cases hz
  · have hsnoc : entries ++ [y] = (pre ++ x :: init) ++ [w] := by
      simpa using heq
    obtain ⟨hentries, hw⟩ := List.append_inj' hsnoc rfl
    cases hw
    rcases List.mem_append.mp hz with hz | hz
    · exact h pre x init hentries hx z hz
    · rw [List.mem_singleton.mp hz]
      exact hy x (by rw [hentries]; simp) hx

/-- While an attempt starts, every other attempt of the request is over. -/
theorem starts_alone {cfg : SysConfig} {s : Sys} {i j : Nat} {e x : Engine}
    {taken taken' : ConsumedJob} {step' : JobStep} {a a' : Uuid}
    (hL : Leased cfg s) (hok : startsAlone s (.engine i .command) = true)
    (hi : Busy s.engines i e taken
      (.attempt a (.publish .attemptStarted .append)))
    (hj : Busy s.engines j x taken' step')
    (hid : taken'.job.requestId = taken.job.requestId)
    (ha' : pendingAttempt step' = some a') : j = i := by
  by_contra hne
  rcases leased_or_owes ha' with hl | howes
  · exact hne (hL.exclusive hj hi hl rfl hid)
  · obtain ⟨engineId, model, phase⟩ := e
    obtain ⟨he, hphase⟩ := hi
    dsimp only at hphase
    subst hphase
    simp only [startsAlone, he, Bool.not_eq_true'] at hok
    rw [← hid] at hok
    rw [hj.not_elsewhere hne hok] at howes
    cases howes

/-- The draws of a step. -/
theorem older_of_draws {s : Sys} {act : EngineAction} {a : Uuid}
    {text : String} (hdraw : ∀ a ∈ act.draws, a ∉ s.attempts)
    (hknown : ∃ b ∈ s.attempts, b.text = text)
    (h : Older (act.draws.toList ++ s.attempts) a text) :
    Older s.attempts a text := by
  cases hd : act.draws with
  | none => rw [hd] at h; exact h
  | some c =>
      rw [hd] at h
      obtain ⟨b, hb, rfl⟩ := hknown
      refine Older.of_cons (c := c) (fun heq => ?_) h
      rw [← Uuid.text_inj heq] at hb
      exact hdraw c hd hb

/-- An attempt that is pending after a move is not older than one that had
started before it. -/
theorem InOrder.superseded_move {cfg : SysConfig} {s : Sys} {i j : Nat}
    {e y : Engine} {act : EngineAction} {b : Broker} {p : Phase}
    {taken : ConsumedJob} {step : JobStep} {a : Uuid} {x : ResultEntry}
    (hI : InOrder s) (hi : s.engines[i]? = some e)
    (hdraw : ∀ a ∈ act.draws, a ∉ s.attempts)
    (hmove : Move cfg.engine s.broker e act b p)
    (hx : x ∈ history s.broker taken.job.requestId)
    (hs : x.result.event = some .attemptStarted)
    (hb : Busy (s.engines.set i { e with phase := p }) j y taken step)
    (ha : pendingAttempt step = some a) :
    ¬ Older (act.draws.toList ++ s.attempts) a x.result.attemptId := by
  intro holder
  have hold := older_of_draws hdraw (hI.known hx hs) holder
  rcases hb.of_set with ⟨_, _, hp⟩ | ⟨_, hb⟩
  · rcases hmove.pending hp ha with ⟨step', hphase, ha'⟩ | hd
    · exact hI.superseded hx hs ⟨hi, hphase⟩ rfl ha' hold
    · exact hdraw a hd hold.mem
  · exact hI.superseded hx hs hb rfl ha hold

theorem inOrder_move {cfg : SysConfig} {s : Sys} {i : Nat} {e : Engine}
    {act : EngineAction} {b : Broker} {p : Phase} (hL : Leased cfg s)
    (hI : InOrder s) (htime : inTime s (.engine i act) = true)
    (hok : startsAlone s (.engine i act) = true)
    (hi : s.engines[i]? = some e) (hdraw : ∀ a ∈ act.draws, a ∉ s.attempts)
    (hmove : Move cfg.engine s.broker e act b p) :
    InOrder { s with
      broker := b
      engines := s.engines.set i { e with phase := p }
      attempts := act.draws.toList ++ s.attempts } where
  drawnOnce := by
    cases hd : act.draws with
    | none => exact hI.drawnOnce
    | some c => exact List.nodup_cons.mpr ⟨hdraw c hd, hI.drawnOnce⟩
  punctual {j x taken step} hb := by
    rcases hb.of_set with ⟨_, _, hp⟩ | ⟨_, hb⟩
    · refine Bool.eq_false_iff.mpr fun hx => ?_
      rcases hmove.expiredStep_of hp hx with ⟨y, hphase, hy⟩ |
        ⟨unixMs, rfl, hphase, hpassed⟩
      · rw [hI.punctual ⟨hi, hphase⟩] at hy
        cases hy
      · obtain ⟨engineId, model, phase⟩ := e
        dsimp only at hphase
        subst hphase
        simp [inTime, hi, hpassed] at htime
    · exact hI.punctual hb
  known {r x} hx hs := by
    have hkeep : ∀ {text}, (∃ b ∈ s.attempts, b.text = text) →
        ∃ b ∈ act.draws.toList ++ s.attempts, b.text = text :=
      fun ⟨c, hc, ht⟩ => ⟨c, List.mem_append_right _ hc, ht⟩
    cases hmove.appends r with
    | same h => rw [h] at hx; exact hkeep (hI.known hx hs)
    | expired hphase => cases hI.punctual ⟨hi, hphase⟩
    | extended entry hphase ha hid hentry _ h =>
        rw [h] at hx
        rcases List.mem_append.mp hx with hx | hx
        · exact hkeep (hI.known hx hs)
        · rw [List.mem_singleton.mp hx, hentry]
          exact hkeep ⟨_, hL.drawn ⟨hi, hphase⟩ (attemptOf_of_pending ha), rfl⟩
  superseded {r x j y taken step a} hx hs hb hr ha := by
    subst hr
    cases hmove.appends taken.job.requestId with
    | same h =>
        rw [h] at hx
        exact hI.superseded_move hi hdraw hmove hx hs hb ha
    | expired hphase => cases hI.punctual ⟨hi, hphase⟩
    | @extended taken' step' a' entry hphase ha' hid hentry hstart h =>
        rw [h] at hx
        rcases List.mem_append.mp hx with hx | hx
        · exact hI.superseded_move hi hdraw hmove hx hs hb ha
        · rw [List.mem_singleton.mp hx] at hs ⊢
          obtain ⟨rfl, rfl⟩ := hstart hs
          rw [hentry]
          rcases hb.of_set with ⟨_, _, hp⟩ | ⟨hne, hb⟩
          · -- The engine itself: no attempt is older than itself.
            rcases hmove.pending hp ha with ⟨z, hphase', hz⟩ | hd
            · rw [hphase] at hphase'
              cases hphase'
              cases hz
              exact not_older_self hI.drawnOnce _
            · cases hd
          · exact (hne (starts_alone hL hok ⟨hi, hphase⟩ hb hid.symm ha)).elim
  apart r := by
    have hold : Apart (act.draws.toList ++ s.attempts)
        (history s.broker r) := by
      intro pre x post hsplit hs y hy a holder
      refine hI.apart r pre x post hsplit hs y hy a ?_
      have hx : x ∈ history s.broker r := by rw [hsplit]; simp
      exact older_of_draws hdraw (hI.known hx hs) holder
    show Apart _ (history b r)
    cases hmove.appends r with
    | same h => rw [h]; exact hold
    | expired hphase => cases hI.punctual ⟨hi, hphase⟩
    | extended entry hphase ha hid hentry _ h =>
        rw [h]
        refine apart_append hold fun x hx hs a' holder heq => ?_
        rw [hentry] at heq
        rw [← Uuid.text_inj heq] at holder
        exact hI.superseded hx hs ⟨hi, hphase⟩ hid ha
          (older_of_draws hdraw (hI.known hx hs) holder)

theorem inOrder_step {cfg : SysConfig} {s t : Sys} {l : Label}
    (hL : Leased cfg s) (hI : InOrder s) (htime : inTime s l = true)
    (hok : startsAlone s l = true) (h : Moves cfg s l t) : InOrder t := by
  cases h with
  | engine hi hdraw hmove => exact inOrder_move hL hI htime hok hi hdraw hmove
  | _ =>
      exact ⟨hI.drawnOnce, hI.punctual, hI.known, hI.superseded, hI.apart⟩

/-- Attempts of a request follow one another in every run in which no lease
runs out under its owner, no deadline has passed, and no attempt starts while
another engine that has given its lease back still owes the terminal event of
its own. Crashes and failed commands make no difference. -/
theorem attempts_follow (cfg : SysConfig) (now : Nat)
    (engines : List (String × String)) (s : Sys)
    (h : Run (Sys.step cfg)
      (fun s l => leaseKept s l = true ∧ inTime s l = true ∧
        startsAlone s l = true)
      (Sys.init now engines) s) (r : String) :
    Apart s.attempts (history s.broker r) := by
  have hI := h.invariant (I := fun s => Leased cfg s ∧ InOrder s)
    ⟨leased_init cfg now engines, inOrder_init now engines⟩
    fun ⟨hL, hO⟩ hok hstep =>
      have hm := step_moves hstep
      ⟨leased_step hL hok.1 hm, inOrder_step hL hO hok.2.1 hok.2.2 hm⟩
  exact hI.2.apart r

/-- The attempt an entry belongs to, and whether it started it. -/
def mark (x : ResultEntry) : String × Bool :=
  (x.result.attemptId, decide (x.result.event = some .attemptStarted))

/-- The marks of a request's events, in order. -/
def written (s : Sys) (requestId : String) : List (String × Bool) :=
  (history s.broker requestId).map mark

theorem not_apart_of_marks {n older : List Uuid} {a c : Uuid}
    {entries : List ResultEntry} {p q : List (String × Bool)} {flag : Bool}
    (ha : a ∈ older) (hmarks : entries.map mark = p ++ (c.text, true) :: q)
    (hq : (a.text, flag) ∈ q) : ¬ Apart (n ++ c :: older) entries := by
  intro h
  obtain ⟨pre, rest, rfl, _, hrest⟩ := List.map_eq_append_iff.mp hmarks
  obtain ⟨x, post, rfl, hx, rfl⟩ := List.map_eq_cons_iff.mp hrest
  obtain ⟨y, hy, hmark⟩ := List.mem_map.mp hq
  obtain ⟨hxid, hstart⟩ := Prod.mk.inj hx
  refine h pre x post rfl (by simpa using hstart) y hy a ?_
    (Prod.mk.inj hmark).1
  exact ⟨n, c, older, rfl, hxid.symm, ha⟩

/-- The first engine crashes while it generates; the second reclaims the entry
after the lease has run out, and completes. -/
theorem attempts_follow_reclaimed :
    ∃ s, Run (Sys.step sampleConfig)
        (fun s l => leaseKept s l = true ∧ inTime s l = true ∧
          startsAlone s l = true)
        (Sys.init 1000 [("e1", "m"), ("e2", "m")]) s ∧
      written s "r" = [((sampleUuid 0).text, true),
        ((sampleUuid 1).text, true), ((sampleUuid 1).text, false)] ∧
      Apart s.attempts (history s.broker "r") := by
  obtain ⟨s, hrun, hs⟩ := run_of_exec_map (Sys.step sampleConfig)
    (fun s l => leaseKept s l = true ∧ inTime s l = true ∧
      startsAlone s l = true)
    (fun s l => leaseKept s l && inTime s l && startsAlone s l)
    (Sys.init 1000 [("e1", "m"), ("e2", "m")])
    (dispatched ++ started 0 (sampleUuid 0) 1000 ++
      [.engine 0 .crash, .tick 90000, .engine 1 .poll,
        .engine 1 (.reclaim (some 0))] ++
      started 1 (sampleUuid 1) 91000 ++ released 1 ++ concluded 1)
    (fun s => written s "r")
    (b := [((sampleUuid 0).text, true), ((sampleUuid 1).text, true),
      ((sampleUuid 1).text, false)])
    (fun _ _ h => by simpa [and_assoc] using h) (by decide)
  exact ⟨s, hrun, hs, attempts_follow sampleConfig 1000 _ s hrun "r"⟩

/-- No engine crashes and no command fails. -/
def unbroken : Label → Bool
  | .failDispatch _ | .engine _ .crash | .engine _ (.fail _) => false
  | _ => true

/-- The first engine keeps its lease alive until the second has reclaimed the
entry and read the status. It then releases; the second acquires the lease and
starts; and the first one's completion follows. -/
theorem attempts_mixed_released :
    ∃ s, Run (Sys.step sampleConfig)
        (fun s l => unbroken l = true ∧ leaseKept s l = true ∧
          inTime s l = true)
        (Sys.init 1000 [("e1", "m"), ("e2", "m")]) s ∧
      ¬ Apart s.attempts (history s.broker "r") := by
  obtain ⟨s, hrun, hs⟩ := run_of_exec_map (Sys.step sampleConfig)
    (fun s l => unbroken l = true ∧ leaseKept s l = true ∧ inTime s l = true)
    (fun s l => unbroken l && leaseKept s l && inTime s l)
    (Sys.init 1000 [("e1", "m"), ("e2", "m")])
    (dispatched ++ started 0 (sampleUuid 0) 1000 ++
      [.tick 45000, .engine 0 .renewLease, .tick 45000, .engine 1 .poll,
        .engine 1 (.reclaim (some 0)), .engine 1 (.testDeadline 91000),
        .engine 1 .command] ++ released 0 ++
      [.engine 1 (.acquireLease (sampleUuid 1)), .engine 1 .enterAttempt,
        .engine 1 .command] ++ concluded 0)
    (fun s => (s.attempts, written s "r"))
    (b := ([sampleUuid 1, sampleUuid 0],
      [((sampleUuid 0).text, true), ((sampleUuid 1).text, true),
        ((sampleUuid 0).text, false)]))
    (fun _ _ h => by simpa [and_assoc] using h) (by decide)
  refine ⟨s, hrun, fun hapart => ?_⟩
  obtain ⟨hdrawn, hwritten⟩ := Prod.mk.inj hs
  rw [hdrawn] at hapart
  exact not_apart_of_marks (n := []) (List.mem_singleton_self _)
    (p := [((sampleUuid 0).text, true)]) hwritten (List.mem_singleton_self _)
    hapart

end DataPlane.Proofs
