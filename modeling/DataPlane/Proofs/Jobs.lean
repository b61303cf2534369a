import DataPlane.Lib.Run
import DataPlane.Proofs.Moves
import DataPlane.Proofs.ResultLog

/-!
# Where jobs come from

Nothing in the request path invents a job. Whatever an engine works on was
read from the request stream, and whatever stands in the request stream was
put there by the call that drew its request id. So a request id determines its
job, and with it the reservation, in every process that handles it.
-/

namespace DataPlane.Proofs

open DataPlane DataPlane.Lib DataPlane.Ref

/-- Engine `i` is at `step` of its work on `taken`. -/
def Busy (engines : List Engine) (i : Nat) (e : Engine) (taken : ConsumedJob)
    (step : JobStep) : Prop :=
  engines[i]? = some e ∧ e.phase = .working taken step

/-- After one engine has moved, an engine at work is that one in its new
phase, or another one where it was. -/
theorem Busy.of_set {engines : List Engine} {i j : Nat} {e x : Engine}
    {p : Phase} {taken : ConsumedJob} {step : JobStep}
    (h : Busy (engines.set i { e with phase := p }) j x taken step) :
    (j = i ∧ x.engineId = e.engineId ∧ p = .working taken step) ∨
      (j ≠ i ∧ Busy engines j x taken step) := by
  obtain ⟨hx, hphase⟩ := h
  rw [List.getElem?_set] at hx
  split at hx
  · next hij =>
      split at hx
      · cases hx
        exact .inl ⟨hij.symm, rfl, hphase⟩
      · cases hx
  · next hij => exact .inr ⟨Ne.symm hij, hx, hphase⟩

/-- Nobody is at work at the start. -/
theorem not_busy_init {now : Nat} {engines : List (String × String)} {i : Nat}
    {e : Engine} {taken : ConsumedJob} {step : JobStep} :
    ¬ Busy (Sys.init now engines).engines i e taken step := by
  rintro ⟨hmem, hphase⟩
  obtain ⟨x, _, rfl⟩ := List.mem_map.mp (List.mem_of_getElem? hmem)
  cases hphase

/-- The job was put into the request stream by the call that drew it. -/
def Known (s : Sys) (job : GenerationJob) : Prop :=
  ∃ step, s.calls job.requestId = some ⟨job, step⟩ ∧ step ≠ .publish

@[simp] theorem setCall_calls (s : Sys) (r : String) (c : Call) :
    (s.setCall r c).calls = Function.update s.calls r (some c) := rfl

/-- A call that takes a step still stands for its job. -/
theorem Known.update {s t : Sys} {job job' : GenerationJob} {step : CallStep}
    (h : Known s job)
    (ht : t.calls =
      Function.update s.calls job'.requestId (some ⟨job', step⟩))
    (hcall : ∀ c, s.calls job'.requestId = some c → c.job = job')
    (hstep : (∃ c, s.calls job'.requestId = some c) → step ≠ .publish) :
    Known t job := by
  obtain ⟨x, hx, hsent⟩ := h
  unfold Known
  rw [ht]
  rcases eq_or_ne job.requestId job'.requestId with heq | hne
  · rw [heq] at hx ⊢
    have : job = job' := hcall _ hx
    subst this
    exact ⟨step, Function.update_self _ _ _, hstep ⟨_, hx⟩⟩
  · exact ⟨x, by rw [Function.update_of_ne hne, hx], hsent⟩

@[simp] theorem resultOf_terminal (job : GenerationJob) (a : String)
    (event : Event) : (resultOf job a event).terminal = event.terminal := rfl

theorem conclusion_terminal (job : GenerationJob) (a : Uuid)
    (result : AttemptResult) : (conclusion job a result).terminal = true := by
  cases result <;> rfl

@[simp] theorem conclusion_requestId (job : GenerationJob) (a : Uuid)
    (result : AttemptResult) :
    (conclusion job a result).requestId = job.requestId := by
  cases result <;> rfl

/-- Jobs, wherever they are, come from the calls. -/
structure Sourced (s : Sys) : Prop where
  calls : ∀ {r c}, s.calls r = some c →
    c.job.requestId = r ∧ c.job.reservationId ∈ s.reservations
  entries : ∀ {entry job}, Broker.Holds s.broker entry →
    entry.payload = .job job → Known s job
  engines : ∀ {i e taken step}, Busy s.engines i e taken step →
    Known s taken.job
  plain : ∀ {i e taken a event x},
    Busy s.engines i e taken (.attempt a (.publish event x)) →
    event.terminal = false

/-! ## One step -/

/-- No engine adds to the request stream. -/
theorem Move.holds {cfg : EngineConfig} {b b' : Broker} {e : Engine}
    {act : EngineAction} {p : Phase} (h : Move cfg b e act b' p)
    {entry : RequestEntry} (hentry : Broker.Holds b' entry) :
    Broker.Holds b entry := by
  cases h with
  | roam _ hb _ => exact hb.holds _ hentry
  | take _ hb _ _ => exact hb.holds _ hentry
  | acknowledge _ => exact (acknowledge_shuffles _ _).holds _ hentry
  | renew _ _ => rw [renewLease_frame] at hentry; exact hentry
  | release _ => rw [releaseLease_frame] at hentry; exact hentry
  | _ => exact hentry

/-- An engine works on what it worked on, or on what it has just read. -/
theorem Move.source {cfg : EngineConfig} {b b' : Broker} {e : Engine}
    {act : EngineAction} {p : Phase} {taken : ConsumedJob} {step : JobStep}
    (h : Move cfg b e act b' p) (hp : p = .working taken step) :
    (∃ step', e.phase = .working taken step') ∨
      (step = .start ∧
        ∃ entry, Broker.Holds b entry ∧ entry.payload = .job taken.job) := by
  cases h with
  | roam _ _ hidle | abandon _ _ hidle => exact absurd hp hidle.ne_working
  | take _ _ hentry htakes =>
      obtain ⟨job, hjob, rfl⟩ := htakes
      cases hp
      exact .inr ⟨rfl, _, hentry, hjob⟩
  | crash | notAcquired _ | acknowledge _ => cases hp
  | _ => cases hp; exact .inl ⟨_, ‹_›⟩

theorem Sourced.call_unique {s : Sys} (hI : Sourced s) {r : String} {c : Call}
    (h : s.calls r = some c) :
    r = c.job.requestId ∧
      ∀ c', s.calls c.job.requestId = some c' → c'.job = c.job := by
  have hr := (hI.calls h).1
  refine ⟨hr.symm, fun c' hc' => ?_⟩
  rw [hr, h] at hc'
  cases hc'
  rfl

theorem Moves.known {cfg : SysConfig} {s t : Sys} {l : Label}
    {job : GenerationJob} (hI : Sourced s) (h : Moves cfg s l t)
    (hk : Known s job) : Known t job := by
  cases h with
  | tick | refused | foreign | engine => exact hk
  | reserved hcall _ _ =>
      refine hk.update rfl (fun c hc => ?_) fun ⟨c, hc⟩ => ?_
      · rw [hcall] at hc
        cases hc
      · rw [hcall] at hc
        cases hc
  | dispatch hcall | queue hcall | failDispatch hcall | cancelDispatch hcall =>
      obtain ⟨rfl, hm⟩ := hI.call_unique hcall
      exact hk.update rfl hm fun _ => nofun

/-- A call keeps its job and its drawn ids when it takes a step. -/
theorem Sourced.calls_update {s : Sys} (hI : Sourced s) {r : String}
    {c c' : Call} (h : s.calls r = some c) {r' : String} {x : Call}
    (hx : Function.update s.calls r (some c') r' = some x)
    (hjob : c'.job = c.job) :
    x.job.requestId = r' ∧ x.job.reservationId ∈ s.reservations := by
  rcases eq_or_ne r' r with rfl | hne
  · rw [Function.update_self] at hx
    cases hx
    rw [hjob]
    exact hI.calls h
  · rw [Function.update_of_ne hne] at hx
    exact hI.calls hx

theorem holds_appendRequest {b : Broker} {payload : Payload}
    {entry : RequestEntry}
    (h : Broker.Holds (b.appendRequest payload).2 entry) :
    Broker.Holds b entry ∨ entry.payload = payload := by
  rcases h with h | h
  · rcases List.mem_append.mp h with h | h
    · exact .inl (.inl h)
    · rw [List.mem_singleton.mp h]
      exact .inr rfl
  · exact .inl (.inr h)

/-- What an attempt publishes while it runs ends nothing. -/
theorem Move.plain {cfg : EngineConfig} {b b' : Broker} {e : Engine}
    {act : EngineAction} {p : Phase} {taken : ConsumedJob} {a : Uuid}
    {event : Event} {x : Publish} (h : Move cfg b e act b' p)
    (hp : p = .working taken (.attempt a (.publish event x))) :
    event.terminal = false ∨
      ∃ y, e.phase = .working taken (.attempt a (.publish event y)) := by
  cases h with
  | roam _ _ hidle | abandon _ _ hidle => exact absurd hp hidle.ne_working
  | take _ _ _ htakes => obtain ⟨job, _, rfl⟩ := htakes; cases hp
  | entered _ => cases hp; exact .inl rfl
  | token _ => cases hp; exact .inl rfl
  | append hphase => cases hp; exact .inr ⟨_, hphase⟩
  | renew hphase _ => cases hp; exact .inr ⟨_, hphase⟩
  | _ => cases hp

theorem sourced_init (now : Nat) (engines : List (String × String)) :
    Sourced (Sys.init now engines) where
  calls h := by cases h
  entries h _ := by rcases h with h | ⟨_, h, _⟩ <;> cases h
  engines h := (not_busy_init h).elim
  plain h := (not_busy_init h).elim

theorem Moves.calls {cfg : SysConfig} {s t : Sys} {l : Label}
    (hI : Sourced s) (h : Moves cfg s l t) {r : String} {c : Call}
    (hc : t.calls r = some c) :
    c.job.requestId = r ∧ c.job.reservationId ∈ t.reservations := by
  cases h with
  | tick | foreign | engine => exact hI.calls hc
  | refused =>
      obtain ⟨hr, hmem⟩ := hI.calls hc
      exact ⟨hr, List.mem_cons_of_mem _ hmem⟩
  | @reserved job =>
      rcases eq_or_ne r job.requestId with rfl | hne
      · rw [setCall_calls, Function.update_self] at hc
        cases hc
        exact ⟨rfl, List.mem_cons_self⟩
      · rw [setCall_calls, Function.update_of_ne hne] at hc
        obtain ⟨hr, hmem⟩ := hI.calls hc
        exact ⟨hr, List.mem_cons_of_mem _ hmem⟩
  | dispatch hcall | queue hcall | failDispatch hcall | cancelDispatch hcall =>
      exact hI.calls_update hcall hc rfl

theorem Moves.entries {cfg : SysConfig} {s t : Sys} {l : Label}
    (hI : Sourced s) (h : Moves cfg s l t) {entry : RequestEntry}
    {job : GenerationJob} (he : Broker.Holds t.broker entry)
    (hjob : entry.payload = .job job) : Known t job := by
  have hold : Broker.Holds s.broker entry → Known t job :=
    fun he => h.known hI (hI.entries he hjob)
  cases h with
  | tick | refused | reserved | queue | failDispatch | cancelDispatch =>
      exact hold he
  | @dispatch r job' hcall =>
      rcases holds_appendRequest he with he | hp
      · exact hold he
      · rw [hp] at hjob
        cases hjob
        obtain ⟨rfl, _⟩ := hI.call_unique hcall
        exact ⟨_, Function.update_self _ _ _, nofun⟩
  | foreign =>
      rcases holds_appendRequest he with he | hp
      · exact hold he
      · rw [hp] at hjob
        cases hjob
  | engine _ _ hmove => exact hold (hmove.holds he)

theorem sourced_step {cfg : SysConfig} {s t : Sys} {l : Label}
    (hI : Sourced s) (h : Moves cfg s l t) : Sourced t := by
  refine ⟨h.calls hI, h.entries hI,
    fun he => h.known hI ?_, fun he => ?_⟩
  · cases h with
    | @engine i act e _ _ hi _ hmove =>
        rcases he.of_set with ⟨_, _, hp⟩ | ⟨_, he⟩
        · rcases hmove.source hp with ⟨step, hphase⟩ | ⟨_, entry, hin, hjob⟩
          · exact hI.engines ⟨hi, hphase⟩
          · exact hI.entries hin hjob
        · exact hI.engines he
    | _ => exact hI.engines he
  · cases h with
    | @engine i act e _ _ hi _ hmove =>
        rcases he.of_set with ⟨_, _, hp⟩ | ⟨_, he⟩
        · rcases hmove.plain hp with hplain | ⟨y, hphase⟩
          · exact hplain
          · exact hI.plain ⟨hi, hphase⟩
        · exact hI.plain he
    | _ => exact hI.plain he

/-- In every reachable state jobs come from calls. -/
theorem sourced_of_run {cfg : SysConfig} {ok : Sys → Label → Prop} {now : Nat}
    {engines : List (String × String)} {s : Sys}
    (h : Run (Sys.step cfg) ok (Sys.init now engines) s) : Sourced s :=
  h.invariant (sourced_init now engines)
    fun hI _ hstep => sourced_step hI (step_moves hstep)

end DataPlane.Proofs
