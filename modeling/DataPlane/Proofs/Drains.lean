import DataPlane.Proofs.HostCalls

/-!
# How long a drain lasts

`DrainModel` marks the tracked process as draining. An `EnsureModel` call that
comes later may mark it ready again, that is what the call is for. A call that
came earlier should not, and may: it has given up the lock to probe the port,
and when it has the lock again it looks whether the process is still the
model's, and not at what has become of its state.

Such a call is one that the drain finds on its way to its last critical
section. `mayConfirm` says which these are; without one of them the drain
lasts, with one of them it can be lost.
-/

namespace DataPlane.Proofs

open DataPlane DataPlane.Lib DataPlane.Ref.HostAgent

/-- The call a step belongs to. -/
def callOf : HostStep → Option Nat
  | .enter i _ _ | .probe i _ | .confirm i | .report i | .wake i _ | .expire i
  | .giveUp i _ => some i
  | _ => none

/-- The call is on its way to mark the process ready. One that is yet to look
for a process of its model is if it will find this one. -/
def mayConfirm (s : Host) (p : Nat) (call : EnsureCall) : Bool :=
  match call.point with
  | .entering => s.current call.modelId = some p
  | .probing q | .probed q _ | .polling q | .waiting q | .polled q _ => q = p
  | _ => false

/-- From here on, the call at `i` can make the process ready. -/
def MakesReady (config : Config) (i p : Nat) (s : Host) : Prop :=
  ∃ u v l, Run (hostStep config) (fun _ _ => True) s u ∧
    callOf l = some i ∧ hostStep config u l = some v ∧
    u.processes[p]?.map (·.state) ≠ some .ready ∧
    v.processes[p]?.map (·.state) = some .ready

variable {config : Config} {s t : Host} {l : HostStep} {modelId : String}

/-! ## A drain that lasts -/

/-- None of the first `n` calls is on its way to the process. -/
structure Unvisited (n p : Nat) (s : Host) : Prop where
  launched : p < s.processes.length
  started : n ≤ s.calls.length
  calls : ∀ (i : Nat) (call : EnsureCall), s.calls[i]? = some call → i < n →
    mayConfirm s p call = false

/-- A process that is found now would have been found before. -/
theorem current_step (h : hostStep config s l = some t) {p : Nat}
    (hp : p < s.processes.length) (ht : t.current modelId = some p) :
    s.current modelId = some p := by
  rw [current_eq_some] at ht ⊢
  obtain ⟨hlookup, hwaited⟩ := ht
  rw [step_lookup h] at hlookup
  split at hlookup
  · cases hlookup
    exact absurd hp (Nat.lt_irrefl _)
  · split at hlookup
    · cases hlookup
    · refine ⟨hlookup, ?_⟩
      cases hs : s.waited p with
      | false => rfl
      | true =>
          rw [step_waited h hs] at hwaited
          cases hwaited

theorem unvisited_step {n p : Nat} (hI : Unvisited n p s)
    (h : hostStep config s l = some t) : Unvisited n p t where
  launched := Nat.lt_of_lt_of_le hI.launched (step_length h)
  started := Nat.le_trans hI.started (step_calls_length h)
  calls := by
    have hentering : ∀ {id : String}, s.current id ≠ some p →
        t.current id ≠ some p :=
      fun hne ht => hne (current_step h hI.launched ht)
    intro i call
    refine step_forall_calls
      (Q := fun i call => i < n → mayConfirm t p call = false) h
      (fun hcall => hI.calls _ _ hcall) ?_ ?_ ?_
    · rintro i ⟨id, point⟩ _ hnot hi
      have hnot := hnot hi
      cases point with
      | entering =>
          simp only [mayConfirm, decide_eq_false_iff_not] at hnot ⊢
          exact hentering hnot
      | _ => exact hnot
    · intro id point _ hi
      exact absurd hI.started (Nat.not_le_of_lt hi)
    · intro i id point point' _ hnot hmove hi
      have hnot := hnot hi
      cases hmove with
      | found current hcurrent =>
          simp only [mayConfirm, hcurrent, Option.some.injEq] at hnot ⊢
          exact hnot
      | launched =>
          simp only [mayConfirm, decide_eq_false_iff_not]
          exact Nat.ne_of_gt hI.launched
      | probed | polled | waits | wakes => exact hnot
      | failed | expires | confirmed | unlocked | reported => rfl

/-- What such a call does leaves the state of the process alone. -/
theorem Unvisited.state_kept {n p i : Nat} (hI : Unvisited n p s) (hi : i < n)
    (hl : callOf l = some i) (h : hostStep config s l = some t) :
    t.processes[p]?.map (·.state) = s.processes[p]?.map (·.state) := by
  have hwrite : ∀ state, writing s l ≠ some (p, state) := by
    intro state hw
    unfold writing at hw
    split at hw
    · cases hl
    · cases hl
    · cases hl
      split at hw
      · next hcall =>
          split at hw
          · cases hw
            have hnot := hI.calls _ _ hcall hi
            simp [mayConfirm] at hnot
          · cases hw
      · next hcall =>
          split at hw
          · cases hw
            have hnot := hI.calls _ _ hcall hi
            simp [mayConfirm] at hnot
          · cases hw
      · cases hw
    · cases hw
  obtain ⟨process, hprocess⟩ : ∃ process, s.processes[p]? = some process :=
    ⟨_, List.getElem?_eq_getElem hI.launched⟩
  have hstate : s.processes[p]?.map (·.state) = some process.state := by
    rw [hprocess]
    rfl
  rw [hstate]
  refine step_kept (fun _ _ _ _ => rfl) h ?_ hstate
  intro state _ hw _
  exact absurd hw (hwrite state)

theorem Unvisited.not_makesReady {n p i : Nat} (hI : Unvisited n p s)
    (hi : i < n) : ¬ MakesReady config i p s := by
  rintro ⟨u, v, l, hrun, hl, hstep, hbefore, hafter⟩
  have hu : Unvisited n p u :=
    hrun.invariant hI fun hI _ hstep => unvisited_step hI hstep
  rw [hu.state_kept hi hl hstep] at hafter
  exact hbefore hafter

/-! ## A drain that is lost -/

/-- The process is its model's, and draining. -/
structure Draining (modelId : String) (p : Nat) (s : Host) : Prop where
  tracked : s.models.lookup modelId = some p
  draining : s.processes[p]?.map (·.state) = some .draining

theorem Draining.moveTo {i p : Nat} {point : Point}
    (h : Draining modelId p s) : Draining modelId p (s.moveTo i point) :=
  ⟨h.tracked, h.draining⟩

theorem MakesReady.of_step {i p : Nat} (h : hostStep config s l = some t) :
    MakesReady config i p t → MakesReady config i p s := by
  rintro ⟨u, v, l', hrun, hready⟩
  exact ⟨u, v, l', (Run.single trivial h).trans hrun, hready⟩

theorem makesReady_of_confirm {i p : Nat} (h : Draining modelId p s)
    (hwrite : writing s (.confirm i) = some (p, .ready))
    (hstep : hostStep config s (.confirm i) = some t) :
    MakesReady config i p s := by
  obtain ⟨process, hprocess, _⟩ := Option.map_eq_some_iff.mp h.draining
  refine ⟨s, t, .confirm i, .refl, rfl, hstep, ?_,
    written_ready hstep hwrite hprocess⟩
  rw [h.draining]
  simp

/-- The probe has succeeded. -/
theorem makesReady_of_answered {i p : Nat} {alive : Bool} {point : Point}
    (h : Draining modelId p s) (hcall : s.calls[i]? = some ⟨modelId, point⟩)
    (hpoint : point = .probed p alive ∨ point = .polled p alive) :
    MakesReady config i p s := by
  obtain ⟨process, hprocess, _⟩ := Option.map_eq_some_iff.mp h.draining
  have hwrite : writing s (.confirm i) = some (p, .ready) := by
    rcases hpoint with rfl | rfl <;> simp [writing, hcall, h.tracked]
  obtain ⟨t, hstep⟩ : ∃ t, hostStep config s (.confirm i) = some t := by
    simp only [hostStep, Host.withCall, hcall]
    rcases hpoint with rfl | rfl
    · simp [confirm, h.tracked, Host.setState, modify_process, hprocess]
    · exact ⟨_, rfl⟩
  exact makesReady_of_confirm h hwrite hstep

/-- The next probe is answered, by somebody who takes the port if need be. -/
theorem makesReady_of_asking {i p : Nat} {point : Point}
    (h : Draining modelId p s) (hcall : s.calls[i]? = some ⟨modelId, point⟩)
    (hpoint : point = .probing p ∨ point = .polling p) :
    MakesReady config i p s := by
  have hserved : ∀ {s : Host}, Draining modelId p s →
      s.calls[i]? = some ⟨modelId, point⟩ → s.server ≠ none →
      MakesReady config i p s := by
    intro s h hcall hserver
    have henabled : (true && s.server.isNone) = false := by
      simpa [Option.isSome_iff_ne_none] using hserver
    rcases hpoint with rfl | rfl
    · have hstep : hostStep config s (.probe i true) =
          some (s.moveTo i (.probed p (s.alive p))) := by
        simp only [hostStep, henabled, Host.withCall, hcall, probe]
        rfl
      exact .of_step hstep
        (makesReady_of_answered h.moveTo (moveTo_self hcall) (.inl rfl))
    · have hstep : hostStep config s (.probe i true) =
          some (s.moveTo i (.polled p (s.alive p))) := by
        simp only [hostStep, henabled, Host.withCall, hcall, probe]
        rfl
      exact .of_step hstep
        (makesReady_of_answered h.moveTo (moveTo_self hcall) (.inr rfl))
  cases hserver : s.server with
  | some server => exact hserved h hcall (by simp [hserver])
  | none =>
      have hstep : hostStep config s .occupy =
          some { s with server := some .foreign } := by
        simp [hostStep, hserver]
      exact .of_step hstep (hserved ⟨h.tracked, h.draining⟩ hcall (by simp))

theorem makesReady_of_mayConfirm {i p : Nat} {point : Point}
    (h : Draining modelId p s) (hcall : s.calls[i]? = some ⟨modelId, point⟩)
    (hmay : mayConfirm s p ⟨modelId, point⟩ = true) :
    MakesReady config i p s := by
  cases point with
  | entering =>
      have hcurrent : s.current modelId = some p := of_decide_eq_true hmay
      have hstep : hostStep config s (.enter i false (.mkdirFails "")) =
          some (s.moveTo i (.probing p)) := by
        simp [hostStep, Host.withCall, hcall, enter, hcurrent]
      exact .of_step hstep
        (makesReady_of_asking h.moveTo (moveTo_self hcall) (.inl rfl))
  | waiting q =>
      have heq : q = p := of_decide_eq_true hmay
      have hstep : hostStep config s (.wake i none) =
          some (s.moveTo i (.polling p)) := by
        simp [hostStep, Host.withCall, hcall, wake, heq]
      exact .of_step hstep
        (makesReady_of_asking h.moveTo (moveTo_self hcall) (.inr rfl))
  | probing q =>
      have heq : q = p := of_decide_eq_true hmay
      exact makesReady_of_asking h hcall (.inl (by rw [heq]))
  | polling q =>
      have heq : q = p := of_decide_eq_true hmay
      exact makesReady_of_asking h hcall (.inr (by rw [heq]))
  | probed q alive =>
      have heq : q = p := of_decide_eq_true hmay
      exact makesReady_of_answered h hcall (.inl (by rw [heq]))
  | polled q alive =>
      have heq : q = p := of_decide_eq_true hmay
      exact makesReady_of_answered h hcall (.inr (by rw [heq]))
  | unlocked | expired | failed | succeeded => cases hmay

/-! ## The drain -/

theorem drain_step {p : Nat} (hp : s.models.lookup modelId = some p)
    (h : hostStep config s (.drainModel modelId) = some t) :
    t = s.setState p .draining := by
  simp only [hostStep, drainModel, hp, Option.some.injEq] at h
  exact h.symm

/-- Whatever state is written, the calls are on their way as before. -/
theorem mayConfirm_setState (p q : Nat) (state : ModelState)
    (call : EnsureCall) :
    mayConfirm (s.setState q state) p call = mayConfirm s p call := by
  have hcurrent : (s.setState q state).current call.modelId =
      s.current call.modelId := by
    have hwaited : (s.setState q state).waited = s.waited := by
      funext r
      refine modify_any ?_ q r
      intro process
      rfl
    rw [Host.current, hwaited]
    rfl
  unfold mayConfirm
  rw [hcurrent]

/-- A call on its way to a tracked process is of the process's model. -/
theorem tracked_of_mayConfirm {i p : Nat} {call : EnsureCall}
    (hroot : Rooted s) (hown : AboutOwn s)
    (hp : s.models.lookup modelId = some p)
    (hcall : s.calls[i]? = some call) (hmay : mayConfirm s p call = true) :
    s.models.lookup call.modelId = some p := by
  obtain ⟨id, point⟩ := call
  have habout : about point = some p → s.models.lookup id = some p := by
    intro hpoint
    have hid := hown i _ hcall p hpoint
    rw [hroot modelId p hp] at hid
    cases hid
    exact hp
  cases point with
  | entering => exact (current_eq_some.mp (of_decide_eq_true hmay)).1
  | probing q | probed q _ | polling q | waiting q | polled q _ =>
      exact habout (congrArg some (of_decide_eq_true hmay))
  | unlocked | expired | failed | succeeded => cases hmay

/-- After a drain of a tracked process, no call that had come in before can
make the process ready, if and only if no such call is on its way to it. -/
theorem drain_lasts_iff (config : Config) (s t : Host) (modelId : String)
    (p : Nat) (h : Run (hostStep config) (fun _ _ => True) .init s)
    (hp : s.models.lookup modelId = some p)
    (hdrain : hostStep config s (.drainModel modelId) = some t) :
    t.processes[p]?.map (·.state) = some .draining ∧
      ((∀ i < s.calls.length, ¬ MakesReady config i p t) ↔
        ∀ call ∈ s.calls, mayConfirm s p call = false) := by
  obtain ⟨hroot, hown⟩ := rooted_aboutOwn h
  obtain ⟨process, hprocess, _⟩ := Option.map_eq_some_iff.mp (hroot modelId p hp)
  obtain rfl := drain_step hp hdrain
  have hstate : (s.setState p .draining).processes[p]?.map (·.state) =
      some .draining := by
    rw [Host.setState, modify_process, if_pos rfl, hprocess]
    rfl
  refine ⟨hstate, ?_, ?_⟩
  · intro hlasts call hmem
    obtain ⟨i, hcall⟩ := List.mem_iff_getElem?.mp hmem
    obtain ⟨hi, _⟩ := List.getElem?_eq_some_iff.mp hcall
    by_contra hmay
    rw [Bool.not_eq_false] at hmay
    have htracked := tracked_of_mayConfirm hroot hown hp hcall hmay
    refine hlasts i hi (makesReady_of_mayConfirm ⟨htracked, hstate⟩ hcall ?_)
    rw [mayConfirm_setState]
    exact hmay
  · intro hnone i hi
    have hunvisited : Unvisited s.calls.length p (s.setState p .draining) :=
      { launched := by
          obtain ⟨hlt, _⟩ := List.getElem?_eq_some_iff.mp hprocess
          simpa [Host.setState, Host.modify] using hlt
        started := Nat.le_refl _
        calls := by
          intro j call hcall _
          rw [mayConfirm_setState]
          exact hnone call (List.mem_of_getElem? hcall) }
    exact hunvisited.not_makesReady hi

/-- A model is loaded. -/
def loadedOnce : List HostStep :=
  [.ensureModel "a", .enter 0 false (.started 100), .listen 0, .probe 0 true,
    .confirm 0, .report 0]

/-- The call that loaded the model is over when the drain comes. -/
theorem drain_lasts_iff_loadedOnce :
    ∃ s t, Run (hostStep twoModels) (fun _ _ => True) .init s ∧
      hostStep twoModels s (.drainModel "a") = some t ∧
      s.calls.length = 1 ∧ s.processes.map (·.state) = [.ready] ∧
      t.processes.map (·.state) = [.draining] ∧
      ∀ i < s.calls.length, ¬ MakesReady twoModels i 0 t := by
  obtain ⟨s, t, hrun, hstep, hs⟩ := run_step_of_exec_map (hostStep twoModels)
    (fun _ _ => True) (fun _ _ => true) .init loadedOnce (.drainModel "a")
    (fun s t => (s.models.lookup "a", s.calls.length,
      s.calls.map (mayConfirm s 0), s.processes.map (·.state),
      t.processes.map (·.state)))
    (b := (some 0, 1, [false], [.ready], [.draining]))
    (fun _ _ _ => trivial) (by decide)
  simp only [Prod.mk.injEq] at hs
  obtain ⟨hlookup, hlength, hmay, hbefore, hafter⟩ := hs
  refine ⟨s, t, hrun, hstep, hlength, hbefore, hafter,
    (drain_lasts_iff twoModels s t "a" 0 hrun hlookup hstep).2.mpr ?_⟩
  intro call hmem
  have hfalse := List.mem_map_of_mem (f := mayConfirm s 0) hmem
  rw [hmay] at hfalse
  exact List.mem_singleton.mp hfalse

/-- A second call has found the process and is probing when the drain comes:
it goes on to mark the process ready. -/
theorem drain_lost_probing :
    ∃ s t, Run (hostStep twoModels) (fun _ _ => True) .init s ∧
      s.calls[1]? = some ⟨"a", .probing 0⟩ ∧
      s.models.lookup "a" = some 0 ∧
      hostStep twoModels s (.drainModel "a") = some t ∧
      t.processes.map (·.state) = [.draining] ∧
      MakesReady twoModels 1 0 t := by
  obtain ⟨s, t, hrun, hstep, hs⟩ := run_step_of_exec_map (hostStep twoModels)
    (fun _ _ => True) (fun _ _ => true) .init
    (loadedOnce ++ [.ensureModel "a", .enter 1 false (.started 101)])
    (.drainModel "a")
    (fun s t => (s.calls[1]?, t.calls[1]?, s.models.lookup "a",
      t.models.lookup "a", t.processes.map (·.state)))
    (b := (some ⟨"a", .probing 0⟩, some ⟨"a", .probing 0⟩, some 0, some 0,
      [.draining]))
    (fun _ _ _ => trivial) (by decide)
  simp only [Prod.mk.injEq] at hs
  obtain ⟨hs1, ht1, hslookup, htlookup, hstate⟩ := hs
  have hdraining : Draining "a" 0 t := by
    refine ⟨htlookup, ?_⟩
    rw [← List.getElem?_map, hstate]
    rfl
  exact ⟨s, t, hrun, hs1, hslookup, hstep, hstate,
    makesReady_of_mayConfirm hdraining ht1 rfl⟩

end DataPlane.Proofs
