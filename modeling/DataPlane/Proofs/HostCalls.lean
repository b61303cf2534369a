import DataPlane.Proofs.HostAgent

/-!
# Where the `EnsureModel` calls go

A step moves at most one call, and says why: `CallMove` lists every way from
one point of a call to the next, with what was so of the host when it was
taken. All other calls stay where they are. `step_forall_calls` is what this
makes of an invariant about the calls.
-/

namespace DataPlane.Proofs

open DataPlane DataPlane.Lib DataPlane.Ref.HostAgent

variable {config : Config} {s t : Host} {l : HostStep}

/-- How a step moves the `EnsureModel` call at `i`. -/
inductive CallMove (s : Host) (l : HostStep) (i : Nat) (modelId : String) :
    Point → Point → Prop
  | failed (point : Point) (error : ConnectError) :
      CallMove s l i modelId point (.failed error)
  | found (current : Nat) (hcurrent : s.current modelId = some current) :
      CallMove s l i modelId .entering (.probing current)
  | launched (hlaunch : launching s l = some modelId) :
      CallMove s l i modelId .entering (.polling s.processes.length)
  | probed (current : Nat) (hl : l = .probe i true) :
      CallMove s l i modelId (.probing current)
        (.probed current (s.alive current))
  | polled (owned : Nat) (hl : l = .probe i true) :
      CallMove s l i modelId (.polling owned) (.polled owned (s.alive owned))
  | waits (owned : Nat) :
      CallMove s l i modelId (.polling owned) (.waiting owned)
  | wakes (owned : Nat) :
      CallMove s l i modelId (.waiting owned) (.polling owned)
  | expires (owned : Nat) :
      CallMove s l i modelId (.polling owned) (.expired owned)
  | confirmed (current : Nat) (alive : Bool) (process : Process)
      (hwrite : writing s l = some (current, .ready))
      (hprocess : (s.setState current .ready).processes[current]? =
        some process)
      (htracked : s.models.lookup modelId = some current) :
      CallMove s l i modelId (.probed current alive) (.succeeded
        ⟨current, status process "already running", some current, alive⟩)
  | unlocked (owned : Nat) (alive : Bool)
      (hwrite : s.models.lookup modelId = some owned →
        writing s l = some (owned, .ready)) :
      CallMove s l i modelId (.polled owned alive)
        (.unlocked owned alive (s.models.lookup modelId))
  | reported (owned : Nat) (alive : Bool) (tracked : Option Nat)
      (process : Process) (hprocess : s.processes[owned]? = some process) :
      CallMove s l i modelId (.unlocked owned alive tracked) (.succeeded
        ⟨owned, status process "model ready", tracked, alive⟩)

/-- What a step does to the calls. -/
inductive CallEffect (s t : Host) (l : HostStep) : Prop
  | none (calls : t.calls = s.calls)
  | comes (modelId : String) (point : Point)
      (hpoint : point = .entering ∨ ∃ error, point = .failed error)
      (calls : t.calls = s.calls ++ [⟨modelId, point⟩])
  | moves (i : Nat) (modelId : String) (point point' : Point)
      (hcall : s.calls[i]? = some ⟨modelId, point⟩)
      (hmove : CallMove s l i modelId point point')
      (calls : t.calls = (s.moveTo i point').calls)

theorem moveTo_calls {i : Nat} {point : Point} (h : s.calls = t.calls) :
    (s.moveTo i point).calls = (t.moveTo i point).calls := by
  rw [Host.moveTo, h]
  rfl

theorem enter_calls {i : Nat} {ready : Bool} {launch : Launch}
    {modelId : String} (hcall : s.calls[i]? = some ⟨modelId, .entering⟩) :
    CallEffect s (enter config s i modelId ready launch)
      (.enter i ready launch) := by
  unfold enter
  split
  · next current hcurrent =>
      exact .moves i modelId _ _ hcall (.found current hcurrent) rfl
  · next hcurrent =>
      cases ready with
      | true => exact .moves i modelId _ _ hcall (.failed _ _) rfl
      | false =>
          rw [if_neg (by simp)]
          cases launch with
          | mkdirFails err | openFails err | startFails err =>
              exact .moves i modelId _ _ hcall (.failed _ _) rfl
          | started pid =>
              exact .moves i modelId _ _ hcall
                (.launched (by simp [launching, hcall, hcurrent])) rfl

theorem probe_calls {i : Nat} {ready : Bool} {modelId : String} {point : Point}
    (hcall : s.calls[i]? = some ⟨modelId, point⟩)
    (h : probe s i ready point = some t) :
    CallEffect s t (.probe i ready) := by
  cases point <;> simp only [probe, Option.some.injEq, reduceCtorEq] at h
  case probing current =>
    subst h
    cases ready with
    | true => exact .moves i modelId _ _ hcall (.probed current rfl) rfl
    | false => exact .moves i modelId _ _ hcall (.failed _ _) rfl
  case polling owned =>
    subst h
    cases ready with
    | true => exact .moves i modelId _ _ hcall (.polled owned rfl) rfl
    | false => exact .moves i modelId _ _ hcall (.waits owned) rfl

theorem confirm_calls {i : Nat} {modelId : String} {point : Point}
    (hcall : s.calls[i]? = some ⟨modelId, point⟩)
    (h : confirm s i modelId point = some t) :
    CallEffect s t (.confirm i) := by
  cases point <;> simp only [confirm, reduceCtorEq] at h
  case probed current alive =>
    split at h
    · cases h
      exact .moves i modelId _ _ hcall (.failed _ _) rfl
    · next heq =>
        have htracked := not_not.mp heq
        obtain ⟨process, hprocess, rfl⟩ := Option.map_eq_some_iff.mp h
        rw [htracked]
        exact .moves i modelId _ _ hcall (.confirmed current alive process
          (by simp [writing, hcall, htracked]) hprocess htracked) rfl
  case polled owned alive =>
    cases h
    refine .moves i modelId _ _ hcall (.unlocked owned alive ?_) ?_
    · intro htracked
      simp [writing, hcall, htracked]
    · split <;> rfl

theorem step_calls (h : hostStep config s l = some t) : CallEffect s t l := by
  cases step_move h with
  | ensureModel modelId =>
      unfold ensureModel
      refine .comes modelId _ ?_ rfl
      split
      · exact .inl rfl
      · exact .inr ⟨_, rfl⟩
  | enter hcall => exact enter_calls hcall
  | probe hcall ht => exact probe_calls hcall ht
  | confirm hcall ht => exact confirm_calls hcall ht
  | @report i modelId point _ hcall ht =>
      cases point <;> simp only [report, reduceCtorEq] at ht
      case unlocked owned alive tracked =>
        obtain ⟨process, hprocess, rfl⟩ := Option.map_eq_some_iff.mp ht
        exact .moves i modelId _ _ hcall
          (.reported owned alive tracked process hprocess) rfl
  | @wake i canceled modelId point _ hcall ht =>
      cases point <;> simp only [wake, Option.some.injEq, reduceCtorEq] at ht
      case waiting owned =>
        subst ht
        cases canceled with
        | none => exact .moves i modelId _ _ hcall (.wakes owned) rfl
        | some err => exact .moves i modelId _ _ hcall (.failed _ _) rfl
  | @expire i modelId point _ hcall ht =>
      cases point <;> simp only [expire, Option.some.injEq, reduceCtorEq] at ht
      case polling owned =>
        subst ht
        exact .moves i modelId _ _ hcall (.expires owned) rfl
  | @giveUp i signal modelId point _ hcall ht =>
      cases point <;> simp only [giveUp, Option.some.injEq, reduceCtorEq] at ht
      case expired owned =>
        subst ht
        exact .moves i modelId _ _ hcall (.failed _ _)
          (moveTo_calls (stopOwned_frame s modelId signal).2)
  | getModelStatus modelId =>
      unfold getModelStatus
      split
      · exact .none rfl
      · dsimp only
        split <;> exact .none rfl
  | drainModel modelId =>
      unfold drainModel
      split <;> exact .none rfl
  | stopModel modelId signal =>
      exact .none (stopOwned_frame s modelId signal).2
  | @stopNext k modelId modelIds signal =>
      exact .none (stopOwned_frame s modelId signal).2
  | stopAll | listen | close | exit | wait | occupy | vacate => exact .none rfl

/-! ## What is so of all calls -/

theorem moveTo_getElem {i j : Nat} {point : Point} :
    (s.moveTo i point).calls[j]? =
      if i = j then s.calls[j]?.map ({ · with point := point })
      else s.calls[j]? := by
  rw [Host.moveTo, List.getElem?_modify]
  split
  · rfl
  · exact Option.map_id'

theorem moveTo_self {i : Nat} {modelId : String} {point point' : Point}
    (h : s.calls[i]? = some ⟨modelId, point⟩) :
    (s.moveTo i point').calls[i]? = some ⟨modelId, point'⟩ := by
  rw [moveTo_getElem, if_pos rfl, h]
  rfl

theorem step_calls_length (h : hostStep config s l = some t) :
    s.calls.length ≤ t.calls.length := by
  cases step_calls h with
  | none calls => rw [calls]
  | comes modelId point hpoint calls => simp [calls]
  | moves i modelId point point' hcall hmove calls =>
      simp [calls, Host.moveTo]

/-- The induction step of an invariant about the calls: it has to be kept by
the calls that do not move, it has to hold of a call that comes in, and the
call that moves has to reestablish it. -/
theorem step_forall_calls {P Q : Nat → EnsureCall → Prop}
    (h : hostStep config s l = some t)
    (hP : ∀ {i call}, s.calls[i]? = some call → P i call)
    (hkept : ∀ {i call}, s.calls[i]? = some call → P i call → Q i call)
    (hcomes : ∀ {modelId point},
      (point = .entering ∨ ∃ error, point = .failed error) →
        Q s.calls.length ⟨modelId, point⟩)
    (hmoves : ∀ {i modelId point point'},
      s.calls[i]? = some ⟨modelId, point⟩ → P i ⟨modelId, point⟩ →
        CallMove s l i modelId point point' → Q i ⟨modelId, point'⟩)
    {i : Nat} {call : EnsureCall} (hcall : t.calls[i]? = some call) :
    Q i call := by
  have hold : s.calls[i]? = some call → Q i call :=
    fun hs => hkept hs (hP hs)
  cases step_calls h with
  | none calls => exact hold (calls ▸ hcall)
  | comes modelId point hpoint calls =>
      rw [calls] at hcall
      rcases Nat.lt_trichotomy i s.calls.length with hlt | rfl | hgt
      · rw [List.getElem?_append_left hlt] at hcall
        exact hold hcall
      · rw [List.getElem?_concat_length] at hcall
        cases hcall
        exact hcomes hpoint
      · rw [List.getElem?_eq_none (by simp; omega)] at hcall
        cases hcall
  | moves j modelId point point' hj hmove calls =>
      rw [calls, moveTo_getElem] at hcall
      split at hcall
      · next heq =>
          subst heq
          rw [hj] at hcall
          cases hcall
          exact hmoves hj (hP hj) hmove
      · exact hold hcall

/-- The process a call is about, up to its last critical section. -/
def about : Point → Option Nat
  | .probing p | .probed p _ | .polling p | .waiting p | .polled p _
  | .expired p => some p
  | _ => none

/-- A call is about a process of its own model. -/
def AboutOwn (s : Host) : Prop :=
  ∀ (i : Nat) (call : EnsureCall), s.calls[i]? = some call → ∀ p,
    about call.point = some p →
      s.processes[p]?.map (·.modelId) = some call.modelId

theorem current_eq_some {modelId : String} {p : Nat} :
    s.current modelId = some p ↔
      s.models.lookup modelId = some p ∧ s.waited p = false := by
  rw [Host.current, Option.filter_eq_some_iff, Bool.not_eq_true']

theorem aboutOwn_step (hroot : Rooted s) (hI : AboutOwn s)
    (h : hostStep config s l = some t) : AboutOwn t := by
  have hkept : ∀ {p : Nat} {modelId : String},
      s.processes[p]?.map (·.modelId) = some modelId →
      t.processes[p]?.map (·.modelId) = some modelId :=
    fun hp => step_kept (fun _ _ _ _ => rfl) h (fun _ _ _ hb => hb) hp
  intro i call
  refine step_forall_calls (Q := fun _ call => ∀ p, about call.point = some p →
    t.processes[p]?.map (·.modelId) = some call.modelId) h
    (fun hcall => hI _ _ hcall) ?_ ?_ ?_
  · intro i call _ hown p hp
    exact hkept (hown p hp)
  · rintro modelId point (rfl | ⟨_, rfl⟩) p hp <;> cases hp
  · intro i modelId point point' _ hown hmove p hp
    cases hmove with
    | found current hcurrent =>
        cases hp
        exact hkept (hroot modelId p (current_eq_some.mp hcurrent).1)
    | launched hlaunch => cases hp; exact launched_process h hlaunch
    | probed | polled | waits | wakes | expires =>
        cases hp
        exact hkept (hown p rfl)
    | failed | confirmed | unlocked | reported => cases hp

/-- In every state that can be reached a process is tracked under its own model
and every call is about a process of its own model. -/
theorem rooted_aboutOwn
    (h : Run (hostStep config) (fun _ _ => True) .init s) :
    Rooted s ∧ AboutOwn s := by
  refine h.invariant (I := fun s => Rooted s ∧ AboutOwn s)
    ⟨rooted_init, fun _ _ hcall => by cases hcall⟩ ?_
  intro s t l hI _ hstep
  exact ⟨rooted_step hI.1 hstep, aboutOwn_step hI.1 hI.2 hstep⟩

end DataPlane.Proofs
