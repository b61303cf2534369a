import DataPlane.Proofs.HostCalls

/-!
# What a start-up timeout stops

A call that launched a process waits for it, and stops it when the deadline
passes. It stops it through the id of the model: the entry that is there by
then is removed, and the process of that entry is sent the signal. While the
call was waiting the model may have been stopped, or its process may have died,
and another call may have launched the model again. Then the entry is about the
other call's process.

Nothing else can go wrong. As long as a process is launched for a model only
when no other call for that model may still time out, the entry is the call's
own or is gone.
-/

namespace DataPlane.Proofs

open DataPlane DataPlane.Lib DataPlane.Ref.HostAgent

/-- The process a call has launched and may give up. -/
def startingUp : Point → Option Nat
  | .polling p | .waiting p | .expired p => some p
  | _ => none

/-- A launch finds no other call for the model that may time out. -/
def LaunchesAlone (s : Host) (l : HostStep) : Prop :=
  ∀ modelId ∈ launching s l, ∀ call ∈ s.calls, call.modelId = modelId →
    startingUp call.point = none

instance (s : Host) (l : HostStep) : Decidable (LaunchesAlone s l) :=
  inferInstanceAs (Decidable (∀ modelId ∈ launching s l, _))

/-- All processes but one are as they were, and tracked as they were. -/
def StopsOnly (p : Nat) (s t : Host) : Prop :=
  ∀ q, q ≠ p → t.processes[q]? = s.processes[q]? ∧
    ∀ modelId, s.models.lookup modelId = some q →
      t.models.lookup modelId = some q

/-- The call at `i` came in, launched the process and went on from there. -/
def LaunchedBy (config : Config) (i p : Nat) (s : Host) : Prop :=
  ∃ s₁ t₁ l modelId, Run (hostStep config) (fun _ _ => True) .init s₁ ∧
    hostStep config s₁ l = some t₁ ∧ launching s₁ l = some modelId ∧
    s₁.calls[i]? = some ⟨modelId, .entering⟩ ∧
    t₁.calls[i]? = some ⟨modelId, .polling p⟩ ∧ p = s₁.processes.length ∧
    Run (hostStep config) (fun _ _ => True) t₁ s

/-- From here a call can come to stop another process than its own. -/
def StopsOther (config : Config) (s : Host) : Prop :=
  ∃ u v i modelId p, Run (hostStep config) (fun _ _ => True) s u ∧
    u.calls[i]? = some ⟨modelId, .expired p⟩ ∧
    hostStep config u (.giveUp i .interrupted) = some v ∧ ¬ StopsOnly p u v

variable {config : Config} {s t : Host} {l : HostStep} {modelId : String}

/-! ## Giving up -/

theorem stopOwned_others {q : Nat} (signal : Signal)
    (h : s.models.lookup modelId ≠ some q) :
    (stopOwned s modelId signal).2.processes[q]? = s.processes[q]? := by
  unfold stopOwned
  split
  · rfl
  · next current hcurrent =>
      have hne : current ≠ q := by
        rintro rfl
        exact h hcurrent
      have hsignal : ∀ f, (s.modify current f).processes[q]? =
          s.processes[q]? := by
        intro f
        rw [modify_process, if_neg hne]
      dsimp only
      split
      · rfl
      · split <;> exact hsignal _

theorem giveUp_host {i : Nat} {signal : Signal}
    (h : hostStep config s (.giveUp i signal) = some t) :
    ∃ modelId p point, s.calls[i]? = some ⟨modelId, .expired p⟩ ∧
      t = (stopOwned s modelId signal).2.moveTo i point := by
  cases step_move h with
  | @giveUp _ _ modelId point _ hcall ht =>
      cases point <;> simp only [giveUp, Option.some.injEq, reduceCtorEq] at ht
      case expired p => exact ⟨modelId, p, _, hcall, ht.symm⟩

/-- Giving up stops what is tracked, so that has to be the call's own. -/
theorem giveUp_stopsOnly_iff {i p : Nat} {signal : Signal}
    (h : hostStep config s (.giveUp i signal) = some t)
    (hcall : s.calls[i]? = some ⟨modelId, .expired p⟩) :
    StopsOnly p s t ↔ ∀ q, s.models.lookup modelId = some q → q = p := by
  have hstop : stopping s (.giveUp i signal) = some modelId := by
    simp [stopping, hcall]
  constructor
  · intro honly q hq
    by_contra hne
    have hkept := (honly q hne).2 modelId hq
    rw [step_lookup h, if_neg (by simp [launching]), if_pos hstop] at hkept
    cases hkept
  · intro hown q hne
    constructor
    · obtain ⟨modelId', p', point, hcall', rfl⟩ := giveUp_host h
      rw [hcall] at hcall'
      cases hcall'
      exact stopOwned_others signal fun hq => hne (hown q hq)
    · intro id hq
      have hid : stopping s (.giveUp i signal) ≠ some id := by
        rw [hstop]
        rintro ⟨⟩
        exact hne (hown q hq)
      rw [step_lookup h, if_neg (by simp [launching]), if_neg hid, hq]

/-! ## The process a call has launched -/

/-- A call that may time out launched the process it is about. -/
theorem launchedBy_of_run
    (h : Run (hostStep config) (fun _ _ => True) .init s) :
    ∀ {i call}, s.calls[i]? = some call → ∀ p,
      startingUp call.point = some p → LaunchedBy config i p s := by
  induction h with
  | refl => intro i call hcall; cases hcall
  | @tail s t l hrun _ hstep ih =>
      have hlater : ∀ {i p}, LaunchedBy config i p s →
          LaunchedBy config i p t := by
        rintro i p ⟨s₁, t₁, l₁, id, h₁, hl, hlaunch, hs, ht, hp, hrest⟩
        exact ⟨s₁, t₁, l₁, id, h₁, hl, hlaunch, hs, ht, hp,
          hrest.tail trivial hstep⟩
      intro i call hcall
      refine step_forall_calls (Q := fun i call => t.calls[i]? = some call →
        ∀ p, startingUp call.point = some p → LaunchedBy config i p t) hstep
        (fun hcall => ih hcall) ?_ ?_ ?_ hcall hcall
      · intro i call _ hby _ p hp
        exact hlater (hby p hp)
      · rintro modelId point (rfl | ⟨_, rfl⟩) _ p hp <;> cases hp
      · intro i modelId point point' hs hby hmove ht p hp
        cases hmove with
        | launched hlaunch =>
            cases hp
            exact ⟨s, t, l, modelId, hrun, hstep, hlaunch, hs, ht, rfl, .refl⟩
        | waits | wakes | expires =>
            cases hp
            exact hlater (hby p rfl)
        | failed | found | probed | polled | confirmed | unlocked
        | reported => cases hp

/-! ## The entry -/

/-- Whatever is tracked under the model of a call that may time out is the
process the call launched. -/
def OwnEntry (s : Host) : Prop :=
  ∀ (i : Nat) (call : EnsureCall), s.calls[i]? = some call → ∀ p,
    startingUp call.point = some p → ∀ q,
      s.models.lookup call.modelId = some q → q = p

theorem ownEntry_step (hI : OwnEntry s) (hok : LaunchesAlone s l)
    (h : hostStep config s l = some t) : OwnEntry t := by
  -- An entry that no launch has written was there before.
  have hold : ∀ {id q}, launching s l ≠ some id →
      t.models.lookup id = some q → s.models.lookup id = some q := by
    intro id q hlaunch hq
    rw [step_lookup h, if_neg hlaunch] at hq
    split at hq
    · cases hq
    · exact hq
  have hkept : ∀ {i : Nat} {id : String} {point : Point} {p q : Nat},
      s.calls[i]? = some ⟨id, point⟩ → startingUp point = some p →
      t.models.lookup id = some q → q = p := by
    intro i id point p q hcall hp hq
    refine hI i _ hcall p hp q (hold ?_ hq)
    intro hlaunch
    have hnone := hok id hlaunch _ (List.mem_of_getElem? hcall) rfl
    rw [hp] at hnone
    cases hnone
  intro i call
  refine step_forall_calls (P := fun _ _ => True)
    (Q := fun _ call => ∀ p, startingUp call.point = some p → ∀ q,
      t.models.lookup call.modelId = some q → q = p) h
    (fun _ => trivial) ?_ ?_ ?_
  · intro i call hcall _ p hp q hq
    exact hkept hcall hp hq
  · rintro modelId point (rfl | ⟨_, rfl⟩) p hp <;> cases hp
  · intro i modelId point point' hcall _ hmove p hp q hq
    cases hmove with
    | launched hlaunch =>
        cases hp
        rw [step_lookup h, if_pos hlaunch] at hq
        cases hq
        rfl
    | waits | wakes | expires => exact hkept hcall hp hq
    | failed | found | probed | polled | confirmed | unlocked
    | reported => cases hp

/-! ## A launch that is not alone -/

theorem StopsOther.of_step (h : hostStep config s l = some t) :
    StopsOther config t → StopsOther config s := by
  rintro ⟨u, v, i, modelId, p, hrun, hgive⟩
  exact ⟨u, v, i, modelId, p, (Run.single trivial h).trans hrun, hgive⟩

/-- A call that may time out can do so at once. -/
theorem stopsOther_of_startingUp {i p q : Nat} {point : Point}
    (hcall : s.calls[i]? = some ⟨modelId, point⟩)
    (hp : startingUp point = some p)
    (hq : s.models.lookup modelId = some q) (hne : q ≠ p) :
    StopsOther config s := by
  have hexpired : ∀ {s : Host}, s.calls[i]? = some ⟨modelId, .expired p⟩ →
      s.models.lookup modelId = some q → StopsOther config s := by
    intro s hcall hq
    obtain ⟨v, hgive⟩ : ∃ v, hostStep config s (.giveUp i .interrupted) = some v :=
      ⟨_, by simp only [hostStep, Host.withCall, hcall, giveUp]; rfl⟩
    refine ⟨s, v, i, modelId, p, .refl, hcall, hgive, ?_⟩
    rw [giveUp_stopsOnly_iff hgive hcall]
    intro hown
    exact hne (hown q hq)
  have hpolling : ∀ {s : Host}, s.calls[i]? = some ⟨modelId, .polling p⟩ →
      s.models.lookup modelId = some q → StopsOther config s := by
    intro s hcall hq
    have hstep : hostStep config s (.expire i) =
        some (s.moveTo i (.expired p)) := by
      simp only [hostStep, Host.withCall, hcall, expire]
    exact .of_step hstep (hexpired (moveTo_self hcall) hq)
  cases point <;> cases hp
  case polling => exact hpolling hcall hq
  case waiting =>
    have hstep : hostStep config s (.wake i none) =
        some (s.moveTo i (.polling p)) := by
      simp only [hostStep, Host.withCall, hcall, wake]
    exact .of_step hstep (hpolling (moveTo_self hcall) hq)
  case expired => exact hexpired hcall hq

theorem stopsOther_of_not_alone (hown : AboutOwn s)
    (h : hostStep config s l = some t) (hnot : ¬ LaunchesAlone s l) :
    StopsOther config t := by
  unfold LaunchesAlone at hnot
  push Not at hnot
  obtain ⟨modelId, hlaunch, ⟨id, point⟩, hmem, hid, hsome⟩ := hnot
  obtain ⟨k, hk⟩ := List.mem_iff_getElem?.mp hmem
  obtain ⟨p, hp⟩ := Option.ne_none_iff_exists'.mp hsome
  dsimp only at hid hp
  subst hid
  obtain ⟨i, pid, hi, rfl⟩ := launch_step h hlaunch
  have hne : i ≠ k := by
    rintro rfl
    rw [hk] at hi
    cases hi
    cases hp
  have habout : about point = some p := by
    cases point <;> first | exact hp | cases hp
  have hlt : p < s.processes.length := by
    obtain ⟨process, hprocess, _⟩ :=
      Option.map_eq_some_iff.mp (hown k _ hk p habout)
    exact (List.getElem?_eq_some_iff.mp hprocess).1
  have hlookup := step_lookup h id
  rw [if_pos (Option.mem_def.mp hlaunch)] at hlookup
  have hcall : ((s.launch config id pid).moveTo i
      (.polling s.processes.length)).calls[k]? = some ⟨id, point⟩ := by
    rw [moveTo_getElem, if_neg hne]
    exact hk
  exact stopsOther_of_startingUp hcall hp hlookup (Nat.ne_of_gt hlt)

/-! ## All runs -/

/-- In every run in which a process is launched for a model only when no other
call for the model may still time out, a call that times out leaves alone every
process but the one it has launched. After the first launch that is otherwise,
a call can time out and stop the process of another. -/
theorem timeout_stops_own (config : Config) (s : Host)
    (h : Run (hostStep config) LaunchesAlone .init s) :
    (∀ i signal t, hostStep config s (.giveUp i signal) = some t →
      ∃ modelId p, s.calls[i]? = some ⟨modelId, .expired p⟩ ∧
        LaunchedBy config i p s ∧ StopsOnly p s t) ∧
    ∀ l t, hostStep config s l = some t → ¬ LaunchesAlone s l →
      StopsOther config t := by
  have hall : Run (hostStep config) (fun _ _ => True) .init s :=
    h.mono fun _ _ _ => trivial
  have hentry : OwnEntry s :=
    h.invariant (fun _ _ hcall => by cases hcall)
      fun hI hok hstep => ownEntry_step hI hok hstep
  refine ⟨?_, ?_⟩
  · intro i signal t hstep
    obtain ⟨modelId, p, _, hcall, _⟩ := giveUp_host hstep
    refine ⟨modelId, p, hcall, launchedBy_of_run hall hcall p rfl, ?_⟩
    rw [giveUp_stopsOnly_iff hstep hcall]
    exact hentry i _ hcall p rfl
  · intro l t hstep hnot
    exact stopsOther_of_not_alone (rooted_aboutOwn hall).2 hstep hnot

/-- A model does not come up, and its call times out; another one starts in the
meantime. -/
def twoStarting : List HostStep :=
  [.ensureModel "a", .enter 0 false (.started 100), .probe 0 false,
    .ensureModel "b", .enter 1 false (.started 101), .wake 0 none, .expire 0]

theorem timeout_stops_own_twoStarting :
    ∃ s t, Run (hostStep twoModels) LaunchesAlone .init s ∧
      hostStep twoModels s (.giveUp 0 .interrupted) = some t ∧
      s.models.lookup "b" = some 1 ∧ t.models.lookup "b" = some 1 ∧
      t.models.lookup "a" = none ∧ t.processes[1]? = s.processes[1]? := by
  obtain ⟨s, t, hrun, hstep, hs⟩ := run_step_of_exec_map (hostStep twoModels)
    LaunchesAlone (fun s l => decide (LaunchesAlone s l)) .init twoStarting
    (.giveUp 0 .interrupted)
    (fun s t => (s.calls, s.models.lookup "b", t.models.lookup "a"))
    (b := ([⟨"a", .expired 0⟩, ⟨"b", .polling 1⟩], some 1, none))
    (fun _ _ hok => of_decide_eq_true hok) (by decide)
  simp only [Prod.mk.injEq] at hs
  obtain ⟨hcalls, hb, ha⟩ := hs
  obtain ⟨modelId, p, hcall, _, honly⟩ :=
    (timeout_stops_own twoModels s hrun).1 0 .interrupted t hstep
  rw [hcalls] at hcall
  cases hcall
  obtain ⟨hkept, htracked⟩ := honly 1 (by decide)
  exact ⟨s, t, hrun, hstep, hb, htracked "b" hb, ha, hkept⟩

/-- The model is stopped and loaded again while the first call waits. When the
first call times out the second one's process is signalled and forgotten. -/
theorem timeout_stops_other :
    ∃ s t, Run (hostStep twoModels) (fun _ _ => True) .init s ∧
      s.calls = [⟨"a", .expired 0⟩, ⟨"a", .polling 1⟩] ∧
      s.models.lookup "a" = some 1 ∧
      hostStep twoModels s (.giveUp 0 .interrupted) = some t ∧
      t.models.lookup "a" = none ∧
      s.processes.map (·.signalled) = [true, false] ∧
      t.processes.map (·.signalled) = [true, true] ∧ ¬ StopsOnly 0 s t := by
  obtain ⟨s, t, hrun, hstep, hs⟩ := run_step_of_exec_map (hostStep twoModels)
    (fun _ _ => True) (fun _ _ => true) .init
    [.ensureModel "a", .enter 0 false (.started 100), .stopModel "a" .interrupted,
      .ensureModel "a", .enter 1 false (.started 101), .expire 0]
    (.giveUp 0 .interrupted)
    (fun s t => (s.calls, s.models.lookup "a", t.models.lookup "a",
      s.processes.map (·.signalled), t.processes.map (·.signalled)))
    (b := ([⟨"a", .expired 0⟩, ⟨"a", .polling 1⟩], some 1, none,
      [true, false], [true, true]))
    (fun _ _ _ => trivial) (by decide)
  simp only [Prod.mk.injEq] at hs
  obtain ⟨hcalls, hsa, hta, hssignalled, htsignalled⟩ := hs
  refine ⟨s, t, hrun, hcalls, hsa, hstep, hta, hssignalled, htsignalled, ?_⟩
  intro honly
  have hkept := (honly 1 (by decide)).2 "a" hsa
  rw [hta] at hkept
  cases hkept

end DataPlane.Proofs
