import DataPlane.Lib.Run
import DataPlane.Ref.HostAgent

/-!
# What a step of the host agent does

Of all that can happen on the host only three kinds of step matter to who is
alive and who is tracked: a launch, a stop and an exit. `launching` and
`stopping` tell the first two from everything else, and the lemmas about
`hostStep` say what the table, the processes and the port look like after any
step at all, in terms of the state before it.
-/

namespace DataPlane.Proofs

open DataPlane DataPlane.Lib DataPlane.Ref.HostAgent

/-- The model a step launches a process for. -/
def launching (s : Host) : HostStep → Option String
  | .enter i false (.started _) =>
      match s.calls[i]? with
      | some ⟨modelId, .entering⟩ =>
          if s.current modelId = none then some modelId else none
      | _ => none
  | _ => none

/-- The model whose entry a step removes, if there is one. -/
def stopping (s : Host) : HostStep → Option String
  | .stopModel modelId _ => some modelId
  | .giveUp i _ =>
      match s.calls[i]? with
      | some ⟨modelId, .expired _⟩ => some modelId
      | _ => none
  | .stopNext k _ =>
      match s.stopAlls[k]? with
      | some (modelId :: _) => some modelId
      | _ => none
  | _ => none

/-- The process whose state a step writes, and what it writes. -/
def writing (s : Host) : HostStep → Option (Nat × ModelState)
  | .getModelStatus modelId =>
      ((s.models.lookup modelId).filter s.waited).map (·, .stopped)
  | .drainModel modelId => (s.models.lookup modelId).map (·, .draining)
  | .confirm i =>
      match s.calls[i]? with
      | some ⟨modelId, .probed p _⟩ | some ⟨modelId, .polled p _⟩ =>
          if s.models.lookup modelId = some p then some (p, .ready) else none
      | _ => none
  | _ => none

/-- A process but for the signals it was sent. -/
def unsignalled (process : Process) : Process :=
  { process with signalled := false }

/-- What a step does to the table and to the processes. -/
inductive Effect (config : Config) (s t : Host) (l : HostStep) : Prop
  | none (hlaunch : launching s l = none) (hstop : stopping s l = none)
      (hwrite : writing s l = none) (hexit : ∀ p, l ≠ .exit p)
      (models : t.models = s.models) (processes : t.processes = s.processes)
  | launch (modelId : String) (pid : Int)
      (hlaunch : launching s l = some modelId) (hstop : stopping s l = none)
      (hwrite : writing s l = none)
      (models : t.models = (s.launch config modelId pid).models)
      (processes : t.processes = (s.launch config modelId pid).processes)
  | stop (modelId : String)
      (hlaunch : launching s l = none) (hstop : stopping s l = some modelId)
      (hwrite : writing s l = none)
      (models : ∀ id, t.models.lookup id =
        if id = modelId then Option.none else s.models.lookup id)
      (processes : t.processes.map unsignalled = s.processes.map unsignalled)
  | write (p : Nat) (state : ModelState)
      (hlaunch : launching s l = none) (hstop : stopping s l = none)
      (hwrite : writing s l = some (p, state))
      (models : t.models = s.models)
      (processes : t.processes = (s.setState p state).processes)
  | exit (p : Nat) (hexit : l = .exit p)
      (models : t.models = s.models)
      (processes : t.processes = (s.modify p fun process =>
        { process with alive := false }).processes)
  | wait (p : Nat) (hwait : l = .wait p)
      (models : t.models = s.models)
      (processes : t.processes = (s.modify p fun process =>
        { process with waited := true }).processes)

variable {config : Config} {s t : Host} {l : HostStep}

/-! ## The pieces of a step -/

theorem modify_process (s : Host) (p q : Nat) (f : Process → Process) :
    (s.modify p f).processes[q]? =
      if p = q then s.processes[q]?.map f else s.processes[q]? := by
  rw [Host.modify, List.getElem?_modify]
  split
  · rfl
  · exact Option.map_id'

/-- What a change does not touch can be seen as before. -/
theorem modify_any {f : Process → Process} {g : Process → Bool}
    (hf : ∀ process, g (f process) = g process) (p q : Nat) :
    (s.modify p f).processes[q]?.any g = s.processes[q]?.any g := by
  rw [modify_process]
  split
  · simp [Option.any_map, hf]
  · rfl

/-- A process that keeps its life is as alive as before. -/
theorem modify_alive {f : Process → Process}
    (hf : ∀ process, (f process).alive = process.alive) (p q : Nat) :
    (s.modify p f).alive q = s.alive q :=
  modify_any hf p q

theorem setState_alive (p q : Nat) (state : ModelState) :
    (s.setState p state).alive q = s.alive q := by
  rw [Host.setState, modify_alive]
  intro process
  rfl

theorem withCall_eq_some {i : Nat} {move : String → Point → Option Host}
    (h : s.withCall i move = some t) :
    ∃ call, s.calls[i]? = some call ∧
      move call.modelId call.point = some t := by
  unfold Host.withCall at h
  split at h
  · cases h
  · next call hcall => exact ⟨call, hcall, h⟩

theorem lt_of_any {f : Process → Bool} {p : Nat}
    (h : s.processes[p]?.any f = true) : p < s.processes.length := by
  by_contra hge
  rw [List.getElem?_eq_none (by omega)] at h
  cases h

/-! ## One step, label by label -/

/-- The steps there are, with what enables each of them. -/
inductive HostMove (config : Config) (s : Host) : HostStep → Host → Prop
  | ensureModel (modelId : String) :
      HostMove config s (.ensureModel modelId) (ensureModel config s modelId)
  | enter {i : Nat} {ready : Bool} {launch : Launch} {modelId : String}
      (hcall : s.calls[i]? = some ⟨modelId, .entering⟩) :
      HostMove config s (.enter i ready launch)
        (enter config s i modelId ready launch)
  | probe {i : Nat} {ready : Bool} {modelId : String} {point : Point}
      {t : Host} (hcall : s.calls[i]? = some ⟨modelId, point⟩)
      (ht : probe s i ready point = some t) :
      HostMove config s (.probe i ready) t
  | confirm {i : Nat} {modelId : String} {point : Point} {t : Host}
      (hcall : s.calls[i]? = some ⟨modelId, point⟩)
      (ht : confirm s i modelId point = some t) :
      HostMove config s (.confirm i) t
  | report {i : Nat} {modelId : String} {point : Point} {t : Host}
      (hcall : s.calls[i]? = some ⟨modelId, point⟩)
      (ht : report s i point = some t) : HostMove config s (.report i) t
  | wake {i : Nat} {canceled : Option String} {modelId : String}
      {point : Point} {t : Host}
      (hcall : s.calls[i]? = some ⟨modelId, point⟩)
      (ht : wake s i canceled point = some t) :
      HostMove config s (.wake i canceled) t
  | expire {i : Nat} {modelId : String} {point : Point} {t : Host}
      (hcall : s.calls[i]? = some ⟨modelId, point⟩)
      (ht : expire s i point = some t) : HostMove config s (.expire i) t
  | giveUp {i : Nat} {signal : Signal} {modelId : String}
      {point : Point} {t : Host}
      (hcall : s.calls[i]? = some ⟨modelId, point⟩)
      (ht : giveUp s i modelId signal point = some t) :
      HostMove config s (.giveUp i signal) t
  | getModelStatus (modelId : String) :
      HostMove config s (.getModelStatus modelId) (getModelStatus s modelId).2
  | drainModel (modelId : String) :
      HostMove config s (.drainModel modelId) (drainModel s modelId).2
  | stopModel (modelId : String) (signal : Signal) :
      HostMove config s (.stopModel modelId signal)
        (stopOwned s modelId signal).2
  | stopAll (modelIds : List String) :
      HostMove config s (.stopAll modelIds)
        { s with stopAlls := s.stopAlls ++ [modelIds] }
  | stopNext {k : Nat} {modelId : String} {modelIds : List String}
      (signal : Signal)
      (hk : s.stopAlls[k]? = some (modelId :: modelIds)) :
      HostMove config s (.stopNext k signal)
        { (stopOwned s modelId signal).2 with
          stopAlls := s.stopAlls.set k modelIds }
  | listen {p : Nat} (halive : s.alive p = true) :
      HostMove config s (.listen p) { s with server := some (.launched p) }
  | close (p : Nat) : HostMove config s (.close p) { s with server := none }
  | exit {p : Nat} (halive : s.alive p = true) :
      HostMove config s (.exit p)
        { s.modify p fun process => { process with alive := false } with
          server := if s.server = some (.launched p) then none else s.server }
  | wait (p : Nat) :
      HostMove config s (.wait p)
        (s.modify p fun process => { process with waited := true })
  | occupy : HostMove config s .occupy { s with server := some .foreign }
  | vacate : HostMove config s .vacate { s with server := none }

theorem stopModel_host (s : Host) (modelId : String)
    (signal : Signal) :
    (stopModel s modelId signal).2 =
      (stopOwned s modelId signal).2 := by
  unfold stopModel
  split <;> next heq => rw [heq]

theorem step_move (h : hostStep config s l = some t) :
    HostMove config s l t := by
  cases l with
  | ensureModel modelId => cases h; exact .ensureModel modelId
  | enter i ready launch =>
      simp only [hostStep] at h
      split at h
      · cases h
      · obtain ⟨⟨modelId, point⟩, hcall, h⟩ := withCall_eq_some h
        split at h
        · next hpoint =>
            cases hpoint
            cases h
            exact .enter hcall
        · cases h
  | probe i ready =>
      simp only [hostStep] at h
      split at h
      · cases h
      · obtain ⟨call, hcall, h⟩ := withCall_eq_some h
        exact .probe hcall h
  | confirm i =>
      simp only [hostStep] at h
      obtain ⟨call, hcall, h⟩ := withCall_eq_some h
      exact .confirm hcall h
  | report i =>
      simp only [hostStep] at h
      obtain ⟨call, hcall, h⟩ := withCall_eq_some h
      exact .report hcall h
  | wake i canceled =>
      simp only [hostStep] at h
      obtain ⟨call, hcall, h⟩ := withCall_eq_some h
      exact .wake hcall h
  | expire i =>
      simp only [hostStep] at h
      obtain ⟨call, hcall, h⟩ := withCall_eq_some h
      exact .expire hcall h
  | giveUp i signal =>
      simp only [hostStep] at h
      obtain ⟨call, hcall, h⟩ := withCall_eq_some h
      exact .giveUp hcall h
  | getModelStatus modelId => cases h; exact .getModelStatus modelId
  | drainModel modelId => cases h; exact .drainModel modelId
  | stopModel modelId signal =>
      simp only [hostStep, Option.some.injEq] at h
      rw [← h, stopModel_host]
      exact .stopModel modelId signal
  | stopAll modelIds =>
      simp only [hostStep] at h
      split at h
      · cases h; exact .stopAll modelIds
      · cases h
  | stopNext k signal =>
      simp only [hostStep] at h
      split at h
      · next hk => cases h; exact .stopNext signal hk
      · cases h
  | listen p =>
      simp only [hostStep] at h
      split at h
      · next hfree => cases h; exact .listen (Bool.and_eq_true_iff.mp hfree).1
      · cases h
  | close p =>
      simp only [hostStep] at h
      split at h
      · cases h; exact .close p
      · cases h
  | exit p =>
      simp only [hostStep] at h
      split at h
      · next halive => cases h; exact .exit halive
      · cases h
  | wait p =>
      simp only [hostStep] at h
      split at h
      · cases h; exact .wait p
      · cases h
  | occupy =>
      simp only [hostStep] at h
      split at h
      · cases h; exact .occupy
      · cases h
  | vacate =>
      simp only [hostStep] at h
      split at h
      · cases h; exact .vacate
      · cases h

/-! ## Stopping -/

theorem stopOwned_lookup (s : Host) (modelId : String)
    (signal : Signal) (id : String) :
    (stopOwned s modelId signal).2.models.lookup id =
      if id = modelId then none else s.models.lookup id := by
  unfold stopOwned
  split
  · next hnone =>
      split
      · next heq => rw [heq]; exact hnone
      · rfl
  · have herase : (s.models.erase modelId).lookup id =
        if id = modelId then none else s.models.lookup id := by
      split
      · next heq => rw [heq, AList.lookup_erase]
      · next hne => rw [AList.lookup_erase_ne hne]
    dsimp only
    split
    · exact herase
    · split <;> exact herase

theorem stopOwned_processes (s : Host) (modelId : String)
    (signal : Signal) :
    (stopOwned s modelId signal).2.processes.map unsignalled =
      s.processes.map unsignalled := by
  have hsignal : ∀ (p : Nat) (signal : Signal),
      (s.processes.modify p fun process => { process with
        signalled := process.signalled || signal.reached }).map unsignalled =
        s.processes.map unsignalled := by
    intro p signal
    apply List.ext_getElem?
    intro q
    simp only [List.getElem?_map, List.getElem?_modify]
    split <;> cases s.processes[q]? <;> rfl
  unfold stopOwned
  split
  · rfl
  · dsimp only
    split
    · rfl
    · split <;> exact hsignal _ _

theorem stopOwned_frame (s : Host) (modelId : String)
    (signal : Signal) :
    (stopOwned s modelId signal).2.server = s.server ∧
      (stopOwned s modelId signal).2.calls = s.calls := by
  unfold stopOwned
  split
  · exact ⟨rfl, rfl⟩
  · dsimp only
    split
    · exact ⟨rfl, rfl⟩
    · split <;> exact ⟨rfl, rfl⟩

/-! ## Calls -/

theorem enter_effect {i : Nat} {ready : Bool} {launch : Launch}
    {modelId : String} (hcall : s.calls[i]? = some ⟨modelId, .entering⟩) :
    Effect config s (enter config s i modelId ready launch)
      (.enter i ready launch) := by
  unfold enter
  split
  · next current hcurrent =>
      have hlaunch : launching s (.enter i ready launch) = none := by
        cases ready <;> cases launch <;> simp [launching, hcall, hcurrent]
      exact .none hlaunch rfl rfl (by simp) rfl rfl
  · next hcurrent =>
      cases ready with
      | true => exact .none (by simp [launching]) rfl rfl (by simp) rfl rfl
      | false =>
          rw [if_neg (by simp)]
          cases launch with
          | mkdirFails err | openFails err | startFails err =>
              exact .none rfl rfl rfl (by simp) rfl rfl
          | started pid =>
              exact .launch modelId pid (by simp [launching, hcall, hcurrent])
                rfl rfl rfl rfl

theorem probe_host {i : Nat} {ready : Bool} {point : Point}
    (h : probe s i ready point = some t) : ∃ point', t = s.moveTo i point' := by
  cases point <;> simp only [probe, Option.some.injEq, reduceCtorEq] at h
  all_goals exact ⟨_, h.symm⟩

theorem report_host {i : Nat} {point : Point}
    (h : report s i point = some t) : ∃ point', t = s.moveTo i point' := by
  cases point <;> simp only [report, reduceCtorEq] at h
  obtain ⟨_, _, rfl⟩ := Option.map_eq_some_iff.mp h
  exact ⟨_, rfl⟩

theorem wake_host {i : Nat} {canceled : Option String} {point : Point}
    (h : wake s i canceled point = some t) : ∃ point', t = s.moveTo i point' := by
  cases point <;> simp only [wake, Option.some.injEq, reduceCtorEq] at h
  exact ⟨_, h.symm⟩

theorem expire_host {i : Nat} {point : Point}
    (h : expire s i point = some t) : ∃ point', t = s.moveTo i point' := by
  cases point <;> simp only [expire, Option.some.injEq, reduceCtorEq] at h
  exact ⟨_, h.symm⟩

theorem confirm_effect {i : Nat} {modelId : String} {point : Point}
    (hcall : s.calls[i]? = some ⟨modelId, point⟩)
    (h : confirm s i modelId point = some t) :
    Effect config s t (.confirm i) := by
  cases point <;> simp only [confirm, reduceCtorEq] at h
  case probed current alive =>
    split at h
    · next hne =>
        cases h
        exact .none rfl rfl (by simp [writing, hcall, hne]) (by simp) rfl rfl
    · next heq =>
        obtain ⟨_, _, rfl⟩ := Option.map_eq_some_iff.mp h
        exact .write current .ready rfl rfl
          (by simpa [writing, hcall] using heq) rfl rfl
  case polled owned alive =>
    cases h
    split
    · next heq =>
        exact .write owned .ready rfl rfl (by simp [writing, hcall, heq]) rfl rfl
    · next hne =>
        exact .none rfl rfl (by simp [writing, hcall, hne]) (by simp) rfl rfl

theorem giveUp_effect {i : Nat} {modelId : String} {point : Point}
    {signal : Signal}
    (hcall : s.calls[i]? = some ⟨modelId, point⟩)
    (h : giveUp s i modelId signal point = some t) :
    Effect config s t (.giveUp i signal) := by
  cases point <;> simp only [giveUp, Option.some.injEq, reduceCtorEq] at h
  subst h
  exact .stop modelId rfl (by simp [stopping, hcall]) rfl
    (stopOwned_lookup s modelId signal)
    (stopOwned_processes s modelId signal)

/-! ## All steps -/

theorem step_effect (h : hostStep config s l = some t) :
    Effect config s t l := by
  cases step_move h with
  | enter hcall => exact enter_effect hcall
  | probe _ ht =>
      obtain ⟨point', rfl⟩ := probe_host ht
      exact .none rfl rfl rfl (by simp) rfl rfl
  | confirm hcall ht => exact confirm_effect hcall ht
  | report _ ht =>
      obtain ⟨point', rfl⟩ := report_host ht
      exact .none rfl rfl rfl (by simp) rfl rfl
  | wake _ ht =>
      obtain ⟨point', rfl⟩ := wake_host ht
      exact .none rfl rfl rfl (by simp) rfl rfl
  | expire _ ht =>
      obtain ⟨point', rfl⟩ := expire_host ht
      exact .none rfl rfl rfl (by simp) rfl rfl
  | giveUp hcall ht => exact giveUp_effect hcall ht
  | getModelStatus modelId =>
      unfold getModelStatus
      split
      · next hnone =>
          exact .none rfl rfl (by simp [writing, hnone]) (by simp) rfl rfl
      · next current hsome =>
          dsimp only
          split
          · next hwaited =>
              exact .write current .stopped rfl rfl
                (by simp [writing, hsome, hwaited]) rfl rfl
          · next hwaited =>
              exact .none rfl rfl (by simp [writing, hsome, hwaited]) (by simp)
                rfl rfl
  | drainModel modelId =>
      unfold drainModel
      split
      · next hnone =>
          exact .none rfl rfl (by simp [writing, hnone]) (by simp) rfl rfl
      · next current hsome =>
          exact .write current .draining rfl rfl (by simp [writing, hsome])
            rfl rfl
  | stopModel modelId signal =>
      exact .stop modelId rfl rfl rfl (stopOwned_lookup s modelId signal)
        (stopOwned_processes s modelId signal)
  | @stopNext k modelId modelIds signal hk =>
      exact .stop modelId rfl (by simp [stopping, hk]) rfl
        (stopOwned_lookup s modelId signal)
        (stopOwned_processes s modelId signal)
  | @exit p => exact .exit p rfl rfl rfl
  | wait p => exact .wait p rfl rfl rfl
  | ensureModel | stopAll | listen | close | occupy | vacate =>
      exact .none rfl rfl rfl (by simp) rfl rfl

theorem step_lookup (h : hostStep config s l = some t) (id : String) :
    t.models.lookup id =
      if launching s l = some id then some s.processes.length
      else if stopping s l = some id then none else s.models.lookup id := by
  cases step_effect h with
  | none hlaunch hstop _ _ models => simp [hlaunch, hstop, models]
  | launch modelId pid hlaunch hstop _ models =>
      rw [hlaunch, hstop, models, Host.launch]
      by_cases hid : modelId = id
      · subst hid
        rw [AList.lookup_insert, if_pos rfl]
      · rw [AList.lookup_insert_ne (Ne.symm hid), if_neg (by simpa using hid),
          if_neg (by simp)]
  | stop modelId hlaunch hstop _ models =>
      rw [hlaunch, hstop, models]
      simp [eq_comm]
  | write p state hlaunch hstop _ models => simp [hlaunch, hstop, models]
  | exit p hexit models => subst hexit; simp [launching, stopping, models]
  | wait p hwait models => subst hwait; simp [launching, stopping, models]

/-- What can be seen of a process does not change with the signals it is
sent. -/
theorem seen_of_unsignalled {β : Type} {f : Process → β}
    (hf : ∀ process, f (unsignalled process) = f process)
    (h : t.processes.map unsignalled = s.processes.map unsignalled) (p : Nat) :
    t.processes[p]?.map f = s.processes[p]?.map f := by
  have hp : (t.processes.map unsignalled)[p]? =
      (s.processes.map unsignalled)[p]? := by rw [h]
  have hforget : f ∘ unsignalled = f := funext hf
  rw [List.getElem?_map, List.getElem?_map] at hp
  have hseen := congrArg (Option.map f) hp
  rwa [Option.map_map, Option.map_map, hforget] at hseen

theorem any_of_unsignalled {f : Process → Bool}
    (hf : ∀ process, f (unsignalled process) = f process)
    (h : t.processes.map unsignalled = s.processes.map unsignalled) (p : Nat) :
    t.processes[p]?.any f = s.processes[p]?.any f := by
  have hany := congrArg (Option.any id) (seen_of_unsignalled hf h p)
  rwa [Option.any_map, Option.any_map] at hany

theorem alive_congr (h : t.processes.map unsignalled =
    s.processes.map unsignalled) (p : Nat) : t.alive p = s.alive p :=
  any_of_unsignalled (fun _ => rfl) h p

theorem step_alive (h : hostStep config s l = some t) (p : Nat) :
    t.alive p =
      if launching s l ≠ none ∧ p = s.processes.length then true
      else if l = .exit p then false else s.alive p := by
  cases step_effect h with
  | none hlaunch _ _ hexit _ processes =>
      rw [hlaunch, if_neg (by simp), if_neg (hexit p), Host.alive, processes,
        ← Host.alive]
  | launch modelId pid hlaunch _ _ _ processes =>
      have hexit : l ≠ .exit p := by rintro rfl; cases hlaunch
      rw [hlaunch, if_neg hexit, Host.alive, processes, Host.launch]
      rcases Nat.lt_trichotomy p s.processes.length with hlt | rfl | hgt
      · rw [List.getElem?_append_left hlt, if_neg (by simp; omega), Host.alive]
      · simp
      · rw [List.getElem?_eq_none (by simp; omega), if_neg (by simp; omega),
          Host.alive, List.getElem?_eq_none (by omega)]
  | stop modelId hlaunch hstop _ _ processes =>
      have hexit : l ≠ .exit p := by rintro rfl; cases hstop
      rw [hlaunch, if_neg (by simp), if_neg hexit, alive_congr processes]
  | write q state hlaunch hstop hwrite _ processes =>
      have hexit : l ≠ .exit p := by rintro rfl; cases hwrite
      rw [hlaunch, if_neg (by simp), if_neg hexit, Host.alive, processes,
        ← Host.alive, setState_alive]
  | exit q hexit _ processes =>
      subst hexit
      rw [if_neg (by simp [launching]), Host.alive, processes, modify_process]
      by_cases hq : q = p
      · rw [if_pos hq, if_pos (by rw [hq])]
        cases s.processes[p]? <;> rfl
      · rw [if_neg hq, if_neg (by simpa using hq), Host.alive]
  | wait q hwait _ processes =>
      subst hwait
      rw [if_neg (by simp [launching]), if_neg (by simp), Host.alive, processes,
        ← Host.alive, modify_alive]
      intro process
      rfl

/-- Whatever a process can be seen to be it remains, if it does not depend on
its life and the step does not write another state. -/
theorem step_kept {β : Type} {f : Process → β} {p : Nat} {b : β}
    (hf : ∀ process alive waited signalled, f { process with
      alive := alive, waited := waited, signalled := signalled } = f process)
    (h : hostStep config s l = some t)
    (hwrite : ∀ state process, writing s l = some (p, state) →
      f process = b → f { process with state := state } = b)
    (hb : s.processes[p]?.map f = some b) :
    t.processes[p]?.map f = some b := by
  obtain ⟨process, hp, hfb⟩ := Option.map_eq_some_iff.mp hb
  have hmodify : ∀ {q : Nat} {g : Process → Process},
      (q = p → f (g process) = b) →
      (s.modify q g).processes[p]?.map f = some b := by
    intro q g hg
    rw [modify_process]
    split
    · next heq => rw [hp, Option.map_some, Option.map_some, hg heq]
    · exact hb
  cases step_effect h with
  | none _ _ _ _ _ processes => rwa [processes]
  | launch modelId pid _ _ _ _ processes =>
      obtain ⟨hlt, _⟩ := List.getElem?_eq_some_iff.mp hp
      rwa [processes, Host.launch, List.getElem?_append_left hlt]
  | stop modelId _ _ _ _ processes =>
      rw [seen_of_unsignalled (fun process => hf process _ _ _) processes, hb]
  | write q state _ _ hw _ processes =>
      rw [processes]
      refine hmodify ?_
      rintro rfl
      exact hwrite state process hw hfb
  | exit q _ _ processes =>
      rw [processes]
      exact hmodify fun _ => (hf process _ _ _).trans hfb
  | wait q _ _ processes =>
      rw [processes]
      exact hmodify fun _ => (hf process _ _ _).trans hfb

theorem step_length (h : hostStep config s l = some t) :
    s.processes.length ≤ t.processes.length := by
  cases step_effect h with
  | none _ _ _ _ _ processes => rw [processes]
  | launch _ _ _ _ _ _ processes => simp [processes, Host.launch]
  | stop _ _ _ _ _ processes =>
      have hlength := congrArg List.length processes
      rw [List.length_map, List.length_map] at hlength
      exact Nat.le_of_eq hlength.symm
  | write _ _ _ _ _ _ processes =>
      simp [processes, Host.setState, Host.modify]
  | exit _ _ _ processes | wait _ _ _ processes =>
      simp [processes, Host.modify]

/-- A process that has been waited for has been. -/
theorem step_waited (h : hostStep config s l = some t) {p : Nat}
    (hp : s.waited p = true) : t.waited p = true := by
  have hmodify : ∀ {q : Nat} {f : Process → Process},
      (∀ process, process.waited = true → (f process).waited = true) →
      (s.modify q f).waited p = true := by
    intro q f hf
    rw [Host.waited, modify_process]
    split
    · rw [Option.any_map]
      rw [Host.waited, Option.any_eq_true] at hp
      obtain ⟨process, hprocess, hwaited⟩ := hp
      rw [hprocess]
      exact hf process hwaited
    · exact hp
  cases step_effect h with
  | none _ _ _ _ _ processes => rwa [Host.waited, processes]
  | launch _ _ _ _ _ _ processes =>
      obtain ⟨process, hprocess, _⟩ := Option.any_eq_true _ _ |>.mp hp
      obtain ⟨hlt, _⟩ := List.getElem?_eq_some_iff.mp hprocess
      rwa [Host.waited, processes, Host.launch, List.getElem?_append_left hlt]
  | stop _ _ _ _ _ processes =>
      exact (any_of_unsignalled (fun _ => rfl) processes p).trans hp
  | write _ _ _ _ _ _ processes =>
      rw [Host.waited, processes]
      exact hmodify fun _ hw => hw
  | exit _ _ _ processes =>
      rw [Host.waited, processes]
      exact hmodify fun _ hw => hw
  | wait _ _ _ processes =>
      rw [Host.waited, processes]
      exact hmodify fun _ _ => rfl

/-- All a launch does. -/
theorem launch_step (h : hostStep config s l = some t) {modelId : String}
    (hlaunch : launching s l = some modelId) :
    ∃ i pid, s.calls[i]? = some ⟨modelId, .entering⟩ ∧
      t = (s.launch config modelId pid).moveTo i
        (.polling s.processes.length) := by
  unfold launching at hlaunch
  split at hlaunch
  · next i pid =>
      split at hlaunch
      · next modelId' hcall =>
          split at hlaunch
          · next hnone =>
              cases hlaunch
              refine ⟨i, pid, hcall, ?_⟩
              simp only [hostStep, Host.withCall, hcall, enter, hnone,
                Bool.false_and, Bool.false_eq_true, if_false, if_true,
                Option.some.injEq] at h
              exact h.symm
          · cases hlaunch
      · cases hlaunch
  · cases hlaunch

/-- The process that was launched is the last one. -/
theorem launched_process (h : hostStep config s l = some t) {modelId : String}
    (hlaunch : launching s l = some modelId) :
    t.processes[s.processes.length]?.map (·.modelId) = some modelId := by
  obtain ⟨i, pid, _, rfl⟩ := launch_step h hlaunch
  simp [Host.launch, Host.moveTo]

/-- A state that was just written can be read. -/
theorem written_ready (h : hostStep config s l = some t) {p : Nat}
    (hw : writing s l = some (p, .ready)) {process : Process}
    (hp : s.processes[p]? = some process) :
    t.processes[p]?.map (·.state) = some .ready := by
  cases step_effect h with
  | write q state _ _ hwrite _ processes =>
      rw [hw] at hwrite
      cases hwrite
      rw [processes, Host.setState, modify_process, if_pos rfl, hp]
      rfl
  | none _ _ hwrite => rw [hw] at hwrite; cases hwrite
  | launch _ _ _ _ hwrite => rw [hw] at hwrite; cases hwrite
  | stop _ _ _ hwrite => rw [hw] at hwrite; cases hwrite
  | exit _ hexit => subst hexit; cases hw
  | wait _ hwait => subst hwait; cases hw

/-! ## The table -/

/-- A process is tracked under its own model only. -/
def Rooted (s : Host) : Prop :=
  ∀ modelId p, s.models.lookup modelId = some p →
    s.processes[p]?.map (·.modelId) = some modelId

theorem rooted_init : Rooted .init := by
  intro modelId p h
  cases h

theorem rooted_step (hI : Rooted s) (h : hostStep config s l = some t) :
    Rooted t := by
  intro modelId p hp
  rw [step_lookup h] at hp
  split at hp
  · next hlaunch =>
      cases hp
      exact launched_process h hlaunch
  · split at hp
    · cases hp
    · exact step_kept (fun _ _ _ _ => rfl) h (fun _ _ _ hb => hb)
        (hI modelId p hp)

/-! ## The port -/

theorem enter_server (s : Host) (i : Nat) (modelId : String) (ready : Bool)
    (launch : Launch) :
    (enter config s i modelId ready launch).server = s.server := by
  unfold enter
  split
  · rfl
  · split
    · rfl
    · split <;> rfl

theorem confirm_server {i : Nat} {modelId : String} {point : Point}
    (h : confirm s i modelId point = some t) : t.server = s.server := by
  cases point <;> simp only [confirm, reduceCtorEq] at h
  case probed current alive =>
    split at h
    · cases h; rfl
    · obtain ⟨_, _, rfl⟩ := Option.map_eq_some_iff.mp h
      rfl
  case polled owned alive =>
    cases h
    split <;> rfl

/-- Who serves the port was serving it or has just taken it, and is not on its
way out. -/
theorem step_server (h : hostStep config s l = some t) {p : Nat}
    (hp : t.server = some (.launched p)) :
    l ≠ .exit p ∧ (s.server = some (.launched p) ∨ s.alive p = true) := by
  have hkept : t.server = s.server →
      s.server = some (.launched p) ∨ s.alive p = true :=
    fun heq => .inl (heq.symm.trans hp)
  cases step_move h with
  | @enter i ready launch modelId =>
      exact ⟨by simp, hkept (enter_server s i modelId ready launch)⟩
  | probe _ ht =>
      obtain ⟨point', rfl⟩ := probe_host ht
      exact ⟨by simp, hkept rfl⟩
  | confirm _ ht => exact ⟨by simp, hkept (confirm_server ht)⟩
  | report _ ht =>
      obtain ⟨point', rfl⟩ := report_host ht
      exact ⟨by simp, hkept rfl⟩
  | wake _ ht =>
      obtain ⟨point', rfl⟩ := wake_host ht
      exact ⟨by simp, hkept rfl⟩
  | expire _ ht =>
      obtain ⟨point', rfl⟩ := expire_host ht
      exact ⟨by simp, hkept rfl⟩
  | @giveUp i signal modelId point _ _ ht =>
      cases point <;> simp only [giveUp, Option.some.injEq, reduceCtorEq] at ht
      subst ht
      exact ⟨by simp, hkept (stopOwned_frame s modelId signal).1⟩
  | getModelStatus modelId =>
      refine ⟨by simp, hkept ?_⟩
      unfold getModelStatus
      split
      · rfl
      · dsimp only
        split <;> rfl
  | drainModel modelId =>
      refine ⟨by simp, hkept ?_⟩
      unfold drainModel
      split <;> rfl
  | stopModel modelId signal =>
      exact ⟨by simp, hkept (stopOwned_frame s modelId signal).1⟩
  | @stopNext k modelId modelIds signal =>
      exact ⟨by simp, hkept (stopOwned_frame s modelId signal).1⟩
  | listen halive =>
      cases hp
      exact ⟨by simp, .inr halive⟩
  | exit =>
      dsimp only at hp
      split at hp
      · cases hp
      · next hne =>
          refine ⟨?_, .inl hp⟩
          rintro ⟨⟩
          exact hne hp
  | ensureModel | stopAll | wait => exact ⟨by simp, hkept rfl⟩
  | close | occupy | vacate => cases hp

/-- A catalog of two models. -/
def twoModels : Config :=
  { localRuntime := fun id => if id ∈ ["a", "b"] then some id else none
    port := 8080
    quoted := fun id => "\"" ++ id ++ "\"" }

end DataPlane.Proofs
