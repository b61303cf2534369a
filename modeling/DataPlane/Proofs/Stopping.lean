import DataPlane.Proofs.HostCalls

/-!
# No process is left running unasked

A stop takes the entry away before the process is gone, and from then on the
agent knows nothing of it. If the process could be neither interrupted nor
killed it runs on unasked. But where every stop gets through to a process that
still runs, a process that has lost its entry has been told: it was interrupted
or killed when the entry went, or it has exited, as it has whenever a launch
overwrites its entry. From there the stops that are made of many single ones can
be followed: `StopAll` gives up the lock between two models, so models come and
go while it runs, but what it found running it has told in the end.
-/

namespace DataPlane.Proofs

open DataPlane DataPlane.Lib DataPlane.Ref.HostAgent

/-- The process has been interrupted or killed, or it has exited. -/
def Host.told (s : Host) (p : Nat) : Bool :=
  s.processes[p]?.any fun process => process.signalled || !process.alive

/-- What comes of the signal of a stop. -/
def signalOf : HostStep → Option Signal
  | .giveUp _ signal | .stopModel _ signal | .stopNext _ signal => some signal
  | _ => none

/-- A stop that takes the entry of a process which still runs interrupts it, or
kills it. -/
def reaches (s : Host) (l : HostStep) : Bool :=
  (signalOf l).all (·.reached) ||
    !((stopping s l).bind s.models.lookup).any s.alive

variable {config : Config} {s t : Host} {l : HostStep} {modelId : String}

/-! ## One step -/

theorem told_of_exited {p : Nat} (hlt : p < s.processes.length)
    (h : s.alive p = false) : Host.told s p = true := by
  unfold Host.alive at h
  unfold Host.told
  rw [List.getElem?_eq_getElem hlt, Option.any_some] at h ⊢
  rw [h]
  exact Bool.or_true _

/-- A change that takes back no signal and brings nobody back. -/
theorem told_modify {f : Process → Process}
    (hf : ∀ process, (process.signalled || !process.alive) = true →
      ((f process).signalled || !(f process).alive) = true) (q : Nat) {p : Nat}
    (h : Host.told s p = true) : Host.told (s.modify q f) p = true := by
  unfold Host.told at h ⊢
  rw [modify_process]
  split
  · cases hp : s.processes[p]? with
    | none => rw [hp] at h; cases h
    | some process =>
        rw [hp] at h
        exact hf process h
  · exact h

theorem told_of_processes (h : t.processes = s.processes) (p : Nat) :
    Host.told t p = Host.told s p := by
  rw [Host.told, h, Host.told]

/-- A process that was waited for has exited. -/
def Exited (s : Host) : Prop :=
  ∀ p, s.waited p = true → s.alive p = false

/-- A stop takes back no signal. -/
theorem stopOwned_keeps_told (modelId : String) (signal : Signal) {p : Nat}
    (h : Host.told s p = true) :
    Host.told (stopOwned s modelId signal).2 p = true := by
  have htold : ∀ q, Host.told ({ s with models := s.models.erase modelId }.modify q
      fun process => { process with
        signalled := process.signalled || signal.reached }) p = true := by
    intro q
    refine told_modify (fun process hold => ?_) q h
    rw [Bool.or_right_comm, hold, Bool.true_or]
  unfold stopOwned
  split
  · exact h
  · dsimp only
    split
    · exact h
    · split <;> exact htold _

/-- The process a stop reaches is told. -/
theorem stopOwned_tells (hI : Exited s) (modelId : String) {signal : Signal}
    {p : Nat} (hlt : p < s.processes.length)
    (hp : s.models.lookup modelId = some p)
    (hreached : signal.reached = true ∨ s.alive p = false) :
    Host.told (stopOwned s modelId signal).2 p = true := by
  rcases hreached with hreached | hexited
  · unfold stopOwned
    rw [hp]
    dsimp only
    split
    · next hwaited => exact told_of_exited hlt (hI p hwaited)
    · have htold : Host.told ({ s with models := s.models.erase modelId }.modify p
          fun process => { process with
            signalled := process.signalled || signal.reached }) p = true := by
        rw [Host.told, modify_process, if_pos rfl, List.getElem?_eq_getElem hlt,
          hreached]
        simp
      split <;> exact htold
  · exact stopOwned_keeps_told modelId signal (told_of_exited hlt hexited)

/-- The processes after a stop. -/
theorem step_stops (h : hostStep config s l = some t)
    (hstop : stopping s l = some modelId) :
    ∃ signal, signalOf l = some signal ∧
      t.processes = (stopOwned s modelId signal).2.processes := by
  cases step_move h with
  | @giveUp i signal _ point _ hcall ht =>
      cases point <;> simp only [giveUp, Option.some.injEq, reduceCtorEq] at ht
      subst ht
      rw [stopping, hcall] at hstop
      cases hstop
      exact ⟨signal, rfl, rfl⟩
  | stopModel _ signal =>
      cases hstop
      exact ⟨signal, rfl, rfl⟩
  | stopNext signal hk =>
      rw [stopping, hk] at hstop
      cases hstop
      exact ⟨signal, rfl, rfl⟩
  | _ => cases hstop

theorem lookup_lt (hI : Rooted s) {p : Nat}
    (h : s.models.lookup modelId = some p) : p < s.processes.length := by
  obtain ⟨_, hp, _⟩ := Option.map_eq_some_iff.mp (hI _ _ h)
  exact (List.getElem?_eq_some_iff.mp hp).1

/-- Nobody is untold. -/
theorem told_step (h : hostStep config s l = some t) {p : Nat}
    (hp : Host.told s p = true) : Host.told t p = true := by
  cases step_effect h with
  | none _ _ _ _ _ processes => rwa [told_of_processes processes]
  | launch modelId pid _ _ _ _ processes =>
      rw [Host.told, processes, Host.launch,
        List.getElem?_append_left (lt_of_any hp)]
      exact hp
  | stop modelId _ hstop _ _ _ =>
      obtain ⟨signal, _, processes⟩ := step_stops h hstop
      rw [told_of_processes processes]
      exact stopOwned_keeps_told modelId signal hp
  | write q state _ _ _ _ processes =>
      rw [told_of_processes processes]
      refine told_modify ?_ q hp
      exact fun _ hold => hold
  | exit q _ _ processes =>
      rw [told_of_processes processes]
      exact told_modify (fun _ _ => Bool.or_true _) q hp
  | wait q _ _ processes =>
      rw [told_of_processes processes]
      refine told_modify ?_ q hp
      exact fun _ hold => hold

/-- What an entry is about was launched, and what was waited for has exited. -/
structure Orderly (s : Host) : Prop where
  rooted : Rooted s
  exited : Exited s

/-- A stop that reaches the process it takes the entry of tells it. -/
theorem told_of_stop (hI : Orderly s) (hok : reaches s l = true)
    (h : hostStep config s l = some t) (hstop : stopping s l = some modelId)
    {p : Nat} (hp : s.models.lookup modelId = some p) :
    Host.told t p = true := by
  obtain ⟨signal, hsignal, processes⟩ := step_stops h hstop
  rw [reaches, hsignal, hstop, Option.bind_some, hp, Option.all_some,
    Option.any_some, Bool.or_eq_true, Bool.not_eq_true'] at hok
  rw [told_of_processes processes]
  exact stopOwned_tells hI.exited modelId (lookup_lt hI.rooted hp) hp hok

theorem current_of_launching (hlaunch : launching s l = some modelId) :
    s.current modelId = none := by
  unfold launching at hlaunch
  split at hlaunch
  · split at hlaunch
    · split at hlaunch
      · next hcurrent =>
          cases hlaunch
          exact hcurrent
      · cases hlaunch
    · cases hlaunch
  · cases hlaunch

/-- An entry goes only with a process that has been told. -/
theorem lookup_or_told (hI : Orderly s) (hok : reaches s l = true)
    (h : hostStep config s l = some t) {p : Nat}
    (hp : s.models.lookup modelId = some p) :
    t.models.lookup modelId = some p ∨ Host.told t p = true := by
  by_cases hstop : stopping s l = some modelId
  · exact .inr (told_of_stop hI hok h hstop hp)
  by_cases hlaunch : launching s l = some modelId
  · -- what a launch overwrites has been waited for
    refine .inr (told_step h (told_of_exited (lookup_lt hI.rooted hp)
      (hI.exited p ?_)))
    have hnone := current_of_launching hlaunch
    rw [Host.current, hp, Option.filter_some] at hnone
    by_contra hwaited
    rw [if_pos (by simpa using hwaited)] at hnone
    cases hnone
  · refine .inl ?_
    rw [step_lookup h, if_neg hlaunch, if_neg hstop, hp]

/-! ## Nobody is forgotten -/

/-- A process that has not been told is its model's. -/
def NoneAstray (s : Host) : Prop :=
  ∀ p process, s.processes[p]? = some process →
    Host.told s p = true ∨ s.models.lookup process.modelId = some p

theorem step_processes_length (h : hostStep config s l = some t) :
    t.processes.length =
      s.processes.length + if launching s l = none then 0 else 1 := by
  cases step_effect h with
  | none hlaunch _ _ _ _ processes => rw [hlaunch, processes]; rfl
  | launch modelId pid hlaunch _ _ _ processes =>
      rw [hlaunch, processes, Host.launch, List.length_append]
      rfl
  | stop modelId hlaunch _ _ _ processes =>
      have hlength := congrArg List.length processes
      rw [List.length_map, List.length_map] at hlength
      rw [hlaunch, hlength]
      rfl
  | write q state hlaunch _ _ _ processes =>
      rw [hlaunch, processes, Host.setState, Host.modify, List.length_modify]
      rfl
  | exit q hexit _ processes =>
      subst hexit
      rw [processes, Host.modify, List.length_modify]
      rfl
  | wait q hwait _ processes =>
      subst hwait
      rw [processes, Host.modify, List.length_modify]
      rfl

theorem modelId_step (h : hostStep config s l = some t) {p : Nat}
    (hp : s.processes[p]?.map (·.modelId) = some modelId) :
    t.processes[p]?.map (·.modelId) = some modelId :=
  step_kept (fun _ _ _ _ => rfl) h (fun _ _ _ hb => hb) hp

/-- A process is one there was, or the one that was launched. -/
theorem process_of_step (h : hostStep config s l = some t) {p : Nat}
    {process : Process} (hp : t.processes[p]? = some process) :
    (∃ old, s.processes[p]? = some old ∧ old.modelId = process.modelId) ∨
      launching s l = some process.modelId ∧ p = s.processes.length := by
  obtain ⟨hlt, _⟩ := List.getElem?_eq_some_iff.mp hp
  rw [step_processes_length h] at hlt
  rcases Nat.lt_or_ge p s.processes.length with hold | hnew
  · refine .inl ⟨_, List.getElem?_eq_getElem hold, ?_⟩
    have hkept := modelId_step h (p := p)
      (by rw [List.getElem?_eq_getElem hold]; rfl)
    rw [hp] at hkept
    exact (Option.some.inj hkept).symm
  · cases hlaunch : launching s l with
    | none =>
        rw [hlaunch, if_pos rfl] at hlt
        omega
    | some modelId =>
        rw [hlaunch, if_neg nofun] at hlt
        have heq : p = s.processes.length := by omega
        have hmodel := launched_process h hlaunch
        rw [← heq, hp, Option.map_some, Option.some.injEq] at hmodel
        exact .inr ⟨by rw [hmodel], heq⟩

theorem noneAstray_init : NoneAstray .init := by
  intro p process hp
  cases hp

theorem noneAstray_step (horderly : Orderly s) (hI : NoneAstray s)
    (hok : reaches s l = true) (h : hostStep config s l = some t) :
    NoneAstray t := by
  intro p process hp
  rcases process_of_step h hp with ⟨old, hold, hmodel⟩ | ⟨hlaunch, rfl⟩
  · rcases hI p old hold with htold | htracked
    · exact .inl (told_step h htold)
    · rw [hmodel] at htracked
      exact (lookup_or_told horderly hok h htracked).symm
  · exact .inr (by rw [step_lookup h, if_pos hlaunch])

/-- Only `Wait` makes a process one that was waited for. -/
theorem waited_of_step (h : hostStep config s l = some t) {p : Nat}
    (hp : t.waited p = true) : s.waited p = true ∨ l = .wait p := by
  cases step_effect h with
  | none _ _ _ _ _ processes =>
      rw [Host.waited, processes] at hp
      exact .inl hp
  | launch modelId pid _ _ _ _ processes =>
      rw [Host.waited, processes, Host.launch] at hp
      rcases Nat.lt_trichotomy p s.processes.length with hlt | rfl | hgt
      · rw [List.getElem?_append_left hlt] at hp
        exact .inl hp
      · rw [List.getElem?_concat_length] at hp
        cases hp
      · rw [List.getElem?_eq_none (by simp; omega)] at hp
        cases hp
  | stop modelId _ _ _ _ processes =>
      exact .inl ((any_of_unsignalled (fun _ => rfl) processes p).symm.trans hp)
  | write q state _ _ _ _ processes =>
      rw [Host.waited, processes, Host.setState, modify_any] at hp
      · exact .inl hp
      · exact fun _ => rfl
  | exit q _ _ processes =>
      rw [Host.waited, processes, modify_any] at hp
      · exact .inl hp
      · exact fun _ => rfl
  | wait q hwait _ processes =>
      rcases eq_or_ne q p with rfl | hne
      · exact .inr hwait
      · rw [Host.waited, processes, modify_process, if_neg hne] at hp
        exact .inl hp

theorem exited_step (hI : Exited s) (h : hostStep config s l = some t) :
    Exited t := by
  intro p hp
  rw [step_alive h]
  rcases waited_of_step h hp with hold | rfl
  · have hlt := lt_of_any hold
    rw [if_neg (by omega), hI p hold, ite_self]
  · simp only [hostStep] at h
    split at h
    · next hguard =>
        rw [Bool.and_eq_true, Bool.not_eq_true'] at hguard
        rw [if_neg (by simp [launching]), if_neg (by simp), hguard.2]
    · cases h

theorem orderly_init : Orderly .init where
  rooted := rooted_init
  exited p hp := by cases hp

theorem orderly_step (hI : Orderly s) (h : hostStep config s l = some t) :
    Orderly t where
  rooted := rooted_step hI.rooted h
  exited := exited_step hI.exited h

theorem noneAstray_of_run
    (h : Run (hostStep config) (fun s l => reaches s l = true) .init s) :
    Orderly s ∧ NoneAstray s :=
  h.invariant (I := fun s => Orderly s ∧ NoneAstray s)
    ⟨orderly_init, noneAstray_init⟩ fun hI hok hstep =>
      ⟨orderly_step hI.1 hstep, noneAstray_step hI.1 hI.2 hok hstep⟩

/-! ## `StopAll` -/

theorem stopOwned_stopAlls (s : Host) (modelId : String)
    (signal : Signal) :
    (stopOwned s modelId signal).2.stopAlls = s.stopAlls := by
  unfold stopOwned
  split
  · rfl
  · dsimp only
    split
    · rfl
    · split <;> rfl

/-- What a step does to a `StopAll` that is under way. -/
theorem step_stopAlls (h : hostStep config s l = some t) {k : Nat}
    {ids : List String} (hk : s.stopAlls[k]? = some ids) :
    t.stopAlls[k]? = some ids ∨
      ∃ id rest, ids = id :: rest ∧ stopping s l = some id ∧
        t.stopAlls[k]? = some rest := by
  obtain ⟨hlt, _⟩ := List.getElem?_eq_some_iff.mp hk
  have hsame : t.stopAlls = s.stopAlls → t.stopAlls[k]? = some ids :=
    fun heq => by rw [heq, hk]
  cases step_move h with
  | enter hcall =>
      refine .inl (hsame ?_)
      unfold enter
      split
      · rfl
      · split
        · rfl
        · split <;> rfl
  | probe _ ht =>
      obtain ⟨point', rfl⟩ := probe_host ht
      exact .inl (hsame rfl)
  | @confirm i _ point _ _ ht =>
      refine .inl (hsame ?_)
      cases point <;> simp only [confirm, reduceCtorEq] at ht
      case probed current alive =>
        split at ht
        · cases ht; rfl
        · obtain ⟨_, _, rfl⟩ := Option.map_eq_some_iff.mp ht
          rfl
      case polled owned alive =>
        cases ht
        split <;> rfl
  | report _ ht =>
      obtain ⟨point', rfl⟩ := report_host ht
      exact .inl (hsame rfl)
  | wake _ ht =>
      obtain ⟨point', rfl⟩ := wake_host ht
      exact .inl (hsame rfl)
  | expire _ ht =>
      obtain ⟨point', rfl⟩ := expire_host ht
      exact .inl (hsame rfl)
  | @giveUp i signal _ point _ _ ht =>
      refine .inl (hsame ?_)
      cases point <;> simp only [giveUp, Option.some.injEq, reduceCtorEq] at ht
      subst ht
      exact stopOwned_stopAlls s _ signal
  | getModelStatus modelId =>
      refine .inl (hsame ?_)
      unfold getModelStatus
      split
      · rfl
      · dsimp only
        split <;> rfl
  | drainModel modelId =>
      refine .inl (hsame ?_)
      unfold drainModel
      split <;> rfl
  | stopModel modelId signal =>
      exact .inl (hsame (stopOwned_stopAlls s modelId signal))
  | stopAll modelIds =>
      refine .inl ?_
      rw [List.getElem?_append_left hlt, hk]
  | @stopNext k' modelId modelIds signal hk' =>
      rcases eq_or_ne k' k with rfl | hne
      · rw [hk] at hk'
        cases hk'
        refine .inr ⟨modelId, modelIds, rfl, by rw [stopping, hk], ?_⟩
        rw [List.getElem?_set_self hlt]
      · refine .inl ?_
        rw [List.getElem?_set_ne hne, hk]
  | ensureModel | listen | close | exit | wait | occupy | vacate =>
      exact .inl (hsame rfl)

/-- Of the first `n` processes, those that have not been told are still to be
stopped by the `StopAll` at `k`. -/
def StillToStop (k n : Nat) (s : Host) : Prop :=
  ∃ ids, s.stopAlls[k]? = some ids ∧ ∀ p < n, Host.told s p = true ∨
    ∃ id ∈ ids, s.models.lookup id = some p

theorem stillToStop_step {k n : Nat} (horderly : Orderly s)
    (hI : StillToStop k n s) (hok : reaches s l = true)
    (h : hostStep config s l = some t) : StillToStop k n t := by
  obtain ⟨ids, hk, hids⟩ := hI
  rcases step_stopAlls h hk with hk' | ⟨id₀, rest, rfl, hstop, hk'⟩
  · refine ⟨ids, hk', fun p hp => ?_⟩
    rcases hids p hp with htold | ⟨id, hid, htracked⟩
    · exact .inl (told_step h htold)
    · rcases lookup_or_told horderly hok h htracked with htracked | htold
      · exact .inr ⟨id, hid, htracked⟩
      · exact .inl htold
  · refine ⟨rest, hk', fun p hp => ?_⟩
    rcases hids p hp with htold | ⟨id, hid, htracked⟩
    · exact .inl (told_step h htold)
    · rcases List.mem_cons.mp hid with rfl | hid
      · exact .inl (told_of_stop horderly hok h hstop htracked)
      · rcases lookup_or_told horderly hok h htracked with htracked | htold
        · exact .inr ⟨id, hid, htracked⟩
        · exact .inl htold

theorem stillToStop_snapshot (hI : NoneAstray s) {modelIds : List String}
    (h : hostStep config s (.stopAll modelIds) = some t) :
    StillToStop s.stopAlls.length s.processes.length t := by
  simp only [hostStep] at h
  split at h
  · next hperm =>
      cases h
      refine ⟨modelIds, List.getElem?_concat_length, fun p hp => ?_⟩
      rcases hI p _ (List.getElem?_eq_getElem hp) with htold | htracked
      · exact .inl htold
      · refine .inr ⟨_, (List.isPerm_iff.mp hperm).mem_iff.mpr ?_, htracked⟩
        exact AList.lookup_isSome.mp (by rw [htracked]; rfl)
  · cases h

/-- However calls interleave, as long as every stop interrupts or kills the
process it takes the entry of, unless that has exited: a process whose model does
not lead to it has been interrupted or killed, or has exited; and once a
`StopAll` is through, so has every process that was launched before it began,
whatever was loaded and stopped in the meantime. -/
theorem stopAll_reaches_every_process (config : Config) (s : Host)
    (h : Run (hostStep config) (fun s l => reaches s l = true) .init s) :
    (∀ p process, s.processes[p]? = some process →
      s.models.lookup process.modelId ≠ some p → Host.told s p = true) ∧
    ∀ modelIds t u, hostStep config s (.stopAll modelIds) = some t →
      Run (hostStep config) (fun s l => reaches s l = true) t u →
      u.stopAlls[s.stopAlls.length]? = some [] →
      ∀ p < s.processes.length, Host.told u p = true := by
  obtain ⟨horderly, hI⟩ := noneAstray_of_run h
  refine ⟨fun p process hp hne => (hI p process hp).resolve_right hne, ?_⟩
  intro modelIds t u hstep hrun hdone p hp
  obtain ⟨_, ids, hk, hids⟩ := hrun.invariant
    (I := fun s' => Orderly s' ∧
      StillToStop s.stopAlls.length s.processes.length s')
    ⟨orderly_step horderly hstep, stillToStop_snapshot hI hstep⟩
    fun hI' hok hl =>
      ⟨orderly_step hI'.1 hl, stillToStop_step hI'.1 hI'.2 hok hl⟩
  rw [hdone] at hk
  cases hk
  exact (hids p hp).resolve_right (by rintro ⟨_, hid, _⟩; cases hid)

/-- Two models are starting when everything is stopped. In between the two stops
the first is asked for once more, and the second exits, so that it can no longer
be interrupted or killed. -/
theorem stopAll_reaches_every_process_loading :
    ∃ s t u, Run (hostStep twoModels) (fun s l => reaches s l = true) .init s ∧
      hostStep twoModels s (.stopAll ["a", "b"]) = some t ∧
      Run (hostStep twoModels) (fun s l => reaches s l = true) t u ∧
      u.processes.map (·.signalled) = [true, false, false] ∧
      u.processes.map (·.alive) = [true, false, true] ∧
      Host.told u 0 = true ∧ Host.told u 1 = true := by
  obtain ⟨s, t, hrun, hstep, hf⟩ := run_step_of_exec_map (hostStep twoModels)
    (fun s l => reaches s l = true) reaches .init
    [.ensureModel "a", .enter 0 false (.started 100), .ensureModel "b",
      .enter 1 false (.started 101)] (.stopAll ["a", "b"])
    (fun s t => (exec (hostStep twoModels) reaches t
        [.stopNext 0 .interrupted, .ensureModel "a",
          .enter 2 false (.started 102), .exit 1,
          .stopNext 0 (.failed "os: process already finished" false)]).map
      fun (u : Host) =>
        (s.processes.length, decide (u.stopAlls[s.stopAlls.length]? = some []),
          u.processes.map (·.signalled), u.processes.map (·.alive)))
    (b := some (2, true, [true, false, false], [true, false, true]))
    (fun _ _ hok => hok) (by decide)
  obtain ⟨u, hexec, hu⟩ := Option.map_eq_some_iff.mp hf
  simp only [Prod.mk.injEq, decide_eq_true_eq] at hu
  obtain ⟨hlength, hdone, hsignalled, halive⟩ := hu
  have hrun' : Run (hostStep twoModels) (fun s l => reaches s l = true) t u :=
    run_of_exec (fun _ _ hok => hok) hexec
  have htold := (stopAll_reaches_every_process twoModels s hrun).2 _ t u hstep
    hrun' hdone
  exact ⟨s, t, u, hrun, hstep, hrun', hsignalled, halive, htold 0 (by omega),
    htold 1 (by omega)⟩

end DataPlane.Proofs
