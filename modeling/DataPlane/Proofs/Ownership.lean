import DataPlane.Proofs.HostAgent

/-!
# One process, and it is tracked

There is one port, so at most one of the agent's processes should be alive, and
the agent should know of it. Two kinds of step break this. A launch does when
an earlier process is alive and does not answer on the port: it is still
starting, or it is shutting down. A stop does when the process is alive at all,
because the entry goes before the process does. Nothing else can.
-/

namespace DataPlane.Proofs

open DataPlane DataPlane.Lib DataPlane.Ref.HostAgent

/-- At most one process is alive, and every one that is has its entry. -/
structure Owned (s : Host) : Prop where
  one : ∀ p q, s.alive p = true → s.alive q = true → p = q
  tracked : ∀ p, s.alive p = true → ∃ modelId, s.models.lookup modelId = some p

/-- A launch finds nothing alive, a stop finds its process dead. -/
def KeepsOwned (s : Host) (l : HostStep) : Prop :=
  (launching s l ≠ none → ∀ process ∈ s.processes, process.alive = false) ∧
    ∀ modelId ∈ stopping s l, ∀ p ∈ s.models.lookup modelId,
      s.alive p = false

instance (s : Host) (l : HostStep) : Decidable (KeepsOwned s l) :=
  inferInstanceAs (Decidable (_ ∧ _))

variable {config : Config} {s t : Host} {l : HostStep}

theorem nothing_alive (h : ∀ process ∈ s.processes, process.alive = false)
    (p : Nat) : s.alive p = false := by
  cases hp : s.processes[p]? with
  | none => rw [Host.alive, hp]; rfl
  | some process =>
      rw [Host.alive, hp]
      exact h process (List.mem_of_getElem? hp)

/-! ## One step -/

theorem owned_init : Owned .init where
  one := by intro p q hp; cases hp
  tracked := by intro p hp; cases hp

theorem owned_step (hI : Owned s) (hok : KeepsOwned s l)
    (h : hostStep config s l = some t) : Owned t := by
  have hold : ∀ {p}, t.alive p = true → launching s l = none →
      s.alive p = true := by
    intro p hp hnone
    rw [step_alive h, hnone, if_neg (by simp)] at hp
    split at hp
    · cases hp
    · exact hp
  cases hl : launching s l with
  | some modelId =>
      have hnew : ∀ {p}, t.alive p = true → p = s.processes.length := by
        intro p hp
        by_contra hne
        rw [step_alive h, if_neg (by simp [hne]),
          nothing_alive (hok.1 (by simp [hl]))] at hp
        split at hp <;> cases hp
      refine ⟨fun p q hp hq => (hnew hp).trans (hnew hq).symm, ?_⟩
      intro p hp
      refine ⟨modelId, ?_⟩
      rw [step_lookup h, if_pos hl, hnew hp]
  | none =>
      refine ⟨fun p q hp hq => hI.one p q (hold hp hl) (hold hq hl), ?_⟩
      intro p hp
      obtain ⟨modelId, hid⟩ := hI.tracked p (hold hp hl)
      refine ⟨modelId, ?_⟩
      have hstop : stopping s l ≠ some modelId := by
        intro hs
        have hdead := hok.2 modelId hs p hid
        rw [hold hp hl] at hdead
        cases hdead
      rw [step_lookup h, hl, if_neg (by simp), if_neg hstop, hid]

/-- A step that is not one of these breaks it at once. -/
theorem keepsOwned_of_owned (hroot : Rooted s)
    (h : hostStep config s l = some t) (ht : Owned t) : KeepsOwned s l := by
  constructor
  · intro hlaunch process hmem
    obtain ⟨p, hp⟩ := List.mem_iff_getElem?.mp hmem
    by_contra halive
    have hs : s.alive p = true := by
      rw [Host.alive, hp]
      simpa using halive
    have hlt := lt_of_any hs
    have hnew : t.alive s.processes.length = true := by
      rw [step_alive h, if_pos ⟨hlaunch, rfl⟩]
    have hkept : t.alive p = true := by
      have hexit : l ≠ .exit p := by
        rintro rfl
        exact hlaunch rfl
      rw [step_alive h, if_neg (by omega), if_neg hexit, hs]
    have := ht.one _ _ hnew hkept
    omega
  · intro modelId hstop p hp
    by_contra halive
    have hs : s.alive p = true := by simpa using halive
    have hlaunch : launching s l = none := by
      cases l <;> first | rfl | cases hstop
    have hkept : t.alive p = true := by
      have hexit : l ≠ .exit p := by
        rintro rfl
        cases hstop
      rw [step_alive h, hlaunch, if_neg (by simp), if_neg hexit, hs]
    obtain ⟨id, hid⟩ := ht.tracked p hkept
    rw [step_lookup h, hlaunch, if_neg (by simp)] at hid
    split at hid
    · cases hid
    · next hne =>
        -- the process cannot have a second entry to keep it tracked
        have hown := hroot _ _ hid
        rw [hroot _ _ hp] at hown
        cases hown
        exact hne hstop

/-! ## All runs -/

/-- In every run in which every launch finds nothing alive and every stop finds
its process dead, at most one process is alive and every one that is alive is
tracked. The first step that is otherwise leads to a state where this is no
longer so. -/
theorem owned_along_runs (config : Config) (s : Host)
    (h : Run (hostStep config) KeepsOwned .init s) :
    Owned s ∧ ∀ l t, hostStep config s l = some t →
      (Owned t ↔ KeepsOwned s l) := by
  have hI : Owned s ∧ Rooted s := by
    refine h.invariant (I := fun s => Owned s ∧ Rooted s)
      ⟨owned_init, rooted_init⟩ ?_
    intro s t l hI hok hstep
    exact ⟨owned_step hI.1 hok hstep, rooted_step hI.2 hstep⟩
  refine ⟨hI.1, ?_⟩
  intro l t hstep
  exact ⟨keepsOwned_of_owned hI.2 hstep,
    fun hok => owned_step hI.1 hok hstep⟩

/-- One model is loaded, crashes and is stopped, then the other is loaded. -/
def oneAfterTheOther : List HostStep :=
  [.ensureModel "a", .enter 0 false (.started 100), .listen 0, .probe 0 true,
    .confirm 0, .report 0, .exit 0, .wait 0, .stopModel "a" .interrupted,
    .ensureModel "b", .enter 1 false (.started 101)]

theorem owned_along_runs_oneAfterTheOther :
    ∃ s, Run (hostStep twoModels) KeepsOwned .init s ∧
      (s.processes.map (·.alive), s.models.lookup "b") =
        ([false, true], some 1) ∧ Owned s := by
  obtain ⟨s, hrun, hs⟩ := run_of_exec_map (hostStep twoModels) KeepsOwned
    (fun s l => decide (KeepsOwned s l)) .init oneAfterTheOther
    (fun s => (s.processes.map (·.alive), s.models.lookup "b"))
    (b := ([false, true], some 1))
    (fun _ _ hok => of_decide_eq_true hok) (by decide)
  exact ⟨s, hrun, hs, (owned_along_runs twoModels s hrun).1⟩

/-- The second model is asked for while the first is starting, and the first is
stopped: two processes are alive, and one of them is in no entry. -/
theorem two_alive_untracked :
    ∃ s, Run (hostStep twoModels) (fun _ _ => True) .init s ∧
      s.alive 0 = true ∧ s.alive 1 = true ∧ s.models.lookup "a" = none ∧
      s.models.lookup "b" = some 1 ∧ ¬ Owned s := by
  obtain ⟨s, hrun, hs⟩ := run_of_exec_map (hostStep twoModels)
    (fun _ _ => True) (fun _ _ => true) .init
    [.ensureModel "a", .enter 0 false (.started 100), .ensureModel "b",
      .enter 1 false (.started 101), .stopModel "a" .interrupted]
    (fun s => (s.alive 0, s.alive 1, s.models.lookup "a",
      s.models.lookup "b")) (b := (true, true, none, some 1))
    (fun _ _ _ => trivial) (by decide)
  simp only [Prod.mk.injEq] at hs
  obtain ⟨h0, h1, ha, hb⟩ := hs
  refine ⟨s, hrun, h0, h1, ha, hb, ?_⟩
  intro howned
  have := howned.one 0 1 h0 h1
  omega

end DataPlane.Proofs
