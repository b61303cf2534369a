import Mathlib.Data.Option.Basic

/-!
# Runs of a partial step function

A system is a state type, a label type and a step function
`step : σ → α → Option σ`, where `none` means that the label is not enabled.
Interleavings, failures and the passage of time are all labels, so a run is
nothing but a list of labels the step function accepts.

Most results hold only along runs whose steps meet a side condition — no
crash, a lease that outlives its owner — and that condition reads the state
the step starts from. `Run step ok s t` carries it: every step of the run
satisfies `ok` in the state before it. An unconditional run is one with the
trivial condition.

Three rules do all the work. `Run.invariant` is the induction every safety
result is an instance of; `Run.exists_step` finds the step something is due to,
and `exists_label_of_exec` its place in a list of labels; `run_of_exec` turns an
evaluated list of labels into a run, which is how a concrete interleaving is
exhibited.
-/

namespace DataPlane.Lib

variable {σ α : Type}

/-- `t` is reached from `s` by steps that each satisfy `ok` in the state they
start from. -/
inductive Run (step : σ → α → Option σ) (ok : σ → α → Prop) (s : σ) : σ → Prop
  | refl : Run step ok s s
  | tail {t u : σ} {l : α} : Run step ok s t → ok t l → step t l = some u →
      Run step ok s u

variable {step : σ → α → Option σ} {ok ok' : σ → α → Prop} {s t u : σ}

/-- What holds at the start and survives every admissible step holds at the
end of every run. -/
theorem Run.invariant {I : σ → Prop} (h : Run step ok s t) (h0 : I s)
    (hstep : ∀ {t u : σ} {l : α}, I t → ok t l → step t l = some u → I u) :
    I t := by
  induction h with
  | refl => exact h0
  | tail _ hok hl ih => exact hstep ih hok hl

/-- A run under a stronger side condition is a run under a weaker one. -/
theorem Run.mono (h : Run step ok s t) (himp : ∀ s l, ok s l → ok' s l) :
    Run step ok' s t := by
  induction h with
  | refl => exact .refl
  | tail _ hok hl ih => exact .tail ih (himp _ _ hok) hl

theorem Run.trans (h : Run step ok s t) (h' : Run step ok t u) :
    Run step ok s u := by
  induction h' with
  | refl => exact h
  | tail _ hok hl ih => exact .tail ih hok hl

theorem Run.single {l : α} (hok : ok s l) (hl : step s l = some t) :
    Run step ok s t := .tail .refl hok hl

/-- What does not hold at the start and holds at the end was brought about by
some step. -/
theorem Run.exists_step {P : σ → Prop} (h : Run step ok s t) (hs : ¬ P s)
    (ht : P t) :
    ∃ u v l, Run step ok s u ∧ ok u l ∧ step u l = some v ∧ Run step ok v t ∧
      ¬ P u ∧ P v := by
  induction h with
  | refl => exact absurd ht hs
  | @tail t u l h hok hl ih =>
      by_cases hP : P t
      · obtain ⟨v, w, l', hv, hok', hstep, hw, hnot, hholds⟩ := ih hP
        exact ⟨v, w, l', hv, hok', hstep, .tail hw hok hl, hnot, hholds⟩
      · exact ⟨t, u, l, h, hok, hl, .refl, hP, ht⟩

/-- Follow a list of labels, testing the side condition before every step. -/
def exec (step : σ → α → Option σ) (test : σ → α → Bool) (s : σ) :
    List α → Option σ
  | [] => some s
  | l :: ls =>
      if test s l then
        match step s l with
        | none => none
        | some t => exec step test t ls
      else none

/-- A list of labels that was followed to the end is a run. -/
theorem run_of_exec {test : σ → α → Bool}
    (htest : ∀ s l, test s l = true → ok s l) :
    ∀ {ls : List α} {s t : σ}, exec step test s ls = some t →
      Run step ok s t := by
  intro ls
  induction ls with
  | nil =>
      intro s t h
      injection h with h
      subst h
      exact .refl
  | cons l ls ih =>
      intro s t h
      simp only [exec] at h
      split at h
      · next hok =>
          split at h
          · cases h
          · next u hl => exact (Run.single (htest _ _ hok) hl).trans (ih h)
      · cases h

/-- What is not so at first and is so in the end was brought about by one of the
labels that were followed. -/
theorem exists_label_of_exec {P : σ → Prop} {test : σ → α → Bool}
    {ls : List α} {s t : σ} (h : exec step test s ls = some t) (hs : ¬ P s)
    (ht : P t) :
    ∃ pre l post u v, ls = pre ++ l :: post ∧
      exec step test s pre = some u ∧ step u l = some v ∧
      exec step test v post = some t ∧ ¬ P u ∧ P v := by
  induction ls generalizing s with
  | nil =>
      cases h
      exact absurd ht hs
  | cons l ls ih =>
      simp only [exec] at h
      split at h
      · next htest =>
          split at h
          · cases h
          · next u hl =>
              by_cases hP : P u
              · exact ⟨[], l, ls, s, u, rfl, rfl, hl, h, hs, hP⟩
              · obtain ⟨pre, l', post, v, w, rfl, hpre, hstep, hpost, hnot, hnow⟩ :=
                  ih h hP
                refine ⟨l :: pre, l', post, v, w, rfl, ?_, hstep, hpost, hnot, hnow⟩
                simp only [exec, htest, hl, if_true, hpre]
      · cases h

/-- The form in which a concrete run is exhibited: some observation of the
state it ends in was computed. -/
theorem run_of_exec_map {β : Type} (step : σ → α → Option σ)
    (ok : σ → α → Prop) (test : σ → α → Bool) (s : σ) (ls : List α)
    (f : σ → β) {b : β} (htest : ∀ s l, test s l = true → ok s l)
    (h : (exec step test s ls).map f = some b) :
    ∃ t, Run step ok s t ∧ f t = b := by
  obtain ⟨t, ht, hf⟩ := Option.map_eq_some_iff.mp h
  exact ⟨t, run_of_exec htest ht, hf⟩

/-- The same for a run and the step after it. -/
theorem run_step_of_exec_map {β : Type} (step : σ → α → Option σ)
    (ok : σ → α → Prop) (test : σ → α → Bool) (s : σ) (ls : List α) (l : α)
    (f : σ → σ → β) {b : β} (htest : ∀ s l, test s l = true → ok s l)
    (h : ((exec step test s ls).bind fun t => (step t l).map (f t)) = some b) :
    ∃ t u, Run step ok s t ∧ step t l = some u ∧ f t u = b := by
  obtain ⟨t, ht, hstep⟩ := Option.bind_eq_some_iff.mp h
  obtain ⟨u, hu, hf⟩ := Option.map_eq_some_iff.mp hstep
  exact ⟨t, u, run_of_exec htest ht, hu, hf⟩

end DataPlane.Lib
