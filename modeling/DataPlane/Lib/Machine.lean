import Mathlib.Data.List.Basic
import Mathlib.Data.List.Forall2

/-!
# Machines that answer

A machine takes a call in a state, answers it and moves on:
`step : σ → α → β × σ`. Everything a client learns from a machine is the list
of its answers, so to compare two machines, or two uses of one machine, is to
compare such lists.

There are two rules. `answersTo_eq_filter` is the unwinding rule: if the calls
of a party are answered alike in related states, and the calls of everybody
else keep a state related to one that never saw them, then the party cannot
tell a shared machine from a machine of its own. `answers_forall₂` is the
lockstep rule for two machines that run the same calls.
-/

namespace DataPlane.Lib

variable {σ τ α β γ : Type}

/-- The answers to a list of calls. -/
def answers (step : σ → α → β × σ) (s : σ) : List α → List β
  | [] => []
  | a :: as => (step s a).1 :: answers step (step s a).2 as

/-- The answers to those of the calls that are mine, all of them being made. -/
def answersTo (mine : α → Bool) (step : σ → α → β × σ) (s : σ) :
    List α → List β
  | [] => []
  | a :: as =>
      if mine a then (step s a).1 :: answersTo mine step (step s a).2 as
      else answersTo mine step (step s a).2 as

/-- What is answered to me is what would be answered had the others never
called. -/
theorem answersTo_eq_filter {mine : α → Bool} {step : σ → α → β × σ}
    (R : σ → σ → Prop) (ok : α → Prop)
    (hmine : ∀ {s t : σ} {a : α}, mine a = true → ok a → R s t →
      (step s a).1 = (step t a).1 ∧ R (step s a).2 (step t a).2)
    (hother : ∀ {s t : σ} {a : α}, mine a = false → ok a → R s t →
      R (step s a).2 t) :
    ∀ {as : List α} {s t : σ}, R s t → (∀ a ∈ as, ok a) →
      answersTo mine step s as = answers step t (as.filter mine) := by
  intro as
  induction as with
  | nil => intro s t _ _; rfl
  | cons a as ih =>
      intro s t hR hok
      have hrest : ∀ b ∈ as, ok b := fun b hb => hok b (List.mem_cons_of_mem a hb)
      have ha : ok a := hok a List.mem_cons_self
      cases hm : mine a with
      | true =>
          obtain ⟨heq, hR'⟩ := hmine hm ha hR
          rw [List.filter_cons_of_pos hm]
          simp only [answersTo, answers, hm, if_true]
          rw [heq, ih hR' hrest]
      | false =>
          rw [List.filter_cons_of_neg (by simp [hm])]
          simp only [answersTo, hm, Bool.false_eq_true, if_false]
          exact ih (hother hm ha hR) hrest

/-- Two machines in lockstep: related states give matching answers and stay
related. -/
theorem answers_forall₂ {step₁ : σ → α → β × σ} {step₂ : τ → α → γ × τ}
    (R : σ → τ → Prop) {M : β → γ → Prop} (ok : α → Prop)
    (hstep : ∀ {s : σ} {t : τ} {a : α}, ok a → R s t →
      M (step₁ s a).1 (step₂ t a).1 ∧ R (step₁ s a).2 (step₂ t a).2) :
    ∀ {as : List α} {s : σ} {t : τ}, R s t → (∀ a ∈ as, ok a) →
      List.Forall₂ M (answers step₁ s as) (answers step₂ t as) := by
  intro as
  induction as with
  | nil => intro s t _ _; exact .nil
  | cons a as ih =>
      intro s t hR hok
      obtain ⟨hM, hR'⟩ := hstep (hok a List.mem_cons_self) hR
      exact .cons hM (ih hR' fun b hb => hok b (List.mem_cons_of_mem a hb))

end DataPlane.Lib
