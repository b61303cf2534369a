import Mathlib.Data.Sigma.Basic

/-!
# Durable workflows

A workflow is a program whose only effects are activities. The engine that runs
it keeps a record of what has come of each activity, and nothing else: whoever
takes the workflow up runs the program again from the start, answers the
activities from the record, and has the program where it was left.

The state of a workflow is therefore a record, and `replay` is its meaning: the
rest of the program, or nothing if the record is of another program.
`replay_execute` says how a record grows, the inversions `replay_done_inv` and
`replay_execute_inv` what a record that exists looks like.
-/

namespace DataPlane.Lib

/-- A program over activities `A`, of which each has its own results. -/
inductive Workflow (A : Type) (R : A → Type) (O : Type)
  | done (output : O)
  | execute (activity : A) (get : R activity → Workflow A R O)

namespace Workflow

variable {A O : Type} {R : A → Type} [DecidableEq A]

/-- What is left of a workflow after a record. -/
def replay : Workflow A R O → List (Sigma R) → Option (Workflow A R O)
  | w, [] => some w
  | .done _, _ :: _ => none
  | .execute a get, ⟨b, r⟩ :: rest =>
      if h : b = a then replay (get (h ▸ r)) rest else none

variable {w v : Workflow A R O} {a : A}

@[simp] theorem replay_nil (w : Workflow A R O) : w.replay [] = some w := by
  cases w <;> rfl

@[simp] theorem replay_execute_cons (get : R a → Workflow A R O) (r : R a)
    (rest : List (Sigma R)) :
    (execute a get).replay (⟨a, r⟩ :: rest) = (get r).replay rest := by
  rw [replay, dif_pos rfl]

/-- A record of a program that has returned is empty. -/
theorem replay_done_inv {output : O} {h : List (Sigma R)}
    (hw : (done output).replay h = some v) : h = [] ∧ v = done output := by
  cases h with
  | nil => cases hw; exact ⟨rfl, rfl⟩
  | cons x rest => cases hw

/-- A record of a program at an activity is empty or has its result first. -/
theorem replay_execute_inv {get : R a → Workflow A R O} {h : List (Sigma R)}
    (hw : (execute a get).replay h = some v) :
    (h = [] ∧ v = execute a get) ∨
      ∃ r rest, h = ⟨a, r⟩ :: rest ∧ (get r).replay rest = some v := by
  cases h with
  | nil => cases hw; exact .inl ⟨rfl, rfl⟩
  | cons x rest =>
      obtain ⟨b, r⟩ := x
      rw [replay] at hw
      split at hw
      · next heq =>
          subst heq
          exact .inr ⟨r, rest, rfl, hw⟩
      · cases hw

/-- A record is replayed piece by piece. -/
theorem replay_append : ∀ {w : Workflow A R O} {h h' : List (Sigma R)},
    w.replay (h ++ h') = (w.replay h).bind (·.replay h') := by
  intro w h
  induction h generalizing w with
  | nil => intro h'; simp
  | cons x h ih =>
      intro h'
      obtain ⟨b, r⟩ := x
      cases w with
      | done output => rfl
      | execute a get =>
          rw [List.cons_append, replay, replay]
          split
          · exact ih
          · rfl

/-- Whoever has come to an activity goes on with its result. -/
theorem replay_execute {h : List (Sigma R)} {get : R a → Workflow A R O}
    (hw : w.replay h = some (.execute a get)) (r : R a) :
    w.replay (h ++ [⟨a, r⟩]) = some (get r) := by
  rw [replay_append, hw, Option.bind_some, replay_execute_cons, replay_nil]

end Workflow

end DataPlane.Lib
