import DataPlane.Lib.Run

/-!
# Emissions

A producer is a loop that others pace. Each input takes it one step further:
`next : σ → ι → Option (σ × Option (Output ω ρ))`, where a step may put out an
item, return, or do neither, and `none` means that the loop does not take this
input where it is. An emission is such a loop under way, with all it has put
out; once it has returned it takes no further input.

What holds of every emission is shown by `Run.invariant`; `step_spec` says what
one step is.
-/

namespace DataPlane.Lib

variable {σ ι ω ρ : Type}

inductive Output (ω ρ : Type)
  | item (w : ω)
  | done (r : ρ)
  deriving DecidableEq, Repr

/-- A loop under way, what it has put out, and what it has returned. -/
structure Emission (σ ω ρ : Type) where
  state : σ
  told : List ω
  result : Option ρ
  deriving DecidableEq, Repr

namespace Emission

/-- Nothing has been put out yet. -/
def start (s : σ) : Emission σ ω ρ := ⟨s, [], none⟩

/-- The emission when its loop has got to `s`, with this output. -/
def move (c : Emission σ ω ρ) (s : σ) : Option (Output ω ρ) → Emission σ ω ρ
  | none => ⟨s, c.told, c.result⟩
  | some (.item w) => ⟨s, c.told ++ [w], c.result⟩
  | some (.done r) => ⟨s, c.told, some r⟩

/-- The loop takes an input, unless it has returned. -/
def advance (next : σ → ι → Option (σ × Option (Output ω ρ)))
    (c : Emission σ ω ρ) (i : ι) :
    Option (Emission σ ω ρ × Option (Output ω ρ)) :=
  match c.result with
  | some _ => none
  | none =>
      match next c.state i with
      | none => none
      | some (s, output) => some (c.move s output, output)

/-- A step whose output nobody looks at. -/
def step (next : σ → ι → Option (σ × Option (Output ω ρ)))
    (c : Emission σ ω ρ) (i : ι) : Option (Emission σ ω ρ) :=
  (c.advance next i).map (·.1)

variable {next : σ → ι → Option (σ × Option (Output ω ρ))}
  {c c' : Emission σ ω ρ} {i : ι} {output : Option (Output ω ρ)}

theorem advance_spec (h : c.advance next i = some (c', output)) :
    c.result = none ∧
      ∃ s, next c.state i = some (s, output) ∧ c' = c.move s output := by
  unfold advance at h
  split at h
  · cases h
  · next hresult =>
      split at h
      · cases h
      · next s _ hnext =>
          cases h
          exact ⟨hresult, s, hnext, rfl⟩

theorem step_of_advance (h : c.advance next i = some (c', output)) :
    c.step next i = some c' := by
  rw [step, h]
  rfl

theorem step_spec (h : c.step next i = some c') :
    c.result = none ∧
      ∃ s output, next c.state i = some (s, output) ∧ c' = c.move s output := by
  obtain ⟨⟨c'', output⟩, hadvance, rfl⟩ := Option.map_eq_some_iff.mp h
  obtain ⟨hresult, s, hnext, rfl⟩ := advance_spec hadvance
  exact ⟨hresult, s, output, hnext, rfl⟩

/-- What has been told stays told. -/
theorem told_move (c : Emission σ ω ρ) (s : σ)
    (output : Option (Output ω ρ)) : c.told <+: (c.move s output).told := by
  match output with
  | none | some (.done _) => exact List.prefix_rfl
  | some (.item w) => exact List.prefix_append _ _

end Emission

end DataPlane.Lib
