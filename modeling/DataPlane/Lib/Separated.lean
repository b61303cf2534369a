import Mathlib.Data.List.Basic

/-!
# Fields that are joined by a separator

A list of fields is written as one text, with a separator between any two of
them. Nothing keeps the separator out of the fields themselves, so the text
does not tell where a field ends: it tells the pieces between one separator
and the next, whether the writer put the separator there or the field had it.

`pieces` are what can be read back, and two lists of fields make the same text
exactly if they have the same pieces. What is lost is how many pieces each
field has.
-/

namespace DataPlane.Lib

variable {α : Type} [DecidableEq α] (sep : α)

/-- All pieces of all fields, in order. -/
def pieces (fields : List (List α)) : List (List α) :=
  fields.flatMap (·.splitOn sep)

/-- How many pieces each field has. -/
def pieceCounts (fields : List (List α)) : List Nat :=
  fields.map fun field => (field.splitOn sep).length

variable {sep} {xs ys : List (List α)}

theorem splitOn_inj {field field' : List α} :
    field.splitOn sep = field'.splitOn sep ↔ field = field' := by
  constructor
  · intro h
    have hjoin := congrArg [sep].intercalate h
    rwa [List.intercalate_splitOn, List.intercalate_splitOn] at hjoin
  · intro h
    rw [h]

/-- The pieces can be read back. -/
theorem splitOn_joined (h : xs ≠ []) :
    ([sep].intercalate xs).splitOn sep = pieces sep xs := by
  induction xs with
  | nil => exact absurd rfl h
  | cons field fields ih =>
      cases fields with
      | nil => simp [pieces]
      | cons next fields =>
          rw [List.intercalate_cons_cons, List.append_assoc,
            List.singleton_append, List.splitOn_append_cons_self,
            ih (List.cons_ne_nil _ _)]
          rfl

theorem joined_eq_iff (hx : xs ≠ []) (hy : ys ≠ []) :
    [sep].intercalate xs = [sep].intercalate ys ↔
      pieces sep xs = pieces sep ys := by
  rw [← splitOn_joined hx, ← splitOn_joined hy, splitOn_inj]

/-- The pieces, and how many of them each field has, are all there is. -/
theorem eq_iff_pieces :
    xs = ys ↔ pieces sep xs = pieces sep ys ∧
      pieceCounts sep xs = pieceCounts sep ys := by
  have hmap : xs.map (·.splitOn sep) = ys.map (·.splitOn sep) ↔ xs = ys :=
    List.map_inj_right fun _ _ => splitOn_inj.mp
  rw [← hmap, List.eq_iff_flatten_eq, List.map_map, List.map_map]
  rfl

/-- Fields without the separator are their own pieces. -/
theorem pieces_of_notMem (h : ∀ field ∈ xs, sep ∉ field) :
    pieces sep xs = xs := by
  induction xs with
  | nil => rfl
  | cons field fields ih =>
      have hfield := List.splitOn_eq_singleton (h field List.mem_cons_self)
      have hfields := ih fun f hf => h f (List.mem_cons_of_mem _ hf)
      unfold pieces at hfields ⊢
      rw [List.flatMap_cons, hfield, hfields]
      rfl

end DataPlane.Lib
