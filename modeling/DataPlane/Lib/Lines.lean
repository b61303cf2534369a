import DataPlane.Lib.Decimal
import Mathlib.Algebra.Ring.Nat
import Mathlib.Data.List.Basic

/-!
# Lines of a text that is still arriving

A reader that collects text in a buffer, takes complete lines out of it and
keeps the rest. `splitLines` is one pass over the buffer: the lines that have
been terminated, and what follows the last terminator. The element that
terminates a line is a parameter.

The lemmas are about a text that arrives in two parts. Reading the second part
after what was left of the first gives the remaining lines of the whole; and
how many elements of the whole text have been taken out as lines, which is
`covered`, is easily counted.
-/

namespace DataPlane.Lib

variable {α : Type} [DecidableEq α] (sep : α)

/-- The terminated lines of a text, and the rest. -/
def splitLines : List α → List (List α) × List α
  | [] => ([], [])
  | c :: cs =>
      if c = sep then ([] :: (splitLines cs).1, (splitLines cs).2)
      else
        match splitLines cs with
        | ([], rest) => ([], c :: rest)
        | (line :: lines, rest) => ((c :: line) :: lines, rest)

/-- The terminated lines of a text. -/
def linesOf (cs : List α) : List (List α) := (splitLines sep cs).1

/-- What follows the last of them. -/
def restOf (cs : List α) : List α := (splitLines sep cs).2

/-- The lines of a whole, from those of its parts. -/
def joinLines (xs : List (List α)) (rest : List α) :
    List (List α) → List (List α)
  | [] => xs
  | line :: lines => xs ++ (rest ++ line) :: lines

theorem splitLines_append (xs ys : List α) :
    linesOf sep (xs ++ ys) =
        joinLines (linesOf sep xs) (restOf sep xs) (linesOf sep ys) ∧
      restOf sep (xs ++ ys) =
        if linesOf sep ys = [] then restOf sep xs ++ restOf sep ys
        else restOf sep ys := by
  unfold linesOf restOf
  induction xs with
  | nil => cases hys : (splitLines sep ys).1 <;> simp [splitLines, joinLines, hys]
  | cons x xs ih =>
      simp only [List.cons_append, splitLines]
      obtain ⟨hlines, hrest⟩ := ih
      rcases hx : splitLines sep xs with ⟨lines, rest⟩
      rcases hxy : splitLines sep (xs ++ ys) with ⟨lines', rest'⟩
      simp only [hx, hxy] at hlines hrest
      by_cases hsep : x = sep
      · simp only [hsep, if_true]
        refine ⟨?_, hrest⟩
        rw [hlines]
        cases (splitLines sep ys).1 <;> rfl
      · simp only [hsep, if_false]
        -- Whether either part has a line of its own decides which line the
        -- new element belongs to.
        cases lines <;> cases hys : (splitLines sep ys).1 <;>
          rw [hys] at hlines hrest <;>
          simp only [joinLines, List.nil_append, List.cons_append] at hlines <;>
          subst hlines <;> simpa [joinLines] using hrest

theorem linesOf_append (xs ys : List α) :
    linesOf sep (xs ++ ys) =
      joinLines (linesOf sep xs) (restOf sep xs) (linesOf sep ys) :=
  (splitLines_append sep xs ys).1

theorem linesOf_eq_nil {cs : List α} : linesOf sep cs = [] ↔ sep ∉ cs := by
  induction cs with
  | nil => simp [linesOf, splitLines]
  | cons c cs ih =>
      unfold linesOf at ih ⊢
      simp only [splitLines]
      by_cases hsep : c = sep
      · simp [hsep]
      · rcases hcs : splitLines sep cs with ⟨lines, rest⟩
        rw [hcs] at ih
        simp only [hsep, if_false, List.mem_cons, not_or]
        cases lines with
        | nil => simpa [Ne.symm hsep] using ih
        | cons line lines => simpa [Ne.symm hsep] using ih

/-- A part without a terminator completes no line. -/
theorem linesOf_append_of_notMem (xs : List α) {ys : List α} (h : sep ∉ ys) :
    linesOf sep (xs ++ ys) = linesOf sep xs := by
  rw [linesOf_append, (linesOf_eq_nil sep).mpr h]
  rfl

theorem sep_notMem_restOf (cs : List α) : sep ∉ restOf sep cs := by
  induction cs with
  | nil => simp [restOf, splitLines]
  | cons c cs ih =>
      unfold restOf at ih ⊢
      simp only [splitLines]
      by_cases hsep : c = sep
      · simpa [hsep] using ih
      · rcases hcs : splitLines sep cs with ⟨lines, rest⟩
        rw [hcs] at ih
        cases lines with
        | nil => simpa [hsep, Ne.symm hsep] using ih
        | cons line lines => simpa [hsep] using ih

/-- A text without a terminator is all rest. -/
theorem restOf_of_notMem {cs : List α} (h : sep ∉ cs) : restOf sep cs = cs := by
  induction cs with
  | nil => rfl
  | cons c cs ih =>
      rw [List.mem_cons, not_or] at h
      have hnil := (linesOf_eq_nil sep).mpr h.2
      have hrest := ih h.2
      unfold linesOf at hnil
      unfold restOf at hrest ⊢
      rcases hcs : splitLines sep cs with ⟨lines, rest⟩
      rw [hcs] at hnil hrest
      dsimp only at hnil hrest
      subst hnil hrest
      simp [splitLines, Ne.symm h.1, hcs]

/-- A rest is a text without lines. -/
theorem splitLines_restOf (cs : List α) :
    linesOf sep (restOf sep cs) = [] ∧
      restOf sep (restOf sep cs) = restOf sep cs :=
  ⟨(linesOf_eq_nil sep).mpr (sep_notMem_restOf sep cs),
    restOf_of_notMem sep (sep_notMem_restOf sep cs)⟩

/-- Going on from what was left: the lines of the whole are those taken before
and those taken now, and the same is left at the end. -/
theorem splitLines_resume (xs ys : List α) :
    linesOf sep xs ++ linesOf sep (restOf sep xs ++ ys) =
        linesOf sep (xs ++ ys) ∧
      restOf sep (restOf sep xs ++ ys) = restOf sep (xs ++ ys) := by
  obtain ⟨hnil, hself⟩ := splitLines_restOf sep xs
  obtain ⟨h1, h2⟩ := splitLines_append sep xs ys
  obtain ⟨h3, h4⟩ := splitLines_append sep (restOf sep xs) ys
  rw [hnil, hself] at h3
  rw [hself] at h4
  refine ⟨?_, by rw [h2, h4]⟩
  rw [h1, h3]
  cases linesOf sep ys <;> simp [joinLines]

/-- A line at a time: what is cut off at the first terminator is the first
line, and what follows has the others. -/
theorem splitLines_of_splitOnce {sep : Char} {cs line rest : List Char}
    (h : splitOnce sep cs = some (line, rest)) :
    linesOf sep cs = line :: linesOf sep rest ∧
      restOf sep cs = restOf sep rest := by
  induction cs generalizing line with
  | nil => cases h
  | cons c cs ih =>
      simp only [splitOnce] at h
      unfold linesOf restOf at ih ⊢
      simp only [splitLines]
      by_cases hsep : c = sep
      · rw [if_pos hsep] at h ⊢
        cases h
        exact ⟨rfl, rfl⟩
      · rw [if_neg hsep] at h ⊢
        obtain ⟨⟨before, after⟩, hcut, heq⟩ := Option.map_eq_some_iff.mp h
        cases heq
        obtain ⟨hlines, hrest⟩ := ih hcut
        rcases hcs : splitLines sep cs with ⟨lines, left⟩
        rw [hcs] at hlines hrest
        dsimp only at hlines hrest
        subst hlines
        exact ⟨rfl, hrest⟩

theorem notMem_of_splitOnce {sep : Char} {cs : List Char}
    (h : splitOnce sep cs = none) : sep ∉ cs := by
  induction cs with
  | nil => exact List.not_mem_nil
  | cons c cs ih =>
      simp only [splitOnce] at h
      split at h
      · cases h
      · next hsep =>
          rw [List.mem_cons, not_or]
          exact ⟨Ne.symm hsep, ih (Option.map_eq_none_iff.mp h)⟩

/-- The first line, and those behind it. -/
theorem splitLines_cons {xs : List α} (h : sep ∉ xs) (ys : List α) :
    linesOf sep (xs ++ sep :: ys) = xs :: linesOf sep ys ∧
      restOf sep (xs ++ sep :: ys) = restOf sep ys := by
  obtain ⟨hlines, hrest⟩ := splitLines_append sep xs (sep :: ys)
  have hhead : linesOf sep (sep :: ys) = [] :: linesOf sep ys ∧
      restOf sep (sep :: ys) = restOf sep ys := by
    simp [linesOf, restOf, splitLines]
  rw [hhead.1, (linesOf_eq_nil sep).mpr h, restOf_of_notMem sep h] at hlines
  rw [hhead.1, hhead.2] at hrest
  exact ⟨by simpa [joinLines] using hlines, by simpa using hrest⟩

/-! ## Lines in pieces

A text that arrives in parts, and is written out part by part. If writing keeps
the lines of a part, a line of what is written is made of the pieces in which
the line arrived. -/

/-- The lines so far, and the pieces of what is left. -/
def addPart (s : List (List (List α)) × List (List α)) (part : List α) :
    List (List (List α)) × List (List α) :=
  match linesOf sep part with
  | [] => (s.1, s.2 ++ [part])
  | line :: lines =>
      (s.1 ++ (s.2 ++ [line]) :: lines.map ([·]), [restOf sep part])

/-- The lines of a text, each in the pieces in which it arrives. -/
def linesInPieces (parts : List (List α)) : List (List (List α)) :=
  (parts.foldl (addPart sep) ([], [])).1

theorem linesOf_flatMap {β : Type} [DecidableEq β] {sep : α} {sep' : β}
    {write : List α → List β}
    (hlines : ∀ part, linesOf sep' (write part) = (linesOf sep part).map write)
    (hrest : ∀ part, restOf sep' (write part) = write (restOf sep part))
    (parts : List (List α)) :
    linesOf sep' (parts.flatMap write) =
      (linesInPieces sep parts).map (·.flatMap write) := by
  have hfold : ∀ (parts : List (List α)) (text : List β)
      (s : List (List (List α)) × List (List α)),
      linesOf sep' text = s.1.map (·.flatMap write) →
      restOf sep' text = s.2.flatMap write →
      linesOf sep' (text ++ parts.flatMap write) =
        (parts.foldl (addPart sep) s).1.map (·.flatMap write) := by
    intro parts
    induction parts with
    | nil =>
        intro text s hs _
        simpa using hs
    | cons part parts ih =>
        intro text s hs hleft
        rw [List.flatMap_cons, ← List.append_assoc, List.foldl_cons]
        obtain ⟨happend, hrest'⟩ := splitLines_append sep' text (write part)
        rw [hlines] at happend hrest'
        refine ih _ _ ?_ ?_
        · rw [happend, hs, hleft, addPart]
          cases linesOf sep part with
          | nil => rfl
          | cons line lines => simp [joinLines, Function.comp_def]
        · rw [hrest', hleft, hrest, addPart]
          cases hpart : linesOf sep part with
          | nil =>
              rw [restOf_of_notMem sep ((linesOf_eq_nil sep).mp hpart)]
              simp
          | cons line lines => simp
  exact hfold parts [] ([], []) rfl rfl

end DataPlane.Lib
