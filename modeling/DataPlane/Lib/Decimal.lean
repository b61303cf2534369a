import Mathlib.Algebra.Group.Nat.Defs

/-!
# Unsigned numbers in decimal

Reading and splitting as the usual library functions do it: a number is digits
with an optional plus sign and has to fit its width, a text is cut at the first
occurrence of a separator. What is written is read back.
-/

namespace DataPlane.Lib

/-- Cut a text at the first occurrence of a character. -/
def splitOnce (sep : Char) : List Char → Option (List Char × List Char)
  | [] => none
  | c :: rest =>
      if c = sep then some ([], rest)
      else (splitOnce sep rest).map fun (before, after) => (c :: before, after)

theorem splitOnce_append {sep : Char} {l : List Char} (r : List Char)
    (h : sep ∉ l) : splitOnce sep (l ++ sep :: r) = some (l, r) := by
  induction l with
  | nil => simp [splitOnce]
  | cons c l ih =>
      rw [List.mem_cons, not_or] at h
      simp [splitOnce, Ne.symm h.1, ih h.2]

/-- Read an unsigned number of the given width. -/
def parseUnsigned (width : Nat) (text : List Char) : Option Nat :=
  let digits :=
    match text with
    | '+' :: rest => rest
    | _ => text
  if digits ≠ [] ∧ digits.all Char.isDigit then
    let n := Nat.ofDigitChars 10 digits 0
    if n < 2 ^ width then some n else none
  else none

theorem isDigit_of_mem {n : Nat} {c : Char} (h : c ∈ Nat.toDigits 10 n) :
    c.isDigit = true :=
  Nat.isDigit_of_mem_toDigits (by decide) (by decide) h

theorem not_mem_toDigits {n : Nat} {c : Char} (h : c.isDigit = false) :
    c ∉ Nat.toDigits 10 n := by
  intro hmem
  rw [isDigit_of_mem hmem] at h
  cases h

theorem parseUnsigned_toDigits {width n : Nat} (h : n < 2 ^ width) :
    parseUnsigned width (Nat.toDigits 10 n) = some n := by
  have hplus : ∀ rest, Nat.toDigits 10 n ≠ '+' :: rest := by
    intro rest heq
    exact not_mem_toDigits (show '+'.isDigit = false by decide)
      (heq ▸ List.mem_cons_self)
  have hdigits : (Nat.toDigits 10 n).all Char.isDigit = true :=
    List.all_eq_true.mpr fun c hc => isDigit_of_mem hc
  have hread : ∀ text, text = Nat.toDigits 10 n →
      parseUnsigned width text = some n := by
    intro text htext
    unfold parseUnsigned
    split
    · next rest => exact absurd htext.symm (hplus rest)
    · simp [htext, hdigits, Nat.toDigits_ne_nil, Nat.ofDigitChars_ten_toDigits, h]
  exact hread _ rfl

end DataPlane.Lib
