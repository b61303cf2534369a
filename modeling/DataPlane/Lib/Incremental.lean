import Mathlib.Data.List.Basic

/-!
# Items out of a buffer that is still filling

A reader takes whole items off the front of a buffer for as long as there are
any and keeps the rest. What an item looks like is up to `next`; it has to make
the buffer shorter, and it must not change its mind when more arrives behind
the item it has found.

`split_append` is what the reader owes to these two: what it takes out of a
whole is what it takes out of a first part, and then out of what is left of that
together with the second.
-/

namespace DataPlane.Lib

/-- How the first item is taken off a buffer, if it is all there. -/
structure Splitter (α β : Type) where
  next : List α → Option (β × List α)
  shrinks : ∀ {buffer x rest}, next buffer = some (x, rest) →
    rest.length < buffer.length
  stable : ∀ {buffer x rest} (more : List α), next buffer = some (x, rest) →
    next (buffer ++ more) = some (x, rest ++ more)

namespace Splitter

variable {α β : Type} (sp : Splitter α β)

/-- At most that many items, and what is left. -/
def splitUpTo : Nat → List α → List β × List α
  | 0, buffer => ([], buffer)
  | n + 1, buffer =>
      match sp.next buffer with
      | none => ([], buffer)
      | some (x, rest) => (x :: (splitUpTo n rest).1, (splitUpTo n rest).2)

/-- All the items of a buffer, and what is left. Every item shortens the
buffer, so there are no more of them than elements. -/
def split (buffer : List α) : List β × List α :=
  sp.splitUpTo buffer.length buffer

variable {sp}

/-- Once there is one for every element, more is not needed. -/
theorem splitUpTo_enough {n : Nat} {buffer : List α} (h : buffer.length ≤ n) :
    sp.splitUpTo n buffer = sp.split buffer := by
  have hstep : ∀ (m : Nat) (buffer : List α), buffer.length ≤ m →
      sp.splitUpTo (m + 1) buffer = sp.splitUpTo m buffer := by
    intro m
    induction m with
    | zero =>
        intro buffer hm
        rw [splitUpTo.eq_2]
        split
        · rfl
        · next hnext =>
            have hrest := sp.shrinks hnext
            omega
    | succ m ih =>
        intro buffer hm
        rw [splitUpTo.eq_2, splitUpTo.eq_2]
        split
        · rfl
        · next x rest hnext =>
            have hrest := sp.shrinks hnext
            rw [ih rest (by omega)]
  induction n with
  | zero =>
      have hnil : buffer.length = 0 := by omega
      rw [split, hnil]
  | succ n ih =>
      rcases Nat.lt_or_ge n buffer.length with hlt | hle
      · have heq : buffer.length = n + 1 := by omega
        rw [split, heq]
      · rw [hstep n buffer hle, ih hle]

theorem split_of_none {buffer : List α} (h : sp.next buffer = none) :
    sp.split buffer = ([], buffer) := by
  rw [split]
  cases buffer.length with
  | zero => rfl
  | succ n => rw [splitUpTo, h]

theorem split_of_some {buffer rest : List α} {x : β}
    (h : sp.next buffer = some (x, rest)) :
    sp.split buffer = (x :: (sp.split rest).1, (sp.split rest).2) := by
  have hlt := sp.shrinks h
  rw [split]
  cases hlen : buffer.length with
  | zero => omega
  | succ n =>
      have hrest : sp.splitUpTo n rest = sp.split rest :=
        splitUpTo_enough (by omega)
      simp only [splitUpTo, h, hrest]

/-- A whole is read as its first part, and then as the rest of it followed by
the second. -/
theorem split_append (xs ys : List α) :
    sp.split (xs ++ ys) =
      ((sp.split xs).1 ++ (sp.split ((sp.split xs).2 ++ ys)).1,
        (sp.split ((sp.split xs).2 ++ ys)).2) := by
  induction hn : xs.length using Nat.strongRecOn generalizing xs with
  | ind n ih =>
      subst hn
      cases hnext : sp.next xs with
      | none =>
          rw [split_of_none hnext]
          rfl
      | some found =>
          obtain ⟨x, rest⟩ := found
          rw [split_of_some hnext, split_of_some (sp.stable ys hnext),
            ih rest.length (sp.shrinks hnext) rest rfl]
          rfl

/-- Items written one after the other are read back one after the other, before
whatever follows them. -/
theorem split_flatten {γ : Type} (write : γ → List α) (read : γ → β)
    {items : List γ} (rest : List α)
    (h : ∀ item ∈ items, ∀ more,
      sp.next (write item ++ more) = some (read item, more)) :
    sp.split ((items.map write).flatten ++ rest) =
      (items.map read ++ (sp.split rest).1, (sp.split rest).2) := by
  induction items with
  | nil => rfl
  | cons item items ih =>
      have hitem := h item List.mem_cons_self
        ((items.map write).flatten ++ rest)
      have ih' := ih fun x hx => h x (List.mem_cons_of_mem item hx)
      rw [List.map_cons, List.flatten_cons, List.append_assoc,
        split_of_some hitem, ih']
      rfl

end Splitter

/-- Whatever a sequence of non-empty pieces is cut off to, it is some whole
pieces and a proper part of the next. -/
theorem prefix_flatten {α : Type} {pieces : List (List α)} {part : List α}
    (h : part <+: pieces.flatten) :
    ∃ k ≤ pieces.length, ∃ rest, part = (pieces.take k).flatten ++ rest ∧
      ((k = pieces.length ∧ rest = []) ∨
        ∃ piece, pieces[k]? = some piece ∧ rest <+: piece ∧
          rest.length < piece.length) := by
  induction pieces generalizing part with
  | nil => exact ⟨0, Nat.le_refl 0, [], List.prefix_nil.mp h, .inl ⟨rfl, rfl⟩⟩
  | cons piece pieces ih =>
      rw [List.flatten_cons] at h
      rcases Nat.lt_or_ge part.length piece.length with hlt | hge
      · -- Not even the first piece is complete.
        refine ⟨0, Nat.zero_le _, part, rfl, .inr ⟨piece, rfl, ?_, hlt⟩⟩
        exact List.prefix_of_prefix_length_le h (List.prefix_append _ _)
          (Nat.le_of_lt hlt)
      · obtain ⟨part', rfl⟩ : piece <+: part :=
          List.prefix_of_prefix_length_le (List.prefix_append _ _) h hge
        obtain ⟨k, hk, rest, rfl, hrest⟩ :=
          ih ((List.prefix_append_right_inj piece).mp h)
        refine ⟨k + 1, Nat.succ_le_succ hk, rest, ?_, ?_⟩
        · rw [List.take_succ_cons, List.flatten_cons, List.append_assoc]
        · rcases hrest with ⟨rfl, rfl⟩ | hpiece
          · exact .inl ⟨rfl, rfl⟩
          · exact .inr hpiece

end DataPlane.Lib
