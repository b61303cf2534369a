import Mathlib.Data.List.Infix

/-!
# A list through its first end

`through p` is what a reader has seen who stops at the first element that
satisfies `p`: the list up to that element, the element included, or all of it
if there is none.

Two readers of one list that is still growing have seen prefixes of it. What
each has seen through the end is a prefix of what there is to see, and all of
it once the end is among it.
-/

namespace DataPlane.Lib

variable {α β : Type} {p : α → Bool} {l l' : List α}

/-- The list up to the first element with the property, and with it. -/
def through (p : α → Bool) : List α → List α
  | [] => []
  | x :: rest => if p x then [x] else x :: through p rest

theorem through_cons_end {x : α} (h : p x = true) :
    through p (x :: l) = [x] := by rw [through, if_pos h]

theorem through_cons {x : α} (h : p x = false) :
    through p (x :: l) = x :: through p l := by
  rw [through, if_neg (by rw [h]; decide)]

theorem through_append (h : ∀ x ∈ l, p x = false) :
    through p (l ++ l') = l ++ through p l' := by
  induction l with
  | nil => rfl
  | cons x l ih =>
      rw [List.cons_append, through_cons (h x List.mem_cons_self),
        ih fun y hy => h y (List.mem_cons_of_mem x hy), List.cons_append]

theorem through_isPrefix : through p l <+: l := by
  induction l with
  | nil => exact List.prefix_rfl
  | cons x l ih =>
      cases h : p x with
      | true =>
          rw [through_cons_end h]
          exact ⟨l, rfl⟩
      | false =>
          rw [through_cons h]
          exact List.cons_prefix_cons.mpr ⟨rfl, ih⟩

theorem through_mono (h : l <+: l') : through p l <+: through p l' := by
  induction l generalizing l' with
  | nil => exact List.nil_prefix
  | cons x l ih =>
      obtain ⟨more, rfl⟩ := h
      rw [List.cons_append]
      cases hx : p x with
      | true => rw [through_cons_end hx, through_cons_end hx]
      | false =>
          rw [through_cons hx, through_cons hx]
          exact List.cons_prefix_cons.mpr ⟨rfl, ih (List.prefix_append l more)⟩

/-- Behind an element that is not the end, it is the rest through its end. -/
theorem through_split {u v : List α} {x : α}
    (h : through p l = u ++ x :: v) (hx : p x = false) :
    ∃ rest, l = u ++ x :: rest ∧ through p rest = v := by
  induction u generalizing l with
  | nil =>
      cases l with
      | nil => cases h
      | cons y l =>
          cases hy : p y with
          | true =>
              rw [through_cons_end hy] at h
              cases h
              exact absurd (hy.symm.trans hx) (by decide)
          | false =>
              rw [through_cons hy] at h
              cases h
              exact ⟨l, rfl, rfl⟩
  | cons y u ih =>
      cases l with
      | nil => cases h
      | cons z l =>
          cases hz : p z with
          | true =>
              rw [through_cons_end hz] at h
              injection h with _ h
              exact absurd h.symm (by simp)
          | false =>
              rw [through_cons hz] at h
              injection h with hzy h
              obtain ⟨rest, rfl, hrest⟩ := ih h
              exact ⟨rest, by rw [hzy]; rfl, hrest⟩

/-- Nothing comes after the end. -/
theorem through_end {u v : List α} (h : through p l = u ++ v)
    (hend : ∃ x ∈ u, p x = true) : v = [] := by
  obtain ⟨x, hx, hp⟩ := hend
  induction l generalizing u with
  | nil => exact (List.append_eq_nil_iff.mp h.symm).2
  | cons y l ih =>
      cases u with
      | nil => cases hx
      | cons z u =>
          cases hy : p y with
          | true =>
              rw [through_cons_end hy] at h
              injection h with _ h
              exact (List.append_eq_nil_iff.mp h.symm).2
          | false =>
              rw [through_cons hy] at h
              injection h with hyz h
              refine ih h ?_
              rcases List.mem_cons.mp hx with rfl | hx
              · rw [← hyz, hy] at hp
                cases hp
              · exact hx

/-- What a reader keeps of a list through its end, cut after something that was
kept: the list can be cut there too. -/
theorem cut_filterMap {f : α → Option β} {got : List β} {y : β}
    (h : got ++ [y] <+: (through p l).filterMap f)
    (hend : ∀ x, f x = some y → p x = false) :
    ∃ u x rest, l = u ++ x :: rest ∧ f x = some y ∧
      (u ++ [x]).filterMap f = got ++ [y] ∧
      (through p l).filterMap f =
        got ++ [y] ++ (through p rest).filterMap f := by
  obtain ⟨more, hmore⟩ := h
  rw [List.append_assoc, List.singleton_append] at hmore
  obtain ⟨l₁, l₂, hl, hgot, hbehind⟩ :=
    List.filterMap_eq_append_iff.mp hmore.symm
  obtain ⟨l₃, x, l₄, rfl, hskip, hx, hrest⟩ :=
    List.filterMap_eq_cons_iff.mp hbehind
  rw [← List.append_assoc] at hl
  obtain ⟨rest, hl', rfl⟩ := through_split hl (hend x hx)
  have hnone : l₃.filterMap f = [] := List.filterMap_eq_nil_iff.mpr hskip
  refine ⟨l₁ ++ l₃, x, rest, hl', hx, ?_, ?_⟩
  · simp [hgot, hnone, hx]
  · rw [hl]
    simp [hgot, hnone, hx]

/-- What was kept through the end is all there is to keep. -/
theorem eq_of_kept_end {f : α → Option β} {got : List β} {y : β}
    (h : got <+: (through p l).filterMap f) (hy : y ∈ got)
    (hend : ∀ x, f x = some y → p x = true) :
    got = (through p l).filterMap f := by
  obtain ⟨more, hmore⟩ := h
  obtain ⟨l₁, l₂, hl, hgot, hbehind⟩ :=
    List.filterMap_eq_append_iff.mp hmore.symm
  have hlast : ∃ x ∈ l₁, p x = true := by
    rw [← hgot, List.mem_filterMap] at hy
    obtain ⟨x, hx, hfx⟩ := hy
    exact ⟨x, hx, hend x hfx⟩
  rw [through_end hl hlast] at hbehind
  rw [← hmore, ← hbehind]
  simp

end DataPlane.Lib
