import Mathlib.Order.Basic
import Mathlib.Data.List.Basic
import Mathlib.Data.List.Infix

/-!
# Reading an ordered log by cursor

A log is a list whose entries carry keys that grow from one entry to the next.
A reader owns nothing but a cursor, the key of the entry it took last: it asks
for the first entry behind the cursor, and moves the cursor there.

`Taken key c log got` says that `got` is what such a reader has taken, having
started at `c`. It is an equation, not an inequality: what was behind `c` at
the outset is what has been taken followed by what is behind the cursor now.
Nothing lost, nothing twice and nothing out of order are all read off it. It
survives an append to the log and a read, which are the only two things that
happen.
-/

namespace DataPlane.Lib

variable {ι α : Type} {key : α → ι} {c : ι} {log got : List α} {e x : α}

/-- The cursor of a reader that started at `c` and has taken `got`. -/
def position (key : α → ι) (c : ι) (got : List α) : ι :=
  (got.getLast?.map key).getD c

@[simp]
theorem position_nil : position key c [] = c := rfl

@[simp]
theorem position_concat : position key c (got ++ [e]) = key e := by
  simp [position]

variable [Preorder ι]

/-- Every entry has a larger key than all before it. -/
def Increasing (key : α → ι) (log : List α) : Prop :=
  log.Pairwise fun x y => key x < key y

theorem Increasing.concat (h : Increasing key log)
    (hx : ∀ y ∈ log, key y < key x) : Increasing key (log ++ [x]) := by
  rw [Increasing, List.pairwise_append]
  refine ⟨h, List.pairwise_singleton _ _, ?_⟩
  intro y hy z hz
  rw [List.mem_singleton.mp hz]
  exact hx y hy

variable [DecidableLT ι]

/-- The entries behind a cursor. -/
def after (key : α → ι) (c : ι) (log : List α) : List α :=
  log.filter fun e => c < key e

/-- The entry a read at the cursor finds. -/
def firstAfter (key : α → ι) (c : ι) (log : List α) : Option α :=
  log.find? fun e => c < key e

theorem after_append (l l' : List α) :
    after key c (l ++ l') = after key c l ++ after key c l' :=
  List.filter_append ..

theorem after_eq_self (h : ∀ x ∈ log, c < key x) : after key c log = log := by
  rw [after, List.filter_eq_self]
  intro x hx
  exact decide_eq_true (h x hx)

theorem after_eq_nil (h : ∀ x ∈ log, ¬ c < key x) : after key c log = [] := by
  rw [after, List.filter_eq_nil_iff]
  intro x hx hlt
  exact h x hx (of_decide_eq_true hlt)

theorem firstAfter_eq_none :
    firstAfter key c log = none ↔ after key c log = [] := by
  simp [firstAfter, after, List.find?_eq_none, List.filter_eq_nil_iff]

/-- In an increasing log the entries behind one of its own keys are those that
follow it. -/
theorem Increasing.after_split {l l' : List α}
    (h : Increasing key (l ++ e :: l')) :
    after key (key e) (l ++ e :: l') = l' := by
  rw [Increasing, List.pairwise_append, List.pairwise_cons] at h
  obtain ⟨-, ⟨hright, -⟩, hleft⟩ := h
  have hbefore : after key (key e) (l ++ [e]) = [] := by
    apply after_eq_nil
    intro x hx hlt
    rcases List.mem_append.mp hx with hx | hx
    · exact lt_asymm hlt (hleft x hx e List.mem_cons_self)
    · rw [List.mem_singleton.mp hx] at hlt
      exact lt_irrefl _ hlt
  rw [List.append_cons, after_append, hbefore, List.nil_append]
  exact after_eq_self hright

/-- The entry a read finds is the first of those behind the cursor, and the
rest is what is behind it. -/
theorem after_of_firstAfter (h : Increasing key log)
    (he : firstAfter key c log = some e) :
    after key c log = e :: after key (key e) log := by
  obtain ⟨hlt, l, l', rfl, hl⟩ := List.find?_eq_some_iff_append.mp he
  have hbefore : after key c l = [] := by
    apply after_eq_nil
    intro x hx
    simpa using hl x hx
  have hcons : after key c (e :: l') = e :: l' := by
    apply after_eq_self
    intro x hx
    rcases List.mem_cons.mp hx with rfl | hx
    · exact of_decide_eq_true hlt
    · rw [Increasing, List.pairwise_append, List.pairwise_cons] at h
      exact lt_trans (of_decide_eq_true hlt) (h.2.1.1 x hx)
  rw [after_append, hbefore, hcons, h.after_split, List.nil_append]

/-- Behind an entry that is itself behind a cursor is what follows it there. -/
theorem Increasing.after_cut {l l' : List α} (h : Increasing key log)
    (hcut : after key c log = l ++ e :: l') : after key (key e) log = l' := by
  have hlt : c < key e := by
    have hmem : e ∈ after key c log := by
      rw [hcut]
      exact List.mem_append_right l List.mem_cons_self
    exact of_decide_eq_true (List.mem_filter.mp hmem).2
  have hafter : after key (key e) (after key c log) = after key (key e) log := by
    unfold after
    rw [List.filter_filter]
    apply List.filter_congr
    intro x hx
    rw [Bool.and_eq_left_iff_imp]
    intro hex
    exact decide_eq_true (lt_trans hlt (of_decide_eq_true hex))
  have hbehind : Increasing key (after key c log) :=
    List.Pairwise.sublist List.filter_sublist h
  rw [hcut] at hbehind
  rw [← hafter, hcut, hbehind.after_split]

/-- A found entry stays the first behind the cursor, whatever is appended. -/
theorem firstAfter_concat (he : firstAfter key c log = some e) :
    firstAfter key c (log ++ [x]) = some e := by
  rw [firstAfter, List.find?_append]
  rw [firstAfter] at he
  rw [he, Option.some_or]

/-- A reader that started at `c` has taken `got`. -/
def Taken (key : α → ι) (c : ι) (log got : List α) : Prop :=
  after key c log = got ++ after key (position key c got) log

theorem Taken.nil : Taken key c log [] := rfl

theorem Taken.isPrefix (h : Taken key c log got) : got <+: after key c log :=
  ⟨_, h.symm⟩

theorem Taken.mem (h : Taken key c log got) (he : e ∈ got) :
    e ∈ log ∧ c < key e := by
  have hmem : e ∈ after key c log := h.isPrefix.subset he
  rw [after, List.mem_filter] at hmem
  exact ⟨hmem.1, of_decide_eq_true hmem.2⟩

/-- An append is behind every reader that has taken anything, and behind the
others exactly if it is behind where they started. -/
theorem Taken.append (h : Taken key c log got)
    (hx : ∀ y ∈ log, key y < key x) : Taken key c (log ++ [x]) got := by
  rcases got.eq_nil_or_concat' with rfl | ⟨l, e, rfl⟩
  · exact Taken.nil
  · obtain ⟨helog, hce⟩ := h.mem (List.mem_append_right l List.mem_cons_self)
    have hnew : ∀ d, d < key x → after key d [x] = [x] := by
      intro d hd
      apply after_eq_self
      intro y hy
      rw [List.mem_singleton.mp hy]
      exact hd
    unfold Taken at h ⊢
    rw [after_append, after_append, h, position_concat, hnew _ (hx e helog),
      hnew _ (lt_trans hce (hx e helog)), List.append_assoc]

theorem Taken.read (hlog : Increasing key log) (h : Taken key c log got)
    (he : firstAfter key (position key c got) log = some e) :
    Taken key c log (got ++ [e]) := by
  unfold Taken at h ⊢
  rw [h, position_concat, after_of_firstAfter hlog he, List.append_assoc,
    List.singleton_append]

end DataPlane.Lib
