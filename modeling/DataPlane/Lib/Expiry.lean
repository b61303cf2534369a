import Mathlib.Logic.Function.Basic
import Mathlib.Data.Option.Basic
import Mathlib.Data.Set.Function

/-!
# Keys that expire

A store whose keys may carry a deadline. A key is live while the clock is
short of its deadline, a key without one is always live, and nobody removes
anything: a dead cell stays in the map and every operation reads through the
clock, so that expiry is a fact about time and not a step of its own.

Three writes, told apart by what they do to the deadline. `put` changes the
value of a live key and keeps its deadline, or creates the key without one;
`setEx` overwrites value and deadline together; `expire` moves the deadline
of a live key and leaves a missing one alone.
-/

namespace DataPlane.Lib

/-- A value and the time at which it stops existing, if any. -/
structure Timed (α : Type) where
  value : α
  deadline : Option Nat
  deriving DecidableEq, Repr

/-- The key exists at time `now`. -/
def Timed.alive {α : Type} (c : Timed α) (now : Nat) : Bool :=
  match c.deadline with
  | none => true
  | some d => now < d

/-- A keyspace, dead cells included. -/
abbrev Keyspace (κ α : Type) : Type := κ → Option (Timed α)

namespace Keyspace

variable {κ α : Type}

/-- The cell a command finds under a key. -/
def live (m : Keyspace κ α) (now : Nat) (k : κ) : Option (Timed α) :=
  (m k).filter (·.alive now)

/-- The value a command reads under a key. -/
def get (m : Keyspace κ α) (now : Nat) (k : κ) : Option α :=
  (m.live now k).map (·.value)

theorem live_eq_some {m : Keyspace κ α} {now : Nat} {k : κ} {c : Timed α} :
    m.live now k = some c ↔ m k = some c ∧ c.alive now = true := by
  simp [live, Option.filter_eq_some_iff]

theorem get_eq_some {m : Keyspace κ α} {now : Nat} {k : κ} {v : α} :
    m.get now k = some v ↔ ∃ c, m.live now k = some c ∧ c.value = v := by
  simp [get]

theorem alive_of_le {c : Timed α} {now later : Nat} (hle : now ≤ later)
    (h : c.alive later = true) : c.alive now = true := by
  unfold Timed.alive at h ⊢
  split
  · rfl
  · next d hd =>
      simp only [hd, decide_eq_true_eq] at h ⊢
      omega

/-- A cell found later was there before: the clock only ever takes cells
away. -/
theorem live_of_le {m : Keyspace κ α} {now later : Nat} (hle : now ≤ later)
    {k : κ} {c : Timed α} (h : m.live later k = some c) :
    m.live now k = some c := by
  rw [live_eq_some] at h ⊢
  exact ⟨h.1, alive_of_le hle h.2⟩

theorem get_of_le {m : Keyspace κ α} {now later : Nat} (hle : now ≤ later)
    {k : κ} {v : α} (h : m.get later k = some v) : m.get now k = some v := by
  obtain ⟨c, hc, hv⟩ := get_eq_some.mp h
  exact get_eq_some.mpr ⟨c, live_of_le hle hc, hv⟩

/-! The writes, each with what it leaves under the key it names and the fact
that it leaves every other key alone. -/

variable [DecidableEq κ]

/-- A new value under the deadline there is, if any. -/
def put (m : Keyspace κ α) (now : Nat) (k : κ) (v : α) : Keyspace κ α :=
  Function.update m k
    (some ⟨v, (m.live now k).bind (·.deadline)⟩)

/-- A new value under a deadline of its own. -/
def setEx (m : Keyspace κ α) (k : κ) (v : α) (deadline : Nat) :
    Keyspace κ α :=
  Function.update m k (some ⟨v, some deadline⟩)

/-- A live value gets a time to live. -/
def expire (m : Keyspace κ α) (now : Nat) (k : κ) (ttl : Nat) :
    Keyspace κ α :=
  match m.live now k with
  | none => m
  | some c => Function.update m k (some ⟨c.value, some (now + ttl)⟩)

/-- The key goes. -/
def del (m : Keyspace κ α) (k : κ) : Keyspace κ α :=
  Function.update m k none

@[simp] theorem live_put_self (m : Keyspace κ α) (now : Nat) (k : κ) (v : α) :
    (m.put now k v).live now k =
      some ⟨v, (m.live now k).bind (·.deadline)⟩ := by
  rw [live_eq_some]
  refine ⟨by simp [put], ?_⟩
  cases h : m.live now k with
  | none => rfl
  | some c => exact (live_eq_some.mp h).2

@[simp] theorem live_put_ne (m : Keyspace κ α) (now t : Nat) {k k' : κ}
    (v : α) (h : k' ≠ k) : (m.put now k v).live t k' = m.live t k' := by
  simp [put, live, Function.update_of_ne h]

@[simp] theorem live_expire_self (m : Keyspace κ α) (now : Nat) (k : κ)
    (ttl : Nat) :
    (m.expire now k ttl).live now k =
      ((m.live now k).map fun c => ⟨c.value, some (now + ttl)⟩).filter
        (·.alive now) := by
  unfold expire
  split
  · next h => rw [h]; rfl
  · next c h => rw [h]; simp [live]

@[simp] theorem live_expire_ne (m : Keyspace κ α) (now t : Nat) {k k' : κ}
    (ttl : Nat) (h : k' ≠ k) : (m.expire now k ttl).live t k' = m.live t k' := by
  unfold expire
  split
  · rfl
  · simp [live, Function.update_of_ne h]

@[simp] theorem live_setEx_self (m : Keyspace κ α) (now : Nat) (k : κ) (v : α)
    (deadline : Nat) :
    (m.setEx k v deadline).live now k =
      (some (⟨v, some deadline⟩ : Timed α)).filter (·.alive now) := by
  simp [setEx, live]

@[simp] theorem live_setEx_ne (m : Keyspace κ α) (now : Nat) {k k' : κ}
    (v : α) (deadline : Nat) (h : k' ≠ k) :
    (m.setEx k v deadline).live now k' = m.live now k' := by
  simp [setEx, live, Function.update_of_ne h]

@[simp] theorem live_del_self (m : Keyspace κ α) (now : Nat) (k : κ) :
    (m.del k).live now k = none := by
  simp [del, live]

@[simp] theorem live_del_ne (m : Keyspace κ α) (now : Nat) {k k' : κ}
    (h : k' ≠ k) : (m.del k).live now k' = m.live now k' := by
  simp [del, live, Function.update_of_ne h]

/-! ## What holds of every value -/

/-- Every cell, dead or alive, holds a value that fits its key. -/
def All (P : κ → α → Prop) (m : Keyspace κ α) : Prop :=
  ∀ k c, m k = some c → P k c.value

section All

variable {P : κ → α → Prop} {m : Keyspace κ α}

omit [DecidableEq κ] in
theorem All.get (h : All P m) {now : Nat} {k : κ} {v : α}
    (hv : m.get now k = some v) : P k v := by
  obtain ⟨c, hc, rfl⟩ := get_eq_some.mp hv
  exact h k c (live_eq_some.mp hc).1

theorem All.update (h : All P m) {k : κ} {c : Timed α} (hc : P k c.value) :
    All P (Function.update m k (some c)) := by
  intro k' c' hc'
  by_cases he : k' = k
  · subst he
    rw [Function.update_self] at hc'
    cases hc'
    exact hc
  · rw [Function.update_of_ne he] at hc'
    exact h k' c' hc'

theorem All.put (h : All P m) (now : Nat) {k : κ} {v : α} (hv : P k v) :
    All P (m.put now k v) := h.update hv

theorem All.expire (h : All P m) (now : Nat) (k : κ) (ttl : Nat) :
    All P (m.expire now k ttl) := by
  unfold Keyspace.expire
  split
  · exact h
  · next c hc => exact h.update (h k c (live_eq_some.mp hc).1)

end All

/-! ## Before the first deadline -/

/-- No deadline is before `T`: up to then the clock takes nothing away. -/
def LastsUntil (T : Nat) (m : Keyspace κ α) : Prop :=
  ∀ k c, m k = some c → ∀ d, c.deadline = some d → T ≤ d

section LastsUntil

variable {T now : Nat} {m : Keyspace κ α}

omit [DecidableEq κ] in
theorem LastsUntil.live (h : LastsUntil T m) (hnow : now < T) (k : κ) :
    m.live now k = m k := by
  cases hk : m k with
  | none => simp [Keyspace.live, hk]
  | some c =>
      rw [live_eq_some]
      refine ⟨hk, ?_⟩
      unfold Timed.alive
      split
      · rfl
      · next d hd =>
          have := h k c hk d hd
          exact decide_eq_true (by omega)

omit [DecidableEq κ] in
theorem LastsUntil.get (h : LastsUntil T m) {t : Nat} (ht : t < T)
    (hnow : now < T) (k : κ) : m.get t k = m.get now k := by
  simp only [Keyspace.get, h.live ht, h.live hnow]

theorem LastsUntil.update (h : LastsUntil T m) {k : κ} {c : Timed α}
    (hc : ∀ d, c.deadline = some d → T ≤ d) :
    LastsUntil T (Function.update m k (some c)) := by
  intro k' c' hc'
  by_cases he : k' = k
  · subst he
    rw [Function.update_self] at hc'
    cases hc'
    exact hc
  · rw [Function.update_of_ne he] at hc'
    exact h k' c' hc'

theorem LastsUntil.put (h : LastsUntil T m) (now : Nat) (k : κ) (v : α) :
    LastsUntil T (m.put now k v) := by
  refine h.update fun d hd => ?_
  obtain ⟨c, hc, hcd⟩ := Option.bind_eq_some_iff.mp hd
  exact h k c (live_eq_some.mp hc).1 d hcd

theorem LastsUntil.expire (h : LastsUntil T m) (k : κ) {ttl : Nat}
    (ht : T ≤ now + ttl) : LastsUntil T (m.expire now k ttl) := by
  unfold Keyspace.expire
  split
  · exact h
  · refine h.update fun d hd => ?_
    cases hd
    exact ht

end LastsUntil

/-! ## Frames

Two keyspaces that hold the same cells under a set of keys go on doing so
when the same write is made to both, and also when only one of them is
written to, under a key outside the set. -/

variable {m m' : Keyspace κ α} {S : Set κ}

omit [DecidableEq κ] in
theorem live_eqOn (h : Set.EqOn m m' S) {k : κ} (hk : k ∈ S) (now : Nat) :
    m.live now k = m'.live now k := by
  simp only [live, h hk]

omit [DecidableEq κ] in
theorem get_eqOn (h : Set.EqOn m m' S) {k : κ} (hk : k ∈ S) (now : Nat) :
    m.get now k = m'.get now k := by
  simp only [get, live_eqOn h hk]

theorem eqOn_update (h : Set.EqOn m m' S) (k : κ) (c : Option (Timed α)) :
    Set.EqOn (Function.update m k c) (Function.update m' k c) S := by
  intro k' hk'
  by_cases he : k' = k
  · subst he; simp
  · simp only [Function.update_of_ne he, h hk']

theorem eqOn_put (h : Set.EqOn m m' S) {k : κ} (hk : k ∈ S) (now : Nat)
    (v : α) : Set.EqOn (m.put now k v) (m'.put now k v) S := by
  unfold put
  rw [live_eqOn h hk]
  exact eqOn_update h k _

theorem eqOn_expire (h : Set.EqOn m m' S) {k : κ} (hk : k ∈ S) (now ttl : Nat) :
    Set.EqOn (m.expire now k ttl) (m'.expire now k ttl) S := by
  unfold expire
  rw [live_eqOn h hk]
  split
  · exact h
  · exact eqOn_update h k _

theorem put_eqOn (m : Keyspace κ α) (now : Nat) {k : κ} (v : α)
    (hk : k ∉ S) : Set.EqOn (m.put now k v) m S := by
  intro k' hk'
  exact Function.update_of_ne (ne_of_mem_of_not_mem hk' hk) _ _

theorem expire_eqOn (m : Keyspace κ α) (now ttl : Nat) {k : κ}
    (hk : k ∉ S) : Set.EqOn (m.expire now k ttl) m S := by
  unfold expire
  split
  · exact fun _ _ => rfl
  · intro k' hk'
    exact Function.update_of_ne (ne_of_mem_of_not_mem hk' hk) _ _

end Keyspace

end DataPlane.Lib
