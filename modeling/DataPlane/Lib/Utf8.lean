import Mathlib.Algebra.Group.Nat.Defs
import Mathlib.Data.List.Basic

/-!
# UTF-8, decoded with replacement

The decoder that never fails: what is not UTF-8 comes out as `U+FFFD`, one for
every longest stretch of bytes that begins a character and does not go on as
one. It is written as a machine that takes one byte at a time. Between
characters it is at the start; inside one it knows the bits read so far, the
bounds of the next byte and how many are missing after that one. The bounds
are the ones that exclude overlong forms, surrogates and everything above
`U+10FFFF`.

Written in this way the decoder says by itself what happens when its input is
cut in two and the halves are decoded apart. Nothing, unless a character was
begun before the cut and the first byte after it goes on with it. Then the
character is lost and two or more replacements stand in its place.
-/

namespace DataPlane.Lib.Utf8

/-- `U+FFFD`. -/
def replacement : Char := Char.ofNat 0xfffd

/-- A character that has been begun. Only continuation bytes can be next, and
whatever they are, it does not come to less than 128. -/
structure Begun where
  bits : Nat
  lo : Nat
  hi : Nat
  left : Nat
  lo_ge : 0x80 ≤ lo
  hi_le : hi ≤ 0xbf
  big : 0x80 ≤ (64 * bits + (lo - 0x80)) * 64 ^ left
  deriving DecidableEq

/-- Where the decoder is: between characters, or inside one. -/
inductive State
  | start
  | inside (c : Begun)
  deriving DecidableEq

/-- The byte may be the next one of the character. -/
def Begun.accepts (c : Begun) (b : UInt8) : Bool :=
  c.lo ≤ b.toNat && b.toNat ≤ c.hi

/-- The first byte of a character. -/
def first (b : UInt8) : List Char × State :=
  let n := b.toNat
  if n < 0x80 then ([Char.ofNat n], .start)
  else if h : 0xc2 ≤ n ∧ n ≤ 0xdf then
    ([], .inside ⟨n - 0xc0, 0x80, 0xbf, 0, by omega, by omega, by omega⟩)
  else if n = 0xe0 then
    ([], .inside ⟨0, 0xa0, 0xbf, 1, by omega, by omega, by omega⟩)
  else if n = 0xed then
    ([], .inside ⟨0xd, 0x80, 0x9f, 1, by omega, by omega, by omega⟩)
  else if h : 0xe1 ≤ n ∧ n ≤ 0xef then
    ([], .inside ⟨n - 0xe0, 0x80, 0xbf, 1, by omega, by omega, by omega⟩)
  else if n = 0xf0 then
    ([], .inside ⟨0, 0x90, 0xbf, 2, by omega, by omega, by omega⟩)
  else if n = 0xf4 then
    ([], .inside ⟨4, 0x80, 0x8f, 2, by omega, by omega, by omega⟩)
  else if h : 0xf1 ≤ n ∧ n ≤ 0xf3 then
    ([], .inside ⟨n - 0xf0, 0x80, 0xbf, 2, by omega, by omega, by omega⟩)
  else ([replacement], .start)

/-- The bits read so far, with six more. -/
def Begun.extend (c : Begun) (b : UInt8) : Nat :=
  64 * c.bits + (b.toNat - 0x80)

theorem Begun.extend_ge {c : Begun} {b : UInt8} (h : c.accepts b = true) :
    0x80 ≤ c.extend b * 64 ^ c.left := by
  simp only [accepts, Bool.and_eq_true, decide_eq_true_eq] at h
  refine Nat.le_trans c.big (Nat.mul_le_mul_right _ ?_)
  unfold extend
  omega

/-- The last byte. -/
theorem Begun.extend_last {c : Begun} {b : UInt8} (h : c.accepts b = true)
    (hleft : c.left = 0) : 0x80 ≤ c.extend b := by
  have hge := Begun.extend_ge h
  rw [hleft] at hge
  omega

/-- One byte that is not the last. -/
theorem Begun.extend_more {c : Begun} {b : UInt8} {left : Nat}
    (h : c.accepts b = true) (hleft : c.left = left + 1) :
    0x80 ≤ (64 * c.extend b + (0x80 - 0x80)) * 64 ^ left := by
  have hge := Begun.extend_ge h
  rw [hleft, Nat.pow_succ] at hge
  rwa [Nat.sub_self, Nat.add_zero, Nat.mul_comm 64, Nat.mul_assoc,
    Nat.mul_comm 64]

/-- One byte. One that does not go on with the character that was begun ends
it, and is looked at again as the first byte of another. -/
def feed : State → UInt8 → List Char × State
  | .start, b => first b
  | .inside c, b =>
      if h : c.accepts b = true then
        match hleft : c.left with
        | 0 => ([Char.ofNat (c.extend b)], .start)
        | left + 1 =>
            ([], .inside ⟨c.extend b, 0x80, 0xbf, left, Nat.le_refl _,
              Nat.le_refl _, Begun.extend_more h hleft⟩)
      else (replacement :: (first b).1, (first b).2)

/-- What the end of the input makes of a state. -/
def flush : State → List Char
  | .start => []
  | .inside _ => [replacement]

/-- What the bytes come to, from a state on. -/
def decodeFrom : State → List UInt8 → List Char
  | s, [] => flush s
  | s, b :: bs => (feed s b).1 ++ decodeFrom (feed s b).2 bs

/-- `String::from_utf8_lossy`. -/
def lossy (bytes : List UInt8) : List Char := decodeFrom .start bytes

/-- Where the machine is after some bytes. -/
def scan (s : State) (bytes : List UInt8) : State :=
  bytes.foldl (fun s b => (feed s b).2) s

/-- What it has written by then. -/
def emitted : State → List UInt8 → List Char
  | _, [] => []
  | s, b :: bs => (feed s b).1 ++ emitted (feed s b).2 bs

theorem decodeFrom_append (s : State) (as bs : List UInt8) :
    decodeFrom s (as ++ bs) = emitted s as ++ decodeFrom (scan s as) bs := by
  induction as generalizing s with
  | nil => rfl
  | cons a as ih =>
      simp only [List.cons_append, decodeFrom, emitted, ih, List.append_assoc]
      rfl

theorem decodeFrom_eq (s : State) (as : List UInt8) :
    decodeFrom s as = emitted s as ++ flush (scan s as) := by
  have h := decodeFrom_append s as []
  rwa [List.append_nil] at h

/-- The last byte of a character. -/
theorem feed_last {c : Begun} {b : UInt8} (h : c.accepts b = true)
    (hleft : c.left = 0) :
    feed (.inside c) b = ([Char.ofNat (c.extend b)], .start) := by
  simp only [feed, h, dif_pos]
  split
  · rfl
  · next hmore => rw [hleft] at hmore; cases hmore

theorem feed_more {c : Begun} {b : UInt8} {left : Nat}
    (h : c.accepts b = true) (hleft : c.left = left + 1) :
    feed (.inside c) b =
      ([], .inside ⟨c.extend b, 0x80, 0xbf, left, Nat.le_refl _,
        Nat.le_refl _, Begun.extend_more h hleft⟩) := by
  simp only [feed, h, dif_pos]
  split
  · next hlast => rw [hleft] at hlast; cases hlast
  · next hmore =>
      rw [hleft] at hmore
      cases hmore
      rfl

/-! ## Plain characters

The characters of one byte, and a newline in particular, come from that byte
alone. `NUL` does not count as one, because it stands for numbers that are no
characters. -/

/-- A character of one byte. -/
def Plain (ch : Char) : Prop := 0 < ch.toNat ∧ ch.toNat < 0x80

instance (ch : Char) : Decidable (Plain ch) :=
  inferInstanceAs (Decidable (_ ∧ _))

theorem not_plain_ofNat {n : Nat} (h : 0x80 ≤ n) : ¬ Plain (Char.ofNat n) := by
  by_cases hvalid : n.isValidChar
  · have hof : Char.ofNat n = Char.ofNatAux n hvalid := dif_pos hvalid
    have hnat : (Char.ofNat n).toNat = n := congrArg Char.toNat hof
    unfold Plain
    omega
  · have hof : Char.ofNat n = Char.ofNat 0 := dif_neg hvalid
    rw [hof]
    decide

theorem not_plain_replacement : ¬ Plain replacement := by decide

theorem plain_newline : Plain '\n' := by decide

theorem ne_newline {ch : Char} (h : ¬ Plain ch) : ch ≠ '\n' := by
  rintro rfl
  exact h plain_newline

theorem replacement_ne_newline : replacement ≠ '\n' :=
  ne_newline not_plain_replacement

theorem ofNat_eq_newline {n : Nat} (h : Char.ofNat n = '\n') : n = 10 := by
  by_cases hvalid : n.isValidChar
  · have hof : Char.ofNat n = Char.ofNatAux n hvalid := dif_pos hvalid
    rw [hof] at h
    exact congrArg Char.toNat h
  · have hof : Char.ofNat n = Char.ofNat 0 := dif_neg hvalid
    rw [hof] at h
    cases h

theorem newline_mem_first (b : UInt8) : '\n' ∈ (first b).1 ↔ b = 10 := by
  have hb : b = 10 ↔ b.toNat = 10 := by
    rw [← UInt8.toNat_inj]
    rfl
  rw [hb]
  unfold first
  dsimp only
  split_ifs with h
  · rw [List.mem_singleton]
    constructor
    · intro he
      exact ofNat_eq_newline he.symm
    · intro he
      rw [he]
  all_goals
    simp only [List.mem_singleton, List.not_mem_nil, false_iff,
      replacement_ne_newline.symm]
    omega

theorem newline_mem_feed (s : State) (b : UInt8) :
    '\n' ∈ (feed s b).1 ↔ b = 10 := by
  cases s with
  | start => exact newline_mem_first b
  | inside c =>
      by_cases h : c.accepts b = true
      · have hb : b ≠ 10 := by
          rintro rfl
          simp only [Begun.accepts, Bool.and_eq_true, decide_eq_true_eq] at h
          have := c.lo_ge
          have : (10 : UInt8).toNat = 10 := rfl
          omega
        cases hleft : c.left with
        | zero =>
            rw [feed_last h hleft]
            simp only [List.mem_singleton, hb, iff_false]
            exact (ne_newline
              (not_plain_ofNat (Begun.extend_last h hleft))).symm
        | succ left =>
            rw [feed_more h hleft]
            simp [hb]
      · simp only [feed, h, dif_neg, not_false_eq_true, Bool.false_eq_true]
        rw [List.mem_cons, newline_mem_first]
        simp [replacement_ne_newline.symm]

theorem newline_mem_decodeFrom (s : State) (bytes : List UInt8) :
    '\n' ∈ decodeFrom s bytes ↔ 10 ∈ bytes := by
  induction bytes generalizing s with
  | nil =>
      cases s with
      | start => simp [decodeFrom, flush]
      | inside c => simp [decodeFrom, flush, replacement_ne_newline.symm]
  | cons b bs ih =>
      rw [decodeFrom, List.mem_append, newline_mem_feed, ih, List.mem_cons]
      simp [eq_comm]

/-! ## Cuts -/

/-- The input goes on with the character the machine is inside of. -/
def goesOn : State → List UInt8 → Bool
  | .inside c, b :: _ => c.accepts b
  | _, _ => false

/-- The cut between the two parts goes through a character. -/
def cuts (as bs : List UInt8) : Bool := goesOn (scan .start as) bs

/-- A continuation byte does not begin a character. -/
theorem first_of_accepts {c : Begun} {b : UInt8} (h : c.accepts b = true) :
    first b = ([replacement], .start) := by
  simp only [Begun.accepts, Bool.and_eq_true, decide_eq_true_eq] at h
  have hlo := c.lo_ge
  have hhi := c.hi_le
  unfold first
  dsimp only
  rw [if_neg (by omega), dif_neg (by omega), if_neg (by omega),
    if_neg (by omega), dif_neg (by omega), if_neg (by omega),
    if_neg (by omega), dif_neg (by omega)]

/-- A machine inside a character writes one character for it and goes on with
`y`; one at the start writes replacements for the bytes that belonged to the
character and then goes on with the same `y`. -/
theorem decodeFrom_inside (c : Begun) (bytes : List UInt8) :
    ∃ ch k y, ¬ Plain ch ∧ decodeFrom (.inside c) bytes = ch :: y ∧
      lossy bytes = List.replicate k replacement ++ y ∧
      (k = 0 ↔ goesOn (.inside c) bytes = false) ∧
      (k = 0 → ch = replacement) := by
  induction bytes generalizing c with
  | nil =>
      exact ⟨replacement, 0, [], not_plain_replacement, rfl, rfl,
        by simp [goesOn], fun _ => rfl⟩
  | cons b bs ih =>
      by_cases h : c.accepts b = true
      · have hstart : lossy (b :: bs) = replacement :: lossy bs := by
          simp only [lossy, decodeFrom, feed, first_of_accepts h]
          rfl
        have hgo : goesOn (.inside c) (b :: bs) = true := h
        cases hleft : c.left with
        | zero =>
            refine ⟨Char.ofNat (c.extend b), 1, lossy bs,
              not_plain_ofNat (Begun.extend_last h hleft), ?_, hstart,
              by simp [hgo], by simp⟩
            rw [decodeFrom, feed_last h hleft]
            rfl
        | succ left =>
            obtain ⟨ch, k, y, hch, hin, hout, _, _⟩ := ih ⟨c.extend b, 0x80, 0xbf,
              left, Nat.le_refl _, Nat.le_refl _, Begun.extend_more h hleft⟩
            refine ⟨ch, k + 1, y, hch, ?_, ?_, by simp [hgo], by simp⟩
            · rw [decodeFrom, feed_more h hleft, List.nil_append]
              exact hin
            · rw [hstart, hout, List.replicate_succ, List.cons_append]
      · have hgo : goesOn (.inside c) (b :: bs) = false := by
          simpa [goesOn] using h
        refine ⟨replacement, 0, lossy (b :: bs), not_plain_replacement, ?_, rfl,
          by simp [hgo], fun _ => rfl⟩
        simp only [decodeFrom, feed, h, lossy, dif_neg, not_false_eq_true,
          Bool.false_eq_true, List.cons_append]

/-- Parts with no character cut in two decode apart as they do together. -/
theorem lossy_append_of_not_cuts {as bs : List UInt8} (h : cuts as bs = false) :
    lossy as ++ lossy bs = lossy (as ++ bs) := by
  unfold lossy
  rw [decodeFrom_eq, decodeFrom_append, List.append_assoc]
  congr 1
  unfold cuts at h
  cases hs : scan .start as with
  | start => rfl
  | inside c =>
      rw [hs] at h
      obtain ⟨ch, k, y, _, hin, hout, hk, hch⟩ := decodeFrom_inside c bs
      have hzero := hk.mpr h
      rw [hin, hch hzero]
      unfold lossy at hout
      rw [hout, hzero]
      rfl

/-- A character cut in two: in the place of one character stand a replacement
for its beginning and one for every byte of the rest. -/
theorem lossy_append_of_cuts {as bs : List UInt8} (h : cuts as bs = true) :
    ∃ x ch k y, ¬ Plain ch ∧ lossy (as ++ bs) = x ++ ch :: y ∧
      lossy as ++ lossy bs =
        x ++ replacement :: List.replicate (k + 1) replacement ++ y ∧
      lossy bs = List.replicate (k + 1) replacement ++ y := by
  unfold cuts at h
  cases hs : scan .start as with
  | start => rw [hs] at h; cases h
  | inside c =>
      rw [hs] at h
      obtain ⟨ch, k, y, hch, hin, hout, hk, _⟩ := decodeFrom_inside c bs
      obtain ⟨k, rfl⟩ : ∃ k', k = k' + 1 := by
        cases k with
        | zero => rw [hk.mp rfl] at h; cases h
        | succ k => exact ⟨k, rfl⟩
      refine ⟨emitted .start as, ch, k, y, hch, ?_, ?_, hout⟩
      · rw [lossy, decodeFrom_append, hs, hin]
      · rw [hout, lossy, decodeFrom_eq, hs]
        simp [flush]

/-- Before a newline every character is over. -/
theorem lossy_newline (as bs : List UInt8) :
    lossy (as ++ 10 :: bs) = lossy as ++ '\n' :: lossy bs := by
  have hcut : cuts as (10 :: bs) = false := by
    unfold cuts
    cases scan .start as with
    | start => rfl
    | inside c =>
        have hlo := c.lo_ge
        have hten : (10 : UInt8).toNat = 10 := rfl
        simp only [goesOn, Begun.accepts, hten, Bool.and_eq_false_imp,
          decide_eq_true_eq, decide_eq_false_iff_not]
        omega
  rw [← lossy_append_of_not_cuts hcut]
  rfl

/-! ## Pieces

A text that arrives in pieces, each of them decoded by itself. -/

/-- None of the cuts between the pieces goes through a character. -/
def Whole : List (List UInt8) → Prop
  | [] => True
  | piece :: pieces => cuts piece pieces.flatten = false ∧ Whole pieces

instance decidableWhole : (pieces : List (List UInt8)) → Decidable (Whole pieces)
  | [] => inferInstanceAs (Decidable True)
  | piece :: pieces =>
      have := decidableWhole pieces
      inferInstanceAs
        (Decidable (cuts piece pieces.flatten = false ∧ Whole pieces))

theorem flatMap_lossy_of_whole {pieces : List (List UInt8)}
    (h : Whole pieces) : pieces.flatMap lossy = lossy pieces.flatten := by
  induction pieces with
  | nil => rfl
  | cons piece pieces ih =>
      rw [List.flatMap_cons, List.flatten_cons, ih h.2,
        lossy_append_of_not_cuts h.1]

/-- The same text, or the same up to two characters neither of which is
plain. -/
def Alike (p q : List Char) : Prop :=
  p = q ∨ ∃ x c d y z, p = x ++ c :: y ∧ q = x ++ d :: z ∧
    ¬ Plain c ∧ ¬ Plain d

theorem Alike.append_left {p q : List Char} (h : Alike p q) (w : List Char) :
    Alike (w ++ p) (w ++ q) := by
  rcases h with rfl | ⟨x, c, d, y, z, rfl, rfl, hc, hd⟩
  · exact .inl rfl
  · exact .inr ⟨w ++ x, c, d, y, z, by simp, by simp, hc, hd⟩

/-- What is plain stands before the first difference. -/
theorem prefix_of_plain {w x y : List Char} {c : Char}
    (hw : ∀ ch ∈ w, Plain ch) (hc : ¬ Plain c) (h : w <+: x ++ c :: y) :
    w <+: x := by
  rcases List.prefix_or_prefix_of_prefix h (List.prefix_append x (c :: y)) with
    hx | ⟨z, rfl⟩
  · exact hx
  · have hz := (List.prefix_append_right_inj x).mp h
    cases z with
    | nil => simp
    | cons ch z =>
        rw [List.cons_prefix_cons] at hz
        exact absurd (hz.1 ▸ hw ch (by simp)) hc

theorem Alike.prefix_iff {p q w : List Char} (h : Alike p q)
    (hw : ∀ ch ∈ w, Plain ch) : w <+: p ↔ w <+: q := by
  rcases h with rfl | ⟨x, c, d, y, z, rfl, rfl, hc, hd⟩
  · exact Iff.rfl
  · constructor
    · intro hp
      exact (prefix_of_plain hw hc hp).trans (List.prefix_append _ _)
    · intro hq
      exact (prefix_of_plain hw hd hq).trans (List.prefix_append _ _)

/-- Decoding the pieces apart spoils no plain text before the first cut. -/
theorem alike_pieces (pieces : List (List UInt8)) :
    Alike (pieces.flatMap lossy) (lossy pieces.flatten) := by
  induction pieces with
  | nil => exact .inl rfl
  | cons piece pieces ih =>
      rw [List.flatMap_cons, List.flatten_cons]
      cases hcut : cuts piece pieces.flatten with
      | false =>
          rw [← lossy_append_of_not_cuts hcut]
          exact ih.append_left _
      | true =>
          obtain ⟨x, ch, k, y, hch, hwhole, hparts, hrest⟩ :=
            lossy_append_of_cuts hcut
          have hpiece : lossy piece = x ++ [replacement] := by
            rw [hrest, List.append_assoc, List.cons_append,
              List.append_cons] at hparts
            exact List.append_cancel_right hparts
          exact .inr ⟨x, replacement, ch, pieces.flatMap lossy, y,
            by simp [hpiece], hwhole, not_plain_replacement, hch⟩

theorem count_lossy_append (as bs : List UInt8) :
    (lossy (as ++ bs)).count replacement ≤
        (lossy as ++ lossy bs).count replacement ∧
      (cuts as bs = true → (lossy (as ++ bs)).count replacement <
        (lossy as ++ lossy bs).count replacement) := by
  cases hcut : cuts as bs with
  | false =>
      rw [lossy_append_of_not_cuts hcut]
      exact ⟨Nat.le_refl _, nofun⟩
  | true =>
      obtain ⟨x, ch, k, y, _, hwhole, hparts, _⟩ := lossy_append_of_cuts hcut
      have hlt : (lossy (as ++ bs)).count replacement <
          (lossy as ++ lossy bs).count replacement := by
        rw [hwhole, hparts]
        simp only [List.count_append, List.count_cons, List.count_replicate]
        split
        · simp
          omega
        · simp
      exact ⟨Nat.le_of_lt hlt, fun _ => hlt⟩

/-- Every cut through a character leaves another replacement. -/
theorem count_pieces (pieces : List (List UInt8)) :
    (lossy pieces.flatten).count replacement ≤
        (pieces.flatMap lossy).count replacement ∧
      (¬ Whole pieces → (lossy pieces.flatten).count replacement <
        (pieces.flatMap lossy).count replacement) := by
  induction pieces with
  | nil => exact ⟨Nat.le_refl _, fun h => absurd trivial h⟩
  | cons piece pieces ih =>
      rw [List.flatMap_cons, List.flatten_cons]
      obtain ⟨hle, hlt⟩ := count_lossy_append piece pieces.flatten
      rw [List.count_append] at hle hlt ⊢
      refine ⟨by omega, fun hnot => ?_⟩
      by_cases hwhole : Whole pieces
      · have hcut : cuts piece pieces.flatten = true := by
          by_contra hno
          exact hnot ⟨by simpa using hno, hwhole⟩
        have := hlt hcut
        omega
      · have := ih.2 hwhole
        omega

end DataPlane.Lib.Utf8
