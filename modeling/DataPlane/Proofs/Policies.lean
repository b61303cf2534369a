import DataPlane.Proofs.Budget
import Mathlib.Order.Bounds.Defs

/-!
# The policies compared

`truncate_oldest` goes through the suffixes of a chat from the longest to the
shortest and stops at the first that fits, whatever the counter does with them.
The last one it comes to is the empty chat, which fits more easily than any
other, so a chat can be admitted of which nothing is left.

`strict_decision` and `reserve_output_first` make the same decision by a sum and
by a difference. They could only differ on a prompt of no tokens, and there is
none: `tokenCount` counts a prompt in numbers, and is never zero.
-/

namespace DataPlane.Proofs

open DataPlane DataPlane.Ref

variable {counter : TokenCounter} {request : BudgetRequest} {d : BudgetDecision}
  {messages : List ChatMessage}

/-! ## The longest suffix -/

/-- What is left of a chat after `k` messages fits, in numbers. -/
def SuffixFits (counter : TokenCounter) (request : BudgetRequest)
    (messages : List ChatMessage) (k : Nat) : Prop :=
  (counter.countPrompt (.chat (messages.drop k))).toNat +
    (requestedOf request).toNat ≤ request.model.contextLimit.toNat

theorem fitsFrom_iff {k : Nat}
    (h : (counter.countPrompt (.chat (messages.drop k))).toNat +
      (requestedOf request).toNat < 2 ^ 64) :
    FitsFrom counter (requestedOf request) request.model.contextLimit messages
      k ↔ SuffixFits counter request messages k := by
  unfold FitsFrom SuffixFits
  rw [add_le_iff]
  omega

theorem dropOldest_of_fits {requested contextLimit : UInt64}
    (h : FitsFrom counter requested contextLimit messages 0)
    (truncated : UInt64) :
    dropOldest counter requested contextLimit messages truncated =
      (messages, truncated) := by
  cases messages with
  | nil => rfl
  | cons message messages => exact if_neg (UInt64.not_lt.mpr h)

/-- A chat that fits as it is is decided on as it is. -/
theorem truncateOldest_of_fits (hprompt : request.prompt = .chat messages)
    (h : FitsFrom counter (requestedOf request) request.model.contextLimit
      messages 0) :
    truncateOldest request (requestedOf request) counter =
      strictDecision request (requestedOf request) counter := by
  have hadmitted : counter.countPrompt (.chat messages) +
      requestedOf request ≤ request.model.contextLimit := h
  unfold truncateOldest strictDecision
  rw [hprompt]
  simp [dropOldest_of_fits h, hadmitted]

/-- The least number of messages that makes the rest fit, of all that do, goes;
all of them go if none does. A chat `StrictReject` admits keeps all of them. -/
theorem truncate_keeps_longest (counter : TokenCounter)
    (request : BudgetRequest) (messages : List ChatMessage)
    (hprompt : request.prompt = .chat messages)
    (hpolicy : request.policy = .truncateOldest)
    (hrange : ∀ k ≤ messages.length,
      (counter.countPrompt (.chat (messages.drop k))).toNat +
        (requestedOf request).toNat < 2 ^ 64)
    (d : BudgetDecision) (h : decideBudget request counter = .ok d) :
    (∃ k ≤ messages.length,
      d.prompt = .chat (messages.drop k) ∧
      d.truncatedMessages = UInt64.ofNat k ∧
      d.promptTokens = counter.countPrompt d.prompt ∧
      (d.admitted = true ↔
        ∃ j ≤ messages.length, SuffixFits counter request messages j) ∧
      ((∃ j ≤ messages.length, SuffixFits counter request messages j) →
        IsLeast {j | j ≤ messages.length ∧
          SuffixFits counter request messages j} k) ∧
      ((¬ ∃ j ≤ messages.length, SuffixFits counter request messages j) →
        k = messages.length)) ∧
    ∀ d', decideBudget { request with policy := .strictReject } counter =
        .ok d' → d'.admitted = true → d = d' ∧ d.truncatedMessages = 0 := by
  have hd := decideBudget_ok h
  rw [hpolicy] at hd
  dsimp only at hd
  subst hd
  obtain ⟨k, hk, hkept, htruncated, hadmitted, hbefore, hend⟩ :=
    truncateOldest_chat hprompt
  have hfits : ∀ j ≤ messages.length, FitsFrom counter (requestedOf request)
      request.model.contextLimit messages j ↔
        SuffixFits counter request messages j :=
    fun j hj => fitsFrom_iff (hrange j hj)
  have hleast : ∀ j ≤ messages.length, SuffixFits counter request messages j →
      k ≤ j := by
    intro j hj hfit
    by_contra hlt
    exact hbefore j (Nat.lt_of_not_le hlt) ((hfits j hj).mpr hfit)
  have hat : (∃ j ≤ messages.length, SuffixFits counter request messages j) →
      SuffixFits counter request messages k := by
    rintro ⟨j, hj, hfit⟩
    rcases hend with rfl | hend
    · have heq : j = messages.length := Nat.le_antisymm hj (hleast j hj hfit)
      exact heq ▸ hfit
    · exact (hfits k hk).mp hend
  refine ⟨⟨k, hk, hkept, htruncated, (decides_of_ok h).promptTokens, ?_, ?_, ?_⟩,
    ?_⟩
  · rw [hadmitted, hfits k hk]
    exact ⟨fun hfit => ⟨k, hk, hfit⟩, hat⟩
  · intro hsome
    exact ⟨⟨hk, hat hsome⟩, fun j hj => hleast j hj.1 hj.2⟩
  · intro hnone
    rcases hend with hend | hend
    · exact hend
    · exact absurd ⟨k, hk, (hfits k hk).mp hend⟩ hnone
  · intro d' hd' hadmitted'
    have hstrict : d' = strictDecision request (requestedOf request) counter :=
      decideBudget_ok hd'
    subst hstrict
    have hzero : FitsFrom counter (requestedOf request)
        request.model.contextLimit messages 0 := by
      have := of_decide_eq_true hadmitted'
      rwa [hprompt] at this
    rw [truncateOldest_of_fits hprompt hzero]
    exact ⟨rfl, rfl⟩

/-- A long message and a short one, which has the room to itself. -/
def longChat : BudgetRequest :=
  { prompt := .chat [⟨"user", "old old old old old old old old"⟩, ⟨"user", "new"⟩]
    requestedMaxTokens := some 8
    policy := .truncateOldest
    model := ⟨"tiny", 20, 8, 16⟩ }

theorem truncate_keeps_longest_longChat :
    ∃ d, decideBudget longChat approxTokenCounter = .ok d ∧
      d.truncatedMessages = 1 ∧ d.prompt = .chat [⟨"user", "new"⟩] ∧
      d.admitted = true ∧
      ∃ j ≤ 2, SuffixFits approxTokenCounter longChat
        [⟨"user", "old old old old old old old old"⟩, ⟨"user", "new"⟩] j := by
  refine ⟨_, rfl, by decide, by decide, by decide, ?_⟩
  obtain ⟨⟨k, hk, _, _, _, hadmitted, _⟩, _⟩ := truncate_keeps_longest
    approxTokenCounter longChat _ rfl rfl (by decide) _ rfl
  exact hadmitted.mp (by decide)

/-! ## The newest message -/

/-- What is left of the chat is not nothing, so it has the newest message. -/
def KeepsNewest (messages : List ChatMessage) (prompt : Prompt) : Prop :=
  ∃ kept, prompt = .chat kept ∧ kept ≠ [] ∧ kept <:+ messages ∧
    kept.getLast? = messages.getLast?

theorem keepsNewest_drop_iff {k : Nat} :
    KeepsNewest messages (.chat (messages.drop k)) ↔ k < messages.length := by
  constructor
  · rintro ⟨kept, hkept, hne, _⟩
    cases hkept
    by_contra hge
    exact hne (List.drop_eq_nil_of_le (Nat.le_of_not_lt hge))
  · intro hlt
    refine ⟨_, rfl, ?_, List.drop_suffix k messages, ?_⟩
    · intro hnil
      rw [List.drop_eq_nil_iff] at hnil
      omega
    · rw [List.getLast?_drop, if_neg (by omega)]

/-- An admitted chat still has its newest message, if and only if some part of
the chat fits, or not even an empty chat would. The sums are those of the
code. -/
theorem truncate_keeps_newest_iff (request : BudgetRequest)
    (messages : List ChatMessage) (_hne : messages ≠ [])
    (hprompt : request.prompt = .chat messages)
    (hpolicy : request.policy = .truncateOldest) (d : BudgetDecision)
    (h : decideBudget request approxTokenCounter = .ok d) :
    (d.admitted = true → KeepsNewest messages d.prompt) ↔
      (∃ k < messages.length, FitsFrom approxTokenCounter (requestedOf request)
        request.model.contextLimit messages k) ∨
      request.model.contextLimit < 2 + requestedOf request := by
  have hd := decideBudget_ok h
  rw [hpolicy] at hd
  dsimp only at hd
  subst hd
  obtain ⟨k, hk, hkept, _, hadmitted, hbefore, hend⟩ :=
    truncateOldest_chat hprompt
  have hempty : FitsFrom approxTokenCounter (requestedOf request)
      request.model.contextLimit messages messages.length ↔
        ¬ request.model.contextLimit < 2 + requestedOf request := by
    rw [UInt64.not_lt, FitsFrom, List.drop_length]
    rfl
  rw [hadmitted, hkept, keepsNewest_drop_iff]
  constructor
  · intro hkeeps
    by_contra hnot
    rw [not_or, ← hempty] at hnot
    obtain ⟨hnone, hall⟩ := hnot
    rcases hend with rfl | hend
    · exact Nat.lt_irrefl _ (hkeeps hall)
    · exact hnone ⟨k, hkeeps hend, hend⟩
  · rintro (⟨j, hj, hfits⟩ | hover) hfitsk
    · by_contra hge
      have hlt : j < k := by omega
      exact hbefore j hlt hfits
    · by_contra hge
      have heq : k = messages.length := by omega
      rw [heq] at hfitsk
      exact hempty.mp hfitsk hover

theorem truncate_keeps_newest_iff_longChat :
    ∃ d, decideBudget longChat approxTokenCounter = .ok d ∧
      d.admitted = true ∧ KeepsNewest
        [⟨"user", "old old old old old old old old"⟩, ⟨"user", "new"⟩]
        d.prompt := by
  refine ⟨_, rfl, by decide, ?_⟩
  refine (truncate_keeps_newest_iff longChat
    [⟨"user", "old old old old old old old old"⟩, ⟨"user", "new"⟩] (by simp)
    rfl rfl _ rfl).mpr (.inl ⟨1, by decide, ?_⟩) (by decide)
  unfold FitsFrom
  decide

/-- The long message alone does not fit, and goes: nothing is left, and that is
admitted. -/
theorem truncate_admits_nothing :
    ∃ d, decideBudget { longChat with
        prompt := .chat [⟨"user", "old old old old old old old old"⟩]
        model := ⟨"tiny", 12, 8, 16⟩ } approxTokenCounter = .ok d ∧
      d.admitted = true ∧ d.prompt = .chat [] ∧
      ¬ KeepsNewest [⟨"user", "old old old old old old old old"⟩] d.prompt := by
  refine ⟨_, rfl, by decide, by decide, ?_⟩
  rintro ⟨kept, hkept, hne, _⟩
  cases hkept
  exact hne rfl

/-! ## Two ways to leave room for the output -/

/-- The tokens of a text, as a number. -/
def textTokenCount (text : String) : Nat :=
  max (max (splitWhitespace text).length ((text.length + 3) / 4)) 1

/-- The tokens of a prompt, as a number. -/
def tokenCount : Prompt → Nat
  | .text text => textTokenCount text
  | .chat messages =>
      (messages.map fun message =>
        textTokenCount message.role + textTokenCount message.content + 4).sum + 2

/-- The counter returns the number, as far as it fits into a word. -/
theorem countPrompt_eq_ofNat (prompt : Prompt) :
    countPrompt prompt = UInt64.ofNat (tokenCount prompt) := by
  cases prompt with
  | text text => rfl
  | chat messages =>
      have hsum : (messages.map fun message =>
          countText message.role + countText message.content + 4).sum =
          UInt64.ofNat (messages.map fun message =>
            textTokenCount message.role +
              textTokenCount message.content + 4).sum := by
        induction messages with
        | nil => rfl
        | cons message messages ih =>
            simp only [List.map_cons, List.sum_cons, ih, UInt64.ofNat_add]
            rfl
      rw [countPrompt, hsum, tokenCount, UInt64.ofNat_add]
      rfl

theorem tokenCount_pos (prompt : Prompt) : 0 < tokenCount prompt := by
  cases prompt with
  | text text => exact Nat.le_max_right _ _
  | chat messages => exact Nat.succ_pos _

theorem toNat_countPrompt {prompt : Prompt} (h : tokenCount prompt < 2 ^ 64) :
    (countPrompt prompt).toNat = tokenCount prompt := by
  rw [countPrompt_eq_ofNat]
  exact Nat.mod_eq_of_lt h

/-- A decision without its reason. -/
def withoutReason (d : BudgetDecision) : BudgetDecision :=
  { d with reason := "" }

/-- The sum and the difference decide alike where the sum does not wrap. -/
theorem add_le_iff_le_sub {p r limit : UInt64} (hp : 0 < p.toNat)
    (h : p.toNat + r.toNat < 2 ^ 64) :
    p + r ≤ limit ↔ p ≤ saturatingSub limit r := by
  have hlimit := limit.toNat_lt
  rw [add_le_iff, UInt64.le_iff_toNat_le, toNat_saturatingSub]
  omega

/-- Under either policy the outcome is the same, reasons apart, for every
prompt whose tokens and the requested output make a word together. -/
theorem strict_reserve_alike (request : BudgetRequest)
    (h : tokenCount request.prompt + (requestedOf request).toNat < 2 ^ 64) :
    (decideBudget { request with policy := .strictReject }
        approxTokenCounter).map withoutReason =
      (decideBudget { request with policy := .reserveOutputFirst }
        approxTokenCounter).map withoutReason := by
  have htokens := toNat_countPrompt
    (Nat.lt_of_le_of_lt (Nat.le_add_right _ _) h)
  have hpos := tokenCount_pos request.prompt
  have halike : countPrompt request.prompt + requestedOf request ≤
      request.model.contextLimit ↔ countPrompt request.prompt ≤
        saturatingSub request.model.contextLimit (requestedOf request) :=
    add_le_iff_le_sub (by omega) (by omega)
  unfold decideBudget
  dsimp only
  split
  · rfl
  · split
    · rfl
    · show Except.ok (withoutReason (strictDecision
          { request with policy := .strictReject } (requestedOf request)
          approxTokenCounter)) =
        Except.ok (withoutReason (reserveOutputFirst
          { request with policy := .reserveOutputFirst } (requestedOf request)
          approxTokenCounter))
      simp only [strictDecision, reserveOutputFirst, withoutReason,
        approxTokenCounter]
      by_cases hfits : countPrompt request.prompt + requestedOf request ≤
          request.model.contextLimit
      · simp only [hfits, halike.mp hfits]
      · simp only [hfits, mt halike.mpr hfits]

/-- The output alone is more than the context has room for. -/
theorem strict_reserve_alike_longOutput :
    tokenCount (.text "hi") + 600 < 2 ^ 64 ∧
    (decideBudget ⟨.text "hi", some 600, .strictReject,
        ⟨"tiny", 512, 64, 1024⟩⟩ approxTokenCounter).map withoutReason =
      (decideBudget ⟨.text "hi", some 600, .reserveOutputFirst,
        ⟨"tiny", 512, 64, 1024⟩⟩ approxTokenCounter).map withoutReason :=
  ⟨by decide, strict_reserve_alike
    ⟨.text "hi", some 600, .strictReject, ⟨"tiny", 512, 64, 1024⟩⟩
    (by decide)⟩

end DataPlane.Proofs
