import DataPlane.Ref.Budget

/-!
# What a budget decision promises

The three policies decide on different sums. `strict_decision` adds the prompt
and the output and compares; `reserve_output_first` subtracts the output and
compares; `truncate_oldest` adds, once for every suffix of the chat it tries.
A sum of two words may wrap, and a wrapped sum is small. That is the only way
for a decision to be wrong about the context limit.
-/

namespace DataPlane.Proofs

open DataPlane DataPlane.Ref

/-- The output a request asks for: its own wish or the default, but no more
than the model gives. -/
def requestedOf (request : BudgetRequest) : UInt64 :=
  min (request.requestedMaxTokens.getD request.model.defaultMaxTokens)
    request.model.maxOutputTokens

/-- What every decision has in common, whichever policy made it. -/
structure Decides (counter : TokenCounter) (request : BudgetRequest)
    (d : BudgetDecision) : Prop where
  model : d.model = request.model.model
  promptTokens : d.promptTokens = counter.countPrompt d.prompt
  requested : d.requestedMaxTokens = requestedOf request
  granted : d.admittedMaxTokens =
    if d.admitted then requestedOf request else 0
  available : d.availableGenerationTokens =
    saturatingSub request.model.contextLimit d.promptTokens

variable {counter : TokenCounter} {request : BudgetRequest} {d : BudgetDecision}

/-! ## Words and numbers -/

theorem toNat_saturatingSub (a b : UInt64) :
    (saturatingSub a b).toNat = a.toNat - b.toNat := by
  unfold saturatingSub
  split
  · next h => rw [UInt64.toNat_sub_of_le _ _ h]
  · next h =>
      rw [UInt64.le_iff_toNat_le] at h
      show 0 = _
      omega

/-- A sum of words that is within a limit is a sum of numbers that is, or one
that went once around. -/
theorem add_le_iff (a b limit : UInt64) :
    a + b ≤ limit ↔ a.toNat + b.toNat ≤ limit.toNat ∨
      2 ^ 64 ≤ a.toNat + b.toNat ∧
        a.toNat + b.toNat ≤ 2 ^ 64 + limit.toNat := by
  have ha := a.toNat_lt
  have hb := b.toNat_lt
  have hlimit := limit.toNat_lt
  rw [UInt64.le_iff_toNat_le, UInt64.toNat_add]
  omega

/-! ## The decisions -/

theorem strictDecision_decides (request : BudgetRequest)
    (counter : TokenCounter) :
    Decides counter request
      (strictDecision request (requestedOf request) counter) :=
  ⟨rfl, rfl, rfl, rfl, rfl⟩

theorem reserveOutputFirst_decides (request : BudgetRequest)
    (counter : TokenCounter) :
    Decides counter request
      (reserveOutputFirst request (requestedOf request) counter) :=
  ⟨rfl, rfl, rfl, rfl, rfl⟩

theorem truncateOldest_decides (request : BudgetRequest)
    (counter : TokenCounter) :
    Decides counter request
      (truncateOldest request (requestedOf request) counter) := by
  unfold truncateOldest
  split
  · exact strictDecision_decides request counter
  · exact ⟨rfl, rfl, rfl, rfl, rfl⟩

/-- A decision is made by the policy of the request, on a model with room. -/
theorem decideBudget_ok (h : decideBudget request counter = .ok d) :
    d = match request.policy with
      | .strictReject => strictDecision request (requestedOf request) counter
      | .reserveOutputFirst =>
          reserveOutputFirst request (requestedOf request) counter
      | .truncateOldest =>
          truncateOldest request (requestedOf request) counter := by
  unfold decideBudget at h
  split at h
  · cases h
  · split at h
    · cases h
    · dsimp only at h
      cases hpolicy : request.policy with
      | strictReject => rw [hpolicy] at h; cases h; rfl
      | reserveOutputFirst => rw [hpolicy] at h; cases h; rfl
      | truncateOldest => rw [hpolicy] at h; cases h; rfl

theorem decides_of_ok (h : decideBudget request counter = .ok d) :
    Decides counter request d := by
  rw [decideBudget_ok h]
  split
  · exact strictDecision_decides request counter
  · exact reserveOutputFirst_decides request counter
  · exact truncateOldest_decides request counter

theorem Decides.granted_le (hd : Decides counter request d) :
    d.admittedMaxTokens ≤ request.model.maxOutputTokens := by
  rw [hd.granted]
  split
  · exact Std.min_le_right
  · exact UInt64.le_iff_toNat_le.mpr (Nat.zero_le _)

/-! ## The loop of `truncate_oldest` -/

/-- The sum the loop computes for what is left after `k` messages, as words. -/
def FitsFrom (counter : TokenCounter) (requested contextLimit : UInt64)
    (messages : List ChatMessage) (k : Nat) : Prop :=
  counter.countPrompt (.chat (messages.drop k)) + requested ≤ contextLimit

/-- The loop stops at the first suffix that fits, or at the end. -/
theorem dropOldest_spec (counter : TokenCounter)
    (requested contextLimit : UInt64) (messages : List ChatMessage)
    (truncated : UInt64) :
    ∃ k ≤ messages.length,
      dropOldest counter requested contextLimit messages truncated =
        (messages.drop k, truncated + UInt64.ofNat k) ∧
      (∀ j < k, ¬ FitsFrom counter requested contextLimit messages j) ∧
      (k = messages.length ∨
        FitsFrom counter requested contextLimit messages k) := by
  induction messages generalizing truncated with
  | nil => exact ⟨0, Nat.le_refl 0, by simp [dropOldest], by simp, .inl rfl⟩
  | cons message messages ih =>
      unfold dropOldest
      split
      · next hover =>
          obtain ⟨k, hk, heq, hbefore, hend⟩ := ih (truncated + 1)
          refine ⟨k + 1, Nat.succ_le_succ hk, ?_, ?_, ?_⟩
          · rw [heq, List.drop_succ_cons, UInt64.add_assoc, UInt64.add_comm 1,
              UInt64.ofNat_add]
            rfl
          · intro j hj
            cases j with
            | zero => exact UInt64.not_le.mpr hover
            | succ j => exact hbefore j (Nat.lt_of_succ_lt_succ hj)
          · rcases hend with hend | hend
            · exact .inl (congrArg (· + 1) hend)
            · exact .inr hend
      · next hfits =>
          refine ⟨0, Nat.zero_le _, by simp, by simp, .inr ?_⟩
          exact UInt64.not_lt.mp hfits

/-- What `truncate_oldest` makes of a chat. -/
theorem truncateOldest_chat {messages : List ChatMessage}
    (hprompt : request.prompt = .chat messages) :
    ∃ k ≤ messages.length,
      (truncateOldest request (requestedOf request) counter).prompt =
        .chat (messages.drop k) ∧
      (truncateOldest request (requestedOf request) counter).truncatedMessages =
        UInt64.ofNat k ∧
      ((truncateOldest request (requestedOf request) counter).admitted = true ↔
        FitsFrom counter (requestedOf request) request.model.contextLimit
          messages k) ∧
      (∀ j < k, ¬ FitsFrom counter (requestedOf request)
        request.model.contextLimit messages j) ∧
      (k = messages.length ∨ FitsFrom counter (requestedOf request)
        request.model.contextLimit messages k) := by
  obtain ⟨k, hk, heq, hbefore, hend⟩ := dropOldest_spec counter
    (requestedOf request) request.model.contextLimit messages 0
  refine ⟨k, hk, ?_, ?_, ?_, hbefore, hend⟩
  · unfold truncateOldest
    rw [hprompt]
    simp only [heq]
  · unfold truncateOldest
    rw [hprompt]
    simp only [heq, UInt64.zero_add]
  · unfold truncateOldest FitsFrom
    rw [hprompt]
    simp only [heq, decide_eq_true_eq]

/-! ## Soundness -/

/-- An admitted request fits, in numbers, and asks the model for no more than
it gives; a refused one is granted nothing. -/
structure BudgetSound (request : BudgetRequest) (d : BudgetDecision) :
    Prop where
  fits : d.admitted = true →
    d.promptTokens.toNat + d.admittedMaxTokens.toNat ≤
      request.model.contextLimit.toNat
  capped : d.admitted = true →
    d.admittedMaxTokens.toNat ≤ request.model.maxOutputTokens.toNat
  refused : d.admitted = false → d.admittedMaxTokens = 0

/-- A prompt of that many tokens and the requested output are beyond the range
of a word, by no more than the context limit. -/
def Overflows (request : BudgetRequest) (promptTokens : UInt64) : Prop :=
  2 ^ 64 ≤ promptTokens.toNat + (requestedOf request).toNat ∧
    promptTokens.toNat + (requestedOf request).toNat ≤
      2 ^ 64 + request.model.contextLimit.toNat

/-- No sum that is looked at overflows into the limit. The policy that does
not add has only the prompt of no tokens to fear. -/
def NoOverflow (request : BudgetRequest) : Prop :=
  match request.policy with
  | .strictReject => ¬ Overflows request (countPrompt request.prompt)
  | .reserveOutputFirst =>
      request.model.contextLimit < requestedOf request →
        countPrompt request.prompt ≠ 0
  | .truncateOldest =>
      match request.prompt with
      | .text text => ¬ Overflows request (countText text)
      | .chat messages =>
          ∀ k ≤ messages.length,
            (∀ j < k, ¬ FitsFrom approxTokenCounter (requestedOf request)
              request.model.contextLimit messages j) →
            ¬ Overflows request (countPrompt (.chat (messages.drop k)))

theorem budgetSound_iff_fits (hd : Decides counter request d) :
    BudgetSound request d ↔ (d.admitted = true →
      d.promptTokens.toNat + (requestedOf request).toNat ≤
        request.model.contextLimit.toNat) := by
  have hcapped := UInt64.le_iff_toNat_le.mp hd.granted_le
  have hgranted := hd.granted
  constructor
  · intro h hadmitted
    rw [hadmitted, if_pos rfl] at hgranted
    rw [← hgranted]
    exact h.fits hadmitted
  · intro h
    refine ⟨?_, fun _ => hcapped, ?_⟩
    · intro hadmitted
      rw [hgranted, hadmitted, if_pos rfl]
      exact h hadmitted
    · intro hrefused
      rw [hgranted, hrefused]
      rfl

/-- A sum that is tested against the limit is right about it unless it
overflows into it. -/
theorem fits_iff_not_overflows (request : BudgetRequest)
    (promptTokens : UInt64) :
    (promptTokens + requestedOf request ≤ request.model.contextLimit →
      promptTokens.toNat + (requestedOf request).toNat ≤
        request.model.contextLimit.toNat) ↔
      ¬ Overflows request promptTokens := by
  have hlimit := request.model.contextLimit.toNat_lt
  rw [add_le_iff]
  unfold Overflows
  constructor
  · intro h hover
    have := h (.inr hover)
    omega
  · rintro h (hfits | hover)
    · exact hfits
    · exact absurd hover h

theorem strict_sound_iff (request : BudgetRequest) :
    BudgetSound request
        (strictDecision request (requestedOf request) approxTokenCounter) ↔
      ¬ Overflows request (countPrompt request.prompt) := by
  rw [budgetSound_iff_fits (strictDecision_decides request approxTokenCounter),
    ← fits_iff_not_overflows]
  show (decide _ = true → _) ↔ _
  rw [decide_eq_true_eq]
  rfl

theorem reserve_sound_iff (request : BudgetRequest) :
    BudgetSound request
        (reserveOutputFirst request (requestedOf request) approxTokenCounter) ↔
      (request.model.contextLimit < requestedOf request →
        countPrompt request.prompt ≠ 0) := by
  rw [budgetSound_iff_fits
    (reserveOutputFirst_decides request approxTokenCounter)]
  show (decide (countPrompt request.prompt ≤ _) = true →
    (countPrompt request.prompt).toNat + _ ≤ _) ↔ _
  rw [decide_eq_true_eq, UInt64.le_iff_toNat_le, toNat_saturatingSub,
    UInt64.lt_iff_toNat_lt, ne_eq, ← UInt64.toNat_inj]
  show _ ↔ (_ → ¬ _ = 0)
  omega

theorem truncate_sound_iff {messages : List ChatMessage}
    (hprompt : request.prompt = .chat messages) :
    BudgetSound request
        (truncateOldest request (requestedOf request) approxTokenCounter) ↔
      ∀ k ≤ messages.length,
        (∀ j < k, ¬ FitsFrom approxTokenCounter (requestedOf request)
          request.model.contextLimit messages j) →
        ¬ Overflows request (countPrompt (.chat (messages.drop k))) := by
  have hdecides := truncateOldest_decides request approxTokenCounter
  obtain ⟨k, hk, hkept, _, hadmitted, hbefore, hend⟩ :=
    truncateOldest_chat hprompt
  rw [budgetSound_iff_fits hdecides, hdecides.promptTokens, hkept, hadmitted]
  have hat : (FitsFrom approxTokenCounter (requestedOf request)
      request.model.contextLimit messages k →
        (countPrompt (.chat (messages.drop k))).toNat +
          (requestedOf request).toNat ≤ request.model.contextLimit.toNat) ↔
      ¬ Overflows request (countPrompt (.chat (messages.drop k))) :=
    fits_iff_not_overflows request _
  refine hat.trans ⟨?_, fun h => h k hk hbefore⟩
  intro hno j hj hbefore'
  -- The loop stops at `k`, so `j` is `k` or lies behind a suffix that fits.
  rcases Nat.lt_trichotomy j k with hlt | rfl | hgt
  · intro hover
    exact hbefore j hlt ((add_le_iff _ _ _).mpr (.inr hover))
  · exact hno
  · rcases hend with rfl | hfits
    · omega
    · exact absurd hfits (hbefore' k hgt)

/-- Every decision is sound, if and only if no sum the policy looks at goes
once around and ends below the limit. -/
theorem budget_sound_iff (request : BudgetRequest) (d : BudgetDecision)
    (h : decideBudget request approxTokenCounter = .ok d) :
    BudgetSound request d ↔ NoOverflow request := by
  rw [decideBudget_ok h]
  unfold NoOverflow
  split
  · exact strict_sound_iff request
  · exact reserve_sound_iff request
  · cases hprompt : request.prompt with
    | text text =>
        have hstrict := strict_sound_iff request
        rw [hprompt] at hstrict
        rw [truncateOldest, hprompt]
        exact hstrict
    | chat messages => exact truncate_sound_iff hprompt

/-- A model that is asked for five tokens after a prompt of one. -/
def smallRequest : BudgetRequest :=
  { prompt := .text "hi"
    requestedMaxTokens := some 5
    policy := .strictReject
    model := ⟨"m", 4096, 256, 1024⟩ }

theorem budget_sound_iff_small :
    ∃ d, decideBudget smallRequest approxTokenCounter = .ok d ∧
      d.admitted = true ∧ BudgetSound smallRequest d := by
  refine ⟨_, rfl, by decide, (budget_sound_iff smallRequest _ rfl).mpr ?_⟩
  show ¬ Overflows smallRequest (countPrompt (.text "hi"))
  unfold Overflows
  decide

/-- All tokens there are, of a model that sets no limit to its output: the sum
wraps to zero. -/
theorem budget_unsound_wrapped :
    ∃ d, decideBudget { smallRequest with
        requestedMaxTokens := some 0xffffffffffffffff
        model := ⟨"m", 4096, 256, 0xffffffffffffffff⟩ } approxTokenCounter =
          .ok d ∧
      d.admitted = true ∧ d.promptTokens = 1 ∧
      d.admittedMaxTokens.toNat = 2 ^ 64 - 1 ∧
      ¬ BudgetSound { smallRequest with
        requestedMaxTokens := some 0xffffffffffffffff
        model := ⟨"m", 4096, 256, 0xffffffffffffffff⟩ } d := by
  refine ⟨_, rfl, by decide, by decide, by decide, ?_⟩
  intro hsound
  have hfits := hsound.fits (by decide)
  revert hfits
  decide

end DataPlane.Proofs
