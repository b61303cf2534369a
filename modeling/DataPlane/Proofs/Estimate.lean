import DataPlane.Proofs.Admission
import DataPlane.Proofs.Policies

/-!
# Two estimates of one prompt

An engine whose runtime reports no usage counts the words of the prompt it was
given: of all the contents together, joined by newlines. Admission has counted
the messages one by one, and every part of it at least by its words. A newline
is whitespace, so joining neither merges words nor splits any, and the engine's
number is the smaller one.

Admission's number is a word of the machine. `InMemory` is what a process can
hold of messages at all; within it the sum does not wrap.
-/

namespace DataPlane.Proofs

open DataPlane DataPlane.Ref

/-! ## Words -/

theorem splitOnP_length_filter_le {α : Type} (p : α → Bool) (xs : List α) :
    ((xs.splitOnP p).filter (!·.isEmpty)).length ≤ xs.length := by
  induction xs with
  | nil => rfl
  | cons x xs ih =>
      rw [List.splitOnP_cons_eq_if_modifyHead]
      split
      · simp only [List.filter_cons, List.isEmpty_nil, Bool.not_true,
          List.length_cons]
        exact Nat.le_succ_of_le ih
      · -- The new element makes at most one piece non-empty that was empty.
        rcases hsplit : xs.splitOnP p with _ | ⟨piece, pieces⟩
        · exact Nat.zero_le _
        · rw [hsplit, List.filter_cons] at ih
          rw [List.modifyHead_cons, List.filter_cons_of_pos rfl]
          simp only [List.length_cons]
          split at ih
          · simp only [List.length_cons] at ih
            omega
          · omega

/-- A text has no more words than characters. -/
theorem words_le_length (text : String) :
    (splitWhitespace text).length ≤ text.length :=
  splitOnP_length_filter_le isWhitespace text.toList

/-- A newline ends a word and begins none. -/
theorem words_join_cons (text : String) {texts : List String}
    (h : texts ≠ []) :
    splitWhitespace ("\n".intercalate (text :: texts)) =
      splitWhitespace text ++ splitWhitespace ("\n".intercalate texts) := by
  have hlist : ("\n".intercalate (text :: texts)).toList =
      text.toList ++ '\n' :: ("\n".intercalate texts).toList := by
    rw [String.intercalate_cons_of_ne_nil h, String.toList_append,
      String.toList_append, List.append_assoc]
    rfl
  unfold splitWhitespace
  rw [hlist, List.splitOnP_append_cons _ _ (by decide), List.filter_append]

theorem words_join (texts : List String) :
    (splitWhitespace ("\n".intercalate texts)).length =
      (texts.map fun text => (splitWhitespace text).length).sum := by
  induction texts with
  | nil => rfl
  | cons text texts ih =>
      cases texts with
      | nil => simp
      | cons next texts =>
          rw [words_join_cons text (List.cons_ne_nil _ _), List.length_append,
            ih, List.map_cons (l := next :: texts), List.sum_cons]

/-! ## The engine's number -/

/-- The contents an engine finds are those that were written. -/
theorem contents_read (messages : List ChatMessage) :
    (messages.map ChatMessage.toJson).filterMap (fun message =>
      (message.get "content").bind readString) = messages.map (·.content) := by
  induction messages with
  | nil => rfl
  | cons message messages ih =>
      have hcontent : ((ChatMessage.toJson message).get "content").bind
          readString = some message.content := rfl
      rw [List.map_cons, List.filterMap_cons, hcontent, ih, List.map_cons]

theorem extractPrompt_read (request : GenerateRequest) (p : Preflight) :
    extractPrompt (engineRequest (runtimeRequest request p)) =
      if request.messages = [] then request.prompt
      else "\n".intercalate (request.messages.map (·.content)) := by
  unfold extractPrompt engineRequest runtimeRequest
  dsimp only
  split
  · next messages hmessages =>
      split at hmessages
      · cases hmessages
      · next hne =>
          cases hmessages
          rw [if_neg hne, contents_read]
  · next hnone =>
      split at hnone
      · next hnil =>
          rw [if_pos hnil]
          split
          · next hempty => rw [hempty]; rfl
          · rfl
      · cases hnone

/-! ## The counter's number -/

theorem words_le_textTokenCount (text : String) :
    (splitWhitespace text).length ≤ textTokenCount text :=
  le_trans (le_max_left _ _) (le_max_left _ _)

/-- The words of all the contents are among the tokens of the messages. -/
theorem words_le_tokenCount (messages : List ChatMessage) :
    (splitWhitespace ("\n".intercalate (messages.map (·.content)))).length ≤
      tokenCount (.chat messages) := by
  rw [words_join, tokenCount]
  refine Nat.le_add_right_of_le ?_
  induction messages with
  | nil => exact Nat.le_refl 0
  | cons message messages ih =>
      simp only [List.map_cons, List.sum_cons]
      have hwords := words_le_textTokenCount message.content
      omega

/-- What the strings of a request take: two of 24 bytes for a message, and the
bytes they point to. -/
def memoryOf (request : GenerateRequest) : Nat :=
  (request.messages.map fun message =>
    48 + message.role.utf8ByteSize + message.content.utf8ByteSize).sum +
      request.prompt.utf8ByteSize

/-- A request of the process is somewhere in its 64-bit address space. -/
def InMemory (request : GenerateRequest) : Prop := memoryOf request < 2 ^ 64

instance (request : GenerateRequest) : Decidable (InMemory request) :=
  inferInstanceAs (Decidable (_ < _))

theorem length_le_utf8ByteSize (text : String) :
    text.length ≤ text.utf8ByteSize := by
  induction text using String.push_induction with
  | empty => exact Nat.le_refl 0
  | push text c ih =>
      have hc : 0 < c.utf8Size := c.utf8Size_pos
      rw [String.length_push, String.utf8ByteSize_push]
      omega

theorem textTokenCount_le (text : String) :
    textTokenCount text ≤ max text.utf8ByteSize 1 := by
  have hwords := words_le_length text
  have hbytes := length_le_utf8ByteSize text
  unfold textTokenCount
  omega

theorem tokenCount_chat_le (messages : List ChatMessage) :
    tokenCount (.chat messages) ≤ (messages.map fun message =>
      48 + message.role.utf8ByteSize + message.content.utf8ByteSize).sum +
        2 := by
  rw [tokenCount]
  refine Nat.add_le_add_right ?_ 2
  induction messages with
  | nil => exact Nat.le_refl 0
  | cons message messages ih =>
      simp only [List.map_cons, List.sum_cons]
      have hrole := textTokenCount_le message.role
      have hcontent := textTokenCount_le message.content
      omega

theorem tokenCount_lt {request : GenerateRequest} {prompt : Prompt}
    (hprompt : requestPrompt request = .ok prompt) (h : InMemory request) :
    tokenCount prompt < 2 ^ 64 := by
  rw [requestPrompt_eq hprompt]
  unfold InMemory memoryOf at h
  split
  · have htext := textTokenCount_le request.prompt
    rw [tokenCount]
    omega
  · next hne =>
      cases hmessages : request.messages with
      | nil => exact absurd hmessages hne
      | cons message messages =>
          have hchat := tokenCount_chat_le messages
          have hrole := textTokenCount_le message.role
          have hcontent := textTokenCount_le message.content
          rw [hmessages] at h
          simp only [tokenCount, List.map_cons, List.sum_cons] at hchat h ⊢
          omega

/-! ## The comparison -/

theorem estimate_le_tokenCount {request : GenerateRequest} {prompt : Prompt}
    (hprompt : requestPrompt request = .ok prompt) (p : Preflight) :
    estimateTokens (extractPrompt (engineRequest (runtimeRequest request p))) ≤
      tokenCount prompt := by
  rw [requestPrompt_eq hprompt, extractPrompt_read, estimateTokens]
  split
  · exact words_le_textTokenCount request.prompt
  · exact words_le_tokenCount request.messages

/-- For every request that has a prompt, an engine's own estimate is within what
admission has counted, and that is what the quota was charged. So is the usage
returned on an answer that reports none. -/
theorem estimate_le_reserved (serde : SerdeJson) (sha256 : String → String)
    (state : AppState) (request : GenerateRequest) (draws : Draws)
    (prompt : Prompt) (hprompt : requestPrompt request = .ok prompt)
    (hmemory : InMemory request) (p : Preflight)
    (hserde : serde.fromSlice (serde.toVec (runtimeRequest request p).toJson) =
      some (runtimeRequest request p).toJson.written)
    (r : EngineRuntimeRequest)
    (hr : readRuntimeRequest serde
      (generationJob serde sha256 state request p draws).requestJson =
        some r) :
    estimateTokens (extractPrompt r) ≤ (countPrompt prompt).toNat ∧
      (∀ authorization, preflight state authorization request = .ok p →
        p.budget.promptTokens = countPrompt prompt) ∧
      ∀ fromStr chunks usage,
        (streamOpenaiCompatible fromStr r chunks).2 = .ok usage →
        (readChunks fromStr chunks).2.usage.promptTokens = 0 →
        usage.promptTokens ≤ (countPrompt prompt).toNat := by
  rw [readRuntimeRequest_job hserde] at hr
  split at hr
  · cases hr
    have hestimate := estimate_le_tokenCount hprompt p
    rw [← toNat_countPrompt (tokenCount_lt hprompt hmemory)] at hestimate
    refine ⟨hestimate, ?_, ?_⟩
    · intro authorization hpreflight
      obtain ⟨prompt', hprompt', _, _, htokens⟩ := preflight_budget hpreflight
      rw [hprompt] at hprompt'
      cases hprompt'
      exact htokens
    · intro fromStr chunks usage husage hzero
      simp only [streamOpenaiCompatible, hzero, if_true] at husage
      split at husage
      · cases husage
      · cases husage
        exact hestimate
  · cases hr

/-- A chat of one message. -/
def sampleChat : GenerateRequest :=
  { sampleRequest 0x3f000000 with
    messages := [⟨"user", "hi there"⟩]
    prompt := "" }

/-- The chat as a value, before it is written. -/
def chatJson : Json :=
  .object
    [("model", .string "m"),
      ("messages", .array [.object
        [("role", .string "user"), ("content", .string "hi there")]]),
      ("prompt", .null), ("max_tokens", .int 5),
      ("temperature", .float 0x3f000000), ("stream", .bool true)]

/-- The text of the chat. -/
def chatText : List UInt8 :=
  ("\x7b\"model\":\"m\",\"messages\":[\x7b\"role\":\"user\"," ++
    "\"content\":\"hi there\"\x7d],\"prompt\":null,\"max_tokens\":5," ++
    "\"temperature\":0.5,\"stream\":true\x7d").toUTF8.data.toList

/-- `serde_json` as it deals with the chat. -/
def chatSerde : SerdeJson :=
  { toVec := fun _ => chatText
    fromSlice := fun bytes =>
      if bytes = chatText then some chatJson.written else none
    intToF32 := fun _ => 0 }

/-- Two words are charged as nine tokens, with the role and the overheads. -/
theorem estimate_le_reserved_chat :
    ∃ p r, preflight sampleState sampleAuthorization sampleChat = .ok p ∧
      readRuntimeRequest chatSerde
        (generationJob chatSerde id sampleState sampleChat p
          sampleDraws).requestJson = some r ∧
      p.budget.promptTokens = 9 ∧
      estimateTokens (extractPrompt r) ≤ p.budget.promptTokens.toNat := by
  obtain ⟨p, hp⟩ : ∃ p, preflight sampleState sampleAuthorization
      sampleChat = .ok p := ⟨_, rfl⟩
  have hfacts : (preflight sampleState sampleAuthorization
      sampleChat).toOption.map (fun p =>
        (p.model, p.budget.admittedMaxTokens, p.budget.promptTokens)) =
      some ("m", 5, 9) := by decide
  rw [hp] at hfacts
  simp only [Except.toOption, Option.map_some, Option.some.injEq,
    Prod.mk.injEq] at hfacts
  obtain ⟨hmodel, hadmitted, hprompt⟩ := hfacts
  have hserde : chatSerde.fromSlice
      (chatSerde.toVec (runtimeRequest sampleChat p).toJson) =
      some (runtimeRequest sampleChat p).toJson.written := by
    have hjson : (runtimeRequest sampleChat p).toJson = chatJson := by
      simp [runtimeRequest, sampleChat, sampleRequest,
        FrontendRuntimeRequest.toJson, ChatMessage.toJson, optionToJson,
        chatJson, hmodel, hadmitted]
    rw [hjson]
    simp only [chatSerde, if_true]
  have hread := readRuntimeRequest_of_finite id sampleState sampleDraws hserde
    (by decide)
  obtain ⟨hestimate, hreserved, _⟩ := estimate_le_reserved chatSerde id
    sampleState sampleChat sampleDraws (.chat [⟨"user", "hi there"⟩]) rfl
    (by decide) p hserde _ hread
  rw [← hreserved _ hp] at hestimate
  exact ⟨p, _, hp, hread, hprompt, hestimate⟩

end DataPlane.Proofs
