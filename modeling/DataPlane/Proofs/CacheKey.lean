import DataPlane.Lib.Separated
import DataPlane.Ref.Frontend

/-!
# What the cache key identifies

The key is the digest of the model and of the prompt as one text, in which the
roles and contents of a chat stand one after the other, a newline between any
two of them. A role or a content may have newlines of its own, and a prompt
that is no chat is such a text as it is. So the key identifies the lines of the
prompt, and not which message they belong to.

All of this is about prompts that the prefix takes whole.
-/

namespace DataPlane.Proofs

open DataPlane DataPlane.Lib DataPlane.Ref

/-- The prompt as one text, of which the prefix takes 4096 characters. -/
def renderedPrompt (request : GenerateRequest) : String :=
  if request.messages = [] then request.prompt
  else
    "\n".intercalate (request.messages.map fun message =>
      message.role ++ "\n" ++ message.content)

/-- The same list of messages, or no messages and the same text. -/
def SamePrompt (r r' : GenerateRequest) : Prop :=
  r.messages = r'.messages ∧ (r.messages = [] → r.prompt = r'.prompt)

/-- The texts a prompt is made of. -/
def promptFields (request : GenerateRequest) : List String :=
  if request.messages = [] then [request.prompt]
  else request.messages.flatMap fun message => [message.role, message.content]

/-- The lines of all of them, in order. -/
def promptLines (request : GenerateRequest) : List (List Char) :=
  pieces '\n' ((promptFields request).map String.toList)

/-- How many lines each of them has. -/
def lineCounts (request : GenerateRequest) : List Nat :=
  pieceCounts '\n' ((promptFields request).map String.toList)

/-- A chat in which no role and no content has a newline. -/
def PlainChat (request : GenerateRequest) : Prop :=
  request.messages ≠ [] ∧ ∀ message ∈ request.messages,
    '\n' ∉ message.role.toList ∧ '\n' ∉ message.content.toList

instance (request : GenerateRequest) : Decidable (PlainChat request) :=
  inferInstanceAs (Decidable (_ ∧ _))

instance (r r' : GenerateRequest) : Decidable (SamePrompt r r') :=
  inferInstanceAs (Decidable (_ ∧ _))

variable {r r' : GenerateRequest}

/-! ## The fields -/

theorem promptFields_ne_nil (request : GenerateRequest) :
    promptFields request ≠ [] := by
  unfold promptFields
  split
  · exact List.cons_ne_nil _ _
  · next hne =>
      cases hmessages : request.messages with
      | nil => exact absurd hmessages hne
      | cons message messages => exact List.cons_ne_nil _ _

/-- Roles and contents alternate, so they are the messages. -/
theorem messageFields_inj {messages messages' : List ChatMessage} :
    messages.flatMap (fun message => [message.role, message.content]) =
        messages'.flatMap (fun message => [message.role, message.content]) ↔
      messages = messages' := by
  constructor
  · intro h
    induction messages generalizing messages' with
    | nil =>
        cases messages' with
        | nil => rfl
        | cons => cases h
    | cons message messages ih =>
        cases messages' with
        | nil => cases h
        | cons message' messages' =>
            simp only [List.flatMap_cons, List.cons_append, List.nil_append,
              List.cons.injEq] at h
            obtain ⟨hrole, hcontent, hrest⟩ := h
            rw [ih hrest, List.cons.injEq, ChatMessage.mk.injEq]
            exact ⟨⟨hrole, hcontent⟩, rfl⟩
  · intro h
    rw [h]

/-- The fields are the prompt: a chat has two or more of them. -/
theorem promptFields_eq_iff :
    promptFields r = promptFields r' ↔ SamePrompt r r' := by
  unfold promptFields SamePrompt
  cases hr : r.messages with
  | nil =>
      cases hr' : r'.messages with
      | nil => simp
      | cons message messages => simp
  | cons message messages =>
      cases hr' : r'.messages with
      | nil => simp
      | cons message' messages' =>
          rw [if_neg (List.cons_ne_nil _ _), if_neg (List.cons_ne_nil _ _),
            messageFields_inj]
          simp

theorem promptFields_toList_inj :
    (promptFields r).map String.toList = (promptFields r').map String.toList ↔
      SamePrompt r r' := by
  rw [List.map_inj_right fun _ _ => String.toList_inj.mp]
  exact promptFields_eq_iff

/-! ## The text -/

theorem intercalate_messages (messages : List ChatMessage) :
    "\n".intercalate (messages.map fun message =>
        message.role ++ "\n" ++ message.content) =
      "\n".intercalate (messages.flatMap fun message =>
        [message.role, message.content]) := by
  induction messages with
  | nil => rfl
  | cons message messages ih =>
      cases messages with
      | nil => simp
      | cons next messages =>
          rw [List.map_cons, String.intercalate_cons_of_ne_nil (by simp), ih,
            List.flatMap_cons]
          simp [String.append_assoc]

/-- The text is the fields, joined by newlines. -/
theorem renderedPrompt_toList (request : GenerateRequest) :
    (renderedPrompt request).toList =
      ['\n'].intercalate ((promptFields request).map String.toList) := by
  have hjoined : renderedPrompt request =
      "\n".intercalate (promptFields request) := by
    unfold renderedPrompt promptFields
    split
    · exact String.intercalate_singleton.symm
    · exact intercalate_messages request.messages
  rw [hjoined, String.toList_intercalate]
  rfl

theorem renderedPrompt_eq_iff :
    renderedPrompt r = renderedPrompt r' ↔ promptLines r = promptLines r' := by
  have hne : ∀ request, (promptFields request).map String.toList ≠ [] := by
    intro request
    rw [ne_eq, List.map_eq_nil_iff]
    exact promptFields_ne_nil request
  rw [← String.toList_inj, renderedPrompt_toList, renderedPrompt_toList,
    joined_eq_iff (hne r) (hne r')]
  rfl

theorem samePrompt_iff_lines :
    SamePrompt r r' ↔
      promptLines r = promptLines r' ∧ lineCounts r = lineCounts r' := by
  rw [← promptFields_toList_inj]
  exact eq_iff_pieces

/-- A plain chat has its fields for lines. -/
theorem PlainChat.lines (h : PlainChat r) :
    promptLines r = (promptFields r).map String.toList := by
  refine pieces_of_notMem ?_
  rw [promptFields, if_neg h.1]
  simp only [List.mem_map, List.mem_flatMap, List.mem_cons, List.not_mem_nil,
    or_false]
  rintro _ ⟨field, ⟨message, hmessage, hfield⟩, rfl⟩
  obtain ⟨hrole, hcontent⟩ := h.2 message hmessage
  rcases hfield with rfl | rfl
  · exact hrole
  · exact hcontent

/-! ## The key -/

theorem promptPrefix_of_short (h : (renderedPrompt r).length ≤ 4096) :
    promptPrefix r = renderedPrompt r := by
  show String.ofList ((renderedPrompt r).toList.take 4096) = _
  rw [List.take_of_length_le (by rwa [String.length_toList]),
    String.ofList_toList]

/-- What is hashed. -/
def hashedText (model : String) (request : GenerateRequest) : String :=
  model ++ "\x00" ++ promptPrefix request

theorem cacheKey_eq_iff {sha256 : String → String} {model : String}
    (hsha : sha256 (hashedText model r) = sha256 (hashedText model r') →
      hashedText model r = hashedText model r') :
    cacheKey sha256 model (promptPrefix r) =
        cacheKey sha256 model (promptPrefix r') ↔
      promptPrefix r = promptPrefix r' := by
  constructor
  · intro hkey
    have hdigest := (String.append_right_inj _).mp hkey
    exact (String.append_right_inj _).mp (hsha hdigest)
  · intro hsame
    rw [hsame]

/-- Two prompts have the same key exactly if they have the same lines, and are
the same prompt exactly if the lines also belong to the same fields. Between
two texts, and between two chats without newlines in the fields, the key tells
all prompts apart. -/
theorem cacheKey_identifies (sha256 : String → String) (model : String)
    (r r' : GenerateRequest) (h : (renderedPrompt r).length ≤ 4096)
    (h' : (renderedPrompt r').length ≤ 4096)
    (hsha : sha256 (hashedText model r) = sha256 (hashedText model r') →
      hashedText model r = hashedText model r') :
    (cacheKey sha256 model (promptPrefix r) =
        cacheKey sha256 model (promptPrefix r') ↔
      promptLines r = promptLines r') ∧
    (SamePrompt r r' ↔
      cacheKey sha256 model (promptPrefix r) =
          cacheKey sha256 model (promptPrefix r') ∧
        lineCounts r = lineCounts r') ∧
    (r.messages = [] ∧ r'.messages = [] ∨ PlainChat r ∧ PlainChat r' →
      (cacheKey sha256 model (promptPrefix r) =
          cacheKey sha256 model (promptPrefix r') ↔ SamePrompt r r')) := by
  have hkey := cacheKey_eq_iff hsha
  rw [promptPrefix_of_short h, promptPrefix_of_short h'] at hkey ⊢
  have hlines := hkey.trans renderedPrompt_eq_iff
  refine ⟨hlines, ?_, ?_⟩
  · rw [hlines]
    exact samePrompt_iff_lines
  · rintro (⟨htext, htext'⟩ | ⟨hplain, hplain'⟩)
    · rw [hkey, renderedPrompt, renderedPrompt, if_pos htext, if_pos htext',
        SamePrompt, htext, htext']
      simp
    · rw [hlines, hplain.lines, hplain'.lines, promptFields_toList_inj]

/-- A request for the model `model-a`. -/
def requestWith (messages : List ChatMessage) (prompt : String) :
    GenerateRequest :=
  { model := "model-a"
    messages := messages
    prompt := prompt
    maxTokens := 0
    temperature := 0 }

/-- The digests of two prompts. -/
def digestOf (text : String) : String :=
  if text = "model-a\x00user\nhello" then
    "9b5c0efe54c3afbe15612750bcbec476830121fe8a7e0cdba3e0d61ca6175ccd"
  else if text = "model-a\x00user\nbye" then
    "606fee37b8d6f3dcbae639ca4afc9971450454e26d51c608648e25ede64884a2"
  else ""

theorem cacheKey_identifies_hello :
    cacheKey digestOf "model-a"
        (promptPrefix (requestWith [⟨"user", "hello"⟩] "")) ≠
      cacheKey digestOf "model-a"
        (promptPrefix (requestWith [⟨"user", "bye"⟩] "")) := by
  obtain ⟨_, _, hplain⟩ := cacheKey_identifies digestOf "model-a"
    (requestWith [⟨"user", "hello"⟩] "") (requestWith [⟨"user", "bye"⟩] "")
    (by decide) (by decide) (by decide)
  intro hkey
  have hsame := (hplain (.inr (by decide))).mp hkey
  revert hsame
  decide

/-- Two prompts the prefix takes whole have the same key. -/
def SharesKey (r r' : GenerateRequest) : Prop :=
  (renderedPrompt r).length ≤ 4096 ∧ (renderedPrompt r').length ≤ 4096 ∧
    ∀ sha256 model, cacheKey sha256 model (promptPrefix r) =
      cacheKey sha256 model (promptPrefix r')

theorem sharesKey_of_eq (h : (renderedPrompt r).length ≤ 4096)
    (h' : (renderedPrompt r').length ≤ 4096)
    (hsame : promptPrefix r = promptPrefix r') : SharesKey r r' := by
  refine ⟨h, h', ?_⟩
  intro sha256 model
  rw [hsame]

/-- A message and the text it is rendered as have the same key, whatever the
digest is. So have two messages and a message that quotes the second. -/
theorem cacheKey_shared :
    (SharesKey (requestWith [⟨"user", "hello"⟩] "")
        (requestWith [] "user\nhello") ∧
      ¬ SamePrompt (requestWith [⟨"user", "hello"⟩] "")
        (requestWith [] "user\nhello")) ∧
    SharesKey (requestWith [⟨"user", "a"⟩, ⟨"user", "b"⟩] "")
        (requestWith [⟨"user", "a\nuser\nb"⟩] "") ∧
      ¬ SamePrompt (requestWith [⟨"user", "a"⟩, ⟨"user", "b"⟩] "")
        (requestWith [⟨"user", "a\nuser\nb"⟩] "") :=
  ⟨⟨sharesKey_of_eq (by decide) (by decide) (by decide), by decide⟩,
    sharesKey_of_eq (by decide) (by decide) (by decide), by decide⟩

end DataPlane.Proofs
