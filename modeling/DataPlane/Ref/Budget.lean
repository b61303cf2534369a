import DataPlane.Ref.Wire
import Mathlib.Data.UInt

/-!
# Token budgets

`decide_budget` and its three policies. A `usize` is a 64-bit word and its
additions wrap, as they do in the release build, so the sums here are sums of
words and not of numbers. Counts start as numbers and become words: no text is
longer than memory.
-/

namespace DataPlane.Ref

open DataPlane

/-- What is to be counted: a text, or the messages of a chat. -/
inductive Prompt
  | text (text : String)
  | chat (messages : List ChatMessage)
  deriving DecidableEq, Repr

/-- The limits of a model. -/
structure ModelBudget where
  model : String
  contextLimit : UInt64
  defaultMaxTokens : UInt64
  maxOutputTokens : UInt64
  deriving DecidableEq, Repr

/-- What is done about a prompt that is too long. -/
inductive BudgetPolicy
  | strictReject
  | truncateOldest
  | reserveOutputFirst
  deriving DecidableEq, Repr

/-- What is to be decided. -/
structure BudgetRequest where
  prompt : Prompt
  requestedMaxTokens : Option UInt64
  policy : BudgetPolicy
  model : ModelBudget
  deriving DecidableEq, Repr

/-- The decision, with the counts it rests on and the prompt that is left. -/
structure BudgetDecision where
  admitted : Bool
  reason : String
  model : String
  promptTokens : UInt64
  requestedMaxTokens : UInt64
  admittedMaxTokens : UInt64
  availableGenerationTokens : UInt64
  truncatedMessages : UInt64
  prompt : Prompt
  deriving DecidableEq, Repr

/-- A model that nothing can be decided for. -/
inductive BudgetError
  | invalidContextLimit
  | invalidMaxOutputTokens
  deriving DecidableEq, Repr

/-- The `Display` of a `BudgetError`. -/
def BudgetError.message : BudgetError → String
  | .invalidContextLimit => "model context limit must be greater than zero"
  | .invalidMaxOutputTokens =>
      "model max output tokens must be greater than zero"

/-- The trait `TokenCounter`. -/
structure TokenCounter where
  countPrompt : Prompt → UInt64
  countText : String → UInt64

/-- `char::is_whitespace`, the Unicode property `White_Space`. -/
def isWhitespace (c : Char) : Bool :=
  let n := c.toNat
  (0x09 ≤ n && n ≤ 0x0d) || n = 0x20 || n = 0x85 || n = 0xa0 || n = 0x1680 ||
    (0x2000 ≤ n && n ≤ 0x200a) || n = 0x2028 || n = 0x2029 || n = 0x202f ||
    n = 0x205f || n = 0x3000

/-- `str::split_whitespace`, as lists of characters. -/
def splitWhitespace (text : String) : List (List Char) :=
  (text.toList.splitOnP isWhitespace).filter (!·.isEmpty)

/-- `usize::saturating_sub`. -/
def saturatingSub (a b : UInt64) : UInt64 :=
  if b ≤ a then a - b else 0

/-- `ApproxTokenCounter::count_text`: a token for every word or for every four
characters, whichever is more, and at least one. -/
def countText (text : String) : UInt64 :=
  let words := (splitWhitespace text).length
  let chars := text.length
  UInt64.ofNat (max (max words ((chars + 3) / 4)) 1)

/-- `ApproxTokenCounter::count_prompt`. -/
def countPrompt : Prompt → UInt64
  | .text text => countText text
  | .chat messages =>
      (messages.map fun message =>
        countText message.role + countText message.content + 4).sum + 2

/-- `ApproxTokenCounter`. -/
def approxTokenCounter : TokenCounter := ⟨countPrompt, countText⟩

/-- `StrictReject`: the prompt as it is, or nothing. -/
def strictDecision (request : BudgetRequest) (requested : UInt64)
    (counter : TokenCounter) : BudgetDecision :=
  let promptTokens := counter.countPrompt request.prompt
  let available := saturatingSub request.model.contextLimit promptTokens
  let admitted := decide (promptTokens + requested ≤ request.model.contextLimit)
  let reason :=
    if admitted then "admitted"
    else
      "prompt_tokens (" ++ toString promptTokens ++ ") + max_tokens (" ++
        toString requested ++ ") exceeds context_limit (" ++
        toString request.model.contextLimit ++ ")"
  { admitted := admitted
    reason := reason
    model := request.model.model
    promptTokens := promptTokens
    requestedMaxTokens := requested
    admittedMaxTokens := if admitted then requested else 0
    availableGenerationTokens := available
    truncatedMessages := 0
    prompt := request.prompt }

/-- `ReserveOutputFirst`: what the output leaves is for the prompt. -/
def reserveOutputFirst (request : BudgetRequest) (requested : UInt64)
    (counter : TokenCounter) : BudgetDecision :=
  let promptTokens := counter.countPrompt request.prompt
  let promptBudget := saturatingSub request.model.contextLimit requested
  let admitted := decide (promptTokens ≤ promptBudget)
  let reason :=
    if admitted then "admitted with requested output reserved"
    else
      "prompt_tokens (" ++ toString promptTokens ++
        ") exceeds prompt budget after reserving output (" ++
        toString promptBudget ++ ")"
  { admitted := admitted
    reason := reason
    model := request.model.model
    promptTokens := promptTokens
    requestedMaxTokens := requested
    admittedMaxTokens := if admitted then requested else 0
    availableGenerationTokens :=
      saturatingSub request.model.contextLimit promptTokens
    truncatedMessages := 0
    prompt := request.prompt }

/-- The loop of `truncate_oldest`: what is left, and how many messages went. -/
def dropOldest (counter : TokenCounter) (requested contextLimit : UInt64) :
    List ChatMessage → UInt64 → List ChatMessage × UInt64
  | [], truncated => ([], truncated)
  | message :: messages, truncated =>
      if counter.countPrompt (.chat (message :: messages)) + requested >
          contextLimit then
        dropOldest counter requested contextLimit messages (truncated + 1)
      else (message :: messages, truncated)

/-- `TruncateOldest`: a chat loses its oldest messages until it fits. -/
def truncateOldest (request : BudgetRequest) (requested : UInt64)
    (counter : TokenCounter) : BudgetDecision :=
  match request.prompt with
  | .text _ => strictDecision request requested counter
  | .chat messages =>
      let (messages, truncated) :=
        dropOldest counter requested request.model.contextLimit messages 0
      let prompt := Prompt.chat messages
      let promptTokens := counter.countPrompt prompt
      let admitted :=
        decide (promptTokens + requested ≤ request.model.contextLimit)
      let reason :=
        if admitted && decide (truncated > 0) then
          "admitted after truncating " ++ toString truncated ++
            " oldest messages"
        else if admitted then "admitted"
        else "request still exceeds context limit after truncating all messages"
      { admitted := admitted
        reason := reason
        model := request.model.model
        promptTokens := promptTokens
        requestedMaxTokens := requested
        admittedMaxTokens := if admitted then requested else 0
        availableGenerationTokens :=
          saturatingSub request.model.contextLimit promptTokens
        truncatedMessages := truncated
        prompt := prompt }

/-- `decide_budget`: check the model, clamp the request, follow the policy. -/
def decideBudget (request : BudgetRequest) (counter : TokenCounter) :
    Except BudgetError BudgetDecision :=
  if request.model.contextLimit = 0 then .error .invalidContextLimit
  else if request.model.maxOutputTokens = 0 then .error .invalidMaxOutputTokens
  else
    let requested :=
      min (request.requestedMaxTokens.getD request.model.defaultMaxTokens)
        request.model.maxOutputTokens
    match request.policy with
    | .strictReject => .ok (strictDecision request requested counter)
    | .reserveOutputFirst => .ok (reserveOutputFirst request requested counter)
    | .truncateOldest => .ok (truncateOldest request requested counter)

end DataPlane.Ref
