import DataPlane.Ref.Broker
import DataPlane.Ref.Budget
import DataPlane.Ref.Runtime

/-!
# Admission

`admit_and_dispatch`, from the headers to the entry in the request stream. What
comes before the first broker command decides without side effects whether the
request is admitted and to what budget; that part is `preflight`. The commands
follow one after the other, and each of them may fail. One that fails has no
effect, the error is what the call makes of it.

The two random ids and the two readings of the clock are arguments.
-/

namespace DataPlane.Ref

open DataPlane

/-- The fields of the frontend's `ModelConfig` that reach a request. -/
structure ModelConfig where
  id : String
  revision : String
  endpoint : String
  contextLimit : UInt64
  defaultMaxTokens : UInt64
  maxOutputTokens : UInt64
  deriving DecidableEq, Repr

/-- `AppState`, without the connections. -/
structure AppState where
  model : ModelConfig
  apiKeys : List String
  quota : QuotaLimits
  generationTimeoutMs : Nat
  streams : StreamsConfig

/-- What `error_response` answers: a status code and the message of the body,
whose `type` is always `inference_error`. -/
structure ErrorResponse where
  status : Nat
  message : String
  deriving DecidableEq, Repr

/-- `bearer_token`, from the bytes of the first `Authorization` header.
`HeaderValue::to_str` takes visible ASCII, spaces and tabs only. -/
def bearerToken (authorization : Option (List UInt8)) : Option String :=
  match authorization with
  | none => none
  | some bytes =>
      if bytes.all fun b => (32 ≤ b && b < 127) || b = 9 then
        let chars := bytes.map fun b => Char.ofNat b.toNat
        if "Bearer ".toList.isPrefixOf chars then
          some (String.ofList (chars.drop 7))
        else none
      else none

/-- `authenticate`. -/
def authenticate (state : AppState) (authorization : Option (List UInt8)) :
    Except ErrorResponse String :=
  match bearerToken authorization with
  | none => .error ⟨401, "missing bearer token"⟩
  | some token =>
      if token ∈ state.apiKeys then .ok token
      else .error ⟨403, "invalid API key"⟩

/-- `request_prompt`. -/
def requestPrompt (request : GenerateRequest) : Except String Prompt :=
  if request.messages ≠ [] then .ok (.chat request.messages)
  else if request.prompt = "" then
    .error "either messages or prompt is required"
  else .ok (.text request.prompt)

/-- The first 4096 characters of the rendered prompt. -/
def promptPrefix (request : GenerateRequest) : String :=
  let value :=
    if request.messages = [] then request.prompt
    else
      "\n".intercalate (request.messages.map fun message =>
        message.role ++ "\n" ++ message.content)
  String.ofList (value.toList.take 4096)

/-- `cache_key`; `sha256` is the hexadecimal digest. -/
def cacheKey (sha256 : String → String) (model promptPrefix : String) :
    String :=
  "sha256:" ++ sha256 (model ++ "\x00" ++ promptPrefix)

/-- What is settled about a request before the first broker command. -/
structure Preflight where
  apiKey : String
  model : String
  budget : BudgetDecision
  deriving DecidableEq, Repr

/-- `admit_and_dispatch` up to the reservation. -/
def preflight (state : AppState) (authorization : Option (List UInt8))
    (request : GenerateRequest) : Except ErrorResponse Preflight :=
  match authenticate state authorization with
  | .error response => .error response
  | .ok apiKey =>
      match requestPrompt request with
      | .error message => .error ⟨400, message⟩
      | .ok prompt =>
          let model :=
            if request.model = "" then state.model.id else request.model
          if model ≠ state.model.id then .error ⟨404, "model is not registered"⟩
          else
            let budgetRequest : BudgetRequest :=
              { prompt := prompt
                requestedMaxTokens :=
                  if 0 < request.maxTokens then some request.maxTokens else none
                policy := .strictReject
                model :=
                  { model := model
                    contextLimit := state.model.contextLimit
                    defaultMaxTokens := state.model.defaultMaxTokens
                    maxOutputTokens := state.model.maxOutputTokens } }
            match decideBudget budgetRequest approxTokenCounter with
            | .error e => .error ⟨400, e.message⟩
            | .ok budget =>
                if budget.admitted then .ok ⟨apiKey, model, budget⟩
                else .error ⟨400, budget.reason⟩

/-- The `RuntimeRequest` of an admitted request. -/
def runtimeRequest (request : GenerateRequest) (p : Preflight) :
    FrontendRuntimeRequest :=
  { model := p.model
    messages := if request.messages = [] then none else some request.messages
    prompt := if request.prompt = "" then none else some request.prompt
    maxTokens := p.budget.admittedMaxTokens
    temperature := request.temperature
    stream := true }

/-- What a call draws and reads: two UUIDs, and the clock at the reservation
and at the job. -/
structure Draws where
  reservationId : String
  requestId : String
  reservedAtMs : Nat
  publishedAtMs : Nat
  deriving DecidableEq, Repr

/-- The `GenerationJob` of an admitted request. -/
def generationJob (serde : SerdeJson) (sha256 : String → String)
    (state : AppState) (request : GenerateRequest) (p : Preflight)
    (draws : Draws) : GenerationJob :=
  { schemaVersion := schemaVersion
    requestId := draws.requestId
    modelId := p.model
    modelRevision := state.model.revision
    modelEndpoint := state.model.endpoint
    requestJson := serde.toVec (runtimeRequest request p).toJson
    deadlineUnixMs := draws.publishedAtMs + state.generationTimeoutMs
    reservationId := draws.reservationId
    cache := some
      { cacheKey := cacheKey sha256 p.model (promptPrefix request)
        prefixTokensEstimate := p.budget.promptTokens.toNat } }

/-- What is known of a call that was admitted. -/
structure Admission where
  requestId : String
  requestEntryId : StreamId
  reservationId : String
  promptTokens : Nat
  deriving DecidableEq, Repr

/-- Which of the commands of a call fail; a failing reserve with the text of
its error. -/
structure Faults where
  reserve : Option String
  xadd : Bool
  pipeline : Bool
  cancel : Bool
  deriving DecidableEq, Repr

/-- `publish_generation`: the job, then its status. -/
def publishGeneration (cfg : StreamsConfig) (b : Broker) (job : GenerationJob)
    (faults : Faults) : Option StreamId × Broker :=
  if faults.xadd then (none, b)
  else
    let (entryId, b) := b.appendRequest (.job job)
    if faults.pipeline then (none, b)
    else (some entryId, b.recordQueued cfg job entryId)

/-- The reservation, or the error the command fails with. -/
def reserveCommand (sha256 : String → String) (state : AppState) (b : Broker)
    (p : Preflight) (draws : Draws) (faults : Faults) :
    Except QuotaError QuotaReservation × QuotaDb :=
  match faults.reserve with
  | some message => (.error (.broker message), b.quota)
  | none =>
      reserveQuota sha256 state.quota b.quota b.now draws.reservationId
        draws.reservedAtMs p.apiKey p.budget.promptTokens.toNat
        p.budget.admittedMaxTokens.toNat

/-- `admit_and_dispatch`. -/
def admitAndDispatch (serde : SerdeJson) (sha256 : String → String)
    (state : AppState) (b : Broker) (authorization : Option (List UInt8))
    (request : GenerateRequest) (draws : Draws) (faults : Faults) :
    Except ErrorResponse Admission × Broker :=
  match preflight state authorization request with
  | .error response => (.error response, b)
  | .ok p =>
      match reserveCommand sha256 state b p draws faults with
      | (.error e, quota) => (.error ⟨429, e.message⟩, { b with quota := quota })
      | (.ok reservation, quota) =>
          let b := { b with quota := quota }
          let job := generationJob serde sha256 state request p draws
          match publishGeneration state.streams b job faults with
          | (some entryId, b) =>
              (.ok
                { requestId := draws.requestId
                  requestEntryId := entryId
                  reservationId := reservation.id
                  promptTokens := p.budget.promptTokens.toNat }, b)
          | (none, b) =>
              (.error ⟨502, "failed to dispatch generation"⟩,
                if faults.cancel then b else b.cancel reservation.id)

end DataPlane.Ref
