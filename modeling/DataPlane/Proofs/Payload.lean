import DataPlane.Ref.Frontend

/-!
# The request crosses to the engine

The frontend writes its `RuntimeRequest` and the engine reads its own from the
same bytes. Field by field the two agree, with one exception: a temperature
that is not finite is written as `null`, which the engine's `f32` does not
accept. Nothing on the way in excludes such a temperature, so a request can be
admitted, charged and dispatched only to fail in every engine that reads it.
-/

namespace DataPlane.Proofs

open DataPlane DataPlane.Ref

/-- A message as the engine finds it in the array. -/
def readChatMessage : Json → Option ChatMessage
  | .object fields => do
      let role ← requiredField readString fields "role"
      let content ← requiredField readString fields "content"
      return ⟨role, content⟩
  | _ => none

/-- The engine's request says what the client's does. -/
structure Carries (state : AppState) (request : GenerateRequest)
    (budget : BudgetDecision) (r : EngineRuntimeRequest) : Prop where
  model : r.model =
    if request.model = "" then state.model.id else request.model
  messages : (r.messages.getD []).map readChatMessage =
    request.messages.map some
  prompt : r.prompt.getD "" = request.prompt
  maxTokens : r.maxTokens = budget.admittedMaxTokens
  temperature : r.temperature = request.temperature

/-- The frontend's request as the engine has it, the messages still values. -/
def engineRequest (r : FrontendRuntimeRequest) : EngineRuntimeRequest :=
  ⟨r.model, r.messages.map (·.map ChatMessage.toJson), r.prompt, r.maxTokens,
    r.temperature⟩

/-! ## Writing -/

theorem readChatMessage_toJson (message : ChatMessage) :
    readChatMessage (ChatMessage.toJson message) = some message := by
  simp [readChatMessage, ChatMessage.toJson, requiredField, readField, readString]

theorem writtenValues_messages (messages : List ChatMessage) :
    Json.writtenValues (messages.map ChatMessage.toJson) =
      messages.map ChatMessage.toJson := by
  induction messages with
  | nil => rfl
  | cons message messages ih =>
      simp only [List.map_cons, Json.writtenValues, ih, ChatMessage.toJson,
        Json.written, Json.writtenFields]

theorem written_messages (messages : Option (List ChatMessage)) :
    (optionToJson (fun ms => .array (ms.map ChatMessage.toJson))
      messages).written =
      optionToJson (fun ms => .array (ms.map ChatMessage.toJson)) messages := by
  cases messages with
  | none => rfl
  | some ms => simp only [optionToJson, Json.written, writtenValues_messages]

theorem written_string (text : Option String) :
    (optionToJson Json.string text).written = optionToJson .string text := by
  cases text <;> rfl

/-! ## Reading -/

theorem readOption_messages (messages : Option (List ChatMessage)) :
    readOption readArray (optionToJson
      (fun ms => .array (ms.map ChatMessage.toJson)) messages) =
      some (messages.map (·.map ChatMessage.toJson)) := by
  cases messages <;> rfl

theorem readOption_string (text : Option String) :
    readOption readString (optionToJson .string text) = some text := by
  cases text <;> rfl

theorem readUsize_toNat (n : UInt64) : readUsize (.int n.toNat) = some n := by
  have hlt : n.toNat < 2 ^ 64 := n.toNat_lt
  simp [readUsize]
  omega

/-- What the engine makes of what the frontend wrote. -/
theorem ofJson_written (serde : SerdeJson) (r : FrontendRuntimeRequest) :
    EngineRuntimeRequest.ofJson serde r.toJson.written =
      if isFinite r.temperature then some (engineRequest r) else none := by
  have hwritten : r.toJson.written = .object
      [("model", .string r.model),
        ("messages", optionToJson
          (fun ms => .array (ms.map ChatMessage.toJson)) r.messages),
        ("prompt", optionToJson .string r.prompt),
        ("max_tokens", .int r.maxTokens.toNat),
        ("temperature",
          if isFinite r.temperature then .float r.temperature else .null),
        ("stream", .bool r.stream)] := by
    simp only [FrontendRuntimeRequest.toJson, Json.written, Json.writtenFields,
      written_messages, written_string]
  rw [hwritten]
  simp only [EngineRuntimeRequest.ofJson, requiredField, optionalField,
    readField]
  cases isFinite r.temperature <;>
    simp [readString, readF32, readOption_messages, readOption_string,
      readUsize_toNat, engineRequest]

/-! ## Admission -/

theorem preflight_model {state : AppState}
    {authorization : Option (List UInt8)} {request : GenerateRequest}
    {p : Preflight} (h : preflight state authorization request = .ok p) :
    p.model = if request.model = "" then state.model.id else request.model := by
  unfold preflight at h
  dsimp only at h
  generalize (if request.model = "" then state.model.id else request.model) = m
    at h ⊢
  split at h
  · cases h
  · split at h
    · cases h
    · split at h
      · cases h
      · split at h
        · cases h
        · split at h
          · cases h; rfl
          · cases h

/-- An admitted call has put its job at the end of the request stream. -/
theorem admitAndDispatch_ok {serde : SerdeJson} {sha256 : String → String}
    {state : AppState} {b b' : Broker} {authorization : Option (List UInt8)}
    {request : GenerateRequest} {draws : Draws} {faults : Faults}
    {admission : Admission}
    (h : admitAndDispatch serde sha256 state b authorization request draws
      faults = (.ok admission, b')) :
    ∃ p, preflight state authorization request = .ok p ∧
      b'.requests.entries = b.requests.entries ++
        [⟨admission.requestEntryId,
          .job (generationJob serde sha256 state request p draws)⟩] := by
  unfold admitAndDispatch at h
  split at h
  · cases h
  · next p hp =>
      refine ⟨p, hp, ?_⟩
      split at h
      · cases h
      · dsimp only [publishGeneration] at h
        split at h
        · next hpub =>
            cases h
            split_ifs at hpub
            · cases hpub
            · cases hpub
            · cases hpub; rfl
        · cases h

/-- What the engine reads in the job of an admitted request. -/
theorem readRuntimeRequest_job {serde : SerdeJson} {sha256 : String → String}
    {state : AppState} {request : GenerateRequest} {p : Preflight}
    {draws : Draws}
    (hserde : serde.fromSlice (serde.toVec (runtimeRequest request p).toJson) =
      some (runtimeRequest request p).toJson.written) :
    readRuntimeRequest serde
      (generationJob serde sha256 state request p draws).requestJson =
        if isFinite request.temperature then
          some (engineRequest (runtimeRequest request p))
        else none := by
  rw [readRuntimeRequest, generationJob, hserde]
  exact ofJson_written serde (runtimeRequest request p)

theorem readRuntimeRequest_of_finite {serde : SerdeJson}
    {request : GenerateRequest} {p : Preflight} (sha256 : String → String) (state : AppState)
    (draws : Draws)
    (hserde : serde.fromSlice (serde.toVec (runtimeRequest request p).toJson) =
      some (runtimeRequest request p).toJson.written)
    (hfinite : isFinite request.temperature = true) :
    readRuntimeRequest serde
      (generationJob serde sha256 state request p draws).requestJson =
        some (engineRequest (runtimeRequest request p)) := by
  rw [readRuntimeRequest_job hserde]
  exact if_pos hfinite

theorem carries_runtimeRequest {state : AppState}
    {authorization : Option (List UInt8)} {request : GenerateRequest}
    {p : Preflight} (h : preflight state authorization request = .ok p) :
    Carries state request p.budget
      (engineRequest (runtimeRequest request p)) where
  model := preflight_model h
  messages := by
    unfold engineRequest runtimeRequest
    split
    · next hnil => simp [hnil]
    · simp [readChatMessage_toJson]
  prompt := by
    show (if request.prompt = "" then none
      else some request.prompt).getD "" = request.prompt
    split
    · next hnil => rw [hnil]; rfl
    · rfl
  maxTokens := rfl
  temperature := rfl

/-- For every request that is admitted, the job in the stream can be read by
the engine as the request it was made from, if and only if the temperature is
finite. -/
theorem payload_survives_iff (serde : SerdeJson) (sha256 : String → String)
    (state : AppState) (b b' : Broker) (authorization : Option (List UInt8))
    (request : GenerateRequest) (draws : Draws) (faults : Faults)
    (admission : Admission)
    (h : admitAndDispatch serde sha256 state b authorization request draws
      faults = (.ok admission, b'))
    (hserde : ∀ p, preflight state authorization request = .ok p →
      serde.fromSlice (serde.toVec (runtimeRequest request p).toJson) =
        some (runtimeRequest request p).toJson.written) :
    ∃ p job, preflight state authorization request = .ok p ∧
      b'.requests.entries =
        b.requests.entries ++ [⟨admission.requestEntryId, .job job⟩] ∧
      ((∃ r, readRuntimeRequest serde job.requestJson = some r ∧
        Carries state request p.budget r) ↔
        isFinite request.temperature = true) := by
  obtain ⟨p, hp, hentries⟩ := admitAndDispatch_ok h
  refine ⟨p, _, hp, hentries, ?_⟩
  rw [readRuntimeRequest_job (hserde p hp)]
  cases isFinite request.temperature with
  | true => exact ⟨fun _ => rfl, fun _ => ⟨_, rfl, carries_runtimeRequest hp⟩⟩
  | false => simp

def sampleState : AppState :=
  { model :=
      { id := "m"
        revision := "main"
        endpoint := ""
        contextLimit := 4096
        defaultMaxTokens := 256
        maxOutputTokens := 1024 }
    apiKeys := ["key"]
    quota := ⟨10, 1000, 1000⟩
    generationTimeoutMs := 300000
    streams := .default }

/-- A prompt for the only model there is, at a given temperature. -/
def sampleRequest (temperature : UInt32) : GenerateRequest :=
  { model := ""
    messages := []
    prompt := "hi"
    maxTokens := 5
    temperature := temperature }

def sampleAuthorization : Option (List UInt8) :=
  some ("Bearer key".toUTF8.data.toList)

def sampleDraws : Draws := ⟨"q", "r", 1000, 1000⟩

def noFaults : Faults := ⟨none, false, false, false⟩

/-- The text of the sample request: one half, or `null`. -/
def sampleText (temperature : UInt32) : List UInt8 :=
  ("\x7b\"model\":\"m\",\"messages\":null,\"prompt\":\"hi\"," ++
    "\"max_tokens\":5,\"temperature\":" ++
    (if isFinite temperature then "0.5" else "null") ++
    ",\"stream\":true\x7d").toUTF8.data.toList

/-- The sample request as a value, before it is written. -/
def sampleJson (temperature : UInt32) : Json :=
  .object
    [("model", .string "m"), ("messages", .null), ("prompt", .string "hi"),
      ("max_tokens", .int 5), ("temperature", .float temperature),
      ("stream", .bool true)]

/-- `serde_json` as it deals with the sample request. -/
def sampleSerde (temperature : UInt32) : SerdeJson :=
  { toVec := fun _ => sampleText temperature
    fromSlice := fun bytes =>
      if bytes = sampleText temperature then
        some (sampleJson temperature).written
      else none
    intToF32 := fun _ => 0 }

/-- What the sample request is admitted as. -/
def sampleAdmission : Admission := ⟨"r", ⟨0, 1⟩, "q", 1⟩

/-- A dispatch of the sample request into an empty broker. -/
def sampleDispatch (temperature : UInt32) :
    Except ErrorResponse Admission × Broker :=
  admitAndDispatch (sampleSerde temperature) id sampleState (.empty 0)
    sampleAuthorization (sampleRequest temperature) sampleDraws noFaults

theorem sampleSerde_law {state : AppState} {temperature : UInt32}
    {p : Preflight}
    (hfacts : (preflight state sampleAuthorization
      (sampleRequest temperature)).toOption.map
        (fun p => (p.model, p.budget.admittedMaxTokens)) = some ("m", 5))
    (h : preflight state sampleAuthorization
      (sampleRequest temperature) = .ok p) :
    (sampleSerde temperature).fromSlice ((sampleSerde temperature).toVec
      (runtimeRequest (sampleRequest temperature) p).toJson) =
      some (runtimeRequest (sampleRequest temperature) p).toJson.written := by
  rw [h] at hfacts
  simp only [Except.toOption, Option.map_some, Option.some.injEq,
    Prod.mk.injEq] at hfacts
  have hjson : (runtimeRequest (sampleRequest temperature) p).toJson =
      sampleJson temperature := by
    simp [runtimeRequest, sampleRequest, FrontendRuntimeRequest.toJson,
      optionToJson, sampleJson, hfacts]
  rw [hjson]
  exact if_pos rfl

theorem payload_survives_iff_half :
    ∃ p job, sampleDispatch 0x3f000000 =
        (.ok sampleAdmission, (sampleDispatch 0x3f000000).2) ∧
      (sampleDispatch 0x3f000000).2.requests.entries =
        [⟨⟨0, 1⟩, .job job⟩] ∧
      ∃ r, readRuntimeRequest (sampleSerde 0x3f000000) job.requestJson =
          some r ∧
        Carries sampleState (sampleRequest 0x3f000000) p r := by
  have hadmit : sampleDispatch 0x3f000000 =
      (.ok sampleAdmission, (sampleDispatch 0x3f000000).2) := by
    refine Prod.ext ?_ rfl
    rfl
  obtain ⟨p, job, hp, hentries, hiff⟩ := payload_survives_iff
    (sampleSerde 0x3f000000) id sampleState (.empty 0) _ sampleAuthorization
    (sampleRequest 0x3f000000) sampleDraws noFaults sampleAdmission hadmit
    (fun p hp => sampleSerde_law (by decide) hp)
  exact ⟨p.budget, job, hadmit, hentries, hiff.mpr (by decide)⟩

/-- A temperature that is not a number is admitted, and no engine can read the
job. -/
theorem payload_lost_nan :
    ∃ job, (sampleDispatch 0x7fc00000).1 = .ok sampleAdmission ∧
      (sampleDispatch 0x7fc00000).2.requests.entries =
        [⟨⟨0, 1⟩, .job job⟩] ∧
      readRuntimeRequest (sampleSerde 0x7fc00000) job.requestJson = none := by
  have hadmit : sampleDispatch 0x7fc00000 =
      (.ok sampleAdmission, (sampleDispatch 0x7fc00000).2) := by
    refine Prod.ext ?_ rfl
    rfl
  obtain ⟨p, hp, hentries⟩ := admitAndDispatch_ok hadmit
  refine ⟨_, congrArg Prod.fst hadmit, hentries, ?_⟩
  rw [readRuntimeRequest_job (sampleSerde_law (by decide) hp)]
  exact if_neg (show ¬ isFinite 0x7fc00000 = true by decide)

end DataPlane.Proofs
