import DataPlane.Proofs.Payload
import DataPlane.Ref.Backend

/-!
# What is counted and what is sent

Admission counts the prompt as it came in. The engine sends a list of messages,
and a plain prompt becomes a message on the way. That message has a role and
the overhead of a message and of a list, seven tokens by the counter's own
reckoning, which admission has not counted. A prompt of messages is sent as it
was counted; there the only way to go wrong is a sum that does not fit into a
word.
-/

namespace DataPlane.Proofs

open DataPlane DataPlane.Ref

/-- The payload is within the limit: its messages, counted as a prompt of
messages, and the tokens it asks for. -/
def PayloadFits (contextLimit : UInt64) (payload : Json) : Prop :=
  ∃ messages maxTokens,
    ((payload.get "messages").bind readArray).bind
      (·.mapM readChatMessage) = some messages ∧
    (payload.get "max_tokens").bind readUsize = some maxTokens ∧
    (countPrompt (.chat messages)).toNat + maxTokens.toNat ≤
      contextLimit.toNat

/-- The tokens a request asks for, before anybody has decided on it. -/
def requestedTokens (state : AppState) (request : GenerateRequest) : UInt64 :=
  min (if 0 < request.maxTokens then request.maxTokens
    else state.model.defaultMaxTokens) state.model.maxOutputTokens

/-- Messages whose count and the tokens asked for fit into a word together, or
a plain prompt with seven tokens to spare. -/
def LeavesRoom (state : AppState) (request : GenerateRequest) : Prop :=
  if request.messages = [] then
    (countText request.prompt + 7).toNat + (requestedTokens state request).toNat ≤
      state.model.contextLimit.toNat
  else
    (countPrompt (.chat request.messages)).toNat +
      (requestedTokens state request).toNat < 2 ^ 64

instance (state : AppState) (request : GenerateRequest) :
    Decidable (LeavesRoom state request) :=
  inferInstanceAs (Decidable (ite _ _ _))

/-! ## Admission -/

theorem preflight_budget {state : AppState}
    {authorization : Option (List UInt8)} {request : GenerateRequest}
    {p : Preflight} (h : preflight state authorization request = .ok p) :
    ∃ prompt, requestPrompt request = .ok prompt ∧
      countPrompt prompt + requestedTokens state request ≤
        state.model.contextLimit ∧
      p.budget.admittedMaxTokens = requestedTokens state request ∧
      p.budget.promptTokens = countPrompt prompt := by
  have hrequested : (if 0 < request.maxTokens then some request.maxTokens
      else none).getD state.model.defaultMaxTokens =
      if 0 < request.maxTokens then request.maxTokens
      else state.model.defaultMaxTokens := by
    split <;> rfl
  unfold preflight at h
  dsimp only at h
  generalize (if request.model = "" then state.model.id else request.model) = m
    at h
  split at h
  · cases h
  · split at h
    · cases h
    · next prompt hprompt =>
        refine ⟨prompt, hprompt, ?_⟩
        split at h
        · cases h
        · split at h
          · cases h
          · next budget hbudget =>
              split at h
              · next hadmitted =>
                  cases h
                  simp only [decideBudget, hrequested] at hbudget
                  split at hbudget
                  · cases hbudget
                  · split at hbudget
                    · cases hbudget
                    · cases hbudget
                      simp only [strictDecision] at hadmitted ⊢
                      rw [if_pos hadmitted]
                      exact ⟨of_decide_eq_true hadmitted, rfl, rfl⟩
              · cases h

/-- A request of messages is counted as messages, any other as text. -/
theorem requestPrompt_eq {request : GenerateRequest} {prompt : Prompt}
    (h : requestPrompt request = .ok prompt) :
    prompt = if request.messages = [] then .text request.prompt
      else .chat request.messages := by
  unfold requestPrompt at h
  split at h
  · next hne => cases h; rw [if_neg hne]
  · next heq =>
      rw [if_pos (not_not.mp heq)]
      split at h
      · cases h
      · cases h; rfl

/-! ## The payload -/

theorem mapM_readChatMessage (messages : List ChatMessage) :
    (messages.map ChatMessage.toJson).mapM readChatMessage =
      some messages := by
  induction messages with
  | nil => rfl
  | cons message messages ih =>
      simp [List.mapM_cons, readChatMessage_toJson, ih]

/-- The messages an engine sends for a request it has read. -/
theorem payloadMessages_read (request : GenerateRequest) (p : Preflight) :
    payloadMessages (engineRequest (runtimeRequest request p)) =
      (if request.messages = [] then [⟨"user", request.prompt⟩]
        else request.messages).map ChatMessage.toJson := by
  have hprompt : ((runtimeRequest request p).prompt).getD "" =
      request.prompt := by
    unfold runtimeRequest
    dsimp only
    split
    · next hnil => rw [hnil]; rfl
    · rfl
  unfold payloadMessages userMessage engineRequest
  dsimp only
  rw [hprompt]
  unfold runtimeRequest
  dsimp only
  split
  · simp
  · next hne => simp [hne]

/-- The counter's price for a plain prompt, sent as a message. -/
theorem countPrompt_user (prompt : String) :
    countPrompt (.chat [⟨"user", prompt⟩]) = countText prompt + 7 := by
  have huser : countText "user" = 1 := by decide
  simp only [countPrompt, List.map_cons, List.map_nil, List.sum_cons,
    List.sum_nil, huser]
  grind

theorem payloadFits_iff (contextLimit : UInt64) (r : EngineRuntimeRequest)
    {messages : List ChatMessage}
    (h : payloadMessages r = messages.map ChatMessage.toJson) :
    PayloadFits contextLimit (completionPayload r) ↔
      (countPrompt (.chat messages)).toNat + r.maxTokens.toNat ≤
        contextLimit.toNat := by
  have hmessages : (((completionPayload r).get "messages").bind
      readArray).bind (·.mapM readChatMessage) = some messages := by
    have hfield : (completionPayload r).get "messages" =
        some (.array (payloadMessages r)) := rfl
    rw [hfield, Option.bind_some, readArray, Option.bind_some, h,
      mapM_readChatMessage]
  have htokens : ((completionPayload r).get "max_tokens").bind readUsize =
      some r.maxTokens := by
    have hfield : (completionPayload r).get "max_tokens" =
        some (.int r.maxTokens.toNat) := rfl
    rw [hfield, Option.bind_some, readUsize_toNat]
  unfold PayloadFits
  rw [hmessages, htokens]
  constructor
  · rintro ⟨_, _, hm, ht, hle⟩
    cases hm
    cases ht
    exact hle
  · intro hle
    exact ⟨messages, r.maxTokens, rfl, rfl, hle⟩

/-- An admitted sum is within the limit unless it has wrapped. -/
theorem toNat_add_le_iff {a b limit : UInt64} (h : a + b ≤ limit) :
    a.toNat + b.toNat ≤ limit.toNat ↔ a.toNat + b.toNat < 2 ^ 64 := by
  have hle := UInt64.le_iff_toNat_le.mp h
  rw [UInt64.toNat_add] at hle
  have hlimit := limit.toNat_lt
  constructor
  · intro hfit
    omega
  · intro hlt
    rwa [Nat.mod_eq_of_lt hlt] at hle

theorem fits_iff_leavesRoom {state : AppState}
    {authorization : Option (List UInt8)} {request : GenerateRequest}
    {p : Preflight} (h : preflight state authorization request = .ok p) :
    (countPrompt (.chat (if request.messages = []
        then [⟨"user", request.prompt⟩] else request.messages))).toNat +
        p.budget.admittedMaxTokens.toNat ≤ state.model.contextLimit.toNat ↔
      LeavesRoom state request := by
  obtain ⟨prompt, hprompt, hle, htokens, _⟩ := preflight_budget h
  rw [requestPrompt_eq hprompt] at hle
  rw [htokens]
  unfold LeavesRoom
  split at hle
  · next hnil => rw [if_pos hnil, if_pos hnil, countPrompt_user]
  · next hne => rw [if_neg hne, if_neg hne, toNat_add_le_iff hle]

/-- For every request that is admitted, the payload made of its job is within
the model's limit if and only if the request leaves room for it. A job that no
engine can read makes no payload. -/
theorem payload_fits_iff (serde : SerdeJson) (sha256 : String → String)
    (state : AppState) (b b' : Broker) (authorization : Option (List UInt8))
    (request : GenerateRequest) (draws : Draws) (faults : Faults)
    (admission : Admission)
    (h : admitAndDispatch serde sha256 state b authorization request draws
      faults = (.ok admission, b'))
    (hserde : ∀ p, preflight state authorization request = .ok p →
      serde.fromSlice (serde.toVec (runtimeRequest request p).toJson) =
        some (runtimeRequest request p).toJson.written) :
    ∃ job, b'.requests.entries =
        b.requests.entries ++ [⟨admission.requestEntryId, .job job⟩] ∧
      ((∀ r, readRuntimeRequest serde job.requestJson = some r →
        PayloadFits state.model.contextLimit (completionPayload r)) ↔
        (isFinite request.temperature = true → LeavesRoom state request)) := by
  obtain ⟨p, hp, hentries⟩ := admitAndDispatch_ok h
  refine ⟨_, hentries, ?_⟩
  rw [readRuntimeRequest_job (hserde p hp)]
  cases isFinite request.temperature with
  | false => simp
  | true =>
      rw [← fits_iff_leavesRoom hp]
      have hiff := payloadFits_iff state.model.contextLimit _
        (payloadMessages_read request p)
      constructor
      · intro hfits _
        exact hiff.mp (hfits _ rfl)
      · intro hroom r hr
        cases hr
        exact hiff.mpr (hroom rfl)

/-- The sample request has all the room there is. -/
theorem payload_fits_iff_half :
    ∃ job r, (sampleDispatch 0x3f000000).2.requests.entries =
        [⟨⟨0, 1⟩, .job job⟩] ∧
      readRuntimeRequest (sampleSerde 0x3f000000) job.requestJson = some r ∧
      PayloadFits 4096 (completionPayload r) := by
  have hadmit : sampleDispatch 0x3f000000 =
      (.ok sampleAdmission, (sampleDispatch 0x3f000000).2) := by
    refine Prod.ext ?_ rfl
    rfl
  obtain ⟨job, hentries, hiff⟩ := payload_fits_iff
    (sampleSerde 0x3f000000) id sampleState (.empty 0) _ sampleAuthorization
    (sampleRequest 0x3f000000) sampleDraws noFaults sampleAdmission hadmit
    (fun p hp => sampleSerde_law (by decide) hp)
  obtain ⟨p, hp, hentries'⟩ := admitAndDispatch_ok hadmit
  rw [hentries', List.append_cancel_left_eq] at hentries
  cases hentries
  have hread := readRuntimeRequest_of_finite id sampleState sampleDraws
    (sampleSerde_law (by decide) hp) (by decide)
  have hroom : LeavesRoom sampleState (sampleRequest 0x3f000000) := by
    decide
  exact ⟨_, _, hentries', hread, hiff.mpr (fun _ => hroom) _ hread⟩

/-- A model with a context of six tokens. -/
def tightState : AppState :=
  { sampleState with model := { sampleState.model with contextLimit := 6 } }

/-- A prompt counted as one token, with five tokens to generate, is admitted to
a context of six and sent as eight and five. -/
theorem payload_exceeds_tight :
    ∃ b' job r, admitAndDispatch (sampleSerde 0x3f000000) id tightState
        (.empty 0) sampleAuthorization (sampleRequest 0x3f000000) sampleDraws
        noFaults = (.ok sampleAdmission, b') ∧
      b'.requests.entries = [⟨⟨0, 1⟩, .job job⟩] ∧
      readRuntimeRequest (sampleSerde 0x3f000000) job.requestJson = some r ∧
      ¬ PayloadFits tightState.model.contextLimit (completionPayload r) := by
  have hadmit : admitAndDispatch (sampleSerde 0x3f000000) id tightState
      (.empty 0) sampleAuthorization (sampleRequest 0x3f000000) sampleDraws
      noFaults = (.ok sampleAdmission,
        (admitAndDispatch (sampleSerde 0x3f000000) id tightState (.empty 0)
          sampleAuthorization (sampleRequest 0x3f000000) sampleDraws
          noFaults).2) := by
    refine Prod.ext ?_ rfl
    rfl
  obtain ⟨p, hp, hentries⟩ := admitAndDispatch_ok hadmit
  have hread := readRuntimeRequest_of_finite id tightState sampleDraws
    (sampleSerde_law (by decide) hp) (by decide)
  refine ⟨_, _, _, hadmit, hentries, hread, ?_⟩
  rw [payloadFits_iff _ _ (payloadMessages_read _ p)]
  show ¬ _ + p.budget.admittedMaxTokens.toNat ≤ _
  rw [fits_iff_leavesRoom hp]
  decide

end DataPlane.Proofs
