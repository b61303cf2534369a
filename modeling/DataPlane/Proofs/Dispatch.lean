import DataPlane.Proofs.QuotaScripts
import DataPlane.Proofs.Payload

/-!
# What a failed dispatch leaves behind

An admission is three broker commands with a compensation behind them: reserve,
add the job, write its status, and cancel the reservation if either of the last
two failed. A reserve and its cancel cancel out to the token. Adding the job has
no counterpart, so if the status could not be written the call reports an error
for a job that is in the stream and will be run.
-/

namespace DataPlane.Proofs

open DataPlane DataPlane.Lib DataPlane.Ref DataPlane.Spec

/-- A counter, zero if it does not exist. -/
def counterOf (b : Broker) (k : CounterKey) : Int :=
  (b.quota.counters.get b.now k).getD 0

/-- What is expected of a call that returns an error: nothing of it is in the
request stream, and if its cancel did not fail every counter is what it was. -/
def LeavesNoTrace (b : Broker) (faults : Faults)
    (outcome : Except ErrorResponse Admission × Broker) : Prop :=
  ∀ response, outcome.1 = .error response →
    outcome.2.requests = b.requests ∧
      (faults.cancel = false → ∀ k, counterOf outcome.2 k = counterOf b k)

/-- The defect's path: the request is admitted, its reservation granted and its
job added to the stream, and then the status pipeline fails. -/
def StatusLost (sha256 : String → String) (state : AppState) (b : Broker)
    (authorization : Option (List UInt8)) (request : GenerateRequest)
    (draws : Draws) (faults : Faults) : Prop :=
  faults.xadd = false ∧ faults.pipeline = true ∧
    ∃ p, preflight state authorization request = .ok p ∧
      ∃ reservation quota,
        reserveCommand sha256 state b p draws faults = (.ok reservation, quota)

/-! ## A cancel undoes its reserve -/

/-- The amounts a cancel takes back are the ones the reserve added: rounding
them again changes nothing. -/
theorem cancelQuota_admittedDb (db : QuotaDb) (now : Nat) (b : Bucket)
    (id : String) (p g : Int) (k : CounterKey) :
    ((cancelQuota (admittedDb db now b id (Binary64.round p)
      (Binary64.round g)) now id).counters.get now k).getD 0 =
      (db.counters.get now k).getD 0 := by
  rw [cancelQuota_reserved (get_admittedDb db now b id _ _) rfl]
  simp only [reservedHash, Option.getD_some, Binary64.round_round, refundAll]
  by_cases hk : ∃ d, k = keyOf b d
  · obtain ⟨d, rfl⟩ := hk
    cases d <;>
      simp [Keyspace.get, admittedDb, live_chargeCounters, increment]
  · have hne : ∀ d, k ≠ keyOf b d := fun d h => hk ⟨d, h⟩
    simp [Keyspace.get, admittedDb, hne, live_chargeCounters_ne]

theorem cancel_undoes_reserve {sha256 : String → String}
    {limits : QuotaLimits} {db db' : QuotaDb} {now unixMs p g : Nat}
    {id apiKey : String} {q : QuotaReservation}
    (h : reserveQuota sha256 limits db now id unixMs apiKey p g =
      (.ok q, db')) (k : CounterKey) :
    ((cancelQuota db' now q.id).counters.get now k).getD 0 =
      (db.counters.get now k).getD 0 := by
  obtain ⟨_, rfl⟩ := reserveQuota_ok h
  rw [reserveQuota_id h]
  exact cancelQuota_admittedDb db now _ id p g k

/-! ## The paths of a call -/

section Paths

variable {serde : SerdeJson} {sha256 : String → String} {state : AppState}
  {b : Broker} {authorization : Option (List UInt8)}
  {request : GenerateRequest} {draws : Draws} {faults : Faults}

/-- What is left of a call that could not publish its job. -/
def compensate (b : Broker) (faults : Faults) (reservationId : String) :
    Broker :=
  if faults.cancel then b else b.cancel reservationId

theorem compensate_requests (b : Broker) (faults : Faults) (id : String) :
    (compensate b faults id).requests = b.requests := by
  unfold compensate
  split <;> rfl

/-- A reservation that is not granted costs nothing. -/
theorem reserveCommand_error {p : Preflight} {e : QuotaError} {quota : QuotaDb}
    (h : reserveCommand sha256 state b p draws faults = (.error e, quota)) :
    quota = b.quota := by
  unfold reserveCommand at h
  split at h
  · cases h; rfl
  · exact reserveQuota_error h

theorem reserveCommand_ok {p : Preflight} {q : QuotaReservation}
    {quota : QuotaDb}
    (h : reserveCommand sha256 state b p draws faults = (.ok q, quota)) :
    reserveQuota sha256 state.quota b.quota b.now draws.reservationId
      draws.reservedAtMs p.apiKey p.budget.promptTokens.toNat
      p.budget.admittedMaxTokens.toNat = (.ok q, quota) := by
  unfold reserveCommand at h
  split at h
  · cases h
  · exact h

/-- A call that fails was turned away and changed nothing, or held a
reservation and could not publish its job. -/
theorem admitAndDispatch_error {response : ErrorResponse}
    (h : (admitAndDispatch serde sha256 state b authorization request draws
      faults).1 = .error response) :
    (admitAndDispatch serde sha256 state b authorization request draws
      faults).2 = b ∨
    ∃ p q quota, preflight state authorization request = .ok p ∧
      reserveCommand sha256 state b p draws faults = (.ok q, quota) ∧
      ((faults.xadd = true ∧
        (admitAndDispatch serde sha256 state b authorization request draws
          faults).2 = compensate { b with quota := quota } faults q.id) ∨
        StatusLost sha256 state b authorization request draws faults) := by
  unfold admitAndDispatch at h ⊢
  cases hp : preflight state authorization request with
  | error response => exact .inl rfl
  | ok p =>
      rw [hp] at h
      dsimp only at h ⊢
      match hr : reserveCommand sha256 state b p draws faults with
      | (.error e, quota) =>
          rw [reserveCommand_error hr]
          exact .inl rfl
      | (.ok q, quota) =>
          refine .inr ⟨p, q, quota, rfl, hr, ?_⟩
          rw [hr] at h
          dsimp only at h ⊢
          cases hx : faults.xadd with
          | true =>
              refine .inl ⟨rfl, ?_⟩
              simp [publishGeneration, hx, compensate]
          | false =>
              cases hpipe : faults.pipeline with
              | true => exact .inr ⟨hx, hpipe, p, hp, q, quota, hr⟩
              | false => simp [publishGeneration, hx, hpipe] at h

/-- On the defect's path the call fails and its job is in the stream. -/
theorem admitAndDispatch_statusLost (serde : SerdeJson)
    (h : StatusLost sha256 state b authorization request draws faults) :
    ∃ response job, (admitAndDispatch serde sha256 state b authorization
      request draws faults).1 = .error response ∧
      (admitAndDispatch serde sha256 state b authorization request draws
        faults).2.requests.entries =
        b.requests.entries ++ [⟨(b.appendRequest (.job job)).1, .job job⟩] := by
  obtain ⟨hx, hpipe, p, hp, q, quota, hr⟩ := h
  refine ⟨⟨502, "failed to dispatch generation"⟩,
    generationJob serde sha256 state request p draws, ?_, ?_⟩
  · simp only [admitAndDispatch, hp, hr, publishGeneration, hx, hpipe]
    rfl
  · simp only [admitAndDispatch, hp, hr, publishGeneration, hx, hpipe]
    exact congrArg (·.entries) (compensate_requests _ faults q.id)

end Paths

/-- A call that returns an error leaves no trace, for every request, every
state of the broker and every choice of failing commands, except when the
reservation was granted, the job added, and only the status pipeline failed. A
script that stops half way because a counter leaves 64 bits is not among the
failing commands. -/
theorem failed_dispatch_iff (serde : SerdeJson) (sha256 : String → String)
    (state : AppState) (b : Broker) (authorization : Option (List UInt8))
    (request : GenerateRequest) (draws : Draws) (faults : Faults) :
    LeavesNoTrace b faults (admitAndDispatch serde sha256 state b
      authorization request draws faults) ↔
    ¬ StatusLost sha256 state b authorization request draws faults := by
  constructor
  · intro htrace hlost
    obtain ⟨response, job, herr, hentries⟩ :=
      admitAndDispatch_statusLost serde hlost
    rw [(htrace response herr).1] at hentries
    simp at hentries
  · intro hnot response herr
    rcases admitAndDispatch_error herr with hsame |
      ⟨p, q, quota, hp, hr, ⟨_, hleft⟩ | hlost⟩
    · rw [hsame]
      exact ⟨rfl, fun _ _ => rfl⟩
    · rw [hleft]
      refine ⟨compensate_requests _ faults q.id, fun hcancel k => ?_⟩
      rw [compensate, hcancel]
      exact cancel_undoes_reserve (reserveCommand_ok hr) k
    · exact absurd hlost hnot

/-- Only the status pipeline fails. -/
def pipelineFault : Faults := ⟨none, false, true, false⟩

/-- The call reports that it failed to dispatch; the job is in the stream. -/
theorem failed_dispatch_statusLost :
    ¬ LeavesNoTrace (.empty 0) pipelineFault
      (admitAndDispatch (sampleSerde 0x3f000000) id sampleState (.empty 0)
        sampleAuthorization (sampleRequest 0x3f000000) sampleDraws
        pipelineFault) := by
  intro htrace
  have hsame := (htrace ⟨502, "failed to dispatch generation"⟩ (by rfl)).1
  have hlen := congrArg (fun r => r.entries.length) hsame
  revert hlen
  decide

end DataPlane.Proofs
