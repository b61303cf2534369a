import DataPlane.Ref.Broker

/-!
# What publishing does to the broker

`publish_result` is two commands, and this file says what each of them leaves
behind: in the result stream, in the streams that expired before it, and in
the status hash. Everything else is untouched, which the frame lemmas state
once, as rewriting rules.
-/

namespace DataPlane.Proofs

open DataPlane DataPlane.Lib DataPlane.Ref

section Append

variable (b : Broker) (res : GenerationResult)

@[simp] theorem appendResult_now : (b.appendResult res).2.now = b.now := rfl

@[simp] theorem appendResult_status :
    (b.appendResult res).2.status = b.status := rfl

@[simp] theorem appendResult_lease :
    (b.appendResult res).2.lease = b.lease := rfl

@[simp] theorem appendResult_quota :
    (b.appendResult res).2.quota = b.quota := rfl

@[simp] theorem appendResult_requests :
    (b.appendResult res).2.requests = b.requests := rfl

/-- The entry an append adds. -/
def newEntry : ResultEntry := ⟨(b.appendResult res).1, res⟩

@[simp] theorem newEntry_result : (newEntry b res).result = res := rfl

theorem live_appendResult :
    (b.appendResult res).2.results.live b.now res.requestId =
      some ⟨b.resultLog res.requestId ++ [newEntry b res],
        (b.results.live b.now res.requestId).bind (·.deadline)⟩ :=
  Keyspace.live_put_self _ _ _ _

@[simp] theorem live_appendResult_ne {r : String} (t : Nat)
    (h : r ≠ res.requestId) :
    (b.appendResult res).2.results.live t r = b.results.live t r :=
  Keyspace.live_put_ne _ _ _ _ h

theorem resultLog_appendResult :
    (b.appendResult res).2.resultLog res.requestId =
      b.resultLog res.requestId ++ [newEntry b res] := by
  rw [Broker.resultLog, Keyspace.get, appendResult_now, live_appendResult]
  rfl

@[simp] theorem resultLog_appendResult_ne {r : String}
    (h : r ≠ res.requestId) :
    (b.appendResult res).2.resultLog r = b.resultLog r := by
  simp [Broker.resultLog, Keyspace.get, h]

@[simp] theorem incarnations_appendResult_ne {r : String}
    (h : r ≠ res.requestId) :
    (b.appendResult res).2.incarnations r = b.incarnations r := by
  have hres : (b.appendResult res).2.results r = b.results r :=
    Function.update_of_ne h _ _
  have harch : (b.appendResult res).2.archive r = b.archive r := by
    cases hlive : b.results.live b.now res.requestId with
    | some c => simp [Broker.appendResult, hlive]
    | none => simp [Broker.appendResult, hlive, Function.update_of_ne h]
  rw [Broker.incarnations, hres, harch, Broker.incarnations]

/-- A live stream grows in place; a dead one is set aside and a new one begun,
without a time to live. -/
theorem incarnations_appendResult :
    (∃ pre c, b.results.live b.now res.requestId = some c ∧
      b.incarnations res.requestId = pre ++ [c] ∧
      (b.appendResult res).2.incarnations res.requestId =
        pre ++ [⟨c.value ++ [newEntry b res], c.deadline⟩]) ∨
    (b.results.live b.now res.requestId = none ∧
      (b.appendResult res).2.incarnations res.requestId =
        b.incarnations res.requestId ++ [⟨[newEntry b res], none⟩]) := by
  have hcell := (Keyspace.live_eq_some.mp (live_appendResult b res)).1
  cases hlive : b.results.live b.now res.requestId with
  | some c =>
      have hb := (Keyspace.live_eq_some.mp hlive).1
      refine .inl ⟨b.archive res.requestId, c, rfl, ?_, ?_⟩
      · rw [Broker.incarnations, hb]; rfl
      · rw [Broker.incarnations, hcell, hlive]
        simp [Broker.appendResult, hlive, Broker.resultLog, Keyspace.get]
  | none =>
      refine .inr ⟨rfl, ?_⟩
      rw [Broker.incarnations, hcell, hlive]
      simp [Broker.appendResult, hlive, Broker.resultLog, Keyspace.get]

end Append

section Record

variable (b : Broker) (cfg : StreamsConfig) (res : GenerationResult)
  (eventId : StreamId)

/-- The time to live an event gives its stream. -/
def ttlOf : Nat :=
  if res.terminal then cfg.resultRetentionMs else cfg.activeTtlMs

@[simp] theorem recordResult_now :
    (b.recordResult cfg res eventId).now = b.now := rfl

@[simp] theorem recordResult_lease :
    (b.recordResult cfg res eventId).lease = b.lease := rfl

@[simp] theorem recordResult_quota :
    (b.recordResult cfg res eventId).quota = b.quota := rfl

@[simp] theorem recordResult_requests :
    (b.recordResult cfg res eventId).requests = b.requests := rfl

@[simp] theorem recordResult_archive :
    (b.recordResult cfg res eventId).archive = b.archive := rfl

theorem recordResult_results :
    (b.recordResult cfg res eventId).results =
      b.results.expire b.now res.requestId (ttlOf cfg res) := rfl

@[simp] theorem live_recordResult_ne {r : String} (t : Nat)
    (h : r ≠ res.requestId) :
    (b.recordResult cfg res eventId).results.live t r = b.results.live t r :=
  Keyspace.live_expire_ne _ _ _ _ h

@[simp] theorem incarnations_recordResult_ne {r : String}
    (h : r ≠ res.requestId) :
    (b.recordResult cfg res eventId).incarnations r = b.incarnations r := by
  have : (b.recordResult cfg res eventId).results r = b.results r := by
    rw [recordResult_results, Keyspace.expire]
    cases b.results.live b.now res.requestId with
    | some c => exact Function.update_of_ne h _ _
    | none => rfl
  rw [Broker.incarnations, this]
  rfl

/-- A live stream gets a deadline; a dead one has one already. -/
theorem incarnations_recordResult :
    (∃ pre c, b.results.live b.now res.requestId = some c ∧
      b.incarnations res.requestId = pre ++ [c] ∧
      (b.recordResult cfg res eventId).incarnations res.requestId =
        pre ++ [⟨c.value, some (b.now + ttlOf cfg res)⟩]) ∨
    (b.results.live b.now res.requestId = none ∧
      (b.recordResult cfg res eventId).incarnations res.requestId =
        b.incarnations res.requestId) := by
  cases hlive : b.results.live b.now res.requestId with
  | some c =>
      have hb := (Keyspace.live_eq_some.mp hlive).1
      refine .inl ⟨b.archive res.requestId, c, rfl, ?_, ?_⟩
      · rw [Broker.incarnations, hb]; rfl
      · rw [Broker.incarnations, recordResult_results, Keyspace.expire, hlive]
        simp
  | none =>
      refine .inr ⟨rfl, ?_⟩
      rw [Broker.incarnations, recordResult_results, Keyspace.expire, hlive]
      rfl

/-- The state an event leaves a request in. -/
def stateAfter : GenerationState :=
  if res.terminal then .completed else .running

/-- The hash a pipeline leaves, dead at once if its time to live is zero. -/
theorem live_recordResult_status :
    ∃ hash, hash.state = some (stateAfter res) ∧
      (b.recordResult cfg res eventId).status.live b.now res.requestId =
        (some (⟨hash, some (b.now + ttlOf cfg res)⟩ : Timed StatusHash)).filter
          (·.alive b.now) := by
  unfold Broker.recordResult stateAfter ttlOf
  cases hterm : res.terminal
  · refine ⟨_, ?_, by simp [Broker.setStatus]; rfl⟩
    rfl
  · refine ⟨_, ?_, by simp [Broker.setStatus, Keyspace.get]; rfl⟩
    rfl

@[simp] theorem live_recordResult_status_ne {r : String} (t : Nat)
    (h : r ≠ res.requestId) :
    (b.recordResult cfg res eventId).status.live t r = b.status.live t r := by
  unfold Broker.recordResult
  cases res.terminal <;> simp [Broker.setStatus, h]

end Record

/-! ## The status a reader gets -/

theorem statusOf_eq_some {b : Broker} {r : String} {st : GenerationStatus}
    (h : b.statusOf r = some st) :
    ∃ cell, b.status.live b.now r = some cell ∧
      cell.value.state = some st.state := by
  unfold Broker.statusOf at h
  split at h
  · cases h
  · next hash hget =>
      obtain ⟨cell, hcell, rfl⟩ := Keyspace.get_eq_some.mp hget
      split at h
      · cases h
      · next state hstate => cases h; exact ⟨cell, hcell, hstate⟩

theorem statusOf_congr {b b' : Broker} {r : String}
    (h : b'.status.live b'.now r = b.status.live b.now r) :
    b'.statusOf r = b.statusOf r := by
  simp only [Broker.statusOf, Keyspace.get, h]

/-- The state a status reports after the pipeline of `publish_result`. -/
theorem state_of_recordResult {b : Broker} {cfg : StreamsConfig}
    {res : GenerationResult} {eventId : StreamId} {st : GenerationStatus}
    (h : (b.recordResult cfg res eventId).statusOf res.requestId = some st) :
    st.state = stateAfter res := by
  obtain ⟨cell, hcell, hstate⟩ := statusOf_eq_some h
  obtain ⟨hash, hhash, hlive⟩ := live_recordResult_status b cfg res eventId
  rw [recordResult_now, hlive, Option.filter_eq_some_iff] at hcell
  obtain ⟨hcell, _⟩ := hcell
  cases hcell
  rw [hhash] at hstate
  injection hstate with hstate
  exact hstate.symm

theorem statusOf_recordResult_ne {b : Broker} {cfg : StreamsConfig}
    {res : GenerationResult} {eventId : StreamId} {r : String}
    (h : r ≠ res.requestId) :
    (b.recordResult cfg res eventId).statusOf r = b.statusOf r :=
  statusOf_congr (live_recordResult_status_ne b cfg res eventId _ h)

/-- The pipeline of `publish_generation` leaves no completed status. -/
theorem state_of_recordQueued {b : Broker} {cfg : StreamsConfig}
    {job : GenerationJob} {entryId : StreamId} {st : GenerationStatus}
    (h : (b.recordQueued cfg job entryId).statusOf job.requestId = some st) :
    st.state = .queued := by
  obtain ⟨cell, hcell, hstate⟩ := statusOf_eq_some h
  simp only [Broker.recordQueued, Broker.setStatus, Keyspace.live_expire_self,
    Keyspace.live_put_self, Option.map_some, Option.filter_eq_some_iff,
    Option.some.injEq] at hcell
  obtain ⟨rfl, _⟩ := hcell
  injection hstate with hstate
  exact hstate.symm

theorem statusOf_recordQueued_ne {b : Broker} {cfg : StreamsConfig}
    {job : GenerationJob} {entryId : StreamId} {r : String}
    (h : r ≠ job.requestId) :
    (b.recordQueued cfg job entryId).statusOf r = b.statusOf r := by
  refine statusOf_congr ?_
  simp [Broker.recordQueued, Broker.setStatus, h]

end DataPlane.Proofs
