import DataPlane.Lib.Run
import DataPlane.Proofs.Resume
import DataPlane.Ref.Consumer
import DataPlane.Ref.Engine

/-!
# Entries nobody can read

An entry without a payload, with one that does not decode, or of another schema
version is an error to both parsers. The loop makes two different things of it.
After `next` it creates the consumer anew and goes on; the entry has been
delivered by then, is never acknowledged and goes stale. After `reclaim_stale`
the error leaves `main`. So the second encounter with an entry ends what the
first was survived by.

`readJob` says what an entry is to either parser.
-/

namespace DataPlane.Proofs

open DataPlane DataPlane.Lib DataPlane.Ref

variable {cfg : ConsumerConfig} {s t : Consuming} {l : ConsumeLabel}
  {decode : List UInt8 → Except String GenerationJob} {entry : RawEntry}

/-! ## The parsers -/

/-- The job an entry holds, if it holds one. -/
def readJob (decode : List UInt8 → Except String GenerationJob)
    (entry : RawEntry) : Option ReceivedJob := do
  let payload ← payloadOf entry
  let job ← (decode payload).toOption
  if job.schemaVersion = schemaVersion then some ⟨entry.id.text, job⟩ else none

theorem readJob_of_payload_none (h : payloadOf entry = none) :
    readJob decode entry = none := by
  rw [readJob, h]
  rfl

theorem readJob_of_decode_error {payload : List UInt8} {text : String}
    (h : payloadOf entry = some payload) (hd : decode payload = .error text) :
    readJob decode entry = none := by
  simp [readJob, h, hd, Except.toOption]

theorem readJob_of_decode_ok {payload : List UInt8} {job : GenerationJob}
    (h : payloadOf entry = some payload) (hd : decode payload = .ok job) :
    readJob decode entry =
      if job.schemaVersion = schemaVersion then some ⟨entry.id.text, job⟩
      else none := by
  simp [readJob, h, hd, Except.toOption]

/-- The two parsers find the same job, and fail on the same entries. -/
theorem parseReplies_entry (cursor : List UInt8) :
    (∃ job, readJob decode entry = some job ∧
      parseJobReply decode (xreadReply requestStream (some entry)) =
        .ok (some job) ∧
      parseAutoclaimReply decode (xautoclaimReply cursor (some entry)) =
        .ok (some job)) ∨
    (∃ e e', readJob decode entry = none ∧
      parseJobReply decode (xreadReply requestStream (some entry)) =
        .error e ∧
      parseAutoclaimReply decode (xautoclaimReply cursor (some entry)) =
        .error e') := by
  have hentry : parseEntry (some entry.toValue) = _ :=
    parseXreadPayload_entry requestStream entry
  simp only [parseJobReply, parseXreadPayload_entry, parseAutoclaimReply,
    xautoclaimReply, Option.toList_some, List.map_cons, List.map_nil,
    List.getElem?_cons_succ, List.getElem?_cons_zero, List.head?_cons, hentry]
  cases hpayload : payloadOf entry with
  | none =>
      exact .inr ⟨_, _, readJob_of_payload_none hpayload, rfl, rfl⟩
  | some payload =>
      dsimp only
      cases hdecode : decode payload with
      | error text =>
          exact .inr ⟨_, _, readJob_of_decode_error hpayload hdecode, rfl, rfl⟩
      | ok job =>
          rw [readJob_of_decode_ok hpayload hdecode]
          by_cases hversion : job.schemaVersion = schemaVersion
          · refine .inl ⟨⟨entry.id.text, job⟩, if_pos hversion, ?_, ?_⟩ <;>
              simp [validateSchema, hversion]
          · refine .inr ⟨.schemaVersion job.schemaVersion,
              .schemaVersion job.schemaVersion, if_neg hversion, ?_, ?_⟩ <;>
              simp [validateSchema, hversion]

theorem afterNext_some :
    afterNext decode (some entry) =
      match readJob decode entry with
      | some consumed => .running consumed
      | none => .reconnecting := by
  unfold afterNext
  rcases @parseReplies_entry decode entry [] with
    ⟨job, hread, hnext, -⟩ | ⟨e, e', hread, hnext, -⟩
  · rw [hread, hnext]
  · rw [hread, hnext]

/-- A stale entry that cannot be read ends `main`; one that can does not. -/
theorem afterReclaim_some (cursor : List UInt8) :
    (∃ consumed, readJob decode entry = some consumed ∧
      afterReclaim decode cursor (some entry) = .running consumed) ∨
    (∃ e, readJob decode entry = none ∧
      afterReclaim decode cursor (some entry) = .terminated e) := by
  unfold afterReclaim
  rcases @parseReplies_entry decode entry cursor with
    ⟨job, hread, -, hclaim⟩ | ⟨e, e', hread, -, hclaim⟩
  · exact .inl ⟨job, hread, by rw [hclaim]⟩
  · exact .inr ⟨e', hread, by rw [hclaim]⟩

/-! ## The engine of the whole system -/

/-- An entry as the broker's model has it: a job, or nothing that can be
read. -/
def requestEntryOf (decode : List UInt8 → Except String GenerationJob)
    (entry : RawEntry) : RequestEntry :=
  ⟨entry.id,
    match readJob decode entry with
    | some consumed => .job consumed.job
    | none => .malformed⟩

/-- Where `main` is, without what the phases carry. -/
inductive MainPlace
  | polling
  | reclaiming
  | reconnecting
  | job (job : GenerationJob)
  | stopped
  deriving DecidableEq, Repr

/-- Where the loop of the consumer's model is. -/
def placeOf : MainPhase → Option MainPlace
  | .polling => some .polling
  | .reclaiming => some .reclaiming
  | .reconnecting => some .reconnecting
  | .running consumed => some (.job consumed.job)
  | .acknowledging _ => none
  | .terminated _ => some .stopped

def enginePlaceOf : Phase → Option MainPlace
  | .polling => some .polling
  | .reclaiming => some .reclaiming
  | .reconnecting => some .reconnecting
  | .working taken .start => some (.job taken.job)
  | .working _ _ => none
  | .stopped => some .stopped

/-- What the engine's model does with an entry on either path is what the
parsers and the loop around them do. -/
theorem takes_as_parsed (cursor : List UInt8) :
    enginePlaceOf (takeFresh (requestEntryOf decode entry)) =
        placeOf (afterNext decode (some entry)) ∧
      enginePlaceOf (takeStale (requestEntryOf decode entry)) =
        placeOf (afterReclaim decode cursor (some entry)) := by
  rw [afterNext_some]
  rcases @afterReclaim_some decode entry cursor with
    ⟨consumed, hread, hclaim⟩ | ⟨e, hread, hclaim⟩
  · simp [takeFresh, takeStale, requestEntryOf, hread, hclaim, enginePlaceOf,
      placeOf]
  · simp [takeFresh, takeStale, requestEntryOf, hread, hclaim, enginePlaceOf,
      placeOf]

/-! ## One step -/

/-- The engine does not reclaim an entry it cannot read. -/
def reclaimsReadable (cfg : ConsumerConfig) (s : Consuming)
    (l : ConsumeLabel) : Bool :=
  match l, s.phase with
  | .reclaim _, .reclaiming =>
      (s.requests.stale cfg.reclaimIdleMs).all fun entry =>
        (readJob cfg.decode entry).isSome
  | _, _ => true

/-- `main` has not returned. -/
def Alive (s : Consuming) : Prop := ∀ e, s.phase ≠ .terminated e

/-- The most steps `main` takes until it polls again. -/
def stepsToPoll : MainPhase → Nat
  | .polling => 0
  | .reclaiming => 3
  | .reconnecting => 1
  | .running _ => 2
  | .acknowledging _ => 1
  | .terminated _ => 0

theorem afterNext_alive (entry : Option RawEntry) (e : ReadError) :
    afterNext decode entry ≠ .terminated e := by
  unfold afterNext
  split <;> exact MainPhase.noConfusion

theorem afterReclaim_alive_iff (cursor : List UInt8) (entry : Option RawEntry) :
    (∀ e, afterReclaim decode cursor entry ≠ .terminated e) ↔
      entry.all fun entry => (readJob decode entry).isSome := by
  cases entry with
  | none => exact ⟨fun _ => rfl, fun _ _ => MainPhase.noConfusion⟩
  | some entry =>
      rw [Option.all_some]
      rcases @afterReclaim_some decode entry cursor with
        ⟨consumed, hread, hclaim⟩ | ⟨e, hread, hclaim⟩
      · rw [hread, hclaim]
        exact ⟨fun _ => rfl, fun _ _ => MainPhase.noConfusion⟩
      · rw [hread, hclaim]
        exact ⟨fun h => absurd rfl (h e), fun h => by cases h⟩

/-- What a step does to the phase. -/
inductive MainMove (cfg : ConsumerConfig) (s : Consuming) :
    ConsumeLabel → MainPhase → Prop
  | other {l : ConsumeLabel} (hl : l.ofMain = false) : MainMove cfg s l s.phase
  | next (hphase : s.phase = .polling) :
      MainMove cfg s .next (afterNext cfg.decode s.requests.fresh)
  | reclaim (hphase : s.phase = .reclaiming) (cursor : List UInt8) :
      MainMove cfg s (.reclaim cursor) (afterReclaim cfg.decode cursor
        (s.requests.stale cfg.reclaimIdleMs))
  | reconnect (hphase : s.phase = .reconnecting) :
      MainMove cfg s .reconnect .polling
  | runJob {consumed : ReceivedJob} (hphase : s.phase = .running consumed)
      (outcome : JobOutcome) :
      MainMove cfg s (.runJob outcome) (afterJob consumed outcome)
  | acknowledge {entryId : String} (hphase : s.phase = .acknowledging entryId) :
      MainMove cfg s .acknowledge .polling

theorem mainMove_of_step (h : consumeStep cfg s l = some t) :
    MainMove cfg s l t.phase := by
  cases l with
  | tick | add | readBy | claimBy | acknowledgeBy =>
      cases h
      exact .other rfl
  | next =>
      simp only [consumeStep] at h
      split at h
      · next hphase => cases h; exact .next hphase
      · cases h
  | reclaim cursor =>
      simp only [consumeStep] at h
      split at h
      · next hphase => cases h; exact .reclaim hphase cursor
      · cases h
  | reconnect =>
      simp only [consumeStep] at h
      split at h
      · next hphase => cases h; exact .reconnect hphase
      · cases h
  | runJob outcome =>
      simp only [consumeStep] at h
      split at h
      · next hphase => cases h; exact .runJob hphase outcome
      · cases h
  | acknowledge =>
      simp only [consumeStep] at h
      split at h
      · next hphase => cases h; exact .acknowledge hphase
      · cases h

/-- A step keeps `main` alive if and only if it does not reclaim an entry it
cannot read. -/
theorem alive_step_iff (hs : Alive s) (h : consumeStep cfg s l = some t) :
    Alive t ↔ reclaimsReadable cfg s l = true := by
  have hmove := mainMove_of_step h
  unfold Alive
  generalize t.phase = phase at hmove ⊢
  cases hmove with
  | other hl =>
      refine ⟨fun _ => ?_, fun _ => hs⟩
      cases l <;> first | rfl | cases hl
  | next hphase => exact ⟨fun _ => rfl, fun _ => afterNext_alive _⟩
  | reclaim hphase cursor =>
      unfold reclaimsReadable
      rw [hphase]
      exact afterReclaim_alive_iff cursor _
  | reconnect hphase => exact ⟨fun _ => rfl, fun _ _ => MainPhase.noConfusion⟩
  | runJob hphase outcome =>
      refine ⟨fun _ => rfl, fun _ e => ?_⟩
      cases outcome <;> exact MainPhase.noConfusion
  | acknowledge hphase => exact ⟨fun _ => rfl, fun _ _ => MainPhase.noConfusion⟩

/-- As long as `main` has not returned, it has something to do. -/
theorem main_enabled (hs : Alive s) :
    ∃ l t, l.ofMain = true ∧ consumeStep cfg s l = some t := by
  cases hphase : s.phase with
  | polling => exact ⟨.next, _, rfl, by simp only [consumeStep, hphase]; rfl⟩
  | reclaiming =>
      exact ⟨.reclaim [], _, rfl, by simp only [consumeStep, hphase]; rfl⟩
  | reconnecting =>
      exact ⟨.reconnect, _, rfl, by simp only [consumeStep, hphase]; rfl⟩
  | running consumed =>
      exact ⟨.runJob .pending, _, rfl, by
        simp only [consumeStep, hphase]; rfl⟩
  | acknowledging entryId =>
      exact ⟨.acknowledge, _, rfl, by simp only [consumeStep, hphase]; rfl⟩
  | terminated e => exact absurd hphase (hs e)

theorem stepsToPoll_afterReclaim (cursor : List UInt8)
    (entry : Option RawEntry) :
    stepsToPoll (afterReclaim decode cursor entry) < 3 := by
  unfold afterReclaim
  split
  · exact Nat.lt_succ_self 2
  · exact Nat.succ_pos 2
  · exact Nat.succ_pos 2

/-- Every step of `main` that is not a poll brings the next poll closer. -/
theorem stepsToPoll_step (hl : l.ofMain = true)
    (h : consumeStep cfg s l = some t) (hpoll : s.phase ≠ .polling) :
    stepsToPoll t.phase < stepsToPoll s.phase := by
  have hmove := mainMove_of_step h
  generalize t.phase = phase at hmove ⊢
  cases hmove with
  | other hother => rw [hother] at hl; cases hl
  | next hphase => exact absurd hphase hpoll
  | reclaim hphase cursor =>
      rw [hphase]
      exact stepsToPoll_afterReclaim cursor _
  | reconnect hphase =>
      rw [hphase]
      exact Nat.succ_pos 0
  | runJob hphase outcome =>
      rw [hphase]
      cases outcome with
      | acknowledge => exact Nat.lt_succ_self 1
      | pending => exact Nat.succ_pos 1
      | error message => exact Nat.succ_pos 1
  | acknowledge hphase =>
      rw [hphase]
      exact Nat.succ_pos 0

/-- The two paths lead to the same place for entries that can be read, and for
no others. -/
theorem handled_alike_iff (cursor : List UInt8) :
    afterNext decode (some entry) = afterReclaim decode cursor (some entry) ↔
      (readJob decode entry).isSome = true := by
  rw [afterNext_some]
  rcases @afterReclaim_some decode entry cursor with
    ⟨consumed, hread, hclaim⟩ | ⟨e, hread, hclaim⟩
  · rw [hread, hclaim]
    exact ⟨fun _ => rfl, fun _ => rfl⟩
  · rw [hread, hclaim]
    constructor
    · intro h
      cases h
    · intro h
      cases h

/-! ## All runs -/

/-- Whatever is in the stream, in every run in which the engine does not
reclaim an entry it cannot read, `main` is alive, has something to do and comes
back to its poll; and it stays alive exactly through the steps that meet the
condition. The two paths treat an entry alike exactly if it can be read. -/
theorem main_survives (cfg : ConsumerConfig) (requests : RequestLog)
    (s : Consuming)
    (h : Run (consumeStep cfg) (fun s l => reclaimsReadable cfg s l = true)
      ⟨requests, .polling⟩ s) :
    Alive s ∧
      (∃ l t, l.ofMain = true ∧ consumeStep cfg s l = some t) ∧
      (∀ l t, l.ofMain = true → consumeStep cfg s l = some t →
        s.phase ≠ .polling → stepsToPoll t.phase < stepsToPoll s.phase) ∧
      (∀ l t, consumeStep cfg s l = some t →
        (Alive t ↔ reclaimsReadable cfg s l = true)) ∧
      ∀ entry cursor, afterNext cfg.decode (some entry) =
        afterReclaim cfg.decode cursor (some entry) ↔
          (readJob cfg.decode entry).isSome = true := by
  have halive : Alive s := by
    refine h.invariant (fun _ => MainPhase.noConfusion) ?_
    intro s t l hs hok hstep
    exact (alive_step_iff hs hstep).mpr hok
  refine ⟨halive, main_enabled halive, ?_, ?_, ?_⟩
  · intro l t hl hstep hpoll
    exact stepsToPoll_step hl hstep hpoll
  · intro l t hstep
    exact alive_step_iff halive hstep
  · intro entry cursor
    exact handled_alike_iff cursor

/-- A job of the right version. -/
def plainJob : GenerationJob :=
  { schemaVersion := 1
    requestId := "r"
    modelId := "m"
    modelRevision := "main"
    modelEndpoint := ""
    requestJson := []
    deadlineUnixMs := 0
    reservationId := "q"
    cache := none }

/-- The bytes of that job. -/
def plainBytes : List UInt8 :=
  [0x08, 1] ++ stringField 0x12 "r" ++ stringField 0x1a "m" ++
    stringField 0x22 "main" ++ stringField 0x42 "q"

/-- A decoder that knows them, and an engine that reclaims after a minute and a
half. -/
def plainConfig : ConsumerConfig :=
  { decode := fun bytes =>
      if bytes = plainBytes then .ok plainJob else .error "invalid wire type"
    workerId := "engine-1"
    reclaimIdleMs := 90000 }

theorem main_survives_fresh :
    ∃ s, Run (consumeStep plainConfig)
        (fun s l => reclaimsReadable plainConfig s l = true)
        ⟨.empty 1000, .polling⟩ s ∧
      s.phase = .polling ∧
      s.requests.pending.map (·.entry.id) = [⟨1000, 1⟩] ∧ Alive s := by
  obtain ⟨s, hrun, hs⟩ := run_of_exec_map (consumeStep plainConfig)
    (fun s l => reclaimsReadable plainConfig s l = true)
    (reclaimsReadable plainConfig) ⟨.empty 1000, .polling⟩
    [.add [(utf8 "payload", plainBytes)], .next, .runJob .acknowledge,
      .acknowledge, .add [(utf8 "note", [])], .next, .reconnect, .next,
      .reclaim []]
    (fun s => (s.phase, s.requests.pending.map (·.entry.id)))
    (b := (.polling, [⟨1000, 1⟩])) (fun _ _ h => h) (by decide)
  rw [Prod.mk.injEq] at hs
  exact ⟨s, hrun, hs.1, hs.2, (main_survives plainConfig _ s hrun).1⟩

/-- An entry without a payload is read, left pending and, in time,
reclaimed: `main` returns, and has nothing more to do. -/
theorem main_ends_stale :
    ∃ s, Run (consumeStep plainConfig) (fun _ _ => True)
        ⟨.empty 1000, .polling⟩ s ∧
      s.phase = .terminated .noPayload ∧
      ∀ l, l.ofMain = true → consumeStep plainConfig s l = none := by
  obtain ⟨s, hrun, hs⟩ := run_of_exec_map (consumeStep plainConfig)
    (fun _ _ => True) (fun _ _ => true) ⟨.empty 1000, .polling⟩
    [.add [(utf8 "note", [])], .next, .reconnect, .tick 90000, .next,
      .reclaim []]
    (·.phase) (b := .terminated .noPayload) (fun _ _ _ => trivial) (by decide)
  refine ⟨s, hrun, hs, ?_⟩
  intro l hl
  cases l with
  | tick | add | readBy | claimBy | acknowledgeBy => cases hl
  | next | reclaim | reconnect | runJob | acknowledge =>
      simp only [consumeStep, hs]

end DataPlane.Proofs
