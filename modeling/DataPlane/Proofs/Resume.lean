import DataPlane.Proofs.Payload
import DataPlane.Proofs.Replay
import DataPlane.Ref.Delivery

/-!
# Resuming a stream

A client that lost its connection asks for everything after the last event it
has seen. On a finished log that continues the stream exactly, frame for
frame, at every event but one. Behind the terminal event there is nothing left
to read; the loop waits for an entry that cannot come, and what it sends is the
error frame of a generation that timed out.
-/

namespace DataPlane.Proofs

open DataPlane DataPlane.Ref DataPlane.Lib

/-- An entry as `next` returns it. -/
def entryResult (e : ResultEntry) : NextResult :=
  .ok (some ⟨e.eventId.text, e.result⟩)

/-- A generation that is over and still there: its status is known, and its
result stream ends with its only terminal event. The ids are the server's and
the schema version is the one `publish_result` insists on. -/
structure Retained (b : Broker) (requestId : String) : Prop where
  known : (b.statusOf requestId).isSome = true
  increasing : Increasing ResultEntry.eventId (b.resultLog requestId)
  ids : ∀ e ∈ b.resultLog requestId,
    (⟨0, 0⟩ : StreamId) < e.eventId ∧ e.eventId.InRange
  versioned : ∀ e ∈ b.resultLog requestId,
    e.result.schemaVersion = schemaVersion
  finished : ∃ events last, b.resultLog requestId = events ++ [last] ∧
    last.result.terminal = true ∧ ∀ e ∈ events, e.result.terminal = false

/-- The generated code reads back what it has written into the stream. -/
def Decodes (codec : Codec) (b : Broker) (requestId : String) : Prop :=
  ∀ e ∈ b.resultLog requestId,
    codec.decode (codec.encode e.result) = .ok e.result

variable {codec : Codec} {b : Broker} {requestId : String}

/-! ## The calls of `next` -/

/-- What a call does on a log that is left alone is one of the things a
subscription can do: the server answers its first `XREAD`, or lets it time out,
or turns down all four. -/
theorem nextOf_run {log : List RawEntry} {r : Reader}
    (hidle : r.phase = .idle) :
    ∃ r', Run (Reader.step codec log) (fun _ _ => True) r r' ∧
      r'.phase = .idle ∧ r'.sub = (r.sub.nextOf codec log).2 ∧
      r'.calls = r.calls ++ [⟨r.sub.lastEventId, (r.sub.nextOf codec log).1,
        (r.sub.nextOf codec log).2.lastEventId⟩] := by
  refine ⟨({ r with before := r.sub.lastEventId } : Reader).finish
    (r.sub.nextOf codec log).1 (r.sub.nextOf codec log).2, ?_, rfl, rfl, rfl⟩
  have hrun : ∀ {ls r'}, exec (Reader.step codec log) (fun _ _ => true) r ls =
      some r' → Run (Reader.step codec log) (fun _ _ => True) r r' :=
    run_of_exec fun _ _ _ => trivial
  cases hc : codec.readId r.sub.lastEventId with
  | none =>
      refine @hrun [.next 0, .serve 0, .handle 0, .reconnect 0 none, .serve 0,
        .handle 0, .reconnect 0 none, .serve 0, .handle 0, .reconnect 0 none,
        .serve 0, .handle 0] _ ?_
      simp [exec, Reader.step, hidle, ReadPhase.enter, hc, Reader.handle,
        ResultSubscription.nextOf, Reader.finish]
  | some c =>
      cases hfirst : firstAfter RawEntry.id c log with
      | none =>
          refine @hrun [.next 0, .timeout 0, .handle 0] _ ?_
          simp [exec, Reader.step, hidle, ReadPhase.enter, hc, hfirst,
            Reader.handle, ResultSubscription.nextOf, Reader.finish]
      | some entry =>
          refine @hrun [.next 0, .serve 0, .handle 0] _ ?_
          simp [exec, Reader.step, hidle, ReadPhase.enter, hc, hfirst,
            Reader.handle, ResultSubscription.nextOf, Reader.finish]

theorem received_ofResult {e : ResultEntry} (h : Retained b requestId)
    (hcodec : Decodes codec b requestId) (he : e ∈ b.resultLog requestId) :
    received codec (.ofResult codec e) = some ⟨e.eventId.text, e.result⟩ := by
  simp [received, payloadOf, RawEntry.ofResult, hcodec e he, Except.toOption,
    h.versioned e he]

theorem firstAfter_rawLog (codec : Codec) (b : Broker) (requestId : String)
    (c : StreamId) :
    firstAfter RawEntry.id c (b.rawLog codec requestId) =
      (firstAfter ResultEntry.eventId c (b.resultLog requestId)).map
        (RawEntry.ofResult codec) := by
  rw [firstAfter, Broker.rawLog, List.find?_map]
  rfl

/-- A call finds the first entry behind the cursor, or nothing. -/
theorem nextOf_rawLog {sub : ResultSubscription} {c : StreamId}
    (h : Retained b requestId) (hcodec : Decodes codec b requestId)
    (hc : codec.readId sub.lastEventId = some c) :
    sub.nextOf codec (b.rawLog codec requestId) =
      match firstAfter ResultEntry.eventId c (b.resultLog requestId) with
      | none => (.ok none, sub)
      | some e => (entryResult e, { sub with lastEventId := e.eventId.text }) := by
  simp only [ResultSubscription.nextOf, hc, firstAfter_rawLog]
  cases hfirst : firstAfter ResultEntry.eventId c (b.resultLog requestId) with
  | none => rfl
  | some e =>
      have hmem : e ∈ b.resultLog requestId := List.mem_of_find?_eq_some hfirst
      have hreceived := received_ofResult h hcodec hmem
      rcases parseResultReply_entry codec sub.stream (.ofResult codec e) with
        ⟨e', he', hparse⟩ | ⟨error, hnone, -⟩
      · rw [hreceived] at he'
        cases he'
        simp only [Option.map_some, ResultSubscription.accept, hparse]
        rfl
      · rw [hreceived] at hnone
        cases hnone

/-- The calls return what is behind the cursor, and then nothing any more. -/
theorem nexts_rawLog (hids : ReadsIds codec) (h : Retained b requestId)
    (hcodec : Decodes codec b requestId) {n : Nat} {sub : ResultSubscription}
    {c : StreamId} (hc : codec.readId sub.lastEventId = some c)
    (hn : (after ResultEntry.eventId c (b.resultLog requestId)).length ≤ n) :
    ∃ k, (after ResultEntry.eventId c (b.resultLog requestId)).length + k = n ∧
      sub.nexts codec (b.rawLog codec requestId) n =
        (after ResultEntry.eventId c (b.resultLog requestId)).map entryResult ++
          List.replicate k (.ok none) := by
  induction n generalizing sub c with
  | zero =>
      rw [Nat.le_zero, List.length_eq_zero_iff] at hn
      rw [hn]
      exact ⟨0, rfl, rfl⟩
  | succ n ih =>
      rw [ResultSubscription.nexts, nextOf_rawLog h hcodec hc]
      cases hfirst : firstAfter ResultEntry.eventId c
          (b.resultLog requestId) with
      | none =>
          have hnil := firstAfter_eq_none.mp hfirst
          obtain ⟨k, hk, hrest⟩ := ih hc (by simp [hnil])
          refine ⟨k + 1, by omega, ?_⟩
          dsimp only
          rw [hrest, hnil, List.replicate_succ]
          rfl
      | some e =>
          have hmem : e ∈ b.resultLog requestId :=
            List.mem_of_find?_eq_some hfirst
          have hcons := after_of_firstAfter h.increasing hfirst
          rw [hcons, List.length_cons] at hn ⊢
          have hid : codec.readId ({ sub with
              lastEventId := e.eventId.text } : ResultSubscription).lastEventId =
              some e.eventId := hids e.eventId (h.ids e hmem).2
          obtain ⟨k, hk, hrest⟩ := ih hid (Nat.le_of_succ_le_succ hn)
          refine ⟨k, by omega, ?_⟩
          dsimp only
          rw [hrest, List.map_cons, List.cons_append]

/-! ## The loop -/

section

variable (encodeProto : GenerationEvent → List UInt8) (model : String)

/-- The frames a client has received once the loop has dealt with these
entries. -/
def framesOf (requestId : String) (entries : List ResultEntry) :
    List (List UInt8) :=
  (streamLoop encodeProto model requestId (entries.map entryResult)).frames

/-- An entry that is not terminal adds its frame, if any, and the loop goes
on. -/
theorem streamLoop_cons_frames (requestId : String) {e : ResultEntry}
    (he : e.result.terminal = false) (rest : List NextResult) :
    streamLoop encodeProto model requestId (entryResult e :: rest) =
      ⟨framesOf encodeProto model requestId [e] ++
          (streamLoop encodeProto model requestId rest).frames,
        (streamLoop encodeProto model requestId rest).ended⟩ := by
  obtain ⟨eventId, result⟩ := e
  obtain ⟨version, rid, attemptId, event⟩ := result
  cases event with
  | none => rfl
  | some event =>
      cases event with
      | attemptStarted => rfl
      | token chunk => rfl
      | completed done => cases he
      | failed failure => cases he

theorem streamLoop_append (requestId : String) {entries : List ResultEntry}
    (h : ∀ e ∈ entries, e.result.terminal = false) (rest : List NextResult) :
    streamLoop encodeProto model requestId
        (entries.map entryResult ++ rest) =
      ⟨framesOf encodeProto model requestId entries ++
          (streamLoop encodeProto model requestId rest).frames,
        (streamLoop encodeProto model requestId rest).ended⟩ := by
  induction entries with
  | nil => rfl
  | cons e entries ih =>
      have he := h e List.mem_cons_self
      have ih' := ih fun x hx => h x (List.mem_cons_of_mem e hx)
      have hframes : framesOf encodeProto model requestId (e :: entries) =
          framesOf encodeProto model requestId [e] ++
            framesOf encodeProto model requestId entries := by
        rw [framesOf, List.map_cons, streamLoop_cons_frames _ _ _ he]
        rfl
      rw [List.map_cons, List.cons_append, streamLoop_cons_frames _ _ _ he, ih',
        hframes, List.append_assoc]

theorem framesOf_append (requestId : String) {entries : List ResultEntry}
    (h : ∀ e ∈ entries, e.result.terminal = false) (rest : List ResultEntry) :
    framesOf encodeProto model requestId (entries ++ rest) =
      framesOf encodeProto model requestId entries ++
        framesOf encodeProto model requestId rest := by
  rw [framesOf, List.map_append, streamLoop_append _ _ _ h]
  rfl

/-- The terminal event ends the loop. -/
theorem streamLoop_cons_terminal (requestId : String) {e : ResultEntry}
    (he : e.result.terminal = true) (rest : List NextResult) :
    streamLoop encodeProto model requestId (entryResult e :: rest) =
      ⟨framesOf encodeProto model requestId [e], true⟩ := by
  obtain ⟨eventId, result⟩ := e
  obtain ⟨version, rid, attemptId, event⟩ := result
  cases event with
  | none => cases he
  | some event =>
      cases event with
      | attemptStarted => cases he
      | token chunk => cases he
      | completed done => rfl
      | failed failure => rfl

/-- A finished log is sent whole, and nothing after it. -/
theorem streamLoop_finished (requestId : String) {events : List ResultEntry}
    {last : ResultEntry} (hevents : ∀ e ∈ events, e.result.terminal = false)
    (hlast : last.result.terminal = true) (rest : List NextResult) :
    streamLoop encodeProto model requestId
        ((events ++ [last]).map entryResult ++ rest) =
      ⟨framesOf encodeProto model requestId (events ++ [last]), true⟩ := by
  rw [List.map_append, List.append_assoc, List.map_singleton,
    List.singleton_append, streamLoop_append _ _ _ hevents,
    streamLoop_cons_terminal _ _ _ hlast, framesOf_append _ _ _ hevents]

end

/-! ## Resuming -/

/-- In a finished log everything but the last entry is followed by the
end. -/
theorem finished_split {events pre post : List ResultEntry}
    {last e : ResultEntry} (hlast : last.result.terminal = true)
    (hevents : ∀ e ∈ events, e.result.terminal = false)
    (h : events ++ [last] = pre ++ e :: post) :
    (post = [] ∧ e.result.terminal = true) ∨
    (∃ post', post = post' ++ [last] ∧ events = pre ++ e :: post' ∧
      e.result.terminal = false) := by
  rcases post.eq_nil_or_concat' with rfl | ⟨post', x, rfl⟩
  · obtain ⟨-, hx⟩ := List.append_inj' h rfl
    cases hx
    exact .inl ⟨rfl, hlast⟩
  · rw [← List.cons_append, ← List.append_assoc] at h
    obtain ⟨hpre, hx⟩ := List.append_inj' h rfl
    cases hx
    refine .inr ⟨post', rfl, hpre, hevents e ?_⟩
    rw [hpre]
    exact List.mem_append_right pre List.mem_cons_self

theorem validStreamId_text {id : StreamId} (h : id.InRange) :
    validStreamId id.text = true := by
  simp [validStreamId, splitOnce_text, parseUnsigned_toDigits h.1,
    parseUnsigned_toDigits h.2]

theorem text_ne_empty (id : StreamId) : id.text ≠ "" := by
  intro h
  have := congrArg String.toList h
  simp [StreamId.text] at this

/-- A retained generation can be subscribed to. -/
theorem subscribe_retained (h : Retained b requestId) (calls : Nat)
    (after : Option String) :
    (b.streams codec calls).subscribe requestId after =
      .ok (some ⟨resultStream requestId, after.getD "0-0"⟩) := by
  have hstatus : (b.status.live b.now requestId).isSome = true := by
    have hknown := h.known
    unfold Broker.statusOf Keyspace.get at hknown
    cases hlive : b.status.live b.now requestId with
    | none => rw [hlive] at hknown; cases hknown
    | some c => rfl
  obtain ⟨c, hc⟩ := Option.isSome_iff_exists.mp hstatus
  simp [Broker.streams, subscribe, hc]

/-- The stream from a cursor, as the loop over what is behind it. -/
theorem streamGeneration_retained (hids : ReadsIds codec)
    (h : Retained b requestId) (hcodec : Decodes codec b requestId)
    (encodeProto : GenerationEvent → List UInt8) (state : AppState)
    {calls : Nat} (hcalls : (b.resultLog requestId).length < calls)
    {cursor : Option String} {c : StreamId}
    (hc : codec.readId (cursor.getD "0-0") = some c) :
    ∃ k, streamGeneration encodeProto state (b.streams codec calls) requestId
        cursor =
      streamLoop encodeProto state.model.id requestId
        ((after ResultEntry.eventId c (b.resultLog requestId)).map entryResult ++
          .ok none :: List.replicate k (.ok none)) := by
  have hle : (after ResultEntry.eventId c (b.resultLog requestId)).length ≤
      (b.resultLog requestId).length := List.length_filter_le _ _
  have hsub : codec.readId (ResultSubscription.mk (resultStream requestId)
      (cursor.getD "0-0")).lastEventId = some c := hc
  obtain ⟨k, hk, hnexts⟩ := nexts_rawLog hids h hcodec hsub
    (le_trans hle (le_of_lt hcalls))
  obtain ⟨k, rfl⟩ : ∃ k', k = k' + 1 := ⟨k - 1, by omega⟩
  refine ⟨k, ?_⟩
  rw [streamGeneration, subscribe_retained h]
  show streamLoop _ _ _ (ResultSubscription.nexts _ _ _ _) = _
  rw [hnexts, List.replicate_succ]

/-- A well-formed request for a retained generation is answered with its
stream. -/
theorem rpcSubscribeGeneration_retained (h : Retained b requestId)
    (encodeProto : GenerationEvent → List UInt8) (state : AppState)
    {key : String} {authorization : Option (List UInt8)} (calls : Nat)
    (hid : requestId ≠ "") (hauth : authenticate state authorization = .ok key)
    {id : StreamId} (hrange : id.InRange) :
    rpcSubscribeGeneration encodeProto state (b.streams codec calls)
        authorization (.ok ⟨requestId, some id.text⟩) =
      .ok (streamGeneration encodeProto state (b.streams codec calls) requestId
        (some id.text)) := by
  obtain ⟨status, hstatus⟩ := Option.isSome_iff_exists.mp h.known
  have hstreams : (b.streams codec calls).status requestId =
      .ok (some status) := by
    rw [← hstatus]
    rfl
  have hcursor : (some id.text).filter (fun value => value ≠ "") =
      some id.text := by
    simp [Option.filter, text_ne_empty]
  simp only [rpcSubscribeGeneration, hauth, hid, hcursor, if_false,
    Option.any_some, validStreamId_text hrange, hstreams]
  rfl

/-- Without a cursor the whole log is sent. -/
theorem streamGeneration_whole (hids : ReadsIds codec)
    (h : Retained b requestId) (hcodec : Decodes codec b requestId)
    (encodeProto : GenerationEvent → List UInt8) (state : AppState)
    {calls : Nat} (hcalls : (b.resultLog requestId).length < calls) :
    streamGeneration encodeProto state (b.streams codec calls) requestId none =
      ⟨framesOf encodeProto state.model.id requestId (b.resultLog requestId),
        true⟩ := by
  obtain ⟨events, last, hfinished, hlast, hevents⟩ := h.finished
  have hzero : codec.readId ((none : Option String).getD "0-0") =
      some ⟨0, 0⟩ := hids ⟨0, 0⟩ (by decide)
  obtain ⟨k, hk⟩ := streamGeneration_retained hids h hcodec encodeProto state
    hcalls hzero
  rw [hk, after_eq_self fun x hx => (h.ids x hx).1, hfinished]
  exact streamLoop_finished _ _ _ hevents hlast _

/-- From an event of the log, what follows it is sent, and then the loop finds
nothing more. -/
theorem streamGeneration_after (hids : ReadsIds codec)
    (h : Retained b requestId) (hcodec : Decodes codec b requestId)
    (encodeProto : GenerationEvent → List UInt8) (state : AppState)
    {calls : Nat} (hcalls : (b.resultLog requestId).length < calls)
    {pre post : List ResultEntry} {e : ResultEntry}
    (hlog : b.resultLog requestId = pre ++ e :: post)
    (hrange : e.eventId.InRange) :
    ∃ k, streamGeneration encodeProto state (b.streams codec calls) requestId
        (some e.eventId.text) =
      streamLoop encodeProto state.model.id requestId
        (post.map entryResult ++ .ok none :: List.replicate k (.ok none)) := by
  have hcursor : codec.readId ((some e.eventId.text).getD "0-0") =
      some e.eventId := hids e.eventId hrange
  obtain ⟨k, hk⟩ := streamGeneration_retained hids h hcodec encodeProto state
    hcalls hcursor
  have hinc := h.increasing
  rw [hlog] at hinc hk
  rw [hinc.after_split] at hk
  exact ⟨k, hk⟩

/-- At every entry of a finished log: what the client has received so far is
the beginning of the uninterrupted stream, and followed by what a resumed
subscription sends it is all of it if and only if the entry is not the terminal
event. -/
theorem resume_iff (codec : Codec) (hids : ReadsIds codec)
    (encodeProto : GenerationEvent → List UInt8) (state : AppState)
    (b : Broker) (requestId key : String)
    (authorization : Option (List UInt8)) (calls : Nat)
    (hret : Retained b requestId) (hcodec : Decodes codec b requestId)
    (hid : requestId ≠ "") (hauth : authenticate state authorization = .ok key)
    (hcalls : (b.resultLog requestId).length < calls)
    (pre post : List ResultEntry) (e : ResultEntry)
    (hlog : b.resultLog requestId = pre ++ e :: post) :
    ∃ whole, whole.ended = true ∧
      streamGeneration encodeProto state (b.streams codec calls) requestId
        none = whole ∧
      framesOf encodeProto state.model.id requestId (pre ++ [e]) <+:
        whole.frames ∧
      ((∃ resumed, rpcSubscribeGeneration encodeProto state
          (b.streams codec calls) authorization
          (.ok ⟨requestId, some e.eventId.text⟩) = .ok resumed ∧
          whole = ⟨framesOf encodeProto state.model.id requestId (pre ++ [e]) ++
            resumed.frames, resumed.ended⟩) ↔
        e.result.terminal = false) := by
  obtain ⟨events, last, hfinished, hlast, hevents⟩ := hret.finished
  have hmem : e ∈ b.resultLog requestId := by
    rw [hlog]
    exact List.mem_append_right pre List.mem_cons_self
  have hrange := (hret.ids e hmem).2
  obtain ⟨k, hresumed⟩ := streamGeneration_after hids hret hcodec encodeProto
    state hcalls hlog hrange
  refine ⟨_, rfl, streamGeneration_whole hids hret hcodec encodeProto state
    hcalls, ?_⟩
  rw [rpcSubscribeGeneration_retained hret encodeProto state calls hid hauth
    hrange, hresumed]
  rcases finished_split hlast hevents (hfinished.symm.trans hlog) with
    ⟨rfl, hterminal⟩ | ⟨post', rfl, hpre, hterminal⟩
  · -- nothing is behind the terminal event, and the loop reports a timeout
    rw [hterminal, hlog]
    refine ⟨List.prefix_rfl, ?_⟩
    simp [streamLoop]
  · rw [hpre, List.append_cons] at hevents
    have hsplit : framesOf encodeProto state.model.id requestId
        (b.resultLog requestId) =
        framesOf encodeProto state.model.id requestId (pre ++ [e]) ++
          framesOf encodeProto state.model.id requestId (post' ++ [last]) := by
      rw [hlog, List.append_cons, framesOf_append]
      exact fun x hx => hevents x (List.mem_append_left post' hx)
    refine ⟨⟨_, hsplit.symm⟩, fun _ => hterminal, fun _ => ⟨_, rfl, ?_⟩⟩
    rw [hsplit, streamLoop_finished _ _ _
      (fun x hx => hevents x (List.mem_append_right _ hx)) hlast]

/-! ## A finished generation -/

/-- A varint, in at most that many bytes. -/
def varint : Nat → Nat → List UInt8
  | 0, _ => []
  | fuel + 1, n =>
      if n < 128 then [.ofNat n]
      else .ofNat (n % 128 + 128) :: varint fuel (n / 128)

def stringField (tag : UInt8) (text : String) : List UInt8 :=
  if text = "" then [] else tag :: (varint 10 (utf8 text).length ++ utf8 text)

def uintField (tag : UInt8) (n : Nat) : List UInt8 :=
  if n = 0 then [] else tag :: varint 10 n

/-- The protobuf encoding of a `GenerationEvent`. -/
def encodeEvent (event : GenerationEvent) : List UInt8 :=
  stringField 0x0a event.requestId ++ stringField 0x12 event.model ++
    stringField 0x1a event.delta ++ uintField 0x20 event.generatedTokens ++
    stringField 0x2a event.finishReason ++ stringField 0x32 event.eventId ++
    stringField 0x3a event.attemptId ++ uintField 0x40 event.promptTokens ++
    uintField 0x48 event.terminal.toNat

/-- `publish_result`, undisturbed. -/
def published (b : Broker) (result : GenerationResult) : Broker :=
  (b.appendResult result).2.recordResult .default result
    (b.appendResult result).1

/-- A broker that has taken the sample results in order. -/
def sampleBroker : Broker :=
  (sampleResults.map (·.1)).foldl published (.empty 5)

def sampleLog : List ResultEntry :=
  [⟨⟨5, 0⟩, ⟨1, "r", "a", some .attemptStarted⟩⟩,
    ⟨⟨5, 1⟩, ⟨1, "r", "a", some (.token ⟨"hi", 1⟩)⟩⟩,
    ⟨⟨5, 2⟩, ⟨1, "r", "a", some (.completed ⟨1, 1, "stop"⟩)⟩⟩]

theorem sampleBroker_log : sampleBroker.resultLog "r" = sampleLog := by decide

theorem sampleBroker_retained : Retained sampleBroker "r" where
  known := by decide
  increasing := by
    rw [sampleBroker_log]
    unfold Increasing sampleLog
    decide
  ids := by
    rw [sampleBroker_log]
    decide
  versioned := by
    rw [sampleBroker_log]
    decide
  finished :=
    ⟨sampleLog.take 2, ⟨⟨5, 2⟩, ⟨1, "r", "a", some (.completed ⟨1, 1, "stop"⟩)⟩⟩,
      sampleBroker_log, by decide, by decide⟩

theorem sampleBroker_decodes : Decodes sampleCodec sampleBroker "r" := by
  unfold Decodes
  rw [sampleBroker_log]
  intro e he
  simp only [sampleLog, List.mem_cons, List.not_mem_nil, or_false] at he
  rcases he with rfl | rfl | rfl <;> rfl

/-- The sample generation, resumed after the given event. -/
def sampleResume (id : String) : Except ErrorResponse Body :=
  rpcSubscribeGeneration encodeEvent sampleState
    (sampleBroker.streams sampleCodec 4) sampleAuthorization
    (.ok ⟨"r", some id⟩)

/-- The uninterrupted stream of the sample generation. -/
def sampleStream : Body :=
  streamGeneration encodeEvent sampleState (sampleBroker.streams sampleCodec 4)
    "r" none

theorem resume_iff_token :
    ∃ resumed, sampleResume "5-1" = .ok resumed ∧
      sampleStream =
        ⟨framesOf encodeEvent "m" "r" (sampleLog.take 2) ++ resumed.frames,
          resumed.ended⟩ := by
  obtain ⟨whole, -, hwhole, -, hiff⟩ := resume_iff sampleCodec
    sampleCodec_readsIds encodeEvent sampleState sampleBroker "r" "key"
    sampleAuthorization 4 sampleBroker_retained sampleBroker_decodes
    (by decide) (by rfl) (by rw [sampleBroker_log]; decide)
    (sampleLog.take 1) (sampleLog.drop 2)
    ⟨⟨5, 1⟩, ⟨1, "r", "a", some (.token ⟨"hi", 1⟩)⟩⟩ sampleBroker_log
  obtain ⟨resumed, hresumed, hframes⟩ := hiff.mpr rfl
  exact ⟨resumed, hresumed, hwhole.trans hframes⟩

/-- After the terminal event the client is told that the generation timed
out. -/
theorem resume_after_terminal :
    ∃ resumed, sampleResume "5-2" = .ok resumed ∧
      resumed.frames =
        [connectErrorEnvelope encodeEvent "r" "generation timed out"] ∧
      framesOf encodeEvent "m" "r" sampleLog = sampleStream.frames ∧
      framesOf encodeEvent "m" "r" sampleLog ++ resumed.frames ≠
        sampleStream.frames :=
  ⟨⟨[connectErrorEnvelope encodeEvent "r" "generation timed out"], true⟩, rfl,
    rfl, by decide, by decide⟩

end DataPlane.Proofs
