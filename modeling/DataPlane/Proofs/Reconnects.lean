import DataPlane.Lib.Through
import DataPlane.Proofs.Collect
import DataPlane.Proofs.Framing
import Mathlib.Data.List.TakeWhile

/-!
# A client that comes back

Between a client and the log are two connections that can break: the one of the
subscription to the broker, and the one of the response to the client. The
first is retried by `next` and the second by nobody. A client that was cut off
asks again, behind the last event it has, and gets another subscription.

What the log tells a client is `toldFrom`: its entries behind a cursor through
the terminal one, without those that have nothing to say. A session is one
response, as far as it got. Its events are a prefix of what the log tells
behind the cursor of the session; and where it was cut off, the log tells the
next session exactly what this one is missing.
-/

namespace DataPlane.Proofs

open DataPlane DataPlane.Ref DataPlane.Lib

/-! ## The frames of a response -/

/-- What an entry is to a client, if it is anything. -/
def entryEvent (model requestId : String) (entry : ReceivedEntry) :
    Option GenerationEvent :=
  match entry.result.event with
  | some (.token token) =>
      some
        { requestId := requestId
          model := model
          delta := token.text
          generatedTokens := token.cumulativeGeneratedTokens
          finishReason := ""
          eventId := entry.eventId
          attemptId := entry.result.attemptId
          promptTokens := 0
          terminal := false }
  | some (.completed done) =>
      some
        { requestId := requestId
          model := model
          delta := ""
          generatedTokens := done.generatedTokens
          finishReason := done.finishReason
          eventId := entry.eventId
          attemptId := entry.result.attemptId
          promptTokens := done.promptTokens
          terminal := true }
  | some (.failed failure) =>
      some
        { requestId := requestId
          model := model
          delta := failure.message
          generatedTokens := 0
          finishReason := failure.code
          eventId := entry.eventId
          attemptId := entry.result.attemptId
          promptTokens := 0
          terminal := true }
  | some .attemptStarted => none
  | none => none

/-- A generation ends with this entry. -/
def isEnd (entry : ReceivedEntry) : Bool := entry.result.terminal

/-- The frame of `connect_error_envelope`. -/
def errorFrame (requestId message : String) : Frame :=
  { event :=
      { requestId := requestId
        model := ""
        delta := message
        generatedTokens := 0
        finishReason := "error"
        eventId := ""
        attemptId := ""
        promptTokens := 0
        terminal := true }
    endStream := true }

/-- What the loop sends for an outcome of `next`. -/
def outcomeFrame (model requestId : String) : NextResult → Option Frame
  | .ok (some entry) => (entryEvent model requestId entry).map (⟨·, false⟩)
  | .ok none => some (errorFrame requestId "generation timed out")
  | .error _ => some (errorFrame requestId "failed reading generation")

/-- The frames of a response. -/
def sentFrames (model requestId : String) (results : List NextResult) :
    List Frame :=
  (through stops results).filterMap (outcomeFrame model requestId)

/-- The entries a loop reads before the first call without one. -/
def entriesRead : List NextResult → List ReceivedEntry
  | .ok (some entry) :: rest => entry :: entriesRead rest
  | _ => []

section

variable {model requestId : String} {entry : ReceivedEntry}
  {event : GenerationEvent} {results : List NextResult}

/-- The event of an entry has its id, and is terminal if the entry is. -/
theorem entryEvent_of (h : entryEvent model requestId entry = some event) :
    event.eventId = entry.eventId ∧ event.terminal = isEnd entry := by
  obtain ⟨eventId, version, request, attempt, found⟩ := entry
  cases found with
  | none => cases h
  | some found =>
      cases found with
      | attemptStarted => cases h
      | token token => cases h; exact ⟨rfl, rfl⟩
      | completed done => cases h; exact ⟨rfl, rfl⟩
      | failed failure => cases h; exact ⟨rfl, rfl⟩

/-- A terminal entry is told to the client. -/
theorem entryEvent_of_end (h : isEnd entry = true) :
    ∃ event, entryEvent model requestId entry = some event := by
  obtain ⟨eventId, version, request, attempt, found⟩ := entry
  cases found with
  | none => cases h
  | some found =>
      cases found with
      | attemptStarted => cases h
      | token token => cases h
      | completed done => exact ⟨_, rfl⟩
      | failed failure => exact ⟨_, rfl⟩

theorem streamLoop_frames (encode : GenerationEvent → List UInt8) :
    (streamLoop encode model requestId results).frames =
      (sentFrames model requestId results).map (Frame.bytes encode) := by
  unfold sentFrames
  induction results with
  | nil => rfl
  | cons outcome results ih =>
      cases hstop : stops outcome with
      | true =>
          rw [through_cons_end hstop]
          match outcome with
          | .error _ => rfl
          | .ok none => rfl
          | .ok (some ⟨_, ⟨_, _, _, event⟩⟩) =>
              match event with
              | none => cases hstop
              | some .attemptStarted => cases hstop
              | some (.token _) => cases hstop
              | some (.completed _) => rfl
              | some (.failed _) => rfl
      | false =>
          rw [through_cons hstop, streamLoop_cons _ _ _ hstop, ih]
          match outcome with
          | .error _ => cases hstop
          | .ok none => cases hstop
          | .ok (some ⟨_, ⟨_, _, _, event⟩⟩) =>
              match event with
              | none => rfl
              | some .attemptStarted => rfl
              | some (.token _) => rfl
              | some (.completed _) => cases hstop
              | some (.failed _) => cases hstop

/-- The events a client keeps of a response: those of its entries. -/
theorem sentFrames_unset :
    ((sentFrames model requestId results).takeWhile (!·.endStream)).map
        (·.event) =
      (through isEnd (entriesRead results)).filterMap
        (entryEvent model requestId) := by
  unfold sentFrames
  induction results with
  | nil => rfl
  | cons outcome results ih =>
      match outcome with
      | .error _ => rfl
      | .ok none => rfl
      | .ok (some entry) =>
          rw [entriesRead]
          cases hend : isEnd entry with
          | true =>
              rw [through_cons_end (show stops (.ok (some entry)) = true from
                hend), through_cons_end hend]
              cases hevent : entryEvent model requestId entry with
              | none => simp [outcomeFrame, hevent]
              | some event => simp [outcomeFrame, hevent]
          | false =>
              rw [through_cons (show stops (.ok (some entry)) = false from
                hend), through_cons hend]
              cases hevent : entryEvent model requestId entry with
              | none => simpa [outcomeFrame, hevent] using ih
              | some event => simpa [outcomeFrame, hevent] using ih

/-- A response that has ended without an error frame ends with a terminal
event. -/
theorem sentFrames_ended (hstop : results.any stops = true)
    (hunset : ∀ f ∈ sentFrames model requestId results,
      f.endStream = false) :
    ∃ f ∈ sentFrames model requestId results, f.event.terminal = true := by
  unfold sentFrames at hunset ⊢
  induction results with
  | nil => cases hstop
  | cons outcome results ih =>
      cases hends : stops outcome with
      | true =>
          rw [through_cons_end hends] at hunset ⊢
          match outcome with
          | .error _ => cases hunset _ List.mem_cons_self
          | .ok none => cases hunset _ List.mem_cons_self
          | .ok (some entry) =>
              obtain ⟨event, hevent⟩ :=
                @entryEvent_of_end model requestId entry hends
              refine ⟨⟨event, false⟩, ?_, ?_⟩
              · simp [outcomeFrame, hevent]
              · exact (entryEvent_of hevent).2.trans hends
      | false =>
          rw [List.any_cons, hends, Bool.false_or] at hstop
          rw [through_cons hends] at hunset ⊢
          have hsub : (through stops results).filterMap
              (outcomeFrame model requestId) ⊆
              (outcome :: through stops results).filterMap
                (outcomeFrame model requestId) :=
            ((List.sublist_cons_self ..).filterMap _).subset
          obtain ⟨f, hf, hterminal⟩ :=
            ih hstop fun f hf => hunset f (hsub hf)
          exact ⟨f, hsub hf, hterminal⟩

end

/-! ## What the log tells -/

/-- The entries that can be read, up to the first that cannot. -/
def legible (codec : Codec) : List RawEntry → List ReceivedEntry
  | [] => []
  | raw :: rest =>
      match received codec raw with
      | none => []
      | some entry => entry :: legible codec rest

/-- The events of a log for a client that has read up to a cursor. -/
def toldFrom (codec : Codec) (model requestId : String) (log : List RawEntry)
    (start : String) : List GenerationEvent :=
  (through isEnd (legible codec (behind codec start log))).filterMap
    (entryEvent model requestId)

section

variable {codec : Codec} {model requestId start : String}
  {log raws : List RawEntry} {entry : ReceivedEntry}

theorem prefix_legible {entries : List ReceivedEntry}
    (h : entries.map some <+: raws.map (received codec)) :
    entries <+: legible codec raws := by
  induction entries generalizing raws with
  | nil => exact List.nil_prefix
  | cons entry entries ih =>
      cases raws with
      | nil => exact absurd h.length_le (by simp)
      | cons raw raws =>
          rw [List.map_cons, List.map_cons, List.cons_prefix_cons] at h
          rw [legible, ← h.1]
          exact List.cons_prefix_cons.mpr ⟨rfl, ih h.2⟩

/-- An entry that can be read is an entry of the log, and what can be read
behind it is behind it there. -/
theorem legible_split {u v : List ReceivedEntry}
    (h : legible codec raws = u ++ entry :: v) :
    ∃ pre raw post, raws = pre ++ raw :: post ∧
      received codec raw = some entry ∧ legible codec post = v := by
  induction raws generalizing u with
  | nil => exact absurd h.symm (by simp [legible])
  | cons raw raws ih =>
      rw [legible] at h
      split at h
      · exact absurd h.symm (by simp)
      · next first hfirst =>
          cases u with
          | nil =>
              injection h with hentry hv
              exact ⟨[], raw, raws, rfl, by rw [hfirst, hentry], hv⟩
          | cons other u =>
              injection h with _ h
              obtain ⟨pre, found, post, rfl, hfound, hv⟩ := ih h
              exact ⟨raw :: pre, found, post, rfl, hfound, hv⟩

/-- The entries behind a cursor that a reader has got to. -/
theorem behind_split (hids : ReadsIds codec) (hlog : LogOk log)
    {pre post : List RawEntry} {raw : RawEntry}
    (h : behind codec start log = pre ++ raw :: post) :
    raw ∈ log ∧ behind codec raw.id.text log = post := by
  unfold behind at h
  split at h
  · next c _ =>
      have hmem : raw ∈ after RawEntry.id c log := by
        rw [h]
        exact List.mem_append_right pre List.mem_cons_self
      have hraw : raw ∈ log := (List.mem_filter.mp hmem).1
      refine ⟨hraw, ?_⟩
      rw [behind, hids raw.id (hlog.inRange raw hraw)]
      exact hlog.increasing.after_cut h
  · exact absurd h.symm (by simp)

/-- Every event that is told has the id of an entry of the log. -/
theorem told_eventId {event : GenerationEvent}
    (h : event ∈ toldFrom codec model requestId log start) :
    ∃ raw ∈ log, event.eventId = raw.id.text := by
  obtain ⟨entry, hentry, hevent⟩ := List.mem_filterMap.mp h
  obtain ⟨u, v, hsplit⟩ :=
    List.append_of_mem (through_isPrefix.subset hentry)
  obtain ⟨pre, raw, post, hraws, hread, -⟩ := legible_split hsplit
  refine ⟨raw, ?_, ?_⟩
  · have hmem : raw ∈ behind codec start log := by
      rw [hraws]
      exact List.mem_append_right pre List.mem_cons_self
    unfold behind at hmem
    split at hmem
    · exact (List.mem_filter.mp hmem).1
    · cases hmem
  · rw [(entryEvent_of hevent).1, received_eventId hread]

/-- Cut off behind an event that does not end the generation, the log tells the
rest behind that event's id. -/
theorem told_resume (hids : ReadsIds codec) (hlog : LogOk log)
    {got : List GenerationEvent} {last : GenerationEvent}
    (h : got ++ [last] <+: toldFrom codec model requestId log start)
    (hlast : last.terminal = false) :
    toldFrom codec model requestId log start =
      got ++ [last] ++
        toldFrom codec model requestId log last.eventId := by
  obtain ⟨u, entry, rest, hcut, hentry, -, htold⟩ := cut_filterMap h
    fun x hx => (entryEvent_of hx).2.symm.trans hlast
  obtain ⟨pre, raw, post, hraws, hread, hrest⟩ := legible_split hcut
  have hbehind := (behind_split hids hlog hraws).2
  have hid : last.eventId = raw.id.text := by
    rw [(entryEvent_of hentry).1, received_eventId hread]
  show (through isEnd (legible codec (behind codec start log))).filterMap
    (entryEvent model requestId) = _
  rw [htold, toldFrom, hid, hbehind, hrest]

end

/-! ## One response -/

/-- The bytes of one response that reached the client, and what broke the
connection, if it broke. -/
structure Session where
  reader : Reader
  chunks : List (List UInt8)
  lost : Option String

/-- What the calls of `next` have returned to the handler. -/
def Session.results (s : Session) : List NextResult :=
  s.reader.calls.map (·.result)

/-- What the client makes of the chunks that arrive. -/
def Session.read (decode : List UInt8 → Except String GenerationEvent)
    (s : Session) : StreamRead :=
  readStream decode (s.chunks.map .ok ++ s.lost.toList.map .error)

section

variable {encode : GenerationEvent → List UInt8}
  {decode : List UInt8 → Except String GenerationEvent}
  {model requestId : String} {frames : List Frame} {s : Session}

/-- Of the frames that are complete, the client keeps the messages before the
first with the flag. -/
theorem foldl_keepFrame (h : ∀ f ∈ frames, Sendable encode decode f)
    (events : List GenerationEvent) :
    (frames.map fun f => ((if f.endStream then 2 else 0 : UInt8),
      encode f.event)).foldl (keepFrame decode) (events, none) =
        (events ++ (frames.takeWhile (!·.endStream)).map (·.event),
          (frames.find? (·.endStream)).map fun f => .stream f.event.delta) := by
  induction frames generalizing events with
  | nil => simp
  | cons f frames ih =>
      have hdecodes := (h f List.mem_cons_self).decodes
      rw [List.map_cons, List.foldl_cons]
      cases hflag : f.endStream with
      | true =>
          have hkept : keepFrame decode (events, none)
              (if true then 2 else 0, encode f.event) =
              (events, some (.stream f.event.delta)) := by
            simp [keepFrame, hdecodes]
          rw [hkept, foldl_keepFrame_failed]
          simp [hflag]
      | false =>
          have hkept : keepFrame decode (events, none)
              (if false then 2 else 0, encode f.event) =
              (events ++ [f.event], none) := by
            simp [keepFrame, hdecodes]
          rw [hkept, ih fun x hx => h x (List.mem_cons_of_mem f hx)]
          simp [hflag]

/-- A transport error takes nothing away. -/
theorem Session.read_events (s : Session) :
    (s.read decode).events = (readStream decode (s.chunks.map .ok)).events ∧
      ((s.read decode).failed = none →
        (readStream decode (s.chunks.map .ok)).failed = none) := by
  unfold Session.read
  cases s.lost with
  | none => simp
  | some text =>
      rw [Option.toList_some, List.map_singleton, readStream,
        List.foldl_append, ← readStream, List.foldl_cons, List.foldl_nil]
      generalize readStream decode (s.chunks.map .ok) = r
      cases hfailed : r.failed with
      | none => simp [readStreamChunk, hfailed]
      | some e => simp [readStreamChunk, hfailed]

/-- Cut off anywhere, a response leaves the client with a prefix of the events
of its entries. -/
theorem read_cut (h : ∀ f ∈ frames, Sendable encode decode f)
    (hcut : s.chunks.flatten <+: bytesOf encode frames) :
    (s.read decode).events <+:
      (frames.takeWhile (!·.endStream)).map (·.event) := by
  obtain ⟨k, rest, hpart, hrest, -⟩ := bytesOf_cut h hcut
  have hnone : frameSplitter.next rest = none := hrest
  obtain ⟨hfold, -⟩ := @readStream_spec decode s.chunks
  rw [hpart, split_bytesOf fun f hf => h f (List.mem_of_mem_take hf),
    Splitter.split_of_none hnone, List.append_nil,
    foldl_keepFrame fun f hf => h f (List.mem_of_mem_take hf),
    List.nil_append, Prod.mk.injEq] at hfold
  rw [s.read_events.1, hfold.1]
  rw [← List.take_takeWhile]
  exact (List.take_prefix k _).map _

/-- Received in full and without a failure, it leaves the client with all of
them, and none was an error. -/
theorem read_whole (h : ∀ f ∈ frames, Sendable encode decode f)
    (hwhole : s.chunks.flatten = bytesOf encode frames)
    (hread : (s.read decode).failed = none) :
    (s.read decode).events = frames.map (·.event) ∧
      ∀ f ∈ frames, f.endStream = false := by
  obtain ⟨hfold, -⟩ := @readStream_spec decode s.chunks
  have hnone : frameSplitter.next [] = none := rfl
  rw [hwhole, ← List.append_nil (bytesOf encode frames), split_bytesOf h,
    Splitter.split_of_none hnone, List.append_nil, foldl_keepFrame h,
    List.nil_append, Prod.mk.injEq] at hfold
  have hunset : ∀ f ∈ frames, f.endStream = false := by
    have hfailed := s.read_events.2 hread
    rw [hfold.2, Option.map_eq_none_iff, List.find?_eq_none] at hfailed
    intro f hf
    exact Bool.eq_false_iff.mpr (hfailed f hf)
  refine ⟨?_, hunset⟩
  rw [s.read_events.1, hfold.1, List.takeWhile_eq_self_iff.mpr]
  intro f hf
  rw [hunset f hf]
  rfl

end

/-! ## Coming back -/

/-- The cursor of a subscription, from the `after_event_id` of a request. -/
def cursorOf (after : Option String) : String :=
  (after.filter (· ≠ "")).getD "0-0"

/-- The last event id a client has. -/
def lastSeen (after : Option String) (events : List GenerationEvent) :
    Option String :=
  (events.getLast?.map (·.eventId)).or after

section

variable (encode : GenerationEvent → List UInt8)
  (decode : List UInt8 → Except String GenerationEvent)
  (model requestId : String)

/-- The session is a response of `stream_generation`, over one of the
subscriptions of the feed, as far as it got. -/
structure Session.Of (f : Feed) (after : Option String) (s : Session) :
    Prop where
  reader : s.reader ∈ f.readers
  start : s.reader.start = cursorOf after
  bytes : s.chunks.flatten <+:
    (streamLoop encode model requestId s.results).frames.flatten

/-- The sessions of one client, the first with the given `after_event_id`. It
comes back behind the last event it has, and only if the generation has not
ended. -/
inductive ComesBack (f : Feed) : Option String → List Session → Prop
  | done (after : Option String) : ComesBack f after []
  | session {after : Option String} {s : Session} {rest : List Session} :
      s.Of encode model requestId f after →
      (rest ≠ [] → ∀ e ∈ (s.read decode).events, e.terminal = false) →
      ComesBack f (lastSeen after (s.read decode).events) rest →
      ComesBack f after (s :: rest)

end

/-- All the events a client has received. -/
def receivedBy (decode : List UInt8 → Except String GenerationEvent)
    (sessions : List Session) : List GenerationEvent :=
  sessions.flatMap fun s => (s.read decode).events

section

variable {codec : Codec} {encode : GenerationEvent → List UInt8}
  {decode : List UInt8 → Except String GenerationEvent}
  {model requestId start : String} {f : Feed} {after : Option String}
  {s : Session} {sessions : List Session}

theorem entriesRead_isPrefix (results : List NextResult) :
    entriesRead results <+: results.filterMap entryOf := by
  induction results with
  | nil => exact List.nil_prefix
  | cons outcome results ih =>
      match outcome with
      | .error _ => exact List.nil_prefix
      | .ok none => exact List.nil_prefix
      | .ok (some entry) => exact List.cons_prefix_cons.mpr ⟨rfl, ih⟩

theorem returned_results (r : Reader) :
    (r.calls.map (·.result)).filterMap entryOf = r.returned := by
  rw [List.filterMap_map, Reader.returned]
  rfl

/-- The entries a handler has read are the first that can be read behind its
cursor. -/
theorem entriesRead_legible (h : FeedOk codec f)
    (hreader : s.reader ∈ f.readers) :
    entriesRead s.results <+:
      legible codec (behind codec s.reader.start f.log) := by
  obtain ⟨got, hgot⟩ := (h.readers s.reader hreader).stands
  have hread := entriesRead_isPrefix s.results
  rw [Session.results, returned_results] at hread
  exact hread.trans (prefix_legible hgot.isPrefix)

theorem Session.Of.cut (h : s.Of encode model requestId f after) :
    s.chunks.flatten <+: bytesOf encode (sentFrames model requestId s.results) := by
  have hbytes := h.bytes
  rw [streamLoop_frames] at hbytes
  exact hbytes

/-- One session leaves the client with a prefix of what there is to tell. -/
theorem session_told (hok : FeedOk codec f)
    (h : s.Of encode model requestId f after)
    (hsend : ∀ frame ∈ sentFrames model requestId s.results,
      Sendable encode decode frame) :
    (s.read decode).events <+:
      toldFrom codec model requestId f.log (cursorOf after) := by
  have hcut := read_cut hsend h.cut
  rw [sentFrames_unset] at hcut
  rw [← h.start]
  exact hcut.trans
    ((through_mono (entriesRead_legible hok h.reader)).filterMap _)

/-- A session that was received in full, and was not an error, ends with a
terminal event. -/
theorem session_ended
    (hsend : ∀ frame ∈ sentFrames model requestId s.results,
      Sendable encode decode frame)
    (hwhole : s.chunks.flatten =
      (streamLoop encode model requestId s.results).frames.flatten)
    (hended : (streamLoop encode model requestId s.results).ended = true)
    (hread : (s.read decode).failed = none) :
    ∃ e ∈ (s.read decode).events, e.terminal = true := by
  rw [streamLoop_frames] at hwhole
  rw [streamLoop_ended] at hended
  obtain ⟨hevents, hunset⟩ := read_whole hsend hwhole hread
  obtain ⟨frame, hframe, hterminal⟩ := sentFrames_ended hended hunset
  rw [hevents]
  exact ⟨frame.event, List.mem_map_of_mem hframe, hterminal⟩

/-- The next session starts where the log tells the rest. -/
theorem told_next (hids : ReadsIds codec) (hlog : LogOk f.log)
    {events : List GenerationEvent}
    (h : events <+: toldFrom codec model requestId f.log (cursorOf after))
    (hrunning : ∀ e ∈ events, e.terminal = false) :
    toldFrom codec model requestId f.log (cursorOf after) =
      events ++ toldFrom codec model requestId f.log
        (cursorOf (lastSeen after events)) := by
  rcases events.eq_nil_or_concat' with rfl | ⟨got, last, rfl⟩
  · rfl
  · have hcut := told_resume hids hlog h
      (hrunning last (List.mem_append_right got List.mem_cons_self))
    have hmem := h.subset (List.mem_append_right got List.mem_cons_self)
    obtain ⟨raw, -, hid⟩ := told_eventId hmem
    have hcursor : cursorOf (lastSeen after (got ++ [last])) =
        last.eventId := by
      have hne : last.eventId ≠ "" := by
        rw [hid]
        exact text_ne_empty raw.id
      simp [cursorOf, lastSeen, Option.filter_some, hne]
    rw [hcursor]
    exact hcut

/-- The induction over the sessions. -/
theorem receivedBy_told (hids : ReadsIds codec) (hok : FeedOk codec f)
    (h : ComesBack encode decode model requestId f after sessions)
    (hsend : ∀ s ∈ sessions, ∀ frame ∈ sentFrames model requestId s.results,
      Sendable encode decode frame) :
    receivedBy decode sessions <+:
      toldFrom codec model requestId f.log (cursorOf after) := by
  induction h with
  | done after => exact List.nil_prefix
  | @session after s rest hof hrunning hrest ih =>
      have hfirst := session_told hok hof (hsend s List.mem_cons_self)
      have hlater := ih fun x hx => hsend x (List.mem_cons_of_mem s hx)
      rw [receivedBy, List.flatMap_cons]
      by_cases hlast : rest = []
      · rw [hlast, List.flatMap_nil, List.append_nil]
        exact hfirst
      · rw [told_next hids hok.log hfirst (hrunning hlast)]
        exact List.prefix_append_right_inj _ |>.mpr hlater

/-- Ids that are told are told once. -/
theorem told_nodup (hids : ReadsIds codec) (hlog : LogOk f.log) :
    ((toldFrom codec model requestId f.log start).map (·.eventId)).Nodup := by
  have htexts : (f.log.map (·.id.text)).Nodup := by
    rw [List.Nodup, List.pairwise_map]
    refine hlog.increasing.imp_of_mem ?_
    intro a b ha hb hlt htext
    have hread := hids a.id (hlog.inRange a ha)
    rw [htext, hids b.id (hlog.inRange b hb)] at hread
    injection hread with hid
    rw [hid] at hlt
    exact lt_irrefl _ hlt
  have hbehind : (behind codec start f.log).Sublist f.log := by
    unfold behind
    split
    · exact List.filter_sublist
    · exact List.nil_sublist _
  have hlegible : ∀ raws : List RawEntry,
      (legible codec raws).map (·.eventId) <+: raws.map (·.id.text) := by
    intro raws
    induction raws with
    | nil => exact List.prefix_rfl
    | cons raw raws ih =>
        rw [legible]
        split
        · exact List.nil_prefix
        · next entry hentry =>
            rw [List.map_cons, List.map_cons, received_eventId hentry]
            exact List.cons_prefix_cons.mpr ⟨rfl, ih⟩
  have htold : ∀ entries : List ReceivedEntry,
      ((entries.filterMap (entryEvent model requestId)).map
        (·.eventId)).Sublist (entries.map (·.eventId)) := by
    intro entries
    induction entries with
    | nil => exact List.Sublist.slnil
    | cons entry entries ih =>
        rw [List.map_cons]
        cases hevent : entryEvent model requestId entry with
        | none =>
            rw [List.filterMap_cons_none hevent]
            exact ih.cons _
        | some event =>
            rw [List.filterMap_cons_some hevent, List.map_cons,
              (entryEvent_of hevent).1]
            exact ih.cons_cons _
  refine List.Nodup.sublist ?_ htexts
  refine (htold _).trans ?_
  refine (through_isPrefix.map _).sublist.trans ?_
  exact (hlegible _).sublist.trans (hbehind.map _)

end

/-- However often a client is cut off and comes back, and whatever breaks
between the subscriptions and the broker meanwhile: what it has received in all
is the beginning of what the log tells behind the cursor it first had, every
event once; it is all of that once the end of the generation is among it, which
it is when the last response was received in full and `read_stream` did not
fail; and every id it was given is one the frontend takes as a cursor. -/
theorem returning_client_misses_nothing (codec : Codec)
    (hids : ReadsIds codec) (encode : GenerationEvent → List UInt8)
    (decode : List UInt8 → Except String GenerationEvent)
    (model requestId : String) (f : Feed)
    (hrun : Run (Feed.step codec) (fun _ _ => True) .init f)
    (after : Option String) (sessions : List Session)
    (h : ComesBack encode decode model requestId f after sessions)
    (hsend : ∀ s ∈ sessions, ∀ frame ∈ sentFrames model requestId s.results,
      Sendable encode decode frame) :
    receivedBy decode sessions <+:
        toldFrom codec model requestId f.log (cursorOf after) ∧
      ((∃ e ∈ receivedBy decode sessions, e.terminal = true) →
        receivedBy decode sessions =
          toldFrom codec model requestId f.log (cursorOf after)) ∧
      (∀ s, sessions.getLast? = some s →
        s.chunks.flatten =
          (streamLoop encode model requestId s.results).frames.flatten →
        (streamLoop encode model requestId s.results).ended = true →
        (s.read decode).failed = none →
        receivedBy decode sessions =
          toldFrom codec model requestId f.log (cursorOf after)) ∧
      ((receivedBy decode sessions).map (·.eventId)).Nodup ∧
      ∀ e ∈ receivedBy decode sessions,
        e.eventId ≠ "" ∧ validStreamId e.eventId = true := by
  have hok : FeedOk codec f :=
    hrun.invariant (feedOk_init codec) fun h _ hstep => h.step hids hstep
  have htold := receivedBy_told hids hok h hsend
  have hall : (∃ e ∈ receivedBy decode sessions, e.terminal = true) →
      receivedBy decode sessions =
        toldFrom codec model requestId f.log (cursorOf after) := by
    rintro ⟨e, he, hterminal⟩
    exact eq_of_kept_end htold he fun x hx =>
      (entryEvent_of hx).2.symm.trans hterminal
  refine ⟨htold, hall, ?_, ?_, ?_⟩
  · intro s hs hwhole hended hread
    have hmem : s ∈ sessions := List.mem_of_getLast? hs
    obtain ⟨e, he, hterminal⟩ :=
      session_ended (hsend s hmem) hwhole hended hread
    exact hall ⟨e, List.mem_flatMap.mpr ⟨s, hmem, he⟩, hterminal⟩
  · exact (htold.map _).sublist.nodup (told_nodup hids hok.log)
  · intro e he
    obtain ⟨raw, hraw, hid⟩ := told_eventId (htold.subset he)
    rw [hid]
    exact ⟨text_ne_empty raw.id, validStreamId_text (hok.log.inRange raw hraw)⟩

/-! ## A client that comes back once -/

/-- A subscription that reads the first two entries, the second over a new
connection, and one that starts behind them before there is a third. -/
def cutFeed : List Feed.Label :=
  [.append (sampleEntry ⟨5, 0⟩ 0), .subscribe "r" none true,
    .next 0, .serve 0, .handle 0,
    .append (sampleEntry ⟨5, 1⟩ 1),
    .next 0, .fail 0 "broken pipe", .handle 0, .reconnect 0 none, .serve 0,
    .handle 0,
    .subscribe "r" (some "5-1") true, .next 1,
    .append (sampleEntry ⟨5, 2⟩ 2), .serve 1, .handle 1]

/-- Where the two subscriptions started, and what their calls returned. -/
def cutReads : List (String × List NextResult) :=
  [("0-0", [.ok (some ⟨"5-0", ⟨1, "r", "a", some .attemptStarted⟩⟩),
      .ok (some ⟨"5-1", ⟨1, "r", "a", some (.token ⟨"hi", 1⟩)⟩⟩)]),
    ("5-1", [.ok (some ⟨"5-2",
      ⟨1, "r", "a", some (.completed ⟨1, 1, "stop"⟩)⟩⟩)])]

/-- The token, in two chunks, and then nothing. -/
def cutChunks : List (List UInt8) :=
  [(bytesOf encodeEvent (sampleFrames.take 1)).take 3,
    (bytesOf encodeEvent (sampleFrames.take 1)).drop 3]

theorem sampleFrames_sendable :
    ∀ frame ∈ sampleFrames, Sendable encodeEvent decodeSample frame := by
  intro frame hframe
  simp only [sampleFrames, List.mem_cons, List.not_mem_nil, or_false] at hframe
  rcases hframe with rfl | rfl
  · exact ⟨by decide, by decide⟩
  · exact ⟨by decide, by decide⟩

/-- The token reaches the client before its connection is lost; it comes back
behind the token and gets the end. -/
def cutSessions (r₁ r₂ : Reader) : List Session :=
  [⟨r₁, cutChunks, some "connection reset"⟩,
    ⟨r₂, [bytesOf encodeEvent (sampleFrames.drop 1)], none⟩]

theorem cutSessions_events (r₁ r₂ : Reader) :
    (cutSessions r₁ r₂).map (fun s => (s.read decodeSample).events) =
      [(sampleFrames.take 1).map (·.event),
        (sampleFrames.drop 1).map (·.event)] := by
  have hfirst : (readStream decodeSample (cutChunks.map .ok)).events =
      (sampleFrames.take 1).map (·.event) := by decide
  have hsecond : (readStream decodeSample
      ([bytesOf encodeEvent (sampleFrames.drop 1)].map .ok)).events =
      (sampleFrames.drop 1).map (·.event) := by decide
  rw [cutSessions, List.map_cons, List.map_singleton,
    (Session.read_events _).1, (Session.read_events _).1]
  show [(readStream decodeSample (cutChunks.map .ok)).events,
    (readStream decodeSample
      ([bytesOf encodeEvent (sampleFrames.drop 1)].map .ok)).events] = _
  rw [hfirst, hsecond]

theorem cutSessions_received (r₁ r₂ : Reader) :
    receivedBy decodeSample (cutSessions r₁ r₂) =
      sampleFrames.map (·.event) := by
  rw [receivedBy, List.flatMap_def, cutSessions_events]
  rfl

section

variable {f : Feed} {r₁ r₂ : Reader}

theorem cutSessions_sendable
    (h₁ : (r₁.start, r₁.calls.map (·.result)) ∈ cutReads.take 1)
    (h₂ : (r₂.start, r₂.calls.map (·.result)) ∈ cutReads.drop 1) :
    ∀ s ∈ cutSessions r₁ r₂, ∀ frame ∈ sentFrames "m" "r" s.results,
      Sendable encodeEvent decodeSample frame := by
  have hread₁ := (Prod.mk.inj (List.mem_singleton.mp h₁)).2
  have hread₂ := (Prod.mk.inj (List.mem_singleton.mp h₂)).2
  intro s hs frame hframe
  simp only [cutSessions, List.mem_cons, List.not_mem_nil, or_false] at hs
  rcases hs with rfl | rfl
  · rw [Session.results, hread₁] at hframe
    exact sampleFrames_sendable frame (List.mem_of_mem_take (i := 1) hframe)
  · rw [Session.results, hread₂] at hframe
    exact sampleFrames_sendable frame (List.mem_of_mem_drop (i := 1) hframe)

theorem cutSessions_comeBack
    (h₁ : (r₁.start, r₁.calls.map (·.result)) ∈ cutReads.take 1)
    (h₂ : (r₂.start, r₂.calls.map (·.result)) ∈ cutReads.drop 1)
    (hr₁ : r₁ ∈ f.readers) (hr₂ : r₂ ∈ f.readers) :
    ComesBack encodeEvent decodeSample "m" "r" f none
      (cutSessions r₁ r₂) := by
  obtain ⟨hstart₁, hread₁⟩ := Prod.mk.inj (List.mem_singleton.mp h₁)
  obtain ⟨hstart₂, hread₂⟩ := Prod.mk.inj (List.mem_singleton.mp h₂)
  have hevents :
      (Session.read decodeSample ⟨r₁, cutChunks, some "connection reset"⟩).events =
        (sampleFrames.take 1).map (·.event) :=
    (List.cons.inj (cutSessions_events r₁ r₂)).1
  refine .session ⟨hr₁, hstart₁, ?_⟩ ?_
    (.session ⟨hr₂, ?_, ?_⟩ (fun h => absurd rfl h) (.done _))
  · rw [Session.results, hread₁]
    show cutChunks.flatten <+: _
    decide
  · intro _
    rw [hevents]
    decide
  · rw [hevents]
    exact hstart₂
  · rw [Session.results, hread₂]
    show [bytesOf encodeEvent (sampleFrames.drop 1)].flatten <+: _
    decide

end

theorem returning_client_misses_nothing_once :
    ∃ f r₁ r₂, Run (Feed.step sampleCodec) (fun _ _ => True) .init f ∧
      f.readers = [r₁, r₂] ∧
      receivedBy decodeSample (cutSessions r₁ r₂) =
        sampleFrames.map (·.event) ∧
      receivedBy decodeSample (cutSessions r₁ r₂) =
        toldFrom sampleCodec "m" "r" f.log "0-0" := by
  obtain ⟨f, hrun, hobs⟩ := run_of_exec_map (Feed.step sampleCodec)
    (fun _ _ => True) (fun _ _ => true) .init cutFeed
    (fun f => f.readers.map fun r => (r.start, r.calls.map (·.result)))
    (b := cutReads) (fun _ _ _ => trivial) (by decide)
  obtain ⟨r₁, rest, hreaders, hr₁, hrest⟩ := List.map_eq_cons_iff.mp hobs
  obtain ⟨r₂, rest, rfl, hr₂, hnil⟩ := List.map_eq_cons_iff.mp hrest
  rw [List.map_eq_nil_iff] at hnil
  subst hnil
  have h₁ := List.mem_singleton.mpr hr₁
  have h₂ := List.mem_singleton.mpr hr₂
  obtain ⟨-, hall, -⟩ := returning_client_misses_nothing sampleCodec
    sampleCodec_readsIds encodeEvent decodeSample "m" "r" f hrun none _
    (cutSessions_comeBack h₁ h₂ (by simp [hreaders]) (by simp [hreaders]))
    (cutSessions_sendable h₁ h₂)
  refine ⟨f, r₁, r₂, hrun, hreaders, cutSessions_received r₁ r₂, hall ?_⟩
  rw [cutSessions_received]
  decide

end DataPlane.Proofs
