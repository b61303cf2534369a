import DataPlane.Lib.Decimal
import DataPlane.Lib.Run
import DataPlane.Ref.Subscription

/-!
# Every subscription replays the log

Whatever happens to a connection, a subscription has returned an initial
segment of what is behind the cursor it started from. The parser is looked at
once, to say what it makes of the reply to a read; after that the cursor is a
position in the log and `Taken` does the rest.

The reply on its way is the delicate part. It was cut from the log as the log
was when the server answered, and is looked at after the log has grown: the
first entry behind the cursor is still the first, because only `next` moves the
cursor and it is waiting for that very reply.
-/

namespace DataPlane.Proofs

open DataPlane DataPlane.Ref DataPlane.Lib

/-! ## The parser -/

@[simp]
theorem fromUtf8_utf8 (text : String) : fromUtf8 (utf8 text) = some text := by
  have hbytes : (⟨(utf8 text).toArray⟩ : ByteArray) = text.toUTF8 := by
    simp [utf8]
  rw [fromUtf8, hbytes, String.toUTF8_eq_toByteArray, String.fromUTF8?,
    dif_pos text.isValidUTF8]
  rfl

/-- The payload of an entry: the value of its first field of that name. -/
def payloadOf (entry : RawEntry) : Option (List UInt8) :=
  (entry.fields.find? (·.1 = utf8 "payload")).map (·.2)

/-- What an entry of the log is to a subscription, if it is anything. -/
def received (codec : Codec) (entry : RawEntry) : Option ReceivedEntry := do
  let payload ← payloadOf entry
  let result ← (codec.decode payload).toOption
  if result.schemaVersion = schemaVersion then
    some ⟨entry.id.text, result⟩
  else none

/-- The loop over the field list finds the payload. -/
theorem payloadField_fields (entry : RawEntry) :
    payloadField (entry.fields.flatMap fun (key, value) =>
      [.bulkString key, .bulkString value]) = payloadOf entry := by
  unfold payloadOf
  induction entry.fields with
  | nil => rfl
  | cons field fields ih =>
      obtain ⟨key, value⟩ := field
      rw [List.flatMap_cons]
      show (if key = utf8 "payload" then some value
        else payloadField _) = _
      split
      · next hkey => simp [hkey]
      · next hkey => simp [ih, hkey]

theorem parseXreadPayload_entry (stream : String) (entry : RawEntry) :
    parseXreadPayload (xreadReply stream (some entry)) =
      match payloadOf entry with
      | some payload => .ok (some (entry.id.text, payload))
      | none => .error .noPayload := by
  cases hpayload : payloadOf entry with
  | none =>
      simp [parseXreadPayload, xreadReply, parseEntry, RawEntry.toValue,
        payloadField_fields, hpayload]
  | some payload =>
      simp [parseXreadPayload, xreadReply, parseEntry, RawEntry.toValue,
        payloadField_fields, hpayload]

/-- A reply with an entry is that entry, or an error if the entry cannot be
read. -/
theorem parseResultReply_entry (codec : Codec) (stream : String)
    (entry : RawEntry) :
    (∃ e, received codec entry = some e ∧
      parseResultReply codec (xreadReply stream (some entry)) =
        .ok (some e)) ∨
    (∃ error, received codec entry = none ∧
      parseResultReply codec (xreadReply stream (some entry)) =
        .error error) := by
  unfold parseResultReply
  rw [parseXreadPayload_entry]
  cases hpayload : payloadOf entry with
  | none => exact .inr ⟨_, by simp [received, hpayload], rfl⟩
  | some payload =>
      cases hdecode : codec.decode payload with
      | error text =>
          refine .inr ⟨.decode text, ?_, by simp [hdecode]⟩
          simp [received, hpayload, hdecode, Except.toOption]
      | ok result =>
          by_cases hversion : result.schemaVersion = schemaVersion
          · refine .inl ⟨⟨entry.id.text, result⟩, ?_, ?_⟩
            · simp [received, hpayload, hdecode, hversion, Except.toOption]
            · simp [hdecode, validateSchema, hversion]
          · refine .inr ⟨.schemaVersion result.schemaVersion, ?_, ?_⟩
            · simp [received, hpayload, hdecode, hversion, Except.toOption]
            · simp [hdecode, validateSchema, hversion]

theorem received_eventId {codec : Codec} {entry : RawEntry}
    {e : ReceivedEntry} (h : received codec entry = some e) :
    e.eventId = entry.id.text := by
  simp only [received, Option.bind_eq_bind, Option.bind_eq_some_iff] at h
  obtain ⟨payload, -, result, -, h⟩ := h
  split at h
  · cases h; rfl
  · cases h

/-! ## Where a subscription stands -/

/-- What there is to read for a subscription that starts from the given id. An
id the server cannot read has nothing behind it. -/
def behind (codec : Codec) (start : String) (log : List RawEntry) :
    List RawEntry :=
  match codec.readId start with
  | some c => after RawEntry.id c log
  | none => []

/-- The server reads back every id it gives out. -/
def ReadsIds (codec : Codec) : Prop :=
  ∀ id : StreamId, id.InRange → codec.readId id.text = some id

/-- What the server guarantees about the ids of one log. -/
structure LogOk (log : List RawEntry) : Prop where
  increasing : Increasing RawEntry.id log
  inRange : ∀ entry ∈ log, entry.id.InRange

/-- The reader has taken `got` from the log and nothing else. -/
structure Stands (codec : Codec) (log : List RawEntry) (r : Reader)
    (got : List RawEntry) : Prop where
  returned : r.returned.map some = got.map (received codec)
  none_behind : codec.readId r.start = none → got = []
  taken : ∀ c, codec.readId r.start = some c → Taken RawEntry.id c log got
  cursor : r.sub.lastEventId = (got.getLast?.map (·.id.text)).getD r.start

/-- The call of `next` is inside its loop, and a reply at hand answers the
cursor. -/
def InLoop (codec : Codec) (log : List RawEntry) (sub : ResultSubscription) :
    ReadPhase → Prop
  | .idle => True
  | .reading attempt => attempt < 4
  | .replied attempt reply => attempt < 4 ∧ ∀ value, reply = .ok value →
      value = xreadReply sub.stream none ∨
      ∃ c entry, codec.readId sub.lastEventId = some c ∧
        firstAfter RawEntry.id c log = some entry ∧
        value = xreadReply sub.stream (some entry)
  | .reconnecting attempt => attempt < 3
  | .unreachable => False

/-- What holds of a reader throughout. -/
structure Sound (codec : Codec) (log : List RawEntry) (r : Reader) :
    Prop where
  stands : ∃ got, Stands codec log r got
  inLoop : InLoop codec log r.sub r.phase
  before : r.phase = .idle ∨ r.before = r.sub.lastEventId
  unchanged : ∀ call ∈ r.calls, call.entry = none → call.after = call.before

variable {codec : Codec} {log : List RawEntry} {r : Reader}
  {got : List RawEntry}

/-- The server reads the cursor as the position in the log. -/
theorem Stands.readId (hids : ReadsIds codec) (hlog : LogOk log)
    (h : Stands codec log r got) :
    codec.readId r.sub.lastEventId =
      (codec.readId r.start).map fun c => position RawEntry.id c got := by
  rw [h.cursor]
  cases hstart : codec.readId r.start with
  | none =>
      rw [h.none_behind hstart]
      exact hstart
  | some c =>
      rcases got.eq_nil_or_concat' with rfl | ⟨l, e, rfl⟩
      · exact hstart
      · have hmem : e ∈ log :=
          ((h.taken c hstart).mem (List.mem_append_right l (by simp))).1
        simp [hids e.id (hlog.inRange e hmem)]

theorem Stands.isPrefix (h : Stands codec log r got) :
    r.returned.map some <+: (behind codec r.start log).map (received codec) := by
  rw [h.returned, behind]
  apply List.IsPrefix.map
  cases hstart : codec.readId r.start with
  | none => rw [h.none_behind hstart]
  | some c => exact (h.taken c hstart).isPrefix

theorem Stands.append {x : RawEntry} (h : Stands codec log r got)
    (hx : ∀ y ∈ log, y.id < x.id) : Stands codec (log ++ [x]) r got where
  returned := h.returned
  none_behind := h.none_behind
  taken c hc := (h.taken c hc).append hx
  cursor := h.cursor

theorem InLoop.append {sub : ResultSubscription} {phase : ReadPhase} {x : RawEntry}
    (h : InLoop codec log sub phase) :
    InLoop codec (log ++ [x]) sub phase := by
  cases phase with
  | replied attempt reply =>
      refine ⟨h.1, ?_⟩
      intro value hvalue
      rcases h.2 value hvalue with hnil | ⟨c, entry, hc, hentry, hreply⟩
      · exact .inl hnil
      · exact .inr ⟨c, entry, hc, firstAfter_concat hentry, hreply⟩
  | idle => exact h
  | reading attempt => exact h
  | reconnecting attempt => exact h
  | unreachable => exact h

theorem Sound.append {x : RawEntry} (h : Sound codec log r)
    (hx : ∀ y ∈ log, y.id < x.id) : Sound codec (log ++ [x]) r where
  stands := by
    obtain ⟨got, hgot⟩ := h.stands
    exact ⟨got, hgot.append hx⟩
  inLoop := h.inLoop.append
  before := h.before
  unchanged := h.unchanged

/-! ## One step of a subscription -/

/-- A change of phase alone. -/
theorem Sound.phase {phase : ReadPhase} (h : Sound codec log r)
    (hbusy : r.phase ≠ .idle) (hphase : InLoop codec log r.sub phase) :
    Sound codec log { r with phase := phase } where
  stands := h.stands.imp fun _ hgot =>
    ⟨hgot.returned, hgot.none_behind, hgot.taken, hgot.cursor⟩
  inLoop := hphase
  before := .inr (h.before.resolve_left hbusy)
  unchanged := h.unchanged

theorem finish_returned (result : NextResult) (sub : ResultSubscription) :
    (r.finish result sub).returned = r.returned ++
      (NextCall.entry ⟨r.before, result, sub.lastEventId⟩).toList := by
  rw [Reader.returned, Reader.finish, List.filterMap_append]
  rfl

/-- A call that returns nothing leaves everything where it was. -/
theorem Sound.finish_empty {result : NextResult} (h : Sound codec log r)
    (hbusy : r.phase ≠ .idle)
    (hempty : NextCall.entry ⟨r.before, result, r.sub.lastEventId⟩ = none) :
    Sound codec log (r.finish result r.sub) where
  stands := by
    obtain ⟨got, hgot⟩ := h.stands
    refine ⟨got, ?_, hgot.none_behind, hgot.taken, hgot.cursor⟩
    rw [finish_returned, hempty, Option.toList_none, List.append_nil]
    exact hgot.returned
  inLoop := trivial
  before := .inl rfl
  unchanged := by
    intro call hcall hnone
    rcases List.mem_append.mp hcall with hcall | hcall
    · exact h.unchanged call hcall hnone
    · rw [List.mem_singleton.mp hcall]
      exact (h.before.resolve_left hbusy).symm

/-- A call that returns an entry returns the next one, and moves the cursor to
it. -/
theorem Sound.finish_entry {entry : RawEntry} {e : ReceivedEntry} {c : StreamId}
    (hids : ReadsIds codec) (hlog : LogOk log) (h : Sound codec log r)
    (hc : codec.readId r.sub.lastEventId = some c)
    (hentry : firstAfter RawEntry.id c log = some entry)
    (he : received codec entry = some e) :
    Sound codec log (r.finish (.ok (some e))
      { r.sub with lastEventId := e.eventId }) where
  stands := by
    obtain ⟨got, hgot⟩ := h.stands
    have hread := hgot.readId hids hlog
    rw [hc] at hread
    obtain ⟨c₀, hstart, hpos⟩ := Option.map_eq_some_iff.mp hread.symm
    refine ⟨got ++ [entry], ?_, ?_, ?_, ?_⟩
    · rw [finish_returned, List.map_append, List.map_append, hgot.returned,
        List.map_singleton, he]
      rfl
    · intro hnone
      exact absurd (hstart.symm.trans hnone) (by simp)
    · intro c₁ hc₁
      rw [show r.start = (r.finish (.ok (some e))
        { r.sub with lastEventId := e.eventId }).start from rfl] at hstart
      cases hstart.symm.trans hc₁
      rw [← hpos] at hentry
      exact (hgot.taken c₀ hstart).read hlog.increasing hentry
    · simp [Reader.finish, received_eventId he]
  inLoop := trivial
  before := .inl rfl
  unchanged := by
    intro call hcall hnone
    rcases List.mem_append.mp hcall with hcall | hcall
    · exact h.unchanged call hcall hnone
    · rw [List.mem_singleton.mp hcall] at hnone
      cases hnone

/-- The `match` of `next` on a reply at hand. -/
theorem Sound.handle {attempt : Nat} {reply : Except String Value}
    (hids : ReadsIds codec) (hlog : LogOk log) (h : Sound codec log r)
    (hphase : r.phase = .replied attempt reply) :
    Sound codec log (r.handle codec attempt reply) := by
  have hbusy : r.phase ≠ .idle := by simp [hphase]
  have hloop := h.inLoop
  rw [hphase] at hloop
  cases reply with
  | error text =>
      simp only [Reader.handle]
      split
      · next hlt => exact h.phase hbusy hlt
      · exact h.finish_empty hbusy rfl
  | ok value =>
      rcases hloop.2 value rfl with rfl | ⟨c, entry, hc, hentry, rfl⟩
      · exact h.finish_empty hbusy rfl
      · simp only [Reader.handle, ResultSubscription.accept]
        rcases parseResultReply_entry codec r.sub.stream entry with
          ⟨e, he, hparse⟩ | ⟨error, -, hparse⟩
        · rw [hparse]
          exact h.finish_entry hids hlog hc hentry he
        · rw [hparse]
          exact h.finish_empty hbusy rfl

theorem inLoop_enter {sub : ResultSubscription} {attempt : Nat}
    (h : attempt < 4) : InLoop codec log sub (.enter attempt) := by
  rw [ReadPhase.enter, if_pos h]
  exact h

/-- A call of `next` begins. -/
theorem Sound.begin (h : Sound codec log r) :
    Sound codec log
      { r with phase := .enter 0, before := r.sub.lastEventId } where
  stands := h.stands.imp fun _ hgot =>
    ⟨hgot.returned, hgot.none_behind, hgot.taken, hgot.cursor⟩
  inLoop := inLoop_enter (show 0 < 4 by decide)
  before := .inr rfl
  unchanged := h.unchanged

theorem Sound.step {r' : Reader} {l : Feed.Label} (hids : ReadsIds codec)
    (hlog : LogOk log) (h : Sound codec log r)
    (hstep : r.step codec log l = some r') : Sound codec log r' := by
  have hloop := h.inLoop
  cases l with
  | append entry => cases hstep
  | setStatus present => cases hstep
  | subscribe requestId after connects => cases hstep
  | next i =>
      simp only [Reader.step] at hstep
      split at hstep
      · cases hstep
        exact h.begin
      · cases hstep
  | serve i =>
      simp only [Reader.step] at hstep
      split at hstep
      · next attempt hphase =>
          rw [hphase] at hloop
          have hbusy : r.phase ≠ .idle := by simp [hphase]
          split at hstep
          · cases hstep
            exact h.phase hbusy ⟨hloop, by simp⟩
          · next c hc =>
              split at hstep
              · cases hstep
              · next entry hentry =>
                  cases hstep
                  refine h.phase hbusy ⟨hloop, ?_⟩
                  intro value hvalue
                  injection hvalue with hvalue
                  exact .inr ⟨c, entry, hc, hentry, hvalue.symm⟩
      · cases hstep
  | timeout i =>
      simp only [Reader.step] at hstep
      split at hstep
      · next attempt hphase =>
          rw [hphase] at hloop
          cases hstep
          refine h.phase (by simp [hphase]) ⟨hloop, ?_⟩
          intro value hvalue
          injection hvalue with hvalue
          exact .inl hvalue.symm
      · cases hstep
  | fail i text =>
      simp only [Reader.step] at hstep
      split at hstep
      · next attempt hphase =>
          rw [hphase] at hloop
          cases hstep
          exact h.phase (by simp [hphase]) ⟨hloop, by simp⟩
      · cases hstep
  | handle i =>
      simp only [Reader.step] at hstep
      split at hstep
      · next attempt reply hphase =>
          cases hstep
          exact h.handle hids hlog hphase
      · cases hstep
  | reconnect i failure =>
      simp only [Reader.step] at hstep
      split at hstep
      · next attempt hphase =>
          rw [hphase] at hloop
          have hbusy : r.phase ≠ .idle := by simp [hphase]
          split at hstep
          · cases hstep
            -- the fourth attempt never gets here: it returns its error
            exact h.phase hbusy (inLoop_enter (Nat.succ_lt_succ hloop))
          · cases hstep
            exact h.finish_empty hbusy rfl
      · cases hstep

/-! ## Runs -/

theorem LogOk.le_lastId {f : Feed} (h : LogOk f.log) :
    ∀ y ∈ f.log, y.id ≤ f.lastId := by
  intro y hy
  rcases hlast : f.log.eq_nil_or_concat' with hnil | ⟨l, e, hl⟩
  · rw [hnil] at hy
    cases hy
  · have hinc := h.increasing
    have hid : f.lastId = e.id := by simp [Feed.lastId, hl]
    rw [hl, Increasing, List.pairwise_append] at hinc
    rw [hl] at hy
    rw [hid]
    rcases List.mem_append.mp hy with hy | hy
    · exact le_of_lt (hinc.2.2 y hy e (by simp))
    · rw [List.mem_singleton.mp hy]

/-- Everything about a feed that its steps keep. -/
structure FeedOk (codec : Codec) (f : Feed) : Prop where
  log : LogOk f.log
  readers : ∀ r ∈ f.readers, Sound codec f.log r

theorem feedOk_init (codec : Codec) : FeedOk codec .init where
  log := ⟨List.Pairwise.nil, by simp [Feed.init]⟩
  readers := by simp [Feed.init]

theorem sound_subscribed (sub : ResultSubscription) :
    Sound codec log ⟨sub, .idle, sub.lastEventId, sub.lastEventId, []⟩ where
  stands := ⟨[], rfl, fun _ => rfl, fun _ _ => Taken.nil, rfl⟩
  inLoop := trivial
  before := .inl rfl
  unchanged := by simp

/-- The server takes an entry whose id is new. -/
theorem FeedOk.append {f : Feed} {entry : RawEntry} (h : FeedOk codec f)
    (hlast : f.lastId < entry.id) (hrange : entry.id.InRange) :
    FeedOk codec { f with log := f.log ++ [entry] } := by
  have hx : ∀ y ∈ f.log, y.id < entry.id := fun y hy =>
    lt_of_le_of_lt (h.log.le_lastId y hy) hlast
  refine ⟨⟨h.log.increasing.concat hx, ?_⟩, ?_⟩
  · intro y hy
    rcases List.mem_append.mp hy with hy | hy
    · exact h.log.inRange y hy
    · rw [List.mem_singleton.mp hy]
      exact hrange
  · intro r hr
    exact (h.readers r hr).append hx

theorem FeedOk.step {f f' : Feed} {l : Feed.Label} (hids : ReadsIds codec)
    (h : FeedOk codec f) (hstep : f.step codec l = some f') :
    FeedOk codec f' := by
  unfold Feed.step at hstep
  split at hstep
  · split at hstep
    · next hid =>
        cases hstep
        exact h.append hid.1 hid.2
    · cases hstep
  · cases hstep
    exact ⟨h.log, h.readers⟩
  · split at hstep
    · next sub _ =>
        split at hstep
        · cases hstep
          refine ⟨h.log, ?_⟩
          intro r hr
          rcases List.mem_append.mp hr with hr | hr
          · exact h.readers r hr
          · rw [List.mem_singleton.mp hr]
            exact sound_subscribed sub
        · cases hstep; exact h
    · cases hstep; exact h
  · split at hstep
    · cases hstep
    · next i _ =>
        split at hstep
        · cases hstep
        · next r hr =>
            split at hstep
            · cases hstep
            · next r' hr' =>
                cases hstep
                refine ⟨h.log, ?_⟩
                intro x hx
                rcases List.mem_or_eq_of_mem_set hx with hx | rfl
                · exact h.readers x hx
                · exact (h.readers r (List.mem_of_getElem? hr)).step hids
                    h.log hr'

/-- What the owner of a subscription can rely on. -/
structure Replays (codec : Codec) (log : List RawEntry) (r : Reader) :
    Prop where
  initial : r.returned.map some <+:
    (behind codec r.start log).map (received codec)
  cursor : r.sub.lastEventId =
    (r.returned.getLast?.map (·.eventId)).getD r.start
  unchanged : ∀ call ∈ r.calls, call.entry = none → call.after = call.before
  reachable : r.phase ≠ .unreachable

/-- The cursor in terms of what was returned, not of what was taken. -/
theorem Stands.lastEventId (h : Stands codec log r got) :
    r.sub.lastEventId =
      (r.returned.getLast?.map (·.eventId)).getD r.start := by
  have hlast : r.returned.getLast?.map some =
      got.getLast?.map (received codec) := by
    rw [← List.getLast?_map, h.returned, List.getLast?_map]
  rw [h.cursor]
  cases hg : got.getLast? with
  | none =>
      rw [hg, Option.map_none, Option.map_eq_none_iff] at hlast
      rw [hlast]
      rfl
  | some entry =>
      rw [hg, Option.map_some] at hlast
      obtain ⟨e, he, heq⟩ := Option.map_eq_some_iff.mp hlast
      rw [he]
      exact (received_eventId heq.symm).symm

theorem Sound.replays (h : Sound codec log r) : Replays codec log r := by
  obtain ⟨got, hgot⟩ := h.stands
  refine ⟨hgot.isPrefix, hgot.lastEventId, h.unchanged, ?_⟩
  intro hphase
  have hloop := h.inLoop
  rw [hphase] at hloop
  exact hloop

/-- Two prefixes of one sequence, when the entries were not all readable. -/
theorem prefix_or_prefix {α : Type} {l l' : List α} {m : List (Option α)}
    (h : l.map some <+: m) (h' : l'.map some <+: m) :
    l <+: l' ∨ l' <+: l := by
  have hsome := Option.some_injective α
  rcases List.prefix_or_prefix_of_prefix h h' with hle | hle
  · exact .inl ((List.prefix_map_iff_of_injective hsome).mp hle)
  · exact .inr ((List.prefix_map_iff_of_injective hsome).mp hle)

/-- In every run, every subscription has returned an initial segment of what is
behind the cursor it started from, keeps its cursor at the last entry it
returned, and never falls off the end of its loop; and two subscriptions that
started from one cursor have seen the same, one possibly more of it. -/
theorem subscriptions_replay (codec : Codec) (hids : ReadsIds codec)
    (f : Feed)
    (hrun : Run (Feed.step codec) (fun _ _ => True) .init f) :
    (∀ r ∈ f.readers, Replays codec f.log r) ∧
    ∀ r ∈ f.readers, ∀ r' ∈ f.readers, r.start = r'.start →
      r.returned <+: r'.returned ∨ r'.returned <+: r.returned := by
  have hok : FeedOk codec f :=
    hrun.invariant (feedOk_init codec) fun h _ hstep => h.step hids hstep
  have hreplays : ∀ r ∈ f.readers, Replays codec f.log r := fun r hr =>
    (hok.readers r hr).replays
  refine ⟨hreplays, ?_⟩
  intro r hr r' hr' hstart
  have hr'prefix := (hreplays r' hr').initial
  rw [← hstart] at hr'prefix
  exact prefix_or_prefix (hreplays r hr).initial hr'prefix

/-! ## A run -/

/-- An id argument of the form every id has. -/
def readStreamId (text : String) : Option StreamId :=
  match splitOnce '-' text.toList with
  | none => none
  | some (ms, seq) =>
      match parseUnsigned 64 ms, parseUnsigned 64 seq with
      | some ms, some seq => some ⟨ms, seq⟩
      | _, _ => none

theorem splitOnce_text (id : StreamId) :
    splitOnce '-' id.text.toList =
      some (Nat.toDigits 10 id.ms, Nat.toDigits 10 id.seq) := by
  rw [StreamId.text, String.toList_ofList]
  exact splitOnce_append _ (not_mem_toDigits (by decide))

theorem readStreamId_text {id : StreamId} (h : id.InRange) :
    readStreamId id.text = some id := by
  simp only [readStreamId, splitOnce_text, parseUnsigned_toDigits h.1,
    parseUnsigned_toDigits h.2]

/-- The three results of a small generation with their protobuf encodings. -/
def sampleResults : List (GenerationResult × List UInt8) :=
  [(⟨1, "r", "a", some .attemptStarted⟩,
      [0x08, 0x01, 0x12, 0x01, 0x72, 0x1a, 0x01, 0x61, 0x52, 0x00]),
    (⟨1, "r", "a", some (.token ⟨"hi", 1⟩)⟩,
      [0x08, 0x01, 0x12, 0x01, 0x72, 0x1a, 0x01, 0x61, 0x5a, 0x06, 0x0a, 0x02,
        0x68, 0x69, 0x10, 0x01]),
    (⟨1, "r", "a", some (.completed ⟨1, 1, "stop"⟩)⟩,
      [0x08, 0x01, 0x12, 0x01, 0x72, 0x1a, 0x01, 0x61, 0x62, 0x0a, 0x08, 0x01,
        0x10, 0x01, 0x1a, 0x04, 0x73, 0x74, 0x6f, 0x70])]

def sampleCodec : Codec :=
  { encode := fun result =>
      ((sampleResults.find? (·.1 = result)).map (·.2)).getD []
    decode := fun bytes =>
      match sampleResults.find? (·.2 = bytes) with
      | some (result, _) => .ok result
      | none => .error "invalid wire type"
    readId := readStreamId }

theorem sampleCodec_readsIds : ReadsIds sampleCodec := fun _ h =>
  readStreamId_text h

/-- The entry with the given id and the payload of a sample result. -/
def sampleEntry (id : StreamId) (i : Nat) : RawEntry :=
  ⟨id, [(utf8 "payload", ((sampleResults[i]?).map (·.2)).getD [])]⟩

/-- Two subscriptions, one of them behind a broken connection and both in
front of an entry without a payload. -/
def sampleFeed : List Feed.Label :=
  [.append (sampleEntry ⟨1, 0⟩ 0), .subscribe "r" none true,
    .next 0, .fail 0 "broken pipe", .handle 0, .reconnect 0 none, .serve 0,
    .append (sampleEntry ⟨1, 1⟩ 1), .handle 0,
    .subscribe "r" (some "0-0") true, .next 1, .serve 1, .handle 1,
    .append ⟨⟨2, 0⟩, []⟩,
    .next 0, .serve 0, .handle 0, .next 0, .serve 0, .handle 0,
    .next 1, .timeout 1, .handle 1]

theorem subscriptions_replay_broken :
    ∃ f, Run (Feed.step sampleCodec) (fun _ _ => True) .init f ∧
      f.readers.map (fun r => (r.returned.map (·.eventId), r.calls.length)) =
        [(["1-0", "1-1"], 3), (["1-0"], 2)] ∧
      (∀ r ∈ f.readers, Replays sampleCodec f.log r) ∧
      ∀ r ∈ f.readers, ∀ r' ∈ f.readers, r.start = r'.start →
        r.returned <+: r'.returned ∨ r'.returned <+: r.returned := by
  obtain ⟨f, hrun, hobs⟩ := run_of_exec_map (Feed.step sampleCodec)
    (fun _ _ => True) (fun _ _ => true) .init sampleFeed
    (fun f => f.readers.map fun r =>
      (r.returned.map (·.eventId), r.calls.length))
    (b := [(["1-0", "1-1"], 3), (["1-0"], 2)]) (fun _ _ _ => trivial)
    (by decide)
  exact ⟨f, hrun, hobs, subscriptions_replay sampleCodec sampleCodec_readsIds f
    hrun⟩

end DataPlane.Proofs
