import DataPlane.Proofs.Resume

/-!
# The shape of a streamed response

Whatever `subscribe` and the calls of `next` come to, a response that ends has
a frame for every token that was read, and one more. `stops` tells the outcomes
of `next` after which the loop returns from those after which it goes on; what
has been read is what comes before the first of the former.
-/

namespace DataPlane.Proofs

open DataPlane DataPlane.Ref

/-- A frame before it is bytes: the event and the end-stream flag. -/
structure Frame where
  event : GenerationEvent
  endStream : Bool
  deriving DecidableEq, Repr

/-- The frame as it is sent. -/
def Frame.bytes (encodeProto : GenerationEvent → List UInt8) (f : Frame) :
    List UInt8 :=
  connectEnvelope encodeProto f.event f.endStream

/-- A terminal entry, a timeout and an error end the loop. -/
def stops : NextResult → Bool
  | .ok (some entry) => entry.result.terminal
  | .ok none => true
  | .error _ => true

/-- The entry that an outcome is, and its token. -/
def tokenOf : NextResult → Option (ReceivedEntry × TokenChunk)
  | .ok (some entry) =>
      match entry.result.event with
      | some (.token token) => some (entry, token)
      | _ => none
  | _ => none

/-- What is sent for a token. -/
def tokenFrame (model requestId : String) (read : ReceivedEntry × TokenChunk) :
    Frame :=
  { event :=
      { requestId := requestId
        model := model
        delta := read.2.text
        generatedTokens := read.2.cumulativeGeneratedTokens
        finishReason := ""
        eventId := read.1.eventId
        attemptId := read.1.result.attemptId
        promptTokens := 0
        terminal := false }
    endStream := false }

/-- The tokens among the outcomes before the first that ends the loop. -/
def tokensRead (results : List NextResult) :
    List (ReceivedEntry × TokenChunk) :=
  (results.takeWhile (!stops ·)).filterMap tokenOf

/-- The terminal entry that ends the loop, if it is one that does. -/
def endEntry (results : List NextResult) : Option ReceivedEntry :=
  match results.find? stops with
  | some (.ok entry) => entry
  | _ => none

/-! ## The loop -/

section

variable (encodeProto : GenerationEvent → List UInt8) (model requestId : String)

theorem streamLoop_ended (results : List NextResult) :
    (streamLoop encodeProto model requestId results).ended =
      results.any stops := by
  induction results with
  | nil => rfl
  | cons outcome results ih =>
      rw [List.any_cons, ← ih]
      match outcome with
      | .error _ => rfl
      | .ok none => rfl
      | .ok (some ⟨_, ⟨_, _, _, event⟩⟩) =>
          match event with
          | none => rfl
          | some .attemptStarted => rfl
          | some (.token _) => rfl
          | some (.completed _) => rfl
          | some (.failed _) => rfl

/-- The last frame of a loop that has ended, for what it ended with. -/
structure LastFrame (results : List NextResult) (last : Frame) : Prop where
  terminal : last.event.terminal = true
  endStream : last.endStream = true ↔ endEntry results = none
  entry : ∀ entry, endEntry results = some entry →
    last.event.eventId = entry.eventId ∧
      last.event.attemptId = entry.result.attemptId

/-- An outcome the loop goes on after is not what it ends with. -/
theorem lastFrame_cons {outcome : NextResult} (h : stops outcome = false)
    {results : List NextResult} {last : Frame} (hl : LastFrame results last) :
    LastFrame (outcome :: results) last := by
  have hend : endEntry (outcome :: results) = endEntry results := by
    unfold endEntry
    rw [List.find?_cons, h]
  exact ⟨hl.terminal, by rw [hend]; exact hl.endStream,
    by rw [hend]; exact hl.entry⟩

theorem tokensRead_cons {outcome : NextResult} (h : stops outcome = false)
    (results : List NextResult) :
    tokensRead (outcome :: results) =
      (tokenOf outcome).toList ++ tokensRead results := by
  unfold tokensRead
  rw [List.takeWhile_cons_of_pos (by rw [h]; rfl), List.filterMap_cons]
  cases tokenOf outcome <;> rfl

theorem tokensRead_stop {outcome : NextResult} (h : stops outcome = true)
    (results : List NextResult) : tokensRead (outcome :: results) = [] := by
  unfold tokensRead
  rw [List.takeWhile_cons_of_neg (by rw [h]; decide)]
  rfl

/-- What an outcome adds that the loop goes on after: a frame if it is a
token, and nothing otherwise. -/
theorem streamLoop_cons {outcome : NextResult} (h : stops outcome = false)
    (results : List NextResult) :
    streamLoop encodeProto model requestId (outcome :: results) =
      ⟨((tokenOf outcome).toList.map (tokenFrame model requestId)).map
          (Frame.bytes encodeProto) ++
        (streamLoop encodeProto model requestId results).frames,
        (streamLoop encodeProto model requestId results).ended⟩ := by
  match outcome with
  | .error _ => cases h
  | .ok none => cases h
  | .ok (some ⟨_, ⟨_, _, _, event⟩⟩) =>
      match event with
      | none => rfl
      | some .attemptStarted => rfl
      | some (.token _) => rfl
      | some (.completed _) => cases h
      | some (.failed _) => cases h

/-- What an outcome leads to that ends the loop: one frame. -/
theorem streamLoop_stop {outcome : NextResult} (h : stops outcome = true)
    (results : List NextResult) :
    ∃ last, (streamLoop encodeProto model requestId
        (outcome :: results)).frames = [Frame.bytes encodeProto last] ∧
      LastFrame (outcome :: results) last := by
  have hend : (outcome :: results).find? stops = some outcome := by
    rw [List.find?_cons, h]
  match outcome with
  | .error _ =>
      refine ⟨⟨_, true⟩, rfl, rfl, ?_, ?_⟩ <;> simp [endEntry, hend]
  | .ok none =>
      refine ⟨⟨_, true⟩, rfl, rfl, ?_, ?_⟩ <;> simp [endEntry, hend]
  | .ok (some ⟨_, ⟨_, _, _, event⟩⟩) =>
      match event with
      | none => cases h
      | some .attemptStarted => cases h
      | some (.token _) => cases h
      | some (.completed _) =>
          refine ⟨⟨_, false⟩, rfl, rfl, ?_, ?_⟩ <;> simp [endEntry, hend]
      | some (.failed _) =>
          refine ⟨⟨_, false⟩, rfl, rfl, ?_, ?_⟩ <;> simp [endEntry, hend]

theorem streamLoop_shape {results : List NextResult}
    (h : results.any stops = true) :
    ∃ last, (streamLoop encodeProto model requestId results).frames =
        ((tokensRead results).map (tokenFrame model requestId) ++ [last]).map
          (Frame.bytes encodeProto) ∧
      LastFrame results last := by
  induction results with
  | nil => cases h
  | cons outcome results ih =>
      cases hstop : stops outcome with
      | true =>
          obtain ⟨last, hframes, hlast⟩ :=
            streamLoop_stop encodeProto model requestId hstop results
          refine ⟨last, ?_, hlast⟩
          rw [hframes, tokensRead_stop hstop]
          rfl
      | false =>
          rw [List.any_cons, hstop, Bool.false_or] at h
          obtain ⟨last, hframes, hlast⟩ := ih h
          refine ⟨last, ?_, lastFrame_cons hstop hlast⟩
          rw [streamLoop_cons encodeProto model requestId hstop results,
            tokensRead_cons hstop]
          show _ ++ (streamLoop encodeProto model requestId results).frames = _
          rw [hframes]
          simp only [List.map_append, List.append_assoc]

end

/-! ## The response -/

/-- The outcomes of `next` in a response: none if there is no subscription. -/
def resultsOf (streams : Streams) (requestId : String)
    (cursor : Option String) : List NextResult :=
  match streams.subscribe requestId cursor with
  | .ok (some subscription) => streams.results requestId subscription
  | _ => []

/-- A response ends if there is no subscription to read or an outcome that ends
the loop, and not otherwise. One that has ended is a frame for every token that
was read, and a last one, which alone is terminal and has the flag unless it is
an entry's. -/
theorem stream_shape (encodeProto : GenerationEvent → List UInt8)
    (state : AppState) (streams : Streams) (requestId : String)
    (cursor : Option String) :
    ((streamGeneration encodeProto state streams requestId cursor).ended =
        true ↔
      (∀ subscription,
        streams.subscribe requestId cursor ≠ .ok (some subscription)) ∨
      ∃ outcome ∈ resultsOf streams requestId cursor, stops outcome = true) ∧
    ((streamGeneration encodeProto state streams requestId cursor).ended =
        true →
      ∃ last,
        (streamGeneration encodeProto state streams requestId cursor).frames =
          ((tokensRead (resultsOf streams requestId cursor)).map
            (tokenFrame state.model.id requestId) ++ [last]).map
              (Frame.bytes encodeProto) ∧
        LastFrame (resultsOf streams requestId cursor) last) := by
  unfold streamGeneration resultsOf
  generalize streams.subscribe requestId cursor = subscribed
  match subscribed with
  | .ok (some subscription) =>
      dsimp only
      rw [streamLoop_ended]
      refine ⟨?_, streamLoop_shape encodeProto state.model.id requestId⟩
      rw [List.any_eq_true]
      constructor
      · exact Or.inr
      · rintro (hnone | hstop)
        · exact absurd rfl (hnone subscription)
        · exact hstop
  | .ok none =>
      refine ⟨by simp, fun _ => ⟨⟨_, true⟩, rfl, rfl, ?_, ?_⟩⟩ <;>
        simp [endEntry]
  | .error _ =>
      refine ⟨by simp, fun _ => ⟨⟨_, true⟩, rfl, rfl, ?_, ?_⟩⟩ <;>
        simp [endEntry]

/-- The sample generation: a token, and the end. -/
theorem stream_shape_sample :
    ∃ last, sampleStream.frames =
        [Frame.bytes encodeEvent (tokenFrame "m" "r"
          (⟨"5-1", ⟨1, "r", "a", some (.token ⟨"hi", 1⟩)⟩⟩, ⟨"hi", 1⟩)),
        Frame.bytes encodeEvent last] ∧
      last.event.terminal = true ∧ last.endStream = false := by
  obtain ⟨last, hframes, hlast⟩ := (stream_shape encodeEvent sampleState
    (sampleBroker.streams sampleCodec 4) "r" none).2 rfl
  have hentry : endEntry (resultsOf (sampleBroker.streams sampleCodec 4) "r"
      none) ≠ none := by decide
  refine ⟨last, hframes, hlast.terminal, ?_⟩
  exact Bool.eq_false_iff.mpr fun h => hentry (hlast.endStream.mp h)

end DataPlane.Proofs
