import DataPlane.Lib.Incremental
import DataPlane.Proofs.StreamShape
import DataPlane.Ref.Client

/-!
# Frames across chunks

The frontend puts a flag and a length in front of every message, and the client
takes the messages apart again from a buffer that fills in whatever pieces the
network makes of them. A frame that is complete stays the same when more bytes
follow, so the client's loop is a `Splitter`, and where the pieces are cut does
not matter.
-/

namespace DataPlane.Proofs

open DataPlane DataPlane.Lib DataPlane.Ref

/-! ## One frame -/

theorem takeFrame_shrinks {buffer rest : List UInt8} {f : UInt8 × List UInt8}
    (h : takeFrame buffer = some (f, rest)) : rest.length < buffer.length := by
  unfold takeFrame at h
  split at h
  · dsimp only at h
    split at h
    · cases h
    · cases h
      simp only [List.length_drop, List.length_cons]
      omega
  · cases h

theorem takeFrame_stable {buffer rest : List UInt8} {f : UInt8 × List UInt8}
    (more : List UInt8) (h : takeFrame buffer = some (f, rest)) :
    takeFrame (buffer ++ more) = some (f, rest ++ more) := by
  unfold takeFrame at h
  split at h
  · next flags a b c d bytes =>
      dsimp only at h
      split at h
      · cases h
      · next hlen =>
          cases h
          have hle : fromBeBytes a b c d ≤ bytes.length := by omega
          simp only [takeFrame, List.cons_append, List.length_append]
          rw [if_neg (by omega), List.take_append_of_le_length hle,
            List.drop_append_of_le_length hle]
  · cases h

/-- The frames of a buffer. -/
def frameSplitter : Splitter UInt8 (UInt8 × List UInt8) :=
  ⟨takeFrame, takeFrame_shrinks, takeFrame_stable⟩

/-- Four bytes hold every length there can be. -/
theorem fromBeBytes_putU32 {n : Nat} (h : n < 2 ^ 32) :
    fromBeBytes (.ofNat (n / 2 ^ 24)) (.ofNat (n / 2 ^ 16))
      (.ofNat (n / 2 ^ 8)) (.ofNat n) = n := by
  unfold fromBeBytes
  simp only [UInt8.toNat_ofNat']
  omega

section

variable {encode : GenerationEvent → List UInt8}

/-- A frame is read as the flag and the message it was made of. -/
theorem takeFrame_bytes {f : Frame} (h : (encode f.event).length < 2 ^ 32)
    (more : List UInt8) :
    takeFrame (f.bytes encode ++ more) =
      some ((if f.endStream then 2 else 0, encode f.event), more) := by
  unfold Frame.bytes connectEnvelope putU32
  simp only [List.cons_append, List.nil_append, takeFrame,
    fromBeBytes_putU32 h, List.length_append]
  rw [if_neg (by omega), List.take_left, List.drop_left]

/-- A frame that is not complete is not read. -/
theorem takeFrame_incomplete {f : Frame} (h : (encode f.event).length < 2 ^ 32)
    {part : List UInt8} (hpart : part <+: f.bytes encode)
    (hlt : part.length < (f.bytes encode).length) : takeFrame part = none := by
  cases hnext : takeFrame part with
  | none => rfl
  | some found =>
      obtain ⟨more, hmore⟩ := hpart
      have hstable := takeFrame_stable more hnext
      have hwhole := takeFrame_bytes h []
      rw [List.append_nil] at hwhole
      rw [hmore, hwhole] at hstable
      simp only [Option.some.injEq, Prod.mk.injEq] at hstable
      have hnil := List.append_eq_nil_iff.mp hstable.2.symm
      rw [hnil.2, List.append_nil] at hmore
      rw [hmore] at hlt
      exact absurd hlt (Nat.lt_irrefl _)

end

/-! ## The loops -/

section

variable {decode : List UInt8 → Except String GenerationEvent}

/-- What the client does with a frame it has taken out. -/
def keepFrame (decode : List UInt8 → Except String GenerationEvent)
    (r : List GenerationEvent × Option ClientError) (f : UInt8 × List UInt8) :
    List GenerationEvent × Option ClientError :=
  match r.2 with
  | some _ => r
  | none =>
      match decode f.2 with
      | .error cause => (r.1, some (.decode cause))
      | .ok event =>
          if f.1 &&& 2 ≠ 0 then (r.1, some (.stream event.delta))
          else (r.1 ++ [event], none)

/-- After a failure there are no more frames. -/
theorem foldl_keepFrame_failed (events : List GenerationEvent)
    (e : ClientError) (fs : List (UInt8 × List UInt8)) :
    fs.foldl (keepFrame decode) (events, some e) = (events, some e) := by
  induction fs with
  | nil => rfl
  | cons f fs ih => exact ih

theorem readFrames_spec {n : Nat} {r : StreamRead} (hfailed : r.failed = none)
    (hn : r.buffered.length ≤ n) :
    ((readFrames decode n r).events, (readFrames decode n r).failed) =
        (frameSplitter.split r.buffered).1.foldl (keepFrame decode)
          (r.events, none) ∧
      ((readFrames decode n r).failed = none →
        (readFrames decode n r).buffered =
          (frameSplitter.split r.buffered).2) := by
  induction n generalizing r with
  | zero =>
      have hnil : r.buffered = [] := List.length_eq_zero_iff.mp (by omega)
      rw [hnil, Splitter.split_of_none rfl, readFrames, hfailed, hnil]
      exact ⟨rfl, fun _ => rfl⟩
  | succ n ih =>
      rw [readFrames]
      split
      · next hnext =>
          have hnext' : frameSplitter.next r.buffered = none := hnext
          rw [Splitter.split_of_none hnext', hfailed]
          exact ⟨rfl, fun _ => rfl⟩
      · next flags message rest hnext =>
          have hlt := takeFrame_shrinks hnext
          have hnext' : frameSplitter.next r.buffered =
            some ((flags, message), rest) := hnext
          rw [Splitter.split_of_some hnext', List.foldl_cons]
          split
          · next cause hdecode =>
              simp [keepFrame, hdecode, foldl_keepFrame_failed]
          · next event hdecode =>
              split
              · next hflag =>
                  simp [keepFrame, hdecode, hflag, foldl_keepFrame_failed]
              · next hflag =>
                  have hkept : keepFrame decode (r.events, none)
                      (flags, message) = (r.events ++ [event], none) := by
                    simp only [keepFrame, hdecode]
                    exact if_neg hflag
                  rw [hkept]
                  exact ih hfailed (by dsimp only; omega)

/-- Whatever the chunks are, the client has come to what it makes of their
frames, and keeps what is left. -/
theorem readStream_spec (chunks : List (List UInt8)) :
    ((readStream decode (chunks.map .ok)).events,
        (readStream decode (chunks.map .ok)).failed) =
        (frameSplitter.split chunks.flatten).1.foldl (keepFrame decode)
          ([], none) ∧
      ((readStream decode (chunks.map .ok)).failed = none →
        (readStream decode (chunks.map .ok)).buffered =
          (frameSplitter.split chunks.flatten).2) := by
  induction chunks using List.reverseRecOn with
  | nil => exact ⟨rfl, fun _ => rfl⟩
  | append_singleton chunks chunk ih =>
      obtain ⟨hfold, hrest⟩ := ih
      rw [List.flatten_append, List.flatten_singleton, Splitter.split_append,
        List.foldl_append, ← hfold]
      rw [readStream, List.map_append, List.foldl_append, List.map_singleton,
        List.foldl_cons, List.foldl_nil, ← readStream]
      generalize readStream decode (chunks.map .ok) = r at hrest ⊢
      rw [readStreamChunk]
      cases hfailed : r.failed with
      | some e =>
          rw [foldl_keepFrame_failed]
          simp [hfailed]
      | none =>
          rw [← hrest hfailed]
          exact readFrames_spec rfl (Nat.le_refl _)

end

/-! ## What was sent is what is read -/

/-- The bytes of some frames. -/
def bytesOf (encode : GenerationEvent → List UInt8) (frames : List Frame) :
    List UInt8 :=
  (frames.map (Frame.bytes encode)).flatten

/-- The messages are decoded to what they were encoded from, and their lengths
fit into the four bytes there are. -/
structure Sendable (encode : GenerationEvent → List UInt8)
    (decode : List UInt8 → Except String GenerationEvent) (f : Frame) :
    Prop where
  decodes : decode (encode f.event) = .ok f.event
  short : (encode f.event).length < 2 ^ 32

section

variable {encode : GenerationEvent → List UInt8}
  {decode : List UInt8 → Except String GenerationEvent} {frames : List Frame}

theorem split_bytesOf (h : ∀ f ∈ frames, Sendable encode decode f)
    (rest : List UInt8) :
    frameSplitter.split (bytesOf encode frames ++ rest) =
      (frames.map (fun f => (if f.endStream then 2 else 0, encode f.event)) ++
        (frameSplitter.split rest).1, (frameSplitter.split rest).2) :=
  Splitter.split_flatten (Frame.bytes encode) _ rest
    fun f hf more => takeFrame_bytes (h f hf).short more

/-- Messages without the flag are all kept. -/
theorem foldl_keepFrame_unset (h : ∀ f ∈ frames, Sendable encode decode f)
    (hunset : ∀ f ∈ frames, f.endStream = false)
    (events : List GenerationEvent) :
    (frames.map fun f => ((if f.endStream then 2 else 0 : UInt8),
      encode f.event)).foldl (keepFrame decode) (events, none) =
        (events ++ frames.map (·.event), none) := by
  induction frames generalizing events with
  | nil => rw [List.map_nil, List.map_nil, List.append_nil]; rfl
  | cons f frames ih =>
      have hf : keepFrame decode (events, none)
          (if f.endStream then 2 else 0, encode f.event) =
          (events ++ [f.event], none) := by
        rw [hunset f List.mem_cons_self]
        simp [keepFrame, (h f List.mem_cons_self).decodes]
      rw [List.map_cons, List.foldl_cons, hf,
        ih (fun x hx => h x (List.mem_cons_of_mem f hx))
          (fun x hx => hunset x (List.mem_cons_of_mem f hx)), List.map_cons,
        List.append_assoc, List.singleton_append]

/-- What the client has when the bytes are whole frames and something that is
not one. -/
theorem readStream_unset (h : ∀ f ∈ frames, Sendable encode decode f)
    (hunset : ∀ f ∈ frames, f.endStream = false) {rest : List UInt8}
    (hrest : takeFrame rest = none) {chunks : List (List UInt8)}
    (hchunks : chunks.flatten = bytesOf encode frames ++ rest) :
    readStream decode (chunks.map .ok) =
      ⟨rest, frames.map (·.event), none⟩ := by
  have hnone : frameSplitter.next rest = none := hrest
  obtain ⟨hfold, hbuffered⟩ := @readStream_spec decode chunks
  rw [hchunks, split_bytesOf h, Splitter.split_of_none hnone] at hfold hbuffered
  rw [List.append_nil, foldl_keepFrame_unset h hunset] at hfold
  generalize readStream decode (chunks.map .ok) = r at hfold hbuffered ⊢
  obtain ⟨buffered, events, failed⟩ := r
  cases hfold
  rw [StreamRead.mk.injEq]
  exact ⟨hbuffered rfl, rfl, rfl⟩

/-- What is left of a cut-off sequence of frames after the complete ones is not
a frame. -/
theorem bytesOf_cut (h : ∀ f ∈ frames, Sendable encode decode f)
    {part : List UInt8} (hpart : part <+: bytesOf encode frames) :
    ∃ k rest, part = bytesOf encode (frames.take k) ++ rest ∧
      takeFrame rest = none ∧
      IsGreatest {j | j ≤ frames.length ∧
        bytesOf encode (frames.take j) <+: part} k := by
  obtain ⟨k, hk, rest, hcut, hrest⟩ := prefix_flatten hpart
  rw [List.length_map] at hk hrest
  rw [← List.map_take] at hcut
  have hwhole : bytesOf encode (frames.take k) <+: part :=
    hcut ▸ List.prefix_append _ _
  refine ⟨k, rest, hcut, ?_, ⟨hk, hwhole⟩, ?_⟩
  · rcases hrest with ⟨-, rfl⟩ | ⟨piece, hpiece, hwithin, hlt⟩
    · rfl
    · rw [List.getElem?_map, Option.map_eq_some_iff] at hpiece
      obtain ⟨f, hf, rfl⟩ := hpiece
      exact takeFrame_incomplete (h f (List.mem_of_getElem? hf)).short hwithin
        hlt
  · rintro j ⟨hj, hwithin⟩
    rcases hrest with ⟨rfl, -⟩ | ⟨piece, hpiece, -, hlt⟩
    · exact hj
    · -- One frame more would be longer than what there is.
      by_contra hkj
      have hsucc : frames.take (k + 1) <+: frames.take j :=
        List.take_prefix_take_left (by omega)
      have hlen : (bytesOf encode (frames.take (k + 1))).length ≤
          (bytesOf encode (frames.take j)).length := by
        obtain ⟨more, hmore⟩ := hsucc
        rw [← hmore, bytesOf, bytesOf, List.map_append, List.flatten_append,
          List.length_append]
        exact Nat.le_add_right _ _
      rw [List.getElem?_map, Option.map_eq_some_iff] at hpiece
      obtain ⟨f, hf, rfl⟩ := hpiece
      have hnext : bytesOf encode (frames.take (k + 1)) =
          bytesOf encode (frames.take k) ++ f.bytes encode := by
        rw [bytesOf, List.take_add_one, hf, List.map_append,
          List.flatten_append]
        simp [bytesOf]
      have hle := hwithin.length_le
      rw [hcut] at hle
      rw [hnext] at hlen
      simp only [bytesOf, List.length_append] at hle hlen
      omega

end

/-- However the frames are cut into chunks: without the flag all messages are
read and nothing is left; cut off anywhere, those are read whose frames are
complete; and the first frame with the flag fails the stream after all the
messages before it. -/
theorem framing_round_trip (encode : GenerationEvent → List UInt8)
    (decode : List UInt8 → Except String GenerationEvent) (frames : List Frame)
    (h : ∀ f ∈ frames, Sendable encode decode f)
    (chunks : List (List UInt8)) :
    ((∀ f ∈ frames, f.endStream = false) →
      chunks.flatten = bytesOf encode frames →
      readStream decode (chunks.map .ok) =
        ⟨[], frames.map (·.event), none⟩) ∧
    ((∀ f ∈ frames, f.endStream = false) →
      chunks.flatten <+: bytesOf encode frames →
      ∃ k, IsGreatest {j | j ≤ frames.length ∧
          bytesOf encode (frames.take j) <+: chunks.flatten} k ∧
        (readStream decode (chunks.map .ok)).events =
          (frames.take k).map (·.event) ∧
        (readStream decode (chunks.map .ok)).failed = none) ∧
    (∀ before flagged behind, frames = before ++ flagged :: behind →
      (∀ f ∈ before, f.endStream = false) → flagged.endStream = true →
      bytesOf encode (before ++ [flagged]) <+: chunks.flatten →
      (readStream decode (chunks.map .ok)).events = before.map (·.event) ∧
        (readStream decode (chunks.map .ok)).failed =
          some (.stream flagged.event.delta)) := by
  refine ⟨?_, ?_, ?_⟩
  · intro hunset hchunks
    exact readStream_unset h hunset rfl (by rw [hchunks, List.append_nil])
  · intro hunset hpart
    obtain ⟨k, rest, hcut, hrest, hk⟩ := bytesOf_cut h hpart
    have hread := readStream_unset
      (fun f hf => h f (List.mem_of_mem_take hf))
      (fun f hf => hunset f (List.mem_of_mem_take hf)) hrest hcut
    exact ⟨k, hk, by rw [hread], by rw [hread]⟩
  · rintro before flagged behind rfl hunset hflagged ⟨rest, hrest⟩
    have hbefore : ∀ f ∈ before, Sendable encode decode f :=
      fun f hf => h f (List.mem_append_left _ hf)
    have hlast : Sendable encode decode flagged :=
      h flagged (List.mem_append_right _ List.mem_cons_self)
    have hsent : ∀ f ∈ before ++ [flagged], Sendable encode decode f := by
      intro f hf
      rcases List.mem_append.mp hf with hf | hf
      · exact hbefore f hf
      · rw [List.mem_singleton.mp hf]
        exact hlast
    obtain ⟨hfold, -⟩ := @readStream_spec decode chunks
    rw [← hrest, split_bytesOf hsent, List.map_append, List.append_assoc,
      List.foldl_append, foldl_keepFrame_unset hbefore hunset,
      List.map_singleton, List.singleton_append, List.foldl_cons] at hfold
    have hkept : keepFrame decode ([] ++ before.map (·.event), none)
        (if flagged.endStream then 2 else 0, encode flagged.event) =
        (before.map (·.event), some (.stream flagged.event.delta)) := by
      rw [hflagged]
      simp [keepFrame, hlast.decodes]
    rw [hkept, foldl_keepFrame_failed, Prod.mk.injEq] at hfold
    exact hfold

/-- A token, and the end of the generation. -/
def sampleFrames : List Frame :=
  [tokenFrame "m" "r"
      (⟨"5-1", ⟨1, "r", "a", some (.token ⟨"hi", 1⟩)⟩⟩, ⟨"hi", 1⟩),
    ⟨⟨"r", "m", "", 1, "stop", "5-2", "a", 1, true⟩, false⟩]

/-- The decoder, on what the sample frames hold. -/
def decodeSample (bytes : List UInt8) : Except String GenerationEvent :=
  match sampleFrames.find? fun f => encodeEvent f.event = bytes with
  | some f => .ok f.event
  | none => .error "buffer underflow"

/-- The first cut is in the middle of a header. -/
theorem framing_round_trip_sample :
    readStream decodeSample ([(bytesOf encodeEvent sampleFrames).take 3,
        [], (bytesOf encodeEvent sampleFrames).drop 3].map .ok) =
      ⟨[], sampleFrames.map (·.event), none⟩ := by
  have hsendable : ∀ f ∈ sampleFrames, Sendable encodeEvent decodeSample f := by
    intro f hf
    simp only [sampleFrames, List.mem_cons, List.not_mem_nil, or_false] at hf
    rcases hf with rfl | rfl
    · exact ⟨by decide, by decide⟩
    · exact ⟨by decide, by decide⟩
  refine (framing_round_trip encodeEvent decodeSample sampleFrames hsendable
    _).1 (by decide) ?_
  simp

end DataPlane.Proofs
