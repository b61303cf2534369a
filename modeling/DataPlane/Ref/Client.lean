import DataPlane.Ref.Wire
import Mathlib.Algebra.Ring.Nat

/-!
# The streaming client

`read_stream` of `connect_smoke`, from the first chunk of a response on. Chunks
are appended to a buffer; as long as the buffer starts with a whole frame, the
frame is taken out, decoded and kept, unless it has the end-stream flag. What is
printed and timed on the way is left out.

`GenerationEvent::decode` is a parameter. A chunk is an error when the transport
fails.
-/

namespace DataPlane.Ref

open DataPlane

/-- What `read_stream` fails with. -/
inductive ClientError
  | transport (text : String)
  | decode (cause : String)
  | stream (delta : String)
  deriving DecidableEq, Repr

/-- The `Display` of the error: its outermost context. -/
def ClientError.message : ClientError → String
  | .transport text => text
  | .decode _ => "decode GenerationEvent"
  | .stream delta => "stream error: " ++ delta

/-- `u32::from_be_bytes`. -/
def fromBeBytes (a b c d : UInt8) : Nat :=
  a.toNat * 2 ^ 24 + b.toNat * 2 ^ 16 + c.toNat * 2 ^ 8 + d.toNat

/-- The first frame of a buffer, flags and message, if it is all there. -/
def takeFrame : List UInt8 → Option ((UInt8 × List UInt8) × List UInt8)
  | flags :: a :: b :: c :: d :: rest =>
      let len := fromBeBytes a b c d
      if rest.length < len then none
      else some ((flags, rest.take len), rest.drop len)
  | _ => none

/-- The variables of `read_stream`, and the error it has returned with. -/
structure StreamRead where
  buffered : List UInt8
  events : List GenerationEvent
  failed : Option ClientError
  deriving DecidableEq, Repr

/-- Nothing has arrived. -/
def StreamRead.init : StreamRead := ⟨[], [], none⟩

section

variable (decode : List UInt8 → Except String GenerationEvent)

/-- The inner loop, for at most that many frames. -/
def readFrames : Nat → StreamRead → StreamRead
  | 0, r => r
  | n + 1, r =>
      match takeFrame r.buffered with
      | none => r
      | some ((flags, message), rest) =>
          match decode message with
          | .error cause =>
              { r with buffered := rest, failed := some (.decode cause) }
          | .ok event =>
              if flags &&& 2 ≠ 0 then
                { r with buffered := rest, failed := some (.stream event.delta) }
              else
                readFrames n
                  { r with buffered := rest, events := r.events ++ [event] }

/-- The outer loop's body. A frame has at least five bytes, so the inner loop
never gets to the bound. -/
def readStreamChunk (r : StreamRead) (chunk : Except String (List UInt8)) :
    StreamRead :=
  match r.failed with
  | some _ => r
  | none =>
      match chunk with
      | .error text => { r with failed := some (.transport text) }
      | .ok bytes =>
          let buffered := r.buffered ++ bytes
          readFrames decode buffered.length { r with buffered := buffered }

/-- `read_stream`, once the response has begun. -/
def readStream (chunks : List (Except String (List UInt8))) : StreamRead :=
  chunks.foldl (readStreamChunk decode) .init

end

end DataPlane.Ref
