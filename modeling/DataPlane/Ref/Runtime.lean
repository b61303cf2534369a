import DataPlane.Ref.Wire
import Mathlib.Algebra.Group.Int.Defs

/-!
# The runtime request, written and read

The two `RuntimeRequest` structs, one serialised by the frontend and one
deserialised by the engine, as the derived `serde` code treats them: field by
field, in terms of the JSON value in between. Text is the business of
`serde_json`, which is not part of this repository and stays a parameter.

A `float` is an `f32` by its bit pattern. JSON has no text for the non-finite
ones and the serialiser writes `null` for them.
-/

namespace DataPlane.Ref

open DataPlane

/-- `serde_json::Value`, with the numbers the requests have. -/
inductive Json
  | null
  | bool (value : Bool)
  | int (value : Int)
  | float (bits : UInt32)
  | string (value : String)
  | array (values : List Json)
  | object (fields : List (String × Json))

/-- `f32::is_finite`: the exponent is not all ones. -/
def isFinite (bits : UInt32) : Bool :=
  bits &&& 0x7f800000 ≠ 0x7f800000

mutual

/-- What is left of a value once it has been written: a float that is not
finite has become `null`. -/
def Json.written : Json → Json
  | .float bits => if isFinite bits then .float bits else .null
  | .array values => .array (writtenValues values)
  | .object fields => .object (writtenFields fields)
  | value => value

/-- The elements of an array. -/
def Json.writtenValues : List Json → List Json
  | [] => []
  | value :: values => value.written :: writtenValues values

/-- The fields of an object. -/
def Json.writtenFields : List (String × Json) → List (String × Json)
  | [] => []
  | (name, value) :: fields => (name, value.written) :: writtenFields fields

end

/-- `serde_json`: `to_vec`, `from_slice`, and the conversion it makes when an
`f32` is read from an integer. -/
structure SerdeJson where
  toVec : Json → List UInt8
  fromSlice : List UInt8 → Option Json
  intToF32 : Int → UInt32

/-! ## The frontend's side -/

/-- The frontend's `RuntimeRequest`. -/
structure FrontendRuntimeRequest where
  model : String
  messages : Option (List ChatMessage)
  prompt : Option String
  maxTokens : UInt64
  temperature : UInt32
  stream : Bool
  deriving DecidableEq, Repr

/-- The derived `Serialize`. -/
def ChatMessage.toJson (message : ChatMessage) : Json :=
  .object [("role", .string message.role), ("content", .string message.content)]

/-- An absent value is written as `null`. -/
def optionToJson {α : Type} (toJson : α → Json) : Option α → Json
  | none => .null
  | some value => toJson value

/-- The derived `Serialize`. -/
def FrontendRuntimeRequest.toJson (request : FrontendRuntimeRequest) : Json :=
  .object
    [("model", .string request.model),
      ("messages", optionToJson
        (fun messages => .array (messages.map ChatMessage.toJson))
        request.messages),
      ("prompt", optionToJson .string request.prompt),
      ("max_tokens", .int request.maxTokens.toNat),
      ("temperature", .float request.temperature),
      ("stream", .bool request.stream)]

/-! ## The engine's side -/

/-- The engine's `RuntimeRequest`. -/
structure EngineRuntimeRequest where
  model : String
  messages : Option (List Json)
  prompt : Option String
  maxTokens : UInt64
  temperature : UInt32

/-- A `String`. -/
def readString : Json → Option String
  | .string value => some value
  | _ => none

/-- A `Vec<Value>`. -/
def readArray : Json → Option (List Json)
  | .array values => some values
  | _ => none

/-- A `usize`. -/
def readUsize : Json → Option UInt64
  | .int value =>
      if 0 ≤ value ∧ value < 2 ^ 64 then some (UInt64.ofNat value.toNat)
      else none
  | _ => none

/-- An `f32`, which may have been written as an integer. -/
def readF32 (serde : SerdeJson) : Json → Option UInt32
  | .float bits => some bits
  | .int value => some (serde.intToF32 value)
  | _ => none

/-- An `Option<T>`: `null` is `None`. -/
def readOption {α : Type} (read : Json → Option α) :
    Json → Option (Option α)
  | .null => some none
  | value => (read value).map some

/-- The value of a field of an object; a field given twice is an error. -/
def readField (fields : List (String × Json)) (name : String) :
    Option (Option Json) :=
  match fields.filter (·.1 = name) with
  | [] => some none
  | [(_, value)] => some (some value)
  | _ => none

/-- A field that has to be there. -/
def requiredField {α : Type} (read : Json → Option α)
    (fields : List (String × Json)) (name : String) : Option α :=
  match readField fields name with
  | some (some value) => read value
  | _ => none

/-- A field of type `Option<T>` may be missing. -/
def optionalField {α : Type} (read : Json → Option α)
    (fields : List (String × Json)) (name : String) : Option (Option α) :=
  match readField fields name with
  | some (some value) => readOption read value
  | some none => some none
  | none => none

/-- The derived `Deserialize`: from an object, fields it does not know being
ignored, or from an array of exactly the five fields in order. -/
def EngineRuntimeRequest.ofJson (serde : SerdeJson) :
    Json → Option EngineRuntimeRequest
  | .object fields => do
      let model ← requiredField readString fields "model"
      let messages ← optionalField readArray fields "messages"
      let prompt ← optionalField readString fields "prompt"
      let maxTokens ← requiredField readUsize fields "max_tokens"
      let temperature ← requiredField (readF32 serde) fields "temperature"
      return ⟨model, messages, prompt, maxTokens, temperature⟩
  | .array [model, messages, prompt, maxTokens, temperature] => do
      let model ← readString model
      let messages ← readOption readArray messages
      let prompt ← readOption readString prompt
      let maxTokens ← readUsize maxTokens
      let temperature ← readF32 serde temperature
      return ⟨model, messages, prompt, maxTokens, temperature⟩
  | _ => none

/-- `serde_json::from_slice` at the engine's type. -/
def readRuntimeRequest (serde : SerdeJson) (bytes : List UInt8) :
    Option EngineRuntimeRequest :=
  serde.fromSlice bytes >>= EngineRuntimeRequest.ofJson serde

end DataPlane.Ref
