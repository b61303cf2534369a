import Mathlib.Data.List.AList
import Mathlib.Data.List.Sort
import Mathlib.Algebra.Group.Nat.Defs

/-!
# The model catalog

The models an installation knows are declared in YAML files. `Reload` reads
them all, from the start, into a table of its own, and puts that table in the
place of the old one only when nothing was wrong with any of them. Of the files
the model takes what the decoder makes of them: the documents it gets out, and
what stopped it, if it did not get to the end.
-/

namespace DataPlane.Ref.ModelCatalog

/-- A document, with `metadata.annotations` and `spec.model.name`. -/
structure Document where
  kind : String
  annotations : List (String × String)
  name : String
  deriving DecidableEq, Repr

/-- A model, as it is listed. -/
structure Model where
  id : String
  revision : String
  tokenizerId : String
  tokenizerRevision : String
  contextLimit : Nat
  maxOutputTokens : Nat
  localRuntime : String
  cloudRuntime : String
  deriving DecidableEq, Repr

/-- `catalog.Entry`. -/
structure Entry where
  model : Model
  endpoint : String
  kserveService : String
  deriving DecidableEq, Repr

/-- `Catalog.models`. -/
abbrev Models := AList fun _ : String => Entry

/-- `Catalog`: where its files are, and what was read from them. -/
structure Catalog where
  pattern : String
  models : Models

/-- What comes of decoding a file: its documents up to the end, or up to what
cannot be decoded. -/
structure Decoded where
  documents : List Document
  error : Option String
  deriving DecidableEq, Repr

/-- A path, and what comes of opening it. -/
abbrev File := String × Except String Decoded

/-- What comes of expanding the pattern, in the order of the paths. -/
abbrev Files := Except String (List File)

/-! ## Limits -/

section

-- `strconv.Quote`
variable (quote : String → String)

/-- A `strconv.NumError`. -/
def numError (num err : String) : String :=
  "strconv.ParseUint: parsing " ++ quote num ++ ": " ++ err

/-- The loop of `strconv.ParseUint` for base ten and 64 bits. -/
def parseDigits (num : String) : List Char → Nat → Except String Nat
  | [], n => .ok n
  | c :: rest, n =>
      if !c.isDigit then .error (numError quote num "invalid syntax")
      else if (2 ^ 64 - 1) / 10 + 1 ≤ n then
        .error (numError quote num "value out of range")
      else if 2 ^ 64 ≤ n * 10 + (c.toNat - '0'.toNat) then
        .error (numError quote num "value out of range")
      else parseDigits num rest (n * 10 + (c.toNat - '0'.toNat))

/-- `parseUint`: nothing counts as zero. -/
def parseUint (value : String) : Except String Nat :=
  if value = "" then .ok 0 else parseDigits quote value value.toList 0

/-! ## Reloading -/

/-- `annotationPrefix`. -/
def annotationPrefix : String := "inference.anmho.com/"

/-- An annotation, empty if it is missing. -/
def Document.annotation (doc : Document) (name : String) : String :=
  (doc.annotations.lookup (annotationPrefix ++ name)).getD ""

/-- The document is none the catalog reads. -/
def Document.skipped (doc : Document) : Bool :=
  doc.kind ≠ "LLMInferenceServiceConfig" || doc.name = ""

/-- The table entry of a declaration, once its limits are known. -/
def Document.entry (doc : Document) (contextLimit maxOutput : Nat) : Entry where
  model :=
    { id := doc.name
      revision := doc.annotation "revision"
      tokenizerId := doc.annotation "tokenizer-id"
      tokenizerRevision := doc.annotation "tokenizer-revision"
      contextLimit := contextLimit
      maxOutputTokens := maxOutput
      localRuntime := doc.annotation "local-runtime"
      cloudRuntime := doc.annotation "cloud-runtime" }
  endpoint := doc.annotation "endpoint"
  kserveService := doc.annotation "kserve-service"

/-- The body of the loop over the documents of a file. -/
def declare (path : String) (models : Models) (doc : Document) :
    Except String Models :=
  if doc.skipped then .ok models
  else
    match parseUint quote (doc.annotation "context-limit") with
    | .error err => .error (path ++ " context limit: " ++ err)
    | .ok contextLimit =>
        match parseUint quote (doc.annotation "max-output-tokens") with
        | .error err => .error (path ++ " max output tokens: " ++ err)
        | .ok maxOutput =>
            .ok (models.insert doc.name (doc.entry contextLimit maxOutput))

/-- The body of the loop over the paths. -/
def readFile (models : Models) : File → Except String Models
  | (path, .error err) =>
      .error ("open model declaration " ++ path ++ ": " ++ err)
  | (path, .ok decoded) =>
      match decoded.documents.foldlM (declare quote path) models with
      | .error err => .error err
      | .ok models =>
          match decoded.error with
          | some err =>
              .error ("decode model declaration " ++ path ++ ": " ++ err)
          | none => .ok models

/-- The table `Reload` builds. -/
def readAll (pattern : String) : Files → Except String Models
  | .error err => .error ("expand model catalog glob: " ++ err)
  | .ok files =>
      match files.foldlM (readFile quote) ∅ with
      | .error err => .error err
      | .ok models =>
          if models.keys = [] then
            .error ("no LLMInferenceServiceConfig declarations matched " ++
              pattern)
          else .ok models

/-- `Reload`: all or nothing. -/
def reload (files : Files) (c : Catalog) : Except String Unit × Catalog :=
  match readAll quote c.pattern files with
  | .error err => (.error err, c)
  | .ok models => (.ok (), { c with models := models })

/-- `Load`. -/
def load (pattern : String) (files : Files) : Except String Catalog :=
  match reload quote files ⟨pattern, ∅⟩ with
  | (.error err, _) => .error err
  | (.ok (), c) => .ok c

end

/-! ## Reading -/

/-- `Get`. -/
def Catalog.get (c : Catalog) (id : String) : Option Entry :=
  c.models.lookup id

/-- The models in the order of their ids. -/
def Catalog.list (c : Catalog) : List Model :=
  (c.models.keys.insertionSort (· ≤ ·)).filterMap fun id =>
    (c.models.lookup id).map (·.model)

end DataPlane.Ref.ModelCatalog
