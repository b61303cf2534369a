import DataPlane.Ref.ModelCatalog
import Mathlib.Data.List.Induction
import Mathlib.Data.String.Basic
import Mathlib.Tactic.Common

/-!
# The catalog is what was last declared

A file set is legible if everything in it could be read and one model is
declared. What `Reload` makes of a legible set does not depend on what was there
before, and of a set that is not it makes nothing. So after any number of
reloads the catalog is that of the last legible file set, and in it every model
has the entry of its last declaration.
-/

namespace DataPlane.Proofs

open DataPlane DataPlane.Ref.ModelCatalog

/-! ## Limits -/

/-- What a limit that can be read says. -/
def limitValue (value : String) : Option Nat :=
  if value = "" then some 0
  else if value.toList.all Char.isDigit ∧
      Nat.ofDigitChars 10 value.toList 0 < 2 ^ 64 then
    some (Nat.ofDigitChars 10 value.toList 0)
  else none

theorem ofDigitChars_cons (c : Char) (cs : List Char) (n : Nat) :
    Nat.ofDigitChars 10 (c :: cs) n =
      Nat.ofDigitChars 10 cs (n * 10 + (c.toNat - '0'.toNat)) := by
  rw [Nat.ofDigitChars_cons, Nat.mul_comm]

theorem le_ofDigitChars : ∀ (cs : List Char) (n : Nat),
    n ≤ Nat.ofDigitChars 10 cs n := by
  intro cs
  induction cs with
  | nil => intro n; rw [Nat.ofDigitChars_nil]
  | cons c cs ih =>
      intro n
      rw [ofDigitChars_cons]
      have := ih (n * 10 + (c.toNat - '0'.toNat))
      omega

theorem parseDigits_eq_ok {quote : String → String} {num : String} :
    ∀ {cs : List Char} {n m : Nat}, n < 2 ^ 64 →
      (parseDigits quote num cs n = .ok m ↔
        cs.all Char.isDigit = true ∧ Nat.ofDigitChars 10 cs n < 2 ^ 64 ∧
          Nat.ofDigitChars 10 cs n = m) := by
  intro cs
  induction cs with
  | nil =>
      intro n m hn
      rw [parseDigits, Nat.ofDigitChars_nil, Except.ok.injEq]
      exact ⟨fun h => ⟨rfl, hn, h⟩, fun h => h.2.2⟩
  | cons c cs ih =>
      intro n m hn
      rw [ofDigitChars_cons, List.all_cons, parseDigits]
      have hgrow := le_ofDigitChars cs (n * 10 + (c.toNat - '0'.toNat))
      by_cases hc : c.isDigit = true
      · rw [if_neg (by simp [hc])]
        by_cases hcut : (2 ^ 64 - 1) / 10 + 1 ≤ n
        · rw [if_pos hcut]
          constructor
          · nofun
          · rintro ⟨_, hlt, _⟩
            omega
        · rw [if_neg hcut]
          by_cases hover : 2 ^ 64 ≤ n * 10 + (c.toNat - '0'.toNat)
          · rw [if_pos hover]
            constructor
            · nofun
            · rintro ⟨_, hlt, _⟩
              omega
          · rw [if_neg hover, ih (by omega)]
            simp [hc]
      · rw [if_pos (by simp [hc])]
        constructor
        · nofun
        · rintro ⟨hall, _⟩
          simp [hc] at hall

/-- A limit is read in full or not at all. -/
theorem parseUint_eq_ok {quote : String → String} {value : String} {n : Nat} :
    parseUint quote value = .ok n ↔ limitValue value = some n := by
  unfold parseUint limitValue
  split
  · simp
  · rw [parseDigits_eq_ok (by omega)]
    split
    · next h =>
        rw [Option.some.injEq]
        exact ⟨fun hn => hn.2.2, fun hn => ⟨h.1, h.2, hn⟩⟩
    · next h =>
        constructor
        · rintro ⟨hall, hlt, _⟩
          exact absurd ⟨hall, hlt⟩ h
        · nofun

theorem limitValue_eq_none {quote : String → String} {value err : String}
    (h : parseUint quote value = .error err) : limitValue value = none := by
  cases hv : limitValue value with
  | none => rfl
  | some n =>
      rw [← @parseUint_eq_ok quote, h] at hv
      cases hv

/-! ## Declarations -/

/-- The entry a document declares. -/
def declared (doc : Document) : Option Entry :=
  (limitValue (doc.annotation "context-limit")).bind fun contextLimit =>
    (limitValue (doc.annotation "max-output-tokens")).map fun maxOutput =>
      doc.entry contextLimit maxOutput

/-- The document is none of the catalog's, or it declares an entry. -/
def Readable (doc : Document) : Prop :=
  doc.skipped = true ∨ (declared doc).isSome = true

/-- What a readable document does to the table. -/
def record (models : Models) (doc : Document) : Models :=
  if doc.skipped then models
  else (declared doc).elim models (models.insert doc.name)

theorem declared_id {doc : Document} {entry : Entry}
    (h : declared doc = some entry) : entry.model.id = doc.name := by
  unfold declared at h
  obtain ⟨contextLimit, _, h⟩ := Option.bind_eq_some_iff.mp h
  obtain ⟨maxOutput, _, rfl⟩ := Option.map_eq_some_iff.mp h
  rfl

theorem declare_eq_ok {quote : String → String} {path : String}
    {models models' : Models} {doc : Document} :
    declare quote path models doc = .ok models' ↔
      Readable doc ∧ models' = record models doc := by
  unfold declare Readable record
  split
  · next hskip =>
      rw [Except.ok.injEq]
      exact ⟨fun h => ⟨.inl hskip, h.symm⟩, fun h => h.2.symm⟩
  · next hskip =>
      rw [or_iff_right hskip]
      split
      · next err hc =>
          rw [declared, limitValue_eq_none hc]
          exact ⟨nofun, fun h => nomatch h.1⟩
      · next contextLimit hc =>
          split
          · next err hm =>
              rw [declared, parseUint_eq_ok.mp hc, limitValue_eq_none hm]
              exact ⟨nofun, fun h => nomatch h.1⟩
          · next maxOutput hm =>
              rw [declared, parseUint_eq_ok.mp hc, parseUint_eq_ok.mp hm,
                Except.ok.injEq]
              exact ⟨fun h => ⟨rfl, h.symm⟩, fun h => h.2.symm⟩

/-! ## A whole file set -/

/-- A loop that stops at the first thing that is not good, and otherwise does
what `g` does. -/
theorem foldlM_eq_ok {σ α ε : Type} {f : σ → α → Except ε σ} {g : σ → α → σ}
    {good : α → Prop}
    (hf : ∀ {s a t}, f s a = .ok t ↔ good a ∧ t = g s a) :
    ∀ {l : List α} {s t : σ}, l.foldlM f s = .ok t ↔
      (∀ a ∈ l, good a) ∧ t = l.foldl g s := by
  intro l
  induction l with
  | nil =>
      intro s t
      rw [List.foldlM_nil]
      exact ⟨fun h => ⟨by simp, (Except.ok.inj h).symm⟩,
        fun h => congrArg _ h.2.symm⟩
  | cons a l ih =>
      intro s t
      rw [List.foldlM_cons, List.foldl_cons, List.forall_mem_cons]
      cases ha : f s a with
      | error err =>
          refine ⟨nofun, fun h => ?_⟩
          rw [hf.mpr ⟨h.1.1, rfl⟩] at ha
          cases ha
      | ok u =>
          obtain ⟨hgood, rfl⟩ := hf.mp ha
          show l.foldlM f (g s a) = .ok t ↔ _
          rw [ih]
          exact ⟨fun h => ⟨⟨hgood, h.1⟩, h.2⟩, fun h => ⟨h.1.2, h.2⟩⟩

/-- What a file that could be opened holds. -/
def File.documents (file : File) : List Document :=
  match file.2 with
  | .error _ => []
  | .ok decoded => decoded.documents

/-- The file could be opened, decoded and read. -/
def File.Legible (file : File) : Prop :=
  ∃ decoded, file.2 = .ok decoded ∧ decoded.error = none ∧
    ∀ doc ∈ decoded.documents, Readable doc

theorem readFile_eq_ok {quote : String → String} {models models' : Models}
    {file : File} :
    readFile quote models file = .ok models' ↔
      File.Legible file ∧ models' = (File.documents file).foldl record models := by
  obtain ⟨path, opened⟩ := file
  cases opened with
  | error err => exact ⟨nofun, fun ⟨⟨_, h, _⟩, _⟩ => nomatch h⟩
  | ok decoded =>
      have hfold := fun t => foldlM_eq_ok (f := declare quote path)
        (g := record) declare_eq_ok (l := decoded.documents) (s := models)
        (t := t)
      rw [readFile]
      constructor
      · intro h
        split at h
        · cases h
        · next models₁ hmodels =>
            obtain ⟨hgood, rfl⟩ := (hfold _).mp hmodels
            split at h
            · cases h
            · next hend =>
                cases h
                exact ⟨⟨decoded, rfl, hend, hgood⟩, rfl⟩
      · rintro ⟨⟨_, heq, hend, hgood⟩, rfl⟩
        cases heq
        rw [(hfold _).mpr ⟨hgood, rfl⟩]
        dsimp only
        rw [hend]
        rfl

/-- The documents of a file set that the catalog reads. -/
def declarations (files : List File) : List Document :=
  (files.flatMap File.documents).filter (!·.skipped)

/-- Everything could be read, and there is something. -/
def Legible : Files → Prop
  | .error _ => False
  | .ok files => (∀ file ∈ files, File.Legible file) ∧ declarations files ≠ []

/-- The last declaration of a model. -/
def latest (id : String) : Files → Option Entry
  | .error _ => none
  | .ok files =>
      ((declarations files).reverse.find? (·.name = id)).bind declared

/-- The table after some readable documents: the last declaration of a model
wins over the earlier ones and over what was there. -/
theorem lookup_foldl_record {id : String} {models : Models} :
    ∀ {docs : List Document}, (∀ doc ∈ docs, Readable doc) →
      (docs.foldl record models).lookup id =
        match (docs.filter (!·.skipped)).reverse.find? (·.name = id) with
        | some doc => declared doc
        | none => models.lookup id := by
  intro docs
  induction docs using List.reverseRecOn with
  | nil => intro _; rfl
  | append_singleton docs doc ih =>
      intro hgood
      have hdocs := ih fun d hd => hgood d (List.mem_append_left _ hd)
      have hdoc := hgood doc (List.mem_append_right _ List.mem_cons_self)
      rw [List.foldl_concat, List.filter_append, record]
      by_cases hskip : doc.skipped = true
      · rw [if_pos hskip, hdocs]
        simp [hskip]
      · obtain ⟨entry, hentry⟩ :=
          Option.isSome_iff_exists.mp (hdoc.resolve_left hskip)
        rw [if_neg hskip, hentry, Option.elim_some, List.filter_cons_of_pos
          (by simp [hskip]), List.filter_nil, List.reverse_concat]
        by_cases hname : doc.name = id
        · rw [List.find?_cons_of_pos (by simp [hname]), ← hname,
            AList.lookup_insert]
          exact hentry.symm
        · rw [List.find?_cons_of_neg (by simp [hname]),
            AList.lookup_insert_ne (Ne.symm hname), hdocs]

theorem documents_readable {files : List File}
    (h : ∀ file ∈ files, File.Legible file) :
    ∀ doc ∈ files.flatMap File.documents, Readable doc := by
  intro doc hdoc
  obtain ⟨file, hfile, hmem⟩ := List.mem_flatMap.mp hdoc
  obtain ⟨decoded, hopened, _, hread⟩ := h file hfile
  rw [File.documents, hopened] at hmem
  exact hread doc hmem

/-- The table of a file set. -/
def tableOf (files : List File) : Models :=
  (files.flatMap File.documents).foldl record ∅

theorem lookup_tableOf {files : List File}
    (h : ∀ file ∈ files, File.Legible file) (id : String) :
    (tableOf files).lookup id = latest id (.ok files) := by
  rw [tableOf, lookup_foldl_record (documents_readable h), latest, declarations]
  split
  · next hfind => rw [hfind]; rfl
  · next hfind => rw [hfind]; rfl

theorem latest_isSome_iff {files : List File}
    (h : ∀ file ∈ files, File.Legible file) (id : String) :
    (latest id (.ok files)).isSome ↔ ∃ doc ∈ declarations files, doc.name = id := by
  have hfind : ((declarations files).reverse.find? (·.name = id)).isSome ↔
      ∃ doc ∈ declarations files, doc.name = id := by
    simp [List.find?_isSome]
  rw [← hfind, latest]
  cases hlast : (declarations files).reverse.find? (·.name = id) with
  | none => exact Iff.rfl
  | some doc =>
      have hmem := List.mem_filter.mp
        (List.mem_reverse.mp (List.mem_of_find?_eq_some hlast))
      have hread := (documents_readable h doc hmem.1).resolve_left
        (by simpa using hmem.2)
      exact ⟨fun _ => rfl, fun _ => hread⟩

theorem keys_tableOf {files : List File}
    (h : ∀ file ∈ files, File.Legible file) :
    (tableOf files).keys = [] ↔ declarations files = [] := by
  have hkey : ∀ id, id ∈ (tableOf files).keys ↔
      ∃ doc ∈ declarations files, doc.name = id := by
    intro id
    rw [← latest_isSome_iff h, ← lookup_tableOf h]
    exact AList.lookup_isSome.symm
  rw [List.eq_nil_iff_forall_not_mem, List.eq_nil_iff_forall_not_mem]
  constructor
  · intro hnone doc hdoc
    exact hnone doc.name ((hkey _).mpr ⟨doc, hdoc, rfl⟩)
  · intro hnone id hid
    obtain ⟨doc, hdoc, _⟩ := (hkey id).mp hid
    exact hnone doc hdoc

theorem readFiles_eq_ok {quote : String → String} {files : List File}
    {models : Models} :
    files.foldlM (readFile quote) ∅ = .ok models ↔
      (∀ file ∈ files, File.Legible file) ∧ models = tableOf files := by
  rw [foldlM_eq_ok (f := readFile quote)
    (g := fun models file => (File.documents file).foldl record models)
    readFile_eq_ok, tableOf, List.foldl_flatMap]

/-- A file set is accepted exactly if it is legible, and then the catalog is what
it declares last. -/
theorem readAll_eq_ok {quote : String → String} {pattern : String}
    {files : Files} :
    (Legible files → ∃ models, readAll quote pattern files = .ok models) ∧
    ∀ {models}, readAll quote pattern files = .ok models →
      Legible files ∧ ∀ id, models.lookup id = latest id files := by
  cases files with
  | error err => exact ⟨nofun, nofun⟩
  | ok files =>
      constructor
      · rintro ⟨hlegible, hne⟩
        refine ⟨tableOf files, ?_⟩
        rw [readAll, readFiles_eq_ok.mpr ⟨hlegible, rfl⟩]
        exact if_neg fun hkeys => hne ((keys_tableOf hlegible).mp hkeys)
      · intro models h
        rw [readAll] at h
        split at h
        · cases h
        · next models₁ hfold =>
            obtain ⟨hlegible, rfl⟩ := readFiles_eq_ok.mp hfold
            split at h
            · cases h
            · next hkeys =>
                cases h
                exact ⟨⟨hlegible, fun hnil => hkeys ((keys_tableOf hlegible).mpr hnil)⟩,
                  lookup_tableOf hlegible⟩

theorem latest_id {id : String} {files : Files} {entry : Entry}
    (h : latest id files = some entry) : entry.model.id = id := by
  unfold latest at h
  split at h
  · cases h
  · obtain ⟨doc, hfind, hentry⟩ := Option.bind_eq_some_iff.mp h
    rw [declared_id hentry]
    have hname := List.find?_some hfind
    exact of_decide_eq_true hname

/-! ## The catalog over time -/

/-- The catalog holds what a file set declares. -/
def Serves (c : Catalog) (files : Files) : Prop :=
  Legible files ∧ ∀ id, c.get id = latest id files

theorem reload_serves (quote : String → String) {files : Files} (c : Catalog)
    (h : Legible files) : Serves (reload quote files c).2 files := by
  obtain ⟨models, hmodels⟩ := readAll_eq_ok.1 h
  rw [reload, hmodels]
  exact readAll_eq_ok.2 hmodels

theorem reload_frame {quote : String → String} {files : Files} {c : Catalog}
    (h : ¬ Legible files) : (reload quote files c).2 = c := by
  rw [reload]
  split
  · rfl
  · next models hmodels => exact absurd (readAll_eq_ok.2 hmodels).1 h

theorem load_serves {quote : String → String} {pattern : String} {files : Files}
    {c : Catalog} (h : load quote pattern files = .ok c) : Serves c files := by
  unfold load at h
  split at h
  · cases h
  · next c' hreload =>
      cases h
      unfold reload at hreload
      split at hreload
      · cases hreload
      · next models hmodels =>
          cases hreload
          exact readAll_eq_ok.2 hmodels

/-- The catalog after some more reloads. -/
def reloaded (quote : String → String) (c : Catalog) (reloads : List Files) :
    Catalog :=
  reloads.foldl (fun c files => (reload quote files c).2) c

theorem reloaded_serves (quote : String → String) :
    ∀ (reloads : List Files) {c : Catalog} {files : Files}, Serves c files →
      ∃ before last after, files :: reloads = before ++ last :: after ∧
        Serves (reloaded quote c reloads) last ∧
        ∀ later ∈ after, ¬ Legible later := by
  intro reloads
  induction reloads with
  | nil => intro c files h; exact ⟨[], files, [], rfl, h, by simp⟩
  | cons next reloads ih =>
      intro c files h
      by_cases hlegible : Legible next
      · obtain ⟨before, last, after, heq, hserves, hafter⟩ :=
          ih (reload_serves quote c hlegible)
        refine ⟨files :: before, last, after, ?_, hserves, hafter⟩
        rw [heq]
        rfl
      · obtain ⟨before, last, after, heq, hserves, hafter⟩ := ih h
        rw [reloaded, List.foldl_cons, reload_frame hlegible]
        cases before with
        | nil =>
            obtain ⟨rfl, rfl⟩ := List.cons.inj heq
            refine ⟨[], files, next :: reloads, rfl, hserves, ?_⟩
            exact List.forall_mem_cons.mpr ⟨hlegible, hafter⟩
        | cons first before =>
            obtain ⟨rfl, rfl⟩ := List.cons.inj heq
            exact ⟨files :: next :: before, last, after, rfl, hserves, hafter⟩

theorem mem_list {c : Catalog} {model : Model} :
    model ∈ c.list ↔ ∃ id entry, c.get id = some entry ∧ entry.model = model := by
  unfold Catalog.list Catalog.get
  rw [List.mem_filterMap]
  constructor
  · rintro ⟨id, _, h⟩
    obtain ⟨entry, hentry, hmodel⟩ := Option.map_eq_some_iff.mp h
    exact ⟨id, entry, hentry, hmodel⟩
  · rintro ⟨id, entry, hentry, rfl⟩
    refine ⟨id, ?_, by rw [hentry]; rfl⟩
    rw [List.mem_insertionSort]
    exact AList.lookup_isSome.mp (by rw [hentry]; rfl)

/-- Where every entry has its own id, the list goes up strictly. -/
theorem list_increasing {c : Catalog}
    (h : ∀ {id entry}, c.get id = some entry → entry.model.id = id) :
    (c.list.map (·.id)).Pairwise (· < ·) := by
  have hids : ∀ l : List String, (∀ id ∈ l, id ∈ c.models.keys) →
      (l.filterMap fun id => (c.models.lookup id).map (·.model)).map (·.id) =
        l := by
    intro l
    induction l with
    | nil => intro _; rfl
    | cons id l ih =>
        intro hl
        obtain ⟨entry, hentry⟩ := Option.isSome_iff_exists.mp
          (AList.lookup_isSome.mpr (hl id List.mem_cons_self))
        rw [List.filterMap_cons, hentry, Option.map_some, List.map_cons,
          ih fun id' hid' => hl id' (List.mem_cons_of_mem _ hid'), h hentry]
  have hkeys := hids (c.models.keys.insertionSort (· ≤ ·))
    fun id hid => (List.mem_insertionSort (· ≤ ·)).mp hid
  have hnodup : (c.models.keys.insertionSort (· ≤ ·)).Nodup :=
    (List.perm_insertionSort (· ≤ ·) _).nodup_iff.mpr c.models.keys_nodup
  unfold Catalog.list
  rw [hkeys]
  exact ((List.pairwise_insertionSort (· ≤ ·) _).and hnodup).imp
    fun hid => lt_of_le_of_ne hid.1 hid.2

/-- After any number of reloads, of which any may fail at any point, the catalog
is that of the last file set that was legible: a model is in it with what was
declared of it last, and the list has each of them once, in order. It is never
empty. -/
theorem catalog_serves_last_legible (quote : String → String) (pattern : String)
    (files : Files) (c : Catalog) (h : load quote pattern files = .ok c)
    (reloads : List Files) :
    ∃ before last after, files :: reloads = before ++ last :: after ∧
      Legible last ∧ (∀ later ∈ after, ¬ Legible later) ∧
      (∀ id, (reloaded quote c reloads).get id = latest id last) ∧
      ((reloaded quote c reloads).list.map (·.id)).Pairwise (· < ·) ∧
      (∀ model, model ∈ (reloaded quote c reloads).list ↔
        ∃ entry, (reloaded quote c reloads).get model.id = some entry ∧
          entry.model = model) ∧
      (reloaded quote c reloads).list ≠ [] := by
  obtain ⟨before, last, after, heq, ⟨hlegible, hget⟩, hafter⟩ :=
    reloaded_serves quote reloads (load_serves h)
  have hown : ∀ {id entry}, (reloaded quote c reloads).get id = some entry →
      entry.model.id = id := fun hid => latest_id ((hget _).symm.trans hid)
  refine ⟨before, last, after, heq, hlegible, hafter, hget, list_increasing hown,
    fun model => ?_, ?_⟩
  · rw [mem_list]
    constructor
    · rintro ⟨id, entry, hid, rfl⟩
      exact ⟨entry, by rw [hown hid]; exact hid, rfl⟩
    · rintro ⟨entry, hid, hmodel⟩
      exact ⟨_, entry, hid, hmodel⟩
  · -- a legible file set declares something
    cases last with
    | error err => cases hlegible
    | ok last =>
        obtain ⟨doc, hdoc⟩ := List.exists_mem_of_ne_nil _ hlegible.2
        obtain ⟨entry, hentry⟩ := Option.isSome_iff_exists.mp
          ((latest_isSome_iff hlegible.1 doc.name).mpr ⟨doc, hdoc, rfl⟩)
        exact List.ne_nil_of_mem
          (mem_list.mpr ⟨doc.name, entry, (hget _).trans hentry, rfl⟩)

/-- A declaration with a context limit. -/
def sampleDeclaration (name contextLimit : String) : Document where
  kind := "LLMInferenceServiceConfig"
  annotations := [(annotationPrefix ++ "context-limit", contextLimit)]
  name := name

/-- The second file set has a limit that is not a number, the third declares
one model twice, the fourth has a file that cannot be opened. -/
theorem catalog_serves_last_legible_third :
    ∃ c, load id "*.yaml"
        (.ok [("a.yaml", .ok ⟨[sampleDeclaration "a" "4096"], none⟩)]) =
          .ok c ∧
      let reloads : List Files :=
        [.ok [("a.yaml", .ok ⟨[sampleDeclaration "b" "4k"], none⟩)],
          .ok [("a.yaml", .ok ⟨[sampleDeclaration "b" "1",
            sampleDeclaration "b" "2"], none⟩)],
          .ok [("a.yaml", .ok ⟨[sampleDeclaration "c" "1"], none⟩),
            ("b.yaml", .error "permission denied")]]
      (reloaded id c reloads).list.map (·.contextLimit) = [2] ∧
        ((reloaded id c reloads).list.map (·.id)).Pairwise (· < ·) := by
  obtain ⟨c, hc⟩ : ∃ c, load id "*.yaml"
      (.ok [("a.yaml", .ok ⟨[sampleDeclaration "a" "4096"], none⟩)]) =
        .ok c := ⟨_, rfl⟩
  refine ⟨c, hc, ?_, ?_⟩
  · cases hc
    decide
  · obtain ⟨_, _, _, _, _, _, _, hlist, _⟩ :=
      catalog_serves_last_legible id "*.yaml" _ c hc _
    exact hlist

end DataPlane.Proofs
