import DataPlane.Ref.Backend

/-!
# How the network cuts the stream

The read loop keeps an incomplete line for the next chunk, so where the lines
are cut does not matter. It keeps no incomplete character: each chunk becomes
text by itself, and a character whose bytes come in two chunks is lost.

That is to be seen when the line is an event and the loop gets to it. A cut in
any other line goes unnoticed: nothing is read of a line that does not begin
with `data:`, and nothing at all after the first event that is not JSON. So the
cuts do not show if, up to that event, every event arrives in pieces of whole
characters. Which events are JSON is up to the parser; if the cuts are not to
show whatever it makes of a line, they must not go through a character of any
event. Each one leaves another replacement in the data of its line, and these
can be counted.
-/

namespace DataPlane.Proofs

open DataPlane DataPlane.Lib DataPlane.Ref
open Utf8 (lossy cuts replacement Whole)

/-- The lines the read loop hands on, chunk by chunk, with its buffer. -/
def takeLines (s : List Char × List (List Char)) (chunk : List UInt8) :
    List Char × List (List Char) :=
  (restOf '\n' (s.1 ++ lossy chunk),
    s.2 ++ linesOf '\n' (s.1 ++ lossy chunk))

/-- The lines taken out of the buffer, if these chunks are read to their end. -/
def processedLines (chunks : List (List UInt8)) : List (List Char) :=
  (chunks.foldl takeLines ([], [])).2

/-- What is published and what is returned, the usage or the line it failed on,
are what they are for the whole body in one chunk. -/
def ChunkingInvisible (fromStr : String → Option Json)
    (chunks : List (List UInt8)) : Prop :=
  ∀ request, streamOpenaiCompatible fromStr request chunks =
    streamOpenaiCompatible fromStr request [chunks.flatten]

/-- The line begins like an event. -/
def isData (line : List Char) : Bool := "data:".toList.isPrefixOf line

/-- The line is an event that is not JSON. -/
def rejected (fromStr : String → Option Json) (line : List Char) : Bool :=
  (eventData line).any fun data => (fromStr data).isNone

/-- Up to the first event that is not JSON, no event arrives in pieces cut
through a character. -/
def EventsWhole (fromStr : String → Option Json) :
    List (List (List UInt8)) → Prop
  | [] => True
  | line :: lines =>
      (isData (lossy line.flatten) = true → Whole line) ∧
        (rejected fromStr (lossy line.flatten) = true ∨
          EventsWhole fromStr lines)

/-- No cut goes through a character that a newline still follows. -/
def CharactersWhole : List (List UInt8) → Prop
  | [] => True
  | chunk :: chunks =>
      (10 ∈ chunks.flatten → cuts chunk chunks.flatten = false) ∧
        CharactersWhole chunks

/-! ## The loop -/

/-- The lines go to `processLine` in order. -/
theorem readChunks_eq (fromStr : String → Option Json)
    (chunks : List (List UInt8)) :
    (readChunks fromStr chunks).2 =
      (processedLines chunks).foldl (processLine fromStr) .init := by
  have hfold : ∀ (chunks : List (List UInt8)) (buffer : List Char)
      (lines : List (List Char)),
      chunks.foldl (readChunk fromStr)
          (buffer, lines.foldl (processLine fromStr) .init) =
        ((chunks.foldl takeLines (buffer, lines)).1,
          (chunks.foldl takeLines (buffer, lines)).2.foldl
            (processLine fromStr) .init) := by
    intro chunks
    induction chunks with
    | nil => intro buffer lines; rfl
    | cons chunk chunks ih =>
        intro buffer lines
        simp only [List.foldl_cons, readChunk, takeLines]
        rw [← List.foldl_append]
        exact ih _ _
  exact congrArg Prod.snd (hfold chunks [] [])

/-- The buffer makes up for cuts between characters: the lines are those of the
texts of all chunks, one after the other. -/
theorem processedLines_eq (chunks : List (List UInt8)) :
    processedLines chunks = linesOf '\n' (chunks.flatMap lossy) := by
  have hfold : ∀ (chunks : List (List UInt8)) (text : List Char),
      chunks.foldl takeLines (restOf '\n' text, linesOf '\n' text) =
        (restOf '\n' (text ++ chunks.flatMap lossy),
          linesOf '\n' (text ++ chunks.flatMap lossy)) := by
    intro chunks
    induction chunks with
    | nil => intro text; simp
    | cons chunk chunks ih =>
        intro text
        obtain ⟨hlines, hrest⟩ := splitLines_resume '\n' text (lossy chunk)
        simp only [List.foldl_cons, takeLines, hlines, hrest, ih,
          List.flatMap_cons, List.append_assoc]
  exact congrArg Prod.snd (hfold chunks [])

/-! ## The text -/

theorem newline_mem_lossy (bytes : List UInt8) :
    '\n' ∈ lossy bytes ↔ 10 ∈ bytes :=
  Utf8.newline_mem_decodeFrom .start bytes

/-- Decoding keeps the lines. -/
theorem splitLines_lossy (bytes : List UInt8) :
    linesOf '\n' (lossy bytes) = (linesOf 10 bytes).map lossy ∧
      restOf '\n' (lossy bytes) = lossy (restOf 10 bytes) := by
  induction hn : bytes.length using Nat.strongRecOn generalizing bytes with
  | ind n ih =>
      subst hn
      by_cases hmem : 10 ∈ bytes
      · obtain ⟨line, rest, rfl, hline⟩ := List.eq_append_cons_of_mem hmem
        have hline' : '\n' ∉ lossy line := (newline_mem_lossy line).not.mpr hline
        obtain ⟨hlines, hrest⟩ := ih rest.length (by simp; omega) rest rfl
        rw [Utf8.lossy_newline, (splitLines_cons _ hline' _).1,
          (splitLines_cons _ hline' _).2, (splitLines_cons _ hline _).1,
          (splitLines_cons _ hline _).2, hlines, hrest]
        exact ⟨rfl, rfl⟩
      · have hmem' : '\n' ∉ lossy bytes := (newline_mem_lossy bytes).not.mpr hmem
        rw [(linesOf_eq_nil _).mpr hmem, (linesOf_eq_nil _).mpr hmem',
          restOf_of_notMem _ hmem, restOf_of_notMem _ hmem']
        exact ⟨rfl, rfl⟩

/-- The lines of a body that arrives in chunks, and those of the whole. -/
theorem linesOf_cut (chunks : List (List UInt8)) :
    linesOf '\n' (chunks.flatMap lossy) =
        (linesInPieces 10 chunks).map (·.flatMap lossy) ∧
      linesOf '\n' (lossy chunks.flatten) =
        (linesInPieces 10 chunks).map fun line => lossy line.flatten := by
  refine ⟨linesOf_flatMap (fun part => (splitLines_lossy part).1)
    (fun part => (splitLines_lossy part).2) chunks, ?_⟩
  have hwhole : linesOf 10 (chunks.flatMap id) =
      (linesInPieces 10 chunks).map (·.flatMap id) :=
    linesOf_flatMap (fun _ => (List.map_id _).symm) (fun _ => rfl) chunks
  rw [List.flatMap_id] at hwhole
  rw [(splitLines_lossy _).1, hwhole, List.map_map]
  simp [Function.comp_def]

theorem linesOf_chunks {chunks : List (List UInt8)}
    (h : CharactersWhole chunks) :
    linesOf '\n' (chunks.flatMap lossy) =
      linesOf '\n' (lossy chunks.flatten) := by
  induction chunks with
  | nil => rfl
  | cons chunk chunks ih =>
      rw [List.flatMap_cons, List.flatten_cons, linesOf_append, ih h.2,
        ← linesOf_append]
      cases hcut : cuts chunk chunks.flatten with
      | false => rw [Utf8.lossy_append_of_not_cuts hcut]
      | true =>
          -- behind a character that is cut there is no complete line
          have hno : 10 ∉ chunks.flatten := fun hmem => by
            rw [h.1 hmem] at hcut
            cases hcut
          obtain ⟨x, ch, k, y, hch, hwhole, hparts, hrest⟩ :=
            Utf8.lossy_append_of_cuts hcut
          have hy : '\n' ∉ List.replicate (k + 1) replacement ++ y := by
            rw [← hrest, newline_mem_lossy]
            exact hno
          have hy' : '\n' ∉ ch :: y := by
            rw [List.mem_cons, not_or]
            exact ⟨(Utf8.ne_newline hch).symm,
              fun hmem => hy (List.mem_append_right _ hmem)⟩
          rw [hparts, hwhole, linesOf_append_of_notMem _ _ hy',
            List.append_assoc, linesOf_append_of_notMem]
          rw [List.cons_append, List.mem_cons, not_or]
          exact ⟨Utf8.replacement_ne_newline.symm, hy⟩

/-! ## Events in pieces -/

theorem isData_iff (line : List Char) :
    isData line = true ↔ "data:".toList <+: line :=
  List.isPrefixOf_iff_prefix

/-- A cut does not make an event of a line, and does not unmake one. -/
theorem isData_pieces (line : List (List UInt8)) :
    isData (line.flatMap lossy) = isData (lossy line.flatten) := by
  rw [Bool.eq_iff_iff, isData_iff, isData_iff]
  exact (Utf8.alike_pieces line).prefix_iff (by simp [Utf8.Plain])

theorem eventData_of_not_data {line : List Char} (h : isData line = false) :
    eventData line = none := by
  unfold eventData
  rw [if_neg]
  intro hbegins
  rw [List.isPrefixOf_iff_prefix] at hbegins
  rw [← Bool.not_eq_true, isData_iff] at h
  exact h (hbegins.trans (List.rdropWhile_prefix _ _))

/-- An event that arrives in pieces of whole characters has its data. -/
theorem eventData_pieces {line : List (List UInt8)}
    (h : isData (lossy line.flatten) = true → Whole line) :
    eventData (line.flatMap lossy) = eventData (lossy line.flatten) := by
  cases hdata : isData (lossy line.flatten) with
  | true => rw [Utf8.flatMap_lossy_of_whole (h hdata)]
  | false =>
      rw [eventData_of_not_data hdata,
        eventData_of_not_data ((isData_pieces line).trans hdata)]

theorem processLine_eq {fromStr : String → Option Json} {line line' : List Char}
    (h : eventData line = eventData line') (r : Reading) :
    processLine fromStr r line = processLine fromStr r line' := by
  unfold processLine
  rw [h]

/-- After a failure nothing is read. -/
theorem foldl_processLine_failed {fromStr : String → Option Json} {r : Reading}
    (h : r.failed ≠ none) (lines : List (List Char)) :
    lines.foldl (processLine fromStr) r = r := by
  induction lines with
  | nil => rfl
  | cons line lines ih =>
      have hstays : processLine fromStr r line = r := by
        unfold processLine
        split
        · rfl
        · next hnone => exact absurd hnone h
      rw [List.foldl_cons, hstays, ih]

theorem failed_of_rejected {fromStr : String → Option Json} {line : List Char}
    (h : rejected fromStr line = true) (r : Reading) :
    (processLine fromStr r line).failed ≠ none := by
  obtain ⟨data, hdata, hnone⟩ := (Option.any_eq_true _ _).mp h
  unfold processLine
  split
  · next hfailed => rw [hfailed]; exact Option.some_ne_none _
  · rw [hdata]
    dsimp only
    rw [Option.isNone_iff_eq_none.mp hnone]
    exact Option.some_ne_none _

/-- What is read of the lines in pieces is what is read of the whole lines. -/
theorem foldl_pieces {fromStr : String → Option Json}
    {lines : List (List (List UInt8))} (h : EventsWhole fromStr lines)
    (r : Reading) :
    (lines.map (·.flatMap lossy)).foldl (processLine fromStr) r =
      (lines.map fun line => lossy line.flatten).foldl
        (processLine fromStr) r := by
  induction lines generalizing r with
  | nil => rfl
  | cons line lines ih =>
      rw [List.map_cons, List.map_cons, List.foldl_cons, List.foldl_cons,
        processLine_eq (eventData_pieces h.1)]
      rcases h.2 with hrejected | hrest
      · have hfailed := failed_of_rejected hrejected r
        rw [foldl_processLine_failed hfailed, foldl_processLine_failed hfailed]
      · exact ih hrest _

/-! ## A parser that tells all events apart -/

/-- The event with a given text. -/
def deltaJson (text : String) : Json :=
  .object [("choices", .array [.object [("text", .string text)]])]

theorem eventData_ne_empty {line : List Char} {data : String}
    (h : eventData line = some data) : data ≠ "" := by
  unfold eventData at h
  dsimp only at h
  split at h
  · split at h
    · cases h
    · next hne =>
        rw [not_or] at hne
        cases h
        intro hempty
        exact hne.2 (String.ofList_eq_empty_iff.mp hempty)
  · cases h

theorem handleEvent_deltaJson (r : Reading) {text : String} (h : text ≠ "") :
    (handleEvent r (deltaJson text)).failed = r.failed ∧
      (handleEvent r (deltaJson text)).published.map (·.text) =
        r.published.map (·.text) ++ [text] := by
  have htext : eventText (deltaJson text) = text := rfl
  unfold handleEvent
  rw [htext, applyText, if_neg h]
  simp

/-- If every event parses to its data, its data is what is published. -/
theorem published_deltaJson (lines : List (List Char)) {r : Reading}
    (hr : r.failed = none) :
    (lines.foldl (processLine fun data => some (deltaJson data))
        r).published.map (·.text) =
      r.published.map (·.text) ++ lines.filterMap eventData := by
  induction lines generalizing r with
  | nil => simp
  | cons line lines ih =>
      rw [List.foldl_cons]
      cases hdata : eventData line with
      | none =>
          have hstep : processLine (fun data => some (deltaJson data)) r line =
              r := by
            simp only [processLine, hr, hdata]
          rw [hstep, ih hr, List.filterMap_cons_none hdata]
      | some data =>
          have hstep : processLine (fun data => some (deltaJson data)) r line =
              handleEvent r (deltaJson data) := by
            simp only [processLine, hr, hdata]
          obtain ⟨hfailed, htexts⟩ :=
            handleEvent_deltaJson r (eventData_ne_empty hdata)
          rw [hstep, ih (hfailed.trans hr), htexts,
            List.filterMap_cons_some hdata, List.append_assoc]
          rfl

/-! ## Counting replacements -/

/-- Dropping what is no replacement does not change their number. -/
theorem count_dropWhile {p : Char → Bool} (hp : p replacement = false)
    (text : List Char) :
    (text.dropWhile p).count replacement = text.count replacement := by
  have hnone : (text.takeWhile p).count replacement = 0 := by
    rw [List.count_eq_zero]
    intro hmem
    rw [List.mem_takeWhile_imp hmem] at hp
    cases hp
  conv_rhs => rw [← List.takeWhile_append_dropWhile (p := p) (l := text)]
  rw [List.count_append, hnone, Nat.zero_add]

theorem count_rdropWhile {p : Char → Bool} (hp : p replacement = false)
    (text : List Char) :
    (text.rdropWhile p).count replacement = text.count replacement := by
  rw [List.rdropWhile, List.count_reverse, count_dropWhile hp,
    List.count_reverse]

/-- The carriage returns at the end of a line do not hide an event. -/
theorem data_rdropWhile {line : List Char} (h : "data:".toList <+: line) :
    "data:".toList <+: line.rdropWhile (· = '\r') := by
  induction line using List.reverseRecOn with
  | nil => exact h
  | append_singleton line ch ih =>
      by_cases hch : ch = '\r'
      · rw [List.rdropWhile_concat_pos _ _ _ (by simpa using hch)]
        rcases List.prefix_concat_iff.mp h with heq | hbegins
        · have hlast := congrArg List.getLast? heq
          rw [List.getLast?_concat, hch] at hlast
          exact absurd hlast (by decide)
        · exact ih hbegins
      · rwa [List.rdropWhile_concat_neg _ _ _ (by simpa using hch)]

theorem count_trim (text : List Char) :
    (trim text).count replacement = text.count replacement := by
  have hblank : isWhitespace replacement = false := by decide
  rw [trim, count_rdropWhile hblank, count_dropWhile hblank]

/-- The replacements in the data of a line: all of them, if it is an event. -/
theorem count_eventData (line : List Char) :
    ((eventData line).getD "").toList.count replacement =
      if isData line then line.count replacement else 0 := by
  cases hdata : isData line with
  | false => simp [eventData_of_not_data hdata]
  | true =>
      have hbegins := data_rdropWhile ((isData_iff line).mp hdata)
      obtain ⟨text, htext⟩ := hbegins
      have hcount : (trim text).count replacement =
          line.count replacement := by
        have hcr := @count_rdropWhile (fun ch => decide (ch = '\r')) rfl line
        have hhead : "data:".toList.count replacement = 0 := by decide
        rw [count_trim, ← hcr, ← htext, List.count_append, hhead, Nat.zero_add]
      have hdrop : (line.rdropWhile (· = '\r')).drop 5 = text := by
        rw [← htext]
        rfl
      rw [if_pos rfl, ← hcount, eventData]
      dsimp only
      rw [if_pos (List.isPrefixOf_iff_prefix.mpr ⟨text, htext⟩), hdrop]
      split
      · next hskip =>
          -- `[DONE]` and nothing have no replacements
          rcases hskip with hdone | hempty
          · rw [hdone]
            rfl
          · rw [hempty]
            rfl
      · simp

/-- All the data of some lines, in one text. -/
def dataText (lines : List (List Char)) : List Char :=
  (lines.filterMap eventData).flatMap String.toList

theorem dataText_cons (line : List Char) (lines : List (List Char)) :
    dataText (line :: lines) =
      ((eventData line).getD "").toList ++ dataText lines := by
  unfold dataText
  cases hdata : eventData line with
  | none => rw [List.filterMap_cons_none hdata]; rfl
  | some data => rw [List.filterMap_cons_some hdata]; rfl

/-- An event cut through a character has more replacements in its data. -/
theorem count_dataText (lines : List (List (List UInt8))) :
    (dataText (lines.map fun line => lossy line.flatten)).count replacement ≤
        (dataText (lines.map (·.flatMap lossy))).count replacement ∧
      ((∃ line ∈ lines, isData (lossy line.flatten) = true ∧ ¬ Whole line) →
        (dataText (lines.map fun line => lossy line.flatten)).count
            replacement <
          (dataText (lines.map (·.flatMap lossy))).count replacement) := by
  induction lines with
  | nil => exact ⟨Nat.le_refl _, by rintro ⟨line, hmem, -⟩; cases hmem⟩
  | cons line lines ih =>
      obtain ⟨hle, hlt⟩ := Utf8.count_pieces line
      rw [List.map_cons, List.map_cons, dataText_cons, dataText_cons,
        List.count_append, List.count_append, count_eventData, count_eventData,
        isData_pieces]
      refine ⟨?_, ?_⟩
      · have := ih.1
        split
        · omega
        · omega
      · rintro ⟨cut, hmem, hdata, hcut⟩
        rcases List.mem_cons.mp hmem with rfl | hmem
        · have := hlt hcut
          have := ih.1
          rw [if_pos hdata, if_pos hdata]
          omega
        · have := ih.2 ⟨cut, hmem, hdata, hcut⟩
          split
          · omega
          · omega

/-! ## What the cuts show -/

theorem eventsWhole_of_forall {fromStr : String → Option Json}
    {lines : List (List (List UInt8))}
    (h : ∀ line ∈ lines, isData (lossy line.flatten) = true → Whole line) :
    EventsWhole fromStr lines := by
  induction lines with
  | nil => trivial
  | cons line lines ih =>
      exact ⟨h line List.mem_cons_self,
        .inr (ih fun x hx => h x (List.mem_cons_of_mem line hx))⟩

theorem chunkingInvisible_of_eventsWhole {fromStr : String → Option Json}
    {chunks : List (List UInt8)}
    (h : EventsWhole fromStr (linesInPieces 10 chunks)) :
    ChunkingInvisible fromStr chunks := by
  obtain ⟨hcut, hwhole⟩ := linesOf_cut chunks
  have hread : (readChunks fromStr chunks).2 =
      (readChunks fromStr [chunks.flatten]).2 := by
    rw [readChunks_eq, readChunks_eq, processedLines_eq, processedLines_eq,
      List.flatMap_singleton, hcut, hwhole]
    exact foldl_pieces h .init
  intro request
  unfold streamOpenaiCompatible
  rw [hread]

/-- If a parser that tells all events apart does not see the cuts, there are
none to be seen. -/
theorem whole_of_chunkingInvisible {chunks : List (List UInt8)}
    (h : ChunkingInvisible (fun data => some (deltaJson data)) chunks) :
    ∀ line ∈ linesInPieces 10 chunks,
      isData (lossy line.flatten) = true → Whole line := by
  obtain ⟨hcut, hwhole⟩ := linesOf_cut chunks
  have hpublished : ∀ chunks : List (List UInt8),
      (streamOpenaiCompatible (fun data => some (deltaJson data))
          ⟨"", none, none, 0, 0⟩ chunks).1.map (·.text) =
        (linesOf '\n' (chunks.flatMap lossy)).filterMap eventData := by
    intro chunks
    have hlines := published_deltaJson (processedLines chunks)
      (r := .init) rfl
    rw [← readChunks_eq, processedLines_eq] at hlines
    exact hlines
  have hsame := congrArg (fun outcome => outcome.1.map (·.text))
    (h ⟨"", none, none, 0, 0⟩)
  rw [hpublished, hpublished, List.flatMap_singleton, hcut, hwhole] at hsame
  have hcount := congrArg (fun data =>
    (data.flatMap String.toList).count replacement) hsame
  intro line hmem hdata
  by_contra hno
  have hlt := (count_dataText (linesInPieces 10 chunks)).2
    ⟨line, hmem, hdata, hno⟩
  exact absurd hcount.symm (Nat.ne_of_lt hlt)

/-- For every body and every way to cut it into chunks. Whatever the parser:
the cuts do not show if, up to the first event that is not JSON, no event
arrives in pieces cut through a character. And only then can they not show
whatever the parser makes of a line. -/
theorem chunking_invisible_iff (chunks : List (List UInt8)) :
    (∀ fromStr, EventsWhole fromStr (linesInPieces 10 chunks) →
      ChunkingInvisible fromStr chunks) ∧
    ((∀ fromStr, ChunkingInvisible fromStr chunks) ↔
      ∀ fromStr, EventsWhole fromStr (linesInPieces 10 chunks)) :=
  ⟨fun _ => chunkingInvisible_of_eventsWhole,
    fun h _ => eventsWhole_of_forall (whole_of_chunkingInvisible (h _)),
    fun h fromStr => chunkingInvisible_of_eventsWhole (h fromStr)⟩

/-- A text delta with one accented letter, cut in the middle of it. -/
def cutDelta : List (List UInt8) :=
  ["data: \x7b\"choices\":[\x7b\"text\":\"".toUTF8.data.toList ++ [0xc3],
    [0xa9] ++ "\"\x7d]\x7d\n".toUTF8.data.toList]

/-- `serde_json` on the two forms in which the delta may arrive. -/
def sampleFromStr (data : String) : Option Json :=
  if data = "\x7b\"choices\":[\x7b\"text\":\"é\"\x7d]\x7d" then
    some (deltaJson "é")
  else if data = "\x7b\"choices\":[\x7b\"text\":\"\uFFFD\uFFFD\"\x7d]\x7d" then
    some (deltaJson "\uFFFD\uFFFD")
  else none

/-- Behind an event that is not JSON the letter is cut and nothing shows. -/
theorem chunking_invisible_rejected :
    ChunkingInvisible sampleFromStr
      ("data: x\n".toUTF8.data.toList :: cutDelta) := by
  refine (chunking_invisible_iff _).1 sampleFromStr ?_
  have hlines : (linesInPieces 10
      ("data: x\n".toUTF8.data.toList :: cutDelta)).head? =
        some ["data: x".toUTF8.data.toList] := by decide
  obtain ⟨lines, hlines⟩ := List.head?_eq_some_iff.mp hlines
  rw [hlines]
  exact ⟨fun _ => by decide, .inl (by decide)⟩

/-- The letter is published as two replacement characters. -/
theorem chunking_visible_cutDelta :
    ¬ ChunkingInvisible sampleFromStr cutDelta ∧
      (streamOpenaiCompatible sampleFromStr ⟨"m", none, some "hi", 5, 0⟩
        cutDelta).1 = [⟨"\uFFFD\uFFFD", 1⟩] ∧
      (streamOpenaiCompatible sampleFromStr ⟨"m", none, some "hi", 5, 0⟩
        [cutDelta.flatten]).1 = [⟨"é", 1⟩] := by
  have hcut : (streamOpenaiCompatible sampleFromStr
      ⟨"m", none, some "hi", 5, 0⟩ cutDelta).1 = [⟨"\uFFFD\uFFFD", 1⟩] := by
    decide
  have hone : (streamOpenaiCompatible sampleFromStr
      ⟨"m", none, some "hi", 5, 0⟩ [cutDelta.flatten]).1 = [⟨"é", 1⟩] := by
    decide
  refine ⟨fun h => ?_, hcut, hone⟩
  rw [h, hone] at hcut
  exact absurd hcut (by decide)

end DataPlane.Proofs
