import DataPlane.Proofs.Chunking

/-!
# Whose count it is

The number of generated tokens is overwritten when the runtime reports one and
added to when text arrives, and within an event the report comes first. So
what the engine returns is the last report and an estimate of every text from
that event on. The report stands only if there is no such text.
-/

namespace DataPlane.Proofs

open DataPlane DataPlane.Lib DataPlane.Ref

/-- The events of a body, in order, as far as they can be decoded. -/
def eventsRead (fromStr : String → Option Json) (chunks : List (List UInt8)) :
    List Json :=
  (processedLines chunks).filterMap fun line => (eventData line).bind fromStr

/-- The last reported number of generated tokens. -/
def lastReported : List Json → Option Nat
  | [] => none
  | value :: values => (lastReported values).or (reportedTokens value)

/-- What an event's text is taken to count for. -/
def textEstimate (value : Json) : Nat :=
  if eventText value = "" then 0 else max (estimateTokens (eventText value)) 1

/-- What the texts count for that come with the last report or after it. -/
def estimatedSinceReport : List Json → Nat
  | [] => 0
  | value :: values =>
      if (lastReported values).isSome then estimatedSinceReport values
      else textEstimate value + estimatedSinceReport values

/-! ## One event -/

theorem reportedTokens_lt {value : Json} {n : Nat}
    (h : reportedTokens value = some n) : n < 2 ^ 64 := by
  unfold reportedTokens at h
  obtain ⟨usage, _, h⟩ := Option.bind_eq_some_iff.mp h
  obtain ⟨count, _, h⟩ := Option.bind_eq_some_iff.mp h
  obtain ⟨word, _, rfl⟩ := Option.map_eq_some_iff.mp h
  exact word.toNat_lt

theorem applyUsage_generatedTokens (usage : GenerationUsage) (value : Json) :
    (applyUsage usage value).generatedTokens =
      (reportedTokens value).getD usage.generatedTokens := by
  unfold applyUsage reportedTokens
  cases value.get "usage" <;> rfl

theorem applyFinish_generatedTokens (usage : GenerationUsage) (value : Json) :
    (applyFinish usage value).generatedTokens = usage.generatedTokens := by
  unfold applyFinish
  split <;> rfl

/-- The report first, then the text. -/
theorem handleEvent_generatedTokens {r : Reading} (value : Json)
    (h : r.usage.generatedTokens < 2 ^ 64) :
    (handleEvent r value).usage.generatedTokens =
      ((reportedTokens value).getD r.usage.generatedTokens +
        textEstimate value) % 2 ^ 64 := by
  have hbase : (applyFinish (applyUsage r.usage value) value).generatedTokens =
      (reportedTokens value).getD r.usage.generatedTokens := by
    rw [applyFinish_generatedTokens, applyUsage_generatedTokens]
  have hlt : (reportedTokens value).getD r.usage.generatedTokens < 2 ^ 64 := by
    cases hrep : reportedTokens value with
    | none => exact h
    | some n => exact reportedTokens_lt hrep
  unfold handleEvent applyText textEstimate
  split
  · rw [hbase, Nat.add_zero, Nat.mod_eq_of_lt hlt]
  · dsimp only
    rw [hbase]

theorem handleEvent_failed (r : Reading) (value : Json) :
    (handleEvent r value).failed = r.failed := by
  unfold handleEvent applyText
  split <;> rfl

/-! ## All events -/

/-- The count after a list of events, from the last report or, if there was
none, from where it stood before. -/
theorem foldl_handleEvent_generatedTokens {r : Reading} (values : List Json)
    (h : r.usage.generatedTokens < 2 ^ 64) :
    (values.foldl handleEvent r).usage.generatedTokens =
      ((lastReported values).getD r.usage.generatedTokens +
        estimatedSinceReport values) % 2 ^ 64 := by
  induction values generalizing r with
  | nil => exact (Nat.mod_eq_of_lt h).symm
  | cons value values ih =>
      have hstep := handleEvent_generatedTokens value h
      have hlt : (handleEvent r value).usage.generatedTokens < 2 ^ 64 := by
        rw [hstep]
        exact Nat.mod_lt _ (Nat.two_pow_pos 64)
      rw [List.foldl_cons, ih hlt, lastReported, estimatedSinceReport]
      cases lastReported values with
      | some n => simp
      | none =>
          simp only [Option.getD_none, Option.none_or, Option.isSome_none,
            Bool.false_eq_true, if_false]
          rw [hstep, Nat.mod_add_mod, Nat.add_assoc]

theorem processLine_of_failed {fromStr : String → Option Json} {r : Reading}
    {data : String} (h : r.failed = some data) (line : List Char) :
    processLine fromStr r line = r := by
  unfold processLine
  rw [h]

theorem foldl_processLine_of_failed {fromStr : String → Option Json}
    {r : Reading} {data : String} (h : r.failed = some data)
    (lines : List (List Char)) :
    lines.foldl (processLine fromStr) r = r := by
  induction lines with
  | nil => rfl
  | cons line lines ih => rw [List.foldl_cons, processLine_of_failed h, ih]

/-- A reading that did not fail has handled every event. -/
theorem foldl_processLine_eq {fromStr : String → Option Json} {r : Reading}
    {lines : List (List Char)} (hr : r.failed = none)
    (h : (lines.foldl (processLine fromStr) r).failed = none) :
    lines.foldl (processLine fromStr) r =
      (lines.filterMap fun line =>
        (eventData line).bind fromStr).foldl handleEvent r := by
  induction lines generalizing r with
  | nil => rfl
  | cons line lines ih =>
      rw [List.foldl_cons] at h ⊢
      rw [List.filterMap_cons]
      cases hdata : eventData line with
      | none =>
          have hline : processLine fromStr r line = r := by
            simp [processLine, hr, hdata]
          rw [hline] at h ⊢
          exact ih hr h
      | some data =>
          cases hval : fromStr data with
          | none =>
              have hline : processLine fromStr r line =
                  { r with failed := some data } := by
                simp [processLine, hr, hdata, hval]
              rw [hline, foldl_processLine_of_failed rfl] at h
              cases h
          | some value =>
              have hline : processLine fromStr r line = handleEvent r value := by
                simp [processLine, hr, hdata, hval]
              rw [hline] at h ⊢
              simp only [Option.bind_some, hval, List.foldl_cons]
              exact ih ((handleEvent_failed r value).trans hr) h

/-- The count that is returned. -/
theorem stream_generatedTokens {fromStr : String → Option Json}
    {request : EngineRuntimeRequest} {chunks : List (List UInt8)}
    {published : List TokenChunk} {usage : GenerationUsage}
    (h : streamOpenaiCompatible fromStr request chunks =
      (published, .ok usage)) :
    usage.generatedTokens =
      ((lastReported (eventsRead fromStr chunks)).getD 0 +
        estimatedSinceReport (eventsRead fromStr chunks)) % 2 ^ 64 := by
  unfold streamOpenaiCompatible at h
  simp only [Prod.mk.injEq] at h
  obtain ⟨_, h⟩ := h
  split at h
  · cases h
  · next hok =>
      rw [readChunks_eq] at hok h
      rw [foldl_processLine_eq rfl hok] at h
      have hcount := foldl_handleEvent_generatedTokens (r := .init)
        (eventsRead fromStr chunks) (by decide)
      split at h
      · cases h; exact hcount
      · cases h; exact hcount

/-- The runtime's count is what the engine returns, what the reservation is
reconciled with and what the completion says. -/
def Authoritative (usage : GenerationUsage) (n : Nat) : Prop :=
  usage.generatedTokens = n ∧
    actualTokens (.ok (closeUsage usage)) = n ∧
    ∀ job attemptId,
      (conclusion job attemptId (.ok (closeUsage usage))).event =
        some (.completed ⟨usage.promptTokens, n,
          (closeUsage usage).finishReason⟩)

theorem authoritative_iff (usage : GenerationUsage) (n : Nat) :
    Authoritative usage n ↔ usage.generatedTokens = n := by
  have hclose : (closeUsage usage).generatedTokens = usage.generatedTokens := by
    unfold closeUsage
    split <;> rfl
  have hprompt : (closeUsage usage).promptTokens = usage.promptTokens := by
    unfold closeUsage
    split <;> rfl
  refine ⟨fun h => h.1, fun h => ⟨h, ?_, ?_⟩⟩
  · rw [← h, ← hclose]
    rfl
  · intro job attemptId
    rw [← h, ← hclose, ← hprompt]
    rfl

/-- For every stream that is read to its end and reports a number of generated
tokens at least once, the last report is authoritative if and only if the
texts that come with it or after it count for nothing: there is none, or what
they are estimated at wraps to zero. -/
theorem usage_authoritative_iff (fromStr : String → Option Json)
    (request : EngineRuntimeRequest) (chunks : List (List UInt8))
    (published : List TokenChunk) (usage : GenerationUsage) (n : Nat)
    (h : streamOpenaiCompatible fromStr request chunks =
      (published, .ok usage))
    (hn : lastReported (eventsRead fromStr chunks) = some n) :
    Authoritative usage n ↔
      2 ^ 64 ∣ estimatedSinceReport (eventsRead fromStr chunks) := by
  have hlt : ∀ values, lastReported values = some n → n < 2 ^ 64 := by
    intro values
    induction values with
    | nil => intro h; cases h
    | cons value values ih =>
        intro h
        rw [lastReported, Option.or_eq_some_iff] at h
        rcases h with h | ⟨_, h⟩
        · exact ih h
        · exact reportedTokens_lt h
  have hcount := stream_generatedTokens h
  have hn' := hlt _ hn
  rw [hn, Option.getD_some] at hcount
  rw [authoritative_iff, hcount]
  omega

/-- A stream of one line with a text and a report. -/
def reportWithText : Json :=
  .object [("choices", .array [.object [("text", .string "hi")]]),
    ("usage", .object [("completion_tokens", .int 5)])]

/-- A report without a text, as it comes at the end of a stream. -/
def reportAlone : Json :=
  .object [("choices", .array []),
    ("usage", .object [("completion_tokens", .int 5)])]

/-- The data of the events above, and of the text delta of a stream. -/
def sampleEvent (data : String) : Option Json :=
  if data = "\x7b\"choices\":[\x7b\"text\":\"hi\"\x7d]," ++
      "\"usage\":\x7b\"completion_tokens\":5\x7d\x7d" then
    some reportWithText
  else if data = "\x7b\"choices\":[]," ++
      "\"usage\":\x7b\"completion_tokens\":5\x7d\x7d" then
    some reportAlone
  else if data = "\x7b\"choices\":[\x7b\"text\":\"hi\"\x7d]\x7d" then
    some (deltaJson "hi")
  else none

/-- Two deltas, then the report. -/
def reportLast : List (List UInt8) :=
  [("data: \x7b\"choices\":[\x7b\"text\":\"hi\"\x7d]\x7d\n\n" ++
    "data: \x7b\"choices\":[\x7b\"text\":\"hi\"\x7d]\x7d\n\n" ++
    "data: \x7b\"choices\":[]," ++
    "\"usage\":\x7b\"completion_tokens\":5\x7d\x7d\n\n" ++
    "data: [DONE]\n").toUTF8.data.toList]

/-- A report in the same event as a delta. -/
def reportInDelta : List (List UInt8) :=
  [("data: \x7b\"choices\":[\x7b\"text\":\"hi\"\x7d]," ++
    "\"usage\":\x7b\"completion_tokens\":5\x7d\x7d\n\n" ++
    "data: [DONE]\n").toUTF8.data.toList]

def samplePrompt : EngineRuntimeRequest := ⟨"m", none, some "hi", 5, 0⟩

theorem usage_authoritative_reportLast :
    streamOpenaiCompatible sampleEvent samplePrompt reportLast =
        ([⟨"hi", 1⟩, ⟨"hi", 2⟩], .ok ⟨1, 5, ""⟩) ∧
      Authoritative ⟨1, 5, ""⟩ 5 := by
  have hstream : streamOpenaiCompatible sampleEvent samplePrompt reportLast =
      ([⟨"hi", 1⟩, ⟨"hi", 2⟩], .ok ⟨1, 5, ""⟩) := by decide
  exact ⟨hstream, (usage_authoritative_iff sampleEvent samplePrompt reportLast
    _ _ 5 hstream (by decide)).mpr (by decide)⟩

/-- The word of the delta is counted on top of the five tokens reported. -/
theorem usage_not_authoritative_reportInDelta :
    streamOpenaiCompatible sampleEvent samplePrompt reportInDelta =
        ([⟨"hi", 6⟩], .ok ⟨1, 6, ""⟩) ∧
      lastReported (eventsRead sampleEvent reportInDelta) = some 5 ∧
      ¬ Authoritative ⟨1, 6, ""⟩ 5 := by
  refine ⟨by decide, by decide, fun h => ?_⟩
  exact absurd h.1 (by decide)

end DataPlane.Proofs
