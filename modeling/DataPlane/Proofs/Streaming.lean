import DataPlane.Proofs.Synthetic
import DataPlane.Proofs.Usage
import DataPlane.Ref.Streaming

/-!
# What a runtime answers reaches the log

The read loop, cut where it waits for a chunk or for a publication, does what
`streamOpenaiCompatible` says of a whole response: between two lines, what has
been put out is what the lines handled so far come to, and the lines still to
be handled are those left in the buffer.

So of an attempt the log has the beginning of what its response comes to, and
a completed attempt all of it, with the usage that is returned for it. How the
response was cut into chunks is not to be seen, as long as no cut goes through
a character.
-/

namespace DataPlane.Proofs

open DataPlane DataPlane.Lib DataPlane.Ref
open Utf8 (lossy)

/-! ## One line -/

/-- A line handled by the loop is a line of the whole response. -/
theorem handleLine_spec {fromStr : String → Option Json}
    {loop loop' : ReadLoop} {line : List Char}
    {output : Option (Output TokenChunk AttemptResult)}
    (h : loop.handleLine fromStr line = (loop', output))
    (told : List TokenChunk) :
    loop' = { loop with usage := loop'.usage } ∧
    ((output = none ∧ processLine fromStr ⟨loop.usage, told, none⟩ line =
        ⟨loop'.usage, told, none⟩) ∨
      (∃ chunk, output = some (.item chunk) ∧
        processLine fromStr ⟨loop.usage, told, none⟩ line =
          ⟨loop'.usage, told ++ [chunk], none⟩) ∨
      ∃ message, output = some (.done (.error message)) ∧
        (processLine fromStr ⟨loop.usage, told, none⟩ line).published =
          told) := by
  unfold ReadLoop.handleLine at h
  split at h
  · next hdata =>
      cases h
      have hline : processLine fromStr ⟨loop.usage, told, none⟩ line =
          ⟨loop.usage, told, none⟩ := by
        simp only [processLine, hdata]
      exact ⟨rfl, .inl ⟨rfl, hline⟩⟩
  · next data hdata =>
      split at h
      · next hvalue =>
          cases h
          have hline : processLine fromStr ⟨loop.usage, told, none⟩ line =
              ⟨loop.usage, told, some data⟩ := by
            simp only [processLine, hdata, hvalue]
          exact ⟨rfl, .inr (.inr ⟨_, rfl, by rw [hline]⟩)⟩
      · next value hvalue =>
          have hline : processLine fromStr ⟨loop.usage, told, none⟩ line =
              handleEvent ⟨loop.usage, told, none⟩ value := by
            simp only [processLine, hdata, hvalue]
          rw [hline]
          dsimp only at h
          split at h
          · next htext =>
              cases h
              exact ⟨rfl, .inl ⟨rfl, if_pos htext⟩⟩
          · next htext =>
              cases h
              exact ⟨rfl, .inr (.inl ⟨_, rfl, if_neg htext⟩)⟩

/-- What has been published stays published. -/
theorem published_processLine (fromStr : String → Option Json) (r : Reading)
    (line : List Char) :
    r.published <+: (processLine fromStr r line).published := by
  unfold processLine
  split
  · exact List.prefix_rfl
  · split
    · exact List.prefix_rfl
    · split
      · exact List.prefix_rfl
      · unfold handleEvent applyText
        split
        · exact List.prefix_rfl
        · exact List.prefix_append _ _

theorem published_foldl (fromStr : String → Option Json)
    (lines : List (List Char)) (r : Reading) :
    r.published <+: (lines.foldl (processLine fromStr) r).published := by
  induction lines generalizing r with
  | nil => exact List.prefix_rfl
  | cons line lines ih =>
      exact (published_processLine fromStr r line).trans (ih _)

/-! ## The loop -/

/-- What the lines handled so far come to. -/
def readingOf (fromStr : String → Option Json) (lines : List (List Char)) :
    Reading :=
  lines.foldl (processLine fromStr) .init

/-- The buffer of the read loop after these chunks. -/
def bufferOf (chunks : List (List UInt8)) : List Char :=
  (chunks.foldl takeLines ([], [])).1

theorem bufferOf_concat (chunks : List (List UInt8)) (chunk : List UInt8) :
    bufferOf (chunks ++ [chunk]) =
      restOf '\n' (bufferOf chunks ++ lossy chunk) := by
  rw [bufferOf, List.foldl_append]
  rfl

theorem processedLines_concat (chunks : List (List UInt8))
    (chunk : List UInt8) :
    processedLines (chunks ++ [chunk]) =
      processedLines chunks ++ linesOf '\n' (bufferOf chunks ++ lossy chunk) := by
  rw [processedLines, List.foldl_append]
  rfl

/-- Where the loop is in its response: `handled` are the lines behind it. -/
structure Reads (serde : SerdeJson) (fromStr : String → Option Json)
    (job : GenerationJob) (handled : List (List Char))
    (c : Emission ReadLoop TokenChunk AttemptResult) : Prop where
  request : c.state.request = readRuntimeRequest serde job.requestJson
  idle : c.state.request = none → c.told = []
  lines : processedLines c.state.received =
    handled ++ linesOf '\n' c.state.buffer
  rest : bufferOf c.state.received = restOf '\n' c.state.buffer
  drained : c.state.draining = false → '\n' ∉ c.state.buffer
  told : (readingOf fromStr handled).published = c.told
  sound : (∀ message, c.result ≠ some (.error message)) →
    readingOf fromStr handled = ⟨c.state.usage, c.told, none⟩
  returned : ∀ {usage}, c.result = some (.ok usage) →
    '\n' ∉ c.state.buffer ∧ ∃ request, c.state.request = some request ∧
      usage = ReadLoop.finalUsage request c.state.usage

theorem readingOf_concat (fromStr : String → Option Json)
    (lines : List (List Char)) (line : List Char) :
    readingOf fromStr (lines ++ [line]) =
      processLine fromStr (readingOf fromStr lines) line := by
  rw [readingOf, List.foldl_append]
  rfl

theorem reads_start (serde : SerdeJson) (fromStr : String → Option Json)
    (job : GenerationJob) :
    Reads serde fromStr job []
      (.start ((streamingBackend serde fromStr).start job)) where
  request := rfl
  idle _ := rfl
  lines := rfl
  rest := rfl
  drained _ := List.not_mem_nil
  told := rfl
  sound _ := rfl
  returned h := by cases h

theorem reads_step {serde : SerdeJson} {fromStr : String → Option Json}
    {job : GenerationJob} {handled : List (List Char)}
    {c c' : Emission ReadLoop TokenChunk AttemptResult} {input : ReadInput}
    (hI : Reads serde fromStr job handled c)
    (h : c.step (ReadLoop.next fromStr) input = some c') :
    ∃ handled', Reads serde fromStr job handled' c' := by
  obtain ⟨hresult, loop, output, hnext, rfl⟩ := Emission.step_spec h
  have hsound := hI.sound fun message hr => by rw [hresult] at hr; cases hr
  unfold ReadLoop.next at hnext
  split at hnext
  · cases hnext
  · next request hrequest =>
      have hbusy : c.state.request ≠ none := by
        rw [hrequest]
        nofun
      split at hnext
      · next hdraining =>
          split at hnext
          · next hcut =>
              -- The buffer has no further line.
              cases hnext
              exact ⟨handled, hI.request, hI.idle, hI.lines, hI.rest,
                fun _ => notMem_of_splitOnce hcut, hI.told, hI.sound,
                hI.returned⟩
          · next line rest hcut =>
              obtain ⟨hlines, hrest⟩ := splitLines_of_splitOnce hcut
              simp only [Option.some.injEq] at hnext
              obtain ⟨hloop, hout⟩ := handleLine_spec hnext c.told
              generalize loop.usage = usage at hloop hout
              subst hloop
              have hhandled : processedLines c.state.received =
                  (handled ++ [line]) ++ linesOf '\n' rest := by
                rw [hI.lines, hlines, List.append_assoc]
                rfl
              have hreading : readingOf fromStr (handled ++ [line]) =
                  processLine fromStr ⟨c.state.usage, c.told, none⟩ line := by
                rw [readingOf_concat, hsound]
              have hmore : c.state.draining = false → '\n' ∉ rest := by
                rw [hdraining]
                nofun
              rcases hout with ⟨rfl, hline⟩ | ⟨chunk, rfl, hline⟩ |
                ⟨message, rfl, hline⟩
              · refine ⟨handled ++ [line], hI.request, hI.idle, hhandled,
                  hI.rest.trans hrest, hmore, ?_, fun _ => ?_, fun hok => ?_⟩
                · rw [hreading, hline]
                  rfl
                · exact hreading.trans hline
                · rw [show c.result = some _ from hok] at hresult
                  cases hresult
              · refine ⟨handled ++ [line], hI.request,
                  fun hnone => absurd hnone hbusy, hhandled, hI.rest.trans hrest,
                  hmore, ?_, fun _ => ?_, fun hok => ?_⟩
                · rw [hreading, hline]
                  rfl
                · exact hreading.trans hline
                · rw [show c.result = some _ from hok] at hresult
                  cases hresult
              · refine ⟨handled ++ [line], hI.request, hI.idle, hhandled,
                  hI.rest.trans hrest, hmore, ?_, fun hgood => ?_, fun hok => ?_⟩
                · rw [hreading]
                  exact hline
                · exact absurd rfl (hgood message)
                · cases hok
      · next bytes hdraining =>
          cases hnext
          -- All lines have been handled, so the buffer is what is left of them.
          have hdry := hI.drained hdraining
          have hbuffer : bufferOf c.state.received = c.state.buffer :=
            hI.rest.trans (restOf_of_notMem '\n' hdry)
          have hlines : processedLines c.state.received = handled := by
            rw [hI.lines, (linesOf_eq_nil '\n').mpr hdry, List.append_nil]
          refine ⟨handled, hI.request, hI.idle, ?_, ?_, nofun, hI.told, hI.sound,
            fun hok => ?_⟩
          · show processedLines (c.state.received ++ [bytes]) = _
            rw [processedLines_concat, hlines, hbuffer]
            rfl
          · show bufferOf (c.state.received ++ [bytes]) = _
            rw [bufferOf_concat, hbuffer]
            rfl
          · rw [show c.result = some _ from hok] at hresult
            cases hresult
      · next hdraining =>
          cases hnext
          refine ⟨handled, hI.request, hI.idle, hI.lines, hI.rest, hI.drained,
            hI.told, fun _ => hsound, fun hok => ?_⟩
          cases hok
          exact ⟨hI.drained hdraining, request, hrequest, rfl⟩
      · next message hdraining =>
          cases hnext
          refine ⟨handled, hI.request, hI.idle, hI.lines, hI.rest, hI.drained,
            hI.told, fun _ => hsound, fun hok => ?_⟩
          cases hok
      · cases hnext

theorem reads_run {serde : SerdeJson} {fromStr : String → Option Json}
    {job : GenerationJob} {c : Emission ReadLoop TokenChunk AttemptResult}
    (h : Run (Emission.step (streamingBackend serde fromStr).next)
      (fun _ _ => True) (.start ((streamingBackend serde fromStr).start job))
      c) : ∃ handled, Reads serde fromStr job handled c :=
  h.invariant (I := fun c => ∃ handled, Reads serde fromStr job handled c)
    ⟨[], reads_start serde fromStr job⟩
    fun ⟨_, hI⟩ _ hstep => reads_step hI hstep

/-! ## The whole response -/

theorem stream_published (fromStr : String → Option Json)
    (request : EngineRuntimeRequest) (chunks : List (List UInt8)) :
    (streamOpenaiCompatible fromStr request chunks).1 =
      (readingOf fromStr (processedLines chunks)).published := by
  unfold streamOpenaiCompatible
  rw [readChunks_eq]
  rfl

/-- What has been put out is the beginning of what there is to be put out. -/
theorem Reads.beginning {serde : SerdeJson} {fromStr : String → Option Json}
    {job : GenerationJob} {handled : List (List Char)}
    {c : Emission ReadLoop TokenChunk AttemptResult}
    (h : Reads serde fromStr job handled c) (request : EngineRuntimeRequest) :
    c.told <+:
      (streamOpenaiCompatible fromStr request c.state.received).1 := by
  rw [stream_published, h.lines, readingOf, List.foldl_append, ← h.told]
  exact published_foldl fromStr _ _

/-- A loop that has returned has put out all of it. -/
theorem Reads.whole {serde : SerdeJson} {fromStr : String → Option Json}
    {job : GenerationJob} {handled : List (List Char)}
    {c : Emission ReadLoop TokenChunk AttemptResult} {usage : GenerationUsage}
    (h : Reads serde fromStr job handled c)
    (hresult : c.result = some (.ok usage)) :
    ∃ request, readRuntimeRequest serde job.requestJson = some request ∧
      streamOpenaiCompatible fromStr request c.state.received =
        (c.told, .ok usage) := by
  obtain ⟨hdry, request, hrequest, rfl⟩ := h.returned hresult
  have hreading := h.sound fun message hr => by rw [hresult] at hr; cases hr
  have hlines : processedLines c.state.received = handled := by
    rw [h.lines, (linesOf_eq_nil '\n').mpr hdry, List.append_nil]
  refine ⟨request, h.request.symm.trans hrequest, ?_⟩
  unfold streamOpenaiCompatible
  rw [readChunks_eq, hlines]
  rw [show handled.foldl (processLine fromStr) .init = _ from hreading]
  dsimp only [ReadLoop.finalUsage]
  split
  · rfl
  · rfl

/-- Cuts between characters are not to be seen. -/
theorem stream_flatten {chunks : List (List UInt8)}
    (h : CharactersWhole chunks) (fromStr : String → Option Json)
    (request : EngineRuntimeRequest) :
    streamOpenaiCompatible fromStr request [chunks.flatten] =
      streamOpenaiCompatible fromStr request chunks := by
  have hlines : processedLines [chunks.flatten] = processedLines chunks := by
    rw [processedLines_eq, processedLines_eq, List.flatMap_singleton,
      linesOf_chunks h]
  unfold streamOpenaiCompatible
  rw [readChunks_eq, readChunks_eq, hlines]

/-- With a runtime behind every engine, whatever crashes, fails, is redelivered
or runs beside it: the tokens of an attempt are the beginning of what the
response to it comes to, as far as it has arrived; and a `Completed` stands
beside all of it, with the usage that is returned for it, which is what the
body comes to in one piece if it was cut between characters. -/
theorem responses_reach_the_log (cfg : StreamingConfig)
    (fromStr : String → Option Json) (now : Nat)
    (engines : List (String × String)) (t : StreamingSys ReadLoop)
    (hrun : Run (StreamingSys.step cfg.toSys
        (streamingBackend cfg.serde fromStr))
      (fun _ _ => True) (.init now engines) t) (r : String) (call : Call)
    (hcall : t.sys.calls r = some call) :
    (∀ text, tokensBy text (history t.sys.broker r) = [] ∨
      ∃ a x request, a.text = text ∧ t.exchanges a = some x ∧
        x.job = call.job ∧
        readRuntimeRequest cfg.serde call.job.requestJson = some request ∧
        tokensBy text (history t.sys.broker r) <+:
          (streamOpenaiCompatible fromStr request
            x.emission.state.received).1) ∧
    ∀ y ∈ history t.sys.broker r, ∀ done,
      y.result.event = some (.completed done) →
      ∃ a x request usage, a.text = y.result.attemptId ∧
        t.exchanges a = some x ∧ x.job = call.job ∧
        readRuntimeRequest cfg.serde call.job.requestJson = some request ∧
        streamOpenaiCompatible fromStr request x.emission.state.received =
          (tokensBy y.result.attemptId (history t.sys.broker r), .ok usage) ∧
        done = ⟨(closeUsage usage).promptTokens,
          (closeUsage usage).generatedTokens,
          (closeUsage usage).finishReason⟩ ∧
        (CharactersWhole x.emission.state.received →
          streamOpenaiCompatible fromStr request
              [x.emission.state.received.flatten] =
            (tokensBy y.result.attemptId (history t.sys.broker r),
              .ok usage)) := by
  obtain ⟨-, hI⟩ := heard_run hrun
  have hjob : ∀ {a x}, t.exchanges a = some x → x.job.requestId = r →
      x.job = call.job := by
    rintro a x hx rfl
    obtain ⟨step, hknown, -⟩ := (hI.drawn hx).2
    rw [hcall] at hknown
    cases hknown
    rfl
  refine ⟨fun text => ?_, fun y hy done hdone => ?_⟩
  · rcases hI.said r text with hnil | ⟨a, x, htext, hx, hid, hbegin⟩
    · exact .inl hnil
    · obtain ⟨handled, hreads⟩ := reads_run (hI.reached hx)
      rw [hjob hx hid] at hreads
      cases hrequest : x.emission.state.request with
      | none =>
          rw [hreads.idle hrequest] at hbegin
          exact .inl (List.prefix_nil.mp hbegin)
      | some request =>
          exact .inr ⟨a, x, request, htext, hx, hjob hx hid,
            hreads.request.symm.trans hrequest,
            hbegin.trans (hreads.beginning request)⟩
  · obtain ⟨a, x, usage, htext, hx, hid, hresult, hall, rfl⟩ :=
      hI.completed hy hdone
    obtain ⟨handled, hreads⟩ := reads_run (hI.reached hx)
    rw [hjob hx hid] at hreads
    obtain ⟨request, hread, hstream⟩ := hreads.whole hresult
    rw [← hall] at hstream
    refine ⟨a, x, request, usage, htext, hx, hjob hx hid, hread, hstream, rfl,
      fun hwhole => ?_⟩
    rw [stream_flatten hwhole]
    exact hstream

/-- The sample response, cut in the middle of a line. -/
def responseCut : List UInt8 × List UInt8 := reportLast.flatten.splitAt 40

/-- The loop of engine `i` handles a line without a token, or finds none. -/
def skipped (i : Nat) : StreamingLabel ReadInput := .backend i .line

/-- It handles a line with a token, which is published. -/
def answered (i : Nat) : List (StreamingLabel ReadInput) :=
  [.backend i .line, .sys (.engine i .command), .sys (.engine i .command)]

/-- The first engine crashes between the two chunks; the second reclaims the
entry and gets the whole response. -/
def responseRun : List (StreamingLabel ReadInput) :=
  (echoDispatched ++ started 0 (sampleUuid 0) 1000).map .sys ++
    .backend 0 (.chunk responseCut.1) :: answered 0 ++
    (.engine 0 .crash :: .tick 90000 :: .engine 1 .poll ::
      .engine 1 (.reclaim (some 0)) :: started 1 (sampleUuid 1) 91000).map
        .sys ++
    .backend 1 (.chunk responseCut.1) :: answered 1 ++
    [skipped 1, skipped 1, .backend 1 (.chunk responseCut.2)] ++ answered 1 ++
    List.replicate 5 (skipped 1) ++ .backend 1 .close ::
    (.engine 1 .command :: concluded 1).map .sys

theorem responses_reach_the_log_cut :
    ∃ t call, Run (StreamingSys.step echoConfig.toSys
        (streamingBackend (sampleSerde 0x3f000000) sampleEvent))
        (fun _ _ => True) (.init 1000 [("e1", "m"), ("e2", "m")]) t ∧
      t.sys.calls "r" = some call ∧
      tokensBy (sampleUuid 0).text (history t.sys.broker "r") =
        [⟨"hi", 1⟩] ∧
      tokensBy (sampleUuid 1).text (history t.sys.broker "r") =
        [⟨"hi", 1⟩, ⟨"hi", 2⟩] ∧
      (∃ a x request, a.text = (sampleUuid 0).text ∧ t.exchanges a = some x ∧
        x.job = call.job ∧
        readRuntimeRequest (sampleSerde 0x3f000000) call.job.requestJson =
          some request ∧
        [⟨"hi", 1⟩] <+: (streamOpenaiCompatible sampleEvent request
          x.emission.state.received).1) ∧
      ∃ a x request usage, a.text = (sampleUuid 1).text ∧
        t.exchanges a = some x ∧ x.job = call.job ∧
        readRuntimeRequest (sampleSerde 0x3f000000) call.job.requestJson =
          some request ∧
        streamOpenaiCompatible sampleEvent request
            x.emission.state.received =
          ([⟨"hi", 1⟩, ⟨"hi", 2⟩], .ok usage) := by
  obtain ⟨t, hrun, hs⟩ := run_of_exec_map (StreamingSys.step echoConfig.toSys
      (streamingBackend (sampleSerde 0x3f000000) sampleEvent))
    (fun _ _ => True) (fun _ _ => true) (.init 1000 [("e1", "m"), ("e2", "m")])
    responseRun
    (fun t => ((t.sys.calls "r").isSome,
      tokensBy (sampleUuid 0).text (history t.sys.broker "r"),
      tokensBy (sampleUuid 1).text (history t.sys.broker "r"),
      (completions (history t.sys.broker "r")).map (·.1)))
    (b := (true, [⟨"hi", 1⟩], [⟨"hi", 1⟩, ⟨"hi", 2⟩], [(sampleUuid 1).text]))
    (fun _ _ _ => trivial) (by decide)
  simp only [Prod.mk.injEq] at hs
  obtain ⟨hsome, hfirst, hsecond, hdone⟩ := hs
  obtain ⟨call, hcall⟩ := Option.isSome_iff_exists.mp hsome
  obtain ⟨hsaid, hcompleted⟩ := responses_reach_the_log echoConfig sampleEvent
    1000 _ t hrun "r" call hcall
  refine ⟨t, call, hrun, hcall, hfirst, hsecond, ?_, ?_⟩
  · rcases hsaid (sampleUuid 0).text with
      hnil | ⟨a, x, request, htext, hx, hjob, hread, hbegin⟩
    · rw [hfirst] at hnil
      cases hnil
    · rw [hfirst] at hbegin
      exact ⟨a, x, request, htext, hx, hjob, hread, hbegin⟩
  · have hmem : (sampleUuid 1).text ∈
        (completions (history t.sys.broker "r")).map (·.1) := by
      rw [hdone]
      exact List.mem_singleton_self _
    obtain ⟨⟨attempt, done⟩, hpair, rfl⟩ := List.mem_map.mp hmem
    obtain ⟨y, hy, hattempt, hevent⟩ := exists_of_completions hpair
    obtain ⟨a, x, request, usage, htext, hx, hjob, hread, hstream, -⟩ :=
      hcompleted y hy done hevent
    rw [hattempt] at htext hstream
    exact ⟨a, x, request, usage, htext, hx, hjob, hread, hsecond ▸ hstream⟩

end DataPlane.Proofs
