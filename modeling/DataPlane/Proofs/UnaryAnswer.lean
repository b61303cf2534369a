import DataPlane.Proofs.Reconnects

/-!
# One answer and many events

`Generate` and `StreamGenerate` run over subscriptions of their own, each with
its own connections to break. Both see a beginning of the same log, and both
stop at its first terminal entry; so what the one answers is what the other has
sent, from some event on. `collect_generation` drops a text when another
attempt starts and the stream does not, which is why not all the deltas have to
be in the answer; with a single attempt they are. The prompt is counted twice:
an answer repeats what its admission has counted, and the last event of a stream
carries what the engine has.
-/

namespace DataPlane.Proofs

open DataPlane DataPlane.Ref DataPlane.Lib

variable {codec : Codec} {model requestId : String} {f : Feed} {r : Reader}
  {pre : List ReceivedEntry} {entry : ReceivedEntry}
  {results : List NextResult} {text : String} {done : GenerationCompleted}

/-- What the entries tell a client. -/
def toldOf (model requestId : String) (entries : List ReceivedEntry) :
    List GenerationEvent :=
  entries.filterMap (entryEvent model requestId)

theorem toldOf_concat (entries : List ReceivedEntry) (x : ReceivedEntry) :
    toldOf model requestId (entries ++ [x]) =
      toldOf model requestId entries ++
        (entryEvent model requestId x).toList := by
  rw [toldOf, List.filterMap_append]
  cases hx : entryEvent model requestId x with
  | none => simp [toldOf, hx]
  | some event => simp [toldOf, hx]

/-- The deltas behind the last dropped text. -/
theorem push_text_drop (hpre : ∀ x ∈ pre, isEnd x = false) :
    ∃ n ≤ (toldOf model requestId pre).length,
      (pre.foldl (push tokenText) ⟨"", ""⟩).text =
        String.join (((toldOf model requestId pre).drop n).map (·.delta)) := by
  induction pre using List.reverseRecOn with
  | nil => exact ⟨0, Nat.le_refl 0, rfl⟩
  | append_singleton pre x ih =>
      obtain ⟨n, hn, htext⟩ := ih fun y hy => hpre y (List.mem_append_left _ hy)
      have hx := hpre x (List.mem_append_right pre List.mem_cons_self)
      rw [List.foldl_append, List.foldl_cons, List.foldl_nil, toldOf_concat]
      generalize pre.foldl (push tokenText) ⟨"", ""⟩ = c at htext ⊢
      obtain ⟨eventId, version, request, attempt, event⟩ := x
      match event with
      | none => exact ⟨n, by simpa [entryEvent] using hn, by
          simpa [push, entryEvent] using htext⟩
      | some .attemptStarted =>
          by_cases hclear : c.currentAttempt ≠ "" ∧ c.currentAttempt ≠ attempt
          · refine ⟨(toldOf model requestId pre).length, by simp, ?_⟩
            simp [push, Collected.startAttempt, entryEvent, hclear]
          · refine ⟨n, by simpa [entryEvent] using hn, ?_⟩
            simpa [push, Collected.startAttempt, entryEvent, hclear]
              using htext
      | some (.token token) =>
          refine ⟨n, Nat.le_trans hn (by simp), ?_⟩
          rw [List.drop_append_of_le_length hn]
          simp [push, Collected.pushStr, entryEvent, tokenText, htext]
      | some (.completed _) => cases hx
      | some (.failed _) => cases hx

/-- With a single attempt nothing is dropped. -/
theorem push_text_one {a : String} (hpre : ∀ x ∈ pre, isEnd x = false)
    (hone : ∀ x ∈ pre, x.result.attemptId = a) :
    (pre.foldl (push tokenText) ⟨"", ""⟩).text =
        String.join ((toldOf model requestId pre).map (·.delta)) ∧
      ((pre.foldl (push tokenText) ⟨"", ""⟩).currentAttempt = "" ∨
        (pre.foldl (push tokenText) ⟨"", ""⟩).currentAttempt = a) := by
  induction pre using List.reverseRecOn with
  | nil => exact ⟨rfl, .inl rfl⟩
  | append_singleton pre x ih =>
      obtain ⟨htext, hcurrent⟩ :=
        ih (fun y hy => hpre y (List.mem_append_left _ hy))
          fun y hy => hone y (List.mem_append_left _ hy)
      have hx := hpre x (List.mem_append_right pre List.mem_cons_self)
      have ha := hone x (List.mem_append_right pre List.mem_cons_self)
      rw [List.foldl_append, List.foldl_cons, List.foldl_nil, toldOf_concat]
      generalize pre.foldl (push tokenText) ⟨"", ""⟩ = c at htext hcurrent ⊢
      obtain ⟨eventId, version, request, attempt, event⟩ := x
      match event with
      | none => simpa [push, entryEvent] using ⟨htext, hcurrent⟩
      | some .attemptStarted =>
          have hkeep : ¬ (c.currentAttempt ≠ "" ∧ c.currentAttempt ≠ attempt) := by
            rintro ⟨hne, hother⟩
            rcases hcurrent with hempty | hsame
            · exact hne hempty
            · exact hother (hsame.trans ha.symm)
          refine ⟨?_, .inr ha⟩
          simpa [push, Collected.startAttempt, entryEvent, hkeep] using htext
      | some (.token token) =>
          refine ⟨?_, hcurrent⟩
          simp [push, Collected.pushStr, entryEvent, tokenText, htext]
      | some (.completed _) => cases hx
      | some (.failed _) => cases hx

theorem map_retextResult_tokenText (results : List NextResult) :
    results.map (retextResult tokenText) = results := by
  have hid : ∀ outcome : NextResult, retextResult tokenText outcome = outcome := by
    intro outcome
    match outcome with
    | .error _ => rfl
    | .ok none => rfl
    | .ok (some entry) => rw [retextResult, retext_tokenText]
  rw [List.map_congr_left fun outcome _ => hid outcome]
  exact List.map_id' results

/-- The text of an answer is what the entries before its end came to. -/
theorem CompletesAt.answer (h : CompletesAt results pre entry done)
    (hloop : collectLoop ⟨"", ""⟩ results = some (.ok (text, done))) :
    text = (pre.foldl (push tokenText) ⟨"", ""⟩).text := by
  have hfold := @collectLoop_retext tokenText ⟨"", ""⟩ results pre entry done h
  rw [map_retextResult_tokenText, hloop] at hfold
  simp only [Option.some.injEq, Except.ok.injEq, Prod.mk.injEq, and_true]
    at hfold
  exact hfold

theorem CompletesAt.entriesRead (h : CompletesAt results pre entry done) :
    pre ++ [entry] <+: entriesRead results := by
  obtain ⟨rest, rfl⟩ := h.results_eq
  clear h
  induction pre with
  | nil => exact List.cons_prefix_cons.mpr ⟨rfl, List.nil_prefix⟩
  | cons x pre ih => exact List.cons_prefix_cons.mpr ⟨rfl, ih⟩

/-- A completed answer is about all that the log tells. -/
theorem CompletesAt.told (hok : FeedOk codec f) (hr : r ∈ f.readers)
    (h : CompletesAt (r.calls.map (·.result)) pre entry done) :
    ∃ last, entryEvent model requestId entry = some last ∧
      toldFrom codec model requestId f.log r.start =
        toldOf model requestId pre ++ [last] := by
  have hend : isEnd entry = true := by
    simp [isEnd, GenerationResult.terminal, h.event_eq, Event.terminal]
  obtain ⟨last, hlast⟩ := @entryEvent_of_end model requestId entry hend
  obtain ⟨more, hmore⟩ := h.entriesRead.trans
    (@entriesRead_legible codec f ⟨r, [], none⟩ hok hr)
  refine ⟨last, hlast, ?_⟩
  rw [toldFrom, ← hmore, List.append_assoc, @through_append _ isEnd _ _ h.running,
    List.singleton_append, through_cons_end hend, ← toldOf, toldOf_concat,
    hlast]
  rfl

/-- In every run: when `collect_generation` has answered from one subscription,
and a client of the stream, however often it was cut off, has received the end,
then the end it received carries the request, the model, the count of generated
tokens and the finish reason of the answer, and the text of the answer is the
deltas it received from some event on; from the first on, if the log is one
attempt's. The answer's count of prompt tokens is the admission's. -/
theorem answer_is_streamed (codec : Codec) (hids : ReadsIds codec)
    (encode : GenerationEvent → List UInt8)
    (decode : List UInt8 → Except String GenerationEvent)
    (state : AppState) (admission : Admission) (f : Feed)
    (hrun : Run (Feed.step codec) (fun _ _ => True) .init f)
    (r : Reader) (hr : r ∈ f.readers) (hstart : r.start = cursorOf none)
    (streams : Streams) (sub : ResultSubscription)
    (hsub : streams.subscribe admission.requestId none = .ok (some sub))
    (hresults : streams.results admission.requestId sub =
      r.calls.map (·.result))
    (reply : GenerateReply)
    (hreply : collectGeneration state streams admission = some (.ok reply))
    (sessions : List Session)
    (hback : ComesBack encode decode state.model.id admission.requestId f none
      sessions)
    (hsend : ∀ s ∈ sessions,
      ∀ frame ∈ sentFrames state.model.id admission.requestId s.results,
        Sendable encode decode frame)
    (hend : ∃ e ∈ receivedBy decode sessions, e.terminal = true) :
    ∃ deltas last, receivedBy decode sessions = deltas ++ [last] ∧
      last.terminal = true ∧ last.requestId = reply.body.requestId ∧
      last.model = reply.body.model ∧
      last.generatedTokens = reply.body.generatedTokens ∧
      last.finishReason = reply.body.finishReason ∧
      (∃ n ≤ deltas.length,
        reply.body.text = String.join ((deltas.drop n).map (·.delta))) ∧
      ((∀ x ∈ r.returned, x.result.attemptId = last.attemptId) →
        reply.body.text = String.join (deltas.map (·.delta))) ∧
      reply.body.promptTokens = admission.promptTokens := by
  have hok : FeedOk codec f :=
    hrun.invariant (feedOk_init codec) fun h _ hstep => h.step hids hstep
  obtain ⟨done, hloop, hbody⟩ := collectGeneration_ok hsub hreply
  rw [hresults] at hloop
  obtain ⟨pre, entry, hcompletes⟩ := collectLoop_ok hloop
  have htext := hcompletes.answer hloop
  obtain ⟨last, hlast, htold⟩ := @CompletesAt.told codec state.model.id
    admission.requestId f r pre entry done hok hr hcompletes
  have hreceived : receivedBy decode sessions =
      toldOf state.model.id admission.requestId pre ++ [last] := by
    obtain ⟨e, he, hterminal⟩ := hend
    rw [← htold, hstart]
    exact eq_of_kept_end (receivedBy_told hids hok hback hsend) he fun x hx =>
      (entryEvent_of hx).2.symm.trans hterminal
  have hfields : last.terminal = true ∧
      last.requestId = admission.requestId ∧ last.model = state.model.id ∧
      last.generatedTokens = done.generatedTokens ∧
      last.finishReason = done.finishReason ∧
      last.attemptId = entry.result.attemptId := by
    rw [entryEvent, hcompletes.event_eq] at hlast
    cases hlast
    exact ⟨rfl, rfl, rfl, rfl, rfl, rfl⟩
  obtain ⟨hterminal, hrequest, hmodel, hgenerated, hfinish, hattempt⟩ := hfields
  refine ⟨toldOf state.model.id admission.requestId pre, last, hreceived,
    hterminal, ?_, ?_, ?_, ?_, ?_, ?_, ?_⟩
  · rw [hrequest, hbody]
  · rw [hmodel, hbody]
  · rw [hgenerated, hbody]
  · rw [hfinish, hbody]
  · rw [htext]
    exact push_text_drop hcompletes.running
  · intro hone
    rw [htext]
    refine (push_text_one hcompletes.running fun x hx => hone x ?_).1
    have hread := (entriesRead_isPrefix (r.calls.map (·.result))).subset
      (hcompletes.entriesRead.subset (List.mem_append_left [entry] hx))
    rw [returned_results] at hread
    exact hread
  · rw [hbody]

/-- The client that was cut off, and an answer collected beside it over a third
subscription. -/
theorem answer_is_streamed_once :
    ∃ f r₁ r₂ r streams reply,
      Run (Feed.step sampleCodec) (fun _ _ => True) .init f ∧
      f.readers = [r₁, r₂, r] ∧
      collectGeneration sampleState streams sampleAdmission =
        some (.ok reply) ∧
      reply.body = ⟨"r", "m", "hi", 1, 1, "stop"⟩ ∧
      ∃ deltas last,
        receivedBy decodeSample (cutSessions r₁ r₂) = deltas ++ [last] ∧
        last.generatedTokens = 1 ∧ last.finishReason = "stop" ∧
        "hi" = String.join (deltas.map (·.delta)) := by
  obtain ⟨f, hrun, hobs⟩ := run_of_exec_map (Feed.step sampleCodec)
    (fun _ _ => True) (fun _ _ => true) .init
    (cutFeed ++ [.subscribe "r" none true, .next 2, .serve 2, .handle 2,
      .next 2, .serve 2, .handle 2, .next 2, .serve 2, .handle 2])
    (fun f => f.readers.map fun r => (r.start, r.calls.map (·.result)))
    (b := cutReads ++ [("0-0", cutReads.flatMap (·.2))])
    (fun _ _ _ => trivial) (by decide)
  obtain ⟨r₁, rest, hreaders, hr₁, hrest⟩ := List.map_eq_cons_iff.mp hobs
  obtain ⟨r₂, rest, rfl, hr₂, hrest⟩ := List.map_eq_cons_iff.mp hrest
  obtain ⟨r, rest, rfl, hr, hnil⟩ := List.map_eq_cons_iff.mp hrest
  rw [List.map_eq_nil_iff] at hnil
  subst hnil
  have h₁ := List.mem_singleton.mpr hr₁
  have h₂ := List.mem_singleton.mpr hr₂
  obtain ⟨hstart, hresults⟩ := Prod.mk.inj hr
  let streams : Streams :=
    { status := fun _ => .ok none
      subscribe := fun requestId after => .ok (subscribe 1 requestId after)
      results := fun _ _ => r.calls.map (·.result) }
  have hloop : collectLoop ⟨"", ""⟩ (r.calls.map (·.result)) =
      some (.ok ("hi", ⟨1, 1, "stop"⟩)) := by
    rw [hresults]
    decide
  obtain ⟨reply, hreply, hbody⟩ := @collectGeneration_of_loop sampleState streams
    sampleAdmission ⟨resultStream "r", "0-0"⟩ "hi" ⟨1, 1, "stop"⟩ rfl hloop
  obtain ⟨deltas, last, hreceived, -, -, -, hgenerated, hfinish, -, hone, -⟩ :=
    answer_is_streamed sampleCodec sampleCodec_readsIds encodeEvent decodeSample
      sampleState sampleAdmission f hrun r (by simp [hreaders]) hstart streams
      ⟨resultStream "r", "0-0"⟩ rfl rfl reply hreply (cutSessions r₁ r₂)
      (cutSessions_comeBack h₁ h₂ (by simp [hreaders]) (by simp [hreaders]))
      (cutSessions_sendable h₁ h₂) (by rw [cutSessions_received]; decide)
  rw [hbody] at hgenerated hfinish hone
  refine ⟨f, r₁, r₂, r, streams, reply, hrun, hreaders, hreply, hbody, deltas,
    last, hreceived, hgenerated, hfinish, hone ?_⟩
  have hlast : last.attemptId = "a" := by
    have hlist := congrArg (List.map (·.attemptId)) hreceived
    rw [cutSessions_received, List.map_append, List.map_singleton] at hlist
    have := congrArg List.getLast? hlist
    rw [List.getLast?_concat] at this
    injection this with this
    exact this.symm
  rw [hlast, ← returned_results, hresults]
  decide

end DataPlane.Proofs
