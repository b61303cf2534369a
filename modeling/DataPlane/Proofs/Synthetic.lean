import DataPlane.Proofs.Payload
import DataPlane.Proofs.Exchanges
import DataPlane.Ref.Synthetic

/-!
# The synthetic backend echoes

What `stream_synthetic` has put out is what its loop has been through, so an
attempt has published a prefix of the one answer its job has. That answer is no
longer than the request allows, which is what it was admitted with.
-/

namespace DataPlane.Proofs

open DataPlane DataPlane.Lib DataPlane.Ref

/-- An emission of the loop stands behind the tokens it has put out, and
returns behind the last. -/
structure Echoes (serde : SerdeJson) (job : GenerationJob)
    (c : Emission SyntheticLoop TokenChunk AttemptResult) : Prop where
  request : c.state.request = readRuntimeRequest serde job.requestJson
  told : c.told = (jobTokens serde job).take c.state.index
  returned : ∀ {result}, c.result = some result → c.told = jobTokens serde job ∧
    ∃ request, readRuntimeRequest serde job.requestJson = some request ∧
      result = .ok (syntheticUsage request)

theorem jobTokens_of_read {serde : SerdeJson} {job : GenerationJob}
    {request : EngineRuntimeRequest}
    (h : readRuntimeRequest serde job.requestJson = some request) :
    jobTokens serde job = syntheticTokens request := by
  rw [jobTokens, h]

theorem echoes_step {serde : SerdeJson} {job : GenerationJob}
    {c c' : Emission SyntheticLoop TokenChunk AttemptResult} {input : Unit}
    (hI : Echoes serde job c)
    (h : c.step (streamSynthetic serde).next input = some c') :
    Echoes serde job c' := by
  obtain ⟨hresult, loop, output, hnext, rfl⟩ := Emission.step_spec h
  obtain ⟨hrequest, htold, _⟩ := hI
  simp only [streamSynthetic] at hnext
  split at hnext
  · cases hnext
  · next request hread =>
      rw [hread] at hrequest
      rw [jobTokens_of_read hrequest.symm] at htold
      split at hnext
      · next chunk hchunk =>
          cases hnext
          refine ⟨hread.trans hrequest, ?_, fun hr => ?_⟩
          · show c.told ++ [chunk] = List.take (c.state.index + 1) _
            rw [jobTokens_of_read hrequest.symm, List.take_add_one, hchunk,
              htold]
            rfl
          · rw [show c.result = some _ from hr] at hresult
            cases hresult
      · next hlast =>
          cases hnext
          refine ⟨hread.trans hrequest, ?_, fun hr => ?_⟩
          · rw [jobTokens_of_read hrequest.symm]
            exact htold
          · cases hr
            rw [jobTokens_of_read hrequest.symm]
            refine ⟨?_, request, hrequest.symm, rfl⟩
            exact htold.trans
              (List.take_of_length_le (List.getElem?_eq_none_iff.mp hlast))

theorem echoes_run {serde : SerdeJson} {job : GenerationJob}
    {c : Emission SyntheticLoop TokenChunk AttemptResult}
    (h : Run (Emission.step (streamSynthetic serde).next) (fun _ _ => True)
      (.start ((streamSynthetic serde).start job)) c) : Echoes serde job c :=
  h.invariant ⟨rfl, rfl, nofun⟩ fun hI _ hstep => echoes_step hI hstep

/-! ## As many as are allowed -/

theorem length_syntheticTokens (request : EngineRuntimeRequest) :
    (syntheticTokens request).length ≤ request.maxTokens.toNat := by
  rw [syntheticTokens, List.length_mapIdx, syntheticWords]
  exact List.length_take_le _ _

/-- A job that an admission made is answered within its budget. -/
theorem length_jobTokens_admitted {serde : SerdeJson}
    {sha256 : String → String} {state : AppState} {request : GenerateRequest}
    {p : Preflight} {draws : Draws}
    (hserde : serde.fromSlice (serde.toVec (runtimeRequest request p).toJson) =
      some (runtimeRequest request p).toJson.written) :
    (jobTokens serde
      (generationJob serde sha256 state request p draws)).length ≤
        p.budget.admittedMaxTokens.toNat := by
  have hread : readRuntimeRequest serde
      (generationJob serde sha256 state request p draws).requestJson = _ :=
    readRuntimeRequest_job hserde
  by_cases hfinite : isFinite request.temperature = true
  · rw [if_pos hfinite] at hread
    rw [jobTokens_of_read hread]
    exact length_syntheticTokens _
  · rw [if_neg hfinite] at hread
    rw [jobTokens, hread]
    exact Nat.zero_le _

/-- With the synthetic backend, whatever crashes, fails, is redelivered or runs
beside it: the tokens of an attempt are a prefix of the one answer its job
has; those of a completed attempt are the whole of it, with its counts in the
`Completed`; and the answer to a job an admission made is no longer than the
budget it was admitted with. -/
theorem synthetic_attempts_echo (cfg : StreamingConfig) (now : Nat)
    (engines : List (String × String)) (t : StreamingSys SyntheticLoop)
    (hrun : Run (StreamingSys.step cfg.toSys (streamSynthetic cfg.serde))
      (fun _ _ => True) (.init now engines) t) (r : String) (call : Call)
    (hcall : t.sys.calls r = some call) :
    (∀ text, tokensBy text (history t.sys.broker r) <+:
      jobTokens cfg.serde call.job) ∧
    (∀ x ∈ history t.sys.broker r, ∀ done,
      x.result.event = some (.completed done) →
      tokensBy x.result.attemptId (history t.sys.broker r) =
        jobTokens cfg.serde call.job ∧
      ∃ request,
        readRuntimeRequest cfg.serde call.job.requestJson = some request ∧
        done = ⟨estimateTokens (extractPrompt request),
          (jobTokens cfg.serde call.job).length, "stop"⟩) ∧
    ∀ sha256 state request p draws,
      call.job = generationJob cfg.serde sha256 state request p draws →
      cfg.serde.fromSlice
          (cfg.serde.toVec (runtimeRequest request p).toJson) =
        some (runtimeRequest request p).toJson.written →
      (jobTokens cfg.serde call.job).length ≤
        p.budget.admittedMaxTokens.toNat := by
  obtain ⟨-, hI⟩ := heard_run hrun
  have hjob : ∀ {a x}, t.exchanges a = some x → x.job.requestId = r →
      x.job = call.job := by
    rintro a x hx rfl
    obtain ⟨step, hknown, -⟩ := (hI.drawn hx).2
    rw [hcall] at hknown
    cases hknown
    rfl
  refine ⟨fun text => ?_, fun y hy done hdone => ?_, ?_⟩
  · rcases hI.said r text with hnil | ⟨a, x, -, hx, hid, hbegin⟩
    · rw [hnil]
      exact List.nil_prefix
    · have hechoes := echoes_run (hI.reached hx)
      rw [hjob hx hid] at hechoes
      rw [hechoes.told] at hbegin
      exact hbegin.trans (List.take_prefix _ _)
  · obtain ⟨a, x, usage, -, hx, hid, hresult, hall, rfl⟩ :=
      hI.completed hy hdone
    have hechoes := echoes_run (hI.reached hx)
    rw [hjob hx hid] at hechoes
    obtain ⟨htold, request, hread, heq⟩ := hechoes.returned hresult
    cases heq
    refine ⟨hall.trans htold, request, hread, ?_⟩
    rw [jobTokens_of_read hread, syntheticTokens, List.length_mapIdx]
    rfl
  · intro sha256 state request p draws hmade hserde
    rw [hmade]
    exact length_jobTokens_admitted hserde

/-- The job of the sample request. -/
def echoJob : GenerationJob :=
  match preflight sampleState sampleAuthorization (sampleRequest 0x3f000000) with
  | .ok p =>
      generationJob (sampleSerde 0x3f000000) id sampleState
        (sampleRequest 0x3f000000) p sampleDraws
  | .error _ => sampleJob

def echoConfig : StreamingConfig where
  streams := .default
  reclaimIdleMs := 90000
  serde := sampleSerde 0x3f000000
  parseMessage := fun _ => "unreadable"
  sha256 := id
  limits := ⟨10, 1000, 1000⟩

/-- The sample job is put into the stream, and an engine takes it. -/
def echoDispatched : List Label :=
  [.reserve echoJob "key" 0 10 100, .dispatch "r", .queue "r",
    .engine 0 .poll]

/-- The backend of engine `i` puts out a token, which is published. -/
def echoed (i : Nat) : List (StreamingLabel Unit) :=
  [.backend i (), .sys (.engine i .command), .sys (.engine i .command)]

/-- The attempts that were completed, with what was said of them. -/
def completions (entries : List ResultEntry) :
    List (String × GenerationCompleted) :=
  entries.filterMap fun y =>
    match y.result.event with
    | some (.completed done) => some (y.result.attemptId, done)
    | _ => none

theorem exists_of_completions {entries : List ResultEntry} {a : String}
    {done : GenerationCompleted} (h : (a, done) ∈ completions entries) :
    ∃ y ∈ entries, y.result.attemptId = a ∧
      y.result.event = some (.completed done) := by
  obtain ⟨y, hy, hevent⟩ := List.mem_filterMap.mp h
  split at hevent
  · next done' heq =>
      cases hevent
      exact ⟨y, hy, rfl, heq⟩
  · cases hevent

/-- The first engine publishes two tokens, appends the third and crashes. The
second reclaims the entry and goes through the whole answer. -/
def echoRun : List (StreamingLabel Unit) :=
  (echoDispatched ++ started 0 (sampleUuid 0) 1000).map .sys ++
    echoed 0 ++ echoed 0 ++ [.backend 0 (), .sys (.engine 0 .command)] ++
    (.engine 0 .crash :: .tick 90000 :: .engine 1 .poll ::
      .engine 1 (.reclaim (some 0)) :: started 1 (sampleUuid 1) 91000).map
        .sys ++
    echoed 1 ++ echoed 1 ++ echoed 1 ++ echoed 1 ++
    (.backend 1 () :: (.engine 1 .command :: concluded 1).map .sys)

theorem synthetic_attempts_echo_reclaimed :
    ∃ t call, Run (StreamingSys.step echoConfig.toSys
        (streamSynthetic (sampleSerde 0x3f000000))) (fun _ _ => True)
        (.init 1000 [("e1", "m"), ("e2", "m")]) t ∧
      t.sys.calls "r" = some call ∧
      (tokensBy (sampleUuid 0).text (history t.sys.broker "r")).length = 3 ∧
      (tokensBy (sampleUuid 1).text (history t.sys.broker "r")).length = 4 ∧
      tokensBy (sampleUuid 0).text (history t.sys.broker "r") <+:
        jobTokens (sampleSerde 0x3f000000) call.job ∧
      tokensBy (sampleUuid 1).text (history t.sys.broker "r") =
        jobTokens (sampleSerde 0x3f000000) call.job := by
  obtain ⟨t, hrun, hs⟩ := run_of_exec_map (StreamingSys.step echoConfig.toSys
      (streamSynthetic (sampleSerde 0x3f000000)))
    (fun _ _ => True) (fun _ _ => true) (.init 1000 [("e1", "m"), ("e2", "m")])
    echoRun
    (fun t => ((t.sys.calls "r").isSome,
      (tokensBy (sampleUuid 0).text (history t.sys.broker "r")).length,
      (tokensBy (sampleUuid 1).text (history t.sys.broker "r")).length,
      completions (history t.sys.broker "r")))
    (b := (true, 3, 4, [((sampleUuid 1).text, ⟨1, 4, "stop"⟩)]))
    (fun _ _ _ => trivial) (by decide)
  simp only [Prod.mk.injEq] at hs
  obtain ⟨hsome, hfirst, hsecond, hdone⟩ := hs
  obtain ⟨call, hcall⟩ := Option.isSome_iff_exists.mp hsome
  obtain ⟨hbegin, hwhole, -⟩ :=
    synthetic_attempts_echo echoConfig 1000 _ t hrun "r" call hcall
  obtain ⟨y, hy, hattempt, hevent⟩ := exists_of_completions
    (a := (sampleUuid 1).text) (by rw [hdone]; exact List.mem_singleton_self _)
  obtain ⟨hall, -⟩ := hwhole y hy _ hevent
  rw [hattempt] at hall
  exact ⟨t, call, hrun, hcall, hfirst, hsecond, hbegin _, hall⟩

end DataPlane.Proofs
