import DataPlane.Proofs.Attempts
import DataPlane.Ref.Subscription

/-!
# Event ids across the life of a request

A result stream that has expired starts anew with the next event, and the
server then knows nothing of the ids it has given out. A client still holds one
of them as its cursor. It loses nothing by that: an id names the millisecond it
was given out in, a stream dies at a later one, and so the ids of a request
grow along everything ever appended for it, whichever stream it went to.

The one thing this needs is that a time to live is not zero.
-/

namespace DataPlane.Proofs

open DataPlane DataPlane.Lib DataPlane.Ref

/-! ## The ids `XADD` gives out -/

theorem StreamId.lt_def {i j : StreamId} :
    i < j ↔ i.ms < j.ms ∨ (i.ms = j.ms ∧ i.seq < j.seq) := by
  show toLex (i.ms, i.seq) < toLex (j.ms, j.seq) ↔ _
  rw [Prod.Lex.toLex_lt_toLex]

theorem StreamId.lt_of_ms_lt {i j : StreamId} (h : i.ms < j.ms) : i < j :=
  StreamId.lt_def.mpr (.inl h)

theorem StreamId.lt_next (now : Nat) (last : StreamId) :
    last < StreamId.next now last := by
  rw [StreamId.lt_def, StreamId.next]
  split
  · next h => exact .inl h
  · exact .inr ⟨rfl, Nat.lt_succ_self _⟩

theorem StreamId.le_next_ms (now : Nat) (last : StreamId) :
    now ≤ (StreamId.next now last).ms := by
  rw [StreamId.next]
  split
  · exact Nat.le_refl _
  · next h => exact Nat.le_of_not_lt h

theorem StreamId.next_ms_le {now : Nat} {last : StreamId} (h : last.ms ≤ now) :
    (StreamId.next now last).ms ≤ now := by
  rw [StreamId.next]
  split
  · exact Nat.le_refl _
  · exact h

/-! ## What is appended, and when -/

/-- The ids of a request's events grow, none is from the future, and none is as
late as the deadline of its stream. The streams set aside are over. -/
structure Dated (b : Broker) (r : String) : Prop where
  increasing : Increasing (·.eventId) (history b r)
  past : ∀ x ∈ history b r, x.eventId.ms ≤ b.now
  bounded : ∀ c ∈ b.incarnations r, ∀ d, c.deadline = some d →
    ∀ x ∈ c.value, x.eventId.ms < d
  expired : ∀ c ∈ b.archive r, ∃ d, c.deadline = some d ∧ d ≤ b.now

theorem dated_empty (now : Nat) (r : String) : Dated (.empty now) r where
  increasing := List.Pairwise.nil
  past := by intro x hx; cases hx
  bounded := by intro c hc; cases hc
  expired := by intro c hc; cases hc

/-- A step that leaves the result streams alone, time going on or not. -/
theorem Dated.of_same {b b' : Broker} {r : String} (h : Dated b r)
    (hres : b'.results = b.results) (harch : b'.archive = b.archive)
    (hnow : b.now ≤ b'.now) : Dated b' r := by
  have hinc : b'.incarnations r = b.incarnations r := by
    rw [Broker.incarnations, hres, harch, Broker.incarnations]
  have hhist : history b' r = history b r := by rw [history, hinc, history]
  refine ⟨hhist ▸ h.increasing, fun x hx => ?_, hinc ▸ h.bounded,
    fun c hc => ?_⟩
  · rw [hhist] at hx
    exact le_trans (h.past x hx) hnow
  · rw [harch] at hc
    obtain ⟨d, hd, hle⟩ := h.expired c hc
    exact ⟨d, hd, le_trans hle hnow⟩

/-- The events of streams that are over are older than the clock. -/
theorem Dated.archive_lt {b : Broker} {r : String} (h : Dated b r)
    {c : Timed (List ResultEntry)} (hc : c ∈ b.archive r) {x : ResultEntry}
    (hx : x ∈ c.value) : x.eventId.ms < b.now := by
  obtain ⟨d, hd, hle⟩ := h.expired c hc
  have := h.bounded c (List.mem_append_left _ hc) d hd x hx
  omega

/-- A dead cell has a deadline, and it has passed. -/
theorem deadline_le_of_dead {b : Broker} {r : String}
    {c : Timed (List ResultEntry)} (hc : b.results r = some c)
    (hdead : b.results.live b.now r = none) :
    ∃ d, c.deadline = some d ∧ d ≤ b.now := by
  rw [Keyspace.live, hc, Option.filter_eq_none_iff] at hdead
  have hnot := hdead c rfl
  unfold Timed.alive at hnot
  split at hnot
  · exact absurd rfl hnot
  · next d hd =>
      refine ⟨d, hd, ?_⟩
      simpa using hnot

/-- Every event that is not in the stream a reader sees is older than the
clock. -/
theorem Dated.lt_of_not_live {b : Broker} {r : String} (h : Dated b r)
    {x : ResultEntry} (hx : x ∈ history b r) (hlive : x ∉ b.resultLog r) :
    x.eventId.ms < b.now := by
  obtain ⟨c, hc, hxc⟩ := List.mem_flatMap.mp hx
  rcases List.mem_append.mp hc with harch | hcell
  · exact h.archive_lt harch hxc
  · rw [Option.mem_toList] at hcell
    cases hl : b.results.live b.now r with
    | some c' =>
        -- the live cell is the only cell, and the event would be in it
        have heq : c' = c := by
          have := (Keyspace.live_eq_some.mp hl).1
          rw [hcell] at this
          exact (Option.some.inj this).symm
        refine absurd ?_ hlive
        rw [Broker.resultLog, Keyspace.get, hl, heq]
        exact hxc
    | none =>
        obtain ⟨d, hd, hle⟩ := deadline_le_of_dead hcell hl
        have := h.bounded c hc d hd x hxc
        omega

/-- What readers see is the end of the history. -/
theorem resultLog_suffix (b : Broker) (r : String) :
    b.resultLog r <:+ history b r := by
  cases hl : b.results.live b.now r with
  | none => simp [Broker.resultLog, Keyspace.get, hl]
  | some c =>
      have hc := (Keyspace.live_eq_some.mp hl).1
      refine ⟨(b.archive r).flatMap (·.value), ?_⟩
      simp [history, Broker.incarnations, hc, Broker.resultLog, Keyspace.get, hl]

/-- The new id is larger than every id the request has seen. -/
theorem Dated.lt_new {b : Broker} {res : GenerationResult}
    (h : Dated b res.requestId) {x : ResultEntry}
    (hx : x ∈ history b res.requestId) :
    x.eventId < (b.appendResult res).1 := by
  show _ < StreamId.next b.now
    (Broker.lastResultId (b.resultLog res.requestId))
  by_cases hlive : x ∈ b.resultLog res.requestId
  · -- the newest entry of the stream is at least as new as `x`
    have hinc : Increasing (·.eventId) (b.resultLog res.requestId) :=
      h.increasing.sublist (resultLog_suffix b _).sublist
    obtain ⟨init, last, hlog⟩ : ∃ init last,
        b.resultLog res.requestId = init ++ [last] :=
      ⟨_, _, (List.dropLast_append_getLast
        (List.ne_nil_of_mem hlive)).symm⟩
    rw [hlog] at hinc hlive ⊢
    have hlast : Broker.lastResultId (init ++ [last]) = last.eventId := by
      simp [Broker.lastResultId]
    rw [hlast]
    rcases List.mem_append.mp hlive with hx | hx
    · have hlt := (List.pairwise_append.mp hinc).2.2 x hx last (by simp)
      exact hlt.trans (StreamId.lt_next _ _)
    · rw [List.mem_singleton.mp hx]
      exact StreamId.lt_next _ _
  · refine StreamId.lt_of_ms_lt ?_
    exact lt_of_lt_of_le (h.lt_of_not_live hx hlive) (StreamId.le_next_ms _ _)

theorem Dated.new_ms_le {b : Broker} {res : GenerationResult}
    (h : Dated b res.requestId) : (b.appendResult res).1.ms ≤ b.now := by
  refine StreamId.next_ms_le ?_
  show (Broker.lastResultId (b.resultLog res.requestId)).ms ≤ b.now
  unfold Broker.lastResultId
  cases hl : (b.resultLog res.requestId).getLast? with
  | none => exact Nat.zero_le _
  | some x =>
      exact h.past x ((resultLog_suffix b _).subset
        (List.mem_of_getLast? hl))

theorem appendResult_archive (b : Broker) (res : GenerationResult) :
    (∃ c, b.results.live b.now res.requestId = some c ∧
      (b.appendResult res).2.archive = b.archive) ∨
    (b.results.live b.now res.requestId = none ∧
      (b.appendResult res).2.archive = Function.update b.archive res.requestId
        (b.incarnations res.requestId)) := by
  cases hl : b.results.live b.now res.requestId with
  | some c => exact .inl ⟨c, rfl, by simp [Broker.appendResult, hl]⟩
  | none => exact .inr ⟨rfl, by simp [Broker.appendResult, hl]⟩

theorem dated_appendResult {b : Broker} {res : GenerationResult} {r : String}
    (h : Dated b r) : Dated (b.appendResult res).2 r := by
  rcases eq_or_ne r res.requestId with rfl | hne
  swap
  · have harch : (b.appendResult res).2.archive r = b.archive r := by
      rcases appendResult_archive b res with ⟨_, _, h⟩ | ⟨_, h⟩
      · rw [h]
      · rw [h, Function.update_of_ne hne]
    have hhist := history_appendResult_ne b res hne
    refine ⟨hhist ▸ h.increasing, ?_, ?_, ?_⟩
    · rw [hhist]
      exact h.past
    · rw [incarnations_appendResult_ne b res hne]
      exact h.bounded
    · rw [harch]
      exact h.expired
  have hhist := history_appendResult b res
  refine ⟨?_, fun x hx => ?_, ?_, ?_⟩
  · rw [hhist]
    exact h.increasing.concat fun x hx => h.lt_new hx
  · rw [hhist] at hx
    rcases List.mem_append.mp hx with hx | hx
    · exact h.past x hx
    · rw [List.mem_singleton.mp hx]
      exact h.new_ms_le
  · rcases incarnations_appendResult b res with
      ⟨pre, c, hlive, hold, hnew⟩ | ⟨_, hnew⟩
    · rw [hnew]
      intro c' hc' d hd x hx
      rcases List.mem_append.mp hc' with hc' | hc'
      · exact h.bounded c' (hold ▸ List.mem_append_left _ hc') d hd x hx
      · rw [List.mem_singleton.mp hc'] at hd hx
        rcases List.mem_append.mp hx with hx | hx
        · exact h.bounded c (hold ▸ List.mem_append_right _ (by simp)) d hd x hx
        · -- the stream was alive, so its deadline is still to come
          rw [List.mem_singleton.mp hx]
          have halive := (Keyspace.live_eq_some.mp hlive).2
          have hd : c.deadline = some d := hd
          rw [Timed.alive, hd] at halive
          exact lt_of_le_of_lt h.new_ms_le (of_decide_eq_true halive)
    · rw [hnew]
      intro c' hc' d hd x hx
      rcases List.mem_append.mp hc' with hc' | hc'
      · exact h.bounded c' hc' d hd x hx
      · rw [List.mem_singleton.mp hc'] at hd
        cases hd
  · intro c hc
    rcases appendResult_archive b res with ⟨_, _, harch⟩ | ⟨hdead, harch⟩
    · rw [harch] at hc
      exact h.expired c hc
    · rw [harch, Function.update_self] at hc
      rcases List.mem_append.mp hc with hc | hc
      · exact h.expired c hc
      · have hover := deadline_le_of_dead (Option.mem_toList.mp hc) hdead
        exact hover

theorem dated_recordResult {b : Broker} {cfg : StreamsConfig}
    {res : GenerationResult} {eventId : StreamId} {r : String}
    (hactive : 0 < cfg.activeTtlMs) (hretention : 0 < cfg.resultRetentionMs)
    (h : Dated b r) : Dated (b.recordResult cfg res eventId) r := by
  have hhist := history_recordResult b cfg res eventId r
  refine ⟨hhist ▸ h.increasing, hhist ▸ h.past, ?_, h.expired⟩
  rcases eq_or_ne r res.requestId with rfl | hne
  · rcases incarnations_recordResult b cfg res eventId with
      ⟨pre, c, _, hold, hnew⟩ | ⟨_, hnew⟩
    · rw [hnew]
      intro c' hc' d hd x hx
      rcases List.mem_append.mp hc' with hc' | hc'
      · exact h.bounded c' (hold ▸ List.mem_append_left _ hc') d hd x hx
      · -- a time to live counts from now, and no event is later than that
        rw [List.mem_singleton.mp hc'] at hd hx
        cases hd
        have hpast : x.eventId.ms ≤ b.now := by
          refine h.past x (List.mem_flatMap.mpr ⟨c, ?_, hx⟩)
          rw [hold]
          exact List.mem_append_right _ (List.mem_singleton_self c)
        have httl : 0 < ttlOf cfg res := by
          unfold ttlOf
          split
          · exact hretention
          · exact hactive
        omega
    · rw [hnew]
      exact h.bounded
  · rw [incarnations_recordResult_ne b cfg res eventId hne]
    exact h.bounded

/-! ## Along a run -/

/-- What a step does to the result streams. -/
inductive ResultEffect (cfg : StreamsConfig) (b b' : Broker) : Prop
  | same (hres : b'.results = b.results) (harch : b'.archive = b.archive)
      (hnow : b.now ≤ b'.now)
  | append (res : GenerationResult) (h : b' = (b.appendResult res).2)
  | record (res : GenerationResult) (eventId : StreamId)
      (h : b' = b.recordResult cfg res eventId)

theorem Move.resultEffect {cfg : EngineConfig} {b b' : Broker} {e : Engine}
    {act : EngineAction} {p : Phase} (h : Move cfg b e act b' p) :
    ResultEffect cfg.streams b b' := by
  cases h with
  | roam _ hb _ => rw [hb.frame]; exact .same rfl rfl (Nat.le_refl _)
  | take _ hb _ _ => rw [hb.frame]; exact .same rfl rfl (Nat.le_refl _)
  | failAppend _ | append _ | concludeAppend _ => exact .append _ rfl
  | failRecord _ | record _ | concludeRecord _ => exact .record _ _ rfl
  | renew _ _ => rw [renewLease_frame]; exact .same rfl rfl (Nat.le_refl _)
  | release _ => rw [releaseLease_frame]; exact .same rfl rfl (Nat.le_refl _)
  | _ => exact .same rfl rfl (Nat.le_refl _)

theorem Moves.resultEffect {cfg : SysConfig} {s t : Sys} {l : Label}
    (h : Moves cfg s l t) :
    ResultEffect cfg.engine.streams s.broker t.broker := by
  cases h with
  | tick ms => exact .same rfl rfl (Nat.le_add_right _ _)
  | engine _ _ hmove => exact hmove.resultEffect
  | _ => exact .same rfl rfl (Nat.le_refl _)

theorem ResultEffect.dated {cfg : StreamsConfig} {b b' : Broker} {r : String}
    (h : ResultEffect cfg b b') (hactive : 0 < cfg.activeTtlMs)
    (hretention : 0 < cfg.resultRetentionMs) (hd : Dated b r) : Dated b' r := by
  cases h with
  | same hres harch hnow => exact hd.of_same hres harch hnow
  | append res h => rw [h]; exact dated_appendResult hd
  | record res eventId h =>
      rw [h]
      exact dated_recordResult hactive hretention hd

theorem dated_of_run {cfg : SysConfig} {ok : Sys → Label → Prop} {now : Nat}
    {engines : List (String × String)} {s : Sys} (r : String)
    (hactive : 0 < cfg.engine.streams.activeTtlMs)
    (hretention : 0 < cfg.engine.streams.resultRetentionMs)
    (h : Run (Sys.step cfg) ok (Sys.init now engines) s) : Dated s.broker r :=
  h.invariant (I := fun s => Dated s.broker r) (dated_empty now r)
    fun hI _ hstep =>
      (step_moves hstep).resultEffect.dated hactive hretention hI

/-- However often the result stream of a request has expired and been started
anew: the ids of its events grow along its whole history, so a client that
resumes behind any event it was ever given gets everything of the present
stream that came after it, and nothing from before. -/
theorem cursors_survive (cfg : SysConfig)
    (hactive : 0 < cfg.engine.streams.activeTtlMs)
    (hretention : 0 < cfg.engine.streams.resultRetentionMs) (now : Nat)
    (engines : List (String × String)) (s : Sys)
    (h : Run (Sys.step cfg) (fun _ _ => True) (Sys.init now engines) s)
    (r : String) (pre post : List ResultEntry) (x : ResultEntry)
    (hx : history s.broker r = pre ++ x :: post) :
    Increasing (·.eventId) (history s.broker r) ∧
    (x ∈ s.broker.resultLog r →
      after (·.eventId) x.eventId (s.broker.resultLog r) = post) ∧
    (x ∉ s.broker.resultLog r →
      after (·.eventId) x.eventId (s.broker.resultLog r) =
        s.broker.resultLog r) := by
  have hd := dated_of_run r hactive hretention h
  have hinc := hd.increasing
  obtain ⟨old, hold⟩ := resultLog_suffix s.broker r
  refine ⟨hinc, fun hlive => ?_, fun hlive => ?_⟩
  · -- both cuts of the history are at `x`, so what follows it is the same
    obtain ⟨u, v, hlog⟩ := List.append_of_mem hlive
    have hwhole : history s.broker r = (old ++ u) ++ x :: v := by
      rw [← hold, hlog, List.append_assoc]
    have hpost : post = v := by
      have hleft := Increasing.after_split (hx ▸ hinc)
      have hright := Increasing.after_split (hwhole ▸ hinc)
      rw [← hx] at hleft
      rw [← hwhole] at hright
      exact hleft.symm.trans hright
    have hlive : Increasing (·.eventId) (s.broker.resultLog r) :=
      hinc.sublist (resultLog_suffix s.broker r).sublist
    rw [hlog] at hlive ⊢
    rw [hlive.after_split, hpost]
  · refine after_eq_self fun y hy => ?_
    have hmem : x ∈ old ++ s.broker.resultLog r := by
      rw [hold, hx]
      exact List.mem_append_right _ List.mem_cons_self
    have hin : x ∈ old := (List.mem_append.mp hmem).resolve_right hlive
    rw [← hold, Increasing, List.pairwise_append] at hinc
    exact hinc.2.2 x hin y hy

/-- The ids a request has seen, and those a reader sees now. -/
def seenIds (s : Sys) (requestId : String) : List StreamId × List StreamId :=
  ((history s.broker requestId).map (·.eventId),
    (s.broker.resultLog requestId).map (·.eventId))

/-- A backend that is silent for longer than an hour: the stream expires under
the attempt, and its first token starts another one. -/
theorem cursors_survive_silence :
    ∃ s x y, Run (Sys.step sampleConfig) (fun _ _ => True)
        (Sys.init 1000 [("e", "m")]) s ∧
      history s.broker "r" = [x, y] ∧ s.broker.resultLog "r" = [y] ∧
      after (·.eventId) x.eventId (s.broker.resultLog "r") = [y] := by
  obtain ⟨s, hrun, hs⟩ := run_of_exec_map (Sys.step sampleConfig)
    (fun _ _ => True) (fun _ _ => true) (Sys.init 1000 [("e", "m")])
    (dispatched ++ started 0 (sampleUuid 0) 1000 ++
      [.tick 3600000, .engine 0 (.token ⟨"hello", 1⟩), .engine 0 .command])
    (fun s => seenIds s "r")
    (b := ([⟨1000, 0⟩, ⟨3601000, 0⟩], [⟨3601000, 0⟩]))
    (fun _ _ _ => trivial) (by decide)
  obtain ⟨hids, hlive⟩ := Prod.mk.inj hs
  obtain ⟨x, rest, hhist, hx, hrest⟩ := List.map_eq_cons_iff.mp hids
  obtain ⟨y, tl, rfl, hy, hnil⟩ := List.map_eq_cons_iff.mp hrest
  rw [List.map_eq_nil_iff.mp hnil] at hhist
  obtain ⟨z, tl, hlog, hz, hnil'⟩ := List.map_eq_cons_iff.mp hlive
  rw [List.map_eq_nil_iff.mp hnil'] at hlog
  -- the one entry a reader sees is the later of the two
  have hzy : z = y := by
    have hmem : z ∈ history s.broker "r" :=
      (resultLog_suffix s.broker "r").subset (by rw [hlog]; simp)
    rw [hhist] at hmem
    rcases List.mem_cons.mp hmem with rfl | hmem
    · rw [hx] at hz
      cases hz
    · exact List.mem_singleton.mp hmem
  subst hzy
  have hnot : x ∉ s.broker.resultLog "r" := by
    rw [hlog]
    intro hmem
    rw [List.mem_singleton.mp hmem, hz] at hx
    cases hx
  have hcursor := (cursors_survive sampleConfig (by decide) (by decide) 1000
    [("e", "m")] s hrun "r" [] [z] x hhist).2.2 hnot
  exact ⟨s, x, z, hrun, hhist, hlog, hlog ▸ hcursor⟩

end DataPlane.Proofs
