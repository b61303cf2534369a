import DataPlane.Proofs.QuotaScripts
import DataPlane.Proofs.Jobs

/-!
# What an acknowledgement stands for

An entry leaves the consumer group only after its request has ended: a
terminal event is in a result stream, that stream has a time to live, and the
reservation is no longer held. Four paths lead to the acknowledgement, and one
of them relies on a status another engine wrote, so the invariant ties the
status hash, the result streams and the reservations together and says of
every engine how far it has got.

The invariant is monotone where it speaks about the past. A settled
reservation stays settled, because reservation ids are never drawn twice; an
appended event stays in its stream, which may expire but is then only set
aside; a stream that was given a time to live keeps one.
-/

namespace DataPlane.Proofs

open DataPlane DataPlane.Lib DataPlane.Ref DataPlane.Spec

/-- The job's reservation is not, or no longer, in status `reserved`. -/
def Settled (b : Broker) (job : GenerationJob) : Prop :=
  isReserved b.quota b.now job.reservationId = false

/-- The stream holds a terminal event. -/
def Ended (stream : Timed (List ResultEntry)) : Prop :=
  ∃ entry ∈ stream.value, entry.result.terminal = true

/-- A terminal event has been appended to the request's result stream. -/
def HasTerminal (b : Broker) (requestId : String) : Prop :=
  ∃ stream ∈ b.incarnations requestId, Ended stream

/-- And that stream has been given a time to live. -/
def Closed (b : Broker) (requestId : String) : Prop :=
  ∃ stream ∈ b.incarnations requestId, Ended stream ∧ stream.deadline ≠ none

/-! ## What lasts -/

/-- Streams only get longer, and a deadline is never taken back. -/
def Grown (old new : List (Timed (List ResultEntry))) : Prop :=
  ∀ stream ∈ old, ∃ stream' ∈ new, (∀ x ∈ stream.value, x ∈ stream'.value) ∧
    (stream.deadline ≠ none → stream'.deadline ≠ none)

theorem Grown.refl (old : List (Timed (List ResultEntry))) : Grown old old :=
  fun stream h => ⟨stream, h, fun _ hx => hx, id⟩

theorem Grown.hasTerminal {b b' : Broker} {r : String}
    (hg : Grown (b.incarnations r) (b'.incarnations r))
    (h : HasTerminal b r) : HasTerminal b' r := by
  obtain ⟨stream, hmem, entry, hentry, hterm⟩ := h
  obtain ⟨stream', hmem', hsub, _⟩ := hg stream hmem
  exact ⟨stream', hmem', entry, hsub entry hentry, hterm⟩

theorem Grown.closed {b b' : Broker} {r : String}
    (hg : Grown (b.incarnations r) (b'.incarnations r))
    (h : Closed b r) : Closed b' r := by
  obtain ⟨stream, hmem, ⟨entry, hentry, hterm⟩, hdl⟩ := h
  obtain ⟨stream', hmem', hsub, hkeep⟩ := hg stream hmem
  exact ⟨stream', hmem', ⟨entry, hsub entry hentry, hterm⟩, hkeep hdl⟩

/-- Only the last stream is written to. -/
theorem Grown.append_last {pre : List (Timed (List ResultEntry))}
    {c c' : Timed (List ResultEntry)} (hsub : ∀ x ∈ c.value, x ∈ c'.value)
    (hkeep : c.deadline ≠ none → c'.deadline ≠ none) :
    Grown (pre ++ [c]) (pre ++ [c']) := by
  intro stream hmem
  rcases List.mem_append.mp hmem with hmem | hmem
  · exact ⟨stream, List.mem_append_left _ hmem, fun _ hx => hx, id⟩
  · rw [List.mem_singleton.mp hmem]
    exact ⟨c', List.mem_append_right _ (List.mem_singleton_self _), hsub, hkeep⟩

theorem grown_appendResult (b : Broker) (res : GenerationResult) (r : String) :
    Grown (b.incarnations r) ((b.appendResult res).2.incarnations r) := by
  rcases eq_or_ne r res.requestId with rfl | hne
  · rcases incarnations_appendResult b res with
      ⟨pre, c, _, hold, hnew⟩ | ⟨_, hnew⟩
    · rw [hold, hnew]
      exact .append_last (fun x hx => List.mem_append_left _ hx) id
    · rw [hnew]
      intro stream hmem
      exact ⟨stream, List.mem_append_left _ hmem, fun _ hx => hx, id⟩
  · rw [incarnations_appendResult_ne b res hne]
    exact .refl _

theorem grown_recordResult (b : Broker) (cfg : StreamsConfig)
    (res : GenerationResult) (eventId : StreamId) (r : String) :
    Grown (b.incarnations r)
      ((b.recordResult cfg res eventId).incarnations r) := by
  rcases eq_or_ne r res.requestId with rfl | hne
  · rcases incarnations_recordResult b cfg res eventId with
      ⟨pre, c, _, hold, hnew⟩ | ⟨_, hnew⟩
    · rw [hold, hnew]
      exact .append_last (fun _ hx => hx) fun _ => by simp
    · rw [hnew]
      exact .refl _
  · rw [incarnations_recordResult_ne b cfg res eventId hne]
    exact .refl _

/-- Nothing an engine does takes an event or a deadline away. -/
theorem Move.grown {cfg : EngineConfig} {b b' : Broker} {e : Engine}
    {act : EngineAction} {p : Phase} (h : Move cfg b e act b' p) (r : String) :
    Grown (b.incarnations r) (b'.incarnations r) := by
  cases h with
  | roam _ hb _ => rw [hb.frame]; exact .refl _
  | take _ hb _ _ => rw [hb.frame]; exact .refl _
  | failAppend _ | append _ | concludeAppend _ => exact grown_appendResult _ _ _
  | failRecord _ | record _ | concludeRecord _ =>
      exact grown_recordResult _ _ _ _ _
  | renew _ _ => rw [renewLease_frame]; exact .refl _
  | release _ => rw [releaseLease_frame]; exact .refl _
  | _ => exact .refl _

/-- Nothing an engine does brings a reservation back. -/
theorem Move.settled {cfg : EngineConfig} {b b' : Broker} {e : Engine}
    {act : EngineAction} {p : Phase} (h : Move cfg b e act b' p)
    {job : GenerationJob} (hs : Settled b job) : Settled b' job := by
  unfold Settled at hs ⊢
  cases h with
  | roam _ hb _ => rw [hb.frame]; exact hs
  | take _ hb _ _ => rw [hb.frame]; exact hs
  | cancelExpired _ =>
      simp only [Broker.cancel, isReserved_cancelQuota, hs, Bool.false_and]
  | settle _ =>
      simp only [Broker.reconcile, isReserved_reconcileQuota, hs,
        Bool.false_and]
  | renew _ _ => rw [renewLease_frame]; exact hs
  | release _ => rw [releaseLease_frame]; exact hs
  | _ => exact hs

theorem Moves.grown {cfg : SysConfig} {s t : Sys} {l : Label}
    (h : Moves cfg s l t) (r : String) :
    Grown (s.broker.incarnations r) (t.broker.incarnations r) := by
  cases h with
  | engine _ _ hmove => exact hmove.grown r
  | _ => exact .refl _

theorem Moves.settled {cfg : SysConfig} {s t : Sys} {l : Label}
    (hI : Sourced s) (h : Moves cfg s l t) {job : GenerationJob}
    (hk : Known s job) (hs : Settled s.broker job) : Settled t.broker job := by
  -- The id of a known job has been drawn, so no reserve draws it again.
  have hdrawn : job.reservationId ∈ s.reservations := by
    obtain ⟨step, hcall, _⟩ := hk
    exact (hI.calls hcall).2
  cases h with
  | tick ms =>
      refine Bool.eq_false_iff.mpr fun hr => ?_
      have := isReserved_of_le (Nat.le_add_right s.broker.now ms) hr
      rw [hs] at this
      cases this
  | refused _ hfresh hq | reserved _ hfresh hq =>
      have hne := ne_of_mem_of_not_mem hdrawn hfresh
      exact (isReserved_reserveQuota hq hne).trans hs
  | dispatch | queue | failDispatch | foreign => exact hs
  | cancelDispatch =>
      unfold Settled at hs ⊢
      simp only [Sys.setCall, Broker.cancel, isReserved_cancelQuota, hs,
        Bool.false_and]
  | engine _ _ hmove => exact hmove.settled hs

/-! ## The invariant -/

/-- What an engine at a step of `run_job` has already brought about. -/
def Reached (b : Broker) (job : GenerationJob) : JobStep → Prop
  | .failExpired .append | .conclude _ _ .append => Settled b job
  | .failExpired (.record _) | .conclude _ _ (.record _) =>
      HasTerminal b job.requestId
  | .acknowledge => Closed b job.requestId
  | _ => True

/-- Engines have done what their step says, and what has ended is settled. -/
structure Accounted (s : Sys) : Prop where
  engines : ∀ {i e taken step}, Busy s.engines i e taken step →
    Reached s.broker taken.job step
  status : ∀ {r st}, s.broker.statusOf r = some st → st.state = .completed →
    Closed s.broker r
  settled : ∀ {r}, HasTerminal s.broker r →
    ∃ job, Known s job ∧ job.requestId = r ∧ Settled s.broker job
  archived : ∀ {r stream}, stream ∈ s.broker.archive r →
    stream.deadline ≠ none

theorem Reached.mono {b b' : Broker} {job : GenerationJob} {step : JobStep}
    (h : Reached b job step) (hs : Settled b job → Settled b' job)
    (hg : Grown (b.incarnations job.requestId)
      (b'.incarnations job.requestId)) : Reached b' job step := by
  unfold Reached at h ⊢
  split
  · exact hs h
  · exact hs h
  · exact hg.hasTerminal h
  · exact hg.hasTerminal h
  · exact hg.closed h
  · trivial

/-! ## Publishing -/

theorem hasTerminal_appendResult_self {b : Broker} {res : GenerationResult}
    {r : String} (hr : res.requestId = r) (h : res.terminal = true) :
    HasTerminal (b.appendResult res).2 r := by
  subst hr
  unfold HasTerminal
  rcases incarnations_appendResult b res with ⟨pre, c, _, _, hnew⟩ | ⟨_, hnew⟩
  · rw [hnew]
    exact ⟨_, List.mem_append_right _ (List.mem_singleton_self _),
      newEntry b res, List.mem_append_right _ (List.mem_singleton_self _), h⟩
  · rw [hnew]
    exact ⟨_, List.mem_append_right _ (List.mem_singleton_self _),
      newEntry b res, List.mem_singleton_self _, h⟩

theorem hasTerminal_of_appendResult {b : Broker} {res : GenerationResult}
    {r : String} (h : HasTerminal (b.appendResult res).2 r) :
    HasTerminal b r ∨ (r = res.requestId ∧ res.terminal = true) := by
  rcases eq_or_ne r res.requestId with rfl | hne
  · obtain ⟨stream, hmem, entry, hentry, hterm⟩ := h
    rcases incarnations_appendResult b res with
      ⟨pre, c, _, hold, hnew⟩ | ⟨_, hnew⟩
    · rw [hnew] at hmem
      rcases List.mem_append.mp hmem with hmem | hmem
      · refine .inl ⟨stream, ?_, entry, hentry, hterm⟩
        rw [hold]
        exact List.mem_append_left _ hmem
      · rw [List.mem_singleton.mp hmem] at hentry
        rcases List.mem_append.mp hentry with hentry | hentry
        · refine .inl ⟨c, ?_, entry, hentry, hterm⟩
          rw [hold]
          exact List.mem_append_right _ (List.mem_singleton_self _)
        · rw [List.mem_singleton.mp hentry] at hterm
          exact .inr ⟨rfl, hterm⟩
    · rw [hnew] at hmem
      rcases List.mem_append.mp hmem with hmem | hmem
      · exact .inl ⟨stream, hmem, entry, hentry, hterm⟩
      · rw [List.mem_singleton.mp hmem] at hentry
        rw [List.mem_singleton.mp hentry] at hterm
        exact .inr ⟨rfl, hterm⟩
  · unfold HasTerminal at h ⊢
    rw [incarnations_appendResult_ne b res hne] at h
    exact .inl h

theorem hasTerminal_of_recordResult {b : Broker} {cfg : StreamsConfig}
    {res : GenerationResult} {eventId : StreamId} {r : String}
    (h : HasTerminal (b.recordResult cfg res eventId) r) : HasTerminal b r := by
  unfold HasTerminal at h ⊢
  rcases eq_or_ne r res.requestId with rfl | hne
  · rcases incarnations_recordResult b cfg res eventId with
      ⟨pre, c, _, hold, hnew⟩ | ⟨_, hnew⟩
    · rw [hnew] at h
      rw [hold]
      obtain ⟨stream, hmem, hend⟩ := h
      rcases List.mem_append.mp hmem with hmem | hmem
      · exact ⟨stream, List.mem_append_left _ hmem, hend⟩
      · rw [List.mem_singleton.mp hmem] at hend
        exact ⟨c, List.mem_append_right _ (List.mem_singleton_self _), hend⟩
    · rw [hnew] at h
      exact h
  · rw [incarnations_recordResult_ne b cfg res eventId hne] at h
    exact h

theorem deadline_of_dead {α : Type} {m : Keyspace String α} {now : Nat}
    {k : String} {c : Timed α} (hc : m k = some c)
    (h : m.live now k = none) : c.deadline ≠ none := by
  intro hnone
  have halive : c.alive now = true := by simp [Timed.alive, hnone]
  rw [Keyspace.live_eq_some.mpr ⟨hc, halive⟩] at h
  cases h

/-- Once the pipeline has run, every stream the request ever had has, or had,
a time to live. -/
theorem closed_recordResult {b : Broker} {cfg : StreamsConfig}
    {res : GenerationResult} {eventId : StreamId} {r : String}
    (hr : res.requestId = r)
    (harch : ∀ {stream}, stream ∈ b.archive r → stream.deadline ≠ none)
    (h : HasTerminal b r) : Closed (b.recordResult cfg res eventId) r := by
  subst hr
  obtain ⟨stream, hmem, hend⟩ :=
    (grown_recordResult b cfg res eventId _).hasTerminal h
  refine ⟨stream, hmem, hend, ?_⟩
  rcases List.mem_append.mp hmem with hmem | hmem
  · exact harch hmem
  · rw [Option.mem_toList, recordResult_results, Keyspace.expire] at hmem
    cases hlive : b.results.live b.now res.requestId with
    | none =>
        rw [hlive] at hmem
        exact deadline_of_dead hmem hlive
    | some c =>
        simp only [hlive, Function.update_self, Option.some.injEq] at hmem
        rw [← hmem]
        simp

/-! ## One step -/

/-- The only events that end a request are appended by an engine that has
settled its reservation. -/
theorem Move.hasTerminal {cfg : EngineConfig} {b b' : Broker} {e : Engine}
    {act : EngineAction} {p : Phase} {r : String} (h : Move cfg b e act b' p)
    (hplain : ∀ {taken a event x},
      e.phase = .working taken (.attempt a (.publish event x)) →
      event.terminal = false)
    (ht : HasTerminal b' r) :
    HasTerminal b r ∨ ∃ taken step, e.phase = .working taken step ∧
      taken.job.requestId = r ∧
      ∀ b : Broker, Reached b taken.job step → Settled b taken.job := by
  cases h with
  | roam _ hb _ => rw [hb.frame] at ht; exact .inl ht
  | take _ hb _ _ => rw [hb.frame] at ht; exact .inl ht
  | failAppend hphase =>
      rcases hasTerminal_of_appendResult ht with ht | ⟨rfl, _⟩
      · exact .inl ht
      · exact .inr ⟨_, _, hphase, rfl, fun _ h => h⟩
  | concludeAppend hphase =>
      rcases hasTerminal_of_appendResult ht with ht | ⟨rfl, _⟩
      · exact .inl ht
      · exact .inr ⟨_, _, hphase, by simp, fun _ h => h⟩
  | append hphase =>
      rcases hasTerminal_of_appendResult ht with ht | ⟨_, hterm⟩
      · exact .inl ht
      · rw [resultOf_terminal, hplain hphase] at hterm
        cases hterm
  | failRecord _ | record _ | concludeRecord _ =>
      exact .inl (hasTerminal_of_recordResult ht)
  | renew _ _ => rw [renewLease_frame] at ht; exact .inl ht
  | release _ => rw [releaseLease_frame] at ht; exact .inl ht
  | _ => exact .inl ht

/-- Where the engine that moved has got to. -/
theorem Move.reached {cfg : EngineConfig} {b b' : Broker} {e : Engine}
    {act : EngineAction} {p : Phase} {taken : ConsumedJob} {step : JobStep}
    (h : Move cfg b e act b' p)
    (hold : ∀ {taken step}, e.phase = .working taken step →
      Reached b taken.job step)
    (hstatus : ∀ {r st}, b.statusOf r = some st → st.state = .completed →
      Closed b r)
    (harch : ∀ {r stream}, stream ∈ b.archive r → stream.deadline ≠ none)
    (hp : p = .working taken step) : Reached b' taken.job step := by
  cases h with
  | roam _ _ hidle | abandon _ _ hidle => exact absurd hp hidle.ne_working
  | take _ _ _ htakes => obtain ⟨job, _, rfl⟩ := htakes; cases hp; trivial
  | crash | notAcquired _ | acknowledge _ => cases hp
  | cancelExpired _ =>
      cases hp
      simp [Reached, Settled, Broker.cancel, isReserved_cancelQuota]
  | settle _ =>
      cases hp
      simp [Reached, Settled, Broker.reconcile, isReserved_reconcileQuota]
  | failAppend _ => cases hp; exact hasTerminal_appendResult_self rfl rfl
  | concludeAppend _ =>
      cases hp
      exact hasTerminal_appendResult_self (conclusion_requestId _ _ _)
        (conclusion_terminal _ _ _)
  | failRecord hphase =>
      cases hp
      exact closed_recordResult rfl harch (hold hphase)
  | concludeRecord hphase =>
      cases hp
      exact closed_recordResult (conclusion_requestId _ _ _) harch (hold hphase)
  | alreadyDone _ hst hdone => cases hp; exact hstatus hst hdone
  | renew _ hstep =>
      cases hp
      rcases hstep with ⟨x, rfl⟩ | ⟨x, rfl⟩ <;> trivial
  | _ => cases hp; trivial

/-- A completed status is the work of a pipeline that closed a stream. -/
theorem Move.status {cfg : EngineConfig} {b b' : Broker} {e : Engine}
    {act : EngineAction} {p : Phase} {r : String} {st : GenerationStatus}
    (h : Move cfg b e act b' p)
    (hold : ∀ {taken step}, e.phase = .working taken step →
      Reached b taken.job step)
    (hplain : ∀ {taken a event x},
      e.phase = .working taken (.attempt a (.publish event x)) →
      event.terminal = false)
    (harch : ∀ {r stream}, stream ∈ b.archive r → stream.deadline ≠ none)
    (hst : b'.statusOf r = some st) (hdone : st.state = .completed) :
    b.statusOf r = some st ∨ Closed b' r := by
  cases h with
  | roam _ hb _ => rw [hb.frame] at hst; exact .inl hst
  | take _ hb _ _ => rw [hb.frame] at hst; exact .inl hst
  | @failRecord taken _ hphase =>
      rcases eq_or_ne r taken.job.requestId with rfl | hne
      · exact .inr (closed_recordResult rfl harch (hold hphase))
      · exact .inl ((statusOf_recordResult_ne hne).symm.trans hst)
  | @concludeRecord taken _ _ _ hphase =>
      have hid := conclusion_requestId taken.job
      rcases eq_or_ne r taken.job.requestId with rfl | hne
      · exact .inr (closed_recordResult (hid _ _) harch (hold hphase))
      · rw [← hid] at hne
        exact .inl ((statusOf_recordResult_ne hne).symm.trans hst)
  | @record taken a event _ hphase =>
      rcases eq_or_ne r taken.job.requestId with rfl | hne
      · -- The pipeline of an attempt that goes on says `running`.
        have hrun := state_of_recordResult hst
        rw [stateAfter, resultOf_terminal, hplain hphase, hdone] at hrun
        cases hrun
      · exact .inl ((statusOf_recordResult_ne hne).symm.trans hst)
  | renew _ _ => rw [renewLease_frame] at hst; exact .inl hst
  | release _ => rw [releaseLease_frame] at hst; exact .inl hst
  | _ => exact .inl hst

theorem archive_appendResult {b : Broker} {res : GenerationResult}
    {r : String} {stream : Timed (List ResultEntry)}
    (harch : ∀ {r stream}, stream ∈ b.archive r → stream.deadline ≠ none)
    (h : stream ∈ (b.appendResult res).2.archive r) :
    stream.deadline ≠ none := by
  simp only [Broker.appendResult] at h
  cases hlive : b.results.live b.now res.requestId with
  | some c => simp only [hlive] at h; exact harch h
  | none =>
      simp only [hlive] at h
      rcases eq_or_ne r res.requestId with rfl | hne
      · rw [Function.update_self] at h
        rcases List.mem_append.mp h with h | h
        · exact harch h
        · exact deadline_of_dead (Option.mem_toList.mp h) hlive
      · rw [Function.update_of_ne hne] at h
        exact harch h

theorem Move.archived {cfg : EngineConfig} {b b' : Broker} {e : Engine}
    {act : EngineAction} {p : Phase} {r : String}
    {stream : Timed (List ResultEntry)} (h : Move cfg b e act b' p)
    (harch : ∀ {r stream}, stream ∈ b.archive r → stream.deadline ≠ none)
    (hmem : stream ∈ b'.archive r) : stream.deadline ≠ none := by
  cases h with
  | roam _ hb _ => rw [hb.frame] at hmem; exact harch hmem
  | take _ hb _ _ => rw [hb.frame] at hmem; exact harch hmem
  | failAppend _ | append _ | concludeAppend _ =>
      exact archive_appendResult harch hmem
  | renew _ _ => rw [renewLease_frame] at hmem; exact harch hmem
  | release _ => rw [releaseLease_frame] at hmem; exact harch hmem
  | _ => exact harch hmem

theorem accounted_init (now : Nat) (engines : List (String × String)) :
    Accounted (Sys.init now engines) where
  engines h := (not_busy_init h).elim
  status h _ := by cases h
  settled h := by obtain ⟨_, hmem, _⟩ := h; cases hmem
  archived h := by cases h

theorem Moves.status {cfg : SysConfig} {s t : Sys} {l : Label} {r : String}
    {st : GenerationStatus} (hS : Sourced s) (hI : Accounted s)
    (h : Moves cfg s l t) (hst : t.broker.statusOf r = some st)
    (hdone : st.state = .completed) :
    (∃ st', s.broker.statusOf r = some st' ∧ st'.state = .completed) ∨
      Closed t.broker r := by
  cases h with
  | tick ms =>
      obtain ⟨cell, hcell, hstate⟩ := statusOf_eq_some hst
      have hlive := Keyspace.live_of_le (Nat.le_add_right s.broker.now ms) hcell
      refine .inl ⟨_, ?_, hdone⟩
      rw [← hst]
      exact (statusOf_congr (hcell.trans hlive.symm)).symm
  | @queue r' job entryId hcall =>
      rcases eq_or_ne r job.requestId with rfl | hne
      · rw [state_of_recordQueued hst] at hdone
        cases hdone
      · exact .inl ⟨st, (statusOf_recordQueued_ne hne).symm.trans hst, hdone⟩
  | @engine i act e b p hi _ hmove =>
      rcases hmove.status (fun hphase => hI.engines ⟨hi, hphase⟩)
        (fun hphase => hS.plain ⟨hi, hphase⟩) hI.archived hst hdone with h | h
      · exact .inl ⟨st, h, hdone⟩
      · exact .inr h
  | _ => exact .inl ⟨st, hst, hdone⟩

theorem Moves.terminal_settled {cfg : SysConfig} {s t : Sys} {l : Label}
    {r : String} (hS : Sourced s) (hI : Accounted s) (h : Moves cfg s l t)
    (ht : HasTerminal t.broker r) :
    ∃ job, Known s job ∧ job.requestId = r ∧ Settled s.broker job := by
  cases h with
  | @engine i act e b p hi _ hmove =>
      rcases hmove.hasTerminal (fun hphase => hS.plain ⟨hi, hphase⟩) ht with
        ht | ⟨taken, step, hphase, hid, hsettled⟩
      · exact hI.settled ht
      · exact ⟨taken.job, hS.engines ⟨hi, hphase⟩, hid,
          hsettled _ (hI.engines ⟨hi, hphase⟩)⟩
  | _ => exact hI.settled ht

theorem accounted_step {cfg : SysConfig} {s t : Sys} {l : Label}
    (hS : Sourced s) (hI : Accounted s) (h : Moves cfg s l t) :
    Accounted t := by
  refine ⟨?_, ?_, ?_, ?_⟩
  · -- An engine that did not move keeps what it has reached.
    have hrest : ∀ {i e taken step}, Busy s.engines i e taken step →
        Reached t.broker taken.job step := fun hb =>
      (hI.engines hb).mono (h.settled hS (hS.engines hb)) (h.grown _)
    intro i e taken step hb
    cases h with
    | engine hi _ hmove =>
        rcases hb.of_set with ⟨_, _, hp⟩ | ⟨_, hb⟩
        · exact hmove.reached (fun hphase => hI.engines ⟨hi, hphase⟩)
            hI.status hI.archived hp
        · exact hrest hb
    | _ => exact hrest hb
  · intro r st hst hdone
    rcases h.status hS hI hst hdone with ⟨st', hst', hdone'⟩ | hclosed
    · exact (h.grown r).closed (hI.status hst' hdone')
    · exact hclosed
  · intro r ht
    obtain ⟨job, hk, hid, hs⟩ := h.terminal_settled hS hI ht
    exact ⟨job, h.known hS hk, hid, h.settled hS hk hs⟩
  · intro r stream hmem
    cases h with
    | engine _ _ hmove => exact hmove.archived hI.archived hmem
    | _ => exact hI.archived hmem

theorem accounted_of_run {cfg : SysConfig} {ok : Sys → Label → Prop}
    {now : Nat} {engines : List (String × String)} {s : Sys}
    (h : Run (Sys.step cfg) ok (Sys.init now engines) s) : Accounted s := by
  have hboth := h.invariant (I := fun s => Sourced s ∧ Accounted s)
    ⟨sourced_init now engines, accounted_init now engines⟩
    fun hI _ hstep => ⟨sourced_step hI.1 (step_moves hstep),
      accounted_step hI.1 hI.2 (step_moves hstep)⟩
  exact hboth.2

/-! ## Acknowledgements -/

/-- The label is the `XACK` of the entry. -/
def Acknowledges (s : Sys) (l : Label) (taken : ConsumedJob) : Prop :=
  ∃ i e, l = .engine i .command ∧ Busy s.engines i e taken .acknowledge

/-- However engines and frontends interleave, crash or lose commands: when an
engine acknowledges an entry its request has a terminal event in a result
stream that was given a time to live, and its reservation is not held any
more. The reservation is given up before the terminal event appears. -/
theorem acknowledged_is_settled (cfg : SysConfig) (now : Nat)
    (engines : List (String × String)) (s : Sys)
    (h : Run (Sys.step cfg) (fun _ _ => True) (Sys.init now engines) s) :
    (∀ l taken, Acknowledges s l taken →
      (∃ stream ∈ s.broker.incarnations taken.job.requestId,
        Ended stream ∧ stream.deadline ≠ none) ∧
      Settled s.broker taken.job) ∧
    (∀ r call, s.calls r = some call →
      (∃ stream ∈ s.broker.incarnations r, Ended stream) →
      Settled s.broker call.job) := by
  have hS := sourced_of_run h
  have hI := accounted_of_run h
  have hsettled : ∀ {r call}, s.calls r = some call →
      HasTerminal s.broker r → Settled s.broker call.job := by
    intro r call hcall hterm
    obtain ⟨job, ⟨step, hjob, _⟩, rfl, hs⟩ := hI.settled hterm
    rw [hjob] at hcall
    cases hcall
    exact hs
  constructor
  · rintro l taken ⟨i, e, rfl, hb⟩
    have hclosed : Closed s.broker taken.job.requestId := hI.engines hb
    obtain ⟨stream, hmem, hend, hdl⟩ := hclosed
    obtain ⟨step, hcall, _⟩ := hS.engines hb
    exact ⟨⟨stream, hmem, hend, hdl⟩, hsettled hcall ⟨stream, hmem, hend⟩⟩
  · intro r call hcall hterm
    exact hsettled hcall hterm

/-- A deployment with the default times, whose engines can read every
request. -/
def sampleConfig : SysConfig :=
  { engine :=
      { streams := .default
        reclaimIdleMs := 90 * 1000
        parseError := fun _ => none }
    sha256 := id
    limits := ⟨10, 1000, 1000⟩ }

/-- A job for the model the engines have. -/
def sampleJob : GenerationJob :=
  { schemaVersion := schemaVersion
    requestId := "r"
    modelId := "m"
    modelRevision := "default"
    modelEndpoint := ""
    requestJson := []
    deadlineUnixMs := 300000
    reservationId := "q"
    cache := none }

/-- A call that puts the job into the stream, and an engine that takes it. -/
def dispatched : List Label :=
  [.reserve sampleJob "key" 0 10 100, .dispatch "r", .queue "r",
    .engine 0 .poll]

/-- The job an engine is about to acknowledge. -/
def acknowledging (s : Sys) (i : Nat) : Option ConsumedJob :=
  match s.engines[i]? with
  | some ⟨_, _, .working taken .acknowledge⟩ => some taken
  | _ => none

theorem acknowledges_of_eq_some {s : Sys} {i : Nat} {taken : ConsumedJob}
    (h : acknowledging s i = some taken) :
    Acknowledges s (.engine i .command) taken := by
  unfold acknowledging at h
  split at h
  · next he => cases h; exact ⟨i, _, rfl, he, rfl⟩
  · cases h

/-- The deadline branch: the reservation is cancelled, the failure published
and the entry about to be acknowledged. -/
theorem acknowledged_is_settled_expired :
    ∃ s, Run (Sys.step sampleConfig) (fun _ _ => True)
        (Sys.init 1000 [("e", "m")]) s ∧
      Acknowledges s (.engine 0 .command) ⟨⟨1000, 0⟩, sampleJob⟩ ∧
      (∃ stream ∈ s.broker.incarnations "r",
        Ended stream ∧ stream.deadline ≠ none) ∧
      Settled s.broker sampleJob := by
  obtain ⟨s, hrun, hs⟩ := run_of_exec_map (Sys.step sampleConfig)
    (fun _ _ => True) (fun _ _ => true) (Sys.init 1000 [("e", "m")])
    (dispatched ++ [.engine 0 (.testDeadline 300001), .engine 0 .command,
      .engine 0 .command, .engine 0 .command])
    (fun s => acknowledging s 0) (b := some ⟨⟨1000, 0⟩, sampleJob⟩)
    (fun _ _ _ => trivial) (by decide)
  have hack := acknowledges_of_eq_some hs
  exact ⟨s, hrun, hack, (acknowledged_is_settled sampleConfig 1000
    [("e", "m")] s hrun).1 _ _ hack⟩

end DataPlane.Proofs
