import DataPlane.Proofs.Group
import DataPlane.Proofs.Leases
import Mathlib.Data.Nat.ModEq
import Mathlib.Data.Finset.Card
import Mathlib.Tactic.IntervalCases

/-!
# The queue can always be drained

Safety would be satisfied by engines that do nothing. What crashes leave behind
are leases, statuses and pending entries, and none of these may keep a job from
being finished. This module shows it in the strongest form a system without
fairness allows: from every reachable state one engine, wherever it is, left to
itself on a broker that answers, gets through everything in the request stream.
It uses no luck either: nothing fails or crashes, the engine reads the clock that
the broker has, and a reclaim takes the pending entry the server would hand out,
the oldest. The engine finishes the job it is at, then whatever it reads, then
what is pending, as the leases run out.

There is one thing a single engine cannot get past, an entry it cannot read;
the runs here have none.
-/

namespace DataPlane.Proofs

open DataPlane DataPlane.Lib DataPlane.Ref

/-! ## An attempt id nobody has drawn -/

/-- The text with the 36 lowest decimal digits of a number. -/
def digitUuid (n : Nat) : Uuid :=
  ⟨String.ofList ((List.range 36).map fun k => Nat.digitChar (n / 10 ^ k % 10)),
    by simp⟩

theorem digitChar_inj {m n : Nat} (hm : m < 10) (hn : n < 10)
    (h : Nat.digitChar m = Nat.digitChar n) : m = n := by
  interval_cases m <;> interval_cases n <;>
    first | rfl | exact absurd h (by decide)

theorem mod_pow_eq_of_digits {m n : Nat} :
    ∀ {k : Nat}, (∀ j < k, m / 10 ^ j % 10 = n / 10 ^ j % 10) →
      m % 10 ^ k = n % 10 ^ k := by
  intro k
  induction k with
  | zero => intro _; simp [Nat.mod_one]
  | succ k ih =>
      intro h
      rw [Nat.mod_pow_succ, Nat.mod_pow_succ, h k (Nat.lt_succ_self k),
        ih fun j hj => h j (Nat.lt_succ_of_lt hj)]

theorem digitUuid_inj {m n : Nat} (hm : m < 10 ^ 36) (hn : n < 10 ^ 36)
    (h : digitUuid m = digitUuid n) : m = n := by
  have hlist := String.ofList_injective (congrArg Uuid.text h)
  have hdigits : ∀ j < 36, m / 10 ^ j % 10 = n / 10 ^ j % 10 := by
    intro j hj
    have hchar := List.map_inj_left.mp hlist j (List.mem_range.mpr hj)
    exact digitChar_inj (Nat.mod_lt _ (by decide)) (Nat.mod_lt _ (by decide))
      hchar
  have hmod := mod_pow_eq_of_digits hdigits
  rwa [Nat.mod_eq_of_lt hm, Nat.mod_eq_of_lt hn] at hmod

/-- As long as ids have not run out there is a new one. -/
theorem exists_fresh_uuid (used : List Uuid) (h : used.length < 10 ^ 36) :
    ∃ a, a ∉ used := by
  by_contra hall
  push Not at hall
  have hinj : Set.InjOn digitUuid (Finset.range (10 ^ 36)) := by
    intro m hm n hn heq
    exact digitUuid_inj (Finset.mem_range.mp hm) (Finset.mem_range.mp hn) heq
  have hsub : (Finset.range (10 ^ 36)).image digitUuid ⊆ used.toFinset := by
    intro a _
    exact List.mem_toFinset.mpr (hall a)
  have hcard := Finset.card_le_card hsub
  rw [Finset.card_image_of_injOn hinj, Finset.card_range] at hcard
  exact absurd (hcard.trans (List.toFinset_card_le used)) (Nat.not_le.mpr h)

/-! ## What crashes leave behind -/

/-- Every lease runs out, and every entry can be read. -/
structure Drainable (s : Sys) : Prop where
  leases : ∀ {r c}, s.broker.lease r = some c → c.deadline ≠ none
  readable : ∀ {entry}, entry ∈ s.broker.requests.entries →
    ∃ job, entry.payload = .job job

theorem drainable_init (now : Nat) (engines : List (String × String)) :
    Drainable (Sys.init now engines) where
  leases h := by cases h
  readable h := by cases h

theorem cell_of_expire {α : Type} {m : Keyspace String α} {now ttl : Nat}
    {k k' : String} {c : Timed α} (h : m.expire now k ttl k' = some c) :
    m k' = some c ∨ c.deadline = some (now + ttl) := by
  unfold Keyspace.expire at h
  cases hl : m.live now k with
  | none => simp only [hl] at h; exact .inl h
  | some c₀ =>
      simp only [hl] at h
      rcases eq_or_ne k' k with rfl | hne
      · rw [Function.update_self] at h
        cases h
        exact .inr rfl
      · rw [Function.update_of_ne hne] at h
        exact .inl h

theorem Move.lease_deadline {cfg : EngineConfig} {b b' : Broker} {e : Engine}
    {act : EngineAction} {p : Phase} (h : Move cfg b e act b' p)
    (hold : ∀ {r c}, b.lease r = some c → c.deadline ≠ none) {r : String}
    {c : Timed String} (hc : b'.lease r = some c) : c.deadline ≠ none := by
  cases h with
  | roam _ hb _ => rw [hb.frame] at hc; exact hold hc
  | take _ hb _ _ => rw [hb.frame] at hc; exact hold hc
  | @acquired taken a _ _ _ =>
      rcases eq_or_ne r taken.job.requestId with rfl | hne
      · simp only [Keyspace.setEx, Function.update_self] at hc
        cases hc
        exact Option.some_ne_none _
      · simp only [Keyspace.setEx, Function.update_of_ne hne] at hc
        exact hold hc
  | @renew taken a _ _ _ =>
      unfold Broker.renewLease at hc
      split at hc
      · rcases cell_of_expire hc with hc | hc
        · exact hold hc
        · rw [hc]
          exact Option.some_ne_none _
      · exact hold hc
  | @release taken a _ _ =>
      unfold Broker.releaseLease at hc
      split at hc
      · rcases eq_or_ne r taken.job.requestId with rfl | hne
        · simp only [Keyspace.del, Function.update_self] at hc
          cases hc
        · simp only [Keyspace.del, Function.update_of_ne hne] at hc
          exact hold hc
      · exact hold hc
  | _ => exact hold hc

/-- An engine adds nothing to the stream. -/
theorem GroupMove.entries {b b' : Broker} {e : Engine} {p : Phase}
    (h : GroupMove b b' e p) : b'.requests.entries = b.requests.entries := by
  cases h with
  | still hreq _ | read _ hreq _ | claim _ hreq _ =>
      rw [hreq]
  | acknowledge _ hreq _ =>
      rw [hreq]
      rfl

theorem drainable_step {cfg : SysConfig} {s t : Sys} {l : Label}
    (hD : Drainable s) (hl : l ≠ .foreign) (h : Sys.step cfg s l = some t) :
    Drainable t := by
  cases step_moves h with
  | engine he _ hmove =>
      obtain ⟨e, b, p, _, hstep, ht⟩ := step_engine h
      refine ⟨hmove.lease_deadline hD.leases, fun hmem => hD.readable ?_⟩
      rw [ht] at hmem
      rw [← (engineStep_groupMove hstep).entries]
      exact hmem
  | dispatch hcall =>
      refine ⟨hD.leases, fun hmem => ?_⟩
      rcases List.mem_append.mp hmem with hmem | hmem
      · exact hD.readable hmem
      · rw [List.mem_singleton.mp hmem]
        exact ⟨_, rfl⟩
  | foreign => exact absurd rfl hl
  | _ => exact ⟨hD.leases, hD.readable⟩

/-! ## One engine, left to itself -/

/-- What happens while engine `i` is left to itself: time passes, and it makes
its moves. Neither a command nor the backend fails, and it does not crash; its
clock is the broker's; and a reclaim takes the oldest pending entry, or finds
that there is none. -/
def unaided (i : Nat) (b : Broker) : Label → Bool
  | .tick _ => true
  | .engine j act => j = i && match act with
      | .fail _ | .backendError _ | .crash => false
      | .testDeadline unixMs => unixMs = b.now
      | .reclaim none => b.requests.pending.isEmpty
      | .reclaim (some k) => k = 0
      | _ => true
  | _ => false

/-- Engine `i`, left to itself from `s` on, can get to a phase, to that broker
and to having drawn these attempt ids. -/
def Reaches (cfg : SysConfig) (i : Nat) (e : Engine) (s : Sys) (b : Broker)
    (p : Phase) (attempts : List Uuid) : Prop :=
  ∃ t, Run (Sys.step cfg) (fun s l => unaided i s.broker l = true) s t ∧
    t.engines[i]? = some { e with phase := p } ∧ t.broker = b ∧
    t.attempts = attempts

theorem run_unaided_trans {cfg : SysConfig} {i : Nat} {s₀ s t : Sys}
    (h₀ : Run (Sys.step cfg) (fun _ l => l ≠ .foreign) s₀ s)
    (h : Run (Sys.step cfg) (fun s l => unaided i s.broker l = true) s t) :
    Run (Sys.step cfg) (fun _ l => l ≠ .foreign) s₀ t := by
  refine h₀.trans (h.mono fun _ l hl => ?_)
  rintro rfl
  cases hl

theorem drainable_of_run {cfg : SysConfig} {now : Nat}
    {engines : List (String × String)} {s : Sys}
    (h : Run (Sys.step cfg) (fun _ l => l ≠ .foreign) (Sys.init now engines) s) :
    Drainable s :=
  h.invariant (drainable_init now engines) fun hI hok hstep =>
    drainable_step hI hok hstep

/-- A lease that runs out at some time is gone a while later. -/
theorem lease_gone {b : Broker} {r : String}
    (h : ∀ {r c}, b.lease r = some c → c.deadline ≠ none) :
    ∃ ms, ∀ ms' ≥ ms, b.lease.live (b.now + ms') r = none := by
  cases hc : b.lease r with
  | none => exact ⟨0, fun _ _ => by simp [Keyspace.live, hc]⟩
  | some c =>
      obtain ⟨d, hd⟩ := Option.ne_none_iff_exists'.mp (h hc)
      refine ⟨d, fun ms' hms => ?_⟩
      rw [Keyspace.live, hc, Option.filter_eq_none_iff]
      intro c' hc'
      cases hc'
      simp only [Timed.alive, hd, decide_eq_true_eq, not_lt]
      omega

section

variable {cfg : SysConfig} {now i : Nat} {engines : List (String × String)}
  {e : Engine} {s : Sys} {b c : Broker} {p q : Phase} {attempts : List Uuid}
  {taken : ConsumedJob} {a : Uuid} {result : AttemptResult}

theorem Reaches.start (cfg : SysConfig) (h : s.engines[i]? = some e) :
    Reaches cfg i e s s.broker e.phase s.attempts :=
  ⟨s, .refl, h, rfl, rfl⟩

theorem Reaches.tick (h : Reaches cfg i e s b p attempts) (ms : Nat) :
    Reaches cfg i e s { b with now := b.now + ms } p attempts := by
  obtain ⟨t, hrun, he, rfl, hattempts⟩ := h
  exact ⟨_, .tail hrun (l := .tick ms) rfl rfl, he, rfl, hattempts⟩

theorem Reaches.draw (h : Reaches cfg i e s b p attempts) (act : EngineAction)
    (hact : unaided i b (.engine i act) = true)
    (hdraw : ∀ a ∈ act.draws, a ∉ attempts)
    (hstep : engineStep cfg.engine b { e with phase := p } act =
      some (c, q)) :
    Reaches cfg i e s c q (act.draws.toList ++ attempts) := by
  obtain ⟨t, hrun, he, rfl, rfl⟩ := h
  refine ⟨{ t with
      broker := c
      engines := t.engines.set i { e with phase := q }
      attempts := act.draws.toList ++ t.attempts },
    .tail hrun (l := .engine i act) hact ?_, ?_, rfl, rfl⟩
  · have hfresh : act.draws.any (· ∈ t.attempts) = false := by
      cases hd : act.draws with
      | none => rfl
      | some a => simpa using hdraw a hd
    simp only [Sys.step, he, hfresh, Bool.false_eq_true, if_false,
      Sys.engineMove, hstep]
  · obtain ⟨hlt, _⟩ := List.getElem?_eq_some_iff.mp he
    simp [hlt]

/-- A move that draws nothing. -/
theorem Reaches.move (h : Reaches cfg i e s b p attempts) (act : EngineAction)
    (hact : unaided i b (.engine i act) = true) (hdraw : act.draws = none)
    (hstep : engineStep cfg.engine b { e with phase := p } act =
      some (c, q)) : Reaches cfg i e s c q attempts := by
  have hreach := h.draw act hact (by rw [hdraw]; nofun) hstep
  rw [hdraw] at hreach
  exact hreach

/-- The next command of `run_job`, carried out. -/
theorem Reaches.command {step : JobStep}
    (h : Reaches cfg i e s b (.working taken step) attempts)
    (hstep : jobCommand cfg.engine b e.engineId taken step = some (c, q)) :
    Reaches cfg i e s c q attempts :=
  h.move .command (by simp [unaided]) rfl hstep

/-- The engine can come to acknowledge the job, with the request stream as it
is. -/
def WorksOff (cfg : SysConfig) (i : Nat) (e : Engine) (s : Sys) (b : Broker)
    (taken : ConsumedJob) (attempts : List Uuid) : Prop :=
  ∃ b', b'.requests = b.requests ∧
    Reaches cfg i e s b' (.working taken .acknowledge) attempts

theorem WorksOff.of_requests (h : WorksOff cfg i e s c taken attempts)
    (hreq : c.requests = b.requests) :
    WorksOff cfg i e s b taken attempts := by
  obtain ⟨b', hb', hreach⟩ := h
  exact ⟨b', hb'.trans hreq, hreach⟩

theorem Reaches.failExpired {step : Publish}
    (h : Reaches cfg i e s b (.working taken (.failExpired step)) attempts) :
    WorksOff cfg i e s b taken attempts := by
  cases step with
  | append =>
      refine ⟨_, ?_, (h.command rfl).command rfl⟩
      rfl
  | record eventId =>
      refine ⟨_, ?_, h.command rfl⟩
      rfl

theorem Reaches.conclude {step : Publish}
    (h : Reaches cfg i e s b (.working taken (.conclude a result step))
      attempts) : WorksOff cfg i e s b taken attempts := by
  cases step with
  | append =>
      refine ⟨_, ?_, (h.command rfl).command rfl⟩
      rfl
  | record eventId =>
      refine ⟨_, ?_, h.command rfl⟩
      rfl

theorem Reaches.settle
    (h : Reaches cfg i e s b (.working taken (.settle a result)) attempts) :
    WorksOff cfg i e s b taken attempts :=
  (h.command rfl).conclude.of_requests rfl

theorem Reaches.release
    (h : Reaches cfg i e s b (.working taken (.release a result)) attempts) :
    WorksOff cfg i e s b taken attempts := by
  refine (h.command rfl).settle.of_requests ?_
  rw [releaseLease_frame]

theorem Reaches.generate
    (h : Reaches cfg i e s b (.working taken (.attempt a .generate)) attempts) :
    WorksOff cfg i e s b taken attempts :=
  (h.move (.finish ⟨0, 0, ""⟩) (by simp [unaided]) rfl rfl).release

theorem Reaches.publish {event : Event} {step : Publish}
    (h : Reaches cfg i e s b
      (.working taken (.attempt a (.publish event step))) attempts) :
    WorksOff cfg i e s b taken attempts := by
  cases step with
  | append =>
      exact ((h.command rfl).command rfl).generate.of_requests rfl
  | record eventId => exact (h.command rfl).generate.of_requests rfl

/-- An attempt that has its lease ends, one way or another: its job is not for
this engine, cannot be parsed, or is generated. -/
theorem Reaches.enter
    (h : Reaches cfg i e s b (.working taken (.attempt a .enter)) attempts) :
    WorksOff cfg i e s b taken attempts := by
  cases henter : enterAttempt cfg.engine e.model taken.job with
  | error message =>
      have hreleases := h.move .enterAttempt (c := b)
        (q := .working taken (.release a (.error message)))
        (by simp [unaided]) rfl (by simp [engineStep, henter])
      exact hreleases.release
  | ok step =>
      have hstep : step = .publish .attemptStarted .append := by
        unfold enterAttempt at henter
        split at henter
        · cases henter
        · split at henter <;> cases henter
          rfl
      subst hstep
      have hentered := h.move .enterAttempt (c := b)
        (q := .working taken (.attempt a (.publish .attemptStarted .append)))
        (by simp [unaided]) rfl (by simp [engineStep, henter])
      exact hentered.publish

/-- A job comes to be acknowledged, with at most one more attempt id drawn. -/
def Finishes (cfg : SysConfig) (i : Nat) (e : Engine) (s : Sys) (b : Broker)
    (taken : ConsumedJob) (attempts : List Uuid) : Prop :=
  ∃ attempts', attempts'.length ≤ attempts.length + 1 ∧
    WorksOff cfg i e s b taken attempts'

theorem WorksOff.finishes (h : WorksOff cfg i e s b taken attempts) :
    Finishes cfg i e s b taken attempts :=
  ⟨attempts, Nat.le_succ _, h⟩

/-- Whoever has the lease of the job, it runs out. -/
theorem Reaches.acquire
    (h₀ : Run (Sys.step cfg) (fun _ l => l ≠ .foreign) (Sys.init now engines) s)
    (hduration : cfg.engine.streams.leaseDurationMs ≠ 0)
    (hids : attempts.length < 10 ^ 36)
    (h : Reaches cfg i e s b (.working taken .acquire) attempts) :
    Finishes cfg i e s b taken attempts := by
  have hleases : ∀ {r c}, b.lease r = some c → c.deadline ≠ none := by
    obtain ⟨t, hrun, _, rfl, _⟩ := h
    exact (drainable_of_run (run_unaided_trans h₀ hrun)).leases
  obtain ⟨ms, hgone⟩ := lease_gone (r := taken.job.requestId) hleases
  obtain ⟨a, ha⟩ := exists_fresh_uuid attempts hids
  have hfree := hgone ms (Nat.le_refl ms)
  have hleased := (h.tick ms).draw (.acquireLease a) (by simp [unaided])
    (fun c hc => by cases hc; exact ha)
    (c := { b with
      now := b.now + ms
      lease := b.lease.setEx taken.job.requestId (leaseOwner e.engineId a)
        (b.now + ms + cfg.engine.streams.leaseDurationMs) })
    (q := .working taken (.attempt a .enter))
    (by simp [engineStep, Broker.acquireLease, hduration, hfree])
  exact ⟨_, Nat.le_refl _, hleased.enter.of_requests rfl⟩

/-- The status another engine left may say that the job is done. -/
theorem Reaches.checkStatus
    (h₀ : Run (Sys.step cfg) (fun _ l => l ≠ .foreign) (Sys.init now engines) s)
    (hduration : cfg.engine.streams.leaseDurationMs ≠ 0)
    (hids : attempts.length < 10 ^ 36)
    (h : Reaches cfg i e s b (.working taken .checkStatus) attempts) :
    Finishes cfg i e s b taken attempts := by
  have hnext : jobCommand cfg.engine b e.engineId taken .checkStatus =
        some (b, .working taken .acknowledge) ∨
      jobCommand cfg.engine b e.engineId taken .checkStatus =
        some (b, .working taken .acquire) := by
    simp only [jobCommand]
    split
    · split
      · exact .inl rfl
      · exact .inr rfl
    · exact .inr rfl
  rcases hnext with hdone | hacquire
  · exact WorksOff.finishes ⟨b, rfl, h.command hdone⟩
  · exact (h.command hacquire).acquire h₀ hduration hids

/-- From any step of `run_job` on. -/
theorem Reaches.finish
    (h₀ : Run (Sys.step cfg) (fun _ l => l ≠ .foreign) (Sys.init now engines) s)
    (hduration : cfg.engine.streams.leaseDurationMs ≠ 0)
    (hids : attempts.length < 10 ^ 36) :
    ∀ {step : JobStep}, Reaches cfg i e s b (.working taken step) attempts →
      Finishes cfg i e s b taken attempts := by
  intro step h
  match step with
  | .start =>
      by_cases hpassed : deadlinePassed taken.job b.now = true
      · have hcancels := h.move (.testDeadline b.now) (c := b)
          (q := .working taken .cancelExpired) (by simp [unaided]) rfl
          (by simp [engineStep, hpassed])
        exact ((hcancels.command rfl).failExpired.of_requests rfl).finishes
      · have hchecks := h.move (.testDeadline b.now) (c := b)
          (q := .working taken .checkStatus) (by simp [unaided]) rfl
          (by simp [engineStep, hpassed])
        exact hchecks.checkStatus h₀ hduration hids
  | .cancelExpired =>
      exact ((h.command rfl).failExpired.of_requests rfl).finishes
  | .failExpired _ => exact h.failExpired.finishes
  | .checkStatus => exact h.checkStatus h₀ hduration hids
  | .acquire => exact h.acquire h₀ hduration hids
  | .attempt _ .enter => exact h.enter.finishes
  | .attempt _ (.publish _ _) => exact h.publish.finishes
  | .attempt _ .generate => exact h.generate.finishes
  | .release _ _ => exact h.release.finishes
  | .settle _ _ => exact h.settle.finishes
  | .conclude _ _ _ => exact h.conclude.finishes
  | .acknowledge => exact WorksOff.finishes ⟨b, rfl, h⟩

/-- The engine works the job off and polls again; the entry is not pending any
more. -/
theorem Reaches.work
    (h₀ : Run (Sys.step cfg) (fun _ l => l ≠ .foreign) (Sys.init now engines) s)
    (hduration : cfg.engine.streams.leaseDurationMs ≠ 0)
    (hids : attempts.length < 10 ^ 36) {step : JobStep}
    (h : Reaches cfg i e s b (.working taken step) attempts) :
    ∃ b' attempts', attempts'.length ≤ attempts.length + 1 ∧
      b'.requests = { b.requests with
        pending := b.requests.pending.filter
          (·.entry.entryId ≠ taken.entryId) } ∧
      Reaches cfg i e s b' .polling attempts' := by
  obtain ⟨attempts', hdrawn, b', hreq, hacked⟩ := h.finish h₀ hduration hids
  refine ⟨_, attempts', hdrawn, ?_, hacked.command rfl⟩
  rw [Broker.acknowledge, hreq]

/-- The oldest pending entry, once it has been idle for long enough. -/
theorem Reaches.reclaim
    (h₀ : Run (Sys.step cfg) (fun _ l => l ≠ .foreign) (Sys.init now engines) s)
    (hduration : cfg.engine.streams.leaseDurationMs ≠ 0)
    (hids : attempts.length < 10 ^ 36) {p₀ : Pending} {rest : List Pending}
    (hpending : b.requests.pending = p₀ :: rest)
    (h : Reaches cfg i e s b .reclaiming attempts) :
    ∃ b' attempts', attempts'.length ≤ attempts.length + 1 ∧
      b'.requests = { b.requests with
        pending := rest.filter (·.entry.entryId ≠ p₀.entry.entryId) } ∧
      Reaches cfg i e s b' .polling attempts' := by
  obtain ⟨job, hjob⟩ : ∃ job, p₀.entry.payload = .job job := by
    obtain ⟨t, hrun, _, rfl, _⟩ := h
    have hreach := run_unaided_trans h₀ hrun
    refine (drainable_of_run hreach).readable (List.mem_of_mem_take
      ((queued_of_run hreach).pending.subset ?_))
    rw [hpending]
    exact List.mem_cons_self
  have hidle : p₀.deliveredAt + cfg.engine.reclaimIdleMs ≤
      b.now + (p₀.deliveredAt + cfg.engine.reclaimIdleMs) := by omega
  have hclaimed := (h.tick (p₀.deliveredAt + cfg.engine.reclaimIdleMs)).move
    (.reclaim (some 0)) (q := .working ⟨p₀.entry.entryId, job⟩ .start)
    (c := { b with
      now := b.now + (p₀.deliveredAt + cfg.engine.reclaimIdleMs)
      requests := { b.requests with
        pending := ⟨p₀.entry, e.engineId,
          b.now + (p₀.deliveredAt + cfg.engine.reclaimIdleMs)⟩ :: rest } })
    (by simp [unaided]) rfl
    (by simp [engineStep, Broker.autoClaim, hpending, hidle, takeStale, hjob])
  obtain ⟨b', attempts', hdrawn, hreq, hpolls⟩ :=
    hclaimed.work h₀ hduration hids
  refine ⟨b', attempts', hdrawn, ?_, hpolls⟩
  rw [hreq]
  simp

/-- Wherever the engine is, it can get back to its loop. -/
theorem Reaches.poll
    (h₀ : Run (Sys.step cfg) (fun _ l => l ≠ .foreign) (Sys.init now engines) s)
    (hduration : cfg.engine.streams.leaseDurationMs ≠ 0)
    (hids : attempts.length < 10 ^ 36)
    (h : Reaches cfg i e s b p attempts) :
    ∃ b' attempts', attempts'.length ≤ attempts.length + 1 ∧
      b'.requests.entries = b.requests.entries ∧
      b'.requests.delivered = b.requests.delivered ∧
      Reaches cfg i e s b' .polling attempts' := by
  cases p with
  | polling => exact ⟨b, attempts, Nat.le_succ _, rfl, rfl, h⟩
  | reclaiming =>
      cases hpending : b.requests.pending with
      | nil =>
          have hpolls := h.move (.reclaim none) (c := b) (q := .polling)
            (by simp [unaided, hpending]) rfl rfl
          exact ⟨b, attempts, Nat.le_succ _, rfl, rfl, hpolls⟩
      | cons p₀ rest =>
          obtain ⟨b', attempts', hdrawn, hreq, hpolls⟩ :=
            h.reclaim h₀ hduration hids hpending
          exact ⟨b', attempts', hdrawn, by rw [hreq], by rw [hreq], hpolls⟩
  | reconnecting =>
      have hpolls := h.move .reconnect (c := b) (q := .polling)
        (by simp [unaided]) rfl rfl
      exact ⟨b, attempts, Nat.le_succ _, rfl, rfl, hpolls⟩
  | working taken step =>
      obtain ⟨b', attempts', hdrawn, hreq, hpolls⟩ := h.work h₀ hduration hids
      exact ⟨b', attempts', hdrawn, by rw [hreq], by rw [hreq], hpolls⟩
  | stopped =>
      have hpolls := h.move .restart (c := b) (q := .polling)
        (by simp [unaided]) rfl rfl
      exact ⟨b, attempts, Nat.le_succ _, rfl, rfl, hpolls⟩

end

/-! ## The whole queue -/

section

variable {cfg : SysConfig} {now i : Nat} {engines : List (String × String)}
  {e : Engine}

/-- An entry that is handed out and acknowledged adds nothing to what is
pending. -/
theorem length_without_new (pending : List Pending) (p : Pending) :
    ((pending ++ [p]).filter (·.entry.entryId ≠ p.entry.entryId)).length ≤
      pending.length := by
  rw [List.filter_append, List.filter_cons_of_neg (by simp), List.filter_nil,
    List.append_nil]
  exact List.length_filter_le _ _

/-- Everything is handed out: the engine reads what there is to read, and works
it off. There is an attempt id for whatever is left. -/
theorem all_delivered (hduration : cfg.engine.streams.leaseDurationMs ≠ 0) :
    ∀ (n : Nat) (s : Sys),
    Run (Sys.step cfg) (fun _ l => l ≠ .foreign) (Sys.init now engines) s →
    s.engines[i]? = some { e with phase := .polling } →
    s.broker.requests.entries.length - s.broker.requests.delivered = n →
    s.attempts.length + n + s.broker.requests.pending.length ≤ 10 ^ 36 →
    ∃ t, Run (Sys.step cfg) (fun s l => unaided i s.broker l = true) s t ∧
      t.engines[i]? = some { e with phase := .polling } ∧
      t.broker.requests.entries = s.broker.requests.entries ∧
      t.broker.requests.delivered = t.broker.requests.entries.length ∧
      t.attempts.length + t.broker.requests.pending.length ≤ 10 ^ 36 := by
  intro n
  induction n with
  | zero =>
      intro s h₀ he hn hids
      have hcounted := (queued_of_run h₀).counted
      exact ⟨s, .refl, he, rfl, by omega, hids⟩
  | succ n ih =>
      intro s h₀ he hn hids
      have hlt : s.broker.requests.delivered <
          s.broker.requests.entries.length := by omega
      have hentry := List.getElem?_eq_getElem hlt
      obtain ⟨job, hjob⟩ :=
        (drainable_of_run h₀).readable (List.getElem_mem hlt)
      have hread := (Reaches.start cfg he).move .poll
        (c := { s.broker with
          requests := { s.broker.requests with
            delivered := s.broker.requests.delivered + 1
            pending := s.broker.requests.pending ++
              [⟨s.broker.requests.entries[s.broker.requests.delivered],
                e.engineId, s.broker.now⟩] } })
        (q := .working ⟨(s.broker.requests.entries[
          s.broker.requests.delivered]).entryId, job⟩ .start)
        (by simp [unaided]) rfl
        (by simp [engineStep, Broker.readGroup, hentry, takeFresh, hjob])
      obtain ⟨b, attempts, hdrawn, hreq, t, hrun, het, rfl, rfl⟩ :=
        hread.work h₀ hduration (by omega)
      have hentries : t.broker.requests.entries = s.broker.requests.entries := by
        rw [hreq]
      have hdelivered : t.broker.requests.delivered =
          s.broker.requests.delivered + 1 := by rw [hreq]
      have hpending : t.broker.requests.pending.length ≤
          s.broker.requests.pending.length := by
        rw [hreq]
        exact length_without_new s.broker.requests.pending
          ⟨s.broker.requests.entries[s.broker.requests.delivered], e.engineId,
            s.broker.now⟩
      obtain ⟨u, hrun', heu, hentries', hall, hids'⟩ :=
        ih t (run_unaided_trans h₀ hrun) het
          (by rw [hentries, hdelivered]; omega) (by omega)
      exact ⟨u, hrun.trans hrun', heu, hentries'.trans hentries, hall, hids'⟩

/-- And everything pending is finished, oldest first. -/
theorem all_acknowledged (hduration : cfg.engine.streams.leaseDurationMs ≠ 0) :
    ∀ (n : Nat) (s : Sys),
    Run (Sys.step cfg) (fun _ l => l ≠ .foreign) (Sys.init now engines) s →
    s.engines[i]? = some { e with phase := .polling } →
    s.broker.requests.delivered = s.broker.requests.entries.length →
    s.broker.requests.pending.length ≤ n →
    s.attempts.length + n ≤ 10 ^ 36 →
    ∃ t, Run (Sys.step cfg) (fun s l => unaided i s.broker l = true) s t ∧
      t.broker.requests.entries = s.broker.requests.entries ∧
      t.broker.requests.delivered = t.broker.requests.entries.length ∧
      t.broker.requests.pending = [] := by
  intro n
  induction n with
  | zero =>
      intro s h₀ he hall hn _
      exact ⟨s, .refl, rfl, hall, List.length_eq_zero_iff.mp (by omega)⟩
  | succ n ih =>
      intro s h₀ he hall hn hids
      cases hpending : s.broker.requests.pending with
      | nil => exact ⟨s, .refl, rfl, hall, hpending⟩
      | cons p₀ rest =>
          have hnone : s.broker.requests.entries[
              s.broker.requests.delivered]? = none := by
            rw [hall]
            exact List.getElem?_eq_none (Nat.le_refl _)
          have hreclaims := (Reaches.start cfg he).move .poll
            (c := s.broker) (q := .reclaiming) (by simp [unaided]) rfl
            (by simp [engineStep, Broker.readGroup, hnone])
          obtain ⟨b, attempts, hdrawn, hreq, t, hrun, het, rfl, rfl⟩ :=
            hreclaims.reclaim h₀ hduration (by omega) hpending
          have hlen : rest.length ≤ n := by
            rw [hpending] at hn
            simpa using hn
          obtain ⟨u, hrun', hentries, hall', hempty⟩ :=
            ih t (run_unaided_trans h₀ hrun) het
              (by rw [hreq]; exact hall)
              (by rw [hreq]; exact (List.length_filter_le _ _).trans hlen)
              (by omega)
          refine ⟨u, hrun.trans hrun', ?_, hall', hempty⟩
          rw [hentries, hreq]

end

/-- Whatever crashes, expiries and lost commands have left behind, as long as
every entry can be read, a lease lasts at all and attempt ids have not run out:
an engine that is left to itself can finish every job in the request stream.
Nothing is left pending, everything has been handed out, and every job has
ended, in a stream with a time to live and with its reservation settled. -/
theorem queue_drains (cfg : SysConfig)
    (hduration : cfg.engine.streams.leaseDurationMs ≠ 0) (now : Nat)
    (engines : List (String × String)) (s : Sys)
    (h : Run (Sys.step cfg) (fun _ l => l ≠ .foreign) (Sys.init now engines) s)
    (hids : s.attempts.length + s.broker.requests.entries.length < 10 ^ 36)
    (i : Nat) (hi : i < s.engines.length) :
    ∃ t, Run (Sys.step cfg) (fun s l => unaided i s.broker l = true) s t ∧
      t.broker.requests.entries = s.broker.requests.entries ∧
      t.broker.requests.delivered = t.broker.requests.entries.length ∧
      t.broker.requests.pending = [] ∧
      ∀ entry ∈ t.broker.requests.entries, ∃ job, entry.payload = .job job ∧
        Closed t.broker job.requestId ∧ Settled t.broker job := by
  obtain ⟨_, _, hdrawn, hentries₁, hdelivered₁, s₁, hrun₁, he₁, rfl, rfl⟩ :=
    (Reaches.start cfg (List.getElem?_eq_getElem hi)).poll h hduration (by omega)
  have h₁ := run_unaided_trans h hrun₁
  have hpending : s₁.broker.requests.pending.length ≤
      s₁.broker.requests.delivered := by
    have hsub := (queued_of_run h₁).pending.length_le
    rw [List.length_map, List.length_take] at hsub
    omega
  have hcounted := (queued_of_run h₁).counted
  have hlength : s₁.broker.requests.entries.length =
      s.broker.requests.entries.length := by rw [hentries₁]
  obtain ⟨s₂, hrun₂, he₂, hentries₂, hall₂, hids₂⟩ :=
    all_delivered hduration _ s₁ h₁ he₁ rfl (by omega)
  have h₂ := run_unaided_trans h₁ hrun₂
  obtain ⟨t, hrun, hentries, hall, hempty⟩ := all_acknowledged hduration _ s₂ h₂
    he₂ hall₂ (Nat.le_refl _) hids₂
  have h₃ := run_unaided_trans h₂ hrun
  refine ⟨t, hrun₁.trans (hrun₂.trans hrun), ?_, hall, hempty, ?_⟩
  · rw [hentries, hentries₂, hentries₁]
  · -- nothing is waiting and nothing is pending, so everything is finished
    intro entry hmem
    obtain ⟨job, hjob⟩ := (drainable_of_run h₃).readable hmem
    have hdelivered : entry ∈
        t.broker.requests.entries.take t.broker.requests.delivered := by
      rw [hall, List.take_length]
      exact hmem
    have hkept := (queued_of_run h₃).kept hdelivered hjob
    rw [hempty] at hkept
    have hclosed := hkept.resolve_left (by rintro ⟨p, hp, _⟩; cases hp)
    exact ⟨job, hjob, hclosed, settled_of_closed h₃ hmem hjob hclosed⟩

/-- An engine crashes in the middle of its attempt, under a lease that is good
for another minute. The other one finishes the job. -/
theorem queue_drains_crashed :
    ∃ s t, Run (Sys.step sampleConfig) (fun _ l => l ≠ .foreign)
        (Sys.init 1000 [("e1", "m"), ("e2", "m")]) s ∧
      s.broker.requests.pending =
        [⟨⟨⟨1000, 0⟩, .job sampleJob⟩, "e1", 1000⟩] ∧
      Run (Sys.step sampleConfig) (fun s l => unaided 1 s.broker l = true) s t ∧
      t.broker.requests.pending = [] ∧ Closed t.broker "r" := by
  obtain ⟨s, hrun, hs⟩ := run_of_exec_map (Sys.step sampleConfig)
    (fun _ l => l ≠ .foreign) (fun _ l => decide (l ≠ .foreign))
    (Sys.init 1000 [("e1", "m"), ("e2", "m")])
    (dispatched ++ started 0 (sampleUuid 0) 1000 ++ [.engine 0 .crash])
    (fun s => (s.broker.requests.entries, s.broker.requests.pending,
      s.attempts, s.engines.length))
    (b := ([⟨⟨1000, 0⟩, .job sampleJob⟩],
      [⟨⟨⟨1000, 0⟩, .job sampleJob⟩, "e1", 1000⟩], [sampleUuid 0], 2))
    (fun _ _ hl => of_decide_eq_true hl) (by decide)
  simp only [Prod.mk.injEq] at hs
  obtain ⟨hentries, hpending, hattempts, hlength⟩ := hs
  obtain ⟨t, hdrain, hsame, _, hempty, hall⟩ := queue_drains sampleConfig
    (by decide) 1000 _ s hrun (by rw [hattempts, hentries]; decide) 1
    (by rw [hlength]; decide)
  obtain ⟨job, hjob, hclosed, _⟩ := hall ⟨⟨1000, 0⟩, .job sampleJob⟩
    (by rw [hsame, hentries]; exact List.mem_singleton_self _)
  cases hjob
  exact ⟨s, t, hrun, hpending, hdrain, hempty, hclosed⟩

end DataPlane.Proofs
