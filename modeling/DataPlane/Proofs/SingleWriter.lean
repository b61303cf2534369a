import DataPlane.Proofs.Leases
import DataPlane.Proofs.Settled

/-!
# One writer at a time

The result stream of a request should read like the log of one engine: events
of an attempt, then one terminal event, then nothing. Three things are meant to
see to it, the lease, the status and the order in which `run_job` uses them,
and between them they leave gaps. The lease is given back before the terminal
event is appended; the status says `completed` only after that; the status is
read before the lease is taken; and the deadline branch asks neither.

Each gap is a state in which an engine sets out to write although it should
not. The theorems here say that there are no others: a run that keeps out of
these states has the property, however its engines interleave, crash and lose
commands.
-/

namespace DataPlane.Proofs

open DataPlane DataPlane.Lib DataPlane.Ref

/-- The engine may still append an event for its request. -/
def writes : JobStep → Bool
  | .cancelExpired | .failExpired .append | .attempt _ _ | .release _ _
  | .settle _ _ | .conclude _ _ .append => true
  | _ => false

/-- It may, and is under no lease. -/
def writesUnleased : JobStep → Bool
  | .cancelExpired | .failExpired .append | .settle _ _
  | .conclude _ _ .append => true
  | _ => false

theorem leased_or_unleased {step : JobStep} (h : writes step = true) :
    (∃ a, leasedAttempt step = some a) ∨ writesUnleased step = true := by
  unfold writes at h
  split at h
  · exact .inr rfl
  · exact .inr rfl
  · exact .inl ⟨_, rfl⟩
  · exact .inl ⟨_, rfl⟩
  · exact .inr rfl
  · exact .inr rfl
  · cases h

/-- Some engine other than `i` is at such a step of its work on the request. -/
def elsewhere (s : Sys) (i : Nat) (requestId : String)
    (test : JobStep → Bool) : Bool :=
  (s.engines.eraseIdx i).any fun e =>
    match e.phase with
    | .working taken step => taken.job.requestId = requestId && test step
    | _ => false

theorem Busy.not_elsewhere {s : Sys} {i j : Nat} {e : Engine}
    {taken : ConsumedJob} {step : JobStep} {test : JobStep → Bool}
    (hb : Busy s.engines j e taken step) (hne : j ≠ i)
    (h : elsewhere s i taken.job.requestId test = false) :
    test step = false := by
  have hmem : e ∈ s.engines.eraseIdx i :=
    List.mem_eraseIdx_iff_getElem?.mpr ⟨j, hne, hb.1⟩
  have := List.any_eq_false.mp h e hmem
  simpa [hb.2] using this

/-- A terminal event is among the entries. -/
def ended (entries : List ResultEntry) : Bool :=
  entries.any (·.result.terminal)

/-- An engine sets out to write, by winning the lease or by taking the
deadline branch, only while the result stream has not ended and nobody else
still writes. The lease itself keeps out those who are under it. -/
def entersAlone (s : Sys) : Label → Bool
  | .engine i (.acquireLease _) =>
      match s.engines[i]? with
      | some ⟨_, _, .working taken .acquire⟩ =>
          (s.broker.lease.live s.broker.now taken.job.requestId).isSome ||
            (!ended (s.broker.resultLog taken.job.requestId) &&
              !elsewhere s i taken.job.requestId writesUnleased)
      | _ => true
  | .engine i (.testDeadline unixMs) =>
      match s.engines[i]? with
      | some ⟨_, _, .working taken .start⟩ =>
          !deadlinePassed taken.job unixMs ||
            (!ended (s.broker.resultLog taken.job.requestId) &&
              !elsewhere s i taken.job.requestId writes)
      | _ => true
  | _ => true

/-- Nothing comes after a terminal event. -/
def TerminalLast (entries : List ResultEntry) : Prop :=
  ∀ pre x post, entries = pre ++ x :: post → x.result.terminal = true →
    post = []

theorem terminalLast_append {entries : List ResultEntry} (y : ResultEntry)
    (h : ended entries = false) : TerminalLast (entries ++ [y]) := by
  intro pre x post heq hx
  rcases List.eq_nil_or_concat' post with rfl | ⟨init, z, rfl⟩
  · rfl
  · have hsnoc : entries ++ [y] = (pre ++ x :: init) ++ [z] := by
      simpa using heq
    have hmem : x ∈ entries := by
      rw [(List.append_inj' hsnoc rfl).1]
      simp
    exact absurd hx (List.any_eq_false.mp h x hmem)

theorem TerminalLast.flags {entries : List ResultEntry}
    (h : TerminalLast entries) {p q : List Bool}
    (hflags : entries.map (·.result.terminal) = p ++ true :: q) : q = [] := by
  obtain ⟨pre, rest, rfl, _, hrest⟩ := List.map_eq_append_iff.mp hflags
  obtain ⟨x, post, rfl, hx, hpost⟩ := List.map_eq_cons_iff.mp hrest
  rw [h pre x post rfl hx] at hpost
  exact hpost.symm

theorem terminalLast_nil : TerminalLast [] := by
  intro pre x post h _
  cases pre <;> cases h

/-- Of the engines on one request at most one writes, none does after the
stream has ended, and the stream ends with its terminal event. -/
structure OneWriter (s : Sys) : Prop where
  alone : ∀ {i j e x taken taken' step step'}, Busy s.engines i e taken step →
    Busy s.engines j x taken' step' → writes step = true →
    writes step' = true → taken.job.requestId = taken'.job.requestId → i = j
  unended : ∀ {i e taken step}, Busy s.engines i e taken step →
    writes step = true → ended (s.broker.resultLog taken.job.requestId) = false
  last : ∀ r, TerminalLast (s.broker.resultLog r)

/-! ## What a step does to a stream -/

/-- What a reader sees under a key only changes by being extended, or by going
away. -/
theorem resultLog_later (b : Broker) (later : Nat) (hle : b.now ≤ later)
    (r : String) :
    { b with now := later }.resultLog r = b.resultLog r ∨
      { b with now := later }.resultLog r = [] := by
  show (b.results.get later r).getD [] = (b.results.get b.now r).getD [] ∨
    (b.results.get later r).getD [] = []
  cases h : b.results.get later r with
  | none => exact .inr rfl
  | some v => rw [Keyspace.get_of_le hle h]; exact .inl rfl

theorem resultLog_recordResult (b : Broker) (cfg : StreamsConfig)
    (res : GenerationResult) (eventId : StreamId) (r : String) :
    (b.recordResult cfg res eventId).resultLog r = b.resultLog r ∨
      (b.recordResult cfg res eventId).resultLog r = [] := by
  rcases eq_or_ne r res.requestId with rfl | hne
  · simp only [Broker.resultLog, Keyspace.get, recordResult_now,
      recordResult_results, Keyspace.live_expire_self]
    cases b.results.live b.now res.requestId with
    | none => exact .inr rfl
    | some c =>
        rw [Option.map_some, Option.filter_some]
        split
        · exact .inl rfl
        · exact .inr rfl
  · simp [Broker.resultLog, Keyspace.get, hne]

/-- What a move of an engine does to the stream of a request: nothing, or it
sees it expire, or it is a writer and adds to it. An engine that has added a
terminal event writes no more. -/
inductive LogEffect (b b' : Broker) (e : Engine) (p : Phase) (r : String) :
    Prop
  | same (hlog : b'.resultLog r = b.resultLog r)
  | gone (hlog : b'.resultLog r = [])
  | extended {taken : ConsumedJob} {step : JobStep} (entry : ResultEntry)
      (hphase : e.phase = .working taken step) (hw : writes step = true)
      (hid : taken.job.requestId = r)
      (hlog : b'.resultLog r = b.resultLog r ++ [entry])
      (hstop : entry.result.terminal = true → ∀ {taken' step'},
        p = .working taken' step' → writes step' = false)

theorem LogEffect.append {b : Broker} {e : Engine} {p : Phase}
    {taken : ConsumedJob} {step : JobStep} {res : GenerationResult}
    (hphase : e.phase = .working taken step) (hw : writes step = true)
    (hid : res.requestId = taken.job.requestId)
    (hstop : res.terminal = true → ∀ {taken' step'},
      p = .working taken' step' → writes step' = false) (r : String) :
    LogEffect b (b.appendResult res).2 e p r := by
  rcases eq_or_ne r res.requestId with rfl | hne
  · exact .extended (newEntry b res) hphase hw hid.symm
      (resultLog_appendResult b res) hstop
  · exact .same (resultLog_appendResult_ne b res hne)

theorem Move.log {cfg : EngineConfig} {b b' : Broker} {e : Engine}
    {act : EngineAction} {p : Phase} (h : Move cfg b e act b' p)
    (hplain : ∀ {taken a event x},
      e.phase = .working taken (.attempt a (.publish event x)) →
      event.terminal = false) (r : String) : LogEffect b b' e p r := by
  cases h with
  | roam _ hb _ => rw [hb.frame]; exact .same rfl
  | take _ hb _ _ => rw [hb.frame]; exact .same rfl
  | failAppend hphase =>
      exact .append hphase rfl rfl (by rintro _ _ _ hp; cases hp; rfl) r
  | concludeAppend hphase =>
      exact .append hphase rfl (conclusion_requestId _ _ _)
        (by rintro _ _ _ hp; cases hp; rfl) r
  | append hphase =>
      refine .append hphase rfl rfl (fun hterm => ?_) r
      rw [resultOf_terminal, hplain hphase] at hterm
      cases hterm
  | failRecord _ | record _ | concludeRecord _ =>
      rcases resultLog_recordResult b _ _ _ r with h | h
      · exact .same h
      · exact .gone h
  | renew _ _ => rw [renewLease_frame]; exact .same rfl
  | release _ => rw [releaseLease_frame]; exact .same rfl
  | _ => exact .same rfl

/-- A writer was one before, or has just set out. -/
theorem Move.writer {cfg : EngineConfig} {b b' : Broker} {e : Engine}
    {act : EngineAction} {p : Phase} {taken : ConsumedJob} {step : JobStep}
    (h : Move cfg b e act b' p) (hp : p = .working taken step)
    (hw : writes step = true) :
    (∃ step', e.phase = .working taken step' ∧ writes step' = true) ∨
    (∃ a, act = .acquireLease a ∧ e.phase = .working taken .acquire ∧
      b.lease.live b.now taken.job.requestId = none ∧
      ∀ r, b'.resultLog r = b.resultLog r) ∨
    (∃ unixMs, act = .testDeadline unixMs ∧ e.phase = .working taken .start ∧
      deadlinePassed taken.job unixMs = true ∧ b' = b) := by
  cases h with
  | roam _ _ hidle | abandon _ _ hidle => exact absurd hp hidle.ne_working
  | take _ _ _ htakes => obtain ⟨job, _, rfl⟩ := htakes; cases hp; cases hw
  | crash | notAcquired | acknowledge => cases hp
  | expired hphase hpassed =>
      cases hp
      exact .inr (.inr ⟨_, rfl, hphase, hpassed, rfl⟩)
  | acquired hphase _ hfree =>
      cases hp
      exact .inr (.inl ⟨_, rfl, hphase, hfree, fun _ => rfl⟩)
  | renew hphase _ => cases hp; exact .inl ⟨_, hphase, hw⟩
  | cancelExpired hphase | entered hphase | token hphase | ended hphase
  | append hphase | record hphase | release hphase | settle hphase =>
      cases hp; exact .inl ⟨_, hphase, rfl⟩
  | _ => cases hp; cases hw

/-! ## The invariant -/

theorem oneWriter_init (now : Nat) (engines : List (String × String)) :
    OneWriter (Sys.init now engines) where
  alone hb := (not_busy_init hb).elim
  unended hb := (not_busy_init hb).elim
  last _ := terminalLast_nil

/-- An engine that sets out finds an unended stream and no other writer. -/
theorem enters {cfg : SysConfig} {s : Sys} {i : Nat} {e : Engine}
    {act : EngineAction} {b : Broker} {p : Phase} {taken : ConsumedJob}
    {step : JobStep} (hL : Leased cfg s)
    (hok : entersAlone s (.engine i act) = true)
    (hi : s.engines[i]? = some e)
    (hmove : Move cfg.engine s.broker e act b p)
    (hp : p = .working taken step) (hw : writes step = true) :
    (∃ step', e.phase = .working taken step' ∧ writes step' = true) ∨
    (b.resultLog taken.job.requestId =
        s.broker.resultLog taken.job.requestId ∧
      ended (s.broker.resultLog taken.job.requestId) = false ∧
      ∀ {j x taken' step'}, j ≠ i → Busy s.engines j x taken' step' →
        taken'.job.requestId = taken.job.requestId → writes step' = false) := by
  obtain ⟨engineId, model, phase⟩ := e
  rcases hmove.writer hp hw with h | ⟨a, rfl, hphase, hfree, hlog⟩ |
    ⟨unixMs, rfl, hphase, hpassed, rfl⟩
  · exact .inl h
  · dsimp only at hphase
    subst hphase
    simp only [entersAlone, hi, hfree, Option.isSome_none, Bool.false_or,
      Bool.and_eq_true, Bool.not_eq_true'] at hok
    refine .inr ⟨hlog _, hok.1, fun hne hb hid => ?_⟩
    refine Bool.eq_false_iff.mpr fun hw' => ?_
    rcases leased_or_unleased hw' with ⟨a', ha'⟩ | hun
    · -- Under a lease, but the key was free.
      have := hL.held hb ha'
      rw [hid, Keyspace.get, hfree] at this
      cases this
    · have hnone := hok.2
      rw [← hid] at hnone
      rw [hb.not_elsewhere hne hnone] at hun
      cases hun
  · dsimp only at hphase
    subst hphase
    simp only [entersAlone, hi, hpassed, Bool.not_true, Bool.false_or,
      Bool.and_eq_true, Bool.not_eq_true'] at hok
    refine .inr ⟨rfl, hok.1, fun hne hb hid => ?_⟩
    have hnone := hok.2
    rw [← hid] at hnone
    exact hb.not_elsewhere hne hnone

theorem ended_append_false {entries : List ResultEntry} {y : ResultEntry}
    (h : ended entries = false) (hy : y.result.terminal = false) :
    ended (entries ++ [y]) = false := by
  simp only [ended, List.any_append, List.any_cons, List.any_nil, hy,
    Bool.or_false]
  exact h

theorem oneWriter_move {cfg : SysConfig} {s : Sys} {i : Nat} {e : Engine}
    {act : EngineAction} {b : Broker} {p : Phase} {attempts : List Uuid}
    (hS : Sourced s) (hL : Leased cfg s) (hI : OneWriter s)
    (hok : entersAlone s (.engine i act) = true)
    (hi : s.engines[i]? = some e)
    (hmove : Move cfg.engine s.broker e act b p) :
    OneWriter { s with
      broker := b
      engines := s.engines.set i { e with phase := p }
      attempts := attempts } := by
  have hlog := hmove.log fun hphase => hS.plain ⟨hi, hphase⟩
  -- Against the engine that moved, nobody else is a writer.
  have hsole : ∀ {j x taken taken' step step'}, j ≠ i →
      p = .working taken step → writes step = true →
      Busy s.engines j x taken' step' →
      taken'.job.requestId = taken.job.requestId → writes step' = false := by
    intro j x taken taken' step step' hne hp hw hb hid
    rcases enters hL hok hi hmove hp hw with ⟨y, hphase, hy⟩ | ⟨_, _, hothers⟩
    · refine Bool.eq_false_iff.mpr fun hw' => hne ?_
      exact hI.alone hb ⟨hi, hphase⟩ hw' hy hid
    · exact hothers hne hb hid
  refine ⟨fun hb hx hw hw' hid => ?_, fun hb hw => ?_, fun r => ?_⟩
  · rcases hb.of_set with ⟨hj, _, hp⟩ | ⟨hne, hold⟩ <;>
      rcases hx.of_set with ⟨hj', _, hq⟩ | ⟨hne', hold'⟩
    · rw [hj, hj']
    · rw [hsole hne' hp hw hold' hid.symm] at hw'
      cases hw'
    · rw [hsole hne hq hw' hold hid] at hw
      cases hw
    · exact hI.alone hold hold' hw hw' hid
  · rename_i j x taken step
    -- A writer's stream was unended before the move.
    have hbefore : ended (s.broker.resultLog taken.job.requestId) = false := by
      rcases hb.of_set with ⟨_, _, hp⟩ | ⟨_, hold⟩
      · rcases enters hL hok hi hmove hp hw with ⟨y, hphase, hy⟩ | ⟨_, h, _⟩
        · exact hI.unended ⟨hi, hphase⟩ hy
        · exact h
      · exact hI.unended hold hw
    show ended (b.resultLog taken.job.requestId) = false
    cases hlog taken.job.requestId with
    | same h => rw [h]; exact hbefore
    | gone h => rw [h]; rfl
    | extended entry hphase hwrote hid h hstop =>
        rw [h]
        refine ended_append_false hbefore (Bool.eq_false_iff.mpr fun hterm => ?_)
        rcases hb.of_set with ⟨_, _, hp⟩ | ⟨hne, hold⟩
        · rw [hstop hterm hp] at hw
          cases hw
        · exact hne (hI.alone hold ⟨hi, hphase⟩ hw hwrote hid.symm)
  · show TerminalLast (b.resultLog r)
    cases hlog r with
    | same h => rw [h]; exact hI.last r
    | gone h => rw [h]; exact terminalLast_nil
    | extended entry hphase hwrote hid h _ =>
        rw [h]
        refine terminalLast_append entry ?_
        rw [← hid]
        exact hI.unended ⟨hi, hphase⟩ hwrote

theorem oneWriter_step {cfg : SysConfig} {s t : Sys} {l : Label}
    (hS : Sourced s) (hL : Leased cfg s) (hI : OneWriter s)
    (hok : entersAlone s l = true) (h : Moves cfg s l t) : OneWriter t := by
  cases h with
  | tick ms =>
      have hlog := resultLog_later s.broker (s.broker.now + ms)
        (Nat.le_add_right _ _)
      refine ⟨hI.alone, fun hb hw => ?_, fun r => ?_⟩
      · rcases hlog _ with h | h
        · exact (congrArg ended h).trans (hI.unended hb hw)
        · exact congrArg ended h
      · rcases hlog r with h | h
        · exact h ▸ hI.last r
        · exact h ▸ terminalLast_nil
  | engine hi _ hmove => exact oneWriter_move hS hL hI hok hi hmove
  | _ => exact ⟨hI.alone, hI.unended, hI.last⟩

/-- The stream of every request ends with its terminal event, and so has at
most one, in every run in which no lease runs out under its owner and every
engine that sets out to write finds an unended stream and no other writer. -/
theorem terminal_is_last (cfg : SysConfig) (now : Nat)
    (engines : List (String × String)) (s : Sys)
    (h : Run (Sys.step cfg)
      (fun s l => leaseKept s l = true ∧ entersAlone s l = true)
      (Sys.init now engines) s) (r : String) :
    TerminalLast (s.broker.resultLog r) := by
  have hI := h.invariant
    (I := fun s => Sourced s ∧ Leased cfg s ∧ OneWriter s)
    ⟨sourced_init now engines, leased_init cfg now engines,
      oneWriter_init now engines⟩
    fun ⟨hS, hL, hO⟩ hok hstep =>
      have hm := step_moves hstep
      ⟨sourced_step hS hm, leased_step hL hok.1 hm,
        oneWriter_step hS hL hO hok.2 hm⟩
  exact hI.2.2.last r

def sampleUuid (n : Nat) : Uuid :=
  if n = 0 then ⟨"00000000-0000-4000-8000-000000000000", by decide⟩
  else ⟨"00000000-0000-4000-8000-000000000001", by decide⟩

/-- Engine `i` goes from the deadline test to where it generates. -/
def started (i : Nat) (a : Uuid) (unixMs : Nat) : List Label :=
  [.engine i (.testDeadline unixMs), .engine i .command,
    .engine i (.acquireLease a), .engine i .enterAttempt, .engine i .command,
    .engine i .command]

/-- It finishes and gives the lease back. -/
def released (i : Nat) : List Label :=
  [.engine i (.finish ⟨10, 20, ""⟩), .engine i .command]

/-- It settles the reservation and publishes the completion. -/
def concluded (i : Nat) : List Label :=
  [.engine i .command, .engine i .command, .engine i .command]

/-- The terminal flags of the entries a reader sees. -/
def terminals (s : Sys) (requestId : String) : List Bool :=
  (s.broker.resultLog requestId).map (·.result.terminal)

/-- The first engine crashes in the middle of its attempt. The second reclaims
the entry when the lease has run out, and finishes. -/
theorem terminal_is_last_undisturbed :
    ∃ s, Run (Sys.step sampleConfig)
        (fun s l => leaseKept s l = true ∧ entersAlone s l = true)
        (Sys.init 1000 [("e1", "m"), ("e2", "m")]) s ∧
      terminals s "r" = [false, false, true] ∧
      TerminalLast (s.broker.resultLog "r") := by
  obtain ⟨s, hrun, hs⟩ := run_of_exec_map (Sys.step sampleConfig)
    (fun s l => leaseKept s l = true ∧ entersAlone s l = true)
    (fun s l => leaseKept s l && entersAlone s l)
    (Sys.init 1000 [("e1", "m"), ("e2", "m")])
    (dispatched ++ started 0 (sampleUuid 0) 1000 ++
      [.engine 0 .crash, .tick 90000, .engine 1 .poll,
        .engine 1 (.reclaim (some 0))] ++
      started 1 (sampleUuid 1) 91000 ++ released 1 ++
      .tick 1000 :: concluded 1)
    (fun s => terminals s "r") (b := [false, false, true])
    (fun _ _ h => by simpa using h) (by decide)
  exact ⟨s, hrun, hs, terminal_is_last sampleConfig 1000 _ s hrun "r"⟩

/-- An engine completes the request and crashes before the acknowledgement.
The entry is reclaimed after the deadline has passed, and the second engine
appends its failure behind the completion. -/
theorem terminal_not_last_expired :
    ∃ s, Run (Sys.step sampleConfig) (fun s l => leaseKept s l = true)
        (Sys.init 1000 [("e1", "m"), ("e2", "m")]) s ∧
      ¬ TerminalLast (s.broker.resultLog "r") := by
  obtain ⟨s, hrun, hs⟩ := run_of_exec_map (Sys.step sampleConfig)
    (fun s l => leaseKept s l = true) leaseKept
    (Sys.init 1000 [("e1", "m"), ("e2", "m")])
    (dispatched ++ started 0 (sampleUuid 0) 1000 ++ released 0 ++ concluded 0 ++
      [.engine 0 .crash, .tick 400000, .engine 1 .poll,
        .engine 1 (.reclaim (some 0)), .engine 1 (.testDeadline 401000),
        .engine 1 .command, .engine 1 .command])
    (fun s => terminals s "r") (b := [false, true, true])
    (fun _ _ h => h) (by decide)
  refine ⟨s, hrun, fun hlast => ?_⟩
  cases hlast.flags (p := [false]) hs

end DataPlane.Proofs
