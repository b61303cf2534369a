import DataPlane.Proofs.EventIds
import DataPlane.Proofs.Settled

/-!
# No job is lost

An entry of the request stream is handed out once, stays pending with whoever
got it last, and leaves the group by an acknowledgement. Engines crash with
entries in hand, take over each other's, and acknowledge by id, without asking
whose entry it is. Still every job that was ever added is in exactly one of
three places: not handed out yet, pending, or acknowledged. It is acknowledged
only when it is finished, with a terminal event in a result stream that has a
time to live. A pending job may be finished too: there is a command between its
last event and its acknowledgement, and before that the engine may crash.

`Move` says too little about the group commands for this, so they get an
inversion of their own.
-/

namespace DataPlane.Proofs

open DataPlane DataPlane.Lib DataPlane.Ref

/-! ## What an engine does to the group -/

/-- The entry an engine holds. -/
def takenEntry (taken : ConsumedJob) : RequestEntry :=
  ⟨taken.entryId, .job taken.job⟩

inductive GroupMove (b b' : Broker) (e : Engine) (p : Phase) : Prop
  | still (hreq : b'.requests = b.requests)
      (hp : ∀ {taken step}, p = .working taken step →
        ∃ step', e.phase = .working taken step')
  | read {entry : RequestEntry}
      (hentry : b.requests.entries[b.requests.delivered]? = some entry)
      (hreq : b'.requests =
        { b.requests with
          delivered := b.requests.delivered + 1
          pending := b.requests.pending ++ [⟨entry, e.engineId, b.now⟩] })
      (hp : ∀ {taken step}, p = .working taken step → takenEntry taken = entry)
  | claim {position : Nat} {pending : Pending}
      (hpending : b.requests.pending[position]? = some pending)
      (hreq : b'.requests =
        { b.requests with
          pending := b.requests.pending.set position
            ⟨pending.entry, e.engineId, b.now⟩ })
      (hp : ∀ {taken step}, p = .working taken step →
        takenEntry taken = pending.entry)
  | acknowledge {taken : ConsumedJob}
      (hphase : e.phase = .working taken .acknowledge)
      (hreq : b'.requests = (b.acknowledge taken.entryId).requests)
      (hp : p = .polling)

theorem GroupMove.of_idle {b b' : Broker} {e : Engine} {p : Phase}
    (hreq : b'.requests = b.requests) (hp : Phase.Idle p) :
    GroupMove b b' e p :=
  .still hreq fun h => absurd h hp.ne_working

theorem takeFresh_entry {entry : RequestEntry} {taken : ConsumedJob}
    {step : JobStep} (h : takeFresh entry = .working taken step) :
    takenEntry taken = entry := by
  rcases takeFresh_spec entry with hidle | ⟨job, hjob, hp⟩
  · exact absurd h hidle.ne_working
  · rw [hp] at h
    cases h
    rw [takenEntry, ← hjob]

theorem takeStale_entry {entry : RequestEntry} {taken : ConsumedJob}
    {step : JobStep} (h : takeStale entry = .working taken step) :
    takenEntry taken = entry := by
  rcases takeStale_spec entry with hidle | ⟨job, hjob, hp⟩
  · exact absurd h hidle.ne_working
  · rw [hp] at h
    cases h
    rw [takenEntry, ← hjob]

/-- A move of an engine that has a job in hand, or keeps to having none. -/
theorem Move.groupMove {cfg : EngineConfig} {b b' : Broker} {e : Engine}
    {act : EngineAction} {p : Phase} (h : Move cfg b e act b' p)
    (hroam : Phase.Idle e.phase → GroupMove b b' e p) : GroupMove b b' e p := by
  cases h with
  | roam hphase _ _ => exact hroam hphase
  | take hphase _ _ _ => exact hroam hphase
  | crash => exact .of_idle rfl trivial
  | notAcquired _ => exact .of_idle rfl trivial
  | abandon _ _ hidle => exact .of_idle rfl hidle
  | renew hphase _ =>
      refine .still (by rw [renewLease_frame]) fun hp => ?_
      cases hp
      exact ⟨_, hphase⟩
  | release hphase =>
      refine .still (by rw [releaseLease_frame]) fun hp => ?_
      cases hp
      exact ⟨_, hphase⟩
  | acknowledge hphase => exact .acknowledge hphase rfl rfl
  | _ => exact .still rfl fun hp => by cases hp; exact ⟨_, ‹_›⟩

theorem engineStep_groupMove {cfg : EngineConfig} {b b' : Broker} {e : Engine}
    {act : EngineAction} {p : Phase}
    (h : engineStep cfg b e act = some (b', p)) : GroupMove b b' e p := by
  refine (engineStep_move h).groupMove fun hidle => ?_
  -- an engine without a job reads, claims, or does nothing to the group
  cases act <;> simp only [engineStep] at h
  case poll =>
    split at h
    · unfold Broker.readGroup at h
      split at h
      · next x b₂ hread =>
          cases h
          split at hread
          · cases hread
          · next entry hentry =>
              cases hread
              exact .read hentry rfl takeFresh_entry
      · cases h
        exact .of_idle rfl trivial
    · cases h
  case reclaim position =>
    split at h
    · cases h
      exact .of_idle rfl trivial
    · next k _ =>
        unfold Broker.autoClaim at h
        split at h
        · next x b₂ hclaim =>
            cases h
            split at hclaim
            · cases hclaim
            · next pending hpending =>
                split at hclaim
                · cases hclaim
                  exact .claim hpending rfl takeStale_entry
                · cases hclaim
        · cases h
    · cases h
  case reconnect | restart =>
    split at h
    · cases h
      exact .of_idle rfl trivial
    · cases h
  case fail message =>
    split at h
    · cases h; exact .of_idle rfl trivial
    · cases h; exact .of_idle rfl trivial
    · cases h; exact .of_idle rfl trivial
    · next hphase => exact absurd hphase hidle.ne_working
    · cases h
  case crash =>
    cases h
    exact .of_idle rfl trivial
  all_goals
    split at h
    all_goals first
      | cases h; done
      | next hphase => exact absurd hphase hidle.ne_working

/-! ## The group in every reachable state -/

/-- What holds of the request stream and its group. -/
structure Queued (s : Sys) : Prop where
  increasing : Increasing (·.entryId) s.broker.requests.entries
  counted : s.broker.requests.delivered ≤ s.broker.requests.entries.length
  pending : (s.broker.requests.pending.map (·.entry)).Sublist
    (s.broker.requests.entries.take s.broker.requests.delivered)
  taken : ∀ {i e taken step}, Busy s.engines i e taken step →
    takenEntry taken ∈ s.broker.requests.entries.take s.broker.requests.delivered
  kept : ∀ {entry job}, entry ∈
      s.broker.requests.entries.take s.broker.requests.delivered →
    entry.payload = .job job →
    (∃ p ∈ s.broker.requests.pending, p.entry = entry) ∨
      Closed s.broker job.requestId
  calls : ∀ {r job entryId}, s.calls r = some ⟨job, .queue entryId⟩ →
    ⟨entryId, .job job⟩ ∈ s.broker.requests.entries

theorem queued_init (now : Nat) (engines : List (String × String)) :
    Queued (Sys.init now engines) where
  increasing := List.Pairwise.nil
  counted := Nat.le_refl _
  pending := List.Sublist.refl _
  taken h := (not_busy_init h).elim
  kept h := by cases h
  calls h := by cases h

/-- The ids of the stream tell its entries apart. -/
theorem Queued.entry_inj {s : Sys} (h : Queued s) {x y : RequestEntry}
    (hx : x ∈ s.broker.requests.entries) (hy : y ∈ s.broker.requests.entries)
    (hid : x.entryId = y.entryId) : x = y := by
  by_contra hne
  have hpair := h.increasing
  rw [Increasing, List.pairwise_iff_forall_sublist] at hpair
  rcases List.append_of_mem hx with ⟨u, v, huv⟩
  rw [huv, List.mem_append, List.mem_cons] at hy
  rcases hy with hy | hy | hy
  · have hlt := hpair (a := y) (b := x) (by
      rw [huv]
      exact List.Sublist.append (List.singleton_sublist.mpr hy)
        ((List.nil_sublist v).cons_cons x))
    exact absurd hid (ne_of_gt hlt)
  · exact hne hy.symm
  · have hlt := hpair (a := x) (b := y) (by
      rw [huv]
      exact List.Sublist.trans ((List.singleton_sublist.mpr hy).cons_cons x)
        (List.sublist_append_right u _))
    exact absurd hid (ne_of_lt hlt)

/-- A step that leaves the request stream and the engines alone. -/
theorem Queued.of_same {s t : Sys} (h : Queued s)
    (hreq : t.broker.requests = s.broker.requests)
    (heng : t.engines = s.engines)
    (hclosed : ∀ {r}, Closed s.broker r → Closed t.broker r)
    (hcalls : ∀ {r job entryId}, t.calls r = some ⟨job, .queue entryId⟩ →
      s.calls r = some ⟨job, .queue entryId⟩) : Queued t where
  increasing := hreq ▸ h.increasing
  counted := hreq ▸ h.counted
  pending := hreq ▸ h.pending
  taken hb := by
    rw [heng] at hb
    rw [hreq]
    exact h.taken hb
  kept hmem hjob := by
    rw [hreq] at hmem ⊢
    exact (h.kept hmem hjob).imp_right hclosed
  calls hc := by
    rw [hreq]
    exact h.calls (hcalls hc)

/-- The id of a new request entry is larger than all before it. -/
theorem Queued.lt_new {s : Sys} (h : Queued s) {x : RequestEntry}
    (hx : x ∈ s.broker.requests.entries) :
    x.entryId < StreamId.next s.broker.now s.broker.lastRequestId := by
  obtain ⟨init, last, hlog⟩ : ∃ init last,
      s.broker.requests.entries = init ++ [last] :=
    ⟨_, _, (List.dropLast_append_getLast (List.ne_nil_of_mem hx)).symm⟩
  have hlast : s.broker.lastRequestId = last.entryId := by
    simp [Broker.lastRequestId, hlog]
  have hinc := h.increasing
  rw [hlog] at hinc hx
  rw [hlast]
  rcases List.mem_append.mp hx with hx | hx
  · have hlt := (List.pairwise_append.mp hinc).2.2 x hx last (by simp)
    exact hlt.trans (StreamId.lt_next _ _)
  · rw [List.mem_singleton.mp hx]
    exact StreamId.lt_next _ _

/-- An entry is added at the end, where nobody has been yet. -/
theorem Queued.of_append {s t : Sys} {payload : Payload} (h : Queued s)
    (hbroker : t.broker = (s.broker.appendRequest payload).2)
    (heng : t.engines = s.engines)
    (hcalls : ∀ {r job entryId}, t.calls r = some ⟨job, .queue entryId⟩ →
      s.calls r = some ⟨job, .queue entryId⟩ ∨
      (entryId = (s.broker.appendRequest payload).1 ∧
        payload = .job job)) : Queued t := by
  have hreq : t.broker.requests =
      { s.broker.requests with
        entries := s.broker.requests.entries ++
          [⟨StreamId.next s.broker.now s.broker.lastRequestId, payload⟩] } := by
    rw [hbroker]
    rfl
  have htake : t.broker.requests.entries.take t.broker.requests.delivered =
      s.broker.requests.entries.take s.broker.requests.delivered := by
    rw [hreq]
    exact List.take_append_of_le_length h.counted
  have hpend : t.broker.requests.pending = s.broker.requests.pending := by
    rw [hreq]
  refine ⟨?_, ?_, ?_, ?_, ?_, ?_⟩
  · rw [hreq]
    exact h.increasing.concat fun x hx => h.lt_new hx
  · rw [hreq]
    simp only [List.length_append]
    exact Nat.le_add_right_of_le h.counted
  · rw [htake, hpend]
    exact h.pending
  · intro i e taken step hb
    rw [heng] at hb
    rw [htake]
    exact h.taken hb
  · intro entry job hmem hjob
    rw [htake] at hmem
    rw [hpend]
    refine (h.kept hmem hjob).imp_right fun hc => ?_
    rw [hbroker]
    exact hc
  · intro r job entryId hc
    rw [hreq]
    rcases hcalls hc with hc | ⟨rfl, rfl⟩
    · exact List.mem_append_left _ (h.calls hc)
    · exact List.mem_append_right _ (List.mem_singleton_self _)

/-- Delivering one more entry. -/
theorem take_succ_of_getElem? {α : Type} {l : List α} {n : Nat} {x : α}
    (h : l[n]? = some x) : l.take (n + 1) = l.take n ++ [x] := by
  rw [List.take_add_one, h]
  rfl

theorem pending_entries_set {pending : List Pending} {k : Nat} {p : Pending}
    {consumer : String} {now : Nat} (h : pending[k]? = some p) :
    (pending.set k ⟨p.entry, consumer, now⟩).map (·.entry) =
      pending.map (·.entry) := by
  refine List.ext_getElem? fun j => ?_
  rw [List.getElem?_map, List.getElem?_map, List.getElem?_set]
  split
  · next hj =>
      subst hj
      obtain ⟨hlt, _⟩ := List.getElem?_eq_some_iff.mp h
      rw [if_pos hlt, h]
      rfl
  · rfl

/-- Being pending is a matter of the entries alone. -/
theorem exists_pending_iff {pending : List Pending} {entry : RequestEntry} :
    (∃ p ∈ pending, p.entry = entry) ↔ entry ∈ pending.map (·.entry) := by
  rw [List.mem_map]

/-- One engine has moved. -/
theorem Queued.of_groupMove {s t : Sys} {i : Nat} {e : Engine} {b : Broker}
    {p : Phase} (h : Queued s) (hA : Accounted s)
    (hi : s.engines[i]? = some e) (hmove : GroupMove s.broker b e p)
    (hbroker : t.broker = b)
    (heng : t.engines = s.engines.set i { e with phase := p })
    (hcalls : t.calls = s.calls)
    (hclosed : ∀ {r}, Closed s.broker r → Closed t.broker r) : Queued t := by
  subst hbroker
  -- an engine that did not move holds what it held
  have hbusy : ∀ {j x taken step}, Busy t.engines j x taken step →
      p = .working taken step ∨
        takenEntry taken ∈
          s.broker.requests.entries.take s.broker.requests.delivered := by
    intro j x taken step hb
    rw [heng] at hb
    rcases hb.of_set with ⟨_, _, hp⟩ | ⟨_, hb⟩
    · exact .inl hp
    · exact .inr (h.taken hb)
  cases hmove with
  | still hreq hp =>
      refine ⟨hreq ▸ h.increasing, hreq ▸ h.counted, hreq ▸ h.pending,
        fun hb => ?_, fun hmem hjob => ?_, fun hc => ?_⟩
      · rw [hreq]
        rcases hbusy hb with hphase | hmem
        · obtain ⟨step', hstep⟩ := hp hphase
          exact h.taken ⟨hi, hstep⟩
        · exact hmem
      · rw [hreq] at hmem ⊢
        exact (h.kept hmem hjob).imp_right hclosed
      · rw [hreq]
        rw [hcalls] at hc
        exact h.calls hc
  | read hentry hreq hp =>
      have htake := take_succ_of_getElem? hentry
      obtain ⟨hlt, _⟩ := List.getElem?_eq_some_iff.mp hentry
      refine ⟨hreq ▸ h.increasing, ?_, ?_, fun hb => ?_, fun hmem hjob => ?_,
        fun hc => ?_⟩
      · rw [hreq]
        exact hlt
      · rw [hreq, htake, List.map_append]
        exact h.pending.append (List.Sublist.refl _)
      · rw [hreq, htake]
        rcases hbusy hb with hphase | hmem
        · rw [hp hphase]
          exact List.mem_append_right _ (List.mem_singleton_self _)
        · exact List.mem_append_left _ hmem
      · rw [hreq, htake] at hmem
        rw [hreq]
        rcases List.mem_append.mp hmem with hmem | hmem
        · rcases h.kept hmem hjob with ⟨q, hq, hqe⟩ | hc
          · exact .inl ⟨q, List.mem_append_left _ hq, hqe⟩
          · exact .inr (hclosed hc)
        · rw [List.mem_singleton.mp hmem]
          exact .inl ⟨_, List.mem_append_right _ (List.mem_singleton_self _),
            rfl⟩
      · rw [hreq]
        rw [hcalls] at hc
        exact h.calls hc
  | claim hpending hreq hp =>
      refine ⟨hreq ▸ h.increasing, hreq ▸ h.counted, ?_, fun hb => ?_,
        fun hmem hjob => ?_, fun hc => ?_⟩
      · rw [hreq, pending_entries_set hpending]
        exact h.pending
      · rw [hreq]
        rcases hbusy hb with hphase | hmem
        · rw [hp hphase]
          exact h.pending.subset
            (List.mem_map_of_mem (List.mem_of_getElem? hpending))
        · exact hmem
      · rw [hreq] at hmem ⊢
        rw [exists_pending_iff, pending_entries_set hpending,
          ← exists_pending_iff]
        exact (h.kept hmem hjob).imp_right hclosed
      · rw [hreq]
        rw [hcalls] at hc
        exact h.calls hc
  | @acknowledge taken hphase hreq hp =>
      have hentries : t.broker.requests.entries = s.broker.requests.entries := by
        rw [hreq]; rfl
      have hdelivered :
          t.broker.requests.delivered = s.broker.requests.delivered := by
        rw [hreq]; rfl
      have hpend : t.broker.requests.pending =
          s.broker.requests.pending.filter
            (·.entry.entryId ≠ taken.entryId) := by
        rw [hreq]; rfl
      refine ⟨hentries ▸ h.increasing, hentries ▸ hdelivered ▸ h.counted, ?_,
        fun hb => ?_, fun hmem hjob => ?_, fun hc => ?_⟩
      · rw [hentries, hdelivered, hpend]
        exact ((List.filter_sublist).map _).trans h.pending
      · rw [hentries, hdelivered]
        rcases hbusy hb with hbad | hmem
        · rw [hp] at hbad
          cases hbad
        · exact hmem
      · rw [hentries, hdelivered] at hmem
        rw [hpend]
        rcases h.kept hmem hjob with ⟨q, hq, rfl⟩ | hc
        swap
        · exact .inr (hclosed hc)
        by_cases hid : q.entry.entryId = taken.entryId
        · -- the id is the acknowledged one, so it is the job just finished
          have hsame : q.entry = takenEntry taken :=
            h.entry_inj (List.mem_of_mem_take hmem)
              (List.mem_of_mem_take (h.taken ⟨hi, hphase⟩)) hid
          rw [hsame] at hjob
          cases hjob
          exact .inr (hclosed (hA.engines ⟨hi, hphase⟩))
        · exact .inl ⟨q, List.mem_filter.mpr ⟨hq, by simpa using hid⟩, rfl⟩
      · rw [hentries]
        rw [hcalls] at hc
        exact h.calls hc

/-- A call that moves on is not about to be queued, unless it was just
dispatched. -/
theorem calls_of_update {s : Sys} {r r' : String} {c : Call}
    {job : GenerationJob} {entryId : StreamId}
    (hstep : ∀ id, c.step ≠ .queue id)
    (h : (s.setCall r c).calls r' = some ⟨job, .queue entryId⟩) :
    s.calls r' = some ⟨job, .queue entryId⟩ := by
  rw [setCall_calls] at h
  rcases eq_or_ne r' r with rfl | hne
  · rw [Function.update_self] at h
    cases h
    exact absurd rfl (hstep entryId)
  · rw [Function.update_of_ne hne] at h
    exact h

/-- The step of the system that is a step of an engine. -/
theorem step_engine {cfg : SysConfig} {s t : Sys} {i : Nat} {act : EngineAction}
    (h : Sys.step cfg s (.engine i act) = some t) :
    ∃ e b p, s.engines[i]? = some e ∧
      engineStep cfg.engine s.broker e act = some (b, p) ∧
      t = { s with
        broker := b
        engines := s.engines.set i { e with phase := p }
        attempts := act.draws.toList ++ s.attempts } := by
  simp only [Sys.step] at h
  split at h
  · cases h
  · next e he =>
      split at h
      · cases h
      · unfold Sys.engineMove at h
        split at h
        · cases h
        · next b p hstep => cases h; exact ⟨e, b, p, he, hstep, rfl⟩

theorem queued_step {cfg : SysConfig} {s t : Sys} {l : Label} (hA : Accounted s)
    (hQ : Queued s) (h : Sys.step cfg s l = some t) : Queued t := by
  have hclosed : ∀ {r}, Closed s.broker r → Closed t.broker r :=
    fun hc => ((step_moves h).grown _).closed hc
  cases step_moves h with
  | engine _ _ _ =>
      obtain ⟨e, b, p, he, hstep, ht⟩ := step_engine h
      exact hQ.of_groupMove hA he (engineStep_groupMove hstep) (by rw [ht])
        (by rw [ht]) rfl hclosed
  | tick ms => exact hQ.of_same rfl rfl hclosed id
  | refused => exact hQ.of_same rfl rfl hclosed id
  | reserved => exact hQ.of_same rfl rfl hclosed (calls_of_update nofun)
  | @dispatch r job hcall =>
      refine hQ.of_append rfl rfl fun {r' job' entryId} hc => ?_
      rw [setCall_calls] at hc
      rcases eq_or_ne r' r with rfl | hne
      · rw [Function.update_self] at hc
        cases hc
        exact .inr ⟨rfl, rfl⟩
      · rw [Function.update_of_ne hne] at hc
        exact .inl hc
  | queue => exact hQ.of_same rfl rfl hclosed (calls_of_update nofun)
  | failDispatch => exact hQ.of_same rfl rfl hclosed (calls_of_update nofun)
  | cancelDispatch => exact hQ.of_same rfl rfl hclosed (calls_of_update nofun)
  | foreign => exact hQ.of_append rfl rfl fun hc => .inl hc

theorem queued_of_run {cfg : SysConfig} {ok : Sys → Label → Prop} {now : Nat}
    {engines : List (String × String)} {s : Sys}
    (h : Run (Sys.step cfg) ok (Sys.init now engines) s) : Queued s := by
  have hall := h.invariant (I := fun s => Sourced s ∧ Accounted s ∧ Queued s)
    ⟨sourced_init now engines, accounted_init now engines,
      queued_init now engines⟩
    fun ⟨hS, hA, hQ⟩ _ hstep => ⟨sourced_step hS (step_moves hstep),
      accounted_step hS hA (step_moves hstep), queued_step hA hQ hstep⟩
  exact hall.2.2

/-! ## No job is lost -/

/-- Where the entry at position `k` is. The three exclude one another: it has
not been handed out; it has, and is pending with one consumer; or it has, and
is not pending any more. Then its request has ended in a stream with a time to
live, and its reservation is settled. -/
inductive Kept (b : Broker) (k : Nat) (entry : RequestEntry)
    (job : GenerationJob) : Prop
  | waiting (hwaiting : b.requests.delivered ≤ k)
      (hnone : ∀ q ∈ b.requests.pending, q.entry ≠ entry)
  | pending (hdelivered : k < b.requests.delivered) (p : Pending)
      (hmem : p ∈ b.requests.pending) (hentry : p.entry = entry)
      (hunique : ∀ q ∈ b.requests.pending, q.entry = entry → q = p)
  | acknowledged (hdelivered : k < b.requests.delivered)
      (hnone : ∀ q ∈ b.requests.pending, q.entry ≠ entry)
      (hclosed : Closed b job.requestId) (hsettled : Settled b job)

/-- An entry is pending at most once. -/
theorem Queued.pending_unique {s : Sys} (h : Queued s) {p q : Pending}
    (hp : p ∈ s.broker.requests.pending) (hq : q ∈ s.broker.requests.pending)
    (heq : p.entry = q.entry) : p = q := by
  have hnodup : (s.broker.requests.pending.map (·.entry)).Nodup := by
    refine (h.pending.trans (List.take_sublist _ _)).nodup ?_
    exact h.increasing.imp fun hlt heq => absurd (heq ▸ hlt) (lt_irrefl _)
  exact List.inj_on_of_nodup_map hnodup hp hq heq

/-- A job whose request has ended has given its reservation up. -/
theorem settled_of_closed {cfg : SysConfig} {ok : Sys → Label → Prop}
    {now : Nat} {engines : List (String × String)} {s : Sys}
    (h : Run (Sys.step cfg) ok (Sys.init now engines) s) {entry : RequestEntry}
    {job : GenerationJob} (hmem : entry ∈ s.broker.requests.entries)
    (hjob : entry.payload = .job job) (hclosed : Closed s.broker job.requestId) :
    Settled s.broker job := by
  obtain ⟨stream, hstream, hend, _⟩ := hclosed
  obtain ⟨job', ⟨x, hcall', _⟩, hid, hs⟩ :=
    (accounted_of_run h).settled ⟨stream, hstream, hend⟩
  -- the request id determines the job
  obtain ⟨y, hcall, _⟩ := (sourced_of_run h).entries (.inl hmem) hjob
  rw [hid, hcall] at hcall'
  cases hcall'
  exact hs

/-- What has not been handed out is not pending. -/
theorem Queued.not_pending {s : Sys} (h : Queued s) {k : Nat}
    {entry : RequestEntry} (hk : s.broker.requests.entries[k]? = some entry)
    (hwaiting : s.broker.requests.delivered ≤ k) :
    ∀ q ∈ s.broker.requests.pending, q.entry ≠ entry := by
  rintro q hq rfl
  have hmem := h.pending.subset (List.mem_map_of_mem hq)
  obtain ⟨j, hj⟩ := List.getElem?_of_mem hmem
  obtain ⟨hlt, _⟩ := List.getElem?_eq_some_iff.mp hj
  rw [List.length_take] at hlt
  rw [List.getElem?_take_of_lt (by omega)] at hj
  have hnodup : s.broker.requests.entries.Nodup :=
    h.increasing.imp fun hlt heq => absurd (heq ▸ hlt) (lt_irrefl _)
  have hsame : j = k := by
    obtain ⟨hjlt, hjx⟩ := List.getElem?_eq_some_iff.mp hj
    obtain ⟨hklt, hkx⟩ := List.getElem?_eq_some_iff.mp hk
    exact (List.Nodup.getElem_inj_iff hnodup).mp (hjx.trans hkx.symm)
  omega

/-- No command takes an entry out of the stream. -/
theorem entries_of_step {cfg : SysConfig} {s t : Sys} {l : Label}
    (h : Sys.step cfg s l = some t) {entry : RequestEntry}
    (hmem : entry ∈ s.broker.requests.entries) :
    entry ∈ t.broker.requests.entries := by
  cases step_moves h with
  | engine _ _ _ =>
      obtain ⟨e, b, p, he, hstep, ht⟩ := step_engine h
      rw [ht]
      show entry ∈ b.requests.entries
      cases engineStep_groupMove hstep with
      | still hreq | read _ hreq | claim _ hreq => rw [hreq]; exact hmem
      | acknowledge _ hreq => rw [hreq]; exact hmem
  | dispatch | foreign => exact List.mem_append_left _ hmem
  | _ => exact hmem

theorem entries_of_run {cfg : SysConfig} {ok : Sys → Label → Prop} {s t : Sys}
    (h : Run (Sys.step cfg) ok s t) {entry : RequestEntry}
    (hmem : entry ∈ s.broker.requests.entries) :
    entry ∈ t.broker.requests.entries :=
  h.invariant (I := fun t => entry ∈ t.broker.requests.entries) hmem
    fun hI _ hstep => entries_of_step hstep hI

/-- The call whose status was written had its job in the stream. -/
theorem Queued.returned {cfg : SysConfig} {s t : Sys} {r : String}
    (h : Queued s) (hstep : Sys.step cfg s (.queue r) = some t) :
    ∃ job entryId, t.calls r = some ⟨job, .done⟩ ∧
      ⟨entryId, .job job⟩ ∈ t.broker.requests.entries := by
  simp only [Sys.step] at hstep
  split at hstep
  · next job entryId hcall =>
      cases hstep
      exact ⟨job, entryId, Function.update_self .., h.calls hcall⟩
  · cases hstep

/-- However engines crash, reclaim each other's entries and acknowledge them:
a job that was dispatched, by a call that may still be under way, is not yet
delivered, pending with exactly one consumer, or acknowledged, and then its
stream has ended, with a time to live, and its reservation is settled. A call
that has added its job has it in the stream, and one that has returned has it
there ever after. -/
theorem dispatched_never_lost (cfg : SysConfig) (now : Nat)
    (engines : List (String × String)) (s : Sys)
    (h : Run (Sys.step cfg) (fun _ _ => True) (Sys.init now engines) s) :
    (∀ k entry job, s.broker.requests.entries[k]? = some entry →
      entry.payload = .job job → Kept s.broker k entry job) ∧
    (∀ r job entryId, s.calls r = some ⟨job, .queue entryId⟩ →
      ⟨entryId, .job job⟩ ∈ s.broker.requests.entries) ∧
    (∀ r t u, Sys.step cfg s (.queue r) = some t →
      Run (Sys.step cfg) (fun _ _ => True) t u →
      ∃ job entryId, t.calls r = some ⟨job, .done⟩ ∧
        ⟨entryId, .job job⟩ ∈ u.broker.requests.entries) ∧
    Increasing (·.entryId) s.broker.requests.entries := by
  have hQ := queued_of_run h
  refine ⟨fun k entry job hk hjob => ?_, fun r job entryId hc => hQ.calls hc,
    fun r t u hstep hrun => ?_, hQ.increasing⟩
  · rcases Nat.lt_or_ge k s.broker.requests.delivered with hlt | hge
    · have hmem : entry ∈
          s.broker.requests.entries.take s.broker.requests.delivered :=
        List.mem_of_getElem? (i := k) (by rw [List.getElem?_take_of_lt hlt, hk])
      by_cases hpending : ∃ p ∈ s.broker.requests.pending, p.entry = entry
      · obtain ⟨p, hp, hpe⟩ := hpending
        exact .pending hlt p hp hpe fun q hq hqe =>
          hQ.pending_unique hq hp (hqe.trans hpe.symm)
      · have hclosed := (hQ.kept hmem hjob).resolve_left hpending
        exact .acknowledged hlt (fun q hq hqe => hpending ⟨q, hq, hqe⟩) hclosed
          (settled_of_closed h (List.mem_of_getElem? hk) hjob hclosed)
    · exact .waiting hge (hQ.not_pending hk hge)
  · obtain ⟨job, entryId, hdone, hmem⟩ := hQ.returned hstep
    exact ⟨job, entryId, hdone, entries_of_run hrun hmem⟩

/-- An engine crashes with the job in hand, and another one takes it over. -/
theorem dispatched_never_lost_reclaimed :
    ∃ s, Run (Sys.step sampleConfig) (fun _ _ => True)
        (Sys.init 1000 [("e1", "m"), ("e2", "m")]) s ∧
      s.broker.requests.pending =
        [⟨⟨⟨1000, 0⟩, .job sampleJob⟩, "e2", 91000⟩] ∧
      Kept s.broker 0 ⟨⟨1000, 0⟩, .job sampleJob⟩ sampleJob := by
  obtain ⟨s, hrun, hs⟩ := run_of_exec_map (Sys.step sampleConfig)
    (fun _ _ => True) (fun _ _ => true)
    (Sys.init 1000 [("e1", "m"), ("e2", "m")])
    (dispatched ++ [.engine 0 .crash, .tick 90000, .engine 1 .poll,
      .engine 1 (.reclaim (some 0))])
    (fun s => (s.broker.requests.entries, s.broker.requests.pending))
    (b := ([⟨⟨1000, 0⟩, .job sampleJob⟩],
      [⟨⟨⟨1000, 0⟩, .job sampleJob⟩, "e2", 91000⟩]))
    (fun _ _ _ => trivial) (by decide)
  obtain ⟨hentries, hpending⟩ := Prod.mk.inj hs
  refine ⟨s, hrun, hpending, ?_⟩
  exact (dispatched_never_lost sampleConfig 1000 _ s hrun).1 0 _ sampleJob
    (by rw [hentries]; rfl) rfl

end DataPlane.Proofs
