import DataPlane.Proofs.Windows
import DataPlane.Spec.Settling
import Mathlib.Data.List.Perm.Basic

/-!
# One minute's accounts

All calls of a minute, and refunds on their way between two locks. A refund
that has been taken out and not yet been made is still counted: the admission
it belongs to is unsettled, and weighs what was reserved. That is why the
counter always has room for it, and why no subtraction saturates.
-/

namespace DataPlane.Proofs

open DataPlane DataPlane.Lib DataPlane.Ref DataPlane.Spec
open InMemoryQuotaLimiter (currentWindow)

variable {limiter : InMemoryQuotaLimiter} {history : List Admitted}
  {minute : Nat}

/-! ## The two halves -/

/-- `reconcile` is its two halves, one after the other. -/
theorem reconcile_eq_halves (limiter : InMemoryQuotaLimiter) (id : Uuid)
    (actual : Nat) :
    limiter.reconcile id actual =
      match limiter.reservations id with
      | none => (.error .reservationNotFound, limiter)
      | some q =>
          if q.reservedGeneratedTokens - actual = 0 then
            (.ok 0, limiter.removeReservation id)
          else
            (.ok (q.reservedGeneratedTokens - actual),
              (limiter.removeReservation id).applyRefund q.apiKey
                (q.reservedGeneratedTokens - actual)) := by
  unfold InMemoryQuotaLimiter.reconcile
  cases limiter.reservations id with
  | none => rfl
  | some q =>
      dsimp only
      split
      · rfl
      · unfold InMemoryQuotaLimiter.applyRefund
          InMemoryQuotaLimiter.removeReservation
        dsimp only
        cases limiter.state q.apiKey <;> rfl

theorem applyRefund_known {key : String} {w : WindowCounters}
    (hw : limiter.state key = some w) (refund : Nat) :
    limiter.applyRefund key refund =
      { limiter with
        state := Function.update limiter.state key
          (some (refundWindow w refund)) } := by
  unfold InMemoryQuotaLimiter.applyRefund
  rw [hw]
  rfl

/-- To refund nothing is to do nothing. -/
theorem applyRefund_zero (limiter : InMemoryQuotaLimiter) (key : String) :
    limiter.applyRefund key 0 = limiter := by
  cases hw : limiter.state key with
  | none =>
      unfold InMemoryQuotaLimiter.applyRefund
      rw [hw]
  | some w =>
      have hsame : refundWindow w 0 = w := rfl
      rw [applyRefund_known hw, hsame, ← hw, Function.update_eq_self]

/-! ## The counters of a key -/

/-- A counter of a key; one that has no window yet has nothing counted. -/
def counterIn (limiter : InMemoryQuotaLimiter) (key : String) (d : Dimension) :
    Nat :=
  ((limiter.state key).map fun w => countOf w d).getD 0

theorem counterIn_of_some {key : String} {w : WindowCounters}
    (hw : limiter.state key = some w) (d : Dimension) :
    counterIn limiter key d = countOf w d := by
  rw [counterIn, hw]
  rfl

/-- The state of one minute: every window is at it, and so is every
admission. -/
structure InMinute (minute : Nat) (state : String → Option WindowCounters)
    (history : List Admitted) : Prop where
  tracked : Tracked state history minute
  opened : ∀ {key w}, state key = some w → w.windowStartEpochMinute = minute
  minutes : ∀ {a}, a ∈ history → a.minute = minute

theorem InMinute.currentWindow_eq (hI : InMinute minute limiter.state history)
    {key : String} {w : WindowCounters} (hw : limiter.state key = some w) :
    currentWindow (limiter.state key) minute = w := by
  rw [hw]
  exact currentWindow_of_start (hI.opened hw)

/-- A reserve sees the counters as they are. -/
theorem InMinute.countOf_currentWindow
    (hI : InMinute minute limiter.state history) (key : String)
    (d : Dimension) :
    countOf (currentWindow (limiter.state key) minute) d =
      counterIn limiter key d := by
  cases hw : limiter.state key with
  | none =>
      rw [countOf_currentWindow_of_ne (fun w hw' => by cases hw'), counterIn,
        hw]
      rfl
  | some w =>
      rw [← hw, hI.currentWindow_eq hw, counterIn_of_some hw]

/-- The counters of a key are the totals of its admissions. -/
theorem counterIn_eq_totalIn (hI : InMinute minute limiter.state history)
    (hbooked : Booked limiter history) (key : String) (d : Dimension) :
    counterIn limiter key d = totalIn d history key minute := by
  rw [← hI.countOf_currentWindow,
    hbooked.currentWindow (hI.tracked.continues key)]

theorem InMinute.reserve (hI : InMinute minute limiter.state history)
    (hbooked : Booked limiter history) (id : Uuid) (check : QuotaCheck) :
    InMinute minute (limiter.reserve minute id check).2.state
      (recordReserve history minute id check
        (limiter.reserve minute id check).1) where
  tracked := tracked_reserve hbooked.within hI.tracked id check
  opened := by
    intro key w hw
    rcases reserve_cases hbooked.within minute id check with
      ⟨e, he⟩ | ⟨_, q, _, _, hq⟩
    · rw [he] at hw
      exact state_update_start currentWindow_start hI.opened hw
    · rw [hq] at hw
      exact state_update_start (chargeWindow_currentWindow_start check)
        hI.opened hw
  minutes := by
    intro a ha
    rcases reserve_cases hbooked.within minute id check with
      ⟨e, he⟩ | ⟨_, q, _, _, hq⟩
    · rw [he] at ha
      exact hI.minutes ha
    · rw [hq] at ha
      rcases List.mem_append.mp ha with ha | ha
      · exact hI.minutes ha
      · rw [List.mem_singleton.mp ha]

theorem InMinute.settle (hI : InMinute minute limiter.state history)
    {key : String} {w : WindowCounters} (hw : limiter.state key = some w)
    (refund : Nat) (id : Uuid) (o : Outcome) :
    InMinute minute
      (Function.update limiter.state key (some (refundWindow w refund)))
      (history.map (Admitted.settle id o)) where
  tracked := hI.tracked.settle hw refund id o
  opened := by
    intro key' w' hw'
    have hstart : (refundWindow w refund).windowStartEpochMinute = minute :=
      (refundWindow_start w refund).trans (hI.opened hw)
    exact state_update_start hstart hI.opened hw'
  minutes := by
    intro x hx
    obtain ⟨a, ha, rfl⟩ := List.mem_map.mp hx
    rw [Admitted.settle_minute]
    exact hI.minutes ha

/-! ## Where a reservation is -/

/-- The reservations for which a settlement has begun. -/
def begun (s : SettlingState) : List Uuid :=
  s.refunds.map (·.id) ++ s.refunded

/-- A reservation is in the map, or its refund is under way, or it has been
made. In the first two cases the admission is unsettled, and it is the only
one of its name. -/
structure Placed (s : SettlingState) : Prop where
  known : ∀ {id q}, s.limiter.reservations id = some q →
    ∃ a ∈ s.history, a.id = id ∧ a.outcome = .unsettled ∧
      a.apiKey = q.apiKey ∧ a.reserved = q.reservedGeneratedTokens
  flying : ∀ {r}, r ∈ s.refunds → ∃ a ∈ s.history, a.id = r.id ∧
    a.outcome = .unsettled ∧ a.apiKey = r.apiKey ∧
    ∃ actual, LeavesAt r.outcome actual ∧ r.amount = a.reserved - actual
  distinct : (s.history.map (·.id)).Nodup
  drawn : ∀ {a}, a ∈ s.history → a.id ∈ s.drawn
  once : (begun s).Nodup
  gone : ∀ {id}, id ∈ begun s → s.limiter.reservations id = none ∧ id ∈ s.drawn

/-- What the interleaving keeps: the books, the minute, and where every
reservation is. -/
structure Balanced (minute : Nat) (s : SettlingState) : Prop where
  booked : Booked s.limiter s.history
  inMinute : InMinute minute s.limiter.state s.history
  placed : Placed s

theorem balanced_init (limits : QuotaLimits) (minute : Nat) :
    Balanced minute (.init limits) where
  booked := booked_new limits
  inMinute :=
    { tracked :=
        { past := by intro a ha; cases ha
          clock := by intro key w hw; cases hw }
      opened := by intro key w hw; cases hw
      minutes := by intro a ha; cases ha }
  placed :=
    { known := by intro id q hq; cases hq
      flying := by intro r hr; cases hr
      distinct := List.nodup_nil
      drawn := by intro a ha; cases ha
      once := List.nodup_nil
      gone := by intro id hid; cases hid }

theorem Placed.reserve {s : SettlingState} {id : Uuid} {check : QuotaCheck}
    (hI : Placed s) (hwithin : Within s.limiter) (hfresh : id ∉ s.drawn) :
    Placed { s with
      limiter := (s.limiter.reserve minute id check).2
      drawn := id :: s.drawn
      history := recordReserve s.history minute id check
        (s.limiter.reserve minute id check).1 } := by
  rcases reserve_cases hwithin minute id check with
    ⟨e, he⟩ | ⟨_, q, hkey, hgen, hq⟩
  · rw [he]
    exact
      { known := hI.known
        flying := hI.flying
        distinct := hI.distinct
        drawn := fun ha => List.mem_cons_of_mem id (hI.drawn ha)
        once := hI.once
        gone := fun hid =>
          ⟨(hI.gone hid).1, List.mem_cons_of_mem id (hI.gone hid).2⟩ }
  · rw [hq]
    exact
      { known := by
          intro id' q' hq'
          dsimp only at hq'
          by_cases heq : id' = id
          · rw [heq, Function.update_self] at hq'
            cases hq'
            exact ⟨_, List.mem_append_right _ List.mem_cons_self, heq.symm, rfl,
              hkey.symm, hgen.symm⟩
          · rw [Function.update_of_ne heq] at hq'
            obtain ⟨a, ha, hrest⟩ := hI.known hq'
            exact ⟨a, List.mem_append_left _ ha, hrest⟩
        flying := by
          intro r hr
          obtain ⟨a, ha, hrest⟩ := hI.flying hr
          exact ⟨a, List.mem_append_left _ ha, hrest⟩
        distinct := distinct_admit hI.distinct hI.drawn hfresh
        drawn := by
          intro a ha
          rcases List.mem_append.mp ha with ha | ha
          · exact List.mem_cons_of_mem id (hI.drawn ha)
          · rw [List.mem_singleton.mp ha]
            exact List.mem_cons_self
        once := hI.once
        gone := by
          intro id' hid
          obtain ⟨hnone, hdrawn⟩ := hI.gone hid
          have hne : id' ≠ id := fun heq => hfresh (heq ▸ hdrawn)
          refine ⟨?_, List.mem_cons_of_mem id hdrawn⟩
          dsimp only
          rw [Function.update_of_ne hne]
          exact hnone }

theorem Balanced.reserve {s : SettlingState} {id : Uuid} {check : QuotaCheck}
    (hI : Balanced minute s) (hfresh : id ∉ s.drawn) :
    Balanced minute { s with
      limiter := (s.limiter.reserve minute id check).2
      drawn := id :: s.drawn
      history := recordReserve s.history minute id check
        (s.limiter.reserve minute id check).1 } where
  booked := booked_reserve id hI.booked
    (hI.inMinute.tracked.continues check.apiKey)
  inMinute := hI.inMinute.reserve hI.booked id check
  placed := hI.placed.reserve hI.booked.within hfresh

/-! ## A settlement -/

/-- A refund goes to a window of the admission's own minute, so the counters
stay the totals. -/
theorem refund_balanced {a : Admitted} {o : Outcome} {actual : Nat}
    (hbooked : Booked limiter history)
    (hmin : InMinute minute limiter.state history)
    (hnd : (history.map (·.id)).Nodup) (ha : a ∈ history)
    (hopen : a.outcome = .unsettled) (ho : LeavesAt o actual) :
    Booked (limiter.applyRefund a.apiKey (a.reserved - actual))
        (history.map (Admitted.settle a.id o)) ∧
      InMinute minute
        (limiter.applyRefund a.apiKey (a.reserved - actual)).state
        (history.map (Admitted.settle a.id o)) := by
  obtain ⟨w, hw, _⟩ := hmin.tracked.past ha
  have htime : w.windowStartEpochMinute = a.minute :=
    (hmin.opened hw).trans (hmin.minutes ha).symm
  rw [applyRefund_known hw]
  exact ⟨hbooked.settle ho ha hopen hnd hw fun _ => .inl htime,
    hmin.settle hw _ _ _⟩

/-- An admission is settled: its reservation is gone, and so is its refund. -/
theorem Placed.settled {s : SettlingState} (hI : Placed s) {id : Uuid}
    {o : Outcome} {limiter : InMemoryQuotaLimiter} {refunds : List Refund}
    (hkept : ∀ id' q, limiter.reservations id' = some q →
      id' ≠ id ∧ s.limiter.reservations id' = some q)
    (hrefunds : ∀ r ∈ refunds, r.id ≠ id ∧ r ∈ s.refunds)
    (honce : (refunds.map (·.id) ++ id :: s.refunded).Nodup)
    (hgone : ∀ id' ∈ refunds.map (·.id) ++ id :: s.refunded,
      limiter.reservations id' = none ∧ id' ∈ s.drawn) :
    Placed ⟨limiter, refunds, s.drawn, s.history.map (Admitted.settle id o),
      id :: s.refunded⟩ where
  known := by
    intro id' q hq
    obtain ⟨hne, hq⟩ := hkept id' q hq
    obtain ⟨a, ha, hid, hrest⟩ := hI.known hq
    exact ⟨a, mem_map_settle_of_ne ha (hid ▸ hne), hid, hrest⟩
  flying := by
    intro r hr
    obtain ⟨hne, hr⟩ := hrefunds r hr
    obtain ⟨a, ha, hid, hrest⟩ := hI.flying hr
    exact ⟨a, mem_map_settle_of_ne ha (hid ▸ hne), hid, hrest⟩
  distinct := by
    rw [map_settle_id]
    exact hI.distinct
  drawn := by
    intro x hx
    obtain ⟨a, ha, rfl⟩ := List.mem_map.mp hx
    rw [Admitted.settle_id]
    exact hI.drawn ha
  once := honce
  gone := fun hid => hgone _ hid

/-- Taking a reservation out leaves the others in. -/
theorem removeReservation_some {id id' : Uuid}
    {q : InMemoryQuotaLimiter.QuotaReservation}
    (h : (limiter.removeReservation id).reservations id' = some q) :
    id' ≠ id ∧ limiter.reservations id' = some q := by
  unfold InMemoryQuotaLimiter.removeReservation at h
  dsimp only at h
  by_cases heq : id' = id
  · rw [heq, Function.update_self] at h
    cases h
  · rw [Function.update_of_ne heq] at h
    exact ⟨heq, h⟩

theorem removeReservation_none {id id' : Uuid}
    (h : id' = id ∨ limiter.reservations id' = none) :
    (limiter.removeReservation id).reservations id' = none := by
  cases hq : (limiter.removeReservation id).reservations id' with
  | none => rfl
  | some q =>
      obtain ⟨hne, hq⟩ := removeReservation_some hq
      rcases h with h | h
      · exact absurd h hne
      · rw [h] at hq
        cases hq

/-- A settlement that begins is not one that has begun. -/
theorem Placed.not_begun {s : SettlingState} (hI : Placed s) {id : Uuid}
    {q : InMemoryQuotaLimiter.QuotaReservation}
    (hq : s.limiter.reservations id = some q) : id ∉ begun s := by
  intro hid
  rw [(hI.gone hid).1] at hq
  cases hq

/-- After it has begun, its reservation is gone as well. -/
theorem Placed.gone_cons {s : SettlingState} (hI : Placed s) {id : Uuid}
    {q : InMemoryQuotaLimiter.QuotaReservation}
    (hq : s.limiter.reservations id = some q) {id' : Uuid}
    (hid : id' ∈ id :: begun s) :
    (s.limiter.removeReservation id).reservations id' = none ∧
      id' ∈ s.drawn := by
  rcases List.mem_cons.mp hid with rfl | hid
  · obtain ⟨a, ha, rfl, _⟩ := hI.known hq
    exact ⟨removeReservation_none (.inl rfl), hI.drawn ha⟩
  · obtain ⟨hnone, hdrawn⟩ := hI.gone hid
    exact ⟨removeReservation_none (.inr hnone), hdrawn⟩

/-- A reservation is taken out and its refund is under way. -/
theorem Placed.takeOut {s : SettlingState} (hI : Placed s) {id : Uuid}
    {q : InMemoryQuotaLimiter.QuotaReservation}
    (hq : s.limiter.reservations id = some q) {actual : Nat} {o : Outcome}
    (ho : LeavesAt o actual) :
    Placed { s with
      limiter := s.limiter.removeReservation id
      refunds := s.refunds ++
        [⟨id, q.apiKey, q.reservedGeneratedTokens - actual, o⟩] } where
  known := by
    intro id' q' hq'
    exact hI.known (removeReservation_some hq').2
  flying := by
    intro r hr
    rcases List.mem_append.mp hr with hr | hr
    · exact hI.flying hr
    · rw [List.mem_singleton.mp hr]
      obtain ⟨a, ha, hid, hopen, hkey, hgen⟩ := hI.known hq
      exact ⟨a, ha, hid, hopen, hkey, actual, ho, by rw [hgen]⟩
  distinct := hI.distinct
  drawn := hI.drawn
  once := by
    rw [begun, List.map_append, List.append_assoc]
    refine List.perm_middle.nodup_iff.mpr ?_
    exact List.nodup_cons.mpr ⟨hI.not_begun hq, hI.once⟩
  gone := by
    intro id' hid
    rw [begun, List.map_append, List.append_assoc] at hid
    exact hI.gone_cons hq (List.perm_middle.mem_iff.mp hid)

/-- A reservation is taken out and there is nothing to refund. -/
theorem Placed.takeOutSettled {s : SettlingState} (hI : Placed s) {id : Uuid}
    {q : InMemoryQuotaLimiter.QuotaReservation}
    (hq : s.limiter.reservations id = some q) (o : Outcome) :
    Placed { s with
      limiter := s.limiter.removeReservation id
      history := s.history.map (Admitted.settle id o)
      refunded := id :: s.refunded } := by
  have hnew := hI.not_begun hq
  refine hI.settled (fun _ _ => removeReservation_some) ?_ ?_ ?_
  · intro r hr
    refine ⟨fun heq => hnew ?_, hr⟩
    exact List.mem_append_left _ (heq ▸ List.mem_map_of_mem hr)
  · refine List.perm_middle.nodup_iff.mpr ?_
    exact List.nodup_cons.mpr ⟨hnew, hI.once⟩
  · intro id' hid
    exact hI.gone_cons hq (List.perm_middle.mem_iff.mp hid)

/-- The first half of a settlement. -/
theorem Balanced.beginSettlement {s : SettlingState} (hI : Balanced minute s)
    (id : Uuid) {actual : Nat} {o : Outcome} (ho : LeavesAt o actual) :
    Balanced minute (beginSettlement s id actual o) := by
  have hbooked : Booked (s.limiter.removeReservation id) s.history :=
    ⟨hI.booked.within, hI.booked.counted, hI.booked.bounded⟩
  unfold Spec.beginSettlement
  cases hq : s.limiter.reservations id with
  | none => exact hI
  | some q =>
      dsimp only
      split
      · next hzero =>
          obtain ⟨a, ha, rfl, hopen, hkey, hgen⟩ := hI.placed.known hq
          have hrefund := refund_balanced hbooked hI.inMinute
            hI.placed.distinct ha hopen ho
          rw [hgen, hzero, applyRefund_zero] at hrefund
          exact ⟨hrefund.1, hrefund.2, hI.placed.takeOutSettled hq o⟩
      · exact ⟨hbooked, hI.inMinute, hI.placed.takeOut hq ho⟩

theorem applyRefund_reservations (key : String) (refund : Nat) :
    (limiter.applyRefund key refund).reservations = limiter.reservations := by
  unfold InMemoryQuotaLimiter.applyRefund
  split <;> rfl

theorem applyRefund_limits (key : String) (refund : Nat) :
    (limiter.applyRefund key refund).limits = limiter.limits := by
  unfold InMemoryQuotaLimiter.applyRefund
  split <;> rfl

/-- The second half. -/
theorem Balanced.finishSettlement {s t : SettlingState}
    (hI : Balanced minute s) {position : Nat}
    (h : finishSettlement s position = some t) : Balanced minute t := by
  unfold Spec.finishSettlement at h
  split at h
  · cases h
  · next r hr =>
      cases h
      have hmem := List.mem_of_getElem? hr
      obtain ⟨a, ha, hid, hopen, hkey, actual, ho, hamount⟩ :=
        hI.placed.flying hmem
      have hrefund := refund_balanced hI.booked hI.inMinute
        hI.placed.distinct ha hopen ho
      rw [hid, hkey, ← hamount] at hrefund
      -- The refund moves from those under way to those made.
      have hlist : (r :: s.refunds.eraseIdx position).Perm s.refunds := by
        obtain ⟨hlt, rfl⟩ := List.getElem?_eq_some_iff.mp hr
        exact List.getElem_cons_eraseIdx_perm hlt
      have hperm : ((s.refunds.eraseIdx position).map (·.id) ++
          r.id :: s.refunded).Perm (begun s) :=
        List.perm_middle.trans
          ((hlist.map Refund.id).append_right s.refunded)
      refine ⟨hrefund.1, hrefund.2, hI.placed.settled ?_ ?_ ?_ ?_⟩
      · intro id' q hq
        rw [applyRefund_reservations] at hq
        refine ⟨fun heq => ?_, hq⟩
        have hbegun : r.id ∈ begun s :=
          List.mem_append_left _ (List.mem_map_of_mem hmem)
        rw [heq, (hI.placed.gone hbegun).1] at hq
        cases hq
      · intro r' hr'
        have hnd := hperm.nodup_iff.mpr hI.placed.once
        rw [List.nodup_append] at hnd
        exact ⟨hnd.2.2 _ (List.mem_map_of_mem hr') _ List.mem_cons_self,
          List.mem_of_mem_eraseIdx hr'⟩
      · exact hperm.nodup_iff.mpr hI.placed.once
      · intro id' hid'
        rw [applyRefund_reservations]
        exact hI.placed.gone (hperm.mem_iff.mp hid')

/-! ## All runs -/

theorem balanced_step {s t : SettlingState} {l : SettlingStep}
    (hI : Balanced minute s) (h : settlingStep minute s l = some t) :
    Balanced minute t := by
  cases l with
  | reserve id check =>
      simp only [settlingStep] at h
      split at h
      · cases h
      · next hfresh =>
          cases h
          exact hI.reserve hfresh
  | reconcile id actual =>
      cases h
      exact hI.beginSettlement id (leavesAt_reconciled actual)
  | cancel id =>
      cases h
      exact hI.beginSettlement id leavesAt_cancelled
  | refund position => exact hI.finishSettlement h

theorem beginSettlement_limits (s : SettlingState) (id : Uuid) (actual : Nat)
    (o : Outcome) :
    (beginSettlement s id actual o).limiter.limits = s.limiter.limits := by
  unfold Spec.beginSettlement
  split
  · rfl
  · dsimp only
    split <;> rfl

theorem settling_limits {s t : SettlingState} {l : SettlingStep}
    (hI : Balanced minute s) (h : settlingStep minute s l = some t) :
    t.limiter.limits = s.limiter.limits := by
  cases l with
  | reserve id check =>
      simp only [settlingStep] at h
      split at h
      · cases h
      · cases h
        exact reserve_limits hI.booked.within minute id check
  | reconcile id actual => cases h; exact beginSettlement_limits s _ _ _
  | cancel id => cases h; exact beginSettlement_limits s _ _ _
  | refund position =>
      simp only [settlingStep, finishSettlement] at h
      split at h
      · cases h
      · cases h
        exact applyRefund_limits _ _

/-- A refund under way is part of what the counter counts. -/
theorem refund_le_counterIn {s : SettlingState} (hI : Balanced minute s)
    {r : Refund} (hr : r ∈ s.refunds) :
    r.amount ≤ counterIn s.limiter r.apiKey .generated := by
  obtain ⟨a, ha, _, hopen, hkey, actual, _, hamount⟩ := hI.placed.flying hr
  have hshare := share_le_totalIn ha r.apiKey minute .generated
  rw [Admitted.share, if_pos ⟨hkey, hI.inMinute.minutes ha⟩, Admitted.weight,
    hopen] at hshare
  rw [counterIn_eq_totalIn hI.inMinute hI.booked]
  dsimp only at hshare
  omega

/-- What a reserve does to the counters, by its answer. -/
theorem counterIn_reserve {s : SettlingState} (hI : Balanced minute s)
    (id : Uuid) (check : QuotaCheck) (key : String) (d : Dimension) :
    counterIn (s.limiter.reserve minute id check).2 key d =
      match (s.limiter.reserve minute id check).1 with
      | .error _ => counterIn s.limiter key d
      | .ok _ =>
          counterIn s.limiter key d +
            if check.apiKey = key then askedOf check d else 0 := by
  have hcur := hI.inMinute.countOf_currentWindow key d
  rcases reserve_cases hI.booked.within minute id check with
    ⟨e, he⟩ | ⟨_, q, _, _, hq⟩
  · rw [he]
    by_cases hk : check.apiKey = key
    · subst hk
      rw [counterIn_of_some (Function.update_self ..), hcur]
    · unfold counterIn
      dsimp only
      rw [Function.update_of_ne fun h => hk h.symm]
  · rw [hq]
    dsimp only
    by_cases hk : check.apiKey = key
    · subst hk
      rw [counterIn_of_some (Function.update_self ..), countOf_chargeWindow,
        hcur, if_pos rfl]
    · rw [if_neg hk, Nat.add_zero]
      unfold counterIn
      dsimp only
      rw [Function.update_of_ne fun h => hk h.symm]

/-- Whatever the order of the calls of one minute and of the halves of its
settlements: the counters are the totals of the admissions, an admission being
weighed by its use once its refund has been made and by its reservation until
then; they are within the limits, nothing added to them makes more than a word,
and every refund under way can be taken from them. No reservation is refunded
twice, and a refusal changes no counter. -/
theorem accounting_in_window (limits : QuotaLimits)
    (hlimits : ∀ d, limitOf limits d < 2 ^ 64) (minute : Nat)
    (s : SettlingState)
    (h : Run (settlingStep minute) (fun _ _ => True) (.init limits) s) :
    (∀ key d, counterIn s.limiter key d = totalIn d s.history key minute) ∧
      (∀ key d, counterIn s.limiter key d ≤ limitOf limits d) ∧
      (∀ id check q, (s.limiter.reserve minute id check).1 = .ok q → ∀ d,
        counterIn s.limiter check.apiKey d + askedOf check d < 2 ^ 64 ∧
        counterIn (s.limiter.reserve minute id check).2 check.apiKey d =
          counterIn s.limiter check.apiKey d + askedOf check d) ∧
      (∀ r ∈ s.refunds, r.amount ≤ counterIn s.limiter r.apiKey .generated) ∧
      s.refunded.Nodup ∧
      (∀ id check e, (s.limiter.reserve minute id check).1 = .error e →
        ∀ key d, counterIn (s.limiter.reserve minute id check).2 key d =
          counterIn s.limiter key d) := by
  obtain ⟨hI, hsame⟩ : Balanced minute s ∧ s.limiter.limits = limits := by
    refine h.invariant
      (I := fun s => Balanced minute s ∧ s.limiter.limits = limits)
      ⟨balanced_init limits minute, rfl⟩ ?_
    intro s t l hI _ hstep
    exact ⟨balanced_step hI.1 hstep, (settling_limits hI.1 hstep).trans hI.2⟩
  refine ⟨?_, ?_, ?_, ?_, ?_, ?_⟩
  · intro key d
    exact counterIn_eq_totalIn hI.inMinute hI.booked key d
  · intro key d
    rw [counterIn_eq_totalIn hI.inMinute hI.booked, ← hsame]
    exact hI.booked.bounded key minute d
  · intro id check q hq d
    have hcount := counterIn_reserve hI id check check.apiKey d
    rw [hq] at hcount
    dsimp only at hcount
    rw [if_pos rfl] at hcount
    refine ⟨?_, hcount⟩
    rcases reserve_cases hI.booked.within minute id check with
      ⟨e, he⟩ | ⟨hfit, _, _, _, _⟩
    · rw [he] at hq
      cases hq
    · have hle := hfit d
      rw [hI.inMinute.countOf_currentWindow, hsame] at hle
      exact Nat.lt_of_le_of_lt hle (hlimits d)
  · intro r hr
    exact refund_le_counterIn hI hr
  · exact (List.nodup_append.mp hI.placed.once).2.1
  · intro id check e he key d
    have hcount := counterIn_reserve hI id check key d
    rw [he] at hcount
    exact hcount

/-- Two settlements under way at the same time, a reserve in between and one
that is refused, and the refunds in the other order. -/
def refundsOverlap : List SettlingStep :=
  [.reserve (endingIn 'a') ⟨"key", 10, 40⟩,
    .reserve (endingIn 'b') ⟨"key", 20, 10⟩, .reconcile (endingIn 'a') 12,
    .cancel (endingIn 'b'), .reserve (endingIn 'c') ⟨"key", 10, 1⟩, .refund 1,
    .reserve (endingIn 'd') ⟨"key", 10, 5⟩, .reconcile (endingIn 'a') 3,
    .refund 0, .reconcile (endingIn 'd') 7]

theorem accounting_in_window_overlap :
    ∃ s, Run (settlingStep 7) (fun _ _ => True) (.init ⟨10, 100, 50⟩) s ∧
      s.refunded = [endingIn 'd', endingIn 'a', endingIn 'b'] ∧
      counterIn s.limiter "key" .generated = 17 ∧
      totalIn .generated s.history "key" 7 = 17 ∧ s.refunded.Nodup := by
  obtain ⟨s, hrun, hs⟩ := run_of_exec_map (settlingStep 7) (fun _ _ => True)
    (fun _ _ => true) (.init ⟨10, 100, 50⟩) refundsOverlap
    (fun s => (s.refunded, counterIn s.limiter "key" .generated))
    (b := ([endingIn 'd', endingIn 'a', endingIn 'b'], 17))
    (fun _ _ _ => trivial) (by decide)
  obtain ⟨htotal, _, _, _, honce, _⟩ := accounting_in_window ⟨10, 100, 50⟩
    (fun d => by cases d <;> decide) 7 s hrun
  rw [Prod.mk.injEq] at hs
  refine ⟨s, hrun, hs.1, hs.2, ?_, honce⟩
  rw [← htotal]
  exact hs.2

end DataPlane.Proofs
