import DataPlane.Proofs.Conservation
import Mathlib.Algebra.BigOperators.Group.Finset.Basic
import Mathlib.Algebra.Order.BigOperators.Group.Finset
import Mathlib.Order.Interval.Finset.Nat

/-!
# The limits over the whole history

The counters of a bucket live for two minutes behind the last admission, and a
bucket is a minute of the frontends' clocks. So whether a bucket can be opened
twice, and admit twice its limit, is a question about clocks: about that of the
server, which times the keys out, and those of the frontends, which choose the
bucket. As long as they are within half a minute of each other it cannot, and
the limits hold of everything ever admitted and not refunded. They also hold,
three times over, of any sixty seconds at the server. What has been refunded
may be admitted again, so nothing is said of the sum of all that was admitted.

To say so the ledger that forgets with its bucket is accompanied by one that
forgets nothing.
-/

namespace DataPlane.Proofs

open DataPlane DataPlane.Lib DataPlane.Ref DataPlane.Spec

/-- The quota and everything that was ever admitted, bucket by bucket. -/
structure QuotaHistory where
  state : QuotaState
  ever : Ledger

/-- No call has been made. -/
def QuotaHistory.empty (now : Nat) : QuotaHistory :=
  ⟨.empty now, fun _ => []⟩

/-- What a call adds to the history, or settles in it. -/
def recordEver (sha256 : String → String) (limits : QuotaLimits)
    (h : QuotaHistory) : QuotaCall → Ledger
  | .tick _ => h.ever
  | .reserve id apiKey unixMs promptTokens generatedTokens =>
      match (reserveQuota sha256 limits h.state.db h.state.now id unixMs apiKey
          promptTokens generatedTokens).1 with
      | .ok _ => h.ever.admit (sha256 apiKey, unixMs / 60000) false
          ⟨id, promptTokens, generatedTokens,
            h.state.now + reservationTtlMs, .unsettled⟩
      | .error _ => h.ever
  | .reconcile id actual => h.ever.settle id h.state.now (.reconciled actual)
  | .cancel id => h.ever.settle id h.state.now .cancelled

/-- A call, with what it adds to the history. -/
def historyStep (sha256 : String → String) (limits : QuotaLimits)
    (h : QuotaHistory) (call : QuotaCall) : Option QuotaHistory :=
  (quotaStep sha256 limits h.state call).map fun t =>
    ⟨t, recordEver sha256 limits h call⟩

/-- The clock a reserve was called with is within half a minute of the
server's. -/
def KeepsTime (h : QuotaHistory) : QuotaCall → Prop
  | .reserve _ _ unixMs _ _ =>
      unixMs ≤ h.state.now + 30000 ∧ h.state.now ≤ unixMs + 30000
  | _ => True

/-- When a reservation was admitted, by the server's clock. -/
def admittedAt (c : Charge) : Nat := c.expiresAt - reservationTtlMs

/-! ## Nothing is forgotten -/

/-- The ledger is the history, and the charges of a bucket were admitted around
its minute. -/
structure Remembered (limits : QuotaLimits) (h : QuotaHistory) : Prop where
  conserved : Conserved limits h.state
  whole : h.ever = h.state.ledger
  timely : ∀ {b c}, c ∈ h.ever b →
    b.2 * 60000 + reservationTtlMs ≤ c.expiresAt + 30000 ∧
      c.expiresAt < b.2 * 60000 + 90000 + reservationTtlMs

theorem remembered_empty (limits : QuotaLimits) (now : Nat) :
    Remembered limits (.empty now) where
  conserved := conserved_empty limits now
  whole := rfl
  timely hc := by cases hc

/-- A settlement changes no admission. -/
theorem Remembered.settle {limits : QuotaLimits} {h : QuotaHistory}
    {t : QuotaState} {id : String} {now : Nat} {o : Outcome}
    (hR : Remembered limits h) (hc : Conserved limits t)
    (ht : t.ledger = h.state.ledger.settle id now o) :
    Remembered limits ⟨t, h.ever.settle id now o⟩ := by
  refine ⟨hc, ?_, fun {b c} hmem => ?_⟩
  · rw [ht, hR.whole]
  · obtain ⟨x, hx, rfl⟩ := List.mem_map.mp hmem
    rw [Charge.settle_expiresAt]
    exact hR.timely hx

/-- A bucket that is still written to has not lost its counters. -/
theorem Remembered.not_reopened {limits : QuotaLimits} {h : QuotaHistory}
    (hR : Remembered limits h) {b : Bucket}
    (hnow : h.state.now < b.2 * 60000 + 90000) :
    standing h.state b = h.ever b := by
  rw [hR.whole, standing]
  cases hget : h.state.db.counters.get h.state.now (keyOf b .requests) with
  | some v => rfl
  | none =>
      have hall : h.state.ledger b = [] := by
        rcases hR.conserved.bucket b with ⟨_, hover⟩ | ⟨deadline, hlive, _⟩
        · -- a charge that is over was admitted two minutes ago, but the
          -- minute of the bucket began later than that
          rw [List.eq_nil_iff_forall_not_mem]
          intro c hc
          have hover := hover c hc
          have htimely := (hR.timely (hR.whole ▸ hc)).1
          simp only [reservationTtlMs] at htimely
          omega
        · rw [Keyspace.get, hlive .requests] at hget
          cases hget
      rw [hall]
      rfl

theorem Remembered.reserve {sha256 : String → String} {limits : QuotaLimits}
    {h : QuotaHistory} {t : QuotaState} {id apiKey : String}
    {unixMs promptTokens generatedTokens : Nat} (hR : Remembered limits h)
    (htime : KeepsTime h
      (.reserve id apiKey unixMs promptTokens generatedTokens))
    (hc : Conserved limits t)
    (hstep : quotaStep sha256 limits h.state
      (.reserve id apiKey unixMs promptTokens generatedTokens) = some t) :
    Remembered limits ⟨t, recordEver sha256 limits h
      (.reserve id apiKey unixMs promptTokens generatedTokens)⟩ := by
  obtain ⟨hahead, hbehind⟩ := htime
  simp only [quotaStep] at hstep
  split at hstep
  · cases hstep
  · split at hstep
    · next q db hq =>
        cases hstep
        have hsame : standing h.state (sha256 apiKey, unixMs / 60000) =
            h.ever (sha256 apiKey, unixMs / 60000) :=
          hR.not_reopened (by simp only; omega)
        have hnew : recordEver sha256 limits h
            (.reserve id apiKey unixMs promptTokens generatedTokens) =
            Function.update h.ever (sha256 apiKey, unixMs / 60000)
              (h.ever (sha256 apiKey, unixMs / 60000) ++
                [newCharge h.state id promptTokens generatedTokens]) := by
          simp only [recordEver, hq]
          rfl
        refine ⟨hc, ?_, fun {b c} hmem => ?_⟩
        · have hadmit := admit_eq h.state (sha256 apiKey, unixMs / 60000)
            (newCharge h.state id promptTokens generatedTokens)
          rw [hsame] at hadmit
          rw [hR.whole] at hnew hadmit
          exact hnew.trans hadmit.symm
        · replace hmem : c ∈ recordEver sha256 limits h
            (.reserve id apiKey unixMs promptTokens generatedTokens) b := hmem
          rw [hnew] at hmem
          by_cases hb : b = (sha256 apiKey, unixMs / 60000)
          · subst hb
            rw [Function.update_self] at hmem
            rcases List.mem_append.mp hmem with hmem | hmem
            · exact hR.timely hmem
            · rw [List.mem_singleton.mp hmem]
              simp only [newCharge]
              omega
          · rw [Function.update_of_ne hb] at hmem
            exact hR.timely hmem
    · next e db hq =>
        cases hstep
        refine ⟨hc, ?_, fun {b c} hmem => ?_⟩
        · simp only [recordEver, hq]
          exact hR.whole
        · simp only [recordEver, hq] at hmem
          exact hR.timely hmem

theorem remembered_step {sha256 : String → String} {limits : QuotaLimits}
    (hl : Exact limits) {h h' : QuotaHistory} {call : QuotaCall}
    (hR : Remembered limits h) (htime : KeepsTime h call)
    (hstep : historyStep sha256 limits h call = some h') :
    Remembered limits h' := by
  obtain ⟨t, ht, rfl⟩ := Option.map_eq_some_iff.mp hstep
  have hc := quotaStep_conserved hl hR.conserved ht
  cases call with
  | tick ms =>
      cases ht
      exact ⟨hc, hR.whole, hR.timely⟩
  | reserve id apiKey unixMs promptTokens generatedTokens =>
      exact hR.reserve htime hc ht
  | reconcile id actual => cases ht; exact hR.settle hc rfl
  | cancel id => cases ht; exact hR.settle hc rfl

/-! ## Any sixty seconds -/

theorem total_filter_le (d : Dimension) (p : Charge → Bool) (cs : List Charge) :
    total d (cs.filter p) ≤ total d cs := by
  induction cs with
  | nil => exact Nat.le_refl _
  | cons c cs ih =>
      rw [List.filter_cons]
      split
      · rw [total_cons, total_cons]
        omega
      · rw [total_cons]
        omega

/-- The charges admitted in the sixty seconds from `T` on. -/
def within (T : Nat) (cs : List Charge) : List Charge :=
  cs.filter fun c => decide (T ≤ admittedAt c ∧ admittedAt c < T + 60000)

/-- They are in one of three buckets. -/
theorem Remembered.bucket_of_within {limits : QuotaLimits} {h : QuotaHistory}
    (hR : Remembered limits h) {T : Nat} {b : Bucket} {c : Charge}
    (hc : c ∈ within T (h.ever b)) :
    (T - 30000) / 60000 ≤ b.2 ∧ b.2 < (T - 30000) / 60000 + 3 := by
  obtain ⟨hmem, hin⟩ := List.mem_filter.mp hc
  obtain ⟨hfrom, hto⟩ := of_decide_eq_true hin
  obtain ⟨hearly, hlate⟩ := hR.timely hmem
  simp only [admittedAt, reservationTtlMs] at hfrom hto hearly hlate
  omega

theorem Remembered.window_le {limits : QuotaLimits} {h : QuotaHistory}
    (hR : Remembered limits h) (keyHash : String) (d : Dimension)
    (T minutes : Nat) :
    ∑ m ∈ Finset.range minutes, total d (within T (h.ever (keyHash, m))) ≤
      3 * limitOf limits d := by
  have hbound : ∀ m, total d (within T (h.ever (keyHash, m))) ≤
      limitOf limits d := by
    intro m
    refine (total_filter_le _ _ _).trans ?_
    rw [hR.whole]
    exact hR.conserved.within _ d
  calc ∑ m ∈ Finset.range minutes, total d (within T (h.ever (keyHash, m)))
      ≤ ∑ m ∈ Finset.Ico ((T - 30000) / 60000) ((T - 30000) / 60000 + 3),
          total d (within T (h.ever (keyHash, m))) := by
        refine Finset.sum_le_sum_of_ne_zero fun m _ hne => ?_
        obtain ⟨c, hc⟩ := List.exists_mem_of_ne_nil
          (within T (h.ever (keyHash, m))) (by rintro hnil; simp [hnil] at hne)
        exact Finset.mem_Ico.mpr (hR.bucket_of_within hc)
    _ ≤ (Finset.Ico ((T - 30000) / 60000)
          ((T - 30000) / 60000 + 3)).card • limitOf limits d :=
        Finset.sum_le_card_nsmul _ _ _ fun m _ => hbound m
    _ = 3 * limitOf limits d := by simp

/-- With the clocks of the frontends within half a minute of the server's, and
limits that a script adds up exactly: what an API key was admitted for in one
minute bucket and has not been refunded for is within its limits at any time,
however often the bucket's keys have expired; and what it was admitted for in
any sixty seconds of the server and has not been refunded for is at most three
times as much. -/
theorem limits_hold_forever (sha256 : String → String) (limits : QuotaLimits)
    (hl : Exact limits) (start : Nat) (h : QuotaHistory)
    (hrun : Run (historyStep sha256 limits) KeepsTime (.empty start) h) :
    (∀ b d, total d (h.ever b) ≤ limitOf limits d) ∧
    (∀ keyHash d T minutes,
      ∑ m ∈ Finset.range minutes, total d (within T (h.ever (keyHash, m))) ≤
        3 * limitOf limits d) := by
  have hR : Remembered limits h := hrun.invariant (remembered_empty limits start)
    fun hI hok hstep => remembered_step hl hI hok hstep
  refine ⟨fun b d => ?_, hR.window_le⟩
  rw [hR.whole]
  exact hR.conserved.within b d

/-- The same bucket from two frontends whose clocks are fifteen seconds apart: the
second reservation comes after a first one that has been refunded, and fills
the limit it left. -/
def aroundTheMinute : List QuotaCall :=
  [.tick 45000, .reserve "a" "key" 60000 10 80, .reconcile "a" 30,
    .tick 75000, .reserve "b" "key" 119999 10 70]

theorem limits_hold_forever_skewed :
    Exact ⟨10, 100, 100⟩ ∧ ∃ h : QuotaHistory,
      Run (historyStep id ⟨10, 100, 100⟩) KeepsTime (.empty 0) h ∧
      (h.ever ("key", 1)).map (·.id) = ["a", "b"] ∧
      total .generated (h.ever ("key", 1)) ≤ 100 := by
  have hl : Exact ⟨10, 100, 100⟩ := by intro d; cases d <;> decide
  obtain ⟨h, hrun, hs⟩ := run_of_exec_map (historyStep id ⟨10, 100, 100⟩)
    KeepsTime
    (fun h call => match call with
      | .reserve _ _ unixMs _ _ => decide (unixMs ≤ h.state.now + 30000) &&
          decide (h.state.now ≤ unixMs + 30000)
      | _ => true)
    (.empty 0) aroundTheMinute (fun h => (h.ever ("key", 1)).map (·.id))
    (b := ["a", "b"])
    (fun h call hok => by
      cases call with
      | reserve => simpa [KeepsTime] using hok
      | _ => trivial) (by decide)
  exact ⟨hl, h, hrun, hs,
    (limits_hold_forever id ⟨10, 100, 100⟩ hl 0 h hrun).1 ("key", 1) .generated⟩

end DataPlane.Proofs
