import DataPlane.Proofs.Payload
import DataPlane.Ref.Delivery

/-!
# The text of a collected generation

`collect_generation` keeps one text and starts it over when an attempt starts.
It never looks at the attempt a token belongs to, so what it returns is what
stands behind the last `AttemptStarted`, whoever wrote it. With one engine at
work that is the text of the attempt that completes. With two of them it is as
long as the later one completes and the earlier one has fallen silent.

Which texts the tokens carry is irrelevant to what goes wrong, and two wrongs
can make a right text; so the exact condition is about logs whose tokens may
carry any texts.
-/

namespace DataPlane.Proofs

open DataPlane DataPlane.Ref

/-- The entry starts an attempt. -/
def isStart (e : ReceivedEntry) : Bool :=
  e.result.event = some .attemptStarted

/-- The entry is a token. -/
def isToken (e : ReceivedEntry) : Bool :=
  match e.result.event with
  | some (.token _) => true
  | _ => false

/-- The text a token carries. -/
def tokenText (e : ReceivedEntry) : String :=
  match e.result.event with
  | some (.token chunk) => chunk.text
  | _ => ""

/-- The tokens of one attempt. -/
def tokensOf (a : String) (log : List ReceivedEntry) : List ReceivedEntry :=
  log.filter fun e => isToken e && e.result.attemptId = a

/-- The text of one attempt, in log order. -/
def attemptText (a : String) (log : List ReceivedEntry) : String :=
  String.join ((tokensOf a log).map tokenText)

/-- Each attempt contributes its own events in order: the first of them, and
only the first, is its `AttemptStarted`, and none follows its terminal event.
How the events of different attempts are interleaved is left open. -/
structure AttemptsInOrder (log : List ReceivedEntry) : Prop where
  opens : ∀ u e v, log = u ++ e :: v →
    (isStart e = true ↔ ∀ x ∈ u, x.result.attemptId ≠ e.result.attemptId)
  closes : ∀ u e v, log = u ++ e :: v → e.result.terminal = true →
    ∀ x ∈ v, x.result.attemptId ≠ e.result.attemptId

/-- Among the entries before the end, no attempt starts behind a token of the
attempt that completes, and behind the last start there is no token of
another. -/
structure Undisturbed (a : String) (pre : List ReceivedEntry) : Prop where
  noRestart : ∀ u s v, pre = u ++ s :: v → isStart s = true →
    tokensOf a u = []
  noStray : ∀ u s v, pre = u ++ s :: v → isStart s = true →
    (∀ x ∈ v, isStart x = false) →
    ∀ t ∈ v, isToken t = true → t.result.attemptId = a

/-! ## Other texts -/

/-- The same entry with another text, if it is a token. -/
def retext (f : ReceivedEntry → String) (e : ReceivedEntry) : ReceivedEntry :=
  match e.result.event with
  | some (.token chunk) =>
      { e with
        result := { e.result with
          event := some (.token { chunk with text := f e }) } }
  | _ => e

/-- The same results with other texts. -/
def retextResult (f : ReceivedEntry → String) : NextResult → NextResult
  | .ok (some e) => .ok (some (retext f e))
  | .ok none => .ok none
  | .error e => .error e

/-- The same subscriptions with other texts. -/
def retextStreams (f : ReceivedEntry → String) (streams : Streams) : Streams :=
  { streams with
    results := fun requestId sub =>
      (streams.results requestId sub).map (retextResult f) }

@[simp]
theorem retext_attemptId (f : ReceivedEntry → String) (e : ReceivedEntry) :
    (retext f e).result.attemptId = e.result.attemptId := by
  unfold retext
  split <;> rfl

@[simp]
theorem isToken_retext (f : ReceivedEntry → String) (e : ReceivedEntry) :
    isToken (retext f e) = isToken e := by
  unfold retext
  split
  · next chunk h => simp [isToken, h]
  · rfl

theorem tokenText_retext (f : ReceivedEntry → String) {e : ReceivedEntry}
    (h : isToken e = true) : tokenText (retext f e) = f e := by
  unfold isToken at h
  split at h
  · next chunk he => simp [tokenText, retext, he]
  · cases h

theorem retext_tokenText (e : ReceivedEntry) : retext tokenText e = e := by
  obtain ⟨eventId, result⟩ := e
  obtain ⟨version, requestId, attemptId, event⟩ := result
  unfold retext
  split
  · next chunk h =>
      cases h
      rfl
  · rfl

theorem attemptText_retext (f : ReceivedEntry → String) (a : String)
    (log : List ReceivedEntry) :
    attemptText a (log.map (retext f)) = String.join ((tokensOf a log).map f) := by
  have htokens : tokensOf a (log.map (retext f)) =
      (tokensOf a log).map (retext f) := by
    simp only [tokensOf, List.filter_map, Function.comp_def, isToken_retext,
      retext_attemptId]
  rw [attemptText, htokens, List.map_map]
  congr 1
  apply List.map_congr_left
  intro e he
  have htoken := (List.mem_filter.mp he).2
  rw [Bool.and_eq_true] at htoken
  exact tokenText_retext f htoken.1

/-! ## The loop -/

/-- What an entry that does not end the loop does to its variables, when the
tokens carry the texts of `f`. -/
def push (f : ReceivedEntry → String) (c : Collected) (e : ReceivedEntry) :
    Collected :=
  match e.result.event with
  | some .attemptStarted => c.startAttempt e.result.attemptId
  | some (.token _) => c.pushStr (f e)
  | _ => c

/-- The results are the entries `pre`, then a `Completed`, then whatever. -/
structure CompletesAt (results : List NextResult) (pre : List ReceivedEntry)
    (e : ReceivedEntry) (done : GenerationCompleted) : Prop where
  results_eq : ∃ rest,
    results = pre.map (fun x => .ok (some x)) ++ .ok (some e) :: rest
  running : ∀ x ∈ pre, x.result.terminal = false
  event_eq : e.result.event = some (.completed done)

theorem CompletesAt.cons {results : List NextResult}
    {pre : List ReceivedEntry} {e x : ReceivedEntry}
    {done : GenerationCompleted} (h : CompletesAt results pre e done)
    (hx : x.result.terminal = false) :
    CompletesAt (.ok (some x) :: results) (x :: pre) e done where
  results_eq := by
    obtain ⟨rest, hrest⟩ := h.results_eq
    exact ⟨rest, by rw [hrest]; rfl⟩
  running := by
    intro y hy
    rcases List.mem_cons.mp hy with rfl | hy
    · exact hx
    · exact h.running y hy
  event_eq := h.event_eq

/-- The loop returns a text when it meets a `Completed` before anything else
that ends it. -/
theorem collectLoop_ok {c : Collected} {results : List NextResult}
    {text : String} {done : GenerationCompleted}
    (h : collectLoop c results = some (.ok (text, done))) :
    ∃ pre e, CompletesAt results pre e done := by
  induction results generalizing c with
  | nil => cases h
  | cons r results ih =>
      cases r with
      | error e => cases h
      | ok found =>
          cases found with
          | none => cases h
          | some x =>
              have hrest : ∀ c', x.result.terminal = false →
                  collectLoop c' results = some (.ok (text, done)) →
                  ∃ pre e, CompletesAt (.ok (some x) :: results) pre e done := by
                intro c' hx hloop
                obtain ⟨pre, e, hpre⟩ := ih hloop
                exact ⟨x :: pre, e, hpre.cons hx⟩
              simp only [collectLoop] at h
              split at h
              · next hx =>
                  refine hrest _ ?_ h
                  simp [GenerationResult.terminal, hx, Event.terminal]
              · next chunk hx =>
                  refine hrest _ ?_ h
                  simp [GenerationResult.terminal, hx, Event.terminal]
              · next done' hx =>
                  cases h
                  exact ⟨[], x, ⟨results, rfl⟩, by simp, hx⟩
              · cases h
              · next hx =>
                  refine hrest _ ?_ h
                  simp [GenerationResult.terminal, hx]

/-- What the loop returns, with other texts. -/
theorem collectLoop_retext (f : ReceivedEntry → String) {c : Collected}
    {results : List NextResult} {pre : List ReceivedEntry} {e : ReceivedEntry}
    {done : GenerationCompleted} (h : CompletesAt results pre e done) :
    collectLoop c (results.map (retextResult f)) =
      some (.ok ((pre.foldl (push f) c).text, done)) := by
  obtain ⟨⟨rest, rfl⟩, hpre, he⟩ := h
  induction pre generalizing c with
  | nil => simp [retextResult, collectLoop, retext, he]
  | cons x pre ih =>
      have hx := hpre x List.mem_cons_self
      have ih' : ∀ c', _ := fun c' =>
        @ih c' fun y hy => hpre y (List.mem_cons_of_mem x hy)
      simp only [List.map_cons, List.cons_append, retextResult, collectLoop,
        List.foldl_cons]
      obtain ⟨eventId, result⟩ := x
      obtain ⟨version, requestId, attemptId, event⟩ := result
      cases event with
      | none => exact ih' _
      | some event =>
          cases event with
          | attemptStarted => exact ih' _
          | token chunk => exact ih' _
          | completed done => cases hx
          | failed failure => cases hx

/-! ## What is kept -/

/-- A list has no entry of a kind, or a last one. -/
theorem exists_last {α : Type} (p : α → Bool) (l : List α) :
    (∀ x ∈ l, p x = false) ∨
    ∃ u s v, l = u ++ s :: v ∧ p s = true ∧ ∀ x ∈ v, p x = false := by
  induction l with
  | nil => exact .inl (by simp)
  | cons y l ih =>
      rcases ih with hnone | ⟨u, s, v, rfl, hs, hv⟩
      · cases hy : p y with
        | true => exact .inr ⟨[], y, l, rfl, hy, hnone⟩
        | false =>
            refine .inl ?_
            intro x hx
            rcases List.mem_cons.mp hx with rfl | hx
            · exact hy
            · exact hnone x hx
      · exact .inr ⟨y :: u, s, v, rfl, hs, hv⟩

variable {f : ReceivedEntry → String}

/-- As long as no attempt starts, texts are only added. -/
theorem foldl_push_of_no_start {v : List ReceivedEntry} {c : Collected}
    (h : ∀ x ∈ v, isStart x = false) :
    v.foldl (push f) c =
      ⟨c.text ++ String.join ((v.filter isToken).map f), c.currentAttempt⟩ := by
  induction v generalizing c with
  | nil => simp
  | cons x v ih =>
      have hx := h x List.mem_cons_self
      rw [List.foldl_cons, ih fun y hy => h y (List.mem_cons_of_mem x hy)]
      obtain ⟨eventId, result⟩ := x
      obtain ⟨version, requestId, attemptId, event⟩ := result
      cases event with
      | none => simp [push, isToken]
      | some event =>
          cases event with
          | attemptStarted => simp [isStart] at hx
          | token chunk =>
              rw [List.filter_cons_of_pos (by rfl), List.map_cons,
                String.join_cons, ← String.append_assoc]
              rfl
          | completed done => simp [push, isToken]
          | failed failure => simp [push, isToken]

theorem push_of_start {s : ReceivedEntry} (h : isStart s = true)
    (c : Collected) : push f c s = c.startAttempt s.result.attemptId := by
  rw [isStart, decide_eq_true_eq] at h
  simp [push, h]

/-- A log begins with a start, so without one there is nothing. -/
theorem AttemptsInOrder.nil_of_no_start {log : List ReceivedEntry}
    (h : AttemptsInOrder log) {u v : List ReceivedEntry} (hlog : log = u ++ v)
    (hu : ∀ x ∈ u, isStart x = false) : u = [] := by
  cases u with
  | nil => rfl
  | cons x u =>
      have hstart := (h.opens [] x (u ++ v) hlog).mpr (by simp)
      rw [hu x List.mem_cons_self] at hstart
      cases hstart

/-- An `AttemptStarted` leaves no text behind: it comes first, or the attempt
before it was another one. -/
theorem text_of_start {log u v : List ReceivedEntry} {s : ReceivedEntry}
    (horder : AttemptsInOrder log) (hnamed : ∀ e ∈ log, e.result.attemptId ≠ "")
    (hlog : log = u ++ s :: v) (hs : isStart s = true) :
    ((u ++ [s]).foldl (push f) ⟨"", ""⟩).text = "" := by
  rw [List.foldl_append, List.foldl_cons, List.foldl_nil, push_of_start hs]
  rcases exists_last isStart u with hu | ⟨u', s', v', rfl, hs', hv'⟩
  · rw [horder.nil_of_no_start hlog hu]
    rfl
  · have hcurrent : ((u' ++ s' :: v').foldl (push f) ⟨"", ""⟩).currentAttempt =
        s'.result.attemptId := by
      rw [List.foldl_append, List.foldl_cons, push_of_start hs',
        foldl_push_of_no_start hv']
      rfl
    have hmem : s' ∈ u' ++ s' :: v' := List.mem_append_right u' List.mem_cons_self
    have hne : s'.result.attemptId ≠ s.result.attemptId :=
      (horder.opens _ s v hlog).mp hs s' hmem
    have hname : s'.result.attemptId ≠ "" := by
      apply hnamed
      rw [hlog]
      exact List.mem_append_left _ hmem
    unfold Collected.startAttempt
    rw [hcurrent]
    exact if_pos ⟨hname, hne⟩

/-- The text kept is that of the tokens behind the last start. -/
theorem text_since_start {log u v w : List ReceivedEntry} {s : ReceivedEntry}
    (horder : AttemptsInOrder log) (hnamed : ∀ e ∈ log, e.result.attemptId ≠ "")
    (hlog : log = (u ++ s :: v) ++ w) (hs : isStart s = true)
    (hv : ∀ x ∈ v, isStart x = false) :
    ((u ++ s :: v).foldl (push f) ⟨"", ""⟩).text =
      String.join ((v.filter isToken).map f) := by
  have hstart : ((u ++ [s]).foldl (push f) ⟨"", ""⟩).text = "" :=
    text_of_start horder hnamed
      (show log = u ++ s :: (v ++ w) by rw [hlog]; simp) hs
  rw [List.append_cons, List.foldl_append, foldl_push_of_no_start hv, hstart,
    String.empty_append]

/-! ## When it is the right text -/

theorem tokensOf_append (a : String) (l l' : List ReceivedEntry) :
    tokensOf a (l ++ l') = tokensOf a l ++ tokensOf a l' :=
  List.filter_append ..

theorem tokensOf_cons_of_not_token {x : ReceivedEntry} (a : String)
    (h : isToken x = false) (l : List ReceivedEntry) :
    tokensOf a (x :: l) = tokensOf a l := by
  simp [tokensOf, h]

theorem isToken_of_start {s : ReceivedEntry} (h : isStart s = true) :
    isToken s = false := by
  rw [isStart, decide_eq_true_eq] at h
  simp [isToken, h]

/-- The attempt that completes has no tokens but those before its end. -/
theorem tokensOf_completed {log pre post : List ReceivedEntry}
    {e : ReceivedEntry} {done : GenerationCompleted} (horder : AttemptsInOrder log)
    (hlog : log = pre ++ e :: post)
    (he : e.result.event = some (.completed done)) :
    tokensOf e.result.attemptId log = tokensOf e.result.attemptId pre := by
  have hpost : tokensOf e.result.attemptId post = [] := by
    rw [tokensOf, List.filter_eq_nil_iff]
    intro x hx htoken
    have hterminal : e.result.terminal = true := by
      simp [GenerationResult.terminal, he, Event.terminal]
    have hne := horder.closes pre e post hlog hterminal x hx
    rw [Bool.and_eq_true, decide_eq_true_eq] at htoken
    exact hne htoken.2
  rw [hlog, tokensOf_append, tokensOf_cons_of_not_token, hpost, List.append_nil]
  simp [isToken, he]

/-- Counting by giving one letter to the entries of a kind. -/
theorem length_join_map_ite {α : Type} (p : α → Bool) (l : List α) :
    (String.join (l.map fun x => if p x then "x" else "")).length =
      (l.filter p).length := by
  induction l with
  | nil => simp
  | cons x l ih =>
      rw [List.map_cons, String.join_cons, String.length_append, ih]
      cases hx : p x with
      | true =>
          rw [List.filter_cons_of_pos hx, List.length_cons, if_pos rfl,
            Nat.add_comm]
          rfl
      | false =>
          rw [List.filter_cons_of_neg (by simp [hx]), if_neg (by simp)]
          simp

/-- The last start stands behind every other. -/
theorem last_start {u v u' v' : List ReceivedEntry} {s s' : ReceivedEntry}
    (h : u' ++ s' :: v' = u ++ s :: v) (hs' : isStart s' = true)
    (hv : ∀ x ∈ v, isStart x = false) :
    (u' = u ∧ v' = v) ∨ ∃ w, u = u' ++ s' :: w ∧ v' = w ++ s :: v := by
  rcases List.append_eq_append_iff.mp h with ⟨w, hu, hw⟩ | ⟨w, hu, hw⟩
  · cases w with
    | nil =>
        cases hw
        exact .inl ⟨by simpa using hu.symm, rfl⟩
    | cons y w =>
        cases hw
        exact .inr ⟨w, hu, rfl⟩
  · cases w with
    | nil =>
        cases hw
        exact .inl ⟨by simpa using hu, rfl⟩
    | cons y w =>
        cases hw
        have hno := hv s' (List.mem_append_right w List.mem_cons_self)
        rw [hno] at hs'
        cases hs'

/-- With a last start in front of `v`, being undisturbed is about `v` and what
stands before it. -/
theorem undisturbed_iff {a : String} {u v : List ReceivedEntry}
    {s : ReceivedEntry} (hs : isStart s = true)
    (hv : ∀ x ∈ v, isStart x = false) :
    Undisturbed a (u ++ s :: v) ↔
      tokensOf a u = [] ∧
      ∀ t ∈ v, isToken t = true → t.result.attemptId = a := by
  constructor
  · intro h
    exact ⟨h.noRestart u s v rfl hs, h.noStray u s v rfl hs hv⟩
  · rintro ⟨hu, hstray⟩
    constructor
    · intro u' s' v' heq hs'
      rcases last_start heq.symm hs' hv with ⟨rfl, -⟩ | ⟨w, rfl, -⟩
      · exact hu
      · rw [tokensOf_append] at hu
        exact (List.append_eq_nil_iff.mp hu).1
    · intro u' s' v' heq hs' hv'
      rcases last_start heq.symm hs' hv with ⟨-, rfl⟩ | ⟨w, -, rfl⟩
      · exact hstray
      · have hno := hv' s (List.mem_append_right w List.mem_cons_self)
        rw [hno] at hs
        cases hs

theorem tokensOf_start (a : String) {u v : List ReceivedEntry}
    {s : ReceivedEntry} (hs : isStart s = true) :
    tokensOf a (u ++ s :: v) = tokensOf a u ++ tokensOf a v := by
  rw [tokensOf_append, tokensOf_cons_of_not_token a (isToken_of_start hs)]

theorem filter_attempt (a : String) (v : List ReceivedEntry) :
    (v.filter isToken).filter (fun x => x.result.attemptId = a) =
      tokensOf a v := by
  rw [List.filter_filter, tokensOf]
  congr 1
  funext x
  exact Bool.and_comm _ _

theorem attemptId_of_mem_tokensOf {a : String} {log : List ReceivedEntry}
    {x : ReceivedEntry} (h : x ∈ tokensOf a log) : x.result.attemptId = a := by
  rw [tokensOf, List.mem_filter, Bool.and_eq_true, decide_eq_true_eq] at h
  exact h.2.2

/-- One letter for each token of the attempt shows that all of them are in
`v`. -/
theorem tokensOf_eq_nil_of_texts {a : String} {u v : List ReceivedEntry}
    (h : ∀ f : ReceivedEntry → String,
      String.join ((v.filter isToken).map f) =
        String.join ((tokensOf a u ++ tokensOf a v).map f)) :
    tokensOf a u = [] := by
  have hcount := congrArg String.length
    (h fun x => if decide (x.result.attemptId = a) then "x" else "")
  have hall : (tokensOf a u ++ tokensOf a v).filter
      (fun x => x.result.attemptId = a) = tokensOf a u ++ tokensOf a v := by
    rw [← tokensOf_append, List.filter_eq_self]
    intro x hx
    exact decide_eq_true (attemptId_of_mem_tokensOf hx)
  rw [length_join_map_ite, length_join_map_ite, filter_attempt, hall,
    List.length_append] at hcount
  apply List.eq_nil_of_length_eq_zero
  omega

/-- One letter for each token of another attempt shows that `v` has none. -/
theorem attemptId_of_texts {a : String} {u v : List ReceivedEntry}
    (h : ∀ f : ReceivedEntry → String,
      String.join ((v.filter isToken).map f) =
        String.join ((tokensOf a u ++ tokensOf a v).map f)) :
    ∀ t ∈ v, isToken t = true → t.result.attemptId = a := by
  have hcount := congrArg String.length
    (h fun x => if decide (x.result.attemptId ≠ a) then "x" else "")
  have hnone : (tokensOf a u ++ tokensOf a v).filter
      (fun x => x.result.attemptId ≠ a) = [] := by
    rw [← tokensOf_append, List.filter_eq_nil_iff]
    intro x hx hne
    exact decide_eq_true_eq.mp hne (attemptId_of_mem_tokensOf hx)
  rw [length_join_map_ite, length_join_map_ite, hnone, List.length_nil,
    List.length_eq_zero_iff, List.filter_eq_nil_iff] at hcount
  intro t ht htoken
  have hnot := hcount t (List.mem_filter.mpr ⟨ht, htoken⟩)
  simpa using hnot

/-- Whatever the texts, the tokens of `v` give the text of the attempt, if and
only if they are its tokens and all of them. -/
theorem texts_eq_iff {a : String} {u v : List ReceivedEntry} :
    (∀ f : ReceivedEntry → String, String.join ((v.filter isToken).map f) =
        String.join ((tokensOf a u ++ tokensOf a v).map f)) ↔
      tokensOf a u = [] ∧
      ∀ t ∈ v, isToken t = true → t.result.attemptId = a := by
  constructor
  · intro h
    exact ⟨tokensOf_eq_nil_of_texts h, attemptId_of_texts h⟩
  · rintro ⟨hu, hstray⟩ f
    have hall : v.filter isToken = tokensOf a v := by
      rw [← filter_attempt, eq_comm, List.filter_eq_self]
      intro x hx
      obtain ⟨hx, htoken⟩ := List.mem_filter.mp hx
      exact decide_eq_true (hstray x hx htoken)
    rw [hu, List.nil_append, hall]

/-- The text kept from the entries before the end is that of the attempt that
completes, whatever the texts, if and only if nothing disturbed it. -/
theorem kept_iff {log pre post : List ReceivedEntry} {e : ReceivedEntry}
    {done : GenerationCompleted} (horder : AttemptsInOrder log)
    (hnamed : ∀ e ∈ log, e.result.attemptId ≠ "")
    (hlog : log = pre ++ e :: post)
    (he : e.result.event = some (.completed done)) :
    (∀ f, (pre.foldl (push f) ⟨"", ""⟩).text =
        String.join ((tokensOf e.result.attemptId log).map f)) ↔
      Undisturbed e.result.attemptId pre := by
  rw [tokensOf_completed horder hlog he]
  rcases exists_last isStart pre with hnone | ⟨u, s, v, rfl, hs, hv⟩
  · rw [horder.nil_of_no_start hlog hnone]
    refine ⟨fun _ => ⟨?_, ?_⟩, fun _ f => rfl⟩
    · intro u s v heq
      simp at heq
    · intro u s v heq
      simp at heq
  · rw [undisturbed_iff hs hv, ← texts_eq_iff]
    simp only [text_since_start horder hnamed hlog hs hv, tokensOf_start _ hs]

/-! ## The response -/

/-- The entry a call of `next` returned, if any. -/
def entryOf : NextResult → Option ReceivedEntry
  | .ok found => found
  | .error _ => none

/-- What a response carries of the loop, and what it does not. -/
theorem collectGeneration_ok {state : AppState} {streams : Streams}
    {admission : Admission} {sub : ResultSubscription} {reply : GenerateReply}
    (hsub : streams.subscribe admission.requestId none = .ok (some sub))
    (h : collectGeneration state streams admission = some (.ok reply)) :
    ∃ done, collectLoop ⟨"", ""⟩ (streams.results admission.requestId sub) =
        some (.ok (reply.body.text, done)) ∧
      reply.body = ⟨admission.requestId, state.model.id, reply.body.text,
        admission.promptTokens, done.generatedTokens, done.finishReason⟩ := by
  simp only [collectGeneration, hsub] at h
  split at h
  · cases h
  · cases h
  · next text done hloop =>
      cases h
      exact ⟨done, hloop, rfl⟩

theorem collectGeneration_of_loop {state : AppState} {streams : Streams}
    {admission : Admission} {sub : ResultSubscription} {text : String}
    {done : GenerationCompleted}
    (hsub : streams.subscribe admission.requestId none = .ok (some sub))
    (h : collectLoop ⟨"", ""⟩ (streams.results admission.requestId sub) =
      some (.ok (text, done))) :
    ∃ reply, collectGeneration state streams admission = some (.ok reply) ∧
      reply.body = ⟨admission.requestId, state.model.id, text,
        admission.promptTokens, done.generatedTokens, done.finishReason⟩ := by
  simp only [collectGeneration, hsub, h]
  exact ⟨_, rfl, rfl⟩

theorem retextStreams_tokenText (streams : Streams) :
    retextStreams tokenText streams = streams := by
  have hid : retextResult tokenText = id := by
    funext r
    cases r with
    | error e => rfl
    | ok found =>
        cases found with
        | none => rfl
        | some e => simp only [retextResult, retext_tokenText, id]
  unfold retextStreams
  simp only [hid, List.map_id]

/-- What the loop has read is an initial segment of the log. -/
theorem CompletesAt.log_eq {results : List NextResult}
    {pre log : List ReceivedEntry} {e : ReceivedEntry}
    {done : GenerationCompleted} (h : CompletesAt results pre e done)
    (hread : results.filterMap entryOf <+: log) :
    ∃ post, log = pre ++ e :: post := by
  obtain ⟨rest, rfl⟩ := h.results_eq
  obtain ⟨tail, rfl⟩ := hread
  have hpre : (pre.map fun x => (.ok (some x) : NextResult)).filterMap
      entryOf = pre := by
    rw [List.filterMap_map]
    exact List.filterMap_some
  refine ⟨rest.filterMap entryOf ++ tail, ?_⟩
  rw [List.filterMap_append, hpre, List.append_assoc]
  rfl

/-- For every log whose attempts are in order, however interleaved: if a
response is returned, its text is that of the attempt that completed when
nothing disturbed it, and that is the exact condition for every choice of
texts. -/
theorem collected_text_iff (state : AppState) (streams : Streams)
    (admission : Admission) (sub : ResultSubscription)
    (log : List ReceivedEntry) (reply : GenerateReply)
    (hsub : streams.subscribe admission.requestId none = .ok (some sub))
    (hread : (streams.results admission.requestId sub).filterMap entryOf <+: log)
    (horder : AttemptsInOrder log) (hnamed : ∀ e ∈ log, e.result.attemptId ≠ "")
    (h : collectGeneration state streams admission = some (.ok reply)) :
    ∃ pre e done,
      CompletesAt (streams.results admission.requestId sub) pre e done ∧
      (Undisturbed e.result.attemptId pre →
        reply.body.text = attemptText e.result.attemptId log) ∧
      ((∀ f, ∃ reply',
        collectGeneration state (retextStreams f streams) admission =
          some (.ok reply') ∧
        reply'.body.text =
          attemptText e.result.attemptId (log.map (retext f))) ↔
        Undisturbed e.result.attemptId pre) := by
  obtain ⟨done, hloop, _⟩ := collectGeneration_ok hsub h
  obtain ⟨pre, e, hcompletes⟩ := collectLoop_ok hloop
  obtain ⟨post, hlog⟩ := hcompletes.log_eq hread
  have hreply : ∀ f, ∃ reply',
      collectGeneration state (retextStreams f streams) admission =
        some (.ok reply') ∧
      reply'.body.text = (pre.foldl (push f) ⟨"", ""⟩).text := by
    intro f
    obtain ⟨reply', hreply', hbody⟩ := @collectGeneration_of_loop state
      (retextStreams f streams) admission sub _ done hsub
      (collectLoop_retext f hcompletes)
    exact ⟨reply', hreply', by rw [hbody]⟩
  have hiff : (∀ f, ∃ reply',
      collectGeneration state (retextStreams f streams) admission =
        some (.ok reply') ∧
      reply'.body.text =
        attemptText e.result.attemptId (log.map (retext f))) ↔
      Undisturbed e.result.attemptId pre := by
    rw [← kept_iff horder hnamed hlog hcompletes.event_eq]
    simp only [attemptText_retext]
    refine forall_congr' fun f => ?_
    obtain ⟨reply₀, hreply₀, htext⟩ := hreply f
    constructor
    · rintro ⟨reply', hreply', htext'⟩
      rw [hreply₀] at hreply'
      cases hreply'
      rw [← htext, htext']
    · intro hkept
      exact ⟨reply₀, hreply₀, htext.trans hkept⟩
  refine ⟨pre, e, done, hcompletes, ?_, hiff⟩
  intro hundisturbed
  obtain ⟨reply', hreply', htext⟩ := hiff.mpr hundisturbed tokenText
  rw [retextStreams_tokenText, h] at hreply'
  cases hreply'
  have hid : log.map (retext tokenText) = log := by
    rw [List.map_congr_left fun e _ => retext_tokenText e]
    exact List.map_id log
  rw [htext, hid]

/-! ## Two attempts -/

/-- The loop goes on after this. -/
def goesOn : NextResult → Bool
  | .ok (some x) => !x.result.terminal
  | _ => false

/-- Where the loop ends can be read off the results. -/
theorem CompletesAt.split {results : List NextResult}
    {pre : List ReceivedEntry} {e : ReceivedEntry} {done : GenerationCompleted}
    (h : CompletesAt results pre e done) :
    results.takeWhile goesOn = pre.map (fun x => .ok (some x)) ∧
      (results.dropWhile goesOn).head? = some (.ok (some e)) := by
  obtain ⟨rest, rfl⟩ := h.results_eq
  have hpre : ∀ r ∈ pre.map (fun x => (.ok (some x) : NextResult)),
      goesOn r = true := by
    intro r hr
    obtain ⟨x, hx, rfl⟩ := List.mem_map.mp hr
    rw [goesOn, h.running x hx]
    rfl
  have hend : ¬ goesOn (.ok (some e)) = true := by
    simp [goesOn, GenerationResult.terminal, h.event_eq, Event.terminal]
  rw [List.takeWhile_append_of_pos hpre, List.takeWhile_cons_of_neg hend,
    List.dropWhile_append_of_pos hpre, List.dropWhile_cons_of_neg hend,
    List.append_nil, List.head?_cons]
  exact ⟨rfl, rfl⟩

/-- Order, one index at a time. -/
theorem attemptsInOrder_of_index {log : List ReceivedEntry}
    (h : ∀ i : Fin log.length,
      (isStart (log.get i) = true ↔
        ∀ x ∈ log.take i, x.result.attemptId ≠ (log.get i).result.attemptId) ∧
      ((log.get i).result.terminal = true →
        ∀ x ∈ log.drop (i + 1),
          x.result.attemptId ≠ (log.get i).result.attemptId)) :
    AttemptsInOrder log := by
  have hindex : ∀ u e v, log = u ++ e :: v →
      (isStart e = true ↔ ∀ x ∈ u, x.result.attemptId ≠ e.result.attemptId) ∧
      (e.result.terminal = true →
        ∀ x ∈ v, x.result.attemptId ≠ e.result.attemptId) := by
    rintro u e v rfl
    have hi := h ⟨u.length, by simp⟩
    simpa using hi
  exact ⟨fun u e v hlog => (hindex u e v hlog).1,
    fun u e v hlog => (hindex u e v hlog).2⟩

/-- An entry of attempt `a` of the sample generation. -/
def sampleReceived (eventId a : String) (event : Event) : ReceivedEntry :=
  ⟨eventId, ⟨1, "r", a, some event⟩⟩

/-- Subscriptions that read these entries. -/
def sampleStreams (log : List ReceivedEntry) : Streams :=
  { status := fun _ => .ok none
    subscribe := fun requestId after => .ok (subscribe 1 requestId after)
    results := fun _ _ => log.map fun e => .ok (some e) }

/-- A second attempt takes over from one that has fallen silent. -/
def takenOver : List ReceivedEntry :=
  [sampleReceived "1-0" "a" .attemptStarted,
    sampleReceived "2-0" "a" (.token ⟨"one", 1⟩),
    sampleReceived "3-0" "b" .attemptStarted,
    sampleReceived "4-0" "b" (.token ⟨"two", 1⟩),
    sampleReceived "5-0" "b" (.completed ⟨1, 1, "stop"⟩)]

theorem collected_text_iff_takenOver :
    "two" = attemptText "b" takenOver ∧
    ∀ f, ∃ reply', collectGeneration sampleState
        (retextStreams f (sampleStreams takenOver)) sampleAdmission =
        some (.ok reply') ∧
      reply'.body.text = attemptText "b" (takenOver.map (retext f)) := by
  obtain ⟨pre, e, done, hcompletes, htext, hiff⟩ :=
    collected_text_iff sampleState (sampleStreams takenOver) sampleAdmission
      ⟨resultStream "r", "0-0"⟩ takenOver
      ⟨⟨"r", "m", "two", 1, 1, "stop"⟩, "0-1", "q"⟩ rfl (by decide)
      (attemptsInOrder_of_index (by decide)) (by decide) rfl
  obtain ⟨hpre, he⟩ := hcompletes.split
  have hfirst : (takenOver.take 4).map (fun x => Except.ok (some x)) =
      pre.map fun x => (.ok (some x) : NextResult) :=
    Eq.trans (by decide) hpre
  have hlast : e = sampleReceived "5-0" "b" (.completed ⟨1, 1, "stop"⟩) := by
    have hhead : ((takenOver.map fun x => (.ok (some x) : NextResult)).dropWhile
        goesOn).head? = some (.ok (some e)) := he
    exact (Option.some.inj (Except.ok.inj (Option.some.inj
      (Eq.trans (by decide) hhead)))).symm
  have hinj : Function.Injective fun x => (.ok (some x) : NextResult) :=
    fun x y hxy => Option.some.inj (Except.ok.inj hxy)
  have hundisturbed : Undisturbed e.result.attemptId pre := by
    rw [← (List.map_injective_iff.mpr hinj) hfirst, hlast]
    exact (@undisturbed_iff "b" (takenOver.take 2)
      [sampleReceived "4-0" "b" (.token ⟨"two", 1⟩)]
      (sampleReceived "3-0" "b" .attemptStarted) (by decide) (by decide)).mpr
      (by decide)
  have hb : e.result.attemptId = "b" := by rw [hlast]; rfl
  rw [hb] at htext hiff hundisturbed
  exact ⟨htext hundisturbed, hiff.mpr hundisturbed⟩

/-- The first attempt goes on after the second has started. -/
def interleaved : List ReceivedEntry :=
  [sampleReceived "1-0" "a" .attemptStarted,
    sampleReceived "2-0" "a" (.token ⟨"one", 1⟩),
    sampleReceived "3-0" "b" .attemptStarted,
    sampleReceived "4-0" "b" (.token ⟨"two", 1⟩),
    sampleReceived "5-0" "a" (.token ⟨"three", 2⟩),
    sampleReceived "6-0" "b" (.completed ⟨1, 1, "stop"⟩)]

/-- The token of the first attempt ends up in the text of the second. -/
theorem collected_text_interleaved :
    AttemptsInOrder interleaved ∧ attemptText "b" interleaved = "two" ∧
    ∃ reply,
      collectGeneration sampleState (sampleStreams interleaved)
        sampleAdmission = some (.ok reply) ∧
      reply.body.text = "twothree" :=
  ⟨attemptsInOrder_of_index (by decide), by decide, _, rfl, by decide⟩

end DataPlane.Proofs
