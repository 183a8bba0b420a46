import Ekizu.Lib.Custody
import Ekizu.Rest.RateLimiter

/-!
# The queue of the rate limiter

One flag, one slot for a request that waits and a queue are updated by the
handlers of submissions, completions, waits and `shutdown`.  A token stands for
the request that is busy: it waits, or the send function has it, or it is
finished and lets the next one go, or an exception took its handler along.

## Main results

* `orderly` — the invariant of every run.
* `serves_iff` — the queue serves its requests in every run exactly where every
  response with the three headers has headers that convert.
* `serves_overflow` — a header that does not takes its request along and stops
  the queue.
-/

namespace Ekizu.Rest.RateLimiter

open Lib.Custody Lib.Runs

variable {W : LimiterSetting} {s s' : RateLimiter W}

/-- The numbers of requests. -/
def ids (ps : List Pending) : List Nat := ps.map (·.id)

/-- The requests whose handlers were not completed. -/
def pendingIds (s : RateLimiter W) : List Nat :=
  ids s.sending ++ (ids s.waiting.toList ++ (ids s.queue ++ ids s.calls))

/-- The requests whose handlers were completed. -/
def completedIds (s : RateLimiter W) : List Nat := s.results.map (·.1)

/-- The requests handed over, in the order they were. -/
def handedIds (s : RateLimiter W) : List Nat := (s.handed.map (·.2.id)).reverse

/-- The requests that were or may be handed over, in the order of that. -/
def line (s : RateLimiter W) : List Nat :=
  s.handedIds ++ (ids s.waiting.toList ++ (ids s.queue ++ ids s.calls))

/-- The request that is busy. -/
def tokens (s : RateLimiter W) : Nat :=
  s.waiting.toList.length + s.sending.length + s.releases + s.lost.length

/-! ## What a request does when its turn comes -/

/-- A request waits for its route, is handed over, or fails. -/
inductive Starts (s : RateLimiter W) (now : Int) (p : Pending) : RateLimiter W → Prop
  | waits {rl : RateLimit} (hlimit : s.rateLimits p.req.method p.req.target = some rl)
      (hremaining : rl.remaining = 0) (hlate : now < rl.resetTime) :
      Starts s now p { s with waiting := some p, waits := s.waits ++ [rl.resetTime] }
  | handed (hfree : ∀ rl, s.rateLimits p.req.method p.req.target = some rl →
      rl.remaining = 0 → rl.resetTime ≤ now) :
      Starts s now p { s with sending := p :: s.sending, handed := (now, p) :: s.handed }
  | failed {e : Error} : Starts s now p (s.finishOne p (.error e))

theorem starts_maybeWaitThenSend (hstopping : s.stopping = false) (now : Int) (p : Pending) :
    Starts s now p (s.maybeWaitThenSend now p) := by
  have hsend : (∀ rl, s.rateLimits p.req.method p.req.target = some rl →
      rl.remaining = 0 → rl.resetTime ≤ now) → Starts s now p (s.doSend now p) := by
    intro hfree
    unfold doSend
    rw [if_neg (by simp [hstopping])]
    split
    · exact .failed
    · exact .handed hfree
  unfold maybeWaitThenSend
  rw [if_neg (by simp [hstopping])]
  split
  · next rl hlimit =>
      split
      · next hwaits => exact .waits hlimit hwaits.1 hwaits.2
      · next hgoes =>
          apply hsend
          intro rl' hlimit' hremaining
          obtain rfl := Option.some.inj (hlimit.symm.trans hlimit')
          by_cases hlate : now < rl.resetTime
          · exact absurd ⟨hremaining, hlate⟩ hgoes
          · omega
  · next hnone =>
      apply hsend
      intro rl hlimit
      simp [hnone] at hlimit

/-- The next request starts, where there is one and none is busy. -/
theorem startNext_cases (hstopping : s.stopping = false) (now : Int) :
    (s.startNext now = s ∧ (s.busy = true ∨ s.queue = [])) ∨
      ∃ p queue, s.busy = false ∧ s.queue = p :: queue ∧
        Starts { s with busy := true, queue := queue } now p (s.startNext now) := by
  unfold startNext
  rw [if_neg (by simp [hstopping])]
  by_cases hbusy : s.busy = true
  · rw [if_pos hbusy]
    exact .inl ⟨rfl, .inl hbusy⟩
  · rw [if_neg hbusy]
    cases hqueue : s.queue with
    | nil => exact .inl ⟨rfl, .inr rfl⟩
    | cons p queue =>
        have hstarts := starts_maybeWaitThenSend (W := W)
          (s := { s with busy := true, queue := queue }) hstopping now p
        exact .inr ⟨p, queue, by simpa using hbusy, rfl, hstarts⟩

theorem startNext_stopping (hstopping : s.stopping = true) (now : Int) :
    s.startNext now = { s with busy := false } := by
  unfold startNext
  rw [if_pos hstopping]

/-- A request that waited is handed over, or fails. -/
inductive Resumes (s : RateLimiter W) (now : Int) (ec : Option Error) (p : Pending) :
    RateLimiter W → Prop
  | handed (hec : ec = none) :
      Resumes s now ec p { s with sending := p :: s.sending, handed := (now, p) :: s.handed }
  | failed {e : Error} : Resumes s now ec p (s.finishOne p (.error e))

theorem waitCompleted_cases {p : Pending} (hstopping : s.stopping = false)
    (hwaiting : s.waiting = some p) (now : Int) (ec : Option Error) :
    Resumes { s with waiting := none } now ec p (s.waitCompleted now ec) := by
  unfold waitCompleted
  rw [hwaiting]
  dsimp only
  rw [if_neg (by simp [hstopping])]
  cases ec with
  | some e => exact .failed
  | none =>
      dsimp only
      unfold doSend
      rw [if_neg (by simp [hstopping])]
      split
      · exact .failed
      · exact .handed rfl

/-- What `shutdown` leaves. -/
theorem failAll_eq (ps : List Pending) :
    s.failAll ps =
      { s with
        results := (ps.map fun p => (p.id, HttpResult.error .rateLimiterStopped)).reverse ++
          s.results
        releases := s.releases + ps.length } := by
  induction ps generalizing s with
  | nil => rfl
  | cons p ps ih =>
      rw [failAll, ih, finishOne]
      simp
      omega

/-- What a step does, and when it is due. -/
inductive Ran (s : RateLimiter W) : Event → RateLimiter W → Prop
  | send {req : HttpRequest} : Ran s (.send req) (s.send req)
  | asyncSendImpl {now : Int} {p : Pending} {calls : List Pending} (hcalls : s.calls = p :: calls) :
      Ran s (.asyncSendImpl now) (({ s with calls := calls } : RateLimiter W).asyncSendImpl now p)
  | sendCompleted {i : Nat} {result : HttpResult} {p : Pending} (hp : s.sending[i]? = some p) :
      Ran s (.sendCompleted i result)
        (({ s with sending := s.sending.eraseIdx i } : RateLimiter W).sendCompleted p result)
  | waitCompleted {now : Int} {ec : Option Error} {time : Int} {waits : List Int}
      (hwaits : s.waits = time :: waits) (hreached : ec = none → time ≤ now) :
      Ran s (.waitCompleted now ec)
        (({ s with waits := waits } : RateLimiter W).waitCompleted now ec)
  | release {now : Int} (hreleases : s.releases ≠ 0) : Ran s (.release now) (s.release now)
  | shutdown : Ran s .shutdown s.shutdown

theorem step_ran {e : Event} (hstep : s.step e = some s') : Ran s e s' := by
  cases e with
  | send req =>
      obtain rfl := Option.some.inj hstep
      exact .send
  | asyncSendImpl now =>
      simp only [step] at hstep
      split at hstep
      · simp at hstep
      · next hcalls =>
          obtain rfl := Option.some.inj hstep
          exact .asyncSendImpl hcalls
  | sendCompleted i result =>
      simp only [step] at hstep
      split at hstep
      · simp at hstep
      · next hp =>
          obtain rfl := Option.some.inj hstep
          exact .sendCompleted hp
  | waitCompleted now ec =>
      simp only [step] at hstep
      split at hstep
      · simp at hstep
      · next time waits hwaits =>
          split at hstep
          · simp at hstep
          · next hreached =>
              obtain rfl := Option.some.inj hstep
              refine .waitCompleted hwaits ?_
              intro hec
              by_cases hlate : now < time
              · exact absurd ⟨hec, hlate⟩ hreached
              · omega
  | release now =>
      simp only [step] at hstep
      split at hstep
      · simp at hstep
      · next hreleases =>
          obtain rfl := Option.some.inj hstep
          exact .release hreleases
  | shutdown =>
      obtain rfl := Option.some.inj hstep
      exact .shutdown

/-! ## The invariant -/

/-- The requests stand in the order they were submitted in. -/
def InLine (s : RateLimiter W) : Prop :=
  s.line.Pairwise (· < ·) ∧ ∀ id ∈ s.line, id < s.submitted

theorem InLine.sublist (h : InLine s) (hsub : s'.line.Sublist s.line)
    (hsubmitted : s'.submitted = s.submitted) : InLine s' := by
  constructor
  · exact h.1.sublist hsub
  · intro id hid
    rw [hsubmitted]
    exact h.2 id (hsub.subset hid)

/-- Every request is in one place and they are in line; while the limiter runs, the
flag counts the tokens, and after `shutdown` nothing is left to start. -/
structure Orderly (s : RateLimiter W) : Prop where
  custody : Holds s.submitted (s.pendingIds ++ (s.lost ++ s.completedIds))
  inLine : InLine s
  single : s.sending.length ≤ 1
  tokens : s.stopping = false → s.tokens = if s.busy then 1 else 0
  waits : s.stopping = false → s.waits.length = s.waiting.toList.length
  idle : s.stopping = false → s.busy = false → s.queue = []
  stopped : s.stopping = true → s.waiting = none ∧ s.queue = [] ∧ s.busy = false

/-- The same before the next request starts: no request is busy. -/
structure Ready (s : RateLimiter W) : Prop where
  custody : Holds s.submitted (s.pendingIds ++ (s.lost ++ s.completedIds))
  inLine : InLine s
  stopping : s.stopping = false
  busy : s.busy = false
  tokens : s.tokens = 0
  waits : s.waits = []

/-- What has no token has nothing in progress. -/
theorem tokens_eq_zero (h : s.tokens = 0) :
    s.waiting = none ∧ s.sending = [] ∧ s.releases = 0 ∧ s.lost = [] := by
  unfold RateLimiter.tokens at h
  refine ⟨?_, List.eq_nil_of_length_eq_zero (by omega), by omega,
    List.eq_nil_of_length_eq_zero (by omega)⟩
  cases hwaiting : s.waiting with
  | none => rfl
  | some p => simp [hwaiting] at h

/-- **The next request starts.** -/
theorem Ready.startNext (h : Ready s) (now : Int) : Orderly (s.startNext now) := by
  obtain ⟨hwaiting, hsending, hreleases, hlost⟩ := tokens_eq_zero h.tokens
  rcases startNext_cases h.stopping now with ⟨hsame, hidle⟩ | ⟨p, queue, -, hqueue, hstarts⟩
  · have hempty : s.queue = [] := by
      rcases hidle with hbusy | hempty
      · simp [h.busy] at hbusy
      · exact hempty
    rw [hsame]
    refine ⟨h.custody, h.inLine, by simp [hsending], ?_, ?_, fun _ _ => hempty, ?_⟩
    · intro _
      simp [h.tokens, h.busy]
    · intro _
      simp [h.waits, hwaiting]
    · intro hstopping
      simp [h.stopping] at hstopping
  · generalize s.startNext now = s' at hstarts
    cases hstarts with
    | waits hlimit hremaining hlate =>
        refine ⟨h.custody.move ?_, h.inLine.sublist ?_ rfl, ?_, ?_, ?_, ?_, ?_⟩
        · intro n
          simp [pendingIds, completedIds, ids, hsending, hwaiting, hqueue, List.count_cons]
        · simp [line, handedIds, ids, hwaiting, hqueue]
        · simp [hsending]
        · simp [RateLimiter.tokens, hsending, hreleases, hlost]
        · simp [h.waits]
        · simp
        · simp [h.stopping]
    | handed hfree =>
        refine ⟨h.custody.move ?_, h.inLine.sublist ?_ rfl, ?_, ?_, ?_, ?_, ?_⟩
        · intro n
          simp [pendingIds, completedIds, ids, hsending, hwaiting, hqueue, List.count_cons]
        · simp [line, handedIds, ids, hwaiting, hqueue]
        · simp [hsending]
        · simp [RateLimiter.tokens, hsending, hwaiting, hreleases, hlost]
        · simp [h.waits, hwaiting]
        · simp
        · simp [h.stopping]
    | failed =>
        refine ⟨h.custody.move ?_, h.inLine.sublist ?_ rfl, ?_, ?_, ?_, ?_, ?_⟩
        · intro n
          simp [pendingIds, completedIds, ids, finishOne, hsending, hwaiting, hqueue,
            List.count_cons]
          omega
        · simp [line, handedIds, ids, finishOne, hwaiting, hqueue]
        · simp [finishOne, hsending]
        · simp [finishOne, RateLimiter.tokens, hsending, hwaiting, hreleases, hlost]
        · simp [finishOne, h.waits, hwaiting]
        · simp [finishOne]
        · simp [finishOne, h.stopping]

/-! ## One step -/

theorem Orderly.send (h : Orderly s) (req : HttpRequest) : Orderly (s.send req) := by
  have hline : (s.send req).line = s.line ++ [s.submitted] := by
    simp [RateLimiter.send, line, handedIds, ids]
  refine ⟨h.custody.issue ?_, ⟨?_, ?_⟩, h.single, h.tokens, h.waits, h.idle, h.stopped⟩
  · intro n
    simp only [RateLimiter.send, pendingIds, completedIds, ids, List.map_append, List.count_append,
      List.map_cons, List.map_nil, List.count_singleton, beq_iff_eq, eq_comm (a := n)]
    omega
  · rw [hline]
    exact pairwise_snoc h.inLine.1 h.inLine.2
  · intro id hid
    rw [hline, List.mem_append, List.mem_singleton] at hid
    show id < s.submitted + 1
    rcases hid with hid | rfl
    · exact Nat.lt_succ_of_lt (h.inLine.2 id hid)
    · exact Nat.lt_succ_self _

/-- A submission that finds the limiter free. -/
theorem Orderly.ready_submitted {p : Pending} {calls : List Pending} (h : Orderly s)
    (hcalls : s.calls = p :: calls) (hstopping : s.stopping = false) (hbusy : s.busy = false) :
    Ready ({ s with calls := calls, queue := s.queue ++ [p] } : RateLimiter W) := by
  have htokens : s.tokens = 0 := by simpa [hbusy] using h.tokens hstopping
  refine ⟨h.custody.move ?_, h.inLine.sublist ?_ rfl, hstopping, hbusy, htokens, ?_⟩
  · intro n
    simp [pendingIds, completedIds, ids, hcalls, List.count_cons]
  · simp [line, handedIds, ids, hcalls]
  · have hlength := h.waits hstopping
    rw [(tokens_eq_zero htokens).1] at hlength
    exact List.eq_nil_of_length_eq_zero hlength

/-- A limiter that a finished request lets go. -/
theorem Orderly.ready_released (h : Orderly s) (hreleases : s.releases ≠ 0)
    (hstopping : s.stopping = false) :
    Ready ({ s with releases := s.releases - 1, busy := false } : RateLimiter W) := by
  have htokens := h.tokens hstopping
  have hbusy : s.busy = true := by
    cases hbusy : s.busy with
    | true => rfl
    | false => simp [hbusy, RateLimiter.tokens, hreleases] at htokens
  rw [hbusy, if_pos rfl] at htokens
  have hfree : (({ s with releases := s.releases - 1, busy := false } : RateLimiter W)).tokens
      = 0 := by
    simp only [RateLimiter.tokens] at htokens ⊢
    omega
  have hwaits : s.waits = [] := by
    have hlength := h.waits hstopping
    have hwaiting := (tokens_eq_zero hfree).1
    simp only at hwaiting
    rw [hwaiting] at hlength
    exact List.eq_nil_of_length_eq_zero hlength
  exact ⟨h.custody, h.inLine, hstopping, rfl, hfree, hwaits⟩

theorem Orderly.asyncSendImpl {p : Pending} {calls : List Pending} (h : Orderly s)
    (hcalls : s.calls = p :: calls) (now : Int) :
    Orderly (({ s with calls := calls } : RateLimiter W).asyncSendImpl now p) := by
  unfold RateLimiter.asyncSendImpl
  by_cases hstopping : s.stopping = true
  · rw [if_pos hstopping]
    refine ⟨h.custody.move ?_, h.inLine.sublist ?_ rfl, h.single, h.tokens, h.waits, h.idle,
      h.stopped⟩
    · intro n
      simp [pendingIds, completedIds, ids, hcalls, List.count_cons]
      omega
    · simp [line, handedIds, ids, hcalls]
  · rw [if_neg hstopping]
    have hrunning : s.stopping = false := by simpa using hstopping
    by_cases hbusy : s.busy = true
    · have hsame : ({ s with calls := calls, queue := s.queue ++ [p] } : RateLimiter W).startNext
          now = { s with calls := calls, queue := s.queue ++ [p] } := by
        simp [RateLimiter.startNext, hrunning, hbusy]
      rw [hsame]
      refine ⟨h.custody.move ?_, h.inLine.sublist ?_ rfl, h.single, h.tokens, h.waits, ?_, ?_⟩
      · intro n
        simp [pendingIds, completedIds, ids, hcalls, List.count_cons]
      · simp [line, handedIds, ids, hcalls]
      · simp [hbusy]
      · simp [hrunning]
    · exact (h.ready_submitted hcalls hrunning (by simpa using hbusy)).startNext now

/-- The send function has one request. -/
theorem Orderly.sending_eq (h : Orderly s) {p : Pending} {i : Nat} (hp : s.sending[i]? = some p) :
    s.sending = [p] ∧ s.sending.eraseIdx i = [] :=
  eq_singleton_of_getElem? h.single hp

/-- A request that was busy is finished. -/
theorem Orderly.finish {p : Pending} (h : Orderly s) (result : HttpResult)
    {limits : HttpMethod → Text → Option RateLimit} (hsending : s.sending = [p]) :
    Orderly (({ s with sending := [], rateLimits := limits } : RateLimiter W).finishOne p
      result) := by
  refine ⟨h.custody.move ?_, h.inLine.sublist ?_ rfl, ?_, ?_, h.waits, h.idle, h.stopped⟩
  · intro n
    simp [finishOne, pendingIds, completedIds, ids, hsending, List.count_cons]
    omega
  · exact List.Sublist.refl _
  · simp [finishOne]
  · intro hstopping
    refine Eq.trans ?_ (h.tokens hstopping)
    simp [finishOne, RateLimiter.tokens, hsending]
    omega

theorem Orderly.sendCompleted {p : Pending} {i : Nat} (h : Orderly s)
    (hp : s.sending[i]? = some p) (result : HttpResult) :
    Orderly (({ s with sending := s.sending.eraseIdx i } : RateLimiter W).sendCompleted p
      result) := by
  obtain ⟨hsending, herased⟩ := h.sending_eq hp
  rw [herased]
  unfold RateLimiter.sendCompleted
  split
  · exact h.finish _ hsending
  · split
    · exact h.finish _ hsending
    · split
      · refine ⟨h.custody.move ?_, h.inLine.sublist ?_ rfl, ?_, ?_, h.waits, h.idle, h.stopped⟩
        · intro n
          simp [pendingIds, completedIds, ids, hsending, List.count_cons]
          omega
        · exact List.Sublist.refl _
        · simp
        · intro hstopping
          refine Eq.trans ?_ (h.tokens hstopping)
          simp [RateLimiter.tokens, hsending]
          omega
      · exact h.finish _ hsending

/-- After `shutdown` a handler has nothing to start. -/
theorem Orderly.startNext_stopping (h : Orderly s) (hstopping : s.stopping = true) (now : Int) :
    Orderly (s.startNext now) := by
  rw [RateLimiter.startNext_stopping hstopping]
  refine ⟨h.custody, h.inLine, h.single, ?_, h.waits, ?_, ?_⟩
  · intro hrunning
    simp [hstopping] at hrunning
  · intro hrunning
    simp [hstopping] at hrunning
  · intro _
    exact ⟨(h.stopped hstopping).1, (h.stopped hstopping).2.1, rfl⟩

/-- The request that a wait is for is the one that is busy. -/
theorem Orderly.waiting_of_waits {time : Int} {waits : List Int} (h : Orderly s)
    (hwaits : s.waits = time :: waits) (hstopping : s.stopping = false) :
    ∃ p, s.waiting = some p ∧ waits = [] ∧ s.sending = [] ∧ s.lost = [] := by
  have hlength := h.waits hstopping
  have htokens := h.tokens hstopping
  cases hwaiting : s.waiting with
  | none => simp [hwaits, hwaiting] at hlength
  | some p =>
      have hsingle : s.tokens ≤ 1 := by
        rw [htokens]
        split
        · exact Nat.le_refl 1
        · exact Nat.zero_le 1
      simp only [RateLimiter.tokens, hwaiting, Option.toList_some, List.length_singleton] at hsingle
      refine ⟨p, rfl, by simpa [hwaits, hwaiting] using hlength, ?_, ?_⟩
      · exact List.eq_nil_of_length_eq_zero (by omega)
      · exact List.eq_nil_of_length_eq_zero (by omega)

theorem Orderly.waitCompleted {time : Int} {waits : List Int} (h : Orderly s)
    (hwaits : s.waits = time :: waits) (now : Int) (ec : Option Error) :
    Orderly (({ s with waits := waits } : RateLimiter W).waitCompleted now ec) := by
  by_cases hstopping : s.stopping = true
  · obtain ⟨hwaiting, hqueue, hbusy⟩ := h.stopped hstopping
    unfold RateLimiter.waitCompleted
    split
    · have hleft : Orderly ({ s with waits := waits, busy := false } : RateLimiter W) :=
        ⟨h.custody, h.inLine, h.single, by simp [hstopping], by simp [hstopping],
          by simp [hstopping], fun _ => ⟨hwaiting, hqueue, rfl⟩⟩
      exact hleft.startNext_stopping hstopping now
    · next p hsome =>
        have hsome : s.waiting = some p := hsome
        simp [hwaiting] at hsome
  · have hrunning : s.stopping = false := by simpa using hstopping
    have htokens := h.tokens hrunning
    obtain ⟨p, hwaiting, hrest, hsending, -⟩ := h.waiting_of_waits hwaits hrunning
    have hresumes := waitCompleted_cases
      (s := ({ s with waits := waits } : RateLimiter W)) hrunning hwaiting now ec
    generalize ({ s with waits := waits } : RateLimiter W).waitCompleted now ec = s'
      at hresumes
    cases hresumes with
    | handed hec =>
        refine ⟨h.custody.move ?_, h.inLine.sublist ?_ rfl, ?_, ?_, ?_, h.idle, ?_⟩
        · intro n
          simp [pendingIds, completedIds, ids, hsending, hwaiting, List.count_cons]
        · simp [line, handedIds, ids, hwaiting]
        · simp [hsending]
        · intro _
          refine Eq.trans ?_ htokens
          simp [RateLimiter.tokens, hsending, hwaiting]
        · simp [hrest]
        · simp [hrunning]
    | failed =>
        refine ⟨h.custody.move ?_, h.inLine.sublist ?_ rfl, h.single, ?_, ?_, h.idle, ?_⟩
        · intro n
          simp [finishOne, pendingIds, completedIds, ids, hwaiting, List.count_cons]
          omega
        · simp [finishOne, line, handedIds, ids, hwaiting]
        · intro _
          refine Eq.trans ?_ htokens
          simp [finishOne, RateLimiter.tokens, hwaiting]
          omega
        · simp [finishOne, hrest]
        · simp [finishOne, hrunning]

theorem Orderly.release (h : Orderly s) (hreleases : s.releases ≠ 0) (now : Int) :
    Orderly (s.release now) := by
  unfold RateLimiter.release
  by_cases hstopping : s.stopping = true
  · obtain ⟨hwaiting, hqueue, hbusy⟩ := h.stopped hstopping
    have hleft : Orderly ({ s with releases := s.releases - 1, busy := false } : RateLimiter W) :=
      ⟨h.custody, h.inLine, h.single, by simp [hstopping], h.waits, by simp [hstopping],
        fun _ => ⟨hwaiting, hqueue, rfl⟩⟩
    exact hleft.startNext_stopping hstopping now
  · exact (h.ready_released hreleases (by simpa using hstopping)).startNext now

theorem Orderly.shutdown (h : Orderly s) : Orderly s.shutdown := by
  unfold RateLimiter.shutdown
  by_cases hstopping : s.stopping = true
  · rw [if_pos hstopping]
    exact h
  · rw [if_neg hstopping, failAll_eq]
    refine ⟨h.custody.move ?_, h.inLine.sublist ?_ rfl, h.single, ?_, ?_, ?_, ?_⟩
    · intro n
      simp only [pendingIds, completedIds, ids, List.count_append, List.map_append,
        List.map_reverse, List.map_map, List.count_reverse, Function.comp_def]
      simp
      omega
    · simp [line, handedIds, ids]
    · simp
    · simp
    · simp
    · simp

/-- **The invariant** of every run. -/
theorem orderly (h : (machine W).Reachable s) : Orderly s := by
  refine h.invariant ?_ ?_
  · refine ⟨Holds.start, ⟨List.Pairwise.nil, ?_⟩, ?_, ?_, ?_, ?_, ?_⟩
    · intro id hid
      simp [machine, line, handedIds, ids] at hid
    all_goals simp [machine, RateLimiter.tokens]
  · intro s e s' hs hstep
    cases step_ran hstep with
    | send => exact hs.send _
    | asyncSendImpl hcalls => exact hs.asyncSendImpl hcalls _
    | sendCompleted hp => exact hs.sendCompleted hp _
    | waitCompleted hwaits => exact hs.waitCompleted hwaits _ _
    | release hreleases => exact hs.release hreleases _
    | shutdown => exact hs.shutdown

/-! ## What is lost, and what is handed over -/

/-- The step handles no response whose three headers do not convert. -/
def Converts (t : Taken (RateLimiter W) Event) : Prop :=
  ∀ i res headers, t.event = .sendCompleted i (.response res) →
    limitHeaders res = some headers → (rateLimitOf W.undefined headers).isSome = true

theorem doSend_lost (now : Int) (p : Pending) : (s.doSend now p).lost = s.lost := by
  unfold doSend
  split
  · rfl
  · split
    · rfl
    · rfl

theorem startNext_lost (now : Int) : (s.startNext now).lost = s.lost := by
  unfold startNext
  split
  · rfl
  · split
    · rfl
    · split
      · rfl
      · unfold maybeWaitThenSend
        split
        · rfl
        · split
          · split
            · rfl
            · exact doSend_lost now _
          · exact doSend_lost now _

/-- A request goes with the exception of a conversion, and with nothing else. -/
theorem sendCompleted_lost {p : Pending} {res : HttpResponse} :
    (s.sendCompleted p (.response res)).lost = [] ↔ s.lost = [] ∧
      ∀ headers, limitHeaders res = some headers →
        (rateLimitOf W.undefined headers).isSome = true := by
  unfold sendCompleted
  dsimp only
  cases hheaders : limitHeaders res with
  | none => simp [finishOne]
  | some headers =>
      dsimp only
      cases hlimit : rateLimitOf W.undefined headers with
      | none => simp [hlimit]
      | some rl => simp [finishOne, hlimit]

/-- A step loses a request exactly where headers do not convert. -/
theorem step_lost {e : Event} (hstep : s.step e = some s') :
    s'.lost = [] ↔ s.lost = [] ∧ Converts ⟨s, e, s'⟩ := by
  have hother : s'.lost = s.lost → (∀ i res, e ≠ .sendCompleted i (.response res)) →
      (s'.lost = [] ↔ s.lost = [] ∧ Converts ⟨s, e, s'⟩) := by
    intro hsame hevent
    rw [hsame]
    constructor
    · intro hnone
      exact ⟨hnone, fun i res headers hcompleted => absurd hcompleted (hevent i res)⟩
    · exact And.left
  cases step_ran hstep with
  | send => exact hother rfl (by simp)
  | asyncSendImpl hcalls =>
      refine hother ?_ (by simp)
      unfold asyncSendImpl
      split
      · rfl
      · exact startNext_lost _
  | @sendCompleted i result p hp =>
      cases result with
      | error e => exact hother rfl (by simp)
      | response res =>
          rw [sendCompleted_lost]
          apply and_congr_right
          intro _
          constructor
          · intro hconverts i' res' headers hevent hheaders
            obtain ⟨-, hres⟩ := Event.sendCompleted.inj hevent
            obtain rfl := HttpResult.response.inj hres
            exact hconverts headers hheaders
          · intro hconverts headers hheaders
            exact hconverts i res headers rfl hheaders
  | waitCompleted hwaits =>
      refine hother ?_ (by simp)
      unfold waitCompleted
      split
      · exact startNext_lost _
      · dsimp only
        split
        · rfl
        · split
          · rfl
          · exact doSend_lost _ _
  | release => exact hother (startNext_lost _) (by simp)
  | shutdown =>
      refine hother ?_ (by simp)
      unfold shutdown
      split
      · rfl
      · rw [failAll_eq]

theorem startNext_handed (hstopping : s.stopping = true) (now : Int) :
    (s.startNext now).handed = s.handed := by
  rw [startNext_stopping hstopping]

/-- After `shutdown` nothing is handed over. -/
theorem step_handed {e : Event} (hstep : s.step e = some s') (hstopping : s.stopping = true) :
    s'.handed = s.handed := by
  cases step_ran hstep with
  | send => rfl
  | asyncSendImpl hcalls =>
      unfold asyncSendImpl
      rw [if_pos hstopping]
  | sendCompleted hp =>
      unfold sendCompleted
      split
      · rfl
      · split
        · rfl
        · split
          · rfl
          · rfl
  | waitCompleted hwaits =>
      unfold waitCompleted
      split
      · rw [startNext_handed]
        exact hstopping
      · dsimp only
        rw [if_pos hstopping]
        rfl
  | release =>
      rw [release, startNext_handed]
      exact hstopping
  | shutdown =>
      unfold shutdown
      rw [if_pos hstopping]

/-! ## Runs -/

/-- The queue serves its requests: each is completed at most once and not lost, and once
where nothing is in progress; one at a time is handed over, in the order of their
submission, and none after `shutdown`; and an idle limiter has an empty queue. -/
structure Serves (trace : List (Taken (RateLimiter W) Event)) (s : RateLimiter W) : Prop where
  once : ∀ id < s.submitted, s.completedIds.count id + s.pendingIds.count id = 1
  settled : s.calls = [] → s.sending = [] → s.waits = [] → s.releases = 0 →
    ∀ id < s.submitted, s.completedIds.count id = 1
  single : s.sending.length ≤ 1
  ordered : s.handedIds.Pairwise (· < ·)
  final : ∀ t ∈ trace, t.pre.stopping = true → t.post.handed = t.pre.handed
  idle : s.stopping = false → s.busy = false → s.waiting = none → s.queue = []

theorem lost_iff {trace : List (Taken (RateLimiter W) Event)} (hrun : (machine W).Run trace s) :
    s.lost = [] ↔ ∀ t ∈ trace, Converts t := by
  induction hrun with
  | start => simp [machine]
  | step hrun hstep ih =>
      rw [step_lost hstep, ih, List.forall_mem_cons]
      exact and_comm

/-- **The queue of the rate limiter** serves its requests in a run exactly where all
responses with the three headers have headers that convert. -/
theorem serves_iff {trace : List (Taken (RateLimiter W) Event)} (hrun : (machine W).Run trace s) :
    Serves trace s ↔ ∀ t ∈ trace, Converts t := by
  have h := orderly ⟨trace, hrun⟩
  rw [← lost_iff hrun]
  constructor
  · intro hserves
    rw [List.eq_nil_iff_forall_not_mem]
    intro id hid
    have hlt : id < s.submitted :=
      h.custody.mem_iff.mp (List.mem_append_right _ (List.mem_append_left _ hid))
    have hall := h.custody.once hlt
    rw [List.count_append] at hall
    have hone := hserves.once id hlt
    have hcount := List.count_pos_iff.mpr hid
    omega
  · intro hlost
    have hholds : Holds s.submitted (s.pendingIds ++ s.completedIds) := by
      simpa [hlost] using h.custody
    refine ⟨fun id hid => hholds.once hid, ?_, h.single, ?_, ?_,
      fun hrunning hfree _ => h.idle hrunning hfree⟩
    · intro hcalls hsending hwaits hreleases id hid
      have hempty : s.waiting = none ∧ s.queue = [] := by
        by_cases hstopping : s.stopping = true
        · exact ⟨(h.stopped hstopping).1, (h.stopped hstopping).2.1⟩
        · have hrunning : s.stopping = false := by simpa using hstopping
          have hwaiting : s.waiting = none := by
            have hlength := h.waits hrunning
            cases hwaiting : s.waiting with
            | none => rfl
            | some p => simp [hwaits, hwaiting] at hlength
          have htokens := h.tokens hrunning
          have hfree : s.busy = false := by
            cases hbusy : s.busy with
            | false => rfl
            | true =>
                simp [RateLimiter.tokens, hwaiting, hsending, hreleases, hlost, hbusy] at htokens
          exact ⟨hwaiting, h.idle hrunning hfree⟩
      have hnone : s.pendingIds = [] := by
        simp [pendingIds, ids, hcalls, hsending, hempty.1, hempty.2]
      exact hholds.settled hnone hid
    · exact h.inLine.1.sublist (List.sublist_append_left _ _)
    · intro t ht hstopping
      exact step_handed (hrun.mem t ht).2 hstopping

/-- A limiter with a send function, whose clock takes instants out of its range modulo 2^64. -/
def referenceLimiter : LimiterSetting where
  sendFn := true
  undefined seconds := (seconds * 10 ^ 9).bmod (2 ^ 64)

def referenceLimiterMachine : Machine (RateLimiter referenceLimiter) Event :=
  machine referenceLimiter

def limitedResponse (limit remaining reset : Text) : HttpResponse where
  status := 200
  fields :=
    [("X-RateLimit-Limit", limit), ("X-RateLimit-Remaining", remaining),
      ("X-RateLimit-Reset", reset)]

/-- Two requests of one route; the second waits for the end of the window, with `5`, `0`
and `1` in the headers. -/
def referenceWindow : List Event :=
  [.send referenceRequest, .send referenceRequest, .asyncSendImpl 0, .asyncSendImpl 0,
    .sendCompleted 0 (.response (limitedResponse [53] [48] [49])), .release 0,
    .waitCompleted (10 ^ 9) none, .sendCompleted 0 (.error .httpError)]

theorem serves_iff_window :
    Serves (referenceLimiterMachine.recorded referenceWindow).1
        (referenceLimiterMachine.recorded referenceWindow).2 ↔
      ∀ t ∈ (referenceLimiterMachine.recorded referenceWindow).1, Converts t :=
  serves_iff (referenceLimiterMachine.run_recorded _ (by decide +kernel))

/-- Twenty nines in `X-RateLimit-Limit`: the request is not completed and never will be,
and the next one stays in the queue. -/
theorem serves_overflow :
    ∃ trace s, referenceLimiterMachine.Run trace s ∧ s.calls = [] ∧ s.sending = [] ∧
      s.waits = [] ∧ s.releases = 0 ∧ s.submitted = 2 ∧ s.completedIds = [] ∧
      ids s.queue = [1] ∧ s.pendingIds.count 0 = 0 ∧ s.stopping = false :=
  ⟨_, _, referenceLimiterMachine.run_recorded
      [.send referenceRequest, .asyncSendImpl 0,
        .sendCompleted 0 (.response (limitedResponse (List.replicate 20 57) [53] [49])),
        .send referenceRequest, .asyncSendImpl 0]
      (by decide +kernel), by decide +kernel, by decide +kernel, by decide +kernel,
    by decide +kernel, by decide +kernel, by decide +kernel, by decide +kernel, by decide +kernel,
    by decide +kernel⟩

end Ekizu.Rest.RateLimiter
