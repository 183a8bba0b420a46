import Ekizu.Rest.LimiterQueue
import Mathlib.Tactic.Ring

/-!
# Limits of a route

A request is not handed over before the end of a window that the latest response of
its method and target announced as used up.  The record of a route is what its
latest response said, a request that waits does so for the window of its route,
and a request is handed over only where the record leaves it free.

The record keeps whole seconds: `std::stol` reads `X-RateLimit-Reset` up to its
point, so a window ends early for the limiter by the fraction.

## Main results

* `handed_free` — when a request is handed over.
* `obeys_throughout` — rate limits are obeyed in every run in which the instants
  announced are not truncated.
* `obeys_fraction` — a request handed over in the fraction that is dropped.
-/

namespace Ekizu.Rest.RateLimiter

open Lib.Decimal Lib.Runs

variable {W : LimiterSetting} {s s' : RateLimiter W}

/-! ## What a run says about a route -/

/-- The request that a step brings a response for. -/
def answered (t : Taken (RateLimiter W) Event) : Option (HttpRequest × HttpResponse) :=
  match t.event with
  | .sendCompleted i (.response res) => (t.pre.sending[i]?).map fun p => (p.req, res)
  | _ => none

/-- The latest response for a method and a target. -/
def latest (method : HttpMethod) (target : Text) :
    List (Taken (RateLimiter W) Event) → Option HttpResponse
  | [] => none
  | t :: log =>
      match answered t with
      | some (req, res) =>
          if method = req.method ∧ target = req.target then some res
          else latest method target log
      | none => latest method target log

/-- The response has the three headers, decimal integers in the first two, 0 in the
second, and a decimal number of seconds in the third. -/
def Exhausts (res : HttpResponse) (reset : Numeral) : Prop :=
  ∃ limit remaining : Numeral, limit.fraction = none ∧ remaining.fraction = none ∧
    limitHeaders res = some (limit.text, remaining.text, reset.text) ∧ remaining.integer = 0

/-- A request that the step hands over is not early for the latest response of its
route: the instant, in nanoseconds over the scale of its numeral, is not after
the clock. -/
def Obeys (log : List (Taken (RateLimiter W) Event)) (t : Taken (RateLimiter W) Event) : Prop :=
  ∀ now p res reset, t.post.handed = (now, p) :: t.pre.handed →
    latest p.req.method p.req.target log = some res → Exhausts res reset →
      reset.numerator * 10 ^ 9 ≤ now * reset.scale

/-- A number of seconds that loses nothing which matters: no fraction, or one of a
number below 0, and within the range of the clock. -/
def Kept (reset : Numeral) : Prop :=
  (reset.negative = true ∨ digitsValue (reset.fraction.getD []) = 0) ∧
    -9223372036 ≤ reset.integer ∧ reset.integer ≤ 9223372036

/-- The step brings a response whose headers convert, and the instant of a window that
is used up does not come through. -/
def Truncates (t : Taken (RateLimiter W) Event) : Prop :=
  ∃ req res headers reset, answered t = some (req, res) ∧ limitHeaders res = some headers ∧
    (rateLimitOf W.undefined headers).isSome = true ∧ Exhausts res reset ∧ ¬ Kept reset

theorem latest_mem {method : HttpMethod} {target : Text} {res : HttpResponse}
    {log : List (Taken (RateLimiter W) Event)} (h : latest method target log = some res) :
    ∃ t ∈ log, ∃ req, answered t = some (req, res) := by
  induction log with
  | nil => simp [latest] at h
  | cons t log ih =>
      have hbefore (hlog : latest method target log = some res) :
          ∃ t' ∈ t :: log, ∃ req, answered t' = some (req, res) := by
        obtain ⟨t', ht', hanswered⟩ := ih hlog
        exact ⟨t', List.mem_cons_of_mem _ ht', hanswered⟩
      simp only [latest] at h
      split at h
      · next req res' hanswered =>
          split at h
          · obtain rfl := Option.some.inj h
            exact ⟨t, List.mem_cons_self, req, hanswered⟩
          · exact hbefore h
      · exact hbefore h

/-! ## A request that waits -/

/-- A request that waits does so for the window that its route has on record. -/
def WaitsForReset (s : RateLimiter W) : Prop :=
  s.stopping = false → ∀ p, s.waiting = some p →
    ∃ rl, s.rateLimits p.req.method p.req.target = some rl ∧ s.waits = [rl.resetTime]

/-- The record leaves a request free at a time. -/
def Free (s : RateLimiter W) (now : Int) (p : Pending) : Prop :=
  s.lost = [] ∧ ∀ rl, s.rateLimits p.req.method p.req.target = some rl →
    rl.remaining = 0 → rl.resetTime ≤ now

theorem WaitsForReset.of_none (h : s.waiting = none) : WaitsForReset s := by
  intro _ p hp
  simp [h] at hp

theorem startNext_waiting (hstopping : s.stopping = true) (now : Int) :
    (s.startNext now).waiting = s.waiting := by
  rw [startNext_stopping hstopping]

theorem Ready.startNext_waitsForReset (h : Ready s) (now : Int) :
    WaitsForReset (s.startNext now) := by
  have hwaiting := (tokens_eq_zero h.tokens).1
  rcases startNext_cases h.stopping now with ⟨hsame, -⟩ | ⟨p, queue, -, -, hstarts⟩
  · rw [hsame]
    exact .of_none hwaiting
  · generalize s.startNext now = s' at hstarts
    cases hstarts with
    | waits hlimit hremaining hlate =>
        intro _ p' hp'
        obtain rfl := Option.some.inj hp'
        exact ⟨_, hlimit, by simp [h.waits]⟩
    | handed hfree => exact .of_none hwaiting
    | failed => exact .of_none hwaiting

theorem Ready.startNext_free {now time : Int} {p : Pending} (h : Ready s)
    (hhanded : (s.startNext now).handed = (time, p) :: s.handed) : Free s time p := by
  rcases startNext_cases h.stopping now with ⟨hsame, -⟩ | ⟨p', queue, -, -, hstarts⟩
  · rw [hsame] at hhanded
    simp at hhanded
  · generalize s.startNext now = s' at hstarts hhanded
    cases hstarts with
    | waits hlimit hremaining hlate => simp at hhanded
    | handed hfree =>
        obtain ⟨heq, -⟩ := List.cons.inj hhanded
        obtain ⟨rfl, rfl⟩ := Prod.mk.inj heq
        exact ⟨(tokens_eq_zero h.tokens).2.2.2, hfree⟩
    | failed => simp [finishOne] at hhanded

/-- The handler of the send function leaves the wait and what was handed over alone. -/
theorem sendCompleted_frame (p : Pending) (result : HttpResult) :
    (s.sendCompleted p result).stopping = s.stopping ∧
      (s.sendCompleted p result).waiting = s.waiting ∧
        (s.sendCompleted p result).handed = s.handed := by
  unfold sendCompleted
  split
  · exact ⟨rfl, rfl, rfl⟩
  · split
    · exact ⟨rfl, rfl, rfl⟩
    · split
      · exact ⟨rfl, rfl, rfl⟩
      · exact ⟨rfl, rfl, rfl⟩

/-- Nothing waits while the send function has a request. -/
theorem Orderly.waiting_of_sending {p : Pending} {i : Nat} (h : Orderly s)
    (hp : s.sending[i]? = some p) (hstopping : s.stopping = false) : s.waiting = none := by
  have htokens := h.tokens hstopping
  obtain ⟨hsending, -⟩ := h.sending_eq hp
  cases hwaiting : s.waiting with
  | none => rfl
  | some q =>
      simp only [RateLimiter.tokens, hsending, hwaiting, Option.toList_some,
        List.length_singleton] at htokens
      split at htokens
      · omega
      · omega

theorem step_waitsForReset {e : Event} (h : Orderly s) (hwaits : WaitsForReset s)
    (hstep : s.step e = some s') : WaitsForReset s' := by
  cases step_ran hstep with
  | send => exact hwaits
  | @asyncSendImpl now p calls hcalls =>
      unfold asyncSendImpl
      by_cases hstopping : s.stopping = true
      · rw [if_pos hstopping]
        exact hwaits
      · rw [if_neg hstopping]
        have hrunning : s.stopping = false := by simpa using hstopping
        by_cases hbusy : s.busy = true
        · unfold startNext
          rw [if_neg hstopping, if_pos hbusy]
          exact hwaits
        · have hready := h.ready_submitted hcalls hrunning (by simpa using hbusy)
          exact hready.startNext_waitsForReset now
  | @sendCompleted i result p hp =>
      obtain ⟨hstopping, hwaiting, -⟩ := sendCompleted_frame
        (s := ({ s with sending := s.sending.eraseIdx i } : RateLimiter W)) p result
      intro hrunning
      rw [hstopping] at hrunning
      rw [hwaiting]
      simp [h.waiting_of_sending hp hrunning]
  | @waitCompleted now ec time waits htimes hreached =>
      by_cases hstopping : s.stopping = true
      · apply WaitsForReset.of_none
        unfold waitCompleted
        simp only [(h.stopped hstopping).1]
        rw [startNext_waiting]
        exact hstopping
      · have hrunning : s.stopping = false := by simpa using hstopping
        obtain ⟨p, hwaiting, -, -, -⟩ := h.waiting_of_waits htimes hrunning
        have hresumes := waitCompleted_cases
          (s := ({ s with waits := waits } : RateLimiter W)) hrunning hwaiting now ec
        apply WaitsForReset.of_none
        generalize ({ s with waits := waits } : RateLimiter W).waitCompleted now ec = s'
          at hresumes
        cases hresumes with
        | handed hec => rfl
        | failed => rfl
  | @release now hreleases =>
      by_cases hstopping : s.stopping = true
      · apply WaitsForReset.of_none
        rw [release, startNext_waiting]
        · exact (h.stopped hstopping).1
        · exact hstopping
      · have hready := h.ready_released hreleases (by simpa using hstopping)
        exact hready.startNext_waitsForReset now
  | shutdown =>
      unfold shutdown
      by_cases hstopping : s.stopping = true
      · rw [if_pos hstopping]
        exact hwaits
      · rw [if_neg hstopping, failAll_eq]
        exact .of_none rfl

theorem waitsForReset (h : (machine W).Reachable s) : WaitsForReset s := by
  obtain ⟨trace, hrun⟩ := h
  induction hrun with
  | start => exact .of_none rfl
  | step hrun hstep ih => exact step_waitsForReset (orderly ⟨_, hrun⟩) ih hstep

/-- **When a request is handed over**: the record of its route leaves it free. -/
theorem handed_free {e : Event} {now : Int} {p : Pending} (h : (machine W).Reachable s)
    (hstep : s.step e = some s') (hhanded : s'.handed = (now, p) :: s.handed) :
    Free s now p := by
  have horderly := orderly h
  have hrunning : s.stopping = false := by
    cases hstopping : s.stopping with
    | false => rfl
    | true => simp [step_handed hstep hstopping] at hhanded
  cases step_ran hstep with
  | send => simp [send] at hhanded
  | @asyncSendImpl time p' calls hcalls =>
      unfold asyncSendImpl at hhanded
      rw [if_neg (by simp [hrunning])] at hhanded
      cases hbusy : s.busy with
      | true =>
          unfold startNext at hhanded
          rw [if_neg (by simp [hrunning]), if_pos hbusy] at hhanded
          simp at hhanded
      | false => exact (horderly.ready_submitted hcalls hrunning hbusy).startNext_free hhanded
  | @sendCompleted i result p' hp =>
      rw [(sendCompleted_frame p' result).2.2] at hhanded
      simp at hhanded
  | @waitCompleted time ec reset waits htimes hreached =>
      obtain ⟨p', hwaiting, hrest, -, hlost⟩ := horderly.waiting_of_waits htimes hrunning
      have hresumes := waitCompleted_cases
        (s := ({ s with waits := waits } : RateLimiter W)) hrunning hwaiting time ec
      generalize ({ s with waits := waits } : RateLimiter W).waitCompleted time ec = s'
        at hresumes hhanded
      cases hresumes with
      | handed hec =>
          obtain ⟨heq, -⟩ := List.cons.inj hhanded
          obtain ⟨rfl, rfl⟩ := Prod.mk.inj heq
          obtain ⟨rl, hlimit, hreset⟩ := waitsForReset h hrunning p' hwaiting
          rw [htimes, hrest] at hreset
          refine ⟨hlost, ?_⟩
          intro rl' hlimit' _
          obtain rfl := Option.some.inj (hlimit.symm.trans hlimit')
          rw [← List.singleton_inj.mp hreset]
          exact hreached hec
      | failed => simp [finishOne] at hhanded
  | release hreleases => exact (horderly.ready_released hreleases hrunning).startNext_free hhanded
  | shutdown =>
      unfold shutdown at hhanded
      rw [if_neg (by simp [hrunning]), failAll_eq] at hhanded
      simp at hhanded

/-! ## The record of a route -/

/-- The record of a route is what its latest response said. -/
def Remembers (log : List (Taken (RateLimiter W) Event)) (s : RateLimiter W) : Prop :=
  s.lost = [] → ∀ method target res headers, latest method target log = some res →
    limitHeaders res = some headers →
      ∃ rl, rateLimitOf W.undefined headers = some rl ∧ s.rateLimits method target = some rl

/-- Only the handler of a response changes the records. -/
theorem startNext_rateLimits (now : Int) : (s.startNext now).rateLimits = s.rateLimits := by
  cases hstopping : s.stopping with
  | true => rw [startNext_stopping hstopping]
  | false =>
      rcases startNext_cases hstopping now with ⟨hsame, -⟩ | ⟨p, queue, -, -, hstarts⟩
      · rw [hsame]
      · generalize s.startNext now = s' at hstarts
        cases hstarts with
        | waits hlimit hremaining hlate => rfl
        | handed hfree => rfl
        | failed => rfl

theorem waitCompleted_rateLimits (now : Int) (ec : Option Error) :
    (s.waitCompleted now ec).rateLimits = s.rateLimits := by
  unfold waitCompleted
  split
  · exact startNext_rateLimits now
  · dsimp only
    split
    · rfl
    · split
      · rfl
      · unfold doSend
        split
        · rfl
        · split
          · rfl
          · rfl

theorem sendCompleted_rateLimits (p : Pending) (res : HttpResponse) (method : HttpMethod)
    (target : Text) :
    (s.sendCompleted p (.response res)).rateLimits method target =
      match (limitHeaders res).bind (rateLimitOf W.undefined) with
      | some rl =>
          if method = p.req.method ∧ target = p.req.target then some rl
          else s.rateLimits method target
      | none => s.rateLimits method target := by
  unfold sendCompleted
  dsimp only
  cases hheaders : limitHeaders res with
  | none => rfl
  | some headers =>
      rw [Option.bind_some]
      dsimp only
      cases hlimit : rateLimitOf W.undefined headers with
      | none => rfl
      | some rl => rfl

theorem Remembers.step {log : List (Taken (RateLimiter W) Event)} {e : Event}
    (h : Remembers log s) (hstep : s.step e = some s') : Remembers (⟨s, e, s'⟩ :: log) s' := by
  intro hlost method target res headers hlatest hheaders
  obtain ⟨hbefore, hconverts⟩ := (step_lost hstep).mp hlost
  have hother (hrecords : s'.rateLimits = s.rateLimits) (hnone : answered ⟨s, e, s'⟩ = none) :
      ∃ rl, rateLimitOf W.undefined headers = some rl ∧
        s'.rateLimits method target = some rl := by
    simp only [latest, hnone] at hlatest
    rw [hrecords]
    exact h hbefore method target res headers hlatest hheaders
  cases step_ran hstep with
  | send => exact hother rfl rfl
  | asyncSendImpl hcalls =>
      refine hother ?_ rfl
      unfold asyncSendImpl
      split
      · rfl
      · exact startNext_rateLimits _
  | @sendCompleted i result p hp =>
      cases result with
      | error e => exact hother rfl rfl
      | response res' =>
          simp only [latest, answered, hp, Option.map_some] at hlatest
          rw [sendCompleted_rateLimits]
          by_cases hroute : method = p.req.method ∧ target = p.req.target
          · rw [if_pos hroute] at hlatest
            obtain rfl := Option.some.inj hlatest
            have hsome := hconverts i res' headers rfl hheaders
            obtain ⟨rl, hlimit⟩ := Option.isSome_iff_exists.mp hsome
            exact ⟨rl, hlimit, by simp [hheaders, hlimit, hroute]⟩
          · rw [if_neg hroute] at hlatest
            obtain ⟨rl, hlimit, hrecord⟩ := h hbefore method target res headers hlatest hheaders
            refine ⟨rl, hlimit, ?_⟩
            split
            · rw [if_neg hroute]
              exact hrecord
            · exact hrecord
  | waitCompleted => exact hother (waitCompleted_rateLimits _ _) rfl
  | release => exact hother (startNext_rateLimits _) rfl
  | shutdown =>
      refine hother ?_ rfl
      unfold shutdown
      split
      · rfl
      · rw [failAll_eq]

theorem remembers {trace : List (Taken (RateLimiter W) Event)} (hrun : (machine W).Run trace s) :
    Remembers trace s := by
  induction hrun with
  | start =>
      intro _ method target res headers hlatest
      simp [latest] at hlatest
  | step hrun hstep ih => exact ih.step hstep

/-! ## Runs -/

/-- What the record of a used up window says. -/
theorem rateLimitOf_exhausts {res : HttpResponse} {headers : Text × Text × Text}
    {reset : Numeral} {rl : RateLimit} (hexhausts : Exhausts res reset)
    (hheaders : limitHeaders res = some headers)
    (hlimit : rateLimitOf W.undefined headers = some rl) :
    rl.remaining = 0 ∧ rl.resetTime = fromTimeT W.undefined reset.integer := by
  obtain ⟨limit, remaining, -, -, htexts, hzero⟩ := hexhausts
  obtain rfl := Option.some.inj (hheaders.symm.trans htexts)
  unfold rateLimitOf at hlimit
  dsimp only at hlimit
  rw [stoull_text_zero remaining hzero, stol_text reset] at hlimit
  split at hlimit
  · next limit' remaining' reset' hl hr ht =>
      obtain rfl := Option.some.inj hlimit
      obtain rfl := Option.some.inj hr
      split at ht
      · simp at ht
      · obtain rfl := Option.some.inj ht
        exact ⟨rfl, rfl⟩
  · simp at hlimit

/-- What is kept of an instant is not before it. -/
theorem Kept.le {reset : Numeral} (h : Kept reset) :
    reset.numerator * 10 ^ 9 ≤ fromTimeT W.undefined reset.integer * reset.scale := by
  have hle := reset.numerator_le h.1
  unfold fromTimeT
  rw [if_pos h.2]
  calc reset.numerator * 10 ^ 9 ≤ reset.integer * reset.scale * 10 ^ 9 :=
        Int.mul_le_mul_of_nonneg_right hle (by decide)
    _ = reset.integer * 10 ^ 9 * reset.scale := by ring

/-- **Rate limits are obeyed** in a run in which no instant of a used up window is
truncated: no request is handed over before the instant that the latest response of
its route gave. -/
theorem obeys_throughout {trace : List (Taken (RateLimiter W) Event)}
    (hrun : (machine W).Run trace s) (hkept : ∀ t ∈ trace, ¬ Truncates t) :
    Throughout Obeys trace := by
  induction hrun with
  | start => trivial
  | @step trace s s' e hrun hstep ih =>
      refine ⟨?_, ih fun t ht => hkept t (List.mem_cons_of_mem _ ht)⟩
      intro now p res reset hhanded hlatest hexhausts
      obtain ⟨hlost, hfree⟩ := handed_free ⟨_, hrun⟩ hstep hhanded
      obtain ⟨limit, remaining, -, -, hheaders, -⟩ := id hexhausts
      obtain ⟨rl, hlimit, hrecord⟩ := remembers hrun hlost _ _ res _ hlatest hheaders
      obtain ⟨hzero, hreset⟩ := rateLimitOf_exhausts hexhausts hheaders hlimit
      obtain ⟨t, ht, req, hanswered⟩ := latest_mem hlatest
      have hinstant : Kept reset := by
        by_contra hloses
        have hsome : (rateLimitOf W.undefined
            (limit.text, remaining.text, reset.text)).isSome = true := by simp [hlimit]
        exact hkept t (List.mem_cons_of_mem _ ht)
          ⟨req, res, _, reset, hanswered, hheaders, hsome, hexhausts, hloses⟩
      have hnow := hfree rl hrecord hzero
      rw [hreset] at hnow
      calc reset.numerator * 10 ^ 9 ≤ fromTimeT W.undefined reset.integer * reset.scale :=
            hinstant.le
        _ ≤ now * reset.scale := Int.mul_le_mul_of_nonneg_right hnow reset.scale_pos.le

/-- A text without a point, in the range of the clock, is kept. -/
theorem Kept.of_text {reset : Numeral} {n : Int} (hpoint : 46 ∉ reset.text)
    (hread : stol reset.text = some n) (hlow : -9223372036 ≤ n) (hhigh : n ≤ 9223372036) :
    Kept reset := by
  rw [stol_text] at hread
  split at hread
  · simp at hread
  · obtain rfl := Option.some.inj hread
    refine ⟨.inr ?_, hlow, hhigh⟩
    rw [reset.fraction_eq_none hpoint]
    rfl

theorem obeys_throughout_window :
    Throughout Obeys (referenceLimiterMachine.recorded referenceWindow).1 := by
  refine obeys_throughout (referenceLimiterMachine.run_recorded _ (by decide +kernel)) ?_
  intro t ht htruncates
  obtain ⟨req, res, headers, reset, hanswered, -, -, hexhausts, hloses⟩ := htruncates
  obtain ⟨limit, remaining, -, -, htexts, -⟩ := hexhausts
  have hmem : (req, res) ∈
      (referenceLimiterMachine.recorded referenceWindow).1.filterMap answered :=
    List.mem_filterMap.mpr ⟨t, ht, hanswered⟩
  have hanswers : (referenceLimiterMachine.recorded referenceWindow).1.filterMap answered =
      [(referenceRequest, limitedResponse [53] [48] [49])] := by decide +kernel
  rw [hanswers, List.mem_singleton] at hmem
  obtain ⟨rfl, rfl⟩ := Prod.mk.inj hmem
  have hfields : limitHeaders (limitedResponse [53] [48] [49]) = some ([53], [48], [49]) := by
    decide +kernel
  obtain ⟨-, hpair⟩ := Prod.mk.inj (Option.some.inj (htexts.symm.trans hfields))
  obtain ⟨-, hreset⟩ := Prod.mk.inj hpair
  have hread : stol [49] = some 1 := by decide
  rw [← hreset] at hread
  exact hloses (.of_text (by simp [hreset]) hread (by decide) (by decide))

/-- The number `1470173023.123`. -/
def referenceReset : Numeral where
  negative := false
  whole := [49, 52, 55, 48, 49, 55, 51, 48, 50, 51]
  fraction := some [49, 50, 51]
  whole_ne := by decide
  whole_digits := by decide +kernel
  fraction_digits := by decide +kernel

/-- The number of one digit. -/
def digitNumeral (b : UInt8) (hb : isDigit b = true) : Numeral where
  negative := false
  whole := [b]
  fraction := none
  whole_ne := by simp
  whole_digits := by simp [hb]
  fraction_digits := by simp

/-- `X-RateLimit-Reset: 1470173023.123` with no request left: the next request of the
route is handed over at 1470173023 seconds. -/
theorem obeys_fraction :
    ∃ trace s, referenceLimiterMachine.Run trace s ∧ ¬ Throughout Obeys trace := by
  refine ⟨_, _, referenceLimiterMachine.run_recorded
    [.send referenceRequest, .send referenceRequest, .asyncSendImpl 0, .asyncSendImpl 0,
      .sendCompleted 0 (.response (limitedResponse [53] [48] referenceReset.text)),
      .release (1470173023 * 10 ^ 9)] (by decide +kernel), ?_⟩
  intro hobeys
  have hlate := hobeys.1 (1470173023 * 10 ^ 9) ⟨1, referenceRequest⟩
    (limitedResponse [53] [48] referenceReset.text) referenceReset (by decide +kernel)
    (by decide +kernel)
    ⟨digitNumeral 53 (by decide), digitNumeral 48 (by decide), rfl, rfl, by decide +kernel,
      by decide⟩
  revert hlate
  decide +kernel

end Ekizu.Rest.RateLimiter
