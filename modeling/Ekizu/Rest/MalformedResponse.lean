import Ekizu.Rest.RateLimits

/-!
# Responses with malformed headers

The continuation of `do_send` reads three headers of a response before it completes the
request, with converters that throw.  Where one does, the handler is gone with the
exception, and nothing resets the flag that the rest of the queue waits for.

## Main results

* `settled_iff` — a response settles its request exactly where its headers convert.
* `settled_empty` — an empty header does not.
-/

namespace Ekizu.Rest.RateLimiter

open Lib.Custody Lib.Decimal Lib.Runs

variable {W : LimiterSetting} {s s' : RateLimiter W}

/-- Where a response has the three headers, they convert: to two numbers without a sign
and one with. -/
def Convertible (res : HttpResponse) : Prop :=
  ∀ headers ∈ limitHeaders res, (stoull headers.1).isSome = true ∧
    (stoull headers.2.1).isSome = true ∧ (stol headers.2.2).isSome = true

instance (res : HttpResponse) : Decidable (Convertible res) :=
  Option.decidableForallMem (limitHeaders res)

/-- What the end of `finish_one` leaves: the flag is reset, and the next request that is
queued starts, unless the limiter stops. -/
def Freed (s : RateLimiter W) (now : Int) (s' : RateLimiter W) : Prop :=
  if s.stopping then s'.busy = false
  else
    match s.queue with
    | [] => s'.busy = false
    | p :: queue =>
        Starts { s with releases := s.releases - 1, busy := true, queue := queue } now p s'

/-- What `m_rate_limits` holds after a response of a request. -/
def LimitsAfter (s : RateLimiter W) (p : Pending) (res : HttpResponse)
    (s' : RateLimiter W) : Prop :=
  ∀ method target, s'.rateLimits method target =
    match (limitHeaders res).bind (rateLimitOf W.undefined) with
    | some rl =>
        if method = p.req.method ∧ target = p.req.target then some rl
        else s.rateLimits method target
    | none => s.rateLimits method target

/-- A response settles its request: the handler is completed once, no handler goes with an
exception, the end of `finish_one` is due and frees the limiter, and only the limit of the
request's route changes. -/
structure Settled (s : RateLimiter W) (p : Pending) (res : HttpResponse)
    (s' : RateLimiter W) : Prop where
  before : s.completedIds.count p.id = 0
  once : s'.completedIds.count p.id = 1
  kept : s'.lost = s.lost
  due : s'.releases = s.releases + 1
  freed : ∀ now s'', s'.step (.release now) = some s'' → Freed s' now s''
  limits : LimitsAfter s p res s'

theorem convertible_iff (undefined : Int → Int) (res : HttpResponse) :
    Convertible res ↔
      ∀ headers ∈ limitHeaders res, (rateLimitOf undefined headers).isSome = true := by
  apply forall₂_congr
  intro headers _
  unfold rateLimitOf
  cases stoull headers.1 with
  | none => simp
  | some limit =>
      cases stoull headers.2.1 with
      | none => simp
      | some remaining =>
          cases stol headers.2.2 with
          | none => simp
          | some reset => simp

/-- The end of `finish_one` resets the flag and starts the next request. -/
theorem freed_release {now : Int} {s'' : RateLimiter W}
    (hstep : s'.step (.release now) = some s'') : Freed s' now s'' := by
  cases step_ran hstep with
  | release hreleases =>
      let free : RateLimiter W := { s' with releases := s'.releases - 1, busy := false }
      show Freed s' now (free.startNext now)
      unfold Freed
      by_cases hstopping : s'.stopping = true
      · have hfree : free.stopping = true := hstopping
        rw [if_pos hstopping, startNext_stopping hfree]
      · have hfree : free.stopping = false := by simpa using hstopping
        rw [if_neg hstopping]
        rcases startNext_cases hfree now with ⟨hsame, hidle⟩ | ⟨p, queue, -, hqueue, hstarts⟩
        · have hempty : s'.queue = [] := by simpa [free] using hidle
          rw [hsame, hempty]
        · rw [show s'.queue = p :: queue from hqueue]
          exact hstarts

/-- A request that the send function has was not completed before. -/
theorem Orderly.not_completed {p : Pending} {i : Nat} (h : Orderly s)
    (hp : s.sending[i]? = some p) : s.completedIds.count p.id = 0 := by
  obtain ⟨hsending, -⟩ := h.sending_eq hp
  have hpending : p.id ∈ s.pendingIds := by simp [pendingIds, ids, hsending]
  have hlt : p.id < s.submitted := h.custody.mem_iff.mp (List.mem_append_left _ hpending)
  have hcount := h.custody p.id
  rw [if_pos hlt, List.count_append, List.count_append] at hcount
  have hone := List.count_pos_iff.mpr hpending
  omega

/-- **Malformed responses.**  In every state that a limiter can get to, a response settles
its request and lets the next one go exactly where it lacks one of the three headers or
they convert. -/
theorem settled_iff (h : (machine W).Reachable s) {i : Nat} {p : Pending} {res : HttpResponse}
    (hp : s.sending[i]? = some p)
    (hstep : s.step (.sendCompleted i (.response res)) = some s') :
    Settled s p res s' ↔ Convertible res := by
  have hbefore := (orderly h).not_completed hp
  have hs' : s' = ({ s with sending := s.sending.eraseIdx i } : RateLimiter W).sendCompleted p
      (.response res) := by
    simpa [step, hp, eq_comm] using hstep
  have hlimits : LimitsAfter s p res s' := by
    intro method target
    rw [hs']
    refine (sendCompleted_rateLimits p res method target).trans ?_
    cases (limitHeaders res).bind (rateLimitOf W.undefined) <;> rfl
  rw [convertible_iff W.undefined]
  unfold sendCompleted at hs'
  dsimp only at hs'
  constructor
  · intro hsettled headers hheaders
    rw [Option.mem_def] at hheaders
    cases hlimit : rateLimitOf W.undefined headers with
    | some rl => rfl
    | none =>
        have hkept := hsettled.kept
        rw [hs', hheaders] at hkept
        simp [hlimit] at hkept
  · intro hconverts
    have hfinished : ∃ limits, s' = ({ s with
        sending := s.sending.eraseIdx i
        rateLimits := limits } : RateLimiter W).finishOne p (resultOf (.response res)) := by
      cases hheaders : limitHeaders res with
      | none =>
          rw [hheaders] at hs'
          exact ⟨s.rateLimits, hs'⟩
      | some headers =>
          obtain ⟨rl, hrl⟩ := Option.isSome_iff_exists.mp (hconverts headers hheaders)
          rw [hheaders] at hs'
          simp only [hrl] at hs'
          exact ⟨_, hs'⟩
    obtain ⟨limits, hs'⟩ := hfinished
    constructor
    · exact hbefore
    · rw [hs']
      simpa [finishOne, completedIds] using hbefore
    · rw [hs']
      rfl
    · rw [hs']
      rfl
    · intro now s'' hrelease
      exact freed_release hrelease
    · exact hlimits

/-- A limiter whose first request is with the send function while a second one waits. -/
def referenceSent : RateLimiter referenceLimiter :=
  (referenceLimiterMachine.recorded [.send referenceRequest, .asyncSendImpl 0,
    .send referenceRequest, .asyncSendImpl 0]).2

theorem referenceSent_reachable : referenceLimiterMachine.Reachable referenceSent :=
  ⟨_, referenceLimiterMachine.run_recorded _ (by decide +kernel)⟩

/-- A response with the limits 5, 4 and 1. -/
theorem settled_window : ∃ s', referenceSent.step
    (.sendCompleted 0 (.response (limitedResponse [53] [52] [49]))) = some s' ∧
      Settled referenceSent ⟨0, referenceRequest⟩ (limitedResponse [53] [52] [49]) s' := by
  refine ⟨_, rfl, ?_⟩
  have hsent : referenceSent.sending[0]? = some ⟨0, referenceRequest⟩ := by decide +kernel
  exact (settled_iff referenceSent_reachable hsent rfl).mpr (by decide +kernel)

/-- With an empty `X-RateLimit-Limit` the request is not completed. -/
theorem settled_empty :
    ¬ ∀ (s s' : RateLimiter referenceLimiter) (i : Nat) (p : Pending) (res : HttpResponse),
        referenceLimiterMachine.Reachable s → s.sending[i]? = some p →
          s.step (.sendCompleted i (.response res)) = some s' → Settled s p res s' := by
  intro h
  have honce := (h referenceSent _ 0 ⟨0, referenceRequest⟩ (limitedResponse [] [52] [49])
    referenceSent_reachable (by decide +kernel) rfl).once
  exact absurd honce (by decide +kernel)

end Ekizu.Rest.RateLimiter
