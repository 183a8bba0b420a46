import Ekizu.Gateway.Requests

/-!
# The back-off between attempts to connect

`reconnect_async` waits two to the power of `m_reconnect_attempts` seconds, at
most 128.  The counter goes up with every attempt that fails and never down, and
the power is cast to 64 bits before the minimum is taken.

## Main results

* `reconnectAttempts_eq` — the counter is the number of all attempts that failed.
* `backoff_iff` — when a wait is as long as the attempts that failed since the
  last connection ask for.
* `backoff_afterConnection` — a run in which it is longer.
-/

namespace Ekizu.Gateway.Shard

open Lib Lib.Runs

variable {W : Setting} {s s' : Shard W}

/-- An attempt to connect that fails. -/
def Event.isConnectFailed : Event → Bool
  | .connectFailed _ _ => true
  | _ => false

/-- An attempt to connect that succeeds. -/
def Event.isConnected : Event → Bool
  | .connected _ _ => true
  | _ => false

/-- All attempts that failed. -/
def allFailures (trace : List (Taken (Shard W) Event)) : Nat :=
  trace.countP fun t => t.event.isConnectFailed

/-- The attempts that failed since the last one that succeeded. -/
def failures (trace : List (Taken (Shard W) Event)) : Nat :=
  allFailures (trace.takeWhile fun t => !t.event.isConnected)

/-- The step makes a request wait that long before it connects. -/
def StartsWaiting (t : Taken (Shard W) Event) (delay : Option Nat) : Prop :=
  ∃ i, t.post.phase i = .backingOff delay ∧ t.pre.phase i ≠ .backingOff delay

/-- The counter asks for the same delay as the failures since the last
connection: the power fits 64 bits, and the two are equal or past the maximum. -/
def CountsAlike (trace : List (Taken (Shard W) Event)) : Prop :=
  allFailures trace % 2 ^ 64 < 64 ∧
    (allFailures trace % 2 ^ 64 = failures trace ∨
      7 ≤ allFailures trace % 2 ^ 64 ∧ 7 ≤ failures trace)

/-! ## The counter -/

/-- Only an attempt that fails changes the counter. -/
theorem step_reconnectAttempts {e : Event} (hstep : s.step e = some s') :
    s'.reconnectAttempts =
      if e.isConnectFailed then s.reconnectAttempts + 1 else s.reconnectAttempts := by
  rw [step_field (·.reconnectAttempts) (fun _ => rfl) hstep]
  cases e with
  | message i payload isBinary =>
      cases hjson : s.received (.message i payload isBinary) with
      | none => rw [after_message_none hjson]; rfl
      | some json =>
          obtain ⟨inflater, hafter⟩ := after_message hjson
          obtain ⟨_, _, _, _, _, _, _, _, _, _, hframe⟩ :=
            handled_frame (s := { s with inflater := inflater }) json
          rw [hafter, hframe]
          rfl
  | heartbeatExpired =>
      obtain ⟨_, _, _, _, _, _, _, _, hframe⟩ :=
        heartbeatExpired_frame (s := { s with expired := s.expired - 1 })
      simp only [after, hframe]
      rfl
  | heartbeatSent =>
      obtain ⟨waiting, hframe⟩ :=
        heartbeatTick_frame (s := { s with heartbeatSends := s.heartbeatSends - 1 })
      simp only [after, hframe]
      rfl
  | close reason =>
      simp only [after, closeImpl_fst]
      rfl
  | nextEvent | backoffExpired | connectFailed | connected | readFailed | sendCompleted
  | closeCompleted | timerExpired => rfl

/-- **The counter** is the number of all attempts that failed, as 64 bits. -/
theorem reconnectAttempts_eq {trace : List (Taken (Shard W) Event)}
    (hrun : (machine W).Run trace s) :
    s.reconnectAttempts.toNat = allFailures trace % 2 ^ 64 := by
  induction hrun with
  | start => rfl
  | @step trace s s' e hrun hstep ih =>
      rw [step_reconnectAttempts hstep, allFailures, List.countP_cons]
      by_cases hfailed : e.isConnectFailed = true
      · rw [if_pos hfailed, if_pos hfailed, UInt64.toNat_add, ih, allFailures]
        simp [Nat.add_mod]
      · rw [if_neg hfailed, if_neg hfailed, ih]
        rfl

/-! ## The delay -/

/-- A request waits only for the delay that the counter asks for. -/
theorem outcome_backingOff {e : Event} {i : Nat} {o : Outcome} {delay : Option Nat}
    (houtcome : s.outcome e = some (i, o)) (hphase : o.phase = .backingOff delay) :
    delay = backoff s.reconnectAttempts := by
  rcases outcome_connects houtcome (.inl ⟨delay, hphase⟩) with ⟨isOpen, rfl⟩ | ⟨hreading, -⟩
  · unfold connectOutcome at hphase
    split at hphase
    · split at hphase
      · simp [Outcome.phase] at hphase
      · simpa [Outcome.phase] using hphase.symm
    · simp [Outcome.phase] at hphase
  · simp [hphase] at hreading

/-- A wait that starts is the one the counter asks for. -/
theorem startsWaiting_delay {e : Event} {delay : Option Nat} (hstep : s.step e = some s')
    (hstarts : StartsWaiting ⟨s, e, s'⟩ delay) : delay = backoff s.reconnectAttempts := by
  obtain ⟨i, hpost, hpre⟩ := hstarts
  rcases step_phase hstep i with hsame | ⟨o, houtcome, hphase | hover⟩
  · exact absurd (hsame.symm.trans hpost) hpre
  · exact outcome_backingOff houtcome (hphase.symm.trans hpost)
  · exact absurd (hover.symm.trans hpost) (by simp)

/-- Two counters ask for the same delay where they are equal or both past the
maximum. -/
theorem min_pow_inj {a b : Nat} :
    min (2 ^ a) 128 = min (2 ^ b) 128 ↔ a = b ∨ 7 ≤ a ∧ 7 ≤ b := by
  have hsmall : ∀ {n : Nat}, n < 7 → 2 ^ n < 128 := by
    intro n hn
    calc 2 ^ n < 2 ^ 7 := Nat.pow_lt_pow_right (by omega) hn
      _ = 128 := rfl
  have hlarge : ∀ {n : Nat}, 7 ≤ n → 128 ≤ 2 ^ n := by
    intro n hn
    calc 128 = 2 ^ 7 := rfl
      _ ≤ 2 ^ n := Nat.pow_le_pow_right (by omega) hn
  by_cases ha : a < 7
  · by_cases hb : b < 7
    · rw [Nat.min_eq_left (hsmall ha).le, Nat.min_eq_left (hsmall hb).le]
      rw [Nat.pow_right_inj (by omega : 1 < 2)]
      omega
    · have := hsmall ha
      have := hlarge (Nat.le_of_not_lt hb)
      omega
  · have := hlarge (Nat.le_of_not_lt ha)
    by_cases hb : b < 7
    · have := hsmall hb
      omega
    · have := hlarge (Nat.le_of_not_lt hb)
      omega

/-- The counter asks for the right delay exactly where it counts alike. -/
theorem backoff_eq_iff {trace : List (Taken (Shard W) Event)}
    (hcounter : s.reconnectAttempts.toNat = allFailures trace % 2 ^ 64) :
    backoff s.reconnectAttempts = some (min (2 ^ failures trace) 128) ↔ CountsAlike trace := by
  unfold backoff CountsAlike
  rw [hcounter]
  by_cases hfits : allFailures trace % 2 ^ 64 < 64
  · rw [if_pos hfits, Option.some.injEq, min_pow_inj]
    simp only [hfits, true_and]
  · rw [if_neg hfits]
    constructor
    · intro hnone
      simp at hnone
    · intro halike
      exact absurd halike.1 hfits

/-! ## Runs -/

/-- **The back-off.**  In every run, a wait is the minimum of 128 seconds and two
to the power of the attempts that failed since the last connection exactly where
the counter counts alike. -/
theorem backoff_iff {trace : List (Taken (Shard W) Event)} (hrun : (machine W).Run trace s) :
    Throughout
      (fun before t => ∀ delay, StartsWaiting t delay →
        (delay = some (min (2 ^ failures before) 128) ↔ CountsAlike before)) trace := by
  induction hrun with
  | start => trivial
  | @step trace s s' e hrun hstep ih =>
      refine ⟨?_, ih⟩
      intro delay hstarts
      rw [startsWaiting_delay hstep hstarts]
      exact backoff_eq_iff (reconnectAttempts_eq hrun)

/-- The first attempts of a shard. -/
theorem backoff_iff_first :
    Throughout
      (fun before t => ∀ delay, StartsWaiting t delay →
        (delay = some (min (2 ^ failures before) 128) ↔ CountsAlike before))
      ((referenceMachine []).recorded
        [.nextEvent false, .backoffExpired 0 none, .connectFailed 0 (.other 111),
          .nextEvent false]).1 :=
  backoff_iff ((referenceMachine []).run_recorded _ (by decide +kernel))

/-- One attempt fails, the next connects, and after a read error the shard waits
two seconds instead of one. -/
theorem backoff_afterConnection :
    ∃ before t s, (referenceMachine []).Run (t :: before) s ∧ StartsWaiting t (some 2) ∧
      failures before = 0 := by
  have hrun := (referenceMachine []).run_recorded
    [.nextEvent false, .backoffExpired 0 none, .connectFailed 0 (.other 111), .nextEvent false,
      .backoffExpired 1 none, .connected 1 true, .readFailed 1 .eof false] (by decide +kernel)
  exact ⟨_, _, _, hrun, ⟨1, by decide +kernel, by decide +kernel⟩, by decide +kernel⟩

end Ekizu.Gateway.Shard
