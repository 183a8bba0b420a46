import Ekizu.Lib.Custody
import Ekizu.Rest.HttpClient

/-!
# Shutdown of the client

Without a token an attempt ends at once, and a retry is an attempt.  The handler of a
connect does not look at the token: a connection that comes after `shutdown` is
stored, and the request that asked for it is handed over.

## Main results

* `custody` — every request is in one place, in every run.
* `shutsDown_iff` — shutdown is final in a run exactly where no connect succeeds
  after it.
* `shutsDown_connected` — one that does.
-/

namespace Ekizu.Rest.HttpClient

open Lib.Custody Lib.Runs

variable {W : ClientSetting} {s s' : HttpClient W}

/-- The numbers of attempts. -/
def ids (attempts : List Attempt) : List Nat := attempts.map (·.pending.id)

/-- The requests whose handlers were not completed. -/
def pendingIds (s : HttpClient W) : List Nat :=
  s.calls.map (·.id) ++ (ids s.connecting ++ ids s.requesting)

/-- The requests whose handlers were completed. -/
def completedIds (s : HttpClient W) : List Nat := s.results.map (·.1)

/-! ## Every handler is completed once -/

/-- A request that is in no place yet goes to one. -/
theorem holds_sendHttpAttempt {p : Pending} {attempt : Nat}
    (h : Holds s.submitted (p.id :: (s.pendingIds ++ s.completedIds))) :
    Holds (s.sendHttpAttempt p attempt).submitted
      ((s.sendHttpAttempt p attempt).pendingIds ++ (s.sendHttpAttempt p attempt).completedIds) := by
  unfold sendHttpAttempt
  split
  · refine h.move ?_
    intro n
    simp [complete, pendingIds, completedIds, List.count_cons]
    omega
  · dsimp only
    split
    · refine h.move ?_
      intro n
      simp [pendingIds, completedIds, ids, List.count_cons]
      omega
    · refine h.move ?_
      intro n
      simp [request, pendingIds, completedIds, ids, List.count_cons]
      omega

theorem holds_retryOrFinish {a : Attempt} {res : HttpResult}
    (h : Holds s.submitted (a.pending.id :: (s.pendingIds ++ s.completedIds))) :
    Holds (s.retryOrFinish a res).submitted
      ((s.retryOrFinish a res).pendingIds ++ (s.retryOrFinish a res).completedIds) := by
  have hcomplete (result : HttpResult) :
      Holds (s.complete a.pending.id result).submitted
        ((s.complete a.pending.id result).pendingIds ++
          (s.complete a.pending.id result).completedIds) := by
    refine h.move ?_
    intro n
    simp [complete, pendingIds, completedIds, List.count_cons]
    omega
  unfold retryOrFinish
  split
  · exact hcomplete _
  · split
    · exact hcomplete _
    · exact holds_sendHttpAttempt h

/-- **Every request is in one place.** -/
theorem custody (h : (machine W).Reachable s) :
    Holds s.submitted (s.pendingIds ++ s.completedIds) := by
  refine h.invariant (P := fun s => Holds s.submitted (s.pendingIds ++ s.completedIds))
    Holds.start ?_
  intro s e s' hs hstep
  cases e with
  | sendHttp req =>
      obtain rfl := Option.some.inj hstep
      refine hs.issue ?_
      intro n
      simp [pendingIds, completedIds, List.count_cons, eq_comm (a := n)]
      omega
  | sendHttpAttempt =>
      simp only [machine, step] at hstep
      split at hstep
      · simp at hstep
      · next p calls hcalls =>
          obtain rfl := Option.some.inj hstep
          apply holds_sendHttpAttempt
          refine hs.move ?_
          intro n
          simp [pendingIds, completedIds, hcalls, List.count_cons]
  | connected i error =>
      simp only [machine, step] at hstep
      split at hstep
      · simp at hstep
      · next a ha =>
          obtain rfl := Option.some.inj hstep
          have hcount := count_eraseIdx (·.pending.id) ha
          cases error with
          | some err =>
              refine hs.move ?_
              intro n
              have hone := hcount n
              simp [connected, complete, pendingIds, completedIds, ids, List.count_cons]
              omega
          | none =>
              refine hs.move ?_
              intro n
              have hone := hcount n
              simp [connected, request, pendingIds, completedIds, ids, List.count_cons]
              omega
  | requestCompleted i res =>
      simp only [machine, step] at hstep
      split at hstep
      · simp at hstep
      · next a ha =>
          obtain rfl := Option.some.inj hstep
          have hcount := count_eraseIdx (·.pending.id) ha
          apply holds_retryOrFinish
          refine hs.move ?_
          intro n
          have hone := hcount n
          simp [pendingIds, completedIds, ids, List.count_cons]
          omega
  | shutdown =>
      obtain rfl := Option.some.inj hstep
      exact hs

/-! ## After `shutdown` -/

def Event.isShutdown : Event → Bool
  | .shutdown => true
  | _ => false

/-- A connect that succeeds. -/
def Event.isConnection : Event → Bool
  | .connected _ none => true
  | _ => false

/-- After `shutdown` a step hands no request over and stores no connection. -/
def Final (log : List (Taken (HttpClient W) Event)) (t : Taken (HttpClient W) Event) : Prop :=
  (∃ t' ∈ log, t'.event.isShutdown = true) →
    t.post.handed = t.pre.handed ∧ t.post.stored = t.pre.stored

/-- The step is a connect that succeeds after `shutdown`. -/
def ConnectsLate (log : List (Taken (HttpClient W) Event)) (t : Taken (HttpClient W) Event) :
    Prop :=
  (∃ t' ∈ log, t'.event.isShutdown = true) ∧ t.event.isConnection = true

/-- Without a token an attempt ends. -/
theorem sendHttpAttempt_none (htoken : s.token = none) (p : Pending) (attempt : Nat) :
    s.sendHttpAttempt p attempt = s.complete p.id (.error .httpNotAuthenticated) := by
  unfold sendHttpAttempt
  rw [htoken]

theorem sendHttpAttempt_token (p : Pending) (attempt : Nat) :
    (s.sendHttpAttempt p attempt).token = s.token := by
  unfold sendHttpAttempt
  split
  · rfl
  · dsimp only
    split
    · rfl
    · rfl

/-- The token goes with `shutdown`. -/
theorem step_token {e : Event} (hstep : s.step e = some s') :
    s'.token = none ↔ s.token = none ∨ e.isShutdown = true := by
  cases e with
  | sendHttp req =>
      obtain rfl := Option.some.inj hstep
      simp [Event.isShutdown]
  | sendHttpAttempt =>
      simp only [step] at hstep
      split at hstep
      · simp at hstep
      · obtain rfl := Option.some.inj hstep
        rw [sendHttpAttempt_token]
        simp [Event.isShutdown]
  | connected i error =>
      simp only [step] at hstep
      split at hstep
      · simp at hstep
      · obtain rfl := Option.some.inj hstep
        cases error with
        | some err => simp [connected, complete, Event.isShutdown]
        | none => simp [connected, request, Event.isShutdown]
  | requestCompleted i res =>
      simp only [step] at hstep
      split at hstep
      · simp at hstep
      · obtain rfl := Option.some.inj hstep
        have htoken (a : Attempt) : (retryOrFinish
            ({ s with requesting := s.requesting.eraseIdx i } : HttpClient W) a res).token =
              s.token := by
          unfold retryOrFinish
          split
          · rfl
          · split
            · rfl
            · rw [sendHttpAttempt_token]
        rw [htoken]
        simp [Event.isShutdown]
  | shutdown =>
      obtain rfl := Option.some.inj hstep
      simp [shutdown, Event.isShutdown]

/-- **Only a connect goes on without a token.** -/
theorem step_final {e : Event} (htoken : s.token = none) (hstep : s.step e = some s') :
    (s'.handed = s.handed ∧ s'.stored = s.stored) ↔ e.isConnection = false := by
  cases e with
  | sendHttp req =>
      obtain rfl := Option.some.inj hstep
      simp [Event.isConnection]
  | sendHttpAttempt =>
      simp only [step] at hstep
      split at hstep
      · simp at hstep
      · obtain rfl := Option.some.inj hstep
        rw [sendHttpAttempt_none]
        · simp [complete, Event.isConnection]
        · exact htoken
  | connected i error =>
      simp only [step] at hstep
      split at hstep
      · simp at hstep
      · obtain rfl := Option.some.inj hstep
        cases error with
        | some err => simp [connected, complete, Event.isConnection]
        | none => simp [connected, request, Event.isConnection]
  | requestCompleted i res =>
      simp only [step] at hstep
      split at hstep
      · simp at hstep
      · obtain rfl := Option.some.inj hstep
        unfold retryOrFinish
        split
        · simp [complete, Event.isConnection]
        · split
          · simp [complete, Event.isConnection]
          · rw [sendHttpAttempt_none]
            · simp [complete, Event.isConnection]
            · exact htoken
  | shutdown =>
      obtain rfl := Option.some.inj hstep
      simp [shutdown, Event.isConnection]

/-! ## Runs -/

theorem token_iff {trace : List (Taken (HttpClient W) Event)} (hrun : (machine W).Run trace s) :
    s.token = none ↔ ∃ t ∈ trace, t.event.isShutdown = true := by
  induction hrun with
  | start => simp [machine]
  | step hrun hstep ih =>
      rw [step_token hstep, ih, List.exists_mem_cons_iff]
      exact or_comm

theorem final_iff {trace : List (Taken (HttpClient W) Event)} (hrun : (machine W).Run trace s) :
    Throughout Final trace ↔ Throughout (fun log t => ¬ ConnectsLate log t) trace := by
  induction hrun with
  | start => exact Iff.rfl
  | @step trace s s' e hrun hstep ih =>
      have hlast : Final trace ⟨s, e, s'⟩ ↔ ¬ ConnectsLate trace ⟨s, e, s'⟩ := by
        unfold Final ConnectsLate
        rw [← token_iff hrun, not_and]
        apply imp_congr_right
        intro htoken
        rw [step_final htoken hstep]
        simp
      exact and_congr hlast ih

/-- Shutdown is final: after it no request is handed over and no connection is stored;
and every request is completed at most once, and once where nothing is in
progress. -/
structure ShutsDown (trace : List (Taken (HttpClient W) Event)) (s : HttpClient W) : Prop where
  final : Throughout Final trace
  once : ∀ id < s.submitted, s.completedIds.count id + s.pendingIds.count id = 1
  settled : s.calls = [] → s.connecting = [] → s.requesting = [] →
    ∀ id < s.submitted, s.completedIds.count id = 1

/-- **Shutdown is final** in a run exactly where no connect succeeds after it. -/
theorem shutsDown_iff {trace : List (Taken (HttpClient W) Event)}
    (hrun : (machine W).Run trace s) :
    ShutsDown trace s ↔ Throughout (fun log t => ¬ ConnectsLate log t) trace := by
  rw [← final_iff hrun]
  constructor
  · exact ShutsDown.final
  · intro hfinal
    have hholds := custody ⟨trace, hrun⟩
    refine ⟨hfinal, fun id hid => hholds.once hid, ?_⟩
    intro hcalls hconnecting hrequesting id hid
    have hnone : s.pendingIds = [] := by
      simp [pendingIds, ids, hcalls, hconnecting, hrequesting]
    exact hholds.settled hnone hid

/-- A client with the token `t`. -/
def referenceClient : ClientSetting where
  token := [116]

def referenceClientMachine : Machine (HttpClient referenceClient) Event :=
  machine referenceClient

/-- The request that a connection has fails after `shutdown` and is not sent again. -/
theorem shutsDown_iff_requesting :
    ShutsDown
        (referenceClientMachine.recorded
          [.sendHttp referenceRequest, .sendHttpAttempt, .connected 0 none, .shutdown,
            .requestCompleted 0 (.error .operationCanceled)]).1
        (referenceClientMachine.recorded
          [.sendHttp referenceRequest, .sendHttpAttempt, .connected 0 none, .shutdown,
            .requestCompleted 0 (.error .operationCanceled)]).2 ↔
      Throughout (fun log t => ¬ ConnectsLate log t)
        (referenceClientMachine.recorded
          [.sendHttp referenceRequest, .sendHttpAttempt, .connected 0 none, .shutdown,
            .requestCompleted 0 (.error .operationCanceled)]).1 :=
  shutsDown_iff (referenceClientMachine.run_recorded _ (by decide +kernel))

/-- `shutdown` comes while the client connects, and the connect succeeds: the connection
is stored and has the request, with the token. -/
theorem shutsDown_connected :
    ∃ trace s, referenceClientMachine.Run trace s ∧ s.token = none ∧ s.http = some 0 ∧
      s.handed.map (·.2.id) = [0] ∧ ¬ Throughout Final trace := by
  refine ⟨_, _, referenceClientMachine.run_recorded
    [.sendHttp referenceRequest, .sendHttpAttempt, .shutdown, .connected 0 none]
    (by decide +kernel), by decide +kernel, by decide +kernel, by decide +kernel, ?_⟩
  intro hfinal
  have hstored := (hfinal.1 (by decide +kernel)).2
  revert hstored
  decide +kernel

end Ekizu.Rest.HttpClient
