import Ekizu.Timer.DueOrder

/-!
# The deadline of the runner

The runner waits until the time of the first task and tests nothing but that time when
it is notified.  So its deadline stays right only as long as no earlier task comes.

## Main results

* `Timely.step` — what a step keeps that is in time.
* `waitsForFirst` — the deadline of a waiting runner is not later than any task of the
  queue, in runs whose steps fit and are in time.
* `waitsForFirst_added` — a task that is added earlier waits for the deadline of a later
  one.
-/

namespace Ekizu.Timer.TimerQueue

open Lib.Heap Lib.Runs

variable {s s' : TimerQueue} {e : Event}

/-- The time until which the runner waits. -/
def deadline (s : TimerQueue) : Option Int :=
  match s.runner with
  | .waiting deadline _ => deadline
  | _ => none

/-- A runner that is blocked until a deadline, with no notification pending, waits for no
longer than until the first time of the queue. -/
def WakesInTime (s : TimerQueue) : Prop :=
  ∀ deadline, s.runner = .waiting (some deadline) false → s.notifiers = 0 →
    ∀ task ∈ s.tasks, deadline ≤ task.time

/-- While the runner waits until a deadline, no task is added that is due earlier, and none
is cancelled earlier. -/
def InTime (s : TimerQueue) : Event → Prop
  | .addTask _ delay now => ∀ deadline ∈ s.deadline, deadline ≤ due now delay
  | .cancelTask id now => ∀ deadline ∈ s.deadline, s.position id ≠ none → deadline ≤ now
  | _ => True

instance decidableInTime (s : TimerQueue) : ∀ e, Decidable (InTime s e)
  | .addTask _ delay now =>
      inferInstanceAs (Decidable (∀ deadline ∈ s.deadline, deadline ≤ due now delay))
  | .cancelTask id now =>
      inferInstanceAs (Decidable (∀ deadline ∈ s.deadline, s.position id ≠ none → deadline ≤ now))
  | .setRepeatMode _ | .start | .stop | .notify | .removeTask _ | .run _ | .wake _ | .runTask
  | .relock .. => .isTrue trivial

/-- The tasks are a heap, and none is due before the deadline of the runner. -/
structure Timely (s : TimerQueue) : Prop where
  ordered : InOrder s.tasks
  early : ∀ deadline ∈ s.deadline, ∀ task ∈ s.tasks, deadline ≤ task.time

/-! ## One step -/

theorem mem_push {task t : Task} : t ∈ (s.push task).tasks ↔ t ∈ s.tasks ∨ t = task := by
  show t ∈ pushHeap Task.time s.tasks task ↔ _
  rw [(pushHeap_perm s.tasks task).mem_iff, List.mem_append, List.mem_singleton]

/-- A runner that waits for no time. -/
theorem Timely.of_deadline (hordered : InOrder s.tasks) (h : s.deadline = none) : Timely s :=
  ⟨hordered, by simp [h]⟩

/-- **The loop waits for the first task**, wherever it comes from. -/
theorem timely_loop (hordered : InOrder s.tasks) (now : Int) : Timely (s.loop now) := by
  rcases loop_cases s now with ⟨-, heq⟩ | ⟨-, heq⟩ | ⟨first, rest, htasks, -, heq⟩ |
    ⟨first, rest, left, htasks, -, hpop, -, heq⟩
  · rw [heq]
    exact .of_deadline hordered rfl
  · rw [heq]
    exact .of_deadline hordered rfl
  · rw [heq]
    have hfirst : s.tasks[0]? = some first := by simp [htasks]
    refine ⟨hordered, ?_⟩
    intro deadline hdeadline
    obtain rfl := Option.some.inj hdeadline
    exact hordered.front_le hfirst
  · rw [htasks] at hordered
    rw [heq]
    exact .of_deadline (inOrder_of_pop hordered hpop) rfl

/-- A cancelled task is due at the time of the call. -/
theorem Timely.cancelTask (h : Timely s) {id : Nat} {now : Int}
    (hfits : Fits s (.cancelTask id now)) (htime : InTime s (.cancelTask id now)) :
    Timely (s.cancelTask id now) := by
  have hordered := (cancelTask_ordered_iff h.ordered id now).mpr hfits
  rcases cancelTask_cases s id now with ⟨-, heq⟩ | ⟨i, task, hposition, htask, -, heq⟩
  · rw [heq]
    exact h
  · rw [heq] at hordered ⊢
    refine ⟨hordered, ?_⟩
    intro deadline hdeadline t ht
    rcases List.mem_or_eq_of_mem_set ht with hold | rfl
    · exact h.early deadline hdeadline t hold
    · exact htime deadline hdeadline (by simp [hposition])

theorem Timely.removeTask (h : Timely s) {id : Nat} (hfits : Fits s (.removeTask id)) :
    Timely (s.removeTask id) := by
  have hordered := (removeTask_ordered_iff h.ordered id).mpr hfits
  rcases removeTask_cases s id with ⟨-, heq⟩ | ⟨i, task, hposition, htask, -, heq⟩
  · rw [heq]
    exact h
  · rw [heq] at hordered ⊢
    refine ⟨hordered, ?_⟩
    intro deadline hdeadline t ht
    exact h.early deadline hdeadline t (List.mem_of_mem_eraseIdx ht)

/-- A task that is added, in time. -/
theorem Timely.push (h : Timely s) {task : Task}
    (htime : ∀ deadline ∈ s.deadline, deadline ≤ task.time) : Timely (s.push task) := by
  refine ⟨h.ordered.pushHeap task, ?_⟩
  intro deadline hdeadline t ht
  rcases mem_push.mp ht with hold | rfl
  · exact h.early deadline hdeadline t hold
  · exact htime deadline hdeadline

/-- **A step in time** keeps the deadline right. -/
theorem Timely.step (h : Timely s) (hfits : Fits s e) (htime : InTime s e)
    (hstep : s.step e = some s') : Timely s' := by
  cases step_ran hstep with
  | setRepeatMode => exact ⟨h.ordered, h.early⟩
  | started => exact h
  | start => exact .of_deadline h.ordered rfl
  | stopped => exact h
  | stop => exact ⟨h.ordered, h.early⟩
  | addTask hnow =>
      apply Timely.push
      · exact ⟨h.ordered, h.early⟩
      · exact htime
  | notify hnotifiers =>
      have hearly := h.early
      unfold TimerQueue.notify
      split
      · next deadline notified hrunner =>
          simp only [TimerQueue.deadline, hrunner] at hearly
          exact ⟨h.ordered, hearly⟩
      · exact ⟨h.ordered, h.early⟩
  | @cancelTask id now hnow =>
      rw [drop_eq]
      apply Timely.cancelTask
      · exact ⟨h.ordered, h.early⟩
      · exact hfits
      · exact htime
  | @removeTask id =>
      rw [drop_eq]
      apply Timely.removeTask
      · exact ⟨h.ordered, h.early⟩
      · exact hfits
  | run hnow hrunner =>
      apply timely_loop
      exact h.ordered
  | @wake now deadline notified hnow hrunner =>
      have hearly := h.early
      simp only [TimerQueue.deadline, hrunner] at hearly
      unfold TimerQueue.wake
      split
      · apply timely_loop
        exact h.ordered
      · exact ⟨h.ordered, hearly⟩
  | runTask hrunner => exact .of_deadline h.ordered rfl
  | @relock before now task hbefore hnow hrunner =>
      unfold TimerQueue.relock
      split
      · apply timely_loop
        exact Ordered.pushHeap h.ordered _
      · apply timely_loop
        exact h.ordered

/-! ## Runs -/

theorem timely {trace : List (Taken TimerQueue Event)} (hrun : machine.Run trace s)
    (hsteps : ∀ t ∈ trace, Fits t.pre t.event ∧ InTime t.pre t.event) : Timely s := by
  induction hrun with
  | start => exact .of_deadline sound_start.queued.ordered rfl
  | @step trace s s' e hrun hstep ih =>
      have hbefore := ih fun t ht => hsteps t (List.mem_cons_of_mem _ ht)
      obtain ⟨hfits, htime⟩ := hsteps ⟨s, e, s'⟩ List.mem_cons_self
      exact hbefore.step hfits htime hstep

theorem Timely.wakesInTime (h : Timely s) : WakesInTime s := by
  intro deadline hrunner _
  have hdeadline : s.deadline = some deadline := by rw [TimerQueue.deadline, hrunner]
  exact h.early deadline hdeadline

/-- **The runner waits for the first task** in every state of a run whose steps fit and are in
time. -/
theorem waitsForFirst {trace : List (Taken TimerQueue Event)} (hrun : machine.Run trace s)
    (hsteps : ∀ t ∈ trace, Fits t.pre t.event ∧ InTime t.pre t.event) :
    WakesInTime s ∧ ∀ t ∈ trace, WakesInTime t.post := by
  refine ⟨(timely hrun hsteps).wakesInTime, ?_⟩
  induction hrun with
  | start => simp
  | @step trace s s' e hrun hstep ih =>
      intro t ht
      rcases List.mem_cons.mp ht with rfl | ht
      · exact (timely (hrun.step hstep) hsteps).wakesInTime
      · exact ih (fun t' ht' => hsteps t' (List.mem_cons_of_mem _ ht')) t ht

/-- The runner waits until 5 ms; a later task is added, and one is removed. -/
theorem waitsForFirst_later :
    WakesInTime
        (machine.recorded
          [.addTask 7 5 0, .notify, .start, .run 1, .addTask 8 9 2, .notify, .wake 3,
            .removeTask 2]).2 ∧
      ∀ t ∈ (machine.recorded
          [.addTask 7 5 0, .notify, .start, .run 1, .addTask 8 9 2, .notify, .wake 3,
            .removeTask 2]).1,
        WakesInTime t.post :=
  waitsForFirst (machine.run_recorded _ (by decide +kernel)) (by decide +kernel)

/-- The runner waits until 100 ms; a task that is due at 10 ms is added and notified, and
the runner waits until 100 ms again. -/
theorem waitsForFirst_added : ∃ trace s, machine.Run trace s ∧ ¬ WakesInTime s := by
  refine ⟨_, _, machine.run_recorded
    [.addTask 7 100 0, .notify, .start, .run 0, .addTask 8 10 0, .notify, .wake 1]
    (by decide +kernel), ?_⟩
  intro hwakes
  have hlate := hwakes 100000000 (by decide +kernel) (by decide +kernel)
    ⟨2, 10, 10000000, 8, 10000000⟩ (by decide +kernel)
  exact absurd hlate (by decide)

end Ekizu.Timer.TimerQueue
