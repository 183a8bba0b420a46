import Ekizu.Timer.Sections

/-!
# The order of the tasks

A push and a pop keep the heap.  `cancel_task` and `remove_task` write into the middle
of it; they keep it exactly where what they leave still fits.  The times that the heap
orders are the ones that the callers mean, unless a delay is too long for the clock.

## Main results

* `due_eq_iff` — the time of a task is the delay after the reading of the clock, where that
  fits 64 bits.
* `Sound.step_iff` — what a step keeps, where it fits and is in the range of the clock.
* `runsInOrder_iff` — the tasks of a run are in order exactly if its cancellations and
  removals fit and its tasks are due in the range of the clock.
* `runsInOrder_cancelled` — a push meets a vector that is no heap.
-/

namespace Ekizu.Timer.TimerQueue

open Lib.Heap Lib.Runs

variable {s s' : TimerQueue} {e : Event}

/-- The tasks are a heap by the times that the vector holds, and these are the times when
the tasks are due. -/
structure InDueOrder (tasks : List Task) : Prop where
  ordered : InOrder tasks
  exact : ∀ task ∈ tasks, task.time = task.dueAt

/-- The tasks are in due order, every push, `top` and pop met such an order, and every task
that was taken was due and the least of those queued. -/
structure Sound (s : TimerQueue) : Prop where
  queued : InDueOrder s.tasks
  met : ∀ tasks ∈ s.uses, InDueOrder tasks
  least : ∀ x ∈ s.pops,
    x.1 ∈ x.2.1 ∧ (∀ task ∈ x.2.1, x.1.dueAt ≤ task.dueAt) ∧ x.1.dueAt ≤ x.2.2

/-- What a cancellation or a removal leaves is a heap: the cancelled task, with the time of
the call, is not less than the one above it and not greater than those below, and the
tasks behind a removed one are not less than those that get above them. -/
def Fits (s : TimerQueue) : Event → Prop
  | .cancelTask id now => ∀ i, s.position id = some i →
      (0 < i → ∀ p, s.tasks[parent i]? = some p → p.time ≤ now) ∧
        ∀ c task, 0 < c → parent c = i → s.tasks[c]? = some task → now ≤ task.time
  | .removeTask id => ∀ i, s.position id = some i → FitsErased Task.time s.tasks i
  | _ => True

instance decidableFits (s : TimerQueue) : ∀ e, Decidable (Fits s e)
  | .cancelTask id now =>
      decidable_of_iff
        (∀ i ∈ s.position id,
          (0 < i → ∀ p ∈ s.tasks[parent i]?, p.time ≤ now) ∧
            ∀ c < s.tasks.length, 0 < c → parent c = i → ∀ task ∈ s.tasks[c]?, now ≤ task.time)
        ⟨fun h i hi =>
            ⟨(h i hi).1, fun c task hpos hparent htask =>
              (h i hi).2 c (List.getElem?_eq_some_iff.mp htask).1 hpos hparent task htask⟩,
          fun h i hi =>
            ⟨(h i hi).1, fun c _ hpos hparent task htask =>
              (h i hi).2 c task hpos hparent htask⟩⟩
  | .removeTask id =>
      inferInstanceAs (Decidable (∀ i ∈ s.position id, FitsErased Task.time s.tasks i))
  | .setRepeatMode _ | .start | .stop | .addTask .. | .notify | .run _ | .wake _ | .runTask
  | .relock .. => .isTrue trivial

/-- A count of nanoseconds that 64 bits with a sign hold. -/
def Representable (count : Int) : Prop := -2 ^ 63 ≤ count ∧ count < 2 ^ 63

instance (count : Int) : Decidable (Representable count) :=
  inferInstanceAs (Decidable (-2 ^ 63 ≤ count ∧ count < 2 ^ 63))

/-- The task that the runner is about to queue again. -/
def repeated (s : TimerQueue) : Option Task :=
  match s.runner with
  | .holding task true => if s.repeatMode && task.id != 0 then some task else none
  | _ => none

/-- A task that is queued is due at a time that the clock can show. -/
def InRange (s : TimerQueue) : Event → Prop
  | .addTask _ delay now => Representable (exactDue now delay)
  | .relock before _ => ∀ task ∈ s.repeated, Representable (exactDue before task.delay)
  | _ => True

instance decidableInRange (s : TimerQueue) : ∀ e, Decidable (InRange s e)
  | .addTask _ delay now => inferInstanceAs (Decidable (Representable (exactDue now delay)))
  | .relock before _ =>
      inferInstanceAs
        (Decidable (∀ task ∈ s.repeated, Representable (exactDue before task.delay)))
  | .setRepeatMode _ | .start | .stop | .notify | .cancelTask .. | .removeTask _ | .run _
  | .wake _ | .runTask => .isTrue trivial

/-! ## The clock -/

/-- **The time of a task is when it is due**, exactly if the clock can show that. -/
theorem due_eq_iff (now delay : Int) :
    due now delay = exactDue now delay ↔ Representable (exactDue now delay) := by
  have hdue : due now delay = (exactDue now delay).bmod (2 ^ 64) := Int.add_bmod_bmod
  rw [hdue]
  constructor
  · intro heq
    have hlow := Int.le_bmod (x := exactDue now delay) (m := 2 ^ 64) (by decide)
    have hhigh := Int.bmod_lt (x := exactDue now delay) (m := 2 ^ 64) (by decide)
    rw [heq] at hlow hhigh
    exact ⟨hlow, hhigh⟩
  · intro hrange
    exact Int.bmod_eq_of_le hrange.1 hrange.2

/-- The longest delay there is, from 5 ms on, ends a millisecond before. -/
example : due 5000000 (2 ^ 63 - 1) = 4000000 := by decide

/-! ## One step -/

/-- A push keeps the order exactly if the time of the task is when it is due. -/
theorem InDueOrder.push_iff {tasks : List Task} (h : InDueOrder tasks) (task : Task) :
    InDueOrder (pushHeap Task.time tasks task) ↔ task.time = task.dueAt := by
  have hmem : ∀ t, t ∈ pushHeap Task.time tasks task ↔ t ∈ tasks ∨ t = task := by
    intro t
    rw [(pushHeap_perm tasks task).mem_iff, List.mem_append, List.mem_singleton]
  constructor
  · intro hpushed
    exact hpushed.exact task ((hmem task).mpr (.inr rfl))
  · intro heq
    refine ⟨h.ordered.pushHeap task, ?_⟩
    intro t ht
    cases (hmem t).mp ht with
    | inl hold => exact h.exact t hold
    | inr hnew => rw [hnew, heq]

theorem Sound.push_iff (h : Sound s) (task : Task) :
    Sound (s.push task) ↔ task.time = task.dueAt := by
  constructor
  · intro hpushed
    exact (h.queued.push_iff task).mp hpushed.queued
  · intro heq
    refine ⟨(h.queued.push_iff task).mpr heq, ?_, h.least⟩
    intro tasks htasks
    rcases List.mem_cons.mp htasks with rfl | hold
    · exact h.queued
    · exact h.met tasks hold

/-- What a pop leaves. -/
theorem inOrder_of_pop {first : Task} {rest left : List Task} (h : InOrder (first :: rest))
    (hpop : popHeap Task.time (first :: rest) = left ++ [first]) : InOrder left := by
  obtain ⟨left', hpop', hleft⟩ := h.popHeap
  rw [hpop'] at hpop
  exact List.append_cancel_right hpop ▸ hleft

/-- **The loop keeps the order**, and shows whether it found one. -/
theorem sound_loop_iff (s : TimerQueue) (now : Int) : Sound (s.loop now) ↔ Sound s := by
  rcases loop_cases s now with ⟨-, heq⟩ | ⟨-, heq⟩ | ⟨first, rest, -, -, heq⟩ |
    ⟨first, rest, left, htasks, hdue, hpop, hperm, heq⟩
  · rw [heq]
    exact ⟨fun h => ⟨h.queued, h.met, h.least⟩, fun h => ⟨h.queued, h.met, h.least⟩⟩
  · rw [heq]
    exact ⟨fun h => ⟨h.queued, h.met, h.least⟩, fun h => ⟨h.queued, h.met, h.least⟩⟩
  · rw [heq]
    constructor
    · intro h
      exact ⟨h.queued, fun tasks htasks => h.met tasks (List.mem_cons_of_mem _ htasks), h.least⟩
    · intro h
      refine ⟨h.queued, ?_, h.least⟩
      intro tasks hmem
      rcases List.mem_cons.mp hmem with rfl | hold
      · exact h.queued
      · exact h.met tasks hold
  · rw [heq]
    constructor
    · intro h
      exact ⟨h.met s.tasks List.mem_cons_self,
        fun tasks hmem => h.met tasks (List.mem_cons_of_mem _ hmem),
        fun x hx => h.least x (List.mem_cons_of_mem _ hx)⟩
    · intro h
      have hordered : InOrder (first :: rest) := htasks ▸ h.queued.ordered
      have hexact : ∀ task ∈ first :: rest, task.time = task.dueAt := htasks ▸ h.queued.exact
      refine ⟨⟨inOrder_of_pop hordered hpop, ?_⟩, ?_, ?_⟩
      · intro task htask
        exact hexact task (List.mem_cons_of_mem _ (hperm.mem_iff.mp htask))
      · intro tasks hmem
        rcases List.mem_cons.mp hmem with rfl | hold
        · exact h.queued
        · exact h.met tasks hold
      · intro x hx
        rcases List.mem_cons.mp hx with rfl | hold
        · show first ∈ s.tasks ∧ (∀ task ∈ s.tasks, first.dueAt ≤ task.dueAt) ∧ first.dueAt ≤ now
          have hfirst := hexact first List.mem_cons_self
          rw [htasks]
          refine ⟨List.mem_cons_self, ?_, hfirst ▸ hdue⟩
          intro task htask
          rw [← hfirst, ← hexact task htask]
          exact hordered.front_le rfl task htask
        · exact h.least x hold

/-- A cancelled task stays in its place, where it fits. -/
theorem cancelTask_ordered_iff (h : InOrder s.tasks) (id : Nat) (now : Int) :
    InOrder (s.cancelTask id now).tasks ↔ Fits s (.cancelTask id now) := by
  rcases cancelTask_cases s id now with ⟨hnone, heq⟩ | ⟨i, task, hposition, htask, -, heq⟩
  · rw [heq]
    refine ⟨fun _ i hi => ?_, fun _ => h⟩
    obtain ⟨task, htask, hid⟩ := position_some hi
    exact absurd hid (hnone task (List.mem_of_getElem? htask))
  · have hi := (List.getElem?_eq_some_iff.mp htask).1
    rw [heq, InOrder, ordered_set_iff h hi]
    constructor
    · intro hfits j hj
      rw [hposition] at hj
      obtain rfl := Option.some.inj hj
      exact hfits
    · intro hfits
      exact hfits i hposition

/-- The tasks behind a removed one move up, where they fit. -/
theorem removeTask_ordered_iff (h : InOrder s.tasks) (id : Nat) :
    InOrder (s.removeTask id).tasks ↔ Fits s (.removeTask id) := by
  rcases removeTask_cases s id with ⟨hnone, heq⟩ | ⟨i, task, hposition, htask, -, heq⟩
  · rw [heq]
    refine ⟨fun _ i hi => ?_, fun _ => h⟩
    obtain ⟨task, htask, hid⟩ := position_some hi
    exact absurd hid (hnone task (List.mem_of_getElem? htask))
  · rw [heq, InOrder, ordered_eraseIdx_iff h]
    constructor
    · intro hfits j hj
      rw [hposition] at hj
      obtain rfl := Option.some.inj hj
      exact hfits
    · intro hfits
      exact hfits i hposition

/-- A cancelled task is due at the time of the call. -/
theorem cancelTask_exact (h : ∀ task ∈ s.tasks, task.time = task.dueAt) (id : Nat) (now : Int) :
    ∀ task ∈ (s.cancelTask id now).tasks, task.time = task.dueAt := by
  rcases cancelTask_cases s id now with ⟨-, heq⟩ | ⟨i, task, -, -, -, heq⟩
  · rw [heq]
    exact h
  · rw [heq]
    intro t ht
    rcases List.mem_or_eq_of_mem_set ht with hold | rfl
    · exact h t hold
    · rfl

theorem removeTask_exact (h : ∀ task ∈ s.tasks, task.time = task.dueAt) (id : Nat) :
    ∀ task ∈ (s.removeTask id).tasks, task.time = task.dueAt := by
  rcases removeTask_cases s id with ⟨-, heq⟩ | ⟨i, task, -, -, -, heq⟩
  · rw [heq]
    exact h
  · rw [heq]
    exact fun t ht => h t (List.mem_of_mem_eraseIdx ht)

theorem uses_cancelTask (s : TimerQueue) (id : Nat) (now : Int) :
    (s.cancelTask id now).uses = s.uses ∧ (s.cancelTask id now).pops = s.pops := by
  rcases cancelTask_cases s id now with ⟨-, heq⟩ | ⟨i, task, -, -, -, heq⟩
  · rw [heq]
    exact ⟨rfl, rfl⟩
  · rw [heq]
    exact ⟨rfl, rfl⟩

theorem uses_removeTask (s : TimerQueue) (id : Nat) :
    (s.removeTask id).uses = s.uses ∧ (s.removeTask id).pops = s.pops := by
  rcases removeTask_cases s id with ⟨-, heq⟩ | ⟨i, task, -, -, -, heq⟩
  · rw [heq]
    exact ⟨rfl, rfl⟩
  · rw [heq]
    exact ⟨rfl, rfl⟩

/-- The runner comes back from a task: what it queues again is due in range. -/
theorem Sound.relock_iff {task : Task} (h : Sound s) (hrunner : s.runner = .holding task true)
    (before now : Int) :
    Sound (s.relock task before now) ↔ InRange s (.relock before now) := by
  unfold TimerQueue.relock
  split
  · next hrepeat =>
      have hrepeated : s.repeated = some task := by simp [repeated, hrunner, hrepeat]
      have hrange : InRange s (.relock before now) ↔
          Representable (exactDue before task.delay) := by
        simp [InRange, hrepeated]
      rw [sound_loop_iff, h.push_iff, hrange]
      exact due_eq_iff before task.delay
  · next hrepeat =>
      have hrepeated : s.repeated = none := by simp [repeated, hrunner, hrepeat]
      rw [sound_loop_iff]
      exact ⟨fun _ task htask => by simp [hrepeated] at htask, fun _ => h⟩

/-- **A step keeps the order** exactly if it fits, in the range of the clock. -/
theorem Sound.step_iff (h : Sound s) (hstep : s.step e = some s') :
    Sound s' ↔ Fits s e ∧ InRange s e := by
  cases step_ran hstep with
  | setRepeatMode =>
      exact ⟨fun _ => ⟨trivial, trivial⟩, fun _ => ⟨h.queued, h.met, h.least⟩⟩
  | started => exact ⟨fun _ => ⟨trivial, trivial⟩, fun _ => h⟩
  | start => exact ⟨fun _ => ⟨trivial, trivial⟩, fun _ => ⟨h.queued, h.met, h.least⟩⟩
  | stopped => exact ⟨fun _ => ⟨trivial, trivial⟩, fun _ => h⟩
  | stop => exact ⟨fun _ => ⟨trivial, trivial⟩, fun _ => ⟨h.queued, h.met, h.least⟩⟩
  | @addTask func delay now hnow =>
      have hcalled : Sound { s with
          clock := now
          taskCounter := s.nextId
          issued := s.nextId :: s.issued
          notifiers := s.notifiers + 1 } := ⟨h.queued, h.met, h.least⟩
      have hiff := (hcalled.push_iff ⟨s.nextId, delay, due now delay, func,
        exactDue now delay⟩).trans (due_eq_iff now delay)
      exact hiff.trans ⟨fun hrange => ⟨trivial, hrange⟩, fun hfits => hfits.2⟩
  | notify hnotifiers =>
      refine ⟨fun _ => ⟨trivial, trivial⟩, fun _ => ?_⟩
      unfold TimerQueue.notify
      split
      · exact ⟨h.queued, h.met, h.least⟩
      · exact ⟨h.queued, h.met, h.least⟩
  | @cancelTask id now hnow =>
      rw [drop_eq]
      obtain ⟨huses, hpops⟩ := uses_cancelTask
        { s with
          clock := now
          dropped := if id ∈ s.issued then id :: s.dropped else s.dropped } id now
      have hiff := cancelTask_ordered_iff
        (s := { s with
          clock := now
          dropped := if id ∈ s.issued then id :: s.dropped else s.dropped }) h.queued.ordered
        id now
      constructor
      · intro hsound
        exact ⟨hiff.mp hsound.queued.ordered, trivial⟩
      · intro hfits
        refine ⟨⟨hiff.mpr hfits.1, ?_⟩, ?_, ?_⟩
        · apply cancelTask_exact
          exact h.queued.exact
        · rw [huses]
          exact h.met
        · rw [hpops]
          exact h.least
  | @removeTask id =>
      rw [drop_eq]
      obtain ⟨huses, hpops⟩ := uses_removeTask
        { s with dropped := if id ∈ s.issued then id :: s.dropped else s.dropped } id
      have hiff := removeTask_ordered_iff
        (s := { s with dropped := if id ∈ s.issued then id :: s.dropped else s.dropped })
        h.queued.ordered id
      constructor
      · intro hsound
        exact ⟨hiff.mp hsound.queued.ordered, trivial⟩
      · intro hfits
        refine ⟨⟨hiff.mpr hfits.1, ?_⟩, ?_, ?_⟩
        · apply removeTask_exact
          exact h.queued.exact
        · rw [huses]
          exact h.met
        · rw [hpops]
          exact h.least
  | run hnow hrunner =>
      refine ⟨fun _ => ⟨trivial, trivial⟩, fun _ => ?_⟩
      rw [sound_loop_iff]
      exact ⟨h.queued, h.met, h.least⟩
  | wake hnow hrunner =>
      refine ⟨fun _ => ⟨trivial, trivial⟩, fun _ => ?_⟩
      unfold TimerQueue.wake
      split
      · rw [sound_loop_iff]
        exact ⟨h.queued, h.met, h.least⟩
      · exact ⟨h.queued, h.met, h.least⟩
  | runTask hrunner =>
      exact ⟨fun _ => ⟨trivial, trivial⟩, fun _ => ⟨h.queued, h.met, h.least⟩⟩
  | @relock before now task hbefore hnow hrunner =>
      have hclock : Sound { s with clock := now } := ⟨h.queued, h.met, h.least⟩
      have hiff := hclock.relock_iff hrunner before now
      exact hiff.trans ⟨fun hrange => ⟨trivial, hrange⟩, fun hfits => hfits.2⟩

/-! ## Runs -/

theorem sound_start : Sound machine.start := by
  refine ⟨⟨?_, ?_⟩, ?_, ?_⟩
  · intro i a p hi ha hp
    simp [machine] at ha
  · intro task htask
    simp [machine] at htask
  · intro tasks htasks
    simp [machine] at htasks
  · intro x hx
    simp [machine] at hx

/-- In every state of a run the tasks are a heap by the times when they are due, every push,
`top` and pop met one, and every task that was taken was due and the least of those
queued. -/
def RunsInOrder (trace : List (Taken TimerQueue Event)) : Prop :=
  ∀ t ∈ trace, Sound t.pre ∧ Sound t.post

/-- **The tasks of a run are in order** exactly if its cancellations and removals fit, and the
tasks it queues are due in the range of the clock. -/
theorem runsInOrder_iff {trace : List (Taken TimerQueue Event)} (hrun : machine.Run trace s) :
    RunsInOrder trace ↔ ∀ t ∈ trace, Fits t.pre t.event ∧ InRange t.pre t.event := by
  constructor
  · intro hsound t ht
    obtain ⟨hpre, hpost⟩ := hsound t ht
    exact (hpre.step_iff (hrun.mem t ht).2).mp hpost
  · intro hfits
    have hall : Sound s ∧ RunsInOrder trace := by
      induction hrun with
      | start => exact ⟨sound_start, fun t ht => by cases ht⟩
      | @step trace s s' e hrun hstep ih =>
          obtain ⟨hbefore, hrest⟩ := ih fun t ht => hfits t (List.mem_cons_of_mem _ ht)
          have hafter := (hbefore.step_iff hstep).mpr (hfits ⟨s, e, s'⟩ List.mem_cons_self)
          refine ⟨hafter, ?_⟩
          intro t ht
          rcases List.mem_cons.mp ht with rfl | ht
          · exact ⟨hbefore, hafter⟩
          · exact hrest t ht
    exact hall.2

/-- Tasks that are added, cancelled where they fit, run and repeated. -/
theorem runsInOrder_repeated :
    RunsInOrder
        (machine.recorded
          [.setRepeatMode true, .addTask 7 1 0, .addTask 8 2 0, .addTask 9 3 0,
            .cancelTask 1 0, .removeTask 3, .start, .run 2000000, .runTask,
            .relock 2000000 2000000, .runTask, .relock 2000000 2000001]).1 ↔
      ∀ t ∈ (machine.recorded
          [.setRepeatMode true, .addTask 7 1 0, .addTask 8 2 0, .addTask 9 3 0,
            .cancelTask 1 0, .removeTask 3, .start, .run 2000000, .runTask,
            .relock 2000000 2000000, .runTask, .relock 2000000 2000001]).1,
        Fits t.pre t.event ∧ InRange t.pre t.event :=
  runsInOrder_iff (machine.run_recorded _ (by decide +kernel))

/-- Tasks are due at 1, 2 and 3 ms; the last is cancelled at 0, and the next push meets a
vector whose third element is less than its first. -/
theorem runsInOrder_cancelled :
    ∃ trace s, machine.Run trace s ∧
      [⟨1, 1, 1000000, 7, 1000000⟩, ⟨2, 2, 2000000, 8, 2000000⟩, ⟨0, 3, 0, 9, 0⟩] ∈ s.uses ∧
        ¬ InOrder
          [⟨1, 1, 1000000, 7, 1000000⟩, ⟨2, 2, 2000000, 8, 2000000⟩, ⟨0, 3, 0, 9, 0⟩] := by
  refine ⟨_, _, machine.run_recorded
    [.addTask 7 1 0, .addTask 8 2 0, .addTask 9 3 0, .cancelTask 3 0, .addTask 7 4 0]
    (by decide +kernel), by decide +kernel, ?_⟩
  intro hordered
  have hle := hordered 2 _ _ (by decide) rfl rfl
  exact absurd hle (by decide)

end Ekizu.Timer.TimerQueue
