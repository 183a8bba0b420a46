import Ekizu.Timer.TimerQueue

/-!
# What a section of the timer queue does

## Main results

* `loop_cases` — where the runner releases the mutex.
* `cancelTask_cases`, `removeTask_cases` — the task that a call finds.
* `step_ran` — which section an event runs, and when it is due.
-/

namespace Ekizu.Timer.TimerQueue

open Lib.Heap Lib.Runs

variable {s s' : TimerQueue} {e : Event}

/-- The order of the tasks by their times. -/
def InOrder (tasks : List Task) : Prop := Ordered Task.time tasks

theorem topAndPop_cons {first : Task} {rest : List Task} (htasks : s.tasks = first :: rest)
    (now : Int) :
    ∃ left, popHeap Task.time (first :: rest) = left ++ [first] ∧ left.Perm rest ∧
      s.topAndPop now =
        { s with
          tasks := left
          runner := .holding first false
          uses := s.tasks :: s.uses
          pops := (first, s.tasks, now) :: s.pops } := by
  obtain ⟨left, hpop, hperm⟩ := popHeap_perm Task.time first rest
  refine ⟨left, hpop, hperm, ?_⟩
  rw [topAndPop, htasks, hpop, List.getLast?_concat, List.dropLast_concat]

/-- **Where the runner releases the mutex**: at its end, in a wait for a task or until the
time of the first one, or with the first task, when its time has come. -/
theorem loop_cases (s : TimerQueue) (now : Int) :
    (s.stop = true ∧ s.loop now = { s with runner := .exited }) ∨
      (s.tasks = [] ∧ s.loop now = { s with runner := .waiting none false }) ∨
      (∃ first rest, s.tasks = first :: rest ∧ now < first.time ∧
        s.loop now =
          { s with runner := .waiting (some first.time) false, uses := s.tasks :: s.uses }) ∨
      ∃ first rest left, s.tasks = first :: rest ∧ first.time ≤ now ∧
        popHeap Task.time (first :: rest) = left ++ [first] ∧ left.Perm rest ∧
        s.loop now =
          { s with
            tasks := left
            runner := .holding first false
            uses := s.tasks :: s.uses
            pops := (first, s.tasks, now) :: s.pops } := by
  unfold loop
  by_cases hstop : s.stop = true
  · rw [if_pos hstop]
    exact .inl ⟨hstop, rfl⟩
  · rw [if_neg hstop]
    right
    split
    · next htasks => exact .inl ⟨htasks, rfl⟩
    · next first rest htasks =>
        right
        by_cases hearly : now < first.time
        · rw [if_pos hearly]
          exact .inl ⟨first, rest, htasks, hearly, rfl⟩
        · rw [if_neg hearly]
          obtain ⟨left, hpop, hperm, heq⟩ := topAndPop_cons htasks now
          exact .inr ⟨first, rest, left, htasks, Int.not_lt.mp hearly, hpop, hperm, heq⟩

/-- A position that is found. -/
theorem position_some {id i : Nat} (h : s.position id = some i) :
    ∃ task, s.tasks[i]? = some task ∧ task.id = id := by
  obtain ⟨hi, hid, -⟩ := List.findIdx?_eq_some_iff_getElem.mp h
  exact ⟨s.tasks[i], List.getElem?_eq_getElem hi, by simpa using hid⟩

theorem position_none {id : Nat} (h : s.position id = none) : ∀ t ∈ s.tasks, t.id ≠ id := by
  intro t ht
  have hnone := List.findIdx?_eq_none_iff.mp h t ht
  simpa using hnone

/-- `cancel_task` changes the task that it finds. -/
theorem cancelTask_cases (s : TimerQueue) (id : Nat) (now : Int) :
    ((∀ t ∈ s.tasks, t.id ≠ id) ∧ s.cancelTask id now = s) ∨
      ∃ i task, s.position id = some i ∧ s.tasks[i]? = some task ∧ task.id = id ∧
        s.cancelTask id now =
          { s with
            tasks := s.tasks.set i { task with id := 0, time := now, dueAt := now } } := by
  unfold cancelTask
  cases hposition : s.position id with
  | none => exact .inl ⟨position_none hposition, rfl⟩
  | some i =>
      obtain ⟨task, htask, hid⟩ := position_some hposition
      simp only [htask]
      exact .inr ⟨i, task, rfl, htask, hid, rfl⟩

/-- `remove_task` takes out the task that it finds. -/
theorem removeTask_cases (s : TimerQueue) (id : Nat) :
    ((∀ t ∈ s.tasks, t.id ≠ id) ∧ s.removeTask id = s) ∨
      ∃ i task, s.position id = some i ∧ s.tasks[i]? = some task ∧ task.id = id ∧
        s.removeTask id = { s with tasks := s.tasks.eraseIdx i } := by
  unfold removeTask
  cases hposition : s.position id with
  | none => exact .inl ⟨position_none hposition, rfl⟩
  | some i =>
      obtain ⟨task, htask, hid⟩ := position_some hposition
      exact .inr ⟨i, task, rfl, htask, hid, rfl⟩

/-- An id that is noted changes nothing else. -/
theorem drop_eq (s : TimerQueue) (id : Nat) :
    s.drop id = { s with dropped := if id ∈ s.issued then id :: s.dropped else s.dropped } := by
  unfold drop
  split
  · rfl
  · rfl

/-- The section of an event, and when it is due. -/
inductive Ran (s : TimerQueue) : Event → TimerQueue → Prop
  | setRepeatMode {mode : Bool} : Ran s (.setRepeatMode mode) { s with repeatMode := mode }
  | started : Ran s .start s
  | start : Ran s .start { s with stop := false, runner := .starting }
  | stopped : Ran s .stop s
  | stop : Ran s .stop { s with stop := true, notifiers := s.notifiers + 1 }
  | addTask {func : Nat} {delay now : Int} (hnow : s.clock ≤ now) :
      Ran s (.addTask func delay now) ({ s with clock := now }.addTask func delay now)
  | notify (hnotifiers : s.notifiers ≠ 0) : Ran s .notify s.notify
  | cancelTask {id : Nat} {now : Int} (hnow : s.clock ≤ now) :
      Ran s (.cancelTask id now) (({ s with clock := now }.drop id).cancelTask id now)
  | removeTask {id : Nat} : Ran s (.removeTask id) ((s.drop id).removeTask id)
  | run {now : Int} (hnow : s.clock ≤ now) (hrunner : s.runner = .starting) :
      Ran s (.run now) ({ s with clock := now }.loop now)
  | wake {now : Int} {deadline : Option Int} {notified : Bool} (hnow : s.clock ≤ now)
      (hrunner : s.runner = .waiting deadline notified) :
      Ran s (.wake now) ({ s with clock := now }.wake deadline now)
  | runTask {task : Task} (hrunner : s.runner = .holding task false) :
      Ran s .runTask
        { s with
          runner := .holding task true
          started := if task.id = 0 then s.started else task.id :: s.started }
  | relock {before now : Int} {task : Task} (hbefore : s.clock ≤ before) (hnow : before ≤ now)
      (hrunner : s.runner = .holding task true) :
      Ran s (.relock before now) ({ s with clock := now }.relock task before now)

theorem step_ran (hstep : s.step e = some s') : Ran s e s' := by
  cases e with
  | setRepeatMode mode =>
      obtain rfl := Option.some.inj hstep
      exact .setRepeatMode
  | start =>
      simp only [step] at hstep
      split at hstep
      · obtain rfl := Option.some.inj hstep
        exact .started
      · split at hstep
        · obtain rfl := Option.some.inj hstep
          exact .start
        · obtain rfl := Option.some.inj hstep
          exact .start
        · simp at hstep
  | stop =>
      simp only [step] at hstep
      split at hstep
      · obtain rfl := Option.some.inj hstep
        exact .stopped
      · obtain rfl := Option.some.inj hstep
        exact .stop
  | addTask func delay now =>
      simp only [step] at hstep
      split at hstep
      · simp at hstep
      · next hnow =>
          obtain rfl := Option.some.inj hstep
          exact .addTask (Int.not_lt.mp hnow)
  | notify =>
      simp only [step] at hstep
      split at hstep
      · simp at hstep
      · next hnotifiers =>
          obtain rfl := Option.some.inj hstep
          exact .notify hnotifiers
  | cancelTask id now =>
      simp only [step] at hstep
      split at hstep
      · simp at hstep
      · next hnow =>
          obtain rfl := Option.some.inj hstep
          exact .cancelTask (Int.not_lt.mp hnow)
  | removeTask id =>
      obtain rfl := Option.some.inj hstep
      exact .removeTask
  | run now =>
      simp only [step] at hstep
      split at hstep
      · simp at hstep
      · next hnow =>
          split at hstep
          · next hrunner =>
              obtain rfl := Option.some.inj hstep
              exact .run (Int.not_lt.mp hnow) hrunner
          · simp at hstep
  | wake now =>
      simp only [step] at hstep
      split at hstep
      · simp at hstep
      · next hnow =>
          split at hstep
          · next hrunner =>
              obtain rfl := Option.some.inj hstep
              exact .wake (Int.not_lt.mp hnow) hrunner
          · simp at hstep
  | runTask =>
      simp only [step] at hstep
      split at hstep
      · next hrunner =>
          obtain rfl := Option.some.inj hstep
          exact .runTask hrunner
      · simp at hstep
  | relock before now =>
      simp only [step] at hstep
      split at hstep
      · simp at hstep
      · next hnow =>
          split at hstep
          · next hrunner =>
              obtain rfl := Option.some.inj hstep
              exact .relock (by omega) (by omega) hrunner
          · simp at hstep

end Ekizu.Timer.TimerQueue
