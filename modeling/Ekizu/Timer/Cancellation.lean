import Ekizu.Timer.Sections
import Mathlib.Data.List.Perm.Basic

/-!
# Cancelled tasks

A task is in the vector, or the runner has it: taken out and not yet started, or
running.  A call of `cancel_task` or `remove_task` looks in the vector alone.

## Main results

* `Settled.step` — what a step keeps, where a call finds what it is for.
* `staysCancelled` — after the call the task is not started again, and no other task is
  touched, in runs whose steps catch their tasks.
* `staysCancelled_running` — a task that is cancelled while it runs is pushed back and
  started again.
-/

namespace Ekizu.Timer.TimerQueue

open Lib.Heap Lib.Runs

variable {s s' : TimerQueue} {e : Event}

/-- The task that was taken out, before it is started. -/
def taken (s : TimerQueue) : Option Task :=
  match s.runner with
  | .holding task false => some task
  | _ => none

/-- The task that was started, until the runner takes the mutex again. -/
def running (s : TimerQueue) : Option Task :=
  match s.runner with
  | .holding task true => some task
  | _ => none

/-- The tasks that are to be started. -/
def pending (s : TimerQueue) : List Task := s.taken.toList ++ s.tasks

/-- These and the one that runs. -/
def live (s : TimerQueue) : List Task := s.running.toList ++ s.pending

/-- The tasks that a call for an id is not about, in their order. -/
def others (s : TimerQueue) (id : Nat) : List Task :=
  s.tasks.filter fun t => t.id != id && t.id != 0

/-- The id that a call cancels or removes. -/
def Event.drops : Event → Option Nat
  | .cancelTask id _ | .removeTask id => some id
  | _ => none

/-- Nothing but the task with the id is changed. -/
structure Spares (id : Nat) (s s' : TimerQueue) : Prop where
  others : s'.others id = s.others id
  runner : s'.runner = s.runner
  repeatMode : s'.repeatMode = s.repeatMode
  started : s'.started = s.started

/-- Up to the last state of a run: after a call for a task has returned, the task is not
started again; and no other task is touched. -/
def StaysCancelled (trace : List (Taken TimerQueue Event)) (s : TimerQueue) : Prop :=
  ∀ t ∈ trace, ∀ id, t.event.drops = some id →
    Spares id t.pre t.post ∧
      (id ∈ t.pre.issued → ∃ recent, s.started = recent ++ t.post.started ∧ id ∉ recent)

/-- A call comes before its task is taken out, or after it was started; a task that was
cancelled while it ran is not repeated; and no id is handed out twice. -/
def Catches (s : TimerQueue) : Event → Prop
  | .addTask .. => s.nextId ∉ s.issued
  | .cancelTask id _ | .removeTask id => ∀ task ∈ s.taken, task.id = id → id = 0
  | .relock .. => s.repeatMode = true → ∀ task ∈ s.running, task.id ∉ s.dropped
  | _ => True

instance decidableCatches (s : TimerQueue) : ∀ e, Decidable (Catches s e)
  | .addTask .. => inferInstanceAs (Decidable (s.nextId ∉ s.issued))
  | .cancelTask id _ | .removeTask id =>
      inferInstanceAs (Decidable (∀ task ∈ s.taken, task.id = id → id = 0))
  | .relock .. =>
      inferInstanceAs (Decidable (s.repeatMode = true → ∀ task ∈ s.running, task.id ∉ s.dropped))
  | .setRepeatMode _ | .start | .stop | .notify | .run _ | .wake _ | .runTask =>
      .isTrue trivial

/-- No two tasks have one id, apart from cancelled ones. -/
def Distinct (tasks : List Task) : Prop := tasks.Pairwise fun a b => a.id = b.id → a.id = 0

theorem Distinct.perm {tasks tasks' : List Task} (h : Distinct tasks)
    (hperm : tasks.Perm tasks') : Distinct tasks' := by
  refine (hperm.pairwise_iff ?_).mp h
  intro a b hab hba
  rw [hba]
  exact hab hba.symm

/-- The tasks have ids of their own that were handed out, and those that were cancelled or
removed are not to be started. -/
structure Settled (s : TimerQueue) : Prop where
  zero : 0 ∉ s.issued
  distinct : Distinct s.live
  issued : ∀ t ∈ s.live, t.id ≠ 0 → t.id ∈ s.issued
  dropped : ∀ id ∈ s.dropped, id ∈ s.issued ∧ ∀ t ∈ s.pending, t.id ≠ id

/-- The same of the vector alone. -/
structure Queued (s : TimerQueue) : Prop where
  zero : 0 ∉ s.issued
  distinct : Distinct s.tasks
  issued : ∀ t ∈ s.tasks, t.id ≠ 0 → t.id ∈ s.issued
  dropped : ∀ id ∈ s.dropped, id ∈ s.issued ∧ ∀ t ∈ s.tasks, t.id ≠ id

/-! ## The runner -/

theorem tasks_sublist_live : s.tasks.Sublist s.live :=
  (List.sublist_append_right _ _).trans (List.sublist_append_right _ _)

theorem Settled.queued (h : Settled s) : Queued s := by
  refine ⟨h.zero, h.distinct.sublist tasks_sublist_live, ?_, ?_⟩
  · intro t ht
    exact h.issued t (tasks_sublist_live.subset ht)
  · intro id hid
    obtain ⟨hissued, hpending⟩ := h.dropped id hid
    exact ⟨hissued, fun t ht => hpending t (List.mem_append_right _ ht)⟩

/-- The loop changes nothing but where the runner is and what it takes. -/
theorem loop_keeps (s : TimerQueue) (now : Int) :
    (s.loop now).issued = s.issued ∧ (s.loop now).dropped = s.dropped ∧
      (s.loop now).started = s.started := by
  rcases loop_cases s now with ⟨-, heq⟩ | ⟨-, heq⟩ | ⟨first, rest, -, -, heq⟩ |
    ⟨first, rest, left, -, -, -, -, heq⟩
  all_goals
    rw [heq]
    exact ⟨rfl, rfl, rfl⟩

/-- **The loop takes up no task** but one of the vector. -/
theorem loop_perm (s : TimerQueue) (now : Int) :
    (s.loop now).pending.Perm s.tasks ∧ (s.loop now).live.Perm s.tasks := by
  rcases loop_cases s now with ⟨-, heq⟩ | ⟨-, heq⟩ | ⟨first, rest, -, -, heq⟩ |
    ⟨first, rest, left, htasks, -, -, hleft, heq⟩
  · rw [heq]
    exact ⟨.refl _, .refl _⟩
  · rw [heq]
    exact ⟨.refl _, .refl _⟩
  · rw [heq]
    exact ⟨.refl _, .refl _⟩
  · have hperm : (first :: left).Perm s.tasks := htasks ▸ hleft.cons first
    rw [heq]
    exact ⟨hperm, hperm⟩

theorem Queued.loop (h : Queued s) (now : Int) : Settled (s.loop now) := by
  obtain ⟨hpending, hlive⟩ := loop_perm s now
  obtain ⟨hissued, hdropped, -⟩ := loop_keeps s now
  refine ⟨?_, h.distinct.perm hlive.symm, ?_, ?_⟩
  · rw [hissued]
    exact h.zero
  · intro t ht
    rw [hissued]
    exact h.issued t (hlive.mem_iff.mp ht)
  · intro id hid
    rw [hdropped] at hid
    rw [hissued]
    obtain ⟨hid', htasks⟩ := h.dropped id hid
    exact ⟨hid', fun t ht => htasks t (hpending.mem_iff.mp ht)⟩

/-- A runner that has no task. -/
theorem Queued.settled (h : Queued s) (htaken : s.taken = none) (hrunning : s.running = none) :
    Settled s := by
  have hpending : s.pending = s.tasks := by simp [pending, htaken]
  have hlive : s.live = s.tasks := by simp [live, hrunning, hpending]
  refine ⟨h.zero, hlive ▸ h.distinct, ?_, ?_⟩
  · rw [hlive]
    exact h.issued
  · rw [hpending]
    exact h.dropped

/-! ## The calls -/

theorem push_perm (s : TimerQueue) (task : Task) :
    (s.push task).tasks.Perm (task :: s.tasks) :=
  (pushHeap_perm s.tasks task).trans (List.perm_append_singleton _ _)

theorem nextId_ne_zero (s : TimerQueue) : s.nextId ≠ 0 := by
  unfold nextId
  split
  · decide
  · assumption

/-- A task with a new id is queued. -/
theorem Settled.addTask (h : Settled s) (hfresh : s.nextId ∉ s.issued) (func : Nat)
    (delay now : Int) : Settled (s.addTask func delay now) := by
  set task : Task := ⟨s.nextId, delay, due now delay, func, exactDue now delay⟩ with htask
  have htasks : (s.addTask func delay now).tasks.Perm (task :: s.tasks) :=
    push_perm { s with
      taskCounter := s.nextId
      issued := s.nextId :: s.issued
      notifiers := s.notifiers + 1 } task
  have hpending : (s.addTask func delay now).pending.Perm (task :: s.pending) :=
    (htasks.append_left _).trans List.perm_middle
  have hlive : (s.addTask func delay now).live.Perm (task :: s.live) :=
    (hpending.append_left _).trans List.perm_middle
  refine ⟨?_, Distinct.perm ?_ hlive.symm, ?_, ?_⟩
  · intro hzero
    rcases List.mem_cons.mp hzero with heq | hold
    · exact nextId_ne_zero s heq.symm
    · exact h.zero hold
  · refine List.pairwise_cons.mpr ⟨?_, h.distinct⟩
    intro t ht heq
    by_cases hzero : t.id = 0
    · exact heq.trans hzero
    · have hissued := h.issued t ht hzero
      rw [← heq] at hissued
      exact absurd hissued hfresh
  · intro t ht hzero
    rcases List.mem_cons.mp (hlive.mem_iff.mp ht) with rfl | hold
    · exact List.mem_cons_self
    · exact List.mem_cons_of_mem _ (h.issued t hold hzero)
  · intro id hid
    obtain ⟨hissued, hold⟩ := h.dropped id hid
    refine ⟨List.mem_cons_of_mem _ hissued, ?_⟩
    intro t ht heq
    rcases List.mem_cons.mp (hpending.mem_iff.mp ht) with rfl | ht
    · rw [← heq] at hissued
      exact hfresh hissued
    · exact hold t ht heq

/-- A call for an id, whatever it leaves in the vector. -/
theorem Settled.drop {id : Nat} {tasks : List Task} (h : Settled s)
    (hdistinct : Distinct (s.running.toList ++ (s.taken.toList ++ tasks)))
    (hkept : ∀ t ∈ tasks, t.id ≠ 0 → t ∈ s.tasks)
    (hgone : id ∈ s.issued → ∀ t ∈ s.taken.toList ++ tasks, t.id ≠ id) :
    Settled
      { s with
        tasks := tasks
        dropped := if id ∈ s.issued then id :: s.dropped else s.dropped } := by
  have hissued : ∀ t ∈ s.running.toList ++ (s.taken.toList ++ tasks), t.id ≠ 0 →
      t.id ∈ s.issued := by
    intro t ht hzero
    apply h.issued t ?_ hzero
    simp only [live, pending, List.mem_append] at ht ⊢
    exact ht.imp_right fun ht => ht.imp_right fun ht => hkept t ht hzero
  have hold : ∀ id ∈ s.dropped, id ∈ s.issued ∧ ∀ t ∈ s.taken.toList ++ tasks, t.id ≠ id := by
    intro id hid
    obtain ⟨hissued, hpending⟩ := h.dropped id hid
    refine ⟨hissued, ?_⟩
    intro t ht heq
    have hzero : t.id ≠ 0 := fun hzero => h.zero (hzero ▸ heq ▸ hissued)
    refine hpending t ?_ heq
    simp only [pending, List.mem_append] at ht ⊢
    exact ht.imp_right fun ht => hkept t ht hzero
  refine ⟨h.zero, hdistinct, hissued, ?_⟩
  show ∀ d ∈ (if id ∈ s.issued then id :: s.dropped else s.dropped), _
  split
  · next hid =>
      intro d hd
      rcases List.mem_cons.mp hd with rfl | hd
      · exact ⟨hid, hgone hid⟩
      · exact hold d hd
  · exact hold

/-- What is left in the vector has other ids than a task that was found. -/
theorem Settled.found (h : Settled s) {i : Nat} {task : Task} (htask : s.tasks[i]? = some task) :
    Distinct (s.running.toList ++ (s.taken.toList ++ s.tasks.eraseIdx i)) ∧
      ∀ t ∈ s.taken.toList ++ s.tasks.eraseIdx i, task.id = t.id → task.id = 0 := by
  obtain ⟨hi, rfl⟩ := List.getElem?_eq_some_iff.mp htask
  have hperm : s.tasks.Perm (s.tasks[i] :: s.tasks.eraseIdx i) :=
    (List.getElem_cons_eraseIdx_perm hi).symm
  have hpending : s.pending.Perm (s.tasks[i] :: (s.taken.toList ++ s.tasks.eraseIdx i)) :=
    (hperm.append_left _).trans List.perm_middle
  have hlive : s.live.Perm
      (s.tasks[i] :: (s.running.toList ++ (s.taken.toList ++ s.tasks.eraseIdx i))) :=
    (hpending.append_left _).trans List.perm_middle
  obtain ⟨hother, hrest⟩ := List.pairwise_cons.mp (h.distinct.perm hlive)
  exact ⟨hrest, fun t ht => hother t (List.mem_append_right _ ht)⟩

/-- A call that finds no task, before the task is taken out or after it was started. -/
theorem Settled.missed {id : Nat} (h : Settled s) (hnone : ∀ t ∈ s.tasks, t.id ≠ id)
    (hcatches : ∀ task ∈ s.taken, task.id = id → id = 0) :
    Settled { s with dropped := if id ∈ s.issued then id :: s.dropped else s.dropped } := by
  apply Settled.drop h h.distinct
  · exact fun t ht _ => ht
  · intro hissued t ht heq
    rcases List.mem_append.mp ht with htaken | ht
    · have hzero := hcatches t (Option.mem_toList.mp htaken) heq
      exact h.zero (hzero ▸ hissued)
    · exact hnone t ht heq

/-- **A cancelled task is not to be started.** -/
theorem Settled.cancelTask (h : Settled s) {id : Nat} (now : Int)
    (hcatches : ∀ task ∈ s.taken, task.id = id → id = 0) :
    Settled ((s.drop id).cancelTask id now) := by
  rw [drop_eq]
  rcases cancelTask_cases
    { s with dropped := if id ∈ s.issued then id :: s.dropped else s.dropped } id now with
    ⟨hnone, heq⟩ | ⟨i, task, -, htask, rfl, heq⟩
  · rw [heq]
    exact h.missed hnone hcatches
  · rw [heq]
    obtain ⟨hdistinct, hother⟩ := h.found htask
    have hi := (List.getElem?_eq_some_iff.mp htask).1
    have hset : (s.tasks.set i { task with id := 0, time := now, dueAt := now }).Perm
        ({ task with id := 0, time := now, dueAt := now } :: s.tasks.eraseIdx i) :=
      List.set_perm_cons_eraseIdx hi _
    apply Settled.drop h
    · have hlive := ((hset.append_left s.taken.toList).trans List.perm_middle).append_left
        s.running.toList |>.trans List.perm_middle
      refine Distinct.perm ?_ hlive.symm
      exact List.pairwise_cons.mpr ⟨fun t _ _ => rfl, hdistinct⟩
    · intro t ht hzero
      rcases List.mem_cons.mp (hset.mem_iff.mp ht) with rfl | ht
      · exact absurd rfl hzero
      · exact List.mem_of_mem_eraseIdx ht
    · intro hissued t ht hid
      have hpositive : task.id ≠ 0 := fun hzero => h.zero (hzero ▸ hissued)
      have hperm := (hset.append_left s.taken.toList).trans List.perm_middle
      rcases List.mem_cons.mp (hperm.mem_iff.mp ht) with rfl | ht
      · exact hpositive hid.symm
      · exact hpositive (hother t ht hid.symm)

/-- **A removed task is not to be started.** -/
theorem Settled.removeTask (h : Settled s) {id : Nat}
    (hcatches : ∀ task ∈ s.taken, task.id = id → id = 0) :
    Settled ((s.drop id).removeTask id) := by
  rw [drop_eq]
  rcases removeTask_cases
    { s with dropped := if id ∈ s.issued then id :: s.dropped else s.dropped } id with
    ⟨hnone, heq⟩ | ⟨i, task, -, htask, rfl, heq⟩
  · rw [heq]
    exact h.missed hnone hcatches
  · rw [heq]
    obtain ⟨hdistinct, hother⟩ := h.found htask
    apply Settled.drop h hdistinct
    · exact fun t ht _ => List.mem_of_mem_eraseIdx ht
    · intro hissued t ht hid
      have hpositive : task.id ≠ 0 := fun hzero => h.zero (hzero ▸ hissued)
      exact hpositive (hother t ht hid.symm)

/-! ## One step -/

/-- The runner comes back from its task, which is not repeated if it was cancelled. -/
theorem Settled.relock {task : Task} (h : Settled s) (hrunner : s.runner = .holding task true)
    (before now : Int) (hcatches : s.repeatMode = true → ∀ task ∈ s.running, task.id ∉ s.dropped) :
    Settled (s.relock task before now) := by
  unfold TimerQueue.relock
  have hrunning : s.running = some task := by rw [running, hrunner]
  have hlive : s.live = task :: s.tasks := by simp [live, pending, taken, hrunning, hrunner]
  split
  · next hrepeat =>
      simp only [Bool.and_eq_true, bne_iff_ne, ne_eq] at hrepeat
      set again : Task :=
        { task with
          time := due before task.delay
          dueAt := exactDue before task.delay } with hagain
      have hperm := push_perm s again
      have hdistinct : Distinct (task :: s.tasks) := hlive ▸ h.distinct
      obtain ⟨hother, hrest⟩ := List.pairwise_cons.mp hdistinct
      apply Queued.loop
      refine ⟨h.zero, Distinct.perm ?_ hperm.symm, ?_, ?_⟩
      · exact List.pairwise_cons.mpr ⟨hother, hrest⟩
      · intro t ht hzero
        rcases List.mem_cons.mp (hperm.mem_iff.mp ht) with rfl | ht
        · exact h.issued task (by simp [hlive]) hzero
        · exact h.queued.issued t ht hzero
      · intro id hid
        obtain ⟨hissued, htasks⟩ := h.queued.dropped id hid
        refine ⟨hissued, ?_⟩
        intro t ht heq
        rcases List.mem_cons.mp (hperm.mem_iff.mp ht) with rfl | ht
        · exact hcatches hrepeat.1 task hrunning (heq ▸ hid)
        · exact htasks t ht heq
  · exact h.queued.loop now

/-- **A step that catches its task** leaves those that were cancelled or removed settled. -/
theorem Settled.step (h : Settled s) (hcatches : Catches s e) (hstep : s.step e = some s') :
    Settled s' := by
  have hqueued := h.queued
  cases step_ran hstep with
  | setRepeatMode => exact ⟨h.zero, h.distinct, h.issued, h.dropped⟩
  | started => exact h
  | start =>
      apply Queued.settled ?_ rfl rfl
      exact ⟨hqueued.zero, hqueued.distinct, hqueued.issued, hqueued.dropped⟩
  | stopped => exact h
  | stop => exact ⟨h.zero, h.distinct, h.issued, h.dropped⟩
  | addTask hnow =>
      apply Settled.addTask
      · exact ⟨h.zero, h.distinct, h.issued, h.dropped⟩
      · exact hcatches
  | notify hnotifiers =>
      unfold TimerQueue.notify
      split
      · apply Queued.settled ?_ rfl rfl
        exact ⟨hqueued.zero, hqueued.distinct, hqueued.issued, hqueued.dropped⟩
      · exact ⟨h.zero, h.distinct, h.issued, h.dropped⟩
  | cancelTask hnow =>
      apply Settled.cancelTask
      · exact ⟨h.zero, h.distinct, h.issued, h.dropped⟩
      · exact hcatches
  | removeTask => exact h.removeTask hcatches
  | run hnow hrunner =>
      apply Queued.loop
      exact ⟨hqueued.zero, hqueued.distinct, hqueued.issued, hqueued.dropped⟩
  | wake hnow hrunner =>
      unfold TimerQueue.wake
      split
      · apply Queued.loop
        exact ⟨hqueued.zero, hqueued.distinct, hqueued.issued, hqueued.dropped⟩
      · apply Queued.settled ?_ rfl rfl
        exact ⟨hqueued.zero, hqueued.distinct, hqueued.issued, hqueued.dropped⟩
  | @runTask task hrunner =>
      have hlive : s.live = task :: s.tasks := by simp [live, pending, taken, running, hrunner]
      refine ⟨h.zero, ?_, ?_, hqueued.dropped⟩
      · have hdistinct := h.distinct
        rw [hlive] at hdistinct
        exact hdistinct
      · have hissued := h.issued
        rw [hlive] at hissued
        exact hissued
  | relock hbefore hnow hrunner =>
      apply Settled.relock
      · exact ⟨h.zero, h.distinct, h.issued, h.dropped⟩
      · exact hrunner
      · exact hcatches

/-! ## What a call leaves alone -/

theorem filter_set_eraseIdx {p : Task → Bool} {a : Task} (ha : p a = false) :
    ∀ {tasks : List Task} {i : Nat}, i < tasks.length →
      (tasks.set i a).filter p = (tasks.eraseIdx i).filter p
  | [], _, hi => by simp at hi
  | task :: tasks, 0, _ => by simp [ha]
  | task :: tasks, i + 1, hi => by
      have hrest := filter_set_eraseIdx (a := a) ha (Nat.lt_of_succ_lt_succ hi)
      simp only [List.set_cons_succ, List.eraseIdx_cons_succ, List.filter_cons, hrest]

/-- A task that the filter rejects is replaced or taken out. -/
theorem filter_eraseIdx {p : Task → Bool} {i : Nat} {tasks : List Task} {task : Task}
    (htask : tasks[i]? = some task) (hp : p task = false) :
    (tasks.eraseIdx i).filter p = tasks.filter p := by
  obtain ⟨hi, rfl⟩ := List.getElem?_eq_some_iff.mp htask
  rw [← filter_set_eraseIdx hp hi, List.set_getElem_self]

theorem cancelTask_spares (s : TimerQueue) (id : Nat) (now : Int) :
    Spares id s (s.cancelTask id now) ∧ (s.cancelTask id now).dropped = s.dropped := by
  rcases cancelTask_cases s id now with ⟨-, heq⟩ | ⟨i, task, -, htask, rfl, heq⟩
  · rw [heq]
    exact ⟨⟨rfl, rfl, rfl, rfl⟩, rfl⟩
  · rw [heq]
    refine ⟨⟨?_, rfl, rfl, rfl⟩, rfl⟩
    show (s.tasks.set i _).filter _ = s.tasks.filter _
    rw [filter_set_eraseIdx (by simp) (List.getElem?_eq_some_iff.mp htask).1]
    exact filter_eraseIdx htask (by simp)

theorem removeTask_spares (s : TimerQueue) (id : Nat) :
    Spares id s (s.removeTask id) ∧ (s.removeTask id).dropped = s.dropped := by
  rcases removeTask_cases s id with ⟨-, heq⟩ | ⟨i, task, -, htask, rfl, heq⟩
  · rw [heq]
    exact ⟨⟨rfl, rfl, rfl, rfl⟩, rfl⟩
  · rw [heq]
    exact ⟨⟨filter_eraseIdx htask (by simp), rfl, rfl, rfl⟩, rfl⟩

theorem drop_spares (s : TimerQueue) (id : Nat) : Spares id s (s.drop id) := by
  rw [drop_eq]
  exact ⟨rfl, rfl, rfl, rfl⟩

theorem Spares.trans {id : Nat} {u : TimerQueue} (h : Spares id s u) (h' : Spares id u s') :
    Spares id s s' :=
  ⟨h'.others.trans h.others, h'.runner.trans h.runner, h'.repeatMode.trans h.repeatMode,
    h'.started.trans h.started⟩

theorem mem_drop {id d : Nat} :
    d ∈ (s.drop id).dropped ↔ d ∈ s.dropped ∨ (d = id ∧ id ∈ s.issued) := by
  rw [drop_eq]
  show d ∈ (if id ∈ s.issued then id :: s.dropped else s.dropped) ↔ _
  by_cases hid : id ∈ s.issued
  · simp [hid, or_comm]
  · simp [hid]

/-- **A call leaves the other tasks alone**, and its own is noted. -/
theorem step_spares {id : Nat} (hdrops : e.drops = some id) (hstep : s.step e = some s') :
    Spares id s s' ∧ ∀ d, d ∈ s'.dropped ↔ d ∈ s.dropped ∨ (d = id ∧ id ∈ s.issued) := by
  cases step_ran hstep with
  | @cancelTask id' now hnow =>
      obtain rfl := Option.some.inj hdrops
      obtain ⟨hspares, hdropped⟩ := cancelTask_spares ({ s with clock := now }.drop id') id' now
      obtain ⟨hothers, hrunner, hmode, hstarted⟩ := (drop_spares _ id').trans hspares
      rw [hdropped]
      exact ⟨⟨hothers, hrunner, hmode, hstarted⟩, fun d => mem_drop⟩
  | @removeTask id' =>
      obtain rfl := Option.some.inj hdrops
      obtain ⟨hspares, hdropped⟩ := removeTask_spares (s.drop id') id'
      rw [hdropped]
      exact ⟨(drop_spares s id').trans hspares, fun d => mem_drop⟩
  | _ => cases hdrops

/-- **The only task that a step starts** was taken out before. -/
theorem step_started (hstep : s.step e = some s') :
    (s'.started = s.started ∨
        ∃ task, s.taken = some task ∧ s'.started = task.id :: s.started) ∧
      ∀ d ∈ s.dropped, d ∈ s'.dropped := by
  have hloop : ∀ {u : TimerQueue} (now : Int), u.started = s.started → u.dropped = s.dropped →
      (u.loop now).started = s.started ∧ ∀ d ∈ s.dropped, d ∈ (u.loop now).dropped := by
    intro u now hstarted hdropped
    obtain ⟨-, hdropped', hstarted'⟩ := loop_keeps u now
    rw [hstarted', hdropped', hdropped]
    exact ⟨hstarted, fun d hd => hd⟩
  by_cases hdrops : ∃ id, e.drops = some id
  · obtain ⟨id, hdrops⟩ := hdrops
    obtain ⟨hspares, hmem⟩ := step_spares hdrops hstep
    exact ⟨.inl hspares.started, fun d hd => (hmem d).mpr (.inl hd)⟩
  cases step_ran hstep with
  | cancelTask hnow => exact absurd ⟨_, rfl⟩ hdrops
  | removeTask => exact absurd ⟨_, rfl⟩ hdrops
  | notify hnotifiers =>
      unfold TimerQueue.notify
      split
      · exact ⟨.inl rfl, fun d hd => hd⟩
      · exact ⟨.inl rfl, fun d hd => hd⟩
  | @run now hnow hrunner =>
      obtain ⟨hstarted, hdropped⟩ := hloop (u := { s with clock := now }) now rfl rfl
      exact ⟨.inl hstarted, hdropped⟩
  | @wake now deadline notified hnow hrunner =>
      unfold TimerQueue.wake
      split
      · obtain ⟨hstarted, hdropped⟩ := hloop (u := { s with clock := now }) now rfl rfl
        exact ⟨.inl hstarted, hdropped⟩
      · exact ⟨.inl rfl, fun d hd => hd⟩
  | @runTask task hrunner =>
      refine ⟨?_, fun d hd => hd⟩
      by_cases hzero : task.id = 0
      · exact .inl (if_pos hzero)
      · exact .inr ⟨task, by rw [taken, hrunner], if_neg hzero⟩
  | @relock before now task hbefore hnow hrunner =>
      unfold TimerQueue.relock
      split
      · obtain ⟨hstarted, hdropped⟩ := hloop
          (u := { s with clock := now }.push
            { task with
              time := due before task.delay
              dueAt := exactDue before task.delay }) now
          rfl rfl
        exact ⟨.inl hstarted, hdropped⟩
      · obtain ⟨hstarted, hdropped⟩ := hloop (u := { s with clock := now }) now rfl rfl
        exact ⟨.inl hstarted, hdropped⟩
  | _ => exact ⟨.inl rfl, fun d hd => hd⟩

/-! ## Runs -/

theorem settled_start : Settled machine.start := by
  refine ⟨?_, List.Pairwise.nil, ?_, ?_⟩
  · simp [machine]
  · intro t ht
    cases ht
  · intro id hid
    cases hid

theorem settled {trace : List (Taken TimerQueue Event)} (hrun : machine.Run trace s)
    (hcatches : ∀ t ∈ trace, Catches t.pre t.event) : Settled s := by
  induction hrun with
  | start => exact settled_start
  | @step trace s s' e hrun hstep ih =>
      have hbefore := ih fun t ht => hcatches t (List.mem_cons_of_mem _ ht)
      exact hbefore.step (hcatches ⟨s, e, s'⟩ List.mem_cons_self) hstep

/-- What was cancelled or removed is noted, and not started from then on. -/
theorem dropped_final {trace : List (Taken TimerQueue Event)} (hrun : machine.Run trace s)
    (hcatches : ∀ t ∈ trace, Catches t.pre t.event) :
    ∀ t ∈ trace, ∀ id, t.event.drops = some id → id ∈ t.pre.issued →
      id ∈ s.dropped ∧ ∃ recent, s.started = recent ++ t.post.started ∧ id ∉ recent := by
  induction hrun with
  | start =>
      intro t ht
      cases ht
  | @step trace s s' e hrun hstep ih =>
      intro t ht id hdrops hissued
      rcases List.mem_cons.mp ht with rfl | ht
      · obtain ⟨-, hmem⟩ := step_spares hdrops hstep
        exact ⟨(hmem id).mpr (.inr ⟨rfl, hissued⟩), [], rfl, List.not_mem_nil⟩
      · have hcatches' : ∀ t ∈ trace, Catches t.pre t.event :=
          fun t ht => hcatches t (List.mem_cons_of_mem _ ht)
        obtain ⟨hdropped, recent, hstarted, hrecent⟩ := ih hcatches' t ht id hdrops hissued
        obtain ⟨hnext, hkept⟩ := step_started hstep
        refine ⟨hkept id hdropped, ?_⟩
        rcases hnext with hsame | ⟨task, htaken, hnext⟩
        · exact ⟨recent, hsame.trans hstarted, hrecent⟩
        · have hother : task.id ≠ id := by
            refine ((settled hrun hcatches').dropped id hdropped).2 task ?_
            simp [pending, htaken]
          refine ⟨task.id :: recent, by rw [hnext, hstarted, List.cons_append], ?_⟩
          simp [hrecent, hother.symm]

/-- **Cancelled tasks stay cancelled** in every run whose steps catch their tasks. -/
theorem staysCancelled {trace : List (Taken TimerQueue Event)} (hrun : machine.Run trace s)
    (hcatches : ∀ t ∈ trace, Catches t.pre t.event) : StaysCancelled trace s := by
  intro t ht id hdrops
  obtain ⟨hspares, -⟩ := step_spares hdrops (hrun.mem t ht).2
  refine ⟨hspares, ?_⟩
  intro hissued
  exact (dropped_final hrun hcatches t ht id hdrops hissued).2

/-- A task is cancelled while it runs, with repeat mode off; another is removed. -/
theorem staysCancelled_once :
    StaysCancelled
      (machine.recorded
        [.addTask 7 1 0, .addTask 8 2 0, .start, .run 1000000, .runTask, .cancelTask 1 1000000,
          .removeTask 2, .relock 1000000 1000000]).1
      (machine.recorded
        [.addTask 7 1 0, .addTask 8 2 0, .start, .run 1000000, .runTask, .cancelTask 1 1000000,
          .removeTask 2, .relock 1000000 1000000]).2 :=
  staysCancelled (machine.run_recorded _ (by decide +kernel)) (by decide +kernel)

/-- A task is cancelled while it runs, with repeat mode on: it is started a second time. -/
theorem staysCancelled_running :
    ∃ trace s, machine.Run trace s ∧ ¬ StaysCancelled trace s := by
  refine ⟨_, _, machine.run_recorded
    [.setRepeatMode true, .addTask 7 1 0, .start, .run 1000000, .runTask, .cancelTask 1 1000000,
      .relock 1000000 1000000, .wake 2000000, .runTask] (by decide +kernel), ?_⟩
  intro hstays
  have hcall : ∃ t ∈ (machine.recorded
      [.setRepeatMode true, .addTask 7 1 0, .start, .run 1000000, .runTask,
        .cancelTask 1 1000000, .relock 1000000 1000000, .wake 2000000, .runTask]).1,
      t.event.drops = some 1 ∧ 1 ∈ t.pre.issued ∧ t.post.started = [1] := by decide +kernel
  obtain ⟨t, ht, hdrops, hissued, honce⟩ := hcall
  obtain ⟨recent, htwice, hrecent⟩ := (hstays t ht 1 hdrops).2 hissued
  have hstarted : (machine.recorded
      [.setRepeatMode true, .addTask 7 1 0, .start, .run 1000000, .runTask,
        .cancelTask 1 1000000, .relock 1000000 1000000, .wake 2000000, .runTask]).2.started =
      [1] ++ [1] := by decide +kernel
  rw [honce, hstarted] at htwice
  rw [← List.append_cancel_right htwice] at hrecent
  exact hrecent List.mem_cons_self

end Ekizu.Timer.TimerQueue
