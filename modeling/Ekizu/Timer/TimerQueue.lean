import Ekizu.Lib.Heap
import Ekizu.Lib.Runs
import Mathlib.Algebra.Group.Nat.Defs
import Mathlib.Algebra.Order.Ring.Int

/-!
# The timer queue

`TimerQueue` of `timer_queue.hpp`: the priority queue of tasks, and the runner.  One
event is one section under the mutex, or one of the things that come between two
sections: the notification at the end of `add_task` and `stop`, and the start of a
task's function.

A wait of the runner ends with a notification, at its deadline or spuriously; then
the runner takes the mutex again and tests its predicate, in one section with what
follows.  Readings of the clock do not decrease.  Times are nanoseconds, delays
milliseconds.
-/

namespace Ekizu.Timer

open Lib.Heap Lib.Runs

/-- A `Task`; its function by number.  `dueAt` records when the caller means it to run:
the delay after the reading of the clock that `time` counts from, or the reading at which
it was cancelled. -/
structure Task where
  id : Nat
  delay : Int
  time : Int
  func : Nat
  dueAt : Int
  deriving DecidableEq

/-- Where the runner is: before its first section; blocked in a wait, for a task or until
a deadline, and whether a notification has reached it; between the sections in which
it takes a task and comes back, and whether the task was started; at the end. -/
inductive Runner where
  | absent
  | starting
  | waiting (deadline : Option Int) (notified : Bool)
  | holding (task : Task) (started : Bool)
  | exited
  deriving DecidableEq

/-- The fields of `TimerQueue`, where the runner is, and the calls of `add_task` and
`stop` that have not notified (`notifiers`).  `issued` records the ids that were
handed out, `dropped` those that were cancelled or removed, `started` the tasks whose
functions were started, `uses` the vectors that a push, `top` or a pop met, and `pops`
the tasks that were taken, with the vector and the clock reading; the last first. -/
structure TimerQueue where
  tasks : List Task := []
  stop : Bool := true
  repeatMode : Bool := false
  taskCounter : Nat := 0
  runner : Runner := .absent
  notifiers : Nat := 0
  clock : Int := 0
  issued : List Nat := []
  dropped : List Nat := []
  started : List Nat := []
  uses : List (List Task) := []
  pops : List (Task × List Task × Int) := []

/-- The largest `size_t`, and one. -/
def sizeModulus : Nat := 2 ^ 64

/-- The count of a `duration` of nanoseconds has 64 bits and a sign.  C++ leaves its overflow
open; what is compiled wraps. -/
def nanoseconds (count : Int) : Int := count.bmod (2 ^ 64)

/-- `now + delay`: the delay is converted to nanoseconds and added. -/
def due (now delay : Int) : Int := nanoseconds (now + nanoseconds (delay * 1000000))

/-- The delay after a reading of the clock. -/
def exactDue (now delay : Int) : Int := now + delay * 1000000

namespace TimerQueue

/-- `m_tasks.push`. -/
def push (s : TimerQueue) (task : Task) : TimerQueue :=
  { s with tasks := pushHeap Task.time s.tasks task, uses := s.tasks :: s.uses }

/-- `++m_task_counter == 0 ? ++m_task_counter : m_task_counter`. -/
def nextId (s : TimerQueue) : Nat :=
  if (s.taskCounter + 1) % sizeModulus = 0 then 1 else (s.taskCounter + 1) % sizeModulus

/-- The section of `add_task`. -/
def addTask (s : TimerQueue) (func : Nat) (delay now : Int) : TimerQueue :=
  { s with
    taskCounter := s.nextId
    issued := s.nextId :: s.issued
    notifiers := s.notifiers + 1 }.push
      ⟨s.nextId, delay, due now delay, func, exactDue now delay⟩

/-- `notify_one` and `notify_all`, which the runner alone waits for. -/
def notify (s : TimerQueue) : TimerQueue :=
  match s.runner with
  | .waiting deadline _ =>
      { s with notifiers := s.notifiers - 1, runner := .waiting deadline true }
  | _ => { s with notifiers := s.notifiers - 1 }

/-- The position of the first task with an id. -/
def position (s : TimerQueue) (id : Nat) : Option Nat := s.tasks.findIdx? fun t => t.id == id

/-- An id is noted as cancelled or removed, where it was handed out. -/
def drop (s : TimerQueue) (id : Nat) : TimerQueue :=
  if id ∈ s.issued then { s with dropped := id :: s.dropped } else s

def cancelTask (s : TimerQueue) (id : Nat) (now : Int) : TimerQueue :=
  match s.position id with
  | none => s
  | some i =>
      match s.tasks[i]? with
      | none => s
      | some task =>
          { s with tasks := s.tasks.set i { task with id := 0, time := now, dueAt := now } }

def removeTask (s : TimerQueue) (id : Nat) : TimerQueue :=
  match s.position id with
  | none => s
  | some i => { s with tasks := s.tasks.eraseIdx i }

/-- `top_and_pop`, with the clock reading before. -/
def topAndPop (s : TimerQueue) (now : Int) : TimerQueue :=
  match (popHeap Task.time s.tasks).getLast? with
  | none => s
  | some task =>
      { s with
        tasks := (popHeap Task.time s.tasks).dropLast
        runner := .holding task false
        uses := s.tasks :: s.uses
        pops := (task, s.tasks, now) :: s.pops }

/-- The loop of `run`, from where the runner has the mutex to where it releases it. -/
def loop (s : TimerQueue) (now : Int) : TimerQueue :=
  if s.stop then { s with runner := .exited }
  else
    match s.tasks with
    | [] => { s with runner := .waiting none false }
    | first :: _ =>
        if now < first.time then
          { s with runner := .waiting (some first.time) false, uses := s.tasks :: s.uses }
        else s.topAndPop now

/-- The predicate of a wait. -/
def waitIsOver (s : TimerQueue) (now : Int) : Option Int → Bool
  | none => !s.tasks.isEmpty || s.stop
  | some deadline => decide (deadline ≤ now) || s.stop

/-- A wait returns: it is over, or the runner waits again. -/
def wake (s : TimerQueue) (deadline : Option Int) (now : Int) : TimerQueue :=
  if s.waitIsOver now deadline then s.loop now
  else { s with runner := .waiting deadline false }

/-- The runner comes back from a task. -/
def relock (s : TimerQueue) (task : Task) (before now : Int) : TimerQueue :=
  if s.repeatMode && task.id != 0 then
    (s.push
      { task with
        time := due before task.delay
        dueAt := exactDue before task.delay }).loop now
  else s.loop now

/-- What happens: the section of a call, the notification at the end of a call, the
first section of the runner, the return of a wait, the start of a task's function, and
the section that follows it, with the readings of the clock. -/
inductive Event where
  | setRepeatMode (mode : Bool)
  | start
  | stop
  | addTask (func : Nat) (delay now : Int)
  | notify
  | cancelTask (id : Nat) (now : Int)
  | removeTask (id : Nat)
  | run (now : Int)
  | wake (now : Int)
  | runTask
  | relock (before now : Int)

/-- One event; `none` where it cannot happen. -/
def step (s : TimerQueue) : Event → Option TimerQueue
  | .setRepeatMode mode => some { s with repeatMode := mode }
  | .start =>
      if !s.stop then some s
      else
        match s.runner with
        | .absent | .exited => some { s with stop := false, runner := .starting }
        | _ => none
  | .stop =>
      if s.stop then some s else some { s with stop := true, notifiers := s.notifiers + 1 }
  | .addTask func delay now =>
      if now < s.clock then none else some ({ s with clock := now }.addTask func delay now)
  | .notify => if s.notifiers = 0 then none else some s.notify
  | .cancelTask id now =>
      if now < s.clock then none else some ({ s with clock := now }.drop id |>.cancelTask id now)
  | .removeTask id => some ((s.drop id).removeTask id)
  | .run now =>
      if now < s.clock then none
      else
        match s.runner with
        | .starting => some ({ s with clock := now }.loop now)
        | _ => none
  | .wake now =>
      if now < s.clock then none
      else
        match s.runner with
        | .waiting deadline _ => some ({ s with clock := now }.wake deadline now)
        | _ => none
  | .runTask =>
      match s.runner with
      | .holding task false =>
          some
            { s with
              runner := .holding task true
              started := if task.id = 0 then s.started else task.id :: s.started }
      | _ => none
  | .relock before now =>
      if before < s.clock ∨ now < before then none
      else
        match s.runner with
        | .holding task true => some ({ s with clock := now }.relock task before now)
        | _ => none

/-- A queue after its construction. -/
def machine : Machine TimerQueue Event where
  start := {}
  step := step

end TimerQueue

end Ekizu.Timer
