import Ekizu.Lib.Runs
import Ekizu.Rest.Http

/-!
# A connection

`HttpConnection::Impl` of `http.cpp`: the queue of a connection and the handlers
that run on its strand, one event for each.  A write and a read complete at any
later time, with any result.

A call is dispatched to the strand.  It waits there for its turn, unless the
caller is a completion handler that runs on the strand itself: then it is taken
at once.  `cancel` stores its flag from any thread, so `finish` ends in an event
of its own: the store can come after the flag was read and before the handler is
dispatched.
-/

namespace Ekizu.Rest

open Lib.Runs

/-- The fields of `Impl`, and what is in flight: the submissions and the
cancellations that the strand has not taken (`calls`, `cancels`), the requests
whose write or read has not completed (`writing`, `reading`), those of `finish`
with their results (`finishing`), and the ends of `finish` (`releases`).
`arrived` records the requests that the strand took, with whether they waited for
it, `written` those whose write was started, and `results` the completions of
the handlers, the last first. -/
structure HttpConnection where
  busy : Bool := false
  cancelled : Bool := false
  cancelledOnStrand : Bool := false
  queue : List Pending := []
  submitted : Nat := 0
  calls : List Pending := []
  cancels : Nat := 0
  writing : List Pending := []
  reading : List Pending := []
  finishing : List (Pending × HttpResult) := []
  releases : Nat := 0
  arrived : List (Bool × Nat) := []
  written : List Pending := []
  results : List (Pending × HttpResult) := []

namespace HttpConnection

/-- `cancel_on_strand`, up to the socket: the queued requests are completed. -/
def cancelOnStrand (s : HttpConnection) : HttpConnection :=
  if s.cancelledOnStrand then s
  else
    { s with
      cancelledOnStrand := true
      queue := []
      results :=
        (s.queue.map fun p => (p, HttpResult.error .operationCanceled)).reverse ++ s.results }

def startNext (s : HttpConnection) : HttpConnection :=
  if s.cancelled then s.cancelOnStrand
  else if s.busy then s
  else
    match s.queue with
    | [] => s
    | p :: queue =>
        { s with
          busy := true
          queue := queue
          writing := p :: s.writing
          written := s.written ++ [p] }

/-- The handler of `enqueue`; `waited` where the submission waited for the strand. -/
def enqueue (s : HttpConnection) (waited : Bool) (p : Pending) : HttpConnection :=
  if s.cancelled then
    { s with
      arrived := s.arrived ++ [(waited, p.id)]
      results := (p, .error .operationCanceled) :: s.results }
  else
    { s with
      arrived := s.arrived ++ [(waited, p.id)]
      queue := s.queue ++ [p] }.startNext

/-- `RequestOp::finish`, up to the dispatch of the handler. -/
def finish (s : HttpConnection) (p : Pending) (result : HttpResult) : HttpConnection :=
  { s with
    finishing :=
      (p, if s.cancelled then .error .operationCanceled else result) :: s.finishing }

/-- The handler of `async_write`, where it did not fail. -/
def read (s : HttpConnection) (p : Pending) : HttpConnection :=
  { s with reading := p :: s.reading }

def writeCompleted (s : HttpConnection) (p : Pending) (ec : Option Error) : HttpConnection :=
  match ec with
  | some e => s.finish p (.error e)
  | none => s.read p

/-- The end of `finish`. -/
def release (s : HttpConnection) : HttpConnection :=
  { s with releases := s.releases - 1, busy := false }.startNext

/-- `cancel`, up to the dispatch of `cancel_on_strand`. -/
def cancel (s : HttpConnection) (onStrand : Bool) : HttpConnection :=
  if s.cancelled then s
  else if onStrand then { s with cancelled := true }.cancelOnStrand
  else { s with cancelled := true, cancels := s.cancels + 1 }

/-- What runs: a submission from off or on the strand, the handler of `enqueue`, of
`async_write` and of `async_read`, the dispatch of a handler and the end of
`finish`, `cancel` from off or on the strand, and `cancel_on_strand`. -/
inductive Event where
  | request (req : HttpRequest)
  | requestOnStrand (req : HttpRequest)
  | enqueue
  | writeCompleted (i : Nat) (ec : Option Error)
  | readCompleted (i : Nat) (result : HttpResult)
  | dispatched
  | release
  | cancel (onStrand : Bool)
  | cancelOnStrand

/-- One handler; `none` where it is not due. -/
def step (s : HttpConnection) : Event → Option HttpConnection
  | .request req =>
      some { s with submitted := s.submitted + 1, calls := s.calls ++ [⟨s.submitted, req⟩] }
  | .requestOnStrand req =>
      some ({ s with submitted := s.submitted + 1 }.enqueue false ⟨s.submitted, req⟩)
  | .enqueue =>
      match s.calls with
      | [] => none
      | p :: calls => some ({ s with calls := calls }.enqueue true p)
  | .writeCompleted i ec =>
      match s.writing[i]? with
      | none => none
      | some p => some ({ s with writing := s.writing.eraseIdx i }.writeCompleted p ec)
  | .readCompleted i result =>
      match s.reading[i]? with
      | none => none
      | some p => some ({ s with reading := s.reading.eraseIdx i }.finish p result)
  | .dispatched =>
      match s.finishing with
      | [] => none
      | x :: finishing =>
          some
            { s with
              finishing := finishing
              results := x :: s.results
              releases := s.releases + 1 }
  | .release => if s.releases = 0 then none else some s.release
  | .cancel onStrand => some (s.cancel onStrand)
  | .cancelOnStrand =>
      if s.cancels = 0 then none else some { s with cancels := s.cancels - 1 }.cancelOnStrand

/-- A connection from the end of its connect on. -/
def machine : Machine HttpConnection Event where
  start := {}
  step := step

end HttpConnection

end Ekizu.Rest
