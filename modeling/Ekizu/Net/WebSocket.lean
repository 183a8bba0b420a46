import Ekizu.Lib.Runs
import Ekizu.Net.Common

/-!
# A websocket

`WebSocketClient::Impl` of `ws.cpp`: the queues of reads and of messages, and the
handlers that run on its strand, one event for each.  A stream read and a stream
write complete at any later time, with any result.

A call is dispatched to the strand.  It waits there for its turn behind the calls
before it, unless the caller runs on the strand itself, as a completion handler
does that has no executor of its own: then it is taken at once.
-/

namespace Ekizu.Net

open Lib.Runs

/-- `ws::close_reason`. -/
structure CloseReason where
  code : UInt16
  reason : Bytes
  deriving DecidableEq

structure WebSocketMessage where
  payload : Bytes
  isBinary : Bool
  deriving DecidableEq

/-- `Result<WebSocketMessage>`. -/
inductive ReadResult where
  | message (m : WebSocketMessage)
  | error (e : Error)
  deriving DecidableEq

/-- What the handler of `stream.async_read` meets: the bytes that were put into the
buffer, the error code, and what `got_binary` and `reason` return. -/
structure ReadCompletion where
  data : Bytes
  ec : Option Error := none
  gotBinary : Bool := false
  reason : CloseReason := ⟨0, []⟩
  deriving DecidableEq

/-- A message that is to be sent, by the number of its `async_send`. -/
structure Outgoing where
  id : Nat
  msg : Bytes
  binary : Bool
  deriving DecidableEq

/-- The fields of `Impl` for reads; a read handler is the number of its `async_read`.
`streamReads` are the handlers of the stream reads that have not completed,
`arrived` records the reads that the strand took, with whether they waited for it,
and `results` the completions of the handlers, the last first. -/
structure Reads where
  reading : Bool := false
  queue : List Nat := []
  buffer : Bytes := []
  closeReason : Option CloseReason := none
  submitted : Nat := 0
  streamReads : List Nat := []
  arrived : List (Bool × Nat) := []
  results : List (Nat × ReadResult) := []

namespace Reads

/-- `start_next_read`, with the queue that is left. -/
def startNextReadFrom (cancelled : Bool) (r : Reads) : List Nat → Reads
  | [] => { r with queue := [], reading := false }
  | id :: queue =>
      if cancelled then
        startNextReadFrom cancelled
          { r with results := (id, .error .operationCanceled) :: r.results } queue
      else { r with queue := queue, streamReads := id :: r.streamReads }

def startNextRead (cancelled : Bool) (r : Reads) : Reads :=
  r.startNextReadFrom cancelled r.queue

/-- The handler of `async_read`; `waited` where the call waited for the strand. -/
def asyncRead (cancelled : Bool) (r : Reads) (waited : Bool) (id : Nat) : Reads :=
  if cancelled then
    { r with
      arrived := r.arrived ++ [(waited, id)]
      results := (id, .error .operationCanceled) :: r.results }
  else if r.reading then
    { r with arrived := r.arrived ++ [(waited, id)], queue := r.queue ++ [id] }
  else
    { r with
      arrived := r.arrived ++ [(waited, id)]
      queue := r.queue ++ [id]
      reading := true }.startNextRead cancelled

/-- The handler of `stream.async_read`. -/
def readCompleted (cancelled : Bool) (r : Reads) (id : Nat) (c : ReadCompletion) : Reads :=
  match c.ec with
  | some e =>
      { r with
        buffer := r.buffer ++ c.data
        closeReason := if e = Error.closed then some c.reason else r.closeReason
        results := (id, .error e) :: r.results }.startNextRead cancelled
  | none =>
      { r with
        buffer := []
        results := (id, .message ⟨r.buffer ++ c.data, c.gotBinary⟩) :: r.results }.startNextRead
        cancelled

/-- What `cancel` does to the queue of reads. -/
def cancel (r : Reads) : Reads :=
  { r with
    queue := []
    results :=
      (r.queue.map fun id => (id, ReadResult.error .operationCanceled)).reverse ++ r.results }

end Reads

/-- The fields of `Impl` for messages, and the flag of the stream that says whether it
writes text or binary.  `writes` are the stream writes that have not completed, each
with the handler that its `DrainOp` completes; `arrived` records the messages that
the strand took, `written` what was handed to the stream, and `results` the
completions of the handlers, the last first. -/
structure Sends where
  sending : Bool := false
  queue : List Outgoing := []
  binary : Bool := false
  submitted : Nat := 0
  writes : List (Nat × Outgoing) := []
  arrived : List (Bool × Outgoing) := []
  written : List Outgoing := []
  results : List (Nat × Option Error) := []

namespace Sends

/-- `stream.async_write`, with the flag that the stream has. -/
def asyncWrite (s : Sends) (first : Nat) (o : Outgoing) : Sends :=
  { s with
    writes := (first, o) :: s.writes
    written := s.written ++ [{ o with binary := s.binary }] }

/-- `DrainOp::step`, for the drain that completes the handler `first`. -/
def drainStep (s : Sends) (first : Nat) (last : Option Error) : Sends :=
  match last with
  | some e => { s with sending := false, results := (first, some e) :: s.results }
  | none =>
      match s.queue with
      | [] => { s with sending := false, results := (first, none) :: s.results }
      | o :: queue => { s with queue := queue, binary := o.binary }.asyncWrite first o

/-- The handler of `async_send`. -/
def asyncSend (s : Sends) (waited : Bool) (o : Outgoing) : Sends :=
  if s.sending then
    { s with
      arrived := s.arrived ++ [(waited, o)]
      queue := s.queue ++ [o]
      results := (o.id, none) :: s.results }
  else
    { s with
      arrived := s.arrived ++ [(waited, o)]
      queue := s.queue ++ [o]
      sending := true }.drainStep o.id none

/-- What `cancel` does to the queue of messages. -/
def cancel (s : Sends) : Sends := { s with queue := [] }

end Sends

/-- What was dispatched to the strand. -/
inductive Call where
  | read (id : Nat)
  | send (o : Outgoing)
  | cancel
  deriving DecidableEq

/-- `Impl`, with the calls that the strand has not taken. -/
structure WebSocketClient where
  cancelled : Bool := false
  reads : Reads := {}
  sends : Sends := {}
  calls : List Call := []

namespace WebSocketClient

/-- A handler that was dispatched. -/
def run (s : WebSocketClient) (waited : Bool) : Call → WebSocketClient
  | .read id => { s with reads := s.reads.asyncRead s.cancelled waited id }
  | .send o => { s with sends := s.sends.asyncSend waited o }
  | .cancel =>
      { s with cancelled := true, reads := s.reads.cancel, sends := s.sends.cancel }

/-- `asio::dispatch`. -/
def dispatch (s : WebSocketClient) (onStrand : Bool) (c : Call) : WebSocketClient :=
  if onStrand then s.run false c else { s with calls := s.calls ++ [c] }

/-- What happens: a call from off or on the strand, its handler when it waited, and the
handlers of `stream.async_read` and `stream.async_write`. -/
inductive Event where
  | asyncRead (onStrand : Bool)
  | asyncSend (onStrand : Bool) (msg : Bytes) (binary : Bool)
  | cancel (onStrand : Bool)
  | taken
  | readCompleted (i : Nat) (c : ReadCompletion)
  | writeCompleted (i : Nat) (ec : Option Error)

/-- One event; `none` where it cannot happen. -/
def step (s : WebSocketClient) : Event → Option WebSocketClient
  | .asyncRead onStrand =>
      some ({ s with reads := { s.reads with submitted := s.reads.submitted + 1 } }.dispatch
        onStrand (.read s.reads.submitted))
  | .asyncSend onStrand msg binary =>
      some ({ s with sends := { s.sends with submitted := s.sends.submitted + 1 } }.dispatch
        onStrand (.send ⟨s.sends.submitted, msg, binary⟩))
  | .cancel onStrand => some (s.dispatch onStrand .cancel)
  | .taken =>
      match s.calls with
      | [] => none
      | c :: calls => some ({ s with calls := calls }.run true c)
  | .readCompleted i c =>
      match s.reads.streamReads[i]? with
      | none => none
      | some id =>
          some
            { s with
              reads := { s.reads with
                streamReads := s.reads.streamReads.eraseIdx i }.readCompleted s.cancelled id c }
  | .writeCompleted i ec =>
      match s.sends.writes[i]? with
      | none => none
      | some (first, _) =>
          some
            { s with
              sends := { s.sends with
                writes := s.sends.writes.eraseIdx i }.drainStep first ec }

/-- A websocket from the end of its handshake on. -/
def machine : Machine WebSocketClient Event where
  start := {}
  step := step

variable {s s' : WebSocketClient} {e : Event}

/-- What becomes of an event, and when it can happen. -/
inductive Ran (s : WebSocketClient) : Event → WebSocketClient → Prop
  | asyncRead {onStrand : Bool} :
      Ran s (.asyncRead onStrand)
        ({ s with reads := { s.reads with submitted := s.reads.submitted + 1 } }.dispatch
          onStrand (.read s.reads.submitted))
  | asyncSend {onStrand : Bool} {msg : Bytes} {binary : Bool} :
      Ran s (.asyncSend onStrand msg binary)
        ({ s with sends := { s.sends with submitted := s.sends.submitted + 1 } }.dispatch
          onStrand (.send ⟨s.sends.submitted, msg, binary⟩))
  | cancel {onStrand : Bool} : Ran s (.cancel onStrand) (s.dispatch onStrand .cancel)
  | taken {c : Call} {calls : List Call} (hcalls : s.calls = c :: calls) :
      Ran s .taken ({ s with calls := calls }.run true c)
  | readCompleted {i id : Nat} {c : ReadCompletion} (hid : s.reads.streamReads[i]? = some id) :
      Ran s (.readCompleted i c)
        { s with
          reads := { s.reads with
            streamReads := s.reads.streamReads.eraseIdx i }.readCompleted s.cancelled id c }
  | writeCompleted {i first : Nat} {o : Outgoing} {ec : Option Error}
      (hw : s.sends.writes[i]? = some (first, o)) :
      Ran s (.writeCompleted i ec)
        { s with
          sends := { s.sends with writes := s.sends.writes.eraseIdx i }.drainStep first ec }

theorem step_ran (hstep : s.step e = some s') : Ran s e s' := by
  cases e with
  | asyncRead onStrand =>
      obtain rfl := Option.some.inj hstep
      exact .asyncRead
  | asyncSend onStrand msg binary =>
      obtain rfl := Option.some.inj hstep
      exact .asyncSend
  | cancel onStrand =>
      obtain rfl := Option.some.inj hstep
      exact .cancel
  | taken =>
      simp only [step] at hstep
      split at hstep
      · simp at hstep
      · next c calls hcalls =>
          obtain rfl := Option.some.inj hstep
          exact .taken hcalls
  | readCompleted i c =>
      simp only [step] at hstep
      split at hstep
      · simp at hstep
      · next id hid =>
          obtain rfl := Option.some.inj hstep
          exact .readCompleted hid
  | writeCompleted i ec =>
      simp only [step] at hstep
      split at hstep
      · simp at hstep
      · next first o hw =>
          obtain rfl := Option.some.inj hstep
          exact .writeCompleted hw

/-! ## Cancellation -/

def Event.isCancel : Event → Bool
  | .cancel _ => true
  | _ => false

/-- `cancel` was called: it has run or waits for the strand. -/
def CancelAsked (s : WebSocketClient) : Prop := s.cancelled = true ∨ Call.cancel ∈ s.calls

theorem cancelAsked_dispatch (s : WebSocketClient) (c : Call) (onStrand : Bool) :
    CancelAsked (s.dispatch onStrand c) ↔ s.CancelAsked ∨ c = .cancel := by
  cases onStrand with
  | false => simp [CancelAsked, dispatch, eq_comm (a := c), or_assoc]
  | true =>
      cases c with
      | read id => simp [CancelAsked, dispatch, run]
      | send o => simp [CancelAsked, dispatch, run]
      | cancel => simp [CancelAsked, dispatch, run]

theorem cancelAsked_run {c : Call} {calls : List Call} (hcalls : s.calls = c :: calls) :
    CancelAsked (({ s with calls := calls }).run true c) ↔ s.CancelAsked := by
  cases c with
  | read id => simp [CancelAsked, run, hcalls]
  | send o => simp [CancelAsked, run, hcalls]
  | cancel => simp [CancelAsked, run, hcalls]

theorem cancelAsked_step (hstep : s.step e = some s') :
    s'.CancelAsked ↔ s.CancelAsked ∨ e.isCancel = true := by
  cases step_ran hstep with
  | asyncRead =>
      rw [cancelAsked_dispatch]
      simp [CancelAsked, Event.isCancel]
  | asyncSend =>
      rw [cancelAsked_dispatch]
      simp [CancelAsked, Event.isCancel]
  | cancel =>
      rw [cancelAsked_dispatch]
      simp [Event.isCancel]
  | taken hcalls =>
      rw [cancelAsked_run hcalls]
      simp [Event.isCancel]
  | readCompleted => simp [CancelAsked, Event.isCancel]
  | writeCompleted => simp [CancelAsked, Event.isCancel]

/-- A cancellation that was asked for is not forgotten. -/
theorem cancelAsked_iff {trace : List (Taken WebSocketClient Event)} (hrun : machine.Run trace s) :
    s.CancelAsked ↔ ∃ t ∈ trace, t.event.isCancel = true := by
  induction hrun with
  | start => simp [CancelAsked, machine]
  | @step trace s s' e hrun hstep ih =>
      rw [cancelAsked_step hstep, ih]
      simp [or_comm]

end WebSocketClient

end Ekizu.Net
