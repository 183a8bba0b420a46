import Ekizu.Lib.Runs
import Ekizu.Net.Common

/-!
# A UDP socket

`UdpSocket::Impl` of `udp.cpp`, as far as receives go.  One event is one section
under the mutex, or one of the things that come between two sections: handing a
receive to the socket, and the completion of what `close` took from the queue.
Any number of threads can be between two sections of theirs; what they carry is
part of the state.
-/

namespace Ekizu.Net

open Lib.Runs

/-- `PendingOp::Kind`: `Connected` and `From`. -/
inductive Kind where
  | connected
  | fromPeer
  deriving DecidableEq

/-- A `PendingOp`; its handler is the number of its call. -/
structure PendingOp where
  id : Nat
  kind : Kind
  deriving DecidableEq

structure Datagram where
  payload : Bytes
  sender : Endpoint
  deriving DecidableEq

/-- `Result<std::string>` or `Result<std::pair<std::string, Endpoint>>`. -/
inductive ReceiveResult where
  | payload (msg : Bytes)
  | payloadFrom (msg : Bytes) (ep : Endpoint)
  | error (e : Error)
  deriving DecidableEq

/-- A datagram as a receive of some kind asks for it. -/
def Kind.form : Kind → Datagram → ReceiveResult
  | connected, d => .payload d.payload
  | fromPeer, d => .payloadFrom d.payload d.sender

/-- What `m_socket.async_receive_from` completes with. -/
inductive SocketResult where
  | datagram (d : Datagram)
  | error (e : Error)
  deriving DecidableEq

/-- The fields of `Impl`, and what is between sections: the calls of `start_receive`
that have not entered theirs (`starters`), the receives that were taken from the
queue and not handed to the socket (`popped`), those that the socket has
(`outstanding`), the socket handlers before their last section (`finishers`), and
the receives that `close` took and has not completed (`swapped`).  `queued` records
what was put into the queue, and `results` the completions of the handlers, the last
first. -/
structure UdpSocket where
  closing : Bool := false
  connected : Bool := false
  receiveInflight : Bool := false
  recvq : List PendingOp := []
  submitted : Nat := 0
  starters : Nat := 0
  popped : List PendingOp := []
  outstanding : List PendingOp := []
  finishers : Nat := 0
  swapped : List PendingOp := []
  queued : List PendingOp := []
  results : List (PendingOp × ReceiveResult) := []

namespace UdpSocket

/-- What `async_receive` and `async_receive_from` do with a receive that joins the
queue. -/
def push (s : UdpSocket) (op : PendingOp) : UdpSocket :=
  if s.receiveInflight then
    { s with recvq := s.recvq ++ [op], queued := s.queued ++ [op] }
  else
    { s with
      recvq := s.recvq ++ [op]
      queued := s.queued ++ [op]
      receiveInflight := true
      starters := s.starters + 1 }

def reject (s : UdpSocket) (op : PendingOp) (e : Error) : UdpSocket :=
  { s with results := (op, .error e) :: s.results }

/-- The section of `async_receive`. -/
def asyncReceive (s : UdpSocket) (op : PendingOp) : UdpSocket :=
  if s.closing then s.reject op .udpClosed
  else if s.connected then s.push op
  else s.reject op .udpNotConnected

/-- The section of `async_receive_from`. -/
def asyncReceiveFrom (s : UdpSocket) (op : PendingOp) : UdpSocket :=
  if s.closing then s.reject op .udpClosed else s.push op

/-- The section of `start_receive`. -/
def startReceive (s : UdpSocket) : UdpSocket :=
  if s.closing then { s with starters := s.starters - 1, receiveInflight := false }
  else
    match s.recvq with
    | [] => { s with starters := s.starters - 1, receiveInflight := false }
    | op :: recvq =>
        { s with starters := s.starters - 1, recvq := recvq, popped := op :: s.popped }

/-- The first section of the socket handler, and the completion that it posts. -/
def received (s : UdpSocket) (op : PendingOp) (result : SocketResult) : UdpSocket :=
  match result with
  | .error e =>
      { s with
        finishers := s.finishers + 1
        results := (op, .error (if s.closing then .udpClosed else e)) :: s.results }
  | .datagram d =>
      { s with
        finishers := s.finishers + 1
        results := (op, op.kind.form d) :: s.results }

/-- The last section of the socket handler. -/
def finish (s : UdpSocket) : UdpSocket :=
  if !s.closing && !s.recvq.isEmpty then
    { s with finishers := s.finishers - 1, starters := s.starters + 1 }
  else { s with finishers := s.finishers - 1, receiveInflight := false }

/-- The section of `close`. -/
def close (s : UdpSocket) : UdpSocket :=
  if s.closing then s
  else { s with closing := true, swapped := s.swapped ++ s.recvq, recvq := [] }

/-- What runs: the section of a call, of `start_receive`, of the socket handler and of
`close`, the end of an `async_connect`, and between sections a receive that is handed
to the socket and one that `close` completes. -/
inductive Event where
  | asyncReceive
  | asyncReceiveFrom
  | startReceive
  | handedOver (i : Nat)
  | received (i : Nat) (result : SocketResult)
  | finish
  | close
  | completeCanceled
  | connected

/-- One event; `none` where it cannot happen. -/
def step (s : UdpSocket) : Event → Option UdpSocket
  | .asyncReceive =>
      some ({ s with submitted := s.submitted + 1 }.asyncReceive ⟨s.submitted, .connected⟩)
  | .asyncReceiveFrom =>
      some ({ s with submitted := s.submitted + 1 }.asyncReceiveFrom ⟨s.submitted, .fromPeer⟩)
  | .startReceive => if s.starters = 0 then none else some s.startReceive
  | .handedOver i =>
      match s.popped[i]? with
      | none => none
      | some op =>
          some { s with popped := s.popped.eraseIdx i, outstanding := op :: s.outstanding }
  | .received i result =>
      match s.outstanding[i]? with
      | none => none
      | some op =>
          some ({ s with outstanding := s.outstanding.eraseIdx i }.received op result)
  | .finish => if s.finishers = 0 then none else some s.finish
  | .close => some s.close
  | .completeCanceled =>
      match s.swapped with
      | [] => none
      | op :: swapped => some ({ s with swapped := swapped }.reject op .udpClosed)
  | .connected => some { s with connected := true }

/-- A socket from its bind on. -/
def machine : Machine UdpSocket Event where
  start := {}
  step := step

end UdpSocket

end Ekizu.Net
