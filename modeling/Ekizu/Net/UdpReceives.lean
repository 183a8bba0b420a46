import Ekizu.Lib.Custody
import Ekizu.Net.UdpSocket
import Mathlib.Data.List.Forall2

/-!
# Receives of a UDP socket

The flag in flight is a token: a thread that is about to enter `start_receive`, a
receive on its way to the socket, one that the socket has, or a socket handler
before its last section.  So there is one at a time, and a queue without a token
belongs to a closed socket.

## Main results

* `orderly` — the invariant of every run.
* `step_delivered` — which datagram a step delivers, and to which receive.
* `closes` — what is completed after `close`.
* `receives` — every receive is completed once, and the datagrams go to the receives
  in the order in which these were queued.
-/

namespace Ekizu.Net.UdpSocket

open Lib.Custody Lib.Runs

variable {s s' : UdpSocket} {e : Event}

/-- The numbers of receives. -/
def ids (ops : List PendingOp) : List Nat := ops.map (·.id)

/-- The receives whose handlers were not completed. -/
def pendingIds (s : UdpSocket) : List Nat :=
  ids s.recvq ++ (ids s.popped ++ (ids s.outstanding ++ ids s.swapped))

/-- The receives whose handlers were completed. -/
def completedIds (s : UdpSocket) : List Nat := ids (s.results.map (·.1))

/-- The holders of the token. -/
def tokens (s : UdpSocket) : Nat :=
  s.starters + s.popped.length + s.outstanding.length + s.finishers

/-- A completion with a datagram. -/
def isDelivery (x : PendingOp × ReceiveResult) : Bool :=
  match x.2 with
  | .error _ => false
  | _ => true

@[simp] theorem isDelivery_error (op : PendingOp) (e : Error) :
    isDelivery (op, .error e) = false := rfl

@[simp] theorem isDelivery_form (op : PendingOp) (kind : Kind) (d : Datagram) :
    isDelivery (op, kind.form d) = true := by
  cases kind with
  | connected => rfl
  | fromPeer => rfl

/-- The completions with datagrams, the first one first. -/
def delivered (s : UdpSocket) : List (PendingOp × ReceiveResult) :=
  (s.results.filter isDelivery).reverse

/-- The receives that got a datagram, in the order of that. -/
def served (s : UdpSocket) : List PendingOp := s.delivered.map (·.1)

/-! ## What a step does -/

/-- The section of an event, and when it is due. -/
inductive Ran (s : UdpSocket) : Event → UdpSocket → Prop
  | asyncReceive :
      Ran s .asyncReceive
        ({ s with submitted := s.submitted + 1 }.asyncReceive ⟨s.submitted, .connected⟩)
  | asyncReceiveFrom :
      Ran s .asyncReceiveFrom
        ({ s with submitted := s.submitted + 1 }.asyncReceiveFrom ⟨s.submitted, .fromPeer⟩)
  | startReceive (hstarters : s.starters ≠ 0) : Ran s .startReceive s.startReceive
  | handedOver {i : Nat} {op : PendingOp} (hop : s.popped[i]? = some op) :
      Ran s (.handedOver i)
        { s with popped := s.popped.eraseIdx i, outstanding := op :: s.outstanding }
  | received {i : Nat} {op : PendingOp} {result : SocketResult}
      (hop : s.outstanding[i]? = some op) :
      Ran s (.received i result)
        ({ s with outstanding := s.outstanding.eraseIdx i }.received op result)
  | finish (hfinishers : s.finishers ≠ 0) : Ran s .finish s.finish
  | close : Ran s .close s.close
  | completeCanceled {op : PendingOp} {swapped : List PendingOp}
      (hswapped : s.swapped = op :: swapped) :
      Ran s .completeCanceled ({ s with swapped := swapped }.reject op .udpClosed)
  | connected : Ran s .connected { s with connected := true }

theorem step_ran (hstep : s.step e = some s') : Ran s e s' := by
  cases e with
  | asyncReceive =>
      obtain rfl := Option.some.inj hstep
      exact .asyncReceive
  | asyncReceiveFrom =>
      obtain rfl := Option.some.inj hstep
      exact .asyncReceiveFrom
  | startReceive =>
      simp only [UdpSocket.step] at hstep
      split at hstep
      · simp at hstep
      · next hstarters =>
          obtain rfl := Option.some.inj hstep
          exact .startReceive hstarters
  | handedOver i =>
      simp only [UdpSocket.step] at hstep
      split at hstep
      · simp at hstep
      · next hop =>
          obtain rfl := Option.some.inj hstep
          exact .handedOver hop
  | received i result =>
      simp only [UdpSocket.step] at hstep
      split at hstep
      · simp at hstep
      · next hop =>
          obtain rfl := Option.some.inj hstep
          exact .received hop
  | finish =>
      simp only [UdpSocket.step] at hstep
      split at hstep
      · simp at hstep
      · next hfinishers =>
          obtain rfl := Option.some.inj hstep
          exact .finish hfinishers
  | close =>
      obtain rfl := Option.some.inj hstep
      exact .close
  | completeCanceled =>
      simp only [UdpSocket.step] at hstep
      split at hstep
      · simp at hstep
      · next hswapped =>
          obtain rfl := Option.some.inj hstep
          exact .completeCanceled hswapped
  | connected =>
      obtain rfl := Option.some.inj hstep
      exact .connected

/-! ## The invariant -/

/-- Every receive is in one place; the datagrams and what is left follow the order in
which the receives were queued; the flag counts the tokens, and an open socket has no
queue without a token, a closed one none at all. -/
structure Orderly (s : UdpSocket) : Prop where
  custody : Holds s.submitted (s.pendingIds ++ s.completedIds)
  order : (s.served ++ (s.outstanding ++ (s.popped ++ s.recvq))).Sublist s.queued
  ascending : (ids s.queued).Pairwise (· < ·)
  issued : ∀ op ∈ s.queued, op.id < s.submitted
  tokens : s.tokens = if s.receiveInflight then 1 else 0
  idle : s.receiveInflight = false → s.recvq = []
  closed : s.closing = true → s.recvq = []

/-- There is one token at most. -/
theorem Orderly.tokens_le (h : Orderly s) : s.tokens ≤ 1 := by
  rw [h.tokens]
  split
  · exact Nat.le_refl 1
  · exact Nat.zero_le 1

/-- The flag is up while there is a token. -/
theorem Orderly.inflight (h : Orderly s) (htokens : s.tokens ≠ 0) : s.receiveInflight = true := by
  have hcount := h.tokens
  by_contra hidle
  rw [if_neg hidle] at hcount
  exact htokens hcount

/-- Where one thread has the token, no other has. -/
theorem Orderly.starting (h : Orderly s) (hstarters : s.starters ≠ 0) :
    s.starters = 1 ∧ s.popped = [] ∧ s.outstanding = [] ∧ s.finishers = 0 := by
  have htokens := h.tokens_le
  unfold UdpSocket.tokens at htokens
  exact ⟨by omega, List.eq_nil_of_length_eq_zero (by omega),
    List.eq_nil_of_length_eq_zero (by omega), by omega⟩

theorem Orderly.handing {op : PendingOp} {i : Nat} (h : Orderly s) (hop : s.popped[i]? = some op) :
    s.popped = [op] ∧ s.popped.eraseIdx i = [] ∧ s.starters = 0 ∧ s.outstanding = [] ∧
      s.finishers = 0 := by
  have htokens := h.tokens_le
  unfold UdpSocket.tokens at htokens
  obtain ⟨hpopped, herased⟩ := eq_singleton_of_getElem? (by omega) hop
  rw [hpopped, List.length_singleton] at htokens
  exact ⟨hpopped, herased, by omega, List.eq_nil_of_length_eq_zero (by omega), by omega⟩

theorem Orderly.receiving {op : PendingOp} {i : Nat} (h : Orderly s)
    (hop : s.outstanding[i]? = some op) :
    s.outstanding = [op] ∧ s.outstanding.eraseIdx i = [] ∧ s.starters = 0 ∧ s.popped = [] ∧
      s.finishers = 0 := by
  have htokens := h.tokens_le
  unfold UdpSocket.tokens at htokens
  obtain ⟨houtstanding, herased⟩ := eq_singleton_of_getElem? (by omega) hop
  rw [houtstanding, List.length_singleton] at htokens
  exact ⟨houtstanding, herased, by omega, List.eq_nil_of_length_eq_zero (by omega), by omega⟩

theorem Orderly.finishing (h : Orderly s) (hfinishers : s.finishers ≠ 0) :
    s.finishers = 1 ∧ s.popped = [] ∧ s.outstanding = [] ∧ s.starters = 0 := by
  have htokens := h.tokens_le
  unfold UdpSocket.tokens at htokens
  exact ⟨by omega, List.eq_nil_of_length_eq_zero (by omega),
    List.eq_nil_of_length_eq_zero (by omega), by omega⟩

/-! ## One step -/

/-- A receive is turned away. -/
theorem Orderly.reject (h : Orderly s) (kind : Kind) (e : Error) :
    Orderly ({ s with submitted := s.submitted + 1 }.reject ⟨s.submitted, kind⟩ e) := by
  refine ⟨h.custody.issue ?_, ?_, h.ascending, ?_, h.tokens, h.idle, h.closed⟩
  · intro n
    simp only [pendingIds, completedIds, ids, UdpSocket.reject, List.map_cons,
      List.count_append, List.count_cons, beq_iff_eq, eq_comm (a := n)]
    omega
  · simpa [served, delivered, UdpSocket.reject] using h.order
  · intro op hop
    exact Nat.lt_succ_of_lt (h.issued op hop)

/-- **A receive joins the queue**, and starts where there is no token. -/
theorem Orderly.push (h : Orderly s) (hopen : s.closing = false) (kind : Kind) :
    Orderly ({ s with submitted := s.submitted + 1 }.push ⟨s.submitted, kind⟩) := by
  have hcustody : ∀ n,
      List.count n (ids (s.recvq ++ [⟨s.submitted, kind⟩]) ++
          (ids s.popped ++ (ids s.outstanding ++ ids s.swapped)) ++ s.completedIds) =
        List.count n (s.pendingIds ++ s.completedIds) + if n = s.submitted then 1 else 0 := by
    intro n
    simp only [pendingIds, ids, List.map_append, List.map_cons, List.map_nil, List.count_append,
      List.count_singleton, beq_iff_eq, eq_comm (a := n)]
    omega
  have horder : ∀ op : PendingOp,
      (s.served ++ (s.outstanding ++ (s.popped ++ (s.recvq ++ [op])))).Sublist
        (s.queued ++ [op]) := by
    intro op
    have hmore := h.order.append (List.Sublist.refl [op])
    simpa only [List.append_assoc] using hmore
  have hascending : (ids (s.queued ++ [⟨s.submitted, kind⟩])).Pairwise (· < ·) := by
    have hids : ids (s.queued ++ [⟨s.submitted, kind⟩]) = ids s.queued ++ [s.submitted] := by
      simp [ids]
    rw [hids]
    refine pairwise_snoc h.ascending ?_
    intro n hn
    obtain ⟨op, hop, rfl⟩ := List.mem_map.mp hn
    exact h.issued op hop
  have hissued : ∀ op ∈ s.queued ++ [⟨s.submitted, kind⟩], op.id < s.submitted + 1 := by
    intro op hop
    rcases List.mem_append.mp hop with hold | hnew
    · exact Nat.lt_succ_of_lt (h.issued op hold)
    · rw [List.mem_singleton.mp hnew]
      exact Nat.lt_succ_self _
  have hclosed : s.closing = true → s.recvq ++ [⟨s.submitted, kind⟩] = [] := by
    intro hclosing
    rw [hopen] at hclosing
    cases hclosing
  unfold UdpSocket.push
  by_cases hinflight : s.receiveInflight = true
  · rw [if_pos hinflight]
    refine ⟨h.custody.issue hcustody, horder _, hascending, hissued, h.tokens, ?_, hclosed⟩
    intro hidle
    simp [hinflight] at hidle
  · rw [if_neg hinflight]
    refine ⟨h.custody.issue hcustody, horder _, hascending, hissued, ?_, by simp, hclosed⟩
    have htokens := h.tokens
    rw [if_neg hinflight, UdpSocket.tokens] at htokens
    show s.starters + 1 + s.popped.length + s.outstanding.length + s.finishers = 1
    omega

theorem Orderly.asyncReceive (h : Orderly s) :
    Orderly ({ s with submitted := s.submitted + 1 }.asyncReceive ⟨s.submitted, .connected⟩) := by
  unfold UdpSocket.asyncReceive
  by_cases hclosing : s.closing = true
  · rw [if_pos hclosing]
    exact h.reject _ _
  · rw [if_neg hclosing]
    split
    · exact h.push (by simpa using hclosing) _
    · exact h.reject _ _

theorem Orderly.asyncReceiveFrom (h : Orderly s) :
    Orderly
      ({ s with submitted := s.submitted + 1 }.asyncReceiveFrom ⟨s.submitted, .fromPeer⟩) := by
  unfold UdpSocket.asyncReceiveFrom
  by_cases hclosing : s.closing = true
  · rw [if_pos hclosing]
    exact h.reject _ _
  · rw [if_neg hclosing]
    exact h.push (by simpa using hclosing) _

theorem startReceive_cases (s : UdpSocket) :
    ((s.closing = true ∨ s.recvq = []) ∧
        s.startReceive = { s with starters := s.starters - 1, receiveInflight := false }) ∨
      ∃ op recvq, s.closing = false ∧ s.recvq = op :: recvq ∧
        s.startReceive =
          { s with starters := s.starters - 1, recvq := recvq, popped := op :: s.popped } := by
  unfold UdpSocket.startReceive
  by_cases hclosing : s.closing = true
  · rw [if_pos hclosing]
    exact .inl ⟨.inl hclosing, rfl⟩
  · rw [if_neg hclosing]
    split
    · next hrecvq => exact .inl ⟨.inr hrecvq, rfl⟩
    · next op recvq hrecvq => exact .inr ⟨op, recvq, by simpa using hclosing, hrecvq, rfl⟩

/-- **The next receive starts**, or the token is given back. -/
theorem Orderly.startReceive (h : Orderly s) (hstarters : s.starters ≠ 0) :
    Orderly s.startReceive := by
  obtain ⟨hone, hpopped, houtstanding, hfinishers⟩ := h.starting hstarters
  rcases startReceive_cases s with ⟨hnone, heq⟩ | ⟨op, recvq, hopen, hrecvq, heq⟩
  · have hempty : s.recvq = [] := by
      rcases hnone with hclosing | hempty
      · exact h.closed hclosing
      · exact hempty
    rw [heq]
    refine ⟨h.custody, h.order, h.ascending, h.issued, ?_, fun _ => hempty, h.closed⟩
    simp [UdpSocket.tokens, hone, hpopped, houtstanding, hfinishers]
  · have hinflight := h.inflight (by unfold UdpSocket.tokens; omega)
    have horder := h.order
    rw [hrecvq] at horder
    rw [heq]
    refine ⟨h.custody.move ?_, ?_, h.ascending, h.issued, ?_, ?_, ?_⟩
    · intro n
      simp only [pendingIds, completedIds, ids, hrecvq, List.map_cons, List.count_append,
        List.count_cons]
      omega
    · simpa [served, delivered, hpopped, houtstanding] using horder
    · simp [UdpSocket.tokens, hone, hpopped, houtstanding, hfinishers, hinflight]
    · intro hidle
      simp [hinflight] at hidle
    · intro hclosing
      simp [hopen] at hclosing

/-- A receive is handed to the socket. -/
theorem Orderly.handedOver {op : PendingOp} {i : Nat} (h : Orderly s)
    (hop : s.popped[i]? = some op) :
    Orderly { s with popped := s.popped.eraseIdx i, outstanding := op :: s.outstanding } := by
  obtain ⟨hpopped, herased, hstarters, houtstanding, hfinishers⟩ := h.handing hop
  have hinflight := h.inflight (by simp [UdpSocket.tokens, hpopped])
  have horder := h.order
  rw [herased]
  refine ⟨h.custody.move ?_, ?_, h.ascending, h.issued, ?_, h.idle, h.closed⟩
  · intro n
    simp only [pendingIds, completedIds, ids, hpopped, houtstanding, List.map_cons,
      List.map_nil, List.count_append, List.count_nil]
    omega
  · simpa [served, delivered, hpopped, houtstanding] using horder
  · simp [UdpSocket.tokens, hstarters, houtstanding, hfinishers, hinflight]

/-- **The socket completes a receive.** -/
theorem Orderly.received {op : PendingOp} {i : Nat} (h : Orderly s)
    (hop : s.outstanding[i]? = some op) (result : SocketResult) :
    Orderly ({ s with outstanding := s.outstanding.eraseIdx i }.received op result) := by
  obtain ⟨houtstanding, herased, hstarters, hpopped, hfinishers⟩ := h.receiving hop
  have hinflight := h.inflight (by simp [UdpSocket.tokens, houtstanding])
  have hcustody : ∀ (x : ReceiveResult) (n : Nat),
      List.count n (ids s.recvq ++ (ids s.popped ++ (ids [] ++ ids s.swapped)) ++
          ids (((op, x) :: s.results).map (·.1))) =
        List.count n (s.pendingIds ++ s.completedIds) := by
    intro x n
    simp only [pendingIds, completedIds, ids, houtstanding, List.map_cons, List.map_nil,
      List.count_append, List.count_cons, List.count_nil]
    omega
  have htokens : s.starters + s.popped.length + ([] : List PendingOp).length + (s.finishers + 1) =
      if s.receiveInflight then 1 else 0 := by
    simp [hstarters, hpopped, hfinishers, hinflight]
  have horder := h.order
  rw [houtstanding, hpopped] at horder
  rw [herased]
  unfold UdpSocket.received
  cases result with
  | error e =>
      refine ⟨h.custody.move (hcustody _), ?_, h.ascending, h.issued, htokens, h.idle, h.closed⟩
      simp only [served, delivered, isDelivery_error, hpopped, List.filter_cons] at horder ⊢
      exact ((List.sublist_cons_self op _).append_left _).trans horder
  | datagram d =>
      refine ⟨h.custody.move (hcustody _), ?_, h.ascending, h.issued, htokens, h.idle, h.closed⟩
      simpa [served, delivered, hpopped] using horder

/-- **The handler goes on to the next receive**, or gives the token back. -/
theorem Orderly.finish (h : Orderly s) (hfinishers : s.finishers ≠ 0) : Orderly s.finish := by
  obtain ⟨hone, hpopped, houtstanding, hstarters⟩ := h.finishing hfinishers
  unfold UdpSocket.finish
  by_cases hnext : (!s.closing && !s.recvq.isEmpty) = true
  · rw [if_pos hnext]
    refine ⟨h.custody, h.order, h.ascending, h.issued, ?_, h.idle, h.closed⟩
    have htokens := h.tokens
    simp only [UdpSocket.tokens] at htokens ⊢
    omega
  · rw [if_neg hnext]
    refine ⟨h.custody, h.order, h.ascending, h.issued, ?_, ?_, h.closed⟩
    · simp [UdpSocket.tokens, hone, hpopped, houtstanding, hstarters]
    · intro _
      by_cases hclosing : s.closing = true
      · exact h.closed hclosing
      · simpa [hclosing] using hnext

/-- **The queue is closed.** -/
theorem Orderly.close (h : Orderly s) : Orderly s.close := by
  unfold UdpSocket.close
  by_cases hclosing : s.closing = true
  · rw [if_pos hclosing]
    exact h
  · rw [if_neg hclosing]
    refine ⟨h.custody.move ?_, ?_, h.ascending, h.issued, h.tokens, fun _ => rfl, fun _ => rfl⟩
    · intro n
      simp only [pendingIds, completedIds, ids, List.map_append, List.map_nil, List.count_append,
        List.count_nil]
      omega
    · refine List.Sublist.trans ?_ h.order
      simp only [served, delivered, List.append_nil]
      exact ((List.sublist_append_left _ _).append_left _).append_left _

/-- What `close` took is completed. -/
theorem Orderly.completeCanceled {op : PendingOp} {swapped : List PendingOp} (h : Orderly s)
    (hswapped : s.swapped = op :: swapped) :
    Orderly ({ s with swapped := swapped }.reject op .udpClosed) := by
  refine ⟨h.custody.move ?_, ?_, h.ascending, h.issued, h.tokens, h.idle, h.closed⟩
  · intro n
    simp only [pendingIds, completedIds, ids, UdpSocket.reject, hswapped, List.map_cons,
      List.count_append, List.count_cons]
    omega
  · simpa [served, delivered, UdpSocket.reject] using h.order

/-- **The invariant along a step.** -/
theorem Orderly.step (h : Orderly s) (hstep : s.step e = some s') : Orderly s' := by
  cases step_ran hstep with
  | asyncReceive => exact h.asyncReceive
  | asyncReceiveFrom => exact h.asyncReceiveFrom
  | startReceive hstarters => exact h.startReceive hstarters
  | handedOver hop => exact h.handedOver hop
  | received hop => exact h.received hop _
  | finish hfinishers => exact h.finish hfinishers
  | close => exact h.close
  | completeCanceled hswapped => exact h.completeCanceled hswapped
  | connected =>
      exact ⟨h.custody, h.order, h.ascending, h.issued, h.tokens, h.idle, h.closed⟩

/-- **The invariant** of every run. -/
theorem orderly (h : machine.Reachable s) : Orderly s := by
  refine h.invariant ?_ fun hs hstep => hs.step hstep
  exact ⟨Holds.start, List.Sublist.refl _, List.Pairwise.nil, by simp [machine], rfl,
    fun _ => rfl, fun _ => rfl⟩

/-! ## What is completed -/

/-- The datagram that the socket brings. -/
def Event.datagram? : Event → Option Datagram
  | .received _ (.datagram d) => some d
  | _ => none

/-- The step completes a receive: one that the socket has, one that `close` took or one
that is submitted. -/
inductive Completes (s : UdpSocket) : Event → PendingOp × ReceiveResult → Prop
  | datagram {i : Nat} {op : PendingOp} {d : Datagram} :
      s.outstanding[i]? = some op → Completes s (.received i (.datagram d)) (op, op.kind.form d)
  | failed {i : Nat} {op : PendingOp} {err : Error} :
      s.outstanding[i]? = some op → Completes s (.received i (.error err))
        (op, .error (if s.closing then .udpClosed else err))
  | canceled {op : PendingOp} :
      op ∈ s.swapped → Completes s .completeCanceled (op, .error .udpClosed)
  | rejected {e : Event} {op : PendingOp} {err : Error} :
      e.datagram? = none → op.id = s.submitted → (s.closing = true → err = .udpClosed) →
        Completes s e (op, .error err)

/-- **What a step completes.** -/
theorem step_results (hstep : s.step e = some s') :
    (e.datagram? = none ∧ s'.results = s.results) ∨
      ∃ x, Completes s e x ∧ s'.results = x :: s.results := by
  cases step_ran hstep with
  | asyncReceive =>
      simp only [asyncReceive, push, reject]
      split
      · exact .inr ⟨_, .rejected rfl rfl fun _ => rfl, rfl⟩
      · next hopen =>
          split
          · split
            · exact .inl ⟨rfl, rfl⟩
            · exact .inl ⟨rfl, rfl⟩
          · exact .inr ⟨_, .rejected rfl rfl fun hclosing => absurd hclosing hopen, rfl⟩
  | asyncReceiveFrom =>
      simp only [asyncReceiveFrom, push, reject]
      split
      · exact .inr ⟨_, .rejected rfl rfl fun _ => rfl, rfl⟩
      · split
        · exact .inl ⟨rfl, rfl⟩
        · exact .inl ⟨rfl, rfl⟩
  | startReceive =>
      left
      rcases startReceive_cases s with ⟨-, heq⟩ | ⟨op, recvq, -, -, heq⟩
      · exact ⟨rfl, by rw [heq]⟩
      · exact ⟨rfl, by rw [heq]⟩
  | handedOver => exact .inl ⟨rfl, rfl⟩
  | @received i op result hop =>
      cases result with
      | error err => exact .inr ⟨_, .failed hop, rfl⟩
      | datagram d => exact .inr ⟨_, .datagram hop, rfl⟩
  | finish =>
      left
      simp only [UdpSocket.finish]
      split
      · exact ⟨rfl, rfl⟩
      · exact ⟨rfl, rfl⟩
  | close =>
      left
      simp only [UdpSocket.close]
      split
      · exact ⟨rfl, rfl⟩
      · exact ⟨rfl, rfl⟩
  | completeCanceled hswapped => exact .inr ⟨_, .canceled (by simp [hswapped]), rfl⟩
  | connected => exact .inl ⟨rfl, rfl⟩

/-- **Which datagram a step delivers**, and in what form. -/
theorem step_delivered (hstep : s.step e = some s') :
    (e.datagram? = none ∧ s'.delivered = s.delivered) ∨
      ∃ d op, e.datagram? = some d ∧ s'.delivered = s.delivered ++ [(op, op.kind.form d)] := by
  rcases step_results hstep with ⟨hnone, hresults⟩ | ⟨x, hcompletes, hresults⟩
  · exact .inl ⟨hnone, by rw [delivered, delivered, hresults]⟩
  · unfold delivered
    rw [hresults]
    cases hcompletes with
    | @datagram i op d hop => exact .inr ⟨d, op, rfl, by simp⟩
    | failed hop => exact .inl ⟨rfl, by simp⟩
    | canceled hop => exact .inl ⟨rfl, by simp⟩
    | rejected hnone hid herr => exact .inl ⟨hnone, by simp⟩

/-! ## Runs -/

/-- The datagrams that were taken from the socket, in that order. -/
def datagrams (trace : List (Taken UdpSocket Event)) : List Datagram :=
  (trace.filterMap (·.event.datagram?)).reverse

/-- **The k-th datagram goes to the k-th receive that is served**, in the form that it
asked for. -/
theorem delivered_datagrams {trace : List (Taken UdpSocket Event)} (hrun : machine.Run trace s) :
    List.Forall₂ (fun x d => x.2 = x.1.kind.form d) s.delivered (datagrams trace) := by
  induction hrun with
  | start => exact .nil
  | @step trace s s' e hrun hstep ih =>
      unfold datagrams at ih ⊢
      rcases step_delivered hstep with ⟨hnone, hsame⟩ | ⟨d, op, hd, hmore⟩
      · rw [hsame]
        simpa [hnone] using ih
      · rw [hmore]
        simp only [List.filterMap_cons, hd, List.reverse_cons]
        exact List.rel_append ih (.cons rfl .nil)

/-- A closed socket takes no receive from its queue. -/
theorem closing_step (hclosing : s.closing = true) (hstep : s.step e = some s') :
    s'.closing = true ∧
      ∀ op ∈ s'.popped ++ s'.outstanding, op ∈ s.popped ++ s.outstanding := by
  cases step_ran hstep with
  | asyncReceive =>
      simp only [asyncReceive, reject, if_pos hclosing]
      exact ⟨hclosing, fun _ hop => hop⟩
  | asyncReceiveFrom =>
      simp only [asyncReceiveFrom, reject, if_pos hclosing]
      exact ⟨hclosing, fun _ hop => hop⟩
  | startReceive =>
      rw [UdpSocket.startReceive, if_pos hclosing]
      exact ⟨hclosing, fun _ hop => hop⟩
  | handedOver hop =>
      refine ⟨hclosing, ?_⟩
      intro op' hop'
      simp only [List.mem_append, List.mem_cons] at hop' ⊢
      rcases hop' with hpopped | rfl | houtstanding
      · exact .inl (List.mem_of_mem_eraseIdx hpopped)
      · exact .inl (List.mem_of_getElem? hop)
      · exact .inr houtstanding
  | @received i op result hop =>
      have hleft : ∀ op' ∈ s.popped ++ s.outstanding.eraseIdx i,
          op' ∈ s.popped ++ s.outstanding := by
        intro op' hop'
        simp only [List.mem_append] at hop' ⊢
        exact hop'.imp_right List.mem_of_mem_eraseIdx
      cases result with
      | error err => exact ⟨hclosing, hleft⟩
      | datagram d => exact ⟨hclosing, hleft⟩
  | finish =>
      simp only [UdpSocket.finish]
      split
      · exact ⟨hclosing, fun _ hop => hop⟩
      · exact ⟨hclosing, fun _ hop => hop⟩
  | close =>
      simp only [UdpSocket.close, if_pos hclosing]
      exact ⟨hclosing, fun _ hop => hop⟩
  | completeCanceled => exact ⟨hclosing, fun _ hop => hop⟩
  | connected => exact ⟨hclosing, fun _ hop => hop⟩

/-- Of the receives that were queued when the socket was closed, and of those submitted
since, none has a way to the socket, and those completed found it closed. -/
structure Closes (before : UdpSocket) (s : UdpSocket) : Prop where
  closing : s.closing = true
  away : ∀ op ∈ s.popped ++ s.outstanding, op ∉ before.recvq ∧ op.id < before.submitted
  closed : ∀ x ∈ s.results, x.1 ∈ before.recvq ∨ before.submitted ≤ x.1.id →
    x.2 = .error .udpClosed

theorem Closes.step {before : UdpSocket} (h : Closes before s) (hstep : s.step e = some s') :
    Closes before s' := by
  obtain ⟨hclosing, hleft⟩ := closing_step h.closing hstep
  refine ⟨hclosing, fun op hop => h.away op (hleft op hop), ?_⟩
  rcases step_results hstep with ⟨-, hsame⟩ | ⟨y, hcompletes, hmore⟩
  · rw [hsame]
    exact h.closed
  · rw [hmore]
    intro x hx hlate
    rcases List.mem_cons.mp hx with rfl | hold
    · cases hcompletes with
      | datagram hop =>
          obtain ⟨hqueued, hbefore⟩ :=
            h.away _ (List.mem_append_right _ (List.mem_of_getElem? hop))
          rcases hlate with hin | hlater
          · exact absurd hin hqueued
          · exact absurd hbefore (Nat.not_lt.mpr hlater)
      | failed hop => rw [if_pos h.closing]
      | canceled hop => rfl
      | rejected hnone hid herr => rw [herr h.closing]
    · exact h.closed x hold hlate

/-- Where `close` runs. -/
theorem Orderly.closes (h : Orderly s) : Closes s s.close := by
  have hnodup := h.custody.nodup
  have happart : ∀ id ∈ ids s.recvq,
      id ∉ ids (s.popped ++ s.outstanding) ∧ id ∉ s.completedIds := by
    intro id hid
    have hone := h.custody.once (h.custody.mem_iff.mp
      (List.mem_append_left _ (List.mem_append_left _ hid)))
    have hpositive := List.count_pos_iff.mpr hid
    simp only [pendingIds, List.count_append] at hone
    constructor
    · intro hmem
      have hmore := List.count_pos_iff.mpr hmem
      simp only [ids, List.map_append, List.count_append] at hmore hpositive hone
      omega
    · intro hmem
      have hmore := List.count_pos_iff.mpr hmem
      omega
  have hresults : s.close.results = s.results := by
    unfold UdpSocket.close
    split
    · rfl
    · rfl
  have hsame : s.close.popped ++ s.close.outstanding = s.popped ++ s.outstanding := by
    unfold UdpSocket.close
    split
    · rfl
    · rfl
  refine ⟨?_, ?_, ?_⟩
  · unfold UdpSocket.close
    split
    · assumption
    · rfl
  · rw [hsame]
    intro op hop
    constructor
    · intro hqueued
      exact (happart op.id (List.mem_map_of_mem hqueued)).1 (List.mem_map_of_mem hop)
    · apply h.custody.mem_iff.mp
      have hid : op.id ∈ ids (s.popped ++ s.outstanding) := List.mem_map_of_mem hop
      simp only [ids, List.map_append, List.mem_append] at hid
      simp only [pendingIds, ids, List.mem_append]
      tauto
  · rw [hresults]
    intro x hx hlate
    have hid : x.1.id ∈ s.completedIds := List.mem_map_of_mem (List.mem_map_of_mem hx)
    rcases hlate with hqueued | hlater
    · exact absurd hid (happart x.1.id (List.mem_map_of_mem hqueued)).2
    · have hbefore := h.custody.mem_iff.mp (List.mem_append_right _ hid)
      exact absurd hbefore (Nat.not_lt.mpr hlater)

/-- **After `close`**, in a run. -/
theorem closes {trace : List (Taken UdpSocket Event)} (hrun : machine.Run trace s) :
    ∀ t ∈ trace, t.event = .close → Closes t.pre s := by
  induction hrun with
  | start => simp
  | @step trace s s' e hrun hstep ih =>
      intro t ht hclose
      rcases List.mem_cons.mp ht with rfl | ht
      · have hclose : e = .close := hclose
        subst hclose
        obtain rfl := Option.some.inj hstep
        exact (orderly ⟨_, hrun⟩).closes
      · exact (ih t ht hclose).step hstep

/-- No thread is between two sections of a call or of a socket handler. -/
def AtRest (s : UdpSocket) : Prop := s.starters = 0 ∧ s.popped = [] ∧ s.finishers = 0

/-- The socket serves its receives: each is completed at most once, and once where no
thread is between sections and the socket has none; the socket has one at a time; the
datagrams go to distinct receives, in the form that these asked for and in the order
in which they were queued, which is that of their submission; a queue of an open
socket has a receive at the socket, unless a thread is between sections; and what was
queued when `close` ran or came later completes with `udp_closed`. -/
structure Receives (trace : List (Taken UdpSocket Event)) (s : UdpSocket) : Prop where
  once : ∀ id < s.submitted, s.completedIds.count id + s.pendingIds.count id = 1
  settled : s.AtRest → s.outstanding = [] → s.swapped = [] →
    ∀ id < s.submitted, s.completedIds.count id = 1
  single : s.outstanding.length ≤ 1
  delivered : List.Forall₂ (fun x d => x.2 = x.1.kind.form d) s.delivered (datagrams trace)
  ordered : s.served.Sublist s.queued
  ascending : (ids s.queued).Pairwise (· < ·)
  active : s.closing = false → s.recvq ≠ [] → s.AtRest → s.outstanding ≠ []
  closed : ∀ t ∈ trace, t.event = .close →
    ∀ x ∈ s.results, x.1 ∈ t.pre.recvq ∨ t.pre.submitted ≤ x.1.id → x.2 = .error .udpClosed

/-- **The receives of a UDP socket** are served in every run. -/
theorem receives {trace : List (Taken UdpSocket Event)} (hrun : machine.Run trace s) :
    Receives trace s := by
  have h := orderly ⟨_, hrun⟩
  have hidle : s.AtRest → s.outstanding = [] → s.recvq = [] := by
    intro ⟨hstarters, hpopped, hfinishers⟩ houtstanding
    apply h.idle
    have htokens := h.tokens
    by_contra hinflight
    simp [UdpSocket.tokens, hstarters, hpopped, hfinishers, houtstanding, hinflight] at htokens
  refine
    { once := fun id hid => h.custody.once hid
      settled := ?_
      single := ?_
      delivered := delivered_datagrams hrun
      ordered := (List.sublist_append_left _ _).trans h.order
      ascending := h.ascending
      active := fun _ hqueue hrest houtstanding => hqueue (hidle hrest houtstanding)
      closed := fun t ht hclose => (closes hrun t ht hclose).closed }
  · intro hrest houtstanding hswapped id hid
    have hnone : s.pendingIds = [] := by
      simp [pendingIds, ids, hidle hrest houtstanding, hrest.2.1, houtstanding, hswapped]
    exact h.custody.settled hnone hid
  · have htokens := h.tokens_le
    unfold UdpSocket.tokens at htokens
    omega

/-- Two receives get a datagram, one finds the socket failed, and `close` takes one that
is queued while another is on its way to the socket. -/
theorem receives_closed :
    Receives
      (machine.recorded
        [.asyncReceive, .connected, .asyncReceive, .asyncReceiveFrom, .startReceive,
          .asyncReceiveFrom, .handedOver 0, .received 0 (.datagram ⟨[1], ⟨[127, 0, 0, 1], 9⟩⟩),
          .finish, .startReceive, .handedOver 0,
          .received 0 (.datagram ⟨[2], ⟨[127, 0, 0, 1], 9⟩⟩), .asyncReceive, .finish,
          .startReceive, .close, .handedOver 0, .received 0 (.error (.other 9)), .asyncReceive,
          .completeCanceled, .finish]).1
      (machine.recorded
        [.asyncReceive, .connected, .asyncReceive, .asyncReceiveFrom, .startReceive,
          .asyncReceiveFrom, .handedOver 0, .received 0 (.datagram ⟨[1], ⟨[127, 0, 0, 1], 9⟩⟩),
          .finish, .startReceive, .handedOver 0,
          .received 0 (.datagram ⟨[2], ⟨[127, 0, 0, 1], 9⟩⟩), .asyncReceive, .finish,
          .startReceive, .close, .handedOver 0, .received 0 (.error (.other 9)), .asyncReceive,
          .completeCanceled, .finish]).2 :=
  receives (machine.run_recorded _ (by decide +kernel))

end Ekizu.Net.UdpSocket
