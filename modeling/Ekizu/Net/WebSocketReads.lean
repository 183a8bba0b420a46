import Ekizu.Lib.Strand
import Ekizu.Net.WebSocket

/-!
# Reads of a websocket

One flag says that a stream read is outstanding.  A message goes to the read that
the strand took first among those that were neither completed nor cancelled.

## Main results

* `orderly` — the invariant of every run.
* `step_delivered` — which message a step delivers.
* `servesReads` — every read is completed once, and the messages go to the reads in
  the order in which the strand takes them.
* `servesReads_overtaken` — a read that is submitted on the strand gets its message
  before one submitted earlier.
-/

namespace Ekizu.Net

open Lib.Custody Lib.Runs Lib.Strand

/-- The read that a call submits. -/
def Call.read? : Call → Option Nat
  | read id => some id
  | _ => none

def readCalls (calls : List Call) : List Nat := calls.filterMap Call.read?

/-- The message of a result. -/
def ReadResult.message? : ReadResult → Option WebSocketMessage
  | message m => some m
  | error _ => none

namespace Reads

variable {r : Reads} {cancelled : Bool} {waiting : List Nat}

/-- The reads whose handlers were not completed. -/
def pendingIds (r : Reads) (waiting : List Nat) : List Nat := r.streamReads ++ (r.queue ++ waiting)

/-- The reads whose handlers were completed. -/
def completedIds (r : Reads) : List Nat := r.results.map (·.1)

/-- The messages among results, the first one first. -/
def deliveries (results : List (Nat × ReadResult)) : List (Nat × WebSocketMessage) :=
  results.reverse.filterMap fun x => x.2.message?.map fun m => (x.1, m)

/-- The reads that a message was delivered to, in the order of that. -/
def delivered (r : Reads) : List (Nat × WebSocketMessage) := deliveries r.results

def deliveredIds (r : Reads) : List Nat := r.delivered.map (·.1)

/-- Every read is in one place and the strand took it or has it waiting; the messages
and what is left follow the order of that; the flag is that of the stream read, and a
queue needs a stream read and a websocket that is not cancelled. -/
structure Orderly (cancelled : Bool) (waiting : List Nat) (r : Reads) : Prop where
  turn : InTurn r.submitted r.arrived waiting
  custody : Holds r.submitted (r.pendingIds waiting ++ r.completedIds)
  order : (r.deliveredIds ++ (r.streamReads ++ r.queue)).Sublist (takenIds r.arrived)
  flag : r.streamReads.length = if r.reading then 1 else 0
  idle : r.reading = false → r.queue = []
  stopped : cancelled = true → r.queue = []

/-- The same, where the flag is up and the next stream read has to start. -/
structure Ready (waiting : List Nat) (r : Reads) : Prop where
  turn : InTurn r.submitted r.arrived waiting
  custody : Holds r.submitted (r.pendingIds waiting ++ r.completedIds)
  order : (r.deliveredIds ++ r.queue).Sublist (takenIds r.arrived)
  busy : r.reading = true
  free : r.streamReads = []

/-! ## The handlers -/

/-- The results of reads that are cancelled, the last first. -/
def cancellations (ids : List Nat) : List (Nat × ReadResult) :=
  (ids.map fun id => (id, ReadResult.error .operationCanceled)).reverse

theorem startNextReadFrom_cancelled (queue : List Nat) :
    r.startNextReadFrom true queue =
      { r with
        queue := []
        reading := false
        results := cancellations queue ++ r.results } := by
  induction queue generalizing r with
  | nil => rfl
  | cons id queue ih =>
      rw [startNextReadFrom, if_pos rfl, ih]
      simp [cancellations]

/-- The next stream read starts, where there is a read for it. -/
theorem startNextRead_cases (cancelled : Bool) (r : Reads) :
    (r.startNextRead cancelled =
        { r with
          queue := []
          reading := false
          results := cancellations r.queue ++ r.results }) ∨
      ∃ id queue, cancelled = false ∧ r.queue = id :: queue ∧
        r.startNextRead cancelled =
          { r with queue := queue, streamReads := id :: r.streamReads } := by
  unfold startNextRead
  cases cancelled with
  | true => exact .inl (startNextReadFrom_cancelled r.queue)
  | false =>
      cases hqueue : r.queue with
      | nil => exact .inl rfl
      | cons id queue => exact .inr ⟨id, queue, rfl, rfl, rfl⟩

/-- Cancellations complete their reads. -/
theorem completedIds_cancellations (n : Nat) (ids : List Nat) :
    ((cancellations ids).map (·.1)).count n = ids.count n := by
  simp [cancellations, Function.comp_def]

/-- Cancellations deliver nothing. -/
@[simp] theorem deliveries_cancellations (ids : List Nat) (results : List (Nat × ReadResult)) :
    deliveries (cancellations ids ++ results) = deliveries results := by
  simp [deliveries, cancellations, ReadResult.message?, List.filterMap_map]

@[simp] theorem deliveries_error (id : Nat) (e : Error) (results : List (Nat × ReadResult)) :
    deliveries ((id, .error e) :: results) = deliveries results := by
  simp [deliveries, ReadResult.message?]

@[simp] theorem deliveries_message (id : Nat) (m : WebSocketMessage)
    (results : List (Nat × ReadResult)) :
    deliveries ((id, .message m) :: results) = deliveries results ++ [(id, m)] := by
  simp [deliveries, ReadResult.message?]

/-- **The next stream read.** -/
theorem Ready.startNextRead (h : Ready waiting r) :
    Orderly cancelled waiting (r.startNextRead cancelled) := by
  have horder := h.order
  rcases startNextRead_cases cancelled r with heq | ⟨id, queue, hcancelled, hqueue, heq⟩
  · rw [heq]
    refine ⟨h.turn, h.custody.move ?_, ?_, by simp [h.free], fun _ => rfl, fun _ => rfl⟩
    · intro n
      simp only [pendingIds, completedIds, List.count_append, List.map_append,
        completedIds_cancellations, List.count_nil]
      omega
    · simp only [deliveredIds, delivered, deliveries_cancellations, h.free, List.append_nil]
      exact (List.sublist_append_left _ _).trans horder
  · rw [heq]
    refine ⟨h.turn, h.custody.move ?_, ?_, by simp [h.free, h.busy], by simp [h.busy], ?_⟩
    · intro n
      simp only [pendingIds, completedIds, hqueue, h.free, List.count_append, List.count_cons,
        List.count_nil]
      omega
    · rw [hqueue] at horder
      simpa [deliveredIds, delivered, h.free] using horder
    · intro hstopped
      rw [hcancelled] at hstopped
      cases hstopped

/-- **A read is taken**: it is completed, or joins the queue. -/
theorem Orderly.asyncRead {id : Nat} {waited : Bool}
    (hturn : InTurn r.submitted (r.arrived ++ [(waited, id)]) waiting)
    (hcustody : Holds r.submitted (id :: (r.pendingIds waiting ++ r.completedIds)))
    (horder : (r.deliveredIds ++ (r.streamReads ++ r.queue)).Sublist (takenIds r.arrived))
    (hflag : r.streamReads.length = if r.reading then 1 else 0)
    (hidle : r.reading = false → r.queue = []) (hstopped : cancelled = true → r.queue = []) :
    Orderly cancelled waiting (r.asyncRead cancelled waited id) := by
  unfold Reads.asyncRead
  by_cases hcancelled : cancelled = true
  · rw [if_pos hcancelled]
    refine ⟨hturn, hcustody.move ?_, ?_, hflag, hidle, hstopped⟩
    · intro n
      simp only [pendingIds, completedIds, List.map_cons, List.count_append, List.count_cons]
      omega
    · rw [takenIds_append]
      simp only [deliveredIds, delivered, deliveries_error]
      exact horder.trans (List.sublist_append_left _ _)
  · rw [if_neg hcancelled]
    have hlonger : (r.deliveredIds ++ (r.streamReads ++ (r.queue ++ [id]))).Sublist
        (takenIds (r.arrived ++ [(waited, id)])) := by
      have hmore := horder.append (List.Sublist.refl [id])
      simpa using hmore
    have hmoved : ∀ n,
        ((r.streamReads ++ ((r.queue ++ [id]) ++ waiting)) ++ r.completedIds).count n =
          (id :: (r.pendingIds waiting ++ r.completedIds)).count n := by
      intro n
      simp only [pendingIds, List.count_append, List.count_cons, List.count_nil]
      omega
    by_cases hreading : r.reading = true
    · rw [if_pos hreading]
      refine ⟨hturn, hcustody.move hmoved, hlonger, hflag, ?_, fun h => absurd h hcancelled⟩
      intro hidle'
      simp [hreading] at hidle'
    · rw [if_neg hreading]
      rw [if_neg hreading] at hflag
      have hfree : r.streamReads = [] := List.eq_nil_of_length_eq_zero hflag
      rw [hfree] at hlonger
      exact Ready.startNextRead ⟨hturn, hcustody.move hmoved, hlonger, rfl, hfree⟩

/-- A read is submitted, and waits. -/
theorem Orderly.submit (h : r.Orderly cancelled waiting) :
    Orderly cancelled (waiting ++ [r.submitted]) { r with submitted := r.submitted + 1 } := by
  refine ⟨h.turn.submit, h.custody.issue ?_, h.order, h.flag, h.idle, h.stopped⟩
  intro n
  simp only [pendingIds, completedIds, List.count_append, List.count_singleton, beq_iff_eq,
    eq_comm (a := n)]
  omega

/-- A read is submitted, and taken at once. -/
theorem Orderly.inline (h : r.Orderly cancelled waiting) :
    Orderly cancelled waiting
      ({ r with submitted := r.submitted + 1 }.asyncRead cancelled false r.submitted) := by
  refine Orderly.asyncRead h.turn.inline (h.custody.issue ?_) h.order h.flag h.idle h.stopped
  intro n
  simp [pendingIds, completedIds, List.count_cons, eq_comm (a := n)]

/-- A read that waited is taken. -/
theorem Orderly.take {id : Nat} (h : r.Orderly cancelled (id :: waiting)) :
    Orderly cancelled waiting (r.asyncRead cancelled true id) := by
  refine Orderly.asyncRead h.turn.take (h.custody.move ?_) h.order h.flag h.idle h.stopped
  intro n
  simp only [pendingIds, completedIds, List.count_append, List.count_cons]
  omega

theorem Orderly.single (h : r.Orderly cancelled waiting) : r.streamReads.length ≤ 1 := by
  rw [h.flag]
  split
  · exact Nat.le_refl 1
  · exact Nat.zero_le 1

/-- A read that a stream read completes is the one outstanding. -/
theorem Orderly.outstanding {i id : Nat} (h : r.Orderly cancelled waiting)
    (hid : r.streamReads[i]? = some id) :
    r.streamReads = [id] ∧ r.streamReads.eraseIdx i = [] ∧ r.reading = true := by
  obtain ⟨hreads, herased⟩ := eq_singleton_of_getElem? h.single hid
  refine ⟨hreads, herased, ?_⟩
  have hflag := h.flag
  rw [hreads] at hflag
  by_contra hidle
  simp [hidle] at hflag

/-- **A stream read completes.** -/
theorem Orderly.readCompleted {i id : Nat} (h : r.Orderly cancelled waiting)
    (hid : r.streamReads[i]? = some id) (c : ReadCompletion) :
    Orderly cancelled waiting
      ({ r with streamReads := r.streamReads.eraseIdx i }.readCompleted cancelled id c) := by
  obtain ⟨hreads, herased, hreading⟩ := h.outstanding hid
  have horder := h.order
  rw [hreads] at horder
  rw [herased]
  unfold Reads.readCompleted
  have hmoved : ∀ (result : ReadResult) (n : Nat),
      (([] ++ (r.queue ++ waiting)) ++ (id :: r.completedIds)).count n =
        (r.pendingIds waiting ++ r.completedIds).count n := by
    intro result n
    simp only [pendingIds, hreads, List.count_append, List.count_cons, List.count_nil]
    omega
  cases hec : c.ec with
  | some e =>
      refine Ready.startNextRead ⟨h.turn, h.custody.move (hmoved (.error e)), ?_, hreading, rfl⟩
      simp only [deliveredIds, delivered, deliveries_error]
      exact (List.sublist_append_right [id] r.queue |>.append_left _).trans horder
  | none =>
      refine Ready.startNextRead
        ⟨h.turn, h.custody.move (hmoved (.message ⟨r.buffer ++ c.data, c.gotBinary⟩)), ?_,
          hreading, rfl⟩
      simpa [deliveredIds, delivered] using horder

/-- **The queue is cancelled.** -/
theorem Orderly.cancel (h : r.Orderly cancelled waiting) : Orderly true waiting r.cancel := by
  refine ⟨h.turn, h.custody.move ?_, ?_, h.flag, fun _ => rfl, fun _ => rfl⟩
  · intro n
    show List.count n (r.streamReads ++ ([] ++ waiting) ++
      List.map (fun x : Nat × ReadResult => x.1) (cancellations r.queue ++ r.results)) = _
    simp only [pendingIds, completedIds, List.count_append, List.map_append,
      completedIds_cancellations, List.count_nil]
    omega
  · show (List.map Prod.fst (deliveries (cancellations r.queue ++ r.results)) ++
      (r.streamReads ++ [])).Sublist (takenIds r.arrived)
    rw [deliveries_cancellations, List.append_nil]
    exact ((List.sublist_append_left _ _).append_left _).trans h.order

/-! ## What is delivered -/

/-- The messages that were delivered, in the order of that. -/
def payloads (r : Reads) : List WebSocketMessage := r.delivered.map (·.2)

/-- Neither a delivery nor a change of the buffer. -/
def Keeps (r r' : Reads) : Prop := r'.payloads = r.payloads ∧ r'.buffer = r.buffer

theorem keeps_startNextRead (cancelled : Bool) (r : Reads) :
    Keeps r (r.startNextRead cancelled) := by
  rcases startNextRead_cases cancelled r with heq | ⟨id, queue, -, -, heq⟩
  · rw [heq]
    refine ⟨?_, rfl⟩
    simp only [payloads, delivered, deliveries_cancellations]
  · rw [heq]
    exact ⟨rfl, rfl⟩

theorem keeps_asyncRead (cancelled : Bool) (r : Reads) (waited : Bool) (id : Nat) :
    Keeps r (r.asyncRead cancelled waited id) := by
  unfold Reads.asyncRead
  split
  · refine ⟨?_, rfl⟩
    simp only [payloads, delivered, deliveries_error]
  · split
    · exact ⟨rfl, rfl⟩
    · exact keeps_startNextRead cancelled _

theorem keeps_cancel (r : Reads) : Keeps r r.cancel := by
  refine ⟨?_, rfl⟩
  show List.map _ (deliveries (cancellations r.queue ++ r.results)) = _
  rw [deliveries_cancellations]
  rfl

end Reads

namespace WebSocketClient

variable {s s' : WebSocketClient} {e : Event}

/-- The invariant of the reads, with those that wait for the strand. -/
def ReadsOrderly (s : WebSocketClient) : Prop := s.reads.Orderly s.cancelled (readCalls s.calls)

/-! ## One step -/

theorem ReadsOrderly.run {c : Call} {calls : List Call} (h : s.ReadsOrderly)
    (hcalls : s.calls = c :: calls) : ReadsOrderly (({ s with calls := calls }).run true c) := by
  have hcalls' : readCalls s.calls = c.read?.toList ++ readCalls calls := by
    rw [hcalls]
    cases c with
    | read id => rfl
    | send o => rfl
    | cancel => rfl
  have h : s.reads.Orderly s.cancelled (c.read?.toList ++ readCalls calls) := hcalls' ▸ h
  cases c with
  | read id => exact Reads.Orderly.take h
  | send o => exact h
  | cancel => exact Reads.Orderly.cancel h

theorem readCalls_snoc (calls : List Call) (c : Call) :
    readCalls (calls ++ [c]) = readCalls calls ++ c.read?.toList := by
  cases c with
  | read id => simp [readCalls, Call.read?]
  | send o => simp [readCalls, Call.read?]
  | cancel => simp [readCalls, Call.read?]

/-- **The invariant along a step.** -/
theorem ReadsOrderly.step (h : s.ReadsOrderly) (hstep : s.step e = some s') : s'.ReadsOrderly := by
  cases step_ran hstep with
  | @asyncRead onStrand =>
      cases onStrand with
      | true => exact Reads.Orderly.inline h
      | false =>
          show Reads.Orderly s.cancelled (readCalls (s.calls ++ [.read s.reads.submitted])) _
          rw [readCalls_snoc]
          exact Reads.Orderly.submit h
  | @asyncSend onStrand =>
      cases onStrand with
      | true => exact h
      | false =>
          show Reads.Orderly s.cancelled (readCalls (s.calls ++ [.send _])) s.reads
          rw [readCalls_snoc]
          show Reads.Orderly s.cancelled (readCalls s.calls ++ []) s.reads
          rw [List.append_nil]
          exact h
  | @cancel onStrand =>
      cases onStrand with
      | true => exact Reads.Orderly.cancel h
      | false =>
          show Reads.Orderly s.cancelled (readCalls (s.calls ++ [.cancel])) s.reads
          rw [readCalls_snoc]
          show Reads.Orderly s.cancelled (readCalls s.calls ++ []) s.reads
          rw [List.append_nil]
          exact h
  | taken hcalls => exact h.run hcalls
  | readCompleted hid => exact Reads.Orderly.readCompleted h hid _
  | writeCompleted => exact h

/-- **The invariant** of every run. -/
theorem orderly (h : machine.Reachable s) : s.ReadsOrderly := by
  refine h.invariant ?_ fun hs hstep => hs.step hstep
  exact ⟨InTurn.start, Holds.start, List.Sublist.refl _, rfl, fun _ => rfl, fun _ => rfl⟩

/-- The message that a stream read brings. -/
def Event.message? : Event → Option WebSocketMessage
  | .readCompleted _ c => if c.ec = none then some ⟨c.data, c.gotBinary⟩ else none
  | _ => none

def Event.readFails : Event → Bool
  | .readCompleted _ c => c.ec.isSome
  | _ => false

/-- **What a step delivers**: the message of a stream read, behind what the buffer has. -/
theorem step_delivered (hstep : s.step e = some s') :
    s'.reads.payloads = s.reads.payloads ++
        (e.message?.map fun m => ⟨s.reads.buffer ++ m.payload, m.isBinary⟩).toList ∧
      (e.readFails = false → s.reads.buffer = [] → s'.reads.buffer = []) := by
  have hkeeps : ∀ {e : Event}, e.message? = none → s.reads.Keeps s'.reads →
      s'.reads.payloads = s.reads.payloads ++
          (e.message?.map fun m => ⟨s.reads.buffer ++ m.payload, m.isBinary⟩).toList ∧
        (e.readFails = false → s.reads.buffer = [] → s'.reads.buffer = []) := by
    intro e hnone h
    rw [hnone, h.1, h.2]
    exact ⟨by simp, fun _ hempty => hempty⟩
  cases step_ran hstep with
  | @asyncRead onStrand =>
      refine hkeeps rfl ?_
      cases onStrand with
      | true => exact Reads.keeps_asyncRead s.cancelled { s.reads with submitted := _ } false _
      | false => exact ⟨rfl, rfl⟩
  | @asyncSend onStrand =>
      refine hkeeps rfl ?_
      cases onStrand with
      | true => exact ⟨rfl, rfl⟩
      | false => exact ⟨rfl, rfl⟩
  | @cancel onStrand =>
      refine hkeeps rfl ?_
      cases onStrand with
      | true => exact Reads.keeps_cancel s.reads
      | false => exact ⟨rfl, rfl⟩
  | @taken c =>
      refine hkeeps rfl ?_
      cases c with
      | read id => exact Reads.keeps_asyncRead s.cancelled s.reads true id
      | send o => exact ⟨rfl, rfl⟩
      | cancel => exact Reads.keeps_cancel s.reads
  | @readCompleted i id c =>
      simp only [Event.message?, Event.readFails, Reads.readCompleted]
      cases hec : c.ec with
      | some e =>
          refine ⟨(Reads.keeps_startNextRead _ _).1.trans ?_, by simp⟩
          simp [Reads.payloads, Reads.delivered]
      | none =>
          refine ⟨(Reads.keeps_startNextRead _ _).1.trans ?_, fun _ _ => ?_⟩
          · simp [Reads.payloads, Reads.delivered]
          · exact (Reads.keeps_startNextRead _ _).2
  | writeCompleted => exact hkeeps rfl ⟨rfl, rfl⟩

/-! ## Runs -/

/-- The messages that the stream brought, in that order. -/
def received (trace : List (Taken WebSocketClient Event)) : List WebSocketMessage :=
  (trace.filterMap (·.event.message?)).reverse

/-- A stream on which a read failed brings no more messages. -/
def FailsForGood (log : List (Taken WebSocketClient Event)) (t : Taken WebSocketClient Event) :
    Prop :=
  t.event.message?.isSome → ∀ t' ∈ log, t'.event.readFails = false

theorem received_cons (t : Taken WebSocketClient Event)
    (trace : List (Taken WebSocketClient Event)) :
    received (t :: trace) = received trace ++ t.event.message?.toList := by
  unfold received
  cases hmessage : t.event.message? with
  | none => simp [hmessage]
  | some m => simp [hmessage]

/-- The buffer is empty as long as no read failed. -/
theorem buffer_empty {trace : List (Taken WebSocketClient Event)} (hrun : machine.Run trace s)
    (hwhole : ∀ t ∈ trace, t.event.readFails = false) : s.reads.buffer = [] := by
  induction hrun with
  | start => rfl
  | @step trace s s' e hrun hstep ih =>
      have hbefore := ih fun t ht => hwhole t (List.mem_cons_of_mem _ ht)
      exact (step_delivered hstep).2 (hwhole ⟨s, e, s'⟩ List.mem_cons_self) hbefore

/-- **Every message is delivered**, as it came. -/
theorem payloads_received {trace : List (Taken WebSocketClient Event)}
    (hrun : machine.Run trace s) (hstream : Throughout FailsForGood trace) :
    s.reads.payloads = received trace := by
  induction hrun with
  | start => rfl
  | @step trace s s' e hrun hstep ih =>
      rw [(step_delivered hstep).1, received_cons, ih hstream.2]
      cases hmessage : e.message? with
      | none => simp
      | some m =>
          have hwhole := hstream.1 (by simp [hmessage])
          simp [buffer_empty hrun hwhole]

/-- As many are delivered as come. -/
theorem payloads_length {trace : List (Taken WebSocketClient Event)}
    (hrun : machine.Run trace s) : s.reads.payloads.length = (received trace).length := by
  induction hrun with
  | start => rfl
  | @step trace s s' e hrun hstep ih =>
      rw [(step_delivered hstep).1, received_cons, List.length_append, List.length_append, ih]
      cases e.message? with
      | none => simp
      | some m => simp

/-- The websocket serves its reads: each is completed at most once, and once where the
strand has nothing to do and no stream read is outstanding; there is one stream read
at a time, and the flag says so; every message that the stream brings is delivered to
one read, in the order in which the strand took the reads, and those that waited for
it are taken in the order of their submission; and once the strand took `cancel`, a
read that it took is completed, but for the one whose stream read is outstanding. -/
structure ServesReads (trace : List (Taken WebSocketClient Event)) (s : WebSocketClient) :
    Prop where
  once : ∀ id < s.reads.submitted,
    s.reads.completedIds.count id + (s.reads.pendingIds (readCalls s.calls)).count id = 1
  settled : s.calls = [] → s.reads.streamReads = [] →
    ∀ id < s.reads.submitted, s.reads.completedIds.count id = 1
  single : s.reads.streamReads.length ≤ 1
  flag : s.reads.reading = true ↔ s.reads.streamReads ≠ []
  delivered : Throughout FailsForGood trace → s.reads.payloads = received trace
  counted : s.reads.deliveredIds.length = (received trace).length
  ordered : s.reads.deliveredIds.Sublist (takenIds s.reads.arrived)
  unrepeated : s.reads.deliveredIds.Nodup
  waited : (waitedIds s.reads.arrived).Pairwise (· < ·)
  asked : s.CancelAsked ↔ ∃ t ∈ trace, t.event.isCancel = true
  cancelled : s.cancelled = true → ∀ id ∈ takenIds s.reads.arrived,
    id ∈ s.reads.streamReads ∨ s.reads.completedIds.count id = 1

/-- **The reads of a websocket** are served in every run. -/
theorem servesReads {trace : List (Taken WebSocketClient Event)} (hrun : machine.Run trace s) :
    ServesReads trace s := by
  have h : s.ReadsOrderly := orderly ⟨_, hrun⟩
  have hordered : s.reads.deliveredIds.Sublist (takenIds s.reads.arrived) :=
    (List.sublist_append_left _ _).trans h.order
  refine
    { once := fun id hid => h.custody.once hid
      settled := ?_
      single := h.single
      flag := ?_
      delivered := payloads_received hrun
      counted := ?_
      ordered := hordered
      unrepeated := h.turn.nodup.sublist hordered
      waited := h.turn.inOrder
      asked := cancelAsked_iff hrun
      cancelled := ?_ }
  · intro hcalls hreads id hid
    have hidle : s.reads.reading = false := by
      have hflag := h.flag
      by_contra hreading
      simp [hreads, hreading] at hflag
    have hnone : s.reads.pendingIds (readCalls s.calls) = [] := by
      simp [Reads.pendingIds, hcalls, hreads, h.idle hidle, readCalls]
    exact h.custody.settled hnone hid
  · rw [← List.length_pos_iff, h.flag]
    by_cases hreading : s.reads.reading = true
    · simp [hreading]
    · simp [hreading]
  · have hlength := payloads_length hrun
    rw [Reads.payloads, List.length_map] at hlength
    rw [Reads.deliveredIds, List.length_map, hlength]
  · intro hcancelled id hid
    have hissued : id < s.reads.submitted :=
      h.turn.taken.mem_iff.mp (List.mem_append_left _ hid)
    have hone := h.custody.once hissued
    have hnotwaiting : id ∉ readCalls s.calls := by
      have hnodup := h.turn.taken.nodup
      rw [List.nodup_append] at hnodup
      exact fun hwaits => hnodup.2.2 id hid id hwaits rfl
    rw [Reads.pendingIds, h.stopped hcancelled, List.nil_append, List.count_append,
      List.count_eq_zero.mpr hnotwaiting] at hone
    by_cases hstream : id ∈ s.reads.streamReads
    · exact .inl hstream
    · rw [List.count_eq_zero.mpr hstream] at hone
      exact .inr hone

/-- A read that gets a message, one whose stream read fails after `cancel`, one that is
queued until then and one that comes later. -/
theorem servesReads_cancelled :
    ServesReads
      (machine.recorded
        [.asyncRead false, .asyncRead false, .taken, .readCompleted 0 { data := [1] }, .taken,
          .asyncRead true, .cancel false, .taken, .asyncRead true,
          .readCompleted 0 { data := [], ec := some .operationCanceled }]).1
      (machine.recorded
        [.asyncRead false, .asyncRead false, .taken, .readCompleted 0 { data := [1] }, .taken,
          .asyncRead true, .cancel false, .taken, .asyncRead true,
          .readCompleted 0 { data := [], ec := some .operationCanceled }]).2 :=
  servesReads (machine.run_recorded _ (by decide +kernel))

/-- While read 0 waits for the strand, read 1 is submitted on it and gets the first
message. -/
theorem servesReads_overtaken :
    ∃ trace s, machine.Run trace s ∧
      s.reads.delivered = [(1, ⟨[1], false⟩), (0, ⟨[2], false⟩)] :=
  ⟨_, _, machine.run_recorded
      [.asyncRead false, .asyncRead true, .taken, .readCompleted 0 { data := [1] },
        .readCompleted 0 { data := [2] }]
      (by decide +kernel), by decide +kernel⟩

end WebSocketClient

end Ekizu.Net
