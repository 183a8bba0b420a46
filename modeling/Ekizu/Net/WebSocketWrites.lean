import Ekizu.Lib.Strand
import Ekizu.Net.WebSocket

/-!
# Writes of a websocket

One drain at a time takes the messages from the queue; it ends where the queue is
empty or a write failed, and leaves what is queued to the next one.

## Main results

* `sendsOrderly` — the invariant of every run.
* `kept` — a message stays what it was when it was submitted.
* `servesSends` — every send is completed once, and the messages are written one at a
  time in the order in which the strand takes them.
* `servesSends_overtaken` — a message that is submitted on the strand is written
  before one submitted earlier.
-/

namespace Ekizu.Net

open Lib.Custody Lib.Runs Lib.Strand

/-- The message that a call submits. -/
def Call.send? : Call → Option Outgoing
  | send o => some o
  | _ => none

def sendCalls (calls : List Call) : List Outgoing := calls.filterMap Call.send?

theorem sendCalls_snoc (calls : List Call) (c : Call) :
    sendCalls (calls ++ [c]) = sendCalls calls ++ c.send?.toList := by
  cases c with
  | read id => simp [sendCalls, Call.send?]
  | send o => simp [sendCalls, Call.send?]
  | cancel => simp [sendCalls, Call.send?]

theorem sendCalls_cons (c : Call) (calls : List Call) :
    sendCalls (c :: calls) = c.send?.toList ++ sendCalls calls := by
  cases c with
  | read id => rfl
  | send o => rfl
  | cancel => rfl

/-- The numbers of messages. -/
def outgoingIds (os : List Outgoing) : List Nat := os.map (·.id)

namespace Sends

variable {s : Sends} {waiting : List Outgoing}

/-- The messages that the strand took, in the order of that. -/
def taken (s : Sends) : List Outgoing := s.arrived.map (·.2)

/-- The same by their numbers. -/
def arrivals (s : Sends) : List (Bool × Nat) := s.arrived.map fun x => (x.1, x.2.id)

/-- The sends whose handlers were not completed. -/
def pendingIds (s : Sends) (waiting : List Outgoing) : List Nat :=
  s.writes.map (·.1) ++ outgoingIds waiting

/-- The sends whose handlers were completed. -/
def completedIds (s : Sends) : List Nat := s.results.map (·.1)

/-- Every send is held by the drain, waits for the strand or is completed; what is
written and queued follows the order in which the strand took it, and the flag is
that of the stream write. -/
structure Orderly (waiting : List Outgoing) (s : Sends) : Prop where
  turn : InTurn s.submitted s.arrivals (outgoingIds waiting)
  custody : Holds s.submitted (s.pendingIds waiting ++ s.completedIds)
  order : (s.written ++ s.queue).Sublist s.taken
  flag : s.writes.length = if s.sending then 1 else 0

/-- The same before a step of the drain that completes `first`. -/
structure Ready (first : Nat) (waiting : List Outgoing) (s : Sends) : Prop where
  turn : InTurn s.submitted s.arrivals (outgoingIds waiting)
  custody : Holds s.submitted (first :: (outgoingIds waiting ++ s.completedIds))
  order : (s.written ++ s.queue).Sublist s.taken
  busy : s.sending = true
  free : s.writes = []

/-! ## The handlers -/

theorem drainStep_nil {first : Nat} (hqueue : s.queue = []) :
    s.drainStep first none =
      { s with sending := false, results := (first, none) :: s.results } := by
  rw [drainStep, hqueue]

theorem drainStep_cons {first : Nat} {o : Outgoing} {queue : List Outgoing}
    (hqueue : s.queue = o :: queue) :
    s.drainStep first none =
      { s with
        queue := queue
        binary := o.binary
        writes := (first, o) :: s.writes
        written := s.written ++ [o] } := by
  rw [drainStep, hqueue]
  rfl

/-- **A step of the drain.** -/
theorem Ready.drainStep {first : Nat} (h : Ready first waiting s) (last : Option Error) :
    Orderly waiting (s.drainStep first last) := by
  have hends : ∀ (last : Option Error) (n : Nat),
      ((s.writes.map (·.1) ++ outgoingIds waiting) ++ (first :: s.completedIds)).count n =
        (first :: (outgoingIds waiting ++ s.completedIds)).count n := by
    intro last n
    simp only [h.free, List.map_nil, List.nil_append, List.count_append, List.count_cons]
    omega
  cases last with
  | some e =>
      refine ⟨h.turn, h.custody.move (hends (some e)), h.order, ?_⟩
      show s.writes.length = 0
      rw [h.free, List.length_nil]
  | none =>
      cases hqueue : s.queue with
      | nil =>
          rw [drainStep_nil hqueue]
          exact ⟨h.turn, h.custody.move (hends none), h.order, by simp [h.free]⟩
      | cons o queue =>
          have horder := h.order
          rw [hqueue] at horder
          rw [drainStep_cons hqueue]
          refine ⟨h.turn, h.custody.move ?_, ?_, by simp [h.free, h.busy]⟩
          · intro n
            simp only [pendingIds, completedIds, h.free, List.map_cons, List.map_nil,
              List.count_append, List.count_cons, List.count_nil]
            omega
          · simpa [taken] using horder

/-- **A message is taken**: it joins the queue, and starts a drain where there is none. -/
theorem Orderly.asyncSend {o : Outgoing} {waited : Bool}
    (hturn : InTurn s.submitted (s.arrivals ++ [(waited, o.id)]) (outgoingIds waiting))
    (hcustody : Holds s.submitted (o.id :: (s.pendingIds waiting ++ s.completedIds)))
    (horder : (s.written ++ s.queue).Sublist s.taken)
    (hflag : s.writes.length = if s.sending then 1 else 0) :
    Orderly waiting (s.asyncSend waited o) := by
  have hturn' : InTurn s.submitted
      ((s.arrived ++ [(waited, o)]).map fun x => (x.1, x.2.id)) (outgoingIds waiting) := by
    simpa [arrivals] using hturn
  have horder' : (s.written ++ (s.queue ++ [o])).Sublist
      ((s.arrived ++ [(waited, o)]).map (·.2)) := by
    have hmore := horder.append (List.Sublist.refl [o])
    simpa [taken] using hmore
  unfold Sends.asyncSend
  by_cases hsending : s.sending = true
  · rw [if_pos hsending]
    refine ⟨hturn', hcustody.move ?_, horder', hflag⟩
    intro n
    simp only [pendingIds, completedIds, List.map_cons, List.count_append, List.count_cons]
    omega
  · rw [if_neg hsending]
    rw [if_neg hsending] at hflag
    have hfree : s.writes = [] := List.eq_nil_of_length_eq_zero hflag
    apply Ready.drainStep
    refine ⟨hturn', hcustody.move ?_, horder', rfl, hfree⟩
    intro n
    simp [pendingIds, completedIds, hfree]

theorem Orderly.submit (h : s.Orderly waiting) (msg : Bytes) (binary : Bool) :
    Orderly (waiting ++ [⟨s.submitted, msg, binary⟩]) { s with submitted := s.submitted + 1 } := by
  have hids : outgoingIds (waiting ++ [⟨s.submitted, msg, binary⟩]) =
      outgoingIds waiting ++ [s.submitted] := by
    simp [outgoingIds]
  refine ⟨?_, h.custody.issue ?_, h.order, h.flag⟩
  · rw [hids]
    exact h.turn.submit
  · intro n
    simp only [pendingIds, completedIds, hids, List.count_append, List.count_singleton,
      beq_iff_eq, eq_comm (a := n)]
    omega

theorem Orderly.inline (h : s.Orderly waiting) (msg : Bytes) (binary : Bool) :
    Orderly waiting
      ({ s with submitted := s.submitted + 1 }.asyncSend false ⟨s.submitted, msg, binary⟩) := by
  refine Orderly.asyncSend h.turn.inline (h.custody.issue ?_) h.order h.flag
  intro n
  simp [pendingIds, completedIds, List.count_cons, eq_comm (a := n)]

theorem Orderly.take {o : Outgoing} (h : s.Orderly (o :: waiting)) :
    Orderly waiting (s.asyncSend true o) := by
  refine Orderly.asyncSend h.turn.take (h.custody.move ?_) h.order h.flag
  intro n
  simp only [pendingIds, completedIds, outgoingIds, List.map_cons, List.count_append,
    List.count_cons]
  omega

theorem Orderly.single (h : s.Orderly waiting) : s.writes.length ≤ 1 := by
  rw [h.flag]
  split
  · exact Nat.le_refl 1
  · exact Nat.zero_le 1

/-- A write that completes is the one outstanding. -/
theorem Orderly.outstanding {i : Nat} {w : Nat × Outgoing} (h : s.Orderly waiting)
    (hw : s.writes[i]? = some w) :
    s.writes = [w] ∧ s.writes.eraseIdx i = [] ∧ s.sending = true := by
  obtain ⟨hwrites, herased⟩ := eq_singleton_of_getElem? h.single hw
  refine ⟨hwrites, herased, ?_⟩
  have hflag := h.flag
  rw [hwrites] at hflag
  by_contra hidle
  simp [hidle] at hflag

/-- **A stream write completes.** -/
theorem Orderly.writeCompleted {i : Nat} {w : Nat × Outgoing} (h : s.Orderly waiting)
    (hw : s.writes[i]? = some w) (ec : Option Error) :
    Orderly waiting ({ s with writes := s.writes.eraseIdx i }.drainStep w.1 ec) := by
  obtain ⟨hwrites, herased, hsending⟩ := h.outstanding hw
  rw [herased]
  apply Ready.drainStep
  refine ⟨h.turn, h.custody.move ?_, h.order, hsending, rfl⟩
  intro n
  simp [pendingIds, completedIds, hwrites]

/-- **The queue is cancelled.** -/
theorem Orderly.cancel (h : s.Orderly waiting) : Orderly waiting s.cancel := by
  refine ⟨h.turn, h.custody, ?_, h.flag⟩
  show (s.written ++ []).Sublist s.taken
  rw [List.append_nil]
  exact (List.sublist_append_left _ _).trans h.order

/-! ## What a handler leaves alone -/

@[simp] theorem taken_drainStep (s : Sends) (first : Nat) (last : Option Error) :
    (s.drainStep first last).taken = s.taken := by
  cases last with
  | some e => rfl
  | none =>
      cases hqueue : s.queue with
      | nil =>
          rw [drainStep_nil hqueue]
          rfl
      | cons o queue =>
          rw [drainStep_cons hqueue]
          rfl

theorem submitted_drainStep (s : Sends) (first : Nat) (last : Option Error) :
    (s.drainStep first last).submitted = s.submitted := by
  cases last with
  | some e => rfl
  | none =>
      cases hqueue : s.queue with
      | nil => rw [drainStep_nil hqueue]
      | cons o queue => rw [drainStep_cons hqueue]

theorem taken_asyncSend (s : Sends) (waited : Bool) (o : Outgoing) :
    (s.asyncSend waited o).taken = s.taken ++ [o] := by
  unfold Sends.asyncSend
  split
  · simp [taken]
  · rw [taken_drainStep]
    simp [taken]

theorem submitted_asyncSend (s : Sends) (waited : Bool) (o : Outgoing) :
    (s.asyncSend waited o).submitted = s.submitted := by
  unfold Sends.asyncSend
  split
  · rfl
  · exact submitted_drainStep _ _ _

/-! ## Nothing is lost -/

/-- What was taken is written or queued, and nothing is queued without a drain. -/
structure Whole (s : Sends) : Prop where
  all : s.written ++ s.queue = s.taken
  idle : s.sending = false → s.queue = []

theorem Whole.drainStep (hall : s.written ++ s.queue = s.taken) (hbusy : s.sending = true)
    (first : Nat) : Whole (s.drainStep first none) := by
  cases hqueue : s.queue with
  | nil =>
      rw [drainStep_nil hqueue]
      exact ⟨hall, fun _ => hqueue⟩
  | cons o queue =>
      rw [hqueue] at hall
      rw [drainStep_cons hqueue]
      refine ⟨by simpa [taken] using hall, ?_⟩
      intro hidle
      simp [hbusy] at hidle

theorem Whole.asyncSend (h : s.Whole) (waited : Bool) (o : Outgoing) :
    Whole (s.asyncSend waited o) := by
  have hall : s.written ++ (s.queue ++ [o]) = (s.arrived ++ [(waited, o)]).map (·.2) := by
    rw [← List.append_assoc, h.all]
    simp [taken]
  unfold Sends.asyncSend
  by_cases hsending : s.sending = true
  · rw [if_pos hsending]
    refine ⟨hall, ?_⟩
    intro hidle
    simp [hsending] at hidle
  · rw [if_neg hsending]
    exact Whole.drainStep hall rfl o.id

end Sends

namespace WebSocketClient

variable {s s' : WebSocketClient} {e : Event}

/-- The invariant of the sends, with those that wait for the strand. -/
def SendsOrderly (s : WebSocketClient) : Prop := s.sends.Orderly (sendCalls s.calls)

/-! ## One step -/

theorem SendsOrderly.run {c : Call} {calls : List Call} (h : s.SendsOrderly)
    (hcalls : s.calls = c :: calls) : SendsOrderly (({ s with calls := calls }).run true c) := by
  have h : s.sends.Orderly (c.send?.toList ++ sendCalls calls) := by
    rw [← sendCalls_cons, ← hcalls]
    exact h
  cases c with
  | read id => exact h
  | send o => exact Sends.Orderly.take h
  | cancel => exact Sends.Orderly.cancel h

/-- **The invariant along a step.** -/
theorem SendsOrderly.step (h : s.SendsOrderly) (hstep : s.step e = some s') : s'.SendsOrderly := by
  cases step_ran hstep with
  | @asyncRead onStrand =>
      cases onStrand with
      | true => exact h
      | false =>
          show Sends.Orderly (sendCalls (s.calls ++ [.read _])) s.sends
          rw [sendCalls_snoc]
          show Sends.Orderly (sendCalls s.calls ++ []) s.sends
          rw [List.append_nil]
          exact h
  | @asyncSend onStrand msg binary =>
      cases onStrand with
      | true => exact Sends.Orderly.inline h msg binary
      | false =>
          show Sends.Orderly (sendCalls (s.calls ++ [.send _])) _
          rw [sendCalls_snoc]
          exact Sends.Orderly.submit h msg binary
  | @cancel onStrand =>
      cases onStrand with
      | true => exact Sends.Orderly.cancel h
      | false =>
          show Sends.Orderly (sendCalls (s.calls ++ [.cancel])) s.sends
          rw [sendCalls_snoc]
          show Sends.Orderly (sendCalls s.calls ++ []) s.sends
          rw [List.append_nil]
          exact h
  | taken hcalls => exact h.run hcalls
  | readCompleted => exact h
  | writeCompleted hw => exact Sends.Orderly.writeCompleted h hw _

/-- **The invariant** of every run. -/
theorem sendsOrderly (h : machine.Reachable s) : s.SendsOrderly := by
  refine h.invariant ?_ fun hs hstep => hs.step hstep
  exact ⟨InTurn.start, Holds.start, List.Sublist.refl _, rfl⟩

/-! ## What is submitted and what is lost -/

/-- The message and the flag that a call submits. -/
def Event.sent? : Event → Option (Bytes × Bool)
  | .asyncSend _ msg binary => some (msg, binary)
  | _ => none

def Event.writeFails : Event → Bool
  | .writeCompleted _ (some _) => true
  | _ => false

/-- The messages that were submitted, in that order. -/
def sent (trace : List (Taken WebSocketClient Event)) : List (Bytes × Bool) :=
  (trace.filterMap (·.event.sent?)).reverse

/-- Messages stand for what was submitted under their number. -/
def Own (sent : List (Bytes × Bool)) (os : List Outgoing) : Prop :=
  ∀ o ∈ os, sent[o.id]? = some (o.msg, o.binary)

/-- The messages that were submitted to a websocket. -/
def messages (s : WebSocketClient) : List Outgoing := s.sends.taken ++ sendCalls s.calls

theorem sent_cons (t : Taken WebSocketClient Event) (trace : List (Taken WebSocketClient Event)) :
    sent (t :: trace) = sent trace ++ t.event.sent?.toList := by
  unfold sent
  cases hsent : t.event.sent? with
  | none => simp [hsent]
  | some m => simp [hsent]

/-- What a step submits, and what it leaves of the messages. -/
theorem step_messages (hstep : s.step e = some s') :
    s'.sends.submitted = s.sends.submitted + e.sent?.toList.length ∧
      ∀ o ∈ s'.messages, o ∈ s.messages ∨
        (e.sent? = some (o.msg, o.binary) ∧ o.id = s.sends.submitted) := by
  cases step_ran hstep with
  | @asyncRead onStrand =>
      refine ⟨by cases onStrand <;> rfl, fun o ho => .inl ?_⟩
      cases onStrand with
      | true => exact ho
      | false => simpa [messages, dispatch, sendCalls_snoc, Call.send?] using ho
  | @asyncSend onStrand msg binary =>
      cases onStrand with
      | true =>
          refine ⟨Sends.submitted_asyncSend _ _ _, ?_⟩
          intro o ho
          simp only [messages, dispatch, if_pos, run, Sends.taken_asyncSend] at ho
          simp only [messages, Event.sent?, List.mem_append, List.mem_singleton] at ho ⊢
          rcases ho with (htaken | rfl) | hwaits
          · exact .inl (.inl htaken)
          · exact .inr ⟨rfl, rfl⟩
          · exact .inl (.inr hwaits)
      | false =>
          refine ⟨rfl, ?_⟩
          intro o ho
          simp only [messages, dispatch, Bool.false_eq_true, if_false, sendCalls_snoc,
            Call.send?, Option.toList_some] at ho
          simp only [messages, Event.sent?, List.mem_append, List.mem_singleton] at ho ⊢
          rcases ho with htaken | hwaits | rfl
          · exact .inl (.inl htaken)
          · exact .inl (.inr hwaits)
          · exact .inr ⟨rfl, rfl⟩
  | @cancel onStrand =>
      refine ⟨by cases onStrand <;> rfl, fun o ho => .inl ?_⟩
      cases onStrand with
      | true => exact ho
      | false => simpa [messages, dispatch, sendCalls_snoc, Call.send?] using ho
  | @taken c calls hcalls =>
      cases c with
      | read id => exact ⟨rfl, fun o ho => .inl (by rwa [messages, hcalls])⟩
      | send o =>
          refine ⟨Sends.submitted_asyncSend _ _ _, fun o ho => .inl ?_⟩
          rw [messages, hcalls, sendCalls_cons]
          simpa [messages, run, Sends.taken_asyncSend, Call.send?] using ho
      | cancel => exact ⟨rfl, fun o ho => .inl (by rwa [messages, hcalls])⟩
  | readCompleted => exact ⟨rfl, fun o ho => .inl ho⟩
  | writeCompleted =>
      refine ⟨Sends.submitted_drainStep _ _ _, fun o ho => .inl ?_⟩
      rw [messages, Sends.taken_drainStep] at ho
      exact ho

/-- **A message stays what it was** when it was submitted. -/
theorem kept {trace : List (Taken WebSocketClient Event)} (hrun : machine.Run trace s) :
    s.sends.submitted = (sent trace).length ∧ Own (sent trace) s.messages := by
  induction hrun with
  | start => exact ⟨rfl, fun o ho => by cases ho⟩
  | @step trace s s' e hrun hstep ih =>
      obtain ⟨hlength, hown⟩ := ih
      obtain ⟨hsubmitted, hmessages⟩ := step_messages hstep
      rw [sent_cons, List.length_append, hsubmitted, hlength]
      refine ⟨rfl, ?_⟩
      intro o ho
      rcases hmessages o ho with hold | ⟨hsent, hid⟩
      · have hbefore := hown o hold
        have hlt := (List.getElem?_eq_some_iff.mp hbefore).1
        rw [List.getElem?_append_left hlt, hbefore]
      · rw [hid, hlength, List.getElem?_append_right (Nat.le_refl _), Nat.sub_self]
        simp [hsent]

/-- **Nothing is lost in a step**, unless it cancels or a write fails. -/
theorem whole_step (h : s.sends.Whole) (horderly : s.SendsOrderly) (hasked : ¬ s.CancelAsked)
    (hcancel : e.isCancel = false) (hfails : e.writeFails = false)
    (hstep : s.step e = some s') : s'.sends.Whole := by
  cases step_ran hstep with
  | @asyncRead onStrand =>
      cases onStrand with
      | true => exact h
      | false => exact h
  | @asyncSend onStrand msg binary =>
      have h : Sends.Whole { s.sends with submitted := s.sends.submitted + 1 } := ⟨h.all, h.idle⟩
      cases onStrand with
      | true => exact h.asyncSend _ _
      | false => exact h
  | cancel => simp [Event.isCancel] at hcancel
  | @taken c calls hcalls =>
      cases c with
      | read id => exact h
      | send o => exact h.asyncSend _ _
      | cancel => exact absurd (.inr (by simp [hcalls])) hasked
  | readCompleted => exact h
  | @writeCompleted i first o ec hw =>
      have hsending := (horderly.outstanding hw).2.2
      cases ec with
      | some err => simp [Event.writeFails] at hfails
      | none =>
          apply Sends.Whole.drainStep
          · exact h.all
          · exact hsending

/-- No write failed in a run and `cancel` was not called. -/
def Undisturbed (trace : List (Taken WebSocketClient Event)) : Prop :=
  ∀ t ∈ trace, t.event.writeFails = false ∧ t.event.isCancel = false

/-- **Nothing is lost** in an undisturbed run. -/
theorem whole {trace : List (Taken WebSocketClient Event)} (hrun : machine.Run trace s)
    (hundisturbed : Undisturbed trace) : s.sends.Whole := by
  induction hrun with
  | start => exact ⟨rfl, fun _ => rfl⟩
  | @step trace s s' e hrun hstep ih =>
      have hbefore : Undisturbed trace := fun t ht => hundisturbed t (List.mem_cons_of_mem _ ht)
      obtain ⟨hfails, hcancel⟩ := hundisturbed ⟨s, e, s'⟩ List.mem_cons_self
      have hasked : ¬ s.CancelAsked := by
        rw [cancelAsked_iff hrun]
        rintro ⟨t, ht, hcancelled⟩
        simp [(hbefore t ht).2] at hcancelled
      exact whole_step (ih hbefore) (sendsOrderly ⟨_, hrun⟩) hasked hcancel hfails hstep

/-- The websocket serves its sends: each is completed at most once, and once where the
strand has nothing to do and no stream write is outstanding; there is one stream write
at a time, and the flag says that its drain is active; the messages are written as
they were submitted, each at most once, in the order in which the strand took them,
and those that waited for it are taken in the order of their submission; and in an
undisturbed run every message is written. -/
structure ServesSends (trace : List (Taken WebSocketClient Event)) (s : WebSocketClient) :
    Prop where
  once : ∀ id < s.sends.submitted,
    s.sends.completedIds.count id + (s.sends.pendingIds (sendCalls s.calls)).count id = 1
  settled : s.calls = [] → s.sends.writes = [] →
    ∀ id < s.sends.submitted, s.sends.completedIds.count id = 1
  single : s.sends.writes.length ≤ 1
  flag : s.sends.sending = true ↔ s.sends.writes ≠ []
  ordered : s.sends.written.Sublist s.sends.taken
  unrepeated : (outgoingIds s.sends.written).Nodup
  waited : (waitedIds s.sends.arrivals).Pairwise (· < ·)
  own : Own (sent trace) s.sends.written
  whole : Undisturbed trace → s.calls = [] → s.sends.writes = [] →
    ∀ id < s.sends.submitted, id ∈ outgoingIds s.sends.written

/-- **The sends of a websocket** are served in every run. -/
theorem servesSends {trace : List (Taken WebSocketClient Event)} (hrun : machine.Run trace s) :
    ServesSends trace s := by
  have h : s.SendsOrderly := sendsOrderly ⟨_, hrun⟩
  have hordered : s.sends.written.Sublist s.sends.taken :=
    (List.sublist_append_left _ _).trans h.order
  have htaken : takenIds s.sends.arrivals = outgoingIds s.sends.taken := by
    simp [takenIds, Sends.arrivals, outgoingIds, Sends.taken]
  refine
    { once := fun id hid => h.custody.once hid
      settled := ?_
      single := h.single
      flag := ?_
      ordered := hordered
      unrepeated := ?_
      waited := h.turn.inOrder
      own := ?_
      whole := ?_ }
  · intro hcalls hwrites id hid
    have hnone : s.sends.pendingIds (sendCalls s.calls) = [] := by
      simp [Sends.pendingIds, hcalls, hwrites, sendCalls, outgoingIds]
    exact h.custody.settled hnone hid
  · rw [← List.length_pos_iff, h.flag]
    by_cases hsending : s.sends.sending = true
    · simp [hsending]
    · simp [hsending]
  · have hnodup := h.turn.nodup
    rw [htaken] at hnodup
    exact hnodup.sublist (hordered.map _)
  · intro o ho
    exact (kept hrun).2 o (List.mem_append_left _ (hordered.subset ho))
  · intro hundisturbed hcalls hwrites id hid
    have hwhole := whole hrun hundisturbed
    have hidle : s.sends.sending = false := by
      have hflag := h.flag
      by_contra hsending
      simp [hwrites, hsending] at hflag
    have hall := hwhole.all
    rw [hwhole.idle hidle, List.append_nil] at hall
    have hmem := h.turn.taken.mem_iff.mpr hid
    rw [hcalls, htaken, ← hall] at hmem
    simpa [sendCalls, outgoingIds] using hmem

/-- A message whose write fails, one that the next drain writes, and one that is queued
until `cancel`. -/
theorem servesSends_cancelled :
    ServesSends
      (machine.recorded
        [.asyncSend false [1] false, .asyncSend false [2] true, .taken, .taken,
          .writeCompleted 0 (some (.other 1)), .asyncSend true [3] false, .cancel false,
          .writeCompleted 0 none, .asyncSend true [4] true, .taken, .writeCompleted 0 none]).1
      (machine.recorded
        [.asyncSend false [1] false, .asyncSend false [2] true, .taken, .taken,
          .writeCompleted 0 (some (.other 1)), .asyncSend true [3] false, .cancel false,
          .writeCompleted 0 none, .asyncSend true [4] true, .taken, .writeCompleted 0 none]).2 :=
  servesSends (machine.run_recorded _ (by decide +kernel))

/-- While message 0 waits for the strand, message 1 is submitted on it and is written
first. -/
theorem servesSends_overtaken :
    ∃ trace s, machine.Run trace s ∧ s.sends.written = [⟨1, [2], false⟩, ⟨0, [1], false⟩] :=
  ⟨_, _, machine.run_recorded
      [.asyncSend false [1] false, .asyncSend true [2] false, .taken, .writeCompleted 0 none]
      (by decide +kernel), by decide +kernel⟩

end WebSocketClient

end Ekizu.Net
