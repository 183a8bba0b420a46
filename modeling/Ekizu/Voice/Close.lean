import Ekizu.Lib.Custody
import Ekizu.Voice.Reference

/-!
# Closing a connection

`close` runs on the strand, closes the websocket and reads once more from it; each of
the three stages can complete the handler.  The calls are numbered, so that a handler
that is lost, or completed twice, can be told.

## Main results

* `custody_step` — every call is in one place, in every run.
* `closes_iff` — close does what it is for, in a run, exactly where each call finds what
  it uses: `m_dave`, an external sender, and the websocket at the final read.
* `closes_beforeReady` — a call that finds no `m_dave`, and one that closes nothing.
-/

namespace Ekizu.Voice

open Dave Lib.Custody Lib.Runs

/-- How a call completed its handler, and what it left of the connection. -/
structure CloseResult where
  call : Nat
  ok : Bool
  ws : Bool
  disconnected : Bool
  deriving Repr, DecidableEq

/-- A connection and the calls of `close`. -/
structure ClosingState (W : Setting) (H : Type) where
  connection : Connection W H := {}
  calls : Nat := 0
  /-- Calls that the strand has not run. -/
  dispatched : List Nat := []
  /-- Calls that wait for the websocket to close, and for the final read. -/
  closing : List Nat := []
  reading : List Nat := []
  results : List CloseResult := []
  /-- The call that used an absent `m_dave` or `m_ws`. -/
  crashed : Option Nat := none

/-- What happens to a connection that can be closed. -/
inductive ClosingEvent (W : Setting) where
  /-- Anything else. -/
  | connection (event : Event W)
  | close
  /-- The strand runs a call; `udpClosed` is what closing the UDP socket says. -/
  | run (i : Nat) (udpClosed : Bool)
  | wsClosed (i : Nat) (ok : Bool)
  | finalRead (i : Nat)

/-- The event is an end of `close`, which the calls below take step by step. -/
def Event.closes {W : Setting} {H : Type} (c : Connection W H) : Event W → Bool
  | .close | .closed => true
  | .task i _ => c.tasks[i]? = some .close
  | _ => false

namespace ClosingState

variable {W : Setting} {H : Type}

/-- The handler of a call is completed. -/
def complete (s : ClosingState W H) (call : Nat) (ok : Bool) : ClosingState W H :=
  { s with results := s.results ++ [⟨call, ok, s.connection.ws, s.connection.disconnected⟩] }

/-- `close` on the strand. -/
def runClose (s : ClosingState W H) (call : Nat) (udpClosed : Bool) : ClosingState W H :=
  let c := s.connection
  if c.udp = true ∧ udpClosed = false then
    { s with connection := { c with
        channel := false, readyChan := false, recvChan := false, udp := false } }.complete call
      false
  else
    match c.close with
    | none => { s with crashed := some call }
    | some connection =>
        if c.closes < connection.closes then
          { s with connection, closing := s.closing ++ [call] }
        else { s with connection }.complete call true

/-- The websocket was closed; the final read needs it. -/
def wsClosed (s : ClosingState W H) (call : Nat) (ok : Bool) : ClosingState W H :=
  let c := s.connection
  if ok = false then
    { s with connection := { c with closes := c.closes - 1 } }.complete call false
  else if c.ws = false then { s with crashed := some call }
  else { s with reading := s.reading ++ [call] }

/-- The final read completed. -/
def finalRead (s : ClosingState W H) (call : Nat) : ClosingState W H :=
  let c := s.connection
  { s with connection := { c with
      closes := c.closes - 1, ws := false, disconnected := true } }.complete call true

variable [HashRatchet H]

/-- One step; `none` where the event cannot happen, or another part of the connection
misuses memory.  Nothing happens after a crash. -/
def step (s : ClosingState W H) (event : ClosingEvent W) : Option (ClosingState W H) :=
  if s.crashed.isSome then none
  else
    match event with
    | .connection event =>
        if event.closes s.connection then none
        else (s.connection.step event).map fun connection => { s with connection }
    | .close =>
        some { s with calls := s.calls + 1, dispatched := s.dispatched ++ [s.calls] }
    | .run i udpClosed =>
        s.dispatched[i]?.map fun call =>
          { s with dispatched := s.dispatched.eraseIdx i }.runClose call udpClosed
    | .wsClosed i ok =>
        s.closing[i]?.map fun call =>
          { s with closing := s.closing.eraseIdx i }.wsClosed call ok
    | .finalRead i =>
        s.reading[i]?.map fun call =>
          { s with reading := s.reading.eraseIdx i }.finalRead call

/-- The machine of a connection that can be closed. -/
def machine (W : Setting) (H : Type) [HashRatchet H] :
    Machine (ClosingState W H) (ClosingEvent W) where
  start := {}
  step := step

variable {s s' : ClosingState W H} {e : ClosingEvent W}

/-! ## Every call is in one place -/

/-- The calls whose handlers were not completed. -/
def pendingCalls (s : ClosingState W H) : List Nat :=
  s.dispatched ++ (s.closing ++ (s.reading ++ s.crashed.toList))

/-- The calls whose handlers were completed. -/
def completedCalls (s : ClosingState W H) : List Nat := s.results.map CloseResult.call

/-- Everything is in one place. -/
def Custody (s : ClosingState W H) : Prop :=
  Holds s.calls (s.pendingCalls ++ s.completedCalls)

omit [HashRatchet H] in
/-- A call that is in no place yet completes its handler. -/
theorem custody_complete {call : Nat} (ok : Bool)
    (h : Holds s.calls (call :: (s.pendingCalls ++ s.completedCalls))) :
    (s.complete call ok).Custody := by
  refine h.move ?_
  intro n
  simp [complete, pendingCalls, completedCalls, List.count_cons]
  omega

omit [HashRatchet H] in
theorem custody_runClose {call : Nat} (udpClosed : Bool) (halive : s.crashed = none)
    (h : Holds s.calls (call :: (s.pendingCalls ++ s.completedCalls))) :
    (s.runClose call udpClosed).Custody := by
  unfold runClose
  dsimp only
  split
  · exact custody_complete (s := { s with connection := _ }) false h
  · split
    · refine h.move ?_
      intro n
      simp [pendingCalls, completedCalls, halive, List.count_cons]
      omega
    · split
      · refine h.move ?_
        intro n
        simp [pendingCalls, completedCalls, List.count_cons]
        omega
      · exact custody_complete (s := { s with connection := _ }) true h

omit [HashRatchet H] in
theorem custody_wsClosed {call : Nat} (ok : Bool) (halive : s.crashed = none)
    (h : Holds s.calls (call :: (s.pendingCalls ++ s.completedCalls))) :
    (s.wsClosed call ok).Custody := by
  unfold wsClosed
  dsimp only
  split
  · exact custody_complete (s := { s with connection := _ }) false h
  · split
    · refine h.move ?_
      intro n
      simp [pendingCalls, completedCalls, halive, List.count_cons]
      omega
    · refine h.move ?_
      intro n
      simp [pendingCalls, completedCalls, List.count_cons]
      omega

/-- What a step is taken by. -/
theorem step_cases (hstep : s.step e = some s') :
    s.crashed = none ∧
      match e with
      | .connection event => ∃ connection, s.connection.step event = some connection ∧
          s' = { s with connection }
      | .close => s' = { s with calls := s.calls + 1, dispatched := s.dispatched ++ [s.calls] }
      | .run i udpClosed => ∃ call, s.dispatched[i]? = some call ∧
          s' = { s with dispatched := s.dispatched.eraseIdx i }.runClose call udpClosed
      | .wsClosed i ok => ∃ call, s.closing[i]? = some call ∧
          s' = { s with closing := s.closing.eraseIdx i }.wsClosed call ok
      | .finalRead i => ∃ call, s.reading[i]? = some call ∧
          s' = { s with reading := s.reading.eraseIdx i }.finalRead call := by
  unfold step at hstep
  split at hstep
  · simp at hstep
  · next halive =>
      refine ⟨by simpa using halive, ?_⟩
      cases e with
      | connection event =>
          dsimp only at hstep ⊢
          split at hstep
          · simp at hstep
          · obtain ⟨connection, hconnection, rfl⟩ := Option.map_eq_some_iff.mp hstep
            exact ⟨connection, hconnection, rfl⟩
      | close => exact (Option.some.inj hstep).symm
      | run i udpClosed =>
          obtain ⟨call, hcall, rfl⟩ := Option.map_eq_some_iff.mp hstep
          exact ⟨call, hcall, rfl⟩
      | wsClosed i ok =>
          obtain ⟨call, hcall, rfl⟩ := Option.map_eq_some_iff.mp hstep
          exact ⟨call, hcall, rfl⟩
      | finalRead i =>
          obtain ⟨call, hcall, rfl⟩ := Option.map_eq_some_iff.mp hstep
          exact ⟨call, hcall, rfl⟩

theorem custody_step (h : s.Custody) (hstep : s.step e = some s') : s'.Custody := by
  obtain ⟨halive, htaken⟩ := step_cases hstep
  cases e with
  | connection event =>
      obtain ⟨connection, -, rfl⟩ := htaken
      exact h
  | close =>
      rw [show s' = _ from htaken]
      refine h.issue ?_
      intro n
      simp [pendingCalls, completedCalls, List.count_cons, eq_comm (a := n)]
      omega
  | run i udpClosed =>
      obtain ⟨call, hcall, rfl⟩ := htaken
      refine custody_runClose udpClosed halive (h.move ?_)
      intro n
      have hone := count_eraseIdx id hcall n
      simp [pendingCalls, completedCalls, List.count_cons] at hone ⊢
      omega
  | wsClosed i ok =>
      obtain ⟨call, hcall, rfl⟩ := htaken
      refine custody_wsClosed ok halive (h.move ?_)
      intro n
      have hone := count_eraseIdx id hcall n
      simp [pendingCalls, completedCalls, List.count_cons] at hone ⊢
      omega
  | finalRead i =>
      obtain ⟨call, hcall, rfl⟩ := htaken
      refine custody_complete
        (s := { s with reading := s.reading.eraseIdx i, connection := _ }) true (h.move ?_)
      intro n
      have hone := count_eraseIdx id hcall n
      simp [pendingCalls, completedCalls, List.count_cons] at hone ⊢
      omega

/-! ## What close is for -/

/-- The events that the calls wait for. -/
def Expects (s : ClosingState W H) : ClosingEvent W → Prop
  | .run i _ => i < s.dispatched.length
  | .wsClosed i _ => i < s.closing.length
  | .finalRead i => i < s.reading.length
  | _ => False

/-- The stages that the calls have before them. -/
def stages (s : ClosingState W H) : Nat :=
  3 * s.dispatched.length + 2 * s.closing.length + s.reading.length

/-- No call uses what is not there, each completes its handler once and comes nearer to
that with every event that it waits for, and success means that the connection is
closed. -/
structure Closes (s : ClosingState W H) : Prop where
  alive : s.crashed = none
  once : s.Custody
  proceeds : ∀ e, s.Expects e → ∃ s', s.step e = some s' ∧ s'.stages < s.stages
  closed : ∀ result ∈ s.results, result.ok = true →
    result.ws = false ∧ result.disconnected = true

/-- What a call has to find: `m_dave` and an external sender, unless the UDP socket does
not close, or there is no more to close; and the websocket at the final read. -/
def CanClose (s : ClosingState W H) : ClosingEvent W → Prop
  | .run _ udpClosed =>
      s.connection.udp = true ∧ udpClosed = false ∨
        ∃ d ∈ s.connection.dave, d.session.hasExternalSender = true ∨
          s.connection.ws = false ∧ s.connection.disconnected = true
  | .wsClosed _ ok => ok = true → s.connection.ws = true
  | _ => True

instance (s : ClosingState W H) : ∀ e, Decidable (s.CanClose e)
  | .run _ udpClosed =>
      inferInstanceAs (Decidable (s.connection.udp = true ∧ udpClosed = false ∨
        ∃ d ∈ s.connection.dave, d.session.hasExternalSender = true ∨
          s.connection.ws = false ∧ s.connection.disconnected = true))
  | .wsClosed _ ok => inferInstanceAs (Decidable (ok = true → s.connection.ws = true))
  | .connection _ | .close | .finalRead _ => inferInstanceAs (Decidable True)

/-! ## One step -/

omit [HashRatchet H] in
/-- A call that runs leaves the line, and goes to the websocket at most. -/
theorem stages_runClose (call : Nat) (udpClosed : Bool) :
    (s.runClose call udpClosed).stages ≤ s.stages + 2 := by
  unfold runClose
  dsimp only
  split
  · exact Nat.le_add_right _ _
  · split
    · exact Nat.le_add_right _ _
    · split
      · simp only [stages, List.length_append, List.length_cons, List.length_nil]
        omega
      · exact Nat.le_add_right _ _

omit [HashRatchet H] in
theorem stages_wsClosed (call : Nat) (ok : Bool) :
    (s.wsClosed call ok).stages ≤ s.stages + 1 := by
  unfold wsClosed
  dsimp only
  split
  · exact Nat.le_add_right _ _
  · split
    · exact Nat.le_add_right _ _
    · simp only [stages, List.length_append, List.length_cons, List.length_nil]
      omega

/-- What a call waits for can happen, and it comes nearer to its end. -/
theorem proceeds (halive : s.crashed = none) (e : ClosingEvent W) (h : s.Expects e) :
    ∃ s', s.step e = some s' ∧ s'.stages < s.stages := by
  have hsome : ¬ s.crashed.isSome = true := by simp [halive]
  cases e with
  | connection event => exact h.elim
  | close => exact h.elim
  | run i udpClosed =>
      have hi : i < s.dispatched.length := h
      have hfound : s.dispatched[i]? = some s.dispatched[i] := List.getElem?_eq_getElem hi
      refine ⟨{ s with dispatched := s.dispatched.eraseIdx i }.runClose s.dispatched[i] udpClosed,
        ?_, ?_⟩
      · rw [step, if_neg hsome, hfound]
        rfl
      · refine Nat.lt_of_le_of_lt (stages_runClose _ udpClosed) ?_
        simp only [stages, List.length_eraseIdx_of_lt hi]
        omega
  | wsClosed i ok =>
      have hi : i < s.closing.length := h
      have hfound : s.closing[i]? = some s.closing[i] := List.getElem?_eq_getElem hi
      refine ⟨{ s with closing := s.closing.eraseIdx i }.wsClosed s.closing[i] ok, ?_, ?_⟩
      · rw [step, if_neg hsome, hfound]
        rfl
      · refine Nat.lt_of_le_of_lt (stages_wsClosed _ ok) ?_
        simp only [stages, List.length_eraseIdx_of_lt hi]
        omega
  | finalRead i =>
      have hi : i < s.reading.length := h
      have hfound : s.reading[i]? = some s.reading[i] := List.getElem?_eq_getElem hi
      refine ⟨{ s with reading := s.reading.eraseIdx i }.finalRead s.reading[i], ?_, ?_⟩
      · rw [step, if_neg hsome, hfound]
        rfl
      · simp only [stages, finalRead, complete, List.length_eraseIdx_of_lt hi]
        omega

omit [HashRatchet H] in
/-- No call has crashed, and those that succeeded have closed the connection. -/
def Sound (s : ClosingState W H) : Prop :=
  s.crashed = none ∧ ∀ result ∈ s.results, result.ok = true →
    result.ws = false ∧ result.disconnected = true

theorem closes_iff_sound (h : s.Custody) : s.Closes ↔ s.Sound := by
  constructor
  · intro hcloses
    exact ⟨hcloses.alive, hcloses.closed⟩
  · intro hsound
    exact ⟨hsound.1, h, proceeds hsound.1, hsound.2⟩

omit [HashRatchet H] in
theorem sound_complete (h : s.Sound) (connection : Connection W H) (call : Nat) (ok : Bool) :
    ({ s with connection }.complete call ok).Sound ↔
      (ok = true → connection.ws = false ∧ connection.disconnected = true) := by
  unfold Sound complete
  rw [List.forall_mem_append, List.forall_mem_singleton]
  constructor
  · intro hafter
    exact hafter.2.2
  · intro hclosed
    exact ⟨h.1, h.2, hclosed⟩

omit [HashRatchet H] in
/-- Where there is a DAVE state, `close` exits without an external sender or without a
websocket, and else closes the websocket. -/
theorem close_cases {c : Connection W H} {d : DaveState W H} (hdave : c.dave = some d) :
    ∃ c', c.close = some c' ∧ c'.ws = c.ws ∧
      (d.session.hasExternalSender = false ∧ c'.disconnected = c.disconnected ∧
          c'.closes = c.closes ∨
        d.session.hasExternalSender = true ∧ c.ws = false ∧ c'.disconnected = true ∧
          c'.closes = c.closes ∨
        d.session.hasExternalSender = true ∧ c'.closes = c.closes + 1) := by
  unfold Connection.close
  rw [hdave]
  refine ⟨_, rfl, ?_⟩
  dsimp only
  by_cases hsender : d.session.hasExternalSender = false
  · rw [if_pos hsender]
    exact ⟨rfl, .inl ⟨hsender, rfl, rfl⟩⟩
  · rw [if_neg hsender]
    have hknown : d.session.hasExternalSender = true := by simpa using hsender
    by_cases hws : c.ws = false
    · rw [if_pos hws]
      exact ⟨rfl, .inr (.inl ⟨hknown, hws, rfl, rfl⟩)⟩
    · rw [if_neg hws]
      exact ⟨rfl, .inr (.inr ⟨hknown, rfl⟩)⟩

omit [HashRatchet H] in
/-- A call on the strand. -/
theorem sound_runClose (h : s.Sound) (call : Nat) (udpClosed : Bool) :
    (s.runClose call udpClosed).Sound ↔
      s.connection.udp = true ∧ udpClosed = false ∨
        ∃ d ∈ s.connection.dave, d.session.hasExternalSender = true ∨
          s.connection.ws = false ∧ s.connection.disconnected = true := by
  unfold runClose
  dsimp only
  split
  · next hudp =>
      refine (sound_complete h _ call false).trans ?_
      simp [hudp]
  · next hudp =>
      rw [or_iff_right hudp]
      cases hdave : s.connection.dave with
      | none => simp [Connection.close, hdave, Sound]
      | some d =>
          obtain ⟨connection, hclose, hws, hcases⟩ := close_cases hdave
          simp only [hclose, Option.mem_def, Option.some.injEq, exists_eq_left']
          rcases hcases with ⟨hsender, hdisconnected, hcloses⟩ |
            ⟨hsender, hgone, hdisconnected, hcloses⟩ | ⟨hsender, hcloses⟩
          · -- the early exit leaves the websocket as it is
            rw [hcloses, if_neg (Nat.lt_irrefl _)]
            refine (sound_complete h connection call true).trans ?_
            simp [hsender, hws, hdisconnected]
          · rw [hcloses, if_neg (Nat.lt_irrefl _)]
            refine (sound_complete h connection call true).trans ?_
            simp [hsender, hws, hgone, hdisconnected]
          · rw [hcloses, if_pos (Nat.lt_succ_self _)]
            exact iff_of_true h (.inl hsender)

omit [HashRatchet H] in
/-- A call whose websocket was closed. -/
theorem sound_wsClosed (h : s.Sound) (call : Nat) (ok : Bool) :
    (s.wsClosed call ok).Sound ↔ (ok = true → s.connection.ws = true) := by
  unfold wsClosed
  dsimp only
  split
  · next hfailed =>
      refine (sound_complete h _ call false).trans ?_
      simp [hfailed]
  · next hok =>
      have htrue : ok = true := by simpa using hok
      split
      · next hws => simp [Sound, htrue, hws]
      · next hws =>
          have hthere : s.connection.ws = true := by simpa using hws
          exact iff_of_true h fun _ => hthere

/-- **The step lemma.** -/
theorem sound_step (h : s.Sound) (hstep : s.step e = some s') : s'.Sound ↔ s.CanClose e := by
  obtain ⟨-, htaken⟩ := step_cases hstep
  cases e with
  | connection event =>
      obtain ⟨connection, -, rfl⟩ := htaken
      exact iff_of_true h trivial
  | close =>
      rw [show s' = _ from htaken]
      exact iff_of_true h trivial
  | run i udpClosed =>
      obtain ⟨call, -, rfl⟩ := htaken
      exact sound_runClose (s := { s with dispatched := s.dispatched.eraseIdx i }) h call udpClosed
  | wsClosed i ok =>
      obtain ⟨call, -, rfl⟩ := htaken
      exact sound_wsClosed (s := { s with closing := s.closing.eraseIdx i }) h call ok
  | finalRead i =>
      obtain ⟨call, -, rfl⟩ := htaken
      refine iff_of_true ?_ trivial
      exact (sound_complete (s := { s with reading := s.reading.eraseIdx i }) h _ call true).mpr
        fun _ => ⟨rfl, rfl⟩

/-! ## Runs -/

variable {trace : List (Taken (ClosingState W H) (ClosingEvent W))}

/-- **Voice close closes** in every state of a run exactly where every call finds what it
uses. -/
theorem closes_iff (hrun : (machine W H).Run trace s) :
    (∀ t ∈ trace, t.post.Closes) ↔ ∀ t ∈ trace, t.pre.CanClose t.event := by
  suffices hall : s.Custody ∧ ((∀ t ∈ trace, t.post.Closes) → s.Sound) ∧
      ((∀ t ∈ trace, t.post.Closes) ↔ ∀ t ∈ trace, t.pre.CanClose t.event) from hall.2.2
  induction hrun with
  | start =>
      refine ⟨Holds.start, fun _ => ⟨rfl, by simp [machine]⟩, ?_⟩
      simp
  | @step trace s s' e hrun hstep ih =>
      obtain ⟨hcustody, hlast, hiff⟩ := ih
      have hcustody' := custody_step hcustody hstep
      rw [List.forall_mem_cons, List.forall_mem_cons, ← hiff]
      refine ⟨hcustody', fun hboth => (closes_iff_sound hcustody').mp hboth.1, ?_⟩
      rw [and_congr_left_iff]
      intro hbefore
      exact (closes_iff_sound hcustody').trans (sound_step (hlast hbefore) hstep)

end ClosingState

/-! ## Three calls -/

/-- The machine of the client. -/
abbrev closingMachine :
    Machine (ClosingState (referenceSetting referenceUser) Chain)
      (ClosingEvent (referenceSetting referenceUser)) :=
  ClosingState.machine (referenceSetting referenceUser) Chain

/-- A call of `close` after these events, up to the handler. -/
def closeAfter (events : List (Event (referenceSetting referenceUser))) :
    List (ClosingEvent (referenceSetting referenceUser)) :=
  events.map .connection ++ [.close, .run 0 true]

/-- The connection is ready, and no external sender is known. -/
def readyEvents : List (Event (referenceSetting referenceUser)) :=
  [.run, .task 0 (referenceEnv referenceUser),
    .message (.ready 9) (referenceEnv referenceUser).entropy]

/-- A client that knows the external sender closes its websocket. -/
theorem closes_connected :
    (closingMachine.recorded (closeAfter (connectEvents referenceUser) ++
      [.wsClosed 0 true, .finalRead 0])).2.results = [⟨0, true, false, true⟩] ∧
    ∀ t ∈ (closingMachine.recorded (closeAfter (connectEvents referenceUser) ++
      [.wsClosed 0 true, .finalRead 0])).1, t.post.Closes := by
  have hrun := Machine.run_recorded closingMachine
    (closeAfter (connectEvents referenceUser) ++ [.wsClosed 0 true, .finalRead 0])
    (by decide +kernel)
  constructor
  · decide +kernel
  · exact (ClosingState.closes_iff hrun).mpr (by decide +kernel)

/-- Before Ready a call uses the absent `m_dave`; after it a call without an external
sender succeeds with the websocket open. -/
theorem closes_beforeReady :
    (∃ s, closingMachine.Reachable s ∧ s.connection.dave = none ∧ s.crashed = some 0 ∧
      ¬ s.Closes) ∧
    ∃ s, closingMachine.Reachable s ∧ s.results = [⟨0, true, true, false⟩] ∧ ¬ s.Closes := by
  have hrun := Machine.run_recorded closingMachine (closeAfter []) (by decide +kernel)
  have hready := Machine.run_recorded closingMachine (closeAfter readyEvents) (by decide +kernel)
  constructor
  · refine ⟨_, ⟨_, hrun⟩, ?_, ?_, ?_⟩
    · rfl
    · rfl
    · intro hcloses
      exact absurd hcloses.alive (by decide +kernel)
  · refine ⟨_, ⟨_, hready⟩, ?_, ?_⟩
    · decide +kernel
    · intro hcloses
      exact absurd hcloses.closed (by decide +kernel)

end Ekizu.Voice
