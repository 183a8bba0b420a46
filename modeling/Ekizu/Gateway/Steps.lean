import Ekizu.Gateway.Shard

/-!
# What a step of the shard does

Behind the requests for events, a step changes the fields of the shard in one of
a few ways, and most steps change none.  `after` says how; the proofs about runs
read their fields off `step_core`.

## Main results

* `step_cases` — a step is a handler that was due.
* `step_core` — a step, up to the requests and the inflater.
* `delivered_frame`, `greeted_frame` and their like — what an operation leaves
  alone; `closeImpl_fst` — what a close changes.
-/

namespace Ekizu.Gateway.Shard

open Lib Lib.Runs

variable {W : Setting}

/-- What the handler of an event does. -/
def ran (s : Shard W) : Event → Shard W
  | .nextEvent isOpen =>
      { s with ops := s.ops ++ [Op.mk .started []] }.ensureConnectedThenRead s.ops.length isOpen
  | .backoffExpired i e => s.backoffExpired i e
  | .connectFailed i e => s.connectFailed i e
  | .connected i created => s.connected i created
  | .message i payload isBinary => s.onMessage i payload isBinary
  | .readFailed i e isOpen => s.onReadError i e isOpen
  | .sendCompleted i e | .closeCompleted i e => s.complete i (completion e)
  | .timerExpired => s.timerExpired
  | .heartbeatExpired => { s with expired := s.expired - 1 }.heartbeatExpired
  | .heartbeatSent => { s with heartbeatSends := s.heartbeatSends - 1 }.heartbeatTick
  | .close reason => (s.closeImpl reason).1

/-- The handler is due. -/
def Due (s : Shard W) : Event → Prop
  | .nextEvent _ | .close _ => True
  | .backoffExpired i _ => ∃ delay, s.phase i = .backingOff delay
  | .connectFailed i _ | .connected i _ => ∃ url, s.phase i = .connecting url
  | .message i _ _ | .readFailed i _ _ => s.phase i = .reading
  | .sendCompleted i _ => s.phase i = .sending
  | .closeCompleted i _ => s.phase i = .closing
  | .timerExpired => s.waiting = true
  | .heartbeatExpired => s.expired ≠ 0
  | .heartbeatSent => s.heartbeatSends ≠ 0

/-- The fields that requests and messages do not share. -/
def core (s : Shard W) : Shard W := { s with ops := [], escaped := 0, inflater := none }

/-- The payload that a message stands for. -/
def received (s : Shard W) : Event → Option Json
  | .message _ payload isBinary =>
      match s.inflater, isBinary with
      | some inflater, true => (inflater.inflate payload).2.bind W.parse
      | _, _ => W.parse payload
  | _ => none

/-- A shard whose inflater was given a message. -/
def decompressed (s : Shard W) (payload : List UInt8) (isBinary : Bool) : Shard W :=
  match s.inflater, isBinary with
  | some inflater, true => { s with inflater := some (inflater.inflate payload).1 }
  | _, _ => s

/-- A shard that handed a payload to its websocket. -/
def delivered (s : Shard W) (command : Command) : Shard W :=
  match s.ws with
  | none => s
  | some socket => { s with sent := (socket, command) :: s.sent }

/-- A shard with a payload sent, where there is a websocket. -/
def sentOr (s : Shard W) : Except Error (Shard W) → Shard W
  | .ok s' => s'
  | .error _ => s

/-- The session after a Dispatch with that sequence. -/
def sequenced (s : Shard W) (sequence : Option UInt64) : Shard W :=
  match s.session, sequence with
  | some session, some sequence => { s with session := some { session with sequence } }
  | _, _ => s

/-- A Dispatch that passes its checks. -/
def accepts (json : Json) : Bool :=
  isDispatch json && ((json.get "t").text ≠ "READY" || isReady (json.get "d"))

/-- A Dispatch. -/
def dispatched (s : Shard W) (json : Json) : Shard W :=
  if accepts json = false then s
  else if (json.get "t").text = "READY" then
    { s with
      session := some ⟨((json.get "d").get "session_id").text,
        (sequenceOf W.undefined json).getD 0⟩
      resumeGatewayUrl := some ((json.get "d").get "resume_gateway_url").text }
  else s.sequenced (sequenceOf W.undefined json)

/-- A Hello. -/
def greeted (s : Shard W) (json : Json) : Shard W :=
  let s := { s with lastHeartbeatAcked := true }
  match intervalOf W.undefined json with
  | none => s
  | some interval =>
      let s := s.startHeartbeat interval
      s.sentOr (if s.session.isSome then s.sendResumeAsync else s.sendIdentifyAsync)

/-- A payload. -/
def handled (s : Shard W) (json : Json) : Shard W :=
  match opcodeOf W.undefined json with
  | some .dispatch => s.dispatched json
  | some .heartbeat => s.sentOr s.sendHeartbeatAsync
  | some .reconnect => (s.closeImpl .resume).1
  | some .invalidSession =>
      match json.get "d" with
      | .boolean resumable => (s.closeImpl (if resumable then .resume else .normal)).1
      | _ => s
  | some .hello => s.greeted json
  | some .heartbeatAck => { s with lastHeartbeatAcked := true }
  | some .other | none => s

/-- The fields after a step. -/
def after (s : Shard W) (e : Event) : Shard W :=
  match e with
  | .nextEvent _ | .backoffExpired _ _ | .readFailed _ _ _ | .sendCompleted _ _
  | .closeCompleted _ _ => s
  | .connectFailed _ _ =>
      { s with reconnectAttempts := s.reconnectAttempts + 1, resumeGatewayUrl := none }
  | .connected _ _ =>
      { s with ws := some (match s.ws with | none => 0 | some socket => socket + 1) }
  | .message _ payload isBinary =>
      match s.received e with
      | some json => (s.decompressed payload isBinary).handled json
      | none => s
  | .timerExpired => s.timerExpired
  | .heartbeatExpired => { s with expired := s.expired - 1 }.heartbeatExpired
  | .heartbeatSent => { s with heartbeatSends := s.heartbeatSends - 1 }.heartbeatTick
  | .close reason => (s.closeImpl reason).1

variable {s s' : Shard W} {i : Nat}

/-- A payload is handled as if the inflater were another. -/
theorem after_message {payload : List UInt8} {isBinary : Bool} {json : Json}
    (hjson : s.received (.message i payload isBinary) = some json) :
    ∃ inflater, s.after (.message i payload isBinary) =
      { s with inflater := inflater }.handled json := by
  unfold after decompressed
  rw [hjson]
  dsimp only
  split
  · exact ⟨_, rfl⟩
  · exact ⟨s.inflater, rfl⟩

/-- A message that is not a payload is not handled. -/
theorem after_message_none {payload : List UInt8} {isBinary : Bool}
    (hjson : s.received (.message i payload isBinary) = none) :
    s.after (.message i payload isBinary) = s := by
  unfold after
  rw [hjson]

/-! ## The requests -/

theorem core_readOne : (s.readOne i).core = s.core := by
  unfold readOne
  split
  · rfl
  · rfl

theorem core_reconnectAsync : (s.reconnectAsync i).core = s.core := by
  unfold reconnectAsync
  split
  · rfl
  · rfl

theorem core_ensureConnectedThenRead (isOpen : Bool) :
    (s.ensureConnectedThenRead i isOpen).core = s.core := by
  unfold ensureConnectedThenRead
  split
  · split
    · rfl
    · exact core_reconnectAsync
  · exact core_readOne

theorem core_answer (r : Except Error (Shard W)) : (s.answer i r).core = (s.sentOr r).core := by
  cases r with
  | ok s' => rfl
  | error e => rfl

theorem core_closeFor (reason : CloseFrame) :
    (s.closeFor i reason).core = (s.closeImpl reason).1.core := by
  unfold closeFor
  split
  · next h => rw [h]; rfl
  · next h => rw [h]; rfl

/-! ## Payloads -/

theorem core_finishDispatch (sequence : Option UInt64) (eventType : String) (event : Json) :
    (s.finishDispatch i sequence eventType event).core = (s.sequenced sequence).core := by
  unfold finishDispatch sequenced
  dsimp only
  split
  · rfl
  · rfl

theorem core_handleDispatch (json : Json) :
    (s.handleDispatch i json).core = (s.dispatched json).core := by
  unfold handleDispatch dispatched accepts
  by_cases hdispatch : isDispatch json = true
  · rw [if_pos hdispatch, hdispatch, Bool.true_and]
    dsimp only
    by_cases hready : (json.get "t").text = "READY"
    · rw [if_pos hready, if_pos hready]
      cases haccepted : isReady (json.get "d") with
      | true =>
          rw [if_pos rfl, if_neg (by simp), core_finishDispatch]
          cases sequenceOf W.undefined json with
          | none => rfl
          | some sequence => rfl
      | false =>
          rw [if_neg (by simp), if_pos (by simp [hready])]
          rfl
    · rw [if_neg hready, if_neg hready, if_neg (by simp [hready])]
      exact core_finishDispatch _ _ _
  · rw [if_neg hdispatch, if_pos (by simp [hdispatch])]
    rfl

theorem core_handleJson (json : Json) : (s.handleJson i json).core = (s.handled json).core := by
  unfold handleJson handled
  cases opcodeOf W.undefined json with
  | none => rfl
  | some opcode =>
      cases opcode with
      | dispatch => exact core_handleDispatch json
      | heartbeat => exact core_answer _
      | reconnect => exact core_closeFor _
      | invalidSession =>
          cases json.get "d" with
          | boolean resumable => exact core_closeFor _
          | null | unsigned | integer | float | string | array | object => rfl
      | hello =>
          unfold handleHello greeted
          dsimp only
          cases intervalOf W.undefined json with
          | none => rfl
          | some interval =>
              dsimp only
              split
              · exact core_answer _
              · exact core_answer _
      | heartbeatAck => rfl
      | other => rfl

theorem core_handleGatewayPayload (data : List UInt8) :
    (s.handleGatewayPayload i data).core =
      (match W.parse data with
      | some json => s.handled json
      | none => s).core := by
  unfold handleGatewayPayload
  cases W.parse data with
  | none => rfl
  | some json => exact core_handleJson json

theorem core_onMessage (payload : List UInt8) (isBinary : Bool) :
    (s.onMessage i payload isBinary).core = (s.after (.message i payload isBinary)).core := by
  unfold onMessage after received decompressed
  cases s.inflater with
  | none => exact core_handleGatewayPayload payload
  | some inflater =>
      cases isBinary with
      | false => exact core_handleGatewayPayload payload
      | true =>
          dsimp only
          cases hinflate : inflater.inflate payload with
          | mk inflater' result =>
              cases result with
              | none => rfl
              | some data =>
                  rw [Option.bind_some, core_handleGatewayPayload]
                  cases W.parse data with
                  | none => rfl
                  | some json => rfl

/-! ## Steps -/

/-- A step is a handler that was due. -/
theorem step_cases {e : Event} (hstep : s.step e = some s') : s.Due e ∧ s' = s.ran e := by
  cases e with
  | nextEvent | close => exact ⟨trivial, (Option.some.inj hstep).symm⟩
  | backoffExpired | connectFailed | connected =>
      simp only [step] at hstep
      split at hstep
      · next hphase => exact ⟨⟨_, hphase⟩, (Option.some.inj hstep).symm⟩
      · simp at hstep
  | message | readFailed | sendCompleted | closeCompleted | timerExpired =>
      simp only [step] at hstep
      split at hstep
      · next hdue => exact ⟨hdue, (Option.some.inj hstep).symm⟩
      · simp at hstep
  | heartbeatExpired | heartbeatSent =>
      simp only [step] at hstep
      split at hstep
      · simp at hstep
      · next hdue => exact ⟨hdue, (Option.some.inj hstep).symm⟩

/-- **A step**, up to the requests and the inflater. -/
theorem step_core {e : Event} (hstep : s.step e = some s') : s'.core = (s.after e).core := by
  obtain ⟨-, rfl⟩ := step_cases hstep
  cases e with
  | nextEvent isOpen => exact core_ensureConnectedThenRead isOpen
  | backoffExpired i e =>
      unfold ran backoffExpired
      dsimp only
      split
      · rfl
      · split
        · rfl
        · rfl
  | connected i created =>
      unfold ran connected after
      dsimp only
      split
      · split
        · exact core_readOne
        · rfl
      · exact core_readOne
  | message i payload isBinary => exact core_onMessage payload isBinary
  | readFailed i e isOpen =>
      unfold ran onReadError
      dsimp only
      split
      · rfl
      · split
        · rfl
        · exact core_ensureConnectedThenRead isOpen
  | connectFailed | sendCompleted | closeCompleted | timerExpired | heartbeatExpired
  | heartbeatSent | close => rfl

/-- A step, for a field that requests and messages do not share. -/
theorem step_field {α : Type} (field : Shard W → α) {e : Event}
    (hfield : ∀ t : Shard W, field t.core = field t) (hstep : s.step e = some s') :
    field s' = field (s.after e) := by
  rw [← hfield s', step_core hstep, hfield]

/-! ## What an operation leaves alone -/

theorem sentOr_send (command : Command) : s.sentOr (s.send command) = s.delivered command := by
  cases hws : s.ws with
  | none => simp only [send, delivered, hws, sentOr]
  | some socket => simp only [send, delivered, hws, sentOr]

theorem sentOr_sendResumeAsync :
    s.sentOr s.sendResumeAsync =
      match s.session with
      | none => s
      | some session => s.delivered (.resume W.token session.id session.sequence) := by
  unfold sendResumeAsync
  split
  · next hws =>
      unfold delivered
      rw [hws]
      split
      · rfl
      · rfl
  · next hsession => rw [hsession]; rfl
  · next hsession => rw [hsession]; exact sentOr_send _

theorem delivered_frame (command : Command) :
    ∃ sent, s.delivered command = { s with sent := sent } := by
  unfold delivered
  split
  · exact ⟨s.sent, rfl⟩
  · exact ⟨_, rfl⟩

theorem heartbeatTick_frame : ∃ waiting, s.heartbeatTick = { s with waiting := waiting } := by
  unfold heartbeatTick
  split
  · exact ⟨s.waiting, rfl⟩
  · exact ⟨true, rfl⟩

theorem startHeartbeat_frame (interval : UInt32) :
    ∃ heartbeatInterval timer heartbeatRunning waiting, s.startHeartbeat interval =
      { s with
        heartbeatInterval := heartbeatInterval
        timer := timer
        heartbeatRunning := heartbeatRunning
        waiting := waiting } := by
  unfold startHeartbeat
  split
  · exact ⟨s.heartbeatInterval, s.timer, s.heartbeatRunning, s.waiting, rfl⟩
  · exact ⟨interval, true, true, true, rfl⟩

theorem beat_frame :
    ∃ waiting heartbeatSends sent, s.beat =
      { s with
        lastHeartbeatAcked := false
        waiting := waiting
        heartbeatSends := heartbeatSends
        sent := sent } := by
  unfold beat sendHeartbeatAsync send
  dsimp only
  split
  · next hws =>
      split at hws
      · simp at hws
      · obtain rfl := Except.ok.inj hws
        exact ⟨s.waiting, s.heartbeatSends + 1, _, rfl⟩
  · obtain ⟨waiting, htick⟩ := heartbeatTick_frame (s := { s with lastHeartbeatAcked := false })
    exact ⟨waiting, s.heartbeatSends, s.sent, htick⟩

theorem dispatched_frame (json : Json) :
    ∃ session url, s.dispatched json =
      { s with session := session, resumeGatewayUrl := url } := by
  unfold dispatched
  split
  · exact ⟨s.session, s.resumeGatewayUrl, rfl⟩
  · split
    · exact ⟨_, _, rfl⟩
    · unfold sequenced
      split
      · exact ⟨_, s.resumeGatewayUrl, rfl⟩
      · exact ⟨s.session, s.resumeGatewayUrl, rfl⟩

theorem greeted_frame (json : Json) :
    ∃ heartbeatInterval timer heartbeatRunning waiting sent, s.greeted json =
      { s with
        lastHeartbeatAcked := true
        heartbeatInterval := heartbeatInterval
        timer := timer
        heartbeatRunning := heartbeatRunning
        waiting := waiting
        sent := sent } := by
  unfold greeted
  dsimp only
  cases intervalOf W.undefined json with
  | none =>
      exact ⟨s.heartbeatInterval, s.timer, s.heartbeatRunning, s.waiting, s.sent, rfl⟩
  | some interval =>
      dsimp only
      obtain ⟨heartbeatInterval, timer, running, waiting, hstart⟩ :=
        startHeartbeat_frame (s := { s with lastHeartbeatAcked := true }) interval
      rw [hstart]
      refine ⟨heartbeatInterval, timer, running, waiting, ?_⟩
      split
      · rw [sentOr_sendResumeAsync]
        split
        · exact ⟨s.sent, rfl⟩
        · obtain ⟨sent, hsent⟩ := delivered_frame (W := W) _
          exact ⟨sent, hsent⟩
      · obtain ⟨sent, hsent⟩ := delivered_frame (W := W) _
        exact ⟨sent, (sentOr_send _).trans hsent⟩

/-- **What a close changes.** -/
theorem closeImpl_fst (reason : CloseFrame) :
    (s.closeImpl reason).1 =
      { s with
        intentionalClose := s.intentionalClose || reason.isIntentional
        resumeGatewayUrl := if reason.isIntentional then none else s.resumeGatewayUrl
        session := if reason.isIntentional then none else s.session
        heartbeatRunning := if s.timer then false else s.heartbeatRunning
        timer := false
        waiting := if s.timer then false else s.waiting
        closed :=
          match s.ws with
          | none => s.closed
          | some socket => (socket, reason) :: s.closed } := by
  unfold closeImpl
  obtain ⟨_, _, _, _, _, ws, _, _, flag, _, timer, _, _, _, _, _, _, _⟩ := s
  cases reason.isIntentional with
  | true =>
      cases timer with
      | true => cases ws <;> simp
      | false => cases ws <;> simp
  | false =>
      cases timer with
      | true => cases ws <;> simp
      | false => cases ws <;> simp

theorem handled_frame (json : Json) :
    ∃ acked interval session url running intentional timer waiting sent closed,
      s.handled json =
        { s with
          lastHeartbeatAcked := acked
          heartbeatInterval := interval
          session := session
          resumeGatewayUrl := url
          heartbeatRunning := running
          intentionalClose := intentional
          timer := timer
          waiting := waiting
          sent := sent
          closed := closed } := by
  unfold handled
  split
  · obtain ⟨session, url, hframe⟩ := dispatched_frame (s := s) json
    exact ⟨_, _, session, url, _, _, _, _, _, _, hframe⟩
  · obtain ⟨sent, hframe⟩ := delivered_frame (s := s) (.heartbeat (s.session.map (·.sequence)))
    exact ⟨_, _, _, _, _, _, _, _, sent, _, (sentOr_send _).trans hframe⟩
  · exact ⟨_, _, _, _, _, _, _, _, _, _, closeImpl_fst _⟩
  · split
    · exact ⟨_, _, _, _, _, _, _, _, _, _, closeImpl_fst _⟩
    · exact ⟨_, _, _, _, _, _, _, _, _, _, rfl⟩
  · obtain ⟨interval, timer, running, waiting, sent, hframe⟩ := greeted_frame (s := s) json
    exact ⟨_, interval, _, _, running, _, timer, waiting, sent, _, hframe⟩
  · exact ⟨true, _, _, _, _, _, _, _, _, _, rfl⟩
  · exact ⟨_, _, _, _, _, _, _, _, _, _, rfl⟩
  · exact ⟨_, _, _, _, _, _, _, _, _, _, rfl⟩

/-- **What an expiry of the heartbeat timer does**: nothing, the close of a dead
connection, a heartbeat after a miss, or a heartbeat. -/
theorem heartbeatExpired_cases :
    ((s.heartbeatRunning = false ∨ s.ws = none) ∧ s.heartbeatExpired = s) ∨
    (s.heartbeatRunning = true ∧ s.ws.isSome = true) ∧
      ((s.lastHeartbeatAcked = false ∧ maxMissedHeartbeats ≤ s.missedHeartbeats + 1 ∧
          s.heartbeatExpired =
            ({ s with
              missedHeartbeats := s.missedHeartbeats + 1
              heartbeatRunning := false }.closeImpl .sessionExpired).1) ∨
        (s.lastHeartbeatAcked = false ∧ s.missedHeartbeats + 1 < maxMissedHeartbeats ∧
          s.heartbeatExpired = { s with missedHeartbeats := s.missedHeartbeats + 1 }.beat) ∨
        (s.lastHeartbeatAcked = true ∧
          s.heartbeatExpired = { s with missedHeartbeats := 0 }.beat)) := by
  unfold heartbeatExpired
  by_cases hrunning : s.heartbeatRunning = false
  · exact .inl ⟨.inl hrunning, if_pos hrunning⟩
  · rw [if_neg hrunning]
    by_cases hws : s.ws.isNone = true
    · exact .inl ⟨.inr (Option.isNone_iff_eq_none.mp hws), if_pos hws⟩
    · rw [if_neg hws]
      refine .inr ⟨⟨by simpa using hrunning, by simpa [Option.isSome_iff_ne_none] using hws⟩, ?_⟩
      by_cases hacked : s.lastHeartbeatAcked = false
      · rw [if_pos hacked]
        by_cases hmissed : maxMissedHeartbeats ≤ s.missedHeartbeats + 1
        · exact .inl ⟨hacked, hmissed, if_pos hmissed⟩
        · exact .inr (.inl ⟨hacked, by omega, if_neg hmissed⟩)
      · rw [if_neg hacked]
        exact .inr (.inr ⟨by simpa using hacked, rfl⟩)

theorem heartbeatExpired_frame :
    ∃ acked running missed timer waiting sends sent closed,
      s.heartbeatExpired =
        { s with
          lastHeartbeatAcked := acked
          heartbeatRunning := running
          missedHeartbeats := missed
          timer := timer
          waiting := waiting
          heartbeatSends := sends
          sent := sent
          closed := closed } := by
  rcases heartbeatExpired_cases (s := s) with ⟨-, h⟩ | ⟨-, ⟨-, -, h⟩ | ⟨-, -, h⟩ | ⟨-, h⟩⟩
  · exact ⟨_, _, _, _, _, _, _, _, h⟩
  · have hcode : CloseFrame.sessionExpired.isIntentional = false := by decide
    rw [h, closeImpl_fst]
    simp only [hcode, Bool.or_false, Bool.false_eq_true, if_false]
    exact ⟨_, _, _, _, _, _, _, _, rfl⟩
  · obtain ⟨waiting, sends, sent, hframe⟩ :=
      beat_frame (s := { s with missedHeartbeats := s.missedHeartbeats + 1 })
    exact ⟨_, _, _, _, waiting, sends, sent, _, h.trans hframe⟩
  · obtain ⟨waiting, sends, sent, hframe⟩ :=
      beat_frame (s := { s with missedHeartbeats := 0 })
    exact ⟨_, _, _, _, waiting, sends, sent, _, h.trans hframe⟩

/-- Only a connection changes the websocket. -/
theorem step_ws {e : Event} (hstep : s.step e = some s') :
    s'.ws =
      match e with
      | .connected _ _ => some (match s.ws with | none => 0 | some socket => socket + 1)
      | _ => s.ws := by
  rw [step_field (·.ws) (fun _ => rfl) hstep]
  cases e with
  | message i payload isBinary =>
      cases hjson : s.received (.message i payload isBinary) with
      | none => rw [after_message_none hjson]
      | some json =>
          obtain ⟨inflater, hafter⟩ := after_message hjson
          obtain ⟨_, _, _, _, _, _, _, _, _, _, hframe⟩ :=
            handled_frame (s := { s with inflater := inflater }) json
          rw [hafter, hframe]
  | heartbeatExpired =>
      obtain ⟨_, _, _, _, _, _, _, _, hframe⟩ :=
        heartbeatExpired_frame (s := { s with expired := s.expired - 1 })
      simp only [after, hframe]
  | heartbeatSent =>
      obtain ⟨waiting, hframe⟩ :=
        heartbeatTick_frame (s := { s with heartbeatSends := s.heartbeatSends - 1 })
      simp only [after, hframe]
  | close reason => simp only [after, closeImpl_fst]
  | nextEvent | backoffExpired | connectFailed | connected | readFailed | sendCompleted
  | closeCompleted | timerExpired => rfl

/-- A close fails where there is no websocket. -/
theorem closeImpl_snd (reason : CloseFrame) :
    (s.closeImpl reason).2 = if s.ws.isNone then some .notConnected else none := by
  unfold closeImpl
  obtain ⟨_, _, _, _, _, ws, _, _, flag, _, timer, _, _, _, _, _, _, _⟩ := s
  cases reason.isIntentional with
  | true =>
      cases timer with
      | true => cases ws <;> simp
      | false => cases ws <;> simp
  | false =>
      cases timer with
      | true => cases ws <;> simp
      | false => cases ws <;> simp

end Ekizu.Gateway.Shard
