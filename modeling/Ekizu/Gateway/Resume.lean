import Ekizu.Gateway.IntentionalClose
import Ekizu.Gateway.Requests
import Ekizu.Gateway.Sends

/-!
# Resuming a session

A READY starts a session, every Dispatch after it moves its sequence, and a
normal close ends it.  A Hello is answered with a Resume where there is a
session, and with an Identify elsewhere.

## Main results

* `session_eq` — the session of a shard, read off the steps of its run.
* `bookkept` — what the heartbeats and the answers to a Hello carry.
* `resume_unsigned` — a sequence that is no unsigned number, and a Hello that is
  not answered.
-/

namespace Ekizu.Gateway.Shard

open Lib Lib.Runs

variable {W : Setting} {s s' : Shard W}

/-! ## The session of a run -/

/-- The Dispatch that a step accepts. -/
def accepted (t : Taken (Shard W) Event) : Option Json :=
  (t.pre.received t.event).filter fun json =>
    decide (opcodeOf W.undefined json = some .dispatch) && accepts json

/-- The step closes with a normal or a going-away code. -/
def clears (t : Taken (Shard W) Event) : Bool :=
  match t.event with
  | .close reason => reason.isIntentional
  | _ =>
      match t.pre.received t.event with
      | some json => invalidates W json
      | none => false

/-- A READY. -/
def startsSession (json : Json) : Bool := (json.get "t").text = "READY"

/-- The Dispatches accepted since the last such close, the last first. -/
def dispatches (trace : List (Taken (Shard W) Event)) : List Json :=
  (trace.takeWhile fun t => !clears t).filterMap accepted

/-- The session of those Dispatches: the id of the latest READY, and the `s` of the
latest Dispatch since it, itself included, that has a number there. -/
def sessionOf (undefined : Rat → UInt64) (dispatches : List Json) : Option Session :=
  (dispatches.find? startsSession).map fun ready =>
    { id := ((ready.get "d").get "session_id").text
      sequence :=
        ((dispatches.takeWhile (!startsSession ·) ++ [ready]).findSome?
          (sequenceOf undefined)).getD 0 }

/-- The session that a run can resume. -/
def resumption (trace : List (Taken (Shard W) Event)) : Option Session :=
  sessionOf W.undefined (dispatches trace)

theorem dispatches_cons (t : Taken (Shard W) Event) (trace : List (Taken (Shard W) Event)) :
    dispatches (t :: trace) =
      if clears t then [] else (accepted t).toList ++ dispatches trace := by
  unfold dispatches
  by_cases hclears : clears t = true
  · simp [hclears]
  · rw [if_neg hclears, List.takeWhile_cons, if_pos (by simpa using hclears), List.filterMap_cons]
    cases accepted t with
    | none => rfl
    | some json => rfl

theorem sessionOf_ready {undefined : Rat → UInt64} {json : Json} (older : List Json)
    (hready : startsSession json = true) :
    sessionOf undefined (json :: older) =
      some ⟨((json.get "d").get "session_id").text, (sequenceOf undefined json).getD 0⟩ := by
  unfold sessionOf
  rw [List.find?_cons_of_pos hready, List.takeWhile_cons_of_neg (by simp [hready])]
  cases hsequence : sequenceOf undefined json with
  | none => simp [hsequence]
  | some sequence => simp [hsequence]

theorem sessionOf_other {undefined : Rat → UInt64} {json : Json} (older : List Json)
    (hready : startsSession json = false) :
    sessionOf undefined (json :: older) =
      (sessionOf undefined older).map fun session =>
        { session with sequence := (sequenceOf undefined json).getD session.sequence } := by
  unfold sessionOf
  rw [List.find?_cons_of_neg (by simp [hready]), List.takeWhile_cons_of_pos (by simp [hready])]
  cases older.find? startsSession with
  | none => rfl
  | some ready =>
      cases hsequence : sequenceOf undefined json with
      | none => simp [hsequence]
      | some sequence => simp [hsequence]

/-! ## One step -/

theorem sequenced_session (sequence : Option UInt64) :
    (s.sequenced sequence).session =
      s.session.map fun session =>
        { session with sequence := sequence.getD session.sequence } := by
  unfold sequenced
  cases hsession : s.session with
  | none => exact hsession
  | some session =>
      cases sequence with
      | none => exact hsession
      | some sequence => rfl

/-- The session after a Dispatch. -/
theorem dispatched_session {json : Json} {older : List Json}
    (hbefore : s.session = sessionOf W.undefined older) :
    (s.dispatched json).session =
      sessionOf W.undefined (if accepts json then json :: older else older) := by
  unfold dispatched
  by_cases haccepts : accepts json = true
  · rw [haccepts, if_neg (by simp), if_pos rfl]
    by_cases hready : (json.get "t").text = "READY"
    · rw [if_pos hready, sessionOf_ready older (by simpa [startsSession] using hready)]
    · rw [if_neg hready, sessionOf_other older (by simpa [startsSession] using hready),
        sequenced_session, hbefore]
  · rw [if_pos (by simpa using haccepts), if_neg haccepts]
    exact hbefore

/-- The session after a payload. -/
theorem handled_session {json : Json} {older : List Json}
    (hbefore : s.session = sessionOf W.undefined older) :
    (s.handled json).session =
      if invalidates W json then none
      else sessionOf W.undefined
        (if opcodeOf W.undefined json = some .dispatch ∧ accepts json = true then json :: older
        else older) := by
  unfold handled invalidates
  cases opcodeOf W.undefined json with
  | none => simpa using hbefore
  | some opcode =>
      cases opcode with
      | dispatch => simpa using dispatched_session hbefore
      | heartbeat =>
          obtain ⟨sent, hframe⟩ :=
            delivered_frame (s := s) (.heartbeat (s.session.map (·.sequence)))
          simpa [sendHeartbeatAsync, sentOr_send, hframe] using hbefore
      | reconnect =>
          simpa [closeImpl_fst, CloseFrame.isIntentional, CloseFrame.resume] using hbefore
      | invalidSession =>
          cases json.get "d" with
          | boolean resumable =>
              cases resumable with
              | true =>
                  simpa [closeImpl_fst, CloseFrame.isIntentional, CloseFrame.resume] using hbefore
              | false => simp [closeImpl_fst, CloseFrame.isIntentional, CloseFrame.normal]
          | null | unsigned | integer | float | string | array | object => simpa using hbefore
      | hello =>
          obtain ⟨interval, timer, running, waiting, sent, hframe⟩ := greeted_frame (s := s) json
          simpa [hframe] using hbefore
      | heartbeatAck => simpa using hbefore
      | other => simpa using hbefore

/-- A step keeps track of the session. -/
theorem step_session {e : Event} {trace : List (Taken (Shard W) Event)}
    (hstep : s.step e = some s') (hbefore : s.session = resumption trace) :
    s'.session = resumption (⟨s, e, s'⟩ :: trace) := by
  rw [step_field (·.session) (fun _ => rfl) hstep, resumption, dispatches_cons]
  unfold resumption at hbefore
  have hquiet : s.received e = none → clears ⟨s, e, s'⟩ = false → s.session =
      sessionOf W.undefined
        (if clears ⟨s, e, s'⟩ then [] else (accepted ⟨s, e, s'⟩).toList ++ dispatches trace) := by
    intro hreceived hclears
    rw [hclears, if_neg (by simp), accepted, hreceived]
    exact hbefore
  cases e with
  | message i payload isBinary =>
      cases hjson : s.received (.message i payload isBinary) with
      | none =>
          rw [after_message_none hjson]
          exact hquiet hjson (by simp [clears, hjson])
      | some json =>
          obtain ⟨inflater, hafter⟩ := after_message hjson
          rw [hafter, handled_session (s := { s with inflater := inflater }) hbefore]
          simp only [clears, accepted, hjson, Option.filter_some]
          by_cases hinvalidates : invalidates W json = true
          · rw [if_pos hinvalidates, if_pos hinvalidates]
            rfl
          · rw [if_neg hinvalidates, if_neg hinvalidates]
            by_cases haccepted : opcodeOf W.undefined json = some .dispatch ∧ accepts json = true
            · rw [if_pos haccepted, if_pos (by simpa using haccepted)]
              rfl
            · rw [if_neg haccepted, if_neg (by simpa using haccepted)]
              rfl
  | heartbeatExpired =>
      obtain ⟨_, _, _, _, _, _, _, _, hframe⟩ :=
        heartbeatExpired_frame (s := { s with expired := s.expired - 1 })
      simp only [after, hframe]
      exact hquiet rfl rfl
  | heartbeatSent =>
      obtain ⟨waiting, hframe⟩ :=
        heartbeatTick_frame (s := { s with heartbeatSends := s.heartbeatSends - 1 })
      simp only [after, hframe]
      exact hquiet rfl rfl
  | close reason =>
      simp only [after, closeImpl_fst]
      by_cases hintentional : reason.isIntentional = true
      · have hclears : clears ⟨s, .close reason, s'⟩ = true := hintentional
        rw [if_pos hintentional, if_pos hclears]
        rfl
      · rw [if_neg hintentional]
        exact hquiet rfl (by simpa [clears] using hintentional)
  | nextEvent | backoffExpired | connectFailed | connected | readFailed | sendCompleted
  | closeCompleted | timerExpired => exact hquiet rfl rfl

/-- **The session** of a shard. -/
theorem session_eq {trace : List (Taken (Shard W) Event)} (hrun : (machine W).Run trace s) :
    s.session = resumption trace := by
  induction hrun with
  | start => rfl
  | step hrun hstep ih => exact step_session hstep ih

/-! ## Requests that read -/

/-- A request reads from a websocket that there is. -/
theorem outcome_reading {e : Event} {i : Nat} {o : Outcome}
    (houtcome : s.outcome e = some (i, o)) (hphase : o.phase = .reading) :
    s.ws.isSome = true ∨ ∃ created, e = .connected i created := by
  rcases outcome_connects houtcome (.inr hphase) with ⟨isOpen, rfl⟩ | ⟨-, hconnected⟩
  · unfold connectOutcome at hphase
    split at hphase
    · split at hphase
      · simp [Outcome.phase] at hphase
      · simp [Outcome.phase] at hphase
    · next hopen =>
        rw [not_or] at hopen
        left
        simpa [Option.isSome_iff_ne_none] using hopen.1
  · exact .inr hconnected

/-- A request that reads has a websocket to read from. -/
theorem reading_ws (h : (machine W).Reachable s) :
    ∀ i, s.phase i = .reading → s.ws.isSome = true := by
  refine h.invariant (P := fun s => ∀ i, s.phase i = .reading → s.ws.isSome = true) ?_ ?_
  · intro i hphase
    simp [phase, machine] at hphase
  · intro s e s' hs hstep i hphase
    have hws : s.ws.isSome = true → s'.ws.isSome = true := by
      intro hsome
      rw [step_ws hstep]
      cases e <;> first | exact hsome | rfl
    rcases step_phase hstep i with hsame | ⟨o, houtcome, ho | hover⟩
    · exact hws (hs i (hsame ▸ hphase))
    · rcases outcome_reading houtcome (ho ▸ hphase) with hsome | ⟨created, rfl⟩
      · exact hws hsome
      · have hconnected : s.step (.connected i created) = some s' := hstep
        rw [step_ws hconnected]
        rfl
    · rw [hover] at hphase
      simp at hphase

/-! ## What is sent -/

/-- A Hello with its interval. -/
def isHello (W : Setting) (json : Json) : Prop :=
  opcodeOf W.undefined json = some .hello ∧ (intervalOf W.undefined json).isSome = true

/-- A step sends what the steps before it ask for. -/
structure Bookkept (before : List (Taken (Shard W) Event)) (t : Taken (Shard W) Event) : Prop where
  /-- A heartbeat carries the sequence of the session. -/
  heartbeats : ∀ socket d, (socket, Command.heartbeat d) ∈ sentIn t →
    d = (resumption before).map (·.sequence)
  /-- A Resume carries the session. -/
  resumes : ∀ socket token id seq, (socket, Command.resume token id seq) ∈ sentIn t →
    token = W.token ∧ resumption before = some ⟨id, seq⟩
  /-- A Hello is answered with a Resume where there is a session, or with an Identify. -/
  hellos : ∀ json, t.pre.received t.event = some json → isHello W json →
    ∃ socket, sentIn t =
      [(socket,
        match resumption before with
        | some session => .resume W.token session.id session.sequence
        | none => .identify W.token W.id W.shardCount (if W.isBot then some W.intents else none))]
  /-- Nothing else is. -/
  others : ∀ sent ∈ sentIn t, (∃ d, sent.2 = .heartbeat d) ∨
    ∃ json, t.pre.received t.event = some json ∧ isHello W json

/-- What a step sends is a heartbeat, or the answer to a Hello. -/
theorem command_cases {e : Event} {command : Command} (h : s.command e = some command) :
    command = s.heartbeat ∨
      command = s.greeting ∧ ∃ json, s.received e = some json ∧ isHello W json := by
  cases e with
  | message i payload isBinary =>
      obtain ⟨json, hjson, hreply⟩ := Option.bind_eq_some_iff.mp h
      unfold reply at hreply
      split at hreply
      · exact .inl (Option.some.inj hreply).symm
      · next hopcode =>
          split at hreply
          · next hinterval =>
              exact .inr ⟨(Option.some.inj hreply).symm, json, hjson, hopcode, hinterval⟩
          · simp at hreply
      · simp at hreply
  | heartbeatExpired =>
      simp only [Shard.command] at h
      split at h
      · exact .inl (Option.some.inj h).symm
      · simp at h
  | nextEvent | backoffExpired | connectFailed | connected | readFailed | sendCompleted
  | closeCompleted | timerExpired | heartbeatSent | close => simp [Shard.command] at h

/-- What is sent in a step is its command. -/
theorem mem_sentIn {e : Event} (hstep : s.step e = some s') {socket : Nat} {command : Command}
    (h : (socket, command) ∈ sentIn ⟨s, e, s'⟩) : s.command e = some command := by
  rw [sentIn_eq hstep] at h
  split at h
  · next hcommand =>
      obtain ⟨-, rfl⟩ := Prod.mk.inj (List.mem_singleton.mp h)
      exact hcommand
  · simp at h

/-- A Hello is answered. -/
theorem sentIn_hello {i : Nat} {payload : List UInt8} {isBinary : Bool} {json : Json}
    (hreach : (machine W).Reachable s)
    (hstep : s.step (.message i payload isBinary) = some s')
    (hjson : s.received (.message i payload isBinary) = some json) (hhello : isHello W json) :
    ∃ socket, sentIn ⟨s, .message i payload isBinary, s'⟩ = [(socket, s.greeting)] := by
  have hreading : s.phase i = .reading := (step_cases hstep).1
  obtain ⟨socket, hws⟩ := Option.isSome_iff_exists.mp (reading_ws hreach i hreading)
  have hcommand : s.command (.message i payload isBinary) = some s.greeting := by
    simp only [Shard.command, hjson, Option.bind_some, reply, hhello.1, hhello.2, if_true]
  refine ⟨socket, ?_⟩
  rw [sentIn_eq hstep, hws, hcommand]

/-- **Resume bookkeeping.**  In every run, every step sends what the steps before it
ask for. -/
theorem bookkept {trace : List (Taken (Shard W) Event)} (hrun : (machine W).Run trace s) :
    Throughout Bookkept trace := by
  induction hrun with
  | start => trivial
  | @step trace s s' e hrun hstep ih =>
      have hsession := session_eq hrun
      refine ⟨⟨?_, ?_, ?_, ?_⟩, ih⟩
      · intro socket d hsent
        rcases command_cases (mem_sentIn hstep hsent) with hbeat | ⟨hgreeting, -⟩
        · rw [← hsession]
          exact Command.heartbeat.inj hbeat
        · unfold greeting at hgreeting
          split at hgreeting <;> simp at hgreeting
      · intro socket token id seq hsent
        rcases command_cases (mem_sentIn hstep hsent) with hbeat | ⟨hgreeting, -⟩
        · simp [heartbeat] at hbeat
        · unfold greeting at hgreeting
          split at hgreeting
          · next session hsome =>
              obtain ⟨rfl, rfl, rfl⟩ := Command.resume.inj hgreeting
              exact ⟨rfl, hsession.symm.trans hsome⟩
          · simp at hgreeting
      · intro json hjson hhello
        rw [← hsession]
        cases e with
        | message i payload isBinary => exact sentIn_hello ⟨trace, hrun⟩ hstep hjson hhello
        | nextEvent | backoffExpired | connectFailed | connected | readFailed | sendCompleted
        | closeCompleted | timerExpired | heartbeatExpired | heartbeatSent | close =>
            simp [received] at hjson
      · intro sent hsent
        rcases command_cases (mem_sentIn hstep hsent) with hbeat | ⟨-, hhello⟩
        · exact .inl ⟨_, hbeat⟩
        · exact .inr hhello

/-- A Dispatch with a negative sequence:
`{"op":0,"t":"TYPING_START","s":-1,"d":{"timestamp":7}}`. -/
def negativeText : List UInt8 :=
  [123, 34, 111, 112, 34, 58, 48, 44, 34, 116, 34, 58, 34, 84, 89, 80, 73, 78, 71, 95, 83, 84, 65,
    82, 84, 34, 44, 34, 115, 34, 58, 45, 49, 44, 34, 100, 34, 58, 123, 34, 116, 105, 109, 101,
    115, 116, 97, 109, 112, 34, 58, 55, 125, 125]

/-- A Hello without an interval: `{"op":10}`. -/
def bareHelloText : List UInt8 :=
  [123, 34, 111, 112, 34, 58, 49, 48, 125]

/-- The two, as the parser knows them. -/
def oddPayloads : List (List UInt8 × Json) :=
  [(negativeText, .object
      [("d", .object [("timestamp", .unsigned 7)]), ("op", .unsigned 0), ("s", .integer (-1)),
        ("t", .string "TYPING_START")]),
    (bareHelloText, .object [("op", .unsigned 10)])]

abbrev oddMachine : Machine (Shard (referenceSetting oddPayloads)) Event :=
  referenceMachine oddPayloads

/-- A session that is resumed after a read error. -/
theorem bookkept_resumed :
    Throughout Bookkept
      (oddMachine.recorded
        (connects 0 ++ [.message 0 helloText false, .sendCompleted 0 none] ++
          receives 1 readyText ++ receives 2 typingText ++
          [.nextEvent true, .readFailed 3 .eof false, .backoffExpired 3 none, .connected 3 true,
            .message 3 helloText false])).1 :=
  bookkept (oddMachine.run_recorded _ (by decide +kernel))

/-- The latest Dispatch carries the sequence -1, and the Resume after it 2 ^ 64 - 1.  After
a Hello without an interval nothing is sent although there is a session. -/
theorem resume_unsigned :
    (∃ t before s, oddMachine.Run (t :: before) s ∧
      ((dispatches before).head?.map fun json =>
        match json.get "s" with
        | .integer sequence => sequence
        | _ => 0) = some (-1) ∧
      sentIn t = [(1, .resume "token" "a1" 18446744073709551615)]) ∧
    ∃ t before s, oddMachine.Run (t :: before) s ∧ (resumption before).isSome = true ∧
      (t.pre.received t.event).map (opcodeOf fun _ => 0) = some (some .hello) ∧
      sentIn t = [] := by
  have hnegative := oddMachine.run_recorded
    (connects 0 ++ [.message 0 readyText false] ++ receives 1 negativeText ++
      [.nextEvent true, .readFailed 2 .eof false, .backoffExpired 2 none, .connected 2 true,
        .message 2 helloText false]) (by decide +kernel)
  have hbare := oddMachine.run_recorded
    (connects 0 ++ [.message 0 readyText false] ++ receives 1 bareHelloText) (by decide +kernel)
  exact ⟨⟨_, _, _, hnegative, by decide +kernel, by decide +kernel⟩,
    ⟨_, _, _, hbare, by decide +kernel, by decide +kernel, by decide +kernel⟩⟩

end Ekizu.Gateway.Shard
