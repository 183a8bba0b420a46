import Ekizu.Gateway.Steps

/-!
# What a step sends

A step hands at most one payload to the websocket: the heartbeat of the timer or
of a request for one, and the answer to a Hello.

## Main results

* `step_sent` — the payloads after a step.
* `sentIn_eq` — the same, for a step of a run.
-/

namespace Ekizu.Gateway.Shard

open Lib Lib.Runs

variable {W : Setting} {s s' : Shard W}

/-- A heartbeat of a shard. -/
def heartbeat (s : Shard W) : Command := .heartbeat (s.session.map (·.sequence))

/-- The answer to a Hello. -/
def greeting (s : Shard W) : Command :=
  match s.session with
  | some session => .resume W.token session.id session.sequence
  | none => .identify W.token W.id W.shardCount (if W.isBot then some W.intents else none)

/-- The answer to a payload. -/
def reply (s : Shard W) (json : Json) : Option Command :=
  match opcodeOf W.undefined json with
  | some .heartbeat => some s.heartbeat
  | some .hello => if (intervalOf W.undefined json).isSome then some s.greeting else none
  | _ => none

/-- The timer finds the connection alive. -/
def beats (s : Shard W) : Bool :=
  s.heartbeatRunning && s.ws.isSome &&
    (s.lastHeartbeatAcked || decide (s.missedHeartbeats + 1 < maxMissedHeartbeats))

/-- What the handler of an event sends. -/
def command (s : Shard W) (e : Event) : Option Command :=
  match e with
  | .message _ _ _ => (s.received e).bind s.reply
  | .heartbeatExpired => if s.beats then some s.heartbeat else none
  | _ => none

/-- The payloads handed to the websockets in a step. -/
def sentIn (t : Taken (Shard W) Event) : List (Nat × Command) :=
  t.post.sent.take (t.post.sent.length - t.pre.sent.length)

/-! ## One step -/

/-- The payloads after one more. -/
def adding (s : Shard W) (command : Option Command) : List (Nat × Command) :=
  match s.ws, command with
  | some socket, some command => (socket, command) :: s.sent
  | _, _ => s.sent

theorem adding_none (s : Shard W) : s.adding none = s.sent := by
  unfold adding
  cases s.ws with
  | none => rfl
  | some socket => rfl

theorem delivered_sent (command : Command) :
    (s.delivered command).sent = s.adding (some command) := by
  unfold delivered adding
  cases s.ws with
  | none => rfl
  | some socket => rfl

theorem greeted_sent (json : Json) :
    (s.greeted json).sent =
      s.adding (if (intervalOf W.undefined json).isSome then some s.greeting else none) := by
  unfold greeted greeting
  dsimp only
  cases hinterval : intervalOf W.undefined json with
  | none =>
      simp only [Option.isSome_none, Bool.false_eq_true, if_false]
      exact s.adding_none.symm
  | some interval =>
      obtain ⟨_, _, _, _, hstart⟩ :=
        startHeartbeat_frame (s := { s with lastHeartbeatAcked := true }) interval
      simp only [Option.isSome_some, if_true]
      rw [hstart]
      cases hsession : s.session with
      | some session =>
          simp only [Option.isSome_some, if_true, sentOr_sendResumeAsync, delivered_sent]
          rfl
      | none =>
          simp only [Option.isSome_none, Bool.false_eq_true, if_false, sendIdentifyAsync,
            sentOr_send, delivered_sent]
          rfl

theorem handled_sent (json : Json) : (s.handled json).sent = s.adding (s.reply json) := by
  have hnothing := s.adding_none
  unfold handled reply
  cases opcodeOf W.undefined json with
  | none => exact hnothing.symm
  | some opcode =>
      cases opcode with
      | dispatch =>
          obtain ⟨session, url, hframe⟩ := dispatched_frame (s := s) json
          simp only [hframe, hnothing]
      | heartbeat => simp only [sendHeartbeatAsync, sentOr_send, delivered_sent, heartbeat]
      | reconnect => simp only [closeImpl_fst, hnothing]
      | invalidSession =>
          dsimp only
          split
          · simp only [closeImpl_fst, hnothing]
          · exact hnothing.symm
      | hello => exact greeted_sent json
      | heartbeatAck => exact hnothing.symm
      | other => exact hnothing.symm

/-- What the timer sends where there is a websocket. -/
theorem beat_sent (hws : s.ws.isSome = true) : s.beat.sent = s.adding (some s.heartbeat) := by
  obtain ⟨socket, hsocket⟩ := Option.isSome_iff_exists.mp hws
  simp only [beat, sendHeartbeatAsync, send, hsocket, adding, heartbeat]

theorem heartbeatExpired_sent :
    s.heartbeatExpired.sent = s.adding (if s.beats then some s.heartbeat else none) := by
  rcases heartbeatExpired_cases (s := s) with
    ⟨hidle, h⟩ | ⟨⟨hrunning, hws⟩, ⟨hacked, hmissed, h⟩ | ⟨hacked, hmissed, h⟩ | ⟨hacked, h⟩⟩
  · have hbeats : s.beats = false := by
      rcases hidle with hrunning | hws
      · simp [beats, hrunning]
      · simp [beats, hws]
    rw [h, hbeats, if_neg (by simp), adding_none]
  · have hbeats : s.beats = false := by simp [beats, hacked, hmissed]
    rw [h, hbeats, closeImpl_fst]
    exact s.adding_none.symm
  · have hbeats : s.beats = true := by simp [beats, hrunning, hws, hmissed]
    rw [h, hbeats]
    exact beat_sent (s := { s with missedHeartbeats := s.missedHeartbeats + 1 }) hws
  · have hbeats : s.beats = true := by simp [beats, hrunning, hws, hacked]
    rw [h, hbeats]
    exact beat_sent (s := { s with missedHeartbeats := 0 }) hws

/-- **The payloads after a step.** -/
theorem step_sent {e : Event} (hstep : s.step e = some s') : s'.sent = s.adding (s.command e) := by
  rw [step_field (·.sent) (fun _ => rfl) hstep]
  have hnothing := s.adding_none
  cases e with
  | message i payload isBinary =>
      unfold command
      dsimp only
      cases hjson : s.received (.message i payload isBinary) with
      | none => rw [after_message_none hjson]; exact hnothing.symm
      | some json =>
          obtain ⟨inflater, hafter⟩ := after_message hjson
          rw [hafter, handled_sent]
          rfl
  | heartbeatExpired => exact heartbeatExpired_sent
  | heartbeatSent =>
      obtain ⟨waiting, hframe⟩ :=
        heartbeatTick_frame (s := { s with heartbeatSends := s.heartbeatSends - 1 })
      simp only [after, hframe]
      exact hnothing.symm
  | close reason =>
      simp only [after, closeImpl_fst]
      exact hnothing.symm
  | nextEvent | backoffExpired | connectFailed | connected | readFailed | sendCompleted
  | closeCompleted | timerExpired => exact hnothing.symm

/-- The payloads of a step of a run. -/
theorem sentIn_eq {e : Event} (hstep : s.step e = some s') :
    sentIn ⟨s, e, s'⟩ =
      match s.ws, s.command e with
      | some socket, some command => [(socket, command)]
      | _, _ => [] := by
  unfold sentIn
  dsimp only
  rw [step_sent hstep]
  unfold adding
  split
  · simp
  · simp

end Ekizu.Gateway.Shard
