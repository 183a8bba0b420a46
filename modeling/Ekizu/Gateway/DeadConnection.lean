import Ekizu.Gateway.Sends

/-!
# Dead connections

`heartbeat_tick` closes a websocket as dead when it has counted three heartbeats
without an acknowledgement.  The counter, the flag and the timer belong to the
shard and stay as they are when a new websocket is connected; only its Hello sets
the flag.

## Main results

* `expires_unacknowledged` — when the heartbeats that were missed were sent on
  the websocket that is closed.
* `expires_fresh` — a run that closes a websocket on which none was sent.
-/

namespace Ekizu.Gateway.Shard

open Lib Lib.Runs

variable {W : Setting} {s s' : Shard W}

/-- The heartbeat timer. -/
def Event.isHeartbeatExpired : Event → Bool
  | .heartbeatExpired => true
  | _ => false

/-- A new websocket. -/
def Event.connects : Event → Bool
  | .connected _ _ => true
  | _ => false

/-- A heartbeat on that websocket. -/
def isHeartbeatOn (socket : Nat) (sent : Nat × Command) : Bool :=
  sent.1 == socket &&
    match sent.2 with
    | .heartbeat _ => true
    | _ => false

/-- The heartbeats that a step sends on a websocket. -/
def beatsOn (socket : Nat) (t : Taken (Shard W) Event) : Nat :=
  (sentIn t).countP (isHeartbeatOn socket)

/-- The step handles a heartbeat acknowledgement. -/
def acknowledges (t : Taken (Shard W) Event) : Bool :=
  match t.pre.received t.event with
  | some json => opcodeOf W.undefined json = some .heartbeatAck
  | none => false

/-- The heartbeats sent on a websocket since the last acknowledgement. -/
def unacknowledged (socket : Nat) : List (Taken (Shard W) Event) → Nat
  | [] => 0
  | t :: trace =>
      if acknowledges t then 0 else beatsOn socket t + unacknowledged socket trace

/-- Those of them that the gateway asked for. -/
def requested (socket : Nat) : List (Taken (Shard W) Event) → Nat
  | [] => 0
  | t :: trace =>
      if acknowledges t then 0
      else (if t.event.isHeartbeatExpired then 0 else beatsOn socket t) + requested socket trace

/-- The flag was clear when the last websocket was connected and has been since. -/
def stale : List (Taken (Shard W) Event) → Bool
  | [] => false
  | t :: trace => !t.post.lastHeartbeatAcked && (t.event.connects || stale trace)

/-- The step is an expiry of the timer that closes the websocket. -/
def Expires (t : Taken (Shard W) Event) (socket : Nat) : Prop :=
  t.event.isHeartbeatExpired = true ∧ t.pre.ws = some socket ∧
    t.post.closed = (socket, .sessionExpired) :: t.pre.closed

/-! ## One step -/

theorem handled_acked (json : Json) (hacked : (s.handled json).lastHeartbeatAcked = false) :
    s.lastHeartbeatAcked = false ∧ opcodeOf W.undefined json ≠ some .heartbeatAck ∧
      ((s.handled json).heartbeatRunning = true → s.heartbeatRunning = true) := by
  unfold handled at hacked ⊢
  cases hopcode : opcodeOf W.undefined json with
  | none =>
      rw [hopcode] at hacked
      exact ⟨hacked, by simp, id⟩
  | some opcode =>
      rw [hopcode] at hacked
      cases opcode with
      | dispatch =>
          obtain ⟨session, url, hframe⟩ := dispatched_frame (s := s) json
          simp only [hframe] at hacked ⊢
          exact ⟨hacked, by simp, id⟩
      | heartbeat =>
          obtain ⟨sent, hframe⟩ :=
            delivered_frame (s := s) (.heartbeat (s.session.map (·.sequence)))
          simp only [sendHeartbeatAsync, sentOr_send, hframe] at hacked ⊢
          exact ⟨hacked, by simp, id⟩
      | reconnect =>
          simp only [closeImpl_fst] at hacked ⊢
          exact ⟨hacked, by simp, by simp⟩
      | invalidSession =>
          dsimp only at hacked ⊢
          split at hacked
          · simp only [closeImpl_fst] at hacked ⊢
            exact ⟨hacked, by simp, by simp⟩
          · exact ⟨hacked, by simp, id⟩
      | hello =>
          obtain ⟨interval, timer, running, waiting, sent, hframe⟩ := greeted_frame (s := s) json
          simp [hframe] at hacked
      | heartbeatAck => simp at hacked
      | other => exact ⟨hacked, by simp, id⟩

/-- Other steps than a connection and an expiry keep the websocket and the counter, and
only an acknowledgement or a Hello sets the flag. -/
theorem step_quiet {e : Event} (hstep : s.step e = some s') (hconnects : e.connects = false)
    (hexpired : e.isHeartbeatExpired = false) :
    s'.ws = s.ws ∧ s'.missedHeartbeats = s.missedHeartbeats ∧
      (s'.lastHeartbeatAcked = false →
        s.lastHeartbeatAcked = false ∧ acknowledges ⟨s, e, s'⟩ = false ∧
          (s'.heartbeatRunning = true → s.heartbeatRunning = true)) := by
  rw [step_field (·.ws) (fun _ => rfl) hstep, step_field (·.missedHeartbeats) (fun _ => rfl) hstep,
    step_field (·.lastHeartbeatAcked) (fun _ => rfl) hstep,
    step_field (·.heartbeatRunning) (fun _ => rfl) hstep]
  cases e with
  | message i payload isBinary =>
      unfold acknowledges
      dsimp only
      cases hjson : s.received (.message i payload isBinary) with
      | none =>
          rw [after_message_none hjson]
          exact ⟨rfl, rfl, fun hacked => ⟨hacked, rfl, id⟩⟩
      | some json =>
          obtain ⟨inflater, hafter⟩ := after_message hjson
          obtain ⟨_, _, _, _, _, _, _, _, _, _, hframe⟩ :=
            handled_frame (s := { s with inflater := inflater }) json
          rw [hafter]
          refine ⟨by rw [hframe], by rw [hframe], ?_⟩
          intro hacked
          have hkept := handled_acked json hacked
          exact ⟨hkept.1, by simpa using hkept.2.1, hkept.2.2⟩
  | heartbeatSent =>
      obtain ⟨waiting, hframe⟩ :=
        heartbeatTick_frame (s := { s with heartbeatSends := s.heartbeatSends - 1 })
      simp only [after, hframe, true_and]
      exact fun hacked => ⟨hacked, rfl, id⟩
  | close reason =>
      simp only [after, closeImpl_fst, true_and]
      exact fun hacked => ⟨hacked, rfl, by simp⟩
  | connected => simp [Event.connects] at hconnects
  | heartbeatExpired => simp [Event.isHeartbeatExpired] at hexpired
  | nextEvent | backoffExpired | connectFailed | readFailed | sendCompleted | closeCompleted
  | timerExpired => exact ⟨rfl, rfl, fun hacked => ⟨hacked, rfl, id⟩⟩

/-- A new websocket leaves the heartbeat alone. -/
theorem step_connected {i : Nat} {created : Bool}
    (hstep : s.step (.connected i created) = some s') :
    (∃ socket, s'.ws = some socket ∧ ∀ w, s.ws = some w → w < socket) ∧
      s'.missedHeartbeats = s.missedHeartbeats ∧ s'.lastHeartbeatAcked = s.lastHeartbeatAcked ∧
      s'.heartbeatRunning = s.heartbeatRunning := by
  rw [step_field (·.ws) (fun _ => rfl) hstep, step_field (·.missedHeartbeats) (fun _ => rfl) hstep,
    step_field (·.lastHeartbeatAcked) (fun _ => rfl) hstep,
    step_field (·.heartbeatRunning) (fun _ => rfl) hstep]
  refine ⟨?_, rfl, rfl, rfl⟩
  unfold after
  cases s.ws with
  | none => exact ⟨0, rfl, by simp⟩
  | some w =>
      refine ⟨w + 1, rfl, ?_⟩
      intro w' hw'
      obtain rfl := Option.some.inj hw'
      exact Nat.lt_succ_self w

/-- Heartbeats are sent on the current websocket. -/
theorem beatsOn_other {e : Event} (hstep : s.step e = some s') {socket : Nat}
    (hsocket : s.ws ≠ some socket) : beatsOn socket ⟨s, e, s'⟩ = 0 := by
  unfold beatsOn
  rw [sentIn_eq hstep]
  split
  · next w command hws _ =>
      have hne : w ≠ socket := by
        rintro rfl
        exact hsocket hws
      simp [isHeartbeatOn, hne]
  · rfl

/-- An expiry sends a heartbeat where it finds the connection alive. -/
theorem beatsOn_heartbeatExpired (hstep : s.step .heartbeatExpired = some s') {socket : Nat}
    (hsocket : s.ws = some socket) :
    beatsOn socket ⟨s, .heartbeatExpired, s'⟩ = if s.beats then 1 else 0 := by
  unfold beatsOn
  rw [sentIn_eq hstep, hsocket, command]
  by_cases hbeats : s.beats = true
  · rw [if_pos hbeats, if_pos hbeats]
    simp [isHeartbeatOn, heartbeat]
  · rw [if_neg hbeats, if_neg hbeats]
    rfl

/-- What an expiry does to the heartbeat: nothing where it is switched off or there is
no websocket, a close after the last miss, or a heartbeat. -/
theorem step_heartbeatExpired (hstep : s.step .heartbeatExpired = some s') :
    s'.ws = s.ws ∧
    ((s.beats = false ∧ s'.lastHeartbeatAcked = s.lastHeartbeatAcked ∧
        s'.missedHeartbeats = s.missedHeartbeats ∧ s'.heartbeatRunning = s.heartbeatRunning ∧
        s'.closed = s.closed) ∨
      (s.beats = false ∧ s.heartbeatRunning = true ∧ s.lastHeartbeatAcked = false ∧
        maxMissedHeartbeats ≤ s.missedHeartbeats + 1 ∧ s'.lastHeartbeatAcked = false ∧
        s'.missedHeartbeats = s.missedHeartbeats + 1 ∧ s'.heartbeatRunning = false) ∨
      (s.beats = true ∧ s'.lastHeartbeatAcked = false ∧ s'.closed = s.closed ∧
        s'.missedHeartbeats = (if s.lastHeartbeatAcked then 0 else s.missedHeartbeats + 1) ∧
        s'.missedHeartbeats < maxMissedHeartbeats)) := by
  rw [step_field (·.ws) (fun _ => rfl) hstep, step_field (·.missedHeartbeats) (fun _ => rfl) hstep,
    step_field (·.lastHeartbeatAcked) (fun _ => rfl) hstep,
    step_field (·.heartbeatRunning) (fun _ => rfl) hstep,
    step_field (·.closed) (fun _ => rfl) hstep]
  simp only [after]
  rcases heartbeatExpired_cases (s := { s with expired := s.expired - 1 }) with
    ⟨hidle, h⟩ | ⟨⟨hrunning, hws⟩, ⟨hacked, hmissed, h⟩ | ⟨hacked, hmissed, h⟩ | ⟨hacked, h⟩⟩
  · have hbeats : s.beats = false := by
      rcases hidle with hrunning | hws
      · simp [beats, show s.heartbeatRunning = false from hrunning]
      · simp [beats, show s.ws = none from hws]
    rw [h]
    exact ⟨rfl, .inl ⟨hbeats, rfl, rfl, rfl, rfl⟩⟩
  · have hbeats : s.beats = false := by
      simp [beats, show s.lastHeartbeatAcked = false from hacked,
        show maxMissedHeartbeats ≤ s.missedHeartbeats + 1 from hmissed]
    rw [h, closeImpl_fst]
    exact ⟨rfl, .inr (.inl ⟨hbeats, hrunning, hacked, hmissed, hacked, rfl, by simp⟩)⟩
  · have hbeats : s.beats = true := by
      simp [beats, show s.heartbeatRunning = true from hrunning, show s.ws.isSome = true from hws,
        show s.missedHeartbeats + 1 < maxMissedHeartbeats from hmissed]
    obtain ⟨waiting, sends, sent, hframe⟩ := beat_frame
      (s := { s with expired := s.expired - 1, missedHeartbeats := s.missedHeartbeats + 1 })
    rw [h, hframe]
    have hflag : s.lastHeartbeatAcked = false := hacked
    exact ⟨rfl, .inr (.inr ⟨hbeats, rfl, rfl, by simp [hflag], hmissed⟩)⟩
  · have hbeats : s.beats = true := by
      simp [beats, show s.heartbeatRunning = true from hrunning, show s.ws.isSome = true from hws,
        show s.lastHeartbeatAcked = true from hacked]
    obtain ⟨waiting, sends, sent, hframe⟩ := beat_frame
      (s := { s with expired := s.expired - 1, missedHeartbeats := 0 })
    rw [h, hframe]
    have hflag : s.lastHeartbeatAcked = true := hacked
    exact ⟨rfl, .inr (.inr ⟨hbeats, rfl, rfl, by simp [hflag], by simp [maxMissedHeartbeats]⟩)⟩

/-! ## Runs -/

/-- How the counter and the flag stand to the heartbeats of the trace. -/
structure Tracks (trace : List (Taken (Shard W) Event)) (s : Shard W) : Prop where
  fresh : ∀ socket, (∀ w, s.ws = some w → w < socket) → unacknowledged socket trace = 0
  clear : stale trace = true → s.lastHeartbeatAcked = false
  bounded : s.heartbeatRunning = true → s.lastHeartbeatAcked = false →
    s.missedHeartbeats < maxMissedHeartbeats
  covered : s.heartbeatRunning = true → s.lastHeartbeatAcked = false → stale trace = false →
    ∀ socket, s.ws = some socket → s.missedHeartbeats + 1 ≤ unacknowledged socket trace
  carried : stale trace = true → ∀ socket, s.ws = some socket →
    unacknowledged socket trace ≤ s.missedHeartbeats + requested socket trace

variable {trace : List (Taken (Shard W) Event)}

theorem Tracks.connected {i : Nat} {created : Bool} (h : Tracks trace s)
    (hstep : s.step (.connected i created) = some s') :
    Tracks (⟨s, .connected i created, s'⟩ :: trace) s' := by
  obtain ⟨⟨new, hnew, hlater⟩, hmissed, hacked, hrunning⟩ := step_connected hstep
  have hnone : ∀ socket, new ≤ socket →
      unacknowledged socket (⟨s, .connected i created, s'⟩ :: trace) = 0 := by
    intro socket hsocket
    have hbefore := h.fresh socket fun w hw => (hlater w hw).trans_le hsocket
    have hcurrent : s.ws ≠ some socket := by
      intro hws
      exact absurd (hlater socket hws) (by omega)
    rw [unacknowledged, beatsOn_other hstep hcurrent, hbefore]
    simp
  have hstale : stale (⟨s, .connected i created, s'⟩ :: trace) = !s'.lastHeartbeatAcked := by
    simp [stale, Event.connects]
  refine ⟨?_, ?_, ?_, ?_, ?_⟩
  · intro socket hsocket
    exact hnone socket (hsocket new hnew).le
  · intro hstalled
    simpa [hstale] using hstalled
  · intro hruns hclear
    rw [hmissed]
    exact h.bounded (hrunning ▸ hruns) (hacked ▸ hclear)
  · intro _ hclear hnot
    simp [hstale, hclear] at hnot
  · intro _ socket hsocket
    obtain rfl := Option.some.inj (hnew.symm.trans hsocket)
    rw [hnone new le_rfl]
    exact Nat.zero_le _

theorem Tracks.fresh_step {e : Event} (h : Tracks trace s) (hstep : s.step e = some s')
    (hws : s'.ws = s.ws) (socket : Nat) (hsocket : ∀ w, s'.ws = some w → w < socket) :
    unacknowledged socket (⟨s, e, s'⟩ :: trace) = 0 := by
  rw [hws] at hsocket
  have hcurrent : s.ws ≠ some socket := by
    intro hcurrent
    exact absurd (hsocket socket hcurrent) (by omega)
  rw [unacknowledged, beatsOn_other hstep hcurrent, h.fresh socket hsocket]
  simp

theorem Tracks.quiet {e : Event} (h : Tracks trace s) (hstep : s.step e = some s')
    (hconnects : e.connects = false) (hexpired : e.isHeartbeatExpired = false) :
    Tracks (⟨s, e, s'⟩ :: trace) s' := by
  obtain ⟨hws, hmissed, hflag⟩ := step_quiet hstep hconnects hexpired
  have hstale : stale (⟨s, e, s'⟩ :: trace) = (!s'.lastHeartbeatAcked && stale trace) := by
    simp [stale, hconnects]
  refine ⟨h.fresh_step hstep hws, ?_, ?_, ?_, ?_⟩
  · intro hstalled
    rw [hstale] at hstalled
    simpa using (Bool.and_eq_true_iff.mp hstalled).1
  · intro hruns hclear
    obtain ⟨hbefore, -, hrunning⟩ := hflag hclear
    rw [hmissed]
    exact h.bounded (hrunning hruns) hbefore
  · intro hruns hclear hnot socket hsocket
    obtain ⟨hbefore, hack, hrunning⟩ := hflag hclear
    rw [hstale, hclear, Bool.not_false, Bool.true_and] at hnot
    have hcovered := h.covered (hrunning hruns) hbefore hnot socket (hws ▸ hsocket)
    rw [unacknowledged, hack, hmissed, if_neg (by simp)]
    omega
  · intro hstalled socket hsocket
    rw [hstale] at hstalled
    obtain ⟨hclear, hbefore⟩ := Bool.and_eq_true_iff.mp hstalled
    obtain ⟨-, hack, -⟩ := hflag (by simpa using hclear)
    have hcarried := h.carried hbefore socket (hws ▸ hsocket)
    rw [unacknowledged, requested, hack, hmissed, if_neg (by simp), if_neg (by simp),
      if_neg (by simp [hexpired])]
    omega

theorem Tracks.expired (h : Tracks trace s) (hstep : s.step .heartbeatExpired = some s') :
    Tracks (⟨s, .heartbeatExpired, s'⟩ :: trace) s' := by
  obtain ⟨hws, hcases⟩ := step_heartbeatExpired hstep
  have hstale : stale (⟨s, .heartbeatExpired, s'⟩ :: trace) =
      (!s'.lastHeartbeatAcked && stale trace) := by
    simp [stale, Event.connects]
  -- an expiry is no acknowledgement, and sends a heartbeat where the connection is alive
  have hunacknowledged : ∀ socket, s.ws = some socket →
      unacknowledged socket (⟨s, .heartbeatExpired, s'⟩ :: trace) =
        (if s.beats then 1 else 0) + unacknowledged socket trace := by
    intro socket hsocket
    rw [unacknowledged, beatsOn_heartbeatExpired hstep hsocket]
    rfl
  have hrequested : ∀ socket, requested socket (⟨s, .heartbeatExpired, s'⟩ :: trace) =
      requested socket trace := by
    intro socket
    rw [requested]
    exact Nat.zero_add _
  refine ⟨h.fresh_step hstep hws, ?_, ?_, ?_, ?_⟩
  · intro hstalled
    rw [hstale] at hstalled
    simpa using (Bool.and_eq_true_iff.mp hstalled).1
  · intro hruns hclear
    rcases hcases with ⟨-, hacked, hmissed, hrunning, -⟩ | ⟨-, -, -, -, -, -, hrunning⟩ |
      ⟨-, -, -, -, hbounded⟩
    · rw [hmissed]
      exact h.bounded (hrunning ▸ hruns) (hacked ▸ hclear)
    · simp [hrunning] at hruns
    · exact hbounded
  · intro hruns hclear hnot socket hsocket
    rw [hstale, hclear, Bool.not_false, Bool.true_and] at hnot
    rw [hunacknowledged socket (hws ▸ hsocket)]
    rcases hcases with ⟨hbeats, hacked, hmissed, hrunning, -⟩ | ⟨-, -, -, -, -, -, hrunning⟩ |
      ⟨hbeats, -, -, hmissed, -⟩
    · have hcovered := h.covered (hrunning ▸ hruns) (hacked ▸ hclear) hnot socket (hws ▸ hsocket)
      rw [hbeats, hmissed, if_neg (by simp)]
      omega
    · simp [hrunning] at hruns
    · rw [hbeats, if_pos rfl, hmissed]
      by_cases hacked : s.lastHeartbeatAcked = true
      · rw [if_pos hacked]
        omega
      · have hruns : s.heartbeatRunning = true := by
          simp only [beats, Bool.and_eq_true] at hbeats
          exact hbeats.1.1
        have hcovered := h.covered hruns (by simpa using hacked) hnot socket (hws ▸ hsocket)
        rw [if_neg hacked]
        omega
  · intro hstalled socket hsocket
    rw [hstale] at hstalled
    obtain ⟨-, hbefore⟩ := Bool.and_eq_true_iff.mp hstalled
    have hcarried := h.carried hbefore socket (hws ▸ hsocket)
    rw [hunacknowledged socket (hws ▸ hsocket), hrequested]
    rcases hcases with ⟨hbeats, -, hmissed, -⟩ | ⟨hbeats, -, -, -, -, hmissed, -⟩ |
      ⟨hbeats, -, -, hmissed, -⟩
    · rw [hbeats, hmissed, if_neg (by simp)]
      omega
    · rw [hbeats, hmissed, if_neg (by simp)]
      omega
    · rw [hbeats, if_pos rfl, hmissed, if_neg (by simp [h.clear hbefore])]
      omega

/-- **The invariant** of every run. -/
theorem tracks (hrun : (machine W).Run trace s) : Tracks trace s := by
  induction hrun with
  | start =>
      refine ⟨fun _ _ => rfl, ?_, ?_, ?_, ?_⟩
      · intro hstale
        simp [stale] at hstale
      · intro hruns
        simp [machine] at hruns
      · intro hruns
        simp [machine] at hruns
      · intro hstale
        simp [stale] at hstale
  | @step trace s s' e hrun hstep ih =>
      cases e with
      | connected i created => exact ih.connected hstep
      | heartbeatExpired => exact ih.expired hstep
      | nextEvent | backoffExpired | connectFailed | message | readFailed | sendCompleted
      | closeCompleted | timerExpired | heartbeatSent | close => exact ih.quiet hstep rfl rfl

/-- **Dead connections.**  In every run, where an expiry of the timer closes a
websocket, at least three heartbeats sent on it were not acknowledged if the flag was
set since it was connected; if it was not, fewer than three were that the gateway did
not ask for. -/
theorem expires_unacknowledged (hrun : (machine W).Run trace s) :
    Throughout
      (fun before t => ∀ socket, Expires t socket →
        (stale before = false → maxMissedHeartbeats ≤ unacknowledged socket before) ∧
        (stale before = true →
          unacknowledged socket before < maxMissedHeartbeats + requested socket before)) trace := by
  induction hrun with
  | start => trivial
  | @step trace s s' e hrun hstep ih =>
      refine ⟨?_, ih⟩
      rintro socket ⟨hexpired, hsocket, hclosed⟩
      obtain rfl : e = .heartbeatExpired := by
        cases e <;> first | rfl | simp [Event.isHeartbeatExpired] at hexpired
      have htracks := tracks hrun
      obtain ⟨-, ⟨-, -, -, -, hsame⟩ | ⟨-, hruns, hclear, hmissed, -⟩ | ⟨-, -, hsame, -⟩⟩ :=
        step_heartbeatExpired hstep
      · simp [hsame] at hclosed
      · constructor
        · intro hfresh
          exact hmissed.trans (htracks.covered hruns hclear hfresh socket hsocket)
        · intro hstale
          have hbounded := htracks.bounded hruns hclear
          have hcarried := htracks.carried hstale socket hsocket
          omega
      · simp [hsame] at hclosed

/-- Three expiries after a Hello. -/
def beating : List Event :=
  [.timerExpired, .heartbeatExpired, .heartbeatSent, .timerExpired, .heartbeatExpired,
    .heartbeatSent, .timerExpired, .heartbeatExpired, .heartbeatSent]

/-- Three heartbeats without an acknowledgement. -/
theorem expires_unacknowledged_three :
    Throughout
      (fun before t => ∀ socket, Expires t socket →
        (stale before = false → maxMissedHeartbeats ≤ unacknowledged socket before) ∧
        (stale before = true →
          unacknowledged socket before < maxMissedHeartbeats + requested socket before))
      ((referenceMachine []).recorded
        (connects 0 ++ [.message 0 helloText false] ++ beating ++
          [.timerExpired, .heartbeatExpired])).1 :=
  expires_unacknowledged ((referenceMachine []).run_recorded _ (by decide +kernel))

/-- The third expiry comes after a read error and a new connection and before its Hello:
it closes a websocket on which no heartbeat was sent. -/
theorem expires_fresh :
    ∃ t before s, (referenceMachine []).Run (t :: before) s ∧ Expires t 1 ∧
      unacknowledged 1 before = 0 := by
  have hrun := (referenceMachine []).run_recorded
    (connects 0 ++ [.message 0 helloText false, .nextEvent true] ++ beating ++
      [.readFailed 1 .eof false, .backoffExpired 1 none, .connected 1 true, .timerExpired,
        .heartbeatExpired]) (by decide +kernel)
  exact ⟨_, _, _, hrun, ⟨by decide +kernel, by decide +kernel, by decide +kernel⟩,
    by decide +kernel⟩

end Ekizu.Gateway.Shard
