import Ekizu.Voice.Link
import Ekizu.Voice.Reference

/-!
# The heartbeat

`voice_heartbeat.cpp` over the connection: `setup_heartbeat`, the tick that
sends a heartbeat and rearms the timer, and what `initiate_reconnect`,
`connect_ws_async`, `close` and `request_stop` do to the one timer and the one
flag they share.  The machine takes the steps of the connection, with the
interval of a `Hello` and with the tick that counts missed acknowledgements.

A cancelled wait completes with an error; a wait that expired before it was
cancelled completes without one.

## Main results

* `reachable_connection` — the connection in a run is one that `Connection.machine`
  reaches.
* `served_hello_iff` — when a `Hello` is followed by a heartbeat.
* `served_of_run` — in a run whose `Hello`s find no heartbeat timer every
  connection is served until it is replaced or closed.
* `not_served_after_reconnect` — the second connection is not.
-/

namespace Ekizu.Voice

open Dave Lib.Runs

/-- `kMaxMissedHeartbeats`. -/
def maxMissedHeartbeats : Nat := 3

/-- The heartbeat fields of `Impl`, and the waits and sends in flight.  `timer`
tells whether `m_heartbeat_timer` holds a timer. -/
structure Heartbeat where
  timer : Bool := false
  running : Bool := false
  intervalMs : UInt32 := 0
  lastAcked : Bool := true
  missed : Nat := 0
  waits : Nat := 0
  expired : Nat := 0
  aborted : Nat := 0
  sends : Nat := 0
  deriving Repr, DecidableEq

namespace Heartbeat

/-- `cancel` of the timer, also by a new expiry time or its destruction. -/
def cancel (b : Heartbeat) : Heartbeat := { b with waits := 0, aborted := b.aborted + b.waits }

/-- `heartbeat_tick`. -/
def tick (b : Heartbeat) : Heartbeat :=
  if b.running = false ∨ b.timer = false then b else { b with waits := b.waits + 1 }

/-- `setup_heartbeat`. -/
def setup (b : Heartbeat) (interval : UInt32) : Heartbeat :=
  if b.timer then b
  else { b with timer := true, intervalMs := interval, running := true }.tick

/-- The completion handler of `send_heartbeat`. -/
def rearm (b : Heartbeat) : Heartbeat :=
  if b.running = false ∨ b.timer = false then b else b.cancel.tick

/-- `initiate_reconnect` behind its check. -/
def pause (b : Heartbeat) : Heartbeat := { b with running := false }.cancel

/-- `close` and `request_stop`. -/
def stop (b : Heartbeat) : Heartbeat := { b.pause with timer := false }

/-- The waits and sends that go on with the heartbeat. -/
def outstanding (b : Heartbeat) : Nat := b.waits + b.expired + b.sends

/-- A heartbeat is under way at the interval. -/
structure Beats (b : Heartbeat) (interval : UInt32) : Prop where
  running : b.running = true
  outstanding : 0 < b.outstanding
  interval : b.intervalMs = interval

instance (b : Heartbeat) (interval : UInt32) : Decidable (b.Beats interval) :=
  decidable_of_iff (b.running = true ∧ 0 < b.outstanding ∧ b.intervalMs = interval)
    ⟨fun h => ⟨h.1, h.2.1, h.2.2⟩, fun h => ⟨h.running, h.outstanding, h.interval⟩⟩

variable {b : Heartbeat} {interval : UInt32}

/-! ## The operations -/

theorem tick_eq (htimer : b.timer = true) (hrunning : b.running = true) :
    b.tick = { b with waits := b.waits + 1 } := by
  unfold tick
  rw [if_neg]
  simp [htimer, hrunning]

theorem rearm_eq (htimer : b.timer = true) (hrunning : b.running = true) :
    b.rearm = { b with waits := 1, aborted := b.aborted + b.waits } := by
  unfold rearm
  rw [if_neg (by simp [htimer, hrunning]), tick_eq]
  · rfl
  · exact htimer
  · exact hrunning

/-- Rearming keeps the heartbeat under way. -/
theorem beats_rearm (htimer : b.timer = true) (hrunning : b.running = true)
    (hinterval : b.intervalMs = interval) : b.rearm.timer = true ∧ b.rearm.Beats interval := by
  rw [rearm_eq htimer hrunning]
  refine ⟨htimer, hrunning, ?_, hinterval⟩
  simp only [outstanding]
  omega

/-- Setting up starts a heartbeat where there is no timer. -/
theorem setup_of_timer (htimer : b.timer = true) : b.setup interval = b := if_pos htimer

theorem setup_of_no_timer (htimer : b.timer = false) :
    b.setup interval = { b with
      timer := true, running := true, intervalMs := interval, waits := b.waits + 1 } := by
  unfold setup
  rw [if_neg (by simp [htimer]), tick_eq rfl rfl]

/-- Setting up leads to a heartbeat at the interval where there is no timer, or
where that heartbeat is under way already. -/
theorem beats_setup_iff :
    (b.setup interval).Beats interval ↔ b.timer = false ∨ b.Beats interval := by
  cases htimer : b.timer with
  | false =>
      rw [setup_of_no_timer htimer]
      constructor
      · intro _
        exact .inl rfl
      · intro _
        refine ⟨rfl, ?_, rfl⟩
        simp only [outstanding]
        omega
  | true =>
      rw [setup_of_timer htimer]
      simp

theorem timer_setup : (b.setup interval).timer = true := by
  cases htimer : b.timer with
  | false => rw [setup_of_no_timer htimer]
  | true => rw [setup_of_timer htimer, htimer]

end Heartbeat

/-- A connection with its heartbeat.  `serving` is the interval of the `Hello`
that was processed on the websocket, until that is replaced or closed; nothing
reads it. -/
structure HeartbeatState (W : Setting) (H : Type) where
  connection : Connection W H := {}
  heartbeat : Heartbeat := {}
  serving : Option UInt32 := none

/-- What happens to a connection and its heartbeat. -/
inductive HeartbeatEvent (W : Setting) where
  /-- Anything else; not a `Hello`, and not missed heartbeats. -/
  | connection (event : Event W)
  | hello (interval : UInt32)
  | heartbeatAck
  /-- The timer expires. -/
  | expired
  /-- The handler of a wait that expired, or of one that was cancelled. -/
  | waited
  | aborted
  /-- The handler of a heartbeat that was sent, or could not be. -/
  | heartbeatSent

namespace Connection

variable {W : Setting} {H : Type}

/-- The event replaces the connection or closes it. -/
def drops (c : Connection W H) : Event W → Bool
  | .readFailed _ | .connected _ | .closed | .requestStop => true
  | .task i _ => c.tasks[i]? = some .close
  | _ => false

/-- What an event of the connection does to the heartbeat. -/
def beat (c : Connection W H) (b : Heartbeat) : Event W → Heartbeat
  | .message .resumed _ => { b with missed := 0 }
  | .readFailed closeCode =>
      if c.disconnected = false ∧ isResumableCloseCode closeCode ∧ c.connectionState = .ready then
        b.pause
      else b
  | .connected true => { b with lastAcked := true, missed := 0 }
  | .task i _ => if c.tasks[i]? = some .close then b.stop else b
  | .requestStop => b.stop
  | _ => b

end Connection

namespace HeartbeatState

variable {W : Setting} {H : Type} [HashRatchet H]

/-- The heartbeats were missed: `initiate_reconnect`. -/
def giveUp (v : HeartbeatState W H) : HeartbeatState W H :=
  let connection := v.connection.initiateReconnect
  if v.connection.disconnected then { v with connection }
  else { connection, heartbeat := v.heartbeat.pause, serving := none }

/-- `send_heartbeat`; without a websocket its handler runs at once. -/
def sendHeartbeat (v : HeartbeatState W H) : HeartbeatState W H :=
  let b := { v.heartbeat with lastAcked := false }
  { v with heartbeat := if v.connection.ws then { b with sends := b.sends + 1 } else b.rearm }

/-- The handler of a wait that expired. -/
def waited (v : HeartbeatState W H) : HeartbeatState W H :=
  let b := v.heartbeat
  if b.running = false then v
  else if b.lastAcked = false then
    let v := { v with heartbeat := { b with missed := b.missed + 1 } }
    if maxMissedHeartbeats ≤ v.heartbeat.missed then v.giveUp else v.sendHeartbeat
  else { v with heartbeat := { b with missed := 0 } }.sendHeartbeat

/-- One step; `none` where the event cannot happen or memory is misused. -/
def step (v : HeartbeatState W H) (event : HeartbeatEvent W) : Option (HeartbeatState W H) :=
  let b := v.heartbeat
  match event with
  | .connection .heartbeatsMissed | .connection (.message .hello _) => none
  | .connection event => do
      let connection ← v.connection.step event
      some {
        connection
        heartbeat := v.connection.beat b event
        serving := if v.connection.drops event then none else v.serving }
  | .hello interval => do
      let connection ← v.connection.step (.message .hello {})
      some { connection, heartbeat := b.setup interval, serving := some interval }
  | .heartbeatAck => do
      let connection ← v.connection.step (.message .ignored {})
      some { v with connection, heartbeat := { b with lastAcked := true } }
  | .expired =>
      if b.waits = 0 then none
      else some { v with heartbeat := { b with waits := 0, expired := b.expired + b.waits } }
  | .waited =>
      if b.expired = 0 then none
      else some { v with heartbeat := { b with expired := b.expired - 1 } }.waited
  | .aborted =>
      if b.aborted = 0 then none
      else some { v with heartbeat := { b with aborted := b.aborted - 1 } }
  | .heartbeatSent =>
      if b.sends = 0 then none
      else some { v with heartbeat := { b with sends := b.sends - 1 }.rearm }

/-- The machine of a connection with its heartbeat. -/
def machine (W : Setting) (H : Type) [HashRatchet H] :
    Machine (HeartbeatState W H) (HeartbeatEvent W) where
  start := {}
  step := step

/-- The connection that was greeted is served: a heartbeat is under way at the
interval of its `Hello`. -/
def Served (v : HeartbeatState W H) : Prop :=
  ∀ interval ∈ v.serving, v.heartbeat.Beats interval

/-- A `Hello` finds a connection that is not declared closed, and no heartbeat
timer, unless a heartbeat is already under way at its interval. -/
def HelloAllowed (v : HeartbeatState W H) : HeartbeatEvent W → Prop
  | .hello interval =>
      v.connection.disconnected = false ∧
        (v.heartbeat.timer = false ∨ v.heartbeat.Beats interval)
  | _ => True

instance (v : HeartbeatState W H) : ∀ e, Decidable (v.HelloAllowed e)
  | .hello interval =>
      inferInstanceAs (Decidable (v.connection.disconnected = false ∧
        (v.heartbeat.timer = false ∨ v.heartbeat.Beats interval)))
  | .connection _ | .heartbeatAck | .expired | .waited | .aborted | .heartbeatSent =>
      inferInstanceAs (Decidable True)

/-! ## The connection below -/

omit [HashRatchet H] in
/-- The handler of a wait leaves the connection alone or starts a reconnect. -/
theorem connection_waited (v : HeartbeatState W H) :
    v.waited.connection = v.connection ∨
      v.waited.connection = v.connection.initiateReconnect := by
  unfold waited
  dsimp only
  split
  · exact .inl rfl
  · split
    · split
      · unfold giveUp
        dsimp only
        split
        · exact .inr rfl
        · exact .inr rfl
      · exact .inl rfl
    · exact .inl rfl

variable {v v' : HeartbeatState W H} {e : HeartbeatEvent W}

/-- What an event of the connection does. -/
theorem step_event {event : Event W} (hstep : v.step (.connection event) = some v') :
    ∃ connection, v.connection.step event = some connection ∧
      v' = {
        connection
        heartbeat := v.connection.beat v.heartbeat event
        serving := if v.connection.drops event then none else v.serving } := by
  have hdefault : (do
      let connection ← v.connection.step event
      some ({
        connection
        heartbeat := v.connection.beat v.heartbeat event
        serving := if v.connection.drops event then none else v.serving } :
          HeartbeatState W H)) = some v' := by
    cases event with
    | heartbeatsMissed => simp [step] at hstep
    | message message entropy =>
        cases message with
        | hello => simp [step] at hstep
        | _ => exact hstep
    | _ => exact hstep
  obtain ⟨connection, hconnection, hrest⟩ := Option.bind_eq_some_iff.mp hdefault
  exact ⟨connection, hconnection, (Option.some.inj hrest).symm⟩

/-- Each step is a step of the connection, or leaves it alone. -/
theorem step_connection (hstep : v.step e = some v') :
    v'.connection = v.connection ∨
      ∃ event, v.connection.step event = some v'.connection := by
  cases e with
  | connection event =>
      obtain ⟨connection, hconnection, rfl⟩ := step_event hstep
      exact .inr ⟨event, hconnection⟩
  | hello interval | heartbeatAck =>
      obtain ⟨connection, hconnection, hrest⟩ := Option.bind_eq_some_iff.mp hstep
      obtain rfl := Option.some.inj hrest
      exact .inr ⟨_, hconnection⟩
  | expired | aborted | heartbeatSent =>
      simp only [step] at hstep
      split at hstep
      · simp at hstep
      · obtain rfl := Option.some.inj hstep
        exact .inl rfl
  | waited =>
      simp only [step] at hstep
      split at hstep
      · simp at hstep
      · obtain rfl := Option.some.inj hstep
        rcases connection_waited { v with heartbeat := _ } with heq | heq
        · exact .inl heq
        · rw [heq]
          exact .inr ⟨.heartbeatsMissed, rfl⟩

/-- **Refinement**: the connection in a run is one that the machine of the
connection reaches. -/
theorem reachable_connection (h : (machine W H).Reachable v) :
    (Connection.machine W H).Reachable v.connection := by
  refine h.invariant (P := fun v => (Connection.machine W H).Reachable v.connection) .start ?_
  intro v e v' hv hstep
  rcases step_connection hstep with heq | ⟨event, hevent⟩
  · rw [heq]
    exact hv
  · exact hv.step hevent

/-! ## Served connections -/

/-- What a served connection rests on. -/
structure Serving (v : HeartbeatState W H) (interval : UInt32) : Prop where
  alive : v.connection.disconnected = false
  timer : v.heartbeat.timer = true
  beats : v.heartbeat.Beats interval

/-- The connection that was greeted is being served. -/
def Inv (v : HeartbeatState W H) : Prop := ∀ interval ∈ v.serving, v.Serving interval

variable {interval : UInt32}

/-- An event that does not replace or close the connection leaves it alive. -/
theorem alive_step {c c' : Connection W H} {event : Event W} (halive : c.disconnected = false)
    (hdrops : c.drops event = false) (hstep : c.step event = some c') :
    c'.disconnected = false := by
  have hlink := Connection.step_link hstep
  have hkept : ∀ l : Link, c'.link = l → l.disconnected = false → c'.disconnected = false := by
    intro l heq hl
    exact (congrArg Link.disconnected heq).trans hl
  cases event with
  | run | sent | datagram | close => exact hkept _ hlink halive
  | message message entropy =>
      refine hkept _ hlink.2 ?_
      cases message <;> first | exact halive | rfl
  | readFailed | connected | closed | requestStop => simp [Connection.drops] at hdrops
  | task i env =>
      simp only [Connection.LinkAfter] at hlink
      split at hlink
      · exact hlink.elim
      · exact hkept _ hlink halive
      · next htask => simp [Connection.drops, htask] at hdrops
      · exact hkept _ hlink halive
  | udpSetUp result =>
      obtain ⟨-, udp, hlink⟩ := hlink
      exact hkept _ hlink halive
  | heartbeatsMissed =>
      simp only [Connection.LinkAfter] at hlink
      rw [Connection.initiateReconnect_link halive] at hlink
      exact hkept _ hlink halive
  | reconnectTimer =>
      refine hkept _ hlink.2 ?_
      split <;> exact halive
  | audio packet =>
      refine hkept _ hlink ?_
      split
      · exact halive
      · unfold Connection.afterEncrypt
        dsimp only
        split <;> exact halive
  | datagramSent i => exact hkept _ hlink.2 halive

omit [HashRatchet H] in
/-- It leaves the heartbeat under way. -/
theorem beat_of_not_drops {c : Connection W H} {event : Event W} (hdrops : c.drops event = false)
    (b : Heartbeat) : ∃ missed, c.beat b event = { b with missed } := by
  cases event with
  | readFailed | connected | closed | requestStop => simp [Connection.drops] at hdrops
  | message message entropy => cases message <;> exact ⟨_, rfl⟩
  | task i env =>
      have hclose : ¬ c.tasks[i]? = some .close := by
        simpa [Connection.drops] using hdrops
      exact ⟨b.missed, if_neg hclose⟩
  | _ => exact ⟨b.missed, rfl⟩

omit [HashRatchet H] in
/-- Sending a heartbeat keeps it under way, whether or not there is a websocket. -/
theorem serving_sendHeartbeat (halive : v.connection.disconnected = false)
    (htimer : v.heartbeat.timer = true) (hrunning : v.heartbeat.running = true)
    (hinterval : v.heartbeat.intervalMs = interval) : v.sendHeartbeat.Serving interval := by
  by_cases hws : v.connection.ws = true
  · have heq : v.sendHeartbeat = { v with heartbeat := { v.heartbeat with
        lastAcked := false, sends := v.heartbeat.sends + 1 } } := by
      simp only [sendHeartbeat]
      rw [if_pos hws]
    rw [heq]
    refine ⟨halive, htimer, hrunning, ?_, hinterval⟩
    simp only [Heartbeat.outstanding]
    omega
  · have heq : v.sendHeartbeat =
        { v with heartbeat := { v.heartbeat with lastAcked := false }.rearm } := by
      simp only [sendHeartbeat]
      rw [if_neg hws]
    obtain ⟨htimer', hbeats⟩ := Heartbeat.beats_rearm
      (b := { v.heartbeat with lastAcked := false }) htimer hrunning hinterval
    rw [heq]
    exact ⟨halive, htimer', hbeats⟩

omit [HashRatchet H] in
/-- The handler of a wait greets nobody. -/
theorem serving_waited (v : HeartbeatState W H) :
    v.waited.serving = v.serving ∨ v.waited.serving = none := by
  unfold waited
  dsimp only
  split
  · exact .inl rfl
  · split
    · split
      · unfold giveUp
        dsimp only
        split
        · exact .inl rfl
        · exact .inr rfl
      · exact .inl rfl
    · exact .inl rfl

omit [HashRatchet H] in
/-- A wait that expired goes on to the next heartbeat, or gives the connection
up. -/
theorem inv_waited (halive : v.connection.disconnected = false)
    (htimer : v.heartbeat.timer = true) (hrunning : v.heartbeat.running = true)
    (hinterval : v.heartbeat.intervalMs = interval) (hserving : v.serving = some interval) :
    v.waited.Inv := by
  have hsent : ∀ b : Heartbeat, b.timer = true → b.running = true → b.intervalMs = interval →
      Inv ({ v with heartbeat := b }.sendHeartbeat) := by
    intro b hb₁ hb₂ hb₃ interval' hmem
    obtain rfl : interval = interval' := Option.some.inj (hserving.symm.trans hmem)
    exact serving_sendHeartbeat halive hb₁ hb₂ hb₃
  unfold waited
  dsimp only
  rw [if_neg (by simp [hrunning])]
  split
  · split
    · intro interval' hmem
      simp [giveUp, halive] at hmem
    · exact hsent _ htimer hrunning hinterval
  · exact hsent _ htimer hrunning hinterval

/-- **The step lemma.** -/
theorem inv_step (h : v.Inv) (hallowed : v.HelloAllowed e) (hstep : v.step e = some v') :
    v'.Inv := by
  intro interval hmem
  cases e with
  | connection event =>
      obtain ⟨connection, hconnection, rfl⟩ := step_event hstep
      by_cases hdrops : v.connection.drops event = true
      · simp [hdrops] at hmem
      · rw [Bool.not_eq_true] at hdrops
        have hserving : v.serving = some interval := by simpa [hdrops] using hmem
        obtain ⟨halive, htimer, hrunning, houtstanding, hinterval⟩ := h interval hserving
        obtain ⟨missed, hbeat⟩ := beat_of_not_drops hdrops v.heartbeat
        refine ⟨alive_step halive hdrops hconnection, ?_, ?_⟩
        · dsimp only
          rw [hbeat]
          exact htimer
        · dsimp only
          rw [hbeat]
          exact ⟨hrunning, houtstanding, hinterval⟩
  | hello greeted =>
      obtain ⟨connection, hconnection, hrest⟩ := Option.bind_eq_some_iff.mp hstep
      obtain rfl := Option.some.inj hrest
      obtain rfl : greeted = interval := Option.some.inj hmem
      exact ⟨alive_step hallowed.1 rfl hconnection, Heartbeat.timer_setup,
        Heartbeat.beats_setup_iff.mpr hallowed.2⟩
  | heartbeatAck =>
      obtain ⟨connection, hconnection, hrest⟩ := Option.bind_eq_some_iff.mp hstep
      obtain rfl := Option.some.inj hrest
      obtain ⟨halive, htimer, hrunning, houtstanding, hinterval⟩ := h interval hmem
      exact ⟨alive_step halive rfl hconnection, htimer, hrunning, houtstanding, hinterval⟩
  | expired =>
      simp only [step] at hstep
      split at hstep
      · simp at hstep
      · obtain rfl := Option.some.inj hstep
        obtain ⟨halive, htimer, hrunning, houtstanding, hinterval⟩ := h interval hmem
        refine ⟨halive, htimer, hrunning, ?_, hinterval⟩
        simp only [Heartbeat.outstanding] at houtstanding ⊢
        omega
  | waited =>
      simp only [step] at hstep
      split at hstep
      · simp at hstep
      · obtain rfl := Option.some.inj hstep
        generalize hb : ({ v.heartbeat with expired := v.heartbeat.expired - 1 } : Heartbeat) = b
          at hmem ⊢
        have hserving : v.serving = some interval := by
          rcases serving_waited { v with heartbeat := b } with heq | heq
          · exact heq.symm.trans hmem
          · exact absurd (heq.symm.trans hmem) (by simp)
        obtain ⟨halive, htimer, hrunning, -, hinterval⟩ := h interval hserving
        subst hb
        exact inv_waited
          (v := { v with heartbeat := { v.heartbeat with expired := v.heartbeat.expired - 1 } })
          halive htimer hrunning hinterval hserving interval hmem
  | aborted =>
      simp only [step] at hstep
      split at hstep
      · simp at hstep
      · obtain rfl := Option.some.inj hstep
        obtain ⟨halive, htimer, hrunning, houtstanding, hinterval⟩ := h interval hmem
        exact ⟨halive, htimer, hrunning, houtstanding, hinterval⟩
  | heartbeatSent =>
      simp only [step] at hstep
      split at hstep
      · simp at hstep
      · obtain rfl := Option.some.inj hstep
        obtain ⟨halive, htimer, hrunning, -, hinterval⟩ := h interval hmem
        obtain ⟨htimer', hbeats⟩ := Heartbeat.beats_rearm
          (b := { v.heartbeat with sends := v.heartbeat.sends - 1 }) htimer hrunning hinterval
        exact ⟨halive, htimer', hbeats⟩

/-- A `Hello` is followed by a heartbeat exactly when it finds no timer, or that
heartbeat under way. -/
theorem served_hello_iff (hstep : v.step (.hello interval) = some v') :
    v'.Served ↔ v.heartbeat.timer = false ∨ v.heartbeat.Beats interval := by
  obtain ⟨connection, hconnection, hrest⟩ := Option.bind_eq_some_iff.mp hstep
  obtain rfl := Option.some.inj hrest
  rw [← Heartbeat.beats_setup_iff]
  constructor
  · intro hserved
    exact hserved interval rfl
  · intro hbeats interval' hmem
    obtain rfl : interval = interval' := Option.some.inj hmem
    exact hbeats

/-- **Heartbeats** go on, at the interval of the `Hello`, until the connection is
replaced or closed, in every run whose `Hello`s find no heartbeat timer. -/
theorem served_of_run {trace : List (Taken (HeartbeatState W H) (HeartbeatEvent W))}
    (hrun : (machine W H).Run trace v) :
    (∀ t ∈ trace, t.pre.HelloAllowed t.event) → v.Served := by
  intro hallowed
  have hinv : v.Inv := by
    induction hrun with
    | start =>
        intro interval hmem
        simp [machine] at hmem
    | step hrun hstep ih =>
        have hbefore := ih fun t ht => hallowed t (List.mem_cons_of_mem _ ht)
        exact inv_step hbefore (hallowed _ List.mem_cons_self) hstep
  intro interval hmem
  exact (hinv interval hmem).beats

end HeartbeatState

/-! ## Two connections -/

/-- The event, with the interval of a `Hello`. -/
def greeted (interval : UInt32) :
    Event (referenceSetting referenceUser) → HeartbeatEvent (referenceSetting referenceUser)
  | .message .hello _ => .hello interval
  | event => .connection event

/-- A client connects, and the first heartbeat is sent. -/
def firstBeatEvents : List (HeartbeatEvent (referenceSetting referenceUser)) :=
  (connectEvents referenceUser).map (greeted 13750) ++ [.expired, .waited]

/-- The connection breaks, the client reconnects, and is greeted again. -/
def reconnectEvents : List (HeartbeatEvent (referenceSetting referenceUser)) :=
  (connectEvents referenceUser).map (greeted 13750) ++
    ([.readFailed 1006, .reconnectTimer, .connected true, .task 0 (referenceEnv referenceUser)] :
      List (Event (referenceSetting referenceUser))).map .connection ++
    [.hello 13750]

/-- The machine of the client. -/
abbrev heartbeatMachine :
    Machine (HeartbeatState (referenceSetting referenceUser) Chain)
      (HeartbeatEvent (referenceSetting referenceUser)) :=
  HeartbeatState.machine (referenceSetting referenceUser) Chain

/-- The first connection is served. -/
theorem served_firstBeat :
    (heartbeatMachine.recorded firstBeatEvents).2.serving = some 13750 ∧
      (heartbeatMachine.recorded firstBeatEvents).2.Served := by
  constructor
  · decide +kernel
  · have hrun := Machine.run_recorded heartbeatMachine firstBeatEvents
      (by decide +kernel)
    exact HeartbeatState.served_of_run hrun (by decide +kernel)

/-- The second connection is not: the timer of the first is still there, and
`setup_heartbeat` does nothing. -/
theorem not_served_after_reconnect : ∃ v, heartbeatMachine.Reachable v ∧
    v.serving = some 13750 ∧ v.heartbeat.running = false ∧ v.heartbeat.outstanding = 0 ∧
      ¬ v.Served := by
  have hrun := Machine.run_recorded heartbeatMachine reconnectEvents
    (by decide +kernel)
  have hserving : (heartbeatMachine.recorded reconnectEvents).2.serving = some 13750 := by
    decide +kernel
  have hrunning : (heartbeatMachine.recorded reconnectEvents).2.heartbeat.running = false := by
    decide +kernel
  refine ⟨_, ⟨_, hrun⟩, hserving, hrunning, by decide +kernel, ?_⟩
  intro hserved
  have hbeats := hserved 13750 hserving
  rw [hbeats.running] at hrunning
  exact absurd hrunning (by simp)

end Ekizu.Voice
