import Ekizu.Voice.Link
import Ekizu.Voice.Reference

/-!
# The sender's queue

`send_opus`, the loops of `opus_sender_loop` and `flush`, over the connection:
the channel without a buffer that hands packets to a loop, the one timer all
loops share, and the UDP sends in flight.  Every `SessionDescription` may start
another loop.

`m_pending_frames` counts the accepted packets; `held` are those that are in the
channel, wait for the timer or are being sent, up to the handler that lets them
go.

## Main results

* `pendingFrames_of_run` — the count is the number of held packets, and `flush`
  completes exactly when no packet is held, where no wait for the timer is
  cancelled and `flush` looks at a live connection.
* `pendingFrames_leaked` — a second loop cancels the wait of the first one, whose
  packet is lost and never counted down.
-/

namespace Ekizu.Voice

open Dave Lib.Runs

/-- `std::chrono::milliseconds(n)` as a duration of the steady clock. -/
def milliseconds (n : Int) : Int := n * 1000000

/-- `SAMPLE_RATE`. -/
def sampleRate : Nat := 48000

/-- `SenderOp`. -/
structure SenderLoop where
  nextSendTime : Int
  consecutiveFailures : Nat := 0
  deriving Repr, DecidableEq

namespace SenderLoop

/-- The loop's part of `maintain_sync`. -/
def maintainSync (loop : SenderLoop) (frameCount : Nat) : SenderLoop :=
  { loop with
    nextSendTime := loop.nextSendTime + milliseconds (frameCount * 1000 / sampleRate : Nat) }

/-- The drift check of `process`. -/
def resync (loop : SenderLoop) (now : Int) : SenderLoop :=
  if 100 < (now - loop.nextSendTime) / milliseconds 1 then { loop with nextSendTime := now }
  else loop

end SenderLoop

/-- A connection with its sender: the channel's waiting sends and receives, and
the handlers of the loops that have not run. -/
structure SenderState (W : Setting) (H : Type) where
  connection : Connection W H := {}
  sendTimer : Bool := false
  queue : List AudioPacket := []
  receiving : List SenderLoop := []
  /-- Sends that the channel's destruction cancelled. -/
  cancelledSends : Nat := 0
  /-- Loops whose first `step` is posted. -/
  posted : List SenderLoop := []
  /-- Packets the channel has handed to a loop. -/
  handed : List (SenderLoop × AudioPacket) := []
  /-- Waits for the timer, those that expired and those that were cancelled. -/
  waits : List (SenderLoop × AudioPacket) := []
  expired : List (SenderLoop × AudioPacket) := []
  aborted : List (SenderLoop × AudioPacket) := []
  /-- The loops and frame counts of the datagrams in flight. -/
  sending : List (SenderLoop × Nat) := []
  /-- The `FlushOp`s that have not completed. -/
  flushes : Nat := 0

/-- What happens to a connection and its sender. -/
inductive SenderEvent (W : Setting) where
  /-- Anything else; not a packet, and not the end of a UDP send. -/
  | connection (event : Event W) (now : Int)
  | sendOpus (data : Bytes) (samples : Int)
  | sendCancelled
  | loopStarted (i : Nat)
  /-- A loop processes what it received. -/
  | received (i : Nat) (now : Int)
  | timerExpired
  | waited (i : Nat)
  | waitAborted (i : Nat)
  | datagramSent (i : Nat) (ok : Bool)
  | flush
  | flushCheck

namespace SenderState

variable {W : Setting} {H : Type}

/-- The packets that were accepted and not let go. -/
def held (s : SenderState W H) : Nat :=
  s.queue.length + s.cancelledSends + s.handed.length + s.waits.length + s.expired.length +
    s.aborted.length + s.sending.length

/-- `SenderOp::step`. -/
def stepLoop (s : SenderState W H) (loop : SenderLoop) : SenderState W H :=
  if s.connection.channel = false ∨ s.connection.udp = false then s
  else
    match s.queue with
    | [] => { s with receiving := s.receiving ++ [loop] }
    | packet :: queue => { s with queue, handed := s.handed ++ [(loop, packet)] }

/-- `async_send` on the channel. -/
def enqueue (s : SenderState W H) (packet : AudioPacket) : SenderState W H :=
  match s.receiving with
  | [] => { s with queue := s.queue ++ [packet] }
  | loop :: receiving => { s with receiving, handed := s.handed ++ [(loop, packet)] }

/-- `send_opus`; `samples` is what `opus_packet_get_samples_per_frame` says.
Packets are objects in memory, so that fewer than 2 ^ 64 are held. -/
def sendOpus (s : SenderState W H) (data : Bytes) (samples : Int) : Option (SenderState W H) :=
  let c := s.connection
  if data = [] ∨ c.channel = false ∨ c.disconnected = true ∨ samples < 0 then some s
  else if 2 ^ 64 ≤ s.held + 1 then none
  else
    some ({ s with connection := { c with pendingFrames := c.pendingFrames + 1 } }.enqueue
      ⟨data, samples.toNat⟩)

/-- What `close` and `request_stop` do to the sender. -/
def stopSender (s : SenderState W H) : SenderState W H :=
  { s with
    sendTimer := false
    aborted := s.aborted ++ s.waits
    waits := []
    cancelledSends := s.cancelledSends + s.queue.length
    queue := []
    receiving := [] }

/-- The end of `flush`. -/
def flushCompletes (s : SenderState W H) : Bool :=
  s.connection.pendingFrames = 0 || !s.connection.udp || s.connection.disconnected

variable [HashRatchet H]

/-- `SenderOp::send`. -/
def send (s : SenderState W H) (loop : SenderLoop) (packet : AudioPacket) :
    Option (SenderState W H) := do
  let c := s.connection
  let connection ← c.step (.audio packet)
  let s := { s with connection }
  if c.udp = false then some s
  else if connection.datagrams.length = c.datagrams.length then
    some (s.stepLoop (loop.maintainSync packet.frameCount))
  else some { s with sending := s.sending ++ [(loop, packet.frameCount)] }

/-- `SenderOp::process`. -/
def process (s : SenderState W H) (loop : SenderLoop) (packet : AudioPacket) (now : Int) :
    Option (SenderState W H) :=
  if now < loop.nextSendTime then
    -- a new expiry time cancels the waits there are
    if s.sendTimer = false then none
    else some { s with aborted := s.aborted ++ s.waits, waits := [(loop, packet)] }
  else s.send (loop.resync now) packet

/-- The handler of a UDP send. -/
def datagramSent (s : SenderState W H) (loop : SenderLoop) (frameCount : Nat) (ok : Bool) :
    SenderState W H :=
  let failures := if ok then 0 else loop.consecutiveFailures + 1
  let loop := { loop with consecutiveFailures := failures }.maintainSync frameCount
  if ok = false ∧ 10 ≤ failures then s else s.stepLoop loop

/-- One step; `none` where the event cannot happen or memory is misused. -/
def step (s : SenderState W H) (event : SenderEvent W) : Option (SenderState W H) :=
  match event with
  | .connection (.audio _) _ | .connection (.datagramSent _) _ => none
  | .connection event now => do
      let c := s.connection
      let connection ← c.step event
      let started := { s with connection }
      if c.stops event then some started.stopSender
      -- `after_mls` starts a receiver and a sender loop at the same time
      else if c.receivers < connection.receivers then
        some { started with sendTimer := true, posted := s.posted ++ [{ nextSendTime := now }] }
      else some started
  | .sendOpus data samples => s.sendOpus data samples
  | .sendCancelled =>
      if s.cancelledSends = 0 then none
      else
        let c := s.connection
        some { s with
          connection := { c with pendingFrames := c.pendingFrames - 1 }
          cancelledSends := s.cancelledSends - 1 }
  | .loopStarted i => do
      let loop ← s.posted[i]?
      some ({ s with posted := s.posted.eraseIdx i }.stepLoop loop)
  | .received i now => do
      let (loop, packet) ← s.handed[i]?
      { s with handed := s.handed.eraseIdx i }.process loop packet now
  | .timerExpired =>
      if s.waits = [] then none
      else some { s with waits := [], expired := s.expired ++ s.waits }
  | .waited i => do
      let (loop, packet) ← s.expired[i]?
      { s with expired := s.expired.eraseIdx i }.send loop packet
  | .waitAborted i => do
      let _ ← s.aborted[i]?
      some { s with aborted := s.aborted.eraseIdx i }
  | .datagramSent i ok => do
      let (loop, frameCount) ← s.sending[i]?
      let connection ← s.connection.step (.datagramSent i)
      some ({ s with connection, sending := s.sending.eraseIdx i }.datagramSent loop
        frameCount ok)
  | .flush => some { s with flushes := s.flushes + 1 }
  | .flushCheck =>
      if s.flushes = 0 then none
      else some (if s.flushCompletes then { s with flushes := s.flushes - 1 } else s)

/-- The machine of a connection with its sender. -/
def machine (W : Setting) (H : Type) [HashRatchet H] :
    Machine (SenderState W H) (SenderEvent W) where
  start := {}
  step := step

/-! ## What the result is about -/

/-- No step cancels a wait for the timer: the connection is not stopped and no
loop sets a new expiry time while a packet waits.  And `flush` looks at a live
connection. -/
def SendAllowed (s : SenderState W H) : SenderEvent W → Prop
  | .connection event _ => s.connection.stops event = true → s.waits = []
  | .received i now =>
      ∀ entry ∈ s.handed[i]?, now < entry.1.nextSendTime → s.waits = []
  | .flushCheck =>
      s.connection.udp = true ∧ s.connection.disconnected = false ∨ s.held = 0
  | _ => True

instance (s : SenderState W H) : ∀ e, Decidable (s.SendAllowed e)
  | .connection event _ =>
      inferInstanceAs (Decidable (s.connection.stops event = true → s.waits = []))
  | .received i now =>
      inferInstanceAs (Decidable (∀ entry ∈ s.handed[i]?,
        now < entry.1.nextSendTime → s.waits = []))
  | .flushCheck =>
      inferInstanceAs (Decidable (s.connection.udp = true ∧
        s.connection.disconnected = false ∨ s.held = 0))
  | .sendOpus _ _ | .sendCancelled | .loopStarted _ | .timerExpired | .waited _
  | .waitAborted _ | .datagramSent _ _ | .flush => inferInstanceAs (Decidable True)

/-! ## Steps of the connection and of a loop -/

variable {s s' : SenderState W H} {e : SenderEvent W}

/-- Only packets change the count, the UDP sends and the RTP clock. -/
theorem packets_step {c c' : Connection W H} {event : Event W} (hstep : c.step event = some c')
    (haudio : ∀ packet, event ≠ .audio packet) (hsent : ∀ i, event ≠ .datagramSent i) :
    c'.pendingFrames = c.pendingFrames ∧ c'.datagrams = c.datagrams ∧
      c'.rtpTimestamp = c.rtpTimestamp := by
  have hlink := Connection.step_link hstep
  have hkept : ∀ l : Link, c'.link = l → l.pendingFrames = c.pendingFrames →
      l.datagrams = c.datagrams → l.rtpTimestamp = c.rtpTimestamp →
        c'.pendingFrames = c.pendingFrames ∧ c'.datagrams = c.datagrams ∧
          c'.rtpTimestamp = c.rtpTimestamp := by
    intro l heq hpending hdatagrams htimestamp
    exact ⟨(congrArg Link.pendingFrames heq).trans hpending,
      (congrArg Link.datagrams heq).trans hdatagrams,
      (congrArg Link.rtpTimestamp heq).trans htimestamp⟩
  cases event with
  | run | sent | datagram | close | requestStop => exact hkept _ hlink rfl rfl rfl
  | message message entropy =>
      cases message <;> exact hkept _ hlink.2 rfl rfl rfl
  | readFailed closeCode =>
      obtain ⟨-, hlink⟩ := hlink
      unfold Connection.readFailed Connection.initiateReconnect at hlink
      split at hlink
      · split at hlink <;> exact hkept _ hlink rfl rfl rfl
      · exact hkept _ hlink rfl rfl rfl
  | task i env =>
      simp only [Connection.LinkAfter] at hlink
      split at hlink
      · exact hlink.elim
      · exact hkept _ hlink rfl rfl rfl
      · rcases hlink with hlink | ⟨-, hlink⟩ | hlink <;> exact hkept _ hlink rfl rfl rfl
      · exact hkept _ hlink rfl rfl rfl
  | udpSetUp result =>
      obtain ⟨-, udp, hlink⟩ := hlink
      exact hkept _ hlink rfl rfl rfl
  | heartbeatsMissed =>
      simp only [Connection.LinkAfter, Connection.initiateReconnect] at hlink
      split at hlink <;> exact hkept _ hlink rfl rfl rfl
  | reconnectTimer =>
      obtain ⟨-, hlink⟩ := hlink
      split at hlink <;> exact hkept _ hlink rfl rfl rfl
  | connected ok =>
      obtain ⟨-, hlink⟩ := hlink
      cases ok <;> exact hkept _ hlink rfl rfl rfl
  | audio packet => exact absurd rfl (haudio packet)
  | datagramSent i => exact absurd rfl (hsent i)
  | closed => exact hkept _ hlink.2 rfl rfl rfl

omit [HashRatchet H] in
/-- A loop that goes on to the next packet moves packets. -/
theorem stepLoop_spec (s : SenderState W H) (loop : SenderLoop) :
    (s.stepLoop loop).connection = s.connection ∧ (s.stepLoop loop).aborted = s.aborted ∧
      (s.stepLoop loop).sending = s.sending ∧ (s.stepLoop loop).held = s.held := by
  unfold stepLoop
  split
  · exact ⟨rfl, rfl, rfl, rfl⟩
  · split
    · exact ⟨rfl, rfl, rfl, rfl⟩
    · next packet queue hqueue =>
        refine ⟨rfl, rfl, rfl, ?_⟩
        simp only [held, hqueue, List.length_append, List.length_cons, List.length_nil]
        omega

omit [HashRatchet H] in
/-- A loop whose datagram was sent goes on to the next packet, or ends. -/
theorem datagramSent_spec (s : SenderState W H) (loop : SenderLoop) (frameCount : Nat)
    (ok : Bool) :
    (s.datagramSent loop frameCount ok).connection = s.connection ∧
      (s.datagramSent loop frameCount ok).aborted = s.aborted ∧
      (s.datagramSent loop frameCount ok).sending = s.sending ∧
      (s.datagramSent loop frameCount ok).held = s.held := by
  simp only [datagramSent]
  by_cases hends : ok = false ∧ 10 ≤ (if ok then 0 else loop.consecutiveFailures + 1)
  · rw [if_pos hends]
    exact ⟨rfl, rfl, rfl, rfl⟩
  · rw [if_neg hends]
    exact stepLoop_spec s _

omit [HashRatchet H] in
/-- A packet sent to the channel waits there or is handed to a loop. -/
theorem enqueue_spec (s : SenderState W H) (packet : AudioPacket) :
    (s.enqueue packet).connection = s.connection ∧ (s.enqueue packet).aborted = s.aborted ∧
      (s.enqueue packet).sending = s.sending ∧ (s.enqueue packet).held = s.held + 1 := by
  unfold enqueue
  split
  · refine ⟨rfl, rfl, rfl, ?_⟩
    simp only [held, List.length_append, List.length_cons, List.length_nil]
    omega
  · refine ⟨rfl, rfl, rfl, ?_⟩
    simp only [held, List.length_append, List.length_cons, List.length_nil]
    omega

/-- The wait of no packet was cancelled, and each datagram in flight belongs to a
loop. -/
structure Tidy (s : SenderState W H) : Prop where
  aborted : s.aborted = []
  sending : s.connection.datagrams.length = s.sending.length

/-- A loop that sends the packet it holds. -/
structure Sends (s s' : SenderState W H) : Prop where
  tidy : s'.Tidy
  counted : (s'.held = s.held ∧
      s'.connection.pendingFrames = s.connection.pendingFrames - 1) ∨
    (s'.held = s.held + 1 ∧ s'.connection.pendingFrames = s.connection.pendingFrames)

/-- What the connection does with a packet: without a socket it is dropped; else the
clock goes on at once, or the datagram is in flight. -/
theorem audio_cases {c c' : Connection W H} {packet : AudioPacket}
    (hstep : c.step (.audio packet) = some c') :
    (c.udp = false ∧ c'.pendingFrames = c.pendingFrames - 1 ∧ c'.datagrams = c.datagrams ∧
        c'.rtpTimestamp = c.rtpTimestamp) ∨
    (c.udp ≠ false ∧ c'.pendingFrames = c.pendingFrames - 1 ∧ c'.datagrams = c.datagrams ∧
        c'.rtpTimestamp = c.rtpTimestamp + UInt32.ofNat packet.frameCount) ∨
    (c.udp ≠ false ∧ c'.pendingFrames = c.pendingFrames ∧
        c'.datagrams = c.datagrams ++ [packet.frameCount] ∧
        c'.rtpTimestamp = c.rtpTimestamp) := by
  have hlink := Connection.send_link hstep
  by_cases hudp : c.udp = false
  · have hnone : c.sentPayload packet = none := by
      rw [Connection.sentPayload, if_pos hudp]
    rw [hnone, Connection.afterDrop, if_pos hudp] at hlink
    exact .inl ⟨hudp, congrArg Link.pendingFrames hlink, congrArg Link.datagrams hlink,
      congrArg Link.rtpTimestamp hlink⟩
  · split at hlink
    · rw [Connection.afterDrop, if_neg hudp] at hlink
      exact .inr (.inl ⟨hudp, congrArg Link.pendingFrames hlink,
        congrArg Link.datagrams hlink, congrArg Link.rtpTimestamp hlink⟩)
    · unfold Connection.afterEncrypt at hlink
      dsimp only at hlink
      split at hlink
      · exact .inr (.inl ⟨hudp, congrArg Link.pendingFrames hlink,
          congrArg Link.datagrams hlink, congrArg Link.rtpTimestamp hlink⟩)
      · exact .inr (.inr ⟨hudp, congrArg Link.pendingFrames hlink,
          congrArg Link.datagrams hlink, congrArg Link.rtpTimestamp hlink⟩)

/-- **`SenderOp::send`** counts the packet down or hands it to the socket. -/
theorem send_spec (htidy : s.Tidy) {loop : SenderLoop} {packet : AudioPacket}
    (hsend : s.send loop packet = some s') : s.Sends s' := by
  obtain ⟨connection, hconnection, hrest⟩ := Option.bind_eq_some_iff.mp hsend
  dsimp only at hrest
  rcases audio_cases hconnection with ⟨hudp, hpending, hdatagrams, -⟩ |
    ⟨hudp, hpending, hdatagrams, -⟩ | ⟨hudp, hpending, hdatagrams, -⟩
  · rw [if_pos hudp] at hrest
    obtain rfl := Option.some.inj hrest
    refine ⟨⟨htidy.aborted, ?_⟩, .inl ⟨rfl, hpending⟩⟩
    rw [hdatagrams]
    exact htidy.sending
  · rw [if_neg hudp, if_pos (by rw [hdatagrams])] at hrest
    obtain rfl := Option.some.inj hrest
    obtain ⟨hconnection', haborted, hsending, hheld⟩ :=
      stepLoop_spec { s with connection } (loop.maintainSync packet.frameCount)
    refine ⟨⟨haborted.trans htidy.aborted, ?_⟩, .inl ⟨hheld, ?_⟩⟩
    · rw [hconnection', hsending, hdatagrams]
      exact htidy.sending
    · rw [hconnection', hpending]
  · rw [if_neg hudp, if_neg (by simp [hdatagrams])] at hrest
    obtain rfl := Option.some.inj hrest
    refine ⟨⟨htidy.aborted, ?_⟩, .inr ⟨?_, hpending⟩⟩
    · simp [hdatagrams, htidy.sending]
    · simp only [held, List.length_append, List.length_cons, List.length_nil]
      omega

/-- A step leaves the held packets and their count alone, accepts a packet and
counts it, or lets one go and counts it down. -/
structure Counts (s s' : SenderState W H) : Prop where
  tidy : s'.Tidy
  counted : (s'.held = s.held ∧
      s'.connection.pendingFrames = s.connection.pendingFrames) ∨
    (s'.held = s.held + 1 ∧ s'.held < 2 ^ 64 ∧
      s'.connection.pendingFrames = s.connection.pendingFrames + 1) ∨
    (s.held = s'.held + 1 ∧
      s'.connection.pendingFrames = s.connection.pendingFrames - 1)

omit [HashRatchet H] in
/-- A packet that a loop takes out to send it. -/
theorem Sends.counts {t : SenderState W H} (h : t.Sends s') (hheld : s.held = t.held + 1)
    (hsame : t.connection.pendingFrames = s.connection.pendingFrames) : s.Counts s' := by
  refine ⟨h.tidy, ?_⟩
  rcases h.counted with ⟨hgone, hpending⟩ | ⟨hkept, hpending⟩
  · refine .inr (.inr ⟨by rw [hgone, hheld], ?_⟩)
    rw [hpending, hsame]
  · exact .inl ⟨by rw [hkept, hheld], by rw [hpending, hsame]⟩

/-! ## One step -/

/-- What an event of the connection does. -/
theorem step_event {event : Event W} {now : Int}
    (hstep : s.step (.connection event now) = some s') :
    (∀ packet, event ≠ .audio packet) ∧ (∀ i, event ≠ .datagramSent i) ∧
      ∃ connection, s.connection.step event = some connection ∧
        some s' =
          if s.connection.stops event then some { s with connection }.stopSender
          else if s.connection.receivers < connection.receivers then
            some { s with
              connection, sendTimer := true, posted := s.posted ++ [{ nextSendTime := now }] }
          else some { s with connection } := by
  have haudio : ∀ packet, event ≠ .audio packet := by
    rintro packet rfl
    simp [step] at hstep
  have hsent : ∀ i, event ≠ .datagramSent i := by
    rintro i rfl
    simp [step] at hstep
  have hdefault : ((s.connection.step event).bind fun connection =>
      if s.connection.stops event then some { s with connection }.stopSender
      else if s.connection.receivers < connection.receivers then
        some { s with
          connection, sendTimer := true, posted := s.posted ++ [{ nextSendTime := now }] }
      else some { s with connection }) = some s' := by
    cases event with
    | audio packet => exact absurd rfl (haudio packet)
    | datagramSent i => exact absurd rfl (hsent i)
    | _ => exact hstep
  obtain ⟨connection, hconnection, hrest⟩ := Option.bind_eq_some_iff.mp hdefault
  exact ⟨haudio, hsent, connection, hconnection, hrest.symm⟩

omit [HashRatchet H] in
theorem length_of_getElem? {α : Type} {l : List α} {i : Nat} {a : α}
    (h : l[i]? = some a) : l.length = (l.eraseIdx i).length + 1 := by
  obtain ⟨hi, -⟩ := List.getElem?_eq_some_iff.mp h
  rw [List.length_eraseIdx_of_lt hi]
  omega

/-- An event of the connection starts a loop, stops it or leaves it alone. -/
theorem counts_connection {event : Event W} {now : Int} (htidy : s.Tidy)
    (hallowed : s.SendAllowed (.connection event now))
    (hstep : s.step (.connection event now) = some s') : s.Counts s' := by
  obtain ⟨haudio, hsent, connection, hconnection, hrest⟩ := step_event hstep
  obtain ⟨hpending, hdatagrams, -⟩ := packets_step hconnection haudio hsent
  have hsending : connection.datagrams.length = s.sending.length := by
    rw [hdatagrams]
    exact htidy.sending
  split at hrest
  · next hstops =>
      have hwaits := hallowed hstops
      obtain rfl := Option.some.inj hrest
      refine ⟨⟨?_, hsending⟩, .inl ⟨?_, hpending⟩⟩
      · simp [stopSender, htidy.aborted, hwaits]
      · simp only [stopSender, held, hwaits, List.append_nil, List.length_nil]
        omega
  · split at hrest
    · obtain rfl := Option.some.inj hrest
      exact ⟨⟨htidy.aborted, hsending⟩, .inl ⟨rfl, hpending⟩⟩
    · obtain rfl := Option.some.inj hrest
      exact ⟨⟨htidy.aborted, hsending⟩, .inl ⟨rfl, hpending⟩⟩

/-- A packet that is queued is held and pending. -/
theorem counts_sendOpus {data : Bytes} {samples : Int} (htidy : s.Tidy)
    (hstep : s.step (.sendOpus data samples) = some s') : s.Counts s' := by
  simp only [step, sendOpus] at hstep
  split at hstep
  · obtain rfl := Option.some.inj hstep
    exact ⟨htidy, .inl ⟨rfl, rfl⟩⟩
  · split at hstep
    · simp at hstep
    · next hroom =>
        obtain rfl := Option.some.inj hstep
        obtain ⟨hconnection, haborted, hsending, hheld⟩ := enqueue_spec
          { s with connection :=
            { s.connection with pendingFrames := s.connection.pendingFrames + 1 } }
          ⟨data, samples.toNat⟩
        have hcount : (enqueue { s with connection := { s.connection with
            pendingFrames := s.connection.pendingFrames + 1 } } ⟨data, samples.toNat⟩).held =
            s.held + 1 := hheld
        refine ⟨⟨haborted.trans htidy.aborted, ?_⟩, .inr (.inl ⟨hcount, ?_, ?_⟩)⟩
        · rw [hconnection, hsending]
          exact htidy.sending
        · rw [hcount]
          omega
        · rw [hconnection]

/-- A packet that a loop receives waits for its time or is sent. -/
theorem counts_received {i : Nat} {now : Int} (htidy : s.Tidy)
    (hallowed : s.SendAllowed (.received i now))
    (hstep : s.step (.received i now) = some s') : s.Counts s' := by
  obtain ⟨⟨loop, packet⟩, hfound, hrest⟩ := Option.bind_eq_some_iff.mp hstep
  have hlength := length_of_getElem? hfound
  dsimp only [process] at hrest
  split at hrest
  · next hearly =>
      have hwaits := hallowed (loop, packet) hfound hearly
      split at hrest
      · simp at hrest
      · obtain rfl := Option.some.inj hrest
        refine ⟨⟨?_, htidy.sending⟩, .inl ⟨?_, rfl⟩⟩
        · simp [htidy.aborted, hwaits]
        · simp only [held, hwaits, List.append_nil, List.length_cons, List.length_nil]
          omega
  · refine (send_spec (s := { s with handed := s.handed.eraseIdx i })
      ⟨htidy.aborted, htidy.sending⟩ hrest).counts ?_ rfl
    simp only [held]
    omega

/-- A packet whose datagram was sent is neither held nor pending. -/
theorem counts_datagramSent {i : Nat} {ok : Bool} (htidy : s.Tidy)
    (hstep : s.step (.datagramSent i ok) = some s') : s.Counts s' := by
  obtain ⟨⟨loop, frameCount⟩, hfound, hrest⟩ := Option.bind_eq_some_iff.mp hstep
  obtain ⟨connection, hconnection, hrest⟩ := Option.bind_eq_some_iff.mp hrest
  obtain rfl := Option.some.inj hrest
  have hlength := length_of_getElem? hfound
  obtain ⟨hi, hlink⟩ := Connection.step_link hconnection
  have hpending : connection.pendingFrames = s.connection.pendingFrames - 1 :=
    congrArg Link.pendingFrames hlink
  have hdatagrams : connection.datagrams = s.connection.datagrams.eraseIdx i :=
    congrArg Link.datagrams hlink
  have hsent : connection.datagrams.length = (s.sending.eraseIdx i).length := by
    have hsending := htidy.sending
    rw [hdatagrams, List.length_eraseIdx_of_lt hi]
    omega
  have hless : s.held =
      { s with connection, sending := s.sending.eraseIdx i }.held + 1 := by
    simp only [held]
    omega
  obtain ⟨hconnection', haborted, hsending, hheld⟩ := datagramSent_spec
    { s with connection, sending := s.sending.eraseIdx i } loop frameCount ok
  refine ⟨⟨haborted.trans htidy.aborted, ?_⟩, .inr (.inr ⟨?_, ?_⟩)⟩
  · rw [hconnection', hsending]
    exact hsent
  · rw [hheld]
    exact hless
  · rw [hconnection']
    exact hpending

/-- **The step lemma.** -/
theorem counts_step (htidy : s.Tidy) (hallowed : s.SendAllowed e) (hstep : s.step e = some s') :
    s.Counts s' := by
  cases e with
  | connection event now => exact counts_connection htidy hallowed hstep
  | sendOpus data samples => exact counts_sendOpus htidy hstep
  | sendCancelled =>
      simp only [step] at hstep
      split at hstep
      · simp at hstep
      · next hcancelled =>
          obtain rfl := Option.some.inj hstep
          refine ⟨⟨htidy.aborted, htidy.sending⟩, .inr (.inr ⟨?_, rfl⟩)⟩
          simp only [held]
          omega
  | loopStarted i =>
      obtain ⟨loop, -, hrest⟩ := Option.bind_eq_some_iff.mp hstep
      obtain rfl := Option.some.inj hrest
      obtain ⟨hconnection, haborted, hsending, hheld⟩ :=
        stepLoop_spec { s with posted := s.posted.eraseIdx i } loop
      refine ⟨⟨haborted.trans htidy.aborted, ?_⟩, .inl ⟨hheld, ?_⟩⟩
      · rw [hconnection, hsending]
        exact htidy.sending
      · rw [hconnection]
  | received i now => exact counts_received htidy hallowed hstep
  | timerExpired =>
      simp only [step] at hstep
      split at hstep
      · simp at hstep
      · obtain rfl := Option.some.inj hstep
        refine ⟨⟨htidy.aborted, htidy.sending⟩, .inl ⟨?_, rfl⟩⟩
        simp only [held, List.length_append, List.length_nil]
        omega
  | waited i =>
      obtain ⟨⟨loop, packet⟩, hfound, hrest⟩ := Option.bind_eq_some_iff.mp hstep
      have hlength := length_of_getElem? hfound
      refine (send_spec (s := { s with expired := s.expired.eraseIdx i })
        ⟨htidy.aborted, htidy.sending⟩ hrest).counts ?_ rfl
      simp only [held]
      omega
  | waitAborted i =>
      obtain ⟨entry, hfound, -⟩ := Option.bind_eq_some_iff.mp hstep
      rw [htidy.aborted] at hfound
      simp at hfound
  | datagramSent i ok => exact counts_datagramSent htidy hstep
  | flush =>
      obtain rfl := Option.some.inj hstep
      exact ⟨⟨htidy.aborted, htidy.sending⟩, .inl ⟨rfl, rfl⟩⟩
  | flushCheck =>
      simp only [step] at hstep
      split at hstep
      · simp at hstep
      · obtain rfl := Option.some.inj hstep
        split
        · exact ⟨⟨htidy.aborted, htidy.sending⟩, .inl ⟨rfl, rfl⟩⟩
        · exact ⟨⟨htidy.aborted, htidy.sending⟩, .inl ⟨rfl, rfl⟩⟩

/-! ## Runs -/

/-- `m_pending_frames` counts the held packets. -/
structure Inv (s : SenderState W H) : Prop where
  tidy : s.Tidy
  pending : s.connection.pendingFrames.toNat = s.held

omit [HashRatchet H] in
/-- The count stays right: it does not wrap in either direction. -/
theorem Counts.pending (h : s.Counts s') (hpending : s.connection.pendingFrames.toNat = s.held) :
    s'.connection.pendingFrames.toNat = s'.held := by
  rcases h.counted with ⟨hheld, hsame⟩ | ⟨hheld, hroom, hmore⟩ | ⟨hheld, hless⟩
  · rw [hsame, hheld, hpending]
  · rw [hmore, hheld, ← hpending, UInt64.toNat_add]
    have hone : (1 : UInt64).toNat = 1 := rfl
    rw [hone]
    omega
  · have hpositive : (1 : UInt64) ≤ s.connection.pendingFrames := by
      rw [UInt64.le_iff_toNat_le, hpending, hheld]
      exact Nat.le_add_left _ _
    rw [hless, UInt64.toNat_sub_of_le _ _ hpositive, hpending, hheld]
    rfl

variable {trace : List (Taken (SenderState W H) (SenderEvent W))}

/-- Every step of an allowed run starts where the count is right, and counts. -/
theorem counts_of_run (hrun : (machine W H).Run trace s) :
    (∀ t ∈ trace, t.pre.SendAllowed t.event) →
      s.Inv ∧ ∀ t ∈ trace, t.pre.Inv ∧ t.pre.Counts t.post := by
  induction hrun with
  | start =>
      intro _
      exact ⟨⟨⟨rfl, rfl⟩, rfl⟩, by simp⟩
  | @step trace s s' e hrun hstep ih =>
      intro hallowed
      obtain ⟨hinv, hbefore⟩ := ih fun t ht => hallowed t (List.mem_cons_of_mem _ ht)
      have hcounts := counts_step hinv.tidy (hallowed _ List.mem_cons_self) hstep
      refine ⟨⟨hcounts.tidy, hcounts.pending hinv.pending⟩, ?_⟩
      intro t ht
      rcases List.mem_cons.mp ht with rfl | ht
      · exact ⟨hinv, hcounts⟩
      · exact hbefore t ht

omit [HashRatchet H] in
/-- On a live connection `flush` completes exactly when no packet is held. -/
theorem flushCompletes_iff (hpending : s.connection.pendingFrames.toNat = s.held)
    (hallowed : s.SendAllowed .flushCheck) : s.flushCompletes = true ↔ s.held = 0 := by
  have hzero : s.connection.pendingFrames = 0 ↔ s.held = 0 := by
    rw [← hpending, ← UInt64.toNat_inj]
    rfl
  rcases hallowed with ⟨hudp, halive⟩ | hnone
  · simp [flushCompletes, hudp, halive, hzero]
  · simp [flushCompletes, hzero.mpr hnone, hnone]

/-- **The count of pending frames** is the number of held packets in every state
of an allowed run; each packet that is let go is counted down once; and `flush`
completes exactly when no packet is held. -/
theorem pendingFrames_of_run (hrun : (machine W H).Run trace s)
    (hallowed : ∀ t ∈ trace, t.pre.SendAllowed t.event) :
    s.connection.pendingFrames.toNat = s.held ∧
    (∀ t ∈ trace, t.post.held < t.pre.held →
      t.pre.held = t.post.held + 1 ∧ t.pre.connection.pendingFrames.toNat =
        t.post.connection.pendingFrames.toNat + 1) ∧
    ∀ t ∈ trace, t.event = .flushCheck → (t.pre.flushCompletes = true ↔ t.pre.held = 0) := by
  obtain ⟨hinv, hsteps⟩ := counts_of_run hrun hallowed
  refine ⟨hinv.pending, ?_, ?_⟩
  · intro t ht hgone
    obtain ⟨hpre, hcounts⟩ := hsteps t ht
    have hpost := hcounts.pending hpre.pending
    have hone : t.pre.held = t.post.held + 1 := by
      rcases hcounts.counted with ⟨hheld, -⟩ | ⟨hheld, -⟩ | ⟨hheld, -⟩
      · omega
      · omega
      · exact hheld
    exact ⟨hone, by rw [hpre.pending, hpost, hone]⟩
  · intro t ht hcheck
    have hlive := hallowed t ht
    rw [hcheck] at hlive
    exact flushCompletes_iff (hsteps t ht).1.pending hlive

end SenderState

/-! ## One loop and two -/

/-- Events of the connection at the time 0. -/
def atStart (events : List (Event (referenceSetting referenceUser))) :
    List (SenderEvent (referenceSetting referenceUser)) :=
  events.map (.connection · 0)

/-- A packet that its loop sends at once. -/
def sentAtOnce : List (SenderEvent (referenceSetting referenceUser)) :=
  [.sendOpus audioFrame 960, .received 0 0, .datagramSent 0 true]

/-- A packet that comes too early for its loop, which waits for the timer. -/
def sentEarly : List (SenderEvent (referenceSetting referenceUser)) :=
  [.sendOpus audioFrame 960, .received 0 0]

/-- A client connects; it sends a packet, the next one has to wait. -/
def oneLoopEvents : List (SenderEvent (referenceSetting referenceUser)) :=
  atStart (connectEvents referenceUser) ++ [.loopStarted 0] ++ sentAtOnce ++ sentEarly ++
    [.timerExpired, .waited 0, .datagramSent 0 true, .flush, .flushCheck]

/-- The server sends a second `SessionDescription`; each of the two loops sends a
packet and then has to wait with the next one. -/
def twoLoopEvents : List (SenderEvent (referenceSetting referenceUser)) :=
  atStart (connectEvents referenceUser) ++ [.loopStarted 0] ++
    atStart (handled referenceUser (.sessionDescription
      ⟨some .aes256GcmRtpsize, transportKey, some 1⟩)) ++ [.loopStarted 0] ++
    sentAtOnce ++ sentAtOnce ++ sentEarly ++ sentEarly ++
    [.waitAborted 0, .timerExpired, .waited 0, .datagramSent 0 true]

/-- The machine of the client. -/
abbrev senderMachine :
    Machine (SenderState (referenceSetting referenceUser) Chain)
      (SenderEvent (referenceSetting referenceUser)) :=
  SenderState.machine (referenceSetting referenceUser) Chain

/-- Every packet was sent, and `flush` has completed. -/
theorem pendingFrames_oneLoop :
    (senderMachine.recorded oneLoopEvents).2.connection.pendingFrames.toNat =
        (senderMachine.recorded oneLoopEvents).2.held ∧
      (senderMachine.recorded oneLoopEvents).2.flushes = 0 := by
  have hrun := Machine.run_recorded senderMachine oneLoopEvents
    (by decide +kernel)
  constructor
  · exact (SenderState.pendingFrames_of_run hrun (by decide +kernel)).1
  · decide +kernel

/-- The second loop's new expiry time cancels the wait of the first: one packet
is lost, no packet is held any more, and the count stays at 1, so that `flush`
does not complete. -/
theorem pendingFrames_leaked : ∃ s, senderMachine.Reachable s ∧
    s.held = 0 ∧ s.connection.pendingFrames = 1 ∧ s.connection.udp = true ∧
      s.connection.disconnected = false ∧ s.flushCompletes = false := by
  have hrun := Machine.run_recorded senderMachine twoLoopEvents
    (by decide +kernel)
  exact ⟨_, ⟨_, hrun⟩, by decide +kernel, by decide +kernel, by decide +kernel,
    by decide +kernel, by decide +kernel⟩

end Ekizu.Voice
