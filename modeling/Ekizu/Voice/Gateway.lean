import Ekizu.Lib.Runs
import Ekizu.Voice.Receiver
import Ekizu.Voice.Sender

/-!
# The connection as a machine

`ListenOp` of `voice_websocket.cpp` and the reconnects of
`voice_reconnect.cpp`, and everything that can happen to a connection as the
events of one machine.  A message is given by the fields the code reads; one
whose fields have the wrong JSON type is not modelled (the code throws).
-/

namespace Ekizu.Voice

open Dave Lib.Runs

/-- The messages of the voice gateway.  An absent field is `none`. -/
inductive ServerMessage where
  /-- Empty, unreadable, or of an opcode without a handler. -/
  | ignored
  | ready (ssrc : UInt32)
  | sessionDescription (description : SessionDescription)
  | hello
  | resumed
  | speaking (userId : Bytes) (ssrc : UInt32) (speaking : Bool)
  | clientsConnect (userIds : List Bytes)
  | clientDisconnect (userId : Bytes)
  | davePrepareTransition (transitionId : Option UInt16) (protocolVersion : Option Int)
  | daveExecuteTransition (transitionId : Option UInt16)
  | davePrepareEpoch (epoch : Option Int) (protocolVersion : Option Int)
  | binary (op : BinaryOpcode) (payload : Bytes)
  deriving Repr, DecidableEq

/-- How the asynchronous part of `setup_udp_async` ends. -/
inductive UdpSetup where
  | bindFailed
  | connectFailed
  | discoveryFailed
  | done
  deriving Repr, DecidableEq

/-- Everything that can happen to a connection.  `i` is the place of a task,
send or datagram among those in flight. -/
inductive Event (W : Setting) where
  | run
  | message (message : ServerMessage) (entropy : Entropy W.mls)
  | readFailed (closeCode : UInt16)
  | task (i : Nat) (env : Env W)
  | sent (i : Nat) (ok : Bool) (env : Env W)
  | udpSetUp (result : UdpSetup)
  | heartbeatsMissed
  | reconnectTimer
  | connected (ok : Bool)
  | datagram (clock : DecryptClock) (data : Bytes)
  | audio (packet : AudioPacket)
  | datagramSent (i : Nat)
  | close
  | closed
  | requestStop

/-- `is_resumable_close_code`. -/
def isResumableCloseCode (code : UInt16) : Bool :=
  if code < 4000 then true
  else if 4001 ≤ code ∧ code ≤ 4016 then code = 4015
  else true

namespace Connection

variable {W : Setting} {H : Type}

/-- `initiate_reconnect`. -/
def initiateReconnect (c : Connection W H) : Connection W H :=
  if c.disconnected then c
  else
    { c with
      connectionState := if c.connectionState = .ready then .resuming else .connecting
      ws := false
      reconnectTimers := c.reconnectTimers + 1 }

/-- The encryptor, if there is one, goes to passthrough. -/
def enablePassthrough (c : Connection W H) : Connection W H :=
  { c with dave := c.dave.map fun d =>
    { d with encryptor := d.encryptor.setPassthroughMode true } }

/-- `DavePrepareTransition`. -/
def prepareTransition (c : Connection W H) (transitionId : UInt16)
    (protocolVersion : Option Int) : Option (Connection W H) :=
  let version := protocolVersion.getD ((c.dave.map fun d => (d.protocolVersion.toNat : Int)).getD 0)
  let c := { c with
    daveTransitionVersions := c.daveTransitionVersions.insert transitionId version }
  if transitionId = 0 then
    if (c.dave.map fun d => d.session.hasCurrentState) = some true then
      some (c.post (.executeTransition version))
    else some c.listen
  else
    let c := if version = 0 then c.enablePassthrough else c
    if c.ws = false then none else some { c with sends := c.sends ++ [.listen] }

/-- `DaveExecuteTransition`. -/
def executeMessage (c : Connection W H) (transitionId : UInt16) : Connection W H :=
  let current := (c.dave.map fun d => (d.protocolVersion.toNat : Int)).getD 0
  let version := (c.daveTransitionVersions.lookup transitionId).getD current
  { c with daveTransitionVersions := c.daveTransitionVersions.erase transitionId }.post
    (.executeTransition version)

/-- `DavePrepareEpoch` with epoch 1. -/
def prepareEpoch (c : Connection W H) (protocolVersion : Int) : Connection W H :=
  let version := toProtocolVersion protocolVersion
  let c :=
    match c.dave with
    | none => c
    | some d =>
        (c.setDave { d with
          protocolVersion := version
          session := (d.session.setProtocolVersion version).reset }).did .resetSession
  c.post (.maybeStartMls false .listen)

/-- The read handler of `ListenOp`. -/
def handleMessage (c : Connection W H) (message : ServerMessage) (entropy : Entropy W.mls) :
    Option (Connection W H) :=
  match message with
  | .ignored => some c.listen
  | .ready ssrc =>
      some ({ c with disconnected := false, connectionState := .ready }.setupUdp ssrc entropy)
  | .sessionDescription description => some (c.post (.sessionDescription description))
  | .hello =>
      if c.ws = false then none
      else
        let c :=
          if c.connectionState = .resuming then c
          else { c with connectionState := .identifying }
        some { c with sends := c.sends ++ [.listen] }
  | .resumed => some { c with connectionState := .ready, disconnected := false }.listen
  | .speaking userId ssrc speaking => some (c.post (.speaking userId ssrc speaking)).listen
  | .clientsConnect userIds =>
      some { c with
        recognizedUserIds :=
          userIds.foldl (fun ids userId => ids.insert userId) c.recognizedUserIds }.listen
  | .clientDisconnect userId =>
      some { c with recognizedUserIds := c.recognizedUserIds.erase userId }.listen
  | .davePrepareTransition none _ => some c.listen
  | .davePrepareTransition (some transitionId) protocolVersion =>
      c.prepareTransition transitionId protocolVersion
  | .daveExecuteTransition none => some c.listen
  | .daveExecuteTransition (some transitionId) => some (c.executeMessage transitionId)
  | .davePrepareEpoch epoch protocolVersion =>
      if epoch = some 1 then some (c.prepareEpoch (protocolVersion.getD 1)) else some c.listen
  | .binary op payload => some (c.post (.binaryEvent op payload))

/-- The end of `setup_udp_async`; success goes on to `SelectProtocol`. -/
def finishUdpSetup (c : Connection W H) (result : UdpSetup) : Option (Connection W H) :=
  match result with
  | .bindFailed => some c.listen
  | .connectFailed => some { c with udp := false }.listen
  | .discoveryFailed => some { c with udp := true }.listen
  | .done =>
      if c.ws = false then none
      else some { c with udp := true, sends := c.sends ++ [.listen] }

/-- A read of the websocket failed. -/
def readFailed (c : Connection W H) (closeCode : UInt16) : Connection W H :=
  if isResumableCloseCode closeCode ∧ c.connectionState = .ready then c.initiateReconnect
  else { c with connectionState := .closed, disconnected := true }

/-- `connect_ws_async` completed. -/
def finishConnect (c : Connection W H) (ok : Bool) : Connection W H :=
  if ok then { c with ws := true }.post .listen
  else { c with connectionState := .closed, disconnected := true }

variable [HashRatchet H]

/-- One step; `none` where the event cannot happen or memory is misused. -/
def step (c : Connection W H) (event : Event W) : Option (Connection W H) :=
  match event with
  | .run => some (if c.readyChan then c else { c with readyChan := true }.post .listen)
  | .message message entropy =>
      if c.reads = 0 then none
      else { c with reads := c.reads - 1 }.handleMessage message entropy
  | .readFailed closeCode =>
      if c.reads = 0 then none else some ({ c with reads := c.reads - 1 }.readFailed closeCode)
  | .task i env => do
      let task ← c.tasks[i]?
      { c with tasks := c.tasks.eraseIdx i }.runTask task env
  | .sent i ok env => do
      let h ← c.sends[i]?
      { c with sends := c.sends.eraseIdx i }.complete h ok env
  | .udpSetUp result =>
      if c.udpSetups = 0 then none
      else { c with udpSetups := c.udpSetups - 1 }.finishUdpSetup result
  | .heartbeatsMissed => some c.initiateReconnect
  | .reconnectTimer =>
      if c.reconnectTimers = 0 then none
      else
        let c := { c with reconnectTimers := c.reconnectTimers - 1 }
        some (if c.disconnected then c else { c with connects := c.connects + 1 })
  | .connected ok =>
      if c.connects = 0 then none
      else some ({ c with connects := c.connects - 1 }.finishConnect ok)
  | .datagram clock data => if c.receivers = 0 then none else c.receive clock data
  | .audio packet => c.send packet
  | .datagramSent i => do
      let frameCount ← c.datagrams[i]?
      some ({ c with datagrams := c.datagrams.eraseIdx i }.maintainSync frameCount)
  | .close => some (c.post .close)
  | .closed =>
      if c.closes = 0 then none
      else some { c with closes := c.closes - 1, ws := false, disconnected := true }
  | .requestStop => some c.requestStop

/-- The machine of a voice connection. -/
def machine (W : Setting) (H : Type) [HashRatchet H] : Machine (Connection W H) (Event W) where
  start := {}
  step := step

end Connection

end Ekizu.Voice
