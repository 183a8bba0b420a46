import Ekizu.Dave.Decryptor
import Ekizu.Dave.Encryptor
import Ekizu.Dave.Session
import Ekizu.Voice.Transport

/-!
# The voice connection and its DAVE handlers

The state of `VoiceConnection::Impl` (`voice_connection_impl.hpp`) and the
handlers of `voice_dave_handler.cpp`, with `on_speaking` of
`voice_receiver.cpp`, `setup_udp_async` and `handle_session_description_async`
of `voice_connection_impl.cpp`.

Handlers run on a strand.  A handler that is dispatched from a callback of the
websocket is a task of its own here, run at any later time and in any order; a
handler dispatched from the strand itself runs in place.  Each task, each
completed send and each message is one atomic step.  Using a null pointer or an
empty optional is `none`.

`log` lists what the connection has done, the last action first.  Nothing in
the code reads it; the results about runs are about it.
-/

namespace Ekizu.Voice

open Dave Lib.Decimal

/-- What a connection is given and never changes: the libraries it calls, and
`m_state`. -/
structure Setting where
  gcm : AesGcm
  sodium : Sodium
  mls : Mls
  userId : UInt64
  channelId : UInt64
  sessionId : Bytes

/-! ## State -/

/-- `Impl::DaveState`.  Session and encryptor are created with it and replaced,
never released, so that neither is a null pointer. -/
structure DaveState (W : Setting) (H : Type) where
  session : Session W.mls
  encryptor : Encryptor H := {}
  decryptors : AList (fun _ : Bytes => Decryptor H) := ∅
  cachedRosterMap : RosterMap := ∅
  protocolVersion : UInt16 := 0
  doneReady : Bool := false
  transientKey : Option W.mls.SignaturePrivateKey := none

/-- `enum class VoiceConnectionState`. -/
inductive VoiceConnectionState where
  | disconnected
  | connecting
  | identifying
  | ready
  | resuming
  | closed
  deriving Repr, DecidableEq

/-- The completion handlers `h` that the asynchronous functions are given. -/
inductive Handler where
  /-- Read the next message. -/
  | listen
  /-- `after_mls` of `handle_session_description_async`, then `listen`. -/
  | afterMls
  /-- The end of `execute_dave_transition_now_async`, then `listen`. -/
  | transition (protocolVersion : Int)
  /-- Execute the transition to the current version, then `listen`. -/
  | executeNow
  /-- The end of `recover_mls_after_invalid_transition_async`, then `listen`. -/
  | recover
  deriving Repr, DecidableEq

/-- The binary opcodes of the voice gateway. -/
inductive BinaryOpcode where
  | daveMlsExternalSender
  | daveMlsProposals
  | daveMlsAnnounceCommitTransition
  | daveMlsWelcome
  | other
  deriving Repr, DecidableEq

/-- The fields of a `SessionDescription` message.  `mode` is `none` for a mode
that is not supported. -/
structure SessionDescription where
  mode : Option VoiceTransportMode
  secretKey : Bytes
  daveProtocolVersion : Option Int
  deriving Repr, DecidableEq

/-- What waits to be run on the strand. -/
inductive Task where
  | listen
  | complete (h : Handler) (ok : Bool)
  | sessionDescription (description : SessionDescription)
  | binaryEvent (op : BinaryOpcode) (payload : Bytes)
  | maybeStartMls (forceReset : Bool) (h : Handler)
  | executeTransition (protocolVersion : Int)
  | speaking (userId : Bytes) (ssrc : UInt32) (speaking : Bool)
  | close
  deriving Repr, DecidableEq

/-- What a connection has done. -/
inductive Action (W : Setting) where
  /-- `setup_udp_async` ran. -/
  | setUpUdp
  /-- `maybe_start_mls_async` initialised the session. -/
  | startedMls
  /-- The session was reset. -/
  | resetSession
  /-- A commit was processed, which led to the epoch. -/
  | committed (epoch : Option W.mls.Epoch)
  /-- A Welcome to the epoch was processed, which changed these members. -/
  | welcomed (epoch : Option W.mls.Epoch) (users : List UInt64)
  /-- A transition was started. -/
  | executing (protocolVersion : Int)
  /-- `update_ratchets` gave the encryptor the ratchet of an epoch. -/
  | installedSender (epoch : W.mls.Epoch)
  /-- A transition found the encryptor without a ratchet. -/
  | noSenderRatchet
  /-- A transition ended with the encryptor out of passthrough. -/
  | transitioned (protocolVersion : Int)
  /-- A Speaking event replaced a user's decryptor. -/
  | spoke (userId : Bytes)
  /-- The sender called `encrypt`; after a success, the key and the nonce. -/
  | encrypted (used : Option (Bytes × Bytes))
  /-- The receiver delivered what it decrypted of a user's frame. -/
  | delivered (userId frame : Bytes)

/-- `VoiceConnection::Impl`, and what the executor holds for it: the strand's
queue, the sends and reads of the websocket that have not completed, and the
other operations in flight. -/
structure Connection (W : Setting) (H : Type) where
  dave : Option (DaveState W H) := none
  log : List (Action W) := []
  recognizedUserIds : List Bytes := []
  daveTransitionVersions : AList (fun _ : UInt16 => Int) := ∅
  ssrcToUserId : AList (fun _ : UInt32 => Bytes) := ∅
  userIdToSsrc : AList (fun _ : Bytes => UInt32) := ∅
  ssrc : UInt32 := 0
  crypto : VoiceCrypto := {}
  ws : Bool := true
  udp : Bool := false
  channel : Bool := false
  readyChan : Bool := false
  recvChan : Bool := false
  receiverRunning : Bool := false
  connectionState : VoiceConnectionState := .disconnected
  disconnected : Bool := false
  pendingFrames : UInt64 := 0
  rtpSequence : UInt16 := 0
  rtpTimestamp : UInt32 := 0
  tasks : List Task := []
  sends : List Handler := []
  reads : Nat := 0
  udpSetups : Nat := 0
  receivers : Nat := 0
  datagrams : List Nat := []
  reconnectTimers : Nat := 0
  connects : Nat := 0
  closes : Nat := 0

/-- What one step reads from outside: random bytes, and the clock when the
decryptor of a user gets a ratchet (once for the other managers, once for the
new one). -/
structure Env (W : Setting) where
  entropy : Entropy W.mls := {}
  now : UInt64 → Instant
  created : UInt64 → Instant

/-- `m_dave_user_list`.  Nothing in the source ever writes to it. -/
def daveUserList : List UInt64 := []

/-- `DEFAULT_TRANSITION_EXPIRY`, and the `ratchet_expiry` of `update_ratchets`. -/
def transitionExpiry : Int := seconds 10

namespace Connection

variable {W : Setting} {H : Type}

/-! ## The executor -/

/-- `asio::post` on the strand. -/
def post (c : Connection W H) (task : Task) : Connection W H :=
  { c with tasks := c.tasks ++ [task] }

/-- `ListenOp::step`. -/
def listen (c : Connection W H) : Connection W H :=
  if c.ws then { c with reads := c.reads + 1 } else c

/-- `send_voice_json` and `send_voice_binary`. -/
def sendVoice (c : Connection W H) (h : Handler) : Connection W H :=
  if c.ws then { c with sends := c.sends ++ [h] } else c.post (.complete h true)

/-- The action is logged. -/
def did (c : Connection W H) (action : Action W) : Connection W H :=
  { c with log := action :: c.log }

/-- `m_dave` gets a new value. -/
def setDave (c : Connection W H) (d : DaveState W H) : Connection W H :=
  { c with dave := some d }

end Connection

variable {W : Setting} {H : Type}

/-! ## Ratchets -/

/-- A new decryptor with the ratchet. -/
def newDecryptor (ratchet : KeyRatchet H) (now created : Instant) : Decryptor H :=
  ({} : Decryptor H).transitionToKeyRatchet (some ratchet) now created transitionExpiry

/-- A new decryptor with the ratchet takes the place of the user's old one. -/
def DaveState.installDecryptor (d : DaveState W H) (name : Bytes) (ratchet : KeyRatchet H)
    (now created : Instant) : DaveState W H :=
  { d with decryptors := d.decryptors.insert name (newDecryptor ratchet now created) }

variable [HashRatchet H]

/-- The loop body of `update_ratchets`. -/
def DaveState.updateUser (d : DaveState W H) (env : Env W) (userId : UInt64) : DaveState W H :=
  if userId = W.userId then d
  else
    let decryptor := (d.decryptors.lookup (toDecimal userId)).getD {}
    let decryptor :=
      match d.session.getKeyRatchet H userId with
      | some ratchet =>
          decryptor.transitionToKeyRatchet (some ratchet) (env.now userId)
            (env.created userId) transitionExpiry
      | none => decryptor
    { d with decryptors := d.decryptors.insert (toDecimal userId) decryptor }

/-- The loop body of the Welcome handler. -/
def DaveState.installReceiver (d : DaveState W H) (env : Env W) (userId : UInt64) :
    DaveState W H :=
  if userId = W.userId then d
  else
    match d.session.getKeyRatchet H userId with
    | some ratchet =>
        d.installDecryptor (toDecimal userId) ratchet (env.now userId) (env.created userId)
    | none => d

namespace Connection

/-- `update_ratchets`, on a connection with `m_dave`. -/
def updateRatchets (c : Connection W H) (d : DaveState W H) (env : Env W) : Connection W H :=
  let d := daveUserList.foldl (fun d userId => d.updateUser env userId) d
  match d.session.getKeyRatchet H W.userId with
  | none => c.setDave d
  | some ratchet =>
      let c := c.setDave { d with encryptor := d.encryptor.setKeyRatchet (some ratchet) }
      (d.session.currentState.map fun state =>
        c.did (.installedSender (W.mls.epochOf state))).getD c

/-! ## Completion handlers -/

/-- `after_mls`: the sender and receiver loops start. -/
def afterMls (c : Connection W H) (ok : Bool) : Connection W H :=
  if ok = false then c.listen
  else
    let c := { c with channel := true, recvChan := true }
    let c := if c.udp then { c with receiverRunning := true, receivers := c.receivers + 1 } else c
    c.listen

/-- The end of a transition: take the ratchets of the epoch and leave
passthrough. -/
def finishTransition (c : Connection W H) (protocolVersion : Int) (ok : Bool) (env : Env W) :
    Connection W H :=
  match c.dave with
  | none => c.listen
  | some d =>
      if ok = false then c.listen
      else
        let c := c.updateRatchets d env
        match c.dave with
        | none => c.listen
        | some d =>
            if d.encryptor.hasKeyRatchet then
              ((c.setDave { d with encryptor := d.encryptor.setPassthroughMode false }).did
                (.transitioned protocolVersion)).listen
            else
              ((c.setDave { d with encryptor := d.encryptor.setPassthroughMode true }).did
                .noSenderRatchet).listen

/-- `Session::reset`, where there is a session. -/
def resetSession (c : Connection W H) : Connection W H :=
  match c.dave with
  | none => c
  | some d => (c.setDave { d with session := d.session.reset }).did .resetSession

/-- Run a completion handler. -/
def complete (c : Connection W H) (h : Handler) (ok : Bool) (env : Env W) :
    Option (Connection W H) :=
  match h with
  | .listen => some c.listen
  | .afterMls => some (c.afterMls ok)
  | .transition protocolVersion => some (c.finishTransition protocolVersion ok env)
  | .executeNow =>
      if ok = false then some c.listen
      else c.dave.map fun d => c.post (.executeTransition d.protocolVersion.toNat)
  | .recover =>
      if ok = false then some c.listen
      else some (c.resetSession.post (.maybeStartMls true .listen))

/-! ## Starting MLS -/

/-- `send_mls_key_package`. -/
def sendMlsKeyPackage (c : Connection W H) (h : Handler) (env : Env W) : Connection W H :=
  match c.dave with
  | none => c.post (.complete h false)
  | some d =>
      let (session, package) := d.session.getMarshalledKeyPackage env.entropy
      let c := c.setDave { d with session }
      if package = [] then c.post (.complete h false) else c.sendVoice h

/-- `maybe_start_mls_async` from the initialisation on. -/
def startMls (c : Connection W H) (d : DaveState W H) (h : Handler) (env : Env W) :
    Connection W H :=
  let (session, transientKey) :=
    d.session.init env.entropy d.protocolVersion W.channelId W.userId d.transientKey
  let encryptor :=
    (({} : Encryptor H).assignSsrcToCodec c.ssrc .opus).setPassthroughMode true
  ((c.setDave { d with session, transientKey, encryptor }).did .startedMls).sendMlsKeyPackage
    h env

/-- `maybe_start_mls_async`. -/
def maybeStartMls (c : Connection W H) (forceReset : Bool) (h : Handler) (env : Env W) :
    Option (Connection W H) :=
  match c.dave with
  | none => c.complete h true env
  | some d =>
      if d.protocolVersion = 0 then c.complete h true env
      else
        let c := if forceReset then c.resetSession else c
        match c.dave with
        | none => c.complete h true env
        | some d =>
            if d.session.isInitialized ∧ forceReset = false then c.complete h true env
            else if d.session.hasExternalSender = false then c.complete h true env
            else some (c.startMls d h env)

/-! ## Transitions -/

/-- The conversion of an `int` to `ProtocolVersion`. -/
def toProtocolVersion (version : Int) : UInt16 := (version % 65536).toNat.toUInt16

/-- `execute_dave_transition_now_async`. -/
def executeTransition (c : Connection W H) (protocolVersion : Int) (env : Env W) :
    Option (Connection W H) :=
  match c.dave with
  | none => some c.listen
  | some d =>
      let version := toProtocolVersion protocolVersion
      let d := { d with
        doneReady := false
        protocolVersion := version
        session := d.session.setProtocolVersion version }
      let c := (c.setDave d).did (.executing protocolVersion)
      if protocolVersion = 0 then
        some ((c.setDave { d with
          session := d.session.reset
          encryptor := d.encryptor.setPassthroughMode true }).did .resetSession).listen
      else c.maybeStartMls false (.transition protocolVersion) env

/-! ## Binary events -/

/-- `convert_to_numeric_ids` of the recognised users, with this client. -/
def recognized (c : Connection W H) : List UInt64 :=
  W.userId :: c.recognizedUserIds.filterMap stoull

/-- The loop of the Welcome handler over the changes to the roster. -/
def installReceivers (d : DaveState W H) (changeMap : RosterMap) (env : Env W) :
    DaveState W H :=
  changeMap.keys.foldl (fun d userId => d.installReceiver env userId) d

/-- `transition_ready`, followed by the transition itself when it has the id 0. -/
def sendReady (c : Connection W H) (transitionId : UInt16) : Connection W H :=
  c.sendVoice (if transitionId = 0 then .executeNow else .listen)

/-- `DaveMlsAnnounceCommitTransition`. -/
def announceCommit (c : Connection W H) (d : DaveState W H) (payload : Bytes) :
    Connection W H :=
  if payload.length < 2 then c.listen
  else
    match d.session.processCommit (payload.drop 2) with
    | (session, .roster changeMap) =>
        ((c.setDave { d with session, cachedRosterMap := changeMap }).did
          (.committed session.epoch)).sendReady (readU16Be payload)
    | (session, _) => (c.setDave { d with session }).sendVoice .recover

/-- `DaveMlsWelcome`. -/
def welcome (c : Connection W H) (d : DaveState W H) (payload : Bytes) (env : Env W) :
    Connection W H :=
  if payload.length < 2 then c.listen
  else
    match d.session.processWelcome (payload.drop 2) with
    | (session, some changeMap) =>
        ((c.setDave (installReceivers { d with session } changeMap env)).did
          (.welcomed session.epoch changeMap.keys)).sendReady (readU16Be payload)
    | (session, none) => (c.setDave { d with session }).sendVoice .recover

/-- `handle_binary_event_async`. -/
def handleBinaryEvent (c : Connection W H) (op : BinaryOpcode) (payload : Bytes)
    (env : Env W) : Option (Connection W H) :=
  match c.dave with
  | none => some c.listen
  | some d =>
      match op with
      | .daveMlsExternalSender =>
          (c.setDave { d with session := d.session.setExternalSender payload }).maybeStartMls
            false .listen env
      | .daveMlsProposals =>
          match d.session.processProposals env.entropy payload c.recognized with
          | (session, none) => some (c.setDave { d with session }).listen
          | (session, some _) => some ((c.setDave { d with session }).sendVoice .listen)
      | .daveMlsAnnounceCommitTransition => some (c.announceCommit d payload)
      | .daveMlsWelcome => some (c.welcome d payload env)
      | .other => some c.listen

/-! ## Sessions and speakers -/

/-- `setup_udp_async` up to its first asynchronous operation. -/
def setupUdp (c : Connection W H) (ssrc : UInt32) (entropy : Entropy W.mls) :
    Connection W H :=
  let d := c.dave.getD {
    session := { signingKeyId := W.sessionId }
    transientKey := entropy.persistedKey }
  let encryptor := (d.encryptor.assignSsrcToCodec ssrc .opus).setPassthroughMode true
  ({ c with ssrc, udpSetups := c.udpSetups + 1 }.setDave { d with encryptor }).did .setUpUdp

/-- `handle_session_description_async`. -/
def handleSessionDescription (c : Connection W H) (description : SessionDescription)
    (env : Env W) : Option (Connection W H) :=
  let c := { c with crypto := { c.crypto with key := description.secretKey, nonce := 0 } }
  match description.mode with
  | none => some c.listen
  | some mode =>
      let c := { c with crypto := { c.crypto with mode } }
      let version := toProtocolVersion (description.daveProtocolVersion.getD 0)
      match c.dave with
      | none => some (c.afterMls true)
      | some d =>
          let d := { d with
            protocolVersion := version
            session := d.session.setProtocolVersion version }
          let c := c.setDave d
          if d.protocolVersion ≠ 0 then c.maybeStartMls false .afterMls env
          else some (c.afterMls true)

/-- The decryptor `on_speaking` installs. -/
def installSpeaker (c : Connection W H) (d : DaveState W H) (userId : Bytes) (env : Env W) :
    Connection W H :=
  if d.session.hasCurrentState = false then c
  else
    match stoull userId with
    | none => c
    | some numericUserId =>
        match d.session.getKeyRatchet H numericUserId with
        | none => c
        | some ratchet =>
            (c.setDave (d.installDecryptor userId ratchet (env.now numericUserId)
              (env.created numericUserId))).did (.spoke userId)

/-- `on_speaking`. -/
def onSpeaking (c : Connection W H) (userId : Bytes) (ssrc : UInt32) (speaking : Bool)
    (env : Env W) : Connection W H :=
  if speaking = false then c
  else
    let c := { c with
      ssrcToUserId := c.ssrcToUserId.insert ssrc userId
      userIdToSsrc := c.userIdToSsrc.insert userId ssrc
      recognizedUserIds := c.recognizedUserIds.insert userId }
    match c.dave with
    | none => c
    | some d => c.installSpeaker d userId env

/-! ## Closing -/

/-- `request_stop`. -/
def requestStop (c : Connection W H) : Connection W H :=
  { c with
    disconnected := true
    receiverRunning := false
    channel := false
    readyChan := false
    recvChan := false
    udp := false
    dave := none }

/-- `close`; it uses `m_dave` without a check. -/
def close (c : Connection W H) : Option (Connection W H) :=
  let c := { c with channel := false, readyChan := false, recvChan := false, udp := false }
  c.dave.map fun d =>
    if d.session.hasExternalSender = false then c
    else if c.ws = false then { c with disconnected := true }
    else { c with closes := c.closes + 1 }

/-- Run a task of the strand. -/
def runTask (c : Connection W H) (task : Task) (env : Env W) : Option (Connection W H) :=
  match task with
  | .listen => some c.listen
  | .complete h ok => c.complete h ok env
  | .sessionDescription description => c.handleSessionDescription description env
  | .binaryEvent op payload => c.handleBinaryEvent op payload env
  | .maybeStartMls forceReset h => c.maybeStartMls forceReset h env
  | .executeTransition protocolVersion => c.executeTransition protocolVersion env
  | .speaking userId ssrc speaking => some (c.onSpeaking userId ssrc speaking env)
  | .close => c.close

end Connection

end Ekizu.Voice
