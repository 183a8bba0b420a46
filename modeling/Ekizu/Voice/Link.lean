import Ekizu.Voice.Gateway

/-!
# What the handlers leave alone

The handlers of the strand work on the DAVE state, on the queues of the strand
and on the websocket's reads and sends.  `Link` is the part of a connection
they do not touch: the sockets, the reconnects in flight, the transport keys,
and the packets of the sender and its clock.

## Main results

* `complete_link`, `runTask_link` — completion handlers and tasks keep the link,
  a `SessionDescription` and `close` apart.
* `handleSessionDescription_link` — a `SessionDescription` changes the keys.
* `initiateReconnect_link` — a reconnect gives the websocket up.
* `handleMessage_link`, `send_link` — what a message of the gateway and a packet do
  to it.
* `step_link` — what every step does to it.
-/

namespace Ekizu.Voice

open Dave

/-- The sockets, the reconnects, the keys, the packets and the RTP clock of a
connection.  The reads are those of a websocket that was given up. -/
structure Link where
  ws : Bool
  udp : Bool
  connectionState : VoiceConnectionState
  disconnected : Bool
  crypto : VoiceCrypto
  pendingFrames : UInt64
  datagrams : List Nat
  rtpTimestamp : UInt32
  reconnectTimers : Nat
  connects : Nat
  closes : Nat
  udpSetups : Nat
  orphanedReads : Nat
  deriving Repr, DecidableEq

/-- The link after a message. -/
def Link.message (l : Link) : ServerMessage → Link
  | .ready _ =>
      { l with
        connectionState := .ready
        disconnected := false
        udpSetups := l.udpSetups + 1 }
  | .resumed => { l with connectionState := .ready, disconnected := false }
  | .hello =>
      { l with connectionState :=
          if l.connectionState = .resuming then l.connectionState else .identifying }
  | _ => l

namespace Connection

variable {W : Setting} {H : Type} {c c' : Connection W H} {d : DaveState W H}

def link (c : Connection W H) : Link where
  ws := c.ws
  udp := c.udp
  connectionState := c.connectionState
  disconnected := c.disconnected
  crypto := c.crypto
  pendingFrames := c.pendingFrames
  datagrams := c.datagrams
  rtpTimestamp := c.rtpTimestamp
  reconnectTimers := c.reconnectTimers
  connects := c.connects
  closes := c.closes
  udpSetups := c.udpSetups
  orphanedReads := if c.ws then 0 else c.reads

/-! ## The executor -/

@[simp] theorem link_post (task : Task) : (c.post task).link = c.link := rfl

@[simp] theorem link_did (action : Action W) : (c.did action).link = c.link := rfl

@[simp] theorem link_setDave : (c.setDave d).link = c.link := rfl

@[simp] theorem link_listen : c.listen.link = c.link := by
  unfold listen
  split
  · next hws => simp [link, hws]
  · rfl

@[simp] theorem link_sendVoice (h : Handler) : (c.sendVoice h).link = c.link := by
  unfold sendVoice
  split <;> rfl

@[simp] theorem link_sendReady (transitionId : UInt16) :
    (c.sendReady transitionId).link = c.link := link_sendVoice _

@[simp] theorem link_afterMls (ok : Bool) : (c.afterMls ok).link = c.link := by
  unfold afterMls
  split
  · exact link_listen
  · dsimp only
    rw [link_listen]
    split <;> rfl

@[simp] theorem link_resetSession : c.resetSession.link = c.link := by
  unfold resetSession
  split <;> rfl

@[simp] theorem link_enablePassthrough : c.enablePassthrough.link = c.link := rfl

@[simp] theorem link_executeMessage (transitionId : UInt16) :
    (c.executeMessage transitionId).link = c.link := rfl

@[simp] theorem link_prepareEpoch (version : Int) : (c.prepareEpoch version).link = c.link := by
  unfold prepareEpoch
  dsimp only
  rw [link_post]
  split <;> rfl

@[simp] theorem link_setupUdp (ssrc : UInt32) (entropy : Entropy W.mls) :
    (c.setupUdp ssrc entropy).link = { c.link with udpSetups := c.udpSetups + 1 } := rfl

@[simp] theorem link_announceCommit (payload : Bytes) :
    (c.announceCommit d payload).link = c.link := by
  unfold announceCommit
  split
  · exact link_listen
  · split <;> simp

@[simp] theorem link_sendMlsKeyPackage (h : Handler) (env : Env W) :
    (c.sendMlsKeyPackage h env).link = c.link := by
  unfold sendMlsKeyPackage
  split
  · rfl
  · dsimp only
    split <;> simp

@[simp] theorem link_startMls (h : Handler) (env : Env W) :
    (c.startMls d h env).link = c.link := by
  simp [startMls]

variable [HashRatchet H]

@[simp] theorem link_updateRatchets (env : Env W) :
    (c.updateRatchets d env).link = c.link := by
  unfold updateRatchets
  dsimp only
  split
  · rfl
  · cases (daveUserList.foldl (fun d userId => d.updateUser env userId) d).session.currentState <;>
      rfl

@[simp] theorem link_finishTransition (version : Int) (ok : Bool) (env : Env W) :
    (c.finishTransition version ok env).link = c.link := by
  unfold finishTransition
  split
  · exact link_listen
  · split
    · exact link_listen
    · dsimp only
      split
      · simp
      · split <;> simp

@[simp] theorem link_welcome (payload : Bytes) (env : Env W) :
    (c.welcome d payload env).link = c.link := by
  unfold welcome
  split
  · exact link_listen
  · split <;> simp

@[simp] theorem link_onSpeaking (userId : Bytes) (ssrc : UInt32) (speaking : Bool)
    (env : Env W) : (c.onSpeaking userId ssrc speaking env).link = c.link := by
  unfold onSpeaking
  split
  · rfl
  · dsimp only
    split
    · rfl
    · unfold installSpeaker
      split
      · rfl
      · split
        · rfl
        · split <;> rfl

/-! ## Handlers -/

theorem complete_link {h : Handler} {ok : Bool} {env : Env W}
    (hrun : c.complete h ok env = some c') : c'.link = c.link := by
  cases h with
  | listen =>
      obtain rfl := Option.some.inj hrun
      exact link_listen
  | afterMls =>
      obtain rfl := Option.some.inj hrun
      exact link_afterMls ok
  | transition version =>
      obtain rfl := Option.some.inj hrun
      exact link_finishTransition version ok env
  | executeNow =>
      simp only [complete] at hrun
      split at hrun
      · obtain rfl := Option.some.inj hrun
        exact link_listen
      · obtain ⟨d, -, rfl⟩ := Option.map_eq_some_iff.mp hrun
        rfl
  | recover =>
      simp only [complete] at hrun
      split at hrun
      · obtain rfl := Option.some.inj hrun
        exact link_listen
      · obtain rfl := Option.some.inj hrun
        exact link_resetSession

theorem maybeStartMls_link {forceReset : Bool} {h : Handler} {env : Env W}
    (hrun : c.maybeStartMls forceReset h env = some c') : c'.link = c.link := by
  unfold maybeStartMls at hrun
  split at hrun
  · exact complete_link hrun
  · split at hrun
    · exact complete_link hrun
    · dsimp only at hrun
      have hreset : (if forceReset then c.resetSession else c).link = c.link := by
        split
        · exact link_resetSession
        · rfl
      rw [← hreset]
      split at hrun
      · exact complete_link hrun
      · split at hrun
        · exact complete_link hrun
        · split at hrun
          · exact complete_link hrun
          · obtain rfl := Option.some.inj hrun
            exact link_startMls h env

theorem executeTransition_link {version : Int} {env : Env W}
    (hrun : c.executeTransition version env = some c') : c'.link = c.link := by
  unfold executeTransition at hrun
  split at hrun
  · obtain rfl := Option.some.inj hrun
    exact link_listen
  · dsimp only at hrun
    split at hrun
    · obtain rfl := Option.some.inj hrun
      simp
    · rw [maybeStartMls_link hrun]
      rfl

theorem handleBinaryEvent_link {op : BinaryOpcode} {payload : Bytes} {env : Env W}
    (hrun : c.handleBinaryEvent op payload env = some c') : c'.link = c.link := by
  unfold handleBinaryEvent at hrun
  split at hrun
  · obtain rfl := Option.some.inj hrun
    exact link_listen
  · cases op with
    | daveMlsExternalSender =>
        rw [maybeStartMls_link hrun]
        rfl
    | daveMlsProposals =>
        dsimp only at hrun
        split at hrun
        · obtain rfl := Option.some.inj hrun
          simp
        · obtain rfl := Option.some.inj hrun
          simp
    | daveMlsAnnounceCommitTransition =>
        obtain rfl := Option.some.inj hrun
        exact link_announceCommit payload
    | daveMlsWelcome =>
        obtain rfl := Option.some.inj hrun
        exact link_welcome payload env
    | other =>
        obtain rfl := Option.some.inj hrun
        exact link_listen

/-- The keys after a `SessionDescription`. -/
def describedCrypto (crypto : VoiceCrypto) (description : SessionDescription) : VoiceCrypto :=
  { mode := description.mode.getD crypto.mode, key := description.secretKey, nonce := 0 }

theorem handleSessionDescription_link {description : SessionDescription} {env : Env W}
    (hrun : c.handleSessionDescription description env = some c') :
    c'.link = { c.link with crypto := describedCrypto c.crypto description } := by
  unfold handleSessionDescription at hrun
  dsimp only at hrun
  split at hrun
  · next hmode =>
      obtain rfl := Option.some.inj hrun
      rw [link_listen, describedCrypto, hmode]
      rfl
  · next mode hmode =>
      rw [describedCrypto, hmode]
      split at hrun
      · obtain rfl := Option.some.inj hrun
        rw [link_afterMls]
        rfl
      · split at hrun
        · rw [maybeStartMls_link hrun]
          rfl
        · obtain rfl := Option.some.inj hrun
          rw [link_afterMls]
          rfl

omit [HashRatchet H] in
/-- `close` gives the socket up and goes on to the websocket, if it gets there. -/
theorem close_link (hrun : c.close = some c') :
    c'.link = { c.link with udp := false } ∨
    c.ws = false ∧ c'.link = { c.link with udp := false, disconnected := true } ∨
    c'.link = { c.link with udp := false, closes := c.closes + 1 } := by
  obtain ⟨d, -, rfl⟩ := Option.map_eq_some_iff.mp hrun
  split
  · exact .inl rfl
  · split
    · next hws => exact .inr (.inl ⟨hws, rfl⟩)
    · exact .inr (.inr rfl)

/-- **Tasks** keep the link, a `SessionDescription` and `close` apart. -/
theorem runTask_link {task : Task} {env : Env W} (hrun : c.runTask task env = some c')
    (hdescription : ∀ description, task ≠ .sessionDescription description)
    (hclose : task ≠ .close) : c'.link = c.link := by
  cases task with
  | listen =>
      obtain rfl := Option.some.inj hrun
      exact link_listen
  | complete h ok => exact complete_link hrun
  | sessionDescription description => exact absurd rfl (hdescription description)
  | binaryEvent op payload => exact handleBinaryEvent_link hrun
  | maybeStartMls forceReset h => exact maybeStartMls_link hrun
  | executeTransition version => exact executeTransition_link hrun
  | speaking userId ssrc speaking =>
      obtain rfl := Option.some.inj hrun
      exact link_onSpeaking userId ssrc speaking env
  | close => exact absurd rfl hclose

/-! ## Reconnects -/

omit [HashRatchet H] in
/-- A reconnect gives the websocket up, with the reads in flight. -/
theorem initiateReconnect_link (halive : c.disconnected = false) :
    c.initiateReconnect.link = { c.link with
      ws := false
      connectionState := if c.connectionState = .ready then .resuming else .connecting
      reconnectTimers := c.reconnectTimers + 1
      orphanedReads := c.reads } := by
  have hproceeds : ¬ c.disconnected = true := by simp [halive]
  unfold initiateReconnect
  rw [if_neg hproceeds]
  rfl

/-! ## Messages, datagrams and packets -/

omit [HashRatchet H] in
theorem prepareTransition_link {transitionId : UInt16} {protocolVersion : Option Int}
    (hrun : c.prepareTransition transitionId protocolVersion = some c') : c'.link = c.link := by
  unfold prepareTransition at hrun
  dsimp only at hrun
  split at hrun
  · split at hrun
    · obtain rfl := Option.some.inj hrun
      rfl
    · obtain rfl := Option.some.inj hrun
      rw [link_listen]
      rfl
  · set c₁ : Connection W H := { c with daveTransitionVersions := _ } with hc₁
    have hkept : (if protocolVersion.getD
        ((c.dave.map fun d => (d.protocolVersion.toNat : Int)).getD 0) = 0 then
          c₁.enablePassthrough else c₁).link = c.link := by
      split <;> rfl
    generalize (if _ = (0 : Int) then c₁.enablePassthrough else c₁) = c₂ at hrun hkept
    split at hrun
    · simp at hrun
    · obtain rfl := Option.some.inj hrun
      exact hkept

omit [HashRatchet H] in
/-- **Messages** change the state of the connection and nothing else of the
link. -/
theorem handleMessage_link {message : ServerMessage} {entropy : Entropy W.mls}
    (hrun : c.handleMessage message entropy = some c') : c'.link = c.link.message message := by
  cases message with
  | ignored | clientsConnect userIds | clientDisconnect userId =>
      obtain rfl := Option.some.inj hrun
      exact link_listen
  | speaking userId ssrc speaking =>
      obtain rfl := Option.some.inj hrun
      exact link_listen
  | ready ssrc =>
      obtain rfl := Option.some.inj hrun
      rfl
  | sessionDescription description | binary op payload =>
      obtain rfl := Option.some.inj hrun
      rfl
  | hello =>
      simp only [handleMessage] at hrun
      split at hrun
      · cases hrun
      · obtain rfl := Option.some.inj hrun
        have hmessage : c.link.message .hello = { c.link with
            connectionState :=
              if c.connectionState = .resuming then c.connectionState else .identifying } := rfl
        rw [hmessage]
        by_cases hresuming : c.connectionState = .resuming
        · simp only [if_pos hresuming]
          rfl
        · simp only [if_neg hresuming]
          rfl
  | resumed =>
      obtain rfl := Option.some.inj hrun
      exact link_listen
  | davePrepareTransition transitionId protocolVersion =>
      cases transitionId with
      | none =>
          obtain rfl := Option.some.inj hrun
          exact link_listen
      | some transitionId => exact prepareTransition_link hrun
  | daveExecuteTransition transitionId =>
      cases transitionId with
      | none =>
          obtain rfl := Option.some.inj hrun
          exact link_listen
      | some transitionId =>
          obtain rfl := Option.some.inj hrun
          exact link_executeMessage transitionId
  | davePrepareEpoch epoch protocolVersion =>
      simp only [handleMessage] at hrun
      split at hrun
      · obtain rfl := Option.some.inj hrun
        exact link_prepareEpoch _
      · obtain rfl := Option.some.inj hrun
        exact link_listen

theorem receive_link {clock : DecryptClock} {data : Bytes}
    (hrun : c.receive clock data = some c') : c'.link = c.link := by
  obtain ⟨⟨c₁, packet⟩, hprocess, hrun⟩ := Option.bind_eq_some_iff.mp hrun
  have hlink : c₁.link = c.link := by
    rcases process_cases hprocess with ⟨rfl, -⟩ | ⟨-, -, -, rfl, -⟩ | ⟨-, -, -, rfl, -⟩ |
      ⟨d, m, userId, decryptor, call, -, ⟨-, -, rfl⟩ | ⟨written, -, -, rfl⟩⟩
    · rfl
    · rfl
    · rfl
    · rfl
    · rfl
  rw [← hlink]
  dsimp only at hrun
  split at hrun
  · simp at hrun
  · obtain rfl := Option.some.inj hrun
    split <;> rfl

omit [HashRatchet H] in
/-- The bytes `transmit` hands to the socket. -/
def sealed (c : Connection W H) (payload : Bytes) : Option Bytes :=
  (c.crypto.encryptRtp W.sodium c.rtpHeader payload).2

omit [HashRatchet H] in
/-- The link after `encrypt_rtp` made the datagram, or failed. -/
def afterEncrypt (c : Connection W H) (payload : Bytes) (frameCount : Nat) : Link :=
  let crypto := { c.crypto with nonce := c.crypto.nonce + 1 }
  match c.sealed payload with
  | none =>
      { c.link with
        crypto
        pendingFrames := c.pendingFrames - 1
        rtpTimestamp := c.rtpTimestamp + UInt32.ofNat frameCount }
  | some _ => { c.link with crypto, datagrams := c.datagrams ++ [frameCount] }

omit [HashRatchet H] in
theorem transmit_link (c : Connection W H) (payload : Bytes) (frameCount : Nat) :
    (c.transmit payload frameCount).link = c.afterEncrypt payload frameCount := by
  unfold transmit afterEncrypt sealed
  dsimp only
  cases (c.crypto.encryptRtp W.sodium c.rtpHeader payload).2 with
  | none => rfl
  | some bytes => rfl

/-- What `send` puts into an RTP packet: the frame, encrypted end to end where
DAVE is active.  `none` where it sends nothing. -/
def sentPayload (c : Connection W H) (packet : AudioPacket) : Option Bytes :=
  if c.udp = false then none
  else
    match c.senderDave with
    | none => some packet.encoded
    | some d =>
        match d.encryptor.encrypt W.gcm .audio c.ssrc packet.encoded
            (List.replicate
              (Encryptor.getMaxCiphertextByteSize .audio packet.encoded.length) 0) with
        | some (_, .ok (n, ciphertext)) => some (ciphertext.take n)
        | _ => none

omit [HashRatchet H] in
/-- The link after a packet that was not sent: without a socket it is dropped, else the
clock goes on. -/
def afterDrop (c : Connection W H) (packet : AudioPacket) : Link :=
  { c.link with
    pendingFrames := c.pendingFrames - 1
    rtpTimestamp :=
      if c.udp = false then c.rtpTimestamp
      else c.rtpTimestamp + UInt32.ofNat packet.frameCount }

/-- **What a send does to the link**: the payload, if there is one, is encrypted
with the next nonce. -/
theorem send_link {c c' : Connection W H} {packet : AudioPacket}
    (h : c.send packet = some c') :
    c'.link =
      match c.sentPayload packet with
      | none => c.afterDrop packet
      | some payload => c.afterEncrypt payload packet.frameCount := by
  unfold send at h
  unfold sentPayload
  split at h
  · next hudp =>
      obtain rfl := Option.some.inj h
      rw [if_pos hudp]
      simp only [afterDrop, if_pos hudp]
      rfl
  · next hudp =>
      rw [if_neg hudp]
      cases hdave : c.senderDave with
      | none =>
          rw [hdave] at h
          obtain rfl := Option.some.inj h
          exact c.transmit_link packet.encoded packet.frameCount
      | some d =>
          rw [hdave] at h
          obtain ⟨⟨encryptor, result⟩, hencrypt, h⟩ := Option.bind_eq_some_iff.mp h
          dsimp only at h hencrypt ⊢
          rw [hencrypt]
          split at h
          · obtain rfl := Option.some.inj h
            simp only [afterDrop, if_neg hudp]
            rfl
          · next n ciphertext =>
              obtain rfl := Option.some.inj h
              exact transmit_link _ (ciphertext.take n) packet.frameCount

/-! ## Steps -/

/-- The event stops the connection: `request_stop`, or the strand runs `close`. -/
def stops (c : Connection W H) : Event W → Bool
  | .requestStop => true
  | .task i _ => c.tasks[i]? = some .close
  | _ => false

/-- What the link is after an event. -/
def LinkAfter (c : Connection W H) (l : Link) : Event W → Prop
  | .run | .sent _ _ _ | .datagram _ _ | .close => l = c.link
  | .message message _ =>
      c.reads ≠ 0 ∧ l = { c with reads := c.reads - 1 }.link.message message
  | .readFailed closeCode =>
      c.reads ≠ 0 ∧ l = ({ c with reads := c.reads - 1 }.readFailed closeCode).link
  | .task i _ =>
      match c.tasks[i]? with
      | none => False
      | some (.sessionDescription description) =>
          l = { c.link with crypto := describedCrypto c.crypto description }
      | some .close =>
          l = { c.link with udp := false } ∨
          c.ws = false ∧ l = { c.link with udp := false, disconnected := true } ∨
          l = { c.link with udp := false, closes := c.closes + 1 }
      | some _ => l = c.link
  | .udpSetUp result =>
      (result = .done → c.ws = true) ∧ ∃ udp, l = { c.link with
        udp
        udpSetups := c.udpSetups - 1 }
  | .heartbeatsMissed => l = c.initiateReconnect.link
  | .reconnectTimer =>
      c.reconnectTimers ≠ 0 ∧
        l = if c.disconnected then { c.link with reconnectTimers := c.reconnectTimers - 1 }
          else { c.link with
            reconnectTimers := c.reconnectTimers - 1
            connects := c.connects + 1 }
  | .connected ok =>
      c.connects ≠ 0 ∧
        l = ({ c with connects := c.connects - 1 }.finishConnect ok).link
  | .audio packet =>
      l = match c.sentPayload packet with
        | none => c.afterDrop packet
        | some payload => c.afterEncrypt payload packet.frameCount
  | .datagramSent i =>
      i < c.datagrams.length ∧ l = { c.link with
        pendingFrames := c.pendingFrames - 1
        datagrams := c.datagrams.eraseIdx i
        rtpTimestamp := c.rtpTimestamp + UInt32.ofNat (c.datagrams.getD i 0) }
  | .closed =>
      c.closes ≠ 0 ∧ l = { c.link with
        ws := false
        disconnected := true
        closes := c.closes - 1
        orphanedReads := c.reads }
  | .requestStop => l = { c.link with udp := false, disconnected := true }

/-- **Every step**, as far as the link goes. -/
theorem step_link {e : Event W} (hstep : c.step e = some c') : c.LinkAfter c'.link e := by
  cases e with
  | run =>
      obtain rfl := Option.some.inj hstep
      simp only [LinkAfter]
      split <;> rfl
  | message message entropy =>
      simp only [step] at hstep
      split at hstep
      · simp at hstep
      · next hreads => exact ⟨hreads, handleMessage_link hstep⟩
  | readFailed closeCode =>
      simp only [step] at hstep
      split at hstep
      · simp at hstep
      · next hreads =>
          obtain rfl := Option.some.inj hstep
          exact ⟨hreads, rfl⟩
  | task i env =>
      obtain ⟨task, htask, hrun⟩ := Option.bind_eq_some_iff.mp hstep
      simp only [LinkAfter, htask]
      cases task with
      | sessionDescription description =>
          exact handleSessionDescription_link (c := { c with tasks := c.tasks.eraseIdx i }) hrun
      | close => exact close_link (c := { c with tasks := c.tasks.eraseIdx i }) hrun
      | listen | complete | binaryEvent | maybeStartMls | executeTransition | speaking =>
          exact runTask_link (c := { c with tasks := c.tasks.eraseIdx i }) hrun (by simp) (by simp)
  | sent i ok env =>
      obtain ⟨h, -, hrun⟩ := Option.bind_eq_some_iff.mp hstep
      exact complete_link (c := { c with sends := c.sends.eraseIdx i }) hrun
  | udpSetUp result =>
      simp only [step] at hstep
      split at hstep
      · simp at hstep
      · cases result with
        | bindFailed | connectFailed | discoveryFailed =>
            obtain rfl := Option.some.inj hstep
            exact ⟨by simp, _, link_listen⟩
        | done =>
            simp only [finishUdpSetup] at hstep
            split at hstep
            · simp at hstep
            · next hws =>
                obtain rfl := Option.some.inj hstep
                exact ⟨fun _ => by simpa using hws, _, rfl⟩
  | heartbeatsMissed =>
      obtain rfl := Option.some.inj hstep
      rfl
  | reconnectTimer =>
      simp only [step] at hstep
      split at hstep
      · simp at hstep
      · next htimers =>
          obtain rfl := Option.some.inj hstep
          refine ⟨htimers, ?_⟩
          dsimp only
          split <;> rfl
  | connected ok =>
      simp only [step] at hstep
      split at hstep
      · simp at hstep
      · next hconnects =>
          obtain rfl := Option.some.inj hstep
          exact ⟨hconnects, rfl⟩
  | datagram clock data =>
      simp only [step] at hstep
      split at hstep
      · simp at hstep
      · exact receive_link hstep
  | audio packet => exact send_link hstep
  | datagramSent i =>
      obtain ⟨frameCount, hfound, hrun⟩ := Option.bind_eq_some_iff.mp hstep
      obtain rfl := Option.some.inj hrun
      refine ⟨(List.getElem?_eq_some_iff.mp hfound).1, ?_⟩
      rw [List.getD_eq_getElem?_getD, hfound]
      rfl
  | close =>
      obtain rfl := Option.some.inj hstep
      rfl
  | closed =>
      simp only [step] at hstep
      split at hstep
      · simp at hstep
      · next hcloses =>
          obtain rfl := Option.some.inj hstep
          exact ⟨hcloses, rfl⟩
  | requestStop =>
      obtain rfl := Option.some.inj hstep
      rfl

end Connection

end Ekizu.Voice
