import Ekizu.Dave.RoundTrip
import Ekizu.Voice.Delivery
import Ekizu.Voice.Nonces
import Ekizu.Voice.Rtp

/-!
# From one connection to another

A frame that one connection encrypts and sends, and what another connection in
the same call makes of the datagram.

An encrypted frame is as long as the frame, the supplemental bytes and the LEB128
form of its nonce together, 12 bytes more than the frame for the first nonces.
The receiver drops everything below `min_dave_frame_size`, 44 bytes, before it
looks for a decryptor.

## Main results

* `delivers_sent_iff` — the frame is delivered exactly when its encrypted form has
  at least 44 bytes, and the receiver is in a version of DAVE at all.
* `drops_short_frame` — a short frame is dropped.
-/

namespace Ekizu.Voice

open Dave Lib.Decimal Lib.Runs

variable {W : Setting} {H : Type} [HashRatchet H] [LawfulHashRatchet H]

/-! ## Senders and receivers -/

/-- No SSRC is assigned anything but Opus. -/
def OpusOnly (k : Core W H) : Prop :=
  ∀ d, k.1 = some d → ∀ ssrc codec, d.encryptor.ssrcCodecMap.lookup ssrc = some codec →
    codec = .opus

omit [HashRatchet H] [LawfulHashRatchet H] in
theorem assigned_opus {e : Encryptor H}
    (h : ∀ ssrc codec, e.ssrcCodecMap.lookup ssrc = some codec → codec = .opus) (ssrc : UInt32) :
    ∀ ssrc' codec, (e.assignSsrcToCodec ssrc .opus).ssrcCodecMap.lookup ssrc' = some codec →
      codec = .opus := by
  intro ssrc' codec hlookup
  by_cases hssrc : ssrc' = ssrc
  · subst hssrc
    exact (Option.some.inj ((AList.lookup_insert _).symm.trans hlookup)).symm
  · exact h ssrc' codec ((AList.lookup_insert_ne hssrc).symm.trans hlookup)

omit [LawfulHashRatchet H] in
theorem OpusOnly.effect {p : Prop} {k k' : Core W H} (h : OpusOnly k) (heffect : Effect p k k') :
    OpusOnly k' := by
  have hfresh : ∀ ssrc codec, ({} : Encryptor H).ssrcCodecMap.lookup ssrc = some codec →
      codec = .opus := by
    intro ssrc codec hlookup
    cases hlookup
  cases heffect with
  | setUp log ssrc key =>
      rintro d' ⟨⟩
      exact assigned_opus hfresh ssrc
  | setUpAgain d log ssrc =>
      rintro d' ⟨⟩
      exact assigned_opus (h d rfl) ssrc
  | startMls d log ssrc session key hsession =>
      rintro d' ⟨⟩
      exact assigned_opus hfresh ssrc
  | setVersion d | resetSession d | useSession d | commit d | executeZero d | execute d =>
      rintro d' ⟨⟩
      exact h d rfl
  | installSender d | noSender d | transition d | prepareDowngrade d =>
      rintro d' ⟨⟩
      exact h d rfl
  | speak d | dropFrame d | deliver d =>
      rintro d' ⟨⟩
      exact h d rfl
  | welcome d log session changeMap state env hbefore hsession =>
      rintro d' ⟨⟩
      obtain ⟨decryptors, heq⟩ :=
        Connection.foldl_installReceiver_eq env changeMap.keys { d with session }
      rw [Connection.installReceivers, heq]
      exact h d rfl
  | encrypt d log ssrc frame out encryptor result used hpass hratchet hcall hused =>
      rintro d' ⟨⟩
      rw [Encryptor.ssrcCodecMap_encrypt hcall]
      exact h d rfl
  | stop =>
      rintro d' ⟨⟩

omit [LawfulHashRatchet H] in
theorem codecForSsrc_of_reachable {c : Connection W H}
    (h : (Connection.machine W H).Reachable c) {d : DaveState W H} (hd : c.dave = some d)
    (ssrc : UInt32) : d.encryptor.codecForSsrc ssrc = .opus := by
  have honly : OpusOnly c.core := by
    refine Connection.reachable_core ?_ ?_ h
    · intro d hd
      simp at hd
    · intro k k' hk heffect
      exact hk.effect heffect
  unfold Encryptor.codecForSsrc
  cases hlookup : d.encryptor.ssrcCodecMap.lookup ssrc with
  | none => rfl
  | some codec => exact honly d hd ssrc codec hlookup

/-- Every decryptor has one manager. -/
def SoleManagers (k : Core W H) : Prop :=
  ∀ d, k.1 = some d → ∀ name decryptor, d.decryptors.lookup name = some decryptor →
    ∃ manager, Sole decryptor manager

/-- A decryptor took part in a call. -/
theorem SoleManagers.called {d : DaveState W H} {log : List (Action W)}
    (h : SoleManagers (some d, log)) {name frame : Bytes} {decryptor : Decryptor H}
    {clock : DecryptClock} {call : Decryption H}
    (hfound : d.decryptors.lookup name = some decryptor)
    (hcall : decryptor.decrypt W.gcm .audio clock frame (List.replicate frame.length 0) =
      some call) {name' : Bytes} {decryptor' : Decryptor H}
    (hlookup : (d.decryptors.insert name call.decryptor).lookup name' = some decryptor') :
    ∃ manager, Sole decryptor' manager := by
  by_cases hname : name' = name
  · subst hname
    obtain ⟨manager, hsole⟩ := h d rfl name' decryptor hfound
    obtain ⟨manager', hsole', -⟩ := hsole.decrypt hcall
    obtain rfl := Option.some.inj ((AList.lookup_insert _).symm.trans hlookup)
    exact ⟨manager', hsole'⟩
  · exact h d rfl name' decryptor' ((AList.lookup_insert_ne hname).symm.trans hlookup)

theorem SoleManagers.effect {p : Prop} {k k' : Core W H} (h : SoleManagers k)
    (heffect : Effect p k k') : SoleManagers k' := by
  cases heffect with
  | setUp =>
      rintro d' ⟨⟩ name decryptor hlookup
      simp at hlookup
  | setUpAgain d | setVersion d | resetSession d | startMls d | useSession d | commit d =>
      rintro d' ⟨⟩
      exact h d rfl
  | executeZero d | execute d | installSender d | noSender d | transition d =>
      rintro d' ⟨⟩
      exact h d rfl
  | prepareDowngrade d | encrypt d =>
      rintro d' ⟨⟩
      exact h d rfl
  | welcome d log session changeMap state env hbefore hsession =>
      rintro d' ⟨⟩ name decryptor hlookup
      rcases lookup_installReceivers { d with session } changeMap env name with hsame |
        ⟨userId, -, ratchet, -, -, -, hnew⟩
      · exact h d rfl name decryptor (hsame.symm.trans hlookup)
      · obtain rfl := Option.some.inj (hnew.symm.trans hlookup)
        exact ⟨_, sole_new ratchet _ _ transitionExpiry⟩
  | speak d log name userId state secret now created hname hstate hsecret =>
      rintro d' ⟨⟩ name' decryptor hlookup
      by_cases hsame : name' = name
      · subst hsame
        obtain rfl := Option.some.inj ((AList.lookup_insert _).symm.trans hlookup)
        exact ⟨_, sole_new _ now created transitionExpiry⟩
      · exact h d rfl name' decryptor ((AList.lookup_insert_ne hsame).symm.trans hlookup)
  | dropFrame d log name frame decryptor clock call hfound hcall =>
      rintro d' ⟨⟩ name' decryptor' hlookup
      exact h.called hfound hcall hlookup
  | deliver d log name frame decryptor clock call written hsize hfound hcall =>
      rintro d' ⟨⟩ name' decryptor' hlookup
      exact h.called hfound hcall hlookup
  | stop =>
      rintro d' ⟨⟩

theorem soleManagers_of_reachable {c : Connection W H}
    (h : (Connection.machine W H).Reachable c) : SoleManagers c.core := by
  refine Connection.reachable_core ?_ ?_ h
  · intro d hd
    simp at hd
  · intro k k' hk heffect
    exact hk.effect heffect

/-! ## What arrives -/

namespace Connection

omit [LawfulHashRatchet H] in
/-- What an active encryptor makes of a frame that is sent. -/
theorem sentPayload_eq_some {sender : Connection W H} {d : DaveState W H} {packet : AudioPacket}
    {payload : Bytes} (hd : sender.senderDave = some d)
    (hpayload : sender.sentPayload packet = some payload) :
    ∃ e' n out', d.encryptor.encrypt W.gcm .audio sender.ssrc packet.encoded
        (List.replicate (Encryptor.getMaxCiphertextByteSize .audio packet.encoded.length) 0) =
          some (e', .ok (n, out')) ∧ payload = out'.take n := by
  unfold sentPayload at hpayload
  split at hpayload
  · cases hpayload
  · rw [hd] at hpayload
    dsimp only at hpayload
    split at hpayload
    · next e' n out' hcall => exact ⟨e', n, out', hcall, (Option.some.inj hpayload).symm⟩
    · cases hpayload

omit [LawfulHashRatchet H] in
/-- A frame from a known sender, up to the decryptor. -/
theorem process_sent {receiver : Connection W H} {data : Bytes} {m : MediaPacket}
    (hopen : openRtp W.sodium receiver.crypto data = some m) {d : DaveState W H}
    (hd : receiver.receiverDave = some d) {userId : Bytes}
    (huser : receiver.ssrcToUserId.lookup m.ssrc = some userId)
    (hsilence : m.mediaPayload ≠ silenceFrame) {decryptor : Decryptor H}
    (hdecryptor : d.decryptors.lookup userId = some decryptor) (clock : DecryptClock) :
    receiver.process clock data =
      if m.mediaPayload.length < minDaveFrameSize then some (receiver, none)
      else receiver.decryptFrame d m userId decryptor clock := by
  simp only [process, hopen, hd, huser, if_neg hsilence, hdecryptor]

omit [HashRatchet H] [LawfulHashRatchet H] in
/-- DAVE is on in a receiver with decryptors unless its version is 0. -/
theorem receiverDave_eq {receiver : Connection W H} {d : DaveState W H}
    (hd : receiver.dave = some d) {userId : Bytes} {decryptor : Decryptor H}
    (hdecryptor : d.decryptors.lookup userId = some decryptor) :
    receiver.receiverDave = if d.protocolVersion ≠ 0 then some d else none := by
  have hkeys : d.decryptors.keys ≠ [] := by
    have hmem : userId ∈ d.decryptors := AList.lookup_isSome.mp (by rw [hdecryptor]; rfl)
    intro hnil
    rw [AList.mem_keys, hnil] at hmem
    cases hmem
  simp only [receiverDave, hd, Option.filter_some, hkeys, ne_eq, not_false_eq_true, and_true,
    decide_eq_true_eq]

omit [LawfulHashRatchet H] in
/-- A frame that decrypts is delivered. -/
theorem decryptFrame_delivers (receiver : Connection W H) (d : DaveState W H) {m : MediaPacket}
    (userId : Bytes) {decryptor : Decryptor H} {clock : DecryptClock} {frame : Bytes}
    {call : Decryption H}
    (hdecrypt : decryptor.decrypt W.gcm .audio clock m.mediaPayload
      (List.replicate m.mediaPayload.length 0) = some call)
    (hresult : call.result = some frame.length) (houtput : call.output.take frame.length = frame) :
    ∃ receiver' delivered, receiver.decryptFrame d m userId decryptor clock =
      some (receiver', some delivered) ∧ delivered.opus = frame := by
  rw [decryptFrame, hdecrypt]
  simp only [Option.bind_eq_bind, Option.bind_some, hresult]
  exact ⟨_, _, rfl, houtput⟩

omit [LawfulHashRatchet H] in
/-- **With DAVE** a known sender's frame that decrypts is delivered if it is long enough. -/
theorem delivers_iff_minDaveFrameSize {receiver : Connection W H} {data : Bytes} {m : MediaPacket}
    (hopen : openRtp W.sodium receiver.crypto data = some m) {d : DaveState W H}
    (hd : receiver.receiverDave = some d) {userId : Bytes}
    (huser : receiver.ssrcToUserId.lookup m.ssrc = some userId)
    (hsilence : m.mediaPayload ≠ silenceFrame) {decryptor : Decryptor H}
    (hdecryptor : d.decryptors.lookup userId = some decryptor) {clock : DecryptClock}
    {frame : Bytes}
    (hdecrypts : ∃ call, decryptor.decrypt W.gcm .audio clock m.mediaPayload
      (List.replicate m.mediaPayload.length 0) = some call ∧ call.result = some frame.length ∧
        call.output.take frame.length = frame) :
    (∃ receiver' delivered, receiver.process clock data = some (receiver', some delivered) ∧
        delivered.opus = frame) ↔ minDaveFrameSize ≤ m.mediaPayload.length := by
  rw [process_sent hopen hd huser hsilence hdecryptor clock]
  by_cases hshort : m.mediaPayload.length < minDaveFrameSize
  · rw [if_pos hshort]
    constructor
    · rintro ⟨receiver', delivered, hdelivered, -⟩
      cases hdelivered
    · intro hlong
      omega
  · rw [if_neg hshort]
    obtain ⟨call, hdecrypt, hresult, houtput⟩ := hdecrypts
    exact ⟨fun _ => Nat.le_of_not_lt hshort,
      fun _ => decryptFrame_delivers receiver d userId hdecrypt hresult houtput⟩

omit [LawfulHashRatchet H] in
/-- **Without DAVE** the payload is delivered as it is. -/
theorem delivers_iff_plain {receiver : Connection W H} {data : Bytes} {m : MediaPacket}
    (hopen : openRtp W.sodium receiver.crypto data = some m) (hd : receiver.receiverDave = none)
    (clock : DecryptClock) (frame : Bytes) :
    (∃ receiver' delivered, receiver.process clock data = some (receiver', some delivered) ∧
        delivered.opus = frame) ↔ m.mediaPayload = frame := by
  rw [process_of_openRtp hd clock hopen]
  constructor
  · rintro ⟨receiver', delivered, hdelivered, hopus⟩
    cases hdelivered
    exact hopus
  · intro hpayload
    exact ⟨_, _, rfl, hpayload⟩

end Connection

/-- A frame on its way from one connection to another: an active encryptor's frame
was sent as `data`, and the receiver has the key of the session, knows the
sender's SSRC, and has a decryptor with the sender's ratchet that admits the
generation and has not seen the nonce. -/
structure OnItsWay {W' : Setting} (sender : Connection W H) (receiver : Connection W' H)
    (packet : AudioPacket) (clock : DecryptClock) (data : Bytes) (d : DaveState W H)
    (d' : DaveState W' H) (userId : Bytes) (decryptor : Decryptor H)
    (manager : CipherManager H) : Prop where
  nonempty : packet.encoded ≠ []
  active : sender.senderDave = some d
  sent : ∃ payload, sender.sentPayload packet = some payload ∧ sender.sealed payload = some data
  shares : sender.crypto.Shares receiver.crypto
  dave : receiver.dave = some d'
  knows : receiver.ssrcToUserId.lookup sender.ssrc = some userId
  found : d'.decryptors.lookup userId = some decryptor
  holds : manager ∈ decryptor.managers
  same : some manager.ratchet.base = d.encryptor.ratchet.map KeyRatchet.base
  admits : (manager.getCipher (clock.attempt 0)
    (manager.nonceGeneration (d.encryptor.truncatedNonce + 1))).2.isSome = true
  unseen : manager.canProcessNonce (manager.nonceGeneration (d.encryptor.truncatedNonce + 1))
    (d.encryptor.truncatedNonce + 1) = true

/-- **End to end.**  For every frame on its way from one reachable connection to
another, one packet with the frame is delivered exactly when the receiver is in a
version of DAVE and the encrypted frame has at least 44 bytes. -/
theorem delivers_sent_iff {W' : Setting} (hgcm : W.gcm.Correct) (hsodium : W.sodium.Correct)
    (hgcm' : W'.gcm = W.gcm) (hsodium' : W'.sodium = W.sodium)
    {sender : Connection W H} {receiver : Connection W' H}
    (hsender : (Connection.machine W H).Reachable sender)
    (hreceiver : (Connection.machine W' H).Reachable receiver)
    {packet : AudioPacket} {clock : DecryptClock} {data userId : Bytes} {d : DaveState W H}
    {d' : DaveState W' H} {decryptor : Decryptor H} {manager : CipherManager H}
    (h : OnItsWay sender receiver packet clock data d d' userId decryptor manager) :
    (∃ receiver' delivered, receiver.process clock data = some (receiver', some delivered) ∧
        delivered.opus = packet.encoded) ↔
      d'.protocolVersion ≠ 0 ∧ minDaveFrameSize ≤ packet.encoded.length + supplementalBytes +
        leb128Size (d.encryptor.truncatedNonce + 1).toNat := by
  obtain ⟨hne, hd, ⟨payload, hpayload, hdata⟩, hshares, hd', huser, hdecryptor, hmanager, hsame,
    hadmits, hunseen⟩ := h
  obtain ⟨ratchet, hratchet, hbase⟩ := Option.map_eq_some_iff.mp hsame.symm
  have hfilter := Option.filter_eq_some_iff.mp hd
  have hpass : d.encryptor.passthroughMode = false := (of_decide_eq_true hfilter.2).1
  have hwf := ((senderInv_of_reachable hsender).counts d hfilter.1).wf
  have hcodec := codecForSsrc_of_reachable hsender hfilter.1 sender.ssrc
  obtain ⟨e', n, out', hcall, rfl⟩ := Connection.sentPayload_eq_some hd hpayload
  -- the receiver's decryptor has this manager alone
  obtain ⟨manager', hsole⟩ := soleManagers_of_reachable hreceiver d' hd' userId decryptor hdecryptor
  obtain rfl : manager = manager' := by
    rw [hsole.managers] at hmanager
    exact List.mem_singleton.mp hmanager
  have hnewest : (Decryptor.cleanupExpiredManagers clock.expired decryptor.managers).getLast? =
      some manager := by
    rw [hsole.kept]
    rfl
  obtain ⟨hsize, hdecrypts⟩ := decrypt_of_encrypt hgcm hwf hsole.wf hne hcodec hpass hratchet
    hcall hnewest hbase.symm hunseen hadmits (List.length_replicate ..)
  -- the datagram opens to the encrypted frame
  have hopen : openRtp W'.sodium receiver.crypto data =
      some (sender.rtpPacket (out'.take n)).media := by
    rw [Connection.sealed_eq] at hdata
    rw [hsodium']
    exact openRtp_datagram hsodium hshares hdata
  have hlonger : packet.encoded.length < (out'.take n).length := by
    rw [hsize, supplementalBytes]
    omega
  have hsilence : out'.take n ≠ silenceFrame := by
    intro hsilence
    rw [hsilence] at hsize
    simp only [silenceFrame, supplementalBytes, List.length_cons, List.length_nil] at hsize
    omega
  have hdave := Connection.receiverDave_eq hd' hdecryptor
  by_cases hversion : d'.protocolVersion ≠ 0
  · rw [if_pos hversion] at hdave
    have hdelivers := Connection.delivers_iff_minDaveFrameSize hopen hdave huser hsilence
      hdecryptor (by
        rw [hgcm']
        exact hdecrypts _ (by rw [List.length_replicate]; exact Nat.le_of_lt hlonger))
    rw [hdelivers, ← hsize]
    exact (and_iff_right hversion).symm
  · rw [if_neg hversion] at hdave
    rw [Connection.delivers_iff_plain hopen hdave]
    -- the payload is longer than the frame
    constructor
    · intro hpayload
      change out'.take n = packet.encoded at hpayload
      rw [hpayload] at hlonger
      exact absurd hlonger (Nat.lt_irrefl _)
    · rintro ⟨hnot, -⟩
      exact absurd hnot hversion

/-! ## Two clients -/

/-- One member of a call, about to send its first frame. -/
def speaker : Connection (referenceSetting referenceUser) Chain :=
  after referenceUser (connectEvents referenceUser ++ welcomeEvents referenceUser [1, 5, 7])

/-- Another member, which knows the first one's SSRC. -/
def hearer : Connection (referenceSetting listener) Chain :=
  after listener (listenEvents ++ speakEvents)

private theorem reachable_speaker :
    (referenceMachine referenceUser).Reachable speaker :=
  reachable_after (by decide +kernel)

private theorem reachable_hearer :
    (referenceMachine listener).Reachable hearer :=
  reachable_after (by decide +kernel)

private def speakerDave : DaveState (referenceSetting referenceUser) Chain :=
  speaker.senderDave.get (by decide +kernel)

private def hearerDave : DaveState (referenceSetting listener) Chain :=
  hearer.dave.get (by decide +kernel)

private def hearerDecryptor : Decryptor Chain :=
  (hearerDave.decryptors.lookup (toDecimal referenceUser)).get (by decide +kernel)

private def hearerManager : CipherManager Chain :=
  hearerDecryptor.managers.head (by decide +kernel)

/-- The first frame of the speaker is expected. -/
private theorem onItsWay_first {packet : AudioPacket} {data : Bytes} (hne : packet.encoded ≠ [])
    (hsent : ((speaker.sentPayload packet).bind fun payload => speaker.sealed payload) =
      some data) :
    OnItsWay speaker hearer packet Decryptor.referenceClock data speakerDave hearerDave
      (toDecimal referenceUser) hearerDecryptor hearerManager := by
  constructor
  · exact hne
  · exact (Option.some_get _).symm
  · exact Option.bind_eq_some_iff.mp hsent
  · exact ⟨by decide +kernel, by decide +kernel, by decide +kernel⟩
  · exact (Option.some_get _).symm
  · decide +kernel
  · exact (Option.some_get _).symm
  · exact List.head_mem _
  · decide +kernel
  · decide +kernel
  · decide +kernel

/-- A frame of 33 bytes is delivered. -/
theorem delivers_speechFrame : ∃ data,
    ((speaker.sentPayload ⟨speechFrame, 960⟩).bind fun payload => speaker.sealed payload) =
        some data ∧
      ∃ receiver' delivered, hearer.process Decryptor.referenceClock data =
        some (receiver', some delivered) ∧ delivered.opus = speechFrame := by
  have hsent : ((speaker.sentPayload ⟨speechFrame, 960⟩).bind fun payload =>
      speaker.sealed payload).isSome = true := by decide +kernel
  obtain ⟨data, hdata⟩ := Option.isSome_iff_exists.mp hsent
  refine ⟨data, hdata, ?_⟩
  have hgcm : (referenceSetting listener).gcm = (referenceSetting referenceUser).gcm := rfl
  have hsodium : (referenceSetting listener).sodium = (referenceSetting referenceUser).sodium := rfl
  have harrives := delivers_sent_iff referenceGcm_correct referenceSodium_correct hgcm hsodium
    reachable_speaker reachable_hearer (onItsWay_first (by decide) hdata)
  exact harrives.mpr ⟨by decide +kernel, by decide +kernel⟩

/-- A frame of 4 bytes is dropped: its encrypted form has 16. -/
theorem drops_short_frame : ∃ data d d' decryptor manager,
    (referenceMachine referenceUser).Reachable speaker ∧
      (referenceMachine listener).Reachable hearer ∧
      OnItsWay speaker hearer ⟨audioFrame, 960⟩ Decryptor.referenceClock data d d'
        (toDecimal referenceUser) decryptor manager ∧
      d'.protocolVersion ≠ 0 ∧
      ¬ ∃ receiver' delivered, hearer.process Decryptor.referenceClock data =
        some (receiver', some delivered) ∧ delivered.opus = audioFrame := by
  have hdropped : (((speaker.sentPayload ⟨audioFrame, 960⟩).bind fun payload =>
      speaker.sealed payload).bind fun data =>
        (hearer.process Decryptor.referenceClock data).map Prod.snd) = some none := by
    decide +kernel
  obtain ⟨data, hdata, hprocess⟩ := Option.bind_eq_some_iff.mp hdropped
  refine ⟨data, speakerDave, hearerDave, hearerDecryptor, hearerManager, reachable_speaker,
    reachable_hearer, onItsWay_first (by decide) hdata, by decide +kernel, ?_⟩
  rintro ⟨receiver', delivered, hdelivered, -⟩
  rw [hdelivered] at hprocess
  cases hprocess

end Ekizu.Voice
