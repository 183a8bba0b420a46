import Ekizu.Voice.Receivers

/-!
# What reaches the channel

Which packets the receiver hands to the channel while frames are encrypted end
to end, and how often it does so with the same frame.

## Main results

* `noUnauthenticatedAudio_iff` — no plaintext of the transport gets through
  exactly where packets go through DAVE.
* `DeliveryInv.effect` — what every effect keeps of the decryptors and of what
  was delivered.
* `deliveredFrames_nodup` — within an epoch no frame of a user is delivered
  twice, as long as no decryptor is replaced that has opened a frame.
-/

namespace Ekizu.Voice

open Dave Lib.Decimal Lib.Runs

variable {W : Setting} {H : Type}

/-! ## Authentic packets -/

/-- A transition to a positive version has ended, and none to version 0 was
executed since. -/
def e2eeOn : List (Action W) → Bool
  | [] => false
  | .transitioned version :: log => 0 < version || e2eeOn log
  | .executing version :: log => version ≠ 0 && e2eeOn log
  | _ :: log => e2eeOn log

namespace Connection

variable [HashRatchet H]

/-- The packet holds what the decryptor of its sender answered, having verified
the frame or before its passthrough deadline. -/
def Authentic (c : Connection W H) (clock : DecryptClock) (data : Bytes) (m : MediaPacket)
    (packet : Packet) : Prop :=
  ∃ d userId decryptor call written, Decrypts c clock data d m userId decryptor call ∧
    call.result = some written ∧ packet.opus = call.output.take written ∧
    (Decryptor.Verified W.gcm decryptor m.mediaPayload call ∨
      clock.now.time < decryptor.allowPassthroughUntil)

/-- While E2EE is on, this datagram is not handed to the channel unless its
payload is silence or it is authentic. -/
def NoUnauthenticatedAudio (c : Connection W H) (clock : DecryptClock) (data : Bytes) : Prop :=
  e2eeOn c.log = true → ∀ c' packet m, c.process clock data = some (c', some packet) →
    openRtp W.sodium c.crypto data = some m → m.mediaPayload ≠ silenceFrame →
      Authentic c clock data m packet

/-- What a decryptor answers to a packet is authentic. -/
theorem Decrypts.authentic {c : Connection W H} {clock : DecryptClock} {data : Bytes}
    {d : DaveState W H} {m : MediaPacket} {userId : Bytes} {decryptor : Decryptor H}
    {call : Decryption H} (h : Decrypts c clock data d m userId decryptor call) {written : Nat}
    (hresult : call.result = some written) :
    Authentic c clock data m (m.toPacket (call.output.take written) (some userId)) := by
  have hsome : call.result ≠ none := by
    rw [hresult]
    exact Option.some_ne_none written
  refine ⟨d, userId, decryptor, call, written, h, hresult, rfl, ?_⟩
  rcases Decryptor.verified_of_decrypt h.called hsome with hsilence | hpassthrough | hverified
  · -- the silence packet is too short to get here
    have hsize := h.size
    rw [hsilence] at hsize
    exact absurd hsize (by decide)
  · exact .inr hpassthrough
  · exact .inl hverified

/-- Without DAVE, a packet is forwarded as it came, and no decryptor sees it. -/
theorem process_plain {c : Connection W H} {data : Bytes} {m : MediaPacket}
    (clock : DecryptClock) (hdave : c.receiverDave = none)
    (hopen : openRtp W.sodium c.crypto data = some m) :
    c.process clock data =
        some (c, some (m.toPacket m.mediaPayload (c.ssrcToUserId.lookup m.ssrc))) ∧
      ∀ packet, ¬ Authentic c clock data m packet := by
  constructor
  · simp only [process, hopen, hdave]
  · rintro packet ⟨d, userId, decryptor, call, written, hdecrypts, -⟩
    have henabled := hdecrypts.enabled
    rw [hdave] at henabled
    exact absurd henabled.symm (Option.some_ne_none d)

/-- **No unauthenticated audio, where packets go through DAVE.**  In every
state and for every datagram: while E2EE is on, what the channel gets is
silence or authentic, if and only if there is DAVE state with a positive
version and at least one decryptor, or the datagram is rejected by the
transport or is silence. -/
theorem noUnauthenticatedAudio_iff (c : Connection W H) (clock : DecryptClock) (data : Bytes) :
    NoUnauthenticatedAudio c clock data ↔
      (e2eeOn c.log = true → c.receiverDave ≠ none ∨
        ∀ m, openRtp W.sodium c.crypto data = some m → m.mediaPayload = silenceFrame) := by
  constructor
  · intro h hon
    by_cases hdave : c.receiverDave = none
    · refine .inr fun m hopen => ?_
      by_contra hsilence
      obtain ⟨hprocess, hplain⟩ := process_plain clock hdave hopen
      exact hplain _ (h hon _ _ m hprocess hopen hsilence)
    · exact .inl hdave
  · intro h hon c' packet m hprocess hopen hsilence
    rcases process_cases hprocess with ⟨-, hnone⟩ | ⟨m', hopen', hplain, -, -⟩ |
      ⟨m', userId, hopen', -, hsilence', -⟩ | ⟨d, m', userId, decryptor, call, hdecrypts, hcase⟩
    · exact absurd hnone (Option.some_ne_none packet)
    · rcases h hon with hdave | hquiet
      · exact absurd hplain hdave
      · exact absurd (hquiet m hopen) hsilence
    · obtain rfl := Option.some.inj (hopen.symm.trans hopen')
      exact absurd hsilence' hsilence
    · obtain rfl := Option.some.inj (hopen.symm.trans hdecrypts.opened)
      rcases hcase with ⟨-, hnone, -⟩ | ⟨written, hresult, hpacket, -⟩
      · exact absurd hnone (Option.some_ne_none packet)
      · obtain rfl := Option.some.inj hpacket
        exact hdecrypts.authentic hresult

end Connection

/-- The client is alone in an encrypted call. -/
def aloneEvents : List (Event (referenceSetting listener)) :=
  connectEvents listener ++ welcomeEvents listener [1, 7]

/-- There is no decryptor yet, so a packet that only the server has encrypted
is handed to the channel, although the transition was executed. -/
theorem unauthenticated_plainDatagram : ∃ c packet,
    (referenceMachine listener).Reachable c ∧ e2eeOn c.log = true ∧
      c.process Decryptor.referenceClock plainDatagram = some (c, some packet) ∧
      packet.opus = audioFrame ∧
      ¬ c.NoUnauthenticatedAudio Decryptor.referenceClock plainDatagram := by
  have hdave : (after listener aloneEvents).receiverDave.isNone = true := by decide +kernel
  have hopen : (openRtp (referenceSetting listener).sodium (after listener aloneEvents).crypto
      plainDatagram).map MediaPacket.mediaPayload = some audioFrame := by
    decide +kernel
  have hon : e2eeOn (after listener aloneEvents).log = true := by decide +kernel
  obtain ⟨m, hm, hpayload⟩ := Option.map_eq_some_iff.mp hopen
  obtain ⟨hprocess, hplain⟩ := Connection.process_plain Decryptor.referenceClock
    (Option.isNone_iff_eq_none.mp hdave) hm
  refine ⟨_, _, reachable_after (by decide +kernel), hon, hprocess, hpayload, ?_⟩
  intro h
  apply hplain _ (h hon _ _ m hprocess hm _)
  rw [hpayload]
  decide

/-! ## Deliveries of an epoch -/

/-- The epoch of the last commit or Welcome. -/
def lastEpoch : List (Action W) → Option W.mls.Epoch
  | [] => none
  | .committed epoch :: _ => epoch
  | .welcomed epoch _ :: _ => epoch
  | _ :: log => lastEpoch log

section Deliveries

variable [DecidableEq W.mls.Epoch]

/-- The names and frames that were delivered since the epoch last changed. -/
def deliveries : List (Action W) → List (Bytes × Bytes)
  | [] => []
  | .committed epoch :: log => if epoch = lastEpoch log then deliveries log else []
  | .welcomed epoch _ :: log => if epoch = lastEpoch log then deliveries log else []
  | .delivered name frame :: log => (name, frame) :: deliveries log
  | _ :: log => deliveries log

/-- Ciphertext, tag and nonce of a frame. -/
def sealedParts (frame : Bytes) : Option (Bytes × Bytes × UInt32) :=
  (({} : InboundFrameProcessor).parseFrame frame).map fun p =>
    (p.ciphertext, p.tag, p.truncatedNonce)

/-- The frames delivered in the epoch, each with the user it came from. -/
def deliveredFrames (log : List (Action W)) :
    List (Option UInt64 × Option (Bytes × Bytes × UInt32)) :=
  (deliveries log).map fun delivery => (stoull delivery.1, sealedParts delivery.2)

/-- The users of whom a frame was delivered in the epoch. -/
def heard (log : List (Action W)) : List UInt64 :=
  (deliveries log).filterMap fun delivery => stoull delivery.1

/-- A decryptor may be installed for a user who was not heard in the epoch, under
the decimal id of the user. -/
def ReceiverAllowed (log : List (Action W)) : Action W → Prop
  | .spoke name => ∀ userId ∈ stoull name, name = toDecimal userId ∧ userId ∉ heard log
  | .welcomed epoch users =>
      epoch = lastEpoch log → ∀ userId ∈ users, userId ≠ W.userId → userId ∉ heard log
  | _ => True

/-- Every Speaking event that installs a decryptor, and every Welcome to the
epoch the client is in, concerns users who were not heard in the epoch yet. -/
def ReceiverDiscipline (log : List (Action W)) : Prop := Throughout ReceiverAllowed log

instance (log : List (Action W)) (action : Action W) : Decidable (ReceiverAllowed log action) :=
  match action with
  | .spoke name =>
      Option.decidableForallMem (p := fun userId => name = toDecimal userId ∧ userId ∉ heard log)
        (stoull name)
  | .welcomed epoch users =>
      have : Decidable (∀ userId ∈ users, userId ≠ W.userId → userId ∉ heard log) :=
        List.decidableBAll _ users
      inferInstanceAs (Decidable (epoch = lastEpoch log →
        ∀ userId ∈ users, userId ≠ W.userId → userId ∉ heard log))
  | .setUpUdp | .startedMls | .resetSession | .committed _ | .executing _ => .isTrue trivial
  | .installedSender _ | .noSenderRatchet | .transitioned _ => .isTrue trivial
  | .encrypted _ | .delivered _ _ => .isTrue trivial

instance (log : List (Action W)) : Decidable (ReceiverDiscipline log) :=
  inferInstanceAs (Decidable (Throughout ReceiverAllowed log))

/-- The nonces of a user's delivered frames. -/
def spentNonces (log : List (Action W)) (userId : UInt64) : List UInt32 :=
  (deliveries log).filterMap fun delivery =>
    if stoull delivery.1 = some userId then frameNonce delivery.2 else none

theorem frameNonce_eq (frame : Bytes) :
    frameNonce frame = (sealedParts frame).map fun parts => parts.2.2 := by
  rw [frameNonce, sealedParts, Option.map_map]
  rfl

theorem spentNonces_of_not_heard {log : List (Action W)} {userId : UInt64}
    (h : userId ∉ heard log) : spentNonces log userId = [] := by
  rw [spentNonces, List.filterMap_eq_nil_iff]
  intro delivery hmem
  apply if_neg
  intro hname
  exact h (List.mem_filterMap.mpr ⟨delivery, hmem, hname⟩)

theorem spentNonces_congr {log log' : List (Action W)} (h : deliveries log' = deliveries log)
    (userId : UInt64) : spentNonces log' userId = spentNonces log userId := by
  rw [spentNonces, spentNonces, h]

theorem spentNonces_of_none {log : List (Action W)} (h : deliveries log = []) (userId : UInt64) :
    spentNonces log userId = [] := by
  rw [spentNonces, h, List.filterMap_nil]

/-- A frame whose nonce is not spent was not delivered. -/
theorem not_mem_deliveredFrames {log : List (Action W)} {userId : UInt64} {frame : Bytes}
    {nonce : UInt32} (hnonce : frameNonce frame = some nonce)
    (hfresh : nonce ∉ spentNonces log userId) :
    (some userId, sealedParts frame) ∉ deliveredFrames log := by
  intro hmem
  obtain ⟨delivery, hdelivery, heq⟩ := List.mem_map.mp hmem
  obtain ⟨hname, hparts⟩ := Prod.mk.inj heq
  apply hfresh
  refine List.mem_filterMap.mpr ⟨delivery, hdelivery, ?_⟩
  rw [if_pos hname, frameNonce_eq, hparts, ← frameNonce_eq, hnonce]

/-! ## The invariant -/

variable [HashRatchet H] [LawfulHashRatchet H]

/-- Every decryptor belongs to a user and refuses what was delivered of it, and
nothing was delivered twice. -/
structure DeliveryInv (k : Core W H) : Prop where
  tracked : ∀ d, k.1 = some d → ∀ name decryptor, d.decryptors.lookup name = some decryptor →
    ∃ userId, name = toDecimal userId ∧ Tracked decryptor (spentNonces k.2 userId)
  once : (deliveredFrames k.2).Nodup

/-- Effects that install no decryptor and deliver nothing. -/
private theorem DeliveryInv.skip {k k' : Core W H} (h : DeliveryInv k)
    (hlog : deliveries k'.2 = deliveries k.2 ∨ deliveries k'.2 = [])
    (hsame : ∀ d', k'.1 = some d' → ∀ name decryptor,
      d'.decryptors.lookup name = some decryptor →
      ∃ d, k.1 = some d ∧ d.decryptors.lookup name = some decryptor) : DeliveryInv k' := by
  constructor
  · intro d' hd' name decryptor hlookup
    obtain ⟨d, hd, hlookup⟩ := hsame d' hd' name decryptor hlookup
    obtain ⟨userId, hname, htracked⟩ := h.tracked d hd name decryptor hlookup
    refine ⟨userId, hname, ?_⟩
    rcases hlog with hlog | hlog
    · rw [spentNonces_congr hlog]
      exact htracked
    · rw [spentNonces_of_none hlog]
      exact htracked.forget
  · rcases hlog with hlog | hlog
    · rw [deliveredFrames, hlog]
      exact h.once
    · rw [deliveredFrames, hlog]
      exact List.nodup_nil

/-- A decryptor took part in a call that delivered nothing. -/
private theorem DeliveryInv.dropped {d : DaveState W H} {log : List (Action W)}
    (h : DeliveryInv (some d, log)) {name frame : Bytes} {decryptor : Decryptor H}
    {clock : DecryptClock} {call : Decryption H}
    (hfound : d.decryptors.lookup name = some decryptor)
    (hcall : decryptor.decrypt W.gcm .audio clock frame (List.replicate frame.length 0) =
      some call) :
    DeliveryInv (some { d with decryptors := d.decryptors.insert name call.decryptor }, log) := by
  refine ⟨?_, h.once⟩
  rintro d' ⟨⟩ name' decryptor' hlookup
  by_cases hname : name' = name
  · subst hname
    obtain ⟨userId, hname, htracked⟩ := h.tracked d rfl name' decryptor hfound
    obtain rfl := Option.some.inj ((AList.lookup_insert _).symm.trans hlookup)
    exact ⟨userId, hname, (htracked.decrypt hcall).1⟩
  · exact h.tracked d rfl name' decryptor' ((AList.lookup_insert_ne hname).symm.trans hlookup)

/-- A decryptor delivered a frame: its nonce had not been spent, and now it
is. -/
private theorem DeliveryInv.delivered {d : DaveState W H} {log : List (Action W)}
    (h : DeliveryInv (some d, log)) {name frame : Bytes} {decryptor : Decryptor H}
    {clock : DecryptClock} {call : Decryption H} (hsize : minDaveFrameSize ≤ frame.length)
    (hfound : d.decryptors.lookup name = some decryptor)
    (hcall : decryptor.decrypt W.gcm .audio clock frame (List.replicate frame.length 0) =
      some call) (hresult : call.result ≠ none) :
    DeliveryInv (some { d with
      decryptors := d.decryptors.insert name call.decryptor
      doneReady := true }, .delivered name frame :: log) := by
  obtain ⟨userId, hname, htracked⟩ := h.tracked d rfl name decryptor hfound
  have hnumber : stoull name = some userId := by
    rw [hname]
    exact stoull_toDecimal userId
  have hsilence : frame ≠ opusSilencePacket := by
    rintro rfl
    exact absurd hsize (by decide)
  rcases (htracked.decrypt hcall).2 hresult with hframe | ⟨nonce, hnonce, hfresh, hspent⟩
  · exact absurd hframe hsilence
  constructor
  · rintro d' ⟨⟩ name' decryptor' hlookup
    by_cases hsame : name' = name
    · subst hsame
      obtain rfl := Option.some.inj ((AList.lookup_insert _).symm.trans hlookup)
      refine ⟨userId, hname, ?_⟩
      have hadded : spentNonces (.delivered name' frame :: log) userId =
          nonce :: spentNonces log userId := by
        simp only [spentNonces, deliveries, List.filterMap_cons, hnumber, if_true, hnonce]
      rw [hadded]
      exact hspent
    · obtain ⟨other, hother, htracked'⟩ := h.tracked d rfl name' decryptor'
        ((AList.lookup_insert_ne hsame).symm.trans hlookup)
      refine ⟨other, hother, ?_⟩
      have hne : some userId ≠ some other := by
        rintro ⟨⟩
        exact hsame (hother.trans hname.symm)
      have hkept : spentNonces (.delivered name frame :: log) other = spentNonces log other := by
        simp only [spentNonces, deliveries, List.filterMap_cons, hnumber, if_neg hne]
      rw [hkept]
      exact htracked'
  · have hnew := not_mem_deliveredFrames hnonce hfresh
    simp only [deliveredFrames, deliveries, List.map_cons, hnumber]
    exact List.nodup_cons.mpr ⟨hnew, h.once⟩

/-- A Welcome installed decryptors for users who were not heard in its epoch. -/
private theorem DeliveryInv.welcomed {d : DaveState W H} {log : List (Action W)}
    (h : DeliveryInv (some d, log)) (session : Session W.mls) (changeMap : RosterMap)
    (env : Env W) (hnew : session.epoch = lastEpoch log →
      ∀ userId ∈ changeMap.keys, userId ≠ W.userId → userId ∉ heard log) :
    DeliveryInv (some (Connection.installReceivers { d with session } changeMap env),
      .welcomed session.epoch changeMap.keys :: log) := by
  have hkept : DeliveryInv
      (some { d with session }, .welcomed session.epoch changeMap.keys :: log) := by
    refine h.skip (ite_eq_or_eq _ _ _) ?_
    rintro d' ⟨⟩ name decryptor hlookup
    exact ⟨d, rfl, hlookup⟩
  refine ⟨?_, hkept.once⟩
  rintro d' ⟨⟩ name decryptor hlookup
  rcases lookup_installReceivers { d with session } changeMap env name with
    hsame | ⟨userId, hmem, ratchet, hne, hname, hratchet, hinstalled⟩
  · exact hkept.tracked _ rfl name decryptor (hsame.symm.trans hlookup)
  · obtain rfl := Option.some.inj (hinstalled.symm.trans hlookup)
    obtain ⟨state, secret, hstate, hsecret, rfl⟩ :=
      (Session.getKeyRatchet_eq_some_iff _).mp hratchet
    refine ⟨userId, hname, ?_⟩
    have hnothing : spentNonces (.welcomed session.epoch changeMap.keys :: log) userId = [] := by
      by_cases hepoch : session.epoch = lastEpoch log
      · have hlog : deliveries (.welcomed session.epoch changeMap.keys :: log) =
            deliveries log := if_pos hepoch
        rw [spentNonces_congr hlog]
        exact spentNonces_of_not_heard (hnew hepoch userId hmem hne)
      · have hlog : deliveries (.welcomed session.epoch changeMap.keys :: log) = [] :=
          if_neg hepoch
        exact spentNonces_of_none hlog userId
    rw [hnothing]
    exact tracked_new secret _ _ transitionExpiry

/-- **One effect.** -/
theorem DeliveryInv.effect {p : Prop} {k k' : Core W H} (h : DeliveryInv k)
    (heffect : Effect p k k') (hdiscipline : ReceiverDiscipline k'.2) : DeliveryInv k' := by
  cases heffect with
  | setUp =>
      refine h.skip (.inl rfl) ?_
      rintro d' ⟨⟩ name decryptor hlookup
      simp at hlookup
  | stop =>
      refine h.skip (.inl rfl) ?_
      rintro d' ⟨⟩
  | setUpAgain d | setVersion d | resetSession d | startMls d | useSession d | executeZero d =>
      refine h.skip (.inl rfl) ?_
      rintro d' ⟨⟩ name decryptor hlookup
      exact ⟨d, rfl, hlookup⟩
  | execute d | installSender d | noSender d | transition d | prepareDowngrade d | encrypt d =>
      refine h.skip (.inl rfl) ?_
      rintro d' ⟨⟩ name decryptor hlookup
      exact ⟨d, rfl, hlookup⟩
  | commit d =>
      refine h.skip (ite_eq_or_eq _ _ _) ?_
      rintro d' ⟨⟩ name decryptor hlookup
      exact ⟨d, rfl, hlookup⟩
  | dropFrame d log name frame decryptor clock call hfound hcall => exact h.dropped hfound hcall
  | deliver d log name frame decryptor clock call written hsize hfound hcall hresult =>
      apply h.delivered hsize hfound hcall
      rw [hresult]
      exact Option.some_ne_none written
  | speak d log name userId state secret now created hname hstate hsecret =>
      obtain ⟨hdecimal, hnew⟩ := hdiscipline.1 userId hname
      refine ⟨?_, h.once⟩
      rintro d' ⟨⟩ name' decryptor' hlookup
      by_cases hsame : name' = name
      · subst hsame
        obtain rfl := Option.some.inj ((AList.lookup_insert _).symm.trans hlookup)
        refine ⟨userId, hdecimal, ?_⟩
        have hnothing : spentNonces (.spoke name' :: log) userId = [] :=
          spentNonces_of_not_heard hnew
        rw [hnothing]
        exact tracked_new secret now created transitionExpiry
      · exact h.tracked d rfl name' decryptor' ((AList.lookup_insert_ne hsame).symm.trans hlookup)
  | welcome d log session changeMap state env hbefore hsession =>
      exact h.welcomed session changeMap env hdiscipline.1

theorem deliveryInv_of_reachable {c : Connection W H}
    (h : (Connection.machine W H).Reachable c) :
    ReceiverDiscipline c.log → DeliveryInv c.core := by
  refine Connection.reachable_core (P := fun k => ReceiverDiscipline k.2 → DeliveryInv k) ?_ ?_ h
  · intro _
    constructor
    · intro d hd
      simp at hd
    · exact List.nodup_nil
  · intro k k' hk heffect hdiscipline
    obtain ⟨recent, hlog⟩ := heffect.log_grows
    have hbefore : ReceiverDiscipline k.2 := by
      rw [hlog] at hdiscipline
      exact hdiscipline.of_append
    exact (hk hbefore).effect heffect hdiscipline

/-- **No replay within an epoch.**  In every state of every run in which
decryptors are only installed for users who were not heard in the epoch yet,
and under their decimal ids, no frame of a user has been delivered twice since
the epoch began. -/
theorem deliveredFrames_nodup {c : Connection W H} (h : (Connection.machine W H).Reachable c)
    (hdiscipline : ReceiverDiscipline c.log) : (deliveredFrames c.log).Nodup :=
  (deliveryInv_of_reachable h hdiscipline).once

end Deliveries

/-! ## A speaker who starts twice -/

/-- The other member starts to speak. -/
def speakEvents : List (Event (referenceSetting listener)) :=
  handled listener (.speaking (toDecimal referenceUser) 9 true)

/-- The client hears a frame of the other member. -/
def hearEvents : List (Event (referenceSetting listener)) :=
  listenEvents ++ speakEvents ++ [.datagram Decryptor.referenceClock speechDatagram]

theorem deliveredFrames_nodup_hearEvents :
    deliveredFrames (after listener hearEvents).log =
        [(some referenceUser, sealedParts sentSpeechFrame)] ∧
      (deliveredFrames (after listener hearEvents).log).Nodup := by
  refine ⟨by decide +kernel, ?_⟩
  exact deliveredFrames_nodup (reachable_after (by decide +kernel)) (by decide +kernel)

/-- The other member starts to speak again, and the same packet, sent once
more, is decrypted and delivered a second time. -/
theorem deliveredFrames_repeated_of_second_speaking :
    ∃ c, (referenceMachine listener).Reachable c ∧
      deliveredFrames c.log = [(some referenceUser, sealedParts sentSpeechFrame),
        (some referenceUser, sealedParts sentSpeechFrame)] ∧
      ¬ (deliveredFrames c.log).Nodup := by
  refine ⟨after listener (hearEvents ++ speakEvents ++
    [.datagram Decryptor.referenceClock speechDatagram]), reachable_after (by decide +kernel),
    ?_, ?_⟩
  · decide +kernel
  · decide +kernel

end Ekizu.Voice
