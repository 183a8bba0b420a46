import Ekizu.Voice.Effects
import Ekizu.Voice.Reference

/-!
# Keys and nonces of the sender

Which pairs of AES key and nonce the sender has used, read off the log.  Each
of them belongs to the ratchet that was installed last and to the number of
`encrypt` calls since: the epoch and that number decide the pair, and the pair
decides them.

## Main results

* `SenderInv.effect` — the invariant behind it, for every effect.
* `usedPairs_nodup` — no pair is used twice, as long as no ratchet of an epoch
  is installed after a frame was encrypted in it and no ratchet is used more
  than 2^32 times.
-/

namespace Ekizu.Voice

open Dave LawfulHashRatchet Lib.Runs

variable {W : Setting} {H : Type}

/-! ## Reading the log -/

/-- The epoch of the sender ratchet installed last. -/
def senderEpoch : List (Action W) → Option W.mls.Epoch
  | [] => none
  | .installedSender epoch :: _ => some epoch
  | _ :: log => senderEpoch log

/-- The epochs of which a sender ratchet was installed. -/
def senderEpochs : List (Action W) → List W.mls.Epoch
  | [] => []
  | .installedSender epoch :: log => epoch :: senderEpochs log
  | _ :: log => senderEpochs log

/-- The calls of `encrypt` since a sender ratchet was installed. -/
def callsSince : List (Action W) → Nat
  | [] => 0
  | .installedSender _ :: _ => 0
  | .encrypted _ :: log => callsSince log + 1
  | _ :: log => callsSince log

/-- A pair of key and nonce, with the epoch of the ratchet it was taken from and
the number of the call. -/
structure Sealed (W : Setting) where
  pair : Bytes × Bytes
  epoch : Option W.mls.Epoch
  call : Nat

/-- Every successful call of `encrypt`. -/
def sealedFrames : List (Action W) → List (Sealed W)
  | [] => []
  | .encrypted (some pair) :: log =>
      ⟨pair, senderEpoch log, callsSince log + 1⟩ :: sealedFrames log
  | _ :: log => sealedFrames log

/-- The pairs of key and nonce that successful calls have used. -/
def usedPairs (log : List (Action W)) : List (Bytes × Bytes) :=
  (sealedFrames log).map Sealed.pair

/-- A ratchet may be installed if no frame was encrypted in its epoch yet, and
used for 2^32 calls. -/
def SenderAllowed (log : List (Action W)) : Action W → Prop
  | .installedSender epoch => ∀ frame ∈ sealedFrames log, frame.epoch ≠ some epoch
  | .encrypted _ => callsSince log < 2 ^ 32
  | _ => True

/-- No ratchet is installed of an epoch in which a frame was already encrypted,
and no ratchet is used for more than 2^32 calls. -/
def SenderDiscipline (log : List (Action W)) : Prop := Throughout SenderAllowed log

instance [DecidableEq W.mls.Epoch] (log : List (Action W)) (action : Action W) :
    Decidable (SenderAllowed log action) :=
  match action with
  | .installedSender epoch =>
      inferInstanceAs (Decidable (∀ frame ∈ sealedFrames log, frame.epoch ≠ some epoch))
  | .encrypted _ => inferInstanceAs (Decidable (callsSince log < 2 ^ 32))
  | .setUpUdp | .startedMls | .resetSession | .committed _ | .welcomed _ _ => .isTrue trivial
  | .executing _ | .noSenderRatchet | .transitioned _ => .isTrue trivial
  | .spoke _ | .delivered _ _ => .isTrue trivial

instance [DecidableEq W.mls.Epoch] (log : List (Action W)) : Decidable (SenderDiscipline log) :=
  inferInstanceAs (Decidable (Throughout SenderAllowed log))

/-- The calls recorded under the current ratchet are numbered up to the present
one. -/
private theorem call_le {log : List (Action W)} (h : SenderDiscipline log) :
    ∀ frame ∈ sealedFrames log, frame.epoch = senderEpoch log → frame.call ≤ callsSince log := by
  induction log with
  | nil => simp [sealedFrames]
  | cons action log ih =>
      have ih := ih h.2
      cases action with
      | installedSender epoch =>
          -- frames of this epoch there are none
          intro frame hframe hepoch
          exact absurd hepoch (h.1 frame hframe)
      | encrypted used =>
          intro frame hframe hepoch
          cases used with
          | none => exact Nat.le_succ_of_le (ih frame hframe hepoch)
          | some pair =>
              rcases List.mem_cons.mp hframe with rfl | hframe
              · exact Nat.le_refl _
              · exact Nat.le_succ_of_le (ih frame hframe hepoch)
      | _ => exact ih

/-- The ratchet installed last is one of those installed. -/
private theorem senderEpoch_mem {log : List (Action W)} {epoch : W.mls.Epoch}
    (h : senderEpoch log = some epoch) : epoch ∈ senderEpochs log := by
  induction log with
  | nil => cases h
  | cons action log ih =>
      cases action with
      | installedSender installed =>
          obtain rfl := Option.some.inj h
          exact List.mem_cons_self
      | _ => exact ih h

/-- A frame is encrypted in an epoch of which a ratchet was installed. -/
private theorem sealedFrames_epoch {log : List (Action W)} {frame : Sealed W}
    {epoch : W.mls.Epoch} (hframe : frame ∈ sealedFrames log) (h : frame.epoch = some epoch) :
    epoch ∈ senderEpochs log := by
  induction log with
  | nil => simp [sealedFrames] at hframe
  | cons action log ih =>
      cases action with
      | installedSender installed => exact List.mem_cons_of_mem _ (ih hframe)
      | encrypted used =>
          cases used with
          | none => exact ih hframe
          | some pair =>
              rcases List.mem_cons.mp hframe with rfl | hframe
              · exact senderEpoch_mem h
              · exact ih hframe
      | _ => exact ih hframe

/-- The number of a call is positive and in range. -/
private theorem call_range {log : List (Action W)} (h : SenderDiscipline log) :
    ∀ frame ∈ sealedFrames log, 1 ≤ frame.call ∧ frame.call ≤ 2 ^ 32 := by
  induction log with
  | nil => simp [sealedFrames]
  | cons action log ih =>
      have ih := ih h.2
      cases action with
      | encrypted used =>
          cases used with
          | none => exact ih
          | some pair =>
              intro frame hframe
              rcases List.mem_cons.mp hframe with rfl | hframe
              · exact ⟨Nat.le_add_left 1 _, h.1⟩
              · exact ih frame hframe
      | _ => exact ih

/-- No two calls share epoch and number. -/
private theorem sealedFrames_nodup {log : List (Action W)} (h : SenderDiscipline log) :
    ((sealedFrames log).map fun frame => (frame.epoch, frame.call)).Nodup := by
  induction log with
  | nil => exact List.nodup_nil
  | cons action log ih =>
      have ih := ih h.2
      cases action with
      | encrypted used =>
          cases used with
          | none => exact ih
          | some pair =>
              simp only [sealedFrames, List.map_cons, List.nodup_cons]
              refine ⟨?_, ih⟩
              intro hmem
              obtain ⟨frame, hframe, heq⟩ := List.mem_map.mp hmem
              simp only [Prod.mk.injEq] at heq
              have hle := call_le h.2 frame hframe heq.1
              omega
      | _ => exact ih

/-! ## Nonces -/

private theorem truncatedNonceBytes_injective {a b : UInt32}
    (h : truncatedNonceBytes a = truncatedNonceBytes b) : a = b := by
  simp only [truncatedNonceBytes, List.cons.injEq, and_true, ← UInt8.toNat_inj,
    UInt32.toNat_toUInt8, UInt32.toNat_shiftRight, UInt32.reduceToNat, Nat.shiftRight_eq_div_pow,
    Nat.reduceMod, Nat.reducePow]
    at h
  rw [← UInt32.toNat_inj]
  have ha := a.toNat_lt
  have hb := b.toNat_lt
  omega

theorem nonceBuffer_injective {a b : UInt32} (h : nonceBuffer a = nonceBuffer b) : a = b :=
  truncatedNonceBytes_injective (List.append_cancel_left h)

private theorem call_eq {i j : Nat} (hi : 1 ≤ i ∧ i ≤ 2 ^ 32) (hj : 1 ≤ j ∧ j ≤ 2 ^ 32)
    (h : UInt32.ofNat i = UInt32.ofNat j) : i = j := by
  have hmod := congrArg UInt32.toNat h
  simp only [UInt32.toNat_ofNat'] at hmod
  omega

/-! ## The invariant -/

variable [HashRatchet H] [LawfulHashRatchet H]

/-- What MLS and its ratchets promise of the epochs of which a sender ratchet was installed:
the keys of two of them, and of two generations in one, are different. -/
def KeysDistinct (H : Type) [HashRatchet H] [LawfulHashRatchet H] (log : List (Action W)) : Prop :=
  ∀ a b secret secret' g g', W.mls.epochOf a ∈ senderEpochs log →
    W.mls.epochOf b ∈ senderEpochs log → W.mls.mediaSecret a W.userId = some secret →
    W.mls.mediaSecret b W.userId = some secret' → g < 256 → g' < 256 →
    keyAt H secret g = keyAt H secret' g' → W.mls.epochOf a = W.mls.epochOf b ∧ g = g'

/-- The pair is the one of the epoch's ratchet and the number of the call. -/
def Sealed.Derived (H : Type) [HashRatchet H] [LawfulHashRatchet H] (frame : Sealed W) : Prop :=
  ∃ state secret, frame.epoch = some (W.mls.epochOf state) ∧
    W.mls.mediaSecret state W.userId = some secret ∧
    frame.pair = (keyAt H secret (Encryptor.generationOf (UInt32.ofNat frame.call)).toNat,
      nonceBuffer (UInt32.ofNat frame.call))

/-- The encryptor's ratchet is the one of the epoch, and its nonce counts the
calls. -/
structure CountsCalls (epoch : Option W.mls.Epoch) (calls : Nat) (e : Encryptor H) :
    Prop where
  wf : e.Wf
  counts : ∀ ratchet, e.ratchet = some ratchet → ∃ state secret,
    epoch = some (W.mls.epochOf state) ∧ W.mls.mediaSecret state W.userId = some secret ∧
      ratchet.base = .inl secret ∧ e.truncatedNonce = UInt32.ofNat calls

/-- What holds of the sender. -/
structure SenderInv (k : Core W H) : Prop where
  derived : ∀ frame ∈ sealedFrames k.2, frame.Derived H
  counts : ∀ d, k.1 = some d → CountsCalls (senderEpoch k.2) (callsSince k.2) d.encryptor

section Encryptors

variable {epoch : Option W.mls.Epoch} {calls : Nat} {e e' : Encryptor H}

theorem CountsCalls.setPassthroughMode (h : CountsCalls epoch calls e) (mode : Bool) :
    CountsCalls epoch calls (e.setPassthroughMode mode) :=
  ⟨h.wf.setPassthroughMode mode, h.counts⟩

theorem CountsCalls.assignSsrcToCodec (h : CountsCalls epoch calls e) (ssrc : UInt32)
    (codec : Codec) : CountsCalls epoch calls (e.assignSsrcToCodec ssrc codec) :=
  ⟨h.wf.assignSsrcToCodec ssrc codec, h.counts⟩

/-- An encryptor that was just made. -/
theorem countsCalls_new (epoch : Option W.mls.Epoch) (calls : Nat) (ssrc : UInt32) :
    CountsCalls epoch calls
      ((({} : Encryptor H).assignSsrcToCodec ssrc .opus).setPassthroughMode true) := by
  refine CountsCalls.setPassthroughMode (CountsCalls.assignSsrcToCodec ?_ ssrc .opus) true
  exact ⟨Encryptor.wf_default, by simp⟩

/-- An encryptor that was just given a ratchet. -/
theorem countsCalls_setKeyRatchet (e : Encryptor H) {state : W.mls.State} {secret : Bytes}
    (hsecret : W.mls.mediaSecret state W.userId = some secret) :
    CountsCalls (W := W) (some (W.mls.epochOf state)) 0
      (e.setKeyRatchet (some (.mls (HashRatchet.ofSecret secret)))) := by
  constructor
  · apply Encryptor.wf_setKeyRatchet
    rintro r ⟨⟩ g
    exact (KeyRatchet.Fresh.mls secret).live g
  · rintro ratchet ⟨⟩
    exact ⟨state, secret, rfl, hsecret, by simp [KeyRatchet.base, secretOf_ofSecret], rfl⟩

/-- A call of `encrypt` counts, and what a success has used is derived from the
ratchet. -/
theorem CountsCalls.encrypt (h : CountsCalls epoch calls e) {ssrc : UInt32} {frame out : Bytes}
    {result : Except DaveError (Nat × Bytes)} (hpass : e.passthroughMode = false)
    (hratchet : e.hasKeyRatchet = true)
    (hcall : e.encrypt W.gcm .audio ssrc frame out = some (e', result)) :
    CountsCalls epoch (calls + 1) e' ∧
      ∀ pair, (if result.isOk then Connection.usedPair e' else none) = some pair →
        Sealed.Derived H ⟨pair, epoch, calls + 1⟩ := by
  obtain ⟨ratchet, hr⟩ := Option.isSome_iff_exists.mp hratchet
  obtain ⟨state, secret, hepoch, hsecret, hbase, hnonce⟩ := h.counts ratchet hr
  obtain ⟨hwf, -, hbase', hcase⟩ := h.wf.encrypt hcall
  have hnext : e'.truncatedNonce = UInt32.ofNat (calls + 1) ∧
      ((∃ n out', result = .ok (n, out')) → ∃ cryptor ratchet,
        e'.cryptor = some cryptor ∧ e.ratchet = some ratchet ∧
          cryptor.key = KeyRatchet.keyOf H ratchet.base
            (Encryptor.generationOf (e.truncatedNonce + 1))) := by
    rcases hcase with ⟨hmode, -⟩ | ⟨hnone, -⟩ | ⟨hnonce', hkey⟩
    · simp [hpass] at hmode
    · simp [hr] at hnone
    · refine ⟨?_, hkey⟩
      rw [hnonce', hnonce]
      simp [UInt32.ofNat_add]
  refine ⟨⟨hwf, ?_⟩, ?_⟩
  · intro ratchet' hr'
    rw [hr, hr', Option.map_some, Option.map_some, Option.some.injEq] at hbase'
    exact ⟨state, secret, hepoch, hsecret, hbase'.trans hbase, hnext.1⟩
  · intro pair hpair
    cases result with
    | error err => simp [Except.isOk, Except.toBool] at hpair
    | ok written =>
        obtain ⟨cryptor, ratchet', hcryptor, hr', hkey⟩ := hnext.2 ⟨written.1, written.2, rfl⟩
        obtain rfl := Option.some.inj (hr.symm.trans hr')
        simp only [Except.isOk, Except.toBool, if_true, Connection.usedPair, hcryptor,
          Option.map_some, Option.some.injEq] at hpair
        refine ⟨state, secret, hepoch, hsecret, ?_⟩
        have hplus : e.truncatedNonce + 1 = UInt32.ofNat (calls + 1) := by
          rw [hnonce]
          simp [UInt32.ofNat_add]
        rw [← hpair, hkey, hbase, hnext.1, hplus]
        rfl

end Encryptors

/-- Actions of other parts of the connection do not count. -/
private theorem SenderInv.skip {k k' : Core W H} (h : SenderInv k)
    (hframes : sealedFrames k'.2 = sealedFrames k.2) (hepoch : senderEpoch k'.2 = senderEpoch k.2)
    (hcalls : callsSince k'.2 = callsSince k.2)
    (hencryptor : ∀ d', k'.1 = some d' →
      CountsCalls (senderEpoch k.2) (callsSince k.2) d'.encryptor) : SenderInv k' := by
  constructor
  · rw [hframes]
    exact h.derived
  · intro d' hd'
    rw [hepoch, hcalls]
    exact hencryptor d' hd'

/-- **One effect.** -/
theorem SenderInv.effect {p : Prop} {k k' : Core W H} (h : SenderInv k)
    (heffect : Effect p k k') : SenderInv k' := by
  cases heffect with
  | setUp log ssrc key =>
      refine h.skip rfl rfl rfl ?_
      rintro d' ⟨⟩
      exact countsCalls_new _ _ ssrc
  | startMls d log ssrc =>
      refine h.skip rfl rfl rfl ?_
      rintro d' ⟨⟩
      exact countsCalls_new _ _ ssrc
  | setUpAgain d log ssrc =>
      refine h.skip rfl rfl rfl ?_
      rintro d' ⟨⟩
      exact ((h.counts d rfl).assignSsrcToCodec ssrc .opus).setPassthroughMode true
  | executeZero d | noSender d | prepareDowngrade d =>
      refine h.skip rfl rfl rfl ?_
      rintro d' ⟨⟩
      exact (h.counts d rfl).setPassthroughMode true
  | transition d =>
      refine h.skip rfl rfl rfl ?_
      rintro d' ⟨⟩
      exact (h.counts d rfl).setPassthroughMode false
  | setVersion d | resetSession d | useSession d | commit d | execute d =>
      refine h.skip rfl rfl rfl ?_
      rintro d' ⟨⟩
      exact h.counts d rfl
  | speak d | dropFrame d | deliver d =>
      refine h.skip rfl rfl rfl ?_
      rintro d' ⟨⟩
      exact h.counts d rfl
  | welcome d log session changeMap state env =>
      refine h.skip rfl rfl rfl ?_
      rintro d' ⟨⟩
      rw [Connection.encryptor_installReceivers]
      exact h.counts d rfl
  | stop =>
      refine h.skip rfl rfl rfl ?_
      rintro d' ⟨⟩
  | installSender d log state secret hstate hsecret =>
      refine ⟨h.derived, ?_⟩
      rintro d' ⟨⟩
      exact countsCalls_setKeyRatchet d.encryptor hsecret
  | encrypt d log ssrc frame out encryptor result used hpass hratchet hcall hused =>
      obtain ⟨hcounts, hpair⟩ := (h.counts d rfl).encrypt hpass hratchet hcall
      constructor
      · cases used with
        | none => exact h.derived
        | some pair =>
            intro sealed hsealed
            rcases List.mem_cons.mp hsealed with rfl | hsealed
            · exact hpair pair hused.symm
            · exact h.derived sealed hsealed
      · rintro d' ⟨⟩
        exact hcounts

theorem senderInv_of_reachable {c : Connection W H}
    (h : (Connection.machine W H).Reachable c) : SenderInv c.core := by
  refine Connection.reachable_core ?_ ?_ h
  · constructor
    · intro frame hframe
      simp [sealedFrames] at hframe
    · intro d hd
      simp at hd
  · intro k k' hk heffect
    exact hk.effect heffect

/-- **Nonce uniqueness.**  In every state of every run in which no sender
ratchet is installed of an epoch that has already encrypted a frame, and none
is used more than 2^32 times, no two successful calls have used the same key
and nonce, if its epochs share no key. -/
theorem usedPairs_nodup {c : Connection W H} (h : (Connection.machine W H).Reachable c)
    (hkeys : KeysDistinct H c.log) (hdiscipline : SenderDiscipline c.log) :
    (usedPairs c.log).Nodup := by
  have hinv := senderInv_of_reachable h
  have hcalls := sealedFrames_nodup hdiscipline
  apply List.Nodup.map_on _ hcalls.of_map
  intro a ha b hb hpair
  obtain ⟨stateA, secretA, hepochA, hsecretA, hpairA⟩ := hinv.derived a ha
  obtain ⟨stateB, secretB, hepochB, hsecretB, hpairB⟩ := hinv.derived b hb
  rw [hpairA, hpairB, Prod.mk.injEq] at hpair
  -- the nonce gives the number of the call, the key the epoch
  have hcall : a.call = b.call :=
    call_eq (call_range hdiscipline a ha) (call_range hdiscipline b hb)
      (nonceBuffer_injective hpair.2)
  have hsame := (hkeys stateA stateB _ _ _ _ (sealedFrames_epoch ha hepochA)
    (sealedFrames_epoch hb hepochB) hsecretA hsecretB (UInt8.toNat_lt _) (UInt8.toNat_lt _)
    hpair.1).1
  have hepoch : a.epoch = b.epoch := by
    rw [hepochA, hepochB, hsame]
  exact List.inj_on_of_nodup_map hcalls ha hb (by rw [hepoch, hcall])

/-! ## A call that executes a transition twice -/

/-- The client joins a call and sends a frame. -/
def sendEvents : List (Event (referenceSetting referenceUser)) :=
  connectEvents referenceUser ++ welcomeEvents referenceUser [1, 5, 7] ++
    [.audio ⟨audioFrame, 960⟩]

/-- The epoch of the call. -/
def joinedEpoch : (referenceSetting referenceUser).mls.Epoch := (1 : Nat)

/-- Ratchets of one epoch have one base secret, and its generations have different keys. -/
theorem keysDistinct_of_epoch {log : List (Action (referenceSetting referenceUser))}
    {epoch : (referenceSetting referenceUser).mls.Epoch}
    (h : ∀ e ∈ senderEpochs log, e = epoch) : KeysDistinct Chain log := by
  intro a b secret secret' g g' ha hb hsecret hsecret' hg hg' hkey
  have hsame : referenceMls.epochOf a = referenceMls.epochOf b := (h _ ha).trans (h _ hb).symm
  have hsecrets : referenceMls.mediaSecret a referenceUser =
      referenceMls.mediaSecret b referenceUser :=
    referenceMls_exportsByEpoch.same hsame referenceUser
  obtain rfl : secret = secret' :=
    Option.some.inj ((hsecret.symm.trans hsecrets).trans hsecret')
  exact ⟨hsame, chainKey_generation hg hg' hkey⟩

theorem usedPairs_nodup_sendEvents :
    usedPairs (after referenceUser sendEvents).log = [(referenceKey, nonceBuffer 1)] ∧
      (usedPairs (after referenceUser sendEvents).log).Nodup := by
  refine ⟨by decide +kernel, ?_⟩
  have hepochs : ∀ e ∈ senderEpochs (after referenceUser sendEvents).log, e = joinedEpoch := by
    decide +kernel
  exact usedPairs_nodup (reachable_after (by decide +kernel)) (keysDistinct_of_epoch hepochs)
    (by decide +kernel)

/-- The server executes the transition a second time, and the client sends
another frame: under the same key and nonce. -/
theorem usedPairs_repeated_of_second_execute :
    referenceMls.ExportsByEpoch ∧ ∃ c, (referenceMachine referenceUser).Reachable c ∧
      KeysDistinct Chain c.log ∧
      usedPairs c.log = [(referenceKey, nonceBuffer 1), (referenceKey, nonceBuffer 1)] ∧
      ¬ (usedPairs c.log).Nodup := by
  have hepochs : ∀ e ∈ senderEpochs (after referenceUser (sendEvents ++
      handled referenceUser (.daveExecuteTransition (some 3)) ++
      [.audio ⟨[0x78, 0x04, 0x05, 0x06], 960⟩])).log, e = joinedEpoch := by
    decide +kernel
  refine ⟨referenceMls_exportsByEpoch, after referenceUser
    (sendEvents ++ handled referenceUser (.daveExecuteTransition (some 3)) ++
      [.audio ⟨[0x78, 0x04, 0x05, 0x06], 960⟩]), reachable_after (by decide +kernel),
    keysDistinct_of_epoch hepochs, ?_, ?_⟩
  · decide +kernel
  · decide +kernel

end Ekizu.Voice
