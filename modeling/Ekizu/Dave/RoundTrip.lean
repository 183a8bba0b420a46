import Ekizu.Dave.Trailer
import Ekizu.Dave.Replay

/-!
# The audio round trip

What an encryptor makes of an Opus frame, a decryptor that holds the same
ratchet turns back into the frame.

## Main results

* `encrypt_audio` — outside passthrough a non-empty Opus frame is encrypted,
  under the key of the advanced nonce's generation.
* `decryptImpl_recovers` — an attempt with a manager that has this key gives the
  frame back.
* `decrypt_encrypt_audio` — the composition of the two.
-/

namespace Ekizu.Dave

open Lib.Span
open Lib.Segments

variable {H : Type} [HashRatchet H] [LawfulHashRatchet H]

/-! ## Encrypting -/

/-- The outbound processor of an Opus frame: nothing is left in the clear. -/
theorem processFrame_opus (p : OutboundFrameProcessor) (frame : Bytes) :
    ∃ p', p.processFrame frame .opus = some p' ∧ p'.unencryptedBytes = [] ∧
      p'.encryptedBytes = frame ∧ p'.ciphertextBytes.length = frame.length ∧
      p'.unencryptedRanges = [] :=
  ⟨_, rfl, rfl, rfl, resize_length _ _ _, rfl⟩

theorem leb128Size_uint32 (nonce : UInt32) : leb128Size nonce.toNat ≤ 5 :=
  leb128Size_le nonce.toNat 4 (Nat.lt_trans nonce.toNat_lt (by decide))

/-- An Opus trailer always fits. -/
theorem trailerFits_opus {p : OutboundFrameProcessor} {frame : Bytes} (nonce : UInt32)
    (hclear : p.unencryptedBytes = []) (henc : p.encryptedBytes = frame)
    (hranges : p.unencryptedRanges = []) :
    Encryptor.TrailerFits p nonce
      (Encryptor.getMaxCiphertextByteSize .audio frame.length) := by
  have hleb := leb128Size_uint32 nonce
  simp only [Encryptor.TrailerFits, Encryptor.getMaxCiphertextByteSize, hclear, henc, hranges,
    rangesEncodedSize, List.length_nil, supplementalBytes, truncatedTagBytes,
    transformPaddingBytes]
  exact ⟨by omega, by omega⟩

/-- **Encrypting audio.** -/
theorem encrypt_audio {gcm : AesGcm} (hgcm : gcm.Correct) {e : Encryptor H} (he : e.Wf)
    {ratchet : KeyRatchet H} {ssrc : UInt32} {frame out : Bytes}
    (hpass : e.passthroughMode = false) (hratchet : e.ratchet = some ratchet)
    (hcodec : e.codecForSsrc ssrc = .opus) (hne : frame ≠ [])
    (hkey : KeyRatchet.keyOf H ratchet.base
      (Encryptor.generationOf (e.truncatedNonce + 1)) ≠ [])
    (hout : out.length = Encryptor.getMaxCiphertextByteSize .audio frame.length) :
    ∃ e' n out', e.encrypt gcm .audio ssrc frame out = some (e', .ok (n, out')) := by
  obtain ⟨p, hp, hclear, henc, -, hranges⟩ := processFrame_opus e.frameProcessor frame
  obtain ⟨hacc, hsize⟩ := OutboundFrameProcessor.processFrame_accounted hp
  let generation := Encryptor.generationOf (e.truncatedNonce + 1)
  let e₁ : Encryptor H :=
    { e with frameProcessor := p, truncatedNonce := e.truncatedNonce + 1 }
  have hwf₁ : e₁.Wf := ⟨he.cached, he.live⟩
  have hrotate := hwf₁.rotateKey_eq_some hratchet hkey
  obtain ⟨hnonce, hkept, -, -⟩ := Encryptor.rotateKey_frame e₁ ratchet generation
  obtain ⟨ciphertext, tag, hseal, -⟩ := hgcm (KeyRatchet.keyOf H ratchet.base generation)
    (nonceBuffer (e.truncatedNonce + 1)) [] frame
  have hleb := leb128Size_uint32 (e.truncatedNonce + 1)
  have hlen : 0 < frame.length := List.length_pos_iff.mpr hne
  simp only [Encryptor.getMaxCiphertextByteSize, supplementalBytes,
    transformPaddingBytes] at hout
  have hroom : p.unencryptedBytes.length + p.encryptedBytes.length +
      (supplementalBytes + leb128Size (e.truncatedNonce + 1).toNat +
        rangesEncodedSize p.unencryptedRanges) ≤ out.length := by
    rw [hclear, henc, hranges]
    simp only [List.length_nil, supplementalBytes, rangesEncodedSize]
    omega
  obtain ⟨e', n, out', hcall⟩ := Encryptor.encryptFrame_isOk gcm
    (e₁.rotateKey ratchet generation).1 ⟨KeyRatchet.keyOf H ratchet.base generation⟩
    (by rw [hkept]; exact hacc) (by rw [hkept]; exact hsize)
    (by rw [hkept, hclear, henc]; simpa using hlen)
    (by rw [hnonce, hkept, hclear, henc]; exact hseal)
    (by rw [hnonce, hkept]; exact hroom)
  refine ⟨e', n, out', ?_⟩
  rw [← hcodec] at hp
  rw [Encryptor.encrypt_eq_encryptFrame gcm .audio out hpass hratchet hp
    (Prod.ext rfl hrotate)]
  exact hcall

/-! ## Decrypting -/

omit [LawfulHashRatchet H] in
/-- An attempt on a recovered frame with the right key. -/
theorem decryptImpl_recovers {gcm : AesGcm} {manager : CipherManager H}
    {clock : ManagerClock} {p : InboundFrameProcessor} {frameOut tag ciphertext frame : Bytes}
    {nonce : UInt32} {cipher : AeadCipher} (hp : Recovers p tag nonce [] [] ciphertext)
    (hplain : p.plaintext.length = p.ciphertext.length)
    (htag : tag.length = truncatedTagBytes) (hne : frame ≠ [])
    (hadmitted : manager.canProcessNonce (manager.nonceGeneration nonce) nonce = true)
    (hfound : (manager.getCipher clock (manager.nonceGeneration nonce)).2 =
      some cipher)
    (hopen : gcm.gcmDecrypt cipher.key (nonceBuffer nonce) [] ciphertext tag = some frame)
    (hout : frame.length ≤ frameOut.length) :
    ∃ a, Decryptor.decryptImpl gcm manager clock p frameOut = some a ∧
      a.written = some frame.length ∧ a.output.take frame.length = frame := by
  have hlen := gcm.gcmDecrypt_length hopen
  have hpos : 0 < frame.length := List.length_pos_iff.mpr hne
  have hstore : write p.plaintext 0 frame = some frame := by
    have hsame : p.plaintext.length = frame.length := by
      rw [hplain, hp.ciphertext_eq, hlen]
    rw [write_of_le (by omega), List.take_zero, List.nil_append,
      List.drop_of_length_le (by omega), List.append_nil]
  obtain ⟨output, hrec, -, htake⟩ := doReconstruct_eq frame frameOut
    (show Ordered 0 [] from trivial) (show sizes [] = ([] : Bytes).length from rfl)
    (Nat.zero_le _) (by simpa using hout)
  simp only [List.length_nil, Nat.zero_add] at hrec htake
  have hcall : ({ p with plaintext := frame } : InboundFrameProcessor).reconstructFrame
      frameOut = some (frame.length, output) := by
    rw [InboundFrameProcessor.reconstructFrame, if_neg (by simp [hp.encrypted]),
      if_neg (by simp only [hp.authenticated_eq, List.length_nil]; omega)]
    simp only [hp.ranges_eq, hp.authenticated_eq]
    exact hrec
  refine ⟨⟨(manager.getCipher clock (manager.nonceGeneration nonce)).1.reportCipherSuccess
      clock.report (manager.nonceGeneration nonce) nonce,
    { p with plaintext := frame }, output,
    some (computeWrappedBigNonce (manager.nonceGeneration nonce) nonce),
    some frame.length⟩, ?_, rfl, htake⟩
  unfold Decryptor.decryptImpl
  rw [if_neg (by simp [hp.encrypted])]
  dsimp only
  rw [hp.nonce_eq, if_neg (by simp [hadmitted]),
    show manager.getCipher clock (manager.nonceGeneration nonce) =
      ((manager.getCipher clock (manager.nonceGeneration nonce)).1, some cipher) from
      Prod.ext rfl hfound]
  simp only [hp.ciphertext_eq, hp.tag_eq, hp.authenticated_eq, hp.nonce_eq] at hcall ⊢
  simp only [AeadCipher.decrypt_append gcm cipher htag, hopen, Option.bind_eq_bind, hstore,
    Option.bind_some, hcall]
  rw [if_neg (by omega)]

omit [LawfulHashRatchet H] in
/-- A call whose newest manager opens the frame. -/
theorem decrypt_newest {gcm : AesGcm} {d : Decryptor H} {mediaType : MediaType}
    {clock : DecryptClock} {frame frameOut : Bytes} {p : InboundFrameProcessor}
    {manager : CipherManager H} {a : Attempt H} {n : Nat} (hframe : frame ≠ opusSilencePacket)
    (hparse : d.getOrCreateFrameProcessor.1.parseFrame frame = some p)
    (hencrypted : p.encrypted = true)
    (hnewest : (Decryptor.cleanupExpiredManagers clock.expired d.managers).getLast? =
      some manager)
    (ha : Decryptor.decryptImpl gcm manager (clock.attempt 0) p frameOut = some a)
    (hwritten : a.written = some n) :
    ∃ call, d.decrypt gcm mediaType clock frame frameOut = some call ∧
      call.result = some n ∧ call.output = a.output := by
  obtain ⟨front, hfront⟩ := List.getLast?_eq_some_iff.mp hnewest
  obtain ⟨hmanagers, -⟩ := Decryptor.getOrCreateFrameProcessor_frame d
  have hloop : Decryptor.decryptLoop gcm clock.attempt
      (Decryptor.cleanupExpiredManagers clock.expired d.managers).reverse p frameOut =
        some ⟨a.manager :: front.reverse, a.processor, a.output,
          a.reported :: front.reverse.map fun _ => none, some n⟩ := by
    rw [hfront, List.reverse_append, List.reverse_singleton, List.singleton_append,
      Decryptor.decryptLoop]
    simp only [ha, Option.bind_eq_bind, Option.bind_some, hwritten]
  rw [← hmanagers] at hloop
  simp only [Decryptor.decrypt, hframe, and_false, if_false, Decryptor.decryptWith, hparse,
    Option.bind_eq_bind, Option.bind_some, hencrypted, Bool.true_eq_false, false_and, hloop]
  exact ⟨_, rfl, rfl, rfl⟩

/-- What an encryptor has made of an Opus frame: its size, and that a decryptor
whose newest manager has the key turns it back into the frame. -/
theorem decrypt_of_encrypt {gcm : AesGcm} (hgcm : gcm.Correct) {e e' : Encryptor H}
    {d : Decryptor H} (he : e.Wf) {ratchet : KeyRatchet H} {ssrc : UInt32}
    {frame out out' : Bytes} {n : Nat} {clock : DecryptClock}
    {manager : CipherManager H} (hwf : manager.Wf) (hne : frame ≠ [])
    (hcodec : e.codecForSsrc ssrc = .opus) (hpass : e.passthroughMode = false)
    (hratchet : e.ratchet = some ratchet)
    (hcall : e.encrypt gcm .audio ssrc frame out = some (e', .ok (n, out')))
    (hnewest : (Decryptor.cleanupExpiredManagers clock.expired d.managers).getLast? =
      some manager)
    (hsame : manager.ratchet.base = ratchet.base)
    (hunseen : manager.canProcessNonce
      (manager.nonceGeneration (e.truncatedNonce + 1)) (e.truncatedNonce + 1) = true)
    (hadmits : (manager.getCipher (clock.attempt 0)
      (manager.nonceGeneration (e.truncatedNonce + 1))).2.isSome = true)
    (hout : out.length = Encryptor.getMaxCiphertextByteSize .audio frame.length) :
    (out'.take n).length =
        frame.length + supplementalBytes + leb128Size (e.truncatedNonce + 1).toNat ∧
      ∀ frameOut : Bytes, frame.length ≤ frameOut.length →
        ∃ call, d.decrypt gcm .audio clock (out'.take n) frameOut = some call ∧
          call.result = some frame.length ∧ call.output.take frame.length = frame := by
  -- The manager's cipher has the key the encryptor has used.
  obtain ⟨cipher, hfound⟩ := Option.isSome_iff_exists.mp hadmits
  obtain ⟨-, hkeyOf⟩ := (hwf.getCipher (clock.attempt 0) _).2.2 cipher hfound
  have hkey : cipher.key = KeyRatchet.keyOf H ratchet.base
      (Encryptor.generationOf (e.truncatedNonce + 1)) := by
    rw [hkeyOf, manager.toUInt8_nonceGeneration, hsame]
    rfl
  obtain ⟨p, hp, hclear, henc, -, hranges⟩ := processFrame_opus e.frameProcessor frame
  rw [← hcodec] at hp
  obtain ⟨inbound, cryptor, tag, hparse, hcryptor, hseal, hrecovers⟩ :=
    Encryptor.undone_of_trailerFits d.getOrCreateFrameProcessor.1 hpass hp hcall
      (.inl hranges) (by rw [hout]; exact trailerFits_opus _ hclear henc hranges)
  obtain ⟨_, _, _, -, hproc, hadvanced, -, -, hn, hmax, hlen, -⟩ :=
    Encryptor.encrypt_sent hpass hp hcall
  obtain ⟨-, -, -, hcase⟩ := he.encrypt hcall
  have hcryptorKey : cryptor.key = KeyRatchet.keyOf H ratchet.base
      (Encryptor.generationOf (e.truncatedNonce + 1)) := by
    rcases hcase with ⟨hp, -⟩ | ⟨hnone, -⟩ | ⟨-, hok⟩
    · simp [hpass] at hp
    · simp [hratchet] at hnone
    · obtain ⟨cryptor', ratchet', hc, hr, hk⟩ := hok ⟨n, out', rfl⟩
      obtain rfl := Option.some.inj (hcryptor.symm.trans hc)
      obtain rfl := Option.some.inj (hratchet.symm.trans hr)
      exact hk
  have hsize : (out'.take n).length =
      frame.length + supplementalBytes + leb128Size (e.truncatedNonce + 1).toNat := by
    rw [List.length_take, hlen, Nat.min_eq_left hmax, hn, hclear, henc, hranges]
    have hkept (room : Nat) : (Encryptor.keptRanges [] room).length = 0 := rfl
    rw [hkept, List.length_nil]
    omega
  -- Decrypt.
  rw [hproc, hclear, henc] at hseal
  rw [hproc, hranges, hclear] at hrecovers
  obtain ⟨ciphertext', tag', hseal', hopen⟩ := hgcm cryptor.key
    (nonceBuffer e'.truncatedNonce) [] frame
  rw [hseal] at hseal'
  simp only [Option.some.injEq, Prod.mk.injEq] at hseal'
  obtain ⟨rfl, rfl⟩ := hseal'
  rw [hcryptorKey, ← hkey] at hopen
  have hsilence : out'.take n ≠ opusSilencePacket := by
    intro hsilence
    rw [hsilence] at hsize
    simp only [opusSilencePacket, List.length_cons, List.length_nil, supplementalBytes] at hsize
    omega
  refine ⟨hsize, ?_⟩
  intro frameOut hroom
  obtain ⟨a, ha, hwritten, houtput⟩ := decryptImpl_recovers hrecovers
    (InboundFrameProcessor.plaintext_length_of_parseFrame hparse hrecovers.encrypted)
    (gcm.gcmEncrypt_length hseal).2 hne (by rw [hadvanced]; exact hunseen)
    (by rw [hadvanced]; exact hfound) hopen hroom
  obtain ⟨call, hdecrypt, hresult, hcallOut⟩ := decrypt_newest hsilence hparse
    hrecovers.encrypted hnewest ha hwritten
  refine ⟨call, hdecrypt, hresult, ?_⟩
  rw [hcallOut]
  exact houtput

/-- **The audio round trip.**  For every non-empty frame on an Opus SSRC, every
encryptor outside passthrough that has a ratchet, and every decryptor whose
newest manager holds the same ratchet, finds a cipher for the frame's
generation and has not seen its nonce: `encrypt` succeeds, and `decrypt` on its
output yields the frame. -/
theorem decrypt_encrypt_audio {gcm : AesGcm} (hgcm : gcm.Correct) {e : Encryptor H}
    {d : Decryptor H} {histories : List Decryptor.History} (he : e.Reachable gcm)
    (hd : d.Run gcm False histories) {ratchet : KeyRatchet H} {ssrc : UInt32}
    {frame out frameOut : Bytes} {clock : DecryptClock} {manager : CipherManager H}
    (hne : frame ≠ []) (hcodec : e.codecForSsrc ssrc = .opus)
    (hpass : e.passthroughMode = false) (hratchet : e.ratchet = some ratchet)
    (hnewest : (Decryptor.cleanupExpiredManagers clock.expired d.managers).getLast? =
      some manager)
    (hsame : manager.ratchet.base = ratchet.base)
    (hunseen : manager.canProcessNonce
      (manager.nonceGeneration (e.truncatedNonce + 1)) (e.truncatedNonce + 1) = true)
    (hadmits : (manager.getCipher (clock.attempt 0)
      (manager.nonceGeneration (e.truncatedNonce + 1))).2.isSome = true)
    (hout : out.length = Encryptor.getMaxCiphertextByteSize .audio frame.length)
    (hroom : frame.length ≤ frameOut.length) :
    ∃ e' n out' call, e.encrypt gcm .audio ssrc frame out = some (e', .ok (n, out')) ∧
      d.decrypt gcm .audio clock (out'.take n) frameOut = some call ∧
      call.result = some frame.length ∧ call.output.take frame.length = frame := by
  -- The manager's cipher has the key the encryptor is going to use.
  obtain ⟨cipher, hfound⟩ := Option.isSome_iff_exists.mp hadmits
  have hmem : manager ∈ d.managers := by
    obtain ⟨k, -, hdrop⟩ := Decryptor.cleanupExpiredManagers_eq_drop d.managers clock.expired
    rw [hdrop] at hnewest
    exact List.mem_of_mem_drop (List.mem_of_getLast? hnewest)
  have hwf := hd.wf hmem
  obtain ⟨hkeyNe, hkeyOf⟩ := (hwf.getCipher (clock.attempt 0) _).2.2 cipher hfound
  have hkey : KeyRatchet.keyOf H ratchet.base
      (Encryptor.generationOf (e.truncatedNonce + 1)) ≠ [] := by
    rw [hkeyOf, manager.toUInt8_nonceGeneration, hsame] at hkeyNe
    exact hkeyNe
  obtain ⟨e', n, out', hcall⟩ := encrypt_audio hgcm he.wf hpass hratchet hcodec hne hkey hout
  obtain ⟨-, hdecrypts⟩ := decrypt_of_encrypt hgcm he.wf hwf hne hcodec hpass hratchet hcall
    hnewest hsame hunseen hadmits hout
  obtain ⟨call, hdecrypt, hresult, houtput⟩ := hdecrypts frameOut hroom
  exact ⟨e', n, out', call, hcall, hdecrypt, hresult, houtput⟩

theorem decrypt_encrypt_audioFrame : ∃ e' n out' call,
    Encryptor.referenceEncryptor.encrypt referenceGcm .audio 1 audioFrame
        (List.replicate 79 0) = some (e', .ok (n, out')) ∧
      Decryptor.referenceDecryptor.decrypt referenceGcm .audio Decryptor.referenceClock
        (out'.take n) [0, 0, 0, 0, 0] = some call ∧
      call.result = some audioFrame.length ∧
      call.output.take audioFrame.length = audioFrame := by
  have hfresh : ∀ r : KeyRatchet Chain,
      some (.mls (HashRatchet.ofSecret referenceSecret)) = some r → r.Fresh := by
    rintro r ⟨⟩
    exact .mls referenceSecret
  have he : Encryptor.referenceEncryptor.Reachable referenceGcm :=
    .assignSsrcToCodec 2 .h264 (.assignSsrcToCodec 1 .opus (.setPassthroughMode false
      (.setKeyRatchet .start hfresh)))
  have hd : Decryptor.referenceDecryptor.Run referenceGcm False [[]] :=
    .transition (some (.mls (HashRatchet.ofSecret referenceSecret))) referenceInstant
      referenceInstant (seconds 10) .start
  let manager : CipherManager Chain :=
    .new (.mls (HashRatchet.ofSecret referenceSecret)) referenceInstant
  have hnewest : (Decryptor.cleanupExpiredManagers Decryptor.referenceClock.expired
      Decryptor.referenceDecryptor.managers).getLast? = some manager := rfl
  exact decrypt_encrypt_audio referenceGcm_correct he hd (by decide) (by decide +kernel) rfl rfl
    hnewest rfl (by decide +kernel) (by decide +kernel) (by decide) (by decide)

end Ekizu.Dave
