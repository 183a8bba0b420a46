import Ekizu.Dave.AeadCipher
import Ekizu.Dave.Outbound
import Mathlib.Data.List.AList

/-!
# The encryptor

`src/dave/encryptor.cpp`.  A call answers `none` when it would touch memory
outside its buffers; otherwise it returns the encryptor after the call and
either an error or the number of bytes written with the output buffer.

## Main results

* `encrypt_ok` — what a successful call outside passthrough has done.
* `Wf` and its preservation — the cached cipher belongs to the ratchet, and
  the encryptor never loses a generation.
-/

namespace Ekizu.Dave

open Lib.Span

/-- `struct Encryptor`. -/
structure Encryptor (H : Type) where
  passthroughMode : Bool := true
  ratchet : Option (KeyRatchet H) := none
  cryptor : Option AeadCipher := none
  currentKeyGeneration : UInt8 := 0
  truncatedNonce : UInt32 := 0
  ssrcCodecMap : AList (fun _ : UInt32 => Codec) := ∅
  frameProcessor : OutboundFrameProcessor := {}

namespace Encryptor

variable {H : Type}

/-- `Encryptor::set_key_ratchet`; a null pointer is `none`. -/
def setKeyRatchet (e : Encryptor H) (ratchet : Option (KeyRatchet H)) : Encryptor H :=
  { e with ratchet, cryptor := none, currentKeyGeneration := 0, truncatedNonce := 0 }

/-- `Encryptor::set_passthrough_mode`. -/
def setPassthroughMode (e : Encryptor H) (passthroughMode : Bool) : Encryptor H :=
  { e with passthroughMode }

/-- `Encryptor::has_key_ratchet`. -/
def hasKeyRatchet (e : Encryptor H) : Bool := e.ratchet.isSome

/-- `Encryptor::assign_ssrc_to_codec`. -/
def assignSsrcToCodec (e : Encryptor H) (ssrc : UInt32) (codec : Codec) : Encryptor H :=
  { e with ssrcCodecMap := e.ssrcCodecMap.insert ssrc codec }

/-- `Encryptor::codec_for_ssrc`. -/
def codecForSsrc (e : Encryptor H) (ssrc : UInt32) : Codec :=
  (e.ssrcCodecMap.lookup ssrc).getD .opus

/-- `Encryptor::get_max_ciphertext_byte_size`. -/
def getMaxCiphertextByteSize (_mediaType : MediaType) (frameSize : Nat) : Nat :=
  frameSize + supplementalBytes + transformPaddingBytes

/-- The generation a truncated nonce belongs to. -/
def generationOf (nonce : UInt32) : UInt8 :=
  (nonce >>> 24).toUInt8

/-- The trailer of `encrypt`: tag, nonce, ranges, size byte and marker written
after a body of `bodySize` bytes.  The two counts the source narrows to eight
bits are narrowed here. -/
def appendTrailer (out : Bytes) (bodySize : Nat) (tag : Bytes) (nonce : UInt32)
    (unencryptedRanges : List Range) : Option (Nat × Bytes) := do
  let out ← write out bodySize tag
  let writtenOffset := bodySize + truncatedTagBytes
  let out ← write out writtenOffset (writeLeb128 nonce.toNat)
  let writtenOffset := writtenOffset + leb128Size nonce.toNat
  let room ← sub out.length writtenOffset
  let (ranges, count) := serializeUnencryptedRanges unencryptedRanges room
  let out ← write out writtenOffset ranges
  let writtenOffset := writtenOffset + count.toNat
  let currentSupplementalPayload := writtenOffset - bodySize + 1 + 2
  let out ← write out writtenOffset [currentSupplementalPayload.toUInt8]
  let out ← write out (writtenOffset + 1) markerBytes
  pure (writtenOffset + 1 + 2, out)

/-- `encrypt` from the AEAD call on. -/
def encryptFrame (gcm : AesGcm) (e : Encryptor H) (cryptor : AeadCipher) (out : Bytes) :
    Option (Encryptor H × Except DaveError (Nat × Bytes)) :=
  let p := e.frameProcessor
  match cryptor.encrypt gcm p.encryptedBytes p.unencryptedBytes
      (nonceBuffer e.truncatedNonce) with
  | none => some (e, .error .encryptionFailed)
  | some tempCipherOutput => do
      let cipherSrc ← first tempCipherOutput p.encryptedBytes.length
      let ciphertextBytes ← write p.ciphertextBytes 0 cipherSrc
      let tag ← subspan tempCipherOutput p.encryptedBytes.length truncatedTagBytes
      let p := { p with ciphertextBytes }
      let e := { e with frameProcessor := p }
      let (bodySize, out) ← p.reconstructFrame out
      if bodySize = 0 then some (e, .error .encryptionFailed)
      else
        let result ← appendTrailer out bodySize tag e.truncatedNonce p.unencryptedRanges
        some (e, .ok result)

variable [HashRatchet H]

/-- The key rotation check of `encrypt`; `none` when the ratchet has no key. -/
def rotateKey (e : Encryptor H) (ratchet : KeyRatchet H) (generation : UInt8) :
    Encryptor H × Option AeadCipher :=
  if e.cryptor = none ∨ generation ≠ e.currentKeyGeneration then
    let (key, ratchet) := ratchet.getKey generation
    let e := { e with ratchet := some ratchet }
    if key = [] then (e, none)
    else
      ({ e with cryptor := some ⟨key⟩, currentKeyGeneration := generation }, some ⟨key⟩)
  else (e, e.cryptor)

/-- `Encryptor::encrypt`. -/
def encrypt (gcm : AesGcm) (e : Encryptor H) (_mediaType : MediaType) (ssrc : UInt32)
    (frame out : Bytes) : Option (Encryptor H × Except DaveError (Nat × Bytes)) :=
  if e.passthroughMode then do
    let out ← write out 0 frame
    some (e, .ok (frame.length, out))
  else
    match e.ratchet with
    | none => some (e, .error .ratchetNotReady)
    | some ratchet => do
        let frameProcessor ← e.frameProcessor.processFrame frame (e.codecForSsrc ssrc)
        let e := { e with frameProcessor, truncatedNonce := e.truncatedNonce + 1 }
        match e.rotateKey ratchet (generationOf e.truncatedNonce) with
        | (e, none) => some (e, .error .invalidGeneration)
        | (e, some cryptor) => e.encryptFrame gcm cryptor out

/-! ## What a call does -/

section Calls

variable {gcm : AesGcm} {e e' : Encryptor H} {mediaType : MediaType} {ssrc : UInt32}
  {frame out out' : Bytes} {n : Nat}

omit [HashRatchet H] in
theorem encryptFrame_ok {cryptor : AeadCipher}
    (h : e.encryptFrame gcm cryptor out = some (e', .ok (n, out'))) :
    ∃ ciphertext tag bodySize body,
      gcm.gcmEncrypt cryptor.key (nonceBuffer e.truncatedNonce)
        e.frameProcessor.unencryptedBytes e.frameProcessor.encryptedBytes =
          some (ciphertext, tag) ∧
      ciphertext.length ≤ e.frameProcessor.ciphertextBytes.length ∧
      e' = { e with frameProcessor := { e.frameProcessor with
        ciphertextBytes := ciphertext ++
          e.frameProcessor.ciphertextBytes.drop ciphertext.length } } ∧
      e'.frameProcessor.reconstructFrame out = some (bodySize, body) ∧ bodySize ≠ 0 ∧
      appendTrailer body bodySize tag e.truncatedNonce e.frameProcessor.unencryptedRanges =
        some (n, out') := by
  unfold encryptFrame at h
  cases hseal : gcm.gcmEncrypt cryptor.key (nonceBuffer e.truncatedNonce)
      e.frameProcessor.unencryptedBytes e.frameProcessor.encryptedBytes with
  | none => simp [AeadCipher.encrypt, hseal] at h
  | some sealed =>
      obtain ⟨ciphertext, tag⟩ := sealed
      obtain ⟨hct, htag⟩ := gcm.gcmEncrypt_length hseal
      have hsrc : first (ciphertext ++ tag) e.frameProcessor.encryptedBytes.length =
          some ciphertext := by
        rw [first_of_le (by simp [hct]), ← hct, List.take_left]
      have hdest : subspan (ciphertext ++ tag) e.frameProcessor.encryptedBytes.length
          truncatedTagBytes = some tag := by
        rw [subspan_of_le (by simp [hct, htag]), ← hct, List.drop_left, ← htag,
          List.take_length]
      simp only [AeadCipher.encrypt, hseal, Option.map_some, Option.bind_eq_bind, hsrc,
        hdest, Option.bind_some] at h
      obtain ⟨ciphertextBytes, hwrite, h⟩ := Option.bind_eq_some_iff.mp h
      obtain ⟨⟨bodySize, body⟩, hrec, h⟩ := Option.bind_eq_some_iff.mp h
      obtain ⟨hle, rfl⟩ := write_eq_some_iff.mp hwrite
      rw [List.take_zero, List.nil_append, Nat.zero_add] at hrec h
      by_cases hbody : bodySize = 0
      · simp [hbody] at h
      · rw [if_neg hbody] at h
        obtain ⟨result, hresult, h⟩ := Option.bind_eq_some_iff.mp h
        simp only [Option.some.injEq, Prod.mk.injEq, Except.ok.injEq] at h
        obtain ⟨rfl, rfl⟩ := h
        exact ⟨ciphertext, tag, bodySize, body, rfl, by simpa using hle, rfl, hrec, hbody,
          hresult⟩

omit [HashRatchet H] in
/-- From the AEAD call on, only the frame processor changes. -/
theorem encryptFrame_frame {cryptor : AeadCipher}
    {result : Except DaveError (Nat × Bytes)}
    (h : e.encryptFrame gcm cryptor out = some (e', result)) :
    ∃ p, e' = { e with frameProcessor := p } := by
  unfold encryptFrame at h
  dsimp only at h
  split at h
  · simp only [Option.some.injEq, Prod.mk.injEq] at h
    exact ⟨e.frameProcessor, h.1.symm⟩
  · simp only [Option.bind_eq_bind] at h
    obtain ⟨_, -, h⟩ := Option.bind_eq_some_iff.mp h
    obtain ⟨_, -, h⟩ := Option.bind_eq_some_iff.mp h
    obtain ⟨_, -, h⟩ := Option.bind_eq_some_iff.mp h
    obtain ⟨⟨bodySize, body⟩, -, h⟩ := Option.bind_eq_some_iff.mp h
    split at h
    · simp only [Option.some.injEq, Prod.mk.injEq] at h
      exact ⟨_, h.1.symm⟩
    · obtain ⟨_, -, h⟩ := Option.bind_eq_some_iff.mp h
      simp only [Option.some.injEq, Prod.mk.injEq] at h
      exact ⟨_, h.1.symm⟩

omit [HashRatchet H] in
private theorem encryptFrame_ne_ratchetNotReady {cryptor : AeadCipher} :
    e.encryptFrame gcm cryptor out ≠ some (e', .error .ratchetNotReady) := by
  intro h
  unfold encryptFrame at h
  dsimp only at h
  split at h
  · simp at h
  · simp only [Option.bind_eq_bind] at h
    obtain ⟨_, -, h⟩ := Option.bind_eq_some_iff.mp h
    obtain ⟨_, -, h⟩ := Option.bind_eq_some_iff.mp h
    obtain ⟨_, -, h⟩ := Option.bind_eq_some_iff.mp h
    obtain ⟨⟨bodySize, body⟩, -, h⟩ := Option.bind_eq_some_iff.mp h
    split at h
    · simp at h
    · obtain ⟨_, -, h⟩ := Option.bind_eq_some_iff.mp h
      simp at h

/-- The rotation check touches only the ratchet, the cached cipher and its
generation. -/
theorem rotateKey_frame (e : Encryptor H) (ratchet : KeyRatchet H) (generation : UInt8) :
    (e.rotateKey ratchet generation).1.truncatedNonce = e.truncatedNonce ∧
      (e.rotateKey ratchet generation).1.frameProcessor = e.frameProcessor ∧
      (e.rotateKey ratchet generation).1.passthroughMode = e.passthroughMode ∧
      (e.rotateKey ratchet generation).1.ssrcCodecMap = e.ssrcCodecMap := by
  unfold rotateKey
  split
  · dsimp only
    split <;> exact ⟨rfl, rfl, rfl, rfl⟩
  · exact ⟨rfl, rfl, rfl, rfl⟩

theorem rotateKey_cryptor {ratchet : KeyRatchet H} {generation : UInt8}
    {cryptor : AeadCipher} (h : (e.rotateKey ratchet generation).2 = some cryptor) :
    (e.rotateKey ratchet generation).1.cryptor = some cryptor := by
  unfold rotateKey at h ⊢
  split at h
  · next hfetch =>
      rw [if_pos hfetch]
      dsimp only at h ⊢
      split at h
      · simp at h
      · next hkey => simpa [hkey] using h
  · next hkeep =>
      rw [if_neg hkeep]
      exact h

/-- What a call outside passthrough that reached the AEAD did before it. -/
theorem encrypt_rotate (hpass : e.passthroughMode = false)
    {result : Except DaveError (Nat × Bytes)}
    (h : e.encrypt gcm mediaType ssrc frame out = some (e', result)) :
    (e.ratchet = none ∧ e' = e ∧ result = .error .ratchetNotReady) ∨
    ∃ ratchet p, e.ratchet = some ratchet ∧
      e.frameProcessor.processFrame frame (e.codecForSsrc ssrc) = some p ∧
      let e₁ := { e with frameProcessor := p, truncatedNonce := e.truncatedNonce + 1 }
      let e₂ := e₁.rotateKey ratchet (generationOf e₁.truncatedNonce)
      (e₂.2 = none ∧ e' = e₂.1 ∧ result = .error .invalidGeneration) ∨
        ∃ cryptor, e₂.2 = some cryptor ∧
          e₂.1.encryptFrame gcm cryptor out = some (e', result) := by
  unfold encrypt at h
  rw [if_neg (by simp [hpass])] at h
  split at h
  · next hratchet =>
      simp only [Option.some.injEq, Prod.mk.injEq] at h
      exact .inl ⟨hratchet, h.1.symm, h.2.symm⟩
  · next ratchet hratchet =>
      obtain ⟨p, hp, h⟩ := Option.bind_eq_some_iff.mp h
      refine .inr ⟨ratchet, p, hratchet, hp, ?_⟩
      dsimp only at h ⊢
      split at h
      · next e₂ hrotate =>
          simp only [Option.some.injEq, Prod.mk.injEq] at h
          exact .inl ⟨by rw [hrotate], by rw [hrotate]; exact h.1.symm, h.2.symm⟩
      · next e₂ cryptor hrotate =>
          exact .inr ⟨cryptor, by rw [hrotate], by rw [hrotate]; exact h⟩

/-- A call stays in its mode and does not lose the ratchet. -/
theorem encrypt_keeps {result : Except DaveError (Nat × Bytes)}
    (h : e.encrypt gcm mediaType ssrc frame out = some (e', result)) :
    e'.passthroughMode = e.passthroughMode ∧
      (e.hasKeyRatchet = true → e'.hasKeyRatchet = true) := by
  by_cases hpass : e.passthroughMode = true
  · unfold encrypt at h
    rw [if_pos hpass] at h
    obtain ⟨_, -, h⟩ := Option.bind_eq_some_iff.mp h
    simp only [Option.some.injEq, Prod.mk.injEq] at h
    rw [← h.1]
    exact ⟨rfl, id⟩
  · rcases encrypt_rotate (by simpa using hpass) h with ⟨-, rfl, -⟩ | ⟨ratchet, p, hr, -, hcall⟩
    · exact ⟨rfl, id⟩
    · have hrotate := rotateKey_frame
        { e with frameProcessor := p, truncatedNonce := e.truncatedNonce + 1 } ratchet
        (generationOf (e.truncatedNonce + 1))
      have hkept : ({ e with
          frameProcessor := p
          truncatedNonce := e.truncatedNonce + 1 }.rotateKey ratchet
            (generationOf (e.truncatedNonce + 1))).1.hasKeyRatchet = true := by
        unfold rotateKey hasKeyRatchet
        split
        · dsimp only
          split <;> rfl
        · simp [hr]
      rcases hcall with ⟨-, rfl, -⟩ | ⟨cryptor, -, hframe⟩
      · exact ⟨hrotate.2.2.1, fun _ => hkept⟩
      · obtain ⟨q, rfl⟩ := encryptFrame_frame hframe
        exact ⟨hrotate.2.2.1, fun _ => hkept⟩

/-- Outside the ratchet check, no call fails for want of a ratchet. -/
theorem encrypt_ne_ratchetNotReady {result : Except DaveError (Nat × Bytes)}
    (hready : e.passthroughMode = false → e.hasKeyRatchet = true)
    (h : e.encrypt gcm mediaType ssrc frame out = some (e', result)) :
    result ≠ .error .ratchetNotReady := by
  rintro rfl
  by_cases hpass : e.passthroughMode = true
  · unfold encrypt at h
    rw [if_pos hpass] at h
    obtain ⟨_, -, h⟩ := Option.bind_eq_some_iff.mp h
    simp at h
  · have hpass : e.passthroughMode = false := by simpa using hpass
    rcases encrypt_rotate hpass h with ⟨hnone, -, -⟩ | ⟨ratchet, p, -, -, hcall⟩
    · have hratchet := hready hpass
      simp [hasKeyRatchet, hnone] at hratchet
    · rcases hcall with ⟨-, -, herr⟩ | ⟨cryptor, -, hframe⟩
      · simp at herr
      · exact encryptFrame_ne_ratchetNotReady hframe

/-- A call that finds a ratchet and a key goes on to the AEAD. -/
theorem encrypt_eq_encryptFrame (gcm : AesGcm) (mediaType : MediaType) (out : Bytes)
    {ratchet : KeyRatchet H} {p : OutboundFrameProcessor} {e₂ : Encryptor H}
    {cryptor : AeadCipher} (hpass : e.passthroughMode = false)
    (hratchet : e.ratchet = some ratchet)
    (hp : e.frameProcessor.processFrame frame (e.codecForSsrc ssrc) = some p)
    (hrotate : { e with
        frameProcessor := p
        truncatedNonce := e.truncatedNonce + 1 }.rotateKey ratchet
          (generationOf (e.truncatedNonce + 1)) = (e₂, some cryptor)) :
    e.encrypt gcm mediaType ssrc frame out = e₂.encryptFrame gcm cryptor out := by
  simp only [hratchet, hpass] at hrotate
  simp only [encrypt, hpass, Bool.false_eq_true, if_false, hratchet, hp, Option.bind_eq_bind,
    Option.bind_some, hrotate]

/-- **A successful call.**  Outside passthrough, success means that the frame
was split, sealed under the cached cipher and the advanced nonce, and followed
by its trailer. -/
theorem encrypt_ok (hpass : e.passthroughMode = false)
    (h : e.encrypt gcm mediaType ssrc frame out = some (e', .ok (n, out'))) :
    ∃ p cryptor ciphertext tag bodySize body,
      e.frameProcessor.processFrame frame (e.codecForSsrc ssrc) = some p ∧
      e'.truncatedNonce = e.truncatedNonce + 1 ∧ e'.cryptor = some cryptor ∧
      e'.frameProcessor = { p with ciphertextBytes := ciphertext } ∧
      gcm.gcmEncrypt cryptor.key (nonceBuffer e'.truncatedNonce) p.unencryptedBytes
        p.encryptedBytes = some (ciphertext, tag) ∧
      e'.frameProcessor.reconstructFrame out = some (bodySize, body) ∧ bodySize ≠ 0 ∧
      appendTrailer body bodySize tag e'.truncatedNonce p.unencryptedRanges =
        some (n, out') := by
  rcases encrypt_rotate hpass h with ⟨-, -, herr⟩ | ⟨ratchet, p, -, hp, hcall⟩
  · simp at herr
  rcases hcall with ⟨-, -, herr⟩ | ⟨cryptor, hcryptor, hframe⟩
  · simp at herr
  obtain ⟨ciphertext, tag, bodySize, body, hseal, hle, rfl, hrec, hbody, htrailer⟩ :=
    encryptFrame_ok hframe
  obtain ⟨hnonce, hproc, -, -⟩ :=
    rotateKey_frame { e with frameProcessor := p, truncatedNonce := e.truncatedNonce + 1 }
      ratchet (generationOf (e.truncatedNonce + 1))
  have hcached := rotateKey_cryptor hcryptor
  have hlen := (gcm.gcmEncrypt_length hseal).1
  -- `process_frame` has sized the ciphertext buffer, so the copy fills it.
  have hdrop : p.ciphertextBytes.drop ciphertext.length = [] := by
    apply List.drop_of_length_le
    rw [hlen, hproc, (OutboundFrameProcessor.processFrame_accounted hp).2]
  rw [hproc] at hseal htrailer
  rw [hnonce] at hseal htrailer
  refine ⟨p, cryptor, ciphertext, tag, bodySize, body, hp, hnonce, hcached, ?_, ?_, hrec,
    hbody, ?_⟩
  · simp only [hproc, hdrop, List.append_nil]
  · simpa only [hnonce] using hseal
  · simpa only [hnonce] using htrailer

end Calls

/-! ## The invariant of an encryptor -/

section Invariant

variable [LawfulHashRatchet H]

/-- The cached cipher holds the ratchet's key of its generation, and no
generation has been erased. -/
structure Wf (e : Encryptor H) : Prop where
  cached : ∀ {cryptor}, e.cryptor = some cryptor → ∃ ratchet, e.ratchet = some ratchet ∧
    cryptor.key = KeyRatchet.keyOf H ratchet.base e.currentKeyGeneration
  live : ∀ {ratchet}, e.ratchet = some ratchet → ∀ g, ratchet.Live g

theorem wf_default : (({} : Encryptor H)).Wf :=
  ⟨by simp, by simp⟩

theorem Wf.setPassthroughMode {e : Encryptor H} (h : e.Wf) (mode : Bool) :
    (e.setPassthroughMode mode).Wf := ⟨h.1, h.2⟩

theorem Wf.assignSsrcToCodec {e : Encryptor H} (h : e.Wf) (ssrc : UInt32) (codec : Codec) :
    (e.assignSsrcToCodec ssrc codec).Wf := ⟨h.1, h.2⟩

/-- A ratchet that was just made has every generation. -/
theorem wf_setKeyRatchet (e : Encryptor H) {ratchet : Option (KeyRatchet H)}
    (hlive : ∀ r, ratchet = some r → ∀ g, r.Live g) : (e.setKeyRatchet ratchet).Wf :=
  ⟨by simp [Encryptor.setKeyRatchet], fun {r} hr => hlive r hr⟩

/-- The rotation check keeps the ratchet's base, and yields the key of the
generation it was asked for. -/
theorem Wf.rotateKey {e : Encryptor H} (h : e.Wf) {ratchet : KeyRatchet H}
    (hratchet : e.ratchet = some ratchet) (generation : UInt8) :
    (e.rotateKey ratchet generation).1.Wf ∧
      (∃ ratchet', (e.rotateKey ratchet generation).1.ratchet = some ratchet' ∧
        ratchet'.base = ratchet.base) ∧
      ∀ cryptor, (e.rotateKey ratchet generation).2 = some cryptor →
        cryptor.key = KeyRatchet.keyOf H ratchet.base generation := by
  have hlive := h.live hratchet
  unfold Encryptor.rotateKey
  split
  · next hfetch =>
      have hkey := KeyRatchet.getKey_of_live (hlive generation)
      dsimp only
      split
      · next hempty =>
          refine ⟨⟨?_, ?_⟩, ⟨_, rfl, by simp⟩, by simp⟩
          · intro cryptor hc
            obtain ⟨r, hr, hk⟩ := h.cached hc
            obtain rfl := Option.some.inj (hratchet.symm.trans hr)
            exact ⟨_, rfl, by simpa using hk⟩
          · rintro r ⟨⟩ g
            exact (KeyRatchet.live_getKey _ _ _).mpr (hlive g)
      · refine ⟨⟨?_, ?_⟩, ⟨_, rfl, by simp⟩, ?_⟩
        · rintro cryptor ⟨⟩
          exact ⟨_, rfl, by simp [hkey]⟩
        · rintro r ⟨⟩ g
          exact (KeyRatchet.live_getKey _ _ _).mpr (hlive g)
        · rintro cryptor ⟨⟩
          exact hkey
  · next hkeep =>
      simp only [not_or, not_not] at hkeep
      refine ⟨h, ⟨ratchet, hratchet, rfl⟩, ?_⟩
      intro cryptor hc
      obtain ⟨r, hr, hk⟩ := h.cached hc
      obtain rfl := Option.some.inj (hratchet.symm.trans hr)
      rw [hk, hkeep.2]

/-- Where the ratchet has a key for the generation, the rotation check finds a
cipher with it. -/
theorem Wf.rotateKey_eq_some {e : Encryptor H} (h : e.Wf) {ratchet : KeyRatchet H}
    (hratchet : e.ratchet = some ratchet) {generation : UInt8}
    (hkey : KeyRatchet.keyOf H ratchet.base generation ≠ []) :
    (e.rotateKey ratchet generation).2 =
      some ⟨KeyRatchet.keyOf H ratchet.base generation⟩ := by
  have hlive := h.live hratchet generation
  unfold Encryptor.rotateKey
  split
  · dsimp only
    rw [if_neg (by rw [KeyRatchet.getKey_of_live hlive]; exact hkey),
      KeyRatchet.getKey_of_live hlive]
  · next hkeep =>
      simp only [not_or, not_not] at hkeep
      obtain ⟨cryptor, hcryptor⟩ := Option.ne_none_iff_exists'.mp hkeep.1
      obtain ⟨r, hr, hk⟩ := h.cached hcryptor
      obtain rfl := Option.some.inj (hratchet.symm.trans hr)
      rw [hcryptor, hkeep.2, ← hk]

/-- **The invariant of `encrypt`.**  A call keeps the encryptor well formed and
the base of its ratchet; a call that got past the ratchet check has advanced
the nonce, and a cached cipher it leaves is that of the advanced nonce if the
call was successful. -/
theorem Wf.encrypt {e e' : Encryptor H} (h : e.Wf) {gcm : AesGcm} {mediaType : MediaType}
    {ssrc : UInt32} {frame out : Bytes} {result : Except DaveError (Nat × Bytes)}
    (hcall : e.encrypt gcm mediaType ssrc frame out = some (e', result)) :
    e'.Wf ∧ e'.passthroughMode = e.passthroughMode ∧
      e'.ratchet.map KeyRatchet.base = e.ratchet.map KeyRatchet.base ∧
      (e.passthroughMode = true ∧ e' = e ∨
        e.ratchet = none ∧ e' = e ∧ result = .error .ratchetNotReady ∨
        e'.truncatedNonce = e.truncatedNonce + 1 ∧
          ((∃ n out', result = .ok (n, out')) → ∃ cryptor ratchet,
            e'.cryptor = some cryptor ∧ e.ratchet = some ratchet ∧
            cryptor.key =
              KeyRatchet.keyOf H ratchet.base (generationOf (e.truncatedNonce + 1)))) := by
  by_cases hpass : e.passthroughMode = true
  · unfold Encryptor.encrypt at hcall
    rw [if_pos hpass] at hcall
    obtain ⟨_, -, hcall⟩ := Option.bind_eq_some_iff.mp hcall
    simp only [Option.some.injEq, Prod.mk.injEq] at hcall
    obtain ⟨rfl, -⟩ := hcall
    exact ⟨h, rfl, rfl, .inl ⟨hpass, rfl⟩⟩
  have hpass : e.passthroughMode = false := by simpa using hpass
  rcases encrypt_rotate hpass hcall with
    ⟨hnone, rfl, rfl⟩ | ⟨ratchet, p, hratchet, -, hcase⟩
  · exact ⟨h, rfl, rfl, .inr (.inl ⟨hnone, rfl, rfl⟩)⟩
  set e₁ := { e with frameProcessor := p, truncatedNonce := e.truncatedNonce + 1 } with he₁
  have hwf₁ : e₁.Wf := ⟨h.1, h.2⟩
  obtain ⟨hwf₂, ⟨ratchet', hr', hbase⟩, hkey⟩ :=
    hwf₁.rotateKey hratchet (generationOf e₁.truncatedNonce)
  obtain ⟨hnonce, -, hmode, -⟩ := rotateKey_frame e₁ ratchet
    (generationOf e₁.truncatedNonce)
  rcases hcase with ⟨-, rfl, rfl⟩ | ⟨cryptor, hcryptor, hframe⟩
  · exact ⟨hwf₂, hmode, by simp [hr', hratchet, hbase],
      .inr (.inr ⟨hnonce, by simp⟩)⟩
  · obtain ⟨q, rfl⟩ := encryptFrame_frame hframe
    refine ⟨⟨hwf₂.1, hwf₂.2⟩, hmode, by simp [hr', hratchet, hbase],
      .inr (.inr ⟨hnonce, fun _ => ⟨cryptor, ratchet, ?_, hratchet, hkey _ hcryptor⟩⟩)⟩
    exact rotateKey_cryptor hcryptor

omit [LawfulHashRatchet H] in
/-- A call assigns no codec. -/
theorem ssrcCodecMap_encrypt {e e' : Encryptor H} {gcm : AesGcm} {mediaType : MediaType}
    {ssrc : UInt32} {frame out : Bytes} {result : Except DaveError (Nat × Bytes)}
    (hcall : e.encrypt gcm mediaType ssrc frame out = some (e', result)) :
    e'.ssrcCodecMap = e.ssrcCodecMap := by
  by_cases hpass : e.passthroughMode = true
  · unfold Encryptor.encrypt at hcall
    rw [if_pos hpass] at hcall
    obtain ⟨_, -, hcall⟩ := Option.bind_eq_some_iff.mp hcall
    simp only [Option.some.injEq, Prod.mk.injEq] at hcall
    obtain ⟨rfl, -⟩ := hcall
    rfl
  · have hpass : e.passthroughMode = false := by simpa using hpass
    rcases encrypt_rotate hpass hcall with
      ⟨-, rfl, -⟩ | ⟨ratchet, p, -, -, ⟨-, rfl, -⟩ | ⟨cryptor, -, hframe⟩⟩
    · rfl
    · exact (rotateKey_frame _ ratchet _).2.2.2
    · obtain ⟨q, rfl⟩ := encryptFrame_frame hframe
      exact (rotateKey_frame _ ratchet _).2.2.2

/-- The states of an encryptor: it starts empty and is given ratchets that were
just made. -/
inductive Reachable (gcm : AesGcm) : Encryptor H → Prop
  | start : Reachable gcm {}
  | setKeyRatchet {e : Encryptor H} {ratchet : Option (KeyRatchet H)} :
      Reachable gcm e → (∀ r, ratchet = some r → r.Fresh) →
      Reachable gcm (e.setKeyRatchet ratchet)
  | setPassthroughMode {e : Encryptor H} (mode : Bool) :
      Reachable gcm e → Reachable gcm (e.setPassthroughMode mode)
  | assignSsrcToCodec {e : Encryptor H} (ssrc : UInt32) (codec : Codec) :
      Reachable gcm e → Reachable gcm (e.assignSsrcToCodec ssrc codec)
  | encrypt {e e' : Encryptor H} {mediaType : MediaType} {ssrc : UInt32} {frame out : Bytes}
      {result : Except DaveError (Nat × Bytes)} :
      Reachable gcm e → e.encrypt gcm mediaType ssrc frame out = some (e', result) →
      Reachable gcm e'

theorem Reachable.wf {gcm : AesGcm} {e : Encryptor H} (h : Reachable gcm e) : e.Wf := by
  induction h with
  | start => exact wf_default
  | setKeyRatchet _ hfresh _ =>
      exact wf_setKeyRatchet _ fun r hr g => (hfresh r hr).live g
  | setPassthroughMode mode _ ih => exact ih.setPassthroughMode mode
  | assignSsrcToCodec ssrc codec _ ih => exact ih.assignSsrcToCodec ssrc codec
  | encrypt _ hcall ih => exact (ih.encrypt hcall).1

end Invariant

end Encryptor

end Ekizu.Dave
