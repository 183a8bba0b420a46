import Ekizu.Dave.StartCodes

/-!
# The size of the output buffer

`get_max_ciphertext_byte_size` allows 75 bytes on top of the frame, 11 of them for the
fixed part of the trailer.  What `encrypt` writes depends on the frame: every short start
code grows by a byte, and every run of clear bytes costs a range in the trailer.  The
serialiser of the ranges stops where the buffer ends, the size byte and the marker behind
it do not.

## Main results

* `staysInside_iff_of_answered` — one call, with a buffer of any size.
* `encrypt_staysInside_iff` — the frames for which the bound is sufficient.
-/

namespace Ekizu.Dave

open Lib.Span
open Lib.Segments

namespace Encryptor

variable {H : Type} [HashRatchet H]

/-- The call reports an error that another buffer would have spared it. -/
def FailsForRoom (gcm : AesGcm) (e : Encryptor H) (mediaType : MediaType) (ssrc : UInt32)
    (frame out : Bytes) : Prop :=
  (∃ e' err, e.encrypt gcm mediaType ssrc frame out = some (e', .error err)) ∧
    ∃ larger e' sent, e.encrypt gcm mediaType ssrc frame larger = some (e', .ok sent)

/-- The call makes no access outside of its buffers, and does not fail for lack of space. -/
structure StaysInside (gcm : AesGcm) (e : Encryptor H) (mediaType : MediaType) (ssrc : UInt32)
    (frame out : Bytes) : Prop where
  inRange : (e.encrypt gcm mediaType ssrc frame out).isSome = true
  hasRoom : ¬ FailsForRoom gcm e mediaType ssrc frame out

variable {gcm : AesGcm} {e : Encryptor H} {mediaType : MediaType} {ssrc : UInt32}
  {frame out : Bytes} {p : OutboundFrameProcessor}

/-- A call that fails with every buffer stays inside each of them. -/
theorem staysInside_of_fails {err : DaveError}
    (h : ∀ out, ∃ e', e.encrypt gcm mediaType ssrc frame out = some (e', .error err)) :
    StaysInside gcm e mediaType ssrc frame out := by
  constructor
  · obtain ⟨e', hcall⟩ := h out
    rw [hcall]
    rfl
  · rintro ⟨-, larger, e', sent, hcall⟩
    obtain ⟨e'', hfails⟩ := h larger
    rw [hfails] at hcall
    cases hcall

/-- A call that succeeds stays inside its buffer. -/
theorem staysInside_of_ok {e' : Encryptor H} {sent : Nat × Bytes}
    (h : e.encrypt gcm mediaType ssrc frame out = some (e', .ok sent)) :
    StaysInside gcm e mediaType ssrc frame out := by
  constructor
  · rw [h]
    rfl
  · rintro ⟨⟨e'', err, hcall⟩, -⟩
    rw [h] at hcall
    cases hcall

/-- Without a key for the generation, a call fails whatever its buffer. -/
theorem encrypt_unsealed (hpass : e.passthroughMode = false) (hratchet : e.hasKeyRatchet = true)
    (hframe : (e.frameProcessor.processFrame frame (e.codecForSsrc ssrc)).isSome = true)
    (h : e.sealedFrame ssrc frame = none) :
    ∃ e', e.encrypt gcm mediaType ssrc frame out = some (e', .error .invalidGeneration) := by
  obtain ⟨ratchet, hratchet⟩ := Option.isSome_iff_exists.mp hratchet
  obtain ⟨p, hp⟩ := Option.isSome_iff_exists.mp hframe
  have hkey : ({ e with
      frameProcessor := p
      truncatedNonce := e.truncatedNonce + 1 }.rotateKey ratchet
        (generationOf (e.truncatedNonce + 1))).2 = none := by
    unfold sealedFrame at h
    rw [if_neg (by simp [hpass]), hratchet, hp] at h
    dsimp only at h
    split at h
    · cases h
    · next hnone => simpa [hratchet] using hnone
  generalize hrotate : { e with
      frameProcessor := p
      truncatedNonce := e.truncatedNonce + 1 }.rotateKey ratchet
        (generationOf (e.truncatedNonce + 1)) = rotated at hkey
  obtain ⟨e₂, cryptor⟩ := rotated
  obtain rfl : cryptor = none := hkey
  refine ⟨e₂, ?_⟩
  simp only [hratchet, hpass] at hrotate
  simp only [encrypt, hpass, Bool.false_eq_true, if_false, hratchet, hp, Option.bind_eq_bind,
    Option.bind_some, hrotate]

omit [HashRatchet H] in
/-- A cipher that fails fails the call, whatever its buffer. -/
theorem encryptFrame_unanswered (e : Encryptor H) (cryptor : AeadCipher) (out : Bytes)
    (h : gcm.gcmEncrypt cryptor.key (nonceBuffer e.truncatedNonce)
      e.frameProcessor.unencryptedBytes e.frameProcessor.encryptedBytes = none) :
    ∃ e', e.encryptFrame gcm cryptor out = some (e', .error .encryptionFailed) :=
  ⟨e, by simp only [encryptFrame, AeadCipher.encrypt, h, Option.map_none]⟩

omit [HashRatchet H] in
/-- A frame without a body fails, whatever the buffer. -/
theorem encryptFrame_empty (e : Encryptor H) (cryptor : AeadCipher) (out : Bytes)
    (hacc : e.frameProcessor.Accounted)
    (hsize : e.frameProcessor.ciphertextBytes.length = e.frameProcessor.encryptedBytes.length)
    (hempty : e.frameProcessor.bodySize = 0) :
    ∃ e', e.encryptFrame gcm cryptor out = some (e', .error .encryptionFailed) := by
  cases hseal : gcm.gcmEncrypt cryptor.key (nonceBuffer e.truncatedNonce)
      e.frameProcessor.unencryptedBytes e.frameProcessor.encryptedBytes with
  | none => exact encryptFrame_unanswered e cryptor out hseal
  | some sealed =>
      obtain ⟨ciphertext, tag⟩ := sealed
      have hct := (gcm.gcmEncrypt_length hseal).1
      have hbody : e.frameProcessor.unencryptedBytes.length + ciphertext.length = 0 := by
        rw [hct]
        exact hempty
      have hacc' : (e.sealedWith ciphertext).frameProcessor.Accounted :=
        ⟨hacc.1, hacc.2, hacc.3, hacc.4⟩
      obtain ⟨body, hrec, -⟩ := OutboundFrameProcessor.reconstructFrame_eq hacc' hct
        (show e.frameProcessor.unencryptedBytes.length + ciphertext.length ≤ out.length by omega)
      refine ⟨e.sealedWith ciphertext, ?_⟩
      rw [encryptFrame_sealed gcm e cryptor out hsize hseal, hrec]
      exact if_pos hbody

omit [HashRatchet H] in
/-- A call without room for the body fails. -/
theorem encryptFrame_small (e : Encryptor H) (cryptor : AeadCipher) (out : Bytes)
    {ciphertext tag : Bytes}
    (hsize : e.frameProcessor.ciphertextBytes.length = e.frameProcessor.encryptedBytes.length)
    (hseal : gcm.gcmEncrypt cryptor.key (nonceBuffer e.truncatedNonce)
      e.frameProcessor.unencryptedBytes e.frameProcessor.encryptedBytes = some (ciphertext, tag))
    (hsmall : out.length < e.frameProcessor.bodySize) :
    ∃ e', e.encryptFrame gcm cryptor out = some (e', .error .encryptionFailed) := by
  have hct := (gcm.gcmEncrypt_length hseal).1
  have hrec : (e.sealedWith ciphertext).frameProcessor.reconstructFrame out = some (0, out) := by
    have hbody : out.length < e.frameProcessor.unencryptedBytes.length + ciphertext.length := by
      rw [hct]
      exact hsmall
    exact if_pos hbody
  refine ⟨e.sealedWith ciphertext, ?_⟩
  rw [encryptFrame_sealed gcm e cryptor out hsize hseal, hrec]
  rfl

/-- **One call.**  A call whose cipher answers stays inside its buffer exactly when the
trailer, as far as it is kept, ends there. -/
theorem staysInside_iff_of_answered {e₂ : Encryptor H} {cryptor : AeadCipher}
    {ciphertext tag : Bytes}
    (hcalls : ∀ out, e.encrypt gcm mediaType ssrc frame out = e₂.encryptFrame gcm cryptor out)
    (hacc : e₂.frameProcessor.Accounted)
    (hsize : e₂.frameProcessor.ciphertextBytes.length = e₂.frameProcessor.encryptedBytes.length)
    (hne : 0 < e₂.frameProcessor.bodySize)
    (hseal : gcm.gcmEncrypt cryptor.key (nonceBuffer e₂.truncatedNonce)
      e₂.frameProcessor.unencryptedBytes e₂.frameProcessor.encryptedBytes =
        some (ciphertext, tag)) :
    StaysInside gcm e mediaType ssrc frame out ↔
      trailerEnd e₂.frameProcessor.bodySize e₂.truncatedNonce e₂.frameProcessor.unencryptedRanges
        out.length ≤ out.length := by
  have htag := (gcm.gcmEncrypt_length hseal).2
  constructor
  · intro h
    by_cases hroom : out.length < e₂.frameProcessor.bodySize
    · -- the body does not fit, and a buffer for everything would have done
      exfalso
      apply h.hasRoom
      let room := e₂.frameProcessor.bodySize + (supplementalBytes +
        leb128Size e₂.truncatedNonce.toNat +
          rangesEncodedSize e₂.frameProcessor.unencryptedRanges)
      obtain ⟨e', hfails⟩ := encryptFrame_small e₂ cryptor out hsize hseal hroom
      obtain ⟨e'', n, out', hcall⟩ := encryptFrame_isOk gcm e₂ cryptor hacc hsize hne hseal
        (show _ ≤ (List.replicate room (0 : UInt8)).length by
          rw [List.length_replicate]
          exact Nat.le_refl room)
      rw [← hcalls] at hfails hcall
      exact ⟨⟨e', _, hfails⟩, _, e'', _, hcall⟩
    · obtain ⟨body, hbody, heq⟩ := encryptFrame_eq gcm e₂ cryptor out hacc hsize hne hseal
        (Nat.le_of_not_lt hroom)
      have hsome := h.inRange
      rw [hcalls, heq, Option.isSome_map] at hsome
      obtain ⟨⟨n, out'⟩, htrailer⟩ := Option.isSome_iff_exists.mp hsome
      obtain ⟨-, hn, hle, -⟩ := appendTrailer_ok htag htrailer
      rw [← hbody]
      exact Nat.le_trans (Nat.le_of_eq hn.symm) hle
  · intro h
    obtain ⟨body, hbody, heq⟩ := encryptFrame_eq gcm e₂ cryptor out hacc hsize hne hseal
      (Nat.le_trans (Nat.le_add_right _ _) h)
    obtain ⟨n, out', htrailer⟩ := appendTrailer_of_le htag (by rw [hbody]; exact h)
    have hcall : _ = some (e₂.sealedWith ciphertext, _) :=
      ((hcalls out).trans heq).trans (congrArg (Option.map _) htrailer)
    exact staysInside_of_ok hcall

/-- **The bound of the output buffer.**  Outside passthrough, with a ratchet and a frame that
is split within its bounds, every call with a buffer of `get_max_ciphertext_byte_size` stays
inside it exactly when the frame as it is split, with its trailer as far as it is kept, is at
most 75 bytes longer than the frame. -/
theorem encrypt_staysInside_iff (e : Encryptor H) (ssrc : UInt32) (frame : Bytes)
    (hpass : e.passthroughMode = false) (hratchet : e.hasKeyRatchet = true)
    (hframe : (e.frameProcessor.processFrame frame (e.codecForSsrc ssrc)).isSome = true) :
    (∀ (gcm : AesGcm) (mediaType : MediaType) (out : Bytes),
        out.length = getMaxCiphertextByteSize mediaType frame.length →
          StaysInside gcm e mediaType ssrc frame out) ↔
      ∀ p ∈ e.sealedFrame ssrc frame, 0 < p.bodySize →
        trailerEnd p.bodySize (e.truncatedNonce + 1) p.unencryptedRanges
            (frame.length + supplementalBytes + transformPaddingBytes) ≤
          frame.length + supplementalBytes + transformPaddingBytes := by
  generalize hbound : frame.length + supplementalBytes + transformPaddingBytes = bound
  have hmax (mediaType : MediaType) : getMaxCiphertextByteSize mediaType frame.length = bound :=
    hbound
  simp only [hmax]
  constructor
  · intro hall p hsealed hne
    obtain ⟨e₂, cryptor, rfl, hnonce, hacc, hsize, hcalls⟩ := encrypt_sealed hsealed
    have hlength : (List.replicate bound (0 : UInt8)).length = bound := List.length_replicate
    have hcall := hall (AesGcm.swapping e₂.frameProcessor.encryptedBytes
      e₂.frameProcessor.encryptedBytes rfl) .video _ hlength
    rw [staysInside_iff_of_answered (hcalls _ _) hacc hsize hne
      (gcmEncrypt_swapping rfl _ _ _), hlength, hnonce] at hcall
    exact hcall
  · intro hfits gcm mediaType out hout
    cases hsealed : e.sealedFrame ssrc frame with
    | none => exact staysInside_of_fails fun out => encrypt_unsealed hpass hratchet hframe hsealed
    | some p =>
        obtain ⟨e₂, cryptor, rfl, hnonce, hacc, hsize, hcalls⟩ := encrypt_sealed hsealed
        by_cases hne : 0 < e₂.frameProcessor.bodySize
        · cases hseal : gcm.gcmEncrypt cryptor.key (nonceBuffer e₂.truncatedNonce)
              e₂.frameProcessor.unencryptedBytes e₂.frameProcessor.encryptedBytes with
          | none =>
              apply staysInside_of_fails
              intro out
              rw [hcalls]
              exact encryptFrame_unanswered e₂ cryptor out hseal
          | some sealed =>
              rw [staysInside_iff_of_answered (hcalls _ _) hacc hsize hne hseal, hout, hnonce]
              exact hfits _ hsealed hne
        · apply staysInside_of_fails
          intro out
          rw [hcalls]
          exact encryptFrame_empty e₂ cryptor out hacc hsize (by omega)

/-- The audio frame of the reference call stays inside its 79 bytes. -/
theorem encrypt_staysInside_audioFrame :
    StaysInside referenceGcm referenceEncryptor .audio 1 audioFrame (List.replicate 79 0) := by
  have hsplit : (referenceEncryptor.sealedFrame 1 audioFrame).map (fun p =>
      (p.bodySize, p.unencryptedRanges)) = some (4, []) := by
    decide +kernel
  apply (encrypt_staysInside_iff referenceEncryptor 1 audioFrame rfl rfl (by decide +kernel)).mpr
  · intro p hp hne
    rw [Option.mem_def.mp hp] at hsplit
    obtain ⟨hbody, hranges⟩ := Prod.mk.inj (Option.some.inj hsplit)
    rw [hbody, hranges]
    decide +kernel
  · decide

/-- Sixty-one parameter sets behind short start codes. -/
def parameterSets : Bytes := (List.replicate 61 [0, 0, 1, 0x67]).flatten ++ [0x42]

/-- Each start code grows by a byte, and the marker is written past the end. -/
theorem encrypt_leaves_parameterSets :
    ¬ ∀ (gcm : AesGcm) (e : Encryptor Chain) (mediaType : MediaType) (ssrc : UInt32)
        (frame out : Bytes), e.passthroughMode = false → e.hasKeyRatchet = true →
        (e.frameProcessor.processFrame frame (e.codecForSsrc ssrc)).isSome = true →
          out.length = getMaxCiphertextByteSize mediaType frame.length →
            StaysInside gcm e mediaType ssrc frame out := by
  intro h
  have hcall := h referenceGcm referenceEncryptor .video 2 parameterSets (List.replicate 320 0)
    rfl rfl (by decide +kernel) (by decide +kernel)
  have hleaves : (referenceEncryptor.encrypt referenceGcm .video 2 parameterSets
      (List.replicate 320 0)).isSome = false := by
    decide +kernel
  rw [hcall.inRange] at hleaves
  cases hleaves

end Encryptor

end Ekizu.Dave
