import Ekizu.Dave.NaluSearch
import Ekizu.Dave.Trailer

/-!
# Start codes in encrypted video

The packetizer of H264 and H265 takes `00 00 01` for the start of a NAL unit, and
`validate_encrypted_frame` looks for one that touches an encrypted section.  No code
calls it: `encrypt` hands out whatever the cipher makes of a frame.

A start code can come up wherever three bytes in a row, one of them encrypted, have no
clear byte among them that stands in its way.

## Main results

* `noStartCode_iff` — the calls whose output is free of start codes whatever the
  ciphertext.
* `startCode_slice` — a slice of three bytes is encrypted to a start code.
-/

namespace Ekizu.Dave

open Lib.Span
open Lib.Segments

namespace OutboundFrameProcessor

/-- How many bytes `reconstruct_frame` writes. -/
def bodySize (p : OutboundFrameProcessor) : Nat :=
  p.unencryptedBytes.length + p.encryptedBytes.length

/-- The body as `reconstruct_frame` puts it together, with these bytes in the encrypted
sections. -/
def bodyWith (p : OutboundFrameProcessor) (sections : Bytes) : Bytes :=
  weave 0 p.unencryptedRanges p.unencryptedBytes sections

/-- No start code in the body touches an encrypted byte. -/
def NoStartCode (p : OutboundFrameProcessor) (body : Bytes) : Prop :=
  ∀ i j, (body.drop i).take 3 = naluShortStartCode → i ≤ j → j < i + 3 →
    Covered p.unencryptedRanges j

/-- Three bytes in a row, one of them encrypted, have a clear byte among them that is not
the one of a start code at its place. -/
def Guarded (p : OutboundFrameProcessor) : Prop :=
  ∀ i j, i + 3 ≤ p.bodySize → i ≤ j → j < i + 3 → ¬ Covered p.unencryptedRanges j →
    ∃ k < 3, Covered p.unencryptedRanges (i + k) ∧
      (p.bodyWith p.encryptedBytes)[i + k]? ≠ naluShortStartCode[k]?

variable {p : OutboundFrameProcessor}

theorem Accounted.length_bodyWith (h : p.Accounted) {sections : Bytes}
    (hlength : sections.length = p.encryptedBytes.length) :
    (p.bodyWith sections).length = p.bodySize := by
  rw [bodyWith, weave_length h.sizes_eq.symm (by rw [hlength]; exact h.gaps_le), hlength, bodySize]

/-- The encrypted bytes of a body are free. -/
theorem Accounted.bodyWith_covered (h : p.Accounted) {sections : Bytes}
    (hlength : sections.length = p.encryptedBytes.length) {j : Nat}
    (hj : Covered p.unencryptedRanges j) :
    (p.bodyWith sections)[j]? = (p.bodyWith p.encryptedBytes)[j]? :=
  weave_covered h.ordered h.sizes_eq.symm (by rw [hlength]; exact h.gaps_le) h.gaps_le hj

/-- A body that agrees with the frame on its clear bytes comes from a ciphertext. -/
theorem Accounted.exists_bodyWith (h : p.Accounted) {body : Bytes}
    (hlength : body.length = p.bodySize) (hclear : ∀ j, Covered p.unencryptedRanges j →
      body[j]? = (p.bodyWith p.encryptedBytes)[j]?) :
    ∃ sections : Bytes, sections.length = p.encryptedBytes.length ∧
      p.bodyWith sections = body := by
  have hframe := h.length_bodyWith rfl
  have hend : endPos 0 p.unencryptedRanges ≤ p.bodySize := by
    rw [bodySize, ← h.total]
    exact h.endPos_le
  have hinside : inside body p.unencryptedRanges = p.unencryptedBytes := by
    rw [(inside_eq_iff h.ordered (by omega) (by omega)).mpr hclear]
    exact inside_weave_self h.ordered h.sizes_eq.symm h.gaps_le
  obtain ⟨sections, hsections, hwoven⟩ := exists_weave h.ordered (by omega) hinside
  refine ⟨sections, ?_, hwoven⟩
  rw [hlength, bodySize] at hsections
  omega

/-- A guarded frame has no start code whatever it is encrypted to. -/
theorem Guarded.noStartCode (hguarded : p.Guarded) (h : p.Accounted) {sections : Bytes}
    (hlength : sections.length = p.encryptedBytes.length) :
    p.NoStartCode (p.bodyWith sections) := by
  intro i j hcode hlow hhigh
  by_contra hsecret
  have hsize := congrArg List.length hcode
  rw [List.length_take, List.length_drop, h.length_bodyWith hlength] at hsize
  have hsize : min 3 (p.bodySize - i) = 3 := hsize
  obtain ⟨k, hk, hcovered, hother⟩ := hguarded i j (by omega) hlow hhigh hsecret
  apply hother
  rw [← h.bodyWith_covered hlength hcovered, ← hcode, List.getElem?_take, if_pos hk,
    List.getElem?_drop]

/-- Three bytes in a sequence are replaced by a start code. -/
def putStartCode (body : Bytes) (i : Nat) : Bytes :=
  body.take i ++ (naluShortStartCode ++ body.drop (i + 3))

theorem length_putStartCode {body : Bytes} {i : Nat} (h : i + 3 ≤ body.length) :
    (putStartCode body i).length = body.length := by
  rw [putStartCode, List.length_append, List.length_append, List.length_take, List.length_drop,
    show naluShortStartCode.length = 3 from rfl]
  omega

theorem drop_putStartCode {body : Bytes} {i : Nat} (h : i + 3 ≤ body.length) :
    ((putStartCode body i).drop i).take 3 = naluShortStartCode := by
  rw [putStartCode, List.drop_left' (List.length_take_of_le (by omega))]
  rfl

theorem getElem?_putStartCode {body : Bytes} {i j : Nat} (h : i + 3 ≤ body.length)
    (hwindow : ∀ k < 3, j = i + k → body[j]? = naluShortStartCode[k]?) :
    (putStartCode body i)[j]? = body[j]? := by
  have hprefix : (body.take i).length = i := List.length_take_of_le (by omega)
  unfold putStartCode
  by_cases hbefore : j < i
  · rw [List.getElem?_append_left (by omega), List.getElem?_take, if_pos hbefore]
  · rw [List.getElem?_append_right (by omega), hprefix]
    by_cases hinside : j < i + 3
    · rw [List.getElem?_append_left (show j - i < naluShortStartCode.length by
        show j - i < 3
        omega), hwindow (j - i) (by omega) (by omega)]
    · rw [List.getElem?_append_right (show naluShortStartCode.length ≤ j - i by
        show 3 ≤ j - i
        omega), List.getElem?_drop]
      congr 1
      show i + 3 + (j - i - 3) = j
      omega

/-- A frame that no cipher turns into a start code is guarded. -/
theorem Accounted.guarded (h : p.Accounted) (hnone : ∀ sections : Bytes,
    sections.length = p.encryptedBytes.length → p.NoStartCode (p.bodyWith sections)) :
    p.Guarded := by
  intro i j hsize hlow hhigh hsecret
  by_contra hfree
  have hroom : i + 3 ≤ (p.bodyWith p.encryptedBytes).length := by
    rw [h.length_bodyWith rfl]
    exact hsize
  -- the clear bytes allow a start code here: the body with one is that of some ciphertext
  obtain ⟨sections, hlength, hbody⟩ := h.exists_bodyWith
    ((length_putStartCode hroom).trans (h.length_bodyWith rfl)) (by
      intro k hk
      apply getElem?_putStartCode hroom
      rintro m hm rfl
      by_contra hother
      exact hfree ⟨m, hm, hk, hother⟩)
  apply hsecret
  apply hnone sections hlength i j _ hlow hhigh
  rw [hbody]
  exact drop_putStartCode hroom

end OutboundFrameProcessor

/-- A cipher that turns one plaintext into this ciphertext, and back. -/
def AesGcm.swapping (plaintext ciphertext : Bytes) (h : ciphertext.length = plaintext.length) :
    AesGcm where
  gcmEncrypt _ _ _ bytes :=
    some (if bytes = plaintext then ciphertext else if bytes = ciphertext then plaintext else bytes,
      zeroTag)
  gcmDecrypt _ _ _ bytes _ :=
    some (if bytes = plaintext then ciphertext else if bytes = ciphertext then plaintext else bytes)
  gcmEncrypt_length := by
    intro key nonce additionalData bytes ct tag hsome
    obtain ⟨rfl, rfl⟩ := Prod.mk.inj (Option.some.inj hsome)
    refine ⟨?_, rfl⟩
    grind
  gcmDecrypt_length := by
    intro key nonce additionalData bytes tag plain hsome
    obtain rfl := Option.some.inj hsome
    grind

theorem AesGcm.swapping_correct {plaintext ciphertext : Bytes}
    (h : ciphertext.length = plaintext.length) :
    (AesGcm.swapping plaintext ciphertext h).Correct := by
  intro key nonce additionalData bytes
  refine ⟨_, _, rfl, ?_⟩
  simp only [AesGcm.swapping]
  grind

namespace Encryptor

variable {H : Type} [HashRatchet H]

/-- The frame as it is split, where a call gets as far as encrypting it: outside
passthrough, with a ratchet that has a key for the next nonce. -/
def sealedFrame (e : Encryptor H) (ssrc : UInt32) (frame : Bytes) :
    Option OutboundFrameProcessor :=
  if e.passthroughMode then none
  else
    match e.ratchet, e.frameProcessor.processFrame frame (e.codecForSsrc ssrc) with
    | some ratchet, some p =>
        let e := { e with frameProcessor := p, truncatedNonce := e.truncatedNonce + 1 }
        if (e.rotateKey ratchet (generationOf e.truncatedNonce)).2.isSome then some p else none
    | _, _ => none

variable {e e' : Encryptor H} {ssrc : UInt32} {frame : Bytes} {p : OutboundFrameProcessor}

/-- What a successful call outside passthrough writes in front of its trailer. -/
theorem encrypt_body {gcm : AesGcm} {mediaType : MediaType} {out out' : Bytes} {n : Nat}
    (hpass : e.passthroughMode = false)
    (h : e.encrypt gcm mediaType ssrc frame out = some (e', .ok (n, out'))) :
    ∃ p key nonce ciphertext tag, e.sealedFrame ssrc frame = some p ∧ p.Accounted ∧
      e'.frameProcessor = { p with ciphertextBytes := ciphertext } ∧
      gcm.gcmEncrypt key nonce p.unencryptedBytes p.encryptedBytes = some (ciphertext, tag) ∧
      out'.take p.bodySize = p.bodyWith ciphertext := by
  rcases encrypt_rotate hpass h with ⟨-, -, herror⟩ | ⟨ratchet, p, hratchet, hp, hcase⟩
  · cases herror
  · rcases hcase with ⟨-, -, herror⟩ | ⟨cryptor, hcryptor, -⟩
    · cases herror
    · obtain ⟨cryptor', ciphertext, tag, -, hproc, -, hseal, -, hn, -, -, htake⟩ :=
        encrypt_sent hpass hp h
      obtain ⟨hacc, -⟩ := OutboundFrameProcessor.processFrame_accounted hp
      have hct := (gcm.gcmEncrypt_length hseal).1
      have hsealed : e.sealedFrame ssrc frame = some p := by
        unfold sealedFrame
        rw [if_neg (by simp [hpass]), hratchet, hp]
        simp only [hratchet] at hcryptor
        simp only [hcryptor, Option.isSome_some, if_true]
      refine ⟨p, _, _, ciphertext, tag, hsealed, hacc, hproc, hseal, ?_⟩
      have hbody := congrArg (List.take p.bodySize) htake
      have hle : p.bodySize ≤ n := by
        rw [hn]
        exact Nat.le_add_right _ _
      rw [List.take_take, Nat.min_eq_left hle] at hbody
      rw [hbody]
      exact List.take_left' (hacc.length_bodyWith hct)

theorem sealedFrame_eq_some (h : e.sealedFrame ssrc frame = some p) :
    e.passthroughMode = false ∧ ∃ ratchet cryptor, e.ratchet = some ratchet ∧
      e.frameProcessor.processFrame frame (e.codecForSsrc ssrc) = some p ∧
      ({ e with
        frameProcessor := p
        truncatedNonce := e.truncatedNonce + 1 }.rotateKey ratchet
          (generationOf (e.truncatedNonce + 1))).2 = some cryptor := by
  unfold sealedFrame at h
  split at h
  · cases h
  · next hpass =>
      split at h
      · next ratchet q hratchet hq =>
          dsimp only at h
          split at h
          · next hkey =>
              obtain rfl := Option.some.inj h
              obtain ⟨cryptor, hcryptor⟩ := Option.isSome_iff_exists.mp hkey
              exact ⟨by simpa using hpass, ratchet, cryptor, hratchet, hq, hcryptor⟩
          · cases h
      · cases h

/-- A call that gets as far as encrypting goes on from the frame as it is split. -/
theorem encrypt_sealed (hsealed : e.sealedFrame ssrc frame = some p) :
    ∃ e₂ : Encryptor H, ∃ cryptor, e₂.frameProcessor = p ∧
      e₂.truncatedNonce = e.truncatedNonce + 1 ∧ p.Accounted ∧
      p.ciphertextBytes.length = p.encryptedBytes.length ∧
      ∀ (gcm : AesGcm) (mediaType : MediaType) (out : Bytes),
        e.encrypt gcm mediaType ssrc frame out = e₂.encryptFrame gcm cryptor out := by
  obtain ⟨hpass, ratchet, cryptor, hratchet, hp, hcryptor⟩ := sealedFrame_eq_some hsealed
  obtain ⟨hnonce, hproc, -, -⟩ := rotateKey_frame
    { e with frameProcessor := p, truncatedNonce := e.truncatedNonce + 1 } ratchet
    (generationOf (e.truncatedNonce + 1))
  obtain ⟨hacc, hsize⟩ := OutboundFrameProcessor.processFrame_accounted hp
  refine ⟨_, cryptor, hproc, hnonce, hacc, hsize, ?_⟩
  intro gcm mediaType out
  exact encrypt_eq_encryptFrame _ _ _ hpass hratchet hp (Prod.ext rfl hcryptor)

/-- A cipher that turns the sections of a frame into these encrypts it. -/
theorem gcmEncrypt_swapping {plaintext ciphertext : Bytes}
    (h : ciphertext.length = plaintext.length) (key nonce additionalData : Bytes) :
    (AesGcm.swapping plaintext ciphertext h).gcmEncrypt key nonce additionalData plaintext =
      some (ciphertext, zeroTag) := by
  simp [AesGcm.swapping]

/-- A call that gets as far as encrypting, with any cipher and enough room. -/
theorem exists_encrypt (hsealed : e.sealedFrame ssrc frame = some p) (hne : 0 < p.bodySize)
    {sections : Bytes} (hlength : sections.length = p.encryptedBytes.length) :
    ∃ out e' n out',
      e.encrypt (AesGcm.swapping p.encryptedBytes sections hlength) .video ssrc frame out =
        some (e', .ok (n, out')) := by
  obtain ⟨e₂, cryptor, rfl, hnonce, hacc, hsize, hcalls⟩ := encrypt_sealed hsealed
  let room := e₂.frameProcessor.bodySize + (supplementalBytes +
    leb128Size e₂.truncatedNonce.toNat + rangesEncodedSize e₂.frameProcessor.unencryptedRanges)
  obtain ⟨e', n, out', hcall⟩ := encryptFrame_isOk
    (AesGcm.swapping e₂.frameProcessor.encryptedBytes sections hlength) e₂ cryptor hacc hsize hne
    (gcmEncrypt_swapping hlength _ _ _)
    (show _ ≤ (List.replicate room (0 : UInt8)).length by
      rw [List.length_replicate]
      exact Nat.le_refl room)
  refine ⟨List.replicate room 0, e', n, out', ?_⟩
  rw [hcalls]
  exact hcall

/-- **Start codes in encrypted frames.**  Whatever the cipher answers, a successful call
puts no start code where it touches an encrypted byte, exactly when the frame is guarded
or the call does not come to encrypt it. -/
theorem noStartCode_iff (e : Encryptor H) (ssrc : UInt32) (frame : Bytes) :
    (∀ (gcm : AesGcm) (mediaType : MediaType) (out : Bytes) (e' : Encryptor H) (n : Nat)
        (out' : Bytes), e.passthroughMode = false →
        e.encrypt gcm mediaType ssrc frame out = some (e', .ok (n, out')) →
          e'.frameProcessor.NoStartCode (out'.take e'.frameProcessor.bodySize)) ↔
      ∀ p ∈ e.sealedFrame ssrc frame, p.Guarded := by
  constructor
  · intro hnone p hsealed
    obtain ⟨hpass, -, -, -, hp, -⟩ := sealedFrame_eq_some hsealed
    by_cases hne : 0 < p.bodySize
    · apply (OutboundFrameProcessor.processFrame_accounted hp).1.guarded
      intro sections hlength
      obtain ⟨out, e', n, out', hcall⟩ := exists_encrypt hsealed hne hlength
      have hfree := hnone _ _ _ _ _ _ hpass hcall
      obtain ⟨q, key, nonce, ciphertext, tag, hq, -, hproc, hseal, hbody⟩ :=
        encrypt_body hpass hcall
      obtain rfl := Option.some.inj (hsealed.symm.trans hq)
      obtain rfl : sections = ciphertext := by
        simpa [AesGcm.swapping] using (Prod.mk.inj (Option.some.inj hseal)).1
      rw [hproc] at hfree
      rw [← hbody]
      exact hfree
    · intro i j hsize
      omega
  · intro hguarded gcm mediaType out e' n out' hpass hcall
    obtain ⟨p, key, nonce, ciphertext, tag, hsealed, hacc, hproc, hseal, hbody⟩ :=
      encrypt_body hpass hcall
    have hfree := (hguarded p hsealed).noStartCode hacc (gcm.gcmEncrypt_length hseal).1
    rw [← hbody] at hfree
    rw [hproc]
    exact hfree

/-- An H264 slice with three bytes of payload. -/
def sliceFrame : Bytes := [0, 0, 1, 0x65, 0xe0, 0x55, 0x55, 0x55]

/-- A cipher that encrypts the payload of the slice to a start code. -/
def sliceGcm : AesGcm := AesGcm.swapping [0x55, 0x55, 0x55] [0, 0, 1] rfl

/-- The slice is encrypted to a start code, and handed out as a success. -/
theorem startCode_slice :
    ¬ ∀ (gcm : AesGcm) (e : Encryptor Chain) (mediaType : MediaType) (ssrc : UInt32)
        (frame out : Bytes) (e' : Encryptor Chain) (n : Nat) (out' : Bytes), gcm.Correct →
        e.codecForSsrc ssrc = .h264 ∨ e.codecForSsrc ssrc = .h265 → e.passthroughMode = false →
          e.encrypt gcm mediaType ssrc frame out = some (e', .ok (n, out')) →
            e'.frameProcessor.NoStartCode (out'.take e'.frameProcessor.bodySize) := by
  intro h
  have heval : (referenceEncryptor.encrypt sliceGcm .video 2 sliceFrame
      (List.replicate 40 0)).bind (fun call => call.2.toOption.map fun sent =>
        (call.1.frameProcessor.unencryptedRanges,
          sent.2.take call.1.frameProcessor.bodySize)) =
      some ([⟨0, 6⟩], [0, 0, 0, 1, 0x65, 0xe0, 0, 0, 1]) := by
    decide +kernel
  obtain ⟨⟨e', result⟩, hcall, hresult⟩ := Option.bind_eq_some_iff.mp heval
  cases result with
  | error err => simp [Except.toOption] at hresult
  | ok sent =>
      obtain ⟨n, out'⟩ := sent
      obtain ⟨hranges, hbody⟩ := Prod.mk.inj (Option.some.inj hresult)
      have hlength : ([0, 0, 1] : Bytes).length = ([0x55, 0x55, 0x55] : Bytes).length := rfl
      have hfree := h sliceGcm referenceEncryptor .video 2 sliceFrame (List.replicate 40 0) e' n
        out' (AesGcm.swapping_correct hlength) (.inl (by decide)) rfl hcall
      rw [hbody] at hfree
      have hcovered := hfree 6 8 (by decide) (by decide) (by decide)
      rw [hranges] at hcovered
      exact absurd hcovered (by decide)

end Encryptor

end Ekizu.Dave
