import Ekizu.Dave.Encryptor
import Ekizu.Dave.ParseFrame
import Ekizu.Dave.Reference

/-!
# The trailer: encode against decode

`encrypt` appends tag, nonce, ranges, size byte and marker; `parse_frame` reads
them backwards.  The encoder keeps two counts in eight bits and its serialiser
may stop early, so the two agree only while the range list is short enough.

## Main results

* `appendTrailer_ok` — the bytes a successful call leaves, narrowing included.
* `parseFrame_trailer` — when everything fits, the parser recovers the parts.
* `parseFrame_encrypt_iff` — a successful `encrypt` is undone by `parse_frame`
  exactly when the ranges fit the buffer and the size byte.
* `parseFrame_encrypt_video_lost` — a video frame for which they do not.
-/

namespace Ekizu.Dave

open Lib.Span
open Lib.Segments

namespace Encryptor

/-- The bytes of the ranges that end up in front of the size byte: what the
serialiser wrote, cut at its eight-bit count. -/
def keptRanges (ranges : List Range) (room : Nat) : Bytes :=
  (serializeRangesLoop ranges room).take ((serializeRangesLoop ranges room).length % 256)

theorem keptRanges_length (ranges : List Range) (room : Nat) :
    (keptRanges ranges room).length = (serializeRangesLoop ranges room).length % 256 := by
  simp only [keptRanges, List.length_take]
  exact Nat.min_eq_left (Nat.mod_le _ _)

/-- The size byte in front of the marker. -/
def sizeByte (nonce : UInt32) (ranges : List Range) (room : Nat) : UInt8 :=
  (supplementalBytes + leb128Size nonce.toNat + (keptRanges ranges room).length).toUInt8

private theorem toNat_toUInt8 (n : Nat) : n.toUInt8.toNat = n % 256 := by
  simp [Nat.toUInt8, UInt8.toNat_ofNat']

/-- A write right after a known prefix extends it. -/
private theorem take_write_prefix {buf buf' pre data : Bytes} {off : Nat}
    (h : write buf off data = some buf') (hpre : buf.take off = pre) :
    buf'.take (off + data.length) = pre ++ data := by
  rw [take_write_append h, hpre]

/-- **What `encrypt` appends.** -/
theorem appendTrailer_ok {body tag out' : Bytes} {bodySize n : Nat} {nonce : UInt32}
    {ranges : List Range} (htag : tag.length = truncatedTagBytes)
    (h : appendTrailer body bodySize tag nonce ranges = some (n, out')) :
    let room := body.length - (bodySize + truncatedTagBytes + leb128Size nonce.toNat)
    bodySize + truncatedTagBytes + leb128Size nonce.toNat ≤ body.length ∧
      n = bodySize + (supplementalBytes + leb128Size nonce.toNat +
        (keptRanges ranges room).length) ∧
      n ≤ body.length ∧ out'.length = body.length ∧
      out'.take n = body.take bodySize ++ (tag ++ (writeLeb128 nonce.toNat ++
        (keptRanges ranges room ++ (sizeByte nonce ranges room :: markerBytes)))) := by
  unfold appendTrailer at h
  simp only [Option.bind_eq_bind, serializeUnencryptedRanges] at h
  obtain ⟨out₁, h₁, h⟩ := Option.bind_eq_some_iff.mp h
  obtain ⟨out₂, h₂, h⟩ := Option.bind_eq_some_iff.mp h
  obtain ⟨room, hroom, h⟩ := Option.bind_eq_some_iff.mp h
  obtain ⟨out₃, h₃, h⟩ := Option.bind_eq_some_iff.mp h
  obtain ⟨out₄, h₄, h⟩ := Option.bind_eq_some_iff.mp h
  obtain ⟨out₅, h₅, h⟩ := Option.bind_eq_some_iff.mp h
  simp only [Option.pure_def, Option.some.injEq, Prod.mk.injEq] at h
  obtain ⟨rfl, rfl⟩ := h
  have hlen : out₂.length = body.length := by rw [write_length h₂, write_length h₁]
  have hend : out₅.length = body.length := by
    rw [write_length h₅, write_length h₄, write_length h₃, hlen]
  unfold sub at hroom
  split at hroom
  · next hle =>
      obtain rfl := Option.some.inj hroom
      rw [hlen] at hle h₃ h₄ h₅ ⊢
      generalize hr : body.length - (bodySize + truncatedTagBytes +
        leb128Size nonce.toNat) = room at *
      have hbound := (write_eq_some_iff.mp h₅).1
      simp only [toNat_toUInt8] at h₄ h₅ hbound ⊢
      rw [← keptRanges_length] at h₄ h₅ hbound ⊢
      -- The prefix known after each write; the fourth one starts inside the
      -- ranges when their count was narrowed.
      have t₁ := take_write_append h₁
      rw [htag] at t₁
      have t₂ := take_write_prefix h₂ t₁
      rw [writeLeb128_length] at t₂
      have t₃ := take_write_prefix h₃ t₂
      have hpre : (body.take bodySize ++ tag ++ writeLeb128 nonce.toNat).length =
          bodySize + truncatedTagBytes + leb128Size nonce.toNat := by
        simp only [List.length_append, List.length_take, htag, writeLeb128_length]
        omega
      have hkept : out₃.take (bodySize + truncatedTagBytes + leb128Size nonce.toNat +
          (keptRanges ranges room).length) =
          body.take bodySize ++ tag ++ writeLeb128 nonce.toNat ++ keptRanges ranges room := by
        have hcut := congrArg (List.take (bodySize + truncatedTagBytes +
          leb128Size nonce.toNat + (keptRanges ranges room).length)) t₃
        rw [List.take_take, Nat.min_eq_left (by
          rw [keptRanges_length]
          exact Nat.add_le_add_left (Nat.mod_le _ _) _)] at hcut
        rw [hcut, ← hpre, List.take_length_add_append, keptRanges_length]
        rfl
      have t₄ := take_write_prefix h₄ hkept
      have t₅ := take_write_prefix h₅ t₄
      have hpayload : bodySize + truncatedTagBytes + leb128Size nonce.toNat +
          (keptRanges ranges room).length - bodySize + 1 + 2 =
          supplementalBytes + leb128Size nonce.toNat + (keptRanges ranges room).length := by
        simp only [truncatedTagBytes, supplementalBytes]
        omega
      have hn : bodySize + truncatedTagBytes + leb128Size nonce.toNat +
          (keptRanges ranges room).length + 1 + 2 = bodySize + (supplementalBytes +
            leb128Size nonce.toNat + (keptRanges ranges room).length) := by
        simp only [truncatedTagBytes, supplementalBytes]
        omega
      refine ⟨hle, hn, ?_, hend, ?_⟩
      · have hlen₄ := write_length h₄
        have hlen₃ := write_length h₃
        simp only [markerBytes, List.length_cons, List.length_nil] at hbound
        omega
      · rw [hpayload, show markerBytes.length = 2 from rfl] at t₅
        simpa only [sizeByte, List.append_assoc, List.singleton_append] using t₅
  · simp at hroom

/-- Where the trailer ends in a buffer of that size. -/
def trailerEnd (bodySize : Nat) (nonce : UInt32) (ranges : List Range) (size : Nat) : Nat :=
  bodySize + (supplementalBytes + leb128Size nonce.toNat +
    (keptRanges ranges (size - (bodySize + truncatedTagBytes + leb128Size nonce.toNat))).length)

/-- With room for what is kept of the trailer nothing goes wrong. -/
theorem appendTrailer_of_le {body tag : Bytes} {bodySize : Nat} {nonce : UInt32}
    {ranges : List Range} (htag : tag.length = truncatedTagBytes)
    (hroom : trailerEnd bodySize nonce ranges body.length ≤ body.length) :
    ∃ n out', appendTrailer body bodySize tag nonce ranges = some (n, out') := by
  simp only [trailerEnd, supplementalBytes, truncatedTagBytes, keptRanges_length] at *
  obtain ⟨out₁, h₁⟩ : ∃ out₁, write body bodySize tag = some out₁ :=
    ⟨_, write_of_le (by omega)⟩
  have hl₁ := write_length h₁
  obtain ⟨out₂, h₂⟩ : ∃ out₂, write out₁ (bodySize + 8) (writeLeb128 nonce.toNat) =
      some out₂ := ⟨_, write_of_le (by rw [writeLeb128_length]; omega)⟩
  have hl₂ := write_length h₂
  have hsub : sub out₂.length (bodySize + 8 + leb128Size nonce.toNat) =
      some (out₂.length - (bodySize + 8 + leb128Size nonce.toNat)) := sub_of_le (by omega)
  rw [hl₂, hl₁] at hsub
  generalize hr : body.length - (bodySize + 8 + leb128Size nonce.toNat) = room at hsub hroom
  -- the serialiser stays inside the room, whatever it leaves out
  have hfit := serializeRangesLoop_length_le ranges room
  generalize hw : serializeRangesLoop ranges room = written at hfit hroom
  obtain ⟨out₃, h₃⟩ : ∃ out₃, write out₂ (bodySize + 8 + leb128Size nonce.toNat) written =
      some out₃ := ⟨_, write_of_le (by omega)⟩
  have hl₃ := write_length h₃
  have hcount : written.length.toUInt8.toNat = written.length % 256 := toNat_toUInt8 _
  generalize hc : written.length.toUInt8.toNat = count at hcount
  obtain ⟨out₄, h₄⟩ : ∃ out₄, write out₃ (bodySize + 8 + leb128Size nonce.toNat + count)
      [(bodySize + 8 + leb128Size nonce.toNat + count - bodySize + 1 + 2).toUInt8] =
        some out₄ := ⟨_, write_of_le (by simp only [List.length_singleton]; omega)⟩
  have hl₄ := write_length h₄
  obtain ⟨out₅, h₅⟩ : ∃ out₅, write out₄ (bodySize + 8 + leb128Size nonce.toNat + count + 1)
      markerBytes = some out₅ :=
    ⟨_, write_of_le (by simp only [markerBytes, List.length_cons, List.length_nil]; omega)⟩
  refine ⟨bodySize + 8 + leb128Size nonce.toNat + count + 1 + 2, out₅, ?_⟩
  simp only [appendTrailer, truncatedTagBytes, Option.bind_eq_bind, h₁, h₂, hl₂, hl₁, hsub,
    Option.bind_some, serializeUnencryptedRanges, hw, hc, h₃, h₄, h₅, Option.pure_def]

/-- What is kept of the ranges is no more than their encoding. -/
theorem trailerEnd_le {bodySize size : Nat} {nonce : UInt32} {ranges : List Range}
    (h : bodySize + (supplementalBytes + leb128Size nonce.toNat + rangesEncodedSize ranges) ≤
      size) : trailerEnd bodySize nonce ranges size ≤ size := by
  simp only [trailerEnd, supplementalBytes, truncatedTagBytes, keptRanges_length] at *
  rw [serializeRangesLoop_of_le (by omega), encodeRanges_length]
  have hmod := Nat.mod_le (rangesEncodedSize ranges) 256
  omega

end Encryptor

/-- The parser found the frame encrypted and recovered all its parts. -/
structure Recovers (p : InboundFrameProcessor) (tag : Bytes) (nonce : UInt32)
    (ranges : List Range) (unencrypted ciphertext : Bytes) : Prop where
  encrypted : p.encrypted = true
  tag_eq : p.tag = tag
  nonce_eq : p.truncatedNonce = nonce
  ranges_eq : p.unencryptedRanges = ranges
  authenticated_eq : p.authenticated = unencrypted
  ciphertext_eq : p.ciphertext = ciphertext

namespace InboundFrameProcessor

/-- The encoded trailer, with a size byte that was not narrowed. -/
def encodeTrailer (tag : Bytes) (nonce : UInt32) (ranges : List Range) : Bytes :=
  tag ++ (writeLeb128 nonce.toNat ++ (encodeRanges ranges ++
    ((supplementalBytes + leb128Size nonce.toNat + rangesEncodedSize ranges).toUInt8 ::
      markerBytes)))

theorem encodeTrailer_length {tag : Bytes} (htag : tag.length = truncatedTagBytes)
    (nonce : UInt32) (ranges : List Range) :
    (encodeTrailer tag nonce ranges).length =
      supplementalBytes + leb128Size nonce.toNat + rangesEncodedSize ranges := by
  simp only [encodeTrailer, List.length_append, List.length_cons, htag, writeLeb128_length,
    encodeRanges_length, markerBytes, List.length_nil, truncatedTagBytes, supplementalBytes]
  omega

private theorem trailerSize_encodeTrailer {body tag : Bytes}
    (htag : tag.length = truncatedTagBytes) {nonce : UInt32} {ranges : List Range}
    (hfit : supplementalBytes + leb128Size nonce.toNat + rangesEncodedSize ranges < 256) :
    trailerSize (body ++ encodeTrailer tag nonce ranges) =
      some (supplementalBytes + leb128Size nonce.toNat + rangesEncodedSize ranges) := by
  have htrailer := encodeTrailer_length htag nonce ranges
  have hsplit : body ++ encodeTrailer tag nonce ranges =
      body ++ tag ++ writeLeb128 nonce.toNat ++ encodeRanges ranges ++
        ((supplementalBytes + leb128Size nonce.toNat + rangesEncodedSize ranges).toUInt8 ::
          markerBytes) := by
    simp only [encodeTrailer, List.append_assoc]
  have hlen : (body ++ encodeTrailer tag nonce ranges).length =
      (body ++ tag ++ writeLeb128 nonce.toNat ++ encodeRanges ranges).length + 3 := by
    rw [hsplit, List.length_append]
    rfl
  have hmarker : (body ++ encodeTrailer tag nonce ranges).drop
      ((body ++ encodeTrailer tag nonce ranges).length - 2) = markerBytes := by
    rw [hlen, hsplit, show ∀ k, k + 3 - 2 = k + 1 by omega, List.drop_length_add_append]
    rfl
  have hbyte : (body ++ encodeTrailer tag nonce ranges)[
      (body ++ encodeTrailer tag nonce ranges).length - 3]? = some (supplementalBytes +
        leb128Size nonce.toNat + rangesEncodedSize ranges).toUInt8 := by
    rw [hlen, hsplit, Nat.add_sub_cancel, List.getElem?_append_right (Nat.le_refl _),
      Nat.sub_self]
    rfl
  have hval : (supplementalBytes + leb128Size nonce.toNat +
      rangesEncodedSize ranges).toUInt8.toNat =
      supplementalBytes + leb128Size nonce.toNat + rangesEncodedSize ranges := by
    simp only [Nat.toUInt8, UInt8.toNat_ofNat']
    exact Nat.mod_eq_of_lt hfit
  have htotal : (body ++ encodeTrailer tag nonce ranges).length = body.length +
      (supplementalBytes + leb128Size nonce.toNat + rangesEncodedSize ranges) := by
    rw [List.length_append, htrailer]
  unfold trailerSize
  rw [if_pos ⟨by omega, hmarker⟩, hbyte]
  simp only [hval]
  rw [if_pos ⟨by omega, by omega⟩]

/-- **Decoding a trailer.**  A woven body followed by its trailer is parsed
into the parts it was made of. -/
theorem parseFrame_trailer (p : InboundFrameProcessor) {tag unencrypted ciphertext : Bytes}
    {nonce : UInt32} {ranges : List Range} (htag : tag.length = truncatedTagBytes)
    (hord : Ordered 0 ranges) (hsizes : sizes ranges = unencrypted.length)
    (hgaps : gaps 0 ranges ≤ ciphertext.length)
    (hfit : supplementalBytes + leb128Size nonce.toNat + rangesEncodedSize ranges < 256)
    (hlen : ranges = [] ∨ (weave 0 ranges unencrypted ciphertext ++
      encodeTrailer tag nonce ranges).length < 2 ^ 64) :
    ∃ p', parseFrame p (weave 0 ranges unencrypted ciphertext ++
        encodeTrailer tag nonce ranges) = some p' ∧
      Recovers p' tag nonce ranges unencrypted ciphertext := by
  have hbody := weave_length hsizes.symm hgaps
  have hend := endPos_eq hord
  have htrailer := encodeTrailer_length htag nonce ranges
  generalize hframe : weave 0 ranges unencrypted ciphertext ++
    encodeTrailer tag nonce ranges = frame at *
  have htotal : frame.length = (weave 0 ranges unencrypted ciphertext).length +
      (supplementalBytes + leb128Size nonce.toNat + rangesEncodedSize ranges) := by
    rw [← hframe, List.length_append, htrailer]
  have hbodySize : frame.length - (supplementalBytes + leb128Size nonce.toNat +
      rangesEncodedSize ranges) = (weave 0 ranges unencrypted ciphertext).length := by omega
  have hdrop : frame.drop (weave 0 ranges unencrypted ciphertext).length =
      encodeTrailer tag nonce ranges := by
    rw [← hframe, List.drop_left]
  have hbytes : nonceAndRanges frame (supplementalBytes + leb128Size nonce.toNat +
      rangesEncodedSize ranges) = writeLeb128 nonce.toNat ++ encodeRanges ranges := by
    rw [nonceAndRanges, hbodySize, hdrop, encodeTrailer, ← htag, List.drop_left,
      ← List.append_assoc]
    apply List.take_left'
    rw [List.length_append, writeLeb128_length, encodeRanges_length]
    omega
  have hread : readLeb128 (writeLeb128 nonce.toNat ++ encodeRanges ranges) =
      some (nonce.toNat, encodeRanges ranges) :=
    readLeb128_writeLeb128 (Nat.lt_trans nonce.toNat_lt (by decide)) _
  have hinside : endPos 0 ranges ≤ frame.length := by omega
  have hfits : Fits64 ranges := by
    rcases hlen with rfl | hlen
    · intro range hrange
      simp at hrange
    · exact fits64_of_ordered hord hinside hlen
  have hvalid : validateUnencryptedRanges ranges frame.length = true := by
    rcases hlen with rfl | hlen
    · rfl
    · exact validateUnencryptedRanges_complete hord hinside hlen
  refine ⟨_, parseFrame_eq p frame, ?_⟩
  rw [← hframe, trailerSize_encodeTrailer htag hfit, hframe]
  simp only [parseTrailer, hbytes, hread,
    deserializeUnencryptedRanges_encodeRanges hfits, hvalid, if_true]
  rw [hbodySize]
  refine ⟨rfl, ?_, ?_, rfl, ?_, ?_⟩
  · simp only [splitResult, hdrop, encodeTrailer]
    rw [← htag, List.take_left]
  · simp [splitResult]
  · have hinside : inside ([] ++ weave 0 ranges unencrypted ciphertext ++
        encodeTrailer tag nonce ranges) ranges = unencrypted :=
      inside_weave hord rfl hsizes.symm hgaps
    simp only [List.nil_append, hframe] at hinside
    simpa only [splitResult, clear, List.nil_append] using hinside
  · have houtside : outside ([] ++ weave 0 ranges unencrypted ciphertext ++
          encodeTrailer tag nonce ranges) 0 ranges = ciphertext.take (gaps 0 ranges) ∧
        ([] ++ weave 0 ranges unencrypted ciphertext ++
          encodeTrailer tag nonce ranges).drop (endPos 0 ranges) =
          ciphertext.drop (gaps 0 ranges) ++ encodeTrailer tag nonce ranges :=
      outside_weave hord rfl hsizes.symm hgaps
    simp only [List.nil_append, hframe] at houtside
    have hrest : (ciphertext.drop (gaps 0 ranges)).length =
        (weave 0 ranges unencrypted ciphertext).length - endPos 0 ranges := by
      rw [List.length_drop]
      omega
    simp only [splitResult, clear, List.nil_append, houtside.1, houtside.2, ← hrest,
      List.take_left, List.take_append_drop]

end InboundFrameProcessor

namespace Encryptor

/-- The nonce and the ranges of a split frame fit the output buffer next to
body and tag, and their trailer fits its size byte. -/
def TrailerFits (p : OutboundFrameProcessor) (nonce : UInt32) (outSize : Nat) : Prop :=
  p.unencryptedBytes.length + p.encryptedBytes.length + truncatedTagBytes +
      leb128Size nonce.toNat + rangesEncodedSize p.unencryptedRanges ≤ outSize ∧
    supplementalBytes + leb128Size nonce.toNat + rangesEncodedSize p.unencryptedRanges ≤ 255

instance (p : OutboundFrameProcessor) (nonce : UInt32) (outSize : Nat) :
    Decidable (TrailerFits p nonce outSize) :=
  inferInstanceAs (Decidable (_ ∧ _))

variable {H : Type} [HashRatchet H]

/-- The parser recovers from `sent` what the encryptor `e` put into it. -/
def Undone (gcm : AesGcm) (e : Encryptor H) (inbound : InboundFrameProcessor)
    (sent : Bytes) : Prop :=
  ∃ inbound' cryptor tag, inbound.parseFrame sent = some inbound' ∧
    e.cryptor = some cryptor ∧
    gcm.gcmEncrypt cryptor.key (nonceBuffer e.truncatedNonce)
      e.frameProcessor.unencryptedBytes e.frameProcessor.encryptedBytes =
        some (e.frameProcessor.ciphertextBytes, tag) ∧
    Recovers inbound' tag e.truncatedNonce e.frameProcessor.unencryptedRanges
      e.frameProcessor.unencryptedBytes e.frameProcessor.ciphertextBytes

/-- The encryptor with what the cipher answered. -/
def sealedWith (e : Encryptor H) (ciphertext : Bytes) : Encryptor H :=
  { e with frameProcessor := { e.frameProcessor with ciphertextBytes := ciphertext } }

omit [HashRatchet H] in
/-- A call whose cipher answers comes down to the body and the trailer. -/
theorem encryptFrame_sealed (gcm : AesGcm) (e : Encryptor H) (cryptor : AeadCipher) (out : Bytes)
    {ciphertext tag : Bytes}
    (hsize : e.frameProcessor.ciphertextBytes.length = e.frameProcessor.encryptedBytes.length)
    (hseal : gcm.gcmEncrypt cryptor.key (nonceBuffer e.truncatedNonce)
      e.frameProcessor.unencryptedBytes e.frameProcessor.encryptedBytes = some (ciphertext, tag)) :
    e.encryptFrame gcm cryptor out =
      ((e.sealedWith ciphertext).frameProcessor.reconstructFrame out).bind fun written =>
        if written.1 = 0 then some (e.sealedWith ciphertext, .error .encryptionFailed)
        else (appendTrailer written.2 written.1 tag e.truncatedNonce
          e.frameProcessor.unencryptedRanges).map fun result =>
            (e.sealedWith ciphertext, .ok result) := by
  obtain ⟨hct, htag⟩ := gcm.gcmEncrypt_length hseal
  have hsrc : first (ciphertext ++ tag) e.frameProcessor.encryptedBytes.length =
      some ciphertext := by
    rw [first_of_le (by simp [hct]), ← hct, List.take_left]
  have hdest : subspan (ciphertext ++ tag) e.frameProcessor.encryptedBytes.length
      truncatedTagBytes = some tag := by
    rw [subspan_of_le (by simp [hct, htag]), ← hct, List.drop_left, ← htag, List.take_length]
  have hcopy : write e.frameProcessor.ciphertextBytes 0 ciphertext = some ciphertext := by
    rw [write_of_le (by omega), List.take_zero, List.nil_append,
      List.drop_of_length_le (by omega), List.append_nil]
  simp only [encryptFrame, AeadCipher.encrypt, hseal, Option.map_some, Option.bind_eq_bind, hsrc,
    hcopy, hdest, Option.bind_some]
  congr 1
  funext written
  split
  · rfl
  · cases appendTrailer written.2 written.1 tag e.truncatedNonce
      e.frameProcessor.unencryptedRanges <;> rfl

omit [HashRatchet H] in
/-- From the AEAD call on, a frame with a body that has room for it comes down to its
trailer. -/
theorem encryptFrame_eq (gcm : AesGcm) (e : Encryptor H) (cryptor : AeadCipher) (out : Bytes)
    {ciphertext tag : Bytes} (hacc : e.frameProcessor.Accounted)
    (hsize : e.frameProcessor.ciphertextBytes.length = e.frameProcessor.encryptedBytes.length)
    (hne : 0 < e.frameProcessor.unencryptedBytes.length + e.frameProcessor.encryptedBytes.length)
    (hseal : gcm.gcmEncrypt cryptor.key (nonceBuffer e.truncatedNonce)
      e.frameProcessor.unencryptedBytes e.frameProcessor.encryptedBytes = some (ciphertext, tag))
    (hroom : e.frameProcessor.unencryptedBytes.length + e.frameProcessor.encryptedBytes.length ≤
      out.length) :
    ∃ body, body.length = out.length ∧ e.encryptFrame gcm cryptor out =
      (appendTrailer body (e.frameProcessor.unencryptedBytes.length +
        e.frameProcessor.encryptedBytes.length) tag e.truncatedNonce
          e.frameProcessor.unencryptedRanges).map fun result =>
            (e.sealedWith ciphertext, .ok result) := by
  have hct := (gcm.gcmEncrypt_length hseal).1
  have hacc' : (e.sealedWith ciphertext).frameProcessor.Accounted :=
    ⟨hacc.1, hacc.2, hacc.3, hacc.4⟩
  obtain ⟨body, hrec, hbody, -⟩ := OutboundFrameProcessor.reconstructFrame_eq hacc' hct
    (show e.frameProcessor.unencryptedBytes.length + ciphertext.length ≤ out.length by omega)
  have hwritten : e.frameProcessor.unencryptedBytes.length + ciphertext.length ≠ 0 := by
    omega
  refine ⟨body, hbody, ?_⟩
  rw [encryptFrame_sealed gcm e cryptor out hsize hseal, hrec, ← hct]
  exact if_neg hwritten

omit [HashRatchet H] in
/-- From the AEAD call on, a frame with a body goes through when there is room for it and
its trailer. -/
theorem encryptFrame_isOk (gcm : AesGcm) (e : Encryptor H) (cryptor : AeadCipher)
    {out ciphertext tag : Bytes} (hacc : e.frameProcessor.Accounted)
    (hsize : e.frameProcessor.ciphertextBytes.length = e.frameProcessor.encryptedBytes.length)
    (hne : 0 < e.frameProcessor.unencryptedBytes.length + e.frameProcessor.encryptedBytes.length)
    (hseal : gcm.gcmEncrypt cryptor.key (nonceBuffer e.truncatedNonce)
      e.frameProcessor.unencryptedBytes e.frameProcessor.encryptedBytes = some (ciphertext, tag))
    (hroom : e.frameProcessor.unencryptedBytes.length + e.frameProcessor.encryptedBytes.length +
      (supplementalBytes + leb128Size e.truncatedNonce.toNat +
        rangesEncodedSize e.frameProcessor.unencryptedRanges) ≤ out.length) :
    ∃ e' n out', e.encryptFrame gcm cryptor out = some (e', .ok (n, out')) := by
  obtain ⟨body, hbody, heq⟩ := encryptFrame_eq gcm e cryptor out hacc hsize hne hseal
    (Nat.le_trans (Nat.le_add_right _ _) hroom)
  obtain ⟨n, out', htrailer⟩ := appendTrailer_of_le (gcm.gcmEncrypt_length hseal).2
    (trailerEnd_le (by rw [hbody]; exact hroom))
  refine ⟨e.sealedWith ciphertext, n, out', ?_⟩
  rw [heq, htrailer]
  rfl

/-- What a successful call leaves in the output: the woven body, and behind it
the trailer as far as its counts reach. -/
theorem encrypt_sent {gcm : AesGcm} {e e' : Encryptor H} {mediaType : MediaType}
    {ssrc : UInt32} {frame out out' : Bytes} {n : Nat} {p : OutboundFrameProcessor}
    (hpass : e.passthroughMode = false)
    (hp : e.frameProcessor.processFrame frame (e.codecForSsrc ssrc) = some p)
    (h : e.encrypt gcm mediaType ssrc frame out = some (e', .ok (n, out'))) :
    ∃ cryptor ciphertext tag, e'.cryptor = some cryptor ∧
      e'.frameProcessor = { p with ciphertextBytes := ciphertext } ∧
      e'.truncatedNonce = e.truncatedNonce + 1 ∧
      gcm.gcmEncrypt cryptor.key (nonceBuffer e'.truncatedNonce) p.unencryptedBytes
        p.encryptedBytes = some (ciphertext, tag) ∧
      let bodySize := p.unencryptedBytes.length + p.encryptedBytes.length
      let nonce := e.truncatedNonce + 1
      let room := out.length - (bodySize + truncatedTagBytes + leb128Size nonce.toNat)
      bodySize + truncatedTagBytes + leb128Size nonce.toNat ≤ out.length ∧
      n = bodySize + (supplementalBytes + leb128Size nonce.toNat +
        (keptRanges p.unencryptedRanges room).length) ∧ n ≤ out.length ∧
      out'.length = out.length ∧
      out'.take n = weave 0 p.unencryptedRanges p.unencryptedBytes ciphertext ++
        (tag ++ (writeLeb128 nonce.toNat ++ (keptRanges p.unencryptedRanges room ++
          (sizeByte nonce p.unencryptedRanges room :: markerBytes)))) := by
  obtain ⟨p', cryptor, ciphertext, tag, bodySize, body, hp', hnonce, hcryptor, hproc, hseal,
    hrec, hbody, htrailer⟩ := encrypt_ok hpass h
  obtain rfl := Option.some.inj (hp.symm.trans hp')
  obtain ⟨hacc, -⟩ := OutboundFrameProcessor.processFrame_accounted hp
  obtain ⟨hct, htag⟩ := gcm.gcmEncrypt_length hseal
  have hacc' : ({ p with ciphertextBytes := ciphertext } : OutboundFrameProcessor).Accounted :=
    ⟨hacc.1, hacc.2, hacc.3, hacc.4⟩
  rw [hproc] at hrec
  -- The body was written, since `reconstruct_frame` did not answer 0.
  by_cases hroom : out.length < p.unencryptedBytes.length + ciphertext.length
  · rw [OutboundFrameProcessor.reconstructFrame, if_pos hroom] at hrec
    simp only [Option.some.injEq, Prod.mk.injEq] at hrec
    exact absurd hrec.1.symm hbody
  obtain ⟨body', hrec', hlen, htake⟩ := OutboundFrameProcessor.reconstructFrame_eq hacc' hct
    (Nat.le_of_not_lt hroom)
  rw [hrec'] at hrec
  simp only [Option.some.injEq, Prod.mk.injEq] at hrec
  obtain ⟨rfl, rfl⟩ := hrec
  rw [hnonce] at htrailer
  obtain ⟨hle, hn, hmax, hlen', hout⟩ := appendTrailer_ok htag htrailer
  simp only [hlen, hct] at hle hn hmax hlen' hout htake
  rw [htake] at hout
  exact ⟨cryptor, ciphertext, tag, hcryptor, hproc, hnonce, hseal, hle, hn, hmax, hlen', hout⟩

/-- The byte the parser takes for the size. -/
private theorem sizeByte_of_sent {sent pre : Bytes} {byte : UInt8}
    {a b c : Bytes}
    (h : sent = pre ++ (a ++ (b ++ (c ++ (byte :: markerBytes))))) :
    sent[sent.length - 3]? = some byte := by
  have hassoc : sent = (pre ++ a ++ b ++ c) ++ (byte :: markerBytes) := by
    simp only [h, List.append_assoc]
  have hlen : sent.length = (pre ++ a ++ b ++ c).length + 3 := by
    rw [hassoc, List.length_append]
    rfl
  rw [hlen, Nat.add_sub_cancel, hassoc, List.getElem?_append_right (Nat.le_refl _),
    Nat.sub_self]
  rfl

/-- When the trailer fits, the parser recovers everything. -/
theorem undone_of_trailerFits {gcm : AesGcm} {e e' : Encryptor H} {mediaType : MediaType}
    {ssrc : UInt32} {frame out out' : Bytes} {n : Nat} {p : OutboundFrameProcessor}
    (inbound : InboundFrameProcessor) (hpass : e.passthroughMode = false)
    (hp : e.frameProcessor.processFrame frame (e.codecForSsrc ssrc) = some p)
    (h : e.encrypt gcm mediaType ssrc frame out = some (e', .ok (n, out')))
    (hsize : p.unencryptedRanges = [] ∨ out.length < 2 ^ 64)
    (hfits : TrailerFits p (e.truncatedNonce + 1) out.length) :
    Undone gcm e' inbound (out'.take n) := by
  obtain ⟨cryptor, ciphertext, tag, hcryptor, hproc, hnonce, hseal, hle, hn, hmax, hlen,
    htake⟩ := encrypt_sent hpass hp h
  obtain ⟨hacc, -⟩ := OutboundFrameProcessor.processFrame_accounted hp
  obtain ⟨hct, htag⟩ := gcm.gcmEncrypt_length hseal
  obtain ⟨hroomFits, hbyteFits⟩ := hfits
  generalize hroom : out.length - (p.unencryptedBytes.length + p.encryptedBytes.length +
    truncatedTagBytes + leb128Size (e.truncatedNonce + 1).toNat) = room at *
  have hwritten : serializeRangesLoop p.unencryptedRanges room =
      encodeRanges p.unencryptedRanges := serializeRangesLoop_of_le (by omega)
  have hkept : keptRanges p.unencryptedRanges room = encodeRanges p.unencryptedRanges := by
    rw [keptRanges, hwritten, encodeRanges_length, Nat.mod_eq_of_lt (by omega),
      ← encodeRanges_length, List.take_length]
  have hsent : out'.take n =
      weave 0 p.unencryptedRanges p.unencryptedBytes ciphertext ++
        InboundFrameProcessor.encodeTrailer tag (e.truncatedNonce + 1)
          p.unencryptedRanges := by
    rw [htake, hkept, sizeByte, hkept, encodeRanges_length]
    rfl
  rw [hsent]
  have hbyteFits' : supplementalBytes + leb128Size (e.truncatedNonce + 1).toNat +
      rangesEncodedSize p.unencryptedRanges < 256 := by omega
  obtain ⟨inbound', hparse, hrecovers⟩ := InboundFrameProcessor.parseFrame_trailer inbound
    htag hacc.ordered hacc.sizes_eq (by rw [hct]; exact hacc.gaps_le) hbyteFits'
    (hsize.imp_right fun hsize => by rw [← hsent, List.length_take]; omega)
  refine ⟨inbound', cryptor, tag, hparse, hcryptor, ?_, ?_⟩
  · rw [hproc]
    exact hseal
  · rw [hproc, hnonce]
    exact hrecovers

/-- **Encoder and parser agree exactly when the trailer fits.**  For every
codec, every frame it splits and every encryptor outside passthrough: the bytes
of a successful `encrypt` are undone by `parse_frame` if and only if neither
the buffer nor the eight-bit size cuts the range list. -/
theorem parseFrame_encrypt_iff {gcm : AesGcm} {e e' : Encryptor H} {mediaType : MediaType}
    {ssrc : UInt32} {frame out out' : Bytes} {n : Nat} {p : OutboundFrameProcessor}
    (inbound : InboundFrameProcessor) (hpass : e.passthroughMode = false)
    (hp : e.frameProcessor.processFrame frame (e.codecForSsrc ssrc) = some p)
    (hout : out.length = getMaxCiphertextByteSize mediaType frame.length)
    (hsize : out.length < 2 ^ 64)
    (h : e.encrypt gcm mediaType ssrc frame out = some (e', .ok (n, out'))) :
    Undone gcm e' inbound (out'.take n) ↔
      TrailerFits p (e.truncatedNonce + 1)
        (getMaxCiphertextByteSize mediaType frame.length) := by
  obtain ⟨cryptor, ciphertext, tag, hcryptor, hproc, hnonce, hseal, hle, hn, hmax, hlen,
    htake⟩ := encrypt_sent hpass hp h
  obtain ⟨hacc, -⟩ := OutboundFrameProcessor.processFrame_accounted hp
  obtain ⟨hct, htag⟩ := gcm.gcmEncrypt_length hseal
  rw [← hout]
  generalize hroom : out.length - (p.unencryptedBytes.length + p.encryptedBytes.length +
    truncatedTagBytes + leb128Size (e.truncatedNonce + 1).toNat) = room at *
  constructor
  · rintro ⟨inbound', _, _, hparse, -, -, hrecovers⟩
    obtain ⟨byte, hbyte, hmin⟩ :=
      InboundFrameProcessor.encodedSize_le_of_parseFrame hparse hrecovers.encrypted
    rw [hrecovers.nonce_eq, hrecovers.ranges_eq, hproc, hnonce] at hmin
    -- The byte the parser reads is the one the encoder narrowed.
    rw [sizeByte_of_sent htake, Option.some.injEq] at hbyte
    have hval : byte.toNat ≤ supplementalBytes + leb128Size (e.truncatedNonce + 1).toNat +
        (keptRanges p.unencryptedRanges room).length := by
      rw [← hbyte, sizeByte, toNat_toUInt8]
      exact Nat.mod_le _ _
    have hwritten : rangesEncodedSize p.unencryptedRanges ≤
        (serializeRangesLoop p.unencryptedRanges room).length := by
      have hkept := keptRanges_length p.unencryptedRanges room
      have := Nat.mod_le (serializeRangesLoop p.unencryptedRanges room).length 256
      simp only at hmin
      omega
    have hspace := serializeRangesLoop_length_le p.unencryptedRanges room
    have hlt := byte.toNat_lt
    simp only at hmin
    exact ⟨by omega, by omega⟩
  · rintro ⟨hroomFits, hbyteFits⟩
    exact undone_of_trailerFits inbound hpass hp h (.inr hsize) ⟨hroomFits, hbyteFits⟩

/-- An encryptor outside passthrough, for audio on SSRC 1 and H264 on SSRC 2. -/
def referenceEncryptor : Encryptor Chain :=
  (((({} : Encryptor Chain).setKeyRatchet
    (some (.mls (HashRatchet.ofSecret referenceSecret)))).setPassthroughMode
      false).assignSsrcToCodec 1 .opus).assignSsrcToCodec 2 .h264

private theorem encrypt_audioFrame : ∃ e' n out',
    referenceEncryptor.encrypt referenceGcm .audio 1 audioFrame (List.replicate 79 0) =
      some (e', .ok (n, out')) := by
  have heval : (referenceEncryptor.encrypt referenceGcm .audio 1 audioFrame
      (List.replicate 79 0)).bind (fun call => call.2.toOption.map Prod.fst) = some 16 := by
    decide +kernel
  obtain ⟨⟨e', result⟩, hcall, hresult⟩ := Option.bind_eq_some_iff.mp heval
  cases result with
  | error err => simp [Except.toOption] at hresult
  | ok sent => exact ⟨e', sent.1, sent.2, hcall⟩

theorem parseFrame_encrypt_audioFrame : ∃ e' n out',
    referenceEncryptor.encrypt referenceGcm .audio 1 audioFrame (List.replicate 79 0) =
      some (e', .ok (n, out')) ∧ Undone referenceGcm e' {} (out'.take n) := by
  obtain ⟨e', n, out', hcall⟩ := encrypt_audioFrame
  let p : OutboundFrameProcessor :=
    { frameCodec := .opus, frameIndex := 4, encryptedBytes := audioFrame
      ciphertextBytes := [0, 0, 0, 0] }
  have hp : referenceEncryptor.frameProcessor.processFrame audioFrame
      (referenceEncryptor.codecForSsrc 1) = some p := by decide +kernel
  refine ⟨e', n, out', hcall, ?_⟩
  exact (parseFrame_encrypt_iff {} rfl hp (by decide) (by decide) hcall).mpr
    (by decide +kernel)

/-- Twenty slices, the first with three bytes of payload and the others with
one, and a parameter set of 128 bytes, behind short start codes. -/
def videoFrame : Bytes :=
  [0, 0, 1, 0x65, 0xe0, 0x55, 0x55, 0x55] ++
    ((List.replicate 19 [0, 0, 1, 0x65, 0xe0, 0x55]).flatten ++
      ([0, 0, 1, 0x67] ++ List.replicate 127 0x88))

/-- **A range is lost.**  The ranges of `videoFrame` take 46 bytes where 45 are
left; the serialiser drops the last one, `encrypt` reports success, and the
parser finds 20 ranges instead of 21. -/
theorem parseFrame_encrypt_video_lost : ∃ e' n out',
    referenceEncryptor.encrypt referenceGcm .video 2 videoFrame
      (List.replicate (getMaxCiphertextByteSize .video videoFrame.length) 0) =
        some (e', .ok (n, out')) ∧
      ¬ Undone referenceGcm e' {} (out'.take n) := by
  have heval : (referenceEncryptor.encrypt referenceGcm .video 2 videoFrame
      (List.replicate (getMaxCiphertextByteSize .video videoFrame.length) 0)).bind
        (fun call => call.2.toOption.bind fun sent =>
          (({} : InboundFrameProcessor).parseFrame (sent.2.take sent.1)).map fun parsed =>
            (parsed.unencryptedRanges.length,
              call.1.frameProcessor.unencryptedRanges.length)) = some (20, 21) := by
    decide +kernel
  obtain ⟨⟨e', result⟩, hcall, hresult⟩ := Option.bind_eq_some_iff.mp heval
  cases result with
  | error err => simp [Except.toOption] at hresult
  | ok sent =>
      obtain ⟨n, out'⟩ := sent
      obtain ⟨parsed, hparsed, hlen⟩ := Option.map_eq_some_iff.mp hresult
      refine ⟨e', n, out', hcall, ?_⟩
      rintro ⟨inbound', _, _, hparse, -, -, hrecovers⟩
      obtain rfl := Option.some.inj (hparsed.symm.trans hparse)
      rw [hrecovers.ranges_eq, Prod.mk.injEq] at hlen
      exact absurd (hlen.1.symm.trans hlen.2) (by decide)

end Encryptor

end Ekizu.Dave
