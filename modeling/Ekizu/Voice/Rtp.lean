import Ekizu.Voice.Link
import Ekizu.Voice.Reference

/-!
# RTP packets through the transport encryption

The packets of RFC 3550 with payload type 120 in the `*_rtpsize` layout of the
gateway, the datagrams the sender makes of them, and `ReceiverOp::process` on
both and on any other bytes.  What is used of libsodium is `Sodium.Correct`.

`openRtpChecked` is the first half of `process` again, with every access to the
packet and every subtraction checked; `openRtp` leaves the checks out.

## Main results

* `openRtpChecked_eq` — no access leaves the packet.
* `openRtp_datagram` — opening the datagram of a packet gives its payload.
* `process_isSome` — `process` returns on every datagram.
* `process_datagram` — it delivers the payload of every well-formed packet, in
  particular of those a sender builds.
-/

namespace Ekizu.Voice

open Dave Lib.Span

/-! ## What libsodium does -/

/-- An AEAD of libsodium: keys of 32 bytes, a nonce of fixed size, and a tag of
16 bytes behind the ciphertext.  Decrypting an encryption under the same key,
nonce and additional data gives the plaintext. -/
def AeadCorrect (ivSize : Nat)
    (encrypt decrypt : (key iv additionalData input : Bytes) → Option Bytes) : Prop :=
  ∀ key iv additionalData plaintext ciphertext, key.length = 32 → iv.length = ivSize →
    encrypt key iv additionalData plaintext = some ciphertext →
      ciphertext.length = plaintext.length + VoiceCrypto.tagSize ∧
        decrypt key iv additionalData ciphertext = some plaintext

/-- Both ciphers of libsodium. -/
structure Sodium.Correct (sodium : Sodium) : Prop where
  xchacha20 : AeadCorrect 24 sodium.xchacha20Encrypt sodium.xchacha20Decrypt
  aes256Gcm : AeadCorrect 12 sodium.aes256GcmEncrypt sodium.aes256GcmDecrypt

/-! ## Well-formed packets -/

/-- A header extension: a profile and a list of words, whose number has 16 bits. -/
structure HeaderExtension where
  profile : UInt16
  words : List UInt32
  length_lt : words.length < 2 ^ 16

/-- Padding: any bytes, then their number, with the byte that holds it. -/
structure Padding where
  filler : Bytes
  length_lt : filler.length < 255

/-- An RTP packet of version 2 with payload type 120. -/
structure RtpPacket where
  marker : Bool
  sequence : UInt16
  timestamp : UInt32
  ssrc : UInt32
  csrcs : List UInt32
  csrcs_le : csrcs.length ≤ 15
  extension : Option HeaderExtension
  payload : Bytes
  padding : Option Padding

/-- The bytes of a list of words. -/
def wordBytes (words : List UInt32) : Bytes := words.flatMap u32Be

/-- The padding of a packet. -/
def Padding.bytes (padding : Padding) : Bytes :=
  padding.filler ++ [UInt8.ofNat (padding.filler.length + 1)]

namespace RtpPacket

/-- The first byte: version, padding and extension bit, number of CSRCs. -/
def firstByte (p : RtpPacket) : UInt8 :=
  0x80 ||| (if p.padding.isSome then 0x20 else 0) ||| (if p.extension.isSome then 0x10 else 0) |||
    p.csrcs.length.toUInt8

/-- The second byte: marker and payload type. -/
def secondByte (p : RtpPacket) : UInt8 := (if p.marker then 0x80 else 0) ||| 120

/-- The header with its list of CSRCs. -/
def fixedHeader (p : RtpPacket) : Bytes :=
  [p.firstByte, p.secondByte] ++ u16Be p.sequence ++ u32Be p.timestamp ++ u32Be p.ssrc ++
    wordBytes p.csrcs

/-- The four bytes in front of the extension's words. -/
def preamble (p : RtpPacket) : Bytes :=
  match p.extension with
  | none => []
  | some extension => u16Be extension.profile ++ u16Be extension.words.length.toUInt16

/-- The words of the extension. -/
def extensionBody (p : RtpPacket) : Bytes :=
  match p.extension with
  | none => []
  | some extension => wordBytes extension.words

/-- What is authenticated but not encrypted. -/
def header (p : RtpPacket) : Bytes := p.fixedHeader ++ p.preamble

/-- The payload with its padding. -/
def padded (p : RtpPacket) : Bytes :=
  match p.padding with
  | none => p.payload
  | some padding => p.payload ++ padding.bytes

/-- What is encrypted. -/
def body (p : RtpPacket) : Bytes := p.extensionBody ++ p.padded

/-- The packet in the `*_rtpsize` layout, with the nonce behind it. -/
def datagram (p : RtpPacket) (sodium : Sodium) (crypto : VoiceCrypto) (nonce : UInt32) :
    Option Bytes :=
  (crypto.aeadEncrypt sodium (u32Be nonce) p.header p.body).map fun ciphertext =>
    p.header ++ ciphertext ++ u32Be nonce

/-- What the receiver finds in the packet. -/
def media (p : RtpPacket) : MediaPacket := ⟨p.ssrc, p.sequence, p.timestamp, p.payload⟩

end RtpPacket

/-! ## Checked accesses -/

/-- `strip_rtp_padding`. -/
def stripRtpPaddingChecked (payload : Bytes) (paddingBitSet : Bool) : Option Bytes :=
  if paddingBitSet = false ∨ payload = [] then some payload
  else do
    let back ← payload.getLast?
    let pad := back.toNat
    if pad = 0 ∨ payload.length < pad then some payload
    else
      let size ← sub payload.length pad
      first payload size

/-- `VoiceCrypto::decrypt_rtp`; the inner `none` is an error code. -/
def VoiceCrypto.decryptRtpChecked (sodium : Sodium) (crypto : VoiceCrypto)
    (header encryptedPayload : Bytes) : Option (Option Bytes) :=
  if encryptedPayload.length < tagSize + nonceSize then some none
  else do
    let ciphertextLen ← sub encryptedPayload.length nonceSize
    let nonceBytes ← slice encryptedPayload ciphertextLen nonceSize
    let _resultSize ← sub ciphertextLen tagSize
    let ciphertext ← first encryptedPayload ciphertextLen
    some (crypto.aeadDecrypt sodium nonceBytes header ciphertext)

/-- The bytes of the nonce that a failed decryption is logged with. -/
def loggedNonce (encryptedPayload : Bytes) : Option (List UInt8) :=
  if 4 ≤ encryptedPayload.length then do
    let last4 ← last encryptedPayload 4
    let n0 ← last4[0]?
    let n1 ← last4[1]?
    let n2 ← last4[2]?
    let n3 ← last4[3]?
    some [n0, n1, n2, n3]
  else some [0, 0, 0, 0]

/-- `ReceiverOp::process` after the decryption. -/
def readMediaChecked (bytes decrypted : Bytes) (padding extension : Bool)
    (extLenWords : UInt16) : Option (Option MediaPacket) := do
  let extBytes := extLenWords.toNat * 4
  if extension ∧ decrypted.length < extBytes then some none
  else
    let mediaPayload ←
      if extension then subspanFrom decrypted extBytes
      else some decrypted
    let mediaPayload ← stripRtpPaddingChecked mediaPayload padding
    let ssrc ← subspan bytes 8 4
    let sequence ← subspan bytes 2 2
    let timestamp ← subspan bytes 4 4
    some (some ⟨readU32Be ssrc, readU16Be sequence, readU32Be timestamp, mediaPayload⟩)

/-- `ReceiverOp::process` from the fixed header on. -/
def decryptMediaChecked (sodium : Sodium) (crypto : VoiceCrypto) (bytes : Bytes)
    (padding extension : Bool) (aadLen : Nat) (extLenWords : UInt16) :
    Option (Option MediaPacket) :=
  if bytes.length ≤ aadLen then some none
  else do
    let aadHeader ← first bytes aadLen
    let encryptedPayload ← subspanFrom bytes aadLen
    let decrypted ← crypto.decryptRtpChecked sodium aadHeader encryptedPayload
    match decrypted with
    | none =>
        let _nonce ← loggedNonce encryptedPayload
        some none
    | some decrypted => readMediaChecked bytes decrypted padding extension extLenWords

/-- `ReceiverOp::process` up to the DAVE check; the inner `none` is a packet it
drops. -/
def openRtpChecked (sodium : Sodium) (crypto : VoiceCrypto) (bytes : Bytes) :
    Option (Option MediaPacket) :=
  if bytes.length < rtpHeaderSize then some none
  else do
    let b0 : UInt8 ← bytes[0]?
    if (b0 >>> 6) &&& 0x03 ≠ 2 then some none
    else
      let b1 : UInt8 ← bytes[1]?
      if b1 &&& 0x7F ≠ 120 then some none
      else
        let padding : Bool := b0 &&& 0x20 ≠ 0
        let extension : Bool := b0 &&& 0x10 ≠ 0
        let aadLen := 12 + (b0 &&& 0x0F).toNat * 4
        if bytes.length < aadLen then some none
        else if extension then
          if bytes.length < aadLen + 4 then some none
          else
            let lengthBytes ← subspan bytes (aadLen + 2) 2
            decryptMediaChecked sodium crypto bytes padding extension (aadLen + 4)
              (readU16Be lengthBytes)
        else decryptMediaChecked sodium crypto bytes padding extension aadLen 0

/-! ## No access leaves the packet -/

theorem stripRtpPaddingChecked_eq (payload : Bytes) (paddingBitSet : Bool) :
    stripRtpPaddingChecked payload paddingBitSet =
      some (stripRtpPadding payload paddingBitSet) := by
  unfold stripRtpPaddingChecked stripRtpPadding
  cases hlast : payload.getLast? with
  | none =>
      have hnil : payload = [] := List.getLast?_eq_none_iff.mp hlast
      simp [hnil]
  | some last =>
      have hne : payload ≠ [] := by
        rintro rfl
        simp at hlast
      cases paddingBitSet with
      | false => simp
      | true =>
          simp only [hne, or_self, if_false, Option.bind_eq_bind, Option.bind_some,
            Bool.true_eq_false, false_or]
          split
          · rfl
          · next hpad =>
              rw [sub_of_le (by omega), Option.bind_some, first_of_le (by omega)]

theorem VoiceCrypto.decryptRtpChecked_eq (sodium : Sodium) (crypto : VoiceCrypto)
    (header encryptedPayload : Bytes) :
    crypto.decryptRtpChecked sodium header encryptedPayload =
      some (crypto.decryptRtp sodium header encryptedPayload) := by
  unfold decryptRtpChecked decryptRtp
  split
  · rfl
  · next hlen =>
      simp only [tagSize, nonceSize] at hlen ⊢
      have hnonce : (encryptedPayload.drop (encryptedPayload.length - 4)).take 4 =
          encryptedPayload.drop (encryptedPayload.length - 4) :=
        List.take_of_length_le (by rw [List.length_drop]; omega)
      simp only [Option.bind_eq_bind]
      rw [sub_of_le (by omega), Option.bind_some, slice_of_le (by omega), Option.bind_some,
        sub_of_le (by omega), Option.bind_some, first_of_le (by omega), Option.bind_some, hnonce]

theorem loggedNonce_isSome (encryptedPayload : Bytes) :
    ∃ nonce, loggedNonce encryptedPayload = some nonce := by
  unfold loggedNonce
  split
  · next hlen =>
      have hlast : (encryptedPayload.drop (encryptedPayload.length - 4)).length = 4 := by
        rw [List.length_drop]
        omega
      rw [last_of_le hlen, Option.bind_eq_bind, Option.bind_some]
      generalize encryptedPayload.drop (encryptedPayload.length - 4) = last4 at hlast
      match last4, hlast with
      | [n0, n1, n2, n3], _ => exact ⟨[n0, n1, n2, n3], rfl⟩
  · exact ⟨_, rfl⟩

theorem readU16Be_take (bytes : Bytes) : readU16Be (bytes.take 2) = readU16Be bytes := by
  match bytes with
  | [] | [_] | _ :: _ :: _ => rfl

theorem readU32Be_take (bytes : Bytes) : readU32Be (bytes.take 4) = readU32Be bytes := by
  match bytes with
  | [] | [_] | [_, _] | [_, _, _] | _ :: _ :: _ :: _ :: _ => rfl

theorem readMediaChecked_eq {bytes : Bytes} (hlen : rtpHeaderSize ≤ bytes.length)
    (decrypted : Bytes) (padding extension : Bool) (extLenWords : UInt16) :
    readMediaChecked bytes decrypted padding extension extLenWords =
      some (if decrypted.length < (if extension then extLenWords.toNat * 4 else 0) then none
        else some
          { ssrc := readU32Be (bytes.drop 8)
            sequence := readU16Be (bytes.drop 2)
            timestamp := readU32Be (bytes.drop 4)
            mediaPayload := stripRtpPadding
              (decrypted.drop (if extension then extLenWords.toNat * 4 else 0)) padding }) := by
  simp only [rtpHeaderSize] at hlen
  unfold readMediaChecked
  cases extension with
  | false =>
      simp [stripRtpPaddingChecked_eq, subspan_of_le (show 8 + 4 ≤ bytes.length by omega),
        subspan_of_le (show 2 + 2 ≤ bytes.length by omega),
        subspan_of_le (show 4 + 4 ≤ bytes.length by omega), readU16Be_take, readU32Be_take]
  | true =>
      by_cases hext : decrypted.length < extLenWords.toNat * 4
      · simp [hext]
      · have hle : extLenWords.toNat * 4 ≤ decrypted.length := Nat.le_of_not_lt hext
        simp [hext, subspanFrom_of_le hle, stripRtpPaddingChecked_eq,
          subspan_of_le (show 8 + 4 ≤ bytes.length by omega),
          subspan_of_le (show 2 + 2 ≤ bytes.length by omega),
          subspan_of_le (show 4 + 4 ≤ bytes.length by omega), readU16Be_take, readU32Be_take]

theorem decryptMediaChecked_eq (sodium : Sodium) (crypto : VoiceCrypto) {bytes : Bytes}
    (hlen : rtpHeaderSize ≤ bytes.length) (padding extension : Bool) (aadLen : Nat)
    (extLenWords : UInt16) :
    decryptMediaChecked sodium crypto bytes padding extension aadLen extLenWords =
      some (if bytes.length ≤ aadLen then none
        else
          match crypto.decryptRtp sodium (bytes.take aadLen) (bytes.drop aadLen) with
          | none => none
          | some decrypted =>
              if decrypted.length < (if extension then extLenWords.toNat * 4 else 0) then none
              else some
                { ssrc := readU32Be (bytes.drop 8)
                  sequence := readU16Be (bytes.drop 2)
                  timestamp := readU32Be (bytes.drop 4)
                  mediaPayload := stripRtpPadding
                    (decrypted.drop (if extension then extLenWords.toNat * 4 else 0))
                    padding }) := by
  unfold decryptMediaChecked
  split
  · rfl
  · next haad =>
      simp only [Option.bind_eq_bind]
      rw [first_of_le (by omega), Option.bind_some, subspanFrom_of_le (by omega),
        Option.bind_some, VoiceCrypto.decryptRtpChecked_eq, Option.bind_some]
      cases crypto.decryptRtp sodium (bytes.take aadLen) (bytes.drop aadLen) with
      | none =>
          obtain ⟨nonce, hnonce⟩ := loggedNonce_isSome (bytes.drop aadLen)
          simp only [hnonce, Option.bind_some]
      | some decrypted => exact readMediaChecked_eq hlen decrypted padding extension extLenWords

/-- **No access leaves the packet**, whatever its bytes are. -/
theorem openRtpChecked_eq (sodium : Sodium) (crypto : VoiceCrypto) (bytes : Bytes) :
    openRtpChecked sodium crypto bytes = some (openRtp sodium crypto bytes) := by
  by_cases hlen : bytes.length < rtpHeaderSize
  · have hdrop : openRtp sodium crypto bytes = none := by
      unfold openRtp
      split
      · rw [if_pos hlen]
      · rfl
    rw [hdrop, openRtpChecked, if_pos hlen]
  · have hle : rtpHeaderSize ≤ bytes.length := Nat.le_of_not_lt hlen
    obtain ⟨b0, b1, rest, rfl⟩ : ∃ b0 b1 rest, bytes = b0 :: b1 :: rest := by
      match bytes, hle with
      | b0 :: b1 :: rest, _ => exact ⟨b0, b1, rest, rfl⟩
    simp only [openRtpChecked, openRtp, if_neg hlen, List.getElem?_cons_zero,
      List.getElem?_cons_succ, Option.bind_eq_bind, Option.bind_some]
    split
    · rfl
    · split
      · rfl
      · split
        · rfl
        · next hfixed =>
            cases hext : decide (b0 &&& 0x10 ≠ 0) with
            | false =>
                simp only [Bool.false_eq_true, if_false, false_and]
                exact decryptMediaChecked_eq sodium crypto hle _ _ _ _
            | true =>
                simp only [if_true, true_and]
                split
                · rfl
                · next hpreamble =>
                    rw [subspan_of_le (by omega), Option.bind_some, readU16Be_take]
                    exact decryptMediaChecked_eq sodium crypto hle _ _ _ _

/-! ## Reading back what was written -/

private theorem shift_or_byte (x : Nat) {y : Nat} (hy : y < 256) :
    x <<< 8 ||| y = x * 256 + y := by
  rw [← Nat.shiftLeft_add_eq_or_of_lt (i := 8) hy, Nat.shiftLeft_eq]

theorem readU16Be_append (v : UInt16) (rest : Bytes) : readU16Be (u16Be v ++ rest) = v := by
  have hlt := v.toNat_lt
  have hhigh : ((v >>> 8).toUInt8.toUInt16 <<< 8).toNat = (v.toNat / 2 ^ 8) <<< 8 := by
    simp [Nat.shiftRight_eq_div_pow, Nat.shiftLeft_eq]
    omega
  have hlow : v.toUInt8.toUInt16.toNat = v.toNat % 256 := by simp
  apply UInt16.toNat_inj.mp
  simp only [readU16Be, u16Be, List.cons_append, UInt16.toNat_or, hhigh, hlow]
  rw [shift_or_byte _ (Nat.mod_lt _ (by decide))]
  omega

theorem readU32Be_append (v : UInt32) (rest : Bytes) : readU32Be (u32Be v ++ rest) = v := by
  have hlt := v.toNat_lt
  have h₃ : ((v >>> 24).toUInt8.toUInt32 <<< 24).toNat = (v.toNat / 2 ^ 24) <<< 24 := by
    simp [Nat.shiftRight_eq_div_pow, Nat.shiftLeft_eq]
    omega
  have h₂ : ((v >>> 16).toUInt8.toUInt32 <<< 16).toNat = (v.toNat / 2 ^ 16 % 256) <<< 16 := by
    simp [Nat.shiftRight_eq_div_pow, Nat.shiftLeft_eq]
    omega
  have h₁ : ((v >>> 8).toUInt8.toUInt32 <<< 8).toNat = (v.toNat / 2 ^ 8 % 256) <<< 8 := by
    simp [Nat.shiftRight_eq_div_pow, Nat.shiftLeft_eq]
    omega
  have h₀ : v.toUInt8.toUInt32.toNat = v.toNat % 256 := by simp
  have hnest (a b c d : Nat) : a <<< 24 ||| b <<< 16 ||| c <<< 8 ||| d =
      ((a <<< 8 ||| b) <<< 8 ||| c) <<< 8 ||| d := by
    simp only [Nat.shiftLeft_or_distrib, ← Nat.shiftLeft_add]
  apply UInt32.toNat_inj.mp
  simp only [readU32Be, u32Be, List.cons_append, UInt32.toNat_or, h₃, h₂, h₁, h₀]
  rw [hnest, shift_or_byte _ (Nat.mod_lt _ (by decide)),
    shift_or_byte _ (Nat.mod_lt _ (by decide)), shift_or_byte _ (Nat.mod_lt _ (by decide))]
  omega

@[simp] theorem u16Be_length (v : UInt16) : (u16Be v).length = 2 := rfl

@[simp] theorem u32Be_length (v : UInt32) : (u32Be v).length = 4 := rfl

theorem wordBytes_length (words : List UInt32) : (wordBytes words).length = words.length * 4 := by
  induction words with
  | nil => rfl
  | cons word words ih =>
      rw [wordBytes, List.flatMap_cons, List.length_append, ← wordBytes, ih]
      simp only [u32Be_length, List.length_cons]
      omega

/-- Padding is stripped to the byte. -/
theorem stripRtpPadding_bytes (payload : Bytes) (padding : Padding) :
    stripRtpPadding (payload ++ padding.bytes) true = payload := by
  have hlt := padding.length_lt
  have hlast : (payload ++ padding.bytes).getLast? =
      some (UInt8.ofNat (padding.filler.length + 1)) := by
    rw [Padding.bytes, ← List.append_assoc, List.getLast?_concat]
  have hpad : (UInt8.ofNat (padding.filler.length + 1)).toNat = padding.filler.length + 1 := by
    rw [UInt8.toNat_ofNat']
    omega
  have hlen : padding.bytes.length = padding.filler.length + 1 := by
    simp [Padding.bytes]
  have hkeep : ¬ (true = false ∨ padding.filler.length + 1 = 0 ∨
      (payload ++ padding.bytes).length < padding.filler.length + 1) := by
    rw [List.length_append, hlen]
    rintro (h | h | h)
    · cases h
    · omega
    · omega
  rw [stripRtpPadding, hlast]
  simp only [hpad]
  rw [if_neg hkeep, List.length_append, hlen, Nat.add_sub_cancel_right, List.take_left]

theorem stripRtpPadding_false (payload : Bytes) : stripRtpPadding payload false = payload := by
  unfold stripRtpPadding
  split
  · rfl
  · simp

/-! ## Opening a datagram -/

namespace RtpPacket

/-- The bits of the first byte. -/
private theorem firstByte_bits : ∀ n < 16, ∀ x : Bool, ∀ p : Bool,
    let b0 : UInt8 := 0x80 ||| (if p then 0x20 else 0) ||| (if x then 0x10 else 0) ||| n.toUInt8
    (b0 >>> 6) &&& 0x03 = 2 ∧ decide (b0 &&& 0x20 ≠ 0) = p ∧ decide (b0 &&& 0x10 ≠ 0) = x ∧
      (b0 &&& 0x0F).toNat = n := by
  decide +kernel

theorem firstByte_spec (p : RtpPacket) :
    (p.firstByte >>> 6) &&& 0x03 = 2 ∧
      decide (p.firstByte &&& 0x20 ≠ 0) = p.padding.isSome ∧
      decide (p.firstByte &&& 0x10 ≠ 0) = p.extension.isSome ∧
      (p.firstByte &&& 0x0F).toNat = p.csrcs.length :=
  firstByte_bits p.csrcs.length (Nat.lt_succ_of_le p.csrcs_le) p.extension.isSome
    p.padding.isSome

theorem secondByte_spec (p : RtpPacket) : p.secondByte &&& 0x7F = 120 := by
  unfold secondByte
  cases p.marker <;> decide

theorem fixedHeader_length (p : RtpPacket) : p.fixedHeader.length = 12 + p.csrcs.length * 4 := by
  simp only [fixedHeader, List.length_append, wordBytes_length, u16Be_length, u32Be_length,
    List.length_cons, List.length_nil]

theorem preamble_length (p : RtpPacket) :
    p.preamble.length = if p.extension.isSome then 4 else 0 := by
  unfold preamble
  cases p.extension with
  | none => rfl
  | some extension => rfl

/-- The extension's words are as many as its preamble says. -/
theorem extensionBody_length (p : RtpPacket) (rest : Bytes) :
    p.extensionBody.length = if p.extension.isSome then
      (readU16Be ((p.preamble ++ rest).drop 2)).toNat * 4 else 0 := by
  unfold extensionBody preamble
  cases p.extension with
  | none => rfl
  | some extension =>
      have hcount : extension.words.length.toUInt16.toNat = extension.words.length := by
        have := extension.length_lt
        simp only [Nat.toUInt16, UInt16.toNat_ofNat']
        omega
      have hdrop : (u16Be extension.profile ++ u16Be extension.words.length.toUInt16 ++ rest).drop
          2 = u16Be extension.words.length.toUInt16 ++ rest := rfl
      simp only [Option.isSome_some, if_true, hdrop, readU16Be_append, hcount, wordBytes_length]

/-- What is left of the decrypted bytes is the payload. -/
theorem stripRtpPadding_padded (p : RtpPacket) :
    stripRtpPadding p.padded p.padding.isSome = p.payload := by
  unfold padded
  cases p.padding with
  | none => exact stripRtpPadding_false p.payload
  | some padding => exact stripRtpPadding_bytes p.payload padding

end RtpPacket

namespace VoiceCrypto

variable {sodium : Sodium} {sender receiver : VoiceCrypto}

/-- Both parties have been given the same session description. -/
structure Shares (sender receiver : VoiceCrypto) : Prop where
  mode : sender.mode = receiver.mode
  key : sender.key = receiver.key
  key_length : receiver.key.length = 32

/-- Either cipher decrypts what it has encrypted. -/
theorem aeadDecrypt_aeadEncrypt (hsodium : sodium.Correct) (hshares : Shares sender receiver)
    {nonce : UInt32} {header payload ciphertext : Bytes}
    (h : sender.aeadEncrypt sodium (u32Be nonce) header payload = some ciphertext) :
    ciphertext.length = payload.length + tagSize ∧
      receiver.aeadDecrypt sodium (u32Be nonce) header ciphertext = some payload := by
  unfold aeadEncrypt at h
  unfold aeadDecrypt
  rw [hshares.mode, hshares.key] at h
  cases hmode : receiver.mode with
  | xchacha20Poly1305Rtpsize =>
      rw [hmode] at h
      exact hsodium.xchacha20 _ _ _ _ _ hshares.key_length (by simp [iv]) h
  | aes256GcmRtpsize =>
      rw [hmode] at h
      exact hsodium.aes256Gcm _ _ _ _ _ hshares.key_length (by simp [iv]) h

theorem decryptRtp_append {header ciphertext : Bytes} (nonce : UInt32)
    (hlen : tagSize ≤ ciphertext.length) :
    receiver.decryptRtp sodium header (ciphertext ++ u32Be nonce) =
      receiver.aeadDecrypt sodium (u32Be nonce) header ciphertext := by
  have hfit : ¬ (ciphertext ++ u32Be nonce).length < tagSize + nonceSize := by
    simp only [List.length_append, u32Be_length, nonceSize]
    omega
  have hsplit : (ciphertext ++ u32Be nonce).length - nonceSize = ciphertext.length := by
    simp [nonceSize]
  rw [decryptRtp, if_neg hfit]
  simp only [hsplit, List.drop_left, List.take_left]

end VoiceCrypto

/-- **Receiving undoes building**: a datagram opens to the payload of its
packet. -/
theorem openRtp_datagram {sodium : Sodium} (hsodium : sodium.Correct)
    {sender receiver : VoiceCrypto} (hshares : VoiceCrypto.Shares sender receiver)
    {p : RtpPacket} {nonce : UInt32} {bytes : Bytes}
    (h : p.datagram sodium sender nonce = some bytes) :
    openRtp sodium receiver bytes = some p.media := by
  obtain ⟨ciphertext, hencrypt, rfl⟩ := Option.map_eq_some_iff.mp h
  obtain ⟨hlen, hdecrypt⟩ := VoiceCrypto.aeadDecrypt_aeadEncrypt hsodium hshares hencrypt
  simp only [VoiceCrypto.tagSize] at hlen
  obtain ⟨hversion, hpadding, hextension, hcount⟩ := p.firstByte_spec
  -- where the parts of the datagram start
  have hheader : p.header.length =
      if p.extension.isSome then 12 + p.csrcs.length * 4 + 4 else 12 + p.csrcs.length * 4 := by
    rw [RtpPacket.header, List.length_append, p.fixedHeader_length, p.preamble_length]
    split <;> rfl
  have hsize : (p.header ++ ciphertext ++ u32Be nonce).length =
      p.header.length + ciphertext.length + 4 := by
    simp only [List.length_append, u32Be_length]
  have hpreamble : (p.header ++ ciphertext ++ u32Be nonce).drop (12 + p.csrcs.length * 4 + 2) =
      (p.preamble ++ (ciphertext ++ u32Be nonce)).drop 2 := by
    rw [RtpPacket.header, ← p.fixedHeader_length, ← List.drop_drop, List.append_assoc,
      List.append_assoc, List.drop_left]
  have haad : (p.header ++ ciphertext ++ u32Be nonce).take p.header.length = p.header := by
    rw [List.append_assoc, List.take_left]
  have hrest : (p.header ++ ciphertext ++ u32Be nonce).drop p.header.length =
      ciphertext ++ u32Be nonce := by
    rw [List.append_assoc, List.drop_left]
  have hopen : receiver.decryptRtp sodium p.header (ciphertext ++ u32Be nonce) = some p.body := by
    rw [VoiceCrypto.decryptRtp_append nonce (by simp only [VoiceCrypto.tagSize]; omega), hdecrypt]
  have hbody := p.extensionBody_length (ciphertext ++ u32Be nonce)
  generalize hbytes : p.header ++ ciphertext ++ u32Be nonce = bytes at *
  obtain ⟨rest, hcons, hsequence, htimestamp, hssrc⟩ : ∃ rest,
      bytes = p.firstByte :: p.secondByte :: rest ∧ readU16Be (bytes.drop 2) = p.sequence ∧
        readU32Be (bytes.drop 4) = p.timestamp ∧ readU32Be (bytes.drop 8) = p.ssrc := by
    subst hbytes
    refine ⟨_, rfl, ?_, ?_, ?_⟩
    · exact readU16Be_append p.sequence _
    · exact readU32Be_append p.timestamp _
    · exact readU32Be_append p.ssrc _
  unfold openRtp
  split
  · simp only [List.cons.injEq] at hcons
    obtain ⟨rfl, rfl, -⟩ := hcons
    have hall : 12 + p.csrcs.length * 4 ≤ p.header.length := by
      rw [hheader]
      split <;> omega
    rw [if_neg (by rw [hsize, rtpHeaderSize]; omega), if_neg (by simp [hversion]),
      if_neg (by simp [p.secondByte_spec])]
    simp only [hpadding, hextension, hcount]
    rw [if_neg (by omega), if_neg (by rintro ⟨hsome, hshort⟩; rw [if_pos hsome] at hheader; omega),
      ← hheader, if_neg (by omega), haad, hrest, hopen]
    have hwords : (if p.extension.isSome then (if p.extension.isSome then
          readU16Be ((p.preamble ++ (ciphertext ++ u32Be nonce)).drop 2) else 0).toNat * 4
        else 0) = p.extensionBody.length := by
      rw [hbody]
      split <;> rfl
    simp only [hpreamble, hwords]
    rw [if_neg (by simp [RtpPacket.body]), RtpPacket.body, List.drop_left,
      p.stripRtpPadding_padded, hsequence, htimestamp, hssrc, RtpPacket.media]
  · next hno => exact absurd hcons (hno _ _ _)

/-! ## The datagrams of a sender -/

namespace Connection

variable {W : Setting} {H : Type}

/-- The packet `send` builds around a payload. -/
def rtpPacket (c : Connection W H) (payload : Bytes) : RtpPacket where
  marker := false
  sequence := c.rtpSequence
  timestamp := c.rtpTimestamp
  ssrc := c.ssrc
  csrcs := []
  csrcs_le := Nat.zero_le _
  extension := none
  payload
  padding := none

theorem sealed_eq (c : Connection W H) (payload : Bytes) :
    c.sealed payload = (c.rtpPacket payload).datagram W.sodium c.crypto c.crypto.nonce := by
  have hheader : (c.rtpPacket payload).header = c.rtpHeader := by
    simp [RtpPacket.header, RtpPacket.fixedHeader, RtpPacket.preamble, RtpPacket.firstByte,
      RtpPacket.secondByte, rtpPacket, rtpHeader, wordBytes]
  have hbody : (c.rtpPacket payload).body = payload := rfl
  rw [RtpPacket.datagram, hheader, hbody]
  rfl

variable [HashRatchet H]

/-! ## What becomes of a datagram -/

/-- **`process` returns** on every datagram. -/
theorem process_isSome (c : Connection W H) (clock : DecryptClock) (data : Bytes) :
    (c.process clock data).isSome = true := by
  unfold process
  split
  · rfl
  · next m _ =>
      split
      · rfl
      · split
        · rfl
        · split
          · rfl
          · split
            · rfl
            · split
              · rfl
              · next decryptor _ =>
                  have hroom : m.mediaPayload.length ≤
                      (List.replicate m.mediaPayload.length (0 : UInt8)).length := by simp
                  obtain ⟨call, hcall⟩ :=
                    Decryptor.decrypt_isSome W.gcm decryptor .audio clock hroom
                  rw [decryptFrame, hcall, Option.bind_eq_bind, Option.bind_some]
                  split <;> rfl

/-- Without DAVE an opened packet is forwarded as it is. -/
theorem process_of_openRtp {c : Connection W H} (hplain : c.receiverDave = none)
    (clock : DecryptClock) {data : Bytes} {m : MediaPacket}
    (hopen : openRtp W.sodium c.crypto data = some m) :
    c.process clock data =
      some (c, some (m.toPacket m.mediaPayload (c.ssrcToUserId.lookup m.ssrc))) := by
  rw [process, hopen]
  simp only [hplain]

/-- **Receiving undoes building.**  Without DAVE, `process` delivers one packet
with the payload of every well-formed packet that was sealed with the session's
key, also of every packet that a sender builds; and on no bytes, with DAVE or
without, does it leave the datagram. -/
theorem process_datagram (hsodium : W.sodium.Correct) {c : Connection W H}
    (hplain : c.receiverDave = none) :
    (∀ (sender : VoiceCrypto) (p : RtpPacket) (nonce : UInt32) (bytes : Bytes)
        (clock : DecryptClock), sender.Shares c.crypto →
      p.datagram W.sodium sender nonce = some bytes →
        c.process clock bytes = some (c, some
          { sequence := p.sequence, timestamp := p.timestamp, ssrc := p.ssrc, opus := p.payload
            userId := c.ssrcToUserId.lookup p.ssrc })) ∧
    (∀ (sender : Connection W H) (packet : AudioPacket) (payload bytes : Bytes)
        (clock : DecryptClock), sender.crypto.Shares c.crypto →
      sender.sentPayload packet = some payload → sender.sealed payload = some bytes →
        c.process clock bytes = some (c, some
          { sequence := sender.rtpSequence, timestamp := sender.rtpTimestamp
            ssrc := sender.ssrc, opus := payload
            userId := c.ssrcToUserId.lookup sender.ssrc })) ∧
    ∀ (receiver : Connection W H) (clock : DecryptClock) (bytes : Bytes),
      openRtpChecked W.sodium receiver.crypto bytes =
          some (openRtp W.sodium receiver.crypto bytes) ∧
        (receiver.process clock bytes).isSome = true := by
  refine ⟨?_, ?_, ?_⟩
  · intro sender p nonce bytes clock hshares hbytes
    exact process_of_openRtp hplain clock (openRtp_datagram hsodium hshares hbytes)
  · intro sender packet payload bytes clock hshares _ hbytes
    rw [sealed_eq] at hbytes
    exact process_of_openRtp hplain clock (openRtp_datagram hsodium hshares hbytes)
  · intro receiver clock bytes
    exact ⟨openRtpChecked_eq W.sodium receiver.crypto bytes, receiver.process_isSome clock bytes⟩

end Connection

/-! ## A packet that was sent -/

private theorem packetVectors_spec : ∀ v ∈ packetVectors,
    v.ciphertext.length = v.plaintext.length + 16 ∧ untagged v.ciphertext = none := by
  decide +kernel

private theorem packetVectors_injective : ∀ v ∈ packetVectors, ∀ w ∈ packetVectors,
    v.ciphertext = w.ciphertext → v.plaintext = w.plaintext := by
  decide +kernel

theorem referenceSodium_correct : referenceSodium.Correct := by
  constructor
  · intro key iv additionalData plaintext ciphertext _ _ h
    obtain rfl := Option.some.inj h
    exact ⟨by simp [zeroTagged, VoiceCrypto.tagSize], untagged_zeroTagged plaintext⟩
  · intro key iv additionalData plaintext ciphertext _ _ h
    simp only [referenceSodium] at h ⊢
    split at h
    · next v hfind =>
        obtain rfl := Option.some.inj h
        have hmem := List.mem_of_find?_eq_some hfind
        have hinput := List.find?_some hfind
        simp only [decide_eq_true_eq] at hinput
        obtain ⟨hkey, hdata, hiv, rfl⟩ := hinput
        refine ⟨(packetVectors_spec v hmem).1, ?_⟩
        split
        · next w hout =>
            have houtput := List.find?_some hout
            simp only [decide_eq_true_eq] at houtput
            rw [packetVectors_injective w (List.mem_of_find?_eq_some hout) v hmem
              houtput.2.2.2]
        · next hout =>
            have hnone := List.find?_eq_none.mp hout v hmem
            simp only [decide_eq_true_eq] at hnone
            exact absurd ⟨hkey, hdata, hiv, trivial⟩ hnone
    · obtain rfl := Option.some.inj h
      refine ⟨by simp [zeroTagged, VoiceCrypto.tagSize], ?_⟩
      split
      · next w hout =>
          have houtput := List.find?_some hout
          simp only [decide_eq_true_eq] at houtput
          have hnone := (packetVectors_spec w (List.mem_of_find?_eq_some hout)).2
          rw [houtput.2.2.2, untagged_zeroTagged] at hnone
          exact absurd hnone (Option.some_ne_none _)
      · exact untagged_zeroTagged plaintext

/-- A connection with the session's key, about to use the given nonce. -/
def vectorConnection (nonce : UInt32) : Connection (referenceSetting 7) Chain :=
  { crypto := { key := transportKey, nonce }
    udp := true
    ssrc := 9
    rtpSequence := 1
    rtpTimestamp := 960 }

/-- All readings of the clock are `referenceInstant`. -/
def vectorClock : DecryptClock where
  expired _ := referenceInstant
  now := referenceInstant
  attempt _ := ⟨referenceInstant, referenceInstant, referenceInstant, referenceInstant⟩

/-- `audioFrame` is sent with nonce 1 and delivered. -/
theorem process_plainDatagram :
    ∃ c, (vectorConnection 0).process vectorClock plainDatagram =
      some (c, some ⟨1, 960, 9, audioFrame, none⟩) := by
  obtain ⟨-, hsender, -⟩ := Connection.process_datagram (W := referenceSetting 7) (H := Chain)
    (c := vectorConnection 0) referenceSodium_correct rfl
  exact ⟨_, hsender (vectorConnection 1) ⟨audioFrame, 960⟩ audioFrame plainDatagram vectorClock
    ⟨rfl, rfl, by decide⟩ rfl (by decide +kernel)⟩

end Ekizu.Voice
