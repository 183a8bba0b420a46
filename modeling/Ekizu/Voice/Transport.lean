import Ekizu.Dave.Common

/-!
# Transport encryption and RTP

`src/voice/voice_crypto.cpp`, the readers of `voice_util.hpp` and the first
half of `ReceiverOp::process` in `voice_receiver.cpp`, from the datagram to the
media payload.  libsodium is another package and a parameter.
-/

namespace Ekizu.Voice

open Dave

/-- The AEAD functions of libsodium; `none` is a return code other than 0. -/
structure Sodium where
  xchacha20Encrypt : (key iv additionalData plaintext : Bytes) → Option Bytes
  xchacha20Decrypt : (key iv additionalData ciphertext : Bytes) → Option Bytes
  aes256GcmEncrypt : (key iv additionalData plaintext : Bytes) → Option Bytes
  aes256GcmDecrypt : (key iv additionalData ciphertext : Bytes) → Option Bytes

/-- `enum class VoiceTransportMode`. -/
inductive VoiceTransportMode where
  | xchacha20Poly1305Rtpsize
  | aes256GcmRtpsize
  deriving Repr, DecidableEq

/-- `struct VoiceCrypto`. -/
structure VoiceCrypto where
  mode : VoiceTransportMode := .aes256GcmRtpsize
  key : Bytes := []
  nonce : UInt32 := 0
  deriving Repr, DecidableEq

/-- `put_u32_be`. -/
def u32Be (v : UInt32) : Bytes :=
  [(v >>> 24).toUInt8, (v >>> 16).toUInt8, (v >>> 8).toUInt8, v.toUInt8]

/-- `put_be` on a `uint16_t`. -/
def u16Be (v : UInt16) : Bytes := [(v >>> 8).toUInt8, v.toUInt8]

/-- `read_u16be`; a short input reads as 0. -/
def readU16Be : Bytes → UInt16
  | a :: b :: _ => a.toUInt16 <<< 8 ||| b.toUInt16
  | _ => 0

/-- `read_u32be`. -/
def readU32Be : Bytes → UInt32
  | a :: b :: c :: d :: _ =>
      a.toUInt32 <<< 24 ||| b.toUInt32 <<< 16 ||| c.toUInt32 <<< 8 ||| d.toUInt32
  | _ => 0

/-- `RTP_HEADER_SIZE`. -/
def rtpHeaderSize : Nat := 12

namespace VoiceCrypto

/-- The tag size of both ciphers. -/
def tagSize : Nat := 16

/-- `NONCE_SIZE`. -/
def nonceSize : Nat := 4

/-- The nonce of a cipher: four bytes from the packet, then zeros. -/
def iv (mode : VoiceTransportMode) (nonceBytes : Bytes) : Bytes :=
  match mode with
  | .xchacha20Poly1305Rtpsize => nonceBytes ++ List.replicate 20 0
  | .aes256GcmRtpsize => nonceBytes ++ List.replicate 8 0

/-- The AEAD encryption of the mode. -/
def aeadEncrypt (sodium : Sodium) (crypto : VoiceCrypto) (nonceBytes header payload : Bytes) :
    Option Bytes :=
  match crypto.mode with
  | .xchacha20Poly1305Rtpsize =>
      sodium.xchacha20Encrypt crypto.key (iv crypto.mode nonceBytes) header payload
  | .aes256GcmRtpsize =>
      sodium.aes256GcmEncrypt crypto.key (iv crypto.mode nonceBytes) header payload

/-- The AEAD decryption of the mode. -/
def aeadDecrypt (sodium : Sodium) (crypto : VoiceCrypto)
    (nonceBytes header ciphertext : Bytes) : Option Bytes :=
  match crypto.mode with
  | .xchacha20Poly1305Rtpsize =>
      sodium.xchacha20Decrypt crypto.key (iv crypto.mode nonceBytes) header ciphertext
  | .aes256GcmRtpsize =>
      sodium.aes256GcmDecrypt crypto.key (iv crypto.mode nonceBytes) header ciphertext

/-- `VoiceCrypto::encrypt_rtp`; the counter advances before anything can fail. -/
def encryptRtp (sodium : Sodium) (crypto : VoiceCrypto) (header payload : Bytes) :
    VoiceCrypto × Option Bytes :=
  let nonceBytes := u32Be crypto.nonce
  ({ crypto with nonce := crypto.nonce + 1 },
    (crypto.aeadEncrypt sodium nonceBytes header payload).map fun ciphertext =>
      header ++ ciphertext ++ nonceBytes)

/-- `VoiceCrypto::decrypt_rtp`. -/
def decryptRtp (sodium : Sodium) (crypto : VoiceCrypto) (header encryptedPayload : Bytes) :
    Option Bytes :=
  if encryptedPayload.length < tagSize + nonceSize then none
  else
    let ciphertextLen := encryptedPayload.length - nonceSize
    crypto.aeadDecrypt sodium (encryptedPayload.drop ciphertextLen) header
      (encryptedPayload.take ciphertextLen)

end VoiceCrypto

/-- `strip_rtp_padding`. -/
def stripRtpPadding (payload : Bytes) (paddingBitSet : Bool) : Bytes :=
  match payload.getLast? with
  | none => payload
  | some last =>
      let pad := last.toNat
      if paddingBitSet = false ∨ pad = 0 ∨ payload.length < pad then payload
      else payload.take (payload.length - pad)

/-- What `ReceiverOp::process` has found out when it comes to DAVE. -/
structure MediaPacket where
  ssrc : UInt32
  sequence : UInt16
  timestamp : UInt32
  mediaPayload : Bytes
  deriving Repr, DecidableEq

/-- `ReceiverOp::process` up to the DAVE check; `none` is a packet it drops. -/
def openRtp (sodium : Sodium) (crypto : VoiceCrypto) (bytes : Bytes) : Option MediaPacket :=
  match bytes with
  | b0 :: b1 :: _ =>
      if bytes.length < rtpHeaderSize then none
      else if (b0 >>> 6) &&& 0x03 ≠ 2 then none
      else if b1 &&& 0x7F ≠ 120 then none
      else
        let padding : Bool := b0 &&& 0x20 ≠ 0
        let extension : Bool := b0 &&& 0x10 ≠ 0
        let fixedLen := 12 + (b0 &&& 0x0F).toNat * 4
        let aadLen := if extension then fixedLen + 4 else fixedLen
        let extLenWords := if extension then readU16Be (bytes.drop (fixedLen + 2)) else 0
        if bytes.length < fixedLen then none
        else if extension ∧ bytes.length < fixedLen + 4 then none
        else if bytes.length ≤ aadLen then none
        else
          match crypto.decryptRtp sodium (bytes.take aadLen) (bytes.drop aadLen) with
          | none => none
          | some decrypted =>
              let extBytes := if extension then extLenWords.toNat * 4 else 0
              if decrypted.length < extBytes then none
              else
                some {
                  ssrc := readU32Be (bytes.drop 8)
                  sequence := readU16Be (bytes.drop 2)
                  timestamp := readU32Be (bytes.drop 4)
                  mediaPayload := stripRtpPadding (decrypted.drop extBytes) padding }
  | _ => none

end Ekizu.Voice
