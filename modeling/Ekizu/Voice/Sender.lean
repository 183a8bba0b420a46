import Ekizu.Voice.Connection

/-!
# The sender

`SenderOp::send` of `voice_sender.cpp`, without its pacing.
-/

namespace Ekizu.Voice

open Dave

/-- `struct AudioPacket`. -/
structure AudioPacket where
  encoded : Bytes
  frameCount : Nat
  deriving Repr, DecidableEq

namespace Connection

variable {W : Setting} {H : Type}

/-- `dave_enabled` of the sender: the DAVE state, when frames are encrypted. -/
def senderDave (c : Connection W H) : Option (DaveState W H) :=
  c.dave.filter fun d =>
    d.encryptor.passthroughMode = false ∧ d.encryptor.hasKeyRatchet = true

/-- `maintain_sync`, and the frame is no longer pending. -/
def maintainSync (c : Connection W H) (frameCount : Nat) : Connection W H :=
  { c with
    pendingFrames := c.pendingFrames - 1
    rtpSequence := c.rtpSequence + 1
    rtpTimestamp := c.rtpTimestamp + UInt32.ofNat frameCount }

/-- The RTP header of the next packet. -/
def rtpHeader (c : Connection W H) : Bytes :=
  [0x80, 0x78] ++ u16Be c.rtpSequence ++ u32Be c.rtpTimestamp ++ u32Be c.ssrc

/-- `send` from the RTP header on: the datagram is handed to the socket, which
completes later. -/
def transmit (c : Connection W H) (payload : Bytes) (frameCount : Nat) : Connection W H :=
  let (crypto, datagram) := c.crypto.encryptRtp W.sodium c.rtpHeader payload
  let c := { c with crypto }
  match datagram with
  | none => c.maintainSync frameCount
  | some _ => { c with datagrams := c.datagrams ++ [frameCount] }

/-- The key and the nonce of the frame an encryptor has just encrypted. -/
def usedPair (e : Encryptor H) : Option (Bytes × Bytes) :=
  e.cryptor.map fun cryptor => (cryptor.key, nonceBuffer e.truncatedNonce)

variable [HashRatchet H]

/-- `SenderOp::send`. -/
def send (c : Connection W H) (packet : AudioPacket) : Option (Connection W H) :=
  if c.udp = false then some { c with pendingFrames := c.pendingFrames - 1 }
  else
    match c.senderDave with
    | none => some (c.transmit packet.encoded packet.frameCount)
    | some d => do
        let maxSize := Encryptor.getMaxCiphertextByteSize .audio packet.encoded.length
        let (encryptor, result) ← d.encryptor.encrypt W.gcm .audio c.ssrc packet.encoded
          (List.replicate maxSize 0)
        let c := c.setDave { d with encryptor }
        match result with
        | .error _ => some ((c.did (.encrypted none)).maintainSync packet.frameCount)
        | .ok (n, ciphertext) =>
            some ((c.did (.encrypted (usedPair encryptor))).transmit (ciphertext.take n)
              packet.frameCount)

end Connection

end Ekizu.Voice
