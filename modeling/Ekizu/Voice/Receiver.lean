import Ekizu.Voice.Connection

/-!
# The receiver

`ReceiverOp::process` of `voice_receiver.cpp` from the DAVE check on.

## Main results

* `process_cases` — the ways a packet ends: dropped, forwarded as it came,
  reported as silence, or given to the decryptor of its sender.
-/

namespace Ekizu.Voice

open Dave

/-- `struct Packet`.  The user id is the text it was received as. -/
structure Packet where
  sequence : UInt16
  timestamp : UInt32
  ssrc : UInt32
  opus : Bytes
  userId : Option Bytes
  deriving Repr, DecidableEq

/-- `SILENCE_FRAME`. -/
def silenceFrame : Bytes := [0xF8, 0xFF, 0xFE]

/-- `min_dave_frame_size`. -/
def minDaveFrameSize : Nat := 44

/-- The packet for a media packet. -/
def MediaPacket.toPacket (m : MediaPacket) (opus : Bytes) (userId : Option Bytes) : Packet :=
  { sequence := m.sequence, timestamp := m.timestamp, ssrc := m.ssrc, opus, userId }

namespace Connection

variable {W : Setting} {H : Type}

/-- `dave_enabled` of the receiver: the DAVE state, when packets go through it. -/
def receiverDave (c : Connection W H) : Option (DaveState W H) :=
  c.dave.filter fun d => d.protocolVersion ≠ 0 ∧ d.decryptors.keys ≠ []

variable [HashRatchet H]

/-- Decrypt a user's frame and deliver it. -/
def decryptFrame (c : Connection W H) (d : DaveState W H) (m : MediaPacket) (userId : Bytes)
    (decryptor : Decryptor H) (clock : DecryptClock) :
    Option (Connection W H × Option Packet) := do
  let call ← decryptor.decrypt W.gcm .audio clock m.mediaPayload
    (List.replicate m.mediaPayload.length 0)
  let d := { d with decryptors := d.decryptors.insert userId call.decryptor }
  match call.result with
  | none => some (c.setDave d, none)
  | some written =>
      some ((c.setDave { d with doneReady := true }).did (.delivered userId m.mediaPayload),
        some (m.toPacket (call.output.take written) (some userId)))

/-- `ReceiverOp::process`: the packet it hands to the channel, if any. -/
def process (c : Connection W H) (clock : DecryptClock) (data : Bytes) :
    Option (Connection W H × Option Packet) :=
  match openRtp W.sodium c.crypto data with
  | none => some (c, none)
  | some m =>
      match c.receiverDave with
      | none => some (c, some (m.toPacket m.mediaPayload (c.ssrcToUserId.lookup m.ssrc)))
      | some d =>
          match c.ssrcToUserId.lookup m.ssrc with
          | none => some (c, none)
          | some userId =>
              if m.mediaPayload = silenceFrame then
                some (c, some (m.toPacket [] (some userId)))
              else if m.mediaPayload.length < minDaveFrameSize then some (c, none)
              else
                match d.decryptors.lookup userId with
                | none => some (c, none)
                | some decryptor => c.decryptFrame d m userId decryptor clock

/-- A datagram arrives: it is processed, and the receiver waits for the next
one unless it was stopped. -/
def receive (c : Connection W H) (clock : DecryptClock) (data : Bytes) :
    Option (Connection W H) := do
  let (c, packet) ← c.process clock data
  if packet.isSome ∧ c.recvChan = false then none
  else some (if c.udp ∧ c.receiverRunning then c else { c with receivers := c.receivers - 1 })

/-! ## What happens to a packet -/

section Cases

variable {c c' : Connection W H} {clock : DecryptClock} {data : Bytes}
  {packet : Option Packet}

/-- The frame of a packet went to the decryptor of its sender. -/
structure Decrypts (c : Connection W H) (clock : DecryptClock) (data : Bytes)
    (d : DaveState W H) (m : MediaPacket) (userId : Bytes) (decryptor : Decryptor H)
    (call : Decryption H) : Prop where
  opened : openRtp W.sodium c.crypto data = some m
  enabled : c.receiverDave = some d
  sender : c.ssrcToUserId.lookup m.ssrc = some userId
  notSilence : m.mediaPayload ≠ silenceFrame
  size : minDaveFrameSize ≤ m.mediaPayload.length
  found : d.decryptors.lookup userId = some decryptor
  called : decryptor.decrypt W.gcm .audio clock m.mediaPayload
    (List.replicate m.mediaPayload.length 0) = some call

omit [HashRatchet H] in
theorem receiverDave_eq_some {d : DaveState W H} (h : c.receiverDave = some d) :
    c.dave = some d :=
  (Option.filter_eq_some_iff.mp h).1

/-- **Every packet** is dropped, forwarded without DAVE, reported as silence,
or decrypted. -/
theorem process_cases (h : c.process clock data = some (c', packet)) :
    (c' = c ∧ packet = none) ∨
    (∃ m, openRtp W.sodium c.crypto data = some m ∧ c.receiverDave = none ∧ c' = c ∧
      packet = some (m.toPacket m.mediaPayload (c.ssrcToUserId.lookup m.ssrc))) ∨
    (∃ m userId, openRtp W.sodium c.crypto data = some m ∧ c' = c ∧
      m.mediaPayload = silenceFrame ∧ packet = some (m.toPacket [] (some userId))) ∨
    ∃ d m userId decryptor call, Decrypts c clock data d m userId decryptor call ∧
      ((call.result = none ∧ packet = none ∧ c' = c.setDave
          { d with decryptors := d.decryptors.insert userId call.decryptor }) ∨
        ∃ written, call.result = some written ∧
          packet = some (m.toPacket (call.output.take written) (some userId)) ∧
          c' = (c.setDave { d with
            decryptors := d.decryptors.insert userId call.decryptor
            doneReady := true }).did (.delivered userId m.mediaPayload)) := by
  unfold process at h
  split at h
  · simp only [Option.some.injEq, Prod.mk.injEq] at h
    exact .inl ⟨h.1.symm, h.2.symm⟩
  next m hopen =>
    split at h
    · next hplain =>
        simp only [Option.some.injEq, Prod.mk.injEq] at h
        exact .inr (.inl ⟨m, hopen, hplain, h.1.symm, h.2.symm⟩)
    next d henabled =>
      split at h
      · simp only [Option.some.injEq, Prod.mk.injEq] at h
        exact .inl ⟨h.1.symm, h.2.symm⟩
      next userId hsender =>
        split at h
        · next hsilence =>
            simp only [Option.some.injEq, Prod.mk.injEq] at h
            exact .inr (.inr (.inl ⟨m, userId, hopen, h.1.symm, hsilence, h.2.symm⟩))
        next hsilence =>
          split at h
          · simp only [Option.some.injEq, Prod.mk.injEq] at h
            exact .inl ⟨h.1.symm, h.2.symm⟩
          next hsize =>
            split at h
            · simp only [Option.some.injEq, Prod.mk.injEq] at h
              exact .inl ⟨h.1.symm, h.2.symm⟩
            next decryptor hfound =>
              unfold decryptFrame at h
              obtain ⟨call, hcall, h⟩ := Option.bind_eq_some_iff.mp h
              have hdecrypts : Decrypts c clock data d m userId decryptor call :=
                ⟨hopen, henabled, hsender, hsilence, Nat.le_of_not_lt hsize, hfound, hcall⟩
              refine .inr (.inr (.inr ⟨d, m, userId, decryptor, call, hdecrypts, ?_⟩))
              dsimp only at h
              split at h
              · next hresult =>
                  simp only [Option.some.injEq, Prod.mk.injEq] at h
                  exact .inl ⟨hresult, h.2.symm, h.1.symm⟩
              · next written hresult =>
                  simp only [Option.some.injEq, Prod.mk.injEq] at h
                  exact .inr ⟨written, hresult, h.2.symm, h.1.symm⟩

end Cases

end Connection

end Ekizu.Voice
