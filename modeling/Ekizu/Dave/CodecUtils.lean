import Ekizu.Dave.Leb128
import Ekizu.Lib.Span

/-!
# Splitting frames by codec

`src/dave/codec_utils.cpp`.  A `process_frame_*` function never reads the
processor it is given; all it does to it is a sequence of
`add_unencrypted_bytes` and `add_encrypted_bytes` calls.  Each model below
therefore returns that sequence, as a list of `Piece`s, next to the source's
`bool`.  `none` is an out-of-range access (or, for AV1, a loop that does not
end).

The lengths of the H264 and H265 functions are differences of `std::size_t`s that
may wrap.  What the machine then does is one model, and whether a length wraps
is asked of another, the `Checked` one, which differs from it in nothing but the
subtraction.
-/

namespace Ekizu.Dave

open Lib.Span

/-- One call on the outbound processor, with its argument. -/
inductive Piece where
  | unencrypted (bytes : Bytes)
  | encrypted (bytes : Bytes)
  deriving Repr, DecidableEq

/-! ## Start codes and slice headers -/

/-- `NALU_LONG_START_CODE`. -/
def naluLongStartCode : Bytes := [0, 0, 0, 1]

/-- `NALU_SHORT_START_SEQUENCE_SIZE`. -/
def naluShortStartSequenceSize : Nat := 3

/-- The loop of `next_h26x_nalu_index` at index `i`.  The inner `none` is
`std::nullopt`. -/
def nextH26xNaluIndexLoop (buffer : Bytes) (i : Nat) : Option (Option (Nat × Nat)) :=
  if i + naluShortStartSequenceSize < buffer.length then do
    let b2 ← buffer[i + 2]?
    if b2 > 1 then
      -- the third byte is neither 0 nor 1
      nextH26xNaluIndexLoop buffer (i + naluShortStartSequenceSize)
    else if b2 = 1 then
      let b1 ← buffer[i + 1]?
      let b0 ← buffer[i]?
      if b1 = 0 ∧ b0 = 0 then
        if 1 ≤ i then
          let prev ← buffer[i - 1]?
          if prev = 0 then some (some (i + naluShortStartSequenceSize, 4))
          else some (some (i + naluShortStartSequenceSize, 3))
        else some (some (i + naluShortStartSequenceSize, 3))
      else nextH26xNaluIndexLoop buffer (i + naluShortStartSequenceSize)
    else nextH26xNaluIndexLoop buffer (i + 1)
  else some none
termination_by buffer.length - i
decreasing_by all_goals simp only [naluShortStartSequenceSize] at *; omega

/-- `next_h26x_nalu_index`. -/
def nextH26xNaluIndex (buffer : Bytes) (searchStartIndex : Nat) :
    Option (Option (Nat × Nat)) :=
  if buffer.length < naluShortStartSequenceSize then some none
  else nextH26xNaluIndexLoop buffer searchStartIndex

/-- The loop of `bytes_covering_h264_pps`.  The result is the final
`payload_bit_index`; the inner `none` is the `return 0` on 32 zero bits. -/
def bytesCoveringH264PpsLoop (payload : Bytes)
    (payloadBitIndex zeroBitCount parsedExpGolombValues : Nat) : Option (Option Nat) :=
  if payloadBitIndex < payload.length * 8 ∧ parsedExpGolombValues < 3 then do
    let bitIndex := payloadBitIndex % 8
    let byteIndex := payloadBitIndex / 8
    let payloadByte ← payload[byteIndex]?
    let emulation ←
      if bitIndex = 0 ∧ 2 ≤ byteIndex ∧ payloadByte = 0x03 then do
        let b1 ← payload[byteIndex - 1]?
        let b2 ← payload[byteIndex - 2]?
        pure (decide (b1 = 0 ∧ b2 = 0))
      else pure false
    if emulation then
      bytesCoveringH264PpsLoop payload (payloadBitIndex + 8) zeroBitCount
        parsedExpGolombValues
    else if payloadByte.toNat &&& (1 <<< (7 - bitIndex)) = 0 then
      if 32 ≤ zeroBitCount + 1 then some none
      else
        bytesCoveringH264PpsLoop payload (payloadBitIndex + 1) (zeroBitCount + 1)
          parsedExpGolombValues
    else
      bytesCoveringH264PpsLoop payload (payloadBitIndex + (1 + zeroBitCount)) 0
        (parsedExpGolombValues + 1)
  else some (some payloadBitIndex)
termination_by payload.length * 8 - payloadBitIndex

/-- `bytes_covering_h264_pps`. -/
def bytesCoveringH264Pps (payload : Bytes) : Option Nat := do
  match ← bytesCoveringH264PpsLoop payload 0 0 0 with
  | none => pure 0
  | some payloadBitIndex =>
      let result := payloadBitIndex / 8 + 1
      if 65535 < result then pure 0 else pure result

/-! ## Opus, VP8, VP9 -/

/-- `process_frame_opus`. -/
def processFrameOpus (frame : Bytes) : Option (Bool × List Piece) :=
  some (true, [.encrypted frame])

/-- `process_frame_vp8`: ten clear bytes for a key frame, one for a delta
frame. -/
def processFrameVp8 (frame : Bytes) : Option (Bool × List Piece) := do
  let b0 ← frame[0]?
  let unencryptedHeaderBytes := if b0 &&& 0x01 = 0 then 10 else 1
  let header ← first frame unencryptedHeaderBytes
  let rest ← subspanFrom frame unencryptedHeaderBytes
  pure (true, [.unencrypted header, .encrypted rest])

/-- `process_frame_vp9`. -/
def processFrameVp9 (frame : Bytes) : Option (Bool × List Piece) :=
  some (true, [.encrypted frame])

/-! ## H264 and H265 -/

theorem nextH26xNaluIndexLoop_bounds {buffer : Bytes} {i start size : Nat}
    (h : nextH26xNaluIndexLoop buffer i = some (some (start, size))) :
    i + 3 ≤ start ∧ start < buffer.length := by
  fun_induction nextH26xNaluIndexLoop buffer i with
  | case1 i hlt ih3 ih1 =>
      simp only [naluShortStartSequenceSize] at *
      simp only [Option.bind_eq_bind, Option.bind_eq_some_iff] at h
      obtain ⟨b2, -, h⟩ := h
      split at h
      · have := ih3 h; omega
      · split at h
        · obtain ⟨b1, -, h⟩ := Option.bind_eq_some_iff.mp h
          obtain ⟨b0, -, h⟩ := Option.bind_eq_some_iff.mp h
          split at h
          · split at h
            · obtain ⟨prev, -, h⟩ := Option.bind_eq_some_iff.mp h
              split at h <;> simp at h <;> omega
            · simp at h; omega
          · have := ih3 h; omega
        · have := ih1 h; omega
  | case2 i hge => simp at h

/-- A start code found from `i` on lies behind `i` and inside the buffer. -/
theorem nextH26xNaluIndex_bounds {buffer : Bytes} {i : Nat} (start size : Nat)
    (h : nextH26xNaluIndex buffer i = some (some (start, size))) :
    i + 3 ≤ start ∧ start < buffer.length := by
  unfold nextH26xNaluIndex at h
  split at h
  · simp at h
  · exact nextH26xNaluIndexLoop_bounds h

/-- `next_nalu_start`: where the NAL unit ends.  The start code lies in front of its unit, so
the difference does not wrap. -/
def nextNaluStart (frame : Bytes) (next : Option (Nat × Nat)) : Option Nat :=
  match next with
  | some (start, startCodeSize) => sub start startCodeSize
  | none => some frame.length

section Units

-- how a length is subtracted: as the machine does, or checked
variable (minus : Nat → Nat → Option Nat)

/-- The body of the loop of `process_frame_h264`, for the NAL unit at
`nalUnitStartIndex`. -/
def h264Unit (frame : Bytes) (nalUnitStartIndex : Nat)
    (next : Option (Nat × Nat)) : Option (List Piece) := do
  let header ← frame[nalUnitStartIndex]?
  let nalType := header &&& 0x1F
  let naluEnd ← nextNaluStart frame next
  if nalType = 1 ∨ nalType = 5 then
    let payloadStart := nalUnitStartIndex + 1
    let ppsBytes ← bytesCoveringH264Pps (frame.drop payloadStart)
    let clear ← subspan frame nalUnitStartIndex (1 + ppsBytes)
    -- a wrapped difference may be the length that asks for the rest of the frame
    let size ← minus naluEnd (nalUnitStartIndex + 1 + ppsBytes)
    let secret ← subspan frame (nalUnitStartIndex + 1 + ppsBytes) size
    pure [.unencrypted naluLongStartCode, .unencrypted clear, .encrypted secret]
  else
    let size ← minus naluEnd nalUnitStartIndex
    let whole ← subspan frame nalUnitStartIndex size
    pure [.unencrypted naluLongStartCode, .unencrypted whole]

/-- The body of the loop of `process_frame_h265`. -/
def h265Unit (frame : Bytes) (nalUnitStartIndex : Nat)
    (next : Option (Nat × Nat)) : Option (List Piece) := do
  let header ← frame[nalUnitStartIndex]?
  let nalType := (header &&& 0x7E) >>> 1
  let naluEnd ← nextNaluStart frame next
  if nalType < 32 then
    let clear ← subspan frame nalUnitStartIndex 2
    let size ← minus naluEnd (nalUnitStartIndex + 2)
    let secret ← subspan frame (nalUnitStartIndex + 2) size
    pure [.unencrypted naluLongStartCode, .unencrypted clear, .encrypted secret]
  else
    let size ← minus naluEnd nalUnitStartIndex
    let whole ← subspan frame nalUnitStartIndex size
    pure [.unencrypted naluLongStartCode, .unencrypted whole]

end Units

/-- The loop over the NAL units of a frame, shared by `process_frame_h264` and
`process_frame_h265`; `unit` is its body. -/
def nalUnitLoop (unit : Bytes → Nat → Option (Nat × Nat) → Option (List Piece))
    (frame : Bytes) (naluIndexPair : Option (Nat × Nat)) : Option (List Piece) :=
  match naluIndexPair with
  | none => some []
  | some (nalUnitStartIndex, _) =>
      if nalUnitStartIndex + 1 < frame.length then
        match _hnext : nextH26xNaluIndex frame nalUnitStartIndex with
        | none => none
        | some next => do
            let pieces ← unit frame nalUnitStartIndex next
            let rest ← nalUnitLoop unit frame next
            pure (pieces ++ rest)
      else some []
termination_by (naluIndexPair.map fun p => frame.length + 1 - p.1).getD 0
decreasing_by
  cases next with
  | none => simp only [Option.map_none, Option.map_some, Option.getD_none, Option.getD_some]; omega
  | some p =>
      have := nextH26xNaluIndex_bounds p.1 p.2 _hnext
      simp only [Option.map_some, Option.getD_some]
      omega

/-- `process_frame_h264` and `process_frame_h265`: frames that are too short, and otherwise the
loop from the first start code on. -/
def processFrameH26x (unit : Bytes → Nat → Option (Nat × Nat) → Option (List Piece))
    (nalUnitHeaderSize : Nat) (frame : Bytes) : Option (Bool × List Piece) :=
  if frame.length < naluShortStartSequenceSize + nalUnitHeaderSize then some (false, [])
  else do
    let first ← nextH26xNaluIndex frame 0
    let pieces ← nalUnitLoop unit frame first
    pure (true, pieces)

/-- `process_frame_h264`. -/
def processFrameH264 (frame : Bytes) : Option (Bool × List Piece) :=
  processFrameH26x (h264Unit wrappingSub) 1 frame

/-- `process_frame_h265`. -/
def processFrameH265 (frame : Bytes) : Option (Bool × List Piece) :=
  processFrameH26x (h265Unit wrappingSub) 2 frame

/-- `process_frame_h264`, with `none` also for a length that wraps. -/
def processFrameH264Checked (frame : Bytes) : Option (Bool × List Piece) :=
  processFrameH26x (h264Unit sub) 1 frame

/-- `process_frame_h265`, with `none` also for a length that wraps. -/
def processFrameH265Checked (frame : Bytes) : Option (Bool × List Piece) :=
  processFrameH26x (h265Unit sub) 2 frame

/-! ## AV1 -/

/-- The pieces of one OBU that is kept: header, extension byte, size field and
payload.  `next` is the index after the OBU. -/
def obuPieces (frame : Bytes) (obuHeader : UInt8) (obuHeaderIndex obuPayloadIndex
    obuPayloadSize next : Nat) : Option (List Piece) := do
  let obuHasExtension := obuHeader &&& 0x04 ≠ 0
  let obuHasSize := obuHeader &&& 0x02 ≠ 0
  -- the last OBU loses its size field
  let rewrittenWithoutSize := next = frame.length ∧ obuHasSize
  let header := if rewrittenWithoutSize then obuHeader &&& ~~~0x02 else obuHeader
  let extension ←
    if obuHasExtension then do
      let byte ← subspan frame (obuHeaderIndex + 1) 1
      pure [Piece.unencrypted byte]
    else pure []
  let size :=
    if obuHasSize ∧ ¬ rewrittenWithoutSize then
      [Piece.unencrypted (writeLeb128 obuPayloadSize)]
    else []
  let payload ← subspan frame obuPayloadIndex obuPayloadSize
  pure (.unencrypted [header] :: (extension ++ size ++ [.encrypted payload]))

/-- The loop of `process_frame_av1` at index `i`.  All indices are `size_t`, so
the end of an OBU wraps at 64 bits; the loop state is the index alone, and a
run that checks the loop condition more than `frame.size() + 1` times repeats an
index and never ends, which is what running out of `fuel` stands for. -/
def processFrameAv1Loop (frame : Bytes) : (fuel i : Nat) → Option (Bool × List Piece)
  | 0, _ => none
  | fuel + 1, i =>
      if i < frame.length then do
        let obuHeader ← frame[i]?
        let obuHasExtension := obuHeader &&& 0x04 ≠ 0
        let obuHasSize := obuHeader &&& 0x02 ≠ 0
        let obuType := (obuHeader &&& 0x78) >>> 3
        let sizeIndex := if obuHasExtension then i + 2 else i + 1
        if frame.length ≤ sizeIndex then some (false, [])
        else
          let sized :=
            if obuHasSize then
              (readLeb128 (frame.drop sizeIndex)).map fun (size, rest) =>
                (size, frame.length - rest.length)
            else some (frame.length - sizeIndex, sizeIndex)
          match sized with
          | none => some (false, [])
          | some (obuPayloadSize, obuPayloadIndex) =>
              let next := (obuPayloadIndex + obuPayloadSize) % 2 ^ 64
              if frame.length < next then some (false, [])
              else do
                let pieces ←
                  if obuType ≠ 2 ∧ obuType ≠ 8 ∧ obuType ≠ 15 then
                    obuPieces frame obuHeader i obuPayloadIndex obuPayloadSize next
                  else pure []
                let (success, rest) ← processFrameAv1Loop frame fuel next
                pure (success, pieces ++ rest)
      else some (true, [])

/-- `process_frame_av1`. -/
def processFrameAv1 (frame : Bytes) : Option (Bool × List Piece) :=
  processFrameAv1Loop frame (frame.length + 1) 0

end Ekizu.Dave
