import Ekizu.Dave.CodecUtils

/-!
# Frame processors

`src/dave/frame_processors.cpp`: the trailer's range list, the interleaving
loop `do_reconstruct`, the parser of inbound frames and the bookkeeping of
outbound ones.  Functions that index into a buffer answer in `Option`, with
`none` for an access or a subtraction out of range.
-/

namespace Ekizu.Dave

open Lib.Span
open Lib.Segments

/-! ## Range lists -/

/-- `checked_add` on `size_t`. -/
def checkedAdd (a b : Nat) : Option Nat :=
  if 2 ^ 64 - 1 - b < a then none else some (a + b)

/-- The number of bytes the ranges take in the trailer, before the source
narrows it to eight bits. -/
def rangesEncodedSize : List Range → Nat
  | [] => 0
  | range :: ranges =>
      leb128Size range.offset + leb128Size range.size + rangesEncodedSize ranges

/-- `unencrypted_ranges_size`. -/
def unencryptedRangesSize (unencryptedRanges : List Range) : UInt8 :=
  (rangesEncodedSize unencryptedRanges).toUInt8

/-- The loop of `serialize_unencrypted_ranges`: the bytes written from
`write_at` on, with `space = end - write_at`. -/
def serializeRangesLoop : List Range → (space : Nat) → Bytes
  | [], _ => []
  | range :: ranges, space =>
      let rangeSize := leb128Size range.offset + leb128Size range.size
      if space < rangeSize then []
      else
        writeLeb128 range.offset ++ writeLeb128 range.size ++
          serializeRangesLoop ranges (space - rangeSize)

/-- `serialize_unencrypted_ranges`: the bytes written and the returned count,
which the source narrows to eight bits. -/
def serializeUnencryptedRanges (unencryptedRanges : List Range) (bufferSize : Nat) :
    Bytes × UInt8 :=
  let written := serializeRangesLoop unencryptedRanges bufferSize
  (written, written.length.toUInt8)

/-- The loop of `deserialize_unencrypted_ranges`.  Every iteration consumes a
byte, so the number of bytes bounds the number of iterations. -/
def deserializeRangesLoop : (fuel : Nat) → Bytes → List Range → Option (List Range)
  | _, [], ranges => some ranges
  | 0, _ :: _, _ => none
  | fuel + 1, byte :: bytes, ranges => do
      let (offset, readAt) ← readLeb128 (byte :: bytes)
      let (size, readAt) ← readLeb128 readAt
      deserializeRangesLoop fuel readAt (ranges ++ [⟨offset, size⟩])

/-- `deserialize_unencrypted_ranges` on the bytes `[read_at, read_at +
buffer_size)`.  `none` is `read_at = nullptr`; otherwise all bytes were
consumed. -/
def deserializeUnencryptedRanges (bytes : Bytes) : Option (List Range) :=
  deserializeRangesLoop bytes.length bytes []

/-- `validate_unencrypted_ranges`: each range ends before the next one starts,
the last one inside the frame. -/
def validateUnencryptedRanges : List Range → (frameSize : Nat) → Bool
  | [], _ => true
  | [current], frameSize =>
      match checkedAdd current.offset current.size with
      | none => false
      | some currentEnd => decide (currentEnd ≤ frameSize)
  | current :: next :: ranges, frameSize =>
      match checkedAdd current.offset current.size with
      | none => false
      | some currentEnd =>
          decide (currentEnd ≤ next.offset) &&
            validateUnencryptedRanges (next :: ranges) frameSize

/-! ## `do_reconstruct` -/

/-- The local variables of `do_reconstruct`, with the output buffer. -/
structure Reconstruction where
  frameIndex : Nat
  rangeBytesIndex : Nat
  otherBytesIndex : Nat
  output : Bytes

/-- `copy_range_bytes`. -/
def copyRangeBytes (rangeBytes : Bytes) (st : Reconstruction) (size : Nat) :
    Option Reconstruction := do
  let src ← subspan rangeBytes st.rangeBytesIndex size
  let output ← write st.output st.frameIndex src
  pure { st with
    output
    rangeBytesIndex := st.rangeBytesIndex + size
    frameIndex := st.frameIndex + size }

/-- `copy_other_bytes`. -/
def copyOtherBytes (otherBytes : Bytes) (st : Reconstruction) (size : Nat) :
    Option Reconstruction := do
  let src ← subspan otherBytes st.otherBytesIndex size
  let output ← write st.output st.frameIndex src
  pure { st with
    output
    otherBytesIndex := st.otherBytesIndex + size
    frameIndex := st.frameIndex + size }

/-- The loop of `do_reconstruct` over the ranges. -/
def reconstructLoop (rangeBytes otherBytes : Bytes) :
    List Range → Reconstruction → Option Reconstruction
  | [], st => some st
  | range :: ranges, st => do
      let st ←
        if st.frameIndex < range.offset then
          copyOtherBytes otherBytes st (range.offset - st.frameIndex)
        else some st
      let st ← copyRangeBytes rangeBytes st range.size
      reconstructLoop rangeBytes otherBytes ranges st

/-- `do_reconstruct`: the number of bytes written and the output buffer. -/
def doReconstruct (ranges : List Range) (rangeBytes otherBytes output : Bytes) :
    Option (Nat × Bytes) := do
  let st ← reconstructLoop rangeBytes otherBytes ranges ⟨0, 0, 0, output⟩
  let st ←
    if st.otherBytesIndex < otherBytes.length then
      copyOtherBytes otherBytes st (otherBytes.length - st.otherBytesIndex)
    else some st
  pure (st.frameIndex, st.output)

/-! ## Inbound frames -/

/-- `struct InboundFrameProcessor`. -/
structure InboundFrameProcessor where
  encrypted : Bool := false
  originalSize : Nat := 0
  tag : Bytes := []
  truncatedNonce : UInt32 := 0
  unencryptedRanges : List Range := []
  authenticated : Bytes := []
  ciphertext : Bytes := []
  plaintext : Bytes := []
  deriving Repr, DecidableEq

namespace InboundFrameProcessor

/-- `InboundFrameProcessor::clear`; the tag span is left as it was. -/
def clear (p : InboundFrameProcessor) : InboundFrameProcessor :=
  { p with
    encrypted := false
    originalSize := 0
    truncatedNonce := 0xFFFFFFFF
    unencryptedRanges := []
    authenticated := []
    ciphertext := []
    plaintext := [] }

/-- The loop of `parse_frame` that splits the frame at the ranges: the final
`frame_index` and the processor with its two buffers extended. -/
def splitLoop (frame : Bytes) :
    List Range → (frameIndex : Nat) → InboundFrameProcessor →
      Option (Nat × InboundFrameProcessor)
  | [], frameIndex, p => some (frameIndex, p)
  | range :: ranges, frameIndex, p => do
      let encryptedBytes ← sub range.offset frameIndex
      let p ←
        if 0 < encryptedBytes then do
          let data ← subspan frame frameIndex encryptedBytes
          pure { p with ciphertext := p.ciphertext ++ data }
        else some p
      let data ← subspan frame range.offset range.size
      splitLoop frame ranges (range.offset + range.size)
        { p with authenticated := p.authenticated ++ data }

/-- The part of `parse_frame` after the ranges have been validated. -/
def splitFrame (p : InboundFrameProcessor) (frame : Bytes) (bytesSize : Nat) :
    Option InboundFrameProcessor := do
  let actualFrameSize ← sub frame.length bytesSize
  let (frameIndex, p) ←
    splitLoop frame p.unencryptedRanges 0 { p with originalSize := frame.length }
  let p ←
    if frameIndex < actualFrameSize then do
      let data ← subspan frame frameIndex (actualFrameSize - frameIndex)
      pure { p with ciphertext := p.ciphertext ++ data }
    else some p
  pure { p with plaintext := resize p.plaintext p.ciphertext.length 0, encrypted := true }

/-- The part of `parse_frame` after the size byte has been checked. -/
def readTrailer (p : InboundFrameProcessor) (frame : Bytes) (bytesSize : Nat) :
    Option InboundFrameProcessor := do
  let supplemental ← last frame bytesSize
  let tag ← first supplemental truncatedTagBytes
  let p := { p with tag }
  let size ← sub bytesSize supplementalBytes
  let nonceAndRanges ← subspan supplemental truncatedTagBytes size
  match readLeb128 nonceAndRanges with
  | none => some { p with truncatedNonce := 0 }
  | some (nonce, readAt) =>
      let p := { p with truncatedNonce := nonce.toUInt32 }
      let rangesSize := readAt.length.toUInt8
      let rangeBytes ← first readAt rangesSize.toNat
      match deserializeUnencryptedRanges rangeBytes with
      | none => some p
      | some ranges =>
          let p := { p with unencryptedRanges := ranges }
          if validateUnencryptedRanges ranges frame.length then
            splitFrame p frame bytesSize
          else some p

/-- `InboundFrameProcessor::parse_frame`. -/
def parseFrame (p : InboundFrameProcessor) (frame : Bytes) :
    Option InboundFrameProcessor :=
  let p := p.clear
  if frame.length < supplementalBytes then some p
  else do
    let marker ← last frame 2
    if marker ≠ markerBytes then some p
    else
      let markerAndSize ← last frame 3
      let sizeByte ← markerAndSize[0]?
      let bytesSize := sizeByte.toNat
      if frame.length < bytesSize then some p
      else if bytesSize < supplementalBytes then some p
      else readTrailer p frame bytesSize

/-- `InboundFrameProcessor::reconstruct_frame`. -/
def reconstructFrame (p : InboundFrameProcessor) (frame : Bytes) : Option (Nat × Bytes) :=
  if p.encrypted = false then some (0, frame)
  else if frame.length < p.authenticated.length + p.plaintext.length then some (0, frame)
  else doReconstruct p.unencryptedRanges p.authenticated p.plaintext frame

end InboundFrameProcessor

/-! ## Outbound frames -/

/-- `struct OutboundFrameProcessor`. -/
structure OutboundFrameProcessor where
  frameCodec : Codec := .unknown
  frameIndex : Nat := 0
  unencryptedBytes : Bytes := []
  encryptedBytes : Bytes := []
  ciphertextBytes : Bytes := []
  unencryptedRanges : List Range := []
  deriving Repr, DecidableEq

namespace OutboundFrameProcessor

/-- `OutboundFrameProcessor::reset`; the ciphertext buffer is kept. -/
def reset (p : OutboundFrameProcessor) : OutboundFrameProcessor :=
  { p with
    frameCodec := .unknown
    frameIndex := 0
    unencryptedBytes := []
    encryptedBytes := []
    unencryptedRanges := [] }

/-- The range list of `add_unencrypted_bytes`: the last range grows when it
ends at the frame index, otherwise a new one starts there. -/
def addRange (ranges : List Range) (frameIndex size : Nat) : List Range :=
  match ranges.getLast? with
  | some back =>
      if back.offset + back.size = frameIndex then
        ranges.dropLast ++ [{ back with size := back.size + size }]
      else ranges ++ [⟨frameIndex, size⟩]
  | none => [⟨frameIndex, size⟩]

/-- `OutboundFrameProcessor::add_unencrypted_bytes`. -/
def addUnencryptedBytes (p : OutboundFrameProcessor) (bytes : Bytes) :
    OutboundFrameProcessor :=
  { p with
    unencryptedRanges := addRange p.unencryptedRanges p.frameIndex bytes.length
    unencryptedBytes := p.unencryptedBytes ++ bytes
    frameIndex := p.frameIndex + bytes.length }

/-- `OutboundFrameProcessor::add_encrypted_bytes`. -/
def addEncryptedBytes (p : OutboundFrameProcessor) (bytes : Bytes) :
    OutboundFrameProcessor :=
  { p with
    encryptedBytes := p.encryptedBytes ++ bytes
    frameIndex := p.frameIndex + bytes.length }

/-- Perform the call a `Piece` stands for. -/
def add (p : OutboundFrameProcessor) : Piece → OutboundFrameProcessor
  | .unencrypted bytes => p.addUnencryptedBytes bytes
  | .encrypted bytes => p.addEncryptedBytes bytes

/-- The `switch` of `process_frame`. -/
def splitByCodec (frame : Bytes) : Codec → Option (Bool × List Piece)
  | .opus => processFrameOpus frame
  | .vp8 => processFrameVp8 frame
  | .vp9 => processFrameVp9 frame
  | .h264 => processFrameH264 frame
  | .h265 => processFrameH265 frame
  | .av1 => processFrameAv1 frame
  | .unknown => some (false, [])

/-- The calls of a codec, and the fallback of `process_frame` when it failed:
start over and encrypt the whole frame. -/
def addPieces (p : OutboundFrameProcessor) (frame : Bytes) (success : Bool)
    (pieces : List Piece) : OutboundFrameProcessor :=
  let p := pieces.foldl add p
  if success then p
  else
    { p with
      frameIndex := 0
      unencryptedBytes := []
      encryptedBytes := []
      unencryptedRanges := [] }.addEncryptedBytes frame

/-- `OutboundFrameProcessor::process_frame`. -/
def processFrame (p : OutboundFrameProcessor) (frame : Bytes) (codec : Codec) :
    Option OutboundFrameProcessor := do
  let (success, pieces) ← splitByCodec frame codec
  let p := { p.reset with frameCodec := codec }.addPieces frame success pieces
  pure { p with ciphertextBytes := resize p.ciphertextBytes p.encryptedBytes.length 0 }

/-- `OutboundFrameProcessor::reconstruct_frame`. -/
def reconstructFrame (p : OutboundFrameProcessor) (frame : Bytes) : Option (Nat × Bytes) :=
  if frame.length < p.unencryptedBytes.length + p.ciphertextBytes.length then
    some (0, frame)
  else doReconstruct p.unencryptedRanges p.unencryptedBytes p.ciphertextBytes frame

end OutboundFrameProcessor

end Ekizu.Dave
