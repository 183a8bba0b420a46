import Mathlib.Algebra.Group.Int.Defs
import Mathlib.Algebra.Group.Nat.Defs
import Ekizu.Lib.Segments

/-!
# Constants and types shared by the DAVE modules

`src/dave/common.hpp` and `src/dave/types.hpp`.  Bytes are `UInt8`, buffers are
lists of them.  A `size_t` is a `Nat`; where the source relies on its 64 bits
(`checked_add`) the bound is written out.  A key generation and a big nonce are
`Nat` as well, reduced where the source's unsigned arithmetic wraps.
-/

namespace Ekizu.Dave

abbrev Bytes := List UInt8

/-- `struct Range`: an offset and a size inside a frame. -/
abbrev Range := Lib.Segments.Seg

/-- `AES_GCM_128_TRUNCATED_SYNC_NONCE_OFFSET`. -/
def truncatedSyncNonceOffset : Nat := 8

/-- `AES_GCM_128_TRUNCATED_TAG_BYTES`. -/
def truncatedTagBytes : Nat := 8

/-- `RATCHET_GENERATION_SHIFT_BITS`. -/
def ratchetGenerationShiftBits : Nat := 24

/-- `MARKER_BYTES = 0xFAFA`, as it stands in a buffer. -/
def markerBytes : Bytes := [0xFA, 0xFA]

/-- `SUPPLEMENTAL_BYTES`: tag, size byte and marker. -/
def supplementalBytes : Nat := 11

/-- `TRANSFORM_PADDING_BYTES`. -/
def transformPaddingBytes : Nat := 64

/-- `OPUS_SILENCE_PACKET`. -/
def opusSilencePacket : Bytes := [0xF8, 0xFF, 0xFE]

/-- `MAX_GENERATION_GAP`. -/
def maxGenerationGap : Nat := 250

/-- `MAX_MISSING_NONCES`. -/
def maxMissingNonces : Nat := 1000

/-- `GENERATION_WRAP = 1 << (8 * RATCHET_GENERATION_BYTES)`. -/
def generationWrap : Nat := 256

/-- `MAX_FRAMES_PER_SECOND = 50 + 2 * 60`. -/
def maxFramesPerSecond : Int := 170

/-- `enum class MediaType`. -/
inductive MediaType where
  | audio
  | video
  deriving Repr, DecidableEq

/-- `enum class Codec`. -/
inductive Codec where
  | unknown
  | opus
  | vp8
  | vp9
  | h264
  | h265
  | av1
  deriving Repr, DecidableEq

/-- The members of `enum class DaveError` that the encryptor returns. -/
inductive DaveError where
  | encryptionFailed
  | ratchetNotReady
  | invalidGeneration
  deriving Repr, DecidableEq

/-! ## The steady clock -/

/-- A `steady_clock::time_point`, in nanoseconds. -/
abbrev TimePoint := Int

/-- `TimePoint::min()`. -/
def TimePoint.min : TimePoint := -2 ^ 63

/-- `TimePoint::max()`. -/
def TimePoint.max : TimePoint := 2 ^ 63 - 1

/-- A reading of the steady clock lies in the range of its representation. -/
structure Instant where
  time : TimePoint
  min_le : TimePoint.min ≤ time
  le_max : time ≤ TimePoint.max

/-- `std::chrono::seconds(n)` as a duration of the steady clock. -/
def seconds (n : Int) : Int := n * 1000000000

/-- `CIPHER_EXPIRY`. -/
def cipherExpiry : Int := seconds 10

end Ekizu.Dave
