import Ekizu.Dave.RangeCodec

/-!
# Splitting and reconstructing frames

The index loops of `do_reconstruct` and of `parse_frame` compute the library's
`weave` and `inside`/`outside`, and stay in range while doing so.

## Main results

* `doReconstruct_eq` — with enough bytes on both sides and room in the output,
  `do_reconstruct` writes the weave of its two inputs.
* `splitFrame_eq` — on validated ranges the split loop of `parse_frame` never
  leaves the frame and computes the cells inside and outside the ranges.
-/

namespace Ekizu.Dave

open Lib.Span
open Lib.Segments

/-- A copy from `src` at `i` into the output extends the written prefix. -/
private theorem copy_prefix {src output : Bytes} {i pos size : Nat}
    (hsrc : i + size ≤ src.length) (hout : pos + size ≤ output.length) :
    ∃ output', write output pos ((src.drop i).take size) = some output' ∧
      output'.length = output.length ∧
      output'.take (pos + size) = output.take pos ++ (src.drop i).take size := by
  have hlen : ((src.drop i).take size).length = size := by
    simp only [List.length_take, List.length_drop]; omega
  have hfit : pos + ((src.drop i).take size).length ≤ output.length := by omega
  have hw := write_of_le hfit
  refine ⟨_, hw, write_length hw, ?_⟩
  have htake := take_write_append hw
  generalize output.take pos ++ (src.drop i).take size ++ _ = output' at htake ⊢
  rwa [hlen] at htake

private theorem copyRangeBytes_spec (rangeBytes : Bytes) (st : Reconstruction) (size : Nat)
    (hsrc : st.rangeBytesIndex + size ≤ rangeBytes.length)
    (hout : st.frameIndex + size ≤ st.output.length) :
    ∃ st', copyRangeBytes rangeBytes st size = some st' ∧
      st'.frameIndex = st.frameIndex + size ∧
      st'.rangeBytesIndex = st.rangeBytesIndex + size ∧
      st'.otherBytesIndex = st.otherBytesIndex ∧
      st'.output.length = st.output.length ∧
      st'.output.take st'.frameIndex =
        st.output.take st.frameIndex ++ (rangeBytes.drop st.rangeBytesIndex).take size := by
  obtain ⟨output', hw, hlen, htake⟩ := copy_prefix hsrc hout
  refine ⟨⟨st.frameIndex + size, st.rangeBytesIndex + size, st.otherBytesIndex, output'⟩,
    ?_, rfl, rfl, rfl, hlen, htake⟩
  simp [copyRangeBytes, subspan_of_le hsrc, hw]

private theorem copyOtherBytes_spec (otherBytes : Bytes) (st : Reconstruction) (size : Nat)
    (hsrc : st.otherBytesIndex + size ≤ otherBytes.length)
    (hout : st.frameIndex + size ≤ st.output.length) :
    ∃ st', copyOtherBytes otherBytes st size = some st' ∧
      st'.frameIndex = st.frameIndex + size ∧
      st'.rangeBytesIndex = st.rangeBytesIndex ∧
      st'.otherBytesIndex = st.otherBytesIndex + size ∧
      st'.output.length = st.output.length ∧
      st'.output.take st'.frameIndex =
        st.output.take st.frameIndex ++ (otherBytes.drop st.otherBytesIndex).take size := by
  obtain ⟨output', hw, hlen, htake⟩ := copy_prefix hsrc hout
  refine ⟨⟨st.frameIndex + size, st.rangeBytesIndex, st.otherBytesIndex + size, output'⟩,
    ?_, rfl, rfl, rfl, hlen, htake⟩
  simp [copyOtherBytes, subspan_of_le hsrc, hw]

/-- The gap in front of a range is copied when it is non-empty and skipped when
it is not; the state ends at the range's offset either way. -/
private theorem copyGap_spec (otherBytes : Bytes) (st : Reconstruction) {offset : Nat}
    (hpos : st.frameIndex ≤ offset)
    (hsrc : st.otherBytesIndex + (offset - st.frameIndex) ≤ otherBytes.length)
    (hout : offset ≤ st.output.length) :
    ∃ st', (if st.frameIndex < offset then
          copyOtherBytes otherBytes st (offset - st.frameIndex) else some st) = some st' ∧
      st'.frameIndex = offset ∧
      st'.rangeBytesIndex = st.rangeBytesIndex ∧
      st'.otherBytesIndex = st.otherBytesIndex + (offset - st.frameIndex) ∧
      st'.output.length = st.output.length ∧
      st'.output.take offset = st.output.take st.frameIndex ++
        (otherBytes.drop st.otherBytesIndex).take (offset - st.frameIndex) := by
  split
  · next hlt =>
      obtain ⟨st', hc, hf, hr, ho, hl, ht⟩ :=
        copyOtherBytes_spec otherBytes st (offset - st.frameIndex) hsrc (by omega)
      have hoff : st'.frameIndex = offset := by omega
      exact ⟨st', hc, hoff, hr, ho, hl, hoff ▸ ht⟩
  · next hge =>
      have heq : st.frameIndex = offset := by omega
      refine ⟨st, rfl, heq, rfl, ?_, rfl, ?_⟩
      · omega
      · simp [heq]

/-- **The loop of `do_reconstruct`.**  Its state advances over the ranges, and
what it has written, continued by the bytes it has not used yet, is the weave
of the inputs. -/
private theorem reconstructLoop_spec (rangeBytes otherBytes : Bytes) {ranges : List Range} :
    ∀ st : Reconstruction, Ordered st.frameIndex ranges →
      st.rangeBytesIndex + sizes ranges ≤ rangeBytes.length →
      st.otherBytesIndex + gaps st.frameIndex ranges ≤ otherBytes.length →
      endPos st.frameIndex ranges ≤ st.output.length →
      ∃ st', reconstructLoop rangeBytes otherBytes ranges st = some st' ∧
        st'.frameIndex = endPos st.frameIndex ranges ∧
        st'.otherBytesIndex = st.otherBytesIndex + gaps st.frameIndex ranges ∧
        st'.output.length = st.output.length ∧
        st'.output.take st'.frameIndex ++ otherBytes.drop st'.otherBytesIndex =
          st.output.take st.frameIndex ++
            weave st.frameIndex ranges (rangeBytes.drop st.rangeBytesIndex)
              (otherBytes.drop st.otherBytesIndex) := by
  induction ranges with
  | nil =>
      intro st _ _ _ _
      exact ⟨st, rfl, rfl, by simp [gaps], rfl, by simp [weave]⟩
  | cons range ranges ih =>
      intro st hord hrange hother hend
      have hle := pos_le_endPos hord.2
      simp only [sizes] at hrange
      simp only [gaps] at hother
      simp only [endPos] at hend
      obtain ⟨st₁, hc₁, hf₁, hr₁, ho₁, hl₁, ht₁⟩ :=
        copyGap_spec otherBytes st hord.1 (by omega) (by omega)
      obtain ⟨st₂, hc₂, hf₂, hr₂, ho₂, hl₂, ht₂⟩ :=
        copyRangeBytes_spec rangeBytes st₁ range.size (by omega) (by omega)
      have hpos₂ : st₂.frameIndex = range.offset + range.size := by omega
      obtain ⟨st₃, hc₃, hf₃, ho₃, hl₃, hw₃⟩ :=
        ih st₂ (by rw [hpos₂]; exact hord.2) (by omega)
          (by rw [hpos₂]; omega) (by rw [hpos₂]; omega)
      refine ⟨st₃, ?_, ?_, ?_, by omega, ?_⟩
      · rw [reconstructLoop]
        split at hc₁
        · next hlt => simp [hlt, hc₁, hc₂, hc₃]
        · next hge =>
            obtain rfl := Option.some.inj hc₁
            simp [hge, hc₂, hc₃]
      · rw [hf₃, hpos₂]
        rfl
      · rw [ho₃, ho₂, ho₁, hpos₂]
        simp only [gaps]
        omega
      · rw [hw₃, ht₂, hf₁, ht₁, hpos₂, hr₂, hr₁, ho₂, ho₁]
        simp only [weave, List.append_assoc, List.drop_drop]

/-- **`do_reconstruct` weaves**, and writes exactly as many bytes as it was
given. -/
theorem doReconstruct_eq {ranges : List Range} {rangeBytes : Bytes}
    (otherBytes output : Bytes) (hord : Ordered 0 ranges)
    (hrange : sizes ranges = rangeBytes.length)
    (hother : gaps 0 ranges ≤ otherBytes.length)
    (hout : rangeBytes.length + otherBytes.length ≤ output.length) :
    ∃ output', doReconstruct ranges rangeBytes otherBytes output =
        some (rangeBytes.length + otherBytes.length, output') ∧
      output'.length = output.length ∧
      output'.take (rangeBytes.length + otherBytes.length) =
        weave 0 ranges rangeBytes otherBytes := by
  have hendEq := endPos_eq hord
  obtain ⟨st, hloop, hf, ho, hl, hw⟩ :=
    reconstructLoop_spec rangeBytes otherBytes ⟨0, 0, 0, output⟩ hord (by simp only; omega)
      (by simpa using hother) (by simp only; omega)
  simp only [Nat.zero_add, List.take_zero, List.nil_append, List.drop_zero] at hf ho hl hw
  simp only [doReconstruct, Option.bind_eq_bind, hloop, Option.bind_some]
  by_cases hrest : st.otherBytesIndex < otherBytes.length
  · obtain ⟨st', hc, hf', -, -, hl', ht'⟩ :=
      copyOtherBytes_spec otherBytes st (otherBytes.length - st.otherBytesIndex)
        (by omega) (by omega)
    have hend : st'.frameIndex = rangeBytes.length + otherBytes.length := by omega
    refine ⟨st'.output, ?_, by omega, ?_⟩
    · rw [if_pos hrest, hc]
      simp [hend]
    · rw [← hend, ht', ← hw]
      congr 1
      exact List.take_of_length_le (by simp)
  · have hend : st.frameIndex = rangeBytes.length + otherBytes.length := by omega
    refine ⟨st.output, ?_, hl, ?_⟩
    · rw [if_neg hrest]
      simp [hend]
    · rw [← hend, ← hw, List.drop_of_length_le (by omega), List.append_nil]

/-! ## The split of `parse_frame` -/

namespace InboundFrameProcessor

/-- The split loop stays in the frame and collects the two parts. -/
theorem splitLoop_eq (frame : Bytes) {ranges : List Range} :
    ∀ (pos : Nat) (p : InboundFrameProcessor), Ordered pos ranges →
      endPos pos ranges ≤ frame.length →
      splitLoop frame ranges pos p = some (endPos pos ranges,
        { p with
          ciphertext := p.ciphertext ++ outside frame pos ranges
          authenticated := p.authenticated ++ inside frame ranges }) := by
  induction ranges with
  | nil => intro pos p _ _; simp [splitLoop, outside, inside, endPos]
  | cons range ranges ih =>
      intro pos p hord hend
      have hpos : pos ≤ range.offset := hord.1
      have hle := pos_le_endPos hord.2
      simp only [endPos] at hend
      simp only [splitLoop, Option.bind_eq_bind, sub_of_le hpos, Option.bind_some]
      have hrange : subspan frame range.offset range.size =
          some ((frame.drop range.offset).take range.size) := subspan_of_le (by omega)
      by_cases hgap : 0 < range.offset - pos
      · have hsub : subspan frame pos (range.offset - pos) =
            some ((frame.drop pos).take (range.offset - pos)) := subspan_of_le (by omega)
        simp only [if_pos hgap, hsub, hrange, Option.pure_def, Option.bind_some,
          ih _ _ hord.2 hend, outside, inside, endPos, List.append_assoc]
      · have hzero : range.offset - pos = 0 := by omega
        simp only [if_neg hgap, hrange, Option.bind_some, ih _ _ hord.2 hend, outside,
          inside, endPos, List.append_assoc]
        rw [hzero, List.take_zero, List.nil_append]

/-- The processor `parse_frame` leaves after splitting `frame` at validated
ranges, with a body of `bodySize` bytes. -/
def splitResult (p : InboundFrameProcessor) (frame : Bytes) (bodySize : Nat) :
    InboundFrameProcessor :=
  let ciphertext := p.ciphertext ++ outside frame 0 p.unencryptedRanges ++
    (frame.drop (endPos 0 p.unencryptedRanges)).take
      (bodySize - endPos 0 p.unencryptedRanges)
  { p with
    originalSize := frame.length
    authenticated := p.authenticated ++ inside frame p.unencryptedRanges
    ciphertext
    plaintext := resize p.plaintext ciphertext.length 0
    encrypted := true }

theorem splitFrame_eq {p : InboundFrameProcessor} {frame : Bytes} {bytesSize : Nat}
    (hord : Ordered 0 p.unencryptedRanges)
    (hend : endPos 0 p.unencryptedRanges ≤ frame.length)
    (hsize : bytesSize ≤ frame.length) :
    splitFrame p frame bytesSize = some (splitResult p frame (frame.length - bytesSize)) := by
  have hloop := splitLoop_eq frame 0 { p with originalSize := frame.length }
    hord hend
  simp only [splitFrame, Option.bind_eq_bind, sub_of_le hsize, Option.bind_some, hloop]
  by_cases hrest : endPos 0 p.unencryptedRanges < frame.length - bytesSize
  · have hsub : subspan frame (endPos 0 p.unencryptedRanges)
          (frame.length - bytesSize - endPos 0 p.unencryptedRanges) =
        some ((frame.drop (endPos 0 p.unencryptedRanges)).take
          (frame.length - bytesSize - endPos 0 p.unencryptedRanges)) :=
      subspan_of_le (by omega)
    simp only [if_pos hrest, hsub, Option.pure_def, Option.bind_some, splitResult]
  · have hzero : frame.length - bytesSize - endPos 0 p.unencryptedRanges = 0 := by omega
    simp only [if_neg hrest, Option.pure_def, Option.bind_some, splitResult, hzero,
      List.take_zero, List.append_nil]

end InboundFrameProcessor

end Ekizu.Dave
