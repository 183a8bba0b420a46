import Ekizu.Dave.NalUnits
import Ekizu.Dave.PpsScan

/-!
# Slice headers in H264 frames

`process_frame_h264` leaves the bytes that `bytes_covering_h264_pps` counts behind the
header of a slice in the clear.  The count is taken over the rest of the frame and not over
the unit, and is subtracted from the length of the unit.

## Main results

* `processFrameH264_inRange_iff` — the frames that H264 splitting stays inside of, with no
  length that wraps.
* `processFrameH264_of_checked` — there the machine computes the checked lengths.
-/

namespace Ekizu.Dave

open Lib.Span

/-- The unit that starts at `start` is a slice or an IDR. -/
def SliceUnit (frame : Bytes) (start : Nat) : Prop :=
  ∃ header, frame[start]? = some header ∧ (header &&& 0x1F = 1 ∨ header &&& 0x1F = 5)

/-- The scan behind the header gives up, or ends at a bit of the unit. -/
def PpsFits (frame : Bytes) (start stop : Nat) : Prop :=
  GivesUp (frame.drop (start + 1)) 0 0 3 ∨
    ∃ bit, Reads (frame.drop (start + 1)) 0 0 3 bit ∧ start + 1 + bit / 8 < stop

/-- The scan stays in the unit from `start` to `stop` when it is a slice. -/
def SliceFits (frame : Bytes) (start stop : Nat) : Prop :=
  SliceUnit frame start → PpsFits frame start stop

theorem sliceUnit_iff {frame : Bytes} {start : Nat} {header : UInt8}
    (h : frame[start]? = some header) :
    SliceUnit frame start ↔ (header &&& 0x1F = 1 ∨ header &&& 0x1F = 5) := by
  unfold SliceUnit
  rw [h]
  simp

/-- The scan stays in a unit that ends inside the frame when the count does. -/
theorem ppsFits_iff {frame : Bytes} {start stop count : Nat} (hlt : start < stop)
    (hend : stop ≤ frame.length)
    (h : bytesCoveringH264Pps (frame.drop (start + 1)) = some count) :
    PpsFits frame start stop ↔ start + 1 + count ≤ stop := by
  have hlength : (frame.drop (start + 1)).length = frame.length - (start + 1) :=
    List.length_drop
  obtain hgives | ⟨bit, hreads⟩ | ⟨count', hlong, hcovering⟩ :=
    bytesCoveringH264Pps_cases (frame.drop (start + 1))
  · obtain rfl := Option.some.inj (hgives.covering.symm.trans h)
    exact iff_of_true (.inl hgives) (by omega)
  · obtain rfl := Option.some.inj (hreads.covering.symm.trans h)
    refine ⟨fun hfits => ?_, fun hfit => .inr ⟨bit, hreads, by omega⟩⟩
    obtain hgives | ⟨bit', hreads', hfit⟩ := hfits
    · exact absurd (Option.some.inj (hgives.covering.symm.trans hreads.covering)) (by omega)
    · have hsame := Option.some.inj (hreads'.covering.symm.trans hreads.covering)
      omega
  · obtain rfl := Option.some.inj (hcovering.symm.trans h)
    refine iff_of_false (fun hfits => ?_) (by omega)
    obtain hgives | ⟨bit', hreads', hfit⟩ := hfits
    · have hsame := Option.some.inj (hgives.covering.symm.trans hcovering)
      omega
    · have hsame := Option.some.inj (hreads'.covering.symm.trans hcovering)
      omega

/-- The checked body of the H264 loop stays in the frame unless the scan of a slice header
leaves the unit. -/
theorem h264Unit_isSome_iff {frame : Bytes} {start stop : Nat} {next : Option (Nat × Nat)}
    (hroom : start + 1 < frame.length) (hstop : nextNaluStart frame next = some stop)
    (hle : start ≤ stop) (hend : stop ≤ frame.length)
    (hslice : SliceUnit frame start → start < stop) :
    (h264Unit sub frame start next).isSome = true ↔ SliceFits frame start stop := by
  have hheader : frame[start]? = some frame[start] := List.getElem?_eq_getElem (by omega)
  rw [sliceUnit_iff hheader] at hslice
  rw [SliceFits, sliceUnit_iff hheader]
  unfold h264Unit
  simp only [hheader, hstop, Option.bind_eq_bind, Option.bind_some]
  split
  · next hsliced =>
      obtain ⟨count, hcount⟩ := bytesCoveringH264Pps_total (frame.drop (start + 1))
      rw [hcount, Option.bind_some, forall_prop_of_true hsliced,
        ppsFits_iff (hslice hsliced) hend hcount]
      by_cases hfit : start + 1 + count ≤ stop
      · rw [subspan_of_le (by omega), Option.bind_some, sub_of_le hfit, Option.bind_some,
          subspan_of_le (by omega)]
        exact iff_of_true rfl hfit
      · have hwrap : sub stop (start + 1 + count) = none := if_neg hfit
        refine iff_of_false ?_ hfit
        rw [hwrap]
        cases subspan frame start (1 + count) <;> simp
  · next hother =>
      rw [sub_of_le hle, Option.bind_some, subspan_of_le (by omega)]
      exact iff_of_true rfl fun hno => absurd hno hother

/-- In every slice unit of two bytes or more the scan gives up or ends inside the unit. -/
def SliceHeadersFit (frame : Bytes) : Prop :=
  ∀ i stop, StartCodeAt frame i → i + 4 < frame.length → UnitStops frame (i + 3) stop →
    SliceUnit frame (i + 3) → PpsFits frame (i + 3) stop

/-- A unit of no bytes has a zero for its header. -/
theorem not_sliceUnit_of_unitEnd {frame : Bytes} {k : Nat} (hcode : StartCodeAt frame k) :
    ¬ SliceUnit frame (unitEnd frame k) := by
  have hzero : frame[unitEnd frame k]? = some 0 := by
    cases unitEnd_cases frame k with
    | inl hlong => exact hlong.2.2
    | inr hshort =>
        rw [hshort.2.1]
        exact (startCodeAt_iff.mp hcode).1
  rintro ⟨header, hheader, htype⟩
  obtain rfl := Option.some.inj (hzero.symm.trans hheader)
  revert htype
  decide

/-- A slice has at least its header. -/
theorem SliceUnit.lt_stop {frame : Bytes} {i stop : Nat} {next : Option (Nat × Nat)}
    (hslice : SliceUnit frame (i + 3)) (hi : StartCodeAt frame i) (hroom : i + 4 < frame.length)
    (hnext : Scanned frame (i + 3) next) (hstop : nextNaluStart frame next = some stop) :
    i + 3 < stop := by
  obtain ⟨stop', hstop', hle, -, hcase⟩ := nextNaluStart_eq hi hnext
  obtain rfl := Option.some.inj (hstop.symm.trans hstop')
  by_contra hempty
  obtain ⟨-, hlast⟩ | ⟨k, hk, -, hk'⟩ := hcase
  · omega
  · refine not_sliceUnit_of_unitEnd hk.code ?_
    rwa [← hk', show stop = i + 3 by omega]

/-- The checked body at the unit behind a start code. -/
theorem h264Unit_isSome_of_startCode {frame : Bytes} {i stop : Nat} {next : Option (Nat × Nat)}
    (hi : StartCodeAt frame i) (hroom : i + 4 < frame.length) (hnext : Scanned frame (i + 3) next)
    (hstop : nextNaluStart frame next = some stop) :
    (h264Unit sub frame (i + 3) next).isSome = true ↔ SliceFits frame (i + 3) stop := by
  obtain ⟨stop', hstop', hle, hend, -⟩ := nextNaluStart_eq hi hnext
  obtain rfl := Option.some.inj (hstop.symm.trans hstop')
  exact h264Unit_isSome_iff (by omega) hstop hle hend
    fun hslice => hslice.lt_stop hi hroom hnext hstop

theorem processFrameH264Checked_isSome_iff (frame : Bytes) :
    (processFrameH264Checked frame).isSome = true ↔ HeadersFitFrom SliceFits frame 0 :=
  processFrameH26x_fits_iff (by decide) fun _ _ _ => h264Unit_isSome_of_startCode

/-- **H264 splitting stays inside the frame**, with no length that wraps, exactly when the
scan of every slice header gives up or ends inside its unit. -/
theorem processFrameH264_inRange_iff (frame : Bytes) :
    (processFrameH264Checked frame).isSome = true ↔ SliceHeadersFit frame := by
  rw [processFrameH264Checked_isSome_iff]
  exact ⟨fun hall i stop hi hroom => hall i (Nat.zero_le i) hi hroom stop,
    fun hall i _ hi hroom stop => hall i stop hi hroom⟩

/-- Where a checked difference is one, the machine computes it. -/
theorem h264Unit_of_checked {frame : Bytes} {start : Nat} {next : Option (Nat × Nat)}
    {pieces : List Piece} (h : h264Unit sub frame start next = some pieces) :
    h264Unit wrappingSub frame start next = some pieces := by
  unfold h264Unit at h ⊢
  simp only [Option.bind_eq_bind] at h ⊢
  obtain ⟨header, hheader, h⟩ := Option.bind_eq_some_iff.mp h
  obtain ⟨stop, hstop, h⟩ := Option.bind_eq_some_iff.mp h
  rw [hheader, Option.bind_some, hstop, Option.bind_some]
  split at h
  · next htype =>
      obtain ⟨ppsBytes, hcount, h⟩ := Option.bind_eq_some_iff.mp h
      obtain ⟨clear, hclear, h⟩ := Option.bind_eq_some_iff.mp h
      obtain ⟨size, hsize, h⟩ := Option.bind_eq_some_iff.mp h
      rw [if_pos htype, hcount, Option.bind_some, hclear, Option.bind_some,
        wrappingSub_of_sub hsize]
      exact h
  · next htype =>
      obtain ⟨size, hsize, h⟩ := Option.bind_eq_some_iff.mp h
      rw [if_neg htype, wrappingSub_of_sub hsize]
      exact h

/-- **Where no length wraps** the machine computes the checked ones. -/
theorem processFrameH264_of_checked {frame : Bytes} {result : Bool × List Piece}
    (h : processFrameH264Checked frame = some result) : processFrameH264 frame = some result :=
  processFrameH26x_mono (fun _ _ _ => h264Unit_of_checked) h

/-- An IDR with a single byte behind its header, in which the third code is not complete. -/
def shortIdr : Bytes := [0, 0, 0, 1, 0x65, 0x80]

/-- The clear bytes of the IDR reach past the end of the frame. -/
theorem processFrameH264_shortIdr :
    ¬ ∀ frame, (processFrameH264Checked frame).isSome = true := by
  intro hall
  have hwraps : processFrameH264Checked shortIdr = none := by
    decide +kernel
  have hruns := hall shortIdr
  rw [hwraps] at hruns
  exact absurd hruns (by decide)

end Ekizu.Dave
