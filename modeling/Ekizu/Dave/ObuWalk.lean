import Ekizu.Dave.Leb128Pointers
import Ekizu.Dave.CodecUtils

/-!
# The walk over the OBUs of a frame

`process_frame_av1` goes from one OBU to the next by adding a size read from the frame to a
64-bit index.  The check behind the addition lets a sum through that has wrapped, and the
index then moves backwards, or the payload of a kept OBU is taken outside the frame.  The
largest size does neither: its sum is one short of the payload, and the payload is the rest
of the frame.

## Main results

* `processFrameAv1Loop_step` — one iteration.
* `processFrameAv1_progress_iff` — the frames on which the index only grows and the loop
  ends inside the frame.
-/

namespace Ekizu.Dave

open Lib.Span

/-! ## One OBU -/

/-- An OBU as the loop reads it at an index: its header byte, and where its payload starts
and how long it claims to be. -/
structure ObuSpan where
  header : UInt8
  payloadIndex : Nat
  payloadSize : Nat
  deriving Repr, DecidableEq

/-- The index behind the header byte at `i` and its extension byte. -/
def obuSizeIndex (header : UInt8) (i : Nat) : Nat :=
  if header &&& 0x04 ≠ 0 then i + 2 else i + 1

/-- The OBU at index `i`; `none` where the source returns false before it looks at the
size. -/
def obuAt (frame : Bytes) (i : Nat) : Option ObuSpan :=
  (frame[i]?).bind fun header =>
    if frame.length ≤ obuSizeIndex header i then none
    else if header &&& 0x02 ≠ 0 then
      (readLeb128 (frame.drop (obuSizeIndex header i))).map fun read =>
        ⟨header, frame.length - read.2.length, read.1⟩
    else some ⟨header, obuSizeIndex header i, frame.length - obuSizeIndex header i⟩

/-- The index behind the OBU, in 64 bits. -/
def ObuSpan.next (obu : ObuSpan) : Nat := (obu.payloadIndex + obu.payloadSize) % 2 ^ 64

/-- An OBU with this header is not one that the packetizer drops. -/
def ObuKept (header : UInt8) : Prop :=
  (header &&& 0x78) >>> 3 ≠ 2 ∧ (header &&& 0x78) >>> 3 ≠ 8 ∧ (header &&& 0x78) >>> 3 ≠ 15

instance (header : UInt8) : Decidable (ObuKept header) :=
  inferInstanceAs (Decidable (_ ∧ _))

/-- The calls for the OBU at index `i`. -/
def ObuSpan.pieces (frame : Bytes) (i : Nat) (obu : ObuSpan) : Option (List Piece) :=
  if ObuKept obu.header then
    obuPieces frame obu.header i obu.payloadIndex obu.payloadSize obu.next
  else some []

/-- **One iteration** of the loop of `process_frame_av1`. -/
theorem processFrameAv1Loop_step {frame : Bytes} {fuel i : Nat} (hi : i < frame.length) :
    processFrameAv1Loop frame (fuel + 1) i =
      match obuAt frame i with
      | none => some (false, [])
      | some obu =>
          if frame.length < obu.next then some (false, [])
          else (obu.pieces frame i).bind fun own =>
            (processFrameAv1Loop frame fuel obu.next).bind fun rest =>
              some (rest.1, own ++ rest.2) := by
  have hheader : frame[i]? = some frame[i] := List.getElem?_eq_getElem hi
  have hindex : (if frame[i] &&& 0x04 ≠ 0 then i + 2 else i + 1) = obuSizeIndex frame[i] i := rfl
  rw [processFrameAv1Loop, if_pos hi, obuAt, hheader]
  simp only [Option.bind_eq_bind, Option.bind_some, Option.pure_def, hindex]
  by_cases hshort : frame.length ≤ obuSizeIndex frame[i] i
  · rw [if_pos hshort, if_pos hshort]
  · rw [if_neg hshort, if_neg hshort]
    have hbody : ∀ obu : ObuSpan, obu.header = frame[i] →
        (if frame.length < obu.next then some (false, [])
          else if ObuKept frame[i] then
            (obuPieces frame frame[i] i obu.payloadIndex obu.payloadSize obu.next).bind
              fun own => (processFrameAv1Loop frame fuel obu.next).bind
                fun rest => some (rest.1, own ++ rest.2)
          else (processFrameAv1Loop frame fuel obu.next).bind
            fun rest => some (rest.1, [] ++ rest.2)) =
        if frame.length < obu.next then some (false, [])
        else (obu.pieces frame i).bind fun own =>
          (processFrameAv1Loop frame fuel obu.next).bind fun rest =>
            some (rest.1, own ++ rest.2) := by
      intro obu hsame
      unfold ObuSpan.pieces
      rw [hsame]
      by_cases hkept : ObuKept frame[i]
      · rw [if_pos hkept, if_pos hkept]
      · rw [if_neg hkept, if_neg hkept, Option.bind_some]
    by_cases hsize : frame[i] &&& 0x02 ≠ 0
    · rw [if_pos hsize, if_pos hsize]
      cases readLeb128 (frame.drop (obuSizeIndex frame[i] i)) with
      | none => rfl
      | some read => exact hbody ⟨frame[i], frame.length - read.2.length, read.1⟩ rfl
    · rw [if_neg hsize, if_neg hsize]
      exact hbody ⟨frame[i], obuSizeIndex frame[i] i, _⟩ rfl

theorem processFrameAv1Loop_end {frame : Bytes} {fuel i : Nat} (hi : frame.length ≤ i) :
    processFrameAv1Loop frame (fuel + 1) i = some (true, []) := by
  rw [processFrameAv1Loop, if_neg (by omega)]

/-- The header, the extension and the size field lie in the frame; a size is a 64-bit
value. -/
theorem obuAt_bounds {frame : Bytes} {i : Nat} {obu : ObuSpan} (h : obuAt frame i = some obu)
    (hframe : frame.length < 2 ^ 64) :
    i < obu.payloadIndex ∧ obu.payloadIndex ≤ frame.length ∧ obu.payloadSize < 2 ^ 64 ∧
      (obu.header &&& 0x04 ≠ 0 → i + 2 ≤ frame.length) := by
  obtain ⟨header, hheader, h⟩ := Option.bind_eq_some_iff.mp h
  have hindex : i < obuSizeIndex header i ∧
      (header &&& 0x04 ≠ 0 → i + 2 ≤ obuSizeIndex header i) := by
    unfold obuSizeIndex
    by_cases hext : header &&& 0x04 ≠ 0
    · rw [if_pos hext]
      omega
    · rw [if_neg hext]
      exact ⟨by omega, fun hno => absurd hno hext⟩
  generalize obuSizeIndex header i = sizeIndex at h hindex
  split at h
  · simp at h
  · split at h
    · obtain ⟨read, hread, rfl⟩ := Option.map_eq_some_iff.mp h
      obtain ⟨hvalue, taken, hcat, hone, hten⟩ := readLeb128_bounds hread
      have hlength : frame.length - sizeIndex = taken.length + read.2.length := by
        rw [← List.length_drop, hcat, List.length_append]
      exact ⟨by simp only; omega, by simp only; omega, hvalue,
        fun hext => by have := hindex.2 hext; omega⟩
    · obtain rfl := Option.some.inj h
      exact ⟨hindex.1, by simp only; omega, by simp only; omega,
        fun hext => by have := hindex.2 hext; omega⟩

/-- The calls for an OBU that lies in the frame do so, too, and those for one that claims the
largest size. -/
theorem ObuSpan.pieces_isSome {frame : Bytes} {i : Nat} {obu : ObuSpan}
    (h : obuAt frame i = some obu) (hframe : frame.length < 2 ^ 64)
    (hin : obu.payloadIndex + obu.payloadSize ≤ frame.length ∨
      obu.payloadSize = dynamicExtent) :
    (obu.pieces frame i).isSome = true := by
  have hbounds := obuAt_bounds h hframe
  obtain ⟨payload, hpayload⟩ := Option.isSome_iff_exists.mp
    ((subspan_isSome_iff hbounds.2.1).mpr hin)
  unfold ObuSpan.pieces
  split
  · unfold obuPieces
    rw [hpayload]
    by_cases hext : obu.header &&& 0x04 ≠ 0
    · have hfit := hbounds.2.2.2 hext
      rw [if_pos hext, subspan_of_le (by omega)]
      rfl
    · rw [if_neg hext]
      rfl
  · rfl

/-- Any other kept OBU that claims to reach past the frame is taken outside it. -/
theorem ObuSpan.pieces_none {frame : Bytes} {i : Nat} {obu : ObuSpan} (hkept : ObuKept obu.header)
    (hout : frame.length < obu.payloadIndex + obu.payloadSize)
    (hsize : obu.payloadSize ≠ dynamicExtent) :
    obu.pieces frame i = none := by
  have hpayload := subspan_of_lt hout hsize
  unfold ObuSpan.pieces
  rw [if_pos hkept]
  unfold obuPieces
  simp only [hpayload, Option.bind_eq_bind, Option.bind_none]
  split
  · cases subspan frame (i + 1) 1 <;> rfl
  · rfl

/-! ## The walk -/

/-- The values of `i` at the loop condition. -/
inductive LoopAt (frame : Bytes) : Nat → Prop
  | start : LoopAt frame 0
  | step {i : Nat} {obu : ObuSpan} : LoopAt frame i → obuAt frame i = some obu →
      obu.next ≤ frame.length → LoopAt frame obu.next

theorem LoopAt.le_length {frame : Bytes} {i : Nat} (h : LoopAt frame i) :
    i ≤ frame.length := by
  cases h with
  | start => exact Nat.zero_le _
  | step _ _ hle => exact hle

/-- The index is greater after every iteration than before it. -/
def IndexGrows (frame : Bytes) : Prop :=
  ∀ i obu, LoopAt frame i → obuAt frame i = some obu → obu.next ≤ frame.length → i < obu.next

/-- Where an OBU that the walk comes to wraps the index, the index still lands behind its
header, and the OBU is one that is dropped or claims the largest size. -/
def HarmlessWraps (frame : Bytes) : Prop :=
  ∀ i obu, LoopAt frame i → obuAt frame i = some obu →
    2 ^ 64 ≤ obu.payloadIndex + obu.payloadSize →
      (ObuKept obu.header → obu.payloadSize = 2 ^ 64 - 1) ∧ i < obu.next

theorem obuAt_lt {frame : Bytes} {i : Nat} {obu : ObuSpan} (h : obuAt frame i = some obu) :
    i < frame.length := by
  obtain ⟨header, hheader, -⟩ := Option.bind_eq_some_iff.mp h
  exact (List.getElem?_eq_some_iff.mp hheader).1

/-- A run that ends passes every index of the walk. -/
theorem LoopAt.isSome {frame : Bytes} {i : Nat} (h : LoopAt frame i)
    (hends : (processFrameAv1 frame).isSome = true) :
    ∃ fuel, (processFrameAv1Loop frame fuel i).isSome = true := by
  induction h with
  | start => exact ⟨frame.length + 1, hends⟩
  | @step i obu _ hobu hle ih =>
      obtain ⟨fuel, hfuel⟩ := ih
      cases fuel with
      | zero => exact absurd hfuel (by simp [processFrameAv1Loop])
      | succ fuel =>
          refine ⟨fuel, ?_⟩
          rw [processFrameAv1Loop_step (obuAt_lt hobu), hobu] at hfuel
          simp only [if_neg (show ¬ frame.length < obu.next by omega)] at hfuel
          obtain ⟨result, hresult⟩ := Option.isSome_iff_exists.mp hfuel
          obtain ⟨own, -, hresult⟩ := Option.bind_eq_some_iff.mp hresult
          obtain ⟨rest, hrest, -⟩ := Option.bind_eq_some_iff.mp hresult
          rw [hrest]
          rfl

/-- Without a harmful wrap the loop ends: the index grows to the end of the frame. -/
theorem processFrameAv1Loop_isSome {frame : Bytes} (hframe : frame.length < 2 ^ 64)
    (hgrows : IndexGrows frame) (hwraps : HarmlessWraps frame) (fuel : Nat) :
    ∀ i, LoopAt frame i → frame.length < i + fuel →
      (processFrameAv1Loop frame fuel i).isSome = true := by
  induction fuel with
  | zero =>
      intro i hi hfuel
      have hle := hi.le_length
      omega
  | succ fuel ih =>
      intro i hi hfuel
      by_cases hend : frame.length ≤ i
      · rw [processFrameAv1Loop_end hend]
        rfl
      · rw [processFrameAv1Loop_step (by omega)]
        cases hobu : obuAt frame i with
        | none => rfl
        | some obu =>
            simp only
            split
            · rfl
            · next hinside =>
                have hlt := hgrows i obu hi hobu (by omega)
                have hrest := ih obu.next (.step hi hobu (by omega)) (by omega)
                have hown : (obu.pieces frame i).isSome = true := by
                  by_cases hwrap : 2 ^ 64 ≤ obu.payloadIndex + obu.payloadSize
                  · by_cases hkept : ObuKept obu.header
                    · exact ObuSpan.pieces_isSome hobu hframe
                        (.inr ((hwraps i obu hi hobu hwrap).1 hkept))
                    · unfold ObuSpan.pieces
                      rw [if_neg hkept]
                      rfl
                  · refine ObuSpan.pieces_isSome hobu hframe (.inl ?_)
                    have hsum : obu.next = obu.payloadIndex + obu.payloadSize :=
                      Nat.mod_eq_of_lt (by omega)
                    omega
                obtain ⟨own, hown⟩ := Option.isSome_iff_exists.mp hown
                obtain ⟨rest, hrest⟩ := Option.isSome_iff_exists.mp hrest
                rw [hown, Option.bind_some, hrest]
                rfl

/-- **AV1 splitting** ends, with an index that only grows and every access inside the frame,
exactly when no OBU that wraps the index brings it back to its header or in front of it, and
a kept one that wraps it claims the largest size. -/
theorem processFrameAv1_progress_iff (frame : Bytes) (hframe : frame.length < 2 ^ 64) :
    ((processFrameAv1 frame).isSome = true ∧ IndexGrows frame) ↔ HarmlessWraps frame := by
  constructor
  · rintro ⟨hends, hgrows⟩ i obu hi hobu hwrap
    have hbounds := obuAt_bounds hobu hframe
    have hnext : obu.next = obu.payloadIndex + obu.payloadSize - 2 ^ 64 := by
      unfold ObuSpan.next
      omega
    have hback : obu.next ≤ frame.length := by omega
    refine ⟨fun hkept => ?_, hgrows i obu hi hobu hback⟩
    by_contra hsize
    -- the payload of a kept OBU is taken before the index moves
    obtain ⟨fuel, hfuel⟩ := hi.isSome hends
    cases fuel with
    | zero => exact absurd hfuel (by simp [processFrameAv1Loop])
    | succ fuel =>
        rw [processFrameAv1Loop_step (obuAt_lt hobu), hobu] at hfuel
        simp only [if_neg (show ¬ frame.length < obu.next by omega),
          ObuSpan.pieces_none hkept (show frame.length < _ by omega) hsize,
          Option.bind_none] at hfuel
        exact absurd hfuel (by simp)
  · intro hwraps
    have hgrows : IndexGrows frame := by
      intro i obu hi hobu hle
      have hbounds := obuAt_bounds hobu hframe
      by_cases hwrap : 2 ^ 64 ≤ obu.payloadIndex + obu.payloadSize
      · exact (hwraps i obu hi hobu hwrap).2
      · have hsum : obu.next = obu.payloadIndex + obu.payloadSize := Nat.mod_eq_of_lt (by omega)
        omega
    exact ⟨processFrameAv1Loop_isSome hframe hgrows hwraps (frame.length + 1) 0 .start
      (by omega), hgrows⟩

/-- A temporal delimiter and a frame OBU of two bytes. -/
def plainAv1 : Bytes := [0x12, 0, 0x32, 2, 7, 9]

theorem processFrameAv1_progress_iff_plain :
    (processFrameAv1 plainAv1).isSome = true ∧ IndexGrows plainAv1 := by
  have hsizes : ∀ i < 6, (obuAt plainAv1 i).all (fun obu =>
      decide (obu.payloadIndex + obu.payloadSize < 2 ^ 64)) = true := by
    decide +kernel
  refine (processFrameAv1_progress_iff plainAv1 (by decide)).mpr fun i obu hi hobu hwrap => ?_
  have hsum := hsizes i (obuAt_lt hobu)
  rw [hobu, Option.all_some, decide_eq_true_eq] at hsum
  omega

/-- A temporal delimiter whose size brings the index back to 0. -/
def loopingAv1 : Bytes := [0x12, 0xF5, 0xFF, 0xFF, 0xFF, 0xFF, 0xFF, 0xFF, 0xFF, 0xFF, 1]

/-- The loop does not end. -/
theorem processFrameAv1_looping :
    ¬ ∀ frame : Bytes, frame.length < 2 ^ 64 →
        (processFrameAv1 frame).isSome = true ∧ IndexGrows frame := by
  intro hall
  have hends := (hall loopingAv1 (by decide)).1
  revert hends
  decide +kernel

end Ekizu.Dave
