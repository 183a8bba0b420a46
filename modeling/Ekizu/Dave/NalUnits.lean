import Ekizu.Dave.Bookkeeping
import Ekizu.Dave.NaluSearch

/-!
# NAL units

The loop that `process_frame_h264` and `process_frame_h265` run over the start codes of a
frame.  A unit reaches from behind its start code to the next one, whose leading zero is
not part of it.

## Main results

* `processFrameH26x_isSome_iff` — the loop stays in the frame when its body does at every
  unit.
* `processFrameH265_inRange_iff` — the frames that H265 splitting stays inside of, with no
  length that wraps.
* `processFrameH265_of_checked` — there the machine computes the checked lengths.
-/

namespace Ekizu.Dave

open Lib.Span

/-! ## Units -/

/-- Where the unit in front of the start code at `k` ends. -/
def unitEnd (frame : Bytes) (k : Nat) : Nat := k + 3 - startCodeSize frame k

/-- The leading zero of a start code is the byte in front of its three. -/
theorem unitEnd_cases (frame : Bytes) (k : Nat) :
    (startCodeSize frame k = 4 ∧ unitEnd frame k + 1 = k ∧ frame[unitEnd frame k]? = some 0) ∨
      (startCodeSize frame k = 3 ∧ unitEnd frame k = k ∧
        ¬ (1 ≤ k ∧ frame[k - 1]? = some 0)) := by
  unfold unitEnd
  by_cases hlong : 1 ≤ k ∧ frame[k - 1]? = some 0
  · have hsize : startCodeSize frame k = 4 := if_pos hlong
    refine .inl ⟨hsize, by omega, ?_⟩
    rw [hsize, show k + 3 - 4 = k - 1 by omega]
    exact hlong.2
  · have hsize : startCodeSize frame k = 3 := if_neg hlong
    exact .inr ⟨hsize, by omega, hlong⟩

theorem unitEnd_le (frame : Bytes) (k : Nat) : unitEnd frame k ≤ k := by
  cases unitEnd_cases frame k with
  | inl hlong => omega
  | inr hshort => omega

/-- A unit does not end in front of its own start. -/
theorem StartCodeAt.le_unitEnd {frame : Bytes} {i k : Nat} (hi : StartCodeAt frame i)
    (hk : i + 3 ≤ k) : i + 3 ≤ unitEnd frame k := by
  cases unitEnd_cases frame k with
  | inl hlong =>
      obtain ⟨-, hend, hzero⟩ := hlong
      by_contra hnear
      -- the leading zero would be the last byte of the start code at `i`
      have hone := (startCodeAt_iff.mp hi).2.2
      rw [show unitEnd frame k = i + 2 by omega, hone] at hzero
      exact absurd hzero (by decide)
  | inr hshort => omega

/-- `next_nalu_start` for the unit behind the start code at `i`. -/
theorem nextNaluStart_eq {frame : Bytes} {i : Nat} {next : Option (Nat × Nat)}
    (hi : StartCodeAt frame i) (h : Scanned frame (i + 3) next) :
    ∃ stop, nextNaluStart frame next = some stop ∧ i + 3 ≤ stop ∧ stop ≤ frame.length ∧
      ((next = none ∧ stop = frame.length) ∨
        ∃ k, FirstFrom frame (i + 3) k ∧ next = some (k + 3, startCodeSize frame k) ∧
          stop = unitEnd frame k) := by
  cases h with
  | inl hno =>
      have hle := hi.le_length
      rw [hno.1]
      exact ⟨frame.length, rfl, hle, Nat.le_refl _, .inl ⟨rfl, rfl⟩⟩
  | inr hfirst =>
      obtain ⟨k, hk, rfl⟩ := hfirst
      have hroom := hk.room
      have hsize : startCodeSize frame k ≤ k + 3 := by
        cases unitEnd_cases frame k with
        | inl hlong => omega
        | inr hshort => omega
      refine ⟨unitEnd frame k, sub_of_le hsize, hi.le_unitEnd hk.from_le, ?_,
        .inr ⟨k, hk, rfl, rfl⟩⟩
      unfold unitEnd
      omega

theorem Scanned.unique {frame : Bytes} {i : Nat} {found other : Option (Nat × Nat)}
    (h : Scanned frame i found) (h' : Scanned frame i other) : found = other := by
  obtain ⟨hno, hnone⟩ | ⟨k, hk, hfound⟩ := h
  · obtain ⟨hno', -⟩ | ⟨k', hk', -⟩ := h'
    · rw [hno, hno']
    · exact absurd hk'.code (hnone k' hk'.from_le hk'.room)
  · obtain ⟨-, hnone'⟩ | ⟨k', hk', hfound'⟩ := h'
    · exact absurd hk.code (hnone' k hk.from_le hk.room)
    · rw [hfound, hfound', hk.unique hk']

/-- A start code from `i` on is the first one, or lies behind it. -/
theorem FirstFrom.eq_or_later {frame : Bytes} {i k j : Nat} (h : FirstFrom frame i k)
    (hle : i ≤ j) (hj : StartCodeAt frame j) : j = k ∨ k + 3 ≤ j := by
  by_cases hlt : k < j
  · exact .inr (h.code.apart hj hlt)
  · by_cases hsame : j = k
    · exact .inl hsame
    · exact absurd hj (h.least j hle (by omega))

/-! ## The loop -/

section Loop

variable {unit : Bytes → Nat → Option (Nat × Nat) → Option (List Piece)} {frame : Bytes}

theorem nalUnitLoop_none : nalUnitLoop unit frame none = some [] := by
  rw [nalUnitLoop]

/-- The loop guard drops a unit of a single byte at the end of the frame. -/
theorem nalUnitLoop_last {start size : Nat} (h : frame.length ≤ start + 1) :
    nalUnitLoop unit frame (some (start, size)) = some [] := by
  rw [nalUnitLoop, if_neg (by omega)]

theorem nalUnitLoop_step {start size : Nat} {next : Option (Nat × Nat)}
    (h : start + 1 < frame.length) (hnext : nextH26xNaluIndex frame start = some next) :
    nalUnitLoop unit frame (some (start, size)) =
      (unit frame start next).bind fun pieces =>
        (nalUnitLoop unit frame next).bind fun rest => some (pieces ++ rest) := by
  rw [nalUnitLoop, if_pos h]
  split
  · next hnone => exact absurd (hnone.symm.trans hnext) (by simp)
  · next found hfound =>
      obtain rfl := Option.some.inj (hfound.symm.trans hnext)
      rfl

/-- **The loop stays in the frame** when its body does at every unit of two bytes or more. -/
theorem nalUnitLoop_isSome_iff {i : Nat} {pair : Option (Nat × Nat)}
    (h : Scanned frame i pair) :
    (nalUnitLoop unit frame pair).isSome = true ↔
      ∀ j next, i ≤ j → StartCodeAt frame j → j + 4 < frame.length →
        Scanned frame (j + 3) next → (unit frame (j + 3) next).isSome = true := by
  induction hn : frame.length - i using Nat.strongRecOn generalizing i pair with
  | ind n ih =>
      cases h with
      | inl hno =>
          rw [hno.1, nalUnitLoop_none]
          refine iff_of_true rfl fun j next hle hj hroom _ => ?_
          exact absurd hj (hno.2 j hle (by omega))
      | inr hfirst =>
          obtain ⟨k, hk, rfl⟩ := hfirst
          have hfrom := hk.from_le
          have hin := hk.room
          by_cases hmore : k + 4 < frame.length
          · obtain ⟨next, hnext, hscan⟩ := nextH26xNaluIndex_eq frame (k + 3)
            have hrest := ih (frame.length - (k + 3)) (by omega) hscan rfl
            have hboth : (nalUnitLoop unit frame (some (k + 3, startCodeSize frame k))).isSome =
                true ↔ (unit frame (k + 3) next).isSome = true ∧
                  (nalUnitLoop unit frame next).isSome = true := by
              rw [nalUnitLoop_step (by omega) hnext]
              cases unit frame (k + 3) next with
              | none => simp
              | some pieces => cases nalUnitLoop unit frame next <;> simp
            rw [hboth, hrest]
            constructor
            · intro hall j next' hle hj hroom hscan'
              cases hk.eq_or_later hle hj with
              | inl hsame =>
                  subst hsame
                  rw [hscan'.unique hscan]
                  exact hall.1
              | inr hlater => exact hall.2 j next' hlater hj hroom hscan'
            · intro hall
              exact ⟨hall k next hfrom hk.code hmore hscan,
                fun j next' hle hj hroom hscan' =>
                  hall j next' (by omega) hj hroom hscan'⟩
          · rw [nalUnitLoop_last (by omega)]
            refine iff_of_true rfl fun j next hle hj hroom _ => ?_
            cases hk.eq_or_later hle hj with
            | inl hsame => omega
            | inr hlater => omega

/-- What is done with a frame behind the search for its first start code. -/
theorem processFrameH26x_eq {header : Nat} {first : Option (Nat × Nat)}
    (hlong : naluShortStartSequenceSize + header ≤ frame.length)
    (hfirst : nextH26xNaluIndex frame 0 = some first) :
    processFrameH26x unit header frame =
      (nalUnitLoop unit frame first).map fun pieces => (true, pieces) := by
  rw [processFrameH26x, if_neg (by omega), hfirst, Option.bind_eq_bind, Option.bind_some]
  cases nalUnitLoop unit frame first with
  | none => rfl
  | some pieces => rfl

theorem processFrameH26x_isSome_iff {header : Nat} (hheader : header ≤ 2) :
    (processFrameH26x unit header frame).isSome = true ↔
      ∀ j next, StartCodeAt frame j → j + 4 < frame.length → Scanned frame (j + 3) next →
        (unit frame (j + 3) next).isSome = true := by
  by_cases hlong : naluShortStartSequenceSize + header ≤ frame.length
  · obtain ⟨first, hfirst, hscan⟩ := nextH26xNaluIndex_eq frame 0
    rw [processFrameH26x_eq hlong hfirst, Option.isSome_map, nalUnitLoop_isSome_iff hscan]
    exact ⟨fun hall j next => hall j next (Nat.zero_le j), fun hall j next _ => hall j next⟩
  · rw [processFrameH26x, if_pos (by omega)]
    simp only [naluShortStartSequenceSize] at hlong
    exact iff_of_true rfl fun j next _ hroom => absurd hroom (by omega)

/-- **A body that does more** than another does the same to a frame that the other stays
inside of. -/
theorem processFrameH26x_mono
    {other : Bytes → Nat → Option (Nat × Nat) → Option (List Piece)} {header : Nat}
    (hmore : ∀ start next pieces, unit frame start next = some pieces →
      other frame start next = some pieces)
    {result : Bool × List Piece} (h : processFrameH26x unit header frame = some result) :
    processFrameH26x other header frame = some result := by
  have hloop : ∀ pair pieces, nalUnitLoop unit frame pair = some pieces →
      nalUnitLoop other frame pair = some pieces := by
    intro pair
    fun_induction nalUnitLoop unit frame pair with
    | case1 =>
        intro pieces hpieces
        rw [nalUnitLoop_none]
        exact hpieces
    | case2 start size hroom hnone =>
        intro pieces hpieces
        cases hpieces
    | case3 start size hroom next hnext ih =>
        intro pieces hpieces
        obtain ⟨own, hown, hpieces⟩ := Option.bind_eq_some_iff.mp hpieces
        obtain ⟨rest, hrest, hpieces⟩ := Option.bind_eq_some_iff.mp hpieces
        rw [nalUnitLoop_step hroom hnext, hmore start next own hown, Option.bind_some,
          ih rest hrest]
        exact hpieces
    | case4 start size hlast =>
        intro pieces hpieces
        rw [nalUnitLoop_last (by omega)]
        exact hpieces
  by_cases hlong : naluShortStartSequenceSize + header ≤ frame.length
  · obtain ⟨first, hfirst, -⟩ := nextH26xNaluIndex_eq frame 0
    rw [processFrameH26x_eq hlong hfirst] at h ⊢
    obtain ⟨pieces, hpieces, rfl⟩ := Option.map_eq_some_iff.mp h
    rw [hloop first pieces hpieces, Option.map_some]
  · rw [processFrameH26x, if_pos (by omega)] at h ⊢
    exact h

end Loop

/-! ## Headers -/

/-- The unit that starts at `start` ends at `stop`: in front of the next start code, or with
the frame. -/
def UnitStops (frame : Bytes) (start stop : Nat) : Prop :=
  (∃ k, FirstFrom frame start k ∧ stop = unitEnd frame k) ∨
    ((∀ k, start ≤ k → k + 3 < frame.length → ¬ StartCodeAt frame k) ∧ stop = frame.length)

theorem unitStops_iff {frame : Bytes} {i stop : Nat} {next : Option (Nat × Nat)}
    (hi : StartCodeAt frame i) (h : Scanned frame (i + 3) next) :
    UnitStops frame (i + 3) stop ↔ nextNaluStart frame next = some stop := by
  obtain ⟨stop', hstop', -, -, hcase⟩ := nextNaluStart_eq hi h
  rw [hstop', Option.some_inj]
  obtain ⟨hno, hlast⟩ | ⟨k, hk, -, hend⟩ := hcase
  · have hnone : ∀ k, i + 3 ≤ k → k + 3 < frame.length → ¬ StartCodeAt frame k := by
      obtain ⟨-, hnone⟩ | ⟨k, -, hk⟩ := h
      · exact hnone
      · exact absurd (hno.symm.trans hk) (by simp)
    constructor
    · rintro (⟨k, hk, -⟩ | ⟨-, hstop⟩)
      · exact absurd hk.code (hnone k hk.from_le hk.room)
      · rw [hlast, hstop]
    · rintro rfl
      exact .inr ⟨hnone, hlast⟩
  · constructor
    · rintro (⟨k', hk', hstop⟩ | ⟨hnone, -⟩)
      · rw [hend, hstop, hk.unique hk']
      · exact absurd hk.code (hnone k hk.from_le hk.room)
    · rintro rfl
      exact .inl ⟨k, hk, hend⟩

/-- The unit behind the start code at `i` is long enough for its header. -/
def FitsAt (fits : Bytes → Nat → Nat → Prop) (frame : Bytes) (i : Nat) : Prop :=
  ∀ stop, UnitStops frame (i + 3) stop → fits frame (i + 3) stop

/-- From `low` on every unit of two bytes or more is long enough for its header. -/
def HeadersFitFrom (fits : Bytes → Nat → Nat → Prop) (frame : Bytes) (low : Nat) : Prop :=
  ∀ i, low ≤ i → StartCodeAt frame i → i + 4 < frame.length → FitsAt fits frame i

theorem fitsAt_iff {fits : Bytes → Nat → Nat → Prop} {frame : Bytes} {i stop : Nat}
    {next : Option (Nat × Nat)} (hi : StartCodeAt frame i) (hnext : Scanned frame (i + 3) next)
    (hstop : nextNaluStart frame next = some stop) :
    FitsAt fits frame i ↔ fits frame (i + 3) stop := by
  constructor
  · intro hall
    exact hall stop ((unitStops_iff hi hnext).mpr hstop)
  · intro hfits stop' hstop'
    obtain rfl := Option.some.inj (hstop.symm.trans ((unitStops_iff hi hnext).mp hstop'))
    exact hfits

/-- **Every unit is long enough** for its header where the body says so of each. -/
theorem processFrameH26x_fits_iff {fits : Bytes → Nat → Nat → Prop}
    {unit : Bytes → Nat → Option (Nat × Nat) → Option (List Piece)} {frame : Bytes} {header : Nat}
    (hheader : header ≤ 2)
    (hunit : ∀ i next stop, StartCodeAt frame i → i + 4 < frame.length →
      Scanned frame (i + 3) next → nextNaluStart frame next = some stop →
        ((unit frame (i + 3) next).isSome = true ↔ fits frame (i + 3) stop)) :
    (processFrameH26x unit header frame).isSome = true ↔ HeadersFitFrom fits frame 0 := by
  refine (processFrameH26x_isSome_iff hheader).trans ?_
  constructor
  · intro hall i _ hi hroom
    obtain ⟨next, -, hnext⟩ := nextH26xNaluIndex_eq frame (i + 3)
    obtain ⟨stop, hstop, -⟩ := nextNaluStart_eq hi hnext
    exact (fitsAt_iff hi hnext hstop).mpr
      ((hunit i next stop hi hroom hnext hstop).mp (hall i next hi hroom hnext))
  · intro hfits i next hi hroom hnext
    obtain ⟨stop, hstop, -⟩ := nextNaluStart_eq hi hnext
    exact (hunit i next stop hi hroom hnext hstop).mpr
      ((fitsAt_iff hi hnext hstop).mp (hfits i (Nat.zero_le i) hi hroom))

/-! ## H265 -/

/-- The unit that starts at `start` is of a VCL type. -/
def VclUnit (frame : Bytes) (start : Nat) : Prop :=
  ∃ header, frame[start]? = some header ∧ (header &&& 0x7E) >>> 1 < 32

/-- The unit from `start` to `stop` has the two bytes of its header when it is of a VCL type. -/
def VclFits (frame : Bytes) (start stop : Nat) : Prop := VclUnit frame start → start + 2 ≤ stop

theorem vclUnit_iff {frame : Bytes} {start : Nat} {header : UInt8}
    (h : frame[start]? = some header) :
    VclUnit frame start ↔ (header &&& 0x7E) >>> 1 < 32 := by
  unfold VclUnit
  rw [h]
  simp

/-- The checked body of the H265 loop stays in the frame unless it takes a two-byte header
off a shorter unit. -/
theorem h265Unit_isSome_iff {frame : Bytes} {start stop : Nat} {next : Option (Nat × Nat)}
    (hroom : start + 1 < frame.length) (hstop : nextNaluStart frame next = some stop)
    (hle : start ≤ stop) (hend : stop ≤ frame.length) :
    (h265Unit sub frame start next).isSome = true ↔ VclFits frame start stop := by
  have hheader : frame[start]? = some frame[start] := List.getElem?_eq_getElem (by omega)
  rw [VclFits, vclUnit_iff hheader]
  unfold h265Unit
  simp only [hheader, hstop, Option.bind_eq_bind, Option.bind_some]
  split
  · next htype =>
      rw [subspan_of_le (by omega), Option.bind_some]
      by_cases hfit : start + 2 ≤ stop
      · rw [sub_of_le hfit, Option.bind_some, subspan_of_le (by omega)]
        exact iff_of_true rfl fun _ => hfit
      · have hwrap : sub stop (start + 2) = none := if_neg hfit
        rw [hwrap]
        exact iff_of_false (by simp) fun hall => hfit (hall htype)
  · next htype =>
      rw [sub_of_le hle, Option.bind_some, subspan_of_le (by omega)]
      exact iff_of_true rfl fun hno => absurd hno htype

/-- Every VCL unit in front of another start code has the two bytes of its header. -/
def VclHeadersFit (frame : Bytes) : Prop :=
  ∀ i k, StartCodeAt frame i → StartCodeAt frame k → i < k → k + 3 < frame.length →
    VclUnit frame (i + 3) → i + 3 + 2 ≤ unitEnd frame k

theorem processFrameH265Checked_isSome_iff (frame : Bytes) :
    (processFrameH265Checked frame).isSome = true ↔ HeadersFitFrom VclFits frame 0 := by
  refine processFrameH26x_fits_iff (by decide) fun i next stop hi hroom hnext hstop => ?_
  obtain ⟨stop', hstop', hle, hend, -⟩ := nextNaluStart_eq hi hnext
  obtain rfl := Option.some.inj (hstop.symm.trans hstop')
  exact h265Unit_isSome_iff (by omega) hstop hle hend

/-- A last unit of two bytes or more has its header; any other ends at a start code. -/
theorem vclHeadersFit_iff (frame : Bytes) :
    VclHeadersFit frame ↔ HeadersFitFrom VclFits frame 0 := by
  constructor
  · rintro hfit i - hi hroom stop (⟨k, hk, rfl⟩ | ⟨-, rfl⟩) hvcl
    · have hfrom := hk.from_le
      exact hfit i k hi hk.code (by omega) hk.room hvcl
    · omega
  · intro hall i k hi hk hlt hroom hvcl
    have hapart := hi.apart hk hlt
    obtain ⟨next, -, hnext⟩ := nextH26xNaluIndex_eq frame (i + 3)
    obtain ⟨-, hnone⟩ | ⟨m, hm, -⟩ := hnext
    · exact absurd hk (hnone k hapart hroom)
    · have hfit := hall i (Nat.zero_le i) hi (by omega) _ (.inl ⟨m, hm, rfl⟩) hvcl
      cases hm.eq_or_later hapart hk with
      | inl hsame => rwa [hsame]
      | inr hlater =>
          have hback := hm.code.le_unitEnd hlater
          have hcut := unitEnd_le frame m
          omega

/-- **H265 splitting stays inside the frame**, with no length that wraps, exactly when no VCL
unit in front of another start code is shorter than its header. -/
theorem processFrameH265_inRange_iff (frame : Bytes) :
    (processFrameH265Checked frame).isSome = true ↔ VclHeadersFit frame :=
  (processFrameH265Checked_isSome_iff frame).trans (vclHeadersFit_iff frame).symm

/-- Where a checked difference is one, the machine computes it. -/
theorem h265Unit_of_checked {frame : Bytes} {start : Nat} {next : Option (Nat × Nat)}
    {pieces : List Piece} (h : h265Unit sub frame start next = some pieces) :
    h265Unit wrappingSub frame start next = some pieces := by
  unfold h265Unit at h ⊢
  simp only [Option.bind_eq_bind] at h ⊢
  obtain ⟨header, hheader, h⟩ := Option.bind_eq_some_iff.mp h
  obtain ⟨stop, hstop, h⟩ := Option.bind_eq_some_iff.mp h
  rw [hheader, Option.bind_some, hstop, Option.bind_some]
  split at h
  · next htype =>
      obtain ⟨clear, hclear, h⟩ := Option.bind_eq_some_iff.mp h
      obtain ⟨size, hsize, h⟩ := Option.bind_eq_some_iff.mp h
      rw [if_pos htype, hclear, Option.bind_some, wrappingSub_of_sub hsize]
      exact h
  · next htype =>
      obtain ⟨size, hsize, h⟩ := Option.bind_eq_some_iff.mp h
      rw [if_neg htype, wrappingSub_of_sub hsize]
      exact h

/-- **Where no length wraps** the machine computes the checked ones. -/
theorem processFrameH265_of_checked {frame : Bytes} {result : Bool × List Piece}
    (h : processFrameH265Checked frame = some result) : processFrameH265 frame = some result :=
  processFrameH26x_mono (fun _ _ _ => h265Unit_of_checked) h

/-- A slice unit of one byte in front of another one. -/
def shortSlice : Bytes := [0, 0, 0, 1, 2, 0, 0, 0, 1, 0x26, 1]

/-- The header of the first unit reaches past its end. -/
theorem processFrameH265_shortSlice :
    ¬ ∀ frame, (processFrameH265Checked frame).isSome = true := by
  intro hall
  have hwraps : processFrameH265Checked shortSlice = none := by
    decide +kernel
  have hruns := hall shortSlice
  rw [hwraps] at hruns
  exact absurd hruns (by decide)

end Ekizu.Dave
