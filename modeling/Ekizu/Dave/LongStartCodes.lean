import Ekizu.Dave.SliceHeaders

/-!
# What splitting keeps

WebRTC turns every start code into the four-byte form on the receiver's side, so
`process_frame_h264` and `process_frame_h265` write it that way themselves.  Apart from
that the pieces should be the frame.  They are, except at its end, where the loop guard drops
a last NAL unit of a single byte and the search does not see a start code without a byte
behind it, and at a unit that is one byte too short for its header: the length of what is
left of it wraps to the one that asks for the rest of the frame.

## Main results

* `splitUnit_wraps` — what is written of a unit that is too short.
* `nalUnitLoop_bytes_iff` — what the loop keeps of the frame from a start code on.
* `splitting_lossless_iff` — the frames that lose nothing.
-/

namespace Ekizu.Dave

open Lib.Span

/-! ## Long start codes -/

/-- Every start code, with one preceding zero when present, replaced by the long one. -/
def longStartCodes : Bytes → Bytes
  | [] => []
  | byte :: rest =>
      if (byte :: rest).take 4 = naluLongStartCode then
        naluLongStartCode ++ longStartCodes (rest.drop 3)
      else if (byte :: rest).take 3 = naluShortStartCode then
        naluLongStartCode ++ longStartCodes (rest.drop 2)
      else byte :: longStartCodes rest
termination_by bytes => bytes.length
decreasing_by all_goals simp only [List.length_drop, List.length_cons]; omega

/-- The long start code is a zero in front of a short one. -/
theorem take_four_iff {frame : Bytes} {a : Nat} :
    (frame.drop a).take 4 = naluLongStartCode ↔
      frame[a]? = some 0 ∧ StartCodeAt frame (a + 1) := by
  constructor
  · intro h
    have hcell : ∀ m < 4, frame[a + m]? = naluLongStartCode[m]? := by
      intro m hm
      rw [← h, List.getElem?_take, if_pos hm, List.getElem?_drop]
    exact ⟨hcell 0 (by omega), startCodeAt_iff.mpr
      ⟨hcell 1 (by omega), hcell 2 (by omega), hcell 3 (by omega)⟩⟩
  · rintro ⟨hzero, hcode⟩
    have hthree := startCodeAt_iff.mp hcode
    apply List.ext_getElem?
    intro m
    rw [List.getElem?_take, List.getElem?_drop]
    match m with
    | 0 => exact hzero
    | 1 => exact hthree.1
    | 2 => exact hthree.2.1
    | 3 => exact hthree.2.2
    | m + 4 => rfl

/-- Bytes in front of any start code stay as they are. -/
theorem longStartCodes_drop {frame : Bytes} {a b : Nat} (hab : a ≤ b) (hb : b ≤ frame.length)
    (hnone : ∀ m, a ≤ m → m < b →
      ¬ StartCodeAt frame m ∧ ¬ (frame[m]? = some 0 ∧ StartCodeAt frame (m + 1))) :
    longStartCodes (frame.drop a) =
      (frame.drop a).take (b - a) ++ longStartCodes (frame.drop b) := by
  induction hn : b - a generalizing a with
  | zero =>
      obtain rfl : a = b := by omega
      rfl
  | succ n ih =>
      have hlt : a < frame.length := by omega
      have hhere := hnone a (Nat.le_refl a) (by omega)
      have hlong : ¬ (frame.drop a).take 4 = naluLongStartCode :=
        fun h => hhere.2 (take_four_iff.mp h)
      have hshort : ¬ (frame.drop a).take 3 = naluShortStartCode := hhere.1
      have hrest := ih (a := a + 1) (by omega) (fun m hlow hhigh => hnone m (by omega) hhigh)
        (by omega)
      rw [List.drop_eq_getElem_cons hlt] at hlong hshort ⊢
      rw [longStartCodes, if_neg hlong, if_neg hshort, hrest, List.take_succ_cons,
        List.cons_append]

/-- A start code becomes the long one. -/
theorem longStartCodes_code {frame : Bytes} {k : Nat} (hcode : StartCodeAt frame k) :
    longStartCodes (frame.drop (unitEnd frame k)) =
      naluLongStartCode ++ longStartCodes (frame.drop (k + 3)) := by
  have hle := hcode.le_length
  cases unitEnd_cases frame k with
  | inl hlong =>
      obtain ⟨-, hend, hzero⟩ := hlong
      have htake : (frame.drop (unitEnd frame k)).take 4 = naluLongStartCode :=
        take_four_iff.mpr ⟨hzero, by rwa [hend]⟩
      have hlt : unitEnd frame k < frame.length := by omega
      rw [List.drop_eq_getElem_cons hlt] at htake ⊢
      rw [longStartCodes, if_pos htake, List.drop_drop,
        show unitEnd frame k + 1 + 3 = k + 3 by omega]
  | inr hshort =>
      have hend := hshort.2.1
      have hlt : k < frame.length := by omega
      have htake : (frame.drop k).take 3 = naluShortStartCode := hcode
      have hnot : ¬ (frame.drop k).take 4 = naluLongStartCode := by
        intro h
        have hnear := hcode.apart (take_four_iff.mp h).2 (by omega)
        omega
      rw [hend]
      rw [List.drop_eq_getElem_cons hlt] at htake hnot ⊢
      rw [longStartCodes, if_neg hnot, if_pos htake, List.drop_drop]

/-- Up to the end of a unit nothing is replaced. -/
theorem longStartCodes_unit {frame : Bytes} {i k : Nat} (hi : StartCodeAt frame i)
    (hk : StartCodeAt frame k) (hlow : i + 3 ≤ k)
    (hnone : ∀ m, i + 3 ≤ m → m < k → ¬ StartCodeAt frame m) :
    longStartCodes (frame.drop (i + 3)) =
      (frame.drop (i + 3)).take (unitEnd frame k - (i + 3)) ++
        longStartCodes (frame.drop (unitEnd frame k)) := by
  have hle := hk.le_length
  have hback := hi.le_unitEnd hlow
  have hend := unitEnd_le frame k
  refine longStartCodes_drop hback (by omega) fun m hm hm' => ⟨hnone m hm (by omega), ?_⟩
  rintro ⟨hzero, hcode⟩
  by_cases hnext : m + 1 = k
  · -- the byte in front of the start code is no zero, or it belongs to it
    cases unitEnd_cases frame k with
    | inl hlong => omega
    | inr hshort =>
        refine hshort.2.2 ⟨by omega, ?_⟩
        rwa [show k - 1 = m by omega]
  · exact hnone (m + 1) (by omega) (by omega) hcode

/-! ## The loop -/

/-- A frame from `a` on, cut at `b`. -/
theorem take_append_drop_sub {frame : Bytes} {a b : Nat} (h : a ≤ b) :
    (frame.drop a).take (b - a) ++ frame.drop b = frame.drop a := by
  have hdrop : (frame.drop a).drop (b - a) = frame.drop b := by
    rw [List.drop_drop, show a + (b - a) = b by omega]
  rw [← hdrop, List.take_append_drop]

/-- Header and payload of a unit. -/
theorem take_take_append {frame : Bytes} {start stop header : Nat} (h : start + header ≤ stop) :
    (frame.drop start).take header ++
        (frame.drop (start + header)).take (stop - (start + header)) =
      (frame.drop start).take (stop - start) := by
  rw [show stop - start = header + (stop - (start + header)) by omega, List.take_add,
    List.drop_drop]

/-- A unit that is split behind its header. -/
theorem splitUnit_bytes {frame : Bytes} {start stop header : Nat} {pieces : List Piece}
    {minus : Nat → Nat → Option Nat} (hminus : minus stop (start + header) =
      some (stop - (start + header))) (hfit : start + header ≤ stop) (hend : stop ≤ frame.length)
    (h : ((subspan frame start header).bind fun clear =>
      (minus stop (start + header)).bind fun size =>
        (subspan frame (start + header) size).bind fun secret =>
          some [.unencrypted naluLongStartCode, .unencrypted clear, .encrypted secret]) =
      some pieces) :
    pieces.flatMap Piece.bytes = naluLongStartCode ++ (frame.drop start).take (stop - start) := by
  rw [subspan_of_le (by omega), Option.bind_some, hminus, Option.bind_some,
    subspan_of_le (by omega)] at h
  obtain rfl := Option.some.inj h
  simp only [List.flatMap_cons, List.flatMap_nil, Piece.bytes, List.append_nil,
    take_take_append hfit]

/-- A unit that is one byte too short for its header: what is taken for the rest of the unit
is the rest of the frame. -/
theorem splitUnit_wraps {frame : Bytes} {start stop header : Nat} {pieces : List Piece}
    (hframe : frame.length < 2 ^ 64) (hshort : stop < start + header) (hend : stop ≤ frame.length)
    (h : ((subspan frame start header).bind fun clear =>
      (wrappingSub stop (start + header)).bind fun size =>
        (subspan frame (start + header) size).bind fun secret =>
          some [.unencrypted naluLongStartCode, .unencrypted clear, .encrypted secret]) =
      some pieces) :
    stop < frame.length ∧
      pieces.flatMap Piece.bytes = naluLongStartCode ++ frame.drop start := by
  obtain ⟨clear, hclear, h⟩ := Option.bind_eq_some_iff.mp h
  obtain ⟨size, hsize, h⟩ := Option.bind_eq_some_iff.mp h
  obtain ⟨secret, hsecret, h⟩ := Option.bind_eq_some_iff.mp h
  obtain rfl := Option.some.inj h
  have hrest := subspan_wrappingSub hframe hshort hend
  rw [hsize, Option.bind_some, hsecret] at hrest
  split at hrest
  · next hone =>
      obtain rfl := Option.some.inj hrest
      rw [subspan_of_le hone.2] at hclear
      obtain rfl := Option.some.inj hclear
      refine ⟨by omega, ?_⟩
      simp only [List.flatMap_cons, List.flatMap_nil, Piece.bytes, List.append_nil]
      rw [← List.drop_drop, List.take_append_drop]
  · simp at hrest

/-- A unit in the clear. -/
theorem clearUnit_bytes {frame : Bytes} {start stop : Nat} {pieces : List Piece}
    {minus : Nat → Nat → Option Nat} (hminus : minus stop start = some (stop - start))
    (hle : start ≤ stop) (hend : stop ≤ frame.length)
    (h : ((minus stop start).bind fun size => (subspan frame start size).bind fun whole =>
      some [.unencrypted naluLongStartCode, .unencrypted whole]) = some pieces) :
    pieces.flatMap Piece.bytes = naluLongStartCode ++ (frame.drop start).take (stop - start) := by
  rw [hminus, Option.bind_some, subspan_of_le (by omega)] at h
  obtain rfl := Option.some.inj h
  simp only [List.flatMap_cons, List.flatMap_nil, Piece.bytes, List.append_nil]

/-- The body of the loop writes a long start code and then the unit or, of a unit that is too
short for its header, the rest of the frame. -/
def Copies (fits : Bytes → Nat → Nat → Prop)
    (unit : Bytes → Nat → Option (Nat × Nat) → Option (List Piece)) (frame : Bytes) : Prop :=
  ∀ i next stop pieces, StartCodeAt frame i → i + 4 < frame.length →
    Scanned frame (i + 3) next → nextNaluStart frame next = some stop →
    unit frame (i + 3) next = some pieces →
      (fits frame (i + 3) stop ∧ pieces.flatMap Piece.bytes =
        naluLongStartCode ++ (frame.drop (i + 3)).take (stop - (i + 3))) ∨
      (¬ fits frame (i + 3) stop ∧ stop < frame.length ∧
        pieces.flatMap Piece.bytes = naluLongStartCode ++ frame.drop (i + 3))

section Units

variable {frame : Bytes} {minus : Nat → Nat → Option Nat}

theorem h265Unit_bytes (hminus : ∀ a b, b ≤ a → minus a b = some (a - b)) {start stop : Nat}
    {next : Option (Nat × Nat)} {pieces : List Piece} (hle : start ≤ stop)
    (hend : stop ≤ frame.length) (hstop : nextNaluStart frame next = some stop)
    (hfits : VclFits frame start stop) (h : h265Unit minus frame start next = some pieces) :
    pieces.flatMap Piece.bytes = naluLongStartCode ++ (frame.drop start).take (stop - start) := by
  unfold h265Unit at h
  simp only [hstop, Option.bind_eq_bind, Option.bind_some] at h
  obtain ⟨header, hheader, h⟩ := Option.bind_eq_some_iff.mp h
  rw [VclFits, vclUnit_iff hheader] at hfits
  split at h
  · next hvcl => exact splitUnit_bytes (hminus _ _ (hfits hvcl)) (hfits hvcl) hend h
  · exact clearUnit_bytes (hminus _ _ hle) hle hend h

theorem h264Unit_bytes (hminus : ∀ a b, b ≤ a → minus a b = some (a - b)) {start stop : Nat}
    {next : Option (Nat × Nat)} {pieces : List Piece} (hle : start ≤ stop)
    (hend : stop ≤ frame.length) (hstop : nextNaluStart frame next = some stop)
    (hlt : SliceUnit frame start → start < stop) (hfits : SliceFits frame start stop)
    (h : h264Unit minus frame start next = some pieces) :
    pieces.flatMap Piece.bytes = naluLongStartCode ++ (frame.drop start).take (stop - start) := by
  unfold h264Unit at h
  simp only [hstop, Option.bind_eq_bind, Option.bind_some] at h
  obtain ⟨header, hheader, h⟩ := Option.bind_eq_some_iff.mp h
  rw [SliceFits, sliceUnit_iff hheader] at hfits
  rw [sliceUnit_iff hheader] at hlt
  split at h
  · next hslice =>
      obtain ⟨ppsBytes, hcount, h⟩ := Option.bind_eq_some_iff.mp h
      have hfit := (ppsFits_iff (hlt hslice) hend hcount).mp (hfits hslice)
      rw [Nat.add_assoc] at h hfit
      exact splitUnit_bytes (hminus _ _ hfit) hfit hend h
  · exact clearUnit_bytes (hminus _ _ hle) hle hend h

theorem copies_h265Unit (hframe : frame.length < 2 ^ 64) :
    Copies VclFits (h265Unit wrappingSub) frame := by
  intro i next stop pieces hi hroom hnext hstop h
  obtain ⟨stop', hstop', hle, hend, -⟩ := nextNaluStart_eq hi hnext
  obtain rfl := Option.some.inj (hstop.symm.trans hstop')
  by_cases hfits : VclFits frame (i + 3) stop
  · exact .inl ⟨hfits, h265Unit_bytes (fun _ _ => wrappingSub_of_le) hle hend hstop hfits h⟩
  · refine .inr ⟨hfits, ?_⟩
    unfold h265Unit at h
    simp only [hstop, Option.bind_eq_bind, Option.bind_some] at h
    obtain ⟨header, hheader, h⟩ := Option.bind_eq_some_iff.mp h
    rw [VclFits, vclUnit_iff hheader, Classical.not_imp] at hfits
    rw [if_pos hfits.1] at h
    exact splitUnit_wraps hframe (by omega) hend h

theorem copies_h264Unit (hframe : frame.length < 2 ^ 64) :
    Copies SliceFits (h264Unit wrappingSub) frame := by
  intro i next stop pieces hi hroom hnext hstop h
  obtain ⟨stop', hstop', hle, hend, -⟩ := nextNaluStart_eq hi hnext
  obtain rfl := Option.some.inj (hstop.symm.trans hstop')
  have hlt : SliceUnit frame (i + 3) → i + 3 < stop :=
    fun hslice => hslice.lt_stop hi hroom hnext hstop
  by_cases hfits : SliceFits frame (i + 3) stop
  · exact .inl ⟨hfits, h264Unit_bytes (fun _ _ => wrappingSub_of_le) hle hend hstop hlt hfits h⟩
  · refine .inr ⟨hfits, ?_⟩
    unfold h264Unit at h
    simp only [hstop, Option.bind_eq_bind, Option.bind_some] at h
    obtain ⟨header, hheader, h⟩ := Option.bind_eq_some_iff.mp h
    rw [SliceFits, sliceUnit_iff hheader, Classical.not_imp] at hfits
    rw [sliceUnit_iff hheader] at hlt
    rw [if_pos hfits.1] at h
    obtain ⟨ppsBytes, hcount, h⟩ := Option.bind_eq_some_iff.mp h
    have hshort := mt (ppsFits_iff (hlt hfits.1) hend hcount).mpr hfits.2
    rw [Nat.add_assoc] at h hshort
    exact splitUnit_wraps hframe (by omega) hend h

/-- Where the checked body stays in the frame the unit fits its header. -/
theorem copies_h265Unit_checked : Copies VclFits (h265Unit sub) frame := by
  intro i next stop pieces hi hroom hnext hstop h
  obtain ⟨stop', hstop', hle, hend, -⟩ := nextNaluStart_eq hi hnext
  obtain rfl := Option.some.inj (hstop.symm.trans hstop')
  have hfits := (h265Unit_isSome_iff (by omega) hstop hle hend).mp (Option.isSome_of_eq_some h)
  exact .inl ⟨hfits, h265Unit_bytes (fun _ _ => sub_of_le) hle hend hstop hfits h⟩

theorem copies_h264Unit_checked : Copies SliceFits (h264Unit sub) frame := by
  intro i next stop pieces hi hroom hnext hstop h
  obtain ⟨stop', hstop', hle, hend, -⟩ := nextNaluStart_eq hi hnext
  obtain rfl := Option.some.inj (hstop.symm.trans hstop')
  have hfits := (h264Unit_isSome_of_startCode hi hroom hnext hstop).mp
    (Option.isSome_of_eq_some h)
  exact .inl ⟨hfits, h264Unit_bytes (fun _ _ => sub_of_le) hle hend hstop
    (fun hslice => hslice.lt_stop hi hroom hnext hstop) hfits h⟩

end Units

/-- The body of the loop begins with a long start code. -/
def Leads (unit : Bytes → Nat → Option (Nat × Nat) → Option (List Piece)) : Prop :=
  ∀ frame start next pieces, unit frame start next = some pieces →
    ∃ chunks, pieces = .unencrypted naluLongStartCode :: chunks

theorem leads_h264Unit {minus : Nat → Nat → Option Nat} : Leads (h264Unit minus) := by
  intro frame start next pieces h
  unfold h264Unit at h
  simp only [Option.bind_eq_bind] at h
  obtain ⟨header, -, h⟩ := Option.bind_eq_some_iff.mp h
  obtain ⟨stop, -, h⟩ := Option.bind_eq_some_iff.mp h
  split at h
  · obtain ⟨ppsBytes, -, h⟩ := Option.bind_eq_some_iff.mp h
    obtain ⟨clear, -, h⟩ := Option.bind_eq_some_iff.mp h
    obtain ⟨size, -, h⟩ := Option.bind_eq_some_iff.mp h
    obtain ⟨secret, -, h⟩ := Option.bind_eq_some_iff.mp h
    exact ⟨_, (Option.some.inj h).symm⟩
  · obtain ⟨size, -, h⟩ := Option.bind_eq_some_iff.mp h
    obtain ⟨whole, -, h⟩ := Option.bind_eq_some_iff.mp h
    exact ⟨_, (Option.some.inj h).symm⟩

theorem leads_h265Unit {minus : Nat → Nat → Option Nat} : Leads (h265Unit minus) := by
  intro frame start next pieces h
  unfold h265Unit at h
  simp only [Option.bind_eq_bind] at h
  obtain ⟨header, -, h⟩ := Option.bind_eq_some_iff.mp h
  obtain ⟨stop, -, h⟩ := Option.bind_eq_some_iff.mp h
  split at h
  · obtain ⟨clear, -, h⟩ := Option.bind_eq_some_iff.mp h
    obtain ⟨size, -, h⟩ := Option.bind_eq_some_iff.mp h
    obtain ⟨secret, -, h⟩ := Option.bind_eq_some_iff.mp h
    exact ⟨_, (Option.some.inj h).symm⟩
  · obtain ⟨size, -, h⟩ := Option.bind_eq_some_iff.mp h
    obtain ⟨whole, -, h⟩ := Option.bind_eq_some_iff.mp h
    exact ⟨_, (Option.some.inj h).symm⟩

/-- From the start code at `k` on, the frame does not end in a unit of one byte, nor in a
start code without a leading zero. -/
def TailKept (frame : Bytes) (k : Nat) : Prop :=
  ∀ m, k ≤ m → StartCodeAt frame m →
    m + 4 ≠ frame.length ∧ (m + 3 = frame.length → startCodeSize frame m = 4)

/-- Behind the last start code that the search finds there is at most one more, with no byte
behind it. -/
theorem longStartCodes_last_cases {frame : Bytes} {i : Nat} (hi : StartCodeAt frame i)
    (hnone : ∀ m, i + 3 ≤ m → m + 3 < frame.length → ¬ StartCodeAt frame m) :
    (∃ m, i + 3 ≤ m ∧ StartCodeAt frame m ∧ m + 3 = frame.length ∧
      longStartCodes (frame.drop (i + 3)) =
        (frame.drop (i + 3)).take (unitEnd frame m - (i + 3)) ++ naluLongStartCode) ∨
    ((∀ m, i + 3 ≤ m → ¬ StartCodeAt frame m) ∧
      longStartCodes (frame.drop (i + 3)) = frame.drop (i + 3)) := by
  have hle := hi.le_length
  by_cases hcode : ∃ m, i + 3 ≤ m ∧ StartCodeAt frame m
  · obtain ⟨m, hlow, hm⟩ := hcode
    have hmle := hm.le_length
    have hend : m + 3 = frame.length := by
      by_contra hmore
      exact hnone m hlow (by omega) hm
    have hfirst : ∀ j, i + 3 ≤ j → j < m → ¬ StartCodeAt frame j :=
      fun j hj hlt => hnone j hj (by omega)
    refine .inl ⟨m, hlow, hm, hend, ?_⟩
    rw [longStartCodes_unit hi hm hlow hfirst, longStartCodes_code hm, hend, List.drop_length,
      longStartCodes, List.append_nil]
  · have hnever : ∀ m, i + 3 ≤ m → ¬ StartCodeAt frame m :=
      fun m hlow hm => hcode ⟨m, hlow, hm⟩
    refine .inr ⟨hnever, ?_⟩
    rw [longStartCodes_drop hle (Nat.le_refl _) fun m hlow _ =>
        ⟨hnever m hlow, fun hboth => hnever (m + 1) (by omega) hboth.2⟩, List.drop_length,
      longStartCodes, List.append_nil, List.take_of_length_le (Nat.le_of_eq List.length_drop)]

/-- One byte behind a start code is left as it is. -/
theorem longStartCodes_byte {frame : Bytes} {i : Nat} (hi : StartCodeAt frame i)
    (hend : i + 4 = frame.length) :
    longStartCodes (frame.drop (i + 3)) = frame.drop (i + 3) := by
  obtain ⟨m, hlow, -, hm, -⟩ | ⟨-, heq⟩ :=
    longStartCodes_last_cases hi fun m hlow hroom => absurd hroom (by omega)
  · omega
  · exact heq

/-- A start code with one byte behind it is left as it is when it is a long one. -/
theorem eq_longStartCodes_byte {frame : Bytes} {k : Nat} (hcode : StartCodeAt frame k)
    (hend : k + 4 = frame.length) :
    frame.drop (unitEnd frame k) = longStartCodes (frame.drop (unitEnd frame k)) ↔
      startCodeSize frame k = 4 := by
  rw [longStartCodes_code hcode, longStartCodes_byte hcode hend]
  cases unitEnd_cases frame k with
  | inl hlong =>
      obtain ⟨hsize, hstart, hzero⟩ := hlong
      refine iff_of_true ?_ hsize
      rw [← take_four_iff.mpr ⟨hzero, by rwa [hstart]⟩,
        show k + 3 = unitEnd frame k + 4 by omega, ← List.drop_drop, List.take_append_drop]
  | inr hshort =>
      obtain ⟨hsize, hstart, -⟩ := hshort
      refine iff_of_false (fun heq => ?_) (by omega)
      have hlength := congrArg List.length heq
      rw [List.length_append, List.length_drop, List.length_drop,
        show naluLongStartCode.length = 4 from rfl] at hlength
      omega

/-- The last unit is copied as it is. -/
theorem longStartCodes_last {frame : Bytes} {i : Nat} (hi : StartCodeAt frame i)
    (hnone : ∀ m, i + 3 ≤ m → m + 3 < frame.length → ¬ StartCodeAt frame m) :
    frame.drop (i + 3) = longStartCodes (frame.drop (i + 3)) ↔
      ∀ m, i + 3 ≤ m → StartCodeAt frame m → m + 3 = frame.length →
        startCodeSize frame m = 4 := by
  obtain ⟨m, hlow, hm, hend, heq⟩ | ⟨hnever, heq⟩ := longStartCodes_last_cases hi hnone
  · have hback := hi.le_unitEnd hlow
    have hcut : (frame.drop (i + 3)).take (unitEnd frame m - (i + 3)) ++
        frame.drop (unitEnd frame m) = frame.drop (i + 3) := take_append_drop_sub hback
    have hsame : frame.drop (i + 3) =
          (frame.drop (i + 3)).take (unitEnd frame m - (i + 3)) ++ naluLongStartCode ↔
        frame.drop (unitEnd frame m) = naluLongStartCode := by
      conv => lhs; lhs; rw [← hcut]
      exact List.append_right_inj _
    rw [heq, hsame]
    cases unitEnd_cases frame m with
    | inl hlong =>
        obtain ⟨hsize, hstart, hzero⟩ := hlong
        refine iff_of_true ?_ fun j hj hjcode hjend => ?_
        · rw [← take_four_iff.mpr ⟨hzero, by rwa [hstart]⟩, List.take_of_length_le]
          rw [List.length_drop]
          omega
        · rwa [show j = m by omega]
    | inr hshort =>
        obtain ⟨hsize, hstart, -⟩ := hshort
        refine iff_of_false (fun heq => ?_) fun hall => ?_
        · have hlength := congrArg List.length heq
          rw [List.length_drop, show naluLongStartCode.length = 4 from rfl] at hlength
          omega
        · have hfour := hall m hlow hm hend
          omega
  · rw [heq]
    exact iff_of_true rfl fun m hlow hm _ => absurd hm (hnever m hlow)

/-- Widening a start code at the end adds at most a byte. -/
theorem longStartCodes_last_length {frame : Bytes} {i : Nat} (hi : StartCodeAt frame i)
    (hnone : ∀ m, i + 3 ≤ m → m + 3 < frame.length → ¬ StartCodeAt frame m) :
    (longStartCodes (frame.drop (i + 3))).length ≤ (frame.drop (i + 3)).length + 1 := by
  obtain ⟨m, hlow, hm, hend, heq⟩ | ⟨-, heq⟩ := longStartCodes_last_cases hi hnone
  · have hcut := unitEnd_le frame m
    have hlong : naluLongStartCode.length = 4 := rfl
    rw [heq, List.length_append, List.length_take, List.length_drop, hlong]
    omega
  · rw [heq]
    exact Nat.le_succ _

/-! ## Units that are too short -/

/-- Two faults that cancel: the frame ends in a four-byte start code and a unit of one byte,
which the loop drops, and the unit in front of it is the only one from `low` on that is too
short for its header, so that the rest of the frame is taken for its end. -/
def EndRepeated (fits : Bytes → Nat → Nat → Prop) (frame : Bytes) (low : Nat) : Prop :=
  ∃ i k, low ≤ i ∧ StartCodeAt frame i ∧ FirstFrom frame (i + 3) k ∧ k + 4 = frame.length ∧
    startCodeSize frame k = 4 ∧ ¬ FitsAt fits frame i ∧
      ∀ j, low ≤ j → StartCodeAt frame j → j + 4 < frame.length → j ≠ i → FitsAt fits frame j

section Loop

variable {fits : Bytes → Nat → Nat → Prop}
  {unit : Bytes → Nat → Option (Nat × Nat) → Option (List Piece)} {frame : Bytes}

/-- Behind the last start code that the search finds. -/
theorem tailKept_last {i : Nat} (hi : StartCodeAt frame i) (hmore : i + 4 < frame.length)
    (hnone : ∀ m, i + 3 ≤ m → m + 3 < frame.length → ¬ StartCodeAt frame m) :
    TailKept frame i ↔ ∀ m, i + 3 ≤ m → StartCodeAt frame m → m + 3 = frame.length →
      startCodeSize frame m = 4 := by
  constructor
  · intro hall m hlow hm
    exact (hall m (by omega) hm).2
  · intro hall m hlow hm
    by_cases hsame : m = i
    · exact ⟨by omega, fun hend => by omega⟩
    · have hapart := hi.apart hm (by omega)
      exact ⟨fun hfour => hnone m hapart (by omega) hm, hall m hapart hm⟩

theorem headersFitFrom_last {i : Nat} (hi : StartCodeAt frame i)
    (hnone : ∀ m, i + 3 ≤ m → m + 3 < frame.length → ¬ StartCodeAt frame m)
    (hfits : FitsAt fits frame i) : HeadersFitFrom fits frame i := by
  intro j hlow hj hroom
  by_cases hsame : j = i
  · rwa [hsame]
  · exact absurd hj (hnone j (hi.apart hj (by omega)) (by omega))

theorem not_endRepeated_last {i : Nat}
    (hnone : ∀ m, i + 3 ≤ m → m + 3 < frame.length → ¬ StartCodeAt frame m) :
    ¬ EndRepeated fits frame i := by
  rintro ⟨j, k, hlow, -, hk, -⟩
  have hfrom := hk.from_le
  exact hnone k (by omega) hk.room hk.code

/-- Past a unit that fits its header. -/
theorem tailKept_next {i k : Nat} (hi : StartCodeAt frame i) (hmore : i + 4 < frame.length)
    (hk : FirstFrom frame (i + 3) k) : TailKept frame i ↔ TailKept frame k := by
  have hfrom := hk.from_le
  constructor
  · intro hall j hlow hj
    exact hall j (by omega) hj
  · intro hall j hlow hj
    by_cases hsame : j = i
    · exact ⟨by omega, fun hend => by omega⟩
    · cases hk.eq_or_later (hi.apart hj (by omega)) hj with
      | inl heq => exact hall j (by omega) hj
      | inr hlater => exact hall j (by omega) hj

theorem headersFitFrom_next {i k : Nat} (hi : StartCodeAt frame i) (hk : FirstFrom frame (i + 3) k)
    (hfits : FitsAt fits frame i) : HeadersFitFrom fits frame i ↔ HeadersFitFrom fits frame k := by
  have hfrom := hk.from_le
  constructor
  · intro hall j hlow hj
    exact hall j (by omega) hj
  · intro hall j hlow hj hroom
    by_cases hsame : j = i
    · rwa [hsame]
    · cases hk.eq_or_later (hi.apart hj (by omega)) hj with
      | inl heq => exact hall j (by omega) hj hroom
      | inr hlater => exact hall j (by omega) hj hroom

theorem endRepeated_next {i k : Nat} (hi : StartCodeAt frame i) (hk : FirstFrom frame (i + 3) k)
    (hfits : FitsAt fits frame i) : EndRepeated fits frame i ↔ EndRepeated fits frame k := by
  have hfrom := hk.from_le
  -- every other start code from `i` on is at `k` or behind it
  have hlater : ∀ j, i ≤ j → StartCodeAt frame j → j ≠ i → k ≤ j := by
    intro j hlow hj hne
    cases hk.eq_or_later (hi.apart hj (by omega)) hj with
    | inl heq => omega
    | inr hbehind => omega
  constructor
  · rintro ⟨j, m, hlow, hj, hm, hend, hsize, hshort, hall⟩
    have hne : j ≠ i := by
      rintro rfl
      exact hshort hfits
    exact ⟨j, m, hlater j hlow hj hne, hj, hm, hend, hsize, hshort,
      fun l hl => hall l (by omega)⟩
  · rintro ⟨j, m, hlow, hj, hm, hend, hsize, hshort, hall⟩
    refine ⟨j, m, by omega, hj, hm, hend, hsize, hshort, fun l hl hcode hroom hne => ?_⟩
    by_cases hsame : l = i
    · rwa [hsame]
    · exact hall l (hlater l hl hcode hsame) hcode hroom hne

/-- At a unit that is too short for its header. -/
theorem keptFrom_short_iff {i k : Nat} (hi : StartCodeAt frame i) (hmore : i + 4 < frame.length)
    (hk : FirstFrom frame (i + 3) k) (hshort : ¬ FitsAt fits frame i) :
    (TailKept frame i ∧ HeadersFitFrom fits frame i) ∨ EndRepeated fits frame i ↔
      k + 4 = frame.length ∧ startCodeSize frame k = 4 := by
  constructor
  · rintro (⟨-, hall⟩ | ⟨j, m, -, -, hm, hend, hsize, -, hall⟩)
    · exact absurd (hall i (Nat.le_refl i) hi hmore) hshort
    · have hsame : i = j := by
        by_contra hne
        exact hshort (hall i (Nat.le_refl i) hi hmore hne)
      subst hsame
      obtain rfl := hk.unique hm
      exact ⟨hend, hsize⟩
  · rintro ⟨hend, hsize⟩
    refine .inr ⟨i, k, Nat.le_refl i, hi, hk, hend, hsize, hshort,
      fun j hlow hj hroom hne => ?_⟩
    cases hk.eq_or_later (hi.apart hj (by omega)) hj with
    | inl hsame => omega
    | inr hlater => omega

/-- **What the loop drops** is at most five bytes, and less than the frame has left where the
unit is longer than one byte. -/
theorem nalUnitLoop_bytes_length (hcopies : Copies fits unit frame) {k size : Nat}
    {pieces : List Piece} (hcode : StartCodeAt frame k) (hroom : k + 3 < frame.length)
    (h : nalUnitLoop unit frame (some (k + 3, size)) = some pieces) :
    (longStartCodes (frame.drop (unitEnd frame k))).length + k <
        (pieces.flatMap Piece.bytes).length + frame.length + 2 ∧
      (k + 4 < frame.length → (longStartCodes (frame.drop (unitEnd frame k))).length + k <
        (pieces.flatMap Piece.bytes).length + frame.length) := by
  have hlong : naluLongStartCode.length = 4 := rfl
  induction hn : frame.length - k using Nat.strongRecOn generalizing k size pieces with
  | ind n ih =>
      rw [longStartCodes_code hcode, List.length_append, hlong]
      by_cases hmore : k + 4 < frame.length
      · obtain ⟨next, hnext, hscan⟩ := nextH26xNaluIndex_eq frame (k + 3)
        obtain ⟨stop, hstop, hle, hend, hcase⟩ := nextNaluStart_eq hcode hscan
        rw [nalUnitLoop_step (by omega) hnext] at h
        obtain ⟨own, hown, h⟩ := Option.bind_eq_some_iff.mp h
        obtain ⟨rest, hrest, h⟩ := Option.bind_eq_some_iff.mp h
        obtain rfl := Option.some.inj h
        -- the unit itself is written either way
        have hunit : 4 + (stop - (k + 3)) ≤ (own.flatMap Piece.bytes).length := by
          obtain ⟨-, hbytes⟩ | ⟨-, -, hbytes⟩ :=
            hcopies k next stop own hcode hmore hscan hstop hown
          · rw [hbytes, List.length_append, List.length_take, List.length_drop, hlong]
            omega
          · rw [hbytes, List.length_append, List.length_drop, hlong]
            omega
        rw [List.flatMap_append, List.length_append]
        obtain ⟨rfl, rfl⟩ | ⟨m, hm, rfl, rfl⟩ := hcase
        · have hnone : ∀ m, k + 3 ≤ m → m + 3 < frame.length → ¬ StartCodeAt frame m := by
            obtain ⟨-, hno⟩ | ⟨m, -, hm⟩ := hscan
            · exact hno
            · cases hm
          have hlast := longStartCodes_last_length hcode hnone
          rw [List.length_drop] at hlast
          exact ⟨by omega, fun _ => by omega⟩
        · have hfrom := hm.from_le
          have hrec := (ih (frame.length - m) (by omega) hm.code hm.room hrest rfl).1
          rw [longStartCodes_unit hcode hm.code hfrom hm.least, List.length_append,
            List.length_take, List.length_drop]
          exact ⟨by omega, fun _ => by omega⟩
      · rw [longStartCodes_byte hcode (by omega), List.length_drop]
        exact ⟨by omega, fun hin => absurd hin hmore⟩

/-- **What the loop keeps** of the frame from a start code on. -/
theorem nalUnitLoop_bytes_iff (hcopies : Copies fits unit frame) {k size : Nat}
    {pieces : List Piece} (hcode : StartCodeAt frame k) (hroom : k + 3 < frame.length)
    (h : nalUnitLoop unit frame (some (k + 3, size)) = some pieces) :
    pieces.flatMap Piece.bytes = longStartCodes (frame.drop (unitEnd frame k)) ↔
      (TailKept frame k ∧ HeadersFitFrom fits frame k) ∨ EndRepeated fits frame k := by
  induction hn : frame.length - k using Nat.strongRecOn generalizing k size pieces with
  | ind n ih =>
      by_cases hmore : k + 4 < frame.length
      · obtain ⟨next, hnext, hscan⟩ := nextH26xNaluIndex_eq frame (k + 3)
        obtain ⟨stop, hstop, hle, hend, hcase⟩ := nextNaluStart_eq hcode hscan
        rw [nalUnitLoop_step (by omega) hnext] at h
        obtain ⟨own, hown, h⟩ := Option.bind_eq_some_iff.mp h
        obtain ⟨rest, hrest, h⟩ := Option.bind_eq_some_iff.mp h
        obtain rfl := Option.some.inj h
        rw [longStartCodes_code hcode, List.flatMap_append]
        obtain ⟨hfits, hbytes⟩ | ⟨hshort, hinside, hbytes⟩ :=
          hcopies k next stop own hcode hmore hscan hstop hown
        · have hat := (fitsAt_iff hcode hscan hstop).mpr hfits
          rw [hbytes, List.append_assoc, List.append_right_inj]
          obtain ⟨rfl, rfl⟩ | ⟨m, hm, rfl, rfl⟩ := hcase
          · -- no other start code with a byte behind it
            have hnone : ∀ m, k + 3 ≤ m → m + 3 < frame.length → ¬ StartCodeAt frame m := by
              obtain ⟨-, hno⟩ | ⟨m, -, hm⟩ := hscan
              · exact hno
              · cases hm
            rw [nalUnitLoop_none] at hrest
            obtain rfl := Option.some.inj hrest
            rw [List.flatMap_nil, List.append_nil, List.take_of_length_le
              (Nat.le_of_eq List.length_drop), longStartCodes_last hcode hnone,
              tailKept_last hcode hmore hnone]
            exact ⟨fun hall => .inl ⟨hall, headersFitFrom_last hcode hnone hat⟩,
              fun hcase => hcase.elim And.left
                fun hend => absurd hend (not_endRepeated_last hnone)⟩
          · rw [longStartCodes_unit hcode hm.code hm.from_le hm.least, List.append_right_inj,
              ih (frame.length - m) (by have := hm.from_le; omega) hm.code hm.room hrest rfl,
              tailKept_next hcode hmore hm, headersFitFrom_next hcode hm hat,
              endRepeated_next hcode hm hat]
        · have hat := mt (fitsAt_iff hcode hscan hstop).mp hshort
          obtain ⟨-, rfl⟩ | ⟨m, hm, rfl, rfl⟩ := hcase
          · omega
          · -- the unit is there on both sides, and behind it the rest of the frame once more
            rw [← take_append_drop_sub hle] at hbytes
            rw [hbytes, List.append_assoc, List.append_right_inj,
              longStartCodes_unit hcode hm.code hm.from_le hm.least, List.append_assoc,
              List.append_right_inj, keptFrom_short_iff hcode hmore hm hat]
            by_cases hlast : m + 4 = frame.length
            · rw [nalUnitLoop_last (by omega)] at hrest
              obtain rfl := Option.some.inj hrest
              rw [List.flatMap_nil, List.append_nil, eq_longStartCodes_byte hm.code hlast]
              exact ⟨fun hsize => ⟨hlast, hsize⟩, And.right⟩
            · refine iff_of_false (fun heq => ?_) fun hboth => hlast hboth.1
              have hroom' := hm.room
              have hcut := unitEnd_le frame m
              have hmany := (nalUnitLoop_bytes_length hcopies hm.code hm.room hrest).2 (by omega)
              rw [← heq, List.length_append, List.length_drop] at hmany
              omega
      · have hend : k + 4 = frame.length := by omega
        rw [nalUnitLoop_last (by omega)] at h
        obtain rfl := Option.some.inj h
        refine iff_of_false (fun heq => ?_) ?_
        · have hlength := congrArg List.length heq
          rw [longStartCodes_code hcode] at hlength
          simp [naluLongStartCode] at hlength
        · rintro (⟨hkept, -⟩ | ⟨i, m, hlow, -, hm, hmend, -⟩)
          · exact (hkept k (Nat.le_refl k) hcode).1 hend
          · have hfrom := hm.from_le
            omega

end Loop

/-! ## Frames -/

/-- The frame begins with a start code, of three bytes or of four. -/
def StartsWithStartCode (frame : Bytes) : Prop :=
  StartCodeAt frame 0 ∨ (frame[0]? = some 0 ∧ StartCodeAt frame 1)

/-- The frame ends neither in a NAL unit of a single byte nor in a start code, other than a
four-byte one behind the first. -/
def KeepsLastUnit (frame : Bytes) : Prop :=
  ∀ k, StartCodeAt frame k →
    k + 4 ≠ frame.length ∧ (k + 3 = frame.length → 1 < k ∧ startCodeSize frame k = 4)

/-- Nothing of the frame is lost and nothing is added: it keeps its last unit and every unit is
long enough for its header, or the two faults cancel. -/
def LosesNothing (fits : Bytes → Nat → Nat → Prop) (frame : Bytes) : Prop :=
  (KeepsLastUnit frame ∧ HeadersFitFrom fits frame 0) ∨ EndRepeated fits frame 0

/-- A frame that begins with a start code: nothing is in front of the first one but its leading
zero. -/
theorem StartsWithStartCode.first {frame : Bytes} (h : StartsWithStartCode frame) :
    ∃ k, k ≤ 1 ∧ StartCodeAt frame k ∧ unitEnd frame k = 0 ∧
      ∀ m, StartCodeAt frame m → m = k ∨ k + 3 ≤ m := by
  cases h with
  | inl hzero =>
      refine ⟨0, by omega, hzero, rfl, fun m hm => ?_⟩
      by_cases hsame : m = 0
      · exact .inl hsame
      · exact .inr (hzero.apart hm (by omega))
  | inr hone =>
      refine ⟨1, by omega, hone.2, ?_, fun m hm => ?_⟩
      · unfold unitEnd startCodeSize
        rw [if_pos ⟨by omega, hone.1⟩]
      · by_cases hsame : m = 1
        · exact .inl hsame
        · by_cases hlt : 1 < m
          · exact .inr (hone.2.apart hm hlt)
          · have hapart := hm.apart hone.2 (by omega)
            omega

section Frames

variable {fits : Bytes → Nat → Nat → Prop}
  {unit : Bytes → Nat → Option (Nat × Nat) → Option (List Piece)} {frame : Bytes}

/-- What is lost of a frame is lost from its first start code on. -/
theorem losesNothing_iff {k : Nat} (hk : k ≤ 1) (hcode : StartCodeAt frame k)
    (hothers : ∀ m, StartCodeAt frame m → m = k ∨ k + 3 ≤ m) :
    LosesNothing fits frame ↔ k + 3 < frame.length ∧
      ((TailKept frame k ∧ HeadersFitFrom fits frame k) ∨ EndRepeated fits frame k) := by
  have hlow : ∀ m, StartCodeAt frame m → k ≤ m := by
    intro m hm
    cases hothers m hm with
    | inl hsame => omega
    | inr hlater => omega
  have hheaders : HeadersFitFrom fits frame 0 ↔ HeadersFitFrom fits frame k :=
    ⟨fun hall i _ => hall i (Nat.zero_le i), fun hall i _ hi => hall i (hlow i hi) hi⟩
  have hends : EndRepeated fits frame 0 ↔ EndRepeated fits frame k := by
    constructor
    · rintro ⟨i, m, -, hi, hm, hend, hsize, hshort, hall⟩
      exact ⟨i, m, hlow i hi, hi, hm, hend, hsize, hshort, fun j _ => hall j (Nat.zero_le j)⟩
    · rintro ⟨i, m, -, hi, hm, hend, hsize, hshort, hall⟩
      exact ⟨i, m, Nat.zero_le i, hi, hm, hend, hsize, hshort, fun j _ hj => hall j (hlow j hj) hj⟩
  have htail : KeepsLastUnit frame ↔ k + 3 < frame.length ∧ TailKept frame k := by
    constructor
    · intro hall
      have hle := hcode.le_length
      have hhere := hall k hcode
      refine ⟨?_, fun m _ hm => ⟨(hall m hm).1, fun hend => ((hall m hm).2 hend).2⟩⟩
      by_contra hlast
      have hmore := (hhere.2 (by omega)).1
      omega
    · rintro ⟨hroom, hall⟩ m hm
      refine ⟨(hall m (hlow m hm) hm).1, fun hend => ⟨?_, (hall m (hlow m hm) hm).2 hend⟩⟩
      cases hothers m hm with
      | inl hsame => omega
      | inr hlater => omega
  rw [LosesNothing, htail, hheaders, hends]
  constructor
  · rintro (⟨⟨hroom, hall⟩, hfits⟩ | hend)
    · exact ⟨hroom, .inl ⟨hall, hfits⟩⟩
    · obtain ⟨i, m, hi, -, hm, -⟩ := id hend
      have hfrom := hm.from_le
      have hin := hm.room
      exact ⟨by omega, .inr hend⟩
  · rintro ⟨hroom, ⟨hall, hfits⟩ | hend⟩
    · exact .inl ⟨⟨hroom, hall⟩, hfits⟩
    · exact .inr hend

/-- **What is kept of a frame** that begins with a start code, whichever body the loop has. -/
theorem processFrameH26x_lossless_iff (hcopies : Copies fits unit frame) {header : Nat}
    {pieces : List Piece} (hstart : StartsWithStartCode frame)
    (h : processFrameH26x unit header frame = some (true, pieces)) :
    pieces.flatMap Piece.bytes = longStartCodes frame ↔ LosesNothing fits frame := by
  have hlong : naluShortStartSequenceSize + header ≤ frame.length := by
    by_contra hshort
    rw [processFrameH26x, if_pos (by omega)] at h
    simp at h
  obtain ⟨first, hfirst, hscan⟩ := nextH26xNaluIndex_eq frame 0
  rw [processFrameH26x_eq hlong hfirst] at h
  obtain ⟨own, hown, hpair⟩ := Option.map_eq_some_iff.mp h
  obtain rfl := (Prod.mk.inj hpair).2
  obtain ⟨k, hk, hcode, hbegin, hothers⟩ := hstart.first
  have hwhole : longStartCodes frame = longStartCodes (frame.drop (unitEnd frame k)) := by
    rw [hbegin, List.drop_zero]
  rw [hwhole, losesNothing_iff hk hcode hothers]
  obtain ⟨rfl, hnone⟩ | ⟨j, hj, rfl⟩ := hscan
  · rw [nalUnitLoop_none] at hown
    obtain rfl := Option.some.inj hown
    refine iff_of_false (fun heq => ?_) fun hboth => hnone k (Nat.zero_le k) hboth.1 hcode
    rw [longStartCodes_code hcode] at heq
    have hsize := congrArg List.length heq
    simp [naluLongStartCode] at hsize
  · obtain rfl : j = k := by
      cases hothers j hj.code with
      | inl hsame => exact hsame
      | inr hlater => exact absurd hcode (hj.least k (Nat.zero_le k) (by omega))
    rw [nalUnitLoop_bytes_iff hcopies hcode hj.room hown]
    exact ⟨fun hall => ⟨hj.room, hall⟩, And.right⟩

end Frames

/-! ## Where no length wraps -/

/-- Every unit of two bytes or more is long enough for the header that the codec's splitter
takes off it. -/
def HeadersFit : Codec → Bytes → Prop
  | .h264, frame => HeadersFitFrom SliceFits frame 0
  | .h265, frame => HeadersFitFrom VclFits frame 0
  | _, _ => True

theorem processFrameH264_checked {frame : Bytes} {result : Bool × List Piece}
    (hfits : HeadersFitFrom SliceFits frame 0) (h : processFrameH264 frame = some result) :
    processFrameH264Checked frame = some result := by
  obtain ⟨checked, hchecked⟩ := Option.isSome_iff_exists.mp
    ((processFrameH264Checked_isSome_iff frame).mpr hfits)
  rwa [processFrameH264_of_checked hchecked, ← hchecked] at h

theorem processFrameH265_checked {frame : Bytes} {result : Bool × List Piece}
    (hfits : HeadersFitFrom VclFits frame 0) (h : processFrameH265 frame = some result) :
    processFrameH265Checked frame = some result := by
  obtain ⟨checked, hchecked⟩ := Option.isSome_iff_exists.mp
    ((processFrameH265Checked_isSome_iff frame).mpr hfits)
  rwa [processFrameH265_of_checked hchecked, ← hchecked] at h

/-- The loop of a frame whose units are long enough: each body writes a long start code and
then the unit. -/
theorem split_checked {frame : Bytes} {codec : Codec} {result : Bool × List Piece}
    (hcodec : codec = .h264 ∨ codec = .h265) (hfits : HeadersFit codec frame)
    (hsplit : OutboundFrameProcessor.splitByCodec frame codec = some result) :
    ∃ fits unit header, Copies fits unit frame ∧ Leads unit ∧ HeadersFitFrom fits frame 0 ∧
      header ≤ 2 ∧ processFrameH26x unit header frame = some result := by
  rcases hcodec with rfl | rfl
  · exact ⟨SliceFits, h264Unit sub, 1, copies_h264Unit_checked, leads_h264Unit, hfits, by decide,
      processFrameH264_checked hfits hsplit⟩
  · exact ⟨VclFits, h265Unit sub, 2, copies_h265Unit_checked, leads_h265Unit, hfits, by decide,
      processFrameH265_checked hfits hsplit⟩

/-- What the splitter makes of such a frame, when the last unit is kept. -/
theorem split_bytes {frame : Bytes} {codec : Codec} {pieces : List Piece}
    (hcodec : codec = .h264 ∨ codec = .h265) (hstart : StartsWithStartCode frame)
    (hlast : KeepsLastUnit frame) (hfits : HeadersFit codec frame)
    (hsplit : OutboundFrameProcessor.splitByCodec frame codec = some (true, pieces)) :
    pieces.flatMap Piece.bytes = longStartCodes frame := by
  obtain ⟨fits, unit, header, hcopies, -, hall, -, hchecked⟩ := split_checked hcodec hfits hsplit
  exact (processFrameH26x_lossless_iff hcopies hstart hchecked).mpr (.inl ⟨hlast, hall⟩)

/-- **Splitting loses nothing** of a frame that begins with a start code, and writes nothing
twice, exactly when the frame does not end in a NAL unit of one byte, nor in a bare start code
that is short or the only one, and no unit is too short for its header; or the one dropped is
repeated by the one in front of it. -/
theorem splitting_lossless_iff (frame : Bytes) (pieces : List Piece)
    (hstart : StartsWithStartCode frame) (hframe : frame.length < 2 ^ 64) :
    (processFrameH264 frame = some (true, pieces) →
      (pieces.flatMap Piece.bytes = longStartCodes frame ↔ LosesNothing SliceFits frame)) ∧
    (processFrameH265 frame = some (true, pieces) →
      (pieces.flatMap Piece.bytes = longStartCodes frame ↔ LosesNothing VclFits frame)) :=
  ⟨processFrameH26x_lossless_iff (copies_h264Unit hframe) hstart,
    processFrameH26x_lossless_iff (copies_h265Unit hframe) hstart⟩

/-- An access unit delimiter, two bytes long. -/
def delimiterFrame : Bytes := [0, 0, 0, 1, 9, 0xF0]

theorem splitting_lossless_iff_delimiter :
    [Piece.unencrypted [0, 0, 0, 1], .unencrypted [9, 0xF0]].flatMap Piece.bytes =
      longStartCodes delimiterFrame := by
  have hstart : StartsWithStartCode delimiterFrame := .inr ⟨rfl, by decide⟩
  have hsplit : processFrameH264 delimiterFrame =
      some (true, [.unencrypted [0, 0, 0, 1], .unencrypted [9, 0xF0]]) := by
    decide +kernel
  have hlast : KeepsLastUnit delimiterFrame := by
    intro k hk
    have hle : k + 3 ≤ 6 := hk.le_length
    have hone : ∀ k < 4, StartCodeAt delimiterFrame k → k = 1 := by
      decide
    obtain rfl := hone k (by omega) hk
    exact ⟨by decide, fun hend => absurd hend (by decide)⟩
  have hheaders := (processFrameH264Checked_isSome_iff delimiterFrame).mp (by decide +kernel)
  exact ((splitting_lossless_iff delimiterFrame _ hstart (by decide)).1 hsplit).mpr
    (.inl ⟨hlast, hheaders⟩)

/-- Of the slice that is too short for its header the whole rest of the frame is written, and
then the unit behind it. -/
example : (processFrameH265 shortSlice).map (fun split => split.2.flatMap Piece.bytes) =
    some [0, 0, 0, 1, 2, 0, 0, 0, 1, 0x26, 1, 0, 0, 0, 1, 0x26, 1] := by
  decide +kernel

/-- The delimiter, and an end of sequence, which is a header byte alone. -/
def endOfSequenceFrame : Bytes := [0, 0, 0, 1, 9, 0xF0, 0, 0, 0, 1, 0x0A]

/-- The end of sequence is dropped. -/
theorem splitting_endOfSequence :
    ¬ ∀ (frame : Bytes) (pieces : List Piece), StartsWithStartCode frame →
        processFrameH264 frame = some (true, pieces) ∨
          processFrameH265 frame = some (true, pieces) →
        pieces.flatMap Piece.bytes = longStartCodes frame := by
  intro hall
  have hsplit : processFrameH264 endOfSequenceFrame =
      some (true, [.unencrypted [0, 0, 0, 1], .unencrypted [9, 0xF0]]) := by
    decide +kernel
  have hsame := hall endOfSequenceFrame _ (.inr ⟨rfl, by decide⟩) (.inl hsplit)
  revert hsame
  decide +kernel

end Ekizu.Dave
