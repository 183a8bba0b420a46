import Ekizu.Dave.StartCodes

/-!
# The check for start codes

`validate_encrypted_frame` of `src/dave/codec_utils.cpp` searches the encrypted sections
of a frame, each with two bytes of the clear ones on either side.  The search
`next_h26x_nalu_index` wants a byte behind the start code it reports, so the last three
bytes of a window are never one.  At the end of the frame such a start code is lost.  In
front of a clear range it is lost where only its first byte is encrypted, unless the next
section begins at once.

## Main results

* `nextInWindow_spec` — what the search finds in a window.
* `validateEncryptedFrame_spec` — what the check rejects.
* `validateEncryptedFrame_sound_iff` — the frames on which the check keeps its promise.
-/

namespace Ekizu.Dave

open Lib.Span
open Lib.Segments

/-! ## The search -/

/-- `next_h26x_nalu_index(frame.data() + start, end - start)`. -/
def nextInWindow (frame : Bytes) (start stop : Nat) : Option (Option (Nat × Nat)) := do
  let size ← sub stop start
  let window ← slice frame start size
  nextH26xNaluIndex window 0

/-- The start codes of a window are those of the frame that lie inside it. -/
theorem startCodeAt_window {frame : Bytes} {start size k : Nat} :
    StartCodeAt ((frame.drop start).take size) k ↔
      k + 3 ≤ size ∧ StartCodeAt frame (start + k) := by
  have hcell : ∀ m, m < size → ((frame.drop start).take size)[m]? = frame[start + m]? := by
    intro m hm
    rw [List.getElem?_take, if_pos hm, List.getElem?_drop]
  constructor
  · intro h
    have hle := h.le_length
    rw [List.length_take] at hle
    rw [startCodeAt_iff, hcell k (by omega), hcell (k + 1) (by omega),
      hcell (k + 2) (by omega)] at h
    exact ⟨by omega, startCodeAt_iff.mpr h⟩
  · intro h
    rw [startCodeAt_iff, hcell k (by omega), hcell (k + 1) (by omega), hcell (k + 2) (by omega)]
    exact startCodeAt_iff.mp h.2

/-- The search in a window finds the start codes inside it that do not end it. -/
theorem nextInWindow_spec {frame : Bytes} {start stop : Nat} (hle : start ≤ stop)
    (hend : stop ≤ frame.length) :
    ∃ found, nextInWindow frame start stop = some found ∧
      (found.isSome = true ↔ ∃ k, start ≤ k ∧ k + 3 < stop ∧ StartCodeAt frame k) := by
  have hlength : ((frame.drop start).take (stop - start)).length = stop - start := by
    rw [List.length_take, List.length_drop]
    omega
  have hinside : (∃ k, 0 ≤ k ∧ k + 3 < stop - start ∧
        StartCodeAt ((frame.drop start).take (stop - start)) k) ↔
      ∃ k, start ≤ k ∧ k + 3 < stop ∧ StartCodeAt frame k := by
    constructor
    · rintro ⟨k, -, hk, hcode⟩
      exact ⟨start + k, by omega, by omega, (startCodeAt_window.mp hcode).2⟩
    · rintro ⟨k, hlow, hk, hcode⟩
      refine ⟨k - start, by omega, by omega, startCodeAt_window.mpr ⟨by omega, ?_⟩⟩
      rw [show start + (k - start) = k by omega]
      exact hcode
  unfold nextInWindow
  rw [sub_of_le hle, Option.bind_eq_bind, Option.bind_some,
    slice_of_le (show start + (stop - start) ≤ frame.length by omega), Option.bind_eq_bind,
    Option.bind_some, ← hinside]
  obtain ⟨found, hfound, hscan⟩ :=
    nextH26xNaluIndex_eq ((frame.drop start).take (stop - start)) 0
  have hiff := hscan.isSome_iff
  rw [hlength] at hiff
  exact ⟨found, hfound, hiff⟩

/-! ## The sections -/

/-- `padding`. -/
def startCodePadding : Nat := naluShortStartSequenceSize - 1

/-- The loop of `validate_encrypted_frame` over the ranges and what follows it, with
`encrypted_section_start`. -/
def validateSections (frame : Bytes) (encryptedSectionStart : Nat) : List Range → Option Bool
  | [] =>
      if encryptedSectionStart = frame.length then some true
      else do
        let start := encryptedSectionStart - min encryptedSectionStart startCodePadding
        let found ← nextInWindow frame start frame.length
        some (!found.isSome)
  | range :: ranges =>
      if encryptedSectionStart = range.offset then
        validateSections frame (encryptedSectionStart + range.size) ranges
      else do
        let start := encryptedSectionStart - min encryptedSectionStart startCodePadding
        let stop := min (range.offset + startCodePadding) frame.length
        let found ← nextInWindow frame start stop
        if found.isSome then some false
        else validateSections frame (range.offset + range.size) ranges

/-- `validate_encrypted_frame`. -/
def OutboundFrameProcessor.validateEncryptedFrame (processor : OutboundFrameProcessor)
    (frame : Bytes) : Option Bool :=
  let codec := processor.frameCodec
  if codec ≠ .h264 ∧ codec ≠ .h265 then some true
  else validateSections frame 0 processor.unencryptedRanges

/-- What the check sees of a start code at `k` from a section that starts at `pos`: an
encrypted byte, other than the first one in front of two clear ones. -/
def SeenFrom (pos : Nat) (ranges : List Range) (k : Nat) : Prop :=
  ∃ j, pos ≤ j ∧ k ≤ j ∧ j < k + 3 ∧ ¬ Covered ranges j ∧
    (j = k → ¬ Covered ranges (k + 1) ∨ ¬ Covered ranges (k + 2))

/-- Behind the last range every byte is encrypted. -/
theorem seenFrom_nil {pos k : Nat} : SeenFrom pos [] k ↔ pos ≤ k + 2 := by
  constructor
  · rintro ⟨j, hpos, -, hhigh, -⟩
    omega
  · intro hle
    exact ⟨k + 2, hle, by omega, by omega, not_covered_nil, fun _ => .inl not_covered_nil⟩

/-- A range moves the section start, and the bytes in front of it are a section. -/
theorem seenFrom_cons {pos : Nat} {r : Range} {rs : List Range} {k : Nat}
    (h : Ordered pos (r :: rs)) :
    SeenFrom pos (r :: rs) k ↔
      (pos < r.offset ∧ pos ≤ k + 2 ∧ k + 1 < r.offset) ∨
        SeenFrom (r.offset + r.size) rs k := by
  have hpos : pos ≤ r.offset := h.1
  have hlater : ∀ j, Covered rs j → r.offset + r.size ≤ j := fun j hj => hj.pos_le h.2
  have hbehind : ∀ j, r.offset + r.size ≤ j → (Covered (r :: rs) j ↔ Covered rs j) := by
    intro j hj
    rw [covered_cons]
    exact ⟨fun hcase => hcase.resolve_left (by omega), .inr⟩
  have hfront : ∀ j, j < r.offset → ¬ Covered (r :: rs) j := by
    intro j hj hcovered
    cases covered_cons.mp hcovered with
    | inl hfirst => omega
    | inr hrest =>
        have := hlater j hrest
        omega
  have hoff : ∀ j, r.offset ≤ j → ¬ Covered (r :: rs) j → r.offset + r.size ≤ j := by
    intro j hj hsecret
    by_contra hnear
    exact hsecret (covered_cons.mpr (.inl ⟨hj, by omega⟩))
  constructor
  · rintro ⟨j, hj, hlow, hhigh, hsecret, hlone⟩
    by_cases hbefore : j < r.offset
    · by_cases hroom : k + 1 < r.offset
      · exact .inl ⟨by omega, by omega, hroom⟩
      · -- the first byte is the last one of the section: the rest is looked at from the next
        obtain rfl : j = k := by omega
        cases hlone rfl with
        | inl hsecond =>
            have hnext := hoff (j + 1) (by omega) hsecond
            refine .inr ⟨j + 1, hnext, by omega, by omega, ?_, fun heq => by omega⟩
            rw [← hbehind (j + 1) hnext]
            exact hsecond
        | inr hthird =>
            have hnext := hoff (j + 2) (by omega) hthird
            refine .inr ⟨j + 2, hnext, by omega, by omega, ?_, fun heq => by omega⟩
            rw [← hbehind (j + 2) hnext]
            exact hthird
    · have hnext := hoff j (by omega) hsecret
      refine .inr ⟨j, hnext, hlow, hhigh, ?_, ?_⟩
      · rw [← hbehind j hnext]
        exact hsecret
      · rintro rfl
        rw [← hbehind (j + 1) (by omega), ← hbehind (j + 2) (by omega)]
        exact hlone rfl
  · intro hcase
    cases hcase with
    | inl hsection =>
        by_cases hstart : pos ≤ k
        · exact ⟨k, hstart, by omega, by omega, hfront k (by omega),
            fun _ => .inl (hfront (k + 1) (by omega))⟩
        · exact ⟨pos, by omega, by omega, by omega, hfront pos (by omega), fun heq => by omega⟩
    | inr hrest =>
        obtain ⟨j, hj, hlow, hhigh, hsecret, hlone⟩ := hrest
        refine ⟨j, by omega, hlow, hhigh, ?_, ?_⟩
        · rw [hbehind j hj]
          exact hsecret
        · rintro rfl
          rw [hbehind (j + 1) (by omega), hbehind (j + 2) (by omega)]
          exact hlone rfl

/-- The search over one section, from the padding in front of it. -/
theorem nextInWindow_section {frame : Bytes} {pos stop : Nat} (hle : pos ≤ stop)
    (hend : stop ≤ frame.length) :
    ∃ found, nextInWindow frame (pos - min pos startCodePadding) stop = some found ∧
      (found.isSome = true ↔ ∃ k, pos ≤ k + 2 ∧ k + 3 < stop ∧ StartCodeAt frame k) := by
  have hpadding : startCodePadding = 2 := rfl
  rw [hpadding]
  obtain ⟨found, hfound, hiff⟩ := nextInWindow_spec (show pos - min pos 2 ≤ stop by omega) hend
  refine ⟨found, hfound, hiff.trans ⟨?_, ?_⟩⟩
  · rintro ⟨k, hlow, hrest⟩
    exact ⟨k, by omega, hrest⟩
  · rintro ⟨k, hlow, hrest⟩
    exact ⟨k, by omega, hrest⟩

/-- From a section start on, the check rejects a frame for the start codes it sees that have
a byte behind them. -/
theorem validateSections_spec {frame : Bytes} {pos : Nat} {ranges : List Range}
    (hordered : Ordered pos ranges) (hend : endPos pos ranges ≤ frame.length) :
    ∃ valid, validateSections frame pos ranges = some valid ∧
      (valid = true ↔ ∀ k, StartCodeAt frame k → k + 3 < frame.length →
        ¬ SeenFrom pos ranges k) := by
  induction ranges generalizing pos with
  | nil =>
      have hpos : pos ≤ frame.length := hend
      unfold validateSections
      by_cases hdone : pos = frame.length
      · rw [if_pos hdone]
        refine ⟨true, rfl, iff_of_true rfl ?_⟩
        intro k hcode hroom hseen
        have := seenFrom_nil.mp hseen
        omega
      · obtain ⟨found, hfound, hiff⟩ := nextInWindow_section hpos (Nat.le_refl frame.length)
        rw [if_neg hdone]
        simp only [hfound, Option.bind_eq_bind, Option.bind_some]
        refine ⟨!found.isSome, rfl, ?_⟩
        rw [Bool.not_eq_true', ← Bool.not_eq_true, hiff]
        constructor
        · intro hnone k hcode hroom hseen
          exact hnone ⟨k, seenFrom_nil.mp hseen, hroom, hcode⟩
        · rintro hnone ⟨k, hlow, hroom, hcode⟩
          exact hnone k hcode hroom (seenFrom_nil.mpr hlow)
  | cons r rs ih =>
      have hpos : pos ≤ r.offset := hordered.1
      have hrest : r.offset + r.size ≤ endPos (r.offset + r.size) rs := pos_le_endPos hordered.2
      have hends : endPos pos (r :: rs) = endPos (r.offset + r.size) rs := rfl
      obtain ⟨valid, hvalid, hiff⟩ := ih hordered.2 hend
      unfold validateSections
      by_cases hskip : pos = r.offset
      · rw [if_pos hskip, hskip]
        refine ⟨valid, hvalid, hiff.trans ?_⟩
        have hsame : ∀ k, SeenFrom r.offset (r :: rs) k ↔ SeenFrom (r.offset + r.size) rs k := by
          intro k
          rw [seenFrom_cons ⟨Nat.le_refl r.offset, hordered.2⟩]
          exact ⟨fun hcase => hcase.resolve_left (by omega), .inr⟩
        simp only [hsame]
      · have hpadding : startCodePadding = 2 := rfl
        obtain ⟨found, hfound, hsection⟩ := nextInWindow_section
          (show pos ≤ min (r.offset + startCodePadding) frame.length by omega)
          (Nat.min_le_right _ _)
        rw [if_neg hskip]
        simp only [hfound, Option.bind_eq_bind, Option.bind_some]
        by_cases hany : found.isSome = true
        · rw [if_pos hany]
          refine ⟨false, rfl, iff_of_false Bool.false_ne_true ?_⟩
          intro hnone
          obtain ⟨k, hlow, hroom, hcode⟩ := hsection.mp hany
          exact hnone k hcode (by omega)
            ((seenFrom_cons hordered).mpr (.inl ⟨by omega, hlow, by omega⟩))
        · rw [if_neg hany]
          refine ⟨valid, hvalid, hiff.trans ⟨?_, ?_⟩⟩
          · intro hnone k hcode hroom hseen
            cases (seenFrom_cons hordered).mp hseen with
            | inl hhere => exact hany (hsection.mpr ⟨k, hhere.2.1, by omega, hcode⟩)
            | inr hlater => exact hnone k hcode hroom hlater
          · intro hnone k hcode hroom hseen
            exact hnone k hcode hroom ((seenFrom_cons hordered).mpr (.inr hseen))

namespace OutboundFrameProcessor

variable {p : OutboundFrameProcessor} {frame : Bytes}

/-- The clear ranges lie in the frame, sorted and disjoint. -/
structure RangesIn (p : OutboundFrameProcessor) (frame : Bytes) : Prop where
  ordered : Ordered 0 p.unencryptedRanges
  inside : endPos 0 p.unencryptedRanges ≤ frame.length

/-- A start code of the frame touches an encrypted byte. -/
def Touching (p : OutboundFrameProcessor) (frame : Bytes) (k : Nat) : Prop :=
  StartCodeAt frame k ∧ ∃ j, k ≤ j ∧ j < k + 3 ∧ ¬ Covered p.unencryptedRanges j

/-- The places where the check overlooks a start code: the end of the frame, and the last
byte of an encrypted section with two clear ones behind it. -/
def Overlooks (p : OutboundFrameProcessor) (frame : Bytes) (k : Nat) : Prop :=
  k + 3 = frame.length ∨
    (¬ Covered p.unencryptedRanges k ∧ Covered p.unencryptedRanges (k + 1) ∧
      Covered p.unencryptedRanges (k + 2))

/-- A frame is free of start codes in its encrypted bytes when none touches them. -/
theorem noStartCode_iff_touching : p.NoStartCode frame ↔ ∀ k, ¬ p.Touching frame k := by
  constructor
  · rintro hnone k ⟨hcode, j, hlow, hhigh, hsecret⟩
    exact hsecret (hnone k j hcode hlow hhigh)
  · intro hnone k j hcode hlow hhigh
    by_contra hsecret
    exact hnone k ⟨hcode, j, hlow, hhigh, hsecret⟩

/-- A start code is seen, with a byte behind it, when it touches an encrypted byte and is
not overlooked. -/
theorem seen_iff {k : Nat} (hcode : StartCodeAt frame k) :
    (k + 3 < frame.length ∧ SeenFrom 0 p.unencryptedRanges k) ↔
      p.Touching frame k ∧ ¬ p.Overlooks frame k := by
  have hle := hcode.le_length
  constructor
  · rintro ⟨hroom, j, -, hlow, hhigh, hsecret, hlone⟩
    refine ⟨⟨hcode, j, hlow, hhigh, hsecret⟩, ?_⟩
    rintro (hlast | ⟨hfirst, hsecond, hthird⟩)
    · omega
    · -- only the first byte is encrypted, so it is the one that is seen
      by_cases hsame : j = k
      · exact (hlone hsame).elim (fun h => h hsecond) (fun h => h hthird)
      · rcases (show j = k + 1 ∨ j = k + 2 by omega) with rfl | rfl
        · exact hsecret hsecond
        · exact hsecret hthird
  · rintro ⟨⟨-, j, hlow, hhigh, hsecret⟩, hseen⟩
    refine ⟨by_contra fun hroom => hseen (.inl (by omega)), ?_⟩
    refine ⟨j, Nat.zero_le j, hlow, hhigh, hsecret, ?_⟩
    rintro rfl
    by_contra hclear
    rw [not_or, not_not, not_not] at hclear
    exact hseen (.inr ⟨hsecret, hclear⟩)

/-- **What the check rejects.**  It always answers, and accepts an H264 or H265 frame when
it overlooks every start code that touches an encrypted byte. -/
theorem validateEncryptedFrame_spec (hcodec : p.frameCodec = .h264 ∨ p.frameCodec = .h265)
    (h : p.RangesIn frame) :
    ∃ valid, p.validateEncryptedFrame frame = some valid ∧
      (valid = true ↔ ∀ k, p.Touching frame k → p.Overlooks frame k) := by
  obtain ⟨valid, hvalid, hiff⟩ := validateSections_spec h.ordered h.inside
  have hvideo : ¬ (p.frameCodec ≠ .h264 ∧ p.frameCodec ≠ .h265) := by
    rintro ⟨h264, h265⟩
    exact hcodec.elim h264 h265
  refine ⟨valid, ?_, hiff.trans ⟨?_, ?_⟩⟩
  · unfold validateEncryptedFrame
    rw [if_neg hvideo]
    exact hvalid
  · intro hnone k htouch
    by_contra hseen
    obtain ⟨hroom, hfrom⟩ := (seen_iff htouch.1).mpr ⟨htouch, hseen⟩
    exact hnone k htouch.1 hroom hfrom
  · intro hall k hcode hroom hfrom
    obtain ⟨htouch, hseen⟩ := (seen_iff hcode).mp ⟨hroom, hfrom⟩
    exact hseen (hall k htouch)

/-- **Soundness of the check.**  A frame that passes has no start code that touches an
encrypted byte, exactly when none is overlooked or another one gives the frame away. -/
theorem validateEncryptedFrame_sound_iff (p : OutboundFrameProcessor) (frame : Bytes)
    (hcodec : p.frameCodec = .h264 ∨ p.frameCodec = .h265) (h : p.RangesIn frame) :
    (p.validateEncryptedFrame frame = some true → p.NoStartCode frame) ↔
      (∀ k, p.Touching frame k → ¬ p.Overlooks frame k) ∨
        ∃ k, p.Touching frame k ∧ ¬ p.Overlooks frame k := by
  obtain ⟨valid, hvalid, hiff⟩ := validateEncryptedFrame_spec hcodec h
  rw [hvalid, Option.some_inj, hiff, noStartCode_iff_touching]
  constructor
  · intro hsound
    by_cases hall : ∀ k, p.Touching frame k → p.Overlooks frame k
    · exact .inl (fun k htouch => absurd htouch (hsound hall k))
    · rw [not_forall] at hall
      obtain ⟨k, hk⟩ := hall
      exact .inr ⟨k, by_contra fun hno => hk fun htouch => by_contra fun hseen =>
        hno ⟨htouch, hseen⟩⟩
  · intro hcase hall k htouch
    cases hcase with
    | inl hnone => exact hnone k htouch (hall k htouch)
    | inr hseen =>
        obtain ⟨m, hm, hm'⟩ := hseen
        exact hm' (hall m hm)

/-- The slice of `sliceFrame`, with its clear bytes. -/
def slice : OutboundFrameProcessor := { frameCodec := .h264, unencryptedRanges := [⟨0, 6⟩] }

/-- The slice with a payload that is no start code. -/
def slicePlain : Bytes := [0, 0, 0, 1, 0x65, 0xe0, 0, 0, 2]

/-- The slice as `sliceGcm` encrypts it. -/
def sliceBody : Bytes := [0, 0, 0, 1, 0x65, 0xe0, 0, 0, 1]

theorem slice_rangesIn {frame : Bytes} (hlength : frame.length = 9) : slice.RangesIn frame := by
  refine ⟨⟨Nat.le_refl 0, trivial⟩, ?_⟩
  rw [hlength]
  decide

theorem validateEncryptedFrame_sound_iff_plain :
    slice.validateEncryptedFrame slicePlain = some true ∧ slice.NoStartCode slicePlain := by
  have hpasses : slice.validateEncryptedFrame slicePlain = some true := by
    decide +kernel
  refine ⟨hpasses, (validateEncryptedFrame_sound_iff slice slicePlain (.inl rfl)
    (slice_rangesIn rfl)).mpr (.inl ?_) hpasses⟩
  rintro k ⟨hcode, j, hlow, hhigh, hsecret⟩ -
  have hle : k + 3 ≤ 9 := hcode.le_length
  have hclear : ∀ k < 7, StartCodeAt slicePlain k → k = 1 := by
    unfold StartCodeAt
    decide
  obtain rfl := hclear k (by omega) hcode
  refine hsecret ⟨⟨0, 6⟩, List.mem_cons_self, Nat.zero_le j, ?_⟩
  show j < 0 + 6
  omega

/-- The slice passes the check, with a start code at its end. -/
theorem validateEncryptedFrame_slice :
    ¬ ∀ (p : OutboundFrameProcessor) (frame : Bytes),
        p.frameCodec = .h264 ∨ p.frameCodec = .h265 → p.RangesIn frame →
          p.validateEncryptedFrame frame = some true → p.NoStartCode frame := by
  intro hsound
  have hfree := hsound slice sliceBody (.inl rfl) (slice_rangesIn rfl) (by decide +kernel)
  have hcovered := hfree 6 8 rfl (by decide) (by decide)
  revert hcovered
  decide

end OutboundFrameProcessor

end Ekizu.Dave
