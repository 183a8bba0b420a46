import Ekizu.Dave.LongStartCodes
import Ekizu.Dave.FrameRoundTrip
import Ekizu.Dave.StartCodes

/-!
# The start codes of an encrypted frame

A packetizer between sender and receiver cuts an encrypted H264 or H265 frame at its start
codes.  Those that the outbound processor writes are in the clear, and in the frame that it
splits no start code touches a byte that is going to be encrypted.  So the packetizer finds
the start codes of the frame, and others only where the ciphertext makes them.

## Main results

* `covered_iff` — the ranges are the clear chunks.
* `Framed.apart` — a start code of a split frame touches no encrypted chunk.
* `startCodes_encrypted_iff` — encrypting moves no start code exactly when none touches an
  encrypted byte.
-/

namespace Ekizu.Dave

open Lib.Span
open Lib.Segments

/-! ## Encrypted positions -/

/-- The position is in an encrypted chunk. -/
def SecretAt : List Piece → Nat → Prop
  | [], _ => False
  | .unencrypted bytes :: pieces, j => bytes.length ≤ j ∧ SecretAt pieces (j - bytes.length)
  | .encrypted bytes :: pieces, j =>
      j < bytes.length ∨ bytes.length ≤ j ∧ SecretAt pieces (j - bytes.length)

theorem secretAt_append {ps qs : List Piece} {j : Nat} :
    SecretAt (ps ++ qs) j ↔ SecretAt ps j ∨
      (ps.flatMap Piece.bytes).length ≤ j ∧
        SecretAt qs (j - (ps.flatMap Piece.bytes).length) := by
  induction ps generalizing j with
  | nil => simp [SecretAt]
  | cons p ps ih =>
      cases p with
      | unencrypted bytes =>
          simp only [List.cons_append, SecretAt, ih, List.flatMap_cons, Piece.bytes,
            List.length_append, Nat.sub_sub]
          constructor
          · intro h
            cases h.2 with
            | inl hfront => exact .inl ⟨h.1, hfront⟩
            | inr hback => exact .inr ⟨by omega, hback.2⟩
          · intro h
            cases h with
            | inl hfront => exact ⟨hfront.1, .inl hfront.2⟩
            | inr hback => exact ⟨by omega, .inr ⟨by omega, hback.2⟩⟩
      | encrypted bytes =>
          simp only [List.cons_append, SecretAt, ih, List.flatMap_cons, Piece.bytes,
            List.length_append, Nat.sub_sub]
          constructor
          · intro h
            rcases h with hhere | ⟨hle, hfront | hback⟩
            · exact .inl (.inl hhere)
            · exact .inl (.inr ⟨hle, hfront⟩)
            · exact .inr ⟨by omega, hback.2⟩
          · intro h
            rcases h with (hhere | hfront) | hback
            · exact .inl hhere
            · exact .inr ⟨hfront.1, .inl hfront.2⟩
            · exact .inr ⟨by omega, .inr ⟨by omega, hback.2⟩⟩

/-- There is no encrypted byte behind the last chunk. -/
theorem not_secretAt_of_le {pieces : List Piece} {j : Nat}
    (hj : (pieces.flatMap Piece.bytes).length ≤ j) : ¬ SecretAt pieces j := by
  induction pieces generalizing j with
  | nil => exact id
  | cons p pieces ih =>
      intro hsecret
      cases p with
      | unencrypted bytes =>
          simp only [List.flatMap_cons, Piece.bytes, List.length_append] at hj
          exact ih (by omega) hsecret.2
      | encrypted bytes =>
          simp only [List.flatMap_cons, Piece.bytes, List.length_append] at hj
          cases hsecret with
          | inl hhere => omega
          | inr hlater => exact ih (by omega) hlater.2

namespace OutboundFrameProcessor

/-- A range is added, or the last one grows by it. -/
theorem covered_addRange {ranges : List Range} {frameIndex size j : Nat} :
    Covered (addRange ranges frameIndex size) j ↔
      Covered ranges j ∨ (frameIndex ≤ j ∧ j < frameIndex + size) := by
  cases List.eq_nil_or_concat ranges with
  | inl hnil =>
      subst hnil
      simp [addRange, Covered]
  | inr hconcat =>
      obtain ⟨front, back, rfl⟩ := hconcat
      rw [List.concat_eq_append]
      simp only [addRange, List.getLast?_append, List.getLast?_singleton, Option.some_or,
        List.dropLast_concat]
      split
      · next hadjacent =>
          simp only [Covered, List.mem_append, List.mem_singleton, or_and_right, exists_or,
            exists_eq_left, or_assoc]
          constructor
          · intro h
            rcases h with hfront | hback
            · exact .inl hfront
            · by_cases hold : j < back.offset + back.size
              · exact .inr (.inl ⟨hback.1, hold⟩)
              · exact .inr (.inr ⟨by omega, by omega⟩)
          · intro h
            rcases h with hfront | hback | hnew
            · exact .inl hfront
            · exact .inr ⟨hback.1, by omega⟩
            · exact .inr ⟨by omega, by omega⟩
      · simp only [Covered, List.mem_append, List.mem_singleton, or_and_right, exists_or,
          exists_eq_left]

/-- One call. -/
theorem covered_add {p : OutboundFrameProcessor} {pieces : List Piece} (h : p.Booked pieces)
    (hcovered : ∀ j < p.frameIndex, Covered p.unencryptedRanges j ↔ ¬ SecretAt pieces j)
    (piece : Piece) : ∀ j < (p.add piece).frameIndex,
      Covered (p.add piece).unencryptedRanges j ↔ ¬ SecretAt (pieces ++ [piece]) j := by
  have htotal : p.frameIndex = (pieces.flatMap Piece.bytes).length := by
    rw [h.accounted.total, h.clear, h.secret, flatMap_bytes_length]
  -- behind the calls so far no byte is of theirs
  have hbehind : ∀ j, p.frameIndex ≤ j → ¬ Covered p.unencryptedRanges j := by
    rintro j hj ⟨r, hr, -, hhigh⟩
    have hend := end_le_endPos h.accounted.ordered hr
    have hle := h.accounted.endPos_le
    omega
  intro j hj
  rw [secretAt_append, ← htotal]
  cases piece with
  | unencrypted bytes =>
      show Covered (addRange p.unencryptedRanges p.frameIndex bytes.length) j ↔ _
      have hj : j < p.frameIndex + bytes.length := hj
      rw [covered_addRange]
      by_cases hold : j < p.frameIndex
      · rw [hcovered j hold]
        constructor
        · intro hclear hsecret
          rcases hclear with hclear | hnew
          · rcases hsecret with hsecret | hsecret
            · exact hclear hsecret
            · omega
          · omega
        · intro hclear
          exact .inl fun hsecret => hclear (.inl hsecret)
      · refine iff_of_true (.inr ⟨by omega, hj⟩) ?_
        rintro (hsecret | ⟨-, hlow, hsecret⟩)
        · exact not_secretAt_of_le (by omega) hsecret
        · exact hsecret
  | encrypted bytes =>
      show Covered p.unencryptedRanges j ↔ _
      have hj : j < p.frameIndex + bytes.length := hj
      by_cases hold : j < p.frameIndex
      · rw [hcovered j hold]
        constructor
        · rintro hclear (hsecret | ⟨hlow, -⟩)
          · exact hclear hsecret
          · omega
        · intro hclear hsecret
          exact hclear (.inl hsecret)
      · refine iff_of_false (hbehind j (by omega)) fun hclear => hclear (.inr ⟨by omega, .inl ?_⟩)
        omega

/-- A run of calls. -/
theorem covered_foldl_add {p : OutboundFrameProcessor} {done pieces : List Piece}
    (h : p.Booked done)
    (hcovered : ∀ j < p.frameIndex, Covered p.unencryptedRanges j ↔ ¬ SecretAt done j) :
    ∀ j < (pieces.foldl add p).frameIndex,
      Covered (pieces.foldl add p).unencryptedRanges j ↔ ¬ SecretAt (done ++ pieces) j := by
  induction pieces generalizing p done with
  | nil => rwa [List.append_nil]
  | cons piece pieces ih =>
      have hrest := ih (h.add piece) (covered_add h hcovered piece)
      rwa [List.append_assoc] at hrest

/-- **The ranges are the clear chunks.** -/
theorem covered_iff {p p' : OutboundFrameProcessor} {frame : Bytes} {codec : Codec}
    {pieces : List Piece} (hsplit : splitByCodec frame codec = some (true, pieces))
    (h : p.processFrame frame codec = some p') {j : Nat} (hj : j < p'.bodySize) :
    Covered p'.unencryptedRanges j ↔ ¬ SecretAt pieces j := by
  have hindex : j < p'.frameIndex := by
    rw [(processFrame_accounted h).1.total]
    exact hj
  clear hj
  unfold processFrame at h
  rw [hsplit] at h
  obtain rfl := Option.some.inj h
  have hempty : ({ p.reset with frameCodec := codec } : OutboundFrameProcessor).Booked [] :=
    ⟨⟨trivial, rfl, Nat.le_refl 0, rfl⟩, .nil, rfl, rfl, fun _ _ => rfl⟩
  exact covered_foldl_add hempty (fun j hj => absurd hj (Nat.not_lt_zero j)) j hindex

end OutboundFrameProcessor

/-! ## Units behind long start codes -/

/-- The chunks of NAL units: a long start code in the clear and the chunks of the unit,
which holds no start code. -/
inductive Framed : List Piece → Prop
  | nil : Framed []
  | unit {chunks pieces : List Piece}
      (hfree : ∀ k, ¬ StartCodeAt (chunks.flatMap Piece.bytes) k) (hrest : Framed pieces) :
      Framed (.unencrypted naluLongStartCode :: (chunks ++ pieces))

/-- What follows a unit is nothing or a long start code. -/
theorem Framed.bytes {pieces : List Piece} (h : Framed pieces) :
    pieces.flatMap Piece.bytes = [] ∨
      ∃ rest, pieces.flatMap Piece.bytes = naluLongStartCode ++ rest := by
  cases h with
  | nil => exact .inl rfl
  | unit => exact .inr ⟨_, rfl⟩

/-- Between long start codes no start code touches a unit without one. -/
theorem not_touching_unit {pre unit rest : Bytes} (hfree : ∀ k, ¬ StartCodeAt unit k)
    (hrest : rest = [] ∨ ∃ rest', rest = naluLongStartCode ++ rest') {k j : Nat}
    (hcode : StartCodeAt (pre ++ (naluLongStartCode ++ (unit ++ rest))) k)
    (hlow : k ≤ pre.length + 4 + j) (hhigh : pre.length + 4 + j < k + 3) (hj : j < unit.length) :
    False := by
  have hcells := startCodeAt_iff.mp hcode
  -- a cell of the start code in front, of the unit, and of what follows
  have hfront : ∀ i, i < 4 → (pre ++ (naluLongStartCode ++ (unit ++ rest)))[pre.length + i]? =
      naluLongStartCode[i]? := by
    intro i hi
    rw [List.getElem?_append_right (by omega), Nat.add_sub_cancel_left,
      List.getElem?_append_left (show i < 4 from hi)]
  have hunit : ∀ i, i < unit.length →
      (pre ++ (naluLongStartCode ++ (unit ++ rest)))[pre.length + 4 + i]? = unit[i]? := by
    intro i hi
    rw [List.getElem?_append_right (by omega),
      show pre.length + 4 + i - pre.length = 4 + i by omega,
      List.getElem?_append_right (show 4 ≤ 4 + i by omega),
      show 4 + i - naluLongStartCode.length = i by simp [naluLongStartCode],
      List.getElem?_append_left hi]
  have hback : ∀ i,
      (pre ++ (naluLongStartCode ++ (unit ++ rest)))[pre.length + 4 + unit.length + i]? =
        rest[i]? := by
    intro i
    rw [List.getElem?_append_right (by omega),
      show pre.length + 4 + unit.length + i - pre.length = 4 + (unit.length + i) by omega,
      List.getElem?_append_right (show 4 ≤ 4 + (unit.length + i) by omega),
      show 4 + (unit.length + i) - naluLongStartCode.length = unit.length + i by
        simp [naluLongStartCode],
      List.getElem?_append_right (by omega), Nat.add_sub_cancel_left]
  by_cases hbefore : k < pre.length + 4
  · -- the last byte of the long start code is not zero
    have hone := hfront 3 (by omega)
    have hcase : k = pre.length + 3 ∨ k + 1 = pre.length + 3 := by omega
    cases hcase with
    | inl hsame =>
        rw [← hsame, hcells.1] at hone
        exact absurd hone (by decide)
    | inr hnext =>
        rw [← hnext, hcells.2.1] at hone
        exact absurd hone (by decide)
  · by_cases hafter : k + 3 ≤ pre.length + 4 + unit.length
    · -- inside the unit
      obtain ⟨i, rfl⟩ : ∃ i, k = pre.length + 4 + i := ⟨k - (pre.length + 4), by omega⟩
      refine hfree i (startCodeAt_iff.mpr ⟨?_, ?_, ?_⟩)
      · rw [← hunit i (by omega)]
        exact hcells.1
      · rw [← hunit (i + 1) (by omega)]
        exact hcells.2.1
      · rw [← hunit (i + 2) (by omega)]
        exact hcells.2.2
    · -- the one would be a zero of the next start code
      obtain ⟨i, hi⟩ : ∃ i, k + 2 = pre.length + 4 + unit.length + i :=
        ⟨k + 2 - (pre.length + 4 + unit.length), by omega⟩
      have hone := hcells.2.2
      rw [hi, hback i] at hone
      cases hrest with
      | inl hnil =>
          rw [hnil] at hone
          simp at hone
      | inr hnext =>
          obtain ⟨rest', rfl⟩ := hnext
          have hcase : i = 0 ∨ i = 1 := by omega
          rcases hcase with rfl | rfl
          · exact absurd hone (by simp [naluLongStartCode])
          · exact absurd hone (by simp [naluLongStartCode])

/-- **A start code of a split frame touches no encrypted chunk.** -/
theorem Framed.apart {pieces : List Piece} (h : Framed pieces) :
    ∀ {pre : Bytes} {k j : Nat}, StartCodeAt (pre ++ pieces.flatMap Piece.bytes) k →
      k ≤ pre.length + j → pre.length + j < k + 3 → ¬ SecretAt pieces j := by
  induction h with
  | nil => exact fun _ _ _ => id
  | @unit chunks pieces hfree hrest ih =>
      intro pre k j hcode hlow hhigh hsecret
      simp only [List.flatMap_cons, List.flatMap_append, Piece.bytes] at hcode
      have hlong : 4 ≤ j := hsecret.1
      have hlater : SecretAt (chunks ++ pieces) (j - 4) := hsecret.2
      by_cases hhere : j - 4 < (chunks.flatMap Piece.bytes).length
      · exact not_touching_unit hfree hrest.bytes hcode (by omega) (by omega) hhere
      · rw [secretAt_append] at hlater
        have hbehind : SecretAt pieces (j - 4 - (chunks.flatMap Piece.bytes).length) := by
          cases hlater with
          | inl hfront =>
              exact absurd hfront (not_secretAt_of_le (by omega))
          | inr hback => exact hback.2
        have hassoc : pre ++ (naluLongStartCode ++ (chunks.flatMap Piece.bytes ++
            pieces.flatMap Piece.bytes)) =
              (pre ++ naluLongStartCode ++ chunks.flatMap Piece.bytes) ++
                pieces.flatMap Piece.bytes := by
          simp only [List.append_assoc]
        rw [hassoc] at hcode
        have hlength : (pre ++ naluLongStartCode ++ chunks.flatMap Piece.bytes).length =
            pre.length + 4 + (chunks.flatMap Piece.bytes).length := by
          simp only [List.length_append]
          rfl
        exact ih hcode (by omega) (by omega) hbehind

/-- Every start code of the frame has a unit of two bytes or more behind it. -/
def WholeUnits (frame : Bytes) : Prop := ∀ k, StartCodeAt frame k → k + 4 < frame.length

theorem WholeUnits.keepsLastUnit {frame : Bytes} (h : WholeUnits frame) : KeepsLastUnit frame := by
  intro k hk
  have hroom := h k hk
  exact ⟨by omega, fun hend => by omega⟩

/-- A start code of a slice is one of the frame. -/
theorem startCodeAt_slice {frame : Bytes} {start size m : Nat}
    (h : StartCodeAt ((frame.drop start).take size) m) :
    StartCodeAt frame (start + m) ∧ m + 3 ≤ size := by
  have hroom := h.le_length
  rw [List.length_take] at hroom
  have hcells := startCodeAt_iff.mp h
  simp only [List.getElem?_take, List.getElem?_drop] at hcells
  rw [if_pos (by omega), if_pos (by omega), if_pos (by omega)] at hcells
  exact ⟨startCodeAt_iff.mpr hcells, by omega⟩

/-- **The loop frames its units**, where each is long enough for its header. -/
theorem framed_nalUnitLoop {fits : Bytes → Nat → Nat → Prop}
    {unit : Bytes → Nat → Option (Nat × Nat) → Option (List Piece)} {frame : Bytes}
    (hcopies : Copies fits unit frame) (hleads : Leads unit) (hwhole : WholeUnits frame)
    (hfits : HeadersFitFrom fits frame 0) {k size : Nat} {pieces : List Piece}
    (hcode : StartCodeAt frame k)
    (h : nalUnitLoop unit frame (some (k + 3, size)) = some pieces) : Framed pieces := by
  induction hn : frame.length - k using Nat.strongRecOn generalizing k size pieces with
  | ind n ih =>
      have hmore := hwhole k hcode
      obtain ⟨next, hnext, hscan⟩ := nextH26xNaluIndex_eq frame (k + 3)
      obtain ⟨stop, hstop, hle, hend, hcase⟩ := nextNaluStart_eq hcode hscan
      rw [nalUnitLoop_step (by omega) hnext] at h
      obtain ⟨own, hown, h⟩ := Option.bind_eq_some_iff.mp h
      obtain ⟨rest, hrest, h⟩ := Option.bind_eq_some_iff.mp h
      obtain rfl := Option.some.inj h
      have hbytes : own.flatMap Piece.bytes =
          naluLongStartCode ++ (frame.drop (k + 3)).take (stop - (k + 3)) := by
        obtain ⟨-, hbytes⟩ | ⟨hshort, -⟩ := hcopies k next stop own hcode hmore hscan hstop hown
        · exact hbytes
        · exact absurd ((fitsAt_iff hcode hscan hstop).mp
            (hfits k (Nat.zero_le k) hcode hmore)) hshort
      obtain ⟨chunks, rfl⟩ := hleads frame (k + 3) next own hown
      rw [List.flatMap_cons, Piece.bytes, List.append_right_inj] at hbytes
      -- the unit lies between this start code and the next one
      have hfree : ∀ m, ¬ StartCodeAt (chunks.flatMap Piece.bytes) m := by
        intro m hm
        rw [hbytes] at hm
        obtain ⟨hin, hroom⟩ := startCodeAt_slice hm
        rcases hcase with ⟨rfl, rfl⟩ | ⟨j, hj, rfl, rfl⟩
        · rcases hscan with ⟨-, hno⟩ | ⟨j, -, hj⟩
          · have hin' := hwhole _ hin
            exact hno _ (by omega) (by omega) hin
          · cases hj
        · have hback := unitEnd_le frame j
          exact hj.least _ (by omega) (by omega) hin
      refine .unit hfree ?_
      rcases hcase with ⟨rfl, -⟩ | ⟨j, hj, rfl, -⟩
      · rw [nalUnitLoop_none] at hrest
        obtain rfl := Option.some.inj hrest
        exact .nil
      · have hfrom := hj.from_le
        exact ih (frame.length - j) (by omega) hj.code hrest rfl

theorem framed_split {frame : Bytes} {codec : Codec} {pieces : List Piece}
    (hcodec : codec = .h264 ∨ codec = .h265) (hlong : 5 ≤ frame.length)
    (hwhole : WholeUnits frame) (hfits : HeadersFit codec frame)
    (hsplit : OutboundFrameProcessor.splitByCodec frame codec = some (true, pieces)) :
    Framed pieces := by
  obtain ⟨fits, unit, header, hcopies, hleads, hall, hheader, hchecked⟩ :=
    split_checked hcodec hfits hsplit
  obtain ⟨first, hfirst, hscan⟩ := nextH26xNaluIndex_eq frame 0
  rw [processFrameH26x_eq (by simp only [naluShortStartSequenceSize]; omega) hfirst] at hchecked
  obtain ⟨own, hown, hpair⟩ := Option.map_eq_some_iff.mp hchecked
  obtain rfl := (Prod.mk.inj hpair).2
  rcases hscan with ⟨rfl, -⟩ | ⟨k, hk, rfl⟩
  · rw [nalUnitLoop_none] at hown
    obtain rfl := Option.some.inj hown
    exact .nil
  · exact framed_nalUnitLoop hcopies hleads hwhole hall hk.code hown

/-! ## The packetizer's view -/

namespace OutboundFrameProcessor

/-- Where the frame that was split has no start code on an encrypted byte, a body has the
start codes of the frame exactly when it has none there either. -/
theorem startCodes_iff_noStartCode {p : OutboundFrameProcessor} (h : p.Accounted)
    (hplain : p.NoStartCode p.contents) {sections : Bytes}
    (hlength : sections.length = p.encryptedBytes.length) :
    (∀ k, StartCodeAt (p.bodyWith sections) k ↔ StartCodeAt p.contents k) ↔
      p.NoStartCode (p.bodyWith sections) := by
  -- a start code in the clear is in both or in neither
  have hclear : ∀ k, (∀ j, k ≤ j → j < k + 3 → Covered p.unencryptedRanges j) →
      (StartCodeAt (p.bodyWith sections) k ↔ StartCodeAt p.contents k) := by
    intro k hall
    have hsame : ∀ i < 3, (p.bodyWith sections)[k + i]? = p.contents[k + i]? := fun i hi =>
      h.bodyWith_covered hlength (hall (k + i) (by omega) (by omega))
    have hfirst : (p.bodyWith sections)[k]? = p.contents[k]? := hsame 0 (by omega)
    rw [startCodeAt_iff, startCodeAt_iff, hfirst, hsame 1 (by omega), hsame 2 (by omega)]
  constructor
  · intro hsame i j hcode hlow hhigh
    exact hplain i j ((hsame i).mp hcode) hlow hhigh
  · intro hnone k
    constructor
    · intro hcode
      exact (hclear k fun j => hnone k j hcode).mp hcode
    · intro hcode
      exact (hclear k fun j => hplain k j hcode).mpr hcode

end OutboundFrameProcessor

/-- A frame of five bytes or more is split. -/
theorem split_success {frame : Bytes} {codec : Codec} {success : Bool} {pieces : List Piece}
    (hcodec : codec = .h264 ∨ codec = .h265) (hlong : 5 ≤ frame.length)
    (hfits : HeadersFit codec frame)
    (hsplit : OutboundFrameProcessor.splitByCodec frame codec = some (success, pieces)) :
    success = true := by
  obtain ⟨fits, unit, header, -, -, -, hheader, hchecked⟩ := split_checked hcodec hfits hsplit
  obtain ⟨first, hfirst, -⟩ := nextH26xNaluIndex_eq frame 0
  rw [processFrameH26x_eq (by simp only [naluShortStartSequenceSize]; omega) hfirst] at hchecked
  obtain ⟨own, -, hpair⟩ := Option.map_eq_some_iff.mp hchecked
  exact (Prod.mk.inj hpair).1.symm

/-- **The packetizer's view of an encrypted frame.**  Of an H264 or H265 frame that begins
with a start code, and has a unit of two bytes or more behind each and none that is too short
for its header, a successful call of `encrypt` leaves a body whose start codes are those of
the frame with long start codes, exactly when none of them touches an encrypted byte. -/
theorem startCodes_encrypted_iff {H : Type} [HashRatchet H] {gcm : AesGcm} {e e' : Encryptor H}
    {mediaType : MediaType} {ssrc : UInt32} {frame out out' : Bytes} {n : Nat}
    (hpass : e.passthroughMode = false)
    (hcodec : e.codecForSsrc ssrc = .h264 ∨ e.codecForSsrc ssrc = .h265)
    (hlong : 5 ≤ frame.length) (hstart : StartsWithStartCode frame) (hwhole : WholeUnits frame)
    (hfits : HeadersFit (e.codecForSsrc ssrc) frame)
    (hcall : e.encrypt gcm mediaType ssrc frame out = some (e', .ok (n, out'))) :
    (∀ k, StartCodeAt (out'.take e'.frameProcessor.bodySize) k ↔
        StartCodeAt (longStartCodes frame) k) ↔
      e'.frameProcessor.NoStartCode (out'.take e'.frameProcessor.bodySize) := by
  obtain ⟨p, key, nonce, ciphertext, tag, hsealed, hacc, hproc, hseal, hbody⟩ :=
    Encryptor.encrypt_body hpass hcall
  obtain ⟨-, -, -, -, hp, -⟩ := Encryptor.sealedFrame_eq_some hsealed
  have hct := (gcm.gcmEncrypt_length hseal).1
  obtain ⟨pieces, hsplit⟩ : ∃ pieces,
      OutboundFrameProcessor.splitByCodec frame (e.codecForSsrc ssrc) = some (true, pieces) := by
    have hparts := hp
    unfold OutboundFrameProcessor.processFrame at hparts
    obtain ⟨⟨success, pieces⟩, hsplit, -⟩ := Option.bind_eq_some_iff.mp hparts
    obtain rfl := split_success hcodec hlong hfits hsplit
    exact ⟨pieces, hsplit⟩
  have hbytes := split_bytes hcodec hstart hwhole.keepsLastUnit hfits hsplit
  have hcontents := OutboundFrameProcessor.processFrame_contents hsplit hp
  rw [if_pos rfl] at hcontents
  have hplain : p.NoStartCode p.contents := by
    intro i j hcode hlow hhigh
    rw [hcontents] at hcode
    have hroom := StartCodeAt.le_length hcode
    have hframed : StartCodeAt ([] ++ pieces.flatMap Piece.bytes) i := hcode
    have hapart := (framed_split hcodec hlong hwhole hfits hsplit).apart hframed (by simpa)
      (by simpa)
    refine (OutboundFrameProcessor.covered_iff hsplit hp ?_).mpr hapart
    have hsize := OutboundFrameProcessor.contents_length hacc
    rw [hcontents] at hsize
    rw [OutboundFrameProcessor.bodySize]
    omega
  have hiff := OutboundFrameProcessor.startCodes_iff_noStartCode hacc hplain hct
  rw [← hbytes, ← hcontents]
  have hsize : e'.frameProcessor.bodySize = p.bodySize := by
    rw [hproc]
    rfl
  rw [hsize, hbody, hproc]
  exact hiff

/-- The slice that a cipher encrypts to a start code: a packetizer finds one too many. -/
theorem startCodes_encrypted_slice : ∃ e' n out',
    Encryptor.referenceEncryptor.encrypt Encryptor.sliceGcm .video 2 Encryptor.sliceFrame
        (List.replicate 40 0) = some (e', .ok (n, out')) ∧
      ((∀ k, StartCodeAt (out'.take e'.frameProcessor.bodySize) k ↔
          StartCodeAt (longStartCodes Encryptor.sliceFrame) k) ↔
        e'.frameProcessor.NoStartCode (out'.take e'.frameProcessor.bodySize)) := by
  have heval : ((Encryptor.referenceEncryptor.encrypt Encryptor.sliceGcm .video 2
      Encryptor.sliceFrame (List.replicate 40 0)).bind fun call => call.2.toOption).isSome =
        true := by
    decide +kernel
  obtain ⟨sent, hsome⟩ := Option.isSome_iff_exists.mp heval
  obtain ⟨⟨e', result⟩, hcall, hresult⟩ := Option.bind_eq_some_iff.mp hsome
  cases result with
  | error err => simp [Except.toOption] at hresult
  | ok sent =>
      have hwhole : WholeUnits Encryptor.sliceFrame := by
        intro k hk
        have hroom : k + 3 ≤ 8 := hk.le_length
        have hfirst : ∀ k < 6, StartCodeAt Encryptor.sliceFrame k → k = 0 := by decide
        obtain rfl := hfirst k (by omega) hk
        decide
      have hheaders : HeadersFit (Encryptor.referenceEncryptor.codecForSsrc 2)
          Encryptor.sliceFrame :=
        (processFrameH264Checked_isSome_iff Encryptor.sliceFrame).mp (by decide +kernel)
      exact ⟨e', sent.1, sent.2, hcall, startCodes_encrypted_iff rfl (.inl (by decide)) (by decide)
        (.inl (by decide)) hwhole hheaders hcall⟩

end Ekizu.Dave
