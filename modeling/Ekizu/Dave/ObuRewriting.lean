import Ekizu.Dave.Bookkeeping
import Ekizu.Dave.Obus
import Ekizu.Dave.ObuWalk

/-!
# Rewriting AV1 frames

`process_frame_av1` as a pass over units: it drops those that the packetizer drops, writes
every size field in its shortest form, and takes the one of the last unit away.  Payloads
are passed on as encrypted, everything else in the clear.

## Main results

* `processFrameAv1Loop_rewritten` — the loop from the start of a unit on.
* `av1_rewriting` — what the pass makes of a well-formed frame.
-/

namespace Ekizu.Dave

open Lib.Span

/-! ## What the pass should do -/

/-- The header bits other than the size flag are kept when it is cleared. -/
theorem and_not_two_and (header mask : UInt8) (hmask : ~~~0x02 &&& mask = mask) :
    (header &&& ~~~0x02) &&& mask = header &&& mask := by
  rw [UInt8.and_assoc, hmask]

theorem and_not_two_of_zero {header : UInt8} (h : header &&& 0x02 = 0) :
    header &&& ~~~0x02 = header := by
  have hbits : ∀ i : Fin 256, i.val &&& 2 = 0 → i.val &&& 253 = i.val := by decide +kernel
  have hzero : header.toNat &&& 2 = 0 := by
    rw [← UInt8.toNat_inj, UInt8.toNat_and] at h
    exact h
  rw [← UInt8.toNat_inj, UInt8.toNat_and]
  exact hbits ⟨header.toNat, header.toNat_lt⟩ hzero

namespace Obu

/-- The unit without its size field, as it may stand at the end of a frame. -/
def withoutSize (obu : Obu) : Obu where
  header := obu.header &&& ~~~0x02
  extension := obu.extension
  size := none
  payload := obu.payload
  extension_iff := by
    rw [and_not_two_and obu.header 0x04 (by decide)]
    exact obu.extension_iff
  size_iff := by
    rw [UInt8.and_assoc]
    simp
  size_value := by simp

/-- The unit with its size field, when it has one, in the shortest form. -/
def withShortestSize (obu : Obu) : Obu where
  header := obu.header
  extension := obu.extension
  size := obu.size.map fun _ => writeLeb128 obu.payload.length
  payload := obu.payload
  extension_iff := obu.extension_iff
  size_iff := by
    rw [Option.isSome_map]
    exact obu.size_iff
  size_value := by
    intro field hfield
    obtain ⟨old, -, rfl⟩ := Option.map_eq_some_iff.mp hfield
    exact leb128Value_writeLeb128 obu.payload.length

/-- The calls for a unit: the payload is to be encrypted, the rest is not. -/
def pieces (obu : Obu) : List Piece :=
  .unencrypted [obu.header] ::
    (obu.extension.toList.map (fun byte => .unencrypted [byte]) ++
      obu.size.toList.map .unencrypted ++ [.encrypted obu.payload])

theorem pieces_bytes (obu : Obu) : obu.pieces.flatMap Piece.bytes = obu.encode := by
  obtain ⟨header, extension, size, payload, -, -, -⟩ := obu
  cases extension <;> cases size <;> simp [pieces, encode, head, Piece.bytes]

end Obu

/-- The units of a frame after the pass. -/
def rewritten : List Obu → List Obu
  | [] => []
  | obu :: obus =>
      (if ObuKept obu.header then
        [if obus.isEmpty then obu.withoutSize else obu.withShortestSize]
      else []) ++ rewritten obus

/-! ## One unit -/

section Unit

variable {before rest : Bytes} {obu : Obu}

/-- The flags of the header say which of the optional parts there are. -/
theorem Obu.not_extended (h : obu.extension = none) : ¬ obu.header &&& 0x04 ≠ 0 := by
  rw [← obu.extension_iff, h]
  simp

theorem Obu.extended {byte : UInt8} (h : obu.extension = some byte) :
    obu.header &&& 0x04 ≠ 0 := by
  rw [← obu.extension_iff, h]
  rfl

theorem Obu.not_sized (h : obu.size = none) : ¬ obu.header &&& 0x02 ≠ 0 := by
  rw [← obu.size_iff, h]
  simp

theorem Obu.sized {field : Bytes} (h : obu.size = some field) : obu.header &&& 0x02 ≠ 0 := by
  rw [← obu.size_iff, h]
  rfl

theorem obuSizeIndex_encode (obu : Obu) (i : Nat) :
    obuSizeIndex obu.header i = i + 1 + obu.extension.toList.length := by
  unfold obuSizeIndex
  cases hext : obu.extension with
  | none =>
      rw [if_neg (Obu.not_extended hext)]
      rfl
  | some byte =>
      rw [if_pos (Obu.extended hext)]
      rfl

/-- The loop reads a unit where one begins. -/
theorem obuAt_encode (before : Bytes) (hfield : ∀ field ∈ obu.size, field.length ≤ leb128MaxSize)
    (hpayload : obu.payload.length < 2 ^ 64)
    (hlast : obu.size = none → rest = [] ∧ obu.payload ≠ []) :
    obuAt (before ++ (obu.encode ++ rest)) before.length =
      some ⟨obu.header, before.length + obu.head.length, obu.payload.length⟩ := by
  have hheader : (before ++ (obu.encode ++ rest))[before.length]? = some obu.header := by
    simp [Obu.encode, Obu.head]
  have hdrop : (before ++ (obu.encode ++ rest)).drop
      (before.length + 1 + obu.extension.toList.length) =
        obu.size.getD [] ++ (obu.payload ++ rest) := by
    rw [Nat.add_assoc, ← List.drop_drop, List.drop_left]
    simp only [Obu.encode, Obu.head, List.cons_append, List.append_assoc]
    rw [Nat.add_comm, List.drop_succ_cons, List.drop_left]
  have hlength : (before ++ (obu.encode ++ rest)).length =
      before.length + 1 + obu.extension.toList.length +
        (obu.size.getD [] ++ (obu.payload ++ rest)).length := by
    simp only [Obu.encode, Obu.head, List.length_append, List.length_cons]
    omega
  have hhead : obu.head.length = 1 + obu.extension.toList.length + (obu.size.getD []).length := by
    simp only [Obu.head, List.length_append, List.length_cons]
    omega
  unfold obuAt
  rw [hheader, Option.bind_some, obuSizeIndex_encode, hlength, hdrop, hhead]
  cases hsize : obu.size with
  | none =>
      have hpos : 0 < obu.payload.length := List.length_pos_iff.mpr (hlast hsize).2
      simp only [(hlast hsize).1, Option.getD_none, List.nil_append, List.append_nil,
        List.length_nil, Nat.add_zero]
      rw [if_neg (by omega), if_neg (Obu.not_sized hsize), Nat.add_sub_cancel_left, Nat.add_assoc]
  | some field =>
      have hpos : 0 < field.length :=
        List.length_pos_iff.mpr (leb128Value_ne_nil (obu.size_value field hsize))
      have hread := readLeb128_field (obu.payload ++ rest) (obu.size_value field hsize)
        (hfield field hsize) hpayload
      simp only [Option.getD_some]
      have hsum : (field ++ (obu.payload ++ rest)).length =
          field.length + (obu.payload ++ rest).length := List.length_append
      rw [if_neg (by omega), if_pos (Obu.sized hsize), hread, Option.map_some, hsum]
      simp only [Option.some.injEq, ObuSpan.mk.injEq, true_and, and_true]
      omega

theorem subspan_middle {α : Type} (xs ys zs : List α) :
    subspan (xs ++ (ys ++ zs)) xs.length ys.length = some ys := by
  rw [subspan_of_le (by simp only [List.length_append]; omega), List.drop_left, List.take_left]

/-- The header that is written: the last unit loses its size flag. -/
theorem header_rewritten (obu : Obu) (rest : Bytes) :
    (if rest = [] ∧ obu.header &&& 0x02 ≠ 0 then obu.header &&& ~~~0x02 else obu.header) =
      (if rest.isEmpty then obu.withoutSize else obu.withShortestSize).header := by
  by_cases hrest : rest = []
  · rw [if_pos (List.isEmpty_iff.mpr hrest)]
    by_cases hflag : obu.header &&& 0x02 ≠ 0
    · rw [if_pos ⟨hrest, hflag⟩]
      rfl
    · rw [if_neg fun hboth => hflag hboth.2]
      exact (and_not_two_of_zero (not_not.mp hflag)).symm
  · rw [if_neg fun hboth => hrest hboth.1,
      if_neg fun hempty => hrest (List.isEmpty_iff.mp hempty)]
    rfl

/-- The size field that is written: in the shortest form, and none for the last unit. -/
theorem size_rewritten (hlast : obu.size = none → rest = []) :
    (if obu.header &&& 0x02 ≠ 0 ∧ ¬ (rest = [] ∧ obu.header &&& 0x02 ≠ 0) then
      [Piece.unencrypted (writeLeb128 obu.payload.length)] else []) =
        (if rest.isEmpty then obu.withoutSize
          else obu.withShortestSize).size.toList.map .unencrypted := by
  by_cases hrest : rest = []
  · rw [if_pos (List.isEmpty_iff.mpr hrest), if_neg fun hboth => hboth.2 ⟨hrest, hboth.1⟩]
    rfl
  · rw [if_neg fun hempty => hrest (List.isEmpty_iff.mp hempty)]
    cases hfield : obu.size with
    | none => exact absurd (hlast hfield) hrest
    | some field =>
        rw [if_pos ⟨Obu.sized hfield, fun hboth => hrest hboth.1⟩]
        simp [Obu.withShortestSize, hfield]

theorem subspan_payload :
    subspan (before ++ (obu.encode ++ rest)) (before.length + obu.head.length)
      obu.payload.length = some obu.payload := by
  rw [Obu.encode, List.append_assoc, ← List.append_assoc before, ← List.length_append]
  exact subspan_middle _ _ _

theorem subspan_extension {byte : UInt8} (h : obu.extension = some byte) :
    subspan (before ++ (obu.encode ++ rest)) (before.length + 1) 1 = some [byte] := by
  have hsplit : before ++ (obu.encode ++ rest) =
      (before ++ [obu.header]) ++
        ([byte] ++ (obu.size.getD [] ++ (obu.payload ++ rest))) := by
    simp [Obu.encode, Obu.head, h]
  have hmiddle := subspan_middle (before ++ [obu.header]) [byte]
    (obu.size.getD [] ++ (obu.payload ++ rest))
  rw [← hsplit, List.length_append] at hmiddle
  exact hmiddle

/-- The calls for a kept unit. -/
theorem pieces_encode (hkept : ObuKept obu.header)
    (hframe : (before ++ (obu.encode ++ rest)).length < 2 ^ 64)
    (hlast : obu.size = none → rest = []) :
    (ObuSpan.pieces (before ++ (obu.encode ++ rest)) before.length
      ⟨obu.header, before.length + obu.head.length, obu.payload.length⟩) =
        some (if rest.isEmpty then obu.withoutSize else obu.withShortestSize).pieces := by
  have hlength : (before ++ (obu.encode ++ rest)).length =
      before.length + obu.head.length + obu.payload.length + rest.length := by
    simp only [Obu.encode, List.length_append]
    omega
  have hnext : (ObuSpan.mk obu.header (before.length + obu.head.length)
      obu.payload.length).next = before.length + obu.head.length + obu.payload.length :=
    Nat.mod_eq_of_lt (by simp only; omega)
  -- the unit is the last one when nothing is behind it
  have hend : before.length + obu.head.length + obu.payload.length =
      (before ++ (obu.encode ++ rest)).length ↔ rest = [] := by
    rw [hlength, ← List.length_eq_zero_iff]
    omega
  have hparts : (if rest.isEmpty then obu.withoutSize else obu.withShortestSize).extension =
      obu.extension ∧
        (if rest.isEmpty then obu.withoutSize else obu.withShortestSize).payload =
          obu.payload := by
    split <;> exact ⟨rfl, rfl⟩
  unfold ObuSpan.pieces obuPieces Obu.pieces
  rw [if_pos hkept, hnext]
  simp only [subspan_payload, hend, header_rewritten, size_rewritten hlast, hparts.1, hparts.2,
    Option.bind_eq_bind, Option.pure_def, Option.bind_some]
  cases hext : obu.extension with
  | none =>
      rw [if_neg (Obu.not_extended hext)]
      rfl
  | some byte =>
      rw [if_pos (Obu.extended hext), subspan_extension hext]
      rfl

end Unit

/-! ## The loop -/

/-- The units of a frame the pass is made for: only the last one may lack a size field, a
size field takes at most `LEB128_MAX_SIZE` bytes, and there is a byte behind every header. -/
structure WellFormed (obus : List Obu) : Prop where
  sized : ∀ obu ∈ obus.dropLast, obu.size.isSome = true
  field_le : ∀ obu ∈ obus, ∀ field ∈ obu.size, field.length ≤ leb128MaxSize
  behind : ∀ obu ∈ obus, obu.size = none → obu.payload ≠ []

theorem WellFormed.tail {obu : Obu} {obus : List Obu} (h : WellFormed (obu :: obus)) :
    WellFormed obus where
  sized := (IsParse.mk rfl h.sized).tail.sized
  field_le := fun other hother => h.field_le other (List.mem_cons_of_mem obu hother)
  behind := fun other hother => h.behind other (List.mem_cons_of_mem obu hother)

theorem isEmpty_flatMap_encode (obus : List Obu) :
    (obus.flatMap Obu.encode).isEmpty = obus.isEmpty := by
  cases obus with
  | nil => rfl
  | cons obu obus =>
      rw [List.isEmpty_cons, List.isEmpty_eq_false_iff]
      exact fun hnil => absurd (flatMap_encode_eq_nil hnil) (by simp)

/-- **The loop** from the start of a unit on. -/
theorem processFrameAv1Loop_rewritten {obus : List Obu} (h : WellFormed obus) :
    ∀ (before : Bytes) (fuel : Nat), obus.length < fuel →
      (before ++ obus.flatMap Obu.encode).length < 2 ^ 64 →
      processFrameAv1Loop (before ++ obus.flatMap Obu.encode) fuel before.length =
        some (true, (rewritten obus).flatMap Obu.pieces) := by
  induction obus with
  | nil =>
      intro before fuel hfuel _
      cases fuel with
      | zero => exact absurd hfuel (by simp)
      | succ fuel => exact processFrameAv1Loop_end (by simp)
  | cons obu obus ih =>
      intro before fuel hfuel hframe
      cases fuel with
      | zero => exact absurd hfuel (by simp)
      | succ fuel =>
          have hlast : obu.size = none → obus.flatMap Obu.encode = [] := by
            intro hnone
            rw [(IsParse.mk rfl h.sized).tail_nil hnone]
            rfl
          rw [List.flatMap_cons] at hframe ⊢
          have hlength : (before ++ (obu.encode ++ obus.flatMap Obu.encode)).length =
              before.length + obu.head.length + obu.payload.length +
                (obus.flatMap Obu.encode).length := by
            simp only [Obu.encode, List.length_append]
            omega
          have hhead : 0 < obu.head.length := by
            simp [Obu.head]
          have hobu := obuAt_encode before
            (h.field_le obu List.mem_cons_self) (by omega)
            fun hnone => ⟨hlast hnone, h.behind obu List.mem_cons_self hnone⟩
          have hnext : (ObuSpan.mk obu.header (before.length + obu.head.length)
              obu.payload.length).next = (before ++ obu.encode).length := by
            have hsum : (before ++ obu.encode).length =
                before.length + obu.head.length + obu.payload.length := by
              simp only [Obu.encode, List.length_append]
              omega
            rw [hsum]
            exact Nat.mod_eq_of_lt (by simp only; omega)
          have hown : ObuSpan.pieces (before ++ (obu.encode ++ obus.flatMap Obu.encode))
              before.length ⟨obu.header, before.length + obu.head.length, obu.payload.length⟩ =
                some ((if ObuKept obu.header then
                  [if obus.isEmpty then obu.withoutSize else obu.withShortestSize]
                else []).flatMap Obu.pieces) := by
            by_cases hkept : ObuKept obu.header
            · rw [pieces_encode hkept hframe hlast, if_pos hkept, isEmpty_flatMap_encode]
              simp
            · rw [if_neg hkept, ObuSpan.pieces, if_neg hkept]
              rfl
          have hrest := ih h.tail (before ++ obu.encode) fuel (by simpa using hfuel)
            (by rw [List.append_assoc]; exact hframe)
          rw [List.append_assoc] at hrest
          rw [processFrameAv1Loop_step (by omega), hobu]
          simp only [hnext, hown, Option.bind_some, hrest]
          rw [if_neg (by rw [hlength]; simp only [Obu.encode, List.length_append]; omega),
            rewritten, List.flatMap_append]

/-! ## The units after the pass -/

theorem Obu.withoutSize_content (obu : Obu) : obu.withoutSize.content = obu.content := by
  have htype : obu.withoutSize.type = obu.type := by
    show ((obu.header &&& ~~~0x02) &&& 0x78) >>> 3 = (obu.header &&& 0x78) >>> 3
    rw [and_not_two_and obu.header 0x78 (by decide)]
  show (obu.withoutSize.type, obu.extension, obu.payload) = _
  rw [htype]
  rfl

/-- The pass keeps the content of every unit it keeps. -/
theorem rewritten_content (obus : List Obu) :
    (rewritten obus).map Obu.content =
      (obus.filter fun obu => decide (ObuKept obu.header)).map Obu.content := by
  induction obus with
  | nil => rfl
  | cons obu obus ih =>
      rw [rewritten, List.map_append, ih]
      by_cases hkept : ObuKept obu.header
      · rw [if_pos hkept, List.filter_cons_of_pos (by simpa using hkept)]
        have hcontent : (if obus.isEmpty then obu.withoutSize
            else obu.withShortestSize).content = obu.content := by
          split
          · exact obu.withoutSize_content
          · rfl
        rw [List.map_singleton, hcontent, List.map_cons, List.singleton_append]
      · rw [if_neg hkept, List.filter_cons_of_neg (by simpa using hkept)]
        rfl

/-- Every size field is the one `write_leb128` writes. -/
theorem rewritten_size {obus : List Obu} {obu : Obu} (h : obu ∈ rewritten obus) {field : Bytes}
    (hfield : field ∈ obu.size) : field = writeLeb128 obu.payload.length := by
  induction obus with
  | nil => simp [rewritten] at h
  | cons first obus ih =>
      rw [rewritten, List.mem_append] at h
      cases h with
      | inr hlater => exact ih hlater
      | inl hfirst =>
          split at hfirst
          · rw [List.mem_singleton] at hfirst
            subst hfirst
            split at hfield
            · cases hfield
            · obtain ⟨old, -, rfl⟩ := Option.map_eq_some_iff.mp hfield
              next hmore => rw [if_neg hmore]; rfl
          · simp at hfirst

/-- Only the last unit can be left without a size field. -/
theorem rewritten_sized {obus : List Obu}
    (h : ∀ obu ∈ obus.dropLast, obu.size.isSome = true) :
    ∀ obu ∈ (rewritten obus).dropLast, obu.size.isSome = true := by
  induction obus with
  | nil => simp [rewritten]
  | cons first obus ih =>
      have hrest := ih (IsParse.mk rfl h).tail.sized
      rw [rewritten]
      cases obus with
      | nil => split <;> simp [rewritten]
      | cons second obus =>
          have hfirst : first.size.isSome = true := h first (by simp)
          have hsized : first.withShortestSize.size.isSome = true := by
            rw [← hfirst]
            exact Option.isSome_map
          by_cases hkept : ObuKept first.header
          · rw [if_pos hkept, List.isEmpty_cons, if_neg (by simp), List.singleton_append]
            intro obu hobu
            by_cases hnil : rewritten (second :: obus) = []
            · rw [hnil] at hobu
              simp at hobu
            · rw [List.dropLast_cons_of_ne_nil hnil, List.mem_cons] at hobu
              cases hobu with
              | inl hsame => rwa [hsame]
              | inr hlater => exact hrest obu hlater
          · rw [if_neg hkept, List.nil_append]
            exact hrest

/-- The last unit of the frame, when it is kept, is the last one written, without a size
field. -/
theorem rewritten_last {obus : List Obu} {last : Obu} (h : obus.getLast? = some last)
    (hkept : ObuKept last.header) : (rewritten obus).getLast? = some last.withoutSize := by
  induction obus with
  | nil => cases h
  | cons first obus ih =>
      rw [rewritten]
      cases obus with
      | nil =>
          have hsame : first = last := Option.some.inj h
          rw [hsame, if_pos hkept]
          rfl
      | cons second obus =>
          rw [List.getLast?_cons_cons] at h
          rw [List.getLast?_append, ih h, Option.some_or]

/-- **AV1 rewriting preserves the stream.**  What is written is one sequence of units: the
kept ones of the frame with their contents, in shortest form, the last unit of the frame
without its size field. -/
theorem av1_rewriting (obus : List Obu) (h : WellFormed obus)
    (hframe : (obus.flatMap Obu.encode).length < 2 ^ 64) :
    ∃ pieces, processFrameAv1 (obus.flatMap Obu.encode) = some (true, pieces) ∧
      ∃ out, (∀ parsed, IsParse (pieces.flatMap Piece.bytes) parsed ↔ parsed = out) ∧
        out.map Obu.content =
          (obus.filter fun obu => decide (ObuKept obu.header)).map Obu.content ∧
        (∀ obu ∈ out, ∀ field ∈ obu.size, ∀ other,
          leb128Value other = some obu.payload.length → field.length ≤ other.length) ∧
        (∀ last, obus.getLast? = some last → ObuKept last.header →
          ∃ obu, out.getLast? = some obu ∧ obu.content = last.content ∧ obu.size = none) ∧
        pieces = out.flatMap Obu.pieces := by
  have hcount : obus.length < (obus.flatMap Obu.encode).length + 1 := by
    have hle : obus.length ≤ (obus.flatMap Obu.encode).length := by
      clear h hframe
      induction obus with
      | nil => exact Nat.zero_le _
      | cons obu obus ih =>
          have hpos : 0 < obu.encode.length := List.length_pos_iff.mpr obu.encode_ne_nil
          rw [List.flatMap_cons, List.length_append, List.length_cons]
          omega
    omega
  have hrun := processFrameAv1Loop_rewritten h [] ((obus.flatMap Obu.encode).length + 1) hcount
    hframe
  refine ⟨(rewritten obus).flatMap Obu.pieces, hrun, rewritten obus, ?_, rewritten_content obus,
    ?_, ?_, rfl⟩
  · have hbytes : ((rewritten obus).flatMap Obu.pieces).flatMap Piece.bytes =
        (rewritten obus).flatMap Obu.encode := by
      rw [List.flatMap_assoc]
      exact congrArg (fun f => List.flatMap f (rewritten obus)) (funext Obu.pieces_bytes)
    have hparse : IsParse (((rewritten obus).flatMap Obu.pieces).flatMap Piece.bytes)
        (rewritten obus) := ⟨hbytes, rewritten_sized h.sized⟩
    intro parsed
    constructor
    · intro hother
      exact hother.unique hparse
    · rintro rfl
      exact hparse
  · intro obu hobu field hfield other hother
    rw [rewritten_size hobu hfield]
    exact writeLeb128_shortest hother
  · intro last hlast hkept
    exact ⟨last.withoutSize, rewritten_last hlast hkept, last.withoutSize_content, rfl⟩

/-- A temporal delimiter with a padded size, and a frame with its size. -/
def delimitedObus : List Obu :=
  [⟨0x12, none, some [0x80, 0], [], by decide, by decide, by simp [leb128Value]⟩,
    ⟨0x32, none, some [2], [7, 9], by decide, by decide, by simp [leb128Value]⟩]

theorem av1_rewriting_delimited :
    ∃ pieces, processFrameAv1 (delimitedObus.flatMap Obu.encode) = some (true, pieces) := by
  have hwell : WellFormed delimitedObus := by
    refine ⟨?_, ?_, ?_⟩ <;> decide
  obtain ⟨pieces, hrun, -⟩ := av1_rewriting delimitedObus hwell (by decide)
  exact ⟨pieces, hrun⟩

end Ekizu.Dave
