import Ekizu.Dave.FrameProcessors

/-!
# The range list of a trailer

What `serialize_unencrypted_ranges` writes, what `deserialize_unencrypted_ranges`
reads and what `validate_unencrypted_ranges` admits.

## Main results

* `deserializeUnencryptedRanges_encodeRanges` — the full encoding of a list of
  ranges is read back.
* `serializeRangesLoop_of_le` — with enough space the serialiser writes the
  full encoding.
* `rangesEncodedSize_le_of_deserialize` — ranges that were read took at least
  their encoded size.
* `validateUnencryptedRanges_sound`, `validateUnencryptedRanges_complete` —
  validation is `Ordered` plus the bound on the last end.
-/

namespace Ekizu.Dave

open Lib.Segments

/-- The full encoding of a list of ranges. -/
def encodeRanges (ranges : List Range) : Bytes :=
  ranges.flatMap fun range => writeLeb128 range.offset ++ writeLeb128 range.size

/-- Offsets and sizes are 64-bit values. -/
def Fits64 (ranges : List Range) : Prop :=
  ∀ range ∈ ranges, range.offset < 2 ^ 64 ∧ range.size < 2 ^ 64

theorem encodeRanges_cons (range : Range) (ranges : List Range) :
    encodeRanges (range :: ranges) =
      writeLeb128 range.offset ++ (writeLeb128 range.size ++ encodeRanges ranges) := by
  simp [encodeRanges]

theorem encodeRanges_length (ranges : List Range) :
    (encodeRanges ranges).length = rangesEncodedSize ranges := by
  induction ranges with
  | nil => rfl
  | cons range ranges ih =>
      simp only [encodeRanges_cons, List.length_append, writeLeb128_length, ih,
        rangesEncodedSize]
      omega

/-! ## Writing -/

theorem serializeRangesLoop_of_le {ranges : List Range} {space : Nat}
    (h : rangesEncodedSize ranges ≤ space) :
    serializeRangesLoop ranges space = encodeRanges ranges := by
  induction ranges generalizing space with
  | nil => rfl
  | cons range ranges ih =>
      simp only [rangesEncodedSize] at h
      rw [serializeRangesLoop, encodeRanges_cons]
      rw [if_neg (by omega), ih (by omega), List.append_assoc]

/-- Whatever the space, the serialiser stays inside it. -/
theorem serializeRangesLoop_length_le (ranges : List Range) (space : Nat) :
    (serializeRangesLoop ranges space).length ≤ space := by
  induction ranges generalizing space with
  | nil => exact Nat.zero_le _
  | cons range ranges ih =>
      rw [serializeRangesLoop]
      split
      · exact Nat.zero_le _
      · next hfit =>
          have hrest := ih (space - (leb128Size range.offset + leb128Size range.size))
          simp only [List.length_append, writeLeb128_length]
          omega

/-! ## Reading -/

theorem deserializeRangesLoop_cons {fuel : Nat} {bytes : Bytes} {acc : List Range}
    (hne : bytes ≠ []) :
    deserializeRangesLoop (fuel + 1) bytes acc =
      (readLeb128 bytes).bind fun (offset, readAt) =>
        (readLeb128 readAt).bind fun (size, readAt) =>
          deserializeRangesLoop fuel readAt (acc ++ [⟨offset, size⟩]) := by
  cases bytes with
  | nil => exact absurd rfl hne
  | cons byte bytes => rfl

private theorem deserializeRangesLoop_encodeRanges {ranges : List Range}
    (h : Fits64 ranges) :
    ∀ (fuel : Nat) (acc : List Range), ranges.length ≤ fuel →
      deserializeRangesLoop fuel (encodeRanges ranges) acc = some (acc ++ ranges) := by
  induction ranges with
  | nil =>
      intro fuel acc _
      cases fuel <;> simp [encodeRanges, deserializeRangesLoop]
  | cons range ranges ih =>
      intro fuel acc hfuel
      obtain ⟨hoffset, hsize⟩ := h range (by simp)
      cases fuel with
      | zero => simp at hfuel
      | succ fuel =>
          have hne : encodeRanges (range :: ranges) ≠ [] := by
            intro hnil
            have hlen := congrArg List.length hnil
            have hpos := leb128Size_pos range.offset
            simp only [encodeRanges_length, rangesEncodedSize, List.length_nil] at hlen
            omega
          rw [deserializeRangesLoop_cons hne, encodeRanges_cons,
            readLeb128_writeLeb128 hoffset]
          simp only [Option.bind_some]
          rw [readLeb128_writeLeb128 hsize]
          simp only [Option.bind_some]
          rw [ih (fun r hr => h r (by simp [hr])) fuel _ (by simpa using hfuel)]
          simp

private theorem length_le_rangesEncodedSize (ranges : List Range) :
    ranges.length ≤ rangesEncodedSize ranges := by
  induction ranges with
  | nil => exact Nat.le_refl _
  | cons range ranges ih =>
      have hpos := leb128Size_pos range.offset
      simp only [List.length_cons, rangesEncodedSize]
      omega

/-- **The range list round trip.** -/
theorem deserializeUnencryptedRanges_encodeRanges {ranges : List Range}
    (h : Fits64 ranges) :
    deserializeUnencryptedRanges (encodeRanges ranges) = some ranges := by
  have hfuel : ranges.length ≤ (encodeRanges ranges).length := by
    rw [encodeRanges_length]
    exact length_le_rangesEncodedSize ranges
  exact deserializeRangesLoop_encodeRanges h (encodeRanges ranges).length [] hfuel

private theorem rangesEncodedSize_append (xs ys : List Range) :
    rangesEncodedSize (xs ++ ys) = rangesEncodedSize xs + rangesEncodedSize ys := by
  induction xs with
  | nil => simp [rangesEncodedSize]
  | cons x xs ih => simp only [List.cons_append, rangesEncodedSize, ih]; omega

private theorem deserializeRangesLoop_size {fuel : Nat} {bytes : Bytes}
    {acc ranges : List Range}
    (h : deserializeRangesLoop fuel bytes acc = some ranges) :
    rangesEncodedSize ranges ≤ rangesEncodedSize acc + bytes.length := by
  induction fuel generalizing bytes acc with
  | zero =>
      cases bytes with
      | nil =>
          simp only [deserializeRangesLoop, Option.some.injEq] at h
          simp [h]
      | cons byte bytes => simp [deserializeRangesLoop] at h
  | succ fuel ih =>
      by_cases hne : bytes = []
      · subst hne
        simp only [deserializeRangesLoop, Option.some.injEq] at h
        simp [h]
      · rw [deserializeRangesLoop_cons hne] at h
        obtain ⟨⟨offset, rest⟩, hoffset, h⟩ := Option.bind_eq_some_iff.mp h
        obtain ⟨⟨size, rest'⟩, hsize, h⟩ := Option.bind_eq_some_iff.mp h
        have hrest := ih h
        have h1 := leb128Size_le_of_readLeb128 hoffset
        have h2 := leb128Size_le_of_readLeb128 hsize
        simp only [rangesEncodedSize_append, rangesEncodedSize] at hrest
        omega

theorem rangesEncodedSize_le_of_deserialize {bytes : Bytes} {ranges : List Range}
    (h : deserializeUnencryptedRanges bytes = some ranges) :
    rangesEncodedSize ranges ≤ bytes.length := by
  have := deserializeRangesLoop_size h
  simpa [rangesEncodedSize] using this

/-! ## Validation -/

theorem checkedAdd_eq_some {a b c : Nat} (h : checkedAdd a b = some c) : c = a + b := by
  unfold checkedAdd at h
  split at h
  · simp at h
  · simpa using h.symm

theorem checkedAdd_of_lt {a b : Nat} (h : a + b < 2 ^ 64) : checkedAdd a b = some (a + b) :=
  if_neg (by omega)

/-- Accepted ranges are ordered, disjoint and end inside the frame. -/
theorem validateUnencryptedRanges_sound {ranges : List Range} {frameSize : Nat}
    (h : validateUnencryptedRanges ranges frameSize = true) :
    Ordered 0 ranges ∧ endPos 0 ranges ≤ frameSize := by
  -- Strengthened to any cursor in front of the first range.
  suffices haux : ∀ pos, (∀ r ∈ ranges.head?, pos ≤ r.offset) →
      (ranges = [] → pos ≤ frameSize) →
      Ordered pos ranges ∧ endPos pos ranges ≤ frameSize by
    exact haux 0 (fun _ _ => Nat.zero_le _) (fun _ => Nat.zero_le _)
  induction ranges with
  | nil => intro pos _ hnil; exact ⟨trivial, hnil rfl⟩
  | cons current ranges ih =>
      intro pos hpos _
      have hhead : pos ≤ current.offset := hpos current (by simp)
      cases ranges with
      | nil =>
          simp only [validateUnencryptedRanges] at h
          split at h
          · simp at h
          · next hend =>
              have := checkedAdd_eq_some hend
              simp only [decide_eq_true_eq] at h
              exact ⟨⟨hhead, trivial⟩, by simp only [endPos]; omega⟩
      | cons next ranges =>
          simp only [validateUnencryptedRanges] at h
          split at h
          · simp at h
          · next hend =>
              have hsum := checkedAdd_eq_some hend
              simp only [Bool.and_eq_true, decide_eq_true_eq] at h
              have hrest := ih h.2 (current.offset + current.size)
                (by simp only [List.head?_cons, Option.mem_def, Option.some.injEq]
                    rintro r rfl
                    omega)
                (by simp)
              exact ⟨⟨hhead, hrest.1⟩, hrest.2⟩

/-- Ordered ranges that end inside a frame of 64-bit length are accepted. -/
theorem validateUnencryptedRanges_complete {pos : Nat} {ranges : List Range}
    {frameSize : Nat} (h : Ordered pos ranges) (hend : endPos pos ranges ≤ frameSize)
    (hsize : frameSize < 2 ^ 64) : validateUnencryptedRanges ranges frameSize = true := by
  induction ranges generalizing pos with
  | nil => rfl
  | cons current ranges ih =>
      have hle := pos_le_endPos h.2
      simp only [endPos] at hend
      have hadd := checkedAdd_of_lt (a := current.offset) (b := current.size) (by omega)
      cases ranges with
      | nil =>
          simp only [validateUnencryptedRanges, hadd, decide_eq_true_eq]
          exact hend
      | cons next ranges =>
          simp only [validateUnencryptedRanges, hadd, Bool.and_eq_true, decide_eq_true_eq]
          exact ⟨h.2.1, ih h.2 hend⟩

/-- Ranges that end inside a frame of 64-bit length are 64-bit values. -/
theorem fits64_of_ordered {pos : Nat} {ranges : List Range} {frameSize : Nat}
    (h : Ordered pos ranges) (hend : endPos pos ranges ≤ frameSize)
    (hsize : frameSize < 2 ^ 64) : Fits64 ranges := by
  induction ranges generalizing pos with
  | nil => intro r hr; simp at hr
  | cons current ranges ih =>
      have hle := pos_le_endPos h.2
      simp only [endPos] at hend
      intro r hr
      rcases List.mem_cons.mp hr with rfl | hr
      · exact ⟨by omega, by omega⟩
      · exact ih h.2 hend r hr

end Ekizu.Dave
