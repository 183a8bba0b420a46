import Ekizu.Dave.Leb128Pointers
import Ekizu.Dave.RangeCodec

/-!
# The range list on pointers

`deserialize_unencrypted_ranges` with its `read_at`, which a failed `read_leb128` sets to
null inside the loop that compares it with `end`.

## Main results

* `deserializeRangesAtLoop_eq` — the loop on pointers is `deserializeRangesLoop`.
* `rangeList_roundTrip` — what was serialised is read back, and every byte string is either
  consumed or refused as a whole.
-/

namespace Ekizu.Dave

open Lib.Segments

/-- What a call leaves behind: `read_at`, with `none` for the null pointer, the list it was
given by reference and the count it returns. -/
structure RangesRead where
  readAt : Option Nat
  ranges : List Range
  count : UInt8
  deriving Repr, DecidableEq

/-- The loop of `deserialize_unencrypted_ranges`: `read_at` and the list when it is left.
The outer `none` is an undefined access, or a run of more than `fuel` iterations. -/
def deserializeRangesAtLoop (buffer : Bytes) (stop : Nat) :
    (fuel readAt : Nat) → List Range → Option (Option Nat × List Range)
  | 0, _, _ => none
  | fuel + 1, readAt, ranges =>
      if readAt < stop then do
        match ← readLeb128At buffer readAt stop with
        | none => some (none, ranges)
        | some (offset, readAt) =>
            match ← readLeb128At buffer readAt stop with
            | none => some (none, ranges)
            | some (size, readAt) =>
                deserializeRangesAtLoop buffer stop fuel readAt (ranges ++ [⟨offset, size⟩])
      else some (some readAt, ranges)

/-- `deserialize_unencrypted_ranges`.  Every iteration reads a byte, so there are no more
iterations than bytes. -/
def deserializeUnencryptedRangesAt (buffer : Bytes) (start : Nat) (bufferSize : UInt8)
    (unencryptedRanges : List Range) : Option RangesRead := do
  let stop := start + bufferSize.toNat
  let (readAt, ranges) ←
    deserializeRangesAtLoop buffer stop (bufferSize.toNat + 1) start unencryptedRanges
  if readAt ≠ some stop then some ⟨none, [], 0⟩
  else some ⟨readAt, ranges, (stop - start).toUInt8⟩

/-- A read on pointers, from what `readLeb128` takes off the front. -/
theorem readLeb128At_of_some {buffer rest : Bytes} {readAt value : Nat}
    (hat : readAt ≤ buffer.length) (h : readLeb128 (buffer.drop readAt) = some (value, rest)) :
    ∃ next, readLeb128At buffer readAt buffer.length = some (some (value, next)) ∧
      readAt < next ∧ next ≤ buffer.length ∧ rest = buffer.drop next := by
  obtain ⟨taken, hne, hcat⟩ := readLeb128_prefix h
  have hpos : 0 < taken.length := List.length_pos_iff.mpr hne
  have hlength : buffer.length - readAt = taken.length + rest.length := by
    rw [← List.length_drop, hcat, List.length_append]
  refine ⟨readAt + taken.length, ?_, by omega, by omega, ?_⟩
  · rw [readLeb128At_eq buffer hat, h, Option.map_some]
    congr 3
    show buffer.length - rest.length = readAt + taken.length
    omega
  · rw [← List.drop_drop, hcat, List.drop_left]

theorem readLeb128At_of_none {buffer : Bytes} {readAt : Nat} (hat : readAt ≤ buffer.length)
    (h : readLeb128 (buffer.drop readAt) = none) :
    readLeb128At buffer readAt buffer.length = some none := by
  rw [readLeb128At_eq buffer hat, h, Option.map_none]

/-- **The loop on pointers** ends at `end` with the list of `deserializeRangesLoop`, or with
the null pointer where that one fails. -/
theorem deserializeRangesAtLoop_eq (buffer : Bytes) (fuel : Nat) :
    ∀ (readAt : Nat) (ranges : List Range), readAt ≤ buffer.length →
      buffer.length - readAt ≤ fuel →
      ∃ left, deserializeRangesAtLoop buffer buffer.length (fuel + 1) readAt ranges =
          some left ∧
        ((left.1 = none ∧ deserializeRangesLoop fuel (buffer.drop readAt) ranges = none) ∨
          (left.1 = some buffer.length ∧
            deserializeRangesLoop fuel (buffer.drop readAt) ranges = some left.2)) := by
  induction fuel with
  | zero =>
      intro readAt ranges hat hfuel
      obtain rfl : readAt = buffer.length := by omega
      refine ⟨(some buffer.length, ranges), ?_, .inr ⟨rfl, ?_⟩⟩
      · rw [deserializeRangesAtLoop, if_neg (by omega)]
      · rw [List.drop_length, deserializeRangesLoop]
  | succ fuel ih =>
      intro readAt ranges hat hfuel
      by_cases hmore : readAt < buffer.length
      · have hne : buffer.drop readAt ≠ [] := by
          rw [Ne, List.drop_eq_nil_iff]
          omega
        rw [deserializeRangesAtLoop, if_pos hmore, deserializeRangesLoop_cons hne]
        cases hoffset : readLeb128 (buffer.drop readAt) with
        | none =>
            rw [readLeb128At_of_none hat hoffset]
            exact ⟨_, rfl, .inl ⟨rfl, rfl⟩⟩
        | some offset =>
            obtain ⟨mid, hmid, hlt, hle, hrest⟩ := readLeb128At_of_some hat hoffset
            rw [hmid]
            simp only [Option.bind_eq_bind, Option.bind_some]
            rw [hrest]
            cases hsize : readLeb128 (buffer.drop mid) with
            | none =>
                rw [readLeb128At_of_none hle hsize]
                exact ⟨_, rfl, .inl ⟨rfl, rfl⟩⟩
            | some size =>
                obtain ⟨next, hnext, hlt', hle', hrest'⟩ := readLeb128At_of_some hle hsize
                rw [hnext]
                simp only [Option.bind_some]
                rw [hrest']
                exact ih next _ hle' (by omega)
      · have hdone : buffer.drop readAt = [] := List.drop_of_length_le (by omega)
        refine ⟨(some readAt, ranges), ?_, .inr ⟨?_, ?_⟩⟩
        · rw [deserializeRangesAtLoop, if_neg hmore]
        · rw [show readAt = buffer.length by omega]
        · rw [hdone, deserializeRangesLoop]

theorem toUInt8_toNat_of_le {n : Nat} (h : n ≤ 255) : n.toUInt8.toNat = n := by
  simp only [Nat.toUInt8, UInt8.toNat_ofNat']
  omega

/-- A whole buffer is either consumed or refused. -/
theorem deserializeUnencryptedRangesAt_eq {buffer : Bytes} (h : buffer.length ≤ 255)
    (ranges : List Range) :
    deserializeUnencryptedRangesAt buffer 0 buffer.length.toUInt8 ranges =
      some (match deserializeRangesLoop buffer.length buffer ranges with
        | none => ⟨none, [], 0⟩
        | some read => ⟨some buffer.length, read, buffer.length.toUInt8⟩) := by
  obtain ⟨left, hloop, hcase⟩ :=
    deserializeRangesAtLoop_eq buffer buffer.length 0 ranges (Nat.zero_le _) (by omega)
  rw [List.drop_zero] at hcase
  rw [deserializeUnencryptedRangesAt, toUInt8_toNat_of_le h, Nat.zero_add, hloop]
  simp only [Option.bind_eq_bind, Option.bind_some, Nat.sub_zero]
  cases hcase with
  | inl hnull =>
      rw [if_pos (by rw [hnull.1]; simp), hnull.2]
  | inr hread =>
      rw [if_neg (by rw [hread.1]; simp), hread.1, hread.2]

/-- **The range list round trip**, and every read of untrusted bytes. -/
theorem rangeList_roundTrip (ranges : List Range) (bufferSize : Nat) (bytes : Bytes)
    (before : List Range) (hfits : Fits64 ranges) (hshort : rangesEncodedSize ranges ≤ 255)
    (hroom : rangesEncodedSize ranges ≤ bufferSize) (hbytes : bytes.length ≤ 255) :
    ((serializeUnencryptedRanges ranges bufferSize).1.length =
        (unencryptedRangesSize ranges).toNat ∧
      (serializeUnencryptedRanges ranges bufferSize).2 = unencryptedRangesSize ranges ∧
      deserializeUnencryptedRangesAt (serializeUnencryptedRanges ranges bufferSize).1 0
        (serializeUnencryptedRanges ranges bufferSize).2 [] =
          some ⟨some (serializeUnencryptedRanges ranges bufferSize).1.length, ranges,
            (serializeUnencryptedRanges ranges bufferSize).2⟩) ∧
    ∃ read, deserializeUnencryptedRangesAt bytes 0 bytes.length.toUInt8 before = some read ∧
      ((read.readAt = some bytes.length ∧ read.count.toNat = bytes.length) ∨
        read = ⟨none, [], 0⟩) := by
  constructor
  · have hwritten : (serializeUnencryptedRanges ranges bufferSize).1 = encodeRanges ranges :=
      serializeRangesLoop_of_le hroom
    have hlength := encodeRanges_length ranges
    have hcount : (serializeUnencryptedRanges ranges bufferSize).2 =
        (encodeRanges ranges).length.toUInt8 := congrArg (fun bytes : Bytes =>
          bytes.length.toUInt8) hwritten
    have hread : deserializeRangesLoop (encodeRanges ranges).length (encodeRanges ranges) [] =
        some ranges := deserializeUnencryptedRanges_encodeRanges hfits
    refine ⟨?_, ?_, ?_⟩
    · rw [hwritten, hlength, unencryptedRangesSize, toUInt8_toNat_of_le hshort]
    · rw [hcount, hlength, unencryptedRangesSize]
    · rw [hwritten, hcount, deserializeUnencryptedRangesAt_eq (by omega), hread]
  · refine ⟨_, deserializeUnencryptedRangesAt_eq hbytes before, ?_⟩
    cases deserializeRangesLoop bytes.length bytes before with
    | none => exact .inr rfl
    | some read => exact .inl ⟨rfl, toUInt8_toNat_of_le hbytes⟩

/-- Two ranges, the second with a size of two groups, into a buffer with room to spare, and
three bytes that break off inside a pair. -/
theorem rangeList_roundTrip_two :
    deserializeUnencryptedRangesAt (serializeUnencryptedRanges [⟨0, 6⟩, ⟨9, 200⟩] 64).1 0
      (serializeUnencryptedRanges [⟨0, 6⟩, ⟨9, 200⟩] 64).2 [] =
        some ⟨some (serializeUnencryptedRanges [⟨0, 6⟩, ⟨9, 200⟩] 64).1.length,
          [⟨0, 6⟩, ⟨9, 200⟩], (serializeUnencryptedRanges [⟨0, 6⟩, ⟨9, 200⟩] 64).2⟩ ∧
      ∃ read, deserializeUnencryptedRangesAt [0, 6, 9] 0 3 [] = some read := by
  have hsize : rangesEncodedSize [⟨0, 6⟩, ⟨9, 200⟩] = 5 := by
    have hlong : leb128Size 200 = 2 := by
      rw [leb128Size_of_le (by decide), leb128Size_of_lt (by decide)]
    simp only [rangesEncodedSize, hlong, leb128Size_of_lt (show 0 < 0x80 by decide),
      leb128Size_of_lt (show 6 < 0x80 by decide), leb128Size_of_lt (show 9 < 0x80 by decide)]
  have hboth := rangeList_roundTrip [⟨0, 6⟩, ⟨9, 200⟩] 64 [0, 6, 9] []
    (by simp [Fits64]) (by omega) (by omega) (by decide)
  exact ⟨hboth.1.2.2, hboth.2.imp fun _ hread => hread.1⟩

end Ekizu.Dave
