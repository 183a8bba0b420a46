import Mathlib.Algebra.Group.Nat.Defs
import Mathlib.Tactic.Common

/-!
# Checked spans

A span is a list of cells together with the discipline that no access leaves
it.  Every access below answers `none` exactly when the corresponding C++
access would be out of range, so a function written in the `Option` monad over
them returns `some` precisely when it performs no out-of-range access.

A length is often a difference of two indices, and a `std::size_t` wraps.
`wrappingSub` is the difference that the machine computes; `sub` refuses one
that wraps.  The two matter apart because of `dynamicExtent`: the difference of
an index and its successor wraps to the very length that asks for the rest of a
span.

## Main results

* `subspan_of_le`, `write_eq_some_iff` — when an access is in range and what it
  yields.
* `subspan_wrappingSub` — what a wrapped length gives.
* `take_write_append` — the cells in front of a write, followed by the written
  block, are a prefix of the result: this is how a sequence of appends to a
  fixed buffer is read as a concatenation.
-/

namespace Ekizu.Lib.Span

variable {α : Type}

/-- `boost::dynamic_extent`, the largest `std::size_t`. -/
def dynamicExtent : Nat := 2 ^ 64 - 1

/-- The `len` cells at `s.data() + off`; `none` when they are not all in `s`. -/
def slice (s : List α) (off len : Nat) : Option (List α) :=
  if off + len ≤ s.length then some ((s.drop off).take len) else none

/-- `s.first(n)`. -/
def first (s : List α) (n : Nat) : Option (List α) :=
  if n ≤ s.length then some (s.take n) else none

/-- `s.subspan(off)`, from `off` on. -/
def subspanFrom (s : List α) (off : Nat) : Option (List α) :=
  if off ≤ s.length then some (s.drop off) else none

/-- `s.subspan(off, len)`; `none` when the sub-span leaves `s`. -/
def subspan (s : List α) (off len : Nat) : Option (List α) :=
  if off + len ≤ s.length then some ((s.drop off).take len)
  else if len = dynamicExtent then subspanFrom s off
  else none

/-- `s.last(n)`. -/
def last (s : List α) (n : Nat) : Option (List α) :=
  if n ≤ s.length then some (s.drop (s.length - n)) else none

/-- Unsigned `a - b`; `none` when it would wrap. -/
def sub (a b : Nat) : Option Nat :=
  if b ≤ a then some (a - b) else none

/-- Unsigned `a - b` of 64 bits, which never fails. -/
def wrappingSub (a b : Nat) : Option Nat :=
  some (if b ≤ a then a - b else a + 2 ^ 64 - b)

/-- Copy `data` into `buf` at offset `off`; `none` when it does not fit. -/
def write (buf : List α) (off : Nat) (data : List α) : Option (List α) :=
  if off + data.length ≤ buf.length then
    some (buf.take off ++ data ++ buf.drop (off + data.length))
  else none

/-- `v.resize(n, fill)` on a vector. -/
def resize (v : List α) (n : Nat) (fill : α) : List α :=
  v.take n ++ List.replicate (n - v.length) fill

theorem subspan_of_le {s : List α} {off len : Nat} (h : off + len ≤ s.length) :
    subspan s off len = some ((s.drop off).take len) := if_pos h

theorem slice_of_le {s : List α} {off len : Nat} (h : off + len ≤ s.length) :
    slice s off len = some ((s.drop off).take len) := if_pos h

theorem first_of_le {s : List α} {n : Nat} (h : n ≤ s.length) :
    first s n = some (s.take n) := if_pos h

theorem subspanFrom_of_le {s : List α} {off : Nat} (h : off ≤ s.length) :
    subspanFrom s off = some (s.drop off) := if_pos h

theorem last_of_le {s : List α} {n : Nat} (h : n ≤ s.length) :
    last s n = some (s.drop (s.length - n)) := if_pos h

theorem sub_of_le {a b : Nat} (h : b ≤ a) : sub a b = some (a - b) := if_pos h

theorem wrappingSub_of_le {a b : Nat} (h : b ≤ a) : wrappingSub a b = some (a - b) := by
  rw [wrappingSub, if_pos h]

/-- Where the checked difference is one, the machine computes it. -/
theorem wrappingSub_of_sub {a b c : Nat} (h : sub a b = some c) : wrappingSub a b = some c := by
  unfold sub at h
  split at h
  · next hle => rw [wrappingSub_of_le hle, h]
  · simp at h

/-- Apart from a length of `dynamicExtent` a sub-span that reaches past the end is refused. -/
theorem subspan_of_lt {s : List α} {off len : Nat} (h : s.length < off + len)
    (hlen : len ≠ dynamicExtent) : subspan s off len = none := by
  rw [subspan, if_neg (by omega), if_neg hlen]

/-- A length that wraps by one is `dynamicExtent` and asks for the rest of the span; one that
wraps by more is out of range. -/
theorem subspan_wrappingSub {s : List α} {stop off : Nat} (hs : s.length < 2 ^ 64)
    (hwrap : stop < off) (hstop : stop ≤ s.length) :
    ((wrappingSub stop off).bind fun len => subspan s off len) =
      if off = stop + 1 ∧ off ≤ s.length then some (s.drop off) else none := by
  rw [wrappingSub, if_neg (by omega), Option.bind_some]
  by_cases hone : off = stop + 1
  · subst hone
    rw [show stop + 2 ^ 64 - (stop + 1) = dynamicExtent by simp only [dynamicExtent]; omega,
      subspan, if_neg (by simp only [dynamicExtent]; omega), if_pos rfl, subspanFrom]
    simp
  · rw [if_neg (fun hboth => hone hboth.1)]
    exact subspan_of_lt (by omega) (by simp only [dynamicExtent]; omega)

/-- When a sub-span is in range. -/
theorem subspan_isSome_iff {s : List α} {off len : Nat} (hoff : off ≤ s.length) :
    (subspan s off len).isSome = true ↔ off + len ≤ s.length ∨ len = dynamicExtent := by
  unfold subspan
  split
  · next hle => exact iff_of_true rfl (.inl hle)
  · next hgt =>
      split
      · next hrest =>
          rw [subspanFrom_of_le hoff]
          exact iff_of_true rfl (.inr hrest)
      · next hlen =>
          refine iff_of_false (by simp) ?_
          rintro (hle | hrest)
          · exact hgt hle
          · exact hlen hrest

theorem write_eq_some_iff {buf buf' data : List α} {off : Nat} :
    write buf off data = some buf' ↔
      off + data.length ≤ buf.length ∧
        buf' = buf.take off ++ data ++ buf.drop (off + data.length) := by
  unfold write
  split
  · next h => simp [h, eq_comm]
  · next h => simp [h]

theorem write_of_le {buf data : List α} {off : Nat}
    (h : off + data.length ≤ buf.length) :
    write buf off data =
      some (buf.take off ++ data ++ buf.drop (off + data.length)) := if_pos h

theorem write_length {buf buf' data : List α} {off : Nat}
    (h : write buf off data = some buf') : buf'.length = buf.length := by
  obtain ⟨hle, rfl⟩ := write_eq_some_iff.mp h
  simp only [List.length_append, List.length_take, List.length_drop]
  omega

/-- After a write at `off`, the first `off + data.length` cells are the old
first `off` cells followed by the data. -/
theorem take_write_append {buf buf' data : List α} {off : Nat}
    (h : write buf off data = some buf') :
    buf'.take (off + data.length) = buf.take off ++ data := by
  obtain ⟨hle, rfl⟩ := write_eq_some_iff.mp h
  have hlen : (buf.take off ++ data).length = off + data.length := by
    simp only [List.length_append, List.length_take]
    omega
  rw [← hlen, List.take_left]

@[simp] theorem resize_length (v : List α) (n : Nat) (fill : α) :
    (resize v n fill).length = n := by
  simp only [resize, List.length_append, List.length_take, List.length_replicate]
  omega

end Ekizu.Lib.Span
