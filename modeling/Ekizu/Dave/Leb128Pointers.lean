import Ekizu.Dave.Leb128

/-!
# LEB128 on pointers

`read_leb128` as the source runs it: a pointer that moves through a buffer towards `end`,
and shifts of a 64-bit value.  The outer `none` is an access outside the buffer or a shift
by 64 bits or more, which the language leaves undefined; the inner one is the null pointer.

## Main results

* `readLeb128At_eq` — the pointer version does nothing undefined and computes `readLeb128`.
* `leb128_roundTrip` — reading undoes writing, and every read ends inside its buffer.
-/

namespace Ekizu.Dave

/-- `value << bits` on `uint64_t`, undefined from 64 bits on. -/
def shiftLeft64 (value bits : Nat) : Option Nat :=
  if bits < 64 then some ((value <<< bits) % 2 ^ 64) else none

/-- The loop of `read_leb128`, and the check of the tenth byte after it: the value and the
new `read_at`. -/
def readLeb128AtLoop (buffer : Bytes) (stop readAt value fillBits : Nat) :
    Option (Option (Nat × Nat)) :=
  if readAt ≠ stop ∧ fillBits < 64 - 7 then do
    let byte ← buffer[readAt]?
    let group ← shiftLeft64 (byte &&& 0x7F).toNat fillBits
    if byte &&& 0x80 = 0 then some (some (value ||| group, readAt + 1))
    else readLeb128AtLoop buffer stop (readAt + 1) (value ||| group) (fillBits + 7)
  else if readAt ≠ stop then do
    let byte ← buffer[readAt]?
    if byte ≤ 1 then
      let bit ← shiftLeft64 byte.toNat fillBits
      some (some (value ||| bit, readAt + 1))
    else some none
  else some none
termination_by 64 - fillBits

/-- `read_leb128(read_at, end)`. -/
def readLeb128At (buffer : Bytes) (readAt stop : Nat) : Option (Option (Nat × Nat)) :=
  readLeb128AtLoop buffer stop readAt 0 0

/-! ## The pointer version -/

/-- A value below `2 ^ n` shifted inside 64 bits loses nothing. -/
theorem shiftLeft64_of_lt {value bits n : Nat} (hvalue : value < 2 ^ n) (hn : 0 < n)
    (hbits : bits + n ≤ 64) : shiftLeft64 value bits = some (value <<< bits) := by
  have hroom : value <<< bits < 2 ^ 64 := by
    rw [Nat.shiftLeft_eq]
    calc value * 2 ^ bits < 2 ^ n * 2 ^ bits :=
          Nat.mul_lt_mul_of_pos_right hvalue (Nat.two_pow_pos bits)
      _ = 2 ^ (bits + n) := by rw [← Nat.pow_add, Nat.add_comm]
      _ ≤ 2 ^ 64 := Nat.pow_le_pow_right (by decide) hbits
  rw [shiftLeft64, if_pos (by omega), Nat.mod_eq_of_lt hroom]

theorem toNat_low_lt (byte : UInt8) : (byte &&& 0x7F).toNat < 2 ^ 7 := by
  rw [UInt8.toNat_and]
  exact Nat.and_lt_two_pow byte.toNat (by decide)

/-- The loop moves its pointer over what `readLeb128Loop` takes off the front. -/
theorem readLeb128AtLoop_eq (buffer : Bytes) {readAt value fillBits : Nat}
    (hat : readAt ≤ buffer.length) (hfill : fillBits ≤ 63) :
    readLeb128AtLoop buffer buffer.length readAt value fillBits =
      some ((readLeb128Loop (buffer.drop readAt) value fillBits).map
        fun read => (read.1, buffer.length - read.2.length)) := by
  fun_induction readLeb128AtLoop buffer buffer.length readAt value fillBits with
  | case1 readAt value fillBits hcond ih =>
      have hlt : readAt < buffer.length := by omega
      have hbyte : buffer[readAt]? = some buffer[readAt] := List.getElem?_eq_getElem hlt
      have hshift : shiftLeft64 (buffer[readAt] &&& 0x7F).toNat fillBits =
          some ((buffer[readAt] &&& 0x7F).toNat <<< fillBits) :=
        shiftLeft64_of_lt (toNat_low_lt buffer[readAt]) (by decide) (by omega)
      have hrest : buffer.length - (buffer.drop (readAt + 1)).length = readAt + 1 := by
        rw [List.length_drop]
        omega
      rw [List.drop_eq_getElem_cons hlt, readLeb128Loop, if_pos hcond.2, hbyte]
      simp only [Option.bind_eq_bind, Option.bind_some, hshift]
      split
      · rw [Option.map_some, hrest]
      · exact ih _ (by omega) (by omega)
  | case2 readAt value fillBits hcond hat' =>
      have hlt : readAt < buffer.length := by omega
      have hbyte : buffer[readAt]? = some buffer[readAt] := List.getElem?_eq_getElem hlt
      have hrest : buffer.length - (buffer.drop (readAt + 1)).length = readAt + 1 := by
        rw [List.length_drop]
        omega
      rw [List.drop_eq_getElem_cons hlt, readLeb128Loop, if_neg (by omega), hbyte]
      simp only [Option.bind_eq_bind, Option.bind_some]
      split
      · next hone =>
          have hbit : buffer[readAt].toNat < 2 ^ 1 := by
            have hle : buffer[readAt].toNat ≤ 1 := UInt8.le_iff_toNat_le.mp hone
            omega
          rw [shiftLeft64_of_lt hbit (by decide) (by omega), Option.bind_some, Option.map_some,
            hrest]
      · rfl
  | case3 readAt value fillBits hcond hstop =>
      have hdone : buffer.drop readAt = [] := List.drop_of_length_le (by omega)
      rw [hdone]
      rfl

/-- **The pointer version computes `readLeb128`**, with every access inside the buffer and
every shift below 64 bits. -/
theorem readLeb128At_eq (buffer : Bytes) {readAt : Nat} (hat : readAt ≤ buffer.length) :
    readLeb128At buffer readAt buffer.length =
      some ((readLeb128 (buffer.drop readAt)).map
        fun read => (read.1, buffer.length - read.2.length)) :=
  readLeb128AtLoop_eq buffer hat (by decide)

/-! ## Bounds -/

/-- Whatever the loop has read before, it ends with a 64-bit value and takes ten bytes in
all. -/
theorem readLeb128Loop_bounds {readAt rest : Bytes} {acc k value : Nat} (hk : k ≤ 63)
    (hacc : acc < 2 ^ k) (h : readLeb128Loop readAt acc k = some (value, rest)) :
    value < 2 ^ 64 ∧ 7 * readAt.length + k ≤ 7 * rest.length + 70 := by
  induction readAt generalizing acc k with
  | nil => simp [readLeb128Loop] at h
  | cons byte readAt ih =>
      rw [List.length_cons]
      by_cases hlt : k < 57
      · rw [readLeb128Loop_cons hlt hacc] at h
        split at h
        · next hbyte =>
            simp only [Option.some.injEq, Prod.mk.injEq] at h
            have hvalue : value < 2 ^ (k + 7) := h.1 ▸ acc_lt hacc hbyte
            have hroom : 2 ^ (k + 7) ≤ 2 ^ 64 := Nat.pow_le_pow_right (by decide) (by omega)
            rw [h.2]
            omega
        · have hrest := ih (k := k + 7) (by omega)
            (acc_lt hacc (Nat.mod_lt _ (by decide))) h
          omega
      · rw [readLeb128Loop, if_neg (by omega)] at h
        split at h
        · next hbyte =>
            simp only [Option.some.injEq, Prod.mk.injEq, or_shift hacc] at h
            have hone : byte.toNat ≤ 1 := UInt8.le_iff_toNat_le.mp hbyte
            have hbit : byte.toNat * 2 ^ k ≤ 1 * 2 ^ k := Nat.mul_le_mul_right _ hone
            have hroom : 2 ^ k ≤ 2 ^ 63 := Nat.pow_le_pow_right (by decide) hk
            rw [h.2]
            omega
        · simp at h

/-- A read yields a 64-bit value and takes at most ten bytes off the front. -/
theorem readLeb128_bounds {readAt rest : Bytes} {value : Nat}
    (h : readLeb128 readAt = some (value, rest)) :
    value < 2 ^ 64 ∧ ∃ taken, readAt = taken ++ rest ∧ 1 ≤ taken.length ∧ taken.length ≤ 10 := by
  obtain ⟨hvalue, hlength⟩ := readLeb128Loop_bounds (by decide) (by decide) h
  obtain ⟨taken, hne, hcat⟩ := readLeb128_prefix h
  have hpos : 0 < taken.length := List.length_pos_iff.mpr hne
  have hsum : readAt.length = taken.length + rest.length := by
    rw [hcat, List.length_append]
  exact ⟨hvalue, taken, hcat, hpos, by omega⟩

theorem leb128Size_le_ten (value : UInt64) : leb128Size value.toNat ≤ 10 := by
  have hlt : value.toNat < 2 ^ (7 * (9 + 1)) :=
    Nat.lt_of_lt_of_le value.toNat_lt (by decide)
  exact leb128Size_le value.toNat 9 hlt

/-- **The LEB128 round trip**, and every read of untrusted bytes. -/
theorem leb128_roundTrip (value : UInt64) (rest bytes : Bytes) :
    ((writeLeb128 value.toNat).length = leb128Size value.toNat ∧
      leb128Size value.toNat ≤ 10 ∧
      readLeb128At (writeLeb128 value.toNat ++ rest) 0
        (writeLeb128 value.toNat ++ rest).length =
          some (some (value.toNat, (writeLeb128 value.toNat).length))) ∧
    ∃ result, readLeb128At bytes 0 bytes.length = some result ∧
      (result = none ∨ ∃ read readAt, result = some (read, readAt) ∧ read < 2 ^ 64 ∧
        1 ≤ readAt ∧ readAt ≤ 10 ∧ readAt ≤ bytes.length) := by
  constructor
  · refine ⟨writeLeb128_length value.toNat, leb128Size_le_ten value, ?_⟩
    have hread := readLeb128_writeLeb128 value.toNat_lt rest
    rw [readLeb128At_eq _ (Nat.zero_le _), List.drop_zero, hread, Option.map_some,
      List.length_append, Nat.add_sub_cancel]
  · refine ⟨_, readLeb128At_eq bytes (Nat.zero_le _), ?_⟩
    rw [List.drop_zero]
    cases hread : readLeb128 bytes with
    | none => exact .inl rfl
    | some read =>
        obtain ⟨hvalue, taken, hcat, hone, hten⟩ := readLeb128_bounds hread
        have hsum : bytes.length = taken.length + read.2.length := by
          rw [hcat, List.length_append]
        exact .inr ⟨read.1, bytes.length - read.2.length, rfl, hvalue, by omega, by omega,
          by omega⟩

end Ekizu.Dave
