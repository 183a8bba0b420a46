import Ekizu.Dave.Common

/-!
# LEB128 integers

`src/dave/leb128.cpp`.  `readLeb128` works on the bytes between `read_at` and
`end`; `none` is the `read_at = nullptr` of the source.  `writeLeb128` returns
the bytes written, their number being the source's return value.

## Main results

* `readLeb128_writeLeb128` — reading what was written, whatever follows, gives
  the value back and stops after it.
* `leb128Size_le_of_readLeb128` — a value that was read took at least as many
  bytes as its shortest encoding.
-/

namespace Ekizu.Dave

/-- `leb128_size`. -/
def leb128Size (value : Nat) : Nat :=
  if 0x80 ≤ value then leb128Size (value >>> 7) + 1 else 1
termination_by value
decreasing_by
  rw [Nat.shiftRight_eq_div_pow]
  omega

/-- The loop of `read_leb128`, and the check of the tenth byte after it. -/
def readLeb128Loop : Bytes → (value fillBits : Nat) → Option (Nat × Bytes)
  | [], _, _ => none
  | byte :: readAt, value, fillBits =>
      if fillBits < 64 - 7 then
        let value := value ||| ((byte &&& 0x7F).toNat <<< fillBits)
        if byte &&& 0x80 = 0 then some (value, readAt)
        else readLeb128Loop readAt value (fillBits + 7)
      else if byte ≤ 1 then
        -- Nine bytes carried 63 bits: the tenth may only add the last one.
        some (value ||| (byte.toNat <<< fillBits), readAt)
      else none

/-- `read_leb128`: the value and the bytes after it. -/
def readLeb128 (readAt : Bytes) : Option (Nat × Bytes) :=
  readLeb128Loop readAt 0 0

/-- `write_leb128`: the bytes written. -/
def writeLeb128 (value : Nat) : Bytes :=
  if 0x80 ≤ value then
    (0x80 ||| (value &&& 0x7F)).toUInt8 :: writeLeb128 (value >>> 7)
  else [value.toUInt8]
termination_by value
decreasing_by
  rw [Nat.shiftRight_eq_div_pow]
  omega

/-! ## Sizes -/

theorem leb128Size_of_lt {value : Nat} (h : value < 0x80) : leb128Size value = 1 := by
  rw [leb128Size, if_neg (by omega)]

theorem leb128Size_of_le {value : Nat} (h : 0x80 ≤ value) :
    leb128Size value = leb128Size (value / 128) + 1 := by
  rw [leb128Size, if_pos h, Nat.shiftRight_eq_div_pow]

theorem leb128Size_pos (value : Nat) : 0 < leb128Size value := by
  rw [leb128Size]
  split <;> omega

theorem writeLeb128_length (value : Nat) :
    (writeLeb128 value).length = leb128Size value := by
  induction value using Nat.strongRecOn with
  | ind value ih =>
      rw [writeLeb128, leb128Size]
      split
      · next h =>
          have hlt : value >>> 7 < value := by
            rw [Nat.shiftRight_eq_div_pow]; omega
          simp [ih _ hlt]
      · rfl

/-- `k` groups of seven bits hold every value below `2 ^ (7 * k)`. -/
theorem leb128Size_le (value k : Nat) (h : value < 2 ^ (7 * (k + 1))) :
    leb128Size value ≤ k + 1 := by
  induction k generalizing value with
  | zero => exact Nat.le_of_eq (leb128Size_of_lt (by omega))
  | succ k ih =>
      by_cases hlt : value < 0x80
      · rw [leb128Size_of_lt hlt]; omega
      · rw [leb128Size_of_le (by omega)]
        have hdiv : value / 128 < 2 ^ (7 * (k + 1)) := by
          rw [Nat.div_lt_iff_lt_mul (by decide)]
          calc value < 2 ^ (7 * (k + 1 + 1)) := h
            _ = 2 ^ (7 * (k + 1)) * 128 := by
              rw [show 7 * (k + 1 + 1) = 7 * (k + 1) + 7 by omega, Nat.pow_add]
        have := ih (value / 128) hdiv
        omega

theorem leb128Size_mono {a b : Nat} (h : a ≤ b) : leb128Size a ≤ leb128Size b := by
  induction b using Nat.strongRecOn generalizing a with
  | ind b ih =>
      by_cases hb : b < 0x80
      · exact Nat.le_of_eq (by rw [leb128Size_of_lt hb, leb128Size_of_lt (by omega)])
      · by_cases ha : a < 0x80
        · rw [leb128Size_of_lt ha]
          exact leb128Size_pos b
        · have hdiv := ih (b / 128) (by omega) (Nat.div_le_div_right (c := 128) h)
          have hsa : leb128Size a = leb128Size (a / 128) + 1 := leb128Size_of_le (by omega)
          have hsb : leb128Size b = leb128Size (b / 128) + 1 := leb128Size_of_le (by omega)
          omega

/-! ## Reading -/

private theorem and_low (byte : UInt8) : (byte &&& 0x7F).toNat = byte.toNat % 128 := by
  rw [UInt8.toNat_and]
  exact Nat.and_two_pow_sub_one_eq_mod byte.toNat 7

private theorem high_bit_iff (byte : UInt8) : byte &&& 0x80 = 0 ↔ byte.toNat < 128 := by
  have hbits : ∀ i : Fin 256, i.val &&& 128 = 0 ↔ i.val < 128 := by decide +kernel
  rw [← hbits ⟨byte.toNat, byte.toNat_lt⟩, ← UInt8.toNat_inj, UInt8.toNat_and]
  rfl

theorem or_shift {value x k : Nat} (h : value < 2 ^ k) :
    value ||| (x <<< k) = value + x * 2 ^ k := by
  rw [Nat.shiftLeft_eq, Nat.or_comm, Nat.mul_comm x (2 ^ k),
    ← Nat.two_pow_add_eq_or_of_lt h]
  omega

/-- One more group keeps the accumulator inside its bits. -/
theorem acc_lt {value x k : Nat} (h : value < 2 ^ k) (hx : x < 128) :
    value + x * 2 ^ k < 2 ^ (k + 7) := by
  have hmul : (x + 1) * 2 ^ k ≤ 128 * 2 ^ k := Nat.mul_le_mul_right _ (by omega)
  rw [Nat.add_mul] at hmul
  rw [Nat.pow_add]
  omega

/-- One iteration of the reading loop on a byte that is not the tenth. -/
theorem readLeb128Loop_cons {byte : UInt8} {readAt : Bytes} {value k : Nat}
    (hk : k < 57) (hv : value < 2 ^ k) :
    readLeb128Loop (byte :: readAt) value k =
      if byte.toNat < 128 then some (value + byte.toNat * 2 ^ k, readAt)
      else readLeb128Loop readAt (value + byte.toNat % 128 * 2 ^ k) (k + 7) := by
  rw [readLeb128Loop, if_pos (by omega)]
  simp only [and_low, or_shift hv, high_bit_iff]
  split
  · next h => rw [Nat.mod_eq_of_lt h]
  · rfl

theorem toUInt8_group (value : Nat) :
    (0x80 ||| (value &&& 0x7F)).toUInt8.toNat = value % 128 + 128 := by
  have hlow : value &&& 0x7F = value % 128 := Nat.and_two_pow_sub_one_eq_mod value 7
  have hor : 0x80 ||| (value % 128) = value % 128 + 128 := by
    have hlt : value % 128 < 2 ^ 7 := Nat.mod_lt value (by decide)
    calc 0x80 ||| value % 128 = 2 ^ 7 * 1 ||| value % 128 := rfl
      _ = 2 ^ 7 * 1 + value % 128 := (Nat.two_pow_add_eq_or_of_lt hlt 1).symm
      _ = value % 128 + 128 := Nat.add_comm _ _
  rw [hlow, hor]
  simp only [Nat.toUInt8, UInt8.toNat_ofNat']
  omega

/-- The reading loop entered with `i` groups already read. -/
private theorem readLeb128Loop_writeLeb128 (rest : Bytes) (n : Nat) :
    ∀ (i value acc : Nat), i + n = 9 → value < 2 ^ (64 - 7 * i) → acc < 2 ^ (7 * i) →
      readLeb128Loop (writeLeb128 value ++ rest) acc (7 * i) =
        some (acc + value * 2 ^ (7 * i), rest) := by
  induction n with
  | zero =>
      -- The tenth byte: a single bit is left.
      intro i value acc hi hv hacc
      obtain rfl : i = 9 := by omega
      have hv2 : value < 2 := hv
      rw [writeLeb128, if_neg (by omega)]
      have hbyte : value.toUInt8.toNat = value := by
        simp only [Nat.toUInt8, UInt8.toNat_ofNat']
        omega
      have hle : value.toUInt8 ≤ 1 := by
        rw [UInt8.le_iff_toNat_le, hbyte]
        exact Nat.le_of_lt_succ hv2
      rw [List.singleton_append, readLeb128Loop, if_neg (by omega), if_pos hle, hbyte,
        or_shift hacc]
  | succ n ih =>
      intro i value acc hi hv hacc
      have hk : 7 * i < 57 := by omega
      rw [writeLeb128]
      split
      · next hge =>
          have hgroup := toUInt8_group value
          have hdiv : value >>> 7 = value / 128 := Nat.shiftRight_eq_div_pow value 7
          have hbits : value / 128 < 2 ^ (64 - 7 * (i + 1)) := by
            rw [Nat.div_lt_iff_lt_mul (by decide)]
            calc value < 2 ^ (64 - 7 * i) := hv
              _ = 2 ^ (64 - 7 * (i + 1)) * 128 := by
                rw [show 64 - 7 * i = 64 - 7 * (i + 1) + 7 by omega, Nat.pow_add]
          rw [List.cons_append, readLeb128Loop_cons hk hacc, hgroup, if_neg (by omega), hdiv,
            show (value % 128 + 128) % 128 = value % 128 by omega,
            show 7 * i + 7 = 7 * (i + 1) by omega,
            ih (i + 1) (value / 128) _ (by omega) hbits
              (by rw [show 7 * (i + 1) = 7 * i + 7 by omega]
                  exact acc_lt hacc (Nat.mod_lt _ (by decide)))]
          have hval : value = value % 128 + 128 * (value / 128) := (Nat.mod_add_div _ _).symm
          have hpow : (2 : Nat) ^ (7 * (i + 1)) = 128 * 2 ^ (7 * i) := by
            rw [show 7 * (i + 1) = 7 + 7 * i by omega, Nat.pow_add]
          rw [hpow, Nat.add_assoc]
          congr 3
          conv => rhs; rw [hval, Nat.add_mul]
          rw [Nat.mul_comm 128 (value / 128), Nat.mul_assoc]
      · next hlt =>
          have hbyte : value.toUInt8.toNat = value := by
            simp only [Nat.toUInt8, UInt8.toNat_ofNat']
            omega
          rw [List.singleton_append, readLeb128Loop_cons hk hacc, hbyte, if_pos (by omega)]

/-- **Reading undoes writing**, at any position of a longer buffer. -/
theorem readLeb128_writeLeb128 {value : Nat} (h : value < 2 ^ 64) (rest : Bytes) :
    readLeb128 (writeLeb128 value ++ rest) = some (value, rest) := by
  have := readLeb128Loop_writeLeb128 rest 9 0 value 0 (by omega) h (by decide)
  simpa [readLeb128] using this

/-- What the loop returns fits the bits it has consumed. -/
private theorem readLeb128Loop_spec {readAt rest : Bytes} {acc k value : Nat}
    (hk : k ≤ 63) (hacc : acc < 2 ^ k)
    (h : readLeb128Loop readAt acc k = some (value, rest)) :
    ∃ taken, taken ≠ [] ∧ readAt = taken ++ rest ∧ value < 2 ^ (k + 7 * taken.length) := by
  induction readAt generalizing acc k with
  | nil => simp [readLeb128Loop] at h
  | cons byte readAt ih =>
      by_cases hlt : k < 57
      · rw [readLeb128Loop_cons hlt hacc] at h
        split at h
        · next hbyte =>
            simp only [Option.some.injEq, Prod.mk.injEq] at h
            refine ⟨[byte], by simp, by simp [h.2], ?_⟩
            rw [← h.1]
            exact acc_lt hacc hbyte
        · obtain ⟨taken, hne, hcat, hval⟩ :=
            ih (k := k + 7) (by omega) (acc_lt hacc (Nat.mod_lt _ (by decide))) h
          refine ⟨byte :: taken, by simp, by simp [hcat], ?_⟩
          rw [List.length_cons, show k + 7 * (taken.length + 1) = k + 7 + 7 * taken.length by omega]
          exact hval
      · rw [readLeb128Loop, if_neg (by omega)] at h
        split at h
        · next hbyte =>
            simp only [Option.some.injEq, Prod.mk.injEq, or_shift hacc] at h
            refine ⟨[byte], by simp, by simp [h.2], ?_⟩
            rw [← h.1]
            have hone : byte.toNat ≤ 1 := UInt8.le_iff_toNat_le.mp hbyte
            exact acc_lt hacc (by omega)
        · simp at h

/-- A read consumes a non-empty prefix. -/
theorem readLeb128_prefix {readAt rest : Bytes} {value : Nat}
    (h : readLeb128 readAt = some (value, rest)) :
    ∃ taken, taken ≠ [] ∧ readAt = taken ++ rest := by
  obtain ⟨taken, hne, hcat, -⟩ := readLeb128Loop_spec (by decide) (by decide) h
  exact ⟨taken, hne, hcat⟩

theorem readLeb128_length_lt {readAt rest : Bytes} {value : Nat}
    (h : readLeb128 readAt = some (value, rest)) : rest.length < readAt.length := by
  obtain ⟨taken, hne, rfl⟩ := readLeb128_prefix h
  have : 0 < taken.length := List.length_pos_iff.mpr hne
  simp only [List.length_append]
  omega

/-- A value takes at least the bytes of its shortest encoding. -/
theorem leb128Size_le_of_readLeb128 {readAt rest : Bytes} {value : Nat}
    (h : readLeb128 readAt = some (value, rest)) :
    leb128Size value + rest.length ≤ readAt.length := by
  obtain ⟨taken, hne, rfl, hval⟩ := readLeb128Loop_spec (by decide) (by decide) h
  have hpos : 0 < taken.length := List.length_pos_iff.mpr hne
  have hsize := leb128Size_le value (taken.length - 1)
    (by rw [show taken.length - 1 + 1 = taken.length by omega]; simpa using hval)
  simp only [List.length_append]
  omega

end Ekizu.Dave
