import Ekizu.Dave.Leb128

/-!
# AV1 open bitstream units

The format that `process_frame_av1` rewrites: a header byte with two flags, an extension
byte and a size field where the flags say so, and the payload.  A size field is LEB128 with
any padding.  Only the last unit of a frame may lack one, and then extends to its end.

## Main results

* `IsParse.unique` — a frame is one sequence of units at most.
-/

namespace Ekizu.Dave

/-! ## Padded LEB128 -/

/-- The value of a LEB128 field: groups of seven bits, the lowest first, with the high bit
on every byte but the last. -/
def leb128Value : Bytes → Option Nat
  | [] => none
  | byte :: bytes =>
      if byte.toNat < 128 then if bytes = [] then some byte.toNat else none
      else (leb128Value bytes).map fun high => byte.toNat % 128 + 128 * high

/-- `LEB128_MAX_SIZE`. -/
def leb128MaxSize : Nat := 10

/-- No field is the beginning of another one. -/
theorem leb128Value_prefix_free {field other rest rest' : Bytes} {n n' : Nat}
    (h : leb128Value field = some n) (h' : leb128Value other = some n')
    (heq : field ++ rest = other ++ rest') : field = other ∧ rest = rest' := by
  induction field generalizing other n n' with
  | nil => simp [leb128Value] at h
  | cons byte field ih =>
      cases other with
      | nil => simp [leb128Value] at h'
      | cons byte' other =>
          simp only [List.cons_append, List.cons.injEq] at heq
          obtain ⟨rfl, htail⟩ := heq
          simp only [leb128Value] at h h'
          by_cases hlast : byte.toNat < 128
          · rw [if_pos hlast] at h h'
            have hnil : field = [] := by
              by_contra hne
              rw [if_neg hne] at h
              cases h
            have hnil' : other = [] := by
              by_contra hne
              rw [if_neg hne] at h'
              cases h'
            subst hnil hnil'
            exact ⟨rfl, htail⟩
          · rw [if_neg hlast] at h h'
            obtain ⟨high, hhigh, -⟩ := Option.map_eq_some_iff.mp h
            obtain ⟨high', hhigh', -⟩ := Option.map_eq_some_iff.mp h'
            obtain ⟨rfl, hrest⟩ := ih hhigh hhigh' htail
            exact ⟨rfl, hrest⟩

theorem leb128Value_ne_nil {field : Bytes} {n : Nat} (h : leb128Value field = some n) :
    field ≠ [] := by
  rintro rfl
  simp [leb128Value] at h

/-- The loop of `read_leb128` on a field, entered with `i` groups already read. -/
theorem readLeb128Loop_field {field : Bytes} (rest : Bytes) {n : Nat}
    (h : leb128Value field = some n) :
    ∀ i acc, i + field.length ≤ leb128MaxSize → n < 2 ^ (64 - 7 * i) → acc < 2 ^ (7 * i) →
      readLeb128Loop (field ++ rest) acc (7 * i) = some (acc + n * 2 ^ (7 * i), rest) := by
  induction field generalizing n with
  | nil => simp [leb128Value] at h
  | cons byte field ih =>
      intro i acc hlength hn hacc
      simp only [List.length_cons, leb128MaxSize] at hlength
      simp only [leb128Value] at h
      by_cases hi : i < 9
      · rw [List.cons_append, readLeb128Loop_cons (by omega) hacc]
        by_cases hlast : byte.toNat < 128
        · rw [if_pos hlast] at h ⊢
          by_cases hnil : field = []
          · rw [if_pos hnil, Option.some_inj] at h
            rw [h, hnil, List.nil_append]
          · rw [if_neg hnil] at h
            cases h
        · rw [if_neg hlast] at h ⊢
          obtain ⟨high, hhigh, rfl⟩ := Option.map_eq_some_iff.mp h
          have hpow : (2 : Nat) ^ (64 - 7 * i) = 128 * 2 ^ (64 - 7 * (i + 1)) := by
            rw [show 64 - 7 * i = 7 + (64 - 7 * (i + 1)) by omega, Nat.pow_add]
          have hstep : (2 : Nat) ^ (7 * (i + 1)) = 128 * 2 ^ (7 * i) := by
            rw [show 7 * (i + 1) = 7 + 7 * i by omega, Nat.pow_add]
          have hnext : acc + byte.toNat % 128 * 2 ^ (7 * i) < 2 ^ (7 * (i + 1)) := by
            rw [show 7 * (i + 1) = 7 * i + 7 by omega]
            exact acc_lt hacc (Nat.mod_lt _ (by decide))
          have hrest := ih hhigh (i + 1) _ (by simp only [leb128MaxSize]; omega)
            (by omega) hnext
          rw [show 7 * i + 7 = 7 * (i + 1) by omega, hrest, hstep]
          congr 2
          rw [Nat.add_mul, Nat.add_assoc, ← Nat.mul_assoc, Nat.mul_comm high 128]
      · -- the tenth byte: a single bit is left
        obtain rfl : i = 9 := by omega
        obtain rfl : field = [] := List.length_eq_zero_iff.mp (by omega)
        have hlast : byte.toNat < 128 := by
          by_contra hmore
          rw [if_neg hmore] at h
          simp [leb128Value] at h
        rw [if_pos hlast, if_pos rfl, Option.some_inj] at h
        have hone : byte ≤ 1 := by
          rw [UInt8.le_iff_toNat_le, h]
          have hlt : n < 2 := hn
          exact Nat.le_of_lt_succ hlt
        rw [List.singleton_append, readLeb128Loop, if_neg (by omega), if_pos hone, or_shift hacc,
          h]

/-- A field of at most ten bytes is read, whatever its padding. -/
theorem readLeb128_field {field : Bytes} (rest : Bytes) {n : Nat}
    (h : leb128Value field = some n) (hlength : field.length ≤ leb128MaxSize)
    (hn : n < 2 ^ 64) : readLeb128 (field ++ rest) = some (n, rest) := by
  have hread := readLeb128Loop_field rest h 0 0 (by omega) hn (by decide)
  simpa [readLeb128] using hread

/-- What `write_leb128` writes is a field. -/
theorem leb128Value_writeLeb128 (n : Nat) : leb128Value (writeLeb128 n) = some n := by
  induction n using Nat.strongRecOn with
  | ind n ih =>
      rw [writeLeb128]
      split
      · next hge =>
          have hdiv : n >>> 7 = n / 128 := Nat.shiftRight_eq_div_pow n 7
          have hgroup := toUInt8_group n
          rw [leb128Value, if_neg (by omega), hgroup, hdiv, ih (n / 128) (by omega),
            Option.map_some]
          congr 1
          omega
      · next hlt =>
          have hbyte : n.toUInt8.toNat = n := by
            simp only [Nat.toUInt8, UInt8.toNat_ofNat']
            omega
          rw [leb128Value, hbyte, if_pos (by omega), if_pos rfl]

/-- No field for the same value is shorter than the one `write_leb128` writes. -/
theorem writeLeb128_shortest {field : Bytes} {n : Nat} (h : leb128Value field = some n) :
    (writeLeb128 n).length ≤ field.length := by
  rw [writeLeb128_length]
  induction field generalizing n with
  | nil => simp [leb128Value] at h
  | cons byte field ih =>
      simp only [leb128Value] at h
      by_cases hlast : byte.toNat < 128
      · rw [if_pos hlast] at h
        by_cases hnil : field = []
        · rw [if_pos hnil, Option.some_inj] at h
          rw [leb128Size_of_lt (by omega), List.length_cons]
          omega
        · rw [if_neg hnil] at h
          cases h
      · rw [if_neg hlast] at h
        obtain ⟨high, hhigh, rfl⟩ := Option.map_eq_some_iff.mp h
        have hrest := ih hhigh
        by_cases hsmall : byte.toNat % 128 + 128 * high < 0x80
        · rw [leb128Size_of_lt hsmall, List.length_cons]
          omega
        · rw [leb128Size_of_le (by omega), List.length_cons,
            show (byte.toNat % 128 + 128 * high) / 128 = high by omega]
          omega

/-! ## Units -/

/-- A unit: its header byte, and the other parts where the flags of the header announce
them. -/
@[ext] structure Obu where
  header : UInt8
  extension : Option UInt8
  size : Option Bytes
  payload : Bytes
  extension_iff : extension.isSome = true ↔ header &&& 0x04 ≠ 0
  size_iff : size.isSome = true ↔ header &&& 0x02 ≠ 0
  size_value : ∀ field ∈ size, leb128Value field = some payload.length

namespace Obu

/-- The bytes in front of the payload. -/
def head (obu : Obu) : Bytes :=
  obu.header :: (obu.extension.toList ++ obu.size.getD [])

/-- The unit as it stands in a frame. -/
def encode (obu : Obu) : Bytes :=
  obu.head ++ obu.payload

/-- `obu_type`. -/
def type (obu : Obu) : UInt8 := (obu.header &&& 0x78) >>> 3

/-- What a receiver sees of the unit. -/
def content (obu : Obu) : UInt8 × Option UInt8 × Bytes :=
  (obu.type, obu.extension, obu.payload)

theorem encode_ne_nil (obu : Obu) : obu.encode ≠ [] := by
  simp [encode, head]

end Obu

/-- The bytes are these units one after the other; only the last one may lack a size
field. -/
structure IsParse (bytes : Bytes) (obus : List Obu) : Prop where
  bytes_eq : bytes = obus.flatMap Obu.encode
  sized : ∀ obu ∈ obus.dropLast, obu.size.isSome = true

theorem flatMap_encode_eq_nil {obus : List Obu} (h : obus.flatMap Obu.encode = []) :
    obus = [] := by
  cases obus with
  | nil => rfl
  | cons obu obus =>
      rw [List.flatMap_cons, List.append_eq_nil_iff] at h
      exact absurd h.1 obu.encode_ne_nil

/-- Units without a size field have nothing behind them. -/
theorem IsParse.tail_nil {bytes : Bytes} {obu : Obu} {obus : List Obu}
    (h : IsParse bytes (obu :: obus)) (hsize : obu.size = none) : obus = [] := by
  cases obus with
  | nil => rfl
  | cons next obus =>
      have hsome := h.sized obu (by simp)
      rw [hsize] at hsome
      cases hsome

theorem IsParse.tail {bytes : Bytes} {obu : Obu} {obus : List Obu}
    (h : IsParse bytes (obu :: obus)) : IsParse (obus.flatMap Obu.encode) obus where
  bytes_eq := rfl
  sized := fun other hother => h.sized other (by
    cases obus with
    | nil => simp at hother
    | cons next obus => simp only [List.dropLast_cons_cons, List.mem_cons]; exact .inr hother)

/-- A unit is told from the bytes behind it: by its size field, or by there being none. -/
theorem Obu.encode_prefix_free {obu other : Obu} {rest rest' : Bytes}
    (heq : obu.encode ++ rest = other.encode ++ rest') (hrest : obu.size = none → rest = [])
    (hrest' : other.size = none → rest' = []) : obu = other ∧ rest = rest' := by
  obtain ⟨header, extension, size, payload, hext, hsize, hvalue⟩ := obu
  obtain ⟨header', extension', size', payload', hext', hsize', hvalue'⟩ := other
  simp only [encode, head, List.append_assoc, List.cons_append, List.cons.injEq] at heq
  obtain ⟨rfl, heq⟩ := heq
  have hsameExt : extension.isSome = true ↔ extension'.isSome = true := hext.trans hext'.symm
  have hsameSize : size.isSome = true ↔ size'.isSome = true := hsize.trans hsize'.symm
  have hafterExt : extension = extension' ∧
      size.getD [] ++ (payload ++ rest) = size'.getD [] ++ (payload' ++ rest') := by
    cases extension with
    | none =>
        cases extension' with
        | none => exact ⟨rfl, heq⟩
        | some byte' => exact absurd (hsameExt.mpr rfl) (by simp)
    | some byte =>
        cases extension' with
        | none => exact absurd (hsameExt.mp rfl) (by simp)
        | some byte' =>
            simp only [Option.toList_some, List.cons_append, List.nil_append,
              List.cons.injEq] at heq
            exact ⟨by rw [heq.1], heq.2⟩
  obtain ⟨rfl, hafter⟩ := hafterExt
  cases size with
  | none =>
      cases size' with
      | none =>
          obtain rfl := hrest rfl
          obtain rfl := hrest' rfl
          simp only [Option.getD_none, List.nil_append, List.append_nil] at hafter
          subst hafter
          exact ⟨rfl, rfl⟩
      | some field' => exact absurd (hsameSize.mpr rfl) (by simp)
  | some field =>
      cases size' with
      | none => exact absurd (hsameSize.mp rfl) (by simp)
      | some field' =>
          have hfield := hvalue field rfl
          have hfield' := hvalue' field' rfl
          obtain ⟨rfl, hpayload⟩ := leb128Value_prefix_free hfield hfield' hafter
          have hlength : payload.length = payload'.length :=
            Option.some.inj (hfield.symm.trans hfield')
          obtain ⟨rfl, rfl⟩ := List.append_inj hpayload hlength
          exact ⟨rfl, rfl⟩

/-- **A frame is one sequence of units at most.** -/
theorem IsParse.unique {bytes : Bytes} {obus others : List Obu} (h : IsParse bytes obus)
    (h' : IsParse bytes others) : obus = others := by
  induction obus generalizing bytes others with
  | nil =>
      have hnil : others.flatMap Obu.encode = [] := h'.bytes_eq.symm.trans h.bytes_eq
      exact (flatMap_encode_eq_nil hnil).symm
  | cons obu obus ih =>
      cases others with
      | nil =>
          have hnil : (obu :: obus).flatMap Obu.encode = [] := h.bytes_eq.symm.trans h'.bytes_eq
          exact flatMap_encode_eq_nil hnil
      | cons other others =>
          have heq := h.bytes_eq.symm.trans h'.bytes_eq
          rw [List.flatMap_cons, List.flatMap_cons] at heq
          obtain ⟨rfl, htail⟩ := Obu.encode_prefix_free heq
            (fun hnone => by rw [h.tail_nil hnone]; rfl)
            (fun hnone => by rw [h'.tail_nil hnone]; rfl)
          have hrest := h'.tail
          rw [← htail] at hrest
          rw [ih h.tail hrest]

end Ekizu.Dave
