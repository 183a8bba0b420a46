import Mathlib.Data.List.Induction
import Mathlib.Data.List.TakeWhile
import Mathlib.Data.Nat.Digits.Defs
import Mathlib.Tactic.Common

/-!
# Decimal text

Numbers written in ASCII digits, and the lenient reader of the C library:
white space, a sign, digits, and whatever follows them is ignored.

## Main results

* `stoull_eq_some` — what the reader accepts.
* `stoull_toDecimal` — what is written is read back.
* `toDecimal_injective` — different numbers are written differently.
* `stol_text`, `stoull_text_zero` — what a reader of integers makes of a decimal
  number.
* `Numeral.numerator_le` — what it drops.
* `stoi_toString`, `stoull_toString` — the readers on the text of an integer.
-/

namespace Ekizu.Lib.Decimal

/-- The ASCII code of a digit. -/
def digitByte (d : Nat) : UInt8 := (48 + d).toUInt8

/-- `std::to_string` on an unsigned number. -/
def toDecimal (n : UInt64) : List UInt8 :=
  if n = 0 then [48] else ((Nat.digits 10 n.toNat).reverse).map digitByte

/-- `std::isspace` in the C locale. -/
def isSpace (b : UInt8) : Bool := b = 32 || (9 ≤ b && b ≤ 13)

/-- `std::isdigit`. -/
def isDigit (b : UInt8) : Bool := 48 ≤ b && b ≤ 57

/-- The number a run of digits denotes. -/
def digitsValue (digits : List UInt8) : Nat :=
  digits.foldl (fun acc b => 10 * acc + (b.toNat - 48)) 0

/-- The digits at the start of a text, read as an unsigned 64-bit number; a
minus sign has it negated in 64 bits. -/
def readDigits (negative : Bool) (text : List UInt8) : Option UInt64 :=
  let digits := text.takeWhile isDigit
  if digits = [] then none
  else if 2 ^ 64 ≤ digitsValue digits then none
  else
    let value := UInt64.ofNat (digitsValue digits)
    some (if negative then 0 - value else value)

/-- `std::stoull` in base 10; `none` is an exception. -/
def stoull (text : List UInt8) : Option UInt64 :=
  match text.dropWhile isSpace with
  | 45 :: rest => readDigits true rest
  | 43 :: rest => readDigits false rest
  | rest => readDigits false rest

/-- A text that spells a number: white space, a sign, zeros, the number itself or its
64-bit negation, and no digit after it. -/
def Spells (text : List UInt8) (value : UInt64) : Prop :=
  ∃ blanks sign zeros rest : List UInt8,
    text = blanks ++ (sign ++ (zeros ++ toDecimal (if sign = [45] then 0 - value else value) ++
      rest)) ∧
    (∀ b ∈ blanks, isSpace b = true) ∧ (sign = [] ∨ sign = [43] ∨ sign = [45]) ∧
    (∀ b ∈ zeros, b = 48) ∧ ∀ b ∈ rest.head?, isDigit b = false

/-- The digits at the start of a text, read as a signed 64-bit number. -/
def readSigned (negative : Bool) (text : List UInt8) : Option Int :=
  let digits := text.takeWhile isDigit
  let value : Int := if negative then -(digitsValue digits : Int) else digitsValue digits
  if digits = [] then none
  else if value < -(2 ^ 63) ∨ 2 ^ 63 ≤ value then none
  else some value

/-- `std::stol` in base 10, where a `long` has 64 bits; `none` is an exception. -/
def stol (text : List UInt8) : Option Int :=
  match text.dropWhile isSpace with
  | 45 :: rest => readSigned true rest
  | 43 :: rest => readSigned false rest
  | rest => readSigned false rest

/-- `std::stoi` in base 10, where an `int` has 32 bits; `none` is an exception. -/
def stoi (text : List UInt8) : Option Int :=
  match stol text with
  | some v => if v < -(2 ^ 31) ∨ 2 ^ 31 ≤ v then none else some v
  | none => none

/-- A decimal number: an optional minus sign, digits, and optionally a point and
more digits. -/
structure Numeral where
  negative : Bool
  whole : List UInt8
  fraction : Option (List UInt8)
  whole_ne : whole ≠ []
  whole_digits : ∀ b ∈ whole, isDigit b = true
  fraction_digits : ∀ digits ∈ fraction, ∀ b ∈ digits, isDigit b = true

namespace Numeral

/-- The point and the digits after it. -/
def tail (d : Numeral) : List UInt8 :=
  match d.fraction with
  | some digits => 46 :: digits
  | none => []

/-- The text of a decimal number. -/
def text (d : Numeral) : List UInt8 := (if d.negative then [45] else []) ++ (d.whole ++ d.tail)

/-- The part before the point, with the sign. -/
def integer (d : Numeral) : Int :=
  if d.negative then -(digitsValue d.whole : Int) else digitsValue d.whole

/-- The number, as a numerator over a power of ten. -/
def numerator (d : Numeral) : Int :=
  let digits := d.fraction.getD []
  let value : Int := digitsValue d.whole * 10 ^ digits.length + digitsValue digits
  if d.negative then -value else value

/-- The power of ten. -/
def scale (d : Numeral) : Int := 10 ^ (d.fraction.getD []).length

end Numeral

/-! ## Reading back -/

theorem digitByte_toNat {d : Nat} (hd : d < 10) : (digitByte d).toNat = 48 + d := by
  simp only [digitByte, Nat.toUInt8, UInt8.toNat_ofNat']
  omega

private theorem isDigit_digitByte {d : Nat} (hd : d < 10) : isDigit (digitByte d) = true := by
  have h := digitByte_toNat hd
  simp only [isDigit, Bool.and_eq_true, decide_eq_true_eq, UInt8.le_iff_toNat_le, h]
  exact ⟨Nat.le_add_right 48 d, by change 48 + d ≤ 57; omega⟩

private theorem isSpace_eq_false {b : UInt8} (h : isDigit b = true) : isSpace b = false := by
  simp only [isDigit, isSpace, Bool.and_eq_true, decide_eq_true_eq, UInt8.le_iff_toNat_le,
    Bool.or_eq_false_iff, decide_eq_false_iff_not, Bool.and_eq_false_iff] at h ⊢
  have hlow : 48 ≤ b.toNat := h.1
  refine ⟨?_, .inr ?_⟩
  · rintro rfl
    exact absurd hlow (by decide)
  · intro hle
    have hle : b.toNat ≤ 13 := hle
    omega

private theorem digits_lt {n d : Nat} (hd : d ∈ (Nat.digits 10 n).reverse) : d < 10 :=
  Nat.digits_lt_base (by decide) (List.mem_reverse.mp hd)

/-- Reading the written digits gives their value. -/
private theorem digitsValue_map (digits : List Nat) (h : ∀ d ∈ digits, d < 10) :
    digitsValue (digits.reverse.map digitByte) = Nat.ofDigits 10 digits := by
  rw [digitsValue, List.foldl_map, List.foldl_reverse, Nat.ofDigits_eq_foldr]
  induction digits with
  | nil => rfl
  | cons d digits ih =>
      rw [List.foldr_cons, List.foldr_cons, ih fun d hd => h d (by simp [hd]),
        digitByte_toNat (h d (by simp))]
      simp only [Nat.cast_id]
      omega

theorem digitsValue_cons_zero (digits : List UInt8) :
    digitsValue (48 :: digits) = digitsValue digits := rfl

theorem digitByte_sub {b : UInt8} (h : isDigit b = true) : digitByte (b.toNat - 48) = b := by
  simp only [isDigit, Bool.and_eq_true, decide_eq_true_eq, UInt8.le_iff_toNat_le] at h
  have hlow : 48 ≤ b.toNat := h.1
  have hhigh : b.toNat ≤ 57 := h.2
  apply UInt8.toNat_inj.mp
  rw [digitByte_toNat (by omega)]
  omega

/-- The digits of a number as it is written. -/
theorem toDecimal_digits (n : UInt64) :
    toDecimal n ≠ [] ∧ (∀ b ∈ toDecimal n, isDigit b = true) ∧
      digitsValue (toDecimal n) = n.toNat := by
  unfold toDecimal
  split
  · next h =>
      subst h
      exact ⟨List.cons_ne_nil _ _, by simp [isDigit], rfl⟩
  · next h =>
      refine ⟨?_, ?_, ?_⟩
      · simp only [ne_eq, List.map_eq_nil_iff, List.reverse_eq_nil_iff,
          Nat.digits_eq_nil_iff_eq_zero]
        intro hzero
        exact h (UInt64.toNat_inj.mp hzero)
      · intro b hb
        obtain ⟨d, hd, rfl⟩ := List.mem_map.mp hb
        exact isDigit_digitByte (digits_lt hd)
      · rw [digitsValue_map _ fun d hd => Nat.digits_lt_base (by decide) hd, Nat.ofDigits_digits]

/-- How many digits there are bounds their value. -/
theorem digitsValue_lt {digits : List UInt8} (h : ∀ b ∈ digits, isDigit b = true) :
    digitsValue digits < 10 ^ digits.length := by
  induction digits using List.reverseRecOn with
  | nil => decide
  | append_singleton digits b ih =>
      have hb := h b (by simp)
      simp only [isDigit, Bool.and_eq_true, decide_eq_true_eq, UInt8.le_iff_toNat_le] at hb
      have hhigh : b.toNat ≤ 57 := hb.2
      have hprefix := ih fun c hc => h c (by simp [hc])
      have hstep : digitsValue (digits ++ [b]) = 10 * digitsValue digits + (b.toNat - 48) := by
        simp [digitsValue]
      rw [hstep, List.length_append, List.length_singleton, Nat.pow_succ]
      omega

/-- Digits that do not begin with a zero are a number as it is written. -/
theorem toDecimal_digitsValue {b : UInt8} {digits : List UInt8} (hb : b ≠ 48)
    (h : ∀ c ∈ b :: digits, isDigit c = true) (hlt : digitsValue (b :: digits) < 2 ^ 64) :
    toDecimal (UInt64.ofNat (digitsValue (b :: digits))) = b :: digits := by
  let values := (b :: digits).reverse.map fun c => c.toNat - 48
  have hsmall : ∀ d ∈ values, d < 10 := by
    intro d hd
    obtain ⟨c, hc, rfl⟩ := List.mem_map.mp hd
    have hdigit := h c (List.mem_reverse.mp hc)
    simp only [isDigit, Bool.and_eq_true, decide_eq_true_eq, UInt8.le_iff_toNat_le] at hdigit
    have hhigh : c.toNat ≤ 57 := hdigit.2
    omega
  have hwritten : values.reverse.map digitByte = b :: digits := by
    rw [← List.map_reverse, List.reverse_reverse, List.map_map]
    exact (List.map_congr_left fun c hc => digitByte_sub (h c hc)).trans (List.map_id _)
  have hvalue : digitsValue (b :: digits) = Nat.ofDigits 10 values := by
    rw [← hwritten, digitsValue_map values hsmall]
  have hlast : ∀ hne : values ≠ [], values.getLast hne ≠ 0 := by
    intro hne hzero
    have hb' : b.toNat - 48 = 0 := by simpa [values] using hzero
    exact hb (by rw [← digitByte_sub (h b (by simp)), hb']; rfl)
  have hdigits : Nat.digits 10 (digitsValue (b :: digits)) = values := by
    rw [hvalue, Nat.digits_ofDigits 10 (by decide) values hsmall hlast]
  have htoNat : (UInt64.ofNat (digitsValue (b :: digits))).toNat = digitsValue (b :: digits) :=
    UInt64.toNat_ofNat_of_lt' hlt
  unfold toDecimal
  split
  · next hzero =>
      rw [← htoNat, hzero] at hdigits
      exact absurd hdigits.symm (by simp [values])
  · rw [htoNat, hdigits, List.map_reverse, ← List.map_reverse, hwritten]

/-- Digits are zeros and a number as it is written. -/
theorem exists_zeros {digits : List UInt8} (hne : digits ≠ [])
    (h : ∀ b ∈ digits, isDigit b = true) (hlt : digitsValue digits < 2 ^ 64) :
    ∃ zeros : List UInt8, (∀ b ∈ zeros, b = 48) ∧
      digits = zeros ++ toDecimal (UInt64.ofNat (digitsValue digits)) := by
  induction digits with
  | nil => exact absurd rfl hne
  | cons b digits ih =>
      by_cases hb : b = 48
      · subst hb
        by_cases hlast : digits = []
        · subst hlast
          exact ⟨[], by simp, rfl⟩
        · obtain ⟨zeros, hzeros, heq⟩ := ih hlast (fun c hc => h c (by simp [hc])) hlt
          refine ⟨48 :: zeros, by simpa using hzeros, ?_⟩
          rw [digitsValue_cons_zero, List.cons_append, ← heq]
      · exact ⟨[], by simp, (toDecimal_digitsValue hb h hlt).symm⟩

/-- Reading the digits after a sign. -/
theorem readDigits_eq_some {negative : Bool} {text : List UInt8} {value : UInt64} :
    readDigits negative text = some value ↔
      ∃ zeros rest : List UInt8,
        text = zeros ++ toDecimal (if negative then 0 - value else value) ++ rest ∧
          (∀ b ∈ zeros, b = 48) ∧ ∀ b ∈ rest.head?, isDigit b = false := by
  constructor
  · intro h
    simp only [readDigits] at h
    split at h
    · cases h
    · next hne =>
        split at h
        · cases h
        · next hlt =>
            obtain ⟨zeros, hzeros, heq⟩ := exists_zeros hne
              (fun b hb => List.mem_takeWhile_imp hb) (Nat.lt_of_not_le hlt)
            refine ⟨zeros, text.dropWhile isDigit, ?_, hzeros, ?_⟩
            · have hvalue : (if negative = true then 0 - value else value) =
                  UInt64.ofNat (digitsValue (text.takeWhile isDigit)) := by
                cases negative with
                | true =>
                    obtain rfl := Option.some.inj h
                    simp
                | false => exact (Option.some.inj h).symm
              rw [hvalue, ← heq, List.takeWhile_append_dropWhile]
            · intro b hb
              have hnot := List.head?_dropWhile_not isDigit text
              rw [Option.mem_def.mp hb] at hnot
              simpa using hnot
  · rintro ⟨zeros, rest, rfl, hzeros, hrest⟩
    generalize hn : (if negative = true then 0 - value else value) = n
    obtain ⟨hne, hdigits, hvalue⟩ := toDecimal_digits n
    have hall : ∀ b ∈ zeros ++ toDecimal n, isDigit b = true := by
      intro b hb
      cases List.mem_append.mp hb with
      | inl hzero => rw [hzeros b hzero]; rfl
      | inr hdigit => exact hdigits b hdigit
    have htake : (zeros ++ toDecimal n ++ rest).takeWhile isDigit = zeros ++ toDecimal n := by
      rw [List.takeWhile_append_of_pos hall]
      cases rest with
      | nil => simp
      | cons b rest =>
          rw [List.takeWhile_cons_of_neg (by simp [hrest b (by simp)]), List.append_nil]
    have hzero : digitsValue (zeros ++ toDecimal n) = n.toNat := by
      rw [← hvalue]
      clear htake hall
      induction zeros with
      | nil => rfl
      | cons b zeros ih =>
          rw [hzeros b (by simp), List.cons_append, digitsValue_cons_zero,
            ih fun c hc => hzeros c (by simp [hc])]
    simp only [readDigits, htake, hzero]
    rw [if_neg (by simp [hne]), if_neg (Nat.not_le.mpr n.toNat_lt), UInt64.ofNat_toNat, ← hn]
    cases negative with
    | true => simp
    | false => rfl

/-- White space and a sign are taken off a text before its digits are read. -/
private theorem read_signed {R : Type*} (read : Bool → List UInt8 → R)
    {blanks sign text : List UInt8} (hblanks : ∀ b ∈ blanks, isSpace b = true)
    (hsign : sign = [] ∨ sign = [43] ∨ sign = [45]) (htext : ∀ b ∈ text.head?, isDigit b = true) :
    (match (blanks ++ (sign ++ text)).dropWhile isSpace with
      | 45 :: rest => read true rest
      | 43 :: rest => read false rest
      | rest => read false rest) = read (decide (sign = [45])) text := by
  rw [List.dropWhile_append_of_pos hblanks]
  cases hsign with
  | inl hnone =>
      subst hnone
      cases text with
      | nil => rfl
      | cons b rest =>
          have hb := htext b rfl
          rw [List.nil_append, List.dropWhile_cons_of_neg (by simp [isSpace_eq_false hb])]
          split
          · next heq =>
              obtain ⟨rfl, -⟩ := List.cons.inj heq
              exact absurd hb (by decide)
          · next heq =>
              obtain ⟨rfl, -⟩ := List.cons.inj heq
              exact absurd hb (by decide)
          · rfl
  | inr hsign =>
      cases hsign with
      | inl hplus =>
          subst hplus
          rw [List.singleton_append, List.dropWhile_cons_of_neg (by decide)]
          rfl
      | inr hminus =>
          subst hminus
          rw [List.singleton_append, List.dropWhile_cons_of_neg (by decide)]
          rfl

/-- **What `std::stoull` accepts** is what spells a number. -/
theorem stoull_eq_some (text : List UInt8) (value : UInt64) :
    stoull text = some value ↔ Spells text value := by
  constructor
  · intro h
    have hblanks : ∀ b ∈ text.takeWhile isSpace, isSpace b = true :=
      fun b hb => List.mem_takeWhile_imp hb
    have htext := (List.takeWhile_append_dropWhile (p := isSpace) (l := text)).symm
    unfold stoull at h
    split at h
    · next rest hrest =>
        obtain ⟨zeros, rest, rfl, hzeros, hend⟩ := readDigits_eq_some.mp h
        refine ⟨_, [45], zeros, rest, ?_, hblanks, .inr (.inr rfl), hzeros, hend⟩
        rw [hrest] at htext
        exact htext
    · next rest hrest =>
        obtain ⟨zeros, rest, rfl, hzeros, hend⟩ := readDigits_eq_some.mp h
        refine ⟨_, [43], zeros, rest, ?_, hblanks, .inr (.inl rfl), hzeros, hend⟩
        rw [hrest] at htext
        exact htext
    · next hrest =>
        obtain ⟨zeros, rest, heq, hzeros, hend⟩ := readDigits_eq_some.mp h
        refine ⟨_, [], zeros, rest, ?_, hblanks, .inl rfl, hzeros, hend⟩
        rw [heq] at htext
        exact htext
  · rintro ⟨blanks, sign, zeros, rest, rfl, hblanks, hsign, hzeros, hrest⟩
    have hhead : ∀ b ∈ (zeros ++ toDecimal (if sign = [45] then 0 - value else value) ++
        rest).head?, isDigit b = true := by
      intro b hb
      obtain ⟨hne, hdigits, -⟩ := toDecimal_digits (if sign = [45] then 0 - value else value)
      cases zeros with
      | cons c zeros =>
          obtain rfl : c = b := by simpa using hb
          rw [hzeros c (by simp)]
          rfl
      | nil =>
          cases hwritten : toDecimal (if sign = [45] then 0 - value else value) with
          | nil => exact absurd hwritten hne
          | cons c digits =>
              rw [hwritten] at hb hdigits
              obtain rfl : c = b := by simpa using hb
              exact hdigits c List.mem_cons_self
    have hread : stoull (blanks ++ (sign ++ (zeros ++
        toDecimal (if sign = [45] then 0 - value else value) ++ rest))) =
          readDigits (decide (sign = [45])) (zeros ++
            toDecimal (if sign = [45] then 0 - value else value) ++ rest) :=
      read_signed readDigits hblanks hsign hhead
    rw [hread]
    apply readDigits_eq_some.mpr
    refine ⟨zeros, rest, ?_, hzeros, hrest⟩
    simp only [decide_eq_true_eq]

/-- A text that spells a number does not begin with a zero byte. -/
theorem Spells.head_pos {b : UInt8} {text : List UInt8} {value : UInt64}
    (h : Spells (b :: text) value) : 0 < b.toNat := by
  apply Nat.pos_of_ne_zero
  intro hzero
  obtain rfl : b = 0 := UInt8.toNat_inj.mp hzero
  have hread := (stoull_eq_some _ _).mpr h
  cases hread

/-- **Round trip.** -/
theorem stoull_toDecimal (n : UInt64) : stoull (toDecimal n) = some n := by
  apply (stoull_eq_some _ _).mpr
  refine ⟨[], [], [], [], ?_, by simp, .inl rfl, by simp, by simp⟩
  simp

/-- The digits of a decimal number end at its point. -/
private theorem takeWhile_numeral (d : Numeral) :
    (d.whole ++ d.tail).takeWhile isDigit = d.whole := by
  rw [List.takeWhile_append_of_pos d.whole_digits]
  unfold Numeral.tail
  cases d.fraction with
  | none => exact List.append_nil _
  | some digits =>
      rw [List.takeWhile_cons_of_neg (by decide)]
      exact List.append_nil _

/-- The text of a decimal number is read from behind its sign. -/
private theorem read_text {R : Type*} (read : Bool → List UInt8 → R) (d : Numeral) :
    (match d.text.dropWhile isSpace with
      | 45 :: rest => read true rest
      | 43 :: rest => read false rest
      | rest => read false rest) = read d.negative (d.whole ++ d.tail) := by
  have hhead : ∀ b ∈ (d.whole ++ d.tail).head?, isDigit b = true := by
    intro b hb
    cases hwhole : d.whole with
    | nil => exact absurd hwhole d.whole_ne
    | cons c rest =>
        rw [hwhole] at hb
        obtain rfl : c = b := by simpa using hb
        exact d.whole_digits c (by simp [hwhole])
  have hsign : (if d.negative then [(45 : UInt8)] else []) = [] ∨
      (if d.negative then [(45 : UInt8)] else []) = [43] ∨
      (if d.negative then [(45 : UInt8)] else []) = [45] := by
    cases d.negative with
    | true => exact .inr (.inr rfl)
    | false => exact .inl rfl
  have hread := read_signed read (List.forall_mem_nil _) hsign hhead
  rw [List.nil_append] at hread
  unfold Numeral.text
  rw [hread]
  cases d.negative <;> rfl

/-- **`std::stol` on a decimal number** gives the part before the point, or an exception
where that does not fit. -/
theorem stol_text (d : Numeral) :
    stol d.text =
      if d.integer < -(2 ^ 63) ∨ 2 ^ 63 ≤ d.integer then none else some d.integer := by
  have hread : stol d.text = readSigned d.negative (d.whole ++ d.tail) := read_text readSigned d
  rw [hread]
  unfold readSigned Numeral.integer
  rw [takeWhile_numeral, if_neg d.whole_ne]

/-- **`std::stoull` on a decimal number** that is 0 before the point. -/
theorem stoull_text_zero (d : Numeral) (h : d.integer = 0) : stoull d.text = some 0 := by
  have hread : stoull d.text = readDigits d.negative (d.whole ++ d.tail) := read_text readDigits d
  have hvalue : digitsValue d.whole = 0 := by
    unfold Numeral.integer at h
    split at h
    · omega
    · omega
  rw [hread]
  unfold readDigits
  rw [takeWhile_numeral]
  simp [d.whole_ne, hvalue]

/-- A decimal number whose text has no point has no fraction. -/
theorem Numeral.fraction_eq_none (d : Numeral) (h : 46 ∉ d.text) : d.fraction = none := by
  cases hfraction : d.fraction with
  | none => rfl
  | some digits =>
      apply absurd _ h
      unfold text tail
      rw [hfraction]
      simp

theorem Numeral.scale_pos (d : Numeral) : 0 < d.scale := Int.pow_pos (by decide)

/-- A decimal number with a minus sign is at most its part before the point. -/
theorem Numeral.numerator_le (d : Numeral)
    (h : d.negative = true ∨ digitsValue (d.fraction.getD []) = 0) :
    d.numerator ≤ d.integer * d.scale := by
  unfold numerator integer scale
  dsimp only
  cases hnegative : d.negative with
  | true =>
      rw [if_pos rfl, if_pos rfl, Int.neg_mul]
      omega
  | false =>
      have hzero : digitsValue (d.fraction.getD []) = 0 := by simpa [hnegative] using h
      rw [hzero]
      simp

theorem toDecimal_injective : Function.Injective toDecimal := by
  intro m n h
  have hread := congrArg stoull h
  rw [stoull_toDecimal, stoull_toDecimal] at hread
  exact Option.some.inj hread

/-! ## The text of an integer -/

private theorem toList_loop (bytes : ByteArray) (i : Nat) (r : List UInt8) :
    ByteArray.toList.loop bytes i r = r.reverse ++ bytes.data.toList.drop i := by
  induction i, r using ByteArray.toList.loop.induct bytes with
  | case1 i r hi ih =>
      have hsize : i < bytes.data.toList.length := by
        rw [Array.length_toList]
        exact hi
      have hget : bytes.get! i = bytes.data.toList[i] := by
        have hin : i < bytes.data.size := by simpa using hsize
        rw [Array.getElem_toList, ← getElem!_pos bytes.data i hin]
        rfl
      rw [ByteArray.toList.loop, if_pos hi, ih, List.drop_eq_getElem_cons hsize, hget]
      simp
  | case2 i r hi =>
      have hsize : bytes.data.toList.length ≤ i := by
        rw [Array.length_toList]
        exact not_lt.mp hi
      rw [ByteArray.toList.loop, if_neg hi, List.drop_eq_nil_of_le hsize, List.append_nil]

/-- The bytes of a text. -/
def bytes (s : String) : List UInt8 := s.toUTF8.toList

theorem bytes_eq (s : String) : bytes s = s.toByteArray.data.toList := by
  show ByteArray.toList.loop _ 0 [] = _
  rw [toList_loop]
  rfl

theorem bytes_append (s t : String) : bytes (s ++ t) = bytes s ++ bytes t := by
  simp [bytes_eq, String.toByteArray_append]

theorem digitsValue_append_singleton (digits : List UInt8) (b : UInt8) :
    digitsValue (digits ++ [b]) = 10 * digitsValue digits + (b.toNat - 48) := by
  simp [digitsValue]

private theorem bytes_repr_of_lt {n : Nat} (hn : n < 10) : bytes n.repr = [digitByte n] := by
  have hsmall : ∀ n < 10, n.repr.toByteArray.data.toList = [digitByte n] := by decide
  rw [bytes_eq, hsmall n hn]

private theorem bytes_repr_of_ge {n : Nat} (hn : 10 ≤ n) :
    bytes n.repr = bytes (n / 10).repr ++ [digitByte (n % 10)] := by
  rw [Nat.repr_eq_repr_append_repr hn, bytes_append, bytes_repr_of_lt (Nat.mod_lt n (by omega))]

/-- The digits of a number have its value. -/
theorem digitsValue_repr (n : Nat) : digitsValue (bytes n.repr) = n := by
  induction n using Nat.strong_induction_on with
  | _ n ih =>
      by_cases hn : n < 10
      · rw [bytes_repr_of_lt hn]
        show 10 * 0 + ((digitByte n).toNat - 48) = n
        rw [digitByte_toNat hn]
        omega
      · rw [bytes_repr_of_ge (by omega), digitsValue_append_singleton, ih (n / 10) (by omega),
          digitByte_toNat (Nat.mod_lt n (by omega))]
        omega

theorem isDigit_repr (n : Nat) : ∀ b ∈ bytes n.repr, isDigit b = true := by
  induction n using Nat.strong_induction_on with
  | _ n ih =>
      by_cases hn : n < 10
      · rw [bytes_repr_of_lt hn]
        simpa using isDigit_digitByte hn
      · rw [bytes_repr_of_ge (by omega)]
        intro b hb
        rcases List.mem_append.mp hb with hhigh | hlast
        · exact ih (n / 10) (by omega) b hhigh
        · rw [List.mem_singleton.mp hlast]
          exact isDigit_digitByte (Nat.mod_lt n (by omega))

theorem bytes_repr_ne_nil (n : Nat) : bytes n.repr ≠ [] := by
  by_cases hn : n < 10
  · rw [bytes_repr_of_lt hn]
    exact List.cons_ne_nil _ _
  · rw [bytes_repr_of_ge (by omega)]
    simp

private theorem no_fraction : ∀ digits ∈ (none : Option (List UInt8)), ∀ b ∈ digits,
    isDigit b = true := nofun

/-- An integer as a decimal number. -/
def Numeral.ofInt (v : Int) : Numeral where
  negative := decide (v < 0)
  whole := bytes v.natAbs.repr
  fraction := none
  whole_ne := bytes_repr_ne_nil _
  whole_digits := isDigit_repr _
  fraction_digits := no_fraction

namespace Numeral

theorem integer_ofInt (v : Int) : (ofInt v).integer = v := by
  unfold integer ofInt
  rw [digitsValue_repr]
  by_cases hneg : v < 0
  · rw [decide_eq_true hneg, if_pos rfl]
    omega
  · rw [decide_eq_false hneg, if_neg Bool.false_ne_true]
    omega

theorem text_ofInt (v : Int) : (ofInt v).text = bytes (toString v) := by
  show (if decide (v < 0) then [45] else []) ++ (bytes v.natAbs.repr ++ []) = bytes v.repr
  rw [List.append_nil, Int.repr_eq_if]
  by_cases hneg : v < 0
  · have habs : (-v).toNat = v.natAbs := by omega
    rw [decide_eq_true hneg, if_pos rfl, if_neg (not_le.mpr hneg), bytes_append, habs]
    congr 1
    rw [bytes_eq]
    decide
  · have habs : v.toNat = v.natAbs := by omega
    rw [decide_eq_false hneg, if_neg Bool.false_ne_true, if_pos (not_lt.mp hneg), habs,
      List.nil_append]

end Numeral

/-- **`std::stoi` on the text of an integer.** -/
theorem stoi_toString (v : Int) :
    stoi (bytes (toString v)) = if v < -(2 ^ 31) ∨ 2 ^ 31 ≤ v then none else some v := by
  unfold stoi
  rw [← Numeral.text_ofInt, stol_text, Numeral.integer_ofInt]
  by_cases hlong : v < -(2 ^ 63) ∨ 2 ^ 63 ≤ v
  · rw [if_pos hlong, if_pos (by omega)]
  · rw [if_neg hlong]

/-- **`std::stoull` on the text of an unsigned number.** -/
theorem stoull_toString {v : Int} (hlow : 0 ≤ v) (hhigh : v < 2 ^ 64) :
    stoull (bytes (toString v)) = some (UInt64.ofNat v.toNat) := by
  have hread : stoull (Numeral.ofInt v).text =
      readDigits (Numeral.ofInt v).negative ((Numeral.ofInt v).whole ++ (Numeral.ofInt v).tail) :=
    read_text readDigits _
  have hvalue : digitsValue (Numeral.ofInt v).whole = v.toNat := by
    show digitsValue (bytes v.natAbs.repr) = v.toNat
    rw [digitsValue_repr]
    omega
  have hsign : (Numeral.ofInt v).negative = false := decide_eq_false (not_lt.mpr hlow)
  rw [← Numeral.text_ofInt, hread]
  unfold readDigits
  rw [takeWhile_numeral, if_neg (Numeral.ofInt v).whole_ne, hvalue, if_neg (by omega), hsign]
  rfl

end Ekizu.Lib.Decimal
