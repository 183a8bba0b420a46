import Ekizu.Components.JsonUtil
import Mathlib.Data.Int.Order.Basic

/-!
# Decoding into a variable

`deserialize_int`, `deserialize_impl` and `deserialize` of `json_util.hpp` with the variable
that they decode into, which stays as it is where a text is no number.  The template takes
an optional of the decoded type as well, and asks some of its questions about the one
type and some about the other.

## Main results

* `ofText_toString` — which integers a text of digits sets.
* `take_eq_into`, `takeOptional_eq_into` — what `Member.take` makes of a member is what
  decoding leaves in a value-initialized variable.
* `decodesAlike_iff` — when a text sets what the number sets.
* `optionalAgrees_iff` — when an optional is set as a plain variable is.
-/

namespace Ekizu.Components

open Lib Lib.Json

/-! ## Integral types -/

inductive Width where
  | w8
  | w16
  | w32
  | w64
  deriving DecidableEq

def Width.bits : Width → Nat
  | w8 => 8
  | w16 => 16
  | w32 => 32
  | w64 => 64

/-- An integral type other than `bool`. -/
structure IntType where
  signed : Bool
  width : Width
  deriving DecidableEq

namespace IntType

/-- The range of the type. -/
def Fits (t : IntType) (v : Int) : Prop :=
  if t.signed then -(2 ^ (t.width.bits - 1)) ≤ v ∧ v < 2 ^ (t.width.bits - 1)
  else 0 ≤ v ∧ v < 2 ^ t.width.bits

instance (t : IntType) (v : Int) : Decidable (t.Fits v) := by
  unfold Fits
  infer_instance

abbrev Val (t : IntType) := { v : Int // t.Fits v }

theorem two_mul_half (t : IntType) : (2 : Int) ^ t.width.bits = 2 * 2 ^ (t.width.bits - 1) := by
  cases t.width <;> rfl

/-- `static_cast` of an integer. -/
def cast (t : IntType) (v : Int) : t.Val :=
  ⟨if t.signed then Int.bmod v (2 ^ t.width.bits) else v % 2 ^ t.width.bits, by
    have hpos : (0 : Int) < 2 ^ (t.width.bits - 1) := Int.pow_pos (by decide)
    have htwo := two_mul_half t
    unfold Fits
    by_cases hsigned : t.signed = true
    · have hlow := Int.le_bmod (x := v) (m := 2 ^ t.width.bits) (Nat.two_pow_pos _)
      have hhigh := Int.bmod_lt (x := v) (m := 2 ^ t.width.bits) (Nat.two_pow_pos _)
      push_cast at hlow hhigh
      rw [if_pos hsigned, if_pos hsigned]
      omega
    · rw [if_neg hsigned, if_neg hsigned]
      exact ⟨Int.emod_nonneg _ (by omega), Int.emod_lt_of_pos _ (by omega)⟩⟩

theorem cast_of_fits {t : IntType} {v : Int} (h : t.Fits v) : (t.cast v).val = v := by
  have hpos : (0 : Int) < 2 ^ (t.width.bits - 1) := Int.pow_pos (by decide)
  have htwo := two_mul_half t
  show (if t.signed then Int.bmod v (2 ^ t.width.bits) else v % 2 ^ t.width.bits) = v
  unfold Fits at h
  by_cases hsigned : t.signed = true
  · rw [if_pos hsigned] at h ⊢
    rw [Int.bmod_eq_of_le]
    · push_cast
      omega
    · push_cast
      omega
  · rw [if_neg hsigned] at h ⊢
    exact Int.emod_eq_of_lt h.1 h.2

/-- `deserialize_int`: the reader is chosen by the sign alone. -/
def ofText (t : IntType) (text : String) : Option t.Val :=
  if t.signed then (Decimal.stoi (Decimal.bytes text)).map t.cast
  else (Decimal.stoull (Decimal.bytes text)).map fun n => t.cast n.toNat

section

variable [FloatCast]

/-- `static_cast` of a floating-point number. -/
def castFloat (t : IntType) (q : Rat) : t.Val :=
  if t.Fits (truncate q) then t.cast (truncate q) else t.cast (FloatCast.undefined q).toNat

/-- `get` of a number. -/
def getNumber (t : IntType) : Json → Option t.Val
  | .unsigned n => some (t.cast n.toNat)
  | .integer i => some (t.cast i.toInt)
  | .float q => some (t.castFloat q)
  | _ => none

/-- `get`; the types that the library does not know itself take a boolean too. -/
def get (t : IntType) : Json → Option t.Val
  | .boolean b => if t.width = .w64 then none else some (t.cast (if b then 1 else 0))
  | j => t.getNumber j

end

end IntType

/-! ## The template -/

/-- A type that `deserialize_impl` decodes, by the branch that it takes there. -/
inductive Decodable (A : Type) where
  | unorderedMap (ofObject : List (String × Json) → Option A)
  | integral (read : Json → Option A) (ofText : String → Option A)
  | other (read : Json → Option A)

/-- The variable: of the decoded type, or an optional of it. -/
inductive Destination where
  | plain
  | optional
  deriving DecidableEq

/-- What happens to the variable. -/
inductive Outcome (A : Type) where
  | threw
  | unchanged
  | assigned (a : A)

namespace Outcome

def ofGet {A : Type} : Option A → Outcome A
  | some a => assigned a
  | none => threw

def map {A B : Type} (f : A → B) : Outcome A → Outcome B
  | threw => threw
  | unchanged => unchanged
  | assigned a => assigned (f a)

/-- The variable afterwards, `none` where there was an exception. -/
def into {A : Type} (dest : A) : Outcome A → Option A
  | threw => none
  | unchanged => some dest
  | assigned a => some a

variable {A B : Type}

@[simp] theorem into_ofGet (dest : A) (got : Option A) : (ofGet got).into dest = got := by
  cases got <;> rfl

@[simp] theorem into_map_ofGet (f : A → B) (dest : B) (got : Option A) :
    ((ofGet got).map f).into dest = got.map f := by
  cases got <;> rfl

end Outcome

namespace Decodable

variable {A K V : Type}

def isUnorderedMap : Decodable A → Bool
  | unorderedMap _ => true
  | _ => false

/-- What a text sets. -/
def ofText : Decodable A → String → Option A
  | integral _ ofText => ofText
  | _ => fun _ => none

/-- `dest.clear()` of the branch for maps is no member of an optional. -/
def compiles (T : Decodable A) : Destination → Bool
  | .plain => true
  | .optional => !T.isUnorderedMap

/-- `deserialize_int`; an optional is neither a signed nor an unsigned type. -/
def deserializeInt (ofText : String → Option A) (text : String) : Destination → Outcome A
  | .plain =>
      match ofText text with
      | some a => .assigned a
      | none => .unchanged
  | .optional => .unchanged

/-- `deserialize_impl`. -/
def deserializeImpl (T : Decodable A) (dest : Destination) (value : Json) : Outcome A :=
  if value.isNull then .unchanged
  else
    match T with
    | unorderedMap ofObject =>
        match value with
        | .object members => .ofGet (ofObject members)
        | _ => .unchanged
    | integral read ofText =>
        match value with
        | .string text => deserializeInt ofText text dest
        | value => .ofGet (read value)
    | other read => .ofGet (read value)

/-- `deserialize`: its result, and what happens to the variable. -/
def deserialize (T : Decodable A) (dest : Destination) (data : Json) (key : String) :
    Bool × Outcome A :=
  if data.contains key && !(data.get key).isNull then
    (true, T.deserializeImpl dest (data.get key))
  else
    (false, .unchanged)

/-! ## The types -/

/-- `emplace`, which leaves an entry under the key as it is. -/
def emplace [DecidableEq K] (map : List (K × V)) (key : K) (value : V) : List (K × V) :=
  if (map.lookup key).isSome then map else map ++ [(key, value)]

/-- The loop over the members of an object. -/
def readMembers [DecidableEq K] (key : String → Option K) (read : Json → Option V)
    (map : List (K × V)) : List (String × Json) → Option (List (K × V))
  | [] => some map
  | (k, v) :: members => do
      let k ← key k
      let v ← read v
      readMembers key read (emplace map k v) members

/-- A map; a key that is integral stays 0 where its text is no number. -/
def mapOf [DecidableEq K] (key : Decodable K) (init : K) (read : Json → Option V) :
    Decodable (List (K × V)) :=
  unorderedMap <| readMembers (fun text =>
    match key with
    | integral _ ofText => some ((ofText text).getD init)
    | other readKey => readKey (.string text)
    | unorderedMap _ => none) read []

def string : Decodable String := other Value.get

/-- `std::vector`. -/
def vector (read : Json → Option A) : Decodable (List A) :=
  other fun
    | .array elements => elements.mapM read
    | _ => none

/-- A class with a `from_json`. -/
def ofClass (fromJson : Json → Option A) : Decodable A := other fromJson

def boolean : Decodable Bool :=
  integral Value.get fun text => (Decimal.stoull (Decimal.bytes text)).map (· != 0)

section

variable [FloatCast]

def ofInt (t : IntType) : Decodable t.Val := integral t.get t.ofText

/-- An enumeration, as its underlying type. -/
def enumeration (t : IntType) : Decodable t.Val := other t.getNumber

end

/-- A type of the members, where 0 stands for what is left alone. -/
def ofValue (A : Type) [Value A] : Decodable A :=
  match Value.ofText (A := A) with
  | some ofText => integral Value.get fun text => some (ofText text)
  | none => other Value.get

end Decodable

/-! ## The members of a structure -/

section

variable {A : Type} [Value A]

/-- A member is what decoding leaves in a value-initialized variable. -/
theorem take_eq_into (j : Json) :
    Member.take (A := A) j =
      ((Decodable.ofValue A).deserializeImpl .plain j).into Value.init := by
  unfold Decodable.ofValue Decodable.deserializeImpl
  show (if j.isNull then some Value.init else readValue (fun f s => f s) id j) = _
  by_cases hnull : j.isNull = true
  · rw [if_pos hnull, if_pos hnull]
    rfl
  · rw [if_neg hnull, if_neg hnull]
    unfold readValue
    cases htext : Value.ofText (A := A) with
    | none => simp
    | some ofText =>
        cases j with
        | string text => rfl
        | null => exact absurd rfl hnull
        | boolean | unsigned | integer | float | array | object => simp

/-- An optional member is what decoding leaves in an empty optional. -/
theorem takeOptional_eq_into (j : Json) :
    Member.take (A := Option A) j =
      (((Decodable.ofValue A).deserializeImpl .optional j).map some).into none := by
  unfold Decodable.ofValue Decodable.deserializeImpl
  show (if j.isNull then some none else readValue (A := A) (fun _ _ => none) some j) = _
  by_cases hnull : j.isNull = true
  · rw [if_pos hnull, if_pos hnull]
    rfl
  · rw [if_neg hnull, if_neg hnull]
    unfold readValue
    cases htext : Value.ofText (A := A) with
    | none => simp
    | some ofText =>
        cases j with
        | string text => rfl
        | null => exact absurd rfl hnull
        | boolean | unsigned | integer | float | array | object => simp

end

/-! ## Texts and numbers -/

namespace Decodable

variable {A : Type}

/-- `deserialize` into a variable of the type; `none` is an exception. -/
def deserializeInto (T : Decodable A) (dest : A) (data : Json) (key : String) :
    Option (Bool × A) :=
  ((T.deserialize .plain data key).2.into dest).map
    fun dest => ((T.deserialize .plain data key).1, dest)

/-- `deserialize` into an optional. -/
def deserializeOptional (T : Decodable A) (dest : Option A) (data : Json) (key : String) :
    Option (Bool × Option A) :=
  (((T.deserialize .optional data key).2.map some).into dest).map
    fun dest => ((T.deserialize .optional data key).1, dest)

section

variable {T : Decodable A} {dest : Destination} {data value : Json} {key : String}

theorem deserialize_of_isNull (h : (data.get key).isNull = true) :
    T.deserialize dest data key = (false, .unchanged) := by
  unfold deserialize
  rw [h, Bool.not_true, Bool.and_false, if_neg Bool.false_ne_true]

theorem contains_of_not_isNull (h : (data.get key).isNull = false) : data.contains key = true := by
  unfold Json.contains
  cases hfind : data.find? key with
  | some value => rfl
  | none =>
      rw [Json.get, hfind] at h
      exact absurd h (by simp [Json.isNull])

theorem deserialize_of_not_isNull (h : (data.get key).isNull = false) :
    T.deserialize dest data key = (true, T.deserializeImpl dest (data.get key)) := by
  unfold deserialize
  rw [contains_of_not_isNull h, h]
  rfl

theorem deserializeImpl_of_not_isString {read : Json → Option A} {ofText : String → Option A}
    (hnull : value.isNull = false) (hstring : value.isString = false) :
    (integral read ofText).deserializeImpl dest value = .ofGet (read value) := by
  unfold deserializeImpl
  rw [hnull, if_neg Bool.false_ne_true]
  cases value with
  | string text => exact absurd hstring (by simp [isString])
  | null | boolean | unsigned | integer | float | array | object => rfl

end

end Decodable

namespace IntType

/-- An integer as the JSON library keeps it. -/
def number (v : Int) : Json :=
  if v < 0 then .integer (Int64.ofInt v) else .unsigned (UInt64.ofNat v.toNat)

section

variable {t : IntType} {v : Int}

theorem range_le (h : t.Fits v) : -(2 ^ 63) ≤ v ∧ v < 2 ^ 64 := by
  unfold Fits at h
  cases hsigned : t.signed <;> cases hwidth : t.width <;>
    simp [hsigned, hwidth, Width.bits] at h <;> omega

theorem nonneg_of_not_signed (hsigned : t.signed = false) (h : t.Fits v) : 0 ≤ v := by
  unfold Fits at h
  rw [hsigned, if_neg Bool.false_ne_true] at h
  exact h.1

theorem int_of_narrow (hsigned : t.signed = true) (hwidth : t.width ≠ .w64) (h : t.Fits v) :
    -(2 ^ 31) ≤ v ∧ v < 2 ^ 31 := by
  unfold Fits at h
  rw [if_pos hsigned] at h
  cases hw : t.width with
  | w64 => exact absurd hw hwidth
  | w8 | w16 | w32 =>
      simp only [hw, Width.bits] at h
      omega

/-- **The integers that a text sets**: those of an unsigned type, and of a signed one those
that an `int` holds. -/
theorem ofText_toString (v : t.Val) :
    t.ofText (toString v.val) =
      if t.signed = true ∧ (v.val < -(2 ^ 31) ∨ 2 ^ 31 ≤ v.val) then none else some v := by
  have hback : t.cast v.val = v := Subtype.ext (cast_of_fits v.property)
  unfold ofText
  cases hsigned : t.signed with
  | true =>
      rw [if_pos rfl, Decimal.stoi_toString]
      by_cases hint : v.val < -(2 ^ 31) ∨ 2 ^ 31 ≤ v.val
      · rw [if_pos hint, if_pos ⟨rfl, hint⟩]
        rfl
      · rw [if_neg hint, if_neg (fun h => hint h.2), Option.map_some, hback]
  | false =>
      have hlow := nonneg_of_not_signed hsigned v.property
      have hhigh := (range_le v.property).2
      have hnat : ((UInt64.ofNat v.val.toNat).toNat : Int) = v.val := by
        rw [UInt64.toNat_ofNat_of_lt' (by rw [UInt64.size]; omega)]
        omega
      rw [if_neg Bool.false_ne_true, Decimal.stoull_toString hlow hhigh, Option.map_some, hnat,
        hback, if_neg (fun h => Bool.false_ne_true h.1)]

theorem get_number [FloatCast] (v : t.Val) : t.get (number v.val) = some v := by
  have hback : t.cast v.val = v := Subtype.ext (cast_of_fits v.property)
  have hrange := range_le v.property
  unfold number
  by_cases hneg : v.val < 0
  · have hsigned : t.signed = true := by
      by_contra hns
      have hlow := nonneg_of_not_signed (Bool.not_eq_true _ ▸ hns) v.property
      omega
    have hfits := v.property
    have hint : (Int64.ofInt v.val).toInt = v.val :=
      Int64.toInt_ofInt_of_le (by omega) (by omega)
    rw [if_pos hneg]
    show some (t.cast (Int64.ofInt v.val).toInt) = some v
    rw [hint, hback]
  · have hnat : ((UInt64.ofNat v.val.toNat).toNat : Int) = v.val := by
      rw [UInt64.toNat_ofNat_of_lt' (by rw [UInt64.size]; omega)]
      omega
    rw [if_neg hneg]
    show some (t.cast ((UInt64.ofNat v.val.toNat).toNat : Int)) = some v
    rw [hnat, hback]

end

section

variable [FloatCast]

/-- **Stringified integers decode like numbers**: a member that holds the text of an
integer leaves the variable as the member that holds the number does. -/
def DecodesAlike (t : IntType) (v dest : t.Val) (key : String) (others : List (String × Json)) :
    Prop :=
  (Decodable.ofInt t).deserializeInto dest
      (.object ((key, .string (toString v.val)) :: others)) key =
    (Decodable.ofInt t).deserializeInto dest (.object ((key, number v.val) :: others)) key

variable {t : IntType} (v dest : t.Val) (key : String) (others : List (String × Json))

/-- The number sets the variable. -/
theorem deserializeInto_number :
    (Decodable.ofInt t).deserializeInto dest (.object ((key, number v.val) :: others)) key =
      some (true, v) := by
  have hget : (Json.object ((key, number v.val) :: others)).get key = number v.val := by
    simp [Json.get, find?]
  have hnull : (number v.val).isNull = false := by
    unfold number
    split <;> rfl
  have hstring : (number v.val).isString = false := by
    unfold number
    split <;> rfl
  have himpl : (Decodable.ofInt t).deserializeImpl .plain (number v.val) = .assigned v := by
    unfold Decodable.ofInt
    rw [Decodable.deserializeImpl_of_not_isString hnull hstring, get_number]
    rfl
  unfold Decodable.deserializeInto
  rw [Decodable.deserialize_of_not_isNull (by rw [hget, hnull]), hget, himpl]
  rfl

/-- The text sets it where the reader of the type takes the integer. -/
theorem deserializeInto_text :
    (Decodable.ofInt t).deserializeInto dest
        (.object ((key, .string (toString v.val)) :: others)) key =
      some (true, (t.ofText (toString v.val)).getD dest) := by
  have hget : (Json.object ((key, .string (toString v.val)) :: others)).get key =
      .string (toString v.val) := by
    simp [Json.get, find?]
  have himpl : (Decodable.ofInt t).deserializeImpl .plain (.string (toString v.val)) =
      Decodable.deserializeInt t.ofText (toString v.val) .plain := rfl
  unfold Decodable.deserializeInto
  rw [Decodable.deserialize_of_not_isNull (by rw [hget]; rfl), hget, himpl]
  unfold Decodable.deserializeInt
  cases t.ofText (toString v.val) <;> rfl

/-- **A text decodes like the number** for unsigned types, for signed types below 64 bits
and for the integers of an `int`; else only where the variable held the integer before. -/
theorem decodesAlike_iff :
    DecodesAlike t v dest key others ↔
      t.signed = false ∨ t.width ≠ .w64 ∨ (-(2 ^ 31) ≤ v.val ∧ v.val < 2 ^ 31) ∨ dest = v := by
  unfold DecodesAlike
  rw [deserializeInto_number, deserializeInto_text, ofText_toString]
  by_cases hlost : t.signed = true ∧ (v.val < -(2 ^ 31) ∨ 2 ^ 31 ≤ v.val)
  · have hwide : t.width = .w64 := by
      by_contra hwidth
      have hint := int_of_narrow hlost.1 hwidth v.property
      omega
    have hint : ¬ (-(2 ^ 31) ≤ v.val ∧ v.val < 2 ^ 31) := by omega
    rw [if_pos hlost, Option.getD_none]
    constructor
    · intro heq
      exact .inr (.inr (.inr (Prod.mk.inj (Option.some.inj heq)).2))
    · rintro (hsigned | hwidth | hint' | rfl)
      · exact absurd (hlost.1.symm.trans hsigned) (by decide)
      · exact absurd hwide hwidth
      · exact absurd hint' hint
      · rfl
  · rw [if_neg hlost]
    have hread : t.signed = false ∨ (-(2 ^ 31) ≤ v.val ∧ v.val < 2 ^ 31) := by
      by_cases hsigned : t.signed = true
      · right
        have hint : ¬ (v.val < -(2 ^ 31) ∨ 2 ^ 31 ≤ v.val) := fun h => hlost ⟨hsigned, h⟩
        omega
      · exact .inl (Bool.not_eq_true _ ▸ hsigned)
    refine iff_of_true rfl ?_
    rcases hread with hsigned | hint
    · exact .inl hsigned
    · exact .inr (.inr (.inl hint))

end

/-- The text of 2147483648 leaves a 64-bit signed integer at 0. -/
theorem decodesAlike_int64 :
    letI : FloatCast := ⟨fun _ => 0⟩
    ¬ DecodesAlike ⟨true, .w64⟩ ⟨2147483648, by decide⟩ ⟨0, by decide⟩ "id" [] := by
  let : FloatCast := ⟨fun _ => 0⟩
  unfold DecodesAlike
  rw [deserializeInto_number, deserializeInto_text, ofText_toString]
  decide

end IntType

/-! ## Optionals -/

namespace Decodable

variable {A : Type}

/-- **An optional decodes like a plain variable**: it can be decoded into, it takes the value
that a plain variable takes, and it stays empty without a member. -/
def OptionalAgrees (T : Decodable A) (data : Json) (key : String) : Prop :=
  T.compiles .optional = true ∧
  ((data.get key).isNull = false → ∀ a, (T.deserialize .plain data key).2 = .assigned a →
    T.deserializeOptional none data key = some (true, some a)) ∧
  ((data.get key).isNull = true → T.deserializeOptional none data key = some (false, none))

section

variable {T : Decodable A} {data value : Json} {key : String} {a : A}

/-- Away from the texts of integral types, the optional takes the branch that the plain
variable takes. -/
theorem deserializeImpl_optional
    (htext : ∀ text a, value = .string text → T.ofText text ≠ some a)
    (h : T.deserializeImpl .plain value = .assigned a) :
    T.deserializeImpl .optional value = .assigned a := by
  unfold deserializeImpl at h ⊢
  by_cases hnull : value.isNull = true
  · rw [if_pos hnull] at h
    cases h
  · rw [if_neg hnull] at h ⊢
    cases T with
    | unorderedMap ofObject => exact h
    | other read => exact h
    | integral read ofText =>
        cases value with
        | string text =>
            have hread : ofText text = none :=
              Option.eq_none_iff_forall_ne_some.mpr fun a => htext text a rfl
            simp only [deserializeInt, hread] at h
            cases h
        | null | boolean | unsigned | integer | float | array | object => exact h

/-- A text that sets an integral variable leaves the optional as it is. -/
theorem deserializeImpl_text {text : String} (h : T.ofText text = some a) :
    T.deserializeImpl .plain (.string text) = .assigned a ∧
      T.deserializeImpl .optional (.string text) = .unchanged := by
  cases T with
  | unorderedMap ofObject => cases h
  | other read => cases h
  | integral read ofText =>
      have hread : ofText text = some a := h
      constructor
      · show deserializeInt ofText text .plain = .assigned a
        simp only [deserializeInt, hread]
      · rfl

end

/-- **An optional decodes like a plain variable** exactly for the types other than maps, and
where the member is no text that an integral type reads. -/
theorem optionalAgrees_iff (T : Decodable A) (data : Json) (key : String) :
    T.OptionalAgrees data key ↔
      T.isUnorderedMap = false ∧
        ∀ text a, data.find? key = some (.string text) → T.ofText text ≠ some a := by
  constructor
  · rintro ⟨hcompiles, hset, -⟩
    refine ⟨by simpa [compiles] using hcompiles, ?_⟩
    intro text a hfind hread
    have hget : data.get key = .string text := by rw [Json.get, hfind, Option.getD_some]
    have hnull : (data.get key).isNull = false := by rw [hget]; rfl
    have himpl := deserializeImpl_text hread
    have hplain : (T.deserialize .plain data key).2 = .assigned a := by
      rw [deserialize_of_not_isNull hnull, hget, himpl.1]
    have hopt := hset hnull a hplain
    unfold deserializeOptional at hopt
    rw [deserialize_of_not_isNull hnull, hget, himpl.2] at hopt
    exact absurd hopt (by simp [Outcome.map, Outcome.into])
  · rintro ⟨hmap, htext⟩
    refine ⟨by simpa [compiles] using hmap, ?_, ?_⟩
    · intro hnull a hplain
      rw [deserialize_of_not_isNull hnull] at hplain
      have hopt := deserializeImpl_optional (fun text a hvalue => htext text a ?_) hplain
      · unfold deserializeOptional
        rw [deserialize_of_not_isNull hnull, hopt]
        rfl
      · have hpresent := contains_of_not_isNull hnull
        unfold Json.contains at hpresent
        obtain ⟨value, hfind⟩ := Option.isSome_iff_exists.mp hpresent
        rw [Json.get, hfind, Option.getD_some] at hvalue
        rw [hfind, hvalue]
    · intro hnull
      unfold deserializeOptional
      rw [deserialize_of_isNull hnull]
      rfl

/-- The text of 5 sets a plain 64-bit integer and leaves an optional one empty. -/
theorem optionalAgrees_uint64 :
    letI : FloatCast := ⟨fun _ => 0⟩
    ¬ (ofInt ⟨false, .w64⟩).OptionalAgrees (.object [("rate", .string (toString (5 : Int)))])
        "rate" := by
  let : FloatCast := ⟨fun _ => 0⟩
  intro hagrees
  have hread := IntType.ofText_toString (t := ⟨false, .w64⟩) ⟨5, by decide⟩
  have himpl := deserializeImpl_text (T := ofInt ⟨false, .w64⟩) hread
  have hopt := hagrees.2.1 rfl _ (by rw [deserialize_of_not_isNull rfl]; exact himpl.1)
  cases hopt

end Decodable

end Ekizu.Components
