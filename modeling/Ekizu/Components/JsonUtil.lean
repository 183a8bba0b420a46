import Ekizu.Lib.Decimal
import Ekizu.Lib.JsonObject
import Ekizu.Snowflake

/-!
# Encoding and decoding members

`serialize` and `deserialize` of `json_util.hpp`, and what the JSON library does for the
types under a member: `none` is an exception.  A decoded structure starts out
value-initialized, and a member that is absent or null, or whose text is no number,
stays as it is.
-/

namespace Ekizu.Components

open Lib Lib.Json

/-- What `static_cast` makes of a floating-point number outside of the range, which the
language leaves open. -/
class FloatCast where
  undefined : Rat → UInt64

/-- A type that the JSON library encodes and decodes: `to_json`, `get`, the value-initialized
value, and for an integral type what `deserialize_int` makes of a text. -/
class Value (A : Type) where
  write : A → Option Json
  get : Json → Option A
  init : A
  ofText : Option (String → A) := none

/-- A type of a member: what `serialize` does with a value, and `deserialize` with what is
under the key, or null. -/
class Member (A : Type) where
  put : A → Put
  take : Json → Option A

/-- `deserialize_impl` on a value that is not null, for an integral type without the text. -/
def readValue {A B : Type} [Value A] (text : (String → A) → String → B) (read : A → B) (j : Json) :
    Option B :=
  match j, Value.ofText (A := A) with
  | .string s, some ofText => some (text ofText s)
  | j, _ => (Value.get j).map read

instance {A : Type} [Value A] : Member A where
  put a _ := (Value.write a).map some
  take j := if j.isNull then some Value.init else readValue (A := A) (fun f s => f s) id j

/-- An empty optional is not written, and a text leaves an optional integer as it is. -/
instance {A : Type} [Value A] : Member (Option A) where
  put
    | none, _ => some none
    | some a, _ => (Value.write a).map some
  take j := if j.isNull then some none else readValue (A := A) (fun _ _ => none) some j

def serialize {A : Type} [Member A] (value : A) : Put := Member.put value

def deserialize {A : Type} [Member A] (j : Json) (key : String) : Option A :=
  Member.take (j.get key)

/-! ## Numbers -/

/-- `std::stoull` on a text, and 0 where it throws. -/
def textNumber (text : String) : UInt64 := (Decimal.stoull text.toUTF8.toList).getD 0

section

variable [FloatCast]

/-- `get` of a number as an unsigned type of that many bits. -/
def getNumber (bits : Nat) (j : Json) : Option UInt64 :=
  if j.isNumber then some (j.toUnsigned FloatCast.undefined bits) else none

/-- The same for the types that the library does not know itself, which take a boolean too. -/
def getNarrow (bits : Nat) : Json → Option UInt64
  | .boolean b => some (if b then 1 else 0)
  | j => getNumber bits j

instance : Value UInt8 where
  write n := some (.unsigned n.toUInt64)
  get j := (getNarrow 8 j).map UInt64.toUInt8
  init := 0
  ofText := some fun s => (textNumber s).toUInt8

instance : Value UInt16 where
  write n := some (.unsigned n.toUInt64)
  get j := (getNarrow 16 j).map UInt64.toUInt16
  init := 0
  ofText := some fun s => (textNumber s).toUInt16

instance : Value UInt32 where
  write n := some (.unsigned n.toUInt64)
  get j := (getNarrow 32 j).map UInt64.toUInt32
  init := 0
  ofText := some fun s => (textNumber s).toUInt32

instance : Value UInt64 where
  write n := some (.unsigned n)
  get j := getNumber 64 j
  init := 0
  ofText := some textNumber

end

instance : Value Bool where
  write b := some (.boolean b)
  get
    | .boolean b => some b
    | _ => none
  init := false
  ofText := some fun s => textNumber s != 0

/-! ## Texts, lists and snowflakes -/

instance : Value String where
  write s := some (.string s)
  get
    | .string s => some s
    | _ => none
  init := ""

instance {A : Type} [Value A] : Value (List A) where
  write as := (as.mapM Value.write).map .array
  get
    | .array elements => elements.mapM Value.get
    | _ => none
  init := []

/-- `from_json` of a `Snowflake`: what is neither a text of digits nor an unsigned number
is ignored, and `std::stoull` throws on digits beyond 64 bits. -/
def getSnowflake : Json → Option Snowflake
  | .string text =>
      if !text.toList.isEmpty && text.toList.all Char.isDigit then
        if Nat.ofDigitChars 10 text.toList 0 < 2 ^ 64 then
          some ⟨UInt64.ofNat (Nat.ofDigitChars 10 text.toList 0)⟩
        else none
      else some ⟨0⟩
  | .unsigned n => some ⟨n⟩
  | _ => some ⟨0⟩

instance : Value Snowflake where
  write s := some (.string s.id.toNat.repr)
  get := getSnowflake
  init := ⟨0⟩

/-! ## Emoji -/

structure PartialEmoji where
  id : Snowflake := ⟨0⟩
  name : String := ""
  animated : Option Bool := none
  deriving DecidableEq

def PartialEmoji.toJson (p : PartialEmoji) (j : Json) : Option Json :=
  j.writeAll
    [("id", serialize p.id), ("name", serialize p.name), ("animated", serialize p.animated)]

def PartialEmoji.fromJson (j : Json) : Option PartialEmoji := do
  let id ← deserialize j "id"
  let name ← deserialize j "name"
  let animated ← deserialize j "animated"
  return { id, name, animated }

/-- `to_json` of an emoji writes into what is under the key. -/
instance : Member (Option PartialEmoji) where
  put
    | none, _ => some none
    | some p, j => (p.toJson j).map some
  take j := if j.isNull then some none else (PartialEmoji.fromJson j).map some

/-! ## What can be encoded -/

/-- A list is mapped exactly if its elements are. -/
theorem exists_mapM_iff {A B : Type} {f : A → Option B} {as : List A} :
    (∃ bs, as.mapM f = some bs) ↔ ∀ a ∈ as, ∃ b, f a = some b := by
  induction as with
  | nil => simp
  | cons a as ih =>
      rw [List.forall_mem_cons, ← ih]
      simp only [List.mapM_cons, Option.bind_eq_bind, Option.bind_eq_some_iff, Option.pure_def,
        Option.some.injEq]
      constructor
      · rintro ⟨bs, b, hb, bs', hbs, -⟩
        exact ⟨⟨b, hb⟩, bs', hbs⟩
      · rintro ⟨⟨b, hb⟩, bs, hbs⟩
        exact ⟨b :: bs, b, hb, bs, hbs, rfl⟩

/-- A constant is written anywhere. -/
@[simp] theorem exists_constant {v j : Json} : ∃ w, constant v j = some w := ⟨_, rfl⟩

section

variable {A : Type} [Value A] {j : Json}

@[simp] theorem exists_serialize_iff {a : A} :
    (∃ w, serialize a j = some w) ↔ ∃ v, Value.write a = some v := by
  simp [serialize, Member.put]

@[simp] theorem exists_serializeOptional_iff {a : Option A} :
    (∃ w, serialize a j = some w) ↔ ∀ b ∈ a, ∃ v, Value.write b = some v := by
  cases a <;> simp [serialize, Member.put]

@[simp] theorem exists_writeElements_iff {as : List A} :
    (∃ v, Value.write as = some v) ↔ ∀ a ∈ as, ∃ v, Value.write a = some v := by
  rw [← exists_mapM_iff]
  simp [Value.write]

end

/-- A type whose values can all be encoded. -/
class Writable (A : Type) [Value A] : Prop where
  exists_write (a : A) : ∃ v, Value.write a = some v

attribute [simp] Writable.exists_write

section

variable [FloatCast]

instance : Writable UInt8 := ⟨fun _ => ⟨_, rfl⟩⟩

instance : Writable UInt16 := ⟨fun _ => ⟨_, rfl⟩⟩

instance : Writable UInt32 := ⟨fun _ => ⟨_, rfl⟩⟩

instance : Writable UInt64 := ⟨fun _ => ⟨_, rfl⟩⟩

end

instance : Writable Bool := ⟨fun _ => ⟨_, rfl⟩⟩

instance : Writable String := ⟨fun _ => ⟨_, rfl⟩⟩

instance : Writable Snowflake := ⟨fun _ => ⟨_, rfl⟩⟩

instance {A : Type} [Value A] [Writable A] : Writable (List A) := ⟨fun as => by simp⟩

end Ekizu.Components
