import Ekizu.Lib.Json
import Mathlib.Tactic.Common

/-!
# Decoding

What `json_util.hpp` and the JSON library throw at.  A `Shape` is the part of a
C++ type that decides it: `get` of a value as a type of that shape returns, or
throws an exception that nothing on the way catches.

`json_util::deserialize` reads a member of an object: an absent or null member
and, for an integral type, a string are never an exception.

## Main results

* `deserialize_eq_takes` — what `deserialize` reads of a member of an object.
* `reads_record` — a struct is read one field after the other.
-/

namespace Ekizu.Gateway

open Lib

/-- The shape of a type.  `narrow` and `wide` are the integral types below 64 bits
and of 64 bits, `number` the enumerations and `double`, `anything` the types whose
`from_json` takes every value, `elements` an array that is skipped where there is
none, `pair` a `std::array` of two, `map` a map keyed by `Snowflake`,
`numericOption` the value of an option of type Number.

A `union` is read as the struct that the number under `"type"` selects, or not at
all.  A `tagged` struct has one more member, read as the number under `"type"`
says.  `option` is a struct with a tag whose members nest. -/
inductive Shape where
  | boolean
  | narrow
  | wide
  | number
  | string
  | snowflake
  | permissions
  | status
  | numericOption
  | anything
  | array (s : Shape)
  | elements (s : Shape)
  | pair (s : Shape)
  | map (s : Shape)
  | record (fields : List (String × Shape))
  | union (alternatives : List (Nat × List (String × Shape)))
  | tagged (fields : List (String × Shape)) (key : String) (alternatives : List (Nat × Shape))
  | option (fields : List (String × Shape)) (options key : String)
      (alternatives : List (Nat × Shape))

/-- The members that a struct's `from_json` reads. -/
abbrev Fields := List (String × Shape)

/-- `std::is_integral_v`. -/
def Shape.isIntegral : Shape → Bool
  | .boolean | .narrow | .wide => true
  | _ => false

/-- A member of an object: its value, and whether `get` of it returns. -/
structure Member where
  value : Json
  reads : Shape → Bool

/-- `json_util::deserialize` on a member that is there. -/
def Member.deserializes (m : Member) (s : Shape) : Bool :=
  m.value.isNull || (s.isIntegral && m.value.isString) || m.reads s

/-- The members of an object. -/
abbrev Members := List (String × Member)

namespace Members

/-- `json_util::deserialize` of a key. -/
def deserialize (ms : Members) (key : String) (s : Shape) : Bool :=
  match ms.lookup key with
  | some m => m.deserializes s
  | none => true

/-- The `from_json` of a struct. -/
def fields (ms : Members) (fields : Fields) : Bool :=
  fields.all fun (key, s) => ms.deserialize key s

/-- The number under `"type"`, as an 8-bit enumeration. -/
def type (undefined : Rat → UInt64) (ms : Members) : Option Nat :=
  match ms.lookup "type" with
  | some m =>
      if m.value.isNumber then some ((m.value.toUnsigned undefined 8).toNat % 2 ^ 8) else none
  | none => none

/-- A member that is not null, read as the alternative that `"type"` selects. -/
def selected (undefined : Rat → UInt64) (ms : Members) (key : String)
    (alternatives : List (Nat × Shape)) : Bool :=
  match ms.lookup key, ms.type undefined with
  | some m, some n => m.value.isNull || ((alternatives.lookup n).map m.reads).getD true
  | _, _ => true

end Members

/-- The text of a `Snowflake`: `std::stoull` throws on digits beyond 64 bits. -/
def snowflakeFits (text : String) : Bool :=
  text.toList.isEmpty || !text.toList.all Char.isDigit ||
    text.toList.foldl (fun n c => 10 * n + (c.toNat - 48)) 0 < 2 ^ 64

/-- `get` of a value that is no array or object, and of one that is as a type that
has no use for it. -/
def readsScalar (j : Json) : Shape → Bool
  | .boolean => j.isBoolean
  | .narrow => j.isNumber || j.isBoolean
  | .wide | .number => j.isNumber
  | .string | .status => j.isString
  | .snowflake =>
      match j with
      | .string s => snowflakeFits s
      | _ => true
  | .permissions => j.isNull || j.isNumber || j.isString
  | .numericOption => !j.isString
  | .array _ | .pair _ => false
  | _ => true

section

variable (undefined : Rat → UInt64)

mutual

/-- Whether `get` of a value as a type of that shape returns. -/
def reads : Json → Shape → Bool
  | .array elements => fun s =>
      match s with
      | .array s | .elements s => (readsElements elements).all (· s)
      | .pair s => 2 ≤ elements.length && ((readsElements elements).take 2).all (· s)
      | s => readsScalar (.array elements) s
  | .object members => fun s =>
      match s with
      | .map s =>
          (readsMembers members).all fun (key, m) => snowflakeFits key && m.reads s
      | .record fields => (readsMembers members).fields fields
      | .union alternatives =>
          match (readsMembers members).type undefined with
          | some n => ((alternatives.lookup n).map (readsMembers members).fields).getD true
          | none => true
      | .tagged fields key alternatives =>
          (readsMembers members).fields fields &&
            (readsMembers members).selected undefined key alternatives
      | .option fields options key alternatives =>
          (readsMembers members).fields fields &&
            (readsMembers members).deserialize options
              (.array (.option fields options key alternatives)) &&
            (readsMembers members).selected undefined key alternatives
      | s => readsScalar (.object members) s
  | j => fun s => readsScalar j s

def readsElements : List Json → List (Shape → Bool)
  | [] => []
  | j :: elements => reads j :: readsElements elements

def readsMembers : List (String × Json) → Members
  | [] => []
  | (key, j) :: members => (key, ⟨j, reads j⟩) :: readsMembers members

end

variable {undefined}

/-- A struct takes what is no object for one without members. -/
theorem reads_record_of_not_object {j : Json} {fields : Fields} (h : j.isObject = false) :
    reads undefined j (.record fields) = true := by
  cases j with
  | object members => simp [Json.isObject] at h
  | null | boolean | unsigned | integer | float | string => rfl
  | array elements => rfl

/-- The members of an object, by key. -/
theorem lookup_readsMembers (members : List (String × Json)) (key : String) :
    (readsMembers undefined members).lookup key =
      (members.lookup key).map fun j => ⟨j, reads undefined j⟩ := by
  induction members with
  | nil => rfl
  | cons member members ih =>
      obtain ⟨key', j⟩ := member
      rw [readsMembers, List.lookup_cons, List.lookup_cons]
      cases key == key' with
      | true => rfl
      | false => exact ih

/-- What a member holds, or null where there is none, is deserialized without an
exception. -/
def takes (undefined : Rat → UInt64) (j : Json) (s : Shape) : Bool :=
  j.isNull || (s.isIntegral && j.isString) || reads undefined j s

theorem deserialize_eq_takes (members : List (String × Json)) (key : String) (s : Shape) :
    (readsMembers undefined members).deserialize key s =
      takes undefined ((Json.object members).get key) s := by
  have hfind : (Json.object members).find? key = members.lookup key := rfl
  rw [Members.deserialize, lookup_readsMembers, Json.get, hfind]
  cases members.lookup key <;> rfl

theorem reads_object_record {members : List (String × Json)} {fields : Fields} :
    reads undefined (.object members) (.record fields) =
      (readsMembers undefined members).fields fields := by
  rw [reads]

/-- **A struct is read** when each of its fields is. -/
theorem reads_record {j : Json} {fields : Fields} :
    reads undefined j (.record fields) = true ↔
      ∀ field ∈ fields, takes undefined (j.get field.1) field.2 = true := by
  by_cases hobject : j.isObject = true
  · cases j with
    | object members =>
        rw [reads_object_record, Members.fields, List.all_eq_true]
        simp only [deserialize_eq_takes]
    | null | boolean | unsigned | integer | float | string | array => cases hobject
  · have hnone : ∀ key, j.get key = .null := by
      intro key
      cases j with
      | object members => exact absurd rfl hobject
      | null | boolean | unsigned | integer | float | string | array => rfl
    refine iff_of_true (reads_record_of_not_object (Bool.eq_false_iff.mpr hobject)) ?_
    intro field _
    rw [hnone]
    rfl

end

end Ekizu.Gateway
