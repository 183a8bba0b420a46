import Mathlib.Algebra.Group.Int.Defs
import Mathlib.Algebra.Group.Nat.Defs
import Mathlib.Data.Rat.Defs

/-!
# JSON values

A parsed document as the JSON library keeps it: non-negative integers that fit
64 bits, negative ones, and floating-point numbers are kept apart.  A number
becomes an unsigned integer by `static_cast`, which says nothing about a
floating-point number outside of the range; the value there is a parameter.
-/

namespace Ekizu.Lib

/-- A JSON value. -/
inductive Json where
  | null
  | boolean (b : Bool)
  | unsigned (n : UInt64)
  | integer (i : Int64)
  | float (q : Rat)
  | string (s : String)
  | array (elements : List Json)
  | object (members : List (String × Json))

namespace Json

def isNull : Json → Bool
  | null => true
  | _ => false

def isBoolean : Json → Bool
  | boolean _ => true
  | _ => false

def isNumber : Json → Bool
  | unsigned _ | integer _ | float _ => true
  | _ => false

def isNumberUnsigned : Json → Bool
  | unsigned _ => true
  | _ => false

def isString : Json → Bool
  | string _ => true
  | _ => false

def isObject : Json → Bool
  | object _ => true
  | _ => false

/-- The member of an object under a key, `none` where there is none and where
the value is no object. -/
def find? (key : String) : Json → Option Json
  | object members => members.lookup key
  | _ => none

/-- `contains`. -/
def contains (j : Json) (key : String) : Bool := (j.find? key).isSome

/-- `operator[]` on a key that the object contains. -/
def get (j : Json) (key : String) : Json := (j.find? key).getD null

/-- The characters of a string. -/
def text : Json → String
  | string s => s
  | _ => ""

/-- The integer part of a number, towards zero. -/
def truncate (q : Rat) : Int := q.num.tdiv q.den

/-- `static_cast` of a floating-point number to an unsigned type of that many
bits. -/
def castFloat (undefined : Rat → UInt64) (bits : Nat) (q : Rat) : UInt64 :=
  if 0 ≤ truncate q ∧ truncate q < 2 ^ bits then UInt64.ofNat (truncate q).toNat
  else undefined q

/-- `get` of a number as an unsigned type of that many bits. -/
def toUnsigned (undefined : Rat → UInt64) (bits : Nat) : Json → UInt64
  | unsigned n => UInt64.ofNat (n.toNat % 2 ^ bits)
  | integer i => UInt64.ofNat (i.toUInt64.toNat % 2 ^ bits)
  | float q => castFloat undefined bits q
  | _ => 0

end Json

end Ekizu.Lib
