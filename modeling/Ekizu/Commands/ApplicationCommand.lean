import Ekizu.Components.JsonUtil
import Ekizu.Lib.SortedMap
import Mathlib.Data.String.Basic

/-!
# Application commands

The options and the fields of an application command with their `to_json` and
`from_json`, after `application_command.hpp`, `application_command.cpp` and
`bulk_overwrite_application_commands.cpp`.  Options are nested to any depth.
-/

namespace Ekizu.Commands

open Components Lib Lib.Json

/-! ## The types -/

/-- Enumerations with 8 bits; every number is a value of them. -/
abbrev ApplicationCommandOptionType := UInt8

abbrev ApplicationCommandType := UInt8

abbrev ApplicationIntegrationType := UInt8

abbrev InteractionContextType := UInt8

abbrev ChannelType := UInt8

/-- `std::map<std::string, std::string>`. -/
abbrev Localizations := SortedMap String String (· < ·)

/-- The value of an option in an interaction. -/
inductive ApplicationCommandOptionValue where
  | monostate
  | string (s : String)
  | integer (i : Int64)
  | double (q : Rat)
  | boolean (b : Bool)
  | snowflake (s : Snowflake)

inductive ApplicationCommandOptionChoiceValue where
  | string (s : String)
  | integer (i : Int64)
  | double (q : Rat)

/-- `std::variant<int64_t, double>`. -/
inductive Numeric where
  | integer (i : Int64)
  | double (q : Rat)

structure ApplicationCommandOptionChoice where
  name : String := ""
  nameLocalizations : Option Localizations := none
  value : ApplicationCommandOptionChoiceValue := .string ""

structure ApplicationCommandOption where
  type : ApplicationCommandOptionType := 0
  name : String := ""
  nameLocalizations : Option Localizations := none
  description : String := ""
  descriptionLocalizations : Option Localizations := none
  required : Bool := false
  choices : Option (List ApplicationCommandOptionChoice) := none
  options : Option (List ApplicationCommandOption) := none
  channelTypes : Option (List ChannelType) := none
  minValue : Option Numeric := none
  maxValue : Option Numeric := none
  minLength : Option Int32 := none
  maxLength : Option Int32 := none
  autocomplete : Bool := false
  value : ApplicationCommandOptionValue := .monostate

structure ApplicationCommandCreateFields where
  name : String := ""
  nameLocalizations : Option Localizations := none
  description : Option String := none
  descriptionLocalizations : Option Localizations := none
  options : Option (List ApplicationCommandOption) := none
  defaultMemberPermissions : Option String := none
  integrationTypes : Option (List ApplicationIntegrationType) := none
  contexts : Option (List InteractionContextType) := none
  type : ApplicationCommandType := 1
  nsfw : Bool := false

/-! ## Members -/

/-- The texts of an object, `none` where a value is no text. -/
def getTexts (members : List (String × Json)) : Option (List (String × String)) :=
  members.mapM fun member =>
    match member.2 with
    | .string s => some (member.1, s)
    | _ => none

instance : Value Localizations where
  write m := some (.object (m.entries.map fun e => (e.1, .string e.2)))
  get
    | .object members => (getTexts members).map fun entries => SortedMap.insertAll ∅ entries
    | _ => none
  init := ∅

/-- A flag is written if it is set. -/
def serializeFlag (flag : Bool) : Put := fun _ =>
  some (if flag then some (.boolean flag) else none)

/-- An optional member that nothing reads back. -/
def serializeOptional {A : Type} (write : A → Json) (value : Option A) : Put := fun _ =>
  some (value.map write)

/-- What is written for numbers of 8 bits, for an `int` and for a numeric variant. -/
def writeCodes (codes : List UInt8) : Json :=
  .array (codes.map fun code => .unsigned code.toUInt64)

def writeInt (i : Int32) : Json := .integer i.toInt64

/-- `serialize_numeric_variant`. -/
def Numeric.write : Numeric → Json
  | integer i => .integer i
  | double q => .float q

variable [FloatCast]

/-- The number under `"type"`, where there is something under it. -/
def readType (default_ : UInt8) (j : Json) : Option UInt8 :=
  match j.find? "type" with
  | none => some default_
  | some v => Value.get v

/-! ## Choices -/

/-- What is written for the alternative of a choice's value. -/
def ApplicationCommandOptionChoiceValue.put : ApplicationCommandOptionChoiceValue → Put
  | string s => serialize s
  | integer i => constant (.integer i)
  | double q => constant (.float q)

def ApplicationCommandOptionChoice.toJson (c : ApplicationCommandOptionChoice) : Option Json :=
  writeAll .null
    [("name", serialize c.name), ("name_localizations", serialize c.nameLocalizations),
     ("value", c.value.put)]

/-- `std::visit` on the value of a new choice, which holds a text. -/
def ApplicationCommandOptionChoice.fromJson (j : Json) :
    Option ApplicationCommandOptionChoice := do
  let name ← deserialize j "name"
  let nameLocalizations ← deserialize j "name_localizations"
  let value ← deserialize (A := String) j "value"
  return { name, nameLocalizations, value := .string value }

instance : Value ApplicationCommandOptionChoice where
  write := ApplicationCommandOptionChoice.toJson
  get := ApplicationCommandOptionChoice.fromJson
  init := {}

/-! ## Options -/

omit [FloatCast] in
/-- The list of a subtype. -/
theorem mapM_attach {A B : Type} (f : A → Option B) (as : List A) :
    as.attach.mapM (fun a => f a.1) = as.mapM f := by
  conv_rhs => rw [← List.attach_map_subtype_val as, List.mapM_map]
  rfl

namespace ApplicationCommandOption

omit [FloatCast] in
/-- A nested option is smaller. -/
theorem sizeOf_lt {o o' : ApplicationCommandOption} {os : List ApplicationCommandOption}
    (h : o.options = some os) (hmem : o' ∈ os) : sizeOf o' < sizeOf o := by
  have hlist := List.sizeOf_lt_of_mem hmem
  obtain ⟨⟩ := o
  obtain rfl : _ = some os := h
  simp only [mk.sizeOf_spec, Option.some.sizeOf_spec]
  omega

def toJson (o : ApplicationCommandOption) : Option Json :=
  let options : Put := fun _ =>
    match _h : o.options with
    | none => some none
    | some os => (os.attach.mapM fun o' => toJson o'.1).map fun js => some (.array js)
  writeAll .null
    [("type", serialize o.type), ("name", serialize o.name),
     ("description", serialize o.description), ("required", serializeFlag o.required),
     ("autocomplete", serializeFlag o.autocomplete),
     ("name_localizations", serialize o.nameLocalizations),
     ("description_localizations", serialize o.descriptionLocalizations),
     ("choices", serialize o.choices), ("options", options),
     ("channel_types", serializeOptional writeCodes o.channelTypes),
     ("min_value", serializeOptional Numeric.write o.minValue),
     ("max_value", serializeOptional Numeric.write o.maxValue),
     ("min_length", serializeOptional writeInt o.minLength),
     ("max_length", serializeOptional writeInt o.maxLength)]
termination_by sizeOf o
decreasing_by exact sizeOf_lt _h o'.2

omit [FloatCast] in
/-- What an array under a key contains is smaller. -/
theorem sizeOf_get_lt {j element : Json} {key : String} {elements : List Json}
    (h : j.get key = .array elements) (hmem : element ∈ elements) : sizeOf element < sizeOf j := by
  have hlist := List.sizeOf_lt_of_mem hmem
  cases j with
  | object members =>
      simp only [Json.get, Json.find?] at h
      cases hfound : members.lookup key with
      | none =>
          rw [hfound] at h
          cases h
      | some v =>
          rw [hfound] at h
          obtain rfl : v = .array elements := h
          have hin : (key, Json.array elements) ∈ members := by
            obtain ⟨before, after, rfl, -⟩ := List.lookup_eq_some_iff.mp hfound
            exact List.mem_append_right _ List.mem_cons_self
          have hmember := List.sizeOf_lt_of_mem hin
          simp only [Prod.mk.sizeOf_spec, Json.array.sizeOf_spec, Json.object.sizeOf_spec]
            at hmember ⊢
          omega
  | null | boolean | unsigned | integer | float | string | array => cases h

def fromJson (j : Json) : Option ApplicationCommandOption := do
  let nested :=
    match _h : j.get "options" with
    | .null => some none
    | .array elements => (elements.attach.mapM fun element => fromJson element.1).map some
    | _ => none
  let type ← readType 0 j
  let name ← deserialize j "name"
  let description ← deserialize j "description"
  let required ← deserialize j "required"
  let autocomplete ← deserialize j "autocomplete"
  let nameLocalizations ← deserialize j "name_localizations"
  let descriptionLocalizations ← deserialize j "description_localizations"
  let choices ← deserialize j "choices"
  let options ← nested
  return { type, name, description, required, autocomplete, nameLocalizations,
           descriptionLocalizations, choices, options }
termination_by sizeOf j
decreasing_by exact sizeOf_get_lt _h element.2

instance : Value ApplicationCommandOption where
  write := toJson
  get := fromJson
  init := {}

end ApplicationCommandOption

/-! ## Commands -/

namespace ApplicationCommandCreateFields

def toJson (f : ApplicationCommandCreateFields) : Option Json :=
  writeAll .null
    [("name", serialize f.name), ("type", serialize f.type),
     ("description", serialize (f.description.getD "No description provided")),
     ("nsfw", serializeFlag f.nsfw), ("name_localizations", serialize f.nameLocalizations),
     ("description_localizations", serialize f.descriptionLocalizations),
     ("options", serialize f.options),
     ("default_member_permissions", serialize f.defaultMemberPermissions),
     ("integration_types", serializeOptional writeCodes f.integrationTypes),
     ("contexts", serializeOptional writeCodes f.contexts)]

def fromJson (j : Json) : Option ApplicationCommandCreateFields := do
  let name ← deserialize j "name"
  let type ← readType 1 j
  let nsfw ← deserialize j "nsfw"
  let description ← deserialize j "description"
  let options ← deserialize j "options"
  return { name, type, nsfw, description, options }

instance : Value ApplicationCommandCreateFields where
  write := toJson
  get := fromJson
  init := {}

end ApplicationCommandCreateFields

end Ekizu.Commands
