import Ekizu.Commands.RoundTrip
import Ekizu.Components.Destinations

/-!
# The options of an interaction

The arguments of a slash command with their `to_json` and `from_json`, after
`application_command_data.hpp` and `application_command_data.cpp`.  How a value is decoded
depends on the type beside it; a value that is none of its type is taken for what it
looks like.

## Main results

* `optionValue_restores` — a value of the type's alternative comes back.
* `interactionOption_restores` — options come back, at any depth.
-/

namespace Ekizu.Commands

open Components Lib Lib.Json

/-! ## The types -/

namespace ApplicationCommandOptionType

def string : ApplicationCommandOptionType := 3

def integer : ApplicationCommandOptionType := 4

def boolean : ApplicationCommandOptionType := 5

def user : ApplicationCommandOptionType := 6

def channel : ApplicationCommandOptionType := 7

def role : ApplicationCommandOptionType := 8

def mentionable : ApplicationCommandOptionType := 9

def number : ApplicationCommandOptionType := 10

def attachment : ApplicationCommandOptionType := 11

/-- The types whose value is a snowflake. -/
def ofSnowflakes : List ApplicationCommandOptionType :=
  [user, channel, role, mentionable, attachment]

end ApplicationCommandOptionType

structure ApplicationCommandInteractionDataOption where
  name : String := ""
  type : ApplicationCommandOptionType := 0
  value : Option ApplicationCommandOptionValue := none
  options : List ApplicationCommandInteractionDataOption := []
  focused : Option Bool := none

/-! ## Values -/

/-- The nearest number with 53 significant bits, the even one of two. -/
def roundDouble (n : Nat) : Nat :=
  let unit := 2 ^ (n.log2 - 52)
  let rest := n % unit
  if unit < 2 * rest ∨ (2 * rest = unit ∧ n / unit % 2 = 1) then (n / unit + 1) * unit
  else n / unit * unit

/-- `static_cast` of an integer to `double`. -/
def toDouble (i : Int) : Rat := i.sign * roundDouble i.natAbs

/-- `get` as a `double`. -/
def getDouble : Json → Option Rat
  | .float q => some q
  | .integer i => some (toDouble i.toInt)
  | .unsigned n => some (toDouble n.toNat)
  | _ => none

/-- `int64_t`. -/
def int64 : IntType := ⟨true, .w64⟩

/-- `option_value_to_json`. -/
def optionValueToJson : ApplicationCommandOptionValue → Option Json
  | .monostate => some .null
  | .string s => Value.write s
  | .integer i => some (.integer i)
  | .double q => some (.float q)
  | .boolean b => Value.write b
  | .snowflake s => Value.write s

/-- A value is written if there is one. -/
def serializeValue (value : Option ApplicationCommandOptionValue) : Put := fun _ =>
  match value with
  | none => some none
  | some v => (optionValueToJson v).map some

/-- The fallback of `option_value_from_json`. -/
def fallbackValue : Json → Option ApplicationCommandOptionValue
  | .string s => some (.string s)
  | .boolean b => some (.boolean b)
  | .integer i => some (.integer i)
  | .unsigned n => some (.integer n.toInt64)
  | .float q => some (.double q)
  | _ => none

section

variable [FloatCast]

/-- The `switch` of `option_value_from_json`; the inner `none` is a `break`. -/
def typedValue (j : Json) (type : ApplicationCommandOptionType) :
    Option (Option ApplicationCommandOptionValue) :=
  if type = ApplicationCommandOptionType.string then
    match j with
    | .string s => some (some (.string s))
    | _ => some none
  else if type = ApplicationCommandOptionType.integer then
    match j with
    | .integer _ | .unsigned _ | .string _ =>
        (((Decodable.ofInt int64).deserializeImpl .plain j).into (int64.cast 0)).map fun v =>
          some (.integer (Int64.ofInt v.val))
    | _ => some none
  else if type = ApplicationCommandOptionType.number then
    if j.isNumber || j.isString then
      (((Decodable.other getDouble).deserializeImpl .plain j).into 0).map fun q =>
        some (.double q)
    else some none
  else if type = ApplicationCommandOptionType.boolean then
    match j with
    | .boolean b => some (some (.boolean b))
    | _ => some none
  else if type ∈ ApplicationCommandOptionType.ofSnowflakes then
    (((Decodable.ofClass getSnowflake).deserializeImpl .plain j).into ⟨0⟩).map fun id =>
      some (.snowflake id)
  else some none

/-- `option_value_from_json`; the outer `none` is an exception. -/
def optionValueFromJson (j : Json) (type : ApplicationCommandOptionType) :
    Option (Option ApplicationCommandOptionValue) :=
  if j.isNull then some none
  else do
    match ← typedValue j type with
    | some v => return some v
    | none => return fallbackValue j

end

/-! ## Options -/

namespace ApplicationCommandInteractionDataOption

/-- A nested option is smaller. -/
theorem sizeOf_lt {o o' : ApplicationCommandInteractionDataOption} (h : o' ∈ o.options) :
    sizeOf o' < sizeOf o := by
  have hlist := List.sizeOf_lt_of_mem h
  obtain ⟨⟩ := o
  simp only [mk.sizeOf_spec] at hlist ⊢
  omega

/-- The options that are written: not an empty list. -/
def writtenOptions (o : ApplicationCommandInteractionDataOption) :
    Option (List ApplicationCommandInteractionDataOption) :=
  if o.options.isEmpty then none else some o.options

theorem writtenOptions_of_isEmpty {o : ApplicationCommandInteractionDataOption}
    (h : o.options.isEmpty = true) : o.writtenOptions = none := if_pos h

theorem writtenOptions_of_not_isEmpty {o : ApplicationCommandInteractionDataOption}
    (h : ¬ o.options.isEmpty = true) : o.writtenOptions = some o.options := if_neg h

variable [FloatCast]

def toJson (o : ApplicationCommandInteractionDataOption) : Option Json :=
  let options : Put := fun _ =>
    if o.options.isEmpty then some none
    else (o.options.attach.mapM fun o' => toJson o'.1).map fun js => some (.array js)
  writeAll .null
    [("name", serialize o.name), ("type", serialize o.type), ("focused", serialize o.focused),
     ("options", options), ("value", serializeValue o.value)]
termination_by sizeOf o
decreasing_by exact sizeOf_lt o'.2

/-- The number of an enumeration under `"type"`. -/
def deserializeType (j : Json) : Option ApplicationCommandOptionType :=
  if (j.get "type").isNull then some 0 else (getNumber 8 (j.get "type")).map UInt64.toUInt8

/-- What is under `"value"`, decoded for the type. -/
def deserializeValue (j : Json) (type : ApplicationCommandOptionType) :
    Option (Option ApplicationCommandOptionValue) :=
  if (j.get "value").isNull then some none else optionValueFromJson (j.get "value") type

def fromJson (j : Json) : Option ApplicationCommandInteractionDataOption := do
  let nested :=
    match _h : j.get "options" with
    | .null => some []
    | .array elements => elements.attach.mapM fun element => fromJson element.1
    | _ => none
  let name ← deserialize j "name"
  let type ← deserializeType j
  let focused ← deserialize j "focused"
  let options ← nested
  let value ← deserializeValue j type
  return { name, type, value, options, focused }
termination_by sizeOf j
decreasing_by exact ApplicationCommandOption.sizeOf_get_lt _h element.2

instance : Value ApplicationCommandInteractionDataOption where
  write := toJson
  get := fromJson
  init := {}

/-- The members of an option. -/
def puts (o : ApplicationCommandInteractionDataOption) : List (String × Put) :=
  [("name", serialize o.name), ("type", serialize o.type), ("focused", serialize o.focused),
   ("options", serialize o.writtenOptions),
   ("value", serializeValue o.value)]

/-- The nested options are encoded like any other list. -/
theorem toJson_eq (o : ApplicationCommandInteractionDataOption) :
    o.toJson = writeAll .null o.puts := by
  rw [toJson, puts]
  congr
  funext j
  by_cases hempty : o.options.isEmpty = true
  · rw [if_pos hempty, writtenOptions_of_isEmpty hempty]
    rfl
  · rw [if_neg hempty, writtenOptions_of_not_isEmpty hempty, mapM_attach]
    show _ = ((o.options.mapM toJson).map Json.array).map some
    rw [Option.map_map]
    rfl

theorem fromJson_eq (j : Json) : fromJson j = (do
    let name ← deserialize j "name"
    let type ← deserializeType j
    let focused ← deserialize j "focused"
    let options ← deserialize j "options"
    let value ← deserializeValue j type
    return { name, type, value, options, focused }) := by
  rw [fromJson]
  refine bind_congr fun name => bind_congr fun type => bind_congr fun focused => ?_
  congr 1
  rw [deserialize]
  split
  · next hnull =>
      rw [hnull]
      rfl
  · next elements helements =>
      rw [helements, mapM_attach]
      show elements.mapM fromJson = (elements.mapM fromJson).map id
      rw [Option.map_id, id]
  · next hnull harray =>
      cases hv : j.get "options" with
      | null => exact absurd hv hnull
      | array elements => exact absurd hv (harray elements)
      | boolean | unsigned | integer | float | string | object => rfl

theorem nodup_puts (o : ApplicationCommandInteractionDataOption) :
    (o.puts.map Prod.fst).Nodup := by
  show List.Nodup ["name", "type", "focused", "options", "value"]
  decide

end ApplicationCommandInteractionDataOption

/-! ## Coming back -/

namespace ApplicationCommandOptionValue

/-- The alternative that a type calls for. -/
def CalledFor (type : ApplicationCommandOptionType) : ApplicationCommandOptionValue → Prop
  | monostate => False
  | string _ => type = ApplicationCommandOptionType.string
  | integer _ => type = ApplicationCommandOptionType.integer
  | double _ => type = ApplicationCommandOptionType.number
  | boolean _ => type = ApplicationCommandOptionType.boolean
  | snowflake _ => type ∈ ApplicationCommandOptionType.ofSnowflakes

end ApplicationCommandOptionValue

theorem int64_cast_toInt (i : Int64) : Int64.ofInt (int64.cast i.toInt).val = i := by
  have hfits : int64.Fits i.toInt := by
    have hlow := i.le_toInt
    have hhigh := i.toInt_lt
    show -(2 ^ 63) ≤ i.toInt ∧ i.toInt < 2 ^ 63
    omega
  rw [IntType.cast_of_fits hfits, Int64.ofInt_toInt]

variable [FloatCast]

/-- **A value of the alternative that its type calls for** comes back. -/
theorem optionValue_restores {v : ApplicationCommandOptionValue}
    {type : ApplicationCommandOptionType} (h : v.CalledFor type) :
    ∃ j, optionValueToJson v = some j ∧ j.isNull = false ∧
      optionValueFromJson j type = some (some v) := by
  cases v with
  | monostate => cases h
  | string s =>
      obtain rfl := h
      exact ⟨.string s, rfl, rfl, rfl⟩
  | integer i =>
      obtain rfl := h
      refine ⟨.integer i, rfl, rfl, ?_⟩
      show some (some (ApplicationCommandOptionValue.integer
        (Int64.ofInt (int64.cast i.toInt).val))) = _
      rw [int64_cast_toInt]
  | double q =>
      obtain rfl := h
      exact ⟨.float q, rfl, rfl, rfl⟩
  | boolean b =>
      obtain rfl := h
      exact ⟨.boolean b, rfl, rfl, rfl⟩
  | snowflake s =>
      have htyped : typedValue (.string s.id.toNat.repr) type =
          some (some (.snowflake s)) := by
        have hread : ((Decodable.ofClass getSnowflake).deserializeImpl .plain
            (.string s.id.toNat.repr)).into ⟨0⟩ = some s := by
          show (Outcome.ofGet (getSnowflake _)).into _ = _
          rw [getSnowflake_repr]
          rfl
        have hmem : type ∈ ApplicationCommandOptionType.ofSnowflakes := h
        have hother : ∀ t ∈ ApplicationCommandOptionType.ofSnowflakes,
            t ≠ ApplicationCommandOptionType.string ∧ t ≠ ApplicationCommandOptionType.integer ∧
              t ≠ ApplicationCommandOptionType.number ∧
                t ≠ ApplicationCommandOptionType.boolean := by
          decide +kernel
        obtain ⟨hstring, hinteger, hnumber, hboolean⟩ := hother type hmem
        unfold typedValue
        rw [if_neg hstring, if_neg hinteger, if_neg hnumber, if_neg hboolean,
          if_pos hmem, hread]
        rfl
      refine ⟨.string s.id.toNat.repr, rfl, rfl, ?_⟩
      unfold optionValueFromJson
      rw [htyped]
      rfl

/-- Each value that is present is of the alternative that its option's type calls for, at
every depth. -/
inductive ApplicationCommandInteractionDataOption.Typed :
    ApplicationCommandInteractionDataOption → Prop
  | intro {o : ApplicationCommandInteractionDataOption}
    (value : ∀ v ∈ o.value, v.CalledFor o.type) (options : ∀ o' ∈ o.options, Typed o') : Typed o

namespace ApplicationCommandInteractionDataOption

/-- A typed option can be encoded. -/
theorem Typed.exists_toJson {o : ApplicationCommandInteractionDataOption} (h : o.Typed) :
    ∃ out, o.toJson = some out := by
  induction h with
  | @intro o hvalue hoptions ih =>
      rw [toJson_eq]
      apply exists_writeAll_null o.nodup_puts
      simp only [puts, List.forall_mem_cons]
      refine ⟨⟨_, rfl⟩, ⟨_, rfl⟩, exists_serializeOptional_iff.mpr fun b _ => ⟨_, rfl⟩, ?_, ?_,
        nofun⟩
      · rw [exists_serializeOptional_iff]
        intro list hlist
        rw [exists_writeElements_iff]
        intro o' hmem
        by_cases hempty : o.options.isEmpty = true
        · rw [writtenOptions_of_isEmpty hempty] at hlist
          cases hlist
        · rw [writtenOptions_of_not_isEmpty hempty] at hlist
          obtain rfl := Option.some.inj hlist
          exact ih o' hmem
      · cases hpresent : o.value with
        | none => exact ⟨none, rfl⟩
        | some v =>
            obtain ⟨j, hwrite, -⟩ := optionValue_restores (hvalue v hpresent)
            refine ⟨some j, ?_⟩
            rw [serializeValue, hwrite]
            rfl

/-- The members of a typed option other than its options come back. -/
theorem Typed.fromJson_written {o : ApplicationCommandInteractionDataOption} (h : o.Typed)
    {out : Json} (hwrite : o.toJson = some out) :
    fromJson out = (deserialize out "options").map fun options => { o with options } := by
  rw [toJson_eq] at hwrite
  have hkeys := o.nodup_puts
  have hname : deserialize out "name" = some o.name :=
    deserialize_plain hwrite hkeys (by simp [puts]) take_text
  have htype : deserializeType out = some o.type := by
    obtain ⟨w, hput, hget⟩ := get_written hwrite hkeys
      (show ("type", serialize o.type) ∈ o.puts by simp [puts])
    obtain rfl := Option.some.inj hput
    rw [deserializeType, hget]
    exact getNumber_code id o.type
  have hfocused : deserialize out "focused" = some o.focused := by
    apply deserialize_plain hwrite hkeys (by simp [puts])
    intro w hput
    cases hflag : o.focused with
    | none =>
        rw [hflag] at hput
        obtain rfl := Option.some.inj hput
        rfl
    | some b =>
        rw [hflag] at hput
        obtain rfl := Option.some.inj hput
        rfl
  have hvalue : deserializeValue out o.type = some o.value := by
    obtain ⟨w, hput, hget⟩ := get_written hwrite hkeys
      (show ("value", serializeValue o.value) ∈ o.puts by simp [puts])
    rw [deserializeValue, hget]
    cases h with
    | intro hcalled hoptions =>
        cases hpresent : o.value with
        | none =>
            rw [hpresent] at hput
            obtain rfl := Option.some.inj hput
            rfl
        | some v =>
            obtain ⟨j, hj, hnull, hread⟩ := optionValue_restores (hcalled v hpresent)
            rw [hpresent, serializeValue, hj] at hput
            obtain rfl := Option.some.inj hput
            rw [Option.getD_some, if_neg (by simp [hnull]), hread]
  rw [fromJson_eq, hname, htype, hfocused]
  show (deserialize out "options").bind (fun options => (deserializeValue out o.type).bind _) = _
  rw [hvalue]
  cases deserialize (A := List ApplicationCommandInteractionDataOption) out "options" <;> rfl

/-- The options of an option come back if each of them does. -/
theorem deserialize_options {o : ApplicationCommandInteractionDataOption} {out : Json}
    (hwrite : o.toJson = some out) (h : ∀ o' ∈ o.options, Restores o') :
    deserialize out "options" = some o.options := by
  rw [toJson_eq] at hwrite
  obtain ⟨w, hput, hget⟩ := get_written hwrite o.nodup_puts
    (show ("options", serialize o.writtenOptions) ∈ o.puts by simp [puts])
  rw [deserialize, hget]
  by_cases hempty : o.options.isEmpty = true
  · rw [writtenOptions_of_isEmpty hempty] at hput
    obtain rfl := Option.some.inj hput
    rw [List.isEmpty_iff.mp hempty]
    rfl
  · rw [writtenOptions_of_not_isEmpty hempty] at hput
    obtain ⟨v, hv, rfl⟩ := Option.map_eq_some_iff.mp hput
    obtain ⟨js, hjs, rfl⟩ := Option.map_eq_some_iff.mp hv
    show (js.mapM Value.get).map id = some o.options
    rw [(restores_list hjs).mpr h]
    rfl

end ApplicationCommandInteractionDataOption

open ApplicationCommandInteractionDataOption in
/-- **Slash-command arguments decode what they encode**, at every depth. -/
theorem interactionOption_restores (o : ApplicationCommandInteractionDataOption)
    (h : o.Typed) : Restores o := by
  induction h with
  | @intro o hvalue hoptions ih =>
      have htyped : o.Typed := .intro hvalue hoptions
      obtain ⟨out, hwrite⟩ := htyped.exists_toJson
      show o.toJson.bind fromJson = some o
      rw [hwrite, Option.bind_some, htyped.fromJson_written hwrite,
        deserialize_options hwrite ih]
      cases o
      rfl

/-- A command with a subcommand in a group, with a value of each kind. -/
def lookupArguments : ApplicationCommandInteractionDataOption :=
  { name := "archive", type := 2
    options := [
      { name := "lookup", type := 1
        options := [
          { name := "text", type := 3, value := some (.string "7"), focused := some true },
          { name := "limit", type := 4, value := some (.integer (-3)) },
          { name := "pinned", type := 5, value := some (.boolean false) },
          { name := "author", type := 6, value := some (.snowflake ⟨80351110224678912⟩) },
          { name := "score", type := 10, value := some (.double (1 / 2)) }] }] }

omit [FloatCast] in
theorem interactionOption_restores_lookup :
    letI : FloatCast := ⟨fun _ => 0⟩
    Restores lookupArguments := by
  let : FloatCast := ⟨fun _ => 0⟩
  apply interactionOption_restores
  refine .intro (by rintro _ ⟨⟩) ?_
  intro lookup hlookup
  obtain rfl := List.mem_singleton.mp hlookup
  refine .intro (by rintro _ ⟨⟩) ?_
  simp only [List.forall_mem_cons]
  refine ⟨?_, ?_, ?_, ?_, ?_, nofun⟩
  · exact .intro (by rintro _ ⟨⟩; exact rfl) nofun
  · exact .intro (by rintro _ ⟨⟩; exact rfl) nofun
  · exact .intro (by rintro _ ⟨⟩; exact rfl) nofun
  · exact .intro (by rintro _ ⟨⟩; exact .head _) nofun
  · exact .intro (by rintro _ ⟨⟩; exact rfl) nofun

end Ekizu.Commands
