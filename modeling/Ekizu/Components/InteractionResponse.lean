import Ekizu.Components.MessageComponent

/-!
# Responses to component interactions

What a user entered into a modal, after `component_interaction_response.cpp`.  Unlike the
components, the responses keep no document, and their `"type"` is written as an `int`.
-/

namespace Ekizu.Components

open Lib Lib.Json

/-- What was selected in a menu or uploaded. -/
structure SelectResponse (V : Type) where
  id : Option UInt32 := none
  customId : String := ""
  values : List V := []
  deriving DecidableEq

abbrev StringSelectResponse := SelectResponse String

abbrev UserSelectResponse := SelectResponse Snowflake

abbrev RoleSelectResponse := SelectResponse Snowflake

abbrev MentionableSelectResponse := SelectResponse Snowflake

abbrev ChannelSelectResponse := SelectResponse Snowflake

abbrev FileUploadResponse := SelectResponse Snowflake

structure TextInputResponse where
  id : Option UInt32 := none
  customId : String := ""
  value : String := ""
  deriving DecidableEq

structure TextDisplayResponse where
  id : Option UInt32 := none
  deriving DecidableEq

structure UnknownComponentResponse where
  type : UInt8 := 0
  raw : Json := .null

/-- The child of a label or of an action row. -/
inductive InteractiveComponentResponse where
  | textInput (r : TextInputResponse)
  | stringSelect (r : StringSelectResponse)
  | userSelect (r : UserSelectResponse)
  | roleSelect (r : RoleSelectResponse)
  | mentionableSelect (r : MentionableSelectResponse)
  | channelSelect (r : ChannelSelectResponse)
  | fileUpload (r : FileUploadResponse)
  deriving DecidableEq

structure LabelResponse where
  id : Option UInt32 := none
  component : Option InteractiveComponentResponse := none

structure ActionRowResponse where
  id : Option UInt32 := none
  components : List InteractiveComponentResponse := []

inductive ComponentInteractionResponse where
  | stringSelect (r : StringSelectResponse)
  | textInput (r : TextInputResponse)
  | userSelect (r : UserSelectResponse)
  | roleSelect (r : RoleSelectResponse)
  | mentionableSelect (r : MentionableSelectResponse)
  | channelSelect (r : ChannelSelectResponse)
  | textDisplay (r : TextDisplayResponse)
  | label (r : LabelResponse)
  | actionRow (r : ActionRowResponse)
  | fileUpload (r : FileUploadResponse)
  | unknown (r : UnknownComponentResponse)

variable [FloatCast]

/-! ## Leaves -/

section

variable {V : Type} [Value V]

def SelectResponse.toJson (type : Int64) (r : SelectResponse V) : Option Json :=
  writeAll (.object [])
    [("type", constant (.integer type)), ("id", serialize r.id),
     ("custom_id", serialize r.customId), ("values", serialize r.values)]

def SelectResponse.fromJson (j : Json) : Option (SelectResponse V) := do
  let id ← deserialize j "id"
  let customId ← deserialize j "custom_id"
  let values ← deserialize j "values"
  return { id, customId, values }

end

def StringSelectResponse.toJson : StringSelectResponse → Option Json := SelectResponse.toJson 3

def StringSelectResponse.fromJson : Json → Option StringSelectResponse := SelectResponse.fromJson

def UserSelectResponse.toJson : UserSelectResponse → Option Json := SelectResponse.toJson 5

def UserSelectResponse.fromJson : Json → Option UserSelectResponse := SelectResponse.fromJson

def RoleSelectResponse.toJson : RoleSelectResponse → Option Json := SelectResponse.toJson 6

def RoleSelectResponse.fromJson : Json → Option RoleSelectResponse := SelectResponse.fromJson

def MentionableSelectResponse.toJson : MentionableSelectResponse → Option Json :=
  SelectResponse.toJson 7

def MentionableSelectResponse.fromJson : Json → Option MentionableSelectResponse :=
  SelectResponse.fromJson

def ChannelSelectResponse.toJson : ChannelSelectResponse → Option Json := SelectResponse.toJson 8

def ChannelSelectResponse.fromJson : Json → Option ChannelSelectResponse :=
  SelectResponse.fromJson

def FileUploadResponse.toJson : FileUploadResponse → Option Json := SelectResponse.toJson 19

def FileUploadResponse.fromJson : Json → Option FileUploadResponse := SelectResponse.fromJson

def TextInputResponse.toJson (r : TextInputResponse) : Option Json :=
  writeAll (.object [])
    [("type", constant (.integer 4)), ("id", serialize r.id),
     ("custom_id", serialize r.customId), ("value", serialize r.value)]

def TextInputResponse.fromJson (j : Json) : Option TextInputResponse := do
  let id ← deserialize j "id"
  let customId ← deserialize j "custom_id"
  let value ← deserialize j "value"
  return { id, customId, value }

def TextDisplayResponse.toJson (r : TextDisplayResponse) : Option Json :=
  writeAll (.object []) [("type", constant (.integer 10)), ("id", serialize r.id)]

def TextDisplayResponse.fromJson (j : Json) : Option TextDisplayResponse := do
  let id ← deserialize j "id"
  return { id }

/-! ## Labels and action rows -/

def InteractiveComponentResponse.toJson : InteractiveComponentResponse → Option Json
  | .textInput r => r.toJson
  | .stringSelect r => StringSelectResponse.toJson r
  | .userSelect r => UserSelectResponse.toJson r
  | .roleSelect r => RoleSelectResponse.toJson r
  | .mentionableSelect r => MentionableSelectResponse.toJson r
  | .channelSelect r => ChannelSelectResponse.toJson r
  | .fileUpload r => FileUploadResponse.toJson r

/-- `get` of a child, which starts from the first alternative.  Each case decodes into an
`r` of its own, which hides the child to fill in, and moves that `r` into itself. -/
def InteractiveComponentResponse.fromJson (j : Json) : Option InteractiveComponentResponse :=
  let r := textInput {}
  match typeOf j with
  | none => some r
  | some type =>
      match ComponentType.ofCode type with
      | some .selectMenu => (StringSelectResponse.fromJson j).map fun _ => r
      | some .textInput => (TextInputResponse.fromJson j).map fun _ => r
      | some .userSelect => (UserSelectResponse.fromJson j).map fun _ => r
      | some .roleSelect => (RoleSelectResponse.fromJson j).map fun _ => r
      | some .mentionableSelect => (MentionableSelectResponse.fromJson j).map fun _ => r
      | some .channelSelect => (ChannelSelectResponse.fromJson j).map fun _ => r
      | some .fileUpload => (FileUploadResponse.fromJson j).map fun _ => r
      | _ => some (.textInput {})

instance : Value InteractiveComponentResponse where
  write := InteractiveComponentResponse.toJson
  get := InteractiveComponentResponse.fromJson
  init := .textInput {}

/-- The child is written if there is one. -/
def LabelResponse.putComponent : Option InteractiveComponentResponse → Put
  | none, _ => some none
  | some c, _ => c.toJson.map some

/-- What is no object is no child. -/
def LabelResponse.readComponent (j : Json) : Option (Option InteractiveComponentResponse) :=
  if j.isObject then (InteractiveComponentResponse.fromJson j).map some else some none

def LabelResponse.toJson (r : LabelResponse) : Option Json :=
  writeAll (.object [])
    [("type", constant (.integer 18)), ("id", serialize r.id),
     ("component", putComponent r.component)]

def LabelResponse.fromJson (j : Json) : Option LabelResponse := do
  let id ← deserialize j "id"
  let component ← readComponent (j.get "component")
  return { id, component }

def ActionRowResponse.toJson (r : ActionRowResponse) : Option Json :=
  writeAll (.object [])
    [("type", constant (.integer 1)), ("id", serialize r.id),
     ("components", serialize r.components)]

def ActionRowResponse.fromJson (j : Json) : Option ActionRowResponse := do
  let id ← deserialize j "id"
  let components ← deserialize j "components"
  return { id, components }

/-! ## Responses -/

def UnknownComponentResponse.toJson (r : UnknownComponentResponse) : Option Json :=
  if r.raw.ensureObject.contains "type" then some r.raw.ensureObject
  else r.raw.ensureObject.set "type" (.unsigned r.type.toUInt64)

def ComponentInteractionResponse.toJson : ComponentInteractionResponse → Option Json
  | .stringSelect r => StringSelectResponse.toJson r
  | .textInput r => r.toJson
  | .userSelect r => UserSelectResponse.toJson r
  | .roleSelect r => RoleSelectResponse.toJson r
  | .mentionableSelect r => MentionableSelectResponse.toJson r
  | .channelSelect r => ChannelSelectResponse.toJson r
  | .textDisplay r => r.toJson
  | .label r => r.toJson
  | .actionRow r => r.toJson
  | .fileUpload r => FileUploadResponse.toJson r
  | .unknown r => r.toJson

def ComponentInteractionResponse.fromJson (j : Json) : Option ComponentInteractionResponse :=
  match typeOf j with
  | none => some (.unknown {})
  | some type =>
      match ComponentType.ofCode type with
      | some .actionRow => (ActionRowResponse.fromJson j).map .actionRow
      | some .selectMenu => (StringSelectResponse.fromJson j).map .stringSelect
      | some .textInput => (TextInputResponse.fromJson j).map .textInput
      | some .userSelect => (UserSelectResponse.fromJson j).map .userSelect
      | some .roleSelect => (RoleSelectResponse.fromJson j).map .roleSelect
      | some .mentionableSelect => (MentionableSelectResponse.fromJson j).map .mentionableSelect
      | some .channelSelect => (ChannelSelectResponse.fromJson j).map .channelSelect
      | some .textDisplay => (TextDisplayResponse.fromJson j).map .textDisplay
      | some .label => (LabelResponse.fromJson j).map .label
      | some .fileUpload => (FileUploadResponse.fromJson j).map .fileUpload
      | _ => some (.unknown { type, raw := j })

end Ekizu.Components
