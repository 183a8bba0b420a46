import Ekizu.Components.JsonUtil

/-!
# Message components

The component types of `message_component.hpp` with the `to_json` and `from_json` of
`message_component.cpp`.  A component keeps the document that it was decoded from
(`raw`); `to_json` writes its members over that.
-/

namespace Ekizu.Components

open Lib Lib.Json

inductive ComponentType where
  | actionRow
  | button
  | selectMenu
  | textInput
  | userSelect
  | roleSelect
  | mentionableSelect
  | channelSelect
  | section
  | textDisplay
  | thumbnail
  | mediaGallery
  | file
  | separator
  | container
  | label
  | fileUpload
  deriving DecidableEq

namespace ComponentType

/-- The number of a type. -/
def code : ComponentType → UInt8
  | actionRow => 1
  | button => 2
  | selectMenu => 3
  | textInput => 4
  | userSelect => 5
  | roleSelect => 6
  | mentionableSelect => 7
  | channelSelect => 8
  | .section => 9
  | textDisplay => 10
  | thumbnail => 11
  | mediaGallery => 12
  | file => 13
  | separator => 14
  | container => 17
  | label => 18
  | fileUpload => 19

def all : List ComponentType :=
  [actionRow, button, selectMenu, textInput, userSelect, roleSelect, mentionableSelect,
   channelSelect, .section, textDisplay, thumbnail, mediaGallery, file, separator, container,
   label, fileUpload]

/-- The type with a number, if the enumeration has one. -/
def ofCode (n : UInt8) : Option ComponentType := all.find? fun t => t.code == n

/-- What `serialize` writes for a type. -/
def json (t : ComponentType) : Json := .unsigned t.code.toUInt64

end ComponentType

/-- An enumeration with 8 bits; every number is a value of it. -/
structure ButtonStyle where
  value : UInt8 := 0
  deriving DecidableEq

structure TextInputStyle where
  value : UInt8 := 0
  deriving DecidableEq

/-! ## The types -/

structure Button where
  id : Option UInt32 := none
  style : ButtonStyle := {}
  label : Option String := none
  emoji : Option PartialEmoji := none
  customId : Option String := none
  url : Option String := none
  skuId : Option UInt64 := none
  disabled : Bool := false
  raw : Json := .null

structure SelectOptions where
  label : String := ""
  value : String := ""
  description : Option String := none
  emoji : Option PartialEmoji := none
  default_ : Option Bool := none
  raw : Json := .null

structure SelectMenuDefaultValue where
  id : UInt64 := 0
  type : String := ""
  raw : Json := .null

structure SelectMenu where
  id : Option UInt32 := none
  customId : String := ""
  options : List SelectOptions := []
  placeholder : Option String := none
  minValues : Option UInt8 := none
  maxValues : Option UInt8 := none
  disabled : Option Bool := none
  raw : Json := .null

structure UserSelectMenu where
  id : Option UInt32 := none
  customId : String := ""
  placeholder : Option String := none
  minValues : Option UInt8 := none
  maxValues : Option UInt8 := none
  disabled : Option Bool := none
  defaultValues : Option (List SelectMenuDefaultValue) := none
  raw : Json := .null

structure RoleSelectMenu where
  id : Option UInt32 := none
  customId : String := ""
  placeholder : Option String := none
  minValues : Option UInt8 := none
  maxValues : Option UInt8 := none
  disabled : Option Bool := none
  defaultValues : Option (List SelectMenuDefaultValue) := none
  raw : Json := .null

structure MentionableSelectMenu where
  id : Option UInt32 := none
  customId : String := ""
  placeholder : Option String := none
  minValues : Option UInt8 := none
  maxValues : Option UInt8 := none
  disabled : Option Bool := none
  defaultValues : Option (List SelectMenuDefaultValue) := none
  raw : Json := .null

structure ChannelSelectMenu where
  id : Option UInt32 := none
  customId : String := ""
  placeholder : Option String := none
  minValues : Option UInt8 := none
  maxValues : Option UInt8 := none
  disabled : Option Bool := none
  channelTypes : Option (List UInt8) := none
  defaultValues : Option (List SelectMenuDefaultValue) := none
  raw : Json := .null

structure TextInput where
  id : Option UInt32 := none
  customId : String := ""
  style : TextInputStyle := {}
  label : String := ""
  minLength : Option UInt16 := none
  maxLength : Option UInt16 := none
  required : Option Bool := none
  value : Option String := none
  placeholder : Option String := none
  raw : Json := .null

structure UnfurledMediaItem where
  url : String := ""
  raw : Json := .null

structure TextDisplay where
  id : Option UInt32 := none
  content : String := ""
  raw : Json := .null

structure Thumbnail where
  id : Option UInt32 := none
  media : UnfurledMediaItem := {}
  description : Option String := none
  spoiler : Option Bool := none
  raw : Json := .null

inductive SectionAccessory where
  | button (b : Button)
  | thumbnail (t : Thumbnail)

structure Section where
  id : Option UInt32 := none
  components : List TextDisplay := []
  accessory : Option SectionAccessory := none
  raw : Json := .null

structure MediaGalleryItem where
  media : UnfurledMediaItem := {}
  description : Option String := none
  spoiler : Option Bool := none
  raw : Json := .null

structure MediaGallery where
  id : Option UInt32 := none
  items : List MediaGalleryItem := []
  raw : Json := .null

structure File where
  id : Option UInt32 := none
  file : UnfurledMediaItem := {}
  spoiler : Option Bool := none
  raw : Json := .null

structure Separator where
  id : Option UInt32 := none
  divider : Option Bool := none
  spacing : Option UInt8 := none
  raw : Json := .null

structure FileUpload where
  id : Option UInt32 := none
  customId : String := ""
  minValues : Option UInt8 := none
  maxValues : Option UInt8 := none
  required : Option Bool := none
  raw : Json := .null

/-- The child of a `Label`. -/
inductive LabelComponent where
  | textInput (t : TextInput)
  | fileUpload (f : FileUpload)
  | selectMenu (s : SelectMenu)
  | userSelect (s : UserSelectMenu)
  | roleSelect (s : RoleSelectMenu)
  | mentionableSelect (s : MentionableSelectMenu)
  | channelSelect (s : ChannelSelectMenu)

structure Label where
  id : Option UInt32 := none
  label : String := ""
  description : Option String := none
  component : LabelComponent := .textInput {}
  raw : Json := .null

structure UnknownMessageComponent where
  type : UInt8 := 0
  raw : Json := .null

inductive ActionRowComponent where
  | button (b : Button)
  | selectMenu (s : SelectMenu)
  | userSelect (s : UserSelectMenu)
  | roleSelect (s : RoleSelectMenu)
  | mentionableSelect (s : MentionableSelectMenu)
  | channelSelect (s : ChannelSelectMenu)
  | textInput (t : TextInput)
  | fileUpload (f : FileUpload)

structure ActionRow where
  id : Option UInt32 := none
  components : List ActionRowComponent := []
  raw : Json := .null

/-- `Container::Child`. -/
inductive ContainerChild where
  | actionRow (a : ActionRow)
  | section (s : Section)
  | textDisplay (t : TextDisplay)
  | thumbnail (t : Thumbnail)
  | mediaGallery (m : MediaGallery)
  | file (f : File)
  | separator (s : Separator)
  | button (b : Button)
  | selectMenu (s : SelectMenu)
  | userSelect (s : UserSelectMenu)
  | roleSelect (s : RoleSelectMenu)
  | mentionableSelect (s : MentionableSelectMenu)
  | channelSelect (s : ChannelSelectMenu)
  | unknown (u : UnknownMessageComponent)

structure Container where
  id : Option UInt32 := none
  accentColor : Option UInt32 := none
  spoiler : Option Bool := none
  components : List ContainerChild := []
  raw : Json := .null

inductive MessageComponent where
  | actionRow (a : ActionRow)
  | button (b : Button)
  | selectMenu (s : SelectMenu)
  | userSelect (s : UserSelectMenu)
  | roleSelect (s : RoleSelectMenu)
  | mentionableSelect (s : MentionableSelectMenu)
  | channelSelect (s : ChannelSelectMenu)
  | textInput (t : TextInput)
  | section (s : Section)
  | textDisplay (t : TextDisplay)
  | thumbnail (t : Thumbnail)
  | mediaGallery (m : MediaGallery)
  | file (f : File)
  | separator (s : Separator)
  | container (c : Container)
  | label (l : Label)
  | fileUpload (f : FileUpload)
  | unknown (u : UnknownMessageComponent)

/-! ## Leaves -/

section

variable [FloatCast]

instance : Value ButtonStyle where
  write s := some (.unsigned s.value.toUInt64)
  get j := (getNumber 8 j).map fun n => ⟨n.toUInt8⟩
  init := {}

instance : Value TextInputStyle where
  write s := some (.unsigned s.value.toUInt64)
  get j := (getNumber 8 j).map fun n => ⟨n.toUInt8⟩
  init := {}

/-- The number under `"type"`, as an 8-bit integer. -/
def typeOf (j : Json) : Option UInt8 :=
  match j.find? "type" with
  | some v => if v.isNumber then some (v.toUnsigned FloatCast.undefined 8).toUInt8 else none
  | none => none

def Button.toJson (b : Button) : Option Json :=
  writeAll b.raw.ensureObject
    [("type", constant ComponentType.button.json), ("id", serialize b.id),
     ("style", serialize b.style), ("label", serialize b.label), ("emoji", serialize b.emoji),
     ("custom_id", serialize b.customId), ("url", serialize b.url), ("sku_id", serialize b.skuId),
     ("disabled", serialize b.disabled)]

def Button.fromJson (j : Json) : Option Button := do
  let id ← deserialize j "id"
  let style ← deserialize j "style"
  let label ← deserialize j "label"
  let emoji ← deserialize j "emoji"
  let customId ← deserialize j "custom_id"
  let url ← deserialize j "url"
  let skuId ← deserialize j "sku_id"
  let disabled ← deserialize j "disabled"
  return { raw := j, id, style, label, emoji, customId, url, skuId, disabled }

def SelectOptions.toJson (o : SelectOptions) : Option Json :=
  writeAll o.raw.ensureObject
    [("label", serialize o.label), ("value", serialize o.value),
     ("description", serialize o.description), ("emoji", serialize o.emoji),
     ("default", serialize o.default_)]

def SelectOptions.fromJson (j : Json) : Option SelectOptions := do
  let label ← deserialize j "label"
  let value ← deserialize j "value"
  let description ← deserialize j "description"
  let emoji ← deserialize j "emoji"
  let default_ ← deserialize j "default"
  return { raw := j, label, value, description, emoji, default_ }

instance : Value SelectOptions where
  write := SelectOptions.toJson
  get := SelectOptions.fromJson
  init := {}

def SelectMenuDefaultValue.toJson (v : SelectMenuDefaultValue) : Option Json :=
  writeAll v.raw.ensureObject [("id", serialize v.id), ("type", serialize v.type)]

def SelectMenuDefaultValue.fromJson (j : Json) : Option SelectMenuDefaultValue := do
  let id ← deserialize j "id"
  let type ← deserialize j "type"
  return { raw := j, id, type }

instance : Value SelectMenuDefaultValue where
  write := SelectMenuDefaultValue.toJson
  get := SelectMenuDefaultValue.fromJson
  init := {}

def serializeSelectCommon (type : ComponentType) (id : Option UInt32) (customId : String)
    (placeholder : Option String) (minValues maxValues : Option UInt8) (disabled : Option Bool)
    (defaultValues : Option (List SelectMenuDefaultValue)) : List (String × Put) :=
  [("type", constant type.json), ("id", serialize id), ("custom_id", serialize customId),
   ("placeholder", serialize placeholder), ("min_values", serialize minValues),
   ("max_values", serialize maxValues), ("disabled", serialize disabled),
   ("default_values", serialize defaultValues)]

/-- What the select menus have in common, apart from the default values. -/
def deserializeSelectCommon (j : Json) :
    Option (Option UInt32 × String × Option String × Option UInt8 × Option UInt8 ×
      Option Bool) := do
  let id ← deserialize j "id"
  let customId ← deserialize j "custom_id"
  let placeholder ← deserialize j "placeholder"
  let minValues ← deserialize j "min_values"
  let maxValues ← deserialize j "max_values"
  let disabled ← deserialize j "disabled"
  return (id, customId, placeholder, minValues, maxValues, disabled)

/-- A select menu of options passes no default values. -/
def SelectMenu.toJson (s : SelectMenu) : Option Json :=
  writeAll s.raw.ensureObject
    (serializeSelectCommon .selectMenu s.id s.customId s.placeholder s.minValues s.maxValues
      s.disabled none ++ [("options", serialize s.options)])

def SelectMenu.fromJson (j : Json) : Option SelectMenu := do
  let (id, customId, placeholder, minValues, maxValues, disabled) ← deserializeSelectCommon j
  let options ← deserialize j "options"
  return { raw := j, id, customId, placeholder, minValues, maxValues, disabled, options }

def UserSelectMenu.toJson (s : UserSelectMenu) : Option Json :=
  writeAll s.raw.ensureObject
    (serializeSelectCommon .userSelect s.id s.customId s.placeholder s.minValues s.maxValues
      s.disabled s.defaultValues)

def UserSelectMenu.fromJson (j : Json) : Option UserSelectMenu := do
  let (id, customId, placeholder, minValues, maxValues, disabled) ← deserializeSelectCommon j
  let defaultValues ← deserialize j "default_values"
  return { raw := j, id, customId, placeholder, minValues, maxValues, disabled, defaultValues }

def RoleSelectMenu.toJson (s : RoleSelectMenu) : Option Json :=
  writeAll s.raw.ensureObject
    (serializeSelectCommon .roleSelect s.id s.customId s.placeholder s.minValues s.maxValues
      s.disabled s.defaultValues)

def RoleSelectMenu.fromJson (j : Json) : Option RoleSelectMenu := do
  let (id, customId, placeholder, minValues, maxValues, disabled) ← deserializeSelectCommon j
  let defaultValues ← deserialize j "default_values"
  return { raw := j, id, customId, placeholder, minValues, maxValues, disabled, defaultValues }

def MentionableSelectMenu.toJson (s : MentionableSelectMenu) : Option Json :=
  writeAll s.raw.ensureObject
    (serializeSelectCommon .mentionableSelect s.id s.customId s.placeholder s.minValues
      s.maxValues s.disabled s.defaultValues)

def MentionableSelectMenu.fromJson (j : Json) : Option MentionableSelectMenu := do
  let (id, customId, placeholder, minValues, maxValues, disabled) ← deserializeSelectCommon j
  let defaultValues ← deserialize j "default_values"
  return { raw := j, id, customId, placeholder, minValues, maxValues, disabled, defaultValues }

def ChannelSelectMenu.toJson (s : ChannelSelectMenu) : Option Json :=
  writeAll s.raw.ensureObject
    (serializeSelectCommon .channelSelect s.id s.customId s.placeholder s.minValues s.maxValues
      s.disabled s.defaultValues ++ [("channel_types", serialize s.channelTypes)])

def ChannelSelectMenu.fromJson (j : Json) : Option ChannelSelectMenu := do
  let (id, customId, placeholder, minValues, maxValues, disabled) ← deserializeSelectCommon j
  let defaultValues ← deserialize j "default_values"
  let channelTypes ← deserialize j "channel_types"
  return { raw := j, id, customId, placeholder, minValues, maxValues, disabled, channelTypes,
           defaultValues }

def TextInput.toJson (t : TextInput) : Option Json :=
  writeAll t.raw.ensureObject
    [("type", constant ComponentType.textInput.json), ("id", serialize t.id),
     ("custom_id", serialize t.customId), ("style", serialize t.style),
     ("label", serialize t.label), ("min_length", serialize t.minLength),
     ("max_length", serialize t.maxLength), ("required", serialize t.required),
     ("value", serialize t.value), ("placeholder", serialize t.placeholder)]

def TextInput.fromJson (j : Json) : Option TextInput := do
  let id ← deserialize j "id"
  let customId ← deserialize j "custom_id"
  let style ← deserialize j "style"
  let label ← deserialize j "label"
  let minLength ← deserialize j "min_length"
  let maxLength ← deserialize j "max_length"
  let required ← deserialize j "required"
  let value ← deserialize j "value"
  let placeholder ← deserialize j "placeholder"
  return { raw := j, id, customId, style, label, minLength, maxLength, required, value,
           placeholder }

def UnfurledMediaItem.toJson (m : UnfurledMediaItem) : Option Json :=
  writeAll m.raw.ensureObject [("url", serialize m.url)]

def UnfurledMediaItem.fromJson (j : Json) : Option UnfurledMediaItem := do
  let url ← deserialize j "url"
  return { raw := j, url }

instance : Value UnfurledMediaItem where
  write := UnfurledMediaItem.toJson
  get := UnfurledMediaItem.fromJson
  init := {}

def TextDisplay.toJson (t : TextDisplay) : Option Json :=
  writeAll t.raw.ensureObject
    [("type", constant ComponentType.textDisplay.json), ("id", serialize t.id),
     ("content", serialize t.content)]

def TextDisplay.fromJson (j : Json) : Option TextDisplay := do
  let id ← deserialize j "id"
  let content ← deserialize j "content"
  return { raw := j, id, content }

instance : Value TextDisplay where
  write := TextDisplay.toJson
  get := TextDisplay.fromJson
  init := {}

def Thumbnail.toJson (t : Thumbnail) : Option Json :=
  writeAll t.raw.ensureObject
    [("type", constant ComponentType.thumbnail.json), ("id", serialize t.id),
     ("media", serialize t.media), ("description", serialize t.description),
     ("spoiler", serialize t.spoiler)]

def Thumbnail.fromJson (j : Json) : Option Thumbnail := do
  let id ← deserialize j "id"
  let media ← deserialize j "media"
  let description ← deserialize j "description"
  let spoiler ← deserialize j "spoiler"
  return { raw := j, id, media, description, spoiler }

def MediaGalleryItem.toJson (m : MediaGalleryItem) : Option Json :=
  writeAll m.raw.ensureObject
    [("media", serialize m.media), ("description", serialize m.description),
     ("spoiler", serialize m.spoiler)]

def MediaGalleryItem.fromJson (j : Json) : Option MediaGalleryItem := do
  let media ← deserialize j "media"
  let description ← deserialize j "description"
  let spoiler ← deserialize j "spoiler"
  return { raw := j, media, description, spoiler }

instance : Value MediaGalleryItem where
  write := MediaGalleryItem.toJson
  get := MediaGalleryItem.fromJson
  init := {}

def MediaGallery.toJson (m : MediaGallery) : Option Json :=
  writeAll m.raw.ensureObject
    [("type", constant ComponentType.mediaGallery.json), ("id", serialize m.id),
     ("items", serialize m.items)]

def MediaGallery.fromJson (j : Json) : Option MediaGallery := do
  let id ← deserialize j "id"
  let items ← deserialize j "items"
  return { raw := j, id, items }

def File.toJson (f : File) : Option Json :=
  writeAll f.raw.ensureObject
    [("type", constant ComponentType.file.json), ("id", serialize f.id),
     ("file", serialize f.file), ("spoiler", serialize f.spoiler)]

def File.fromJson (j : Json) : Option File := do
  let id ← deserialize j "id"
  let file ← deserialize j "file"
  let spoiler ← deserialize j "spoiler"
  return { raw := j, id, file, spoiler }

def Separator.toJson (s : Separator) : Option Json :=
  writeAll s.raw.ensureObject
    [("type", constant ComponentType.separator.json), ("id", serialize s.id),
     ("divider", serialize s.divider), ("spacing", serialize s.spacing)]

def Separator.fromJson (j : Json) : Option Separator := do
  let id ← deserialize j "id"
  let divider ← deserialize j "divider"
  let spacing ← deserialize j "spacing"
  return { raw := j, id, divider, spacing }

def FileUpload.toJson (f : FileUpload) : Option Json :=
  writeAll f.raw.ensureObject
    [("type", constant ComponentType.fileUpload.json), ("id", serialize f.id),
     ("custom_id", serialize f.customId), ("min_values", serialize f.minValues),
     ("max_values", serialize f.maxValues), ("required", serialize f.required)]

def FileUpload.fromJson (j : Json) : Option FileUpload := do
  let id ← deserialize j "id"
  let customId ← deserialize j "custom_id"
  let minValues ← deserialize j "min_values"
  let maxValues ← deserialize j "max_values"
  let required ← deserialize j "required"
  return { raw := j, id, customId, minValues, maxValues, required }

/-! ## Components with children -/

def SectionAccessory.toJson : SectionAccessory → Option Json
  | .button b => b.toJson
  | .thumbnail t => t.toJson

/-- The `switch` over the type of an accessory; of any other type there is none. -/
def SectionAccessory.fromJson (j : Json) : Option (Option SectionAccessory) :=
  match (typeOf j).bind ComponentType.ofCode with
  | some .button => (Button.fromJson j).map fun b => some (.button b)
  | some .thumbnail => (Thumbnail.fromJson j).map fun t => some (.thumbnail t)
  | _ => some none

/-- The accessory is written if there is one. -/
def SectionAccessory.put : Option SectionAccessory → Put
  | none, _ => some none
  | some a, _ => a.toJson.map some

def Section.toJson (s : Section) : Option Json :=
  writeAll s.raw.ensureObject
    [("type", constant ComponentType.section.json), ("id", serialize s.id),
     ("components", serialize s.components), ("accessory", SectionAccessory.put s.accessory)]

def Section.fromJson (j : Json) : Option Section := do
  let id ← deserialize j "id"
  let components ← deserialize j "components"
  let accessory ← SectionAccessory.fromJson (j.get "accessory")
  return { raw := j, id, components, accessory }

def LabelComponent.toJson : LabelComponent → Option Json
  | .textInput t => t.toJson
  | .fileUpload f => f.toJson
  | .selectMenu s => s.toJson
  | .userSelect s => s.toJson
  | .roleSelect s => s.toJson
  | .mentionableSelect s => s.toJson
  | .channelSelect s => s.toJson

/-- `label_component_from_json`, on the first alternative of the variant. -/
def LabelComponent.fromJson (j : Json) : Option LabelComponent :=
  match typeOf j with
  | none => some (.textInput {})
  | some type =>
      match ComponentType.ofCode type with
      | some .textInput => (TextInput.fromJson j).map .textInput
      | some .fileUpload => (FileUpload.fromJson j).map .fileUpload
      | some .selectMenu => (SelectMenu.fromJson j).map .selectMenu
      | some .userSelect => (UserSelectMenu.fromJson j).map .userSelect
      | some .roleSelect => (RoleSelectMenu.fromJson j).map .roleSelect
      | some .mentionableSelect => (MentionableSelectMenu.fromJson j).map .mentionableSelect
      | some .channelSelect => (ChannelSelectMenu.fromJson j).map .channelSelect
      | _ => some (.textInput {})

/-- The child is always written. -/
def LabelComponent.put (c : LabelComponent) : Put := fun _ => c.toJson.map some

def Label.toJson (l : Label) : Option Json :=
  writeAll l.raw.ensureObject
    [("type", constant ComponentType.label.json), ("id", serialize l.id),
     ("label", serialize l.label), ("description", serialize l.description),
     ("component", LabelComponent.put l.component)]

def Label.fromJson (j : Json) : Option Label := do
  let id ← deserialize j "id"
  let label ← deserialize j "label"
  let description ← deserialize j "description"
  let component ← LabelComponent.fromJson (j.get "component")
  return { raw := j, id, label, description, component }

def UnknownMessageComponent.toJson (u : UnknownMessageComponent) : Option Json :=
  if u.raw.ensureObject.contains "type" then some u.raw.ensureObject
  else u.raw.ensureObject.set "type" (.unsigned u.type.toUInt64)

def ActionRowComponent.toJson : ActionRowComponent → Option Json
  | .button b => b.toJson
  | .selectMenu s => s.toJson
  | .userSelect s => s.toJson
  | .roleSelect s => s.toJson
  | .mentionableSelect s => s.toJson
  | .channelSelect s => s.toJson
  | .textInput t => t.toJson
  | .fileUpload f => f.toJson

def ActionRowComponent.fromJson (j : Json) : Option ActionRowComponent :=
  match typeOf j with
  | none => some (.button {})
  | some type =>
      match ComponentType.ofCode type with
      | some .button => (Button.fromJson j).map .button
      | some .selectMenu => (SelectMenu.fromJson j).map .selectMenu
      | some .userSelect => (UserSelectMenu.fromJson j).map .userSelect
      | some .roleSelect => (RoleSelectMenu.fromJson j).map .roleSelect
      | some .mentionableSelect => (MentionableSelectMenu.fromJson j).map .mentionableSelect
      | some .channelSelect => (ChannelSelectMenu.fromJson j).map .channelSelect
      | some .textInput => (TextInput.fromJson j).map .textInput
      | some .fileUpload => (FileUpload.fromJson j).map .fileUpload
      | _ => some (.button {})

instance : Value ActionRowComponent where
  write := ActionRowComponent.toJson
  get := ActionRowComponent.fromJson
  init := .button {}

def ActionRow.toJson (a : ActionRow) : Option Json :=
  writeAll a.raw.ensureObject
    [("type", constant ComponentType.actionRow.json), ("id", serialize a.id),
     ("components", serialize a.components)]

def ActionRow.fromJson (j : Json) : Option ActionRow := do
  let id ← deserialize j "id"
  let components ← deserialize j "components"
  return { raw := j, id, components }

def ContainerChild.toJson : ContainerChild → Option Json
  | .actionRow a => a.toJson
  | .section s => s.toJson
  | .textDisplay t => t.toJson
  | .thumbnail t => t.toJson
  | .mediaGallery m => m.toJson
  | .file f => f.toJson
  | .separator s => s.toJson
  | .button b => b.toJson
  | .selectMenu s => s.toJson
  | .userSelect s => s.toJson
  | .roleSelect s => s.toJson
  | .mentionableSelect s => s.toJson
  | .channelSelect s => s.toJson
  | .unknown u => u.toJson

/-- `container_child_from_json`, on an unknown component of type 0. -/
def ContainerChild.fromJson (j : Json) : Option ContainerChild :=
  match typeOf j with
  | none => some (.unknown {})
  | some type =>
      match ComponentType.ofCode type with
      | some .actionRow => (ActionRow.fromJson j).map .actionRow
      | some .section => (Section.fromJson j).map .section
      | some .textDisplay => (TextDisplay.fromJson j).map .textDisplay
      | some .thumbnail => (Thumbnail.fromJson j).map .thumbnail
      | some .mediaGallery => (MediaGallery.fromJson j).map .mediaGallery
      | some .file => (File.fromJson j).map .file
      | some .separator => (Separator.fromJson j).map .separator
      | some .button => (Button.fromJson j).map .button
      | some .selectMenu => (SelectMenu.fromJson j).map .selectMenu
      | some .userSelect => (UserSelectMenu.fromJson j).map .userSelect
      | some .roleSelect => (RoleSelectMenu.fromJson j).map .roleSelect
      | some .mentionableSelect => (MentionableSelectMenu.fromJson j).map .mentionableSelect
      | some .channelSelect => (ChannelSelectMenu.fromJson j).map .channelSelect
      | _ => some (.unknown { type, raw := j })

/-- The children are always written. -/
def Container.putComponents (components : List ContainerChild) : Put := fun _ =>
  (components.mapM ContainerChild.toJson).map fun elements => some (.array elements)

/-- The accent color is read from an unsigned number alone. -/
def Container.readAccentColor : Json → Option UInt32
  | .unsigned n => some n.toUInt32
  | _ => none

/-- What is no array has no children. -/
def Container.readComponents : Json → Option (List ContainerChild)
  | .array elements => elements.mapM ContainerChild.fromJson
  | _ => some []

def Container.toJson (c : Container) : Option Json :=
  writeAll c.raw.ensureObject
    [("type", constant ComponentType.container.json), ("id", serialize c.id),
     ("accent_color", serialize c.accentColor), ("spoiler", serialize c.spoiler),
     ("components", Container.putComponents c.components)]

def Container.fromJson (j : Json) : Option Container := do
  let id ← deserialize j "id"
  let accentColor := Container.readAccentColor (j.get "accent_color")
  let spoiler ← deserialize j "spoiler"
  let components ← Container.readComponents (j.get "components")
  return { raw := j, id, accentColor, spoiler, components }

def MessageComponent.toJson : MessageComponent → Option Json
  | .actionRow a => a.toJson
  | .button b => b.toJson
  | .selectMenu s => s.toJson
  | .userSelect s => s.toJson
  | .roleSelect s => s.toJson
  | .mentionableSelect s => s.toJson
  | .channelSelect s => s.toJson
  | .textInput t => t.toJson
  | .section s => s.toJson
  | .textDisplay t => t.toJson
  | .thumbnail t => t.toJson
  | .mediaGallery m => m.toJson
  | .file f => f.toJson
  | .separator s => s.toJson
  | .container c => c.toJson
  | .label l => l.toJson
  | .fileUpload f => f.toJson
  | .unknown u => u.toJson

/-- `get` of a component, which starts from the first alternative. -/
def MessageComponent.fromJson (j : Json) : Option MessageComponent :=
  match typeOf j with
  | none => some (.actionRow {})
  | some type =>
      match ComponentType.ofCode type with
      | some .actionRow => (ActionRow.fromJson j).map .actionRow
      | some .button => (Button.fromJson j).map .button
      | some .selectMenu => (SelectMenu.fromJson j).map .selectMenu
      | some .userSelect => (UserSelectMenu.fromJson j).map .userSelect
      | some .roleSelect => (RoleSelectMenu.fromJson j).map .roleSelect
      | some .mentionableSelect => (MentionableSelectMenu.fromJson j).map .mentionableSelect
      | some .channelSelect => (ChannelSelectMenu.fromJson j).map .channelSelect
      | some .textInput => (TextInput.fromJson j).map .textInput
      | some .section => (Section.fromJson j).map .section
      | some .textDisplay => (TextDisplay.fromJson j).map .textDisplay
      | some .thumbnail => (Thumbnail.fromJson j).map .thumbnail
      | some .mediaGallery => (MediaGallery.fromJson j).map .mediaGallery
      | some .file => (File.fromJson j).map .file
      | some .separator => (Separator.fromJson j).map .separator
      | some .container => (Container.fromJson j).map .container
      | some .label => (Label.fromJson j).map .label
      | some .fileUpload => (FileUpload.fromJson j).map .fileUpload
      | none => some (.unknown { type, raw := j })

end

end Ekizu.Components
