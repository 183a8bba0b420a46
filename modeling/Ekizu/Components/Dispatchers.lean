import Ekizu.Components.Choices

/-!
# The dispatchers

The five choices among component types: a message component, the children of an action
row, of a label and of a container, and the accessory of a section.  Each is a list of
the records that its `switch` knows.

## Main results

* `SectionAccessory.take_eq`, `LabelComponent.decode_eq`, `ActionRowComponent.decode_eq`,
  `ContainerChild.decode_eq`, `MessageComponent.decode_eq` — each chooses from its list.
-/

namespace Ekizu.Components

open Lib Lib.Json

variable [FloatCast]

/-! ## The components without children -/

def Button.codec : Codec Button :=
  ⟨.button, Button.record, Button.toJson, Button.fromJson, rfl, Button.toJson_eq,
    Button.fromJson_eq⟩

def SelectMenu.codec : Codec SelectMenu :=
  ⟨.selectMenu, SelectMenu.record, SelectMenu.toJson, SelectMenu.fromJson, rfl,
    SelectMenu.toJson_eq, SelectMenu.fromJson_eq⟩

def UserSelectMenu.codec : Codec UserSelectMenu :=
  ⟨.userSelect, UserSelectMenu.record, UserSelectMenu.toJson, UserSelectMenu.fromJson, rfl,
    UserSelectMenu.toJson_eq, UserSelectMenu.fromJson_eq⟩

def RoleSelectMenu.codec : Codec RoleSelectMenu :=
  ⟨.roleSelect, RoleSelectMenu.record, RoleSelectMenu.toJson, RoleSelectMenu.fromJson, rfl,
    RoleSelectMenu.toJson_eq, RoleSelectMenu.fromJson_eq⟩

def MentionableSelectMenu.codec : Codec MentionableSelectMenu :=
  ⟨.mentionableSelect, MentionableSelectMenu.record, MentionableSelectMenu.toJson,
    MentionableSelectMenu.fromJson, rfl, MentionableSelectMenu.toJson_eq,
    MentionableSelectMenu.fromJson_eq⟩

def ChannelSelectMenu.codec : Codec ChannelSelectMenu :=
  ⟨.channelSelect, ChannelSelectMenu.record, ChannelSelectMenu.toJson, ChannelSelectMenu.fromJson,
    rfl, ChannelSelectMenu.toJson_eq, ChannelSelectMenu.fromJson_eq⟩

def TextInput.codec : Codec TextInput :=
  ⟨.textInput, TextInput.record, TextInput.toJson, TextInput.fromJson, rfl, TextInput.toJson_eq,
    TextInput.fromJson_eq⟩

def TextDisplay.codec : Codec TextDisplay :=
  ⟨.textDisplay, TextDisplay.record, TextDisplay.toJson, TextDisplay.fromJson, rfl,
    TextDisplay.toJson_eq, TextDisplay.fromJson_eq⟩

def Thumbnail.codec : Codec Thumbnail :=
  ⟨.thumbnail, Thumbnail.record, Thumbnail.toJson, Thumbnail.fromJson, rfl, Thumbnail.toJson_eq,
    Thumbnail.fromJson_eq⟩

def MediaGallery.codec : Codec MediaGallery :=
  ⟨.mediaGallery, MediaGallery.record, MediaGallery.toJson, MediaGallery.fromJson, rfl,
    MediaGallery.toJson_eq, MediaGallery.fromJson_eq⟩

def File.codec : Codec File :=
  ⟨.file, File.record, File.toJson, File.fromJson, rfl, File.toJson_eq, File.fromJson_eq⟩

def Separator.codec : Codec Separator :=
  ⟨.separator, Separator.record, Separator.toJson, Separator.fromJson, rfl, Separator.toJson_eq,
    Separator.fromJson_eq⟩

def FileUpload.codec : Codec FileUpload :=
  ⟨.fileUpload, FileUpload.record, FileUpload.toJson, FileUpload.fromJson, rfl,
    FileUpload.toJson_eq, FileUpload.fromJson_eq⟩

/-! ## Sections -/

def SectionAccessory.choices : List (Choice SectionAccessory SectionAccessory.toJson) :=
  [⟨_, Button.codec, .button, fun _ => rfl⟩,
   ⟨_, Thumbnail.codec, .thumbnail, fun _ => rfl⟩]

theorem SectionAccessory.nodup_types : (types SectionAccessory.choices).Nodup := by
  show [ComponentType.button, .thumbnail].Nodup
  decide

def SectionAccessory.alternatives : Alternatives UInt8 SectionAccessory :=
  Components.alternatives choices nodup_types

theorem SectionAccessory.kindOf_null : SectionAccessory.alternatives.kindOf .null = none := rfl

def SectionAccessory.slot : Slot (Option SectionAccessory) :=
  SectionAccessory.alternatives.optional kindOf_null

theorem SectionAccessory.take_eq (j : Json) : slot.take j = SectionAccessory.fromJson j := by
  have hkind : SectionAccessory.alternatives.kindOf j = typeOf j := rfl
  rw [slot, Alternatives.take_optional, hkind]
  unfold fromJson
  cases typeOf j with
  | none => rfl
  | some n =>
      simp only [Option.bind_some, SectionAccessory.alternatives, find_eq]
      cases ComponentType.ofCode n with
      | none => rfl
      | some t =>
          cases t with
          | button => exact congrArg (Option.map _) (Button.fromJson_eq j)
          | thumbnail => exact congrArg (Option.map _) (Thumbnail.fromJson_eq j)
          | _ => rfl

def Section.record : Record Section where
  T := _
  header := some ("type", ComponentType.section.json)
  members :=
    .cons "id" optionalMember <| .cons "components" member <|
    .cons "accessory" SectionAccessory.slot .nil
  header_key := by simp
  raw := Section.raw
  fields s := (s.id, s.components, s.accessory, ())
  make raw
    | (id, components, accessory, _) =>
        { raw, id, components, accessory }
  raw_make _ _ := rfl
  fields_make _ _ := rfl

theorem SectionAccessory.put_eq : slot.put = SectionAccessory.put := by
  funext accessory v
  cases accessory <;> rfl

theorem Section.toJson_eq (s : Section) : Section.record.toJson s = s.toJson := by
  have hput := SectionAccessory.put_eq
  show writeAll _ [_, _, _, (_, SectionAccessory.slot.put s.accessory)] = _
  rw [hput]
  rfl

theorem Section.fromJson_eq (j : Json) : Section.record.fromJson j = Section.fromJson j := by
  simp only [Record.fromJson, record, Members.map_take_cons, Members.map_take_nil,
    SectionAccessory.take_eq]
  rfl

def Section.codec : Codec Section :=
  ⟨.section, Section.record, Section.toJson, Section.fromJson, rfl, Section.toJson_eq,
    Section.fromJson_eq⟩

/-! ## Labels -/

def LabelComponent.choices : List (Choice LabelComponent LabelComponent.toJson) :=
  [⟨_, TextInput.codec, .textInput, fun _ => rfl⟩,
   ⟨_, FileUpload.codec, .fileUpload, fun _ => rfl⟩,
   ⟨_, SelectMenu.codec, .selectMenu, fun _ => rfl⟩,
   ⟨_, UserSelectMenu.codec, .userSelect, fun _ => rfl⟩,
   ⟨_, RoleSelectMenu.codec, .roleSelect, fun _ => rfl⟩,
   ⟨_, MentionableSelectMenu.codec, .mentionableSelect, fun _ => rfl⟩,
   ⟨_, ChannelSelectMenu.codec, .channelSelect, fun _ => rfl⟩]

theorem LabelComponent.nodup_types : (types LabelComponent.choices).Nodup := by
  show [ComponentType.textInput, .fileUpload, .selectMenu, .userSelect, .roleSelect,
    .mentionableSelect, .channelSelect].Nodup
  decide

/-- The first alternative of the variant stands for what is of no type, or of another. -/
def LabelComponent.dispatch : Dispatch UInt8 LabelComponent where
  toAlternatives := alternatives LabelComponent.choices LabelComponent.nodup_types
  typeless := .textInput {}
  blank := .object [("type", .unsigned 4), ("custom_id", .string ""), ("style", .unsigned 0),
    ("label", .string "")]
  write_typeless := rfl
  unknown := none
  write_unknown _ h := by cases h
  write_fresh _ h := by cases h
  kindOf_blank _ :=
    ⟨Choice.alternative ⟨_, TextInput.codec, .textInput, fun _ => rfl⟩,
      List.mem_cons_self, rfl⟩

theorem LabelComponent.decode_eq (j : Json) : dispatch.decode j = LabelComponent.fromJson j := by
  rw [Components.decode_eq nodup_types rfl]
  unfold fromJson
  cases typeOf j with
  | none => rfl
  | some n =>
      dsimp only
      cases ComponentType.ofCode n with
      | none => rfl
      | some t => cases t <;> rfl

theorem LabelComponent.kept_null (out : Json) : dispatch.format.Kept .null out :=
  Dispatch.kept_null (d := dispatch) rfl out

def LabelComponent.slot : Slot LabelComponent :=
  LabelComponent.dispatch.format.always LabelComponent.kept_null

def Label.record : Record Label where
  T := _
  header := some ("type", ComponentType.label.json)
  members :=
    .cons "id" optionalMember <| .cons "label" member <| .cons "description" optionalMember <|
    .cons "component" LabelComponent.slot .nil
  header_key := by simp
  raw := Label.raw
  fields l := (l.id, l.label, l.description, l.component, ())
  make raw
    | (id, label, description, component, _) =>
        { raw, id, label, description, component }
  raw_make _ _ := rfl
  fields_make _ _ := rfl

theorem Label.toJson_eq (l : Label) : Label.record.toJson l = l.toJson := rfl

theorem Label.fromJson_eq (j : Json) : Label.record.fromJson j = Label.fromJson j := by
  have htake : LabelComponent.slot.take = LabelComponent.fromJson :=
    funext LabelComponent.decode_eq
  simp only [Record.fromJson, record, Members.map_take_cons, Members.map_take_nil, htake]
  rfl

def Label.codec : Codec Label :=
  ⟨.label, Label.record, Label.toJson, Label.fromJson, rfl, Label.toJson_eq, Label.fromJson_eq⟩

/-! ## Action rows -/

def ActionRowComponent.choices : List (Choice ActionRowComponent ActionRowComponent.toJson) :=
  [⟨_, Button.codec, .button, fun _ => rfl⟩,
   ⟨_, SelectMenu.codec, .selectMenu, fun _ => rfl⟩,
   ⟨_, UserSelectMenu.codec, .userSelect, fun _ => rfl⟩,
   ⟨_, RoleSelectMenu.codec, .roleSelect, fun _ => rfl⟩,
   ⟨_, MentionableSelectMenu.codec, .mentionableSelect, fun _ => rfl⟩,
   ⟨_, ChannelSelectMenu.codec, .channelSelect, fun _ => rfl⟩,
   ⟨_, TextInput.codec, .textInput, fun _ => rfl⟩,
   ⟨_, FileUpload.codec, .fileUpload, fun _ => rfl⟩]

theorem ActionRowComponent.nodup_types : (types ActionRowComponent.choices).Nodup := by
  show [ComponentType.button, .selectMenu, .userSelect, .roleSelect, .mentionableSelect,
    .channelSelect, .textInput, .fileUpload].Nodup
  decide

/-- The first alternative of the variant stands for what is of no type, or of another. -/
def ActionRowComponent.dispatch : Dispatch UInt8 ActionRowComponent where
  toAlternatives := alternatives ActionRowComponent.choices ActionRowComponent.nodup_types
  typeless := .button {}
  blank := .object [("type", .unsigned 2), ("style", .unsigned 0), ("disabled", .boolean false)]
  write_typeless := rfl
  unknown := none
  write_unknown _ h := by cases h
  write_fresh _ h := by cases h
  kindOf_blank _ :=
    ⟨Choice.alternative ⟨_, Button.codec, .button, fun _ => rfl⟩, List.mem_cons_self, rfl⟩

theorem ActionRowComponent.decode_eq (j : Json) :
    dispatch.decode j = ActionRowComponent.fromJson j := by
  rw [Components.decode_eq nodup_types rfl]
  unfold fromJson
  cases typeOf j with
  | none => rfl
  | some n =>
      dsimp only
      cases ComponentType.ofCode n with
      | none => rfl
      | some t => cases t <;> rfl

theorem ActionRowComponent.isObject_toJson {c : ActionRowComponent} {out : Json}
    (h : c.toJson = some out) : out.isObject = true := by
  cases c with
  | button | selectMenu | userSelect | roleSelect | mentionableSelect | channelSelect
  | textInput | fileUpload => exact isObject_writeAll isObject_ensureObject h

theorem ActionRowComponent.kept_null (out : Json) : dispatch.format.Kept .null out :=
  Dispatch.kept_null (d := dispatch) rfl out

instance : Lawful ActionRowComponent where
  format := ActionRowComponent.dispatch.format
  write_eq _ := rfl
  get_eq := ActionRowComponent.decode_eq
  init_writes := ⟨_, rfl⟩
  kept_null := ActionRowComponent.kept_null
  not_null _ _ h := not_isNull_of_isObject (ActionRowComponent.isObject_toJson h)
  text _ h := by cases h

def ActionRow.record : Record ActionRow where
  T := _
  header := some ("type", ComponentType.actionRow.json)
  members := .cons "id" optionalMember <| .cons "components" member .nil
  header_key := by simp
  raw := ActionRow.raw
  fields a := (a.id, a.components, ())
  make raw
    | (id, components, _) =>
        { raw, id, components }
  raw_make _ _ := rfl
  fields_make _ _ := rfl

theorem ActionRow.toJson_eq (a : ActionRow) : ActionRow.record.toJson a = a.toJson := rfl

theorem ActionRow.fromJson_eq (j : Json) : ActionRow.record.fromJson j = ActionRow.fromJson j := by
  simp only [Record.fromJson, record, Members.map_take_cons, Members.map_take_nil]
  rfl

def ActionRow.codec : Codec ActionRow :=
  ⟨.actionRow, ActionRow.record, ActionRow.toJson, ActionRow.fromJson, rfl, ActionRow.toJson_eq,
    ActionRow.fromJson_eq⟩

/-! ## Unknown components -/

/-- **A document with a type stays as it is.** -/
theorem UnknownMessageComponent.toJson_of_typeOf {j : Json} {n : UInt8}
    (h : typeOf j = some n) (type : UInt8) :
    UnknownMessageComponent.toJson { type, raw := j } = some j := by
  have hcontains : j.contains "type" = true := by
    unfold typeOf at h
    cases hfind : j.find? "type" with
    | some v => simp [contains, hfind]
    | none =>
        rw [hfind] at h
        cases h
  have hobject : j.isObject = true := by
    by_contra hobject
    rw [contains, find?_of_not_isObject (Bool.eq_false_iff.mpr hobject)] at hcontains
    cases hcontains
  have hensure : j.ensureObject = j := if_pos hobject
  simp only [toJson, hensure, hcontains, if_true]

/-- Without a document the type is all there is. -/
theorem UnknownMessageComponent.toJson_null (type : UInt8) :
    ∃ out, UnknownMessageComponent.toJson { type } = some out ∧ typeOf out = some type :=
  ⟨_, rfl, typeOf_unsigned rfl⟩

/-! ## Containers -/

def ContainerChild.choices : List (Choice ContainerChild ContainerChild.toJson) :=
  [⟨_, ActionRow.codec, .actionRow, fun _ => rfl⟩,
   ⟨_, Section.codec, .section, fun _ => rfl⟩,
   ⟨_, TextDisplay.codec, .textDisplay, fun _ => rfl⟩,
   ⟨_, Thumbnail.codec, .thumbnail, fun _ => rfl⟩,
   ⟨_, MediaGallery.codec, .mediaGallery, fun _ => rfl⟩,
   ⟨_, File.codec, .file, fun _ => rfl⟩,
   ⟨_, Separator.codec, .separator, fun _ => rfl⟩,
   ⟨_, Button.codec, .button, fun _ => rfl⟩,
   ⟨_, SelectMenu.codec, .selectMenu, fun _ => rfl⟩,
   ⟨_, UserSelectMenu.codec, .userSelect, fun _ => rfl⟩,
   ⟨_, RoleSelectMenu.codec, .roleSelect, fun _ => rfl⟩,
   ⟨_, MentionableSelectMenu.codec, .mentionableSelect, fun _ => rfl⟩,
   ⟨_, ChannelSelectMenu.codec, .channelSelect, fun _ => rfl⟩]

theorem ContainerChild.nodup_types : (types ContainerChild.choices).Nodup := by
  show [ComponentType.actionRow, .section, .textDisplay, .thumbnail, .mediaGallery, .file,
    .separator, .button, .selectMenu, .userSelect, .roleSelect, .mentionableSelect,
    .channelSelect].Nodup
  decide

def ContainerChild.dispatch : Dispatch UInt8 ContainerChild where
  toAlternatives := alternatives ContainerChild.choices ContainerChild.nodup_types
  typeless := .unknown {}
  blank := .object [("type", .unsigned 0)]
  write_typeless := rfl
  unknown := some fun type raw => .unknown { type, raw }
  write_unknown keep h type raw hkind := by
    obtain rfl := Option.some.inj h
    exact UnknownMessageComponent.toJson_of_typeOf hkind type
  write_fresh keep h type := by
    obtain rfl := Option.some.inj h
    exact UnknownMessageComponent.toJson_null type
  kindOf_blank h := by cases h

theorem ContainerChild.decode_eq (j : Json) : dispatch.decode j = ContainerChild.fromJson j := by
  rw [Components.decode_eq nodup_types rfl]
  unfold fromJson
  cases typeOf j with
  | none => rfl
  | some n =>
      dsimp only
      cases ComponentType.ofCode n with
      | none => rfl
      | some t => cases t <;> rfl

/-- **The accent color** is written whenever it is there, and read from an unsigned number. -/
def accentColorMember : Slot (Option UInt32) where
  put := serialize
  take j := some (Container.readAccentColor j)
  Built _ := True
  Agrees := Eq
  Kept _ _ := True
  Fit _ := True
  kept_null _ := trivial
  restores color _ := by
    cases color with
    | none => exact ⟨none, rfl, none, rfl, rfl⟩
    | some n =>
        refine ⟨_, rfl, some n, ?_, rfl⟩
        show some (some n.toUInt64.toUInt32) = _
        rw [UInt32.toUInt32_toUInt64]
  recodes j := by
    refine ⟨fun _ => trivial, fun _ => ⟨Container.readAccentColor j, ?_⟩⟩
    cases Container.readAccentColor j with
    | none => exact ⟨_, rfl, rfl, trivial⟩
    | some n => exact ⟨_, rfl, rfl, trivial⟩

def Container.record : Record Container where
  T := _
  header := some ("type", ComponentType.container.json)
  members :=
    .cons "id" optionalMember <| .cons "accent_color" accentColorMember <|
    .cons "spoiler" optionalMember <|
    .cons "components" ContainerChild.dispatch.format.elements .nil
  header_key := by simp
  raw := Container.raw
  fields c := (c.id, c.accentColor, c.spoiler, c.components, ())
  make raw
    | (id, accentColor, spoiler, components, _) =>
        { raw, id, accentColor, spoiler, components }
  raw_make _ _ := rfl
  fields_make _ _ := rfl

theorem Container.toJson_eq (c : Container) : Container.record.toJson c = c.toJson := rfl

theorem Container.take_components :
    ContainerChild.dispatch.format.elements.take = readComponents := by
  have hget : ContainerChild.dispatch.format.get = ContainerChild.fromJson :=
    funext ContainerChild.decode_eq
  funext j
  cases j with
  | array elements =>
      show elements.mapM ContainerChild.dispatch.format.get = _
      rw [hget]
      rfl
  | null | boolean | unsigned | integer | float | string | object => rfl

theorem Container.fromJson_eq (j : Json) : Container.record.fromJson j = Container.fromJson j := by
  simp only [Record.fromJson, record, Members.map_take_cons, Members.map_take_nil,
    take_components]
  rfl

def Container.codec : Codec Container :=
  ⟨.container, Container.record, Container.toJson, Container.fromJson, rfl, Container.toJson_eq,
    Container.fromJson_eq⟩

/-! ## Message components -/

def MessageComponent.choices : List (Choice MessageComponent MessageComponent.toJson) :=
  [⟨_, ActionRow.codec, .actionRow, fun _ => rfl⟩,
   ⟨_, Button.codec, .button, fun _ => rfl⟩,
   ⟨_, SelectMenu.codec, .selectMenu, fun _ => rfl⟩,
   ⟨_, UserSelectMenu.codec, .userSelect, fun _ => rfl⟩,
   ⟨_, RoleSelectMenu.codec, .roleSelect, fun _ => rfl⟩,
   ⟨_, MentionableSelectMenu.codec, .mentionableSelect, fun _ => rfl⟩,
   ⟨_, ChannelSelectMenu.codec, .channelSelect, fun _ => rfl⟩,
   ⟨_, TextInput.codec, .textInput, fun _ => rfl⟩,
   ⟨_, Section.codec, .section, fun _ => rfl⟩,
   ⟨_, TextDisplay.codec, .textDisplay, fun _ => rfl⟩,
   ⟨_, Thumbnail.codec, .thumbnail, fun _ => rfl⟩,
   ⟨_, MediaGallery.codec, .mediaGallery, fun _ => rfl⟩,
   ⟨_, File.codec, .file, fun _ => rfl⟩,
   ⟨_, Separator.codec, .separator, fun _ => rfl⟩,
   ⟨_, Container.codec, .container, fun _ => rfl⟩,
   ⟨_, Label.codec, .label, fun _ => rfl⟩,
   ⟨_, FileUpload.codec, .fileUpload, fun _ => rfl⟩]

theorem MessageComponent.nodup_types : (types MessageComponent.choices).Nodup := by
  show [ComponentType.actionRow, .button, .selectMenu, .userSelect, .roleSelect,
    .mentionableSelect, .channelSelect, .textInput, .section, .textDisplay, .thumbnail,
    .mediaGallery, .file, .separator, .container, .label, .fileUpload].Nodup
  decide

def MessageComponent.dispatch : Dispatch UInt8 MessageComponent where
  toAlternatives := alternatives MessageComponent.choices MessageComponent.nodup_types
  typeless := .actionRow {}
  blank := .object [("type", .unsigned 1), ("components", .array [])]
  write_typeless := rfl
  unknown := some fun type raw => .unknown { type, raw }
  write_unknown keep h type raw hkind := by
    obtain rfl := Option.some.inj h
    exact UnknownMessageComponent.toJson_of_typeOf hkind type
  write_fresh keep h type := by
    obtain rfl := Option.some.inj h
    exact UnknownMessageComponent.toJson_null type
  kindOf_blank h := by cases h

theorem MessageComponent.decode_eq (j : Json) :
    dispatch.decode j = MessageComponent.fromJson j := by
  rw [Components.decode_eq nodup_types rfl]
  unfold fromJson
  cases typeOf j with
  | none => rfl
  | some n =>
      dsimp only
      cases ComponentType.ofCode n with
      | none => rfl
      | some t => cases t <;> rfl

end Ekizu.Components
