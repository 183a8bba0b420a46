import Ekizu.Components.MessageComponent
import Ekizu.Components.Slots

/-!
# Components as records
-/

namespace Ekizu.Components

open Lib Lib.Json

/-! ## Records without numbers -/

def SelectOptions.record : Record SelectOptions where
  T := _
  header := none
  members :=
    .cons "label" member <| .cons "value" member <| .cons "description" optionalMember <|
    .cons "emoji" emojiMember <| .cons "default" optionalMember .nil
  header_key := by simp
  raw := SelectOptions.raw
  fields o := (o.label, o.value, o.description, o.emoji, o.default_, ())
  make raw
    | (label, value, description, emoji, default_, _) =>
        { raw, label, value, description, emoji, default_ }
  raw_make _ _ := rfl
  fields_make _ _ := rfl

theorem SelectOptions.toJson_eq (o : SelectOptions) :
    SelectOptions.record.toJson o = o.toJson := rfl

theorem SelectOptions.fromJson_eq (j : Json) :
    SelectOptions.record.fromJson j = SelectOptions.fromJson j := by
  simp only [Record.fromJson, record, Members.map_take_cons, Members.map_take_nil]
  rfl

instance : Lawful SelectOptions :=
  .ofRecord SelectOptions.record SelectOptions.toJson_eq SelectOptions.fromJson_eq ⟨_, rfl⟩ rfl

def UnfurledMediaItem.record : Record UnfurledMediaItem where
  T := _
  header := none
  members :=
    .cons "url" member .nil
  header_key := by simp
  raw := UnfurledMediaItem.raw
  fields m := (m.url, ())
  make raw
    | (url, _) =>
        { raw, url }
  raw_make _ _ := rfl
  fields_make _ _ := rfl

theorem UnfurledMediaItem.toJson_eq (m : UnfurledMediaItem) :
    UnfurledMediaItem.record.toJson m = m.toJson := rfl

theorem UnfurledMediaItem.fromJson_eq (j : Json) :
    UnfurledMediaItem.record.fromJson j = UnfurledMediaItem.fromJson j := by
  simp only [Record.fromJson, record, Members.map_take_cons, Members.map_take_nil]
  rfl

instance : Lawful UnfurledMediaItem :=
  .ofRecord UnfurledMediaItem.record UnfurledMediaItem.toJson_eq
    UnfurledMediaItem.fromJson_eq ⟨_, rfl⟩ rfl

def MediaGalleryItem.record : Record MediaGalleryItem where
  T := _
  header := none
  members :=
    .cons "media" member <| .cons "description" optionalMember <|
    .cons "spoiler" optionalMember .nil
  header_key := by simp
  raw := MediaGalleryItem.raw
  fields m := (m.media, m.description, m.spoiler, ())
  make raw
    | (media, description, spoiler, _) =>
        { raw, media, description, spoiler }
  raw_make _ _ := rfl
  fields_make _ _ := rfl

theorem MediaGalleryItem.toJson_eq (m : MediaGalleryItem) :
    MediaGalleryItem.record.toJson m = m.toJson := rfl

theorem MediaGalleryItem.fromJson_eq (j : Json) :
    MediaGalleryItem.record.fromJson j = MediaGalleryItem.fromJson j := by
  simp only [Record.fromJson, record, Members.map_take_cons, Members.map_take_nil]
  rfl

instance : Lawful MediaGalleryItem :=
  .ofRecord MediaGalleryItem.record MediaGalleryItem.toJson_eq
    MediaGalleryItem.fromJson_eq ⟨_, rfl⟩ rfl

/-! ## Leaves -/

variable [FloatCast]

instance : Lawful ButtonStyle where
  format := leaf (fun s => .unsigned s.value.toUInt64) Value.get (fun v => v.isNumber = true)
    (fun s => getNumber_code ButtonStyle.mk s.value) (exists_getNumber 8 _)
  write_eq _ := rfl
  get_eq _ := rfl
  init_writes := ⟨_, rfl⟩
  kept_null _ := trivial
  not_null a out h := by
    obtain rfl := Option.some.inj h
    rfl
  text _ h := by cases h

instance : Lawful TextInputStyle where
  format := leaf (fun s => .unsigned s.value.toUInt64) Value.get (fun v => v.isNumber = true)
    (fun s => getNumber_code TextInputStyle.mk s.value) (exists_getNumber 8 _)
  write_eq _ := rfl
  get_eq _ := rfl
  init_writes := ⟨_, rfl⟩
  kept_null _ := trivial
  not_null a out h := by
    obtain rfl := Option.some.inj h
    rfl
  text _ h := by cases h

def Button.record : Record Button where
  T := _
  header := some ("type", ComponentType.button.json)
  members :=
    .cons "id" optionalMember <| .cons "style" member <| .cons "label" optionalMember <|
    .cons "emoji" emojiMember <| .cons "custom_id" optionalMember <| .cons "url" optionalMember <|
    .cons "sku_id" optionalMember <| .cons "disabled" member .nil
  header_key := by simp
  raw := Button.raw
  fields b := (b.id, b.style, b.label, b.emoji, b.customId, b.url, b.skuId, b.disabled, ())
  make raw
    | (id, style, label, emoji, customId, url, skuId, disabled, _) =>
        { raw, id, style, label, emoji, customId, url, skuId, disabled }
  raw_make _ _ := rfl
  fields_make _ _ := rfl

theorem Button.toJson_eq (b : Button) : Button.record.toJson b = b.toJson := rfl

theorem Button.fromJson_eq (j : Json) : Button.record.fromJson j = Button.fromJson j := by
  simp only [Record.fromJson, record, Members.map_take_cons, Members.map_take_nil]
  rfl

def SelectMenuDefaultValue.record : Record SelectMenuDefaultValue where
  T := _
  header := none
  members :=
    .cons "id" member <| .cons "type" member .nil
  header_key := by simp
  raw := SelectMenuDefaultValue.raw
  fields v := (v.id, v.type, ())
  make raw
    | (id, type, _) =>
        { raw, id, type }
  raw_make _ _ := rfl
  fields_make _ _ := rfl

theorem SelectMenuDefaultValue.toJson_eq (v : SelectMenuDefaultValue) :
    SelectMenuDefaultValue.record.toJson v = v.toJson := rfl

theorem SelectMenuDefaultValue.fromJson_eq (j : Json) :
    SelectMenuDefaultValue.record.fromJson j = SelectMenuDefaultValue.fromJson j := by
  simp only [Record.fromJson, record, Members.map_take_cons, Members.map_take_nil]
  rfl

instance : Lawful SelectMenuDefaultValue :=
  .ofRecord SelectMenuDefaultValue.record SelectMenuDefaultValue.toJson_eq
    SelectMenuDefaultValue.fromJson_eq ⟨_, rfl⟩ rfl

def SelectMenu.record : Record SelectMenu where
  T := _
  header := some ("type", ComponentType.selectMenu.json)
  members :=
    .cons "id" optionalMember <| .cons "custom_id" member <| .cons "placeholder" optionalMember <|
    .cons "min_values" optionalMember <| .cons "max_values" optionalMember <|
    .cons "disabled" optionalMember <| .cons "options" member .nil
  header_key := by simp
  raw := SelectMenu.raw
  fields s := (s.id, s.customId, s.placeholder, s.minValues, s.maxValues, s.disabled, s.options,
    ())
  make raw
    | (id, customId, placeholder, minValues, maxValues, disabled, options, _) =>
        { raw, id, customId, placeholder, minValues, maxValues, disabled, options }
  raw_make _ _ := rfl
  fields_make _ _ := rfl

/-- The default values that are not passed are not written. -/
theorem SelectMenu.toJson_eq (s : SelectMenu) : SelectMenu.record.toJson s = s.toJson := by
  obtain ⟨common, hcommon, hputs⟩ : ∃ common,
      serializeSelectCommon .selectMenu s.id s.customId s.placeholder s.minValues s.maxValues
          s.disabled none = common ++ [("default_values", fun _ => some none)] ∧
        SelectMenu.record.puts s = common ++ [("options", serialize s.options)] :=
    ⟨[("type", constant ComponentType.selectMenu.json), ("id", serialize s.id),
      ("custom_id", serialize s.customId), ("placeholder", serialize s.placeholder),
      ("min_values", serialize s.minValues), ("max_values", serialize s.maxValues),
      ("disabled", serialize s.disabled)], rfl, rfl⟩
  rw [Record.toJson, hputs, SelectMenu.toJson, hcommon, List.append_assoc, writeAll_append,
    writeAll_append]
  rfl

theorem SelectMenu.fromJson_eq (j : Json) :
    SelectMenu.record.fromJson j = SelectMenu.fromJson j := by
  simp only [Record.fromJson, record, Members.map_take_cons, Members.map_take_nil]
  simp only [SelectMenu.fromJson, deserializeSelectCommon, Option.bind_eq_bind,
    Option.bind_assoc, Option.pure_def, Option.bind_some]
  rfl

def UserSelectMenu.record : Record UserSelectMenu where
  T := _
  header := some ("type", ComponentType.userSelect.json)
  members :=
    .cons "id" optionalMember <| .cons "custom_id" member <| .cons "placeholder" optionalMember <|
    .cons "min_values" optionalMember <| .cons "max_values" optionalMember <|
    .cons "disabled" optionalMember <| .cons "default_values" optionalMember .nil
  header_key := by simp
  raw := UserSelectMenu.raw
  fields s := (s.id, s.customId, s.placeholder, s.minValues, s.maxValues, s.disabled,
    s.defaultValues, ())
  make raw
    | (id, customId, placeholder, minValues, maxValues, disabled, defaultValues, _) =>
        { raw, id, customId, placeholder, minValues, maxValues, disabled, defaultValues }
  raw_make _ _ := rfl
  fields_make _ _ := rfl

theorem UserSelectMenu.toJson_eq (s : UserSelectMenu) :
    UserSelectMenu.record.toJson s = s.toJson := rfl

theorem UserSelectMenu.fromJson_eq (j : Json) :
    UserSelectMenu.record.fromJson j = UserSelectMenu.fromJson j := by
  simp only [Record.fromJson, record, Members.map_take_cons, Members.map_take_nil]
  simp only [UserSelectMenu.fromJson, deserializeSelectCommon, Option.bind_eq_bind,
    Option.bind_assoc, Option.pure_def, Option.bind_some]
  rfl

def RoleSelectMenu.record : Record RoleSelectMenu where
  T := _
  header := some ("type", ComponentType.roleSelect.json)
  members :=
    .cons "id" optionalMember <| .cons "custom_id" member <| .cons "placeholder" optionalMember <|
    .cons "min_values" optionalMember <| .cons "max_values" optionalMember <|
    .cons "disabled" optionalMember <| .cons "default_values" optionalMember .nil
  header_key := by simp
  raw := RoleSelectMenu.raw
  fields s := (s.id, s.customId, s.placeholder, s.minValues, s.maxValues, s.disabled,
    s.defaultValues, ())
  make raw
    | (id, customId, placeholder, minValues, maxValues, disabled, defaultValues, _) =>
        { raw, id, customId, placeholder, minValues, maxValues, disabled, defaultValues }
  raw_make _ _ := rfl
  fields_make _ _ := rfl

theorem RoleSelectMenu.toJson_eq (s : RoleSelectMenu) :
    RoleSelectMenu.record.toJson s = s.toJson := rfl

theorem RoleSelectMenu.fromJson_eq (j : Json) :
    RoleSelectMenu.record.fromJson j = RoleSelectMenu.fromJson j := by
  simp only [Record.fromJson, record, Members.map_take_cons, Members.map_take_nil]
  simp only [RoleSelectMenu.fromJson, deserializeSelectCommon, Option.bind_eq_bind,
    Option.bind_assoc, Option.pure_def, Option.bind_some]
  rfl

def MentionableSelectMenu.record : Record MentionableSelectMenu where
  T := _
  header := some ("type", ComponentType.mentionableSelect.json)
  members :=
    .cons "id" optionalMember <| .cons "custom_id" member <| .cons "placeholder" optionalMember <|
    .cons "min_values" optionalMember <| .cons "max_values" optionalMember <|
    .cons "disabled" optionalMember <| .cons "default_values" optionalMember .nil
  header_key := by simp
  raw := MentionableSelectMenu.raw
  fields s := (s.id, s.customId, s.placeholder, s.minValues, s.maxValues, s.disabled,
    s.defaultValues, ())
  make raw
    | (id, customId, placeholder, minValues, maxValues, disabled, defaultValues, _) =>
        { raw, id, customId, placeholder, minValues, maxValues, disabled, defaultValues }
  raw_make _ _ := rfl
  fields_make _ _ := rfl

theorem MentionableSelectMenu.toJson_eq (s : MentionableSelectMenu) :
    MentionableSelectMenu.record.toJson s = s.toJson := rfl

theorem MentionableSelectMenu.fromJson_eq (j : Json) :
    MentionableSelectMenu.record.fromJson j = MentionableSelectMenu.fromJson j := by
  simp only [Record.fromJson, record, Members.map_take_cons, Members.map_take_nil]
  simp only [MentionableSelectMenu.fromJson, deserializeSelectCommon, Option.bind_eq_bind,
    Option.bind_assoc, Option.pure_def, Option.bind_some]
  rfl

def ChannelSelectMenu.record : Record ChannelSelectMenu where
  T := _
  header := some ("type", ComponentType.channelSelect.json)
  members :=
    .cons "id" optionalMember <| .cons "custom_id" member <| .cons "placeholder" optionalMember <|
    .cons "min_values" optionalMember <| .cons "max_values" optionalMember <|
    .cons "disabled" optionalMember <| .cons "default_values" optionalMember <|
    .cons "channel_types" optionalMember .nil
  header_key := by simp
  raw := ChannelSelectMenu.raw
  fields s := (s.id, s.customId, s.placeholder, s.minValues, s.maxValues, s.disabled,
    s.defaultValues, s.channelTypes, ())
  make raw
    | (id, customId, placeholder, minValues, maxValues, disabled, defaultValues, channelTypes,
      _) =>
        { raw, id, customId, placeholder, minValues, maxValues, disabled, defaultValues,
          channelTypes }
  raw_make _ _ := rfl
  fields_make _ _ := rfl

theorem ChannelSelectMenu.toJson_eq (s : ChannelSelectMenu) :
    ChannelSelectMenu.record.toJson s = s.toJson := rfl

theorem ChannelSelectMenu.fromJson_eq (j : Json) :
    ChannelSelectMenu.record.fromJson j = ChannelSelectMenu.fromJson j := by
  simp only [Record.fromJson, record, Members.map_take_cons, Members.map_take_nil]
  simp only [ChannelSelectMenu.fromJson, deserializeSelectCommon, Option.bind_eq_bind,
    Option.bind_assoc, Option.pure_def, Option.bind_some]
  rfl

def TextInput.record : Record TextInput where
  T := _
  header := some ("type", ComponentType.textInput.json)
  members :=
    .cons "id" optionalMember <| .cons "custom_id" member <| .cons "style" member <|
    .cons "label" member <| .cons "min_length" optionalMember <|
    .cons "max_length" optionalMember <| .cons "required" optionalMember <|
    .cons "value" optionalMember <| .cons "placeholder" optionalMember .nil
  header_key := by simp
  raw := TextInput.raw
  fields t := (t.id, t.customId, t.style, t.label, t.minLength, t.maxLength, t.required, t.value,
    t.placeholder, ())
  make raw
    | (id, customId, style, label, minLength, maxLength, required, value, placeholder, _) =>
        { raw, id, customId, style, label, minLength, maxLength, required, value, placeholder }
  raw_make _ _ := rfl
  fields_make _ _ := rfl

theorem TextInput.toJson_eq (t : TextInput) : TextInput.record.toJson t = t.toJson := rfl

theorem TextInput.fromJson_eq (j : Json) : TextInput.record.fromJson j = TextInput.fromJson j := by
  simp only [Record.fromJson, record, Members.map_take_cons, Members.map_take_nil]
  rfl

def TextDisplay.record : Record TextDisplay where
  T := _
  header := some ("type", ComponentType.textDisplay.json)
  members :=
    .cons "id" optionalMember <| .cons "content" member .nil
  header_key := by simp
  raw := TextDisplay.raw
  fields t := (t.id, t.content, ())
  make raw
    | (id, content, _) =>
        { raw, id, content }
  raw_make _ _ := rfl
  fields_make _ _ := rfl

theorem TextDisplay.toJson_eq (t : TextDisplay) : TextDisplay.record.toJson t = t.toJson := rfl

theorem TextDisplay.fromJson_eq (j : Json) :
    TextDisplay.record.fromJson j = TextDisplay.fromJson j := by
  simp only [Record.fromJson, record, Members.map_take_cons, Members.map_take_nil]
  rfl

instance : Lawful TextDisplay :=
  .ofRecord TextDisplay.record TextDisplay.toJson_eq TextDisplay.fromJson_eq ⟨_, rfl⟩ rfl

def Thumbnail.record : Record Thumbnail where
  T := _
  header := some ("type", ComponentType.thumbnail.json)
  members :=
    .cons "id" optionalMember <| .cons "media" member <| .cons "description" optionalMember <|
    .cons "spoiler" optionalMember .nil
  header_key := by simp
  raw := Thumbnail.raw
  fields t := (t.id, t.media, t.description, t.spoiler, ())
  make raw
    | (id, media, description, spoiler, _) =>
        { raw, id, media, description, spoiler }
  raw_make _ _ := rfl
  fields_make _ _ := rfl

theorem Thumbnail.toJson_eq (t : Thumbnail) : Thumbnail.record.toJson t = t.toJson := rfl

theorem Thumbnail.fromJson_eq (j : Json) : Thumbnail.record.fromJson j = Thumbnail.fromJson j := by
  simp only [Record.fromJson, record, Members.map_take_cons, Members.map_take_nil]
  rfl

def MediaGallery.record : Record MediaGallery where
  T := _
  header := some ("type", ComponentType.mediaGallery.json)
  members :=
    .cons "id" optionalMember <| .cons "items" member .nil
  header_key := by simp
  raw := MediaGallery.raw
  fields m := (m.id, m.items, ())
  make raw
    | (id, items, _) =>
        { raw, id, items }
  raw_make _ _ := rfl
  fields_make _ _ := rfl

theorem MediaGallery.toJson_eq (m : MediaGallery) : MediaGallery.record.toJson m = m.toJson := rfl

theorem MediaGallery.fromJson_eq (j : Json) :
    MediaGallery.record.fromJson j = MediaGallery.fromJson j := by
  simp only [Record.fromJson, record, Members.map_take_cons, Members.map_take_nil]
  rfl

def File.record : Record File where
  T := _
  header := some ("type", ComponentType.file.json)
  members :=
    .cons "id" optionalMember <| .cons "file" member <| .cons "spoiler" optionalMember .nil
  header_key := by simp
  raw := File.raw
  fields f := (f.id, f.file, f.spoiler, ())
  make raw
    | (id, file, spoiler, _) =>
        { raw, id, file, spoiler }
  raw_make _ _ := rfl
  fields_make _ _ := rfl

theorem File.toJson_eq (f : File) : File.record.toJson f = f.toJson := rfl

theorem File.fromJson_eq (j : Json) : File.record.fromJson j = File.fromJson j := by
  simp only [Record.fromJson, record, Members.map_take_cons, Members.map_take_nil]
  rfl

def Separator.record : Record Separator where
  T := _
  header := some ("type", ComponentType.separator.json)
  members :=
    .cons "id" optionalMember <| .cons "divider" optionalMember <|
    .cons "spacing" optionalMember .nil
  header_key := by simp
  raw := Separator.raw
  fields s := (s.id, s.divider, s.spacing, ())
  make raw
    | (id, divider, spacing, _) =>
        { raw, id, divider, spacing }
  raw_make _ _ := rfl
  fields_make _ _ := rfl

theorem Separator.toJson_eq (s : Separator) : Separator.record.toJson s = s.toJson := rfl

theorem Separator.fromJson_eq (j : Json) : Separator.record.fromJson j = Separator.fromJson j := by
  simp only [Record.fromJson, record, Members.map_take_cons, Members.map_take_nil]
  rfl

def FileUpload.record : Record FileUpload where
  T := _
  header := some ("type", ComponentType.fileUpload.json)
  members :=
    .cons "id" optionalMember <| .cons "custom_id" member <| .cons "min_values" optionalMember <|
    .cons "max_values" optionalMember <| .cons "required" optionalMember .nil
  header_key := by simp
  raw := FileUpload.raw
  fields f := (f.id, f.customId, f.minValues, f.maxValues, f.required, ())
  make raw
    | (id, customId, minValues, maxValues, required, _) =>
        { raw, id, customId, minValues, maxValues, required }
  raw_make _ _ := rfl
  fields_make _ _ := rfl

theorem FileUpload.toJson_eq (f : FileUpload) : FileUpload.record.toJson f = f.toJson := rfl

theorem FileUpload.fromJson_eq (j : Json) :
    FileUpload.record.fromJson j = FileUpload.fromJson j := by
  simp only [Record.fromJson, record, Members.map_take_cons, Members.map_take_nil]
  rfl

end Ekizu.Components
