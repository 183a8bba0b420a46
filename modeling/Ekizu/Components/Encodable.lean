import Ekizu.Components.MessageComponent

/-!
# What can be encoded

A component is written over the document that it keeps, or over an empty object in place of
anything else.  Only an emoji is written into what is already there, and throws where that is
neither an object nor `null`.

## Main results

* `MessageComponent.exists_toJson_iff` — which components can be encoded.
-/

namespace Ekizu.Components

open Lib Lib.Json

variable [FloatCast]

instance : Writable ButtonStyle := ⟨fun _ => ⟨_, rfl⟩⟩

instance : Writable TextInputStyle := ⟨fun _ => ⟨_, rfl⟩⟩

/-! ## Emoji -/

/-- An emoji can be written into the document: there is none to write, or what is under its
key is an object or `null`. -/
def emojiFits (raw : Json) (emoji : Option PartialEmoji) : Bool :=
  emoji.isNone || (raw.get "emoji").isNull || (raw.get "emoji").isObject

omit [FloatCast] in
theorem PartialEmoji.exists_toJson_iff {p : PartialEmoji} {j : Json} :
    (∃ out, p.toJson j = some out) ↔ j.isNull = true ∨ j.isObject = true := by
  have hkeys : ["id", "name", "animated"].Nodup := by decide
  cases j with
  | null => exact iff_of_true (exists_writeAll_null hkeys (by simp)) (.inl rfl)
  | object members =>
      exact iff_of_true (exists_writeAll rfl hkeys (by simp)) (.inr rfl)
  | boolean | unsigned | integer | float | string | array =>
      exact iff_of_false (by rintro ⟨_, ⟨⟩⟩) (by simp [isNull, isObject])

omit [FloatCast] in
@[simp] theorem exists_emoji_iff {raw : Json} {emoji : Option PartialEmoji} :
    (∃ w, serialize emoji (raw.get "emoji") = some w) ↔ emojiFits raw emoji = true := by
  cases emoji with
  | none => simp [serialize, Member.put, emojiFits]
  | some p => simp [serialize, Member.put, emojiFits, PartialEmoji.exists_toJson_iff]

/-! ## Components without an emoji -/

instance : Writable SelectMenuDefaultValue where
  exists_write _ := (exists_writeAll_iff isObject_ensureObject (by simp)).mpr (by simp)

instance : Writable UnfurledMediaItem where
  exists_write _ := (exists_writeAll_iff isObject_ensureObject (by simp)).mpr (by simp)

instance : Writable MediaGalleryItem where
  exists_write _ := (exists_writeAll_iff isObject_ensureObject (by simp)).mpr (by simp)

@[simp] theorem UserSelectMenu.exists_toJson (s : UserSelectMenu) :
    ∃ out, s.toJson = some out :=
  (exists_writeAll_iff isObject_ensureObject (by simp [serializeSelectCommon])).mpr
    (by simp [serializeSelectCommon])

@[simp] theorem RoleSelectMenu.exists_toJson (s : RoleSelectMenu) :
    ∃ out, s.toJson = some out :=
  (exists_writeAll_iff isObject_ensureObject (by simp [serializeSelectCommon])).mpr
    (by simp [serializeSelectCommon])

@[simp] theorem MentionableSelectMenu.exists_toJson (s : MentionableSelectMenu) :
    ∃ out, s.toJson = some out :=
  (exists_writeAll_iff isObject_ensureObject (by simp [serializeSelectCommon])).mpr
    (by simp [serializeSelectCommon])

@[simp] theorem ChannelSelectMenu.exists_toJson (s : ChannelSelectMenu) :
    ∃ out, s.toJson = some out :=
  (exists_writeAll_iff isObject_ensureObject (by simp [serializeSelectCommon])).mpr
    (by simp [serializeSelectCommon])

@[simp] theorem TextInput.exists_toJson (t : TextInput) : ∃ out, t.toJson = some out :=
  (exists_writeAll_iff isObject_ensureObject (by simp)).mpr (by simp)

@[simp] theorem TextDisplay.exists_toJson (t : TextDisplay) : ∃ out, t.toJson = some out :=
  (exists_writeAll_iff isObject_ensureObject (by simp)).mpr (by simp)

instance : Writable TextDisplay := ⟨TextDisplay.exists_toJson⟩

@[simp] theorem Thumbnail.exists_toJson (t : Thumbnail) : ∃ out, t.toJson = some out :=
  (exists_writeAll_iff isObject_ensureObject (by simp)).mpr (by simp)

@[simp] theorem MediaGallery.exists_toJson (m : MediaGallery) : ∃ out, m.toJson = some out :=
  (exists_writeAll_iff isObject_ensureObject (by simp)).mpr (by simp)

@[simp] theorem File.exists_toJson (f : File) : ∃ out, f.toJson = some out :=
  (exists_writeAll_iff isObject_ensureObject (by simp)).mpr (by simp)

@[simp] theorem Separator.exists_toJson (s : Separator) : ∃ out, s.toJson = some out :=
  (exists_writeAll_iff isObject_ensureObject (by simp)).mpr (by simp)

@[simp] theorem FileUpload.exists_toJson (f : FileUpload) : ∃ out, f.toJson = some out :=
  (exists_writeAll_iff isObject_ensureObject (by simp)).mpr (by simp)

omit [FloatCast] in
@[simp] theorem UnknownMessageComponent.exists_toJson (u : UnknownMessageComponent) :
    ∃ out, u.toJson = some out := by
  unfold toJson
  split
  · exact ⟨_, rfl⟩
  · exact exists_set_iff.mpr (.inr isObject_ensureObject)

/-! ## Components with emoji under them -/

def Button.encodable (b : Button) : Bool := emojiFits b.raw b.emoji

@[simp] theorem Button.exists_toJson_iff {b : Button} :
    (∃ out, b.toJson = some out) ↔ b.encodable = true := by
  refine (exists_writeAll_iff isObject_ensureObject (by simp)).trans ?_
  simp [encodable]

def SelectOptions.encodable (o : SelectOptions) : Bool := emojiFits o.raw o.emoji

omit [FloatCast] in
@[simp] theorem SelectOptions.exists_write_iff {o : SelectOptions} :
    (∃ out, Value.write o = some out) ↔ o.encodable = true := by
  refine (exists_writeAll_iff isObject_ensureObject (by simp)).trans ?_
  simp [encodable]

def SelectMenu.encodable (s : SelectMenu) : Bool := s.options.all SelectOptions.encodable

@[simp] theorem SelectMenu.exists_toJson_iff {s : SelectMenu} :
    (∃ out, s.toJson = some out) ↔ s.encodable = true := by
  refine (exists_writeAll_iff isObject_ensureObject (by simp [serializeSelectCommon])).trans ?_
  simp [serializeSelectCommon, encodable]

def SectionAccessory.encodable : SectionAccessory → Bool
  | .button b => b.encodable
  | .thumbnail _ => true

@[simp] theorem SectionAccessory.exists_put_iff {a : Option SectionAccessory} {j : Json} :
    (∃ w, SectionAccessory.put a j = some w) ↔ a.all encodable = true := by
  cases a with
  | none => simp [put]
  | some a => cases a <;> simp [put, toJson, encodable]

def Section.encodable (s : Section) : Bool := s.accessory.all SectionAccessory.encodable

@[simp] theorem Section.exists_toJson_iff {s : Section} :
    (∃ out, s.toJson = some out) ↔ s.encodable = true := by
  refine (exists_writeAll_iff isObject_ensureObject (by simp)).trans ?_
  simp [encodable]

def LabelComponent.encodable : LabelComponent → Bool
  | .selectMenu s => s.encodable
  | _ => true

@[simp] theorem LabelComponent.exists_put_iff {c : LabelComponent} {j : Json} :
    (∃ w, LabelComponent.put c j = some w) ↔ c.encodable = true := by
  cases c <;> simp [put, toJson, encodable]

def Label.encodable (l : Label) : Bool := l.component.encodable

@[simp] theorem Label.exists_toJson_iff {l : Label} :
    (∃ out, l.toJson = some out) ↔ l.encodable = true := by
  refine (exists_writeAll_iff isObject_ensureObject (by simp)).trans ?_
  simp [encodable]

def ActionRowComponent.encodable : ActionRowComponent → Bool
  | .button b => b.encodable
  | .selectMenu s => s.encodable
  | _ => true

@[simp] theorem ActionRowComponent.exists_write_iff {c : ActionRowComponent} :
    (∃ out, Value.write c = some out) ↔ c.encodable = true := by
  cases c <;> simp [Value.write, toJson, encodable]

def ActionRow.encodable (a : ActionRow) : Bool := a.components.all ActionRowComponent.encodable

@[simp] theorem ActionRow.exists_toJson_iff {a : ActionRow} :
    (∃ out, a.toJson = some out) ↔ a.encodable = true := by
  refine (exists_writeAll_iff isObject_ensureObject (by simp)).trans ?_
  simp [encodable]

def ContainerChild.encodable : ContainerChild → Bool
  | .actionRow a => a.encodable
  | .section s => s.encodable
  | .button b => b.encodable
  | .selectMenu s => s.encodable
  | _ => true

@[simp] theorem ContainerChild.exists_toJson_iff {c : ContainerChild} :
    (∃ out, c.toJson = some out) ↔ c.encodable = true := by
  cases c <;> simp [toJson, encodable]

@[simp] theorem Container.exists_putComponents_iff {components : List ContainerChild} {j : Json} :
    (∃ w, Container.putComponents components j = some w) ↔
      components.all ContainerChild.encodable = true := by
  simp [putComponents, exists_mapM_iff]

def Container.encodable (c : Container) : Bool := c.components.all ContainerChild.encodable

@[simp] theorem Container.exists_toJson_iff {c : Container} :
    (∃ out, c.toJson = some out) ↔ c.encodable = true := by
  refine (exists_writeAll_iff isObject_ensureObject (by simp)).trans ?_
  simp [encodable]

/-! ## Components -/

/-- The documents of the buttons and options of a component take their emoji. -/
def MessageComponent.encodable : MessageComponent → Bool
  | .actionRow a => a.encodable
  | .button b => b.encodable
  | .selectMenu s => s.encodable
  | .section s => s.encodable
  | .container c => c.encodable
  | .label l => l.encodable
  | _ => true

/-- **A component can be encoded** exactly if its documents take the emoji in it. -/
theorem MessageComponent.exists_toJson_iff {c : MessageComponent} :
    (∃ out, c.toJson = some out) ↔ c.encodable = true := by
  cases c <;> simp [toJson, encodable]

end Ekizu.Components
