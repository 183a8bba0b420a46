import Ekizu.Components.Bare
import Ekizu.Lib.JsonEdit

/-!
# Typed fields over documents

A component is written over the document that it was decoded from.  Its typed fields cover
that document if nothing in it is read in place of a field that is empty: `serialize` writes
nothing for such a field, so what was there stays.

## Main results

* `optional_winsIff`, `emoji_winsIff` — what a member covers.
* `Button.wins_iff` and its like — the fields of a component win exactly if they cover its
  document.
-/

namespace Ekizu.Components

open Lib Lib.Json

variable {A : Type}

/-! ## Covered documents -/

/-- Nothing that an optional member is read from: null, or a text for an integer. -/
def Blank (A : Type) [Value A] (v : Json) : Prop :=
  v.isNull = true ∨ (v.isString = true ∧ (Value.ofText (A := A)).isSome = true)

/-- An optional member that is empty covers what is blank. -/
def Covers [Value A] (o : Option A) (v : Json) : Prop := o = none → Blank A v

/-- An emoji is written into what is there, which has to be an object. -/
def EmojiCovers : Option PartialEmoji → Json → Prop
  | none, v => v.isNull = true
  | some p, v => (v.isNull = true ∨ v.isObject = true) ∧ Covers p.animated (v.get "animated")

section

variable [FloatCast]

def SelectOptions.Covers (o : SelectOptions) : Prop :=
  Components.Covers o.description (o.raw.get "description") ∧
    EmojiCovers o.emoji (o.raw.get "emoji") ∧ Components.Covers o.default_ (o.raw.get "default")

def MediaGalleryItem.Covers (m : MediaGalleryItem) : Prop :=
  Components.Covers m.description (m.raw.get "description") ∧
    Components.Covers m.spoiler (m.raw.get "spoiler")

def Button.Covers (b : Button) : Prop :=
  Components.Covers b.id (b.raw.get "id") ∧ Components.Covers b.label (b.raw.get "label") ∧
    EmojiCovers b.emoji (b.raw.get "emoji") ∧
    Components.Covers b.customId (b.raw.get "custom_id") ∧
    Components.Covers b.url (b.raw.get "url") ∧ Components.Covers b.skuId (b.raw.get "sku_id")

/-- What the select menus have in common, apart from the default values. -/
def SelectCovers (raw : Json) (id : Option UInt32) (placeholder : Option String)
    (minValues maxValues : Option UInt8) (disabled : Option Bool) : Prop :=
  Covers id (raw.get "id") ∧ Covers placeholder (raw.get "placeholder") ∧
    Covers minValues (raw.get "min_values") ∧ Covers maxValues (raw.get "max_values") ∧
    Covers disabled (raw.get "disabled")

def SelectMenu.Covers (s : SelectMenu) : Prop :=
  SelectCovers s.raw s.id s.placeholder s.minValues s.maxValues s.disabled ∧
    ∀ o ∈ s.options, o.Covers

def UserSelectMenu.Covers (s : UserSelectMenu) : Prop :=
  SelectCovers s.raw s.id s.placeholder s.minValues s.maxValues s.disabled ∧
    Components.Covers s.defaultValues (s.raw.get "default_values")

def RoleSelectMenu.Covers (s : RoleSelectMenu) : Prop :=
  SelectCovers s.raw s.id s.placeholder s.minValues s.maxValues s.disabled ∧
    Components.Covers s.defaultValues (s.raw.get "default_values")

def MentionableSelectMenu.Covers (s : MentionableSelectMenu) : Prop :=
  SelectCovers s.raw s.id s.placeholder s.minValues s.maxValues s.disabled ∧
    Components.Covers s.defaultValues (s.raw.get "default_values")

def ChannelSelectMenu.Covers (s : ChannelSelectMenu) : Prop :=
  SelectCovers s.raw s.id s.placeholder s.minValues s.maxValues s.disabled ∧
    Components.Covers s.defaultValues (s.raw.get "default_values") ∧
    Components.Covers s.channelTypes (s.raw.get "channel_types")

def TextInput.Covers (t : TextInput) : Prop :=
  Components.Covers t.id (t.raw.get "id") ∧
    Components.Covers t.minLength (t.raw.get "min_length") ∧
    Components.Covers t.maxLength (t.raw.get "max_length") ∧
    Components.Covers t.required (t.raw.get "required") ∧
    Components.Covers t.value (t.raw.get "value") ∧
    Components.Covers t.placeholder (t.raw.get "placeholder")

def TextDisplay.Covers (t : TextDisplay) : Prop := Components.Covers t.id (t.raw.get "id")

def Thumbnail.Covers (t : Thumbnail) : Prop :=
  Components.Covers t.id (t.raw.get "id") ∧
    Components.Covers t.description (t.raw.get "description") ∧
    Components.Covers t.spoiler (t.raw.get "spoiler")

def MediaGallery.Covers (m : MediaGallery) : Prop :=
  Components.Covers m.id (m.raw.get "id") ∧ ∀ item ∈ m.items, item.Covers

def File.Covers (f : File) : Prop :=
  Components.Covers f.id (f.raw.get "id") ∧ Components.Covers f.spoiler (f.raw.get "spoiler")

def Separator.Covers (s : Separator) : Prop :=
  Components.Covers s.id (s.raw.get "id") ∧ Components.Covers s.divider (s.raw.get "divider") ∧
    Components.Covers s.spacing (s.raw.get "spacing")

def FileUpload.Covers (f : FileUpload) : Prop :=
  Components.Covers f.id (f.raw.get "id") ∧
    Components.Covers f.minValues (f.raw.get "min_values") ∧
    Components.Covers f.maxValues (f.raw.get "max_values") ∧
    Components.Covers f.required (f.raw.get "required")

/-- An accessory that is taken away covers what is none. -/
def AccessoryCovers : Option SectionAccessory → Json → Prop
  | none, v =>
      typeOf v ≠ some ComponentType.button.code ∧ typeOf v ≠ some ComponentType.thumbnail.code
  | some (.button b), _ => b.Covers
  | some (.thumbnail t), _ => t.Covers

def Section.Covers (s : Section) : Prop :=
  Components.Covers s.id (s.raw.get "id") ∧ (∀ t ∈ s.components, t.Covers) ∧
    AccessoryCovers s.accessory (s.raw.get "accessory")

def LabelComponent.Covers : LabelComponent → Prop
  | .textInput t => t.Covers
  | .fileUpload f => f.Covers
  | .selectMenu s => s.Covers
  | .userSelect s => s.Covers
  | .roleSelect s => s.Covers
  | .mentionableSelect s => s.Covers
  | .channelSelect s => s.Covers

def Label.Covers (l : Label) : Prop :=
  Components.Covers l.id (l.raw.get "id") ∧
    Components.Covers l.description (l.raw.get "description") ∧ l.component.Covers

def ActionRowComponent.Covers : ActionRowComponent → Prop
  | .button b => b.Covers
  | .selectMenu s => s.Covers
  | .userSelect s => s.Covers
  | .roleSelect s => s.Covers
  | .mentionableSelect s => s.Covers
  | .channelSelect s => s.Covers
  | .textInput t => t.Covers
  | .fileUpload f => f.Covers

def ActionRow.Covers (a : ActionRow) : Prop :=
  Components.Covers a.id (a.raw.get "id") ∧ ∀ c ∈ a.components, c.Covers

/-- The number under `"type"` that is written: the one of the document, if it has any. -/
def UnknownMessageComponent.written (u : UnknownMessageComponent) : Option UInt8 :=
  if u.raw.contains "type" then typeOf u.raw else some u.type

/-- What is written of an unknown child is a child of no other type.  One without a number
is read as an unknown child of type 0. -/
def ContainerChild.Covers : ContainerChild → Prop
  | .actionRow a => a.Covers
  | .section s => s.Covers
  | .textDisplay t => t.Covers
  | .thumbnail t => t.Covers
  | .mediaGallery m => m.Covers
  | .file f => f.Covers
  | .separator s => s.Covers
  | .button b => b.Covers
  | .selectMenu s => s.Covers
  | .userSelect s => s.Covers
  | .roleSelect s => s.Covers
  | .mentionableSelect s => s.Covers
  | .channelSelect s => s.Covers
  | .unknown u =>
      (u.written = some u.type ∧ ∀ t ∈ modelled, u.type ≠ t.code) ∨
        (u.written = none ∧ u.type = 0)

/-- The accent color is read from an unsigned number alone. -/
def Container.Covers (c : Container) : Prop :=
  Components.Covers c.id (c.raw.get "id") ∧
    (c.accentColor = none → (c.raw.get "accent_color").isNumberUnsigned = false) ∧
    Components.Covers c.spoiler (c.raw.get "spoiler") ∧ ∀ child ∈ c.components, child.Covers

/-- **The typed fields cover the document**, at every level. -/
def MessageComponent.Covers : MessageComponent → Prop
  | .actionRow a => a.Covers
  | .button b => b.Covers
  | .selectMenu s => s.Covers
  | .userSelect s => s.Covers
  | .roleSelect s => s.Covers
  | .mentionableSelect s => s.Covers
  | .channelSelect s => s.Covers
  | .textInput t => t.Covers
  | .section s => s.Covers
  | .textDisplay t => t.Covers
  | .thumbnail t => t.Covers
  | .mediaGallery m => m.Covers
  | .file f => f.Covers
  | .separator s => s.Covers
  | .container c => c.Covers
  | .label l => l.Covers
  | .fileUpload f => f.Covers
  | .unknown u => u.written = some u.type ∧ ∀ t : ComponentType, u.type ≠ t.code

end

/-! ## Members -/

section

variable [Value A] [Lawful A] {f : A → A}

/-- **A member is always replaced.** -/
theorem member_winsIff : (member (A := A)).WinsIff f fun _ a => Lawful.format.Wins f a := by
  intro v a
  have htake : ∀ {out : Json}, Value.write a = some out →
      Member.take (A := A) out = Lawful.format.get out := by
    intro out hwrite
    obtain ⟨hnull, htext⟩ := not_blank_of_write hwrite
    rw [Lawful.get_eq]
    show (if out.isNull then _ else readValue _ _ _) = _
    rw [if_neg (by simp [hnull]), readValue_get htext]
    exact Option.map_id'
  constructor
  · intro hwins
    obtain ⟨w, hput, a', hread, heq⟩ := hwins
    obtain ⟨out, hwrite, rfl⟩ := Option.map_eq_some_iff.mp hput
    rw [show member.take = Member.take (A := A) from rfl, Option.getD_some, htake hwrite] at hread
    exact ⟨out, (Lawful.write_eq a).trans hwrite, a', hread, heq⟩
  · intro hwins
    obtain ⟨out, hwrite, a', hget, heq⟩ := hwins
    rw [Lawful.write_eq] at hwrite
    refine ⟨some out, Option.map_eq_some_iff.mpr ⟨out, hwrite, rfl⟩, a', ?_, heq⟩
    exact (htake hwrite).trans hget

omit [Lawful A] in
theorem take_none_iff (v : Json) :
    (Member.take (A := Option A) v = some none) ↔ Blank A v := by
  unfold Blank
  by_cases hnull : v.isNull = true
  · simp [Member.take, hnull]
  by_cases htext : v.isString = true ∧ (Value.ofText (A := A)).isSome = true
  · obtain ⟨⟨s, rfl⟩, hsome⟩ := htext.imp_left isString_eq_true
    obtain ⟨ofText, hofText⟩ := Option.isSome_iff_exists.mp hsome
    simp [Member.take, isNull, isString, readValue, hofText]
  · have htake : Member.take (A := Option A) v = (Value.get v).map some := by
      simp only [Member.take, hnull, Bool.false_eq_true, if_false]
      exact readValue_get (by simpa using htext)
    rw [htake]
    simp [hnull, htext]

/-- **An optional member is left alone** if it is empty. -/
theorem optional_winsIff (h : ∀ a : A, Lawful.format.Wins f a) :
    (optionalMember (A := A)).WinsIff (Option.map f) fun v o => Covers o v := by
  intro v o
  cases o with
  | none =>
      have hempty : (optionalMember (A := A)).Wins (Option.map f) v none ↔
          Member.take (A := Option A) v = some none := by
        constructor
        · intro hwins
          obtain ⟨w, hput, o, htake, heq⟩ := hwins
          obtain rfl := Option.some.inj hput
          obtain rfl := Option.map_eq_none_iff.mp heq
          exact htake
        · intro htake
          exact ⟨none, rfl, none, htake, rfl⟩
      rw [hempty, take_none_iff]
      exact ⟨fun hblank _ => hblank, fun hcovers => hcovers rfl⟩
  | some a =>
      refine iff_of_true ?_ (fun hnone => by cases hnone)
      obtain ⟨out, hwrite, a', hget, heq⟩ := h a
      rw [Lawful.write_eq] at hwrite
      rw [Lawful.get_eq] at hget
      obtain ⟨hnull, htext⟩ := not_blank_of_write hwrite
      refine ⟨some out, Option.map_eq_some_iff.mpr ⟨out, hwrite, rfl⟩, some a', ?_,
        congrArg some heq⟩
      show (if out.isNull then _ else readValue _ _ out) = _
      rw [if_neg (by simp [hnull]), readValue_get htext, hget, Option.map_some]

variable [Plain A]

theorem plain_wins (a : A) : Lawful.format.Wins id a := by
  obtain ⟨out, hwrite, a', hget, hagrees⟩ := Lawful.format.restores a (Plain.built a)
  exact ⟨out, hwrite, a', hget, Plain.agrees hagrees⟩

theorem plainMember_wins (v : Json) (a : A) : (member (A := A)).Wins id v a :=
  (member_winsIff v a).mpr (plain_wins a)

theorem plainOptional_winsIff : (optionalMember (A := A)).WinsIff id fun v o => Covers o v := by
  have h := optional_winsIff (A := A) plain_wins
  rwa [Option.map_id] at h

end

theorem emojiMembers_winsIff :
    emojiMembers.WinsIff (Prod.map id <| Prod.map id <| Prod.map id id)
      fun j t => Covers t.2.2.1 (j.get "animated") := by
  intro base j hobject hbase t
  have hwins : emojiMembers.WinsIff _ _ :=
    .skip plainMember_wins <| .skip plainMember_wins <| .last plainOptional_winsIff .nil
  exact hwins base j hobject hbase t

/-- An emoji that is written into an object, and read from it. -/
theorem emoji_restores_iff (p : PartialEmoji) {base j : Json} (hobject : base.isObject = true)
    (hbase : ∀ k ∈ emojiMembers.keys, base.get k = j.get k) :
    (∃ out, p.toJson base = some out ∧ out.isNull = false ∧ PartialEmoji.fromJson out = some p) ↔
      Covers p.animated (j.get "animated") := by
  have hwins := emojiMembers_winsIff base j hobject hbase (p.id, p.name, p.animated, ())
  dsimp only at hwins
  rw [← hwins]
  simp only [emoji_toJson, emoji_fromJson]
  constructor
  · intro hread
    obtain ⟨out, hwrite, -, hread⟩ := hread
    obtain ⟨t, htake, rfl⟩ := Option.map_eq_some_iff.mp hread
    exact ⟨out, hwrite, t, htake, rfl⟩
  · intro hwins
    obtain ⟨out, hwrite, t, htake, heq⟩ := hwins
    obtain rfl : t = (p.id, p.name, p.animated, ()) := heq
    exact ⟨out, hwrite, not_isNull_of_isObject (isObject_writeAll hobject hwrite),
      Option.map_eq_some_iff.mpr ⟨_, htake, rfl⟩⟩

theorem emoji_winsIff : emojiMember.WinsIff id fun v o => EmojiCovers o v := by
  intro v o
  cases o with
  | none =>
      show (∃ w, some none = some w ∧ ∃ o, (if (w.getD v).isNull then some none
        else (PartialEmoji.fromJson (w.getD v)).map some) = some o ∧ o = none) ↔ v.isNull = true
      by_cases hnull : v.isNull = true
      · simp [hnull]
      · simp [hnull]
  | some p =>
      have hwins : emojiMember.Wins id v (some p) ↔ ∃ out, p.toJson v = some out ∧
          out.isNull = false ∧ PartialEmoji.fromJson out = some p := by
        constructor
        · intro hwins
          obtain ⟨w, hput, o, htake, rfl⟩ := hwins
          obtain ⟨out, hwrite, rfl⟩ := Option.map_eq_some_iff.mp hput
          have htake : (if out.isNull then some none
            else (PartialEmoji.fromJson out).map some) = some (some p) := htake
          by_cases hnull : out.isNull = true
          · simp [hnull] at htake
          · exact ⟨out, hwrite, by simpa using hnull, by simpa [hnull] using htake⟩
        · intro hread
          obtain ⟨out, hwrite, hnull, hread⟩ := hread
          refine ⟨some out, Option.map_eq_some_iff.mpr ⟨out, hwrite, rfl⟩, some p, ?_, rfl⟩
          show (if out.isNull then some none else (PartialEmoji.fromJson out).map some) = _
          rw [if_neg (by simp [hnull]), hread, Option.map_some]
      rw [hwins]
      show _ ↔ (v.isNull = true ∨ v.isObject = true) ∧ Covers p.animated (v.get "animated")
      by_cases hnull : v.isNull = true
      · obtain rfl := isNull_eq_true hnull
        have hread : _ ↔ Covers p.animated (null.get "animated") :=
          emoji_restores_iff p (rfl : (object []).isObject = true) fun _ _ => rfl
        rw [emoji_put_null, hread]
        simp [hnull]
      by_cases hobject : v.isObject = true
      · rw [emoji_restores_iff p hobject fun _ _ => rfl]
        simp [hobject]
      · rw [emoji_put_none p hnull hobject]
        simp [hnull, hobject]

/-! ## Records -/

-- a rule for `Members.cons` is unified with the members of a record, key by key
attribute [local irreducible] Members.cons

theorem SelectOptions.wins_iff (o : SelectOptions) : record.format.Wins bare o ↔ o.Covers := by
  have hmembers : SelectOptions.record.members.WinsIff _ _ :=
    .skip plainMember_wins <| .skip plainMember_wins <| .cons plainOptional_winsIff <|
      .cons emoji_winsIff <| .last plainOptional_winsIff .nil
  exact Record.wins_iff hmembers (fun _ => rfl) o

theorem UnfurledMediaItem.wins (m : UnfurledMediaItem) : record.format.Wins bare m := by
  have hmembers : UnfurledMediaItem.record.members.WinsIff _ fun _ _ => True :=
    .skip plainMember_wins .nil
  exact (Record.wins_iff hmembers (fun _ => rfl) m).mpr trivial

/-- A list of options, items or texts is replaced. -/
theorem memberList_winsIff {A : Type} [Value A] [Lawful A] {f : A → A} {P : A → Prop}
    (h : ∀ a : A, Lawful.format.Wins f a ↔ P a) :
    (member (A := List A)).WinsIff (List.map f) fun _ as => ∀ a ∈ as, P a := by
  intro v as
  refine (member_winsIff v as).trans ((Format.wins_list as).trans ?_)
  simp only [h]

theorem media_wins (v : Json) (m : UnfurledMediaItem) : member.Wins UnfurledMediaItem.bare v m :=
  (member_winsIff v m).mpr m.wins

theorem MediaGalleryItem.wins_iff (m : MediaGalleryItem) :
    record.format.Wins bare m ↔ m.Covers := by
  have hmembers : MediaGalleryItem.record.members.WinsIff _ _ :=
    .skip media_wins <| .cons plainOptional_winsIff <| .last plainOptional_winsIff .nil
  exact Record.wins_iff hmembers (fun _ => rfl) m

section

variable [FloatCast]

theorem SelectMenuDefaultValue.wins (v : SelectMenuDefaultValue) : record.format.Wins bare v := by
  have hmembers : SelectMenuDefaultValue.record.members.WinsIff _ fun _ _ => True :=
    .skip plainMember_wins <| .skip plainMember_wins .nil
  exact (Record.wins_iff hmembers (fun _ => rfl) v).mpr trivial

theorem SelectMenuDefaultValue.list_wins (vs : List SelectMenuDefaultValue) :
    Lawful.format.Wins (List.map bare) vs :=
  (Format.wins_list vs).mpr fun v _ => v.wins

theorem Button.wins_iff (b : Button) : record.format.Wins bare b ↔ b.Covers := by
  have hmembers : Button.record.members.WinsIff _ _ :=
    .cons plainOptional_winsIff <| .skip plainMember_wins <| .cons plainOptional_winsIff <|
      .cons emoji_winsIff <| .cons plainOptional_winsIff <| .cons plainOptional_winsIff <|
      .last plainOptional_winsIff <| .skip plainMember_wins .nil
  exact Record.wins_iff hmembers (fun _ => rfl) b

theorem selectCovers_and_iff {raw : Json} {id : Option UInt32} {placeholder : Option String}
    {minValues maxValues : Option UInt8} {disabled : Option Bool} {P : Prop} :
    SelectCovers raw id placeholder minValues maxValues disabled ∧ P ↔
      Covers id (raw.get "id") ∧ Covers placeholder (raw.get "placeholder") ∧
        Covers minValues (raw.get "min_values") ∧ Covers maxValues (raw.get "max_values") ∧
        Covers disabled (raw.get "disabled") ∧ P := by
  unfold SelectCovers
  simp only [and_assoc]

theorem SelectMenu.wins_iff (s : SelectMenu) : record.format.Wins bare s ↔ s.Covers := by
  have hmembers : SelectMenu.record.members.WinsIff _ _ :=
    .cons plainOptional_winsIff <| .skip plainMember_wins <| .cons plainOptional_winsIff <|
      .cons plainOptional_winsIff <| .cons plainOptional_winsIff <|
      .cons plainOptional_winsIff <| .last (memberList_winsIff SelectOptions.wins_iff) .nil
  exact (Record.wins_iff hmembers (fun _ => rfl) s).trans selectCovers_and_iff.symm

theorem UserSelectMenu.wins_iff (s : UserSelectMenu) : record.format.Wins bare s ↔ s.Covers := by
  have hmembers : UserSelectMenu.record.members.WinsIff _ _ :=
    .cons plainOptional_winsIff <| .skip plainMember_wins <| .cons plainOptional_winsIff <|
      .cons plainOptional_winsIff <| .cons plainOptional_winsIff <|
      .cons plainOptional_winsIff <|
      .last (optional_winsIff SelectMenuDefaultValue.list_wins) .nil
  exact (Record.wins_iff hmembers (fun _ => rfl) s).trans selectCovers_and_iff.symm

theorem RoleSelectMenu.wins_iff (s : RoleSelectMenu) : record.format.Wins bare s ↔ s.Covers := by
  have hmembers : RoleSelectMenu.record.members.WinsIff _ _ :=
    .cons plainOptional_winsIff <| .skip plainMember_wins <| .cons plainOptional_winsIff <|
      .cons plainOptional_winsIff <| .cons plainOptional_winsIff <|
      .cons plainOptional_winsIff <|
      .last (optional_winsIff SelectMenuDefaultValue.list_wins) .nil
  exact (Record.wins_iff hmembers (fun _ => rfl) s).trans selectCovers_and_iff.symm

theorem MentionableSelectMenu.wins_iff (s : MentionableSelectMenu) :
    record.format.Wins bare s ↔ s.Covers := by
  have hmembers : MentionableSelectMenu.record.members.WinsIff _ _ :=
    .cons plainOptional_winsIff <| .skip plainMember_wins <| .cons plainOptional_winsIff <|
      .cons plainOptional_winsIff <| .cons plainOptional_winsIff <|
      .cons plainOptional_winsIff <|
      .last (optional_winsIff SelectMenuDefaultValue.list_wins) .nil
  exact (Record.wins_iff hmembers (fun _ => rfl) s).trans selectCovers_and_iff.symm

theorem ChannelSelectMenu.wins_iff (s : ChannelSelectMenu) :
    record.format.Wins bare s ↔ s.Covers := by
  have hmembers : ChannelSelectMenu.record.members.WinsIff _ _ :=
    .cons plainOptional_winsIff <| .skip plainMember_wins <| .cons plainOptional_winsIff <|
      .cons plainOptional_winsIff <| .cons plainOptional_winsIff <|
      .cons plainOptional_winsIff <| .cons (optional_winsIff SelectMenuDefaultValue.list_wins) <|
      .last plainOptional_winsIff .nil
  exact (Record.wins_iff hmembers (fun _ => rfl) s).trans selectCovers_and_iff.symm

theorem TextInput.wins_iff (t : TextInput) : record.format.Wins bare t ↔ t.Covers := by
  have hmembers : TextInput.record.members.WinsIff _ _ :=
    .cons plainOptional_winsIff <| .skip plainMember_wins <| .skip plainMember_wins <|
      .skip plainMember_wins <| .cons plainOptional_winsIff <| .cons plainOptional_winsIff <|
      .cons plainOptional_winsIff <| .cons plainOptional_winsIff <|
      .last plainOptional_winsIff .nil
  exact Record.wins_iff hmembers (fun _ => rfl) t

theorem TextDisplay.wins_iff (t : TextDisplay) : record.format.Wins bare t ↔ t.Covers := by
  have hmembers : TextDisplay.record.members.WinsIff _ _ :=
    .last plainOptional_winsIff <| .skip plainMember_wins .nil
  exact Record.wins_iff hmembers (fun _ => rfl) t

theorem Thumbnail.wins_iff (t : Thumbnail) : record.format.Wins bare t ↔ t.Covers := by
  have hmembers : Thumbnail.record.members.WinsIff _ _ :=
    .cons plainOptional_winsIff <| .skip media_wins <| .cons plainOptional_winsIff <|
      .last plainOptional_winsIff .nil
  exact Record.wins_iff hmembers (fun _ => rfl) t

theorem MediaGallery.wins_iff (m : MediaGallery) : record.format.Wins bare m ↔ m.Covers := by
  have hmembers : MediaGallery.record.members.WinsIff _ _ :=
    .cons plainOptional_winsIff <| .last (memberList_winsIff MediaGalleryItem.wins_iff) .nil
  exact Record.wins_iff hmembers (fun _ => rfl) m

theorem File.wins_iff (f : File) : record.format.Wins bare f ↔ f.Covers := by
  have hmembers : File.record.members.WinsIff _ _ :=
    .cons plainOptional_winsIff <| .skip media_wins <| .last plainOptional_winsIff .nil
  exact Record.wins_iff hmembers (fun _ => rfl) f

theorem Separator.wins_iff (s : Separator) : record.format.Wins bare s ↔ s.Covers := by
  have hmembers : Separator.record.members.WinsIff _ _ :=
    .cons plainOptional_winsIff <| .cons plainOptional_winsIff <|
      .last plainOptional_winsIff .nil
  exact Record.wins_iff hmembers (fun _ => rfl) s

theorem FileUpload.wins_iff (f : FileUpload) : record.format.Wins bare f ↔ f.Covers := by
  have hmembers : FileUpload.record.members.WinsIff _ _ :=
    .cons plainOptional_winsIff <| .skip plainMember_wins <| .cons plainOptional_winsIff <|
      .cons plainOptional_winsIff <| .last plainOptional_winsIff .nil
  exact Record.wins_iff hmembers (fun _ => rfl) f

end

end Ekizu.Components
