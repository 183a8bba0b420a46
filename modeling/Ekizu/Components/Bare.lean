import Ekizu.Components.Dispatchers
import Ekizu.Lib.JsonForget

/-!
# Components without their documents

`bare` is a component without the documents that it and its children keep: what remains
are the alternatives and the typed members, at every level.

## Main results

* `MessageComponent.agrees_bare` — components agree if they are equal without documents.
* `MessageComponent.built_of_bare` — and one that has none yet is built in code.
-/

namespace Ekizu.Components

open Lib Lib.Json

/-! ## Definitions -/

def SelectOptions.bare (o : SelectOptions) : SelectOptions := { o with raw := .null }

def SelectMenuDefaultValue.bare (v : SelectMenuDefaultValue) : SelectMenuDefaultValue :=
  { v with raw := .null }

def UnfurledMediaItem.bare (m : UnfurledMediaItem) : UnfurledMediaItem := { m with raw := .null }

def MediaGalleryItem.bare (m : MediaGalleryItem) : MediaGalleryItem :=
  { m with media := m.media.bare, raw := .null }

def Button.bare (b : Button) : Button := { b with raw := .null }

def SelectMenu.bare (s : SelectMenu) : SelectMenu :=
  { s with options := s.options.map SelectOptions.bare, raw := .null }

def UserSelectMenu.bare (s : UserSelectMenu) : UserSelectMenu :=
  { s with defaultValues := s.defaultValues.map (List.map SelectMenuDefaultValue.bare)
           raw := .null }

def RoleSelectMenu.bare (s : RoleSelectMenu) : RoleSelectMenu :=
  { s with defaultValues := s.defaultValues.map (List.map SelectMenuDefaultValue.bare)
           raw := .null }

def MentionableSelectMenu.bare (s : MentionableSelectMenu) : MentionableSelectMenu :=
  { s with defaultValues := s.defaultValues.map (List.map SelectMenuDefaultValue.bare)
           raw := .null }

def ChannelSelectMenu.bare (s : ChannelSelectMenu) : ChannelSelectMenu :=
  { s with defaultValues := s.defaultValues.map (List.map SelectMenuDefaultValue.bare)
           raw := .null }

def TextInput.bare (t : TextInput) : TextInput := { t with raw := .null }

def TextDisplay.bare (t : TextDisplay) : TextDisplay := { t with raw := .null }

def Thumbnail.bare (t : Thumbnail) : Thumbnail := { t with media := t.media.bare, raw := .null }

def MediaGallery.bare (m : MediaGallery) : MediaGallery :=
  { m with items := m.items.map MediaGalleryItem.bare, raw := .null }

def File.bare (f : File) : File := { f with file := f.file.bare, raw := .null }

def Separator.bare (s : Separator) : Separator := { s with raw := .null }

def FileUpload.bare (f : FileUpload) : FileUpload := { f with raw := .null }

def UnknownMessageComponent.bare (u : UnknownMessageComponent) : UnknownMessageComponent :=
  { u with raw := .null }

def SectionAccessory.bare : SectionAccessory → SectionAccessory
  | .button b => .button b.bare
  | .thumbnail t => .thumbnail t.bare

def Section.bare (s : Section) : Section :=
  { s with components := s.components.map TextDisplay.bare
           accessory := s.accessory.map SectionAccessory.bare
           raw := .null }

def LabelComponent.bare : LabelComponent → LabelComponent
  | .textInput t => .textInput t.bare
  | .fileUpload f => .fileUpload f.bare
  | .selectMenu s => .selectMenu s.bare
  | .userSelect s => .userSelect s.bare
  | .roleSelect s => .roleSelect s.bare
  | .mentionableSelect s => .mentionableSelect s.bare
  | .channelSelect s => .channelSelect s.bare

def Label.bare (l : Label) : Label := { l with component := l.component.bare, raw := .null }

def ActionRowComponent.bare : ActionRowComponent → ActionRowComponent
  | .button b => .button b.bare
  | .selectMenu s => .selectMenu s.bare
  | .userSelect s => .userSelect s.bare
  | .roleSelect s => .roleSelect s.bare
  | .mentionableSelect s => .mentionableSelect s.bare
  | .channelSelect s => .channelSelect s.bare
  | .textInput t => .textInput t.bare
  | .fileUpload f => .fileUpload f.bare

def ActionRow.bare (a : ActionRow) : ActionRow :=
  { a with components := a.components.map ActionRowComponent.bare, raw := .null }

def ContainerChild.bare : ContainerChild → ContainerChild
  | .actionRow a => .actionRow a.bare
  | .section s => .section s.bare
  | .textDisplay t => .textDisplay t.bare
  | .thumbnail t => .thumbnail t.bare
  | .mediaGallery m => .mediaGallery m.bare
  | .file f => .file f.bare
  | .separator s => .separator s.bare
  | .button b => .button b.bare
  | .selectMenu s => .selectMenu s.bare
  | .userSelect s => .userSelect s.bare
  | .roleSelect s => .roleSelect s.bare
  | .mentionableSelect s => .mentionableSelect s.bare
  | .channelSelect s => .channelSelect s.bare
  | .unknown u => .unknown u.bare

def Container.bare (c : Container) : Container :=
  { c with components := c.components.map ContainerChild.bare, raw := .null }

def MessageComponent.bare : MessageComponent → MessageComponent
  | .actionRow a => .actionRow a.bare
  | .button b => .button b.bare
  | .selectMenu s => .selectMenu s.bare
  | .userSelect s => .userSelect s.bare
  | .roleSelect s => .roleSelect s.bare
  | .mentionableSelect s => .mentionableSelect s.bare
  | .channelSelect s => .channelSelect s.bare
  | .textInput t => .textInput t.bare
  | .section s => .section s.bare
  | .textDisplay t => .textDisplay t.bare
  | .thumbnail t => .thumbnail t.bare
  | .mediaGallery m => .mediaGallery m.bare
  | .file f => .file f.bare
  | .separator s => .separator s.bare
  | .container c => .container c.bare
  | .label l => .label l.bare
  | .fileUpload f => .fileUpload f.bare
  | .unknown u => .unknown u.bare

/-- The types that a child of a container can have. -/
def ContainerChild.modelled : List ComponentType :=
  [.actionRow, .section, .textDisplay, .thumbnail, .mediaGallery, .file, .separator, .button,
   .selectMenu, .userSelect, .roleSelect, .mentionableSelect, .channelSelect]

/-- An unknown child has a type that the container does not model. -/
def ContainerChild.Unmodelled : ContainerChild → Prop
  | .unknown u => ∀ t ∈ modelled, u.type ≠ t.code
  | _ => True

/-- An unknown component has a type that its decoder does not model, at every level. -/
def MessageComponent.Unmodelled : MessageComponent → Prop
  | .unknown u => ∀ t : ComponentType, u.type ≠ t.code
  | .container c => ∀ child ∈ c.components, child.Unmodelled
  | _ => True

/-! ## Members and records -/

section

variable {A : Type} [Value A] [Lawful A] {f : A → A}

theorem forgets_member (h : (Lawful.format (A := A)).Forgets f) : member.Forgets f where
  agrees := h.agrees
  built := h.built

theorem forgets_optional (h : (Lawful.format (A := A)).Forgets f) :
    optionalMember.Forgets (Option.map f) where
  agrees hagrees := by
    cases hagrees with
    | some hsome => exact congrArg some (h.agrees hsome)
    | none => rfl
  built heq a ha := by
    obtain rfl := ha
    exact h.built (Option.some.inj heq)

/-- A type that keeps no documents. -/
class Plain (A : Type) [Value A] [Lawful A] : Prop where
  agrees : ∀ {a' a : A}, Lawful.format.Agrees a' a → a' = a
  built : ∀ a : A, Lawful.format.Built a

theorem plain [Plain A] : (member (A := A)).Forgets id where
  agrees := Plain.agrees
  built _ := Plain.built _

theorem plainOptional [Plain A] : (optionalMember (A := A)).Forgets id where
  agrees hagrees := by
    cases hagrees with
    | some hsome => exact congrArg some (Plain.agrees hsome)
    | none => rfl
  built _ a _ := Plain.built a

instance [Plain A] : Plain (List A) where
  agrees hagrees := by
    induction hagrees with
    | nil => rfl
    | cons hfirst _ ih => rw [Plain.agrees hfirst, ih]
  built _ a _ := Plain.built a

end

theorem forgets_emoji : emojiMember.Forgets id where
  agrees := id
  built _ := trivial

instance : Plain Bool := ⟨id, fun _ => trivial⟩
instance : Plain String := ⟨id, fun _ => trivial⟩
instance : Plain Snowflake := ⟨id, fun _ => trivial⟩

theorem SelectOptions.forgets : SelectOptions.record.format.Forgets bare :=
  Record.forgets
    (.cons plain <| .cons plain <| .cons plainOptional <| .cons forgets_emoji <|
      .cons plainOptional .nil)
    fun _ => rfl

theorem UnfurledMediaItem.forgets : UnfurledMediaItem.record.format.Forgets bare :=
  Record.forgets (.cons plain .nil) fun _ => rfl

theorem MediaGalleryItem.forgets : MediaGalleryItem.record.format.Forgets bare :=
  Record.forgets
    (.cons (forgets_member UnfurledMediaItem.forgets) <| .cons plainOptional <|
      .cons plainOptional .nil)
    fun _ => rfl

section

variable [FloatCast]

instance : Plain UInt8 := ⟨id, fun _ => trivial⟩
instance : Plain UInt16 := ⟨id, fun _ => trivial⟩
instance : Plain UInt32 := ⟨id, fun _ => trivial⟩
instance : Plain UInt64 := ⟨id, fun _ => trivial⟩
instance : Plain ButtonStyle := ⟨id, fun _ => trivial⟩
instance : Plain TextInputStyle := ⟨id, fun _ => trivial⟩

theorem Button.forgets : Button.record.format.Forgets bare :=
  Record.forgets
    (.cons plainOptional <| .cons plain <| .cons plainOptional <| .cons forgets_emoji <|
      .cons plainOptional <| .cons plainOptional <| .cons plainOptional <| .cons plain .nil)
    fun _ => rfl

theorem SelectMenuDefaultValue.forgets : SelectMenuDefaultValue.record.format.Forgets bare :=
  Record.forgets (.cons plain <| .cons plain .nil) fun _ => rfl

theorem SelectMenu.forgets : SelectMenu.record.format.Forgets bare :=
  Record.forgets
    (.cons plainOptional <| .cons plain <| .cons plainOptional <| .cons plainOptional <|
      .cons plainOptional <| .cons plainOptional <|
      .cons (forgets_member SelectOptions.forgets.list) .nil)
    fun _ => rfl

theorem UserSelectMenu.forgets : UserSelectMenu.record.format.Forgets bare :=
  Record.forgets
    (.cons plainOptional <| .cons plain <| .cons plainOptional <| .cons plainOptional <|
      .cons plainOptional <| .cons plainOptional <|
      .cons (forgets_optional SelectMenuDefaultValue.forgets.list) .nil)
    fun _ => rfl

theorem RoleSelectMenu.forgets : RoleSelectMenu.record.format.Forgets bare :=
  Record.forgets
    (.cons plainOptional <| .cons plain <| .cons plainOptional <| .cons plainOptional <|
      .cons plainOptional <| .cons plainOptional <|
      .cons (forgets_optional SelectMenuDefaultValue.forgets.list) .nil)
    fun _ => rfl

theorem MentionableSelectMenu.forgets : MentionableSelectMenu.record.format.Forgets bare :=
  Record.forgets
    (.cons plainOptional <| .cons plain <| .cons plainOptional <| .cons plainOptional <|
      .cons plainOptional <| .cons plainOptional <|
      .cons (forgets_optional SelectMenuDefaultValue.forgets.list) .nil)
    fun _ => rfl

theorem ChannelSelectMenu.forgets : ChannelSelectMenu.record.format.Forgets bare :=
  Record.forgets
    (.cons plainOptional <| .cons plain <| .cons plainOptional <| .cons plainOptional <|
      .cons plainOptional <| .cons plainOptional <|
      .cons (forgets_optional SelectMenuDefaultValue.forgets.list) <| .cons plainOptional .nil)
    fun _ => rfl

theorem TextInput.forgets : TextInput.record.format.Forgets bare :=
  Record.forgets
    (.cons plainOptional <| .cons plain <| .cons plain <| .cons plain <| .cons plainOptional <|
      .cons plainOptional <| .cons plainOptional <| .cons plainOptional <|
      .cons plainOptional .nil)
    fun _ => rfl

theorem TextDisplay.forgets : TextDisplay.record.format.Forgets bare :=
  Record.forgets (.cons plainOptional <| .cons plain .nil) fun _ => rfl

theorem Thumbnail.forgets : Thumbnail.record.format.Forgets bare :=
  Record.forgets
    (.cons plainOptional <| .cons (forgets_member UnfurledMediaItem.forgets) <|
      .cons plainOptional <| .cons plainOptional .nil)
    fun _ => rfl

theorem MediaGallery.forgets : MediaGallery.record.format.Forgets bare :=
  Record.forgets
    (.cons plainOptional <| .cons (forgets_member MediaGalleryItem.forgets.list) .nil)
    fun _ => rfl

theorem File.forgets : File.record.format.Forgets bare :=
  Record.forgets
    (.cons plainOptional <| .cons (forgets_member UnfurledMediaItem.forgets) <|
      .cons plainOptional .nil)
    fun _ => rfl

theorem Separator.forgets : Separator.record.format.Forgets bare :=
  Record.forgets (.cons plainOptional <| .cons plainOptional <| .cons plainOptional .nil)
    fun _ => rfl

theorem FileUpload.forgets : FileUpload.record.format.Forgets bare :=
  Record.forgets
    (.cons plainOptional <| .cons plain <| .cons plainOptional <| .cons plainOptional <|
      .cons plainOptional .nil)
    fun _ => rfl

/-! ## Variants -/

section

variable {V : Type} {write : V → Option Json} {choices : List (Choice V write)}
  (hnodup : (types choices).Nodup)

/-- An alternative that is built. -/
theorem built_of_choose (t : ComponentType) {ch : Choice V write}
    (h : choose choices t = some ch) {r : ch.R} (hbuilt : ch.codec.record.Built r) :
    ∃ alt ∈ (alternatives choices hnodup).list, ∃ r',
      ch.inject r = alt.inject r' ∧ alt.record.Built r' :=
  ⟨ch.alternative, List.mem_map_of_mem (List.mem_of_find?_eq_some h), r, rfl, hbuilt⟩

/-- Alternatives that agree. -/
theorem eq_of_agrees {f : V → V}
    (h : ∀ ch ∈ choices, ∀ r' r, ch.codec.record.Agrees r' r → f (ch.inject r') = f (ch.inject r))
    {c' c : V}
    (hagrees : ∃ alt ∈ (alternatives choices hnodup).list, ∃ r' r,
      c' = alt.inject r' ∧ c = alt.inject r ∧ alt.record.Agrees r' r) : f c' = f c := by
  obtain ⟨alt, halt, r', r, rfl, rfl, hagrees⟩ := hagrees
  obtain ⟨ch, hch, rfl⟩ := List.mem_map.mp halt
  exact h ch hch r' r hagrees

end

theorem SectionAccessory.forgets : slot.Forgets (Option.map bare) where
  agrees hagrees := by
    cases hagrees with
    | some hsome =>
        refine congrArg some (eq_of_agrees nodup_types ?_ hsome)
        simp only [choices, List.forall_mem_cons, List.not_mem_nil, IsEmpty.forall_iff,
          implies_true, and_true]
        exact ⟨fun _ _ h => congrArg button (Button.forgets.agrees h),
          fun _ _ h => congrArg thumbnail (Thumbnail.forgets.agrees h)⟩
    | none => rfl
  built {o} heq c hc := by
    obtain rfl := hc
    have h : c.bare = c := Option.some.inj heq
    cases c with
    | button b =>
        exact built_of_choose nodup_types .button rfl (Button.forgets.built (by injection h))
    | thumbnail t =>
        exact built_of_choose nodup_types .thumbnail rfl (Thumbnail.forgets.built (by injection h))

/-! ## Sections and labels -/

theorem Section.forgets : Section.record.format.Forgets bare :=
  Record.forgets
    (.cons plainOptional <| .cons (forgets_member TextDisplay.forgets.list) <|
      .cons SectionAccessory.forgets .nil)
    fun _ => rfl

theorem LabelComponent.forgets : dispatch.format.Forgets bare where
  agrees hagrees := by
    rcases hagrees with hchoice | ⟨keep, hkeep, -⟩
    · refine eq_of_agrees nodup_types ?_ hchoice
      simp only [choices, List.forall_mem_cons, List.not_mem_nil, IsEmpty.forall_iff,
        implies_true, and_true]
      exact ⟨fun _ _ h => congrArg textInput (TextInput.forgets.agrees h),
             fun _ _ h => congrArg fileUpload (FileUpload.forgets.agrees h),
             fun _ _ h => congrArg selectMenu (SelectMenu.forgets.agrees h),
             fun _ _ h => congrArg userSelect (UserSelectMenu.forgets.agrees h),
             fun _ _ h => congrArg roleSelect (RoleSelectMenu.forgets.agrees h),
             fun _ _ h => congrArg mentionableSelect (MentionableSelectMenu.forgets.agrees h),
             fun _ _ h => congrArg channelSelect (ChannelSelectMenu.forgets.agrees h)⟩
    · cases hkeep
  built {c} h := by
    refine .inl ?_
    cases c with
    | textInput t =>
        exact built_of_choose nodup_types .textInput rfl (TextInput.forgets.built (by injection h))
    | fileUpload f =>
        exact built_of_choose nodup_types .fileUpload rfl
          (FileUpload.forgets.built (by injection h))
    | selectMenu s =>
        exact built_of_choose nodup_types .selectMenu rfl
          (SelectMenu.forgets.built (by injection h))
    | userSelect s =>
        exact built_of_choose nodup_types .userSelect rfl
          (UserSelectMenu.forgets.built (by injection h))
    | roleSelect s =>
        exact built_of_choose nodup_types .roleSelect rfl
          (RoleSelectMenu.forgets.built (by injection h))
    | mentionableSelect s =>
        exact built_of_choose nodup_types .mentionableSelect rfl
          (MentionableSelectMenu.forgets.built (by injection h))
    | channelSelect s =>
        exact built_of_choose nodup_types .channelSelect rfl
          (ChannelSelectMenu.forgets.built (by injection h))

theorem Label.forgets : Label.record.format.Forgets bare :=
  Record.forgets
    (.cons plainOptional <| .cons plain <| .cons plainOptional <|
      .cons LabelComponent.forgets .nil)
    fun _ => rfl

/-! ## Action rows and containers -/

theorem ActionRowComponent.forgets : dispatch.format.Forgets bare where
  agrees hagrees := by
    rcases hagrees with hchoice | ⟨keep, hkeep, -⟩
    · refine eq_of_agrees nodup_types ?_ hchoice
      simp only [choices, List.forall_mem_cons, List.not_mem_nil, IsEmpty.forall_iff,
        implies_true, and_true]
      exact ⟨fun _ _ h => congrArg button (Button.forgets.agrees h),
             fun _ _ h => congrArg selectMenu (SelectMenu.forgets.agrees h),
             fun _ _ h => congrArg userSelect (UserSelectMenu.forgets.agrees h),
             fun _ _ h => congrArg roleSelect (RoleSelectMenu.forgets.agrees h),
             fun _ _ h => congrArg mentionableSelect (MentionableSelectMenu.forgets.agrees h),
             fun _ _ h => congrArg channelSelect (ChannelSelectMenu.forgets.agrees h),
             fun _ _ h => congrArg textInput (TextInput.forgets.agrees h),
             fun _ _ h => congrArg fileUpload (FileUpload.forgets.agrees h)⟩
    · cases hkeep
  built {c} h := by
    refine .inl ?_
    cases c with
    | button b =>
        exact built_of_choose nodup_types .button rfl (Button.forgets.built (by injection h))
    | selectMenu s =>
        exact built_of_choose nodup_types .selectMenu rfl
          (SelectMenu.forgets.built (by injection h))
    | userSelect s =>
        exact built_of_choose nodup_types .userSelect rfl
          (UserSelectMenu.forgets.built (by injection h))
    | roleSelect s =>
        exact built_of_choose nodup_types .roleSelect rfl
          (RoleSelectMenu.forgets.built (by injection h))
    | mentionableSelect s =>
        exact built_of_choose nodup_types .mentionableSelect rfl
          (MentionableSelectMenu.forgets.built (by injection h))
    | channelSelect s =>
        exact built_of_choose nodup_types .channelSelect rfl
          (ChannelSelectMenu.forgets.built (by injection h))
    | textInput t =>
        exact built_of_choose nodup_types .textInput rfl (TextInput.forgets.built (by injection h))
    | fileUpload f =>
        exact built_of_choose nodup_types .fileUpload rfl
          (FileUpload.forgets.built (by injection h))

theorem ActionRow.forgets : ActionRow.record.format.Forgets bare :=
  Record.forgets
    (.cons plainOptional <| .cons (forgets_member ActionRowComponent.forgets.list) .nil)
    fun _ => rfl

theorem ContainerChild.agrees_bare {c' c : ContainerChild} (h : dispatch.Agrees c' c) :
    c'.bare = c.bare := by
  rcases h with hchoice | ⟨keep, hkeep, k, j', j, rfl, rfl⟩
  · refine eq_of_agrees nodup_types ?_ hchoice
    simp only [choices, List.forall_mem_cons, List.not_mem_nil, IsEmpty.forall_iff,
      implies_true, and_true]
    exact ⟨fun _ _ h => congrArg actionRow (ActionRow.forgets.agrees h),
           fun _ _ h => congrArg «section» (Section.forgets.agrees h),
           fun _ _ h => congrArg textDisplay (TextDisplay.forgets.agrees h),
           fun _ _ h => congrArg thumbnail (Thumbnail.forgets.agrees h),
           fun _ _ h => congrArg mediaGallery (MediaGallery.forgets.agrees h),
           fun _ _ h => congrArg file (File.forgets.agrees h),
           fun _ _ h => congrArg separator (Separator.forgets.agrees h),
           fun _ _ h => congrArg button (Button.forgets.agrees h),
           fun _ _ h => congrArg selectMenu (SelectMenu.forgets.agrees h),
           fun _ _ h => congrArg userSelect (UserSelectMenu.forgets.agrees h),
           fun _ _ h => congrArg roleSelect (RoleSelectMenu.forgets.agrees h),
           fun _ _ h => congrArg mentionableSelect (MentionableSelectMenu.forgets.agrees h),
           fun _ _ h => congrArg channelSelect (ChannelSelectMenu.forgets.agrees h)⟩
  · obtain rfl := Option.some.inj hkeep
    rfl

theorem ContainerChild.built_of_bare {c : ContainerChild} (h : c.bare = c)
    (hunmodelled : c.Unmodelled) : dispatch.Built c := by
  cases c with
  | unknown u =>
      have hbare : u.bare = u := by injection h
      have hraw : u.raw = .null := (congrArg UnknownMessageComponent.raw hbare).symm
      obtain ⟨type, raw⟩ := u
      obtain rfl : raw = .null := hraw
      exact .inr ⟨_, rfl, type, rfl, find_of_unmodelled nodup_types hunmodelled⟩
  | actionRow a =>
      exact .inl <| built_of_choose nodup_types .actionRow rfl
        (ActionRow.forgets.built (by injection h))
  | «section» s =>
      exact .inl <| built_of_choose nodup_types .section rfl
        (Section.forgets.built (by injection h))
  | textDisplay t =>
      exact .inl <| built_of_choose nodup_types .textDisplay rfl
        (TextDisplay.forgets.built (by injection h))
  | thumbnail t =>
      exact .inl <| built_of_choose nodup_types .thumbnail rfl
        (Thumbnail.forgets.built (by injection h))
  | mediaGallery m =>
      exact .inl <| built_of_choose nodup_types .mediaGallery rfl
        (MediaGallery.forgets.built (by injection h))
  | file f =>
      exact .inl <| built_of_choose nodup_types .file rfl (File.forgets.built (by injection h))
  | separator s =>
      exact .inl <| built_of_choose nodup_types .separator rfl
        (Separator.forgets.built (by injection h))
  | button b =>
      exact .inl <| built_of_choose nodup_types .button rfl (Button.forgets.built (by injection h))
  | selectMenu s =>
      exact .inl <| built_of_choose nodup_types .selectMenu rfl
        (SelectMenu.forgets.built (by injection h))
  | userSelect s =>
      exact .inl <| built_of_choose nodup_types .userSelect rfl
        (UserSelectMenu.forgets.built (by injection h))
  | roleSelect s =>
      exact .inl <| built_of_choose nodup_types .roleSelect rfl
        (RoleSelectMenu.forgets.built (by injection h))
  | mentionableSelect s =>
      exact .inl <| built_of_choose nodup_types .mentionableSelect rfl
        (MentionableSelectMenu.forgets.built (by injection h))
  | channelSelect s =>
      exact .inl <| built_of_choose nodup_types .channelSelect rfl
        (ChannelSelectMenu.forgets.built (by injection h))

theorem Container.agrees_bare {c' c : Container} (h : Container.record.Agrees c' c) :
    c'.bare = c.bare := by
  obtain ⟨hid, hcolor, hspoiler, hcomponents, -⟩ := h
  have hid : c'.id = c.id := plainOptional.agrees hid
  have hcolor : c'.accentColor = c.accentColor := hcolor
  have hspoiler : c'.spoiler = c.spoiler := plainOptional.agrees hspoiler
  have hcomponents : c'.components.map ContainerChild.bare = c.components.map ContainerChild.bare :=
    Forgets.map_eq ContainerChild.agrees_bare hcomponents
  simp only [bare, hid, hcolor, hspoiler, hcomponents]

theorem Container.built_of_bare {c : Container} (h : c.bare = c)
    (hunmodelled : ∀ child ∈ c.components, child.Unmodelled) : Container.record.Built c := by
  have hraw : c.raw = .null := (congrArg Container.raw h).symm
  have hcomponents : c.components.map ContainerChild.bare = c.components :=
    congrArg Container.components h
  refine ⟨hraw, plainOptional.built rfl, trivial, plainOptional.built rfl, ?_, trivial⟩
  intro child hchild
  exact ContainerChild.built_of_bare (Forgets.eq_of_map_eq hcomponents child hchild)
    (hunmodelled child hchild)

/-! ## Message components -/

/-- **Components that agree** are equal without their documents. -/
theorem MessageComponent.agrees_bare {c' c : MessageComponent} (h : dispatch.Agrees c' c) :
    c'.bare = c.bare := by
  rcases h with hchoice | ⟨keep, hkeep, k, j', j, rfl, rfl⟩
  · refine eq_of_agrees nodup_types ?_ hchoice
    simp only [choices, List.forall_mem_cons, List.not_mem_nil, IsEmpty.forall_iff,
      implies_true, and_true]
    exact ⟨fun _ _ h => congrArg actionRow (ActionRow.forgets.agrees h),
           fun _ _ h => congrArg button (Button.forgets.agrees h),
           fun _ _ h => congrArg selectMenu (SelectMenu.forgets.agrees h),
           fun _ _ h => congrArg userSelect (UserSelectMenu.forgets.agrees h),
           fun _ _ h => congrArg roleSelect (RoleSelectMenu.forgets.agrees h),
           fun _ _ h => congrArg mentionableSelect (MentionableSelectMenu.forgets.agrees h),
           fun _ _ h => congrArg channelSelect (ChannelSelectMenu.forgets.agrees h),
           fun _ _ h => congrArg textInput (TextInput.forgets.agrees h),
           fun _ _ h => congrArg «section» (Section.forgets.agrees h),
           fun _ _ h => congrArg textDisplay (TextDisplay.forgets.agrees h),
           fun _ _ h => congrArg thumbnail (Thumbnail.forgets.agrees h),
           fun _ _ h => congrArg mediaGallery (MediaGallery.forgets.agrees h),
           fun _ _ h => congrArg file (File.forgets.agrees h),
           fun _ _ h => congrArg separator (Separator.forgets.agrees h),
           fun _ _ h => congrArg container (Container.agrees_bare h),
           fun _ _ h => congrArg label (Label.forgets.agrees h),
           fun _ _ h => congrArg fileUpload (FileUpload.forgets.agrees h)⟩
  · obtain rfl := Option.some.inj hkeep
    rfl

/-- **A component without documents** is one that is built in code. -/
theorem MessageComponent.built_of_bare {c : MessageComponent} (h : c.bare = c)
    (hunmodelled : c.Unmodelled) : dispatch.Built c := by
  cases c with
  | unknown u =>
      have hbare : u.bare = u := by injection h
      have hraw : u.raw = .null := (congrArg UnknownMessageComponent.raw hbare).symm
      obtain ⟨type, raw⟩ := u
      obtain rfl : raw = .null := hraw
      exact .inr ⟨_, rfl, type, rfl,
        find_of_unmodelled nodup_types fun t _ => hunmodelled t⟩
  | container c =>
      exact .inl <| built_of_choose nodup_types .container rfl
        (Container.built_of_bare (by injection h) hunmodelled)
  | actionRow a =>
      exact .inl <| built_of_choose nodup_types .actionRow rfl
        (ActionRow.forgets.built (by injection h))
  | button b =>
      exact .inl <| built_of_choose nodup_types .button rfl (Button.forgets.built (by injection h))
  | selectMenu s =>
      exact .inl <| built_of_choose nodup_types .selectMenu rfl
        (SelectMenu.forgets.built (by injection h))
  | userSelect s =>
      exact .inl <| built_of_choose nodup_types .userSelect rfl
        (UserSelectMenu.forgets.built (by injection h))
  | roleSelect s =>
      exact .inl <| built_of_choose nodup_types .roleSelect rfl
        (RoleSelectMenu.forgets.built (by injection h))
  | mentionableSelect s =>
      exact .inl <| built_of_choose nodup_types .mentionableSelect rfl
        (MentionableSelectMenu.forgets.built (by injection h))
  | channelSelect s =>
      exact .inl <| built_of_choose nodup_types .channelSelect rfl
        (ChannelSelectMenu.forgets.built (by injection h))
  | textInput t =>
      exact .inl <| built_of_choose nodup_types .textInput rfl
        (TextInput.forgets.built (by injection h))
  | «section» s =>
      exact .inl <| built_of_choose nodup_types .section rfl
        (Section.forgets.built (by injection h))
  | textDisplay t =>
      exact .inl <| built_of_choose nodup_types .textDisplay rfl
        (TextDisplay.forgets.built (by injection h))
  | thumbnail t =>
      exact .inl <| built_of_choose nodup_types .thumbnail rfl
        (Thumbnail.forgets.built (by injection h))
  | mediaGallery m =>
      exact .inl <| built_of_choose nodup_types .mediaGallery rfl
        (MediaGallery.forgets.built (by injection h))
  | file f =>
      exact .inl <| built_of_choose nodup_types .file rfl (File.forgets.built (by injection h))
  | separator s =>
      exact .inl <| built_of_choose nodup_types .separator rfl
        (Separator.forgets.built (by injection h))
  | label l =>
      exact .inl <| built_of_choose nodup_types .label rfl (Label.forgets.built (by injection h))
  | fileUpload f =>
      exact .inl <| built_of_choose nodup_types .fileUpload rfl
        (FileUpload.forgets.built (by injection h))

end

end Ekizu.Components
