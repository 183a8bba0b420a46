import Ekizu.Components.Choices
import Ekizu.Gateway.Shapes
import Ekizu.Messages.Message

/-!
# The shapes of a message

The `from_json` of a message, and of all that it is made of, return exactly from the values
of the shape that the events are read by.

## Main results

* `decodes_union` — the shape of a `switch` over the type of a component.
* `decodes_messageComponent` — the shape of a component.
* `decodes_message` — the shape of a message.
-/

namespace Ekizu.Gateway

open Components Lib Messages Requests

variable [FloatCast]

/-! ## Users and embeds -/

instance : Shaped Enum8 := ⟨.number, decodes_number, rfl⟩

instance : Shaped Enum32 := ⟨.number, decodes_number, rfl⟩

instance : Shaped User := by
  refine .record Decoder.user (fun j => ?_) rfl
  repeat refine .member fun _ => ?_
  exact .done _

instance : Shaped PartialMember := by
  refine .record Decoder.partialMember (fun j => ?_) rfl
  repeat refine .member fun _ => ?_
  exact .done _

instance : Shaped EmbedProvider := by
  refine .record Decoder.embedProvider (fun j => ?_) rfl
  repeat refine .member fun _ => ?_
  exact .done _

instance : Shaped EmbedAuthor := by
  refine .record Decoder.embedAuthor (fun j => ?_) rfl
  repeat refine .member fun _ => ?_
  exact .done _

instance : Shaped EmbedFooter := by
  refine .record Decoder.embedFooter (fun j => ?_) rfl
  repeat refine .member fun _ => ?_
  exact .done _

instance : Shaped EmbedField := by
  refine .record Decoder.embedField (fun j => ?_) rfl
  repeat refine .member fun _ => ?_
  exact .done _

instance : Shaped EmbedImage := by
  refine .record Decoder.embedImage (fun j => ?_) rfl
  repeat refine .member fun _ => ?_
  exact .done _

instance : Shaped Embed := by
  refine .record Decoder.embed (fun j => ?_) rfl
  repeat refine .member fun _ => ?_
  exact .done _

/-! ## The parts of a message -/

instance : Shaped Attachment := by
  refine .record Decoder.attachment (fun j => ?_) rfl
  repeat refine .member fun _ => ?_
  exact .done _

instance : Shaped ChannelMention := by
  refine .record Decoder.channelMention (fun j => ?_) rfl
  repeat refine .member fun _ => ?_
  exact .done _

instance : Shaped MessageActivity := by
  refine .record Decoder.messageActivity (fun j => ?_) rfl
  repeat refine .member fun _ => ?_
  exact .done _

instance : Shaped MessageApplication := by
  refine .record Decoder.messageApplication (fun j => ?_) rfl
  repeat refine .member fun _ => ?_
  exact .done _

instance : Shaped MessageReference := by
  refine .record Decoder.messageReference (fun j => ?_) rfl
  repeat refine .member fun _ => ?_
  exact .done _

instance : Shaped MessageInteraction := by
  refine .record Decoder.messageInteraction (fun j => ?_) rfl
  repeat refine .member fun _ => ?_
  exact .done _

/-! ## Components -/

instance : Shaped ButtonStyle := ⟨.number, decodes_number, rfl⟩

instance : Shaped TextInputStyle := ⟨.number, decodes_number, rfl⟩

theorem decodes_partialEmoji :
    Decodes FloatCast.undefined PartialEmoji.fromJson (.record Decoder.partialEmoji) := by
  refine fun j => Iff.trans (b := ∀ field ∈ Decoder.partialEmoji, _) ?_ reads_record.symm
  show ReadsFields j _ _
  repeat refine .member fun _ => ?_
  exact .done _

instance : ShapedMember (Option PartialEmoji) where
  shape := .record Decoder.partialEmoji
  isSome_take j := by
    show (if j.isNull then some none else (PartialEmoji.fromJson j).map some).isSome = true ↔ _
    unfold takes
    by_cases hnull : j.isNull = true
    · simp [hnull]
    · simp [hnull, Shape.isIntegral, decodes_partialEmoji j]

instance : Shaped SelectOptions := by
  refine .record Decoder.selectOptions (fun j => ?_) rfl
  repeat refine .member fun _ => ?_
  exact .done _

instance : Shaped SelectMenuDefaultValue := by
  refine .record Decoder.selectMenuDefaultValue (fun j => ?_) rfl
  repeat refine .member fun _ => ?_
  exact .done _

instance : Shaped UnfurledMediaItem := by
  refine .record Decoder.unfurledMediaItem (fun j => ?_) rfl
  repeat refine .member fun _ => ?_
  exact .done _

instance : Shaped TextDisplay := by
  refine .record Decoder.textDisplay (fun j => ?_) rfl
  repeat refine .member fun _ => ?_
  exact .done _

instance : Shaped MediaGalleryItem := by
  refine .record Decoder.mediaGalleryItem (fun j => ?_) rfl
  repeat refine .member fun _ => ?_
  exact .done _

theorem readsFields_button (j : Json) : ReadsFields j (Button.fromJson j) Decoder.button := by
  repeat refine .member fun _ => ?_
  exact .done _

theorem readsFields_selectCommon (j : Json) :
    ReadsFields j (deserializeSelectCommon j) Decoder.selectCommon := by
  repeat refine .member fun _ => ?_
  exact .done _

theorem readsFields_selectMenu (j : Json) :
    ReadsFields j (SelectMenu.fromJson j) Decoder.selectMenu := by
  refine .append (readsFields_selectCommon j) fun _ => ?_
  repeat refine .member fun _ => ?_
  exact .done _

theorem readsFields_userSelectMenu (j : Json) :
    ReadsFields j (UserSelectMenu.fromJson j) Decoder.userSelectMenu := by
  refine .append (readsFields_selectCommon j) fun _ => ?_
  repeat refine .member fun _ => ?_
  exact .done _

theorem readsFields_roleSelectMenu (j : Json) :
    ReadsFields j (RoleSelectMenu.fromJson j) Decoder.roleSelectMenu := by
  refine .append (readsFields_selectCommon j) fun _ => ?_
  repeat refine .member fun _ => ?_
  exact .done _

theorem readsFields_mentionableSelectMenu (j : Json) :
    ReadsFields j (MentionableSelectMenu.fromJson j) Decoder.mentionableSelectMenu := by
  refine .append (readsFields_selectCommon j) fun _ => ?_
  repeat refine .member fun _ => ?_
  exact .done _

theorem readsFields_channelSelectMenu (j : Json) :
    ReadsFields j (ChannelSelectMenu.fromJson j) Decoder.channelSelectMenu := by
  show ReadsFields j _
    (Decoder.selectCommon ++ (Decoder.defaultValues ++ [("channel_types", .array .narrow)]))
  refine .append (readsFields_selectCommon j) fun _ => ?_
  repeat refine .member fun _ => ?_
  exact .done _

theorem readsFields_textInput (j : Json) :
    ReadsFields j (TextInput.fromJson j) Decoder.textInput := by
  repeat refine .member fun _ => ?_
  exact .done _

theorem readsFields_thumbnail (j : Json) :
    ReadsFields j (Thumbnail.fromJson j) Decoder.thumbnail := by
  repeat refine .member fun _ => ?_
  exact .done _

theorem readsFields_mediaGallery (j : Json) :
    ReadsFields j (MediaGallery.fromJson j) Decoder.mediaGallery := by
  repeat refine .member fun _ => ?_
  exact .done _

theorem readsFields_file (j : Json) : ReadsFields j (File.fromJson j) Decoder.file := by
  repeat refine .member fun _ => ?_
  exact .done _

theorem readsFields_separator (j : Json) :
    ReadsFields j (Separator.fromJson j) Decoder.separator := by
  repeat refine .member fun _ => ?_
  exact .done _

theorem readsFields_fileUpload (j : Json) :
    ReadsFields j (FileUpload.fromJson j) Decoder.fileUpload := by
  repeat refine .member fun _ => ?_
  exact .done _

/-! ## The type of a component -/

omit [FloatCast] in
/-- The alternatives of a union, by the types of the components. -/
def alternatives (choices : List (ComponentType × Fields)) : List (Nat × Fields) :=
  choices.map fun choice => (choice.1.code.toNat, choice.2)

omit [FloatCast] in
theorem lookup_alternatives (choices : List (ComponentType × Fields)) (n : UInt8) :
    (alternatives choices).lookup n.toNat =
      (ComponentType.ofCode n).bind fun t => choices.lookup t := by
  induction choices with
  | nil => cases ComponentType.ofCode n <;> rfl
  | cons choice choices ih =>
      obtain ⟨t, fields⟩ := choice
      rw [alternatives, List.map_cons, List.lookup_cons, ← alternatives, ih]
      rcases ComponentType.ofCode_cases n with ⟨t', hof, rfl⟩ | ⟨hof, hnone⟩
      · rw [hof, Option.bind_some, Option.bind_some, List.lookup_cons]
        by_cases hsame : t' = t
        · simp [hsame]
        · have hcode : t'.code.toNat ≠ t.code.toNat := fun heq =>
            hsame (ComponentType.code_injective (UInt8.toNat_inj.mp heq))
          rw [beq_false_of_ne hcode, beq_false_of_ne hsame]
      · have hcode : n.toNat ≠ t.code.toNat := fun heq => hnone t (UInt8.toNat_inj.mp heq).symm
        rw [hof, beq_false_of_ne hcode]
        rfl

theorem type_readsMembers (members : List (String × Json)) :
    (readsMembers FloatCast.undefined members).type FloatCast.undefined =
      (typeOf (.object members)).map UInt8.toNat := by
  have hfind : (Json.object members).find? "type" = members.lookup "type" := rfl
  unfold Members.type typeOf
  rw [lookup_readsMembers, hfind]
  cases members.lookup "type" with
  | none => rfl
  | some j =>
      dsimp only [Option.map_some]
      split <;> simp

/-- A union is read as the structure that the type of the component selects. -/
theorem reads_union {j : Json} {choices : List (ComponentType × Fields)} :
    reads FloatCast.undefined j (.union (alternatives choices)) = true ↔
      ∀ t ∈ (typeOf j).bind ComponentType.ofCode, ∀ fields ∈ choices.lookup t,
        reads FloatCast.undefined j (.record fields) = true := by
  cases j with
  | object members =>
      simp only [reads_object_record]
      rw [reads, type_readsMembers]
      cases typeOf (.object members) with
      | none => simp
      | some n =>
          dsimp only [Option.map_some, Option.bind_some]
          rw [lookup_alternatives]
          cases ComponentType.ofCode n with
          | none => simp
          | some t => cases hfields : choices.lookup t <;> simp [hfields]
  | null | boolean | unsigned | integer | float | string | array =>
      exact iff_of_true (by simp [reads, readsScalar]) (by simp [typeOf, Json.find?])

/-- **A `switch`** over the type of a component: what it does not know is made without looking
at the document. -/
theorem decodes_union {A : Type} {get : Json → Option A} (choices : List (ComponentType × Fields))
    (hnone : ∀ j, typeOf j = none → (get j).isSome = true)
    (hother : ∀ j n, typeOf j = some n → ComponentType.ofCode n = none → (get j).isSome = true)
    (hsome : ∀ j n t, typeOf j = some n → ComponentType.ofCode n = some t →
      ((get j).isSome = true ↔ ∀ fields ∈ choices.lookup t,
        reads FloatCast.undefined j (.record fields) = true)) :
    Decodes FloatCast.undefined get (.union (alternatives choices)) := by
  intro j
  rw [reads_union]
  cases hn : typeOf j with
  | none => exact iff_of_true (hnone j hn) nofun
  | some n =>
      rw [Option.bind_some]
      cases hof : ComponentType.ofCode n with
      | none => exact iff_of_true (hother j n hn hof) nofun
      | some t =>
          rw [hsome j n t hn hof]
          simp

/-- The structure that the type selects. -/
theorem ReadsFields.choice {A B : Type} {j : Json} {made : Option A} {fields : Fields}
    {choices : List (ComponentType × Fields)} {t : ComponentType} (h : ReadsFields j made fields)
    (f : A → B) (hlookup : choices.lookup t = some fields) :
    (made.map f).isSome = true ↔ ∀ fields ∈ choices.lookup t,
      reads FloatCast.undefined j (.record fields) = true := by
  rw [Option.isSome_map, hlookup]
  simpa [reads_record, ReadsFields] using h

/-- A type that the `switch` leaves to its default. -/
theorem reads_other {A : Type} {j : Json} {choices : List (ComponentType × Fields)}
    {t : ComponentType} (a : A) (hlookup : choices.lookup t = none) :
    (some a).isSome = true ↔ ∀ fields ∈ choices.lookup t,
      reads FloatCast.undefined j (.record fields) = true := by
  rw [hlookup]
  exact iff_of_true rfl nofun

/-! ## Components with children -/

def actionRowComponentChoices : List (ComponentType × Fields) :=
  [(.button, Decoder.button), (.selectMenu, Decoder.selectMenu), (.textInput, Decoder.textInput),
   (.userSelect, Decoder.userSelectMenu), (.roleSelect, Decoder.roleSelectMenu),
   (.mentionableSelect, Decoder.mentionableSelectMenu),
   (.channelSelect, Decoder.channelSelectMenu), (.fileUpload, Decoder.fileUpload)]

theorem decodes_actionRowComponent :
    Decodes FloatCast.undefined ActionRowComponent.fromJson Decoder.actionRowComponent := by
  refine decodes_union actionRowComponentChoices (fun j hn => ?_) (fun j n hn hof => ?_)
    fun j n t hn hof => ?_
  · simp only [ActionRowComponent.fromJson, hn, Option.isSome_some]
  · simp only [ActionRowComponent.fromJson, hn, hof, Option.isSome_some]
  · simp only [ActionRowComponent.fromJson, hn, hof]
    cases t with
    | button => exact (readsFields_button j).choice _ rfl
    | selectMenu => exact (readsFields_selectMenu j).choice _ rfl
    | textInput => exact (readsFields_textInput j).choice _ rfl
    | userSelect => exact (readsFields_userSelectMenu j).choice _ rfl
    | roleSelect => exact (readsFields_roleSelectMenu j).choice _ rfl
    | mentionableSelect => exact (readsFields_mentionableSelectMenu j).choice _ rfl
    | channelSelect => exact (readsFields_channelSelectMenu j).choice _ rfl
    | fileUpload => exact (readsFields_fileUpload j).choice _ rfl
    | _ => exact reads_other _ rfl

instance : Shaped ActionRowComponent :=
  ⟨Decoder.actionRowComponent, decodes_actionRowComponent, rfl⟩

theorem readsFields_actionRow (j : Json) :
    ReadsFields j (ActionRow.fromJson j) Decoder.actionRow := by
  repeat refine .member fun _ => ?_
  exact .done _

def sectionAccessoryChoices : List (ComponentType × Fields) :=
  [(.button, Decoder.button), (.thumbnail, Decoder.thumbnail)]

theorem decodes_sectionAccessory :
    Decodes FloatCast.undefined SectionAccessory.fromJson Decoder.sectionAccessory := by
  refine decodes_union sectionAccessoryChoices (fun j hn => ?_) (fun j n hn hof => ?_)
    fun j n t hn hof => ?_
  · simp only [SectionAccessory.fromJson, hn, Option.bind_none, Option.isSome_some]
  · simp only [SectionAccessory.fromJson, hn, hof, Option.bind_some, Option.isSome_some]
  · simp only [SectionAccessory.fromJson, hn, hof, Option.bind_some]
    cases t with
    | button => exact (readsFields_button j).choice _ rfl
    | thumbnail => exact (readsFields_thumbnail j).choice _ rfl
    | _ => exact reads_other _ rfl

theorem readsFields_sectionLayout (j : Json) :
    ReadsFields j (Section.fromJson j) Decoder.sectionLayout := by
  exact .member fun _ => .member fun _ => .decoded rfl rfl decodes_sectionAccessory fun _ => .done _

def labelComponentChoices : List (ComponentType × Fields) :=
  [(.selectMenu, Decoder.selectMenu), (.textInput, Decoder.textInput),
   (.userSelect, Decoder.userSelectMenu), (.roleSelect, Decoder.roleSelectMenu),
   (.mentionableSelect, Decoder.mentionableSelectMenu),
   (.channelSelect, Decoder.channelSelectMenu), (.fileUpload, Decoder.fileUpload)]

theorem decodes_labelComponent :
    Decodes FloatCast.undefined LabelComponent.fromJson Decoder.labelComponent := by
  refine decodes_union labelComponentChoices (fun j hn => ?_) (fun j n hn hof => ?_)
    fun j n t hn hof => ?_
  · simp only [LabelComponent.fromJson, hn, Option.isSome_some]
  · simp only [LabelComponent.fromJson, hn, hof, Option.isSome_some]
  · simp only [LabelComponent.fromJson, hn, hof]
    cases t with
    | selectMenu => exact (readsFields_selectMenu j).choice _ rfl
    | textInput => exact (readsFields_textInput j).choice _ rfl
    | userSelect => exact (readsFields_userSelectMenu j).choice _ rfl
    | roleSelect => exact (readsFields_roleSelectMenu j).choice _ rfl
    | mentionableSelect => exact (readsFields_mentionableSelectMenu j).choice _ rfl
    | channelSelect => exact (readsFields_channelSelectMenu j).choice _ rfl
    | fileUpload => exact (readsFields_fileUpload j).choice _ rfl
    | _ => exact reads_other _ rfl

theorem readsFields_label (j : Json) : ReadsFields j (Label.fromJson j) Decoder.label := by
  refine .member fun _ => .member fun _ => .member fun _ => ?_
  exact .decoded rfl rfl decodes_labelComponent fun _ => .done _

theorem readsFields_textDisplay (j : Json) :
    ReadsFields j (TextDisplay.fromJson j) Decoder.textDisplay := by
  repeat refine .member fun _ => ?_
  exact .done _

def containerChildChoices : List (ComponentType × Fields) :=
  [(.actionRow, Decoder.actionRow), (.button, Decoder.button), (.selectMenu, Decoder.selectMenu),
   (.userSelect, Decoder.userSelectMenu), (.roleSelect, Decoder.roleSelectMenu),
   (.mentionableSelect, Decoder.mentionableSelectMenu),
   (.channelSelect, Decoder.channelSelectMenu), (.section, Decoder.sectionLayout),
   (.textDisplay, Decoder.textDisplay), (.thumbnail, Decoder.thumbnail),
   (.mediaGallery, Decoder.mediaGallery), (.file, Decoder.file), (.separator, Decoder.separator)]

theorem decodes_containerChild :
    Decodes FloatCast.undefined ContainerChild.fromJson Decoder.containerChild := by
  refine decodes_union containerChildChoices (fun j hn => ?_) (fun j n hn hof => ?_)
    fun j n t hn hof => ?_
  · simp only [ContainerChild.fromJson, hn, Option.isSome_some]
  · simp only [ContainerChild.fromJson, hn, hof, Option.isSome_some]
  · simp only [ContainerChild.fromJson, hn, hof]
    cases t with
    | actionRow => exact (readsFields_actionRow j).choice _ rfl
    | button => exact (readsFields_button j).choice _ rfl
    | selectMenu => exact (readsFields_selectMenu j).choice _ rfl
    | userSelect => exact (readsFields_userSelectMenu j).choice _ rfl
    | roleSelect => exact (readsFields_roleSelectMenu j).choice _ rfl
    | mentionableSelect => exact (readsFields_mentionableSelectMenu j).choice _ rfl
    | channelSelect => exact (readsFields_channelSelectMenu j).choice _ rfl
    | «section» => exact (readsFields_sectionLayout j).choice _ rfl
    | textDisplay => exact (readsFields_textDisplay j).choice _ rfl
    | thumbnail => exact (readsFields_thumbnail j).choice _ rfl
    | mediaGallery => exact (readsFields_mediaGallery j).choice _ rfl
    | file => exact (readsFields_file j).choice _ rfl
    | separator => exact (readsFields_separator j).choice _ rfl
    | _ => exact reads_other _ rfl

/-- The children of a container are read where there is an array of them. -/
theorem decodes_readComponents :
    Decodes FloatCast.undefined Container.readComponents (.elements Decoder.containerChild) := by
  intro j
  cases j with
  | array elements =>
      rw [Container.readComponents, isSome_mapM]
      simp [reads, readsElements_eq, decodes_containerChild _]
  | null | boolean | unsigned | integer | float | string | object =>
      simp [Container.readComponents, reads, readsScalar]

theorem readsFields_container (j : Json) :
    ReadsFields j (Container.fromJson j) Decoder.container := by
  exact .member fun _ => .member fun _ => .decoded rfl rfl decodes_readComponents fun _ => .done _

def messageComponentChoices : List (ComponentType × Fields) :=
  [(.actionRow, Decoder.actionRow), (.button, Decoder.button), (.selectMenu, Decoder.selectMenu),
   (.textInput, Decoder.textInput), (.userSelect, Decoder.userSelectMenu),
   (.roleSelect, Decoder.roleSelectMenu), (.mentionableSelect, Decoder.mentionableSelectMenu),
   (.channelSelect, Decoder.channelSelectMenu), (.section, Decoder.sectionLayout),
   (.textDisplay, Decoder.textDisplay), (.thumbnail, Decoder.thumbnail),
   (.mediaGallery, Decoder.mediaGallery), (.file, Decoder.file), (.separator, Decoder.separator),
   (.container, Decoder.container), (.label, Decoder.label), (.fileUpload, Decoder.fileUpload)]

theorem decodes_messageComponent :
    Decodes FloatCast.undefined MessageComponent.fromJson Decoder.messageComponent := by
  refine decodes_union messageComponentChoices (fun j hn => ?_) (fun j n hn hof => ?_)
    fun j n t hn hof => ?_
  · simp only [MessageComponent.fromJson, hn, Option.isSome_some]
  · simp only [MessageComponent.fromJson, hn, hof, Option.isSome_some]
  · simp only [MessageComponent.fromJson, hn, hof]
    cases t with
    | actionRow => exact (readsFields_actionRow j).choice _ rfl
    | button => exact (readsFields_button j).choice _ rfl
    | selectMenu => exact (readsFields_selectMenu j).choice _ rfl
    | textInput => exact (readsFields_textInput j).choice _ rfl
    | userSelect => exact (readsFields_userSelectMenu j).choice _ rfl
    | roleSelect => exact (readsFields_roleSelectMenu j).choice _ rfl
    | mentionableSelect => exact (readsFields_mentionableSelectMenu j).choice _ rfl
    | channelSelect => exact (readsFields_channelSelectMenu j).choice _ rfl
    | «section» => exact (readsFields_sectionLayout j).choice _ rfl
    | textDisplay => exact (readsFields_textDisplay j).choice _ rfl
    | thumbnail => exact (readsFields_thumbnail j).choice _ rfl
    | mediaGallery => exact (readsFields_mediaGallery j).choice _ rfl
    | file => exact (readsFields_file j).choice _ rfl
    | separator => exact (readsFields_separator j).choice _ rfl
    | container => exact (readsFields_container j).choice _ rfl
    | label => exact (readsFields_label j).choice _ rfl
    | fileUpload => exact (readsFields_fileUpload j).choice _ rfl

/-! ## Messages -/

instance : Shaped (List MessageComponent) where
  shape := .array Decoder.messageComponent
  decodes := decodes_messageComponent.vector (fun _ => rfl) fun j hj => by
    cases j with
    | array elements => exact absurd rfl (hj elements)
    | null | boolean | unsigned | integer | float | string | object => rfl
  integral := rfl

/-- **A message** is decoded exactly from the documents that the event decoder reads. -/
theorem decodes_message :
    Decodes FloatCast.undefined Message.fromJson (.record Decoder.message) := by
  refine fun j => Iff.trans (b := ∀ field ∈ Decoder.message, _) ?_ reads_record.symm
  show ReadsFields j _ _
  repeat refine .member fun _ => ?_
  exact .done _

end Ekizu.Gateway
