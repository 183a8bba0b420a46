import Ekizu.Components.Bare
import Ekizu.Components.InteractionResponse

/-!
# Responses through JSON

What a response is after it was encoded and decoded.

## Main results

* `InteractiveComponentResponse.fromJson_eq` — a child is decoded as an empty text input,
  whatever it was.
* `ComponentInteractionResponse.restored_iff` — which responses come back as they were.
-/

namespace Ekizu.Components

open Lib Lib.Json

/-! ## Members of a response -/

section

variable {A : Type} {m : Slot A} {a : A} {puts : List (String × Put)} {key : String} {out : Json}

/-- A member is written without an exception. -/
theorem exists_put (hplain : m.Forgets id) (a : A) : ∃ w, m.put a .null = some w := by
  obtain ⟨w, hput, -⟩ := m.restores a (hplain.built rfl)
  exact ⟨w, hput⟩

/-- **A member is read back** as it was written. -/
theorem take_written (hplain : m.Forgets id) (h : writeAll (.object []) puts = some out)
    (hkeys : (puts.map Prod.fst).Nodup) (hmem : (key, m.put a) ∈ puts) :
    m.take (out.get key) = some a := by
  obtain ⟨w, hput, hget⟩ := get_written h hkeys hmem
  obtain ⟨w', hput', a', htake, hagrees⟩ := m.restores a (hplain.built rfl)
  obtain rfl := Option.some.inj (hput.symm.trans hput')
  obtain rfl : a' = a := hplain.agrees hagrees
  rw [hget]
  exact htake

end

section

variable [FloatCast]

theorem typeOf_eq_get (j : Json) :
    typeOf j =
      if (j.get "type").isNumber then
        some ((j.get "type").toUnsigned FloatCast.undefined 8).toUInt8
      else none := by
  unfold typeOf Json.get
  cases j.find? "type" with
  | some v => rfl
  | none => rfl

/-- The type that was written as an `int`. -/
theorem typeOf_written {puts : List (String × Put)} {out : Json} {type : Int64}
    (h : writeAll (.object []) puts = some out) (hkeys : (puts.map Prod.fst).Nodup)
    (hmem : ("type", constant (.integer type)) ∈ puts) :
    typeOf out = some (Json.toUnsigned FloatCast.undefined 8 (.integer type)).toUInt8 := by
  obtain ⟨w, hput, hget⟩ := get_written h hkeys hmem
  obtain rfl := Option.some.inj hput
  rw [typeOf_eq_get, hget]
  rfl

/-! ## Leaves -/

theorem SelectResponse.restored {V : Type} [Value V] [Lawful V] [Plain V] (type : Int64)
    (r : SelectResponse V) :
    ∃ out, r.toJson type = some out ∧ out.isObject = true ∧
      typeOf out = some (Json.toUnsigned FloatCast.undefined 8 (.integer type)).toUInt8 ∧
      SelectResponse.fromJson out = some r := by
  have hkeys : ["type", "id", "custom_id", "values"].Nodup := by decide
  obtain ⟨out, hwrite⟩ : ∃ out, r.toJson type = some out :=
    exists_writeAll rfl hkeys (by
      simp only [List.forall_mem_cons]
      exact ⟨⟨_, rfl⟩, exists_put plainOptional r.id, exists_put plain r.customId,
        exists_put plain r.values, nofun⟩)
  have hid : deserialize out "id" = some r.id :=
    take_written plainOptional hwrite hkeys (.tail _ (.head _))
  have hcustomId : deserialize out "custom_id" = some r.customId :=
    take_written plain hwrite hkeys (.tail _ (.tail _ (.head _)))
  have hvalues : deserialize out "values" = some r.values :=
    take_written plain hwrite hkeys (.tail _ (.tail _ (.tail _ (.head _))))
  refine ⟨out, hwrite, isObject_writeAll rfl hwrite, typeOf_written hwrite hkeys (.head _), ?_⟩
  simp [fromJson, hid, hcustomId, hvalues]

theorem TextInputResponse.restored (r : TextInputResponse) :
    ∃ out, r.toJson = some out ∧ out.isObject = true ∧
      typeOf out = some ComponentType.textInput.code ∧ TextInputResponse.fromJson out = some r := by
  have hkeys : ["type", "id", "custom_id", "value"].Nodup := by decide
  obtain ⟨out, hwrite⟩ : ∃ out, r.toJson = some out :=
    exists_writeAll rfl hkeys (by
      simp only [List.forall_mem_cons]
      exact ⟨⟨_, rfl⟩, exists_put plainOptional r.id, exists_put plain r.customId,
        exists_put plain r.value, nofun⟩)
  have hid : deserialize out "id" = some r.id :=
    take_written plainOptional hwrite hkeys (.tail _ (.head _))
  have hcustomId : deserialize out "custom_id" = some r.customId :=
    take_written plain hwrite hkeys (.tail _ (.tail _ (.head _)))
  have hvalue : deserialize out "value" = some r.value :=
    take_written plain hwrite hkeys (.tail _ (.tail _ (.tail _ (.head _))))
  refine ⟨out, hwrite, isObject_writeAll rfl hwrite, typeOf_written hwrite hkeys (.head _), ?_⟩
  simp [fromJson, hid, hcustomId, hvalue]

theorem TextDisplayResponse.restored (r : TextDisplayResponse) :
    ∃ out, r.toJson = some out ∧ typeOf out = some ComponentType.textDisplay.code ∧
      TextDisplayResponse.fromJson out = some r := by
  have hkeys : ["type", "id"].Nodup := by decide
  obtain ⟨out, hwrite⟩ : ∃ out, r.toJson = some out :=
    exists_writeAll rfl hkeys (by
      simp only [List.forall_mem_cons]
      exact ⟨⟨_, rfl⟩, exists_put plainOptional r.id, nofun⟩)
  have hid : deserialize out "id" = some r.id :=
    take_written plainOptional hwrite hkeys (.tail _ (.head _))
  refine ⟨out, hwrite, typeOf_written hwrite hkeys (.head _), ?_⟩
  simp [fromJson, hid]

/-! ## Children -/

namespace InteractiveComponentResponse

/-- **A child is decoded as an empty text input**, whatever it was. -/
theorem fromJson_eq {j : Json} {c : InteractiveComponentResponse}
    (h : InteractiveComponentResponse.fromJson j = some c) : c = .textInput {} := by
  unfold InteractiveComponentResponse.fromJson at h
  cases htype : typeOf j with
  | none =>
      rw [htype] at h
      exact (Option.some.inj h).symm
  | some type =>
      rw [htype] at h
      dsimp only at h
      -- each case of the `switch` drops what it decoded
      split at h
      all_goals
        first
        | exact (Option.some.inj h).symm
        | obtain ⟨_, -, rfl⟩ := Option.map_eq_some_iff.mp h
          rfl

/-- A case of the `switch` for what was selected. -/
theorem decodes_select {V : Type} [Value V] [Lawful V] [Plain V] (type : Int64)
    (t : ComponentType) (r : SelectResponse V)
    (htype : (Json.toUnsigned FloatCast.undefined 8 (.integer type)).toUInt8 = t.code)
    (hcase : ∀ j, typeOf j = some t.code →
      InteractiveComponentResponse.fromJson j =
        (SelectResponse.fromJson (V := V) j).map fun _ => textInput {}) :
    ∃ out, r.toJson type = some out ∧ out.isObject = true ∧
      InteractiveComponentResponse.fromJson out = some (.textInput {}) := by
  obtain ⟨out, hwrite, hobject, hout, hfrom⟩ := r.restored type
  rw [htype] at hout
  exact ⟨out, hwrite, hobject, by rw [hcase out hout, hfrom, Option.map_some]⟩

/-- What is encoded of a child can be decoded. -/
theorem decodes (c : InteractiveComponentResponse) :
    ∃ out, c.toJson = some out ∧ out.isObject = true ∧
      InteractiveComponentResponse.fromJson out = some (.textInput {}) := by
  cases c with
  | textInput r =>
      obtain ⟨out, hwrite, hobject, htype, hfrom⟩ := r.restored
      refine ⟨out, hwrite, hobject, ?_⟩
      unfold InteractiveComponentResponse.fromJson
      rw [htype]
      show (TextInputResponse.fromJson out).map _ = _
      rw [hfrom, Option.map_some]
  | stringSelect r =>
      refine decodes_select 3 .selectMenu r rfl ?_
      intro j h
      rw [InteractiveComponentResponse.fromJson, h]
      rfl
  | userSelect r =>
      refine decodes_select 5 .userSelect r rfl ?_
      intro j h
      rw [InteractiveComponentResponse.fromJson, h]
      rfl
  | roleSelect r =>
      refine decodes_select 6 .roleSelect r rfl ?_
      intro j h
      rw [InteractiveComponentResponse.fromJson, h]
      rfl
  | mentionableSelect r =>
      refine decodes_select 7 .mentionableSelect r rfl ?_
      intro j h
      rw [InteractiveComponentResponse.fromJson, h]
      rfl
  | channelSelect r =>
      refine decodes_select 8 .channelSelect r rfl ?_
      intro j h
      rw [InteractiveComponentResponse.fromJson, h]
      rfl
  | fileUpload r =>
      refine decodes_select 19 .fileUpload r rfl ?_
      intro j h
      rw [InteractiveComponentResponse.fromJson, h]
      rfl

end InteractiveComponentResponse

/-! ## Labels and action rows -/

/-- A label comes back with an empty text input in place of its child. -/
theorem LabelResponse.restored (r : LabelResponse) :
    ∃ out, r.toJson = some out ∧ typeOf out = some ComponentType.label.code ∧
      LabelResponse.fromJson out =
        some { id := r.id, component := r.component.map fun _ => .textInput {} } := by
  obtain ⟨id, component⟩ := r
  have hkeys : ["type", "id", "component"].Nodup := by decide
  have hchild : ∃ w, putComponent component .null = some w ∧
      readComponent (w.getD .null) = some (component.map fun _ => .textInput {}) := by
    cases component with
    | none => exact ⟨none, rfl, rfl⟩
    | some c =>
        obtain ⟨out, hwrite, hobject, hfrom⟩ := c.decodes
        refine ⟨some out, by rw [putComponent, hwrite, Option.map_some], ?_⟩
        rw [Option.getD_some, readComponent, if_pos hobject, hfrom]
        rfl
  obtain ⟨w, hput, hread⟩ := hchild
  obtain ⟨out, hwrite⟩ : ∃ out, LabelResponse.toJson { id, component } = some out :=
    exists_writeAll rfl hkeys (by
      simp only [List.forall_mem_cons]
      exact ⟨⟨_, rfl⟩, exists_put plainOptional id, ⟨w, hput⟩, nofun⟩)
  have hid : deserialize out "id" = some id :=
    take_written plainOptional hwrite hkeys (.tail _ (.head _))
  obtain ⟨w', hput', hget⟩ := get_written hwrite hkeys (.tail _ (.tail _ (.head _)))
  obtain rfl := Option.some.inj (hput.symm.trans hput')
  have hcomponent : readComponent (out.get "component") =
      some (component.map fun _ => .textInput {}) := by
    rw [hget]
    exact hread
  refine ⟨out, hwrite, typeOf_written hwrite hkeys (.head _), ?_⟩
  simp [fromJson, hid, hcomponent]

/-- The children of an action row, one after the other. -/
theorem ActionRowResponse.decodes_children (cs : List InteractiveComponentResponse) :
    ∃ outs, cs.mapM InteractiveComponentResponse.toJson = some outs ∧
      outs.mapM InteractiveComponentResponse.fromJson =
        some (cs.map fun _ => .textInput {}) := by
  induction cs with
  | nil => exact ⟨[], rfl, rfl⟩
  | cons c cs ih =>
      obtain ⟨out, hwrite, -, hfrom⟩ := c.decodes
      obtain ⟨outs, hwrites, hfroms⟩ := ih
      exact ⟨out :: outs, by simp [hwrite, hwrites], by simp [hfrom, hfroms]⟩

/-- An action row comes back with an empty text input in place of each child. -/
theorem ActionRowResponse.restored (r : ActionRowResponse) :
    ∃ out, r.toJson = some out ∧ typeOf out = some ComponentType.actionRow.code ∧
      ActionRowResponse.fromJson out =
        some { id := r.id, components := r.components.map fun _ => .textInput {} } := by
  obtain ⟨id, components⟩ := r
  have hkeys : ["type", "id", "components"].Nodup := by decide
  obtain ⟨outs, hwrites, hreads⟩ := decodes_children components
  have hput : serialize components .null = some (some (.array outs)) := by
    show ((components.mapM InteractiveComponentResponse.toJson).map Json.array).map some = _
    rw [hwrites]
    rfl
  obtain ⟨out, hwrite⟩ : ∃ out, ActionRowResponse.toJson { id, components } = some out :=
    exists_writeAll rfl hkeys (by
      simp only [List.forall_mem_cons]
      exact ⟨⟨_, rfl⟩, exists_put plainOptional id, ⟨_, hput⟩, nofun⟩)
  have hid : deserialize out "id" = some id :=
    take_written plainOptional hwrite hkeys (.tail _ (.head _))
  obtain ⟨w, hput', hget⟩ := get_written hwrite hkeys (.tail _ (.tail _ (.head _)))
  obtain rfl := Option.some.inj (hput.symm.trans hput')
  have hcomponents : deserialize out "components" =
      some (components.map fun _ => InteractiveComponentResponse.textInput {}) := by
    rw [deserialize, hget]
    show (outs.mapM InteractiveComponentResponse.fromJson).map (fun cs => cs) = _
    rw [hreads]
    rfl
  refine ⟨out, hwrite, typeOf_written hwrite hkeys (.head _), ?_⟩
  simp [fromJson, hid, hcomponents]

/-! ## Responses -/

namespace ComponentInteractionResponse

/-- The types of the alternatives. -/
def modelled : List ComponentType :=
  [.actionRow, .selectMenu, .textInput, .userSelect, .roleSelect, .mentionableSelect,
   .channelSelect, .textDisplay, .label, .fileUpload]

/-- An unknown response has a type that is not modelled. -/
def Unmodelled : ComponentInteractionResponse → Prop
  | .unknown r => ∀ t ∈ modelled, r.type ≠ t.code
  | _ => True

/-- Each child is an empty text input, and the document of an unknown response has its
type. -/
def Restorable : ComponentInteractionResponse → Prop
  | .label r => ∀ c ∈ r.component, c = .textInput {}
  | .actionRow r => ∀ c ∈ r.components, c = .textInput {}
  | .unknown r => typeOf r.raw = some r.type
  | _ => True

/-- `from_json(to_json(c))` is `c`. -/
def RoundTrips (c : ComponentInteractionResponse) : Prop :=
  ∃ out, c.toJson = some out ∧ ComponentInteractionResponse.fromJson out = some c

theorem roundTrips_iff {c c' : ComponentInteractionResponse} {out : Json}
    (hwrite : c.toJson = some out) (hread : ComponentInteractionResponse.fromJson out = some c') :
    RoundTrips c ↔ c' = c := by
  constructor
  · rintro ⟨out', hwrite', hread'⟩
    obtain rfl := Option.some.inj (hwrite.symm.trans hwrite')
    exact Option.some.inj (hread.symm.trans hread')
  · rintro rfl
    exact ⟨out, hwrite, hread⟩

/-- A response to a menu or an upload comes back as it was. -/
theorem roundTrips_select {V : Type} [Value V] [Lawful V] [Plain V] (type : Int64)
    (t : ComponentType) {r : SelectResponse V}
    {inject : SelectResponse V → ComponentInteractionResponse}
    (hwrite : (inject r).toJson = r.toJson type)
    (htype : (Json.toUnsigned FloatCast.undefined 8 (.integer type)).toUInt8 = t.code)
    (hcase : ∀ j, typeOf j = some t.code →
      ComponentInteractionResponse.fromJson j = (SelectResponse.fromJson j).map inject) :
    RoundTrips (inject r) := by
  obtain ⟨out, hout, -, htypeOf, hfrom⟩ := r.restored type
  rw [htype] at htypeOf
  exact ⟨out, hwrite.trans hout, by rw [hcase out htypeOf, hfrom, Option.map_some]⟩

/-- A label comes back as it was if its child is an empty text input. -/
theorem roundTrips_label (r : LabelResponse) :
    RoundTrips (.label r) ↔ ∀ c ∈ r.component, c = .textInput {} := by
  obtain ⟨out, hwrite, htype, hfrom⟩ := r.restored
  have hread : ComponentInteractionResponse.fromJson out =
      some (.label { id := r.id, component := r.component.map fun _ => .textInput {} }) := by
    rw [ComponentInteractionResponse.fromJson, htype]
    show (LabelResponse.fromJson out).map _ = _
    rw [hfrom, Option.map_some]
  rw [roundTrips_iff (c := .label r) hwrite hread]
  obtain ⟨id, component⟩ := r
  cases component with
  | none => simp
  | some c => simp [eq_comm]

/-- An action row comes back as it was if each child is an empty text input. -/
theorem roundTrips_actionRow (r : ActionRowResponse) :
    RoundTrips (.actionRow r) ↔ ∀ c ∈ r.components, c = .textInput {} := by
  obtain ⟨out, hwrite, htype, hfrom⟩ := r.restored
  have hread : ComponentInteractionResponse.fromJson out =
      some (.actionRow { id := r.id, components := r.components.map fun _ => .textInput {} }) := by
    rw [ComponentInteractionResponse.fromJson, htype]
    show (ActionRowResponse.fromJson out).map _ = _
    rw [hfrom, Option.map_some]
  rw [roundTrips_iff (c := .actionRow r) hwrite hread]
  obtain ⟨id, components⟩ := r
  simp only [actionRow.injEq, ActionRowResponse.mk.injEq, true_and, List.map_const']
  rw [eq_comm, List.eq_replicate_iff]
  simp

/-- What is decoded to an unknown response. -/
theorem eq_of_unknown {j : Json} {r : UnknownComponentResponse}
    (h : ComponentInteractionResponse.fromJson j = some (.unknown r)) :
    (typeOf j = none ∧ r = {}) ∨ (typeOf j = some r.type ∧ r.raw = j) := by
  unfold ComponentInteractionResponse.fromJson at h
  cases htype : typeOf j with
  | none =>
      rw [htype] at h
      obtain rfl := unknown.inj (Option.some.inj h)
      exact .inl ⟨rfl, rfl⟩
  | some type =>
      rw [htype] at h
      dsimp only at h
      split at h
      all_goals
        first
        | obtain rfl := unknown.inj (Option.some.inj h)
          exact .inr ⟨rfl, rfl⟩
        | obtain ⟨_, -, heq⟩ := Option.map_eq_some_iff.mp h
          cases heq

/-- A document of a type that is not modelled. -/
theorem fromJson_unmodelled {type : UInt8} {raw : Json} (htype : typeOf raw = some type)
    (h : ∀ t ∈ modelled, type ≠ t.code) :
    ComponentInteractionResponse.fromJson raw = some (.unknown { type, raw }) := by
  rw [ComponentInteractionResponse.fromJson, htype]
  dsimp only
  rcases ComponentType.ofCode_cases type with ⟨t, hof, rfl⟩ | ⟨hof, -⟩
  · rw [hof]
    have ht : t ∉ modelled := fun ht => h t ht rfl
    cases t
    all_goals
      first
      | rfl
      | exact absurd (by decide) ht
  · rw [hof]

/-- An unknown response comes back as it was if its document has its type. -/
theorem roundTrips_unknown {r : UnknownComponentResponse} (h : Unmodelled (.unknown r)) :
    RoundTrips (.unknown r) ↔ typeOf r.raw = some r.type := by
  obtain ⟨type, raw⟩ := r
  constructor
  · rintro ⟨out, hwrite, hread⟩
    rcases eq_of_unknown hread with ⟨hnone, heq⟩ | ⟨htype, rfl⟩
    · -- the type is written where there is no document
      obtain rfl : type = 0 := congrArg UnknownComponentResponse.type heq
      obtain rfl : raw = .null := congrArg UnknownComponentResponse.raw heq
      obtain rfl := Option.some.inj hwrite
      cases hnone
    · exact htype
  · intro htype
    exact ⟨raw, UnknownMessageComponent.toJson_of_typeOf htype type, fromJson_unmodelled htype h⟩

/-- **Which responses come back as they were.** -/
theorem restored_iff (c : ComponentInteractionResponse) (hunmodelled : c.Unmodelled) :
    RoundTrips c ↔ c.Restorable := by
  cases c with
  | stringSelect r =>
      refine iff_of_true (roundTrips_select 3 .selectMenu rfl rfl ?_) trivial
      intro j h
      rw [ComponentInteractionResponse.fromJson, h]
      rfl
  | userSelect r =>
      refine iff_of_true (roundTrips_select 5 .userSelect rfl rfl ?_) trivial
      intro j h
      rw [ComponentInteractionResponse.fromJson, h]
      rfl
  | roleSelect r =>
      refine iff_of_true (roundTrips_select 6 .roleSelect rfl rfl ?_) trivial
      intro j h
      rw [ComponentInteractionResponse.fromJson, h]
      rfl
  | mentionableSelect r =>
      refine iff_of_true (roundTrips_select 7 .mentionableSelect rfl rfl ?_) trivial
      intro j h
      rw [ComponentInteractionResponse.fromJson, h]
      rfl
  | channelSelect r =>
      refine iff_of_true (roundTrips_select 8 .channelSelect rfl rfl ?_) trivial
      intro j h
      rw [ComponentInteractionResponse.fromJson, h]
      rfl
  | fileUpload r =>
      refine iff_of_true (roundTrips_select 19 .fileUpload rfl rfl ?_) trivial
      intro j h
      rw [ComponentInteractionResponse.fromJson, h]
      rfl
  | textInput r =>
      obtain ⟨out, hwrite, -, htype, hfrom⟩ := r.restored
      refine iff_of_true ⟨out, hwrite, ?_⟩ trivial
      rw [ComponentInteractionResponse.fromJson, htype]
      show (TextInputResponse.fromJson out).map _ = _
      rw [hfrom, Option.map_some]
  | textDisplay r =>
      obtain ⟨out, hwrite, htype, hfrom⟩ := r.restored
      refine iff_of_true ⟨out, hwrite, ?_⟩ trivial
      rw [ComponentInteractionResponse.fromJson, htype]
      show (TextDisplayResponse.fromJson out).map _ = _
      rw [hfrom, Option.map_some]
  | label r => exact roundTrips_label r
  | actionRow r => exact roundTrips_actionRow r
  | unknown r => exact roundTrips_unknown hunmodelled

end ComponentInteractionResponse

end

namespace ComponentInteractionResponse

/-- An unknown response with its document. -/
theorem restored_unknown :
    letI : FloatCast := ⟨fun _ => 0⟩
    RoundTrips (.unknown
      { type := 99, raw := .object [("type", .unsigned 99), ("value", .string "x")] }) :=
  letI : FloatCast := ⟨fun _ => 0⟩
  have h : Unmodelled (.unknown
      { type := 99, raw := .object [("type", .unsigned 99), ("value", .string "x")] }) :=
    show ∀ t ∈ modelled, (99 : UInt8) ≠ t.code by decide
  (restored_iff _ h).mpr rfl

/-- What was entered into the text input of a label is lost. -/
theorem loses_value :
    letI : FloatCast := ⟨fun _ => 0⟩
    ¬ RoundTrips (.label
      { component := some (.textInput { customId := "name", value := "Ada" }) }) := by
  let : FloatCast := ⟨fun _ => 0⟩
  intro h
  have hempty := (roundTrips_label _).mp h _ rfl
  have hvalue : "Ada" = "" := congrArg TextInputResponse.value
    (InteractiveComponentResponse.textInput.inj hempty)
  exact absurd hvalue (by decide)

end ComponentInteractionResponse

end Ekizu.Components
