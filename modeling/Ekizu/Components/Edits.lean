import Ekizu.Components.Covers

/-!
# Editing decoded components

The typed fields of a component win over the document that it was decoded from if what it
is written as is decoded to the same ones, at every level.

## Main results

* `MessageComponent.editsWin_iff` — the typed fields win exactly if they cover the document.
* `MessageComponent.clearedLabel_returns` — a label that is cleared comes back.
-/

namespace Ekizu.Components

open Lib Lib.Json

attribute [local irreducible] Members.cons

section

variable [FloatCast]

/-! ## Variants -/

section

variable {V : Type} {write : V → Option Json} {choices : List (Choice V write)}
  (hnodup : (types choices).Nodup) {f : V → V} {ch : Choice V write} {g : ch.R → ch.R}

/-- An alternative wins exactly if its component does. -/
theorem wins_choose {d : Dispatch UInt8 V} (hd : d.toAlternatives = alternatives choices hnodup)
    (t : ComponentType) (h : choose choices t = some ch)
    (hbare : ∀ r, f (ch.inject r) = ch.inject (g r)) (hinj : Function.Injective ch.inject)
    (r : ch.R) :
    d.format.Wins f (ch.inject r) ↔ ch.codec.record.format.Wins g r := by
  have halt : ch.alternative ∈ d.list := by
    rw [hd]
    exact List.mem_map_of_mem (List.mem_of_find?_eq_some h)
  exact Dispatch.wins_iff halt ⟨hbare, hinj⟩ r

end

theorem SectionAccessory.slot_winsIff :
    slot.WinsIff (Option.map bare) fun v o => AccessoryCovers o v := by
  intro v o
  cases o with
  | none =>
      refine Alternatives.optional_none_iff v |>.trans ?_
      have hkind : SectionAccessory.alternatives.kindOf v = typeOf v := rfl
      rw [hkind]
      show _ ↔ typeOf v ≠ some ComponentType.button.code ∧
        typeOf v ≠ some ComponentType.thumbnail.code
      cases typeOf v with
      | none => simp
      | some n =>
          simp only [Option.bind_some, SectionAccessory.alternatives, find_eq]
          rcases ComponentType.ofCode_cases n with ⟨t, hof, rfl⟩ | ⟨hof, hne⟩
          · rw [hof]
            cases t with
            | button => exact iff_of_false (fun h => by cases h) fun h => h.1 rfl
            | thumbnail => exact iff_of_false (fun h => by cases h) fun h => h.2 rfl
            | _ => exact iff_of_true rfl ⟨by decide, by decide⟩
          · rw [hof]
            exact iff_of_true rfl ⟨fun h => hne .button (Option.some.inj h).symm,
              fun h => hne .thumbnail (Option.some.inj h).symm⟩
  | some a =>
      cases a with
      | button b =>
          have halt : Choice.alternative ⟨_, Button.codec, .button, fun _ => rfl⟩ ∈
              SectionAccessory.alternatives.list := List.mem_cons_self
          exact (Alternatives.optional_some_iff halt
            ⟨fun _ => rfl, fun _ _ h => by injection h⟩ v b).trans b.wins_iff
      | thumbnail t =>
          have halt : Choice.alternative ⟨_, Thumbnail.codec, .thumbnail, fun _ => rfl⟩ ∈
              SectionAccessory.alternatives.list := List.mem_cons_of_mem _ List.mem_cons_self
          exact (Alternatives.optional_some_iff halt
            ⟨fun _ => rfl, fun _ _ h => by injection h⟩ v t).trans t.wins_iff

theorem Section.wins_iff (s : Section) : record.format.Wins bare s ↔ s.Covers := by
  have hmembers : Section.record.members.WinsIff _ _ :=
    .cons plainOptional_winsIff <| .cons (memberList_winsIff TextDisplay.wins_iff) <|
      .last SectionAccessory.slot_winsIff .nil
  exact Record.wins_iff hmembers (fun _ => rfl) s

theorem LabelComponent.wins_iff (c : LabelComponent) :
    dispatch.format.Wins bare c ↔ c.Covers := by
  cases c with
  | textInput t =>
      exact (wins_choose nodup_types rfl .textInput rfl
        (fun _ => rfl) (fun _ _ h => by injection h) t).trans t.wins_iff
  | fileUpload f =>
      exact (wins_choose nodup_types rfl .fileUpload rfl
        (fun _ => rfl) (fun _ _ h => by injection h) f).trans f.wins_iff
  | selectMenu s =>
      exact (wins_choose nodup_types rfl .selectMenu rfl
        (fun _ => rfl) (fun _ _ h => by injection h) s).trans s.wins_iff
  | userSelect s =>
      exact (wins_choose nodup_types rfl .userSelect rfl
        (fun _ => rfl) (fun _ _ h => by injection h) s).trans s.wins_iff
  | roleSelect s =>
      exact (wins_choose nodup_types rfl .roleSelect rfl
        (fun _ => rfl) (fun _ _ h => by injection h) s).trans s.wins_iff
  | mentionableSelect s =>
      exact (wins_choose nodup_types rfl .mentionableSelect rfl
        (fun _ => rfl) (fun _ _ h => by injection h) s).trans s.wins_iff
  | channelSelect s =>
      exact (wins_choose nodup_types rfl .channelSelect rfl
        (fun _ => rfl) (fun _ _ h => by injection h) s).trans s.wins_iff

theorem LabelComponent.slot_winsIff : slot.WinsIff bare fun _ c => c.Covers := by
  intro v c
  exact (Format.always_winsIff v c).trans c.wins_iff

theorem Label.wins_iff (l : Label) : record.format.Wins bare l ↔ l.Covers := by
  have hmembers : Label.record.members.WinsIff _ _ :=
    .cons plainOptional_winsIff <| .skip plainMember_wins <| .cons plainOptional_winsIff <|
      .last LabelComponent.slot_winsIff .nil
  exact Record.wins_iff hmembers (fun _ => rfl) l

theorem ActionRowComponent.wins_iff (c : ActionRowComponent) :
    dispatch.format.Wins bare c ↔ c.Covers := by
  cases c with
  | button b =>
      exact (wins_choose nodup_types rfl .button rfl
        (fun _ => rfl) (fun _ _ h => by injection h) b).trans b.wins_iff
  | selectMenu s =>
      exact (wins_choose nodup_types rfl .selectMenu rfl
        (fun _ => rfl) (fun _ _ h => by injection h) s).trans s.wins_iff
  | userSelect s =>
      exact (wins_choose nodup_types rfl .userSelect rfl
        (fun _ => rfl) (fun _ _ h => by injection h) s).trans s.wins_iff
  | roleSelect s =>
      exact (wins_choose nodup_types rfl .roleSelect rfl
        (fun _ => rfl) (fun _ _ h => by injection h) s).trans s.wins_iff
  | mentionableSelect s =>
      exact (wins_choose nodup_types rfl .mentionableSelect rfl
        (fun _ => rfl) (fun _ _ h => by injection h) s).trans s.wins_iff
  | channelSelect s =>
      exact (wins_choose nodup_types rfl .channelSelect rfl
        (fun _ => rfl) (fun _ _ h => by injection h) s).trans s.wins_iff
  | textInput t =>
      exact (wins_choose nodup_types rfl .textInput rfl
        (fun _ => rfl) (fun _ _ h => by injection h) t).trans t.wins_iff
  | fileUpload f =>
      exact (wins_choose nodup_types rfl .fileUpload rfl
        (fun _ => rfl) (fun _ _ h => by injection h) f).trans f.wins_iff

theorem ActionRow.wins_iff (a : ActionRow) : record.format.Wins bare a ↔ a.Covers := by
  have hmembers : ActionRow.record.members.WinsIff _ _ :=
    .cons plainOptional_winsIff <| .last (memberList_winsIff ActionRowComponent.wins_iff) .nil
  exact Record.wins_iff hmembers (fun _ => rfl) a

/-! ## Unknown components and containers -/

/-- The type of what is written of an unknown component. -/
theorem UnknownMessageComponent.typeOf_toJson (u : UnknownMessageComponent) :
    ∃ out, u.toJson = some out ∧ typeOf out = u.written := by
  have hobject : u.raw.ensureObject.isObject = true := isObject_ensureObject
  have hfind : u.raw.ensureObject.find? "type" = u.raw.find? "type" := find?_ensureObject
  by_cases hcontains : u.raw.contains "type" = true
  · refine ⟨u.raw.ensureObject, ?_, ?_⟩
    · rw [toJson, contains, hfind]
      exact if_pos hcontains
    · rw [written, if_pos hcontains, typeOf, typeOf, hfind]
  · obtain ⟨out, hset⟩ := exists_update hobject "type" (some (.unsigned u.type.toUInt64))
    refine ⟨out, ?_, ?_⟩
    · rw [toJson, contains, hfind]
      exact (if_neg hcontains).trans hset
    · rw [written, if_neg hcontains]
      exact typeOf_unsigned ((find?_update hset).trans (if_pos rfl))

section

variable {V : Type} {write : V → Option Json} {choices : List (Choice V write)}
  (hnodup : (types choices).Nodup) {d : Dispatch UInt8 V}

/-- What has a property that no alternative has is of no type, or of an unknown one. -/
theorem decode_unknown_iff (hd : d.toAlternatives = alternatives choices hnodup)
    {keep : UInt8 → Json → V} (hkeep : d.unknown = some keep) {P : V → Prop}
    (hP : ∀ ch ∈ choices, ∀ r, ¬ P (ch.inject r)) (j : Json) :
    (∃ c, d.decode j = some c ∧ P c) ↔
      (typeOf j = none ∧ P d.typeless) ∨
        ∃ n, typeOf j = some n ∧ (∀ t ∈ types choices, n ≠ t.code) ∧ P (keep n j) := by
  rw [decode_eq hnodup hd]
  cases typeOf j with
  | none => simp
  | some n =>
      dsimp only
      cases hfind : (ComponentType.ofCode n).bind (choose choices) with
      | none =>
          have hunmodelled : ∀ t ∈ types choices, n ≠ t.code := by
            rintro t ht rfl
            obtain ⟨ch, hch, rfl⟩ := List.mem_map.mp ht
            rw [ComponentType.ofCode_code, Option.bind_some] at hfind
            exact List.find?_eq_none.mp hfind ch hch (decide_eq_true rfl)
          rw [hkeep]
          simpa using fun _ => hunmodelled
      | some ch =>
          obtain ⟨t, hof, hchoose⟩ := Option.bind_eq_some_iff.mp hfind
          have hch : ch ∈ choices := List.mem_of_find?_eq_some hchoose
          have htype := List.find?_some hchoose
          have hcode : ch.codec.type.code = n := by
            rw [of_decide_eq_true htype]
            rcases ComponentType.ofCode_cases n with ⟨t', hof', hcode⟩ | ⟨hof', -⟩
            · obtain rfl := Option.some.inj (hof.symm.trans hof')
              exact hcode.symm
            · rw [hof] at hof'
              cases hof'
          refine iff_of_false ?_ ?_
          · intro hdecode
            obtain ⟨c, hfrom, hc⟩ := hdecode
            obtain ⟨r, -, rfl⟩ := Option.map_eq_some_iff.mp hfrom
            exact hP ch hch r hc
          · rintro (⟨hnone, -⟩ | ⟨n', hn', hunmodelled, -⟩)
            · cases hnone
            · obtain rfl := Option.some.inj hn'
              exact hunmodelled _ (List.mem_map_of_mem hch) hcode.symm

/-- **An unknown component wins** if its own type is written, and no alternative has it. -/
theorem unknown_wins_iff {inject : UnknownMessageComponent → V} {f : V → V}
    (hd : d.toAlternatives = alternatives choices hnodup)
    (hkeep : d.unknown = some fun type raw => inject { type, raw })
    (hwrite : ∀ u, d.write (inject u) = u.toJson) (u : UnknownMessageComponent)
    (hother : ∀ ch ∈ choices, ∀ r, f (ch.inject r) ≠ f (inject u))
    (hbare : ∀ u', f (inject u') = f (inject u) ↔ u'.type = u.type) :
    d.format.Wins f (inject u) ↔
      (u.written = some u.type ∧ ∀ t ∈ types choices, u.type ≠ t.code) ∨
        (u.written = none ∧ f d.typeless = f (inject u)) := by
  obtain ⟨out, hout, htype⟩ := u.typeOf_toJson
  have hwins : d.format.Wins f (inject u) ↔
      ∃ c, d.decode out = some c ∧ f c = f (inject u) := by
    constructor
    · intro hwins
      obtain ⟨out', hout', hread⟩ := hwins
      obtain rfl := Option.some.inj (((hwrite u).trans hout).symm.trans hout')
      exact hread
    · intro hread
      exact ⟨out, (hwrite u).trans hout, hread⟩
  rw [hwins, decode_unknown_iff hnodup hd hkeep hother, htype, or_comm]
  refine or_congr_left ?_
  constructor
  · rintro ⟨n, hn, hunmodelled, heq⟩
    obtain rfl : n = u.type := (hbare _).mp heq
    exact ⟨hn, hunmodelled⟩
  · intro hboth
    exact ⟨u.type, hboth.1, hboth.2, (hbare _).mpr rfl⟩

end

theorem ContainerChild.wins_iff (c : ContainerChild) : dispatch.format.Wins bare c ↔ c.Covers := by
  cases c with
  | unknown u =>
      have hother : ∀ ch ∈ choices, ∀ r, bare (ch.inject r) ≠ bare (.unknown u) := by
        simp [choices, bare]
      refine (unknown_wins_iff nodup_types rfl rfl (fun _ => rfl) u hother (fun u' => ?_)).trans ?_
      · simp [bare, UnknownMessageComponent.bare]
      · have htypeless : bare dispatch.typeless = bare (.unknown u) ↔ u.type = 0 := by
          simp [dispatch, bare, UnknownMessageComponent.bare, eq_comm]
        rw [htypeless]
        rfl
  | actionRow a =>
      exact (wins_choose nodup_types rfl .actionRow rfl
        (fun _ => rfl) (fun _ _ h => by injection h) a).trans a.wins_iff
  | «section» s =>
      exact (wins_choose nodup_types rfl .section rfl
        (fun _ => rfl) (fun _ _ h => by injection h) s).trans s.wins_iff
  | textDisplay t =>
      exact (wins_choose nodup_types rfl .textDisplay rfl
        (fun _ => rfl) (fun _ _ h => by injection h) t).trans t.wins_iff
  | thumbnail t =>
      exact (wins_choose nodup_types rfl .thumbnail rfl
        (fun _ => rfl) (fun _ _ h => by injection h) t).trans t.wins_iff
  | mediaGallery m =>
      exact (wins_choose nodup_types rfl .mediaGallery rfl
        (fun _ => rfl) (fun _ _ h => by injection h) m).trans m.wins_iff
  | file f =>
      exact (wins_choose nodup_types rfl .file rfl
        (fun _ => rfl) (fun _ _ h => by injection h) f).trans f.wins_iff
  | separator s =>
      exact (wins_choose nodup_types rfl .separator rfl
        (fun _ => rfl) (fun _ _ h => by injection h) s).trans s.wins_iff
  | button b =>
      exact (wins_choose nodup_types rfl .button rfl
        (fun _ => rfl) (fun _ _ h => by injection h) b).trans b.wins_iff
  | selectMenu s =>
      exact (wins_choose nodup_types rfl .selectMenu rfl
        (fun _ => rfl) (fun _ _ h => by injection h) s).trans s.wins_iff
  | userSelect s =>
      exact (wins_choose nodup_types rfl .userSelect rfl
        (fun _ => rfl) (fun _ _ h => by injection h) s).trans s.wins_iff
  | roleSelect s =>
      exact (wins_choose nodup_types rfl .roleSelect rfl
        (fun _ => rfl) (fun _ _ h => by injection h) s).trans s.wins_iff
  | mentionableSelect s =>
      exact (wins_choose nodup_types rfl .mentionableSelect rfl
        (fun _ => rfl) (fun _ _ h => by injection h) s).trans s.wins_iff
  | channelSelect s =>
      exact (wins_choose nodup_types rfl .channelSelect rfl
        (fun _ => rfl) (fun _ _ h => by injection h) s).trans s.wins_iff

theorem ContainerChild.elements_winsIff :
    dispatch.format.elements.WinsIff (List.map bare) fun _ cs => ∀ c ∈ cs, c.Covers := by
  intro v cs
  refine (Format.elements_winsIff v cs).trans ?_
  simp only [wins_iff]

theorem accentColor_winsIff :
    accentColorMember.WinsIff id fun v o => o = none → v.isNumberUnsigned = false := by
  intro v o
  cases o with
  | none =>
      cases v with
      | unsigned n =>
          refine iff_of_false ?_ fun h => by cases h rfl
          intro hwins
          obtain ⟨w, hput, o, htake, heq⟩ := hwins
          obtain rfl := Option.some.inj hput
          obtain rfl := Option.some.inj htake
          cases heq
      | null | boolean | integer | float | string | array | object =>
          exact iff_of_true ⟨none, rfl, none, rfl, rfl⟩ fun _ => rfl
  | some n =>
      refine iff_of_true ⟨_, rfl, some n, ?_, rfl⟩ fun h => by cases h
      show some (some n.toUInt64.toUInt32) = _
      rw [UInt32.toUInt32_toUInt64]

theorem Container.wins_iff (c : Container) : record.format.Wins bare c ↔ c.Covers := by
  have hmembers : Container.record.members.WinsIff _ _ :=
    .cons plainOptional_winsIff <| .cons accentColor_winsIff <| .cons plainOptional_winsIff <|
      .last ContainerChild.elements_winsIff .nil
  exact Record.wins_iff hmembers (fun _ => rfl) c

/-! ## Message components -/

theorem MessageComponent.mem_types (t : ComponentType) : t ∈ types MessageComponent.choices := by
  show t ∈ [ComponentType.actionRow, .button, .selectMenu, .userSelect, .roleSelect,
    .mentionableSelect, .channelSelect, .textInput, .section, .textDisplay, .thumbnail,
    .mediaGallery, .file, .separator, .container, .label, .fileUpload]
  cases t <;> decide

theorem MessageComponent.wins_iff (c : MessageComponent) :
    dispatch.format.Wins bare c ↔ c.Covers := by
  cases c with
  | unknown u =>
      have hother : ∀ ch ∈ choices, ∀ r, bare (ch.inject r) ≠ bare (.unknown u) := by
        simp [choices, bare]
      refine (unknown_wins_iff nodup_types rfl rfl (fun _ => rfl) u hother (fun u' => ?_)).trans ?_
      · simp [bare, UnknownMessageComponent.bare]
      · -- a component without a type is decoded as an empty action row
        have htypeless : ¬ bare dispatch.typeless = bare (.unknown u) := by
          simp [dispatch, bare]
        simp [htypeless, mem_types, Covers]
  | actionRow a =>
      exact (wins_choose nodup_types rfl .actionRow rfl
        (fun _ => rfl) (fun _ _ h => by injection h) a).trans a.wins_iff
  | button b =>
      exact (wins_choose nodup_types rfl .button rfl
        (fun _ => rfl) (fun _ _ h => by injection h) b).trans b.wins_iff
  | selectMenu s =>
      exact (wins_choose nodup_types rfl .selectMenu rfl
        (fun _ => rfl) (fun _ _ h => by injection h) s).trans s.wins_iff
  | userSelect s =>
      exact (wins_choose nodup_types rfl .userSelect rfl
        (fun _ => rfl) (fun _ _ h => by injection h) s).trans s.wins_iff
  | roleSelect s =>
      exact (wins_choose nodup_types rfl .roleSelect rfl
        (fun _ => rfl) (fun _ _ h => by injection h) s).trans s.wins_iff
  | mentionableSelect s =>
      exact (wins_choose nodup_types rfl .mentionableSelect rfl
        (fun _ => rfl) (fun _ _ h => by injection h) s).trans s.wins_iff
  | channelSelect s =>
      exact (wins_choose nodup_types rfl .channelSelect rfl
        (fun _ => rfl) (fun _ _ h => by injection h) s).trans s.wins_iff
  | textInput t =>
      exact (wins_choose nodup_types rfl .textInput rfl
        (fun _ => rfl) (fun _ _ h => by injection h) t).trans t.wins_iff
  | «section» s =>
      exact (wins_choose nodup_types rfl .section rfl
        (fun _ => rfl) (fun _ _ h => by injection h) s).trans s.wins_iff
  | textDisplay t =>
      exact (wins_choose nodup_types rfl .textDisplay rfl
        (fun _ => rfl) (fun _ _ h => by injection h) t).trans t.wins_iff
  | thumbnail t =>
      exact (wins_choose nodup_types rfl .thumbnail rfl
        (fun _ => rfl) (fun _ _ h => by injection h) t).trans t.wins_iff
  | mediaGallery m =>
      exact (wins_choose nodup_types rfl .mediaGallery rfl
        (fun _ => rfl) (fun _ _ h => by injection h) m).trans m.wins_iff
  | file f =>
      exact (wins_choose nodup_types rfl .file rfl
        (fun _ => rfl) (fun _ _ h => by injection h) f).trans f.wins_iff
  | separator s =>
      exact (wins_choose nodup_types rfl .separator rfl
        (fun _ => rfl) (fun _ _ h => by injection h) s).trans s.wins_iff
  | container c =>
      exact (wins_choose nodup_types rfl .container rfl
        (fun _ => rfl) (fun _ _ h => by injection h) c).trans c.wins_iff
  | label l =>
      exact (wins_choose nodup_types rfl .label rfl
        (fun _ => rfl) (fun _ _ h => by injection h) l).trans l.wins_iff
  | fileUpload f =>
      exact (wins_choose nodup_types rfl .fileUpload rfl
        (fun _ => rfl) (fun _ _ h => by injection h) f).trans f.wins_iff

namespace MessageComponent

/-- Decoding what is written gives the typed fields, at every level. -/
def EditsWin (edited : MessageComponent) : Prop :=
  ∃ out c, edited.toJson = some out ∧ MessageComponent.fromJson out = some c ∧
    c.bare = edited.bare

theorem editsWin_iff_wins (edited : MessageComponent) :
    edited.EditsWin ↔ dispatch.format.Wins bare edited := by
  have hget : dispatch.format.get = MessageComponent.fromJson := funext decode_eq
  unfold EditsWin Format.Wins
  rw [hget]
  constructor
  · intro hwins
    obtain ⟨out, c, hwrite, hread, heq⟩ := hwins
    exact ⟨out, hwrite, c, hread, heq⟩
  · intro hwins
    obtain ⟨out, hwrite, c, hread, heq⟩ := hwins
    exact ⟨out, c, hwrite, hread, heq⟩

/-- **Edits win over the document** exactly if the typed fields cover it: whatever document a
component was decoded from, and however its fields were edited. -/
theorem editsWin_iff (edited : MessageComponent) : edited.EditsWin ↔ edited.Covers :=
  (editsWin_iff_wins edited).trans (wins_iff edited)

end MessageComponent

end

/-- A button as it is received. -/
def followButton : Json :=
  .object [("type", .unsigned 2), ("style", .unsigned 1), ("label", .string "Follow"),
    ("custom_id", .string "follow")]

/-- A label that is cleared is still written, and read again. -/
theorem MessageComponent.clearedLabel_returns :
    letI : FloatCast := ⟨fun _ => 0⟩
    ∃ b out, MessageComponent.fromJson followButton = some (.button b) ∧
      b.label = some "Follow" ∧
      (MessageComponent.button { b with label := none }).toJson = some out ∧
      out.get "label" = .string "Follow" ∧
      ¬ (MessageComponent.button { b with label := none }).EditsWin := by
  let : FloatCast := ⟨fun _ => 0⟩
  refine ⟨_, _, rfl, rfl, rfl, rfl, ?_⟩
  intro hwins
  have hcovers := (wins_iff _).mp ((editsWin_iff_wins _).mp hwins)
  obtain ⟨-, hlabel, -⟩ : Button.Covers _ := hcovers
  rcases hlabel rfl with hnull | ⟨-, htext⟩
  · cases hnull
  · cases htext

end Ekizu.Components
