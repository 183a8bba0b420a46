import Ekizu.Components.Bare

/-!
# Components through JSON

What a message component is after it was encoded and decoded, and what a document is
after it was decoded and encoded.

## Main results

* `MessageComponent.decodes_encoded` — a component that is built in code is restored.
* `MessageComponent.forwardCompatible_iff` — a document loses nothing exactly if it fits
  the decoders that it is handed to.
-/

namespace Ekizu.Components

open Lib Lib.Json

namespace MessageComponent

variable [FloatCast]

/-- **Message components decode what they encode**: a component that keeps no document
yet comes back with its alternatives and members at every level. -/
theorem decodes_encoded (c : MessageComponent) (hbare : c.bare = c)
    (hunmodelled : c.Unmodelled) :
    ∃ out c', c.toJson = some out ∧ MessageComponent.fromJson out = some c' ∧ c'.bare = c := by
  have hbuilt : dispatch.Built c := built_of_bare hbare hunmodelled
  obtain ⟨out, hwrite, c', hdecode, hagrees⟩ := Dispatch.restores c hbuilt
  refine ⟨out, c', hwrite, ?_, (agrees_bare hagrees).trans hbare⟩
  rw [← decode_eq, hdecode]

/-- Every member that the decoders know nothing about is still there, at every level, and
so is every component of a type that they do not model. -/
def ForwardCompatible (j : Json) : Prop :=
  ∃ c out, MessageComponent.fromJson j = some c ∧ c.toJson = some out ∧ dispatch.Kept j out

/-- **Documents that lose nothing.** -/
theorem forwardCompatible_iff (j : Json) : ForwardCompatible j ↔ dispatch.Fit j := by
  unfold ForwardCompatible
  rw [← Dispatch.recodes j]
  simp only [decode_eq]
  rfl

end MessageComponent

/-- A container with a section, an action row and a component of an unmodelled type. -/
def profileCard : MessageComponent :=
  .container
    { accentColor := some 0x5865F2
      components := [
        .section
          { components := [{ content := "Profile" }]
            accessory := some (.thumbnail { media := { url := "attachment://avatar.png" } }) },
        .actionRow
          { components := [
              .button { label := some "Follow", emoji := some { name := "bell" } },
              .userSelect
                { customId := "user", defaultValues := some [{ id := 42, type := "user" }] }] },
        .unknown { type := 99 }] }

theorem MessageComponent.decodes_encoded_profileCard :
    letI : FloatCast := ⟨fun _ => 0⟩
    ∃ out c', profileCard.toJson = some out ∧ MessageComponent.fromJson out = some c' ∧
      c'.bare = profileCard :=
  letI : FloatCast := ⟨fun _ => 0⟩
  MessageComponent.decodes_encoded profileCard rfl (by
    show ∀ child ∈ [_, _, _], ContainerChild.Unmodelled child
    simp only [List.forall_mem_cons, ContainerChild.Unmodelled, true_and, List.not_mem_nil,
      IsEmpty.forall_iff, implies_true, and_true]
    decide)

/-- A child of an unmodelled type is replaced by an empty button. -/
theorem MessageComponent.drops_unmodelled :
    letI : FloatCast := ⟨fun _ => 0⟩
    ¬ ForwardCompatible (.object [("type", .unsigned 1), ("components", .array
      [.object [("type", .unsigned 99), ("content", .string "x")]])]) := by
  let : FloatCast := ⟨fun _ => 0⟩
  intro h
  obtain ⟨c, out, hc, hout, hkept⟩ := h
  have hfit := (Dispatch.recodes _).mp ⟨c, out, (decode_eq _).trans hc, hout, hkept⟩
  obtain ⟨-, -, hchildren, -⟩ : ActionRow.record.Fit _ := hfit
  rcases hchildren with hnull | ⟨htext, -⟩ | ⟨children, hchildren, hfits⟩
  · cases hnull
  · cases htext
  · obtain rfl := Json.array.inj hchildren
    exact hfits _ List.mem_cons_self rfl

end Ekizu.Components
