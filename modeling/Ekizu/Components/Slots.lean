import Ekizu.Components.JsonUtil
import Ekizu.Lib.JsonRecord
import Mathlib.Data.Option.Basic

/-!
# Types of members and their laws

What the types under a member restore and keep: each number, text and list on its own,
and as the value of a member or of an optional one.

## Main results

* `member`, `optionalMember` — a type as a member.
* `Lawful` for numbers, texts, snowflakes and lists.
* `emojiMember` — an emoji is written into what is there.
-/

namespace Ekizu.Components

open Lib Lib.Json

variable {A : Type}

/-- A type with laws for its encoding.  What replaces a text of an integral type is written,
and nothing is asked of it. -/
class Lawful (A : Type) [Value A] where
  format : Format A
  write_eq : ∀ a, format.write a = Value.write a
  get_eq : ∀ j, format.get j = Value.get j
  init_writes : ∃ out, Value.write (Value.init : A) = some out
  kept_null : ∀ out, format.Kept null out
  not_null : ∀ (a : A) out, Value.write a = some out → out.isNull = false
  text : ∀ ofText, Value.ofText (A := A) = some ofText →
    (∀ a : A, ∃ out, Value.write a = some out ∧ out.isString = false) ∧
      ∀ v out, format.Kept v out

/-- A value that a member takes: null, a text for an integer, or one that is of the type. -/
def Takes [Value A] (Fit : Json → Prop) (v : Json) : Prop :=
  v.isNull = true ∨ (v.isString = true ∧ (Value.ofText (A := A)).isSome = true) ∨ Fit v

section

variable [Value A]

theorem isNull_eq_true {v : Json} (h : v.isNull = true) : v = null := by
  cases v with
  | null => rfl
  | boolean | unsigned | integer | float | string | array | object => simp [isNull] at h

theorem not_isNull_of_isObject {v : Json} (h : v.isObject = true) : v.isNull = false := by
  cases v with
  | object members => rfl
  | null | boolean | unsigned | integer | float | string | array => cases h

theorem isString_eq_true {v : Json} (h : v.isString = true) : ∃ s, v = string s := by
  cases v with
  | string s => exact ⟨s, rfl⟩
  | null | boolean | unsigned | integer | float | array | object => simp [isString] at h

theorem takes_iff {Fit : Json → Prop} {v : Json} (hnull : ¬ v.isNull = true)
    (htext : ¬ (v.isString = true ∧ (Value.ofText (A := A)).isSome = true)) :
    Takes (A := A) Fit v ↔ Fit v :=
  ⟨fun h => (h.resolve_left hnull).resolve_left htext, fun h => .inr (.inr h)⟩

/-- A value that is no text for an integer is read as it is. -/
theorem readValue_get {B : Type} {text : (String → A) → String → B} {read : A → B} {v : Json}
    (h : v.isString = true → (Value.ofText (A := A)).isSome = false) :
    readValue text read v = (Value.get v).map read := by
  unfold readValue
  split
  · next s ofText htext =>
      have hnone := h rfl
      rw [htext] at hnone
      cases hnone
  · rfl

variable [Lawful A]

/-- What is written is neither null nor a text for an integer. -/
theorem not_blank_of_write {a : A} {out : Json} (h : Value.write a = some out) :
    out.isNull = false ∧ (out.isString = true → (Value.ofText (A := A)).isSome = false) := by
  refine ⟨Lawful.not_null a out h, ?_⟩
  intro hstring
  cases htext : Value.ofText (A := A) with
  | none => rfl
  | some ofText =>
      obtain ⟨out', hwrite', hother⟩ := (Lawful.text ofText htext).1 a
      rw [h] at hwrite'
      rw [← Option.some.inj hwrite', hstring] at hother
      cases hother

/-- What is written of a value is read back. -/
theorem restores_value {a : A} (h : (Lawful.format (A := A)).Built a) :
    ∃ out, Value.write a = some out ∧ out.isNull = false ∧
      (out.isString = true → (Value.ofText (A := A)).isSome = false) ∧
      ∃ a', Value.get out = some a' ∧ (Lawful.format (A := A)).Agrees a' a := by
  obtain ⟨out, hwrite, a', hget, hagrees⟩ := Lawful.format.restores a h
  rw [Lawful.write_eq] at hwrite
  rw [Lawful.get_eq] at hget
  obtain ⟨hnull, htext⟩ := not_blank_of_write hwrite
  exact ⟨out, hwrite, hnull, htext, a', hget, hagrees⟩

/-- What is read of a value is written. -/
theorem recodes_value (v : Json) :
    (∃ a out, Value.get (A := A) v = some a ∧ Value.write a = some out ∧
        (Lawful.format (A := A)).Kept v out) ↔ (Lawful.format (A := A)).Fit v := by
  rw [← Lawful.format.recodes v]
  simp only [Lawful.write_eq, Lawful.get_eq]

/-- **A type as a member.** -/
def member : Slot A where
  put := Member.put
  take := Member.take
  Built := (Lawful.format (A := A)).Built
  Agrees := (Lawful.format (A := A)).Agrees
  Kept := (Lawful.format (A := A)).Kept
  Fit := Takes (A := A) (Lawful.format (A := A)).Fit
  kept_null := Lawful.kept_null
  restores a hbuilt := by
    obtain ⟨out, hwrite, hnull, htext, a', hget, hagrees⟩ := restores_value hbuilt
    refine ⟨some out, by simp [Member.put, hwrite], a', ?_, hagrees⟩
    simp [Member.take, hnull, readValue_get htext, hget]
  recodes v := by
    by_cases hnull : v.isNull = true
    · obtain rfl := isNull_eq_true hnull
      obtain ⟨out, hwrite⟩ := Lawful.init_writes (A := A)
      refine ⟨fun _ => .inl rfl, fun _ => ⟨Value.init, some out, rfl, ?_, Lawful.kept_null out⟩⟩
      simp [Member.put, hwrite]
    by_cases htext : v.isString = true ∧ (Value.ofText (A := A)).isSome = true
    · obtain ⟨⟨s, rfl⟩, hsome⟩ := htext.imp_left isString_eq_true
      obtain ⟨ofText, hofText⟩ := Option.isSome_iff_exists.mp hsome
      obtain ⟨htotal, hkept⟩ := Lawful.text ofText hofText
      obtain ⟨out, hwrite, -⟩ := htotal (ofText s)
      refine ⟨fun _ => .inr (.inl ⟨rfl, hsome⟩), fun _ => ⟨ofText s, some out, ?_, ?_, hkept _ _⟩⟩
      · simp [Member.take, isNull, readValue, hofText]
      · simp [Member.put, hwrite]
    · have htake : Member.take (A := A) v = Value.get v := by
        simp only [Member.take, hnull, Bool.false_eq_true, if_false]
        rw [readValue_get (by simpa using htext)]
        exact Option.map_id'
      rw [takes_iff hnull htext, ← recodes_value (A := A), htake]
      constructor
      · rintro ⟨a, w, hget, hput, hkept⟩
        obtain ⟨out, hwrite, rfl⟩ := Option.map_eq_some_iff.mp hput
        exact ⟨a, out, hget, hwrite, hkept⟩
      · rintro ⟨a, out, hget, hwrite, hkept⟩
        exact ⟨a, some out, hget, by simp [Member.put, hwrite], hkept⟩

/-- **A type as an optional member.** -/
def optionalMember : Slot (Option A) where
  put := Member.put
  take := Member.take
  Built o := ∀ a ∈ o, (Lawful.format (A := A)).Built a
  Agrees := Option.Rel (Lawful.format (A := A)).Agrees
  Kept := (Lawful.format (A := A)).Kept
  Fit := Takes (A := A) (Lawful.format (A := A)).Fit
  kept_null := Lawful.kept_null
  restores o hbuilt := by
    cases o with
    | none => exact ⟨none, rfl, none, rfl, .none⟩
    | some a =>
        obtain ⟨out, hwrite, hnull, htext, a', hget, hagrees⟩ := restores_value (hbuilt a rfl)
        refine ⟨some out, by simp [Member.put, hwrite], some a', ?_, .some hagrees⟩
        simp [Member.take, hnull, readValue_get htext, hget]
  recodes v := by
    by_cases hnull : v.isNull = true
    · obtain rfl := isNull_eq_true hnull
      exact ⟨fun _ => .inl rfl, fun _ => ⟨none, none, rfl, rfl, Lawful.kept_null null⟩⟩
    by_cases htext : v.isString = true ∧ (Value.ofText (A := A)).isSome = true
    · obtain ⟨⟨s, rfl⟩, hsome⟩ := htext.imp_left isString_eq_true
      obtain ⟨ofText, hofText⟩ := Option.isSome_iff_exists.mp hsome
      refine ⟨fun _ => .inr (.inl ⟨rfl, hsome⟩), fun _ => ⟨none, none, ?_, rfl, ?_⟩⟩
      · simp [Member.take, isNull, readValue, hofText]
      · exact (Lawful.text ofText hofText).2 _ _
    · have htake : Member.take (A := Option A) v = (Value.get v).map some := by
        simp only [Member.take, hnull, Bool.false_eq_true, if_false]
        exact readValue_get (by simpa using htext)
      rw [takes_iff hnull htext, ← recodes_value (A := A), htake]
      constructor
      · rintro ⟨o, w, hread, hput, hkept⟩
        obtain ⟨a, hget, rfl⟩ := Option.map_eq_some_iff.mp hread
        obtain ⟨out, hwrite, rfl⟩ := Option.map_eq_some_iff.mp hput
        exact ⟨a, out, hget, hwrite, hkept⟩
      · rintro ⟨a, out, hget, hwrite, hkept⟩
        exact ⟨some a, some out, by simp [hget], by simp [Member.put, hwrite], hkept⟩

end

/-! ## Numbers and texts -/

/-- A type of which the encoding is everything; `accepts` says what `get` takes. -/
def leaf (write : A → Json) (get : Json → Option A) (accepts : Json → Prop)
    (hround : ∀ a, get (write a) = some a) (haccepts : ∀ v, (∃ a, get v = some a) ↔ accepts v) :
    Format A where
  write a := some (write a)
  get := get
  Built _ := True
  Agrees := Eq
  Kept _ _ := True
  Fit := accepts
  restores a _ := ⟨write a, rfl, a, hround a, rfl⟩
  recodes v := by
    rw [← haccepts v]
    constructor
    · rintro ⟨a, out, hget, -, -⟩
      exact ⟨a, hget⟩
    · rintro ⟨a, hget⟩
      exact ⟨a, write a, hget, rfl, trivial⟩

section

variable [FloatCast]

theorem getNumber_unsigned {bits : Nat} {n : UInt64} (h : n.toNat < 2 ^ bits) :
    getNumber bits (.unsigned n) = some n := by
  simp [getNumber, isNumber, toUnsigned, Nat.mod_eq_of_lt h]

theorem exists_getNumber {B : Type} (bits : Nat) (f : UInt64 → B) (v : Json) :
    (∃ b, (getNumber bits v).map f = some b) ↔ v.isNumber = true := by
  unfold getNumber
  by_cases hnumber : v.isNumber = true
  · simp [hnumber]
  · simp [hnumber]

theorem exists_getNarrow {B : Type} (bits : Nat) (f : UInt64 → B) (v : Json) :
    (∃ b, (getNarrow bits v).map f = some b) ↔ v.isNumber = true ∨ v.isBoolean = true := by
  cases v with
  | boolean b => simp [getNarrow, isBoolean]
  | null | unsigned | integer | float | string | array | object =>
      simp [getNarrow, getNumber, isNumber, isBoolean]

/-- An integral type whose values are written as unsigned numbers. -/
abbrev Lawful.integral [Value A] (toNumber : A → UInt64) (accepts : Json → Prop)
    (hwrite : ∀ a : A, Value.write a = some (.unsigned (toNumber a)))
    (hround : ∀ a : A, Value.get (.unsigned (toNumber a)) = some a)
    (haccepts : ∀ v, (∃ a : A, Value.get v = some a) ↔ accepts v) : Lawful A where
  format := leaf (fun a => .unsigned (toNumber a)) Value.get accepts hround haccepts
  write_eq a := (hwrite a).symm
  get_eq _ := rfl
  init_writes := ⟨_, hwrite _⟩
  kept_null _ := trivial
  not_null a out h := by
    rw [hwrite] at h
    obtain rfl := Option.some.inj h
    rfl
  text _ _ := ⟨fun a => ⟨_, hwrite a, rfl⟩, fun _ _ => trivial⟩

instance : Lawful UInt8 :=
  .integral UInt8.toUInt64 (fun v => v.isNumber = true ∨ v.isBoolean = true) (fun _ => rfl)
    (fun a => by
      have hfits : a.toUInt64.toNat < 2 ^ 8 := by
        rw [UInt8.toNat_toUInt64]
        exact a.toNat_lt
      show (getNumber 8 _).map _ = _
      rw [getNumber_unsigned hfits, Option.map_some, UInt8.toUInt8_toUInt64])
    (exists_getNarrow 8 _)

instance : Lawful UInt16 :=
  .integral UInt16.toUInt64 (fun v => v.isNumber = true ∨ v.isBoolean = true) (fun _ => rfl)
    (fun a => by
      have hfits : a.toUInt64.toNat < 2 ^ 16 := by
        rw [UInt16.toNat_toUInt64]
        exact a.toNat_lt
      show (getNumber 16 _).map _ = _
      rw [getNumber_unsigned hfits, Option.map_some, UInt16.toUInt16_toUInt64])
    (exists_getNarrow 16 _)

instance : Lawful UInt32 :=
  .integral UInt32.toUInt64 (fun v => v.isNumber = true ∨ v.isBoolean = true) (fun _ => rfl)
    (fun a => by
      have hfits : a.toUInt64.toNat < 2 ^ 32 := by
        rw [UInt32.toNat_toUInt64]
        exact a.toNat_lt
      show (getNumber 32 _).map _ = _
      rw [getNumber_unsigned hfits, Option.map_some, UInt32.toUInt32_toUInt64])
    (exists_getNarrow 32 _)

instance : Lawful UInt64 :=
  .integral id (fun v => v.isNumber = true) (fun _ => rfl)
    (fun a => getNumber_unsigned a.toNat_lt)
    (fun v => by
      have h := exists_getNumber 64 id v
      rwa [Option.map_id] at h)

/-- An enumeration with 8 bits. -/
theorem getNumber_code {B : Type} (f : UInt8 → B) (n : UInt8) :
    (getNumber 8 (.unsigned n.toUInt64)).map (fun m => f m.toUInt8) = some (f n) := by
  have hfits : n.toUInt64.toNat < 2 ^ 8 := by
    rw [UInt8.toNat_toUInt64]
    exact n.toNat_lt
  rw [getNumber_unsigned hfits, Option.map_some, UInt8.toUInt8_toUInt64]

end

instance : Lawful Bool where
  format := leaf .boolean Value.get (fun v => v.isBoolean = true) (fun _ => rfl) (fun v => by
    cases v with
    | boolean b => exact ⟨fun _ => rfl, fun _ => ⟨b, rfl⟩⟩
    | null | unsigned | integer | float | string | array | object =>
        simp [Value.get, isBoolean])
  write_eq _ := rfl
  get_eq _ := rfl
  init_writes := ⟨_, rfl⟩
  kept_null _ := trivial
  not_null a out h := by
    obtain rfl := Option.some.inj h
    rfl
  text _ _ := ⟨fun a => ⟨_, rfl, rfl⟩, fun _ _ => trivial⟩

instance : Lawful String where
  format := leaf .string Value.get (fun v => v.isString = true) (fun _ => rfl) (fun v => by
    cases v with
    | string s => exact ⟨fun _ => rfl, fun _ => ⟨s, rfl⟩⟩
    | null | boolean | unsigned | integer | float | array | object =>
        simp [Value.get, isString])
  write_eq _ := rfl
  get_eq _ := rfl
  init_writes := ⟨_, rfl⟩
  kept_null _ := trivial
  not_null a out h := by
    obtain rfl := Option.some.inj h
    rfl
  text _ h := by cases h

/-- A text of digits beyond 64 bits. -/
def Oversized (text : String) : Prop :=
  text.toList ≠ [] ∧ text.toList.all Char.isDigit = true ∧
    2 ^ 64 ≤ Nat.ofDigitChars 10 text.toList 0

/-- **A snowflake is read from its digits.** -/
theorem getSnowflake_repr (s : Snowflake) : getSnowflake (.string s.id.toNat.repr) = some s := by
  have hdigits : (Nat.toDigits 10 s.id.toNat).all Char.isDigit = true := by
    rw [List.all_eq_true]
    intro c hc
    exact Nat.isDigit_of_mem_toDigits (by decide) (by decide) hc
  have hne : (Nat.toDigits 10 s.id.toNat).isEmpty = false := by simp
  simp [getSnowflake, Nat.toList_repr, hdigits, hne, s.id.toNat_lt]

theorem exists_getSnowflake (v : Json) :
    (∃ s, getSnowflake v = some s) ↔ ∀ text, v = .string text → ¬ Oversized text := by
  cases v with
  | string text =>
      simp only [string.injEq, forall_eq', getSnowflake]
      by_cases hdigits : (!text.toList.isEmpty && text.toList.all Char.isDigit) = true
      · rw [if_pos hdigits]
        simp only [Bool.and_eq_true, Bool.not_eq_true', List.isEmpty_eq_false_iff] at hdigits
        by_cases hfits : Nat.ofDigitChars 10 text.toList 0 < 2 ^ 64
        · rw [if_pos hfits]
          exact ⟨fun _ h => absurd hfits (Nat.not_lt.mpr h.2.2), fun _ => ⟨_, rfl⟩⟩
        · rw [if_neg hfits]
          refine ⟨fun h => by simp at h, fun h => ?_⟩
          exact absurd ⟨hdigits.1, hdigits.2, Nat.not_lt.mp hfits⟩ h
      · rw [if_neg hdigits]
        refine ⟨fun _ h => hdigits ?_, fun _ => ⟨_, rfl⟩⟩
        simp [h.1, h.2.1]
  | null | boolean | unsigned | integer | float | array | object =>
      simp [getSnowflake]

instance : Lawful Snowflake where
  format := leaf (fun s => .string s.id.toNat.repr) Value.get
    (fun v => ∀ text, v = .string text → ¬ Oversized text) getSnowflake_repr exists_getSnowflake
  write_eq _ := rfl
  get_eq _ := rfl
  init_writes := ⟨_, rfl⟩
  kept_null _ := trivial
  not_null a out h := by
    obtain rfl := Option.some.inj h
    rfl
  text _ h := by cases h

instance [Value A] [Lawful A] : Lawful (List A) where
  format := (Lawful.format (A := A)).list
  write_eq as := by
    have hwrite : (Lawful.format (A := A)).write = Value.write := funext Lawful.write_eq
    show (as.mapM Lawful.format.write).map array = _
    rw [hwrite]
    rfl
  get_eq j := by
    have hget : (Lawful.format (A := A)).get = Value.get := funext Lawful.get_eq
    cases j with
    | array elements =>
        show elements.mapM Lawful.format.get = _
        rw [hget]
        rfl
    | null | boolean | unsigned | integer | float | string | object => rfl
  init_writes := ⟨_, rfl⟩
  kept_null _ elements h := by cases h
  not_null a out h := by
    obtain ⟨outs, -, rfl⟩ := Option.map_eq_some_iff.mp h
    rfl
  text _ h := by cases h

/-- A record is a type with laws. -/
abbrev Lawful.ofRecord [Value A] (rec : Record A) (hwrite : ∀ a, rec.toJson a = Value.write a)
    (hget : ∀ j, rec.fromJson j = Value.get j)
    (hinit : ∃ out, Value.write (Value.init : A) = some out)
    (htext : Value.ofText (A := A) = none) : Lawful A where
  format := rec.format
  write_eq := hwrite
  get_eq := hget
  init_writes := hinit
  kept_null := Record.kept_null
  not_null a out h := not_isNull_of_isObject (Record.isObject_toJson ((hwrite a).trans h))
  text _ h := by
    rw [htext] at h
    cases h

/-! ## Emoji -/

def emojiMembers : Members (Snowflake × String × Option Bool × Unit) :=
  .cons "id" member <| .cons "name" member <| .cons "animated" optionalMember .nil

theorem emoji_toJson (p : PartialEmoji) (j : Json) :
    p.toJson j = j.writeAll (emojiMembers.puts (p.id, p.name, p.animated, ())) := rfl

theorem emoji_fromJson (j : Json) :
    PartialEmoji.fromJson j = (emojiMembers.take j).map fun t => ⟨t.1, t.2.1, t.2.2.1⟩ := by
  simp only [emojiMembers, Members.map_take_cons, Members.map_take_nil]
  rfl

/-- An emoji is written into an object, and into nothing else. -/
theorem emoji_put_null (p : PartialEmoji) : p.toJson null = p.toJson (object []) := rfl

theorem emoji_put_none {v : Json} (p : PartialEmoji) (hnull : ¬ v.isNull = true)
    (hobject : ¬ v.isObject = true) : p.toJson v = none := by
  cases v with
  | null => exact absurd rfl hnull
  | object members => exact absurd rfl hobject
  | boolean | unsigned | integer | float | string | array => rfl

theorem option_rel_eq {o o' : Option A} (h : Option.Rel Eq o' o) : o' = o := by
  cases h with
  | some heq => rw [heq]
  | none => rfl

/-- **An emoji as an optional member.** -/
def emojiMember : Slot (Option PartialEmoji) where
  put := Member.put
  take := Member.take
  Built _ := True
  Agrees := Eq
  Kept v out := ∀ k w, k ∉ emojiMembers.keys → v.find? k = some w → out.find? k = some w
  Fit v := v.isNull = true ∨ (v.isObject = true ∧ emojiMembers.Fit v)
  kept_null _ _ _ _ h := by cases h
  restores o _ := by
    cases o with
    | none => exact ⟨none, rfl, none, rfl, rfl⟩
    | some p =>
        obtain ⟨out, hwrite, hread⟩ := emojiMembers.restores (p.id, p.name, p.animated, ())
          ⟨trivial, trivial, fun _ _ => trivial, trivial⟩ (object []) rfl fun _ _ => rfl
        obtain ⟨⟨id, name, animated, _⟩, htake, hid, hname, hanimated, -⟩ :=
          hread out fun _ _ => rfl
        obtain rfl : id = p.id := hid
        obtain rfl : name = p.name := hname
        obtain rfl : animated = p.animated := option_rel_eq hanimated
        have hnull : out.isNull = false := not_isNull_of_isObject (isObject_writeAll rfl hwrite)
        refine ⟨some out, ?_, some p, ?_, rfl⟩
        · show (p.toJson null).map some = _
          rw [emoji_put_null, emoji_toJson, hwrite, Option.map_some]
        · show (if out.isNull then some none else (PartialEmoji.fromJson out).map some) = _
          rw [if_neg (by simp [hnull]), emoji_fromJson, htake]
          rfl
  recodes v := by
    by_cases hnull : v.isNull = true
    · obtain rfl := isNull_eq_true hnull
      exact ⟨fun _ => .inl rfl, fun _ => ⟨none, none, rfl, rfl, fun k w _ h => by cases h⟩⟩
    have htake : Member.take (A := Option PartialEmoji) v =
        (emojiMembers.take v).map fun t => some ⟨t.1, t.2.1, t.2.2.1⟩ := by
      show (if v.isNull then some none else (PartialEmoji.fromJson v).map some) = _
      rw [if_neg hnull, emoji_fromJson, Option.map_map]
      rfl
    by_cases hobject : v.isObject = true
    · simp only [hnull, hobject, false_or, true_and, Bool.false_eq_true]
      rw [← emojiMembers.recodes v v hobject fun _ _ => rfl, htake]
      constructor
      · rintro ⟨o, w, hget, hput, -⟩
        obtain ⟨t, ht, rfl⟩ := Option.map_eq_some_iff.mp hget
        obtain ⟨out, hwrite, rfl⟩ := Option.map_eq_some_iff.mp hput
        exact ⟨t, out, ht, hwrite, trivial, trivial, trivial, trivial⟩
      · rintro ⟨t, out, ht, hwrite, -⟩
        refine ⟨some ⟨t.1, t.2.1, t.2.2.1⟩, some out, by rw [ht]; rfl, ?_, ?_⟩
        · show (PartialEmoji.toJson _ v).map some = _
          rw [emoji_toJson, hwrite, Option.map_some]
        · intro k w hk hw
          rw [Option.getD_some, find?_writeAll hwrite (by rwa [emojiMembers.puts_keys]), hw]
    · simp only [hnull, hobject, false_or, false_and, Bool.false_eq_true, iff_false]
      rintro ⟨o, w, hget, hput, -⟩
      rw [htake] at hget
      obtain ⟨t, ht, rfl⟩ := Option.map_eq_some_iff.mp hget
      obtain ⟨out, hwrite, -⟩ := Option.map_eq_some_iff.mp hput
      rw [emoji_put_none _ hnull hobject] at hwrite
      cases hwrite

end Ekizu.Components
