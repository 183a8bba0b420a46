import Ekizu.Components.Destinations
import Ekizu.Gateway.Decoders

/-!
# The shapes of decoded types

The `Shape` of a type says of `json_util::deserialize` whether it returns, a `Decodable` and
a `Member` what it leaves in the variable as well.  The shape is right for a decoder when
values of that shape are those that `get` returns from.

## Main results

* `HasShape.deserialize_iff` — `deserialize` of a member returns exactly if a member of the
  shape is read.
* `HasShape.boolean`, `HasShape.string`, `HasShape.vector`, `HasShape.ofInt`,
  `HasShape.enumeration`, `HasShape.mapOf`, `HasShape.ofValue` — the shapes of the decoders.
* `ReadsFields.member`, `Shaped.record` — the shapes of structures.
-/

namespace Ekizu.Gateway

open Components Lib

variable {A : Type} {undefined : Rat → UInt64}

/-- `get` returns exactly from the values of that shape. -/
def Decodes (undefined : Rat → UInt64) (get : Json → Option A) (s : Shape) : Prop :=
  ∀ j, (get j).isSome = true ↔ reads undefined j s = true

/-- The branch of `deserialize_impl` that a type takes returns from the values of that
shape. -/
inductive HasShape (undefined : Rat → UInt64) : Decodable A → Shape → Prop
  | integral {get : Json → Option A} {ofText : String → Option A} {s : Shape}
      (kind : s.isIntegral = true) (decodes : Decodes undefined get s) :
      HasShape undefined (.integral get ofText) s
  | other {get : Json → Option A} {s : Shape} (kind : s.isIntegral = false)
      (decodes : Decodes undefined get s) : HasShape undefined (.other get) s
  | unorderedMap {ofObject : List (String × Json) → Option A} {s : Shape}
      (kind : s.isIntegral = false)
      (object : ∀ members, (ofObject members).isSome = true ↔
        reads undefined (.object members) s = true)
      (others : ∀ j, j.isObject = false → reads undefined j s = true) :
      HasShape undefined (.unorderedMap ofObject) s

/-! ## Members -/

theorem ofGet_ne_threw {got : Option A} :
    Components.Outcome.ofGet got ≠ .threw ↔ got.isSome = true := by
  cases got <;> simp [Components.Outcome.ofGet]

theorem deserializeInt_ne_threw (ofText : String → Option A) (text : String) (dest : Destination) :
    Decodable.deserializeInt ofText text dest ≠ .threw := by
  unfold Decodable.deserializeInt
  cases dest with
  | plain => cases ofText text <;> simp
  | optional => simp

/-- **A value is decoded** without an exception exactly if its shape allows it. -/
theorem HasShape.deserializeImpl_iff {T : Decodable A} {s : Shape} (h : HasShape undefined T s)
    (dest : Destination) (j : Json) :
    T.deserializeImpl dest j ≠ .threw ↔ takes undefined j s = true := by
  unfold Decodable.deserializeImpl takes
  by_cases hnull : j.isNull = true
  · rw [if_pos hnull, hnull]
    simp
  · rw [if_neg hnull, Bool.eq_false_iff.mpr hnull, Bool.false_or]
    cases h with
    | integral kind decodes =>
        cases j with
        | string text =>
            exact iff_of_true (deserializeInt_ne_threw _ text dest) (by simp [kind, Json.isString])
        | null | boolean | unsigned | integer | float | array | object =>
            simp only [Json.isString, Bool.and_false, Bool.false_or]
            exact ofGet_ne_threw.trans (decodes _)
    | other kind decodes =>
        rw [kind, Bool.false_and, Bool.false_or]
        exact ofGet_ne_threw.trans (decodes j)
    | unorderedMap kind object others =>
        rw [kind, Bool.false_and, Bool.false_or]
        cases j with
        | object members => exact ofGet_ne_threw.trans (object members)
        | null | boolean | unsigned | integer | float | string | array =>
            exact iff_of_true (by simp) (others _ rfl)

/-- **A member is deserialized** without an exception exactly if a member of the shape is
read. -/
theorem HasShape.deserialize_iff {T : Decodable A} {s : Shape} (h : HasShape undefined T s)
    (dest : Destination) (members : List (String × Json)) (key : String) :
    (T.deserialize dest (.object members) key).2 ≠ .threw ↔
      (readsMembers undefined members).deserialize key s = true := by
  rw [deserialize_eq_takes]
  by_cases hnull : ((Json.object members).get key).isNull = true
  · rw [Decodable.deserialize_of_isNull hnull]
    exact iff_of_true (by simp) (by simp [takes, hnull])
  · rw [Decodable.deserialize_of_not_isNull (Bool.eq_false_iff.mpr hnull)]
    exact h.deserializeImpl_iff dest _

/-! ## Types -/

theorem decodes_boolean : Decodes undefined (Value.get : Json → Option Bool) .boolean := by
  intro j
  cases j <;> simp [Value.get, reads, readsScalar, Json.isBoolean]

theorem decodes_string : Decodes undefined (Value.get : Json → Option String) .string := by
  intro j
  cases j <;> simp [Value.get, reads, readsScalar, Json.isString]

/-- The text of a snowflake is read by its digits. -/
theorem isSome_getSnowflake (text : String) :
    (getSnowflake (.string text)).isSome = snowflakeFits text := by
  have hvalue : Nat.ofDigitChars 10 text.toList 0 =
      text.toList.foldl (fun n c => 10 * n + (c.toNat - 48)) 0 := rfl
  unfold getSnowflake snowflakeFits
  dsimp only
  rw [hvalue]
  cases text.toList.isEmpty <;> cases text.toList.all Char.isDigit <;>
    simp [apply_ite Option.isSome]

theorem decodes_snowflake : Decodes undefined getSnowflake .snowflake := by
  intro j
  cases j with
  | string text =>
      rw [isSome_getSnowflake]
      rfl
  | null | boolean | unsigned | integer | float | array | object =>
      simp [getSnowflake, reads, readsScalar]

theorem isSome_mapM {B C : Type} {f : B → Option C} {bs : List B} :
    (bs.mapM f).isSome = true ↔ ∀ b ∈ bs, (f b).isSome = true := by
  simp only [Option.isSome_iff_exists]
  exact exists_mapM_iff

theorem readsElements_eq (elements : List Json) :
    readsElements undefined elements = elements.map (reads undefined) := by
  induction elements with
  | nil => rfl
  | cons j elements ih => rw [readsElements, ih, List.map_cons]

theorem readsMembers_eq (members : List (String × Json)) :
    readsMembers undefined members =
      members.map fun member => (member.1, ⟨member.2, reads undefined member.2⟩) := by
  induction members with
  | nil => rfl
  | cons member members ih => rw [readsMembers, ih, List.map_cons]

/-- A vector is decoded element by element. -/
theorem Decodes.vector {get : Json → Option A} {s : Shape} (h : Decodes undefined get s)
    {ofArray : Json → Option (List A)}
    (harray : ∀ elements, ofArray (.array elements) = elements.mapM get)
    (hother : ∀ j, (∀ elements, j ≠ .array elements) → ofArray j = none) :
    Decodes undefined ofArray (.array s) := by
  intro j
  cases j with
  | array elements =>
      rw [harray, isSome_mapM]
      simp [reads, readsElements_eq, h _]
  | null | boolean | unsigned | integer | float | string | object =>
      rw [hother]
      · simp [reads, readsScalar]
      · rintro elements ⟨⟩

/-- The loop over the members of a map ends exactly if each key and each value is read. -/
theorem isSome_readMembers {K V : Type} [DecidableEq K] {key : String → Option K}
    {get : Json → Option V} (members : List (String × Json)) (map : List (K × V)) :
    (Decodable.readMembers key get map members).isSome = true ↔
      ∀ member ∈ members, (key member.1).isSome = true ∧ (get member.2).isSome = true := by
  induction members generalizing map with
  | nil => simp [Decodable.readMembers]
  | cons member members ih =>
      obtain ⟨k, v⟩ := member
      rw [Decodable.readMembers, List.forall_mem_cons]
      cases key k with
      | none => simp
      | some k =>
          cases get v with
          | none => simp
          | some v => simpa using ih _

theorem HasShape.boolean : HasShape undefined Decodable.boolean .boolean :=
  .integral rfl decodes_boolean

theorem HasShape.string : HasShape undefined Decodable.string .string := .other rfl decodes_string

theorem HasShape.vector {get : Json → Option A} {s : Shape} (h : Decodes undefined get s) :
    HasShape undefined (Decodable.vector get) (.array s) := by
  refine .other rfl (h.vector (fun _ => rfl) fun j hj => ?_)
  cases j with
  | array elements => exact absurd rfl (hj elements)
  | null | boolean | unsigned | integer | float | string | object => rfl

/-- A map is keyed by snowflakes. -/
theorem HasShape.mapOf {get : Json → Option A} {s : Shape} (h : Decodes undefined get s) :
    HasShape undefined (Decodable.mapOf (.other getSnowflake) ⟨0⟩ get) (.map s) := by
  refine .unorderedMap rfl (fun members => ?_) fun j hj => ?_
  · rw [isSome_readMembers]
    simp [reads, readsMembers_eq, isSome_getSnowflake, h _]
  · cases j with
    | object members => cases hj
    | null | boolean | unsigned | integer | float | string | array => rfl

section

variable [FloatCast]

/-- The shape of an integral type, by its width. -/
def intShape (t : IntType) : Shape := if t.width = .w64 then .wide else .narrow

omit [FloatCast] in
theorem isIntegral_intShape (t : IntType) : (intShape t).isIntegral = true := by
  unfold intShape
  split <;> rfl

theorem HasShape.ofInt (t : IntType) : HasShape undefined (Decodable.ofInt t) (intShape t) := by
  refine .integral (isIntegral_intShape t) fun j => ?_
  unfold intShape
  by_cases hwidth : t.width = .w64
  · rw [if_pos hwidth]
    cases j <;> simp [IntType.get, IntType.getNumber, hwidth, reads, readsScalar, Json.isNumber]
  · rw [if_neg hwidth]
    cases j <;>
      simp [IntType.get, IntType.getNumber, hwidth, reads, readsScalar, Json.isNumber,
        Json.isBoolean]

theorem HasShape.enumeration (t : IntType) :
    HasShape undefined (Decodable.enumeration t) .number := by
  refine .other rfl fun j => ?_
  cases j <;> simp [IntType.getNumber, reads, readsScalar, Json.isNumber]

/-! ## Members of structures -/

/-- A type of the members with its shape. -/
class Shaped (A : Type) [Value A] where
  shape : Shape
  decodes : Decodes FloatCast.undefined (Value.get : Json → Option A) shape
  integral : (Value.ofText (A := A)).isSome = shape.isIntegral

theorem HasShape.ofValue [Value A] [Shaped A] :
    HasShape FloatCast.undefined (Decodable.ofValue A) (Shaped.shape A) := by
  have hintegral := Shaped.integral (A := A)
  unfold Decodable.ofValue
  cases htext : Value.ofText (A := A) with
  | some ofText =>
      rw [htext] at hintegral
      exact .integral hintegral.symm Shaped.decodes
  | none =>
      rw [htext] at hintegral
      exact .other hintegral.symm Shaped.decodes

omit [FloatCast] in
theorem isSome_into {dest : A} {outcome : Components.Outcome A} :
    (outcome.into dest).isSome = true ↔ outcome ≠ .threw := by
  cases outcome <;> simp [Components.Outcome.into]

omit [FloatCast] in
theorem map_ne_threw {B : Type} {f : A → B} {outcome : Components.Outcome A} :
    outcome.map f ≠ .threw ↔ outcome ≠ .threw := by
  cases outcome <;> simp [Components.Outcome.map]

/-- A member with its shape: of the type, or an optional of it. -/
class ShapedMember (A : Type) [Components.Member A] where
  shape : Shape
  isSome_take : ∀ j, (Components.Member.take (A := A) j).isSome = true ↔
    takes FloatCast.undefined j shape = true

instance [Value A] [Shaped A] : ShapedMember A where
  shape := Shaped.shape A
  isSome_take j := by
    rw [take_eq_into, isSome_into]
    exact HasShape.ofValue.deserializeImpl_iff .plain j

instance [Value A] [Shaped A] : ShapedMember (Option A) where
  shape := Shaped.shape A
  isSome_take j := by
    rw [takeOptional_eq_into, isSome_into, map_ne_threw]
    exact HasShape.ofValue.deserializeImpl_iff .optional j

instance : Shaped Bool := ⟨.boolean, decodes_boolean, rfl⟩

instance : Shaped String := ⟨.string, decodes_string, rfl⟩

instance : Shaped Snowflake := ⟨.snowflake, decodes_snowflake, rfl⟩

theorem decodes_narrow {bits : Nat} {make : UInt64 → A} :
    Decodes undefined (fun j => (getNarrow bits j).map make) .narrow := by
  intro j
  cases j <;>
    simp [getNarrow, getNumber, reads, readsScalar, Json.isNumber, Json.isBoolean]

theorem decodes_number {bits : Nat} {make : UInt64 → A} :
    Decodes undefined (fun j => (getNumber bits j).map make) .number := by
  intro j
  cases j <;> simp [getNumber, reads, readsScalar, Json.isNumber]

theorem decodes_wide : Decodes undefined (getNumber 64) .wide := by
  intro j
  cases j <;> simp [getNumber, reads, readsScalar, Json.isNumber]

instance : Shaped UInt8 := ⟨.narrow, decodes_narrow, rfl⟩

instance : Shaped UInt16 := ⟨.narrow, decodes_narrow, rfl⟩

instance : Shaped UInt32 := ⟨.narrow, decodes_narrow, rfl⟩

instance : Shaped UInt64 := ⟨.wide, decodes_wide, rfl⟩

instance [Value A] [Shaped A] : Shaped (List A) where
  shape := .array (Shaped.shape A)
  decodes := Shaped.decodes.vector (fun _ => rfl) fun j hj => by
    cases j with
    | array elements => exact absurd rfl (hj elements)
    | null | boolean | unsigned | integer | float | string | object => rfl
  integral := rfl

/-! ## Structures -/

/-- What is made of a document is made exactly if its fields are read. -/
def ReadsFields (j : Json) (made : Option A) (fields : Fields) : Prop :=
  made.isSome = true ↔ ∀ field ∈ fields, takes FloatCast.undefined (j.get field.1) field.2 = true

namespace ReadsFields

variable {B : Type} {j : Json} {fields : Fields}

theorem done (a : A) : ReadsFields j (pure a) [] := by
  simp [ReadsFields]

/-- One part after the other. -/
theorem append {made : Option A} {rest : A → Option B} {others : Fields}
    (h : ReadsFields j made fields) (hrest : ∀ a, ReadsFields j (rest a) others) :
    ReadsFields j (made >>= rest) (fields ++ others) := by
  have hmade : made.isSome = true ↔ _ := h
  unfold ReadsFields
  rw [List.forall_mem_append, ← hmade]
  cases made with
  | none => simp
  | some a => simpa [ReadsFields] using hrest a

/-- A member whose value is read by a decoder of its own. -/
theorem single {get : Json → Option A} {key : String} {s : Shape}
    (h : ∀ value, (get value).isSome = true ↔ takes FloatCast.undefined value s = true) :
    ReadsFields j (get (j.get key)) [(key, s)] := by
  simp [ReadsFields, h]

/-- A member, or null, that a decoder of no integral type reads. -/
theorem decoded {get : Json → Option A} {key : String} {s : Shape} {rest : A → Option B}
    (kind : s.isIntegral = false) (hnull : reads FloatCast.undefined .null s = true)
    (h : Decodes FloatCast.undefined get s) (hrest : ∀ a, ReadsFields j (rest a) fields) :
    ReadsFields j (get (j.get key) >>= rest) ((key, s) :: fields) := by
  refine append (single fun value => (h value).trans ?_) hrest
  unfold takes
  rw [kind, Bool.false_and, Bool.or_false]
  cases value with
  | null => exact iff_of_true hnull rfl
  | boolean | unsigned | integer | float | string | array | object => simp [Json.isNull]

/-- **The next member.** -/
theorem member [Components.Member A] [ShapedMember A] {key : String} {rest : A → Option B}
    (hrest : ∀ a, ReadsFields j (rest a) fields) :
    ReadsFields j (deserialize j key >>= rest) ((key, ShapedMember.shape A) :: fields) :=
  append (single ShapedMember.isSome_take) hrest

end ReadsFields

/-- **A structure** whose fields are read one after the other. -/
@[reducible] def Shaped.record [Value A] (fields : Fields)
    (hreads : ∀ j, ReadsFields j (Value.get (A := A) j) fields)
    (htext : (Value.ofText (A := A)).isNone = true) : Shaped A where
  shape := .record fields
  decodes j := (hreads j).trans reads_record.symm
  integral := by
    rw [Option.isNone_iff_eq_none.mp htext]
    rfl

end

end Ekizu.Gateway
