import Ekizu.Components.Records

/-!
# Choosing by the type

A `switch` over the number under `"type"`, as a list of the component types that it knows.

## Main results

* `ComponentType.ofCode_cases` — a number is that of one type or of none.
* `decode_eq` — what is decoded of a document is found by its type.
-/

namespace Ekizu.Components

open Lib Lib.Json

namespace ComponentType

theorem ofCode_code (t : ComponentType) : ofCode t.code = some t := by
  cases t <;> rfl

theorem code_injective {t t' : ComponentType} (h : t.code = t'.code) : t = t' := by
  have hof := ofCode_code t
  rw [h, ofCode_code] at hof
  exact (Option.some.inj hof).symm

/-- A number is that of one type or of none. -/
theorem ofCode_cases (n : UInt8) :
    (∃ t, ofCode n = some t ∧ n = t.code) ∨
      (ofCode n = none ∧ ∀ t : ComponentType, t.code ≠ n) := by
  cases hof : ofCode n with
  | some t => exact .inl ⟨t, rfl, (by simpa using List.find?_some hof : t.code = n).symm⟩
  | none =>
      refine .inr ⟨rfl, ?_⟩
      rintro t rfl
      rw [ofCode_code] at hof
      cases hof

end ComponentType

variable [FloatCast]

theorem typeOf_unsigned {j : Json} {n : UInt8} (h : j.find? "type" = some (.unsigned n.toUInt64)) :
    typeOf j = some n := by
  simp [typeOf, h, isNumber, toUnsigned]

/-- A component type with its record and its functions. -/
structure Codec (R : Type) where
  type : ComponentType
  record : Record R
  toJson : R → Option Json
  fromJson : Json → Option R
  header_eq : record.header = some ("type", type.json)
  toJson_eq : ∀ r, record.toJson r = toJson r
  fromJson_eq : ∀ j, record.fromJson j = fromJson j

/-- An alternative of a variant. -/
structure Choice (V : Type) (write : V → Option Json) where
  R : Type
  codec : Codec R
  inject : R → V
  write_inject : ∀ r, write (inject r) = codec.toJson r

section

variable {V : Type} {write : V → Option Json}

def Choice.alternative (c : Choice V write) : Alternative UInt8 V :=
  ⟨c.R, c.codec.type.code, c.codec.record, c.inject⟩

def types (choices : List (Choice V write)) : List ComponentType :=
  choices.map fun c => c.codec.type

/-- The choice of a type. -/
def choose (choices : List (Choice V write)) (t : ComponentType) : Option (Choice V write) :=
  choices.find? fun c => c.codec.type = t

/-- The records of a list of choices, by the number of the type. -/
def alternatives (choices : List (Choice V write)) (hnodup : (types choices).Nodup) :
    Alternatives UInt8 V where
  list := choices.map Choice.alternative
  kindOf := typeOf
  write := write
  write_inject alt halt r := by
    obtain ⟨c, -, rfl⟩ := List.mem_map.mp halt
    exact (c.write_inject r).trans (c.codec.toJson_eq r).symm
  nodup := by
    rw [List.map_map]
    refine List.pairwise_map.mpr ((List.pairwise_map.mp hnodup).imp ?_)
    intro c c' hne heq
    exact hne (ComponentType.code_injective heq)
  kindOf_header alt halt j _ hheader := by
    obtain ⟨c, -, rfl⟩ := List.mem_map.mp halt
    exact typeOf_unsigned (hheader _ c.codec.header_eq)

variable {choices : List (Choice V write)} (hnodup : (types choices).Nodup)

theorem find_code (t : ComponentType) :
    (alternatives choices hnodup).find t.code = (choose choices t).map Choice.alternative := by
  unfold Alternatives.find choose
  show (choices.map Choice.alternative).find? _ = _
  rw [List.find?_map]
  congr 2
  funext c
  have hcode : c.codec.type.code = t.code ↔ c.codec.type = t :=
    ⟨ComponentType.code_injective, fun h => by rw [h]⟩
  simp [Choice.alternative, hcode]

/-- A number of none of the types. -/
theorem find_of_unmodelled {n : UInt8} (h : ∀ t ∈ types choices, n ≠ t.code) :
    (alternatives choices hnodup).find n = none := by
  refine List.find?_eq_none.mpr ?_
  intro alt halt hkind
  obtain ⟨c, hc, rfl⟩ := List.mem_map.mp halt
  exact h _ (List.mem_map_of_mem hc) (of_decide_eq_true hkind).symm

theorem find_eq (n : UInt8) :
    (alternatives choices hnodup).find n =
      ((ComponentType.ofCode n).bind (choose choices)).map Choice.alternative := by
  rcases ComponentType.ofCode_cases n with ⟨t, hof, rfl⟩ | ⟨hof, hne⟩
  · rw [hof, find_code]
    rfl
  · rw [hof, find_of_unmodelled hnodup fun t _ heq => hne t heq.symm]
    rfl

/-- **A dispatcher decodes by the type**, with the functions of the components. -/
theorem decode_eq {d : Dispatch UInt8 V} (hd : d.toAlternatives = alternatives choices hnodup)
    (j : Json) :
    d.decode j =
      match typeOf j with
      | none => some d.typeless
      | some n =>
          match (ComponentType.ofCode n).bind (choose choices) with
          | some c => (c.codec.fromJson j).map c.inject
          | none =>
              match d.unknown with
              | some keep => some (keep n j)
              | none => some d.typeless := by
  unfold Dispatch.decode
  rw [hd]
  have hkind : (alternatives choices hnodup).kindOf j = typeOf j := rfl
  rw [hkind]
  cases typeOf j with
  | none => rfl
  | some n =>
      dsimp only
      rw [find_eq]
      cases (ComponentType.ofCode n).bind (choose choices) with
      | none => rw [Option.map_none]; cases d.unknown <;> rfl
      | some c =>
          show (c.codec.record.fromJson j).map c.inject = _
          rw [c.codec.fromJson_eq]

end

end Ekizu.Components
