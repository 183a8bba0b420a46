import Ekizu.Lib.JsonRecord

/-!
# Forgetting documents

A record keeps the document that it was decoded from, at every level.  A function that
forgets them reduces values that agree to one value, and what it leaves as it is has no
document yet: two values agree if they are equal without their documents.

## Main results

* `Forgets.cons`, `Record.forgets` — forgetting goes member by member.
* `Forgets.list` — and element by element.
-/

namespace Ekizu.Lib.Json

variable {A T R : Type}

/-- What agrees is equal once the documents are forgotten, and what has none is built. -/
structure Forgets (Agrees : A → A → Prop) (Built : A → Prop) (f : A → A) : Prop where
  agrees : ∀ {a' a}, Agrees a' a → f a' = f a
  built : ∀ {a}, f a = a → Built a

abbrev Slot.Forgets (m : Slot A) (f : A → A) : Prop := Json.Forgets m.Agrees m.Built f

abbrev Format.Forgets (format : Format A) (f : A → A) : Prop :=
  Json.Forgets format.Agrees format.Built f

namespace Forgets

theorem nil : Forgets Members.nil.Agrees Members.nil.Built id where
  agrees _ := rfl
  built _ := trivial

/-- **Forgetting goes member by member**, as `Members.cons` adds them. -/
theorem cons {Agrees : A → A → Prop} {Built : A → Prop} {Agrees' : T → T → Prop}
    {Built' : T → Prop} {f : A → A} {g : T → T} (h : Forgets Agrees Built f)
    (hs : Forgets Agrees' Built' g) :
    Forgets (fun t' t => Agrees t'.1 t.1 ∧ Agrees' t'.2 t.2)
      (fun t => Built t.1 ∧ Built' t.2) (Prod.map f g) where
  agrees hagrees := Prod.ext (h.agrees hagrees.1) (hs.agrees hagrees.2)
  built heq := ⟨h.built (congrArg Prod.fst heq), hs.built (congrArg Prod.snd heq)⟩

variable {Agrees : A → A → Prop} {Built : A → Prop} {f : A → A}

theorem map_eq {as' as : List A} (h : ∀ {a' a}, Agrees a' a → f a' = f a)
    (hagrees : List.Forall₂ Agrees as' as) : as'.map f = as.map f := by
  induction hagrees with
  | nil => rfl
  | cons hfirst _ ih => rw [List.map_cons, List.map_cons, h hfirst, ih]

theorem eq_of_map_eq {as : List A} (heq : as.map f = as) : ∀ a ∈ as, f a = a := by
  have hmap : as.map f = as.map id := by rw [heq, List.map_id]
  exact List.map_inj_left.mp hmap

/-- **A list without the documents** of its elements. -/
theorem list (h : Forgets Agrees Built f) :
    Forgets (List.Forall₂ Agrees) (fun as => ∀ a ∈ as, Built a) (List.map f) where
  agrees := map_eq h.agrees
  built heq a ha := h.built (eq_of_map_eq heq a ha)

end Forgets

/-- **A record without its document** has members without theirs. -/
theorem Record.forgets {rec : Record R} {g : rec.T → rec.T} {f : R → R}
    (h : Forgets rec.members.Agrees rec.members.Built g)
    (hf : ∀ r, f r = rec.make null (g (rec.fields r))) : rec.format.Forgets f where
  agrees {r' r} hagrees := by
    rw [hf, hf, h.agrees hagrees]
  built {r} heq := by
    rw [hf] at heq
    constructor
    · rw [← heq, rec.raw_make]
    · have hfields := congrArg rec.fields heq
      rw [rec.fields_make] at hfields
      exact h.built hfields

end Ekizu.Lib.Json
