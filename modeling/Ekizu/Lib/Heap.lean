import Mathlib.Order.Lattice
import Mathlib.Tactic.Common

/-!
# Binary heaps

Heaps in a vector, with the least key at the front: `pushHeap` and `popHeap` as the
standard library of C++ has them, with a hole that moves along the branches of the
heap.  To take the first element out, the hole goes down to a leaf along the lesser
children, and the last element goes up from there.

## Main results

* `Ordered.front_le` — the front of a heap is least.
* `Ordered.pushHeap`, `Ordered.popHeap` — what keeps the order.
* `pushHeap_perm`, `popHeap_perm` — the elements stay the same.
* `ordered_set_iff`, `ordered_eraseIdx_iff` — when a change in place keeps the order.
-/

namespace Ekizu.Lib.Heap

variable {A K : Type*} [LinearOrder K]

/-- The position above. -/
def parent (i : Nat) : Nat := (i - 1) / 2

theorem parent_lt {i : Nat} (hi : 0 < i) : parent i < i := by
  unfold parent
  omega

/-- No element has a lesser key than the one above it. -/
def Ordered (key : A → K) (v : List A) : Prop :=
  ∀ i a p, 0 < i → v[i]? = some a → v[parent i]? = some p → key p ≤ key a

/-- `std::__push_heap`: the hole goes up until the value fits. -/
def siftUp (key : A → K) (value : A) : Nat → List A → Nat → List A
  | 0, v, hole => v.set hole value
  | fuel + 1, v, hole =>
      if hole = 0 then v.set hole value
      else
        match v[parent hole]? with
        | none => v.set hole value
        | some p =>
            if key value < key p then siftUp key value fuel (v.set hole p) (parent hole)
            else v.set hole value

/-- `std::push_heap`, for a value that was put at the end. -/
def pushHeap (key : A → K) (v : List A) (value : A) : List A :=
  siftUp key value v.length (v ++ [value]) v.length

/-- The lesser of the children of a position; the second one where they are level. -/
def lesserChild (key : A → K) (v : List A) (hole : Nat) : Option (Nat × A) :=
  match v[2 * hole + 1]?, v[2 * hole + 2]? with
  | some l, some r => if key l < key r then some (2 * hole + 1, l) else some (2 * hole + 2, r)
  | some l, none => some (2 * hole + 1, l)
  | none, _ => none

/-- `std::__adjust_heap`: the hole goes down to a leaf, and the value goes up from there. -/
def adjustHeap (key : A → K) (value : A) : Nat → List A → Nat → List A
  | 0, v, hole => siftUp key value hole v hole
  | fuel + 1, v, hole =>
      match lesserChild key v hole with
      | none => siftUp key value hole v hole
      | some (c, a) => adjustHeap key value fuel (v.set hole a) c

/-- `std::pop_heap`: the first element goes to the end. -/
def popHeap (key : A → K) (v : List A) : List A :=
  match v, v.getLast? with
  | first :: _ :: _, some value =>
      adjustHeap key value v.length v.dropLast 0 ++ [first]
  | _, _ => v

variable {key : A → K} {v : List A} {hole : Nat} {value : A}

/-! ## Positions -/

theorem parent_eq_iff {c i : Nat} (hc : 0 < c) : parent c = i ↔ c = 2 * i + 1 ∨ c = 2 * i + 2 := by
  unfold parent
  omega

theorem exists_parent {i : Nat} {a : A} (hi : 0 < i) (ha : v[i]? = some a) :
    ∃ p, v[parent i]? = some p := by
  have hlt := (List.getElem?_eq_some_iff.mp ha).1
  have hup := parent_lt hi
  exact ⟨_, List.getElem?_eq_getElem (by omega)⟩

/-- **The front of a heap is least.** -/
theorem Ordered.front_le (h : Ordered key v) {first : A} (hfirst : v[0]? = some first) :
    ∀ a ∈ v, key first ≤ key a := by
  have hbelow : ∀ (i : Nat) (a : A), v[i]? = some a → key first ≤ key a := by
    intro i
    induction i using Nat.strongRecOn with
    | ind i ih =>
        intro a ha
        by_cases hi : i = 0
        · subst hi
          rw [hfirst] at ha
          obtain rfl := Option.some.inj ha
          exact le_refl _
        · have hpos := Nat.pos_of_ne_zero hi
          obtain ⟨p, hp⟩ := exists_parent hpos ha
          exact le_trans (ih (parent i) (parent_lt hpos) p hp) (h i a p hpos ha hp)
  intro a ha
  obtain ⟨i, hi⟩ := List.mem_iff_getElem?.mp ha
  exact hbelow i a hi

/-! ## The hole -/

/-- The order of a heap with a hole: pairs away from the hole are in order, and the
children of the hole fit under the element above it. -/
structure Holed (key : A → K) (v : List A) (hole : Nat) : Prop where
  apart : ∀ i a p, 0 < i → i ≠ hole → parent i ≠ hole → v[i]? = some a →
    v[parent i]? = some p → key p ≤ key a
  across : ∀ c a p, 0 < hole → 0 < c → parent c = hole → v[c]? = some a →
    v[parent hole]? = some p → key p ≤ key a

/-- The value fits over the children of the hole. -/
def FitsBelow (key : A → K) (v : List A) (hole : Nat) (value : A) : Prop :=
  ∀ c a, 0 < c → parent c = hole → v[c]? = some a → key value ≤ key a

theorem Ordered.holed (h : Ordered key v) (hole : Nat) : Holed key v hole := by
  refine ⟨fun i a p hi _ _ ha hp => h i a p hi ha hp, ?_⟩
  intro c a p hhole hc hparent ha hp
  obtain ⟨q, hq⟩ := exists_parent hc ha
  have hupper := h hole q p hhole (hparent ▸ hq) hp
  exact le_trans hupper (h c a q hc ha hq)

/-- The hole goes up: what was above it comes down. -/
theorem Holed.up {p : A} (h : Holed key v hole) (hhole : 0 < hole)
    (hp : v[parent hole]? = some p) (hlt : key value < key p) :
    Holed key (v.set hole p) (parent hole) ∧
      FitsBelow key (v.set hole p) (parent hole) value := by
  have hup := parent_lt hhole
  have hsiblings : ∀ c a, 0 < c → parent c = parent hole → c ≠ hole → v[c]? = some a →
      key p ≤ key a := by
    intro c a hc hparent hne ha
    exact h.apart c a p hc hne (by omega) ha (hparent ▸ hp)
  refine ⟨⟨?_, ?_⟩, ?_⟩
  · intro i a q hi hne hparent ha hq
    have hne' : hole ≠ i := fun heq => hparent (by rw [heq])
    rw [List.getElem?_set_ne hne'] at ha
    by_cases hunder : parent i = hole
    · rw [hunder, List.getElem?_set_self'] at hq
      obtain ⟨_, _, rfl⟩ := Option.map_eq_some_iff.mp hq
      exact h.across i a p hhole hi hunder ha hp
    · rw [List.getElem?_set_ne (Ne.symm hunder)] at hq
      exact h.apart i a q hi (Ne.symm hne') hunder ha hq
  · intro c a q hhole' hc hparent ha hq
    have hup' := parent_lt hhole'
    rw [List.getElem?_set_ne (by omega)] at hq
    have hover : key q ≤ key p := h.apart (parent hole) p q hhole' (by omega) (by omega) hp hq
    by_cases heq : c = hole
    · rw [heq, List.getElem?_set_self'] at ha
      obtain ⟨_, _, rfl⟩ := Option.map_eq_some_iff.mp ha
      exact hover
    · rw [List.getElem?_set_ne (Ne.symm heq)] at ha
      exact le_trans hover (hsiblings c a hc hparent heq ha)
  · intro c a hc hparent ha
    by_cases heq : c = hole
    · rw [heq, List.getElem?_set_self'] at ha
      obtain ⟨_, _, rfl⟩ := Option.map_eq_some_iff.mp ha
      exact le_of_lt hlt
    · rw [List.getElem?_set_ne (Ne.symm heq)] at ha
      exact le_trans (le_of_lt hlt) (hsiblings c a hc hparent heq ha)

/-- The value is put into the hole where it fits. -/
theorem Holed.fill (h : Holed key v hole) (hbelow : FitsBelow key v hole value)
    (habove : 0 < hole → ∀ p, v[parent hole]? = some p → key p ≤ key value) :
    Ordered key (v.set hole value) := by
  intro i a p hi ha hp
  have hup := parent_lt hi
  by_cases heq : i = hole
  · subst heq
    rw [List.getElem?_set_self'] at ha
    obtain ⟨_, _, rfl⟩ := Option.map_eq_some_iff.mp ha
    rw [List.getElem?_set_ne (by omega)] at hp
    exact habove hi p hp
  · rw [List.getElem?_set_ne (Ne.symm heq)] at ha
    by_cases hunder : parent i = hole
    · rw [hunder, List.getElem?_set_self'] at hp
      obtain ⟨_, _, rfl⟩ := Option.map_eq_some_iff.mp hp
      exact hbelow i a hi hunder ha
    · rw [List.getElem?_set_ne (Ne.symm hunder)] at hp
      exact h.apart i a p hi heq hunder ha hp

/-- **The hole goes up** until the value fits. -/
theorem Holed.siftUp {fuel : Nat} (h : Holed key v hole) (hbelow : FitsBelow key v hole value)
    (hhole : hole < v.length) (hfuel : hole ≤ fuel) :
    Ordered key (siftUp key value fuel v hole) := by
  induction fuel generalizing v hole with
  | zero =>
      refine h.fill hbelow fun hpos => ?_
      omega
  | succ fuel ih =>
      unfold Heap.siftUp
      by_cases hzero : hole = 0
      · rw [if_pos hzero]
        refine h.fill hbelow fun hpos => ?_
        omega
      · rw [if_neg hzero]
        have hpos := Nat.pos_of_ne_zero hzero
        have hup := parent_lt hpos
        obtain ⟨p, hp⟩ := exists_parent hpos (List.getElem?_eq_getElem hhole)
        simp only [hp]
        by_cases hlt : key value < key p
        · rw [if_pos hlt]
          obtain ⟨hnext, hbelow'⟩ := h.up hpos hp hlt
          refine ih hnext hbelow' ?_ (by omega)
          rw [List.length_set]
          omega
        · rw [if_neg hlt]
          refine h.fill hbelow fun _ q hq => ?_
          rw [hp] at hq
          obtain rfl := Option.some.inj hq
          exact le_of_not_gt hlt

/-! ## The way down -/

theorem lesserChild_none (h : lesserChild key v hole = none) :
    ∀ c a, 0 < c → parent c = hole → v[c]? ≠ some a := by
  intro c a hc hparent ha
  have hlt := (List.getElem?_eq_some_iff.mp ha).1
  have hleft : 2 * hole + 1 < v.length := by
    rcases (parent_eq_iff hc).mp hparent with rfl | rfl
    · exact hlt
    · omega
  unfold lesserChild at h
  rw [List.getElem?_eq_getElem hleft] at h
  cases hright : v[2 * hole + 2]? with
  | none => simp [hright] at h
  | some r =>
      simp only [hright] at h
      split at h
      · cases h
      · cases h

theorem lesserChild_some {c : Nat} {a : A} (h : lesserChild key v hole = some (c, a)) :
    0 < c ∧ parent c = hole ∧ v[c]? = some a ∧
      ∀ d b, 0 < d → parent d = hole → v[d]? = some b → key a ≤ key b := by
  have hleft : parent (2 * hole + 1) = hole := by
    unfold parent
    omega
  have hright : parent (2 * hole + 2) = hole := by
    unfold parent
    omega
  unfold lesserChild at h
  cases hl : v[2 * hole + 1]? with
  | none => simp [hl] at h
  | some l =>
      cases hr : v[2 * hole + 2]? with
      | none =>
          simp only [hl, hr] at h
          obtain ⟨rfl, rfl⟩ := Prod.mk.inj (Option.some.inj h)
          refine ⟨by omega, hleft, hl, ?_⟩
          intro d b hd hparent hb
          rcases (parent_eq_iff hd).mp hparent with rfl | rfl
          · rw [hl] at hb
            obtain rfl := Option.some.inj hb
            exact le_refl _
          · simp [hr] at hb
      | some r =>
          simp only [hl, hr] at h
          by_cases hlt : key l < key r
          · rw [if_pos hlt] at h
            obtain ⟨rfl, rfl⟩ := Prod.mk.inj (Option.some.inj h)
            refine ⟨by omega, hleft, hl, ?_⟩
            intro d b hd hparent hb
            rcases (parent_eq_iff hd).mp hparent with rfl | rfl
            · rw [hl] at hb
              obtain rfl := Option.some.inj hb
              exact le_refl _
            · rw [hr] at hb
              obtain rfl := Option.some.inj hb
              exact le_of_lt hlt
          · rw [if_neg hlt] at h
            obtain ⟨rfl, rfl⟩ := Prod.mk.inj (Option.some.inj h)
            refine ⟨by omega, hright, hr, ?_⟩
            intro d b hd hparent hb
            rcases (parent_eq_iff hd).mp hparent with rfl | rfl
            · rw [hl] at hb
              obtain rfl := Option.some.inj hb
              exact le_of_not_gt hlt
            · rw [hr] at hb
              obtain rfl := Option.some.inj hb
              exact le_refl _

/-- The hole goes down: its lesser child comes up. -/
theorem Holed.down {c : Nat} {a : A} (h : Holed key v hole)
    (hchild : lesserChild key v hole = some (c, a)) : Holed key (v.set hole a) c := by
  obtain ⟨hc, hparent, ha, hleast⟩ := lesserChild_some hchild
  have hup := parent_lt hc
  refine ⟨?_, ?_⟩
  · intro i b q hi hne hne' hb hq
    by_cases heq : i = hole
    · have hup' := parent_lt hi
      rw [heq, List.getElem?_set_self'] at hb
      obtain ⟨_, _, rfl⟩ := Option.map_eq_some_iff.mp hb
      rw [List.getElem?_set_ne (by omega), heq] at hq
      exact h.across c a q (heq ▸ hi) hc hparent ha hq
    · rw [List.getElem?_set_ne (Ne.symm heq)] at hb
      by_cases hunder : parent i = hole
      · rw [hunder, List.getElem?_set_self'] at hq
        obtain ⟨_, _, rfl⟩ := Option.map_eq_some_iff.mp hq
        exact hleast i b hi hunder hb
      · rw [List.getElem?_set_ne (Ne.symm hunder)] at hq
        exact h.apart i b q hi heq hunder hb hq
  · intro d b q _ hd hparent' hb hq
    have hup' := parent_lt hd
    rw [hparent, List.getElem?_set_self'] at hq
    obtain ⟨_, _, rfl⟩ := Option.map_eq_some_iff.mp hq
    rw [List.getElem?_set_ne (by omega)] at hb
    exact h.apart d b a hd (by omega) (by omega) hb (hparent' ▸ ha)

/-- **The hole goes down** to a leaf, and the value goes up from there. -/
theorem Holed.adjustHeap {fuel : Nat} (h : Holed key v hole) (hhole : hole < v.length)
    (hfuel : v.length ≤ hole + fuel) : Ordered key (adjustHeap key value fuel v hole) := by
  induction fuel generalizing v hole with
  | zero => omega
  | succ fuel ih =>
      unfold Heap.adjustHeap
      cases hchild : lesserChild key v hole with
      | none =>
          refine h.siftUp ?_ hhole (Nat.le_refl _)
          intro c a hc hparent ha
          exact absurd ha (lesserChild_none hchild c a hc hparent)
      | some x =>
          obtain ⟨c, a⟩ := x
          obtain ⟨hc, hparent, ha, -⟩ := lesserChild_some hchild
          have hlt := (List.getElem?_eq_some_iff.mp ha).1
          have hup := parent_lt hc
          refine ih (h.down hchild) ?_ ?_
          · rwa [List.length_set]
          · rw [List.length_set]
            omega

/-! ## The operations -/

/-- **A push keeps the order.** -/
theorem Ordered.pushHeap (h : Ordered key v) (value : A) : Ordered key (pushHeap key v value) := by
  have hlength : v.length < (v ++ [value]).length := by simp
  have hold : ∀ i a, i ≠ v.length → (v ++ [value])[i]? = some a → v[i]? = some a := by
    intro i a hne ha
    have hlt := (List.getElem?_eq_some_iff.mp ha).1
    rw [List.length_append, List.length_singleton] at hlt
    rwa [List.getElem?_append_left (by omega)] at ha
  have hleaf : ∀ c a, 0 < c → parent c = v.length → (v ++ [value])[c]? ≠ some a := by
    intro c a hc hparent ha
    have hlt := (List.getElem?_eq_some_iff.mp ha).1
    have hup := parent_lt hc
    rw [List.length_append, List.length_singleton] at hlt
    omega
  refine Holed.siftUp ⟨?_, ?_⟩ ?_ hlength (Nat.le_refl _)
  · intro i a p hi hne hne' ha hp
    exact h i a p hi (hold i a hne ha) (hold _ p hne' hp)
  · intro c a p _ hc hparent ha
    exact absurd ha (hleaf c a hc hparent)
  · intro c a hc hparent ha
    exact absurd ha (hleaf c a hc hparent)

theorem popHeap_concat (first : A) (middle : List A) (value : A) :
    popHeap key (first :: (middle ++ [value])) =
      adjustHeap key value (middle.length + 2) (first :: middle) 0 ++ [first] := by
  cases middle with
  | nil => rfl
  | cons a middle =>
      have hlast : (first :: (a :: middle ++ [value])).getLast? = some value := by
        rw [← List.cons_append, List.getLast?_concat]
      have hdrop : (first :: (a :: middle ++ [value])).dropLast = first :: a :: middle := by
        rw [← List.cons_append, List.dropLast_concat]
      have hlength : (first :: (a :: middle ++ [value])).length = (a :: middle).length + 2 := by
        simp
      unfold popHeap
      rw [hlast, hdrop, hlength]
      rfl

/-- A heap without its last element. -/
theorem Ordered.of_concat {value : A} (h : Ordered key (v ++ [value])) : Ordered key v := by
  intro i a p hi ha hp
  have hlt := (List.getElem?_eq_some_iff.mp ha).1
  have hup := parent_lt hi
  refine h i a p hi ?_ ?_
  · rwa [List.getElem?_append_left hlt]
  · rwa [List.getElem?_append_left (by omega)]

/-- **A pop keeps the order**, and moves the first element to the end. -/
theorem Ordered.popHeap {first : A} {rest : List A} (h : Ordered key (first :: rest)) :
    ∃ left, popHeap key (first :: rest) = left ++ [first] ∧ Ordered key left := by
  rcases List.eq_nil_or_concat rest with rfl | ⟨middle, value, rfl⟩
  · exact ⟨[], rfl, by intro i a p hi ha; simp at ha⟩
  · rw [List.concat_eq_append] at h ⊢
    refine ⟨_, popHeap_concat first middle value, ?_⟩
    have hbefore : Ordered key (first :: middle) := Ordered.of_concat h
    refine (hbefore.holed 0).adjustHeap ?_ ?_
    · simp
    · simp

/-! ## The elements -/

/-- Two elements change places, one of which comes from outside. -/
theorem set_set_swap_perm {i j : Nat} {b : A} (hi : i < v.length) (hj : v[j]? = some b)
    (hne : i ≠ j) (value : A) : ((v.set i b).set j value).Perm (v.set i value) := by
  have hj' := (List.getElem?_eq_some_iff.mp hj).1
  have hi'' : i < (v.set i value).length := by rwa [List.length_set]
  have hj'' : j < (v.set i value).length := by rwa [List.length_set]
  have hswap := List.set_set_perm hi'' hj''
  have hb : (v.set i value)[j] = b := by
    rw [List.getElem_set_ne hne]
    exact (List.getElem?_eq_some_iff.mp hj).2
  rwa [hb, List.getElem_set_self, List.set_set] at hswap

theorem siftUp_perm {fuel : Nat} (hhole : hole < v.length) :
    (siftUp key value fuel v hole).Perm (v.set hole value) := by
  induction fuel generalizing v hole with
  | zero => exact List.Perm.refl _
  | succ fuel ih =>
      unfold siftUp
      by_cases hzero : hole = 0
      · rw [if_pos hzero]
      · rw [if_neg hzero]
        have hpos := Nat.pos_of_ne_zero hzero
        have hup := parent_lt hpos
        obtain ⟨p, hp⟩ := exists_parent hpos (List.getElem?_eq_getElem hhole)
        simp only [hp]
        split
        · refine (ih ?_).trans (set_set_swap_perm hhole hp (by omega) value)
          rw [List.length_set]
          omega
        · exact List.Perm.refl _

theorem adjustHeap_perm {fuel : Nat} (hhole : hole < v.length) :
    (adjustHeap key value fuel v hole).Perm (v.set hole value) := by
  induction fuel generalizing v hole with
  | zero => exact siftUp_perm hhole
  | succ fuel ih =>
      unfold adjustHeap
      cases hchild : lesserChild key v hole with
      | none => exact siftUp_perm hhole
      | some x =>
          obtain ⟨c, a⟩ := x
          obtain ⟨hc, hparent, ha, -⟩ := lesserChild_some hchild
          have hlt := (List.getElem?_eq_some_iff.mp ha).1
          have hup := parent_lt hc
          refine (ih ?_).trans (set_set_swap_perm hhole ha (by omega) value)
          rwa [List.length_set]

/-- **A push adds its value.** -/
theorem pushHeap_perm (v : List A) (value : A) : (pushHeap key v value).Perm (v ++ [value]) := by
  refine (siftUp_perm (by simp)).trans ?_
  rw [List.set_append_right _ _ (Nat.le_refl _), Nat.sub_self]
  rfl

/-- **A pop keeps the elements**; the first one is at the end. -/
theorem popHeap_perm (key : A → K) (first : A) (rest : List A) :
    ∃ left, popHeap key (first :: rest) = left ++ [first] ∧ left.Perm rest := by
  rcases List.eq_nil_or_concat rest with rfl | ⟨middle, value, rfl⟩
  · exact ⟨[], rfl, List.Perm.nil⟩
  · rw [List.concat_eq_append]
    refine ⟨_, popHeap_concat first middle value, (adjustHeap_perm (by simp)).trans ?_⟩
    exact (List.perm_append_singleton value middle).symm

/-! ## Changes in place -/

/-- An element changes: the new one fits between what is above and what is below. -/
theorem ordered_set_iff (h : Ordered key v) {i : Nat} (hi : i < v.length) (a : A) :
    Ordered key (v.set i a) ↔
      (0 < i → ∀ p, v[parent i]? = some p → key p ≤ key a) ∧ FitsBelow key v i a := by
  constructor
  · intro hset
    refine ⟨?_, ?_⟩
    · intro hpos p hp
      have hup := parent_lt hpos
      refine hset i a p hpos (List.getElem?_set_self hi) ?_
      rwa [List.getElem?_set_ne (by omega)]
    · intro c b hc hparent hb
      have hup := parent_lt hc
      refine hset c b a hc ?_ ?_
      · rwa [List.getElem?_set_ne (by omega)]
      · rw [hparent]
        exact List.getElem?_set_self hi
  · rintro ⟨habove, hbelow⟩
    exact (h.holed i).fill hbelow habove

/-- What stands at a position when the element `i` is taken out. -/
def shifted (i j : Nat) : Nat := if j < i then j else j + 1

/-- The elements behind `i` fit under those that get above them when `i` is taken out. -/
def FitsErased (key : A → K) (v : List A) (i : Nat) : Prop :=
  ∀ j a p, 0 < j → i ≤ j → v[j + 1]? = some a → v[shifted i (parent j)]? = some p → key p ≤ key a

instance decidableFitsErased [DecidableLE K] (v : List A) (i : Nat) :
    Decidable (FitsErased key v i) :=
  decidable_of_iff
    (∀ j < v.length, 0 < j → i ≤ j → ∀ a ∈ v[j + 1]?, ∀ p ∈ v[shifted i (parent j)]?,
      key p ≤ key a)
    ⟨fun h j a p hpos hij ha hp =>
        h j (by have := (List.getElem?_eq_some_iff.mp ha).1; omega) hpos hij a ha p hp,
      fun h j _ hpos hij a ha p hp => h j a p hpos hij ha hp⟩

/-- An element is taken out, and those behind it move up. -/
theorem ordered_eraseIdx_iff (h : Ordered key v) (i : Nat) :
    Ordered key (v.eraseIdx i) ↔ FitsErased key v i := by
  have hget : ∀ j, (v.eraseIdx i)[j]? = v[shifted i j]? := by
    intro j
    rw [List.getElem?_eraseIdx, shifted]
    split <;> rfl
  constructor
  · intro herased j a p hpos hij ha hp
    refine herased j a p hpos ?_ ?_
    · rw [hget, shifted, if_neg (by omega)]
      exact ha
    · rw [hget]
      exact hp
  · intro hfits j a p hpos ha hp
    rw [hget] at ha hp
    have hup := parent_lt hpos
    by_cases hij : j < i
    · rw [shifted, if_pos hij] at ha
      rw [shifted, if_pos (by omega)] at hp
      exact h j a p hpos ha hp
    · rw [shifted, if_neg hij] at ha
      exact hfits j a p hpos (by omega) ha hp

end Ekizu.Lib.Heap
