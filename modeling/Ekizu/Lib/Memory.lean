import Mathlib.Tactic.Common

/-!
# Memory of a caller

Cells that hold a value or were freed, and stretches of them that are read as a whole.

## Main results

* `read_store_of_outside` — a store beside a stretch.
* `read_store_eq_iff` — a store leaves a stretch as it is exactly if the cell is beside it
  or keeps its value.
-/

namespace Ekizu.Lib

/-- What the cells hold; `none` where there is nothing. -/
def Memory (A : Type*) : Type _ := Nat → Option A

namespace Memory

variable {A : Type*}

def empty : Memory A := fun _ => none

/-- A cell is written, or freed. -/
def store (m : Memory A) (address : Nat) (value : Option A) : Memory A :=
  fun a => if a = address then value else m a

/-- The cells from an address on; `none` if one of them holds nothing. -/
def read (m : Memory A) (start : Nat) : Nat → Option (List A)
  | 0 => some []
  | n + 1 => do
      let a ← m start
      let rest ← m.read (start + 1) n
      return a :: rest

variable {m : Memory A} {address start n : Nat} {value : Option A}

theorem read_congr {m' : Memory A} (h : ∀ a, start ≤ a → a < start + n → m a = m' a) :
    m.read start n = m'.read start n := by
  induction n generalizing start with
  | zero => rfl
  | succ n ih =>
      have hfirst : m start = m' start := h start (Nat.le_refl _) (by omega)
      have hrest : m.read (start + 1) n = m'.read (start + 1) n :=
        ih fun a hlow hhigh => h a (by omega) (by omega)
      rw [read, read, hfirst, hrest]

/-- What is read determines the cells. -/
theorem eq_of_read {m' : Memory A} {values : List A} (h : m.read start n = some values)
    (h' : m'.read start n = some values) : ∀ a, start ≤ a → a < start + n → m a = m' a := by
  induction n generalizing start values with
  | zero =>
      intro a hlow hhigh
      omega
  | succ n ih =>
      obtain ⟨v, hv, rest, hrest, rfl⟩ : ∃ v, m start = some v ∧ ∃ rest,
          m.read (start + 1) n = some rest ∧ v :: rest = values := by
        simpa [read, Option.bind_eq_some_iff] using h
      obtain ⟨v', hv', rest', hrest', heq⟩ : ∃ v', m' start = some v' ∧ ∃ rest',
          m'.read (start + 1) n = some rest' ∧ v' :: rest' = v :: rest := by
        simpa [read, Option.bind_eq_some_iff] using h'
      obtain ⟨rfl, rfl⟩ := List.cons.inj heq
      intro a hlow hhigh
      by_cases ha : a = start
      · rw [ha, hv, hv']
      · exact ih hrest hrest' a (by omega) (by omega)

theorem read_store_of_outside (h : address < start ∨ start + n ≤ address) :
    (m.store address value).read start n = m.read start n := by
  apply read_congr
  intro a hlow hhigh
  have hne : a ≠ address := by omega
  rw [store, if_neg hne]

/-- **A store that a stretch does not show.** -/
theorem read_store_eq_iff {values : List A} (h : m.read start n = some values) :
    (m.store address value).read start n = some values ↔
      address < start ∨ start + n ≤ address ∨ m address = value := by
  constructor
  · intro hstored
    by_cases hinside : start ≤ address ∧ address < start + n
    · have hsame := eq_of_read h hstored address hinside.1 hinside.2
      rw [store, if_pos rfl] at hsame
      exact .inr (.inr hsame)
    · omega
  · rintro (hbefore | hbehind | hsame)
    · rw [read_store_of_outside (.inl hbefore), h]
    · rw [read_store_of_outside (.inr hbehind), h]
    · have hmemory : m.store address value = m := by
        funext a
        unfold store
        split
        · next heq => rw [heq, hsame]
        · rfl
      rw [hmemory, h]

end Memory

end Ekizu.Lib
