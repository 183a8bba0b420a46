import Mathlib.Data.List.Nodup
import Mathlib.Data.List.Perm.Basic
import Mathlib.Tactic.Common

/-!
# Custody

Things that are numbered in the order they are issued, and lists of those that
stand in some place.  `Holds` says that everything issued stands in one place
and nothing stands in two; a move from one place to another keeps it.

## Main results

* `Holds.issue`, `Holds.move` — what keeps it.
* `Holds.nodup`, `Holds.mem_iff` — nothing stands twice, and what is issued
  stands somewhere.
* `Holds.once`, `Holds.settled` — what is issued stands once in two places, and in
  one where the other is empty.
* `pairwise_snoc` — the next one joins a line.
* `eq_singleton_of_getElem?`, `count_eraseIdx` — what is found in a place and taken
  out of it.
-/

namespace Ekizu.Lib.Custody

/-- Everything below `issued` is held once, and nothing else is. -/
def Holds (issued : Nat) (held : List Nat) : Prop :=
  ∀ n, held.count n = if n < issued then 1 else 0

variable {issued : Nat} {held held' : List Nat}

theorem Holds.start : Holds 0 [] := by
  intro n
  simp

/-- One more is issued. -/
theorem Holds.issue (h : Holds issued held)
    (hadded : ∀ n, held'.count n = held.count n + if n = issued then 1 else 0) :
    Holds (issued + 1) held' := by
  intro n
  rw [hadded, h]
  by_cases hlt : n < issued
  · rw [if_pos hlt, if_neg (by omega), if_pos (by omega)]
  · by_cases heq : n = issued
    · rw [if_neg hlt, if_pos heq, if_pos (by omega)]
    · rw [if_neg hlt, if_neg heq, if_neg (by omega)]

/-- Things move from one place to another. -/
theorem Holds.move (h : Holds issued held) (hsame : ∀ n, held'.count n = held.count n) :
    Holds issued held' := by
  intro n
  rw [hsame, h]

theorem Holds.mem_iff (h : Holds issued held) {n : Nat} : n ∈ held ↔ n < issued := by
  rw [← List.count_pos_iff, h]
  by_cases hlt : n < issued
  · simp [hlt]
  · simp [hlt]

theorem Holds.nodup (h : Holds issued held) : held.Nodup := by
  rw [List.nodup_iff_count_le_one]
  intro n
  rw [h]
  split
  · exact Nat.le_refl 1
  · exact Nat.zero_le 1

/-- What was issued stands once in two places taken together. -/
theorem Holds.once {place others : List Nat} (h : Holds issued (others ++ place)) {n : Nat}
    (hn : n < issued) : place.count n + others.count n = 1 := by
  have hcount := h n
  rw [List.count_append, if_pos hn] at hcount
  omega

/-- What was issued stands in the place that is left. -/
theorem Holds.settled {place others : List Nat} (h : Holds issued (others ++ place))
    (hothers : others = []) {n : Nat} (hn : n < issued) : place.count n = 1 := by
  have hone := h.once hn
  rwa [hothers, List.count_nil, Nat.add_zero] at hone

/-- What is issued next comes after all that stands in line. -/
theorem pairwise_snoc {line : List Nat} (h : line.Pairwise (· < ·))
    (hlt : ∀ n ∈ line, n < issued) : (line ++ [issued]).Pairwise (· < ·) := by
  rw [List.pairwise_append]
  refine ⟨h, List.pairwise_singleton _ _, ?_⟩
  intro n hn new hnew
  rw [List.mem_singleton.mp hnew]
  exact hlt n hn

/-- What is found in a place for one thing is all that stands there. -/
theorem eq_singleton_of_getElem? {α : Type*} {place : List α} {i : Nat} {a : α}
    (hsingle : place.length ≤ 1) (ha : place[i]? = some a) :
    place = [a] ∧ place.eraseIdx i = [] := by
  cases place with
  | nil => simp at ha
  | cons b rest =>
      have hrest : rest = [] := List.eq_nil_of_length_eq_zero (by simpa using hsingle)
      subst hrest
      cases i with
      | zero => exact ⟨by simpa using ha, rfl⟩
      | succ i => simp at ha

/-- What is taken out of a place stands there once less. -/
theorem count_eraseIdx {α : Type*} (number : α → Nat) {place : List α} {i : Nat} {a : α}
    (ha : place[i]? = some a) (n : Nat) :
    (place.map number).count n =
      ((place.eraseIdx i).map number).count n + if number a = n then 1 else 0 := by
  obtain ⟨hi, hget⟩ := List.getElem?_eq_some_iff.mp ha
  have hperm := (List.getElem_cons_eraseIdx_perm hi).map number
  rw [← hperm.count_eq, List.map_cons, List.count_cons, hget]
  simp only [beq_iff_eq]

end Ekizu.Lib.Custody
