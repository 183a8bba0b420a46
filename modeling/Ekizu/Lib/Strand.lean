import Ekizu.Lib.Custody

/-!
# Strands

A strand runs what is dispatched to it, one thing at a time.  What is dispatched
from elsewhere waits for its turn behind what waits already; what is dispatched
from the strand itself runs at once.

## Main results

* `InTurn.submit`, `InTurn.inline`, `InTurn.take` — what keeps `InTurn`.
* `InTurn.nodup`, `InTurn.inOrder` — each is taken once, and those that waited are
  taken in the order of their numbers.
-/

namespace Ekizu.Lib.Strand

open Custody

/-- What a strand took, in that order; `true` stands for one that waited. -/
def takenIds (arrived : List (Bool × Nat)) : List Nat := arrived.map (·.2)

/-- Those of them that waited. -/
def waitedIds (arrived : List (Bool × Nat)) : List Nat := (arrived.filter (·.1)).map (·.2)

@[simp] theorem takenIds_nil : takenIds [] = [] := rfl

@[simp] theorem waitedIds_nil : waitedIds [] = [] := rfl

@[simp] theorem takenIds_append (arrived more : List (Bool × Nat)) :
    takenIds (arrived ++ more) = takenIds arrived ++ takenIds more := by
  simp [takenIds]

@[simp] theorem takenIds_singleton (waited : Bool) (id : Nat) :
    takenIds [(waited, id)] = [id] := rfl

@[simp] theorem waitedIds_append (arrived more : List (Bool × Nat)) :
    waitedIds (arrived ++ more) = waitedIds arrived ++ waitedIds more := by
  simp [waitedIds]

@[simp] theorem waitedIds_true (id : Nat) : waitedIds [(true, id)] = [id] := rfl

@[simp] theorem waitedIds_false (id : Nat) : waitedIds [(false, id)] = [] := rfl

/-- Everything below `issued` was taken or waits, once; those that waited and those
that wait stand in the order of their numbers. -/
structure InTurn (issued : Nat) (arrived : List (Bool × Nat)) (waiting : List Nat) : Prop where
  taken : Holds issued (takenIds arrived ++ waiting)
  waited : (waitedIds arrived ++ waiting).Pairwise (· < ·)

variable {issued id : Nat} {arrived : List (Bool × Nat)} {waiting : List Nat}

theorem InTurn.start : InTurn 0 [] [] := ⟨Holds.start, List.Pairwise.nil⟩

/-- What waited or waits was issued. -/
theorem InTurn.lt (h : InTurn issued arrived waiting) {n : Nat}
    (hn : n ∈ waitedIds arrived ++ waiting) : n < issued := by
  apply h.taken.mem_iff.mp
  rcases List.mem_append.mp hn with hwaited | hwaiting
  · exact List.mem_append_left _ ((List.filter_sublist.map _).subset hwaited)
  · exact List.mem_append_right _ hwaiting

/-- The next one joins those that wait. -/
theorem InTurn.submit (h : InTurn issued arrived waiting) :
    InTurn (issued + 1) arrived (waiting ++ [issued]) := by
  refine ⟨h.taken.issue ?_, ?_⟩
  · intro n
    simp [List.count_cons, eq_comm (a := n)]
    omega
  · rw [← List.append_assoc]
    exact pairwise_snoc h.waited fun n hn => h.lt hn

/-- The next one is taken at once. -/
theorem InTurn.inline (h : InTurn issued arrived waiting) :
    InTurn (issued + 1) (arrived ++ [(false, issued)]) waiting := by
  refine ⟨h.taken.issue ?_, by simpa using h.waited⟩
  intro n
  simp [List.count_cons, eq_comm (a := n)]
  omega

/-- The first of those that wait is taken. -/
theorem InTurn.take (h : InTurn issued arrived (id :: waiting)) :
    InTurn issued (arrived ++ [(true, id)]) waiting := by
  refine ⟨by simpa using h.taken, ?_⟩
  simpa using h.waited

theorem InTurn.nodup (h : InTurn issued arrived waiting) : (takenIds arrived).Nodup :=
  h.taken.nodup.sublist (List.sublist_append_left _ _)

/-- **Those that waited are taken in order.** -/
theorem InTurn.inOrder (h : InTurn issued arrived waiting) :
    (waitedIds arrived).Pairwise (· < ·) :=
  h.waited.sublist (List.sublist_append_left _ _)

end Ekizu.Lib.Strand
