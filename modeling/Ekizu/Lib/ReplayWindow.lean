import Mathlib.Tactic.Common
import Mathlib.Data.List.Nodup

/-!
# Replay windows

A window remembers the newest number it has recorded and a bounded list of the
smaller ones that are still missing.  It admits what is newer than everything
recorded and what is on the list, and nothing else.

## Main results

* `Tracks.record` — recording an admitted number keeps the window faithful to
  the history of recorded numbers; in particular no number is recorded twice.
* `Spent.record`, `spent_record_self` — a recorded number stays refused.
* `Tracks.mem_record_of_lt`, `mem_record_of_le` — which numbers are missing after
  one was recorded.
* `Exactly.record`, `Exactly.admits_iff` — the numbers that are admitted, told by
  the recorded ones.
-/

namespace Ekizu.Lib.ReplayWindow

/-- The newest recorded number and the smaller ones that are still admitted. -/
structure Window where
  newest : Option Nat := none
  missing : List Nat := []

namespace Window

/-- The number has not been recorded as far as the window can tell. -/
def admits (w : Window) (x : Nat) : Bool :=
  match w.newest with
  | none => true
  | some newest => decide (newest < x) || w.missing.contains x

/-- Record `x`.  Numbers skipped over become missing; at most `capacity`
numbers below the newest one are kept. -/
def record (capacity : Nat) (w : Window) (x : Nat) : Window :=
  match w.newest with
  | none => { w with newest := some x }
  | some newest =>
      if newest < x then
        let oldest := x - capacity
        let start := max oldest (newest + 1)
        { newest := some x
          missing := w.missing.dropWhile (fun m => decide (m < oldest)) ++
            List.range' start (x - start) }
      else { w with missing := w.missing.erase x }

/-- What the window knows about the numbers recorded so far. -/
structure Tracks (capacity : Nat) (w : Window) (recorded : List Nat) : Prop where
  missing_sorted : w.missing.Pairwise (· < ·)
  missing_lt : ∀ n, w.newest = some n → ∀ m ∈ w.missing, m < n
  missing_not_recorded : ∀ m ∈ w.missing, m ∉ recorded
  missing_length : w.missing.length ≤ capacity
  recorded_le : ∀ n, w.newest = some n → ∀ r ∈ recorded, r ≤ n
  fresh : w.newest = none → w.missing = [] ∧ recorded = []
  nodup : recorded.Nodup

/-- The number is refused, now and after anything else is recorded. -/
def Spent (w : Window) (x : Nat) : Prop :=
  ∃ n, w.newest = some n ∧ x ≤ n ∧ x ∉ w.missing

variable {capacity x y : Nat} {w : Window} {recorded : List Nat}

theorem tracks_empty (capacity : Nat) : Tracks capacity {} [] :=
  ⟨.nil, by simp, by simp, Nat.zero_le _, by simp, fun _ => ⟨rfl, rfl⟩, .nil⟩

theorem admits_eq_false_iff : w.admits x = false ↔ w.Spent x := by
  unfold admits Spent
  cases hn : w.newest with
  | none => simp
  | some n => simp

theorem admits_of_mem (h : x ∈ w.missing) : w.admits x = true := by
  unfold admits
  cases w.newest with
  | none => rfl
  | some n => simp [h]

/-! ## Sorted lists -/

private theorem length_le_of_sorted {l : List Nat} {a b : Nat} (hsorted : l.Pairwise (· < ·))
    (hrange : ∀ m ∈ l, a ≤ m ∧ m < b) : l.length ≤ b - a := by
  induction l generalizing a with
  | nil => exact Nat.zero_le _
  | cons m l ih =>
      obtain ⟨hhead, htail⟩ := List.pairwise_cons.mp hsorted
      have hm := hrange m (by simp)
      have hlen := ih (a := m + 1) htail
        (fun k hk => ⟨hhead k hk, (hrange k (by simp [hk])).2⟩)
      simp only [List.length_cons]
      omega

private theorem le_of_mem_dropWhile {l : List Nat} {c : Nat} (hsorted : l.Pairwise (· < ·)) :
    ∀ m ∈ l.dropWhile (fun m => decide (m < c)), c ≤ m := by
  induction l with
  | nil => simp
  | cons k l ih =>
      obtain ⟨hhead, htail⟩ := List.pairwise_cons.mp hsorted
      intro m hm
      by_cases hk : k < c
      · rw [List.dropWhile_cons_of_pos (by simpa using hk)] at hm
        exact ih htail m hm
      · rw [List.dropWhile_cons_of_neg (by simpa using hk)] at hm
        rcases List.mem_cons.mp hm with rfl | hm
        · omega
        · have := hhead m hm
          omega

/-! ## Recording -/

/-- The missing list after recording a number beyond the newest one. -/
private theorem mem_missing_advance {n oldest m : Nat} (hnx : n < x)
    (hm : m ∈ w.missing.dropWhile (fun m => decide (m < oldest)) ++
      List.range' (max oldest (n + 1)) (x - max oldest (n + 1))) :
    m ∈ w.missing ∨ n < m ∧ m < x ∧ oldest ≤ m := by
  rcases List.mem_append.mp hm with hold | hnew
  · exact .inl ((List.dropWhile_sublist _).mem hold)
  · rw [List.mem_range'_1] at hnew
    exact .inr ⟨by omega, by omega, by omega⟩

/-- A number beyond the newest one: those in between are missing now. -/
private theorem Tracks.advance (h : w.Tracks capacity recorded) {n : Nat}
    (hn : w.newest = some n) (hnx : n < x) :
    Tracks capacity ⟨some x, w.missing.dropWhile (fun m => decide (m < x - capacity)) ++
      List.range' (max (x - capacity) (n + 1)) (x - max (x - capacity) (n + 1))⟩
        (x :: recorded) := by
  have hlt := h.missing_lt n hn
  have hle := h.recorded_le n hn
  have hsub := List.dropWhile_sublist (l := w.missing) (fun m => decide (m < x - capacity))
  have hsorted : (w.missing.dropWhile (fun m => decide (m < x - capacity)) ++
      List.range' (max (x - capacity) (n + 1))
        (x - max (x - capacity) (n + 1))).Pairwise (· < ·) := by
    rw [List.pairwise_append]
    refine ⟨h.missing_sorted.sublist hsub, List.pairwise_lt_range', ?_⟩
    intro a ha b hb
    have hab := hlt a (hsub.mem ha)
    rw [List.mem_range'_1] at hb
    omega
  refine ⟨hsorted, ?_, ?_, ?_, ?_, by simp, ?_⟩
  · rintro k ⟨⟩ m hm
    rcases mem_missing_advance hnx hm with hm | hm
    · exact Nat.lt_trans (hlt m hm) hnx
    · exact hm.2.1
  · intro m hm
    rw [List.mem_cons, not_or]
    rcases mem_missing_advance hnx hm with hm | hm
    · have := hlt m hm
      exact ⟨by omega, h.missing_not_recorded m hm⟩
    · refine ⟨by omega, fun hmem => ?_⟩
      have := hle m hmem
      omega
  · -- all of them lie in the last `capacity` numbers
    have hbound := length_le_of_sorted (a := x - capacity) (b := x) hsorted
      (fun m hm => by
        rcases List.mem_append.mp hm with hold | hnew
        · have := hlt m (hsub.mem hold)
          exact ⟨le_of_mem_dropWhile h.missing_sorted m hold, by omega⟩
        · rw [List.mem_range'_1] at hnew
          exact ⟨by omega, by omega⟩)
    simp only
    omega
  · rintro k ⟨⟩ r hr
    rcases List.mem_cons.mp hr with rfl | hr
    · exact Nat.le_refl _
    · have := hle r hr
      omega
  · refine List.nodup_cons.mpr ⟨fun hmem => ?_, h.nodup⟩
    have := hle x hmem
    omega

/-- A missing number: it is not missing any more. -/
private theorem Tracks.fill (h : w.Tracks capacity recorded) {n : Nat} (hn : w.newest = some n)
    (hxn : ¬ n < x) (hmem : x ∈ w.missing) :
    Tracks capacity ⟨some n, w.missing.erase x⟩ (x :: recorded) := by
  have hsub := List.erase_sublist (a := x) (l := w.missing)
  refine ⟨h.missing_sorted.sublist hsub, ?_, ?_, ?_, ?_, by simp, ?_⟩
  · rintro k ⟨⟩ m hm
    exact h.missing_lt n hn m (hsub.mem hm)
  · intro m hm
    rw [List.mem_cons, not_or]
    refine ⟨fun hmx => ?_, h.missing_not_recorded m (hsub.mem hm)⟩
    have hnodup : w.missing.Nodup := h.missing_sorted.imp Nat.ne_of_lt
    exact hnodup.not_mem_erase (hmx ▸ hm)
  · exact Nat.le_trans hsub.length_le h.missing_length
  · rintro k ⟨⟩ r hr
    rcases List.mem_cons.mp hr with rfl | hr
    · omega
    · exact h.recorded_le n hn r hr
  · exact List.nodup_cons.mpr ⟨h.missing_not_recorded x hmem, h.nodup⟩

/-- **Recording an admitted number.** -/
theorem Tracks.record (h : w.Tracks capacity recorded) (hadmitted : w.admits x = true) :
    (w.record capacity x).Tracks capacity (x :: recorded) := by
  cases hn : w.newest with
  | none =>
      obtain ⟨hmissing, hrecorded⟩ := h.fresh hn
      simp only [Window.record, hn, hmissing, hrecorded]
      exact ⟨.nil, by simp, by simp, Nat.zero_le _, by simp, by simp, by simp⟩
  | some n =>
      simp only [Window.record, hn]
      split
      · next hnx => exact h.advance hn hnx
      · next hxn =>
          have hmem : x ∈ w.missing := by simpa [admits, hn, hxn] using hadmitted
          exact h.fill hn hxn hmem

/-- A number that is not smaller survives the trimming. -/
private theorem mem_dropWhile_of_le {l : List Nat} {c m : Nat} (hm : m ∈ l) (hle : c ≤ m) :
    m ∈ l.dropWhile (fun m => decide (m < c)) := by
  induction l with
  | nil => exact absurd hm List.not_mem_nil
  | cons k l ih =>
      by_cases hk : k < c
      · rw [List.dropWhile_cons_of_pos (by simpa using hk)]
        rcases List.mem_cons.mp hm with rfl | hm
        · exact absurd hle (Nat.not_le_of_lt hk)
        · exact ih hm
      · rw [List.dropWhile_cons_of_neg (by simpa using hk)]
        exact hm

theorem newest_record (capacity : Nat) (w : Window) (x : Nat) :
    (w.record capacity x).newest = some (max x (w.newest.getD 0)) := by
  unfold Window.record
  cases w.newest with
  | none => simp
  | some n =>
      by_cases hnx : n < x
      · simp [hnx, Nat.max_eq_left (Nat.le_of_lt hnx)]
      · simp [hnx, Nat.max_eq_right (Nat.le_of_not_lt hnx)]

/-- What is missing once a number beyond the newest one is recorded. -/
theorem Tracks.mem_record_of_lt (h : w.Tracks capacity recorded) {n m : Nat}
    (hn : w.newest = some n) (hnx : n < x) :
    m ∈ (w.record capacity x).missing ↔
      x - capacity ≤ m ∧ (m ∈ w.missing ∨ n < m ∧ m < x) := by
  simp only [Window.record, hn, if_pos hnx, List.mem_append, List.mem_range'_1]
  constructor
  · intro hm
    rcases hm with hm | hm
    · exact ⟨le_of_mem_dropWhile h.missing_sorted m hm,
        .inl ((List.dropWhile_sublist _).mem hm)⟩
    · exact ⟨by omega, .inr ⟨by omega, by omega⟩⟩
  · intro hm
    rcases hm with ⟨hle, hm | hm⟩
    · exact .inl (mem_dropWhile_of_le hm hle)
    · exact .inr ⟨by omega, by omega⟩

/-- What is missing once a missing number is recorded. -/
theorem Tracks.mem_record_of_le (h : w.Tracks capacity recorded) {n m : Nat}
    (hn : w.newest = some n) (hxn : x ≤ n) :
    m ∈ (w.record capacity x).missing ↔ m ∈ w.missing ∧ m ≠ x := by
  have hnodup : w.missing.Nodup := h.missing_sorted.imp Nat.ne_of_lt
  simp only [Window.record, hn, if_neg (Nat.not_lt_of_le hxn), hnodup.mem_erase_iff]
  exact and_comm

/-- What was recorded is refused from then on. -/
theorem Spent.record (h : w.Spent x) (y : Nat) : (w.record capacity y).Spent x := by
  obtain ⟨n, hn, hle, hmem⟩ := h
  simp only [Window.record, hn]
  split
  · next hny =>
      refine ⟨y, rfl, by omega, fun hx => ?_⟩
      rcases mem_missing_advance hny hx with hx | hx
      · exact hmem hx
      · omega
  · exact ⟨n, rfl, hle, fun hx => hmem (List.mem_of_mem_erase hx)⟩

/-- Recording an admitted number spends it. -/
theorem Tracks.spent_record_self (h : w.Tracks capacity recorded)
    (hadmitted : w.admits x = true) : (w.record capacity x).Spent x := by
  have htracks := h.record hadmitted
  cases hn : (w.record capacity x).newest with
  | none => exact absurd (htracks.fresh hn).2 (by simp)
  | some n =>
      refine ⟨n, hn, htracks.recorded_le n hn x (by simp), fun hmem => ?_⟩
      exact htracks.missing_not_recorded x hmem (by simp)

/-! ## What is admitted -/

/-- A number is inside the window that some recorded ones have left, the last one
recorded in front: it is new, lies behind the first one that was recorded, and not
too far below any. -/
structure Inside (capacity : Nat) (recorded : List Nat) (x : Nat) : Prop where
  new : x ∉ recorded
  behind : ∀ first ∈ recorded.getLast?, first < x
  near : ∀ r ∈ recorded, r ≤ x + capacity

/-- The window knows which numbers were skipped since the first one. -/
structure Exactly (capacity : Nat) (w : Window) (recorded : List Nat) : Prop where
  tracks : Tracks capacity w recorded
  newest_mem : ∀ n, w.newest = some n → n ∈ recorded
  mem_missing : ∀ n, w.newest = some n → ∀ first ∈ recorded.getLast?, ∀ m,
    m ∈ w.missing ↔ first < m ∧ m < n ∧ n ≤ m + capacity ∧ m ∉ recorded

theorem exactly_empty (capacity : Nat) : Exactly capacity {} [] :=
  ⟨tracks_empty capacity, by simp, by simp⟩

/-- **Which numbers are admitted.** -/
theorem Exactly.admits_iff (h : w.Exactly capacity recorded) :
    w.admits x = true ↔ Inside capacity recorded x := by
  cases hn : w.newest with
  | none =>
      obtain ⟨-, rfl⟩ := h.tracks.fresh hn
      simp only [admits, hn]
      exact ⟨fun _ => ⟨by simp, by simp, by simp⟩, fun _ => trivial⟩
  | some n =>
      have hmem := h.newest_mem n hn
      have hle := h.tracks.recorded_le n hn
      obtain ⟨first, hfirst⟩ : ∃ first, recorded.getLast? = some first :=
        ⟨_, List.getLast?_eq_some_getLast (List.ne_nil_of_mem hmem)⟩
      have hmissing := h.mem_missing n hn first hfirst x
      have hfirstLe := hle first (List.mem_of_getLast? hfirst)
      simp only [admits, hn, Bool.or_eq_true, decide_eq_true_eq, List.contains_iff_mem]
      constructor
      · intro hadmits
        cases hadmits with
        | inl hnewer =>
            refine ⟨fun hold => ?_, fun f hf => ?_, fun r hr => ?_⟩
            · have := hle x hold
              omega
            · obtain rfl := Option.some.inj (hfirst.symm.trans hf)
              omega
            · have := hle r hr
              omega
        | inr hskipped =>
            obtain ⟨hbehind, -, hnear, hnew⟩ := hmissing.mp hskipped
            refine ⟨hnew, fun f hf => ?_, fun r hr => ?_⟩
            · obtain rfl := Option.some.inj (hfirst.symm.trans hf)
              exact hbehind
            · have := hle r hr
              omega
      · intro hinside
        by_cases hnewer : n < x
        · exact .inl hnewer
        · have hne : x ≠ n := fun hsame => hinside.new (hsame ▸ hmem)
          exact .inr (hmissing.mpr ⟨hinside.behind first hfirst, by omega,
            hinside.near n hmem, hinside.new⟩)

/-- **Recording an admitted number.** -/
theorem Exactly.record (h : w.Exactly capacity recorded) (hadmitted : w.admits x = true) :
    (w.record capacity x).Exactly capacity (x :: recorded) := by
  have htracks := h.tracks.record hadmitted
  cases hn : w.newest with
  | none =>
      obtain ⟨hmissing, rfl⟩ := h.tracks.fresh hn
      simp only [Window.record, hn, hmissing] at htracks ⊢
      refine ⟨htracks, by simp, ?_⟩
      intro n hn' first hfirst m
      obtain rfl := Option.some.inj hn'
      obtain rfl : x = first := by simpa using hfirst
      simp only [List.not_mem_nil, List.mem_singleton, false_iff]
      omega
  | some n =>
      have hmem := h.newest_mem n hn
      have hinside := h.admits_iff.mp hadmitted
      have hlast : (x :: recorded).getLast? = recorded.getLast? := by
        cases recorded with
        | nil => exact absurd hmem List.not_mem_nil
        | cons r recorded => exact List.getLast?_cons_cons
      refine ⟨htracks, ?_, ?_⟩
      · intro n' hn'
        have hmax := newest_record capacity w x
        rw [hn', hn, Option.getD_some, Option.some.injEq] at hmax
        by_cases hnx : n < x
        · simp [hmax, Nat.max_eq_left (Nat.le_of_lt hnx)]
        · rw [hmax, Nat.max_eq_right (Nat.le_of_not_lt hnx)]
          exact List.mem_cons_of_mem x hmem
      · intro n' hn' first hfirst m
        rw [hlast] at hfirst
        have hold := h.mem_missing n hn first hfirst m
        have hbehind := hinside.behind first hfirst
        have hmax := newest_record capacity w x
        rw [hn', hn, Option.getD_some, Option.some.injEq] at hmax
        by_cases hnx : n < x
        · rw [Nat.max_eq_left (Nat.le_of_lt hnx)] at hmax
          subst hmax
          rw [h.tracks.mem_record_of_lt hn hnx, hold]
          have hfirstLe := h.tracks.recorded_le n hn first (List.mem_of_getLast? hfirst)
          constructor
          · intro hm
            rcases hm with ⟨hnear, ⟨hlow, hhigh, -, hnew⟩ | ⟨hlow, hhigh⟩⟩
            · exact ⟨hlow, by omega, by omega, by simp [hnew]; omega⟩
            · refine ⟨by omega, hhigh, by omega, ?_⟩
              intro hm
              rcases List.mem_cons.mp hm with rfl | hm
              · omega
              · have := h.tracks.recorded_le n hn m hm
                omega
          · intro hm
            obtain ⟨hlow, hhigh, hnear, hnew⟩ := hm
            rw [List.mem_cons, not_or] at hnew
            refine ⟨by omega, ?_⟩
            by_cases hmn : n < m
            · exact .inr ⟨hmn, hhigh⟩
            · have hne : m ≠ n := fun hsame => hnew.2 (hsame ▸ hmem)
              exact .inl ⟨hlow, by omega, by omega, hnew.2⟩
        · rw [Nat.max_eq_right (Nat.le_of_not_lt hnx)] at hmax
          subst hmax
          rw [h.tracks.mem_record_of_le hn (Nat.le_of_not_lt hnx), hold, List.mem_cons, not_or]
          constructor
          · rintro ⟨⟨hlow, hhigh, hnear, hnew⟩, hne⟩
            exact ⟨hlow, hhigh, hnear, hne, hnew⟩
          · rintro ⟨hlow, hhigh, hnear, hne, hnew⟩
            exact ⟨⟨hlow, hhigh, hnear, hnew⟩, hne⟩

end Window

end Ekizu.Lib.ReplayWindow
