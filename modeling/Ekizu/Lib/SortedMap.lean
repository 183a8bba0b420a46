import Mathlib.Data.Prod.Basic
import Mathlib.Tactic.Common

/-!
# Sorted ranges and sorted maps

The difference of two sorted ranges as one pass over both computes it
(`std::set_difference`), and maps that keep their entries in the order of the keys
(`std::map`).  The entries of a sorted map are sorted as pairs too, so the
difference of two maps can be taken entry by entry.

## Main results

* `mem_setDifference` — the pass computes the difference.
* `SortedMap.ext_find?` — a map is what is found in it.
* `SortedMap.find?_upsert` — what a write leaves.
* `SortedMap.mem_difference` — the entries of one map that another does not have.
-/

namespace Ekizu.Lib.SortedMap

/-! ## Differences of sorted ranges -/

section Ranges

variable {A : Type*} (r : A → A → Prop) [DecidableRel r]

/-- `std::set_difference`: both ranges are advanced in step. -/
def setDifference : List A → List A → List A
  | [], _ => []
  | a :: as, [] => a :: as
  | a :: as, b :: bs =>
      if r a b then a :: setDifference as (b :: bs)
      else if r b a then setDifference (a :: as) bs
      else setDifference as bs
termination_by as bs => as.length + bs.length

variable {r} [Std.Irrefl r] [IsTrans A r] {as bs : List A} {a b x : A}

omit [DecidableRel r] in
/-- What comes before the first element of a sorted range is not in it. -/
theorem not_mem_of_rel (hsorted : (b :: bs).Pairwise r) (h : r a b) : a ∉ b :: bs := by
  intro hmem
  rcases List.mem_cons.mp hmem with rfl | hmem
  · exact irrefl a h
  · exact irrefl a (trans_of r h (List.rel_of_pairwise_cons hsorted hmem))

variable [Std.Trichotomous r]

/-- **The difference of two sorted ranges.** -/
theorem mem_setDifference (has : as.Pairwise r) (hbs : bs.Pairwise r) :
    x ∈ setDifference r as bs ↔ x ∈ as ∧ x ∉ bs := by
  fun_induction setDifference r as bs with
  | case1 => simp
  | case2 => simp
  | case3 a as b bs hlt ih =>
      have hnot := not_mem_of_rel hbs hlt
      rw [List.mem_cons (b := a), List.mem_cons (b := a), ih has.of_cons hbs]
      constructor
      · rintro (rfl | ⟨hmem, hx⟩)
        · exact ⟨.inl rfl, hnot⟩
        · exact ⟨.inr hmem, hx⟩
      · rintro ⟨rfl | hmem, hx⟩
        · exact .inl rfl
        · exact .inr ⟨hmem, hx⟩
  | case4 a as b bs _ hlt ih =>
      have hnot := not_mem_of_rel has hlt
      rw [List.mem_cons (b := b), ih has hbs.of_cons, not_or]
      constructor
      · rintro ⟨hmem, hx⟩
        exact ⟨hmem, fun heq => hnot (heq ▸ hmem), hx⟩
      · rintro ⟨hmem, -, hx⟩
        exact ⟨hmem, hx⟩
  | case5 a as b bs hab hba ih =>
      obtain rfl : a = b := Std.Trichotomous.trichotomous a b hab hba
      have hnot : a ∉ as := fun hmem => irrefl a (List.rel_of_pairwise_cons has hmem)
      rw [ih has.of_cons hbs.of_cons, List.mem_cons, List.mem_cons, not_or]
      constructor
      · rintro ⟨hmem, hx⟩
        exact ⟨.inr hmem, fun heq => hnot (heq ▸ hmem), hx⟩
      · rintro ⟨hmem, hne, hx⟩
        exact ⟨hmem.resolve_left hne, hx⟩

omit [Std.Irrefl r] [IsTrans A r] [Std.Trichotomous r] in
theorem setDifference_sublist (as bs : List A) : (setDifference r as bs).Sublist as := by
  fun_induction setDifference r as bs with
  | case1 | case2 => exact List.Sublist.refl _
  | case3 a as b bs _ ih => exact ih.cons_cons a
  | case4 a as b bs _ _ ih => exact ih
  | case5 a as b bs _ _ ih => exact ih.trans (List.sublist_cons_self a as)

end Ranges

end Ekizu.Lib.SortedMap

/-! ## Maps -/

namespace Ekizu.Lib

/-- A map in the order of its keys. -/
structure SortedMap (K V : Type*) (r : K → K → Prop) where
  entries : List (K × V)
  sorted : entries.Pairwise fun e e' => r e.1 e'.1

namespace SortedMap

variable {K V : Type*} {r : K → K → Prop}

/-- The entries of a map in the order of pairs. -/
theorem pairwise_lex {ltV : V → V → Prop} (m : SortedMap K V r) :
    m.entries.Pairwise (Prod.Lex r ltV) :=
  m.sorted.imp fun h => Prod.lex_def.mpr (.inl h)

variable [DecidableEq K]

instance : EmptyCollection (SortedMap K V r) := ⟨⟨[], .nil⟩⟩

/-- `map::find`. -/
def find? (m : SortedMap K V r) (key : K) : Option V := m.entries.lookup key

theorem lookup_cons (key : K) (e : K × V) (entries : List (K × V)) :
    (e :: entries).lookup key = if key = e.1 then some e.2 else entries.lookup key := by
  obtain ⟨k, v⟩ := e
  by_cases h : key = k
  · subst h
    simp
  · have hother : (key == k) = false := by simpa using h
    rw [List.lookup_cons, hother, if_neg h]

theorem mem_iff_lookup [Std.Irrefl r] {entries : List (K × V)}
    (hsorted : entries.Pairwise fun e e' => r e.1 e'.1) {key : K} {value : V} :
    (key, value) ∈ entries ↔ entries.lookup key = some value := by
  induction entries with
  | nil => simp
  | cons e entries ih =>
      obtain ⟨k, v⟩ := e
      obtain ⟨hfirst, hrest⟩ := List.pairwise_cons.mp hsorted
      rw [lookup_cons, List.mem_cons, ih hrest, Prod.mk.injEq]
      by_cases hkey : key = k
      · subst hkey
        have hnot : (key, value) ∉ entries := fun hmem => irrefl key (hfirst _ hmem)
        rw [ih hrest] at hnot
        simp [hnot, eq_comm]
      · simp [hkey]

theorem mem_entries [Std.Irrefl r] (m : SortedMap K V r) {key : K} {value : V} :
    (key, value) ∈ m.entries ↔ m.find? key = some value := mem_iff_lookup m.sorted

/-- A map is what is found in it. -/
theorem ext_find? [Std.Irrefl r] [IsTrans K r] {m m' : SortedMap K V r}
    (h : ∀ k, m.find? k = m'.find? k) : m = m' := by
  have hnodup : ∀ m : SortedMap K V r, m.entries.Nodup := by
    intro m
    refine m.sorted.imp ?_
    intro e e' hr heq
    rw [heq] at hr
    exact irrefl _ hr
  have hperm : m.entries.Perm m'.entries := by
    rw [List.perm_ext_iff_of_nodup (hnodup m) (hnodup m')]
    rintro ⟨key, value⟩
    rw [mem_entries, mem_entries, h]
  have hentries : m.entries = m'.entries := by
    refine hperm.eq_of_pairwise ?_ m.sorted m'.sorted
    intro e e' _ _ hlt hgt
    exact absurd (trans_of r hlt hgt) (irrefl _)
  cases m
  cases m'
  obtain rfl := hentries
  rfl

@[simp] theorem find?_empty (key : K) : (∅ : SortedMap K V r).find? key = none := rfl

variable [DecidableRel r]

/-- The value under a key is written over, or a new entry takes its place in the
order. -/
def upsertEntries (key : K) (value : Option V → V) : List (K × V) → List (K × V)
  | [] => [(key, value none)]
  | (k, v) :: entries =>
      if r key k then (key, value none) :: (k, v) :: entries
      else if r k key then (k, v) :: upsertEntries key value entries
      else (k, value (some v)) :: entries

omit [DecidableEq K] in
theorem mem_upsertEntries {key : K} {value : Option V → V} {entries : List (K × V)} {e : K × V}
    (h : e ∈ upsertEntries (r := r) key value entries) :
    e.1 = key ∨ ∃ e' ∈ entries, e.1 = e'.1 := by
  induction entries with
  | nil => exact .inl (congrArg Prod.fst (List.mem_singleton.mp h))
  | cons first entries ih =>
      unfold upsertEntries at h
      split at h
      · rcases List.mem_cons.mp h with rfl | h
        · exact .inl rfl
        · exact .inr ⟨e, h, rfl⟩
      · split at h
        · rcases List.mem_cons.mp h with rfl | h
          · exact .inr ⟨first, List.mem_cons_self, rfl⟩
          · rcases ih h with heq | ⟨e', he', heq⟩
            · exact .inl heq
            · exact .inr ⟨e', List.mem_cons_of_mem _ he', heq⟩
        · rcases List.mem_cons.mp h with rfl | h
          · exact .inr ⟨first, List.mem_cons_self, rfl⟩
          · exact .inr ⟨e, List.mem_cons_of_mem _ h, rfl⟩

omit [DecidableEq K] in
theorem pairwise_upsertEntries [IsTrans K r] (key : K) (value : Option V → V)
    {entries : List (K × V)} (hsorted : entries.Pairwise fun e e' => r e.1 e'.1) :
    (upsertEntries (r := r) key value entries).Pairwise fun e e' => r e.1 e'.1 := by
  induction entries with
  | nil => exact List.pairwise_singleton _ _
  | cons first entries ih =>
      obtain ⟨hfirst, hrest⟩ := List.pairwise_cons.mp hsorted
      unfold upsertEntries
      split
      · next hlt =>
          refine List.pairwise_cons.mpr ⟨?_, hsorted⟩
          intro e he
          rcases List.mem_cons.mp he with rfl | he
          · exact hlt
          · exact trans_of r hlt (hfirst e he)
      · split
        · next hlt =>
            refine List.pairwise_cons.mpr ⟨?_, ih hrest⟩
            intro e he
            rcases mem_upsertEntries he with heq | ⟨e', he', heq⟩
            · rw [heq]
              exact hlt
            · rw [heq]
              exact hfirst e' he'
        · exact List.pairwise_cons.mpr ⟨hfirst, hrest⟩

section Writes

variable [Std.Irrefl r] [IsTrans K r] [Std.Trichotomous r]

theorem lookup_upsertEntries (key : K) (value : Option V → V) {entries : List (K × V)}
    (hsorted : entries.Pairwise fun e e' => r e.1 e'.1) (k : K) :
    (upsertEntries (r := r) key value entries).lookup k =
      if k = key then some (value (entries.lookup key)) else entries.lookup k := by
  induction entries with
  | nil => rw [upsertEntries, lookup_cons, List.lookup_nil, List.lookup_nil]
  | cons first entries ih =>
      obtain ⟨hfirst, hrest⟩ := List.pairwise_cons.mp hsorted
      unfold upsertEntries
      split
      · next hlt =>
          -- the key is new: all keys that there are come after it
          have hnone : (first :: entries).lookup key = none := by
            rw [List.lookup_eq_none_iff]
            intro e he
            simp only [bne_iff_ne, ne_eq]
            rintro rfl
            rcases List.mem_cons.mp he with rfl | he
            · exact irrefl _ hlt
            · exact irrefl _ (trans_of r hlt (hfirst e he))
          rw [lookup_cons, hnone]
      · split
        · next hlt =>
            have hne : key ≠ first.1 := by
              rintro rfl
              exact irrefl _ hlt
            rw [lookup_cons, ih hrest, lookup_cons key, if_neg hne, lookup_cons k]
            by_cases h : k = key
            · subst h
              rw [if_neg hne, if_pos rfl, if_pos rfl]
            · rw [if_neg h, if_neg h]
        · next hge hle =>
            obtain rfl : key = first.1 := Std.Trichotomous.trichotomous _ _ hge hle
            rw [lookup_cons, lookup_cons first.1, if_pos rfl, lookup_cons k]
            by_cases h : k = first.1
            · rw [if_pos h, if_pos h]
            · rw [if_neg h, if_neg h, if_neg h]

/-- Write a value, which may depend on the one there was. -/
def upsert (m : SortedMap K V r) (key : K) (value : Option V → V) : SortedMap K V r :=
  ⟨upsertEntries (r := r) key value m.entries, pairwise_upsertEntries key value m.sorted⟩

/-- `map::insert_or_assign`, and an assignment to `map[key]`. -/
def assign (m : SortedMap K V r) (key : K) (value : V) : SortedMap K V r :=
  m.upsert key fun _ => value

/-- `map::insert` and `map::try_emplace`: what there is stays. -/
def tryEmplace (m : SortedMap K V r) (key : K) (value : V) : SortedMap K V r :=
  m.upsert key fun old => old.getD value

/-- **What a write leaves.** -/
theorem find?_upsert (m : SortedMap K V r) (key : K) (value : Option V → V) (k : K) :
    (m.upsert key value).find? k = if k = key then some (value (m.find? key)) else m.find? k :=
  lookup_upsertEntries key value m.sorted k

theorem find?_assign (m : SortedMap K V r) (key : K) (value : V) (k : K) :
    (m.assign key value).find? k = if k = key then some value else m.find? k :=
  m.find?_upsert key _ k

theorem find?_tryEmplace (m : SortedMap K V r) (key : K) (value : V) (k : K) :
    (m.tryEmplace key value).find? k =
      if k = key then some ((m.find? key).getD value) else m.find? k :=
  m.find?_upsert key _ k

/-- Insert one entry after the other, as through a `std::inserter`. -/
def insertAll (m : SortedMap K V r) (entries : List (K × V)) : SortedMap K V r :=
  entries.foldl (fun m e => m.tryEmplace e.1 e.2) m

/-- What was there stays; of several new entries under one key the first one counts. -/
theorem find?_insertAll (m : SortedMap K V r) (entries : List (K × V)) (k : K) :
    (m.insertAll entries).find? k = (m.find? k).or (entries.lookup k) := by
  induction entries generalizing m with
  | nil => exact Option.or_none.symm
  | cons e entries ih =>
      show ((m.tryEmplace e.1 e.2).insertAll entries).find? k = _
      rw [ih, find?_tryEmplace, lookup_cons]
      by_cases h : k = e.1
      · subst h
        rw [if_pos rfl, if_pos rfl]
        cases m.find? e.1 <;> rfl
      · rw [if_neg h, if_neg h]

/-- What was written to an empty map. -/
theorem insertAll_entries (m : SortedMap K V r) : insertAll ∅ m.entries = m := by
  apply ext_find?
  intro k
  rw [find?_insertAll, find?_empty, Option.none_or]
  rfl

end Writes

/-! ## Differences -/

section Differences

variable {ltV : V → V → Prop} [DecidableRel ltV] [Std.Irrefl r] [IsTrans K r]
  [Std.Trichotomous r] [Std.Irrefl ltV] [IsTrans V ltV] [Std.Trichotomous ltV]

/-- `std::set_difference` of two maps, whose entries are compared as pairs. -/
def difference (ltV : V → V → Prop) [DecidableRel ltV] (m m' : SortedMap K V r) : List (K × V) :=
  setDifference (Prod.Lex r ltV) m.entries m'.entries

/-- **The entries that another map does not have.** -/
theorem mem_difference (m m' : SortedMap K V r) {key : K} {value : V} :
    (key, value) ∈ difference ltV m m' ↔ m.find? key = some value ∧ m'.find? key ≠ some value := by
  rw [difference, mem_setDifference m.pairwise_lex m'.pairwise_lex, mem_entries, mem_entries]

theorem lookup_difference (m m' : SortedMap K V r) [DecidableEq V] (key : K) :
    (difference ltV m m').lookup key =
      (m.find? key).filter fun value => m'.find? key ≠ some value := by
  have hsorted : (difference ltV m m').Pairwise fun e e' => r e.1 e'.1 :=
    m.sorted.sublist (setDifference_sublist _ _)
  apply Option.ext
  intro value
  rw [← mem_iff_lookup hsorted, mem_difference, Option.filter_eq_some_iff]
  simp

end Differences

end SortedMap

end Ekizu.Lib
