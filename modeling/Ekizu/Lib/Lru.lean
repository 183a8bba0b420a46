import Mathlib.Data.List.Nodup
import Mathlib.Tactic.Common

/-!
# Least recently used

A map of bounded size that keeps its entries in the order of their last use.  It
forgets the entry that was not used for the longest time.

## Main results

* `LruMap.put`, `LruMap.get`, `LruMap.remove` — the operations; keys stay distinct
  and the size stays in its bound.
* `Recent.use`, `Recent.without`, `Recent.trim` — the entries are in the order of
  their last use.
-/

namespace Ekizu.Lib.Lru

variable {K V : Type*}

/-- The last entry is dropped where there are too many. -/
def trim (capacity : Nat) (entries : List (K × V)) : List (K × V) :=
  if capacity < entries.length then entries.dropLast else entries

def keys (entries : List (K × V)) : List K := entries.map (·.1)

theorem trim_sublist (capacity : Nat) (entries : List (K × V)) :
    (trim capacity entries).Sublist entries := by
  unfold trim
  split
  · exact List.dropLast_sublist entries
  · exact List.Sublist.refl entries

theorem length_trim_le {capacity : Nat} {entries : List (K × V)}
    (h : entries.length ≤ capacity + 1) : (trim capacity entries).length ≤ capacity := by
  unfold trim
  split
  · rw [List.length_dropLast]
    omega
  · omega

variable [DecidableEq K]

/-- The entries of other keys. -/
def without (k : K) (entries : List (K × V)) : List (K × V) :=
  entries.filter fun e => e.1 ≠ k

theorem keys_without_sublist (k : K) (entries : List (K × V)) :
    (keys (without k entries)).Sublist (keys entries) :=
  List.filter_sublist.map _

theorem not_mem_keys_without (k : K) (entries : List (K × V)) : k ∉ keys (without k entries) := by
  intro hk
  obtain ⟨e, he, rfl⟩ := List.mem_map.mp hk
  simp [without] at he

theorem length_without_le (k : K) (entries : List (K × V)) :
    (without k entries).length ≤ entries.length :=
  List.length_filter_le _ _

/-- Where a key is among the entries, there are fewer without it. -/
theorem length_without_lt {k : K} {entries : List (K × V)} (hk : k ∈ keys entries) :
    (without k entries).length < entries.length := by
  obtain ⟨e, he, rfl⟩ := List.mem_map.mp hk
  exact List.length_filter_lt_length_iff_exists.mpr ⟨e, he, by simp⟩

theorem nodup_cons_without {entries : List (K × V)} (h : (keys entries).Nodup) (k : K) (v : V) :
    (keys ((k, v) :: without k entries)).Nodup :=
  List.nodup_cons.mpr ⟨not_mem_keys_without k entries, h.sublist (keys_without_sublist k entries)⟩

/-- A map with at most `capacity` entries, the last used first. -/
structure LruMap (K V : Type*) (capacity : Nat) where
  entries : List (K × V)
  nodup : (keys entries).Nodup
  bounded : entries.length ≤ capacity

namespace LruMap

variable {capacity : Nat}

def empty : LruMap K V capacity where
  entries := []
  nodup := List.nodup_nil
  bounded := Nat.zero_le _

/-- The key is used, with a new value. -/
def put (m : LruMap K V capacity) (k : K) (v : V) : LruMap K V capacity where
  entries := trim capacity ((k, v) :: without k m.entries)
  nodup := (nodup_cons_without m.nodup k v).sublist ((trim_sublist _ _).map _)
  bounded := by
    apply length_trim_le
    have hfewer := length_without_le k m.entries
    have hbounded := m.bounded
    rw [List.length_cons]
    omega

def find (m : LruMap K V capacity) (k : K) : Option V :=
  (m.entries.find? fun e => e.1 = k).map (·.2)

theorem mem_keys_of_find {m : LruMap K V capacity} {k : K} {v : V} (h : m.find k = some v) :
    k ∈ keys m.entries := by
  obtain ⟨e, he, -⟩ := Option.map_eq_some_iff.mp h
  have hkey : e.1 = k := by simpa using List.find?_some he
  rw [← hkey]
  exact List.mem_map_of_mem (List.mem_of_find?_eq_some he)

theorem not_mem_keys_of_find {m : LruMap K V capacity} {k : K} (h : m.find k = none) :
    k ∉ keys m.entries := by
  intro hk
  obtain ⟨e, he, rfl⟩ := List.mem_map.mp hk
  rw [find, Option.map_eq_none_iff, List.find?_eq_none] at h
  exact h e he (by simp)

/-- The key is used, where it is there. -/
def get (m : LruMap K V capacity) (k : K) : LruMap K V capacity :=
  match h : m.find k with
  | none => m
  | some v =>
      { entries := (k, v) :: without k m.entries
        nodup := nodup_cons_without m.nodup k v
        bounded := by
          have hfewer := length_without_lt (mem_keys_of_find h)
          have hbounded := m.bounded
          rw [List.length_cons]
          omega }

theorem entries_get_none {m : LruMap K V capacity} {k : K} (h : m.find k = none) :
    (m.get k).entries = m.entries := by
  unfold get
  split
  · rfl
  · next hsome => simp [h] at hsome

theorem entries_get_some {m : LruMap K V capacity} {k : K} {v : V} (h : m.find k = some v) :
    (m.get k).entries = (k, v) :: without k m.entries := by
  unfold get
  split
  · next hnone => simp [h] at hnone
  · next hsome =>
      obtain rfl := Option.some.inj (h.symm.trans hsome)
      rfl

def remove (m : LruMap K V capacity) (k : K) : LruMap K V capacity where
  entries := without k m.entries
  nodup := m.nodup.sublist (keys_without_sublist k m.entries)
  bounded := Nat.le_trans (length_without_le k m.entries) m.bounded

end LruMap

/-! ## Recency -/

/-- The entries stand in the order of their last use; `used` has the uses, the last
one first. -/
def Recent (used : List K) (entries : List (K × V)) : Prop :=
  (keys entries).Pairwise fun a b => used.idxOf a < used.idxOf b

theorem Recent.of_sublist {used : List K} {entries fewer : List (K × V)}
    (h : Recent used entries) (hsub : fewer.Sublist entries) : Recent used fewer :=
  h.sublist (hsub.map _)

/-- A use of a key that has no entry changes no order. -/
theorem Recent.cons {used : List K} {entries : List (K × V)} (h : Recent used entries) {k : K}
    (hk : k ∉ keys entries) : Recent (k :: used) entries := by
  refine h.imp_of_mem ?_
  intro a b ha hb hlt
  have hka : k ≠ a := fun heq => hk (heq ▸ ha)
  have hkb : k ≠ b := fun heq => hk (heq ▸ hb)
  rw [List.idxOf_cons_ne _ hka, List.idxOf_cons_ne _ hkb]
  exact Nat.succ_lt_succ hlt

/-- **The key that is used comes to the front.** -/
theorem Recent.use {used : List K} {entries : List (K × V)} (h : Recent used entries) (k : K)
    (v : V) : Recent (k :: used) ((k, v) :: without k entries) := by
  have hrest : Recent (k :: used) (without k entries) :=
    (h.of_sublist List.filter_sublist).cons (not_mem_keys_without k entries)
  refine List.pairwise_cons.mpr ⟨?_, hrest⟩
  intro b hb
  have hkb : k ≠ b := fun heq => not_mem_keys_without k entries (heq ▸ hb)
  rw [List.idxOf_cons_self, List.idxOf_cons_ne _ hkb]
  exact Nat.succ_pos _

theorem Recent.without {used : List K} {entries : List (K × V)} (h : Recent used entries)
    (k : K) : Recent used (without k entries) :=
  h.of_sublist List.filter_sublist

theorem Recent.trim {used : List K} {entries : List (K × V)} (h : Recent used entries)
    (capacity : Nat) : Recent used (trim capacity entries) :=
  h.of_sublist (trim_sublist capacity entries)

end Ekizu.Lib.Lru
