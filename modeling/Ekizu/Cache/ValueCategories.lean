import Ekizu.Cache.LruRefinement

/-!
# Lvalues and rvalues

`put` and `emplace` of `lru_cache.hpp` with the value category of their arguments.  What
the move constructor of the key type leaves in its source is a parameter: `put` moves its
key into the node before it looks the key up.

## Main results

* `agrees_emplace` — `emplace` keeps the list and the map in step.
* `SoundCache.exists_run` — what calls leave.
* `putEqualsEmplace_iff` — when `put` does what `emplace` does.
-/

namespace Ekizu.Cache

open Lib.Lru

/-- How an argument is passed. -/
inductive Category where
  | lvalue
  | rvalue
  deriving DecidableEq

/-- An argument that is forwarded. -/
structure Arg (A : Type) where
  value : A
  category : Category

/-- What is in the variable after a copy or a move was constructed from it. -/
def Arg.after {A : Type} (moved : A → A) (arg : Arg A) : A :=
  match arg.category with
  | .lvalue => arg.value
  | .rvalue => moved arg.value

variable {K V : Type} [DecidableEq K] [Hashable K]

namespace LruCache

/-- `put`: the key is forwarded into the node, and the variable is used after that. -/
def putArgs (moved : K → K) (c : LruCache K V) (key : Arg K) (value : Arg V) : LruCache K V :=
  (c.emplaceFront key.value value.value).updateLru (key.after moved)

/-- `emplace`: the key is copied into the node, and forwarded into the map as the last use. -/
def emplaceArgs (c : LruCache K V) (key : Arg K) (value : Arg V) : LruCache K V :=
  c.emplace key.value value.value

/-- The same entries in the same order, and the same answers. -/
structure SameObservable (c c' : LruCache K V) : Prop where
  iteration : c.iteration = c'.iteration
  has : ∀ k, c.has k = c'.has k
  get : ∀ k, (c.get k).2 = (c'.get k).2

theorem SameObservable.refl (c : LruCache K V) : SameObservable c c :=
  ⟨rfl, fun _ => rfl, fun _ => rfl⟩

theorem iteration_length (c : LruCache K V) :
    c.iteration.length = c.list.length := List.length_map _

end LruCache

/-- A cache whose list and map agree. -/
structure SoundCache (K V : Type) [DecidableEq K] [Hashable K] extends LruCache K V where
  agrees : Agrees list map
  fresh : ∀ n ∈ list, n.address < allocated
  bounded : list.length ≤ capacity

namespace SoundCache

variable (c : SoundCache K V)

/-- The abstract map that a cache stands for. -/
def toMap : LruMap K V c.capacity where
  entries := c.toLruCache.iteration
  nodup := by
    show (List.map _ (List.map _ _)).Nodup
    rw [List.map_map]
    exact c.agrees.keys
  bounded := by
    rw [c.toLruCache.iteration_length]
    exact c.bounded

theorem represents : Represents c.toLruCache c.toMap :=
  ⟨rfl, c.agrees, c.fresh, rfl⟩

/-- **`put` equals `emplace`**: afterwards the caches cannot be told apart, and the list and
the map agree. -/
structure PutEqualsEmplace (moved : K → K) (key : Arg K) (value : Arg V) : Prop where
  same : LruCache.SameObservable (c.toLruCache.putArgs moved key value)
    (c.toLruCache.emplaceArgs key value)
  put : Agrees (c.toLruCache.putArgs moved key value).list
    (c.toLruCache.putArgs moved key value).map
  emplace : Agrees (c.toLruCache.emplaceArgs key value).list
    (c.toLruCache.emplaceArgs key value).map

theorem agrees_emplace (key : Arg K) (value : Arg V) :
    Agrees (c.toLruCache.emplaceArgs key value).list (c.toLruCache.emplaceArgs key value).map :=
  (c.represents.put key.value value.value).agrees

/-- A variable that still holds the key. -/
theorem putArgs_eq_emplaceArgs {moved : K → K} {key : Arg K} (h : key.after moved = key.value)
    (value : Arg V) :
    c.toLruCache.putArgs moved key value = c.toLruCache.emplaceArgs key value := by
  rw [LruCache.putArgs, h]
  rfl

/-- A variable that holds another key is what the map finds the new node under. -/
theorem not_agrees_putArgs {moved : K → K} {key : Arg K} (h : key.after moved ≠ key.value)
    (value : Arg V) :
    ¬ Agrees (c.toLruCache.putArgs moved key value).list
      (c.toLruCache.putArgs moved key value).map := by
  obtain ⟨map, -, herased⟩ := c.represents.eraseOld key.value (key.after moved) value.value
  have hput : c.toLruCache.putArgs moved key value =
      { c.toLruCache with
        list := ⟨c.allocated, key.value, value.value⟩ :: others (key.after moved) c.list
        map := map.insert (key.after moved) c.allocated
        allocated := c.allocated + 1 }.evict := by
    rw [LruCache.putArgs, LruCache.updateLru, herased]
    rfl
  -- no node of the list has the key that the map was given
  have hkeys : ∀ n ∈ (⟨c.allocated, key.value, value.value⟩ ::
      others (key.after moved) c.list : List (Node K V)), n.key ≠ key.after moved := by
    intro n hn heq
    rcases List.mem_cons.mp hn with rfl | hold
    · exact h heq.symm
    · exact not_mem_others _ _ (heq ▸ List.mem_map_of_mem hold)
  have hcontra : ∀ (list : List (Node K V)) (map : Std.HashMap K Nat),
      (∀ n ∈ list, n.key ≠ key.after moved) → map[key.after moved]? = some c.allocated →
      ¬ Agrees list map := by
    intro list map hnone hsome hagrees
    obtain ⟨n, hn, hkey, -⟩ := hagrees.found hsome
    exact hnone n hn hkey
  rw [hput, LruCache.evict]
  split
  · have hne := List.cons_ne_nil (⟨c.allocated, key.value, value.value⟩ : Node K V)
      (others (key.after moved) c.list)
    obtain ⟨n, hlast⟩ := Option.isSome_iff_exists.mp (List.getLast?_isSome.mpr hne)
    rw [hlast]
    refine hcontra _ _ (fun n' hn' => hkeys n' (List.dropLast_subset _ hn')) ?_
    have hother := hkeys n (List.mem_of_getLast? hlast)
    rw [Std.HashMap.getElem?_erase, if_neg (by simpa using hother)]
    simp
  · exact hcontra _ _ hkeys (by simp)

/-- **`put` equals `emplace`** exactly where the key is an lvalue or stays in the variable
that it was moved from. -/
theorem putEqualsEmplace_iff (moved : K → K) (key : Arg K) (value : Arg V) :
    c.PutEqualsEmplace moved key value ↔
      key.category = .lvalue ∨ moved key.value = key.value := by
  have hafter : key.after moved = key.value ↔
      key.category = .lvalue ∨ moved key.value = key.value := by
    unfold Arg.after
    cases key.category <;> simp
  rw [← hafter]
  constructor
  · intro hequals
    by_contra hne
    exact c.not_agrees_putArgs hne value hequals.put
  · intro hkept
    have hagrees := c.agrees_emplace key value
    have heq := c.putArgs_eq_emplaceArgs hkept value
    exact ⟨heq ▸ LruCache.SameObservable.refl _, heq ▸ hagrees, hagrees⟩

end SoundCache

/-- An empty cache. -/
def SoundCache.empty (K V : Type) [DecidableEq K] [Hashable K] (capacity : Nat) :
    SoundCache K V where
  capacity
  agrees := Agrees.empty
  fresh := nofun
  bounded := Nat.zero_le _

/-- A cache that stands for a map is sound. -/
def SoundCache.ofRepresents {capacity : Nat} {c : LruCache K V} {m : LruMap K V capacity}
    (h : Represents c m) : SoundCache K V where
  toLruCache := c
  agrees := h.agrees
  fresh := h.fresh
  bounded := by
    rw [← LruCache.iteration_length, h.entries, h.capacity]
    exact m.bounded

/-- **Every sequence of calls leaves a sound cache**, as long as no key is lost in a move. -/
theorem SoundCache.exists_run (c : SoundCache K V) (ops : List (LruCache.Op K V)) :
    ∃ c' : SoundCache K V, c'.toLruCache = (c.toLruCache.run ops).1 :=
  ⟨.ofRepresents (c.represents.run ops).1, rfl⟩

/-- A text that is moved into the cache leaves its variable empty, and is found under the
empty text. -/
theorem putEqualsEmplace_string :
    ¬ (SoundCache.empty String Nat 2).PutEqualsEmplace (fun _ => "") ⟨"a", .rvalue⟩
      ⟨1, .lvalue⟩ :=
  fun h => SoundCache.not_agrees_putArgs _ (by decide) _ h.put

end Ekizu.Cache
