import Ekizu.Cache.LruCache
import Ekizu.Lib.Lru

/-!
# The cache is an LRU map

Between two calls every entry of the hash map points to the list node with its key,
and every node has one.  An insertion breaks this twice, with a second node for a key
and with a node that is one too many, and restores it each time.

## Main results

* `Agrees.erase`, `Agrees.front`, `Agrees.pop` — what the steps of a call do to the list
  and the map.
* `Represents.put`, `Represents.get`, `Represents.remove` — a call does what the
  abstract map does.
* `refines` — so do all sequences of calls.
-/

namespace Ekizu.Cache

open Lib.Lru

variable {K V : Type} [DecidableEq K] [Hashable K]

/-- The specification of a call. -/
def specApply {capacity : Nat} (m : LruMap K V capacity) :
    LruCache.Op K V → LruMap K V capacity × LruCache.Answer V
  | .put k v => (m.put k v, .nothing)
  | .emplace k v => (m.put k v, .nothing)
  | .get k => (m.get k, .value (m.find k))
  | .index k => (m.get k, .value (m.find k))
  | .remove k => (m.remove k, .nothing)
  | .has k => (m, .found (m.find k).isSome)

/-- The specification of a sequence of calls. -/
def specRun {capacity : Nat} (m : LruMap K V capacity) :
    List (LruCache.Op K V) → LruMap K V capacity × List (LruCache.Answer V)
  | [] => (m, [])
  | op :: ops =>
      ((specRun (specApply m op).1 ops).1,
        (specApply m op).2 :: (specRun (specApply m op).1 ops).2)

/-- The key that a call uses. -/
def LruCache.Op.used : LruCache.Op K V → List K
  | put k _ | emplace k _ | get k | index k => [k]
  | remove _ | has _ => []

/-- The keys that calls use, the last one first. -/
def uses : List (LruCache.Op K V) → List K
  | [] => []
  | op :: ops => uses ops ++ op.used

/-! ## Nodes -/

omit [DecidableEq K] [Hashable K] in
theorem ne_of_not_mem_map {A : Type} {f : Node K V → A} {list : List (Node K V)} {n n' : Node K V}
    (hnotin : f n' ∉ list.map f) (hn : n ∈ list) : f n' ≠ f n := by
  intro heq
  rw [heq] at hnotin
  exact hnotin (List.mem_map_of_mem hn)

/-- The nodes of other keys. -/
def others (k : K) (list : List (Node K V)) : List (Node K V) := list.filter fun n => n.key ≠ k

section Others

omit [Hashable K]

variable {list : List (Node K V)} {k k' : K} {n : Node K V}

theorem find_key_of_mem (hkeys : (list.map (·.key)).Nodup) (hn : n ∈ list) :
    (list.find? fun n' => n'.key = n.key) = some n := by
  induction list with
  | nil => cases hn
  | cons n' list ih =>
      obtain ⟨hnotin, hrest⟩ := List.nodup_cons.mp hkeys
      rcases List.mem_cons.mp hn with rfl | hn
      · simp
      · have hne := ne_of_not_mem_map hnotin hn
        rw [List.find?_cons_of_neg (by simpa using hne), ih hrest hn]

omit [DecidableEq K] in
theorem find_address_of_mem (haddresses : (list.map (·.address)).Nodup) (hn : n ∈ list) :
    (list.find? fun n' => n'.address == n.address) = some n := by
  induction list with
  | nil => cases hn
  | cons n' list ih =>
      obtain ⟨hnotin, hrest⟩ := List.nodup_cons.mp haddresses
      rcases List.mem_cons.mp hn with rfl | hn
      · simp
      · have hne := ne_of_not_mem_map hnotin hn
        rw [List.find?_cons_of_neg (by simpa using hne), ih hrest hn]

theorem others_eq_self (hk : k ∉ list.map (·.key)) : others k list = list := by
  refine List.filter_eq_self.mpr ?_
  intro n hn
  have hne : n.key ≠ k := fun heq => hk (heq ▸ List.mem_map_of_mem hn)
  simpa using hne

theorem others_cons_self (k : K) (address : Nat) (v : V) (list : List (Node K V)) :
    others k (⟨address, k, v⟩ :: list) = others k list := by
  simp [others]

theorem others_cons_of_ne (hne : n.key ≠ k) : others k (n :: list) = n :: others k list := by
  simp [others, hne]

/-- To erase a node is to erase its key. -/
theorem eraseP_address (haddresses : (list.map (·.address)).Nodup)
    (hkeys : (list.map (·.key)).Nodup) (hn : n ∈ list) :
    (list.eraseP fun n' => n'.address == n.address) = others n.key list := by
  induction list with
  | nil => cases hn
  | cons n' list ih =>
      obtain ⟨hnotin, hrest⟩ := List.nodup_cons.mp haddresses
      obtain ⟨hnotkey, hrestkeys⟩ := List.nodup_cons.mp hkeys
      rcases List.mem_cons.mp hn with rfl | hn
      · rw [List.eraseP_cons_of_pos (by simp), others_cons_self, others_eq_self hnotkey]
      · have hne := ne_of_not_mem_map hnotin hn
        have hnekey := ne_of_not_mem_map hnotkey hn
        rw [List.eraseP_cons_of_neg (by simpa using hne), ih hrest hrestkeys hn,
          others_cons_of_ne hnekey]

theorem find_others (hne : k ≠ k') :
    ((others k list).find? fun n => n.key = k') = list.find? fun n => n.key = k' := by
  rw [others, List.find?_filter]
  congr 1
  funext n
  by_cases heq : n.key = k'
  · simp [heq, Ne.symm hne]
  · simp [heq]

theorem find_others_self (k : K) (list : List (Node K V)) :
    ((others k list).find? fun n => n.key = k) = none := by
  rw [List.find?_eq_none]
  intro n hn
  have hkey := (List.mem_filter.mp hn).2
  simpa using hkey

theorem mem_of_mem_others (hn : n ∈ others k list) : n ∈ list := (List.mem_filter.mp hn).1

theorem not_mem_others (k : K) (list : List (Node K V)) : k ∉ (others k list).map (·.key) := by
  intro hk
  obtain ⟨n, hn, rfl⟩ := List.mem_map.mp hk
  have hkey := (List.mem_filter.mp hn).2
  simp at hkey

end Others

/-! ## The list and the map -/

/-- Nodes have different addresses and different keys, and the map has the address of the
node of each key, and no more. -/
structure Agrees (list : List (Node K V)) (map : Std.HashMap K Nat) : Prop where
  addresses : (list.map (·.address)).Nodup
  keys : (list.map (·.key)).Nodup
  lookup : ∀ k, map[k]? = (list.find? fun n => n.key = k).map (·.address)
  size : map.size = list.length

variable {list : List (Node K V)} {map : Std.HashMap K Nat} {k : K} {n : Node K V}

namespace Agrees

theorem empty : Agrees ([] : List (Node K V)) ∅ :=
  ⟨List.nodup_nil, List.nodup_nil, by simp, by simp⟩

/-- What the map has for a key. -/
theorem found (h : Agrees list map) {it : Nat} (hit : map[k]? = some it) :
    ∃ n ∈ list, n.key = k ∧ n.address = it := by
  rw [h.lookup] at hit
  obtain ⟨n, hn, hit⟩ := Option.map_eq_some_iff.mp hit
  exact ⟨n, List.mem_of_find?_eq_some hn, by simpa using List.find?_some hn, hit⟩

theorem mem_iff (h : Agrees list map) : k ∈ map ↔ k ∈ list.map (·.key) := by
  rw [Std.HashMap.mem_iff_isSome_getElem?, h.lookup, Option.isSome_map, List.find?_isSome]
  simp

theorem missing (h : Agrees list map) (hnone : map[k]? = none) : k ∉ list.map (·.key) := by
  rw [← h.mem_iff, Std.HashMap.mem_iff_isSome_getElem?, hnone]
  simp

theorem length_others (h : Agrees list map) (hn : n ∈ list) :
    (others n.key list).length = list.length - 1 := by
  rw [← eraseP_address h.addresses h.keys hn, List.length_eraseP_of_mem hn (by simp)]

/-- **A key is erased** from the list and the map. -/
theorem erase (h : Agrees list map) (k : K) : Agrees (others k list) (map.erase k) := by
  refine
    { addresses := h.addresses.sublist (List.filter_sublist.map _)
      keys := h.keys.sublist (List.filter_sublist.map _)
      lookup := ?_
      size := ?_ }
  · intro a
    rw [Std.HashMap.getElem?_erase]
    by_cases ha : k = a
    · subst ha
      rw [if_pos (by simp), find_others_self]
      rfl
    · rw [if_neg (by simpa using ha), h.lookup, find_others ha]
  · rw [Std.HashMap.size_erase, h.size]
    by_cases hmem : k ∈ map
    · rw [if_pos hmem]
      obtain ⟨n, hn, rfl⟩ := List.mem_map.mp (h.mem_iff.mp hmem)
      exact (h.length_others hn).symm
    · rw [if_neg hmem, others_eq_self (mt h.mem_iff.mpr hmem)]

/-- **A node comes to the front**, with a key that is not there. -/
theorem front (h : Agrees list map) {address : Nat} {v : V}
    (hk : k ∉ list.map (·.key)) (haddress : address ∉ list.map (·.address)) :
    Agrees (⟨address, k, v⟩ :: list) (map.insert k address) := by
  refine
    { addresses := List.nodup_cons.mpr ⟨haddress, h.addresses⟩
      keys := List.nodup_cons.mpr ⟨hk, h.keys⟩
      lookup := ?_
      size := ?_ }
  · intro a
    rw [Std.HashMap.getElem?_insert]
    by_cases ha : k = a
    · subst ha
      rw [if_pos (by simp), List.find?_cons_of_pos (by simp)]
      rfl
    · rw [if_neg (by simpa using ha), List.find?_cons_of_neg (by simpa using ha), h.lookup]
  · rw [Std.HashMap.size_insert, if_neg (mt h.mem_iff.mp hk), h.size]
    rfl

/-- **The last node is dropped** from the list and the map. -/
theorem pop (h : Agrees list map) (hlast : list.getLast? = some n) :
    Agrees list.dropLast (map.erase n.key) := by
  obtain ⟨before, rfl⟩ := List.getLast?_eq_some_iff.mp hlast
  have hkeys := h.keys
  rw [List.map_append, List.map_singleton, List.nodup_append] at hkeys
  have hnotin : n.key ∉ before.map (·.key) :=
    fun hmem => hkeys.2.2 n.key hmem n.key (List.mem_singleton_self _) rfl
  have hsame : others n.key (before ++ [n]) = before := by
    rw [others, List.filter_append]
    have hbefore : others n.key before = before := others_eq_self hnotin
    rw [others] at hbefore
    rw [hbefore]
    simp
  have hpopped := h.erase n.key
  rw [hsame] at hpopped
  rwa [List.dropLast_concat]

/-- **A node moves to the front.** -/
theorem splice (h : Agrees list map) (hn : n ∈ list) : Agrees (n :: others n.key list) map := by
  have hothers := h.erase n.key
  have haddress : n.address ∉ (others n.key list).map (·.address) := by
    intro hmem
    obtain ⟨n', hn', heq⟩ := List.mem_map.mp hmem
    have hfound := find_address_of_mem h.addresses (mem_of_mem_others hn')
    rw [heq, find_address_of_mem h.addresses hn] at hfound
    obtain rfl := Option.some.inj hfound
    exact not_mem_others n.key list (List.mem_map_of_mem hn')
  refine
    { addresses := List.nodup_cons.mpr ⟨haddress, hothers.addresses⟩
      keys := List.nodup_cons.mpr ⟨not_mem_others n.key list, hothers.keys⟩
      lookup := ?_
      size := ?_ }
  · intro a
    rw [h.lookup]
    by_cases ha : n.key = a
    · subst ha
      rw [find_key_of_mem h.keys hn, List.find?_cons_of_pos (by simp)]
    · rw [List.find?_cons_of_neg (by simpa using ha), find_others ha]
  · have hpositive := List.length_pos_of_mem hn
    rw [h.size, List.length_cons, h.length_others hn]
    omega

end Agrees

/-! ## Calls -/

/-- The cache stands for the map: the list and the hash map agree, addresses are not used
twice, and the entries are those of the map in the same order. -/
structure Represents {capacity : Nat} (c : LruCache K V) (m : LruMap K V capacity) : Prop where
  capacity : c.capacity = capacity
  agrees : Agrees c.list c.map
  fresh : ∀ n ∈ c.list, n.address < c.allocated
  entries : c.iteration = m.entries

variable {capacity : Nat} {c : LruCache K V} {m : LruMap K V capacity}

omit [Hashable K] in
theorem map_others (k : K) (list : List (Node K V)) :
    ((others k list).map fun n => (n.key, n.value)) =
      without k (list.map fun n => (n.key, n.value)) := by
  rw [others, without, List.filter_map]
  rfl

theorem Represents.size (h : Represents c m) : c.size = m.entries.length := by
  rw [← h.entries, LruCache.iteration, List.length_map]
  exact h.agrees.size

/-- What the list has for a key is what the map has. -/
theorem Represents.find (h : Represents c m) (k : K) :
    m.find k = (c.list.find? fun n => n.key = k).map (·.value) := by
  rw [LruMap.find, ← h.entries, LruCache.iteration, List.find?_map, Option.map_map]
  rfl

theorem Represents.find_of_mem (h : Represents c m) (hn : n ∈ c.list) :
    m.find n.key = some n.value := by
  rw [h.find, find_key_of_mem h.agrees.keys hn]
  rfl

theorem Represents.find_none (h : Represents c m) (hnone : c.map[k]? = none) :
    m.find k = none := by
  rw [h.agrees.lookup, Option.map_eq_none_iff] at hnone
  rw [h.find, hnone]
  rfl

/-- The old node of a key is gone, and the new one is in front, whatever its own key. -/
theorem Represents.eraseOld (h : Represents c m) (front k : K) (v : V) :
    ∃ map, Agrees (others k c.list) map ∧
      (c.emplaceFront front v).eraseOld k =
        { c with
          list := ⟨c.allocated, front, v⟩ :: others k c.list
          map := map
          allocated := c.allocated + 1 } := by
  cases hmap : c.map[k]? with
  | none =>
      have hsame := others_eq_self (h.agrees.missing hmap)
      refine ⟨c.map, by rw [hsame]; exact h.agrees, ?_⟩
      simp [LruCache.eraseOld, LruCache.emplaceFront, hmap, hsame]
  | some it =>
      obtain ⟨n, hn, rfl, rfl⟩ := h.agrees.found hmap
      have hnew : c.allocated ≠ n.address := Nat.ne_of_gt (h.fresh n hn)
      refine ⟨c.map.erase n.key, h.agrees.erase n.key, ?_⟩
      simp [LruCache.eraseOld, LruCache.emplaceFront, LruCache.eraseNode, hmap, hnew,
        eraseP_address h.agrees.addresses h.agrees.keys hn]

/-- **An insertion** does what the abstract map does. -/
theorem Represents.put (h : Represents c m) (k : K) (v : V) :
    Represents (c.put k v) (m.put k v) := by
  obtain ⟨map, hothers, herased⟩ := h.eraseOld k k v
  have hnew : c.allocated ∉ (others k c.list).map (·.address) := by
    intro hmem
    obtain ⟨n, hn, heq⟩ := List.mem_map.mp hmem
    have hlt := h.fresh n (mem_of_mem_others hn)
    omega
  have hagrees := hothers.front (v := v) (not_mem_others k c.list) hnew
  have hfresh : ∀ n ∈ (⟨c.allocated, k, v⟩ :: others k c.list : List (Node K V)),
      n.address < c.allocated + 1 := by
    intro n hn
    rcases List.mem_cons.mp hn with rfl | hold
    · exact Nat.lt_succ_self _
    · exact Nat.lt_succ_of_lt (h.fresh n (mem_of_mem_others hold))
  have hentries : (⟨c.allocated, k, v⟩ :: others k c.list).map (fun n => (n.key, n.value)) =
      (k, v) :: without k m.entries := by
    rw [List.map_cons, map_others, ← h.entries]
    rfl
  have hput : c.put k v =
      { c with
        list := ⟨c.allocated, k, v⟩ :: others k c.list
        map := map.insert k c.allocated
        allocated := c.allocated + 1 }.evict := by
    rw [LruCache.put, LruCache.updateLru, herased]
    rfl
  have hlength : (⟨c.allocated, k, v⟩ :: others k c.list).length =
      ((k, v) :: without k m.entries).length := by
    rw [← hentries, List.length_map]
  have hspec : (m.put k v).entries = trim capacity ((k, v) :: without k m.entries) := rfl
  rw [hput, LruCache.evict]
  simp only [hagrees.size]
  by_cases hfull : c.capacity < (⟨c.allocated, k, v⟩ :: others k c.list).length
  · rw [if_pos hfull]
    have hne := List.cons_ne_nil (⟨c.allocated, k, v⟩ : Node K V) (others k c.list)
    obtain ⟨n, hlast⟩ := Option.isSome_iff_exists.mp (List.getLast?_isSome.mpr hne)
    rw [hlast]
    refine ⟨h.capacity, hagrees.pop hlast, ?_, ?_⟩
    · intro n' hn'
      exact hfresh n' (List.dropLast_subset _ hn')
    · rw [h.capacity, hlength] at hfull
      rw [hspec, trim, if_pos hfull, ← hentries, ← List.map_dropLast]
      rfl
  · rw [if_neg hfull]
    refine ⟨h.capacity, hagrees, hfresh, ?_⟩
    rw [h.capacity, hlength] at hfull
    rw [hspec, trim, if_neg hfull, ← hentries]
    rfl

/-- **A lookup** does what the abstract map does. -/
theorem Represents.get (h : Represents c m) (k : K) :
    Represents (c.get k).1 (m.get k) ∧ (c.get k).2 = m.find k := by
  unfold LruCache.get
  cases hmap : c.map[k]? with
  | none =>
      have hnone := h.find_none hmap
      refine ⟨⟨h.capacity, h.agrees, h.fresh, ?_⟩, hnone.symm⟩
      rw [LruMap.entries_get_none hnone]
      exact h.entries
  | some it =>
      obtain ⟨n, hn, rfl, rfl⟩ := h.agrees.found hmap
      have hnode := find_address_of_mem h.agrees.addresses hn
      have hvalue := h.find_of_mem hn
      have hsplice : c.splice n.address = { c with list := n :: others n.key c.list } := by
        rw [LruCache.splice, hnode, LruCache.eraseNode]
        simp only [eraseP_address h.agrees.addresses h.agrees.keys hn]
      simp only [hsplice, hnode, hvalue]
      refine ⟨⟨h.capacity, h.agrees.splice hn, ?_, ?_⟩, rfl⟩
      · intro n' hn'
        rcases List.mem_cons.mp hn' with rfl | hold
        · exact h.fresh n' hn
        · exact h.fresh n' (mem_of_mem_others hold)
      · rw [LruMap.entries_get_some hvalue, LruCache.iteration, List.map_cons, map_others,
          ← h.entries]
        rfl

/-- **A removal** does what the abstract map does. -/
theorem Represents.remove (h : Represents c m) (k : K) :
    Represents (c.remove k) (m.remove k) := by
  have hentries : ((others k c.list).map fun n => (n.key, n.value)) = (m.remove k).entries := by
    show _ = without k m.entries
    rw [map_others, ← h.entries]
    rfl
  unfold LruCache.remove
  cases hmap : c.map[k]? with
  | none =>
      rw [others_eq_self (h.agrees.missing hmap)] at hentries
      exact ⟨h.capacity, h.agrees, h.fresh, hentries⟩
  | some it =>
      obtain ⟨n, hn, rfl, rfl⟩ := h.agrees.found hmap
      simp only [LruCache.eraseNode, eraseP_address h.agrees.addresses h.agrees.keys hn]
      exact ⟨h.capacity, h.agrees.erase n.key, fun n' hn' => h.fresh n' (mem_of_mem_others hn'),
        hentries⟩

theorem Represents.has (h : Represents c m) (k : K) : c.has k = (m.find k).isSome := by
  rw [LruCache.has, Std.HashMap.contains_eq_isSome_getElem?, h.agrees.lookup, h.find,
    Option.isSome_map, Option.isSome_map]

/-! ## Sequences of calls -/

/-- **A call** does what the specification says, and returns the same. -/
theorem Represents.apply (h : Represents c m) (op : LruCache.Op K V) :
    Represents (c.apply op).1 (specApply m op).1 ∧ (c.apply op).2 = (specApply m op).2 := by
  cases op with
  | put k v => exact ⟨h.put k v, rfl⟩
  | emplace k v => exact ⟨h.put k v, rfl⟩
  | get k =>
      obtain ⟨hrepresents, hvalue⟩ := h.get k
      exact ⟨hrepresents, congrArg LruCache.Answer.value hvalue⟩
  | index k =>
      obtain ⟨hrepresents, hvalue⟩ := h.get k
      exact ⟨hrepresents, congrArg LruCache.Answer.value hvalue⟩
  | remove k => exact ⟨h.remove k, rfl⟩
  | has k => exact ⟨h, congrArg LruCache.Answer.found (h.has k)⟩

/-- **So does a sequence of calls.** -/
theorem Represents.run (h : Represents c m) (ops : List (LruCache.Op K V)) :
    Represents (c.run ops).1 (specRun m ops).1 ∧ (c.run ops).2 = (specRun m ops).2 := by
  induction ops generalizing c m with
  | nil => exact ⟨h, rfl⟩
  | cons op ops ih =>
      obtain ⟨hstep, hanswer⟩ := h.apply op
      obtain ⟨hrest, hanswers⟩ := ih hstep
      refine ⟨hrest, ?_⟩
      rw [LruCache.run, specRun]
      simp only [hanswer, hanswers]

/-! ## The order of the entries -/

omit [Hashable K] in
theorem recent_get {used : List K} (h : Recent used m.entries) (k : K) :
    Recent (k :: used) (m.get k).entries := by
  cases hfind : m.find k with
  | none =>
      rw [LruMap.entries_get_none hfind]
      exact h.cons (LruMap.not_mem_keys_of_find hfind)
  | some v =>
      rw [LruMap.entries_get_some hfind]
      exact h.use k v

omit [Hashable K] in
/-- A call keeps the order of the last use. -/
theorem recent_apply {used : List K} (h : Recent used m.entries) (op : LruCache.Op K V) :
    Recent (op.used ++ used) (specApply m op).1.entries := by
  cases op with
  | put k v => exact (h.use k v).trim capacity
  | emplace k v => exact (h.use k v).trim capacity
  | get k => exact recent_get h k
  | index k => exact recent_get h k
  | remove k => exact h.without k
  | has k => exact h

omit [Hashable K] in
theorem recent_run {used : List K} (h : Recent used m.entries) (ops : List (LruCache.Op K V)) :
    Recent (uses ops ++ used) (specRun m ops).1.entries := by
  induction ops generalizing m used with
  | nil => exact h
  | cons op ops ih =>
      rw [uses, List.append_assoc]
      exact ih (recent_apply h op)

/-- What the cache and its answers are after some calls: the list and the hash map agree,
the size is in its bound, iteration meets the entries of the specification in the
order of their last use, and the answers are those of the specification. -/
structure Refines (capacity : Nat) (ops : List (LruCache.Op K V))
    (after : LruCache K V × List (LruCache.Answer V)) : Prop where
  points : ∀ k it, after.1.map[k]? = some it ↔ ∃ n ∈ after.1.list, n.key = k ∧ n.address = it
  addresses : (after.1.list.map (·.address)).Nodup
  keys : (after.1.list.map (·.key)).Nodup
  sizes : after.1.size = after.1.list.length
  bounded : after.1.size ≤ capacity
  iteration : after.1.iteration = (specRun (LruMap.empty : LruMap K V capacity) ops).1.entries
  recent : Recent (uses ops) after.1.iteration
  answers : after.2 = (specRun (LruMap.empty : LruMap K V capacity) ops).2

/-- **The cache refines the LRU map**, for every capacity and all sequences of calls. -/
theorem refines (V : Type) (capacity : Nat) (ops : List (LruCache.Op Snowflake V)) :
    Refines capacity ops (({ capacity := capacity } : SnowflakeLruCache V).run ops) := by
  have hstart : Represents ({ capacity := capacity } : SnowflakeLruCache V)
      (LruMap.empty : LruMap Snowflake V capacity) :=
    ⟨rfl, Agrees.empty, by simp, rfl⟩
  obtain ⟨h, hanswers⟩ := hstart.run ops
  have hempty : Recent [] (LruMap.empty : LruMap Snowflake V capacity).entries :=
    List.Pairwise.nil
  have hrecent := recent_run hempty ops
  rw [List.append_nil, ← h.entries] at hrecent
  refine
    { points := ?_
      addresses := h.agrees.addresses
      keys := h.agrees.keys
      sizes := h.agrees.size
      bounded := ?_
      iteration := h.entries
      recent := hrecent
      answers := hanswers }
  · intro k it
    refine ⟨h.agrees.found, ?_⟩
    rintro ⟨n, hn, rfl, rfl⟩
    rw [h.agrees.lookup, find_key_of_mem h.agrees.keys hn]
    rfl
  · rw [h.size]
    exact (specRun _ ops).1.bounded

end Ekizu.Cache
