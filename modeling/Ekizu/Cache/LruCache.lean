import Ekizu.Snowflake
import Mathlib.Tactic.Common

/-!
# The cache

`LruCache` of `lru_cache.hpp`: a list of nodes and a hash map from keys to nodes.  A
list iterator is the address of its node; `allocated` is the next address.
-/

namespace Ekizu.Cache

variable {K V : Type} [DecidableEq K] [Hashable K]

structure Node (K V : Type) where
  address : Nat
  key : K
  value : V

structure LruCache (K V : Type) [DecidableEq K] [Hashable K] where
  capacity : Nat
  list : List (Node K V) := []
  map : Std.HashMap K Nat := ∅
  allocated : Nat := 0

namespace LruCache

/-- `m_cache_list.emplace_front`. -/
def emplaceFront (c : LruCache K V) (k : K) (v : V) : LruCache K V :=
  { c with list := ⟨c.allocated, k, v⟩ :: c.list, allocated := c.allocated + 1 }

/-- `m_cache_list.erase`. -/
def eraseNode (c : LruCache K V) (it : Nat) : LruCache K V :=
  { c with list := c.list.eraseP fun n => n.address == it }

/-- `update_lru`: the first `if`. -/
def eraseOld (c : LruCache K V) (k : K) : LruCache K V :=
  match c.map[k]? with
  | none => c
  | some it => { c.eraseNode it with map := c.map.erase k }

/-- `m_cache_map.insert_or_assign(key, m_cache_list.begin())`. -/
def assignFront (c : LruCache K V) (k : K) : LruCache K V :=
  match c.list.head? with
  | none => c
  | some n => { c with map := c.map.insert k n.address }

/-- `update_lru`: the last `if`. -/
def evict (c : LruCache K V) : LruCache K V :=
  if c.capacity < c.map.size then
    match c.list.getLast? with
    | none => c
    | some n => { c with map := c.map.erase n.key, list := c.list.dropLast }
  else c

def updateLru (c : LruCache K V) (k : K) : LruCache K V := ((c.eraseOld k).assignFront k).evict

def put (c : LruCache K V) (k : K) (v : V) : LruCache K V := (c.emplaceFront k v).updateLru k

/-- `emplace`; `v` is the value that its arguments construct. -/
def emplace (c : LruCache K V) (k : K) (v : V) : LruCache K V := (c.emplaceFront k v).updateLru k

/-- `m_cache_list.splice(m_cache_list.begin(), m_cache_list, it)`. -/
def splice (c : LruCache K V) (it : Nat) : LruCache K V :=
  match c.list.find? fun n => n.address == it with
  | none => c
  | some n => { c with list := n :: (c.eraseNode it).list }

def get (c : LruCache K V) (k : K) : LruCache K V × Option V :=
  match c.map[k]? with
  | none => (c, none)
  | some it => (c.splice it, (c.list.find? fun n => n.address == it).map (·.value))

/-- `operator[]`. -/
def index (c : LruCache K V) (k : K) : LruCache K V × Option V := c.get k

def remove (c : LruCache K V) (k : K) : LruCache K V :=
  match c.map[k]? with
  | none => c
  | some it => { c.eraseNode it with map := c.map.erase k }

def has (c : LruCache K V) (k : K) : Bool := c.map.contains k

def size (c : LruCache K V) : Nat := c.map.size

def isEmpty (c : LruCache K V) : Bool := c.map.isEmpty

/-- What runs from `begin()` to `end()`. -/
def iteration (c : LruCache K V) : List (K × V) := c.list.map fun n => (n.key, n.value)

/-- A call. -/
inductive Op (K V : Type) where
  | put (k : K) (v : V)
  | emplace (k : K) (v : V)
  | get (k : K)
  | index (k : K)
  | remove (k : K)
  | has (k : K)

/-- What a call returns. -/
inductive Answer (V : Type) where
  | nothing
  | value (v : Option V)
  | found (b : Bool)

def apply (c : LruCache K V) : Op K V → LruCache K V × Answer V
  | .put k v => (c.put k v, .nothing)
  | .emplace k v => (c.emplace k v, .nothing)
  | .get k => ((c.get k).1, .value (c.get k).2)
  | .index k => ((c.index k).1, .value (c.index k).2)
  | .remove k => (c.remove k, .nothing)
  | .has k => (c, .found (c.has k))

/-- A sequence of calls, and what they return. -/
def run (c : LruCache K V) : List (Op K V) → LruCache K V × List (Answer V)
  | [] => (c, [])
  | op :: ops => (((c.apply op).1.run ops).1, (c.apply op).2 :: ((c.apply op).1.run ops).2)

end LruCache

/-- `SnowflakeLruCache`. -/
abbrev SnowflakeLruCache (V : Type) := LruCache Snowflake V

end Ekizu.Cache
