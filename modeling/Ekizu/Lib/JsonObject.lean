import Ekizu.Lib.Json
import Mathlib.Tactic.Common

/-!
# Writing into JSON objects

The members of an object are written one after the other.  A member is written with
what was there before at hand, `null` where there was nothing, and may be left alone.

## Main results

* `find?_writeAll` — members under other keys stay as they are.
* `find?_set`, `find?_update` — what one write leaves.
* `writeAll_null` — what is written on `null`.
* `get_written` — what is there of a member that was written.
* `exists_writeAll_iff` — what can be written into an object.
-/

namespace Ekizu.Lib.Json

/-- The members with one of them replaced or added. -/
def setMember (key : String) (value : Json) : List (String × Json) → List (String × Json)
  | [] => [(key, value)]
  | (k, v) :: members =>
      if key == k then (k, value) :: members else (k, v) :: setMember key value members

/-- `j[key] = value`, which makes an object of `null` and throws on anything else. -/
def set (j : Json) (key : String) (value : Json) : Option Json :=
  match j with
  | null => some (object [(key, value)])
  | object members => some (object (setMember key value members))
  | _ => none

/-- What becomes of a member: an exception, or the member is left alone or replaced. -/
abbrev Put := Json → Option (Option Json)

/-- A member that is always replaced. -/
def constant (value : Json) : Put := fun _ => some (some value)

/-- A member is left alone or replaced. -/
def update (j : Json) (key : String) : Option Json → Option Json
  | none => some j
  | some value => j.set key value

/-- Write the members of a list. -/
def writeAll (j : Json) : List (String × Put) → Option Json
  | [] => some j
  | (key, put) :: rest => do
      let value ← put (j.get key)
      let j ← j.update key value
      writeAll j rest

/-- An object, or an empty one in place of anything else. -/
def ensureObject (j : Json) : Json := if j.isObject then j else object []

/-- A number, whatever its representation. -/
def number? : Json → Option Rat
  | unsigned n => some n.toNat
  | integer i => some i.toInt
  | float q => some q
  | _ => none

/-- Equal values; numbers are compared by what they stand for. -/
def Same (v w : Json) : Prop := v = w ∨ ∃ q, v.number? = some q ∧ w.number? = some q

/-- Every member of the one is a member of the other, unchanged. -/
def Contains (j out : Json) : Prop := ∀ k v, j.find? k = some v → out.find? k = some v

variable {j j' out : Json} {key k : String} {value : Json}

theorem find?_of_not_isObject (h : j.isObject = false) : j.find? key = none := by
  cases j with
  | object members => simp [isObject] at h
  | null | boolean | unsigned | integer | float | string | array => rfl

@[simp] theorem isObject_ensureObject : j.ensureObject.isObject = true := by
  unfold ensureObject
  split
  · assumption
  · rfl

@[simp] theorem find?_ensureObject : j.ensureObject.find? key = j.find? key := by
  unfold ensureObject
  split
  · rfl
  · next hobject =>
      rw [find?_of_not_isObject (Bool.eq_false_iff.mpr hobject)]
      rfl

@[simp] theorem get_ensureObject : j.ensureObject.get key = j.get key := by
  rw [get, get, find?_ensureObject]

theorem contains_null : Contains null out := by
  intro k v h
  cases h

theorem lookup_setMember {members : List (String × Json)} :
    (setMember key value members).lookup k = if k == key then some value else members.lookup k := by
  induction members with
  | nil =>
      simp only [setMember, List.lookup_cons, List.lookup_nil]
      cases k == key <;> rfl
  | cons member members ih =>
      obtain ⟨k', v⟩ := member
      unfold setMember
      by_cases hkey : key = k'
      · subst hkey
        simp only [beq_self_eq_true, if_true, List.lookup_cons]
        cases k == key <;> rfl
      · rw [if_neg (by simpa using hkey), List.lookup_cons, List.lookup_cons, ih]
        by_cases hk : k = k'
        · subst hk
          have hne : (k == key) = false := by simpa using Ne.symm hkey
          simp [hne]
        · have hne : (k == k') = false := by simpa using hk
          simp [hne]

/-- **A member that is set** in an object. -/
theorem find?_set (h : j.set key value = some j') :
    j'.find? k = if k = key then some value else j.find? k := by
  cases j with
  | null =>
      obtain rfl := Option.some.inj h
      simp only [find?, List.lookup_cons, List.lookup_nil]
      by_cases hk : k = key
      · simp [hk]
      · have hne : (k == key) = false := by simpa using hk
        simp [hne, hk]
  | object members =>
      obtain rfl := Option.some.inj h
      simp [find?, lookup_setMember]
  | boolean | unsigned | integer | float | string | array => cases h

theorem isObject_set (h : j.set key value = some j') : j'.isObject = true := by
  cases j with
  | null | object =>
      obtain rfl := Option.some.inj h
      rfl
  | boolean | unsigned | integer | float | string | array => cases h

/-- A member can be set in `null` and in an object. -/
theorem exists_set_iff :
    (∃ j', j.set key value = some j') ↔ j.isNull = true ∨ j.isObject = true := by
  cases j with
  | null | object => exact iff_of_true ⟨_, rfl⟩ (by simp [isNull, isObject])
  | boolean | unsigned | integer | float | string | array =>
      exact iff_of_false (by rintro ⟨_, ⟨⟩⟩) (by simp [isNull, isObject])

/-- A member that is updated. -/
theorem find?_update {w : Option Json} (h : j.update key w = some j') :
    j'.find? k = if k = key then w.or (j.find? key) else j.find? k := by
  cases w with
  | none =>
      obtain rfl := Option.some.inj h
      split
      · next hk => rw [hk, Option.none_or]
      · rfl
  | some value => exact find?_set h

theorem get_update {w : Option Json} (h : j.update key w = some j') :
    j'.get k = if k = key then w.getD (j.get key) else j.get k := by
  rw [get, get, get, find?_update h]
  split
  · cases w <;> rfl
  · rfl

theorem isObject_update {w : Option Json} (hobject : j.isObject = true)
    (h : j.update key w = some j') : j'.isObject = true := by
  cases w with
  | none =>
      obtain rfl := Option.some.inj h
      exact hobject
  | some value => exact isObject_set h

theorem exists_update (hobject : j.isObject = true) (key : String) (w : Option Json) :
    ∃ j', j.update key w = some j' := by
  cases w with
  | none => exact ⟨j, rfl⟩
  | some value =>
      cases j with
      | object members => exact ⟨_, rfl⟩
      | null | boolean | unsigned | integer | float | string | array => simp [isObject] at hobject

theorem writeAll_cons {put : Put} {rest : List (String × Put)} :
    writeAll j ((key, put) :: rest) = some out ↔
      ∃ w, put (j.get key) = some w ∧ ∃ j', j.update key w = some j' ∧
        writeAll j' rest = some out := by
  simp [writeAll, Option.bind_eq_some_iff]

theorem writeAll_append {puts rest : List (String × Put)} :
    writeAll j (puts ++ rest) = (writeAll j puts).bind fun j => writeAll j rest := by
  induction puts generalizing j with
  | nil => rfl
  | cons entry puts ih =>
      obtain ⟨key, put⟩ := entry
      simp only [List.cons_append, writeAll, Option.bind_eq_bind, Option.bind_assoc, ih]

/-- **Members under other keys** stay as they are. -/
theorem find?_writeAll {puts : List (String × Put)} (h : writeAll j puts = some out)
    (hk : k ∉ puts.map Prod.fst) : out.find? k = j.find? k := by
  induction puts generalizing j with
  | nil =>
      obtain rfl := Option.some.inj h
      rfl
  | cons entry rest ih =>
      obtain ⟨key, put⟩ := entry
      obtain ⟨w, -, j', hupdate, hrest⟩ := writeAll_cons.mp h
      simp only [List.map_cons, List.mem_cons, not_or] at hk
      rw [ih hrest hk.2, find?_update hupdate, if_neg hk.1]

theorem get_writeAll {puts : List (String × Put)} (h : writeAll j puts = some out)
    (hk : k ∉ puts.map Prod.fst) : out.get k = j.get k := by
  rw [get, get, find?_writeAll h hk]

theorem isObject_writeAll {puts : List (String × Put)} (hobject : j.isObject = true)
    (h : writeAll j puts = some out) : out.isObject = true := by
  induction puts generalizing j with
  | nil =>
      obtain rfl := Option.some.inj h
      exact hobject
  | cons entry rest ih =>
      obtain ⟨key, put⟩ := entry
      obtain ⟨w, -, j', hupdate, hrest⟩ := writeAll_cons.mp h
      exact ih (isObject_update hobject hupdate) hrest

/-- Each member is written if it can be. -/
theorem exists_writeAll {puts : List (String × Put)} (hobject : j.isObject = true)
    (hkeys : (puts.map Prod.fst).Nodup) (h : ∀ p ∈ puts, ∃ w, p.2 (j.get p.1) = some w) :
    ∃ out, writeAll j puts = some out := by
  induction puts generalizing j with
  | nil => exact ⟨j, rfl⟩
  | cons entry rest ih =>
      obtain ⟨key, put⟩ := entry
      obtain ⟨hkey, hkeys⟩ := List.nodup_cons.mp hkeys
      obtain ⟨⟨w, hput⟩, hrest⟩ := List.forall_mem_cons.mp h
      obtain ⟨j', hupdate⟩ := exists_update hobject key w
      have hother : ∀ p ∈ rest, j'.get p.1 = j.get p.1 := by
        intro p hp
        have hmem : p.1 ∈ rest.map Prod.fst := List.mem_map_of_mem hp
        have hne : p.1 ≠ key := by
          rintro rfl
          exact hkey hmem
        rw [get_update hupdate, if_neg hne]
      obtain ⟨out, hwrite⟩ := ih (isObject_update hobject hupdate) hkeys fun p hp => by
        rw [hother p hp]
        exact hrest p hp
      exact ⟨out, writeAll_cons.mpr ⟨w, hput, j', hupdate, hwrite⟩⟩

/-- On `null`, the first member that is written makes an object. -/
theorem writeAll_null {puts : List (String × Put)} (hkeys : (puts.map Prod.fst).Nodup)
    (h : ∀ p ∈ puts, ∃ w, p.2 .null = some w) :
    ∃ out, writeAll .null puts = some out ∧ (out.isNull = true ∨ out.isObject = true) ∧
      (out.isObject = true ↔ ∃ p ∈ puts, ∃ v, p.2 .null = some (some v)) := by
  induction puts with
  | nil => exact ⟨.null, rfl, .inl rfl, by simp [isObject]⟩
  | cons entry rest ih =>
      obtain ⟨key, put⟩ := entry
      obtain ⟨hkey, hrestKeys⟩ := List.nodup_cons.mp hkeys
      obtain ⟨⟨w, hput⟩, hrest⟩ := List.forall_mem_cons.mp h
      cases w with
      | none =>
          obtain ⟨out, hwrite, hshape, hiff⟩ := ih hrestKeys hrest
          refine ⟨out, writeAll_cons.mpr ⟨none, hput, .null, rfl, hwrite⟩, hshape, ?_⟩
          rw [hiff]
          constructor
          · rintro ⟨p, hp, hv⟩
            exact ⟨p, List.mem_cons_of_mem _ hp, hv⟩
          · rintro ⟨p, hp, v, hv⟩
            rcases List.mem_cons.mp hp with rfl | hp
            · rw [hput] at hv
              cases hv
            · exact ⟨p, hp, v, hv⟩
      | some v =>
          have hfree : ∀ p ∈ rest, Json.get (.object [(key, v)]) p.1 = .null := by
            intro p hp
            have hmem : p.1 ∈ rest.map Prod.fst := List.mem_map_of_mem hp
            have hne : p.1 ≠ key := by
              intro heq
              rw [heq] at hmem
              exact hkey hmem
            have hother : (p.1 == key) = false := by simpa using hne
            simp [Json.get, Json.find?, List.lookup_cons, hother]
          obtain ⟨out, hwrite⟩ : ∃ out, writeAll (.object [(key, v)]) rest = some out := by
            refine exists_writeAll rfl hrestKeys ?_
            intro p hp
            rw [hfree p hp]
            exact hrest p hp
          have hobject : out.isObject = true := isObject_writeAll rfl hwrite
          exact ⟨out, writeAll_cons.mpr ⟨some v, hput, _, rfl, hwrite⟩, .inr hobject,
            iff_of_true hobject ⟨_, List.mem_cons_self, v, hput⟩⟩

theorem exists_writeAll_null {puts : List (String × Put)} (hkeys : (puts.map Prod.fst).Nodup)
    (h : ∀ p ∈ puts, ∃ w, p.2 .null = some w) : ∃ out, writeAll .null puts = some out := by
  obtain ⟨out, hwrite, -⟩ := writeAll_null hkeys h
  exact ⟨out, hwrite⟩

/-- **A member that was written** among others. -/
theorem get_written {puts : List (String × Put)} {put : Put} (h : writeAll j puts = some out)
    (hkeys : (puts.map Prod.fst).Nodup) (hmem : (key, put) ∈ puts) :
    ∃ w, put (j.get key) = some w ∧ out.get key = w.getD (j.get key) := by
  induction puts generalizing j with
  | nil => cases hmem
  | cons entry rest ih =>
      obtain ⟨key', put'⟩ := entry
      obtain ⟨hkey, hkeys⟩ := List.nodup_cons.mp hkeys
      obtain ⟨w, hput, j', hupdate, hrest⟩ := writeAll_cons.mp h
      rcases List.mem_cons.mp hmem with heq | hmem
      · cases heq
        refine ⟨w, hput, ?_⟩
        rw [get_writeAll hrest hkey, get_update hupdate, if_pos rfl]
      · have hother : key ∈ rest.map Prod.fst := List.mem_map_of_mem hmem
        have hne : key ≠ key' := by
          rintro rfl
          exact hkey hother
        have hget : j'.get key = j.get key := by rw [get_update hupdate, if_neg hne]
        rw [← hget]
        exact ih hrest hkeys hmem

/-- **Members that can be written** into an object: each of them can, into what is there. -/
theorem exists_writeAll_iff {puts : List (String × Put)} (hobject : j.isObject = true)
    (hkeys : (puts.map Prod.fst).Nodup) :
    (∃ out, writeAll j puts = some out) ↔ ∀ p ∈ puts, ∃ w, p.2 (j.get p.1) = some w := by
  constructor
  · rintro ⟨out, hwrite⟩ ⟨key, put⟩ hmem
    obtain ⟨w, hput, -⟩ := get_written hwrite hkeys hmem
    exact ⟨w, hput⟩
  · exact exists_writeAll hobject hkeys

end Ekizu.Lib.Json
