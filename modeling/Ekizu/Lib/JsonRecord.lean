import Ekizu.Lib.JsonObject
import Mathlib.Data.Option.Defs

/-!
# Records as JSON objects

How a type is kept in JSON, with what that keeps: a value that is encoded and decoded
agrees with the one there was before, and a document that is decoded and encoded keeps
what the type knows nothing about, exactly if it fits.  A `Slot` is such a type under a
key, `Members` several of them in a row, a `Record` a structure that keeps the document it
was decoded from, and a `Dispatch` a choice among records by what the document says.

## Main results

* `Members.cons` — slots compose.
* `Record.restores`, `Record.recodes` — what a record restores and keeps.
* `Alternatives.restores`, `Alternatives.recodes` — the same of a choice.
-/

namespace Ekizu.Lib.Json

variable {A T R V K : Type}

/-- A type as the member of an object.  `take` is given `null` where there is none.
`Agrees` relates what was decoded to what was encoded; `Kept` is what of a value is still
there in its place after decoding and encoding, and `Fit` when that succeeds. -/
structure Slot (A : Type) where
  put : A → Put
  take : Json → Option A
  Built : A → Prop
  Agrees : A → A → Prop
  Kept : Json → Json → Prop
  Fit : Json → Prop
  restores : ∀ a, Built a → ∃ w, put a null = some w ∧
    ∃ a', take (w.getD null) = some a' ∧ Agrees a' a
  recodes : ∀ v, (∃ a w, take v = some a ∧ put a v = some w ∧ Kept v (w.getD v)) ↔ Fit v
  kept_null : ∀ out, Kept null out

/-- Several members of an object. -/
structure Members (T : Type) where
  keys : List String
  puts : T → List (String × Put)
  take : Json → Option T
  Built : T → Prop
  Agrees : T → T → Prop
  Kept : Json → Json → Prop
  Fit : Json → Prop
  puts_keys : ∀ t, (puts t).map Prod.fst = keys
  restores : ∀ t, Built t → ∀ base : Json, base.isObject = true →
    (∀ k ∈ keys, base.get k = null) → ∃ out, writeAll base (puts t) = some out ∧
      ∀ j : Json, (∀ k ∈ keys, j.get k = out.get k) → ∃ t', take j = some t' ∧ Agrees t' t
  recodes : ∀ j base : Json, base.isObject = true → (∀ k ∈ keys, base.get k = j.get k) →
    ((∃ t out, take j = some t ∧ writeAll base (puts t) = some out ∧ Kept j out) ↔ Fit j)
  kept_null : ∀ out, Kept null out

namespace Members

/-- No members. -/
def nil : Members Unit where
  keys := []
  puts _ := []
  take _ := some ()
  Built _ := True
  Agrees _ _ := True
  Kept _ _ := True
  Fit _ := True
  puts_keys _ := rfl
  restores _ _ base _ _ := ⟨base, rfl, fun _ _ => ⟨(), rfl, trivial⟩⟩
  recodes _ base _ _ := ⟨fun _ => trivial, fun _ => ⟨(), base, rfl, rfl, trivial⟩⟩
  kept_null _ := trivial

@[simp] theorem keys_nil : nil.keys = [] := rfl

/-- **Slots compose**: one more member, under a key of its own. -/
def cons (key : String) (m : Slot A) (ms : Members T) (hkey : key ∉ ms.keys := by simp) :
    Members (A × T) where
  keys := key :: ms.keys
  puts t := (key, m.put t.1) :: ms.puts t.2
  take j := do
    let a ← m.take (j.get key)
    let t ← ms.take j
    some (a, t)
  Built t := m.Built t.1 ∧ ms.Built t.2
  Agrees t' t := m.Agrees t'.1 t.1 ∧ ms.Agrees t'.2 t.2
  Kept j out := m.Kept (j.get key) (out.get key) ∧ ms.Kept j out
  Fit j := m.Fit (j.get key) ∧ ms.Fit j
  puts_keys t := by rw [List.map_cons, ms.puts_keys]
  kept_null out := ⟨m.kept_null _, ms.kept_null out⟩
  restores t hbuilt base hobject hfree := by
    obtain ⟨w, hput, a', htake, hagrees⟩ := m.restores t.1 hbuilt.1
    obtain ⟨base', hupdate⟩ := exists_update hobject key w
    have hfirst : base.get key = null := hfree key List.mem_cons_self
    have hbase' : ∀ k ∈ ms.keys, base'.get k = null := by
      intro k hk
      rw [get_update hupdate, if_neg (by rintro rfl; exact hkey hk)]
      exact hfree k (List.mem_cons_of_mem _ hk)
    obtain ⟨out, hwrite, hrest⟩ :=
      ms.restores t.2 hbuilt.2 base' (isObject_update hobject hupdate) hbase'
    refine ⟨out, writeAll_cons.mpr ⟨w, hfirst ▸ hput, base', hupdate, hwrite⟩, ?_⟩
    intro j hj
    have hout : out.get key = w.getD null := by
      rw [get_writeAll hwrite (by rwa [ms.puts_keys]), get_update hupdate, if_pos rfl, hfirst]
    obtain ⟨t', ht', hagrees'⟩ := hrest j fun k hk => hj k (List.mem_cons_of_mem _ hk)
    rw [← hout, ← hj key List.mem_cons_self] at htake
    exact ⟨(a', t'), by simp [htake, ht'], hagrees, hagrees'⟩
  recodes j base hobject hbase := by
    have hfirst : base.get key = j.get key := hbase key List.mem_cons_self
    have hframe : ∀ {base' out : Json} {w : Option Json} {t : T},
        base.update key w = some base' → writeAll base' (ms.puts t) = some out →
        out.get key = w.getD (j.get key) := by
      intro base' out w t hupdate hwrite
      rw [get_writeAll hwrite (by rwa [ms.puts_keys]), get_update hupdate, if_pos rfl, hfirst]
    have hbase' : ∀ {base' : Json} {w : Option Json}, base.update key w = some base' →
        ∀ k ∈ ms.keys, base'.get k = j.get k := by
      intro base' w hupdate k hk
      rw [get_update hupdate, if_neg (by rintro rfl; exact hkey hk)]
      exact hbase k (List.mem_cons_of_mem _ hk)
    constructor
    · rintro ⟨t, out, htake, hwrite, hkept, hkept'⟩
      obtain ⟨a, ha, t', ht', rfl⟩ : ∃ a, m.take (j.get key) = some a ∧
          ∃ t', ms.take j = some t' ∧ (a, t') = t := by
        simpa [Option.bind_eq_some_iff] using htake
      obtain ⟨w, hput, base', hupdate, hrest⟩ := writeAll_cons.mp hwrite
      rw [hframe hupdate hrest] at hkept
      rw [hfirst] at hput
      exact ⟨(m.recodes _).mp ⟨a, w, ha, hput, hkept⟩,
        (ms.recodes j base' (isObject_update hobject hupdate) (hbase' hupdate)).mp
          ⟨t', out, ht', hrest, hkept'⟩⟩
    · rintro ⟨hfit, hfit'⟩
      obtain ⟨a, w, ha, hput, hkept⟩ := (m.recodes _).mpr hfit
      obtain ⟨base', hupdate⟩ := exists_update hobject key w
      obtain ⟨t, out, ht, hrest, hkept'⟩ :=
        (ms.recodes j base' (isObject_update hobject hupdate) (hbase' hupdate)).mpr hfit'
      rw [← hframe hupdate hrest] at hkept
      exact ⟨(a, t), out, by simp [ha, ht],
        writeAll_cons.mpr ⟨w, hfirst ▸ hput, base', hupdate, hrest⟩, hkept, hkept'⟩

variable {key : String} {m : Slot A} {ms : Members T} {hkey : key ∉ ms.keys} {j : Json}

@[simp] theorem keys_cons : (cons key m ms hkey).keys = key :: ms.keys := rfl

/-- What is made of members that are read one after the other. -/
theorem map_take_cons (f : A × T → R) :
    ((cons key m ms hkey).take j).map f =
      (m.take (j.get key)).bind fun a => (ms.take j).map fun t => f (a, t) := by
  simp only [cons, Option.bind_eq_bind, Option.map_eq_bind, Option.bind_assoc, Option.bind_some,
    Function.comp_def]

theorem map_take_nil (f : Unit → R) : (nil.take j).map f = some (f ()) := rfl

end Members

/-- A structure that keeps the document it was decoded from (`raw`) and writes its members
over it, after one that is always the same (`header`). -/
structure Record (R : Type) where
  T : Type
  header : Option (String × Json)
  members : Members T
  header_key : ∀ h ∈ header, h.1 ∉ members.keys
  raw : R → Json
  fields : R → T
  make : Json → T → R
  raw_make : ∀ j t, raw (make j t) = j
  fields_make : ∀ j t, fields (make j t) = t

namespace Record

variable (rec : Record R)

def puts (r : R) : List (String × Put) :=
  rec.header.toList.map (fun h => (h.1, constant h.2)) ++ rec.members.puts (rec.fields r)

def toJson (r : R) : Option Json := writeAll (rec.raw r).ensureObject (rec.puts r)

def fromJson (j : Json) : Option R := (rec.members.take j).map (rec.make j)

/-- No document is kept yet. -/
def Built (r : R) : Prop := rec.raw r = null ∧ rec.members.Built (rec.fields r)

/-- The members agree, whatever the documents. -/
def Agrees (r' r : R) : Prop := rec.members.Agrees (rec.fields r') (rec.fields r)

/-- What is not under the key of a member is unchanged, and what is under one is kept. -/
def Kept (j out : Json) : Prop :=
  (∀ k v, k ∉ rec.members.keys → j.find? k = some v → ∃ v', out.find? k = some v' ∧ Same v v') ∧
    rec.members.Kept j out

/-- The header is as the record writes it, if it is there, and the members fit. -/
def Fit (j : Json) : Prop :=
  (∀ h ∈ rec.header, ∀ v, j.find? h.1 = some v → Same v h.2) ∧ rec.members.Fit j

variable {rec}

/-- The header is written first. -/
theorem exists_header (rec : Record R) {base : Json} (hobject : base.isObject = true) :
    ∃ base' : Json, base'.isObject = true ∧
      (∀ r, writeAll base (rec.puts r) = writeAll base' (rec.members.puts (rec.fields r))) ∧
      (∀ h ∈ rec.header, base'.find? h.1 = some h.2) ∧
      ∀ k, (∀ h ∈ rec.header, h.1 ≠ k) → base'.find? k = base.find? k := by
  unfold puts
  cases rec.header with
  | none => exact ⟨base, hobject, fun r => rfl, by simp, fun k _ => rfl⟩
  | some header =>
      obtain ⟨key, value⟩ := header
      obtain ⟨base', hset⟩ := exists_update hobject key (some value)
      refine ⟨base', isObject_update hobject hset, ?_, ?_, ?_⟩
      · intro r
        simp [writeAll, constant, hset]
      · intro h hh
        obtain rfl := Option.some.inj hh
        rw [find?_update hset, if_pos rfl]
        rfl
      · intro k hk
        rw [find?_update hset, if_neg (Ne.symm (hk (key, value) rfl))]

theorem kept_null (out : Json) : rec.Kept null out := by
  refine ⟨?_, rec.members.kept_null out⟩
  intro k v _ h
  cases h

/-- A record is written as an object. -/
theorem isObject_toJson {r : R} {out : Json} (h : rec.toJson r = some out) :
    out.isObject = true :=
  isObject_writeAll isObject_ensureObject h

theorem header_ne {k : String} (hk : k ∈ rec.members.keys) : ∀ h ∈ rec.header, h.1 ≠ k := by
  rintro h hh rfl
  exact rec.header_key h hh hk

/-- The header stays while the members are written. -/
theorem find?_header {base' out : Json} {t : rec.T}
    (hheader : ∀ h ∈ rec.header, base'.find? h.1 = some h.2)
    (hwrite : writeAll base' (rec.members.puts t) = some out) :
    ∀ h ∈ rec.header, out.find? h.1 = some h.2 := by
  intro h hh
  rw [find?_writeAll hwrite (by rw [rec.members.puts_keys]; exact rec.header_key h hh)]
  exact hheader h hh

/-- **A record is restored** from its encoding. -/
theorem restores {r : R} (h : rec.Built r) :
    ∃ out, rec.toJson r = some out ∧ out.isObject = true ∧
      (∀ h ∈ rec.header, out.find? h.1 = some h.2) ∧
      ∃ r', rec.fromJson out = some r' ∧ rec.Agrees r' r := by
  obtain ⟨hraw, hbuilt⟩ := h
  obtain ⟨base', hobject, hputs, hheader, hother⟩ :=
    exists_header rec (isObject_ensureObject (j := null))
  have hfree : ∀ k ∈ rec.members.keys, base'.get k = null := by
    intro k hk
    rw [get, hother k (header_ne hk)]
    rfl
  obtain ⟨out, hwrite, hrest⟩ := rec.members.restores _ hbuilt base' hobject hfree
  obtain ⟨t', htake, hagrees⟩ := hrest out fun _ _ => rfl
  refine ⟨out, ?_, isObject_writeAll hobject hwrite, find?_header hheader hwrite,
    rec.make out t', by rw [fromJson, htake, Option.map_some], ?_⟩
  · rw [toJson, hraw, hputs, hwrite]
  · rw [Agrees, rec.fields_make]
    exact hagrees

/-- **What a record keeps** of a document, exactly if it fits. -/
theorem recodes (j : Json) :
    (∃ r out, rec.fromJson j = some r ∧ rec.toJson r = some out ∧ rec.Kept j out) ↔
      rec.Fit j := by
  obtain ⟨base', hobject, hputs, hheader, hother⟩ :=
    exists_header rec (isObject_ensureObject (j := j))
  have hbase : ∀ k ∈ rec.members.keys, base'.get k = j.get k := by
    intro k hk
    rw [get, hother k (header_ne hk), find?_ensureObject]
    rfl
  have htoJson : ∀ t, rec.toJson (rec.make j t) = writeAll base' (rec.members.puts t) := by
    intro t
    rw [toJson, rec.raw_make, hputs, rec.fields_make]
  constructor
  · rintro ⟨r, out, hfrom, hto, hunknown, hkept⟩
    obtain ⟨t, htake, rfl⟩ := Option.map_eq_some_iff.mp hfrom
    rw [htoJson] at hto
    refine ⟨?_, (rec.members.recodes j base' hobject hbase).mp ⟨t, out, htake, hto, hkept⟩⟩
    intro h hh v hv
    obtain ⟨v', hv', hsame⟩ := hunknown h.1 v (rec.header_key h hh) hv
    rw [find?_header hheader hto h hh] at hv'
    obtain rfl := Option.some.inj hv'
    exact hsame
  · rintro ⟨hfit, hfit'⟩
    obtain ⟨t, out, htake, hwrite, hkept⟩ :=
      (rec.members.recodes j base' hobject hbase).mpr hfit'
    refine ⟨rec.make j t, out, by rw [fromJson, htake, Option.map_some], by rw [htoJson, hwrite],
      ?_, hkept⟩
    intro k v hk hv
    by_cases hhead : ∃ h ∈ rec.header, h.1 = k
    · obtain ⟨h, hh, rfl⟩ := hhead
      exact ⟨h.2, find?_header hheader hwrite h hh, hfit h hh v hv⟩
    · have hne : ∀ h ∈ rec.header, h.1 ≠ k := fun h hh heq => hhead ⟨h, hh, heq⟩
      refine ⟨v, ?_, .inl rfl⟩
      rw [find?_writeAll hwrite (by rwa [rec.members.puts_keys]), hother k hne,
        find?_ensureObject, hv]

end Record

/-- A type with its encoding. -/
structure Format (A : Type) where
  write : A → Option Json
  get : Json → Option A
  Built : A → Prop
  Agrees : A → A → Prop
  Kept : Json → Json → Prop
  Fit : Json → Prop
  restores : ∀ a, Built a → ∃ out, write a = some out ∧ ∃ a', get out = some a' ∧ Agrees a' a
  recodes : ∀ v, (∃ a out, get v = some a ∧ write a = some out ∧ Kept v out) ↔ Fit v

def Record.format (rec : Record R) : Format R where
  write := rec.toJson
  get := rec.fromJson
  Built := rec.Built
  Agrees := rec.Agrees
  Kept := rec.Kept
  Fit := rec.Fit
  restores _ hbuilt := by
    obtain ⟨out, hwrite, -, -, hrest⟩ := Record.restores hbuilt
    exact ⟨out, hwrite, hrest⟩
  recodes := Record.recodes

/-! ## Lists -/

namespace Format

variable {f : Format A}

theorem restores_list {as : List A} (h : ∀ a ∈ as, f.Built a) :
    ∃ outs, as.mapM f.write = some outs ∧
      ∃ as', outs.mapM f.get = some as' ∧ List.Forall₂ f.Agrees as' as := by
  induction as with
  | nil => exact ⟨[], rfl, [], rfl, .nil⟩
  | cons a as ih =>
      obtain ⟨out, hwrite, a', hget, hagrees⟩ := f.restores a (h a List.mem_cons_self)
      obtain ⟨outs, hwrites, as', hgets, hall⟩ := ih fun a ha => h a (List.mem_cons_of_mem _ ha)
      refine ⟨out :: outs, by simp [hwrite, hwrites], a' :: as', by simp [hget, hgets], ?_⟩
      exact .cons hagrees hall

theorem recodes_list (elements : List Json) :
    (∃ as outs, elements.mapM f.get = some as ∧ as.mapM f.write = some outs ∧
        List.Forall₂ f.Kept elements outs) ↔ ∀ v ∈ elements, f.Fit v := by
  induction elements with
  | nil =>
      constructor
      · intro _ v hv
        cases hv
      · intro _
        exact ⟨[], [], rfl, rfl, .nil⟩
  | cons v elements ih =>
      rw [List.forall_mem_cons, ← f.recodes v, ← ih]
      constructor
      · rintro ⟨as, outs, hgets, hwrites, hkept⟩
        obtain ⟨a, ha, as, has, rfl⟩ : ∃ a, f.get v = some a ∧
            ∃ as', elements.mapM f.get = some as' ∧ a :: as' = as := by
          simpa [List.mapM_cons, Option.bind_eq_some_iff] using hgets
        obtain ⟨out, hout, outs, houts, rfl⟩ : ∃ out, f.write a = some out ∧
            ∃ outs', as.mapM f.write = some outs' ∧ out :: outs' = outs := by
          simpa [List.mapM_cons, Option.bind_eq_some_iff] using hwrites
        obtain ⟨hfirst, hrest⟩ := List.forall₂_cons.mp hkept
        exact ⟨⟨a, out, ha, hout, hfirst⟩, as, outs, has, houts, hrest⟩
      · rintro ⟨⟨a, out, ha, hout, hfirst⟩, as, outs, has, houts, hrest⟩
        exact ⟨a :: as, out :: outs, by simp [ha, has], by simp [hout, houts], .cons hfirst hrest⟩

/-- What is kept of the elements of an array. -/
def KeptList (f : Format A) (v out : Json) : Prop :=
  ∀ elements, v = array elements → ∃ outs, out = array outs ∧ List.Forall₂ f.Kept elements outs

variable (f)

/-- **The format of lists**: an array of the elements. -/
def list : Format (List A) where
  write as := (as.mapM f.write).map array
  get
    | array elements => elements.mapM f.get
    | _ => none
  Built as := ∀ a ∈ as, f.Built a
  Agrees := List.Forall₂ f.Agrees
  Kept := f.KeptList
  Fit v := ∃ elements, v = array elements ∧ ∀ e ∈ elements, f.Fit e
  restores as hbuilt := by
    obtain ⟨outs, hwrites, as', hgets, hagrees⟩ := restores_list hbuilt
    exact ⟨array outs, by rw [hwrites, Option.map_some], as', hgets, hagrees⟩
  recodes v := by
    constructor
    · rintro ⟨as, out, hget, hwrite, hkept⟩
      cases v with
      | array elements =>
          obtain ⟨outs, houts, rfl⟩ := Option.map_eq_some_iff.mp hwrite
          obtain ⟨outs', heq, hall⟩ := hkept elements rfl
          obtain rfl := array.inj heq
          exact ⟨elements, rfl, (recodes_list elements).mp ⟨as, outs, hget, houts, hall⟩⟩
      | null | boolean | unsigned | integer | float | string | object => cases hget
    · rintro ⟨elements, rfl, hfit⟩
      obtain ⟨as, outs, hgets, hwrites, hall⟩ := (recodes_list elements).mpr hfit
      refine ⟨as, array outs, hgets, by rw [hwrites, Option.map_some], ?_⟩
      intro elements' heq
      obtain rfl := array.inj heq
      exact ⟨outs, rfl, hall⟩

/-- A member that is always written, and read whatever is there. -/
def always (hnull : ∀ out, f.Kept null out) : Slot A where
  put a _ := (f.write a).map some
  take := f.get
  Built := f.Built
  Agrees := f.Agrees
  Kept := f.Kept
  Fit := f.Fit
  kept_null := hnull
  restores a hbuilt := by
    obtain ⟨out, hwrite, hrest⟩ := f.restores a hbuilt
    exact ⟨some out, by rw [hwrite, Option.map_some], hrest⟩
  recodes v := by
    rw [← f.recodes v]
    constructor
    · rintro ⟨a, w, hget, hput, hkept⟩
      obtain ⟨out, hwrite, rfl⟩ := Option.map_eq_some_iff.mp hput
      exact ⟨a, out, hget, hwrite, hkept⟩
    · rintro ⟨a, out, hget, hwrite, hkept⟩
      exact ⟨a, some out, hget, by rw [hwrite, Option.map_some], hkept⟩

/-- A list that is always written; what is no array has no elements. -/
def elements : Slot (List A) where
  put as _ := (as.mapM f.write).map fun outs => some (array outs)
  take
    | array elements => elements.mapM f.get
    | _ => some []
  Built as := ∀ a ∈ as, f.Built a
  Agrees := List.Forall₂ f.Agrees
  Kept := f.KeptList
  Fit v := ∀ elements, v = array elements → ∀ e ∈ elements, f.Fit e
  kept_null _ _ h := by cases h
  restores as hbuilt := by
    obtain ⟨outs, hwrites, as', hgets, hagrees⟩ := restores_list hbuilt
    exact ⟨some (array outs), by rw [hwrites, Option.map_some], as', hgets, hagrees⟩
  recodes v := by
    cases v with
    | array elements =>
        simp only [array.injEq, forall_eq']
        rw [← recodes_list elements]
        constructor
        · rintro ⟨as, w, hgets, hput, hkept⟩
          obtain ⟨outs, hwrites, rfl⟩ := Option.map_eq_some_iff.mp hput
          obtain ⟨outs', heq, hall⟩ := hkept elements rfl
          obtain rfl := array.inj heq
          exact ⟨as, outs, hgets, hwrites, hall⟩
        · rintro ⟨as, outs, hgets, hwrites, hall⟩
          refine ⟨as, some (array outs), hgets, by rw [hwrites, Option.map_some], ?_⟩
          intro elements' heq
          obtain rfl := array.inj heq
          exact ⟨outs, rfl, hall⟩
    | null | boolean | unsigned | integer | float | string | object =>
        simp only [reduceCtorEq, false_implies, implies_true, iff_true]
        exact ⟨[], some (array []), rfl, rfl, fun _ h => by cases h⟩

end Format

/-! ## Choices -/

/-- A record that a document may be of. -/
structure Alternative (K V : Type) where
  R : Type
  kind : K
  record : Record R
  inject : R → V

/-- The records that a document may be of, one for each kind. -/
structure Alternatives (K V : Type) [DecidableEq K] where
  list : List (Alternative K V)
  kindOf : Json → Option K
  write : V → Option Json
  write_inject : ∀ alt ∈ list, ∀ r, write (alt.inject r) = alt.record.toJson r
  nodup : (list.map Alternative.kind).Nodup
  kindOf_header : ∀ alt ∈ list, ∀ j : Json, j.isObject = true →
    (∀ h ∈ alt.record.header, j.find? h.1 = some h.2) → kindOf j = some alt.kind

namespace Alternatives

variable [DecidableEq K] (alts : Alternatives K V)

/-- The record of a kind. -/
def find (k : K) : Option (Alternative K V) := alts.list.find? fun alt => alt.kind = k

variable {alts}

theorem find_kind {alt : Alternative K V} (h : alt ∈ alts.list) :
    alts.find alt.kind = some alt := by
  have hpairwise : alts.list.Pairwise fun a b => a.kind ≠ b.kind :=
    List.pairwise_map.mp alts.nodup
  unfold find
  generalize alts.list = list at h hpairwise
  induction list with
  | nil => cases h
  | cons first rest ih =>
      obtain ⟨hfirst, hrest⟩ := List.pairwise_cons.mp hpairwise
      rcases List.mem_cons.mp h with rfl | h
      · simp
      · rw [List.find?_cons_of_neg (by simpa using hfirst alt h)]
        exact ih h hrest

theorem mem_of_find {k : K} {alt : Alternative K V} (h : alts.find k = some alt) :
    alt ∈ alts.list ∧ alt.kind = k :=
  ⟨List.mem_of_find?_eq_some h, by simpa using List.find?_some h⟩

/-- **A record that was chosen** is restored, and chosen again. -/
theorem restores {alt : Alternative K V} (h : alt ∈ alts.list) {r : alt.R}
    (hbuilt : alt.record.Built r) :
    ∃ out, alts.write (alt.inject r) = some out ∧ alts.kindOf out = some alt.kind ∧
      ∃ r', alt.record.fromJson out = some r' ∧ alt.record.Agrees r' r := by
  obtain ⟨out, hwrite, hobject, hheader, hrest⟩ := Record.restores hbuilt
  exact ⟨out, (alts.write_inject alt h r).trans hwrite,
    alts.kindOf_header alt h out hobject hheader, hrest⟩

/-- **What a record that is chosen keeps**, exactly if it fits. -/
theorem recodes {k : K} {alt : Alternative K V} (h : alts.find k = some alt) (v : Json) :
    (∃ c out, (alt.record.fromJson v).map alt.inject = some c ∧ alts.write c = some out ∧
        alt.record.Kept v out) ↔ alt.record.Fit v := by
  rw [← Record.recodes v]
  constructor
  · rintro ⟨c, out, hget, hwrite, hkept⟩
    obtain ⟨r, hr, rfl⟩ := Option.map_eq_some_iff.mp hget
    rw [alts.write_inject alt (mem_of_find h).1] at hwrite
    exact ⟨r, out, hr, hwrite, hkept⟩
  · rintro ⟨r, out, hr, hwrite, hkept⟩
    refine ⟨alt.inject r, out, by rw [hr, Option.map_some], ?_, hkept⟩
    rw [alts.write_inject alt (mem_of_find h).1, hwrite]

/-- **An optional member of one of the kinds**; what is of none of them is left alone. -/
def optional (alts : Alternatives K V) (hnull : alts.kindOf null = none) : Slot (Option V) where
  put
    | none, _ => some none
    | some c, _ => (alts.write c).map some
  take v :=
    match (alts.kindOf v).bind alts.find with
    | some alt => (alt.record.fromJson v).map fun r => some (alt.inject r)
    | none => some none
  Built o := ∀ c ∈ o, ∃ alt ∈ alts.list, ∃ r, c = alt.inject r ∧ alt.record.Built r
  Agrees := Option.Rel fun c' c => ∃ alt ∈ alts.list, ∃ r' r,
    c' = alt.inject r' ∧ c = alt.inject r ∧ alt.record.Agrees r' r
  Kept v out :=
    match (alts.kindOf v).bind alts.find with
    | some alt => alt.record.Kept v out
    | none => v ≠ null → out = v
  Fit v := ∀ alt, (alts.kindOf v).bind alts.find = some alt → alt.record.Fit v
  kept_null out := by
    rw [hnull]
    exact fun h => absurd rfl h
  restores o hbuilt := by
    cases o with
    | none => exact ⟨none, rfl, none, by simp [hnull], .none⟩
    | some c =>
        obtain ⟨alt, halt, r, rfl, hr⟩ := hbuilt c rfl
        obtain ⟨out, hwrite, hkind, r', hfrom, hagrees⟩ := restores halt hr
        refine ⟨some out, by simp [hwrite], some (alt.inject r'), ?_,
          .some ⟨alt, halt, r', r, rfl, rfl, hagrees⟩⟩
        simp [hkind, find_kind halt, hfrom]
  recodes v := by
    cases hfind : (alts.kindOf v).bind alts.find with
    | none =>
        simp only [reduceCtorEq, false_implies, implies_true, iff_true]
        exact ⟨none, none, rfl, rfl, fun _ => rfl⟩
    | some alt =>
        obtain ⟨k, -, hk⟩ := Option.bind_eq_some_iff.mp hfind
        simp only [Option.some.injEq, forall_eq']
        rw [← recodes hk v]
        constructor
        · rintro ⟨o, w, hget, hput, hkept⟩
          obtain ⟨r, hr, rfl⟩ := Option.map_eq_some_iff.mp hget
          obtain ⟨out, hwrite, rfl⟩ := Option.map_eq_some_iff.mp hput
          exact ⟨alt.inject r, out, by rw [hr, Option.map_some], hwrite, hkept⟩
        · rintro ⟨c, out, hget, hwrite, hkept⟩
          obtain ⟨r, hr, rfl⟩ := Option.map_eq_some_iff.mp hget
          exact ⟨some (alt.inject r), some out, by simp [hr], by simp [hwrite], hkept⟩

theorem take_optional (hnull : alts.kindOf null = none) (v : Json) :
    (alts.optional hnull).take v =
      match (alts.kindOf v).bind alts.find with
      | some alt => (alt.record.fromJson v).map fun r => some (alt.inject r)
      | none => some none := rfl

end Alternatives

/-- A choice, with what stands for a document of no kind (`typeless`, encoded as `blank`),
and what stands for one of a kind with no record: a value that keeps the document
(`unknown`), or the same. -/
structure Dispatch (K V : Type) [DecidableEq K] extends Alternatives K V where
  typeless : V
  blank : Json
  write_typeless : write typeless = some blank
  unknown : Option (K → Json → V)
  write_unknown : ∀ keep ∈ unknown, ∀ k j, kindOf j = some k → write (keep k j) = some j
  write_fresh : ∀ keep ∈ unknown, ∀ k, ∃ out, write (keep k null) = some out ∧ kindOf out = some k
  kindOf_blank : unknown = none → ∃ alt ∈ list, kindOf blank = some alt.kind

namespace Dispatch

variable [DecidableEq K] (d : Dispatch K V)

def decode (j : Json) : Option V :=
  match d.kindOf j with
  | none => some d.typeless
  | some k =>
      match d.find k with
      | some alt => (alt.record.fromJson j).map alt.inject
      | none =>
          match d.unknown with
          | some keep => some (keep k j)
          | none => some d.typeless

/-- One of the records, with no document kept yet, or an unknown kind. -/
def Built (c : V) : Prop :=
  (∃ alt ∈ d.list, ∃ r, c = alt.inject r ∧ alt.record.Built r) ∨
    ∃ keep ∈ d.unknown, ∃ k, c = keep k null ∧ d.find k = none

/-- The same alternative with members that agree, or the same unknown kind. -/
def Agrees (c' c : V) : Prop :=
  (∃ alt ∈ d.list, ∃ r' r, c' = alt.inject r' ∧ c = alt.inject r ∧ alt.record.Agrees r' r) ∨
    ∃ keep ∈ d.unknown, ∃ k j' j, c' = keep k j' ∧ c = keep k j

/-- The members of a document that no record is for, those of a document without a kind,
and what the record that is chosen keeps. -/
def Kept (v out : Json) : Prop :=
  match d.kindOf v with
  | none => Contains v out
  | some k =>
      match d.find k with
      | some alt => alt.record.Kept v out
      | none => out = v

def Fit (v : Json) : Prop :=
  match d.kindOf v with
  | none => Contains v d.blank
  | some k =>
      match d.find k with
      | some alt => alt.record.Fit v
      | none => d.unknown ≠ none

variable {d}

theorem restores (c : V) (h : d.Built c) :
    ∃ out, d.write c = some out ∧ ∃ c', d.decode out = some c' ∧ d.Agrees c' c := by
  rcases h with ⟨alt, halt, r, rfl, hbuilt⟩ | ⟨keep, hkeep, k, rfl, hnone⟩
  · obtain ⟨out, hwrite, hkind, r', hfrom, hagrees⟩ := Alternatives.restores halt hbuilt
    refine ⟨out, hwrite, alt.inject r', ?_, .inl ⟨alt, halt, r', r, rfl, rfl, hagrees⟩⟩
    simp [decode, hkind, Alternatives.find_kind halt, hfrom]
  · obtain ⟨out, hwrite, hkind⟩ := d.write_fresh keep hkeep k
    have hunknown : d.unknown = some keep := hkeep
    refine ⟨out, hwrite, keep k out, ?_, .inr ⟨keep, hkeep, k, out, null, rfl, rfl⟩⟩
    simp [decode, hkind, hnone, hunknown]

theorem recodes (v : Json) :
    (∃ c out, d.decode v = some c ∧ d.write c = some out ∧ d.Kept v out) ↔ d.Fit v := by
  unfold decode Kept Fit
  cases hkind : d.kindOf v with
  | none =>
      constructor
      · rintro ⟨c, out, hc, hwrite, hkept⟩
        obtain rfl := Option.some.inj hc
        rw [d.write_typeless] at hwrite
        exact Option.some.inj hwrite ▸ hkept
      · intro hfit
        exact ⟨d.typeless, d.blank, rfl, d.write_typeless, hfit⟩
  | some k =>
      dsimp only
      cases halt : d.find k with
      | some alt => exact Alternatives.recodes halt v
      | none =>
          cases hunknown : d.unknown with
          | some keep =>
              simp only [ne_eq, reduceCtorEq, not_false_eq_true, iff_true]
              exact ⟨keep k v, v, rfl, d.write_unknown keep hunknown k v hkind, rfl⟩
          | none =>
              simp only [ne_eq, not_true_eq_false, iff_false]
              rintro ⟨c, out, hc, hwrite, rfl⟩
              obtain rfl := Option.some.inj hc
              rw [d.write_typeless] at hwrite
              obtain rfl := Option.some.inj hwrite
              -- what stands for the document is itself of a kind with a record
              obtain ⟨alt, hmem, hblank⟩ := d.kindOf_blank hunknown
              obtain rfl := Option.some.inj (hkind.symm.trans hblank)
              rw [Alternatives.find_kind hmem] at halt
              cases halt

theorem kept_null (hnull : d.kindOf null = none) (out : Json) : d.Kept null out := by
  unfold Kept
  rw [hnull]
  exact contains_null

def format : Format V where
  write := d.write
  get := d.decode
  Built := d.Built
  Agrees := d.Agrees
  Kept := d.Kept
  Fit := d.Fit
  restores := restores
  recodes := recodes

end Dispatch

end Ekizu.Lib.Json
