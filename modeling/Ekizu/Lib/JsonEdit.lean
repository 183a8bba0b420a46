import Ekizu.Lib.JsonRecord

/-!
# Editing what was decoded

A record that was decoded and edited is written over the document that it was decoded
from, which is still there under what the edit left empty.  The members of the record win
if that document does not show through when the output is decoded: the law of a lens that
what was put is what one gets, of each member over its own old value.

Values are compared by what a function such as a record without its document keeps of
them.

## Main results

* `Members.WinsIff.cons`, `Record.wins_iff` — a record wins if each of its members does.
* `Format.wins_list` — a list wins if each of its elements does.
* `Alternatives.optional_none_iff`, `Alternatives.optional_some_iff`, `Dispatch.wins_iff` —
  the same of a choice.
-/

namespace Ekizu.Lib.Json

variable {A T R V K : Type}

/-- What is written of `a` over `v` is read as `a`, as far as `f` keeps it. -/
def Slot.Wins (m : Slot A) (f : A → A) (v : Json) (a : A) : Prop :=
  ∃ w, m.put a v = some w ∧ ∃ a', m.take (w.getD v) = some a' ∧ f a' = f a

def Members.Wins (ms : Members T) (g : T → T) (base : Json) (t : T) : Prop :=
  ∃ out, writeAll base (ms.puts t) = some out ∧ ∃ t', ms.take out = some t' ∧ g t' = g t

def Format.Wins (format : Format A) (f : A → A) (a : A) : Prop :=
  ∃ out, format.write a = some out ∧ ∃ a', format.get out = some a' ∧ f a' = f a

/-- A member wins over what was there exactly if `C` holds of the two. -/
def Slot.WinsIff (m : Slot A) (f : A → A) (C : Json → A → Prop) : Prop :=
  ∀ v a, m.Wins f v a ↔ C v a

/-- The same of several members, over any object with the members of `j`. -/
def Members.WinsIff (ms : Members T) (g : T → T) (C : Json → T → Prop) : Prop :=
  ∀ base j : Json, base.isObject = true → (∀ k ∈ ms.keys, base.get k = j.get k) →
    ∀ t, ms.Wins g base t ↔ C j t

/-! ## Members and records -/

namespace Members.WinsIff

theorem nil : Members.nil.WinsIff id fun _ _ => True := by
  intro base j _ _ t
  exact iff_of_true ⟨base, rfl, (), rfl, rfl⟩ trivial

variable {key : String} {m : Slot A} {ms : Members T} {hkey : key ∉ ms.keys}
  {f : A → A} {g : T → T} {C : Json → A → Prop} {D : Json → T → Prop}

/-- **Several members win** if each of them does: a member is written under its own key,
and what the others find there stays the same. -/
theorem cons (h : m.WinsIff f C) (hs : ms.WinsIff g D) :
    (Members.cons key m ms hkey).WinsIff (Prod.map f g)
      fun j t => C (j.get key) t.1 ∧ D j t.2 := by
  intro base j hobject hbase t
  have hfirst : base.get key = j.get key := hbase key List.mem_cons_self
  -- after the first write the others stand over an object that has their old members
  have hrest : ∀ {base' : Json} {w : Option Json}, base.update key w = some base' →
      (ms.Wins g base' t.2 ↔ D j t.2) := by
    intro base' w hupdate
    refine hs base' j (isObject_update hobject hupdate) ?_ t.2
    intro k hk
    rw [get_update hupdate, if_neg (by rintro rfl; exact hkey hk)]
    exact hbase k (List.mem_cons_of_mem _ hk)
  have hout : ∀ {base' out : Json} {w : Option Json}, base.update key w = some base' →
      writeAll base' (ms.puts t.2) = some out → out.get key = w.getD (j.get key) := by
    intro base' out w hupdate hwrite
    rw [get_writeAll hwrite (by rwa [ms.puts_keys]), get_update hupdate, if_pos rfl, hfirst]
  dsimp only
  rw [← h (j.get key) t.1]
  constructor
  · intro hwins
    obtain ⟨out, hwrite, t', htake, heq⟩ := hwins
    obtain ⟨w, hput, base', hupdate, hwrite'⟩ := writeAll_cons.mp hwrite
    obtain ⟨a', ha', u', hu', rfl⟩ : ∃ a', m.take (out.get key) = some a' ∧
        ∃ u', ms.take out = some u' ∧ (a', u') = t' := by
      simpa [Members.cons, Option.bind_eq_some_iff] using htake
    obtain ⟨heqFirst, heqRest⟩ := Prod.mk.inj heq
    rw [hout hupdate hwrite'] at ha'
    exact ⟨⟨w, hfirst ▸ hput, a', ha', heqFirst⟩,
      (hrest hupdate).mp ⟨out, hwrite', u', hu', heqRest⟩⟩
  · intro hboth
    obtain ⟨⟨w, hput, a', ha', heqFirst⟩, hwinsRest⟩ := hboth
    obtain ⟨base', hupdate⟩ := exists_update hobject key w
    obtain ⟨out, hwrite, u', hu', heqRest⟩ := (hrest hupdate).mpr hwinsRest
    rw [← hout hupdate hwrite] at ha'
    refine ⟨out, writeAll_cons.mpr ⟨w, hfirst ▸ hput, base', hupdate, hwrite⟩, (a', u'), ?_,
      Prod.ext heqFirst heqRest⟩
    simp [Members.cons, ha', hu']

/-- A member that always wins asks for nothing. -/
theorem skip (h : ∀ v a, m.Wins f v a) (hs : ms.WinsIff g D) :
    (Members.cons key m ms hkey).WinsIff (Prod.map f g) fun j t => D j t.2 := by
  have hfirst : m.WinsIff f fun _ _ => True := fun v a => iff_true_intro (h v a)
  intro base j hobject hbase t
  exact (cons hfirst hs base j hobject hbase t).trans (iff_of_eq (true_and _))

/-- The last member that is not always there. -/
theorem last (h : m.WinsIff f C) (hs : ms.WinsIff g fun _ _ => True) :
    (Members.cons key m ms hkey).WinsIff (Prod.map f g) fun j t => C (j.get key) t.1 := by
  intro base j hobject hbase t
  exact (cons h hs base j hobject hbase t).trans (iff_of_eq (and_true _))

end Members.WinsIff

namespace Record

variable {rec : Record R} {f : R → R} {g : rec.T → rec.T} {C : Json → rec.T → Prop}

/-- The header of what is written. -/
theorem header_toJson {r : R} {out : Json} (h : rec.toJson r = some out) :
    ∀ h ∈ rec.header, out.find? h.1 = some h.2 := by
  obtain ⟨base', -, hputs, hheader, -⟩ :=
    exists_header rec (isObject_ensureObject (j := rec.raw r))
  rw [toJson, hputs] at h
  exact find?_header hheader h

/-- **A record wins over its document** exactly if its members do. -/
theorem wins_iff (h : rec.members.WinsIff g C) (hf : ∀ r, f r = rec.make null (g (rec.fields r)))
    (r : R) : rec.format.Wins f r ↔ C (rec.raw r) (rec.fields r) := by
  obtain ⟨base', hobject, hputs, -, hother⟩ :=
    exists_header rec (isObject_ensureObject (j := rec.raw r))
  have hbase : ∀ k ∈ rec.members.keys, base'.get k = (rec.raw r).get k := by
    intro k hk
    rw [get, hother k (header_ne hk), find?_ensureObject]
    rfl
  have hkeeps : ∀ r', f r' = f r ↔ g (rec.fields r') = g (rec.fields r) := by
    intro r'
    rw [hf, hf]
    constructor
    · intro heq
      have hfields := congrArg rec.fields heq
      rwa [rec.fields_make, rec.fields_make] at hfields
    · intro heq
      rw [heq]
  rw [← h base' (rec.raw r) hobject hbase (rec.fields r)]
  show (∃ out, writeAll _ (rec.puts r) = some out ∧
    ∃ r', (rec.members.take out).map (rec.make out) = some r' ∧ f r' = f r) ↔ _
  rw [hputs]
  constructor
  · intro hwins
    obtain ⟨out, hwrite, r', hfrom, heq⟩ := hwins
    obtain ⟨t', htake, rfl⟩ := Option.map_eq_some_iff.mp hfrom
    rw [hkeeps, rec.fields_make] at heq
    exact ⟨out, hwrite, t', htake, heq⟩
  · intro hwins
    obtain ⟨out, hwrite, t', htake, heq⟩ := hwins
    refine ⟨out, hwrite, rec.make out t', by rw [htake, Option.map_some], ?_⟩
    rwa [hkeeps, rec.fields_make]

end Record

/-! ## Lists -/

namespace Format

variable {format : Format A} {f : A → A}

theorem wins_mapM (as : List A) :
    (∃ outs, as.mapM format.write = some outs ∧
      ∃ as', outs.mapM format.get = some as' ∧ as'.map f = as.map f) ↔
      ∀ a ∈ as, format.Wins f a := by
  induction as with
  | nil =>
      refine iff_of_true ⟨[], rfl, [], rfl, rfl⟩ ?_
      intro a ha
      cases ha
  | cons a as ih =>
      rw [List.forall_mem_cons, ← ih]
      constructor
      · intro hwins
        obtain ⟨outs, hwrites, as', hgets, heq⟩ := hwins
        obtain ⟨out, hout, outs', houts, rfl⟩ : ∃ out, format.write a = some out ∧
            ∃ outs', as.mapM format.write = some outs' ∧ out :: outs' = outs := by
          simpa [List.mapM_cons, Option.bind_eq_some_iff] using hwrites
        obtain ⟨a', ha', rest, hrest, rfl⟩ : ∃ a', format.get out = some a' ∧
            ∃ rest, outs'.mapM format.get = some rest ∧ a' :: rest = as' := by
          simpa [List.mapM_cons, Option.bind_eq_some_iff] using hgets
        obtain ⟨hfirst, heqRest⟩ := List.cons.inj heq
        exact ⟨⟨out, hout, a', ha', hfirst⟩, outs', houts, rest, hrest, heqRest⟩
      · intro hboth
        obtain ⟨⟨out, hout, a', ha', hfirst⟩, outs, houts, rest, hrest, heqRest⟩ := hboth
        refine ⟨out :: outs, by simp [hout, houts], a' :: rest, by simp [ha', hrest], ?_⟩
        rw [List.map_cons, List.map_cons, hfirst, heqRest]

/-- **A list wins** exactly if its elements do. -/
theorem wins_list (as : List A) :
    format.list.Wins (List.map f) as ↔ ∀ a ∈ as, format.Wins f a := by
  rw [← wins_mapM]
  constructor
  · intro hwins
    obtain ⟨out, hwrite, hget⟩ := hwins
    obtain ⟨outs, houts, rfl⟩ := Option.map_eq_some_iff.mp hwrite
    exact ⟨outs, houts, hget⟩
  · intro hwins
    obtain ⟨outs, houts, hget⟩ := hwins
    exact ⟨array outs, Option.map_eq_some_iff.mpr ⟨outs, houts, rfl⟩, hget⟩

/-- A list that is always written replaces the one before. -/
theorem elements_winsIff :
    format.elements.WinsIff (List.map f) fun _ as => ∀ a ∈ as, format.Wins f a := by
  intro v as
  dsimp only
  rw [← wins_mapM]
  constructor
  · intro hwins
    obtain ⟨w, hput, hget⟩ := hwins
    obtain ⟨outs, houts, rfl⟩ := Option.map_eq_some_iff.mp hput
    exact ⟨outs, houts, hget⟩
  · intro hwins
    obtain ⟨outs, houts, hget⟩ := hwins
    exact ⟨some (array outs), Option.map_eq_some_iff.mpr ⟨outs, houts, rfl⟩, hget⟩

/-- A member that is always written replaces the one before. -/
theorem always_winsIff {hnull : ∀ out, format.Kept null out} :
    (format.always hnull).WinsIff f fun _ a => format.Wins f a := by
  intro v a
  constructor
  · intro hwins
    obtain ⟨w, hput, hget⟩ := hwins
    obtain ⟨out, hwrite, rfl⟩ := Option.map_eq_some_iff.mp hput
    exact ⟨out, hwrite, hget⟩
  · intro hwins
    obtain ⟨out, hwrite, hget⟩ := hwins
    exact ⟨some out, Option.map_eq_some_iff.mpr ⟨out, hwrite, rfl⟩, hget⟩

end Format

/-! ## Choices -/

/-- Forgetting goes into an alternative. -/
structure Alternative.Forgets (alt : Alternative K V) (f : V → V) (g : alt.R → alt.R) : Prop where
  inject : ∀ r, f (alt.inject r) = alt.inject (g r)
  injective : Function.Injective alt.inject

namespace Alternatives

variable [DecidableEq K] {alts : Alternatives K V} {f : V → V} {alt : Alternative K V}
  {g : alt.R → alt.R}

theorem kindOf_write (halt : alt ∈ alts.list) {r : alt.R} {out : Json}
    (h : alts.write (alt.inject r) = some out) : alts.kindOf out = some alt.kind := by
  rw [alts.write_inject alt halt] at h
  exact alts.kindOf_header alt halt out (Record.isObject_toJson h) (Record.header_toJson h)

/-- What a record writes is of its kind, so the same record reads it. -/
theorem wins_inject (halt : alt ∈ alts.list) (hforgets : alt.Forgets f g) (r : alt.R) :
    (∃ out, alts.write (alt.inject r) = some out ∧ alts.kindOf out = some alt.kind ∧
      ∃ r', alt.record.fromJson out = some r' ∧ f (alt.inject r') = f (alt.inject r)) ↔
      alt.record.format.Wins g r := by
  have hkeeps : ∀ r', f (alt.inject r') = f (alt.inject r) ↔ g r' = g r := by
    intro r'
    rw [hforgets.inject, hforgets.inject]
    exact hforgets.injective.eq_iff
  have hjson : alts.write (alt.inject r) = alt.record.toJson r := alts.write_inject alt halt r
  constructor
  · intro hwins
    obtain ⟨out, hwrite, -, r', hfrom, heq⟩ := hwins
    exact ⟨out, hjson.symm.trans hwrite, r', hfrom, (hkeeps r').mp heq⟩
  · intro hwins
    obtain ⟨out, hwrite, r', hfrom, heq⟩ := hwins
    have hwrite : alts.write (alt.inject r) = some out := hjson.trans hwrite
    exact ⟨out, hwrite, kindOf_write halt hwrite, r', hfrom, (hkeeps r').mpr heq⟩

variable {hnull : alts.kindOf null = none}

/-- **An empty choice wins** over what is of none of the kinds. -/
theorem optional_none_iff (v : Json) :
    (alts.optional hnull).Wins (Option.map f) v none ↔ (alts.kindOf v).bind alts.find = none := by
  show (∃ w, some none = some w ∧
    ∃ o, (alts.optional hnull).take (w.getD v) = some o ∧ o.map f = none) ↔ _
  simp only [Option.some.injEq, exists_eq_left', Option.getD_none, take_optional]
  cases hfind : (alts.kindOf v).bind alts.find with
  | none => simp
  | some other => simp

/-- **A choice that is made wins** exactly if its record does. -/
theorem optional_some_iff (halt : alt ∈ alts.list) (hforgets : alt.Forgets f g) (v : Json)
    (r : alt.R) :
    (alts.optional hnull).Wins (Option.map f) v (some (alt.inject r)) ↔
      alt.record.format.Wins g r := by
  rw [← wins_inject halt hforgets]
  constructor
  · intro hwins
    obtain ⟨w, hput, o, htake, heq⟩ := hwins
    obtain ⟨out, hwrite, rfl⟩ := Option.map_eq_some_iff.mp hput
    have hkind : alts.kindOf out = some alt.kind := kindOf_write halt hwrite
    rw [Option.getD_some, take_optional, hkind, Option.bind_some, find_kind halt] at htake
    obtain ⟨r', hfrom, rfl⟩ := Option.map_eq_some_iff.mp htake
    exact ⟨out, hwrite, hkind, r', hfrom, Option.some.inj heq⟩
  · intro hwins
    obtain ⟨out, hwrite, hkind, r', hfrom, heq⟩ := hwins
    refine ⟨some out, Option.map_eq_some_iff.mpr ⟨out, hwrite, rfl⟩, some (alt.inject r'), ?_,
      congrArg some heq⟩
    rw [Option.getD_some, take_optional, hkind, Option.bind_some, find_kind halt]
    show (alt.record.fromJson out).map _ = _
    rw [hfrom, Option.map_some]

end Alternatives

/-- **An alternative wins** exactly if its record does. -/
theorem Dispatch.wins_iff [DecidableEq K] {d : Dispatch K V} {f : V → V} {alt : Alternative K V}
    {g : alt.R → alt.R} (halt : alt ∈ d.list) (hforgets : alt.Forgets f g) (r : alt.R) :
    d.format.Wins f (alt.inject r) ↔ alt.record.format.Wins g r := by
  rw [← Alternatives.wins_inject halt hforgets]
  have hdecode : ∀ {out : Json}, d.kindOf out = some alt.kind →
      d.decode out = (alt.record.fromJson out).map alt.inject := by
    intro out hkind
    rw [decode, hkind]
    dsimp only
    rw [Alternatives.find_kind halt]
  constructor
  · intro hwins
    obtain ⟨out, hwrite, c, hget, heq⟩ := hwins
    have hkind : d.kindOf out = some alt.kind := Alternatives.kindOf_write halt hwrite
    rw [show d.format.get = d.decode from rfl, hdecode hkind] at hget
    obtain ⟨r', hfrom, rfl⟩ := Option.map_eq_some_iff.mp hget
    exact ⟨out, hwrite, hkind, r', hfrom, heq⟩
  · intro hwins
    obtain ⟨out, hwrite, hkind, r', hfrom, heq⟩ := hwins
    refine ⟨out, hwrite, alt.inject r', ?_, heq⟩
    rw [show d.format.get = d.decode from rfl, hdecode hkind, hfrom, Option.map_some]

end Ekizu.Lib.Json
