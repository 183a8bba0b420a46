import Ekizu.Components.Slots

/-!
# What is left of a value

A type whose every value is written and read back, perhaps with less: as its normal form.
A record without a member that has to be written is written as null, and so an optional
member with such a record comes back empty.

## Main results

* `NormalForm` for numbers, texts, snowflakes and lists.
* `Fields.written`, `Fields.normalForm` — records.
-/

namespace Ekizu.Components

open Lib Lib.Json

/-- Every value is written, and read back as its normal form.  A `blank` one is written as
null. -/
class NormalForm (A : Type) [Value A] where
  norm : A → A
  blank : A → Bool
  written : ∀ a : A, ∃ out, Value.write a = some out ∧ out.isNull = blank a ∧
    (out.isString = true → (Value.ofText (A := A)).isSome = false) ∧
    Value.get out = some (norm a)
  norm_blank : ∀ a : A, blank a = true → norm a = Value.init

/-- The same of a type of a member.  An `absent` one is not written. -/
class MemberForm (A : Type) [Member A] where
  norm : A → A
  absent : A → Bool
  written : ∀ a : A, ∃ w, Member.put a .null = some w ∧ w.isNone = absent a ∧
    Member.take (w.getD .null) = some (norm a)

section

variable {A : Type} [Value A] [NormalForm A]

instance : MemberForm A where
  norm := NormalForm.norm
  absent _ := false
  written a := by
    obtain ⟨out, hwrite, hblank, htext, hget⟩ := NormalForm.written a
    refine ⟨some out, by simp [Member.put, hwrite], rfl, ?_⟩
    rw [Option.getD_some]
    show (if out.isNull then some Value.init else _) = _
    by_cases hnull : out.isNull = true
    · rw [if_pos hnull, NormalForm.norm_blank a (hblank ▸ hnull)]
    · rw [if_neg hnull, readValue_get htext, hget]
      rfl

instance : MemberForm (Option A) where
  norm o := o.bind fun a => if NormalForm.blank a then none else some (NormalForm.norm a)
  absent o := o.isNone
  written o := by
    cases o with
    | none => exact ⟨none, rfl, rfl, rfl⟩
    | some a =>
        obtain ⟨out, hwrite, hblank, htext, hget⟩ := NormalForm.written a
        refine ⟨some out, by simp [Member.put, hwrite], rfl, ?_⟩
        rw [Option.getD_some]
        show (if out.isNull then some none else _) = some (if _ then none else _)
        rw [← hblank]
        by_cases hnull : out.isNull = true
        · rw [if_pos hnull, if_pos hnull]
        · rw [if_neg hnull, if_neg hnull, readValue_get htext, hget]
          rfl

/-- The elements of a list are written and read one by one. -/
theorem written_list (as : List A) : ∃ outs, as.mapM Value.write = some outs ∧
    outs.mapM Value.get = some (as.map NormalForm.norm) := by
  induction as with
  | nil => exact ⟨[], rfl, rfl⟩
  | cons a as ih =>
      obtain ⟨outs, hwrites, hgets⟩ := ih
      obtain ⟨out, hwrite, -, -, hget⟩ := NormalForm.written a
      exact ⟨out :: outs, by simp [hwrite, hwrites], by simp [hget, hgets]⟩

instance : NormalForm (List A) where
  norm as := as.map NormalForm.norm
  blank _ := false
  written as := by
    obtain ⟨outs, hwrites, hgets⟩ := written_list as
    exact ⟨.array outs, by simp [Value.write, hwrites], rfl, (fun h => nomatch h), hgets⟩
  norm_blank _ h := nomatch h

end

/-- A list that is written and read, element by element. -/
theorem mapM_recode {A : Type} (write : A → Option Json) (get : Json → Option A) (as : List A) :
    (as.mapM fun a => (write a).bind get) = (as.mapM write).bind fun outs => outs.mapM get := by
  induction as with
  | nil => rfl
  | cons a as ih =>
      simp only [List.mapM_cons, Option.bind_eq_bind, Option.pure_def, ih]
      cases hwrite : write a with
      | none => rfl
      | some out =>
          cases hwrites : as.mapM write with
          | none => simp
          | some outs => simp

/-- A type of which everything comes back. -/
class Whole (A : Type) [Value A] [NormalForm A] : Prop where
  norm_eq : ∀ a : A, NormalForm.norm a = a
  not_blank : ∀ a : A, NormalForm.blank a = false

section

variable {A : Type} [Value A] [NormalForm A]

/-- An optional member of a type without blank values. -/
theorem norm_optional (hblank : ∀ a : A, NormalForm.blank a = false) (o : Option A) :
    MemberForm.norm o = o.map NormalForm.norm := by
  cases o with
  | none => rfl
  | some a =>
      show (if NormalForm.blank a = true then none else some (NormalForm.norm a)) = _
      rw [if_neg (by simp [hblank])]
      rfl

/-- An optional member of a type of which only blank values are lost. -/
theorem norm_optional_filter (hnorm : ∀ a : A, NormalForm.norm a = a) (o : Option A) :
    MemberForm.norm o = o.filter fun a => !NormalForm.blank a := by
  cases o with
  | none => rfl
  | some a =>
      show (if NormalForm.blank a = true then none else some (NormalForm.norm a)) = _
      rw [hnorm, Option.filter_some]
      cases NormalForm.blank a with
      | true => rfl
      | false => rfl

variable [Whole A]

theorem norm_whole (a : A) : MemberForm.norm a = a := Whole.norm_eq a

theorem norm_optional_whole (o : Option A) : MemberForm.norm o = o := by
  rw [norm_optional Whole.not_blank, show (NormalForm.norm : A → A) = id from funext Whole.norm_eq,
    Option.map_id]
  rfl

instance : Whole (List A) where
  norm_eq as := by
    show as.map NormalForm.norm = as
    rw [show (NormalForm.norm : A → A) = id from funext Whole.norm_eq, List.map_id]
  not_blank _ := rfl

end

/-! ## Numbers and texts -/

/-- A type that comes back as it was. -/
abbrev NormalForm.ofLawful {A : Type} [Value A] [Lawful A]
    (hbuilt : ∀ a : A, (Lawful.format (A := A)).Built a)
    (heq : ∀ a a' : A, (Lawful.format (A := A)).Agrees a' a → a' = a) : NormalForm A where
  norm a := a
  blank _ := false
  written a := by
    obtain ⟨out, hwrite, hnull, htext, a', hget, hagrees⟩ := restores_value (hbuilt a)
    rw [heq a a' hagrees] at hget
    exact ⟨out, hwrite, hnull, htext, hget⟩
  norm_blank _ h := nomatch h

instance : NormalForm String := .ofLawful (fun _ => trivial) fun _ _ h => h

instance : Whole String := ⟨fun _ => rfl, fun _ => rfl⟩

instance : NormalForm Snowflake := .ofLawful (fun _ => trivial) fun _ _ h => h

instance : Whole Snowflake := ⟨fun _ => rfl, fun _ => rfl⟩

instance : NormalForm Bool := .ofLawful (fun _ => trivial) fun _ _ h => h

instance : Whole Bool := ⟨fun _ => rfl, fun _ => rfl⟩

/-- An enumeration with 8 bits, by its number. -/
structure Enum8 where
  code : UInt8 := 0
  deriving DecidableEq

/-- An enumeration with 32 bits, by its number. -/
structure Enum32 where
  code : UInt32 := 0
  deriving DecidableEq

section

variable [FloatCast]

instance : NormalForm UInt16 := .ofLawful (fun _ => trivial) fun _ _ h => h

instance : Whole UInt16 := ⟨fun _ => rfl, fun _ => rfl⟩

instance : NormalForm UInt64 := .ofLawful (fun _ => trivial) fun _ _ h => h

instance : Whole UInt64 := ⟨fun _ => rfl, fun _ => rfl⟩

instance : Value Enum8 where
  write e := some (.unsigned e.code.toUInt64)
  get j := (getNumber 8 j).map fun n => ⟨n.toUInt8⟩
  init := {}

instance : Value Enum32 where
  write e := some (.unsigned e.code.toUInt64)
  get j := (getNumber 32 j).map fun n => ⟨n.toUInt32⟩
  init := {}

instance : NormalForm Enum8 where
  norm e := e
  blank _ := false
  written e := ⟨_, rfl, rfl, (fun h => nomatch h), getNumber_code Enum8.mk e.code⟩
  norm_blank _ h := nomatch h

instance : NormalForm Enum32 where
  norm e := e
  blank _ := false
  written e := by
    refine ⟨_, rfl, rfl, (fun h => nomatch h), ?_⟩
    have hfits : e.code.toUInt64.toNat < 2 ^ 32 := by
      rw [UInt32.toNat_toUInt64]
      exact e.code.toNat_lt
    show (getNumber 32 _).map _ = _
    rw [getNumber_unsigned hfits, Option.map_some, UInt32.toUInt32_toUInt64]
  norm_blank _ h := nomatch h

instance : Whole Enum8 := ⟨fun _ => rfl, fun _ => rfl⟩

instance : Whole Enum32 := ⟨fun _ => rfl, fun _ => rfl⟩

end

/-! ## Records -/

/-- A member with a normal form, as a slot that restores it. -/
def formSlot {A : Type} [Member A] [MemberForm A] : Slot A where
  put := Member.put
  take := Member.take
  Built _ := True
  Agrees a' a := a' = MemberForm.norm a
  Kept _ _ := True
  Fit v := ∃ a w, Member.take v = some a ∧ Member.put (A := A) a v = some w
  restores a _ := by
    obtain ⟨w, hput, -, htake⟩ := MemberForm.written a
    exact ⟨w, hput, _, htake, rfl⟩
  recodes v := by simp
  kept_null _ := trivial

/-- The members of a record, each of which is restored as its normal form.  `read` is given
what is made of them, one after the other, and `absent` says that none is written. -/
structure Fields (T : Type) extends Members T where
  read : {R : Type} → Json → (T → Option R) → Option R
  norm : T → T
  absent : T → Bool
  nodup : keys.Nodup
  read_eq : ∀ {R : Type} (j : Json) (make : T → Option R), read j make = (take j).bind make
  built : ∀ t, Built t
  norm_of_agrees : ∀ {t' t}, Agrees t' t → t' = norm t
  puts_absent : ∀ t, (∀ p ∈ puts t, p.2 .null = some none) ↔ absent t = true
  writes : ∀ t, ∀ p ∈ puts t, ∃ w, p.2 .null = some w

namespace Fields

variable {A T : Type}

def nil : Fields Unit where
  toMembers := .nil
  read _ make := make ()
  norm t := t
  absent _ := true
  nodup := List.nodup_nil
  read_eq _ _ := rfl
  built _ := trivial
  norm_of_agrees _ := rfl
  puts_absent _ := ⟨fun _ => rfl, fun _ _ h => absurd h List.not_mem_nil⟩
  writes _ _ h := absurd h List.not_mem_nil

/-- One more member. -/
def cons (key : String) [Member A] [MemberForm A] (fs : Fields T)
    (hkey : key ∉ fs.keys := by simp) : Fields (A × T) where
  toMembers := .cons key formSlot fs.toMembers hkey
  read j make := (deserialize j key).bind fun a => fs.read j fun t => make (a, t)
  norm t := (MemberForm.norm t.1, fs.norm t.2)
  absent t := MemberForm.absent t.1 && fs.absent t.2
  nodup := List.nodup_cons.mpr ⟨hkey, fs.nodup⟩
  read_eq j make := by
    show _ = ((Member.take (j.get key)).bind fun a =>
      (fs.take j).bind fun t => some (a, t)).bind make
    simp only [fs.read_eq, Option.bind_assoc, Option.bind_some]
    rfl
  built t := ⟨trivial, fs.built t.2⟩
  norm_of_agrees h := Prod.ext h.1 (fs.norm_of_agrees h.2)
  puts_absent t := by
    obtain ⟨w, hput, habsent, -⟩ := MemberForm.written t.1
    have hfirst : Member.put t.1 .null = some none ↔ MemberForm.absent t.1 = true := by
      rw [hput, Option.some.injEq, ← habsent, Option.isNone_iff_eq_none]
    show (∀ p ∈ (key, Member.put t.1) :: fs.puts t.2, _) ↔ _
    rw [List.forall_mem_cons, hfirst, fs.puts_absent, Bool.and_eq_true]
  writes t := by
    obtain ⟨w, hput, -⟩ := MemberForm.written t.1
    exact List.forall_mem_cons.mpr ⟨⟨w, hput⟩, fs.writes t.2⟩

@[simp] theorem keys_nil : nil.keys = [] := rfl

@[simp] theorem keys_cons {key : String} [Member A] [MemberForm A] {fs : Fields T}
    {hkey : key ∉ fs.keys} : (cons (A := A) key fs hkey).keys = key :: fs.keys := rfl

theorem nodup_puts (fs : Fields T) (t : T) : ((fs.puts t).map Prod.fst).Nodup := by
  rw [fs.puts_keys]
  exact fs.nodup

/-- **Members that were written** are read as their normal forms. -/
theorem read_written (fs : Fields T) {R : Type} {t : T} {out : Json} {make : T → Option R}
    (h : ∀ p ∈ fs.puts t, ∃ w, p.2 .null = some w ∧ out.get p.1 = w.getD .null) :
    fs.read out make = make (fs.norm t) := by
  obtain ⟨out', hwrite, hrest⟩ :=
    fs.restores t (fs.built t) (.object []) rfl fun _ _ => rfl
  have hsame : ∀ k ∈ fs.keys, out.get k = out'.get k := by
    intro k hk
    rw [← fs.puts_keys t] at hk
    obtain ⟨p, hp, rfl⟩ := List.mem_map.mp hk
    obtain ⟨w, hput, hget⟩ := h p hp
    obtain ⟨w', hput', hget'⟩ := get_written hwrite (fs.nodup_puts t) hp
    obtain rfl := Option.some.inj (hput'.symm.trans hput)
    exact hget.trans hget'.symm
  obtain ⟨t', htake, hagrees⟩ := hrest out hsame
  rw [fs.read_eq, htake, Option.bind_some, fs.norm_of_agrees hagrees]

/-- Where none of the members is written there is no object. -/
theorem written (fs : Fields T) (t : T) :
    ∃ out, writeAll .null (fs.puts t) = some out ∧ out.isNull = fs.absent t ∧
      (∀ p ∈ fs.puts t, ∃ w, p.2 .null = some w ∧ out.get p.1 = w.getD .null) := by
  obtain ⟨out, hwrite, hcase, hobject⟩ := writeAll_null (fs.nodup_puts t) (fs.writes t)
  refine ⟨out, hwrite, ?_, ?_⟩
  · have hnull : out.isNull = true ↔ ¬ out.isObject = true := by
      cases out with
      | null | boolean | unsigned | integer | float | string | array | object =>
          simp [isNull, isObject] at hcase ⊢
    rw [Bool.eq_iff_iff, ← fs.puts_absent, hnull, hobject]
    constructor
    · intro hnone p hp
      obtain ⟨w, hw⟩ := fs.writes t p hp
      cases w with
      | none => exact hw
      | some v => exact absurd ⟨p, hp, v, hw⟩ hnone
    · intro hnone hsome
      obtain ⟨p, hp, v, hv⟩ := hsome
      rw [hnone p hp] at hv
      exact absurd hv (by simp)
  · intro p hp
    exact get_written hwrite (fs.nodup_puts t) hp

/-- A record is a type with a normal form. -/
abbrev normalForm {A : Type} [Value A] (fs : Fields T) (fields : A → T) (make : T → A)
    (hwrite : ∀ a, Value.write a = writeAll .null (fs.puts (fields a)))
    (hget : ∀ j, Value.get (A := A) j = fs.read j fun t => some (make t))
    (htext : Value.ofText (A := A) = none)
    (hinit : ∀ a, fs.absent (fields a) = true → make (fs.norm (fields a)) = Value.init) :
    NormalForm A where
  norm a := make (fs.norm (fields a))
  blank a := fs.absent (fields a)
  written a := by
    obtain ⟨out, hout, hnull, hputs⟩ := fs.written (fields a)
    refine ⟨out, (hwrite a).trans hout, hnull, ?_, ?_⟩
    · intro _
      rw [htext]
      rfl
    · rw [hget, fs.read_written hputs]
  norm_blank := hinit

/-- The same where some member is always written. -/
abbrev solid {A : Type} [Value A] (fs : Fields T) (fields : A → T) (make : T → A)
    (hwrite : ∀ a, Value.write a = writeAll .null (fs.puts (fields a)))
    (hget : ∀ j, Value.get (A := A) j = fs.read j fun t => some (make t))
    (htext : Value.ofText (A := A) = none) (hsolid : ∀ a, fs.absent (fields a) = false) :
    NormalForm A where
  norm a := make (fs.norm (fields a))
  blank _ := false
  written a := by
    obtain ⟨out, hout, hnull, hputs⟩ := fs.written (fields a)
    refine ⟨out, (hwrite a).trans hout, hnull.trans (hsolid a), ?_, ?_⟩
    · intro _
      rw [htext]
      rfl
    · rw [hget, fs.read_written hputs]
  norm_blank _ h := nomatch h

end Fields

/-! ## A member written twice -/

theorem setMember_self {key : String} {v : Json} {members : List (String × Json)}
    (h : members.lookup key = some v) : setMember key v members = members := by
  induction members with
  | nil => cases h
  | cons entry members ih =>
      obtain ⟨k, v'⟩ := entry
      rw [List.lookup_cons] at h
      rw [setMember]
      by_cases hk : (key == k) = true
      · rw [hk] at h
        obtain rfl := Option.some.inj h
        rw [if_pos hk]
      · rw [Bool.not_eq_true] at hk
        rw [hk] at h
        rw [if_neg (by simp [hk]), ih h]

/-- A member that is written again as it is changes nothing. -/
theorem writeAll_again {puts : List (String × Put)} {key : String} {put : Put}
    (hkeys : (puts.map Prod.fst).Nodup) (hmem : (key, put) ∈ puts)
    (hconst : ∀ j, put j = put .null) (hnull : put .null ≠ some (some .null)) :
    writeAll .null (puts ++ [(key, put)]) = writeAll .null puts := by
  rw [writeAll_append]
  cases hwrite : writeAll .null puts with
  | none => rfl
  | some out =>
      obtain ⟨w, hput, hget⟩ := get_written hwrite hkeys hmem
      rw [hconst] at hput
      have hupdate : out.update key w = some out := by
        cases w with
        | none => rfl
        | some v =>
            have hfind : out.find? key = some v := by
              change (out.find? key).getD null = v at hget
              cases hfound : out.find? key with
              | none =>
                  rw [hfound] at hget
                  rw [hput, ← show null = v from hget] at hnull
                  exact absurd rfl hnull
              | some v' =>
                  rw [hfound] at hget
                  rw [show v' = v from hget]
            cases out with
            | object members =>
                show some (object (setMember key v members)) = _
                rw [setMember_self hfind]
            | null | boolean | unsigned | integer | float | string | array => cases hfind
      rw [Option.bind_some]
      exact writeAll_cons.mpr ⟨w, (hconst _).trans hput, out, hupdate, rfl⟩

end Ekizu.Components
