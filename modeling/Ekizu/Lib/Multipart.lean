import Mathlib.Data.List.DropRight
import Mathlib.Data.List.Infix
import Mathlib.Data.List.TakeWhile
import Mathlib.Tactic.Common

/-!
# Multipart bodies

A parser of `multipart/form-data`: the boundary of a `Content-Type`, the body parts
between the lines that begin with it, and the fields of a body part with their
parameters.  Lines end with CRLF, folded fields are unfolded, and a parameter is a token
or a quoted string with its escapes.

## Main results

* `lines_append`, `unlines_lines` — a text as its lines.
* `parts_append`, `parts_head` — the lines of a body part end where a line begins with the
  boundary.
* `quoted_iff` — which texts stand for themselves between quotes.
-/

namespace Ekizu.Lib.Multipart

abbrev Text := List UInt8

/-- The bytes of an ASCII text. -/
def ascii (s : String) : Text := s.toList.map fun c => c.toNat.toUInt8

def crlf : Text := [13, 10]

/-! ## Lines -/

/-- The lines of a text, between the CRLFs. -/
def lines : Text → List Text
  | [] => [[]]
  | 13 :: 10 :: rest => [] :: lines rest
  | b :: rest =>
      match lines rest with
      | [] => [[b]]
      | line :: more => (b :: line) :: more

/-- The text with these lines. -/
def unlines : List Text → Text
  | [] => []
  | [line] => line
  | line :: more => line ++ crlf ++ unlines more

/-- No line ends within the text. -/
def OneLine (text : Text) : Prop := ¬ crlf <:+: text

instance (text : Text) : Decidable (OneLine text) := inferInstanceAs (Decidable (¬ _))

section

variable {line rest : Text} {x : UInt8} {more : List Text}

theorem lines_ne_nil (text : Text) : lines text ≠ [] := by
  fun_cases lines text with
  | case1 => simp
  | case2 rest => simp
  | case3 x rest hend heq => simp
  | case4 x rest hend line more heq => simp

theorem lines_cons (hend : ¬ (x = 13 ∧ rest.head? = some 10)) (h : lines rest = line :: more) :
    lines (x :: rest) = (x :: line) :: more := by
  rw [lines.eq_3, h]
  rintro tail rfl rfl
  exact hend ⟨rfl, rfl⟩

end

/-- **The lines of a text and of what follows its last line.** -/
theorem lines_append (a b : Text) : lines (a ++ crlf ++ b) = lines a ++ lines b := by
  induction a using lines.induct with
  | case1 => rfl
  | case2 rest ih =>
      show [] :: lines (rest ++ crlf ++ b) = [] :: (lines rest ++ lines b)
      rw [ih]
  | case3 x rest hend heq ih => exact absurd heq (lines_ne_nil rest)
  | case4 x rest hend line more heq ih =>
      have hend' : ¬ (x = 13 ∧ rest.head? = some 10) := by
        rintro ⟨rfl, hhead⟩
        obtain ⟨tail, rfl⟩ := List.head?_eq_some_iff.mp hhead
        exact hend tail rfl rfl
      have hends : ¬ (x = 13 ∧ (rest ++ crlf ++ b).head? = some 10) := by
        rintro ⟨rfl, hhead⟩
        cases rest with
        | nil => cases hhead
        | cons y rest => exact hend' ⟨rfl, hhead⟩
      rw [lines_cons hend' heq]
      rw [heq] at ih
      exact lines_cons hends ih

theorem oneLine_of_not_mem {text : Text} (h : 13 ∉ text) : OneLine text := by
  intro hwithin
  exact h (hwithin.subset List.mem_cons_self)

theorem unlines_cons {line : Text} {more : List Text} (h : more ≠ []) :
    unlines (line :: more) = line ++ crlf ++ unlines more := by
  cases more with
  | nil => exact absurd rfl h
  | cons next more => rfl

@[simp] theorem unlines_lines (text : Text) : unlines (lines text) = text := by
  induction text using lines.induct with
  | case1 => rfl
  | case2 rest ih =>
      show unlines ([] :: lines rest) = _
      rw [unlines_cons (lines_ne_nil rest), ih]
      rfl
  | case3 x rest hend heq ih => exact absurd heq (lines_ne_nil rest)
  | case4 x rest hend line more heq ih =>
      rw [lines.eq_3 _ _ hend, heq]
      rw [heq] at ih
      cases more with
      | nil =>
          show x :: line = x :: rest
          rw [show line = rest from ih]
      | cons next more =>
          rw [unlines_cons (List.cons_ne_nil _ _)] at ih ⊢
          rw [List.cons_append, List.cons_append, ih]

theorem crlf_start_cons {x : UInt8} {rest : Text} :
    crlf <+: x :: rest ↔ x = 13 ∧ rest.head? = some 10 := by
  cases rest with
  | nil => simp [crlf]
  | cons y rest => simp [crlf, eq_comm]

theorem OneLine.sub {text part : Text} (h : OneLine text) (hpart : part <:+: text) :
    OneLine part :=
  fun hcrlf => h (hcrlf.trans hpart)

theorem OneLine.lines_eq {text : Text} (h : OneLine text) : lines text = [text] := by
  induction text with
  | nil => rfl
  | cons x rest ih =>
      have hrest : OneLine rest := h.sub (List.suffix_cons x rest).isInfix
      have hend : ¬ (x = 13 ∧ rest.head? = some 10) := by
        intro hend
        exact h (crlf_start_cons.mpr hend).isInfix
      exact lines_cons hend (ih hrest)

theorem OneLine.cons {x : UInt8} {text : Text} (h : OneLine text) (hx : x ≠ 13) :
    OneLine (x :: text) := by
  intro hwithin
  rcases List.infix_cons_iff.mp hwithin with hstart | hwithin
  · exact hx (crlf_start_cons.mp hstart).1
  · exact h hwithin

/-- A line and those after it. -/
theorem OneLine.lines_append {line : Text} (h : OneLine line) (rest : Text) :
    lines (line ++ crlf ++ rest) = line :: lines rest := by
  rw [Multipart.lines_append, h.lines_eq]
  rfl

theorem oneLine_nil : OneLine [] := by simp [OneLine, crlf]

theorem oneLine_of_mem_lines {text line : Text} (h : line ∈ lines text) : OneLine line := by
  induction text using lines.induct generalizing line with
  | case1 =>
      obtain rfl := List.mem_singleton.mp h
      exact oneLine_nil
  | case2 rest ih =>
      rcases List.mem_cons.mp h with rfl | h
      · exact oneLine_nil
      · exact ih h
  | case3 x rest hend heq ih => exact absurd heq (lines_ne_nil rest)
  | case4 x rest hend first more heq ih =>
      rw [lines.eq_3 _ _ hend, heq] at h
      rw [heq] at ih
      rcases List.mem_cons.mp h with rfl | h
      · intro hwithin
        rcases List.infix_cons_iff.mp hwithin with hstart | hwithin
        · obtain ⟨rfl, hhead⟩ := crlf_start_cons.mp hstart
          obtain ⟨tail, rfl⟩ := List.head?_eq_some_iff.mp hhead
          -- the line is what the text begins with
          have hrest := unlines_lines rest
          rw [heq] at hrest
          cases more with
          | nil => exact hend tail rfl hrest.symm
          | cons next more => exact hend _ rfl hrest.symm
        · exact ih List.mem_cons_self hwithin
      · exact ih (List.mem_cons_of_mem _ h)

theorem unlines_append {kept dropped : List Text} (hkept : kept ≠ []) (hdropped : dropped ≠ []) :
    unlines (kept ++ dropped) = unlines kept ++ crlf ++ unlines dropped := by
  induction kept with
  | nil => exact absurd rfl hkept
  | cons line kept ih =>
      cases kept with
      | nil => exact unlines_cons hdropped
      | cons next kept =>
          rw [List.cons_append, unlines_cons (by simp), ih (by simp),
            unlines_cons (List.cons_ne_nil _ _)]
          simp only [List.append_assoc]

/-- **A text is not the text of fewer of its lines.** -/
theorem forall_of_unlines_takeWhile {p : Text → Bool} {text : Text} (hnil : p [] = true)
    (h : unlines ((lines text).takeWhile p) = text) : ∀ line ∈ lines text, p line = true := by
  rw [← List.dropWhile_eq_nil_iff]
  by_contra hdropped
  have hsplit : (lines text).takeWhile p ++ (lines text).dropWhile p = lines text :=
    List.takeWhile_append_dropWhile
  by_cases hkept : (lines text).takeWhile p = []
  · rw [hkept] at h
    obtain rfl : [] = text := h
    exact hdropped (List.dropWhile_eq_nil_iff.mpr (by simpa [lines] using hnil))
  · have htext := unlines_append hkept hdropped
    rw [hsplit, unlines_lines, h] at htext
    have hlength := congrArg List.length htext
    simp only [List.length_append, crlf, List.length_cons, List.length_nil] at hlength
    omega

/-! ## Body parts -/

/-- `dash-boundary`. -/
def dashBoundary (boundary : Text) : Text := [45, 45] ++ boundary

/-- A line that begins with the boundary is a delimiter, whatever follows. -/
def isDelimiter (boundary line : Text) : Bool := (dashBoundary boundary).isPrefixOf line

/-- The last delimiter. -/
def isClose (boundary line : Text) : Bool := (dashBoundary boundary ++ [45, 45]).isPrefixOf line

/-- The lines of the body parts, from within the first one; what comes after the last
delimiter is ignored. -/
def parts (boundary : Text) : List Text → Option (List (List Text))
  | [] => none
  | line :: rest =>
      if isDelimiter boundary line then
        if isClose boundary line then some [[]]
        else (parts boundary rest).map fun groups => [] :: groups
      else
        match parts boundary rest with
        | some (group :: groups) => some ((line :: group) :: groups)
        | _ => none

/-- The body parts of a body; what comes before the first delimiter is ignored. -/
def bodyParts (boundary body : Text) : Option (List (List Text)) :=
  match (lines body).dropWhile fun line => !isDelimiter boundary line with
  | [] => none
  | first :: rest => if isClose boundary first then some [] else parts boundary rest

section

variable {boundary line : Text} {group : List Text}

theorem isDelimiter_iff : isDelimiter boundary line = true ↔ dashBoundary boundary <+: line :=
  List.isPrefixOf_iff_prefix

theorem isClose_iff :
    isClose boundary line = true ↔ dashBoundary boundary ++ [45, 45] <+: line :=
  List.isPrefixOf_iff_prefix

theorem isDelimiter_of_isClose (h : isClose boundary line = true) :
    isDelimiter boundary line = true :=
  isDelimiter_iff.mpr ((List.prefix_append _ _).trans (isClose_iff.mp h))

theorem isDelimiter_dashBoundary : isDelimiter boundary (dashBoundary boundary) = true :=
  isDelimiter_iff.mpr List.prefix_rfl

theorem isClose_dashBoundary : isClose boundary (dashBoundary boundary) = false := by
  rw [Bool.eq_false_iff]
  intro h
  have hlength := (isClose_iff.mp h).length_le
  rw [List.length_append, List.length_cons] at hlength
  omega

theorem isClose_close : isClose boundary (dashBoundary boundary ++ [45, 45]) = true :=
  isClose_iff.mpr List.prefix_rfl

/-- A line that begins with something else. -/
theorem isDelimiter_cons {x : UInt8} {rest : Text} (h : x ≠ 45) :
    isDelimiter boundary (x :: rest) = false := by
  rw [Bool.eq_false_iff]
  intro hdelimiter
  obtain ⟨hx, -⟩ := List.cons_prefix_cons.mp (isDelimiter_iff.mp hdelimiter)
  exact h hx.symm

theorem isDelimiter_nil : isDelimiter boundary [] = false := rfl

/-- **The lines of a body part** end at the next delimiter. -/
theorem parts_append (h : ∀ l ∈ group, isDelimiter boundary l = false)
    (hline : isDelimiter boundary line = true) (rest : List Text) :
    parts boundary (group ++ line :: rest) =
      if isClose boundary line then some [group]
      else (parts boundary rest).map fun groups => group :: groups := by
  induction group with
  | nil =>
      show parts boundary (line :: rest) = _
      rw [parts, if_pos hline]
  | cons l group ih =>
      obtain ⟨hl, hgroup⟩ := List.forall_mem_cons.mp h
      show parts boundary (l :: (group ++ line :: rest)) = _
      rw [parts, if_neg (by simp [hl]), ih hgroup]
      by_cases hclose : isClose boundary line = true
      · rw [if_pos hclose, if_pos hclose]
      · rw [if_neg hclose, if_neg hclose]
        cases parts boundary rest <;> rfl

/-- The lines of the first body part are those before the first delimiter. -/
theorem parts_head {ls : List Text} {groups : List (List Text)}
    (h : parts boundary ls = some (group :: groups)) :
    group = ls.takeWhile fun l => !isDelimiter boundary l := by
  induction ls generalizing group groups with
  | nil => cases h
  | cons l ls ih =>
      unfold parts at h
      by_cases hl : isDelimiter boundary l = true
      · rw [if_pos hl] at h
        rw [List.takeWhile_cons_of_neg (by simp [hl])]
        by_cases hclose : isClose boundary l = true
        · rw [if_pos hclose] at h
          obtain ⟨rfl, -⟩ := List.cons.inj (Option.some.inj h)
          rfl
        · rw [if_neg hclose] at h
          obtain ⟨gs, -, hgs⟩ := Option.map_eq_some_iff.mp h
          obtain ⟨rfl, -⟩ := List.cons.inj hgs
          rfl
      · rw [if_neg hl] at h
        rw [List.takeWhile_cons_of_pos (by simpa using hl)]
        cases hrest : parts boundary ls with
        | none =>
            rw [hrest] at h
            cases h
        | some gs =>
            rw [hrest] at h
            cases gs with
            | nil => cases h
            | cons g gs =>
                obtain ⟨rfl, -⟩ := List.cons.inj (Option.some.inj h)
                rw [ih hrest]

/-- The first line is a delimiter. -/
theorem bodyParts_cons {body : Text} {rest : List Text}
    (h : lines body = dashBoundary boundary :: rest) :
    bodyParts boundary body = parts boundary rest := by
  have hfirst : (lines body).dropWhile (fun line => !isDelimiter boundary line) =
      dashBoundary boundary :: rest := by
    rw [h, List.dropWhile_cons_of_neg (by simp [isDelimiter_dashBoundary])]
  rw [bodyParts, hfirst]
  show (if isClose boundary (dashBoundary boundary) = true then _ else _) = _
  rw [isClose_dashBoundary]
  rfl

end

/-! ## Fields -/

/-- A blank or a tab. -/
def isBlank (b : UInt8) : Bool := b = 32 || b = 9

/-- Without the blanks around it. -/
def trim (text : Text) : Text := (text.dropWhile isBlank).rdropWhile isBlank

/-- The lines of the header and those of the content, which an empty line separates. -/
def splitHead : List Text → List Text × List Text
  | [] => ([], [])
  | [] :: rest => ([], rest)
  | line :: rest => (line :: (splitHead rest).1, (splitHead rest).2)

/-- The first line with those that continue it, and the others. -/
def continued (line : Text) : List Text → Text × List Text
  | [] => (line, [])
  | next :: rest =>
      if (next.head?.map isBlank).getD false then continued (line ++ next) rest
      else (line, next :: rest)

theorem trim_within (text : Text) : trim text <:+: text :=
  (List.rdropWhile_prefix _ _).isInfix.trans (List.dropWhile_suffix _).isInfix

theorem trim_trim (text : Text) : trim (trim text) = trim text := by
  have hstart : trim text <+: text.dropWhile isBlank := List.rdropWhile_prefix _ _
  have hfirst : (trim text).dropWhile isBlank = trim text := by
    cases htrim : trim text with
    | nil => rfl
    | cons x rest =>
        rw [htrim] at hstart
        obtain ⟨tail, htail⟩ := hstart
        refine List.dropWhile_cons_of_neg ?_
        have hdrop : 0 < (text.dropWhile isBlank).length := by
          rw [← htail]
          exact Nat.succ_pos _
        have hnot := List.dropWhile_get_zero_not isBlank text hdrop
        simpa [← htail] using hnot
  rw [trim, hfirst]
  exact List.rdropWhile_idempotent _ _

/-- A text that begins and ends with no blank. -/
theorem trim_eq {b c : UInt8} {text : Text} (hb : isBlank b = false) (hc : isBlank c = false) :
    trim (b :: (text ++ [c])) = b :: (text ++ [c]) := by
  rw [trim, List.dropWhile_cons_of_neg (by simp [hb]), ← List.cons_append]
  exact List.rdropWhile_concat_neg _ _ _ (by simp [hc])

theorem length_continued (line : Text) (rest : List Text) :
    (continued line rest).2.length ≤ rest.length := by
  induction rest generalizing line with
  | nil => exact Nat.le_refl 0
  | cons next rest ih =>
      unfold continued
      split
      · exact Nat.le_succ_of_le (ih _)
      · exact Nat.le_refl _

/-- No line ends where two of them meet. -/
theorem OneLine.append {a b : Text} (ha : OneLine a) (hb : OneLine b)
    (hhead : b.head? ≠ some 10) : OneLine (a ++ b) := by
  intro hwithin
  rcases List.infix_append_iff.mp hwithin with h | h | ⟨l, r, hlr, hl, hr⟩
  · exact ha h
  · exact hb h
  · cases l with
    | nil =>
        obtain rfl : crlf = r := hlr
        exact hb hr.isInfix
    | cons x l =>
        obtain ⟨rfl, htail⟩ : 13 = x ∧ [10] = l ++ r := List.cons.inj hlr
        cases l with
        | nil =>
            obtain rfl : [10] = r := htail
            obtain ⟨tail, rfl⟩ := hr
            exact hhead rfl
        | cons y l =>
            obtain ⟨rfl, hnil⟩ : 10 = y ∧ [] = l ++ r := List.cons.inj htail
            obtain ⟨rfl, -⟩ := List.append_eq_nil_iff.mp hnil.symm
            exact ha hl.isInfix

theorem oneLine_continued {line : Text} {rest : List Text} (hline : OneLine line)
    (hrest : ∀ l ∈ rest, OneLine l) :
    OneLine (continued line rest).1 ∧ ∀ l ∈ (continued line rest).2, OneLine l := by
  induction rest generalizing line with
  | nil => exact ⟨hline, hrest⟩
  | cons next rest ih =>
      obtain ⟨hnext, hothers⟩ := List.forall_mem_cons.mp hrest
      unfold continued
      split
      · next hblank =>
          refine ih (hline.append hnext ?_) hothers
          intro hhead
          rw [hhead] at hblank
          cases hblank
      · exact ⟨hline, hrest⟩

/-- The fields, unfolded. -/
def unfold : List Text → List Text
  | [] => []
  | line :: rest => (continued line rest).1 :: unfold (continued line rest).2
termination_by fields => fields.length
decreasing_by exact Nat.lt_succ_of_le (length_continued line rest)

theorem oneLine_unfold {head : List Text} (h : ∀ l ∈ head, OneLine l) :
    ∀ l ∈ unfold head, OneLine l := by
  induction head using unfold.induct with
  | case1 =>
      intro l hl
      rw [unfold] at hl
      cases hl
  | case2 line rest ih =>
      obtain ⟨hline, hrest⟩ := List.forall_mem_cons.mp h
      obtain ⟨hfirst, hothers⟩ := oneLine_continued hline hrest
      rw [unfold]
      exact List.forall_mem_cons.mpr ⟨hfirst, ih hothers⟩

/-- The name and the body of a field. -/
def field (line : Text) : Option (Text × Text) :=
  match line.span (· ≠ 58) with
  | (name, _ :: value) => some (name, trim value)
  | (_, []) => none

/-- A name of a field: it begins with no blank, and has no colon. -/
def IsName (name : Text) : Prop := name.head?.any (fun b => !isBlank b) = true ∧ 58 ∉ name

instance (name : Text) : Decidable (IsName name) := inferInstanceAs (Decidable (_ ∧ _))

/-- The line of a field. -/
def fieldLine (entry : Text × Text) : Text := entry.1 ++ 58 :: entry.2

/-- A field is read back without the blanks around its body. -/
theorem field_fieldLine {entry : Text × Text} (h : IsName entry.1) :
    field (fieldLine entry) = some (entry.1, trim entry.2) := by
  have hname : ∀ b ∈ entry.1, decide (b ≠ 58) = true := by
    intro b hb
    simp only [decide_eq_true_eq]
    rintro rfl
    exact h.2 hb
  rw [field, List.span_eq_takeWhile_dropWhile, fieldLine, List.takeWhile_append_of_pos hname,
    List.dropWhile_append_of_pos hname, List.takeWhile_cons_of_neg (by simp),
    List.dropWhile_cons_of_neg (by simp), List.append_nil]

section

variable {fields : List (Text × Text)}

theorem head?_fieldLine {entry : Text × Text} (h : IsName entry.1) :
    ∃ b rest, fieldLine entry = b :: rest ∧ isBlank b = false := by
  obtain ⟨hblank, -⟩ := h
  unfold fieldLine
  cases hname : entry.1 with
  | nil =>
      rw [hname] at hblank
      cases hblank
  | cons b rest =>
      rw [hname] at hblank
      exact ⟨b, _, rfl, by simpa using hblank⟩

/-- The fields come before the first empty line. -/
theorem splitHead_fields (h : ∀ entry ∈ fields, IsName entry.1) (data : List Text) :
    splitHead (fields.map fieldLine ++ [] :: data) = (fields.map fieldLine, data) := by
  induction fields with
  | nil => rfl
  | cons entry fields ih =>
      obtain ⟨hentry, hfields⟩ := List.forall_mem_cons.mp h
      obtain ⟨b, rest, hline, -⟩ := head?_fieldLine hentry
      have hrest := ih hfields
      show splitHead (fieldLine entry :: (fields.map fieldLine ++ [] :: data)) = _
      rw [List.map_cons, hline, splitHead.eq_3 _ _ (List.cons_ne_nil _ _), hrest]

/-- No field continues another. -/
theorem unfold_fields (h : ∀ entry ∈ fields, IsName entry.1) :
    unfold (fields.map fieldLine) = fields.map fieldLine := by
  induction fields with
  | nil => rw [List.map_nil, unfold]
  | cons entry fields ih =>
      obtain ⟨-, hfields⟩ := List.forall_mem_cons.mp h
      have hcontinued : continued (fieldLine entry) (fields.map fieldLine) =
          (fieldLine entry, fields.map fieldLine) := by
        cases fields with
        | nil => rfl
        | cons next fields =>
            obtain ⟨hnext, -⟩ := List.forall_mem_cons.mp hfields
            obtain ⟨b, rest, hline, hblank⟩ := head?_fieldLine hnext
            rw [List.map_cons, continued, hline, if_neg (by simp [hblank])]
      rw [List.map_cons, unfold, hcontinued, ih hfields]

theorem mapM_field (h : ∀ entry ∈ fields, IsName entry.1) :
    (fields.map fieldLine).mapM field = some (fields.map fun entry => (entry.1, trim entry.2)) := by
  induction fields with
  | nil => rfl
  | cons entry fields ih =>
      obtain ⟨hentry, hfields⟩ := List.forall_mem_cons.mp h
      rw [List.map_cons, List.mapM_cons, field_fieldLine hentry, ih hfields]
      rfl

end

/-- A field whose name begins with something else is no delimiter. -/
theorem isDelimiter_fieldLine {boundary : Text} {entry : Text × Text}
    (h : entry.1.head?.any (fun b => b != 45) = true) :
    isDelimiter boundary (fieldLine entry) = false := by
  unfold fieldLine
  cases hname : entry.1 with
  | nil =>
      rw [hname] at h
      cases h
  | cons b rest =>
      rw [hname] at h
      exact isDelimiter_cons (by simpa using h)

/-- What is read of a field fits on a line, without blanks around it. -/
theorem field_clean {line : Text} {entry : Text × Text} (h : field line = some entry)
    (hline : OneLine line) : OneLine entry.2 ∧ trim entry.2 = entry.2 := by
  rw [field, List.span_eq_takeWhile_dropWhile] at h
  have hsuffix : line.dropWhile (fun b => decide (b ≠ 58)) <:+ line := List.dropWhile_suffix _
  cases hrest : line.dropWhile (fun b => decide (b ≠ 58)) with
  | nil =>
      rw [hrest] at h
      cases h
  | cons colon value =>
      rw [hrest] at h hsuffix
      obtain rfl := Option.some.inj h
      have hvalue : value <:+: line := ((List.suffix_cons colon value).trans hsuffix).isInfix
      exact ⟨hline.sub ((trim_within value).trans hvalue), trim_trim value⟩

def lower (b : UInt8) : UInt8 := if 65 ≤ b ∧ b ≤ 90 then b + 32 else b

/-- The first entry of a name, in lower case here. -/
def find? (name : String) (entries : List (Text × Text)) : Option Text :=
  (entries.find? fun entry => entry.1.map lower = ascii name).map Prod.snd

/-- An entry of that name comes first. -/
theorem find?_cons {name : String} {key value : Text} {entries : List (Text × Text)}
    (h : key.map lower = ascii name) : find? name ((key, value) :: entries) = some value := by
  rw [find?, List.find?_cons_of_pos (by simpa using h)]
  rfl

/-! ## Parameters -/

/-- The value of a quoted string after its first quote, and what follows it. -/
def quoted : Text → Option (Text × Text)
  | [] => none
  | 34 :: rest => some ([], rest)
  | [92] => none
  | 92 :: b :: rest => (quoted rest).map fun value => (b :: value.1, value.2)
  | b :: rest => (quoted rest).map fun value => (b :: value.1, value.2)

theorem quoted_cons {b : UInt8} {rest : Text} (hquote : b ≠ 34) (hescape : b ≠ 92) :
    quoted (b :: rest) = (quoted rest).map fun value => (b :: value.1, value.2) := by
  rw [quoted.eq_def]
  split
  · next heq => cases heq
  · next heq => exact absurd (List.cons.inj heq).1 hquote
  · next heq => exact absurd (List.cons.inj heq).1 hescape
  · next heq => exact absurd (List.cons.inj heq).1 hescape
  · next heq =>
      obtain ⟨rfl, rfl⟩ := List.cons.inj heq
      rfl

/-- A text without quotes and escapes stands for itself. -/
theorem quoted_append {value : Text} (hquote : 34 ∉ value) (hescape : 92 ∉ value)
    (rest : Text) : quoted (value ++ 34 :: rest) = some (value, rest) := by
  induction value with
  | nil => rfl
  | cons b value ih =>
      obtain ⟨hb, hquote⟩ := List.ne_and_not_mem_of_not_mem_cons hquote
      obtain ⟨hb', hescape⟩ := List.ne_and_not_mem_of_not_mem_cons hescape
      show quoted (b :: (value ++ 34 :: rest)) = _
      rw [quoted_cons hb.symm hb'.symm, ih hquote hescape]
      rfl

/-- The quotes of a value take a byte more than it. -/
theorem length_quoted {text : Text} {value : Text × Text} (h : quoted text = some value) :
    value.1.length + value.2.length + 1 ≤ text.length := by
  induction text using quoted.induct generalizing value with
  | case1 => cases h
  | case2 rest =>
      obtain rfl := Option.some.inj h
      exact Nat.le_of_eq (by simp)
  | case3 => cases h
  | case4 b rest ih =>
      obtain ⟨inner, hinner, rfl⟩ := Option.map_eq_some_iff.mp h
      have hlength := ih hinner
      simp only [List.length_cons]
      omega
  | case5 b rest hquote hescape hlast ih =>
      rw [quoted.eq_5 _ _ hquote hescape hlast] at h
      obtain ⟨inner, hinner, rfl⟩ := Option.map_eq_some_iff.mp h
      have hlength := ih hinner
      simp only [List.length_cons]
      omega

/-- **A text stands for itself between quotes** exactly if it has neither a quote nor an
escape. -/
theorem quoted_iff {text : Text} :
    (∃ rest, quoted (text ++ [34]) = some (text, rest)) ↔ 34 ∉ text ∧ 92 ∉ text := by
  constructor
  · rintro ⟨rest, h⟩
    induction text with
    | nil => simp
    | cons b text ih =>
        by_cases hquote : b = 34
        · subst hquote
          obtain ⟨hvalue, -⟩ := Prod.mk.inj (Option.some.inj h)
          cases hvalue
        · by_cases hescape : b = 92
          · subst hescape
            cases text with
            | nil => cases h
            | cons x text =>
                -- the escape is a byte that the value does not have
                rw [List.cons_append, List.cons_append, quoted] at h
                obtain ⟨inner, hinner, hvalue⟩ := Option.map_eq_some_iff.mp h
                have hlength := length_quoted hinner
                have hlengths := congrArg (fun v => v.1.length) hvalue
                simp only [List.length_cons, List.length_append, List.length_nil]
                  at hlength hlengths
                omega
          · rw [List.cons_append, quoted_cons hquote hescape] at h
            obtain ⟨⟨value, tail⟩, hinner, hvalue⟩ := Option.map_eq_some_iff.mp h
            obtain ⟨hvalues, rfl⟩ := Prod.mk.inj hvalue
            obtain rfl := (List.cons.inj hvalues).2
            obtain ⟨hquotes, hescapes⟩ := ih hinner
            exact ⟨List.not_mem_cons_of_ne_of_not_mem (Ne.symm hquote) hquotes,
              List.not_mem_cons_of_ne_of_not_mem (Ne.symm hescape) hescapes⟩
  · rintro ⟨hquote, hescape⟩
    exact ⟨[], quoted_append hquote hescape []⟩

/-- The characters of a token. -/
def isToken (b : UInt8) : Bool := 33 ≤ b && b ≤ 126 && !(ascii "()<>@,;:\\\"/[]?=").contains b

/-- The parameters after a value, as many as there is fuel for. -/
def parameters : Nat → Text → Option (List (Text × Text))
  | 0, _ => none
  | fuel + 1, text =>
      match text.dropWhile isBlank with
      | [] => some []
      | 59 :: rest =>
          let (name, rest) := (rest.dropWhile isBlank).span isToken
          match rest with
          | 61 :: 34 :: rest =>
              match quoted rest with
              | some (value, rest) =>
                  (parameters fuel rest).map fun params => (name, value) :: params
              | none => none
          | 61 :: rest =>
              let (value, rest) := rest.span isToken
              (parameters fuel rest).map fun params => (name, value) :: params
          | _ => none
      | _ => none

/-- The parameters of a field; each of them is at least one byte. -/
def parametersOf (value : Text) : Option (List (Text × Text)) :=
  parameters (value.length + 1) (value.dropWhile (· ≠ 59))

section

variable {name : Text}

private theorem span_name (h : name.all isToken = true) (rest : Text) :
    ((32 :: (name ++ 61 :: rest)).dropWhile isBlank).span isToken = (name, 61 :: rest) := by
  have hname : ∀ b ∈ name, isToken b = true := List.all_eq_true.mp h
  have hblank : ∀ b ∈ name, isBlank b = false := by
    intro b hb
    rw [Bool.eq_false_iff]
    intro hblank
    have htoken := hname b hb
    rcases Bool.or_eq_true_iff.mp hblank with h | h
    · obtain rfl : b = 32 := by simpa using h
      exact absurd htoken (by decide)
    · obtain rfl : b = 9 := by simpa using h
      exact absurd htoken (by decide)
  have hdrop : (32 :: (name ++ 61 :: rest)).dropWhile isBlank = name ++ 61 :: rest := by
    rw [List.dropWhile_cons_of_pos (by decide)]
    cases name with
    | nil => exact List.dropWhile_cons_of_neg (by decide)
    | cons b name => exact List.dropWhile_cons_of_neg (by simp [hblank b List.mem_cons_self])
  rw [hdrop, List.span_eq_takeWhile_dropWhile, List.takeWhile_append_of_pos hname,
    List.dropWhile_append_of_pos hname, List.takeWhile_cons_of_neg (by decide),
    List.dropWhile_cons_of_neg (by decide), List.append_nil]

/-- A parameter with a quoted value. -/
theorem parameters_quoted (hname : name.all isToken = true) (fuel : Nat) (rest : Text) :
    parameters (fuel + 1) (59 :: 32 :: (name ++ 61 :: 34 :: rest)) =
      (quoted rest).bind fun value =>
        (parameters fuel value.2).map fun params => (name, value.1) :: params := by
  have hdrop : (59 :: 32 :: (name ++ 61 :: 34 :: rest)).dropWhile isBlank =
      59 :: 32 :: (name ++ 61 :: 34 :: rest) := List.dropWhile_cons_of_neg (by decide)
  rw [parameters, hdrop]
  simp only [span_name hname]
  cases quoted rest <;> rfl

/-- A token at the end. -/
theorem parameters_token {value : Text} (hname : name.all isToken = true)
    (htokens : value.all isToken = true) (fuel : Nat) :
    parameters (fuel + 2) (59 :: 32 :: (name ++ 61 :: value)) = some [(name, value)] := by
  have hdrop : (59 :: 32 :: (name ++ 61 :: value)).dropWhile isBlank =
      59 :: 32 :: (name ++ 61 :: value) := List.dropWhile_cons_of_neg (by decide)
  have hvalue : ∀ b ∈ value, isToken b = true := List.all_eq_true.mp htokens
  have hspan : value.span isToken = (value, []) := by
    rw [List.span_eq_takeWhile_dropWhile, List.takeWhile_eq_self_iff.mpr hvalue,
      List.dropWhile_eq_nil_iff.mpr hvalue]
  rw [parameters, hdrop]
  simp only [span_name hname]
  split
  · next heq =>
      obtain rfl := (List.cons.inj heq).2
      have hquote : isToken 34 = true := hvalue 34 List.mem_cons_self
      exact absurd hquote (by decide)
  · next heq =>
      obtain rfl := (List.cons.inj heq).2
      rw [hspan]
      rfl
  · next hquote hother => exact absurd rfl (hother value)

end

/-! ## Forms -/

/-- A body part of a form. -/
structure FormPart where
  name : Text
  filename : Option Text
  contentType : Option Text
  data : Text
  deriving DecidableEq

/-- A body part from its fields and the lines of its content. -/
def partOf (fields : List (Text × Text)) (data : List Text) : Option FormPart := do
  let disposition ← find? "content-disposition" fields
  let params ← parametersOf disposition
  let name ← find? "name" params
  return {
    name
    filename := find? "filename" params
    contentType := find? "content-type" fields
    data := unlines data }

/-- A body part from its lines. -/
def parsePart (group : List Text) : Option FormPart := do
  let (head, data) := splitHead group
  let fields ← (unfold head).mapM field
  partOf fields data

/-- The lines of a body part are its fields, an empty line and its content. -/
theorem parsePart_fields {fields : List (Text × Text)} (h : ∀ entry ∈ fields, IsName entry.1)
    (data : List Text) :
    parsePart (fields.map fieldLine ++ [] :: data) =
      partOf (fields.map fun entry => (entry.1, trim entry.2)) data := by
  rw [parsePart, splitHead_fields h data]
  show ((unfold (fields.map fieldLine)).mapM field).bind (fun fields => partOf fields data) = _
  rw [unfold_fields h, mapM_field h]
  rfl

theorem mem_splitHead {group : List Text} {line : Text} (h : line ∈ (splitHead group).1) :
    line ∈ group := by
  induction group with
  | nil => cases h
  | cons first group ih =>
      cases first with
      | nil => cases h
      | cons b rest =>
          rcases List.mem_cons.mp h with rfl | h
          · exact List.mem_cons_self
          · exact List.mem_cons_of_mem _ (ih h)

theorem fields_clean {ls : List Text} {fields : List (Text × Text)}
    (h : ls.mapM field = some fields) (hls : ∀ l ∈ ls, OneLine l) :
    ∀ entry ∈ fields, OneLine entry.2 ∧ trim entry.2 = entry.2 := by
  induction ls generalizing fields with
  | nil =>
      obtain rfl := Option.some.inj h
      exact fun entry hentry => nomatch hentry
  | cons l ls ih =>
      obtain ⟨hl, hothers⟩ := List.forall_mem_cons.mp hls
      rw [List.mapM_cons] at h
      obtain ⟨entry, hentry, htail⟩ := Option.bind_eq_some_iff.mp h
      obtain ⟨rest, hrest, heq⟩ := Option.bind_eq_some_iff.mp htail
      obtain rfl := Option.some.inj heq
      exact List.forall_mem_cons.mpr ⟨field_clean hentry hl, ih hrest hothers⟩

theorem exists_of_find? {name : String} {entries : List (Text × Text)} {value : Text}
    (h : find? name entries = some value) : ∃ entry ∈ entries, entry.2 = value := by
  obtain ⟨entry, hfound, hvalue⟩ := Option.map_eq_some_iff.mp h
  exact ⟨entry, List.mem_of_find?_eq_some hfound, hvalue⟩

/-- **The content type of a body part** fits on a line, without blanks around it. -/
theorem contentType_clean {group : List Text} {part : FormPart} (h : parsePart group = some part)
    (hgroup : ∀ l ∈ group, OneLine l) :
    ∀ c ∈ part.contentType, OneLine c ∧ trim c = c := by
  obtain ⟨fields, hfields, hpart⟩ := Option.bind_eq_some_iff.mp h
  obtain ⟨disposition, -, hpart⟩ := Option.bind_eq_some_iff.mp hpart
  obtain ⟨params, -, hpart⟩ := Option.bind_eq_some_iff.mp hpart
  obtain ⟨name, -, hpart⟩ := Option.bind_eq_some_iff.mp hpart
  obtain rfl := Option.some.inj hpart
  have hhead : ∀ l ∈ unfold (splitHead group).1, OneLine l :=
    oneLine_unfold fun l hl => hgroup l (mem_splitHead hl)
  intro c hc
  obtain ⟨entry, hentry, rfl⟩ := exists_of_find? hc
  exact fields_clean hfields hhead entry hentry

/-- The boundary that a `Content-Type` names. -/
def boundaryOf (contentType : Text) : Option Text := do
  let params ← parametersOf contentType
  find? "boundary" params

/-- The body parts of a form. -/
def parseForm (contentType body : Text) : Option (List FormPart) := do
  let boundary ← boundaryOf contentType
  let groups ← bodyParts boundary body
  groups.mapM parsePart

theorem parseForm_eq {contentType boundary body : Text}
    (h : boundaryOf contentType = some boundary) :
    parseForm contentType body =
      (bodyParts boundary body).bind fun groups => groups.mapM parsePart := by
  rw [parseForm, h]
  rfl

end Ekizu.Lib.Multipart
