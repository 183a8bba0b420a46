import Mathlib.Tactic.Common

/-!
# Splitting a sequence at segments and weaving it back

A list of segments `(offset, size)` cuts a sequence into the cells *inside*
the segments and the cells *outside* them.  `weave` puts the two parts back.
The segments are read from a cursor `pos` to the right, which is how both an
index loop and a recursion traverse them; `Ordered pos segs` says that the
segments start at or after the cursor and do not overlap.

## Main results

* `weave_inside_outside` — weaving the two parts of a split gives the sequence
  back.
* `inside_weave`, `outside_weave` — splitting a woven sequence gives the two
  parts back.
* `weave_append_singleton` — a segment more at the end.
* `inside_eq_iff`, `exists_weave` — the inside cells are those at the covered
  positions, and all sequences that agree there are woven from them.
-/

namespace Ekizu.Lib.Segments

/-- A segment of a sequence. -/
structure Seg where
  offset : Nat
  size : Nat
  deriving Repr, DecidableEq

variable {α : Type}

/-- The segments start at or after `pos`, in order and without overlap. -/
def Ordered : Nat → List Seg → Prop
  | _, [] => True
  | pos, r :: rs => pos ≤ r.offset ∧ Ordered (r.offset + r.size) rs

/-- Where the last segment ends (`pos` when there is none). -/
def endPos : Nat → List Seg → Nat
  | pos, [] => pos
  | _, r :: rs => endPos (r.offset + r.size) rs

/-- The number of cells inside the segments. -/
def sizes : List Seg → Nat
  | [] => 0
  | r :: rs => r.size + sizes rs

/-- The number of cells between the cursor and the end of the last segment
that lie outside every segment. -/
def gaps : Nat → List Seg → Nat
  | _, [] => 0
  | pos, r :: rs => (r.offset - pos) + gaps (r.offset + r.size) rs

/-- The cells inside the segments. -/
def inside (xs : List α) : List Seg → List α
  | [] => []
  | r :: rs => (xs.drop r.offset).take r.size ++ inside xs rs

/-- The cells in front of and between the segments. -/
def outside (xs : List α) : Nat → List Seg → List α
  | _, [] => []
  | pos, r :: rs =>
      (xs.drop pos).take (r.offset - pos) ++ outside xs (r.offset + r.size) rs

/-- Interleave inside cells and outside cells along the segments; what is
left of the outside cells comes after the last segment. -/
def weave : Nat → List Seg → List α → List α → List α
  | _, [], _, out => out
  | pos, r :: rs, inn, out =>
      out.take (r.offset - pos) ++ (inn.take r.size ++
        weave (r.offset + r.size) rs (inn.drop r.size) (out.drop (r.offset - pos)))

theorem pos_le_endPos {pos : Nat} {rs : List Seg} (h : Ordered pos rs) :
    pos ≤ endPos pos rs := by
  induction rs generalizing pos with
  | nil => exact Nat.le_refl _
  | cons r rs ih =>
      have hrest : r.offset + r.size ≤ endPos (r.offset + r.size) rs := ih h.2
      have hpos : pos ≤ r.offset := h.1
      show pos ≤ endPos (r.offset + r.size) rs
      omega

/-- The cursor, the gaps and the sizes add up to the end of the last segment. -/
theorem endPos_eq {pos : Nat} {rs : List Seg} (h : Ordered pos rs) :
    endPos pos rs = pos + gaps pos rs + sizes rs := by
  induction rs generalizing pos with
  | nil => simp [endPos, gaps, sizes]
  | cons r rs ih =>
      have hrest := ih h.2
      have hpos : pos ≤ r.offset := h.1
      simp only [endPos, gaps, sizes]
      omega

/-- A later segment starts at or after the end of an earlier one. -/
theorem Ordered.pairwise {pos : Nat} {rs : List Seg} (h : Ordered pos rs) :
    rs.Pairwise (fun a b => a.offset + a.size ≤ b.offset) ∧ ∀ r ∈ rs, pos ≤ r.offset := by
  induction rs generalizing pos with
  | nil => exact ⟨.nil, by simp⟩
  | cons r rs ih =>
      obtain ⟨hpair, hle⟩ := ih h.2
      have hpos : pos ≤ r.offset := h.1
      refine ⟨List.pairwise_cons.mpr ⟨hle, hpair⟩, ?_⟩
      intro s hs
      rcases List.mem_cons.mp hs with rfl | hs
      · exact hpos
      · have := hle s hs
        omega

theorem ordered_append_singleton {pos : Nat} {rs : List Seg} {r : Seg}
    (h : Ordered pos rs) (hr : endPos pos rs ≤ r.offset) :
    Ordered pos (rs ++ [r]) := by
  induction rs generalizing pos with
  | nil => exact ⟨hr, trivial⟩
  | cons s rs ih => exact ⟨h.1, ih h.2 hr⟩

theorem endPos_append_singleton {pos : Nat} {rs : List Seg} {r : Seg} :
    endPos pos (rs ++ [r]) = r.offset + r.size := by
  induction rs generalizing pos with
  | nil => rfl
  | cons s rs ih => exact ih

theorem sizes_append (rs ss : List Seg) : sizes (rs ++ ss) = sizes rs + sizes ss := by
  induction rs with
  | nil => simp [sizes]
  | cons r rs ih => simp only [List.cons_append, sizes, ih]; omega

theorem inside_length {xs : List α} {pos : Nat} {rs : List Seg}
    (h : Ordered pos rs) (hend : endPos pos rs ≤ xs.length) :
    (inside xs rs).length = sizes rs := by
  induction rs generalizing pos with
  | nil => rfl
  | cons r rs ih =>
      have hle := pos_le_endPos h.2
      have hlen : (inside xs rs).length = sizes rs := ih h.2 hend
      simp only [endPos] at hend
      simp only [inside, sizes, List.length_append, List.length_take,
        List.length_drop, hlen]
      omega

theorem outside_length {xs : List α} {pos : Nat} {rs : List Seg}
    (h : Ordered pos rs) (hend : endPos pos rs ≤ xs.length) :
    (outside xs pos rs).length = gaps pos rs := by
  induction rs generalizing pos with
  | nil => rfl
  | cons r rs ih =>
      have hle := pos_le_endPos h.2
      have hlen := ih h.2 hend
      simp only [endPos] at hend
      simp only [outside, gaps, List.length_append, List.length_take,
        List.length_drop, hlen]
      omega

theorem weave_length {pos : Nat} {rs : List Seg} {inn out : List α}
    (hinn : inn.length = sizes rs) (hout : gaps pos rs ≤ out.length) :
    (weave pos rs inn out).length = inn.length + out.length := by
  induction rs generalizing pos inn out with
  | nil =>
      have hnil : inn.length = 0 := hinn
      simp [weave, hnil]
  | cons r rs ih =>
      simp only [sizes] at hinn
      simp only [gaps] at hout
      have hrest : (weave (r.offset + r.size) rs (inn.drop r.size)
          (out.drop (r.offset - pos))).length =
          (inn.drop r.size).length + (out.drop (r.offset - pos)).length := ih
        (by simp only [List.length_drop]; omega)
        (by simp only [List.length_drop]; omega)
      simp only [weave, List.length_append, List.length_take, hrest,
        List.length_drop]
      omega

/-- One segment more at the end: its cells go in at its offset. -/
theorem weave_append_singleton {pos : Nat} {rs : List Seg} {r : Seg} {inn new out : List α}
    (h : Ordered pos rs) (hinn : inn.length = sizes rs) (hend : endPos pos rs ≤ r.offset)
    (hout : r.offset ≤ pos + sizes rs + out.length) :
    weave pos (rs ++ [r]) (inn ++ new) out =
      (weave pos rs inn out).take (r.offset - pos) ++
        (new.take r.size ++ (weave pos rs inn out).drop (r.offset - pos)) := by
  induction rs generalizing pos inn out with
  | nil =>
      obtain rfl : inn = [] := List.length_eq_zero_iff.mp hinn
      rfl
  | cons s rs ih =>
      have hpos : pos ≤ s.offset := h.1
      have hle : s.offset + s.size ≤ endPos (s.offset + s.size) rs := pos_le_endPos h.2
      have hsum := endPos_eq h.2
      simp only [sizes] at hinn hout
      simp only [endPos] at hend
      have hgap : (out.take (s.offset - pos)).length = s.offset - pos := by
        simp only [List.length_take]; omega
      have hseg : (inn.take s.size).length = s.size := by
        simp only [List.length_take]; omega
      have hrest : weave (s.offset + s.size) (rs ++ [r]) (inn.drop s.size ++ new)
          (out.drop (s.offset - pos)) = _ := ih h.2
        (by simp only [List.length_drop]; omega) hend
        (by simp only [List.length_drop]; omega)
      have hsplit : r.offset - pos =
          (s.offset - pos) + (s.size + (r.offset - (s.offset + s.size))) := by omega
      simp only [List.cons_append, weave]
      rw [List.take_append_of_le_length (by omega), List.drop_append_of_le_length (by omega),
        hrest, hsplit]
      generalize weave (s.offset + s.size) rs (inn.drop s.size) (out.drop (s.offset - pos)) =
        rest
      generalize out.take (s.offset - pos) = gap at hgap ⊢
      generalize inn.take s.size = seg at hseg ⊢
      rw [← hgap, ← hseg, List.take_length_add_append, List.take_length_add_append,
        List.drop_length_add_append, List.drop_length_add_append]
      simp only [List.append_assoc]

/-- **Weaving undoes splitting.**  The outside cells may continue with `tail`
after the last segment. -/
theorem weave_inside_outside {xs tail : List α} {pos : Nat} {rs : List Seg}
    (h : Ordered pos rs) (hend : endPos pos rs ≤ xs.length) :
    weave pos rs (inside xs rs) (outside xs pos rs ++ tail) =
      (xs.drop pos).take (endPos pos rs - pos) ++ tail := by
  induction rs generalizing pos with
  | nil => simp [weave, outside, endPos]
  | cons r rs ih =>
      have hpos : pos ≤ r.offset := h.1
      have hle : r.offset + r.size ≤ endPos (r.offset + r.size) rs :=
        pos_le_endPos h.2
      have hend' : endPos (r.offset + r.size) rs ≤ xs.length := hend
      have hgap : ((xs.drop pos).take (r.offset - pos)).length = r.offset - pos := by
        simp only [List.length_take, List.length_drop]; omega
      have hsize : ((xs.drop r.offset).take r.size).length = r.size := by
        simp only [List.length_take, List.length_drop]; omega
      -- The three pieces the induction step glues: gap, segment, rest.
      have hglue : (xs.drop pos).take (endPos (r.offset + r.size) rs - pos) =
          (xs.drop pos).take (r.offset - pos) ++ ((xs.drop r.offset).take r.size ++
            (xs.drop (r.offset + r.size)).take
              (endPos (r.offset + r.size) rs - (r.offset + r.size))) := by
        have hsplit : endPos (r.offset + r.size) rs - pos =
            (r.offset - pos) + (r.size +
              (endPos (r.offset + r.size) rs - (r.offset + r.size))) := by omega
        rw [hsplit, List.take_add, List.take_add, List.drop_drop, List.drop_drop,
          show pos + (r.offset - pos) = r.offset by omega]
      simp only [weave, inside, outside, endPos, List.append_assoc]
      rw [List.take_left' hgap, List.drop_left' hgap, List.take_left' hsize,
        List.drop_left' hsize, ih h.2 hend', hglue]
      simp only [List.append_assoc]

/-- The cells of a woven sequence inside the segments are the ones put there.
The cursor stands after the prefix `pre`, and `post` may follow. -/
theorem inside_weave {pre post inn out : List α} {pos : Nat} {rs : List Seg}
    (h : Ordered pos rs) (hpre : pre.length = pos)
    (hinn : inn.length = sizes rs) (hout : gaps pos rs ≤ out.length) :
    inside (pre ++ weave pos rs inn out ++ post) rs = inn := by
  induction rs generalizing pre pos inn out with
  | nil =>
      have hnil : inn = [] := List.length_eq_zero_iff.mp hinn
      simp [inside, hnil]
  | cons r rs ih =>
      have hpos : pos ≤ r.offset := h.1
      simp only [sizes] at hinn
      simp only [gaps] at hout
      have hrest : inside (pre ++ out.take (r.offset - pos) ++ inn.take r.size ++
          weave (r.offset + r.size) rs (inn.drop r.size) (out.drop (r.offset - pos)) ++ post)
          rs = inn.drop r.size := ih h.2
        (by simp only [List.length_append, List.length_take]; omega)
        (by simp only [List.length_drop]; omega)
        (by simp only [List.length_drop]; omega)
      have hhead : (pre ++ out.take (r.offset - pos)).length = r.offset := by
        simp only [List.length_append, List.length_take]; omega
      have hseg : (inn.take r.size).length = r.size := by
        simp only [List.length_take]; omega
      simp only [inside, weave]
      have hassoc : pre ++ (out.take (r.offset - pos) ++ (inn.take r.size ++
            weave (r.offset + r.size) rs (inn.drop r.size)
              (out.drop (r.offset - pos)))) ++ post =
          pre ++ out.take (r.offset - pos) ++ inn.take r.size ++
            weave (r.offset + r.size) rs (inn.drop r.size)
              (out.drop (r.offset - pos)) ++ post := by
        simp only [List.append_assoc]
      rw [hassoc, hrest]
      rw [show pre ++ out.take (r.offset - pos) ++ inn.take r.size ++
            weave (r.offset + r.size) rs (inn.drop r.size)
              (out.drop (r.offset - pos)) ++ post =
          (pre ++ out.take (r.offset - pos)) ++ (inn.take r.size ++
            (weave (r.offset + r.size) rs (inn.drop r.size)
              (out.drop (r.offset - pos)) ++ post)) by
        simp only [List.append_assoc]]
      rw [List.drop_left' hhead, List.take_left' hseg, List.take_append_drop]

/-- The cells of a woven sequence outside the segments are the ones put there:
those up to the last segment, and after it the ones that were left over. -/
theorem outside_weave {pre post inn out : List α} {pos : Nat} {rs : List Seg}
    (h : Ordered pos rs) (hpre : pre.length = pos)
    (hinn : inn.length = sizes rs) (hout : gaps pos rs ≤ out.length) :
    outside (pre ++ weave pos rs inn out ++ post) pos rs = out.take (gaps pos rs) ∧
      (pre ++ weave pos rs inn out ++ post).drop (endPos pos rs) =
        out.drop (gaps pos rs) ++ post := by
  induction rs generalizing pre pos inn out with
  | nil => simp [outside, weave, gaps, endPos, ← hpre]
  | cons r rs ih =>
      have hpos : pos ≤ r.offset := h.1
      simp only [sizes] at hinn
      simp only [gaps] at hout
      generalize hwoven : pre ++ out.take (r.offset - pos) ++ inn.take r.size ++
        weave (r.offset + r.size) rs (inn.drop r.size) (out.drop (r.offset - pos)) ++ post =
          woven
      have hrest : outside woven (r.offset + r.size) rs = (out.drop (r.offset - pos)).take
            (gaps (r.offset + r.size) rs) ∧
          woven.drop (endPos (r.offset + r.size) rs) =
            (out.drop (r.offset - pos)).drop (gaps (r.offset + r.size) rs) ++ post := by
        rw [← hwoven]
        exact ih h.2
          (by simp only [List.length_append, List.length_take]; omega)
          (by simp only [List.length_drop]; omega)
          (by simp only [List.length_drop]; omega)
      have hgap : (out.take (r.offset - pos)).length = r.offset - pos := by
        simp only [List.length_take]; omega
      have hassoc : pre ++ weave pos (r :: rs) inn out ++ post =
          pre ++ out.take (r.offset - pos) ++ inn.take r.size ++
            weave (r.offset + r.size) rs (inn.drop r.size)
              (out.drop (r.offset - pos)) ++ post := by
        simp only [weave, List.append_assoc]
      simp only [outside, gaps, endPos]
      rw [hassoc, hwoven]
      constructor
      · rw [hrest.1, ← hwoven]
        simp only [List.append_assoc]
        rw [List.drop_left' hpre, List.take_left' hgap, List.take_add]
      · rw [hrest.2, List.drop_drop]

/-! ## Positions -/

/-- A position inside one of the segments. -/
def Covered (rs : List Seg) (j : Nat) : Prop := ∃ r ∈ rs, r.offset ≤ j ∧ j < r.offset + r.size

instance (rs : List Seg) (j : Nat) : Decidable (Covered rs j) :=
  List.decidableBEx (fun r : Seg => r.offset ≤ j ∧ j < r.offset + r.size) rs

theorem covered_cons {r : Seg} {rs : List Seg} {j : Nat} :
    Covered (r :: rs) j ↔ (r.offset ≤ j ∧ j < r.offset + r.size) ∨ Covered rs j := by
  simp [Covered]

theorem not_covered_nil {j : Nat} : ¬ Covered [] j := by
  simp [Covered]

/-- Nothing in front of the cursor is covered. -/
theorem Covered.pos_le {pos : Nat} {rs : List Seg} {j : Nat} (hj : Covered rs j)
    (h : Ordered pos rs) : pos ≤ j := by
  induction rs generalizing pos with
  | nil => exact absurd hj not_covered_nil
  | cons r rs ih =>
      have hpos : pos ≤ r.offset := h.1
      cases covered_cons.mp hj with
      | inl hfirst => omega
      | inr hlater =>
          have hrest : r.offset + r.size ≤ j := ih hlater h.2
          omega

/-- Two sequences agree on a segment when they agree at its positions. -/
theorem take_drop_eq_iff {xs ys : List α} {r : Seg} :
    (xs.drop r.offset).take r.size = (ys.drop r.offset).take r.size ↔
      ∀ j, r.offset ≤ j → j < r.offset + r.size → xs[j]? = ys[j]? := by
  constructor
  · intro h j hlow hhigh
    have hj := congrArg (fun cells : List α => cells[j - r.offset]?) h
    simp only [List.getElem?_take, List.getElem?_drop] at hj
    rw [if_pos (by omega), if_pos (by omega), show r.offset + (j - r.offset) = j by omega] at hj
    exact hj
  · intro h
    apply List.ext_getElem?
    intro i
    simp only [List.getElem?_take, List.getElem?_drop]
    split
    · exact h (r.offset + i) (by omega) (by omega)
    · rfl

/-- Two sequences have the same cells inside the segments when they agree at every
covered position. -/
theorem inside_eq_iff {xs ys : List α} {pos : Nat} {rs : List Seg} (h : Ordered pos rs)
    (hx : endPos pos rs ≤ xs.length) (hy : endPos pos rs ≤ ys.length) :
    inside xs rs = inside ys rs ↔ ∀ j, Covered rs j → xs[j]? = ys[j]? := by
  induction rs generalizing pos with
  | nil => exact iff_of_true rfl (fun j hj => by obtain ⟨r, hr, -⟩ := hj; cases hr)
  | cons r rs ih =>
      have hle : r.offset + r.size ≤ endPos (r.offset + r.size) rs := pos_le_endPos h.2
      have hends : endPos pos (r :: rs) = endPos (r.offset + r.size) rs := rfl
      have hlength : ((xs.drop r.offset).take r.size).length =
          ((ys.drop r.offset).take r.size).length := by
        simp only [List.length_take, List.length_drop]
        omega
      have hcells : inside xs (r :: rs) = inside ys (r :: rs) ↔
          (xs.drop r.offset).take r.size = (ys.drop r.offset).take r.size ∧
            inside xs rs = inside ys rs :=
        ⟨fun heq => List.append_inj heq hlength,
          fun hboth => by rw [inside, inside, hboth.1, hboth.2]⟩
      rw [hcells, take_drop_eq_iff, ih h.2 hx hy]
      constructor
      · rintro ⟨hfirst, hrest⟩ j ⟨s, hs, hj⟩
        cases List.mem_cons.mp hs with
        | inl hsame =>
            subst hsame
            exact hfirst j hj.1 hj.2
        | inr hlater => exact hrest j ⟨s, hlater, hj⟩
      · intro hall
        constructor
        · intro j hlow hhigh
          exact hall j ⟨r, List.mem_cons_self, hlow, hhigh⟩
        · rintro j ⟨s, hs, hj⟩
          exact hall j ⟨s, List.mem_cons_of_mem r hs, hj⟩

/-- The cells of a woven sequence inside its segments. -/
theorem inside_weave_self {inn out : List α} {rs : List Seg} (h : Ordered 0 rs)
    (hinn : inn.length = sizes rs) (hout : gaps 0 rs ≤ out.length) :
    inside (weave 0 rs inn out) rs = inn := by
  have hwhole : inside ([] ++ weave 0 rs inn out ++ []) rs = inn := inside_weave h rfl hinn hout
  rw [List.nil_append, List.append_nil] at hwhole
  exact hwhole

/-- What is woven with the same inside cells is the same at every covered position. -/
theorem weave_covered {inn out out' : List α} {rs : List Seg} (h : Ordered 0 rs)
    (hinn : inn.length = sizes rs) (hout : gaps 0 rs ≤ out.length)
    (hout' : gaps 0 rs ≤ out'.length) {j : Nat} (hj : Covered rs j) :
    (weave 0 rs inn out)[j]? = (weave 0 rs inn out')[j]? := by
  have hend := endPos_eq h
  have hsame : inside (weave 0 rs inn out) rs = inside (weave 0 rs inn out') rs := by
    rw [inside_weave_self h hinn hout, inside_weave_self h hinn hout']
  refine (inside_eq_iff h ?_ ?_).mp hsame j hj
  · rw [weave_length hinn hout]
    omega
  · rw [weave_length hinn hout']
    omega

/-- Every sequence with the inside cells `inn` is woven from them. -/
theorem exists_weave {xs inn : List α} {rs : List Seg} (h : Ordered 0 rs)
    (hend : endPos 0 rs ≤ xs.length) (hinn : inside xs rs = inn) :
    ∃ out, out.length + inn.length = xs.length ∧ weave 0 rs inn out = xs := by
  refine ⟨outside xs 0 rs ++ xs.drop (endPos 0 rs), ?_, ?_⟩
  · have hpos := endPos_eq h
    rw [List.length_append, outside_length h hend, List.length_drop, ← hinn, inside_length h hend]
    omega
  · rw [← hinn, weave_inside_outside h hend, List.drop_zero, Nat.sub_zero, List.take_append_drop]

end Ekizu.Lib.Segments
