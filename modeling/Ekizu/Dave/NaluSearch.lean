import Ekizu.Dave.CodecUtils

/-!
# The search for start codes

`next_h26x_nalu_index` of `src/dave/codec_utils.cpp` steps over three bytes at once where
the third one cannot be part of a start code, and over one byte where it is a zero.  What
it finds is what a scan of all positions finds.

## Main results

* `nextH26xNaluIndexLoop_eq` — the loop ends at the first start code with a byte behind it.
* `nextH26xNaluIndex_naive` — the search is the naive scan.
-/

namespace Ekizu.Dave

/-- What the packetizer looks for. -/
def naluShortStartCode : Bytes := [0, 0, 1]

/-- The three bytes at a position are a start code. -/
def StartCodeAt (buffer : Bytes) (k : Nat) : Prop :=
  (buffer.drop k).take 3 = naluShortStartCode

instance (buffer : Bytes) (k : Nat) : Decidable (StartCodeAt buffer k) :=
  inferInstanceAs (Decidable (_ = _))

theorem startCodeAt_iff {buffer : Bytes} {k : Nat} :
    StartCodeAt buffer k ↔
      buffer[k]? = some 0 ∧ buffer[k + 1]? = some 0 ∧ buffer[k + 2]? = some 1 := by
  constructor
  · intro h
    have hcell : ∀ m < 3, buffer[k + m]? = naluShortStartCode[m]? := by
      intro m hm
      rw [← h, List.getElem?_take, if_pos hm, List.getElem?_drop]
    exact ⟨hcell 0 (by omega), hcell 1 (by omega), hcell 2 (by omega)⟩
  · intro h
    apply List.ext_getElem?
    intro m
    rw [List.getElem?_take, List.getElem?_drop]
    match m with
    | 0 => exact h.1
    | 1 => exact h.2.1
    | 2 => exact h.2.2
    | m + 3 => rfl

theorem StartCodeAt.le_length {buffer : Bytes} {k : Nat} (h : StartCodeAt buffer k) :
    k + 3 ≤ buffer.length := by
  have hlast := (startCodeAt_iff.mp h).2.2
  have hlt := (List.getElem?_eq_some_iff.mp hlast).1
  omega

/-- No start code begins inside another one. -/
theorem StartCodeAt.apart {buffer : Bytes} {j k : Nat} (hj : StartCodeAt buffer j)
    (hk : StartCodeAt buffer k) (h : j < k) : j + 3 ≤ k := by
  by_contra hnear
  have hone := (startCodeAt_iff.mp hj).2.2
  have hzeros := startCodeAt_iff.mp hk
  have hcase : k = j + 1 ∨ k = j + 2 := by omega
  cases hcase with
  | inl hnext =>
      subst hnext
      exact absurd (hone.symm.trans hzeros.2.1) (by decide)
  | inr hnext =>
      subst hnext
      exact absurd (hone.symm.trans hzeros.1) (by decide)

/-- A byte other than 0 is neither of the first two of a start code. -/
theorem not_startCodeAt_of_ne {buffer : Bytes} {i : Nat} {byte : UInt8}
    (hbyte : buffer[i]? = some byte) (hne : byte ≠ 0) {m : Nat} (hlow : i ≤ m + 1)
    (hhigh : m ≤ i) : ¬ StartCodeAt buffer m := by
  intro hcode
  have hzeros := startCodeAt_iff.mp hcode
  have hcase : m = i ∨ m + 1 = i := by omega
  cases hcase with
  | inl hsame =>
      subst hsame
      exact hne (Option.some.inj (hbyte.symm.trans hzeros.1))
  | inr hnext =>
      subst hnext
      exact hne (Option.some.inj (hbyte.symm.trans hzeros.2.1))

/-! ## The first start code -/

/-- The first start code at or after `i` is at `k`, and has a byte behind it. -/
structure FirstFrom (buffer : Bytes) (i k : Nat) : Prop where
  from_le : i ≤ k
  room : k + 3 < buffer.length
  code : StartCodeAt buffer k
  least : ∀ m, i ≤ m → m < k → ¬ StartCodeAt buffer m

/-- The size of the start code at `k`, with the zero in front of it when there is one. -/
def startCodeSize (buffer : Bytes) (k : Nat) : Nat :=
  if 1 ≤ k ∧ buffer[k - 1]? = some 0 then 4 else 3

theorem FirstFrom.unique {buffer : Bytes} {i j k : Nat} (hj : FirstFrom buffer i j)
    (hk : FirstFrom buffer i k) : j = k := by
  by_contra hne
  by_cases hlt : j < k
  · exact hk.least j hj.from_le hlt hj.code
  · exact hj.least k hk.from_le (by omega) hk.code

/-- The search may start later when it passes over no start code. -/
theorem FirstFrom.of_later {buffer : Bytes} {i j k : Nat} (h : FirstFrom buffer j k)
    (hle : i ≤ j) (hnone : ∀ m, i ≤ m → m < j → ¬ StartCodeAt buffer m) :
    FirstFrom buffer i k where
  from_le := Nat.le_trans hle h.from_le
  room := h.room
  code := h.code
  least := fun m hlow hhigh => by
    by_cases hearly : m < j
    · exact hnone m hlow hearly
    · exact h.least m (by omega) hhigh

/-- What the loop answers from `i` on. -/
def Scanned (buffer : Bytes) (i : Nat) (found : Option (Nat × Nat)) : Prop :=
  (found = none ∧ ∀ k, i ≤ k → k + 3 < buffer.length → ¬ StartCodeAt buffer k) ∨
    ∃ k, FirstFrom buffer i k ∧ found = some (k + 3, startCodeSize buffer k)

theorem Scanned.of_later {buffer : Bytes} {i j : Nat} {found : Option (Nat × Nat)}
    (h : Scanned buffer j found) (hle : i ≤ j)
    (hnone : ∀ m, i ≤ m → m < j → ¬ StartCodeAt buffer m) : Scanned buffer i found := by
  cases h with
  | inl hno =>
      refine .inl ⟨hno.1, fun k hlow hroom => ?_⟩
      by_cases hearly : k < j
      · exact hnone k hlow hearly
      · exact hno.2 k (by omega) hroom
  | inr hfirst =>
      obtain ⟨k, hk, hfound⟩ := hfirst
      exact .inr ⟨k, hk.of_later hle hnone, hfound⟩

/-- Something is found when there is something to find. -/
theorem Scanned.isSome_iff {buffer : Bytes} {i : Nat} {found : Option (Nat × Nat)}
    (h : Scanned buffer i found) :
    found.isSome = true ↔ ∃ k, i ≤ k ∧ k + 3 < buffer.length ∧ StartCodeAt buffer k := by
  cases h with
  | inl hno =>
      rw [hno.1]
      refine iff_of_false (by simp) ?_
      rintro ⟨k, hlow, hroom, hcode⟩
      exact hno.2 k hlow hroom hcode
  | inr hfirst =>
      obtain ⟨k, hk, rfl⟩ := hfirst
      exact iff_of_true rfl ⟨k, hk.from_le, hk.room, hk.code⟩

/-- **The loop** reads inside the buffer and ends at the first start code with a byte behind
it. -/
theorem nextH26xNaluIndexLoop_eq (buffer : Bytes) (i : Nat) :
    ∃ found, nextH26xNaluIndexLoop buffer i = some found ∧ Scanned buffer i found := by
  fun_induction nextH26xNaluIndexLoop buffer i with
  | case1 i hlt ih3 ih1 =>
      simp only [naluShortStartSequenceSize] at *
      have h0 : buffer[i]? = some buffer[i] := List.getElem?_eq_getElem (by omega)
      have h1 : buffer[i + 1]? = some buffer[i + 1] := List.getElem?_eq_getElem (by omega)
      have h2 : buffer[i + 2]? = some buffer[i + 2] := List.getElem?_eq_getElem (by omega)
      have hhere : StartCodeAt buffer i ↔
          buffer[i] = 0 ∧ buffer[i + 1] = 0 ∧ buffer[i + 2] = 1 := by
        rw [startCodeAt_iff, h0, h1, h2, Option.some_inj, Option.some_inj, Option.some_inj]
      simp only [h0, h1, h2, Option.bind_eq_bind, Option.bind_some]
      -- where the third byte is not 0, no start code begins at the next two positions
      have hjump : buffer[i + 2] ≠ 0 → ¬ StartCodeAt buffer i →
          ∀ m, i ≤ m → m < i + 3 → ¬ StartCodeAt buffer m := by
        intro hthird hnot m hlow hhigh
        by_cases hm : m = i
        · rwa [hm]
        · exact not_startCodeAt_of_ne h2 hthird (by omega) (by omega)
      split
      · next hbig =>
          have hthird : buffer[i + 2] ≠ 0 ∧ buffer[i + 2] ≠ 1 := by
            constructor <;> intro heq <;> rw [heq] at hbig <;> exact absurd hbig (by decide)
          obtain ⟨found, hfound, hscan⟩ := ih3
          exact ⟨found, hfound, hscan.of_later (by omega)
            (hjump hthird.1 fun hcode => hthird.2 (hhere.mp hcode).2.2)⟩
      · next hsmall =>
          split
          · next hone =>
              split
              · next hzeros =>
                  have hfirst : FirstFrom buffer i i :=
                    ⟨Nat.le_refl i, hlt, hhere.mpr ⟨hzeros.2, hzeros.1, hone⟩,
                      fun m hlow hhigh => absurd hhigh (by omega)⟩
                  refine ⟨some (i + 3, startCodeSize buffer i), ?_, .inr ⟨i, hfirst, rfl⟩⟩
                  unfold startCodeSize
                  by_cases hi : 1 ≤ i
                  · have hprev : buffer[i - 1]? = some buffer[i - 1] :=
                      List.getElem?_eq_getElem (by omega)
                    rw [if_pos hi, hprev, Option.bind_some]
                    by_cases hzero : buffer[i - 1] = 0
                    · rw [if_pos hzero, if_pos ⟨hi, by rw [hzero]⟩]
                    · rw [if_neg hzero, if_neg fun hboth => hzero (Option.some.inj hboth.2)]
                  · rw [if_neg hi, if_neg fun hboth => hi hboth.1]
              · next hzeros =>
                  obtain ⟨found, hfound, hscan⟩ := ih3
                  have hthird : buffer[i + 2] ≠ 0 := by
                    rw [hone]
                    decide
                  exact ⟨found, hfound, hscan.of_later (by omega) (hjump hthird fun hcode =>
                    hzeros ⟨(hhere.mp hcode).2.1, (hhere.mp hcode).1⟩)⟩
          · next hone =>
              obtain ⟨found, hfound, hscan⟩ := ih1
              refine ⟨found, hfound, hscan.of_later (by omega) fun m hlow hhigh hcode => ?_⟩
              obtain rfl : m = i := by omega
              exact hone (hhere.mp hcode).2.2
  | case2 i hge =>
      simp only [naluShortStartSequenceSize] at hge
      exact ⟨none, rfl, .inl ⟨rfl, fun k hlow hroom => absurd hroom (by omega)⟩⟩

/-- The search answers as its loop does; a buffer too small for a start code has none. -/
theorem nextH26xNaluIndex_eq (buffer : Bytes) (searchStartIndex : Nat) :
    ∃ found, nextH26xNaluIndex buffer searchStartIndex = some found ∧
      Scanned buffer searchStartIndex found := by
  unfold nextH26xNaluIndex
  split
  · next hshort =>
      simp only [naluShortStartSequenceSize] at hshort
      exact ⟨none, rfl, .inl ⟨rfl, fun k _ hroom => absurd hroom (by omega)⟩⟩
  · exact nextH26xNaluIndexLoop_eq buffer searchStartIndex

/-- **The search is the naive scan.** -/
theorem nextH26xNaluIndex_naive (buffer : Bytes) (searchStartIndex : Nat) :
    ∃ found, nextH26xNaluIndex buffer searchStartIndex = some found ∧
      (found = none ↔
        ¬ ∃ i, searchStartIndex ≤ i ∧ i + 3 < buffer.length ∧ StartCodeAt buffer i) ∧
      ∀ result, found = some result →
        ∃ i, FirstFrom buffer searchStartIndex i ∧
          result = (i + 3, if 1 ≤ i ∧ buffer[i - 1]? = some 0 then 4 else 3) := by
  obtain ⟨found, hfound, hscan⟩ := nextH26xNaluIndex_eq buffer searchStartIndex
  refine ⟨found, hfound, ?_, fun result hresult => ?_⟩
  · rw [← hscan.isSome_iff, Bool.not_eq_true, Option.isSome_eq_false_iff, Option.isNone_iff_eq_none]
  · cases hscan with
    | inl hno => exact absurd (hno.1.symm.trans hresult) (by simp)
    | inr hfirst =>
        obtain ⟨k, hk, rfl⟩ := hfirst
        exact ⟨k, hk, (Option.some.inj hresult).symm⟩

end Ekizu.Dave
