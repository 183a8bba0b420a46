import Ekizu.Dave.PpsScan
import Mathlib.Data.Nat.Count

/-!
# What the PPS scan covers

The three codes of a slice header stand in the RBSP, the payload without its emulation
prevention bytes.  The scan passes over such a byte in the zeros of a code, and takes it for
data in the rest of the code, which it jumps over.  Three codes are an odd number of bits, so
they never end with a byte, and one byte taken for data is enough for the end of the third
code to be missed.  After one in the first or second code the scan goes on inside the code,
and what it finds from there depends on every bit that follows.

## Main results

* `StandsAt.reads_code` — the zeros of a code are followed to its one bit.
* `jump_standsAt` — with no emulation prevention byte in the rest, to the end of the code.
* `jump_covers_iff` — the byte in which a jump ends, and the end of the code.
* `bytesCoveringH264Pps_covers` — payloads whose codes are covered.
-/

namespace Ekizu.Dave

/-! ## The RBSP -/

/-- The data bytes among the first `n` of the payload. -/
def dataBytes (payload : Bytes) (n : Nat) : Bytes :=
  (List.range n).filterMap fun b => if EmulationAt payload b then none else payload[b]?

/-- The RBSP: the payload with each `03` that follows `00 00` removed. -/
def rbsp (payload : Bytes) : Bytes := dataBytes payload payload.length

/-- How many of the first `n` bytes are emulation prevention bytes. -/
def emulations (payload : Bytes) (n : Nat) : Nat := Nat.count (EmulationAt payload) n

section Rbsp

variable {payload : Bytes}

theorem dataBytes_succ (n : Nat) :
    dataBytes payload (n + 1) = dataBytes payload n ++
      (if EmulationAt payload n then none else payload[n]?).toList := by
  unfold dataBytes
  rw [List.range_succ, List.filterMap_append, List.filterMap_cons, List.filterMap_nil]
  cases (if EmulationAt payload n then none else payload[n]?) with
  | none => rfl
  | some byte => rfl

theorem dataBytes_mono (payload : Bytes) {m n : Nat} (h : m ≤ n) :
    dataBytes payload m <+: dataBytes payload n := by
  induction n with
  | zero =>
      rw [Nat.le_zero.mp h]
  | succ n ih =>
      by_cases hsame : m = n + 1
      · rw [hsame]
      · rw [dataBytes_succ]
        exact (ih (by omega)).trans (List.prefix_append _ _)

/-- Behind its end the payload has no more data. -/
theorem dataBytes_of_length_le {n : Nat} (h : payload.length ≤ n) :
    dataBytes payload n = rbsp payload := by
  induction n with
  | zero =>
      rw [rbsp, Nat.le_zero.mp h]
  | succ n ih =>
      by_cases hsame : payload.length = n + 1
      · rw [rbsp, hsame]
      · have hbyte : payload[n]? = none := List.getElem?_eq_none (by omega)
        rw [dataBytes_succ, hbyte, ite_self, ih (by omega)]
        exact List.append_nil _

/-- A data byte is in the RBSP, behind the data bytes in front of it. -/
theorem rbsp_getElem {b : Nat} (h : ¬ EmulationAt payload b) (hb : b < payload.length) :
    (rbsp payload)[(dataBytes payload b).length]? = payload[b]? := by
  have hbyte : payload[b]? = some payload[b] := List.getElem?_eq_getElem hb
  obtain ⟨rest, hrest⟩ := dataBytes_mono payload
    (show b + 1 ≤ payload.length by omega)
  rw [rbsp, ← hrest, dataBytes_succ, if_neg h, List.append_assoc,
    List.getElem?_append_right (Nat.le_refl _), Nat.sub_self, hbyte]
  rfl

theorem emulations_succ (n : Nat) :
    emulations payload (n + 1) =
      emulations payload n + if EmulationAt payload n then 1 else 0 :=
  Nat.count_succ _ n

theorem emulations_mono {m n : Nat} (h : m ≤ n) : emulations payload m ≤ emulations payload n :=
  Nat.count_monotone _ h

theorem emulations_lt {b n : Nat} (hb : EmulationAt payload b) (hlt : b < n) :
    emulations payload b < emulations payload n := Nat.count_strict_mono hb hlt

/-- A byte of the payload is data or an emulation prevention byte. -/
theorem dataBytes_length (payload : Bytes) {n : Nat} (h : n ≤ payload.length) :
    (dataBytes payload n).length + emulations payload n = n := by
  induction n with
  | zero => rfl
  | succ n ih =>
      have hbyte : payload[n]? = some payload[n] := List.getElem?_eq_getElem (by omega)
      have hbefore := ih (by omega)
      rw [dataBytes_succ, emulations_succ, List.length_append, hbyte]
      split
      · show (dataBytes payload n).length + 0 + (emulations payload n + 1) = n + 1
        omega
      · show (dataBytes payload n).length + 1 + (emulations payload n + 0) = n + 1
        omega

theorem rbsp_length (payload : Bytes) :
    (rbsp payload).length + emulations payload payload.length = payload.length :=
  dataBytes_length payload (Nat.le_refl _)

/-- Of several emulation prevention bytes there is a first. -/
theorem exists_of_emulations_lt {m n : Nat} (h : emulations payload m < emulations payload n) :
    ∃ b, EmulationAt payload b ∧ m ≤ b ∧ b < n ∧ emulations payload b = emulations payload m := by
  induction n with
  | zero => exact absurd h (Nat.not_lt_zero _)
  | succ n ih =>
      by_cases hearlier : emulations payload m < emulations payload n
      · obtain ⟨b, hb, hle, hlt, hfirst⟩ := ih hearlier
        exact ⟨b, hb, hle, by omega, hfirst⟩
      · have hle : m ≤ n := Nat.lt_succ_iff.mp (Nat.lt_of_count_lt_count h)
        have hmono : emulations payload m ≤ emulations payload n := emulations_mono hle
        rw [emulations_succ] at h
        split at h
        · rename_i hlast
          exact ⟨n, hlast, hle, by omega, by omega⟩
        · omega

end Rbsp

/-! ## Positions -/

/-- Bit `p` of the payload is where the RBSP has come to its bit `j`, and not inside an
emulation prevention byte. -/
def StandsAt (payload : Bytes) (p j : Nat) : Prop :=
  (p % 8 = 0 ∨ ¬ EmulationAt payload (p / 8)) ∧ p = j + 8 * emulations payload (p / 8)

section Positions

variable {payload : Bytes} {p j : Nat}

/-- In front of the end of the RBSP there is still payload. -/
theorem StandsAt.lt_length (h : StandsAt payload p j) (hj : j < 8 * (rbsp payload).length) :
    p < payload.length * 8 := by
  obtain ⟨-, hplace⟩ := h
  by_contra hge
  have hmono : emulations payload payload.length ≤ emulations payload (p / 8) :=
    emulations_mono (by omega)
  have htotal := rbsp_length payload
  -- no emulation prevention byte stands behind the payload
  have hnone : ¬ emulations payload payload.length < emulations payload (p / 8) := by
    intro hlt
    obtain ⟨b, hb, hle, -⟩ := exists_of_emulations_lt hlt
    have hinside := hb.lt_length
    omega
  omega

theorem StandsAt.not_emulation (h : StandsAt payload p j) (hskip : ¬ SkipsAt payload p) :
    ¬ EmulationAt payload (p / 8) := by
  intro hemulation
  cases h.1 with
  | inl hstart => exact hskip ⟨hstart, hemulation⟩
  | inr hnot => exact hnot hemulation

/-- A data bit is the bit of the RBSP at its place. -/
theorem StandsAt.bitAt_rbsp (h : StandsAt payload p j) (hdata : ¬ EmulationAt payload (p / 8))
    (hlt : p < payload.length * 8) : bitAt (rbsp payload) j = bitAt payload p := by
  have hsplit := dataBytes_length payload (show p / 8 ≤ payload.length by omega)
  have hplace := h.2
  have hbyte : j / 8 = (dataBytes payload (p / 8)).length := by omega
  have hbit : j % 8 = p % 8 := by omega
  unfold bitAt
  rw [hbyte, hbit, rbsp_getElem hdata (by omega)]

/-- A data bit is one bit further in the RBSP. -/
theorem StandsAt.succ (h : StandsAt payload p j) (hdata : ¬ EmulationAt payload (p / 8)) :
    StandsAt payload (p + 1) (j + 1) := by
  have hplace := h.2
  by_cases hlast : p % 8 = 7
  · have hnext : (p + 1) / 8 = p / 8 + 1 := by omega
    refine ⟨.inl (by omega), ?_⟩
    rw [hnext, emulations_succ, if_neg hdata]
    omega
  · have hsame : (p + 1) / 8 = p / 8 := by omega
    refine ⟨.inr (by rw [hsame]; exact hdata), ?_⟩
    rw [hsame]
    omega

/-- Passing over an emulation prevention byte is no step in the RBSP. -/
theorem StandsAt.skip (h : StandsAt payload p j) (hskip : SkipsAt payload p) :
    StandsAt payload (p + 8) j := by
  have hplace := h.2
  have hstart := hskip.1
  refine ⟨.inl (by omega), ?_⟩
  rw [Nat.add_div_right p (by decide), emulations_succ, if_pos hskip.2]
  omega

end Positions

/-! ## Codes -/

/-- At bit `j` stands an exp-Golomb code with `z` leading zeros: the zeros, a one, and as many
bits as there were zeros. -/
structure CodeAt (bytes : Bytes) (j z : Nat) : Prop where
  zeros : ∀ i < z, bitAt bytes (j + i) = some false
  one : bitAt bytes (j + z) = some true
  complete : j + 2 * z + 1 ≤ 8 * bytes.length

/-- The emulation prevention byte at `b` lies behind the one of the code with `z` leading
zeros at bit `j` of the RBSP, and in front of its last bit. -/
structure InSuffix (payload : Bytes) (j z b : Nat) : Prop where
  emulation : EmulationAt payload b
  behind : j + z < 8 * (dataBytes payload b).length
  before : 8 * (dataBytes payload b).length < j + 2 * z + 1

section Code

variable {payload : Bytes} {j z : Nat}

/-- In the zeros of a code the scan comes to its one bit. -/
theorem StandsAt.reads_code (hcode : CodeAt (rbsp payload) j z) (hz : z < 32) {p i : Nat}
    (hp : StandsAt payload p (j + i)) (hi : i ≤ z) :
    ∃ o, StandsAt payload o (j + z) ∧ ¬ EmulationAt payload (o / 8) ∧
      ∀ n stop, Reads payload (o + (1 + z)) 0 n stop → Reads payload p i (n + 1) stop := by
  have hcomplete := hcode.complete
  induction hk : payload.length * 8 - p using Nat.strongRecOn generalizing p i with
  | ind k ih =>
      have hlt : p < payload.length * 8 := hp.lt_length (by omega)
      by_cases hskip : SkipsAt payload p
      · obtain ⟨o, ho, hdata, hreads⟩ :=
          ih (payload.length * 8 - (p + 8)) (by omega) (hp.skip hskip) hi rfl
        exact ⟨o, ho, hdata, fun n stop h => .skip hskip (hreads n stop h)⟩
      · have hdata : ¬ EmulationAt payload (p / 8) := hp.not_emulation hskip
        have hbit := hp.bitAt_rbsp hdata hlt
        by_cases hlast : i = z
        · have hone : bitAt payload p = some true := by
            rw [← hbit, hlast]
            exact hcode.one
          exact ⟨p, hlast ▸ hp, hdata, fun n stop h => .one hskip hone (hlast ▸ h)⟩
        · have hzero : bitAt payload p = some false := by
            rw [← hbit]
            exact hcode.zeros i (by omega)
          obtain ⟨o, ho, hbelow, hreads⟩ :=
            ih (payload.length * 8 - (p + 1)) (by omega) (hp.succ hdata)
              (show i + 1 ≤ z by omega) rfl
          exact ⟨o, ho, hbelow, fun n stop h =>
            .zero hskip hzero (by omega) (hreads n stop h)⟩

/-- A complete code does not jump out of the payload. -/
theorem jump_le (hcode : CodeAt (rbsp payload) j z) {o : Nat} (ho : StandsAt payload o (j + z)) :
    o + (1 + z) + 8 * (emulations payload payload.length - emulations payload (o / 8)) ≤
      payload.length * 8 := by
  have hplace := ho.2
  have hcomplete := hcode.complete
  have htotal := rbsp_length payload
  have hlt : o < payload.length * 8 := ho.lt_length (by omega)
  have hmono : emulations payload (o / 8) ≤ emulations payload payload.length :=
    emulations_mono (by omega)
  omega

/-- The first emulation prevention byte that the jump of a code passes over is in the rest of
the code. -/
theorem inSuffix_of_jump {o b : Nat} (ho : StandsAt payload o (j + z))
    (hb : EmulationAt payload b) (hfirst : emulations payload b = emulations payload (o / 8))
    (hbehind : o < 8 * b) (hbefore : 8 * b < o + (1 + z)) : InSuffix payload j z b := by
  have hplace := ho.2
  have hsplit := dataBytes_length payload (Nat.le_of_lt hb.lt_length)
  exact ⟨hb, by omega, by omega⟩

/-- The rest of a code is behind the byte of its one bit. -/
theorem InSuffix.behind_one {b : Nat} (h : InSuffix payload j z b) {o : Nat}
    (ho : StandsAt payload o (j + z)) (hlt : o < payload.length * 8) : o / 8 < b := by
  have hbehind := h.behind
  have hplace := ho.2
  have hsplit := dataBytes_length payload (show o / 8 ≤ payload.length by omega)
  by_contra hle
  have hshort : (dataBytes payload b).length ≤ (dataBytes payload (o / 8)).length :=
    (dataBytes_mono payload (by omega)).length_le
  omega

/-- With no emulation prevention byte in the rest of a code the jump ends behind the code. -/
theorem jump_standsAt {o : Nat} (ho : StandsAt payload o (j + z))
    (hdata : ¬ EmulationAt payload (o / 8)) (hclean : ∀ b, ¬ InSuffix payload j z b) :
    StandsAt payload (o + (1 + z)) (j + 2 * z + 1) := by
  have hplace := ho.2
  have hnone : ∀ b, EmulationAt payload b → o / 8 ≤ b →
      emulations payload b = emulations payload (o / 8) → o + (1 + z) ≤ 8 * b := by
    intro b hb hle hcount
    by_contra hbefore
    have hne : b ≠ o / 8 := fun hsame => hdata (hsame ▸ hb)
    exact hclean b (inSuffix_of_jump ho hb hcount (by omega) (by omega))
  have hcount : emulations payload ((o + (1 + z)) / 8) = emulations payload (o / 8) := by
    have hmono : emulations payload (o / 8) ≤ emulations payload ((o + (1 + z)) / 8) :=
      emulations_mono (by omega)
    by_contra hmore
    obtain ⟨b, hb, hle, hlt, hfirst⟩ := exists_of_emulations_lt
      (show emulations payload (o / 8) < emulations payload ((o + (1 + z)) / 8) by omega)
    have hbehind := hnone b hb hle hfirst
    omega
  refine ⟨?_, by rw [hcount]; omega⟩
  by_cases hend : EmulationAt payload ((o + (1 + z)) / 8)
  · have hbehind := hnone _ hend (by omega) hcount
    exact .inl (by omega)
  · exact .inr hend

/-- Where a code does not end with a byte, its end is in the bytes up to the one where the jump
ends if and only if no emulation prevention byte is in the rest of the code. -/
theorem jump_covers_iff (hcode : CodeAt (rbsp payload) j z) (hinside : (j + 2 * z + 1) % 8 ≠ 0)
    {o : Nat} (ho : StandsAt payload o (j + z)) (hdata : ¬ EmulationAt payload (o / 8)) :
    j + 2 * z + 1 ≤ 8 * (dataBytes payload ((o + (1 + z)) / 8 + 1)).length ↔
      ∀ b, ¬ InSuffix payload j z b := by
  have hplace := ho.2
  have hcomplete := hcode.complete
  have hlt : o < payload.length * 8 := ho.lt_length (by omega)
  have hjump := jump_le hcode ho
  constructor
  · intro hcovers b hb
    have hbehind : o / 8 < b := hb.behind_one ho hlt
    have hbefore := hb.before
    have hmore : emulations payload (o / 8) < emulations payload (b + 1) :=
      (emulations_mono (Nat.le_of_lt hbehind)).trans_lt (emulations_lt hb.emulation b.lt_succ_self)
    have hpast : emulations payload (b + 1) ≤ emulations payload payload.length :=
      emulations_mono hb.emulation.lt_length
    -- the jump ends in the payload, where each byte is data or not
    have hsplit := dataBytes_length payload
      (show (o + (1 + z)) / 8 + 1 ≤ payload.length by omega)
    by_cases hlast : b < (o + (1 + z)) / 8 + 1
    · have hmono : emulations payload (b + 1) ≤ emulations payload ((o + (1 + z)) / 8 + 1) :=
        emulations_mono hlast
      omega
    · have hshort : (dataBytes payload ((o + (1 + z)) / 8 + 1)).length ≤
          (dataBytes payload b).length := (dataBytes_mono payload (by omega)).length_le
      omega
  · intro hclean
    by_cases hend : payload.length ≤ (o + (1 + z)) / 8 + 1
    · rw [dataBytes_of_length_le hend]
      exact hcomplete
    · have hsplit := dataBytes_length payload
        (show (o + (1 + z)) / 8 + 1 ≤ payload.length by omega)
      obtain ⟨hstart, hstop⟩ := jump_standsAt ho hdata hclean
      rw [emulations_succ] at hsplit
      by_cases hnext : EmulationAt payload ((o + (1 + z)) / 8)
      · have hwhole : (o + (1 + z)) % 8 = 0 := hstart.resolve_right (not_not_intro hnext)
        rw [if_pos hnext] at hsplit
        omega
      · rw [if_neg hnext] at hsplit
        omega

end Code

/-! ## Three codes -/

/-- The RBSP begins with three complete codes with fewer than 32 leading zeros each. -/
structure ThreeCodes (payload : Bytes) (z₁ z₂ z₃ : Nat) : Prop where
  first : CodeAt (rbsp payload) 0 z₁
  second : CodeAt (rbsp payload) (2 * z₁ + 1) z₂
  third : CodeAt (rbsp payload) (2 * z₁ + 1 + 2 * z₂ + 1) z₃
  short : z₁ < 32 ∧ z₂ < 32 ∧ z₃ < 32

/-- The first bytes of the payload, as many as are counted, hold the first `bits` bits of the
RBSP. -/
def Covers (payload : Bytes) (bits : Nat) : Prop :=
  ∃ count, bytesCoveringH264Pps payload = some count ∧
    bits ≤ 8 * (dataBytes payload count).length

theorem covers_iff_of_reads {payload : Bytes} {bits stop : Nat} (h : Reads payload 0 0 3 stop) :
    Covers payload bits ↔ bits ≤ 8 * (dataBytes payload (stop / 8 + 1)).length := by
  constructor
  · rintro ⟨count, hcount, hbits⟩
    rw [h.covering] at hcount
    rw [Option.some.inj hcount]
    exact hbits
  · exact fun hbits => ⟨_, h.covering, hbits⟩

/-- In the rest of the first two codes no emulation prevention byte: the scan finds the one bit
of the third, and jumps from there. -/
theorem ThreeCodes.reads {payload : Bytes} {z₁ z₂ z₃ : Nat} (h : ThreeCodes payload z₁ z₂ z₃)
    (hfirst : ∀ b, ¬ InSuffix payload 0 z₁ b)
    (hsecond : ∀ b, ¬ InSuffix payload (2 * z₁ + 1) z₂ b) :
    ∃ o, StandsAt payload o (2 * z₁ + 1 + 2 * z₂ + 1 + z₃) ∧ ¬ EmulationAt payload (o / 8) ∧
      Reads payload 0 0 3 (o + (1 + z₃)) := by
  have hstart : StandsAt payload 0 0 := ⟨.inl rfl, rfl⟩
  obtain ⟨o₁, ho₁, hdata₁, hreads₁⟩ := hstart.reads_code h.first h.short.1 (Nat.zero_le _)
  have hstop₁ := jump_standsAt ho₁ hdata₁ hfirst
  rw [Nat.zero_add] at hstop₁
  obtain ⟨o₂, ho₂, hdata₂, hreads₂⟩ := hstop₁.reads_code h.second h.short.2.1 (Nat.zero_le _)
  have hstop₂ := jump_standsAt ho₂ hdata₂ hsecond
  obtain ⟨o₃, ho₃, hdata₃, hreads₃⟩ := hstop₂.reads_code h.third h.short.2.2 (Nat.zero_le _)
  exact ⟨o₃, ho₃, hdata₃, hreads₁ 2 _ (hreads₂ 1 _ (hreads₃ 0 _ .done))⟩

/-- With no emulation prevention byte in the rest of the first two codes, the codes are covered
if and only if there is none in the rest of the third. -/
theorem ThreeCodes.covers_iff {payload : Bytes} {z₁ z₂ z₃ : Nat}
    (h : ThreeCodes payload z₁ z₂ z₃) (hfirst : ∀ b, ¬ InSuffix payload 0 z₁ b)
    (hsecond : ∀ b, ¬ InSuffix payload (2 * z₁ + 1) z₂ b) :
    Covers payload (2 * z₁ + 1 + 2 * z₂ + 1 + 2 * z₃ + 1) ↔
      ∀ b, ¬ InSuffix payload (2 * z₁ + 1 + 2 * z₂ + 1) z₃ b := by
  obtain ⟨o, ho, hdata, hreads⟩ := h.reads hfirst hsecond
  -- three codes are an odd number of bits
  rw [covers_iff_of_reads hreads, jump_covers_iff h.third (by omega) ho hdata]

/-- **The codes are covered** where no emulation prevention byte is in the rest of one of them,
behind its one bit and in front of its last bit; and not where one is in the rest of the third
code alone. -/
theorem bytesCoveringH264Pps_covers {payload : Bytes} {z₁ z₂ z₃ : Nat}
    (h : ThreeCodes payload z₁ z₂ z₃) :
    ((∀ b, ¬ InSuffix payload 0 z₁ b ∧ ¬ InSuffix payload (2 * z₁ + 1) z₂ b ∧
        ¬ InSuffix payload (2 * z₁ + 1 + 2 * z₂ + 1) z₃ b) →
      Covers payload (2 * z₁ + 1 + 2 * z₂ + 1 + 2 * z₃ + 1)) ∧
    ((∀ b, ¬ InSuffix payload 0 z₁ b ∧ ¬ InSuffix payload (2 * z₁ + 1) z₂ b) →
      (∃ b, InSuffix payload (2 * z₁ + 1 + 2 * z₂ + 1) z₃ b) →
        ¬ Covers payload (2 * z₁ + 1 + 2 * z₂ + 1 + 2 * z₃ + 1)) := by
  constructor
  · intro hclean
    rw [h.covers_iff (fun b => (hclean b).1) fun b => (hclean b).2.1]
    exact fun b => (hclean b).2.2
  · rintro hclean ⟨b, hb⟩ hcovers
    rw [h.covers_iff (fun b => (hclean b).1) fun b => (hclean b).2] at hcovers
    exact hcovers b hb

/-- An emulation prevention byte in the 29 zeros of the third code is passed over. -/
theorem bytesCoveringH264Pps_covers_zeros :
    Covers [0xC0, 0x00, 0x00, 0x03, 0x01, 0xFF, 0xFF, 0xFF, 0xF8] 61 := by
  have honly : ∀ b < 9,
      EmulationAt [0xC0, 0x00, 0x00, 0x03, 0x01, 0xFF, 0xFF, 0xFF, 0xF8] b → b = 3 := by
    decide +kernel
  have hthree :
      (dataBytes [0xC0, 0x00, 0x00, 0x03, 0x01, 0xFF, 0xFF, 0xFF, 0xF8] 3).length = 3 := by
    decide +kernel
  have hfront : ∀ j z b, 24 ≤ j + z →
      ¬ InSuffix [0xC0, 0x00, 0x00, 0x03, 0x01, 0xFF, 0xFF, 0xFF, 0xF8] j z b := by
    intro j z b hle hb
    have hbehind := hb.behind
    rw [honly b hb.emulation.lt_length hb.emulation, hthree] at hbehind
    omega
  have hnone : ∀ j b, ¬ InSuffix [0xC0, 0x00, 0x00, 0x03, 0x01, 0xFF, 0xFF, 0xFF, 0xF8] j 0 b := by
    intro j b hb
    have hbehind := hb.behind
    have hbefore := hb.before
    omega
  have hcodes : ThreeCodes [0xC0, 0x00, 0x00, 0x03, 0x01, 0xFF, 0xFF, 0xFF, 0xF8] 0 0 29 := {
    first := ⟨by decide +kernel, by decide +kernel, by decide +kernel⟩
    second := ⟨by decide +kernel, by decide +kernel, by decide +kernel⟩
    third := ⟨by decide +kernel, by decide +kernel, by decide +kernel⟩
    short := by decide }
  exact (bytesCoveringH264Pps_covers hcodes).1
    fun b => ⟨hnone 0 b, hnone 1 b, hfront 2 29 b (by decide)⟩

/-- Two codes of one bit, and a third with 29 zeros and an emulation prevention byte behind its
one bit: the 61 bits need all ten bytes, and nine are counted. -/
theorem bytesCoveringH264Pps_misses :
    ThreeCodes [0xC0, 0x00, 0x00, 0x03, 0x01, 0x00, 0x00, 0x03, 0x80, 0x80] 0 0 29 ∧
      ¬ Covers [0xC0, 0x00, 0x00, 0x03, 0x01, 0x00, 0x00, 0x03, 0x80, 0x80] 61 := by
  constructor
  · exact {
      first := ⟨by decide +kernel, by decide +kernel, by decide +kernel⟩
      second := ⟨by decide +kernel, by decide +kernel, by decide +kernel⟩
      third := ⟨by decide +kernel, by decide +kernel, by decide +kernel⟩
      short := by decide }
  · rintro ⟨count, hcount, hbits⟩
    have hnine : bytesCoveringH264Pps
        [0xC0, 0x00, 0x00, 0x03, 0x01, 0x00, 0x00, 0x03, 0x80, 0x80] = some 9 := by
      decide +kernel
    have hheld : (dataBytes
        [0xC0, 0x00, 0x00, 0x03, 0x01, 0x00, 0x00, 0x03, 0x80, 0x80] 9).length = 7 := by
      decide +kernel
    rw [← Option.some.inj (hnine.symm.trans hcount), hheld] at hbits
    exact absurd hbits (by decide)

end Ekizu.Dave
