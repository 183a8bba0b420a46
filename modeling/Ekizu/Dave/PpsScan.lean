import Ekizu.Dave.CodecUtils

/-!
# The scan for the PPS id

`bytes_covering_h264_pps` walks the bits of a slice header for three exp-Golomb codes.  In
the run of zeros of a code it passes over emulation prevention bytes; over the rest of the
code it jumps in one step, and takes such a byte for data.  Below, `Reads` says what it
reads in terms of the bits, and `GivesUp` when it stops short of it.

## Main results

* `bytesCoveringH264PpsLoop_step` — one iteration.
* `scan_cases` — how the scan ends, and how far it gets.
* `bytesCoveringH264Pps_cases` — what is returned.
-/

namespace Ekizu.Dave

/-! ## Bits -/

/-- Bit `p` of the payload, the highest of a byte first. -/
def bitAt (payload : Bytes) (p : Nat) : Option Bool :=
  (payload[p / 8]?).map fun byte => decide (byte.toNat &&& (1 <<< (7 - p % 8)) ≠ 0)

/-- The byte at `b` is an emulation prevention byte. -/
def EmulationAt (payload : Bytes) (b : Nat) : Prop :=
  2 ≤ b ∧ payload[b]? = some 0x03 ∧ payload[b - 1]? = some 0 ∧ payload[b - 2]? = some 0

instance (payload : Bytes) (b : Nat) : Decidable (EmulationAt payload b) :=
  inferInstanceAs (Decidable (_ ∧ _))

theorem EmulationAt.lt_length {payload : Bytes} {b : Nat} (h : EmulationAt payload b) :
    b < payload.length := (List.getElem?_eq_some_iff.mp h.2.1).1

/-- Behind an emulation prevention byte there is no other one at once. -/
theorem EmulationAt.not_succ {payload : Bytes} {b : Nat} (h : EmulationAt payload b) :
    ¬ EmulationAt payload (b + 1) := by
  intro hnext
  have hthree := h.2.1
  have hzero : payload[b]? = some 0 := hnext.2.2.1
  exact absurd (hthree.symm.trans hzero) (by decide)

/-- The scan looks at an emulation prevention byte when it starts one. -/
def SkipsAt (payload : Bytes) (p : Nat) : Prop :=
  p % 8 = 0 ∧ EmulationAt payload (p / 8)

instance (payload : Bytes) (p : Nat) : Decidable (SkipsAt payload p) :=
  inferInstanceAs (Decidable (_ ∧ _))

/-! ## One iteration -/

section Iteration

variable {payload : Bytes} {p zeros parsed : Nat}

theorem bytesCoveringH264PpsLoop_stop (h : ¬ (p < payload.length * 8 ∧ parsed < 3)) :
    bytesCoveringH264PpsLoop payload p zeros parsed = some (some p) := by
  rw [bytesCoveringH264PpsLoop, if_neg h]

/-- **One iteration** of the loop of `bytes_covering_h264_pps`. -/
theorem bytesCoveringH264PpsLoop_step (h : p < payload.length * 8 ∧ parsed < 3) :
    bytesCoveringH264PpsLoop payload p zeros parsed =
      if SkipsAt payload p then bytesCoveringH264PpsLoop payload (p + 8) zeros parsed
      else if bitAt payload p = some false then
        if 32 ≤ zeros + 1 then some none
        else bytesCoveringH264PpsLoop payload (p + 1) (zeros + 1) parsed
      else bytesCoveringH264PpsLoop payload (p + (1 + zeros)) 0 (parsed + 1) := by
  have hbyte : payload[p / 8]? = some payload[p / 8] := List.getElem?_eq_getElem (by omega)
  have hbit : bitAt payload p = some false ↔
      payload[p / 8].toNat &&& (1 <<< (7 - p % 8)) = 0 := by
    unfold bitAt
    rw [hbyte]
    simp
  rw [bytesCoveringH264PpsLoop, if_pos h]
  simp only [hbyte, Option.bind_eq_bind, Option.bind_some, hbit]
  by_cases hthree : p % 8 = 0 ∧ 2 ≤ p / 8 ∧ payload[p / 8] = 0x03
  · have h1 : payload[p / 8 - 1]? = some payload[p / 8 - 1] :=
      List.getElem?_eq_getElem (by omega)
    have h2 : payload[p / 8 - 2]? = some payload[p / 8 - 2] :=
      List.getElem?_eq_getElem (by omega)
    have hskip : SkipsAt payload p ↔ payload[p / 8 - 1] = 0 ∧ payload[p / 8 - 2] = 0 := by
      unfold SkipsAt EmulationAt
      rw [hbyte, h1, h2, Option.some_inj, Option.some_inj, Option.some_inj]
      exact ⟨fun hall => hall.2.2.2, fun hboth => ⟨hthree.1, hthree.2.1, hthree.2.2, hboth⟩⟩
    simp only [if_pos hthree, h1, h2, Option.bind_some, Option.pure_def, hskip,
      decide_eq_true_eq]
  · have hskip : ¬ SkipsAt payload p := by
      rintro ⟨hstart, htwo, hvalue, -⟩
      exact hthree ⟨hstart, htwo, Option.some.inj (hbyte.symm.trans hvalue)⟩
    simp only [if_neg hthree, if_neg hskip, Option.bind_some, Option.pure_def]
    simp

end Iteration

/-! ## What is read -/

/-- From bit `p`, with `zeros` zero bits counted, the scan reads `n` codes and ends at `stop`:
emulation prevention bytes are passed over in the zeros, and the rest of a code is as many
bits as stand there. -/
inductive Reads (payload : Bytes) : (p zeros n stop : Nat) → Prop
  | done {p zeros : Nat} : Reads payload p zeros 0 p
  | skip {p zeros n stop : Nat} : SkipsAt payload p → Reads payload (p + 8) zeros (n + 1) stop →
      Reads payload p zeros (n + 1) stop
  | zero {p zeros n stop : Nat} : ¬ SkipsAt payload p → bitAt payload p = some false →
      zeros + 1 < 32 → Reads payload (p + 1) (zeros + 1) (n + 1) stop →
      Reads payload p zeros (n + 1) stop
  | one {p zeros n stop : Nat} : ¬ SkipsAt payload p → bitAt payload p = some true →
      Reads payload (p + (1 + zeros)) 0 n stop → Reads payload p zeros (n + 1) stop

/-- From bit `p`, with `zeros` zero bits counted, the scan meets 32 zero bits in a row before
it has read `n` codes. -/
inductive GivesUp (payload : Bytes) : (p zeros n : Nat) → Prop
  | here {p zeros n : Nat} : ¬ SkipsAt payload p → bitAt payload p = some false →
      32 ≤ zeros + 1 → GivesUp payload p zeros (n + 1)
  | skip {p zeros n : Nat} : SkipsAt payload p → GivesUp payload (p + 8) zeros (n + 1) →
      GivesUp payload p zeros (n + 1)
  | zero {p zeros n : Nat} : ¬ SkipsAt payload p → bitAt payload p = some false →
      zeros + 1 < 32 → GivesUp payload (p + 1) (zeros + 1) (n + 1) →
      GivesUp payload p zeros (n + 1)
  | one {p zeros n : Nat} : ¬ SkipsAt payload p → bitAt payload p = some true →
      GivesUp payload (p + (1 + zeros)) 0 n → GivesUp payload p zeros (n + 1)

theorem bitAt_lt {payload : Bytes} {p : Nat} {bit : Bool} (h : bitAt payload p = some bit) :
    p < payload.length * 8 := by
  obtain ⟨byte, hbyte, -⟩ := Option.map_eq_some_iff.mp h
  have hlt := (List.getElem?_eq_some_iff.mp hbyte).1
  omega

theorem SkipsAt.lt_length {payload : Bytes} {p : Nat} (h : SkipsAt payload p) :
    p < payload.length * 8 := by
  have hlt := h.2.lt_length
  omega

/-- The loop follows `Reads` to its end. -/
theorem Reads.loop_eq {payload : Bytes} {p zeros n stop : Nat}
    (h : Reads payload p zeros n stop) {parsed : Nat} (hparsed : parsed + n = 3) :
    bytesCoveringH264PpsLoop payload p zeros parsed = some (some stop) := by
  induction h generalizing parsed with
  | done => exact bytesCoveringH264PpsLoop_stop (by omega)
  | skip hskip _ ih =>
      rw [bytesCoveringH264PpsLoop_step ⟨hskip.lt_length, by omega⟩, if_pos hskip, ih hparsed]
  | zero hskip hbit hfew _ ih =>
      rw [bytesCoveringH264PpsLoop_step ⟨bitAt_lt hbit, by omega⟩, if_neg hskip, if_pos hbit,
        if_neg (by omega), ih hparsed]
  | one hskip hbit _ ih =>
      rw [bytesCoveringH264PpsLoop_step ⟨bitAt_lt hbit, by omega⟩, if_neg hskip,
        if_neg (by rw [hbit]; simp), ih (by omega)]

theorem GivesUp.loop_eq {payload : Bytes} {p zeros n : Nat} (h : GivesUp payload p zeros n)
    {parsed : Nat} (hparsed : parsed + n = 3) :
    bytesCoveringH264PpsLoop payload p zeros parsed = some none := by
  induction h generalizing parsed with
  | here hskip hbit hmany =>
      rw [bytesCoveringH264PpsLoop_step ⟨bitAt_lt hbit, by omega⟩, if_neg hskip, if_pos hbit,
        if_pos hmany]
  | skip hskip _ ih =>
      rw [bytesCoveringH264PpsLoop_step ⟨hskip.lt_length, by omega⟩, if_pos hskip, ih hparsed]
  | zero hskip hbit hfew _ ih =>
      rw [bytesCoveringH264PpsLoop_step ⟨bitAt_lt hbit, by omega⟩, if_neg hskip, if_pos hbit,
        if_neg (by omega), ih hparsed]
  | one hskip hbit _ ih =>
      rw [bytesCoveringH264PpsLoop_step ⟨bitAt_lt hbit, by omega⟩, if_neg hskip,
        if_neg (by rw [hbit]; simp), ih (by omega)]

/-- How the scan ends: it gives up, it reads the codes that are left, or it runs out of
payload. -/
inductive ScanEnds (payload : Bytes) (p zeros n : Nat) : Option Nat → Prop
  | givesUp : GivesUp payload p zeros n → ScanEnds payload p zeros n none
  | reads {stop : Nat} : Reads payload p zeros n stop → ScanEnds payload p zeros n (some stop)
  | runsOut {stop : Nat} : payload.length * 8 ≤ stop → ScanEnds payload p zeros n (some stop)

/-- An exp-Golomb code takes at most this many bits with the emulation prevention bytes that
are passed over in it. -/
def longestCode : Nat := 320

/-- How far the scan can still get. -/
def scanBound (payload : Bytes) (p zeros n : Nat) : Nat :=
  p + 9 * (31 - zeros) + longestCode * n + if SkipsAt payload p then 8 else 0

section Ends

variable {payload : Bytes} {p zeros n : Nat} {result : Option Nat}

theorem ScanEnds.skip (hskip : SkipsAt payload p)
    (h : ScanEnds payload (p + 8) zeros (n + 1) result) :
    ScanEnds payload p zeros (n + 1) result := by
  cases h with
  | givesUp hgives => exact .givesUp (.skip hskip hgives)
  | reads hreads => exact .reads (.skip hskip hreads)
  | runsOut hlong => exact .runsOut hlong

theorem ScanEnds.zero (hskip : ¬ SkipsAt payload p) (hbit : bitAt payload p = some false)
    (hfew : zeros + 1 < 32) (h : ScanEnds payload (p + 1) (zeros + 1) (n + 1) result) :
    ScanEnds payload p zeros (n + 1) result := by
  cases h with
  | givesUp hgives => exact .givesUp (.zero hskip hbit hfew hgives)
  | reads hreads => exact .reads (.zero hskip hbit hfew hreads)
  | runsOut hlong => exact .runsOut hlong

theorem ScanEnds.one (hskip : ¬ SkipsAt payload p) (hbit : bitAt payload p = some true)
    (h : ScanEnds payload (p + (1 + zeros)) 0 n result) :
    ScanEnds payload p zeros (n + 1) result := by
  cases h with
  | givesUp hgives => exact .givesUp (.one hskip hbit hgives)
  | reads hreads => exact .reads (.one hskip hbit hreads)
  | runsOut hlong => exact .runsOut hlong

theorem le_scanBound : p ≤ scanBound payload p zeros n := by
  unfold scanBound
  omega

/-- Two emulation prevention bytes are never passed over in a row. -/
theorem scanBound_skip (hskip : SkipsAt payload p) :
    scanBound payload (p + 8) zeros n ≤ scanBound payload p zeros n := by
  have hnot : ¬ SkipsAt payload (p + 8) := by
    rintro ⟨-, hnext⟩
    rw [Nat.add_div_right p (by decide)] at hnext
    exact hskip.2.not_succ hnext
  unfold scanBound
  rw [if_neg hnot, if_pos hskip]
  omega

theorem scanBound_zero (hskip : ¬ SkipsAt payload p) (hfew : zeros + 1 < 32) :
    scanBound payload (p + 1) (zeros + 1) n ≤ scanBound payload p zeros n := by
  unfold scanBound
  rw [if_neg hskip]
  split <;> omega

theorem scanBound_one (hskip : ¬ SkipsAt payload p) (hzeros : zeros ≤ 31) :
    scanBound payload (p + (1 + zeros)) 0 n ≤ scanBound payload p zeros (n + 1) := by
  unfold scanBound longestCode
  rw [if_neg hskip]
  split <;> omega

/-- **How the scan ends**, and that it does not get far. -/
theorem scan_cases {parsed : Nat} (hparsed : parsed + n = 3) (hzeros : zeros ≤ 31) :
    ∃ result, bytesCoveringH264PpsLoop payload p zeros parsed = some result ∧
      ScanEnds payload p zeros n result ∧
      ∀ stop, result = some stop → stop ≤ scanBound payload p zeros n := by
  induction hk : payload.length * 8 - p using Nat.strongRecOn
    generalizing p zeros parsed n with
  | ind k ih =>
      by_cases hmore : p < payload.length * 8
      · cases n with
        | zero =>
            refine ⟨some p, bytesCoveringH264PpsLoop_stop (by omega), .reads .done, ?_⟩
            rintro stop ⟨⟩
            exact le_scanBound
        | succ n =>
            rw [bytesCoveringH264PpsLoop_step ⟨hmore, by omega⟩]
            by_cases hskip : SkipsAt payload p
            · obtain ⟨result, hresult, hends, hle⟩ :=
                ih (payload.length * 8 - (p + 8)) (by omega) hparsed hzeros rfl
              rw [if_pos hskip]
              exact ⟨result, hresult, hends.skip hskip,
                fun stop hstop => Nat.le_trans (hle stop hstop) (scanBound_skip hskip)⟩
            · rw [if_neg hskip]
              by_cases hbit : bitAt payload p = some false
              · rw [if_pos hbit]
                by_cases hmany : 32 ≤ zeros + 1
                · rw [if_pos hmany]
                  exact ⟨none, rfl, .givesUp (.here hskip hbit hmany), fun stop h => by cases h⟩
                · have hfew : zeros + 1 < 32 := by omega
                  obtain ⟨result, hresult, hends, hle⟩ :=
                    ih (payload.length * 8 - (p + 1)) (by omega) hparsed
                      (show zeros + 1 ≤ 31 by omega) rfl
                  rw [if_neg hmany]
                  exact ⟨result, hresult, hends.zero hskip hbit hfew,
                    fun stop hstop => Nat.le_trans (hle stop hstop) (scanBound_zero hskip hfew)⟩
              · have hone : bitAt payload p = some true := by
                  have hbyte : payload[p / 8]? = some payload[p / 8] :=
                    List.getElem?_eq_getElem (by omega)
                  unfold bitAt at hbit ⊢
                  rw [hbyte, Option.map_some] at hbit ⊢
                  simpa using hbit
                obtain ⟨result, hresult, hends, hle⟩ :=
                  ih (payload.length * 8 - (p + (1 + zeros))) (by omega)
                    (show parsed + 1 + n = 3 by omega) (show 0 ≤ 31 by omega) rfl
                rw [if_neg hbit]
                exact ⟨result, hresult, hends.one hskip hone,
                  fun stop hstop => Nat.le_trans (hle stop hstop) (scanBound_one hskip hzeros)⟩
      · refine ⟨some p, bytesCoveringH264PpsLoop_stop (by omega), .runsOut (by omega), ?_⟩
        rintro stop ⟨⟩
        exact le_scanBound

end Ends

/-! ## What is returned -/

/-- The limit of 16 bits is never reached. -/
theorem bytesCoveringH264Pps_of_loop {payload : Bytes} {stop : Nat}
    (h : bytesCoveringH264PpsLoop payload 0 0 0 = some (some stop)) :
    bytesCoveringH264Pps payload = some (stop / 8 + 1) := by
  have hends : ∃ result, bytesCoveringH264PpsLoop payload 0 0 0 = some result ∧
      ScanEnds payload 0 0 3 result ∧
      ∀ stop, result = some stop → stop ≤ scanBound payload 0 0 3 :=
    scan_cases rfl (by decide)
  obtain ⟨result, hresult, -, hle⟩ := hends
  have hbound := hle stop (Option.some.inj (hresult.symm.trans h))
  unfold scanBound longestCode at hbound
  have hsmall : ¬ 65535 < stop / 8 + 1 := by
    split at hbound <;> omega
  unfold bytesCoveringH264Pps
  rw [h]
  simp only [Option.bind_eq_bind, Option.bind_some, if_neg hsmall, Option.pure_def]

/-- The byte of the bit where the third code ends, and all before it. -/
theorem Reads.covering {payload : Bytes} {stop : Nat} (h : Reads payload 0 0 3 stop) :
    bytesCoveringH264Pps payload = some (stop / 8 + 1) :=
  bytesCoveringH264Pps_of_loop (h.loop_eq rfl)

theorem GivesUp.covering {payload : Bytes} (h : GivesUp payload 0 0 3) :
    bytesCoveringH264Pps payload = some 0 := by
  have hloop : bytesCoveringH264PpsLoop payload 0 0 0 = some none := h.loop_eq rfl
  unfold bytesCoveringH264Pps
  rw [hloop]
  rfl

/-- **What the scan returns.** -/
theorem bytesCoveringH264Pps_cases (payload : Bytes) :
    GivesUp payload 0 0 3 ∨ (∃ stop, Reads payload 0 0 3 stop) ∨
      ∃ count, payload.length < count ∧ bytesCoveringH264Pps payload = some count := by
  have hends : ∃ result, bytesCoveringH264PpsLoop payload 0 0 0 = some result ∧
      ScanEnds payload 0 0 3 result ∧
      ∀ stop, result = some stop → stop ≤ scanBound payload 0 0 3 :=
    scan_cases rfl (by decide)
  obtain ⟨result, hresult, hscan, -⟩ := hends
  cases hscan with
  | givesUp h => exact .inl h
  | reads h => exact .inr (.inl ⟨_, h⟩)
  | runsOut h =>
      exact .inr (.inr ⟨_, by omega, bytesCoveringH264Pps_of_loop hresult⟩)

theorem bytesCoveringH264Pps_total (payload : Bytes) :
    ∃ count, bytesCoveringH264Pps payload = some count := by
  obtain hgives | ⟨stop, hreads⟩ | ⟨count, -, hcount⟩ := bytesCoveringH264Pps_cases payload
  · exact ⟨0, hgives.covering⟩
  · exact ⟨stop / 8 + 1, hreads.covering⟩
  · exact ⟨count, hcount⟩

end Ekizu.Dave
