import Ekizu.Dave.Probe

/-!
# A cipher manager in two runs

Two managers with the same ratchet see the same frames, one of them also
forged ones.  A forged frame never reaches `report_cipher_success`, but the
code in front of the AEAD check runs for it.  `Shadows` says how far the second
manager can drift from the first one.

## Main results

* `Shadows.probe_left`, `probe_right` — a look-up in one of the two runs.
* `Shadows.report_both`, `report_left`, `report_right` — a frame that opened.
* `Shadows.finds` — what the first manager opens in time, the second one opens.
-/

namespace Ekizu.Dave

open Lib.ReplayWindow LawfulHashRatchet

variable {H : Type} [HashRatchet H] [LawfulHashRatchet H]

/-- The readings of an attempt lie between two points in time. -/
structure ManagerClock.Within (now now' : TimePoint) (clock : ManagerClock) : Prop where
  cleanup_ge : now ≤ clock.cleanup.time
  cleanup_le : clock.cleanup.time ≤ now'
  report_ge : now ≤ clock.report.time
  report_le : clock.report.time ≤ now'

/-- `decrypt_impl` as far as the manager is concerned: what it leaves of the
manager and the big nonce it reports.  Where a cipher is found, `opens` is the
outcome of the AEAD check. -/
def CipherManager.attempt (m : CipherManager H) (clock : ManagerClock) (nonce : UInt32)
    (opens : Bool) : CipherManager H × Option Nat :=
  if (m.probe clock nonce).2.isSome ∧ opens = true then
    ((m.probe clock nonce).1.reportCipherSuccess clock.report (m.nonceGeneration nonce) nonce,
      some (computeWrappedBigNonce (m.nonceGeneration nonce) nonce))
  else ((m.probe clock nonce).1, none)

/-- What a manager has reported: big nonces with the readings of the clock in
`report_cipher_success`, the last one first. -/
abbrev Log := List (Nat × Instant)

/-- Extend a log by what an attempt reported. -/
def Log.note (log : Log) (now : Instant) : Option Nat → Log
  | none => log
  | some bigNonce => (bigNonce, now) :: log

/-- The second manager has seen the frames of the first one and forged ones.
It may miss a nonce that the first one has given up, and it may have lost a
generation once `CIPHER_EXPIRY` has passed since a newer one was reported. -/
structure Shadows (served : Nat → Prop) (now : TimePoint) (log : Log)
    (a b : CipherManager H) : Prop where
  left : Kept served a
  right : Kept served b
  base : b.ratchet.base = a.ratchet.base
  created : b.creationTime = a.creationTime
  expires : b.expiryTime = a.expiryTime
  newest : b.newestProcessedNonce = a.newestProcessedNonce
  logged : ∀ entry ∈ log, entry.2.time ≤ now
  missing : ∀ x ∈ a.missingNonces, a.oldestGeneration ≤ x / 2 ^ 24 → x ∈ b.missingNonces
  retained : ∀ x ∈ a.missingNonces, x / 2 ^ 24 < a.newestGeneration →
    ∃ entry ∈ log, x / 2 ^ 24 < entry.1 / 2 ^ 24 ∧
      (now ≤ entry.2.time + cipherExpiry →
        ∃ e ∈ b.ciphers, e.1 ≤ x / 2 ^ 24 ∧ entry.2.time + cipherExpiry ≤ e.2.expiry)

namespace Shadows

open CipherManager

variable {served : Nat → Prop} {now now' : TimePoint} {log : Log} {a b : CipherManager H}
  {clock : ManagerClock} {nonce : UInt32} {reading : Instant}

theorem new (ratchet : KeyRatchet H) (created : Instant) (now : TimePoint) :
    Shadows (fun g => ratchet.Live g.toUInt8) now [] (CipherManager.new ratchet created)
      (CipherManager.new ratchet created) where
  left := .new ratchet created
  right := .new ratchet created
  base := rfl
  created := rfl
  expires := rfl
  newest := rfl
  logged := by simp
  missing := by simp [CipherManager.new]
  retained := by simp [CipherManager.new]

theorem updateExpiry (h : Shadows served now log a b) (expiry : TimePoint) :
    Shadows served now log (a.updateExpiry expiry) (b.updateExpiry expiry) :=
  ⟨h.left.updateExpiry expiry, h.right.updateExpiry expiry, h.base, h.created,
    congrArg (min · expiry) h.expires, h.newest, h.logged, h.missing, h.retained⟩

/-- Time passes. -/
theorem mono (h : Shadows served now log a b) (hnow : now ≤ now') :
    Shadows served now' log a b := by
  refine ⟨h.left, h.right, h.base, h.created, h.expires, h.newest, ?_, h.missing, ?_⟩
  · intro entry hentry
    exact Int.le_trans (h.logged entry hentry) hnow
  · intro x hx hlt
    obtain ⟨entry, hentry, hnewer, hkept⟩ := h.retained x hx hlt
    exact ⟨entry, hentry, hnewer, fun htime => hkept (Int.le_trans hnow htime)⟩

theorem newestGeneration (h : Shadows served now log a b) :
    b.newestGeneration = a.newestGeneration := by
  rw [h.right.newest_eq, h.left.newest_eq, h.newest]

theorem maxGeneration (h : Shadows served now log a b) (now' : Instant) :
    b.maxGeneration now' = a.maxGeneration now' := by
  rw [CipherManager.maxGeneration, CipherManager.maxGeneration, h.created]

theorem available_iff (h : Shadows served now log a b) {now' : Instant} {g : Nat} :
    Available served b now' g ↔ Available served a now' g := by
  rw [Available, Available, h.newestGeneration, h.maxGeneration, h.base]

/-- The first manager looks for a cipher. -/
theorem probe_left (herase : ErasesOne H) (h : Shadows served now log a b)
    (hmax : a.maxGeneration clock.lifetime < 256) (nonce : UInt32) :
    Shadows served now log (a.probe clock nonce).1 b := by
  have hprobed := a.probed clock nonce
  obtain ⟨hnewest, hmissing⟩ := Window.mk.inj hprobed.window
  refine ⟨h.left.probe herase hmax nonce, h.right, h.base.trans hprobed.base.symm,
    h.created.trans hprobed.created.symm, h.expires.trans hprobed.expires.symm,
    h.newest.trans hnewest.symm, h.logged, ?_, ?_⟩
  · intro x hx hold
    rw [hmissing] at hx
    exact h.missing x hx (Nat.le_trans hprobed.oldest_le hold)
  · intro x hx hlt
    rw [hmissing] at hx
    rw [hprobed.newest] at hlt
    exact h.retained x hx hlt

/-- The second manager looks for a cipher. -/
theorem probe_right (herase : ErasesOne H) (h : Shadows served now log a b)
    (hmax : b.maxGeneration clock.lifetime < 256) (hclock : clock.cleanup.time ≤ now)
    (nonce : UInt32) : Shadows served now log a (b.probe clock nonce).1 := by
  have hprobed := b.probed clock nonce
  obtain ⟨hnewest, hmissing⟩ := Window.mk.inj hprobed.window
  refine ⟨h.left, h.right.probe herase hmax nonce, hprobed.base.trans h.base,
    hprobed.created.trans h.created, hprobed.expires.trans h.expires, hnewest.trans h.newest,
    h.logged, ?_, ?_⟩
  · intro x hx hold
    rw [hmissing]
    exact h.missing x hx hold
  · intro x hx hlt
    obtain ⟨entry, hentry, hnewer, hkept⟩ := h.retained x hx hlt
    refine ⟨entry, hentry, hnewer, ?_⟩
    intro htime
    obtain ⟨e, he, hle, hexpiry⟩ := hkept htime
    -- the cipher has not expired yet, so the clean-up leaves it
    have halive : clock.cleanup.time ≤ e.2.expiry :=
      Int.le_trans hclock (Int.le_trans htime hexpiry)
    exact ⟨e, hprobed.ciphers e he halive, hle, hexpiry⟩

/-- Only the first manager reports: a late nonce, and one less to answer for. -/
theorem report_left (h : Shadows served now log a b) (hfound : Found a nonce)
    (hlate : Late a nonce) (hreading : reading.time ≤ now) :
    Shadows served now ((nonce.toNat, reading) :: log)
      (a.reportCipherSuccess reading (nonce.toNat / 2 ^ 24) nonce) b := by
  have hreported := a.reported reading nonce
  have hmissing := fun x => hreported.mem_missing_of_late h.left hlate (x := x)
  have hbyte := h.left.byte_le_of_late hlate
  refine ⟨h.left.reportCipherSuccess reading hfound.cached hfound.admits, h.right,
    h.base.trans hreported.base.symm, h.created.trans hreported.created.symm,
    h.expires.trans hreported.expires.symm,
    h.newest.trans (hreported.newest_of_late hlate).symm, ?_, ?_, ?_⟩
  · intro entry hentry
    rcases List.mem_cons.mp hentry with rfl | hentry
    · exact hreading
    · exact h.logged entry hentry
  · intro x hx hold
    rw [hreported.oldest] at hold
    exact h.missing x ((hmissing x).mp hx).1 hold
  · intro x hx hlt
    rw [hreported.newest, Nat.max_eq_left hbyte] at hlt
    obtain ⟨entry, hentry, hnewer, hkept⟩ := h.retained x ((hmissing x).mp hx).1 hlt
    exact ⟨entry, List.mem_cons_of_mem _ hentry, hnewer, hkept⟩

/-- Only the second manager reports: a late nonce that the first one has seen
or given up. -/
theorem report_right (h : Shadows served now log a b) (hfound : Found b nonce)
    (hlate : Late b nonce)
    (hgone : nonce.toNat ∈ a.missingNonces → nonce.toNat / 2 ^ 24 < a.oldestGeneration)
    (reading : Instant) :
    Shadows served now log a (b.reportCipherSuccess reading (nonce.toNat / 2 ^ 24) nonce) := by
  have hreported := b.reported reading nonce
  have hmissing := fun x => hreported.mem_missing_of_late h.right hlate (x := x)
  have hbyte := h.right.byte_le_of_late hlate
  refine ⟨h.left, h.right.reportCipherSuccess reading hfound.cached hfound.admits,
    hreported.base.trans h.base, hreported.created.trans h.created,
    hreported.expires.trans h.expires, (hreported.newest_of_late hlate).trans h.newest,
    h.logged, ?_, ?_⟩
  · intro x hx hold
    refine (hmissing x).mpr ⟨h.missing x hx hold, ?_⟩
    intro heq
    rw [heq] at hx hold
    exact absurd hold (Nat.not_le_of_lt (hgone hx))
  · intro x hx hlt
    obtain ⟨entry, hentry, hnewer, hkept⟩ := h.retained x hx hlt
    refine ⟨entry, hentry, hnewer, ?_⟩
    intro htime
    obtain ⟨e, he, hle, hexpiry⟩ := hkept htime
    exact ⟨e, (mem_reportCipherSuccess_of_le hbyte).mpr he, hle, hexpiry⟩

omit [HashRatchet H] [LawfulHashRatchet H] in
/-- A cipher that is cached before a report is cached after it, and expires no
earlier than it would have. -/
private theorem cached_after {x : Nat} {expiry : TimePoint}
    (hexpiry : expiry ≤ reading.time + cipherExpiry)
    (hcached : ∃ e ∈ b.ciphers, e.1 ≤ x ∧ expiry ≤ e.2.expiry) :
    ∃ e ∈ (b.reportCipherSuccess reading (nonce.toNat / 2 ^ 24) nonce).ciphers,
      e.1 ≤ x ∧ expiry ≤ e.2.expiry := by
  obtain ⟨e, he, hle, hlater⟩ := hcached
  refine ⟨_, mem_reportCipherSuccess.mpr ⟨e, he, rfl⟩, hle, ?_⟩
  simp only
  split
  · exact hexpiry
  · exact hlater

/-- Both managers report. -/
theorem report_both (h : Shadows served now log a b) (hleft : Found a nonce)
    (hright : Found b nonce) (hlogged : ∀ entry ∈ log, entry.2.time ≤ reading.time)
    (hreading : reading.time ≤ now) :
    Shadows served now ((nonce.toNat, reading) :: log)
      (a.reportCipherSuccess reading (nonce.toNat / 2 ^ 24) nonce)
      (b.reportCipherSuccess reading (nonce.toNat / 2 ^ 24) nonce) := by
  have ha := a.reported reading nonce
  have hb := b.reported reading nonce
  refine ⟨h.left.reportCipherSuccess reading hleft.cached hleft.admits,
    h.right.reportCipherSuccess reading hright.cached hright.admits,
    (hb.base.trans h.base).trans ha.base.symm,
    (hb.created.trans h.created).trans ha.created.symm,
    (hb.expires.trans h.expires).trans ha.expires.symm, ?_, ?_, ?_, ?_⟩
  · rw [ha.newestProcessed, hb.newestProcessed, h.newest]
  · intro entry hentry
    rcases List.mem_cons.mp hentry with rfl | hentry
    · exact hreading
    · exact h.logged entry hentry
  · intro x hx hold
    rw [ha.oldest] at hold
    cases hn : a.newestProcessedNonce with
    | none =>
        rw [ha.missing_of_first h.left hn] at hx
        exact absurd hx List.not_mem_nil
    | some n =>
        have hn' : b.newestProcessedNonce = some n := h.newest.trans hn
        by_cases hnewer : n < nonce.toNat
        · have hmem := (ha.mem_missing_of_newer h.left hn hnewer).mp hx
          apply (hb.mem_missing_of_newer h.right hn' hnewer).mpr
          exact ⟨hmem.1, hmem.2.imp_left fun hx => h.missing x hx hold⟩
        · have hle := Nat.le_of_not_lt hnewer
          have hmem := (ha.mem_missing_of_late h.left ⟨n, hn, hle⟩).mp hx
          apply (hb.mem_missing_of_late h.right ⟨n, hn', hle⟩).mpr
          exact ⟨h.missing x hmem.1 hold, hmem.2⟩
  · intro x hx hlt
    have hearlier : x ∈ a.missingNonces → x / 2 ^ 24 < a.newestGeneration →
        ∃ entry ∈ (nonce.toNat, reading) :: log, x / 2 ^ 24 < entry.1 / 2 ^ 24 ∧
          (now ≤ entry.2.time + cipherExpiry →
            ∃ e ∈ (b.reportCipherSuccess reading (nonce.toNat / 2 ^ 24) nonce).ciphers,
              e.1 ≤ x / 2 ^ 24 ∧ entry.2.time + cipherExpiry ≤ e.2.expiry) := by
      intro hx hlt
      obtain ⟨entry, hentry, hnewer, hkept⟩ := h.retained x hx hlt
      refine ⟨entry, List.mem_cons_of_mem _ hentry, hnewer, ?_⟩
      intro htime
      exact cached_after (Int.add_le_add_right (hlogged entry hentry) _) (hkept htime)
    cases hn : a.newestProcessedNonce with
    | none =>
        rw [ha.missing_of_first h.left hn] at hx
        exact absurd hx List.not_mem_nil
    | some n =>
        have hgen : a.newestGeneration = n / 2 ^ 24 := by
          rw [h.left.newest_eq, hn, Option.getD_some]
        by_cases hnewer : n < nonce.toNat
        · have hmem := (ha.mem_missing_of_newer h.left hn hnewer).mp hx
          by_cases hold : x / 2 ^ 24 < a.newestGeneration
          · have hmissing : x ∈ a.missingNonces := by
              rcases hmem.2 with hmissing | hskipped
              · exact hmissing
              · omega
            exact hearlier hmissing hold
          · -- the report retires the generation that was the newest one so far
            rw [ha.newest] at hlt
            have hbyte : a.newestGeneration < nonce.toNat / 2 ^ 24 := by omega
            have hretired := h.newestGeneration
            obtain ⟨e, he, hcurrent⟩ := h.right.current (by rw [h.newest, hn]; simp)
            have hmax := h.right.lasting e he (Nat.le_of_eq hcurrent.symm)
            refine ⟨_, List.mem_cons_self, by simp only; omega, fun _ =>
              ⟨_, mem_reportCipherSuccess.mpr ⟨e, he, rfl⟩, by simp only; omega, ?_⟩⟩
            simp only
            exact Int.le_of_eq (if_pos ⟨by omega, by omega, hmax⟩).symm
        · have hle := Nat.le_of_not_lt hnewer
          have hbyte := h.left.byte_le_of_late ⟨n, hn, hle⟩
          rw [ha.newest, Nat.max_eq_left hbyte] at hlt
          exact hearlier ((ha.mem_missing_of_late h.left ⟨n, hn, hle⟩).mp hx).1 hlt

/-! ### Attempts -/

/-- **What the first manager finds in time, the second one finds.** -/
theorem finds (herase : ErasesOne H) (h : Shadows served now log a b)
    (hmax : a.maxGeneration clock.lifetime < 256) (hclock : now ≤ clock.cleanup.time)
    (htimely : ∀ entry ∈ log, nonce.toNat / 2 ^ 24 < entry.1 / 2 ^ 24 →
      clock.cleanup.time ≤ entry.2.time + cipherExpiry)
    (hfound : (a.probe clock nonce).2.isSome = true) :
    (b.probe clock nonce).2.isSome = true := by
  have hmax' : b.maxGeneration clock.lifetime < 256 := by
    rw [h.maxGeneration]
    exact hmax
  obtain ⟨hold, hadmits, havailable⟩ := (h.left.probe_isSome_iff herase hmax).mp hfound
  have havailable' := h.available_iff.mpr havailable
  by_cases hlate : Late a nonce
  · obtain ⟨n, hn, hle⟩ := hlate
    have hmissing : nonce.toNat ∈ a.missingNonces := by
      simpa [Window.admits, window, hn, Nat.not_lt_of_le hle] using hadmits
    have hgrown := a.oldestGeneration_le_cleanup clock.cleanup
    have hmissing' := h.missing _ hmissing (Nat.le_trans hgrown hold)
    have hkept := h.right.cleanupExpiredCiphers herase clock.cleanup
    apply (h.right.probe_isSome_iff herase hmax').mpr
    refine ⟨?_, ?_, havailable'⟩
    · by_cases hnewest : nonce.toNat / 2 ^ 24 < a.newestGeneration
      · -- a cipher of this generation or an older one keeps it from being given up
        obtain ⟨entry, hentry, hnewer, hcached⟩ := h.retained _ hmissing hnewest
        have htime := htimely entry hentry hnewer
        obtain ⟨e, he, hle, hexpiry⟩ := hcached (Int.le_trans hclock htime)
        have halive : clock.cleanup.time ≤ e.2.expiry := Int.le_trans htime hexpiry
        have hmem := mem_cleanupExpiredCiphers.mpr ⟨he, halive⟩
        exact Nat.le_trans (hkept.cached e hmem).1 hle
      · apply Nat.le_trans hkept.oldest_le
        rw [newestGeneration_cleanup, h.newestGeneration]
        exact Nat.le_of_not_lt hnewest
    · exact Window.admits_of_mem hmissing'
  · apply h.right.probe_newer herase hmax' _ havailable'
    intro n hn
    exact not_late hlate n (h.newest.symm.trans hn)

/-- An attempt that opens the frame. -/
theorem attempt_of_found (herase : ErasesOne H) (h : Kept served a)
    (hmax : a.maxGeneration clock.lifetime < 256)
    (hfound : (a.probe clock nonce).2.isSome = true) :
    a.attempt clock nonce true = ((a.probe clock nonce).1.reportCipherSuccess clock.report
      (nonce.toNat / 2 ^ 24) nonce, some nonce.toNat) := by
  have hgen := (h.probe_found herase hmax hfound).1
  rw [CipherManager.attempt, if_pos ⟨hfound, rfl⟩, hgen, bigNonce_of_generation]

omit [LawfulHashRatchet H] in
/-- An attempt that does not. -/
theorem attempt_of_closed {opens : Bool}
    (h : (a.probe clock nonce).2 = none ∨ opens = false) :
    a.attempt clock nonce opens = ((a.probe clock nonce).1, none) := by
  apply if_neg
  intro hboth
  rcases h with hnone | hclosed
  · simp [hnone] at hboth
  · simp [hclosed] at hboth

private theorem found_of_probe (herase : ErasesOne H) (h : Kept served a)
    (hmax : a.maxGeneration clock.lifetime < 256)
    (hfound : (a.probe clock nonce).2.isSome = true) : Found (a.probe clock nonce).1 nonce := by
  constructor
  · exact (h.probe_found herase hmax hfound).2.2
  · rw [(a.probed clock nonce).window]
    exact ((h.probe_isSome_iff herase hmax).mp hfound).2.1

private theorem late_probe_iff : Late (a.probe clock nonce).1 nonce ↔ Late a nonce := by
  have hnewest : (a.probe clock nonce).1.newestProcessedNonce = a.newestProcessedNonce :=
    congrArg Window.newest (a.probed clock nonce).window
  rw [Late, Late, hnewest]

/-- Where one of the managers finds the cipher and the other does not, the
nonce is late. -/
private theorem late_of_found (herase : ErasesOne H) (ha : Kept served a) (hb : Kept served b)
    (hnewest : b.newestProcessedNonce = a.newestProcessedNonce)
    (havailable : Available served a clock.lifetime (nonce.toNat / 2 ^ 24) →
      Available served b clock.lifetime (nonce.toNat / 2 ^ 24))
    (hmax : a.maxGeneration clock.lifetime < 256)
    (hmax' : b.maxGeneration clock.lifetime < 256)
    (hfound : (a.probe clock nonce).2.isSome = true) (hnone : (b.probe clock nonce).2 = none) :
    Late a nonce := by
  by_contra hlate
  have hall := ((ha.probe_isSome_iff herase hmax).mp hfound).2.2
  have hfound' : (b.probe clock nonce).2.isSome = true := by
    apply hb.probe_newer herase hmax' _ (havailable hall)
    intro n hn
    exact not_late hlate n (hnewest.symm.trans hn)
  rw [hnone] at hfound'
  exact absurd hfound' (by decide)

/-- **Both managers try a frame.** -/
theorem attempt (herase : ErasesOne H) (h : Shadows served now log a b)
    (hmax : a.maxGeneration clock.lifetime < 256) (hclock : clock.Within now now')
    (nonce : UInt32) (opens : Bool) :
    Shadows served now' (log.note clock.report (a.attempt clock nonce opens).2)
      (a.attempt clock nonce opens).1 (b.attempt clock nonce opens).1 := by
  have hmax' : b.maxGeneration clock.lifetime < 256 := by
    rw [h.maxGeneration]
    exact hmax
  have hnow : now ≤ now' := Int.le_trans hclock.report_ge hclock.report_le
  have hprobed := ((h.mono hnow).probe_left herase hmax nonce).probe_right herase hmax'
    hclock.cleanup_le nonce
  cases opens with
  | false =>
      rw [attempt_of_closed (.inr rfl), attempt_of_closed (.inr rfl)]
      exact hprobed
  | true =>
      cases hleft : (a.probe clock nonce).2 with
      | none =>
          rw [attempt_of_closed (.inl hleft)]
          cases hright : (b.probe clock nonce).2 with
          | none =>
              rw [attempt_of_closed (.inl hright)]
              exact hprobed
          | some cipher =>
              have hfound : (b.probe clock nonce).2.isSome = true := by rw [hright]; rfl
              have hlate := late_of_found herase h.right h.left h.newest.symm
                h.available_iff.mp hmax' hmax hfound hleft
              have hall := ((h.right.probe_isSome_iff herase hmax').mp hfound).2.2
              rw [attempt_of_found herase h.right hmax' hfound]
              apply hprobed.report_right (found_of_probe herase h.right hmax' hfound)
                (late_probe_iff.mpr hlate)
              -- had the first manager kept the generation, it would have found the cipher
              intro hmem
              have hmissing : (a.probe clock nonce).1.missingNonces = a.missingNonces :=
                congrArg Window.missing (a.probed clock nonce).window
              rw [hmissing] at hmem
              apply h.left.probe_missed herase hmax _ (h.available_iff.mp hall) hleft
              exact Window.admits_of_mem hmem
      | some cipher =>
          have hfound : (a.probe clock nonce).2.isSome = true := by rw [hleft]; rfl
          rw [attempt_of_found herase h.left hmax hfound]
          cases hright : (b.probe clock nonce).2 with
          | none =>
              rw [attempt_of_closed (.inl hright)]
              have hlate := late_of_found herase h.left h.right h.newest
                h.available_iff.mpr hmax hmax' hfound hright
              exact hprobed.report_left (found_of_probe herase h.left hmax hfound)
                (late_probe_iff.mpr hlate) hclock.report_le
          | some cipher' =>
              have hfound' : (b.probe clock nonce).2.isSome = true := by rw [hright]; rfl
              rw [attempt_of_found herase h.right hmax' hfound']
              apply hprobed.report_both (found_of_probe herase h.left hmax hfound)
                (found_of_probe herase h.right hmax' hfound') _ hclock.report_le
              intro entry hentry
              exact Int.le_trans (h.logged entry hentry) hclock.report_ge

end Shadows

end Ekizu.Dave
