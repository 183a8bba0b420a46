import Ekizu.Dave.AeadCipher
import Ekizu.Lib.ReplayWindow

/-!
# Cipher managers

`src/dave/cipher_manager.hpp`.  A manager owns a ratchet, caches one cipher per
generation and remembers which nonces it has accepted.  Every reading of the
steady clock is an argument of its own, so nothing is assumed about how time
passes between two readings.

## Main results

* `canProcessNonce_eq`, `window_reportCipherSuccess` — nonce tracking is the
  library's replay window.
* `Wf` and its preservation — every cached cipher holds the ratchet's key of
  its generation.
-/

namespace Ekizu.Dave

open Lib.ReplayWindow

/-! ## Generations and nonces -/

/-- `compute_wrapped_generation`: the generation with the given low byte that
lies at or after `oldest`, in 32 bits. -/
def computeWrappedGeneration (oldest generation : Nat) : Nat :=
  let remainder := oldest % generationWrap
  let factor := oldest / generationWrap + if generation < remainder then 1 else 0
  (factor * generationWrap + generation) % 2 ^ 32

/-- `compute_wrapped_big_nonce`. -/
def computeWrappedBigNonce (generation : Nat) (nonce : UInt32) : Nat :=
  generation <<< ratchetGenerationShiftBits |||
    (nonce.toNat &&& (1 <<< ratchetGenerationShiftBits - 1))

theorem computeWrappedBigNonce_eq (generation : Nat) (nonce : UInt32) :
    computeWrappedBigNonce generation nonce = generation * 2 ^ 24 + nonce.toNat % 2 ^ 24 := by
  have hmask : nonce.toNat &&& (1 <<< ratchetGenerationShiftBits - 1) =
      nonce.toNat % 2 ^ 24 := Nat.and_two_pow_sub_one_eq_mod nonce.toNat 24
  rw [computeWrappedBigNonce, hmask, ratchetGenerationShiftBits, Nat.shiftLeft_eq,
    Nat.mul_comm generation, ← Nat.two_pow_add_eq_or_of_lt (Nat.mod_lt _ (by decide))]

/-- Below the first wrap the generation is the byte it was computed from, or
has moved past 255. -/
theorem computeWrappedGeneration_of_lt {oldest generation : Nat} (hold : oldest < 256)
    (hgen : generation < 256) :
    computeWrappedGeneration oldest generation =
      if generation < oldest then generation + 256 else generation := by
  have hrem : oldest % 256 = oldest := Nat.mod_eq_of_lt hold
  have hdiv : oldest / 256 = 0 := Nat.div_eq_of_lt hold
  simp only [computeWrappedGeneration, generationWrap, hrem, hdiv, Nat.zero_add]
  split <;> omega

theorem computeWrappedGeneration_mod {oldest generation : Nat} (hgen : generation < 256) :
    computeWrappedGeneration oldest generation % 256 = generation := by
  simp only [computeWrappedGeneration, generationWrap]
  omega

theorem nonce_shift_eq (nonce : UInt32) :
    (nonce >>> UInt32.ofNat ratchetGenerationShiftBits).toNat = nonce.toNat / 2 ^ 24 := by
  rw [UInt32.toNat_shiftRight, Nat.shiftRight_eq_div_pow]
  rfl

theorem nonce_shift_lt (nonce : UInt32) :
    (nonce >>> UInt32.ofNat ratchetGenerationShiftBits).toNat < 256 := by
  have hlt := nonce.toNat_lt
  rw [nonce_shift_eq]
  omega

/-! ## The manager -/

/-- `CipherManager::CipherEntry`. -/
structure CipherEntry where
  cipher : AeadCipher
  expiry : TimePoint

/-- `struct CipherManager`.  The map of ciphers is an association list; a
generation is only added after a failed lookup. -/
structure CipherManager (H : Type) where
  ratchet : KeyRatchet H
  ciphers : List (Nat × CipherEntry) := []
  missingNonces : List Nat := []
  newestProcessedNonce : Option Nat := none
  oldestGeneration : Nat := 0
  newestGeneration : Nat := 0
  creationTime : TimePoint
  expiryTime : TimePoint

/-- The readings of the clock during one `decrypt_impl`: in
`cleanup_expired_ciphers`, for the ratchet's lifetime, for the expiry of a new
cipher, and in `report_cipher_success`. -/
structure ManagerClock where
  cleanup : Instant
  lifetime : Instant
  cipherExpiry : Instant
  report : Instant

namespace CipherManager

variable {H : Type}

/-- The constructor. -/
def new (ratchet : KeyRatchet H) (now : Instant) : CipherManager H :=
  { ratchet, creationTime := now.time, expiryTime := TimePoint.max }

/-- `CipherManager::compute_wrapped_generation` on the high byte of a nonce. -/
def nonceGeneration (m : CipherManager H) (nonce : UInt32) : Nat :=
  computeWrappedGeneration m.oldestGeneration
    (nonce >>> UInt32.ofNat ratchetGenerationShiftBits).toNat

/-- `can_process_nonce`. -/
def canProcessNonce (m : CipherManager H) (generation : Nat) (nonce : UInt32) : Bool :=
  match m.newestProcessedNonce with
  | none => true
  | some newest =>
      let wrapped := computeWrappedBigNonce generation nonce
      if newest < wrapped then true
      else m.missingNonces.reverse.any fun missing => missing = wrapped

/-- The nonce tracking of `report_cipher_success`. -/
def reportNonce (m : CipherManager H) (wrapped : Nat) : CipherManager H :=
  match m.newestProcessedNonce with
  | none => { m with newestProcessedNonce := some wrapped }
  | some newest =>
      if newest < wrapped then
        let oldestMissing :=
          if maxMissingNonces < wrapped then wrapped - maxMissingNonces else 0
        let rangeStart := max oldestMissing (newest + 1)
        { m with
          missingNonces :=
            m.missingNonces.dropWhile (fun missing => decide (missing < oldestMissing)) ++
              List.range' rangeStart (wrapped - rangeStart)
          newestProcessedNonce := some wrapped }
      else { m with missingNonces := m.missingNonces.erase wrapped }

/-- `report_cipher_success`. -/
def reportCipherSuccess (m : CipherManager H) (now : Instant) (generation : Nat)
    (nonce : UInt32) : CipherManager H :=
  let m := m.reportNonce (computeWrappedBigNonce generation nonce)
  if m.newestGeneration < generation then
    let expiry := now.time + cipherExpiry
    { m with
      newestGeneration := generation
      ciphers := m.ciphers.map fun (gen, entry) =>
        if gen < generation ∧ entry.expiry = TimePoint.max then (gen, { entry with expiry })
        else (gen, entry) }
  else m

/-- `update_expiry`. -/
def updateExpiry (m : CipherManager H) (expiry : TimePoint) : CipherManager H :=
  { m with expiryTime := min m.expiryTime expiry }

/-- `is_expired`. -/
def isExpired (m : CipherManager H) (now : Instant) : Bool :=
  decide (m.expiryTime < now.time)

/-- The largest generation the ratchet's lifetime allows, as `get_cipher`
computes it and casts it to 32 bits. -/
def maxGeneration (m : CipherManager H) (now : Instant) : Nat :=
  let lifetime := (now.time - m.creationTime).tdiv (seconds 1)
  ((maxFramesPerSecond * lifetime) >>> ratchetGenerationShiftBits % 2 ^ 32).toNat

variable [HashRatchet H]

/-- The second loop of `cleanup_expired_ciphers`. -/
def deleteOldKeys (m : CipherManager H) : CipherManager H :=
  if m.oldestGeneration < m.newestGeneration ∧ m.ciphers.lookup m.oldestGeneration = none then
    deleteOldKeys { m with
      ratchet := m.ratchet.deleteKey m.oldestGeneration.toUInt8
      oldestGeneration := m.oldestGeneration + 1 }
  else m
termination_by m.newestGeneration - m.oldestGeneration

/-- `cleanup_expired_ciphers`. -/
def cleanupExpiredCiphers (m : CipherManager H) (now : Instant) : CipherManager H :=
  { m with
    ciphers := m.ciphers.filter fun (_, entry) => ¬ entry.expiry < now.time }.deleteOldKeys

/-- `get_cipher` after the cleanup: the bounds on the generation, the lookup
and the derivation. -/
def findCipher (m : CipherManager H) (clock : ManagerClock) (generation : Nat) :
    CipherManager H × Option AeadCipher :=
  if generation < m.oldestGeneration then (m, none)
  else if (m.newestGeneration + maxGenerationGap) % 2 ^ 32 < generation then (m, none)
  else if m.maxGeneration clock.lifetime < generation then (m, none)
  else
    match m.ciphers.lookup generation with
    | some entry => (m, some entry.cipher)
    | none =>
        let (key, ratchet) := m.ratchet.getKey generation.toUInt8
        let m := { m with ratchet }
        if key = [] then (m, none)
        else
          let expiry :=
            if generation < m.newestGeneration then clock.cipherExpiry.time + cipherExpiry
            else TimePoint.max
          ({ m with ciphers := m.ciphers ++ [(generation, ⟨⟨key⟩, expiry⟩)] }, some ⟨key⟩)

/-- `get_cipher`. -/
def getCipher (m : CipherManager H) (clock : ManagerClock) (generation : Nat) :
    CipherManager H × Option AeadCipher :=
  (m.cleanupExpiredCiphers clock.cleanup).findCipher clock generation

omit [HashRatchet H] in
/-- Wrapping does not change which of the 256 keys a nonce asks for. -/
theorem toUInt8_nonceGeneration (m : CipherManager H) (nonce : UInt32) :
    (m.nonceGeneration nonce).toUInt8 = (nonce >>> 24).toUInt8 := by
  have hmod : m.nonceGeneration nonce % 256 = nonce.toNat / 2 ^ 24 := by
    rw [nonceGeneration, computeWrappedGeneration_mod (nonce_shift_lt nonce), nonce_shift_eq]
  have hlow : (nonce >>> 24).toNat = nonce.toNat / 2 ^ 24 := nonce_shift_eq nonce
  rw [← UInt8.toNat_inj, UInt32.toNat_toUInt8, hlow]
  simp only [Nat.toUInt8, UInt8.toNat_ofNat']
  omega

/-! ## Nonce tracking is a replay window -/

/-- The replay window of a manager. -/
def window (m : CipherManager H) : Window := ⟨m.newestProcessedNonce, m.missingNonces⟩

omit [HashRatchet H] in
theorem canProcessNonce_eq (m : CipherManager H) (generation : Nat) (nonce : UInt32) :
    m.canProcessNonce generation nonce =
      m.window.admits (computeWrappedBigNonce generation nonce) := by
  unfold canProcessNonce Window.admits window
  cases m.newestProcessedNonce with
  | none => rfl
  | some newest =>
      simp only
      split
      · next h => simp [h]
      · next h =>
          rw [Bool.eq_iff_iff]
          simp [h]

omit [HashRatchet H] in
theorem window_reportNonce (m : CipherManager H) (wrapped : Nat) :
    (m.reportNonce wrapped).window = m.window.record maxMissingNonces wrapped := by
  have hold : (if maxMissingNonces < wrapped then wrapped - maxMissingNonces else 0) =
      wrapped - maxMissingNonces := by
    split <;> omega
  unfold reportNonce Window.record window
  cases m.newestProcessedNonce with
  | none => rfl
  | some newest =>
      simp only [hold]
      split <;> rfl

omit [HashRatchet H] in
theorem window_reportCipherSuccess (m : CipherManager H) (now : Instant) (generation : Nat)
    (nonce : UInt32) :
    (m.reportCipherSuccess now generation nonce).window =
      m.window.record maxMissingNonces (computeWrappedBigNonce generation nonce) := by
  rw [← window_reportNonce]
  unfold reportCipherSuccess
  dsimp only
  split <;> rfl

omit [HashRatchet H] in
theorem reportNonce_frame (m : CipherManager H) (wrapped : Nat) :
    ∃ missing newest, m.reportNonce wrapped =
      { m with missingNonces := missing, newestProcessedNonce := newest } := by
  unfold reportNonce
  split
  · exact ⟨_, _, rfl⟩
  · dsimp only
    split <;> exact ⟨_, _, rfl⟩

omit [HashRatchet H] in
/-- `report_cipher_success` touches the window, the newest generation and the
expiry of cached ciphers. -/
theorem reportCipherSuccess_frame (m : CipherManager H) (now : Instant) (generation : Nat)
    (nonce : UInt32) :
    ∃ missing newest ciphers, m.reportCipherSuccess now generation nonce =
        { m with
          missingNonces := missing
          newestProcessedNonce := newest
          newestGeneration := max m.newestGeneration generation
          ciphers } ∧
      (ciphers.map fun e => (e.1, e.2.cipher)) = m.ciphers.map fun e => (e.1, e.2.cipher) := by
  obtain ⟨missing, newest, hreport⟩ :=
    m.reportNonce_frame (computeWrappedBigNonce generation nonce)
  unfold reportCipherSuccess
  rw [hreport]
  dsimp only
  split
  · next hnewer =>
      refine ⟨missing, newest, _, by rw [Nat.max_eq_right (Nat.le_of_lt hnewer)], ?_⟩
      rw [List.map_map]
      apply List.map_congr_left
      intro entry _
      simp only [Function.comp]
      split <;> rfl
  · next holder =>
      exact ⟨missing, newest, _, by rw [Nat.max_eq_left (Nat.le_of_not_lt holder)], rfl⟩

/-! ## The invariant of a manager -/

section Invariant

variable [LawfulHashRatchet H] {m : CipherManager H}

/-- Every cached cipher holds the ratchet's key of its generation. -/
def Wf (m : CipherManager H) : Prop :=
  ∀ entry ∈ m.ciphers, entry.2.cipher.key ≠ [] ∧
    entry.2.cipher.key = KeyRatchet.keyOf H m.ratchet.base entry.1.toUInt8

theorem wf_new (ratchet : KeyRatchet H) (now : Instant) : (new ratchet now).Wf := by
  intro entry hentry
  simp [new] at hentry

theorem Wf.updateExpiry (h : m.Wf) (expiry : TimePoint) : (m.updateExpiry expiry).Wf := h

/-- Deleting old keys moves the oldest generation and touches the ratchet, whose
base it keeps. -/
theorem deleteOldKeys_frame (m : CipherManager H) :
    ∃ ratchet oldest, m.deleteOldKeys =
        { m with ratchet, oldestGeneration := oldest } ∧ ratchet.base = m.ratchet.base ∧
      (oldest = m.oldestGeneration ∨ oldest ≤ m.newestGeneration) := by
  fun_induction deleteOldKeys m with
  | case1 m h ih =>
      obtain ⟨ratchet, oldest, heq, hbase, hold⟩ := ih
      refine ⟨ratchet, oldest, heq, ?_, ?_⟩
      · rw [hbase, KeyRatchet.base_deleteKey]
      · rcases hold with hold | hold
        · exact .inr (hold ▸ h.1)
        · exact .inr hold
  | case2 m h => exact ⟨m.ratchet, m.oldestGeneration, rfl, rfl, .inl rfl⟩

theorem cleanupExpiredCiphers_frame (m : CipherManager H) (now : Instant) :
    ∃ ratchet oldest ciphers, m.cleanupExpiredCiphers now =
        { m with ratchet, oldestGeneration := oldest, ciphers } ∧
      ratchet.base = m.ratchet.base ∧ ciphers.Sublist m.ciphers ∧
      (oldest = m.oldestGeneration ∨ oldest ≤ m.newestGeneration) := by
  obtain ⟨ratchet, oldest, heq, hbase, hold⟩ := deleteOldKeys_frame { m with
    ciphers := m.ciphers.filter fun (_, entry) => ¬ entry.expiry < now.time }
  exact ⟨ratchet, oldest, _, heq, hbase, List.filter_sublist, hold⟩

omit [LawfulHashRatchet H] in
/-- Cleaning up never moves the oldest generation back. -/
theorem oldestGeneration_le_cleanup (m : CipherManager H) (now : Instant) :
    m.oldestGeneration ≤ (m.cleanupExpiredCiphers now).oldestGeneration := by
  have hloop : ∀ m : CipherManager H, m.oldestGeneration ≤ m.deleteOldKeys.oldestGeneration := by
    intro m
    fun_induction deleteOldKeys m with
    | case1 m _ ih => exact Nat.le_of_succ_le ih
    | case2 m _ => exact Nat.le_refl _
  unfold cleanupExpiredCiphers
  exact hloop { m with
    ciphers := m.ciphers.filter fun (_, entry) => ¬ entry.expiry < now.time }

theorem Wf.cleanupExpiredCiphers (h : m.Wf) (now : Instant) :
    (m.cleanupExpiredCiphers now).Wf := by
  obtain ⟨ratchet, oldest, ciphers, heq, hbase, hsub, -⟩ := cleanupExpiredCiphers_frame m now
  rw [heq]
  intro entry hentry
  rw [hbase]
  exact h entry (hsub.mem hentry)

omit [LawfulHashRatchet H] in
/-- A lookup that succeeds has passed the bounds and changed nothing but the
ratchet and the cached ciphers. -/
theorem findCipher_frame (m : CipherManager H) (clock : ManagerClock) (generation : Nat) :
    ∃ ratchet ciphers, (m.findCipher clock generation).1 = { m with ratchet, ciphers } ∧
      ∀ cipher, (m.findCipher clock generation).2 = some cipher →
        m.oldestGeneration ≤ generation ∧ generation ≤ m.maxGeneration clock.lifetime := by
  unfold findCipher
  split
  · exact ⟨m.ratchet, m.ciphers, rfl, by simp⟩
  · next hold =>
      split
      · exact ⟨m.ratchet, m.ciphers, rfl, by simp⟩
      · split
        · exact ⟨m.ratchet, m.ciphers, rfl, by simp⟩
        · next hmax =>
            have hbounds : m.oldestGeneration ≤ generation ∧
                generation ≤ m.maxGeneration clock.lifetime := ⟨by omega, by omega⟩
            split
            · exact ⟨m.ratchet, m.ciphers, rfl, fun _ _ => hbounds⟩
            · dsimp only
              split
              · exact ⟨_, m.ciphers, rfl, by simp⟩
              · exact ⟨_, _, rfl, fun _ _ => hbounds⟩

/-- A cipher that is found holds the ratchet's key of its generation. -/
theorem Wf.findCipher (h : m.Wf) (clock : ManagerClock) (generation : Nat) :
    (m.findCipher clock generation).1.Wf ∧
      (m.findCipher clock generation).1.ratchet.base = m.ratchet.base ∧
      ∀ cipher, (m.findCipher clock generation).2 = some cipher → cipher.key ≠ [] ∧
        cipher.key = KeyRatchet.keyOf H m.ratchet.base generation.toUInt8 := by
  unfold CipherManager.findCipher
  split
  · exact ⟨h, rfl, by simp⟩
  · split
    · exact ⟨h, rfl, by simp⟩
    · split
      · exact ⟨h, rfl, by simp⟩
      · split
        · next entry hlookup =>
            obtain ⟨l₁, l₂, hsplit, -⟩ := List.lookup_eq_some_iff.mp hlookup
            refine ⟨h, rfl, ?_⟩
            rintro cipher ⟨⟩
            exact h (generation, entry) (by simp [hsplit])
        · dsimp only
          split
          · refine ⟨?_, by simp, by simp⟩
            intro entry hentry
            simpa using h entry hentry
          · next hkey =>
              have hkeyOf := KeyRatchet.getKey_eq hkey
              refine ⟨?_, by simp, ?_⟩
              · intro entry hentry
                rcases List.mem_append.mp hentry with hentry | hentry
                · simpa using h entry hentry
                · rw [List.mem_singleton.mp hentry]
                  exact ⟨hkey, by simpa using hkeyOf⟩
              · rintro cipher ⟨⟩
                exact ⟨hkey, hkeyOf⟩

/-- **The spec of `get_cipher`.** -/
theorem Wf.getCipher (h : m.Wf) (clock : ManagerClock) (generation : Nat) :
    (m.getCipher clock generation).1.Wf ∧
      (m.getCipher clock generation).1.ratchet.base = m.ratchet.base ∧
      ∀ cipher, (m.getCipher clock generation).2 = some cipher → cipher.key ≠ [] ∧
        cipher.key = KeyRatchet.keyOf H m.ratchet.base generation.toUInt8 := by
  obtain ⟨ratchet, oldest, ciphers, heq, hbase, -, -⟩ :=
    cleanupExpiredCiphers_frame m clock.cleanup
  obtain ⟨hwf, hfound, hkey⟩ := (h.cleanupExpiredCiphers clock.cleanup).findCipher clock
    generation
  have hsame : (m.cleanupExpiredCiphers clock.cleanup).ratchet.base = m.ratchet.base := by
    rw [heq]
    exact hbase
  rw [hsame] at hfound hkey
  exact ⟨hwf, hfound, hkey⟩

theorem Wf.reportCipherSuccess (h : m.Wf) (now : Instant) (generation : Nat)
    (nonce : UInt32) : (m.reportCipherSuccess now generation nonce).Wf := by
  obtain ⟨missing, newest, ciphers, heq, hsame⟩ :=
    m.reportCipherSuccess_frame now generation nonce
  rw [heq]
  intro entry hentry
  have hmem : (entry.1, entry.2.cipher) ∈ m.ciphers.map fun e => (e.1, e.2.cipher) := by
    rw [← hsame]
    exact List.mem_map_of_mem hentry
  obtain ⟨old, hold, hpair⟩ := List.mem_map.mp hmem
  obtain ⟨hgeneration, hcipher⟩ := Prod.mk.inj hpair
  rw [← hgeneration, ← hcipher]
  exact h old hold

end Invariant

/-- `get_cipher` keeps the window, the creation time and the expiry. -/
theorem getCipher_frame [LawfulHashRatchet H] (m : CipherManager H) (clock : ManagerClock)
    (generation : Nat) :
    (m.getCipher clock generation).1.window = m.window ∧
      (m.getCipher clock generation).1.creationTime = m.creationTime ∧
      (m.getCipher clock generation).1.newestGeneration = m.newestGeneration ∧
      ((m.getCipher clock generation).1.oldestGeneration = m.oldestGeneration ∨
        (m.getCipher clock generation).1.oldestGeneration ≤ m.newestGeneration) ∧
      ∀ cipher, (m.getCipher clock generation).2 = some cipher →
        generation ≤ m.maxGeneration clock.lifetime := by
  obtain ⟨ratchet, oldest, ciphers, heq, -, -, hold⟩ :=
    cleanupExpiredCiphers_frame m clock.cleanup
  obtain ⟨ratchet', ciphers', hfind, hbounds⟩ :=
    findCipher_frame (m.cleanupExpiredCiphers clock.cleanup) clock generation
  rw [heq] at hfind hbounds
  rw [getCipher, heq, hfind]
  exact ⟨rfl, rfl, rfl, hold, fun cipher hcipher => (hbounds cipher hcipher).2⟩

end CipherManager

end Ekizu.Dave
