import Ekizu.Dave.Reference
import Ekizu.Dave.CipherManager
import Ekizu.Lib.Runs

/-!
# Erasure of ratchet keys

What a manager asks of its ratchet in the course of any run of
`can_process_nonce`, `get_cipher` and `report_cipher_success`.  The ratchet of
these runs writes down the calls it gets; a ratchet that always gives the same
key is one of them, so `SimpleKeyRatchet` is covered.

Generations have 32 bits in the manager, and the ratchet gets their low byte.

## Main results

* `deleteOldKeys_eq` — the loop deletes a stretch of uncached generations.
* `accounted` — in every run the generations below the oldest one, and no
  others, were deleted, each of them once and in order.
* `erased_iff` — no deleted key is asked for exactly when the low byte of each
  generation that is derived has not been deleted.
-/

namespace Ekizu.Dave

open Lib.Runs

/-! ## A ratchet that records its calls -/

/-- The calls of a ratchet. -/
inductive RatchetCall where
  | get (generation : Nat)
  | erase (generation : Nat)
  deriving Repr, DecidableEq

/-- A ratchet with the calls it got, the last one first. -/
structure Recorded (H : Type) where
  ratchet : H
  calls : List RatchetCall
  deriving DecidableEq

instance {H : Type} [HashRatchet H] : HashRatchet (Recorded H) where
  ofSecret secret := ⟨HashRatchet.ofSecret secret, []⟩
  get r generation :=
    ((HashRatchet.get r.ratchet generation).1,
      ⟨(HashRatchet.get r.ratchet generation).2, .get generation :: r.calls⟩)
  erase r generation :=
    ⟨HashRatchet.erase r.ratchet generation, .erase generation :: r.calls⟩

/-- The deleted generations, the last one first. -/
def erasures (calls : List RatchetCall) : List Nat :=
  calls.filterMap fun
    | .erase generation => some generation
    | .get _ => none

/-- The ratchet is not asked for a generation it was told to delete. -/
def Unerased (before : List RatchetCall) : RatchetCall → Prop
  | .get generation => generation ∉ erasures before
  | .erase _ => True

namespace CipherManager

variable {H : Type} [HashRatchet H]

/-! ## Runs of a manager -/

/-- The calls on a manager. -/
inductive Call where
  | canProcessNonce (generation nonce : UInt32)
  | getCipher (clock : ManagerClock) (generation : UInt32)
  | reportCipherSuccess (now : Instant) (generation nonce : UInt32)

/-- The manager after a call. -/
def call (m : CipherManager H) : Call → CipherManager H
  | .canProcessNonce _ _ => m
  | .getCipher clock generation => (m.getCipher clock generation.toNat).1
  | .reportCipherSuccess now generation nonce =>
      m.reportCipherSuccess now generation.toNat nonce

/-- A manager that was just made for the ratchet. -/
def machine (ratchet : H) (created : Instant) :
    Machine (CipherManager (Recorded H)) Call where
  start := .new (.mls ⟨ratchet, []⟩) created
  step m c := some (m.call c)

/-- The calls the ratchet of a manager got. -/
def calls (m : CipherManager (Recorded H)) : List RatchetCall :=
  match m.ratchet with
  | .mls r => r.calls
  | .simple _ => []

/-- The generation is within the bounds `get_cipher` sets and its cipher is not
cached, so that the ratchet is asked for its key. -/
def Derives (m : CipherManager H) (clock : ManagerClock) (generation : Nat) : Prop :=
  m.oldestGeneration ≤ generation ∧
    generation ≤ (m.newestGeneration + maxGenerationGap) % 2 ^ 32 ∧
    generation ≤ m.maxGeneration clock.lifetime ∧ m.ciphers.lookup generation = none

/-- Where the call comes to a derivation, the low byte of the generation is not
below the oldest generation that the cleanup has left. -/
def LowByteKept (m : CipherManager H) : Call → Prop
  | .getCipher clock generation =>
      (m.cleanupExpiredCiphers clock.cleanup).Derives clock generation.toNat →
        (m.cleanupExpiredCiphers clock.cleanup).oldestGeneration ≤ generation.toNat % 256
  | _ => True

/-- **What key erasure asks for.**  The oldest generation is not above the
newest one and no cached cipher is older; the generations below it were deleted,
each once; and no key was asked for after it was deleted. -/
structure Erased (m : CipherManager (Recorded H)) : Prop where
  oldest_le : m.oldestGeneration ≤ m.newestGeneration
  cached : ∀ entry ∈ m.ciphers, m.oldestGeneration ≤ entry.1
  deleted : erasures m.calls = ((List.range m.oldestGeneration).map (· % 256)).reverse
  unerased : Throughout Unerased m.calls

/-! ## The loop over old keys -/

/-- Delete the keys of generations. -/
def deleteKeys (ratchet : KeyRatchet H) (generations : List Nat) : KeyRatchet H :=
  generations.foldl (fun ratchet generation => ratchet.deleteKey generation.toUInt8) ratchet

/-- The loop deletes a stretch of generations that are not cached. -/
theorem deleteOldKeys_eq (m : CipherManager H) :
    ∃ count, m.deleteOldKeys =
        { m with
          ratchet := deleteKeys m.ratchet (List.range' m.oldestGeneration count)
          oldestGeneration := m.oldestGeneration + count } ∧
      (count = 0 ∨ m.oldestGeneration + count ≤ m.newestGeneration) ∧
      ∀ g, m.oldestGeneration ≤ g → g < m.oldestGeneration + count →
        m.ciphers.lookup g = none := by
  fun_induction deleteOldKeys m with
  | case1 m h ih =>
      obtain ⟨count, heq, hle, hnone⟩ := ih
      refine ⟨count + 1, ?_, ?_, ?_⟩
      · rw [heq, List.range'_succ]
        simp only [deleteKeys, List.foldl_cons, Nat.add_assoc, Nat.add_comm 1]
      · simp only at hle
        omega
      · intro g hge hlt
        by_cases hg : g = m.oldestGeneration
        · rw [hg]
          exact h.2
        · exact hnone g (by simp only; omega) (by simp only; omega)
  | case2 m h =>
      refine ⟨0, rfl, .inl rfl, ?_⟩
      intro g hge hlt
      omega

/-- What deleting keys does to the record. -/
theorem deleteKeys_recorded (r : Recorded H) (generations : List Nat) :
    ∃ r', deleteKeys (.mls r) generations = .mls r' ∧
      erasures r'.calls = (generations.map (· % 256)).reverse ++ erasures r.calls ∧
      (Throughout Unerased r'.calls ↔ Throughout Unerased r.calls) := by
  induction generations generalizing r with
  | nil => exact ⟨r, rfl, rfl, Iff.rfl⟩
  | cons g generations ih =>
      obtain ⟨r', heq, hdeleted, hsame⟩ := ih (HashRatchet.erase r g.toUInt8.toNat)
      refine ⟨r', heq, ?_, ?_⟩
      · rw [hdeleted]
        simp [HashRatchet.erase, erasures]
      · rw [hsame]
        simp [HashRatchet.erase, Throughout, Unerased]

/-! ## Every call keeps the books -/

/-- The manager's record agrees with its oldest generation. -/
structure Accounted (m : CipherManager (Recorded H)) (r : Recorded H) : Prop where
  recorded : m.ratchet = .mls r
  oldest_le : m.oldestGeneration ≤ m.newestGeneration
  cached : ∀ entry ∈ m.ciphers, m.oldestGeneration ≤ entry.1
  deleted : erasures r.calls = ((List.range m.oldestGeneration).map (· % 256)).reverse

variable {m : CipherManager (Recorded H)} {r : Recorded H}

omit [HashRatchet H] in
theorem Accounted.calls_eq (h : Accounted m r) : m.calls = r.calls := by
  rw [calls, h.recorded]

omit [HashRatchet H] in
theorem Accounted.erased_iff_calls (h : Accounted m r) :
    m.Erased ↔ Throughout Unerased m.calls := by
  constructor
  · intro herased
    exact herased.unerased
  · intro hunerased
    exact ⟨h.oldest_le, h.cached, by rw [h.calls_eq]; exact h.deleted, hunerased⟩

omit [HashRatchet H] in
theorem accounted_new (ratchet : H) (created : Instant) :
    Accounted (.new (.mls ⟨ratchet, []⟩) created) ⟨ratchet, []⟩ :=
  ⟨rfl, Nat.le_refl _, by simp [new], rfl⟩

theorem Accounted.deleteOldKeys (h : Accounted m r) :
    ∃ r', Accounted m.deleteOldKeys r' ∧
      (Throughout Unerased r'.calls ↔ Throughout Unerased r.calls) := by
  obtain ⟨count, heq, hle, hnone⟩ := m.deleteOldKeys_eq
  obtain ⟨r', hrecord, hdeleted, hsame⟩ :=
    deleteKeys_recorded r (List.range' m.oldestGeneration count)
  refine ⟨r', ⟨?_, ?_, ?_, ?_⟩, hsame⟩
  · rw [heq, h.recorded]
    exact hrecord
  · rw [heq]
    have := h.oldest_le
    simp only
    omega
  · rw [heq]
    intro entry hentry
    simp only at hentry ⊢
    by_contra hlow
    have hmissing := hnone entry.1 (h.cached entry hentry) (Nat.lt_of_not_le hlow)
    rw [List.lookup_eq_none_iff] at hmissing
    have := hmissing entry hentry
    simp at this
  · have hstretch : List.range m.oldestGeneration ++ List.range' m.oldestGeneration count =
        List.range (m.oldestGeneration + count) := by
      rw [List.range_eq_range', List.range_eq_range']
      simpa using List.range'_append_1 (s := 0) (m := m.oldestGeneration) (n := count)
    rw [hdeleted, h.deleted, heq, ← List.reverse_append, ← List.map_append, hstretch]

theorem Accounted.cleanupExpiredCiphers (h : Accounted m r) (now : Instant) :
    ∃ r', Accounted (m.cleanupExpiredCiphers now) r' ∧
      (Throughout Unerased r'.calls ↔ Throughout Unerased r.calls) := by
  refine Accounted.deleteOldKeys (r := r) ⟨h.recorded, h.oldest_le, ?_, h.deleted⟩
  intro entry hentry
  exact h.cached entry (List.mem_of_mem_filter hentry)

/-- A low byte has not been deleted if it is not below the oldest generation. -/
theorem not_mem_deleted_iff (oldest g : Nat) :
    g % 256 ∉ ((List.range oldest).map (· % 256)).reverse ↔ oldest ≤ g % 256 := by
  simp only [List.mem_reverse, List.mem_map, List.mem_range, not_exists, not_and]
  constructor
  · intro h
    by_contra hlow
    exact h (g % 256) (Nat.lt_of_not_le hlow) (Nat.mod_mod g 256)
  · intro h k hk
    omega

theorem Accounted.findCipher (h : Accounted m r) (clock : ManagerClock) (g : Nat) :
    ∃ r', Accounted (m.findCipher clock g).1 r' ∧
      (Throughout Unerased r'.calls ↔ Throughout Unerased r.calls ∧
        (m.Derives clock g → m.oldestGeneration ≤ g % 256)) := by
  by_cases hderives : m.Derives clock g
  · obtain ⟨hold, hgap, hlifetime, hlookup⟩ := id hderives
    -- the ratchet is asked, whether or not it has the key
    have hasked : Throughout Unerased (HashRatchet.get r g.toUInt8.toNat).2.calls ↔
        Throughout Unerased r.calls ∧ (m.Derives clock g → m.oldestGeneration ≤ g % 256) := by
      have hlow : g.toUInt8.toNat = g % 256 := by simp
      simp only [HashRatchet.get, Throughout, Unerased, hlow, h.deleted, not_mem_deleted_iff,
        hderives, forall_const]
      exact And.comm
    refine ⟨(HashRatchet.get r g.toUInt8.toNat).2, ?_, hasked⟩
    rw [CipherManager.findCipher, if_neg (Nat.not_lt.mpr hold), if_neg (Nat.not_lt.mpr hgap),
      if_neg (Nat.not_lt.mpr hlifetime)]
    simp only [hlookup, h.recorded, KeyRatchet.getKey]
    split
    · exact ⟨rfl, h.oldest_le, h.cached, h.deleted⟩
    · refine ⟨rfl, h.oldest_le, ?_, h.deleted⟩
      intro entry hentry
      rcases List.mem_append.mp hentry with hentry | hentry
      · exact h.cached entry hentry
      · rw [List.mem_singleton.mp hentry]
        exact hold
  · have hsame : (m.findCipher clock g).1 = m := by
      unfold CipherManager.findCipher
      split
      · rfl
      · split
        · rfl
        · split
          · rfl
          · split
            · rfl
            · next hold hgap hlifetime _ hlookup =>
                exact absurd ⟨Nat.not_lt.mp hold, Nat.not_lt.mp hgap, Nat.not_lt.mp hlifetime,
                  hlookup⟩ hderives
    rw [hsame]
    exact ⟨r, h, by simp [hderives]⟩

omit [HashRatchet H] in
theorem Accounted.reportCipherSuccess (h : Accounted m r) (now : Instant) (generation : Nat)
    (nonce : UInt32) : Accounted (m.reportCipherSuccess now generation nonce) r := by
  obtain ⟨missing, newest, ciphers, heq, hsame⟩ :=
    m.reportCipherSuccess_frame now generation nonce
  rw [heq]
  refine ⟨h.recorded, Nat.le_trans h.oldest_le (Nat.le_max_left _ _), ?_, h.deleted⟩
  intro entry hentry
  have hmem : (entry.1, entry.2.cipher) ∈ m.ciphers.map fun e => (e.1, e.2.cipher) := by
    rw [← hsame]
    exact List.mem_map_of_mem hentry
  obtain ⟨old, hold, hpair⟩ := List.mem_map.mp hmem
  rw [← (Prod.mk.inj hpair).1]
  exact h.cached old hold

/-- **One call** keeps the books, and asks for no deleted key exactly when it
meets its condition. -/
theorem Accounted.call (h : Accounted m r) (c : Call) :
    ∃ r', Accounted (m.call c) r' ∧
      (Throughout Unerased r'.calls ↔ Throughout Unerased r.calls ∧ m.LowByteKept c) := by
  cases c with
  | canProcessNonce generation nonce => exact ⟨r, h, by simp [LowByteKept]⟩
  | getCipher clock generation =>
      obtain ⟨r₁, h₁, hcleaned⟩ := h.cleanupExpiredCiphers clock.cleanup
      obtain ⟨r₂, h₂, hfound⟩ := h₁.findCipher clock generation.toNat
      rw [hcleaned] at hfound
      exact ⟨r₂, h₂, hfound⟩
  | reportCipherSuccess now generation nonce =>
      exact ⟨r, h.reportCipherSuccess now _ nonce, by simp [LowByteKept]⟩

/-! ## Runs -/

variable {ratchet : H} {created : Instant} {trace : List (Taken (CipherManager (Recorded H)) Call)}

/-- **Runs.**  The books are kept, and the calls show which steps asked for a
deleted key. -/
theorem accounted (hrun : (machine ratchet created).Run trace m) :
    ∃ r, Accounted m r ∧
      (Throughout Unerased r.calls ↔ ∀ t ∈ trace, t.pre.LowByteKept t.event) := by
  induction hrun with
  | start => exact ⟨_, accounted_new ratchet created, by simp [Throughout]⟩
  | @step trace m m' c hrun hstep ih =>
      obtain ⟨r, h, hiff⟩ := ih
      obtain ⟨r', h', hcall⟩ := h.call c
      obtain rfl := Option.some.inj hstep
      refine ⟨r', h', ?_⟩
      rw [hcall, hiff, List.forall_mem_cons]
      exact And.comm

/-- **Key erasure.**  In every run, whatever the clock reads and whatever the
generations are, keys are erased properly exactly when every generation that was
derived had a low byte that had not been deleted. -/
theorem erased_iff (hrun : (machine ratchet created).Run trace m) :
    m.Erased ↔ ∀ t ∈ trace, t.pre.LowByteKept t.event := by
  obtain ⟨r, h, hiff⟩ := accounted hrun
  rw [h.erased_iff_calls, h.calls_eq, hiff]

/-- Below the first wrap the low byte is the generation itself. -/
theorem lowByteKept_of_lt (m : CipherManager H) (clock : ManagerClock) {generation : UInt32}
    (h : generation.toNat < 256) : m.LowByteKept (.getCipher clock generation) := by
  intro hderives
  rw [Nat.mod_eq_of_lt h]
  exact hderives.1

/-- A reading 300 days after `referenceInstant`, when the lifetime of a ratchet
allows more than 256 generations. -/
def lateInstant : Instant := ⟨seconds 26000000, by decide, by decide⟩

/-- All readings of a call are `lateInstant`. -/
def lateClock : ManagerClock := ⟨lateInstant, lateInstant, lateInstant, lateInstant⟩

/-- A frame of generation 6 is accepted, then one of the given generation
arrives. -/
def lateCalls (generation : UInt32) : List Call :=
  [.getCipher lateClock 6, .reportCipherSuccess lateInstant 6 0x06000000,
    .getCipher lateClock generation]

/-- The manager after these calls. -/
def lateManager (generation : UInt32) : CipherManager (Recorded Chain) :=
  (lateCalls generation).foldl call
    (.new (.mls ⟨HashRatchet.ofSecret referenceSecret, []⟩) referenceInstant)

private theorem exec_lateCalls (generation : UInt32) :
    (machine (HashRatchet.ofSecret referenceSecret : Chain) referenceInstant).exec
      (.new (.mls ⟨HashRatchet.ofSecret referenceSecret, []⟩) referenceInstant)
      (lateCalls generation) = some (lateManager generation) := rfl

/-- Generation 7 follows: six keys are deleted, and generation 7 is derived. -/
theorem erased_generation_seven :
    (lateManager 7).calls =
        [.get 7, .erase 5, .erase 4, .erase 3, .erase 2, .erase 1, .erase 0, .get 6] ∧
      (lateManager 7).Erased := by
  constructor
  · decide +kernel
  · obtain ⟨trace, hrun, hevents⟩ := Machine.Run.start.exec (exec_lateCalls 7)
    apply (erased_iff hrun).mpr
    intro t ht
    have hevent := hevents t ht
    simp only [lateCalls, List.mem_cons, List.not_mem_nil, or_false, false_or] at hevent
    rcases hevent with hevent | hevent | hevent
    · rw [hevent]
      exact lowByteKept_of_lt _ _ (by decide)
    · rw [hevent]
      trivial
    · rw [hevent]
      exact lowByteKept_of_lt _ _ (by decide)

/-- Generation 256 follows: the ratchet is asked for generation 0, which was
deleted in the same call. -/
theorem erased_key_asked :
    (machine (HashRatchet.ofSecret referenceSecret) referenceInstant).Reachable
        (lateManager 256) ∧
      ¬ (lateManager 256).Erased := by
  constructor
  · exact Machine.Reachable.start.exec (exec_lateCalls 256)
  · have hcalls : (lateManager 256).calls =
        [.get 0, .erase 5, .erase 4, .erase 3, .erase 2, .erase 1, .erase 0, .get 6] := by
      decide +kernel
    intro herased
    have hunerased := herased.unerased
    rw [hcalls] at hunerased
    exact hunerased.1 (by decide)

end CipherManager

end Ekizu.Dave
