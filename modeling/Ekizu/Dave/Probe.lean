import Ekizu.Dave.CipherManager

/-!
# Looking a cipher up

In `decrypt_impl` the manager changes twice: in front of the AEAD check, where
expired ciphers are dropped, old keys deleted and a cipher is derived for the
generation the frame names, and behind it, in `report_cipher_success`.  `probe`
is the first part.  While the lifetime keeps generations below 256, `Kept` says
what a manager looks like between two calls, and with it one can tell when a
cipher is found.

## Main results

* `Kept.probe`, `Kept.reportCipherSuccess` — the invariant.
* `Kept.probe_isSome_iff` — when a cipher is found.
* `Reported.mem_missing_of_late`, `mem_missing_of_newer` — what is missing once
  a nonce was reported.
-/

namespace Ekizu.Dave

open Lib.ReplayWindow LawfulHashRatchet

variable {H : Type} [HashRatchet H] [LawfulHashRatchet H]

/-- Erasing a generation leaves the others. -/
def ErasesOne (H : Type) [HashRatchet H] [LawfulHashRatchet H] : Prop :=
  ∀ (r : H) {g g' : Nat}, g' ≠ g → live r g' → live (HashRatchet.erase r g) g'

namespace KeyRatchet

theorem live_deleteKey (herase : ErasesOne H) (r : KeyRatchet H) {g g' : UInt8}
    (hne : g' ≠ g) : (r.deleteKey g).Live g' ↔ r.Live g' := by
  cases r with
  | mls r =>
      constructor
      · intro hlive
        exact live_of_live_erase hlive
      · intro hlive
        apply herase r _ hlive
        intro heq
        exact hne (UInt8.toNat_inj.mp heq)
  | simple k => exact Iff.rfl

theorem live_of_getKey {r : KeyRatchet H} {g : UInt8} (h : (r.getKey g).1 ≠ []) : r.Live g := by
  by_contra hdead
  cases r with
  | mls r => simp [getKey, get_of_not_live hdead] at h
  | simple k => exact hdead trivial

end KeyRatchet

private theorem toUInt8_ne {g g' : Nat} (hg : g < 256) (hg' : g' < 256) (hne : g' ≠ g) :
    g'.toUInt8 ≠ g.toUInt8 := by
  intro heq
  have hval := congrArg UInt8.toNat heq
  simp only [Nat.toUInt8, UInt8.toNat_ofNat'] at hval
  omega

/-! ## Look-ups -/

namespace CipherManager

/-- The part of `decrypt_impl` in front of the AEAD: the nonce is checked and
the cipher is looked up. -/
def probe (m : CipherManager H) (clock : ManagerClock) (nonce : UInt32) :
    CipherManager H × Option AeadCipher :=
  if m.canProcessNonce (m.nonceGeneration nonce) nonce = false then (m, none)
  else m.getCipher clock (m.nonceGeneration nonce)

theorem ciphers_cleanupExpiredCiphers (m : CipherManager H) (now : Instant) :
    (m.cleanupExpiredCiphers now).ciphers =
      m.ciphers.filter fun (_, entry) => ¬ entry.expiry < now.time := by
  obtain ⟨ratchet, oldest, heq, -⟩ := deleteOldKeys_frame { m with
    ciphers := m.ciphers.filter fun (_, entry) => ¬ entry.expiry < now.time }
  rw [cleanupExpiredCiphers, heq]

theorem newestGeneration_cleanup (m : CipherManager H) (now : Instant) :
    (m.cleanupExpiredCiphers now).newestGeneration = m.newestGeneration := by
  obtain ⟨ratchet, oldest, ciphers, heq, -⟩ := cleanupExpiredCiphers_frame m now
  rw [heq]

theorem mem_cleanupExpiredCiphers {m : CipherManager H} {now : Instant}
    {e : Nat × CipherEntry} :
    e ∈ (m.cleanupExpiredCiphers now).ciphers ↔ e ∈ m.ciphers ∧ now.time ≤ e.2.expiry := by
  rw [ciphers_cleanupExpiredCiphers]
  simp [List.mem_filter]

omit [LawfulHashRatchet H] in
/-- A generation that is refused, is cached already, or is derived. -/
private theorem findCipher_eq (m : CipherManager H) (clock : ManagerClock) (g : Nat) :
    m.findCipher clock g =
      if g < m.oldestGeneration ∨ (m.newestGeneration + maxGenerationGap) % 2 ^ 32 < g ∨
          m.maxGeneration clock.lifetime < g then (m, none)
      else
        match m.ciphers.lookup g with
        | some entry => (m, some entry.cipher)
        | none =>
            if (m.ratchet.getKey g.toUInt8).1 = [] then
              ({ m with ratchet := (m.ratchet.getKey g.toUInt8).2 }, none)
            else
              ({ m with
                ratchet := (m.ratchet.getKey g.toUInt8).2
                ciphers := m.ciphers ++ [(g, ⟨⟨(m.ratchet.getKey g.toUInt8).1⟩,
                  if g < m.newestGeneration then clock.cipherExpiry.time + cipherExpiry
                  else TimePoint.max⟩)] },
                some ⟨(m.ratchet.getKey g.toUInt8).1⟩) := by
  unfold CipherManager.findCipher
  by_cases hold : g < m.oldestGeneration
  · rw [if_pos hold, if_pos (.inl hold)]
  by_cases hgap : (m.newestGeneration + maxGenerationGap) % 2 ^ 32 < g
  · rw [if_neg hold, if_pos hgap, if_pos (.inr (.inl hgap))]
  by_cases hmax : m.maxGeneration clock.lifetime < g
  · rw [if_neg hold, if_neg hgap, if_pos hmax, if_pos (.inr (.inr hmax))]
  rw [if_neg hold, if_neg hgap, if_neg hmax]
  refine Eq.trans ?_ (if_neg (not_or.mpr ⟨hold, not_or.mpr ⟨hgap, hmax⟩⟩)).symm
  cases m.ciphers.lookup g <;> rfl

theorem base_findCipher (m : CipherManager H) (clock : ManagerClock) (g : Nat) :
    (m.findCipher clock g).1.ratchet.base = m.ratchet.base := by
  rw [findCipher_eq]
  split
  · rfl
  · split
    · rfl
    · split <;> exact KeyRatchet.base_getKey m.ratchet g.toUInt8

omit [LawfulHashRatchet H] in
/-- A look-up adds to the cached ciphers, and a cipher it finds is cached. -/
theorem mem_findCipher (m : CipherManager H) (clock : ManagerClock) (g : Nat) :
    (∀ e ∈ m.ciphers, e ∈ (m.findCipher clock g).1.ciphers) ∧
      ((m.findCipher clock g).2.isSome = true →
        ∃ e ∈ (m.findCipher clock g).1.ciphers, e.1 = g) := by
  rw [findCipher_eq]
  split
  · exact ⟨fun _ he => he, by simp⟩
  · split
    · next entry hlookup =>
        obtain ⟨l₁, l₂, hsplit, -⟩ := List.lookup_eq_some_iff.mp hlookup
        exact ⟨fun _ he => he, fun _ => ⟨(g, entry), by simp [hsplit], rfl⟩⟩
    · split
      · exact ⟨fun _ he => he, by simp⟩
      · exact ⟨fun _ he => List.mem_append_left _ he, fun _ => ⟨_, List.mem_append_right _
          (List.mem_singleton_self _), rfl⟩⟩

end CipherManager

/-! ## The invariant -/

/-- The invariant of a manager whose lifetime keeps generations below 256.
`served` are the generations its ratchet had when it was made. -/
structure Kept (served : Nat → Prop) (m : CipherManager H) : Prop where
  wf : m.Wf
  tracks : ∃ recorded, m.window.Tracks maxMissingNonces recorded
  oldest_le : m.oldestGeneration ≤ m.newestGeneration
  newest_lt : m.newestGeneration < 256
  newest_eq : m.newestGeneration = m.newestProcessedNonce.getD 0 / 2 ^ 24
  cached : ∀ e ∈ m.ciphers, m.oldestGeneration ≤ e.1 ∧ e.1 < 256 ∧ served e.1
  lasting : ∀ e ∈ m.ciphers, m.newestGeneration ≤ e.1 → e.2.expiry = TimePoint.max
  current : m.newestProcessedNonce ≠ none → ∃ e ∈ m.ciphers, e.1 = m.newestGeneration
  keys : ∀ g < 256, m.oldestGeneration ≤ g → (m.ratchet.Live g.toUInt8 ↔ served g)

/-- A manager whose lifetime reading is `now` can get the key of the
generation, as long as it is not too old. -/
def Available (served : Nat → Prop) (m : CipherManager H) (now : Instant) (g : Nat) : Prop :=
  g ≤ m.newestGeneration + maxGenerationGap ∧ g ≤ m.maxGeneration now ∧ served g ∧
    KeyRatchet.keyOf H m.ratchet.base g.toUInt8 ≠ []

namespace Kept

open CipherManager

variable {served : Nat → Prop} {m : CipherManager H} {clock : ManagerClock} {nonce : UInt32}

theorem new (ratchet : KeyRatchet H) (created : Instant) :
    Kept (fun g => ratchet.Live g.toUInt8) (CipherManager.new ratchet created) where
  wf := wf_new ratchet created
  tracks := ⟨[], Window.tracks_empty _⟩
  oldest_le := Nat.le_refl _
  newest_lt := Nat.zero_lt_succ _
  newest_eq := by simp [CipherManager.new]
  cached := by simp [CipherManager.new]
  lasting := by simp [CipherManager.new]
  current := by simp [CipherManager.new]
  keys := fun _ _ _ => Iff.rfl

theorem updateExpiry (h : Kept served m) (expiry : TimePoint) :
    Kept served (m.updateExpiry expiry) :=
  ⟨h.wf, h.tracks, h.oldest_le, h.newest_lt, h.newest_eq, h.cached, h.lasting, h.current,
    h.keys⟩

/-- Old keys are deleted up to the first generation that is cached. -/
theorem deleteOldKeys (herase : ErasesOne H) (m : CipherManager H) :
    Kept served m → Kept served m.deleteOldKeys := by
  fun_induction CipherManager.deleteOldKeys m with
  | case1 m hold ih =>
      intro h
      have hlt : m.oldestGeneration < 256 := Nat.lt_trans hold.1 h.newest_lt
      apply ih
      refine ⟨?_, h.tracks, hold.1, h.newest_lt, h.newest_eq, ?_, h.lasting, h.current, ?_⟩
      · intro e he
        rw [KeyRatchet.base_deleteKey]
        exact h.wf e he
      · intro e he
        have hcached := h.cached e he
        -- the oldest generation is not cached
        have hne : m.oldestGeneration ≠ e.1 := by
          simpa using List.lookup_eq_none_iff.mp hold.2 e he
        exact ⟨Nat.lt_of_le_of_ne hcached.1 hne, hcached.2⟩
      · intro g hg hle
        have hle : m.oldestGeneration + 1 ≤ g := hle
        rw [KeyRatchet.live_deleteKey herase _ (toUInt8_ne hlt hg (by omega))]
        exact h.keys g hg (by omega)
  | case2 m _ => exact id

theorem cleanupExpiredCiphers (herase : ErasesOne H) (h : Kept served m) (now : Instant) :
    Kept served (m.cleanupExpiredCiphers now) := by
  apply deleteOldKeys herase
  have hmem : ∀ {e : Nat × CipherEntry},
      e ∈ (m.ciphers.filter fun (_, entry) => ¬ entry.expiry < now.time) → e ∈ m.ciphers :=
    fun he => List.mem_of_mem_filter he
  refine ⟨fun e he => h.wf e (hmem he), h.tracks, h.oldest_le, h.newest_lt, h.newest_eq,
    fun e he => h.cached e (hmem he), fun e he => h.lasting e (hmem he), ?_, h.keys⟩
  intro hsome
  obtain ⟨e, he, hgen⟩ := h.current hsome
  -- a cipher of the newest generation never expires
  have hexpiry := h.lasting e he (Nat.le_of_eq hgen.symm)
  refine ⟨e, List.mem_filter.mpr ⟨he, ?_⟩, hgen⟩
  simp [hexpiry, now.le_max]

/-- What a look-up leaves of the manager. -/
theorem findCipher (h : Kept served m) {clock : ManagerClock}
    (hmax : m.maxGeneration clock.lifetime < 256) (g : Nat) :
    Kept served (m.findCipher clock g).1 := by
  have hwf := (h.wf.findCipher clock g).1
  rw [findCipher_eq] at hwf ⊢
  split
  · exact h
  · next hbounds =>
      rw [if_neg hbounds] at hwf
      simp only [not_or, Nat.not_lt] at hbounds
      have hg : g < 256 := Nat.lt_of_le_of_lt hbounds.2.2 hmax
      have hkeys : ∀ g' < 256, m.oldestGeneration ≤ g' →
          ((m.ratchet.getKey g.toUInt8).2.Live g'.toUInt8 ↔ served g') := by
        intro g' hg' hle
        rw [KeyRatchet.live_getKey]
        exact h.keys g' hg' hle
      split
      · exact h
      · next hlookup =>
          simp only [hlookup] at hwf
          by_cases hkey : (m.ratchet.getKey g.toUInt8).1 = []
          · rw [if_pos hkey] at hwf ⊢
            exact ⟨hwf, h.tracks, h.oldest_le, h.newest_lt, h.newest_eq, h.cached, h.lasting,
              h.current, hkeys⟩
          · rw [if_neg hkey] at hwf ⊢
            have hserved : served g :=
              (h.keys g hg hbounds.1).mp (KeyRatchet.live_of_getKey hkey)
            refine ⟨hwf, h.tracks, h.oldest_le, h.newest_lt, h.newest_eq, ?_, ?_, ?_, hkeys⟩
            · intro e he
              rcases List.mem_append.mp he with he | he
              · exact h.cached e he
              · rw [List.mem_singleton.mp he]
                exact ⟨hbounds.1, hg, hserved⟩
            · intro e he hle
              rcases List.mem_append.mp he with he | he
              · exact h.lasting e he hle
              · rw [List.mem_singleton.mp he] at hle ⊢
                exact if_neg (Nat.not_lt_of_le hle)
            · intro hsome
              obtain ⟨e, he, hgen⟩ := h.current hsome
              exact ⟨e, List.mem_append_left _ he, hgen⟩

/-- When a look-up finds a cipher, and that it is cached then. -/
theorem findCipher_isSome_iff (h : Kept served m) {clock : ManagerClock} {g : Nat}
    (hg : g < 256) :
    (m.findCipher clock g).2.isSome = true ↔
      m.oldestGeneration ≤ g ∧ Available served m clock.lifetime g := by
  have hgap : (m.newestGeneration + maxGenerationGap) % 2 ^ 32 =
      m.newestGeneration + maxGenerationGap := by
    have hlt := h.newest_lt
    apply Nat.mod_eq_of_lt
    simp only [maxGenerationGap]
    omega
  rw [findCipher_eq, hgap]
  split
  · next hbounds =>
      simp only [Option.isSome_none, Bool.false_eq_true, false_iff, Available]
      omega
  · next hbounds =>
      simp only [not_or, Nat.not_lt] at hbounds
      split
      · next entry hlookup =>
          obtain ⟨l₁, l₂, hsplit, -⟩ := List.lookup_eq_some_iff.mp hlookup
          have hmem : (g, entry) ∈ m.ciphers := by simp [hsplit]
          have hkey := h.wf (g, entry) hmem
          simp only [Option.isSome_some, true_iff]
          exact ⟨hbounds.1, hbounds.2.1, hbounds.2.2, (h.cached _ hmem).2.2, hkey.2 ▸ hkey.1⟩
      · by_cases hkey : (m.ratchet.getKey g.toUInt8).1 = []
        · rw [if_pos hkey]
          simp only [Option.isSome_none, Bool.false_eq_true, false_iff]
          intro havailable
          obtain ⟨hold, -, -, hserved, hnonempty⟩ := havailable
          have hlive := (h.keys g hg hold).mpr hserved
          rw [KeyRatchet.getKey_of_live hlive] at hkey
          exact hnonempty hkey
        · rw [if_neg hkey]
          have hlive := KeyRatchet.live_of_getKey hkey
          rw [KeyRatchet.getKey_of_live hlive] at hkey
          simp only [Option.isSome_some, true_iff]
          exact ⟨hbounds.1, hbounds.2.1, hbounds.2.2, (h.keys g hg hbounds.1).mp hlive, hkey⟩

end Kept

/-- What the code in front of the AEAD keeps of a manager. -/
structure Probed (clock : ManagerClock) (m m' : CipherManager H) : Prop where
  window : m'.window = m.window
  base : m'.ratchet.base = m.ratchet.base
  created : m'.creationTime = m.creationTime
  expires : m'.expiryTime = m.expiryTime
  newest : m'.newestGeneration = m.newestGeneration
  oldest_le : m.oldestGeneration ≤ m'.oldestGeneration
  ciphers : ∀ e ∈ m.ciphers, clock.cleanup.time ≤ e.2.expiry → e ∈ m'.ciphers

namespace CipherManager

theorem probed (m : CipherManager H) (clock : ManagerClock) (nonce : UInt32) :
    Probed clock m (m.probe clock nonce).1 := by
  unfold probe
  split
  · exact ⟨rfl, rfl, rfl, rfl, rfl, Nat.le_refl _, fun _ he _ => he⟩
  · have hold := m.oldestGeneration_le_cleanup clock.cleanup
    have hkept : ∀ e ∈ m.ciphers, clock.cleanup.time ≤ e.2.expiry →
        e ∈ (m.getCipher clock (m.nonceGeneration nonce)).1.ciphers := by
      intro e he hexpiry
      exact (mem_findCipher _ clock _).1 e (mem_cleanupExpiredCiphers.mpr ⟨he, hexpiry⟩)
    obtain ⟨ratchet, oldest, ciphers, heq, hbase, -, -⟩ :=
      cleanupExpiredCiphers_frame m clock.cleanup
    have hsame := base_findCipher (m.cleanupExpiredCiphers clock.cleanup) clock
      (m.nonceGeneration nonce)
    obtain ⟨ratchet', ciphers', hfind, -⟩ :=
      findCipher_frame (m.cleanupExpiredCiphers clock.cleanup) clock (m.nonceGeneration nonce)
    rw [getCipher] at hkept ⊢
    rw [heq] at hold hsame hfind hkept ⊢
    refine ⟨?_, hsame.trans hbase, ?_, ?_, ?_, ?_, hkept⟩
    all_goals rw [hfind]
    all_goals first | rfl | exact hold

omit [HashRatchet H] [LawfulHashRatchet H] in
/-- The generation that a nonce names in its high byte. -/
private theorem nonceGeneration_of_le {m : CipherManager H} {nonce : UInt32}
    (hlt : m.oldestGeneration < 256) (hold : m.oldestGeneration ≤ nonce.toNat / 2 ^ 24) :
    m.nonceGeneration nonce = nonce.toNat / 2 ^ 24 := by
  rw [nonceGeneration, computeWrappedGeneration_of_lt hlt (nonce_shift_lt nonce),
    nonce_shift_eq, if_neg (Nat.not_lt_of_le hold)]

omit [HashRatchet H] [LawfulHashRatchet H] in
private theorem nonceGeneration_of_lt {m : CipherManager H} {nonce : UInt32}
    (hlt : m.oldestGeneration < 256) (hold : nonce.toNat / 2 ^ 24 < m.oldestGeneration) :
    256 ≤ m.nonceGeneration nonce := by
  rw [nonceGeneration, computeWrappedGeneration_of_lt hlt (nonce_shift_lt nonce),
    nonce_shift_eq, if_pos hold]
  exact Nat.le_add_left _ _

theorem bigNonce_of_generation (nonce : UInt32) :
    computeWrappedBigNonce (nonce.toNat / 2 ^ 24) nonce = nonce.toNat := by
  rw [computeWrappedBigNonce_eq]
  omega

end CipherManager

namespace Kept

open CipherManager

variable {served : Nat → Prop} {m : CipherManager H} {clock : ManagerClock} {nonce : UInt32}

/-- A nonce whose generation has not been given up. -/
private theorem probe_of_le (h : Kept served m)
    (hold : m.oldestGeneration ≤ nonce.toNat / 2 ^ 24) :
    m.probe clock nonce =
      if m.window.admits nonce.toNat = false then (m, none)
      else m.getCipher clock (nonce.toNat / 2 ^ 24) := by
  have hlt : m.oldestGeneration < 256 := Nat.lt_of_le_of_lt h.oldest_le h.newest_lt
  rw [probe, nonceGeneration_of_le hlt hold, canProcessNonce_eq, bigNonce_of_generation]

/-- A nonce of an older generation is taken for one of the next cycle, which
the lifetime does not allow. -/
private theorem probe_of_lt (h : Kept served m) (hmax : m.maxGeneration clock.lifetime < 256)
    (hold : nonce.toNat / 2 ^ 24 < m.oldestGeneration) : (m.probe clock nonce).2 = none := by
  have hlt : m.oldestGeneration < 256 := Nat.lt_of_le_of_lt h.oldest_le h.newest_lt
  unfold probe
  split
  · rfl
  · cases hcipher : (m.getCipher clock (m.nonceGeneration nonce)).2 with
    | none => rfl
    | some cipher =>
        have hbound := (m.getCipher_frame clock (m.nonceGeneration nonce)).2.2.2.2 cipher hcipher
        have hwrapped := nonceGeneration_of_lt hlt hold
        omega

private theorem maxGeneration_cleanup (m : CipherManager H) (now now' : Instant) :
    (m.cleanupExpiredCiphers now).maxGeneration now' = m.maxGeneration now' := by
  obtain ⟨ratchet, oldest, ciphers, heq, -⟩ := cleanupExpiredCiphers_frame m now
  rw [heq]
  rfl

private theorem available_cleanup (m : CipherManager H) (now now' : Instant) (g : Nat) :
    Available served (m.cleanupExpiredCiphers now) now' g ↔ Available served m now' g := by
  obtain ⟨ratchet, oldest, ciphers, heq, hbase, -⟩ := cleanupExpiredCiphers_frame m now
  simp only [Available, maxGeneration_cleanup]
  rw [heq]
  simp only [hbase]

theorem probe (herase : ErasesOne H) (h : Kept served m)
    (hmax : m.maxGeneration clock.lifetime < 256) (nonce : UInt32) :
    Kept served (m.probe clock nonce).1 := by
  unfold CipherManager.probe
  split
  · exact h
  · apply (h.cleanupExpiredCiphers herase clock.cleanup).findCipher
    rw [maxGeneration_cleanup]
    exact hmax

/-- **When a cipher is found.** -/
theorem probe_isSome_iff (herase : ErasesOne H) (h : Kept served m)
    (hmax : m.maxGeneration clock.lifetime < 256) :
    (m.probe clock nonce).2.isSome = true ↔
      (m.cleanupExpiredCiphers clock.cleanup).oldestGeneration ≤ nonce.toNat / 2 ^ 24 ∧
        m.window.admits nonce.toNat = true ∧
        Available served m clock.lifetime (nonce.toNat / 2 ^ 24) := by
  have hbyte : nonce.toNat / 2 ^ 24 < 256 := nonce_shift_eq nonce ▸ nonce_shift_lt nonce
  have hgrown := m.oldestGeneration_le_cleanup clock.cleanup
  by_cases hold : m.oldestGeneration ≤ nonce.toNat / 2 ^ 24
  · rw [h.probe_of_le hold]
    cases hadmits : m.window.admits nonce.toNat with
    | false => simp
    | true =>
        simp only [Bool.true_eq_false, if_false, true_and]
        rw [getCipher, (h.cleanupExpiredCiphers herase clock.cleanup).findCipher_isSome_iff hbyte,
          available_cleanup]
  · have hnone := h.probe_of_lt hmax (Nat.lt_of_not_le hold)
    rw [hnone]
    simp only [Option.isSome_none, Bool.false_eq_true, false_iff]
    omega

/-- What is known of a manager that has found a cipher. -/
theorem probe_found (herase : ErasesOne H) (h : Kept served m)
    (hmax : m.maxGeneration clock.lifetime < 256)
    (hfound : (m.probe clock nonce).2.isSome = true) :
    m.nonceGeneration nonce = nonce.toNat / 2 ^ 24 ∧
      (m.probe clock nonce).1.oldestGeneration ≤ nonce.toNat / 2 ^ 24 ∧
      ∃ e ∈ (m.probe clock nonce).1.ciphers, e.1 = nonce.toNat / 2 ^ 24 := by
  obtain ⟨hle, hadmits, -⟩ := (h.probe_isSome_iff herase hmax).mp hfound
  have hold := Nat.le_trans (m.oldestGeneration_le_cleanup clock.cleanup) hle
  have hlt : m.oldestGeneration < 256 := Nat.lt_of_le_of_lt h.oldest_le h.newest_lt
  refine ⟨nonceGeneration_of_le hlt hold, ?_⟩
  rw [h.probe_of_le hold, hadmits] at hfound ⊢
  simp only [Bool.true_eq_false, if_false] at hfound ⊢
  obtain ⟨e, he, hgen⟩ := (mem_findCipher _ clock _).2 hfound
  have hkept := ((h.cleanupExpiredCiphers herase clock.cleanup).findCipher
    (by rw [maxGeneration_cleanup]; exact hmax) (nonce.toNat / 2 ^ 24)).cached e he
  exact ⟨hgen ▸ hkept.1, e, he, hgen⟩

/-- Where the key is to be had and the nonce is fresh, only the age of the
generation can stand in the way. -/
theorem probe_missed (herase : ErasesOne H) (h : Kept served m)
    (hmax : m.maxGeneration clock.lifetime < 256)
    (hadmits : m.window.admits nonce.toNat = true)
    (havailable : Available served m clock.lifetime (nonce.toNat / 2 ^ 24))
    (hnone : (m.probe clock nonce).2 = none) :
    nonce.toNat / 2 ^ 24 < (m.probe clock nonce).1.oldestGeneration := by
  have hmissed : ¬ (m.cleanupExpiredCiphers clock.cleanup).oldestGeneration ≤
      nonce.toNat / 2 ^ 24 := by
    intro hle
    have hfound := (h.probe_isSome_iff herase hmax).mpr ⟨hle, hadmits, havailable⟩
    rw [hnone] at hfound
    exact absurd hfound (by decide)
  by_cases hold : m.oldestGeneration ≤ nonce.toNat / 2 ^ 24
  · rw [h.probe_of_le hold, hadmits]
    simp only [Bool.true_eq_false, if_false]
    obtain ⟨ratchet, ciphers, hfind, -⟩ := findCipher_frame
      (m.cleanupExpiredCiphers clock.cleanup) clock (nonce.toNat / 2 ^ 24)
    rw [getCipher, hfind]
    exact Nat.lt_of_not_le hmissed
  · exact Nat.lt_of_lt_of_le (Nat.lt_of_not_le hold) (m.probed clock nonce).oldest_le

/-- A nonce beyond all reported ones finds its cipher whenever the key is to be
had. -/
theorem probe_newer (herase : ErasesOne H) (h : Kept served m)
    (hmax : m.maxGeneration clock.lifetime < 256)
    (hnewer : ∀ n, m.newestProcessedNonce = some n → n < nonce.toNat)
    (havailable : Available served m clock.lifetime (nonce.toNat / 2 ^ 24)) :
    (m.probe clock nonce).2.isSome = true := by
  have hkept := (h.cleanupExpiredCiphers herase clock.cleanup).oldest_le
  obtain ⟨ratchet, oldest, ciphers, heq, -⟩ := cleanupExpiredCiphers_frame m clock.cleanup
  have hnewest := h.newest_eq
  rw [h.probe_isSome_iff herase hmax]
  rw [heq] at hkept ⊢
  refine ⟨?_, ?_, havailable⟩
  · apply Nat.le_trans hkept
    simp only [hnewest]
    cases hn : m.newestProcessedNonce with
    | none => exact Nat.zero_le _
    | some n => exact Nat.div_le_div_right (Nat.le_of_lt (hnewer n hn))
  · simp only [Window.admits, window]
    cases hn : m.newestProcessedNonce with
    | none => rfl
    | some n => simp [hnewer n hn]

end Kept

/-! ## Reports -/

namespace CipherManager

omit [HashRatchet H] [LawfulHashRatchet H] in
/-- The cached ciphers after a report. -/
theorem mem_reportCipherSuccess {m : CipherManager H} {now : Instant} {g : Nat}
    {nonce : UInt32} {e : Nat × CipherEntry} :
    e ∈ (m.reportCipherSuccess now g nonce).ciphers ↔ ∃ old ∈ m.ciphers, e = (old.1,
      ⟨old.2.cipher, if m.newestGeneration < g ∧ old.1 < g ∧ old.2.expiry = TimePoint.max then
        now.time + cipherExpiry else old.2.expiry⟩) := by
  obtain ⟨missing, newest, hreport⟩ := m.reportNonce_frame (computeWrappedBigNonce g nonce)
  unfold reportCipherSuccess
  rw [hreport]
  dsimp only
  by_cases hnewer : m.newestGeneration < g
  · rw [if_pos hnewer]
    simp only [List.mem_map, hnewer, true_and]
    constructor
    · intro hmem
      obtain ⟨old, hold, rfl⟩ := hmem
      refine ⟨old, hold, ?_⟩
      split <;> rfl
    · intro hmem
      obtain ⟨old, hold, rfl⟩ := hmem
      refine ⟨old, hold, ?_⟩
      split <;> rfl
  · rw [if_neg hnewer]
    simp only [hnewer, false_and, if_false]
    constructor
    · intro hmem
      exact ⟨e, hmem, rfl⟩
    · intro hmem
      obtain ⟨old, hold, rfl⟩ := hmem
      exact hold

omit [HashRatchet H] [LawfulHashRatchet H] in
/-- A late nonce leaves the cached ciphers alone. -/
theorem mem_reportCipherSuccess_of_le {m : CipherManager H} {now : Instant} {g : Nat}
    {nonce : UInt32} (hlate : g ≤ m.newestGeneration) {e : Nat × CipherEntry} :
    e ∈ (m.reportCipherSuccess now g nonce).ciphers ↔ e ∈ m.ciphers := by
  rw [mem_reportCipherSuccess]
  simp only [Nat.not_lt_of_le hlate, false_and, if_false]
  constructor
  · intro hmem
    obtain ⟨old, hold, rfl⟩ := hmem
    exact hold
  · intro hmem
    exact ⟨e, hmem, rfl⟩

end CipherManager

/-- The manager has a cipher for the nonce and has not seen it. -/
structure Found (m : CipherManager H) (nonce : UInt32) : Prop where
  cached : ∃ e ∈ m.ciphers, e.1 = nonce.toNat / 2 ^ 24
  admits : m.window.admits nonce.toNat = true

/-- The nonce is not beyond all reported ones. -/
def Late (m : CipherManager H) (nonce : UInt32) : Prop :=
  ∃ n, m.newestProcessedNonce = some n ∧ nonce.toNat ≤ n

omit [HashRatchet H] [LawfulHashRatchet H] in
theorem not_late {m : CipherManager H} {nonce : UInt32} (h : ¬ Late m nonce) (n : Nat)
    (hn : m.newestProcessedNonce = some n) : n < nonce.toNat := by
  by_contra hle
  exact h ⟨n, hn, Nat.le_of_not_lt hle⟩

/-- What `report_cipher_success` makes of a manager, the ciphers apart. -/
structure Reported (nonce : UInt32) (m m' : CipherManager H) : Prop where
  window : m'.window = m.window.record maxMissingNonces nonce.toNat
  base : m'.ratchet.base = m.ratchet.base
  created : m'.creationTime = m.creationTime
  expires : m'.expiryTime = m.expiryTime
  oldest : m'.oldestGeneration = m.oldestGeneration
  newest : m'.newestGeneration = max m.newestGeneration (nonce.toNat / 2 ^ 24)

theorem CipherManager.reported (m : CipherManager H) (now : Instant) (nonce : UInt32) :
    Reported nonce m (m.reportCipherSuccess now (nonce.toNat / 2 ^ 24) nonce) := by
  have hwindow := m.window_reportCipherSuccess now (nonce.toNat / 2 ^ 24) nonce
  rw [bigNonce_of_generation] at hwindow
  obtain ⟨missing, newest, ciphers, heq, -⟩ :=
    m.reportCipherSuccess_frame now (nonce.toNat / 2 ^ 24) nonce
  rw [heq] at hwindow ⊢
  exact ⟨hwindow, rfl, rfl, rfl, rfl, rfl⟩

namespace Reported

variable {nonce : UInt32} {served : Nat → Prop} {m m' : CipherManager H}

theorem newestProcessed (h : Reported nonce m m') :
    m'.newestProcessedNonce = some (max nonce.toNat (m.newestProcessedNonce.getD 0)) := by
  have hnewest := congrArg Window.newest h.window
  rw [Window.newest_record] at hnewest
  exact hnewest

theorem newest_of_late (h : Reported nonce m m') (hlate : Late m nonce) :
    m'.newestProcessedNonce = m.newestProcessedNonce := by
  obtain ⟨n, hn, hle⟩ := hlate
  rw [h.newestProcessed, hn, Option.getD_some, Nat.max_eq_right hle]

theorem mem_missing_of_late (h : Reported nonce m m') (hkept : Kept served m)
    (hlate : Late m nonce) {x : Nat} :
    x ∈ m'.missingNonces ↔ x ∈ m.missingNonces ∧ x ≠ nonce.toNat := by
  obtain ⟨n, hn, hle⟩ := hlate
  obtain ⟨recorded, htracks⟩ := hkept.tracks
  have hmem := htracks.mem_record_of_le (m := x) hn hle
  rw [← h.window] at hmem
  exact hmem

theorem mem_missing_of_newer (h : Reported nonce m m') (hkept : Kept served m) {n x : Nat}
    (hn : m.newestProcessedNonce = some n) (hnewer : n < nonce.toNat) :
    x ∈ m'.missingNonces ↔ nonce.toNat - maxMissingNonces ≤ x ∧
      (x ∈ m.missingNonces ∨ n < x ∧ x < nonce.toNat) := by
  obtain ⟨recorded, htracks⟩ := hkept.tracks
  have hmem := htracks.mem_record_of_lt (m := x) hn hnewer
  rw [← h.window] at hmem
  exact hmem

/-- The first nonce of all leaves nothing missing. -/
theorem missing_of_first (h : Reported nonce m m') (hkept : Kept served m)
    (hn : m.newestProcessedNonce = none) : m'.missingNonces = [] := by
  obtain ⟨recorded, htracks⟩ := hkept.tracks
  have hmissing := congrArg Window.missing h.window
  simp only [Window.record, show m.window.newest = none from hn] at hmissing
  exact hmissing.trans (htracks.fresh hn).1

end Reported

namespace Kept

open CipherManager

variable {served : Nat → Prop} {m : CipherManager H} {nonce : UInt32}

/-- A late nonce is not of a newer generation. -/
theorem byte_le_of_late (h : Kept served m) (hlate : Late m nonce) :
    nonce.toNat / 2 ^ 24 ≤ m.newestGeneration := by
  obtain ⟨n, hn, hle⟩ := hlate
  rw [h.newest_eq, hn, Option.getD_some]
  exact Nat.div_le_div_right hle

/-- **A frame that opened.** -/
theorem reportCipherSuccess (h : Kept served m) (now : Instant)
    (hcached : ∃ e ∈ m.ciphers, e.1 = nonce.toNat / 2 ^ 24)
    (hadmits : m.window.admits nonce.toNat = true) :
    Kept served (m.reportCipherSuccess now (nonce.toNat / 2 ^ 24) nonce) := by
  have hbyte : nonce.toNat / 2 ^ 24 < 256 := nonce_shift_eq nonce ▸ nonce_shift_lt nonce
  have hwf := h.wf.reportCipherSuccess now (nonce.toNat / 2 ^ 24) nonce
  have hwindow := m.window_reportCipherSuccess now (nonce.toNat / 2 ^ 24) nonce
  rw [bigNonce_of_generation] at hwindow
  have hnewest := congrArg Window.newest hwindow
  rw [Window.newest_record] at hnewest
  have hciphers : ∀ e, e ∈ (m.reportCipherSuccess now (nonce.toNat / 2 ^ 24) nonce).ciphers ↔ _ :=
    fun _ => mem_reportCipherSuccess
  obtain ⟨recorded, htracks⟩ := h.tracks
  obtain ⟨missing, newest, ciphers, heq, -⟩ :=
    m.reportCipherSuccess_frame now (nonce.toNat / 2 ^ 24) nonce
  rw [heq] at hwf hwindow hnewest hciphers ⊢
  simp only at hciphers hnewest
  refine ⟨hwf, ⟨_, hwindow ▸ htracks.record hadmits⟩, Nat.le_trans h.oldest_le
    (Nat.le_max_left _ _), Nat.max_lt.mpr ⟨h.newest_lt, hbyte⟩, ?_, ?_, ?_, ?_, h.keys⟩
  · have hgen := h.newest_eq
    simp only [window] at hnewest
    simp only [hnewest, Option.getD_some]
    omega
  · intro e he
    obtain ⟨old, hmem, rfl⟩ := (hciphers e).mp he
    exact h.cached old hmem
  · intro e he hle
    obtain ⟨old, hmem, rfl⟩ := (hciphers e).mp he
    simp only at hle ⊢
    rw [if_neg (by omega)]
    exact h.lasting old hmem (by omega)
  · intro _
    -- the newest generation is the one just reported or the one before
    by_cases hnewer : m.newestGeneration ≤ nonce.toNat / 2 ^ 24
    · obtain ⟨old, hmem, hgen⟩ := hcached
      refine ⟨_, (hciphers _).mpr ⟨old, hmem, rfl⟩, ?_⟩
      simp only [hgen]
      omega
    · have hsome : m.newestProcessedNonce ≠ none := by
        intro hnone
        have hgen := h.newest_eq
        rw [hnone] at hgen
        simp only [Option.getD_none] at hgen
        omega
      obtain ⟨old, hmem, hgen⟩ := h.current hsome
      refine ⟨_, (hciphers _).mpr ⟨old, hmem, rfl⟩, ?_⟩
      simp only [hgen]
      omega

end Kept

end Ekizu.Dave
