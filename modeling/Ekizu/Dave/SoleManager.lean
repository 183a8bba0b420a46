import Ekizu.Dave.Replay

/-!
# Decryptors with one manager

A decryptor that was given one ratchet and never passthrough keeps one manager,
which never expires.  When the ratchet is the one of MLS, the manager never
accepts a generation beyond 255: the key it would need has been erased.  So the
nonce of a frame identifies it for as long as the manager lives.

## Main results

* `Sole.decrypt` — what a call does to such a decryptor.
* `FirstCycle.getCipher` — the generations stay in the first cycle.
* `Tracked.decrypt` — a nonce is accepted once, whatever the clock says.
-/

namespace Ekizu.Dave

open Lib.ReplayWindow LawfulHashRatchet

variable {H : Type} [HashRatchet H] [LawfulHashRatchet H]

/-! ## One manager -/

/-- The decryptor has one manager, which does not expire, and never lets
plaintext through. -/
structure Sole (d : Decryptor H) (manager : CipherManager H) : Prop where
  managers : d.managers = [manager]
  lasting : manager.expiryTime = TimePoint.max
  wf : manager.Wf
  closed : d.allowPassthroughUntil = TimePoint.min

theorem sole_new (ratchet : KeyRatchet H) (now created : Instant) (expiry : Int) :
    Sole (({} : Decryptor H).transitionToKeyRatchet (some ratchet) now created expiry)
      (.new ratchet created) :=
  ⟨rfl, rfl, CipherManager.wf_new ratchet created, rfl⟩

namespace CipherManager

variable {manager : CipherManager H}

theorem expiryTime_getCipher (manager : CipherManager H) (clock : ManagerClock)
    (generation : Nat) :
    (manager.getCipher clock generation).1.expiryTime = manager.expiryTime := by
  obtain ⟨ratchet, oldest, ciphers, heq, -⟩ :=
    cleanupExpiredCiphers_frame manager clock.cleanup
  obtain ⟨ratchet', ciphers', hfind, -⟩ :=
    findCipher_frame (manager.cleanupExpiredCiphers clock.cleanup) clock generation
  rw [heq] at hfind
  rw [getCipher, heq, hfind]

omit [HashRatchet H] [LawfulHashRatchet H] in
theorem reportCipherSuccess_keeps (manager : CipherManager H) (now : Instant) (generation : Nat)
    (nonce : UInt32) :
    (manager.reportCipherSuccess now generation nonce).expiryTime = manager.expiryTime ∧
      (manager.reportCipherSuccess now generation nonce).ratchet = manager.ratchet := by
  obtain ⟨missing, newest, ciphers, heq, -⟩ :=
    manager.reportCipherSuccess_frame now generation nonce
  rw [heq]
  exact ⟨rfl, rfl⟩

omit [HashRatchet H] [LawfulHashRatchet H] in
theorem isExpired_of_lasting (h : manager.expiryTime = TimePoint.max) (now : Instant) :
    manager.isExpired now = false := by
  simp only [isExpired, h, decide_eq_false_iff_not]
  exact Int.not_lt.mpr now.le_max

end CipherManager

namespace Decryptor

/-- What an attempt leaves of the manager, whatever its outcome. -/
theorem decryptImpl_keeps {gcm : AesGcm} {manager : CipherManager H} {clock : ManagerClock}
    {p : InboundFrameProcessor} {frameOut : Bytes} {a : Attempt H} (hwf : manager.Wf)
    (h : decryptImpl gcm manager clock p frameOut = some a) :
    a.manager.Wf ∧ a.manager.expiryTime = manager.expiryTime ∧
      a.manager.ratchet.base = manager.ratchet.base := by
  have hget := hwf.getCipher clock (manager.nonceGeneration p.truncatedNonce)
  have hexpiry := manager.expiryTime_getCipher clock (manager.nonceGeneration p.truncatedNonce)
  rcases manager_decryptImpl h with hsame | hasked | hreported
  · rw [hsame]
    exact ⟨hwf, rfl, rfl⟩
  · rw [hasked]
    exact ⟨hget.1, hexpiry, hget.2.1⟩
  · have hreport := hget.1.reportCipherSuccess clock.report
      (manager.nonceGeneration p.truncatedNonce) p.truncatedNonce
    have hkeeps :=
      (manager.getCipher clock (manager.nonceGeneration p.truncatedNonce)).1
        |>.reportCipherSuccess_keeps clock.report (manager.nonceGeneration p.truncatedNonce)
          p.truncatedNonce
    rw [hreported]
    refine ⟨hreport, hkeeps.1.trans hexpiry, ?_⟩
    rw [hkeeps.2]
    exact hget.2.1

end Decryptor

/-- The attempt that a call made with the only manager. -/
structure SoleAttempt (gcm : AesGcm) (manager : CipherManager H) (clock : DecryptClock)
    (frame frameOut : Bytes) (call : Decryption H) (p : InboundFrameProcessor) (a : Attempt H) :
    Prop where
  parsed : ∃ p₀ : InboundFrameProcessor, p₀.parseFrame frame = some p
  encrypted : p.encrypted = true
  attempted : Decryptor.decryptImpl gcm manager (clock.attempt 0) p frameOut = some a
  result : call.result = a.written
  output : call.output = a.output

/-- The only manager does not expire. -/
theorem Sole.kept {d : Decryptor H} {manager : CipherManager H} (h : Sole d manager)
    (now : Nat → Instant) : Decryptor.cleanupExpiredManagers now d.managers = [manager] := by
  rw [h.managers, Decryptor.cleanupExpiredManagers,
    CipherManager.isExpired_of_lasting h.lasting]
  rfl

/-- **One call.**  The decryptor keeps one manager, with the same base; the
call has not looked at the frame, or tried it with the manager. -/
theorem Sole.decrypt {d : Decryptor H} {manager : CipherManager H} (h : Sole d manager)
    {gcm : AesGcm} {mediaType : MediaType} {clock : DecryptClock} {frame frameOut : Bytes}
    {call : Decryption H} (hcall : d.decrypt gcm mediaType clock frame frameOut = some call) :
    ∃ manager', Sole call.decryptor manager' ∧
      manager'.ratchet.base = manager.ratchet.base ∧
      ((manager' = manager ∧ (frame = opusSilencePacket ∨ call.result = none)) ∨
        ∃ p a, SoleAttempt gcm manager clock frame frameOut call p a ∧ manager' = a.manager) := by
  obtain ⟨hending, huntil⟩ := Decryptor.decrypt_cases hcall
  have hclosed := huntil.trans h.closed
  have hkept := h.kept clock.expired
  cases hending with
  | silence _ hframe hmanagers _ _ _ =>
      exact ⟨manager, ⟨hmanagers.trans h.managers, h.lasting, h.wf, hclosed⟩, rfl,
        .inl ⟨rfl, .inl hframe⟩⟩
  | passthrough p₀ p _ _ hallowed _ _ _ _ =>
      -- the deadline is the earliest time there is
      rw [h.closed] at hallowed
      exact absurd hallowed (Int.not_lt.mpr clock.now.min_le)
  | refused p₀ p _ _ hmanagers _ hresult =>
      exact ⟨manager, ⟨hmanagers.trans hkept, h.lasting, h.wf, hclosed⟩, rfl,
        .inl ⟨rfl, .inr hresult⟩⟩
  | swept p₀ p sweep hparse hencrypted hsweep hmanagers _ houtput hresult =>
      rw [hkept, List.reverse_singleton] at hsweep
      obtain ⟨a, ha, hnext⟩ := Decryptor.decryptLoop_cons hsweep
      obtain ⟨hwf, hexpiry, hbase⟩ := Decryptor.decryptImpl_keeps h.wf ha
      have hsole : sweep.managers = [a.manager] ∧ sweep.written = a.written ∧
          sweep.output = a.output := by
        cases hnext with
        | inl hstops =>
            obtain ⟨written, hwritten, rfl⟩ := hstops
            exact ⟨rfl, hwritten.symm, rfl⟩
        | inr hgoesOn =>
            obtain ⟨hwritten, rest, hrest, rfl⟩ := hgoesOn
            obtain rfl := Option.some.inj hrest
            exact ⟨rfl, hwritten.symm, rfl⟩
      refine ⟨a.manager, ⟨?_, hexpiry.trans h.lasting, hwf, hclosed⟩, hbase, .inr ⟨p, a, ?_, rfl⟩⟩
      · rw [hmanagers, hsole.1, List.reverse_singleton]
      · exact ⟨⟨p₀, hparse⟩, hencrypted, ha, hresult.trans hsole.2.1, houtput.trans hsole.2.2⟩

/-! ## The first cycle of generations -/

/-- All generations of the manager lie below 256 and were derived, and those
below the oldest one are gone for good. -/
structure FirstCycle (manager : CipherManager H) (r : H) : Prop where
  ratchet : manager.ratchet = .mls r
  cached : ∀ g ∈ manager.ciphers.map Prod.fst, g < 256 ∧ g < next r
  newest_lt : manager.newestGeneration < 256
  derived : manager.newestGeneration = 0 ∨ manager.newestGeneration < next r
  oldest_le : manager.oldestGeneration ≤ manager.newestGeneration
  gone : ∀ g < manager.oldestGeneration, ¬ live r g

theorem firstCycle_new (secret : Bytes) (created : Instant) :
    FirstCycle (.new (.mls (HashRatchet.ofSecret secret : H)) created)
      (HashRatchet.ofSecret secret) :=
  ⟨rfl, by simp [CipherManager.new], Nat.zero_lt_succ _, .inl rfl, Nat.le_refl _,
    fun g hg => absurd hg (Nat.not_lt_zero g)⟩

namespace FirstCycle

variable {manager : CipherManager H} {r : H}

private theorem toNat_toUInt8 {g : Nat} (hg : g < 256) : g.toUInt8.toNat = g := by
  simp only [Nat.toUInt8, UInt8.toNat_ofNat']
  omega

theorem deleteOldKeys (manager : CipherManager H) :
    ∀ {r : H}, FirstCycle manager r → ∃ r', FirstCycle manager.deleteOldKeys r' := by
  fun_induction CipherManager.deleteOldKeys manager with
  | case1 manager hold ih =>
      intro r h
      have hlt : manager.oldestGeneration < 256 := Nat.lt_trans hold.1 h.newest_lt
      have hderived : manager.oldestGeneration < next r := by
        have := h.derived
        omega
      refine ih (r := HashRatchet.erase r manager.oldestGeneration)
        ⟨?_, ?_, h.newest_lt, ?_, hold.1, ?_⟩
      · simp only [h.ratchet, KeyRatchet.deleteKey, toNat_toUInt8 hlt]
      · rw [next_erase]
        exact h.cached
      · rw [next_erase]
        exact h.derived
      · intro g hg hlive
        rcases Nat.lt_succ_iff_lt_or_eq.mp hg with hg | rfl
        · exact h.gone g hg (live_of_live_erase hlive)
        · exact not_live_erase hderived hlive
  | case2 manager _ =>
      intro r h
      exact ⟨r, h⟩

theorem cleanupExpiredCiphers (h : FirstCycle manager r) (now : Instant) :
    ∃ r', FirstCycle (manager.cleanupExpiredCiphers now) r' := by
  refine deleteOldKeys _ (r := r) ⟨h.ratchet, ?_, h.newest_lt, h.derived, h.oldest_le, h.gone⟩
  intro g hg
  obtain ⟨entry, hentry, rfl⟩ := List.mem_map.mp hg
  exact h.cached _ (List.mem_map_of_mem (List.mem_of_mem_filter hentry))

/-- A generation that was wrapped around is not found: it is not cached, and
its key is gone. -/
private theorem findCipher_wrapped (h : FirstCycle manager r) (clock : ManagerClock) {g : Nat}
    (hg : g < manager.oldestGeneration) :
    ∃ r', FirstCycle (manager.findCipher clock (g + 256)).1 r' ∧
      (manager.findCipher clock (g + 256)).2 = none := by
  have hlt : g < 256 := Nat.lt_trans hg (Nat.lt_of_le_of_lt h.oldest_le h.newest_lt)
  have hbyte : (g + 256).toUInt8.toNat = g := by
    simp only [Nat.toUInt8, UInt8.toNat_ofNat']
    omega
  have hlookup : manager.ciphers.lookup (g + 256) = none := by
    rw [List.lookup_eq_none_iff]
    intro entry hentry
    have hcached := (h.cached entry.1 (List.mem_map_of_mem hentry)).1
    simp
    omega
  have hget : (HashRatchet.get r g).1 = none := get_of_not_live (h.gone g hg)
  unfold CipherManager.findCipher
  split
  · exact ⟨r, h, rfl⟩
  · split
    · exact ⟨r, h, rfl⟩
    · split
      · exact ⟨r, h, rfl⟩
      · simp only [hlookup, h.ratchet, KeyRatchet.getKey, hbyte, hget, Option.getD_none, if_true]
        refine ⟨(HashRatchet.get r g).2, ⟨rfl, ?_, h.newest_lt, ?_, h.oldest_le, ?_⟩, trivial⟩
        · intro g' hg'
          have hcached := h.cached g' hg'
          exact ⟨hcached.1, Nat.lt_of_lt_of_le hcached.2 (next_le_get r g)⟩
        · rcases h.derived with hzero | hnext
          · exact .inl hzero
          · exact .inr (Nat.lt_of_lt_of_le hnext (next_le_get r g))
        · intro g' hg' hlive
          exact h.gone g' hg' ((live_get r g g').mp hlive)

/-- A generation of the first cycle is derived when it is found. -/
private theorem findCipher_first (h : FirstCycle manager r) (clock : ManagerClock) {g : Nat}
    (hlt : g < 256) :
    ∃ r', FirstCycle (manager.findCipher clock g).1 r' ∧
      ((manager.findCipher clock g).2 ≠ none → g < next r') := by
  unfold CipherManager.findCipher
  split
  · exact ⟨r, h, by simp⟩
  · split
    · exact ⟨r, h, by simp⟩
    · split
      · exact ⟨r, h, by simp⟩
      · split
        · next entry hlookup =>
            obtain ⟨l₁, l₂, hsplit, -⟩ := List.lookup_eq_some_iff.mp hlookup
            have hmem : g ∈ manager.ciphers.map Prod.fst := by simp [hsplit]
            exact ⟨r, h, fun _ => (h.cached g hmem).2⟩
        · simp only [h.ratchet, KeyRatchet.getKey, toNat_toUInt8 hlt]
          have hnext := next_le_get r g
          have hcached : ∀ g' ∈ manager.ciphers.map Prod.fst,
              g' < 256 ∧ g' < next (HashRatchet.get r g).2 := by
            intro g' hg'
            have := h.cached g' hg'
            exact ⟨this.1, Nat.lt_of_lt_of_le this.2 hnext⟩
          have hderived : manager.newestGeneration = 0 ∨
              manager.newestGeneration < next (HashRatchet.get r g).2 := by
            have := h.derived
            omega
          have hgone : ∀ g' < manager.oldestGeneration, ¬ live (HashRatchet.get r g).2 g' :=
            fun g' hg' hlive => h.gone g' hg' ((live_get r g g').mp hlive)
          split
          · exact ⟨_, ⟨rfl, hcached, h.newest_lt, hderived, h.oldest_le, hgone⟩, by simp⟩
          · next hkey =>
              have hlive : live r g := by
                by_contra hdead
                rw [get_of_not_live hdead] at hkey
                exact hkey rfl
              refine ⟨_, ⟨rfl, ?_, h.newest_lt, hderived, h.oldest_le, hgone⟩,
                fun _ => lt_next_get hlive⟩
              intro g' hg'
              simp only [List.map_append, List.map_cons, List.map_nil, List.mem_append,
                List.mem_singleton] at hg'
              rcases hg' with hg' | rfl
              · exact hcached g' hg'
              · exact ⟨hlt, lt_next_get hlive⟩

/-- **The generations stay in the first cycle.**  A cipher is only found for
the nonce's own high byte. -/
theorem getCipher (h : FirstCycle manager r) (clock : ManagerClock) (nonce : UInt32) :
    ∃ r', FirstCycle (manager.getCipher clock (manager.nonceGeneration nonce)).1 r' ∧
      ((manager.getCipher clock (manager.nonceGeneration nonce)).2 ≠ none →
        manager.nonceGeneration nonce < 256 ∧ manager.nonceGeneration nonce < next r') := by
  obtain ⟨r₁, h₁⟩ := h.cleanupExpiredCiphers clock.cleanup
  have hbyte := nonce_shift_lt nonce
  have hold : manager.oldestGeneration < 256 := Nat.lt_of_le_of_lt h.oldest_le h.newest_lt
  have hgen : manager.nonceGeneration nonce = _ := computeWrappedGeneration_of_lt hold hbyte
  rw [CipherManager.getCipher]
  split at hgen
  · next hlow =>
      have hgrown : manager.oldestGeneration ≤
          (manager.cleanupExpiredCiphers clock.cleanup).oldestGeneration :=
        manager.oldestGeneration_le_cleanup clock.cleanup
      rw [hgen]
      obtain ⟨r₂, h₂, hnone⟩ :=
        h₁.findCipher_wrapped clock (Nat.lt_of_lt_of_le hlow hgrown)
      exact ⟨r₂, h₂, fun hfound => absurd hnone hfound⟩
  · rw [hgen]
    obtain ⟨r₂, h₂, hfound⟩ := h₁.findCipher_first clock hbyte
    exact ⟨r₂, h₂, fun hsome => ⟨hbyte, hfound hsome⟩⟩

theorem reportCipherSuccess (h : FirstCycle manager r) (now : Instant) {generation : Nat}
    (nonce : UInt32) (hlt : generation < 256) (hderived : generation < next r) :
    FirstCycle (manager.reportCipherSuccess now generation nonce) r := by
  obtain ⟨missing, newest, ciphers, heq, hsame⟩ :=
    manager.reportCipherSuccess_frame now generation nonce
  have hkeys : ciphers.map Prod.fst = manager.ciphers.map Prod.fst := by
    have hfst := congrArg (List.map Prod.fst) hsame
    rwa [List.map_map, List.map_map] at hfst
  rw [heq]
  refine ⟨h.ratchet, ?_, ?_, ?_, ?_, h.gone⟩
  · simp only [hkeys]
    exact h.cached
  · exact Nat.max_lt.mpr ⟨h.newest_lt, hlt⟩
  · have := h.derived
    simp only
    omega
  · exact Nat.le_trans h.oldest_le (Nat.le_max_left _ _)

end FirstCycle

/-! ## Accepted once -/

/-- The decryptor has one manager of MLS, and its window refuses every nonce of
the list. -/
def Tracked (d : Decryptor H) (accepted : List UInt32) : Prop :=
  ∃ manager r recorded, Sole d manager ∧ FirstCycle manager r ∧
    manager.window.Tracks maxMissingNonces recorded ∧
    ∀ nonce ∈ accepted, manager.window.Spent nonce.toNat

theorem tracked_new (secret : Bytes) (now created : Instant) (expiry : Int) :
    Tracked (({} : Decryptor H).transitionToKeyRatchet
      (some (.mls (HashRatchet.ofSecret secret))) now created expiry) [] :=
  ⟨_, _, [], sole_new _ now created expiry, firstCycle_new secret created,
    Window.tracks_empty _, by simp⟩

theorem Tracked.forget {d : Decryptor H} {accepted : List UInt32} (h : Tracked d accepted) :
    Tracked d [] := by
  obtain ⟨manager, r, recorded, hsole, hcycle, htracks, -⟩ := h
  exact ⟨manager, r, recorded, hsole, hcycle, htracks, by simp⟩

/-- An attempt that opened a frame: the window admitted its nonce, and refuses
it from now on. -/
private theorem FirstCycle.opened {gcm : AesGcm} {manager : CipherManager H} {r : H}
    {recorded : List Nat} {accepted : List UInt32} {clock : ManagerClock}
    {p : InboundFrameProcessor} {frameOut : Bytes} {a : Attempt H} {cipher : AeadCipher}
    {decrypted : Bytes} {written : Nat} (hcycle : FirstCycle manager r)
    (htracks : manager.window.Tracks maxMissingNonces recorded)
    (hspent : ∀ nonce ∈ accepted, manager.window.Spent nonce.toNat)
    (hopen : Decryptor.Opened gcm manager clock p frameOut a cipher decrypted written) :
    p.truncatedNonce ∉ accepted ∧
      (∃ r', FirstCycle a.manager r') ∧
      a.manager.window.Tracks maxMissingNonces (p.truncatedNonce.toNat :: recorded) ∧
      ∀ nonce ∈ p.truncatedNonce :: accepted, a.manager.window.Spent nonce.toNat := by
  obtain ⟨r', hcycle', hfound⟩ := hcycle.getCipher clock p.truncatedNonce
  obtain ⟨hlt, hderived⟩ := hfound (by rw [hopen.found]; exact Option.some_ne_none _)
  have hold : manager.oldestGeneration < 256 :=
    Nat.lt_of_le_of_lt hcycle.oldest_le hcycle.newest_lt
  have hadmitted := hopen.admitted
  rw [CipherManager.canProcessNonce_eq, Decryptor.bigNonce_eq hold hlt] at hadmitted
  have hrecord : a.manager.window =
      manager.window.record maxMissingNonces p.truncatedNonce.toNat := by
    rw [hopen.manager_eq, CipherManager.window_reportCipherSuccess,
      (manager.getCipher_frame clock (manager.nonceGeneration p.truncatedNonce)).1,
      Decryptor.bigNonce_eq hold hlt]
  refine ⟨?_, ⟨r', ?_⟩, ?_, ?_⟩
  · intro hmem
    have hrefused := Window.admits_eq_false_iff.mpr (hspent _ hmem)
    rw [hadmitted] at hrefused
    exact absurd hrefused (by decide)
  · rw [hopen.manager_eq]
    exact hcycle'.reportCipherSuccess _ _ hlt hderived
  · rw [hrecord]
    exact htracks.record hadmitted
  · intro nonce hmem
    rw [hrecord]
    rcases List.mem_cons.mp hmem with rfl | hmem
    · exact htracks.spent_record_self hadmitted
    · exact (hspent nonce hmem).record _

/-- **One call.**  Nothing that was accepted is accepted again, and what the
call accepts had not been accepted before. -/
theorem Tracked.decrypt {d : Decryptor H} {accepted : List UInt32} (h : Tracked d accepted)
    {gcm : AesGcm} {mediaType : MediaType} {clock : DecryptClock} {frame frameOut : Bytes}
    {call : Decryption H} (hcall : d.decrypt gcm mediaType clock frame frameOut = some call) :
    Tracked call.decryptor accepted ∧
      (call.result ≠ none → frame = opusSilencePacket ∨ ∃ nonce, frameNonce frame = some nonce ∧
        nonce ∉ accepted ∧ Tracked call.decryptor (nonce :: accepted)) := by
  obtain ⟨manager, r, recorded, hsole, hcycle, htracks, hspent⟩ := h
  obtain ⟨manager', hsole', -, hcase⟩ := hsole.decrypt hcall
  rcases hcase with ⟨rfl, hnothing⟩ | ⟨p, a, hattempt, rfl⟩
  · refine ⟨⟨manager', r, recorded, hsole', hcycle, htracks, hspent⟩, ?_⟩
    intro hresult
    rcases hnothing with hsilence | hnone
    · exact .inl hsilence
    · exact absurd hnone hresult
  obtain ⟨p₀, hparse⟩ := hattempt.parsed
  rcases Decryptor.decryptImpl_cases hattempt.attempted with
    ⟨-, hwritten, -, -, hmanager⟩ | ⟨cipher, decrypted, written, hopen⟩
  · -- the window is as it was
    refine ⟨?_, fun hresult => absurd (hattempt.result.trans hwritten) hresult⟩
    rcases hmanager with hmanager | hmanager
    · rw [hmanager] at hsole'
      exact ⟨manager, r, recorded, hsole', hcycle, htracks, hspent⟩
    · rw [hmanager] at hsole'
      obtain ⟨r', hcycle', -⟩ := hcycle.getCipher (clock.attempt 0) p.truncatedNonce
      have hwindow := (manager.getCipher_frame (clock.attempt 0)
        (manager.nonceGeneration p.truncatedNonce)).1
      refine ⟨_, r', recorded, hsole', hcycle', ?_, ?_⟩
      · rw [hwindow]
        exact htracks
      · rw [hwindow]
        exact hspent
  · obtain ⟨hfresh, ⟨r', hcycle'⟩, htracks', hspent'⟩ := hcycle.opened htracks hspent hopen
    have hspends : Tracked call.decryptor (p.truncatedNonce :: accepted) :=
      ⟨_, r', _, hsole', hcycle', htracks', hspent'⟩
    constructor
    · exact ⟨_, r', _, hsole', hcycle', htracks',
        fun nonce hmem => hspent' nonce (List.mem_cons_of_mem _ hmem)⟩
    · intro _
      exact .inr ⟨p.truncatedNonce, truncatedNonce_of_parseFrame hparse, hfresh, hspends⟩

end Ekizu.Dave
