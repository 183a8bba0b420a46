import Ekizu.Dave.SoleManager

/-!
# The expiry of the managers

`cleanup_expired_managers` pops the front of the queue as long as it has expired.
That drops every expired manager only if the managers expire in the order of the
queue.  A transition caps the expiry times of all managers at one point in time and
appends a manager that does not expire, so it keeps that order, whatever the point
in time is; `decrypt` moves no expiry time.

## Main results

* `Expiring.transitionToKeyRatchet`, `Expiring.decrypt` — what keeps the order.
* `Expiring.cleanup` — where the clean-up stops, no manager has expired.
* `Run.unexpired` — what a call of `decrypt` goes on with, in every run.
-/

namespace Ekizu.Dave.Decryptor

variable {H : Type}

/-- The managers expire in the order of the queue, the oldest one first. -/
structure Expiring (managers : List (CipherManager H)) : Prop where
  ordered : managers.Pairwise fun older newer => older.expiryTime ≤ newer.expiryTime
  le_max : ∀ m ∈ managers, m.expiryTime ≤ TimePoint.max

/-- The order is one of the expiry times. -/
theorem expiring_iff {managers : List (CipherManager H)} :
    Expiring managers ↔ (managers.map (·.expiryTime)).Pairwise (· ≤ ·) ∧
      ∀ time ∈ managers.map (·.expiryTime), time ≤ TimePoint.max := by
  rw [List.pairwise_map, List.forall_mem_map]
  exact ⟨fun h => ⟨h.1, h.2⟩, fun h => ⟨h.1, h.2⟩⟩

theorem Expiring.congr {managers managers' : List (CipherManager H)} (h : Expiring managers)
    (hsame : managers'.map (·.expiryTime) = managers.map (·.expiryTime)) :
    Expiring managers' := by
  rw [expiring_iff, hsame]
  exact expiring_iff.mp h

/-! ## Transitions -/

theorem Expiring.updateExpiry {managers : List (CipherManager H)} (h : Expiring managers)
    (expiry : TimePoint) : Expiring (managers.map (·.updateExpiry expiry)) := by
  constructor
  · rw [List.pairwise_map]
    apply h.ordered.imp
    intro older newer hle
    exact Int.le_min.mpr ⟨Int.le_trans (Int.min_le_left _ _) hle, Int.min_le_right _ _⟩
  · rw [List.forall_mem_map]
    intro m hm
    exact Int.le_trans (Int.min_le_left _ _) (h.le_max m hm)

/-- A new manager does not expire, and comes last. -/
theorem Expiring.append_new {managers : List (CipherManager H)} (h : Expiring managers)
    (ratchet : KeyRatchet H) (created : Instant) :
    Expiring (managers ++ [.new ratchet created]) := by
  constructor
  · rw [List.pairwise_append]
    refine ⟨h.ordered, List.pairwise_singleton _ _, ?_⟩
    intro older holder newer hnewer
    rw [List.mem_singleton.mp hnewer]
    exact h.le_max older holder
  · intro m hm
    rcases List.mem_append.mp hm with hm | hm
    · exact h.le_max m hm
    · rw [List.mem_singleton.mp hm]
      exact Int.le_refl _

theorem Expiring.transitionToKeyRatchet {d : Decryptor H} (h : Expiring d.managers)
    (ratchet : Option (KeyRatchet H)) (now created : Instant) (expiry : Int) :
    Expiring (d.transitionToKeyRatchet ratchet now created expiry).managers := by
  have hupdated := h.updateExpiry (now.time + expiry)
  cases ratchet with
  | none => exact hupdated
  | some ratchet => exact hupdated.append_new ratchet created

theorem managers_transitionToPassthroughMode (d : Decryptor H) (mode : Bool) (now : Instant)
    (expiry : Int) : (d.transitionToPassthroughMode mode now expiry).managers = d.managers := by
  unfold transitionToPassthroughMode
  split <;> rfl

/-! ## The clean-up -/

/-- **The clean-up stops in time.**  It drops the first `k` managers, each expired at
its own reading of the clock; no manager that is left has expired at the reading
after those. -/
theorem Expiring.cleanup {managers : List (CipherManager H)} (h : Expiring managers) :
    ∀ expired : Nat → Instant, ∃ k, cleanupExpiredManagers expired managers = managers.drop k ∧
      (∀ i m, managers[i]? = some m → i < k → m.isExpired (expired i) = true) ∧
      ∀ m ∈ managers.drop k, m.isExpired (expired k) = false := by
  obtain ⟨hordered, -⟩ := h
  induction managers with
  | nil => exact fun _ => ⟨0, rfl, by simp, by simp⟩
  | cons front managers ih =>
      intro expired
      obtain ⟨hfront, hrest⟩ := List.pairwise_cons.mp hordered
      cases hexpired : front.isExpired (expired 0) with
      | true =>
          obtain ⟨k, heq, hdropped, hkept⟩ := ih hrest (fun i => expired (i + 1))
          refine ⟨k + 1, ?_, ?_, hkept⟩
          · rw [cleanupExpiredManagers, if_pos hexpired, heq, List.drop_succ_cons]
          · intro i m hm hi
            cases i with
            | zero =>
                obtain rfl := Option.some.inj hm
                exact hexpired
            | succ i => exact hdropped i m hm (by omega)
      | false =>
          refine ⟨0, ?_, by simp, ?_⟩
          · rw [cleanupExpiredManagers, if_neg (by simp [hexpired]), List.drop_zero]
          · -- the front expires before all others
            simp only [CipherManager.isExpired, decide_eq_false_iff_not] at hexpired ⊢
            intro m hm
            rcases List.mem_cons.mp hm with rfl | hm
            · exact hexpired
            · exact fun hlt => hexpired (Int.lt_of_le_of_lt (hfront m hm) hlt)

theorem Expiring.drop {managers : List (CipherManager H)} (h : Expiring managers) (k : Nat) :
    Expiring (managers.drop k) :=
  ⟨h.ordered.sublist (List.drop_sublist k managers),
    fun m hm => h.le_max m (List.mem_of_mem_drop hm)⟩

/-! ## Calls of `decrypt` -/

variable [HashRatchet H] [LawfulHashRatchet H] {gcm : AesGcm}

/-- An attempt moves no expiry time. -/
theorem expiryTime_decryptImpl {manager : CipherManager H} {clock : ManagerClock}
    {p : InboundFrameProcessor} {frameOut : Bytes} {a : Attempt H}
    (h : decryptImpl gcm manager clock p frameOut = some a) :
    a.manager.expiryTime = manager.expiryTime := by
  have hget := manager.expiryTime_getCipher clock (manager.nonceGeneration p.truncatedNonce)
  rcases manager_decryptImpl h with hsame | hasked | hreported
  · rw [hsame]
  · rw [hasked]
    exact hget
  · rw [hreported]
    exact (CipherManager.reportCipherSuccess_keeps _ _ _ _).1.trans hget

/-- Neither does the loop over the managers. -/
theorem expiryTimes_decryptLoop {managers : List (CipherManager H)} :
    ∀ {attempt : Nat → ManagerClock} {p : InboundFrameProcessor} {frameOut : Bytes}
      {sweep : Sweep H}, decryptLoop gcm attempt managers p frameOut = some sweep →
      sweep.managers.map (·.expiryTime) = managers.map (·.expiryTime) := by
  induction managers with
  | nil =>
      intro attempt p frameOut sweep hsweep
      obtain rfl := Option.some.inj hsweep
      rfl
  | cons manager managers ih =>
      intro attempt p frameOut sweep hsweep
      obtain ⟨a, ha, hnext⟩ := decryptLoop_cons hsweep
      have hexpiry := expiryTime_decryptImpl ha
      cases hnext with
      | inl hstops =>
          obtain ⟨written, -, rfl⟩ := hstops
          simp only [List.map_cons, hexpiry]
      | inr hgoesOn =>
          obtain ⟨-, rest, hrest, rfl⟩ := hgoesOn
          simp only [List.map_cons, hexpiry, ih hrest]

/-- What a call that is not about silence does with the managers: it drops expired
ones, and where it tries to decrypt, it tries those that are left, the newest first.
None of them has expired at the reading that ended the clean-up. -/
structure TriesUnexpired (gcm : AesGcm) (d : Decryptor H) (clock : DecryptClock)
    (frameOut : Bytes) (call : Decryption H) : Prop where
  goes_on : ∃ k, let kept := d.managers.drop k
    (∀ i m, d.managers[i]? = some m → i < k → m.isExpired (clock.expired i) = true) ∧
    (∀ m ∈ kept, m.isExpired (clock.expired k) = false) ∧
    (call.decryptor.managers = kept ∨
      ∃ p sweep, decryptLoop gcm clock.attempt kept.reverse p frameOut = some sweep ∧
        call.decryptor.managers = sweep.managers.reverse)

variable {d : Decryptor H} {mediaType : MediaType} {clock : DecryptClock}
  {frame frameOut : Bytes} {call : Decryption H}

omit [LawfulHashRatchet H] in
/-- **One call.**  It looks at no manager, or it tries unexpired ones only. -/
theorem Expiring.tries (h : Expiring d.managers)
    (hcall : d.decrypt gcm mediaType clock frame frameOut = some call) :
    (mediaType = .audio ∧ frame = opusSilencePacket ∧
      call.decryptor.managers = d.managers) ∨ TriesUnexpired gcm d clock frameOut call := by
  obtain ⟨k, hkept, hdropped, hunexpired⟩ := h.cleanup clock.expired
  cases (decrypt_cases hcall).1 with
  | silence hmedia hframe hmanagers _ _ _ => exact .inl ⟨hmedia, hframe, hmanagers⟩
  | passthrough _ _ _ _ _ hmanagers _ _ _ =>
      exact .inr ⟨k, hdropped, hunexpired, .inl (hmanagers.trans hkept)⟩
  | refused _ _ _ _ hmanagers _ _ =>
      exact .inr ⟨k, hdropped, hunexpired, .inl (hmanagers.trans hkept)⟩
  | swept _ p sweep _ _ hsweep hmanagers _ _ _ =>
      rw [hkept] at hsweep
      exact .inr ⟨k, hdropped, hunexpired, .inr ⟨p, sweep, hsweep, hmanagers⟩⟩

/-- **A call keeps the order.** -/
theorem Expiring.decrypt (h : Expiring d.managers)
    (hcall : d.decrypt gcm mediaType clock frame frameOut = some call) :
    Expiring call.decryptor.managers := by
  rcases h.tries hcall with ⟨-, -, hmanagers⟩ | ⟨k, -, -, hmanagers | ⟨p, sweep, hsweep, hmanagers⟩⟩
  · rw [hmanagers]
    exact h
  · rw [hmanagers]
    exact h.drop k
  · apply (h.drop k).congr
    rw [hmanagers, List.map_reverse, expiryTimes_decryptLoop hsweep, List.map_reverse,
      List.reverse_reverse]

/-! ## Runs -/

variable {bounded : Prop} {histories : List History}

theorem Run.expiring (h : Run gcm bounded d histories) : Expiring d.managers := by
  induction h with
  | start => exact ⟨.nil, by simp⟩
  | transition ratchet now created expiry _ ih =>
      exact ih.transitionToKeyRatchet ratchet now created expiry
  | @passthrough d _ mode now expiry _ ih =>
      rw [managers_transitionToPassthroughMode]
      exact ih
  | decrypt _ _ hcall ih => exact ih.decrypt hcall

/-- **Expired ratchets are never used.**  In every state of every run the managers
expire in the order of the queue, and a call of `decrypt` that looks at managers tries
only such as have not expired when it has cleaned up. -/
theorem Run.unexpired (h : Run gcm bounded d histories) :
    d.managers.Pairwise (fun older newer => older.expiryTime ≤ newer.expiryTime) ∧
      ∀ {mediaType : MediaType} {clock : DecryptClock} {frame frameOut : Bytes}
        {call : Decryption H}, d.decrypt gcm mediaType clock frame frameOut = some call →
        (mediaType = .audio ∧ frame = opusSilencePacket ∧
          call.decryptor.managers = d.managers) ∨ TriesUnexpired gcm d clock frameOut call :=
  ⟨h.expiring.ordered, fun hcall => h.expiring.tries hcall⟩

/-- The reference decryptor after a second ratchet, which leaves the first one a second. -/
def expiringDecryptor : Decryptor Chain :=
  referenceDecryptor.transitionToKeyRatchet (some (.mls (HashRatchet.ofSecret referenceSecret)))
    referenceInstant referenceInstant (seconds 1)

theorem run_unexpired_transition :
    expiringDecryptor.managers.map (·.expiryTime) = [seconds 1, TimePoint.max] ∧
      ∃ call, expiringDecryptor.decrypt referenceGcm .audio referenceClock sentAudioFrame
          (List.replicate 16 0) = some call ∧
        TriesUnexpired referenceGcm expiringDecryptor referenceClock (List.replicate 16 0)
          call := by
  have hrun : Run referenceGcm False expiringDecryptor [[], []] :=
    (Run.start.transition _ _ _ _).transition _ _ _ _
  have hroom : sentAudioFrame.length ≤ (List.replicate 16 (0 : UInt8)).length := by decide
  obtain ⟨call, hcall⟩ :=
    decrypt_isSome referenceGcm expiringDecryptor .audio referenceClock hroom
  refine ⟨by decide, call, hcall, ?_⟩
  exact (hrun.unexpired.2 hcall).resolve_left fun hsilence => absurd hsilence.2.1 (by decide)

end Ekizu.Dave.Decryptor
