import Ekizu.Dave.Channel
import Ekizu.Dave.Expiry

/-!
# A change of ratchets

`transition_to_key_ratchet` keeps the managers of the ratchets before until they
expire, so that frames which are still on their way arrive.  Here both ends go on to new
ratchets at any time, each on its own; between them is the network of `Ekizu.Dave.Channel`.

## Main results

* `Decryptor.Receipt`, `Decryptor.receipt` — what a call makes of a frame that was sent.
* `Rekeying.Linked` and its preservation — the invariant of a run.
* `Rekeying.Reachable.never_twice` — no frame is taken twice, whatever ratchets follow.
* `Rekeying.Reachable.hitless` — which frames are taken, and for how long.
-/

namespace Ekizu.Dave

open Lib.Span
open Lib.Segments
open Lib.ReplayWindow

variable {H : Type} [HashRatchet H] [LawfulHashRatchet H]

/-! ## The managers of one call -/

/-- What a call makes of a manager; `heard` says which nonces were taken under a base. -/
structure CipherManager.Moves (heard : Bytes ⊕ Bytes → List UInt32) (m m' : CipherManager H) :
    Prop where
  base : m'.ratchet.base = m.ratchet.base
  expiry : m'.expiryTime = m.expiryTime
  follows : ∀ {ratchet : KeyRatchet H} {nonces : List UInt32}, m.Follows ratchet nonces →
    m'.Follows ratchet (heard m.ratchet.base ++ nonces)

namespace CipherManager.Moves

variable {heard : Bytes ⊕ Bytes → List UInt32} {m m' : CipherManager H}

/-- A manager that a call does not touch. -/
theorem refl (m : CipherManager H) (hnone : heard m.ratchet.base = []) : Moves heard m m := by
  refine ⟨rfl, rfl, ?_⟩
  intro ratchet nonces hfollows
  rw [hnone, List.nil_append]
  exact hfollows

/-- A manager that looks for a cipher. -/
theorem probe (herase : ErasesOne H) (hnone : heard m.ratchet.base = []) {clock : ManagerClock}
    (hyoung : m.maxGeneration clock.lifetime < 256) (nonce : UInt32) :
    Moves heard m (m.probe clock nonce).1 := by
  have hprobed := m.probed clock nonce
  refine ⟨hprobed.base, hprobed.expires, ?_⟩
  intro ratchet nonces hfollows
  rw [hnone, List.nil_append]
  exact hfollows.probe herase hyoung nonce

/-- A manager that takes a frame. -/
theorem report (herase : ErasesOne H) {nonce : UInt32} (hheard : heard m.ratchet.base = [nonce])
    {clock : ManagerClock} (hyoung : m.maxGeneration clock.lifetime < 256)
    (hfound : (m.probe clock nonce).2.isSome = true) (now : Instant) :
    Moves heard m
      ((m.probe clock nonce).1.reportCipherSuccess now (nonce.toNat / 2 ^ 24) nonce) := by
  have hprobed := m.probed clock nonce
  have hreported := (m.probe clock nonce).1.reported now nonce
  refine ⟨hreported.base.trans hprobed.base, hreported.expires.trans hprobed.expires, ?_⟩
  intro ratchet nonces hfollows
  rw [hheard]
  exact hfollows.report herase hyoung hfound now

/-- Lists of managers that move keep their bases and expiry times. -/
theorem forall_map_eq {ms ms' : List (CipherManager H)}
    (h : List.Forall₂ (Moves heard) ms ms') :
    ms'.map (fun m => (m.ratchet.base, m.expiryTime)) =
      ms.map fun m => (m.ratchet.base, m.expiryTime) := by
  induction h with
  | nil => rfl
  | cons hhead _ ih => rw [List.map_cons, List.map_cons, ih, hhead.base, hhead.expiry]

/-- Managers that follow what was taken under their bases go on doing so. -/
theorem forall_follows {ms ms' : List (CipherManager H)} {nonces : Bytes ⊕ Bytes → List UInt32}
    (h : List.Forall₂ (Moves heard) ms ms') :
    (∀ m ∈ ms, ∃ ratchet : KeyRatchet H, ratchet.Fresh ∧ m.Follows ratchet (nonces ratchet.base)) →
      ∀ m' ∈ ms', ∃ ratchet : KeyRatchet H, ratchet.Fresh ∧
        m'.Follows ratchet (heard ratchet.base ++ nonces ratchet.base) := by
  induction h with
  | nil => exact fun _ m' hm' => absurd hm' List.not_mem_nil
  | @cons m m' ms ms' hhead _ ih =>
      intro hfollows
      obtain ⟨hfollowsHead, hfollows⟩ := List.forall_mem_cons.mp hfollows
      obtain ⟨ratchet, hfresh, hfollowsHead⟩ := hfollowsHead
      refine List.forall_mem_cons.mpr ⟨⟨ratchet, hfresh, ?_⟩, ih hfollows⟩
      have hfollows' := hhead.follows hfollowsHead
      rw [hfollowsHead.base] at hfollows'
      exact hfollows'

end CipherManager.Moves

namespace Decryptor

open CipherManager

variable {gcm : AesGcm} {p : InboundFrameProcessor} {ms : List (CipherManager H)}

/-- A manager under which the frame does not open. -/
private theorem attempt_of_foreign (heard : Bytes ⊕ Bytes → List UInt32) (herase : ErasesOne H)
    {m : CipherManager H} (hnone : heard m.ratchet.base = []) (hwf : m.Wf)
    {clock : ManagerClock} (hyoung : m.maxGeneration clock.lifetime < 256)
    (hencrypted : p.encrypted = true) (hsplit : p.Split)
    (hclosed : opening H gcm m.ratchet.base p = none) {frameOut : Bytes} {a : Attempt H}
    (h : decryptImpl gcm m clock p frameOut = some a) :
    Moves heard m a.manager ∧ a.written = none ∧ a.processor = p ∧ a.output = frameOut := by
  obtain ⟨hmanager, -, hcase⟩ := decryptImpl_attempt hwf hencrypted hsplit h
  rw [hclosed, Option.isSome_none, Shadows.attempt_of_closed (.inr rfl)] at hmanager
  rw [hmanager]
  refine ⟨.probe herase hnone hyoung p.truncatedNonce, ?_⟩
  cases hcase with
  | inl hgivesUp => exact ⟨hgivesUp.2.2.2, hgivesUp.2.1, hgivesUp.2.2.1⟩
  | inr hopens =>
      obtain ⟨-, decrypted, written, hopen, -⟩ := hopens
      exact absurd (hclosed.symm.trans hopen) (by simp)

/-- The loop over managers under which the frame does not open. -/
theorem decryptLoop_foreign (herase : ErasesOne H) (hencrypted : p.encrypted = true)
    (hsplit : p.Split) {frameOut : Bytes} :
    ∀ {attempt : Nat → ManagerClock} {sweep : Sweep H}, (∀ m ∈ ms, m.Wf) →
      (∀ m ∈ ms, ∀ i, m.maxGeneration (attempt i).lifetime < 256) →
      (∀ m ∈ ms, opening H gcm m.ratchet.base p = none) →
      decryptLoop gcm attempt ms p frameOut = some sweep →
      sweep.written = none ∧ List.Forall₂ (Moves fun _ => []) ms sweep.managers := by
  induction ms with
  | nil =>
      intro attempt sweep _ _ _ hsweep
      obtain rfl := Option.some.inj hsweep
      exact ⟨rfl, .nil⟩
  | cons m ms ih =>
      intro attempt sweep hwf hyoung hclosed hsweep
      obtain ⟨hwfHead, hwf⟩ := List.forall_mem_cons.mp hwf
      obtain ⟨hyoungHead, hyoung⟩ := List.forall_mem_cons.mp hyoung
      obtain ⟨hclosedHead, hclosed⟩ := List.forall_mem_cons.mp hclosed
      obtain ⟨a, ha, -⟩ := decryptLoop_cons hsweep
      obtain ⟨hmoves, hwritten, hprocessor, houtput⟩ := attempt_of_foreign (fun _ => [])
        herase rfl hwfHead (hyoungHead 0) hencrypted hsplit hclosedHead ha
      obtain ⟨rest, hrest, rfl⟩ := decryptLoop_of_none ha hwritten hsweep
      rw [hprocessor, houtput] at hrest
      obtain ⟨hnone, hmanagers⟩ := ih hwf (fun m hm i => hyoung m hm (i + 1)) hclosed hrest
      exact ⟨hnone, .cons hmoves hmanagers⟩

/-- What was taken when `taken` is true. -/
def heardOf (base : Bytes ⊕ Bytes) (nonce : UInt32) (taken : Bool) (base' : Bytes ⊕ Bytes) :
    List UInt32 :=
  if taken = true ∧ base' = base then [nonce] else []

/-- The manager of a base looks at a frame, and finds its cipher. -/
def FindsCipher (base : Bytes ⊕ Bytes) (nonce : UInt32) (attempt : Nat → ManagerClock)
    (ms : List (CipherManager H)) : Prop :=
  ∃ (i : Nat) (m : CipherManager H), ms[i]? = some m ∧ m.ratchet.base = base ∧
    (m.probe (attempt i) nonce).2.isSome = true

theorem findsCipher_cons {base : Bytes ⊕ Bytes} {nonce : UInt32} {attempt : Nat → ManagerClock}
    {m : CipherManager H} :
    FindsCipher base nonce attempt (m :: ms) ↔
      (m.ratchet.base = base ∧ (m.probe (attempt 0) nonce).2.isSome = true) ∨
        FindsCipher base nonce (fun i => attempt (i + 1)) ms := by
  constructor
  · intro h
    obtain ⟨i, m', hm', hbase, hfound⟩ := h
    cases i with
    | zero =>
        obtain rfl := Option.some.inj hm'
        exact .inl ⟨hbase, hfound⟩
    | succ i => exact .inr ⟨i, m', hm', hbase, hfound⟩
  · intro h
    cases h with
    | inl hhead => exact ⟨0, m, rfl, hhead⟩
    | inr htail =>
        obtain ⟨i, m', hm', hboth⟩ := htail
        exact ⟨i + 1, m', hm', hboth⟩

section Sealed

variable {base : Bytes ⊕ Bytes} {nonce : UInt32} {tag unencrypted ciphertext plaintext : Bytes}
  {ranges : List Range} {frameOut : Bytes}

/-- The manager of the frame's base. -/
private theorem attempt_of_base (herase : ErasesOne H)
    (hp : Recovers p tag nonce ranges unencrypted ciphertext) (hsplit : p.Split)
    (hne : 0 < unencrypted.length + plaintext.length)
    (hroom : unencrypted.length + plaintext.length ≤ frameOut.length) {served : Nat → Prop}
    {m : CipherManager H} (hserved : Kept served m)
    (hopen : opening H gcm m.ratchet.base p = some plaintext) {clock : ManagerClock}
    (hyoung : m.maxGeneration clock.lifetime < 256) {a : Attempt H}
    (ha : decryptImpl gcm m clock p frameOut = some a) :
    ((m.probe clock nonce).2.isSome = true ∧
        Moves (heardOf m.ratchet.base nonce true) m a.manager ∧
        a.written = some (unencrypted.length + plaintext.length) ∧
        a.output.take (unencrypted.length + plaintext.length) =
          weave 0 ranges unencrypted plaintext) ∨
      ((m.probe clock nonce).2.isSome = false ∧
        Moves (heardOf m.ratchet.base nonce false) m a.manager ∧ a.written = none ∧
        a.processor = p ∧ a.output = frameOut) := by
  obtain ⟨hmanager, -, hcase⟩ := decryptImpl_attempt hserved.wf hp.encrypted hsplit ha
  rw [hopen, Option.isSome_some, hp.nonce_eq] at hmanager
  cases hfound : (m.probe clock nonce).2.isSome with
  | true =>
      obtain ⟨a', ha', hwritten, houtput⟩ :=
        decryptImpl_opens hserved.wf hp hsplit hopen hfound hroom hne
      obtain rfl := Option.some.inj (ha.symm.trans ha')
      rw [Shadows.attempt_of_found herase hserved hyoung hfound] at hmanager
      rw [hmanager]
      exact .inl ⟨rfl, .report herase (if_pos ⟨rfl, rfl⟩) hyoung hfound _, hwritten, houtput⟩
  | false =>
      have hnone := Option.isSome_eq_false_iff.mp hfound
      rw [Option.isNone_iff_eq_none] at hnone
      rw [Shadows.attempt_of_closed (.inl hnone)] at hmanager
      rw [hp.nonce_eq] at hcase
      cases hcase with
      | inr hopens =>
          rw [hnone] at hopens
          exact absurd hopens.1 (by decide)
      | inl hgivesUp =>
          rw [hmanager]
          exact .inr ⟨rfl, .probe herase (if_neg (by simp)) hyoung nonce, hgivesUp.2.2.2,
            hgivesUp.2.1, hgivesUp.2.2.1⟩

/-- What the loop over the managers makes of a frame that is sealed under a base. -/
structure Swept (base : Bytes ⊕ Bytes) (nonce : UInt32) (media : Bytes)
    (attempt : Nat → ManagerClock) (ms : List (CipherManager H)) (sweep : Sweep H) : Prop where
  taken : sweep.written.isSome = true ↔ FindsCipher base nonce attempt ms
  written : ∀ n, sweep.written = some n →
    n = media.length ∧ sweep.output.take media.length = media
  managers : List.Forall₂ (Moves (heardOf base nonce sweep.written.isSome)) ms sweep.managers

/-- **The loop over the managers**, newest first, of which at most one has the base. -/
theorem swept_decryptLoop (herase : ErasesOne H)
    (hp : Recovers p tag nonce ranges unencrypted ciphertext) (hsplit : p.Split)
    (hopen : opening H gcm base p = some plaintext)
    (hne : 0 < unencrypted.length + plaintext.length)
    (hroom : unencrypted.length + plaintext.length ≤ frameOut.length)
    {media : Bytes} (hmedia : media = weave 0 ranges unencrypted plaintext)
    (hlen : media.length = unencrypted.length + plaintext.length) :
    ∀ {attempt : Nat → ManagerClock} {sweep : Sweep H}, (∀ m ∈ ms, ∃ served, Kept served m) →
      (∀ m ∈ ms, ∀ i, m.maxGeneration (attempt i).lifetime < 256) →
      (∀ m ∈ ms, m.ratchet.base ≠ base → opening H gcm m.ratchet.base p = none) →
      (ms.map fun m => m.ratchet.base).Nodup →
      decryptLoop gcm attempt ms p frameOut = some sweep →
      Swept base nonce media attempt ms sweep := by
  induction ms with
  | nil =>
      intro attempt sweep _ _ _ _ hsweep
      obtain rfl := Option.some.inj hsweep
      refine ⟨?_, by simp, .nil⟩
      simp [FindsCipher]
  | cons m ms ih =>
      intro attempt sweep hkept hyoung hclosed hnodup hsweep
      obtain ⟨hkeptHead, hkept⟩ := List.forall_mem_cons.mp hkept
      obtain ⟨hyoungHead, hyoung⟩ := List.forall_mem_cons.mp hyoung
      obtain ⟨hclosedHead, hclosed⟩ := List.forall_mem_cons.mp hclosed
      rw [List.map_cons, List.nodup_cons] at hnodup
      obtain ⟨hother, hnodup⟩ := hnodup
      obtain ⟨served, hserved⟩ := hkeptHead
      obtain ⟨a, ha, -⟩ := decryptLoop_cons hsweep
      have hnext := fun {rest} => @ih (fun i => attempt (i + 1)) rest hkept
        (fun m hm i => hyoung m hm (i + 1)) hclosed hnodup
      by_cases hbase : m.ratchet.base = base
      · have hothers : ∀ m' ∈ ms, m'.ratchet.base ≠ base := by
          intro m' hm' hsame
          exact hother (List.mem_map.mpr ⟨m', hm', hsame.trans hbase.symm⟩)
        have hcase := attempt_of_base herase hp hsplit hne hroom hserved (hbase ▸ hopen)
          (hyoungHead 0) ha
        rw [hbase] at hcase
        cases hcase with
        | inl htakes =>
            obtain ⟨hfound, hmoves, hwritten, houtput⟩ := htakes
            rw [decryptLoop_of_some ha hwritten hsweep]
            refine ⟨?_, ?_, .cons hmoves ?_⟩
            · rw [findsCipher_cons]
              exact iff_of_true rfl (.inl ⟨hbase, hfound⟩)
            · intro n hn
              rw [hlen]
              exact ⟨(Option.some.inj hn).symm, houtput.trans hmedia.symm⟩
            · rw [List.forall₂_same]
              intro m' hm'
              exact .refl m' (if_neg fun hboth => hothers m' hm' hboth.2)
        | inr hmisses =>
            obtain ⟨hfound, hmoves, hwritten, hprocessor, houtput⟩ := hmisses
            obtain ⟨rest, hrest, rfl⟩ := decryptLoop_of_none ha hwritten hsweep
            rw [hprocessor, houtput] at hrest
            have hswept := hnext hrest
            -- there is no other manager with the base
            have hnothing : rest.written.isSome = false := by
              rw [Bool.eq_false_iff]
              intro htaken
              obtain ⟨i, m', hm', hsame, -⟩ := hswept.taken.mp htaken
              exact hothers m' (List.mem_of_getElem? hm') hsame
            refine ⟨?_, hswept.written, .cons ?_ hswept.managers⟩
            · rw [findsCipher_cons, hfound]
              simp [hswept.taken]
            · show Moves (heardOf base nonce rest.written.isSome) m a.manager
              rw [hnothing]
              exact hmoves
      · -- the manager of another base only looks
        have hhead : ¬ (m.ratchet.base = base ∧ (m.probe (attempt 0) nonce).2.isSome = true) :=
          fun hboth => hbase hboth.1
        have hnone : ∀ taken, heardOf base nonce taken m.ratchet.base = [] :=
          fun taken => if_neg fun hboth => hbase hboth.2
        have hforeign := fun taken => attempt_of_foreign _ herase (hnone taken) hserved.wf
          (hyoungHead 0) hp.encrypted hsplit (hclosedHead hbase) ha
        obtain ⟨-, hwritten, hprocessor, houtput⟩ := hforeign false
        obtain ⟨rest, hrest, rfl⟩ := decryptLoop_of_none ha hwritten hsweep
        rw [hprocessor, houtput] at hrest
        have hswept := hnext hrest
        refine ⟨?_, hswept.written, .cons (hforeign rest.written.isSome).1 hswept.managers⟩
        rw [findsCipher_cons, or_iff_right hhead]
        exact hswept.taken

end Sealed

/-! ## One call -/

/-- The manager of a base is the one that a call tries at some place. -/
def TriesAt (d : Decryptor H) (clock : DecryptClock) (base : Bytes ⊕ Bytes) (i : Nat)
    (manager : CipherManager H) : Prop :=
  (cleanupExpiredManagers clock.expired d.managers).reverse[i]? = some manager ∧
    manager.ratchet.base = base

/-- What a call makes of a frame that is sealed under a base. -/
structure Receipt (d : Decryptor H) (clock : DecryptClock) (base : Bytes ⊕ Bytes)
    (packet : Packet) (call : Decryption H) : Prop where
  taken : call.result.isSome = true ↔ ∃ i manager, d.TriesAt clock base i manager ∧
    (manager.probe (clock.attempt i) packet.nonce).2.isSome = true
  written : ∀ n, call.result = some n →
    n = packet.media.length ∧ call.output.take packet.media.length = packet.media
  managers : List.Forall₂ (Moves (heardOf base packet.nonce call.result.isSome))
    (cleanupExpiredManagers clock.expired d.managers) call.decryptor.managers

variable {d : Decryptor H} {mediaType : MediaType} {clock : DecryptClock} {frame frameOut : Bytes}
  {call : Decryption H}

omit [HashRatchet H] [LawfulHashRatchet H] in
theorem mem_of_mem_cleanup {m : CipherManager H}
    (hm : m ∈ cleanupExpiredManagers clock.expired d.managers) : m ∈ d.managers := by
  obtain ⟨k, -, hdrop⟩ := cleanupExpiredManagers_eq_drop d.managers clock.expired
  rw [hdrop] at hm
  exact List.mem_of_mem_drop hm

theorem TriesAt.mem {base : Bytes ⊕ Bytes} {i : Nat} {manager : CipherManager H}
    (h : d.TriesAt clock base i manager) : manager ∈ d.managers :=
  mem_of_mem_cleanup (List.mem_reverse.mp (List.mem_of_getElem? h.1))

/-- **A frame that was sent.**  It opens under one base; the managers have different ones. -/
theorem receipt (herase : ErasesOne H) {packet : Packet} {base : Bytes ⊕ Bytes}
    (hsealed : packet.Sealed H gcm base)
    (hforeign : ∀ m ∈ d.managers, m.ratchet.base ≠ base →
      Foreign H gcm m.ratchet.base packet.bytes)
    (hkept : ∀ m ∈ d.managers, ∃ served, Kept served m)
    (hyoung : ∀ m ∈ d.managers, m.Young clock)
    (hnodup : (d.managers.map fun m => m.ratchet.base).Nodup)
    (hroom : packet.bytes.length ≤ frameOut.length)
    (hcall : d.decrypt gcm mediaType clock packet.bytes frameOut = some call) :
    Receipt d clock base packet call := by
  obtain ⟨ranges, unencrypted, plaintext, hmedia, hlen, hshort, hparts⟩ := hsealed.parts
  have hparsed : ∀ {p₀ p : InboundFrameProcessor}, p₀.parseFrame packet.bytes = some p →
      ∃ tag ciphertext, Recovers p tag packet.nonce ranges unencrypted ciphertext ∧
        opening H gcm base p = some plaintext := by
    intro p₀ p hparse
    obtain ⟨parsed, tag, ciphertext, hparse', hrecovers, hopen⟩ := hparts p₀
    obtain rfl := Option.some.inj (hparse.symm.trans hparse')
    exact ⟨tag, ciphertext, hrecovers, hopen⟩
  cases (decrypt_cases hcall).1 with
  | silence _ hsilence _ _ _ _ => exact absurd hsilence hsealed.ne_silence
  | passthrough p₀ p hparse hplain _ _ _ _ _ =>
      obtain ⟨tag, ciphertext, hrecovers, -⟩ := hparsed hparse
      rw [hrecovers.encrypted] at hplain
      exact absurd hplain (by decide)
  | refused p₀ p hparse hplain _ _ _ =>
      obtain ⟨tag, ciphertext, hrecovers, -⟩ := hparsed hparse
      rw [hrecovers.encrypted] at hplain
      exact absurd hplain (by decide)
  | swept p₀ p sweep hparse hencrypted hsweep hmanagers _ houtput hresult =>
      obtain ⟨tag, ciphertext, hrecovers, hopen⟩ := hparsed hparse
      have hmem : ∀ m ∈ (cleanupExpiredManagers clock.expired d.managers).reverse,
          m ∈ d.managers := fun m hm => mem_of_mem_cleanup (List.mem_reverse.mp hm)
      have hbases : ((cleanupExpiredManagers clock.expired d.managers).reverse.map
          fun m => m.ratchet.base).Nodup := by
        obtain ⟨k, -, hdrop⟩ := cleanupExpiredManagers_eq_drop d.managers clock.expired
        rw [hdrop, List.map_reverse, List.nodup_reverse, List.map_drop]
        exact hnodup.sublist (List.drop_sublist k _)
      have hswept := swept_decryptLoop herase hrecovers
        (InboundFrameProcessor.split_of_parseFrame hparse hencrypted) hopen
        (hlen ▸ hsealed.nonempty) (Nat.le_trans (hlen ▸ hshort) hroom) hmedia hlen
        (fun m hm => hkept m (hmem m hm)) (fun m hm => hyoung m (hmem m hm))
        (fun m hm hne => hforeign m (hmem m hm) hne p₀ p hparse hencrypted) hbases hsweep
      refine ⟨?_, ?_, ?_⟩
      · rw [hresult, hswept.taken]
        simp only [FindsCipher, TriesAt, and_assoc]
      · rw [hresult, houtput]
        exact hswept.written
      · rw [hresult, hmanagers, ← List.forall₂_reverse_iff, List.reverse_reverse]
        exact hswept.managers

/-- No processor takes a frame for an encrypted one. -/
def Plain (frame : Bytes) : Prop :=
  ∀ p₀ p : InboundFrameProcessor, p₀.parseFrame frame = some p → p.encrypted = false

/-- A frame gets through as it is: a plain one, the silence packet or before the passthrough
deadline. -/
structure PassesThrough (deadline : TimePoint) (mediaType : MediaType) (clock : DecryptClock)
    (frame : Bytes) (call : Decryption H) : Prop where
  plain : Plain frame
  result : call.result = some frame.length
  output : call.output.take frame.length = frame
  allowed : (mediaType = .audio ∧ frame = opusSilencePacket) ∨ clock.now.time < deadline

/-- What is parsed says whether a frame is plain. -/
theorem plain_of_parseFrame {p₀ p : InboundFrameProcessor} (hparse : p₀.parseFrame frame = some p)
    (hplain : p.encrypted = false) : Plain frame := by
  intro p₁ p' hparse'
  rw [Bool.eq_false_iff]
  intro hencrypted
  have hsame := InboundFrameProcessor.parseFrame_encrypted p₀ hparse' hencrypted
  rw [Option.some.inj (hparse.symm.trans hsame), hencrypted] at hplain
  exact absurd hplain (by decide)

/-- **A frame that opens under no manager** gets through only as it is. -/
theorem decrypt_foreign (herase : ErasesOne H)
    (hforeign : ∀ m ∈ d.managers, Foreign H gcm m.ratchet.base frame)
    (hkept : ∀ m ∈ d.managers, ∃ served, Kept served m)
    (hyoung : ∀ m ∈ d.managers, m.Young clock)
    (hcall : d.decrypt gcm mediaType clock frame frameOut = some call) :
    (call.decryptor.managers = d.managers ∨
        List.Forall₂ (Moves fun _ => []) (cleanupExpiredManagers clock.expired d.managers)
          call.decryptor.managers) ∧
      (call.result.isSome = true →
        PassesThrough d.allowPassthroughUntil mediaType clock frame call) := by
  have hsame : List.Forall₂ (Moves fun _ => [])
      (cleanupExpiredManagers clock.expired d.managers)
      (cleanupExpiredManagers clock.expired d.managers) := by
    rw [List.forall₂_same]
    exact fun m _ => .refl m rfl
  cases (decrypt_cases hcall).1 with
  | silence hmedia hsilence hmanagers _ hwrite hresult =>
      refine ⟨.inl hmanagers, fun _ => ⟨?_, hresult, ?_, .inl ⟨hmedia, hsilence⟩⟩⟩
      · intro p₀ p hparse
        exact InboundFrameProcessor.parseFrame_silence (hsilence ▸ hparse)
      · simpa using take_write_append hwrite
  | passthrough p₀ p hparse hplain hallowed hmanagers _ hwrite hresult =>
      rw [hmanagers]
      refine ⟨.inr hsame, fun _ => ⟨plain_of_parseFrame hparse hplain, hresult, ?_, .inr hallowed⟩⟩
      simpa using take_write_append hwrite
  | refused p₀ p _ _ hmanagers _ hresult =>
      rw [hmanagers, hresult]
      exact ⟨.inr hsame, fun hsome => absurd hsome (by decide)⟩
  | swept p₀ p sweep hparse hencrypted hsweep hmanagers _ _ hresult =>
      have hmem : ∀ m ∈ (cleanupExpiredManagers clock.expired d.managers).reverse,
          m ∈ d.managers := fun m hm => mem_of_mem_cleanup (List.mem_reverse.mp hm)
      have hwf : ∀ m ∈ d.managers, m.Wf := by
        intro m hm
        obtain ⟨served, hserved⟩ := hkept m hm
        exact hserved.wf
      obtain ⟨hnone, hmoves⟩ := decryptLoop_foreign herase hencrypted
        (InboundFrameProcessor.split_of_parseFrame hparse hencrypted)
        (fun m hm => hwf m (hmem m hm)) (fun m hm => hyoung m (hmem m hm))
        (fun m hm => hforeign m (hmem m hm) p₀ p hparse hencrypted) hsweep
      rw [hresult, hnone]
      refine ⟨.inr ?_, fun hsome => absurd hsome (by decide)⟩
      rw [hmanagers, ← List.forall₂_reverse_iff, List.reverse_reverse]
      exact hmoves

omit [HashRatchet H] [LawfulHashRatchet H] in
/-- A manager that has not expired is not cleaned up. -/
theorem mem_cleanup_of_unexpired {m : CipherManager H} {managers : List (CipherManager H)} :
    ∀ {expired : Nat → Instant}, m ∈ managers → (∀ i, (expired i).time ≤ m.expiryTime) →
      m ∈ cleanupExpiredManagers expired managers := by
  induction managers with
  | nil => exact fun hm _ => hm
  | cons front managers ih =>
      intro expired hm htime
      rw [cleanupExpiredManagers]
      split
      · next hexpired =>
          cases List.mem_cons.mp hm with
          | inl hfront =>
              rw [hfront] at htime
              exact absurd (of_decide_eq_true hexpired) (Int.not_lt.mpr (htime 0))
          | inr hm => exact ih hm fun i => htime (i + 1)
      · exact hm

end Decryptor

/-! ## Runs -/

/-- A frame that was sent, and the base of the ratchet under which it was sealed. -/
structure Shipment where
  base : Bytes ⊕ Bytes
  packet : Packet

/-- Both ends; the bases that the receiver was given, with the points in time from which
on they may be gone, and how far its clock has come; the frames that were sent, and those
that were taken with what was written for them, the last one first. -/
structure Rekeying (H : Type) where
  sender : Encryptor H := {}
  receiver : Decryptor H := {}
  given : List ((Bytes ⊕ Bytes) × TimePoint) := []
  latest : TimePoint := TimePoint.min
  sent : List Shipment := []
  taken : List (Shipment × Bytes) := []

namespace Rekeying

/-- What a delivery adds. -/
def take (taken : List (Shipment × Bytes)) (shipment : Shipment) (call : Decryption H) :
    List (Shipment × Bytes) :=
  call.result.toList.map (fun n => (shipment, call.output.take n)) ++ taken

/-- The nonces that were taken under a base. -/
def nonces (c : Rekeying H) (base : Bytes ⊕ Bytes) : List UInt32 :=
  (c.taken.filter fun entry => entry.1.base = base).map fun entry => entry.1.packet.nonce

/-- The bases that a transition leaves to the receiver. -/
def regive (given : List ((Bytes ⊕ Bytes) × TimePoint)) (ratchet : Option (KeyRatchet H))
    (deadline : TimePoint) : List ((Bytes ⊕ Bytes) × TimePoint) :=
  given.map (fun entry => (entry.1, min entry.2 deadline)) ++
    ratchet.toList.map fun ratchet => (ratchet.base, TimePoint.max)

/-- The frame opens under no other base that the receiver was given. -/
def Apart (gcm : AesGcm) (c : Rekeying H) (shipment : Shipment) : Prop :=
  ∀ entry ∈ c.given, entry.1 ≠ shipment.base → Foreign H gcm entry.1 shipment.packet.bytes

/-- The runs of a sender and a receiver that go on to new ratchets and to passthrough at
any time.  The receiver is given no ratchet twice.  A frame that was sealed with an uncut
trailer goes on its way, or is lost; what is on its way arrives any number of times, in any
order, and other frames do that open under no ratchet of the receiver. -/
inductive Reachable (gcm : AesGcm) : Rekeying H → Prop
  | start : Reachable gcm {}
  | rekeySender {c : Rekeying H} {ratchet : Option (KeyRatchet H)} : Reachable gcm c →
      (∀ r, ratchet = some r → r.Fresh) →
      Reachable gcm { c with sender := c.sender.setKeyRatchet ratchet }
  | switchSender {c : Rekeying H} (mode : Bool) : Reachable gcm c →
      Reachable gcm { c with sender := c.sender.setPassthroughMode mode }
  | assign {c : Rekeying H} (ssrc : UInt32) (codec : Codec) : Reachable gcm c →
      Reachable gcm { c with sender := c.sender.assignSsrcToCodec ssrc codec }
  | rekeyReceiver {c : Rekeying H} {ratchet : Option (KeyRatchet H)} (now created : Instant)
      (expiry : Int) : Reachable gcm c → (∀ r, ratchet = some r → r.Fresh) →
      (∀ r, ratchet = some r → r.base ∉ c.given.map Prod.fst) →
      Reachable gcm
        { c with
          receiver := c.receiver.transitionToKeyRatchet ratchet now created expiry
          given := regive c.given ratchet (now.time + expiry) }
  | switchReceiver {c : Rekeying H} (mode : Bool) (now : Instant) (expiry : Int) :
      Reachable gcm c →
      Reachable gcm
        { c with receiver := c.receiver.transitionToPassthroughMode mode now expiry }
  | lose {c : Rekeying H} {mediaType : MediaType} {ssrc : UInt32} {frame out : Bytes}
      {sender : Encryptor H} {result : Except DaveError (Nat × Bytes)} :
      Reachable gcm c →
      c.sender.encrypt gcm mediaType ssrc frame out = some (sender, result) →
      Reachable gcm { c with sender }
  | send {c : Rekeying H} {mediaType : MediaType} {ssrc : UInt32} {frame out out' : Bytes}
      {sender : Encryptor H} {n : Nat} {success : Bool} {pieces : List Piece}
      {p : OutboundFrameProcessor} {ratchet : KeyRatchet H} :
      Reachable gcm c → c.sender.passthroughMode = false → c.sender.ratchet = some ratchet →
      OutboundFrameProcessor.splitByCodec frame (c.sender.codecForSsrc ssrc) =
        some (success, pieces) →
      c.sender.frameProcessor.processFrame frame (c.sender.codecForSsrc ssrc) = some p →
      c.sender.encrypt gcm mediaType ssrc frame out = some (sender, .ok (n, out')) →
      (p.unencryptedRanges = [] ∨ out.length < 2 ^ 64) →
      Encryptor.TrailerFits p (c.sender.truncatedNonce + 1) out.length →
      Reachable gcm
        { c with
          sender
          sent := ⟨ratchet.base, out'.take n, sender.truncatedNonce,
            if success then pieces.flatMap Piece.bytes else frame⟩ :: c.sent }
  | deliver {c : Rekeying H} {mediaType : MediaType} {clock : DecryptClock}
      {shipment : Shipment} {frameOut : Bytes} {call : Decryption H} {latest : TimePoint} :
      Reachable gcm c → shipment ∈ c.sent → c.Apart gcm shipment →
      (∀ manager ∈ c.receiver.managers, manager.Young clock) →
      c.latest ≤ latest → (∀ i, (clock.expired i).time ≤ latest) →
      shipment.packet.bytes.length ≤ frameOut.length →
      c.receiver.decrypt gcm mediaType clock shipment.packet.bytes frameOut = some call →
      Reachable gcm
        { c with
          receiver := call.decryptor
          latest
          taken := take c.taken shipment call }
  | intrude {c : Rekeying H} {mediaType : MediaType} {clock : DecryptClock}
      {frame frameOut : Bytes} {call : Decryption H} {latest : TimePoint} :
      Reachable gcm c → (∀ entry ∈ c.given, Foreign H gcm entry.1 frame) →
      (∀ manager ∈ c.receiver.managers, manager.Young clock) →
      c.latest ≤ latest → (∀ i, (clock.expired i).time ≤ latest) →
      c.receiver.decrypt gcm mediaType clock frame frameOut = some call →
      Reachable gcm { c with receiver := call.decryptor, latest }

/-- The invariant of a run. -/
structure Linked (gcm : AesGcm) (c : Rekeying H) : Prop where
  wf : c.sender.Wf
  keyed : c.sender.Keyed
  sent : ∀ shipment ∈ c.sent, shipment.packet.Sealed H gcm shipment.base
  /-- Each manager has taken what was taken under its base. -/
  managers : ∀ m ∈ c.receiver.managers, ∃ ratchet, ratchet.Fresh ∧
    m.Follows ratchet (c.nonces ratchet.base)
  distinct : (c.given.map Prod.fst).Nodup
  /-- The managers are a part of what the receiver was given, with its expiry times. -/
  known : (c.receiver.managers.map fun m => (m.ratchet.base, m.expiryTime)).Sublist c.given
  lasting : ∀ entry ∈ c.given, c.latest ≤ entry.2 →
    entry ∈ c.receiver.managers.map fun m => (m.ratchet.base, m.expiryTime)
  taken : ∀ entry ∈ c.taken, entry.1 ∈ c.sent ∧ entry.2 = entry.1.packet.media
  origin : ∀ entry ∈ c.taken, entry.1.base ∈ c.given.map Prod.fst
  once : (c.taken.map fun entry => (entry.1.base, entry.1.packet.nonce)).Nodup

variable {gcm : AesGcm} {c : Rekeying H}

omit [HashRatchet H] [LawfulHashRatchet H] in
/-- The nonces after a delivery. -/
theorem nonces_take (c : Rekeying H) (d : Decryptor H) (latest : TimePoint) (shipment : Shipment)
    (call : Decryption H) (base : Bytes ⊕ Bytes) :
    ({ c with receiver := d, latest, taken := take c.taken shipment call } : Rekeying H).nonces
        base =
      Decryptor.heardOf shipment.base shipment.packet.nonce call.result.isSome base ++
        c.nonces base := by
  simp only [nonces, take, Decryptor.heardOf]
  cases call.result with
  | none => simp
  | some n =>
      by_cases hbase : base = shipment.base
      · simp [hbase]
      · have hne : ¬ shipment.base = base := fun heq => hbase heq.symm
        simp [hbase, hne]

namespace Linked

/-- Every manager keeps its generations. -/
theorem kept (h : Linked gcm c) :
    ∀ m ∈ c.receiver.managers, ∃ served, Kept served m := by
  intro m hm
  obtain ⟨ratchet, -, hfollows⟩ := h.managers m hm
  exact ⟨_, hfollows.kept⟩

/-- The managers have different bases. -/
theorem nodup (h : Linked gcm c) :
    (c.receiver.managers.map fun m => m.ratchet.base).Nodup := by
  have hbases := h.distinct.sublist (h.known.map Prod.fst)
  rwa [List.map_map] at hbases

/-- The bases of the managers were given. -/
theorem given (h : Linked gcm c) {m : CipherManager H} (hm : m ∈ c.receiver.managers) :
    (m.ratchet.base, m.expiryTime) ∈ c.given :=
  h.known.subset (List.mem_map.mpr ⟨m, hm, rfl⟩)

/-- What a call of the receiver keeps, whatever it has taken. -/
private theorem call (h : Linked gcm c) {clock : DecryptClock} {latest : TimePoint}
    (hlatest : c.latest ≤ latest) (hclock : ∀ i, (clock.expired i).time ≤ latest)
    (heard : Bytes ⊕ Bytes → List UInt32) {d : Decryptor H}
    {ms : List (CipherManager H)}
    (hms : ms = c.receiver.managers ∨
      ms = Decryptor.cleanupExpiredManagers clock.expired c.receiver.managers)
    (hmoves : List.Forall₂ (CipherManager.Moves heard) ms d.managers)
    {taken : List (Shipment × Bytes)}
    (hnonces : ∀ base, ({ c with receiver := d, latest, taken } : Rekeying H).nonces base =
      heard base ++ c.nonces base)
    (htaken : ∀ entry ∈ taken, entry.1 ∈ c.sent ∧ entry.2 = entry.1.packet.media)
    (horigin : ∀ entry ∈ taken, entry.1.base ∈ c.given.map Prod.fst)
    (honce : (taken.map fun entry => (entry.1.base, entry.1.packet.nonce)).Nodup) :
    Linked gcm { c with receiver := d, latest, taken } := by
  have hsublist : ms.Sublist c.receiver.managers := by
    cases hms with
    | inl hall => exact hall ▸ List.Sublist.refl _
    | inr hcleaned =>
        obtain ⟨k, -, hdrop⟩ :=
          Decryptor.cleanupExpiredManagers_eq_drop c.receiver.managers clock.expired
        rw [hcleaned, hdrop]
        exact List.drop_sublist k _
  have hlasting : ∀ m ∈ c.receiver.managers, latest ≤ m.expiryTime → m ∈ ms := by
    intro m hm htime
    cases hms with
    | inl hall => exact hall ▸ hm
    | inr hcleaned =>
        rw [hcleaned]
        exact Decryptor.mem_cleanup_of_unexpired hm fun i => Int.le_trans (hclock i) htime
  have hsame := CipherManager.Moves.forall_map_eq hmoves
  refine ⟨h.wf, h.keyed, h.sent, ?_, h.distinct, ?_, ?_, htaken, horigin, honce⟩
  · intro m' hm'
    obtain ⟨ratchet, hfresh, hfollows⟩ := CipherManager.Moves.forall_follows hmoves
      (fun m hm => h.managers m (hsublist.subset hm)) m' hm'
    exact ⟨ratchet, hfresh, hnonces ratchet.base ▸ hfollows⟩
  · show (d.managers.map _).Sublist c.given
    rw [hsame]
    exact (hsublist.map _).trans h.known
  · intro entry hentry htime
    show entry ∈ d.managers.map _
    rw [hsame]
    obtain ⟨m, hm, hentry⟩ :=
      List.mem_map.mp (h.lasting entry hentry (Int.le_trans hlatest htime))
    rw [← hentry] at htime ⊢
    exact List.mem_map.mpr ⟨m, hlasting m hm htime, rfl⟩

/-- What a delivery does. -/
theorem receipt (herase : ErasesOne H) (h : Linked gcm c) {mediaType : MediaType}
    {clock : DecryptClock} {shipment : Shipment} {frameOut : Bytes} {call : Decryption H}
    (hsent : shipment ∈ c.sent) (hapart : c.Apart gcm shipment)
    (hyoung : ∀ manager ∈ c.receiver.managers, manager.Young clock)
    (hroom : shipment.packet.bytes.length ≤ frameOut.length)
    (hcall : c.receiver.decrypt gcm mediaType clock shipment.packet.bytes frameOut = some call) :
    c.receiver.Receipt clock shipment.base shipment.packet call :=
  Decryptor.receipt herase (h.sent shipment hsent)
    (fun m hm hne => hapart (m.ratchet.base, m.expiryTime) (h.given hm) hne) h.kept hyoung
    h.nodup hroom hcall

/-- What is taken was not taken before. -/
theorem fresh (herase : ErasesOne H) (h : Linked gcm c) {clock : DecryptClock}
    (hyoung : ∀ manager ∈ c.receiver.managers, manager.Young clock) {base : Bytes ⊕ Bytes}
    {i : Nat} {manager : CipherManager H} (htried : c.receiver.TriesAt clock base i manager)
    {nonce : UInt32} (hfound : (manager.probe (clock.attempt i) nonce).2.isSome = true) :
    nonce ∉ c.nonces base := by
  obtain ⟨ratchet, -, hfollows⟩ := h.managers manager htried.mem
  rw [← htried.2, hfollows.base]
  intro htaken
  have hadmits :=
    ((hfollows.kept.probe_isSome_iff herase (hyoung manager htried.mem i)).mp hfound).2.1
  rw [hfollows.window.admits_iff] at hadmits
  exact hadmits.new (List.mem_map_of_mem htaken)

/-- A delivery. -/
theorem deliver (herase : ErasesOne H) (h : Linked gcm c) {mediaType : MediaType}
    {clock : DecryptClock} {shipment : Shipment} {frameOut : Bytes} {call : Decryption H}
    {latest : TimePoint} (hsent : shipment ∈ c.sent) (hapart : c.Apart gcm shipment)
    (hyoung : ∀ manager ∈ c.receiver.managers, manager.Young clock)
    (hlatest : c.latest ≤ latest) (hclock : ∀ i, (clock.expired i).time ≤ latest)
    (hroom : shipment.packet.bytes.length ≤ frameOut.length)
    (hcall : c.receiver.decrypt gcm mediaType clock shipment.packet.bytes frameOut = some call) :
    Linked gcm
      { c with
        receiver := call.decryptor
        latest
        taken := take c.taken shipment call } := by
  have hreceipt := h.receipt herase hsent hapart hyoung hroom hcall
  refine h.call hlatest hclock _ (.inr rfl) hreceipt.managers (nonces_take c _ latest shipment call)
    ?_ ?_ ?_
  · intro entry hentry
    cases List.mem_append.mp hentry with
    | inl hnew =>
        obtain ⟨n, hn, rfl⟩ := List.mem_map.mp hnew
        obtain ⟨hlen, houtput⟩ := hreceipt.written n (Option.mem_toList.mp hn)
        refine ⟨hsent, ?_⟩
        show call.output.take n = shipment.packet.media
        rw [hlen]
        exact houtput
    | inr hold => exact h.taken entry hold
  · intro entry hentry
    cases List.mem_append.mp hentry with
    | inl hnew =>
        obtain ⟨n, hn, rfl⟩ := List.mem_map.mp hnew
        have hsome : call.result.isSome = true := by rw [Option.mem_toList.mp hn]; rfl
        obtain ⟨i, manager, htried, -⟩ := hreceipt.taken.mp hsome
        show shipment.base ∈ c.given.map Prod.fst
        rw [← htried.2]
        exact List.mem_map.mpr ⟨_, h.given htried.mem, rfl⟩
    | inr hold => exact h.origin entry hold
  · cases hresult : call.result with
    | none =>
        simp only [take, hresult, Option.toList_none, List.map_nil, List.nil_append]
        exact h.once
    | some n =>
        obtain ⟨i, manager, htried, hfound⟩ :=
          hreceipt.taken.mp (by rw [hresult, Option.isSome_some])
        have hnew := h.fresh herase hyoung htried hfound
        simp only [take, hresult, Option.toList_some, List.map_cons, List.map_nil,
          List.singleton_append, List.nodup_cons]
        refine ⟨?_, h.once⟩
        -- what was taken with this base and nonce is among the nonces of the base
        intro hmem
        obtain ⟨entry, hentry, hsame⟩ := List.mem_map.mp hmem
        obtain ⟨hbase, hnonce⟩ := Prod.mk.inj hsame
        apply hnew
        exact List.mem_map.mpr ⟨entry, List.mem_filter.mpr ⟨hentry, by simp [hbase]⟩, hnonce⟩

/-- A frame of somebody else. -/
theorem intrude (herase : ErasesOne H) (h : Linked gcm c) {mediaType : MediaType}
    {clock : DecryptClock} {frame frameOut : Bytes} {call : Decryption H} {latest : TimePoint}
    (hforeign : ∀ entry ∈ c.given, Foreign H gcm entry.1 frame)
    (hyoung : ∀ manager ∈ c.receiver.managers, manager.Young clock)
    (hlatest : c.latest ≤ latest) (hclock : ∀ i, (clock.expired i).time ≤ latest)
    (hcall : c.receiver.decrypt gcm mediaType clock frame frameOut = some call) :
    Linked gcm { c with receiver := call.decryptor, latest } := by
  obtain ⟨hmanagers, -⟩ := Decryptor.decrypt_foreign herase
    (fun m hm => hforeign (m.ratchet.base, m.expiryTime) (h.given hm)) h.kept hyoung hcall
  cases hmanagers with
  | inl hsame =>
      refine h.call hlatest hclock (fun _ => []) (.inl rfl) ?_ (fun _ => rfl) h.taken
        h.origin h.once
      rw [hsame, List.forall₂_same]
      exact fun m _ => .refl m rfl
  | inr hmoves =>
      exact h.call hlatest hclock _ (.inr rfl) hmoves (fun _ => rfl) h.taken h.origin h.once

/-- Nothing was taken under a base that was not given. -/
theorem nonces_of_new (h : Linked gcm c) {base : Bytes ⊕ Bytes}
    (hnew : base ∉ c.given.map Prod.fst) : c.nonces base = [] := by
  rw [nonces, List.map_eq_nil_iff, List.filter_eq_nil_iff]
  intro entry hentry hbase
  exact hnew (of_decide_eq_true hbase ▸ h.origin entry hentry)

/-- The receiver is given a ratchet. -/
theorem rekeyReceiver (h : Linked gcm c) {ratchet : Option (KeyRatchet H)}
    (now created : Instant) (expiry : Int) (hfresh : ∀ r, ratchet = some r → r.Fresh)
    (hnew : ∀ r, ratchet = some r → r.base ∉ c.given.map Prod.fst) :
    Linked gcm
      { c with
        receiver := c.receiver.transitionToKeyRatchet ratchet now created expiry
        given := regive c.given ratchet (now.time + expiry) } := by
  have hmanagers : (c.receiver.transitionToKeyRatchet ratchet now created expiry).managers =
      c.receiver.managers.map (·.updateExpiry (now.time + expiry)) ++
        ratchet.toList.map fun r => CipherManager.new r created := by
    cases ratchet with
    | none => simp [Decryptor.transitionToKeyRatchet, Decryptor.updateCryptorManagerExpiry]
    | some r => rfl
  have hpairs : (c.receiver.transitionToKeyRatchet ratchet now created expiry).managers.map
      (fun m => (m.ratchet.base, m.expiryTime)) =
        (c.receiver.managers.map fun m => (m.ratchet.base, m.expiryTime)).map
          (fun entry => (entry.1, min entry.2 (now.time + expiry))) ++
            ratchet.toList.map fun r => (r.base, TimePoint.max) := by
    rw [hmanagers, List.map_append, List.map_map, List.map_map, List.map_map]
    rfl
  have hbases : (regive c.given ratchet (now.time + expiry)).map Prod.fst =
      c.given.map Prod.fst ++ ratchet.toList.map KeyRatchet.base := by
    rw [regive, List.map_append, List.map_map, List.map_map]
    rfl
  refine ⟨h.wf, h.keyed, h.sent, ?_, ?_, ?_, ?_, h.taken, ?_, h.once⟩
  · intro m hm
    rw [hmanagers] at hm
    cases List.mem_append.mp hm with
    | inl hold =>
        obtain ⟨old, hmem, rfl⟩ := List.mem_map.mp hold
        obtain ⟨r, hr, hfollows⟩ := h.managers old hmem
        exact ⟨r, hr, hfollows.kept.updateExpiry _, hfollows.base, hfollows.window⟩
    | inr hlast =>
        obtain ⟨r, hr, rfl⟩ := List.mem_map.mp hlast
        rw [Option.mem_toList] at hr
        refine ⟨r, hfresh r hr, ?_⟩
        show (CipherManager.new r created).Follows r (c.nonces r.base)
        rw [h.nonces_of_new (hnew r hr)]
        exact .new r created
  · rw [hbases, List.nodup_append]
    refine ⟨h.distinct, ?_, ?_⟩
    · cases ratchet with
      | none => exact List.nodup_nil
      | some r => exact List.nodup_singleton _
    · intro base hold base' hlast hsame
      obtain ⟨r, hr, rfl⟩ := List.mem_map.mp hlast
      exact hnew r (Option.mem_toList.mp hr) (hsame ▸ hold)
  · rw [hpairs]
    exact (h.known.map _).append (List.Sublist.refl _)
  · intro entry hentry htime
    rw [hpairs]
    cases List.mem_append.mp hentry with
    | inl hold =>
        obtain ⟨old, hmem, rfl⟩ := List.mem_map.mp hold
        have hkept := h.lasting old hmem (Int.le_trans htime (Int.min_le_left _ _))
        exact List.mem_append_left _ (List.mem_map.mpr ⟨old, hkept, rfl⟩)
    | inr hlast => exact List.mem_append_right _ hlast
  · intro entry hentry
    rw [hbases]
    exact List.mem_append_left _ (h.origin entry hentry)

/-- A call of the sender. -/
theorem encrypt (h : Linked gcm c) {mediaType : MediaType} {ssrc : UInt32} {frame out : Bytes}
    {sender : Encryptor H} {result : Except DaveError (Nat × Bytes)}
    (hcall : c.sender.encrypt gcm mediaType ssrc frame out = some (sender, result)) :
    Linked gcm { c with sender } := by
  obtain ⟨hwf, -⟩ := h.wf.encrypt hcall
  have hkeyed : sender.Keyed := by
    cases hpass : c.sender.passthroughMode with
    | false => exact h.keyed.encrypt hpass hcall
    | true =>
        rw [Encryptor.encrypt, if_pos hpass] at hcall
        obtain ⟨output, -, hcall⟩ := Option.bind_eq_some_iff.mp hcall
        rw [← (Prod.mk.inj (Option.some.inj hcall)).1]
        exact h.keyed
  exact ⟨hwf, hkeyed, h.sent, h.managers, h.distinct, h.known, h.lasting, h.taken, h.origin,
    h.once⟩

end Linked

/-- **The invariant of a run.** -/
theorem Reachable.linked (hgcm : gcm.Correct) (herase : ErasesOne H) (h : Reachable gcm c) :
    Linked gcm c := by
  induction h with
  | start =>
      refine ⟨Encryptor.wf_default, ?_, by simp, by simp, by simp, by simp, by simp, by simp,
        by simp, by simp⟩
      intro cryptor hcryptor
      exact absurd hcryptor (by simp)
  | rekeySender _ hfresh ih =>
      refine ⟨?_, ?_, ih.sent, ih.managers, ih.distinct, ih.known, ih.lasting, ih.taken,
        ih.origin, ih.once⟩
      · exact Encryptor.wf_setKeyRatchet _ fun r hr g => (hfresh r hr).live g
      · intro cryptor hcryptor
        exact absurd hcryptor (by simp [Encryptor.setKeyRatchet])
  | switchSender mode _ ih =>
      exact ⟨ih.wf.setPassthroughMode mode, ih.keyed, ih.sent, ih.managers, ih.distinct, ih.known,
        ih.lasting, ih.taken, ih.origin, ih.once⟩
  | assign ssrc codec _ ih =>
      exact ⟨ih.wf.assignSsrcToCodec ssrc codec, ih.keyed, ih.sent, ih.managers, ih.distinct,
        ih.known, ih.lasting, ih.taken, ih.origin, ih.once⟩
  | rekeyReceiver now created expiry _ hfresh hnew ih =>
      exact ih.rekeyReceiver now created expiry hfresh hnew
  | @switchReceiver c mode now expiry _ ih =>
      have hsame := Decryptor.managers_transitionToPassthroughMode c.receiver mode now expiry
      refine ⟨ih.wf, ih.keyed, ih.sent, ?_, ih.distinct, ?_, ?_, ih.taken, ih.origin, ih.once⟩
      · show ∀ m ∈ (c.receiver.transitionToPassthroughMode mode now expiry).managers, _
        rw [hsame]
        exact ih.managers
      · show ((c.receiver.transitionToPassthroughMode mode now expiry).managers.map _).Sublist _
        rw [hsame]
        exact ih.known
      · show ∀ entry ∈ c.given, c.latest ≤ entry.2 →
          entry ∈ (c.receiver.transitionToPassthroughMode mode now expiry).managers.map _
        rw [hsame]
        exact ih.lasting
  | lose _ hcall ih => exact ih.encrypt hcall
  | send _ hpass hratchet hsplit hp hcall hsize hfits ih =>
      have hsealed := Encryptor.sealed_of_encrypt hgcm ih.wf ih.keyed hpass hratchet hp hcall hsize
        hfits
      rw [OutboundFrameProcessor.processFrame_contents hsplit hp] at hsealed
      have hkept := ih.encrypt hcall
      refine ⟨hkept.wf, hkept.keyed, ?_, ih.managers, ih.distinct, ih.known, ih.lasting, ?_,
        ih.origin, ih.once⟩
      · intro shipment hshipment
        cases List.mem_cons.mp hshipment with
        | inl hnew => exact hnew ▸ hsealed
        | inr hold => exact ih.sent shipment hold
      · intro entry hentry
        have hold := ih.taken entry hentry
        exact ⟨List.mem_cons_of_mem _ hold.1, hold.2⟩
  | deliver _ hsent hapart hyoung hlatest hclock hroom hcall ih =>
      exact ih.deliver herase hsent hapart hyoung hlatest hclock hroom hcall
  | intrude _ hforeign hyoung hlatest hclock hcall ih =>
      exact ih.intrude herase hforeign hyoung hlatest hclock hcall

/-! ## A run with two ratchets -/

/-- The ratchet of the reference secret, and a second one. -/
abbrev firstRatchet : KeyRatchet Chain := .mls (HashRatchet.ofSecret referenceSecret)

abbrev secondRatchet : KeyRatchet Chain := .mls (HashRatchet.ofSecret laterSecret)

/-- The receiver has gone on to the second ratchet. -/
def movedReceiver : Decryptor Chain :=
  Decryptor.referenceDecryptor.transitionToKeyRatchet (some secondRatchet) referenceInstant
    referenceInstant (seconds 10)

private theorem foreign_second :
    Foreign Chain referenceGcm secondRatchet.base sentAudioFrame := by
  intro p₀ parsed hparse hencrypted
  have hnone : (({} : InboundFrameProcessor).parseFrame sentAudioFrame).map
      (opening Chain referenceGcm secondRatchet.base) = some none := by
    decide +kernel
  rw [InboundFrameProcessor.parseFrame_encrypted {} hparse hencrypted] at hnone
  exact Option.some.inj hnone

/-- A frame is on its way while both ends go on to the second ratchet. -/
private theorem reachable_moved : ∃ c : Rekeying Chain, Reachable referenceGcm c ∧
    c.receiver = movedReceiver ∧ c.taken = [] ∧
    c.given = [(firstRatchet.base, referenceInstant.time + seconds 10),
      (secondRatchet.base, TimePoint.max)] ∧
    c.latest = TimePoint.min ∧
    c.sent = [⟨firstRatchet.base, ⟨sentAudioFrame, 1, audioFrame⟩⟩] := by
  have hfirst : ∀ r, some firstRatchet = some r → r.Fresh := by
    intro r hr
    rw [← Option.some.inj hr]
    exact .mls referenceSecret
  have hsecond : ∀ r, some secondRatchet = some r → r.Fresh := by
    intro r hr
    rw [← Option.some.inj hr]
    exact .mls laterSecret
  let sender := ((({} : Encryptor Chain).setKeyRatchet (some firstRatchet)).setPassthroughMode
    false).assignSsrcToCodec 1 .opus
  let p : OutboundFrameProcessor :=
    { frameCodec := .opus, frameIndex := 4, encryptedBytes := audioFrame
      ciphertextBytes := [0, 0, 0, 0] }
  have hp : sender.frameProcessor.processFrame audioFrame (sender.codecForSsrc 1) = some p := by
    decide +kernel
  have hsplit : OutboundFrameProcessor.splitByCodec audioFrame (sender.codecForSsrc 1) =
      some (true, [.encrypted audioFrame]) := by
    decide +kernel
  have heval : (sender.encrypt referenceGcm .audio 1 audioFrame (List.replicate 79 0)).bind
      (fun call => call.2.toOption.map fun sent => (call.1.truncatedNonce, sent.2.take sent.1)) =
        some (1, sentAudioFrame) := by
    decide +kernel
  obtain ⟨⟨e', result⟩, hcall, hresult⟩ := Option.bind_eq_some_iff.mp heval
  cases result with
  | error err => simp [Except.toOption] at hresult
  | ok sent =>
      obtain ⟨n, out'⟩ := sent
      have hboth := Prod.mk.inj (Option.some.inj hresult)
      have hshipment : (⟨firstRatchet.base, out'.take n, e'.truncatedNonce,
          if true then [Piece.encrypted audioFrame].flatMap Piece.bytes else audioFrame⟩ :
            Shipment) = ⟨firstRatchet.base, ⟨sentAudioFrame, 1, audioFrame⟩⟩ := by
        rw [show e'.truncatedNonce = 1 from hboth.1, show out'.take n = sentAudioFrame from hboth.2]
        rfl
      have hstart : Reachable referenceGcm ({} : Rekeying Chain) := .start
      have hgiven := ((hstart.rekeySender hfirst).switchSender false).assign 1 .opus
        |>.rekeyReceiver referenceInstant referenceInstant (seconds 10) hfirst (by simp)
      have hsent := hgiven.send rfl rfl hsplit hp hcall (.inl rfl) (by decide +kernel)
      have hother : ∀ r, some secondRatchet = some r → r.base ∉ [firstRatchet.base] := by
        intro r hr
        rw [← Option.some.inj hr, List.mem_singleton]
        decide
      have hmoved := hsent.rekeySender hsecond |>.rekeyReceiver referenceInstant referenceInstant
        (seconds 10) hsecond hother
      exact ⟨_, hmoved, rfl, rfl, rfl, rfl, congrArg (· :: []) hshipment⟩

private theorem young_moved : ∀ manager ∈ movedReceiver.managers,
    manager.Young Decryptor.referenceClock := by
  have hcreated : ∀ manager ∈ movedReceiver.managers,
      manager.maxGeneration referenceInstant < 256 := by
    decide
  intro manager hmanager i
  exact hcreated manager hmanager

private theorem apart_moved {c : Rekeying Chain}
    (hgiven : c.given = [(firstRatchet.base, referenceInstant.time + seconds 10),
      (secondRatchet.base, TimePoint.max)]) :
    c.Apart referenceGcm ⟨firstRatchet.base, ⟨sentAudioFrame, 1, audioFrame⟩⟩ := by
  intro entry hentry hne
  rw [hgiven] at hentry
  cases List.mem_cons.mp hentry with
  | inl hfirst => exact absurd (congrArg Prod.fst hfirst) hne
  | inr hsecond =>
      rw [List.mem_singleton.mp hsecond]
      exact foreign_second

private theorem decrypt_moved : ∃ call,
    movedReceiver.decrypt referenceGcm .audio Decryptor.referenceClock sentAudioFrame
        (List.replicate 16 0) = some call ∧
      call.result = some 4 ∧ call.output.take 4 = audioFrame := by
  have heval : (movedReceiver.decrypt referenceGcm .audio Decryptor.referenceClock sentAudioFrame
      (List.replicate 16 0)).map (fun call => (call.result, call.output.take 4)) =
        some (some 4, audioFrame) := by
    decide +kernel
  obtain ⟨call, hcall, hboth⟩ := Option.map_eq_some_iff.mp heval
  exact ⟨call, hcall, congrArg Prod.fst hboth, congrArg Prod.snd hboth⟩

/-! ## What arrives -/

/-- **No frame is taken twice.**  Whatever ratchets both ends went on to, a nonce was taken
at most once under each base, with a frame that was sent, and what was written is what was
sealed in it.  Nothing else gets through but plain frames, as they are: the silence packet,
and any other before the deadline. -/
theorem Reachable.never_twice (hgcm : gcm.Correct) (herase : ErasesOne H)
    (h : Reachable gcm c) :
    (c.taken.map fun entry => (entry.1.base, entry.1.packet.nonce)).Nodup ∧
      (∀ entry ∈ c.taken, entry.1 ∈ c.sent ∧ entry.2 = entry.1.packet.media) ∧
      ∀ {mediaType : MediaType} {clock : DecryptClock} {frame frameOut : Bytes}
        {call : Decryption H}, (∀ entry ∈ c.given, Foreign H gcm entry.1 frame) →
        (∀ manager ∈ c.receiver.managers, manager.Young clock) →
        c.receiver.decrypt gcm mediaType clock frame frameOut = some call →
        call.result.isSome = true →
          Decryptor.PassesThrough c.receiver.allowPassthroughUntil mediaType clock frame call := by
  have hlinked := h.linked hgcm herase
  refine ⟨hlinked.once, hlinked.taken, ?_⟩
  intro mediaType clock frame frameOut call hforeign hyoung hcall
  exact (Decryptor.decrypt_foreign herase
    (fun m hm => hforeign (m.ratchet.base, m.expiryTime) (hlinked.given hm)) hlinked.kept hyoung
    hcall).2

/-- The frame of the first ratchet arrives once, behind the second ratchet. -/
theorem never_twice_moved : ∃ c : Rekeying Chain,
    c.taken = [(⟨firstRatchet.base, ⟨sentAudioFrame, 1, audioFrame⟩⟩, audioFrame)] ∧
      (c.taken.map fun entry => (entry.1.base, entry.1.packet.nonce)).Nodup ∧
      ∀ entry ∈ c.taken, entry.1 ∈ c.sent ∧ entry.2 = entry.1.packet.media := by
  obtain ⟨c, hreach, hreceiver, htaken, hgiven, hlatest, hsent⟩ := reachable_moved
  obtain ⟨call, hcall, hresult, houtput⟩ := decrypt_moved
  have hmem : (⟨firstRatchet.base, ⟨sentAudioFrame, 1, audioFrame⟩⟩ : Shipment) ∈ c.sent := by
    simp [hsent]
  have hdelivered := Reachable.deliver hreach hmem (apart_moved hgiven) (hreceiver ▸ young_moved)
    (hlatest ▸ referenceInstant.min_le) (fun _ => Int.le_refl _) (by decide) (hreceiver ▸ hcall)
  have hall := hdelivered.never_twice referenceGcm_correct erasesOne_chain
  refine ⟨_, ?_, hall.1, hall.2.1⟩
  simp only [take, hresult, houtput, htaken, Option.toList_some, List.map_cons, List.map_nil,
    List.singleton_append]

/-- **Which frames are taken, and for how long.**  A frame that was sent is taken if and
only if a manager of its ratchet is left, its nonce lies inside the window of those taken
under this ratchet, and the manager serves its generation.  The manager is left until the
deadline that the transitions have set, whatever ratchets came after it, and serves the
generation when none of a newer one was taken. -/
theorem Reachable.hitless (hgcm : gcm.Correct) (herase : ErasesOne H) (h : Reachable gcm c)
    {shipment : Shipment} (hsent : shipment ∈ c.sent) (hapart : c.Apart gcm shipment)
    (mediaType : MediaType) {clock : DecryptClock} {frameOut : Bytes}
    (hyoung : ∀ manager ∈ c.receiver.managers, manager.Young clock)
    (hroom : shipment.packet.bytes.length ≤ frameOut.length) :
    ∃ call : Decryption H,
      c.receiver.decrypt gcm mediaType clock shipment.packet.bytes frameOut = some call ∧
      (call.result = some shipment.packet.media.length ∧
          call.output.take shipment.packet.media.length = shipment.packet.media ∨
        call.result = none) ∧
      (call.result.isSome = true ↔
        Window.Inside maxMissingNonces ((c.nonces shipment.base).map UInt32.toNat)
            shipment.packet.nonce.toNat ∧
          ∃ i manager, c.receiver.TriesAt clock shipment.base i manager ∧
            manager.Serves (clock.attempt i) (shipment.packet.nonce.toNat / 2 ^ 24)) ∧
      ∀ deadline, (shipment.base, deadline) ∈ c.given → c.latest ≤ deadline →
        (∀ i, (clock.expired i).time ≤ deadline) →
        ∃ i manager, c.receiver.TriesAt clock shipment.base i manager ∧
          ((∀ n ∈ c.nonces shipment.base,
              n.toNat / 2 ^ 24 ≤ shipment.packet.nonce.toNat / 2 ^ 24) →
            (shipment.packet.nonce.toNat / 2 ^ 24 ≤ maxGenerationGap ∨
              ∃ n ∈ c.nonces shipment.base,
                shipment.packet.nonce.toNat / 2 ^ 24 ≤ n.toNat / 2 ^ 24 + maxGenerationGap) →
            shipment.packet.nonce.toNat / 2 ^ 24 ≤
              manager.maxGeneration (clock.attempt i).lifetime →
            manager.Serves (clock.attempt i) (shipment.packet.nonce.toNat / 2 ^ 24)) := by
  have hlinked := h.linked hgcm herase
  have hsealed := hlinked.sent shipment hsent
  obtain ⟨call, hcall⟩ := Decryptor.decrypt_isSome gcm c.receiver mediaType clock hroom
  have hreceipt := hlinked.receipt herase hsent hapart hyoung hroom hcall
  refine ⟨call, hcall, ?_, ?_, ?_⟩
  · cases hresult : call.result with
    | none => exact .inr rfl
    | some n =>
        obtain ⟨hlen, houtput⟩ := hreceipt.written n hresult
        exact .inl ⟨congrArg some hlen, houtput⟩
  · rw [hreceipt.taken]
    -- what a manager of the ratchet finds
    have hfinds : ∀ i manager, c.receiver.TriesAt clock shipment.base i manager →
        ((manager.probe (clock.attempt i) shipment.packet.nonce).2.isSome = true ↔
          Window.Inside maxMissingNonces ((c.nonces shipment.base).map UInt32.toNat)
              shipment.packet.nonce.toNat ∧
            manager.Serves (clock.attempt i) (shipment.packet.nonce.toNat / 2 ^ 24)) := by
      intro i manager htried
      obtain ⟨ratchet, hfresh, hfollows⟩ := hlinked.managers manager htried.mem
      have hbase := hfollows.base.symm.trans htried.2
      have hkeyed := hsealed.keyed
      rw [← hbase] at hkeyed ⊢
      exact hfollows.found_iff herase (fun g => hfresh.live g)
        (hyoung manager htried.mem i) hkeyed
    constructor
    · intro hfound
      obtain ⟨i, manager, htried, hfound⟩ := hfound
      obtain ⟨hinside, hserves⟩ := (hfinds i manager htried).mp hfound
      exact ⟨hinside, i, manager, htried, hserves⟩
    · intro htaken
      obtain ⟨hinside, i, manager, htried, hserves⟩ := htaken
      exact ⟨i, manager, htried, (hfinds i manager htried).mpr ⟨hinside, hserves⟩⟩
  · intro deadline hgiven hlatest hclock
    obtain ⟨manager, hmem, hentry⟩ := List.mem_map.mp (hlinked.lasting _ hgiven hlatest)
    obtain ⟨hbase, hexpiry⟩ := Prod.mk.inj hentry
    have hkept := Decryptor.mem_cleanup_of_unexpired hmem fun i => hexpiry ▸ hclock i
    obtain ⟨i, hi⟩ := List.mem_iff_getElem?.mp (List.mem_reverse.mpr hkept)
    refine ⟨i, manager, ⟨hi, hbase⟩, ?_⟩
    obtain ⟨ratchet, -, hfollows⟩ := hlinked.managers manager hmem
    rw [hfollows.base] at hbase
    intro hnewest hgap hlifetime
    rw [← hbase] at hnewest hgap
    exact hfollows.serves_of_newest herase hnewest hgap hlifetime

/-- The frame of the first ratchet is taken: its manager has ten seconds left. -/
theorem hitless_moved : ∃ c : Rekeying Chain, ∃ call : Decryption Chain,
    c.receiver = movedReceiver ∧
      c.receiver.decrypt referenceGcm .audio Decryptor.referenceClock sentAudioFrame
        (List.replicate 16 0) = some call ∧
      call.result = some audioFrame.length ∧ call.output.take audioFrame.length = audioFrame ∧
      ∃ i manager, c.receiver.TriesAt Decryptor.referenceClock firstRatchet.base i manager := by
  obtain ⟨c, hreach, hreceiver, htaken, hgiven, hlatest, hsent⟩ := reachable_moved
  have hmem : (⟨firstRatchet.base, ⟨sentAudioFrame, 1, audioFrame⟩⟩ : Shipment) ∈ c.sent := by
    simp [hsent]
  have hyoung : ∀ manager ∈ c.receiver.managers, manager.Young Decryptor.referenceClock :=
    hreceiver ▸ young_moved
  have hroom : sentAudioFrame.length ≤ (List.replicate 16 (0 : UInt8)).length := by decide
  have hnonces : c.nonces firstRatchet.base = [] := by simp [nonces, htaken]
  obtain ⟨call, hcall, hwrites, hiff, hleft⟩ :=
    hreach.hitless referenceGcm_correct erasesOne_chain hmem (apart_moved hgiven) .audio hyoung
      hroom
  have hearly : referenceInstant.time ≤ referenceInstant.time + seconds 10 := by decide
  obtain ⟨i, manager, htried, hserves⟩ := hleft (referenceInstant.time + seconds 10)
    (by simp [hgiven]) (hlatest ▸ Int.le_trans referenceInstant.min_le hearly) (fun _ => hearly)
  have htaken' : call.result.isSome = true := by
    refine hiff.mpr ⟨?_, i, manager, htried, ?_⟩
    · show Window.Inside _ ((c.nonces firstRatchet.base).map UInt32.toNat) _
      rw [hnonces]
      exact ⟨by simp, by simp, by simp⟩
    · apply hserves
      · show ∀ n ∈ c.nonces firstRatchet.base, _
        simp [hnonces]
      · exact .inl (by decide)
      · exact Nat.zero_le _
  cases hwrites with
  | inl hwritten => exact ⟨c, call, hreceiver, hcall, hwritten.1, hwritten.2, i, manager, htried⟩
  | inr hnone =>
      rw [hnone] at htaken'
      exact absurd htaken' (by decide)

end Rekeying

end Ekizu.Dave
