import Ekizu.Dave.Decryptor
import Ekizu.Dave.Reference
import Mathlib.Data.List.Forall2

/-!
# Replay protection of a decryptor

Runs of a decryptor, with the history of each of its managers next to it: the
big nonces the manager has reported and the frames they came with.

## Main results

* `Good.decryptImpl` — what one attempt preserves.
* `run_replay_protection` — in every state of every run, each manager has
  accepted a big nonce at most once and its missing list is what the window
  says; while generations stay below 256 no frame is accepted twice.
-/

namespace Ekizu.Dave

open Lib.ReplayWindow

/-- The nonce in the trailer of a frame. -/
def frameNonce (frame : Bytes) : Option UInt32 :=
  (({} : InboundFrameProcessor).parseFrame frame).map (·.truncatedNonce)

/-- The parsed nonce is the one of the frame, whichever processor is used. -/
theorem truncatedNonce_of_parseFrame {p p' : InboundFrameProcessor} {frame : Bytes}
    (h : p.parseFrame frame = some p') : frameNonce frame = some p'.truncatedNonce := by
  rw [InboundFrameProcessor.parseFrame_eq] at h
  obtain rfl := Option.some.inj h
  rw [frameNonce, InboundFrameProcessor.parseFrame_eq, Option.map_some]
  split
  · rfl
  · simp only [InboundFrameProcessor.parseTrailer, InboundFrameProcessor.clear]

namespace Decryptor

variable {H : Type}

/-- What a manager has accepted: big nonces with the frames they came with,
the last one first. -/
abbrev History := List (Nat × Bytes)

/-- Extend a history by what the manager reported for a frame. -/
def extend (frame : Bytes) (history : History) : Option Nat → History
  | none => history
  | some bigNonce => (bigNonce, frame) :: history

/-- The processor holds the nonce of the frame, if it holds an encrypted frame
at all. -/
def Holds (p : InboundFrameProcessor) (frame : Bytes) : Prop :=
  frameNonce frame = some p.truncatedNonce

/-- Managers that were not tried keep their histories. -/
private theorem zipWith_extend_none (frame : Bytes) (managers : List (CipherManager H)) :
    ∀ histories : List History, managers.length = histories.length →
      List.zipWith (extend frame) histories (managers.map fun _ => none) = histories := by
  induction managers with
  | nil =>
      intro histories hlen
      rw [List.length_eq_zero_iff.mp hlen.symm]
      rfl
  | cons manager managers ih =>
      intro histories hlen
      cases histories with
      | nil => simp at hlen
      | cons history histories =>
          simp only [List.map_cons, List.zipWith_cons_cons, extend]
          rw [ih histories (by simpa using hlen)]

variable [HashRatchet H] [LawfulHashRatchet H]

/-- The invariant of a manager and its history. -/
structure Good (bounded : Prop) (manager : CipherManager H) (history : History) : Prop where
  wf : manager.Wf
  tracks : manager.window.Tracks maxMissingNonces (history.map Prod.fst)
  generations : bounded →
    manager.oldestGeneration < 256 ∧ manager.newestGeneration < 256 ∧
      ∀ entry ∈ history, frameNonce entry.2 = some entry.1.toUInt32 ∧ entry.1 < 2 ^ 32

section Steps

variable {gcm : AesGcm} {bounded : Prop} {manager : CipherManager H} {history : History}
  {frame : Bytes}

theorem good_new (ratchet : KeyRatchet H) (now : Instant) :
    Good bounded (CipherManager.new ratchet now) [] :=
  ⟨CipherManager.wf_new ratchet now, Window.tracks_empty _,
    fun _ => ⟨Nat.zero_lt_succ _, Nat.zero_lt_succ _, by simp⟩⟩

theorem Good.updateExpiry (h : Good bounded manager history) (expiry : TimePoint) :
    Good bounded (manager.updateExpiry expiry) history :=
  ⟨h.wf.updateExpiry expiry, h.tracks, h.generations⟩

theorem Good.getCipher (h : Good bounded manager history) (clock : ManagerClock)
    (generation : Nat) : Good bounded (manager.getCipher clock generation).1 history := by
  obtain ⟨hwindow, -, hnewest, hold, -⟩ := manager.getCipher_frame clock generation
  refine ⟨(h.wf.getCipher clock generation).1, by rw [hwindow]; exact h.tracks,
    fun hb => ?_⟩
  obtain ⟨holdLt, hnewestLt, hentries⟩ := h.generations hb
  rw [hnewest]
  exact ⟨by omega, hnewestLt, hentries⟩

omit [HashRatchet H] [LawfulHashRatchet H] in
/-- Below 256 an accepted generation is the nonce's own high byte, so the big
nonce is the nonce. -/
theorem bigNonce_eq {m : CipherManager H} {nonce : UInt32}
    (hold : m.oldestGeneration < 256) (hgen : m.nonceGeneration nonce < 256) :
    computeWrappedBigNonce (m.nonceGeneration nonce) nonce = nonce.toNat := by
  rw [CipherManager.nonceGeneration,
    computeWrappedGeneration_of_lt hold (nonce_shift_lt nonce)] at hgen ⊢
  split at hgen
  · omega
  · next hge =>
      rw [if_neg hge, computeWrappedBigNonce_eq, nonce_shift_eq]
      omega

/-- **One attempt.**  What a manager reports was admitted by its window, so the
history stays free of repetitions. -/
theorem Good.decryptImpl (h : Good bounded manager history) {clock : ManagerClock}
    {p : InboundFrameProcessor} {frameOut : Bytes} {a : Attempt H} (hp : Holds p frame)
    (hbound : bounded → manager.maxGeneration clock.lifetime < 256)
    (hcall : Decryptor.decryptImpl gcm manager clock p frameOut = some a) :
    Good bounded a.manager (extend frame history a.reported) ∧ Holds a.processor frame := by
  rcases decryptImpl_cases hcall with
    ⟨hrep, -, hproc, -, hmanager⟩ | ⟨cipher, decrypted, written, hopen⟩
  · rw [hrep, hproc]
    refine ⟨?_, hp⟩
    rcases hmanager with hmanager | hmanager
    · rw [hmanager]
      exact h
    · rw [hmanager]
      exact h.getCipher clock _
  · have hadmitted := hopen.admitted
    rw [CipherManager.canProcessNonce_eq] at hadmitted
    obtain ⟨hwindow, -, hnewest, hold, hmax⟩ :=
      manager.getCipher_frame clock (manager.nonceGeneration p.truncatedNonce)
    rw [hopen.reported_eq, hopen.manager_eq]
    refine ⟨⟨?_, ?_, fun hb => ?_⟩, by rw [hopen.processor_eq]; exact hp⟩
    · exact (h.wf.getCipher clock _).1.reportCipherSuccess clock.report _ _
    · rw [CipherManager.window_reportCipherSuccess, hwindow]
      exact h.tracks.record hadmitted
    · obtain ⟨holdLt, hnewestLt, hentries⟩ := h.generations hb
      have hgen : manager.nonceGeneration p.truncatedNonce < 256 :=
        Nat.lt_of_le_of_lt (hmax cipher hopen.found) (hbound hb)
      obtain ⟨missing, newest, ciphers, hreport, -⟩ :=
        (manager.getCipher clock (manager.nonceGeneration p.truncatedNonce)).1
          |>.reportCipherSuccess_frame clock.report (manager.nonceGeneration p.truncatedNonce)
            p.truncatedNonce
      rw [hreport]
      dsimp only
      rw [hnewest]
      refine ⟨by omega, by omega, ?_⟩
      intro entry hentry
      rcases List.mem_cons.mp hentry with rfl | hentry
      · have hnonce : computeWrappedBigNonce (manager.nonceGeneration p.truncatedNonce)
            p.truncatedNonce = p.truncatedNonce.toNat := bigNonce_eq holdLt hgen
        rw [hnonce]
        refine ⟨?_, p.truncatedNonce.toNat_lt⟩
        rw [Nat.toUInt32_eq, UInt32.ofNat_toNat]
        exact hp
      · exact hentries entry hentry

/-- The loop over the managers: each of them keeps its invariant. -/
private theorem good_decryptLoop {managers : List (CipherManager H)}
    {histories : List History} (h : List.Forall₂ (Good bounded) managers histories) :
    ∀ {attempt : Nat → ManagerClock} {p : InboundFrameProcessor} {frameOut : Bytes}
      {sweep : Sweep H}, Holds p frame →
      (bounded → ∀ manager ∈ managers, ∀ i,
        manager.maxGeneration (attempt i).lifetime < 256) →
      decryptLoop gcm attempt managers p frameOut = some sweep →
      List.Forall₂ (Good bounded) sweep.managers
          (List.zipWith (extend frame) histories sweep.reported) ∧
        sweep.reported.length = histories.length := by
  induction h with
  | nil =>
      intro attempt p frameOut sweep _ _ hcall
      obtain rfl := Option.some.inj hcall
      exact ⟨.nil, rfl⟩
  | @cons manager history managers histories hgood hrest ih =>
      intro attempt p frameOut sweep hp hbound hcall
      obtain ⟨a, ha, hnext⟩ := decryptLoop_cons hcall
      obtain ⟨hgood', hp'⟩ := hgood.decryptImpl hp
        (fun hb => hbound hb manager (by simp) 0) ha
      cases hnext with
      | inl hstops =>
          obtain ⟨written, -, rfl⟩ := hstops
          refine ⟨.cons hgood' ?_, ?_⟩
          · rw [zipWith_extend_none frame managers histories hrest.length_eq]
            exact hrest
          · simp [hrest.length_eq]
      | inr hgoesOn =>
          obtain ⟨-, sweep', hsweep, rfl⟩ := hgoesOn
          obtain ⟨hrest', hlen⟩ := ih hp'
            (fun hb m hm i => hbound hb m (by simp [hm]) (i + 1)) hsweep
          exact ⟨.cons hgood' hrest', by simp [hlen]⟩

/-- **One call.** -/
private theorem good_decrypt {d : Decryptor H} {histories : List History}
    (h : List.Forall₂ (Good bounded) d.managers histories) {mediaType : MediaType}
    {clock : DecryptClock} {frameOut : Bytes} {call : Decryption H}
    (hbound : bounded → ∀ manager ∈ d.managers, ∀ i,
      manager.maxGeneration (clock.attempt i).lifetime < 256)
    (hcall : d.decrypt gcm mediaType clock frame frameOut = some call) :
    List.Forall₂ (Good bounded) call.decryptor.managers
      (List.zipWith (extend frame)
        (histories.drop (histories.length - call.decryptor.managers.length))
        call.reported) := by
  have hlen := h.length_eq
  obtain ⟨k, hk, hdrop⟩ := cleanupExpiredManagers_eq_drop d.managers clock.expired
  have hkept := List.forall₂_drop k h
  have hlenKept := hkept.length_eq
  have hcount : histories.length - (d.managers.drop k).length = k := by
    rw [List.length_drop]
    omega
  cases (decrypt_cases hcall).1 with
  | silence _ _ hmanagers hreported _ _ =>
      rw [hmanagers, hreported, hlen, Nat.sub_self, List.drop_zero,
        zipWith_extend_none frame _ _ hlen]
      exact h
  | passthrough _ _ _ _ _ hmanagers hreported _ _ =>
      rw [hmanagers, hreported, hdrop, hcount, zipWith_extend_none frame _ _ hlenKept]
      exact hkept
  | refused _ _ _ _ hmanagers hreported _ =>
      rw [hmanagers, hreported, hdrop, hcount, zipWith_extend_none frame _ _ hlenKept]
      exact hkept
  | swept p₀ p sweep hparse _ hsweep hmanagers hreported _ _ =>
      rw [hdrop] at hsweep
      obtain ⟨hgood, hlenReported⟩ := good_decryptLoop (List.rel_reverse hkept)
        (truncatedNonce_of_parseFrame hparse)
        (fun hb m hm i => hbound hb m
          (List.mem_of_mem_drop (List.mem_reverse.mp hm)) i) hsweep
      have hlenSweep : sweep.managers.length = (d.managers.drop k).length := by
        rw [hgood.length_eq, List.length_zipWith, hlenReported, List.length_reverse,
          hlenKept, Nat.min_self]
      have hback := List.rel_reverse hgood
      rw [List.reverse_zipWith hlenReported.symm, List.reverse_reverse] at hback
      rw [hmanagers, hreported, List.length_reverse, hlenSweep, hcount]
      exact hback

end Steps

/-- The runs of a decryptor, with one history for each of its managers.  A run
is `bounded` when the lifetime bound of every manager keeps generations below
256 at every call. -/
inductive Run (gcm : AesGcm) (bounded : Prop) : Decryptor H → List History → Prop
  | start : Run gcm bounded {} []
  | transition {d : Decryptor H} {histories : List History} (ratchet : Option (KeyRatchet H))
      (now created : Instant) (expiry : Int) :
      Run gcm bounded d histories →
      Run gcm bounded (d.transitionToKeyRatchet ratchet now created expiry)
        (histories ++ ratchet.toList.map fun _ => [])
  | passthrough {d : Decryptor H} {histories : List History} (mode : Bool) (now : Instant)
      (expiry : Int) :
      Run gcm bounded d histories →
      Run gcm bounded (d.transitionToPassthroughMode mode now expiry) histories
  | decrypt {d : Decryptor H} {histories : List History} {mediaType : MediaType}
      {clock : DecryptClock} {frame frameOut : Bytes} {call : Decryption H} :
      Run gcm bounded d histories →
      (bounded → ∀ manager ∈ d.managers, ∀ i,
        manager.maxGeneration (clock.attempt i).lifetime < 256) →
      d.decrypt gcm mediaType clock frame frameOut = some call →
      Run gcm bounded call.decryptor
        (List.zipWith (extend frame)
          (histories.drop (histories.length - call.decryptor.managers.length)) call.reported)

variable {gcm : AesGcm} {bounded : Prop} {d : Decryptor H} {histories : List History}

/-- The invariant holds along every run. -/
theorem Run.good (h : Run gcm bounded d histories) :
    List.Forall₂ (Good bounded) d.managers histories := by
  induction h with
  | start => exact .nil
  | @transition d histories ratchet now created expiry _ ih =>
      have hupdated : List.Forall₂ (Good bounded)
          (d.managers.map (·.updateExpiry (now.time + expiry))) histories := by
        rw [List.forall₂_map_left_iff]
        exact ih.imp fun _ _ hgood => hgood.updateExpiry _
      cases ratchet with
      | none => simpa [transitionToKeyRatchet, updateCryptorManagerExpiry] using hupdated
      | some ratchet =>
          exact List.rel_append hupdated (.cons (good_new ratchet created) .nil)
  | @passthrough d histories mode now expiry _ ih =>
      unfold transitionToPassthroughMode
      split <;> exact ih
  | decrypt _ hbound hcall ih => exact good_decrypt ih hbound hcall

theorem Run.wf (h : Run gcm bounded d histories) {manager : CipherManager H}
    (hmem : manager ∈ d.managers) : manager.Wf := by
  obtain ⟨hlen, hgood⟩ := List.forall₂_iff_get.mp h.good
  obtain ⟨i, hi, rfl⟩ := List.getElem_of_mem hmem
  exact (hgood i hi (hlen ▸ hi)).wf

/-- **Replay protection.**  In every state of every run each manager has
accepted every big nonce at most once; its missing list is strictly increasing,
below the newest nonce, free of accepted nonces and of bounded length; and in a
bounded run no manager has accepted a frame twice. -/
theorem run_replay_protection (h : Run gcm bounded d histories) :
    List.Forall₂ (fun manager history =>
      (history.map Prod.fst).Nodup ∧
      manager.missingNonces.Pairwise (· < ·) ∧
      (∀ missing ∈ manager.missingNonces, missing ∉ history.map Prod.fst ∧
        ∃ newest, manager.newestProcessedNonce = some newest ∧ missing < newest) ∧
      manager.missingNonces.length ≤ maxMissingNonces ∧
      (bounded → (history.map Prod.snd).Nodup)) d.managers histories := by
  refine h.good.imp fun manager history hgood => ?_
  have htracks := hgood.tracks
  refine ⟨htracks.nodup, htracks.missing_sorted, ?_, htracks.missing_length, ?_⟩
  · intro missing hmissing
    refine ⟨htracks.missing_not_recorded missing hmissing, ?_⟩
    cases hnewest : manager.newestProcessedNonce with
    | none =>
        have hnil : manager.missingNonces = [] := (htracks.fresh hnewest).1
        rw [hnil] at hmissing
        simp at hmissing
    | some newest => exact ⟨newest, rfl, htracks.missing_lt newest hnewest missing hmissing⟩
  · intro hb
    obtain ⟨-, -, hentries⟩ := hgood.generations hb
    -- The big nonce is a function of the frame.
    have hfun : history.map Prod.fst =
        (history.map Prod.snd).map fun frame => ((frameNonce frame).getD 0).toNat := by
      rw [List.map_map]
      apply List.map_congr_left
      intro entry hentry
      obtain ⟨hnonce, hlt⟩ := hentries entry hentry
      simp only [Function.comp, hnonce, Option.getD_some, Nat.toUInt32_eq,
        UInt32.toNat_ofNat']
      exact (Nat.mod_eq_of_lt hlt).symm
    have hnodup := htracks.nodup
    rw [hfun] at hnodup
    exact hnodup.of_map _

/-- A clock that stands still. -/
def referenceClock : DecryptClock :=
  { expired := fun _ => referenceInstant
    now := referenceInstant
    attempt := fun _ =>
      ⟨referenceInstant, referenceInstant, referenceInstant, referenceInstant⟩ }

/-- A decryptor with one manager, for `referenceSecret`. -/
def referenceDecryptor : Decryptor Chain :=
  ({} : Decryptor Chain).transitionToKeyRatchet
    (some (.mls (HashRatchet.ofSecret referenceSecret))) referenceInstant referenceInstant
    (seconds 10)

/-- One frame, sent twice: the first copy is accepted, the second is not. -/
theorem run_replay_protection_audioFrame : ∃ d : Decryptor Chain,
    Run referenceGcm True d [[(1, sentAudioFrame)]] ∧
      List.Forall₂ (fun manager (history : History) =>
        (history.map Prod.fst).Nodup ∧
        manager.missingNonces.Pairwise (· < ·) ∧
        (∀ missing ∈ manager.missingNonces, missing ∉ history.map Prod.fst ∧
          ∃ newest, manager.newestProcessedNonce = some newest ∧ missing < newest) ∧
        manager.missingNonces.length ≤ maxMissingNonces ∧
        (True → (history.map Prod.snd).Nodup)) d.managers [[(1, sentAudioFrame)]] := by
  have hbound : ∀ d : Decryptor Chain, (d.managers.all fun manager =>
      manager.creationTime = 0) = true → ∀ manager ∈ d.managers, ∀ i,
        manager.maxGeneration (referenceClock.attempt i).lifetime < 256 := by
    intro d hall manager hmem i
    have hcreated : manager.creationTime = 0 := by
      simpa using List.all_eq_true.mp hall manager hmem
    simp only [CipherManager.maxGeneration, hcreated, referenceClock]
    decide
  have heval : (referenceDecryptor.decrypt referenceGcm .audio referenceClock sentAudioFrame
      [0, 0, 0, 0]).bind (fun first =>
        (first.decryptor.decrypt referenceGcm .audio referenceClock sentAudioFrame
          [0, 0, 0, 0]).map fun second =>
            (first.reported, first.decryptor.managers.length,
              first.decryptor.managers.all fun manager => manager.creationTime = 0,
              second.reported, second.decryptor.managers.length)) =
      some ([some 1], 1, true, [none], 1) := by
    decide +kernel
  obtain ⟨first, hfirst, heval⟩ := Option.bind_eq_some_iff.mp heval
  obtain ⟨second, hsecond, heval⟩ := Option.map_eq_some_iff.mp heval
  simp only [Prod.mk.injEq] at heval
  obtain ⟨hrep₁, hlen₁, hall, hrep₂, hlen₂⟩ := heval
  have hrun₀ : Run referenceGcm True referenceDecryptor [[]] :=
    Run.transition (some (.mls (HashRatchet.ofSecret referenceSecret))) referenceInstant
      referenceInstant (seconds 10) .start
  have hrun₁ := hrun₀.decrypt (fun _ => hbound _ (by decide)) hfirst
  have hrun₂ := hrun₁.decrypt (fun _ => hbound _ hall) hsecond
  rw [hrep₁, hlen₁, hrep₂, hlen₂] at hrun₂
  exact ⟨second.decryptor, hrun₂, run_replay_protection hrun₂⟩

end Decryptor

end Ekizu.Dave
