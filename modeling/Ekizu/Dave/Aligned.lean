import Ekizu.Dave.Shadow
import Ekizu.Dave.SoleManager

/-!
# The managers of a decryptor in two runs

Both runs try their managers on the same frames, one of them also on forged
ones.  `Aligned` relates the two queues, newest manager first.

## Main results

* `Decryptor.decryptImpl_attempt` — an attempt changes a manager as `attempt` says.
* `Aligned.decryptLoop_both`, `decryptLoop_right` — the loop over the managers.
* `Aligned.accepts` — what the first loop accepts in time, the second one accepts.
* `Aligned.cleanup_both`, `cleanup_right` — expired managers are dropped.
-/

namespace Ekizu.Dave

open Lib.Span Lib.ReplayWindow

variable {H : Type}

/-! ## The parsed frame -/

namespace InboundFrameProcessor

/-- What is parsed of an encrypted frame does not depend on the processor. -/
theorem parseFrame_encrypted {p₀ p : InboundFrameProcessor} {frame : Bytes}
    (p₁ : InboundFrameProcessor) (h : p₀.parseFrame frame = some p)
    (hencrypted : p.encrypted = true) :
    p₁.parseFrame frame = some p := by
  rw [parseFrame_eq] at h ⊢
  cases hsize : trailerSize frame with
  | none =>
      rw [hsize] at h
      obtain rfl := Option.some.inj h
      simp [clear] at hencrypted
  | some bytesSize =>
      rw [hsize] at h
      exact h

theorem parseFrame_silence {p₀ p : InboundFrameProcessor}
    (h : p₀.parseFrame opusSilencePacket = some p) : p.encrypted = false := by
  rw [parseFrame_eq] at h
  obtain rfl := Option.some.inj h
  rfl

end InboundFrameProcessor

section Attempts

variable [HashRatchet H] [LawfulHashRatchet H]

/-- The AEAD check of `decrypt_impl`, under the key that a base has for the
generation the frame names. -/
def opening (H : Type) [HashRatchet H] [LawfulHashRatchet H] (gcm : AesGcm)
    (base : Bytes ⊕ Bytes) (p : InboundFrameProcessor) : Option Bytes :=
  let key := KeyRatchet.keyOf H base (p.truncatedNonce >>> 24).toUInt8
  (⟨key⟩ : AeadCipher).decrypt gcm (p.ciphertext ++ p.tag) p.authenticated
    (nonceBuffer p.truncatedNonce)

namespace Decryptor

variable {gcm : AesGcm} {m : CipherManager H} {clock : ManagerClock}
  {p : InboundFrameProcessor} {frameOut : Bytes} {a : Attempt H}

/-- **An attempt with a manager.**  It changes the manager as `attempt` says;
the frame and the output change only if it opens. -/
theorem decryptImpl_attempt (hwf : m.Wf) (hencrypted : p.encrypted = true) (hsplit : p.Split)
    (h : decryptImpl gcm m clock p frameOut = some a) :
    a.manager =
        (m.attempt clock p.truncatedNonce (opening H gcm m.ratchet.base p).isSome).1 ∧
      a.reported =
        (m.attempt clock p.truncatedNonce (opening H gcm m.ratchet.base p).isSome).2 ∧
      (((m.probe clock p.truncatedNonce).2 = none ∨ opening H gcm m.ratchet.base p = none) ∧
          a.processor = p ∧ a.output = frameOut ∧ a.written = none ∨
        (m.probe clock p.truncatedNonce).2.isSome = true ∧
          ∃ decrypted written, opening H gcm m.ratchet.base p = some decrypted ∧
            a.processor = { p with plaintext := decrypted } ∧
            a.processor.reconstructFrame frameOut = some (written, a.output) ∧
            a.written = if written = 0 then none else some written) := by
  have hkey := (hwf.getCipher clock (m.nonceGeneration p.truncatedNonce)).2.2
  rw [m.toUInt8_nonceGeneration] at hkey
  unfold CipherManager.attempt
  unfold decryptImpl at h
  rw [if_neg (by simp [hencrypted])] at h
  dsimp only at h
  by_cases hcan : m.canProcessNonce (m.nonceGeneration p.truncatedNonce) p.truncatedNonce = false
  · have hprobe : m.probe clock p.truncatedNonce = (m, none) := if_pos hcan
    rw [if_pos hcan] at h
    obtain rfl := Option.some.inj h
    simp [hprobe]
  · have hprobe : m.probe clock p.truncatedNonce =
        m.getCipher clock (m.nonceGeneration p.truncatedNonce) := if_neg hcan
    rw [if_neg hcan] at h
    rw [hprobe]
    cases hget : m.getCipher clock (m.nonceGeneration p.truncatedNonce) with
    | mk m' found =>
        rw [hget] at h hkey
        cases found with
        | none =>
            obtain rfl := Option.some.inj h
            simp
        | some cipher =>
            obtain ⟨key⟩ := cipher
            have hopening : (⟨key⟩ : AeadCipher).decrypt gcm (p.ciphertext ++ p.tag)
                p.authenticated (nonceBuffer p.truncatedNonce) =
                  opening H gcm m.ratchet.base p := by
              have hkeyOf : key = _ := (hkey ⟨key⟩ rfl).2
              rw [hkeyOf]
              rfl
            simp only [hopening] at h
            cases hopen : opening H gcm m.ratchet.base p with
            | none =>
                rw [hopen] at h
                obtain rfl := Option.some.inj h
                simp
            | some decrypted =>
                rw [hopen] at h hopening
                -- the plaintext fills its buffer
                have hlen : decrypted.length = p.plaintext.length := by
                  rw [AeadCipher.decrypt_append gcm _ hsplit.tag] at hopening
                  rw [gcm.gcmDecrypt_length hopening, hsplit.plaintext]
                have hwrite : write p.plaintext 0 decrypted = some decrypted := by
                  rw [write_of_le (by omega)]
                  simp [hlen]
                simp only [hwrite, Option.bind_eq_bind, Option.bind_some] at h
                obtain ⟨⟨written, output⟩, hrec, h⟩ := Option.bind_eq_some_iff.mp h
                obtain rfl := Option.some.inj h
                simp [hrec]

/-- An attempt that writes has opened the frame. -/
theorem opening_of_written (hwf : m.Wf) (hencrypted : p.encrypted = true) (hsplit : p.Split)
    (h : decryptImpl gcm m clock p frameOut = some a) (hwritten : a.written ≠ none) :
    (opening H gcm m.ratchet.base p).isSome = true := by
  obtain ⟨-, -, hcase⟩ := decryptImpl_attempt hwf hencrypted hsplit h
  rcases hcase with ⟨-, -, -, hnone⟩ | ⟨-, _, _, hsome, -⟩
  · exact absurd hnone hwritten
  · rw [hsome]
    rfl

end Decryptor

/-! ## The managers of two runs -/

/-- Extend the logs of the managers, newest manager first, by what a call
reported. -/
def noteAll : (Nat → ManagerClock) → List (Option Nat) → List Log → List Log
  | attempt, reported :: rest, log :: logs =>
      log.note (attempt 0).report reported :: noteAll (fun i => attempt (i + 1)) rest logs
  | _, _, _ => []

/-- The frame opens under at most one of the managers. -/
def OneKey (gcm : AesGcm) (p : InboundFrameProcessor) (managers : List (CipherManager H)) :
    Prop :=
  managers.Pairwise fun m m' =>
    ¬ ((opening H gcm m.ratchet.base p).isSome = true ∧
      (opening H gcm m'.ratchet.base p).isSome = true)

/-- A frame that opens under a manager opens under no older one. -/
theorem OneKey.others {gcm : AesGcm} {p : InboundFrameProcessor} {a : CipherManager H}
    {as : List (CipherManager H)} (h : OneKey gcm p (a :: as))
    (hopen : (opening H gcm a.ratchet.base p).isSome = true) :
    ∀ a' ∈ as, opening H gcm a'.ratchet.base p = none := by
  intro a' ha'
  have hboth := (List.pairwise_cons.mp h).1 a' ha'
  cases hother : opening H gcm a'.ratchet.base p with
  | none => rfl
  | some decrypted => exact absurd ⟨hopen, by rw [hother]; rfl⟩ hboth

/-- The managers of the two runs, newest first, with the logs of the first run.
The first run may keep more managers, but those have expired. -/
inductive Aligned (now : TimePoint) :
    List (CipherManager H) → List Log → List (CipherManager H) → Prop
  | rest {as : List (CipherManager H)} {logs : List Log}
      (hwf : ∀ a ∈ as, a.Wf) (hexpired : ∀ a ∈ as, a.expiryTime < now)
      (hlen : as.length = logs.length) : Aligned now as logs []
  | cons {a b : CipherManager H} {log : Log} {as bs : List (CipherManager H)} {logs : List Log}
      (served : Nat → Prop) (hhead : Shadows served now log a b) (htail : Aligned now as logs bs) :
      Aligned now (a :: as) (log :: logs) (b :: bs)

namespace Aligned

variable {now now' : TimePoint} {as bs : List (CipherManager H)} {logs : List Log}

theorem length_logs (h : Aligned now as logs bs) : as.length = logs.length := by
  induction h with
  | rest _ _ hlen => exact hlen
  | cons _ _ _ ih => simp [ih]

theorem length_le (h : Aligned now as logs bs) : bs.length ≤ as.length := by
  induction h with
  | rest _ _ _ => exact Nat.zero_le _
  | cons _ _ _ ih => simpa using ih

theorem mono (h : Aligned now as logs bs) (hnow : now ≤ now') : Aligned now' as logs bs := by
  induction h with
  | rest hwf hexpired hlen =>
      exact .rest hwf (fun a ha => Int.lt_of_lt_of_le (hexpired a ha) hnow) hlen
  | cons served hhead _ ih => exact .cons served (hhead.mono hnow) ih

/-- Every manager of the second run is one of the first run. -/
theorem mem_right (h : Aligned now as logs bs) : ∀ b ∈ bs, ∃ a ∈ as,
    b.ratchet.base = a.ratchet.base ∧ b.creationTime = a.creationTime := by
  induction h with
  | rest _ _ _ => simp
  | @cons a b log as bs logs served hhead _ ih =>
      intro b' hb'
      rcases List.mem_cons.mp hb' with rfl | hb'
      · exact ⟨a, List.mem_cons_self, hhead.base, hhead.created⟩
      · obtain ⟨a', ha', hsame⟩ := ih b' hb'
        exact ⟨a', List.mem_cons_of_mem a ha', hsame⟩

theorem updateExpiry (h : Aligned now as logs bs) (expiry : TimePoint) :
    Aligned now (as.map (·.updateExpiry expiry)) logs (bs.map (·.updateExpiry expiry)) := by
  induction h with
  | rest hwf hexpired hlen =>
      refine .rest ?_ ?_ (by simpa using hlen)
      · intro a ha
        obtain ⟨a', ha', rfl⟩ := List.mem_map.mp ha
        exact (hwf a' ha').updateExpiry expiry
      · intro a ha
        obtain ⟨a', ha', rfl⟩ := List.mem_map.mp ha
        exact Int.lt_of_le_of_lt (Int.min_le_left _ _) (hexpired a' ha')
  | cons served hhead _ ih => exact .cons served (hhead.updateExpiry expiry) ih

theorem take (h : Aligned now as logs bs) (n : Nat) (hn : n ≤ bs.length) :
    Aligned now (as.take n) (logs.take n) (bs.take n) := by
  induction h generalizing n with
  | rest hwf hexpired hlen =>
      obtain rfl := Nat.le_zero.mp hn
      exact .rest (by simp) (by simp) (by simp)
  | cons served hhead _ ih =>
      cases n with
      | zero => exact .rest (by simp) (by simp) (by simp)
      | succ n => exact .cons served hhead (ih n (Nat.le_of_succ_le_succ hn))

/-- The second run may lose managers that have expired. -/
theorem take_right (h : Aligned now as logs bs) (hwf : ∀ a ∈ as, a.Wf) (n : Nat)
    (hexpired : ∀ b ∈ bs.drop n, b.expiryTime < now) : Aligned now as logs (bs.take n) := by
  induction h generalizing n with
  | rest hwf' hexpired' hlen =>
      rw [List.take_nil]
      exact .rest hwf' hexpired' hlen
  | @cons a b log as bs logs served hhead htail ih =>
      have htailWf : ∀ a' ∈ as, a'.Wf := fun a' ha' => hwf a' (List.mem_cons_of_mem a ha')
      cases n with
      | zero =>
          have hrest := ih htailWf 0 (fun b' hb' => hexpired b' (List.mem_cons_of_mem b hb'))
          rw [List.take_zero] at hrest ⊢
          cases hrest with
          | rest _ hexpiredTail hlen =>
              refine .rest hwf ?_ (by simp [hlen])
              intro a' ha'
              rcases List.mem_cons.mp ha' with rfl | ha'
              · rw [← hhead.expires]
                exact hexpired b List.mem_cons_self
              · exact hexpiredTail a' ha'
      | succ n => exact .cons served hhead (ih htailWf n hexpired)

theorem wf (h : Aligned now as logs bs) : ∀ a ∈ as, a.Wf := by
  induction h with
  | rest hwf _ _ => exact hwf
  | cons served hhead _ ih =>
      intro a ha
      rcases List.mem_cons.mp ha with rfl | ha
      · exact hhead.left.wf
      · exact ih a ha

end Aligned

/-! ## The loop over the managers -/

omit [HashRatchet H] [LawfulHashRatchet H] in
/-- Managers that were not tried report nothing. -/
theorem noteAll_none (managers : List (CipherManager H)) :
    ∀ (attempt : Nat → ManagerClock) (logs : List Log), managers.length = logs.length →
      noteAll attempt (managers.map fun _ => none) logs = logs := by
  induction managers with
  | nil =>
      intro attempt logs hlen
      rw [List.length_eq_zero_iff.mp hlen.symm]
      rfl
  | cons manager managers ih =>
      intro attempt logs hlen
      cases logs with
      | nil => simp at hlen
      | cons log logs =>
          simp only [List.map_cons, noteAll, Log.note]
          rw [ih _ logs (by simpa using hlen)]

private theorem length_noteAll {reported : List (Option Nat)} :
    ∀ (attempt : Nat → ManagerClock) {logs : List Log}, reported.length = logs.length →
      (noteAll attempt reported logs).length = logs.length := by
  induction reported with
  | nil =>
      intro attempt logs hlen
      rw [List.length_eq_zero_iff.mp hlen.symm]
      rfl
  | cons r reported ih =>
      intro attempt logs hlen
      cases logs with
      | nil => simp at hlen
      | cons log logs =>
          simp only [noteAll, List.length_cons]
          rw [ih _ (by simpa using hlen)]

/-- Logs of managers that were not looked at are forgotten. -/
theorem noteAll_take {reported : List (Option Nat)} :
    ∀ {attempt : Nat → ManagerClock} {logs : List Log},
      noteAll attempt reported (logs.take reported.length) = noteAll attempt reported logs := by
  induction reported with
  | nil =>
      intro attempt logs
      rw [List.length_nil, List.take_zero, noteAll, noteAll] <;> simp
  | cons r reported ih =>
      intro attempt logs
      cases logs with
      | nil => rw [List.take_nil]
      | cons log logs => simp only [List.length_cons, List.take_succ_cons, noteAll, ih]

namespace Decryptor

variable {gcm : AesGcm}

omit [LawfulHashRatchet H] in
/-- The loop says of every manager what it reported. -/
theorem length_reported {managers : List (CipherManager H)} :
    ∀ {attempt : Nat → ManagerClock} {p : InboundFrameProcessor} {frameOut : Bytes}
      {sweep : Sweep H}, decryptLoop gcm attempt managers p frameOut = some sweep →
      sweep.reported.length = managers.length := by
  induction managers with
  | nil =>
      intro attempt p frameOut sweep hsweep
      obtain rfl := Option.some.inj hsweep
      rfl
  | cons manager managers ih =>
      intro attempt p frameOut sweep hsweep
      obtain ⟨tried, -, hnext⟩ := decryptLoop_cons hsweep
      cases hnext with
      | inl hstops =>
          obtain ⟨written, -, rfl⟩ := hstops
          simp
      | inr hgoesOn =>
          obtain ⟨-, rest, hrest, rfl⟩ := hgoesOn
          simp [ih hrest]

/-- What any loop leaves of managers that have expired. -/
private theorem decryptLoop_expired {now : TimePoint} {as : List (CipherManager H)} :
    ∀ {attempt : Nat → ManagerClock} {p : InboundFrameProcessor} {frameOut : Bytes}
      {sweep : Sweep H}, (∀ a ∈ as, a.Wf) → (∀ a ∈ as, a.expiryTime < now) →
      decryptLoop gcm attempt as p frameOut = some sweep →
      (∀ a ∈ sweep.managers, a.Wf) ∧ (∀ a ∈ sweep.managers, a.expiryTime < now) ∧
        sweep.managers.length = as.length := by
  induction as with
  | nil =>
      intro attempt p frameOut sweep hwf hexpired hsweep
      obtain rfl := Option.some.inj hsweep
      simp
  | cons a as ih =>
      intro attempt p frameOut sweep hwf hexpired hsweep
      obtain ⟨haWf, hwf⟩ := List.forall_mem_cons.mp hwf
      obtain ⟨haExpired, hexpired⟩ := List.forall_mem_cons.mp hexpired
      obtain ⟨tried, htried, hnext⟩ := decryptLoop_cons hsweep
      obtain ⟨hkeptWf, hkeptExpiry, -⟩ := decryptImpl_keeps haWf htried
      rw [← hkeptExpiry] at haExpired
      cases hnext with
      | inl hstops =>
          obtain ⟨written, -, rfl⟩ := hstops
          exact ⟨List.forall_mem_cons.mpr ⟨hkeptWf, hwf⟩,
            List.forall_mem_cons.mpr ⟨haExpired, hexpired⟩, by simp⟩
      | inr hgoesOn =>
          obtain ⟨-, rest, hrest, rfl⟩ := hgoesOn
          obtain ⟨hrestWf, hrestExpired, hlen⟩ := ih hwf hexpired hrest
          exact ⟨List.forall_mem_cons.mpr ⟨hkeptWf, hrestWf⟩,
            List.forall_mem_cons.mpr ⟨haExpired, hrestExpired⟩, by simp [hlen]⟩

/-- A manager under which the frame does not open. -/
private theorem decryptImpl_closed {m : CipherManager H} {clock : ManagerClock}
    {p : InboundFrameProcessor} {frameOut : Bytes} {a : Attempt H} (hwf : m.Wf)
    (hencrypted : p.encrypted = true) (hsplit : p.Split)
    (hclosed : opening H gcm m.ratchet.base p = none)
    (h : decryptImpl gcm m clock p frameOut = some a) :
    a.manager = (m.probe clock p.truncatedNonce).1 ∧ a.reported = none ∧ a.written = none ∧
      a.processor = p ∧ a.output = frameOut := by
  obtain ⟨hmanager, hreported, hcase⟩ := decryptImpl_attempt hwf hencrypted hsplit h
  rw [hclosed, Option.isSome_none, Shadows.attempt_of_closed (.inr rfl)] at hmanager hreported
  rcases hcase with ⟨-, hprocessor, houtput, hwritten⟩ | ⟨-, decrypted, written, hopen, -⟩
  · exact ⟨hmanager, hreported, hwritten, hprocessor, houtput⟩
  · rw [hclosed] at hopen
    exact absurd hopen (by simp)

/-- A loop over managers under which the frame does not open. -/
private theorem written_of_closed {as : List (CipherManager H)} {p : InboundFrameProcessor}
    (hwf : ∀ a ∈ as, a.Wf) (hencrypted : p.encrypted = true) (hsplit : p.Split)
    (hclosed : ∀ a ∈ as, opening H gcm a.ratchet.base p = none) :
    ∀ {attempt : Nat → ManagerClock} {frameOut : Bytes} {sweep : Sweep H},
      decryptLoop gcm attempt as p frameOut = some sweep → sweep.written = none := by
  induction as with
  | nil =>
      intro attempt frameOut sweep hsweep
      obtain rfl := Option.some.inj hsweep
      rfl
  | cons a as ih =>
      intro attempt frameOut sweep hsweep
      obtain ⟨haWf, hwf⟩ := List.forall_mem_cons.mp hwf
      obtain ⟨haClosed, hclosed⟩ := List.forall_mem_cons.mp hclosed
      obtain ⟨tried, htried, -⟩ := decryptLoop_cons hsweep
      obtain ⟨-, -, hwritten, hprocessor, -⟩ :=
        decryptImpl_closed haWf hencrypted hsplit haClosed htried
      obtain ⟨rest, hrest, rfl⟩ := decryptLoop_of_none htried hwritten hsweep
      rw [hprocessor] at hrest
      have hnone : rest.written = none := ih hwf hclosed hrest
      exact hnone

/-- After an attempt the processor holds the same frame. -/
private theorem decryptImpl_processor {m : CipherManager H} {clock : ManagerClock}
    {p : InboundFrameProcessor} {frameOut : Bytes} {a : Attempt H} (hwf : m.Wf)
    (hencrypted : p.encrypted = true) (hsplit : p.Split)
    (h : decryptImpl gcm m clock p frameOut = some a) :
    a.processor.Split ∧ ∃ plaintext, a.processor = { p with plaintext } := by
  obtain ⟨a', ha', hsplit', -⟩ := decryptImpl_isSome gcm m clock frameOut hsplit
  obtain rfl := Option.some.inj (h.symm.trans ha')
  refine ⟨hsplit', ?_⟩
  obtain ⟨-, -, hcase⟩ := decryptImpl_attempt hwf hencrypted hsplit h
  rcases hcase with ⟨-, hprocessor, -⟩ | ⟨-, decrypted, written, -, hprocessor, -⟩
  · exact ⟨p.plaintext, hprocessor⟩
  · exact ⟨decrypted, hprocessor⟩

end Decryptor

namespace Aligned

open Decryptor

variable {gcm : AesGcm} {now now' : TimePoint} {as bs : List (CipherManager H)}
  {logs : List Log}

/-- Only the second run tries the frame, and it does not open. -/
theorem decryptLoop_right (herase : ErasesOne H) (h : Aligned now as logs bs)
    (hnow : now ≤ now') : ∀ {attempt : Nat → ManagerClock} {p : InboundFrameProcessor}
      {frameOut : Bytes} {sweep : Sweep H}, p.encrypted = true → p.Split →
      (∀ i, (attempt i).cleanup.time ≤ now') →
      (∀ b ∈ bs, ∀ i, b.maxGeneration (attempt i).lifetime < 256) →
      (∀ b ∈ bs, opening H gcm b.ratchet.base p = none) →
      decryptLoop gcm attempt bs p frameOut = some sweep →
      Aligned now' as logs sweep.managers := by
  induction h with
  | rest hwf hexpired hlen =>
      intro attempt p frameOut sweep _ _ _ _ _ hsweep
      obtain rfl := Option.some.inj hsweep
      exact (Aligned.rest hwf hexpired hlen).mono hnow
  | @cons a b log as bs logs served hhead htail ih =>
      intro attempt p frameOut sweep hencrypted hsplit hclock hmax hclosed hsweep
      obtain ⟨hmaxHead, hmax⟩ := List.forall_mem_cons.mp hmax
      obtain ⟨hclosedHead, hclosed⟩ := List.forall_mem_cons.mp hclosed
      obtain ⟨tried, htried, -⟩ := decryptLoop_cons hsweep
      obtain ⟨hmanager, -, hwritten, hprocessor, houtput⟩ :=
        decryptImpl_closed hhead.right.wf hencrypted hsplit hclosedHead htried
      obtain ⟨rest, hrest, rfl⟩ := decryptLoop_of_none htried hwritten hsweep
      rw [hprocessor] at hrest
      have hprobed := (hhead.mono hnow).probe_right herase (hmaxHead 0) (hclock 0)
        p.truncatedNonce
      rw [← hmanager] at hprobed
      exact .cons served hprobed (ih hencrypted hsplit (fun i => hclock (i + 1))
        (fun b hb i => hmax b hb (i + 1)) hclosed hrest)

/-- Only the first run tries the frame, and it does not open. -/
theorem decryptLoop_left (herase : ErasesOne H) (h : Aligned now as logs bs)
    (hnow : now ≤ now') : ∀ {attempt : Nat → ManagerClock} {p : InboundFrameProcessor}
      {frameOut : Bytes} {sweep : Sweep H}, p.encrypted = true → p.Split →
      (∀ a ∈ as, ∀ i, a.maxGeneration (attempt i).lifetime < 256) →
      (∀ a ∈ as, opening H gcm a.ratchet.base p = none) →
      decryptLoop gcm attempt as p frameOut = some sweep →
      Aligned now' sweep.managers (noteAll attempt sweep.reported logs) bs := by
  induction h with
  | rest hwf hexpired hlen =>
      intro attempt p frameOut sweep _ _ _ _ hsweep
      obtain ⟨hwf', hexpired', hmanagers⟩ := decryptLoop_expired hwf hexpired hsweep
      have hnoted := length_noteAll attempt ((length_reported hsweep).trans hlen)
      exact (Aligned.rest hwf' hexpired' (by rw [hnoted, hmanagers, hlen])).mono hnow
  | @cons a b log as bs logs served hhead htail ih =>
      intro attempt p frameOut sweep hencrypted hsplit hmax hclosed hsweep
      obtain ⟨hmaxHead, hmax⟩ := List.forall_mem_cons.mp hmax
      obtain ⟨hclosedHead, hclosed⟩ := List.forall_mem_cons.mp hclosed
      obtain ⟨tried, htried, -⟩ := decryptLoop_cons hsweep
      obtain ⟨hmanager, hreported, hwritten, hprocessor, houtput⟩ :=
        decryptImpl_closed hhead.left.wf hencrypted hsplit hclosedHead htried
      obtain ⟨rest, hrest, rfl⟩ := decryptLoop_of_none htried hwritten hsweep
      rw [hprocessor] at hrest
      have hprobed := (hhead.mono hnow).probe_left herase (hmaxHead 0) p.truncatedNonce
      rw [← hmanager] at hprobed
      simp only [noteAll, hreported, Log.note]
      exact .cons served hprobed (ih hencrypted hsplit (fun a ha i => hmax a ha (i + 1))
        hclosed hrest)

/-- A frame that one manager opens is opened by no manager after it, in either run. -/
theorem closed_others {a : CipherManager H} {p : InboundFrameProcessor}
    (h : Aligned now as logs bs) (hone : OneKey gcm p (a :: as))
    (hopened : (opening H gcm a.ratchet.base p).isSome = true) :
    (∀ a' ∈ as, opening H gcm a'.ratchet.base p = none) ∧
      ∀ b' ∈ bs, opening H gcm b'.ratchet.base p = none := by
  have hleft := hone.others hopened
  refine ⟨hleft, ?_⟩
  intro b' hb'
  obtain ⟨a', ha', hbase, -⟩ := h.mem_right b' hb'
  rw [hbase]
  exact hleft a' ha'

/-- The managers of the two runs have the same generations. -/
theorem maxGeneration_right {attempt : Nat → ManagerClock} (h : Aligned now as logs bs)
    (hmax : ∀ a ∈ as, ∀ i, a.maxGeneration (attempt i).lifetime < 256) :
    ∀ b ∈ bs, ∀ i, b.maxGeneration (attempt i).lifetime < 256 := by
  intro b hb i
  obtain ⟨a, ha, -, hcreated⟩ := h.mem_right b hb
  rw [CipherManager.maxGeneration, hcreated]
  exact hmax a ha i

/-- **Both runs try the frame.** -/
theorem decryptLoop_both (herase : ErasesOne H) (h : Aligned now as logs bs)
    (hnow : now ≤ now') : ∀ {attempt : Nat → ManagerClock} {p p' : InboundFrameProcessor}
      {frameOut frameOut' : Bytes} {sweep sweep' : Sweep H}, p.encrypted = true → p.Split →
      p'.Split → (∃ plaintext, p' = { p with plaintext }) →
      (∀ i, (attempt i).Within now now') →
      (∀ a ∈ as, ∀ i, a.maxGeneration (attempt i).lifetime < 256) → OneKey gcm p as →
      decryptLoop gcm attempt as p frameOut = some sweep →
      decryptLoop gcm attempt bs p' frameOut' = some sweep' →
      Aligned now' sweep.managers (noteAll attempt sweep.reported logs) sweep'.managers := by
  induction h with
  | rest hwf hexpired hlen =>
      intro attempt p p' frameOut frameOut' sweep sweep' hencrypted hsplit _ _ _ _ _ hsweep
        hsweep'
      obtain rfl := Option.some.inj hsweep'
      obtain ⟨hwf', hexpired', hmanagers⟩ := decryptLoop_expired hwf hexpired hsweep
      have hnoted := length_noteAll attempt ((length_reported hsweep).trans hlen)
      exact (Aligned.rest hwf' hexpired' (by rw [hnoted, hmanagers, hlen])).mono hnow
  | @cons a b log as bs logs served hhead htail ih =>
      intro attempt p p' frameOut frameOut' sweep sweep' hencrypted hsplit hsplit' hsame hclock
        hmax hone hsweep hsweep'
      obtain ⟨plaintext, rfl⟩ := hsame
      have hencrypted' : ({ p with plaintext } : InboundFrameProcessor).encrypted = true :=
        hencrypted
      obtain ⟨hmaxHead, hmax⟩ := List.forall_mem_cons.mp hmax
      have honeTail : OneKey gcm p as := (List.pairwise_cons.mp hone).2
      have hmaxRight := htail.maxGeneration_right hmax
      obtain ⟨tried, htried, hnext⟩ := decryptLoop_cons hsweep
      obtain ⟨tried', htried', hnext'⟩ := decryptLoop_cons hsweep'
      obtain ⟨hmanager, hreported, -⟩ :=
        decryptImpl_attempt hhead.left.wf hencrypted hsplit htried
      obtain ⟨hmanager', hreported', -⟩ :=
        decryptImpl_attempt hhead.right.wf hencrypted' hsplit' htried'
      obtain ⟨hheld, plaintext₁, hprocessor⟩ :=
        decryptImpl_processor hhead.left.wf hencrypted hsplit htried
      obtain ⟨hheld', plaintext₂, hprocessor'⟩ :=
        decryptImpl_processor hhead.right.wf hencrypted' hsplit' htried'
      have hopening : opening H gcm b.ratchet.base { p with plaintext } =
          opening H gcm a.ratchet.base p := by
        rw [hhead.base]
        rfl
      rw [hopening] at hmanager' hreported'
      have hstep := hhead.attempt herase (hmaxHead 0) (hclock 0) p.truncatedNonce
        (opening H gcm a.ratchet.base p).isSome
      rw [← hmanager, ← hreported, ← hmanager'] at hstep
      -- a run that stops here has opened the frame, so no older manager opens it
      have hothers : tried.written ≠ none ∨ tried'.written ≠ none →
          (∀ a' ∈ as, opening H gcm a'.ratchet.base p = none) ∧
            ∀ b' ∈ bs, opening H gcm b'.ratchet.base p = none := by
        intro hstopped
        have hopened : (opening H gcm a.ratchet.base p).isSome = true := by
          rcases hstopped with hstopped | hstopped
          · exact opening_of_written hhead.left.wf hencrypted hsplit htried hstopped
          · rw [← hopening]
            exact opening_of_written hhead.right.wf hencrypted' hsplit' htried' hstopped
        exact htail.closed_others hone hopened
      have hmaxTail : ∀ a' ∈ as, ∀ i, a'.maxGeneration (attempt (i + 1)).lifetime < 256 :=
        fun a' ha' i => hmax a' ha' (i + 1)
      cases hnext with
      | inl hstops =>
          obtain ⟨written, hwritten, rfl⟩ := hstops
          obtain ⟨-, hclosed⟩ := hothers (.inl (by rw [hwritten]; simp))
          have hlen := htail.length_logs
          simp only [noteAll]
          rw [noteAll_none as _ logs hlen]
          cases hnext' with
          | inl hstops' =>
              obtain ⟨written', -, rfl⟩ := hstops'
              exact .cons served hstep (htail.mono hnow)
          | inr hgoesOn' =>
              obtain ⟨-, rest', hrest', rfl⟩ := hgoesOn'
              refine .cons served hstep (htail.decryptLoop_right herase hnow ?_ hheld'
                (fun i => (hclock (i + 1)).cleanup_le)
                (fun b' hb' i => hmaxRight b' hb' (i + 1)) ?_ hrest')
              · rw [hprocessor']
                exact hencrypted
              · rw [hprocessor']
                exact hclosed
      | inr hgoesOn =>
          obtain ⟨-, rest, hrest, rfl⟩ := hgoesOn
          simp only [noteAll]
          cases hnext' with
          | inl hstops' =>
              obtain ⟨written', hwritten', rfl⟩ := hstops'
              obtain ⟨hclosed, -⟩ := hothers (.inr (by rw [hwritten']; simp))
              refine .cons served hstep (htail.decryptLoop_left herase hnow ?_ hheld hmaxTail ?_
                hrest)
              · rw [hprocessor]
                exact hencrypted
              · rw [hprocessor]
                exact hclosed
          | inr hgoesOn' =>
              obtain ⟨-, rest', hrest', rfl⟩ := hgoesOn'
              refine .cons served hstep (ih ?_ hheld hheld' ?_ (fun i => hclock (i + 1))
                hmaxTail ?_ hrest hrest')
              · rw [hprocessor]
                exact hencrypted
              · rw [hprocessor, hprocessor']
                exact ⟨plaintext₂, rfl⟩
              · rw [hprocessor]
                exact honeTail

end Aligned

/-- Every frame that a manager reported came no later than `CIPHER_EXPIRY` after
the same manager had reported a newer generation. -/
def Timely (attempt : Nat → ManagerClock) (reported : List (Option Nat)) (logs : List Log) :
    Prop :=
  ∀ i bigNonce log, reported[i]? = some (some bigNonce) → logs[i]? = some log →
    ∀ entry ∈ log, bigNonce / 2 ^ 24 < entry.1 / 2 ^ 24 →
      (attempt i).cleanup.time ≤ entry.2.time + cipherExpiry

namespace Aligned

open Decryptor

variable {gcm : AesGcm} {now now' : TimePoint} {as bs : List (CipherManager H)}
  {logs : List Log}

/-- **What the loop of the first run accepts in time, that of the second run
accepts.** -/
theorem accepts (herase : ErasesOne H) (h : Aligned now as logs bs) :
    ∀ {attempt : Nat → ManagerClock} {p : InboundFrameProcessor} {frameOut : Bytes}
      {sweep sweep' : Sweep H}, as.length = bs.length → p.encrypted = true → p.Split →
      (∀ i, (attempt i).Within now now') →
      (∀ a ∈ as, ∀ i, a.maxGeneration (attempt i).lifetime < 256) → OneKey gcm p as →
      decryptLoop gcm attempt as p frameOut = some sweep →
      decryptLoop gcm attempt bs p frameOut = some sweep' →
      Timely attempt sweep.reported logs → sweep.written ≠ none →
      sweep'.written = sweep.written ∧ sweep'.output = sweep.output := by
  induction h with
  | @rest as logs hwf hexpired hlen =>
      intro attempt p frameOut sweep sweep' hequal _ _ _ _ _ hsweep _ _ hwritten
      obtain rfl := List.length_eq_zero_iff.mp hequal
      obtain rfl := Option.some.inj hsweep
      exact absurd rfl hwritten
  | @cons a b log as bs logs served hhead htail ih =>
      intro attempt p frameOut sweep sweep' hequal hencrypted hsplit hclock hmax hone hsweep
        hsweep' htimely hwritten
      obtain ⟨hmaxHead, hmax⟩ := List.forall_mem_cons.mp hmax
      have honeTail : OneKey gcm p as := (List.pairwise_cons.mp hone).2
      obtain ⟨tried, htried, -⟩ := decryptLoop_cons hsweep
      obtain ⟨tried', htried', -⟩ := decryptLoop_cons hsweep'
      obtain ⟨hmanager, hreported, hcase⟩ :=
        decryptImpl_attempt hhead.left.wf hencrypted hsplit htried
      obtain ⟨-, -, hcase'⟩ := decryptImpl_attempt hhead.right.wf hencrypted hsplit htried'
      rw [hhead.base] at hcase'
      rcases hcase with ⟨hclosed, hprocessor, houtput, hnone⟩ |
        ⟨hfound, decrypted, written, hopen, hprocessor, hrec, hresult⟩
      · obtain ⟨rest, hrest, rfl⟩ := decryptLoop_of_none htried hnone hsweep
        rw [hprocessor, houtput] at hrest
        -- an older manager accepts the frame, so it does not open under this one
        have hopening : opening H gcm a.ratchet.base p = none := by
          cases hopening : opening H gcm a.ratchet.base p with
          | none => rfl
          | some decrypted =>
              have hclosedRest := hone.others (by rw [hopening]; rfl)
              have hrestNone : rest.written = none :=
                written_of_closed htail.wf hencrypted hsplit hclosedRest hrest
              exact absurd hrestNone hwritten
        rcases hcase' with ⟨-, hprocessor', houtput', hnone'⟩ | ⟨-, _, _, hopen', -⟩
        · obtain ⟨rest', hrest', rfl⟩ := decryptLoop_of_none htried' hnone' hsweep'
          rw [hprocessor', houtput'] at hrest'
          have htimelyRest : Timely (fun i => attempt (i + 1)) rest.reported logs := by
            intro i bigNonce log' hreported' hlog'
            exact htimely (i + 1) bigNonce log' hreported' hlog'
          have hboth : rest'.written = rest.written ∧ rest'.output = rest.output :=
            ih (by simpa using hequal) hencrypted hsplit (fun i => hclock (i + 1))
              (fun a' ha' i => hmax a' ha' (i + 1)) honeTail hrest hrest' htimelyRest hwritten
          exact hboth
        · rw [hopening] at hopen'
          exact absurd hopen' (by simp)
      · have hothers := hone.others (by rw [hopen]; rfl)
        rw [hopen, Option.isSome_some,
          Shadows.attempt_of_found herase hhead.left (hmaxHead 0) hfound] at hreported
        by_cases hzero : written = 0
        · -- the frame opened but was not written, and nobody else opens it
          rw [if_pos hzero] at hresult
          obtain ⟨rest, hrest, rfl⟩ := decryptLoop_of_none htried hresult hsweep
          obtain ⟨hheld, plaintext, hsame⟩ :=
            decryptImpl_processor hhead.left.wf hencrypted hsplit htried
          have hrestNone : rest.written = none := by
            apply written_of_closed htail.wf _ hheld _ hrest
            · rw [hsame]
              exact hencrypted
            · rw [hsame]
              exact hothers
          exact absurd hrestNone hwritten
        · rw [if_neg hzero] at hresult
          obtain rfl := decryptLoop_of_some htried hresult hsweep
          have hintime := htimely 0 p.truncatedNonce.toNat log (by simp [hreported]) rfl
          have hfound' := hhead.finds herase (hmaxHead 0) (hclock 0).cleanup_ge hintime hfound
          rcases hcase' with ⟨hclosed', -⟩ |
            ⟨-, decrypted', written', hopen', hprocessor', hrec', hresult'⟩
          · rcases hclosed' with hnone | hnone
            · rw [hnone] at hfound'
              exact absurd hfound' (by decide)
            · rw [hopen] at hnone
              exact absurd hnone (by simp)
          · obtain rfl := Option.some.inj (hopen.symm.trans hopen')
            rw [hprocessor', ← hprocessor, hrec] at hrec'
            obtain ⟨rfl, houtput⟩ := Prod.mk.inj (Option.some.inj hrec')
            rw [if_neg hzero] at hresult'
            obtain rfl := decryptLoop_of_some htried' hresult' hsweep'
            exact ⟨rfl, houtput.symm⟩

end Aligned

/-! ## The clean-up of the managers -/

/-- The readings of the clock after the first `n` managers were looked at. -/
def DecryptClock.skip (clock : DecryptClock) (n : Nat) : DecryptClock :=
  { clock with expired := fun i => clock.expired (i + n) }

namespace Decryptor

omit [HashRatchet H] [LawfulHashRatchet H] in
private theorem cleanup_append {extra : List (CipherManager H)} :
    ∀ {expired : Nat → Instant} (managers : List (CipherManager H)),
      (∀ m ∈ extra, ∀ i, m.isExpired (expired i) = true) →
      cleanupExpiredManagers expired (extra ++ managers) =
        cleanupExpiredManagers (fun i => expired (i + extra.length)) managers := by
  induction extra with
  | nil => exact fun _ _ => rfl
  | cons m extra ih =>
      intro expired managers hexpired
      obtain ⟨hhead, htail⟩ := List.forall_mem_cons.mp hexpired
      rw [List.cons_append, cleanupExpiredManagers, if_pos (hhead 0),
        ih managers (fun m' hm' i => htail m' hm' (i + 1))]
      simp only [List.length_cons, Nat.add_assoc]

omit [HashRatchet H] [LawfulHashRatchet H] in
/-- Managers that expire at the same times are dropped together. -/
private theorem cleanup_pair {ms ms' : List (CipherManager H)}
    (h : List.Forall₂ (fun m m' => m'.expiryTime = m.expiryTime) ms ms') :
    ∀ expired : Nat → Instant, ∃ k, cleanupExpiredManagers expired ms = ms.drop k ∧
      cleanupExpiredManagers expired ms' = ms'.drop k := by
  induction h with
  | nil => exact fun _ => ⟨0, rfl, rfl⟩
  | @cons m m' ms ms' hsame _ ih =>
      intro expired
      have hexpired : m'.isExpired (expired 0) = m.isExpired (expired 0) := by
        simp only [CipherManager.isExpired, hsame]
      rw [cleanupExpiredManagers, cleanupExpiredManagers, hexpired]
      split
      · obtain ⟨k, heq, heq'⟩ := ih (fun i => expired (i + 1))
        exact ⟨k + 1, by rw [heq, List.drop_succ_cons], by rw [heq', List.drop_succ_cons]⟩
      · exact ⟨0, rfl, rfl⟩

omit [HashRatchet H] [LawfulHashRatchet H] in
/-- What is dropped has expired. -/
private theorem cleanup_drop (managers : List (CipherManager H)) :
    ∀ expired : Nat → Instant, ∃ k, cleanupExpiredManagers expired managers = managers.drop k ∧
      ∀ m ∈ managers.take k, ∃ i, m.expiryTime < (expired i).time := by
  induction managers with
  | nil => exact fun _ => ⟨0, rfl, by simp⟩
  | cons m managers ih =>
      intro expired
      rw [cleanupExpiredManagers]
      split
      · next hexpired =>
          obtain ⟨k, heq, hdropped⟩ := ih (fun i => expired (i + 1))
          refine ⟨k + 1, by rw [heq, List.drop_succ_cons], ?_⟩
          rw [List.take_succ_cons, List.forall_mem_cons]
          refine ⟨⟨0, by simpa [CipherManager.isExpired] using hexpired⟩, ?_⟩
          intro m' hm'
          obtain ⟨i, hi⟩ := hdropped m' hm'
          exact ⟨i + 1, hi⟩
      · exact ⟨0, rfl, by simp⟩

end Decryptor

namespace Aligned

open Decryptor

variable {now now' : TimePoint} {as bs : List (CipherManager H)} {logs : List Log}
  {expired : Nat → Instant}

private theorem expiries (h : Aligned now as logs bs) :
    List.Forall₂ (fun a b => b.expiryTime = a.expiryTime) (as.take bs.length) bs ∧
      ∀ a ∈ as.drop bs.length, a.expiryTime < now := by
  induction h with
  | rest _ hexpired _ => exact ⟨.nil, hexpired⟩
  | cons _ hhead _ ih => exact ⟨.cons hhead.expires ih.1, ih.2⟩

/-- **Both runs clean up.**  The managers that only the first run has come
first, and they are dropped; then both look at the same managers. -/
theorem cleanup_both (h : Aligned now as logs bs) (hexpired : ∀ i, now ≤ (expired i).time) :
    ∃ n, n ≤ bs.length ∧ cleanupExpiredManagers expired as.reverse = (as.take n).reverse ∧
      cleanupExpiredManagers (fun i => expired (i + (as.length - bs.length))) bs.reverse =
        (bs.take n).reverse := by
  obtain ⟨hsame, hextra⟩ := h.expiries
  have hsplit : as.reverse = (as.drop bs.length).reverse ++ (as.take bs.length).reverse := by
    rw [← List.reverse_append, List.take_append_drop]
  have hlen : (as.take bs.length).length = bs.length := hsame.length_eq
  obtain ⟨k, hleft, hright⟩ := cleanup_pair (List.rel_reverse hsame)
    (fun i => expired (i + (as.length - bs.length)))
  refine ⟨bs.length - k, Nat.sub_le _ _, ?_, ?_⟩
  · rw [hsplit, cleanup_append, List.length_reverse, List.length_drop, hleft, List.drop_reverse,
      hlen, List.take_take, Nat.min_eq_left (Nat.sub_le _ _)]
    intro a ha i
    simp only [CipherManager.isExpired, decide_eq_true_eq]
    exact Int.lt_of_lt_of_le (hextra a (List.mem_reverse.mp ha)) (hexpired i)
  · rw [hright, List.drop_reverse]

/-- Only the second run cleans up. -/
theorem cleanup_right (h : Aligned now as logs bs) (hnow : now ≤ now')
    (hexpired : ∀ i, (expired i).time ≤ now') :
    Aligned now' as logs (cleanupExpiredManagers expired bs.reverse).reverse := by
  obtain ⟨k, heq, hdropped⟩ := cleanup_drop bs.reverse expired
  rw [heq, List.drop_reverse, List.reverse_reverse]
  apply (h.mono hnow).take_right (h.mono hnow).wf
  intro b hb
  rw [List.take_reverse] at hdropped
  obtain ⟨i, hi⟩ := hdropped b (List.mem_reverse.mpr hb)
  exact Int.lt_of_lt_of_le hi (hexpired i)

end Aligned

end Attempts

end Ekizu.Dave
