import Ekizu.Dave.CipherManager
import Ekizu.Dave.ParseFrame

/-!
# The decryptor

`src/dave/decryptor.cpp`, without its statistics.  A call answers `none` when
it would touch memory outside its buffers.  Besides what the source returns,
`decrypt` says which big nonce each manager reported, oldest manager first;
nothing in the code reads that list, the replay results are about it.

## Main results

* `decryptImpl_cases` — everything an attempt with one manager can do.
* `decrypt_cases` — the four ways a call ends.
* `decrypt_isSome` — a call with room for the frame returns.
* `verified_of_decrypt` — what is not silence and not let through was
  authenticated by a manager.
-/

namespace Ekizu.Dave

open Lib.Span

/-- `struct Decryptor`.  The managers are a queue: the oldest one is in front. -/
structure Decryptor (H : Type) where
  managers : List (CipherManager H) := []
  frameProcessors : List InboundFrameProcessor := []
  allowPassthroughUntil : TimePoint := TimePoint.min

/-- The readings of the clock during one `decrypt`: one for each manager that
`cleanup_expired_managers` looks at, one for the passthrough check, and those
of each attempt. -/
structure DecryptClock where
  expired : Nat → Instant
  now : Instant
  attempt : Nat → ManagerClock

/-- What `decrypt_impl` leaves: the manager, the frame processor, the output
buffer, the big nonce it reported and, when it returned `true`, the number of
bytes written. -/
structure Attempt (H : Type) where
  manager : CipherManager H
  processor : InboundFrameProcessor
  output : Bytes
  reported : Option Nat
  written : Option Nat

/-- What the loop over the managers leaves, newest manager first. -/
structure Sweep (H : Type) where
  managers : List (CipherManager H)
  processor : InboundFrameProcessor
  output : Bytes
  reported : List (Option Nat)
  written : Option Nat

/-- What `decrypt` leaves; `result = none` is `errc::bad_message`. -/
structure Decryption (H : Type) where
  decryptor : Decryptor H
  output : Bytes
  reported : List (Option Nat)
  result : Option Nat

namespace Decryptor

variable {H : Type}

/-- `update_cryptor_manager_expiry`. -/
def updateCryptorManagerExpiry (d : Decryptor H) (now : Instant) (expiry : Int) :
    Decryptor H :=
  { d with managers := d.managers.map (·.updateExpiry (now.time + expiry)) }

/-- `transition_to_key_ratchet`; a null pointer is `none`.  The new manager
reads the clock on its own. -/
def transitionToKeyRatchet (d : Decryptor H) (ratchet : Option (KeyRatchet H))
    (now created : Instant) (transitionExpiry : Int) : Decryptor H :=
  let d := d.updateCryptorManagerExpiry now transitionExpiry
  match ratchet with
  | some ratchet => { d with managers := d.managers ++ [.new ratchet created] }
  | none => d

/-- `transition_to_passthrough_mode`. -/
def transitionToPassthroughMode (d : Decryptor H) (passthroughMode : Bool) (now : Instant)
    (transitionExpiry : Int) : Decryptor H :=
  if passthroughMode then { d with allowPassthroughUntil := TimePoint.max }
  else
    { d with
      allowPassthroughUntil := min d.allowPassthroughUntil (now.time + transitionExpiry) }

/-- `cleanup_expired_managers`. -/
def cleanupExpiredManagers (expired : Nat → Instant) :
    List (CipherManager H) → List (CipherManager H)
  | [] => []
  | manager :: managers =>
      if manager.isExpired (expired 0) then
        cleanupExpiredManagers (fun i => expired (i + 1)) managers
      else manager :: managers

/-- `get_or_create_frame_processor`: the processor and the pool without it. -/
def getOrCreateFrameProcessor (d : Decryptor H) : InboundFrameProcessor × Decryptor H :=
  match d.frameProcessors.getLast? with
  | none => ({}, d)
  | some processor => (processor, { d with frameProcessors := d.frameProcessors.dropLast })

/-- `return_frame_processor`. -/
def returnFrameProcessor (d : Decryptor H) (processor : InboundFrameProcessor) :
    Decryptor H :=
  { d with frameProcessors := d.frameProcessors ++ [processor] }

variable [HashRatchet H]

/-- `decrypt_impl`.  The AEAD writes into the plaintext buffer before it checks
the tag; what a failed check leaves there is overwritten before it is read, so
the buffer is left as it was. -/
def decryptImpl (gcm : AesGcm) (manager : CipherManager H) (clock : ManagerClock)
    (p : InboundFrameProcessor) (frameOut : Bytes) : Option (Attempt H) :=
  if p.encrypted = false then some ⟨manager, p, frameOut, none, none⟩
  else
    let generation := manager.nonceGeneration p.truncatedNonce
    if manager.canProcessNonce generation p.truncatedNonce = false then
      some ⟨manager, p, frameOut, none, none⟩
    else
      match manager.getCipher clock generation with
      | (manager, none) => some ⟨manager, p, frameOut, none, none⟩
      | (manager, some cipher) =>
          match cipher.decrypt gcm (p.ciphertext ++ p.tag) p.authenticated
              (nonceBuffer p.truncatedNonce) with
          | none => some ⟨manager, p, frameOut, none, none⟩
          | some decrypted => do
              let plaintext ← write p.plaintext 0 decrypted
              let p := { p with plaintext }
              let manager :=
                manager.reportCipherSuccess clock.report generation p.truncatedNonce
              let (written, frameOut) ← p.reconstructFrame frameOut
              some ⟨manager, p, frameOut,
                some (computeWrappedBigNonce generation p.truncatedNonce),
                if written = 0 then none else some written⟩

/-- The loop of `decrypt` over the managers, given newest first. -/
def decryptLoop (gcm : AesGcm) (attempt : Nat → ManagerClock) :
    List (CipherManager H) → InboundFrameProcessor → Bytes → Option (Sweep H)
  | [], p, frameOut => some ⟨[], p, frameOut, [], none⟩
  | manager :: managers, p, frameOut => do
      let a ← decryptImpl gcm manager (attempt 0) p frameOut
      match a.written with
      | some written =>
          some ⟨a.manager :: managers, a.processor, a.output,
            a.reported :: managers.map fun _ => none, some written⟩
      | none =>
          let sweep ← decryptLoop gcm (fun i => attempt (i + 1)) managers a.processor a.output
          some { sweep with
            managers := a.manager :: sweep.managers
            reported := a.reported :: sweep.reported }

/-- `decrypt` with the frame processor it took from the pool. -/
def decryptWith (gcm : AesGcm) (d : Decryptor H) (p : InboundFrameProcessor)
    (clock : DecryptClock) (encryptedFrame frameOut : Bytes) : Option (Decryption H) := do
  let d := { d with managers := cleanupExpiredManagers clock.expired d.managers }
  let p ← p.parseFrame encryptedFrame
  let canPassthrough := clock.now.time < d.allowPassthroughUntil
  if p.encrypted = false ∧ canPassthrough then
    let frameOut ← write frameOut 0 encryptedFrame
    some ⟨d.returnFrameProcessor p, frameOut, d.managers.map fun _ => none,
      some encryptedFrame.length⟩
  else if p.encrypted = false then
    some ⟨d.returnFrameProcessor p, frameOut, d.managers.map fun _ => none, none⟩
  else
    let sweep ← decryptLoop gcm clock.attempt d.managers.reverse p frameOut
    let d := { d with managers := sweep.managers.reverse }
    some ⟨d.returnFrameProcessor sweep.processor, sweep.output, sweep.reported.reverse,
      sweep.written⟩

/-- `Decryptor::decrypt`. -/
def decrypt (gcm : AesGcm) (d : Decryptor H) (mediaType : MediaType) (clock : DecryptClock)
    (encryptedFrame frameOut : Bytes) : Option (Decryption H) :=
  let (p, d) := d.getOrCreateFrameProcessor
  if mediaType = .audio ∧ encryptedFrame = opusSilencePacket then do
    let frameOut ← write frameOut 0 encryptedFrame
    some ⟨d.returnFrameProcessor p, frameOut, d.managers.map fun _ => none,
      some encryptedFrame.length⟩
  else d.decryptWith gcm p clock encryptedFrame frameOut

/-! ## What an attempt can do -/

section Cases

variable {gcm : AesGcm} {manager : CipherManager H} {clock : ManagerClock}
  {p : InboundFrameProcessor} {frameOut : Bytes} {a : Attempt H}

/-- An attempt that passed the AEAD: the nonce was admitted, the cipher was
found, the tag was right, and the nonce was reported. -/
structure Opened (gcm : AesGcm) (manager : CipherManager H) (clock : ManagerClock)
    (p : InboundFrameProcessor) (frameOut : Bytes) (a : Attempt H) (cipher : AeadCipher)
    (decrypted : Bytes) (written : Nat) : Prop where
  encrypted : p.encrypted = true
  admitted :
    manager.canProcessNonce (manager.nonceGeneration p.truncatedNonce) p.truncatedNonce = true
  found : (manager.getCipher clock (manager.nonceGeneration p.truncatedNonce)).2 = some cipher
  opened : cipher.decrypt gcm (p.ciphertext ++ p.tag) p.authenticated
    (nonceBuffer p.truncatedNonce) = some decrypted
  stored : write p.plaintext 0 decrypted = some a.processor.plaintext
  processor_eq : a.processor = { p with plaintext := a.processor.plaintext }
  manager_eq : a.manager =
    (manager.getCipher clock (manager.nonceGeneration p.truncatedNonce)).1.reportCipherSuccess
      clock.report (manager.nonceGeneration p.truncatedNonce) p.truncatedNonce
  reported_eq : a.reported =
    some (computeWrappedBigNonce (manager.nonceGeneration p.truncatedNonce) p.truncatedNonce)
  reconstructed : a.processor.reconstructFrame frameOut = some (written, a.output)
  written_eq : a.written = if written = 0 then none else some written

/-- **Every attempt** either gives up without reporting anything, having at
most asked for a cipher, or has opened the frame. -/
theorem decryptImpl_cases (h : decryptImpl gcm manager clock p frameOut = some a) :
    (a.reported = none ∧ a.written = none ∧ a.processor = p ∧ a.output = frameOut ∧
      (a.manager = manager ∨
        a.manager = (manager.getCipher clock (manager.nonceGeneration p.truncatedNonce)).1)) ∨
    ∃ cipher decrypted written, Opened gcm manager clock p frameOut a cipher decrypted
      written := by
  unfold decryptImpl at h
  split at h
  · obtain rfl := Option.some.inj h
    exact .inl ⟨rfl, rfl, rfl, rfl, .inl rfl⟩
  · next henc =>
      dsimp only at h
      split at h
      · obtain rfl := Option.some.inj h
        exact .inl ⟨rfl, rfl, rfl, rfl, .inl rfl⟩
      · next hadmitted =>
          split at h
          · next manager' hfind =>
              obtain rfl := Option.some.inj h
              exact .inl ⟨rfl, rfl, rfl, rfl, .inr (by rw [hfind])⟩
          · next manager' cipher hfind =>
              split at h
              · obtain rfl := Option.some.inj h
                exact .inl ⟨rfl, rfl, rfl, rfl, .inr (by rw [hfind])⟩
              · next decrypted hopen =>
                  simp only [Option.bind_eq_bind] at h
                  obtain ⟨plaintext, hstore, h⟩ := Option.bind_eq_some_iff.mp h
                  obtain ⟨⟨written, output⟩, hrec, h⟩ := Option.bind_eq_some_iff.mp h
                  obtain rfl := Option.some.inj h
                  exact .inr ⟨cipher, decrypted, written, by simpa using henc,
                    by simpa using hadmitted, by rw [hfind], hopen, hstore, rfl,
                    by rw [hfind], rfl, hrec, rfl⟩

/-- An attempt leaves the manager as it was, or asks it for a cipher, or reports success to
it as well. -/
theorem manager_decryptImpl (h : decryptImpl gcm manager clock p frameOut = some a) :
    a.manager = manager ∨
      a.manager = (manager.getCipher clock (manager.nonceGeneration p.truncatedNonce)).1 ∨
      a.manager =
        (manager.getCipher clock (manager.nonceGeneration p.truncatedNonce)).1.reportCipherSuccess
          clock.report (manager.nonceGeneration p.truncatedNonce) p.truncatedNonce := by
  cases decryptImpl_cases h with
  | inl hgivesUp =>
      cases hgivesUp.2.2.2.2 with
      | inl hsame => exact .inl hsame
      | inr hasked => exact .inr (.inl hasked)
  | inr hopens =>
      obtain ⟨cipher, decrypted, written, hopen⟩ := hopens
      exact .inr (.inr hopen.manager_eq)

variable {attempt : Nat → ManagerClock} {managers : List (CipherManager H)} {sweep : Sweep H}

/-- **The loop** tries the first manager, and goes on to the others where that wrote
nothing. -/
theorem decryptLoop_cons
    (h : decryptLoop gcm attempt (manager :: managers) p frameOut = some sweep) :
    ∃ a, decryptImpl gcm manager (attempt 0) p frameOut = some a ∧
      ((∃ written, a.written = some written ∧
          sweep = ⟨a.manager :: managers, a.processor, a.output,
            a.reported :: managers.map fun _ => none, some written⟩) ∨
        a.written = none ∧ ∃ rest,
          decryptLoop gcm (fun i => attempt (i + 1)) managers a.processor a.output = some rest ∧
          sweep = { rest with
            managers := a.manager :: rest.managers
            reported := a.reported :: rest.reported }) := by
  unfold decryptLoop at h
  obtain ⟨a, ha, h⟩ := Option.bind_eq_some_iff.mp h
  refine ⟨a, ha, ?_⟩
  split at h
  · next written hwritten => exact .inl ⟨written, hwritten, (Option.some.inj h).symm⟩
  · next hnone =>
      obtain ⟨rest, hrest, h⟩ := Option.bind_eq_some_iff.mp h
      exact .inr ⟨hnone, rest, hrest, (Option.some.inj h).symm⟩

/-- The loop after an attempt that wrote nothing. -/
theorem decryptLoop_of_none (ha : decryptImpl gcm manager (attempt 0) p frameOut = some a)
    (hnone : a.written = none)
    (h : decryptLoop gcm attempt (manager :: managers) p frameOut = some sweep) :
    ∃ rest, decryptLoop gcm (fun i => attempt (i + 1)) managers a.processor a.output =
        some rest ∧
      sweep = { rest with
        managers := a.manager :: rest.managers
        reported := a.reported :: rest.reported } := by
  obtain ⟨a', ha', hcase⟩ := decryptLoop_cons h
  obtain rfl := Option.some.inj (ha.symm.trans ha')
  cases hcase with
  | inl hstops =>
      obtain ⟨written, hwritten, -⟩ := hstops
      exact absurd (hnone.symm.trans hwritten) (by simp)
  | inr hgoesOn => exact hgoesOn.2

/-- The loop after an attempt that wrote the frame. -/
theorem decryptLoop_of_some {written : Nat}
    (ha : decryptImpl gcm manager (attempt 0) p frameOut = some a)
    (hsome : a.written = some written)
    (h : decryptLoop gcm attempt (manager :: managers) p frameOut = some sweep) :
    sweep = ⟨a.manager :: managers, a.processor, a.output,
      a.reported :: managers.map fun _ => none, some written⟩ := by
  obtain ⟨a', ha', hcase⟩ := decryptLoop_cons h
  obtain rfl := Option.some.inj (ha.symm.trans ha')
  cases hcase with
  | inl hstops =>
      obtain ⟨written', hwritten, hsweep⟩ := hstops
      rwa [← Option.some.inj (hsome.symm.trans hwritten)] at hsweep
  | inr hgoesOn => exact absurd (hsome.symm.trans hgoesOn.1) (by simp)

end Cases

/-- The four ways a call ends: a silence frame, an accepted and a refused
plaintext frame, and the loop over the managers. -/
inductive Ending (gcm : AesGcm) (d : Decryptor H) (mediaType : MediaType)
    (clock : DecryptClock) (frame frameOut : Bytes) (call : Decryption H) : Prop
  | silence (hmedia : mediaType = .audio) (hframe : frame = opusSilencePacket)
      (hmanagers : call.decryptor.managers = d.managers)
      (hreported : call.reported = d.managers.map fun _ => none)
      (hwrite : write frameOut 0 frame = some call.output)
      (hresult : call.result = some frame.length)
  | passthrough (p₀ p : InboundFrameProcessor) (hparse : p₀.parseFrame frame = some p)
      (hplain : p.encrypted = false) (hallowed : clock.now.time < d.allowPassthroughUntil)
      (hmanagers : call.decryptor.managers = cleanupExpiredManagers clock.expired d.managers)
      (hreported : call.reported =
        (cleanupExpiredManagers clock.expired d.managers).map fun _ => none)
      (hwrite : write frameOut 0 frame = some call.output)
      (hresult : call.result = some frame.length)
  | refused (p₀ p : InboundFrameProcessor) (hparse : p₀.parseFrame frame = some p)
      (hplain : p.encrypted = false)
      (hmanagers : call.decryptor.managers = cleanupExpiredManagers clock.expired d.managers)
      (hreported : call.reported =
        (cleanupExpiredManagers clock.expired d.managers).map fun _ => none)
      (hresult : call.result = none)
  | swept (p₀ p : InboundFrameProcessor) (sweep : Sweep H)
      (hparse : p₀.parseFrame frame = some p) (hencrypted : p.encrypted = true)
      (hsweep : decryptLoop gcm clock.attempt
        (cleanupExpiredManagers clock.expired d.managers).reverse p frameOut = some sweep)
      (hmanagers : call.decryptor.managers = sweep.managers.reverse)
      (hreported : call.reported = sweep.reported.reverse)
      (houtput : call.output = sweep.output) (hresult : call.result = sweep.written)

omit [HashRatchet H] in
theorem getOrCreateFrameProcessor_frame (d : Decryptor H) :
    d.getOrCreateFrameProcessor.2.managers = d.managers ∧
      d.getOrCreateFrameProcessor.2.allowPassthroughUntil = d.allowPassthroughUntil := by
  unfold getOrCreateFrameProcessor
  split <;> exact ⟨rfl, rfl⟩

/-- **Every call** ends in one of the four ways, and none of them moves the
passthrough deadline. -/
theorem decrypt_cases {gcm : AesGcm} {d : Decryptor H} {mediaType : MediaType}
    {clock : DecryptClock} {frame frameOut : Bytes} {call : Decryption H}
    (h : d.decrypt gcm mediaType clock frame frameOut = some call) :
    Ending gcm d mediaType clock frame frameOut call ∧
      call.decryptor.allowPassthroughUntil = d.allowPassthroughUntil := by
  obtain ⟨hmanagers, huntil⟩ := getOrCreateFrameProcessor_frame d
  unfold decrypt at h
  generalize d.getOrCreateFrameProcessor = taken at h hmanagers huntil
  obtain ⟨p₀, d'⟩ := taken
  dsimp only at h hmanagers huntil
  split at h
  · next hsilence =>
      obtain ⟨output, hwrite, h⟩ := Option.bind_eq_some_iff.mp h
      obtain rfl := Option.some.inj h
      exact ⟨.silence hsilence.1 hsilence.2 hmanagers (by rw [hmanagers]) hwrite rfl, huntil⟩
  · unfold decryptWith at h
    simp only [Option.bind_eq_bind, hmanagers, huntil] at h
    obtain ⟨p, hparse, h⟩ := Option.bind_eq_some_iff.mp h
    split at h
    · next hplain =>
        obtain ⟨output, hwrite, h⟩ := Option.bind_eq_some_iff.mp h
        obtain rfl := Option.some.inj h
        exact ⟨.passthrough p₀ p hparse hplain.1 hplain.2 rfl rfl hwrite rfl, rfl⟩
    · split at h
      · next hplain =>
          obtain rfl := Option.some.inj h
          exact ⟨.refused p₀ p hparse hplain rfl rfl rfl, rfl⟩
      · next hencrypted =>
          obtain ⟨sweep, hsweep, h⟩ := Option.bind_eq_some_iff.mp h
          obtain rfl := Option.some.inj h
          exact ⟨.swept p₀ p sweep hparse (by simpa using hencrypted) hsweep rfl rfl rfl rfl,
            rfl⟩

/-! ## Calls return -/

/-- An attempt on an accepted frame returns, and leaves one. -/
theorem decryptImpl_isSome (gcm : AesGcm) (manager : CipherManager H) (clock : ManagerClock)
    (frameOut : Bytes) {p : InboundFrameProcessor} (hsplit : p.Split) :
    ∃ a, decryptImpl gcm manager clock p frameOut = some a ∧ a.processor.Split ∧
      a.output.length = frameOut.length := by
  unfold decryptImpl
  split
  · exact ⟨_, rfl, hsplit, rfl⟩
  · dsimp only
    split
    · exact ⟨_, rfl, hsplit, rfl⟩
    · split
      · exact ⟨_, rfl, hsplit, rfl⟩
      · next manager' cipher _ =>
          split
          · exact ⟨_, rfl, hsplit, rfl⟩
          · next decrypted hopen =>
              -- the plaintext has the size of the ciphertext, so it fits its buffer
              rw [AeadCipher.decrypt_append gcm cipher hsplit.tag] at hopen
              have hlen : 0 + decrypted.length ≤ p.plaintext.length := by
                rw [gcm.gcmDecrypt_length hopen, hsplit.plaintext]
                omega
              obtain ⟨plaintext, hwrite⟩ : ∃ plaintext, write p.plaintext 0 decrypted =
                  some plaintext := ⟨_, write_of_le hlen⟩
              have hwritten : ({ p with plaintext } : InboundFrameProcessor).Split :=
                ⟨hsplit.tag, hsplit.ordered, hsplit.inside, hsplit.gaps_le,
                  (write_length hwrite).trans hsplit.plaintext⟩
              obtain ⟨n, output, hrec, hout⟩ := hwritten.reconstructFrame frameOut
              simp only [hwrite, Option.bind_eq_bind, Option.bind_some, hrec]
              exact ⟨_, rfl, hwritten, hout⟩

theorem decryptLoop_isSome (gcm : AesGcm) (managers : List (CipherManager H)) :
    ∀ (attempt : Nat → ManagerClock) (frameOut : Bytes) {p : InboundFrameProcessor},
      p.Split → ∃ sweep, decryptLoop gcm attempt managers p frameOut = some sweep := by
  induction managers with
  | nil => exact fun _ _ _ _ => ⟨_, rfl⟩
  | cons manager managers ih =>
      intro attempt frameOut p hsplit
      obtain ⟨a, ha, hsplit', -⟩ := decryptImpl_isSome gcm manager (attempt 0) frameOut hsplit
      rw [decryptLoop, ha, Option.bind_eq_bind, Option.bind_some]
      split
      · exact ⟨_, rfl⟩
      · obtain ⟨sweep, hsweep⟩ := ih (fun i => attempt (i + 1)) a.output hsplit'
        rw [hsweep]
        exact ⟨_, rfl⟩

/-- **Every call returns**, if there is room for the frame. -/
theorem decrypt_isSome (gcm : AesGcm) (d : Decryptor H) (mediaType : MediaType)
    (clock : DecryptClock) {frame frameOut : Bytes} (hroom : frame.length ≤ frameOut.length) :
    ∃ call, d.decrypt gcm mediaType clock frame frameOut = some call := by
  obtain ⟨output, hwrite⟩ : ∃ output, write frameOut 0 frame = some output :=
    ⟨_, write_of_le (by omega)⟩
  unfold decrypt
  generalize d.getOrCreateFrameProcessor = taken
  obtain ⟨p₀, d'⟩ := taken
  dsimp only
  split
  · rw [hwrite]
    exact ⟨_, rfl⟩
  · obtain ⟨p, hparse⟩ : ∃ p, p₀.parseFrame frame = some p :=
      ⟨_, InboundFrameProcessor.parseFrame_eq p₀ frame⟩
    simp only [decryptWith, hparse, Option.bind_eq_bind, Option.bind_some]
    split
    · rw [hwrite]
      exact ⟨_, rfl⟩
    · split
      · exact ⟨_, rfl⟩
      · next hencrypted =>
          obtain ⟨sweep, hsweep⟩ := decryptLoop_isSome gcm
            (cleanupExpiredManagers clock.expired d'.managers).reverse clock.attempt frameOut
            (InboundFrameProcessor.split_of_parseFrame hparse (by simpa using hencrypted))
          rw [hsweep]
          exact ⟨_, rfl⟩

/-! ## What a call answers -/

/-- One of the managers authenticated the frame, and the call answers what the
frame was reconstructed to from the decrypted bytes. -/
def Verified (gcm : AesGcm) (d : Decryptor H) (frame : Bytes) (call : Decryption H) : Prop :=
  ∃ manager ∈ d.managers, ∃ clock p₀ p plaintext frameOut a cipher decrypted written,
    InboundFrameProcessor.parseFrame p₀ frame = some p ∧
    Opened gcm manager clock { p with plaintext } frameOut a cipher decrypted written ∧
    call.output = a.output ∧ call.result = a.written

/-- Where the loop succeeds, one of the attempts has opened the frame. -/
private theorem opened_of_decryptLoop {gcm : AesGcm} {managers : List (CipherManager H)} :
    ∀ {attempt : Nat → ManagerClock} {p : InboundFrameProcessor} {frameOut : Bytes}
      {sweep : Sweep H}, decryptLoop gcm attempt managers p frameOut = some sweep →
      sweep.written ≠ none →
      ∃ manager ∈ managers, ∃ clock plaintext output a cipher decrypted written,
        Opened gcm manager clock { p with plaintext } output a cipher decrypted written ∧
        sweep.output = a.output ∧ sweep.written = a.written := by
  induction managers with
  | nil =>
      intro attempt p frameOut sweep hsweep hwritten
      obtain rfl := Option.some.inj hsweep
      exact absurd rfl hwritten
  | cons manager managers ih =>
      intro attempt p frameOut sweep hsweep hwritten
      obtain ⟨a, ha, hnext⟩ := decryptLoop_cons hsweep
      have hcases := decryptImpl_cases ha
      cases hnext with
      | inl hstops =>
          obtain ⟨n, hn, rfl⟩ := hstops
          rcases hcases with ⟨-, hnone, -⟩ | ⟨cipher, decrypted, written, hopen⟩
          · rw [hn] at hnone
            exact absurd hnone (Option.some_ne_none n)
          · exact ⟨manager, List.mem_cons_self, attempt 0, p.plaintext, frameOut, a, cipher,
              decrypted, written, hopen, rfl, hn.symm⟩
      | inr hgoesOn =>
          obtain ⟨-, rest, hrest, rfl⟩ := hgoesOn
          obtain ⟨manager', hmem, clock, plaintext, output, a', cipher, decrypted, written, hopen,
            houtput, hwritten'⟩ := ih hrest hwritten
          -- an attempt changes nothing of the parsed frame but the plaintext buffer
          have hprocessor : ∃ buffer, a.processor = { p with plaintext := buffer } := by
            rcases hcases with ⟨-, -, hprocessor, -⟩ | ⟨_, _, _, hopen'⟩
            · exact ⟨p.plaintext, hprocessor⟩
            · exact ⟨_, hopen'.processor_eq⟩
          obtain ⟨buffer, hbuffer⟩ := hprocessor
          rw [hbuffer] at hopen
          exact ⟨manager', List.mem_cons_of_mem _ hmem, clock, plaintext, output, a', cipher,
            decrypted, written, hopen, houtput, hwritten'⟩

omit [HashRatchet H] in
/-- Only managers at the front of the queue are dropped. -/
theorem cleanupExpiredManagers_eq_drop (managers : List (CipherManager H)) :
    ∀ expired : Nat → Instant, ∃ k, k ≤ managers.length ∧
      cleanupExpiredManagers expired managers = managers.drop k := by
  induction managers with
  | nil => exact fun _ => ⟨0, Nat.le_refl _, rfl⟩
  | cons manager managers ih =>
      intro expired
      unfold cleanupExpiredManagers
      split
      · obtain ⟨k, hk, heq⟩ := ih (fun i => expired (i + 1))
        exact ⟨k + 1, by simp [hk], by simp [heq]⟩
      · exact ⟨0, Nat.zero_le _, rfl⟩

/-- **Nothing else gets through.**  A call that answers something was given the
silence packet, or was made before the passthrough deadline, or has verified
the frame. -/
theorem verified_of_decrypt {gcm : AesGcm} {d : Decryptor H} {mediaType : MediaType}
    {clock : DecryptClock} {frame frameOut : Bytes} {call : Decryption H}
    (h : d.decrypt gcm mediaType clock frame frameOut = some call) (hresult : call.result ≠ none) :
    frame = opusSilencePacket ∨ clock.now.time < d.allowPassthroughUntil ∨
      Verified gcm d frame call := by
  cases (decrypt_cases h).1 with
  | silence _ hframe => exact .inl hframe
  | passthrough p₀ p _ _ hallowed => exact .inr (.inl hallowed)
  | refused p₀ p _ _ _ _ hnone => exact absurd hnone hresult
  | swept p₀ p sweep hparse _ hsweep _ _ houtput hwritten =>
      obtain ⟨manager, hmem, clock', plaintext, output, a, cipher, decrypted, written, hopen,
        houtput', hwritten'⟩ := opened_of_decryptLoop hsweep (hwritten ▸ hresult)
      refine .inr (.inr ⟨manager, ?_, clock', p₀, p, plaintext, output, a, cipher, decrypted,
        written, hparse, hopen, houtput.trans houtput', hwritten.trans hwritten'⟩)
      obtain ⟨k, -, hdrop⟩ := cleanupExpiredManagers_eq_drop d.managers clock.expired
      rw [hdrop, List.mem_reverse] at hmem
      exact List.mem_of_mem_drop hmem

end Decryptor

end Ekizu.Dave
