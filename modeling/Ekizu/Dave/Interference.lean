import Ekizu.Dave.Aligned

/-!
# Forged frames

Anybody can send a frame that looks encrypted.  Such a frame fails the AEAD
check, but before that its managers have been cleaned up, keys were deleted and
a cipher was cached for the generation it names.  Here two runs of a decryptor
process the same frames, and one of them forged frames as well.

## Main results

* `accepted_despite_forged` — what the first run accepts within `CIPHER_EXPIRY`
  of a change of generation, the second run accepts.
* `forged_frame_expires_generation` — later it need not.
-/

namespace Ekizu.Dave

open Lib.Span

variable {H : Type}

section Attempts

variable [HashRatchet H] [LawfulHashRatchet H]

/-! ## Calls -/

/-- The frame opens under the key that a base has for the generation it names. -/
def Opens (gcm : AesGcm) (m : CipherManager H) (frame : Bytes) : Prop :=
  ∃ p, ({} : InboundFrameProcessor).parseFrame frame = some p ∧ p.encrypted = true ∧
    (opening H gcm m.ratchet.base p).isSome = true

/-- The readings of a call lie between two points in time. -/
structure DecryptClock.Within (now now' : TimePoint) (clock : DecryptClock) : Prop where
  expired_ge : ∀ i, now ≤ (clock.expired i).time
  expired_le : ∀ i, (clock.expired i).time ≤ now'
  attempt : ∀ i, (clock.attempt i).Within now now'

/-- The lifetime of every manager keeps generations below 256. -/
def Bounded (clock : DecryptClock) (managers : List (CipherManager H)) : Prop :=
  ∀ m ∈ managers, ∀ i, m.maxGeneration (clock.attempt i).lifetime < 256

/-- The frame opens under at most one of the managers. -/
def Sealed (gcm : AesGcm) (frame : Bytes) (managers : List (CipherManager H)) : Prop :=
  managers.Pairwise fun m m' => ¬ (Opens gcm m frame ∧ Opens gcm m' frame)

theorem DecryptClock.Within.le {now now' : TimePoint} {clock : DecryptClock}
    (h : clock.Within now now') : now ≤ now' :=
  Int.le_trans (h.expired_ge 0) (h.expired_le 0)

private theorem oneKey_of_sealed {gcm : AesGcm} {frame : Bytes}
    {managers kept : List (CipherManager H)} {p₀ p : InboundFrameProcessor}
    (h : Sealed gcm frame managers) (hkept : kept.Sublist managers.reverse)
    (hparse : p₀.parseFrame frame = some p) (hencrypted : p.encrypted = true) :
    OneKey gcm p kept := by
  have hreversed := (List.pairwise_reverse.mpr h).sublist hkept
  apply hreversed.imp
  intro m m' hboth hopen
  have hparse' := InboundFrameProcessor.parseFrame_encrypted {} hparse hencrypted
  exact hboth ⟨⟨p, hparse', hencrypted, hopen.2⟩, ⟨p, hparse', hencrypted, hopen.1⟩⟩

namespace Decryptor

variable {gcm : AesGcm} {d : Decryptor H} {mediaType : MediaType} {clock : DecryptClock}
  {frame frameOut : Bytes} {call : Decryption H}

omit [LawfulHashRatchet H] in
/-- A call for a silence frame touches nothing. -/
private theorem decrypt_silence (hmedia : mediaType = .audio) (hframe : frame = opusSilencePacket)
    (h : d.decrypt gcm mediaType clock frame frameOut = some call) :
    call.decryptor.managers = d.managers ∧ call.reported = d.managers.map (fun _ => none) ∧
      write frameOut 0 frame = some call.output ∧ call.result = some frame.length := by
  obtain ⟨hmanagers, -⟩ := getOrCreateFrameProcessor_frame d
  unfold decrypt at h
  generalize d.getOrCreateFrameProcessor = taken at h hmanagers
  obtain ⟨p₀, d'⟩ := taken
  dsimp only at h hmanagers
  rw [if_pos ⟨hmedia, hframe⟩] at h
  obtain ⟨output, hwrite, h⟩ := Option.bind_eq_some_iff.mp h
  obtain rfl := Option.some.inj h
  exact ⟨hmanagers, by rw [hmanagers], hwrite, rfl⟩

omit [LawfulHashRatchet H] in
/-- A call for a frame that is neither silence nor encrypted. -/
private theorem decrypt_plain
    (hloud : ¬ (mediaType = .audio ∧ frame = opusSilencePacket))
    (hparse : ∀ p₀ p' : InboundFrameProcessor, p₀.parseFrame frame = some p' →
      p'.encrypted = false)
    (h : d.decrypt gcm mediaType clock frame frameOut = some call) :
    call.decryptor.managers = cleanupExpiredManagers clock.expired d.managers ∧
      call.reported = (cleanupExpiredManagers clock.expired d.managers).map (fun _ => none) ∧
      (call.result ≠ none → clock.now.time < d.allowPassthroughUntil ∧
        write frameOut 0 frame = some call.output ∧ call.result = some frame.length) := by
  cases (decrypt_cases h).1 with
  | silence hmedia hframe _ _ _ _ => exact absurd ⟨hmedia, hframe⟩ hloud
  | passthrough p₀ p _ _ hallowed hmanagers hreported hwrite hresult =>
      exact ⟨hmanagers, hreported, fun _ => ⟨hallowed, hwrite, hresult⟩⟩
  | refused p₀ p _ _ hmanagers hreported hresult =>
      exact ⟨hmanagers, hreported, fun hsome => absurd hresult hsome⟩
  | swept p₀ p sweep hp hencrypted _ _ _ _ _ =>
      rw [hparse p₀ p hp] at hencrypted
      exact absurd hencrypted (by decide)

omit [LawfulHashRatchet H] in
/-- A plain frame gets through before the deadline. -/
private theorem decrypt_passthrough
    (hloud : ¬ (mediaType = .audio ∧ frame = opusSilencePacket))
    (hparse : ∀ p₀ p' : InboundFrameProcessor, p₀.parseFrame frame = some p' →
      p'.encrypted = false) (hallowed : clock.now.time < d.allowPassthroughUntil)
    (h : d.decrypt gcm mediaType clock frame frameOut = some call) :
    write frameOut 0 frame = some call.output ∧ call.result = some frame.length := by
  obtain ⟨-, huntil⟩ := getOrCreateFrameProcessor_frame d
  unfold decrypt at h
  generalize d.getOrCreateFrameProcessor = taken at h huntil
  obtain ⟨p₀, d'⟩ := taken
  dsimp only at h huntil
  rw [if_neg hloud] at h
  unfold decryptWith at h
  simp only [Option.bind_eq_bind, huntil] at h
  obtain ⟨p, hp, h⟩ := Option.bind_eq_some_iff.mp h
  rw [if_pos ⟨hparse p₀ p hp, hallowed⟩] at h
  obtain ⟨output, hwrite, h⟩ := Option.bind_eq_some_iff.mp h
  obtain rfl := Option.some.inj h
  exact ⟨hwrite, rfl⟩

omit [LawfulHashRatchet H] in
/-- A call for an encrypted frame. -/
private theorem decrypt_encrypted {p₀ p : InboundFrameProcessor}
    (hparse : p₀.parseFrame frame = some p) (hencrypted : p.encrypted = true)
    (h : d.decrypt gcm mediaType clock frame frameOut = some call) :
    ∃ sweep, decryptLoop gcm clock.attempt
        (cleanupExpiredManagers clock.expired d.managers).reverse p frameOut = some sweep ∧
      call.decryptor.managers = sweep.managers.reverse ∧
      call.reported = sweep.reported.reverse ∧ call.output = sweep.output ∧
      call.result = sweep.written := by
  have hparsed : ∀ {p₁ p' : InboundFrameProcessor}, p₁.parseFrame frame = some p' → p' = p :=
    fun hp => Option.some.inj
      (hp.symm.trans (InboundFrameProcessor.parseFrame_encrypted _ hparse hencrypted))
  cases (decrypt_cases h).1 with
  | silence hmedia hframe _ _ _ _ =>
      rw [hframe] at hparse
      have hplain := InboundFrameProcessor.parseFrame_silence hparse
      rw [hencrypted] at hplain
      exact absurd hplain (by decide)
  | passthrough p₁ p' hp hplain _ _ _ _ _ =>
      rw [hparsed hp, hencrypted] at hplain
      exact absurd hplain (by decide)
  | refused p₁ p' hp hplain _ _ _ =>
      rw [hparsed hp, hencrypted] at hplain
      exact absurd hplain (by decide)
  | swept p₁ p' sweep hp _ hsweep hmanagers hreported houtput hresult =>
      rw [hparsed hp] at hsweep
      exact ⟨sweep, hsweep, hmanagers, hreported, houtput, hresult⟩

omit [LawfulHashRatchet H] in
/-- Calls return for what another decryptor accepted. -/
private theorem decrypt_returns (d' : Decryptor H) (clock' : DecryptClock)
    (h : d.decrypt gcm mediaType clock frame frameOut = some call)
    (haccepted : call.result ≠ none) :
    ∃ call', d'.decrypt gcm mediaType clock' frame frameOut = some call' := by
  by_cases hroom : frame.length ≤ frameOut.length
  · exact decrypt_isSome gcm d' mediaType clock' hroom
  have hfull : write frameOut 0 frame = none := if_neg (by omega)
  cases (decrypt_cases h).1 with
  | silence _ _ _ _ hwrite _ => simp [hfull] at hwrite
  | passthrough _ _ _ _ _ _ _ hwrite _ => simp [hfull] at hwrite
  | refused _ _ _ _ _ _ hresult => exact absurd hresult haccepted
  | swept p₁ p sweep hparse hencrypted _ _ _ _ _ =>
      have hloud : ¬ (mediaType = .audio ∧ frame = opusSilencePacket) := by
        intro hsilence
        rw [hsilence.2] at hparse
        have hplain := InboundFrameProcessor.parseFrame_silence hparse
        rw [hencrypted] at hplain
        exact absurd hplain (by decide)
      unfold decrypt
      generalize d'.getOrCreateFrameProcessor = taken
      obtain ⟨p₀, d''⟩ := taken
      dsimp only
      rw [if_neg hloud]
      have hparse' := InboundFrameProcessor.parseFrame_encrypted p₀ hparse hencrypted
      have hsplit := InboundFrameProcessor.split_of_parseFrame hparse hencrypted
      simp only [decryptWith, hparse', hencrypted, Option.bind_eq_bind, Option.bind_some,
        Bool.true_eq_false, false_and, if_false]
      obtain ⟨sweep', hsweep'⟩ := decryptLoop_isSome gcm
        (cleanupExpiredManagers clock'.expired d''.managers).reverse clock'.attempt frameOut hsplit
      rw [hsweep']
      exact ⟨_, rfl⟩

end Decryptor

/-! ## Two runs -/

/-- The decryptors of the two runs. -/
structure Beside (now : TimePoint) (d₁ d₂ : Decryptor H) (logs : List Log) : Prop where
  managers : Aligned now d₁.managers.reverse logs d₂.managers.reverse
  passthrough : d₂.allowPassthroughUntil = d₁.allowPassthroughUntil

namespace Beside

open Decryptor

variable {gcm : AesGcm} {now now' : TimePoint} {d₁ d₂ : Decryptor H} {logs : List Log}
  {mediaType : MediaType} {clock : DecryptClock} {frame frameOut : Bytes}

/-- Any frame is silence, plain or encrypted, whichever processor looks at it. -/
private theorem parsed (frame : Bytes) :
    (∀ p₀ p : InboundFrameProcessor, p₀.parseFrame frame = some p → p.encrypted = false) ∨
      ∃ p, ({} : InboundFrameProcessor).parseFrame frame = some p ∧ p.encrypted = true := by
  by_cases hsome : ∃ p, ({} : InboundFrameProcessor).parseFrame frame = some p ∧
      p.encrypted = true
  · exact .inr hsome
  · apply Or.inl
    intro p₀ p hparse
    cases hencrypted : p.encrypted with
    | false => rfl
    | true =>
        exact absurd ⟨p, InboundFrameProcessor.parseFrame_encrypted {} hparse hencrypted,
          hencrypted⟩ hsome

/-- The managers that both runs keep in a call. -/
private theorem kept (h : Beside now d₁ d₂ logs) (hclock : clock.Within now now') :
    ∃ as bs : List (CipherManager H), as.length = bs.length ∧
      cleanupExpiredManagers clock.expired d₁.managers = as.reverse ∧
      cleanupExpiredManagers (clock.skip (d₁.managers.length - d₂.managers.length)).expired
        d₂.managers = bs.reverse ∧
      as.Sublist d₁.managers.reverse ∧
      Aligned now as (logs.take as.length) bs := by
  obtain ⟨n, hn, hleft, hright⟩ := h.managers.cleanup_both hclock.expired_ge
  have hlonger := h.managers.length_le
  simp only [List.length_reverse] at hn hlonger
  simp only [List.reverse_reverse, List.length_reverse] at hleft hright
  refine ⟨d₁.managers.reverse.take n, d₂.managers.reverse.take n, ?_, hleft, hright,
    List.take_sublist _ _, ?_⟩
  · simp only [List.length_take, List.length_reverse]
    omega
  · have hlen : (d₁.managers.reverse.take n).length = n := by
      simp only [List.length_take, List.length_reverse]
      omega
    rw [hlen]
    exact h.managers.take n (by simpa using hn)

/-- **A frame that both runs process.** -/
theorem common (herase : ErasesOne H) (h : Beside now d₁ d₂ logs)
    (hclock : clock.Within now now') (hbounded : Bounded clock d₁.managers)
    (hsealed : Sealed gcm frame d₁.managers) {call₁ call₂ : Decryption H}
    (hcall₁ : d₁.decrypt gcm mediaType clock frame frameOut = some call₁)
    (hcall₂ : d₂.decrypt gcm mediaType
      (clock.skip (d₁.managers.length - d₂.managers.length)) frame frameOut = some call₂) :
    Beside now' call₁.decryptor call₂.decryptor
      (noteAll clock.attempt call₁.reported.reverse logs) := by
  have huntil : call₂.decryptor.allowPassthroughUntil = call₁.decryptor.allowPassthroughUntil :=
    ((decrypt_cases hcall₂).2.trans h.passthrough).trans (decrypt_cases hcall₁).2.symm
  refine ⟨?_, huntil⟩
  obtain ⟨as, bs, hequal, hleft, hright, hsub, hkept⟩ := h.kept hclock
  by_cases hsilence : mediaType = .audio ∧ frame = opusSilencePacket
  · obtain ⟨hmanagers₁, hreported, -⟩ := decrypt_silence hsilence.1 hsilence.2 hcall₁
    obtain ⟨hmanagers₂, -⟩ := decrypt_silence hsilence.1 hsilence.2 hcall₂
    rw [hmanagers₁, hmanagers₂, hreported, ← List.map_reverse,
      noteAll_none _ _ _ h.managers.length_logs]
    exact h.managers.mono hclock.le
  rcases parsed frame with hplain | ⟨p, hparse, hencrypted⟩
  · obtain ⟨hmanagers₁, hreported, -⟩ := decrypt_plain hsilence hplain hcall₁
    obtain ⟨hmanagers₂, -⟩ := decrypt_plain hsilence hplain hcall₂
    rw [hmanagers₁, hmanagers₂, hreported, hleft, hright, ← List.map_reverse,
      List.reverse_reverse, List.reverse_reverse, ← noteAll_take,
      List.length_map, noteAll_none _ _ _ hkept.length_logs]
    exact hkept.mono hclock.le
  · obtain ⟨sweep₁, hsweep₁, hmanagers₁, hreported, -⟩ :=
      decrypt_encrypted hparse hencrypted hcall₁
    obtain ⟨sweep₂, hsweep₂, hmanagers₂, -⟩ := decrypt_encrypted hparse hencrypted hcall₂
    have hsplit := InboundFrameProcessor.split_of_parseFrame hparse hencrypted
    rw [hleft, List.reverse_reverse] at hsweep₁
    rw [hright, List.reverse_reverse] at hsweep₂
    rw [hmanagers₁, hmanagers₂, hreported, List.reverse_reverse, List.reverse_reverse,
      List.reverse_reverse]
    have hlen := length_reported hsweep₁
    rw [← noteAll_take, hlen]
    apply hkept.decryptLoop_both herase hclock.le hencrypted hsplit hsplit ⟨p.plaintext, rfl⟩
      hclock.attempt _ _ hsweep₁ hsweep₂
    · intro a ha
      exact hbounded a (List.mem_reverse.mp (hsub.mem ha))
    · exact oneKey_of_sealed hsealed hsub hparse hencrypted

/-- **A forged frame**, which only the second run processes. -/
theorem forged (herase : ErasesOne H) (h : Beside now d₁ d₂ logs)
    (hclock : clock.Within now now') (hbounded : Bounded clock d₂.managers)
    (hforged : ∀ m ∈ d₂.managers, ¬ Opens gcm m frame) {call : Decryption H}
    (hcall : d₂.decrypt gcm mediaType clock frame frameOut = some call) :
    Beside now' d₁ call.decryptor logs := by
  refine ⟨?_, (decrypt_cases hcall).2.trans h.passthrough⟩
  have hcleaned := h.managers.cleanup_right hclock.le hclock.expired_le
  rw [List.reverse_reverse] at hcleaned
  by_cases hsilence : mediaType = .audio ∧ frame = opusSilencePacket
  · rw [(decrypt_silence hsilence.1 hsilence.2 hcall).1]
    exact h.managers.mono hclock.le
  rcases parsed frame with hplain | ⟨p, hparse, hencrypted⟩
  · rw [(decrypt_plain hsilence hplain hcall).1]
    exact hcleaned
  · obtain ⟨sweep, hsweep, hmanagers, -⟩ := decrypt_encrypted hparse hencrypted hcall
    have hsplit := InboundFrameProcessor.split_of_parseFrame hparse hencrypted
    obtain ⟨k, hk, hdrop⟩ := cleanupExpiredManagers_eq_drop d₂.managers clock.expired
    have hmem : ∀ b ∈ (cleanupExpiredManagers clock.expired d₂.managers).reverse,
        b ∈ d₂.managers := by
      intro b hb
      rw [hdrop, List.mem_reverse] at hb
      exact List.mem_of_mem_drop hb
    rw [hmanagers, List.reverse_reverse]
    apply hcleaned.decryptLoop_right herase (Int.le_refl now') hencrypted hsplit
      (fun i => (hclock.attempt i).cleanup_le) (fun b hb => hbounded b (hmem b hb)) _ hsweep
    intro b hb
    cases hopen : opening H gcm b.ratchet.base p with
    | none => rfl
    | some decrypted =>
        exact absurd ⟨p, hparse, hencrypted, by rw [hopen]; rfl⟩ (hforged b (hmem b hb))

/-- What the first run accepts in time, the second one accepts. -/
theorem accepts (herase : ErasesOne H) (h : Beside now d₁ d₂ logs)
    (hclock : clock.Within now now') (hbounded : Bounded clock d₁.managers)
    (hsealed : Sealed gcm frame d₁.managers) {call : Decryption H}
    (hcall : d₁.decrypt gcm mediaType clock frame frameOut = some call)
    (haccepted : call.result ≠ none) (htimely : Timely clock.attempt call.reported.reverse logs) :
    ∃ call', d₂.decrypt gcm mediaType (clock.skip (d₁.managers.length - d₂.managers.length))
        frame frameOut = some call' ∧
      call'.result = call.result ∧ call'.output = call.output := by
  obtain ⟨call', hcall'⟩ := decrypt_returns d₂
    (clock.skip (d₁.managers.length - d₂.managers.length)) hcall haccepted
  refine ⟨call', hcall', ?_⟩
  by_cases hsilence : mediaType = .audio ∧ frame = opusSilencePacket
  · obtain ⟨-, -, hwrite, hresult⟩ := decrypt_silence hsilence.1 hsilence.2 hcall
    obtain ⟨-, -, hwrite', hresult'⟩ := decrypt_silence hsilence.1 hsilence.2 hcall'
    exact ⟨hresult'.trans hresult.symm, Option.some.inj (hwrite'.symm.trans hwrite)⟩
  rcases parsed frame with hplain | ⟨p, hparse, hencrypted⟩
  · obtain ⟨hallowed, hwrite, hresult⟩ := (decrypt_plain hsilence hplain hcall).2.2 haccepted
    rw [← h.passthrough] at hallowed
    have hallowed : (clock.skip (d₁.managers.length - d₂.managers.length)).now.time <
      d₂.allowPassthroughUntil := hallowed
    obtain ⟨hwrite', hresult'⟩ := decrypt_passthrough hsilence hplain hallowed hcall'
    exact ⟨hresult'.trans hresult.symm, Option.some.inj (hwrite'.symm.trans hwrite)⟩
  · obtain ⟨as, bs, hequal, hleft, hright, hsub, hkept⟩ := h.kept hclock
    obtain ⟨sweep, hsweep, -, hreported, houtput, hresult⟩ :=
      decrypt_encrypted hparse hencrypted hcall
    obtain ⟨sweep', hsweep', -, -, houtput', hresult'⟩ :=
      decrypt_encrypted hparse hencrypted hcall'
    have hsplit := InboundFrameProcessor.split_of_parseFrame hparse hencrypted
    rw [hleft, List.reverse_reverse] at hsweep
    rw [hright, List.reverse_reverse] at hsweep'
    rw [hreported, List.reverse_reverse] at htimely
    rw [hresult] at haccepted
    have htimely' : Timely clock.attempt sweep.reported (logs.take as.length) := by
      intro i bigNonce log hrep hlog
      apply htimely i bigNonce log hrep
      rw [List.getElem?_take] at hlog
      split at hlog
      · exact hlog
      · exact absurd hlog (by simp)
    obtain ⟨hwritten, hsame⟩ := hkept.accepts herase hequal hencrypted hsplit hclock.attempt
      (fun a ha => hbounded a (List.mem_reverse.mp (hsub.mem ha)))
      (oneKey_of_sealed hsealed hsub hparse hencrypted) hsweep hsweep' htimely' haccepted
    rw [hresult, hresult', houtput, houtput']
    exact ⟨hwritten, hsame⟩

theorem transition (h : Beside now d₁ d₂ logs) (ratchet : Option (KeyRatchet H))
    (reading created : Instant) (expiry : Int) :
    Beside now (d₁.transitionToKeyRatchet ratchet reading created expiry)
      (d₂.transitionToKeyRatchet ratchet reading created expiry)
      (ratchet.toList.map (fun _ => []) ++ logs) := by
  have hupdated := h.managers.updateExpiry (reading.time + expiry)
  rw [List.map_reverse, List.map_reverse] at hupdated
  cases ratchet with
  | none => exact ⟨hupdated, h.passthrough⟩
  | some ratchet =>
      refine ⟨?_, h.passthrough⟩
      simp only [transitionToKeyRatchet, updateCryptorManagerExpiry, List.reverse_append,
        List.reverse_singleton, List.singleton_append, Option.toList_some, List.map_cons,
        List.map_nil]
      exact .cons _ (.new ratchet created now) hupdated

theorem passthroughMode (h : Beside now d₁ d₂ logs) (mode : Bool) (reading : Instant)
    (expiry : Int) :
    Beside now (d₁.transitionToPassthroughMode mode reading expiry)
      (d₂.transitionToPassthroughMode mode reading expiry) logs := by
  cases mode with
  | true => exact ⟨h.managers, rfl⟩
  | false => exact ⟨h.managers, congrArg (min · (reading.time + expiry)) h.passthrough⟩

end Beside

/-- **A pair of runs** of one decryptor, up to a point in time.  Both are given
the same ratchets and passthrough modes and process the same frames, each
manager being looked at at the same readings of the clock; the second run also
processes frames that open under none of its managers.  The logs say what the
managers of the first run have reported, newest manager first. -/
inductive Interfered (gcm : AesGcm) :
    TimePoint → Decryptor H → Decryptor H → List Log → Prop
  | start (now : TimePoint) : Interfered gcm now {} {} []
  | transition {now : TimePoint} {d₁ d₂ : Decryptor H} {logs : List Log}
      (ratchet : Option (KeyRatchet H)) (reading created : Instant) (expiry : Int) :
      Interfered gcm now d₁ d₂ logs →
      Interfered gcm now (d₁.transitionToKeyRatchet ratchet reading created expiry)
        (d₂.transitionToKeyRatchet ratchet reading created expiry)
        (ratchet.toList.map (fun _ => []) ++ logs)
  | passthrough {now : TimePoint} {d₁ d₂ : Decryptor H} {logs : List Log} (mode : Bool)
      (reading : Instant) (expiry : Int) :
      Interfered gcm now d₁ d₂ logs →
      Interfered gcm now (d₁.transitionToPassthroughMode mode reading expiry)
        (d₂.transitionToPassthroughMode mode reading expiry) logs
  | common {now now' : TimePoint} {d₁ d₂ : Decryptor H} {logs : List Log}
      {mediaType : MediaType} {clock : DecryptClock} {frame frameOut : Bytes}
      {call₁ call₂ : Decryption H} :
      Interfered gcm now d₁ d₂ logs → clock.Within now now' → Bounded clock d₁.managers →
      Sealed gcm frame d₁.managers →
      d₁.decrypt gcm mediaType clock frame frameOut = some call₁ →
      d₂.decrypt gcm mediaType (clock.skip (d₁.managers.length - d₂.managers.length)) frame
        frameOut = some call₂ →
      Interfered gcm now' call₁.decryptor call₂.decryptor
        (noteAll clock.attempt call₁.reported.reverse logs)
  | forged {now now' : TimePoint} {d₁ d₂ : Decryptor H} {logs : List Log}
      {mediaType : MediaType} {clock : DecryptClock} {frame frameOut : Bytes}
      {call : Decryption H} :
      Interfered gcm now d₁ d₂ logs → clock.Within now now' → Bounded clock d₂.managers →
      (∀ m ∈ d₂.managers, ¬ Opens gcm m frame) →
      d₂.decrypt gcm mediaType clock frame frameOut = some call →
      Interfered gcm now' d₁ call.decryptor logs

theorem Interfered.beside (herase : ErasesOne H) {gcm : AesGcm} {now : TimePoint}
    {d₁ d₂ : Decryptor H} {logs : List Log} (h : Interfered gcm now d₁ d₂ logs) :
    Beside now d₁ d₂ logs := by
  induction h with
  | start now => exact ⟨.rest (by simp) (by simp) rfl, rfl⟩
  | transition ratchet reading created expiry _ ih =>
      exact ih.transition ratchet reading created expiry
  | passthrough mode reading expiry _ ih => exact ih.passthroughMode mode reading expiry
  | common _ hclock hbounded hsealed hcall₁ hcall₂ ih =>
      exact ih.common herase hclock hbounded hsealed hcall₁ hcall₂
  | forged _ hclock hbounded hforged hcall ih =>
      exact ih.forged herase hclock hbounded hforged hcall

/-- **Forged frames do not deny service.**  A frame that the first run accepts
is accepted by the second one, with the same plaintext, unless it comes more
than `CIPHER_EXPIRY` after its manager reported a newer generation. -/
theorem accepted_despite_forged (herase : ErasesOne H) {gcm : AesGcm} {now now' : TimePoint}
    {d₁ d₂ : Decryptor H} {logs : List Log} (h : Interfered gcm now d₁ d₂ logs)
    {mediaType : MediaType} {clock : DecryptClock} {frame frameOut : Bytes}
    {call : Decryption H} (hclock : clock.Within now now')
    (hbounded : Bounded clock d₁.managers) (hsealed : Sealed gcm frame d₁.managers)
    (hcall : d₁.decrypt gcm mediaType clock frame frameOut = some call)
    (haccepted : call.result ≠ none)
    (htimely : Timely clock.attempt call.reported.reverse logs) :
    ∃ call', d₂.decrypt gcm mediaType (clock.skip (d₁.managers.length - d₂.managers.length))
        frame frameOut = some call' ∧
      call'.result = call.result ∧ call'.output = call.output := by
  exact (h.beside herase).accepts herase hclock hbounded hsealed hcall haccepted htimely

end Attempts

/-! ## A forged frame that makes a difference -/

open Decryptor

theorem erasesOne_chain : ErasesOne Chain := by
  intro r g g' hne hlive
  simp only [LawfulHashRatchet.live, HashRatchet.erase] at hlive ⊢
  split
  · simp only [List.mem_cons, not_or]
    exact ⟨hne, hlive⟩
  · exact hlive

/-- `sentAudioFrame` with a bit of the tag changed. -/
def forgedAudioFrame : Bytes :=
  [0xa3, 0xdf, 0x01, 0xe0, 0xc5, 0x5c, 0x40, 0x7f, 0x48, 0x8c, 0x9b, 0x90, 0x01, 0x0c, 0xfa,
    0xfa]

private theorem not_opens_forgedAudioFrame (m : CipherManager Chain) :
    ¬ Opens referenceGcm m forgedAudioFrame := by
  intro hopens
  obtain ⟨p, hparse, -, hopen⟩ := hopens
  have hparsed : (({} : InboundFrameProcessor).parseFrame forgedAudioFrame).map
      (fun p => (p.tag, p.ciphertext)) = some ([0xc5, 0x5c, 0x40, 0x7f, 0x48, 0x8c, 0x9b, 0x90],
        [0xa3, 0xdf, 0x01, 0xe0]) := by
    decide +kernel
  rw [hparse] at hparsed
  obtain ⟨htag, hciphertext⟩ := Prod.mk.inj (Option.some.inj hparsed)
  rw [opening, htag, hciphertext, AeadCipher.decrypt_append _ _ (by rfl),
    referenceGcm_refuses (by decide +kernel)] at hopen
  exact absurd hopen (by decide)

private theorem within_referenceClock : referenceClock.Within 0 0 :=
  ⟨fun _ => Int.le_refl 0, fun _ => Int.le_refl 0, fun _ =>
    ⟨Int.le_refl 0, Int.le_refl 0, Int.le_refl 0, Int.le_refl 0⟩⟩

private theorem bounded_referenceClock {managers : List (CipherManager Chain)}
    (h : (managers.all fun m => m.creationTime = 0) = true) :
    Bounded referenceClock managers := by
  intro m hm i
  have hcreated : m.creationTime = 0 := by simpa using List.all_eq_true.mp h m hm
  simp only [CipherManager.maxGeneration, hcreated, referenceClock]
  decide

/-- The forged frame is refused, the frame it was made from accepted. -/
theorem accepted_despite_forgedAudioFrame : ∃ refused accepted : Decryption Chain,
    referenceDecryptor.decrypt referenceGcm .audio referenceClock forgedAudioFrame [0, 0, 0, 0] =
      some refused ∧ refused.result = none ∧
    refused.decryptor.decrypt referenceGcm .audio
      (referenceClock.skip (referenceDecryptor.managers.length -
        refused.decryptor.managers.length)) sentAudioFrame [0, 0, 0, 0] = some accepted ∧
    accepted.result = some 4 ∧ accepted.output = audioFrame := by
  have hforged : (referenceDecryptor.decrypt referenceGcm .audio referenceClock forgedAudioFrame
      [0, 0, 0, 0]).map (·.result) = some none := by
    decide +kernel
  have hsent : (referenceDecryptor.decrypt referenceGcm .audio referenceClock sentAudioFrame
      [0, 0, 0, 0]).map (fun call => (call.result, call.output)) =
        some (some 4, audioFrame) := by
    decide +kernel
  obtain ⟨refused, hrefused, hresult⟩ := Option.map_eq_some_iff.mp hforged
  obtain ⟨call, hcall, hanswer⟩ := Option.map_eq_some_iff.mp hsent
  obtain ⟨hwritten, houtput⟩ := Prod.mk.inj hanswer
  have hbounded : Bounded referenceClock referenceDecryptor.managers :=
    bounded_referenceClock (by decide)
  have hrun : Interfered referenceGcm 0 referenceDecryptor refused.decryptor [[]] :=
    Interfered.forged
      (Interfered.transition (some (.mls (HashRatchet.ofSecret referenceSecret)))
        referenceInstant referenceInstant (seconds 10) (.start 0))
      within_referenceClock hbounded (fun m _ => not_opens_forgedAudioFrame m) hrefused
  have hone : Sealed referenceGcm sentAudioFrame referenceDecryptor.managers :=
    List.pairwise_singleton _ _
  have htimely : Timely referenceClock.attempt call.reported.reverse [[]] := by
    intro i bigNonce log _ hlog entry hentry
    cases i with
    | zero =>
        obtain rfl : [] = log := Option.some.inj hlog
        exact absurd hentry List.not_mem_nil
    | succ i => simp at hlog
  obtain ⟨accepted, haccepted, hsame, hsame'⟩ := accepted_despite_forged erasesOne_chain hrun
    within_referenceClock hbounded hone hcall (by rw [hwritten]; simp) htimely
  exact ⟨refused, accepted, hrefused, hresult, haccepted, hsame.trans hwritten,
    hsame'.trans houtput⟩

/-! ### A generation that expires early -/

/-- Frames of a sender that has got to its third generation. -/
def lateVectors : List GcmVector :=
  [ { key := referenceKey, nonce := nonceBuffer 0x2000000, additionalData := []
      plaintext := audioFrame
      ciphertext := [0x67, 0xe1, 0x84, 0x7b]
      tag := [0xa6, 0xb8, 0x06, 0x00, 0x82, 0xcc, 0xf4, 0xdf] },
    { key := referenceKey, nonce := nonceBuffer 0x1ffffff, additionalData := []
      plaintext := audioFrame
      ciphertext := [0x3f, 0x05, 0x5d, 0xfd]
      tag := [0x43, 0xea, 0x25, 0x6c, 0xec, 0x1d, 0xbd, 0x68] },
    { key := referenceKey, nonce := nonceBuffer 0x1fffffe, additionalData := []
      plaintext := audioFrame
      ciphertext := [0x0d, 0xef, 0x09, 0xee]
      tag := [0x8c, 0x7e, 0x5f, 0xf3, 0x14, 0x1d, 0xe1, 0xee] } ]

def lateGcm : AesGcm := referenceGcm.withVectors lateVectors (by decide +kernel)

private theorem seconds_nonneg (n : Nat) : TimePoint.min ≤ seconds n := by
  have hnonneg : 0 ≤ seconds n := Int.mul_nonneg (Int.natCast_nonneg n) (by decide)
  exact Int.le_trans (by decide) hnonneg

/-- A clock that stands still, a number of seconds after it was started. -/
def secondsClock (n : Nat) (hn : seconds n ≤ TimePoint.max) : DecryptClock :=
  let now : Instant := ⟨seconds n, seconds_nonneg n, hn⟩
  { expired := fun _ => now, now, attempt := fun _ => ⟨now, now, now, now⟩ }

/-- What a decryptor answers to frames, each given a buffer of its own size. -/
def answers [HashRatchet H] (gcm : AesGcm) (mediaType : MediaType) :
    Decryptor H → List (DecryptClock × Bytes) → List (Option Bytes)
  | _, [] => []
  | d, (clock, frame) :: calls =>
      match d.decrypt gcm mediaType clock frame (List.replicate frame.length 0) with
      | none => []
      | some call =>
          call.result.map (call.output.take ·) :: answers gcm mediaType call.decryptor calls

/-- A decryptor that was given the key itself, at the start of the clock. -/
def plainKeyDecryptor : Decryptor Chain :=
  ({} : Decryptor Chain).transitionToKeyRatchet (some (.simple referenceKey)) referenceInstant
    referenceInstant (seconds 10)

/-- The first frame of a sender, and 200000 seconds later the first of its
third generation. -/
def firstCall : DecryptClock × Bytes := (secondsClock 0 (by decide), sentAudioFrame)

def thirdGenerationCall : DecryptClock × Bytes :=
  (secondsClock 200000 (by decide),
    [0x67, 0xe1, 0x84, 0x7b, 0xa6, 0xb8, 0x06, 0x00, 0x82, 0xcc, 0xf4, 0xdf, 0x80, 0x80, 0x80,
      0x10, 0x0f, 0xfa, 0xfa])

/-- The last two frames of the second generation, overtaken by those of the
third one: they arrive 9 and 15 seconds after it. -/
def lateCalls : List (DecryptClock × Bytes) :=
  [(secondsClock 200009 (by decide),
      [0x3f, 0x05, 0x5d, 0xfd, 0x43, 0xea, 0x25, 0x6c, 0xec, 0x1d, 0xbd, 0x68, 0xff, 0xff, 0xff,
        0x0f, 0x0f, 0xfa, 0xfa]),
    (secondsClock 200015 (by decide),
      [0x0d, 0xef, 0x09, 0xee, 0x8c, 0x7e, 0x5f, 0xf3, 0x14, 0x1d, 0xe1, 0xee, 0xfe, 0xff, 0xff,
        0x0f, 0x0f, 0xfa, 0xfa])]

/-- A frame of the second generation with an arbitrary tag, a second before the
third generation begins. -/
def forgedCall : DecryptClock × Bytes :=
  (secondsClock 199999 (by decide),
    [0x3f, 0x05, 0x5d, 0xfd, 0xff, 0xff, 0xff, 0xff, 0xff, 0xff, 0xff, 0xff, 0xff, 0xff, 0xff,
      0x0f, 0x0f, 0xfa, 0xfa])

/-- **A forged frame can deny service.**  It passes under no key, but it has the
second generation cached before the third one begins; so that generation expires
ten seconds later, and not ten seconds after its first late frame. -/
theorem forged_frame_expires_generation :
    (∀ p, ({} : InboundFrameProcessor).parseFrame forgedCall.2 = some p → ∀ key : Bytes,
      (⟨key⟩ : AeadCipher).decrypt lateGcm (p.ciphertext ++ p.tag) p.authenticated
        (nonceBuffer p.truncatedNonce) = none) ∧
    (∀ call ∈ [firstCall, forgedCall, thirdGenerationCall] ++ lateCalls,
      Bounded call.1 plainKeyDecryptor.managers) ∧
    answers lateGcm .audio plainKeyDecryptor ([firstCall, thirdGenerationCall] ++ lateCalls) =
      [some audioFrame, some audioFrame, some audioFrame, some audioFrame] ∧
    answers lateGcm .audio plainKeyDecryptor
        ([firstCall, forgedCall, thirdGenerationCall] ++ lateCalls) =
      [some audioFrame, none, some audioFrame, some audioFrame, none] := by
  refine ⟨?_, ?_, by decide +kernel, by decide +kernel⟩
  · intro p hparse key
    have hparsed : (({} : InboundFrameProcessor).parseFrame forgedCall.2).map (·.tag) =
        some (List.replicate 8 0xff) := by
      decide +kernel
    rw [hparse] at hparsed
    have htag : p.tag = List.replicate 8 0xff := Option.some.inj hparsed
    rw [htag, AeadCipher.decrypt_append _ _ (by rfl)]
    exact referenceGcm.withVectors_refuses _ (by decide +kernel)
      (referenceGcm_refuses (by decide +kernel))
  · have hstill : ∀ (n : Nat) (hn : seconds n ≤ TimePoint.max),
        (∀ m ∈ plainKeyDecryptor.managers,
          m.maxGeneration ((secondsClock n hn).attempt 0).lifetime < 256) →
        Bounded (secondsClock n hn) plainKeyDecryptor.managers :=
      fun n hn hbound m hm _ => hbound m hm
    simp only [lateCalls, List.cons_append, List.nil_append, List.forall_mem_cons]
    exact ⟨hstill _ _ (by decide), hstill _ _ (by decide), hstill _ _ (by decide),
      hstill _ _ (by decide), hstill _ _ (by decide), by simp⟩

end Ekizu.Dave
