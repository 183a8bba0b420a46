import Ekizu.Dave.FrameRoundTrip
import Ekizu.Dave.Interference
import Ekizu.Dave.SoleManager

/-!
# One sender and one receiver

An encryptor and a decryptor with the same ratchet, and a network between them that
loses, delays, reorders and repeats frames and brings frames that do not open.  What
the receiver makes of a frame is told by the nonces it has taken before.

## Main results

* `Sole.receive` — what a call of the decryptor does to its manager.
* `Channel.Linked` and its preservation — the invariant of a run.
* `Channel.Reachable.delivers` — which frames are taken, and what is written for them.
-/

namespace Ekizu.Dave

open Lib.Span
open Lib.Segments
open Lib.ReplayWindow

variable {H : Type} [HashRatchet H]

/-! ## The keys of an encryptor -/

namespace Encryptor

/-- The cached cipher has a key. -/
def Keyed (e : Encryptor H) : Prop := ∀ cryptor, e.cryptor = some cryptor → cryptor.key ≠ []

theorem Keyed.rotateKey {e : Encryptor H} (h : e.Keyed) (ratchet : KeyRatchet H)
    (generation : UInt8) : (e.rotateKey ratchet generation).1.Keyed := by
  unfold Encryptor.rotateKey
  split
  · dsimp only
    split
    · exact h
    · next hkey =>
        intro cryptor hcryptor
        obtain rfl := Option.some.inj hcryptor
        exact hkey
  · exact h

theorem Keyed.encrypt {e e' : Encryptor H} (h : e.Keyed) {gcm : AesGcm} {mediaType : MediaType}
    {ssrc : UInt32} {frame out : Bytes} {result : Except DaveError (Nat × Bytes)}
    (hpass : e.passthroughMode = false)
    (hcall : e.encrypt gcm mediaType ssrc frame out = some (e', result)) : e'.Keyed := by
  rcases encrypt_rotate hpass hcall with ⟨-, rfl, -⟩ | ⟨ratchet, p, -, -, hcase⟩
  · exact h
  have hkeyed : ({ e with
      frameProcessor := p
      truncatedNonce := e.truncatedNonce + 1 } : Encryptor H).Keyed := h
  rcases hcase with ⟨-, rfl, -⟩ | ⟨cryptor, -, hframe⟩
  · exact hkeyed.rotateKey ratchet _
  · obtain ⟨q, rfl⟩ := encryptFrame_frame hframe
    exact hkeyed.rotateKey ratchet _

end Encryptor

variable [LawfulHashRatchet H]

/-! ## Frames on their way -/

/-- A frame that was sent, with its nonce and what was sealed in it. -/
structure Packet where
  bytes : Bytes
  nonce : UInt32
  media : Bytes

/-- Every parser recovers the parts of the packet, and what was sealed opens under the
base. -/
structure Packet.Sealed (H : Type) [HashRatchet H] [LawfulHashRatchet H] (gcm : AesGcm)
    (base : Bytes ⊕ Bytes) (packet : Packet) : Prop where
  nonempty : 0 < packet.media.length
  keyed : KeyRatchet.keyOf H base (packet.nonce.toNat / 2 ^ 24).toUInt8 ≠ []
  parts : ∃ ranges unencrypted plaintext,
    packet.media = weave 0 ranges unencrypted plaintext ∧
      packet.media.length = unencrypted.length + plaintext.length ∧
      packet.media.length ≤ packet.bytes.length ∧
      ∀ inbound : InboundFrameProcessor, ∃ parsed tag ciphertext,
        inbound.parseFrame packet.bytes = some parsed ∧
          Recovers parsed tag packet.nonce ranges unencrypted ciphertext ∧
          opening H gcm base parsed = some plaintext

/-- A sealed packet is not the silence packet, which is not encrypted. -/
theorem Packet.Sealed.ne_silence {gcm : AesGcm} {base : Bytes ⊕ Bytes} {packet : Packet}
    (h : packet.Sealed H gcm base) : packet.bytes ≠ opusSilencePacket := by
  intro hsilence
  obtain ⟨ranges, unencrypted, plaintext, -, -, -, hparts⟩ := h.parts
  obtain ⟨parsed, tag, ciphertext, hparsed, hrecovers, -⟩ := hparts {}
  rw [hsilence] at hparsed
  have hclear := InboundFrameProcessor.parseFrame_silence hparsed
  rw [hrecovers.encrypted] at hclear
  exact absurd hclear (by decide)

omit [HashRatchet H] [LawfulHashRatchet H] in
private theorem toUInt8_generation (nonce : UInt32) :
    (nonce.toNat / 2 ^ 24).toUInt8 = Encryptor.generationOf nonce := by
  have hlow : (nonce >>> 24).toNat = nonce.toNat / 2 ^ 24 := nonce_shift_eq nonce
  rw [Encryptor.generationOf, ← hlow]
  rfl

/-- **What `encrypt` sends is sealed.** -/
theorem Encryptor.sealed_of_encrypt {gcm : AesGcm} (hgcm : gcm.Correct) {e e' : Encryptor H}
    (he : e.Wf) (hkeyed : e.Keyed) {ratchet : KeyRatchet H} {mediaType : MediaType}
    {ssrc : UInt32} {frame out out' : Bytes} {n : Nat} {p : OutboundFrameProcessor}
    (hpass : e.passthroughMode = false) (hratchet : e.ratchet = some ratchet)
    (hp : e.frameProcessor.processFrame frame (e.codecForSsrc ssrc) = some p)
    (hcall : e.encrypt gcm mediaType ssrc frame out = some (e', .ok (n, out')))
    (hsize : p.unencryptedRanges = [] ∨ out.length < 2 ^ 64)
    (hfits : Encryptor.TrailerFits p (e.truncatedNonce + 1) out.length) :
    Packet.Sealed H gcm ratchet.base ⟨out'.take n, e'.truncatedNonce, p.contents⟩ := by
  obtain ⟨hacc, -⟩ := OutboundFrameProcessor.processFrame_accounted hp
  obtain ⟨cryptor, _, _, hcryptor, -, hnonce, -, -, hn, hmax, hout, -⟩ :=
    Encryptor.encrypt_sent hpass hp hcall
  have hlen := OutboundFrameProcessor.contents_length hacc
  have hopening := fun inbound =>
    Encryptor.opening_of_encrypt hgcm he inbound hpass hratchet hp hcall hsize hfits
  -- the key in use is the one of the nonce's generation
  have hkey : cryptor.key =
      KeyRatchet.keyOf H ratchet.base (generationOf (e.truncatedNonce + 1)) := by
    obtain ⟨-, -, -, hcase⟩ := he.encrypt hcall
    rcases hcase with ⟨hmode, -⟩ | ⟨hnone, -⟩ | ⟨-, hok⟩
    · simp [hpass] at hmode
    · simp [hratchet] at hnone
    · obtain ⟨cryptor', ratchet', hc, hr, hk⟩ := hok ⟨n, out', rfl⟩
      obtain rfl := Option.some.inj (hcryptor.symm.trans hc)
      obtain rfl := Option.some.inj (hratchet.symm.trans hr)
      exact hk
  refine ⟨(hopening {}).1, ?_, p.unencryptedRanges, p.unencryptedBytes, p.encryptedBytes, rfl,
    hlen, ?_, ?_⟩
  · show KeyRatchet.keyOf H ratchet.base (e'.truncatedNonce.toNat / 2 ^ 24).toUInt8 ≠ []
    rw [toUInt8_generation, hnonce, ← hkey]
    exact hkeyed.encrypt hpass hcall cryptor hcryptor
  · show p.contents.length ≤ (out'.take n).length
    rw [hlen, List.length_take, hout]
    omega
  · intro inbound
    obtain ⟨-, parsed, tag, ciphertext, hparse, hrecovers, hopen⟩ := hopening inbound
    rw [← hnonce] at hrecovers
    exact ⟨parsed, tag, ciphertext, hparse, hrecovers, hopen⟩

/-! ## One call of the receiver -/

/-- The clock of a call while the lifetime of the manager allows no generation of the
second cycle. -/
def CipherManager.Young (manager : CipherManager H) (clock : DecryptClock) : Prop :=
  ∀ i, manager.maxGeneration (clock.attempt i).lifetime < 256

/-- A frame that does not open under the base, however it is parsed. -/
def Foreign (H : Type) [HashRatchet H] [LawfulHashRatchet H] (gcm : AesGcm)
    (base : Bytes ⊕ Bytes) (frame : Bytes) : Prop :=
  ∀ p₀ parsed : InboundFrameProcessor, p₀.parseFrame frame = some parsed →
    parsed.encrypted = true → opening H gcm base parsed = none

/-- The manager is the one of the ratchet, and has taken the nonces. -/
structure CipherManager.Follows (ratchet : KeyRatchet H) (manager : CipherManager H)
    (nonces : List UInt32) : Prop where
  kept : Kept (fun g => ratchet.Live g.toUInt8) manager
  base : manager.ratchet.base = ratchet.base
  window : manager.window.Exactly maxMissingNonces (nonces.map UInt32.toNat)

namespace CipherManager.Follows

variable {gcm : AesGcm} {ratchet : KeyRatchet H} {manager : CipherManager H}
  {nonces : List UInt32}

theorem new (ratchet : KeyRatchet H) (created : Instant) :
    Follows ratchet (.new ratchet created) [] :=
  ⟨Kept.new ratchet created, rfl, Window.exactly_empty _⟩

/-- A look-up alone. -/
theorem probe (herase : ErasesOne H) (h : Follows ratchet manager nonces) {clock : ManagerClock}
    (hyoung : manager.maxGeneration clock.lifetime < 256) (nonce : UInt32) :
    Follows ratchet (manager.probe clock nonce).1 nonces := by
  have hprobed := manager.probed clock nonce
  refine ⟨h.kept.probe herase hyoung nonce, hprobed.base.trans h.base, ?_⟩
  rw [hprobed.window]
  exact h.window

/-- A frame that opened after its cipher was found. -/
theorem report (herase : ErasesOne H) (h : Follows ratchet manager nonces)
    {clock : ManagerClock} (hyoung : manager.maxGeneration clock.lifetime < 256)
    {nonce : UInt32} (hfound : (manager.probe clock nonce).2.isSome = true) (now : Instant) :
    Follows ratchet
      ((manager.probe clock nonce).1.reportCipherSuccess now (nonce.toNat / 2 ^ 24) nonce)
      (nonce :: nonces) := by
  have hprobe := h.probe herase hyoung nonce
  have hreported := (manager.probe clock nonce).1.reported now nonce
  have hadmits := ((h.kept.probe_isSome_iff herase hyoung).mp hfound).2.1
  rw [← (manager.probed clock nonce).window] at hadmits
  have hcached := (h.kept.probe_found herase hyoung hfound).2.2
  refine ⟨hprobe.kept.reportCipherSuccess now hcached hadmits,
    hreported.base.trans hprobe.base, ?_⟩
  rw [hreported.window]
  exact hprobe.window.record hadmits

end CipherManager.Follows

section Calls

variable {gcm : AesGcm} {ratchet : KeyRatchet H} {d : Decryptor H} {manager : CipherManager H}
  {nonces : List UInt32} {mediaType : MediaType} {clock : DecryptClock}
  {frame frameOut : Bytes} {call : Decryption H}

/-- A frame that does not open leaves the nonces as they were. -/
theorem Sole.foreign (h : Sole d manager) (herase : ErasesOne H)
    (hfollows : manager.Follows ratchet nonces) (hyoung : manager.Young clock)
    (hforeign : Foreign H gcm ratchet.base frame)
    (hcall : d.decrypt gcm mediaType clock frame frameOut = some call) :
    ∃ manager', Sole call.decryptor manager' ∧ manager'.Follows ratchet nonces := by
  obtain ⟨manager', hsole, -, hcase⟩ := h.decrypt hcall
  refine ⟨manager', hsole, ?_⟩
  cases hcase with
  | inl hkept =>
      rw [hkept.1]
      exact hfollows
  | inr hswept =>
      obtain ⟨p, a, hattempt, rfl⟩ := hswept
      obtain ⟨p₀, hparse⟩ := hattempt.parsed
      have hsplit := InboundFrameProcessor.split_of_parseFrame hparse hattempt.encrypted
      have hclosed := hforeign p₀ p hparse hattempt.encrypted
      obtain ⟨hmanager, -⟩ := Decryptor.decryptImpl_attempt h.wf hattempt.encrypted hsplit
        hattempt.attempted
      rw [hfollows.base, hclosed, Option.isSome_none, Shadows.attempt_of_closed (.inr rfl)]
        at hmanager
      rw [hmanager]
      exact hfollows.probe herase (hyoung 0) p.truncatedNonce

variable {packet : Packet}

/-- **One delivery.**  The frame is taken exactly where its cipher is found, and then what
was sealed in it is written. -/
theorem Sole.receive (h : Sole d manager) (herase : ErasesOne H)
    (hfollows : manager.Follows ratchet nonces) (hyoung : manager.Young clock)
    (hsealed : packet.Sealed H gcm ratchet.base)
    (hroom : packet.bytes.length ≤ frameOut.length)
    (hcall : d.decrypt gcm mediaType clock packet.bytes frameOut = some call) :
    ∃ manager', Sole call.decryptor manager' ∧
      (((manager.probe (clock.attempt 0) packet.nonce).2.isSome = true ∧
          manager'.Follows ratchet (packet.nonce :: nonces) ∧
          call.result = some packet.media.length ∧
          call.output.take packet.media.length = packet.media) ∨
        ((manager.probe (clock.attempt 0) packet.nonce).2.isSome = false ∧
          manager'.Follows ratchet nonces ∧ call.result = none)) := by
  obtain ⟨ranges, unencrypted, plaintext, hmedia, hlen, hshort, hparts⟩ := hsealed.parts
  obtain ⟨manager', hsole, -, hcase⟩ := h.decrypt hcall
  refine ⟨manager', hsole, ?_⟩
  -- what the attempt with the manager made of the frame
  have hattempt : ∀ p a, SoleAttempt gcm manager clock packet.bytes frameOut call p a →
      a.manager = (manager.attempt (clock.attempt 0) packet.nonce true).1 ∧
        ((manager.probe (clock.attempt 0) packet.nonce).2 = none → call.result = none) := by
    intro p a ha
    obtain ⟨p₀, hparse⟩ := ha.parsed
    obtain ⟨parsed, tag, ciphertext, hparsed, hrecovers, hopen⟩ := hparts p₀
    obtain rfl := Option.some.inj (hparse.symm.trans hparsed)
    have hsplit := InboundFrameProcessor.split_of_parseFrame hparse ha.encrypted
    rw [← hfollows.base] at hopen
    obtain ⟨hmanager, -, houtcome⟩ :=
      Decryptor.decryptImpl_attempt h.wf ha.encrypted hsplit ha.attempted
    rw [hopen, Option.isSome_some] at hmanager
    rw [hrecovers.nonce_eq] at hmanager houtcome
    refine ⟨hmanager, fun hnone => ?_⟩
    cases houtcome with
    | inl hgivesUp => exact ha.result.trans hgivesUp.2.2.2
    | inr hopens =>
        rw [hnone] at hopens
        exact absurd hopens.1 (by decide)
  cases hfound : (manager.probe (clock.attempt 0) packet.nonce).2.isSome with
  | true =>
      obtain ⟨parsed, tag, ciphertext, hparsed, hrecovers, hopen⟩ :=
        hparts d.getOrCreateFrameProcessor.1
      rw [← hfollows.base] at hopen
      have hwf : ∀ m ∈ d.managers, m.Wf := by
        intro m hm
        rw [h.managers] at hm
        rw [List.mem_singleton.mp hm]
        exact h.wf
      have hmanagers : Decryptor.cleanupExpiredManagers clock.expired d.managers =
          [] ++ manager :: [] := h.kept clock.expired
      have hpositive : 0 < unencrypted.length + plaintext.length := hlen ▸ hsealed.nonempty
      have hfits : unencrypted.length + plaintext.length ≤ frameOut.length := by omega
      obtain ⟨call', hcall', hresult, houtput⟩ := Decryptor.decrypt_opens hmanagers hwf hparsed
        hrecovers hopen (by simp) hfound hfits hpositive
      obtain rfl := Option.some.inj (hcall.symm.trans hcall')
      rw [← hlen] at hresult houtput
      rw [← hmedia] at houtput
      refine .inl ⟨rfl, ?_, hresult, houtput⟩
      cases hcase with
      | inl hkept =>
          cases hkept.2 with
          | inl hsilence => exact absurd hsilence hsealed.ne_silence
          | inr hnone => exact absurd (hresult.symm.trans hnone) (by simp)
      | inr hswept =>
          obtain ⟨p, a, ha, rfl⟩ := hswept
          rw [(hattempt p a ha).1,
            Shadows.attempt_of_found herase hfollows.kept (hyoung 0) hfound]
          exact hfollows.report herase (hyoung 0) hfound _
  | false =>
      have hnone := Option.isSome_eq_false_iff.mp hfound
      refine .inr ⟨rfl, ?_⟩
      cases hcase with
      | inl hkept =>
          refine ⟨hkept.1 ▸ hfollows, ?_⟩
          cases hkept.2 with
          | inl hsilence => exact absurd hsilence hsealed.ne_silence
          | inr hrefused => exact hrefused
      | inr hswept =>
          obtain ⟨p, a, ha, rfl⟩ := hswept
          obtain ⟨hmanager, hresult⟩ := hattempt p a ha
          rw [Option.isNone_iff_eq_none] at hnone
          refine ⟨?_, hresult hnone⟩
          rw [hmanager, Shadows.attempt_of_closed (.inl hnone)]
          exact hfollows.probe herase (hyoung 0) packet.nonce

end Calls

/-! ## Which generations are served -/

/-- The manager has not deleted the generation, and it is not too far ahead of the newest
one or of the manager's lifetime. -/
structure CipherManager.Serves (manager : CipherManager H) (clock : ManagerClock) (g : Nat) :
    Prop where
  old : (manager.cleanupExpiredCiphers clock.cleanup).oldestGeneration ≤ g
  gap : g ≤ manager.newestGeneration + maxGenerationGap
  lifetime : g ≤ manager.maxGeneration clock.lifetime

namespace CipherManager.Follows

variable {ratchet : KeyRatchet H} {manager : CipherManager H} {nonces : List UInt32}
  {clock : ManagerClock} {nonce : UInt32}

/-- **Which nonces find a cipher.** -/
theorem found_iff (herase : ErasesOne H) (h : Follows ratchet manager nonces)
    (hlive : ∀ g, ratchet.Live g) (hyoung : manager.maxGeneration clock.lifetime < 256)
    (hkey : KeyRatchet.keyOf H ratchet.base (nonce.toNat / 2 ^ 24).toUInt8 ≠ []) :
    (manager.probe clock nonce).2.isSome = true ↔
      Window.Inside maxMissingNonces (nonces.map UInt32.toNat) nonce.toNat ∧
        manager.Serves clock (nonce.toNat / 2 ^ 24) := by
  rw [h.kept.probe_isSome_iff herase hyoung, h.window.admits_iff, Available, h.base]
  constructor
  · intro hall
    exact ⟨hall.2.1, hall.1, hall.2.2.1, hall.2.2.2.1⟩
  · intro hall
    exact ⟨hall.2.old, hall.1, hall.2.gap, hall.2.lifetime, hlive _, hkey⟩

/-- The newest generation is that of the greatest nonce. -/
theorem newestGeneration_le (h : Follows ratchet manager nonces) {g : Nat}
    (hg : ∀ n ∈ nonces, n.toNat / 2 ^ 24 ≤ g) : manager.newestGeneration ≤ g := by
  rw [h.kept.newest_eq]
  cases hn : manager.newestProcessedNonce with
  | none => exact Nat.zero_le g
  | some newest =>
      obtain ⟨n, hmem, rfl⟩ := List.mem_map.mp (h.window.newest_mem newest hn)
      exact hg n hmem

theorem le_newestGeneration (h : Follows ratchet manager nonces) {n : UInt32} (hn : n ∈ nonces) :
    n.toNat / 2 ^ 24 ≤ manager.newestGeneration := by
  have hmem : n.toNat ∈ nonces.map UInt32.toNat := List.mem_map_of_mem hn
  rw [h.kept.newest_eq]
  cases hnewest : manager.newestProcessedNonce with
  | none =>
      rw [(h.window.tracks.fresh hnewest).2] at hmem
      exact absurd hmem List.not_mem_nil
  | some newest =>
      exact Nat.div_le_div_right (h.window.tracks.recorded_le newest hnewest n.toNat hmem)

/-- A generation that is not older than those of the nonces is served as soon as the
lifetime allows it, unless it is too far ahead. -/
theorem serves_of_newest (herase : ErasesOne H) (h : Follows ratchet manager nonces) {g : Nat}
    (hnewest : ∀ n ∈ nonces, n.toNat / 2 ^ 24 ≤ g)
    (hgap : g ≤ maxGenerationGap ∨ ∃ n ∈ nonces, g ≤ n.toNat / 2 ^ 24 + maxGenerationGap)
    (hlifetime : g ≤ manager.maxGeneration clock.lifetime) : manager.Serves clock g := by
  have hold := (h.kept.cleanupExpiredCiphers herase clock.cleanup).oldest_le
  rw [CipherManager.newestGeneration_cleanup] at hold
  refine ⟨Nat.le_trans hold (h.newestGeneration_le hnewest), ?_, hlifetime⟩
  cases hgap with
  | inl hsmall => exact Nat.le_trans hsmall (Nat.le_add_left _ _)
  | inr hnear =>
      obtain ⟨n, hn, hle⟩ := hnear
      have hbelow := h.le_newestGeneration hn
      omega

end CipherManager.Follows

/-! ## Runs -/

/-- Both ends, the packets that were sent, and those that were taken with what was written
for them, the last one first. -/
structure Channel (H : Type) where
  sender : Encryptor H
  receiver : Decryptor H
  sent : List Packet := []
  taken : List (Packet × Bytes) := []

namespace Channel

/-- What a delivery adds. -/
def take (taken : List (Packet × Bytes)) (packet : Packet) (call : Decryption H) :
    List (Packet × Bytes) :=
  match call.result with
  | some n => (packet, call.output.take n) :: taken
  | none => taken

/-- The runs of a channel whose ends were given the same ratchet.  A frame whose trailer
was not cut goes on its way, or is lost; what is on its way arrives any number of times, in
any order, and other frames do that do not open. -/
inductive Reachable (gcm : AesGcm) (ratchet : KeyRatchet H) : Channel H → Prop
  | start (now created : Instant) (expiry : Int) :
      Reachable gcm ratchet
        { sender := (({} : Encryptor H).setKeyRatchet (some ratchet)).setPassthroughMode false
          receiver :=
            ({} : Decryptor H).transitionToKeyRatchet (some ratchet) now created expiry }
  | assign {c : Channel H} (ssrc : UInt32) (codec : Codec) : Reachable gcm ratchet c →
      Reachable gcm ratchet { c with sender := c.sender.assignSsrcToCodec ssrc codec }
  | lose {c : Channel H} {mediaType : MediaType} {ssrc : UInt32} {frame out : Bytes}
      {sender : Encryptor H} {result : Except DaveError (Nat × Bytes)} :
      Reachable gcm ratchet c →
      c.sender.encrypt gcm mediaType ssrc frame out = some (sender, result) →
      Reachable gcm ratchet { c with sender }
  | send {c : Channel H} {mediaType : MediaType} {ssrc : UInt32} {frame out out' : Bytes}
      {sender : Encryptor H} {n : Nat} {success : Bool} {pieces : List Piece}
      {p : OutboundFrameProcessor} :
      Reachable gcm ratchet c →
      OutboundFrameProcessor.splitByCodec frame (c.sender.codecForSsrc ssrc) =
        some (success, pieces) →
      c.sender.frameProcessor.processFrame frame (c.sender.codecForSsrc ssrc) = some p →
      c.sender.encrypt gcm mediaType ssrc frame out = some (sender, .ok (n, out')) →
      (p.unencryptedRanges = [] ∨ out.length < 2 ^ 64) →
      Encryptor.TrailerFits p (c.sender.truncatedNonce + 1) out.length →
      Reachable gcm ratchet
        { c with
          sender
          sent := ⟨out'.take n, sender.truncatedNonce,
            if success then pieces.flatMap Piece.bytes else frame⟩ :: c.sent }
  | deliver {c : Channel H} {mediaType : MediaType} {clock : DecryptClock} {packet : Packet}
      {frameOut : Bytes} {call : Decryption H} :
      Reachable gcm ratchet c → packet ∈ c.sent →
      (∀ manager ∈ c.receiver.managers, manager.Young clock) →
      packet.bytes.length ≤ frameOut.length →
      c.receiver.decrypt gcm mediaType clock packet.bytes frameOut = some call →
      Reachable gcm ratchet
        { c with receiver := call.decryptor, taken := take c.taken packet call }
  | intrude {c : Channel H} {mediaType : MediaType} {clock : DecryptClock}
      {frame frameOut : Bytes} {call : Decryption H} :
      Reachable gcm ratchet c → Foreign H gcm ratchet.base frame →
      (∀ manager ∈ c.receiver.managers, manager.Young clock) →
      c.receiver.decrypt gcm mediaType clock frame frameOut = some call →
      Reachable gcm ratchet { c with receiver := call.decryptor }

/-- The nonces that were taken. -/
def nonces (c : Channel H) : List UInt32 := c.taken.map fun entry => entry.1.nonce

/-- The invariant of a run. -/
structure Linked (gcm : AesGcm) (ratchet : KeyRatchet H) (c : Channel H) : Prop where
  wf : c.sender.Wf
  keyed : c.sender.Keyed
  sealing : c.sender.passthroughMode = false
  base : c.sender.ratchet.map KeyRatchet.base = some ratchet.base
  sent : ∀ packet ∈ c.sent, packet.Sealed H gcm ratchet.base
  manager : ∃ manager, Sole c.receiver manager ∧ manager.Follows ratchet c.nonces
  taken : ∀ entry ∈ c.taken, entry.1 ∈ c.sent ∧ entry.2 = entry.1.media

variable {gcm : AesGcm} {ratchet : KeyRatchet H} {c : Channel H}

/-- A call of the sender keeps its side of the invariant. -/
private theorem Linked.encrypt (h : Linked gcm ratchet c) {mediaType : MediaType} {ssrc : UInt32}
    {frame out : Bytes} {sender : Encryptor H} {result : Except DaveError (Nat × Bytes)}
    (hcall : c.sender.encrypt gcm mediaType ssrc frame out = some (sender, result)) :
    Linked gcm ratchet { c with sender } := by
  obtain ⟨hwf, hmode, hbase, -⟩ := h.wf.encrypt hcall
  exact ⟨hwf, h.keyed.encrypt h.sealing hcall, hmode.trans h.sealing, hbase.trans h.base, h.sent,
    h.manager, h.taken⟩

/-- What a delivery does. -/
theorem Linked.receive (herase : ErasesOne H) (h : Linked gcm ratchet c)
    {mediaType : MediaType} {clock : DecryptClock} {packet : Packet} {frameOut : Bytes}
    {call : Decryption H} (hsent : packet ∈ c.sent)
    (hyoung : ∀ manager ∈ c.receiver.managers, manager.Young clock)
    (hroom : packet.bytes.length ≤ frameOut.length)
    (hcall : c.receiver.decrypt gcm mediaType clock packet.bytes frameOut = some call) :
    Linked gcm ratchet
      { c with receiver := call.decryptor, taken := take c.taken packet call } := by
  obtain ⟨manager, hsole, hfollows⟩ := h.manager
  have hmem : manager ∈ c.receiver.managers := hsole.managers ▸ List.mem_singleton_self manager
  obtain ⟨manager', hsole', hcase⟩ := hsole.receive herase hfollows (hyoung manager hmem)
    (h.sent packet hsent) hroom hcall
  cases hcase with
  | inl htaken =>
      obtain ⟨-, hfollows', hresult, houtput⟩ := htaken
      have htake : take c.taken packet call = (packet, packet.media) :: c.taken := by
        rw [take, hresult]
        simp only [houtput]
      rw [htake]
      refine ⟨h.wf, h.keyed, h.sealing, h.base, h.sent, ⟨manager', hsole', hfollows'⟩, ?_⟩
      intro entry hentry
      cases List.mem_cons.mp hentry with
      | inl hnew =>
          rw [hnew]
          exact ⟨hsent, rfl⟩
      | inr hold => exact h.taken entry hold
  | inr hrefused =>
      obtain ⟨-, hfollows', hresult⟩ := hrefused
      have htake : take c.taken packet call = c.taken := by
        rw [take, hresult]
      rw [htake]
      exact ⟨h.wf, h.keyed, h.sealing, h.base, h.sent, ⟨manager', hsole', hfollows'⟩, h.taken⟩

/-- **The invariant of a run.** -/
theorem Reachable.linked (hgcm : gcm.Correct) (herase : ErasesOne H) (hfresh : ratchet.Fresh)
    (h : Reachable gcm ratchet c) : Linked gcm ratchet c := by
  induction h with
  | start now created expiry =>
      refine ⟨?_, ?_, rfl, rfl, by simp, ?_, by simp⟩
      · apply Encryptor.Wf.setPassthroughMode
        apply Encryptor.wf_setKeyRatchet
        intro r hr g
        obtain rfl := Option.some.inj hr
        exact hfresh.live g
      · intro cryptor hcryptor
        exact absurd hcryptor (by simp [Encryptor.setPassthroughMode, Encryptor.setKeyRatchet])
      · exact ⟨.new ratchet created, sole_new ratchet now created expiry,
          CipherManager.Follows.new ratchet created⟩
  | assign ssrc codec _ ih =>
      exact ⟨ih.wf.assignSsrcToCodec ssrc codec, ih.keyed, ih.sealing, ih.base, ih.sent,
        ih.manager, ih.taken⟩
  | lose _ hcall ih => exact ih.encrypt hcall
  | send _ hsplit hp hcall hsize hfits ih =>
      obtain ⟨r, hratchet, hbase⟩ := Option.map_eq_some_iff.mp ih.base
      have hsealed := Encryptor.sealed_of_encrypt hgcm ih.wf ih.keyed ih.sealing hratchet hp
        hcall hsize hfits
      rw [OutboundFrameProcessor.processFrame_contents hsplit hp, hbase] at hsealed
      have hkept := ih.encrypt hcall
      refine ⟨hkept.wf, hkept.keyed, hkept.sealing, hkept.base, ?_, ih.manager, ?_⟩
      · intro packet hpacket
        cases List.mem_cons.mp hpacket with
        | inl hnew => exact hnew ▸ hsealed
        | inr hold => exact ih.sent packet hold
      · intro entry hentry
        have hold := ih.taken entry hentry
        exact ⟨List.mem_cons_of_mem _ hold.1, hold.2⟩
  | deliver _ hsent hyoung hroom hcall ih =>
      exact ih.receive herase hsent hyoung hroom hcall
  | intrude _ hforeign hyoung hcall ih =>
      obtain ⟨manager, hsole, hfollows⟩ := ih.manager
      have hmem := hsole.managers ▸ List.mem_singleton_self manager
      obtain ⟨manager', hsole', hfollows'⟩ :=
        hsole.foreign herase hfollows (hyoung manager hmem) hforeign hcall
      exact ⟨ih.wf, ih.keyed, ih.sealing, ih.base, ih.sent, ⟨manager', hsole', hfollows'⟩,
        ih.taken⟩

/-! ## A run of one frame -/

/-- A sender with the reference secret, that has sent `audioFrame` once. -/
private theorem reachable_audioFrame : ∃ c : Channel Chain,
    Reachable referenceGcm (.mls (HashRatchet.ofSecret referenceSecret)) c ∧
      c.receiver = Decryptor.referenceDecryptor ∧ c.taken = [] ∧
      c.sent = [⟨sentAudioFrame, 1, audioFrame⟩] := by
  let start : Channel Chain :=
    { sender := (({} : Encryptor Chain).setKeyRatchet
        (some (.mls (HashRatchet.ofSecret referenceSecret)))).setPassthroughMode false
      receiver := Decryptor.referenceDecryptor }
  let sender := start.sender.assignSsrcToCodec 1 .opus
  let p : OutboundFrameProcessor :=
    { frameCodec := .opus, frameIndex := 4, encryptedBytes := audioFrame
      ciphertextBytes := [0, 0, 0, 0] }
  have hp : sender.frameProcessor.processFrame audioFrame (sender.codecForSsrc 1) = some p := by
    decide +kernel
  have hsplit : OutboundFrameProcessor.splitByCodec audioFrame (sender.codecForSsrc 1) =
      some (true, [.encrypted audioFrame]) := by
    decide +kernel
  have heval : (sender.encrypt referenceGcm .audio 1 audioFrame (List.replicate 79 0)).bind
      (fun call => call.2.toOption.map fun sent => (call.1.truncatedNonce, sent.2.take sent.1)) =
        some (1, sentAudioFrame) := by
    decide +kernel
  obtain ⟨⟨e', result⟩, hcall, hresult⟩ := Option.bind_eq_some_iff.mp heval
  cases result with
  | error err => simp [Except.toOption] at hresult
  | ok sent =>
      obtain ⟨n, out'⟩ := sent
      have hboth := Prod.mk.inj (Option.some.inj hresult)
      have hpacket : (⟨out'.take n, e'.truncatedNonce,
          if true then [Piece.encrypted audioFrame].flatMap Piece.bytes else audioFrame⟩ :
            Packet) = ⟨sentAudioFrame, 1, audioFrame⟩ := by
        rw [show e'.truncatedNonce = 1 from hboth.1, show out'.take n = sentAudioFrame from hboth.2]
        rfl
      have hstart : Reachable referenceGcm (.mls (HashRatchet.ofSecret referenceSecret)) start :=
        .start referenceInstant referenceInstant (seconds 10)
      have hreach := Reachable.send (hstart.assign 1 .opus) hsplit hp hcall (.inl rfl)
        (by decide +kernel)
      exact ⟨_, hreach, rfl, rfl, congrArg (· :: []) hpacket⟩

private theorem young_reference : ∀ manager ∈ Decryptor.referenceDecryptor.managers,
    manager.Young Decryptor.referenceClock := by
  intro manager hmanager i
  obtain rfl := List.mem_singleton.mp hmanager
  show (CipherManager.new (.mls (HashRatchet.ofSecret referenceSecret : Chain))
    referenceInstant).maxGeneration referenceInstant < 256
  decide

private theorem decrypt_sentAudioFrame : ∃ call,
    Decryptor.referenceDecryptor.decrypt referenceGcm .audio Decryptor.referenceClock
        sentAudioFrame (List.replicate 16 0) = some call ∧
      call.result = some 4 ∧ call.output.take 4 = audioFrame := by
  have heval : (Decryptor.referenceDecryptor.decrypt referenceGcm .audio Decryptor.referenceClock
      sentAudioFrame (List.replicate 16 0)).map (fun call => (call.result, call.output.take 4)) =
        some (some 4, audioFrame) := by
    decide +kernel
  obtain ⟨call, hcall, hboth⟩ := Option.map_eq_some_iff.mp heval
  exact ⟨call, hcall, congrArg Prod.fst hboth, congrArg Prod.snd hboth⟩

/-! ## What arrives -/

/-- **What a receiver has taken.**  Whatever the network did, a nonce was taken at most
once, with a frame that was sent, and what was written is what was sealed in it. -/
theorem Reachable.taken_once (hgcm : gcm.Correct) (herase : ErasesOne H)
    (hfresh : ratchet.Fresh) (h : Reachable gcm ratchet c) :
    c.nonces.Nodup ∧
      ∀ entry ∈ c.taken, entry.1 ∈ c.sent ∧ entry.2 = entry.1.media := by
  have hlinked := h.linked hgcm herase hfresh
  obtain ⟨manager, -, hfollows⟩ := hlinked.manager
  exact ⟨List.Nodup.of_map _ hfollows.window.tracks.nodup, hlinked.taken⟩

/-- The frame was taken. -/
theorem taken_once_audioFrame : ∃ c : Channel Chain,
    c.taken = [(⟨sentAudioFrame, 1, audioFrame⟩, audioFrame)] ∧ c.nonces.Nodup ∧
      ∀ entry ∈ c.taken, entry.1 ∈ c.sent ∧ entry.2 = entry.1.media := by
  obtain ⟨c, hreach, hreceiver, htaken, hsent⟩ := reachable_audioFrame
  obtain ⟨call, hcall, hresult, houtput⟩ := decrypt_sentAudioFrame
  have hmem : (⟨sentAudioFrame, 1, audioFrame⟩ : Packet) ∈ c.sent := by simp [hsent]
  have hdelivered := Reachable.deliver hreach hmem (hreceiver ▸ young_reference) (by decide)
    (hreceiver ▸ hcall)
  refine ⟨_, ?_, hdelivered.taken_once referenceGcm_correct erasesOne_chain (.mls referenceSecret)⟩
  simp only [take, hresult, houtput, htaken]

/-- **Which frames are taken.**  A frame that was sent is taken if and only if its nonce
lies inside the window of those taken before and its generation is served, which it is when
none of a newer generation was taken before. -/
theorem Reachable.delivers (hgcm : gcm.Correct) (herase : ErasesOne H)
    (hfresh : ratchet.Fresh) (h : Reachable gcm ratchet c) {packet : Packet}
    (hsent : packet ∈ c.sent) (mediaType : MediaType) {clock : DecryptClock} {frameOut : Bytes}
    (hyoung : ∀ manager ∈ c.receiver.managers, manager.Young clock)
    (hroom : packet.bytes.length ≤ frameOut.length) :
    ∃ manager call, c.receiver.managers = [manager] ∧
      c.receiver.decrypt gcm mediaType clock packet.bytes frameOut = some call ∧
      (call.result = some packet.media.length ∧
          call.output.take packet.media.length = packet.media ∨ call.result = none) ∧
      (call.result.isSome = true ↔
        Window.Inside maxMissingNonces (c.nonces.map UInt32.toNat) packet.nonce.toNat ∧
          manager.Serves (clock.attempt 0) (packet.nonce.toNat / 2 ^ 24)) ∧
      ((∀ n ∈ c.nonces, n.toNat / 2 ^ 24 ≤ packet.nonce.toNat / 2 ^ 24) →
        (packet.nonce.toNat / 2 ^ 24 ≤ maxGenerationGap ∨
          ∃ n ∈ c.nonces, packet.nonce.toNat / 2 ^ 24 ≤ n.toNat / 2 ^ 24 + maxGenerationGap) →
        packet.nonce.toNat / 2 ^ 24 ≤ manager.maxGeneration (clock.attempt 0).lifetime →
        manager.Serves (clock.attempt 0) (packet.nonce.toNat / 2 ^ 24)) := by
  have hlinked := h.linked hgcm herase hfresh
  obtain ⟨manager, hsole, hfollows⟩ := hlinked.manager
  have hmem : manager ∈ c.receiver.managers := hsole.managers ▸ List.mem_singleton_self manager
  have hsealed := hlinked.sent packet hsent
  obtain ⟨call, hcall⟩ := Decryptor.decrypt_isSome gcm c.receiver mediaType clock hroom
  have hfound := hfollows.found_iff herase (fun g => hfresh.live g) (hyoung manager hmem 0)
    hsealed.keyed
  refine ⟨manager, call, hsole.managers, hcall, ?_, ?_, ?_⟩
  · obtain ⟨manager', -, hcase⟩ :=
      hsole.receive herase hfollows (hyoung manager hmem) hsealed hroom hcall
    cases hcase with
    | inl htaken => exact .inl ⟨htaken.2.2.1, htaken.2.2.2⟩
    | inr hrefused => exact .inr hrefused.2.2
  · rw [← hfound]
    obtain ⟨manager', -, hcase⟩ :=
      hsole.receive herase hfollows (hyoung manager hmem) hsealed hroom hcall
    cases hcase with
    | inl htaken => simp [htaken.1, htaken.2.2.1]
    | inr hrefused => simp [hrefused.1, hrefused.2.2]
  · intro hnewest hgap hlifetime
    exact hfollows.serves_of_newest herase hnewest hgap hlifetime

/-- The frame is taken, since nothing was taken before. -/
theorem delivers_audioFrame : ∃ c : Channel Chain, ∃ call : Decryption Chain,
    c.receiver.decrypt referenceGcm .audio Decryptor.referenceClock sentAudioFrame
        (List.replicate 16 0) = some call ∧
      call.result.isSome = true ∧
      Window.Inside maxMissingNonces (c.nonces.map UInt32.toNat) 1 := by
  obtain ⟨c, hreach, hreceiver, htaken, hsent⟩ := reachable_audioFrame
  obtain ⟨call, hcall, hresult, -⟩ := decrypt_sentAudioFrame
  have hmem : (⟨sentAudioFrame, 1, audioFrame⟩ : Packet) ∈ c.sent := by simp [hsent]
  have hroom : sentAudioFrame.length ≤ (List.replicate 16 (0 : UInt8)).length := by decide
  obtain ⟨manager, call', -, hcall', -, hiff, -⟩ :=
    hreach.delivers referenceGcm_correct erasesOne_chain (.mls referenceSecret) hmem .audio
      (hreceiver ▸ young_reference) hroom
  rw [hreceiver] at hcall'
  obtain rfl := Option.some.inj (hcall.symm.trans hcall')
  have htaken' : call.result.isSome = true := by simp [hresult]
  exact ⟨c, call, hreceiver ▸ hcall, htaken', (hiff.mp htaken').1⟩

end Channel

end Ekizu.Dave
