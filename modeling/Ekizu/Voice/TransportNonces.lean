import Ekizu.Voice.Rtp

/-!
# The nonces of the transport encryption

`VoiceCrypto::encrypt_rtp` takes the next value of a 32-bit counter for every
packet; `handle_session_description_async` replaces the key by the one the
server sent and sets the counter back to 0.  The results are about runs of a
connection: which key and which counter value each packet was encrypted with.

## Main results

* `transportPairs_nodup` — no pair of key and nonce is used twice where each
  `SessionDescription` brings a key nothing was encrypted with and at most 2 ^ 32
  packets follow it.
* `transportPairs_repeated` — a server that sends its key again makes the client
  use a pair twice.
-/

namespace Ekizu.Voice

open Dave Lib.Runs

namespace Connection

variable {W : Setting} {H : Type} [HashRatchet H]

/-! ## The pairs of a run -/

omit [HashRatchet H] in
/-- The `SessionDescription` that a step handles. -/
def described (t : Taken (Connection W H) (Event W)) : Option SessionDescription :=
  match t.event with
  | .task i _ =>
      match t.pre.tasks[i]? with
      | some (.sessionDescription description) => some description
      | _ => none
  | _ => none

/-- The key and the nonce of the packet that a step encrypts. -/
def encryptedWith (t : Taken (Connection W H) (Event W)) : Option (Bytes × UInt32) :=
  match t.event with
  | .audio packet =>
      (t.pre.sentPayload packet).map fun _ => (t.pre.crypto.key, t.pre.crypto.nonce)
  | _ => none

/-- The keys and nonces of all packets of a run, the last first. -/
def transportPairs (trace : List (Taken (Connection W H) (Event W))) : List (Bytes × UInt32) :=
  trace.filterMap encryptedWith

/-- The packets encrypted since the last `SessionDescription`. -/
def packetsSince : List (Taken (Connection W H) (Event W)) → Nat
  | [] => 0
  | t :: trace =>
      if (described t).isSome then 0
      else if (encryptedWith t).isSome then packetsSince trace + 1
      else packetsSince trace

/-- The server sends keys under which nothing was encrypted, and sends the next
one before the counter wraps. -/
def TransportAllowed (trace : List (Taken (Connection W H) (Event W)))
    (t : Taken (Connection W H) (Event W)) : Prop :=
  (∀ description ∈ described t,
    description.secretKey ∉ (transportPairs trace).map Prod.fst) ∧
  ((encryptedWith t).isSome = true → packetsSince trace < 2 ^ 32)

instance (trace : List (Taken (Connection W H) (Event W)))
    (t : Taken (Connection W H) (Event W)) : Decidable (TransportAllowed trace t) :=
  inferInstanceAs (Decidable (_ ∧ _))

/-! ## One step -/

/-- Only a `SessionDescription` and a packet change the keys. -/
theorem step_crypto {c c' : Connection W H} {e : Event W} (hstep : c.step e = some c') :
    c'.crypto =
      match described ⟨c, e, c'⟩ with
      | some description => describedCrypto c.crypto description
      | none =>
          if (encryptedWith ⟨c, e, c'⟩).isSome then
            { c.crypto with nonce := c.crypto.nonce + 1 }
          else c.crypto := by
  have hlink := step_link hstep
  cases e with
  | run | sent | datagram | close => exact congrArg Link.crypto hlink
  | message message entropy =>
      refine (congrArg Link.crypto hlink.2).trans ?_
      cases message <;> rfl
  | readFailed closeCode =>
      refine (congrArg Link.crypto hlink.2).trans ?_
      simp only [described, encryptedWith, Option.isSome_none, Bool.false_eq_true, if_false]
      unfold readFailed initiateReconnect
      split
      · split <;> rfl
      · rfl
  | task i env =>
      simp only [LinkAfter] at hlink
      simp only [described, encryptedWith]
      split at hlink
      · exact hlink.elim
      · next description htask =>
          rw [htask]
          exact congrArg Link.crypto hlink
      · next htask =>
          rw [htask]
          rcases hlink with hlink | ⟨-, hlink⟩ | hlink
          · exact congrArg Link.crypto hlink
          · exact congrArg Link.crypto hlink
          · exact congrArg Link.crypto hlink
      · next task hdescription hclose htask =>
          rw [htask]
          have hcrypto : c'.crypto = c.crypto := congrArg Link.crypto hlink
          cases task with
          | sessionDescription description => exact absurd rfl (hdescription description)
          | _ => exact hcrypto
  | udpSetUp result =>
      obtain ⟨-, udp, hlink⟩ := hlink
      exact congrArg Link.crypto hlink
  | heartbeatsMissed =>
      refine (congrArg Link.crypto hlink).trans ?_
      simp only [described, encryptedWith, Option.isSome_none, Bool.false_eq_true, if_false]
      unfold initiateReconnect
      split <;> rfl
  | reconnectTimer =>
      refine (congrArg Link.crypto hlink.2).trans ?_
      split <;> rfl
  | connected ok =>
      refine (congrArg Link.crypto hlink.2).trans ?_
      cases ok <;> rfl
  | audio packet =>
      have hcrypto := congrArg Link.crypto hlink
      simp only [described, encryptedWith, Option.isSome_map]
      cases hpayload : c.sentPayload packet with
      | none =>
          rw [hpayload] at hcrypto
          exact hcrypto
      | some payload =>
          rw [hpayload] at hcrypto
          refine hcrypto.trans ?_
          unfold afterEncrypt
          dsimp only
          split <;> rfl
  | datagramSent i => exact congrArg Link.crypto hlink.2
  | closed => exact congrArg Link.crypto hlink.2
  | requestStop => exact congrArg Link.crypto hlink

/-! ## Runs -/

/-- The counter has counted the packets since the last `SessionDescription`, and
the pairs of the current key are those of lower counter values. -/
structure TransportInv (trace : List (Taken (Connection W H) (Event W)))
    (crypto : VoiceCrypto) : Prop where
  nodup : (transportPairs trace).Nodup
  le : packetsSince trace ≤ 2 ^ 32
  nonce : crypto.nonce = UInt32.ofNat (packetsSince trace)
  below : ∀ nonce, (crypto.key, nonce) ∈ transportPairs trace →
    nonce.toNat < packetsSince trace

variable {trace : List (Taken (Connection W H) (Event W))} {c c' : Connection W H} {e : Event W}

/-- A `SessionDescription`: the new key has no pairs. -/
theorem TransportInv.describes {description : SessionDescription}
    (h : TransportInv trace c.crypto) (hdescribed : described ⟨c, e, c'⟩ = some description)
    (hunused : description.secretKey ∉ (transportPairs trace).map Prod.fst)
    (hcrypto : c'.crypto = describedCrypto c.crypto description) :
    TransportInv (⟨c, e, c'⟩ :: trace) c'.crypto := by
  have hevent : encryptedWith ⟨c, e, c'⟩ = none := by
    unfold described at hdescribed
    split at hdescribed
    · next i env heq =>
        obtain rfl : e = .task i env := heq
        rfl
    · simp at hdescribed
  have hpairs : transportPairs (⟨c, e, c'⟩ :: trace) = transportPairs trace :=
    List.filterMap_cons_none hevent
  have hsince : packetsSince (⟨c, e, c'⟩ :: trace) = 0 := by
    simp [packetsSince, hdescribed]
  constructor
  · rw [hpairs]
    exact h.nodup
  · rw [hsince]
    exact Nat.zero_le _
  · rw [hcrypto, hsince]
    rfl
  · intro nonce hmem
    rw [hcrypto, hpairs] at hmem
    exact absurd (List.mem_map_of_mem hmem) hunused

/-- Nothing was encrypted. -/
theorem TransportInv.rests (h : TransportInv trace c.crypto)
    (hdescribed : described ⟨c, e, c'⟩ = none) (hencrypted : encryptedWith ⟨c, e, c'⟩ = none)
    (hcrypto : c'.crypto = c.crypto) : TransportInv (⟨c, e, c'⟩ :: trace) c'.crypto := by
  have hpairs : transportPairs (⟨c, e, c'⟩ :: trace) = transportPairs trace :=
    List.filterMap_cons_none hencrypted
  have hsince : packetsSince (⟨c, e, c'⟩ :: trace) = packetsSince trace := by
    simp [packetsSince, hdescribed, hencrypted]
  constructor
  · rw [hpairs]
    exact h.nodup
  · rw [hsince]
    exact h.le
  · rw [hcrypto, hsince]
    exact h.nonce
  · rw [hcrypto, hpairs, hsince]
    exact h.below

/-- A packet: its nonce is above those that the key was used with. -/
theorem TransportInv.encrypts {pair : Bytes × UInt32} (h : TransportInv trace c.crypto)
    (hdescribed : described ⟨c, e, c'⟩ = none) (hencrypted : encryptedWith ⟨c, e, c'⟩ = some pair)
    (hlt : packetsSince trace < 2 ^ 32)
    (hcrypto : c'.crypto = { c.crypto with nonce := c.crypto.nonce + 1 }) :
    TransportInv (⟨c, e, c'⟩ :: trace) c'.crypto := by
  have hpair : pair = (c.crypto.key, c.crypto.nonce) := by
    unfold encryptedWith at hencrypted
    split at hencrypted
    · obtain ⟨payload, -, heq⟩ := Option.map_eq_some_iff.mp hencrypted
      exact heq.symm
    · simp at hencrypted
  have hpairs : transportPairs (⟨c, e, c'⟩ :: trace) = pair :: transportPairs trace :=
    List.filterMap_cons_some hencrypted
  have hsince : packetsSince (⟨c, e, c'⟩ :: trace) = packetsSince trace + 1 := by
    simp [packetsSince, hdescribed, hencrypted]
  have hvalue : c.crypto.nonce.toNat = packetsSince trace := by
    rw [h.nonce, UInt32.toNat_ofNat_of_lt' hlt]
  constructor
  · rw [hpairs, List.nodup_cons]
    refine ⟨?_, h.nodup⟩
    intro hmem
    rw [hpair] at hmem
    have hbelow := h.below c.crypto.nonce hmem
    omega
  · rw [hsince]
    exact hlt
  · rw [hcrypto, hsince, h.nonce, UInt32.ofNat_add]
    rfl
  · intro nonce hmem
    rw [hcrypto, hpairs, List.mem_cons] at hmem
    rw [hsince]
    rcases hmem with heq | hmem
    · rw [hpair] at heq
      have hnonce : nonce = c.crypto.nonce := congrArg Prod.snd heq
      rw [hnonce, hvalue]
      exact Nat.lt_succ_self _
    · exact Nat.lt_succ_of_lt (h.below nonce hmem)

theorem TransportInv.step (h : TransportInv trace c.crypto)
    (hallowed : TransportAllowed trace ⟨c, e, c'⟩) (hstep : c.step e = some c') :
    TransportInv (⟨c, e, c'⟩ :: trace) c'.crypto := by
  have hcrypto := step_crypto hstep
  obtain ⟨hfresh, hroom⟩ := hallowed
  cases hdescribed : described ⟨c, e, c'⟩ with
  | some description =>
      rw [hdescribed] at hcrypto hfresh
      exact h.describes hdescribed (hfresh description rfl) hcrypto
  | none =>
      rw [hdescribed] at hcrypto
      cases hencrypted : encryptedWith ⟨c, e, c'⟩ with
      | none =>
          rw [hencrypted] at hcrypto
          exact h.rests hdescribed hencrypted hcrypto
      | some pair =>
          rw [hencrypted] at hcrypto
          exact h.encrypts hdescribed hencrypted (hroom (by rw [hencrypted]; rfl)) hcrypto

theorem transportInv_of_run (hrun : (machine W H).Run trace c) :
    Throughout TransportAllowed trace → TransportInv trace c.crypto := by
  induction hrun with
  | start =>
      intro _
      exact ⟨List.nodup_nil, Nat.zero_le _, rfl, by simp [transportPairs]⟩
  | step hrun hstep ih =>
      intro hallowed
      exact (ih hallowed.2).step hallowed.1 hstep

/-- **No two packets of a run** are encrypted with the same key and nonce, where
each `SessionDescription` brings a key nothing was encrypted with and at most
2 ^ 32 packets follow it. -/
theorem transportPairs_nodup (hrun : (machine W H).Run trace c)
    (hallowed : Throughout TransportAllowed trace) : (transportPairs trace).Nodup :=
  (transportInv_of_run hrun hallowed).nodup

end Connection

/-! ## Two packets -/

/-- Another key of the server. -/
def secondTransportKey : Bytes := List.replicate 32 7

/-- A `SessionDescription` with the key, handled. -/
def describedEvents (key : Bytes) : List (Event (referenceSetting referenceUser)) :=
  handled referenceUser (.sessionDescription ⟨some .aes256GcmRtpsize, key, some 0⟩)

/-- A client connects and sends a frame, the given events happen, and it sends
another frame. -/
def twoPackets (between : List (Event (referenceSetting referenceUser))) :
    List (Event (referenceSetting referenceUser)) :=
  connectEvents referenceUser ++ [.audio ⟨audioFrame, 960⟩] ++ between ++
    [.audio ⟨speechFrame, 960⟩]

/-- The pairs of these packets. -/
def twoPairs (between : List (Event (referenceSetting referenceUser))) :
    List (Bytes × UInt32) :=
  Connection.transportPairs ((referenceMachine referenceUser).recorded (twoPackets between)).1

/-- The server sends another key in between. -/
theorem transportPairs_nodup_twoPackets :
    twoPairs (describedEvents secondTransportKey) =
        [(secondTransportKey, 0), (transportKey, 0)] ∧
      (twoPairs (describedEvents secondTransportKey)).Nodup := by
  constructor
  · decide +kernel
  · have hrun := Machine.run_recorded (referenceMachine referenceUser)
      (twoPackets (describedEvents secondTransportKey)) (by decide +kernel)
    exact Connection.transportPairs_nodup hrun (by decide +kernel)

/-- The server sends its key again: both packets are encrypted with nonce 0. -/
theorem transportPairs_repeated : ∃ trace c,
    (referenceMachine referenceUser).Run trace c ∧
      Connection.transportPairs trace = [(transportKey, 0), (transportKey, 0)] ∧
      ¬ (Connection.transportPairs trace).Nodup := by
  have hrun := Machine.run_recorded (referenceMachine referenceUser)
    (twoPackets (describedEvents transportKey)) (by decide +kernel)
  exact ⟨_, _, hrun, by decide +kernel, by decide +kernel⟩

end Ekizu.Voice
