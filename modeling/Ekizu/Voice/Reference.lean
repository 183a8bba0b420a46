import Ekizu.Dave.Replay
import Ekizu.Voice.Gateway

/-!
# A connection to test with

A small stand-in for MLS whose groups are a number of epochs and a list of
members, AES-256-GCM on the packets below, and the events by which a client
joins an encrypted call.
-/

namespace Ekizu.Voice

open Dave Lib.Decimal Lib.Runs

/-! ## MLS -/

/-- The epoch of a group and its members. -/
structure Group where
  epoch : Nat
  members : List UInt64
  deriving Repr, DecidableEq

/-- The user whose media secret in epoch 1 is `referenceSecret`. -/
def referenceUser : UInt64 := 5

/-- The exported secrets: one known secret, elsewhere an injective stand-in. -/
def Group.secret (g : Group) (context : Bytes) : Bytes :=
  if g.epoch = 1 ∧ context = userIdBytes referenceUser then referenceSecret
  else 255 :: (List.replicate g.epoch 0 ++ 1 :: context)

/-- A Welcome is the epoch and the members, one byte each. -/
def Group.ofWelcome : Bytes → Option Group
  | [] => none
  | epoch :: members => some ⟨epoch.toNat, members.map UInt8.toUInt64⟩

/-- The stand-in for MLS.  Proposals are not needed below and are refused. -/
def referenceMls : Mls where
  State := Group
  ExternalSender := Bytes
  SignaturePrivateKey := Bytes
  HpkePrivateKey := Bytes
  LeafNode := Credential
  KeyPackage := Credential
  MlsMessage := Bytes
  Welcome := Bytes
  ValidatedContent := Bytes
  Epoch := Nat
  generateSignatureKey := some
  generateHpkeKey := some
  leafNode _ _ credential := some credential
  keyPackage _ leaf _ := some leaf
  createGroup _ _ _ leaf _ :=
    match leaf with
    | .basic identity => some ⟨0, [fromBigEndianBytes identity]⟩
    | .other => none
  joinGroup _ _ _ _ welcome := Group.ofWelcome welcome
  getExternalSender := some
  getMessage := some
  getWelcome := some
  getProposals _ := none
  marshalMessage := some
  marshalWelcome := some
  marshalKeyPackage
    | .basic identity => identity
    | .other => []
  groupId message := message.take 8
  epoch := Group.epoch
  unwrap _ message := some message
  authenticatedContent _ := ⟨.mlsPublicMessage, 0, .proposal, .external, .other⟩
  ref := some
  handleProposal state _ := some state
  commit _ _ := none
  welcomeHasSecrets _ := true
  handleCommit state _ _ := (state, none)
  hasExternalSender _ _ := true
  roster state :=
    state.members.map fun member => ⟨.basic (bigEndianBytesFrom member), [member.toUInt8]⟩
  doExport state _ context _ := some (state.secret context)
  epochOf := Group.epoch

theorem referenceMls_exportsByEpoch : referenceMls.ExportsByEpoch := by
  constructor
  · intro a b h userId
    simp only [Mls.mediaSecret, referenceMls, Option.some.injEq] at h ⊢
    simp only [Group.secret, h]
  · intro a b userId secret ha hb
    simp only [Mls.mediaSecret, referenceMls, Option.some.injEq] at ha hb ⊢
    rw [← hb] at ha
    unfold Group.secret at ha
    split at ha
    · next h =>
        split at ha
        · next h' => exact h.1.trans h'.1.symm
        · simp [referenceSecret] at ha
    · split at ha
      · simp [referenceSecret] at ha
      · have hlen := congrArg List.length ha
        simpa using hlen

/-! ## Packets -/

/-- The transport key of the session. -/
def transportKey : Bytes := (List.range 32).map UInt8.ofNat

/-- The RTP header of the packets below, from SSRC 9. -/
def packetHeader : Bytes := [0x80, 0x78, 0, 1, 0, 0, 3, 0xc0, 0, 0, 0, 9]

/-- The encryption of `speechFrame` under `referenceKey` with nonce 1. -/
def sentSpeechFrame : Bytes :=
  [0xa3, 0xdf, 0x01, 0xe0, 0xa0, 0x12, 0x83, 0x42, 0x50, 0x65, 0x0d, 0xbc, 0x7f, 0x5c, 0xd6,
    0x58, 0xad, 0x1c, 0xcf, 0x69, 0x83, 0x00, 0x66, 0x52, 0xda, 0x9c, 0x2d, 0x66, 0xdd, 0x7b,
    0xe5, 0x1a, 0x95, 0xd6, 0x5f, 0x6d, 0x38, 0x9c, 0x29, 0xbc, 0xd5, 0x01, 0x0c, 0xfa, 0xfa]

/-- The transport encryption of `sentSpeechFrame` with nonce 0. -/
def sealedSpeech : Bytes :=
  [0xad, 0x63, 0xb4, 0x3e, 0x15, 0x3e, 0x00, 0xff, 0x58, 0xcd, 0xa4, 0x89, 0x67, 0x70, 0x47,
    0xc1, 0x7f, 0x5f, 0x99, 0x3a, 0xab, 0x81, 0x06, 0x7d, 0x5a, 0x02, 0x9e, 0xe5, 0x18, 0x84,
    0xb8, 0x4c, 0xdb, 0x89, 0xb9, 0xd1, 0x12, 0x6e, 0x91, 0xba, 0xe6, 0xc2, 0x7d, 0x0f, 0x3b,
    0x38, 0x2e, 0xcb, 0x29, 0x81, 0x44, 0x2d, 0xe0, 0x65, 0xb8, 0xaa, 0x9b, 0x81, 0x6e, 0xc0,
    0x46]

/-- The transport encryption of `audioFrame` with nonce 1. -/
def sealedAudio : Bytes :=
  [0x3c, 0x37, 0xcf, 0xa9, 0xf1, 0x4e, 0xd1, 0x62, 0xf9, 0xa2, 0xd5, 0x0f, 0x5a, 0xee, 0xe8,
    0x50, 0x84, 0x59, 0xd7, 0x89]

/-- The datagram with `speechFrame`, encrypted end to end. -/
def speechDatagram : Bytes := packetHeader ++ sealedSpeech ++ [0, 0, 0, 0]

/-- The datagram with `audioFrame`, encrypted to the server only. -/
def plainDatagram : Bytes := packetHeader ++ sealedAudio ++ [0, 0, 0, 1]

/-- The transport encryption of `sentAudioFrame` with nonce 0. -/
def sealedSentAudio : Bytes :=
  [0xad, 0x63, 0xb4, 0x3e, 0x71, 0x70, 0xc3, 0xc2, 0x40, 0x24, 0x32, 0xa5, 0x19, 0x20, 0x6b,
    0x63, 0xe1, 0xb5, 0x29, 0xb5, 0xc8, 0x48, 0x0c, 0x5c, 0x71, 0x91, 0xfc, 0x9d, 0x23, 0xb8,
    0x96, 0xc8]

/-- The IV, the plaintext and the ciphertext of a packet under `transportKey`
with `packetHeader`. -/
structure PacketVector where
  iv : Bytes
  plaintext : Bytes
  ciphertext : Bytes

def packetVectors : List PacketVector :=
  [ ⟨List.replicate 12 0, sentSpeechFrame, sealedSpeech⟩,
    ⟨List.replicate 12 0, sentAudioFrame, sealedSentAudio⟩,
    ⟨[0, 0, 0, 1] ++ List.replicate 8 0, audioFrame, sealedAudio⟩ ]

/-- The stand-in for a cipher: a tag of zeros. -/
def zeroTagged (plaintext : Bytes) : Bytes := plaintext ++ List.replicate 16 0

/-- What the stand-in decrypts. -/
def untagged (ciphertext : Bytes) : Option Bytes :=
  if ciphertext.drop (ciphertext.length - 16) = List.replicate 16 0 then
    some (ciphertext.take (ciphertext.length - 16))
  else none

/-- AES-256-GCM on the packets above in both directions, and a stand-in for both
ciphers elsewhere. -/
def referenceSodium : Sodium where
  xchacha20Encrypt _ _ _ plaintext := some (zeroTagged plaintext)
  xchacha20Decrypt _ _ _ ciphertext := untagged ciphertext
  aes256GcmEncrypt key iv additionalData plaintext :=
    match packetVectors.find? fun v =>
        transportKey = key ∧ packetHeader = additionalData ∧ v.iv = iv ∧
          v.plaintext = plaintext with
    | some v => some v.ciphertext
    | none => some (zeroTagged plaintext)
  aes256GcmDecrypt key iv additionalData ciphertext :=
    match packetVectors.find? fun v =>
        transportKey = key ∧ packetHeader = additionalData ∧ v.iv = iv ∧
          v.ciphertext = ciphertext with
    | some v => some v.plaintext
    | none => untagged ciphertext

theorem untagged_zeroTagged (plaintext : Bytes) :
    untagged (zeroTagged plaintext) = some plaintext := by
  have hlen : (zeroTagged plaintext).length - 16 = plaintext.length := by simp [zeroTagged]
  rw [untagged, hlen, zeroTagged, List.drop_left, if_pos rfl, List.take_left]

/-! ## Joining a call -/

/-- The setting of a client with the given id. -/
def referenceSetting (userId : UInt64) : Setting where
  gcm := referenceGcm
  sodium := referenceSodium
  mls := referenceMls
  userId
  channelId := 77
  sessionId := [1]

instance (userId : UInt64) : DecidableEq (referenceSetting userId).mls.Epoch :=
  inferInstanceAs (DecidableEq Nat)

/-- What every step below reads from outside. -/
def referenceEnv (userId : UInt64) : Env (referenceSetting userId) where
  entropy := { persistedKey := some [2], hpkeKey := [3], joinInitKey := [4] }
  now _ := referenceInstant
  created _ := referenceInstant

section

variable (userId : UInt64)

/-- A message, handled on the strand. -/
def handled (message : ServerMessage) : List (Event (referenceSetting userId)) :=
  [.message message (referenceEnv userId).entropy, .task 0 (referenceEnv userId)]

/-- A message, whose answer is sent. -/
def answered (message : ServerMessage) : List (Event (referenceSetting userId)) :=
  handled userId message ++ [.sent 0 true (referenceEnv userId)]

/-- Connect, set up UDP, get the keys of the session and the external sender. -/
def connectEvents : List (Event (referenceSetting userId)) :=
  [ .run, .task 0 (referenceEnv userId),
    .message .hello {}, .sent 0 true (referenceEnv userId),
    .message (.ready 9) (referenceEnv userId).entropy, .udpSetUp .done,
    .sent 0 true (referenceEnv userId) ] ++
  handled userId (.sessionDescription ⟨some .aes256GcmRtpsize, transportKey, some 1⟩) ++
  answered userId (.binary .daveMlsExternalSender [1])

/-- A Welcome with transition id 0, executed at once. -/
def welcomeEvents (group : Bytes) : List (Event (referenceSetting userId)) :=
  answered userId (.binary .daveMlsWelcome ([0, 0] ++ group)) ++
    [.task 0 (referenceEnv userId)]

/-- The machine of the client. -/
abbrev referenceMachine :
    Machine (Connection (referenceSetting userId) Chain) (Event (referenceSetting userId)) :=
  Connection.machine (referenceSetting userId) Chain

/-- The state after a list of events. -/
def after (events : List (Event (referenceSetting userId))) :
    Connection (referenceSetting userId) Chain :=
  ((referenceMachine userId).exec {} events).getD {}

end

variable {userId : UInt64} {events : List (Event (referenceSetting userId))}

theorem exec_after (h : ((referenceMachine userId).exec {} events).isSome = true) :
    (referenceMachine userId).exec {} events = some (after userId events) := by
  obtain ⟨c, hc⟩ := Option.isSome_iff_exists.mp h
  rw [after, hc, Option.getD_some]

theorem reachable_after (h : ((referenceMachine userId).exec {} events).isSome = true) :
    (referenceMachine userId).Reachable (after userId events) :=
  Machine.Reachable.start.exec (exec_after h)

end Ekizu.Voice
