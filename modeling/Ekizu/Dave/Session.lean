import Ekizu.Dave.AeadCipher
import Ekizu.Lib.Decimal
import Mathlib.Data.List.AList

/-!
# The MLS session

`src/dave/session.cpp` with `user_credential.hpp`.  The MLS implementation
(mlspp) is another package and a parameter here; `none` is a call that throws.
Every `noexcept` function of the session catches what it throws, so each of
them returns a session that holds what was done before the exception.

## Main results

* `currentState_processProposals`, `processCommit_cases`,
  `processWelcome_cases` — what each message of the group can do to the session.
-/

namespace Ekizu.Dave

open Lib.Decimal

/-! ## The MLS library -/

/-- `mlspp::Credential`. -/
inductive Credential where
  | basic (identity : Bytes)
  | other
  deriving Repr, DecidableEq

/-- The fields of a leaf of the ratchet tree that the session reads. -/
structure RosterLeaf where
  credential : Credential
  signatureKey : Bytes
  deriving DecidableEq

/-- `mlspp::WireFormat`. -/
inductive WireFormat where
  | mlsPublicMessage
  | mlsPrivateMessage
  | mlsWelcome
  | mlsGroupInfo
  | mlsKeyPackage
  deriving Repr, DecidableEq

/-- `mlspp::ContentType`. -/
inductive ContentType where
  | application
  | proposal
  | commit
  deriving Repr, DecidableEq

/-- `mlspp::SenderType`. -/
inductive SenderType where
  | member
  | external
  | newMemberProposal
  | newMemberCommit
  deriving Repr, DecidableEq

/-- `mlspp::Proposal`, as far as the session looks into it. -/
inductive Proposal where
  | add (credential : Credential)
  | remove
  | other
  deriving Repr, DecidableEq

/-- The fields of `mlspp::AuthenticatedContent` that `validate_proposal_message`
reads. -/
structure AuthenticatedContent where
  wireFormat : WireFormat
  epoch : Nat
  contentType : ContentType
  senderType : SenderType
  proposal : Proposal

/-- The part of mlspp that the session calls.  Key generation takes the random
bytes it draws as an argument. -/
structure Mls where
  State : Type
  ExternalSender : Type
  SignaturePrivateKey : Type
  HpkePrivateKey : Type
  LeafNode : Type
  KeyPackage : Type
  MlsMessage : Type
  Welcome : Type
  ValidatedContent : Type
  /-- What tells the epochs of all groups apart. -/
  Epoch : Type
  generateSignatureKey : (random : Bytes) → Option SignaturePrivateKey
  generateHpkeKey : (random : Bytes) → Option HpkePrivateKey
  leafNode : HpkePrivateKey → SignaturePrivateKey → Credential → Option LeafNode
  keyPackage : HpkePrivateKey → LeafNode → SignaturePrivateKey → Option KeyPackage
  createGroup : (groupId : Bytes) → HpkePrivateKey → SignaturePrivateKey → LeafNode →
    ExternalSender → Option State
  joinGroup : (initKey leafKey : HpkePrivateKey) → SignaturePrivateKey → KeyPackage →
    Welcome → Option State
  getExternalSender : Bytes → Option ExternalSender
  getMessage : Bytes → Option MlsMessage
  getWelcome : Bytes → Option Welcome
  /-- The references to revoke, or the proposals to add. -/
  getProposals : Bytes → Option (List Bytes ⊕ List MlsMessage)
  marshalMessage : MlsMessage → Option Bytes
  marshalWelcome : Welcome → Option Bytes
  marshalKeyPackage : KeyPackage → Bytes
  groupId : MlsMessage → Bytes
  epoch : State → Nat
  unwrap : State → MlsMessage → Option ValidatedContent
  authenticatedContent : ValidatedContent → AuthenticatedContent
  ref : ValidatedContent → Option Bytes
  handleProposal : State → ValidatedContent → Option State
  commit : State → (commitSecret : Bytes) → Option (MlsMessage × Welcome × State)
  welcomeHasSecrets : Welcome → Bool
  /-- The state as the call leaves it, and what it returns: in place of a commit
  a proposal is cached, and there is no new state. -/
  handleCommit : State → MlsMessage → (cachedState : Option State) →
    State × Option (Option State)
  /-- Whether the group's only external sender is the given one. -/
  hasExternalSender : State → ExternalSender → Bool
  roster : State → List RosterLeaf
  doExport : State → (label context : Bytes) → (size : Nat) → Option Bytes
  /-- The epoch whose key schedule the state holds. -/
  epochOf : State → Epoch

/-- The random bytes and the stored key that one call draws on. -/
structure Entropy (M : Mls) where
  persistedKey : Option M.SignaturePrivateKey := none
  signatureKey : Bytes := []
  hpkeKey : Bytes := []
  joinInitKey : Bytes := []
  commitSecret : Bytes := []

/-! ## Identities -/

/-- `big_endian_bytes_from`. -/
def bigEndianBytesFrom (value : UInt64) : Bytes :=
  (List.range 8).map fun i => (value >>> UInt64.ofNat (8 * (7 - i))).toUInt8

/-- `from_big_endian_bytes`: at most the first eight bytes count. -/
def fromBigEndianBytes (bytes : Bytes) : UInt64 :=
  (bytes.take 8).foldl (fun value b => value <<< 8 ||| b.toUInt64) 0

/-- `create_user_credential`. -/
def createUserCredential (userId : Bytes) : Credential :=
  match stoull userId with
  | some id => .basic (bigEndianBytesFrom id)
  | none => .basic userId

/-- `user_credential_to_string`. -/
def userCredentialToString : Credential → Bytes
  | .other => []
  | .basic identity =>
      if identity.length = 8 then toDecimal (fromBigEndianBytes identity) else identity

/-- `RosterMap`: the signature key of each member. -/
abbrev RosterMap := AList fun _ : UInt64 => Bytes

/-- `std::set_difference` of two rosters: the entries of `a` that `b` does not
have with the same key. -/
def RosterMap.difference (a b : RosterMap) : RosterMap :=
  ⟨a.entries.filter fun e => b.lookup e.1 ≠ some e.2, a.nodupKeys.sublist List.filter_sublist⟩

/-- `map::try_emplace`. -/
def RosterMap.tryEmplace (m : RosterMap) (userId : UInt64) (key : Bytes) : RosterMap :=
  if (m.lookup userId).isSome then m else m.insert userId key

/-- The roster of an MLS state, as `replace_state` collects it. -/
def collectRoster (leaves : List RosterLeaf) : RosterMap :=
  leaves.foldl (fun roster leaf =>
    match leaf.credential with
    | .basic identity => roster.insert (fromBigEndianBytes identity) leaf.signatureKey
    | .other => roster) ∅

/-- The map `replace_state` returns: what was added or changed, and every
member that is gone with an empty key. -/
def rosterChange (newRoster roster : RosterMap) : RosterMap :=
  (RosterMap.difference roster newRoster).entries.foldl
    (fun changeMap e => changeMap.tryEmplace e.1 []) (RosterMap.difference newRoster roster)

/-! ## The session -/

/-- `struct QueuedProposal`. -/
structure QueuedProposal (M : Mls) where
  content : M.ValidatedContent
  ref : Bytes

/-- `struct Session`. -/
structure Session (M : Mls) where
  sessionProtocolVersion : UInt16 := 0
  sessionGroupId : Bytes := []
  signingKeyId : Bytes := []
  selfLeafNode : Option M.LeafNode := none
  signaturePrivateKey : Option M.SignaturePrivateKey := none
  hpkePrivateKey : Option M.HpkePrivateKey := none
  joinInitPrivateKey : Option M.HpkePrivateKey := none
  joinKeyPackage : Option M.KeyPackage := none
  mlsExternalSender : Option M.ExternalSender := none
  pendingGroupState : Option M.State := none
  pendingGroupCommit : Option M.MlsMessage := none
  outboundCachedGroupState : Option M.State := none
  currentState : Option M.State := none
  roster : RosterMap := ∅
  stateWithProposals : Option M.State := none
  proposalQueue : List (QueuedProposal M) := []

/-- `RosterVariant`. -/
inductive RosterVariant where
  | failed
  | ignored
  | roster (changeMap : RosterMap)

namespace Session

variable {M : Mls}

/-- `clear_pending_state`. -/
def clearPendingState (s : Session M) : Session M :=
  { s with
    pendingGroupState := none
    pendingGroupCommit := none
    joinInitPrivateKey := none
    joinKeyPackage := none
    hpkePrivateKey := none
    selfLeafNode := none
    stateWithProposals := none
    proposalQueue := [] }

/-- `Session::reset`. -/
def reset (s : Session M) : Session M :=
  { s.clearPendingState with
    currentState := none
    outboundCachedGroupState := none
    sessionProtocolVersion := 0
    sessionGroupId := [] }

/-- `Session::set_protocol_version`. -/
def setProtocolVersion (s : Session M) (version : UInt16) : Session M :=
  { s with sessionProtocolVersion := version }

/-- `Session::is_initialized`. -/
def isInitialized (s : Session M) : Bool := s.sessionGroupId ≠ []

/-- `Session::has_external_sender`. -/
def hasExternalSender (s : Session M) : Bool := s.mlsExternalSender.isSome

/-- `Session::has_current_state`. -/
def hasCurrentState (s : Session M) : Bool := s.currentState.isSome

/-- The epoch of the current state. -/
def epoch (s : Session M) : Option M.Epoch := s.currentState.map M.epochOf

/-- `create_pending_group`. -/
def createPendingGroup (s : Session M) : Session M :=
  if s.sessionGroupId = [] then s
  else
    match s.mlsExternalSender, s.selfLeafNode, s.hpkePrivateKey, s.signaturePrivateKey with
    | some sender, some leaf, some hpke, some signature =>
        match M.createGroup s.sessionGroupId hpke signature leaf sender with
        | some state => { s with pendingGroupState := some state }
        | none => s
    | _, _, _, _ => s

/-- The key `init_leaf_node` signs with: the one it was given, the stored one,
or a new one when the session has no key id. -/
def transientKeyFor (s : Session M) (entropy : Entropy M)
    (transientKey : Option M.SignaturePrivateKey) : Option M.SignaturePrivateKey :=
  match transientKey with
  | some key => some key
  | none =>
      if s.signingKeyId ≠ [] then entropy.persistedKey
      else M.generateSignatureKey entropy.signatureKey

/-- `init_leaf_node`; the transient key is passed by reference. -/
def initLeafNode (s : Session M) (entropy : Entropy M) (selfUserId : UInt64)
    (transientKey : Option M.SignaturePrivateKey) :
    Session M × Option M.SignaturePrivateKey :=
  match s.transientKeyFor entropy transientKey with
  | none => (s, transientKey)
  | some signature =>
      let s := { s with signaturePrivateKey := some signature }
      match M.generateHpkeKey entropy.hpkeKey with
      | none => (s, some signature)
      | some hpke =>
          let s := { s with hpkePrivateKey := some hpke }
          let credential := createUserCredential (toDecimal selfUserId)
          match M.leafNode hpke signature credential with
          | none => (s, some signature)
          | some leaf => ({ s with selfLeafNode := some leaf }, some signature)

/-- `Session::init`. -/
def init (s : Session M) (entropy : Entropy M) (version : UInt16) (groupId selfUserId : UInt64)
    (transientKey : Option M.SignaturePrivateKey) :
    Session M × Option M.SignaturePrivateKey :=
  let s := { s.reset with
    sessionProtocolVersion := version
    sessionGroupId := bigEndianBytesFrom groupId }
  let (s, transientKey) := s.initLeafNode entropy selfUserId transientKey
  (s.createPendingGroup, transientKey)

/-- `Session::set_external_sender`. -/
def setExternalSender (s : Session M) (package : Bytes) : Session M :=
  if s.currentState.isSome then s
  else
    match M.getExternalSender package with
    | none => s
    | some sender =>
        let s := { s with mlsExternalSender := some sender }
        if s.sessionGroupId ≠ [] then s.createPendingGroup else s

/-- `is_recognized_user_id`. -/
def isRecognizedUserId (credential : Credential) (recognised : List UInt64) : Bool :=
  let text := userCredentialToString credential
  if text = [] then false
  else
    match stoull text with
    | some id => recognised.contains id
    | none => false

/-- `validate_proposal_message`; the state only contributes its epoch. -/
def validateProposalMessage (message : AuthenticatedContent) (targetEpoch : Nat)
    (recognised : List UInt64) : Bool :=
  if message.wireFormat ≠ .mlsPublicMessage then false
  else if message.epoch ≠ targetEpoch then false
  else if message.contentType ≠ .proposal then false
  else if message.senderType ≠ .external then false
  else
    match message.proposal with
    | .add credential => isRecognizedUserId credential recognised
    | .remove => true
    | .other => false

/-- The loop of `process_proposals` over queued proposals; `false` when it threw. -/
def handleQueued : M.State → List (QueuedProposal M) → M.State × Bool
  | state, [] => (state, true)
  | state, queued :: queue =>
      match M.handleProposal state queued.content with
      | none => (state, false)
      | some state => handleQueued state queue

/-- The loop of `process_proposals` over new proposals; `false` when one of
them was refused or threw. -/
def addProposals (recognised : List UInt64) : M.State → List (QueuedProposal M) →
    List M.MlsMessage → M.State × List (QueuedProposal M) × Bool
  | state, queue, [] => (state, queue, true)
  | state, queue, message :: messages =>
      match M.unwrap state message with
      | none => (state, queue, false)
      | some content =>
          if validateProposalMessage (M.authenticatedContent content) (M.epoch state)
              recognised = false then (state, queue, false)
          else
            match M.handleProposal state content with
            | none => (state, queue, false)
            | some state =>
                match M.ref content with
                | none => (state, queue, false)
                | some ref => addProposals recognised state (queue ++ [⟨content, ref⟩]) messages

/-- Remove the first queued proposal with each of the references. -/
def revoke (queue : List (QueuedProposal M)) (refs : List Bytes) : List (QueuedProposal M) :=
  refs.foldl (fun queue ref => queue.eraseP fun queued => queued.ref = ref) queue

/-- The Welcome as it is written after the commit: only one with secrets is. -/
def welcomeBytes (welcome : M.Welcome) : Option Bytes :=
  if M.welcomeHasSecrets welcome then M.marshalWelcome welcome else some []

/-- `process_proposals` after its loop: commit to everything that was queued.  The
commit is kept before the Welcome is written. -/
def commitProposals (s : Session M) (entropy : Entropy M) (state : M.State) :
    Session M × Option Bytes :=
  match M.commit state entropy.commitSecret with
  | none => (s, none)
  | some (commitMessage, welcomeMessage, newState) =>
      match M.marshalMessage commitMessage with
      | none => (s, none)
      | some commit =>
          let s := { s with pendingGroupCommit := some commitMessage }
          match welcomeBytes welcomeMessage with
          | none => (s, none)
          | some welcome =>
              ({ s with outboundCachedGroupState := some newState }, some (commit ++ welcome))

/-- `Session::process_proposals`. -/
def processProposals (s : Session M) (entropy : Entropy M) (proposals : Bytes)
    (recognised : List UInt64) : Session M × Option Bytes :=
  match s.pendingGroupState.or s.currentState with
  | none => (s, none)
  | some base =>
      let state := s.stateWithProposals.getD base
      let s := { s with stateWithProposals := some state }
      match M.getProposals proposals with
      | none => (s, none)
      | some (.inl refs) =>
          let queue := revoke s.proposalQueue refs
          let (state, handled) := handleQueued base queue
          let s := { s with proposalQueue := queue, stateWithProposals := some state }
          if handled then s.commitProposals entropy state else (s, none)
      | some (.inr messages) =>
          let (state, queue, added) := addProposals recognised state s.proposalQueue messages
          let s := { s with proposalQueue := queue, stateWithProposals := some state }
          if added then s.commitProposals entropy state else (s, none)

/-- `replace_state`. -/
def replaceState (s : Session M) (state : M.State) : Session M × RosterMap :=
  let newRoster := collectRoster (M.roster state)
  ({ s with roster := newRoster, currentState := some state },
    rosterChange newRoster s.roster)

/-- `Session::process_commit`. -/
def processCommit (s : Session M) (commit : Bytes) : Session M × RosterVariant :=
  match M.getMessage commit with
  | none => (s, .failed)
  | some message =>
      match s.stateWithProposals with
      | none => (s, .ignored)
      | some state =>
          if M.groupId message ≠ s.sessionGroupId then (s, .ignored)
          else
            match M.handleCommit state message s.outboundCachedGroupState with
            | (_, some (some newState)) =>
                let (s, changeMap) := s.replaceState newState
                ({ s with outboundCachedGroupState := none }.clearPendingState,
                  .roster changeMap)
            | (state, _) => ({ s with stateWithProposals := some state }, .failed)

/-- `Session::process_welcome`.  `verify_welcome_state` compares the external
sender; its look at the recognised users has no effect. -/
def processWelcome (s : Session M) (welcome : Bytes) : Session M × Option RosterMap :=
  match s.joinKeyPackage, s.joinInitPrivateKey, s.signaturePrivateKey, s.hpkePrivateKey,
      s.mlsExternalSender with
  | some package, some initKey, some signature, some hpke, some sender =>
      if s.currentState.isSome then (s, none)
      else
        match (M.getWelcome welcome).bind (M.joinGroup initKey hpke signature package) with
        | none => (s, none)
        | some state =>
            if M.hasExternalSender state sender = false then (s, none)
            else
              let (s, changeMap) := s.replaceState state
              (s.clearPendingState, some changeMap)
  | _, _, _, _, _ => (s, none)

/-- `reset_join_key_package`. -/
def resetJoinKeyPackage (s : Session M) (entropy : Entropy M) : Session M :=
  match s.selfLeafNode, s.signaturePrivateKey with
  | some leaf, some signature =>
      match M.generateHpkeKey entropy.joinInitKey with
      | none => s
      | some initKey =>
          let s := { s with joinInitPrivateKey := some initKey }
          match M.keyPackage initKey leaf signature with
          | none => s
          | some package => { s with joinKeyPackage := some package }
  | _, _ => s

/-- `Session::get_marshalled_key_package`. -/
def getMarshalledKeyPackage (s : Session M) (entropy : Entropy M) : Session M × Bytes :=
  let s := s.resetJoinKeyPackage entropy
  (s, (s.joinKeyPackage.map M.marshalKeyPackage).getD [])

end Session

/-! ## Media keys -/

/-- `USER_MEDIA_KEY_BASE_LABEL = "Discord Secure Frames v0"`. -/
def userMediaKeyBaseLabel : Bytes :=
  [68, 105, 115, 99, 111, 114, 100, 32, 83, 101, 99, 117, 114, 101, 32, 70, 114, 97, 109, 101,
    115, 32, 118, 48]

/-- A user id as it lies in memory, low byte first. -/
def userIdBytes (userId : UInt64) : Bytes :=
  (List.range 8).map fun i => (userId >>> UInt64.ofNat (8 * i)).toUInt8

/-- The base secret of a user's media keys in an MLS state. -/
def Mls.mediaSecret (M : Mls) (state : M.State) (userId : UInt64) : Option Bytes :=
  M.doExport state userMediaKeyBaseLabel (userIdBytes userId) 16

/-- `Session::get_key_ratchet`; a null pointer is `none`. -/
def Session.getKeyRatchet {M : Mls} (H : Type) [HashRatchet H] (s : Session M)
    (userId : UInt64) : Option (KeyRatchet H) := do
  let state ← s.currentState
  let secret ← M.mediaSecret state userId
  pure (.mls (HashRatchet.ofSecret secret))

/-- What MLS promises of the exported secrets: the export of a user is decided
by the epoch, and no two epochs share one. -/
structure Mls.ExportsByEpoch (M : Mls) : Prop where
  same : ∀ {a b : M.State}, M.epochOf a = M.epochOf b → ∀ userId,
    M.mediaSecret a userId = M.mediaSecret b userId
  distinct : ∀ {a b : M.State} {userId : UInt64} {secret : Bytes},
    M.mediaSecret a userId = some secret → M.mediaSecret b userId = some secret →
      M.epochOf a = M.epochOf b

namespace Session

variable {M : Mls} (s : Session M)

/-! ## What each operation leaves alone -/

theorem currentState_createPendingGroup :
    s.createPendingGroup.currentState = s.currentState := by
  unfold createPendingGroup
  split
  · rfl
  · split
    · split <;> rfl
    · rfl

theorem currentState_init (entropy : Entropy M) (version : UInt16)
    (groupId selfUserId : UInt64) (transientKey : Option M.SignaturePrivateKey) :
    (s.init entropy version groupId selfUserId transientKey).1.currentState = none := by
  have hleaf : ∀ (t : Session M), (t.initLeafNode entropy selfUserId transientKey).1.currentState =
      t.currentState := by
    intro t
    unfold initLeafNode
    split
    · rfl
    · dsimp only
      split
      · rfl
      · split <;> rfl
  simp only [init]
  rw [currentState_createPendingGroup, hleaf]
  rfl

theorem currentState_setExternalSender (package : Bytes) :
    (s.setExternalSender package).currentState = s.currentState := by
  unfold setExternalSender
  split
  · rfl
  · split
    · rfl
    · dsimp only
      split
      · exact currentState_createPendingGroup _
      · rfl

theorem currentState_getMarshalledKeyPackage (entropy : Entropy M) :
    (s.getMarshalledKeyPackage entropy).1.currentState = s.currentState := by
  simp only [getMarshalledKeyPackage]
  unfold resetJoinKeyPackage
  split
  · split
    · rfl
    · dsimp only
      split <;> rfl
  · rfl

/-- The commit to the queued proposals only changes what is kept of commits. -/
theorem commitProposals_eq (entropy : Entropy M) (state : M.State) : ∃ commit cached,
    (s.commitProposals entropy state).1 =
      { s with pendingGroupCommit := commit, outboundCachedGroupState := cached } := by
  unfold commitProposals
  split
  · exact ⟨_, _, rfl⟩
  · split
    · exact ⟨_, _, rfl⟩
    · dsimp only
      split
      · exact ⟨_, _, rfl⟩
      · exact ⟨_, _, rfl⟩

/-- Proposals only touch what is pending. -/
theorem currentState_processProposals (entropy : Entropy M) (proposals : Bytes)
    (recognised : List UInt64) :
    (s.processProposals entropy proposals recognised).1.currentState = s.currentState := by
  have hcommit : ∀ (t : Session M) (state : M.State),
      (t.commitProposals entropy state).1.currentState = t.currentState := by
    intro t state
    obtain ⟨commit, cached, hcommit⟩ := t.commitProposals_eq entropy state
    rw [hcommit]
  unfold processProposals
  split
  · rfl
  · dsimp only
    split
    · rfl
    · split
      · exact hcommit _ _
      · rfl
    · split
      · exact hcommit _ _
      · rfl

/-- A commit either leaves the current state as it was or installs a new one. -/
theorem processCommit_cases (commit : Bytes) :
    ((s.processCommit commit).1.currentState = s.currentState ∧
      ∀ changeMap, (s.processCommit commit).2 ≠ .roster changeMap) ∨
    ∃ state, (s.processCommit commit).1.currentState = some state ∧
      (s.processCommit commit).2 =
        .roster (rosterChange (collectRoster (M.roster state)) s.roster) := by
  unfold processCommit
  split
  · exact .inl ⟨rfl, by simp⟩
  · split
    · exact .inl ⟨rfl, by simp⟩
    · split
      · exact .inl ⟨rfl, by simp⟩
      · split
        · exact .inr ⟨_, rfl, rfl⟩
        · exact .inl ⟨rfl, by simp⟩

/-- A Welcome either leaves the session as it was or, where there was no
current state, installs the one it invites to. -/
theorem processWelcome_cases (welcome : Bytes) :
    ((s.processWelcome welcome).1 = s ∧ (s.processWelcome welcome).2 = none) ∨
    ∃ state, s.currentState = none ∧ (s.processWelcome welcome).1.currentState = some state ∧
      (s.processWelcome welcome).2 =
        some (rosterChange (collectRoster (M.roster state)) s.roster) := by
  unfold processWelcome
  split
  · split
    · exact .inl ⟨rfl, rfl⟩
    · next hcurrent =>
        split
        · exact .inl ⟨rfl, rfl⟩
        · split
          · exact .inl ⟨rfl, rfl⟩
          · exact .inr ⟨_, by simpa using hcurrent, rfl, rfl⟩
  · exact .inl ⟨rfl, rfl⟩

theorem getKeyRatchet_eq_some_iff {H : Type} [HashRatchet H] {userId : UInt64}
    {ratchet : KeyRatchet H} :
    s.getKeyRatchet H userId = some ratchet ↔ ∃ state secret, s.currentState = some state ∧
      M.mediaSecret state userId = some secret ∧
      ratchet = .mls (HashRatchet.ofSecret secret) := by
  simp only [getKeyRatchet, Option.bind_eq_bind, Option.bind_eq_some_iff, Option.pure_def,
    Option.some.injEq]
  constructor
  · rintro ⟨state, hstate, secret, hsecret, rfl⟩
    exact ⟨state, secret, hstate, hsecret, rfl⟩
  · rintro ⟨state, secret, hstate, hsecret, rfl⟩
    exact ⟨state, hstate, secret, hsecret, rfl⟩

end Session

end Ekizu.Dave
