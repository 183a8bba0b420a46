import Ekizu.Dave.Proposals

/-!
# Who enters the group

The members of `m_current_state` over the runs of a session.  A member comes in
by a commit, where `process_proposals` has checked the added credentials against
the users it was given, or by a Welcome, where `verify_welcome_state` looks at
every leaf of the roster and discards what it finds.

## Main results

* `entered_iff` — only recognised users enter in a run exactly when every Welcome
  that the session accepts invites to a group of recognised users.
* `entered_unrecognised` — a Welcome brings in a user that nobody recognised.
-/

namespace Ekizu.Dave

open Lib.Decimal Lib.Runs

/-! ## User ids -/

/-- One more byte of a big-endian number. -/
theorem toNat_append_byte (acc : UInt64) (b : UInt8) (h : acc.toNat < 2 ^ 56) :
    (acc <<< 8 ||| b.toUInt64).toNat = acc.toNat * 256 + b.toNat := by
  have hlt := b.toNat_lt
  have hhigh : (acc <<< 8).toNat = acc.toNat <<< 8 := by
    simp [Nat.shiftLeft_eq]
    omega
  rw [UInt64.toNat_or, hhigh, UInt8.toNat_toUInt64, ← Nat.shiftLeft_add_eq_or_of_lt hlt,
    Nat.shiftLeft_eq]

/-- After the first `k` bytes the low `8 * (8 - k)` bits are missing. -/
theorem foldl_bigEndian (value : UInt64) {k : Nat} (hk : k ≤ 8) :
    (((List.range k).map fun i => (value >>> UInt64.ofNat (8 * (7 - i))).toUInt8).foldl
      (fun (acc : UInt64) (b : UInt8) => acc <<< 8 ||| b.toUInt64) 0).toNat =
        value.toNat / 2 ^ (8 * (8 - k)) := by
  induction k with
  | zero =>
      have hlt := value.toNat_lt
      simp [Nat.div_eq_of_lt hlt]
  | succ k ih =>
      have hshift : (value >>> UInt64.ofNat (8 * (7 - k))).toNat =
          value.toNat / 2 ^ (8 * (7 - k)) := by
        rw [UInt64.toNat_shiftRight, UInt64.toNat_ofNat', Nat.shiftRight_eq_div_pow]
        congr 2
        omega
      have hhigh : value.toNat / 2 ^ (8 * (8 - k)) = value.toNat / 2 ^ (8 * (7 - k)) / 256 := by
        rw [Nat.div_div_eq_div_mul, show (256 : Nat) = 2 ^ 8 from rfl, ← Nat.pow_add]
        congr 2
        omega
      have hlow : ((value >>> UInt64.ofNat (8 * (7 - k))).toUInt8).toNat =
          value.toNat / 2 ^ (8 * (7 - k)) % 256 := by
        rw [UInt64.toNat_toUInt8, hshift]
      have hle := Nat.div_le_self value.toNat (2 ^ (8 * (7 - k)))
      have hlt := value.toNat_lt
      rw [List.range_succ, List.map_append, List.foldl_append, List.map_singleton,
        List.foldl_cons, List.foldl_nil, toNat_append_byte, ih (by omega), hhigh, hlow,
        show 8 * (8 - (k + 1)) = 8 * (7 - k) by omega]
      · omega
      · rw [ih (by omega), hhigh]
        omega

theorem fromBigEndianBytes_bigEndianBytesFrom (value : UInt64) :
    fromBigEndianBytes (bigEndianBytesFrom value) = value := by
  apply UInt64.toNat_inj.mp
  have h := foldl_bigEndian value (Nat.le_refl 8)
  rw [Nat.sub_self, Nat.mul_zero, Nat.pow_zero, Nat.div_one] at h
  exact h

/-- The user that a basic credential names. -/
def Credential.userId : Credential → Option UInt64
  | .basic identity => stoull (userCredentialToString (.basic identity))
  | .other => none

/-- A basic credential of one of the recognised users. -/
def BelongsTo (credential : Credential) (recognised : List UInt64) : Prop :=
  ∃ id ∈ recognised, credential.userId = some id

instance (credential : Credential) (recognised : List UInt64) :
    Decidable (BelongsTo credential recognised) :=
  List.decidableBEx (fun id => credential.userId = some id) recognised

/-- `is_recognized_user_id` finds the basic credentials of the recognised users. -/
theorem isRecognizedUserId_iff (credential : Credential) (recognised : List UInt64) :
    Session.isRecognizedUserId credential recognised = true ↔ BelongsTo credential recognised := by
  cases credential with
  | other =>
      constructor
      · intro h
        cases h
      · rintro ⟨id, -, hid⟩
        cases hid
  | basic identity =>
      simp only [Session.isRecognizedUserId, BelongsTo, Credential.userId]
      by_cases htext : userCredentialToString (.basic identity) = []
      · rw [if_pos htext, htext]
        constructor
        · intro h
          cases h
        · rintro ⟨id, -, hid⟩
          cases hid
      · rw [if_neg htext]
        cases stoull (userCredentialToString (.basic identity)) with
        | none => simp
        | some id => simp

/-- The session's own credential names its own user. -/
theorem userId_createUserCredential (id : UInt64) :
    (createUserCredential (toDecimal id)).userId = some id := by
  have hlength : (bigEndianBytesFrom id).length = 8 := by simp [bigEndianBytesFrom]
  simp only [createUserCredential, stoull_toDecimal, Credential.userId, userCredentialToString,
    hlength, if_true, fromBigEndianBytes_bigEndianBytesFrom]

/-! ## The members of an MLS state -/

/-- A new group has its creator as only member, and handling a proposal changes
nobody, also where it comes in place of a commit. -/
structure Mls.KeepsRoster (M : Mls) : Prop where
  create : ∀ {groupId : Bytes} {hpke hpke' : M.HpkePrivateKey}
    {signature signature' : M.SignaturePrivateKey} {credential : Credential} {leaf : M.LeafNode}
    {sender : M.ExternalSender} {state : M.State},
    M.leafNode hpke signature credential = some leaf →
      M.createGroup groupId hpke' signature' leaf sender = some state →
        ∀ member ∈ M.roster state, member.credential = credential
  handle : ∀ {state next : M.State} {content : M.ValidatedContent},
    M.handleProposal state content = some next → M.roster next = M.roster state
  cache : ∀ (state : M.State) (message : M.MlsMessage) (cachedState : Option M.State),
    M.roster (M.handleCommit state message cachedState).1 = M.roster state

/-- A queued proposal to add the owner of a credential. -/
def QueuedProposal.Adds {M : Mls} (queued : QueuedProposal M) (credential : Credential) : Prop :=
  (M.authenticatedContent queued.content).proposal = .add credential

instance {M : Mls} (queued : QueuedProposal M) (credential : Credential) :
    Decidable (queued.Adds credential) :=
  inferInstanceAs (Decidable (_ = _))

namespace Session

variable {M : Mls}

/-- The group that a commit leads to. -/
def committed (s : Session M) (commit : Bytes) : Option M.State :=
  match M.getMessage commit, s.stateWithProposals with
  | some message, some state =>
      if M.groupId message ≠ s.sessionGroupId then none
      else (M.handleCommit state message s.outboundCachedGroupState).2.join
  | _, _ => none

/-- The group that a Welcome invites to, where the session can join it. -/
def invitedTo (s : Session M) (welcome : Bytes) : Option M.State :=
  match s.joinKeyPackage, s.joinInitPrivateKey, s.signaturePrivateKey, s.hpkePrivateKey,
      s.mlsExternalSender with
  | some package, some initKey, some signature, some hpke, some sender =>
      if s.currentState.isSome then none
      else
        match (M.getWelcome welcome).bind (M.joinGroup initKey hpke signature package) with
        | none => none
        | some state => if M.hasExternalSender state sender = false then none else some state
  | _, _, _, _, _ => none

/-- The recognised users that a call is given. -/
def Op.recognised : Op M → Option (List UInt64)
  | .processProposals _ _ recognised => some recognised
  | .processWelcome _ recognised => some recognised
  | _ => none

/-- The user of the last `init`. -/
def selfUserId : List (Taken (Session M) (Op M)) → Option UInt64
  | [] => none
  | t :: before =>
      match t.event with
      | .init _ _ _ id _ => some id
      | _ => selfUserId before

/-- The caller counts itself among the recognised users. -/
def SelfIncluded (before : List (Taken (Session M) (Op M))) (t : Taken (Session M) (Op M)) :
    Prop :=
  ∀ recognised ∈ t.event.recognised, ∀ id ∈ selfUserId before, id ∈ recognised

/-- A commit only adds members that were proposed in the queue: whoever is in the
group it leads to was in the state it is handled by, or was queued to be added. -/
def CommitsProposed (before : List (Taken (Session M) (Op M)))
    (t : Taken (Session M) (Op M)) : Prop :=
  match t.event with
  | .processCommit commit => ∀ next ∈ t.pre.committed commit, ∀ leaf ∈ M.roster next,
      (∃ state ∈ t.pre.stateWithProposals, leaf ∈ M.roster state) ∨
        ∃ t' ∈ before, ∃ queued ∈ t'.post.proposalQueue, queued.Adds leaf.credential
  | _ => True

/-- A call of `process_proposals` introduces the recognised users it queues
additions of, and those in the pending group it handles proposals on. -/
def Introduces (t : Taken (Session M) (Op M)) (leaf : RosterLeaf) : Prop :=
  match t.event with
  | .processProposals _ _ recognised => BelongsTo leaf.credential recognised ∧
      ((∃ added, t.post.proposalQueue = t.pre.proposalQueue ++ added ∧
          ∃ queued ∈ added, queued.Adds leaf.credential) ∨
        ∃ base ∈ t.pre.pendingGroupState, leaf ∈ M.roster base)
  | _ => False

/-- Every member that was not in the group before the step is a user that was
recognised by the call that introduced it: the Welcome, or an earlier call of
`process_proposals`. -/
def Entered (before : List (Taken (Session M) (Op M))) (t : Taken (Session M) (Op M)) : Prop :=
  ∀ state ∈ t.post.currentState, ∀ leaf ∈ M.roster state,
    (∃ old ∈ t.pre.currentState, leaf ∈ M.roster old) ∨
      match t.event with
      | .processWelcome _ recognised => BelongsTo leaf.credential recognised
      | _ => ∃ t' ∈ before, Introduces t' leaf

/-- A Welcome that the session accepts invites to a group of recognised users. -/
def WelcomeRecognised (t : Taken (Session M) (Op M)) : Prop :=
  match t.event with
  | .processWelcome welcome recognised => ∀ state ∈ t.pre.invitedTo welcome,
      ∀ leaf ∈ M.roster state, isRecognizedUserId leaf.credential recognised = true
  | _ => True

section Decidable

variable (before : List (Taken (Session M) (Op M))) (t : Taken (Session M) (Op M))

instance : Decidable (SelfIncluded before t) :=
  have (recognised : List UInt64) : Decidable (∀ id ∈ selfUserId before, id ∈ recognised) :=
    Option.decidableForallMem (selfUserId before)
  Option.decidableForallMem t.event.recognised

instance : Decidable (CommitsProposed before t) :=
  match t with
  | ⟨pre, .processCommit commit, _⟩ =>
      inferInstanceAs (Decidable (∀ next ∈ pre.committed commit, ∀ leaf ∈ M.roster next,
        (∃ state ∈ pre.stateWithProposals, leaf ∈ M.roster state) ∨
          ∃ t' ∈ before, ∃ queued ∈ t'.post.proposalQueue, queued.Adds leaf.credential))
  | ⟨_, .init .., _⟩ | ⟨_, .reset, _⟩ | ⟨_, .setProtocolVersion .., _⟩
  | ⟨_, .setExternalSender .., _⟩ | ⟨_, .processProposals .., _⟩ | ⟨_, .processWelcome .., _⟩
  | ⟨_, .getMarshalledKeyPackage .., _⟩ => .isTrue trivial

instance : Decidable (WelcomeRecognised t) :=
  match t with
  | ⟨pre, .processWelcome welcome recognised, _⟩ =>
      inferInstanceAs (Decidable (∀ state ∈ pre.invitedTo welcome, ∀ leaf ∈ M.roster state,
        isRecognizedUserId leaf.credential recognised = true))
  | ⟨_, .init .., _⟩ | ⟨_, .reset, _⟩ | ⟨_, .setProtocolVersion .., _⟩
  | ⟨_, .setExternalSender .., _⟩ | ⟨_, .processProposals .., _⟩ | ⟨_, .processCommit .., _⟩
  | ⟨_, .getMarshalledKeyPackage .., _⟩ => .isTrue trivial

end Decidable

/-! ## What the calls do to the members -/

/-- A valid proposal to add somebody adds a recognised user. -/
theorem recognised_of_valid {message : AuthenticatedContent} {targetEpoch : Nat}
    {recognised : List UInt64} {credential : Credential}
    (hvalid : validateProposalMessage message targetEpoch recognised = true)
    (hadds : message.proposal = .add credential) :
    isRecognizedUserId credential recognised = true := by
  unfold validateProposalMessage at hvalid
  rw [hadds] at hvalid
  simp only [Bool.if_false_left, Bool.and_eq_true] at hvalid
  exact hvalid.2.2.2.2

/-- A session that has entered a group and dropped what was pending. -/
def Joined (s : Session M) (state : M.State) : Prop :=
  ∃ t : Session M, s = t.clearPendingState ∧ t.currentState = some state

theorem processCommit_members (s : Session M) (commit : Bytes) :
    (∃ state, s.committed commit = some state ∧ (s.processCommit commit).1.Joined state) ∨
      (s.processCommit commit).1 = s ∨
      ∃ message state, s.stateWithProposals = some state ∧ (s.processCommit commit).1 = { s with
        stateWithProposals :=
          some (M.handleCommit state message s.outboundCachedGroupState).1 } := by
  unfold processCommit committed
  cases M.getMessage commit with
  | none => exact .inr (.inl rfl)
  | some message =>
      cases hstate : s.stateWithProposals with
      | none => exact .inr (.inl rfl)
      | some state =>
          dsimp only
          by_cases hgroup : M.groupId message ≠ s.sessionGroupId
          · rw [if_pos hgroup, if_pos hgroup]
            exact .inr (.inl rfl)
          · rw [if_neg hgroup, if_neg hgroup]
            split
            · next next hnext =>
                rw [hnext]
                exact .inl ⟨next, rfl, _, rfl, rfl⟩
            · next state' result _ hresult =>
                refine .inr (.inr ⟨message, state, rfl, ?_⟩)
                rw [hresult]

theorem processWelcome_members (s : Session M) (welcome : Bytes) :
    (s.invitedTo welcome = none ∧ (s.processWelcome welcome).1 = s) ∨
      ∃ state, s.invitedTo welcome = some state ∧ s.currentState = none ∧
        (s.processWelcome welcome).1.Joined state := by
  unfold processWelcome
  split
  · next package initKey signature hpke sender hpackage hinit hsignature hhpke hsender =>
      simp only [invitedTo, hpackage, hinit, hsignature, hhpke, hsender]
      by_cases hcurrent : s.currentState.isSome = true
      · rw [if_pos hcurrent, if_pos hcurrent]
        exact .inl ⟨rfl, rfl⟩
      · rw [if_neg hcurrent, if_neg hcurrent]
        cases (M.getWelcome welcome).bind (M.joinGroup initKey hpke signature package) with
        | none => exact .inl ⟨rfl, rfl⟩
        | some state =>
            dsimp only
            by_cases hknown : M.hasExternalSender state sender = false
            · rw [if_pos hknown, if_pos hknown]
              exact .inl ⟨rfl, rfl⟩
            · rw [if_neg hknown, if_neg hknown]
              exact .inr ⟨state, rfl, by simpa using hcurrent, _, rfl, rfl⟩
  · next hmissing =>
      refine .inl ⟨?_, rfl⟩
      unfold invitedTo
      split
      · next hpackage hinit hsignature hhpke hsender =>
          exact (hmissing _ _ _ _ _ hpackage hinit hsignature hhpke hsender).elim
      · rfl

theorem roster_handleQueued (hM : M.KeepsRoster) (state : M.State)
    (queue : List (QueuedProposal M)) :
    M.roster (handleQueued state queue).1 = M.roster state := by
  induction queue generalizing state with
  | nil => rfl
  | cons queued queue ih =>
      rw [handleQueued]
      split
      · rfl
      · next next hnext =>
          rw [ih next]
          exact hM.handle hnext

/-- Only checked proposals are queued, and handling them changes no member. -/
theorem addProposals_members (hM : M.KeepsRoster) (recognised : List UInt64) (state : M.State)
    (queue : List (QueuedProposal M)) (messages : List M.MlsMessage) :
    M.roster (addProposals recognised state queue messages).1 = M.roster state ∧
      ∃ added, (addProposals recognised state queue messages).2.1 = queue ++ added ∧
        ∀ queued ∈ added, ∀ credential, queued.Adds credential →
          BelongsTo credential recognised := by
  induction messages generalizing state queue with
  | nil => exact ⟨rfl, [], (List.append_nil queue).symm, by simp⟩
  | cons message messages ih =>
      rw [addProposals]
      split
      · exact ⟨rfl, [], (List.append_nil queue).symm, by simp⟩
      · next content hcontent =>
          by_cases hvalid : validateProposalMessage (M.authenticatedContent content)
              (M.epoch state) recognised = false
          · rw [if_pos hvalid]
            exact ⟨rfl, [], (List.append_nil queue).symm, by simp⟩
          · rw [if_neg hvalid]
            split
            · exact ⟨rfl, [], (List.append_nil queue).symm, by simp⟩
            · next next hnext =>
                have hsame : M.roster next = M.roster state := hM.handle hnext
                split
                · exact ⟨hsame, [], (List.append_nil queue).symm, by simp⟩
                · next ref href =>
                    obtain ⟨hroster, added, hqueue, hadded⟩ := ih next (queue ++ [⟨content, ref⟩])
                    refine ⟨hroster.trans hsame, ⟨content, ref⟩ :: added, ?_, ?_⟩
                    · rw [hqueue, List.append_assoc, List.singleton_append]
                    · intro queued hqueued credential hadds
                      rcases List.mem_cons.mp hqueued with rfl | hlater
                      · rw [Bool.not_eq_false] at hvalid
                        exact (isRecognizedUserId_iff _ _).mp (recognised_of_valid hvalid hadds)
                      · exact hadded queued hlater credential hadds

/-! ## Where the pending members come from -/

/-- The invariant of a run: the session's own leaf and pending group are those of
the last `init`, every queued addition was introduced, and whoever is in the
derived state is in the group or was introduced. -/
structure Provenance (trace : List (Taken (Session M) (Op M))) (s : Session M) : Prop where
  self : ∀ leaf, s.selfLeafNode = some leaf → ∃ id, selfUserId trace = some id ∧
    ∃ hpke signature, M.leafNode hpke signature (createUserCredential (toDecimal id)) = some leaf
  pending : ∀ base, s.pendingGroupState = some base → ∃ id, selfUserId trace = some id ∧
    ∀ member ∈ M.roster base, member.credential = createUserCredential (toDecimal id)
  queued : ∀ queued ∈ s.proposalQueue, ∀ leaf : RosterLeaf, queued.Adds leaf.credential →
    ∃ t ∈ trace, Introduces t leaf
  derived : ∀ state, s.stateWithProposals = some state → ∀ leaf ∈ M.roster state,
    (∃ current, s.currentState = some current ∧ leaf ∈ M.roster current) ∨
      ∃ t ∈ trace, Introduces t leaf

variable {trace : List (Taken (Session M) (Op M))} {s s' : Session M}
  {t : Taken (Session M) (Op M)}

/-- Where nothing is pending there is nothing to account for. -/
theorem provenance_of_none (hself : s.selfLeafNode = none) (hpending : s.pendingGroupState = none)
    (hqueue : s.proposalQueue = []) (hderived : s.stateWithProposals = none) :
    Provenance trace s := by
  constructor
  · rw [hself]
    intro leaf h
    cases h
  · rw [hpending]
    intro base h
    cases h
  · rw [hqueue]
    intro queued h
    cases h
  · rw [hderived]
    intro state h
    cases h

theorem Provenance.cons (h : Provenance trace s)
    (hself : selfUserId (t :: trace) = selfUserId trace) :
    Provenance (t :: trace) s := by
  constructor
  · rw [hself]
    exact h.self
  · rw [hself]
    exact h.pending
  · intro queued hqueued leaf hadds
    obtain ⟨t', ht', hintroduces⟩ := h.queued queued hqueued leaf hadds
    exact ⟨t', List.mem_cons_of_mem t ht', hintroduces⟩
  · intro state hstate leaf hleaf
    rcases h.derived state hstate leaf hleaf with hcurrent | ⟨t', ht', hintroduces⟩
    · exact .inl hcurrent
    · exact .inr ⟨t', List.mem_cons_of_mem t ht', hintroduces⟩

/-- The invariant only looks at five fields. -/
theorem Provenance.congr (h : Provenance trace s) (hself : s'.selfLeafNode = s.selfLeafNode)
    (hpending : s'.pendingGroupState = s.pendingGroupState)
    (hqueue : s'.proposalQueue = s.proposalQueue)
    (hderived : s'.stateWithProposals = s.stateWithProposals)
    (hcurrent : s'.currentState = s.currentState) : Provenance trace s' := by
  constructor
  · rw [hself]
    exact h.self
  · rw [hpending]
    exact h.pending
  · rw [hqueue]
    exact h.queued
  · rw [hderived, hcurrent]
    exact h.derived

/-- The members of a new pending group are the session itself. -/
theorem Provenance.createPendingGroup (hM : M.KeepsRoster) (h : Provenance trace s) :
    Provenance trace s.createPendingGroup := by
  unfold Session.createPendingGroup
  split
  · exact h
  · split
    · next sender leaf hpke signature _ hleaf _ _ =>
        split
        · next state hstate =>
            constructor
            · exact h.self
            · intro base hbase
              obtain rfl : state = base := Option.some.inj hbase
              obtain ⟨id, hid, hpke', signature', hnode⟩ := h.self leaf hleaf
              exact ⟨id, hid, hM.create hnode hstate⟩
            · exact h.queued
            · exact h.derived
        · exact h
    · exact h

theorem provenance_init (hM : M.KeepsRoster) (s : Session M) (entropy : Entropy M)
    (version : UInt16) (groupId : UInt64) {selfUserId : UInt64}
    (transientKey : Option M.SignaturePrivateKey)
    (hself : Session.selfUserId trace = some selfUserId) :
    Provenance trace (s.init entropy version groupId selfUserId transientKey).1 := by
  simp only [init]
  apply Provenance.createPendingGroup hM
  have hfresh : Provenance trace ({ s.reset with
      sessionProtocolVersion := version
      sessionGroupId := bigEndianBytesFrom groupId } : Session M) :=
    provenance_of_none rfl rfl rfl rfl
  unfold initLeafNode
  split
  · exact hfresh
  · dsimp only
    split
    · exact hfresh.congr rfl rfl rfl rfl rfl
    · split
      · exact hfresh.congr rfl rfl rfl rfl rfl
      · next hpke _ _ leaf hleaf =>
          constructor
          · intro leaf' h
            obtain rfl : leaf = leaf' := Option.some.inj h
            exact ⟨selfUserId, hself, hpke, _, hleaf⟩
          · exact hfresh.pending
          · exact hfresh.queued
          · exact hfresh.derived

/-- Setting an external sender keeps the invariant. -/
theorem Provenance.setExternalSender (hM : M.KeepsRoster) {package : Bytes}
    (h : Provenance trace s) : Provenance trace (s.setExternalSender package) := by
  unfold Session.setExternalSender
  split
  · exact h
  · split
    · exact h
    · dsimp only
      split
      · apply Provenance.createPendingGroup hM
        exact h.congr rfl rfl rfl rfl rfl
      · exact h.congr rfl rfl rfl rfl rfl

theorem Provenance.getMarshalledKeyPackage (entropy : Entropy M) (h : Provenance trace s) :
    Provenance trace (s.getMarshalledKeyPackage entropy).1 := by
  simp only [Session.getMarshalledKeyPackage]
  unfold resetJoinKeyPackage
  split
  · split
    · exact h
    · dsimp only
      split
      · exact h.congr rfl rfl rfl rfl rfl
      · exact h.congr rfl rfl rfl rfl rfl
  · exact h

theorem Joined.provenance {state : M.State} (h : s.Joined state) : Provenance trace s := by
  obtain ⟨t, rfl, -⟩ := h
  exact provenance_of_none rfl rfl rfl rfl

theorem Provenance.processWelcome {welcome : Bytes} (h : Provenance trace s) :
    Provenance trace (s.processWelcome welcome).1 := by
  rcases s.processWelcome_members welcome with ⟨-, hsame⟩ | ⟨state, -, -, hjoined⟩
  · rw [hsame]
    exact h
  · exact hjoined.provenance

theorem Provenance.processCommit (hM : M.KeepsRoster) {commit : Bytes} (h : Provenance trace s) :
    Provenance trace (s.processCommit commit).1 := by
  rcases s.processCommit_members commit with ⟨state, -, hjoined⟩ | hsame |
    ⟨message, state, hstate, hcached⟩
  · exact hjoined.provenance
  · rw [hsame]
    exact h
  · rw [hcached]
    constructor
    · exact h.self
    · exact h.pending
    · exact h.queued
    · intro next hnext leaf hleaf
      obtain rfl := Option.some.inj hnext
      rw [hM.cache] at hleaf
      exact h.derived state hstate leaf hleaf

/-- Revoking takes entries out of the queue. -/
theorem revoke_subset (queue : List (QueuedProposal M)) (refs : List Bytes) :
    revoke queue refs ⊆ queue := by
  induction refs generalizing queue with
  | nil => exact List.Subset.refl queue
  | cons ref refs ih => exact List.Subset.trans (ih _) List.eraseP_subset

/-- Members of the state that proposals are handled on. -/
theorem Provenance.base {entropy : Entropy M} {proposals : Bytes} {recognised : List UInt64}
    (h : Provenance trace s)
    (hself : ∀ id, selfUserId trace = some id → id ∈ recognised) {base : M.State}
    (hbase : s.pendingGroupState.or s.currentState = some base) {leaf : RosterLeaf}
    (hleaf : leaf ∈ M.roster base) :
    (∃ current, s.currentState = some current ∧ leaf ∈ M.roster current) ∨
      Introduces ⟨s, .processProposals entropy proposals recognised, s'⟩ leaf := by
  cases hpending : s.pendingGroupState with
  | none =>
      rw [hpending, Option.none_or] at hbase
      exact .inl ⟨base, hbase, hleaf⟩
  | some pending =>
      rw [hpending, Option.some_or] at hbase
      obtain rfl := Option.some.inj hbase
      obtain ⟨id, hid, hown⟩ := h.pending pending hpending
      refine .inr ⟨⟨id, hself id hid, ?_⟩, .inr ⟨pending, hpending, hleaf⟩⟩
      rw [hown leaf hleaf]
      exact userId_createUserCredential id

/-- A state derived from the base by a call of `process_proposals`, and a queue
that only grew by additions that the call has checked. -/
theorem Provenance.derive {entropy : Entropy M} {proposals : Bytes} {recognised : List UInt64}
    (h : Provenance trace s) (hself : ∀ id, selfUserId trace = some id → id ∈ recognised)
    {base state : M.State} (hbase : s.pendingGroupState.or s.currentState = some base)
    (hroster : ∀ leaf ∈ M.roster state, leaf ∈ M.roster base ∨
      ∃ old, s.stateWithProposals = some old ∧ leaf ∈ M.roster old)
    {queue : List (QueuedProposal M)}
    (hqueue : ∀ queued ∈ queue, queued ∈ s.proposalQueue ∨
      ∃ added, queue = s.proposalQueue ++ added ∧ queued ∈ added ∧
        ∀ credential, queued.Adds credential → BelongsTo credential recognised)
    (hleaf : s'.selfLeafNode = s.selfLeafNode)
    (hpending : s'.pendingGroupState = s.pendingGroupState)
    (hcurrent : s'.currentState = s.currentState) (hstate : s'.stateWithProposals = some state)
    (hqueued : s'.proposalQueue = queue) :
    Provenance (⟨s, .processProposals entropy proposals recognised, s'⟩ :: trace) s' := by
  have hbefore : Provenance (⟨s, .processProposals entropy proposals recognised, s'⟩ :: trace) s :=
    h.cons rfl
  constructor
  · rw [hleaf]
    exact hbefore.self
  · rw [hpending]
    exact hbefore.pending
  · rw [hqueued]
    intro queued hmem leaf hadds
    rcases hqueue queued hmem with hold | ⟨added, happend, hnew, hchecked⟩
    · exact hbefore.queued queued hold leaf hadds
    · refine ⟨_, List.mem_cons_self, hchecked _ hadds, .inl ⟨added, ?_, queued, hnew, hadds⟩⟩
      exact hqueued.trans happend
  · intro state' hstate' leaf hmem
    obtain rfl : state = state' := Option.some.inj (hstate.symm.trans hstate')
    rw [hcurrent]
    rcases hroster leaf hmem with hmem | ⟨old, hold, hmem⟩
    · rcases h.base hself hbase hmem with hcurrent | hintroduces
      · exact .inl hcurrent
      · exact .inr ⟨_, List.mem_cons_self, hintroduces⟩
    · exact hbefore.derived old hold leaf hmem

/-- The commit at the end of `process_proposals` touches nothing of this. -/
theorem derived_fields (s : Session M) (entropy : Entropy M) (state : M.State) {handled : Prop}
    [Decidable handled]
    (hs' : s' = (if handled then s.commitProposals entropy state else (s, none)).1) :
    s'.selfLeafNode = s.selfLeafNode ∧ s'.pendingGroupState = s.pendingGroupState ∧
      s'.currentState = s.currentState ∧ s'.stateWithProposals = s.stateWithProposals ∧
      s'.proposalQueue = s.proposalQueue := by
  rw [hs']
  split
  · obtain ⟨commit, cached, hcommit⟩ := s.commitProposals_eq entropy state
    rw [hcommit]
    exact ⟨rfl, rfl, rfl, rfl, rfl⟩
  · exact ⟨rfl, rfl, rfl, rfl, rfl⟩

theorem Provenance.processProposals (hM : M.KeepsRoster) {entropy : Entropy M} {proposals : Bytes}
    {recognised : List UInt64} (h : Provenance trace s)
    (hself : ∀ id, selfUserId trace = some id → id ∈ recognised) :
    s' = (s.processProposals entropy proposals recognised).1 →
      Provenance (⟨s, .processProposals entropy proposals recognised, s'⟩ :: trace) s' := by
  unfold Session.processProposals
  split
  · intro hs'
    rw [hs']
    exact h.cons rfl
  · next base hbase =>
      have hstart : ∀ leaf ∈ M.roster (s.stateWithProposals.getD base), leaf ∈ M.roster base ∨
          ∃ old, s.stateWithProposals = some old ∧ leaf ∈ M.roster old := by
        intro leaf hleaf
        cases hderived : s.stateWithProposals with
        | none =>
            rw [hderived] at hleaf
            exact .inl hleaf
        | some old =>
            rw [hderived] at hleaf
            exact .inr ⟨old, rfl, hleaf⟩
      dsimp only
      split
      · intro hs'
        exact h.derive hself hbase hstart (fun queued hqueued => .inl hqueued)
          (by rw [hs']) (by rw [hs']) (by rw [hs']) (by rw [hs']) (by rw [hs'])
      · next refs hrefs =>
          intro hs'
          have hroster := roster_handleQueued hM base (revoke s.proposalQueue refs)
          obtain ⟨hleaf, hpending, hcurrent, hderived, hqueue⟩ := derived_fields _ entropy _ hs'
          refine h.derive hself hbase ?_ ?_ hleaf hpending hcurrent hderived hqueue
          · intro leaf hmem
            rw [hroster] at hmem
            exact .inl hmem
          · intro queued hqueued
            exact .inl (revoke_subset _ _ hqueued)
      · next messages hmessages =>
          intro hs'
          obtain ⟨hroster, added, hadded, hchecked⟩ := addProposals_members hM recognised
            (s.stateWithProposals.getD base) s.proposalQueue messages
          obtain ⟨hleaf, hpending, hcurrent, hderived, hqueue⟩ := derived_fields _ entropy _ hs'
          refine h.derive hself hbase ?_ ?_ hleaf hpending hcurrent hderived hqueue
          · intro leaf hmem
            rw [hroster] at hmem
            exact hstart leaf hmem
          · intro queued hqueued
            rw [hadded] at hqueued
            rcases List.mem_append.mp hqueued with hold | hnew
            · exact .inl hold
            · exact .inr ⟨added, hadded, hnew, hchecked queued hnew⟩

/-- **Step.** -/
theorem Provenance.step (hM : M.KeepsRoster) {op : Op M} (h : Provenance trace s)
    (hself : SelfIncluded trace ⟨s, op, s.apply op⟩) :
    Provenance (⟨s, op, s.apply op⟩ :: trace) (s.apply op) := by
  cases op with
  | init entropy version groupId selfUserId transientKey => exact provenance_init hM s _ _ _ _ rfl
  | reset => exact provenance_of_none rfl rfl rfl rfl
  | setProtocolVersion version =>
      have hsame : Provenance trace (s.setProtocolVersion version) := h.congr rfl rfl rfl rfl rfl
      exact hsame.cons rfl
  | setExternalSender package => exact (h.setExternalSender hM).cons rfl
  | processProposals entropy proposals recognised =>
      exact h.processProposals hM (hself recognised rfl) rfl
  | processCommit commit => exact (h.processCommit hM).cons rfl
  | processWelcome welcome recognised => exact h.processWelcome.cons rfl
  | getMarshalledKeyPackage entropy => exact (h.getMarshalledKeyPackage entropy).cons rfl

/-- **Run.** -/
theorem provenance_of_run (hM : M.KeepsRoster) {signingKeyId : Bytes}
    (hrun : (machine M signingKeyId).Run trace s) (hself : Throughout SelfIncluded trace) :
    Provenance trace s ∧ ∀ t ∈ trace, ∀ queued ∈ t.post.proposalQueue, ∀ leaf : RosterLeaf,
      queued.Adds leaf.credential → ∃ t' ∈ trace, Introduces t' leaf := by
  induction hrun with
  | start => exact ⟨provenance_of_none rfl rfl rfl rfl, by simp⟩
  | step _ hstep ih =>
      obtain rfl := Option.some.inj hstep
      obtain ⟨hbefore, hqueues⟩ := ih hself.2
      have hafter := hbefore.step hM hself.1
      refine ⟨hafter, ?_⟩
      intro t ht queued hqueued leaf hadds
      rcases List.mem_cons.mp ht with rfl | ht
      · exact hafter.queued queued hqueued leaf hadds
      · obtain ⟨t', ht', hintroduces⟩ := hqueues t ht queued hqueued leaf hadds
        exact ⟨t', List.mem_cons_of_mem _ ht', hintroduces⟩

/-! ## Who enters -/

/-- A step without a commit and without a Welcome lets nobody in. -/
theorem currentState_apply {op : Op M} (hcommit : ∀ commit, op ≠ .processCommit commit)
    (hwelcome : ∀ welcome recognised, op ≠ .processWelcome welcome recognised) :
    (s.apply op).currentState = s.currentState ∨ (s.apply op).currentState = none := by
  cases op with
  | init entropy version groupId selfUserId transientKey =>
      exact .inr (s.currentState_init entropy version groupId selfUserId transientKey)
  | reset => exact .inr rfl
  | setProtocolVersion version => exact .inl rfl
  | setExternalSender package => exact .inl (s.currentState_setExternalSender package)
  | processProposals entropy proposals recognised =>
      exact .inl (s.currentState_processProposals entropy proposals recognised)
  | processCommit commit => exact absurd rfl (hcommit commit)
  | processWelcome welcome recognised => exact absurd rfl (hwelcome welcome recognised)
  | getMarshalledKeyPackage entropy => exact .inl (s.currentState_getMarshalledKeyPackage entropy)

theorem Joined.currentState {state : M.State} (h : s.Joined state) :
    s.currentState = some state := by
  obtain ⟨t, rfl, ht⟩ := h
  exact ht

/-- Whoever enters by a commit was introduced by a call of `process_proposals`. -/
theorem Provenance.entered_commit {commit : Bytes} (h : Provenance trace s)
    (hqueues : ∀ t ∈ trace, ∀ queued ∈ t.post.proposalQueue, ∀ leaf : RosterLeaf,
      queued.Adds leaf.credential → ∃ t' ∈ trace, Introduces t' leaf)
    (hcommit : CommitsProposed trace ⟨s, .processCommit commit, (s.processCommit commit).1⟩) :
    Entered trace ⟨s, .processCommit commit, (s.processCommit commit).1⟩ := by
  intro state hstate leaf hleaf
  rcases s.processCommit_members commit with ⟨next, hnext, hjoined⟩ | hsame |
    ⟨message, derived, -, hcached⟩
  · obtain rfl : next = state := Option.some.inj (hjoined.currentState.symm.trans hstate)
    rcases hcommit next hnext leaf hleaf with ⟨derived, hderived, hmem⟩ |
      ⟨t, ht, queued, hqueued, hadds⟩
    · exact h.derived derived hderived leaf hmem
    · exact .inr (hqueues t ht queued hqueued leaf hadds)
  · refine .inl ⟨state, ?_, hleaf⟩
    rw [hsame] at hstate
    exact hstate
  · refine .inl ⟨state, ?_, hleaf⟩
    rw [hcached] at hstate
    exact hstate

/-- By a Welcome exactly the recognised users enter when it names no others. -/
theorem entered_welcome_iff {welcome : Bytes} {recognised : List UInt64} :
    Entered trace ⟨s, .processWelcome welcome recognised, (s.processWelcome welcome).1⟩ ↔
      WelcomeRecognised ⟨s, .processWelcome welcome recognised, (s.processWelcome welcome).1⟩ := by
  rcases s.processWelcome_members welcome with ⟨hnone, hsame⟩ | ⟨next, hnext, hcurrent, hjoined⟩
  · constructor
    · intro _ state hstate
      rw [hnone] at hstate
      cases hstate
    · intro _ state hstate leaf hleaf
      refine .inl ⟨state, ?_, hleaf⟩
      rw [hsame] at hstate
      exact hstate
  · constructor
    · intro hentered state hstate leaf hleaf
      obtain rfl : next = state := Option.some.inj (hnext.symm.trans hstate)
      rcases hentered next hjoined.currentState leaf hleaf with ⟨old, hold, -⟩ | hbelongs
      · rw [hcurrent] at hold
        cases hold
      · exact (isRecognizedUserId_iff _ _).mpr hbelongs
    · intro hwelcome state hstate leaf hleaf
      obtain rfl : next = state := Option.some.inj (hjoined.currentState.symm.trans hstate)
      exact .inr ((isRecognizedUserId_iff _ _).mp (hwelcome next hnext leaf hleaf))

/-- One step lets only recognised users in exactly when it is not a Welcome with
others. -/
theorem entered_step_iff (hM : M.KeepsRoster) {signingKeyId : Bytes} {op : Op M}
    (hrun : (machine M signingKeyId).Run trace s) (hself : Throughout SelfIncluded trace)
    (hcommit : CommitsProposed trace ⟨s, op, s.apply op⟩) :
    Entered trace ⟨s, op, s.apply op⟩ ↔ WelcomeRecognised ⟨s, op, s.apply op⟩ := by
  obtain ⟨hprovenance, hqueues⟩ := provenance_of_run hM hrun hself
  by_cases hcommits : ∃ commit, op = .processCommit commit
  · obtain ⟨commit, rfl⟩ := hcommits
    exact ⟨fun _ => trivial, fun _ => hprovenance.entered_commit hqueues hcommit⟩
  · by_cases hwelcomes : ∃ welcome recognised, op = .processWelcome welcome recognised
    · obtain ⟨welcome, recognised, rfl⟩ := hwelcomes
      exact entered_welcome_iff
    · push Not at hcommits hwelcomes
      have hcurrent := s.currentState_apply hcommits hwelcomes
      constructor
      · intro _
        cases op <;> first | trivial | exact absurd rfl (hwelcomes _ _)
      · intro _ state hstate leaf hleaf
        rcases hcurrent with hsame | hnone
        · exact .inl ⟨state, hsame.symm.trans hstate, hleaf⟩
        · cases hnone.symm.trans hstate

/-- **Only recognised users enter**: where commits add only who was proposed and
the caller counts itself among the recognised users, every member of every run
that was not in the group before is a recognised user exactly when every Welcome
that was accepted names recognised users only. -/
theorem entered_iff (hM : M.KeepsRoster) {signingKeyId : Bytes}
    (hrun : (machine M signingKeyId).Run trace s) (hself : Throughout SelfIncluded trace)
    (hcommits : Throughout CommitsProposed trace) :
    Throughout Entered trace ↔ ∀ t ∈ trace, WelcomeRecognised t := by
  induction hrun with
  | start => exact ⟨fun _ _ ht => absurd ht List.not_mem_nil, fun _ => trivial⟩
  | step hbefore hstep ih =>
      obtain rfl := Option.some.inj hstep
      have hlast := entered_step_iff hM hbefore hself.2 hcommits.1
      rw [List.forall_mem_cons]
      exact and_congr hlast (ih hself.2 hcommits.2)

theorem rollMls_keepsRoster : rollMls.KeepsRoster := by
  constructor
  · intro groupId hpke hpke' signature signature' credential leaf sender state hleaf hstate
    obtain rfl : credential = leaf := Option.some.inj hleaf
    obtain rfl := Option.some.inj hstate
    intro member hmember
    obtain rfl := List.mem_singleton.mp hmember
    rfl
  · intro state next content hnext
    obtain rfl := Option.some.inj hnext
    rfl
  · intro state message cachedState
    simp only [rollMls]
    split
    · rfl
    · split
      · rfl
      · rfl

/-- The user 1 creates a group and adds 5 to it, and is then invited to the group
of 6. -/
def joinCalls : List (Op rollMls) :=
  [.init { signatureKey := [1], hpkeKey := [2] } 1 7 1 none, .setExternalSender [9],
    .processProposals {} [0, 5] [1, 5], .processCommit (bigEndianBytesFrom 7 ++ [0xff]),
    .init { signatureKey := [1], hpkeKey := [2] } 1 7 1 none, .setExternalSender [9],
    .getMarshalledKeyPackage { joinInitKey := [3] }, .processWelcome [9, 1, 6] [1, 6]]

theorem entered_recognised :
    Throughout Entered ((machine rollMls []).recorded joinCalls).1 ∧
      ((machine rollMls []).recorded joinCalls).2.currentState =
        some ⟨[], [9], [byteCredential 1, byteCredential 6], []⟩ := by
  constructor
  · exact (entered_iff rollMls_keepsRoster (Machine.run_recorded _ _ (by decide +kernel))
      (by decide +kernel) (by decide +kernel)).mpr (by decide +kernel)
  · decide +kernel

/-- The user 1 is invited to the group of 6 and recognises only itself. -/
def unrecognisedCalls : List (Op rollMls) :=
  [.init { signatureKey := [1], hpkeKey := [2] } 1 7 1 none, .setExternalSender [9],
    .getMarshalledKeyPackage { joinInitKey := [3] }, .processWelcome [9, 1, 6] [1]]

/-- The user 6 is not recognised and enters all the same. -/
theorem entered_unrecognised :
    (machine rollMls []).Run ((machine rollMls []).recorded unrecognisedCalls).1
        ((machine rollMls []).recorded unrecognisedCalls).2 ∧
      Throughout SelfIncluded ((machine rollMls []).recorded unrecognisedCalls).1 ∧
      Throughout CommitsProposed ((machine rollMls []).recorded unrecognisedCalls).1 ∧
      ¬ Throughout Entered ((machine rollMls []).recorded unrecognisedCalls).1 := by
  refine ⟨Machine.run_recorded _ _ (by decide +kernel), by decide +kernel, by decide +kernel, ?_⟩
  intro h
  have hjoined : ((machine rollMls []).recorded unrecognisedCalls).2.currentState =
      some ⟨[], [9], [byteCredential 1, byteCredential 6], []⟩ := by decide +kernel
  rcases h.1 _ hjoined ⟨byteCredential 6, []⟩ (by decide +kernel) with ⟨old, hold, -⟩ | hbelongs
  · have hnone : ((machine rollMls []).recorded (unrecognisedCalls.take 3)).2.currentState =
        none := by decide +kernel
    cases hnone.symm.trans hold
  · have hnot : ¬ BelongsTo (byteCredential 6) [1] := by decide +kernel
    exact hnot hbelongs

end Session

end Ekizu.Dave
