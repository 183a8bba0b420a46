import Ekizu.Dave.Session
import Ekizu.Lib.Runs

/-!
# The proposals of a session

The calls that change a `Session`, in any order from its construction on, and
what `m_state_with_proposals` and `m_proposal_queue` have to do with each other.

`process_proposals` handles what it queues and rebuilds the derived state when
proposals are revoked.  Four calls let the two drift apart: an external sender
that replaces the pending group under the derived state, a revocation after
which a queued proposal is refused, a new proposal that is handled and whose
reference cannot be computed, and a message for `process_commit` that is handled
but is no commit.

## Main results

* `coherent_of_run` — without such calls the derived state is the base state with
  the queued proposals handled in order.
* `coherent_lost` — a second external sender leaves the derived state on the
  group that it replaced.
-/

namespace Ekizu.Dave

open Lib.Runs

/-- `State::handle` for one proposal after the other. -/
def Mls.handleAll (M : Mls) (base : M.State) (contents : List M.ValidatedContent) :
    Option M.State :=
  contents.foldlM M.handleProposal base

/-! ## A group to test with -/

/-- A group: its members, and the users whose addition is proposed. -/
structure Roll where
  groupId : Bytes
  sender : Bytes
  members : List Credential
  proposed : List Credential := []
  deriving Repr, DecidableEq

/-- The credential that a byte stands for. -/
def byteCredential (b : UInt8) : Credential := .basic (bigEndianBytesFrom b.toUInt64)

/-- The members after a commit to all proposals. -/
def Roll.committed (roll : Roll) : Roll :=
  { roll with members := roll.members ++ roll.proposed, proposed := [] }

/-- A stand-in for MLS.  A message is the group's id and either `0xff`, a commit,
or a user whose addition is proposed; a Welcome is the external sender and the
members. -/
def rollMls : Mls where
  State := Roll
  ExternalSender := Bytes
  SignaturePrivateKey := Bytes
  HpkePrivateKey := Bytes
  LeafNode := Credential
  KeyPackage := Credential
  MlsMessage := Bytes
  Welcome := Bytes
  ValidatedContent := Credential
  Epoch := Roll
  generateSignatureKey := some
  generateHpkeKey := some
  leafNode _ _ credential := some credential
  keyPackage _ leaf _ := some leaf
  createGroup groupId _ _ leaf sender := some ⟨groupId, sender, [leaf], []⟩
  joinGroup _ _ _ _ welcome := some ⟨[], welcome.take 1, (welcome.drop 1).map byteCredential, []⟩
  getExternalSender := some
  getMessage := some
  getWelcome := some
  getProposals
    | [] => none
    | flag :: users =>
        if flag = 0 then some (.inr (users.map fun user => [user]))
        else some (.inl (users.map fun user => bigEndianBytesFrom user.toUInt64))
  marshalMessage := some
  marshalWelcome := some
  marshalKeyPackage _ := []
  groupId message := message.take 8
  epoch _ := 0
  unwrap _ message := message.getLast?.map byteCredential
  authenticatedContent content := ⟨.mlsPublicMessage, 0, .proposal, .external, .add content⟩
  ref
    | .basic identity => some identity
    | .other => some []
  handleProposal roll content := some { roll with proposed := roll.proposed ++ [content] }
  commit roll _ := some (roll.groupId ++ [0xff], [], roll.committed)
  welcomeHasSecrets _ := false
  handleCommit roll message cached :=
    if message.getLast? = some 0xff then (roll, some (some (cached.getD roll.committed)))
    else
      match message.getLast? with
      | some user => ({ roll with proposed := roll.proposed ++ [byteCredential user] }, some none)
      | none => (roll, none)
  hasExternalSender roll sender := roll.sender = sender
  roster roll := roll.members.map fun member => ⟨member, []⟩
  doExport _ _ context _ := some context
  epochOf := id

instance : DecidableEq rollMls.State := inferInstanceAs (DecidableEq Roll)

/-- The stand-in refuses no proposal. -/
theorem isSome_handleAll_rollMls (base : rollMls.State) (contents : List rollMls.ValidatedContent) :
    (rollMls.handleAll base contents).isSome = true := by
  induction contents generalizing base with
  | nil => rfl
  | cons content contents ih => exact ih _

namespace Session

variable {M : Mls}

/-! ## Runs of a session -/

/-- The calls that change a session. -/
inductive Op (M : Mls) where
  | init (entropy : Entropy M) (version : UInt16) (groupId selfUserId : UInt64)
      (transientKey : Option M.SignaturePrivateKey)
  | reset
  | setProtocolVersion (version : UInt16)
  | setExternalSender (package : Bytes)
  | processProposals (entropy : Entropy M) (proposals : Bytes) (recognised : List UInt64)
  | processCommit (commit : Bytes)
  | processWelcome (welcome : Bytes) (recognised : List UInt64)
  | getMarshalledKeyPackage (entropy : Entropy M)

/-- The session after a call.  `process_welcome` only passes its recognised users
on to a check without effect. -/
def apply (s : Session M) : Op M → Session M
  | .init entropy version groupId selfUserId transientKey =>
      (s.init entropy version groupId selfUserId transientKey).1
  | .reset => s.reset
  | .setProtocolVersion version => s.setProtocolVersion version
  | .setExternalSender package => s.setExternalSender package
  | .processProposals entropy proposals recognised =>
      (s.processProposals entropy proposals recognised).1
  | .processCommit commit => (s.processCommit commit).1
  | .processWelcome welcome _ => (s.processWelcome welcome).1
  | .getMarshalledKeyPackage entropy => (s.getMarshalledKeyPackage entropy).1

/-- A session and all calls, from its constructor on. -/
def machine (M : Mls) (signingKeyId : Bytes) : Machine (Session M) (Op M) where
  start := { signingKeyId }
  step s op := some (s.apply op)

/-! ## Coherence -/

/-- The state that proposals are handled on: the pending group if there is one,
else the current group. -/
def baseState (s : Session M) : Option M.State := s.pendingGroupState.or s.currentState

/-- The contents of `m_proposal_queue`. -/
def queuedContents (queue : List (QueuedProposal M)) : List M.ValidatedContent :=
  queue.map QueuedProposal.content

/-- The derived state is the base state with the queue handled in order. -/
def Coherent (s : Session M) : Prop :=
  ∀ state, s.stateWithProposals = some state → ∃ base, s.baseState = some base ∧
    M.handleAll base (queuedContents s.proposalQueue) = some state

/-- Whether `set_external_sender` puts a new group in the place of the pending
one. -/
def ReplacesPendingGroup (s : Session M) (package : Bytes) : Prop :=
  s.currentState = none ∧ s.sessionGroupId ≠ [] ∧
    ∃ sender leaf hpke signature state, M.getExternalSender package = some sender ∧
      s.selfLeafNode = some leaf ∧ s.hpkePrivateKey = some hpke ∧
      s.signaturePrivateKey = some signature ∧
      M.createGroup s.sessionGroupId hpke signature leaf sender = some state

/-- Every new proposal that is handled has a reference to queue it under. -/
def Referenced (recognised : List UInt64) : M.State → List M.MlsMessage → Prop
  | _, [] => True
  | state, message :: messages => ∀ content next, M.unwrap state message = some content →
      validateProposalMessage (M.authenticatedContent content) (M.epoch state) recognised = true →
        M.handleProposal state content = some next →
          (M.ref content).isSome = true ∧ Referenced recognised next messages

/-- The calls that keep the derived state in step with the queue: no new pending
group under a derived state, no revocation after which a queued proposal is
refused, no proposal that is handled and cannot be queued, and no message for
`process_commit` that only changes the derived state. -/
def KeepsDerivedState (s : Session M) : Op M → Prop
  | .setExternalSender package =>
      s.stateWithProposals = none ∨ ¬ s.ReplacesPendingGroup package
  | .processProposals _ proposals recognised => ∀ base, s.baseState = some base →
      (∀ refs, M.getProposals proposals = some (.inl refs) →
        (M.handleAll base (queuedContents (revoke s.proposalQueue refs))).isSome = true) ∧
      ∀ messages, M.getProposals proposals = some (.inr messages) →
        Referenced recognised (s.stateWithProposals.getD base) messages
  | .processCommit commit => ∀ message state, M.getMessage commit = some message →
      s.stateWithProposals = some state → M.groupId message = s.sessionGroupId →
        (∃ next, (M.handleCommit state message s.outboundCachedGroupState).2 = some (some next)) ∨
          (M.handleCommit state message s.outboundCachedGroupState).1 = state
  | _ => True

/-- The invariant: the queue is empty while there is no derived state. -/
structure InStep (s : Session M) : Prop where
  coherent : s.Coherent
  empty : s.stateWithProposals = none → s.proposalQueue = []

variable {s : Session M}

theorem inStep_of_none (hstate : s.stateWithProposals = none) (hqueue : s.proposalQueue = []) :
    s.InStep := by
  constructor
  · intro state h
    rw [hstate] at h
    cases h
  · intro _
    exact hqueue

/-- Coherence only looks at the base state, the derived state and the queue. -/
theorem InStep.congr {t : Session M} (h : s.InStep) (hbase : t.baseState = s.baseState)
    (hstate : t.stateWithProposals = s.stateWithProposals)
    (hqueue : t.proposalQueue = s.proposalQueue) : t.InStep := by
  constructor
  · intro state ht
    rw [hstate] at ht
    rw [hbase, hqueue]
    exact h.coherent state ht
  · intro ht
    rw [hstate] at ht
    rw [hqueue]
    exact h.empty ht

/-! ## The loops -/

theorem handleAll_append (base : M.State) (contents : List M.ValidatedContent)
    (content : M.ValidatedContent) :
    M.handleAll base (contents ++ [content]) =
      (M.handleAll base contents).bind fun state => M.handleProposal state content := by
  simp [Mls.handleAll]

/-- Where nothing is refused, the loop over the queue handles all of it. -/
theorem handleQueued_eq {state last : M.State} {queue : List (QueuedProposal M)}
    (h : M.handleAll state (queuedContents queue) = some last) :
    handleQueued state queue = (last, true) := by
  induction queue generalizing state with
  | nil =>
      obtain rfl := Option.some.inj h
      rfl
  | cons queued queue ih =>
      obtain ⟨next, hnext, hrest⟩ := Option.bind_eq_some_iff.mp h
      simp only [handleQueued, hnext]
      exact ih hrest

/-- The loop over new proposals handles what it queues, also where it stops. -/
theorem handleAll_addProposals (recognised : List UInt64) {base state : M.State}
    {queue : List (QueuedProposal M)} (messages : List M.MlsMessage)
    (h : M.handleAll base (queuedContents queue) = some state)
    (hrefs : Referenced recognised state messages) :
    M.handleAll base (queuedContents (addProposals recognised state queue messages).2.1) =
      some (addProposals recognised state queue messages).1 := by
  induction messages generalizing state queue with
  | nil => exact h
  | cons message messages ih =>
      rw [addProposals]
      split
      · exact h
      · next content hcontent =>
          split
          · exact h
          · next hvalid =>
            split
            · exact h
            · next next hnext =>
              obtain ⟨href, hlater⟩ := hrefs content next hcontent (by simpa using hvalid) hnext
              split
              · next hnone => simp [hnone] at href
              · apply ih _ hlater
                rw [queuedContents, List.map_append, List.map_singleton, handleAll_append]
                change (M.handleAll base (queuedContents queue)).bind _ = _
                rw [h]
                exact hnext

/-! ## What each call does to the base state, the derived state and the queue -/

theorem inStep_clearPendingState (t : Session M) : t.clearPendingState.InStep :=
  inStep_of_none rfl rfl

theorem inStep_reset (t : Session M) : t.reset.InStep := inStep_of_none rfl rfl

theorem createPendingGroup_eq (t : Session M) :
    t.createPendingGroup = t ∨ ∃ state,
      t.createPendingGroup = { t with pendingGroupState := some state } := by
  unfold createPendingGroup
  split
  · exact .inl rfl
  · split
    · split
      · exact .inr ⟨_, rfl⟩
      · exact .inl rfl
    · exact .inl rfl

theorem initLeafNode_frame (t : Session M) (entropy : Entropy M) (selfUserId : UInt64)
    (transientKey : Option M.SignaturePrivateKey) :
    (t.initLeafNode entropy selfUserId transientKey).1.stateWithProposals = t.stateWithProposals ∧
      (t.initLeafNode entropy selfUserId transientKey).1.proposalQueue = t.proposalQueue := by
  unfold initLeafNode
  split
  · exact ⟨rfl, rfl⟩
  · dsimp only
    split
    · exact ⟨rfl, rfl⟩
    · split
      · exact ⟨rfl, rfl⟩
      · exact ⟨rfl, rfl⟩

theorem inStep_init (t : Session M) (entropy : Entropy M) (version : UInt16)
    (groupId selfUserId : UInt64) (transientKey : Option M.SignaturePrivateKey) :
    (t.init entropy version groupId selfUserId transientKey).1.InStep := by
  simp only [init]
  generalize hfresh : ({ t.reset with
    sessionProtocolVersion := version
    sessionGroupId := bigEndianBytesFrom groupId } : Session M) = fresh
  have hleaf := fresh.initLeafNode_frame entropy selfUserId transientKey
  have hstate : fresh.stateWithProposals = none := by rw [← hfresh]; rfl
  have hqueue : fresh.proposalQueue = [] := by rw [← hfresh]; rfl
  rw [hstate, hqueue] at hleaf
  rcases (fresh.initLeafNode entropy selfUserId transientKey).1.createPendingGroup_eq with
    hsame | ⟨state, hnew⟩
  · rw [hsame]
    exact inStep_of_none hleaf.1 hleaf.2
  · rw [hnew]
    exact inStep_of_none hleaf.1 hleaf.2

/-- `set_external_sender` leaves the pending group alone, or replaces it. -/
theorem setExternalSender_eq (t : Session M) (package : Bytes) :
    (t.setExternalSender package).baseState = t.baseState ∨ t.ReplacesPendingGroup package := by
  unfold setExternalSender
  split
  · exact .inl rfl
  · next hcurrent =>
      split
      · exact .inl rfl
      · next sender hsender =>
          dsimp only
          split
          · next hgroup =>
              rw [createPendingGroup, if_neg hgroup]
              split
              · next sender' leaf hpke signature hs hleaf hhpke hsignature =>
                  obtain rfl := Option.some.inj hs
                  split
                  · next state hstate =>
                      refine .inr ⟨by simpa using hcurrent, hgroup, ?_⟩
                      exact ⟨sender, leaf, hpke, signature, state, hsender, hleaf, hhpke,
                        hsignature, hstate⟩
                  · exact .inl rfl
              · exact .inl rfl
          · exact .inl rfl

theorem setExternalSender_frame (t : Session M) (package : Bytes) :
    (t.setExternalSender package).stateWithProposals = t.stateWithProposals ∧
      (t.setExternalSender package).proposalQueue = t.proposalQueue := by
  unfold setExternalSender
  split
  · exact ⟨rfl, rfl⟩
  · split
    · exact ⟨rfl, rfl⟩
    · next sender _ =>
        dsimp only
        split
        · rcases createPendingGroup_eq { t with mlsExternalSender := some sender } with
            hsame | ⟨state, hnew⟩
          · rw [hsame]
            exact ⟨rfl, rfl⟩
          · rw [hnew]
            exact ⟨rfl, rfl⟩
        · exact ⟨rfl, rfl⟩

theorem InStep.setExternalSender {package : Bytes} (h : s.InStep)
    (hkeeps : s.KeepsDerivedState (.setExternalSender package)) :
    (s.setExternalSender package).InStep := by
  have hframe := s.setExternalSender_frame package
  rcases hkeeps with hnone | hnot
  · rw [hnone] at hframe
    rw [h.empty hnone] at hframe
    exact inStep_of_none hframe.1 hframe.2
  · rcases s.setExternalSender_eq package with hbase | hreplaces
    · exact h.congr hbase hframe.1 hframe.2
    · exact absurd hreplaces hnot

/-- A derived state that the queue leads to is in step, whether or not the commit
to it succeeds. -/
theorem inStep_derived (t : Session M) (entropy : Entropy M) {base state : M.State}
    (hbase : t.baseState = some base) (hstate : t.stateWithProposals = some state)
    (hqueue : M.handleAll base (queuedContents t.proposalQueue) = some state) :
    t.InStep ∧ (t.commitProposals entropy state).1.InStep := by
  have ht : t.InStep := by
    constructor
    · intro state' h
      rw [hstate] at h
      obtain rfl := Option.some.inj h
      exact ⟨base, hbase, hqueue⟩
    · intro h
      rw [hstate] at h
      cases h
  constructor
  · exact ht
  · obtain ⟨commit, cached, hcommit⟩ := t.commitProposals_eq entropy state
    rw [hcommit]
    exact ht.congr rfl rfl rfl

theorem InStep.processProposals {entropy : Entropy M} {proposals : Bytes}
    {recognised : List UInt64} (h : s.InStep)
    (hkeeps : s.KeepsDerivedState (.processProposals entropy proposals recognised)) :
    (s.processProposals entropy proposals recognised).1.InStep := by
  unfold Session.processProposals
  split
  · exact h
  · next base hbase =>
      -- before the message is read the derived state is the one the queue leads to
      have hderived : M.handleAll base (queuedContents s.proposalQueue) =
          some (s.stateWithProposals.getD base) := by
        cases hstate : s.stateWithProposals with
        | none =>
            rw [h.empty hstate]
            rfl
        | some state =>
            obtain ⟨base', hbase', hhandled⟩ := h.coherent state hstate
            obtain rfl : base = base' := Option.some.inj (hbase.symm.trans hbase')
            exact hhandled
      dsimp only
      split
      · exact (inStep_derived { s with stateWithProposals := some _ } entropy hbase rfl
          hderived).1
      · next refs hrefs =>
          obtain ⟨last, hlast⟩ := Option.isSome_iff_exists.mp ((hkeeps base hbase).1 refs hrefs)
          rw [handleQueued_eq hlast, if_pos rfl]
          exact (inStep_derived { s with
            proposalQueue := revoke s.proposalQueue refs
            stateWithProposals := some last } entropy hbase rfl hlast).2
      · next messages hmessages =>
          have hadded := handleAll_addProposals recognised messages hderived
            ((hkeeps base hbase).2 messages hmessages)
          generalize addProposals recognised (s.stateWithProposals.getD base) s.proposalQueue
            messages = result at hadded
          have hboth := inStep_derived { s with
            proposalQueue := result.2.1
            stateWithProposals := some result.1 } entropy hbase rfl hadded
          split
          · exact hboth.2
          · exact hboth.1

theorem InStep.processCommit {commit : Bytes} (h : s.InStep)
    (hkeeps : s.KeepsDerivedState (.processCommit commit)) :
    (s.processCommit commit).1.InStep := by
  unfold Session.processCommit
  split
  · exact h
  · next message hmessage =>
      split
      · exact h
      · next state hstate =>
          split
          · exact h
          · next hgroup =>
              have hhandled := hkeeps message state hmessage hstate (not_not.mp hgroup)
              split
              · exact inStep_clearPendingState _
              · next state' result hnone hresult =>
                  rw [hresult] at hhandled
                  rcases hhandled with ⟨next, hnext⟩ | hsame
                  · exact absurd hnext (hnone next)
                  · obtain rfl : state' = state := hsame
                    exact h.congr rfl hstate.symm rfl

theorem InStep.processWelcome {welcome : Bytes} (h : s.InStep) :
    (s.processWelcome welcome).1.InStep := by
  unfold Session.processWelcome
  split
  · split
    · exact h
    · split
      · exact h
      · split
        · exact h
        · exact inStep_clearPendingState _
  · exact h

theorem InStep.getMarshalledKeyPackage (entropy : Entropy M) (h : s.InStep) :
    (s.getMarshalledKeyPackage entropy).1.InStep := by
  simp only [Session.getMarshalledKeyPackage]
  unfold resetJoinKeyPackage
  split
  · split
    · exact h
    · dsimp only
      split
      · exact h.congr rfl rfl rfl
      · exact h.congr rfl rfl rfl
  · exact h

/-- **Step.** -/
theorem InStep.apply {op : Op M} (h : s.InStep) (hkeeps : s.KeepsDerivedState op) :
    (s.apply op).InStep := by
  cases op with
  | init entropy version groupId selfUserId transientKey => exact inStep_init s ..
  | reset => exact inStep_reset s
  | setProtocolVersion version => exact h.congr rfl rfl rfl
  | setExternalSender package => exact h.setExternalSender hkeeps
  | processProposals entropy proposals recognised => exact h.processProposals hkeeps
  | processCommit commit => exact h.processCommit hkeeps
  | processWelcome welcome recognised => exact h.processWelcome
  | getMarshalledKeyPackage entropy => exact h.getMarshalledKeyPackage entropy

/-- **The derived state and the queue**: in every run of calls that keep them in
step, the derived state is the base state with the queued proposals handled in
order. -/
theorem coherent_of_run {signingKeyId : Bytes} {trace : List (Taken (Session M) (Op M))}
    (hrun : (machine M signingKeyId).Run trace s)
    (hkeeps : ∀ t ∈ trace, t.pre.KeepsDerivedState t.event) : s.Coherent := by
  suffices hinv : s.InStep from hinv.coherent
  induction hrun with
  | start => exact inStep_of_none rfl rfl
  | step _ hstep ih =>
      obtain rfl := Option.some.inj hstep
      have hbefore := ih fun t ht => hkeeps t (List.mem_cons_of_mem _ ht)
      exact hbefore.apply (hkeeps _ List.mem_cons_self)

/-- The stand-in has a reference for every proposal. -/
theorem referenced_rollMls (recognised : List UInt64) (state : rollMls.State)
    (messages : List rollMls.MlsMessage) : Referenced recognised state messages := by
  induction messages generalizing state with
  | nil => trivial
  | cons message messages ih =>
      intro content next _ _ _
      constructor
      · cases content <;> rfl
      · exact ih next

/-- `init`, an external sender, the addition of two users and the revocation of
one of them. -/
def revokeCalls : List (Op rollMls) :=
  [.init { persistedKey := none, signatureKey := [1], hpkeKey := [2] } 1 7 1 none,
    .setExternalSender [9], .processProposals {} [0, 5, 6] [5, 6],
    .processProposals {} [1, 5] []]

theorem coherent_revoked :
    Coherent ((machine rollMls []).recorded revokeCalls).2 ∧
      ((machine rollMls []).recorded revokeCalls).2.stateWithProposals =
        some ⟨bigEndianBytesFrom 7, [9], [byteCredential 1], [byteCredential 6]⟩ := by
  constructor
  · refine coherent_of_run (Machine.run_recorded _ _ (by decide +kernel)) ?_
    refine List.forall_mem_cons.mpr ⟨?_, List.forall_mem_cons.mpr ⟨?_,
      List.forall_mem_cons.mpr ⟨.inl rfl, List.forall_mem_singleton.mpr trivial⟩⟩⟩
    · intro base _
      exact ⟨fun _ _ => isSome_handleAll_rollMls base _, fun _ _ => referenced_rollMls ..⟩
    · intro base _
      exact ⟨fun _ _ => isSome_handleAll_rollMls base _, fun _ _ => referenced_rollMls ..⟩
  · decide +kernel

/-- A user is added to the group of one external sender before another one is
announced. -/
def secondSenderCalls : List (Op rollMls) :=
  [.init { persistedKey := none, signatureKey := [1], hpkeKey := [2] } 1 7 1 none,
    .setExternalSender [8], .processProposals {} [0, 5] [5], .setExternalSender [9]]

/-- The derived state stays on the group that the second sender replaces. -/
theorem coherent_lost :
    (machine rollMls []).Run ((machine rollMls []).recorded secondSenderCalls).1
        ((machine rollMls []).recorded secondSenderCalls).2 ∧
      ¬ Coherent ((machine rollMls []).recorded secondSenderCalls).2 := by
  constructor
  · exact Machine.run_recorded _ _ (by decide +kernel)
  · intro h
    obtain ⟨base, hbase, hhandled⟩ := h
      ⟨bigEndianBytesFrom 7, [8], [byteCredential 1], [byteCredential 5]⟩ (by decide +kernel)
    have hpending : base = (⟨bigEndianBytesFrom 7, [9], [byteCredential 1], []⟩ : Roll) :=
      Option.some.inj (hbase.symm.trans (by decide +kernel))
    rw [hpending] at hhandled
    exact absurd hhandled (by decide +kernel)

end Session

end Ekizu.Dave
