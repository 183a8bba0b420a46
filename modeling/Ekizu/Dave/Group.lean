import Ekizu.Dave.Proposals
import Ekizu.Dave.Reference

/-!
# A group of sessions

Any number of sessions and the server between them.  The sessions commit to the
proposals they are told of; the server announces one commit of the current epoch
after the other, in an order that is the same for all, and brings the announced
commits and their Welcomes to the members, late, twice or never.

What mlspp promises of epochs is `Mls.CommitLaws`.  One thing is asked of the server:
a member is told of a commit of its own only while it is the last one it made, for the
session keeps the state of its last commit only.

## Main results

* `Session.processProposals_sends` — what a session that answers a commit keeps of it.
* `Group.Formed` and its preservation — the invariant of a run.
* `Group.Reachable.agree` — two members have the same media keys exactly where they have
  come to the same announced commit.
* `Group.Reachable.walks` — a member takes the announced commits one after the other.
-/

namespace Ekizu.Dave

/-! ## What MLS promises of commits -/

/-- Each commit is made in an epoch and leads to one.  A member that has handled it is in
the epoch it leads to; where it is the member's own, `handle` answers the cached state. -/
structure Mls.CommitLaws (M : Mls) where
  /-- The number of an epoch in its group. -/
  number : M.Epoch → Nat
  /-- The place of the member in the tree. -/
  Leaf : Type
  leafOf : M.State → Leaf
  author : M.MlsMessage → Leaf
  madeIn : M.MlsMessage → M.Epoch
  leadsTo : M.MlsMessage → M.Epoch
  invitesTo : M.Welcome → M.Epoch
  handleProposal : ∀ {state next : M.State} {content : M.ValidatedContent},
    M.handleProposal state content = some next → M.epochOf next = M.epochOf state
  commit : ∀ {state next : M.State} {secret : Bytes} {message : M.MlsMessage}
    {welcome : M.Welcome}, M.commit state secret = some (message, welcome, next) →
      madeIn message = M.epochOf state ∧ leadsTo message = M.epochOf next ∧
        invitesTo welcome = M.epochOf next ∧
        number (M.epochOf next) = number (M.epochOf state) + 1
  handleCommit : ∀ {state left next : M.State} {message : M.MlsMessage}
    {cached : Option M.State}, M.handleCommit state message cached = (left, some (some next)) →
      madeIn message = M.epochOf state ∧
        (author message = leafOf state ∧ cached = some next ∨
          author message ≠ leafOf state ∧ M.epochOf next = leadsTo message)
  left : ∀ (state : M.State) (message : M.MlsMessage) (cached : Option M.State),
    M.epochOf (M.handleCommit state message cached).1 = M.epochOf state
  join : ∀ {initKey leafKey : M.HpkePrivateKey} {signature : M.SignaturePrivateKey}
    {package : M.KeyPackage} {welcome : M.Welcome} {state : M.State},
    M.joinGroup initKey leafKey signature package welcome = some state →
      M.epochOf state = invitesTo welcome
  roster : ∀ {a b : M.State}, M.epochOf a = M.epochOf b → M.roster a = M.roster b
  getMessage : ∀ {message : M.MlsMessage} {bytes : Bytes},
    M.marshalMessage message = some bytes → M.getMessage bytes = some message
  getWelcome : ∀ {welcome : M.Welcome} {bytes : Bytes},
    M.marshalWelcome welcome = some bytes → M.getWelcome bytes = some welcome
  /-- An encoded message says where it ends. -/
  framed : ∀ {a b : M.MlsMessage} {bytes bytes' rest rest' : Bytes},
    M.marshalMessage a = some bytes → M.marshalMessage b = some bytes' →
      bytes ++ rest = bytes' ++ rest' → a = b ∧ rest = rest'

namespace Session

variable {M : Mls} {s s' : Session M}

/-! ## What a session keeps of its commits -/

/-- **A commit that is sent.**  Its state is cached, and it was made on the derived state. -/
theorem processProposals_sends {entropy : Entropy M} {proposals : Bytes}
    {recognised : List UInt64} {sent : Bytes}
    (h : s.processProposals entropy proposals recognised = (s', some sent)) :
    ∃ state message welcome next commit rest,
      s'.stateWithProposals = some state ∧
      M.commit state entropy.commitSecret = some (message, welcome, next) ∧
      s'.outboundCachedGroupState = some next ∧ M.marshalMessage message = some commit ∧
      welcomeBytes welcome = some rest ∧ sent = commit ++ rest := by
  have hcommits : ∀ (t : Session M) (state : M.State), t.stateWithProposals = some state →
      t.commitProposals entropy state = (s', some sent) →
      ∃ message welcome next commit rest, s'.stateWithProposals = some state ∧
        M.commit state entropy.commitSecret = some (message, welcome, next) ∧
        s'.outboundCachedGroupState = some next ∧ M.marshalMessage message = some commit ∧
        welcomeBytes welcome = some rest ∧ sent = commit ++ rest := by
    intro t state hstate hcommit
    unfold commitProposals at hcommit
    split at hcommit
    · simp at hcommit
    · next message welcome next hmade =>
        split at hcommit
        · simp at hcommit
        · next commit hmarshal =>
            dsimp only at hcommit
            split at hcommit
            · simp at hcommit
            · next rest hwelcome =>
                simp only [Prod.mk.injEq, Option.some.injEq] at hcommit
                obtain ⟨rfl, rfl⟩ := hcommit
                exact ⟨message, welcome, next, commit, rest, hstate, hmade, rfl, hmarshal,
                  hwelcome, rfl⟩
  unfold processProposals at h
  split at h
  · simp at h
  · dsimp only at h
    split at h
    · simp at h
    · split at h
      · exact ⟨_, hcommits _ _ rfl h⟩
      · simp at h
    · split at h
      · exact ⟨_, hcommits _ _ rfl h⟩
      · simp at h

/-- A call that sends nothing keeps the cached state. -/
theorem outboundCachedGroupState_of_none {entropy : Entropy M} {proposals : Bytes}
    {recognised : List UInt64}
    (h : s.processProposals entropy proposals recognised = (s', none)) :
    s'.outboundCachedGroupState = s.outboundCachedGroupState := by
  have hcommits : ∀ (t : Session M) (state : M.State),
      t.commitProposals entropy state = (s', none) →
        s'.outboundCachedGroupState = t.outboundCachedGroupState := by
    intro t state hcommit
    unfold commitProposals at hcommit
    split at hcommit
    · obtain rfl := congrArg Prod.fst hcommit
      rfl
    · split at hcommit
      · obtain rfl := congrArg Prod.fst hcommit
        rfl
      · dsimp only at hcommit
        split at hcommit
        · obtain rfl := congrArg Prod.fst hcommit
          rfl
        · simp at hcommit
  unfold processProposals at h
  split at h
  · obtain rfl := congrArg Prod.fst h
    rfl
  · dsimp only at h
    split at h
    · obtain rfl := congrArg Prod.fst h
      rfl
    · split at h
      · have hkept := hcommits _ _ h
        exact hkept
      · obtain rfl := congrArg Prod.fst h
        rfl
    · split at h
      · have hkept := hcommits _ _ h
        exact hkept
      · obtain rfl := congrArg Prod.fst h
        rfl

/-! ## The epoch of the derived state -/

theorem epochOf_handleQueued (laws : M.CommitLaws) (state : M.State)
    (queue : List (QueuedProposal M)) :
    M.epochOf (handleQueued state queue).1 = M.epochOf state := by
  induction queue generalizing state with
  | nil => rfl
  | cons queued queue ih =>
      rw [handleQueued]
      split
      · rfl
      · next next hnext =>
          rw [ih next]
          exact laws.handleProposal hnext

theorem epochOf_addProposals (laws : M.CommitLaws) (recognised : List UInt64) (state : M.State)
    (queue : List (QueuedProposal M)) (messages : List M.MlsMessage) :
    M.epochOf (addProposals recognised state queue messages).1 = M.epochOf state := by
  induction messages generalizing state queue with
  | nil => rfl
  | cons message messages ih =>
      rw [addProposals]
      split
      · rfl
      · split
        · rfl
        · split
          · rfl
          · next next hnext =>
              have hsame := laws.handleProposal hnext
              split
              · exact hsame
              · rw [ih next]
                exact hsame

/-- Proposals are handled in the epoch of the state they are handled on. -/
theorem epochOf_processProposals (laws : M.CommitLaws) {entropy : Entropy M} {proposals : Bytes}
    {recognised : List UInt64} {epoch : M.Epoch}
    (hbase : ∀ state, s.baseState = some state → M.epochOf state = epoch)
    (hderived : ∀ state, s.stateWithProposals = some state → M.epochOf state = epoch) :
    ∀ state, (s.processProposals entropy proposals recognised).1.stateWithProposals = some state →
      M.epochOf state = epoch := by
  have hcommit : ∀ (t : Session M) (state : M.State),
      (t.commitProposals entropy state).1.stateWithProposals = t.stateWithProposals := by
    intro t state
    obtain ⟨commit, cached, heq⟩ := t.commitProposals_eq entropy state
    rw [heq]
  unfold processProposals
  split
  · exact hderived
  · next base hb =>
      have hstart : M.epochOf (s.stateWithProposals.getD base) = epoch := by
        cases hs : s.stateWithProposals with
        | none => exact hbase base hb
        | some state => exact hderived state hs
      dsimp only
      split
      · intro state hstate
        obtain rfl := Option.some.inj hstate
        exact hstart
      · next refs _ =>
          have hqueued := epochOf_handleQueued laws base (revoke s.proposalQueue refs)
          rw [hbase base hb] at hqueued
          split
          · intro state hstate
            rw [hcommit] at hstate
            obtain rfl := Option.some.inj hstate
            exact hqueued
          · intro state hstate
            obtain rfl := Option.some.inj hstate
            exact hqueued
      · next messages _ =>
          have hadded := epochOf_addProposals laws recognised (s.stateWithProposals.getD base)
            s.proposalQueue messages
          rw [hstart] at hadded
          split
          · intro state hstate
            rw [hcommit] at hstate
            obtain rfl := Option.some.inj hstate
            exact hadded
          · intro state hstate
            obtain rfl := Option.some.inj hstate
            exact hadded

/-! ## Members of a group -/

/-- A session in a group: its roster is that of the group, no other group is pending, and
proposals are handled in the epoch of the group. -/
structure Settled (s : Session M) : Prop where
  roster : ∀ state, s.currentState = some state → s.roster = collectRoster (M.roster state)
  pending : s.currentState ≠ none → s.pendingGroupState = none
  derived : ∀ state derived, s.currentState = some state → s.stateWithProposals = some derived →
    M.epochOf derived = M.epochOf state

theorem settled_of_none (h : s.currentState = none) : s.Settled := by
  constructor
  · intro state hstate
    rw [h] at hstate
    exact absurd hstate (by simp)
  · intro hne
    exact absurd h hne
  · intro state derived hstate
    rw [h] at hstate
    exact absurd hstate (by simp)

/-- A session that was just moved to a state, with nothing pending. -/
theorem settled_replaceState (s : Session M) (state : M.State) :
    (s.replaceState state).1.clearPendingState.Settled := by
  constructor
  · intro state' hstate
    obtain rfl := Option.some.inj hstate
    rfl
  · intro _
    rfl
  · intro state' derived _ hderived
    exact absurd hderived (by simp [clearPendingState])

/-- The calls that are not about proposals, commits or Welcomes. -/
def Op.Aside : Op M → Prop
  | .processProposals .. | .processCommit .. | .processWelcome .. => False
  | _ => True

theorem outboundCachedGroupState_createPendingGroup (t : Session M) :
    t.createPendingGroup.outboundCachedGroupState = t.outboundCachedGroupState := by
  rcases t.createPendingGroup_eq with hsame | ⟨state, hnew⟩
  · rw [hsame]
  · rw [hnew]

theorem outboundCachedGroupState_setExternalSender (t : Session M) (package : Bytes) :
    (t.setExternalSender package).outboundCachedGroupState = t.outboundCachedGroupState := by
  unfold setExternalSender
  split
  · rfl
  · split
    · rfl
    · dsimp only
      split
      · rw [outboundCachedGroupState_createPendingGroup]
      · rfl

/-- A key package only changes what a Welcome needs. -/
theorem getMarshalledKeyPackage_eq (t : Session M) (entropy : Entropy M) : ∃ initKey package,
    (t.getMarshalledKeyPackage entropy).1 =
      { t with joinInitPrivateKey := initKey, joinKeyPackage := package } := by
  simp only [getMarshalledKeyPackage]
  unfold resetJoinKeyPackage
  split
  · split
    · exact ⟨_, _, rfl⟩
    · dsimp only
      split
      · exact ⟨_, _, rfl⟩
      · exact ⟨_, _, rfl⟩
  · exact ⟨_, _, rfl⟩

/-- Such a call keeps the group and what is cached, or leaves the group. -/
theorem apply_aside {op : Op M} (h : op.Aside) :
    ((s.apply op).outboundCachedGroupState = none ∨
        (s.apply op).outboundCachedGroupState = s.outboundCachedGroupState) ∧
      ((s.apply op).currentState = none ∨
        (s.apply op).currentState = s.currentState ∧ (s.apply op).roster = s.roster ∧
          (s.apply op).pendingGroupState = s.pendingGroupState ∧
          (s.apply op).stateWithProposals = s.stateWithProposals) := by
  cases op with
  | init entropy version groupId selfUserId transientKey =>
      refine ⟨.inl ?_, .inl (s.currentState_init entropy version groupId selfUserId transientKey)⟩
      show (s.init entropy version groupId selfUserId transientKey).1.outboundCachedGroupState =
        none
      have hleaf : ∀ t : Session M,
          (t.initLeafNode entropy selfUserId transientKey).1.outboundCachedGroupState =
            t.outboundCachedGroupState := by
        intro t
        unfold initLeafNode
        split
        · rfl
        · dsimp only
          split
          · rfl
          · split <;> rfl
      simp only [init]
      rw [outboundCachedGroupState_createPendingGroup, hleaf]
      rfl
  | reset => exact ⟨.inl rfl, .inl rfl⟩
  | setProtocolVersion version => exact ⟨.inr rfl, .inr ⟨rfl, rfl, rfl, rfl⟩⟩
  | setExternalSender package =>
      cases hcurrent : s.currentState.isSome with
      | true =>
          have hsame : s.apply (.setExternalSender package) = s := if_pos hcurrent
          rw [hsame]
          exact ⟨.inr rfl, .inr ⟨rfl, rfl, rfl, rfl⟩⟩
      | false =>
          have hnone : s.currentState = none := by simpa using hcurrent
          refine ⟨.inr (s.outboundCachedGroupState_setExternalSender package), .inl ?_⟩
          exact (s.currentState_setExternalSender package).trans hnone
  | getMarshalledKeyPackage entropy =>
      obtain ⟨initKey, package, heq⟩ := s.getMarshalledKeyPackage_eq entropy
      have happly : s.apply (.getMarshalledKeyPackage entropy) =
          { s with joinInitPrivateKey := initKey, joinKeyPackage := package } := heq
      rw [happly]
      exact ⟨.inr rfl, .inr ⟨rfl, rfl, rfl, rfl⟩⟩
  | processProposals entropy proposals recognised => exact h.elim
  | processCommit commit => exact h.elim
  | processWelcome welcome recognised => exact h.elim

/-- Such a call keeps a settled session so. -/
theorem Settled.apply_aside {op : Op M} (h : s.Settled) (hop : op.Aside) :
    (s.apply op).Settled := by
  obtain ⟨-, hcase⟩ := s.apply_aside hop
  cases hcase with
  | inl hnone => exact settled_of_none hnone
  | inr hsame =>
      obtain ⟨hcurrent, hroster, hpending, hderived⟩ := hsame
      constructor
      · rw [hcurrent, hroster]
        exact h.roster
      · rw [hcurrent, hpending]
        exact h.pending
      · rw [hcurrent, hderived]
        exact h.derived

/-- Proposals only change what is pending. -/
theorem processProposals_frame (s : Session M) (entropy : Entropy M) (proposals : Bytes)
    (recognised : List UInt64) :
    (s.processProposals entropy proposals recognised).1.roster = s.roster ∧
      (s.processProposals entropy proposals recognised).1.pendingGroupState =
        s.pendingGroupState := by
  have hcommit : ∀ (t : Session M) (state : M.State),
      (t.commitProposals entropy state).1.roster = t.roster ∧
        (t.commitProposals entropy state).1.pendingGroupState = t.pendingGroupState := by
    intro t state
    obtain ⟨commit, cached, heq⟩ := t.commitProposals_eq entropy state
    rw [heq]
    exact ⟨rfl, rfl⟩
  unfold processProposals
  split
  · exact ⟨rfl, rfl⟩
  · dsimp only
    split
    · exact ⟨rfl, rfl⟩
    · split
      · exact hcommit _ _
      · exact ⟨rfl, rfl⟩
    · split
      · exact hcommit _ _
      · exact ⟨rfl, rfl⟩

theorem Settled.processProposals (laws : M.CommitLaws) (h : s.Settled) (entropy : Entropy M)
    (proposals : Bytes) (recognised : List UInt64) :
    (s.processProposals entropy proposals recognised).1.Settled := by
  have hcurrent := s.currentState_processProposals entropy proposals recognised
  obtain ⟨hroster, hpending⟩ := s.processProposals_frame entropy proposals recognised
  constructor
  · rw [hcurrent, hroster]
    exact h.roster
  · rw [hcurrent, hpending]
    exact h.pending
  · intro state derived hstate
    rw [hcurrent] at hstate
    apply epochOf_processProposals laws
    · intro base hbase
      rw [baseState, h.pending (by simp [hstate]), Option.none_or, hstate] at hbase
      obtain rfl := Option.some.inj hbase
      rfl
    · intro derived hderived
      exact h.derived state derived hstate hderived

/-! ## Taking a commit -/

/-- **What a commit does.**  It is refused and nothing is moved, or the session is in the
epoch the commit leads to; in the cached one, if the commit is its own. -/
theorem processCommit_takes (laws : M.CommitLaws) {message : M.MlsMessage} {commit : Bytes}
    (hmarshal : M.marshalMessage message = some commit) :
    ((s.processCommit commit).1.currentState = s.currentState ∧
        (s.processCommit commit).1.outboundCachedGroupState = s.outboundCachedGroupState ∧
        (s.processCommit commit).1.roster = s.roster ∧
        (s.processCommit commit).1.pendingGroupState = s.pendingGroupState ∧
        (∀ derived, (s.processCommit commit).1.stateWithProposals = some derived →
          ∃ old, s.stateWithProposals = some old ∧ M.epochOf derived = M.epochOf old) ∧
        ∀ changeMap, (s.processCommit commit).2 ≠ .roster changeMap) ∨
      ∃ state next changeMap, s.stateWithProposals = some state ∧
        laws.madeIn message = M.epochOf state ∧
        (laws.author message = laws.leafOf state ∧ s.outboundCachedGroupState = some next ∨
          laws.author message ≠ laws.leafOf state ∧ M.epochOf next = laws.leadsTo message) ∧
        (s.processCommit commit).1 =
          { (s.replaceState next).1 with outboundCachedGroupState := none }.clearPendingState ∧
        (s.processCommit commit).2 = .roster changeMap := by
  unfold processCommit
  rw [laws.getMessage hmarshal]
  dsimp only
  split
  · exact .inl ⟨rfl, rfl, rfl, rfl, fun derived h => ⟨derived, h, rfl⟩, by simp⟩
  · next state hstate =>
      split
      · exact .inl ⟨rfl, rfl, rfl, rfl, fun derived h => ⟨derived, h, rfl⟩, by simp⟩
      · split
        · next left next hhandled =>
            obtain ⟨hmade, hcase⟩ := laws.handleCommit hhandled
            exact .inr ⟨state, next, _, hstate, hmade, hcase, rfl, rfl⟩
        · next left result hnone hhandled =>
            have hleft := laws.left state message s.outboundCachedGroupState
            rw [hhandled] at hleft
            refine .inl ⟨rfl, rfl, rfl, rfl, ?_, by simp⟩
            intro derived hderived
            obtain rfl := Option.some.inj hderived
            exact ⟨state, hstate, hleft⟩

end Session

/-! ## The group -/

/-- A commit that a member has sent, with the Welcome behind it. -/
structure SentCommit (M : Mls) where
  author : Nat
  message : M.MlsMessage
  welcome : Bytes

/-- The sessions of all users, the commits they have made, the last one first, and those the
server has announced, the first one first. -/
structure Group (M : Mls) where
  member : Nat → Session M
  made : List (SentCommit M) := []
  announced : List (SentCommit M) := []

namespace Group

variable {M : Mls}

/-- One session is another one. -/
def setMember (g : Group M) (i : Nat) (s : Session M) : Group M :=
  { g with member := Function.update g.member i s }

/-- One session is called. -/
def call (g : Group M) (i : Nat) (op : Session.Op M) : Group M :=
  g.setMember i ((g.member i).apply op)

/-- The last commit that a member has made. -/
def lastMade (g : Group M) (i : Nat) : Option (SentCommit M) :=
  g.made.find? fun entry => entry.author = i

/-- The runs of a group. -/
inductive Reachable (laws : M.CommitLaws) : Group M → Prop
  | start (signingKeyId : Nat → Bytes) :
      Reachable laws { member := fun i => { signingKeyId := signingKeyId i } }
  /-- A member does anything else. -/
  | aside {g : Group M} (i : Nat) {op : Session.Op M} : Reachable laws g → op.Aside →
      Reachable laws (g.call i op)
  /-- A member is told of proposals and sends a commit to them. -/
  | propose {g : Group M} {i : Nat} {entropy : Entropy M} {proposals : Bytes}
      {recognised : List UInt64} {s : Session M} {message : M.MlsMessage}
      {commit welcome : Bytes} : Reachable laws g →
      (g.member i).processProposals entropy proposals recognised =
        (s, some (commit ++ welcome)) →
      M.marshalMessage message = some commit →
      Reachable laws
        { g.setMember i s with made := ⟨i, message, welcome⟩ :: g.made }
  /-- A member is told of proposals and sends nothing. -/
  | decline {g : Group M} {i : Nat} {entropy : Entropy M} {proposals : Bytes}
      {recognised : List UInt64} {s : Session M} : Reachable laws g →
      (g.member i).processProposals entropy proposals recognised = (s, none) →
      Reachable laws (g.setMember i s)
  /-- The server announces a commit that was made in the epoch it last announced. -/
  | announce {g : Group M} {entry : SentCommit M} : Reachable laws g → entry ∈ g.made →
      (∀ last ∈ g.announced.getLast?,
        laws.madeIn entry.message = laws.leadsTo last.message) →
      Reachable laws { g with announced := g.announced ++ [entry] }
  /-- A member is told of an announced commit; of its own only if it is its last one. -/
  | deliver {g : Group M} {i : Nat} {entry : SentCommit M} {commit : Bytes} :
      Reachable laws g → entry ∈ g.announced → M.marshalMessage entry.message = some commit →
      (∀ state, (g.member i).stateWithProposals = some state →
        laws.author entry.message = laws.leafOf state →
          (g.lastMade i).map (·.message) = some entry.message) →
      Reachable laws (g.setMember i ((g.member i).processCommit commit).1)
  /-- A member is invited by the Welcome of an announced commit. -/
  | invite {g : Group M} {i : Nat} {entry : SentCommit M} :
      Reachable laws g → entry ∈ g.announced → entry.welcome ≠ [] →
      Reachable laws (g.setMember i ((g.member i).processWelcome entry.welcome).1)

/-- The member has come to the announced commit of that number. -/
def At (laws : M.CommitLaws) (g : Group M) (i k : Nat) : Prop :=
  ∃ state entry, (g.member i).currentState = some state ∧ g.announced[k]? = some entry ∧
    M.epochOf state = laws.leadsTo entry.message

/-- The invariant of a run. -/
structure Formed (laws : M.CommitLaws) (g : Group M) : Prop where
  settled : ∀ i, (g.member i).Settled
  joined : ∀ i, (g.member i).currentState ≠ none → ∃ k, At laws g i k
  cached : ∀ i state, (g.member i).outboundCachedGroupState = some state →
    ∃ entry, g.lastMade i = some entry ∧ M.epochOf state = laws.leadsTo entry.message
  grows : ∀ entry ∈ g.made, laws.number (laws.leadsTo entry.message) =
    laws.number (laws.madeIn entry.message) + 1
  welcome : ∀ entry ∈ g.made, entry.welcome ≠ [] → ∃ welcome,
    M.getWelcome entry.welcome = some welcome ∧
      laws.invitesTo welcome = laws.leadsTo entry.message
  made : ∀ entry ∈ g.announced, entry ∈ g.made
  chained : ∀ k entry next, g.announced[k]? = some entry → g.announced[k + 1]? = some next →
    laws.madeIn next.message = laws.leadsTo entry.message

section Steps

variable {laws : M.CommitLaws} {g : Group M} {i : Nat} {s : Session M}

theorem member_setMember_self (g : Group M) (i : Nat) (s : Session M) :
    (g.setMember i s).member i = s := by
  simp [setMember]

theorem member_setMember_of_ne (g : Group M) {i j : Nat} (s : Session M) (h : j ≠ i) :
    (g.setMember i s).member j = g.member j := by
  simp [setMember, h]

/-- Where a member stands is told by its own state and what was announced. -/
theorem At.congr {g' : Group M} {k : Nat} (h : At laws g i k)
    (hcurrent : (g'.member i).currentState = (g.member i).currentState)
    (hannounced : g'.announced[k]? = g.announced[k]?) : At laws g' i k := by
  obtain ⟨state, entry, hstate, hentry, hepoch⟩ := h
  exact ⟨state, entry, hcurrent.trans hstate, hannounced.trans hentry, hepoch⟩

/-- A member that stays where it is, leaves, or comes to an announced commit. -/
theorem Formed.setMember (h : Formed laws g) (hsettled : s.Settled)
    (hcurrent : s.currentState = none ∨ s.currentState = (g.member i).currentState ∨
      ∃ state, s.currentState = some state ∧
        ∃ entry ∈ g.announced, M.epochOf state = laws.leadsTo entry.message)
    (hcached : s.outboundCachedGroupState = none ∨
      s.outboundCachedGroupState = (g.member i).outboundCachedGroupState) :
    Formed laws (g.setMember i s) := by
  refine ⟨?_, ?_, ?_, h.grows, h.welcome, h.made, h.chained⟩
  · intro j
    by_cases hj : j = i
    · rw [hj, member_setMember_self]
      exact hsettled
    · rw [member_setMember_of_ne g s hj]
      exact h.settled j
  · intro j hjoined
    by_cases hj : j = i
    · rw [hj, member_setMember_self] at hjoined
      rw [hj]
      rcases hcurrent with hnone | hsame | ⟨state, hstate, entry, hentry, hepoch⟩
      · exact absurd hnone hjoined
      · rw [hsame] at hjoined
        obtain ⟨k, hk⟩ := h.joined i hjoined
        exact ⟨k, hk.congr (by rw [member_setMember_self, hsame]) rfl⟩
      · obtain ⟨k, hk⟩ := List.getElem?_of_mem hentry
        refine ⟨k, state, entry, ?_, hk, hepoch⟩
        rw [member_setMember_self]
        exact hstate
    · rw [member_setMember_of_ne g s hj] at hjoined
      obtain ⟨k, hk⟩ := h.joined j hjoined
      exact ⟨k, hk.congr (by rw [member_setMember_of_ne g s hj]) rfl⟩
  · intro j state hstate
    by_cases hj : j = i
    · rw [hj, member_setMember_self] at hstate
      rw [hj]
      cases hcached with
      | inl hnone =>
          rw [hnone] at hstate
          exact absurd hstate (by simp)
      | inr hsame =>
          rw [hsame] at hstate
          exact h.cached i state hstate
    · rw [member_setMember_of_ne g s hj] at hstate
      exact h.cached j state hstate

/-- A commit that was taken leads to its epoch, whoever made it. -/
theorem Formed.epoch_of_taken (h : Formed laws g) {message : M.MlsMessage} {state next : M.State}
    (hown : laws.author message = laws.leafOf state →
      (g.lastMade i).map (·.message) = some message)
    (hcase : laws.author message = laws.leafOf state ∧
        (g.member i).outboundCachedGroupState = some next ∨
      laws.author message ≠ laws.leafOf state ∧ M.epochOf next = laws.leadsTo message) :
    M.epochOf next = laws.leadsTo message := by
  cases hcase with
  | inl hmine =>
      obtain ⟨last, hlast, hepoch⟩ := h.cached i next hmine.2
      have hmessage := hown hmine.1
      rw [hlast, Option.map_some, Option.some.injEq] at hmessage
      rw [hepoch, hmessage]
  | inr hother => exact hother.2

/-- **Taking an announced commit.** -/
theorem Formed.deliver (h : Formed laws g) {entry : SentCommit M} {commit : Bytes}
    (hentry : entry ∈ g.announced) (hmarshal : M.marshalMessage entry.message = some commit)
    (hown : ∀ state, (g.member i).stateWithProposals = some state →
      laws.author entry.message = laws.leafOf state →
        (g.lastMade i).map (·.message) = some entry.message) :
    Formed laws (g.setMember i ((g.member i).processCommit commit).1) := by
  have hsettled := h.settled i
  rcases Session.processCommit_takes laws (s := g.member i) hmarshal with
    ⟨hcurrent, hcached, hroster, hpending, hderived, -⟩ |
      ⟨state, next, changeMap, hstate, -, hcase, hnew, -⟩
  · refine h.setMember ⟨?_, ?_, ?_⟩ (.inr (.inl hcurrent)) (.inr hcached)
    · rw [hcurrent, hroster]
      exact hsettled.roster
    · rw [hcurrent, hpending]
      exact hsettled.pending
    · intro state derived hstate hd
      obtain ⟨old, hold, hepoch⟩ := hderived derived hd
      rw [hcurrent] at hstate
      exact hepoch.trans (hsettled.derived state old hstate hold)
  · rw [hnew]
    have hepoch := h.epoch_of_taken (hown state hstate) hcase
    refine h.setMember ?_ (.inr (.inr ⟨next, rfl, entry, hentry, hepoch⟩)) (.inl rfl)
    exact Session.settled_replaceState { g.member i with outboundCachedGroupState := none } next

/-- **Joining by a Welcome.** -/
theorem Formed.invite (h : Formed laws g) {entry : SentCommit M} (hentry : entry ∈ g.announced)
    (hwelcome : entry.welcome ≠ []) :
    Formed laws (g.setMember i ((g.member i).processWelcome entry.welcome).1) := by
  obtain ⟨welcome, hget, hinvites⟩ := h.welcome entry (h.made entry hentry) hwelcome
  have hstays : Formed laws (g.setMember i (g.member i)) :=
    h.setMember (h.settled i) (.inr (.inl rfl)) (.inr rfl)
  unfold Session.processWelcome
  split
  · split
    · exact hstays
    · rw [hget, Option.bind_some]
      split
      · exact hstays
      · next state hjoin =>
          split
          · exact hstays
          · have hepoch := (laws.join hjoin).trans hinvites
            exact h.setMember (Session.settled_replaceState (g.member i) state)
              (.inr (.inr ⟨state, rfl, entry, hentry, hepoch⟩)) (.inr rfl)
  · exact hstays

theorem lastMade_cons_self (g : Group M) {i : Nat} {entry : SentCommit M}
    (h : entry.author = i) : ({ g with made := entry :: g.made } : Group M).lastMade i =
      some entry := by
  simp [lastMade, h]

theorem lastMade_cons_of_ne (g : Group M) {i : Nat} {entry : SentCommit M}
    (h : entry.author ≠ i) : ({ g with made := entry :: g.made } : Group M).lastMade i =
      g.lastMade i := by
  simp [lastMade, h]

/-- **Making a commit.** -/
theorem Formed.propose (h : Formed laws g) {entropy : Entropy M} {proposals : Bytes}
    {recognised : List UInt64} {message : M.MlsMessage} {commit welcome : Bytes}
    (hcall : (g.member i).processProposals entropy proposals recognised =
      (s, some (commit ++ welcome)))
    (hmarshal : M.marshalMessage message = some commit) :
    Formed laws { g.setMember i s with made := ⟨i, message, welcome⟩ :: g.made } := by
  obtain ⟨state, message', welcome', next, commit', rest, -, hmade, hcached, hmarshal', hrest,
    hsent⟩ := Session.processProposals_sends hcall
  -- the server reads the commit that was made
  obtain ⟨rfl, rfl⟩ := laws.framed hmarshal hmarshal' hsent
  obtain ⟨hin, hto, hinvites, hnumber⟩ := laws.commit hmade
  have hsettled : s.Settled := by
    have hkept := (h.settled i).processProposals laws entropy proposals recognised
    rwa [hcall] at hkept
  have hcurrent : s.currentState = (g.member i).currentState := by
    have hkept := (g.member i).currentState_processProposals entropy proposals recognised
    rwa [hcall] at hkept
  refine ⟨?_, ?_, ?_, ?_, ?_, ?_, h.chained⟩
  · intro j
    show ((g.setMember i s).member j).Settled
    by_cases hj : j = i
    · rw [hj, member_setMember_self]
      exact hsettled
    · rw [member_setMember_of_ne g s hj]
      exact h.settled j
  · intro j hjoined
    have hsame : ((g.setMember i s).member j).currentState = (g.member j).currentState := by
      by_cases hj : j = i
      · rw [hj, member_setMember_self, hcurrent]
      · rw [member_setMember_of_ne g s hj]
    have hjoined' : (g.member j).currentState ≠ none := hsame ▸ hjoined
    obtain ⟨k, hk⟩ := h.joined j hjoined'
    exact ⟨k, hk.congr hsame rfl⟩
  · intro j state' hstate'
    by_cases hj : j = i
    · have hself : ((g.setMember i s).member j).outboundCachedGroupState = some state' := hstate'
      rw [hj, member_setMember_self, hcached] at hself
      obtain rfl := Option.some.inj hself
      exact ⟨_, lastMade_cons_self _ hj.symm, hto.symm⟩
    · have hother : ((g.setMember i s).member j).outboundCachedGroupState = some state' := hstate'
      rw [member_setMember_of_ne g s hj] at hother
      obtain ⟨last, hlast, hepoch⟩ := h.cached j state' hother
      refine ⟨last, ?_, hepoch⟩
      exact (lastMade_cons_of_ne _ (fun hi => hj hi.symm)).trans hlast
  · intro entry hentry
    cases List.mem_cons.mp hentry with
    | inl hnew =>
        rw [hnew]
        show laws.number (laws.leadsTo message) = laws.number (laws.madeIn message) + 1
        rw [hto, hin]
        exact hnumber
    | inr hold => exact h.grows entry hold
  · intro entry hentry hne
    cases List.mem_cons.mp hentry with
    | inl hnew =>
        rw [hnew] at hne ⊢
        unfold Session.welcomeBytes at hrest
        split at hrest
        · exact ⟨welcome', laws.getWelcome hrest, hinvites.trans hto.symm⟩
        · exact absurd (Option.some.inj hrest).symm hne
    | inr hold => exact h.welcome entry hold hne
  · intro entry hentry
    exact List.mem_cons_of_mem _ (h.made entry hentry)

/-- **Announcing a commit.** -/
theorem Formed.announce (h : Formed laws g) {entry : SentCommit M} (hentry : entry ∈ g.made)
    (hnext : ∀ last ∈ g.announced.getLast?,
      laws.madeIn entry.message = laws.leadsTo last.message) :
    Formed laws { g with announced := g.announced ++ [entry] } := by
  refine ⟨h.settled, ?_, h.cached, h.grows, h.welcome, ?_, ?_⟩
  · intro i hjoined
    obtain ⟨k, state, last, hstate, hlast, hepoch⟩ := h.joined i hjoined
    have hlt := (List.getElem?_eq_some_iff.mp hlast).1
    exact ⟨k, state, last, hstate, (List.getElem?_append_left hlt).trans hlast, hepoch⟩
  · intro e he
    cases List.mem_append.mp he with
    | inl hold => exact h.made e hold
    | inr hnew => exact List.mem_singleton.mp hnew ▸ hentry
  · intro k e e' he he'
    show laws.madeIn e'.message = laws.leadsTo e.message
    by_cases hk : k + 1 < g.announced.length
    · rw [List.getElem?_append_left (by omega)] at he
      rw [List.getElem?_append_left hk] at he'
      exact h.chained k e e' he he'
    · -- the new commit follows the last one
      have hlt := (List.getElem?_eq_some_iff.mp he').1
      rw [List.length_append, List.length_singleton] at hlt
      have hlen : k + 1 = g.announced.length := by omega
      rw [List.getElem?_append_left (by omega)] at he
      rw [hlen, List.getElem?_concat_length] at he'
      obtain rfl := Option.some.inj he'
      apply hnext
      rw [List.getLast?_eq_getElem?, ← hlen, Nat.add_sub_cancel]
      exact he

/-- **The invariant of a run.** -/
theorem Reachable.formed (h : Reachable laws g) : Formed laws g := by
  induction h with
  | start signingKeyId =>
      refine ⟨fun i => Session.settled_of_none rfl, ?_, ?_, by simp, by simp, by simp, by simp⟩
      · intro i hjoined
        exact absurd rfl hjoined
      · intro i state hstate
        exact absurd hstate (by simp)
  | aside i _ hop ih =>
      obtain ⟨hcached, hcase⟩ := Session.apply_aside hop
      refine ih.setMember ((ih.settled i).apply_aside hop) ?_ hcached
      cases hcase with
      | inl hnone => exact .inl hnone
      | inr hsame => exact .inr (.inl hsame.1)
  | propose _ hcall hmarshal ih => exact ih.propose hcall hmarshal
  | @decline g i entropy proposals recognised s _ hcall ih =>
      have hsettled := (ih.settled i).processProposals laws entropy proposals recognised
      have hcurrent := (g.member i).currentState_processProposals entropy proposals recognised
      rw [hcall] at hsettled hcurrent
      exact ih.setMember hsettled (.inr (.inl hcurrent))
        (.inr (Session.outboundCachedGroupState_of_none hcall))
  | announce _ hentry hnext ih => exact ih.announce hentry hnext
  | deliver _ hentry hmarshal hown ih => exact ih.deliver hentry hmarshal hown
  | invite _ hentry hwelcome ih => exact ih.invite hentry hwelcome

/-! ## Where the members stand -/

/-- The epochs of the announced commits are numbered one after the other. -/
theorem Formed.number_announced (h : Formed laws g) {first entry : SentCommit M}
    (hfirst : g.announced[0]? = some first) {k : Nat} (hentry : g.announced[k]? = some entry) :
    laws.number (laws.leadsTo entry.message) =
      laws.number (laws.leadsTo first.message) + k := by
  induction k generalizing entry with
  | zero =>
      obtain rfl := Option.some.inj (hfirst.symm.trans hentry)
      rfl
  | succ k ih =>
      have hlt := (List.getElem?_eq_some_iff.mp hentry).1
      obtain ⟨before, hbefore⟩ : ∃ before, g.announced[k]? = some before :=
        ⟨_, List.getElem?_eq_getElem (show k < g.announced.length by omega)⟩
      have hgrows := h.grows entry (h.made entry (List.mem_of_getElem? hentry))
      rw [hgrows, h.chained k before entry hbefore hentry, ih hbefore]
      omega

/-- Announced commits lead to different epochs. -/
theorem Formed.index_eq (h : Formed laws g) {a b : SentCommit M} {k l : Nat}
    (ha : g.announced[k]? = some a) (hb : g.announced[l]? = some b)
    (hnumber : laws.number (laws.leadsTo a.message) = laws.number (laws.leadsTo b.message)) :
    k = l := by
  have hlt := (List.getElem?_eq_some_iff.mp ha).1
  obtain ⟨first, hfirst⟩ : ∃ first, g.announced[0]? = some first :=
    ⟨_, List.getElem?_eq_getElem (show 0 < g.announced.length by omega)⟩
  have hk := h.number_announced hfirst ha
  have hl := h.number_announced hfirst hb
  omega

/-- Two members stand at the same announced commit exactly where their epochs agree. -/
theorem Formed.epoch_iff (h : Formed laws g) {i j k l : Nat} (hi : At laws g i k)
    (hj : At laws g j l) : ∃ a b, (g.member i).currentState = some a ∧
      (g.member j).currentState = some b ∧ (M.epochOf a = M.epochOf b ↔ k = l) := by
  obtain ⟨a, e, ha, he, hepoch⟩ := hi
  obtain ⟨b, e', hb, he', hepoch'⟩ := hj
  refine ⟨a, b, ha, hb, ?_, ?_⟩
  · intro hsame
    apply h.index_eq he he'
    rw [← hepoch, ← hepoch', hsame]
  · intro hkl
    rw [hkl, he'] at he
    obtain rfl := Option.some.inj he
    rw [hepoch, hepoch']

theorem At.unique (h : Formed laws g) {k l : Nat} (hk : At laws g i k) (hl : At laws g i l) :
    k = l := by
  obtain ⟨a, b, ha, hb, hiff⟩ := h.epoch_iff hk hl
  obtain rfl := Option.some.inj (ha.symm.trans hb)
  exact hiff.mp rfl

/-- **Agreement.**  A member of the group stands at exactly one announced commit.  Two that
stand at the same one have the same roster and the same media key of every user; two that
stand at different ones have no media key in common. -/
theorem Reachable.agree (hexports : M.ExportsByEpoch) (H : Type) [HashRatchet H]
    [LawfulHashRatchet H] (h : Reachable laws g) :
    (∀ i, (g.member i).currentState ≠ none → ∃! k, At laws g i k) ∧
      ∀ i j k l, At laws g i k → At laws g j l →
        (k = l → (g.member i).roster = (g.member j).roster ∧
          ∀ userId, (g.member i).getKeyRatchet H userId = (g.member j).getKeyRatchet H userId) ∧
        (k ≠ l → ∀ userId ratchet ratchet',
          (g.member i).getKeyRatchet H userId = some ratchet →
            (g.member j).getKeyRatchet H userId = some ratchet' →
              ratchet.base ≠ ratchet'.base) := by
  have hformed := h.formed
  refine ⟨?_, ?_⟩
  · intro i hjoined
    obtain ⟨k, hk⟩ := hformed.joined i hjoined
    exact ⟨k, hk, fun l hl => hl.unique hformed hk⟩
  · intro i j k l hi hj
    obtain ⟨a, b, ha, hb, hiff⟩ := hformed.epoch_iff hi hj
    refine ⟨?_, ?_⟩
    · intro hkl
      have hepoch := hiff.mpr hkl
      refine ⟨?_, ?_⟩
      · rw [(hformed.settled i).roster a ha, (hformed.settled j).roster b hb, laws.roster hepoch]
      · intro userId
        simp only [Session.getKeyRatchet, ha, hb, Option.bind_eq_bind, Option.bind_some,
          hexports.same hepoch]
    · intro hkl userId ratchet ratchet' hr hr' hbase
      obtain ⟨a', secret, ha', hsecret, hratchet⟩ :=
        (g.member i).getKeyRatchet_eq_some_iff.mp hr
      obtain ⟨b', secret', hb', hsecret', hratchet'⟩ :=
        (g.member j).getKeyRatchet_eq_some_iff.mp hr'
      obtain rfl := Option.some.inj (ha.symm.trans ha')
      obtain rfl := Option.some.inj (hb.symm.trans hb')
      rw [hratchet, hratchet', KeyRatchet.base, KeyRatchet.base, Sum.inl.injEq,
        LawfulHashRatchet.secretOf_ofSecret, LawfulHashRatchet.secretOf_ofSecret] at hbase
      rw [← hbase] at hsecret'
      exact hkl (hiff.mp (hexports.distinct hsecret hsecret'))

/-- **No commit is skipped or taken twice.**  A commit that a member of the group takes is
the one announced after the commit it stands at, and it stands at that one then. -/
theorem Reachable.walks (h : Reachable laws g) {i k l : Nat} (hat : At laws g i k)
    {entry : SentCommit M} (hentry : g.announced[l]? = some entry) {commit : Bytes}
    (hmarshal : M.marshalMessage entry.message = some commit)
    (hown : ∀ state, (g.member i).stateWithProposals = some state →
      laws.author entry.message = laws.leafOf state →
        (g.lastMade i).map (·.message) = some entry.message)
    {changeMap : RosterMap}
    (htaken : ((g.member i).processCommit commit).2 = .roster changeMap) :
    l = k + 1 ∧ At laws (g.setMember i ((g.member i).processCommit commit).1) i (k + 1) := by
  have hformed := h.formed
  rcases Session.processCommit_takes laws (s := g.member i) hmarshal with
    ⟨-, -, -, -, -, hrefused⟩ | ⟨state, next, -, hstate, hmade, hcase, hnew, -⟩
  · exact absurd htaken (hrefused changeMap)
  · have hepoch := hformed.epoch_of_taken (hown state hstate) hcase
    obtain ⟨current, last, hcurrent, hlast, hstands⟩ := hat
    have hderived := (hformed.settled i).derived current state hcurrent hstate
    have hgrows := hformed.grows entry (hformed.made entry (List.mem_of_getElem? hentry))
    -- the commit was made in the epoch of the last one
    rw [hmade, hderived, hstands] at hgrows
    have hlt := (List.getElem?_eq_some_iff.mp hlast).1
    obtain ⟨first, hfirst⟩ : ∃ first, g.announced[0]? = some first :=
      ⟨_, List.getElem?_eq_getElem (show 0 < g.announced.length by omega)⟩
    have hk := hformed.number_announced hfirst hlast
    have hl := hformed.number_announced hfirst hentry
    have hnext : l = k + 1 := by omega
    rw [hnext] at hentry
    refine ⟨hnext, next, entry, ?_, hentry, hepoch⟩
    rw [member_setMember_self, hnew]
    rfl

end Steps

end Group

/-! ## A group to test with -/

/-- A state of the stand-in: the number of the epoch and the place of the member. -/
structure Tally where
  epoch : Nat
  leaf : UInt8
  deriving DecidableEq

/-- A commit of the stand-in: the epoch it was made in and the place of its author. -/
structure TallyCommit where
  epoch : UInt8
  author : UInt8
  deriving DecidableEq

def TallyCommit.encode (message : TallyCommit) : Bytes := [message.epoch, message.author]

def TallyCommit.decode : Bytes → Option TallyCommit
  | [epoch, author] => some ⟨epoch, author⟩
  | _ => none

def Tally.commit (state : Tally) : Option (TallyCommit × UInt8 × Tally) :=
  if state.epoch < 255 then
    some (⟨state.epoch.toUInt8, state.leaf⟩, (state.epoch + 1).toUInt8,
      { state with epoch := state.epoch + 1 })
  else none

def Tally.handleCommit (state : Tally) (message : TallyCommit) (cached : Option Tally) :
    Tally × Option (Option Tally) :=
  if message.epoch.toNat ≠ state.epoch then (state, none)
  else if message.author = state.leaf then (state, cached.map some)
  else (state, some (some { state with epoch := state.epoch + 1 }))

/-- A stand-in for MLS with one group, whose epoch number `n` has the members up to `n`.  A
commit adds the next member, and a Welcome is the number of the epoch. -/
def tallyMls : Mls where
  State := Tally
  ExternalSender := Bytes
  SignaturePrivateKey := Bytes
  HpkePrivateKey := Bytes
  LeafNode := Credential
  KeyPackage := Credential
  MlsMessage := TallyCommit
  Welcome := UInt8
  ValidatedContent := Bytes
  Epoch := Nat
  generateSignatureKey := some
  generateHpkeKey := some
  leafNode _ _ credential := some credential
  keyPackage _ leaf _ := some leaf
  createGroup _ _ _ _ _ := some ⟨0, 0⟩
  joinGroup _ _ _ _ welcome := some ⟨welcome.toNat, welcome⟩
  getExternalSender := some
  getMessage := TallyCommit.decode
  getWelcome := List.head?
  getProposals _ := some (.inl [])
  marshalMessage message := some message.encode
  marshalWelcome welcome := some [welcome]
  marshalKeyPackage _ := []
  groupId _ := bigEndianBytesFrom 7
  epoch := Tally.epoch
  unwrap _ _ := none
  authenticatedContent _ := ⟨.mlsPublicMessage, 0, .proposal, .external, .other⟩
  ref := some
  handleProposal state _ := some state
  commit state _ := state.commit
  welcomeHasSecrets _ := true
  handleCommit := Tally.handleCommit
  hasExternalSender _ _ := true
  roster state := (List.range (state.epoch + 1)).map fun member =>
    ⟨.basic (bigEndianBytesFrom (UInt64.ofNat member)), [member.toUInt8]⟩
  doExport state _ context _ := some (List.replicate state.epoch 0 ++ 1 :: context)
  epochOf := Tally.epoch

private theorem tally_handleCommit {state left next : Tally} {message : TallyCommit}
    {cached : Option Tally}
    (h : state.handleCommit message cached = (left, some (some next))) :
    message.epoch.toNat = state.epoch ∧
      (message.author = state.leaf ∧ cached = some next ∨
        message.author ≠ state.leaf ∧ next.epoch = message.epoch.toNat + 1) := by
  unfold Tally.handleCommit at h
  split at h
  · simp at h
  · next hepoch =>
      have hepoch : message.epoch.toNat = state.epoch := not_not.mp hepoch
      refine ⟨hepoch, ?_⟩
      split at h
      · next hauthor =>
          obtain ⟨c, hc, hsome⟩ := Option.map_eq_some_iff.mp (Prod.mk.inj h).2
          obtain rfl := Option.some.inj hsome
          exact .inl ⟨hauthor, hc⟩
      · next hauthor =>
          obtain rfl := Option.some.inj (Option.some.inj (Prod.mk.inj h).2)
          exact .inr ⟨hauthor, by rw [hepoch]⟩

/-- The stand-in keeps the promises. -/
def tallyLaws : tallyMls.CommitLaws where
  number := id
  Leaf := UInt8
  leafOf := Tally.leaf
  author := TallyCommit.author
  madeIn message := message.epoch.toNat
  leadsTo message := message.epoch.toNat + 1
  invitesTo welcome := welcome.toNat
  handleProposal := by
    intro state next content h
    obtain rfl := Option.some.inj h
    rfl
  commit := by
    intro state next secret message welcome h
    have hmade : Tally.commit state = some (message, welcome, next) := h
    unfold Tally.commit at hmade
    split at hmade
    · next hlt =>
        obtain rfl := congrArg Prod.fst (Option.some.inj hmade)
        obtain rfl := congrArg (fun made => made.2.1) (Option.some.inj hmade)
        obtain rfl := congrArg (fun made => made.2.2) (Option.some.inj hmade)
        have hnumber : state.epoch.toUInt8.toNat = state.epoch := by
          simp only [Nat.toUInt8, UInt8.toNat_ofNat']
          omega
        have hnext : (state.epoch + 1).toUInt8.toNat = state.epoch + 1 := by
          simp only [Nat.toUInt8, UInt8.toNat_ofNat']
          omega
        exact ⟨hnumber, congrArg (· + 1) hnumber, hnext, rfl⟩
    · exact absurd hmade (by simp)
  handleCommit := tally_handleCommit
  left := by
    intro state message cached
    show (Tally.handleCommit state message cached).1.epoch = state.epoch
    unfold Tally.handleCommit
    split
    · rfl
    · split
      · rfl
      · rfl
  join := by
    intro initKey leafKey signature package welcome state h
    obtain rfl := Option.some.inj h
    rfl
  roster := by
    intro a b h
    have hepoch : a.epoch = b.epoch := h
    show (List.range (a.epoch + 1)).map _ = (List.range (b.epoch + 1)).map _
    rw [hepoch]
  getMessage := by
    intro message bytes h
    obtain rfl := Option.some.inj h
    rfl
  getWelcome := by
    intro welcome bytes h
    obtain rfl := Option.some.inj h
    rfl
  framed := by
    intro a b bytes bytes' rest rest' ha hb h
    obtain rfl := Option.some.inj ha
    obtain rfl := Option.some.inj hb
    simp only [TallyCommit.encode, List.cons_append, List.nil_append, List.cons.injEq] at h
    obtain ⟨hepoch, hauthor, hrest⟩ := h
    cases a
    cases b
    exact ⟨congrArg₂ TallyCommit.mk hepoch hauthor, hrest⟩

theorem tallyMls_exportsByEpoch : tallyMls.ExportsByEpoch := by
  constructor
  · intro a b h userId
    have hepoch : a.epoch = b.epoch := h
    show some _ = some _
    rw [hepoch]
  · intro a b userId secret ha hb
    have hsame := Option.some.inj (ha.trans hb.symm)
    have hlength := congrArg List.length hsame
    show a.epoch = b.epoch
    simpa using hlength

namespace Group

/-- Two users, before the first commit. -/
def readyGroup : Group tallyMls :=
  let g : Group tallyMls := { member := fun _ => {} }
  let g := (g.call 0 (.setExternalSender [1])).call 0 (.init {} 1 7 0 none)
  let g := (g.call 1 (.setExternalSender [1])).call 1 (.init {} 1 7 1 none)
  g.call 1 (.getMarshalledKeyPackage {})

/-- The commit by which user 0 adds user 1. -/
def addition : SentCommit tallyMls := ⟨0, ⟨0, 0⟩, [1]⟩

/-- User 0 has added user 1. -/
def pairGroup : Group tallyMls :=
  let g : Group tallyMls :=
    { readyGroup.setMember 0 ((readyGroup.member 0).processProposals {} [] []).1 with
      made := [addition]
      announced := [addition] }
  let g := g.setMember 0 ((g.member 0).processCommit [0, 0]).1
  g.setMember 1 ((g.member 1).processWelcome [1]).1

private theorem reachable_readyGroup : Reachable tallyLaws readyGroup := by
  have hstart : Reachable tallyLaws { member := fun _ => {} } := .start fun _ => []
  have hstep : ∀ {g : Group tallyMls}, Reachable tallyLaws g → ∀ i (op : Session.Op tallyMls),
      op.Aside → Reachable tallyLaws (g.call i op) :=
    fun h i _ hop => h.aside i hop
  have hfirst := hstep (hstep hstart 0 (.setExternalSender [1]) trivial) 0 (.init {} 1 7 0 none)
    trivial
  exact hstep (hstep (hstep hfirst 1 (.setExternalSender [1]) trivial) 1 (.init {} 1 7 1 none)
    trivial) 1 (.getMarshalledKeyPackage {}) trivial

private theorem reachable_pairGroup : Reachable tallyLaws pairGroup := by
  have hcall : (readyGroup.member 0).processProposals {} [] [] =
      (((readyGroup.member 0).processProposals {} [] []).1, some ([0, 0] ++ [1])) := rfl
  have hmarshal : tallyMls.marshalMessage addition.message = some [0, 0] := rfl
  have hproposed : Reachable tallyLaws
      { readyGroup.setMember 0 ((readyGroup.member 0).processProposals {} [] []).1 with
        made := [addition] } := reachable_readyGroup.propose hcall hmarshal
  have hmade : addition ∈ [addition] := List.mem_singleton_self addition
  have hannounced : Reachable tallyLaws
      { readyGroup.setMember 0 ((readyGroup.member 0).processProposals {} [] []).1 with
        made := [addition]
        announced := [addition] } := by
    apply hproposed.announce hmade
    intro last hlast
    exact absurd hlast (by simp [readyGroup, call, setMember])
  have hlast : ∀ state : Tally, tallyLaws.author addition.message = state.leaf →
      (([addition].find? fun entry => entry.author = 0).map (·.message)) =
        some addition.message := fun _ _ => rfl
  have hdelivered := @Reachable.deliver _ _ _ 0 _ _ hannounced hmade hmarshal
    (fun state _ hauthor => hlast state hauthor)
  exact @Reachable.invite _ _ _ 1 _ hdelivered hmade (by decide)

/-- Both have the same media keys. -/
theorem agree_pairGroup : ∃ g : Group tallyMls, At tallyLaws g 0 0 ∧ At tallyLaws g 1 0 ∧
    (g.member 0).roster = (g.member 1).roster ∧
    ∀ userId, (g.member 0).getKeyRatchet Chain userId =
      (g.member 1).getKeyRatchet Chain userId := by
  have hfirst : At tallyLaws pairGroup 0 0 := ⟨⟨1, 0⟩, addition, rfl, rfl, rfl⟩
  have hsecond : At tallyLaws pairGroup 1 0 := ⟨⟨1, 1⟩, addition, rfl, rfl, rfl⟩
  have hagree := (reachable_pairGroup.agree tallyMls_exportsByEpoch Chain).2 0 1 0 0 hfirst hsecond
  exact ⟨pairGroup, hfirst, hsecond, hagree.1 rfl⟩

/-- The next commit of user 0. -/
def renewal : SentCommit tallyMls := ⟨0, ⟨1, 0⟩, [2]⟩

/-- Both have handled proposals, and the commit of user 0 was announced. -/
def renewedGroup : Group tallyMls :=
  let g := pairGroup.setMember 0 ((pairGroup.member 0).processProposals {} [] []).1
  let g := g.setMember 1 ((g.member 1).processProposals {} [] []).1
  { g with made := [⟨1, ⟨1, 1⟩, [2]⟩, renewal, addition], announced := [addition, renewal] }

private theorem reachable_renewedGroup : Reachable tallyLaws renewedGroup := by
  have hcall : (pairGroup.member 0).processProposals {} [] [] =
      (((pairGroup.member 0).processProposals {} [] []).1, some ([1, 0] ++ [2])) := rfl
  have hmarshal : tallyMls.marshalMessage renewal.message = some [1, 0] := rfl
  have hfirst : Reachable tallyLaws
      { pairGroup.setMember 0 ((pairGroup.member 0).processProposals {} [] []).1 with
        made := [renewal, addition] } := reachable_pairGroup.propose hcall hmarshal
  let g := pairGroup.setMember 0 ((pairGroup.member 0).processProposals {} [] []).1
  have hcall' : (g.member 1).processProposals {} [] [] =
      (((g.member 1).processProposals {} [] []).1, some ([1, 1] ++ [2])) := rfl
  have hmarshal' : tallyMls.marshalMessage ⟨1, 1⟩ = some [1, 1] := rfl
  have hsecond := @Reachable.propose _ _ _ 1 _ _ _ _ _ _ _ hfirst hcall' hmarshal'
  apply hsecond.announce (List.mem_cons_of_mem _ List.mem_cons_self)
  intro last hlast
  obtain rfl : addition = last := Option.some.inj hlast
  rfl

/-- User 1 takes the commit of user 0. -/
theorem walks_renewedGroup : ∃ changeMap,
    At tallyLaws renewedGroup 1 0 ∧
      ((renewedGroup.member 1).processCommit [1, 0]).2 = .roster changeMap ∧
      At tallyLaws (renewedGroup.setMember 1 ((renewedGroup.member 1).processCommit [1, 0]).1) 1
        1 := by
  have hat : At tallyLaws renewedGroup 1 0 := ⟨⟨1, 1⟩, addition, rfl, rfl, rfl⟩
  have hentry : renewedGroup.announced[1]? = some renewal := rfl
  have hown : ∀ state, (renewedGroup.member 1).stateWithProposals = some state →
      tallyLaws.author renewal.message = tallyLaws.leafOf state →
        (renewedGroup.lastMade 1).map (·.message) = some renewal.message := by
    intro state hstate hauthor
    have hleaf : some (⟨1, 1⟩ : Tally) = some state := hstate
    obtain rfl := Option.some.inj hleaf
    have hsame : (0 : UInt8) = 1 := hauthor
    exact absurd hsame (by decide)
  have htaken : ∃ changeMap,
      ((renewedGroup.member 1).processCommit [1, 0]).2 = .roster changeMap := ⟨_, rfl⟩
  obtain ⟨changeMap, htaken⟩ := htaken
  exact ⟨changeMap, hat, htaken,
    (reachable_renewedGroup.walks hat hentry rfl hown htaken).2⟩

end Group

end Ekizu.Dave
