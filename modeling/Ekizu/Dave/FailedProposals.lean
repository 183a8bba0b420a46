import Ekizu.Dave.Proposals

/-!
# Proposals that fail

`process_proposals` works on the members of the session and returns at the first
thing that goes wrong.  Its caller ignores a message that failed and goes on with
the session as it is then.

Before the loops nothing has changed but the copy of the base state.  A revocation
has taken its proposals off the queue and replayed the rest by the time it can fail,
and every new proposal before the one that is refused stays handled and queued.

## Main results

* `unchanged_iff` — which failed calls leave the session as it was.
* `failed_second` — the first of two proposals stays queued when the second is
  refused.
-/

namespace Ekizu.Dave.Session

variable {M : Mls}

/-! ## What is to stay -/

/-- The queue, the derived state and the pending commit are as before; a derived state
that is a copy of the base state counts as none. -/
structure Unchanged (s s' : Session M) : Prop where
  queue : s'.proposalQueue = s.proposalQueue
  derived : s'.stateWithProposals.or s.baseState = s.stateWithProposals.or s.baseState
  commit : s'.pendingGroupCommit = s.pendingGroupCommit
  cached : s'.outboundCachedGroupState = s.outboundCachedGroupState

/-- A new proposal is refused: it cannot be opened, is not one that the external sender
may make, or is not handled.  One that is handled and has no reference is not queued. -/
def NotTaken (recognised : List UInt64) (state : M.State) (message : M.MlsMessage) : Prop :=
  ∀ content next, M.unwrap state message = some content →
    validateProposalMessage (M.authenticatedContent content) (M.epoch state) recognised = true →
      M.handleProposal state content = some next → M.ref content = none ∧ next = state

/-- A commit that can be made and written is the one that is pending. -/
def KeepsCommit (s : Session M) (entropy : Entropy M) (state : M.State) : Prop :=
  ∀ commit welcome next, M.commit state entropy.commitSecret = some (commit, welcome, next) →
    (M.marshalMessage commit).isSome = true → s.pendingGroupCommit = some commit

/-- A message of which nothing is taken: a revocation of proposals that are not in the
queue, while the queue still leads to the derived state; or additions the first of which
is refused.  Where it comes to a commit, that is the pending one. -/
def TakesNothing (s : Session M) (entropy : Entropy M) (proposals : Bytes)
    (recognised : List UInt64) : Prop :=
  match s.baseState, M.getProposals proposals with
  | some base, some (.inl refs) =>
      (∀ ref ∈ refs, ∀ queued ∈ s.proposalQueue, queued.ref ≠ ref) ∧
        (handleQueued base s.proposalQueue).1 = s.stateWithProposals.getD base ∧
        ((handleQueued base s.proposalQueue).2 = true →
          s.KeepsCommit entropy (s.stateWithProposals.getD base))
  | some base, some (.inr []) => s.KeepsCommit entropy (s.stateWithProposals.getD base)
  | some base, some (.inr (message :: _)) =>
      NotTaken recognised (s.stateWithProposals.getD base) message
  | _, _ => True

/-! ## The loops -/

theorem revoke_cons (queue : List (QueuedProposal M)) (ref : Bytes) (refs : List Bytes) :
    revoke queue (ref :: refs) = revoke (queue.eraseP fun queued => queued.ref = ref) refs := rfl

theorem length_revoke_le (queue : List (QueuedProposal M)) (refs : List Bytes) :
    (revoke queue refs).length ≤ queue.length := by
  induction refs generalizing queue with
  | nil => exact Nat.le_refl _
  | cons ref refs ih =>
      rw [revoke_cons]
      exact (ih _).trans (List.length_eraseP_le ..)

/-- A revocation leaves the queue as it is when it names nothing in it. -/
theorem revoke_eq_self (queue : List (QueuedProposal M)) (refs : List Bytes) :
    revoke queue refs = queue ↔ ∀ ref ∈ refs, ∀ queued ∈ queue, queued.ref ≠ ref := by
  induction refs with
  | nil => exact iff_of_true rfl (by simp)
  | cons ref refs ih =>
      rw [revoke_cons, List.forall_mem_cons]
      by_cases h : ∀ queued ∈ queue, queued.ref ≠ ref
      · have hsame : (queue.eraseP fun queued => decide (queued.ref = ref)) = queue :=
          List.eraseP_of_forall_not (by simpa using h)
        rw [hsame, ih]
        exact ⟨fun hrest => ⟨h, hrest⟩, fun hboth => hboth.2⟩
      · constructor
        · intro hrevoked
          simp only [not_forall, not_not] at h
          obtain ⟨queued, hmem, href⟩ := h
          have hshort := List.length_eraseP_add_one
            (p := fun queued : QueuedProposal M => decide (queued.ref = ref)) hmem
            (by simpa using href)
          have hle := length_revoke_le (queue.eraseP fun queued => decide (queued.ref = ref)) refs
          rw [hrevoked] at hle
          omega
        · intro hboth
          exact absurd hboth.1 h

/-- What the loop does with one new proposal: it is refused; or it is handled, and
queued where it has a reference. -/
theorem addProposals_cons (recognised : List UInt64) (state : M.State)
    (queue : List (QueuedProposal M)) (message : M.MlsMessage) (messages : List M.MlsMessage) :
    (addProposals recognised state queue (message :: messages) = (state, queue, false) ∧
      ∀ content next, M.unwrap state message = some content →
        validateProposalMessage (M.authenticatedContent content) (M.epoch state) recognised =
          true → M.handleProposal state content ≠ some next) ∨
    ∃ content next, (M.unwrap state message = some content ∧
      validateProposalMessage (M.authenticatedContent content) (M.epoch state) recognised = true ∧
      M.handleProposal state content = some next) ∧
      ((M.ref content = none ∧
          addProposals recognised state queue (message :: messages) = (next, queue, false)) ∨
        ∃ ref, M.ref content = some ref ∧
          addProposals recognised state queue (message :: messages) =
            addProposals recognised next (queue ++ [⟨content, ref⟩]) messages) := by
  rw [addProposals]
  cases hopen : M.unwrap state message with
  | none => exact .inl ⟨rfl, by simp⟩
  | some content =>
      dsimp only
      by_cases hvalid : validateProposalMessage (M.authenticatedContent content) (M.epoch state)
          recognised = false
      · rw [if_pos hvalid]
        refine .inl ⟨rfl, ?_⟩
        rintro content' next hsame hvalid'
        obtain rfl := Option.some.inj hsame
        rw [hvalid] at hvalid'
        cases hvalid'
      · rw [if_neg hvalid]
        rw [Bool.not_eq_false] at hvalid
        cases hhandled : M.handleProposal state content with
        | none =>
            refine .inl ⟨rfl, ?_⟩
            rintro content' next hsame -
            obtain rfl := Option.some.inj hsame
            simp [hhandled]
        | some next =>
            refine .inr ⟨content, next, ⟨rfl, hvalid, hhandled⟩, ?_⟩
            cases href : M.ref content with
            | none => exact .inl ⟨rfl, rfl⟩
            | some ref => exact .inr ⟨ref, rfl, rfl⟩

theorem length_le_addProposals (recognised : List UInt64) (state : M.State)
    (queue : List (QueuedProposal M)) (messages : List M.MlsMessage) :
    queue.length ≤ (addProposals recognised state queue messages).2.1.length := by
  induction messages generalizing state queue with
  | nil => exact Nat.le_refl _
  | cons message messages ih =>
      rcases addProposals_cons recognised state queue message messages with
        ⟨hresult, -⟩ | ⟨content, next, -, ⟨-, hresult⟩ | ⟨ref, -, hresult⟩⟩
      · rw [hresult]
      · rw [hresult]
      · have hlater := ih next (queue ++ [⟨content, ref⟩])
        rw [List.length_append] at hlater
        rw [hresult]
        exact Nat.le_of_add_right_le hlater

/-- The loop over new proposals changes nothing when it does not take the first one, and
then it fails. -/
theorem addProposals_unchanged (recognised : List UInt64) (state : M.State)
    (queue : List (QueuedProposal M)) (message : M.MlsMessage) (messages : List M.MlsMessage) :
    ((addProposals recognised state queue (message :: messages)).2.1 = queue ∧
        (addProposals recognised state queue (message :: messages)).1 = state ↔
      NotTaken recognised state message) ∧
    (NotTaken recognised state message →
      (addProposals recognised state queue (message :: messages)).2.2 = false) := by
  rcases addProposals_cons recognised state queue message messages with
    ⟨hresult, hrefused⟩ | ⟨content, next, ⟨hopen, hvalid, hhandled⟩, hqueued⟩
  · rw [hresult]
    refine ⟨iff_of_true ⟨rfl, rfl⟩ ?_, fun _ => rfl⟩
    intro content next hopen hvalid hhandled
    exact absurd hhandled (hrefused content next hopen hvalid)
  · have htaken : NotTaken recognised state message ↔ M.ref content = none ∧ next = state := by
      constructor
      · intro h
        exact h content next hopen hvalid hhandled
      · intro h content' next' hopen' _ hhandled'
        obtain rfl := Option.some.inj (hopen.symm.trans hopen')
        obtain rfl := Option.some.inj (hhandled.symm.trans hhandled')
        exact h
    rw [htaken]
    rcases hqueued with ⟨hnone, hresult⟩ | ⟨ref, hsome, hresult⟩
    · rw [hresult]
      exact ⟨⟨fun h => ⟨hnone, h.2⟩, fun h => ⟨rfl, h.2⟩⟩, fun _ => rfl⟩
    · have hgrown := length_le_addProposals recognised next (queue ++ [⟨content, ref⟩]) messages
      rw [List.length_append, List.length_singleton] at hgrown
      rw [hresult, hsome]
      constructor
      · constructor
        · intro h
          rw [h.1] at hgrown
          omega
        · intro h
          cases h.1
      · intro h
        cases h.1

/-! ## The commit -/

/-- A commit that fails changes what is pending when it is kept before its Welcome is
written. -/
theorem commitProposals_failed {s : Session M} {entropy : Entropy M} {state : M.State}
    (h : (s.commitProposals entropy state).2 = none) :
    (s.commitProposals entropy state).1.outboundCachedGroupState = s.outboundCachedGroupState ∧
      ((s.commitProposals entropy state).1.pendingGroupCommit = s.pendingGroupCommit ↔
        s.KeepsCommit entropy state) := by
  unfold commitProposals KeepsCommit at *
  cases hcommit : M.commit state entropy.commitSecret with
  | none => simp
  | some made =>
      obtain ⟨commit, welcome, next⟩ := made
      rw [hcommit] at h
      dsimp only at h ⊢
      cases hwritten : M.marshalMessage commit with
      | none => simp [hwritten]
      | some bytes =>
          rw [hwritten] at h
          dsimp only at h ⊢
          cases hwelcome : welcomeBytes welcome with
          | some tail =>
              rw [hwelcome] at h
              cases h
          | none =>
              refine ⟨rfl, ?_, ?_⟩
              · intro hsame commit' welcome' next' heq _
                obtain ⟨rfl, -⟩ := Prod.mk.inj (Option.some.inj heq)
                exact hsame.symm
              · intro hkept
                exact (hkept commit welcome next rfl (by rw [hwritten]; rfl)).symm

/-- The derived state was the base state, where there was none. -/
theorem or_baseState {s : Session M} {base : M.State} (hbase : s.baseState = some base) :
    s.stateWithProposals.or s.baseState = some (s.stateWithProposals.getD base) := by
  rw [hbase]
  cases s.stateWithProposals <;> rfl

/-- What a call leaves in the session by the end of its loop. -/
def looped (s : Session M) (queue : List (QueuedProposal M)) (state : M.State) : Session M :=
  { s with proposalQueue := queue, stateWithProposals := some state }

/-- A call whose loop went through leaves the session as it was when the loop changed
nothing and the commit that is kept was there before. -/
theorem unchanged_commit {s : Session M} {base state : M.State}
    {queue : List (QueuedProposal M)} {entropy : Entropy M} (hbase : s.baseState = some base)
    (hfailed : ((s.looped queue state).commitProposals entropy state).2 = none) :
    Unchanged s ((s.looped queue state).commitProposals entropy state).1 ↔
      (queue = s.proposalQueue ∧ state = s.stateWithProposals.getD base) ∧
        s.KeepsCommit entropy state := by
  obtain ⟨hcached, hcommit⟩ := commitProposals_failed hfailed
  obtain ⟨commit, cached, heq⟩ := (s.looped queue state).commitProposals_eq entropy state
  rw [heq] at hcached hcommit ⊢
  constructor
  · intro h
    have hderived := h.derived
    rw [or_baseState hbase] at hderived
    exact ⟨⟨h.queue, Option.some.inj hderived⟩, hcommit.mp h.commit⟩
  · rintro ⟨⟨hqueue, hstate⟩, hkept⟩
    constructor
    · exact hqueue
    · rw [or_baseState hbase, ← hstate]
      rfl
    · exact hcommit.mpr hkept
    · exact hcached

/-- A call that fails in its loop. -/
theorem unchanged_looped {s : Session M} {base state : M.State}
    {queue : List (QueuedProposal M)} (hbase : s.baseState = some base) :
    Unchanged s (s.looped queue state) ↔
      queue = s.proposalQueue ∧ state = s.stateWithProposals.getD base := by
  constructor
  · intro h
    have hderived := h.derived
    rw [or_baseState hbase] at hderived
    exact ⟨h.queue, Option.some.inj hderived⟩
  · rintro ⟨hqueue, hstate⟩
    constructor
    · exact hqueue
    · rw [or_baseState hbase, ← hstate]
      rfl
    · rfl
    · rfl

/-- A call comes to its end: the commit, or a failure in the loop. -/
def finish (s : Session M) (entropy : Entropy M) (queue : List (QueuedProposal M))
    (state : M.State) (passed : Bool) : Session M × Option Bytes :=
  if passed then (s.looped queue state).commitProposals entropy state
  else (s.looped queue state, none)

theorem processProposals_revoke {s : Session M} {base : M.State} {proposals : Bytes}
    {refs : List Bytes} (hbase : s.baseState = some base)
    (hmessage : M.getProposals proposals = some (.inl refs)) (entropy : Entropy M)
    (recognised : List UInt64) :
    s.processProposals entropy proposals recognised =
      s.finish entropy (revoke s.proposalQueue refs)
        (handleQueued base (revoke s.proposalQueue refs)).1
        (handleQueued base (revoke s.proposalQueue refs)).2 := by
  rw [processProposals, show s.pendingGroupState.or s.currentState = some base from hbase]
  dsimp only
  rw [hmessage]
  rfl

theorem processProposals_add {s : Session M} {base : M.State} {proposals : Bytes}
    {messages : List M.MlsMessage} (hbase : s.baseState = some base)
    (hmessage : M.getProposals proposals = some (.inr messages)) (entropy : Entropy M)
    (recognised : List UInt64) :
    s.processProposals entropy proposals recognised =
      let added :=
        addProposals recognised (s.stateWithProposals.getD base) s.proposalQueue messages
      s.finish entropy added.2.1 added.1 added.2.2 := by
  rw [processProposals, show s.pendingGroupState.or s.currentState = some base from hbase]
  dsimp only
  rw [hmessage]
  rfl

/-- A call that has read its message and fails leaves the session as it was when its
loop changed nothing, and the commit that it kept was there before. -/
theorem unchanged_finish {s : Session M} {base state : M.State} {passed : Bool}
    {queue : List (QueuedProposal M)} {entropy : Entropy M} (hbase : s.baseState = some base)
    (hfailed : (s.finish entropy queue state passed).2 = none) :
    Unchanged s (s.finish entropy queue state passed).1 ↔
      (queue = s.proposalQueue ∧ state = s.stateWithProposals.getD base) ∧
        (passed = true → s.KeepsCommit entropy state) := by
  cases passed with
  | true => exact (unchanged_commit hbase hfailed).trans (by simp)
  | false => exact (unchanged_looped hbase).trans (by simp)

/-- A revocation that fails. -/
theorem unchanged_revoke {s : Session M} {base : M.State} {entropy : Entropy M}
    {refs : List Bytes} (hbase : s.baseState = some base)
    (hfailed : (s.finish entropy (revoke s.proposalQueue refs)
      (handleQueued base (revoke s.proposalQueue refs)).1
      (handleQueued base (revoke s.proposalQueue refs)).2).2 = none) :
    Unchanged s (s.finish entropy (revoke s.proposalQueue refs)
        (handleQueued base (revoke s.proposalQueue refs)).1
        (handleQueued base (revoke s.proposalQueue refs)).2).1 ↔
      (∀ ref ∈ refs, ∀ queued ∈ s.proposalQueue, queued.ref ≠ ref) ∧
        (handleQueued base s.proposalQueue).1 = s.stateWithProposals.getD base ∧
        ((handleQueued base s.proposalQueue).2 = true →
          s.KeepsCommit entropy (s.stateWithProposals.getD base)) := by
  rw [unchanged_finish hbase hfailed, ← revoke_eq_self]
  constructor
  · rintro ⟨⟨hqueue, hstate⟩, hkept⟩
    rw [hstate] at hkept
    rw [hqueue] at hstate hkept
    exact ⟨hqueue, hstate, hkept⟩
  · rintro ⟨hqueue, hstate, hkept⟩
    rw [hqueue, hstate]
    exact ⟨⟨rfl, rfl⟩, hkept⟩

/-- Additions that fail. -/
theorem unchanged_add {s : Session M} {base : M.State} {entropy : Entropy M}
    {recognised : List UInt64} {message : M.MlsMessage} {messages : List M.MlsMessage}
    (hbase : s.baseState = some base) {loop : M.State × List (QueuedProposal M) × Bool}
    (hloop : addProposals recognised (s.stateWithProposals.getD base) s.proposalQueue
      (message :: messages) = loop)
    (hfailed : (s.finish entropy loop.2.1 loop.1 loop.2.2).2 = none) :
    Unchanged s (s.finish entropy loop.2.1 loop.1 loop.2.2).1 ↔
      NotTaken recognised (s.stateWithProposals.getD base) message := by
  obtain ⟨hiff, hstops⟩ := addProposals_unchanged recognised (s.stateWithProposals.getD base)
    s.proposalQueue message messages
  rw [hloop] at hiff hstops
  rw [unchanged_finish hbase hfailed, hiff]
  constructor
  · intro h
    exact h.1
  · intro h
    refine ⟨h, fun hpassed => ?_⟩
    rw [hstops h] at hpassed
    cases hpassed

/-- **What a failed call leaves behind.**  A call of `process_proposals` that returns
nothing leaves the session as it was exactly when it took nothing of the message. -/
theorem unchanged_iff (s : Session M) (entropy : Entropy M) (proposals : Bytes)
    (recognised : List UInt64)
    (hfailed : (s.processProposals entropy proposals recognised).2 = none) :
    Unchanged s (s.processProposals entropy proposals recognised).1 ↔
      s.TakesNothing entropy proposals recognised := by
  unfold TakesNothing
  cases hbase : s.baseState with
  | none =>
      rw [processProposals, show s.pendingGroupState.or s.currentState = none from hbase]
      exact iff_of_true ⟨rfl, rfl, rfl, rfl⟩ trivial
  | some base =>
      cases hmessage : M.getProposals proposals with
      | none =>
          rw [processProposals, show s.pendingGroupState.or s.currentState = some base from hbase]
          dsimp only
          rw [hmessage]
          exact iff_of_true ((unchanged_looped hbase).mpr ⟨rfl, rfl⟩) trivial
      | some message =>
          cases message with
          | inl refs =>
              rw [processProposals_revoke hbase hmessage] at hfailed ⊢
              exact unchanged_revoke hbase hfailed
          | inr messages =>
              rw [processProposals_add hbase hmessage] at hfailed ⊢
              cases messages with
              | nil => exact (unchanged_finish hbase hfailed).trans (by simp [addProposals])
              | cons message messages => exact unchanged_add hbase rfl hfailed

/-- A session that got as far as an external sender. -/
def invited : Session rollMls :=
  (({ } : Session rollMls).apply (.init { signatureKey := [1], hpkeKey := [2] } 1 7 1 none)).apply
    (.setExternalSender [9])

/-- An addition of a user that nobody recognises is refused and changes nothing. -/
theorem unchanged_unrecognised :
    (invited.processProposals {} [0, 6, 5] [5]).2 = none ∧
      Unchanged invited (invited.processProposals {} [0, 6, 5] [5]).1 := by
  have hfailed : (invited.processProposals {} [0, 6, 5] [5]).2 = none := by decide +kernel
  refine ⟨hfailed, (unchanged_iff invited {} [0, 6, 5] [5] hfailed).mpr ?_⟩
  intro content next hopen hvalid
  obtain rfl : byteCredential 6 = content := Option.some.inj hopen
  exact absurd hvalid (by decide +kernel)

/-- With the two proposals the other way round, the first one stays queued. -/
theorem failed_second :
    ¬ ∀ (s : Session rollMls) (entropy : Entropy rollMls) (proposals : Bytes)
        (recognised : List UInt64),
        (s.processProposals entropy proposals recognised).2 = none →
          Unchanged s (s.processProposals entropy proposals recognised).1 := by
  intro h
  have hqueue := congrArg List.length (h invited {} [0, 5, 6] [5] (by decide +kernel)).queue
  exact absurd hqueue (by decide +kernel)

end Ekizu.Dave.Session
