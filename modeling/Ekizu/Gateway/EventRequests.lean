import Ekizu.Gateway.Requests

/-!
# Every request for an event completes

A message ends the request that read it, or has it wait for a send or a close.
The one way out is an exception: `event_from_str` converts the `d` of a Dispatch
without a handler around it, and a `d` of another shape takes the request and its
handler along.

## Main results

* `single_of_reachable` — no handler is completed twice.
* `completes_iff` — which messages complete their request, once in every
  continuation.
* `escapes_nonce` — a message that takes its request along.
-/

namespace Ekizu.Gateway

open Lib Lib.Runs

/-- A request that waits for a send or a close, or that was completed once. -/
def Op.Settled (op : Op) : Prop :=
  ((op.phase = .sending ∨ op.phase = .closing) ∧ op.results = []) ∨
    (op.phase = .over ∧ op.results.length = 1)

/-- A request in progress has no result, and one that is over has at most one. -/
def Op.Single (op : Op) : Prop :=
  (op.phase ≠ .over → op.results = []) ∧ op.results.length ≤ 1

namespace Shard

variable {W : Setting} {s s' : Shard W} {i : Nat}

/-- No exception left the handler, and in every continuation the request is settled. -/
def Completes (s s' : Shard W) (i : Nat) : Prop :=
  s'.escaped = s.escaped ∧
    ∀ events later, (machine W).exec s' events = some later →
      ∃ op, later.ops[i]? = some op ∧ op.Settled

/-- A Dispatch whose `d` does not have the shape that its type expects. -/
def Misshapen (W : Setting) (json : Json) : Prop :=
  opcodeOf W.undefined json = some .dispatch ∧ accepts json = true ∧
    ∃ shape, Decoder.events.lookup (json.get "t").text = some shape ∧
      reads W.undefined (json.get "d") shape = false

/-! ## Results -/

/-- The request of an event in progress was not over. -/
theorem opened_phase {e : Event} {o : Outcome} (hdue : s.Due e)
    (houtcome : s.outcome e = some (i, o)) :
    ∃ op, (s.opened e)[i]? = some op ∧ op.phase ≠ .over ∧
      (s.ops[i]? = some op ∨ op = Op.mk .started []) := by
  have hlisted : ∀ {phase : Phase}, s.phase i = phase → phase ≠ .over →
      ∃ op, s.ops[i]? = some op ∧ op.phase = phase := by
    intro phase hphase hover
    unfold Shard.phase at hphase
    cases hop : s.ops[i]? with
    | none =>
        rw [hop] at hphase
        exact absurd hphase.symm hover
    | some op =>
        rw [hop] at hphase
        exact ⟨op, rfl, hphase⟩
  cases e with
  | nextEvent isOpen =>
      obtain ⟨rfl, -⟩ := Prod.mk.inj (Option.some.inj houtcome)
      exact ⟨Op.mk .started [], by simp [opened], by simp, .inr rfl⟩
  | backoffExpired j e =>
      obtain ⟨rfl, -⟩ := Prod.mk.inj (Option.some.inj houtcome)
      obtain ⟨delay, hphase⟩ := hdue
      obtain ⟨op, hop, hwaits⟩ := hlisted hphase (by simp)
      exact ⟨op, hop, by simp [hwaits], .inl hop⟩
  | connectFailed j e =>
      obtain ⟨rfl, -⟩ := Prod.mk.inj (Option.some.inj houtcome)
      obtain ⟨url, hphase⟩ := hdue
      obtain ⟨op, hop, hwaits⟩ := hlisted hphase (by simp)
      exact ⟨op, hop, by simp [hwaits], .inl hop⟩
  | connected j created =>
      obtain ⟨rfl, -⟩ := Prod.mk.inj (Option.some.inj houtcome)
      obtain ⟨url, hphase⟩ := hdue
      obtain ⟨op, hop, hwaits⟩ := hlisted hphase (by simp)
      exact ⟨op, hop, by simp [hwaits], .inl hop⟩
  | message | readFailed | sendCompleted | closeCompleted =>
      obtain ⟨rfl, -⟩ := Prod.mk.inj (Option.some.inj houtcome)
      obtain ⟨op, hop, hwaits⟩ := hlisted hdue (by simp)
      exact ⟨op, hop, by simp [hwaits], .inl hop⟩
  | timerExpired | heartbeatExpired | heartbeatSent | close => simp [outcome] at houtcome

theorem single_apply {op : Op} (h : op.Single) (hphase : op.phase ≠ .over) (o : Outcome) :
    (o.apply op).Single := by
  have hresults := h.1 hphase
  cases o with
  | result r => simp [Op.Single, Outcome.apply, hresults]
  | waits phase => simp [Op.Single, Outcome.apply, hresults]
  | lost => simp [Op.Single, Outcome.apply, hresults]

/-- **No handler is completed twice.** -/
theorem single_of_reachable (h : (machine W).Reachable s) : ∀ op ∈ s.ops, op.Single := by
  refine h.invariant (P := fun s => ∀ op ∈ s.ops, op.Single) ?_ ?_
  · intro op hop
    simp [machine] at hop
  · intro s e s' hs hstep op hop
    obtain ⟨j, hj⟩ := List.mem_iff_getElem?.mp hop
    by_cases hself : ∃ o, s.outcome e = some (j, o)
    · obtain ⟨o, houtcome⟩ := hself
      obtain ⟨before, hbefore, hphase, hlisted⟩ := opened_phase (step_cases hstep).1 houtcome
      have hsingle : before.Single := by
        rcases hlisted with hlisted | rfl
        · exact hs before (List.mem_of_getElem? hlisted)
        · simp [Op.Single]
      rw [step_self hstep houtcome, hbefore] at hj
      obtain rfl := Option.some.inj hj
      exact single_apply hsingle hphase o
    · rw [step_other hstep fun o houtcome => hself ⟨o, houtcome⟩] at hj
      exact hs op (List.mem_of_getElem? hj)

/-! ## Continuations -/

theorem phase_of_getElem? {op : Op} (hop : s.ops[i]? = some op) : s.phase i = op.phase := by
  unfold phase
  rw [hop]
  rfl

/-- Only the completion of its send or close goes on with a settled request. -/
theorem settled_outcome {e : Event} {o : Outcome} {op : Op} (hop : s.ops[i]? = some op)
    (hsettled : op.Settled) (hdue : s.Due e) (houtcome : s.outcome e = some (i, o)) :
    op.results = [] ∧ ∃ r, o = .result r := by
  have hphase := phase_of_getElem? hop
  have hwaits : s.phase i ≠ .over → (s.phase i = .sending ∨ s.phase i = .closing) ∧
      op.results = [] := by
    intro hover
    rcases hsettled with hwaits | ⟨hdone, -⟩
    · rw [hphase]
      exact hwaits
    · exact absurd (hphase.trans hdone) hover
  cases e with
  | nextEvent isOpen =>
      obtain ⟨rfl, -⟩ := Prod.mk.inj (Option.some.inj houtcome)
      simp at hop
  | backoffExpired j e =>
      obtain ⟨rfl, -⟩ := Prod.mk.inj (Option.some.inj houtcome)
      obtain ⟨delay, hdue⟩ := hdue
      rw [hdue] at hwaits
      simp at hwaits
  | connectFailed j e =>
      obtain ⟨rfl, -⟩ := Prod.mk.inj (Option.some.inj houtcome)
      obtain ⟨url, hdue⟩ := hdue
      rw [hdue] at hwaits
      simp at hwaits
  | connected j created =>
      obtain ⟨rfl, -⟩ := Prod.mk.inj (Option.some.inj houtcome)
      obtain ⟨url, hdue⟩ := hdue
      rw [hdue] at hwaits
      simp at hwaits
  | message | readFailed =>
      obtain ⟨rfl, -⟩ := Prod.mk.inj (Option.some.inj houtcome)
      have hdue : s.phase _ = .reading := hdue
      rw [hdue] at hwaits
      simp at hwaits
  | sendCompleted j e =>
      obtain ⟨rfl, rfl⟩ := Prod.mk.inj (Option.some.inj houtcome)
      have hdue : s.phase _ = .sending := hdue
      exact ⟨(hwaits (by simp [hdue])).2, _, rfl⟩
  | closeCompleted j e =>
      obtain ⟨rfl, rfl⟩ := Prod.mk.inj (Option.some.inj houtcome)
      have hdue : s.phase _ = .closing := hdue
      exact ⟨(hwaits (by simp [hdue])).2, _, rfl⟩
  | timerExpired | heartbeatExpired | heartbeatSent | close => simp [outcome] at houtcome

/-- A settled request stays settled. -/
theorem settled_step {e : Event} (hstep : s.step e = some s')
    (h : ∃ op, s.ops[i]? = some op ∧ op.Settled) : ∃ op, s'.ops[i]? = some op ∧ op.Settled := by
  obtain ⟨op, hop, hsettled⟩ := h
  by_cases hself : ∃ o, s.outcome e = some (i, o)
  · obtain ⟨o, houtcome⟩ := hself
    obtain ⟨hresults, r, rfl⟩ := settled_outcome hop hsettled (step_cases hstep).1 houtcome
    have hopened : (s.opened e)[i]? = some op := by
      cases e with
      | nextEvent isOpen =>
          obtain ⟨rfl, -⟩ := Prod.mk.inj (Option.some.inj houtcome)
          simp at hop
      | _ => exact hop
    refine ⟨_, by rw [step_self hstep houtcome, hopened]; rfl, .inr ⟨rfl, ?_⟩⟩
    simp [Outcome.apply, hresults]
  · refine ⟨op, ?_, hsettled⟩
    rw [step_other hstep fun o houtcome => hself ⟨o, houtcome⟩]
    exact hop

/-- The same in every continuation. -/
theorem settled_exec {events : List Event} {later : Shard W}
    (h : ∃ op, s.ops[i]? = some op ∧ op.Settled) (hexec : (machine W).exec s events = some later) :
    ∃ op, later.ops[i]? = some op ∧ op.Settled :=
  Machine.exec_invariant (m := machine W)
    (fun s => ∃ op, s.ops[i]? = some op ∧ op.Settled) (fun _ => True)
    (fun hs _ hstep => settled_step hstep hs) (fun _ _ => trivial) h hexec

/-! ## Messages -/

theorem sendOutcome_ne_lost : s.sendOutcome ≠ .lost := by
  unfold sendOutcome
  split
  · simp
  · simp

theorem closeOutcome_ne_lost : s.closeOutcome ≠ .lost := by
  unfold closeOutcome
  split
  · simp
  · simp

/-- A payload takes its request along exactly where it is misshapen. -/
theorem jsonOutcome_lost (json : Json) : s.jsonOutcome json = .lost ↔ Misshapen W json := by
  unfold jsonOutcome Misshapen
  cases opcodeOf W.undefined json with
  | none => simp
  | some opcode =>
      cases opcode with
      | dispatch =>
          simp only [true_and]
          unfold dispatchOutcome eventFromStr
          by_cases haccepts : accepts json = true
          · rw [if_pos haccepts]
            simp only [haccepts, true_and]
            cases Decoder.events.lookup (json.get "t").text with
            | none => simp
            | some shape =>
                cases hreads : Gateway.reads W.undefined (json.get "d") shape with
                | true => simp [hreads]
                | false => simp [hreads]
          · rw [if_neg haccepts]
            simp [haccepts]
      | heartbeat => simp [sendOutcome_ne_lost]
      | reconnect => simp [closeOutcome_ne_lost]
      | invalidSession =>
          cases (json.get "d").isBoolean with
          | true => simp [closeOutcome_ne_lost]
          | false => simp
      | hello =>
          by_cases hinterval : (intervalOf W.undefined json).isNone = true
          · simp [helloOutcome, hinterval]
          · simp [helloOutcome, hinterval, sendOutcome_ne_lost]
      | heartbeatAck => simp
      | other => simp

theorem messageOutcome_lost (payload : List UInt8) (isBinary : Bool) :
    s.messageOutcome payload isBinary = .lost ↔
      ∃ json, s.received (.message i payload isBinary) = some json ∧ Misshapen W json := by
  have hpayload : ∀ data, s.payloadOutcome data = .lost ↔
      ∃ json, W.parse data = some json ∧ Misshapen W json := by
    intro data
    unfold payloadOutcome
    cases W.parse data with
    | none => simp
    | some json => simp [jsonOutcome_lost]
  unfold messageOutcome received
  cases s.inflater with
  | none => exact hpayload payload
  | some inflater =>
      cases isBinary with
      | false => exact hpayload payload
      | true =>
          dsimp only
          cases (inflater.inflate payload).2 with
          | none => simp
          | some data => exact hpayload data

/-- **Every request for an event completes** where its message is not a misshapen
Dispatch, and only there: the handler is completed once in every continuation, and no
exception leaves it. -/
theorem completes_iff {payload : List UInt8} {isBinary : Bool} (hreach : (machine W).Reachable s)
    (hstep : s.step (.message i payload isBinary) = some s') :
    Completes s s' i ↔
      ¬ ∃ json, s.received (.message i payload isBinary) = some json ∧ Misshapen W json := by
  have houtcome : s.outcome (.message i payload isBinary) =
      some (i, s.messageOutcome payload isBinary) := rfl
  have hescaped : s'.escaped = s.escaped + (s.messageOutcome payload isBinary).exceptions :=
    (step_requests hstep).2
  rw [← messageOutcome_lost payload isBinary]
  constructor
  · rintro ⟨hkept, -⟩ hlost
    rw [hkept, hlost] at hescaped
    simp [Outcome.exceptions] at hescaped
  · intro hlost
    obtain ⟨op, hop, hphase, hlisted⟩ := opened_phase (step_cases hstep).1 houtcome
    have hresults : op.results = [] :=
      (single_of_reachable hreach op (List.mem_of_getElem? hop)).1 hphase
    have hself := step_self hstep houtcome
    rw [hop] at hself
    refine ⟨?_, ?_⟩
    · rw [hescaped]
      cases hmessage : s.messageOutcome payload isBinary with
      | lost => exact absurd hmessage hlost
      | result r => rfl
      | waits phase => rfl
    · intro events later hexec
      refine settled_exec ⟨_, hself, ?_⟩ hexec
      have hsettles := settles_messageOutcome (s := s) payload isBinary
      cases hmessage : s.messageOutcome payload isBinary with
      | lost => exact absurd hmessage hlost
      | result r => exact .inr ⟨rfl, by simp [Outcome.apply, hresults]⟩
      | waits phase =>
          rw [hmessage] at hsettles
          exact .inl ⟨hsettles, hresults⟩

/-- A message whose nonce is a number: `{"op":0,"t":"MESSAGE_CREATE","s":6,"d":{"nonce":7}}`. -/
def nonceText : List UInt8 :=
  [123, 34, 111, 112, 34, 58, 48, 44, 34, 116, 34, 58, 34, 77, 69, 83, 83, 65, 71, 69, 95, 67, 82,
    69, 65, 84, 69, 34, 44, 34, 115, 34, 58, 54, 44, 34, 100, 34, 58, 123, 34, 110, 111, 110, 99,
    101, 34, 58, 55, 125, 125]

/-- The message, as the parser knows it. -/
def noncePayloads : List (List UInt8 × Json) :=
  [(nonceText, .object
      [("d", .object [("nonce", .unsigned 7)]), ("op", .unsigned 0), ("s", .unsigned 6),
        ("t", .string "MESSAGE_CREATE")])]

abbrev nonceMachine : Machine (Shard (referenceSetting noncePayloads)) Event :=
  referenceMachine noncePayloads

/-- The run before a message is read. -/
def beforeMessage : List Event :=
  connects 0 ++ [.message 0 helloText false, .sendCompleted 0 none, .nextEvent true]

/-- A TYPING_START. -/
theorem completes_iff_typing :
    ∃ s', (nonceMachine.recorded beforeMessage).2.step (.message 1 typingText false) = some s' ∧
      (Completes (nonceMachine.recorded beforeMessage).2 s' 1 ↔
        ¬ ∃ json, (nonceMachine.recorded beforeMessage).2.received
            (.message 1 typingText false) = some json ∧
              Misshapen (referenceSetting noncePayloads) json) := by
  have hrun := nonceMachine.run_recorded beforeMessage (by decide +kernel)
  have hdue : ((nonceMachine.recorded beforeMessage).2.step
      (.message 1 typingText false)).isSome = true := by decide +kernel
  obtain ⟨s', hstep⟩ := Option.isSome_iff_exists.mp hdue
  exact ⟨s', hstep, completes_iff ⟨_, hrun⟩ hstep⟩

/-- A message whose nonce is a number takes its request along: an exception leaves the
handler, and the request is over without a result. -/
theorem escapes_nonce :
    ∃ s s', nonceMachine.Reachable s ∧ s.step (.message 1 nonceText false) = some s' ∧
      s'.escaped = s.escaped + 1 ∧ s'.ops[1]? = some ⟨.over, []⟩ ∧ ¬ Completes s s' 1 := by
  have hrun := nonceMachine.run_recorded beforeMessage (by decide +kernel)
  have hdue : ((nonceMachine.recorded beforeMessage).2.step
      (.message 1 nonceText false)).isSome = true := by decide +kernel
  have hescaped : ((nonceMachine.recorded beforeMessage).2.step
      (.message 1 nonceText false)).map (fun s' => (s'.escaped, s'.ops[1]?)) =
        some ((nonceMachine.recorded beforeMessage).2.escaped + 1, some ⟨.over, []⟩) := by
    decide +kernel
  obtain ⟨s', hstep⟩ := Option.isSome_iff_exists.mp hdue
  rw [hstep] at hescaped
  obtain ⟨hone, hop⟩ := Prod.mk.inj (Option.some.inj hescaped)
  refine ⟨_, s', ⟨_, hrun⟩, hstep, hone, hop, ?_⟩
  intro hcompletes
  rw [hcompletes.1] at hone
  omega

end Shard

end Ekizu.Gateway
