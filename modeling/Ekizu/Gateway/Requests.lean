import Ekizu.Gateway.Steps

/-!
# What a step does to the requests

Every handler but those of the heartbeat continues one request for an event.  Its
`outcome` is the result the request is completed with, what it waits for next, or
that an exception took it along.

## Main results

* `step_requests` — the requests after a step.
* `step_self`, `step_other` — the request a step is about, and the others.
* `step_phase` — the phase of a request after a step.
-/

namespace Ekizu.Gateway

open Lib Lib.Runs

/-- What becomes of a request. -/
inductive Outcome where
  | result (r : EventResult)
  | waits (phase : Phase)
  | lost
  deriving DecidableEq

namespace Outcome

def apply : Outcome → Op → Op
  | result r, op => ⟨.over, op.results ++ [r]⟩
  | waits phase, op => { op with phase }
  | lost, op => { op with phase := .over }

/-- The phase that the request is in then. -/
def phase : Outcome → Phase
  | result _ | lost => .over
  | waits phase => phase

/-- The exceptions that leave the handler. -/
def exceptions : Outcome → Nat
  | lost => 1
  | _ => 0

theorem apply_phase (o : Outcome) (op : Op) : (o.apply op).phase = o.phase := by
  cases o <;> rfl

end Outcome

namespace Shard

variable {W : Setting}

/-! ## Outcomes -/

def sendOutcome (s : Shard W) : Outcome :=
  if s.ws.isNone then .result (.error .notConnected) else .waits .sending

def closeOutcome (s : Shard W) : Outcome :=
  if s.ws.isNone then .result (.error .notConnected) else .waits .closing

def connectOutcome (s : Shard W) (isOpen : Bool) : Outcome :=
  if s.ws.isNone ∨ isOpen = false then
    if s.intentionalClose then .result (.error .notConnected)
    else .waits (.backingOff (backoff s.reconnectAttempts))
  else .waits .reading

def backoffOutcome (s : Shard W) : Option Error → Outcome
  | some e => .result (.error e)
  | none =>
      if s.intentionalClose then .result (.error .operationCanceled)
      else
        .waits (.connecting
          (match s.resumeGatewayUrl with
          | some url => url ++ "/" ++ gatewayJsonZlibQuery
          | none => gatewayUrl))

def dispatchOutcome (W : Setting) (json : Json) : Outcome :=
  if accepts json then
    match eventFromStr W.undefined (json.get "t").text (json.get "d") with
    | some r => .result r
    | none => .lost
  else .result (.error .invalidArgument)

def helloOutcome (s : Shard W) (json : Json) : Outcome :=
  if (intervalOf W.undefined json).isNone then .result (.error .invalidArgument)
  else s.sendOutcome

def jsonOutcome (s : Shard W) (json : Json) : Outcome :=
  match opcodeOf W.undefined json with
  | none => .result (.error .invalidArgument)
  | some .dispatch => dispatchOutcome W json
  | some .heartbeat => s.sendOutcome
  | some .reconnect => s.closeOutcome
  | some .invalidSession =>
      if (json.get "d").isBoolean then s.closeOutcome else .result (.error .invalidArgument)
  | some .hello => s.helloOutcome json
  | some .heartbeatAck | some .other => .result .empty

def payloadOutcome (s : Shard W) (data : List UInt8) : Outcome :=
  match W.parse data with
  | none => .result (.error .invalidArgument)
  | some json => s.jsonOutcome json

def messageOutcome (s : Shard W) (payload : List UInt8) (isBinary : Bool) : Outcome :=
  match s.inflater, isBinary with
  | some inflater, true =>
      match (inflater.inflate payload).2 with
      | none => .result (.error .notSupported)
      | some data => s.payloadOutcome data
  | _, _ => s.payloadOutcome payload

/-- The request that an event is about, and what becomes of it. -/
def outcome (s : Shard W) : Event → Option (Nat × Outcome)
  | .nextEvent isOpen => some (s.ops.length, s.connectOutcome isOpen)
  | .backoffExpired i e => some (i, s.backoffOutcome e)
  | .connectFailed i e => some (i, .result (.error e))
  | .connected i created =>
      some (i, if W.compression && !created then .result (.error .notSupported)
        else .waits .reading)
  | .message i payload isBinary => some (i, s.messageOutcome payload isBinary)
  | .readFailed i e isOpen =>
      some (i, if s.intentionalClose || !e.isTransientReadError then .result (.error e)
        else s.connectOutcome isOpen)
  | .sendCompleted i e | .closeCompleted i e => some (i, .result (completion e))
  | .timerExpired | .heartbeatExpired | .heartbeatSent | .close _ => none

/-- The requests that there are when an event is handled. -/
def opened (s : Shard W) : Event → List Op
  | .nextEvent _ => s.ops ++ [Op.mk .started []]
  | _ => s.ops

/-- Request `i` of `s` has that outcome in `s'`. -/
def Ends (s s' : Shard W) (i : Nat) (o : Outcome) : Prop :=
  s'.ops = s.ops.modify i o.apply ∧ s'.escaped = s.escaped + o.exceptions

variable {s s' : Shard W} {i : Nat}

theorem ends_complete (r : EventResult) : s.Ends (s.complete i r) i (.result r) := ⟨rfl, rfl⟩

theorem ends_advance (phase : Phase) : s.Ends (s.advance i phase) i (.waits phase) := ⟨rfl, rfl⟩

theorem ends_ensureConnectedThenRead (isOpen : Bool) :
    s.Ends (s.ensureConnectedThenRead i isOpen) i (s.connectOutcome isOpen) := by
  unfold ensureConnectedThenRead connectOutcome
  by_cases hopen : s.ws.isNone = true ∨ isOpen = false
  · rw [if_pos hopen, if_pos hopen]
    unfold reconnectAsync
    split
    · exact ends_complete _
    · exact ends_advance _
  · rw [if_neg hopen, if_neg hopen]
    unfold readOne
    rw [if_neg fun hws => hopen (.inl hws)]
    exact ends_advance _

/-- The outcome depends on the requests and the exceptions only. -/
theorem Ends.of_eq {t : Shard W} {o : Outcome} (h : t.Ends s' i o) (hops : t.ops = s.ops)
    (hescaped : t.escaped = s.escaped) : s.Ends s' i o := by
  unfold Ends at h ⊢
  rwa [hops, hescaped] at h

/-! ## Payloads -/

theorem ends_answer_send (command : Command) :
    s.Ends (s.answer i (s.send command)) i s.sendOutcome := by
  unfold send sendOutcome
  cases s.ws with
  | none => exact ends_complete _
  | some socket => exact ends_advance _

theorem ends_answer_sendResumeAsync (hsession : s.session.isSome = true) :
    s.Ends (s.answer i s.sendResumeAsync) i s.sendOutcome := by
  unfold sendResumeAsync
  split
  · next hws =>
      unfold sendOutcome
      rw [hws]
      exact ends_complete _
  · next hnone =>
      rw [hnone] at hsession
      simp at hsession
  · exact ends_answer_send _

theorem ends_closeFor (reason : CloseFrame) : s.Ends (s.closeFor i reason) i s.closeOutcome := by
  have hops : (s.closeImpl reason).1.ops = s.ops := by rw [closeImpl_fst]
  have hescaped : (s.closeImpl reason).1.escaped = s.escaped := by rw [closeImpl_fst]
  have hsnd := closeImpl_snd (s := s) reason
  unfold closeFor closeOutcome
  split
  · next hclose =>
      rw [hclose] at hops hescaped hsnd
      rw [if_neg (by intro hws; simp [hws] at hsnd)]
      exact (ends_advance _).of_eq hops hescaped
  · next hclose =>
      rw [hclose] at hops hescaped hsnd
      by_cases hws : s.ws.isNone = true
      · rw [if_pos hws] at hsnd ⊢
        obtain rfl := Option.some.inj hsnd
        exact (ends_complete _).of_eq hops hescaped
      · rw [if_neg hws] at hsnd
        simp at hsnd

theorem ends_finishDispatch (sequence : Option UInt64) (eventType : String) (event : Json) :
    s.Ends (s.finishDispatch i sequence eventType event) i
      (match eventFromStr W.undefined eventType event with
      | some r => .result r
      | none => .lost) := by
  unfold finishDispatch
  dsimp only
  cases eventFromStr W.undefined eventType event with
  | some r =>
      cases s.session <;> cases sequence <;> exact ⟨rfl, rfl⟩
  | none =>
      cases s.session <;> cases sequence <;> exact ⟨rfl, rfl⟩

theorem ends_handleDispatch (json : Json) :
    s.Ends (s.handleDispatch i json) i (dispatchOutcome W json) := by
  unfold handleDispatch dispatchOutcome accepts
  by_cases hdispatch : isDispatch json = true
  · rw [if_pos hdispatch, hdispatch, Bool.true_and]
    dsimp only
    by_cases hready : (json.get "t").text = "READY"
    · rw [if_pos hready]
      cases haccepted : isReady (json.get "d") with
      | true =>
          rw [if_pos rfl, if_pos (by simp)]
          exact (ends_finishDispatch _ _ _).of_eq rfl rfl
      | false =>
          rw [if_neg (by simp), if_neg (by simp [hready])]
          exact ends_complete _
    · rw [if_neg hready, if_pos (by simp [hready])]
      exact ends_finishDispatch _ _ _
  · rw [if_neg hdispatch, if_neg (by simp [hdispatch])]
    exact ends_complete _

theorem ends_handleHello (json : Json) :
    s.Ends (s.handleHello i json) i (s.helloOutcome json) := by
  unfold handleHello helloOutcome
  dsimp only
  cases hinterval : intervalOf W.undefined json with
  | none => exact (ends_complete _).of_eq rfl rfl
  | some interval =>
      obtain ⟨heartbeatInterval, timer, running, waiting, hstart⟩ :=
        startHeartbeat_frame (s := { s with lastHeartbeatAcked := true }) interval
      rw [if_neg (by simp)]
      dsimp only
      rw [hstart]
      split
      · next hsession => exact (ends_answer_sendResumeAsync hsession).of_eq rfl rfl
      · exact (ends_answer_send _).of_eq rfl rfl

theorem ends_handleJson (json : Json) : s.Ends (s.handleJson i json) i (s.jsonOutcome json) := by
  unfold handleJson jsonOutcome
  cases opcodeOf W.undefined json with
  | none => exact ends_complete _
  | some opcode =>
      cases opcode with
      | dispatch => exact ends_handleDispatch json
      | heartbeat => exact ends_answer_send _
      | reconnect => exact ends_closeFor _
      | invalidSession =>
          cases json.get "d" with
          | boolean resumable => exact ends_closeFor _
          | null | unsigned | integer | float | string | array | object => exact ends_complete _
      | hello => exact ends_handleHello json
      | heartbeatAck => exact (ends_complete _).of_eq rfl rfl
      | other => exact ends_complete _

theorem ends_handleGatewayPayload (data : List UInt8) :
    s.Ends (s.handleGatewayPayload i data) i (s.payloadOutcome data) := by
  unfold handleGatewayPayload payloadOutcome
  cases W.parse data with
  | none => exact ends_complete _
  | some json => exact ends_handleJson json

theorem ends_onMessage (payload : List UInt8) (isBinary : Bool) :
    s.Ends (s.onMessage i payload isBinary) i (s.messageOutcome payload isBinary) := by
  unfold onMessage messageOutcome
  cases s.inflater with
  | none => exact ends_handleGatewayPayload payload
  | some inflater =>
      cases isBinary with
      | false => exact ends_handleGatewayPayload payload
      | true =>
          dsimp only
          cases inflater.inflate payload with
          | mk inflater' result =>
              cases result with
              | none => exact (ends_complete _).of_eq rfl rfl
              | some data =>
                  have hends := ends_handleGatewayPayload
                    (s := { s with inflater := some inflater' }) (i := i) data
                  exact hends.of_eq rfl rfl

/-- A payload ends its request or has it wait for a send or a close. -/
def Settles : Outcome → Prop
  | .waits phase => phase = .sending ∨ phase = .closing
  | .result _ | .lost => True

theorem Settles.phase {o : Outcome} (h : Settles o) :
    o.phase = .over ∨ o.phase = .sending ∨ o.phase = .closing := by
  cases o with
  | result r => exact .inl rfl
  | waits phase => exact .inr h
  | lost => exact .inl rfl

theorem settles_sendOutcome : Settles s.sendOutcome := by
  unfold sendOutcome
  split
  · trivial
  · exact .inl rfl

theorem settles_closeOutcome : Settles s.closeOutcome := by
  unfold closeOutcome
  split
  · trivial
  · exact .inr rfl

theorem settles_payloadOutcome (data : List UInt8) : Settles (s.payloadOutcome data) := by
  unfold payloadOutcome jsonOutcome
  split
  · trivial
  · split
    · trivial
    · unfold dispatchOutcome
      split
      · split
        · trivial
        · trivial
      · trivial
    · exact settles_sendOutcome
    · exact settles_closeOutcome
    · split
      · exact settles_closeOutcome
      · trivial
    · unfold helloOutcome
      split
      · trivial
      · exact settles_sendOutcome
    · trivial
    · trivial

theorem settles_messageOutcome (payload : List UInt8) (isBinary : Bool) :
    Settles (s.messageOutcome payload isBinary) := by
  unfold messageOutcome
  split
  · split
    · trivial
    · exact settles_payloadOutcome _
  · exact settles_payloadOutcome _

/-- A request that backs off or reads does what `connectOutcome` says, unless its connect
has succeeded. -/
theorem outcome_connects {e : Event} {o : Outcome} (houtcome : s.outcome e = some (i, o))
    (hphase : (∃ delay, o.phase = .backingOff delay) ∨ o.phase = .reading) :
    (∃ isOpen, o = s.connectOutcome isOpen) ∨
      o.phase = .reading ∧ ∃ created, e = .connected i created := by
  cases e with
  | nextEvent isOpen =>
      obtain ⟨-, rfl⟩ := Prod.mk.inj (Option.some.inj houtcome)
      exact .inl ⟨isOpen, rfl⟩
  | backoffExpired j e =>
      obtain ⟨-, rfl⟩ := Prod.mk.inj (Option.some.inj houtcome)
      unfold backoffOutcome at hphase
      split at hphase
      · simp [Outcome.phase] at hphase
      · split at hphase
        · simp [Outcome.phase] at hphase
        · simp [Outcome.phase] at hphase
  | connected j created =>
      obtain ⟨rfl, rfl⟩ := Prod.mk.inj (Option.some.inj houtcome)
      refine .inr ⟨?_, created, rfl⟩
      split at hphase
      · simp [Outcome.phase] at hphase
      · next hcreated =>
          rw [if_neg hcreated]
          rfl
  | message j payload isBinary =>
      obtain ⟨-, rfl⟩ := Prod.mk.inj (Option.some.inj houtcome)
      have hsettles := (settles_messageOutcome (s := s) payload isBinary).phase
      rcases hphase with ⟨delay, hphase⟩ | hphase
      · rw [hphase] at hsettles
        simp at hsettles
      · rw [hphase] at hsettles
        simp at hsettles
  | readFailed j e isOpen =>
      obtain ⟨-, rfl⟩ := Prod.mk.inj (Option.some.inj houtcome)
      split at hphase
      · simp [Outcome.phase] at hphase
      · next hintentional =>
          rw [if_neg hintentional]
          exact .inl ⟨isOpen, rfl⟩
  | connectFailed | sendCompleted | closeCompleted =>
      obtain ⟨-, rfl⟩ := Prod.mk.inj (Option.some.inj houtcome)
      simp [Outcome.phase] at hphase
  | timerExpired | heartbeatExpired | heartbeatSent | close => simp [outcome] at houtcome

/-! ## Steps -/

/-- **The requests after a step.** -/
theorem step_requests {e : Event} (hstep : s.step e = some s') :
    match s.outcome e with
    | none => s'.ops = s.ops ∧ s'.escaped = s.escaped
    | some (i, o) =>
        s'.ops = (s.opened e).modify i o.apply ∧ s'.escaped = s.escaped + o.exceptions := by
  obtain ⟨-, rfl⟩ := step_cases hstep
  cases e with
  | nextEvent isOpen =>
      exact ends_ensureConnectedThenRead
        (s := { s with ops := s.ops ++ [Op.mk .started []] }) isOpen
  | backoffExpired i e =>
      unfold outcome ran backoffExpired backoffOutcome
      cases e with
      | some e => exact ends_complete _
      | none =>
          dsimp only
          split
          · exact ends_complete _
          · exact ends_advance _
  | connectFailed i e => exact (ends_complete _).of_eq rfl rfl
  | connected i created =>
      unfold outcome ran connected readOne
      cases W.compression with
      | false => exact ⟨rfl, rfl⟩
      | true =>
          cases created with
          | false => exact ⟨rfl, rfl⟩
          | true => exact ⟨rfl, rfl⟩
  | message i payload isBinary => exact ends_onMessage payload isBinary
  | readFailed i e isOpen =>
      unfold outcome ran onReadError
      dsimp only
      by_cases hintentional : s.intentionalClose = true
      · rw [if_pos hintentional, if_pos (by simp [hintentional])]
        exact ends_complete _
      · rw [if_neg hintentional]
        cases htransient : e.isTransientReadError with
        | false =>
            rw [if_pos rfl, if_pos (by simp)]
            exact ends_complete _
        | true =>
            rw [if_neg (by simp), if_neg (by simp [hintentional])]
            exact ends_ensureConnectedThenRead isOpen
  | sendCompleted | closeCompleted => exact ends_complete _
  | timerExpired => exact ⟨rfl, rfl⟩
  | heartbeatExpired =>
      obtain ⟨_, _, _, _, _, _, _, _, hframe⟩ :=
        heartbeatExpired_frame (s := { s with expired := s.expired - 1 })
      simp only [outcome, ran, hframe, and_self]
  | heartbeatSent =>
      obtain ⟨waiting, hframe⟩ :=
        heartbeatTick_frame (s := { s with heartbeatSends := s.heartbeatSends - 1 })
      simp only [outcome, ran, hframe, and_self]
  | close reason =>
      simp only [outcome, ran, closeImpl_fst, and_self]

/-- Other requests than the new one were there before. -/
theorem opened_getElem? {e : Event} {o : Outcome} (houtcome : s.outcome e = some (i, o)) {j : Nat}
    (hj : j ≠ i) : (s.opened e)[j]? = s.ops[j]? := by
  cases e with
  | nextEvent isOpen =>
      obtain ⟨rfl, -⟩ := Prod.mk.inj (Option.some.inj houtcome)
      unfold opened
      by_cases hlt : j < s.ops.length
      · exact List.getElem?_append_left hlt
      · rw [List.getElem?_eq_none (by simp; omega), List.getElem?_eq_none (by omega)]
  | _ => rfl

/-- A request that a step is not about is left as it is. -/
theorem step_other {e : Event} (hstep : s.step e = some s') {j : Nat}
    (hother : ∀ o, s.outcome e ≠ some (j, o)) : s'.ops[j]? = s.ops[j]? := by
  have hrequests := step_requests hstep
  cases houtcome : s.outcome e with
  | none =>
      rw [houtcome] at hrequests
      rw [hrequests.1]
  | some p =>
      obtain ⟨i, o⟩ := p
      rw [houtcome] at hrequests
      have hj : i ≠ j := by
        rintro rfl
        exact hother o houtcome
      rw [hrequests.1, List.getElem?_modify_ne _ _ hj, opened_getElem? houtcome (Ne.symm hj)]

/-- The request that a step is about has its outcome. -/
theorem step_self {e : Event} (hstep : s.step e = some s') {o : Outcome}
    (houtcome : s.outcome e = some (i, o)) : s'.ops[i]? = ((s.opened e)[i]?).map o.apply := by
  have hrequests := step_requests hstep
  rw [houtcome] at hrequests
  rw [hrequests.1, List.getElem?_modify_eq]
  rfl

/-- **The phase of a request after a step.** -/
theorem step_phase {e : Event} (hstep : s.step e = some s') (j : Nat) :
    s'.phase j = s.phase j ∨
      ∃ o, s.outcome e = some (j, o) ∧ (s'.phase j = o.phase ∨ s'.phase j = .over) := by
  by_cases hself : ∃ o, s.outcome e = some (j, o)
  · obtain ⟨o, houtcome⟩ := hself
    refine .inr ⟨o, houtcome, ?_⟩
    unfold phase
    rw [step_self hstep houtcome]
    cases (s.opened e)[j]? with
    | none => exact .inr rfl
    | some op => exact .inl (o.apply_phase op)
  · have hother := step_other hstep (j := j) fun o houtcome => hself ⟨o, houtcome⟩
    exact .inl (by unfold phase; rw [hother])

end Shard

end Ekizu.Gateway
