import Ekizu.Gateway.Steps

/-!
# Intentional closes

`m_intentional_close` tells a shutdown by the user from a connection that is to
be made again.  `close_impl` derives it from the close code, and the handler of
an Invalid Session that cannot be resumed closes with the code of a shutdown.

## Main results

* `intentionalClose_iff` — in a run without a `close` of the user the flag is
  clear exactly where no such payload was handled.
* `intentionalClose_invalidSession` — a run in which the gateway sets it, and
  the next request is refused.
-/

namespace Ekizu.Gateway.Shard

open Lib Lib.Runs

variable {W : Setting} {s s' : Shard W}

/-- An Invalid Session whose `d` is false. -/
def invalidates (W : Setting) (json : Json) : Bool :=
  opcodeOf W.undefined json = some .invalidSession &&
    match json.get "d" with
    | .boolean resumable => !resumable
    | _ => false

/-- The step handles an Invalid Session whose `d` is false. -/
def Invalidates (t : Taken (Shard W) Event) : Prop :=
  ∃ json, t.pre.received t.event = some json ∧ invalidates W json = true

/-- A `close` of the user. -/
def Event.isClose : Event → Bool
  | .close _ => true
  | _ => false

/-! ## What sets the flag -/

theorem handled_intentionalClose (json : Json) :
    (s.handled json).intentionalClose = (s.intentionalClose || invalidates W json) := by
  unfold handled invalidates
  cases opcodeOf W.undefined json with
  | none => simp
  | some opcode =>
      cases opcode with
      | dispatch =>
          obtain ⟨session, url, hframe⟩ := dispatched_frame (s := s) json
          simp [hframe]
      | heartbeat =>
          obtain ⟨sent, hframe⟩ :=
            delivered_frame (s := s) (.heartbeat (s.session.map (·.sequence)))
          simp [sendHeartbeatAsync, sentOr_send, hframe]
      | reconnect => simp [closeImpl_fst, CloseFrame.isIntentional, CloseFrame.resume]
      | invalidSession =>
          cases json.get "d" with
          | boolean resumable =>
              cases resumable with
              | true => simp [closeImpl_fst, CloseFrame.isIntentional, CloseFrame.resume]
              | false => simp [closeImpl_fst, CloseFrame.isIntentional, CloseFrame.normal]
          | null | unsigned | integer | float | string | array | object => simp
      | hello =>
          obtain ⟨interval, timer, running, waiting, sent, hframe⟩ := greeted_frame (s := s) json
          simp [hframe]
      | heartbeatAck => simp
      | other => simp

/-- A step other than a `close` of the user sets the flag exactly by such a
payload. -/
theorem step_intentionalClose {e : Event} (hclose : e.isClose = false)
    (hstep : s.step e = some s') :
    s'.intentionalClose = false ↔ s.intentionalClose = false ∧ ¬ Invalidates ⟨s, e, s'⟩ := by
  rw [step_field (·.intentionalClose) (fun _ => rfl) hstep]
  unfold Invalidates
  cases e with
  | message i payload isBinary =>
      cases hjson : s.received (.message i payload isBinary) with
      | none => simp [after_message_none hjson]
      | some json =>
          obtain ⟨inflater, hafter⟩ := after_message hjson
          simp [hafter, handled_intentionalClose]
  | heartbeatExpired =>
      obtain ⟨_, _, _, _, _, _, _, _, hframe⟩ :=
        heartbeatExpired_frame (s := { s with expired := s.expired - 1 })
      simp [after, received, hframe]
  | heartbeatSent =>
      obtain ⟨waiting, hframe⟩ :=
        heartbeatTick_frame (s := { s with heartbeatSends := s.heartbeatSends - 1 })
      simp [after, received, hframe]
  | close reason => simp [Event.isClose] at hclose
  | nextEvent | backoffExpired | connectFailed | connected | readFailed | sendCompleted
  | closeCompleted | timerExpired => simp [after, received, Shard.timerExpired]

/-! ## Runs -/

/-- **What switches a shard off.**  In a run in which the user never closes the
shard, `m_intentional_close` is false exactly where no Invalid Session with a
false `d` was handled. -/
theorem intentionalClose_iff {trace : List (Taken (Shard W) Event)}
    (hrun : (machine W).Run trace s)
    (hclose : ∀ t ∈ trace, t.event.isClose = false) :
    s.intentionalClose = false ↔ ∀ t ∈ trace, ¬ Invalidates t := by
  induction hrun with
  | start => simp [machine]
  | @step trace s s' e hrun hstep ih =>
      have hbefore := ih fun t ht => hclose t (List.mem_cons_of_mem _ ht)
      have hlast := hclose ⟨s, e, s'⟩ List.mem_cons_self
      rw [step_intentionalClose hlast hstep, hbefore, List.forall_mem_cons]
      exact and_comm

/-- An Invalid Session that cannot be resumed: `{"op":9,"d":false}`. -/
def invalidSessionText : List UInt8 :=
  [123, 34, 111, 112, 34, 58, 57, 44, 34, 100, 34, 58, 102, 97, 108, 115, 101, 125]

/-- An Invalid Session that can be resumed: `{"op":9,"d":true}`. -/
def resumableSessionText : List UInt8 :=
  [123, 34, 111, 112, 34, 58, 57, 44, 34, 100, 34, 58, 116, 114, 117, 101, 125]

/-- The two, as the parser knows them. -/
def invalidSessions : List (List UInt8 × Json) :=
  [(invalidSessionText, .object [("d", .boolean false), ("op", .unsigned 9)]),
    (resumableSessionText, .object [("d", .boolean true), ("op", .unsigned 9)])]

abbrev invalidMachine : Machine (Shard (referenceSetting invalidSessions)) Event :=
  referenceMachine invalidSessions

/-- A resumable Invalid Session leaves the flag alone. -/
theorem intentionalClose_iff_resumable :
    (invalidMachine.recorded
        (connects 0 ++ [.message 0 helloText false, .sendCompleted 0 none] ++
          receives 1 resumableSessionText)).2.intentionalClose = false ↔
      ∀ t ∈ (invalidMachine.recorded
        (connects 0 ++ [.message 0 helloText false, .sendCompleted 0 none] ++
          receives 1 resumableSessionText)).1, ¬ Invalidates t :=
  intentionalClose_iff (invalidMachine.run_recorded _ (by decide +kernel)) (by decide +kernel)

/-- The gateway switches a shard off: after an Invalid Session that cannot be
resumed the next request fails without an attempt to connect. -/
theorem intentionalClose_invalidSession :
    ∃ trace s, invalidMachine.Run trace s ∧ (∀ t ∈ trace, t.event.isClose = false) ∧
      s.intentionalClose = true ∧ s.ops[2]? = some ⟨.over, [.error .notConnected]⟩ :=
  ⟨_, _, invalidMachine.run_recorded
      (connects 0 ++ [.message 0 helloText false, .sendCompleted 0 none] ++
        receives 1 invalidSessionText ++ [.closeCompleted 1 none, .nextEvent false])
      (by decide +kernel), by decide +kernel, by decide +kernel, by decide +kernel⟩

end Ekizu.Gateway.Shard
