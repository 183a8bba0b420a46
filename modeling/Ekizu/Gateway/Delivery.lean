import Ekizu.Gateway.Resume
import Ekizu.Lib.Feed
import Mathlib.Logic.Function.Basic

/-!
# Events across reconnects

A shard and the gateway it talks to, over any number of connections.  The gateway is a service
of which the shard relies on what is documented: it numbers the events of a session from the
READY on, sends them in that order, starts a session for an Identify, and after a Resume sends
the events behind the number in it.  It may do each of that at any time or never, and a
connection may be lost with all that is on its way.

What is read is what was sent, in that order (of the transport, `Inflater` has that).

## Main results

* `Subscription.feed_steps` — a step of the shard or of the gateway reads and fills the logs of
  the sessions as feeds are.
* `Subscription.Reachable.tracks` — a Resume asks for what is missing.
-/

namespace Ekizu.Gateway

open Lib Lib.Runs

/-- An event that a request was given. -/
structure Handed where
  session : String
  request : Nat
  event : Json

/-- A shard with its gateway: the events of each session, what is on its way over the
connection of the shard, and the session that the connection serves, with the number of its
events that were sent. -/
structure Subscription (W : Setting) where
  shard : Shard W := {}
  events : String → List Json := fun _ => []
  flight : List Json := []
  served : Option (String × Nat) := none
  handed : List Handed := []

/-- A Dispatch. -/
def brings (W : Setting) (json : Json) : Bool :=
  decide (Shard.opcodeOf W.undefined json = some .dispatch)

/-- Event `k` of a session: a Dispatch with the number `k + 1`.  The first, and no other, is a
READY. -/
structure Numbered (W : Setting) (id : String) (k : Nat) (json : Json) : Prop where
  dispatch : Shard.opcodeOf W.undefined json = some .dispatch
  accepts : Shard.accepts json = true
  fits : k + 1 < 2 ^ 64
  sequence : Shard.sequenceOf W.undefined json = some (UInt64.ofNat (k + 1))
  ready : (json.get "t").text = "READY" ↔ k = 0
  session : k = 0 → ((json.get "d").get "session_id").text = id

namespace Subscription

variable {W : Setting}

/-- The Identify of a shard. -/
def identify (W : Setting) : Command :=
  .identify W.token W.id W.shardCount (if W.isBot then some W.intents else none)

/-- The gateway was sent a payload over the connection of the shard. -/
def Sent (s : Subscription W) (command : Command) : Prop :=
  ∃ socket, s.shard.ws = some socket ∧ (socket, command) ∈ s.shard.sent

/-- What runs on the strand besides messages and connections. -/
def isOwn : Shard.Event → Bool
  | .message _ _ _ | .connected _ _ => false
  | _ => true

/-- A message as an event of the session that is served. -/
def handing (s : Subscription W) (i : Nat) (json : Json) : List Handed :=
  match s.served with
  | some (id, _) => if brings W json then [⟨id, i, json⟩] else []
  | none => []

/-- A step of the shard or of the gateway. -/
inductive Step : Subscription W → Subscription W → Prop
  | runs {s : Subscription W} {e : Shard.Event} {shard : Shard W} (hown : isOwn e = true)
      (hstep : s.shard.step e = some shard) : Step s { s with shard }
  /-- What is on its way is lost with the connection before. -/
  | connects {s : Subscription W} {i : Nat} {created : Bool} {shard : Shard W}
      (hstep : s.shard.step (.connected i created) = some shard) :
      Step s { s with shard, flight := [], served := none }
  | reads {s : Subscription W} {i : Nat} {payload : List UInt8} {isBinary : Bool} {json : Json}
      {flight : List Json} {shard : Shard W} (hflight : s.flight = json :: flight)
      (hjson : s.shard.received (.message i payload isBinary) = some json)
      (hstep : s.shard.step (.message i payload isBinary) = some shard) :
      Step s { s with shard, flight, handed := s.handed ++ s.handing i json }
  /-- A Hello, an acknowledgement, a Reconnect, an Invalid Session. -/
  | tells {s : Subscription W} {json : Json} (hother : brings W json = false) :
      Step s { s with flight := s.flight ++ [json] }
  /-- A session is started for an Identify. -/
  | starts {s : Subscription W} {id : String} {ready : Json} (hserved : s.served = none)
      (hsent : s.Sent (identify W)) (hnew : s.events id = [])
      (hready : Numbered W id 0 ready) :
      Step s
        { s with events := Function.update s.events id [ready], served := some (id, 0) }
  /-- A Resume is accepted. -/
  | resumes {s : Subscription W} {token id : String} {sequence : UInt64}
      (hserved : s.served = none) (hsent : s.Sent (.resume token id sequence)) :
      Step s { s with served := some (id, sequence.toNat) }
  | happens {s : Subscription W} {id : String} {event : Json} (hsession : s.events id ≠ [])
      (hevent : Numbered W id (s.events id).length event) :
      Step s { s with events := Function.update s.events id (s.events id ++ [event]) }
  | puts {s : Subscription W} {id : String} {n : Nat} {event : Json}
      (hserved : s.served = some (id, n)) (hnext : (s.events id)[n]? = some event) :
      Step s { s with flight := s.flight ++ [event], served := some (id, n + 1) }

/-- The states that are reached from a new shard. -/
def Reachable (s : Subscription W) : Prop := Relation.ReflTransGen Step {} s

/-- The events of a session that were given to requests, in that order. -/
def eventsHanded (s : Subscription W) (id : String) : List Json :=
  (s.handed.filter fun h => h.session = id).map (·.event)

/-- The log of a session as it is read over the connections. -/
def feed (s : Subscription W) (id : String) : Feed Json where
  log := s.events id
  taken := s.eventsHanded id
  line :=
    match s.served with
    | some (served, n) => if served = id then some (n, s.flight.filter (brings W)) else none
    | none => none

end Subscription

/-! ## The session of a shard -/

namespace Shard

variable {W : Setting} {s s' : Shard W} {i : Nat} {json : Json}

/-- Only a Dispatch gives a shard another session. -/
theorem handled_session_other (hother : brings W json = false) :
    (s.handled json).session = s.session ∨ (s.handled json).session = none := by
  have hopcode : opcodeOf W.undefined json ≠ some .dispatch := by simpa [brings] using hother
  unfold handled
  cases hcase : opcodeOf W.undefined json with
  | none => exact .inl rfl
  | some opcode =>
      cases opcode with
      | dispatch => exact absurd hcase hopcode
      | heartbeat =>
          obtain ⟨sent, hframe⟩ :=
            delivered_frame (s := s) (.heartbeat (s.session.map (·.sequence)))
          left
          simp [sendHeartbeatAsync, sentOr_send, hframe]
      | reconnect =>
          left
          simp [closeImpl_fst, CloseFrame.isIntentional, CloseFrame.resume]
      | invalidSession =>
          cases json.get "d" with
          | boolean resumable =>
              cases resumable with
              | true =>
                  left
                  simp [closeImpl_fst, CloseFrame.isIntentional, CloseFrame.resume]
              | false =>
                  right
                  simp [closeImpl_fst, CloseFrame.isIntentional, CloseFrame.normal]
          | null | unsigned | integer | float | string | array | object => exact .inl rfl
      | hello =>
          obtain ⟨interval, timer, running, waiting, sent, hframe⟩ := greeted_frame (s := s) json
          left
          simp [hframe]
      | heartbeatAck => exact .inl rfl
      | other => exact .inl rfl

/-- The shard after a message, up to the requests. -/
theorem read_field {α : Type} (field : Shard W → α) {payload : List UInt8} {isBinary : Bool}
    (hfield : ∀ t : Shard W, field t.core = field t)
    (hjson : s.received (.message i payload isBinary) = some json)
    (hstep : s.step (.message i payload isBinary) = some s') :
    ∃ inflater, field s' = field ({ s with inflater := inflater }.handled json) := by
  obtain ⟨inflater, hafter⟩ := after_message hjson
  exact ⟨inflater, (step_field field hfield hstep).trans (congrArg field hafter)⟩

/-- What runs besides messages keeps the session, or ends it. -/
theorem own_session {e : Event} (hown : Subscription.isOwn e = true)
    (hstep : s.step e = some s') : s'.session = s.session ∨ s'.session = none := by
  rw [step_field (·.session) (fun _ => rfl) hstep]
  cases e with
  | message | connected => exact absurd hown (by simp [Subscription.isOwn])
  | heartbeatExpired =>
      obtain ⟨_, _, _, _, _, _, _, _, hframe⟩ :=
        heartbeatExpired_frame (s := { s with expired := s.expired - 1 })
      left
      simp only [after, hframe]
  | heartbeatSent =>
      obtain ⟨waiting, hframe⟩ :=
        heartbeatTick_frame (s := { s with heartbeatSends := s.heartbeatSends - 1 })
      left
      simp only [after, hframe]
  | close reason =>
      simp only [after, closeImpl_fst]
      split
      · exact .inr rfl
      · exact .inl rfl
  | nextEvent | backoffExpired | connectFailed | readFailed | sendCompleted | closeCompleted
  | timerExpired => exact .inl rfl

/-- What was sent after a step was sent before, or is what the step sends. -/
theorem mem_sent {e : Event} (hstep : s.step e = some s') {socket : Nat} {command : Command}
    (h : (socket, command) ∈ s'.sent) :
    (socket, command) ∈ s.sent ∨ s.ws = some socket ∧ s.command e = some command := by
  rw [step_sent hstep] at h
  unfold adding at h
  split at h
  · next hws hcommand =>
      cases List.mem_cons.mp h with
      | inl hnew =>
          obtain ⟨rfl, rfl⟩ := Prod.mk.inj hnew
          exact .inr ⟨hws, hcommand⟩
      | inr hold => exact .inl hold
  · exact .inl h

end Shard

namespace Subscription

variable {W : Setting} {s s' : Subscription W}

/-- What the steps rely on of each other. -/
structure Tracks (s : Subscription W) : Prop where
  numbered : ∀ id k json, (s.events id)[k]? = some json → Numbered W id k json
  /-- Events are sent over a connection that serves a session. -/
  quiet : s.served = none → s.flight.filter (brings W) = []
  /-- The shard has counted the events that were handed to requests. -/
  counts : ∀ session, s.shard.session = some session →
    session.sequence.toNat = (s.eventsHanded session.id).length
  serves : ∀ id n, s.served = some (id, n) →
    ∀ session, s.shard.session = some session → session.id = id
  sockets : ∀ p ∈ s.shard.sent, ∃ socket, s.shard.ws = some socket ∧ p.1 ≤ socket
  /-- A Resume that was not answered asks for what is missing. -/
  resume : s.served = none → ∀ token id sequence, s.Sent (.resume token id sequence) →
    sequence.toNat = (s.eventsHanded id).length ∧
      ∀ session, s.shard.session = some session → session.id = id
  identify : s.served = none → s.Sent (Subscription.identify W) → s.shard.session = none

/-! ## Steps -/

/-- Payloads that were sent over another connection than the present one. -/
theorem Tracks.not_sent (h : s.Tracks) {i : Nat} {created : Bool} {shard : Shard W}
    (hstep : s.shard.step (.connected i created) = some shard) (command : Command) :
    ¬ Subscription.Sent { s with shard, flight := [], served := none } command := by
  intro hsent
  obtain ⟨socket, hws, hmem⟩ := hsent
  have hsame : shard.sent = s.shard.sent := by
    rw [Shard.step_sent hstep]
    exact s.shard.adding_none
  rw [hsame] at hmem
  obtain ⟨old, hold, hle⟩ := h.sockets _ hmem
  have hfresh := Shard.step_ws hstep
  rw [hold] at hfresh
  have hnew : old + 1 = socket := Option.some.inj (hfresh.symm.trans hws)
  omega

/-- A greeting that was sent was sent before, or is sent for the session there is. -/
theorem sent_greeting {e : Shard.Event} {shard : Shard W} (hstep : s.shard.step e = some shard)
    (hws : shard.ws = s.shard.ws) {command : Command} (hgreeting : ∀ d, command ≠ .heartbeat d)
    {socket : Nat} (hsocket : shard.ws = some socket) (hmem : (socket, command) ∈ shard.sent) :
    s.Sent command ∨ command = s.shard.greeting ∧ s.shard.command e = some command := by
  cases Shard.mem_sent hstep hmem with
  | inl hold => exact .inl ⟨socket, hws ▸ hsocket, hold⟩
  | inr hnew =>
      cases Shard.command_cases hnew.2 with
      | inl hbeat => exact absurd hbeat (hgreeting _)
      | inr hsent => exact .inr ⟨hsent.1, hnew.2⟩

/-- The sockets that payloads were sent over, after a step that connects none. -/
theorem Tracks.sockets_step (h : s.Tracks) {e : Shard.Event} {shard : Shard W}
    (hstep : s.shard.step e = some shard) (hws : shard.ws = s.shard.ws) :
    ∀ p ∈ shard.sent, ∃ socket, shard.ws = some socket ∧ p.1 ≤ socket := by
  intro p hp
  rw [hws]
  cases Shard.mem_sent hstep hp with
  | inl hold => exact h.sockets p hold
  | inr hnew => exact ⟨p.1, hnew.1, Nat.le_refl _⟩

/-- A step of the shard that is not given an event. -/
theorem Tracks.kept (h : s.Tracks) {e : Shard.Event} {shard : Shard W}
    (hstep : s.shard.step e = some shard) (hws : shard.ws = s.shard.ws)
    (hsession : shard.session = s.shard.session ∨ shard.session = none) {flight : List Json}
    (hflight : flight.filter (brings W) = s.flight.filter (brings W)) :
    Tracks { s with shard, flight } := by
  have hsome : ∀ session, shard.session = some session → s.shard.session = some session := by
    intro session hafter
    cases hsession with
    | inl hsame => exact hsame.symm.trans hafter
    | inr hnone => cases hnone.symm.trans hafter
  constructor
  · exact h.numbered
  · intro hserved
    exact hflight.trans (h.quiet hserved)
  · intro session hafter
    exact h.counts session (hsome session hafter)
  · intro id n hserved session hafter
    exact h.serves id n hserved session (hsome session hafter)
  · exact h.sockets_step hstep hws
  · intro hserved token id sequence hsent
    obtain ⟨socket, hsocket, hmem⟩ := hsent
    cases sent_greeting hstep hws (by simp) hsocket hmem with
    | inl hold =>
        obtain ⟨hcount, hid⟩ := h.resume hserved token id sequence hold
        exact ⟨hcount, fun session hafter => hid session (hsome session hafter)⟩
    | inr hnew =>
        have hgreeting := hnew.1
        unfold Shard.greeting at hgreeting
        split at hgreeting
        · next session hbefore =>
            obtain ⟨-, rfl, rfl⟩ := Command.resume.inj hgreeting
            refine ⟨h.counts session hbefore, ?_⟩
            intro session' hafter
            obtain rfl := Option.some.inj (hbefore.symm.trans (hsome session' hafter))
            rfl
        · cases hgreeting
  · intro hserved hsent
    have hnone : s.shard.session = none := by
      obtain ⟨socket, hsocket, hmem⟩ := hsent
      cases sent_greeting hstep hws (by simp [Subscription.identify]) hsocket hmem with
      | inl hold => exact h.identify hserved hold
      | inr hnew =>
          have hgreeting := hnew.1
          unfold Shard.greeting at hgreeting
          split at hgreeting
          · cases hgreeting
          · next hbefore => exact hbefore
    cases hsession with
    | inl hsame => exact hsame.trans hnone
    | inr hafter => exact hafter

/-- A connection. -/
theorem Tracks.connects (h : s.Tracks) {i : Nat} {created : Bool} {shard : Shard W}
    (hstep : s.shard.step (.connected i created) = some shard) :
    Tracks { s with shard, flight := [], served := none } := by
  have hsession : shard.session = s.shard.session :=
    Shard.step_field (·.session) (fun _ => rfl) hstep
  constructor
  · exact h.numbered
  · exact fun _ => rfl
  · intro session hafter
    exact h.counts session (hsession.symm.trans hafter)
  · intro id n hserved
    cases hserved
  · intro p hp
    have hsame : shard.sent = s.shard.sent := by
      rw [Shard.step_sent hstep]
      exact s.shard.adding_none
    obtain ⟨socket, hws, hle⟩ := h.sockets p (hsame ▸ hp)
    refine ⟨socket + 1, ?_, by omega⟩
    have hfresh := Shard.step_ws hstep
    rw [hws] at hfresh
    exact hfresh
  · intro _ token id sequence hsent
    exact absurd hsent (h.not_sent hstep _)
  · intro _ hsent
    exact absurd hsent (h.not_sent hstep _)

theorem eventsHanded_handing (i : Nat) (json : Json) (id : String) :
    Subscription.eventsHanded { s with handed := s.handed ++ s.handing i json } id =
      s.eventsHanded id ++
        if s.served.map Prod.fst = some id ∧ brings W json = true then [json] else [] := by
  unfold eventsHanded handing
  cases s.served with
  | none => simp
  | some served =>
      obtain ⟨served, n⟩ := served
      cases brings W json with
      | false => simp
      | true =>
          by_cases hid : served = id
          · simp [hid]
          · simp [hid]

/-- The next event of a session, which a request is given. -/
theorem Tracks.reads (h : s.Tracks) {i : Nat} {payload : List UInt8} {isBinary : Bool}
    {json : Json} {flight : List Json} {shard : Shard W} {id : String} {n : Nat}
    (hserved : s.served = some (id, n)) (hbrings : brings W json = true)
    (hnumbered : Numbered W id (s.eventsHanded id).length json)
    (hjson : s.shard.received (.message i payload isBinary) = some json)
    (hstep : s.shard.step (.message i payload isBinary) = some shard) :
    Tracks { s with shard, flight, handed := s.handed ++ s.handing i json } := by
  have hsequence : (UInt64.ofNat ((s.eventsHanded id).length + 1)).toNat =
      (s.eventsHanded id).length + 1 :=
    UInt64.toNat_ofNat_of_lt' hnumbered.fits
  have hhanded : ∀ id', Subscription.eventsHanded
      { s with shard, flight, handed := s.handed ++ s.handing i json } id' =
        s.eventsHanded id' ++ if id = id' then [json] else [] := by
    intro id'
    refine (s.eventsHanded_handing i json id').trans ?_
    simp [hserved, hbrings]
  have hsession : ∀ session, shard.session = some session →
      session.id = id ∧ session.sequence.toNat = (s.eventsHanded id).length + 1 := by
    intro session hafter
    obtain ⟨inflater, hread⟩ := Shard.read_field (·.session) (fun _ => rfl) hjson hstep
    rw [hread] at hafter
    simp only [Shard.handled, hnumbered.dispatch, Shard.dispatched, hnumbered.accepts,
      Bool.true_eq_false, if_false, hnumbered.sequence] at hafter
    by_cases hready : (json.get "t").text = "READY"
    · rw [if_pos hready] at hafter
      obtain rfl := Option.some.inj hafter
      exact ⟨hnumbered.session (hnumbered.ready.mp hready), hsequence⟩
    · rw [if_neg hready, Shard.sequenced_session] at hafter
      obtain ⟨before, hbefore, rfl⟩ := Option.map_eq_some_iff.mp hafter
      exact ⟨h.serves id n hserved before hbefore, hsequence⟩
  constructor
  · exact h.numbered
  · intro hnone
    cases hserved.symm.trans hnone
  · intro session hafter
    obtain ⟨rfl, hcount⟩ := hsession session hafter
    rw [hhanded, if_pos rfl, List.length_append, hcount]
    rfl
  · intro id' n' hserved' session hafter
    obtain ⟨rfl, -⟩ := Prod.mk.inj (Option.some.inj (hserved.symm.trans hserved'))
    exact (hsession session hafter).1
  · exact h.sockets_step hstep (Shard.step_ws hstep)
  · intro hnone
    cases hserved.symm.trans hnone
  · intro hnone
    cases hserved.symm.trans hnone

/-- The line of the session that is served. -/
theorem feed_line {id : String} {n : Nat} (hserved : s.served = some (id, n)) :
    (s.feed id).line = some (n, s.flight.filter (brings W)) := by
  simp [feed, hserved]

/-- The next event of the session that is served. -/
theorem numbered_head (h : s.Tracks) {id : String} {n : Nat} {json : Json} {flight : List Json}
    (hsound : (s.feed id).Sound) (hserved : s.served = some (id, n))
    (hflight : s.flight = json :: flight) (hbrings : brings W json = true) :
    Numbered W id (s.eventsHanded id).length json := by
  have hline : (s.feed id).line = some (n, json :: flight.filter (brings W)) := by
    rw [feed_line hserved, hflight, List.filter_cons_of_pos hbrings]
  exact h.numbered id _ json (hsound.next hline)

/-- Where an event is read, a session is served. -/
theorem Tracks.served_of_brings (h : s.Tracks) {json : Json} {flight : List Json}
    (hflight : s.flight = json :: flight) (hbrings : brings W json = true) :
    ∃ id n, s.served = some (id, n) := by
  cases hserved : s.served with
  | some served => exact ⟨served.1, served.2, rfl⟩
  | none =>
      have hquiet := h.quiet hserved
      rw [hflight, List.filter_cons_of_pos hbrings] at hquiet
      cases hquiet

/-- What steps rely on is kept, the logs being read as they should. -/
theorem Tracks.step (h : s.Tracks) (hsound : ∀ id, (s.feed id).Sound) (hstep : Step s s') :
    s'.Tracks := by
  cases hstep with
  | @runs e shard hown hstep =>
      refine h.kept hstep ?_ (Shard.own_session hown hstep) rfl
      rw [Shard.step_ws hstep]
      cases e with
      | connected => cases hown
      | _ => rfl
  | connects hstep => exact h.connects hstep
  | @reads i payload isBinary json flight shard hflight hjson hstep =>
      cases hbrings : brings W json with
      | true =>
          obtain ⟨id, n, hserved⟩ := h.served_of_brings hflight hbrings
          exact h.reads hserved hbrings (numbered_head h (hsound id) hserved hflight hbrings)
            hjson hstep
      | false =>
          have hhanding : s.handing i json = [] := by
            unfold handing
            split
            · rw [hbrings]
              rfl
            · rfl
          rw [hhanding, List.append_nil]
          refine h.kept hstep (Shard.step_ws hstep) ?_ ?_
          · obtain ⟨inflater, hread⟩ := Shard.read_field (·.session) (fun _ => rfl) hjson hstep
            rw [hread]
            exact Shard.handled_session_other hbrings
          · rw [hflight, List.filter_cons_of_neg (by simp [hbrings])]
  | @tells json hother =>
      have hflight : (s.flight ++ [json]).filter (brings W) = s.flight.filter (brings W) := by
        rw [List.filter_append, List.filter_cons_of_neg (by simp [hother])]
        exact List.append_nil _
      exact { h with quiet := fun hserved => hflight.trans (h.quiet hserved) }
  | @starts id ready hserved hsent hnew hready =>
      have hnone := h.identify hserved hsent
      constructor
      · intro id' k json hget
        replace hget : (Function.update s.events id [ready] id')[k]? = some json := hget
        by_cases hid : id' = id
        · subst hid
          rw [Function.update_self] at hget
          obtain ⟨hk, rfl⟩ := List.getElem?_eq_some_iff.mp hget
          obtain rfl : k = 0 := by simpa using hk
          exact hready
        · rw [Function.update_of_ne hid] at hget
          exact h.numbered id' k json hget
      · intro hserved'
        cases hserved'
      · exact h.counts
      · intro id' n _ session hafter
        cases hnone.symm.trans hafter
      · exact h.sockets
      · intro hserved'
        cases hserved'
      · intro hserved'
        cases hserved'
  | @resumes token id sequence hserved hsent =>
      have hresume := h.resume hserved token id sequence hsent
      constructor
      · exact h.numbered
      · intro hserved'
        cases hserved'
      · exact h.counts
      · intro id' n hserved' session hafter
        obtain ⟨rfl, -⟩ := Prod.mk.inj (Option.some.inj hserved')
        exact hresume.2 session hafter
      · exact h.sockets
      · intro hserved'
        cases hserved'
      · intro hserved'
        cases hserved'
  | @happens id event hsession hevent =>
      refine { h with numbered := ?_ }
      intro id' k json hget
      replace hget : (Function.update s.events id (s.events id ++ [event]) id')[k]? = some json :=
        hget
      by_cases hid : id' = id
      · subst hid
        rw [Function.update_self, List.getElem?_append] at hget
        split at hget
        · exact h.numbered id' k json hget
        · next hk =>
            obtain ⟨hk', rfl⟩ := List.getElem?_eq_some_iff.mp hget
            obtain rfl : k = (s.events id').length := by
              simp only [List.length_singleton] at hk'
              omega
            simpa using hevent
      · rw [Function.update_of_ne hid] at hget
        exact h.numbered id' k json hget
  | @puts id n event hserved hnext =>
      constructor
      · exact h.numbered
      · intro hserved'
        cases hserved'
      · exact h.counts
      · intro id' n' hserved' session hafter
        obtain ⟨rfl, -⟩ := Prod.mk.inj (Option.some.inj hserved')
        exact h.serves _ n hserved session hafter
      · exact h.sockets
      · intro hserved'
        cases hserved'
      · intro hserved'
        cases hserved'

/-- The logs that a message is no event of stay as they are. -/
theorem feed_reads_other {i : Nat} {json : Json} {flight : List Json} {shard : Shard W}
    {id : String} (hflight : s.flight = json :: flight)
    (hother : ¬ (s.served.map Prod.fst = some id ∧ brings W json = true)) :
    Subscription.feed { s with shard, flight, handed := s.handed ++ s.handing i json } id =
      s.feed id := by
  have hhanded := s.eventsHanded_handing i json id
  rw [if_neg hother, List.append_nil] at hhanded
  refine Feed.ext rfl hhanded ?_
  unfold feed
  cases hserved : s.served with
  | none => rfl
  | some served =>
      obtain ⟨served, n⟩ := served
      by_cases hid : served = id
      · have hbrings : ¬ brings W json = true := by
          intro hbrings
          exact hother ⟨by simp [hserved, hid], hbrings⟩
        simp only [hid, if_true, hflight, List.filter_cons_of_neg hbrings]
      · simp only [if_neg hid]

/-- An event that is read is taken from the log of its session. -/
theorem feed_reads {i : Nat} {json : Json} {flight : List Json} {shard : Shard W} {id : String}
    {n : Nat} (hserved : s.served = some (id, n)) (hflight : s.flight = json :: flight)
    (hbrings : brings W json = true) :
    Feed.Step (s.feed id)
      (Subscription.feed { s with shard, flight, handed := s.handed ++ s.handing i json } id) := by
  refine .take n (flight.filter (brings W)) json rfl ?_ ?_ ?_
  · rw [feed_line hserved, hflight, List.filter_cons_of_pos hbrings]
  · refine (s.eventsHanded_handing i json id).trans ?_
    rw [if_pos ⟨by simp [hserved], hbrings⟩]
    rfl
  · exact feed_line (s := { s with shard, flight, handed := _ }) hserved

/-- **A step of the shard or of the gateway** reads and fills the logs as feeds are. -/
theorem feed_steps (h : s.Tracks) {id : String} (hsound : (s.feed id).Sound)
    (hstep : Step s s') : Relation.ReflTransGen Feed.Step (s.feed id) (s'.feed id) := by
  cases hstep with
  | runs hown hstep => exact .refl
  | connects hstep => exact .single (.detach rfl rfl rfl)
  | @reads i payload isBinary json flight shard hflight hjson hstep =>
      by_cases hevent : s.served.map Prod.fst = some id ∧ brings W json = true
      · obtain ⟨hid, hbrings⟩ := hevent
        obtain ⟨⟨_, n⟩, hserved, rfl⟩ := Option.map_eq_some_iff.mp hid
        exact .single (feed_reads hserved hflight hbrings)
      · rw [feed_reads_other hflight hevent]
  | @tells json hother =>
      have hfeed : Subscription.feed { s with flight := s.flight ++ [json] } id = s.feed id := by
        refine Feed.ext rfl rfl ?_
        simp only [feed, List.filter_append, List.filter_cons_of_neg (by simp [hother] :
          ¬ brings W json = true), List.filter_nil, List.append_nil]
      rw [hfeed]
  | @starts served ready hserved hsent hnew hready =>
      have hline : (s.feed id).line = none := by
        simp only [feed, hserved]
      by_cases hid : id = served
      · subst hid
        have hnone : s.eventsHanded id = [] :=
          List.prefix_nil.mp (hnew ▸ hsound.taken)
        have hlog : Function.update s.events id [ready] id = s.events id ++ [ready] := by
          rw [Function.update_self, hnew]
          rfl
        have happend : Feed.Step (s.feed id) ⟨s.events id ++ [ready], s.eventsHanded id, none⟩ :=
          .append ready rfl rfl hline.symm
        refine .tail (.single happend) (.attach hlog rfl ?_)
        simp only [feed, if_true, h.quiet hserved, hnone, List.length_nil]
      · have hlog : Function.update s.events served [ready] id = s.events id :=
          Function.update_of_ne hid _ _
        have hfeed : Subscription.feed { s with
            events := Function.update s.events served [ready], served := some (served, 0) } id =
              s.feed id :=
          Feed.ext hlog rfl ((if_neg (Ne.symm hid)).trans hline.symm)
        rw [hfeed]
  | @resumes token served sequence hserved hsent =>
      by_cases hid : id = served
      · subst hid
        obtain ⟨hcount, -⟩ := h.resume hserved token id sequence hsent
        refine .single (.attach rfl rfl ?_)
        simp only [feed, if_true, h.quiet hserved, hcount]
      · have hline : (s.feed id).line = none := by
          simp only [feed, hserved]
        have hfeed : Subscription.feed { s with served := some (served, sequence.toNat) } id =
            s.feed id :=
          Feed.ext rfl rfl ((if_neg (Ne.symm hid)).trans hline.symm)
        rw [hfeed]
  | @happens served event hsession hevent =>
      by_cases hid : id = served
      · subst hid
        exact .single (.append event (Function.update_self _ _ _) rfl rfl)
      · have hfeed : Subscription.feed { s with
            events := Function.update s.events served (s.events served ++ [event]) } id =
              s.feed id :=
          Feed.ext (Function.update_of_ne hid _ _) rfl rfl
        rw [hfeed]
  | @puts served n event hserved hnext =>
      have hbrings : brings W event = true :=
        decide_eq_true (h.numbered served n event hnext).dispatch
      by_cases hid : served = id
      · subst hid
        refine .single (.put n (s.flight.filter (brings W)) event rfl rfl (feed_line hserved)
          hnext ?_)
        simp only [feed, if_true, List.filter_append, List.filter_cons_of_pos hbrings,
          List.filter_nil]
      · have hfeed : Subscription.feed { s with
            flight := s.flight ++ [event], served := some (served, n + 1) } id = s.feed id :=
          Feed.ext rfl rfl (by simp only [feed, hserved, if_neg hid])
        rw [hfeed]

/-- What steps rely on, and that the logs are read as they should. -/
theorem Reachable.tracks (h : s.Reachable) : s.Tracks ∧ ∀ id, (s.feed id).Sound := by
  induction h with
  | refl =>
      constructor
      · constructor
        · intro id k json hget
          cases hget
        · exact fun _ => rfl
        · intro session hsession
          cases hsession
        · intro id n hserved
          cases hserved
        · intro p hp
          cases hp
        · intro _ token id sequence hsent
          obtain ⟨socket, hws, -⟩ := hsent
          cases hws
        · exact fun _ _ => rfl
      · exact fun id => Feed.sound_start
  | tail _ hstep ih =>
      obtain ⟨htracks, hsound⟩ := ih
      exact ⟨htracks.step hsound hstep, fun id =>
        (hsound id).steps (feed_steps htracks (hsound id) hstep)⟩

end Subscription

end Ekizu.Gateway
