import Ekizu.Voice.Effects
import Ekizu.Voice.Reference

/-!
# When the sender is in passthrough

## Main results

* `encryptor_ready` — an encryptor out of passthrough has a ratchet.
* `reenters_justified_iff` — in a run, every return to passthrough has one of
  the intended causes, unless a `DavePrepareTransition` message caused it.
-/

namespace Ekizu.Voice

open Dave Lib.Runs

variable {W : Setting} {H : Type} [HashRatchet H]

/-! ## A ratchet outside passthrough -/

/-- Out of passthrough there is a ratchet. -/
def SenderReady (k : Core W H) : Prop :=
  ∀ d, k.1 = some d → d.encryptor.passthroughMode = false → d.encryptor.hasKeyRatchet = true

theorem SenderReady.effect {p : Prop} {k k' : Core W H} (h : SenderReady k)
    (heffect : Effect p k k') : SenderReady k' := by
  rintro d' hd' hpass
  cases heffect with
  | setUp | setUpAgain | startMls | executeZero | noSender | prepareDowngrade =>
      -- these switch to passthrough
      obtain rfl := Option.some.inj hd'
      simp [Encryptor.setPassthroughMode] at hpass
  | setVersion d | resetSession d | useSession d | commit d | execute d =>
      obtain rfl := Option.some.inj hd'
      exact h d rfl hpass
  | speak d | dropFrame d | deliver d =>
      obtain rfl := Option.some.inj hd'
      exact h d rfl hpass
  | welcome d log session changeMap state env =>
      obtain rfl := Option.some.inj hd'
      rw [Connection.encryptor_installReceivers] at hpass ⊢
      exact h d rfl hpass
  | installSender d log state secret =>
      obtain rfl := Option.some.inj hd'
      rfl
  | transition d log version hratchet =>
      obtain rfl := Option.some.inj hd'
      exact hratchet
  | encrypt d log ssrc frame out encryptor result used _ hratchet hcall =>
      obtain rfl := Option.some.inj hd'
      exact (Encryptor.encrypt_keeps hcall).2 hratchet
  | stop => simp at hd'

theorem senderReady_of_reachable {c : Connection W H}
    (h : (Connection.machine W H).Reachable c) : SenderReady c.core := by
  refine Connection.reachable_core ?_ ?_ h
  · intro d hd
    simp at hd
  · intro k k' hk heffect
    exact hk.effect heffect

/-- **No call without a ratchet.**  In every reachable state an encryptor out
of passthrough has a ratchet, so that no call of `encrypt` fails for want of
one. -/
theorem encryptor_ready {c : Connection W H} {d : DaveState W H}
    (h : (Connection.machine W H).Reachable c) (hd : c.dave = some d) :
    (d.encryptor.passthroughMode = false → d.encryptor.hasKeyRatchet = true) ∧
      ∀ mediaType ssrc frame out encryptor result,
        d.encryptor.encrypt W.gcm mediaType ssrc frame out = some (encryptor, result) →
          result ≠ .error .ratchetNotReady := by
  have hready := senderReady_of_reachable h d hd
  refine ⟨hready, ?_⟩
  intro mediaType ssrc frame out encryptor result hcall
  exact Encryptor.encrypt_ne_ratchetNotReady hready hcall

/-- The client joins an encrypted call. -/
def joinEvents : List (Event (referenceSetting referenceUser)) :=
  connectEvents referenceUser ++ welcomeEvents referenceUser [1, 5, 7]

private theorem passthroughMode_joinEvents :
    ((after referenceUser joinEvents).dave.map fun d => d.encryptor.passthroughMode) =
      some false := by
  decide +kernel

theorem encryptor_ready_joinEvents : ∃ d, (after referenceUser joinEvents).dave = some d ∧
    d.encryptor.passthroughMode = false ∧ d.encryptor.hasKeyRatchet = true := by
  obtain ⟨d, hd, hpass⟩ := Option.map_eq_some_iff.mp passthroughMode_joinEvents
  exact ⟨d, hd, hpass, (encryptor_ready (reachable_after (by decide +kernel)) hd).1 hpass⟩

/-! ## Back to passthrough -/

/-- The intended causes of a return to passthrough. -/
def Justifies : Action W → Prop
  | .executing version => version = 0
  | .startedMls => True
  | .setUpUdp => True
  | .noSenderRatchet => True
  | _ => False

/-- In this step an encryptor out of passthrough was switched back, or replaced
by one in passthrough. -/
def Reenters (t : Taken (Connection W H) (Event W)) : Prop :=
  ∃ d d', t.pre.dave = some d ∧ d.encryptor.passthroughMode = false ∧
    t.post.dave = some d' ∧ d'.encryptor.passthroughMode = true

/-- Something done in this step justifies it. -/
def Justified (t : Taken (Connection W H) (Event W)) : Prop :=
  ∃ done, t.post.log = done ++ t.pre.log ∧ ∃ action ∈ done, Justifies action

/-- Since `log`, the encryptor has stayed out of passthrough or something
justifies that it did not. -/
def StaysOut (log : List (Action W)) (k : Core W H) : Prop :=
  ∃ done, k.2 = done ++ log ∧
    ((∀ d, k.1 = some d → d.encryptor.passthroughMode = false) ∨
      ∃ action ∈ done, Justifies action)

omit [HashRatchet H] in
/-- Doing more keeps what is justified so far. -/
private theorem StaysOut.extend {log : List (Action W)} {k k' : Core W H}
    (h : StaysOut log k) (more : List (Action W)) (hlog : k'.2 = more ++ k.2)
    (hout : (∀ d, k.1 = some d → d.encryptor.passthroughMode = false) →
      (∀ d, k'.1 = some d → d.encryptor.passthroughMode = false) ∨
        ∃ action ∈ more, Justifies action) : StaysOut log k' := by
  obtain ⟨done, hdone, hstays⟩ := h
  refine ⟨more ++ done, by rw [hlog, hdone, List.append_assoc], ?_⟩
  rcases hstays with hstays | ⟨action, hmem, hjust⟩
  · rcases hout hstays with hstays' | ⟨action, hmem, hjust⟩
    · exact .inl hstays'
    · exact .inr ⟨action, List.mem_append_left _ hmem, hjust⟩
  · exact .inr ⟨action, List.mem_append_right _ hmem, hjust⟩

/-- Without prepared downgrades, only justified effects go back. -/
theorem StaysOut.effect {log : List (Action W)} {k k' : Core W H} (h : StaysOut log k)
    (heffect : Effect False k k') : StaysOut log k' := by
  cases heffect with
  | setUp log' | setUpAgain d log' =>
      exact h.extend [.setUpUdp] rfl fun _ => .inr ⟨_, List.mem_singleton_self _, trivial⟩
  | startMls d log' =>
      exact h.extend [.startedMls] rfl fun _ => .inr ⟨_, List.mem_singleton_self _, trivial⟩
  | executeZero d log' =>
      exact h.extend [.resetSession, .executing 0] rfl fun _ => .inr ⟨.executing 0, by simp, rfl⟩
  | noSender d log' =>
      exact h.extend [.noSenderRatchet] rfl fun _ => .inr ⟨_, List.mem_singleton_self _, trivial⟩
  | prepareDowngrade d log' hallowed => exact hallowed.elim
  | setVersion d | useSession d | dropFrame d =>
      refine h.extend [] rfl fun hout => .inl ?_
      rintro d' ⟨⟩
      exact hout d rfl
  | resetSession d | commit d | execute d | installSender d | speak d | deliver d =>
      refine h.extend [_] rfl fun hout => .inl ?_
      rintro d' ⟨⟩
      exact hout d rfl
  | welcome d log' session changeMap state env =>
      refine h.extend [_] rfl fun hout => .inl ?_
      rintro d' ⟨⟩
      rw [Connection.encryptor_installReceivers]
      exact hout d rfl
  | transition d =>
      refine h.extend [_] rfl fun _ => .inl ?_
      rintro d' ⟨⟩
      rfl
  | encrypt d log' ssrc frame out encryptor result used hpass _ hcall =>
      refine h.extend [_] rfl fun _ => .inl ?_
      rintro d' ⟨⟩
      exact (Encryptor.encrypt_keeps hcall).1.trans hpass
  | stop =>
      refine h.extend [] rfl fun _ => .inl ?_
      rintro d' ⟨⟩

namespace Connection

/-- A step that does not prepare a downgrade returns to passthrough for a
reason. -/
theorem step_justified {c c' : Connection W H} {event : Event W}
    (hrun : c.step event = some c') (hprepare : ¬ PreparesDowngrade c event)
    (hreenters : Reenters ⟨c, event, c'⟩) : Justified ⟨c, event, c'⟩ := by
  obtain ⟨d, d', hd, hout, hd', hpass⟩ := hreenters
  have heffects := Relation.ReflTransGen.mono
    (fun _ _ => effects_mono (fun h => hprepare h)) _ _ (step_effects hrun)
  have hstart : StaysOut c.log c.core := by
    refine ⟨[], rfl, .inl ?_⟩
    intro d₁ hd₁
    obtain rfl := Option.some.inj (hd.symm.trans hd₁)
    exact hout
  obtain ⟨done, hdone, hstays⟩ :=
    Machine.effects_invariant (fun k k' h heffect => StaysOut.effect h heffect) heffects hstart
  refine ⟨done, hdone, ?_⟩
  rcases hstays with hstays | hjust
  · have hfalse := hstays d' hd'
    rw [hpass] at hfalse
    exact absurd hfalse (by decide)
  · exact hjust

/-- A prepared downgrade returns to passthrough and does nothing else. -/
theorem step_preparesDowngrade {c c' : Connection W H} {event : Event W}
    (hrun : c.step event = some c') (hprepare : PreparesDowngrade c event) :
    Reenters ⟨c, event, c'⟩ ∧ c'.log = c.log := by
  obtain ⟨transitionId, protocolVersion, entropy, d, rfl, hid, hversion, hd, hout⟩ := hprepare
  simp only [step] at hrun
  split at hrun
  · simp at hrun
  · simp only [handleMessage, prepareTransition, if_neg hid] at hrun
    have hzero : protocolVersion.getD
        ((c.dave.map fun d => (d.protocolVersion.toNat : Int)).getD 0) = 0 := hversion
    rw [hzero, if_pos rfl] at hrun
    split at hrun
    · simp at hrun
    · obtain rfl := Option.some.inj hrun
      refine ⟨⟨d, { d with encryptor := d.encryptor.setPassthroughMode true }, hd, hout, ?_, rfl⟩,
        rfl⟩
      simp only [enablePassthrough, hd, Option.map_some]

/-- **No silent downgrade.**  In a run, every return to passthrough happens in
a step that executes a transition to version 0, starts MLS, sets up a voice
session or finds no sender ratchet, if and only if no step of the run receives
a prepared downgrade while the encryptor is out of passthrough. -/
theorem reenters_justified_iff {trace : List (Taken (Connection W H) (Event W))}
    {c : Connection W H} (h : (machine W H).Run trace c) :
    (∀ t ∈ trace, Reenters t → Justified t) ↔
      ∀ t ∈ trace, ¬ PreparesDowngrade t.pre t.event := by
  constructor
  · intro hjust t ht hprepare
    obtain ⟨hreenters, hlog⟩ := step_preparesDowngrade (h.mem t ht).2 hprepare
    obtain ⟨done, hdone, action, hmem, -⟩ := hjust t ht hreenters
    have hnil : done = [] := by
      rw [hlog] at hdone
      exact List.append_left_eq_self.mp hdone.symm
    rw [hnil] at hmem
    exact absurd hmem List.not_mem_nil
  · intro hprepare t ht hreenters
    exact step_justified (h.mem t ht).2 (hprepare t ht) hreenters

end Connection

/-- The server prepares and executes a transition to version 0. -/
theorem reenters_justified_iff_downgrade : ∃ trace,
    (referenceMachine referenceUser).Run trace (after referenceUser
      (joinEvents ++ handled referenceUser (.davePrepareTransition (some 0) (some 0)))) ∧
    ((∀ t ∈ trace, Reenters t → Justified t) ↔
      ∀ t ∈ trace, ¬ Connection.PreparesDowngrade t.pre t.event) := by
  have hreachable : (referenceMachine referenceUser).Reachable (after referenceUser
      (joinEvents ++ handled referenceUser (.davePrepareTransition (some 0) (some 0)))) :=
    reachable_after (by decide +kernel)
  obtain ⟨trace, hrun⟩ := hreachable
  exact ⟨trace, hrun, Connection.reenters_justified_iff hrun⟩

/-- A prepared transition to version 0. -/
def downgradeEvent : Event (referenceSetting referenceUser) :=
  .message (.davePrepareTransition (some 3) (some 0)) {}

/-- The server only prepares a transition to version 0, and the client sends
plaintext from then on. -/
theorem reenters_unjustified_of_prepare : ∃ trace c,
    (referenceMachine referenceUser).Run trace c ∧
      ∃ t ∈ trace, Reenters t ∧ ¬ Justified t := by
  have hreachable : (referenceMachine referenceUser).Reachable (after referenceUser joinEvents) :=
    reachable_after (by decide +kernel)
  obtain ⟨trace, hrun⟩ := hreachable
  obtain ⟨d, hd, hpass⟩ := Option.map_eq_some_iff.mp passthroughMode_joinEvents
  have hprepare : Connection.PreparesDowngrade (after referenceUser joinEvents) downgradeEvent :=
    ⟨3, some 0, {}, d, rfl, by decide, rfl, hd, hpass⟩
  have hsome : ((after referenceUser joinEvents).step downgradeEvent).isSome = true := by
    decide +kernel
  obtain ⟨c, hstep⟩ := Option.isSome_iff_exists.mp hsome
  have htaken : (referenceMachine referenceUser).step (after referenceUser joinEvents)
      downgradeEvent = some c := hstep
  obtain ⟨hreenters, hlog⟩ := Connection.step_preparesDowngrade hstep hprepare
  refine ⟨_, c, hrun.step htaken, _, List.mem_cons_self, hreenters, ?_⟩
  rintro ⟨done, hdone, action, hmem, -⟩
  simp only [hlog, List.self_eq_append_left] at hdone
  rw [hdone] at hmem
  exact absurd hmem List.not_mem_nil

end Ekizu.Voice
