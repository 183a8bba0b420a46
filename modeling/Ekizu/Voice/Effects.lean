import Ekizu.Voice.Gateway

/-!
# What a step does to the DAVE state

The handlers and continuations of a connection do a small number of things to
its DAVE state, each of them at once.  `Effect` lists these things, and every
step of the machine is a sequence of them.  Invariants of the DAVE state are
proved for the effects and hold in every reachable state of the connection.

## Main results

* `step_effects` — every step of a connection is a sequence of effects.
* `reachable_core` — the invariant rule that follows.
-/

namespace Ekizu.Voice

open Dave Lib.Decimal Lib.Runs

variable {W : Setting} {H : Type} [HashRatchet H]

/-- The DAVE state and the log. -/
abbrev Core (W : Setting) (H : Type) := Option (DaveState W H) × List (Action W)

/-- Effects on the DAVE state.  `downgrades` tells whether a prepared downgrade
may switch the encryptor to passthrough. -/
inductive Effect (downgrades : Prop) : Core W H → Core W H → Prop
  /-- `Ready` without DAVE state. -/
  | setUp (log : List (Action W)) (ssrc : UInt32) (key : Option W.mls.SignaturePrivateKey) :
      Effect downgrades (none, log)
        (some {
          session := { signingKeyId := W.sessionId }
          transientKey := key
          encryptor := (({} : Encryptor H).assignSsrcToCodec ssrc .opus).setPassthroughMode true },
        .setUpUdp :: log)
  /-- `Ready` with DAVE state. -/
  | setUpAgain (d : DaveState W H) (log : List (Action W)) (ssrc : UInt32) :
      Effect downgrades (some d, log)
        (some { d with
          encryptor := (d.encryptor.assignSsrcToCodec ssrc .opus).setPassthroughMode true },
        .setUpUdp :: log)
  | setVersion (d : DaveState W H) (log : List (Action W)) (version : UInt16) :
      Effect downgrades (some d, log)
        (some { d with
          protocolVersion := version
          session := d.session.setProtocolVersion version }, log)
  | resetSession (d : DaveState W H) (log : List (Action W)) :
      Effect downgrades (some d, log)
        (some { d with session := d.session.reset }, .resetSession :: log)
  | startMls (d : DaveState W H) (log : List (Action W)) (ssrc : UInt32)
      (session : Session W.mls) (key : Option W.mls.SignaturePrivateKey)
      (hsession : session.currentState = none) :
      Effect downgrades (some d, log)
        (some { d with
          session
          transientKey := key
          encryptor := (({} : Encryptor H).assignSsrcToCodec ssrc .opus).setPassthroughMode true },
        .startedMls :: log)
  /-- Anything the session does within its epoch. -/
  | useSession (d : DaveState W H) (log : List (Action W)) (session : Session W.mls)
      (hsession : session.currentState = d.session.currentState) :
      Effect downgrades (some d, log) (some { d with session }, log)
  | commit (d : DaveState W H) (log : List (Action W)) (session : Session W.mls)
      (changeMap : RosterMap) (state : W.mls.State)
      (hsession : session.currentState = some state) :
      Effect downgrades (some d, log)
        (some { d with session, cachedRosterMap := changeMap },
        .committed session.epoch :: log)
  | welcome (d : DaveState W H) (log : List (Action W)) (session : Session W.mls)
      (changeMap : RosterMap) (state : W.mls.State) (env : Env W)
      (hbefore : d.session.currentState = none)
      (hsession : session.currentState = some state) :
      Effect downgrades (some d, log)
        (some (Connection.installReceivers { d with session } changeMap env),
        .welcomed session.epoch changeMap.keys :: log)
  /-- A transition to version 0. -/
  | executeZero (d : DaveState W H) (log : List (Action W)) :
      Effect downgrades (some d, log)
        (some { d with
          doneReady := false
          protocolVersion := 0
          session := (d.session.setProtocolVersion 0).reset
          encryptor := d.encryptor.setPassthroughMode true },
        .resetSession :: .executing 0 :: log)
  /-- A transition to another version begins. -/
  | execute (d : DaveState W H) (log : List (Action W)) (version : Int) (hversion : version ≠ 0) :
      Effect downgrades (some d, log)
        (some { d with
          doneReady := false
          protocolVersion := Connection.toProtocolVersion version
          session := d.session.setProtocolVersion (Connection.toProtocolVersion version) },
        .executing version :: log)
  | installSender (d : DaveState W H) (log : List (Action W)) (state : W.mls.State)
      (secret : Bytes) (hstate : d.session.currentState = some state)
      (hsecret : W.mls.mediaSecret state W.userId = some secret) :
      Effect downgrades (some d, log)
        (some { d with encryptor :=
          d.encryptor.setKeyRatchet (some (.mls (HashRatchet.ofSecret secret))) },
        .installedSender (W.mls.epochOf state) :: log)
  | noSender (d : DaveState W H) (log : List (Action W))
      (hratchet : d.encryptor.hasKeyRatchet = false) :
      Effect downgrades (some d, log)
        (some { d with encryptor := d.encryptor.setPassthroughMode true },
        .noSenderRatchet :: log)
  | transition (d : DaveState W H) (log : List (Action W)) (version : Int)
      (hratchet : d.encryptor.hasKeyRatchet = true) :
      Effect downgrades (some d, log)
        (some { d with encryptor := d.encryptor.setPassthroughMode false },
        .transitioned version :: log)
  | prepareDowngrade (d : DaveState W H) (log : List (Action W)) (hallowed : downgrades) :
      Effect downgrades (some d, log)
        (some { d with encryptor := d.encryptor.setPassthroughMode true }, log)
  | speak (d : DaveState W H) (log : List (Action W)) (name : Bytes) (userId : UInt64)
      (state : W.mls.State) (secret : Bytes) (now created : Instant)
      (hname : stoull name = some userId) (hstate : d.session.currentState = some state)
      (hsecret : W.mls.mediaSecret state userId = some secret) :
      Effect downgrades (some d, log)
        (some (d.installDecryptor name (.mls (HashRatchet.ofSecret secret)) now created),
        .spoke name :: log)
  /-- A frame that was not delivered. -/
  | dropFrame (d : DaveState W H) (log : List (Action W)) (name frame : Bytes)
      (decryptor : Decryptor H) (clock : DecryptClock) (call : Decryption H)
      (hfound : d.decryptors.lookup name = some decryptor)
      (hcall : decryptor.decrypt W.gcm .audio clock frame (List.replicate frame.length 0) =
        some call) :
      Effect downgrades (some d, log)
        (some { d with decryptors := d.decryptors.insert name call.decryptor }, log)
  /-- A frame that was delivered. -/
  | deliver (d : DaveState W H) (log : List (Action W)) (name frame : Bytes)
      (decryptor : Decryptor H) (clock : DecryptClock) (call : Decryption H) (written : Nat)
      (hsize : minDaveFrameSize ≤ frame.length)
      (hfound : d.decryptors.lookup name = some decryptor)
      (hcall : decryptor.decrypt W.gcm .audio clock frame (List.replicate frame.length 0) =
        some call)
      (hresult : call.result = some written) :
      Effect downgrades (some d, log)
        (some { d with
          decryptors := d.decryptors.insert name call.decryptor
          doneReady := true }, .delivered name frame :: log)
  | encrypt (d : DaveState W H) (log : List (Action W)) (ssrc : UInt32) (frame out : Bytes)
      (encryptor : Encryptor H) (result : Except DaveError (Nat × Bytes))
      (used : Option (Bytes × Bytes)) (hpass : d.encryptor.passthroughMode = false)
      (hratchet : d.encryptor.hasKeyRatchet = true)
      (hcall : d.encryptor.encrypt W.gcm .audio ssrc frame out = some (encryptor, result))
      (hused : used = if result.isOk then Connection.usedPair encryptor else none) :
      Effect downgrades (some d, log) (some { d with encryptor }, .encrypted used :: log)
  | stop (dave : Option (DaveState W H)) (log : List (Action W)) :
      Effect downgrades (dave, log) (none, log)

/-- The log only grows. -/
theorem Effect.log_grows {downgrades : Prop} {k k' : Core W H} (h : Effect downgrades k k') :
    ∃ recent, k'.2 = recent ++ k.2 := by
  cases h with
  | setVersion | useSession | prepareDowngrade | dropFrame | stop => exact ⟨[], rfl⟩
  | executeZero => exact ⟨[_, _], rfl⟩
  | _ => exact ⟨[_], rfl⟩

/-- Sequences of effects. -/
abbrev Effects (downgrades : Prop) : Core W H → Core W H → Prop :=
  Relation.ReflTransGen (Effect downgrades)

namespace Connection

/-- The DAVE state and the log of a connection. -/
def core (c : Connection W H) : Core W H := (c.dave, c.log)

variable {c c' : Connection W H} {d : DaveState W H} {downgrades : Prop}

/-! ## The executor leaves the DAVE state alone -/

omit [HashRatchet H] in
@[simp] theorem core_post (task : Task) : (c.post task).core = c.core := rfl

omit [HashRatchet H] in
@[simp] theorem core_listen : c.listen.core = c.core := by
  unfold listen
  split <;> rfl

omit [HashRatchet H] in
@[simp] theorem core_sendVoice (h : Handler) : (c.sendVoice h).core = c.core := by
  unfold sendVoice
  split <;> rfl

omit [HashRatchet H] in
@[simp] theorem core_sendReady (transitionId : UInt16) :
    (c.sendReady transitionId).core = c.core := core_sendVoice _

omit [HashRatchet H] in
@[simp] theorem core_afterMls (ok : Bool) : (c.afterMls ok).core = c.core := by
  unfold afterMls
  split
  · exact core_listen
  · dsimp only
    rw [core_listen]
    split <;> rfl

omit [HashRatchet H] in
@[simp] theorem core_initiateReconnect : c.initiateReconnect.core = c.core := by
  unfold initiateReconnect
  split <;> rfl

omit [HashRatchet H] in
@[simp] theorem core_maintainSync (frameCount : Nat) :
    (c.maintainSync frameCount).core = c.core := rfl

omit [HashRatchet H] in
@[simp] theorem core_transmit (payload : Bytes) (frameCount : Nat) :
    (c.transmit payload frameCount).core = c.core := by
  simp only [transmit]
  split <;> rfl

omit [HashRatchet H] in
theorem core_of_dave (h : c.dave = some d) : c.core = (some d, c.log) := by
  rw [core, h]

/-- The loop of the Welcome handler leaves a member alone or installs the
decryptor of its ratchet. -/
theorem installReceiver_cases (d : DaveState W H) (env : Env W) (userId : UInt64) :
    d.installReceiver env userId = d ∨
      ∃ ratchet, userId ≠ W.userId ∧ d.session.getKeyRatchet H userId = some ratchet ∧
        d.installReceiver env userId =
          d.installDecryptor (toDecimal userId) ratchet (env.now userId) (env.created userId) := by
  unfold DaveState.installReceiver
  split
  · exact .inl rfl
  · next hself =>
      split
      · next ratchet hratchet => exact .inr ⟨ratchet, hself, hratchet, rfl⟩
      · exact .inl rfl

/-- The loop of the Welcome handler installs decryptors and nothing else. -/
theorem foldl_installReceiver_eq (env : Env W) (users : List UInt64) :
    ∀ d : DaveState W H, ∃ decryptors,
      users.foldl (fun d userId => d.installReceiver env userId) d = { d with decryptors } := by
  induction users with
  | nil => exact fun d => ⟨d.decryptors, rfl⟩
  | cons userId users ih =>
      intro d
      rw [List.foldl_cons]
      rcases installReceiver_cases d env userId with heq | ⟨ratchet, -, -, heq⟩
      · rw [heq]
        exact ih d
      · rw [heq]
        exact ih (d.installDecryptor _ _ _ _)

@[simp] theorem encryptor_installReceivers (d : DaveState W H) (changeMap : RosterMap)
    (env : Env W) : (installReceivers d changeMap env).encryptor = d.encryptor := by
  obtain ⟨decryptors, heq⟩ := foldl_installReceiver_eq env changeMap.keys d
  rw [installReceivers, heq]

@[simp] theorem session_installReceivers (d : DaveState W H) (changeMap : RosterMap)
    (env : Env W) : (installReceivers d changeMap env).session = d.session := by
  obtain ⟨decryptors, heq⟩ := foldl_installReceiver_eq env changeMap.keys d
  rw [installReceivers, heq]

/-! ## Ratchets and transitions -/

/-- `update_ratchets` gives the encryptor the ratchet of the epoch, if there is
one; its loop runs over no user. -/
theorem updateRatchets_effects (h : c.dave = some d) (env : Env W) :
    Effects downgrades c.core (c.updateRatchets d env).core := by
  rw [core_of_dave h]
  simp only [updateRatchets, daveUserList, List.foldl_nil]
  split
  · exact .refl
  · next ratchet hratchet =>
      obtain ⟨state, secret, hstate, hsecret, rfl⟩ :=
        (Session.getKeyRatchet_eq_some_iff _).mp hratchet
      simp only [hstate, Option.map_some, Option.getD_some]
      exact .single (.installSender d c.log state secret hstate hsecret)

theorem finishTransition_effects (version : Int) (ok : Bool) (env : Env W) :
    Effects downgrades c.core (c.finishTransition version ok env).core := by
  unfold finishTransition
  split
  · rw [core_listen]
  · next d hd =>
      split
      · rw [core_listen]
      · refine (updateRatchets_effects hd env).trans ?_
        generalize c.updateRatchets d env = c₁
        dsimp only
        split
        · rw [core_listen]
        · next d₁ hd₁ =>
            rw [core_of_dave hd₁]
            split
            · next hratchet =>
                rw [core_listen]
                exact .single (.transition d₁ c₁.log version hratchet)
            · next hratchet =>
                rw [core_listen]
                exact .single (.noSender d₁ c₁.log (by simpa using hratchet))

theorem resetSession_effects : Effects downgrades c.core c.resetSession.core := by
  unfold resetSession
  split
  · exact .refl
  · next d hd =>
      rw [core_of_dave hd]
      exact .single (.resetSession d c.log)

theorem complete_effects {h : Handler} {ok : Bool} {env : Env W}
    (hrun : c.complete h ok env = some c') : Effects downgrades c.core c'.core := by
  cases h with
  | listen =>
      obtain rfl := Option.some.inj hrun
      rw [core_listen]
  | afterMls =>
      obtain rfl := Option.some.inj hrun
      rw [core_afterMls]
  | transition version =>
      obtain rfl := Option.some.inj hrun
      exact finishTransition_effects version ok env
  | executeNow =>
      simp only [complete] at hrun
      split at hrun
      · obtain rfl := Option.some.inj hrun
        rw [core_listen]
      · obtain ⟨d, -, rfl⟩ := Option.map_eq_some_iff.mp hrun
        exact .refl
  | recover =>
      simp only [complete] at hrun
      split at hrun
      · obtain rfl := Option.some.inj hrun
        rw [core_listen]
      · obtain rfl := Option.some.inj hrun
        exact resetSession_effects

/-! ## Starting MLS -/

theorem sendMlsKeyPackage_effects (h : Handler) (env : Env W) :
    Effects downgrades c.core (c.sendMlsKeyPackage h env).core := by
  unfold sendMlsKeyPackage
  split
  · exact .refl
  · next d hd =>
      rw [core_of_dave hd]
      dsimp only
      have heffect : Effect downgrades (some d, c.log)
          (some { d with session := (d.session.getMarshalledKeyPackage env.entropy).1 }, c.log) :=
        .useSession d c.log _ (d.session.currentState_getMarshalledKeyPackage env.entropy)
      split
      · exact .single heffect
      · rw [core_sendVoice]
        exact .single heffect

theorem startMls_effects (hd : c.dave = some d) (h : Handler) (env : Env W) :
    Effects downgrades c.core (c.startMls d h env).core := by
  rw [core_of_dave hd]
  unfold startMls
  refine .trans (.single ?_) (sendMlsKeyPackage_effects h env)
  exact .startMls d c.log c.ssrc _ _ (d.session.currentState_init ..)

theorem maybeStartMls_effects {forceReset : Bool} {h : Handler} {env : Env W}
    (hrun : c.maybeStartMls forceReset h env = some c') :
    Effects downgrades c.core c'.core := by
  unfold maybeStartMls at hrun
  split at hrun
  · exact complete_effects hrun
  · split at hrun
    · exact complete_effects hrun
    · have hreset : Effects downgrades c.core
          (if forceReset then c.resetSession else c).core := by
        split
        · exact resetSession_effects
        · exact .refl
      refine hreset.trans ?_
      generalize (if forceReset = true then c.resetSession else c) = c₁ at hrun
      dsimp only at hrun
      split at hrun
      · exact complete_effects hrun
      · next d₁ hd₁ =>
          split at hrun
          · exact complete_effects hrun
          · split at hrun
            · exact complete_effects hrun
            · obtain rfl := Option.some.inj hrun
              exact startMls_effects hd₁ h env

theorem executeTransition_effects {version : Int} {env : Env W}
    (hrun : c.executeTransition version env = some c') : Effects downgrades c.core c'.core := by
  unfold executeTransition at hrun
  split at hrun
  · obtain rfl := Option.some.inj hrun
    rw [core_listen]
  · next d hd =>
      rw [core_of_dave hd]
      dsimp only at hrun
      split at hrun
      · next hversion =>
          subst hversion
          obtain rfl := Option.some.inj hrun
          rw [core_listen]
          exact .single (.executeZero d c.log)
      · next hversion =>
          exact .trans (.single (.execute d c.log version hversion)) (maybeStartMls_effects hrun)

/-! ## Messages of the group -/

theorem announceCommit_effects (hd : c.dave = some d) (payload : Bytes) :
    Effects downgrades c.core (c.announceCommit d payload).core := by
  unfold announceCommit
  split
  · rw [core_listen]
  · rw [core_of_dave hd]
    have hcases := d.session.processCommit_cases (payload.drop 2)
    generalize d.session.processCommit (payload.drop 2) = result at hcases
    obtain ⟨session, outcome⟩ := result
    rcases hcases with ⟨hsame, hnone⟩ | ⟨state, hstate, houtcome⟩
    · have hstate : session.currentState = d.session.currentState := hsame
      cases outcome with
      | roster changeMap => exact absurd rfl (hnone changeMap)
      | failed =>
          rw [core_sendVoice]
          exact .single (.useSession d c.log session hstate)
      | ignored =>
          rw [core_sendVoice]
          exact .single (.useSession d c.log session hstate)
    · obtain rfl : outcome = _ := houtcome
      rw [core_sendReady]
      exact .single (.commit d c.log session _ state hstate)

theorem welcome_effects (hd : c.dave = some d) (payload : Bytes) (env : Env W) :
    Effects downgrades c.core (c.welcome d payload env).core := by
  unfold welcome
  split
  · rw [core_listen]
  · rw [core_of_dave hd]
    have hcases := d.session.processWelcome_cases (payload.drop 2)
    generalize d.session.processWelcome (payload.drop 2) = result at hcases
    obtain ⟨session, outcome⟩ := result
    rcases hcases with ⟨hsame, hnone⟩ | ⟨state, hbefore, hstate, houtcome⟩
    · obtain rfl : session = d.session := hsame
      obtain rfl : outcome = none := hnone
      rw [core_sendVoice]
      exact .single (.useSession d c.log _ rfl)
    · obtain rfl : outcome = _ := houtcome
      rw [core_sendReady]
      exact .single (.welcome d c.log session _ state env hbefore hstate)

theorem handleBinaryEvent_effects {op : BinaryOpcode} {payload : Bytes} {env : Env W}
    (hrun : c.handleBinaryEvent op payload env = some c') :
    Effects downgrades c.core c'.core := by
  unfold handleBinaryEvent at hrun
  split at hrun
  · obtain rfl := Option.some.inj hrun
    rw [core_listen]
  · next d hd =>
      cases op with
      | daveMlsExternalSender =>
          rw [core_of_dave hd]
          refine .trans (.single ?_) (maybeStartMls_effects hrun)
          exact .useSession d c.log _ (d.session.currentState_setExternalSender payload)
      | daveMlsProposals =>
          have hsame := d.session.currentState_processProposals env.entropy payload c.recognized
          dsimp only at hrun
          generalize d.session.processProposals env.entropy payload c.recognized = result
            at hrun hsame
          obtain ⟨session, outcome⟩ := result
          rw [core_of_dave hd]
          cases outcome with
          | none =>
              obtain rfl := Option.some.inj hrun
              rw [core_listen]
              exact .single (.useSession d c.log session hsame)
          | some commit =>
              obtain rfl := Option.some.inj hrun
              rw [core_sendVoice]
              exact .single (.useSession d c.log session hsame)
      | daveMlsAnnounceCommitTransition =>
          obtain rfl := Option.some.inj hrun
          exact announceCommit_effects hd payload
      | daveMlsWelcome =>
          obtain rfl := Option.some.inj hrun
          exact welcome_effects hd payload env
      | other =>
          obtain rfl := Option.some.inj hrun
          rw [core_listen]

/-! ## Sessions and speakers -/

theorem setupUdp_effects (ssrc : UInt32) (entropy : Entropy W.mls) :
    Effects downgrades c.core (c.setupUdp ssrc entropy).core := by
  cases hd : c.dave with
  | none =>
      have hsetup : (c.setupUdp ssrc entropy).core = (some _, .setUpUdp :: c.log) := rfl
      rw [hsetup, hd, core, hd]
      exact .single (.setUp c.log ssrc entropy.persistedKey)
  | some d =>
      have hsetup : (c.setupUdp ssrc entropy).core = (some _, .setUpUdp :: c.log) := rfl
      rw [hsetup, hd, core, hd]
      exact .single (.setUpAgain d c.log ssrc)

theorem handleSessionDescription_effects {description : SessionDescription} {env : Env W}
    (hrun : c.handleSessionDescription description env = some c') :
    Effects downgrades c.core c'.core := by
  unfold handleSessionDescription at hrun
  dsimp only at hrun
  split at hrun
  · obtain rfl := Option.some.inj hrun
    rw [core_listen]
    exact .refl
  · split at hrun
    · obtain rfl := Option.some.inj hrun
      rw [core_afterMls]
      exact .refl
    · next d hd =>
        rw [core_of_dave (show c.dave = some d from hd)]
        refine .trans (.single (.setVersion d c.log
          (toProtocolVersion (description.daveProtocolVersion.getD 0)))) ?_
        split at hrun
        · exact maybeStartMls_effects hrun
        · obtain rfl := Option.some.inj hrun
          rw [core_afterMls]
          exact .refl

theorem onSpeaking_effects (name : Bytes) (ssrc : UInt32) (speaking : Bool) (env : Env W) :
    Effects downgrades c.core (c.onSpeaking name ssrc speaking env).core := by
  unfold onSpeaking
  split
  · exact .refl
  · dsimp only
    split
    · exact .refl
    · next d hd =>
        unfold installSpeaker
        split
        · exact .refl
        · split
          · exact .refl
          · next userId hname =>
              split
              · exact .refl
              · next ratchet hratchet =>
                  obtain ⟨state, secret, hstate, hsecret, rfl⟩ :=
                    (Session.getKeyRatchet_eq_some_iff _).mp hratchet
                  rw [core_of_dave (show c.dave = some d from hd)]
                  exact .single (.speak d c.log name userId state secret _ _ hname hstate hsecret)

theorem close_effects (hrun : c.close = some c') : Effects downgrades c.core c'.core := by
  obtain ⟨d, -, rfl⟩ := Option.map_eq_some_iff.mp hrun
  split
  · exact .refl
  · split <;> exact .refl

theorem runTask_effects {task : Task} {env : Env W} (hrun : c.runTask task env = some c') :
    Effects downgrades c.core c'.core := by
  cases task with
  | listen =>
      obtain rfl := Option.some.inj hrun
      rw [core_listen]
  | complete h ok => exact complete_effects hrun
  | sessionDescription description => exact handleSessionDescription_effects hrun
  | binaryEvent op payload => exact handleBinaryEvent_effects hrun
  | maybeStartMls forceReset h => exact maybeStartMls_effects hrun
  | executeTransition version => exact executeTransition_effects hrun
  | speaking name ssrc speaking =>
      obtain rfl := Option.some.inj hrun
      exact onSpeaking_effects name ssrc speaking env
  | close => exact close_effects hrun

/-! ## Packets -/

theorem receive_effects {clock : DecryptClock} {data : Bytes}
    (hrun : c.receive clock data = some c') : Effects downgrades c.core c'.core := by
  obtain ⟨⟨c₁, packet⟩, hprocess, hrun⟩ := Option.bind_eq_some_iff.mp hrun
  have hcore : c'.core = c₁.core := by
    dsimp only at hrun
    split at hrun
    · simp at hrun
    · obtain rfl := Option.some.inj hrun
      split <;> rfl
  rw [hcore]
  rcases process_cases hprocess with ⟨rfl, -⟩ | ⟨m, -, -, rfl, -⟩ | ⟨m, userId, -, rfl, -, -⟩ |
    ⟨d, m, name, decryptor, call, hdecrypts, hcase⟩
  · exact .refl
  · exact .refl
  · exact .refl
  · rw [core_of_dave (receiverDave_eq_some hdecrypts.enabled)]
    rcases hcase with ⟨-, -, rfl⟩ | ⟨written, hresult, -, rfl⟩
    · exact .single (.dropFrame d c.log name m.mediaPayload decryptor clock call hdecrypts.found
        hdecrypts.called)
    · exact .single (.deliver d c.log name m.mediaPayload decryptor clock call written
        hdecrypts.size hdecrypts.found hdecrypts.called hresult)

theorem send_effects {packet : AudioPacket} (hrun : c.send packet = some c') :
    Effects downgrades c.core c'.core := by
  unfold send at hrun
  split at hrun
  · obtain rfl := Option.some.inj hrun
    exact .refl
  · split at hrun
    · obtain rfl := Option.some.inj hrun
      rw [core_transmit]
    · next d hd =>
        obtain ⟨hdave, henabled⟩ := Option.filter_eq_some_iff.mp hd
        simp only [decide_eq_true_eq] at henabled
        rw [core_of_dave hdave]
        obtain ⟨⟨encryptor, result⟩, hcall, hrun⟩ := Option.bind_eq_some_iff.mp hrun
        cases result with
        | error err =>
            obtain rfl := Option.some.inj hrun
            rw [core_maintainSync]
            exact .single
              (.encrypt d c.log c.ssrc _ _ encryptor _ _ henabled.1 henabled.2 hcall rfl)
        | ok written =>
            obtain ⟨n, ciphertext⟩ := written
            obtain rfl := Option.some.inj hrun
            rw [core_transmit]
            exact .single
              (.encrypt d c.log c.ssrc _ _ encryptor _ _ henabled.1 henabled.2 hcall rfl)

/-! ## Server messages -/

/-- The version a `DavePrepareTransition` message asks for. -/
def preparedVersion (c : Connection W H) (protocolVersion : Option Int) : Int :=
  protocolVersion.getD ((c.dave.map fun d => (d.protocolVersion.toNat : Int)).getD 0)

/-- The event is a `DavePrepareTransition` to version 0 with an id other than 0,
received while the encryptor is out of passthrough. -/
def PreparesDowngrade (c : Connection W H) (event : Event W) : Prop :=
  ∃ transitionId protocolVersion entropy d,
    event = .message (.davePrepareTransition (some transitionId) protocolVersion) entropy ∧
      transitionId ≠ 0 ∧ c.preparedVersion protocolVersion = 0 ∧ c.dave = some d ∧
      d.encryptor.passthroughMode = false

theorem enablePassthrough_effects
    (hallowed : ∀ d, c.dave = some d → d.encryptor.passthroughMode = false → downgrades) :
    Effects downgrades c.core c.enablePassthrough.core := by
  cases hd : c.dave with
  | none =>
      simp only [core, enablePassthrough, hd, Option.map_none]
      exact .refl
  | some d =>
      simp only [core, enablePassthrough, hd, Option.map_some]
      by_cases hpass : d.encryptor.passthroughMode = false
      · exact .single (.prepareDowngrade d c.log (hallowed d hd hpass))
      · have hsame : d.encryptor.setPassthroughMode true = d.encryptor := by
          simp only [Encryptor.setPassthroughMode]
          rw [← Bool.eq_true_of_not_eq_false hpass]
        rw [hsame]

theorem prepareTransition_effects {transitionId : UInt16} {protocolVersion : Option Int}
    (hallowed : ∀ d, c.dave = some d → transitionId ≠ 0 →
      c.preparedVersion protocolVersion = 0 → d.encryptor.passthroughMode = false → downgrades)
    (hrun : c.prepareTransition transitionId protocolVersion = some c') :
    Effects downgrades c.core c'.core := by
  unfold prepareTransition at hrun
  dsimp only at hrun
  split at hrun
  · split at hrun
    · obtain rfl := Option.some.inj hrun
      exact .refl
    · obtain rfl := Option.some.inj hrun
      rw [core_listen]
      exact .refl
  · next hid =>
      set c₁ : Connection W H := { c with daveTransitionVersions := _ } with hc₁
      have heffects : Effects downgrades c.core
          (if c.preparedVersion protocolVersion = 0 then c₁.enablePassthrough else c₁).core := by
        split
        · next hversion =>
            exact enablePassthrough_effects (c := c₁) fun d hd => hallowed d hd hid hversion
        · exact .refl
      refine heffects.trans ?_
      unfold preparedVersion
      generalize (if _ = (0 : Int) then c₁.enablePassthrough else c₁) = c₂ at hrun ⊢
      split at hrun
      · simp at hrun
      · obtain rfl := Option.some.inj hrun
        exact .refl

theorem prepareEpoch_effects (version : Int) :
    Effects downgrades c.core (c.prepareEpoch version).core := by
  unfold prepareEpoch
  dsimp only
  rw [core_post]
  split
  · exact .refl
  · next d hd =>
      rw [core_of_dave hd]
      exact .trans (.single (.setVersion d c.log (toProtocolVersion version)))
        (.single (.resetSession _ c.log))

theorem handleMessage_effects {message : ServerMessage} {entropy : Entropy W.mls}
    (hallowed : ∀ transitionId protocolVersion d,
      message = .davePrepareTransition (some transitionId) protocolVersion →
      c.dave = some d → transitionId ≠ 0 → c.preparedVersion protocolVersion = 0 →
      d.encryptor.passthroughMode = false → downgrades)
    (hrun : c.handleMessage message entropy = some c') : Effects downgrades c.core c'.core := by
  cases message with
  | ready ssrc =>
      obtain rfl := Option.some.inj hrun
      exact setupUdp_effects ssrc entropy
  | davePrepareTransition transitionId protocolVersion =>
      cases transitionId with
      | none =>
          obtain rfl := Option.some.inj hrun
          rw [core_listen]
      | some transitionId =>
          exact prepareTransition_effects (fun d => hallowed _ _ d rfl) hrun
  | daveExecuteTransition transitionId =>
      cases transitionId with
      | none =>
          obtain rfl := Option.some.inj hrun
          rw [core_listen]
      | some transitionId =>
          obtain rfl := Option.some.inj hrun
          exact .refl
  | davePrepareEpoch epoch protocolVersion =>
      simp only [handleMessage] at hrun
      split at hrun
      · obtain rfl := Option.some.inj hrun
        exact prepareEpoch_effects _
      · obtain rfl := Option.some.inj hrun
        rw [core_listen]
  | hello =>
      simp only [handleMessage] at hrun
      split at hrun
      · simp at hrun
      · obtain rfl := Option.some.inj hrun
        split <;> exact .refl
  | ignored =>
      obtain rfl := Option.some.inj hrun
      rw [core_listen]
  | sessionDescription description =>
      obtain rfl := Option.some.inj hrun
      exact .refl
  | resumed =>
      obtain rfl := Option.some.inj hrun
      rw [core_listen]
      exact .refl
  | speaking userId ssrc speaking =>
      obtain rfl := Option.some.inj hrun
      rw [core_listen]
      exact .refl
  | clientsConnect userIds =>
      obtain rfl := Option.some.inj hrun
      rw [core_listen]
      exact .refl
  | clientDisconnect userId =>
      obtain rfl := Option.some.inj hrun
      rw [core_listen]
      exact .refl
  | binary op payload =>
      obtain rfl := Option.some.inj hrun
      exact .refl

/-! ## Every step -/

/-- **Refinement.**  A step of the connection is a sequence of effects; the
encryptor is switched to passthrough by a prepared downgrade only in the step
that receives it. -/
theorem step_effects {event : Event W} (hrun : c.step event = some c') :
    Effects (PreparesDowngrade c event) c.core c'.core := by
  cases event with
  | run =>
      obtain rfl := Option.some.inj hrun
      split <;> exact .refl
  | message message entropy =>
      simp only [step] at hrun
      split at hrun
      · simp at hrun
      · refine handleMessage_effects (c := { c with reads := c.reads - 1 }) ?_ hrun
        rintro transitionId protocolVersion d rfl hd hid hversion hpass
        exact ⟨transitionId, protocolVersion, entropy, d, rfl, hid, hversion, hd, hpass⟩
  | readFailed closeCode =>
      simp only [step] at hrun
      split at hrun
      · simp at hrun
      · obtain rfl := Option.some.inj hrun
        unfold readFailed
        split
        · rw [core_initiateReconnect]
          exact .refl
        · exact .refl
  | task i env =>
      obtain ⟨task, -, hrun⟩ := Option.bind_eq_some_iff.mp hrun
      exact runTask_effects (c := { c with tasks := c.tasks.eraseIdx i }) hrun
  | sent i ok env =>
      obtain ⟨h, -, hrun⟩ := Option.bind_eq_some_iff.mp hrun
      exact complete_effects (c := { c with sends := c.sends.eraseIdx i }) hrun
  | udpSetUp result =>
      simp only [step] at hrun
      split at hrun
      · simp at hrun
      · cases result with
        | bindFailed | connectFailed | discoveryFailed =>
            obtain rfl := Option.some.inj hrun
            rw [core_listen]
            exact .refl
        | done =>
            simp only [finishUdpSetup] at hrun
            split at hrun
            · simp at hrun
            · obtain rfl := Option.some.inj hrun
              exact .refl
  | heartbeatsMissed =>
      obtain rfl := Option.some.inj hrun
      rw [core_initiateReconnect]
  | reconnectTimer =>
      simp only [step] at hrun
      split at hrun
      · simp at hrun
      · obtain rfl := Option.some.inj hrun
        split <;> exact .refl
  | connected ok =>
      simp only [step] at hrun
      split at hrun
      · simp at hrun
      · obtain rfl := Option.some.inj hrun
        unfold finishConnect
        split <;> exact .refl
  | datagram clock data =>
      simp only [step] at hrun
      split at hrun
      · simp at hrun
      · exact receive_effects hrun
  | audio packet => exact send_effects hrun
  | datagramSent i =>
      obtain ⟨frameCount, -, hrun⟩ := Option.bind_eq_some_iff.mp hrun
      obtain rfl := Option.some.inj hrun
      exact .refl
  | close =>
      obtain rfl := Option.some.inj hrun
      exact .refl
  | closed =>
      simp only [step] at hrun
      split at hrun
      · simp at hrun
      · obtain rfl := Option.some.inj hrun
        exact .refl
  | requestStop =>
      obtain rfl := Option.some.inj hrun
      exact .single (.stop c.dave c.log)

theorem effects_mono {p q : Prop} (hpq : p → q) {k k' : Core W H} (h : Effect p k k') :
    Effect q k k' := by
  cases h with
  | prepareDowngrade d log hallowed => exact .prepareDowngrade d log (hpq hallowed)
  | _ => constructor <;> assumption

/-- **The invariant rule.**  What holds of no DAVE state and an empty log and is
kept by every effect holds in every reachable state. -/
theorem reachable_core {P : Core W H → Prop} (hstart : P (none, []))
    (heffect : ∀ k k', P k → Effect True k k' → P k')
    (h : (machine W H).Reachable c) : P c.core := by
  have hrefines : ∀ {s : Connection W H} {e : Event W} {s' : Connection W H},
      (machine W H).step s e = some s' → Effects True s.core s'.core := by
    intro s e s' hstep
    exact Relation.ReflTransGen.mono (fun _ _ => effects_mono fun _ => trivial) _ _
      (step_effects hstep)
  exact Machine.Reachable.view_invariant hrefines hstart heffect h

end Connection

end Ekizu.Voice
