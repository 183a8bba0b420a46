import Ekizu.Dave.SoleManager
import Ekizu.Voice.Effects
import Ekizu.Voice.Reference

/-!
# The ratchets of the receivers

Decryptors are made by two handlers: that of a Welcome, for the members it
changes, and that of a Speaking event.  `update_ratchets`, which every
transition calls, makes none, because the list of users it runs over is empty.

## Main results

* `ReceiverInv.effect` — what every effect keeps of the decryptors.
* `receivers_current` — the members that a Welcome or a Speaking event has
  covered in this epoch have a decryptor with the epoch's ratchet.
-/

namespace Ekizu.Voice

open Dave Lib.Decimal

variable {W : Setting} {H : Type} [HashRatchet H]

/-! ## What a Welcome installs -/

private theorem session_foldl (env : Env W) (users : List UInt64) (d : DaveState W H) :
    (users.foldl (fun d userId => d.installReceiver env userId) d).session = d.session := by
  obtain ⟨decryptors, heq⟩ := Connection.foldl_installReceiver_eq env users d
  rw [heq]

/-- An entry after the loop is the old one or a new decryptor of its user. -/
private theorem lookup_foldl (env : Env W) (users : List UInt64) (name : Bytes) :
    ∀ d : DaveState W H,
      (users.foldl (fun d userId => d.installReceiver env userId) d).decryptors.lookup name =
          d.decryptors.lookup name ∨
      ∃ userId ∈ users, ∃ ratchet, userId ≠ W.userId ∧ name = toDecimal userId ∧
        d.session.getKeyRatchet H userId = some ratchet ∧
        (users.foldl (fun d userId => d.installReceiver env userId) d).decryptors.lookup name =
          some (newDecryptor ratchet (env.now userId) (env.created userId)) := by
  induction users with
  | nil => exact fun _ => .inl rfl
  | cons userId users ih =>
      intro d
      have hsession : (d.installReceiver env userId).session = d.session :=
        session_foldl env [userId] d
      rw [List.foldl_cons]
      rcases ih (d.installReceiver env userId) with hsame | ⟨u, hu, ratchet, hne, hname, hr, hnew⟩
      · rw [hsame]
        rcases Connection.installReceiver_cases d env userId with
          heq | ⟨ratchet, hne, hratchet, heq⟩
        · rw [heq]
          exact .inl rfl
        · rw [heq]
          by_cases hname : name = toDecimal userId
          · subst hname
            exact .inr ⟨userId, List.mem_cons_self, ratchet, hne, rfl, hratchet,
              AList.lookup_insert _⟩
          · exact .inl (AList.lookup_insert_ne hname)
      · rw [hsession] at hr
        exact .inr ⟨u, List.mem_cons_of_mem userId hu, ratchet, hne, hname, hr, hnew⟩

/-- An entry after a Welcome is the old one or a new decryptor of its user. -/
theorem lookup_installReceivers (d : DaveState W H) (changeMap : RosterMap) (env : Env W)
    (name : Bytes) :
    (Connection.installReceivers d changeMap env).decryptors.lookup name =
        d.decryptors.lookup name ∨
      ∃ userId ∈ changeMap.keys, ∃ ratchet, userId ≠ W.userId ∧ name = toDecimal userId ∧
        d.session.getKeyRatchet H userId = some ratchet ∧
        (Connection.installReceivers d changeMap env).decryptors.lookup name =
          some (newDecryptor ratchet (env.now userId) (env.created userId)) :=
  lookup_foldl env changeMap.keys name d

/-- Every member that a Welcome changes gets a new decryptor. -/
theorem lookup_installReceivers_of_mem {d : DaveState W H} {changeMap : RosterMap} (env : Env W)
    {userId : UInt64} (hmem : userId ∈ changeMap.keys) (hne : userId ≠ W.userId)
    {ratchet : KeyRatchet H} (hratchet : d.session.getKeyRatchet H userId = some ratchet) :
    (Connection.installReceivers d changeMap env).decryptors.lookup (toDecimal userId) =
      some (newDecryptor ratchet (env.now userId) (env.created userId)) := by
  obtain ⟨before, rest, hsplit⟩ := List.append_of_mem hmem
  rw [Connection.installReceivers, hsplit, List.foldl_append, List.foldl_cons]
  have hsession := session_foldl env before d
  generalize before.foldl (fun d userId => d.installReceiver env userId) d = d₁ at hsession ⊢
  rw [← hsession] at hratchet
  -- the loop installs it here, and can only install the same again
  have hnow : d₁.installReceiver env userId =
      d₁.installDecryptor (toDecimal userId) ratchet (env.now userId) (env.created userId) := by
    simp only [DaveState.installReceiver, if_neg hne, hratchet]
  rw [hnow]
  rcases lookup_foldl env rest (toDecimal userId) (d₁.installDecryptor (toDecimal userId) ratchet
    (env.now userId) (env.created userId)) with hsame | ⟨u, -, r, -, hname, hr, hnew⟩
  · rw [hsame]
    exact AList.lookup_insert _
  · obtain rfl := toDecimal_injective hname
    obtain rfl := Option.some.inj (hratchet.symm.trans hr)
    exact hnew

/-! ## Members and the log -/

/-- The members of the current MLS roster. -/
def members (s : Session W.mls) : List UInt64 :=
  match s.currentState with
  | none => []
  | some state => (collectRoster (W.mls.roster state)).keys

/-- The members that were covered since the epoch began: named by the Welcome
that began it, or announced by a Speaking event under their decimal id. -/
def covered : List (Action W) → List UInt64
  | [] => []
  | .committed _ :: _ => []
  | .welcomed _ users :: _ => users
  | .spoke name :: log =>
      match stoull name with
      | some userId => if name = toDecimal userId then userId :: covered log else covered log
      | none => covered log
  | _ :: log => covered log

/-- MLS exports a secret for every user. -/
def ExportsTotal (M : Mls) : Prop := ∀ state userId, (M.mediaSecret state userId).isSome

variable [LawfulHashRatchet H]

/-- The user's decryptor exists and its newest manager was built from the
user's ratchet in the current epoch. -/
def HasCurrentRatchet (d : DaveState W H) (userId : UInt64) : Prop :=
  ∃ decryptor manager ratchet, d.decryptors.lookup (toDecimal userId) = some decryptor ∧
    decryptor.managers.getLast? = some manager ∧
    d.session.getKeyRatchet H userId = some ratchet ∧
    manager.ratchet.base = ratchet.base

/-- The decryptor has one manager, with the user's ratchet of an MLS state. -/
def Serves (state : W.mls.State) (userId : UInt64) (decryptor : Decryptor H) : Prop :=
  ∃ manager secret, Sole decryptor manager ∧ W.mls.mediaSecret state userId = some secret ∧
    manager.ratchet.base = .inl secret

theorem serves_new {state : W.mls.State} {userId : UInt64} {secret : Bytes}
    (hsecret : W.mls.mediaSecret state userId = some secret) (now created : Instant) :
    Serves state userId (newDecryptor (.mls (HashRatchet.ofSecret secret : H)) now created) :=
  ⟨_, secret, sole_new _ now created transitionExpiry, hsecret, by
    simp [CipherManager.new, KeyRatchet.base, LawfulHashRatchet.secretOf_ofSecret]⟩

theorem Serves.decrypt {state : W.mls.State} {userId : UInt64} {decryptor : Decryptor H}
    (h : Serves state userId decryptor) {clock : DecryptClock} {frame frameOut : Bytes}
    {call : Decryption H}
    (hcall : decryptor.decrypt W.gcm .audio clock frame frameOut = some call) :
    Serves state userId call.decryptor := by
  obtain ⟨manager, secret, hsole, hsecret, hbase⟩ := h
  obtain ⟨manager', hsole', hbase', -⟩ := hsole.decrypt hcall
  exact ⟨manager', secret, hsole', hsecret, hbase'.trans hbase⟩

/-! ## The invariant -/

/-- The covered members are served by their decryptors. -/
def ReceiverInv (k : Core W H) : Prop :=
  ∀ d, k.1 = some d → ∀ state, d.session.currentState = some state →
    ∀ userId ∈ covered k.2, userId ≠ W.userId →
      ∃ decryptor, d.decryptors.lookup (toDecimal userId) = some decryptor ∧
        Serves state userId decryptor

/-- Effects that touch neither the epoch nor a decryptor, and cover nobody. -/
private theorem ReceiverInv.skip {k k' : Core W H} (h : ReceiverInv k)
    (hcovered : covered k'.2 = covered k.2)
    (hsame : ∀ d', k'.1 = some d' → d'.session.currentState = none ∨
      ∃ d, k.1 = some d ∧ d'.session.currentState = d.session.currentState ∧
        d'.decryptors = d.decryptors) : ReceiverInv k' := by
  intro d' hd' state hstate userId hmem hne
  rcases hsame d' hd' with hnone | ⟨d, hd, hcurrent, hdecryptors⟩
  · rw [hnone] at hstate
    exact absurd hstate (by simp)
  · rw [hdecryptors]
    rw [hcovered] at hmem
    exact h d hd state (hcurrent.symm.trans hstate) userId hmem hne

/-- A decryptor took part in a call. -/
private theorem ReceiverInv.called {d : DaveState W H} {log : List (Action W)}
    (h : ReceiverInv (some d, log)) {name frame : Bytes} {decryptor : Decryptor H}
    {clock : DecryptClock} {call : Decryption H}
    (hfound : d.decryptors.lookup name = some decryptor)
    (hcall : decryptor.decrypt W.gcm .audio clock frame (List.replicate frame.length 0) =
      some call) {state : W.mls.State} (hstate : d.session.currentState = some state)
    {userId : UInt64} (hmem : userId ∈ covered log) (hne : userId ≠ W.userId) :
    ∃ decryptor', (d.decryptors.insert name call.decryptor).lookup (toDecimal userId) =
      some decryptor' ∧ Serves state userId decryptor' := by
  obtain ⟨served, hlookup, hserves⟩ := h d rfl state hstate userId hmem hne
  by_cases hname : toDecimal userId = name
  · subst hname
    obtain rfl := Option.some.inj (hfound.symm.trans hlookup)
    exact ⟨call.decryptor, AList.lookup_insert _, hserves.decrypt hcall⟩
  · exact ⟨served, (AList.lookup_insert_ne hname).trans hlookup, hserves⟩

/-- **One effect.** -/
theorem ReceiverInv.effect (htotal : ExportsTotal W.mls) {p : Prop} {k k' : Core W H}
    (h : ReceiverInv k) (heffect : Effect p k k') : ReceiverInv k' := by
  cases heffect with
  | setUp | resetSession | executeZero =>
      refine h.skip rfl ?_
      rintro d' ⟨⟩
      exact .inl rfl
  | startMls d log ssrc session key hsession =>
      refine h.skip rfl ?_
      rintro d' ⟨⟩
      exact .inl hsession
  | useSession d log session hsession =>
      refine h.skip rfl ?_
      rintro d' ⟨⟩
      exact .inr ⟨d, rfl, hsession, rfl⟩
  | setUpAgain d | setVersion d | execute d | installSender d | noSender d | transition d =>
      refine h.skip rfl ?_
      rintro d' ⟨⟩
      exact .inr ⟨d, rfl, rfl, rfl⟩
  | prepareDowngrade d | encrypt d =>
      refine h.skip rfl ?_
      rintro d' ⟨⟩
      exact .inr ⟨d, rfl, rfl, rfl⟩
  | stop =>
      refine h.skip rfl ?_
      rintro d' ⟨⟩
  | commit d log session changeMap state hsession =>
      intro d' hd' state' hstate' userId hmem
      exact absurd hmem List.not_mem_nil
  | welcome d log session changeMap state env hbefore hsession =>
      rintro d' ⟨⟩ state' hstate' userId hmem hne
      rw [Connection.session_installReceivers] at hstate'
      obtain ⟨secret, hsecret⟩ := Option.isSome_iff_exists.mp (htotal state' userId)
      have hratchet : session.getKeyRatchet H userId =
          some (.mls (HashRatchet.ofSecret secret)) :=
        (session.getKeyRatchet_eq_some_iff).mpr ⟨state', secret, hstate', hsecret, rfl⟩
      have hlookup := lookup_installReceivers_of_mem (d := { d with session }) env hmem hne hratchet
      exact ⟨_, hlookup, serves_new hsecret _ _⟩
  | speak d log name userId state secret now created hname hstate hsecret =>
      rintro d' ⟨⟩ state' hstate' u hmem hne
      obtain rfl := Option.some.inj (hstate.symm.trans hstate')
      by_cases hu : toDecimal u = name
      · -- the entry that was replaced is the one of this user
        subst hu
        rw [stoull_toDecimal] at hname
        obtain rfl := Option.some.inj hname
        exact ⟨_, AList.lookup_insert _, serves_new hsecret now created⟩
      · have hold : u ∈ covered log := by
          simp only [covered, hname] at hmem
          split at hmem
          · next heq =>
              rcases List.mem_cons.mp hmem with rfl | hmem
              · exact absurd heq.symm hu
              · exact hmem
          · exact hmem
        obtain ⟨served, hlookup, hserves⟩ := h d rfl state hstate u hold hne
        exact ⟨served, (AList.lookup_insert_ne hu).trans hlookup, hserves⟩
  | dropFrame d log name frame decryptor clock call hfound hcall =>
      rintro d' ⟨⟩ state hstate userId hmem hne
      exact h.called hfound hcall hstate hmem hne
  | deliver d log name frame decryptor clock call written hsize hfound hcall =>
      rintro d' ⟨⟩ state hstate userId hmem hne
      exact h.called hfound hcall hstate hmem hne

theorem receiverInv_of_reachable (htotal : ExportsTotal W.mls) {c : Connection W H}
    (h : (Connection.machine W H).Reachable c) : ReceiverInv c.core := by
  refine Connection.reachable_core ?_ ?_ h
  · intro d hd
    simp at hd
  · intro k k' hk heffect
    exact hk.effect htotal heffect

/-- **Receivers follow the group where they are covered.**  In every reachable
state, and so after every transition: if each member of the current roster
other than this client was named by the Welcome that began the epoch or
announced by a Speaking event since, then each of them has a decryptor whose
newest manager was built from its ratchet of the current epoch. -/
theorem receivers_current (htotal : ExportsTotal W.mls) {c : Connection W H}
    {d : DaveState W H} (h : (Connection.machine W H).Reachable c) (hd : c.dave = some d)
    (hcovered : ∀ userId ∈ members d.session, userId ≠ W.userId → userId ∈ covered c.log) :
    ∀ userId ∈ members d.session, userId ≠ W.userId → HasCurrentRatchet d userId := by
  intro userId hmem hne
  cases hstate : d.session.currentState with
  | none => simp [members, hstate] at hmem
  | some state =>
      obtain ⟨decryptor, hlookup, manager, secret, hsole, hsecret, hbase⟩ :=
        receiverInv_of_reachable htotal h d hd state hstate userId (hcovered userId hmem hne) hne
      refine ⟨decryptor, manager, .mls (HashRatchet.ofSecret secret), hlookup, ?_, ?_, ?_⟩
      · rw [hsole.managers]
        rfl
      · exact (d.session.getKeyRatchet_eq_some_iff).mpr ⟨state, secret, hstate, hsecret, rfl⟩
      · rw [hbase]
        simp [KeyRatchet.base, LawfulHashRatchet.secretOf_ofSecret]

/-! ## A call that is joined twice -/

/-- A client other than `referenceUser`. -/
def listener : UInt64 := 7

theorem referenceMls_exportsTotal : ExportsTotal referenceMls := fun _ _ => rfl

/-- The client joins a call with another member. -/
def listenEvents : List (Event (referenceSetting listener)) :=
  connectEvents listener ++ welcomeEvents listener [1, 5, 7]

theorem receivers_current_listenEvents :
    ∃ d, (after listener listenEvents).dave = some d ∧ referenceUser ∈ members d.session ∧
      HasCurrentRatchet d referenceUser := by
  have hmembers : ((after listener listenEvents).dave.map fun d => members d.session) =
      some [7, 5] := by
    decide +kernel
  obtain ⟨d, hd, hmembers⟩ := Option.map_eq_some_iff.mp hmembers
  have hmem : referenceUser ∈ members d.session := by
    rw [hmembers]
    decide
  refine ⟨d, hd, hmem, ?_⟩
  apply receivers_current referenceMls_exportsTotal (reachable_after (by decide +kernel)) hd _
    referenceUser hmem (by decide)
  intro userId huser hne
  have hcovered : covered (after listener listenEvents).log = [7, 5] := by decide +kernel
  rw [hcovered]
  rw [hmembers] at huser
  exact huser

/-- The newest manager's secret in a user's decryptor, and the secret of the
current epoch. -/
private def secretsOf (d : DaveState W H) (userId : UInt64) :
    Option (Bytes ⊕ Bytes) × Option (Bytes ⊕ Bytes) :=
  (((d.decryptors.lookup (toDecimal userId)).bind fun decryptor =>
      decryptor.managers.getLast?).map fun manager => manager.ratchet.base,
    (d.session.getKeyRatchet H userId).map KeyRatchet.base)

private theorem HasCurrentRatchet.secretsOf_eq {d : DaveState W H} {userId : UInt64}
    (h : HasCurrentRatchet d userId) : (secretsOf d userId).1 = (secretsOf d userId).2 := by
  obtain ⟨decryptor, manager, ratchet, hlookup, hlast, hratchet, hbase⟩ := h
  simp [secretsOf, hlookup, hlast, hratchet, hbase]

/-- The server starts the group anew and welcomes the same members to its
second epoch.  The roster survives the reset, so the Welcome changes nobody,
and after the transition the other member is still heard with the ratchet of
the first epoch. -/
theorem receivers_stale_of_second_welcome :
    ∃ c d, (referenceMachine listener).Reachable c ∧
      (∃ log, c.log = .transitioned 1 :: log) ∧ c.dave = some d ∧
      referenceUser ∈ members d.session ∧ ¬ HasCurrentRatchet d referenceUser := by
  let events := listenEvents ++ answered listener (.davePrepareEpoch (some 1) (some 1)) ++
    welcomeEvents listener [2, 5, 7]
  have hstate : ((after listener events).dave.map fun d =>
      (members d.session, decide ((secretsOf d referenceUser).1 = (secretsOf d referenceUser).2))) =
        some ([7, 5], false) := by
    decide +kernel
  have hlog : ((after listener events).log.head?.map fun action =>
      match action with
      | .transitioned version => version
      | _ => 0) = some 1 := by
    decide +kernel
  obtain ⟨d, hd, hstate⟩ := Option.map_eq_some_iff.mp hstate
  obtain ⟨hmembers, hsecrets⟩ := Prod.mk.inj hstate
  refine ⟨after listener events, d, reachable_after (by decide +kernel), ?_, hd, ?_, ?_⟩
  · obtain ⟨action, hhead, hversion⟩ := Option.map_eq_some_iff.mp hlog
    obtain ⟨log, hlog⟩ := List.head?_eq_some_iff.mp hhead
    refine ⟨log, ?_⟩
    rw [hlog]
    cases action <;> simp_all
  · rw [hmembers]
    decide
  · intro hcurrent
    exact absurd hcurrent.secretsOf_eq (of_decide_eq_false hsecrets)

end Ekizu.Voice
