import Ekizu.Dave.PersistedKeys

/-!
# Key pairs that are lost

A key file that was cut short when it was written exists, and so is read and not written
again.  The process that wrote it has the key pair in its map; the next one is answered
`nullptr`, and so is every other one, until the session is deleted.

## Main results

* `Persistence.Lost.steps` — a lost key pair stays lost.
* `Persistence.Reachable.obtainable_iff` — when a key pair that is on the disk can still be
  had.
-/

namespace Ekizu.Dave

open Lib.Files Lib.Multipart

namespace Persistence

variable {S : SignatureKeys} {env : Environment} {owner : Bytes → Option S.PrivateKey}
  {p p' : Persistence S} {s content : Bytes}

/-! ## Calls for other sessions -/

/-- A call leaves the files and the map entries of other sessions alone. -/
theorem getPersistedKeyPair_frame (env : Environment) {t : Bytes} (hs : PlainSession s)
    (ht : PlainSession t) (hne : s ≠ t) (store : KeyStore S) (version : UInt16)
    (os : OsAnswers) (generated : Option S.PrivateKey) :
    let call := getPersistedKeyPair env store t version os generated
    (∀ d ∈ call.disks, d (sessionFile env s) = store.disk (sessionFile env s)) ∧
      call.store.disk (sessionFile env s) = store.disk (sessionFile env s) ∧
      call.store.keyMap.lookup (sessionKeyId s) = store.keyMap.lookup (sessionKeyId s) := by
  intro call
  have hfiles : sessionFile env s ≠ sessionFile env t :=
    fun heq => hne (sessionFile_injective env hs ht heq)
  have htmp : sessionFile env s ≠ tmpFile (sessionFile env t) := keyFile_ne_tmpFile _ _ _
  have hcases := getPersistedKeyPair_cases env store t version os generated
  dsimp only at hcases
  cases hcases with
  | inl hcached =>
      obtain ⟨key, -, hcall⟩ := hcached
      rw [show call = _ from hcall]
      exact ⟨fun d hd => absurd hd List.not_mem_nil, rfl, rfl⟩
  | inr hcalled =>
      obtain ⟨-, ret, hret, hdisks, -, hdisk, hmap⟩ := hcalled
      have hsteps : ∀ d ∈ ret.1, d (sessionFile env s) = store.disk (sessionFile env s) := by
        intro d hd
        have hgeneric := getGenericPersistedKeyPair_cases env (sessionKeyId t) p256CipherSuite
          os generated store.disk
        dsimp only at hgeneric
        rw [← hret] at hgeneric
        cases hgeneric with
        | inl hnothing =>
            rw [hnothing.1] at hd
            exact absurd hd List.not_mem_nil
        | inr hgeneric =>
            cases hgeneric with
            | inl hread =>
                obtain ⟨_, _, -, -, -, hnone⟩ := hread
                rw [hnone] at hd
                exact absurd hd List.not_mem_nil
            | inr hnew =>
                obtain ⟨key, -, -, -, hwritten⟩ := hnew
                cases hwritten with
                | inl hunnamed =>
                    rw [hunnamed.1] at hd
                    exact (Disk.mem_writing hd).2 _ htmp
                | inr hnamed =>
                    rw [hnamed.1] at hd
                    exact (Disk.mem_replacing (keyFile_ne_tmpFile _ _ _) hd).2 _ htmp hfiles
      refine ⟨?_, ?_, ?_⟩
      · intro d hd
        rw [show call.disks = ret.1 from hdisks] at hd
        exact hsteps d hd
      · rw [show call.store.disk = _ from hdisk]
        have hlast := getLastD_take store.disk ret.1 ret.1.length
        rw [List.take_length] at hlast
        cases hlast with
        | inl hsame => rw [hsame]
        | inr hmem => exact hsteps _ hmem
      · cases hmap with
        | inl hpair =>
            obtain ⟨key, -, hmap⟩ := hpair
            rw [show call.store.keyMap = _ from hmap,
              AList.lookup_insert_ne fun heq => hne (sessionKeyId_injective heq)]
        | inr hnone => rw [show call.store.keyMap = _ from hnone.2]

/-! ## Runs -/

/-- No key pair can be read from the content. -/
def Unreadable (S : SignatureKeys) (content : Bytes) : Prop :=
  ∀ key, S.fromJwk p256CipherSuite content = some key → S.publicKey key = []

/-- The session's file cannot be read, and the map does not have its key pair. -/
structure Lost (env : Environment) (s content : Bytes) (store : KeyStore S) : Prop where
  file : store.disk (sessionFile env s) = some content
  uncached : store.keyMap.lookup (sessionKeyId s) = none
  unreadable : Unreadable S content

/-- A call for a session whose key pair is lost answers none and changes nothing. -/
theorem Lost.call (laws : S.JwkLaws) (hholds : Holds env owner p.store.disk)
    (h : Lost env s content p.store) (hs : PlainSession s) (version : UInt16) (os : OsAnswers)
    (generated : Option S.PrivateKey) :
    let call := getPersistedKeyPair env p.store s version os generated
    call.disks = [] ∧ Lost env s content call.store ∧ ∀ key, call.outcome ≠ .pair key := by
  intro call
  have hcases := getPersistedKeyPair_cases env p.store s version os generated
  dsimp only at hcases
  cases hcases with
  | inl hcached =>
      obtain ⟨key, hlookup, -⟩ := hcached
      rw [h.uncached] at hlookup
      exact absurd hlookup (by simp)
  | inr hcalled =>
      obtain ⟨-, ret, hret, hdisks, houtcome, hdisk, hmap⟩ := hcalled
      have hnothing : ret.1 = [] ∧ ∀ key, ret.2 ≠ .pair key := by
        have hgeneric := getGenericPersistedKeyPair_cases env (sessionKeyId s) p256CipherSuite
          os generated p.store.disk
        dsimp only at hgeneric
        rw [← hret] at hgeneric
        cases hgeneric with
        | inl hnothing => exact hnothing
        | inr hgeneric =>
            cases hgeneric with
            | inl hread =>
                obtain ⟨text, key, hfile, hjwk, hpublic, -⟩ := hread
                obtain rfl := Option.some.inj (h.file.symm.trans hfile)
                have hwhole := (hholds.read laws hs hfile hjwk).2
                have hempty := h.unreadable key (hwhole ▸ laws.whole p256CipherSuite key)
                exact absurd hempty hpublic
            | inr hnew =>
                obtain ⟨key, -, hfile, -⟩ := hnew
                exact absurd (h.file.symm.trans hfile) (by simp)
      rw [hnothing.1] at hdisks hdisk
      refine ⟨hdisks, ⟨?_, ?_, h.unreadable⟩, ?_⟩
      · rw [show call.store.disk = p.store.disk from hdisk]
        exact h.file
      · cases hmap with
        | inl hpair =>
            obtain ⟨key, hpair, -⟩ := hpair
            exact absurd hpair (hnothing.2 key)
        | inr hsame =>
            rw [show call.store.keyMap = p.store.keyMap from hsame.2]
            exact h.uncached
      · intro key
        rw [show call.outcome = ret.2 from houtcome]
        exact hnothing.2 key

/-- What a step adds to the log of a session whose key pair is lost: no key pair of it, and
the key pair stays lost until a deletion succeeds. -/
theorem Lost.step (laws : S.JwkLaws) (hsound : Sound env p owner)
    (h : Lost env s content p.store) (hs : PlainSession s) (hstep : Step env p p') :
    ∃ new, p'.log = new ++ p.log ∧
      (.deleted s ∈ new ∨ (∀ key, .got s key ∉ new) ∧ Lost env s content p'.store) := by
  -- a call, for this session or for another one
  have hcall : ∀ t version os generated, PlainSession t →
      ∃ new, (p.answered t generated
          (getPersistedKeyPair env p.store t version os generated)).log = new ++ p.log ∧
        (∀ key, .got s key ∉ new) ∧
        Lost env s content (getPersistedKeyPair env p.store t version os generated).store := by
    intro t version os generated ht
    by_cases hst : s = t
    · subst hst
      obtain ⟨-, hlost, hnone⟩ := h.call laws hsound.holds hs version os generated
      refine ⟨[], ?_, fun key => List.not_mem_nil, hlost⟩
      show logged p.log s _ = p.log
      cases hout : (getPersistedKeyPair env p.store s version os generated).outcome with
      | pair key => exact absurd hout (hnone key)
      | null => rfl
      | threw => rfl
    · obtain ⟨-, hdisk, hlookup⟩ :=
        getPersistedKeyPair_frame env hs ht hst p.store version os generated
      have hlost : Lost env s content
          (getPersistedKeyPair env p.store t version os generated).store :=
        ⟨hdisk.trans h.file, hlookup.trans h.uncached, h.unreadable⟩
      cases hout : (getPersistedKeyPair env p.store t version os generated).outcome with
      | pair key =>
          refine ⟨[.got t key], ?_, ?_, hlost⟩
          · show logged p.log t _ = _
            rw [hout]
            rfl
          · intro key' hmem
            exact hst (KeyEvent.got.inj (List.mem_singleton.mp hmem)).1
      | null =>
          refine ⟨[], ?_, fun key => List.not_mem_nil, hlost⟩
          show logged p.log t _ = _
          rw [hout]
          rfl
      | threw =>
          refine ⟨[], ?_, fun key => List.not_mem_nil, hlost⟩
          show logged p.log t _ = _
          rw [hout]
          rfl
  cases hstep with
  | get t version os generated ht _ =>
      obtain ⟨new, hlog, hrest⟩ := hcall t version os generated ht
      exact ⟨new, hlog, .inr hrest⟩
  | publicKey t version os generated ht _ =>
      rw [getPersistedPublicKey_fst]
      obtain ⟨new, hlog, hrest⟩ := hcall t version os generated ht
      exact ⟨new, hlog, .inr hrest⟩
  | delete t version os ht =>
      have huncached : (p.store.keyMap.erase (sessionKeyId t)).lookup (sessionKeyId s) = none := by
        by_cases hst : s = t
        · rw [hst, AList.lookup_erase]
        · rw [AList.lookup_erase_ne fun heq => hst (sessionKeyId_injective heq)]
          exact h.uncached
      cases deletePersistedKeyPair_cases env p.store t version os with
      | inl hkept =>
          rw [hkept]
          exact ⟨[], rfl, .inr ⟨fun key => List.not_mem_nil, h.file, huncached, h.unreadable⟩⟩
      | inr hremoved =>
          rw [hremoved.2]
          refine ⟨[.deleted t], rfl, ?_⟩
          by_cases hst : s = t
          · rw [hst]
            exact .inl List.mem_cons_self
          · refine .inr ⟨fun key hmem => ?_, ?_, huncached, h.unreadable⟩
            · exact absurd (List.mem_singleton.mp hmem) (by simp)
            · have hne := fun heq => hst (sessionFile_injective env hs ht heq)
              exact (Disk.remove_ne hne).trans h.file
  | exit =>
      exact ⟨[], rfl, .inr ⟨fun key => List.not_mem_nil, h.file, AList.lookup_empty _,
        h.unreadable⟩⟩
  | die t version os generated steps ht _ =>
      refine ⟨[], rfl, .inr ⟨fun key => List.not_mem_nil, ?_, AList.lookup_empty _,
        h.unreadable⟩⟩
      show (List.getLastD _ p.store.disk) (sessionFile env s) = some content
      by_cases hst : s = t
      · subst hst
        rw [(h.call laws hsound.holds hs version os generated).1, List.take_nil]
        exact h.file
      · cases getLastD_take p.store.disk
          (getPersistedKeyPair env p.store t version os generated).disks steps with
        | inl hbefore =>
            rw [hbefore]
            exact h.file
        | inr hduring =>
            have hframe := (getPersistedKeyPair_frame env hs ht hst p.store version os
              generated).1
            exact (hframe _ hduring).trans h.file

/-- What a step adds to the log. -/
theorem Step.log_suffix (h : Step env p p') : ∃ new, p'.log = new ++ p.log := by
  have hcall : ∀ t generated (call : KeyCall S),
      ∃ new, (p.answered t generated call).log = new ++ p.log := by
    intro t generated call
    cases hout : call.outcome with
    | pair key => exact ⟨[.got t key], congrArg (logged p.log t) hout⟩
    | null => exact ⟨[], congrArg (logged p.log t) hout⟩
    | threw => exact ⟨[], congrArg (logged p.log t) hout⟩
  cases h with
  | get t version os generated _ _ => exact hcall t generated _
  | publicKey t version os generated _ _ => exact hcall t generated _
  | delete t version os _ =>
      by_cases hremoved : (deletePersistedKeyPair env p.store t version os).2 = true
      · exact ⟨[.deleted t], if_pos hremoved⟩
      · exact ⟨[], if_neg hremoved⟩
  | exit => exact ⟨[], rfl⟩
  | die => exact ⟨[], rfl⟩

/-- **A lost key pair stays lost.** -/
theorem Lost.steps (laws : S.JwkLaws) (hp : Reachable env p) (h : Lost env s content p.store)
    (hs : PlainSession s) (hsteps : Relation.ReflTransGen (Step env) p p') :
    ∃ recent, p'.log = recent ++ p.log ∧
      (.deleted s ∈ recent ∨ (∀ key, .got s key ∉ recent) ∧ Lost env s content p'.store) := by
  induction hsteps with
  | refl => exact ⟨[], rfl, .inr ⟨fun key => List.not_mem_nil, h⟩⟩
  | @tail q q' hbefore hstep ih =>
      obtain ⟨recent, hlog, hrecent⟩ := ih
      cases hrecent with
      | inl hdeleted =>
          obtain ⟨new, hnew⟩ := hstep.log_suffix
          refine ⟨new ++ recent, ?_, .inl (List.mem_append_right new hdeleted)⟩
          rw [hnew, hlog, List.append_assoc]
      | inr hkept =>
          obtain ⟨owner, hsound⟩ := Reachable.sound laws (hp.trans hbefore)
          obtain ⟨new, hnew, hcase⟩ := hkept.2.step laws hsound hs hstep
          refine ⟨new ++ recent, by rw [hnew, hlog, List.append_assoc], ?_⟩
          cases hcase with
          | inl hdeleted => exact .inl (List.mem_append_left recent hdeleted)
          | inr hstill =>
              refine .inr ⟨?_, hstill.2⟩
              intro key hmem
              cases List.mem_append.mp hmem with
              | inl hlate => exact hstill.1 key hlate
              | inr hearly => exact hkept.1 key hearly

/-- A key pair that the map has, or that the file holds, is answered by the next call that
nothing goes wrong in. -/
theorem Sound.obtains (h : Sound env p owner) (hs : PlainSession s)
    (hfile : p.store.disk (sessionFile env s) = some content)
    (hhave : (p.store.keyMap.lookup (sessionKeyId s)).isSome = true ∨ ¬ Unreadable S content) :
    ∃ key, (getPersistedKeyPair env p.store s 0 {} none).outcome = .pair key := by
  have hcases := getPersistedKeyPair_cases env p.store s 0 {} none
  dsimp only at hcases
  cases hcases with
  | inl hcached =>
      obtain ⟨key, -, hcall⟩ := hcached
      exact ⟨key, congrArg KeyCall.outcome hcall⟩
  | inr hcalled =>
      obtain ⟨hlookup, ret, hret, -, houtcome, -, -⟩ := hcalled
      rw [hlookup] at hhave
      have hreadable := hhave.resolve_left (by simp)
      rw [Unreadable, not_forall] at hreadable
      obtain ⟨key, hreadable⟩ := hreadable
      obtain ⟨hread, hpublic⟩ := Classical.not_imp.mp hreadable
      have hdir : getKeyStorageDirectory env ≠ [] := by
        cases howner : owner s with
        | some mine => exact h.holds.dir s mine howner
        | none =>
            rw [h.holds.absent s hs howner] at hfile
            exact absurd hfile (by simp)
      have hgeneric : getGenericPersistedKeyPair env (sessionKeyId s) p256CipherSuite {} none
          p.store.disk = ([], .pair key) := by
        unfold getGenericPersistedKeyPair
        dsimp only
        rw [if_neg hdir, if_neg (by decide), if_neg (by decide),
          show p.store.disk (keyFile (getKeyStorageDirectory env) (sessionKeyId s)) = some content
            from hfile]
        dsimp only
        rw [if_neg (by decide), show comesTo none content = content from rfl, hread]
        dsimp only
        rw [KeyOutcome.ofKey, if_pos hpublic]
      exact ⟨key, by rw [houtcome, hret, hgeneric]⟩

/-- **What can still be had.**  Some process to come is answered a key pair of the session
before a deletion of it succeeds exactly where this process has it in its map or the file
holds all of it.  A file that was cut short is never written again. -/
theorem Reachable.obtainable_iff (laws : S.JwkLaws) (h : Reachable env p) (hs : PlainSession s)
    (hfile : p.store.disk (sessionFile env s) = some content) :
    (∃ p' recent key, Relation.ReflTransGen (Step env) p p' ∧ p'.log = recent ++ p.log ∧
        .got s key ∈ recent ∧ .deleted s ∉ recent) ↔
      (p.store.keyMap.lookup (sessionKeyId s)).isSome = true ∨ ¬ Unreadable S content := by
  constructor
  · intro hobtained
    obtain ⟨p', recent, key, hsteps, hlog, hgot, hkept⟩ := hobtained
    by_contra hlost
    rw [not_or, not_not, Bool.not_eq_true, Option.isSome_eq_false_iff,
      Option.isNone_iff_eq_none] at hlost
    have hlost' : Lost env s content p.store := ⟨hfile, hlost.1, hlost.2⟩
    obtain ⟨recent', hlog', hcase⟩ := hlost'.steps laws h hs hsteps
    obtain rfl := List.append_cancel_right (hlog.symm.trans hlog')
    cases hcase with
    | inl hdeleted => exact hkept hdeleted
    | inr hnever => exact hnever.1 key hgot
  · intro hhave
    obtain ⟨owner, hsound⟩ := h.sound laws
    obtain ⟨key, hout⟩ := hsound.obtains hs hfile hhave
    have hstep : Step env p
        (p.answered s none (getPersistedKeyPair env p.store s 0 {} none)) :=
      .get s 0 {} none hs fun _ hkey => absurd hkey (by simp)
    refine ⟨_, [.got s key], key, .single hstep, ?_, List.mem_cons_self, ?_⟩
    · exact congrArg (logged p.log s) hout
    · intro hmem
      exact absurd (List.mem_singleton.mp hmem) (by simp)

/-- The disk is full while the key pair is written, and the process exits. -/
def tornKey : Persistence byteKeys where
  store :=
    { disk := (getPersistedKeyPair (S := byteKeys) homeEnvironment { disk := fun _ => none }
        (ascii "7") 1 { written := some 2 } (some 1)).store.disk }
  log := [.got (ascii "7") 1]
  drawn := [1]

theorem obtainable_iff_tornKey :
    tornKey.log = [.got (ascii "7") 1] ∧
      ¬ ∃ (p' : Persistence byteKeys) (recent : List (KeyEvent byteKeys))
          (key : byteKeys.PrivateKey),
        Relation.ReflTransGen (Step homeEnvironment) tornKey p' ∧
        p'.log = recent ++ tornKey.log ∧ .got (ascii "7") key ∈ recent ∧
        .deleted (ascii "7") ∉ recent := by
  have hplain : PlainSession (ascii "7") := by decide
  have hreachable : Reachable homeEnvironment tornKey := by
    have hcut := @Step.get byteKeys homeEnvironment { store := { disk := fun _ => none } }
      (ascii "7") 1 { written := some 2 } (some 1) hplain fun _ _ => List.not_mem_nil
    exact .tail (.single hcut) .exit
  have hfile : tornKey.store.disk (sessionFile homeEnvironment (ascii "7")) = some [123, 1] := rfl
  refine ⟨rfl, ?_⟩
  intro hobtained
  cases (Reachable.obtainable_iff byteKeys_jwkLaws hreachable hplain hfile).mp hobtained with
  | inl hcached => exact absurd hcached (by decide)
  | inr hreadable => exact hreadable fun key hkey => absurd hkey (by simp [byteKeys])

end Persistence

end Ekizu.Dave
