import Mathlib.Data.List.AList
import Ekizu.Dave.Common
import Ekizu.Lib.Decimal
import Ekizu.Lib.Files
import Ekizu.Lib.Multipart
import Ekizu.Lib.Runs

/-!
# Signature keys that outlive the process

`src/dave/persisted_key_pair.cpp`.  A session's signature key pair is looked for in
`g_key_map`, then in a file of its own; where there is none a new one is written next to
that file and renamed into place.  Nobody looks whether the write succeeded, so that the
file can hold a beginning of the key.

A call is given what the operating system answers it.  The runs below are those of one
process after the other on one disk: calls, exits, and deaths in the middle of a call.

## Main results

* `Persistence.Reachable.same_key_iff` — two calls get the same key pair exactly where they ask
  for the same session and no deletion of it succeeded in between.
-/

namespace Ekizu.Dave

open Lib.Files Lib.Decimal Lib.Multipart

/-! ## What the code calls -/

/-- `mlspp::SignaturePrivateKey`.  `sign` is `none` where it throws. -/
structure SignatureKeys where
  PrivateKey : Type
  /-- `public_key.data`. -/
  publicKey : PrivateKey → Bytes
  toJwk : (suite : UInt16) → PrivateKey → Bytes
  fromJwk : (suite : UInt16) → Bytes → Option PrivateKey
  sign : (suite : UInt16) → PrivateKey → (label content : Bytes) → Option Bytes

/-- A JWK holds the key pair, and a beginning of one is not a JWK. -/
structure SignatureKeys.JwkLaws (S : SignatureKeys) : Prop where
  whole : ∀ suite key, S.fromJwk suite (S.toJwk suite key) = some key
  torn : ∀ {suite key part}, part <+: S.toJwk suite key → part ≠ S.toJwk suite key →
    S.fromJwk suite part = none

/-- `XDG_CONFIG_HOME` and `HOME`. -/
structure Environment where
  xdgConfigHome : Option Bytes
  home : Option Bytes

/-- What the operating system answers one call.  The `Bool`s say whether a step is carried
out, `read` and `written` how many bytes it comes to, where not all. -/
structure OsAnswers where
  createDirectories : Bool := true
  /-- `exists` throws where it is `false`. -/
  status : Bool := true
  openInput : Bool := true
  read : Option Nat := none
  openOutput : Bool := true
  written : Option Nat := none
  rename : Bool := true
  remove : Bool := true

/-- As much of a content as comes through. -/
def comesTo (count : Option Nat) (content : Bytes) : Bytes :=
  match count with
  | none => content
  | some n => content.take n

/-! ## Paths -/

/-- `/`. -/
def pathSeparator : UInt8 := 47

/-- `path::operator/`: an absolute path replaces what stands before it. -/
def appendPath (dir name : Bytes) : Bytes :=
  if name.head? = some pathSeparator then name
  else if dir = [] ∨ dir.getLast? = some pathSeparator then dir ++ name
  else dir ++ pathSeparator :: name

/-- `KEY_STORAGE_DIR`. -/
def keyStorageDir : Bytes := ascii "Discord Key Storage"

/-- `get_key_storage_directory`. -/
def getKeyStorageDirectory (env : Environment) : Bytes :=
  match env.xdgConfigHome, env.home with
  | some xdg, _ => appendPath xdg keyStorageDir
  | none, some home => appendPath (appendPath home (ascii ".config")) keyStorageDir
  | none, none => []

/-- `KEY_VERSION`. -/
def keyVersion : UInt64 := 1

/-- `P256_AES128GCM_SHA256_P256`. -/
def p256CipherSuite : UInt16 := 2

/-- `ciphersuite_for_protocol_version`. -/
def ciphersuiteForProtocolVersion (_version : UInt16) : UInt16 := p256CipherSuite

/-- `ciphersuite_for_signature_version`. -/
def ciphersuiteForSignatureVersion (_version : UInt16) : UInt16 := p256CipherSuite

/-- `make_key_id`. -/
def makeKeyId (sessionId : Bytes) (suite : UInt16) : Bytes :=
  sessionId ++ (45 :: toDecimal suite.toUInt64 ++ 45 :: toDecimal keyVersion)

/-- `dir / (id + ".key")`. -/
def keyFile (dir id : Bytes) : Bytes := appendPath dir (id ++ ascii ".key")

/-- `file`, then `tmpfile += ".tmp"`. -/
def tmpFile (file : Bytes) : Bytes := file ++ ascii ".tmp"

/-! ## The calls -/

variable {S : SignatureKeys}

/-- What a caller is given: a key pair, `nullptr` or an exception. -/
inductive KeyOutcome (S : SignatureKeys) where
  | pair (key : S.PrivateKey)
  | null
  | threw

/-- A key pair without a public key is not handed out. -/
def KeyOutcome.ofKey (key : S.PrivateKey) : KeyOutcome S :=
  if S.publicKey key ≠ [] then .pair key else .null

/-- `get_generic_persisted_key_pair`: the disks it goes through and its answer.  `generated`
is the new key pair, `none` where `generate` or `to_jwk` throws. -/
def getGenericPersistedKeyPair (env : Environment) (id : Bytes) (suite : UInt16)
    (os : OsAnswers) (generated : Option S.PrivateKey) (disk : Disk Bytes UInt8) :
    List (Disk Bytes UInt8) × KeyOutcome S :=
  let dir := getKeyStorageDirectory env
  if dir = [] then ([], .null)
  else if os.createDirectories = false then ([], .null)
  else
    let file := keyFile dir id
    if os.status = false then ([], .threw)
    else
      match disk file with
      | some content =>
          if os.openInput = false then ([], .null)
          else
            match S.fromJwk suite (comesTo os.read content) with
            | none => ([], .null)
            | some ret => ([], .ofKey ret)
      | none =>
          match generated with
          | none => ([], .null)
          | some ret =>
              let newstr := comesTo os.written (S.toJwk suite ret)
              if os.openOutput = false then ([], .null)
              else if os.rename = false then (disk.writing (tmpFile file) newstr, .null)
              else (disk.replacing (tmpFile file) file newstr, .ofKey ret)

/-- `g_key_map` and the disk. -/
structure KeyStore (S : SignatureKeys) where
  keyMap : AList fun _ : Bytes => S.PrivateKey := ∅
  disk : Disk Bytes UInt8

/-- A call, with the disks it goes through. -/
structure KeyCall (S : SignatureKeys) where
  disks : List (Disk Bytes UInt8)
  store : KeyStore S
  outcome : KeyOutcome S

/-- `get_persisted_key_pair`. -/
def getPersistedKeyPair (env : Environment) (store : KeyStore S) (sessionId : Bytes)
    (version : UInt16) (os : OsAnswers) (generated : Option S.PrivateKey) : KeyCall S :=
  let suite := ciphersuiteForProtocolVersion version
  let id := makeKeyId sessionId suite
  match store.keyMap.lookup id with
  | some key => ⟨[], store, .pair key⟩
  | none =>
      let ret := getGenericPersistedKeyPair env id suite os generated store.disk
      let disk := ret.1.getLastD store.disk
      match ret.2 with
      | .pair key => ⟨ret.1, ⟨store.keyMap.insert id key, disk⟩, .pair key⟩
      | outcome => ⟨ret.1, ⟨store.keyMap, disk⟩, outcome⟩

/-- `SELF_SIGNATURE_LABEL`. -/
def selfSignatureLabel : Bytes := ascii "DiscordSelfSignature"

/-- `get_persisted_public_key`: the public key and its signature, both empty where there is
no key pair; `none` where something throws. -/
def getPersistedPublicKey (env : Environment) (store : KeyStore S) (sessionId : Bytes)
    (version : UInt16) (os : OsAnswers) (generated : Option S.PrivateKey) :
    KeyCall S × Option (Bytes × Bytes) :=
  let call := getPersistedKeyPair env store sessionId version os generated
  match call.outcome with
  | .null => (call, some ([], []))
  | .threw => (call, none)
  | .pair key =>
      let signData := sessionId ++ ascii ":" ++ S.publicKey key
      (call, (S.sign (ciphersuiteForSignatureVersion version) key selfSignatureLabel
        signData).map fun signature => (S.publicKey key, signature))

/-- `delete_persisted_key_pair`. -/
def deletePersistedKeyPair (env : Environment) (store : KeyStore S) (sessionId : Bytes)
    (version : UInt16) (os : OsAnswers) : KeyStore S × Bool :=
  let id := makeKeyId sessionId (ciphersuiteForSignatureVersion version)
  let keyMap := store.keyMap.erase id
  let dir := getKeyStorageDirectory env
  if dir = [] then (⟨keyMap, store.disk⟩, false)
  else
    let file := keyFile dir id
    if os.remove = false ∨ store.disk file = none then (⟨keyMap, store.disk⟩, false)
    else (⟨keyMap, store.disk.remove file⟩, true)

/-! ## Where the files are -/

/-- A session id that is one component of a path: no separator, and no NUL to end it. -/
def PlainSession (sessionId : Bytes) : Prop := pathSeparator ∉ sessionId ∧ 0 ∉ sessionId

instance (sessionId : Bytes) : Decidable (PlainSession sessionId) :=
  inferInstanceAs (Decidable (_ ∧ _))

/-- The id of a session, under every version. -/
def sessionKeyId (sessionId : Bytes) : Bytes := makeKeyId sessionId p256CipherSuite

/-- The file of a session. -/
def sessionFile (env : Environment) (sessionId : Bytes) : Bytes :=
  keyFile (getKeyStorageDirectory env) (sessionKeyId sessionId)

theorem sessionKeyId_injective : Function.Injective sessionKeyId := by
  intro s t h
  exact List.append_cancel_right h

/-- A relative name stands at the end of the path. -/
theorem appendPath_of_relative (dir : Bytes) :
    ∃ front, ∀ name : Bytes, name.head? ≠ some pathSeparator →
      appendPath dir name = front ++ name := by
  by_cases hdir : dir = [] ∨ dir.getLast? = some pathSeparator
  · refine ⟨dir, ?_⟩
    intro name hname
    rw [appendPath, if_neg hname, if_pos hdir]
  · refine ⟨dir ++ [pathSeparator], ?_⟩
    intro name hname
    rw [appendPath, if_neg hname, if_neg hdir, List.append_assoc, List.singleton_append]

theorem head?_fileName {s : Bytes} (h : PlainSession s) :
    (sessionKeyId s ++ ascii ".key").head? ≠ some pathSeparator := by
  cases s with
  | nil => decide
  | cons b s =>
      intro hhead
      have hb : b = pathSeparator := Option.some.inj hhead
      exact h.1 (hb ▸ List.mem_cons_self)

/-- **One file for each session.** -/
theorem sessionFile_injective (env : Environment) {s t : Bytes} (hs : PlainSession s)
    (ht : PlainSession t) (h : sessionFile env s = sessionFile env t) : s = t := by
  obtain ⟨front, hfront⟩ := appendPath_of_relative (getKeyStorageDirectory env)
  have hnames : front ++ (sessionKeyId s ++ ascii ".key") =
      front ++ (sessionKeyId t ++ ascii ".key") := by
    rw [← hfront _ (head?_fileName hs), ← hfront _ (head?_fileName ht)]
    exact h
  exact sessionKeyId_injective (List.append_cancel_right (List.append_cancel_left hnames))

theorem keyFile_getLast? (dir id : Bytes) : (keyFile dir id).getLast? = some 121 := by
  have hname : (id ++ ascii ".key").getLast? = some 121 := by
    rw [show ascii ".key" = [46, 107, 101] ++ [121] by decide, ← List.append_assoc,
      List.getLast?_concat]
  rw [keyFile, appendPath]
  split
  · exact hname
  · split
    · rw [List.getLast?_append, hname]
      rfl
    · rw [List.getLast?_append, List.getLast?_cons, hname]
      rfl

/-- **A temporary file is nobody's key file.** -/
theorem keyFile_ne_tmpFile (dir id file : Bytes) : keyFile dir id ≠ tmpFile file := by
  intro h
  have hlast := keyFile_getLast? dir id
  rw [h, tmpFile, show ascii ".tmp" = [46, 116, 109] ++ [112] by decide, ← List.append_assoc,
    List.getLast?_concat] at hlast
  exact absurd hlast (by decide)

theorem isPrefix_comesTo (count : Option Nat) (content : Bytes) :
    comesTo count content <+: content := by
  cases count with
  | none => exact List.prefix_rfl
  | some n => exact List.take_prefix n content

/-! ## What a call can do -/

/-- What `get_persisted_key_pair` does where the key pair is not in the map.  Either it
reads the session's file or it replaces it, and it answers what it read or wrote, or
nothing. -/
theorem getGenericPersistedKeyPair_cases (env : Environment) (id : Bytes) (suite : UInt16)
    (os : OsAnswers) (generated : Option S.PrivateKey) (disk : Disk Bytes UInt8) :
    let file := keyFile (getKeyStorageDirectory env) id
    let ret := getGenericPersistedKeyPair env id suite os generated disk
    (ret.1 = [] ∧ ∀ key, ret.2 ≠ .pair key) ∨
      (∃ content key, disk file = some content ∧
        S.fromJwk suite (comesTo os.read content) = some key ∧ S.publicKey key ≠ [] ∧
        ret = ([], .pair key)) ∨
      (∃ key, getKeyStorageDirectory env ≠ [] ∧ disk file = none ∧ generated = some key ∧
        ((ret.1 = disk.writing (tmpFile file) (comesTo os.written (S.toJwk suite key)) ∧
            ∀ key', ret.2 ≠ .pair key') ∨
          (ret.1 = disk.replacing (tmpFile file) file
              (comesTo os.written (S.toJwk suite key)) ∧
            ∀ key', ret.2 = .pair key' → key' = key))) := by
  intro file ret
  have hnull : ∀ key, (KeyOutcome.null : KeyOutcome S) ≠ .pair key := by simp
  have hret : ret = getGenericPersistedKeyPair env id suite os generated disk := rfl
  unfold getGenericPersistedKeyPair at hret
  dsimp only at hret
  split at hret
  · rw [hret]
    exact .inl ⟨rfl, hnull⟩
  · next hdir =>
      split at hret
      · rw [hret]
        exact .inl ⟨rfl, hnull⟩
      · split at hret
        · rw [hret]
          exact .inl ⟨rfl, by simp⟩
        · split at hret
          · next content hfile =>
              split at hret
              · rw [hret]
                exact .inl ⟨rfl, hnull⟩
              · split at hret
                · rw [hret]
                  exact .inl ⟨rfl, hnull⟩
                · next key hread =>
                    by_cases hpublic : S.publicKey key ≠ []
                    · rw [KeyOutcome.ofKey, if_pos hpublic] at hret
                      exact .inr (.inl ⟨content, key, hfile, hread, hpublic, hret⟩)
                    · rw [KeyOutcome.ofKey, if_neg hpublic] at hret
                      rw [hret]
                      exact .inl ⟨rfl, hnull⟩
          · next hfile =>
              split at hret
              · rw [hret]
                exact .inl ⟨rfl, hnull⟩
              · next key =>
                  split at hret
                  · rw [hret]
                    exact .inl ⟨rfl, hnull⟩
                  · split at hret
                    · rw [hret]
                      exact .inr (.inr ⟨key, hdir, hfile, rfl, .inl ⟨rfl, hnull⟩⟩)
                    · refine .inr (.inr ⟨key, hdir, hfile, rfl, .inr ⟨by rw [hret], ?_⟩⟩)
                      intro key' hkey'
                      rw [hret] at hkey'
                      simp only [KeyOutcome.ofKey] at hkey'
                      split at hkey'
                      · exact (KeyOutcome.pair.inj hkey').symm
                      · exact absurd hkey' (hnull key')

/-- The same with the map: the key pair is in the map, or the call does as above and what it
answers is put there. -/
theorem getPersistedKeyPair_cases (env : Environment) (store : KeyStore S) (s : Bytes)
    (version : UInt16) (os : OsAnswers) (generated : Option S.PrivateKey) :
    let call := getPersistedKeyPair env store s version os generated
    (∃ key, store.keyMap.lookup (sessionKeyId s) = some key ∧ call = ⟨[], store, .pair key⟩) ∨
      (store.keyMap.lookup (sessionKeyId s) = none ∧
        ∃ ret, ret = getGenericPersistedKeyPair env (sessionKeyId s) p256CipherSuite os generated
            store.disk ∧
          call.disks = ret.1 ∧ call.outcome = ret.2 ∧
          call.store.disk = ret.1.getLastD store.disk ∧
          ((∃ key, ret.2 = .pair key ∧
              call.store.keyMap = store.keyMap.insert (sessionKeyId s) key) ∨
            (∀ key, ret.2 ≠ .pair key) ∧ call.store.keyMap = store.keyMap)) := by
  intro call
  have hcall : call = getPersistedKeyPair env store s version os generated := rfl
  unfold getPersistedKeyPair at hcall
  dsimp only at hcall
  split at hcall
  · next key hlookup => exact .inl ⟨key, hlookup, hcall⟩
  · next hlookup =>
      refine .inr ⟨hlookup, _, rfl, ?_⟩
      split at hcall
      · next key hret =>
          rw [hcall]
          exact ⟨rfl, hret.symm, rfl, .inl ⟨key, hret, rfl⟩⟩
      · next hret =>
          rw [hcall]
          exact ⟨rfl, rfl, rfl, .inr ⟨hret, rfl⟩⟩

/-- Where a deletion succeeds there was a file, and it is gone. -/
theorem deletePersistedKeyPair_cases (env : Environment) (store : KeyStore S) (s : Bytes)
    (version : UInt16) (os : OsAnswers) :
    deletePersistedKeyPair env store s version os =
        (⟨store.keyMap.erase (sessionKeyId s), store.disk⟩, false) ∨
      store.disk (sessionFile env s) ≠ none ∧
        deletePersistedKeyPair env store s version os =
          (⟨store.keyMap.erase (sessionKeyId s), store.disk.remove (sessionFile env s)⟩, true) := by
  unfold deletePersistedKeyPair
  dsimp only
  split
  · exact .inl rfl
  · split
    · exact .inl rfl
    · next hfails =>
        rw [not_or] at hfails
        exact .inr ⟨hfails.2, rfl⟩

theorem getPersistedPublicKey_fst (env : Environment) (store : KeyStore S) (s : Bytes)
    (version : UInt16) (os : OsAnswers) (generated : Option S.PrivateKey) :
    (getPersistedPublicKey env store s version os generated).1 =
      getPersistedKeyPair env store s version os generated := by
  unfold getPersistedPublicKey
  dsimp only
  split <;> rfl

/-! ## One process after the other -/

/-- What a process was answered. -/
inductive KeyEvent (S : SignatureKeys) where
  | got (sessionId : Bytes) (key : S.PrivateKey)
  | deleted (sessionId : Bytes)

/-- The map of the process that is running, the disk, the answers so far, the last one
first, and the key pairs that were generated. -/
structure Persistence (S : SignatureKeys) where
  store : KeyStore S
  log : List (KeyEvent S) := []
  drawn : List S.PrivateKey := []

namespace Persistence

/-- A key pair that a call answers goes to the log. -/
def logged (log : List (KeyEvent S)) (sessionId : Bytes) :
    KeyOutcome S → List (KeyEvent S)
  | .pair key => .got sessionId key :: log
  | .null => log
  | .threw => log

/-- After a call. -/
def answered (p : Persistence S) (sessionId : Bytes) (generated : Option S.PrivateKey)
    (call : KeyCall S) : Persistence S where
  store := call.store
  log := logged p.log sessionId call.outcome
  drawn := generated.toList ++ p.drawn

/-- After a deletion. -/
def deleted (p : Persistence S) (sessionId : Bytes) (result : KeyStore S × Bool) :
    Persistence S where
  store := result.1
  log := if result.2 = true then .deleted sessionId :: p.log else p.log
  drawn := p.drawn

/-- What happens next: a call, a deletion, an exit, or the death of the process after so
many steps on the disk.  No key pair is generated twice. -/
inductive Step (env : Environment) (p : Persistence S) : Persistence S → Prop
  | get (s : Bytes) (version : UInt16) (os : OsAnswers) (generated : Option S.PrivateKey) :
      PlainSession s → (∀ key, generated = some key → key ∉ p.drawn) →
      Step env p (p.answered s generated (getPersistedKeyPair env p.store s version os generated))
  | publicKey (s : Bytes) (version : UInt16) (os : OsAnswers)
      (generated : Option S.PrivateKey) :
      PlainSession s → (∀ key, generated = some key → key ∉ p.drawn) →
      Step env p
        (p.answered s generated (getPersistedPublicKey env p.store s version os generated).1)
  | delete (s : Bytes) (version : UInt16) (os : OsAnswers) : PlainSession s →
      Step env p (p.deleted s (deletePersistedKeyPair env p.store s version os))
  | exit : Step env p { p with store := { disk := p.store.disk } }
  | die (s : Bytes) (version : UInt16) (os : OsAnswers) (generated : Option S.PrivateKey)
      (steps : Nat) : PlainSession s → (∀ key, generated = some key → key ∉ p.drawn) →
      Step env p
        { p with
          store :=
            { disk := ((getPersistedKeyPair env p.store s version os generated).disks.take
                steps).getLastD p.store.disk }
          drawn := generated.toList ++ p.drawn }

/-- Runs from the first process on, whose disk has no files. -/
def Reachable (env : Environment) : Persistence S → Prop :=
  Relation.ReflTransGen (Step env) { store := { disk := fun _ => none } }

/-! ## Whose key pair a file holds -/

/-- The session's file exists exactly where a key pair is the session's, and holds a
beginning of it. -/
structure Holds (env : Environment) (owner : Bytes → Option S.PrivateKey)
    (disk : Disk Bytes UInt8) : Prop where
  absent : ∀ s, PlainSession s → owner s = none → disk (sessionFile env s) = none
  present : ∀ s key, owner s = some key →
    ∃ part, part <+: S.toJwk p256CipherSuite key ∧ disk (sessionFile env s) = some part
  plain : ∀ s key, owner s = some key → PlainSession s
  dir : ∀ s key, owner s = some key → getKeyStorageDirectory env ≠ []

/-- What is in the map is the session's. -/
def Caches (owner : Bytes → Option S.PrivateKey) (keyMap : AList fun _ : Bytes => S.PrivateKey) :
    Prop :=
  ∀ s key, keyMap.lookup (sessionKeyId s) = some key → owner s = some key

/-- The owner changes for one session. -/
def assign (owner : Bytes → Option S.PrivateKey) (s : Bytes) (key : Option S.PrivateKey) :
    Bytes → Option S.PrivateKey := fun t => if t = s then key else owner t

section Owner

variable {env : Environment} {owner : Bytes → Option S.PrivateKey}
  {disk disk' : Disk Bytes UInt8} {keyMap : AList fun _ : Bytes => S.PrivateKey} {s : Bytes}
  {key : S.PrivateKey}

theorem assign_self (owner : Bytes → Option S.PrivateKey) (s : Bytes)
    (key : Option S.PrivateKey) : assign owner s key s = key := if_pos rfl

theorem assign_ne {t : Bytes} (h : t ≠ s) (key : Option S.PrivateKey) :
    assign owner s key t = owner t := if_neg h

theorem assign_eq_some {t : Bytes} {key : Option S.PrivateKey} {key' : S.PrivateKey}
    (h : assign owner s key t = some key') : t = s ∧ key = some key' ∨ owner t = some key' := by
  by_cases hts : t = s
  · subst hts
    rw [assign_self] at h
    exact .inl ⟨rfl, h⟩
  · rw [assign_ne hts] at h
    exact .inr h

theorem Holds.congr (h : Holds env owner disk)
    (hsame : ∀ s, PlainSession s → disk' (sessionFile env s) = disk (sessionFile env s)) :
    Holds env owner disk' where
  absent := by
    intro s hs hnone
    rw [hsame s hs]
    exact h.absent s hs hnone
  present := by
    intro s key hkey
    rw [hsame s (h.plain s key hkey)]
    exact h.present s key hkey
  plain := h.plain
  dir := h.dir

/-- A session's file is written anew. -/
theorem Holds.born (h : Holds env owner disk) (hs : PlainSession s)
    (hdir : getKeyStorageDirectory env ≠ []) {part : Bytes}
    (hpart : part <+: S.toJwk p256CipherSuite key) (hfile : disk' (sessionFile env s) = some part)
    (hsame : ∀ t, PlainSession t → t ≠ s →
      disk' (sessionFile env t) = disk (sessionFile env t)) :
    Holds env (assign owner s (some key)) disk' where
  absent := by
    intro t ht hnone
    by_cases hts : t = s
    · rw [hts, assign_self] at hnone
      exact absurd hnone (by simp)
    · rw [assign_ne hts] at hnone
      rw [hsame t ht hts]
      exact h.absent t ht hnone
  present := by
    intro t key' hkey'
    by_cases hts : t = s
    · rw [hts, assign_self] at hkey'
      cases hkey'
      exact ⟨part, hpart, hts ▸ hfile⟩
    · rw [assign_ne hts] at hkey'
      rw [hsame t (h.plain t key' hkey') hts]
      exact h.present t key' hkey'
  plain := by
    intro t key' hkey'
    cases assign_eq_some hkey' with
    | inl hself => exact hself.1 ▸ hs
    | inr hother => exact h.plain t key' hother
  dir := fun _ _ _ => hdir

/-- A session's file is removed. -/
theorem Holds.died (h : Holds env owner disk) (hs : PlainSession s) :
    Holds env (assign owner s none) (disk.remove (sessionFile env s)) where
  absent := by
    intro t ht hnone
    by_cases hts : t = s
    · rw [hts]
      exact Disk.remove_self
    · rw [assign_ne hts] at hnone
      rw [Disk.remove_ne fun heq => hts (sessionFile_injective env ht hs heq)]
      exact h.absent t ht hnone
  present := by
    intro t key' hkey'
    cases assign_eq_some hkey' with
    | inl hself => exact absurd hself.2 (by simp)
    | inr hother =>
        have hts : t ≠ s := by
          intro hts
          rw [hts, assign_self] at hkey'
          exact absurd hkey' (by simp)
        have hne := sessionFile_injective env (h.plain t key' hother) hs
        rw [Disk.remove_ne fun heq => hts (hne heq)]
        exact h.present t key' hother
  plain := by
    intro t key' hkey'
    cases assign_eq_some hkey' with
    | inl hself => exact absurd hself.2 (by simp)
    | inr hother => exact h.plain t key' hother
  dir := by
    intro t key' hkey'
    cases assign_eq_some hkey' with
    | inl hself => exact absurd hself.2 (by simp)
    | inr hother => exact h.dir t key' hother

theorem Caches.empty : Caches owner (∅ : AList fun _ : Bytes => S.PrivateKey) := by
  intro s key hlookup
  rw [AList.lookup_empty] at hlookup
  exact absurd hlookup (by simp)

theorem Caches.born (h : Caches owner keyMap) (hnone : owner s = none) :
    Caches (assign owner s (some key)) keyMap := by
  intro t key' hlookup
  have howner := h t key' hlookup
  have hts : t ≠ s := by
    intro hts
    rw [hts, hnone] at howner
    exact absurd howner (by simp)
  rw [assign_ne hts]
  exact howner

theorem Caches.insert (h : Caches owner keyMap) (howner : owner s = some key) :
    Caches owner (keyMap.insert (sessionKeyId s) key) := by
  intro t key' hlookup
  by_cases hts : t = s
  · rw [hts, AList.lookup_insert] at hlookup
    rw [hts, howner, hlookup]
  · rw [AList.lookup_insert_ne fun heq => hts (sessionKeyId_injective heq)] at hlookup
    exact h t key' hlookup

theorem Caches.erase (h : Caches owner keyMap) : Caches owner (keyMap.erase (sessionKeyId s)) := by
  intro t key' hlookup
  by_cases hts : t = s
  · rw [hts, AList.lookup_erase] at hlookup
    exact absurd hlookup (by simp)
  · rw [AList.lookup_erase_ne fun heq => hts (sessionKeyId_injective heq)] at hlookup
    exact h t key' hlookup

theorem Caches.died (h : Caches owner keyMap) :
    Caches (assign owner s none) (keyMap.erase (sessionKeyId s)) := by
  intro t key' hlookup
  have howner := h.erase t key' hlookup
  by_cases hts : t = s
  · rw [hts, AList.lookup_erase] at hlookup
    exact absurd hlookup (by simp)
  · rw [assign_ne hts]
    exact howner

end Owner

/-! ## What the answers say -/

/-- An answer goes with those before it: the key pair is the one of an earlier answer exactly
where that was for the same session, and no deletion of it came after. -/
def Agrees (log : List (KeyEvent S)) : KeyEvent S → Prop
  | .got s key => ∀ middle old t key', log = middle ++ .got t key' :: old →
      (key = key' ↔ s = t ∧ .deleted t ∉ middle)
  | .deleted _ => True

/-- The key pair of an answer is the session's still, or a deletion came after it and the
key pair is nobody's for good. -/
structure Tells (owner : Bytes → Option S.PrivateKey) (log : List (KeyEvent S))
    (drawn : List S.PrivateKey) : Prop where
  known : ∀ s key, owner s = some key → key ∈ drawn
  single : ∀ s t key, owner s = some key → owner t = some key → s = t
  told : ∀ recent old s key, log = recent ++ .got s key :: old →
    (.deleted s ∉ recent ∧ owner s = some key) ∨
      (.deleted s ∈ recent ∧ key ∈ drawn ∧ ∀ t, owner t ≠ some key)
  agrees : Lib.Runs.Throughout Agrees log

section Answers

variable {owner : Bytes → Option S.PrivateKey} {log : List (KeyEvent S)}
  {drawn : List S.PrivateKey} {s : Bytes} {key : S.PrivateKey}

/-- New key pairs make no difference. -/
theorem Tells.draw (h : Tells owner log drawn) (more : List S.PrivateKey) :
    Tells owner log (more ++ drawn) where
  known := fun s key howner => List.mem_append_right more (h.known s key howner)
  single := h.single
  told := by
    intro recent old s key hlog
    cases h.told recent old s key hlog with
    | inl hlive => exact .inl hlive
    | inr hdead => exact .inr ⟨hdead.1, List.mem_append_right more hdead.2.1, hdead.2.2⟩
  agrees := h.agrees

/-- A new key pair becomes the session's. -/
theorem Tells.born (h : Tells owner log drawn) (hnone : owner s = none) (hnew : key ∉ drawn) :
    Tells (assign owner s (some key)) log (key :: drawn) where
  known := by
    intro t key' hkey'
    cases assign_eq_some hkey' with
    | inl hself =>
        rw [Option.some.inj hself.2]
        exact List.mem_cons_self
    | inr hother => exact List.mem_cons_of_mem key (h.known t key' hother)
  single := by
    intro t u key' ht hu
    have hfresh : ∀ v, owner v ≠ some key := fun v hv => hnew (h.known v key hv)
    cases assign_eq_some ht with
    | inl htself =>
        cases assign_eq_some hu with
        | inl huself => exact htself.1.trans huself.1.symm
        | inr huother => exact absurd (huother.trans htself.2.symm) (hfresh u)
    | inr htother =>
        cases assign_eq_some hu with
        | inl huself => exact absurd (htother.trans huself.2.symm) (hfresh t)
        | inr huother => exact h.single t u key' htother huother
  told := by
    intro recent old t key' hlog
    cases h.told recent old t key' hlog with
    | inl hlive =>
        have hts : t ≠ s := by
          intro hts
          rw [hts, hnone] at hlive
          exact absurd hlive.2 (by simp)
        exact .inl ⟨hlive.1, (assign_ne hts _).trans hlive.2⟩
    | inr hdead =>
        refine .inr ⟨hdead.1, List.mem_cons_of_mem key hdead.2.1, ?_⟩
        intro u hu
        cases assign_eq_some hu with
        | inl huself =>
            rw [← Option.some.inj huself.2] at hdead
            exact hnew hdead.2.1
        | inr huother => exact hdead.2.2 u huother
  agrees := h.agrees

/-- **An answer.** -/
theorem Tells.got (h : Tells owner log drawn) (howner : owner s = some key) :
    Tells owner (.got s key :: log) drawn where
  known := h.known
  single := h.single
  told := by
    intro recent old t key' hlog
    cases recent with
    | nil =>
        obtain ⟨hgot, -⟩ := List.cons.inj hlog
        obtain ⟨rfl, rfl⟩ := KeyEvent.got.inj hgot
        exact .inl ⟨List.not_mem_nil, howner⟩
    | cons event recent =>
        obtain ⟨hevent, hold⟩ := List.cons.inj hlog
        have hmem : (.deleted t : KeyEvent S) ∈ event :: recent ↔ .deleted t ∈ recent := by
          rw [← hevent, List.mem_cons]
          simp
        rw [hmem]
        exact h.told recent old t key' hold
  agrees := by
    refine ⟨?_, h.agrees⟩
    intro middle old t key' hlog
    cases h.told middle old t key' hlog with
    | inl hlive =>
        constructor
        · intro hkey
          rw [← hkey] at hlive
          exact ⟨h.single s t key howner hlive.2, hlive.1⟩
        · intro hsame
          rw [hsame.1] at howner
          exact Option.some.inj (howner.symm.trans hlive.2)
    | inr hdead =>
        constructor
        · intro hkey
          rw [← hkey] at hdead
          exact absurd howner (hdead.2.2 s)
        · intro hsame
          exact absurd hdead.1 hsame.2

/-- **A deletion.** -/
theorem Tells.died (h : Tells owner log drawn) :
    Tells (assign owner s none) (.deleted s :: log) drawn where
  known := by
    intro t key' hkey'
    cases assign_eq_some hkey' with
    | inl hself => exact absurd hself.2 (by simp)
    | inr hother => exact h.known t key' hother
  single := by
    intro t u key' ht hu
    cases assign_eq_some ht with
    | inl hself => exact absurd hself.2 (by simp)
    | inr htother =>
        cases assign_eq_some hu with
        | inl hself => exact absurd hself.2 (by simp)
        | inr huother => exact h.single t u key' htother huother
  told := by
    intro recent old t key' hlog
    cases recent with
    | nil =>
        obtain ⟨hevent, -⟩ := List.cons.inj hlog
        exact absurd hevent (by simp)
    | cons event recent =>
        obtain ⟨rfl, hold⟩ := List.cons.inj hlog
        have hgone : ∀ u, assign owner s none u = some key' → owner u = some key' := by
          intro u hu
          cases assign_eq_some hu with
          | inl hself => exact absurd hself.2 (by simp)
          | inr hother => exact hother
        cases h.told recent old t key' hold with
        | inl hlive =>
            by_cases hts : t = s
            · refine .inr ⟨by rw [hts]; exact List.mem_cons_self, h.known t key' hlive.2, ?_⟩
              intro u hu
              have hus := h.single u t key' (hgone u hu) hlive.2
              rw [hus, hts, assign_self] at hu
              exact absurd hu (by simp)
            · refine .inl ⟨?_, (assign_ne hts _).trans hlive.2⟩
              intro hmem
              cases List.mem_cons.mp hmem with
              | inl hhead => exact hts (KeyEvent.deleted.inj hhead)
              | inr hrecent => exact hlive.1 hrecent
        | inr hdead =>
            refine .inr ⟨List.mem_cons_of_mem _ hdead.1, hdead.2.1, ?_⟩
            intro u hu
            exact hdead.2.2 u (hgone u hu)
  agrees := ⟨trivial, h.agrees⟩

end Answers

/-! ## Every run -/

/-- The invariant of a run. -/
structure Sound (env : Environment) (p : Persistence S) (owner : Bytes → Option S.PrivateKey) :
    Prop where
  holds : Holds env owner p.store.disk
  caches : Caches owner p.store.keyMap
  tells : Tells owner p.log p.drawn

section Runs

variable {env : Environment} {owner : Bytes → Option S.PrivateKey} {disk : Disk Bytes UInt8}
  {p p' : Persistence S} {s : Bytes} {os : OsAnswers} {generated : Option S.PrivateKey}

/-- A file that is read gives the session's key pair, or none. -/
theorem Holds.read (laws : S.JwkLaws) (h : Holds env owner disk) (hs : PlainSession s)
    {content : Bytes} {key : S.PrivateKey} (hfile : disk (sessionFile env s) = some content)
    {count : Option Nat} (hread : S.fromJwk p256CipherSuite (comesTo count content) = some key) :
    owner s = some key ∧ content = S.toJwk p256CipherSuite key := by
  cases howner : owner s with
  | none =>
      rw [h.absent s hs howner] at hfile
      exact absurd hfile (by simp)
  | some mine =>
      obtain ⟨part, hpart, hcontent⟩ := h.present s mine howner
      obtain rfl := Option.some.inj (hfile.symm.trans hcontent)
      have hprefix := (isPrefix_comesTo count content).trans hpart
      by_cases hwhole : comesTo count content = S.toJwk p256CipherSuite mine
      · rw [hwhole, laws.whole] at hread
        obtain rfl := Option.some.inj hread
        refine ⟨rfl, ?_⟩
        rw [← hwhole] at hpart
        exact hwhole ▸ hpart.eq_of_length_le (isPrefix_comesTo count content).length_le
      · rw [laws.torn hprefix hwhole] at hread
        exact absurd hread (by simp)

/-- **One call on the disk.**  At every step of it the files hold what they held, or the
session's has come to hold the new key pair. -/
theorem Holds.generic (laws : S.JwkLaws) (h : Holds env owner disk) (hs : PlainSession s)
    (os : OsAnswers) (generated : Option S.PrivateKey) :
    let ret := getGenericPersistedKeyPair env (sessionKeyId s) p256CipherSuite os generated disk
    (∀ d ∈ ret.1, Holds env owner d ∨
        ∃ key, generated = some key ∧ owner s = none ∧
          Holds env (assign owner s (some key)) d) ∧
      ((Holds env owner (ret.1.getLastD disk) ∧ ∀ key, ret.2 = .pair key → owner s = some key) ∨
        ∃ key, generated = some key ∧ owner s = none ∧
          Holds env (assign owner s (some key)) (ret.1.getLastD disk) ∧
          ∀ key', ret.2 = .pair key' → key' = key) := by
  intro ret
  have hcases := getGenericPersistedKeyPair_cases env (sessionKeyId s) p256CipherSuite os
    generated disk
  dsimp only at hcases
  cases hcases with
  | inl hnothing =>
      rw [show ret.1 = [] from hnothing.1]
      refine ⟨fun d hd => absurd hd List.not_mem_nil, .inl ⟨h, ?_⟩⟩
      intro key hkey
      exact absurd hkey (hnothing.2 key)
  | inr hcases =>
      cases hcases with
      | inl hread =>
          obtain ⟨content, key, hfile, hjwk, -, hret⟩ := hread
          rw [show ret = ([], .pair key) from hret]
          refine ⟨fun d hd => absurd hd List.not_mem_nil, .inl ⟨h, ?_⟩⟩
          intro key' hkey'
          rw [← KeyOutcome.pair.inj hkey']
          exact (h.read laws hs hfile hjwk).1
      | inr hnew =>
          obtain ⟨key, hdir, hfile, hgenerated, hwritten⟩ := hnew
          have hnone : owner s = none := by
            cases howner : owner s with
            | none => rfl
            | some mine =>
                obtain ⟨part, -, hcontent⟩ := h.present s mine howner
                rw [show disk (sessionFile env s) = none from hfile] at hcontent
                exact absurd hcontent (by simp)
          have htmp : ∀ t, sessionFile env t ≠ tmpFile (sessionFile env s) := by
            intro t
            exact keyFile_ne_tmpFile _ _ _
          have hpart := isPrefix_comesTo os.written (S.toJwk p256CipherSuite key)
          cases hwritten with
          | inl hunnamed =>
              have hkept : ∀ d ∈ ret.1, Holds env owner d := by
                intro d hd
                rw [show ret.1 = _ from hunnamed.1] at hd
                exact h.congr fun t _ => (Disk.mem_writing hd).2 _ (htmp t)
              refine ⟨fun d hd => .inl (hkept d hd), .inl ⟨?_, ?_⟩⟩
              · rw [show ret.1 = _ from hunnamed.1, Disk.getLastD_writing]
                exact h.congr fun t _ => Disk.put_ne (htmp t)
              · intro key' hkey'
                exact absurd hkey' (hunnamed.2 key')
          | inr hnamed =>
              refine ⟨?_, .inr ⟨key, hgenerated, hnone, ?_, hnamed.2⟩⟩
              · intro d hd
                rw [show ret.1 = _ from hnamed.1] at hd
                obtain ⟨htarget, hother⟩ := Disk.mem_replacing (htmp s) hd
                have hsame : ∀ t, PlainSession t → t ≠ s →
                    d (sessionFile env t) = disk (sessionFile env t) := by
                  intro t ht hts
                  exact hother _ (htmp t) fun heq => hts (sessionFile_injective env ht hs heq)
                cases htarget with
                | inl hold =>
                    refine .inl (h.congr fun t ht => ?_)
                    by_cases hts : t = s
                    · rw [hts]
                      exact hold
                    · exact hsame t ht hts
                | inr hreplaced =>
                    exact .inr ⟨key, hgenerated, hnone, h.born hs hdir hpart hreplaced hsame⟩
              · rw [show ret.1 = _ from hnamed.1, Disk.getLastD_replacing]
                refine h.born hs hdir hpart ?_ ?_
                · exact (Disk.rename_target (htmp s)).trans Disk.put_self
                · intro t ht hts
                  have hne := fun heq => hts (sessionFile_injective env ht hs heq)
                  exact (Disk.rename_ne (htmp t) hne).trans (Disk.put_ne (htmp t))

theorem getLastD_take (disk : Disk Bytes UInt8) (disks : List (Disk Bytes UInt8)) (steps : Nat) :
    (disks.take steps).getLastD disk = disk ∨ (disks.take steps).getLastD disk ∈ disks := by
  cases hlast : (disks.take steps).getLast? with
  | none =>
      rw [List.getLastD_eq_getLast?, hlast]
      exact .inl rfl
  | some d =>
      rw [List.getLastD_eq_getLast?, hlast]
      exact .inr (List.mem_of_mem_take (List.mem_of_getLast? hlast))

/-- **A call.** -/
theorem Sound.answered (laws : S.JwkLaws) (h : Sound env p owner) (hs : PlainSession s)
    (version : UInt16) (hnew : ∀ key, generated = some key → key ∉ p.drawn) :
    ∃ owner', Sound env
      (p.answered s generated (getPersistedKeyPair env p.store s version os generated))
      owner' := by
  have hcases := getPersistedKeyPair_cases env p.store s version os generated
  dsimp only at hcases
  cases hcases with
  | inl hcached =>
      obtain ⟨key, hlookup, hcall⟩ := hcached
      rw [hcall]
      have howner := h.caches s key hlookup
      exact ⟨owner, h.holds, h.caches, (h.tells.got howner).draw generated.toList⟩
  | inr hcalled =>
      obtain ⟨-, ret, hret, -, houtcome, hdisk, hmap⟩ := hcalled
      have hgeneric := (h.holds.generic laws hs os generated).2
      rw [← hret, ← hdisk] at hgeneric
      cases hgeneric with
      | inl hkept =>
          refine ⟨owner, hkept.1, ?_, ?_⟩
          · cases hmap with
            | inl hpair =>
                obtain ⟨key, hpair, hmap⟩ := hpair
                show Caches owner
                  (getPersistedKeyPair env p.store s version os generated).store.keyMap
                rw [hmap]
                exact h.caches.insert (hkept.2 key hpair)
            | inr hnone =>
                show Caches owner
                  (getPersistedKeyPair env p.store s version os generated).store.keyMap
                rw [hnone.2]
                exact h.caches
          · show Tells owner (logged p.log s _) (generated.toList ++ p.drawn)
            rw [houtcome]
            cases hout : ret.2 with
            | pair key => exact (h.tells.got (hkept.2 key hout)).draw generated.toList
            | null => exact h.tells.draw generated.toList
            | threw => exact h.tells.draw generated.toList
      | inr hborn =>
          obtain ⟨key, hgenerated, hnone, hholds, honly⟩ := hborn
          have htells := h.tells.born hnone (hnew key hgenerated)
          have hself := assign_self owner s (some key)
          refine ⟨assign owner s (some key), hholds, ?_, ?_⟩
          · cases hmap with
            | inl hpair =>
                obtain ⟨key', hpair, hmap⟩ := hpair
                show Caches _
                  (getPersistedKeyPair env p.store s version os generated).store.keyMap
                rw [hmap, honly key' hpair]
                exact (h.caches.born hnone).insert hself
            | inr hother =>
                show Caches _
                  (getPersistedKeyPair env p.store s version os generated).store.keyMap
                rw [hother.2]
                exact h.caches.born hnone
          · show Tells _ (logged p.log s _) (generated.toList ++ p.drawn)
            rw [houtcome, hgenerated]
            cases hout : ret.2 with
            | pair key' =>
                rw [honly key' hout]
                exact htells.got hself
            | null => exact htells
            | threw => exact htells

/-- **A process that dies in a call.** -/
theorem Sound.die (laws : S.JwkLaws) (h : Sound env p owner) (hs : PlainSession s)
    (version : UInt16) (hnew : ∀ key, generated = some key → key ∉ p.drawn) (steps : Nat) :
    ∃ owner', Sound env
      { p with
        store :=
          { disk := ((getPersistedKeyPair env p.store s version os generated).disks.take
              steps).getLastD p.store.disk }
        drawn := generated.toList ++ p.drawn } owner' := by
  have hkept : Sound env
      { p with store := { disk := p.store.disk }, drawn := generated.toList ++ p.drawn } owner :=
    ⟨h.holds, Caches.empty, h.tells.draw generated.toList⟩
  have hcases := getPersistedKeyPair_cases env p.store s version os generated
  dsimp only at hcases
  cases hcases with
  | inl hcached =>
      obtain ⟨key, -, hcall⟩ := hcached
      rw [hcall, List.take_nil]
      exact ⟨owner, hkept⟩
  | inr hcalled =>
      obtain ⟨-, ret, hret, hdisks, -, -, -⟩ := hcalled
      have hgeneric := (h.holds.generic laws hs os generated).1
      rw [hdisks]
      rw [← hret] at hgeneric
      cases getLastD_take p.store.disk ret.1 steps with
      | inl hbefore =>
          rw [hbefore]
          exact ⟨owner, hkept⟩
      | inr hduring =>
          cases hgeneric _ hduring with
          | inl hholds => exact ⟨owner, hholds, Caches.empty, h.tells.draw generated.toList⟩
          | inr hborn =>
              obtain ⟨key, hgenerated, hnone, hholds⟩ := hborn
              have htells := h.tells.born hnone (hnew key hgenerated)
              refine ⟨assign owner s (some key), hholds, Caches.empty, ?_⟩
              rw [hgenerated]
              exact htells

/-- **A deletion.**  Where it fails the session keeps its key pair. -/
theorem Sound.delete (h : Sound env p owner) (hs : PlainSession s) (version : UInt16) :
    ∃ owner', Sound env (p.deleted s (deletePersistedKeyPair env p.store s version os))
      owner' := by
  have hresult := deletePersistedKeyPair_cases env p.store s version os
  cases hresult with
  | inl hkept =>
      rw [hkept]
      exact ⟨owner, h.holds, h.caches.erase, h.tells⟩
  | inr hremoved =>
      rw [hremoved.2]
      exact ⟨assign owner s none, h.holds.died hs, h.caches.died, h.tells.died⟩

/-- **Every step keeps the invariant.** -/
theorem Sound.step (laws : S.JwkLaws) (h : Sound env p owner) (hstep : Step env p p') :
    ∃ owner', Sound env p' owner' := by
  cases hstep with
  | get s version os generated hs hnew => exact h.answered laws hs version hnew
  | publicKey s version os generated hs hnew =>
      rw [getPersistedPublicKey_fst]
      exact h.answered laws hs version hnew
  | delete s version os hs => exact h.delete hs version
  | exit => exact ⟨owner, h.holds, Caches.empty, h.tells⟩
  | die s version os generated steps hs hnew => exact h.die laws hs version hnew steps

theorem Reachable.sound (laws : S.JwkLaws) (h : Reachable env p) :
    ∃ owner, Sound env p owner := by
  induction h with
  | refl =>
      refine ⟨fun _ => none, ?_, Caches.empty, ?_⟩
      · exact ⟨fun _ _ _ => rfl, fun _ _ h => absurd h (by simp), fun _ _ h => absurd h (by simp),
          fun _ _ h => absurd h (by simp)⟩
      · exact ⟨fun _ _ h => absurd h (by simp), fun _ _ _ h => absurd h (by simp),
          fun _ _ _ _ h => absurd h (by simp), trivial⟩
  | tail _ hstep ih =>
      obtain ⟨owner, hsound⟩ := ih
      exact hsound.step laws hstep

/-- **One key pair for a session.**  Whatever the system answers and wherever the processes
die: two answers of a run are the same key pair exactly where they are for the same session
and no deletion of it succeeded in between. -/
theorem Reachable.same_key_iff (laws : S.JwkLaws) (h : Reachable env p)
    {recent middle old : List (KeyEvent S)} {s t : Bytes} {key key' : S.PrivateKey}
    (hlog : p.log = recent ++ .got s key :: (middle ++ .got t key' :: old)) :
    key = key' ↔ s = t ∧ .deleted t ∉ middle := by
  obtain ⟨owner, hsound⟩ := h.sound laws
  have hagrees := hsound.tells.agrees
  rw [hlog] at hagrees
  exact hagrees.of_append.1 middle old t key' rfl

/-- Key pairs of one byte, between braces on the disk. -/
def byteKeys : SignatureKeys where
  PrivateKey := UInt8
  publicKey key := [key]
  toJwk _ key := [123, key, 125]
  fromJwk _ text :=
    match text with
    | [123, key, 125] => some key
    | _ => none
  sign _ key _ content := some (key :: content)

instance (n : Nat) : OfNat byteKeys.PrivateKey n := inferInstanceAs (OfNat UInt8 n)

theorem byteKeys_jwkLaws : byteKeys.JwkLaws where
  whole := fun _ _ => rfl
  torn := by
    intro _ key part hpart hne
    have hlen : part.length ≤ 3 := hpart.length_le
    have hshort : part.length ≠ 3 := fun h => hne (hpart.eq_of_length h)
    simp only [byteKeys]
    split
    · exact absurd rfl hshort
    · rfl

/-- A user of the example, whose files are under `/h/.config`. -/
def homeEnvironment : Environment := ⟨none, some (ascii "/h")⟩

/-- A process of the user gets a key pair and exits. -/
def leftKey : Persistence byteKeys where
  store :=
    { disk := (getPersistedKeyPair (S := byteKeys) homeEnvironment { disk := fun _ => none }
        (ascii "7") 1 {} (some 1)).store.disk }
  log := [.got (ascii "7") 1]
  drawn := [1]

/-- The next process finds it. -/
def foundKey : Persistence byteKeys :=
  leftKey.answered (ascii "7") none
    (getPersistedKeyPair homeEnvironment leftKey.store (ascii "7") 1 {} none)

/-- It deletes it, and a new one is made. -/
def renewedKey : Persistence byteKeys :=
  let gone := foundKey.deleted (ascii "7")
    (deletePersistedKeyPair homeEnvironment foundKey.store (ascii "7") 1 {})
  gone.answered (ascii "7") (some 2)
    (getPersistedKeyPair homeEnvironment gone.store (ascii "7") 1 {} (some 2))

theorem renewedKey_reachable : Reachable homeEnvironment renewedKey := by
  have hplain : PlainSession (ascii "7") := by decide
  have hleft : Reachable homeEnvironment leftKey := by
    have hmade := @Step.get byteKeys homeEnvironment { store := { disk := fun _ => none } }
      (ascii "7") 1 {} (some 1) hplain fun _ _ => List.not_mem_nil
    exact .tail (.single hmade) .exit
  have hfound : Reachable homeEnvironment foundKey :=
    .tail hleft (.get (ascii "7") 1 {} none hplain fun _ h => absurd h (by simp))
  refine .tail (.tail hfound (.delete (ascii "7") 1 {} hplain)) ?_
  refine .get (ascii "7") 1 {} (some 2) hplain ?_
  intro key hkey
  cases hkey
  show (2 : UInt8) ∉ [1]
  decide

theorem same_key_iff_renewedKey :
    ((1 : UInt8) = 1 ↔ ascii "7" = ascii "7" ∧
        (KeyEvent.deleted (ascii "7") : KeyEvent byteKeys) ∉ []) ∧
      ((2 : UInt8) = 1 ↔ ascii "7" = ascii "7" ∧
        (KeyEvent.deleted (ascii "7") : KeyEvent byteKeys) ∉ [.deleted (ascii "7")]) :=
  ⟨Reachable.same_key_iff byteKeys_jwkLaws renewedKey_reachable
      (show renewedKey.log = [.got (ascii "7") 2, .deleted (ascii "7")] ++
        .got (ascii "7") 1 :: ([] ++ .got (ascii "7") 1 :: []) from rfl),
    Reachable.same_key_iff byteKeys_jwkLaws renewedKey_reachable
      (show renewedKey.log = [] ++ .got (ascii "7") 2 :: ([.deleted (ascii "7")] ++
        .got (ascii "7") 1 :: [.got (ascii "7") 1]) from rfl)⟩

end Runs

end Persistence

end Ekizu.Dave
