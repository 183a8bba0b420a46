import Ekizu.Dave.AeadCipher

/-!
# Reference values for the external primitives

Concrete runs need concrete primitives.  `referenceGcm` answers the inputs of a
short table with the ciphertext and tag that AES-128-GCM gives for them, and
any other input with a transparent stand-in; `Chain` is a hash ratchet that
derives, caches and erases like the one of MLS, with its key of generation 0
for one base secret.  Both satisfy everything the development assumes of the
real ones.
-/

namespace Ekizu.Dave

/-! ## AES-GCM -/

/-- An input of AES-128-GCM with the ciphertext and the truncated tag. -/
structure GcmVector where
  key : Bytes
  nonce : Bytes
  additionalData : Bytes
  plaintext : Bytes
  ciphertext : Bytes
  tag : Bytes

/-- A base secret. -/
def referenceSecret : Bytes := [0, 1, 2, 3, 4, 5, 6, 7, 8, 9, 10, 11, 12, 13, 14, 15]

/-- The key of generation 0 under `referenceSecret`. -/
def referenceKey : Bytes :=
  [0x58, 0xfc, 0x01, 0x31, 0x08, 0xdb, 0xf9, 0x96, 0xef, 0x65, 0x1e, 0x3f, 0x01, 0x65, 0x8b,
    0xfb]

/-- The clear bytes of a video frame with twenty slices and one parameter set. -/
def sliceHeaders : Bytes :=
  (List.replicate 20 [0, 0, 0, 1, 0x65, 0xe0]).flatten ++
    ([0, 0, 0, 1, 0x67] ++ List.replicate 127 0x88)

/-- An audio frame of 33 bytes. -/
def speechFrame : Bytes := 0x78 :: (List.range 32).map fun i => UInt8.ofNat (i + 1)

def gcmVectors : List GcmVector :=
  [ { key := referenceKey, nonce := nonceBuffer 1, additionalData := []
      plaintext := [0x78, 0x01, 0x02, 0x03]
      ciphertext := [0xa3, 0xdf, 0x01, 0xe0]
      tag := [0xc4, 0x5c, 0x40, 0x7f, 0x48, 0x8c, 0x9b, 0x90] },
    { key := referenceKey, nonce := nonceBuffer 1, additionalData := []
      plaintext := [0x78, 0x04, 0x05, 0x06]
      ciphertext := [0xa3, 0xda, 0x06, 0xe5]
      tag := [0xb1, 0x71, 0x37, 0x8c, 0x5e, 0xd9, 0x13, 0xcf] },
    { key := referenceKey, nonce := nonceBuffer 1, additionalData := []
      plaintext := speechFrame
      ciphertext := [0xa3, 0xdf, 0x01, 0xe0, 0xa0, 0x12, 0x83, 0x42, 0x50, 0x65, 0x0d, 0xbc,
        0x7f, 0x5c, 0xd6, 0x58, 0xad, 0x1c, 0xcf, 0x69, 0x83, 0x00, 0x66, 0x52, 0xda, 0x9c,
        0x2d, 0x66, 0xdd, 0x7b, 0xe5, 0x1a, 0x95]
      tag := [0xd6, 0x5f, 0x6d, 0x38, 0x9c, 0x29, 0xbc, 0xd5] },
    { key := referenceKey, nonce := nonceBuffer 1, additionalData := sliceHeaders
      plaintext := List.replicate 22 0x55
      ciphertext := [0x8e, 0x8b, 0x56, 0xb6, 0xf1, 0x42, 0xd0, 0x10, 0x0d, 0x39, 0x52, 0xe2,
        0x26, 0x04, 0x8d, 0x02, 0xe8, 0x58, 0x88, 0x2f, 0xc2, 0x40]
      tag := [0xa5, 0x65, 0xe8, 0x3a, 0x60, 0x38, 0x92, 0xdf] } ]

/-- The stand-in's tag. -/
def zeroTag : Bytes := List.replicate truncatedTagBytes 0

private def findInput (key nonce additionalData plaintext : Bytes) : Option GcmVector :=
  gcmVectors.find? fun v =>
    v.key = key ∧ v.nonce = nonce ∧ v.additionalData = additionalData ∧
      v.plaintext = plaintext

private def findOutput (key nonce additionalData ciphertext tag : Bytes) :
    Option GcmVector :=
  gcmVectors.find? fun v =>
    v.key = key ∧ v.nonce = nonce ∧ v.additionalData = additionalData ∧
      v.ciphertext = ciphertext ∧ v.tag = tag

private theorem gcmVectors_length : ∀ v ∈ gcmVectors,
    v.ciphertext.length = v.plaintext.length ∧ v.tag.length = truncatedTagBytes ∧
      v.tag ≠ zeroTag := by
  decide +kernel

/-- The table is a function of its outputs as well. -/
private theorem gcmVectors_injective : ∀ v ∈ gcmVectors, ∀ w ∈ gcmVectors,
    v.tag = w.tag → v.plaintext = w.plaintext := by
  decide +kernel

/-- AES-128-GCM on the inputs of the table, a stand-in elsewhere. -/
def referenceGcm : AesGcm where
  gcmEncrypt key nonce additionalData plaintext :=
    match findInput key nonce additionalData plaintext with
    | some v => some (v.ciphertext, v.tag)
    | none => some (plaintext, zeroTag)
  gcmDecrypt key nonce additionalData ciphertext tag :=
    match findOutput key nonce additionalData ciphertext tag with
    | some v => some v.plaintext
    | none => if tag = zeroTag then some ciphertext else none
  gcmEncrypt_length := by
    intro key nonce additionalData plaintext ciphertext tag h
    split at h
    · next v hv =>
        simp only [Option.some.injEq, Prod.mk.injEq] at h
        obtain ⟨hlen, htag, -⟩ := gcmVectors_length v (List.mem_of_find?_eq_some hv)
        have hp := List.find?_some hv
        simp only [decide_eq_true_eq] at hp
        rw [← h.1, ← h.2, ← hp.2.2.2]
        exact ⟨hlen, htag⟩
    · simp only [Option.some.injEq, Prod.mk.injEq] at h
      rw [← h.1, ← h.2]
      exact ⟨rfl, rfl⟩
  gcmDecrypt_length := by
    intro key nonce additionalData ciphertext tag plaintext h
    split at h
    · next v hv =>
        obtain ⟨hlen, -, -⟩ := gcmVectors_length v (List.mem_of_find?_eq_some hv)
        have hp := List.find?_some hv
        simp only [decide_eq_true_eq] at hp
        rw [← Option.some.inj h, ← hp.2.2.2.1, hlen]
    · split at h
      · rw [← Option.some.inj h]
      · simp at h

theorem referenceGcm_correct : referenceGcm.Correct := by
  intro key nonce additionalData plaintext
  simp only [referenceGcm]
  cases hin : findInput key nonce additionalData plaintext with
  | some v =>
      have hmem := List.mem_of_find?_eq_some hin
      have hp := List.find?_some hin
      simp only [decide_eq_true_eq] at hp
      refine ⟨v.ciphertext, v.tag, rfl, ?_⟩
      cases hout : findOutput key nonce additionalData v.ciphertext v.tag with
      | some w =>
          have hw := List.find?_some hout
          simp only [decide_eq_true_eq] at hw
          have hsame := gcmVectors_injective w (List.mem_of_find?_eq_some hout) v hmem
            hw.2.2.2.2
          simp only
          rw [hsame, hp.2.2.2]
      | none =>
          have hnone := List.find?_eq_none.mp hout v hmem
          simp only [decide_eq_true_eq] at hnone
          exact absurd ⟨hp.1, hp.2.1, hp.2.2.1, trivial, trivial⟩ hnone
  | none =>
      refine ⟨plaintext, zeroTag, rfl, ?_⟩
      cases hout : findOutput key nonce additionalData plaintext zeroTag with
      | some w =>
          have hw := List.find?_some hout
          simp only [decide_eq_true_eq] at hw
          exact absurd hw.2.2.2.2
            (gcmVectors_length w (List.mem_of_find?_eq_some hout)).2.2
      | none => simp

/-- A tag that is neither in the table nor the stand-in's passes under no key. -/
theorem referenceGcm_refuses {tag : Bytes}
    (htag : tag ≠ zeroTag ∧ ∀ v ∈ gcmVectors, v.tag ≠ tag)
    (key nonce additionalData ciphertext : Bytes) :
    referenceGcm.gcmDecrypt key nonce additionalData ciphertext tag = none := by
  simp only [referenceGcm]
  cases hout : findOutput key nonce additionalData ciphertext tag with
  | some v =>
      have hp := List.find?_some hout
      simp only [decide_eq_true_eq] at hp
      exact absurd hp.2.2.2.2 (htag.2 v (List.mem_of_find?_eq_some hout))
  | none => simp [htag.1]

/-- AES-128-GCM on the inputs of another table, elsewhere as before. -/
def AesGcm.withVectors (gcm : AesGcm) (vectors : List GcmVector)
    (hlen : ∀ v ∈ vectors, v.ciphertext.length = v.plaintext.length ∧
      v.tag.length = truncatedTagBytes) : AesGcm where
  gcmEncrypt key nonce additionalData plaintext :=
    match vectors.find? fun v => v.key = key ∧ v.nonce = nonce ∧
        v.additionalData = additionalData ∧ v.plaintext = plaintext with
    | some v => some (v.ciphertext, v.tag)
    | none => gcm.gcmEncrypt key nonce additionalData plaintext
  gcmDecrypt key nonce additionalData ciphertext tag :=
    match vectors.find? fun v => v.key = key ∧ v.nonce = nonce ∧
        v.additionalData = additionalData ∧ v.ciphertext = ciphertext ∧ v.tag = tag with
    | some v => some v.plaintext
    | none => gcm.gcmDecrypt key nonce additionalData ciphertext tag
  gcmEncrypt_length := by
    intro key nonce additionalData plaintext ciphertext tag h
    split at h
    · next v hv =>
        obtain ⟨rfl, rfl⟩ := Prod.mk.inj (Option.some.inj h)
        have hp := List.find?_some hv
        simp only [decide_eq_true_eq] at hp
        rw [← hp.2.2.2]
        exact hlen v (List.mem_of_find?_eq_some hv)
    · exact gcm.gcmEncrypt_length h
  gcmDecrypt_length := by
    intro key nonce additionalData ciphertext tag plaintext h
    split at h
    · next v hv =>
        have hp := List.find?_some hv
        simp only [decide_eq_true_eq] at hp
        rw [← Option.some.inj h, ← hp.2.2.2.1]
        exact (hlen v (List.mem_of_find?_eq_some hv)).1.symm
    · exact gcm.gcmDecrypt_length h

/-- What is not in the table passes if it passed before. -/
theorem AesGcm.withVectors_refuses (gcm : AesGcm) {vectors : List GcmVector} {tag : Bytes}
    (hlen : ∀ v ∈ vectors, v.ciphertext.length = v.plaintext.length ∧
      v.tag.length = truncatedTagBytes) (htag : ∀ v ∈ vectors, v.tag ≠ tag)
    {key nonce additionalData ciphertext : Bytes}
    (hgcm : ∀ key nonce additionalData ciphertext,
      gcm.gcmDecrypt key nonce additionalData ciphertext tag = none) :
    (gcm.withVectors vectors hlen).gcmDecrypt key nonce additionalData ciphertext tag = none := by
  simp only [AesGcm.withVectors]
  split
  · next v hv =>
      have hp := List.find?_some hv
      simp only [decide_eq_true_eq] at hp
      exact absurd hp.2.2.2.2 (htag v (List.mem_of_find?_eq_some hv))
  · exact hgcm key nonce additionalData ciphertext

/-! ## The hash ratchet -/

/-- A ratchet that has derived the generations below `next` and erased some of
them. -/
structure Chain where
  secret : Bytes
  next : Nat
  erased : List Nat
  deriving DecidableEq

/-- The sixteen bytes of the key of a generation: the derived ones for `referenceSecret`,
elsewhere the generation in front of as much of the secret as fits. -/
def chainKey (secret : Bytes) (generation : Nat) : Bytes :=
  if secret = referenceSecret ∧ generation = 0 then referenceKey
  else (generation.toUInt8 :: 0 :: (secret ++ List.replicate 14 0)).take 16

/-- The generations of one secret have different keys. -/
theorem chainKey_generation {secret : Bytes} {g g' : Nat} (hg : g < 256) (hg' : g' < 256)
    (h : chainKey secret g = chainKey secret g') : g = g' := by
  unfold chainKey at h
  split at h
  · next hfirst =>
      split at h
      · next hfirst' => exact hfirst.2.trans hfirst'.2.symm
      · have hsecond : (252 : UInt8) = 0 := (List.cons.inj (List.cons.inj h).2).1
        exact absurd hsecond (by decide)
  · split at h
    · have hsecond : (0 : UInt8) = 252 := (List.cons.inj (List.cons.inj h).2).1
      exact absurd hsecond (by decide)
    · have hgen := congrArg UInt8.toNat (List.cons.inj h).1
      simp only [Nat.toUInt8, UInt8.toNat_ofNat'] at hgen
      omega

instance : HashRatchet Chain where
  ofSecret secret := ⟨secret, 0, []⟩
  get r generation :=
    if generation ∈ r.erased then (none, r)
    else (some (chainKey r.secret generation), { r with next := max r.next (generation + 1) })
  erase r generation :=
    if generation < r.next then { r with erased := generation :: r.erased } else r

instance : LawfulHashRatchet Chain where
  secretOf := Chain.secret
  keyAt := chainKey
  live r generation := generation ∉ r.erased
  next := Chain.next
  secretOf_ofSecret _ := rfl
  secretOf_get r g := by
    simp only [HashRatchet.get]
    split <;> rfl
  secretOf_erase r g := by
    simp only [HashRatchet.erase]
    split <;> rfl
  get_of_live h := by simp [HashRatchet.get, h]
  get_of_not_live h := by simp [HashRatchet.get, not_not.mp h]
  live_ofSecret _ _ := List.not_mem_nil
  live_get r g g' := by
    simp only [HashRatchet.get]
    split <;> exact Iff.rfl
  lt_next_get h := by
    simp only [HashRatchet.get, if_neg h]
    omega
  next_le_get r g := by
    simp only [HashRatchet.get]
    split
    · exact Nat.le_refl _
    · exact Nat.le_max_left _ _
  next_erase r g := by
    simp only [HashRatchet.erase]
    split <;> rfl
  not_live_erase h := by simp [HashRatchet.erase, h]
  live_of_live_erase h := by
    simp only [HashRatchet.erase] at h
    split at h
    · simp only [List.mem_cons, not_or] at h
      exact h.2
    · exact h

/-! ## Bytes and clock readings -/

/-- A short audio frame. -/
def audioFrame : Bytes := [0x78, 0x01, 0x02, 0x03]

/-- The encryption of `audioFrame` under `referenceKey` with nonce 1. -/
def sentAudioFrame : Bytes :=
  [0xa3, 0xdf, 0x01, 0xe0, 0xc4, 0x5c, 0x40, 0x7f, 0x48, 0x8c, 0x9b, 0x90, 0x01, 0x0c, 0xfa,
    0xfa]

/-- A reading of the clock. -/
def referenceInstant : Instant := ⟨0, by decide, by decide⟩

end Ekizu.Dave
