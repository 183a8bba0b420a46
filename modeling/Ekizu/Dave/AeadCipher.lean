import Ekizu.Dave.Common
import Ekizu.Lib.Span

/-!
# The AEAD cipher and the key ratchets

`src/dave/aead_cipher.cpp` and `src/dave/key_ratchet.cpp`.  Two things they
call live in other packages and are parameters here: AES-128-GCM with an
eight-byte tag (OpenSSL), and the hash ratchet of MLS (mlspp).  What the DAVE
code relies on is stated next to each of them.
-/

namespace Ekizu.Dave

open Lib.Span

/-! ## AES-GCM -/

/-- AES-128-GCM as the `EVP_*` calls of `AeadCipher` compute it: `gcmEncrypt` gives
the ciphertext and the truncated tag, `gcmDecrypt` checks the tag.  `none` is a
call that failed. -/
structure AesGcm where
  gcmEncrypt : (key nonce additionalData plaintext : Bytes) → Option (Bytes × Bytes)
  gcmDecrypt : (key nonce additionalData ciphertext tag : Bytes) → Option Bytes
  gcmEncrypt_length : ∀ {key nonce additionalData plaintext ciphertext tag},
    gcmEncrypt key nonce additionalData plaintext = some (ciphertext, tag) →
      ciphertext.length = plaintext.length ∧ tag.length = truncatedTagBytes
  gcmDecrypt_length : ∀ {key nonce additionalData ciphertext tag plaintext},
    gcmDecrypt key nonce additionalData ciphertext tag = some plaintext →
      plaintext.length = ciphertext.length

/-- Decrypting an encryption under the same key, nonce and associated data
gives the plaintext. -/
def AesGcm.Correct (gcm : AesGcm) : Prop :=
  ∀ key nonce additionalData plaintext, ∃ ciphertext tag,
    gcm.gcmEncrypt key nonce additionalData plaintext = some (ciphertext, tag) ∧
      gcm.gcmDecrypt key nonce additionalData ciphertext tag = some plaintext

/-- `struct AeadCipher`. -/
structure AeadCipher where
  key : Bytes
  deriving Repr, DecidableEq

namespace AeadCipher

/-- `AeadCipher::encrypt` into a buffer with room for the tag: the ciphertext
followed by the tag. -/
def encrypt (gcm : AesGcm) (cipher : AeadCipher) (plaintext additionalData nonce : Bytes) :
    Option Bytes :=
  (gcm.gcmEncrypt cipher.key nonce additionalData plaintext).map fun (ciphertext, tag) =>
    ciphertext ++ tag

/-- `AeadCipher::decrypt`; the last eight bytes of the input are the tag. -/
def decrypt (gcm : AesGcm) (cipher : AeadCipher) (ciphertext additionalData nonce : Bytes) :
    Option Bytes := do
  let actualCiphertextLen ← sub ciphertext.length truncatedTagBytes
  gcm.gcmDecrypt cipher.key nonce additionalData (ciphertext.take actualCiphertextLen)
    (ciphertext.drop actualCiphertextLen)

theorem decrypt_append (gcm : AesGcm) (cipher : AeadCipher)
    {ciphertext tag additionalData nonce : Bytes} (htag : tag.length = truncatedTagBytes) :
    cipher.decrypt gcm (ciphertext ++ tag) additionalData nonce =
      gcm.gcmDecrypt cipher.key nonce additionalData ciphertext tag := by
  have hlen : (ciphertext ++ tag).length - truncatedTagBytes = ciphertext.length := by
    simp [htag]
  rw [decrypt, sub_of_le (by simp [htag]), Option.bind_eq_bind, Option.bind_some, hlen,
    List.take_left, List.drop_left]

end AeadCipher

/-- The 32-bit nonce as `write_value` stores it. -/
def truncatedNonceBytes (nonce : UInt32) : Bytes :=
  [nonce.toUInt8, (nonce >>> 8).toUInt8, (nonce >>> 16).toUInt8, (nonce >>> 24).toUInt8]

/-- The twelve-byte nonce: eight zero bytes and the truncated nonce. -/
def nonceBuffer (nonce : UInt32) : Bytes :=
  List.replicate truncatedSyncNonceOffset 0 ++ truncatedNonceBytes nonce

/-! ## Key ratchets -/

/-- The operations of `mlspp::HashRatchet` that `MlsKeyRatchet` calls.  `get`
answers `none` where the library throws. -/
class HashRatchet (H : Type) where
  ofSecret : (baseSecret : Bytes) → H
  get : H → (generation : Nat) → Option Bytes × H
  erase : H → (generation : Nat) → H

/-- What the library documents: the key of a generation is a function of the
base secret, a generation can be served until it is erased, and erasing has an
effect on the generations that were derived already. -/
class LawfulHashRatchet (H : Type) [HashRatchet H] where
  /-- The base secret the ratchet was built from. -/
  secretOf : H → Bytes
  /-- The key of a generation. -/
  keyAt : (baseSecret : Bytes) → (generation : Nat) → Bytes
  /-- The generation has not been erased. -/
  live : H → Nat → Prop
  /-- The generations below have been derived. -/
  next : H → Nat
  secretOf_ofSecret : ∀ s, secretOf (HashRatchet.ofSecret s) = s
  secretOf_get : ∀ r g, secretOf (HashRatchet.get r g).2 = secretOf r
  secretOf_erase : ∀ r g, secretOf (HashRatchet.erase r g) = secretOf r
  get_of_live : ∀ {r g}, live r g → (HashRatchet.get r g).1 = some (keyAt (secretOf r) g)
  get_of_not_live : ∀ {r g}, ¬ live r g → (HashRatchet.get r g).1 = none
  live_ofSecret : ∀ s g, live (HashRatchet.ofSecret s) g
  live_get : ∀ r g g', live (HashRatchet.get r g).2 g' ↔ live r g'
  lt_next_get : ∀ {r g}, live r g → g < next (HashRatchet.get r g).2
  next_le_get : ∀ r g, next r ≤ next (HashRatchet.get r g).2
  next_erase : ∀ r g, next (HashRatchet.erase r g) = next r
  not_live_erase : ∀ {r g}, g < next r → ¬ live (HashRatchet.erase r g) g
  live_of_live_erase : ∀ {r g g'}, live (HashRatchet.erase r g) g' → live r g'

/-- The implementations of `KeyRatchetInterface`. -/
inductive KeyRatchet (H : Type) where
  | mls (ratchet : H)
  | simple (baseKey : Bytes)

namespace KeyRatchet

variable {H : Type} [HashRatchet H]

/-- `get_key`; an exception of the library becomes the empty key. -/
def getKey : KeyRatchet H → (generation : UInt8) → Bytes × KeyRatchet H
  | .mls ratchet, generation =>
      let (key, ratchet) := HashRatchet.get ratchet generation.toNat
      (key.getD [], .mls ratchet)
  | .simple baseKey, _ => (baseKey, .simple baseKey)

/-- A ratchet that was just made. -/
inductive Fresh : KeyRatchet H → Prop
  | mls (baseSecret : Bytes) : Fresh (.mls (HashRatchet.ofSecret baseSecret))
  | simple (baseKey : Bytes) : Fresh (.simple baseKey)

/-- `delete_key`. -/
def deleteKey : KeyRatchet H → (generation : UInt8) → KeyRatchet H
  | .mls ratchet, generation => .mls (HashRatchet.erase ratchet generation.toNat)
  | .simple baseKey, _ => .simple baseKey

variable [LawfulHashRatchet H]

open LawfulHashRatchet

/-- What a ratchet was built from; it decides every key it ever gives. -/
def base : KeyRatchet H → Bytes ⊕ Bytes
  | .mls ratchet => .inl (secretOf ratchet)
  | .simple baseKey => .inr baseKey

/-- The key of a generation under a base. -/
def keyOf (H : Type) [HashRatchet H] [LawfulHashRatchet H] :
    Bytes ⊕ Bytes → UInt8 → Bytes
  | .inl secret, generation => keyAt H secret generation.toNat
  | .inr baseKey, _ => baseKey

/-- The generation has not been erased. -/
def Live : KeyRatchet H → UInt8 → Prop
  | .mls ratchet, generation => live ratchet generation.toNat
  | .simple _, _ => True

@[simp] theorem base_getKey (r : KeyRatchet H) (g : UInt8) : (r.getKey g).2.base = r.base := by
  cases r with
  | mls r => simp [getKey, base, secretOf_get]
  | simple k => rfl

@[simp] theorem base_deleteKey (r : KeyRatchet H) (g : UInt8) :
    (r.deleteKey g).base = r.base := by
  cases r with
  | mls r => simp [deleteKey, base, secretOf_erase]
  | simple k => rfl

theorem getKey_of_live {r : KeyRatchet H} {g : UInt8} (h : r.Live g) :
    (r.getKey g).1 = keyOf H r.base g := by
  cases r with
  | mls r => simp [getKey, keyOf, base, get_of_live h]
  | simple k => rfl

/-- A ratchet gives the key of its base or none at all. -/
theorem getKey_eq {r : KeyRatchet H} {g : UInt8} (h : (r.getKey g).1 ≠ []) :
    (r.getKey g).1 = keyOf H r.base g := by
  by_cases hlive : r.Live g
  · exact getKey_of_live hlive
  · cases r with
    | mls r => simp [getKey, get_of_not_live hlive] at h
    | simple k => rfl

@[simp] theorem live_getKey (r : KeyRatchet H) (g g' : UInt8) :
    (r.getKey g).2.Live g' ↔ r.Live g' := by
  cases r with
  | mls r => exact live_get r g.toNat g'.toNat
  | simple k => exact Iff.rfl

/-- A fresh ratchet has every generation. -/
theorem Fresh.live {r : KeyRatchet H} (h : r.Fresh) (g : UInt8) : r.Live g := by
  cases h with
  | mls baseSecret => exact live_ofSecret baseSecret g.toNat
  | simple baseKey => trivial

end KeyRatchet

end Ekizu.Dave
