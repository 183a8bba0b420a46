import Ekizu.Dave.Membership
import Ekizu.Lib.SortedMap

/-!
# The roster

`Session::replace_state` as the source computes it: rosters in the order of the user
ids, and two passes of `std::set_difference` over pairs that write into one map.
`Session.replaceState` is the same on rosters without an order.

The id of a member is read off its credential twice: `replace_state` takes the first
eight bytes of the identity as a number, `is_recognized_user_id` takes other lengths
as text.

## Main results

* `replaceState_exact` — the map that is returned, and the new roster.
* `Agrees.replaceState` — `Session.replaceState` computes the same.
* `recognized_stored_iff` — which accepted identities are stored under the id that
  was recognised.
-/

namespace Ekizu.Dave

open Lib Lib.Decimal

/-- `RosterMap` in the order of the user ids. -/
abbrev Roster := SortedMap UInt64 Bytes (· < ·)

/-- The id that `replace_state` stores the leaf of a credential under; it skips
credentials that are not basic. -/
def storedUserId : Credential → Option UInt64
  | .basic identity => some (fromBigEndianBytes identity)
  | .other => none

namespace Roster

/-- The first loop of `replace_state`, for one leaf. -/
def store (roster : Roster) (leaf : RosterLeaf) : Roster :=
  match storedUserId leaf.credential with
  | some id => roster.assign id leaf.signatureKey
  | none => roster

def newRoster (leaves : List RosterLeaf) : Roster := leaves.foldl store ∅

/-- The first `std::set_difference`, into the map itself. -/
def insertChanged (newRoster roster changeMap : Roster) : Roster :=
  changeMap.insertAll (SortedMap.difference (· < ·) newRoster roster)

/-- The second one, through a `MissingItemWrapper`. -/
def insertMissing (newRoster roster changeMap : Roster) : Roster :=
  changeMap.insertAll ((SortedMap.difference (· < ·) roster newRoster).map fun e => (e.1, []))

/-- `replace_state`: `m_roster` afterwards, and the map that is returned. -/
def replaceState (roster : Roster) (leaves : List RosterLeaf) : Roster × Roster :=
  let newRoster := newRoster leaves
  (newRoster, insertMissing newRoster roster (insertChanged newRoster roster ∅))

end Roster

/-! ## What the map is for -/

/-- The key of a member: that of the last leaf with its id. -/
def keyOf (leaves : List RosterLeaf) (id : UInt64) : Option Bytes :=
  (leaves.reverse.find? fun leaf => storedUserId leaf.credential = some id).map (·.signatureKey)

/-- What has become of a member with an old and a new key, where it had one: its new
key, an empty key, or nothing to say. -/
def delta (oldKey newKey : Option Bytes) : Option Bytes :=
  match newKey with
  | some key => if oldKey = some key then none else some key
  | none => oldKey.map fun _ => []

namespace Roster

theorem find?_store (roster : Roster) (leaf : RosterLeaf) (id : UInt64) :
    (roster.store leaf).find? id =
      if storedUserId leaf.credential = some id then some leaf.signatureKey
      else roster.find? id := by
  unfold store
  split
  · next id' hid => simp only [SortedMap.find?_assign, hid, Option.some.injEq, eq_comm]
  · next hnone =>
      rw [hnone]
      rfl

/-- The roster holds the key of every member. -/
theorem find?_newRoster (leaves : List RosterLeaf) (id : UInt64) :
    (newRoster leaves).find? id = keyOf leaves id := by
  rw [newRoster, List.foldl_eq_foldr_reverse, keyOf]
  induction leaves.reverse with
  | nil => rfl
  | cons leaf leaves ih =>
      rw [List.foldr_cons, find?_store, ih, List.find?_cons]
      by_cases h : storedUserId leaf.credential = some id
      · simp [h]
      · simp [h]

theorem lookup_map_empty (entries : List (UInt64 × Bytes)) (id : UInt64) :
    (entries.map fun e => (e.1, ([] : Bytes))).lookup id = (entries.lookup id).map fun _ => [] := by
  induction entries with
  | nil => rfl
  | cons e entries ih =>
      rw [List.map_cons, SortedMap.lookup_cons, SortedMap.lookup_cons, ih]
      split <;> rfl

/-- The map says of every id what has become of it. -/
theorem find?_changeMap (roster : Roster) (leaves : List RosterLeaf) (id : UInt64) :
    (roster.replaceState leaves).2.find? id = delta (roster.find? id) (keyOf leaves id) := by
  rw [replaceState, insertMissing, insertChanged, SortedMap.find?_insertAll,
    SortedMap.find?_insertAll, SortedMap.find?_empty, Option.none_or, lookup_map_empty,
    SortedMap.lookup_difference, SortedMap.lookup_difference, find?_newRoster]
  cases hnew : keyOf leaves id with
  | none => cases roster.find? id <;> simp [delta]
  | some key =>
      by_cases hold : roster.find? id = some key
      · simp [hold, delta]
      · simp [hold, delta]

/-- **The delta is exact.**  The new roster holds for every id the key of the last
leaf with it.  The map that is returned holds the new key of each member that was
added or got another key, an empty key for each that is gone, and nothing else. -/
theorem replaceState_exact (roster : Roster) (leaves : List RosterLeaf) (id : UInt64) :
    (roster.replaceState leaves).1.find? id = keyOf leaves id ∧
      (roster.replaceState leaves).2.find? id = delta (roster.find? id) (keyOf leaves id) :=
  ⟨find?_newRoster leaves id, find?_changeMap roster leaves id⟩

end Roster

/-! ## Rosters without an order -/

/-- An ordered roster and one without an order hold the same keys. -/
def Agrees (roster : Roster) (map : RosterMap) : Prop := ∀ id, map.lookup id = roster.find? id

namespace Agrees

theorem insert {roster : Roster} {map : RosterMap} (h : Agrees roster map) (id : UInt64)
    (key : Bytes) : Agrees (roster.assign id key) (map.insert id key) := by
  intro k
  rw [SortedMap.find?_assign]
  by_cases hk : k = id
  · subst hk
    rw [if_pos rfl, AList.lookup_insert]
  · rw [if_neg hk, AList.lookup_insert_ne hk, h k]

theorem collectRoster (leaves : List RosterLeaf) :
    Agrees (Roster.newRoster leaves) (collectRoster leaves) := by
  rw [Roster.newRoster, Dave.collectRoster, List.foldl_eq_foldr_reverse,
    List.foldl_eq_foldr_reverse]
  induction leaves.reverse with
  | nil => exact fun _ => rfl
  | cons leaf leaves ih =>
      rw [List.foldr_cons, List.foldr_cons, Roster.store]
      cases leaf.credential with
      | basic identity => exact ih.insert _ _
      | other => exact ih

/-- The entries that another roster does not have. -/
theorem lookup_difference (a b : RosterMap) (id : UInt64) :
    (RosterMap.difference a b).lookup id =
      (a.lookup id).filter fun key => b.lookup id ≠ some key := by
  apply Option.ext
  intro key
  show key ∈ (RosterMap.difference a b).lookup id ↔ _
  rw [AList.mem_lookup_iff, RosterMap.difference, List.mem_filter, ← AList.mem_lookup_iff,
    Option.filter_eq_some_iff, Option.mem_def]

/-- An empty key for every id there is no entry of. -/
theorem lookup_insertMissing (entries : List (Sigma fun _ : UInt64 => Bytes)) (id : UInt64) :
    ∀ m : RosterMap, (entries.foldl (fun m e => RosterMap.tryEmplace m e.1 []) m).lookup id =
      (m.lookup id).or (if id ∈ entries.map (·.1) then some [] else none) := by
  induction entries with
  | nil => exact fun m => Option.or_none.symm
  | cons e entries ih =>
      intro m
      rw [List.foldl_cons, ih, RosterMap.tryEmplace]
      simp only [List.map_cons, List.mem_cons]
      by_cases h : id = e.1
      · subst h
        cases hold : m.lookup e.1 with
        | none => simp
        | some key => simp [hold]
      · have hlater : (id = e.1 ∨ id ∈ entries.map (·.1)) ↔ id ∈ entries.map (·.1) :=
          or_iff_right h
        simp only [hlater]
        split
        · rfl
        · rw [AList.lookup_insert_ne h]

/-- `Session.replaceState` returns the map that the source computes, up to its order. -/
theorem replaceState {roster : Roster} {map : RosterMap} (h : Agrees roster map)
    (leaves : List RosterLeaf) :
    Agrees (roster.replaceState leaves).1 (Dave.collectRoster leaves) ∧
      Agrees (roster.replaceState leaves).2 (rosterChange (Dave.collectRoster leaves) map) := by
  have hnew := collectRoster leaves
  have hcollected : ∀ id, (Dave.collectRoster leaves).lookup id = keyOf leaves id :=
    fun id => (hnew id).trans (Roster.find?_newRoster leaves id)
  refine ⟨hnew, ?_⟩
  intro id
  have hgone : id ∈ (RosterMap.difference map (Dave.collectRoster leaves)).entries.map (·.1) ↔
      ((roster.find? id).filter fun key => keyOf leaves id ≠ some key).isSome = true := by
    rw [← hcollected, ← h id, ← lookup_difference, AList.lookup_isSome]
    rfl
  rw [Roster.find?_changeMap, rosterChange, lookup_insertMissing, lookup_difference, hcollected,
    h id]
  simp only [hgone]
  cases keyOf leaves id with
  | none => cases roster.find? id <;> simp [delta]
  | some key =>
      by_cases hold : roster.find? id = some key
      · simp [hold, delta]
      · simp [hold, delta]

end Agrees

/-! ## The two ids of a member -/

/-- More bytes of a big-endian number leave its high bytes as they are. -/
theorem foldl_bytes_bounds (bytes : Bytes) :
    ∀ acc : UInt64, (acc.toNat + 1) * 256 ^ bytes.length ≤ 2 ^ 64 →
      acc.toNat * 256 ^ bytes.length ≤
          (bytes.foldl (fun (value : UInt64) b => value <<< 8 ||| b.toUInt64) acc).toNat ∧
        (bytes.foldl (fun (value : UInt64) b => value <<< 8 ||| b.toUInt64) acc).toNat <
          (acc.toNat + 1) * 256 ^ bytes.length := by
  induction bytes with
  | nil =>
      intro acc _
      simp
  | cons b bytes ih =>
      intro acc h
      have hb := b.toNat_lt
      have hpos : 0 < 256 ^ bytes.length := Nat.pow_pos (by decide)
      rw [List.length_cons, Nat.pow_succ'] at h ⊢
      have hacc : acc.toNat < 2 ^ 56 := by
        have hone : (acc.toNat + 1) * 256 ≤ (acc.toNat + 1) * (256 * 256 ^ bytes.length) :=
          Nat.mul_le_mul_left _ (Nat.le_mul_of_pos_right _ hpos)
        omega
      have hnext := toNat_append_byte acc b hacc
      have hlow : acc.toNat * (256 * 256 ^ bytes.length) ≤
          (acc.toNat * 256 + b.toNat) * 256 ^ bytes.length := by
        rw [← Nat.mul_assoc]
        exact Nat.mul_le_mul_right _ (Nat.le_add_right _ _)
      have hhigh : (acc.toNat * 256 + b.toNat + 1) * 256 ^ bytes.length ≤
          (acc.toNat + 1) * (256 * 256 ^ bytes.length) := by
        rw [← Nat.mul_assoc]
        exact Nat.mul_le_mul_right _ (by omega)
      have hrest := ih (acc <<< 8 ||| b.toUInt64) (by rw [hnext]; omega)
      rw [hnext] at hrest
      rw [List.foldl_cons]
      omega

/-- An identity of at most eight bytes has the magnitude of its first byte. -/
theorem fromBigEndianBytes_bounds {b : UInt8} {bytes : Bytes} (h : bytes.length < 8) :
    b.toNat * 256 ^ bytes.length ≤ (fromBigEndianBytes (b :: bytes)).toNat ∧
      (fromBigEndianBytes (b :: bytes)).toNat < (b.toNat + 1) * 256 ^ bytes.length := by
  have hb := b.toNat_lt
  have hle : (b.toNat + 1) * 256 ^ bytes.length ≤ 2 ^ 64 := by
    calc (b.toNat + 1) * 256 ^ bytes.length
        ≤ 256 * 256 ^ 7 :=
          Nat.mul_le_mul (by omega) (Nat.pow_le_pow_right (by decide) (by omega))
      _ = 2 ^ 64 := by decide
  have hfirst : b.toUInt64.toNat = b.toNat := UInt8.toNat_toUInt64 b
  have hfold := foldl_bytes_bounds bytes b.toUInt64 (by rw [hfirst]; exact hle)
  have htake : (b :: bytes).take 8 = b :: bytes := List.take_of_length_le h
  rw [hfirst] at hfold
  rw [fromBigEndianBytes, htake, List.foldl_cons]
  simpa using hfold

/-- The number that a short identity spells is not the one it is stored under. -/
theorem not_spells_short {identity : Bytes} (hshort : identity.length < 8) :
    ¬ Spells identity (fromBigEndianBytes identity) := by
  intro hspells
  have hfirst : ∀ b bytes, identity = b :: bytes → 0 < b.toNat := by
    rintro b bytes rfl
    exact hspells.head_pos
  obtain ⟨blanks, sign, zeros, rest, htext, hblanks, hsign, hzeros, -⟩ := hspells
  generalize hvalue : fromBigEndianBytes identity = value at htext
  generalize hn : (if sign = [45] then 0 - value else value) = n at htext
  obtain ⟨hne, hdigits, hwritten⟩ := toDecimal_digits n
  have hsmall : n.toNat < 10 ^ (toDecimal n).length := by
    rw [← hwritten]
    exact digitsValue_lt hdigits
  have hlength := congrArg List.length htext
  simp only [List.length_append] at hlength
  cases identity with
  | nil => simp [hne] at htext
  | cons b bytes =>
      have hb := hfirst b bytes rfl
      rw [List.length_cons] at hshort hlength
      have hseven : bytes.length < 8 := by omega
      obtain ⟨hlow, hhigh⟩ := fromBigEndianBytes_bounds (b := b) hseven
      rw [hvalue] at hlow hhigh
      have hpow : 10 ^ bytes.length ≤ 256 ^ bytes.length := Nat.pow_le_pow_left (by decide) _
      have hone : 256 ^ bytes.length ≤ b.toNat * 256 ^ bytes.length :=
        Nat.le_mul_of_pos_left _ hb
      by_cases hminus : sign = [45]
      · -- the negation of a short number has more digits than there are bytes
        rw [if_pos hminus] at hn
        rw [hminus, List.length_singleton] at hlength
        have hten : 10 ^ (toDecimal n).length ≤ 10 ^ 6 :=
          Nat.pow_le_pow_right (by decide) (by omega)
        have htop : (b.toNat + 1) * 256 ^ bytes.length ≤ 256 * 256 ^ 6 :=
          Nat.mul_le_mul b.toNat_lt (Nat.pow_le_pow_right (by decide) (by omega))
        have hsum : value.toNat + n.toNat = 2 ^ 64 := by
          rw [← hn, UInt64.toNat_sub]
          have hlt := value.toNat_lt
          have hpos : 0 < 256 ^ bytes.length := Nat.pow_pos (by decide)
          simp
          omega
        omega
      · rw [if_neg hminus] at hn
        subst hn
        by_cases hdigit : isDigit b = true
        · have hten : 10 ^ (toDecimal value).length ≤ 10 ^ (bytes.length + 1) :=
            Nat.pow_le_pow_right (by decide) (by omega)
          have hcode : 48 ≤ b.toNat := by
            simp only [isDigit, Bool.and_eq_true, decide_eq_true_eq, UInt8.le_iff_toNat_le]
              at hdigit
            exact hdigit.1
          have hmany := Nat.mul_le_mul_right (256 ^ bytes.length) hcode
          rw [Nat.pow_succ] at hten
          omega
        · have hfew : (toDecimal value).length ≤ bytes.length := by
            by_contra hmore
            have hwhole : b :: bytes = toDecimal value := by
              have hbl : blanks = [] := List.eq_nil_of_length_eq_zero (by omega)
              have hsi : sign = [] := List.eq_nil_of_length_eq_zero (by omega)
              have hze : zeros = [] := List.eq_nil_of_length_eq_zero (by omega)
              have hre : rest = [] := List.eq_nil_of_length_eq_zero (by omega)
              simpa [hbl, hsi, hze, hre] using htext
            exact hdigit (hdigits b (by rw [← hwhole]; exact List.mem_cons_self))
          have hten : 10 ^ (toDecimal value).length ≤ 10 ^ bytes.length :=
            Nat.pow_le_pow_right (by decide) hfew
          omega

/-- The id that is looked up and the one the leaf is stored under. -/
theorem userId_eq_storedUserId (identity : Bytes) :
    (Credential.basic identity).userId = storedUserId (.basic identity) ↔
      identity.length = 8 ∨
        8 < identity.length ∧ Spells identity (fromBigEndianBytes identity) := by
  show stoull (if identity.length = 8 then toDecimal (fromBigEndianBytes identity)
      else identity) = some (fromBigEndianBytes identity) ↔ _
  by_cases height : identity.length = 8
  · rw [if_pos height, stoull_toDecimal]
    exact iff_of_true rfl (.inl height)
  · rw [if_neg height, stoull_eq_some]
    constructor
    · intro hspells
      refine .inr ⟨?_, hspells⟩
      by_contra hlong
      exact not_spells_short (by omega) hspells
    · intro h
      cases h with
      | inl hlength => exact absurd hlength height
      | inr hlong => exact hlong.2

/-- **Two ids for one credential.**  A recognised member is stored under the id that was
looked up exactly when its identity has eight bytes, or is longer and spells the number
that its first eight bytes are. -/
theorem recognized_stored_iff {identity : Bytes} {recognised : List UInt64}
    (h : Session.isRecognizedUserId (.basic identity) recognised = true) :
    (∃ id ∈ recognised, (Credential.basic identity).userId = some id ∧
        storedUserId (.basic identity) = some id) ↔
      identity.length = 8 ∨
        8 < identity.length ∧ Spells identity (fromBigEndianBytes identity) := by
  rw [← userId_eq_storedUserId]
  constructor
  · rintro ⟨id, -, hlooked, hstored⟩
    rw [hlooked, hstored]
  · intro hsame
    obtain ⟨id, hid, hlooked⟩ := (isRecognizedUserId_iff _ _).mp h
    exact ⟨id, hid, hlooked, hsame.symm.trans hlooked⟩

/-- Eight bytes are one id. -/
theorem recognized_stored_eight :
    Session.isRecognizedUserId (.basic (bigEndianBytesFrom 1)) [1] = true ∧
      ∃ id ∈ [1], (Credential.basic (bigEndianBytesFrom 1)).userId = some id ∧
        storedUserId (.basic (bigEndianBytesFrom 1)) = some id := by
  have h : Session.isRecognizedUserId (.basic (bigEndianBytesFrom 1)) [1] = true := by decide
  exact ⟨h, (recognized_stored_iff h).mpr (.inl rfl)⟩

/-- The identity `"1"` is looked up as user 1 and stored as user 49. -/
theorem recognized_stored_digit :
    ¬ ∀ (identity : Bytes) (recognised : List UInt64),
        Session.isRecognizedUserId (.basic identity) recognised = true →
          ∃ id ∈ recognised, (Credential.basic identity).userId = some id ∧
            storedUserId (.basic identity) = some id := by
  intro h
  obtain ⟨id, hid, -, hstored⟩ := h [0x31] [1] (by decide)
  obtain rfl : id = 1 := by simpa using hid
  exact absurd hstored (by decide)

end Ekizu.Dave
