import Ekizu.Dave.Outbound

/-!
# Chunks and their order

The outbound processor keeps its bytes in two flat buffers and the order of the calls only
in its range list.  That is enough: put back along the ranges, the bytes come out in call
order, whatever stands in for the encrypted ones.

## Main results

* `addRange_separated` — no two ranges touch.
* `weave_addRange` — weaving along the ranges is putting the chunks back in order.
* `bookkeeping` — what holds of a processor after any sequence of calls.
-/

namespace Ekizu.Dave

open Lib.Span
open Lib.Segments

/-! ## Chunks -/

/-- The argument of a call. -/
def Piece.bytes : Piece → Bytes
  | .unencrypted bytes => bytes
  | .encrypted bytes => bytes

/-- The unencrypted bytes of a sequence of calls. -/
def clearBytes : List Piece → Bytes
  | [] => []
  | .unencrypted bytes :: pieces => bytes ++ clearBytes pieces
  | .encrypted _ :: pieces => clearBytes pieces

/-- The bytes of a sequence of calls that are to be encrypted. -/
def secretBytes : List Piece → Bytes
  | [] => []
  | .unencrypted _ :: pieces => secretBytes pieces
  | .encrypted bytes :: pieces => bytes ++ secretBytes pieces

/-- The chunks in call order, each encrypted one replaced by the next slice of the
ciphertext. -/
def withCiphertext : List Piece → (ciphertext : Bytes) → Bytes
  | [], _ => []
  | .unencrypted bytes :: pieces, ciphertext => bytes ++ withCiphertext pieces ciphertext
  | .encrypted bytes :: pieces, ciphertext =>
      ciphertext.take bytes.length ++ withCiphertext pieces (ciphertext.drop bytes.length)

theorem clearBytes_append (ps qs : List Piece) :
    clearBytes (ps ++ qs) = clearBytes ps ++ clearBytes qs := by
  induction ps with
  | nil => rfl
  | cons p ps ih => cases p <;> simp [clearBytes, ih]

theorem secretBytes_append (ps qs : List Piece) :
    secretBytes (ps ++ qs) = secretBytes ps ++ secretBytes qs := by
  induction ps with
  | nil => rfl
  | cons p ps ih => cases p <;> simp [secretBytes, ih]

theorem withCiphertext_append (ps qs : List Piece) (ciphertext : Bytes) :
    withCiphertext (ps ++ qs) ciphertext =
      withCiphertext ps ciphertext ++
        withCiphertext qs (ciphertext.drop (secretBytes ps).length) := by
  induction ps generalizing ciphertext with
  | nil => rfl
  | cons p ps ih =>
      cases p with
      | unencrypted bytes => simp [withCiphertext, secretBytes, ih]
      | encrypted bytes => simp [withCiphertext, secretBytes, ih, List.drop_drop]

theorem withCiphertext_length {pieces : List Piece} {ciphertext : Bytes}
    (h : (secretBytes pieces).length ≤ ciphertext.length) :
    (withCiphertext pieces ciphertext).length =
      (clearBytes pieces).length + (secretBytes pieces).length := by
  induction pieces generalizing ciphertext with
  | nil => rfl
  | cons p pieces ih =>
      cases p with
      | unencrypted bytes =>
          simp only [withCiphertext, clearBytes, secretBytes, List.length_append, ih h]
          omega
      | encrypted bytes =>
          simp only [secretBytes, List.length_append] at h
          have hrest : (withCiphertext pieces (ciphertext.drop bytes.length)).length = _ :=
            ih (by rw [List.length_drop]; omega)
          simp only [withCiphertext, clearBytes, secretBytes, List.length_append,
            List.length_take, hrest]
          omega

/-- The bytes of all calls are the unencrypted and the encrypted ones. -/
theorem flatMap_bytes_length (pieces : List Piece) :
    (pieces.flatMap Piece.bytes).length =
      (clearBytes pieces).length + (secretBytes pieces).length := by
  induction pieces with
  | nil => rfl
  | cons p pieces ih =>
      rw [List.flatMap_cons, List.length_append, ih]
      cases p with
      | unencrypted bytes =>
          simp only [Piece.bytes, clearBytes, secretBytes, List.length_append]
          omega
      | encrypted bytes =>
          simp only [Piece.bytes, clearBytes, secretBytes, List.length_append]
          omega

namespace OutboundFrameProcessor

/-! ## One call -/

/-- Each range ends in front of the next one, with a byte between them. -/
def Separated (ranges : List Range) : Prop :=
  ranges.Pairwise fun a b => a.offset + a.size < b.offset

theorem separated_append_singleton {ranges : List Range} {r : Range} :
    Separated (ranges ++ [r]) ↔
      Separated ranges ∧ ∀ a ∈ ranges, a.offset + a.size < r.offset := by
  rw [Separated, List.pairwise_append]
  simp [Separated]

/-- Every range of an ordered list ends at or before the last end. -/
theorem end_le_endPos {pos : Nat} {ranges : List Range} (h : Ordered pos ranges) {r : Range}
    (hr : r ∈ ranges) : r.offset + r.size ≤ endPos pos ranges := by
  induction ranges generalizing pos with
  | nil => simp at hr
  | cons s ranges ih =>
      cases List.mem_cons.mp hr with
      | inl hfirst =>
          subst hfirst
          exact pos_le_endPos h.2
      | inr hlater => exact ih h.2 hlater

/-- A range is started only behind a byte that is in none. -/
theorem addRange_separated {ranges : List Range} {frameIndex : Nat} (size : Nat)
    (hord : Ordered 0 ranges) (hend : endPos 0 ranges ≤ frameIndex) (h : Separated ranges) :
    Separated (addRange ranges frameIndex size) := by
  cases List.eq_nil_or_concat ranges with
  | inl hnil =>
      subst hnil
      exact List.pairwise_singleton _ _
  | inr hconcat =>
      obtain ⟨front, back, rfl⟩ := hconcat
      rw [List.concat_eq_append] at hord hend h ⊢
      simp only [addRange, List.getLast?_append, List.getLast?_singleton, Option.some_or,
        List.dropLast_concat]
      split
      · -- the last range grows in place
        rw [separated_append_singleton] at h ⊢
        exact h
      · next hgap =>
          rw [endPos_append_singleton] at hend
          obtain ⟨hfront, hback⟩ := ordered_of_append_singleton hord
          rw [separated_append_singleton]
          refine ⟨h, fun a ha => ?_⟩
          show a.offset + a.size < frameIndex
          cases List.mem_append.mp ha with
          | inl hearlier =>
              have hle : a.offset + a.size ≤ endPos 0 front := end_le_endPos hfront hearlier
              omega
          | inr hlast =>
              obtain rfl := List.mem_singleton.mp hlast
              omega

/-- A range at the end of the list puts its bytes in at its offset. -/
theorem weave_append_range {ranges : List Range} {offset : Nat} {clear ciphertext : Bytes}
    (bytes : Bytes) (hord : Ordered 0 ranges) (hsizes : clear.length = sizes ranges)
    (hend : endPos 0 ranges ≤ offset) (hroom : offset ≤ clear.length + ciphertext.length) :
    weave 0 (ranges ++ [⟨offset, bytes.length⟩]) (clear ++ bytes) ciphertext =
      (weave 0 ranges clear ciphertext).take offset ++
        (bytes ++ (weave 0 ranges clear ciphertext).drop offset) := by
  have happend : weave 0 (ranges ++ [⟨offset, bytes.length⟩]) (clear ++ bytes) ciphertext =
      (weave 0 ranges clear ciphertext).take (offset - 0) ++
        (bytes.take bytes.length ++ (weave 0 ranges clear ciphertext).drop (offset - 0)) :=
    weave_append_singleton hord hsizes hend (by simp only; omega)
  rwa [List.take_length, Nat.sub_zero] at happend

/-- The new bytes go in at the frame index, whether the last range grows or a new one
starts. -/
theorem weave_addRange {ranges : List Range} {frameIndex : Nat} {clear ciphertext : Bytes}
    (bytes : Bytes) (hord : Ordered 0 ranges) (hsizes : clear.length = sizes ranges)
    (hend : endPos 0 ranges ≤ frameIndex)
    (hroom : frameIndex ≤ clear.length + ciphertext.length) :
    weave 0 (addRange ranges frameIndex bytes.length) (clear ++ bytes) ciphertext =
      (weave 0 ranges clear ciphertext).take frameIndex ++
        (bytes ++ (weave 0 ranges clear ciphertext).drop frameIndex) := by
  have hnew := weave_append_range bytes hord hsizes hend hroom
  cases List.eq_nil_or_concat ranges with
  | inl hnil =>
      subst hnil
      exact hnew
  | inr hconcat =>
      obtain ⟨front, ⟨offset, size⟩, rfl⟩ := hconcat
      rw [List.concat_eq_append] at hord hsizes hend hnew ⊢
      simp only [addRange, List.getLast?_append, List.getLast?_singleton, Option.some_or,
        List.dropLast_concat]
      split
      · next hadj =>
          obtain ⟨hfront, hback⟩ := ordered_of_append_singleton hord
          rw [sizes_append] at hsizes
          simp only [sizes, Nat.add_zero] at hsizes hback
          -- `last` is what the last range holds, `inner` what the ranges before it hold
          obtain ⟨inner, last, hclear, hinner⟩ : ∃ inner last, clear = inner ++ last ∧
              inner.length = sizes front :=
            ⟨clear.take (sizes front), clear.drop (sizes front),
              (List.take_append_drop _ _).symm, by rw [List.length_take]; omega⟩
          rw [hclear, List.length_append] at hsizes hroom
          obtain rfl : size = last.length := by omega
          have hgaps := endPos_eq hfront
          have hroom' : offset ≤ inner.length + ciphertext.length := by omega
          have hold := weave_append_range last hfront hinner hback hroom'
          have hgrown := weave_append_range (last ++ bytes) hfront hinner hback hroom'
          rw [List.length_append, ← List.append_assoc] at hgrown
          have hstart : ((weave 0 front inner ciphertext).take offset).length = offset := by
            rw [List.length_take, weave_length hinner (by omega)]
            omega
          rw [hclear, hgrown, hold]
          generalize weave 0 front inner ciphertext = woven at hstart ⊢
          have hcut : (woven.take offset ++ last).length = frameIndex := by
            rw [List.length_append, hstart, hadj]
          rw [← List.append_assoc (woven.take offset) last, List.take_left' hcut,
            List.drop_left' hcut]
          simp only [List.append_assoc]
      · exact hnew

/-! ## A run of calls -/

/-- Weaving along the ranges gives the calls so far, in order, and then the ciphertext that
is left. -/
def Replays (p : OutboundFrameProcessor) (pieces : List Piece) : Prop :=
  ∀ ciphertext : Bytes, p.encryptedBytes.length ≤ ciphertext.length →
    weave 0 p.unencryptedRanges p.unencryptedBytes ciphertext =
      withCiphertext pieces ciphertext ++ ciphertext.drop p.encryptedBytes.length

/-- The bookkeeping after the calls `pieces`. -/
structure Booked (p : OutboundFrameProcessor) (pieces : List Piece) : Prop where
  accounted : p.Accounted
  separated : Separated p.unencryptedRanges
  clear : p.unencryptedBytes = clearBytes pieces
  secret : p.encryptedBytes = secretBytes pieces
  replays : p.Replays pieces

theorem booked_reset (p : OutboundFrameProcessor) : p.reset.Booked [] where
  accounted := ⟨trivial, rfl, Nat.le_refl 0, rfl⟩
  separated := .nil
  clear := rfl
  secret := rfl
  replays := fun _ _ => rfl

/-- **One call.** -/
theorem Booked.add {p : OutboundFrameProcessor} {pieces : List Piece} (h : p.Booked pieces)
    (piece : Piece) : (p.add piece).Booked (pieces ++ [piece]) := by
  have htotal := h.accounted.total
  have hlength : p.encryptedBytes.length = (secretBytes pieces).length := by rw [h.secret]
  cases piece with
  | unencrypted bytes =>
      refine ⟨h.accounted.add _, addRange_separated bytes.length h.accounted.ordered
        h.accounted.endPos_le h.separated, ?_, ?_, ?_⟩
      · rw [clearBytes_append, ← h.clear]
        simp [OutboundFrameProcessor.add, addUnencryptedBytes, clearBytes]
      · rw [secretBytes_append, ← h.secret]
        simp [OutboundFrameProcessor.add, addUnencryptedBytes, secretBytes]
      · intro ciphertext hct
        have hct' : p.encryptedBytes.length ≤ ciphertext.length := hct
        have hfront : (withCiphertext pieces ciphertext).length = p.frameIndex := by
          rw [withCiphertext_length (by omega), htotal, h.clear, h.secret]
        show weave 0 (addRange p.unencryptedRanges p.frameIndex bytes.length)
            (p.unencryptedBytes ++ bytes) ciphertext =
          withCiphertext (pieces ++ [.unencrypted bytes]) ciphertext ++
            ciphertext.drop p.encryptedBytes.length
        rw [weave_addRange bytes h.accounted.ordered h.accounted.sizes_eq.symm
          h.accounted.endPos_le (by omega), h.replays ciphertext hct', List.take_left' hfront,
          List.drop_left' hfront, withCiphertext_append]
        simp [withCiphertext]
  | encrypted bytes =>
      refine ⟨h.accounted.add _, h.separated, ?_, ?_, ?_⟩
      · rw [clearBytes_append, ← h.clear]
        simp [OutboundFrameProcessor.add, addEncryptedBytes, clearBytes]
      · rw [secretBytes_append, ← h.secret]
        simp [OutboundFrameProcessor.add, addEncryptedBytes, secretBytes]
      · intro ciphertext hct
        have hct' : (p.encryptedBytes ++ bytes).length ≤ ciphertext.length := hct
        rw [List.length_append] at hct'
        show weave 0 p.unencryptedRanges p.unencryptedBytes ciphertext =
          withCiphertext (pieces ++ [.encrypted bytes]) ciphertext ++
            ciphertext.drop (p.encryptedBytes ++ bytes).length
        rw [h.replays ciphertext (by omega), withCiphertext_append, ← hlength,
          List.length_append, ← List.drop_drop]
        simp only [withCiphertext, List.append_nil, List.append_assoc, List.take_append_drop]

/-- **A run of calls.** -/
theorem Booked.foldl_add {p : OutboundFrameProcessor} {done pieces : List Piece}
    (h : p.Booked done) :
    (pieces.foldl OutboundFrameProcessor.add p).Booked (done ++ pieces) := by
  induction pieces generalizing p done with
  | nil => rwa [List.append_nil]
  | cons piece pieces ih =>
      have hrest := ih (h.add piece)
      rwa [List.append_assoc] at hrest

/-- **The bookkeeping of the outbound processor**, after any calls that follow a `reset`,
and what `reconstruct_frame` writes into a buffer with room for it. -/
theorem bookkeeping (p : OutboundFrameProcessor) (pieces : List Piece)
    (ciphertext output : Bytes)
    (hct : ciphertext.length = (secretBytes pieces).length)
    (hroom : (pieces.flatMap Piece.bytes).length ≤ output.length) :
    Separated (pieces.foldl OutboundFrameProcessor.add p.reset).unencryptedRanges ∧
    sizes (pieces.foldl OutboundFrameProcessor.add p.reset).unencryptedRanges =
      (clearBytes pieces).length ∧
    (pieces.foldl OutboundFrameProcessor.add p.reset).frameIndex =
      (pieces.flatMap Piece.bytes).length ∧
    ∃ output', { pieces.foldl OutboundFrameProcessor.add p.reset with
        ciphertextBytes := ciphertext }.reconstructFrame output =
        some ((pieces.flatMap Piece.bytes).length, output') ∧
      output'.length = output.length ∧
      output'.take (pieces.flatMap Piece.bytes).length = withCiphertext pieces ciphertext := by
  have hbooked : (pieces.foldl OutboundFrameProcessor.add p.reset).Booked ([] ++ pieces) :=
    (booked_reset p).foldl_add
  rw [List.nil_append] at hbooked
  generalize pieces.foldl OutboundFrameProcessor.add p.reset = q at hbooked ⊢
  have haccounted := hbooked.accounted
  have htotal : q.frameIndex = (pieces.flatMap Piece.bytes).length := by
    rw [flatMap_bytes_length, haccounted.total, hbooked.clear, hbooked.secret]
  have hsum := haccounted.total
  rw [← hbooked.secret] at hct
  have hfits : q.unencryptedBytes.length + ciphertext.length ≤ output.length := by omega
  obtain ⟨output', hrec, hlength, htake⟩ :=
    reconstructFrame_eq (p := { q with ciphertextBytes := ciphertext })
      ⟨haccounted.1, haccounted.2, haccounted.3, haccounted.4⟩ hct hfits
  simp only [hct, ← hsum, htotal] at hrec htake
  refine ⟨hbooked.separated, ?_, htotal, output', hrec, hlength, ?_⟩
  · rw [haccounted.sizes_eq, hbooked.clear]
  · rw [htake, hbooked.replays ciphertext (by omega), ← hct, List.drop_length, List.append_nil]

/-- Clear, empty, encrypted, clear: the second range starts behind the encrypted byte. -/
theorem bookkeeping_four :
    ∃ output', { [Piece.unencrypted [1, 2], .unencrypted [], .encrypted [3], .unencrypted [4]].foldl
        OutboundFrameProcessor.add (reset {}) with ciphertextBytes := [9] }.reconstructFrame
          [0, 0, 0, 0, 0] = some (4, output') ∧ output'.take 4 = [1, 2, 9, 4] := by
  obtain ⟨output', hrec, -, htake⟩ := (bookkeeping {}
    [.unencrypted [1, 2], .unencrypted [], .encrypted [3], .unencrypted [4]] [9]
    [0, 0, 0, 0, 0] rfl (by decide)).2.2.2
  exact ⟨output', hrec, htake⟩

end OutboundFrameProcessor

end Ekizu.Dave
