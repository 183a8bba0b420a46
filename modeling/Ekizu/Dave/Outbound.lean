import Ekizu.Dave.Reconstruct

/-!
# The bookkeeping of outbound frames

Whatever sequence of `add_unencrypted_bytes` and `add_encrypted_bytes` calls a
codec makes, the processor's ranges stay ordered and account for every clear
byte.  Nothing here depends on the codec.

## Main results

* `processFrame_accounted` — the invariant holds after `process_frame`.
* `reconstructFrame_eq` — hence `reconstruct_frame` writes the weave of clear
  and encrypted bytes.
-/

namespace Ekizu.Dave

open Lib.Span
open Lib.Segments

namespace OutboundFrameProcessor

/-- The ranges are ordered, cover exactly the clear bytes and end at or before
the frame index, which counts all bytes. -/
structure Accounted (p : OutboundFrameProcessor) : Prop where
  ordered : Ordered 0 p.unencryptedRanges
  sizes_eq : sizes p.unencryptedRanges = p.unencryptedBytes.length
  endPos_le : endPos 0 p.unencryptedRanges ≤ p.frameIndex
  total : p.frameIndex = p.unencryptedBytes.length + p.encryptedBytes.length

/-- The encrypted bytes fill every gap between the ranges. -/
theorem Accounted.gaps_le {p : OutboundFrameProcessor} (h : p.Accounted) :
    gaps 0 p.unencryptedRanges ≤ p.encryptedBytes.length := by
  have hsum := endPos_eq h.ordered
  have hsizes := h.sizes_eq
  have hend := h.endPos_le
  have htotal := h.total
  omega

theorem ordered_of_append_singleton {pos : Nat} {rs : List Range} {r : Range}
    (h : Ordered pos (rs ++ [r])) : Ordered pos rs ∧ endPos pos rs ≤ r.offset := by
  induction rs generalizing pos with
  | nil => exact ⟨trivial, h.1⟩
  | cons s rs ih => exact ⟨⟨h.1, (ih h.2).1⟩, (ih h.2).2⟩

/-- Adding a range at or after the last end keeps the order, whether it extends
the last range or starts a new one. -/
theorem addRange_spec {ranges : List Range} {frameIndex : Nat} (size : Nat)
    (hord : Ordered 0 ranges) (hend : endPos 0 ranges ≤ frameIndex) :
    Ordered 0 (addRange ranges frameIndex size) ∧
      sizes (addRange ranges frameIndex size) = sizes ranges + size ∧
      endPos 0 (addRange ranges frameIndex size) = frameIndex + size := by
  rcases List.eq_nil_or_concat ranges with rfl | ⟨front, back, rfl⟩
  · exact ⟨⟨Nat.zero_le _, trivial⟩, by simp [addRange, sizes], rfl⟩
  · rw [List.concat_eq_append] at hord hend ⊢
    obtain ⟨hfront, hback⟩ := ordered_of_append_singleton hord
    simp only [addRange, List.getLast?_append, List.getLast?_singleton, Option.some_or,
      List.dropLast_concat]
    split
    · next hadj =>
        refine ⟨ordered_append_singleton hfront hback, ?_, ?_⟩
        · simp only [sizes_append, sizes]
          omega
        · rw [endPos_append_singleton]
          simp only
          omega
    · refine ⟨ordered_append_singleton hord hend, ?_, ?_⟩
      · simp only [sizes_append, sizes]
        omega
      · rw [endPos_append_singleton]

theorem Accounted.add {p : OutboundFrameProcessor} (h : p.Accounted) (piece : Piece) :
    (p.add piece).Accounted := by
  have hsizes := h.sizes_eq
  have hend := h.endPos_le
  have htotal := h.total
  cases piece with
  | unencrypted bytes =>
      obtain ⟨hord', hsizes', hend'⟩ :=
        addRange_spec bytes.length h.ordered h.endPos_le
      refine ⟨hord', ?_, Nat.le_of_eq hend', ?_⟩
      · simp only [OutboundFrameProcessor.add, addUnencryptedBytes, List.length_append]
        omega
      · simp only [OutboundFrameProcessor.add, addUnencryptedBytes, List.length_append]
        omega
  | encrypted bytes =>
      refine ⟨h.ordered, h.sizes_eq, ?_, ?_⟩
      · simp only [OutboundFrameProcessor.add, addEncryptedBytes]
        omega
      · simp only [OutboundFrameProcessor.add, addEncryptedBytes, List.length_append]
        omega

theorem Accounted.foldl_add {pieces : List Piece} {p : OutboundFrameProcessor}
    (h : p.Accounted) : (pieces.foldl OutboundFrameProcessor.add p).Accounted := by
  induction pieces generalizing p with
  | nil => exact h
  | cons piece pieces ih => exact ih (h.add piece)

/-- A processor that has been emptied is accounted for. -/
private theorem accounted_of_empty {p : OutboundFrameProcessor} (hindex : p.frameIndex = 0)
    (hclear : p.unencryptedBytes = []) (henc : p.encryptedBytes = [])
    (hranges : p.unencryptedRanges = []) : p.Accounted := by
  refine ⟨?_, ?_, ?_, ?_⟩
  · rw [hranges]; trivial
  · rw [hranges, hclear]; rfl
  · rw [hranges, hindex]; exact Nat.le_refl 0
  · rw [hindex, hclear, henc]; rfl

theorem Accounted.addPieces {p : OutboundFrameProcessor} (h : p.Accounted) (frame : Bytes)
    (success : Bool) (pieces : List Piece) : (p.addPieces frame success pieces).Accounted := by
  cases success with
  | true => exact h.foldl_add
  | false => exact (accounted_of_empty rfl rfl rfl rfl).add (.encrypted frame)

/-- **The invariant of `process_frame`**, with the size its ciphertext buffer
is given. -/
theorem processFrame_accounted {p p' : OutboundFrameProcessor} {frame : Bytes}
    {codec : Codec} (h : p.processFrame frame codec = some p') :
    p'.Accounted ∧ p'.ciphertextBytes.length = p'.encryptedBytes.length := by
  unfold processFrame at h
  obtain ⟨⟨success, pieces⟩, -, h⟩ := Option.bind_eq_some_iff.mp h
  obtain rfl := Option.some.inj h
  have hsplit : ({ p.reset with frameCodec := codec }).Accounted :=
    accounted_of_empty rfl rfl rfl rfl
  have hadd := hsplit.addPieces frame success pieces
  exact ⟨⟨hadd.1, hadd.2, hadd.3, hadd.4⟩, resize_length _ _ _⟩

/-- `reconstruct_frame` on an accounted processor: when the output has room, all
bytes are written, woven along the ranges. -/
theorem reconstructFrame_eq {p : OutboundFrameProcessor} {out : Bytes} (h : p.Accounted)
    (hct : p.ciphertextBytes.length = p.encryptedBytes.length)
    (hout : p.unencryptedBytes.length + p.ciphertextBytes.length ≤ out.length) :
    ∃ out', p.reconstructFrame out =
        some (p.unencryptedBytes.length + p.ciphertextBytes.length, out') ∧
      out'.length = out.length ∧
      out'.take (p.unencryptedBytes.length + p.ciphertextBytes.length) =
        weave 0 p.unencryptedRanges p.unencryptedBytes p.ciphertextBytes := by
  obtain ⟨out', hrec, hlen, htake⟩ := doReconstruct_eq p.ciphertextBytes out h.ordered
    h.sizes_eq (by rw [hct]; exact h.gaps_le) hout
  refine ⟨out', ?_, hlen, htake⟩
  rw [reconstructFrame, if_neg (by omega)]
  exact hrec

end OutboundFrameProcessor

end Ekizu.Dave
