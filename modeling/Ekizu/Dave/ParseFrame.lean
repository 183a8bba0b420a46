import Ekizu.Dave.Reconstruct

/-!
# `parse_frame` on arbitrary input

The parser reads a trailer backwards from the end of a frame that anybody may
have sent.  `trailerSize` says when it starts reading at all, `parseTrailer`
what it then computes; neither can fail, which is the point.

## Main results

* `parseFrame_eq` — on every frame `parse_frame` returns, with the value of
  `parseTrailer` or with a cleared processor.
* `parseFrame_safe` — what it accepts is well formed, and reconstruction
  inverts the split.
-/

namespace Ekizu.Dave

open Lib.Span
open Lib.Segments

/-- The size byte of a frame whose trailer `parse_frame` goes on to read. -/
def trailerSize (frame : Bytes) : Option Nat :=
  if supplementalBytes ≤ frame.length ∧ frame.drop (frame.length - 2) = markerBytes then
    match frame[frame.length - 3]? with
    | some sizeByte =>
        if supplementalBytes ≤ sizeByte.toNat ∧ sizeByte.toNat ≤ frame.length then
          some sizeByte.toNat
        else none
    | none => none
  else none

theorem trailerSize_eq_some {frame : Bytes} {bytesSize : Nat}
    (h : trailerSize frame = some bytesSize) :
    supplementalBytes ≤ bytesSize ∧ bytesSize ≤ frame.length ∧
      ∃ sizeByte, frame[frame.length - 3]? = some sizeByte ∧ sizeByte.toNat = bytesSize := by
  unfold trailerSize at h
  split at h
  · split at h
    · next sizeByte hbyte =>
        split at h
        · next hbounds =>
            obtain rfl := Option.some.inj h
            exact ⟨hbounds.1, hbounds.2, sizeByte, hbyte, rfl⟩
        · simp at h
    · simp at h
  · simp at h

namespace InboundFrameProcessor

/-- The bytes of the trailer between the tag and the size byte. -/
def nonceAndRanges (frame : Bytes) (bytesSize : Nat) : Bytes :=
  ((frame.drop (frame.length - bytesSize)).drop truncatedTagBytes).take
    (bytesSize - supplementalBytes)

/-- What `parse_frame` makes of a frame with a trailer of `bytesSize` bytes. -/
def parseTrailer (p : InboundFrameProcessor) (frame : Bytes) (bytesSize : Nat) :
    InboundFrameProcessor :=
  let p := { p with
    tag := (frame.drop (frame.length - bytesSize)).take truncatedTagBytes }
  match readLeb128 (nonceAndRanges frame bytesSize) with
  | none => { p with truncatedNonce := 0 }
  | some (nonce, readAt) =>
      let p := { p with truncatedNonce := nonce.toUInt32 }
      match deserializeUnencryptedRanges readAt with
      | none => p
      | some ranges =>
          let p := { p with unencryptedRanges := ranges }
          if validateUnencryptedRanges ranges frame.length then
            splitResult p frame (frame.length - bytesSize)
          else p

theorem nonceAndRanges_length {frame : Bytes} {bytesSize : Nat}
    (hmin : supplementalBytes ≤ bytesSize) (hmax : bytesSize ≤ frame.length) :
    (nonceAndRanges frame bytesSize).length = bytesSize - supplementalBytes := by
  simp only [nonceAndRanges, List.length_take, List.length_drop, supplementalBytes,
    truncatedTagBytes] at *
  omega

/-- The bytes after the nonce fit the eight bits `ranges_size` is kept in. -/
private theorem rangesSize_toNat {frame readAt : Bytes} {bytesSize nonce : Nat}
    (hmin : supplementalBytes ≤ bytesSize) (hmax : bytesSize ≤ frame.length)
    (hbyte : bytesSize < 256)
    (hread : readLeb128 (nonceAndRanges frame bytesSize) = some (nonce, readAt)) :
    readAt.length.toUInt8.toNat = readAt.length := by
  have hlt := readLeb128_length_lt hread
  rw [nonceAndRanges_length hmin hmax] at hlt
  simp only [Nat.toUInt8, UInt8.toNat_ofNat']
  omega

/-- Past the size byte no access leaves the frame and no subtraction
underflows. -/
private theorem readTrailer_eq {p : InboundFrameProcessor} {frame : Bytes} {bytesSize : Nat}
    (hmin : supplementalBytes ≤ bytesSize) (hmax : bytesSize ≤ frame.length)
    (hbyte : bytesSize < 256) :
    readTrailer p frame bytesSize = some (parseTrailer p frame bytesSize) := by
  have hsub : (frame.drop (frame.length - bytesSize)).length = bytesSize := by
    rw [List.length_drop]; omega
  have htag : truncatedTagBytes ≤ (frame.drop (frame.length - bytesSize)).length := by
    rw [hsub]; simp only [supplementalBytes, truncatedTagBytes] at *; omega
  have hranges : truncatedTagBytes + (bytesSize - supplementalBytes) ≤
      (frame.drop (frame.length - bytesSize)).length := by
    rw [hsub]; simp only [supplementalBytes, truncatedTagBytes] at *; omega
  simp only [readTrailer, Option.bind_eq_bind, last_of_le hmax, Option.bind_some,
    first_of_le htag, sub_of_le hmin, subspan_of_le hranges, parseTrailer, nonceAndRanges]
  rw [← nonceAndRanges]
  cases hread : readLeb128 (nonceAndRanges frame bytesSize) with
  | none => rfl
  | some value =>
      obtain ⟨nonce, readAt⟩ := value
      have hsize := rangesSize_toNat hmin hmax hbyte hread
      have hall : first readAt readAt.length = some readAt := by
        rw [first_of_le (Nat.le_refl _), List.take_length]
      simp only [hsize, hall, Option.bind_some]
      cases hdes : deserializeUnencryptedRanges readAt with
      | none => rfl
      | some ranges =>
          cases hvalid : validateUnencryptedRanges ranges frame.length with
          | false => simp [hvalid]
          | true =>
              obtain ⟨hord, hend⟩ := validateUnencryptedRanges_sound hvalid
              simp only [hvalid, if_true]
              exact splitFrame_eq hord hend hmax

/-- **`parse_frame` always returns.** -/
theorem parseFrame_eq (p : InboundFrameProcessor) (frame : Bytes) :
    parseFrame p frame = some (match trailerSize frame with
      | none => p.clear
      | some bytesSize => parseTrailer p.clear frame bytesSize) := by
  unfold parseFrame trailerSize
  by_cases hlen : frame.length < supplementalBytes
  · rw [if_pos hlen, if_neg (by omega)]
  have h11 : 11 ≤ frame.length := Nat.le_of_not_lt hlen
  have h3 : frame.length - 3 < frame.length := by omega
  simp only [if_neg hlen, Option.bind_eq_bind, last_of_le (show 2 ≤ frame.length by omega),
    last_of_le (show 3 ≤ frame.length by omega), Option.bind_some]
  by_cases hmarker : frame.drop (frame.length - 2) = markerBytes
  · simp only [hmarker, ne_eq, not_true_eq_false, if_false, and_true,
      List.getElem?_drop, Nat.add_zero, List.getElem?_eq_getElem h3, Option.bind_some,
      if_pos (Nat.le_of_not_lt hlen)]
    generalize frame[frame.length - 3] = sizeByte
    by_cases hmax : frame.length < sizeByte.toNat
    · rw [if_pos hmax, if_neg (by omega)]
    · by_cases hmin : sizeByte.toNat < supplementalBytes
      · rw [if_neg hmax, if_pos hmin, if_neg (by omega)]
      · have hmin' := Nat.le_of_not_lt hmin
        have hmax' := Nat.le_of_not_lt hmax
        rw [if_neg hmax, if_neg hmin, if_pos ⟨hmin', hmax'⟩,
          readTrailer_eq hmin' hmax' sizeByte.toNat_lt]
  · simp [hmarker]

/-- What acceptance says: nonce and ranges were read, the ranges were validated
and the frame was split at them. -/
theorem parseTrailer_encrypted {p : InboundFrameProcessor} {frame : Bytes} {bytesSize : Nat}
    (h : (parseTrailer p.clear frame bytesSize).encrypted = true) :
    ∃ nonce readAt ranges,
      readLeb128 (nonceAndRanges frame bytesSize) = some (nonce, readAt) ∧
      deserializeUnencryptedRanges readAt = some ranges ∧
      Ordered 0 ranges ∧ endPos 0 ranges ≤ frame.length ∧
      parseTrailer p.clear frame bytesSize = splitResult { p.clear with
        tag := (frame.drop (frame.length - bytesSize)).take truncatedTagBytes
        truncatedNonce := nonce.toUInt32
        unencryptedRanges := ranges } frame (frame.length - bytesSize) := by
  unfold parseTrailer at h ⊢
  split at h
  · simp [clear] at h
  · next nonce readAt hread =>
      split at h
      · simp [clear] at h
      · next ranges hdes =>
          split at h
          · next hvalid =>
              obtain ⟨hord, hend⟩ := validateUnencryptedRanges_sound hvalid
              refine ⟨nonce, readAt, ranges, hread, hdes, hord, hend, ?_⟩
              simp only [hvalid, if_true]
          · simp [clear] at h

/-- The size byte of an accepted frame is at least what its nonce and ranges
take. -/
theorem encodedSize_le_of_parseFrame {p p' : InboundFrameProcessor} {frame : Bytes}
    (h : parseFrame p frame = some p') (henc : p'.encrypted = true) :
    ∃ sizeByte : UInt8, frame[frame.length - 3]? = some sizeByte ∧
      supplementalBytes + leb128Size p'.truncatedNonce.toNat +
        rangesEncodedSize p'.unencryptedRanges ≤ sizeByte.toNat := by
  rw [parseFrame_eq] at h
  obtain rfl := Option.some.inj h
  split at henc
  · simp [clear] at henc
  · next bytesSize hsize =>
      obtain ⟨hmin, hmax, sizeByte, hbyte, hval⟩ := trailerSize_eq_some hsize
      obtain ⟨nonce, readAt, ranges, hread, hdes, -, -, heq⟩ := parseTrailer_encrypted henc
      refine ⟨sizeByte, hbyte, ?_⟩
      rw [heq, hval]
      have hnonce := leb128Size_le_of_readLeb128 hread
      have hranges := rangesEncodedSize_le_of_deserialize hdes
      have hmono : leb128Size nonce.toUInt32.toNat ≤ leb128Size nonce := by
        apply leb128Size_mono
        simp only [Nat.toUInt32, UInt32.toNat_ofNat']
        exact Nat.mod_le _ _
      rw [nonceAndRanges_length hmin hmax] at hnonce
      simp only [splitResult]
      omega

/-- An accepted frame leaves room for the plaintext of its ciphertext. -/
theorem plaintext_length_of_parseFrame {p p' : InboundFrameProcessor} {frame : Bytes}
    (h : parseFrame p frame = some p') (henc : p'.encrypted = true) :
    p'.plaintext.length = p'.ciphertext.length := by
  rw [parseFrame_eq] at h
  obtain rfl := Option.some.inj h
  split at henc
  · simp [clear] at henc
  · obtain ⟨nonce, readAt, ranges, -, -, -, -, heq⟩ := parseTrailer_encrypted henc
    rw [heq]
    exact resize_length _ _ _

/-- The number of bytes a split collects: the body or, when a range reaches
into the trailer, everything up to the end of the last range. -/
theorem splitResult_length {q : InboundFrameProcessor} {frame : Bytes} {bodySize : Nat}
    (hauth : q.authenticated = []) (hcipher : q.ciphertext = [])
    (hord : Ordered 0 q.unencryptedRanges)
    (hend : endPos 0 q.unencryptedRanges ≤ frame.length) (hbody : bodySize ≤ frame.length) :
    (splitResult q frame bodySize).ciphertext.length +
        (splitResult q frame bodySize).authenticated.length =
      max bodySize (endPos 0 q.unencryptedRanges) := by
  have hsum := endPos_eq hord
  simp only [splitResult, hauth, hcipher, List.nil_append, List.length_append,
    inside_length hord hend, outside_length hord hend, List.length_take, List.length_drop]
  omega

/-- Weaving the two parts of a split gives those bytes back. -/
theorem weave_splitResult {q : InboundFrameProcessor} {frame : Bytes} {bodySize : Nat}
    (hauth : q.authenticated = []) (hcipher : q.ciphertext = [])
    (hord : Ordered 0 q.unencryptedRanges)
    (hend : endPos 0 q.unencryptedRanges ≤ frame.length) :
    weave 0 q.unencryptedRanges (splitResult q frame bodySize).authenticated
        (splitResult q frame bodySize).ciphertext =
      frame.take (max bodySize (endPos 0 q.unencryptedRanges)) := by
  simp only [splitResult, hauth, hcipher, List.nil_append]
  rw [weave_inside_outside hord hend, List.drop_zero, Nat.sub_zero, ← List.take_add]
  congr 1
  omega

/-- **Reconstruction inverts the split.** -/
theorem reconstructFrame_splitResult {q : InboundFrameProcessor} {frame output : Bytes}
    {bodySize : Nat} (hauth : q.authenticated = []) (hcipher : q.ciphertext = [])
    (hord : Ordered 0 q.unencryptedRanges)
    (hend : endPos 0 q.unencryptedRanges ≤ frame.length) (hbody : bodySize ≤ frame.length)
    (hout : max bodySize (endPos 0 q.unencryptedRanges) ≤ output.length) :
    ∃ output', reconstructFrame { splitResult q frame bodySize with
          plaintext := (splitResult q frame bodySize).ciphertext } output =
        some (max bodySize (endPos 0 q.unencryptedRanges), output') ∧
      output'.length = output.length ∧
      output'.take (max bodySize (endPos 0 q.unencryptedRanges)) =
        frame.take (max bodySize (endPos 0 q.unencryptedRanges)) := by
  have hlen := splitResult_length hauth hcipher hord hend hbody
  have hinside : sizes q.unencryptedRanges =
      (splitResult q frame bodySize).authenticated.length := by
    simp only [splitResult, hauth, List.nil_append, inside_length hord hend]
  have hsum := endPos_eq hord
  obtain ⟨output', hrec, hlen', htake⟩ := doReconstruct_eq
    (splitResult q frame bodySize).ciphertext output hord hinside (by omega) (by omega)
  rw [Nat.add_comm _ (splitResult q frame bodySize).ciphertext.length, hlen] at hrec htake
  refine ⟨output', ?_, hlen', ?_⟩
  · rw [reconstructFrame, if_neg (by simp [splitResult]), if_neg (by simp only; omega)]
    exact hrec
  · rw [htake, weave_splitResult hauth hcipher hord hend]

/-- **Safety of the inbound parser.**  On every byte string `parse_frame`
returns; what it accepts has sorted disjoint ranges, accounts for every byte of
the body, and is put back together by `reconstruct_frame`. -/
theorem parseFrame_safe (p : InboundFrameProcessor) (frame : Bytes) :
    ∃ p', parseFrame p frame = some p' ∧
      (p'.encrypted = true →
        ∃ (sizeByte : UInt8) (n : Nat), frame[frame.length - 3]? = some sizeByte ∧
          sizeByte.toNat ≤ frame.length ∧
          n = max (frame.length - sizeByte.toNat) (endPos 0 p'.unencryptedRanges) ∧
          p'.unencryptedRanges.Pairwise (fun a b => a.offset + a.size ≤ b.offset) ∧
          p'.ciphertext.length + p'.authenticated.length = n ∧
          p'.plaintext.length = p'.ciphertext.length ∧
          ∀ output : Bytes, n ≤ output.length →
            ∃ output', reconstructFrame { p' with plaintext := p'.ciphertext } output =
                some (n, output') ∧
              output'.length = output.length ∧ output'.take n = frame.take n) := by
  refine ⟨_, parseFrame_eq p frame, ?_⟩
  split
  · intro h
    simp [clear] at h
  · next bytesSize hsize =>
      intro h
      obtain ⟨-, hmax, sizeByte, hbyte, rfl⟩ := trailerSize_eq_some hsize
      obtain ⟨nonce, readAt, ranges, -, -, hord, hend, heq⟩ := parseTrailer_encrypted h
      have hbody : frame.length - sizeByte.toNat ≤ frame.length := Nat.sub_le _ _
      rw [heq]
      refine ⟨sizeByte, _, hbyte, hmax, rfl, hord.pairwise.1,
        splitResult_length rfl rfl hord hend hbody, resize_length _ _ _, ?_⟩
      intro output hout
      exact reconstructFrame_splitResult rfl rfl hord hend hbody hout

/-- The parts of an accepted frame fit together: the tag is complete, the ranges
account for the authenticated bytes, and the buffer for the plaintext has its
size. -/
structure Split (p : InboundFrameProcessor) : Prop where
  tag : p.tag.length = truncatedTagBytes
  ordered : Ordered 0 p.unencryptedRanges
  inside : sizes p.unencryptedRanges = p.authenticated.length
  gaps_le : gaps 0 p.unencryptedRanges ≤ p.ciphertext.length
  plaintext : p.plaintext.length = p.ciphertext.length

theorem split_of_parseFrame {p p' : InboundFrameProcessor} {frame : Bytes}
    (h : parseFrame p frame = some p') (henc : p'.encrypted = true) : p'.Split := by
  rw [parseFrame_eq] at h
  obtain rfl := Option.some.inj h
  split at henc
  · simp [clear] at henc
  · next bytesSize hsize =>
      obtain ⟨hmin, hmax, -⟩ := trailerSize_eq_some hsize
      obtain ⟨nonce, readAt, ranges, -, -, hord, hend, heq⟩ := parseTrailer_encrypted henc
      rw [heq]
      refine ⟨?_, hord, ?_, ?_, resize_length _ _ _⟩
      · simp only [splitResult, List.length_take, List.length_drop, supplementalBytes,
          truncatedTagBytes] at hmin ⊢
        omega
      · simp [splitResult, clear, inside_length hord hend]
      · simp only [splitResult, clear, List.nil_append, List.length_append,
          outside_length hord hend]
        exact Nat.le_add_right _ _

/-- Reconstruction returns, whatever is in the buffers. -/
theorem Split.reconstructFrame {p : InboundFrameProcessor} (h : p.Split) (output : Bytes) :
    ∃ n output', p.reconstructFrame output = some (n, output') ∧
      output'.length = output.length := by
  unfold InboundFrameProcessor.reconstructFrame
  split
  · exact ⟨0, output, rfl, rfl⟩
  · split
    · exact ⟨0, output, rfl, rfl⟩
    · next hroom =>
        have hgaps : gaps 0 p.unencryptedRanges ≤ p.plaintext.length := by
          rw [h.plaintext]
          exact h.gaps_le
        obtain ⟨output', hrec, hlen, -⟩ := doReconstruct_eq p.plaintext output h.ordered h.inside
          hgaps (Nat.le_of_not_lt hroom)
        exact ⟨_, output', hrec, hlen⟩

end InboundFrameProcessor

end Ekizu.Dave
