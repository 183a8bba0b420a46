import Ekizu.Dave.FrameRoundTrip
import Ekizu.Dave.LongStartCodes
import Ekizu.Dave.StartCodes

/-!
# The NAL units of a frame

What a packetizer is given with an H264 or H265 frame: the byte strings between its start
codes, of three bytes or of four.  The outbound processor writes a long start code in front
of every unit.  That leaves each unit as it was, because no unit holds a start code and
what is put in ends in the only byte of it that is not zero.

## Main results

* `splitUnits_longStartCodes` — long start codes delimit the same units.
* `decrypt_encrypt_nalUnits` — the units of a frame arrive.
-/

namespace Ekizu.Dave

/-- The bytes in front of the first start code, and the units behind each start code. -/
def splitUnits : Bytes → Bytes × List Bytes
  | [] => ([], [])
  | byte :: rest =>
      if (byte :: rest).take 4 = naluLongStartCode then
        let (unit, units) := splitUnits (rest.drop 3)
        ([], unit :: units)
      else if (byte :: rest).take 3 = naluShortStartCode then
        let (unit, units) := splitUnits (rest.drop 2)
        ([], unit :: units)
      else
        let (unit, units) := splitUnits rest
        (byte :: unit, units)
termination_by bytes => bytes.length
decreasing_by all_goals simp only [List.length_drop, List.length_cons]; omega

/-- The NAL units of a frame. -/
def nalUnits (frame : Bytes) : List Bytes := (splitUnits frame).2

/-! ## Long start codes delimit the same units -/

/-- A long start code is found where it was put. -/
theorem splitUnits_longStartCode (rest : Bytes) :
    splitUnits (naluLongStartCode ++ rest) =
      ([], (splitUnits rest).1 :: (splitUnits rest).2) := by
  rw [naluLongStartCode, List.cons_append, splitUnits, if_pos (by simp [naluLongStartCode])]
  simp

/-- Rewriting makes no byte that it did not find, a start code's zeros apart. -/
theorem longStartCodes_one {frame rest : Bytes} (h : longStartCodes frame = 1 :: rest) :
    ∃ rest', frame = 1 :: rest' := by
  cases frame with
  | nil => simp [longStartCodes] at h
  | cons byte frame =>
      rw [longStartCodes] at h
      split at h
      · simp [naluLongStartCode] at h
      · split at h
        · simp [naluLongStartCode] at h
        · exact ⟨frame, by rw [(List.cons.inj h).1]⟩

theorem longStartCodes_zero_one {frame rest : Bytes} (h : longStartCodes frame = 0 :: 1 :: rest) :
    ∃ rest', frame = 0 :: 1 :: rest' := by
  cases frame with
  | nil => simp [longStartCodes] at h
  | cons byte frame =>
      rw [longStartCodes] at h
      split at h
      · simp [naluLongStartCode] at h
      · split at h
        · simp [naluLongStartCode] at h
        · obtain ⟨rfl, htail⟩ := List.cons.inj h
          obtain ⟨rest', rfl⟩ := longStartCodes_one htail
          exact ⟨rest', rfl⟩

/-- A short start code that comes out is one that was there, and then it came out long. -/
theorem longStartCodes_short {frame rest : Bytes} :
    longStartCodes frame ≠ 0 :: 0 :: 1 :: rest := by
  intro h
  cases frame with
  | nil => simp [longStartCodes] at h
  | cons byte frame =>
      rw [longStartCodes] at h
      split at h
      · simp [naluLongStartCode] at h
      · split at h
        · simp [naluLongStartCode] at h
        · next hshort =>
            obtain ⟨rfl, htail⟩ := List.cons.inj h
            obtain ⟨rest', rfl⟩ := longStartCodes_zero_one htail
            exact hshort (by simp [naluShortStartCode])

/-- A byte that begins no start code begins none after the rewriting. -/
theorem splitUnits_copied {byte : UInt8} {rest : Bytes}
    (hlong : (byte :: rest).take 4 ≠ naluLongStartCode)
    (hshort : (byte :: rest).take 3 ≠ naluShortStartCode) :
    splitUnits (byte :: longStartCodes rest) =
      (byte :: (splitUnits (longStartCodes rest)).1, (splitUnits (longStartCodes rest)).2) := by
  have hnotShort : (byte :: longStartCodes rest).take 3 ≠ naluShortStartCode := by
    intro h
    obtain ⟨rfl, htail⟩ := List.cons.inj h
    have hparts := List.take_append_drop 2 (longStartCodes rest)
    rw [htail] at hparts
    obtain ⟨rest', rfl⟩ := longStartCodes_zero_one hparts.symm
    exact hshort (by simp [naluShortStartCode])
  have hnotLong : (byte :: longStartCodes rest).take 4 ≠ naluLongStartCode := by
    intro h
    obtain ⟨rfl, htail⟩ := List.cons.inj h
    have hparts := List.take_append_drop 3 (longStartCodes rest)
    rw [htail] at hparts
    exact longStartCodes_short hparts.symm
  rw [splitUnits, if_neg hnotLong, if_neg hnotShort]

/-- **Long start codes delimit the same units**, behind the same bytes. -/
theorem splitUnits_longStartCodes (frame : Bytes) :
    splitUnits (longStartCodes frame) = splitUnits frame := by
  fun_induction longStartCodes frame with
  | case1 => rfl
  | case2 byte rest hlong ih =>
      rw [splitUnits_longStartCode, ih, splitUnits, if_pos hlong]
  | case3 byte rest hlong hshort ih =>
      rw [splitUnits_longStartCode, ih, splitUnits, if_neg hlong, if_pos hshort]
  | case4 byte rest hlong hshort ih =>
      rw [splitUnits_copied hlong hshort, ih, splitUnits, if_neg hlong, if_neg hshort]

/-! ## The units arrive -/

/-- What the splitter makes of a frame has the units of the frame. -/
theorem splitUnits_media {frame : Bytes} {codec : Codec} {success : Bool} {pieces : List Piece}
    (hcodec : codec = .h264 ∨ codec = .h265) (hstart : StartsWithStartCode frame)
    (hlast : KeepsLastUnit frame) (hfits : HeadersFit codec frame)
    (hsplit : OutboundFrameProcessor.splitByCodec frame codec = some (success, pieces)) :
    splitUnits (if success then pieces.flatMap Piece.bytes else frame) = splitUnits frame := by
  cases success with
  | false => rfl
  | true =>
      rw [if_pos rfl, split_bytes hcodec hstart hlast hfits hsplit]
      exact splitUnits_longStartCodes frame

/-- **The NAL units of a frame arrive.**  Of an H264 or H265 frame that begins with a start
code, keeps its last unit and has none that is too short for its header, the receiver's
packetizer finds the units that the sender's would have found, whatever start codes they had,
from every decryptor that still has a manager with the sender's ratchet. -/
theorem decrypt_encrypt_nalUnits {H : Type} [HashRatchet H] [LawfulHashRatchet H] {gcm : AesGcm}
    (hgcm : gcm.Correct) {e e' : Encryptor H} {d : Decryptor H}
    {histories : List Decryptor.History} (he : e.Reachable gcm) (hd : d.Run gcm False histories)
    {ratchet : KeyRatchet H} {mediaType : MediaType} {ssrc : UInt32}
    {frame out out' frameOut : Bytes} {n : Nat} {clock : DecryptClock}
    {manager : CipherManager H} {older newer : List (CipherManager H)}
    {p : OutboundFrameProcessor}
    (hcodec : e.codecForSsrc ssrc = .h264 ∨ e.codecForSsrc ssrc = .h265)
    (hstart : StartsWithStartCode frame) (hlast : KeepsLastUnit frame)
    (hheaders : HeadersFit (e.codecForSsrc ssrc) frame)
    (hpass : e.passthroughMode = false) (hratchet : e.ratchet = some ratchet)
    (hp : e.frameProcessor.processFrame frame (e.codecForSsrc ssrc) = some p)
    (hcall : e.encrypt gcm mediaType ssrc frame out = some (e', .ok (n, out')))
    (hsize : out.length < 2 ^ 64)
    (hfits : Encryptor.TrailerFits p (e.truncatedNonce + 1) out.length)
    (hmanagers : Decryptor.cleanupExpiredManagers clock.expired d.managers =
      older ++ manager :: newer)
    (hsame : manager.ratchet.base = ratchet.base)
    (hfound : (manager.probe (clock.attempt newer.length) (e.truncatedNonce + 1)).2.isSome = true)
    (hclosed : ∀ m ∈ newer, ∀ parsed,
      ({} : InboundFrameProcessor).parseFrame (out'.take n) = some parsed →
        opening H gcm m.ratchet.base parsed = none)
    (hroom : (out'.take n).length ≤ frameOut.length) :
    ∃ call size, d.decrypt gcm mediaType clock (out'.take n) frameOut = some call ∧
      call.result = some size ∧ nalUnits (call.output.take size) = nalUnits frame := by
  obtain ⟨call, hdecrypt, hresult, houtput⟩ := decrypt_sealed hgcm he hd hpass hratchet hp hcall
    (.inr hsize) hfits hmanagers hsame hfound hclosed hroom
  obtain ⟨success, pieces, hsplit⟩ : ∃ success pieces,
      OutboundFrameProcessor.splitByCodec frame (e.codecForSsrc ssrc) = some (success, pieces) := by
    unfold OutboundFrameProcessor.processFrame at hp
    obtain ⟨split, hsplit, -⟩ := Option.bind_eq_some_iff.mp hp
    exact ⟨split.1, split.2, hsplit⟩
  refine ⟨call, p.contents.length, hdecrypt, hresult, ?_⟩
  rw [nalUnits, nalUnits, houtput, OutboundFrameProcessor.processFrame_contents hsplit hp,
    splitUnits_media hcodec hstart hlast hheaders hsplit]

/-- A slice behind a short start code, decrypted behind a long one. -/
theorem decrypt_encrypt_nalUnits_slice : ∃ e' n out' call size,
    Encryptor.referenceEncryptor.encrypt referenceGcm .video 2 Encryptor.sliceFrame
        (List.replicate 83 0) = some (e', .ok (n, out')) ∧
      Decryptor.referenceDecryptor.decrypt referenceGcm .video Decryptor.referenceClock
        (out'.take n) (List.replicate 40 0) = some call ∧
      call.result = some size ∧
      nalUnits (call.output.take size) = nalUnits Encryptor.sliceFrame := by
  have hfresh : ∀ r : KeyRatchet Chain,
      some (.mls (HashRatchet.ofSecret referenceSecret)) = some r → r.Fresh := by
    rintro r ⟨⟩
    exact .mls referenceSecret
  have he : Encryptor.referenceEncryptor.Reachable referenceGcm :=
    .assignSsrcToCodec 2 .h264 (.assignSsrcToCodec 1 .opus (.setPassthroughMode false
      (.setKeyRatchet .start hfresh)))
  have hd : Decryptor.referenceDecryptor.Run referenceGcm False [[]] :=
    .transition (some (.mls (HashRatchet.ofSecret referenceSecret))) referenceInstant
      referenceInstant (seconds 10) .start
  have hsplit : (Encryptor.referenceEncryptor.frameProcessor.processFrame Encryptor.sliceFrame
      (Encryptor.referenceEncryptor.codecForSsrc 2)).isSome = true := by decide +kernel
  obtain ⟨p, hp⟩ := Option.isSome_iff_exists.mp hsplit
  have hfits : (Encryptor.referenceEncryptor.frameProcessor.processFrame Encryptor.sliceFrame
      (Encryptor.referenceEncryptor.codecForSsrc 2)).all (fun p =>
        Encryptor.TrailerFits p (Encryptor.referenceEncryptor.truncatedNonce + 1)
          (List.replicate 83 (0 : UInt8)).length) = true := by
    decide +kernel
  rw [hp, Option.all_some, decide_eq_true_eq] at hfits
  have heval : (Encryptor.referenceEncryptor.encrypt referenceGcm .video 2 Encryptor.sliceFrame
      (List.replicate 83 0)).bind (fun call => call.2.toOption.map fun sent =>
        (sent.2.take sent.1).length) = some 23 := by
    decide +kernel
  obtain ⟨⟨e', result⟩, hcall, hresult⟩ := Option.bind_eq_some_iff.mp heval
  cases result with
  | error err => simp [Except.toOption] at hresult
  | ok sent =>
      have hlength : (sent.2.take sent.1).length = 23 := Option.some.inj hresult
      have hroom : (sent.2.take sent.1).length ≤ (List.replicate 40 (0 : UInt8)).length := by
        rw [hlength]
        decide
      have hlast : KeepsLastUnit Encryptor.sliceFrame := by
        intro k hk
        have hle : k + 3 ≤ 8 := hk.le_length
        have hfirst : ∀ k < 6, StartCodeAt Encryptor.sliceFrame k → k = 0 := by decide
        obtain rfl := hfirst k (by omega) hk
        decide
      have hheaders : HeadersFit (Encryptor.referenceEncryptor.codecForSsrc 2)
          Encryptor.sliceFrame :=
        (processFrameH264Checked_isSome_iff Encryptor.sliceFrame).mp (by decide +kernel)
      let manager : CipherManager Chain :=
        .new (.mls (HashRatchet.ofSecret referenceSecret)) referenceInstant
      have hmanagers : Decryptor.cleanupExpiredManagers Decryptor.referenceClock.expired
          Decryptor.referenceDecryptor.managers = [] ++ manager :: [] := rfl
      obtain ⟨call, size, hdecrypt, hwritten⟩ := decrypt_encrypt_nalUnits referenceGcm_correct he hd
        (.inl (by decide)) (.inl (by decide)) hlast hheaders rfl rfl hp hcall (by decide) hfits
        hmanagers rfl (by decide +kernel) (by simp) hroom
      exact ⟨e', sent.1, sent.2, call, size, hcall, hdecrypt, hwritten⟩

end Ekizu.Dave
