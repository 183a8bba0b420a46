import Ekizu.Dave.Aligned
import Ekizu.Dave.Bookkeeping
import Ekizu.Dave.Trailer

/-!
# The round trip of any frame

What `encrypt` seals of a frame, whichever codec has split it, is what `decrypt`
writes: the chunks of the splitter in call order, or the frame as it was where the
splitter failed.  The manager that opens the frame need not be the newest one, as
long as no newer one opens it; that is the case of a frame that was on its way when
the key changed.

## Main results

* `processFrame_contents` — what the outbound processor holds.
* `decryptLoop_opens` — the loop over the managers reaches the one with the key.
* `decrypt_encrypt_frame` — the round trip.
-/

namespace Ekizu.Dave

open Lib.Span
open Lib.Segments

/-! ## What is sealed -/

namespace OutboundFrameProcessor

/-- The bytes that the processor holds, along its ranges. -/
def contents (p : OutboundFrameProcessor) : Bytes :=
  weave 0 p.unencryptedRanges p.unencryptedBytes p.encryptedBytes

/-- The chunks with their own encrypted bytes in place. -/
theorem withCiphertext_self (pieces : List Piece) (rest : Bytes) :
    withCiphertext pieces (secretBytes pieces ++ rest) = pieces.flatMap Piece.bytes := by
  induction pieces with
  | nil => rfl
  | cons p pieces ih =>
      cases p with
      | unencrypted bytes => simp [withCiphertext, secretBytes, Piece.bytes, ih]
      | encrypted bytes => simp [withCiphertext, secretBytes, Piece.bytes, ih]

theorem Booked.contents {p : OutboundFrameProcessor} {pieces : List Piece}
    (h : p.Booked pieces) : p.contents = pieces.flatMap Piece.bytes := by
  have hreplays := h.replays p.encryptedBytes (Nat.le_refl _)
  rw [List.drop_length, List.append_nil] at hreplays
  have hself := withCiphertext_self pieces []
  rw [List.append_nil, ← h.secret] at hself
  rw [OutboundFrameProcessor.contents, hreplays, hself]

/-- **What `process_frame` holds of a frame.** -/
theorem processFrame_contents {p p' : OutboundFrameProcessor} {frame : Bytes} {codec : Codec}
    {success : Bool} {pieces : List Piece}
    (hsplit : splitByCodec frame codec = some (success, pieces))
    (h : p.processFrame frame codec = some p') :
    p'.contents = if success then pieces.flatMap Piece.bytes else frame := by
  unfold processFrame at h
  rw [hsplit] at h
  obtain rfl := Option.some.inj h
  have hempty : ({ p.reset with frameCodec := codec } : OutboundFrameProcessor).Booked [] :=
    ⟨⟨trivial, rfl, Nat.le_refl 0, rfl⟩, .nil, rfl, rfl, fun _ _ => rfl⟩
  cases success with
  | true =>
      have hbooked : (pieces.foldl add _).Booked ([] ++ pieces) := hempty.foldl_add
      rw [List.nil_append] at hbooked
      exact hbooked.contents
  | false => rfl

theorem contents_length {p : OutboundFrameProcessor} (h : p.Accounted) :
    p.contents.length = p.unencryptedBytes.length + p.encryptedBytes.length :=
  weave_length h.sizes_eq.symm h.gaps_le

end OutboundFrameProcessor

/-! ## One attempt -/

section Attempts

variable {H : Type} [HashRatchet H] [LawfulHashRatchet H]

namespace InboundFrameProcessor

/-- With the plaintext in its buffer, a recovered frame is put back together. -/
theorem reconstructFrame_of_recovers {p : InboundFrameProcessor} {tag : Bytes} {nonce : UInt32}
    {ranges : List Range} {unencrypted ciphertext plaintext frameOut : Bytes}
    (h : Recovers p tag nonce ranges unencrypted ciphertext) (hord : Ordered 0 ranges)
    (hsizes : sizes ranges = unencrypted.length) (hgaps : gaps 0 ranges ≤ plaintext.length)
    (hroom : unencrypted.length + plaintext.length ≤ frameOut.length) :
    ∃ output, ({ p with plaintext } : InboundFrameProcessor).reconstructFrame frameOut =
        some (unencrypted.length + plaintext.length, output) ∧
      output.take (unencrypted.length + plaintext.length) =
        weave 0 ranges unencrypted plaintext := by
  obtain ⟨output, hrec, -, htake⟩ := doReconstruct_eq plaintext frameOut hord hsizes hgaps hroom
  refine ⟨output, ?_, htake⟩
  rw [InboundFrameProcessor.reconstructFrame, if_neg (by simp [h.encrypted]),
    if_neg (by simp only [h.authenticated_eq]; omega)]
  simp only [h.ranges_eq, h.authenticated_eq]
  exact hrec

end InboundFrameProcessor

namespace Decryptor

variable {gcm : AesGcm} {m : CipherManager H} {p : InboundFrameProcessor}
  {tag unencrypted ciphertext plaintext frameOut : Bytes} {nonce : UInt32} {ranges : List Range}

/-- An attempt with the key of the frame, where a cipher is found. -/
theorem decryptImpl_opens {clock : ManagerClock} (hwf : m.Wf)
    (hp : Recovers p tag nonce ranges unencrypted ciphertext) (hsplit : p.Split)
    (hopen : opening H gcm m.ratchet.base p = some plaintext)
    (hfound : (m.probe clock nonce).2.isSome = true)
    (hroom : unencrypted.length + plaintext.length ≤ frameOut.length)
    (hne : 0 < unencrypted.length + plaintext.length) :
    ∃ a, decryptImpl gcm m clock p frameOut = some a ∧
      a.written = some (unencrypted.length + plaintext.length) ∧
      a.output.take (unencrypted.length + plaintext.length) =
        weave 0 ranges unencrypted plaintext := by
  obtain ⟨a, ha, -⟩ := decryptImpl_isSome gcm m clock frameOut hsplit
  obtain ⟨-, -, hcase⟩ := decryptImpl_attempt hwf hp.encrypted hsplit ha
  refine ⟨a, ha, ?_⟩
  rw [← hp.nonce_eq] at hfound
  rcases hcase with ⟨hnone, -⟩ | ⟨-, decrypted, written, hsome, hprocessor, hrec, hwritten⟩
  · rcases hnone with hnone | hnone
    · rw [hnone] at hfound
      exact absurd hfound (by decide)
    · rw [hopen] at hnone
      exact absurd hnone (by simp)
  · obtain rfl := Option.some.inj (hopen.symm.trans hsome)
    -- the plaintext has the size of the ciphertext
    have hlen : plaintext.length = p.ciphertext.length := by
      have hgcm : _ = some plaintext := hopen
      simp only [opening] at hgcm
      rw [AeadCipher.decrypt_append gcm _ hsplit.tag] at hgcm
      exact gcm.gcmDecrypt_length hgcm
    have hord := hsplit.ordered
    have hsizes := hsplit.inside
    have hgaps := hsplit.gaps_le
    rw [hp.ranges_eq] at hord hsizes hgaps
    rw [hp.authenticated_eq] at hsizes
    obtain ⟨output, hrec', htake⟩ := InboundFrameProcessor.reconstructFrame_of_recovers hp
      hord hsizes (by omega) hroom
    rw [hprocessor, hrec'] at hrec
    obtain ⟨rfl, houtput⟩ := Prod.mk.inj (Option.some.inj hrec)
    rw [hwritten, if_neg (by omega), ← houtput]
    exact ⟨rfl, htake⟩

/-! ## The loop -/

/-- **The loop reaches the manager with the key**, past newer ones under which the frame
does not open. -/
theorem decryptLoop_opens {newer older : List (CipherManager H)} (hwf : m.Wf)
    (hp : Recovers p tag nonce ranges unencrypted ciphertext) (hsplit : p.Split)
    (hopen : opening H gcm m.ratchet.base p = some plaintext)
    (hroom : unencrypted.length + plaintext.length ≤ frameOut.length)
    (hne : 0 < unencrypted.length + plaintext.length) :
    ∀ {attempt : Nat → ManagerClock}, (∀ m' ∈ newer, m'.Wf) →
      (∀ m' ∈ newer, opening H gcm m'.ratchet.base p = none) →
      (m.probe (attempt newer.length) nonce).2.isSome = true →
      ∃ sweep, decryptLoop gcm attempt (newer ++ m :: older) p frameOut = some sweep ∧
        sweep.written = some (unencrypted.length + plaintext.length) ∧
        sweep.output.take (unencrypted.length + plaintext.length) =
          weave 0 ranges unencrypted plaintext := by
  induction newer with
  | nil =>
      intro attempt _ _ hfound
      rw [List.length_nil] at hfound
      obtain ⟨a, ha, hwritten, houtput⟩ := decryptImpl_opens hwf hp hsplit hopen hfound hroom hne
      refine ⟨⟨a.manager :: older, a.processor, a.output, a.reported :: older.map fun _ => none,
        some (unencrypted.length + plaintext.length)⟩, ?_, rfl, houtput⟩
      rw [List.nil_append, decryptLoop]
      simp only [ha, Option.bind_eq_bind, Option.bind_some, hwritten]
  | cons m' newer ih =>
      intro attempt hwfs hclosed hfound
      obtain ⟨hwf', hwfs⟩ := List.forall_mem_cons.mp hwfs
      obtain ⟨hclosed', hclosed⟩ := List.forall_mem_cons.mp hclosed
      obtain ⟨a, ha, -⟩ := decryptImpl_isSome gcm m' (attempt 0) frameOut hsplit
      obtain ⟨-, -, hcase⟩ := decryptImpl_attempt hwf' hp.encrypted hsplit ha
      rcases hcase with ⟨-, hprocessor, houtput, hwritten⟩ | ⟨-, decrypted, _, hsome, -⟩
      · obtain ⟨sweep, hsweep, hrest⟩ := @ih (fun i => attempt (i + 1)) hwfs hclosed hfound
        refine ⟨{ sweep with
          managers := a.manager :: sweep.managers
          reported := a.reported :: sweep.reported }, ?_, hrest⟩
        rw [List.cons_append, decryptLoop]
        simp only [ha, Option.bind_eq_bind, Option.bind_some, hwritten, hprocessor, houtput, hsweep]
      · rw [hclosed'] at hsome
        exact absurd hsome (by simp)

/-- A call on a recovered frame that one of the managers opens. -/
theorem decrypt_opens {d : Decryptor H} {mediaType : MediaType} {clock : DecryptClock}
    {older newer : List (CipherManager H)} {sent : Bytes}
    (hmanagers : cleanupExpiredManagers clock.expired d.managers = older ++ m :: newer)
    (hwf : ∀ m' ∈ d.managers, m'.Wf)
    (hparse : d.getOrCreateFrameProcessor.1.parseFrame sent = some p)
    (hp : Recovers p tag nonce ranges unencrypted ciphertext)
    (hopen : opening H gcm m.ratchet.base p = some plaintext)
    (hclosed : ∀ m' ∈ newer, opening H gcm m'.ratchet.base p = none)
    (hfound : (m.probe (clock.attempt newer.length) nonce).2.isSome = true)
    (hroom : unencrypted.length + plaintext.length ≤ frameOut.length)
    (hne : 0 < unencrypted.length + plaintext.length) :
    ∃ call, d.decrypt gcm mediaType clock sent frameOut = some call ∧
      call.result = some (unencrypted.length + plaintext.length) ∧
      call.output.take (unencrypted.length + plaintext.length) =
        weave 0 ranges unencrypted plaintext := by
  have hsplit := InboundFrameProcessor.split_of_parseFrame hparse hp.encrypted
  have hkept : ∀ m' ∈ older ++ m :: newer, m'.Wf := by
    intro m' hm'
    obtain ⟨k, -, hdrop⟩ := cleanupExpiredManagers_eq_drop d.managers clock.expired
    rw [hmanagers] at hdrop
    rw [hdrop] at hm'
    exact hwf m' (List.mem_of_mem_drop hm')
  have hnewest : (older ++ m :: newer).reverse = newer.reverse ++ m :: older.reverse := by
    simp
  have hloop : ∃ sweep, decryptLoop gcm clock.attempt (newer.reverse ++ m :: older.reverse) p
      frameOut = some sweep ∧ sweep.written = some (unencrypted.length + plaintext.length) ∧
        sweep.output.take (unencrypted.length + plaintext.length) =
          weave 0 ranges unencrypted plaintext := by
    apply decryptLoop_opens (hkept m (by simp)) hp hsplit hopen hroom hne
    · intro m' hm'
      exact hkept m' (by simp [List.mem_reverse.mp hm'])
    · intro m' hm'
      exact hclosed m' (List.mem_reverse.mp hm')
    · rw [List.length_reverse]
      exact hfound
  obtain ⟨sweep, hsweep, hwritten, houtput⟩ := hloop
  rw [← hnewest, ← hmanagers] at hsweep
  obtain ⟨hsame, -⟩ := getOrCreateFrameProcessor_frame d
  rw [← hsame] at hsweep
  -- the silence packet is not encrypted
  have hsilence : sent ≠ opusSilencePacket := by
    intro hsilence
    rw [hsilence] at hparse
    have hclear := InboundFrameProcessor.parseFrame_silence hparse
    rw [hp.encrypted] at hclear
    exact absurd hclear (by decide)
  simp only [decrypt, hsilence, and_false, if_false, decryptWith, hparse, Option.bind_eq_bind,
    Option.bind_some, hp.encrypted, Bool.true_eq_false, false_and, hsweep]
  exact ⟨_, rfl, hwritten, houtput⟩

end Decryptor

/-! ## The round trip -/

/-- What a successful call has made of a frame: the parser recovers it from the sent bytes,
and it opens under the base of the encryptor's ratchet. -/
theorem Encryptor.opening_of_encrypt {gcm : AesGcm} (hgcm : gcm.Correct) {e e' : Encryptor H}
    (he : e.Wf) {ratchet : KeyRatchet H} {mediaType : MediaType} {ssrc : UInt32}
    {frame out out' : Bytes} {n : Nat} {p : OutboundFrameProcessor}
    (inbound : InboundFrameProcessor) (hpass : e.passthroughMode = false)
    (hratchet : e.ratchet = some ratchet)
    (hp : e.frameProcessor.processFrame frame (e.codecForSsrc ssrc) = some p)
    (hcall : e.encrypt gcm mediaType ssrc frame out = some (e', .ok (n, out')))
    (hsize : p.unencryptedRanges = [] ∨ out.length < 2 ^ 64)
    (hfits : Encryptor.TrailerFits p (e.truncatedNonce + 1) out.length) :
    0 < p.contents.length ∧ ∃ parsed tag ciphertext,
      inbound.parseFrame (out'.take n) = some parsed ∧
      Recovers parsed tag (e.truncatedNonce + 1) p.unencryptedRanges p.unencryptedBytes
        ciphertext ∧
      opening H gcm ratchet.base parsed = some p.encryptedBytes := by
  obtain ⟨parsed, cryptor, tag, hparse, hcryptor, hseal, hrecovers⟩ :=
    Encryptor.undone_of_trailerFits inbound hpass hp hcall hsize hfits
  obtain ⟨p', _, ciphertext, _, bodySize, body, hp', hnonce, -, hproc, -, hrec, hbody, -⟩ :=
    Encryptor.encrypt_ok hpass hcall
  obtain rfl := Option.some.inj (hp.symm.trans hp')
  obtain ⟨hacc, hct⟩ := OutboundFrameProcessor.processFrame_accounted hp
  -- the key is the one of the nonce's generation
  have hkey : cryptor.key = KeyRatchet.keyOf H ratchet.base
      (Encryptor.generationOf (e.truncatedNonce + 1)) := by
    obtain ⟨-, -, -, hcase⟩ := he.encrypt hcall
    rcases hcase with ⟨hmode, -⟩ | ⟨hnone, -⟩ | ⟨-, hok⟩
    · simp [hpass] at hmode
    · simp [hratchet] at hnone
    · obtain ⟨cryptor', ratchet', hc, hr, hk⟩ := hok ⟨n, out', rfl⟩
      obtain rfl := Option.some.inj (hcryptor.symm.trans hc)
      obtain rfl := Option.some.inj (hratchet.symm.trans hr)
      exact hk
  rw [hproc, hnonce] at hseal hrecovers
  obtain ⟨hlen, htag⟩ := gcm.gcmEncrypt_length hseal
  refine ⟨?_, parsed, tag, ciphertext, hparse, hrecovers, ?_⟩
  · -- an empty body would have been an error
    rw [OutboundFrameProcessor.contents_length hacc]
    by_contra hempty
    have hacc' : ({ p with ciphertextBytes := ciphertext } : OutboundFrameProcessor).Accounted :=
      ⟨hacc.1, hacc.2, hacc.3, hacc.4⟩
    have hlen' : ciphertext.length = p.encryptedBytes.length := hlen
    obtain ⟨body', hrec', -⟩ := OutboundFrameProcessor.reconstructFrame_eq hacc' hlen'
      (show p.unencryptedBytes.length + ciphertext.length ≤ out.length by omega)
    rw [hproc, hrec'] at hrec
    have hsum : p.unencryptedBytes.length + ciphertext.length = bodySize :=
      congrArg Prod.fst (Option.some.inj hrec)
    omega
  · obtain ⟨ciphertext', tag', hseal', hopen⟩ := hgcm cryptor.key
      (nonceBuffer (e.truncatedNonce + 1)) p.unencryptedBytes p.encryptedBytes
    rw [hseal] at hseal'
    obtain ⟨rfl, rfl⟩ := Prod.mk.inj (Option.some.inj hseal')
    rw [hkey] at hopen
    simp only [opening]
    rw [hrecovers.nonce_eq, hrecovers.ciphertext_eq, hrecovers.tag_eq, hrecovers.authenticated_eq,
      AeadCipher.decrypt_append gcm _ htag]
    exact hopen

/-- A sent frame with a whole trailer comes back as the outbound processor held it. -/
theorem decrypt_sealed {gcm : AesGcm} (hgcm : gcm.Correct) {e e' : Encryptor H}
    {d : Decryptor H} {histories : List Decryptor.History} (he : e.Reachable gcm)
    (hd : d.Run gcm False histories) {ratchet : KeyRatchet H} {mediaType : MediaType}
    {ssrc : UInt32} {frame out out' frameOut : Bytes} {n : Nat} {clock : DecryptClock}
    {manager : CipherManager H} {older newer : List (CipherManager H)}
    {p : OutboundFrameProcessor} (hpass : e.passthroughMode = false)
    (hratchet : e.ratchet = some ratchet)
    (hp : e.frameProcessor.processFrame frame (e.codecForSsrc ssrc) = some p)
    (hcall : e.encrypt gcm mediaType ssrc frame out = some (e', .ok (n, out')))
    (hsize : p.unencryptedRanges = [] ∨ out.length < 2 ^ 64)
    (hfits : Encryptor.TrailerFits p (e.truncatedNonce + 1) out.length)
    (hmanagers : Decryptor.cleanupExpiredManagers clock.expired d.managers =
      older ++ manager :: newer)
    (hsame : manager.ratchet.base = ratchet.base)
    (hfound : (manager.probe (clock.attempt newer.length) (e.truncatedNonce + 1)).2.isSome = true)
    (hclosed : ∀ m ∈ newer, ∀ parsed,
      ({} : InboundFrameProcessor).parseFrame (out'.take n) = some parsed →
        opening H gcm m.ratchet.base parsed = none)
    (hroom : (out'.take n).length ≤ frameOut.length) :
    ∃ call, d.decrypt gcm mediaType clock (out'.take n) frameOut = some call ∧
      call.result = some p.contents.length ∧
      call.output.take p.contents.length = p.contents := by
  obtain ⟨hacc, -⟩ := OutboundFrameProcessor.processFrame_accounted hp
  obtain ⟨hne, parsed, tag, ciphertext, hparse, hrecovers, hopen⟩ :=
    Encryptor.opening_of_encrypt hgcm he.wf d.getOrCreateFrameProcessor.1 hpass hratchet hp hcall
      hsize hfits
  have hlen := OutboundFrameProcessor.contents_length hacc
  have hfit : p.unencryptedBytes.length + p.encryptedBytes.length ≤ frameOut.length := by
    obtain ⟨-, -, -, -, -, -, -, -, hn, hmax, hout, -⟩ := Encryptor.encrypt_sent hpass hp hcall
    rw [List.length_take, hout] at hroom
    omega
  rw [← hsame] at hopen
  rw [hlen] at hne ⊢
  exact Decryptor.decrypt_opens hmanagers (fun m hm => hd.wf hm) hparse hrecovers hopen
    (fun m hm => hclosed m hm parsed
      (InboundFrameProcessor.parseFrame_encrypted {} hparse hrecovers.encrypted))
    hfound hfit hne

/-- **The round trip of any frame.**  Whatever the codec, a frame that `encrypt` has sent
with a whole trailer comes back chunk by chunk from every decryptor that still has a manager
with the sender's ratchet, finds a cipher for the nonce there, and has no newer manager whose
key opens the frame. -/
theorem decrypt_encrypt_frame {gcm : AesGcm} (hgcm : gcm.Correct) {e e' : Encryptor H}
    {d : Decryptor H} {histories : List Decryptor.History} (he : e.Reachable gcm)
    (hd : d.Run gcm False histories) {ratchet : KeyRatchet H} {mediaType : MediaType}
    {ssrc : UInt32} {frame out out' frameOut : Bytes} {n : Nat} {clock : DecryptClock}
    {manager : CipherManager H} {older newer : List (CipherManager H)} {success : Bool}
    {pieces : List Piece} {p : OutboundFrameProcessor}
    (hpass : e.passthroughMode = false) (hratchet : e.ratchet = some ratchet)
    (hsplit : OutboundFrameProcessor.splitByCodec frame (e.codecForSsrc ssrc) =
      some (success, pieces))
    (hp : e.frameProcessor.processFrame frame (e.codecForSsrc ssrc) = some p)
    (hcall : e.encrypt gcm mediaType ssrc frame out = some (e', .ok (n, out')))
    (hsize : p.unencryptedRanges = [] ∨ out.length < 2 ^ 64)
    (hfits : Encryptor.TrailerFits p (e.truncatedNonce + 1) out.length)
    (hmanagers : Decryptor.cleanupExpiredManagers clock.expired d.managers =
      older ++ manager :: newer)
    (hsame : manager.ratchet.base = ratchet.base)
    (hfound : (manager.probe (clock.attempt newer.length) (e.truncatedNonce + 1)).2.isSome = true)
    (hclosed : ∀ m ∈ newer, ∀ parsed,
      ({} : InboundFrameProcessor).parseFrame (out'.take n) = some parsed →
        opening H gcm m.ratchet.base parsed = none)
    (hroom : (out'.take n).length ≤ frameOut.length) :
    ∃ call media, d.decrypt gcm mediaType clock (out'.take n) frameOut = some call ∧
      media = (if success then pieces.flatMap Piece.bytes else frame) ∧
      call.result = some media.length ∧ call.output.take media.length = media := by
  obtain ⟨call, hdecrypt, hresult, houtput⟩ := decrypt_sealed hgcm he hd hpass hratchet hp hcall
    hsize hfits hmanagers hsame hfound hclosed hroom
  exact ⟨call, p.contents, hdecrypt, OutboundFrameProcessor.processFrame_contents hsplit hp,
    hresult, houtput⟩

end Attempts

/-- A second secret. -/
def laterSecret : Bytes := [1]

/-- The decryptor has gone on to another ratchet, and the frame still arrives. -/
theorem decrypt_encrypt_frame_overlap : ∃ e' n out' call media,
    Encryptor.referenceEncryptor.encrypt referenceGcm .audio 1 audioFrame
        (List.replicate 79 0) = some (e', .ok (n, out')) ∧
      (Decryptor.referenceDecryptor.transitionToKeyRatchet
          (some (.mls (HashRatchet.ofSecret laterSecret))) referenceInstant referenceInstant
          (seconds 10)).decrypt referenceGcm .audio Decryptor.referenceClock (out'.take n)
          (List.replicate 16 0) = some call ∧
      media = (if true then [Piece.encrypted audioFrame].flatMap Piece.bytes else audioFrame) ∧
      call.result = some media.length ∧ call.output.take media.length = media := by
  have hfresh : ∀ r : KeyRatchet Chain,
      some (.mls (HashRatchet.ofSecret referenceSecret)) = some r → r.Fresh := by
    rintro r ⟨⟩
    exact .mls referenceSecret
  have he : Encryptor.referenceEncryptor.Reachable referenceGcm :=
    .assignSsrcToCodec 2 .h264 (.assignSsrcToCodec 1 .opus (.setPassthroughMode false
      (.setKeyRatchet .start hfresh)))
  have hd : (Decryptor.referenceDecryptor.transitionToKeyRatchet
      (some (.mls (HashRatchet.ofSecret laterSecret))) referenceInstant referenceInstant
      (seconds 10)).Run referenceGcm False [[], []] :=
    .transition _ _ _ _ (.transition (some (.mls (HashRatchet.ofSecret referenceSecret)))
      referenceInstant referenceInstant (seconds 10) .start)
  let p : OutboundFrameProcessor :=
    { frameCodec := .opus, frameIndex := 4, encryptedBytes := audioFrame
      ciphertextBytes := [0, 0, 0, 0] }
  have hp : Encryptor.referenceEncryptor.frameProcessor.processFrame audioFrame
      (Encryptor.referenceEncryptor.codecForSsrc 1) = some p := by decide +kernel
  have heval : (Encryptor.referenceEncryptor.encrypt referenceGcm .audio 1 audioFrame
      (List.replicate 79 0)).bind (fun call => call.2.toOption.map fun sent =>
        sent.2.take sent.1) = some sentAudioFrame := by
    decide +kernel
  obtain ⟨⟨e', result⟩, hcall, hresult⟩ := Option.bind_eq_some_iff.mp heval
  cases result with
  | error err => simp [Except.toOption] at hresult
  | ok sent =>
      obtain ⟨n, out'⟩ := sent
      have hsent : out'.take n = sentAudioFrame := Option.some.inj hresult
      let old : CipherManager Chain :=
        (CipherManager.new (.mls (HashRatchet.ofSecret referenceSecret))
          referenceInstant).updateExpiry (referenceInstant.time + seconds 10)
      let new : CipherManager Chain :=
        .new (.mls (HashRatchet.ofSecret laterSecret)) referenceInstant
      have hclosed : ∀ m ∈ [new], ∀ parsed,
          ({} : InboundFrameProcessor).parseFrame (out'.take n) = some parsed →
            opening Chain referenceGcm m.ratchet.base parsed = none := by
        intro m hm parsed hparsed
        obtain rfl := List.mem_singleton.mp hm
        have hnone : (({} : InboundFrameProcessor).parseFrame sentAudioFrame).map
            (opening Chain referenceGcm new.ratchet.base) = some none := by
          decide +kernel
        rw [← hsent, hparsed] at hnone
        exact Option.some.inj hnone
      have hmanagers : Decryptor.cleanupExpiredManagers Decryptor.referenceClock.expired
          (Decryptor.referenceDecryptor.transitionToKeyRatchet
            (some (.mls (HashRatchet.ofSecret laterSecret))) referenceInstant referenceInstant
            (seconds 10)).managers = [] ++ old :: [new] := rfl
      have hsplit : OutboundFrameProcessor.splitByCodec audioFrame
          (Encryptor.referenceEncryptor.codecForSsrc 1) =
            some (true, [.encrypted audioFrame]) := by
        decide +kernel
      have hroom : (out'.take n).length ≤ (List.replicate 16 (0 : UInt8)).length := by
        rw [hsent]
        decide
      obtain ⟨call, media, hdecrypt, hmedia, hwritten⟩ := decrypt_encrypt_frame
        referenceGcm_correct he hd rfl rfl hsplit hp hcall (.inl rfl) (by decide +kernel) hmanagers
        rfl (by decide +kernel) hclosed hroom
      exact ⟨e', n, out', call, media, hcall, hdecrypt, hmedia, hwritten⟩

end Ekizu.Dave
