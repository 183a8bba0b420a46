import Ekizu.Lib.Streaming
import Mathlib.Algebra.Group.Nat.Defs
import Mathlib.Tactic.Common

/-!
# The inflater

`inflater.cpp`: a message that ends with the four bytes of a sync flush is handed
to zlib, and the output loop runs until the output buffer is not filled.  Any
other message is refused with `not_supported`, and its bytes are not kept.

zlib is a parameter, with the contract of a streaming decoder.

## Main results

* `inflates_stream_iff` — a stream split into messages is decompressed, without
  losing a byte, exactly when every message that is not empty ends with the bytes
  of a sync flush.
* `inflates_stream_lost` — a block in two messages is lost.
-/

namespace Ekizu.Gateway

open Lib.Streaming

/-- `BUFFER_SIZE`. -/
def bufferSize : Nat := 1024

/-- The bytes at the end of a sync flush. -/
def syncFlush : List UInt8 := [0x00, 0x00, 0xff, 0xff]

/-- The suffix test of `Inflater::inflate`. -/
def endsWithSyncFlush (data : List UInt8) : Bool :=
  4 ≤ data.length && data.drop (data.length - 4) == syncFlush

/-- An `Inflater`; `taken` records the bytes that zlib was handed. -/
structure Inflater (zlib : Decoder) where
  stream : zlib.Stream
  taken : List UInt8

namespace Inflater

variable {zlib : Decoder}

/-- `Inflater::create` where `inflateInit` succeeds. -/
def create (zlib : Decoder) : Inflater zlib := ⟨zlib.start, []⟩

/-- `Inflater::inflate`; `none` is `not_supported`.  `avail_in` has 32 bits. -/
def inflate (inflater : Inflater zlib) (data : List UInt8) :
    Inflater zlib × Option (List UInt8) :=
  if endsWithSyncFlush data then
    let input := data.take (data.length % 2 ^ 32)
    let (stream, result) := zlib.drain bufferSize inflater.stream input
    (⟨stream, inflater.taken ++ input⟩, result)
  else (inflater, none)

/-- Messages in order, and everything they yield. -/
def feed (inflater : Inflater zlib) : List (List UInt8) → Inflater zlib × List UInt8
  | [] => (inflater, [])
  | data :: messages =>
      let (inflater', result) := inflater.inflate data
      let (inflater'', rest) := feed inflater' messages
      (inflater'', result.getD [] ++ rest)

/-! ## What a message leaves -/

/-- The bytes of a message that reach zlib. -/
def kept (data : List UInt8) : List UInt8 :=
  if endsWithSyncFlush data then data.take (data.length % 2 ^ 32) else []

/-- A message whose bytes all reach zlib in one piece. -/
def Whole (data : List UInt8) : Prop := endsWithSyncFlush data = true ∧ data.length < 2 ^ 32

theorem kept_of_whole {data : List UInt8} (h : Whole data) : kept data = data := by
  rw [kept, if_pos h.1, Nat.mod_eq_of_lt h.2, List.take_length]

theorem kept_length_le (data : List UInt8) : (kept data).length ≤ data.length := by
  unfold kept
  split
  · exact List.length_take_le' _ _
  · exact Nat.zero_le _

/-- No byte of a message is lost only where it is whole. -/
theorem whole_of_kept_length {data : List UInt8} (hne : data ≠ [])
    (h : (kept data).length = data.length) : Whole data := by
  have hpos := List.length_pos_iff.mpr hne
  unfold kept at h
  by_cases hsuffix : endsWithSyncFlush data = true
  · rw [if_pos hsuffix, List.length_take] at h
    refine ⟨hsuffix, ?_⟩
    have hlt := Nat.mod_lt data.length (by decide : 0 < 2 ^ 32)
    omega
  · rw [if_neg hsuffix, List.length_nil] at h
    omega

theorem taken_inflate (inflater : Inflater zlib) (data : List UInt8) :
    (inflater.inflate data).1.taken = inflater.taken ++ kept data := by
  unfold inflate kept
  split
  · rfl
  · exact (List.append_nil _).symm

theorem taken_feed (messages : List (List UInt8)) (inflater : Inflater zlib) :
    (inflater.feed messages).1.taken = inflater.taken ++ (messages.map kept).flatten := by
  induction messages generalizing inflater with
  | nil => exact (List.append_nil _).symm
  | cons data messages ih =>
      rw [List.map_cons, List.flatten_cons, ← List.append_assoc, ← taken_inflate]
      exact ih _

theorem flatten_kept_length_le (messages : List (List UInt8)) :
    ((messages.map kept).flatten).length ≤ messages.flatten.length := by
  induction messages with
  | nil => exact Nat.le_refl _
  | cons data messages ih =>
      rw [List.map_cons, List.flatten_cons, List.flatten_cons, List.length_append,
        List.length_append]
      exact Nat.add_le_add (kept_length_le data) ih

/-- No byte of the messages is lost only where each is whole or empty. -/
theorem whole_of_flatten_kept {messages : List (List UInt8)}
    (h : ((messages.map kept).flatten).length = messages.flatten.length) :
    ∀ data ∈ messages, data ≠ [] → Whole data := by
  induction messages with
  | nil => intro data hdata; exact absurd hdata List.not_mem_nil
  | cons data messages ih =>
      rw [List.map_cons, List.flatten_cons, List.flatten_cons, List.length_append,
        List.length_append] at h
      have hfirst := kept_length_le data
      have hrest := flatten_kept_length_le messages
      intro data' hdata'
      cases List.mem_cons.mp hdata' with
      | inl heq =>
          intro hne
          subst heq
          exact whole_of_kept_length hne (by omega)
      | inr hmem => exact ih (by omega) data' hmem

/-! ## Whole messages -/

section

variable {valid : List UInt8 → Prop} {inflated : List UInt8 → List UInt8}
  {Holds : zlib.Stream → List UInt8 → Nat → Prop}

/-- A message that is whole continues the output. -/
theorem inflate_whole (hzlib : zlib.Decodes valid inflated Holds) {inflater : Inflater zlib}
    {bytes data : List UInt8} (hholds : Holds inflater.stream bytes (inflated bytes).length)
    (hvalid : valid (bytes ++ data)) (hwhole : Whole data) :
    (inflater.inflate data).2 = some ((inflated (bytes ++ data)).drop (inflated bytes).length) ∧
      Holds (inflater.inflate data).1.stream (bytes ++ data)
        (inflated (bytes ++ data)).length := by
  have hinput : data.take (data.length % 2 ^ 32) = data := by
    rw [Nat.mod_eq_of_lt hwhole.2, List.take_length]
  unfold inflate
  rw [if_pos hwhole.1]
  dsimp only
  rw [hinput]
  exact Decoder.drain_spec hzlib (by decide) hholds hvalid

/-- Whole messages yield what the stream stands for. -/
theorem feed_whole (hzlib : zlib.Decodes valid inflated Holds) :
    ∀ (messages : List (List UInt8)) (inflater : Inflater zlib) (bytes : List UInt8),
      Holds inflater.stream bytes (inflated bytes).length →
      valid (bytes ++ messages.flatten) → (∀ data ∈ messages, data ≠ [] → Whole data) →
        inflated bytes ++ (inflater.feed messages).2 = inflated (bytes ++ messages.flatten) := by
  intro messages
  induction messages with
  | nil =>
      intro inflater bytes _ _ _
      rw [feed, List.flatten_nil, List.append_nil, List.append_nil]
  | cons data messages ih =>
      intro inflater bytes hholds hvalid hwhole
      have hrest : ∀ data' ∈ messages, data' ≠ [] → Whole data' :=
        fun data' hdata' => hwhole data' (List.mem_cons_of_mem _ hdata')
      rw [List.flatten_cons, ← List.append_assoc] at hvalid ⊢
      by_cases hempty : data = []
      · -- an empty message is refused and nothing is lost with it
        subst hempty
        rw [List.append_nil] at hvalid ⊢
        exact ih inflater bytes hholds hvalid hrest
      · have hbegins := hzlib.begins (bytes ++ data) messages.flatten hvalid
        obtain ⟨hresult, hnext⟩ :=
          inflate_whole hzlib hholds hbegins (hwhole data List.mem_cons_self hempty)
        have htail := ih (inflater.inflate data).1 (bytes ++ data) hnext hvalid hrest
        simp only [feed]
        rw [hresult, Option.getD_some, ← List.append_assoc,
          Decoder.decoded_append hzlib hbegins]
        exact htail

/-- A stream of sync-flushed blocks. -/
structure SyncFlushed (valid : List UInt8 → Prop) (blocks : List (List UInt8)) : Prop where
  valid : valid blocks.flatten
  flushed : ∀ block ∈ blocks, endsWithSyncFlush block = true

/-- **Framing**: messages that make up a stream yield its decompression, and no
byte of them is lost, exactly when every message that is not empty ends with the
bytes of a sync flush and is shorter than 4 GiB. -/
theorem inflates_stream_iff (hzlib : zlib.Decodes valid inflated Holds)
    {blocks messages : List (List UInt8)} (hstream : SyncFlushed valid blocks)
    (hsplit : messages.flatten = blocks.flatten) :
    (((create zlib).feed messages).2 = inflated blocks.flatten ∧
        ((create zlib).feed messages).1.taken = blocks.flatten) ↔
      ∀ data ∈ messages, data ≠ [] →
        endsWithSyncFlush data = true ∧ data.length < 2 ^ 32 := by
  constructor
  · intro h
    have htaken := h.2
    rw [taken_feed, ← hsplit] at htaken
    exact whole_of_flatten_kept (congrArg List.length htaken)
  · intro hwhole
    constructor
    · have hholds : Holds (create zlib).stream [] (inflated []).length := by
        rw [hzlib.empty]
        exact hzlib.start
      have hvalid : valid ([] ++ messages.flatten) := by
        rw [List.nil_append, hsplit]
        exact hstream.valid
      have hall := feed_whole hzlib messages (create zlib) [] hholds hvalid hwhole
      rw [hzlib.empty, List.nil_append, List.nil_append, hsplit] at hall
      exact hall
    · have hkept : messages.map kept = messages.map id := by
        apply List.map_congr_left
        intro data hdata
        by_cases hempty : data = []
        · subst hempty
          rfl
        · exact kept_of_whole (hwhole data hdata hempty)
      rw [taken_feed, hkept, List.map_id, hsplit]
      rfl

end

end Inflater

/-! ## Streams of stored blocks -/

/-- Where a zlib stream of stored blocks stands between bytes: in its header, at
the start of a block, in its length and the check of it, or in its data. -/
inductive StoredPhase where
  | method
  | flags (cmf : Nat)
  | header
  | lengthLow
  | lengthHigh (low : Nat)
  | checkLow (length : Nat)
  | checkHigh (length low : Nat)
  | data (left : Nat)

namespace StoredPhase

/-- The next byte of a zlib stream whose blocks are stored, none of them final. -/
def step : StoredPhase → UInt8 → Option (StoredPhase × Option UInt8)
  | method, b => if b.toNat % 16 = 8 ∧ b.toNat / 16 ≤ 7 then some (flags b.toNat, none) else none
  | flags cmf, b =>
      if (256 * cmf + b.toNat) % 31 = 0 ∧ b.toNat / 32 % 2 = 0 then some (header, none) else none
  | header, b => if b.toNat % 8 = 0 then some (lengthLow, none) else none
  | lengthLow, b => some (lengthHigh b.toNat, none)
  | lengthHigh low, b => some (checkLow (256 * b.toNat + low), none)
  | checkLow length, b => some (checkHigh length b.toNat, none)
  | checkHigh length low, b =>
      if 256 * b.toNat + low = 2 ^ 16 - 1 - length then
        some (if length = 0 then header else data length, none)
      else none
  | data left, b => some (if left ≤ 1 then header else data (left - 1), some b)

end StoredPhase

/-- zlib on streams of stored blocks. -/
def storedZlib : Transducer where
  State := StoredPhase
  start := .method
  step := StoredPhase.step

/-- The header of a stream, a stored block with two bytes, and a flush. -/
def firstBlock : List UInt8 :=
  [0x78, 0x01, 0x00, 0x02, 0x00, 0xfd, 0xff, 0x68, 0x69, 0x00, 0x00, 0x00, 0xff, 0xff]

/-- A stored block with one byte, and a flush. -/
def secondBlock : List UInt8 :=
  [0x00, 0x01, 0x00, 0xfe, 0xff, 0x21, 0x00, 0x00, 0x00, 0xff, 0xff]

namespace Inflater

theorem inflates_stream_blocks :
    ((create storedZlib.decoder).feed [firstBlock, [], secondBlock]).2 = [0x68, 0x69, 0x21] ∧
      ((create storedZlib.decoder).feed [firstBlock, [], secondBlock]).1.taken =
        firstBlock ++ secondBlock := by
  have hstream : SyncFlushed storedZlib.Accepts [firstBlock, secondBlock] :=
    ⟨rfl, by decide⟩
  exact (inflates_stream_iff storedZlib.decodes hstream (by rfl)).mpr (by decide)

/-- **A block in two messages is lost**: the first is refused and dropped, and
the rest is no stream. -/
theorem inflates_stream_lost :
    SyncFlushed storedZlib.Accepts [firstBlock] ∧
      [firstBlock.take 7, firstBlock.drop 7].flatten = firstBlock ∧
      storedZlib.decoded firstBlock = [0x68, 0x69] ∧
      ((create storedZlib.decoder).feed [firstBlock.take 7, firstBlock.drop 7]).2 = [] ∧
      ((create storedZlib.decoder).feed [firstBlock.take 7, firstBlock.drop 7]).1.taken =
        firstBlock.drop 7 := by
  refine ⟨⟨rfl, by decide⟩, rfl, rfl, ?_, ?_⟩
  · rfl
  · rfl

end Inflater

end Ekizu.Gateway
