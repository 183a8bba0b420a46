import Mathlib.Tactic.Common

/-!
# Streaming decoders

A decoder that is given its input in pieces and its room for output in buffers:
one call takes some of the input and fills some of the buffer, and what did not
fit is kept for the next call.  `drain` calls until a buffer is not filled.

`Decodes` is the contract of such a decoder: every call continues the one output
that the bytes given so far stand for, and a call that leaves room has taken all
of its input.

A `Transducer` decodes byte by byte; it is a decoder that keeps the contract.

## Main results

* `drain_spec` — draining gives everything the bytes stand for that was not
  given before.
* `Transducer.decodes` — the contract of a byte-by-byte decoder.
-/

namespace Ekizu.Lib.Streaming

/-- How a call ends. -/
inductive Code where
  | ok
  | streamEnd
  | bufError
  | failed
  deriving DecidableEq

/-- What a call leaves: the rest of the input and the bytes it put out. -/
structure Call (S : Type) where
  code : Code
  stream : S
  rest : List UInt8
  output : List UInt8

/-- A decoder.  `pending` bounds the output it still owes, so that a buffer is
filled finitely often. -/
structure Decoder where
  Stream : Type
  start : Stream
  reset : Stream → Stream
  call : Stream → List UInt8 → Nat → Call Stream
  pending : Stream → List UInt8 → Nat
  fits : ∀ s input room, (call s input room).output.length ≤ room
  shrinks : ∀ s input room, 0 < room → (call s input room).output.length = room →
    pending (call s input room).stream (call s input room).rest < pending s input

namespace Decoder

variable (d : Decoder)

/-- Call until a buffer of that size is not filled; `none` where a call fails,
which resets the stream. -/
def drainLoop (room : Nat) : Nat → d.Stream → List UInt8 → List UInt8 →
    d.Stream × Option (List UInt8)
  | 0, s, _, _ => (s, none)
  | fuel + 1, s, input, result =>
      let c := d.call s input room
      if c.code = .failed then (d.reset c.stream, none)
      else if c.output.length = room then
        drainLoop room fuel c.stream c.rest (result ++ c.output)
      else (c.stream, some (result ++ c.output))

/-- The loop with as many turns as it can take. -/
def drain (room : Nat) (s : d.Stream) (input : List UInt8) : d.Stream × Option (List UInt8) :=
  d.drainLoop room (d.pending s input + 1) s input []

/-- The contract: `valid` holds of bytes that begin an input, `decoded` is what
they stand for, and `Holds s bytes delivered` says that the stream was given those
bytes and has put out that many of theirs. -/
structure Decodes (valid : List UInt8 → Prop) (decoded : List UInt8 → List UInt8)
    (Holds : d.Stream → List UInt8 → Nat → Prop) : Prop where
  start : Holds d.start [] 0
  empty : decoded [] = []
  begins : ∀ bytes more, valid (bytes ++ more) → valid bytes
  grows : ∀ bytes more, valid (bytes ++ more) → decoded bytes <+: decoded (bytes ++ more)
  succeeds : ∀ s bytes delivered input room, Holds s bytes delivered →
    valid (bytes ++ input) → (d.call s input room).code ≠ .failed
  continues : ∀ s bytes delivered input room, Holds s bytes delivered →
    valid (bytes ++ input) →
      (d.call s input room).output = ((decoded (bytes ++ input)).drop delivered).take room
  takes : ∀ s bytes delivered input room, Holds s bytes delivered →
    valid (bytes ++ input) → ∃ eaten, input = eaten ++ (d.call s input room).rest ∧
      Holds (d.call s input room).stream (bytes ++ eaten)
        (delivered + (d.call s input room).output.length)
  takesAll : ∀ s bytes delivered input room, Holds s bytes delivered →
    valid (bytes ++ input) → (d.call s input room).output.length < room →
      (d.call s input room).rest = []

variable {d} {valid : List UInt8 → Prop} {decoded : List UInt8 → List UInt8}
  {Holds : d.Stream → List UInt8 → Nat → Prop}

theorem drainLoop_spec (h : d.Decodes valid decoded Holds) {room : Nat} (hroom : 0 < room) :
    ∀ (fuel : Nat) (s : d.Stream) (bytes input result : List UInt8) (delivered : Nat),
      Holds s bytes delivered → valid (bytes ++ input) →
      delivered ≤ (decoded (bytes ++ input)).length → d.pending s input < fuel →
        (d.drainLoop room fuel s input result).2 =
            some (result ++ (decoded (bytes ++ input)).drop delivered) ∧
          Holds (d.drainLoop room fuel s input result).1 (bytes ++ input)
            (decoded (bytes ++ input)).length := by
  intro fuel
  induction fuel with
  | zero =>
      intro s bytes input result delivered _ _ _ hfuel
      exact absurd hfuel (Nat.not_lt_zero _)
  | succ fuel ih =>
      intro s bytes input result delivered hholds hvalid hdelivered hfuel
      have hcode := h.succeeds s bytes delivered input room hholds hvalid
      have houtput := h.continues s bytes delivered input room hholds hvalid
      obtain ⟨eaten, hinput, hnext⟩ := h.takes s bytes delivered input room hholds hvalid
      have hlength : (d.call s input room).output.length =
          min room ((decoded (bytes ++ input)).length - delivered) := by
        rw [houtput, List.length_take, List.length_drop]
      simp only [drainLoop]
      rw [if_neg hcode]
      by_cases hfull : (d.call s input room).output.length = room
      · -- the buffer is full: what it holds is the next part of the output
        rw [if_pos hfull]
        have hsame : bytes ++ eaten ++ (d.call s input room).rest = bytes ++ input := by
          rw [List.append_assoc, ← hinput]
        have hpending := d.shrinks s input room hroom hfull
        have hrest := ih (d.call s input room).stream (bytes ++ eaten)
          (d.call s input room).rest (result ++ (d.call s input room).output)
          (delivered + (d.call s input room).output.length) hnext (by rw [hsame]; exact hvalid)
          (by rw [hsame, hfull]; omega) (by omega)
        rw [hsame] at hrest
        have happend : (d.call s input room).output ++
            (decoded (bytes ++ input)).drop (delivered + (d.call s input room).output.length) =
              (decoded (bytes ++ input)).drop delivered := by
          rw [hfull, houtput, ← List.drop_drop]
          exact List.take_append_drop _ _
        rw [List.append_assoc, happend] at hrest
        exact hrest
      · -- there was room left: everything was put out
        rw [if_neg hfull]
        have hroomLeft : (d.call s input room).output.length < room :=
          Nat.lt_of_le_of_ne (d.fits s input room) hfull
        have hrest := h.takesAll s bytes delivered input room hholds hvalid hroomLeft
        rw [hrest, List.append_nil] at hinput
        subst hinput
        have hall : (d.call s input room).output = (decoded (bytes ++ input)).drop delivered := by
          rw [houtput]
          apply List.take_of_length_le
          rw [List.length_drop]
          omega
        constructor
        · rw [hall]
        · have hdone : delivered + (d.call s input room).output.length =
              (decoded (bytes ++ input)).length := by
            rw [hlength]
            omega
          rw [hdone] at hnext
          exact hnext

/-- **Draining** a stream that has put out what its bytes stand for puts out what
the input adds. -/
theorem drain_spec (h : d.Decodes valid decoded Holds) {room : Nat} (hroom : 0 < room)
    {s : d.Stream} {bytes input : List UInt8} (hholds : Holds s bytes (decoded bytes).length)
    (hvalid : valid (bytes ++ input)) :
    (d.drain room s input).2 =
        some ((decoded (bytes ++ input)).drop (decoded bytes).length) ∧
      Holds (d.drain room s input).1 (bytes ++ input) (decoded (bytes ++ input)).length := by
  have hle := (h.grows bytes input hvalid).length_le
  exact drainLoop_spec h hroom _ s bytes input [] _ hholds hvalid hle (Nat.lt_succ_self _)

/-- What was put out and what the input adds make up the whole. -/
theorem decoded_append (h : d.Decodes valid decoded Holds) {bytes input : List UInt8}
    (hvalid : valid (bytes ++ input)) :
    decoded bytes ++ (decoded (bytes ++ input)).drop (decoded bytes).length =
      decoded (bytes ++ input) := by
  obtain ⟨rest, hrest⟩ := h.grows bytes input hvalid
  rw [← hrest, List.drop_left]

end Decoder

/-! ## Byte by byte -/

/-- A decoder that takes one byte at a time and puts out at most one for it;
`none` where the byte cannot follow. -/
structure Transducer where
  State : Type
  start : State
  step : State → UInt8 → Option (State × Option UInt8)

namespace Transducer

variable (t : Transducer)

/-- The state after some bytes and what they put out. -/
def run : t.State → List UInt8 → Option (t.State × List UInt8)
  | s, [] => some (s, [])
  | s, b :: bytes =>
      (t.step s b).bind fun (s', o) =>
        (run s' bytes).map fun (s'', output) => (s'', o.toList ++ output)

/-- Take bytes until the input or the room ends. -/
def callLoop : t.State → List UInt8 → Nat → Call t.State
  | s, [], _ => ⟨.ok, s, [], []⟩
  | s, b :: input, 0 => ⟨.ok, s, b :: input, []⟩
  | s, b :: input, room + 1 =>
      match t.step s b with
      | none => ⟨.failed, s, b :: input, []⟩
      | some (s', none) => callLoop s' input (room + 1)
      | some (s', some o) =>
          let c := callLoop s' input room
          { c with output := o :: c.output }

/-- One call; it says so where it made no progress. -/
def call (s : t.State) (input : List UInt8) (room : Nat) : Call t.State :=
  let c := t.callLoop s input room
  if c.code = .ok ∧ c.rest.length = input.length then { c with code := .bufError } else c

/-- What bytes stand for. -/
def decoded (bytes : List UInt8) : List UInt8 := ((t.run t.start bytes).map (·.2)).getD []

/-- The bytes begin an input. -/
def Accepts (bytes : List UInt8) : Prop := (t.run t.start bytes).isSome = true

variable {t} {s s' : t.State} {input output bytes : List UInt8} {room : Nat}

theorem run_append {more : List UInt8} (hrun : t.run s bytes = some (s', output)) :
    t.run s (bytes ++ more) = (t.run s' more).map fun (s'', rest) => (s'', output ++ rest) := by
  induction bytes generalizing s output with
  | nil =>
      obtain ⟨rfl, rfl⟩ := Prod.mk.inj (Option.some.inj hrun)
      simp
  | cons b bytes ih =>
      obtain ⟨⟨s₁, o⟩, hstep, hrest⟩ := Option.bind_eq_some_iff.mp hrun
      obtain ⟨⟨s₂, output'⟩, hrun', heq⟩ := Option.map_eq_some_iff.mp hrest
      obtain ⟨rfl, rfl⟩ := Prod.mk.inj heq
      rw [List.cons_append, run, hstep, Option.bind_some]
      dsimp only
      rw [ih hrun', Option.map_map]
      congr 1
      funext p
      simp

theorem run_append_none {more : List UInt8} (hrun : t.run s bytes = none) :
    t.run s (bytes ++ more) = none := by
  induction bytes generalizing s with
  | nil => simp [run] at hrun
  | cons b bytes ih =>
      rw [run, Option.bind_eq_none_iff] at hrun
      rw [List.cons_append, run, Option.bind_eq_none_iff]
      intro p hp
      exact Option.map_eq_none_iff.mpr (ih (Option.map_eq_none_iff.mp (hrun p hp)))

/-- What begins a begun input begins one. -/
theorem accepts_of_append {more : List UInt8} (h : t.Accepts (bytes ++ more)) :
    t.Accepts bytes := by
  cases hrun : t.run t.start bytes with
  | none =>
      rw [Accepts, run_append_none hrun] at h
      exact absurd h (by simp)
  | some p =>
      rw [Accepts, hrun]
      rfl

/-- A call takes some bytes and puts out what they stand for; it fails only at a
byte that cannot follow. -/
theorem callLoop_spec (t : Transducer) : ∀ (input : List UInt8) (s : t.State) (room : Nat),
    ∃ eaten, input = eaten ++ (t.callLoop s input room).rest ∧
      t.run s eaten = some ((t.callLoop s input room).stream, (t.callLoop s input room).output) ∧
      (t.callLoop s input room).output.length ≤ room ∧
      ((t.run s input).isSome = true → (t.callLoop s input room).code = .ok ∧
        ((t.callLoop s input room).output.length < room →
          (t.callLoop s input room).rest = [])) := by
  intro input
  induction input with
  | nil =>
      intro s room
      exact ⟨[], rfl, rfl, Nat.zero_le _, fun _ => ⟨rfl, fun _ => rfl⟩⟩
  | cons b input ih =>
      intro s room
      cases room with
      | zero => exact ⟨[], rfl, rfl, Nat.le_refl _, fun _ => ⟨rfl, fun h => absurd h (by simp)⟩⟩
      | succ room =>
          cases hstep : t.step s b with
          | none =>
              simp only [callLoop, hstep]
              refine ⟨[], rfl, rfl, Nat.zero_le _, ?_⟩
              intro hsome
              simp [run, hstep] at hsome
          | some next =>
              obtain ⟨s', o⟩ := next
              have hrun : ∀ bytes, t.run s (b :: bytes) =
                  (t.run s' bytes).map fun (s'', rest) => (s'', o.toList ++ rest) := by
                intro bytes
                rw [run, hstep, Option.bind_some]
              cases o with
              | none =>
                  simp only [callLoop, hstep]
                  obtain ⟨eaten, hinput, heaten, hfits, hok⟩ := ih s' (room + 1)
                  refine ⟨b :: eaten, by rw [List.cons_append, ← hinput], ?_, hfits, ?_⟩
                  · rw [hrun, heaten]
                    rfl
                  · intro hsome
                    rw [hrun, Option.isSome_map] at hsome
                    exact hok hsome
              | some o =>
                  simp only [callLoop, hstep]
                  obtain ⟨eaten, hinput, heaten, hfits, hok⟩ := ih s' room
                  refine ⟨b :: eaten, by rw [List.cons_append, ← hinput], ?_, ?_, ?_⟩
                  · rw [hrun, heaten]
                    rfl
                  · simpa using hfits
                  · intro hsome
                    rw [hrun, Option.isSome_map] at hsome
                    obtain ⟨hcode, hrest⟩ := hok hsome
                    refine ⟨hcode, ?_⟩
                    intro hlt
                    apply hrest
                    simpa using hlt

theorem call_fields (s : t.State) (input : List UInt8) (room : Nat) :
    (t.call s input room).stream = (t.callLoop s input room).stream ∧
      (t.call s input room).rest = (t.callLoop s input room).rest ∧
      (t.call s input room).output = (t.callLoop s input room).output := by
  unfold call
  dsimp only
  split
  · exact ⟨rfl, rfl, rfl⟩
  · exact ⟨rfl, rfl, rfl⟩

/-- What was put out fills the room only when bytes were taken. -/
theorem rest_length_lt (s : t.State) (input : List UInt8) (hroom : 0 < room)
    (hfull : (t.callLoop s input room).output.length = room) :
    (t.callLoop s input room).rest.length < input.length := by
  obtain ⟨eaten, hinput, heaten, -, -⟩ := callLoop_spec t input s room
  cases eaten with
  | nil =>
      obtain ⟨-, houtput⟩ := Prod.mk.inj (Option.some.inj heaten)
      rw [← houtput, List.length_nil] at hfull
      omega
  | cons b eaten =>
      have hlength := congrArg List.length hinput
      simp only [List.length_append, List.length_cons] at hlength
      omega

/-- The decoder that goes byte by byte. -/
def decoder (t : Transducer) : Decoder where
  Stream := t.State
  start := t.start
  reset := fun _ => t.start
  call := t.call
  pending := fun _ input => input.length
  fits := by
    intro s input room
    obtain ⟨-, -, -, hfits, -⟩ := callLoop_spec t input s room
    rw [(call_fields s input room).2.2]
    exact hfits
  shrinks := by
    intro s input room hroom hfull
    rw [(call_fields s input room).2.2] at hfull
    rw [(call_fields s input room).2.1]
    exact rest_length_lt s input hroom hfull

/-- The stream is in the state after the bytes, all of whose output is out. -/
def Holds (t : Transducer) (s : t.State) (bytes : List UInt8) (delivered : Nat) : Prop :=
  ∃ output, t.run t.start bytes = some (s, output) ∧ output.length = delivered

theorem decoded_of_run (hrun : t.run t.start bytes = some (s, output)) :
    t.decoded bytes = output := by
  rw [decoded, hrun]
  rfl

/-- The rest of an input that begins with what the stream was given. -/
theorem accepts_rest (hrun : t.run t.start bytes = some (s, output))
    (hvalid : t.Accepts (bytes ++ input)) :
    ∃ s' rest, t.run s input = some (s', rest) ∧ t.decoded (bytes ++ input) = output ++ rest := by
  rw [Accepts, run_append hrun, Option.isSome_map] at hvalid
  obtain ⟨⟨s', rest⟩, hrest⟩ := Option.isSome_iff_exists.mp hvalid
  refine ⟨s', rest, hrest, ?_⟩
  rw [decoded, run_append hrun, hrest]
  rfl

/-- **A byte-by-byte decoder keeps the contract.** -/
theorem decodes (t : Transducer) : t.decoder.Decodes t.Accepts t.decoded t.Holds where
  start := ⟨[], rfl, rfl⟩
  empty := rfl
  begins := by
    intro bytes more hvalid
    exact accepts_of_append hvalid
  grows := by
    intro bytes more hvalid
    have hprefix := accepts_of_append hvalid
    obtain ⟨⟨s, output⟩, hrun⟩ := Option.isSome_iff_exists.mp hprefix
    obtain ⟨s', rest, -, hdecoded⟩ := accepts_rest hrun hvalid
    rw [hdecoded, decoded_of_run hrun]
    exact List.prefix_append _ _
  succeeds := by
    rintro s bytes delivered input room ⟨output, hrun, -⟩ hvalid
    obtain ⟨s', rest, hrest, -⟩ := accepts_rest hrun hvalid
    obtain ⟨-, -, -, -, hok⟩ := callLoop_spec t input s room
    have hcode := (hok (by rw [hrest]; rfl)).1
    change (t.call s input room).code ≠ .failed
    unfold call
    dsimp only
    split
    · simp
    · rw [hcode]; simp
  continues := by
    rintro s bytes delivered input room ⟨output, hrun, rfl⟩ hvalid
    obtain ⟨s', rest, hrest, hdecoded⟩ := accepts_rest hrun hvalid
    obtain ⟨eaten, hinput, heaten, hfits, hok⟩ := callLoop_spec t input s room
    have hroom := (hok (by rw [hrest]; rfl)).2
    change (t.call s input room).output = _
    rw [(call_fields s input room).2.2, hdecoded, List.drop_left]
    rw [hinput, run_append heaten] at hrest
    obtain ⟨⟨s'', tail⟩, htail, heq⟩ := Option.map_eq_some_iff.mp hrest
    obtain ⟨-, rfl⟩ := Prod.mk.inj heq
    rcases Nat.lt_or_eq_of_le hfits with hlt | hfull
    · rw [hroom hlt] at htail
      obtain ⟨-, rfl⟩ := Prod.mk.inj (Option.some.inj htail)
      rw [List.append_nil]
      exact (List.take_of_length_le hfits).symm
    · exact (List.take_left' hfull).symm
  takes := by
    rintro s bytes delivered input room ⟨output, hrun, rfl⟩ hvalid
    obtain ⟨eaten, hinput, heaten, -, -⟩ := callLoop_spec t input s room
    obtain ⟨hstream, hrest, houtput⟩ := call_fields (t := t) s input room
    refine ⟨eaten, ?_, ?_⟩
    · change input = eaten ++ (t.call s input room).rest
      rw [hrest]
      exact hinput
    · refine ⟨output ++ (t.callLoop s input room).output, ?_, ?_⟩
      · change t.run t.start (bytes ++ eaten) = some ((t.call s input room).stream, _)
        rw [run_append hrun, heaten, hstream]
        rfl
      · change _ = output.length + (t.call s input room).output.length
        rw [houtput, List.length_append]
  takesAll := by
    rintro s bytes delivered input room ⟨output, hrun, -⟩ hvalid hlt
    obtain ⟨s', rest, hrest, -⟩ := accepts_rest hrun hvalid
    obtain ⟨-, -, -, -, hok⟩ := callLoop_spec t input s room
    have hroom := (hok (by rw [hrest]; rfl)).2
    change (t.call s input room).output.length < room at hlt
    change (t.call s input room).rest = []
    rw [(call_fields s input room).2.2] at hlt
    rw [(call_fields s input room).2.1]
    exact hroom hlt

end Transducer

end Ekizu.Lib.Streaming
