import Ekizu.Lib.Memory
import Ekizu.Lib.Runs
import Ekizu.Net.Common

/-!
# Sends of a UDP socket

`async_send`, `async_send_to` and `async_send_to_str` of `udp.cpp`, with the memory of the
caller.  One event is a call, one of the handlers that run between a call and its
completion, or a store of the caller: a call reads the buffer at once or keeps a span of
it.

## Main results

* `owning` — the invariant of every run in which no store meets a span that is kept.
* `sendsOwn` — the datagrams of such a run, and what another store leads to.
* `safe_iff` — the datagrams can go wrong as soon as the invariant does.
-/

namespace Ekizu.Net

open Lib Lib.Runs

/-- The error codes that a send completes with. -/
inductive SendError where
  | udpNotConnected
  | udpInvalidAddress
  | hostNotFound
  | other (code : Nat)
  deriving DecidableEq

/-! ## Addresses -/

def openBracket : UInt8 := 91
def closeBracket : UInt8 := 93
def colon : UInt8 := 58

/-- `"0.0.0.0"`. -/
def anyHost : Bytes := [48, 46, 48, 46, 48, 46, 48]

/-- `rfind`: the position of the last of these bytes. -/
def rfind (b : UInt8) (text : Bytes) : Option Nat :=
  match text.reverse.idxOf? b with
  | some i => some (text.length - 1 - i)
  | none => none

/-- `parse_host_port`; `none` is `udp_invalid_address`. -/
def parseHostPort (address : Bytes) : Option (Bytes × Bytes) :=
  match address with
  | [] => none
  | first :: _ =>
      if first = openBracket then
        match address.idxOf? closeBracket with
        | none => none
        | some rb =>
            let host := (address.drop 1).take (rb - 1)
            let rest := address.drop (rb + 1)
            if rest.length < 2 || rest.head? != some colon then none
            else some (host, rest.drop 1)
      else
        match rfind colon address with
        | none => none
        | some i =>
            let host := address.take i
            let port := address.drop (i + 1)
            if port.isEmpty then none
            else some (if host.isEmpty then anyHost else host, port)

/-! ## Sends -/

/-- `boost::span<const std::byte>`. -/
structure ByteSpan where
  start : Nat
  length : Nat
  deriving DecidableEq

/-- What a span shows; `none` where a byte of it was freed. -/
def ByteSpan.bytes (data : ByteSpan) (m : Memory UInt8) : Option Bytes :=
  m.read data.start data.length

/-- An `Op` of `async_send_to_str`: the address is owned, the data is a span.  `called` is
what the span showed at the call. -/
structure StringSend where
  id : Nat
  address : Bytes
  data : ByteSpan
  called : Bytes
  deriving DecidableEq

/-- A send that the socket has, with the vector that its handler owns: its size and its
bytes, or nothing where they were copied from freed memory.  `ep` is absent for the
connected peer. -/
structure OwnedSend where
  id : Nat
  ep : Option Endpoint
  size : Nat
  buf : Option Bytes
  called : Bytes
  deriving DecidableEq

/-- The memory of the caller, and the sends: those whose `Op` is posted and has not started
(`posted`), those that resolve their host (`resolving`), those that the socket has
(`outstanding`), and the datagrams that were sent.  `results` are the completions of the
handlers, the last first. -/
structure UdpSends where
  memory : Memory UInt8 := .empty
  connected : Bool := false
  submitted : Nat := 0
  posted : List StringSend := []
  resolving : List StringSend := []
  outstanding : List OwnedSend := []
  sent : List OwnedSend := []
  results : List (Nat × Except SendError Nat) := []

namespace UdpSends

/-- The completion of a handler, posted to its executor. -/
def finish (s : UdpSends) (id : Nat) (r : Except SendError Nat) : UdpSends :=
  { s with results := (id, r) :: s.results }

/-- `async_send`, with the bytes of its span. -/
def asyncSend (s : UdpSends) (id : Nat) (bytes : Bytes) : UdpSends :=
  if s.connected then
    { s with
      outstanding := ⟨id, none, bytes.length, some bytes, bytes⟩ :: s.outstanding }
  else s.finish id (.error .udpNotConnected)

/-- `async_send_to`, which copies its span; the calls of the library give it what the span
shows then. -/
def asyncSendTo (s : UdpSends) (id : Nat) (data : ByteSpan) (ep : Endpoint) (called : Bytes) :
    UdpSends :=
  { s with
    outstanding := ⟨id, some ep, data.length, data.bytes s.memory, called⟩ :: s.outstanding }

/-- `async_send_to_str`. -/
def asyncSendToStr (s : UdpSends) (op : StringSend) : UdpSends :=
  { s with posted := op :: s.posted }

/-- `Op::start`. -/
def start (s : UdpSends) (op : StringSend) : UdpSends :=
  match parseHostPort op.address with
  | none => s.finish op.id (.error .udpInvalidAddress)
  | some _ => { s with resolving := op :: s.resolving }

/-- What `resolver.async_resolve` completes with. -/
inductive Resolved where
  | error (e : SendError)
  | endpoints (results : List Endpoint)
  deriving DecidableEq

/-- The handler of `async_resolve`. -/
def resolved (s : UdpSends) (op : StringSend) : Resolved → UdpSends
  | .error e => s.finish op.id (.error e)
  | .endpoints [] => s.finish op.id (.error .hostNotFound)
  | .endpoints (ep :: _) => s.asyncSendTo op.id op.data ep op.called

/-- The socket is done with a send: its datagram was sent, or there was an error. -/
def transmitted (s : UdpSends) (o : OwnedSend) : Option SendError → UdpSends
  | some e => s.finish o.id (.error e)
  | none =>
      { s with sent := o :: s.sent }.finish o.id (.ok o.size)

/-- What happens: a store of the caller, a call with a span of live memory, the handlers of
the library, and the end of an `async_connect`. -/
inductive Event where
  | store (address : Nat) (value : Option UInt8)
  | asyncSend (data : ByteSpan)
  | asyncSendTo (data : ByteSpan) (ep : Endpoint)
  | asyncSendToStr (data : ByteSpan) (address : Bytes)
  | started (i : Nat)
  | resolved (i : Nat) (result : Resolved)
  | transmitted (i : Nat) (e : Option SendError)
  | connected

/-- One event; `none` where it cannot happen. -/
def step (s : UdpSends) : Event → Option UdpSends
  | .store address value => some { s with memory := s.memory.store address value }
  | .asyncSend data => do
      let bytes ← data.bytes s.memory
      return { s with submitted := s.submitted + 1 }.asyncSend s.submitted bytes
  | .asyncSendTo data ep => do
      let bytes ← data.bytes s.memory
      return { s with submitted := s.submitted + 1 }.asyncSendTo s.submitted data ep bytes
  | .asyncSendToStr data address => do
      let bytes ← data.bytes s.memory
      return { s with submitted := s.submitted + 1 }.asyncSendToStr
        ⟨s.submitted, address, data, bytes⟩
  | .started i => do
      let op ← s.posted[i]?
      return { s with posted := s.posted.eraseIdx i }.start op
  | .resolved i result => do
      let op ← s.resolving[i]?
      return { s with resolving := s.resolving.eraseIdx i }.resolved op result
  | .transmitted i e => do
      let o ← s.outstanding[i]?
      return { s with outstanding := s.outstanding.eraseIdx i }.transmitted o e
  | .connected => some { s with connected := true }

/-- A socket from its bind on. -/
def machine : Machine UdpSends Event where
  start := {}
  step := step

/-! ## What is owned -/

/-- **Every datagram carries the bytes that its buffer held at the call.** -/
def SendsOwn (s : UdpSends) : Prop := ∀ o ∈ s.sent, o.buf = some o.called

/-- The sends whose spans are still to be copied: those that resolve their host, and those
that will. -/
def uncopied (s : UdpSends) : List StringSend :=
  s.posted.filter (fun op => (parseHostPort op.address).isSome) ++ s.resolving

/-- A store of the caller is beside the spans that are still to be copied, or changes
nothing there. -/
def Undisturbed (s : UdpSends) : Event → Prop
  | .store address value => ∀ op ∈ s.uncopied,
      address < op.data.start ∨ op.data.start + op.data.length ≤ address ∨
        s.memory address = value
  | _ => True

instance (s : UdpSends) : Decidable s.SendsOwn :=
  inferInstanceAs (Decidable (∀ o ∈ s.sent, o.buf = some o.called))

instance (s : UdpSends) (e : Event) : Decidable (s.Undisturbed e) :=
  match e with
  | .store address value => inferInstanceAs (Decidable (∀ op ∈ s.uncopied,
      address < op.data.start ∨ op.data.start + op.data.length ≤ address ∨
        s.memory address = value))
  | .asyncSend _ => .isTrue trivial
  | .asyncSendTo _ _ => .isTrue trivial
  | .asyncSendToStr _ _ => .isTrue trivial
  | .started _ => .isTrue trivial
  | .resolved _ _ => .isTrue trivial
  | .transmitted _ _ => .isTrue trivial
  | .connected => .isTrue trivial

/-- The datagrams and the vectors hold the bytes of the call, and so does the memory under
every span that is still to be copied. -/
structure Owning (s : UdpSends) : Prop where
  sent : s.SendsOwn
  outstanding : ∀ o ∈ s.outstanding, o.buf = some o.called
  uncopied : ∀ op ∈ s.uncopied, op.data.bytes s.memory = some op.called

variable {s s' : UdpSends} {e : Event}

theorem mem_uncopied {op : StringSend} :
    op ∈ s.uncopied ↔
      (op ∈ s.posted ∧ (parseHostPort op.address).isSome = true) ∨ op ∈ s.resolving := by
  simp [uncopied, List.mem_append, List.mem_filter]

/-! ## What a step does -/

/-- The event of a step, and when it is due. -/
inductive Ran (s : UdpSends) : Event → UdpSends → Prop
  | store {address : Nat} {value : Option UInt8} :
      Ran s (.store address value) { s with memory := s.memory.store address value }
  | asyncSend {data : ByteSpan} {bytes : Bytes} (hbytes : data.bytes s.memory = some bytes) :
      Ran s (.asyncSend data)
        ({ s with submitted := s.submitted + 1 }.asyncSend s.submitted bytes)
  | asyncSendTo {data : ByteSpan} {ep : Endpoint} {bytes : Bytes}
      (hbytes : data.bytes s.memory = some bytes) :
      Ran s (.asyncSendTo data ep)
        ({ s with submitted := s.submitted + 1 }.asyncSendTo s.submitted data ep bytes)
  | asyncSendToStr {data : ByteSpan} {address bytes : Bytes}
      (hbytes : data.bytes s.memory = some bytes) :
      Ran s (.asyncSendToStr data address)
        ({ s with submitted := s.submitted + 1 }.asyncSendToStr
          ⟨s.submitted, address, data, bytes⟩)
  | started {i : Nat} {op : StringSend} (hop : s.posted[i]? = some op) :
      Ran s (.started i) ({ s with posted := s.posted.eraseIdx i }.start op)
  | resolved {i : Nat} {op : StringSend} {result : Resolved} (hop : s.resolving[i]? = some op) :
      Ran s (.resolved i result)
        ({ s with resolving := s.resolving.eraseIdx i }.resolved op result)
  | transmitted {i : Nat} {o : OwnedSend} {e : Option SendError}
      (ho : s.outstanding[i]? = some o) :
      Ran s (.transmitted i e)
        ({ s with outstanding := s.outstanding.eraseIdx i }.transmitted o e)
  | connected : Ran s .connected { s with connected := true }

theorem step_ran (hstep : s.step e = some s') : Ran s e s' := by
  cases e with
  | store address value =>
      obtain rfl := Option.some.inj hstep
      exact .store
  | asyncSend data =>
      obtain ⟨bytes, hbytes, heq⟩ := Option.bind_eq_some_iff.mp hstep
      obtain rfl := Option.some.inj heq
      exact .asyncSend hbytes
  | asyncSendTo data ep =>
      obtain ⟨bytes, hbytes, heq⟩ := Option.bind_eq_some_iff.mp hstep
      obtain rfl := Option.some.inj heq
      exact .asyncSendTo hbytes
  | asyncSendToStr data address =>
      obtain ⟨bytes, hbytes, heq⟩ := Option.bind_eq_some_iff.mp hstep
      obtain rfl := Option.some.inj heq
      exact .asyncSendToStr hbytes
  | started i =>
      obtain ⟨op, hop, heq⟩ := Option.bind_eq_some_iff.mp hstep
      obtain rfl := Option.some.inj heq
      exact .started hop
  | resolved i result =>
      obtain ⟨op, hop, heq⟩ := Option.bind_eq_some_iff.mp hstep
      obtain rfl := Option.some.inj heq
      exact .resolved hop
  | transmitted i e =>
      obtain ⟨o, ho, heq⟩ := Option.bind_eq_some_iff.mp hstep
      obtain rfl := Option.some.inj heq
      exact .transmitted ho
  | connected =>
      obtain rfl := Option.some.inj hstep
      exact .connected

/-! ## The invariant -/

namespace Owning

theorem finish (h : Owning s) (id : Nat) (r : Except SendError Nat) : Owning (s.finish id r) :=
  ⟨h.sent, h.outstanding, h.uncopied⟩

/-- The number of the last call does not matter. -/
theorem submit (h : Owning s) (n : Nat) : Owning { s with submitted := n } :=
  ⟨h.sent, h.outstanding, h.uncopied⟩

/-- A vector with the bytes of the call is handed to the socket. -/
theorem hand (h : Owning s) {o : OwnedSend} (ho : o.buf = some o.called) :
    Owning { s with outstanding := o :: s.outstanding } :=
  ⟨h.sent, List.forall_mem_cons.mpr ⟨ho, h.outstanding⟩, h.uncopied⟩

/-- Sends that are no longer waiting. -/
theorem fewer (h : Owning s) {posted resolving : List StringSend} {outstanding : List OwnedSend}
    (hposted : posted ⊆ s.posted) (hresolving : resolving ⊆ s.resolving)
    (houtstanding : outstanding ⊆ s.outstanding) :
    Owning { s with posted := posted, resolving := resolving, outstanding := outstanding } := by
  refine ⟨h.sent, fun o ho => h.outstanding o (houtstanding ho), ?_⟩
  intro op hop
  apply h.uncopied op
  rw [mem_uncopied] at hop ⊢
  rcases hop with ⟨hpost, haddress⟩ | hresolve
  · exact .inl ⟨hposted hpost, haddress⟩
  · exact .inr (hresolving hresolve)

/-- A store that no span shows. -/
theorem store (h : Owning s) {address : Nat} {value : Option UInt8}
    (hundisturbed : s.Undisturbed (.store address value)) :
    Owning { s with memory := s.memory.store address value } := by
  refine ⟨h.sent, h.outstanding, ?_⟩
  intro op hop
  exact (Memory.read_store_eq_iff (h.uncopied op hop)).mpr (hundisturbed op hop)

theorem asyncSend (h : Owning s) (id : Nat) (bytes : Bytes) : Owning (s.asyncSend id bytes) := by
  unfold UdpSends.asyncSend
  split
  · exact h.hand rfl
  · exact h.finish _ _

theorem asyncSendTo (h : Owning s) (id : Nat) {data : ByteSpan} (ep : Endpoint) {called : Bytes}
    (hbytes : data.bytes s.memory = some called) :
    Owning (s.asyncSendTo id data ep called) :=
  h.hand hbytes

theorem asyncSendToStr (h : Owning s) {op : StringSend}
    (hbytes : op.data.bytes s.memory = some op.called) : Owning (s.asyncSendToStr op) := by
  refine ⟨h.sent, h.outstanding, ?_⟩
  intro op' hop'
  rcases mem_uncopied.mp hop' with ⟨hposted, haddress⟩ | hresolving
  · rcases List.mem_cons.mp hposted with rfl | hposted
    · exact hbytes
    · exact h.uncopied op' (mem_uncopied.mpr (.inl ⟨hposted, haddress⟩))
  · exact h.uncopied op' (mem_uncopied.mpr (.inr hresolving))

/-- The host of an address is looked up. -/
theorem start (h : Owning s) {op : StringSend}
    (hbytes : (parseHostPort op.address).isSome = true → op.data.bytes s.memory = some op.called) :
    Owning (s.start op) := by
  unfold UdpSends.start
  cases hparse : parseHostPort op.address with
  | none => exact h.finish _ _
  | some hp =>
      refine ⟨h.sent, h.outstanding, ?_⟩
      intro op' hop'
      rcases mem_uncopied.mp hop' with hposted | hresolving
      · exact h.uncopied op' (mem_uncopied.mpr (.inl hposted))
      · rcases List.mem_cons.mp hresolving with rfl | hresolving
        · exact hbytes (by rw [hparse]; rfl)
        · exact h.uncopied op' (mem_uncopied.mpr (.inr hresolving))

theorem resolved (h : Owning s) {op : StringSend}
    (hbytes : op.data.bytes s.memory = some op.called) (result : Resolved) :
    Owning (s.resolved op result) := by
  cases result with
  | error e => exact h.finish _ _
  | endpoints results =>
      cases results with
      | nil => exact h.finish _ _
      | cons ep results => exact h.asyncSendTo op.id ep hbytes

theorem transmitted (h : Owning s) {o : OwnedSend} (ho : o.buf = some o.called)
    (e : Option SendError) : Owning (s.transmitted o e) := by
  cases e with
  | some e => exact h.finish _ _
  | none =>
      have hsent : ∀ o' ∈ o :: s.sent, o'.buf = some o'.called :=
        List.forall_mem_cons.mpr ⟨ho, h.sent⟩
      have hnew : Owning { s with sent := o :: s.sent } := ⟨hsent, h.outstanding, h.uncopied⟩
      exact hnew.finish _ _

/-- **A step keeps the bytes of every call**, unless it is a store on a span that is still to
be copied. -/
theorem step (h : Owning s) (hundisturbed : s.Undisturbed e) (hstep : s.step e = some s') :
    Owning s' := by
  cases step_ran hstep with
  | store => exact h.store hundisturbed
  | asyncSend hbytes => exact (h.submit _).asyncSend _ _
  | asyncSendTo hbytes => exact (h.submit _).asyncSendTo _ _ hbytes
  | asyncSendToStr hbytes => exact (h.submit _).asyncSendToStr hbytes
  | started hop =>
      have hmem := List.mem_of_getElem? hop
      refine (h.fewer (List.eraseIdx_subset ..) (List.Subset.refl _) (List.Subset.refl _)).start ?_
      exact fun haddress => h.uncopied _ (mem_uncopied.mpr (.inl ⟨hmem, haddress⟩))
  | resolved hop =>
      have hbytes := h.uncopied _ (mem_uncopied.mpr (.inr (List.mem_of_getElem? hop)))
      exact (h.fewer (List.Subset.refl _) (List.eraseIdx_subset ..) (List.Subset.refl _)).resolved
        hbytes _
  | transmitted ho =>
      have hbuf := h.outstanding _ (List.mem_of_getElem? ho)
      exact (h.fewer (List.Subset.refl _) (List.Subset.refl _)
        (List.eraseIdx_subset ..)).transmitted hbuf _
  | connected => exact ⟨h.sent, h.outstanding, h.uncopied⟩

end Owning

/-! ## What the library does next -/

/-- The handlers of the library. -/
def Event.IsHandler : Event → Prop
  | .started _ => True
  | .resolved _ _ => True
  | .transmitted _ _ => True
  | _ => False

/-- Whatever the handlers do next, the datagrams carry the bytes of their calls. -/
def Safe (s : UdpSends) : Prop :=
  ∀ (events : List Event) (s' : UdpSends), (∀ e ∈ events, e.IsHandler) →
    machine.exec s events = some s' → s'.SendsOwn

theorem Owning.safe (h : Owning s) : s.Safe := by
  intro events s' hhandlers hexec
  have hstep : ∀ {s e s'}, Owning s → e.IsHandler → machine.step s e = some s' → Owning s' := by
    intro s e s' hs hhandler hstep
    refine hs.step ?_ hstep
    cases e with
    | started | resolved | transmitted => trivial
    | store | asyncSend | asyncSendTo | asyncSendToStr | connected => cases hhandler
  exact (Machine.exec_invariant Owning Event.IsHandler hstep hhandlers h hexec).sent

theorem Safe.step (h : s.Safe) (hhandler : e.IsHandler) (hstep : s.step e = some s') :
    s'.Safe := by
  intro events t hhandlers hexec
  refine h (e :: events) t (List.forall_mem_cons.mpr ⟨hhandler, hhandlers⟩) ?_
  rw [Machine.exec_cons (m := machine) hstep]
  exact hexec

/-- A vector with other bytes can be sent. -/
theorem Safe.outstanding (h : s.Safe) {o : OwnedSend} (ho : o ∈ s.outstanding) :
    o.buf = some o.called := by
  obtain ⟨i, hi⟩ := List.mem_iff_getElem?.mp ho
  have hstep : s.step (.transmitted i none) =
      some ({ s with outstanding := s.outstanding.eraseIdx i }.transmitted o none) := by
    rw [UdpSends.step, hi]
    rfl
  exact h.step (e := .transmitted i none) trivial hstep [] _ nofun rfl o List.mem_cons_self

/-- A span is copied when its host is resolved. -/
theorem Safe.resolving (h : s.Safe) {op : StringSend} (hop : op ∈ s.resolving) :
    op.data.bytes s.memory = some op.called := by
  obtain ⟨i, hi⟩ := List.mem_iff_getElem?.mp hop
  have hstep : s.step (.resolved i (.endpoints [⟨[], 0⟩])) =
      some ({ s with resolving := s.resolving.eraseIdx i }.asyncSendTo op.id op.data ⟨[], 0⟩
        op.called) := by
    rw [UdpSends.step, hi]
    rfl
  exact (h.step (e := .resolved i _) trivial hstep).outstanding List.mem_cons_self

/-- An address that can be parsed leads to a lookup. -/
theorem Safe.uncopied (h : s.Safe) {op : StringSend} (hop : op ∈ s.uncopied) :
    op.data.bytes s.memory = some op.called := by
  rcases mem_uncopied.mp hop with ⟨hposted, haddress⟩ | hresolving
  · obtain ⟨i, hi⟩ := List.mem_iff_getElem?.mp hposted
    have hstep : s.step (.started i) =
        some ({ s with posted := s.posted.eraseIdx i }.start op) := by
      rw [UdpSends.step, hi]
      rfl
    obtain ⟨hp, hparse⟩ := Option.isSome_iff_exists.mp haddress
    have hnext := h.step (e := .started i) trivial hstep
    unfold UdpSends.start at hnext
    rw [hparse] at hnext
    exact hnext.resolving List.mem_cons_self
  · exact h.resolving hresolving

theorem safe_iff : s.Safe ↔ Owning s := by
  constructor
  · intro h
    exact ⟨h [] s nofun rfl, fun o => h.outstanding, fun op => h.uncopied⟩
  · exact Owning.safe

/-- A store that keeps what the spans show is beside them, or changes nothing there. -/
theorem undisturbed_of_owning {address : Nat} {value : Option UInt8} (h : Owning s)
    (hafter : Owning { s with memory := s.memory.store address value }) :
    s.Undisturbed (.store address value) := by
  intro op hop
  exact (Memory.read_store_eq_iff (h.uncopied op hop)).mp (hafter.uncopied op hop)

/-! ## Runs -/

/-- **The invariant of every run in which no store meets a span that is kept.** -/
theorem owning {trace : List (Taken UdpSends Event)} (hrun : machine.Run trace s) :
    (∀ t ∈ trace, t.pre.Undisturbed t.event) → Owning s ∧ ∀ t ∈ trace, Owning t.post := by
  induction hrun with
  | start =>
      intro _
      exact ⟨⟨nofun, nofun, nofun⟩, nofun⟩
  | step _ hstep ih =>
      intro hundisturbed
      obtain ⟨hbefore, hposts⟩ := ih fun t ht => hundisturbed t (List.mem_cons_of_mem _ ht)
      have hafter := hbefore.step (hundisturbed _ List.mem_cons_self) hstep
      exact ⟨hafter, List.forall_mem_cons.mpr ⟨hafter, hposts⟩⟩

/-- A run that stays safe has only such stores. -/
theorem undisturbed {trace : List (Taken UdpSends Event)} (hrun : machine.Run trace s) :
    (∀ t ∈ trace, t.post.Safe) → Owning s ∧ ∀ t ∈ trace, t.pre.Undisturbed t.event := by
  induction hrun with
  | start =>
      intro _
      exact ⟨⟨nofun, nofun, nofun⟩, nofun⟩
  | @step trace s s' e _ hstep ih =>
      intro hsafe
      obtain ⟨hbefore, hevents⟩ := ih fun t ht => hsafe t (List.mem_cons_of_mem _ ht)
      have hafter : Owning s' := safe_iff.mp (hsafe ⟨s, e, s'⟩ List.mem_cons_self)
      have hevent : s.Undisturbed e := by
        cases step_ran hstep with
        | store => exact undisturbed_of_owning hbefore hafter
        | _ => trivial
      exact ⟨hafter, List.forall_mem_cons.mpr ⟨hevent, hevents⟩⟩

/-- **UDP sends own their data** in every run in which no store changes a byte of a buffer
whose string send is still to copy it; with any other store, the handlers can go on to send
other bytes. -/
theorem sendsOwn {trace : List (Taken UdpSends Event)} (hrun : machine.Run trace s) :
    ((∀ t ∈ trace, t.pre.Undisturbed t.event) →
      s.SendsOwn ∧ ∀ t ∈ trace, t.post.SendsOwn) ∧
    ((∀ t ∈ trace, t.post.Safe) ↔ ∀ t ∈ trace, t.pre.Undisturbed t.event) := by
  constructor
  · intro hundisturbed
    obtain ⟨hs, hposts⟩ := owning hrun hundisturbed
    exact ⟨hs.sent, fun t ht => (hposts t ht).sent⟩
  · constructor
    · intro hsafe
      exact (undisturbed hrun hsafe).2
    · intro hundisturbed t ht
      exact ((owning hrun hundisturbed).2 t ht).safe

/-- A buffer of two bytes at 0. -/
def buffer : ByteSpan := ⟨0, 2⟩

/-- The three sends, with stores on the buffer when each of them has copied it. -/
def copiedFirst : List Event :=
  [.store 0 (some 1), .store 1 (some 2), .connected, .asyncSend buffer, .store 0 (some 3),
    .asyncSendTo buffer ⟨[127, 0, 0, 1], 9⟩, .store 1 none, .store 1 (some 4),
    .asyncSendToStr buffer [104, 58, 57], .started 0, .resolved 0 (.endpoints [⟨[10], 9⟩]),
    .store 0 none, .transmitted 0 none, .transmitted 0 none, .transmitted 0 none]

/-- Three datagrams with what the buffer held at the three calls. -/
theorem sendsOwn_copiedFirst :
    (machine.recorded copiedFirst).2.SendsOwn ∧
      (machine.recorded copiedFirst).2.sent.map (·.called) = [[1, 2], [3, 2], [3, 4]] :=
  ⟨((sendsOwn (machine.run_recorded copiedFirst (by decide +kernel))).1 (by decide +kernel)).1,
    by decide +kernel⟩

/-- A string send whose buffer is written before the host is resolved. -/
def writtenEarly : List Event :=
  [.store 0 (some 1), .store 1 (some 2), .asyncSendToStr buffer [104, 58, 57], .store 0 (some 3),
    .started 0, .resolved 0 (.endpoints [⟨[10], 9⟩]), .transmitted 0 none]

/-- A store between the call and the lookup changes the datagram. -/
theorem sendsOwn_writtenEarly : ¬ ∀ trace s, machine.Run trace s → s.SendsOwn := by
  intro h
  have hwrong : ¬ (machine.recorded writtenEarly).2.SendsOwn := by decide +kernel
  exact hwrong (h _ _ (machine.run_recorded writtenEarly (by decide +kernel)))

end UdpSends

end Ekizu.Net
