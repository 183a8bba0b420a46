import Ekizu.Lib.Strand
import Ekizu.Rest.HttpConnection

/-!
# The queue of a connection

One flag says that a request is in its write and read phase.  It is counted by
what is written, read, finished and released, so there is one request at a time
and the next is the one that the strand took after it.

## Main results

* `orderly` — the invariant of every run.
* `step_completes` — what a handler is completed with; `settled_answered` and
  `settled_cancelled` for runs.
* `serves` — every request is completed once, in the order the strand takes them,
  with its own response, or as cancelled.
* `serves_overtaken` — a request that is submitted on the strand is written before
  one submitted earlier, and one completes with its response after `cancel`.
-/

namespace Ekizu.Rest.HttpConnection

open Lib.Custody Lib.Runs Lib.Strand

variable {s s' : HttpConnection}

/-- The numbers of requests. -/
def ids (ps : List Pending) : List Nat := ps.map (·.id)

/-- The requests whose handlers were not completed. -/
def pendingIds (s : HttpConnection) : List Nat :=
  ids s.writing ++ (ids s.reading ++ (ids (s.finishing.map (·.1)) ++ (ids s.queue ++ ids s.calls)))

/-- The requests whose handlers were completed. -/
def completedIds (s : HttpConnection) : List Nat := ids (s.results.map (·.1))

/-- The request that is busy. -/
def tokens (s : HttpConnection) : Nat :=
  s.writing.length + s.reading.length + s.finishing.length + s.releases

/-! ## What a step does -/

/-- The next request starts, where there is one and none is busy, or the queue is
cancelled. -/
theorem startNext_cases (s : HttpConnection) :
    (s.cancelled = true ∧ s.startNext = s.cancelOnStrand) ∨
      (s.cancelled = false ∧ s.startNext = s ∧ (s.busy = true ∨ s.queue = [])) ∨
      ∃ p queue, s.cancelled = false ∧ s.busy = false ∧ s.queue = p :: queue ∧
        s.startNext = { s with
          busy := true
          queue := queue
          writing := p :: s.writing
          written := s.written ++ [p] } := by
  unfold startNext
  cases hcancelled : s.cancelled with
  | true => exact .inl ⟨rfl, rfl⟩
  | false =>
      refine .inr ?_
      rw [if_neg (by decide)]
      by_cases hbusy : s.busy = true
      · rw [if_pos hbusy]
        exact .inl ⟨rfl, rfl, .inl hbusy⟩
      · rw [if_neg hbusy]
        cases hqueue : s.queue with
        | nil => exact .inl ⟨rfl, rfl, .inr rfl⟩
        | cons p queue => exact .inr ⟨p, queue, rfl, by simpa using hbusy, rfl, rfl⟩

/-- What a step does, and when it is due. -/
inductive Ran (s : HttpConnection) : Event → HttpConnection → Prop
  | request {req : HttpRequest} :
      Ran s (.request req)
        { s with submitted := s.submitted + 1, calls := s.calls ++ [⟨s.submitted, req⟩] }
  | requestOnStrand {req : HttpRequest} :
      Ran s (.requestOnStrand req)
        ({ s with submitted := s.submitted + 1 }.enqueue false ⟨s.submitted, req⟩)
  | enqueue {p : Pending} {calls : List Pending} (hcalls : s.calls = p :: calls) :
      Ran s .enqueue ({ s with calls := calls }.enqueue true p)
  | writeCompleted {i : Nat} {ec : Option Error} {p : Pending} (hp : s.writing[i]? = some p) :
      Ran s (.writeCompleted i ec)
        ({ s with writing := s.writing.eraseIdx i }.writeCompleted p ec)
  | readCompleted {i : Nat} {result : HttpResult} {p : Pending} (hp : s.reading[i]? = some p) :
      Ran s (.readCompleted i result) ({ s with reading := s.reading.eraseIdx i }.finish p result)
  | dispatched {x : Pending × HttpResult} {finishing : List (Pending × HttpResult)}
      (hfinishing : s.finishing = x :: finishing) :
      Ran s .dispatched
        { s with
          finishing := finishing
          results := x :: s.results
          releases := s.releases + 1 }
  | release (hreleases : s.releases ≠ 0) : Ran s .release s.release
  | cancel {onStrand : Bool} : Ran s (.cancel onStrand) (s.cancel onStrand)
  | cancelOnStrand (hcancels : s.cancels ≠ 0) :
      Ran s .cancelOnStrand { s with cancels := s.cancels - 1 }.cancelOnStrand

theorem step_ran {e : Event} (hstep : s.step e = some s') : Ran s e s' := by
  cases e with
  | request req =>
      obtain rfl := Option.some.inj hstep
      exact .request
  | requestOnStrand req =>
      obtain rfl := Option.some.inj hstep
      exact .requestOnStrand
  | enqueue =>
      simp only [step] at hstep
      split at hstep
      · simp at hstep
      · next hcalls =>
          obtain rfl := Option.some.inj hstep
          exact .enqueue hcalls
  | writeCompleted i ec =>
      simp only [step] at hstep
      split at hstep
      · simp at hstep
      · next hp =>
          obtain rfl := Option.some.inj hstep
          exact .writeCompleted hp
  | readCompleted i result =>
      simp only [step] at hstep
      split at hstep
      · simp at hstep
      · next hp =>
          obtain rfl := Option.some.inj hstep
          exact .readCompleted hp
  | dispatched =>
      simp only [step] at hstep
      split at hstep
      · simp at hstep
      · next hfinishing =>
          obtain rfl := Option.some.inj hstep
          exact .dispatched hfinishing
  | release =>
      simp only [step] at hstep
      split at hstep
      · simp at hstep
      · next hreleases =>
          obtain rfl := Option.some.inj hstep
          exact .release hreleases
  | cancel onStrand =>
      obtain rfl := Option.some.inj hstep
      exact .cancel
  | cancelOnStrand =>
      simp only [step] at hstep
      split at hstep
      · simp at hstep
      · next hcancels =>
          obtain rfl := Option.some.inj hstep
          exact .cancelOnStrand hcancels

/-! ## The invariant -/

/-- Every request is in one place, and the strand took it or has it waiting; what is
written and queued follows the order of that, and so do the submissions that
waited; the flag counts the tokens, and a cancelled connection has no queue. -/
structure Ready (s : HttpConnection) : Prop where
  custody : Holds s.submitted (s.pendingIds ++ s.completedIds)
  turn : InTurn s.submitted s.arrived (ids s.calls)
  order : (ids s.written ++ ids s.queue).Sublist (takenIds s.arrived)
  tokens : s.tokens = if s.busy then 1 else 0
  stopped : s.cancelledOnStrand = true → s.cancelled = true ∧ s.queue = []
  asked : s.cancels ≠ 0 → s.cancelled = true

/-- The same, and a connection that is free has no queue. -/
structure Orderly (s : HttpConnection) : Prop extends Ready s where
  idle : s.busy = false → s.queue = []

/-- The strand has taken a request that stands nowhere yet. -/
structure Takes (s : HttpConnection) (waited : Bool) (p : Pending) : Prop where
  custody : Holds s.submitted (p.id :: (s.pendingIds ++ s.completedIds))
  turn : InTurn s.submitted (s.arrived ++ [(waited, p.id)]) (ids s.calls)
  order : (ids s.written ++ ids s.queue).Sublist (takenIds s.arrived)
  tokens : s.tokens = if s.busy then 1 else 0
  stopped : s.cancelledOnStrand = true → s.cancelled = true ∧ s.queue = []
  asked : s.cancels ≠ 0 → s.cancelled = true
  idle : s.busy = false → s.queue = []

theorem Ready.cancelOnStrand (h : Ready s) (hcancelled : s.cancelled = true) :
    Orderly s.cancelOnStrand := by
  unfold HttpConnection.cancelOnStrand
  by_cases hdone : s.cancelledOnStrand = true
  · rw [if_pos hdone]
    exact ⟨h, fun _ => (h.stopped hdone).2⟩
  · rw [if_neg hdone]
    refine ⟨⟨h.custody.move ?_, h.turn, ?_, h.tokens, fun _ => ⟨hcancelled, rfl⟩, h.asked⟩,
      fun _ => rfl⟩
    · intro n
      simp only [pendingIds, completedIds, ids, List.count_append, List.map_append,
        List.map_reverse, List.map_map, List.count_reverse, Function.comp_def]
      simp
      omega
    · show (ids s.written ++ []).Sublist (takenIds s.arrived)
      rw [List.append_nil]
      exact (List.sublist_append_left _ _).trans h.order

/-- **The next request starts.** -/
theorem Ready.startNext (h : Ready s) : Orderly s.startNext := by
  rcases startNext_cases s with ⟨hcancelled, heq⟩ | ⟨-, heq, hidle⟩ |
    ⟨p, queue, hcancelled, hbusy, hqueue, heq⟩
  · rw [heq]
    exact h.cancelOnStrand hcancelled
  · rw [heq]
    refine ⟨h, ?_⟩
    intro hbusy
    rcases hidle with hbusy' | hempty
    · simp [hbusy] at hbusy'
    · exact hempty
  · rw [heq]
    have htokens := h.tokens
    rw [hbusy, if_neg (by decide)] at htokens
    refine ⟨⟨h.custody.move ?_, h.turn, ?_, ?_, ?_, h.asked⟩, by simp⟩
    · intro n
      simp [pendingIds, completedIds, ids, hqueue, List.count_cons]
      omega
    · show (ids (s.written ++ [p]) ++ ids queue).Sublist (takenIds s.arrived)
      have horder := h.order
      rw [hqueue] at horder
      simpa [ids] using horder
    · simp only [HttpConnection.tokens, List.length_cons] at htokens ⊢
      simp
      omega
    · intro hdone
      have hcancelled' := (h.stopped hdone).1
      simp [hcancelled] at hcancelled'

/-- **A request is taken**: it is completed, or joins the queue. -/
theorem Takes.enqueue {p : Pending} {waited : Bool} (h : Takes s waited p) :
    Orderly (s.enqueue waited p) := by
  unfold HttpConnection.enqueue
  by_cases hcancelled : s.cancelled = true
  · rw [if_pos hcancelled]
    refine ⟨⟨h.custody.move ?_, h.turn, ?_, h.tokens, h.stopped, h.asked⟩, h.idle⟩
    · intro n
      simp [pendingIds, completedIds, ids, List.count_cons]
      omega
    · rw [takenIds_append]
      exact h.order.trans (List.sublist_append_left _ _)
  · rw [if_neg hcancelled]
    apply Ready.startNext
    refine ⟨h.custody.move ?_, h.turn, ?_, h.tokens, ?_, h.asked⟩
    · intro n
      simp [pendingIds, completedIds, ids, List.count_cons]
      omega
    · simpa [ids] using h.order.append (List.Sublist.refl [p.id])
    · intro hdone
      exact absurd (h.stopped hdone).1 hcancelled

/-! ## One step -/

theorem Orderly.request (h : Orderly s) (req : HttpRequest) :
    Orderly { s with submitted := s.submitted + 1, calls := s.calls ++ [⟨s.submitted, req⟩] } := by
  refine ⟨⟨h.custody.issue ?_, ?_, h.order, h.tokens, h.stopped, h.asked⟩, h.idle⟩
  · intro n
    simp [pendingIds, completedIds, ids, List.count_cons, eq_comm (a := n)]
    omega
  · simpa [ids] using h.turn.submit

theorem Orderly.requestOnStrand (h : Orderly s) (req : HttpRequest) :
    Takes { s with submitted := s.submitted + 1 } false ⟨s.submitted, req⟩ := by
  refine ⟨h.custody.issue ?_, h.turn.inline, h.order, h.tokens, h.stopped, h.asked, h.idle⟩
  intro n
  simp [pendingIds, completedIds, List.count_cons, eq_comm (a := n)]

theorem Orderly.takes {p : Pending} {calls : List Pending} (h : Orderly s)
    (hcalls : s.calls = p :: calls) : Takes { s with calls := calls } true p := by
  have hturn := h.turn
  rw [hcalls] at hturn
  refine ⟨h.custody.move ?_, hturn.take, h.order, h.tokens, h.stopped, h.asked, h.idle⟩
  intro n
  simp [pendingIds, completedIds, ids, hcalls, List.count_cons]
  omega

/-- One request is in progress. -/
theorem Orderly.tokens_le (h : Orderly s) : s.tokens ≤ 1 := by
  rw [h.tokens]
  split
  · exact Nat.le_refl 1
  · exact Nat.zero_le 1

theorem Orderly.writing_eq {p : Pending} {i : Nat} (h : Orderly s) (hp : s.writing[i]? = some p) :
    s.writing = [p] ∧ s.writing.eraseIdx i = [] ∧ s.reading = [] := by
  have htokens := h.tokens_le
  unfold HttpConnection.tokens at htokens
  obtain ⟨hwriting, herased⟩ := eq_singleton_of_getElem? (by omega) hp
  rw [hwriting, List.length_singleton] at htokens
  exact ⟨hwriting, herased, List.eq_nil_of_length_eq_zero (by omega)⟩

theorem Orderly.reading_eq {p : Pending} {i : Nat} (h : Orderly s) (hp : s.reading[i]? = some p) :
    s.reading = [p] ∧ s.reading.eraseIdx i = [] ∧ s.writing = [] := by
  have htokens := h.tokens_le
  unfold HttpConnection.tokens at htokens
  obtain ⟨hreading, herased⟩ := eq_singleton_of_getElem? (by omega) hp
  rw [hreading, List.length_singleton] at htokens
  exact ⟨hreading, herased, List.eq_nil_of_length_eq_zero (by omega)⟩

/-- The request in progress goes on to its next phase. -/
theorem Orderly.advance (h : Orderly s) (writing reading : List Pending)
    (finishing : List (Pending × HttpResult)) (releases : Nat)
    (results : List (Pending × HttpResult))
    (hcustody : ∀ n,
      (ids writing).count n + (ids reading).count n + (ids (finishing.map (·.1))).count n +
          (ids (results.map (·.1))).count n =
        (ids s.writing).count n + (ids s.reading).count n +
          (ids (s.finishing.map (·.1))).count n + (ids (s.results.map (·.1))).count n)
    (htokens : writing.length + reading.length + finishing.length + releases = s.tokens) :
    Orderly { s with
      writing := writing
      reading := reading
      finishing := finishing
      releases := releases
      results := results } := by
  refine ⟨⟨h.custody.move ?_, h.turn, h.order, ?_, h.stopped, h.asked⟩, h.idle⟩
  · intro n
    have hsame := hcustody n
    simp only [pendingIds, completedIds, List.count_append]
    omega
  · exact htokens.trans h.tokens

theorem Orderly.writeCompleted {p : Pending} {i : Nat} (h : Orderly s)
    (hp : s.writing[i]? = some p) (ec : Option Error) :
    Orderly ({ s with writing := s.writing.eraseIdx i }.writeCompleted p ec) := by
  obtain ⟨hwriting, herased, -⟩ := h.writing_eq hp
  rw [herased]
  cases ec with
  | some e =>
      apply h.advance
      · intro n
        simp [ids, hwriting, List.count_cons]
        omega
      · simp [HttpConnection.tokens, hwriting]
        omega
  | none =>
      apply h.advance
      · intro n
        simp [ids, hwriting, List.count_cons]
        omega
      · simp [HttpConnection.tokens, hwriting]
        omega

theorem Orderly.readCompleted {p : Pending} {i : Nat} (h : Orderly s)
    (hp : s.reading[i]? = some p) (result : HttpResult) :
    Orderly ({ s with reading := s.reading.eraseIdx i }.finish p result) := by
  obtain ⟨hreading, herased, -⟩ := h.reading_eq hp
  rw [herased]
  apply h.advance
  · intro n
    simp [ids, hreading, List.count_cons]
    omega
  · simp [HttpConnection.tokens, hreading]
    omega

theorem Orderly.dispatched {x : Pending × HttpResult} {finishing : List (Pending × HttpResult)}
    (h : Orderly s) (hfinishing : s.finishing = x :: finishing) :
    Orderly { s with
      finishing := finishing
      results := x :: s.results
      releases := s.releases + 1 } := by
  apply h.advance
  · intro n
    simp [ids, hfinishing, List.count_cons]
    omega
  · simp [HttpConnection.tokens, hfinishing]
    omega

/-- What `finish` leaves is the request that is busy. -/
theorem Orderly.released (h : Orderly s) (hreleases : s.releases ≠ 0) :
    s.finishing = [] ∧ s.reading = [] ∧ s.writing = [] := by
  have htokens := h.tokens_le
  unfold HttpConnection.tokens at htokens
  exact ⟨List.eq_nil_of_length_eq_zero (by omega), List.eq_nil_of_length_eq_zero (by omega),
    List.eq_nil_of_length_eq_zero (by omega)⟩

theorem Orderly.release (h : Orderly s) (hreleases : s.releases ≠ 0) : Orderly s.release := by
  obtain ⟨hfinishing, hreading, hwriting⟩ := h.released hreleases
  have htokens := h.tokens_le
  have hready : Ready { s with releases := s.releases - 1, busy := false } := by
    refine ⟨h.custody, h.turn, h.order, ?_, h.stopped, h.asked⟩
    simp only [HttpConnection.tokens, hfinishing, hreading, hwriting] at htokens ⊢
    rw [if_neg (by decide)]
    simp only [List.length_nil] at htokens ⊢
    omega
  exact hready.startNext

theorem Orderly.cancel (h : Orderly s) (onStrand : Bool) : Orderly (s.cancel onStrand) := by
  unfold HttpConnection.cancel
  by_cases hcancelled : s.cancelled = true
  · rw [if_pos hcancelled]
    exact h
  · rw [if_neg hcancelled]
    have hstopped : s.cancelledOnStrand = true → true = true ∧ s.queue = [] :=
      fun hdone => ⟨rfl, (h.stopped hdone).2⟩
    cases onStrand with
    | true =>
        have hready : Ready { s with cancelled := true } :=
          ⟨h.custody, h.turn, h.order, h.tokens, hstopped, fun _ => rfl⟩
        exact hready.cancelOnStrand rfl
    | false =>
        exact ⟨⟨h.custody, h.turn, h.order, h.tokens, hstopped, fun _ => rfl⟩, h.idle⟩

theorem Orderly.cancelOnStrand (h : Orderly s) (hcancels : s.cancels ≠ 0) :
    Orderly { s with cancels := s.cancels - 1 }.cancelOnStrand := by
  have hcancelled := h.asked hcancels
  have hready : Ready { s with cancels := s.cancels - 1 } :=
    ⟨h.custody, h.turn, h.order, h.tokens, h.stopped, fun _ => hcancelled⟩
  exact hready.cancelOnStrand hcancelled

/-- **The invariant** of every run. -/
theorem orderly (h : machine.Reachable s) : Orderly s := by
  refine h.invariant ?_ ?_
  · refine ⟨⟨Holds.start, InTurn.start, ?_, rfl, ?_, ?_⟩, ?_⟩
    · exact List.Sublist.refl _
    all_goals simp [machine]
  · intro s e s' hs hstep
    cases step_ran hstep with
    | request => exact hs.request _
    | requestOnStrand => exact (hs.requestOnStrand _).enqueue
    | enqueue hcalls => exact (hs.takes hcalls).enqueue
    | writeCompleted hp => exact hs.writeCompleted hp _
    | readCompleted hp => exact hs.readCompleted hp _
    | dispatched hfinishing => exact hs.dispatched hfinishing
    | release hreleases => exact hs.release hreleases
    | cancel => exact hs.cancel _
    | cancelOnStrand hcancels => exact hs.cancelOnStrand hcancels

/-! ## What a handler is completed with -/

/-- The results of the requests that are finished. -/
def settled (s : HttpConnection) : List (Pending × HttpResult) := s.finishing ++ s.results

/-- The error that a write or a read completes with. -/
def Event.failure : Event → Option Error
  | .writeCompleted _ (some e) => some e
  | .readCompleted _ (.error e) => some e
  | _ => none

/-- The response that a read completes with. -/
def Event.response : Event → Option HttpResponse
  | .readCompleted _ (.response res) => some res
  | _ => none

def Event.isCancel : Event → Bool
  | .cancel _ => true
  | _ => false

/-- The step ends the write or the read of a request with a result. -/
def Ends (t : Taken HttpConnection Event) (x : Pending × HttpResult) : Prop :=
  (∃ e, t.event.failure = some e ∧ x.2 = .error e ∧ x.1 ∈ t.pre.writing ++ t.pre.reading) ∨
    ∃ i res, t.event = .readCompleted i (.response res) ∧ x.2 = .response res ∧
      t.pre.reading[i]? = some x.1

/-- Completions that a state has and another had not are cancellations. -/
def Cancels (s s' : HttpConnection) : Prop :=
  (s.cancelled = true → s'.cancelled = true) ∧
    ∀ x ∈ s'.settled, x ∈ s.settled ∨ s'.cancelled = true ∧ x.2 = .error .operationCanceled

theorem Cancels.refl (s : HttpConnection) : Cancels s s := ⟨id, fun _ hx => .inl hx⟩

/-- Other fields do not matter. -/
theorem Cancels.of_same {t : HttpConnection} (h : Cancels t s')
    (hcancelled : t.cancelled = s.cancelled) (hsettled : t.settled = s.settled) :
    Cancels s s' := by
  unfold Cancels at h ⊢
  rwa [hcancelled, hsettled] at h

theorem cancels_cancelOnStrand (hcancelled : s.cancelled = true) :
    Cancels s s.cancelOnStrand := by
  unfold HttpConnection.cancelOnStrand
  split
  · exact .refl s
  · refine ⟨id, ?_⟩
    intro x hx
    simp only [settled, List.mem_append, List.mem_reverse, List.mem_map] at hx ⊢
    rcases hx with hfinishing | ⟨p, -, rfl⟩ | hresult
    · exact .inl (.inl hfinishing)
    · exact .inr ⟨hcancelled, rfl⟩
    · exact .inl (.inr hresult)

theorem cancels_startNext (s : HttpConnection) : Cancels s s.startNext := by
  rcases startNext_cases s with ⟨hcancelled, heq⟩ | ⟨-, heq, -⟩ | ⟨p, queue, -, -, -, heq⟩
  · rw [heq]
    exact cancels_cancelOnStrand hcancelled
  · rw [heq]
    exact .refl s
  · rw [heq]
    exact ⟨id, fun _ hx => .inl hx⟩

theorem cancels_enqueue (waited : Bool) (p : Pending) : Cancels s (s.enqueue waited p) := by
  unfold HttpConnection.enqueue
  by_cases hcancelled : s.cancelled = true
  · rw [if_pos hcancelled]
    refine ⟨id, ?_⟩
    intro x hx
    simp only [settled, List.mem_append, List.mem_cons] at hx ⊢
    rcases hx with hfinishing | rfl | hresult
    · exact .inl (.inl hfinishing)
    · exact .inr ⟨hcancelled, rfl⟩
    · exact .inl (.inr hresult)
  · rw [if_neg hcancelled]
    exact (cancels_startNext _).of_same rfl rfl

theorem cancels_cancel (onStrand : Bool) : Cancels s (s.cancel onStrand) := by
  unfold HttpConnection.cancel
  split
  · exact .refl s
  · cases onStrand with
    | true =>
        have hcancels := cancels_cancelOnStrand (s := { s with cancelled := true }) rfl
        exact ⟨fun _ => hcancels.1 rfl, hcancels.2⟩
    | false => exact ⟨fun _ => rfl, fun _ hx => .inl hx⟩

/-- Completions that a step adds are cancellations of a cancelled connection, or what
the write or the read of the request ended with. -/
def Completes (t : Taken HttpConnection Event) : Prop :=
  (t.pre.cancelled = true → t.post.cancelled = true) ∧
    ∀ x ∈ t.post.settled, x ∈ t.pre.settled ∨
      (t.post.cancelled = true ∧ x.2 = .error .operationCanceled) ∨
        (t.pre.cancelled = false ∧ Ends t x)

theorem Cancels.completes {e : Event} (h : Cancels s s') : Completes ⟨s, e, s'⟩ := by
  refine ⟨h.1, ?_⟩
  intro x hx
  rcases h.2 x hx with hold | hnew
  · exact .inl hold
  · exact .inr (.inl hnew)

/-- `finish` reads the flag. -/
theorem completes_finish {e : Event} {p : Pending} {result : HttpResult}
    (hends : Ends ⟨s, e, s'⟩ (p, result)) (hsame : s'.cancelled = s.cancelled)
    (hsettled : s'.settled =
      (p, if s.cancelled then .error .operationCanceled else result) :: s.settled) :
    Completes ⟨s, e, s'⟩ := by
  refine ⟨fun hcancelled => hsame.trans hcancelled, ?_⟩
  intro x hx
  simp only [hsettled] at hx
  rcases List.mem_cons.mp hx with rfl | hold
  · by_cases hcancelled : s.cancelled = true
    · rw [if_pos hcancelled]
      exact .inr (.inl ⟨hsame.trans hcancelled, rfl⟩)
    · rw [if_neg hcancelled]
      exact .inr (.inr ⟨by simpa using hcancelled, hends⟩)
  · exact .inl hold

/-- **What a handler is completed with.** -/
theorem step_completes {e : Event} (h : Orderly s) (hstep : s.step e = some s') :
    Completes ⟨s, e, s'⟩ := by
  cases step_ran hstep with
  | request => exact (Cancels.refl s).completes
  | requestOnStrand => exact Cancels.completes ((cancels_enqueue _ _).of_same rfl rfl)
  | enqueue hcalls => exact Cancels.completes ((cancels_enqueue _ _).of_same rfl rfl)
  | @writeCompleted i ec p hp =>
      cases ec with
      | some err =>
          have hmem := List.mem_append_left s.reading (List.mem_of_getElem? hp)
          exact completes_finish (p := p) (.inl ⟨err, rfl, rfl, hmem⟩) rfl rfl
      | none => exact (Cancels.refl s).completes
  | @readCompleted i result p hp =>
      cases result with
      | error err =>
          have hmem := List.mem_append_right s.writing (List.mem_of_getElem? hp)
          exact completes_finish (p := p) (.inl ⟨err, rfl, rfl, hmem⟩) rfl rfl
      | response res =>
          exact completes_finish (p := p) (.inr ⟨i, res, rfl, rfl, hp⟩) rfl rfl
  | @dispatched x finishing hfinishing =>
      refine ⟨id, ?_⟩
      intro y hy
      simp only [settled, hfinishing, List.mem_append, List.mem_cons] at hy ⊢
      tauto
  | release hreleases => exact Cancels.completes ((cancels_startNext _).of_same rfl rfl)
  | cancel => exact (cancels_cancel _).completes
  | cancelOnStrand hcancels =>
      have hadded := cancels_cancelOnStrand (s := { s with cancels := s.cancels - 1 })
        (h.asked hcancels)
      exact (hadded.of_same rfl rfl).completes

/-! ## What is on the wire -/

/-- The responses that were read in some steps. -/
def responses (log : List (Taken HttpConnection Event)) : Nat :=
  (log.filterMap (·.event.response)).length

/-- The server answers each request with one response, in order, and a stream on which
a write or a read failed brings no more: a response that is read is the answer to
the request written at that position. -/
def InOrder (answer : HttpRequest → HttpResponse) (log : List (Taken HttpConnection Event))
    (t : Taken HttpConnection Event) : Prop :=
  ∀ res, t.event.response = some res →
    (∀ t' ∈ log, t'.event.failure = none) ∧
      ∃ p, t.pre.written[responses log]? = some p ∧ res = answer p.req

/-- Behind the requests that have their responses, the wire has the one in progress. -/
def Wire (n : Nat) (s : HttpConnection) : Prop :=
  ∃ before, before.length = n ∧ s.written = before ++ (s.reading ++ s.writing)

theorem wire_cancelOnStrand {n : Nat} (h : Wire n s) : Wire n s.cancelOnStrand := by
  unfold HttpConnection.cancelOnStrand
  split
  · exact h
  · exact h

theorem wire_startNext {n : Nat} (h : Wire n s)
    (hfree : s.busy = false → s.reading = [] ∧ s.writing = []) : Wire n s.startNext := by
  rcases startNext_cases s with ⟨-, heq⟩ | ⟨-, heq, -⟩ | ⟨p, queue, -, hbusy, -, heq⟩
  · rw [heq]
    exact wire_cancelOnStrand h
  · rw [heq]
    exact h
  · obtain ⟨before, hlength, hwritten⟩ := h
    obtain ⟨hreading, hwriting⟩ := hfree hbusy
    rw [heq]
    refine ⟨before, hlength, ?_⟩
    simp [hwritten, hreading, hwriting]

/-- Nothing is written or read on a connection that is free. -/
theorem Orderly.free (h : Orderly s) (hbusy : s.busy = false) :
    s.reading = [] ∧ s.writing = [] := by
  have htokens := h.tokens
  rw [hbusy, if_neg (by decide)] at htokens
  unfold HttpConnection.tokens at htokens
  exact ⟨List.eq_nil_of_length_eq_zero (by omega), List.eq_nil_of_length_eq_zero (by omega)⟩

theorem wire_enqueue {n : Nat} {p : Pending} {waited : Bool} (h : Wire n s)
    (hfree : s.busy = false → s.reading = [] ∧ s.writing = []) :
    Wire n (s.enqueue waited p) := by
  unfold HttpConnection.enqueue
  split
  · exact h
  · exact wire_startNext h hfree

theorem wire_cancel {n : Nat} (onStrand : Bool) (h : Wire n s) : Wire n (s.cancel onStrand) := by
  unfold HttpConnection.cancel
  split
  · exact h
  · split
    · exact wire_cancelOnStrand (s := { s with cancelled := true }) h
    · exact h

/-- **The wire along a step** that does not fail. -/
theorem wire_step {n : Nat} {e : Event} (h : Orderly s) (hwire : Wire n s)
    (hstep : s.step e = some s') (hfailure : e.failure = none) :
    Wire (n + (if e.response.isSome then 1 else 0)) s' := by
  cases step_ran hstep with
  | request => exact hwire
  | requestOnStrand => exact wire_enqueue hwire h.free
  | enqueue hcalls => exact wire_enqueue hwire h.free
  | @writeCompleted i ec p hp =>
      cases ec with
      | some err => simp [Event.failure] at hfailure
      | none =>
          obtain ⟨hwriting, herased, hreading⟩ := h.writing_eq hp
          obtain ⟨before, hlength, hwritten⟩ := hwire
          refine ⟨before, hlength, ?_⟩
          show s.written = before ++ (p :: s.reading ++ s.writing.eraseIdx i)
          rw [hwritten, herased, hreading, hwriting]
          rfl
  | @readCompleted i result p hp =>
      cases result with
      | error err => simp [Event.failure] at hfailure
      | response res =>
          obtain ⟨hreading, herased, hwriting⟩ := h.reading_eq hp
          obtain ⟨before, hlength, hwritten⟩ := hwire
          refine ⟨before ++ [p], by simp [hlength, Event.response], ?_⟩
          show s.written = before ++ [p] ++ (s.reading.eraseIdx i ++ s.writing)
          rw [hwritten, herased, hreading, hwriting]
          simp
  | dispatched hfinishing => exact hwire
  | release hreleases =>
      exact wire_startNext hwire fun _ => (h.released hreleases).2
  | cancel => exact wire_cancel _ hwire
  | cancelOnStrand => exact wire_cancelOnStrand hwire

/-! ## Runs -/

theorem wire {trace : List (Taken HttpConnection Event)} (hrun : machine.Run trace s)
    (hwhole : ∀ t ∈ trace, t.event.failure = none) : Wire (responses trace) s := by
  induction hrun with
  | start => exact ⟨[], rfl, rfl⟩
  | @step trace s s' e hrun hstep ih =>
      have hbefore := ih fun t ht => hwhole t (List.mem_cons_of_mem _ ht)
      have hlast := hwhole ⟨s, e, s'⟩ List.mem_cons_self
      have hcount : responses (⟨s, e, s'⟩ :: trace) =
          responses trace + if e.response.isSome then 1 else 0 := by
        unfold responses
        cases hresponse : e.response with
        | none => simp [hresponse]
        | some res => simp [hresponse]
      rw [hcount]
      exact wire_step (orderly ⟨_, hrun⟩) hbefore hstep hlast

/-- The write or the read of a request failed in a run, with an error. -/
def Failed (trace : List (Taken HttpConnection Event)) (x : Pending × HttpResult) : Prop :=
  ∃ t ∈ trace, ∃ e, t.event.failure = some e ∧ x.2 = .error e ∧
    x.1 ∈ t.pre.writing ++ t.pre.reading

/-- **Responses are not mixed up.** -/
theorem settled_answered {trace : List (Taken HttpConnection Event)}
    {answer : HttpRequest → HttpResponse} (hrun : machine.Run trace s)
    (hserver : Throughout (InOrder answer) trace) :
    ∀ x ∈ s.settled, x.2 = .response (answer x.1.req) ∨
      (s.cancelled = true ∧ x.2 = .error .operationCanceled) ∨ Failed trace x := by
  induction hrun with
  | start => simp [machine, settled]
  | @step trace s s' e hrun hstep ih =>
      have horderly := orderly ⟨trace, hrun⟩
      obtain ⟨hkept, hcompletes⟩ := step_completes horderly hstep
      intro x hx
      rcases hcompletes x hx with hold | hcancelled | ⟨-, hfailed | ⟨i, res, hevent, hres, hp⟩⟩
      · rcases ih hserver.2 x hold with hanswer | ⟨hcancelled, herror⟩ | ⟨t, ht, hfailed⟩
        · exact .inl hanswer
        · exact .inr (.inl ⟨hkept hcancelled, herror⟩)
        · exact .inr (.inr ⟨t, List.mem_cons_of_mem _ ht, hfailed⟩)
      · exact .inr (.inl hcancelled)
      · exact .inr (.inr ⟨_, List.mem_cons_self, hfailed⟩)
      · have hevent : e = .readCompleted i (.response res) := hevent
        obtain ⟨hwhole, q, hq, hanswer⟩ := hserver.1 res (by simp [hevent, Event.response])
        obtain ⟨before, hlength, hwritten⟩ := wire hrun hwhole
        obtain ⟨hreading, -, -⟩ := horderly.reading_eq hp
        have hq : s.written[responses trace]? = some q := hq
        rw [hwritten, hreading, ← hlength] at hq
        have hsame : x.1 = q := by simpa using hq
        left
        rw [hres, hanswer, hsame]

/-- **What is completed after a cancellation** is cancelled. -/
theorem settled_cancelled {trace : List (Taken HttpConnection Event)}
    (hrun : machine.Run trace s) :
    ∀ t ∈ trace, t.post.cancelled = true → s.cancelled = true ∧
      ∀ x ∈ s.settled, x ∈ t.post.settled ∨ x.2 = .error .operationCanceled := by
  induction hrun with
  | start => simp
  | @step trace s s' e hrun hstep ih =>
      obtain ⟨hkept, hcompletes⟩ := step_completes (orderly ⟨trace, hrun⟩) hstep
      intro t ht hcancelled
      rcases List.mem_cons.mp ht with rfl | ht
      · exact ⟨hcancelled, fun x hx => .inl hx⟩
      · obtain ⟨hbefore, hsettled⟩ := ih t ht hcancelled
        refine ⟨hkept hbefore, ?_⟩
        intro x hx
        rcases hcompletes x hx with hold | ⟨-, herror⟩ | ⟨hrunning, -⟩
        · exact hsettled x hold
        · exact .inr herror
        · simp [hbefore] at hrunning

/-- The connection serves its requests: each is completed at most once, and once where
nothing is in progress; one at a time is written and read; they are written at
most once, in the order the strand took them, and those that waited for it are
taken in the order of their submission; a request completes with its own response
where the server answers in order, unless it was cancelled or its write or read
failed; and what had no result when `cancel` was called is cancelled. -/
structure Serves (trace : List (Taken HttpConnection Event)) (s : HttpConnection) : Prop where
  once : ∀ id < s.submitted, s.completedIds.count id + s.pendingIds.count id = 1
  settled : s.calls = [] → s.writing = [] → s.reading = [] → s.finishing = [] →
    s.releases = 0 → ∀ id < s.submitted, s.completedIds.count id = 1
  single : s.writing.length + s.reading.length ≤ 1
  ordered : (ids s.written).Sublist (takenIds s.arrived)
  unrepeated : (ids s.written).Nodup
  waited : (waitedIds s.arrived).Pairwise (· < ·)
  answered : ∀ answer, Throughout (InOrder answer) trace →
    ∀ x ∈ s.results, x.2 = .response (answer x.1.req) ∨
      (s.cancelled = true ∧ x.2 = .error .operationCanceled) ∨ Failed trace x
  cancelled : ∀ t ∈ trace, t.event.isCancel = true → ∀ x ∈ s.results,
    x ∈ t.pre.results ∨ x ∈ t.pre.finishing ∨ x.2 = .error .operationCanceled

/-- `cancel` completes nothing but cancellations. -/
theorem cancel_settled {e : Event} (hcancel : e.isCancel = true) (hstep : s.step e = some s') :
    s'.cancelled = true ∧
      ∀ x ∈ s'.settled, x ∈ s.settled ∨ x.2 = .error .operationCanceled := by
  cases e with
  | cancel onStrand =>
      obtain rfl := Option.some.inj hstep
      constructor
      · unfold HttpConnection.cancel
        split
        · assumption
        · split
          · unfold HttpConnection.cancelOnStrand
            split
            · rfl
            · rfl
          · rfl
      · intro x hx
        rcases (cancels_cancel onStrand).2 x hx with hold | ⟨-, herror⟩
        · exact .inl hold
        · exact .inr herror
  | request | requestOnStrand | enqueue | writeCompleted | readCompleted | dispatched | release
  | cancelOnStrand => simp [Event.isCancel] at hcancel

/-- **The queue of a connection** serves its requests in every run. -/
theorem serves {trace : List (Taken HttpConnection Event)} (hrun : machine.Run trace s) :
    Serves trace s := by
  have h := orderly ⟨trace, hrun⟩
  have hordered : (ids s.written).Sublist (takenIds s.arrived) :=
    (List.sublist_append_left _ _).trans h.order
  refine ⟨fun id hid => h.custody.once hid, ?_, ?_, hordered, ?_, ?_, ?_, ?_⟩
  · intro hcalls hwriting hreading hfinishing hreleases id hid
    have hfree : s.busy = false := by
      have htokens := h.tokens
      cases hbusy : s.busy with
      | false => rfl
      | true =>
          simp [HttpConnection.tokens, hwriting, hreading, hfinishing, hreleases, hbusy] at htokens
    have hnone : s.pendingIds = [] := by
      simp [pendingIds, ids, hcalls, hwriting, hreading, hfinishing, h.idle hfree]
    exact h.custody.settled hnone hid
  · have htokens := h.tokens_le
    unfold HttpConnection.tokens at htokens
    omega
  · exact h.turn.nodup.sublist hordered
  · exact h.turn.inOrder
  · intro answer hserver x hx
    exact settled_answered hrun hserver x (List.mem_append_right _ hx)
  · intro t ht hcancel x hx
    obtain ⟨-, hstep⟩ := hrun.mem t ht
    obtain ⟨hcancelled, hbefore⟩ := cancel_settled hcancel hstep
    have hafter := (settled_cancelled hrun t ht hcancelled).2 x (List.mem_append_right _ hx)
    rcases hafter with hold | herror
    · rcases hbefore x hold with hpre | herror
      · rcases List.mem_append.mp hpre with hfinishing | hresult
        · exact .inr (.inl hfinishing)
        · exact .inl hresult
      · exact .inr (.inr herror)
    · exact .inr (.inr herror)

/-- An empty answer. -/
def referenceResponse : HttpResponse := { status := 200 }

/-- A request that gets its response, one whose write fails, and one that is queued until
`cancel`. -/
theorem serves_cancelled :
    Serves
      (machine.recorded
        [.request referenceRequest, .request referenceRequest, .request referenceRequest, .enqueue,
          .enqueue, .enqueue, .writeCompleted 0 none,
          .readCompleted 0 (.response referenceResponse), .dispatched, .release, .cancel false,
          .writeCompleted 0 (some .httpError), .cancelOnStrand, .dispatched, .release]).1
      (machine.recorded
        [.request referenceRequest, .request referenceRequest, .request referenceRequest, .enqueue,
          .enqueue, .enqueue, .writeCompleted 0 none,
          .readCompleted 0 (.response referenceResponse), .dispatched, .release, .cancel false,
          .writeCompleted 0 (some .httpError), .cancelOnStrand, .dispatched, .release]).2 :=
  serves (machine.run_recorded _ (by decide +kernel))

/-- While a read completes, request 1 is submitted from off the strand; then the handler
of request 0 runs on the strand and submits request 2, which is written first.
Later `cancel` comes between the flag's read in `finish` and the dispatch of the
handler of request 1, which completes with its response. -/
theorem serves_overtaken :
    ∃ trace s, machine.Run trace s ∧ ids s.written = [0, 2, 1] ∧
      ∃ t ∈ trace, t.event.isCancel = true ∧ ∃ x ∈ s.results, x ∉ t.pre.results ∧
        x.2 ≠ .error .operationCanceled :=
  ⟨_, _, machine.run_recorded
      [.request referenceRequest, .enqueue, .writeCompleted 0 none, .request referenceRequest,
        .readCompleted 0 (.response referenceResponse), .dispatched,
        .requestOnStrand referenceRequest, .release, .enqueue, .writeCompleted 0 none,
        .readCompleted 0 (.response referenceResponse), .dispatched, .release,
        .writeCompleted 0 none, .readCompleted 0 (.response referenceResponse), .cancel false,
        .dispatched]
      (by decide +kernel), by decide +kernel, by decide +kernel⟩

end Ekizu.Rest.HttpConnection
