import Mathlib.Logic.Relation

/-!
# Machines and their runs

A machine has a start state and a partial step function; events decide which
step is taken.  A run keeps every step it has taken.

## Main results

* `Reachable.invariant` — what holds at the start and is kept by every step
  holds in every reachable state.
* `Reachable.view_invariant` — the same for a view of the state, when each step
  is a sequence of simpler effects on the view.
* `exec_invariant` — the same along a list of events.
* `Run.mem` — every step of a run is taken from a reachable state.
* `Run.exec`, `Run.record` — the steps of a list of events prolong a run;
  `run_recorded` for a run from the start.

`Throughout` says that every entry of a log was allowed when it was made.
-/

namespace Ekizu.Lib.Runs

variable {S E V A : Type*}

/-- Every entry of the log is allowed after the entries before it.  The last
entry comes first. -/
def Throughout (allowed : List A → A → Prop) : List A → Prop
  | [] => True
  | a :: log => allowed log a ∧ Throughout allowed log

instance decidableThroughout {allowed : List A → A → Prop}
    [hallowed : ∀ log a, Decidable (allowed log a)] :
    ∀ log : List A, Decidable (Throughout allowed log)
  | [] => .isTrue trivial
  | a :: log =>
      have : Decidable (Throughout allowed log) := decidableThroughout log
      inferInstanceAs (Decidable (allowed log a ∧ Throughout allowed log))

/-- What holds of a log holds of its beginning. -/
theorem Throughout.of_append {allowed : List A → A → Prop} {recent log : List A}
    (h : Throughout allowed (recent ++ log)) : Throughout allowed log := by
  induction recent with
  | nil => exact h
  | cons a recent ih => exact ih h.2

/-- A start state and a step for each event; `none` where the event cannot
happen. -/
structure Machine (S E : Type*) where
  start : S
  step : S → E → Option S

/-- A step that was taken. -/
structure Taken (S E : Type*) where
  pre : S
  event : E
  post : S

namespace Machine

variable (m : Machine S E)

/-- The runs of a machine, the last step first. -/
inductive Run : List (Taken S E) → S → Prop
  | start : Run [] m.start
  | step {trace : List (Taken S E)} {s s' : S} {e : E} :
      Run trace s → m.step s e = some s' → Run (⟨s, e, s'⟩ :: trace) s'

/-- The states of all runs. -/
def Reachable (s : S) : Prop := ∃ trace, m.Run trace s

/-- Take the steps of a list of events. -/
def exec (s : S) (events : List E) : Option S := events.foldlM m.step s

/-- The same, with the steps that were taken added to those before. -/
def record (s : S) (trace : List (Taken S E)) : List E → Option (List (Taken S E) × S)
  | [] => some (trace, s)
  | e :: events => (m.step s e).bind fun s' => record s' (⟨s, e, s'⟩ :: trace) events

variable {m} {s s' : S} {e : E}

theorem exec_cons {events : List E} (h : m.step s e = some s') :
    m.exec s (e :: events) = m.exec s' events := by
  rw [exec, List.foldlM_cons, h]
  rfl

theorem Reachable.start : m.Reachable m.start := ⟨[], .start⟩

theorem Reachable.step (h : m.Reachable s) (hstep : m.step s e = some s') : m.Reachable s' := by
  obtain ⟨trace, hrun⟩ := h
  exact ⟨_, hrun.step hstep⟩

/-- The steps of a list of events prolong a run. -/
theorem Run.exec {trace : List (Taken S E)} {events : List E} (h : m.Run trace s) :
    m.exec s events = some s' →
      ∃ trace', m.Run trace' s' ∧ ∀ t ∈ trace', t ∈ trace ∨ t.event ∈ events := by
  induction events generalizing s trace with
  | nil =>
      intro hexec
      obtain rfl := Option.some.inj hexec
      exact ⟨trace, h, fun t ht => .inl ht⟩
  | cons e events ih =>
      intro hexec
      obtain ⟨t, hstep, hrest⟩ := Option.bind_eq_some_iff.mp hexec
      obtain ⟨trace', hrun, hmem⟩ := ih (h.step hstep) hrest
      refine ⟨trace', hrun, ?_⟩
      intro t' ht'
      rcases hmem t' ht' with hbefore | hafter
      · rcases List.mem_cons.mp hbefore with rfl | hbefore
        · exact .inr List.mem_cons_self
        · exact .inl hbefore
      · exact .inr (List.mem_cons_of_mem _ hafter)

/-- **Invariants of a stretch of events.** -/
theorem exec_invariant (P : S → Prop) (allowed : E → Prop) {events : List E}
    (hstep : ∀ {s e s'}, P s → allowed e → m.step s e = some s' → P s')
    (hallowed : ∀ e ∈ events, allowed e) : P s → m.exec s events = some s' → P s' := by
  induction events generalizing s with
  | nil =>
      intro hs hexec
      obtain rfl := Option.some.inj hexec
      exact hs
  | cons e events ih =>
      intro hs hexec
      obtain ⟨t, ht, hrest⟩ := Option.bind_eq_some_iff.mp hexec
      have hnext := hstep hs (hallowed e List.mem_cons_self) ht
      exact ih (fun e' he' => hallowed e' (List.mem_cons_of_mem e he')) hnext hrest

/-- Recorded steps prolong a run. -/
theorem Run.record {trace trace' : List (Taken S E)} {events : List E} (h : m.Run trace s) :
    m.record s trace events = some (trace', s') → m.Run trace' s' := by
  induction events generalizing s trace with
  | nil =>
      intro hrecord
      obtain ⟨rfl, rfl⟩ := Prod.mk.inj (Option.some.inj hrecord)
      exact h
  | cons e events ih =>
      intro hrecord
      obtain ⟨t, hstep, hrest⟩ := Option.bind_eq_some_iff.mp hrecord
      exact ih (h.step hstep) hrest

/-- The steps that the events take from the start, and the state they lead to. -/
def recorded (m : Machine S E) (events : List E) : List (Taken S E) × S :=
  (m.record m.start [] events).getD ([], m.start)

theorem run_recorded (m : Machine S E) (events : List E)
    (h : (m.record m.start [] events).isSome = true) :
    m.Run (m.recorded events).1 (m.recorded events).2 := by
  obtain ⟨⟨trace, t⟩, hrecord⟩ := Option.isSome_iff_exists.mp h
  rw [recorded, hrecord]
  exact Run.start.record hrecord

theorem Reachable.exec {events : List E} (h : m.Reachable s) (hexec : m.exec s events = some s') :
    m.Reachable s' := by
  obtain ⟨trace, hrun⟩ := h
  obtain ⟨trace', hrun', -⟩ := hrun.exec hexec
  exact ⟨trace', hrun'⟩

/-- **Invariants.** -/
theorem Reachable.invariant {P : S → Prop} (hstart : P m.start)
    (hstep : ∀ {s e s'}, P s → m.step s e = some s' → P s') (h : m.Reachable s) : P s := by
  obtain ⟨trace, hrun⟩ := h
  induction hrun with
  | start => exact hstart
  | step _ htaken ih => exact hstep ih htaken

/-- What every effect keeps is kept by a sequence of them. -/
theorem effects_invariant {effect : V → V → Prop} {P : V → Prop}
    (heffect : ∀ v v', P v → effect v v' → P v') {v v' : V}
    (h : Relation.ReflTransGen effect v v') : P v → P v' := by
  intro hv
  induction h with
  | refl => exact hv
  | tail _ hlast ih => exact heffect _ _ ih hlast

/-- **Invariants of a view.** -/
theorem Reachable.view_invariant {view : S → V} {effect : V → V → Prop} {P : V → Prop}
    (hrefines : ∀ {s e s'}, m.step s e = some s' →
      Relation.ReflTransGen effect (view s) (view s'))
    (hstart : P (view m.start)) (heffect : ∀ v v', P v → effect v v' → P v')
    (h : m.Reachable s) : P (view s) := by
  refine h.invariant (P := fun s => P (view s)) hstart ?_
  intro s e s' hs hstep
  exact effects_invariant heffect (hrefines hstep) hs

/-- Every step of a run starts in a reachable state. -/
theorem Run.mem {trace : List (Taken S E)} (h : m.Run trace s) :
    ∀ t ∈ trace, m.Reachable t.pre ∧ m.step t.pre t.event = some t.post := by
  induction h with
  | start => simp
  | @step trace s s' e hrun hstep ih =>
      intro t ht
      rcases List.mem_cons.mp ht with rfl | ht
      · exact ⟨⟨trace, hrun⟩, hstep⟩
      · exact ih t ht

end Machine

end Ekizu.Lib.Runs
