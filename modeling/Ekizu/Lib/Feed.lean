import Mathlib.Data.List.Basic
import Mathlib.Logic.Relation

/-!
# Feeds

A log that is read over lines that break.  A line is attached behind the entries that were
taken, brings the entries of the log one after the other, and may go with what is on it.

## Main results

* `Feed.Sound.steps` — what was taken and what is on the line is the beginning of the log.
* `Feed.Sound.next`, `Feed.Sound.all` — the entry that is taken next, and that nothing is left.
-/

namespace Ekizu.Lib

/-- A log with the entries that were taken from it.  On the line, where there is one, are the
entries that are still to be taken; its number says how much of the log was put on it. -/
@[ext]
structure Feed (E : Type*) where
  log : List E
  taken : List E
  line : Option (Nat × List E)

namespace Feed

variable {E : Type*} {f g : Feed E}

/-- What can happen to a feed. -/
inductive Step (f g : Feed E) : Prop
  | append (e : E) (hlog : g.log = f.log ++ [e]) (htaken : g.taken = f.taken)
      (hline : g.line = f.line)
  | attach (hlog : g.log = f.log) (htaken : g.taken = f.taken)
      (hline : g.line = some (f.taken.length, []))
  | detach (hlog : g.log = f.log) (htaken : g.taken = f.taken) (hline : g.line = none)
  | put (n : Nat) (es : List E) (e : E) (hlog : g.log = f.log) (htaken : g.taken = f.taken)
      (hbefore : f.line = some (n, es)) (hnext : f.log[n]? = some e)
      (hline : g.line = some (n + 1, es ++ [e]))
  | take (n : Nat) (es : List E) (e : E) (hlog : g.log = f.log)
      (hbefore : f.line = some (n, e :: es)) (htaken : g.taken = f.taken ++ [e])
      (hline : g.line = some (n, es))

/-- What was taken, and what is on the line behind it, is the beginning of the log. -/
structure Sound (f : Feed E) : Prop where
  taken : f.taken <+: f.log
  line : ∀ n es, f.line = some (n, es) → n ≤ f.log.length ∧ f.taken ++ es = f.log.take n

theorem sound_start : Sound (⟨[], [], none⟩ : Feed E) where
  taken := List.prefix_rfl
  line _ _ h := absurd h (by simp)

/-- Every step keeps it. -/
theorem Sound.step (h : f.Sound) (hstep : Step f g) : g.Sound := by
  cases hstep with
  | append e hlog htaken hline =>
      constructor
      · rw [hlog, htaken]
        exact h.taken.trans (List.prefix_append _ _)
      · intro n es hg
        obtain ⟨hn, htake⟩ := h.line n es (hline ▸ hg)
        have hlength : n ≤ (f.log ++ [e]).length := by
          rw [List.length_append]
          omega
        rw [hlog, htaken]
        exact ⟨hlength, htake.trans (List.take_append_of_le_length hn).symm⟩
  | attach hlog htaken hline =>
      constructor
      · rw [hlog, htaken]
        exact h.taken
      · intro n es hg
        obtain ⟨rfl, rfl⟩ := Prod.mk.inj (Option.some.inj (hline.symm.trans hg))
        rw [hlog, htaken, List.append_nil]
        exact ⟨h.taken.length_le, List.prefix_iff_eq_take.mp h.taken⟩
  | detach hlog htaken hline =>
      constructor
      · rw [hlog, htaken]
        exact h.taken
      · intro n es hg
        cases hline.symm.trans hg
  | put n es e hlog htaken hbefore hnext hline =>
      constructor
      · rw [hlog, htaken]
        exact h.taken
      · intro n' es' hg
        obtain ⟨rfl, rfl⟩ := Prod.mk.inj (Option.some.inj (hline.symm.trans hg))
        obtain ⟨hn, htake⟩ := h.line n es hbefore
        obtain ⟨hlt, -⟩ := List.getElem?_eq_some_iff.mp hnext
        rw [hlog, htaken, ← List.append_assoc, htake, List.take_add_one, hnext]
        exact ⟨hlt, rfl⟩
  | take n es e hlog hbefore htaken hline =>
      obtain ⟨hn, htake⟩ := h.line n (e :: es) hbefore
      have hall : g.taken ++ es = g.log.take n := by
        rw [htaken, hlog, List.append_assoc]
        exact htake
      constructor
      · exact (List.prefix_append _ es).trans (hall ▸ List.take_prefix n g.log)
      · intro n' es' hg
        obtain ⟨rfl, rfl⟩ := Prod.mk.inj (Option.some.inj (hline.symm.trans hg))
        exact ⟨hlog ▸ hn, hall⟩

/-- **And so do any number of steps.** -/
theorem Sound.steps (h : f.Sound) (hsteps : Relation.ReflTransGen Step f g) : g.Sound := by
  induction hsteps with
  | refl => exact h
  | tail _ hstep ih => exact ih.step hstep

/-- The first entry on the line is the first one of the log that was not taken. -/
theorem Sound.next (h : f.Sound) {n : Nat} {e : E} {es : List E}
    (hline : f.line = some (n, e :: es)) : f.log[f.taken.length]? = some e := by
  obtain ⟨-, htake⟩ := h.line n (e :: es) hline
  have hget : (f.taken ++ e :: es)[f.taken.length]? = some e := by simp
  rw [htake, List.getElem?_take] at hget
  split at hget
  · exact hget
  · cases hget

/-- Where the whole log was put on the line and the line is empty, everything was taken. -/
theorem Sound.all (h : f.Sound) (hline : f.line = some (f.log.length, [])) : f.taken = f.log := by
  obtain ⟨-, htake⟩ := h.line _ _ hline
  rw [List.append_nil, List.take_length] at htake
  exact htake

end Feed

end Ekizu.Lib
