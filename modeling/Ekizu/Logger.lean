import Mathlib.Data.Finset.Basic
import Mathlib.Data.Finset.Dedup
import Ekizu.Lib.Multipart

/-!
# The log filter

`LogFilter` of `logger.hpp` and `init_log_filter_from_env` of `logger.cpp`.  A filter is
in one of two modes, and each of its calls reads the mode that the calls before it left.

## Main results

* `readEntries_eq` — the loop over the positions of the commas applies the entries in
  order.
* `whitelistMode_init` — no value of the variable turns the whitelist mode on.
* `followsGrammar_iff` — for which values and prefixes the filter does what the variable
  asks for.
-/

namespace Ekizu.Logger

open Lib.Multipart (Text ascii trim)

/-- `LogFilter`. -/
structure LogFilter where
  disabled : Finset Text := ∅
  whitelist : Finset Text := ∅
  whitelistMode : Bool := false
  deriving DecidableEq

def openBracket : UInt8 := 91
def openBrace : UInt8 := 123

/-- What stands before the first bracket or brace of a prefix, as `is_enabled` cuts it. -/
def componentOf (pre : Text) : Text :=
  match pre.findIdx? fun b => b == openBracket || b == openBrace with
  | some bracketPos => pre.take bracketPos
  | none => pre

namespace LogFilter

/-- `disable_component`. -/
def disableComponent (filter : LogFilter) (component : Text) : LogFilter :=
  { filter with
    whitelistMode := false
    disabled := insert component filter.disabled }

/-- `enable_component`. -/
def enableComponent (filter : LogFilter) (component : Text) : LogFilter :=
  if filter.whitelistMode then
    { filter with whitelist := insert component filter.whitelist }
  else
    { filter with disabled := filter.disabled.erase component }

/-- `is_enabled`. -/
def isEnabled (filter : LogFilter) (pre : Text) : Bool :=
  if filter.whitelistMode then
    decide (componentOf pre ∈ filter.whitelist)
  else
    !decide (componentOf pre ∈ filter.disabled)

/-- `clear`. -/
def clear (_ : LogFilter) : LogFilter := { }

/-- `set_whitelist`. -/
def setWhitelist (_ : LogFilter) (components : List Text) : LogFilter :=
  { whitelistMode := true, whitelist := components.toFinset }

section

variable {filter : LogFilter} {component pre : Text}

@[simp] theorem whitelistMode_disableComponent :
    (filter.disableComponent component).whitelistMode = false := rfl

@[simp] theorem whitelistMode_clear : filter.clear.whitelistMode = false := rfl

@[simp] theorem whitelistMode_enableComponent :
    (filter.enableComponent component).whitelistMode = filter.whitelistMode := by
  unfold enableComponent
  split <;> rfl

/-- Disabling leaves the whitelist mode: what was not listed is let through from then on. -/
theorem isEnabled_disableComponent :
    (filter.disableComponent component).isEnabled pre = true ↔
      componentOf pre ≠ component ∧ componentOf pre ∉ filter.disabled := by
  simp [isEnabled, disableComponent]

theorem isEnabled_enableComponent :
    (filter.enableComponent component).isEnabled pre = true ↔
      componentOf pre = component ∨ filter.isEnabled pre = true := by
  cases hmode : filter.whitelistMode with
  | true => simp [isEnabled, enableComponent, hmode]
  | false =>
      simp only [isEnabled, enableComponent, hmode, Bool.false_eq_true, if_false,
        Bool.not_eq_true', decide_eq_false_iff_not, Finset.mem_erase]
      tauto

theorem isEnabled_clear : filter.clear.isEnabled pre = true := by
  simp [isEnabled, clear]

theorem isEnabled_setWhitelist {components : List Text} :
    (filter.setWhitelist components).isEnabled pre = true ↔ componentOf pre ∈ components := by
  simp [isEnabled, setWhitelist]

end

end LogFilter

/-! ## The variable `EKIZU_LOG_FILTER` -/

def comma : UInt8 := 44
def plus : UInt8 := 43
def minus : UInt8 := 45

@[simp] theorem plus_ne_minus : plus ≠ minus := by decide

/-- What the loop carries: the filter, and the local `whitelist_mode`. -/
structure Reading where
  filter : LogFilter
  whitelistMode : Bool
  deriving DecidableEq

/-- What the loop does with a trimmed entry. -/
def Reading.entry (r : Reading) : Text → Reading
  | [] => r
  | sign :: name =>
      if sign == minus then
        { r with filter := r.filter.disableComponent name }
      else if sign == plus then
        if r.whitelistMode then
          { r with filter := r.filter.enableComponent name }
        else
          { whitelistMode := true, filter := r.filter.clear.enableComponent name }
      else
        { r with filter := r.filter.disableComponent (sign :: name) }

/-- The loop: the entry from `pos` to the next comma, or to the end where none follows. -/
def readEntries (filterStr : Text) (pos : Nat) (r : Reading) : Reading :=
  if pos < filterStr.length then
    let comma := pos + (filterStr.drop pos).idxOf comma
    readEntries filterStr (comma + 1) (r.entry (trim ((filterStr.drop pos).take (comma - pos))))
  else
    r
termination_by filterStr.length - pos

/-- `init_log_filter_from_env`, on the filter and what `getenv` returns. -/
def initLogFilterFromEnv (filter : LogFilter) : Option Text → LogFilter
  | none => filter
  | some [] => filter
  | some (first :: rest) =>
      (readEntries (first :: rest) 0 ⟨filter, first == plus⟩).filter

/-! ## What the variable asks for -/

/-- The entries of a comma-separated list; blanks around them and empty ones do not count. -/
def entries (filterStr : Text) : List Text :=
  ((filterStr.splitOn comma).map trim).filter (· ≠ [])

/-- The component that an entry names. -/
def named : Text → Text
  | [] => []
  | sign :: name => if sign = minus ∨ sign = plus then name else sign :: name

def listed (filterStr : Text) : List Text := (entries filterStr).map named

/-- All entries of the list start with a plus. -/
def AllPlus (filterStr : Text) : Prop := ∀ entry ∈ entries filterStr, entry.head? = some plus

/-- All entries of the list start with a minus or have no sign. -/
def NonePlus (filterStr : Text) : Prop := ∀ entry ∈ entries filterStr, entry.head? ≠ some plus

/-- The part of a prefix before its first bracket or brace. -/
def beforeBracket (pre : Text) : Text :=
  pre.takeWhile fun b => b ≠ openBracket ∧ b ≠ openBrace

/-- **The grammar of the variable**: entries with a plus are the components that are
logged, the others those that are not. -/
def FollowsGrammar (filterStr pre : Text) : Prop :=
  (AllPlus filterStr →
    ((initLogFilterFromEnv {} (some filterStr)).isEnabled pre = true ↔
      beforeBracket pre ∈ listed filterStr)) ∧
  (NonePlus filterStr →
    ((initLogFilterFromEnv {} (some filterStr)).isEnabled pre = true ↔
      beforeBracket pre ∉ listed filterStr))

theorem componentOf_eq (pre : Text) : componentOf pre = beforeBracket pre := by
  have hnot : (fun b : UInt8 => decide (b ≠ openBracket ∧ b ≠ openBrace)) =
      fun b => !(b == openBracket || b == openBrace) := by
    funext b
    by_cases hbracket : b = openBracket <;> by_cases hbrace : b = openBrace <;>
      simp [hbracket, hbrace]
  unfold componentOf beforeBracket
  rw [hnot, List.takeWhile_eq_take_findIdx_not]
  cases hpos : pre.findIdx? fun b => b == openBracket || b == openBrace with
  | none =>
      have hall := List.findIdx?_eq_none_iff.mp hpos
      simp only [Bool.not_not]
      rw [List.findIdx_eq_length.mpr hall, List.take_length]
  | some bracketPos =>
      simp only [Bool.not_not]
      rw [(List.findIdx?_eq_some_iff_findIdx_eq.mp hpos).2]

/-! ## The loop -/

section

variable {filterStr text : Text} {r : Reading} {pos : Nat}

/-- A text up to its first comma, and the entries behind it. -/
theorem splitOn_take_idxOf (text : Text) :
    text.splitOn comma = text.take (text.idxOf comma) ::
      if text.idxOf comma < text.length then
        (text.drop (text.idxOf comma + 1)).splitOn comma
      else [] := by
  by_cases hmem : comma ∈ text
  · have hlt : text.idxOf comma < text.length := List.idxOf_lt_length_of_mem hmem
    have hfirst : comma ∉ text.take (text.idxOf comma) := by
      intro hin
      exact lt_irrefl _ ((List.mem_take_iff_idxOf_lt hmem).mp hin)
    have hcut : text = text.take (text.idxOf comma) ++
        comma :: text.drop (text.idxOf comma + 1) := by
      conv_lhs => rw [← List.take_append_drop (text.idxOf comma) text]
      rw [List.drop_eq_getElem_cons hlt, List.getElem_idxOf hlt]
    rw [if_pos hlt]
    conv_lhs => rw [hcut]
    exact List.splitOn_append_cons_self_of_not_mem hfirst _
  · rw [List.idxOf_eq_length hmem, if_neg (lt_irrefl _), List.take_length]
    exact List.splitOn_eq_singleton hmem

/-- **The loop over the positions applies the entries of the list in order.** -/
theorem readEntries_eq (filterStr : Text) (pos : Nat) (r : Reading) :
    readEntries filterStr pos r =
      (((filterStr.drop pos).splitOn comma).map trim).foldl Reading.entry r := by
  induction pos, r using readEntries.induct filterStr with
  | case1 pos r hpos comma' ih =>
      have hnext : filterStr.drop (comma' + 1) =
          (filterStr.drop pos).drop ((filterStr.drop pos).idxOf comma + 1) := by
        rw [List.drop_drop]
        congr 1
      have hlen : comma' - pos = (filterStr.drop pos).idxOf comma := by
        show pos + _ - pos = _
        omega
      rw [readEntries, if_pos hpos]
      rw [ih, splitOn_take_idxOf (filterStr.drop pos), hnext, hlen]
      by_cases hend : (filterStr.drop pos).idxOf comma < (filterStr.drop pos).length
      · rw [if_pos hend]
        rfl
      · have hrest : (filterStr.drop pos).drop ((filterStr.drop pos).idxOf comma + 1) = [] :=
          List.drop_eq_nil_of_le (by omega)
        rw [if_neg hend, hrest]
        rfl
  | case2 pos r hpos =>
      rw [readEntries, if_neg hpos, List.drop_eq_nil_of_le (by omega)]
      rfl

/-- An empty entry changes nothing, so only the entries of the list count. -/
theorem foldl_entry_filter (list : List Text) (r : Reading) :
    list.foldl Reading.entry r = (list.filter (· ≠ [])).foldl Reading.entry r := by
  have hskip : Reading.entry = fun r entry => if entry ≠ [] then r.entry entry else r := by
    funext r entry
    cases entry with
    | nil => rfl
    | cons sign name => rw [if_pos (List.cons_ne_nil sign name)]
  rw [List.foldl_filter]
  conv_lhs => rw [hskip]
  simp only [decide_eq_true_eq]

/-- **A value of the variable as its entries.** -/
theorem initLogFilterFromEnv_eq (filter : LogFilter) (filterStr : Text) :
    initLogFilterFromEnv filter (some filterStr) =
      ((entries filterStr).foldl Reading.entry
        ⟨filter, filterStr.head? == some plus⟩).filter := by
  cases filterStr with
  | nil => rfl
  | cons first rest =>
      show (readEntries (first :: rest) 0 ⟨filter, first == plus⟩).filter = _
      rw [readEntries_eq, foldl_entry_filter]
      rfl

/-! ## What an entry does to the filter -/

/-- No entry turns the whitelist mode of the filter on. -/
theorem whitelistMode_entry (hmode : r.filter.whitelistMode = false) (entry : Text) :
    (r.entry entry).filter.whitelistMode = false := by
  cases entry with
  | nil => exact hmode
  | cons sign name =>
      by_cases hminus : sign = minus
      · simp [Reading.entry, hminus]
      · by_cases hplus : sign = plus
        · by_cases hlocal : r.whitelistMode = true
          · simpa [Reading.entry, hplus, hlocal] using hmode
          · simp [Reading.entry, hplus, hlocal]
        · simp [Reading.entry, hminus, hplus]

/-- An entry without a plus disables the component that it names. -/
theorem disabled_entry_of_ne_plus {entry : Text} (hne : entry ≠ [])
    (hsign : entry.head? ≠ some plus) :
    (r.entry entry).filter.disabled = insert (named entry) r.filter.disabled := by
  cases entry with
  | nil => exact absurd rfl hne
  | cons sign name =>
      have hplus : sign ≠ plus := fun heq => hsign (by rw [heq]; rfl)
      by_cases hminus : sign = minus
      · simp [Reading.entry, named, hminus, LogFilter.disableComponent]
      · simp [Reading.entry, named, hminus, hplus, LogFilter.disableComponent]

/-- An entry with a plus disables nothing. -/
theorem disabled_entry_of_plus {entry : Text} (hmode : r.filter.whitelistMode = false)
    (hsign : entry.head? = some plus) :
    (r.entry entry).filter.disabled ⊆ r.filter.disabled := by
  cases entry with
  | nil => exact absurd hsign (by simp)
  | cons sign name =>
      have hplus : sign = plus := by simpa using hsign
      by_cases hlocal : r.whitelistMode = true
      · simp [Reading.entry, hplus, hlocal, LogFilter.enableComponent, hmode,
          Finset.erase_subset]
      · simp [Reading.entry, hplus, hlocal, LogFilter.enableComponent, LogFilter.clear]

/-! ## What a list does to the filter -/

theorem whitelistMode_foldl (list : List Text) (r : Reading)
    (hmode : r.filter.whitelistMode = false) :
    (list.foldl Reading.entry r).filter.whitelistMode = false := by
  induction list generalizing r with
  | nil => exact hmode
  | cons entry rest ih => exact ih (r.entry entry) (whitelistMode_entry hmode entry)

theorem mem_disabled_foldl_of_ne_plus (list : List Text) (r : Reading) (component : Text)
    (hlist : ∀ entry ∈ list, entry ≠ [] ∧ entry.head? ≠ some plus) :
    component ∈ (list.foldl Reading.entry r).filter.disabled ↔
      component ∈ list.map named ∨ component ∈ r.filter.disabled := by
  induction list generalizing r with
  | nil => simp
  | cons entry rest ih =>
      have hentry := hlist entry List.mem_cons_self
      rw [List.foldl_cons, ih (r.entry entry) fun e he => hlist e (List.mem_cons_of_mem _ he),
        disabled_entry_of_ne_plus hentry.1 hentry.2, Finset.mem_insert, List.map_cons,
        List.mem_cons]
      tauto

theorem disabled_foldl_of_plus (list : List Text) (r : Reading)
    (hmode : r.filter.whitelistMode = false)
    (hlist : ∀ entry ∈ list, entry.head? = some plus) :
    (list.foldl Reading.entry r).filter.disabled ⊆ r.filter.disabled := by
  induction list generalizing r with
  | nil => exact Finset.Subset.refl _
  | cons entry rest ih =>
      have hrest := ih (r.entry entry) (whitelistMode_entry hmode entry)
        fun e he => hlist e (List.mem_cons_of_mem _ he)
      exact hrest.trans (disabled_entry_of_plus hmode (hlist entry List.mem_cons_self))

end

/-- **The variable never turns the whitelist mode on**, whatever its value. -/
theorem whitelistMode_init (filter : LogFilter) (env : Option Text)
    (hmode : filter.whitelistMode = false) :
    (initLogFilterFromEnv filter env).whitelistMode = false := by
  cases env with
  | none => exact hmode
  | some filterStr =>
      rw [initLogFilterFromEnv_eq]
      exact whitelistMode_foldl _ _ hmode

theorem ne_nil_of_mem_entries {filterStr entry : Text} (h : entry ∈ entries filterStr) :
    entry ≠ [] := by
  have hfilter := (List.mem_filter.mp h).2
  simpa using hfilter

section

variable {filterStr : Text} (pre : Text)

theorem isEnabled_init :
    (initLogFilterFromEnv {} (some filterStr)).isEnabled pre = true ↔
      beforeBracket pre ∉ (initLogFilterFromEnv {} (some filterStr)).disabled := by
  have hmode := whitelistMode_init {} (some filterStr) rfl
  simp [LogFilter.isEnabled, hmode, componentOf_eq]

/-- A list without a plus disables what it lists. -/
theorem isEnabled_init_of_nonePlus (hnone : NonePlus filterStr) :
    (initLogFilterFromEnv {} (some filterStr)).isEnabled pre = true ↔
      beforeBracket pre ∉ listed filterStr := by
  rw [isEnabled_init, initLogFilterFromEnv_eq, mem_disabled_foldl_of_ne_plus]
  · simp [listed]
  · exact fun entry hmem => ⟨ne_nil_of_mem_entries hmem, hnone entry hmem⟩

/-- A list of entries with a plus leaves every component enabled. -/
theorem isEnabled_init_of_allPlus (hall : AllPlus filterStr) :
    (initLogFilterFromEnv {} (some filterStr)).isEnabled pre = true := by
  rw [isEnabled_init, initLogFilterFromEnv_eq]
  intro hmem
  have hnone := disabled_foldl_of_plus _ ⟨{}, filterStr.head? == some plus⟩ rfl hall hmem
  exact absurd hnone (Finset.notMem_empty _)

end

/-- **The filter follows the grammar exactly when the list is no whitelist or names the
component**: a whitelist shuts nothing out. -/
theorem followsGrammar_iff (filterStr pre : Text) :
    FollowsGrammar filterStr pre ↔
      (AllPlus filterStr → beforeBracket pre ∈ listed filterStr) := by
  constructor
  · intro hgrammar hall
    exact (hgrammar.1 hall).mp (isEnabled_init_of_allPlus pre hall)
  · intro hnamed
    constructor
    · intro hall
      exact iff_of_true (isEnabled_init_of_allPlus pre hall) (hnamed hall)
    · exact isEnabled_init_of_nonePlus pre

/-- `+voice` lets the messages of the gateway through. -/
theorem followsGrammar_plusVoice :
    ¬ FollowsGrammar (ascii "+voice") (ascii "gateway") := by
  intro hgrammar
  have hall : AllPlus (ascii "+voice") := by
    unfold AllPlus
    decide
  have hin := (hgrammar.1 hall).mp (isEnabled_init_of_allPlus _ hall)
  exact absurd hin (by decide)

end Ekizu.Logger
