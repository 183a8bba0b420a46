import Mathlib.Data.List.Infix

/-!
# Files and their replacement

A disk maps paths to contents.  A file is written byte by byte, and a process that dies
leaves a beginning of what it was writing; a rename is one step.  A file that is written
elsewhere and renamed into place is therefore never seen half written.

## Main results

* `Disk.mem_writing` — while a file is written it holds a beginning, and nothing else
  changes.
* `Disk.mem_replacing` — while a file is replaced it is the old one or the new one, and no
  file but the temporary one changes with it.
-/

namespace Ekizu.Lib.Files

variable {P B : Type*}

/-- The contents of the files that exist. -/
abbrev Disk (P B : Type*) := P → Option (List B)

namespace Disk

variable [DecidableEq P]

def put (disk : Disk P B) (path : P) (content : List B) : Disk P B := fun other =>
  if other = path then some content else disk other

def remove (disk : Disk P B) (path : P) : Disk P B := fun other =>
  if other = path then none else disk other

/-- The target is what the source was. -/
def rename (disk : Disk P B) (source target : P) : Disk P B := fun other =>
  if other = source then none else if other = target then disk source else disk other

variable {disk disk' : Disk P B} {path other source target : P} {content : List B}

@[simp] theorem put_self : disk.put path content path = some content := if_pos rfl

theorem put_ne (h : other ≠ path) : disk.put path content other = disk other := if_neg h

@[simp] theorem remove_self : disk.remove path path = none := if_pos rfl

theorem remove_ne (h : other ≠ path) : disk.remove path other = disk other := if_neg h

theorem rename_target (h : target ≠ source) : disk.rename source target target = disk source := by
  rw [rename, if_neg h, if_pos rfl]

theorem rename_ne (hsource : other ≠ source) (htarget : other ≠ target) :
    disk.rename source target other = disk other := by
  rw [rename, if_neg hsource, if_neg htarget]

/-! ## The steps of a write -/

/-- The disks that writing a file goes through: first the file is empty, last it is whole. -/
def writing (disk : Disk P B) (path : P) (content : List B) : List (Disk P B) :=
  (List.range (content.length + 1)).map fun n => disk.put path (content.take n)

/-- The disks that replacing a file goes through. -/
def replacing (disk : Disk P B) (source target : P) (content : List B) : List (Disk P B) :=
  disk.writing source content ++ [(disk.put source content).rename source target]

theorem mem_writing (h : disk' ∈ disk.writing path content) :
    (∃ part, part <+: content ∧ disk' path = some part) ∧
      ∀ other, other ≠ path → disk' other = disk other := by
  obtain ⟨n, -, rfl⟩ := List.mem_map.mp h
  constructor
  · exact ⟨content.take n, List.take_prefix n content, put_self⟩
  · intro other hother
    exact put_ne hother

theorem getLastD_writing : (disk.writing path content).getLastD disk = disk.put path content := by
  rw [writing, List.range_succ, List.map_append, List.map_singleton, List.getLastD_concat,
    List.take_length]

theorem getLastD_replacing : (disk.replacing source target content).getLastD disk =
    (disk.put source content).rename source target := by
  rw [replacing, List.getLastD_concat]

/-- **A file that is replaced is whole.** -/
theorem mem_replacing (hne : target ≠ source) (h : disk' ∈ disk.replacing source target content) :
    (disk' target = disk target ∨ disk' target = some content) ∧
      ∀ other, other ≠ source → other ≠ target → disk' other = disk other := by
  rw [replacing, List.mem_append, List.mem_singleton] at h
  cases h with
  | inl hwriting =>
      have hkept := (mem_writing hwriting).2
      constructor
      · exact .inl (hkept target hne)
      · intro other hother _
        exact hkept other hother
  | inr hrenamed =>
      rw [hrenamed]
      constructor
      · rw [rename_target hne, put_self]
        exact .inr rfl
      · intro other hsource htarget
        rw [rename_ne hsource htarget, put_ne hsource]

end Disk

end Ekizu.Lib.Files
