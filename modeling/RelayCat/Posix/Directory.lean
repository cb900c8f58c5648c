import Mathlib.Data.List.Basic
import Mathlib.Logic.Function.Basic

/-!
# Files, and a directory with hard links

A file is written and read in pieces of any size. In a directory names refer to inodes, several
names may refer to one, and an inode without a name stays readable and writable for those who
have it open. Operations are given for the case in which they succeed; whether a name exists is
asked before.
-/

namespace RelayCat.Posix

structure File where
  content : List UInt8
  mode : ℕ
  deriving DecidableEq, Repr

namespace File

/-- A piece written at an offset. -/
def writeAt (f : File) (offset : ℕ) (piece : List UInt8) : File :=
  { f with content := f.content.take offset ++ piece ++ f.content.drop (offset + piece.length) }

/-- The next piece of a text is written behind its beginning. -/
theorem writeAt_take (text : List UInt8) (mode offset n : ℕ) :
    (⟨text.take offset, mode⟩ : File).writeAt offset ((text.drop offset).take n) =
      ⟨text.take (offset + ((text.drop offset).take n).length), mode⟩ := by
  have hdrop : (text.take offset).drop (offset + ((text.drop offset).take n).length) = [] := by
    apply List.drop_eq_nil_of_le
    simp only [List.length_take]
    omega
  rw [writeAt]
  congr 1
  rw [hdrop, List.append_nil, List.take_take, Nat.min_self, List.take_add]
  congr 1
  rw [List.length_take, List.take_eq_take_iff]
  omega

/-- Reading on behind what was read stays in the file. -/
theorem append_piece_beginning {got content : List UInt8} (h : got <+: content) (n : ℕ) :
    got ++ (content.drop got.length).take n <+: content := by
  obtain ⟨rest, rfl⟩ := h
  rw [List.drop_left]
  exact (List.prefix_append_right_inj got).mpr (List.take_prefix n rest)

end File

/-- Names, inodes by number, and that every name refers to an inode. -/
structure Directory (Name File : Type) where
  entries : Name → Option ℕ
  inodes : List File
  bounded : ∀ name ino, entries name = some ino → ino < inodes.length

namespace Directory

variable {Name File : Type} {d d' : Directory Name File} {name other : Name} {ino ino' : ℕ}
  {f : File}

section Data

/-- The file that a name refers to. -/
def lookup (d : Directory Name File) (name : Name) : Option File :=
  (d.entries name).bind fun ino ↦ d.inodes[ino]?

/-- An inode gets new data. -/
def write (d : Directory Name File) (ino : ℕ) (f : File) : Directory Name File where
  entries := d.entries
  inodes := d.inodes.set ino f
  bounded name ino' h := by
    rw [List.length_set]
    exact d.bounded name ino' h

@[simp] theorem entries_write : (d.write ino f).entries = d.entries := rfl

theorem inodes_write_self (h : ino < d.inodes.length) : (d.write ino f).inodes[ino]? = some f :=
  List.getElem?_set_self h

theorem inodes_write_of_ne (h : ino ≠ ino') :
    (d.write ino f).inodes[ino']? = d.inodes[ino']? := List.getElem?_set_ne h

/-- What a name refers to in `d` is the same in `d'`, data included. -/
def Keeps (name : Name) (d d' : Directory Name File) : Prop :=
  ∀ ino, d.entries name = some ino →
    d'.entries name = some ino ∧ d'.inodes[ino]? = d.inodes[ino]?

theorem Keeps.refl (name : Name) (d : Directory Name File) : Keeps name d d := fun _ h ↦ ⟨h, rfl⟩

theorem Keeps.lookup (hkeeps : Keeps name d d') (h : d.lookup name = some f) :
    d'.lookup name = some f := by
  obtain ⟨ino, hino, hf⟩ := Option.bind_eq_some_iff.mp h
  obtain ⟨hino', hf'⟩ := hkeeps ino hino
  rw [Directory.lookup, hino', Option.bind_some, hf', hf]

theorem keeps_write (h : d.entries name ≠ some ino) : Keeps name d (d.write ino f) := by
  intro ino' hino'
  refine ⟨hino', inodes_write_of_ne ?_⟩
  rintro rfl
  exact h hino'

end Data

section Names

variable [DecidableEq Name]

/-- A new inode under a name. -/
def create (d : Directory Name File) (name : Name) (f : File) : Directory Name File where
  entries := Function.update d.entries name (some d.inodes.length)
  inodes := d.inodes ++ [f]
  bounded other ino h := by
    rw [List.length_append, List.length_singleton]
    by_cases hother : other = name
    · rw [hother, Function.update_self] at h
      cases h
      exact Nat.lt_succ_self _
    · rw [Function.update_of_ne hother] at h
      exact Nat.lt_succ_of_lt (d.bounded other ino h)

/-- A second name for the inode of `old`. -/
def link (d : Directory Name File) (old new : Name) : Directory Name File where
  entries := Function.update d.entries new (d.entries old)
  inodes := d.inodes
  bounded name ino h := by
    by_cases hname : name = new
    · rw [hname, Function.update_self] at h
      exact d.bounded old ino h
    · rw [Function.update_of_ne hname] at h
      exact d.bounded name ino h

def remove (d : Directory Name File) (name : Name) : Directory Name File where
  entries := Function.update d.entries name none
  inodes := d.inodes
  bounded other ino h := by
    by_cases hother : other = name
    · rw [hother, Function.update_self] at h
      cases h
    · rw [Function.update_of_ne hother] at h
      exact d.bounded other ino h

@[simp] theorem entries_create_self : (d.create name f).entries name = some d.inodes.length :=
  Function.update_self ..

@[simp] theorem entries_create_of_ne (h : other ≠ name) :
    (d.create name f).entries other = d.entries other := Function.update_of_ne h ..

@[simp] theorem inodes_create_new : (d.create name f).inodes[d.inodes.length]? = some f := by
  simp [create]

theorem inodes_create_of_lt (h : ino < d.inodes.length) :
    (d.create name f).inodes[ino]? = d.inodes[ino]? := List.getElem?_append_left h

@[simp] theorem entries_link_new : (d.link other name).entries name = d.entries other :=
  Function.update_self ..

@[simp] theorem entries_link_of_ne {old : Name} (h : other ≠ name) :
    (d.link old name).entries other = d.entries other := Function.update_of_ne h ..

@[simp] theorem inodes_link : (d.link other name).inodes = d.inodes := rfl

@[simp] theorem entries_remove_self : (d.remove name).entries name = none :=
  Function.update_self ..

@[simp] theorem entries_remove_of_ne (h : other ≠ name) :
    (d.remove name).entries other = d.entries other := Function.update_of_ne h ..

@[simp] theorem inodes_remove : (d.remove name).inodes = d.inodes := rfl

theorem keeps_create (h : name ≠ other) : Keeps name d (d.create other f) := fun ino hino ↦
  ⟨(entries_create_of_ne h).trans hino, inodes_create_of_lt (d.bounded name ino hino)⟩

/-- A link takes no name away: its new name must be free. -/
theorem keeps_link {old : Name} (h : d.entries other = none) : Keeps name d (d.link old other) := by
  intro ino hino
  have hname : name ≠ other := by
    rintro rfl
    rw [h] at hino
    cases hino
  exact ⟨(entries_link_of_ne hname).trans hino, rfl⟩

theorem keeps_remove (h : name ≠ other) : Keeps name d (d.remove other) := fun _ hino ↦
  ⟨(entries_remove_of_ne h).trans hino, rfl⟩

end Names

end Directory

end RelayCat.Posix
