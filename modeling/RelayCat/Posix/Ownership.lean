import RelayCat.Posix.Directory

/-!
# Names and their makers

A directory shared by several parties, with a record of who made each name. What a party does is
one effect at a time. An effect is allowed to a party if it takes a free name, changes an inode
that only names of the party refer to, or removes a name of the party. Allowed effects leave the
names of all others as they are, and an inode that was private stays so.
-/

namespace RelayCat.Posix

/-- What one operation does to a directory. -/
inductive Effect (Name File : Type) where
  | nothing
  | create (name : Name) (f : File)
  | write (ino : ℕ) (f : File)
  | link (old new : Name)
  | remove (name : Name)

/-- The name that an effect gives or takes away. -/
def Effect.target {Name File : Type} : Effect Name File → Option Name
  | nothing | write _ _ => none
  | create name _ | link _ name | remove name => some name

/-- A directory and the makers of its names. -/
structure Owned (ι Name File : Type) where
  dir : Directory Name File
  owner : Name → Option ι

namespace Owned

variable {ι Name File : Type} {s s' : Owned ι Name File} {i j : ι} {name : Name} {ino : ℕ}
  {effect : Effect Name File}

/-- All names of an inode were made by one party. -/
def Private (s : Owned ι Name File) (i : ι) (ino : ℕ) : Prop :=
  ∀ name, s.dir.entries name = some ino → s.owner name = some i

/-- An effect that touches nothing of the other parties. -/
def Allowed (s : Owned ι Name File) (i : ι) : Effect Name File → Prop
  | .nothing => True
  | .create name _ => s.dir.entries name = none
  | .write ino _ => s.Private i ino
  | .link old new => s.owner old = some i ∧ s.dir.entries new = none
  | .remove name => s.owner name = some i

theorem Allowed.target (h : s.Allowed i effect) (htarget : effect.target = some name) :
    s.dir.entries name = none ∨ s.owner name = some i := by
  cases effect with
  | nothing => cases htarget
  | write ino f => cases htarget
  | create new f =>
    cases htarget
    exact Or.inl h
  | link old new =>
    cases htarget
    exact Or.inl h.2
  | remove old =>
    cases htarget
    exact Or.inr h

/-- What the other parties can rely on when party `i` takes a step. -/
structure Frame (i : ι) (s s' : Owned ι Name File) : Prop where
  keeps : ∀ name, s.owner name ≠ some i → Directory.Keeps name s.dir s'.dir
  owner : ∀ name, s.owner name ≠ some i → s.dir.entries name ≠ none → s'.owner name = s.owner name
  owned : ∀ name j, j ≠ i → s'.owner name = some j → s.owner name = some j
  isolated : ∀ ino j, j ≠ i → ino < s.dir.inodes.length → s.Private j ino → s'.Private j ino

/-- The names since a directory was `initial`: those that it had are as they were and have no
maker, and every other name has one. -/
structure Since (initial : Directory Name File) (s : Owned ι Name File) : Prop where
  kept : ∀ name, Directory.Keeps name initial s.dir
  inherited : ∀ name, initial.entries name ≠ none → s.owner name = none
  made : ∀ name, s.dir.entries name ≠ none →
    initial.entries name ≠ none ∨ ∃ i, s.owner name = some i

theorem since_initial (initial : Directory Name File) :
    Since initial (⟨initial, fun _ ↦ none⟩ : Owned ι Name File) where
  kept name := Directory.Keeps.refl name initial
  inherited _ _ := rfl
  made _ hentry := Or.inl hentry

variable [DecidableEq Name]

def apply (s : Owned ι Name File) (i : ι) : Effect Name File → Owned ι Name File
  | .nothing => s
  | .create name f => ⟨s.dir.create name f, Function.update s.owner name (some i)⟩
  | .write ino f => ⟨s.dir.write ino f, s.owner⟩
  | .link old new => ⟨s.dir.link old new, Function.update s.owner new (some i)⟩
  | .remove name => ⟨s.dir.remove name, Function.update s.owner name none⟩

/-- An effect changes one name at most. -/
theorem apply_of_target_ne (h : effect.target ≠ some name) :
    (s.apply i effect).dir.entries name = s.dir.entries name ∧
      (s.apply i effect).owner name = s.owner name := by
  have hne {new : Name} (hnew : some new ≠ some name) : name ≠ new :=
    fun heq ↦ hnew (congrArg some heq.symm)
  cases effect with
  | nothing => exact ⟨rfl, rfl⟩
  | write ino f => exact ⟨rfl, rfl⟩
  | create new f =>
    exact ⟨Directory.entries_create_of_ne (hne h), Function.update_of_ne (hne h) _ _⟩
  | link old new =>
    exact ⟨Directory.entries_link_of_ne (hne h), Function.update_of_ne (hne h) _ _⟩
  | remove old =>
    exact ⟨Directory.entries_remove_of_ne (hne h), Function.update_of_ne (hne h) _ _⟩

/-- That name is then the party's, or there is no such name. -/
theorem apply_target (h : effect.target = some name) :
    (s.apply i effect).owner name = some i ∨
      (s.apply i effect).dir.entries name = none ∧ (s.apply i effect).owner name = none := by
  cases effect with
  | nothing => cases h
  | write ino f => cases h
  | create new f =>
    cases h
    exact Or.inl (Function.update_self ..)
  | link old new =>
    cases h
    exact Or.inl (Function.update_self ..)
  | remove old =>
    cases h
    exact Or.inr ⟨Directory.entries_remove_self, Function.update_self ..⟩

theorem keeps_apply (h : s.Allowed i effect) (hname : s.owner name ≠ some i) :
    Directory.Keeps name s.dir (s.apply i effect).dir := by
  cases effect with
  | nothing => exact Directory.Keeps.refl name s.dir
  | create new f =>
    by_cases hnew : name = new
    · subst hnew
      intro ino hino
      rw [show s.dir.entries name = none from h] at hino
      cases hino
    · exact Directory.keeps_create hnew
  | write ino f =>
    apply Directory.keeps_write
    intro hino
    exact hname (h name hino)
  | link old new => exact Directory.keeps_link h.2
  | remove old =>
    apply Directory.keeps_remove
    rintro rfl
    exact hname h

theorem owner_apply (h : s.Allowed i effect) (hname : s.owner name ≠ some i)
    (hentry : s.dir.entries name ≠ none) : (s.apply i effect).owner name = s.owner name := by
  refine (apply_of_target_ne ?_).2
  intro htarget
  rcases h.target htarget with hfree | hown
  · exact hentry hfree
  · exact hname hown

/-- Nobody is given a name by another's step. -/
theorem owned_of_apply (hj : j ≠ i) (h : (s.apply i effect).owner name = some j) :
    s.owner name = some j := by
  by_cases htarget : effect.target = some name
  · rcases apply_target htarget with hown | hnone
    · rw [hown] at h
      exact absurd (Option.some.inj h).symm hj
    · rw [hnone.2] at h
      cases h
  · rwa [(apply_of_target_ne htarget).2] at h

theorem private_apply (hj : j ≠ i) (h : s.Allowed i effect) (hlt : ino < s.dir.inodes.length)
    (hprivate : s.Private j ino) : (s.apply i effect).Private j ino := by
  intro name hino
  by_cases htarget : effect.target = some name
  · cases effect with
    | nothing => cases htarget
    | write ino' f => cases htarget
    | create new f =>
      cases htarget
      rw [apply, Directory.entries_create_self] at hino
      cases hino
      exact absurd hlt (Nat.lt_irrefl _)
    | link old new =>
      cases htarget
      rw [apply, Directory.entries_link_new] at hino
      have hold := hprivate old hino
      rw [h.1] at hold
      exact absurd (Option.some.inj hold).symm hj
    | remove old =>
      cases htarget
      rw [apply, Directory.entries_remove_self] at hino
      cases hino
  · obtain ⟨hentry, howner⟩ := apply_of_target_ne (s := s) (i := i) htarget
    rw [hentry] at hino
    rw [howner]
    exact hprivate name hino

theorem frame_apply (h : s.Allowed i effect) : Frame i s (s.apply i effect) where
  keeps _ hname := keeps_apply h hname
  owner _ hname hentry := owner_apply h hname hentry
  owned _ _ hj hname := owned_of_apply hj hname
  isolated _ _ hj hlt hprivate := private_apply hj h hlt hprivate

theorem Since.apply {initial : Directory Name File} (h : Since initial s)
    (hallowed : s.Allowed i effect) : Since initial (s.apply i effect) := by
  have hnot {name : Name} (hname : initial.entries name ≠ none) : s.owner name ≠ some i := by
    rw [h.inherited name hname]
    exact nofun
  refine ⟨?_, ?_, ?_⟩
  · intro name ino hino
    have hname : initial.entries name ≠ none := by
      rw [hino]
      exact Option.some_ne_none ino
    obtain ⟨hentry, hdata⟩ := h.kept name ino hino
    obtain ⟨hentry', hdata'⟩ := keeps_apply hallowed (hnot hname) ino hentry
    exact ⟨hentry', hdata'.trans hdata⟩
  · intro name hname
    obtain ⟨ino, hino⟩ := Option.ne_none_iff_exists'.mp hname
    have hentry : s.dir.entries name ≠ none := by
      rw [(h.kept name ino hino).1]
      exact Option.some_ne_none ino
    rw [owner_apply hallowed (hnot hname) hentry]
    exact h.inherited name hname
  · intro name hentry
    by_cases htarget : effect.target = some name
    · rcases apply_target htarget with hown | hnone
      · exact Or.inr ⟨i, hown⟩
      · exact absurd hnone.1 hentry
    · obtain ⟨hsame, howner⟩ := apply_of_target_ne (s := s) (i := i) htarget
      rw [hsame] at hentry
      rw [howner]
      exact h.made name hentry

end Owned

end RelayCat.Posix
