import RelayCat.Automaton.Machine
import RelayCat.Go.Filepath
import RelayCat.Posix.Ownership
import RelayCat.WinService.Render

/-!
# Concurrent installations

Any number of `Install` calls run at once, with any configurations. A call looks whether its unit
path exists, fills a temporary file next to it and publishes that file with a hard link, which
fails if the path exists by then. After that it asks systemd to reload and, if the service is to
start by itself, to enable it; when one of these fails it removes the unit path again. Calls take
one operation at a time, and every operation may fail but the removal of the rollback.

The rollback removes whatever is at the path. It is the call's own unit: a call comes to the
rollback only after its link succeeded, and while the path exists no other call can link to it.
-/

namespace RelayCat.WinService

open Go Utf8 Automaton Posix

def systemdUnitDirectory : Bytes := literal "/etc/systemd/system"

/-- The components of the path at which `Install` publishes the unit. -/
def unitPath (name : Bytes) : List Bytes :=
  Filepath.join systemdUnitDirectory (name ++ literal ".service")

namespace Install

/-- A path by its components. -/
abbrev Path := List Bytes

/-- A path as it is written. -/
def pathText (path : Path) : Bytes := path.flatMap (Filepath.separator :: ·)

structure Temp where
  path : Path
  ino : ℕ
  deriving DecidableEq, Repr

/-- Where a call is in `Install` and `publishUnitFile`. -/
inductive Pc where
  | lstat
  | render
  | createTemp (unit : Bytes)
  | chmod (temp : Temp) (unit : Bytes)
  | writing (temp : Temp) (unit : Bytes) (written : ℕ)
  | syncing (temp : Temp) (unit : Bytes)
  | closing (temp : Temp) (unit : Bytes)
  | linking (temp : Temp) (unit : Bytes)
  | removing (temp : Temp) (result : Option Err)
  | reload
  | enable
  | rollback (err : Err)
  | reloadAgain (err : Err)
  | returned (result : Option Err)
  deriving DecidableEq, Repr

/-- An operation with its error, if it fails. The random part of a temporary name and the
permissions that the system takes away from a new file are the system's choice. -/
inductive Act where
  | lstat (err : Option Err)
  | render
  | createTemp (suffix : Bytes) (mask : ℕ)
  | createTempFail (err : Err)
  | chmod (err : Option Err)
  | write (n : ℕ)
  | writeFail (err : Err)
  | sync (err : Option Err)
  | close (err : Option Err)
  | link (err : Option Err)
  | remove (err : Option Err)
  | daemonReload (err : Option Err)
  | enable (err : Option Err)
  | rollback
  deriving DecidableEq, Repr

/-- The temporary file could not be removed. -/
def Act.sticks : Act → Bool
  | remove err => err.isSome
  | _ => false

def isDigit (b : UInt8) : Bool := 0x30 ≤ b && b ≤ 0x39

/-- `os.CreateTemp(filepath.Dir(path), ".relaycat-unit-*")`. -/
def temporaryPath (path : Path) (suffix : Bytes) : Path :=
  path.dropLast ++ [literal ".relaycat-unit-" ++ suffix]

section Step

variable (quote : Bytes → String)

/-- One operation of a call: where it is then, and what happens to the files. `quote` is the
verb `%q`. -/
def procStep (cfg : InstallConfig) (d : Directory Path File) :
    Pc → Act → Option (Pc × Effect Path File)
  | .lstat, .lstat (some err) =>
    some (.returned (some (.errorf ("checking systemd service " ++ quote cfg.name) err)), .nothing)
  | .lstat, .lstat none =>
    match d.entries (unitPath cfg.name) with
    | some _ =>
      some (.returned (some (.new ("systemd service " ++ quote cfg.name ++ " already exists"))),
        .nothing)
    | none => some (.render, .nothing)
  | .render, .render =>
    match renderSystemdUnit cfg with
    | .error err => some (.returned (some err), .nothing)
    | .ok unit => some (.createTemp unit, .nothing)
  | .createTemp _, .createTempFail err =>
    some (.returned (some (.errorf "creating temporary systemd unit" err)), .nothing)
  | .createTemp unit, .createTemp suffix mask =>
    let path := temporaryPath (unitPath cfg.name) suffix
    if suffix.all isDigit ∧ d.entries path = none then
      some (.chmod ⟨path, d.inodes.length⟩ unit, .create path ⟨[], 0o600 &&& mask⟩)
    else none
  | .chmod temp _, .chmod (some err) =>
    some (.removing temp (some (.errorf "setting systemd unit permissions" err)), .nothing)
  | .chmod temp unit, .chmod none =>
    match d.inodes[temp.ino]? with
    | none => none
    | some f => some (.writing temp unit 0, .write temp.ino { f with mode := 0o644 })
  | .writing temp unit written, .write n =>
    match d.inodes[temp.ino]? with
    | none => none
    | some f =>
      let piece := (unit.drop written).take (n + 1)
      let written' := written + piece.length
      some (if written' = unit.length then .syncing temp unit else .writing temp unit written',
        .write temp.ino (f.writeAt written piece))
  | .writing temp _ _, .writeFail err =>
    some (.removing temp (some (.errorf "writing systemd unit" err)), .nothing)
  | .syncing temp _, .sync (some err) =>
    some (.removing temp (some (.errorf "syncing systemd unit" err)), .nothing)
  | .syncing temp unit, .sync none => some (.closing temp unit, .nothing)
  | .closing temp _, .close (some err) =>
    some (.removing temp (some (.errorf "closing systemd unit" err)), .nothing)
  | .closing temp unit, .close none => some (.linking temp unit, .nothing)
  | .linking temp _, .link err =>
    let path := unitPath cfg.name
    let failure (cause : Err) : Option (Pc × Effect Path File) :=
      some (.removing temp
        (some (.errorf ("publishing systemd unit " ++ quote (pathText path)) cause)), .nothing)
    match err, d.entries temp.path, d.entries path with
    | some err, _, _ => failure err
    | none, none, _ => failure (.new "no such file or directory")
    | none, some _, some _ => failure (.new "file exists")
    | none, some _, none => some (.removing temp none, .link temp.path path)
  | .removing temp result, .remove err =>
    some (result.elim .reload fun err ↦ .returned (some err),
      if err.isSome then .nothing else .remove temp.path)
  | .reload, .daemonReload (some err) => some (.rollback err, .nothing)
  | .reload, .daemonReload none =>
    some (if cfg.automatic then .enable else .returned none, .nothing)
  | .enable, .enable (some err) => some (.rollback err, .nothing)
  | .enable, .enable none => some (.returned none, .nothing)
  | .rollback err, .rollback => some (.reloadAgain err, .remove (unitPath cfg.name))
  | .reloadAgain err, .daemonReload _ => some (.returned (some err), .nothing)
  | _, _ => none

/-- The files with the calls that made them, the calls, and which of them could not remove
their temporary file. -/
structure System where
  files : Owned ℕ Path File
  calls : ℕ → Pc
  stuck : ℕ → Bool

def installs (cfg : ℕ → InstallConfig) (initial : Directory Path File) :
    Machine System (ℕ × Act) where
  init := ⟨⟨initial, fun _ ↦ none⟩, fun _ ↦ .lstat, fun _ ↦ false⟩
  step s := fun (i, act) ↦
    (procStep quote (cfg i) s.files.dir (s.calls i) act).map fun (pc, effect) ↦
      ⟨s.files.apply i effect, Function.update s.calls i pc,
        Function.update s.stuck i (act.sticks || s.stuck i)⟩

end Step

section Paths

/-- The path of some unit. -/
def IsUnit (path : Path) : Prop := ∃ name, path = unitPath name

theorem isUnit_unitPath (name : Bytes) : IsUnit (unitPath name) := ⟨name, rfl⟩

/-- No temporary file has the name of a unit: the one ends with a digit or a hyphen, the other
with a letter. -/
theorem not_isUnit_temporaryPath (path : Path) {suffix : Bytes} (h : suffix.all isDigit = true) :
    ¬ IsUnit (temporaryPath path suffix) := by
  rintro ⟨name, hname⟩
  have hextension : Filepath.separator ∉ literal ".service" ∧ 2 < (literal ".service").length := by
    rw [literal_ofList]
    decide
  obtain ⟨front, c, hunit⟩ :=
    Filepath.join_extension systemdUnitDirectory name hextension.1 hextension.2
  rw [unitPath, hunit, temporaryPath] at hname
  have hlast : literal ".relaycat-unit-" ++ suffix = c ++ literal ".service" := by
    have hend := congrArg List.getLast? hname
    rw [List.getLast?_concat, List.getLast?_concat] at hend
    exact Option.some.inj hend
  have hservice : (c ++ literal ".service").getLast? = some 0x65 := by
    rw [List.getLast?_append]
    rw [literal_ofList]
    rfl
  rw [← hlast, List.getLast?_append] at hservice
  cases hsuffix : suffix.getLast? with
  | none =>
    rw [hsuffix, Option.none_or, literal_ofList] at hservice
    exact absurd hservice (by decide)
  | some b =>
    rw [hsuffix, Option.some_or] at hservice
    cases hservice
    have hdigit := List.all_eq_true.mp h _ (List.mem_of_getLast? hsuffix)
    exact absurd hdigit (by decide)

end Paths

section Local

variable (cfg : InstallConfig) (files : Owned ℕ Path File) (stuck : Bool) (i : ℕ)

/-- Apart from a temporary file that could not be removed, a call has made only these names. -/
def Only (names : Path → Prop) : Prop :=
  ∀ path, files.owner path = some i → names path ∨ stuck = true ∧ ¬ IsUnit path

/-- A call has a temporary file. -/
structure Holds (temp : Temp) : Prop where
  entry : files.dir.entries temp.path = some temp.ino
  owner : files.owner temp.path = some i
  notUnit : ¬ IsUnit temp.path

/-- A call fills its temporary file, which is `f` so far. -/
structure Building (temp : Temp) (f : File) : Prop extends Holds files i temp where
  isolated : files.Private i temp.ino
  data : files.dir.inodes[temp.ino]? = some f

/-- The unit path holds the complete unit of a call. -/
structure Published : Prop where
  owner : files.owner (unitPath cfg.name) = some i
  complete : ∃ unit, renderSystemdUnit cfg = .ok unit ∧
    files.dir.lookup (unitPath cfg.name) = some ⟨unit, 0o644⟩

/-- What holds of a call at each point. -/
def Local : Pc → Prop
  | .lstat | .render => Only files stuck i fun _ ↦ False
  | .createTemp unit => renderSystemdUnit cfg = .ok unit ∧ Only files stuck i fun _ ↦ False
  | .chmod temp unit => renderSystemdUnit cfg = .ok unit ∧ Only files stuck i (· = temp.path) ∧
      ∃ mode, Building files i temp ⟨[], mode⟩
  | .writing temp unit written => renderSystemdUnit cfg = .ok unit ∧
      Only files stuck i (· = temp.path) ∧ Building files i temp ⟨unit.take written, 0o644⟩
  | .syncing temp unit | .closing temp unit | .linking temp unit =>
      renderSystemdUnit cfg = .ok unit ∧ Only files stuck i (· = temp.path) ∧
        Building files i temp ⟨unit, 0o644⟩
  | .removing temp (some _) => Only files stuck i (· = temp.path) ∧ Holds files i temp
  | .removing temp none =>
      Only files stuck i (fun path ↦ path = temp.path ∨ path = unitPath cfg.name) ∧
        Holds files i temp ∧ Published cfg files i
  | .reload | .enable | .rollback _ | .returned none =>
      Only files stuck i (· = unitPath cfg.name) ∧ Published cfg files i
  | .reloadAgain _ | .returned (some _) => Only files stuck i fun _ ↦ False

end Local

section Frames

variable {cfg : InstallConfig} {files files' : Owned ℕ Path File} {stuck : Bool} {i j : ℕ}
  {temp : Temp} {f : File}

theorem Only.frame {names : Path → Prop} (hframe : Owned.Frame i files files') (hj : j ≠ i)
    (h : Only files stuck j names) : Only files' stuck j names :=
  fun path hpath ↦ h path (hframe.owned path j hj hpath)

theorem ne_of_owner {path : Path} (hj : j ≠ i) (h : files.owner path = some j) :
    files.owner path ≠ some i := by
  rw [h]
  exact fun heq ↦ hj (Option.some.inj heq)

theorem Holds.frame (hframe : Owned.Frame i files files') (hj : j ≠ i)
    (h : Holds files j temp) : Holds files' j temp := by
  have howner := ne_of_owner hj h.owner
  have hentry : files.dir.entries temp.path ≠ none := by
    rw [h.entry]
    exact Option.some_ne_none _
  exact ⟨(hframe.keeps _ howner _ h.entry).1, (hframe.owner _ howner hentry).trans h.owner,
    h.notUnit⟩

theorem Building.frame (hframe : Owned.Frame i files files') (hj : j ≠ i)
    (h : Building files j temp f) : Building files' j temp f := by
  have hlt := files.dir.bounded _ _ h.entry
  refine ⟨h.toHolds.frame hframe hj, hframe.isolated _ j hj hlt h.isolated, ?_⟩
  rw [(hframe.keeps _ (ne_of_owner hj h.owner) _ h.entry).2]
  exact h.data

theorem Published.frame (hframe : Owned.Frame i files files') (hj : j ≠ i)
    (h : Published cfg files j) : Published cfg files' j := by
  have howner := ne_of_owner hj h.owner
  obtain ⟨unit, hunit, hlookup⟩ := h.complete
  have hentry : files.dir.entries (unitPath cfg.name) ≠ none := by
    intro hnone
    rw [Directory.lookup, hnone] at hlookup
    cases hlookup
  exact ⟨(hframe.owner _ howner hentry).trans h.owner, unit, hunit,
    (hframe.keeps _ howner).lookup hlookup⟩

/-- What holds of a call depends on the names it has made. -/
theorem Local.frame {pc : Pc} (hframe : Owned.Frame i files files') (hj : j ≠ i)
    (h : Local cfg files stuck j pc) : Local cfg files' stuck j pc := by
  cases pc with
  | lstat => exact Only.frame hframe hj h
  | render => exact Only.frame hframe hj h
  | createTemp unit => exact ⟨h.1, h.2.frame hframe hj⟩
  | chmod temp unit =>
    obtain ⟨hunit, honly, mode, hbuilding⟩ := h
    exact ⟨hunit, honly.frame hframe hj, mode, hbuilding.frame hframe hj⟩
  | writing temp unit written => exact ⟨h.1, h.2.1.frame hframe hj, h.2.2.frame hframe hj⟩
  | syncing temp unit => exact ⟨h.1, h.2.1.frame hframe hj, h.2.2.frame hframe hj⟩
  | closing temp unit => exact ⟨h.1, h.2.1.frame hframe hj, h.2.2.frame hframe hj⟩
  | linking temp unit => exact ⟨h.1, h.2.1.frame hframe hj, h.2.2.frame hframe hj⟩
  | removing temp result =>
    cases result with
    | none => exact ⟨h.1.frame hframe hj, h.2.1.frame hframe hj, h.2.2.frame hframe hj⟩
    | some err => exact ⟨h.1.frame hframe hj, h.2.frame hframe hj⟩
  | reload => exact ⟨h.1.frame hframe hj, h.2.frame hframe hj⟩
  | enable => exact ⟨h.1.frame hframe hj, h.2.frame hframe hj⟩
  | rollback err => exact ⟨h.1.frame hframe hj, h.2.frame hframe hj⟩
  | reloadAgain err => exact Only.frame hframe hj h
  | returned result =>
    cases result with
    | none => exact ⟨h.1.frame hframe hj, h.2.frame hframe hj⟩
    | some err => exact Only.frame hframe hj h

end Frames

section Moves

variable (cfg : InstallConfig)

/-- The temporary file that a call is about to publish. -/
def Pc.temp : Pc → Option Temp
  | chmod temp _ | writing temp _ _ | syncing temp _ | closing temp _ | linking temp _ => some temp
  | _ => none

def Pc.Running : Pc → Prop
  | returned _ => False
  | _ => True

/-- A call that has made no file yet. -/
def Pc.isFresh : Pc → Bool
  | lstat | render | createTemp _ => true
  | _ => false

/-- What follows the deferred removal. -/
def afterRemove (result : Option Err) : Pc := result.elim .reload fun err ↦ .returned (some err)

/-- The steps of a call, with whether a temporary file stays behind. -/
inductive Move (d : Directory Path File) : Pc → Pc → Effect Path File → Bool → Prop
  | refuse {pc err} : pc.isFresh = true → Move d pc (.returned (some err)) .nothing false
  | absent : Move d .lstat .render .nothing false
  | render {unit} : renderSystemdUnit cfg = .ok unit →
      Move d .render (.createTemp unit) .nothing false
  | create {unit suffix mode} : suffix.all isDigit = true →
      d.entries (temporaryPath (unitPath cfg.name) suffix) = none →
      Move d (.createTemp unit)
        (.chmod ⟨temporaryPath (unitPath cfg.name) suffix, d.inodes.length⟩ unit)
        (.create (temporaryPath (unitPath cfg.name) suffix) ⟨[], mode⟩) false
  | fail {pc temp err} : pc.temp = some temp → Move d pc (.removing temp (some err)) .nothing false
  | chmod {temp unit f} : d.inodes[temp.ino]? = some f →
      Move d (.chmod temp unit) (.writing temp unit 0) (.write temp.ino { f with mode := 0o644 })
        false
  | write {temp unit written n f pc} : d.inodes[temp.ino]? = some f →
      (written + ((unit.drop written).take n).length = unit.length ∧ pc = .syncing temp unit ∨
        pc = .writing temp unit (written + ((unit.drop written).take n).length)) →
      Move d (.writing temp unit written) pc
        (.write temp.ino (f.writeAt written ((unit.drop written).take n))) false
  | sync {temp unit} : Move d (.syncing temp unit) (.closing temp unit) .nothing false
  | close {temp unit} : Move d (.closing temp unit) (.linking temp unit) .nothing false
  | link {temp unit} : d.entries (unitPath cfg.name) = none →
      Move d (.linking temp unit) (.removing temp none) (.link temp.path (unitPath cfg.name)) false
  | remove {temp result} :
      Move d (.removing temp result) (afterRemove result) (.remove temp.path) false
  | stick {temp result} : Move d (.removing temp result) (afterRemove result) .nothing true
  | reload {pc} : pc = .enable ∨ pc = .returned none → Move d .reload pc .nothing false
  | enable : Move d .enable (.returned none) .nothing false
  | undo {pc err} : pc = .reload ∨ pc = .enable → Move d pc (.rollback err) .nothing false
  | rollback {err} : Move d (.rollback err) (.reloadAgain err) (.remove (unitPath cfg.name)) false
  | reloadAgain {err} : Move d (.reloadAgain err) (.returned (some err)) .nothing false

variable {cfg} {d : Directory Path File} {quote : Bytes → String}

theorem move_of_procStep {pc pc' : Pc} {act : Act} {effect : Effect Path File}
    (h : procStep quote cfg d pc act = some (pc', effect)) :
    Move cfg d pc pc' effect act.sticks := by
  unfold procStep at h
  split at h
  · cases h
    exact .refuse rfl
  · split at h
    · cases h
      exact .refuse rfl
    · cases h
      exact .absent
  · split at h
    · cases h
      exact .refuse rfl
    · cases h
      exact .render ‹_›
  · cases h
    exact .refuse rfl
  · simp only at h
    split_ifs at h with hfree
    cases h
    exact .create hfree.1 hfree.2
  · cases h
    exact .fail rfl
  · split at h
    · cases h
    · cases h
      exact .chmod ‹_›
  · split at h
    · cases h
    · rename_i f hf
      simp only [Option.some.injEq, Prod.mk.injEq] at h
      obtain ⟨rfl, rfl⟩ := h
      refine .write hf ?_
      split_ifs with hall
      · exact Or.inl ⟨hall, rfl⟩
      · exact Or.inr rfl
  · cases h
    exact .fail rfl
  · cases h
    exact .fail rfl
  · cases h
    exact .sync
  · cases h
    exact .fail rfl
  · cases h
    exact .close
  · simp only at h
    split at h
    · cases h
      exact .fail rfl
    · cases h
      exact .fail rfl
    · cases h
      exact .fail rfl
    · cases h
      exact .link ‹_›
  · rename_i temp result err
    cases h
    cases err with
    | none => exact .remove
    | some err => exact .stick
  · cases h
    exact .undo (Or.inl rfl)
  · simp only [Option.some.injEq, Prod.mk.injEq] at h
    obtain ⟨rfl, rfl⟩ := h
    refine .reload ?_
    split_ifs
    · exact Or.inl rfl
    · exact Or.inr rfl
  · cases h
    exact .undo (Or.inr rfl)
  · cases h
    exact .enable
  · cases h
    exact .rollback
  · cases h
    exact .reloadAgain
  · cases h

end Moves

section Own

variable {cfg : InstallConfig} {files : Owned ℕ Path File} {stuck : Bool} {i : ℕ} {temp : Temp}
  {f f' : File} {unit : Bytes}

theorem local_of_isFresh {pc : Pc} {err : Err} (hpc : pc.isFresh = true)
    (h : Local cfg files stuck i pc) : Local cfg files stuck i (.returned (some err)) := by
  cases pc with
  | lstat => exact h
  | render => exact h
  | createTemp unit => exact h.2
  | _ => cases hpc

theorem local_of_temp {pc : Pc} {err : Err} (hpc : pc.temp = some temp)
    (h : Local cfg files stuck i pc) : Local cfg files stuck i (.removing temp (some err)) := by
  cases pc with
  | chmod temp' unit =>
    cases hpc
    obtain ⟨-, honly, mode, hbuilding⟩ := h
    exact ⟨honly, hbuilding.toHolds⟩
  | writing temp' unit written =>
    cases hpc
    exact ⟨h.2.1, h.2.2.toHolds⟩
  | syncing temp' unit =>
    cases hpc
    exact ⟨h.2.1, h.2.2.toHolds⟩
  | closing temp' unit =>
    cases hpc
    exact ⟨h.2.1, h.2.2.toHolds⟩
  | linking temp' unit =>
    cases hpc
    exact ⟨h.2.1, h.2.2.toHolds⟩
  | _ => cases hpc

/-- What a call has made after one more effect. -/
theorem Only.apply {names : Path → Prop} {effect : Effect Path File}
    (h : Only files stuck i names) :
    Only (files.apply i effect) stuck i fun path ↦ names path ∨ effect.target = some path := by
  intro path hpath
  by_cases htarget : effect.target = some path
  · exact Or.inl (Or.inr htarget)
  · rw [(Owned.apply_of_target_ne htarget).2] at hpath
    exact (h path hpath).imp_left Or.inl

theorem Only.remove {names : Path → Prop} {path : Path} (h : Only files stuck i names) :
    Only (files.apply i (.remove path)) stuck i fun other ↦ names other ∧ other ≠ path := by
  intro other hother
  by_cases hpath : other = path
  · have hnone : (files.apply i (.remove path)).owner path = none := Function.update_self ..
    rw [hpath, hnone] at hother
    cases hother
  · have hsame : (files.apply i (.remove path)).owner other = files.owner other :=
      Function.update_of_ne hpath _ _
    rw [hsame] at hother
    exact (h other hother).imp_left fun hnames ↦ ⟨hnames, hpath⟩

theorem Only.mono {names names' : Path → Prop} (h : Only files stuck i names)
    (hnames : ∀ path, names path → names' path) : Only files stuck i names' :=
  fun path hpath ↦ (h path hpath).imp_left (hnames path)

/-- The temporary file stays behind. -/
theorem Only.stick {names names' : Path → Prop} (h : Only files stuck i names)
    (hnames : ∀ path, names path → names' path ∨ ¬ IsUnit path) : Only files true i names' := by
  intro path hpath
  rcases h path hpath with hpath | hpath
  · exact (hnames path hpath).imp_right fun hunit ↦ ⟨rfl, hunit⟩
  · exact Or.inr ⟨rfl, hpath.2⟩

theorem Building.write (h : Building files i temp f) :
    Building (files.apply i (.write temp.ino f')) i temp f' where
  entry := h.entry
  owner := h.owner
  notUnit := h.notUnit
  isolated := h.isolated
  data := Directory.inodes_write_self (files.dir.bounded _ _ h.entry)

/-- The new file belongs to no one else. -/
theorem Building.create {path : Path} (hpath : ¬ IsUnit path) (f : File) :
    Building (files.apply i (.create path f)) i ⟨path, files.dir.inodes.length⟩ f := by
  refine ⟨⟨Directory.entries_create_self, Function.update_self .., hpath⟩, ?_,
    Directory.inodes_create_new⟩
  intro other hother
  by_cases hname : other = path
  · subst hname
    exact Function.update_self ..
  · rw [Owned.apply, Directory.entries_create_of_ne hname] at hother
    exact absurd (files.dir.bounded _ _ hother) (Nat.lt_irrefl _)

theorem Holds.path_ne (h : Holds files i temp) (name : Bytes) : temp.path ≠ unitPath name :=
  fun heq ↦ h.notUnit ⟨name, heq⟩

/-- The link publishes the whole unit. -/
theorem Building.link (h : Building files i temp ⟨unit, 0o644⟩)
    (hunit : renderSystemdUnit cfg = .ok unit) :
    Holds (files.apply i (.link temp.path (unitPath cfg.name))) i temp ∧
      Published cfg (files.apply i (.link temp.path (unitPath cfg.name))) i := by
  have hne := h.path_ne cfg.name
  refine ⟨⟨(Directory.entries_link_of_ne hne).trans h.entry,
    (Function.update_of_ne hne _ _).trans h.owner, h.notUnit⟩, Function.update_self .., unit,
    hunit, ?_⟩
  rw [Owned.apply, Directory.lookup, Directory.entries_link_new, h.entry]
  exact h.data

theorem Published.remove (h : Published cfg files i) (htemp : Holds files i temp) :
    Published cfg (files.apply i (.remove temp.path)) i := by
  have hne := (htemp.path_ne cfg.name).symm
  obtain ⟨unit, hunit, hlookup⟩ := h.complete
  exact ⟨(Function.update_of_ne hne _ _).trans h.owner, unit, hunit,
    (Directory.keeps_remove hne).lookup hlookup⟩

/-- A step of a call touches only what the call has made, and keeps what holds of it. -/
theorem Local.move {pc pc' : Pc} {effect : Effect Path File} {sticks : Bool}
    (h : Local cfg files stuck i pc) (hmove : Move cfg files.dir pc pc' effect sticks) :
    files.Allowed i effect ∧
      Local cfg (files.apply i effect) (sticks || stuck) i pc' := by
  cases hmove with
  | refuse hfresh => exact ⟨trivial, local_of_isFresh hfresh h⟩
  | absent => exact ⟨trivial, h⟩
  | render hunit => exact ⟨trivial, hunit, h⟩
  | create hdigits hfree =>
    refine ⟨hfree, h.1, h.2.apply.mono ?_, _,
      Building.create (not_isUnit_temporaryPath _ hdigits) _⟩
    rintro path (hpath | hpath)
    · cases hpath
    · exact (Option.some.inj hpath).symm
  | fail htemp => exact ⟨trivial, local_of_temp htemp h⟩
  | chmod hf =>
    obtain ⟨hunit, honly, mode, hbuilding⟩ := h
    cases hbuilding.data.symm.trans hf
    exact ⟨hbuilding.isolated, hunit, honly, hbuilding.write⟩
  | write hf hpc =>
    obtain ⟨hunit, honly, hbuilding⟩ := h
    cases hbuilding.data.symm.trans hf
    rw [File.writeAt_take]
    refine ⟨hbuilding.isolated, ?_⟩
    rcases hpc with ⟨hall, rfl⟩ | rfl
    · rw [hall, List.take_length]
      exact ⟨hunit, honly, hbuilding.write⟩
    · exact ⟨hunit, honly, hbuilding.write⟩
  | sync => exact ⟨trivial, h⟩
  | close => exact ⟨trivial, h⟩
  | link hfree =>
    obtain ⟨hunit, honly, hbuilding⟩ := h
    refine ⟨⟨hbuilding.owner, hfree⟩, honly.apply.mono ?_, hbuilding.link hunit⟩
    exact fun path ↦ Or.imp_right fun hpath ↦ (Option.some.inj hpath).symm
  | remove =>
    rename_i temp result
    cases result with
    | none =>
      obtain ⟨honly, hholds, hpublished⟩ := h
      refine ⟨hholds.owner, honly.remove.mono ?_, hpublished.remove hholds⟩
      exact fun path hpath ↦ hpath.1.resolve_left hpath.2
    | some err =>
      obtain ⟨honly, hholds⟩ := h
      exact ⟨hholds.owner, honly.remove.mono fun path hpath ↦ hpath.2 hpath.1⟩
  | stick =>
    rename_i temp result
    cases result with
    | none =>
      obtain ⟨honly, hholds, hpublished⟩ := h
      refine ⟨trivial, honly.stick ?_, hpublished⟩
      rintro path (rfl | hpath)
      · exact Or.inr hholds.notUnit
      · exact Or.inl hpath
    | some err =>
      obtain ⟨honly, hholds⟩ := h
      refine ⟨trivial, honly.stick ?_⟩
      rintro path rfl
      exact Or.inr hholds.notUnit
  | reload hpc =>
    rcases hpc with rfl | rfl
    · exact ⟨trivial, h⟩
    · exact ⟨trivial, h⟩
  | enable => exact ⟨trivial, h⟩
  | undo hpc =>
    rcases hpc with rfl | rfl
    · exact ⟨trivial, h⟩
    · exact ⟨trivial, h⟩
  | rollback =>
    obtain ⟨honly, hpublished⟩ := h
    exact ⟨hpublished.owner, honly.remove.mono fun path hpath ↦ hpath.2 hpath.1⟩
  | reloadAgain => exact ⟨trivial, h⟩

end Own

section Runs

variable (cfg : ℕ → InstallConfig) (initial : Directory Path File)

/-- The invariant of the files and the calls. -/
structure Orderly (s : System) : Prop where
  since : Owned.Since initial s.files
  calls : ∀ i, Local (cfg i) s.files (s.stuck i) i (s.calls i)

variable {cfg initial} {quote : Bytes → String} {s t : System}

/-- What a step is allowed to touch, and what it keeps. -/
theorem Orderly.step (h : Orderly cfg initial s) {i : ℕ} {act : Act}
    (hstep : (installs quote cfg initial).step s (i, act) = some t) :
    Owned.Frame i s.files t.files ∧ Orderly cfg initial t := by
  obtain ⟨⟨pc, effect⟩, hproc, rfl⟩ := Option.map_eq_some_iff.mp hstep
  obtain ⟨hallowed, hlocal⟩ := (h.calls i).move (move_of_procStep hproc)
  have hframe := Owned.frame_apply hallowed
  refine ⟨hframe, h.since.apply hallowed, fun j ↦ ?_⟩
  by_cases hj : j = i
  · subst hj
    simp only [Function.update_self]
    exact hlocal
  · simp only [Function.update_of_ne hj]
    exact (h.calls j).frame hframe hj

theorem orderly_of_reachable (hs : (installs quote cfg initial).Reachable s) :
    Orderly cfg initial s := by
  have hinit : Orderly cfg initial (installs quote cfg initial).init := by
    refine ⟨Owned.since_initial initial, fun i path hpath ↦ ?_⟩
    cases hpath
  refine Machine.invariant hinit ?_ hs
  rintro s ⟨i, act⟩ t - h hstep
  exact (h.step hstep).2

/-- The unit at a path is the complete one of the call that made it, which has not failed. -/
theorem Local.unit {cfg : InstallConfig} {files : Owned ℕ Path File} {stuck : Bool} {i : ℕ}
    {pc : Pc} {name : Bytes} (h : Local cfg files stuck i pc)
    (howner : files.owner (unitPath name) = some i) :
    unitPath cfg.name = unitPath name ∧ Published cfg files i ∧
      (pc.Running ∨ pc = .returned none) := by
  have honly {names : Path → Prop} (honly : Only files stuck i names) : names (unitPath name) :=
    (honly _ howner).resolve_right fun hstuck ↦ hstuck.2 (isUnit_unitPath name)
  have htemp {temp : Temp} (hholds : Holds files i temp) : unitPath name ≠ temp.path :=
    (hholds.path_ne name).symm
  cases pc with
  | lstat => exact (honly h).elim
  | render => exact (honly h).elim
  | createTemp unit => exact (honly h.2).elim
  | chmod temp unit =>
    obtain ⟨-, hnames, mode, hbuilding⟩ := h
    exact absurd (honly hnames) (htemp hbuilding.toHolds)
  | writing temp unit written => exact absurd (honly h.2.1) (htemp h.2.2.toHolds)
  | syncing temp unit => exact absurd (honly h.2.1) (htemp h.2.2.toHolds)
  | closing temp unit => exact absurd (honly h.2.1) (htemp h.2.2.toHolds)
  | linking temp unit => exact absurd (honly h.2.1) (htemp h.2.2.toHolds)
  | removing temp result =>
    cases result with
    | none =>
      refine ⟨?_, h.2.2, Or.inl trivial⟩
      exact ((honly h.1).resolve_left (htemp h.2.1)).symm
    | some err => exact absurd (honly h.1) (htemp h.2)
  | reload => exact ⟨(honly h.1).symm, h.2, Or.inl trivial⟩
  | enable => exact ⟨(honly h.1).symm, h.2, Or.inl trivial⟩
  | rollback err => exact ⟨(honly h.1).symm, h.2, Or.inl trivial⟩
  | reloadAgain err => exact (honly h).elim
  | returned result =>
    cases result with
    | none => exact ⟨(honly h.1).symm, h.2, Or.inr rfl⟩
    | some err => exact (honly h).elim

/-- A call that has returned an error has left nothing behind, unless it could not remove its
temporary file. -/
theorem Local.failed {cfg : InstallConfig} {files : Owned ℕ Path File} {stuck : Bool} {i : ℕ}
    {err : Err} (h : Local cfg files stuck i (.returned (some err))) :
    (∀ name, files.owner (unitPath name) ≠ some i) ∧
      (stuck = false → ∀ path, files.owner path ≠ some i) := by
  constructor
  · intro name howner
    rcases h _ howner with hfalse | hstuck
    · exact hfalse
    · exact hstuck.2 (isUnit_unitPath name)
  · intro hstuck path howner
    rcases h path howner with hfalse | htrue
    · exact hfalse
    · rw [hstuck] at htrue
      cases htrue.1

/-- However many calls install units, whatever fails: a path that was free is empty or holds the
complete unit of one call that is running or has succeeded, a call that fails leaves nothing
behind, no call touches a file of another or one that was there, and one call at most succeeds
with a path. -/
theorem install_all_or_nothing (quote : Bytes → String) (cfg : ℕ → InstallConfig)
    (initial : Directory Path File) (hs : (installs quote cfg initial).Reachable s) :
    (∀ name, initial.entries (unitPath name) = none →
      s.files.dir.entries (unitPath name) = none ∨
      ∃! i, s.files.owner (unitPath name) = some i ∧ unitPath (cfg i).name = unitPath name ∧
        (∃ unit, renderSystemdUnit (cfg i) = .ok unit ∧
          s.files.dir.lookup (unitPath name) = some ⟨unit, 0o644⟩) ∧
        ((s.calls i).Running ∨ s.calls i = .returned none)) ∧
    (∀ i err, s.calls i = .returned (some err) →
      (∀ name, s.files.owner (unitPath name) ≠ some i) ∧
      (s.stuck i = false → ∀ path, s.files.owner path ≠ some i)) ∧
    Owned.Since initial s.files ∧
    (∀ i act t, (installs quote cfg initial).step s (i, act) = some t →
      ∀ path, s.files.owner path ≠ some i → Directory.Keeps path s.files.dir t.files.dir) ∧
    (∀ i j, s.calls i = .returned none → s.calls j = .returned none →
      unitPath (cfg i).name = unitPath (cfg j).name → i = j) := by
  have horderly := orderly_of_reachable hs
  refine ⟨?_, ?_, horderly.since, ?_, ?_⟩
  · intro name hfree
    by_cases hentry : s.files.dir.entries (unitPath name) = none
    · exact Or.inl hentry
    · right
      obtain ⟨i, howner⟩ := (horderly.since.made _ hentry).resolve_left (not_not_intro hfree)
      obtain ⟨hpath, hpublished, hpc⟩ := (horderly.calls i).unit howner
      obtain ⟨unit, hunit, hlookup⟩ := hpublished.complete
      rw [hpath] at hlookup
      refine ⟨i, ⟨howner, hpath, ⟨unit, hunit, hlookup⟩, hpc⟩, ?_⟩
      intro j hj
      exact (Option.some.inj (howner.symm.trans hj.1)).symm
  · intro i err hi
    have hlocal := horderly.calls i
    rw [hi] at hlocal
    exact hlocal.failed
  · intro i act t hstep path hpath
    exact (horderly.step hstep).1.keeps path hpath
  · intro i j hi hj hpath
    have howner {k : ℕ} (hk : s.calls k = .returned none) :
        s.files.owner (unitPath (cfg k).name) = some k := by
      have hlocal := horderly.calls k
      rw [hk] at hlocal
      exact hlocal.2.owner
    have hsame := (howner hi).symm.trans ((congrArg s.files.owner hpath).trans (howner hj))
    exact Option.some.inj hsame

/-- Two calls with one name; the second finds the path taken when it links. -/
def race : List (ℕ × Act) :=
  [(0, .lstat none), (1, .lstat none), (0, .render), (1, .render),
    (0, .createTemp (literal "1") 0o777), (1, .createTemp (literal "2") 0o777),
    (0, .chmod none), (1, .chmod none), (0, .write 40), (1, .write 4096), (0, .write 4096),
    (0, .sync none), (1, .sync none), (0, .close none), (1, .close none), (0, .link none),
    (1, .link none), (1, .remove none), (0, .remove none), (0, .daemonReload none),
    (0, .enable none)]

/-- A directory without files. -/
def emptyDirectory : Directory Path File := ⟨fun _ ↦ none, [], nofun⟩

theorem install_all_or_nothing_race :
    ∃ s, (installs (fun _ ↦ "unit") (fun _ ↦ sampleConfig []) emptyDirectory).Reachable s ∧
      s.calls 0 = .returned none ∧
      s.calls 1 = .returned (some (.errorf "publishing systemd unit unit" (.new "file exists"))) ∧
      (∀ path, s.files.owner path ≠ some 1) ∧
      ∃ i unit, renderSystemdUnit (sampleConfig []) = .ok unit ∧
        s.files.owner (unitPath (literal "relaycat-ssh")) = some i ∧
        s.files.dir.lookup (unitPath (literal "relaycat-ssh")) = some ⟨unit, 0o644⟩ := by
  obtain ⟨s, hexec, hfirst, hsecond, hstuck, hentry⟩ := Machine.exists_of_exec
    (M := installs (fun _ ↦ "unit") (fun _ ↦ sampleConfig []) emptyDirectory)
    (s := ⟨⟨emptyDirectory, fun _ ↦ none⟩, fun _ ↦ .lstat, fun _ ↦ false⟩) race
    (fun s ↦ s.calls 0 = .returned none ∧
      s.calls 1 = .returned (some (.errorf "publishing systemd unit unit" (.new "file exists"))) ∧
      s.stuck 1 = false ∧
      (s.files.dir.entries (unitPath (literal "relaycat-ssh"))).isSome = true)
    (by decide +kernel)
  have hreach := Machine.reaches_of_exec race hexec
  obtain ⟨hunits, hfailed, -⟩ := install_all_or_nothing (fun _ ↦ "unit") (fun _ ↦ sampleConfig [])
    emptyDirectory hreach
  rcases hunits (literal "relaycat-ssh") rfl with hnone | ⟨i, ⟨howner, -, hcomplete, -⟩, -⟩
  · rw [hnone] at hentry
    cases hentry
  · obtain ⟨unit, hunit, hlookup⟩ := hcomplete
    exact ⟨s, hreach, hfirst, hsecond, (hfailed 1 _ hsecond).2 hstuck, i, unit, hunit, howner,
      hlookup⟩

end Runs

end Install

end RelayCat.WinService
