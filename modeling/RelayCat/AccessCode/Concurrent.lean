import RelayCat.AccessCode.State
import RelayCat.Automaton.Machine
import RelayCat.Automaton.Threads

/-!
# Concurrent users of one state file

Any number of processes run `LoadOrCreate` with one non-empty path, relay URL and target. A
process takes one file-system step at a time: it reads an existing file piece by piece, and
creates a missing one exclusively and writes it piece by piece, so that others may read any
beginning of it. Any step may fail and any process may be killed. The file there is at first
may be missing or hold anything.

The only writer of a file is the process that created it, and no beginning of the text it
writes decodes to another code than the whole.
-/

namespace RelayCat.AccessCode

open Go Utf8 Json Automaton Posix

/-- Where a process is in `LoadOrCreate`. -/
inductive Pc where
  | start
  | reading (got : Bytes)
  | stat (got : Bytes)
  | fresh
  | mkdirAll (c : Code) (now : Time)
  | openFile (c : Code) (now : Time)
  | writing (c : Code) (now : Time) (written : ℕ)
  | syncing (c : Code) (now : Time)
  | closing (c : Code) (now : Time)
  | returned (result : Except Err Code)
  | killed

inductive Act where
  | open (err : Option Err)
  | read (n : ℕ)
  | readFail (err : Err)
  | stat (err : Option Err)
  | generate (o : Outcome)
  | mkdirAll (err : Option Err)
  | openFile (err : Option Err) (mask : ℕ)
  | write (n : ℕ)
  | writeFail (err : Err)
  | sync (err : Option Err)
  | close (err : Option Err)
  | kill

section Step

variable (windows : Bool) (parse : Bytes → Bool) (path relayURL target : Bytes)

/-- One step of a process: where it is then, and the file. A read or write moves at least one
byte, and a read at the end of the file ends the reading. The permissions that are left to a new
file are the system's choice. -/
def procStep (file : Option File) : Pc → Act → Option (Pc × Option File)
  | .start, .open (some err) => some (.returned (.error (.errorf "reading state file" err)), file)
  | .start, .open none =>
    match file with
    | none => some (.fresh, file)
    | some _ => some (.reading [], file)
  | .reading got, .read n =>
    match file with
    | none => none
    | some f =>
      if got.length < f.content.length then
        some (.reading (got ++ (f.content.drop got.length).take (n + 1)), file)
      else some (.stat got, file)
  | .reading _, .readFail err =>
    some (.returned (.error (.errorf "reading state file" err)), file)
  | .stat got, .stat err =>
    match file with
    | none => none
    | some f =>
      match checkPrivateFile windows path (err.elim (.ok f.mode) .error) with
      | .error err => some (.returned (.error err), file)
      | .ok () => some (.returned (interpret parse got relayURL target), file)
  | .fresh, .generate o =>
    match new relayURL o with
    | .error err => some (.returned (.error err), file)
    | .ok c => some (.mkdirAll c o.now, file)
  | .mkdirAll _ _, .mkdirAll (some err) =>
    some (.returned (.error (.errorf "creating state directory" err)), file)
  | .mkdirAll c now, .mkdirAll none => some (.openFile c now, file)
  | .openFile _ _, .openFile (some err) _ =>
    some (.returned (.error (.errorf "writing state file" err)), file)
  | .openFile c now, .openFile none mask =>
    match file with
    | none => some (.writing c now 0, some ⟨[], 0o600 &&& mask⟩)
    | some _ => some (.returned (.error (.errorf "writing state file" (.new "file exists"))), file)
  | .writing c now written, .write n =>
    match file with
    | none => none
    | some f =>
      let piece := ((stateText target c now).drop written).take (n + 1)
      let written' := written + piece.length
      some (if written' = (stateText target c now).length then .syncing c now
          else .writing c now written', some (f.writeAt written piece))
  | .writing _ _ _, .writeFail err =>
    some (.returned (.error (.errorf "writing state file" err)), file)
  | .syncing _ _, .sync (some err) =>
    some (.returned (.error (.errorf "syncing state file" err)), file)
  | .syncing c now, .sync none => some (.closing c now, file)
  | .closing _ _, .close (some err) =>
    some (.returned (.error (.errorf "closing state file" err)), file)
  | .closing c _, .close none => some (.returned (.ok c), file)
  | .returned _, .kill => none
  | .killed, .kill => none
  | _, .kill => some (.killed, file)
  | _, _ => none

/-- The processes and the file, with the process whose exclusive create succeeded, its code
and its time. -/
structure Shared where
  file : Option File
  procs : ℕ → Pc
  creator : Option (ℕ × Code × Time)

/-- The creator after process `i` has gone to `pc`. -/
def nextCreator (s : Shared) (i : ℕ) (pc : Pc) : Option (ℕ × Code × Time) :=
  match s.file, s.procs i, pc with
  | none, .openFile c now, .writing _ _ _ => some (i, c, now)
  | _, _, _ => s.creator

def sharing (initial : Option File) : Machine Shared (ℕ × Act) where
  init := ⟨initial, fun _ ↦ .start, none⟩
  step s := fun (i, act) ↦
    (procStep windows parse path relayURL target s.file (s.procs i) act).map fun (pc, file) ↦
      ⟨file, Function.update s.procs i pc, nextCreator s i pc⟩

end Step

section Beginning

variable {parse : Bytes → Bool} {relayURL target : Bytes} {c d : Code} {now : Time} {got : Bytes}

/-- A document that is the beginning of a written file is all of it but white space. -/
theorem unmarshal_beginning {st : StateFile} {rest : Bytes}
    (hrest : got ++ rest = stateText target c now)
    (h : StateFile.unmarshal parse got = some st) :
    rest.all isSpace = true ∧ StateFile.unmarshal parse (stateText target c now) = some st := by
  have hspace : [(0x0a : UInt8)].all isSpace = true := rfl
  have htext : document (stateText target c now) = some (.object _) :=
    document_objectText (isValue_members rfl now) hspace
  cases got with
  | nil => cases h
  | cons b got =>
    have hbrace : b = leftBrace := by
      have hhead := congrArg List.head? hrest
      exact Option.some.inj hhead
    subst hbrace
    unfold StateFile.unmarshal at h ⊢
    cases hdoc : document (leftBrace :: got) with
    | none => simp [hdoc] at h
    | some doc =>
      cases doc with
      | other text =>
        unfold document at hdoc
        split at hdoc
        · cases hdoc
        · split_ifs at hdoc with hend hhead
          · cases hdoc
          · exact absurd rfl hhead
      | object members =>
        rw [← hrest] at htext ⊢
        obtain ⟨hall, hsame⟩ := document_append hdoc htext
        rw [htext, hsame]
        rw [hdoc] at h
        exact ⟨hall, h⟩

theorem unmarshal_of_interpret (h : interpret parse got relayURL target = .ok d) :
    ∃ st, StateFile.unmarshal parse got = some st := by
  unfold interpret at h
  cases hgot : StateFile.unmarshal parse got with
  | none => simp [hgot] at h
  | some st => exact ⟨st, rfl⟩

/-- What a state reads as depends on its document alone. -/
theorem interpret_eq_of_unmarshal {got' : Bytes}
    (h : StateFile.unmarshal parse got = StateFile.unmarshal parse got')
    (relayURL target : Bytes) :
    interpret parse got relayURL target = interpret parse got' relayURL target := by
  unfold interpret
  rw [h]

/-- Reading the beginning of a written file gives its code or an error. -/
theorem interpret_beginning (hc : c.validate = .ok ()) (hgot : got <+: stateText target c now)
    (h : interpret parse got relayURL target = .ok d) :
    d.routeID = c.routeID ∧ d.psk = c.psk := by
  obtain ⟨rest, hrest⟩ := hgot
  obtain ⟨st, hst⟩ := unmarshal_of_interpret h
  have hsame := hst.trans (unmarshal_beginning hrest hst).2.symm
  rw [interpret_eq_of_unmarshal hsame, interpret_stateText hc] at h
  split_ifs at h
  cases h
  exact ⟨rfl, rfl⟩

end Beginning

section Moves

variable (parse : Bytes → Bool) (relayURL target : Bytes)

/-- A process that was killed or returned an error. -/
def Pc.Failed : Pc → Prop
  | returned (.error _) => True
  | killed => True
  | _ => False

/-- The steps of a process. -/
inductive ProcMove (file : Option File) : Pc → Pc → Option File → Prop
  | fail {pc pc'} : pc'.Failed → ProcMove file pc pc' file
  | missing : file = none → ProcMove file .start .fresh file
  | found {f} : file = some f → ProcMove file .start (.reading []) file
  | read {f got n} : file = some f → got.length < f.content.length →
      ProcMove file (.reading got) (.reading (got ++ (f.content.drop got.length).take n)) file
  | eof {f got} : file = some f → f.content.length ≤ got.length →
      ProcMove file (.reading got) (.stat got) file
  | load {f got} : file = some f →
      ProcMove file (.stat got) (.returned (interpret parse got relayURL target)) file
  | generate {c now} : c.validate = .ok () → ProcMove file .fresh (.mkdirAll c now) file
  | mkdirAll {c now} : ProcMove file (.mkdirAll c now) (.openFile c now) file
  | create {c now mask} : file = none →
      ProcMove file (.openFile c now) (.writing c now 0) (some ⟨[], 0o600 &&& mask⟩)
  | write {f c now written n pc'} : file = some f →
      pc' = .syncing c now ∨
        pc' = .writing c now
          (written + (((stateText target c now).drop written).take n).length) →
      ProcMove file (.writing c now written) pc'
        (some (f.writeAt written (((stateText target c now).drop written).take n)))
  | sync {c now} : ProcMove file (.syncing c now) (.closing c now) file
  | close {c now} : ProcMove file (.closing c now) (.returned (.ok c)) file

variable {parse relayURL target}

theorem procMove_of_procStep {windows : Bool} {path : Bytes} {file file' : Option File}
    {pc pc' : Pc} {act : Act}
    (h : procStep windows parse path relayURL target file pc act = some (pc', file')) :
    ProcMove parse relayURL target file pc pc' file' := by
  unfold procStep at h
  split at h
  · cases h
    exact .fail trivial
  · split at h
    · cases h
      exact .missing rfl
    · cases h
      exact .found rfl
  · split at h
    · cases h
    · split_ifs at h with hlt
      · cases h
        exact .read rfl hlt
      · cases h
        exact .eof rfl (not_lt.mp hlt)
  · cases h
    exact .fail trivial
  · split at h
    · cases h
    · split at h
      · cases h
        exact .fail trivial
      · cases h
        exact .load rfl
  · split at h
    · cases h
      exact .fail trivial
    · rename_i c hnew
      cases h
      exact .generate (new_ok hnew).2
  · cases h
    exact .fail trivial
  · cases h
    exact .mkdirAll
  · cases h
    exact .fail trivial
  · split at h
    · cases h
      exact .create rfl
    · cases h
      exact .fail trivial
  · split at h
    · cases h
    · simp only [Option.some.injEq, Prod.mk.injEq] at h
      obtain ⟨rfl, rfl⟩ := h
      refine .write rfl ?_
      split_ifs
      · exact Or.inl rfl
      · exact Or.inr rfl
  · cases h
    exact .fail trivial
  · cases h
    exact .fail trivial
  · cases h
    exact .sync
  · cases h
    exact .fail trivial
  · cases h
    exact .close
  · cases h
  · cases h
  · cases h
    exact .fail trivial
  · cases h

end Moves

section Alone

variable (windows : Bool) (parse : Bytes → Bool) (path relayURL target : Bytes)
  (initial : Option File)

/-- The first process gets to `pc` with the file as given. -/
def Gets (pc : Pc) (file : Option File) : Prop :=
  ∃ s, (sharing windows parse path relayURL target initial).Reachable s ∧
    s.procs 0 = pc ∧ s.file = file

variable {windows parse path relayURL target initial}

theorem Gets.step {pc pc' : Pc} {file file' : Option File}
    (h : Gets windows parse path relayURL target initial pc file) (act : Act)
    (hstep : procStep windows parse path relayURL target file pc act = some (pc', file')) :
    Gets windows parse path relayURL target initial pc' file' := by
  obtain ⟨s, hs, rfl, rfl⟩ := h
  refine ⟨⟨file', Function.update s.procs 0 pc', nextCreator s 0 pc'⟩, ?_, ?_, rfl⟩
  · refine Machine.Reachable.tail (a := (0, act)) hs ?_
    exact Option.map_eq_some_iff.mpr ⟨_, hstep, rfl⟩
  · exact Function.update_self 0 pc' s.procs

/-- The whole file in one read. -/
theorem Gets.readAll {f : File}
    (h : Gets windows parse path relayURL target initial (.reading []) (some f)) :
    Gets windows parse path relayURL target initial (.stat f.content) (some f) := by
  by_cases hempty : f.content = []
  · rw [hempty]
    exact h.step (.read 0) (by simp [procStep, hempty])
  · have hpos : 0 < f.content.length := List.length_pos_of_ne_nil hempty
    have hall : Gets windows parse path relayURL target initial (.reading f.content) (some f) :=
      h.step (.read f.content.length) (by
        simp [procStep, hpos, List.take_of_length_le (Nat.le_succ f.content.length)])
    exact hall.step (.read 0) (by simp [procStep])

/-- The whole text in one write. -/
theorem procStep_writeAll (c : Code) (now : Time) (mode : ℕ) :
    procStep windows parse path relayURL target (some ⟨[], mode⟩) (.writing c now 0)
      (.write (stateText target c now).length) =
        some (.syncing c now, some ⟨stateText target c now, mode⟩) := by
  simp [procStep, File.writeAt,
    List.take_of_length_le (Nat.le_succ (stateText target c now).length)]

/-- A write that fails before its end. -/
theorem Gets.writeFail {c : Code} {now : Time} {n mode : ℕ} {err : Err}
    (h : Gets windows parse path relayURL target initial (.writing c now 0) (some ⟨[], mode⟩))
    (hn : n < (stateText target c now).length) :
    Gets windows parse path relayURL target initial
      (.returned (.error (.errorf "writing state file" err)))
      (some ⟨(stateText target c now).take n, mode⟩) := by
  cases n with
  | zero => exact h.step (.writeFail err) rfl
  | succ n =>
    have hpiece : min (n + 1) (stateText target c now).length = n + 1 := min_eq_left hn.le
    have hwritten : Gets windows parse path relayURL target initial (.writing c now (n + 1))
        (some ⟨(stateText target c now).take (n + 1), mode⟩) := by
      refine h.step (.write n) ?_
      simp [procStep, File.writeAt, hpiece, hn.ne]
    exact hwritten.step (.writeFail err) rfl

/-- A process that is alone does what `LoadOrCreate` does. -/
theorem gets_loadOrCreate (o : Outcome) (fs : FileSystem) (hpath : path ≠ [])
    (hwrite : ∀ c n err, o.write = some (n, err) → n < (stateText target c o.now).length) :
    Gets windows parse path relayURL target (fs path)
      (.returned (loadOrCreate windows parse o fs path relayURL target).1)
      ((loadOrCreate windows parse o fs path relayURL target).2 path) := by
  have hstart : Gets windows parse path relayURL target (fs path) .start (fs path) :=
    ⟨_, Machine.Reachable.init, rfl, rfl⟩
  rw [loadOrCreate, if_neg hpath]
  cases hread : o.read with
  | some err => exact hstart.step (.open (some err)) rfl
  | none =>
    generalize hinitial : fs path = initial at hstart ⊢
    cases initial with
    | some f =>
      have hstat := (hstart.step (.open none) rfl).readAll
      cases hcheck : checkPrivateFile windows path (o.stat.elim (.ok f.mode) .error) with
      | error err =>
        exact hstat.step (.stat o.stat) (by simp only [procStep, hcheck, hinitial])
      | ok => exact hstat.step (.stat o.stat) (by simp only [procStep, hcheck, hinitial])
    | none =>
      have hfresh := hstart.step (.open none) rfl
      cases hnew : new relayURL o with
      | error err =>
        simp only [hinitial]
        exact hfresh.step (.generate o) (by simp only [procStep, hnew])
      | ok c =>
        have hmkdir : Gets windows parse path relayURL target none (.mkdirAll c o.now) none :=
          hfresh.step (.generate o) (by simp only [procStep, hnew])
        cases hmk : o.mkdirAll with
        | some err =>
          simp only [hinitial]
          exact hmkdir.step (.mkdirAll (some err)) rfl
        | none =>
          have hopen := hmkdir.step (.mkdirAll none) rfl
          cases hop : o.openFile with
          | some err =>
            simp only [hinitial]
            exact hopen.step (.openFile (some err) o.mask) rfl
          | none =>
            have hwriting := hopen.step (.openFile none o.mask) rfl
            cases hwr : o.write with
            | some failure =>
              simp only [Function.update_self]
              exact hwriting.writeFail (hwrite c _ _ hwr)
            | none =>
              have hsyncing := hwriting.step (.write _) (procStep_writeAll c o.now _)
              cases hsync : o.sync with
              | some err =>
                simp only [Function.update_self]
                exact hsyncing.step (.sync (some err)) rfl
              | none =>
                have hclosing := hsyncing.step (.sync none) rfl
                cases hclose : o.close with
                | some err =>
                  simp only [Function.update_self]
                  exact hclosing.step (.close (some err)) rfl
                | none =>
                  simp only [Function.update_self]
                  exact hclosing.step (.close none) rfl

end Alone

section Agreement

variable (parse : Bytes → Bool) (relayURL target : Bytes) (initial : Option File)

/-- A result that the others agree with: the ids of the created code, or what the file that was
there holds. -/
def Agrees (creator : Option (ℕ × Code × Time)) (d : Code) : Prop :=
  match creator with
  | some (_, c, _) => d.routeID = c.routeID ∧ d.psk = c.psk
  | none => ∃ f, initial = some f ∧ interpret parse f.content relayURL target = .ok d

/-- What holds of a process at each point. -/
def Sound (file : Option File) (creator : Option (ℕ × Code × Time)) (i : ℕ) : Pc → Prop
  | .fresh => initial = none
  | .mkdirAll c _ => initial = none ∧ c.validate = .ok ()
  | .openFile c _ => initial = none ∧ c.validate = .ok ()
  | .reading got => ∃ f, file = some f ∧ got <+: f.content
  | .stat got => ∃ f, file = some f ∧ got <+: f.content ∧ (initial.isSome → got = f.content)
  | .writing c now written => creator = some (i, c, now) ∧
      ∃ mode, file = some ⟨(stateText target c now).take written, mode⟩
  | .syncing c now => creator = some (i, c, now)
  | .closing c now => creator = some (i, c, now)
  | .returned (.ok d) => Agrees parse relayURL target initial creator d
  | _ => True

/-- The invariant of a shared state file. -/
structure Consistent (s : Shared) : Prop where
  inherited : ∀ f, initial = some f → s.file = some f ∧ s.creator = none
  absent : s.file = none → s.creator = none
  created : ∀ f, s.file = some f → initial = none → ∃ i c now, s.creator = some (i, c, now) ∧
    c.validate = .ok () ∧ f.content <+: stateText target c now
  procs : ∀ i, Sound parse relayURL target initial s.file s.creator i (s.procs i)

variable {parse relayURL target initial} {s : Shared}

theorem sound_of_failed {file : Option File} {creator : Option (ℕ × Code × Time)} {i : ℕ} {pc : Pc}
    (h : pc.Failed) : Sound parse relayURL target initial file creator i pc := by
  cases pc with
  | returned result =>
    cases result with
    | error err => trivial
    | ok d => cases h
  | killed => trivial
  | _ => cases h

theorem nextCreator_of_pc {i : ℕ} {pc : Pc} (hpc : ∀ c now n, pc ≠ .writing c now n) :
    nextCreator s i pc = s.creator := by
  unfold nextCreator
  split
  · exact absurd rfl (hpc _ _ _)
  · rfl

/-- A step that leaves the file and its creator alone. -/
theorem Consistent.keep (h : Consistent parse relayURL target initial s) {i : ℕ} {pc : Pc}
    (hwriting : ∀ c now n, pc ≠ .writing c now n)
    (hpc : Sound parse relayURL target initial s.file s.creator i pc) :
    Consistent parse relayURL target initial
      ⟨s.file, Function.update s.procs i pc, nextCreator s i pc⟩ := by
  rw [nextCreator_of_pc hwriting]
  refine ⟨h.inherited, h.absent, h.created, ?_⟩
  exact (Function.forall_update_iff s.procs
    (Sound parse relayURL target initial s.file s.creator)).mpr ⟨hpc, fun j _ ↦ h.procs j⟩

/-- Before the file is created nobody has read from it, and nobody has returned a code. -/
theorem Sound.created {file : Option File} {creator : Option (ℕ × Code × Time)} {j : ℕ} {pc : Pc}
    (hinitial : initial = none) (h : Sound parse relayURL target initial none none j pc) :
    Sound parse relayURL target initial file creator j pc := by
  cases pc with
  | returned result =>
    cases result with
    | error err => trivial
    | ok d =>
      obtain ⟨f, hf, -⟩ := h
      rw [hinitial] at hf
      cases hf
  | start => trivial
  | killed => trivial
  | fresh => exact hinitial
  | mkdirAll c now => exact h
  | openFile c now => exact h
  | _ => exact absurd h (by simp [Sound])

/-- The exclusive create: nobody could have read or written before. -/
theorem Consistent.create (h : Consistent parse relayURL target initial s) {i : ℕ} {c : Code}
    {now : Time} (mode : ℕ) (hfile : s.file = none) (hi : s.procs i = .openFile c now) :
    Consistent parse relayURL target initial
      ⟨some ⟨[], mode⟩, Function.update s.procs i (.writing c now 0), some (i, c, now)⟩ := by
  obtain ⟨hinitial, hvalidate⟩ : initial = none ∧ c.validate = .ok () := by
    have hsound := h.procs i
    rwa [hi] at hsound
  refine ⟨?_, nofun, ?_, ?_⟩
  · intro f hf
    rw [hinitial] at hf
    cases hf
  · rintro f ⟨⟩ -
    exact ⟨i, c, now, rfl, hvalidate, List.nil_prefix⟩
  · refine (Function.forall_update_iff s.procs (Sound parse relayURL target initial _ _)).mpr
      ⟨⟨rfl, _, rfl⟩, fun j _ ↦ ?_⟩
    have hsound := h.procs j
    rw [hfile, h.absent hfile] at hsound
    exact hsound.created hinitial

/-- When the creator writes more, what another process has read is still a beginning. -/
theorem Sound.grow {f f' : File} {i j : ℕ} {c : Code} {now : Time} {pc : Pc}
    (hinitial : initial = none) (hj : j ≠ i) (hgrow : f.content <+: f'.content)
    (h : Sound parse relayURL target initial (some f) (some (i, c, now)) j pc) :
    Sound parse relayURL target initial (some f') (some (i, c, now)) j pc := by
  cases pc with
  | reading got =>
    obtain ⟨f, ⟨⟩, hgot⟩ := h
    exact ⟨_, rfl, hgot.trans hgrow⟩
  | stat got =>
    obtain ⟨f, ⟨⟩, hgot, -⟩ := h
    exact ⟨_, rfl, hgot.trans hgrow, fun hsome ↦ by simp [hinitial] at hsome⟩
  | writing c' now' written =>
    obtain ⟨⟨⟩, -⟩ := h
    exact absurd rfl hj
  | returned result =>
    cases result with
    | error err => trivial
    | ok d => exact h
  | _ => exact h

/-- Where a process has created the file there was none. -/
theorem Consistent.initial_none (h : Consistent parse relayURL target initial s)
    {creator : ℕ × Code × Time} (hcreator : s.creator = some creator) : initial = none := by
  cases hinitial : initial with
  | none => rfl
  | some f =>
    have hnone := (h.inherited f hinitial).2
    rw [hcreator] at hnone
    cases hnone

/-- The creator writes more of its text; everything read before is still the beginning. -/
theorem Consistent.write (h : Consistent parse relayURL target initial s) {i : ℕ} {c : Code}
    {now : Time} {written n : ℕ} {f : File} {pc : Pc} (hfile : s.file = some f)
    (hi : s.procs i = .writing c now written)
    (hpc : pc = .syncing c now ∨
      pc = .writing c now (written + (((stateText target c now).drop written).take n).length)) :
    Consistent parse relayURL target initial
      ⟨some (f.writeAt written (((stateText target c now).drop written).take n)),
        Function.update s.procs i pc, s.creator⟩ := by
  obtain ⟨hcreator, mode, hcontent⟩ : s.creator = some (i, c, now) ∧
      ∃ mode, s.file = some ⟨(stateText target c now).take written, mode⟩ := by
    have hsound := h.procs i
    rwa [hi] at hsound
  rw [hfile] at hcontent
  cases hcontent
  have hinitial := h.initial_none hcreator
  obtain ⟨_, _, _, hcreator', hvalidate, -⟩ := h.created _ hfile hinitial
  rw [hcreator] at hcreator'
  cases hcreator'
  rw [File.writeAt_take]
  refine ⟨?_, nofun, ?_, ?_⟩
  · intro f hf
    rw [hinitial] at hf
    cases hf
  · rintro f ⟨⟩ -
    exact ⟨i, c, now, hcreator, hvalidate, List.take_prefix _ _⟩
  · refine (Function.forall_update_iff s.procs (Sound parse relayURL target initial _ _)).mpr
      ⟨?_, fun j hj ↦ ?_⟩
    · rcases hpc with rfl | rfl
      · exact hcreator
      · exact ⟨hcreator, mode, rfl⟩
    · have hsound := h.procs j
      rw [hfile, hcreator] at hsound
      rw [hcreator]
      exact hsound.grow hinitial hj (List.take_prefix_take_left (Nat.le_add_right written _))

/-- The file of a loading process is the one that was there, or what the creator has written. -/
theorem Consistent.load (h : Consistent parse relayURL target initial s) {f : File} {got : Bytes}
    (hfile : s.file = some f) (hgot : got <+: f.content)
    (hwhole : initial.isSome → got = f.content) (i : ℕ) :
    Sound parse relayURL target initial s.file s.creator i
      (.returned (interpret parse got relayURL target)) := by
  cases hresult : interpret parse got relayURL target with
  | error err => trivial
  | ok d =>
    change Agrees parse relayURL target initial s.creator d
    cases hinitial : initial with
    | some f0 =>
      obtain ⟨hfile0, hcreator⟩ := h.inherited f0 hinitial
      rw [hfile] at hfile0
      cases hfile0
      rw [hwhole (by simp [hinitial])] at hresult
      rw [hcreator]
      exact ⟨f, rfl, hresult⟩
    | none =>
      obtain ⟨j, c, now, hcreator, hvalidate, hcontent⟩ := h.created f hfile hinitial
      rw [hcreator]
      exact interpret_beginning hvalidate (hgot.trans hcontent) hresult

theorem nextCreator_of_file {i : ℕ} {pc : Pc} {f : File} (hfile : s.file = some f) :
    nextCreator s i pc = s.creator := by
  simp [nextCreator, hfile]

theorem Consistent.move (h : Consistent parse relayURL target initial s) {i : ℕ} {pc : Pc}
    {file : Option File} (hmove : ProcMove parse relayURL target s.file (s.procs i) pc file) :
    Consistent parse relayURL target initial
      ⟨file, Function.update s.procs i pc, nextCreator s i pc⟩ := by
  have hsound := h.procs i
  generalize hold : s.procs i = old at hmove hsound
  cases hmove with
  | fail hfailed =>
    exact h.keep (by rintro c now n rfl; exact hfailed) (sound_of_failed hfailed)
  | missing hfile =>
    refine h.keep (by nofun) ?_
    cases hinitial : initial with
    | none => rfl
    | some f =>
      have hsome := (h.inherited f hinitial).1
      rw [hfile] at hsome
      cases hsome
  | found hfile =>
    exact h.keep (by nofun) ⟨_, hfile, List.nil_prefix⟩
  | read hfile hlt =>
    obtain ⟨f', hfile', hgot⟩ := hsound
    rw [hfile] at hfile'
    cases hfile'
    exact h.keep (by nofun) ⟨_, hfile, File.append_piece_beginning hgot _⟩
  | eof hfile hle =>
    obtain ⟨f', hfile', hgot⟩ := hsound
    rw [hfile] at hfile'
    cases hfile'
    exact h.keep (by nofun) ⟨_, hfile, hgot, fun _ ↦ hgot.eq_of_length_le hle⟩
  | load hfile =>
    obtain ⟨f', hfile', hgot, hwhole⟩ := hsound
    exact h.keep (by nofun) (h.load hfile' hgot hwhole i)
  | generate hvalidate =>
    exact h.keep (by nofun) ⟨hsound, hvalidate⟩
  | mkdirAll =>
    exact h.keep (by nofun) hsound
  | @create c now mask hfile =>
    have hcreator : nextCreator s i (.writing c now 0) = some (i, c, now) := by
      simp [nextCreator, hfile, hold]
    rw [hcreator]
    exact h.create _ hfile hold
  | write hfile hpc =>
    rw [nextCreator_of_file hfile]
    exact h.write hfile hold hpc
  | sync =>
    exact h.keep (by nofun) hsound
  | close =>
    refine h.keep (by nofun) ?_
    change Agrees parse relayURL target initial s.creator _
    rw [show s.creator = _ from hsound]
    exact ⟨rfl, rfl⟩

/-- Every reachable state is consistent. -/
theorem consistent_of_reachable {windows : Bool} {path : Bytes}
    (hs : (sharing windows parse path relayURL target initial).Reachable s) :
    Consistent parse relayURL target initial s := by
  refine Machine.invariant ?_ ?_ hs
  · refine ⟨fun f hf ↦ ⟨hf, rfl⟩, fun _ ↦ rfl, ?_, fun _ ↦ trivial⟩
    intro f hf hinitial
    exact absurd (hf.symm.trans hinitial) nofun
  · rintro s ⟨i, act⟩ t - h hstep
    obtain ⟨⟨pc, file⟩, hmove, rfl⟩ := Option.map_eq_some_iff.mp hstep
    exact h.move (procMove_of_procStep hmove)

/-- Only its creator changes a file. -/
theorem creator_of_changed {windows : Bool} {path : Bytes} {t : Shared} {i : ℕ} {act : Act}
    (hs : (sharing windows parse path relayURL target initial).Reachable s)
    (hstep : (sharing windows parse path relayURL target initial).step s (i, act) = some t)
    (hfile : s.file.isSome) (hchanged : t.file ≠ s.file) :
    ∃ c now, s.creator = some (i, c, now) := by
  obtain ⟨⟨pc, file⟩, hmove, rfl⟩ := Option.map_eq_some_iff.mp hstep
  have hmove := procMove_of_procStep hmove
  have hsound := (consistent_of_reachable hs).procs i
  generalize s.procs i = old at hmove hsound
  cases hmove with
  | create hnone => simp [hnone] at hfile
  | write hsome hpc => exact ⟨_, _, hsound.1⟩
  | _ => exact absurd rfl hchanged

/-- However many processes load or create one state file, and whatever fails: all that
succeed hold the same route id and key, and a process never changes a file that it has not
created. -/
theorem loadOrCreate_concurrent (windows : Bool) (parse : Bytes → Bool)
    (path relayURL target : Bytes) (initial : Option File)
    (hs : (sharing windows parse path relayURL target initial).Reachable s) :
    (∀ i j c d, s.procs i = .returned (.ok c) → s.procs j = .returned (.ok d) →
      c.routeID = d.routeID ∧ c.psk = d.psk) ∧
    ∀ i act t, (sharing windows parse path relayURL target initial).step s (i, act) = some t →
      s.file.isSome → t.file ≠ s.file → ∃ c now, s.creator = some (i, c, now) := by
  have hconsistent := consistent_of_reachable hs
  constructor
  · intro i j c d hi hj
    have hc := hconsistent.procs i
    have hd := hconsistent.procs j
    rw [hi] at hc
    rw [hj] at hd
    cases hcreator : s.creator with
    | some created =>
      obtain ⟨k, e, now⟩ := created
      rw [hcreator] at hc hd
      exact ⟨hc.1.trans hd.1.symm, hc.2.trans hd.2.symm⟩
    | none =>
      rw [hcreator] at hc hd
      obtain ⟨f, hf, hc⟩ := hc
      obtain ⟨f', hf', hd⟩ := hd
      cases hf.symm.trans hf'
      cases hc.symm.trans hd
      exact ⟨rfl, rfl⟩
  · intro i act t hstep
    exact creator_of_changed hs hstep

/-- One process creates the file and the other reads it while it is being written. -/
def creatingAndReading : List (ℕ × Act) :=
  [(0, .open none), (0, .generate smooth), (0, .mkdirAll none), (0, .openFile none 0o755),
    (0, .write 20), (1, .open none), (1, .read 4), (0, .write 4096), (1, .read 4096),
    (1, .read 0), (0, .sync none), (1, .stat none), (0, .close none)]

def Pc.holds (pc : Pc) (c : Code) : Bool :=
  match pc with
  | .returned (.ok d) => d == c
  | _ => false

theorem Pc.returned_of_holds {pc : Pc} {c : Code} (h : pc.holds c = true) :
    pc = .returned (.ok c) := by
  unfold Pc.holds at h
  split at h
  · rw [eq_of_beq h]
  · cases h

theorem loadOrCreate_concurrent_reader :
    ∃ s c d, (sharing false (fun _ ↦ false) (literal "state") (literal "https://relay.example")
        (literal "localhost:22") none).Reachable s ∧
      s.procs 0 = .returned (.ok c) ∧ s.procs 1 = .returned (.ok d) ∧
      c.routeID = d.routeID ∧ c.psk = d.psk := by
  obtain ⟨s, hexec, hfirst, hsecond⟩ := Machine.exists_of_exec
    (M := sharing false (fun _ ↦ false) (literal "state") (literal "https://relay.example")
      (literal "localhost:22") none)
    (s := ⟨none, fun _ ↦ .start, none⟩) creatingAndReading
    (fun s ↦ (s.procs 0).holds
        ⟨literal "https://relay.example", List.replicate 16 7, List.replicate 32 9⟩ = true ∧
      (s.procs 1).holds
        ⟨literal "https://relay.example", List.replicate 16 7, List.replicate 32 9⟩ = true)
    (by decide +kernel)
  have hreach := Machine.reaches_of_exec creatingAndReading hexec
  have hfirst := Pc.returned_of_holds hfirst
  have hsecond := Pc.returned_of_holds hsecond
  exact ⟨s, _, _, hreach, hfirst, hsecond,
    (loadOrCreate_concurrent _ _ _ _ _ _ hreach).1 0 1 _ _ hfirst hsecond⟩

end Agreement

end RelayCat.AccessCode
