import RelayCat.Go.Csv
import RelayCat.Go.Strconv
import Mathlib.Algebra.Order.BigOperators.Group.List
import Mathlib.Data.List.Sort

/-!
# Commands with flags

What a command of cobra does before its body runs, with the flags of pflag: the flags on the
command line are set and marked as changed, help is given if it was asked for there, the
arguments are validated, a hook may set flags further, and then required flags and groups of
flags that exclude each other are checked by their marks. Every command has a flag for help. A
flag of several strings is replaced when it is first set and extended after that.

Flags are set one by one in a map from their names, so that what is set last for one name is
what the settings with that name do alone.
-/

namespace RelayCat.Cobra

open Go Utf8

section Keyed

variable {ε ι σ α : Type} [DecidableEq ι]

/-- Steps that each change the entry at one key. -/
def updateAll (key : α → ι) (step : σ → α → Except ε σ) (st : ι → σ) (l : List α) :
    Except ε (ι → σ) :=
  l.foldlM (fun st a ↦ (step (st (key a)) a).map (Function.update st (key a))) st

theorem bind_eq_ok_iff {β : Type} {x : Except ε α} {f : α → Except ε β} {b : β} :
    x >>= f = .ok b ↔ ∃ a, x = .ok a ∧ f a = .ok b := by
  cases x with
  | error e => exact ⟨nofun, fun h ↦ by simp at h⟩
  | ok a => exact ⟨fun h ↦ ⟨a, rfl, h⟩, fun ⟨_, ha, h⟩ ↦ by cases ha; exact h⟩

theorem map_eq_ok_iff {β : Type} {x : Except ε α} {f : α → β} {b : β} :
    x.map f = .ok b ↔ ∃ a, x = .ok a ∧ f a = b := by
  cases x with
  | error e => exact ⟨nofun, fun h ↦ by simp at h⟩
  | ok a => exact ⟨fun h ↦ ⟨a, rfl, Except.ok.inj h⟩, fun ⟨_, ha, h⟩ ↦ by cases ha; rw [← h]; rfl⟩

/-- The entry at a key is what the steps of that key make of it. -/
theorem updateAll_eq_ok_iff {key : α → ι} {step : σ → α → Except ε σ} {st st' : ι → σ}
    {l : List α} :
    updateAll key step st l = .ok st' ↔
      ∀ k, (l.filter fun a ↦ key a = k).foldlM step (st k) = .ok (st' k) := by
  induction l generalizing st with
  | nil =>
    constructor
    · intro h k
      cases h
      rfl
    · intro h
      exact congrArg Except.ok (funext fun k ↦ Except.ok.inj (h k))
  | cons a l ih =>
    have hstep : updateAll key step st (a :: l) = .ok st' ↔
        ∃ s, step (st (key a)) a = .ok s ∧
          updateAll key step (Function.update st (key a) s) l = .ok st' := by
      rw [updateAll, List.foldlM_cons, bind_eq_ok_iff]
      constructor
      · rintro ⟨t, ht, h⟩
        obtain ⟨s, hs, rfl⟩ := map_eq_ok_iff.mp ht
        exact ⟨s, hs, h⟩
      · rintro ⟨s, hs, h⟩
        exact ⟨_, map_eq_ok_iff.mpr ⟨s, hs, rfl⟩, h⟩
    rw [hstep]
    constructor
    · rintro ⟨s, hs, h⟩ k
      have hk := ih.mp h k
      by_cases hkey : key a = k
      · subst hkey
        rw [Function.update_self] at hk
        rw [List.filter_cons_of_pos (by simp), List.foldlM_cons, hs]
        exact hk
      · rw [Function.update_of_ne (Ne.symm hkey)] at hk
        rwa [List.filter_cons_of_neg (by simpa using hkey)]
    · intro h
      have ha := h (key a)
      rw [List.filter_cons_of_pos (by simp), List.foldlM_cons, bind_eq_ok_iff] at ha
      obtain ⟨s, hs, hrest⟩ := ha
      refine ⟨s, hs, ih.mpr fun k ↦ ?_⟩
      by_cases hkey : k = key a
      · subst hkey
        rwa [Function.update_self]
      · rw [Function.update_of_ne hkey]
        have hk := h k
        rwa [List.filter_cons_of_neg (by simpa using Ne.symm hkey)] at hk

theorem exists_updateAll {key : α → ι} {step : σ → α → Except ε σ} {st : ι → σ} {l : List α}
    (h : ∀ k, ∃ s, (l.filter fun a ↦ key a = k).foldlM step (st k) = .ok s) :
    ∃ st', updateAll key step st l = .ok st' := by
  choose st' hst' using h
  exact ⟨st', updateAll_eq_ok_iff.mpr hst'⟩

end Keyed

section Flags

inductive Kind where
  | string
  | bool
  | int
  | duration
  | stringSlice
  deriving DecidableEq, Repr

inductive Value where
  | string (v : Bytes)
  | bool (v : Bool)
  | int (v : ℤ)
  | duration (nanoseconds : ℤ)
  | stringSlice (v : List Bytes)
  deriving DecidableEq, Repr

namespace Value

def kind : Value → Kind
  | string _ => .string
  | bool _ => .bool
  | int _ => .int
  | duration _ => .duration
  | stringSlice _ => .stringSlice

def text : Value → Bytes
  | string v => v
  | _ => []

def isTrue : Value → Bool
  | bool v => v
  | _ => false

/-- An integer, or a duration in nanoseconds. -/
def number : Value → ℤ
  | int v => v
  | duration nanoseconds => nanoseconds
  | _ => 0

def strings : Value → List Bytes
  | stringSlice v => v
  | _ => []

/-- A value set on top of another one. -/
def join : Value → Value → Value
  | stringSlice old, stringSlice new => stringSlice (old ++ new)
  | _, new => new

theorem join_of_kind {old new : Value} (h : new.kind ≠ .stringSlice) : old.join new = new := by
  cases new with
  | stringSlice v => exact absurd rfl h
  | _ => cases old <;> rfl

end Value

structure Flag where
  name : String
  default : Value
  deriving DecidableEq, Repr

def Flag.kind (f : Flag) : Kind := f.default.kind

/-- A flag with its mark; `stored` is the mark that a flag of several strings keeps itself. -/
structure FlagState where
  value : Value
  changed : Bool
  stored : Bool
  deriving DecidableEq, Repr

abbrev FlagSet := String → FlagState

def FlagSet.values (st : FlagSet) (name : String) : Value := (st name).value

def readAsCSV (text : Bytes) : Option (List Bytes) := if text = [] then some [] else Csv.read text

/-- `time.ParseDuration` is a parameter. -/
abbrev ParseDuration := Bytes → Option ℤ

variable (parseDuration : ParseDuration)

/-- The value of a text for a flag of some kind. -/
def parse : Kind → Bytes → Option Value
  | .string, text => some (.string text)
  | .bool, text => (Strconv.parseBool text).map .bool
  | .int, text => (Strconv.parseInt text).map .int
  | .duration, text => (parseDuration text).map .duration
  | .stringSlice, text => (readAsCSV text).map .stringSlice

/-- `flag.Value.Set`. -/
def FlagState.set (s : FlagState) (k : Kind) (text : Bytes) : Option FlagState :=
  (parse parseDuration k text).map fun v ↦
    ⟨if s.stored then s.value.join v else v, s.changed, true⟩

theorem kind_of_parse {k : Kind} {text : Bytes} {v : Value}
    (h : parse parseDuration k text = some v) : v.kind = k := by
  cases k with
  | string =>
    cases h
    rfl
  | _ =>
    obtain ⟨_, -, rfl⟩ := Option.map_eq_some_iff.mp h
    rfl

/-- The value that the texts given for a flag have together: of several strings all of them,
of another kind the last. -/
def parseTexts (k : Kind) : List Bytes → Option Value
  | [] => none
  | text :: texts =>
    (parse parseDuration k text).bind fun v ↦
      texts.foldlM (fun v text ↦ (parse parseDuration k text).map v.join) v

/-- Of the texts for a flag of one value the last one counts. -/
theorem parse_getLast? {k : Kind} (hk : k ≠ .stringSlice) {texts : List Bytes} {v : Value}
    (h : parseTexts parseDuration k texts = some v) :
    texts.getLast?.bind (parse parseDuration k) = some v := by
  have hlast {text : Bytes} {texts : List Bytes} {old : Value}
      (htext : parse parseDuration k text = some old)
      (hrest : texts.foldlM (fun v text ↦ (parse parseDuration k text).map v.join) old = some v) :
      (text :: texts).getLast?.bind (parse parseDuration k) = some v := by
    induction texts generalizing text old with
    | nil =>
      cases hrest
      exact htext
    | cons next texts ih =>
      rw [List.foldlM_cons] at hrest
      obtain ⟨joined, hjoined, hrest⟩ := Option.bind_eq_some_iff.mp hrest
      obtain ⟨new, hnew, rfl⟩ := Option.map_eq_some_iff.mp hjoined
      rw [Value.join_of_kind (by rwa [kind_of_parse parseDuration hnew])] at hrest
      rw [List.getLast?_cons_cons]
      exact ih hnew hrest
  cases texts with
  | nil => cases h
  | cons text texts =>
    obtain ⟨old, htext, hrest⟩ := Option.bind_eq_some_iff.mp h
    exact hlast htext hrest

/-- The strings in a text for a flag of several strings. -/
def csvFields (text : Bytes) : List Bytes := (readAsCSV text).getD []

section Several

variable {parseDuration} {texts : List Bytes} {v : Value}

theorem foldlM_stringSlice {acc : List Bytes}
    (h : texts.foldlM (fun v text ↦ (parse parseDuration .stringSlice text).map v.join)
      (Value.stringSlice acc) = some v) :
    (∀ text ∈ texts, readAsCSV text = some (csvFields text)) ∧
      v = .stringSlice (acc ++ texts.flatMap csvFields) := by
  induction texts generalizing acc with
  | nil =>
    cases h
    exact ⟨nofun, by simp⟩
  | cons text texts ih =>
    rw [List.foldlM_cons] at h
    cases hread : readAsCSV text with
    | none => simp [parse, hread] at h
    | some out =>
      have hfields : csvFields text = out := by rw [csvFields, hread, Option.getD_some]
      simp only [parse, hread, Option.map_some, Option.bind_eq_bind, Option.bind_some,
        Value.join] at h
      obtain ⟨hreads, hv⟩ := ih h
      rw [List.forall_mem_cons, List.flatMap_cons, hfields, ← List.append_assoc]
      exact ⟨⟨hread, hreads⟩, hv⟩

/-- Several texts for a flag of several strings are each read as comma-separated values. -/
theorem parseTexts_stringSlice (h : parseTexts parseDuration .stringSlice texts = some v) :
    (∀ text ∈ texts, readAsCSV text = some (csvFields text)) ∧
      v = .stringSlice (texts.flatMap csvFields) := by
  cases texts with
  | nil => cases h
  | cons text texts =>
    rw [parseTexts] at h
    cases hread : readAsCSV text with
    | none => simp [parse, hread] at h
    | some out =>
      have hfields : csvFields text = out := by rw [csvFields, hread, Option.getD_some]
      have hparse : parse parseDuration .stringSlice text = some (.stringSlice out) := by
        rw [parse, hread, Option.map_some]
      rw [hparse, Option.bind_some] at h
      obtain ⟨hreads, hv⟩ := foldlM_stringSlice h
      rw [List.forall_mem_cons, List.flatMap_cons, hfields]
      exact ⟨⟨hread, hreads⟩, hv⟩

end Several

section Verbatim

/-- A sum that is not below another one, term by term not above it, has the same terms. -/
theorem eq_of_sum_le {α : Type} {f g : α → ℕ} {l : List α} (h : ∀ a ∈ l, g a ≤ f a)
    (hsum : (l.map f).sum ≤ (l.map g).sum) : ∀ a ∈ l, g a = f a := by
  induction l with
  | nil => exact nofun
  | cons a l ih =>
    rw [List.forall_mem_cons] at h ⊢
    rw [List.map_cons, List.map_cons, List.sum_cons, List.sum_cons] at hsum
    have hrest : (l.map g).sum ≤ (l.map f).sum := List.sum_le_sum h.2
    exact ⟨by omega, ih h.2 (by omega)⟩

theorem readAsCSV_size {text : Bytes} {out : List Bytes} (h : readAsCSV text = some out) :
    out.flatten.length ≤ text.length ∧
      (out.flatten.length = text.length → out = [text] ∨ out = []) := by
  rw [readAsCSV] at h
  split_ifs at h with hempty
  · cases h
    exact ⟨Nat.zero_le _, fun _ ↦ Or.inr rfl⟩
  · have hsize := Csv.read_size h
    exact ⟨hsize.1, fun heq ↦ Or.inl (hsize.2 heq)⟩

/-- Texts are read as themselves together only if each is. -/
theorem readAsCSV_of_flatMap {texts : List Bytes}
    (h : ∀ text ∈ texts, readAsCSV text = some (csvFields text))
    (heq : texts.flatMap csvFields = texts) : ∀ text ∈ texts, readAsCSV text = some [text] := by
  have hbytes : ∀ text ∈ texts, (csvFields text).flatten.length = text.length := by
    apply eq_of_sum_le
    · intro text htext
      exact (readAsCSV_size (h text htext)).1
    · apply le_of_eq
      calc
        (texts.map List.length).sum = texts.flatten.length := List.length_flatten.symm
        _ = (texts.map csvFields).flatten.flatten.length := by rw [← List.flatMap_def, heq]
        _ = (texts.map fun text ↦ (csvFields text).flatten.length).sum := by
          rw [List.flatten_flatten, List.map_map, List.length_flatten, List.map_map]
          rfl
  have hshape : ∀ text ∈ texts, csvFields text = [text] ∨ csvFields text = [] := by
    intro text htext
    exact (readAsCSV_size (h text htext)).2 (hbytes text htext)
  have hcount : ∀ text ∈ texts, (csvFields text).length = 1 := by
    apply eq_of_sum_le
    · intro text htext
      rcases hshape text htext with hone | hnone
      · rw [hone, List.length_singleton]
      · rw [hnone]
        exact Nat.zero_le 1
    · have hlength := congrArg List.length heq
      rw [List.length_flatMap] at hlength
      rw [hlength]
      simp
  intro text htext
  rw [h text htext]
  rcases hshape text htext with hone | hnone
  · rw [hone]
  · have hone := hcount text htext
    rw [hnone] at hone
    cases hone

end Verbatim

end Flags

section Command

/-- The arguments that are no flags, and how many of them stood before `--`, if it was there. -/
structure Positional where
  args : List Bytes
  lenAtDash : Option ℕ
  deriving DecidableEq, Repr

def noArgs (path : String) (p : Positional) : Except Err Unit :=
  match p.args with
  | [] => .ok ()
  | arg :: _ =>
    .error (.new ("unknown command \"" ++ String.ofList (runes arg) ++ "\" for \"" ++ path ++ "\""))

def exactArgs (n : ℕ) (p : Positional) : Except Err Unit :=
  if p.args.length = n then .ok ()
  else .error (.new ("accepts " ++ toString n ++ " arg(s), received " ++ toString p.args.length))

def arbitraryArgs (_ : Positional) : Except Err Unit := .ok ()

/-- The flag that cobra adds to every command. -/
def helpFlag : Flag := ⟨"help", .bool false⟩

/-- `flag.ErrHelp`. -/
def errHelp : Err := .new "pflag: help requested"

structure Command where
  path : String
  flags : List Flag
  inherited : List Flag
  required : List String
  exclusive : List (String × String)
  validateArgs : (String → Value) → Positional → Except Err Unit

namespace Command

variable (parseDuration : ParseDuration) (cmd : Command)

/-- All flags of a command. -/
def all : List Flag := cmd.flags ++ helpFlag :: cmd.inherited

def find (name : String) : Option Flag := cmd.all.find? fun f ↦ f.name = name

def initial : FlagSet := fun name ↦
  match cmd.find name with
  | some f => ⟨f.default, false, false⟩
  | none => ⟨.string [], false, false⟩

/-- A flag on the command line, given by its name and text. -/
def parseStep (s : FlagState) (g : String × Bytes) : Except Err FlagState :=
  match cmd.find g.1 with
  | none => .error (.new ("unknown flag: --" ++ g.1))
  | some f =>
    match s.set parseDuration f.kind g.2 with
    | none => .error (.new ("invalid argument for \"--" ++ g.1 ++ "\" flag"))
    | some s => .ok { s with changed := true }

def parseFlags (given : List (String × Bytes)) : Except Err FlagSet :=
  updateAll Prod.fst (cmd.parseStep parseDuration) cmd.initial given

def validateRequiredFlags (st : FlagSet) : Except Err Unit :=
  match cmd.required.filter fun name ↦ (st name).changed = false with
  | [] => .ok ()
  | missing =>
    .error (.new ("required flag(s) \"" ++ "\", \"".intercalate missing ++ "\" not set"))

/-- If the flags on the command line ask for help. -/
def checkHelp (st : FlagSet) : Except Err Unit :=
  if (st.values "help").isTrue then .error errHelp else .ok ()

/-- The annotation of a group of two flags. -/
def group (pair : String × String) : String := pair.1 ++ " " ++ pair.2

/-- The groups are looked at in the order of their annotations, and the flags of the first one
that fails are reported in the order of their names. -/
def validateFlagGroups (st : FlagSet) : Except Err Unit :=
  match (cmd.exclusive.insertionSort fun a b ↦ group a ≤ group b).find?
      fun pair ↦ (st pair.1).changed && (st pair.2).changed with
  | none => .ok ()
  | some pair =>
    .error (.new ("if any flags in the group [" ++ group pair ++
      "] are set none of the others can be; [" ++
      " ".intercalate ([pair.1, pair.2].insertionSort (· ≤ ·)) ++ "] were all set"))

/-- The values that the body of the command sees, if it runs. -/
def execute (preRun : FlagSet → Except Err FlagSet) (given : List (String × Bytes))
    (p : Positional) : Except Err (String → Value) := do
  let st ← cmd.parseFlags parseDuration given
  checkHelp st
  cmd.validateArgs st.values p
  let st ← preRun st
  cmd.validateRequiredFlags st
  cmd.validateFlagGroups st
  pure st.values

variable {parseDuration cmd} {given : List (String × Bytes)}

theorem validateRequiredFlags_eq_ok_iff {st : FlagSet} :
    cmd.validateRequiredFlags st = .ok () ↔ ∀ name ∈ cmd.required, (st name).changed = true := by
  unfold validateRequiredFlags
  cases hmissing : cmd.required.filter fun name ↦ (st name).changed = false with
  | nil => simpa using List.filter_eq_nil_iff.mp hmissing
  | cons name missing =>
    have hname := List.mem_filter.mp (hmissing ▸ List.mem_cons_self)
    refine ⟨nofun, fun h ↦ ?_⟩
    have hchanged := h name hname.1
    simp [hchanged] at hname

theorem validateFlagGroups_eq_ok_iff {st : FlagSet} :
    cmd.validateFlagGroups st = .ok () ↔
      ∀ pair ∈ cmd.exclusive, ¬ ((st pair.1).changed = true ∧ (st pair.2).changed = true) := by
  unfold validateFlagGroups
  cases hfind : (cmd.exclusive.insertionSort fun a b ↦ group a ≤ group b).find?
      fun pair ↦ (st pair.1).changed && (st pair.2).changed with
  | none => simpa using List.find?_eq_none.mp hfind
  | some pair =>
    refine ⟨nofun, fun h ↦ ?_⟩
    have hboth := List.find?_some hfind
    have hpair : pair ∈ cmd.exclusive := by
      simpa using List.mem_of_find?_eq_some hfind
    exact absurd (Bool.and_eq_true_iff.mp hboth) (h pair hpair)

theorem checkHelp_eq_ok_iff {st : FlagSet} :
    checkHelp st = .ok () ↔ (st.values "help").isTrue = false := by
  unfold checkHelp
  split_ifs with hhelp
  · simp [hhelp]
  · simpa using hhelp

/-- What a command has gone through when its body runs. -/
theorem execute_eq_ok_iff {preRun : FlagSet → Except Err FlagSet} {p : Positional}
    {values : String → Value} :
    cmd.execute parseDuration preRun given p = .ok values ↔
      ∃ st st', cmd.parseFlags parseDuration given = .ok st ∧
        (st.values "help").isTrue = false ∧ cmd.validateArgs st.values p = .ok () ∧
        preRun st = .ok st' ∧ (∀ name ∈ cmd.required, (st' name).changed = true) ∧
        (∀ pair ∈ cmd.exclusive, ¬ ((st' pair.1).changed = true ∧ (st' pair.2).changed = true)) ∧
        st'.values = values := by
  simp only [execute, bind_eq_ok_iff, ← checkHelp_eq_ok_iff, ← validateRequiredFlags_eq_ok_iff,
    ← validateFlagGroups_eq_ok_iff]
  constructor
  · rintro ⟨st, hparse, ⟨⟩, hhelp, ⟨⟩, hargs, st', hpre, ⟨⟩, hrequired, ⟨⟩, hgroups, hvalues⟩
    exact ⟨st, st', hparse, hhelp, hargs, hpre, hrequired, hgroups, Except.ok.inj hvalues⟩
  · rintro ⟨st, st', hparse, hhelp, hargs, hpre, hrequired, hgroups, rfl⟩
    exact ⟨st, hparse, (), hhelp, (), hargs, st', hpre, (), hrequired, (), hgroups, rfl⟩

/-- The texts given for a flag. -/
def texts (given : List (String × Bytes)) (name : String) : List Bytes :=
  (given.filter fun g ↦ g.1 = name).map Prod.snd

/-- Help was asked for on the command line: the last text for it says so. -/
def helpAsked (given : List (String × Bytes)) : Bool :=
  ((texts given "help").getLast?.bind Strconv.parseBool).getD false

theorem find_eq_some (hnodup : (cmd.all.map Flag.name).Nodup) {f : Flag} (hf : f ∈ cmd.all) :
    cmd.find f.name = some f := by
  unfold find
  generalize cmd.all = l at hnodup hf
  induction l with
  | nil => cases hf
  | cons g l ih =>
    rw [List.map_cons, List.nodup_cons] at hnodup
    rcases List.mem_cons.mp hf with rfl | hf
    · rw [List.find?_cons_of_pos (by simp)]
    · have hne : g.name ≠ f.name := by
        intro heq
        apply hnodup.1
        rw [heq]
        exact List.mem_map_of_mem hf
      rw [List.find?_cons_of_neg (by simpa using hne)]
      exact ih hnodup.2 hf

/-- A flag that was given before is given again. -/
theorem foldlM_parseStep {f : Flag} (hfind : cmd.find f.name = some f) {l : List (String × Bytes)}
    (hl : ∀ g ∈ l, g.1 = f.name) {v : Value} {s : FlagState} :
    l.foldlM (cmd.parseStep parseDuration) ⟨v, true, true⟩ = .ok s ↔
      ∃ v', (l.map Prod.snd).foldlM
          (fun v text ↦ (parse parseDuration f.kind text).map v.join) v = some v' ∧
        s = ⟨v', true, true⟩ := by
  induction l generalizing v with
  | nil =>
    constructor
    · intro h
      exact ⟨v, rfl, (Except.ok.inj h).symm⟩
    · rintro ⟨v', hv, rfl⟩
      cases hv
      rfl
  | cons g l ih =>
    have hname := hl g List.mem_cons_self
    have hstep : cmd.parseStep parseDuration ⟨v, true, true⟩ g =
        match parse parseDuration f.kind g.2 with
        | none => .error (.new ("invalid argument for \"--" ++ g.1 ++ "\" flag"))
        | some w => .ok ⟨v.join w, true, true⟩ := by
      rw [parseStep, hname, hfind]
      simp only [FlagState.set]
      cases parse parseDuration f.kind g.2 with
      | none => rfl
      | some w => rfl
    rw [List.foldlM_cons, List.map_cons, List.foldlM_cons, hstep, bind_eq_ok_iff]
    cases parse parseDuration f.kind g.2 with
    | none => simp
    | some w =>
      have hrest := ih (v := v.join w) fun g' hg' ↦ hl g' (List.mem_cons_of_mem g hg')
      simp only [Except.ok.injEq, exists_eq_left', Option.map_some, Option.bind_eq_bind,
        Option.bind_some]
      exact hrest

/-- What a flag is after the command line was read. -/
theorem foldlM_parseStep_initial {f : Flag} (hfind : cmd.find f.name = some f) {s : FlagState} :
    (given.filter fun g ↦ g.1 = f.name).foldlM (cmd.parseStep parseDuration) (cmd.initial f.name) =
        .ok s ↔
      (texts given f.name = [] ∧ s = ⟨f.default, false, false⟩) ∨
        ∃ v, parseTexts parseDuration f.kind (texts given f.name) = some v ∧
          s = ⟨v, true, true⟩ := by
  have hinitial : cmd.initial f.name = ⟨f.default, false, false⟩ := by
    rw [initial, hfind]
  have hl : ∀ g ∈ given.filter fun g ↦ g.1 = f.name, g.1 = f.name := by
    intro g hg
    simpa using (List.mem_filter.mp hg).2
  rw [hinitial, texts]
  generalize (given.filter fun g ↦ g.1 = f.name) = l at hl
  cases l with
  | nil =>
    constructor
    · intro h
      exact Or.inl ⟨rfl, (Except.ok.inj h).symm⟩
    · rintro (⟨-, rfl⟩ | ⟨v, hv, -⟩)
      · rfl
      · cases hv
  | cons g l =>
    have hname := hl g List.mem_cons_self
    have hstep : cmd.parseStep parseDuration ⟨f.default, false, false⟩ g =
        match parse parseDuration f.kind g.2 with
        | none => .error (.new ("invalid argument for \"--" ++ g.1 ++ "\" flag"))
        | some w => .ok ⟨w, true, true⟩ := by
      rw [parseStep, hname, hfind]
      simp only [FlagState.set]
      cases parse parseDuration f.kind g.2 with
      | none => rfl
      | some w => rfl
    rw [List.foldlM_cons, hstep, bind_eq_ok_iff, List.map_cons, parseTexts]
    cases parse parseDuration f.kind g.2 with
    | none => simp
    | some w =>
      simp only [Except.ok.injEq, exists_eq_left', Option.bind_some, List.cons_ne_nil, false_and,
        false_or]
      exact foldlM_parseStep hfind fun g' hg' ↦ hl g' (List.mem_cons_of_mem g hg')

end Command

end Command

end RelayCat.Cobra
