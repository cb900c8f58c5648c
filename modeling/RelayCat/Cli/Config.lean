import RelayCat.Cli.Commands
import Mathlib.Data.List.Sort

/-!
# Configuration of the commands

`loadConfig` runs before the body of every command. A flag that was not given on the command line
takes the value of its environment variable or of the configuration file, printed as text and
parsed again by the flag. This does not mark the flag as changed.

The documented precedence therefore holds with three exceptions. A required flag must stand on
the command line. Flags that exclude each other must not both stand there, even if one of them
switches its option off. And a YAML list is printed in brackets, which never parses as the same
list. Besides, a command line that asks for help gets that instead. The flag for help is visited
like the others, so a malformed text that is configured for it stops every command.
-/

namespace RelayCat.Cli

open Go Utf8 Cobra Command

/-- A value in the configuration, as far as `loadConfig` tells values apart; `other` is known by
what `fmt.Sprint` prints. -/
inductive Setting where
  | string (v : Bytes)
  | bool (v : Bool)
  | int (v : ℤ)
  | list (items : List Bytes)
  | other (printed : Bytes)
  deriving DecidableEq, Repr

/-- `fmt.Sprint` of a list of strings. -/
def sprintList (items : List Bytes) : Bytes := 0x5b :: (List.intercalate [0x20] items ++ [0x5d])

def Setting.text : Setting → Bytes
  | string v => v
  | bool v => Strconv.formatBool v
  | int v => Strconv.formatInt v
  | list items => sprintList items
  | other printed => printed

abbrev ConfigFile := String → Option Setting

inductive ReadErr where
  | notFound
  | failed (err : Err)
  deriving DecidableEq, Repr

def ReadErr.err : ReadErr → Err
  | notFound => .new "config file not found"
  | failed err => err

/-- What a command finds outside its command line. -/
structure Surroundings where
  env : String → Option Bytes
  readConfigFile (path : Bytes) : Except ReadErr ConfigFile
  userConfigDir : Option Bytes
  readConfigDir (dir : Bytes) : Except ReadErr ConfigFile

/-- The name of the variable for a flag. -/
def envKey (name : String) : String :=
  String.ofList (("RELAYCAT_" ++ name).toList.map fun c ↦
    if c = '-' ∨ c = '.' then '_' else c.toUpper)

section Load

variable (parseDuration : ParseDuration) (sys : Surroundings) (config : ConfigFile)

/-- `v.Get`: a variable that is not empty, else the file. -/
def get (name : String) : Option Setting :=
  match (sys.env (envKey name)).filter fun v ↦ v ≠ [] with
  | some v => some (.string v)
  | none => config name

/-- The configuration file, by the path given, else in the user's directory. -/
def readConfig (path : Bytes) : Except Err ConfigFile :=
  if path ≠ [] then
    match sys.readConfigFile path with
    | .error e => .error (.errorf "reading config" e.err)
    | .ok config => .ok config
  else
    match sys.userConfigDir with
    | none => .ok fun _ ↦ none
    | some dir =>
      match sys.readConfigDir (dir ++ literal "/relaycat") with
      | .error .notFound => .ok fun _ ↦ none
      | .error (.failed err) => .error (.errorf "reading config" err)
      | .ok config => .ok config

def apply (s : FlagState) (f : Flag) : Except Err FlagState :=
  if s.changed then .ok s
  else
    match get sys config f.name with
    | none => .ok s
    | some setting =>
      match s.set parseDuration f.kind setting.text with
      | none =>
        .error (.errorf ("setting " ++ f.name ++ " from configuration") (.new "invalid value"))
      | some s => .ok s

/-- `VisitAll`: flags in the order of their names. -/
def visitAll (flags : List Flag) : List Flag := flags.insertionSort fun f g ↦ f.name ≤ g.name

def loadConfig (cmd : Command) (st : FlagSet) : Except Err FlagSet := do
  let config ← readConfig sys (st.values "config").text
  updateAll Flag.name (apply parseDuration sys config) st
    (visitAll cmd.all ++ visitAll cmd.inherited)

/-- The values that the body of a command sees. -/
def run (cmd : Command) (given : List (String × Bytes)) (p : Positional) :
    Except Err (String → Value) :=
  cmd.execute parseDuration (loadConfig parseDuration sys cmd) given p

end Load

section Precedence

variable (parseDuration : ParseDuration) (sys : Surroundings) (config : ConfigFile)
  (given : List (String × Bytes))

/-- What a setting means for a flag of some kind: a text is what the flag makes of it, and a
boolean, an integer or a list of strings is itself. -/
def Setting.meaning : Kind → Setting → Option Value
  | k, string v => parse parseDuration k v
  | .bool, bool v => some (.bool v)
  | .int, int v => if -2 ^ 63 ≤ v ∧ v < 2 ^ 63 then some (.int v) else none
  | .stringSlice, list items => some (.stringSlice items)
  | _, _ => none

/-- The value that a flag is documented to have: from the command line, else from the
environment, else from the file, else its default. There is none if the text is malformed. -/
def effective (f : Flag) : Option Value :=
  if texts given f.name ≠ [] then parseTexts parseDuration f.kind (texts given f.name)
  else
    match get sys config f.name with
    | some setting => setting.meaning parseDuration f.kind
    | none => some f.default

/-- The value that a flag has in the body of a command. -/
def seen (f : Flag) : Option Value :=
  if texts given f.name ≠ [] then parseTexts parseDuration f.kind (texts given f.name)
  else
    match get sys config f.name with
    | some setting => parse parseDuration f.kind setting.text
    | none => some f.default

/-- The documented values by name. -/
def effectiveValues (cmd : Command) (name : String) : Value :=
  match cmd.find name with
  | some f => (effective parseDuration sys config given f).getD f.default
  | none => .string []

/-- An option that is switched on. -/
def isOn : Value → Bool
  | .bool v => v
  | .string v => v ≠ []
  | _ => false

/-- The command line names flags of the command, the values are well-formed, and they meet the
command's constraints, wherever they come from. -/
structure Acceptable (cmd : Command) (p : Positional) : Prop where
  declared : ∀ g ∈ given, ∃ f ∈ cmd.all, f.name = g.1
  wellFormed : ∀ f ∈ cmd.all, ∃ v, effective parseDuration sys config given f = some v
  required : ∀ name ∈ cmd.required, texts given name ≠ [] ∨ get sys config name ≠ none
  exclusive : ∀ pair ∈ cmd.exclusive,
    ¬ (isOn (effectiveValues parseDuration sys config given cmd pair.1) ∧
      isOn (effectiveValues parseDuration sys config given cmd pair.2))
  validateArgs :
    cmd.validateArgs (effectiveValues parseDuration sys config given cmd) p = .ok ()

/-- The body of the command runs and sees the documented values. -/
def Configured (cmd : Command) (p : Positional) : Prop :=
  ∃ values, run parseDuration sys cmd given p = .ok values ∧
    ∀ f ∈ cmd.all, f.name ≠ "config" →
      effective parseDuration sys config given f = some (values f.name)

/-- The command line does not ask for help, required flags stand there, flags that exclude each
other do not both, and no flag of several strings takes its value from a list in the file. -/
structure Simple (cmd : Command) : Prop where
  help : helpAsked given = false
  required : ∀ name ∈ cmd.required, texts given name ≠ []
  exclusive : ∀ pair ∈ cmd.exclusive, ¬ (texts given pair.1 ≠ [] ∧ texts given pair.2 ≠ [])
  list : ∀ f ∈ cmd.all, f.kind = .stringSlice → texts given f.name = [] →
    ∀ items, get sys config f.name ≠ some (.list items)

end Precedence

section Text

variable {parseDuration : ParseDuration}

/-- A printed list is never read as that list. -/
theorem readAsCSV_sprintList (items : List Bytes) : readAsCSV (sprintList items) ≠ some items := by
  have hne : sprintList items ≠ [] := List.cons_ne_nil _ _
  rw [readAsCSV, if_neg hne]
  cases items with
  | nil => decide +kernel
  | cons x xs =>
    have hshape : ∃ c more, c ≠ Csv.newline ∧ sprintList (x :: xs) = 0x5b :: (x ++ c :: more) := by
      cases xs with
      | nil => exact ⟨0x5d, [], by decide, by simp [sprintList, List.intercalate]⟩
      | cons y ys =>
        refine ⟨0x20, List.intercalate [0x20] (y :: ys) ++ [0x5d], by decide, ?_⟩
        simp [sprintList, List.intercalate, List.intersperse]
    obtain ⟨c, more, hc, hshape⟩ := hshape
    rw [hshape]
    exact Csv.read_ne_of_longer (by decide) (by decide) hc

/-- Printing a setting and parsing the text gives its meaning, except for lists. -/
theorem parse_text {k : Kind} {setting : Setting} {v : Value}
    (h : setting.meaning parseDuration k = some v) (hlist : ∀ items, setting ≠ .list items) :
    parse parseDuration k setting.text = some v := by
  cases setting with
  | string t => exact h
  | bool b =>
    cases k with
    | bool =>
      cases h
      rw [parse, Setting.text, Strconv.parseBool_formatBool, Option.map_some]
    | _ => cases h
  | int n =>
    cases k with
    | int =>
      rw [Setting.meaning] at h
      split_ifs at h with hrange
      cases h
      rw [parse, Setting.text, Strconv.parseInt_formatInt hrange.1 hrange.2, Option.map_some]
    | _ => cases h
  | list items => exact absurd rfl (hlist items)
  | other printed => cases k <;> cases h

theorem meaning_list {k : Kind} {items : List Bytes} {v : Value}
    (h : (Setting.list items).meaning parseDuration k = some v) :
    k = .stringSlice ∧ v = .stringSlice items := by
  cases k with
  | stringSlice =>
    cases h
    exact ⟨rfl, rfl⟩
  | _ => cases h

end Text

section Visit

variable {l : List Flag} {f : Flag}

theorem filter_name {l : List Flag} (hnodup : (l.map Flag.name).Nodup) (hf : f ∈ l) :
    (l.filter fun g ↦ g.name = f.name) = [f] := by
  induction l with
  | nil => cases hf
  | cons g l ih =>
    rw [List.map_cons, List.nodup_cons] at hnodup
    rcases List.mem_cons.mp hf with rfl | hf
    · have hnone : (l.filter fun g ↦ g.name = f.name) = [] := by
        rw [List.filter_eq_nil_iff]
        intro g hg
        simpa using fun heq : g.name = f.name ↦ hnodup.1 (heq ▸ List.mem_map_of_mem hg)
      rw [List.filter_cons_of_pos (by simp), hnone]
    · have hne : g.name ≠ f.name := fun heq ↦ hnodup.1 (heq ▸ List.mem_map_of_mem hf)
      rw [List.filter_cons_of_neg (by simpa using hne)]
      exact ih hnodup.2 hf

theorem filter_visitAll (hnodup : (l.map Flag.name).Nodup) (hf : f ∈ l) :
    ((visitAll l).filter fun g ↦ g.name = f.name) = [f] := by
  have hperm := (List.perm_insertionSort (fun f g : Flag ↦ f.name ≤ g.name) l).filter
    fun g ↦ g.name = f.name
  rw [filter_name hnodup hf] at hperm
  exact List.perm_singleton.mp hperm

theorem filter_visitAll_of_notMem {name : String} (h : ∀ g ∈ l, g.name ≠ name) :
    ((visitAll l).filter fun g ↦ g.name = name) = [] := by
  rw [List.filter_eq_nil_iff]
  intro g hg
  have hmem := (List.perm_insertionSort (fun f g : Flag ↦ f.name ≤ g.name) l).mem_iff.mp hg
  simpa using h g hmem

/-- `loadConfig` comes to a flag once, or twice if it is inherited. -/
theorem filter_visited {cmd : Command} (hregular : Regular cmd) (hf : f ∈ cmd.all) :
    ((visitAll cmd.all ++ visitAll cmd.inherited).filter fun g ↦ g.name = f.name) = [f] ∨
      (f.kind ≠ .stringSlice ∧
        ((visitAll cmd.all ++ visitAll cmd.inherited).filter fun g ↦ g.name = f.name) =
          [f, f]) := by
  rw [List.filter_append, filter_visitAll hregular.nodup hf]
  by_cases hinherited : ∃ g ∈ cmd.inherited, g.name = f.name
  · obtain ⟨g, hg, hname⟩ := hinherited
    have hall : g ∈ cmd.all := List.mem_append_right _ (List.mem_cons_of_mem _ hg)
    have hsame : g = f := by
      have hfind := find_eq_some hregular.nodup hall
      rw [hname, find_eq_some hregular.nodup hf] at hfind
      exact (Option.some.inj hfind).symm
    subst hsame
    rw [hregular.inherited] at hg ⊢
    have hkind : ∀ g ∈ rootFlags, g.kind ≠ .stringSlice := by decide +kernel
    have hroot : (rootFlags.map Flag.name).Nodup := by decide +kernel
    rw [filter_visitAll hroot hg]
    exact Or.inr ⟨hkind g hg, rfl⟩
  · have hnone : ∀ g ∈ cmd.inherited, g.name ≠ f.name := fun g hg hname ↦ hinherited ⟨g, hg, hname⟩
    rw [filter_visitAll_of_notMem hnone]
    exact Or.inl rfl

end Visit

section Flow

variable {parseDuration : ParseDuration} {sys : Surroundings} {config : ConfigFile}
  {given : List (String × Bytes)} {cmd : Command} {f : Flag} {st st' : FlagSet}

/-- A flag that the configuration leaves alone. -/
theorem apply_skip {s : FlagState} (h : s.changed = true ∨ get sys config f.name = none) :
    apply parseDuration sys config s f = .ok s := by
  unfold apply
  rcases h with hchanged | hnone
  · rw [if_pos hchanged]
  · rw [hnone]
    split_ifs <;> rfl

/-- A flag that the configuration sets. -/
theorem apply_set {s s' : FlagState} {setting : Setting} (hchanged : s.changed = false)
    (hget : get sys config f.name = some setting) :
    apply parseDuration sys config s f = .ok s' ↔
      ∃ v, parse parseDuration f.kind setting.text = some v ∧
        s' = ⟨if s.stored then s.value.join v else v, false, true⟩ := by
  rw [apply, if_neg (by simp [hchanged]), hget]
  simp only [FlagState.set, hchanged]
  cases parse parseDuration f.kind setting.text with
  | none => simp
  | some v =>
    constructor
    · intro h
      exact ⟨v, rfl, (Except.ok.inj h).symm⟩
    · rintro ⟨_, ⟨⟩, rfl⟩
      rfl

theorem foldlM_apply_skip {s : FlagState} (h : s.changed = true ∨ get sys config f.name = none)
    {l : List Flag} (hl : l = [f] ∨ l = [f, f]) :
    l.foldlM (apply parseDuration sys config) s = .ok s := by
  have honce : [f].foldlM (apply parseDuration sys config) s = .ok s := by
    rw [List.foldlM_cons, apply_skip h]
    rfl
  rcases hl with rfl | rfl
  · exact honce
  · rw [List.foldlM_cons, apply_skip h]
    exact honce

/-- The configuration sets a flag once, or twice to the same value. -/
theorem foldlM_apply_set {s s' : FlagState} {setting : Setting} (hchanged : s.changed = false)
    (hstored : s.stored = false) (hget : get sys config f.name = some setting) {l : List Flag}
    (hl : l = [f] ∨ (f.kind ≠ .stringSlice ∧ l = [f, f])) :
    l.foldlM (apply parseDuration sys config) s = .ok s' ↔
      ∃ v, parse parseDuration f.kind setting.text = some v ∧ s' = ⟨v, false, true⟩ := by
  have honce (s' : FlagState) : apply parseDuration sys config s f = .ok s' ↔
      ∃ v, parse parseDuration f.kind setting.text = some v ∧ s' = ⟨v, false, true⟩ := by
    rw [apply_set hchanged hget, hstored]
    rfl
  rcases hl with rfl | ⟨hkind, rfl⟩
  · rw [List.foldlM_cons, bind_eq_ok_iff, ← honce]
    constructor
    · rintro ⟨t, ht, h⟩
      cases h
      exact ht
    · intro h
      exact ⟨s', h, rfl⟩
  · rw [List.foldlM_cons, bind_eq_ok_iff]
    constructor
    · rintro ⟨t, ht, h⟩
      obtain ⟨v, hv, rfl⟩ := (honce t).mp ht
      rw [List.foldlM_cons, bind_eq_ok_iff] at h
      obtain ⟨u, hu, h⟩ := h
      cases h
      obtain ⟨w, hw, rfl⟩ := (apply_set rfl hget).mp hu
      cases hv.symm.trans hw
      refine ⟨v, hv, ?_⟩
      rw [if_pos rfl, Value.join_of_kind (by rwa [kind_of_parse parseDuration hv])]
    · rintro ⟨v, hv, rfl⟩
      refine ⟨_, (honce _).mpr ⟨v, hv, rfl⟩, ?_⟩
      have hagain : apply parseDuration sys config ⟨v, false, true⟩ f = .ok ⟨v, false, true⟩ := by
        refine (apply_set rfl hget).mpr ⟨v, hv, ?_⟩
        rw [if_pos rfl, Value.join_of_kind (by rwa [kind_of_parse parseDuration hv])]
      rw [List.foldlM_cons, hagain]
      rfl

/-- The path of the configuration file. -/
def configPath (given : List (String × Bytes)) : Bytes :=
  (texts given "config").getLast?.getD []

/-- After the command line was read, a flag that was given has its value and its mark. -/
theorem parseFlags_flag (hregular : Regular cmd) (hf : f ∈ cmd.all)
    (h : cmd.parseFlags parseDuration given = .ok st) :
    (texts given f.name = [] ∧ st f.name = ⟨f.default, false, false⟩) ∨
      ∃ v, texts given f.name ≠ [] ∧
        parseTexts parseDuration f.kind (texts given f.name) = some v ∧
        st f.name = ⟨v, true, true⟩ := by
  have hflag := updateAll_eq_ok_iff.mp h f.name
  rcases (foldlM_parseStep_initial (find_eq_some hregular.nodup hf)).mp hflag with
    hnot | ⟨v, hv, hst⟩
  · exact Or.inl hnot
  · refine Or.inr ⟨v, ?_, hv, hst⟩
    intro hnil
    rw [hnil] at hv
    cases hv

theorem helpFlag_mem (cmd : Command) : helpFlag ∈ cmd.all :=
  List.mem_append_right _ List.mem_cons_self

theorem configFlag_mem (hregular : Regular cmd) : stringFlag "config" "" ∈ cmd.all := by
  rw [all, hregular.inherited]
  exact List.mem_append_right _ (List.mem_cons_of_mem _ List.mem_cons_self)

/-- A flag of one value has that of the last text given for it. -/
theorem value_of_parseFlags (hregular : Regular cmd) (hf : f ∈ cmd.all)
    (hkind : f.kind ≠ .stringSlice) (h : cmd.parseFlags parseDuration given = .ok st) :
    match (texts given f.name).getLast? with
    | none => st.values f.name = f.default
    | some text => parse parseDuration f.kind text = some (st.values f.name) := by
  rcases parseFlags_flag hregular hf h with ⟨hnil, hst⟩ | ⟨v, -, hv, hst⟩
  · rw [hnil, FlagSet.values, hst]
    rfl
  · have hlast := parse_getLast? parseDuration hkind hv
    rw [FlagSet.values, hst]
    cases htext : (texts given f.name).getLast? with
    | none =>
      rw [htext] at hlast
      cases hlast
    | some text =>
      rw [htext] at hlast
      exact hlast

theorem configPath_eq (hregular : Regular cmd) (h : cmd.parseFlags parseDuration given = .ok st) :
    (st.values "config").text = configPath given := by
  have hvalue := value_of_parseFlags hregular (configFlag_mem hregular) (by decide +kernel) h
  have hname : (stringFlag "config" "").name = "config" := rfl
  rw [hname] at hvalue
  rw [configPath]
  cases htext : (texts given "config").getLast? with
  | none =>
    rw [htext] at hvalue
    rw [show st.values "config" = .string [] from hvalue]
    rfl
  | some text =>
    rw [htext] at hvalue
    rw [← show Value.string text = st.values "config" from Option.some.inj hvalue]
    rfl

theorem helpAsked_eq (hregular : Regular cmd) (h : cmd.parseFlags parseDuration given = .ok st) :
    (st.values "help").isTrue = helpAsked given := by
  have hvalue := value_of_parseFlags hregular (helpFlag_mem cmd) (by decide +kernel) h
  have hname : helpFlag.name = "help" := rfl
  rw [hname] at hvalue
  rw [helpAsked]
  cases htext : (texts given "help").getLast? with
  | none =>
    rw [htext] at hvalue
    rw [show st.values "help" = .bool false from hvalue]
    rfl
  | some text =>
    rw [htext] at hvalue
    obtain ⟨asked, hasked, heq⟩ := Option.map_eq_some_iff.mp hvalue
    rw [← heq, Option.bind_some, hasked]
    rfl

/-- What `loadConfig` makes of a flag. -/
theorem loadConfig_flag (hregular : Regular cmd) (hf : f ∈ cmd.all)
    (hparse : cmd.parseFlags parseDuration given = .ok st)
    (hconfig : readConfig sys (configPath given) = .ok config)
    (hload : loadConfig parseDuration sys cmd st = .ok st') :
    ((texts given f.name ≠ [] ∨ get sys config f.name = none) ∧ st' f.name = st f.name) ∨
      (texts given f.name = [] ∧ ∃ setting v, get sys config f.name = some setting ∧
        parse parseDuration f.kind setting.text = some v ∧ st' f.name = ⟨v, false, true⟩) := by
  rw [loadConfig, configPath_eq hregular hparse, hconfig] at hload
  have hflag := updateAll_eq_ok_iff.mp hload f.name
  have hvisited := filter_visited hregular hf
  have hshort := hvisited.imp_right And.right
  rcases parseFlags_flag hregular hf hparse with ⟨hnil, hst⟩ | ⟨v, hne, -, hst⟩
  · cases hget : get sys config f.name with
    | none =>
      rw [foldlM_apply_skip (Or.inr hget) hshort] at hflag
      exact Or.inl ⟨Or.inr rfl, (Except.ok.inj hflag).symm⟩
    | some setting =>
      rw [hst] at hflag
      obtain ⟨v, hv, hst'⟩ := (foldlM_apply_set rfl rfl hget hvisited).mp hflag
      exact Or.inr ⟨hnil, setting, v, rfl, hv, hst'⟩
  · have hchanged : (st f.name).changed = true := by rw [hst]
    rw [foldlM_apply_skip (Or.inl hchanged) hshort] at hflag
    exact Or.inl ⟨Or.inl hne, (Except.ok.inj hflag).symm⟩

/-- A flag is marked as changed exactly if it was given on the command line. -/
theorem changed_iff (hregular : Regular cmd) (hf : f ∈ cmd.all)
    (hparse : cmd.parseFlags parseDuration given = .ok st)
    (hconfig : readConfig sys (configPath given) = .ok config)
    (hload : loadConfig parseDuration sys cmd st = .ok st') :
    (st' f.name).changed = true ↔ texts given f.name ≠ [] := by
  rcases loadConfig_flag hregular hf hparse hconfig hload with
    ⟨-, hsame⟩ | ⟨hnil, _, _, -, -, hst'⟩
  · rw [hsame]
    rcases parseFlags_flag hregular hf hparse with ⟨hnil, hst⟩ | ⟨v, hne, -, hst⟩
    · simp [hst, hnil]
    · simp [hst, hne]
  · simp [hst', hnil]

theorem exists_parseFlags (hregular : Regular cmd)
    (hdeclared : ∀ g ∈ given, ∃ f ∈ cmd.all, f.name = g.1)
    (hparse : ∀ f ∈ cmd.all, texts given f.name ≠ [] →
      ∃ v, parseTexts parseDuration f.kind (texts given f.name) = some v) :
    ∃ st, cmd.parseFlags parseDuration given = .ok st := by
  apply exists_updateAll
  intro name
  by_cases hname : ∃ f ∈ cmd.all, f.name = name
  · obtain ⟨f, hf, rfl⟩ := hname
    have hfind := find_eq_some hregular.nodup hf
    by_cases hnil : texts given f.name = []
    · exact ⟨_, (foldlM_parseStep_initial hfind).mpr (Or.inl ⟨hnil, rfl⟩)⟩
    · obtain ⟨v, hv⟩ := hparse f hf hnil
      exact ⟨_, (foldlM_parseStep_initial hfind).mpr (Or.inr ⟨v, hv, rfl⟩)⟩
  · have hnone : (given.filter fun g ↦ g.1 = name) = [] := by
      rw [List.filter_eq_nil_iff]
      intro g hg
      obtain ⟨f, hf, hfname⟩ := hdeclared g hg
      simpa using fun heq : g.1 = name ↦ hname ⟨f, hf, hfname.trans heq⟩
    rw [hnone]
    exact ⟨_, rfl⟩

theorem exists_loadConfig (hregular : Regular cmd)
    (hparse : cmd.parseFlags parseDuration given = .ok st)
    (hconfig : readConfig sys (configPath given) = .ok config)
    (hset : ∀ f ∈ cmd.all, texts given f.name = [] → ∀ setting,
      get sys config f.name = some setting →
        ∃ v, parse parseDuration f.kind setting.text = some v) :
    ∃ st', loadConfig parseDuration sys cmd st = .ok st' := by
  rw [loadConfig, configPath_eq hregular hparse, hconfig]
  apply exists_updateAll
  intro name
  by_cases hname : ∃ f ∈ cmd.all, f.name = name
  · obtain ⟨f, hf, rfl⟩ := hname
    have hvisited := filter_visited hregular hf
    have hshort := hvisited.imp_right And.right
    rcases parseFlags_flag hregular hf hparse with ⟨hnil, hst⟩ | ⟨v, hne, -, hst⟩
    · cases hget : get sys config f.name with
      | none => exact ⟨_, foldlM_apply_skip (Or.inr hget) hshort⟩
      | some setting =>
        obtain ⟨v, hv⟩ := hset f hf hnil setting hget
        rw [hst]
        exact ⟨_, (foldlM_apply_set rfl rfl hget hvisited).mpr ⟨v, hv, rfl⟩⟩
    · exact ⟨_, foldlM_apply_skip (Or.inl (by rw [hst])) hshort⟩
  · have hnone : ∀ g ∈ cmd.all, g.name ≠ name := fun g hg heq ↦ hname ⟨g, hg, heq⟩
    have hinherited : ∀ g ∈ cmd.inherited, g.name ≠ name :=
      fun g hg ↦ hnone g (List.mem_append_right _ (List.mem_cons_of_mem _ hg))
    rw [List.filter_append, filter_visitAll_of_notMem hnone, filter_visitAll_of_notMem hinherited]
    exact ⟨_, rfl⟩

end Flow

section Main

variable {parseDuration : ParseDuration} {sys : Surroundings} {config : ConfigFile}
  {given : List (String × Bytes)} {cmd : Command} {p : Positional} {values : String → Value}

theorem effectiveValues_eq (hregular : Regular cmd) {f : Flag} (hf : f ∈ cmd.all) {v : Value}
    (h : effective parseDuration sys config given f = some v) :
    effectiveValues parseDuration sys config given cmd f.name = v := by
  rw [effectiveValues, find_eq_some hregular.nodup hf]
  simp only [h, Option.getD_some]

theorem exists_readConfig (hregular : Regular cmd)
    (hrun : run parseDuration sys cmd given p = .ok values) :
    ∃ config, readConfig sys (configPath given) = .ok config := by
  obtain ⟨st, st', hparse, -, -, hload, -⟩ := execute_eq_ok_iff.mp hrun
  rw [loadConfig, configPath_eq hregular hparse, bind_eq_ok_iff] at hload
  obtain ⟨config, hconfig, -⟩ := hload
  exact ⟨config, hconfig⟩

/-- The body of a command sees what its sources give. -/
theorem seen_of_run (hregular : Regular cmd)
    (hconfig : readConfig sys (configPath given) = .ok config)
    (hrun : run parseDuration sys cmd given p = .ok values) {f : Flag} (hf : f ∈ cmd.all) :
    seen parseDuration sys config given f = some (values f.name) := by
  obtain ⟨st, st', hparse, -, -, hload, -, -, rfl⟩ := execute_eq_ok_iff.mp hrun
  rw [FlagSet.values]
  rcases loadConfig_flag hregular hf hparse hconfig hload with
    ⟨hskip, hsame⟩ | ⟨hnil, setting, v, hget, hv, hst'⟩
  · rw [hsame]
    rcases parseFlags_flag hregular hf hparse with ⟨hnil, hst⟩ | ⟨v, hne, hv, hst⟩
    · have hnone : get sys config f.name = none := hskip.resolve_left (not_not_intro hnil)
      rw [seen, if_neg (not_not_intro hnil), hnone, hst]
    · rw [seen, if_pos hne, hv, hst]
  · rw [seen, if_neg (not_not_intro hnil), hget, hst']
    exact hv

theorem simple_of_configured (hregular : Regular cmd)
    (hconfig : readConfig sys (configPath given) = .ok config)
    (h : Configured parseDuration sys config given cmd p) : Simple sys config given cmd := by
  obtain ⟨values, hrun, hvalues⟩ := h
  obtain ⟨st, st', hparse, hhelp, -, hload, hrequired, hexclusive, rfl⟩ :=
    execute_eq_ok_iff.mp hrun
  refine ⟨?_, ?_, ?_, ?_⟩
  · rw [← helpAsked_eq hregular hparse, hhelp]
  · intro name hname
    obtain ⟨f, hf, rfl⟩ := hregular.required name hname
    exact (changed_iff hregular hf hparse hconfig hload).mp (hrequired f.name hname)
  · rintro pair hpair ⟨hfirst, hsecond⟩
    obtain ⟨⟨f, hf, hfname⟩, g, hg, hgname⟩ := hregular.exclusive pair hpair
    rw [← hfname] at hfirst
    rw [← hgname] at hsecond
    apply hexclusive pair hpair
    rw [← hfname, ← hgname]
    exact ⟨(changed_iff hregular hf hparse hconfig hload).mpr hfirst,
      (changed_iff hregular hg hparse hconfig hload).mpr hsecond⟩
  · intro f hf hkind hnil items hget
    have hname : f.name ≠ "config" := by
      intro hname
      have hfind := find_eq_some hregular.nodup hf
      rw [hname] at hfind
      cases (find_eq_some hregular.nodup (configFlag_mem hregular)).symm.trans hfind
      cases hkind
    have heffective := hvalues f hf hname
    rw [effective, if_neg (not_not_intro hnil), hget] at heffective
    obtain ⟨-, hvalue⟩ := meaning_list heffective
    rcases loadConfig_flag hregular hf hparse hconfig hload with
      ⟨hne | hnone, -⟩ | ⟨-, setting, v, hsetting, hv, hst'⟩
    · exact hne hnil
    · rw [hget] at hnone
      cases hnone
    · cases hget.symm.trans hsetting
      rw [FlagSet.values, hst'] at hvalue
      change v = .stringSlice items at hvalue
      rw [hkind, hvalue] at hv
      obtain ⟨items', hread, hitems⟩ := Option.map_eq_some_iff.mp hv
      cases hitems
      exact readAsCSV_sprintList items hread

theorem configured_of_simple (hregular : Regular cmd)
    (hconfig : readConfig sys (configPath given) = .ok config)
    (hacceptable : Acceptable parseDuration sys config given cmd p)
    (hsimple : Simple sys config given cmd) : Configured parseDuration sys config given cmd p := by
  have htexts : ∀ f ∈ cmd.all, texts given f.name ≠ [] →
      ∃ v, parseTexts parseDuration f.kind (texts given f.name) = some v := by
    intro f hf hne
    obtain ⟨v, hv⟩ := hacceptable.wellFormed f hf
    rw [effective, if_pos hne] at hv
    exact ⟨v, hv⟩
  have hsetting : ∀ f ∈ cmd.all, texts given f.name = [] → ∀ setting,
      get sys config f.name = some setting →
        effective parseDuration sys config given f = parse parseDuration f.kind setting.text ∧
          ∃ v, parse parseDuration f.kind setting.text = some v := by
    intro f hf hnil setting hget
    obtain ⟨v, hv⟩ := hacceptable.wellFormed f hf
    have hmeaning : setting.meaning parseDuration f.kind = some v := by
      rwa [effective, if_neg (not_not_intro hnil), hget] at hv
    have hlist : ∀ items, setting ≠ .list items := by
      rintro items rfl
      exact hsimple.list f hf (meaning_list hmeaning).1 hnil items hget
    have hparse := parse_text hmeaning hlist
    exact ⟨hv.trans hparse.symm, v, hparse⟩
  obtain ⟨st, hparse⟩ := exists_parseFlags hregular hacceptable.declared htexts
  obtain ⟨st', hload⟩ := exists_loadConfig hregular hparse hconfig
    fun f hf hnil setting hget ↦ (hsetting f hf hnil setting hget).2
  have hrun : run parseDuration sys cmd given p = .ok st'.values := by
    refine execute_eq_ok_iff.mpr ⟨st, st', hparse, ?_, ?_, hload, ?_, ?_, rfl⟩
    · rw [helpAsked_eq hregular hparse, hsimple.help]
    · refine hregular.validateArgs _ _ p ?_ hacceptable.validateArgs
      intro f hf
      rcases parseFlags_flag hregular hf hparse with ⟨-, hst⟩ | ⟨v, hne, hv, hst⟩
      · exact Or.inr (by rw [FlagSet.values, hst])
      · left
        have heffective : effective parseDuration sys config given f = some v := by
          rw [effective, if_pos hne, hv]
        rw [effectiveValues_eq hregular hf heffective, FlagSet.values, hst]
    · intro name hname
      obtain ⟨f, hf, rfl⟩ := hregular.required name hname
      exact (changed_iff hregular hf hparse hconfig hload).mpr (hsimple.required f.name hname)
    · rintro pair hpair ⟨hfirst, hsecond⟩
      obtain ⟨⟨f, hf, hfname⟩, g, hg, hgname⟩ := hregular.exclusive pair hpair
      rw [← hfname] at hfirst
      rw [← hgname] at hsecond
      apply hsimple.exclusive pair hpair
      rw [← hfname, ← hgname]
      exact ⟨(changed_iff hregular hf hparse hconfig hload).mp hfirst,
        (changed_iff hregular hg hparse hconfig hload).mp hsecond⟩
  refine ⟨st'.values, hrun, fun f hf _ ↦ ?_⟩
  rw [← seen_of_run hregular hconfig hrun hf, effective, seen]
  split_ifs with hgiven
  · rfl
  · cases hget : get sys config f.name with
    | none => rfl
    | some setting =>
      have hparsed := (hsetting f hf (not_not.mp hgiven) setting hget).1
      rwa [effective, if_neg hgiven, hget] at hparsed

/-- Of the inputs that are well-formed and meet the command's constraints, the body of a command
sees the documented values for exactly the simple ones. -/
theorem configured_iff (hcmd : cmd ∈ commands)
    (hconfig : readConfig sys (configPath given) = .ok config)
    (hacceptable : Acceptable parseDuration sys config given cmd p) :
    Configured parseDuration sys config given cmd p ↔ Simple sys config given cmd := by
  have hregular := regular_of_mem hcmd
  exact ⟨simple_of_configured hregular hconfig, configured_of_simple hregular hconfig hacceptable⟩

end Main

section Samples

/-- Surroundings with these variables and the user's configuration file. -/
def surroundings (env : List (String × Bytes)) (config : ConfigFile) : Surroundings where
  env name := (env.find? fun e ↦ e.1 = name).map Prod.snd
  readConfigFile _ := .error .notFound
  userConfigDir := some (literal "/home/relaycat/.config")
  readConfigDir _ := .ok config

def fileOf (settings : List (String × Setting)) : ConfigFile := fun name ↦
  (settings.find? fun s ↦ s.1 = name).map Prod.snd

/-- A parser of durations that knows one. -/
def parseFortyFive : ParseDuration := fun text ↦
  if text = literal "45s" then some (45 * 10 ^ 9) else none

/-- The decidable parts of what a command accepts. -/
theorem acceptable_of_decide {parseDuration : ParseDuration} {sys : Surroundings}
    {config : ConfigFile} {given : List (String × Bytes)} {cmd : Command} {p : Positional}
    (hdeclared : ∀ g ∈ given, ∃ f ∈ cmd.all, f.name = g.1)
    (hwellFormed : ∀ f ∈ cmd.all, (effective parseDuration sys config given f).isSome)
    (hrequired : ∀ name ∈ cmd.required, texts given name ≠ [] ∨ get sys config name ≠ none)
    (hexclusive : ∀ pair ∈ cmd.exclusive,
      ¬ (isOn (effectiveValues parseDuration sys config given cmd pair.1) ∧
        isOn (effectiveValues parseDuration sys config given cmd pair.2)))
    (hargs : cmd.validateArgs (effectiveValues parseDuration sys config given cmd) p = .ok ()) :
    Acceptable parseDuration sys config given cmd p where
  declared := hdeclared
  wellFormed f hf := Option.isSome_iff_exists.mp (hwellFormed f hf)
  required := hrequired
  exclusive := hexclusive
  validateArgs := hargs

def serveGiven : List (String × Bytes) :=
  [("relay", literal "https://relay.example"), ("authorized-keys-file", literal "a,b"),
    ("authorized-keys-file", literal "c")]

def serveFile : ConfigFile :=
  fileOf [("idle-timeout", .string (literal "45s")), ("allow-insecure-relay", .bool true),
    ("log-level", .string (literal "warn"))]

def serveSurroundings : Surroundings :=
  surroundings [("RELAYCAT_LOG_LEVEL", literal "debug")] serveFile

/-- Each source has a value for some flag of `serve ssh`. -/
theorem configured_serve :
    Acceptable parseFortyFive serveSurroundings serveFile serveGiven newServeCommand
        ⟨[literal "ssh"], none⟩ ∧
      effective parseFortyFive serveSurroundings serveFile serveGiven
          (stringFlag "log-level" "info") = some (.string (literal "debug")) ∧
      Configured parseFortyFive serveSurroundings serveFile serveGiven newServeCommand
        ⟨[literal "ssh"], none⟩ := by
  have hacceptable : Acceptable parseFortyFive serveSurroundings serveFile serveGiven
      newServeCommand ⟨[literal "ssh"], none⟩ :=
    acceptable_of_decide (by decide +kernel) (by decide +kernel) (by decide +kernel)
      (by decide +kernel) rfl
  have hmem : newServeCommand ∈ commands := List.mem_cons_of_mem _ (List.mem_cons_of_mem _
    List.mem_cons_self)
  have hgiven : ∀ f ∈ newServeCommand.all, f.kind = .stringSlice →
      texts serveGiven f.name ≠ [] := by decide +kernel
  refine ⟨hacceptable, by decide +kernel, (configured_iff hmem rfl hacceptable).mpr ?_⟩
  refine ⟨rfl, by decide +kernel, by decide +kernel, fun f hf hkind hnil ↦ ?_⟩
  exact absurd hnil (hgiven f hf hkind)

def exposeSurroundings : Surroundings :=
  surroundings [("RELAYCAT_RELAY", literal "https://relay.example"),
    ("RELAYCAT_TARGET", literal "localhost:22")] (fileOf [])

def listFile : ConfigFile :=
  fileOf [("authorized-keys-file", .list [literal "a", literal "b"])]

/-- A required flag in the environment is reported as missing, a YAML list of two strings
arrives as one string, and an option that is switched off on the command line excludes
another one there. -/
theorem not_configured_samples :
    (Acceptable parseFortyFive exposeSurroundings (fileOf []) [] newExposeCommand ⟨[], none⟩ ∧
      ((run parseFortyFive exposeSurroundings newExposeCommand [] ⟨[], none⟩).map fun _ ↦ ()) =
        .error (.new "required flag(s) \"relay\", \"target\" not set") ∧
      ¬ Configured parseFortyFive exposeSurroundings (fileOf []) [] newExposeCommand ⟨[], none⟩) ∧
    (Acceptable parseFortyFive (surroundings [] listFile) listFile
        [("relay", literal "https://relay.example")] newServeCommand ⟨[literal "ssh"], none⟩ ∧
      ((run parseFortyFive (surroundings [] listFile) newServeCommand
          [("relay", literal "https://relay.example")] ⟨[literal "ssh"], none⟩).map
        fun values ↦ values "authorized-keys-file") = .ok (.stringSlice [literal "[a b]"]) ∧
      ¬ Configured parseFortyFive (surroundings [] listFile) listFile
        [("relay", literal "https://relay.example")] newServeCommand ⟨[literal "ssh"], none⟩) ∧
    (Acceptable parseFortyFive (surroundings [] (fileOf [])) (fileOf [])
        [("no-auth", literal "false"), ("auth-token-file", literal "token")] newRelayCommand
        ⟨[], none⟩ ∧
      ¬ Configured parseFortyFive (surroundings [] (fileOf [])) (fileOf [])
        [("no-auth", literal "false"), ("auth-token-file", literal "token")] newRelayCommand
        ⟨[], none⟩) := by
  refine ⟨⟨?_, by decide +kernel, fun h ↦ ?_⟩, ⟨?_, by decide +kernel, fun h ↦ ?_⟩,
    ⟨?_, fun h ↦ ?_⟩⟩
  · exact acceptable_of_decide (by decide +kernel) (by decide +kernel) (by decide +kernel)
      (by decide +kernel) rfl
  · have hmem : newExposeCommand ∈ commands := by simp [commands]
    exact (simple_of_configured (regular_of_mem hmem) rfl h).required "relay" List.mem_cons_self rfl
  · exact acceptable_of_decide (by decide +kernel) (by decide +kernel) (by decide +kernel)
      (by decide +kernel) rfl
  · have hmem : newServeCommand ∈ commands := by simp [commands]
    exact (simple_of_configured (regular_of_mem hmem) rfl h).list
      (stringSliceFlag "authorized-keys-file")
      (by decide +kernel) rfl (by decide +kernel) [literal "a", literal "b"] (by decide +kernel)
  · exact acceptable_of_decide (by decide +kernel) (by decide +kernel) (by decide +kernel)
      (by decide +kernel) rfl
  · have hmem : newRelayCommand ∈ commands := by simp [commands]
    exact (simple_of_configured (regular_of_mem hmem) rfl h).exclusive
      ("no-auth", "auth-token-file")
      (by decide +kernel) (by decide +kernel)

end Samples

end RelayCat.Cli
