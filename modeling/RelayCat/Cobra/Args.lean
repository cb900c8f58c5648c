import RelayCat.Cobra.Command
import RelayCat.Go.Url

/-!
# The words of a command line

How pflag splits the words after a command into flags and arguments, with its defaults: flags
are recognized before, between and behind the arguments, until a word of two dashes. A flag
takes its value from the same word, or has one without being given any, or takes the next word.
Letters can be put together in one word. Words that start with `-test.` are skipped.

Here flags are split off first and set after that, so that of several errors another one may be
reported.
-/

namespace RelayCat.Cobra

open Go Utf8

def dash : UInt8 := 0x2d
def equalsSign : UInt8 := 0x3d

/-- A flag on the command line: its name, and the text that it has if it stands alone. It needs
a value if that is empty. -/
structure Entry where
  name : String
  noOptDefVal : Bytes
  deriving DecidableEq, Repr

/-- The flags by name and by letter. -/
structure Grammar where
  long (name : Bytes) : Option Entry
  short (letter : UInt8) : Option Entry

/-- A word that is looked at as a flag. -/
def isFlagWord : Bytes → Bool
  | c :: _ :: _ => c == dash
  | _ => false

def quoted (s : Bytes) : String := String.ofList (runes s)

namespace Grammar

variable (g : Grammar)

/-- `parseLongArg`: the flags of a word behind its two dashes, and if the next word was taken. -/
def parseLongArg (name : Bytes) (next : Option Bytes) :
    Except Err (List (String × Bytes) × Bool) :=
  if name.head? = some dash ∨ name.head? = some equalsSign then
    .error (.new ("bad flag syntax: --" ++ quoted name))
  else
    match g.long (Url.cut equalsSign name).1 with
    | none => .error (.new ("unknown flag: --" ++ quoted (Url.cut equalsSign name).1))
    | some e =>
      match (Url.cut equalsSign name).2 with
      | some value => .ok ([(e.name, value)], false)
      | none =>
        if e.noOptDefVal ≠ [] then .ok ([(e.name, e.noOptDefVal)], false)
        else
          match next with
          | some value => .ok ([(e.name, value)], true)
          | none => .error (.new ("flag needs an argument: --" ++ quoted name))

/-- `parseShortArg`, on the letters behind the dash. -/
def parseShortArg (next : Option Bytes) : Bytes → Except Err (List (String × Bytes) × Bool)
  | [] => .ok ([], false)
  | c :: rest =>
    if literal "test." <+: c :: rest then .ok ([], false)
    else
      match g.short c with
      | none => .error (.new ("unknown shorthand flag: '" ++ quoted [c] ++ "' in -" ++
          quoted (c :: rest)))
      | some e =>
        if 1 < rest.length ∧ rest.head? = some equalsSign then
          .ok ([(e.name, rest.tail)], false)
        else if e.noOptDefVal ≠ [] then
          (parseShortArg next rest).map fun r ↦ ((e.name, e.noOptDefVal) :: r.1, r.2)
        else if rest ≠ [] then .ok ([(e.name, rest)], false)
        else
          match next with
          | some value => .ok ([(e.name, value)], true)
          | none => .error (.new ("flag needs an argument: '" ++ quoted [c] ++ "' in -" ++
              quoted (c :: rest)))

/-- A flag word that is not two dashes. -/
def parseFlagWord (word : Bytes) (next : Option Bytes) :
    Except Err (List (String × Bytes) × Bool) :=
  if word.tail.head? = some dash then g.parseLongArg (word.drop 2) next
  else g.parseShortArg next word.tail

def addFlags (given : List (String × Bytes)) (r : List (String × Bytes) × Positional) :
    List (String × Bytes) × Positional :=
  (given ++ r.1, r.2)

def addArg (arg : Bytes) (r : List (String × Bytes) × Positional) :
    List (String × Bytes) × Positional :=
  (r.1, ⟨arg :: r.2.args, r.2.lenAtDash.map (· + 1)⟩)

/-- `parseArgs`: the flags with their texts, in the order of the words, and the arguments. -/
def parseArgs : List Bytes → Except Err (List (String × Bytes) × Positional)
  | [] => .ok ([], ⟨[], none⟩)
  | word :: words =>
    if isFlagWord word = false then (parseArgs words).map (addArg word)
    else if word = [dash, dash] then .ok ([], ⟨words, some 0⟩)
    else
      match words with
      | [] =>
        match g.parseFlagWord word none with
        | .error err => .error err
        | .ok (given, _) => .ok (given, ⟨[], none⟩)
      | next :: rest =>
        match g.parseFlagWord word (some next) with
        | .error err => .error err
        | .ok (given, true) => (parseArgs rest).map (addFlags given)
        | .ok (given, false) => (parseArgs (next :: rest)).map (addFlags given)

section Words

variable {g} {given : List (String × Bytes)} {next : Option Bytes} {taken : Bool}

/-- Only a flag that takes the next word looks at it. -/
def Settled (parse : Option Bytes → Except Err (List (String × Bytes) × Bool))
    (given : List (String × Bytes)) (next : Option Bytes) (taken : Bool) : Prop :=
  taken = false ∧ (∀ next', parse next' = .ok (given, false)) ∨ taken = true ∧ next ≠ none

theorem Settled.of_const {parse : Option Bytes → Except Err (List (String × Bytes) × Bool)}
    {given' : List (String × Bytes)} (hconst : ∀ next', parse next' = .ok (given', false))
    (h : parse next = .ok (given, taken)) : Settled parse given next taken := by
  cases (hconst next).symm.trans h
  exact Or.inl ⟨rfl, hconst⟩

theorem settled_parseLongArg {name : Bytes} (h : g.parseLongArg name next = .ok (given, taken)) :
    Settled (g.parseLongArg name) given next taken := by
  by_cases hbad : name.head? = some dash ∨ name.head? = some equalsSign
  · simp [parseLongArg, hbad] at h
  · cases hlong : g.long (Url.cut equalsSign name).1 with
    | none => simp [parseLongArg, hbad, hlong] at h
    | some e =>
      cases hvalue : (Url.cut equalsSign name).2 with
      | some value =>
        exact Settled.of_const (fun _ ↦ by simp [parseLongArg, hbad, hlong, hvalue]; rfl) h
      | none =>
        by_cases halone : e.noOptDefVal = []
        · cases next with
          | none => simp [parseLongArg, hbad, hlong, hvalue, halone] at h
          | some value =>
            simp [parseLongArg, hbad, hlong, hvalue, halone] at h
            exact Or.inr ⟨h.2, Option.some_ne_none value⟩
        · exact Settled.of_const
            (fun _ ↦ by simp [parseLongArg, hbad, hlong, hvalue, halone]; rfl) h

theorem settled_parseShortArg {letters : Bytes}
    (h : g.parseShortArg next letters = .ok (given, taken)) :
    Settled (g.parseShortArg · letters) given next taken := by
  induction letters generalizing given with
  | nil => exact Settled.of_const (fun _ ↦ rfl) h
  | cons c rest ih =>
    by_cases htest : literal "test." <+: c :: rest
    · exact Settled.of_const (fun _ ↦ by simp [parseShortArg, htest]; rfl) h
    · cases hshort : g.short c with
      | none => simp [parseShortArg, htest, hshort] at h
      | some e =>
        by_cases hequals : 1 < rest.length ∧ rest.head? = some equalsSign
        · exact Settled.of_const (fun _ ↦ by simp [parseShortArg, htest, hshort, hequals]; rfl) h
        · by_cases halone : e.noOptDefVal = []
          · by_cases hrest : rest = []
            · subst hrest
              cases next with
              | none => simp [parseShortArg, htest, hshort, halone] at h
              | some value =>
                simp [parseShortArg, htest, hshort, halone] at h
                exact Or.inr ⟨h.2, Option.some_ne_none value⟩
            · exact Settled.of_const
                (fun _ ↦ by simp [parseShortArg, htest, hshort, hequals, halone, hrest]; rfl) h
          · have hmore (next' : Option Bytes) : g.parseShortArg next' (c :: rest) =
                (g.parseShortArg next' rest).map fun r ↦
                  ((e.name, e.noOptDefVal) :: r.1, r.2) := by
              simp [parseShortArg, htest, hshort, hequals, halone]
            rw [hmore] at h
            obtain ⟨⟨given', taken'⟩, hr, heq⟩ := map_eq_ok_iff.mp h
            cases heq
            rcases ih hr with ⟨htaken, hconst⟩ | htaken
            · refine Or.inl ⟨htaken, fun next' ↦ (hmore next').trans ?_⟩
              rw [show g.parseShortArg next' rest = .ok (given', false) from hconst next']
              rfl
            · exact Or.inr htaken

theorem settled_parseFlagWord {word : Bytes}
    (h : g.parseFlagWord word next = .ok (given, taken)) :
    Settled (g.parseFlagWord word) given next taken := by
  simp only [Settled, parseFlagWord] at h ⊢
  split_ifs at h ⊢
  · exact settled_parseLongArg h
  · exact settled_parseShortArg h

/-- What the words of a command line are split into. -/
inductive Splits (g : Grammar) : List Bytes → List (String × Bytes) × Positional → Prop
  | nil : Splits g [] ([], ⟨[], none⟩)
  | arg {word : Bytes} {words : List Bytes} {r : List (String × Bytes) × Positional} :
      isFlagWord word = false → Splits g words r → Splits g (word :: words) (addArg word r)
  | dashes (words : List Bytes) : Splits g ([dash, dash] :: words) ([], ⟨words, some 0⟩)
  | flag {word : Bytes} {words : List Bytes} {given : List (String × Bytes)}
      {r : List (String × Bytes) × Positional} :
      isFlagWord word = true → word ≠ [dash, dash] →
      (∀ next, g.parseFlagWord word next = .ok (given, false)) → Splits g words r →
      Splits g (word :: words) (addFlags given r)
  | taken {word next : Bytes} {words : List Bytes} {given : List (String × Bytes)}
      {r : List (String × Bytes) × Positional} :
      isFlagWord word = true → word ≠ [dash, dash] →
      g.parseFlagWord word (some next) = .ok (given, true) → Splits g words r →
      Splits g (word :: next :: words) (addFlags given r)

theorem splits_of_parseArgs {words : List Bytes} {r : List (String × Bytes) × Positional}
    (h : g.parseArgs words = .ok r) : Splits g words r := by
  have hconst {word : Bytes} {given : List (String × Bytes)} {next : Option Bytes}
      (hflag : g.parseFlagWord word next = .ok (given, false)) (next' : Option Bytes) :
      g.parseFlagWord word next' = .ok (given, false) := by
    rcases settled_parseFlagWord hflag with ⟨-, hconst⟩ | ⟨htaken, -⟩
    · exact hconst next'
    · cases htaken
  fun_induction Grammar.parseArgs g words generalizing r with
  | case1 =>
    cases h
    exact .nil
  | case2 word words hword ih =>
    obtain ⟨r', hr, rfl⟩ := map_eq_ok_iff.mp h
    exact .arg hword (ih hr)
  | case3 words =>
    cases h
    exact .dashes words
  | case4 => cases h
  | case5 word hword hne given taken hflag =>
    cases h
    rcases settled_parseFlagWord hflag with ⟨-, hconst⟩ | ⟨-, hnone⟩
    · have hsplits := Splits.flag (Bool.eq_true_of_not_eq_false hword) hne hconst .nil
      rwa [addFlags, List.append_nil] at hsplits
    · exact absurd rfl hnone
  | case6 => cases h
  | case7 word hword hne next rest given hflag ih =>
    obtain ⟨r', hr, rfl⟩ := map_eq_ok_iff.mp h
    exact .taken (Bool.eq_true_of_not_eq_false hword) hne hflag (ih hr)
  | case8 word hword hne next rest given hflag ih =>
    obtain ⟨r', hr, rfl⟩ := map_eq_ok_iff.mp h
    exact .flag (Bool.eq_true_of_not_eq_false hword) hne (hconst hflag) (ih hr)

theorem parseArgs_arg {word : Bytes} (hword : isFlagWord word = false) (words : List Bytes) :
    g.parseArgs (word :: words) = (g.parseArgs words).map (addArg word) := by
  rw [parseArgs.eq_def]
  simp only [hword, if_true]

theorem parseArgs_dashes (words : List Bytes) :
    g.parseArgs ([dash, dash] :: words) = .ok ([], ⟨words, some 0⟩) := by
  rw [parseArgs.eq_def]
  simp [isFlagWord]

theorem parseArgs_flag {word : Bytes} (hword : isFlagWord word = true) (hne : word ≠ [dash, dash])
    (h : ∀ next, g.parseFlagWord word next = .ok (given, false)) (words : List Bytes) :
    g.parseArgs (word :: words) = (g.parseArgs words).map (addFlags given) := by
  cases words with
  | nil => simp [parseArgs, hword, hne, h, Except.map, addFlags]
  | cons next words => simp [parseArgs, hword, hne, h]

theorem parseArgs_taken {word next : Bytes} (hword : isFlagWord word = true)
    (hne : word ≠ [dash, dash]) (h : g.parseFlagWord word (some next) = .ok (given, true))
    (words : List Bytes) :
    g.parseArgs (word :: next :: words) = (g.parseArgs words).map (addFlags given) := by
  simp [parseArgs, hword, hne, h]

/-- What words were split into, and what words behind them were. -/
def merge (r r' : List (String × Bytes) × Positional) : List (String × Bytes) × Positional :=
  (r.1 ++ r'.1, ⟨r.2.args ++ r'.2.args, r'.2.lenAtDash.map (· + r.2.args.length)⟩)

theorem map_addFlags_merge (given : List (String × Bytes)) (r : List (String × Bytes) × Positional)
    (x : Except Err (List (String × Bytes) × Positional)) :
    (x.map (merge r)).map (addFlags given) = x.map (merge (addFlags given r)) := by
  cases x with
  | error err => rfl
  | ok r' => simp [Except.map, addFlags, merge]

theorem map_addArg_merge (arg : Bytes) (r : List (String × Bytes) × Positional)
    (x : Except Err (List (String × Bytes) × Positional)) :
    (x.map (merge r)).map (addArg arg) = x.map (merge (addArg arg r)) := by
  cases x with
  | error err => rfl
  | ok r' => simp [Except.map, addArg, merge, Function.comp_def, Nat.add_assoc]

/-- Words behind others are read as if they stood alone. -/
theorem Splits.append {words : List Bytes} {r : List (String × Bytes) × Positional}
    (h : Splits g words r) (hdash : r.2.lenAtDash = none) (more : List Bytes) :
    g.parseArgs (words ++ more) = (g.parseArgs more).map (merge r) := by
  induction h with
  | nil => cases hmore : g.parseArgs more <;> simp [hmore, Except.map, merge]
  | arg hword _ ih =>
    rw [List.cons_append, parseArgs_arg hword, ih (Option.map_eq_none_iff.mp hdash),
      map_addArg_merge]
  | dashes words => cases hdash
  | flag hword hne hflag _ ih =>
    rw [List.cons_append, parseArgs_flag hword hne hflag, ih hdash, map_addFlags_merge]
  | taken hword hne hflag _ ih =>
    rw [List.cons_append, List.cons_append, parseArgs_taken hword hne hflag, ih hdash,
      map_addFlags_merge]

/-- Words behind two dashes are arguments. -/
theorem Splits.append_dashed {words : List Bytes} {r : List (String × Bytes) × Positional}
    (h : Splits g words r) (hdash : r.2.lenAtDash ≠ none) (more : List Bytes) :
    g.parseArgs (words ++ more) = .ok (r.1, ⟨r.2.args ++ more, r.2.lenAtDash⟩) := by
  induction h with
  | nil => exact absurd rfl hdash
  | arg hword _ ih =>
    rw [List.cons_append, parseArgs_arg hword, ih fun hnone ↦ hdash (by rw [addArg, hnone]; rfl)]
    rfl
  | dashes words => exact parseArgs_dashes (words ++ more)
  | flag hword hne hflag _ ih =>
    rw [List.cons_append, parseArgs_flag hword hne hflag, ih hdash]
    rfl
  | taken hword hne hflag _ ih =>
    rw [List.cons_append, List.cons_append, parseArgs_taken hword hne hflag, ih hdash]
    rfl

theorem parseArgs_args {words : List Bytes} (h : ∀ word ∈ words, isFlagWord word = false) :
    g.parseArgs words = .ok ([], ⟨words, none⟩) := by
  induction words with
  | nil => rfl
  | cons word words ih =>
    rw [List.forall_mem_cons] at h
    rw [parseArgs_arg h.1, ih h.2]
    rfl

/-- There are as many arguments as words only if no word is a flag. -/
theorem Splits.length {words : List Bytes} {r : List (String × Bytes) × Positional}
    (h : Splits g words r) : r.2.args.length ≤ words.length ∧
      (r.2.args.length = words.length → ∀ word ∈ words, isFlagWord word = false) := by
  induction h with
  | nil => exact ⟨le_rfl, fun _ ↦ nofun⟩
  | arg hword _ ih =>
    refine ⟨Nat.succ_le_succ ih.1, fun hlength ↦ ?_⟩
    rw [List.forall_mem_cons]
    exact ⟨hword, ih.2 (Nat.succ.inj hlength)⟩
  | dashes words => exact ⟨Nat.le_succ _, fun hlength ↦ by simp at hlength⟩
  | flag hword hne hflag _ ih =>
    simp only [addFlags, List.length_cons]
    exact ⟨by omega, fun hlength ↦ by omega⟩
  | taken hword hne hflag _ ih =>
    simp only [addFlags, List.length_cons]
    exact ⟨by omega, fun hlength ↦ by omega⟩

end Words

end Grammar

section Lines

/-- A flag of the command as it stands on the command line. -/
def Flag.entry (f : Flag) : Entry := ⟨f.name, if f.kind = .bool then literal "true" else []⟩

namespace Command

variable (parseDuration : ParseDuration) (cmd : Command)

/-- The letter of the flag for help. -/
def helpLetter : UInt8 := 0x68

/-- The flags of a command by name, and by letter for those that have one. -/
def grammar (shorthands : List (UInt8 × String)) : Grammar where
  long name := (cmd.all.find? fun f ↦ literal f.name = name).map Flag.entry
  short letter :=
    ((((helpLetter, "help") :: shorthands).lookup letter).bind cmd.find).map Flag.entry

/-- The values and the arguments that the body of the command sees, if it runs; there are none
if help was asked for. -/
def executeLine (preRun : FlagSet → Except Err FlagSet) (shorthands : List (UInt8 × String))
    (words : List Bytes) : Except Err (Option ((String → Value) × List Bytes)) :=
  match (cmd.grammar shorthands).parseArgs words with
  | .error err => .error err
  | .ok (given, p) =>
    match cmd.parseFlags parseDuration given with
    | .error err => .error err
    | .ok st =>
      if (st.values "help").isTrue then .ok none
      else (cmd.execute parseDuration preRun given p).map fun values ↦ some (values, p.args)

variable {parseDuration cmd} {preRun : FlagSet → Except Err FlagSet}
  {shorthands : List (UInt8 × String)} {words : List Bytes} {values : String → Value}
  {args : List Bytes}

/-- What the words are when the body of the command runs. -/
theorem executeLine_eq_some :
    cmd.executeLine parseDuration preRun shorthands words = .ok (some (values, args)) ↔
      ∃ given p, (cmd.grammar shorthands).parseArgs words = .ok (given, p) ∧
        cmd.execute parseDuration preRun given p = .ok values ∧ p.args = args := by
  constructor
  · intro h
    rw [executeLine] at h
    split at h
    · cases h
    · rename_i given p hparse
      split at h
      · cases h
      · split_ifs at h
        · cases h
        · obtain ⟨values', hexecute, heq⟩ := map_eq_ok_iff.mp h
          cases heq
          exact ⟨given, p, hparse, hexecute, rfl⟩
  · rintro ⟨given, p, hparse, hexecute, rfl⟩
    obtain ⟨st, -, hflags, hhelp, -⟩ := execute_eq_ok_iff.mp hexecute
    simp only [executeLine, hparse, hflags, hhelp, hexecute]
    rfl

end Command

end Lines

end RelayCat.Cobra
