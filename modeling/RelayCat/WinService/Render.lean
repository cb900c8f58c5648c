import RelayCat.Systemd.Unit
import RelayCat.Go.Errors

/-!
# The unit of an installed service

`renderSystemdUnit` writes the command of a service into a unit file, each word through
`systemdQuote`, which walks over the runes of the word and escapes what quoting, C-style escapes
and specifiers would change. It does not escape dollar signs, and a byte outside UTF-8 becomes
a rune of its own. So the service runs the requested command exactly if every word is UTF-8 and
no argument has a reference in it that systemd substitutes.
-/

namespace RelayCat.WinService

open Go Utf8 Systemd

structure InstallConfig where
  name : Bytes
  displayName : Bytes
  description : Bytes
  executable : Bytes
  arguments : List Bytes
  automatic : Bool
  deriving DecidableEq, Repr

/-- A hexadecimal digit of `%x`. -/
def hexDigit (n : ℕ) : UInt8 := UInt8.ofNat (if n < 10 then 0x30 + n else 0x61 + (n - 10))

/-- What `systemdQuote` writes for one rune. -/
def quoteRune (r : Char) : Bytes :=
  if r = '\\' ∨ r = '"' then backslash :: String.utf8EncodeChar r
  else if r = '%' then literal "%%"
  else if r = '\n' then literal "\\n"
  else if r = '\r' then literal "\\r"
  else if r = '\t' then literal "\\t"
  else if r.toNat < 0x20 ∨ r.toNat = 0x7f then
    [backslash, 0x78, hexDigit (r.toNat / 16), hexDigit (r.toNat % 16)]
  else String.utf8EncodeChar r

def systemdQuote (value : Bytes) : Bytes :=
  doubleQuote :: (runes value).flatMap quoteRune ++ [doubleQuote]

/-- The replacer of the description. -/
def replaceDescription (description : Bytes) : Bytes :=
  description.flatMap fun b ↦
    if b = 0x0d ∨ b = 0x0a then [0x20] else if b = percent then [percent, percent] else [b]

def commandLine (executable : Bytes) (arguments : List Bytes) : Bytes :=
  systemdQuote executable ++ arguments.flatMap fun argument ↦ 0x20 :: systemdQuote argument

/-- `filepath.IsAbs`. -/
def isAbs (path : Bytes) : Bool := path.head? == some 0x2f

/-- The text of a unit before the description. -/
def unitHead : Bytes := literal "[Unit]\nDescription="

/-- The text between the description and the command. -/
def unitMiddle : Bytes :=
  literal "\nWants=network-online.target\nAfter=network-online.target\n\n" ++
    literal "[Service]\nType=simple\nExecStart="

/-- The text after the command. -/
def unitTail : Bytes :=
  literal "\nRestart=on-failure\nRestartSec=5s\nKillSignal=SIGTERM\nTimeoutStopSec=30s\n\n" ++
    literal "[Install]\nWantedBy=multi-user.target\n"

def renderSystemdUnit (cfg : InstallConfig) : Except Err Bytes :=
  if cfg.executable = [] ∨ isAbs cfg.executable = false then
    .error (.new "systemd service executable must be an absolute path")
  else
    .ok (unitHead ++ replaceDescription cfg.description ++ unitMiddle ++
      commandLine cfg.executable cfg.arguments ++ unitTail)

section Quote

example : systemdQuote (literal "a\\b\"c") = literal "\"a\\\\b\\\"c\"" := by
  rw [literal_ofList, literal_ofList]
  decide +kernel

example : systemdQuote (literal "line\n\tend") = literal "\"line\\n\\tend\"" := by
  rw [literal_ofList, literal_ofList]
  decide +kernel

variable {word rest : Bytes}

theorem hexValue_hexDigit {n : ℕ} (h : n < 16) : hexValue (hexDigit n) = some n := by
  have hall : ∀ k : Fin 16, hexValue (hexDigit k) = some k.val := by decide
  exact hall ⟨n, h⟩

theorem flatMap_double {bs : Bytes} (h : percent ∉ bs) : bs.flatMap double = bs := by
  induction bs with
  | nil => rfl
  | cons b bs ih =>
    rw [List.mem_cons, not_or] at h
    rw [List.flatMap_cons, ih h.2, double, if_neg (Ne.symm h.1), List.singleton_append]

/-- A control character comes back from its number. -/
theorem words_control {r : Char} (hpos : r.toNat ≠ 0) (hlow : r.toNat < 0x20 ∨ r.toNat = 0x7f) :
    words (.quoted doubleQuote) .none word
        ([backslash, 0x78, hexDigit (r.toNat / 16), hexDigit (r.toNat % 16)] ++ rest) =
      words (.quoted doubleQuote) .none (word ++ (String.utf8EncodeChar r).flatMap double) rest := by
  have hascii : r.val ≤ 127 := by
    change r.toNat ≤ 127
    omega
  have hsum : 16 * (r.toNat / 16) + r.toNat % 16 = r.toNat := Nat.div_add_mod r.toNat 16
  have hbyte : UInt8.ofNat (16 * (r.toNat / 16) + r.toNat % 16) = r.toUInt8 := by
    rw [hsum]
    apply UInt8.toNat_inj.mp
    rw [toNat_toUInt8 hascii, UInt8.toNat_ofNat']
    omega
  have hpercent : percent ∉ [r.toUInt8] := by
    rw [List.mem_singleton]
    intro heq
    have hnat := congrArg UInt8.toNat heq
    rw [toNat_toUInt8 hascii] at hnat
    have hthirty : percent.toNat = 0x25 := rfl
    omega
  rw [encodeChar_ascii hascii, flatMap_double hpercent, ← hbyte]
  apply words_quoted_hex
  · exact hexValue_hexDigit (by omega)
  · exact hexValue_hexDigit (by omega)
  · omega

/-- Inside quotes, what is written for a rune is read as the rune with its percent sign doubled. -/
theorem words_quoteRune {r : Char} (hpos : r.toNat ≠ 0) :
    words (.quoted doubleQuote) .none word (quoteRune r ++ rest) =
      words (.quoted doubleQuote) .none (word ++ (String.utf8EncodeChar r).flatMap double) rest := by
  unfold quoteRune
  split_ifs with h1 h2 h3 h4 h5 h6
  · rcases h1 with rfl | rfl
    · exact words_quoted_escaped (by decide) rfl
    · exact words_quoted_escaped (by decide) rfl
  · subst h2
    rw [literal_ofList]
    exact words_quoted_append (List.all_iff_forall_prop.mp (by decide))
  · subst h3
    exact words_quoted_escaped (by decide) rfl
  · subst h4
    exact words_quoted_escaped (by decide) rfl
  · subst h5
    exact words_quoted_escaped (by decide) rfl
  · exact words_control hpos h6
  · rw [not_or] at h1
    have hquote : doubleQuote ∉ String.utf8EncodeChar r := notMem_encodeChar (by decide) h1.2
    have hbackslash : backslash ∉ String.utf8EncodeChar r := notMem_encodeChar (by decide) h1.1
    have hpercent : percent ∉ String.utf8EncodeChar r := notMem_encodeChar (by decide) h2
    rw [flatMap_double hpercent]
    apply words_quoted_append
    intro b hb
    exact ⟨fun heq ↦ hquote (heq ▸ hb), fun heq ↦ hbackslash (heq ▸ hb)⟩

theorem words_quoteRunes {rs : List Char} (hpos : ∀ r ∈ rs, r.toNat ≠ 0) :
    words (.quoted doubleQuote) .none word (rs.flatMap quoteRune ++ rest) =
      words (.quoted doubleQuote) .none (word ++ (encode rs).flatMap double) rest := by
  induction rs generalizing word with
  | nil => simp
  | cons r rs ih =>
    rw [List.flatMap_cons, List.append_assoc, words_quoteRune (hpos r List.mem_cons_self),
      ih fun r' hr' ↦ hpos r' (List.mem_cons_of_mem r hr'), encode_cons, List.flatMap_append,
      List.append_assoc]

/-- A string without NUL has no NUL rune. -/
theorem toNat_ne_zero_of_mem_runes {value : Bytes} (h : 0 ∉ value) {r : Char}
    (hr : r ∈ runes value) : r.toNat ≠ 0 := by
  obtain ⟨s, hs, rfl⟩ := List.mem_map.mp hr
  cases s with
  | bad b =>
    have herror : runeError.toNat ≠ 0 := by decide
    exact herror
  | char c =>
    intro hzero
    have hc : c = Char.ofUInt8 0 := Char.ext (UInt32.toNat_inj.mp hzero)
    apply h
    rw [← flatMap_bytes_segments value, List.mem_flatMap]
    refine ⟨_, hs, ?_⟩
    rw [hc]
    decide

/-- A quoted value at the start of a word. -/
theorem words_systemdQuote {value : Bytes} (h : 0 ∉ value) :
    words .blank .none word (systemdQuote value ++ rest) =
      words .bare .none ((sanitize value).flatMap double) rest := by
  rw [systemdQuote, List.cons_append, List.cons_append, words_open, List.append_assoc,
    words_quoteRunes fun r hr ↦ toNat_ne_zero_of_mem_runes h hr, List.nil_append,
    List.singleton_append, words_close]
  rfl

theorem words_arguments {arguments : List Bytes} (h : ∀ a ∈ arguments, 0 ∉ a) :
    words .bare .none word (arguments.flatMap fun a ↦ 0x20 :: systemdQuote a) =
      some (word :: arguments.map fun a ↦ (sanitize a).flatMap double) := by
  induction arguments generalizing word with
  | nil => rfl
  | cons a arguments ih =>
    rw [List.flatMap_cons, List.cons_append, words_next,
      words_systemdQuote (h a List.mem_cons_self),
      ih fun a' ha' ↦ h a' (List.mem_cons_of_mem a ha')]
    rfl

/-- Up to variables, systemd reads the words that were written, invalid bytes replaced. -/
theorem argumentVector_commandLine (specifier : UInt8 → Option Bytes) (env : Bytes → Option Bytes)
    {executable : Bytes} {arguments : List Bytes} (hexecutable : 0 ∉ executable)
    (harguments : ∀ a ∈ arguments, 0 ∉ a) :
    argumentVector specifier env (commandLine executable arguments) =
      some (sanitize executable ::
        (arguments.map sanitize).flatMap (expandVariables env)) := by
  rw [argumentVector, commandLine, words_systemdQuote hexecutable, words_arguments harguments]
  simp only [expandSpecifiers_double, List.map_map, Function.comp_def]

end Quote

section Unit

theorem isLineEnd_quoteRune (r : Char) : ∀ b ∈ quoteRune r, isLineEnd b = false := by
  have hdigit : ∀ k : Fin 16, isLineEnd (hexDigit k) = false := by decide
  unfold quoteRune
  split_ifs with h1 h2 h3 h4 h5 h6
  · rcases h1 with rfl | rfl
    · exact List.all_iff_forall_prop.mp (by decide)
    · exact List.all_iff_forall_prop.mp (by decide)
  · rw [literal_ofList]
    exact List.all_iff_forall_prop.mp (by decide)
  · rw [literal_ofList]
    exact List.all_iff_forall_prop.mp (by decide)
  · rw [literal_ofList]
    exact List.all_iff_forall_prop.mp (by decide)
  · rw [literal_ofList]
    exact List.all_iff_forall_prop.mp (by decide)
  · intro b hb
    simp only [List.mem_cons, List.not_mem_nil, or_false] at hb
    rcases hb with rfl | rfl | rfl | rfl
    · rfl
    · rfl
    · exact hdigit ⟨r.toNat / 16, by omega⟩
    · exact hdigit ⟨r.toNat % 16, by omega⟩
  · have hfeed : (0x0a : UInt8) ∉ String.utf8EncodeChar r := notMem_encodeChar (by decide) h3
    have hreturn : (0x0d : UInt8) ∉ String.utf8EncodeChar r := notMem_encodeChar (by decide) h4
    intro b hb
    rw [isLineEnd, Bool.or_eq_false_iff, beq_eq_false_iff_ne, beq_eq_false_iff_ne]
    exact ⟨fun heq ↦ hfeed (heq ▸ hb), fun heq ↦ hreturn (heq ▸ hb)⟩

theorem isLineEnd_systemdQuote (value : Bytes) : ∀ b ∈ systemdQuote value, isLineEnd b = false := by
  intro b hb
  rw [systemdQuote, List.cons_append, List.mem_cons, List.mem_append, List.mem_singleton,
    List.mem_flatMap] at hb
  rcases hb with rfl | ⟨r, -, hr⟩ | rfl
  · rfl
  · exact isLineEnd_quoteRune r b hr
  · rfl

theorem isLineEnd_commandLine (executable : Bytes) (arguments : List Bytes) :
    ∀ b ∈ commandLine executable arguments, isLineEnd b = false := by
  intro b hb
  rw [commandLine, List.mem_append, List.mem_flatMap] at hb
  rcases hb with hb | ⟨a, -, hb⟩
  · exact isLineEnd_systemdQuote executable b hb
  · rcases List.mem_cons.mp hb with rfl | hb
    · rfl
    · exact isLineEnd_systemdQuote a b hb

theorem isLineEnd_replaceDescription (description : Bytes) :
    ∀ b ∈ replaceDescription description, isLineEnd b = false := by
  intro b hb
  obtain ⟨c, -, hb⟩ := List.mem_flatMap.mp hb
  split_ifs at hb with h1 h2
  · rw [List.mem_singleton.mp hb]
    rfl
  · simp only [List.mem_cons, List.not_mem_nil, or_false, or_self] at hb
    rw [hb]
    rfl
  · rw [List.mem_singleton.mp hb, isLineEnd, Bool.or_eq_false_iff, beq_eq_false_iff_ne,
      beq_eq_false_iff_ne]
    rw [not_or] at h1
    exact ⟨h1.2, h1.1⟩

theorem getLast?_systemdQuote (value : Bytes) :
    (systemdQuote value).getLast? = some doubleQuote := List.getLast?_concat

theorem getLast?_commandLine (executable : Bytes) (arguments : List Bytes) :
    (commandLine executable arguments).getLast? = some doubleQuote := by
  have hgen : ∀ front : Bytes, front.getLast? = some doubleQuote →
      (front ++ arguments.flatMap fun a ↦ 0x20 :: systemdQuote a).getLast? = some doubleQuote := by
    induction arguments with
    | nil =>
      intro front hfront
      rwa [List.flatMap_nil, List.append_nil]
    | cons a arguments ih =>
      intro front _
      rw [List.flatMap_cons, ← List.append_assoc]
      apply ih
      rw [List.getLast?_append, List.getLast?_cons, getLast?_systemdQuote]
      rfl
  exact hgen _ (getLast?_systemdQuote executable)

theorem strip_commandLine (executable : Bytes) (arguments : List Bytes) :
    strip (commandLine executable arguments) = commandLine executable arguments := by
  apply strip_eq_self
  · rintro b ⟨⟩
    rfl
  · intro b hb
    rw [getLast?_commandLine] at hb
    cases hb
    rfl

/-- The lines between the description and the command. -/
def middleLines : List Bytes :=
  [literal "Wants=network-online.target", literal "After=network-online.target", [],
    literal "[Service]", literal "Type=simple"]

/-- The lines after the command. -/
def tailLines : List Bytes :=
  [literal "Restart=on-failure", literal "RestartSec=5s", literal "KillSignal=SIGTERM",
    literal "TimeoutStopSec=30s", [], literal "[Install]", literal "WantedBy=multi-user.target"]

theorem isKey_description : IsKey (literal "Description") := by
  rw [literal_ofList]
  exact ⟨⟨0x44, by decide⟩, List.all_iff_forall_prop.mp (by decide),
    List.all_iff_forall_prop.mp (by decide)⟩

theorem isKey_execStart : IsKey (literal "ExecStart") := by
  rw [literal_ofList]
  exact ⟨⟨0x45, by decide⟩, List.all_iff_forall_prop.mp (by decide),
    List.all_iff_forall_prop.mp (by decide)⟩

/-- A line of the template stays what it is when the unit is read. -/
theorem plain_templateLines : ∀ l ∈ literal "[Unit]" :: (middleLines ++ tailLines),
    (∀ b ∈ l, isLineEnd b = false) ∧ (!isComment l) = true ∧ l.getLast? ≠ some backslash := by
  unfold middleLines tailLines
  repeat rw [literal_ofList]
  decide +kernel

theorem plain_middleLines {l : Bytes} (hl : l ∈ middleLines) :
    (∀ b ∈ l, isLineEnd b = false) ∧ (!isComment l) = true ∧ l.getLast? ≠ some backslash :=
  plain_templateLines l (List.mem_cons_of_mem _ (List.mem_append_left _ hl))

theorem plain_tailLines {l : Bytes} (hl : l ∈ tailLines) :
    (∀ b ∈ l, isLineEnd b = false) ∧ (!isComment l) = true ∧ l.getLast? ≠ some backslash :=
  plain_templateLines l (List.mem_cons_of_mem _ (List.mem_append_right _ hl))

theorem unitHead_eq :
    unitHead = unlines [literal "[Unit]"] ++ (literal "Description" ++ [equalsSign]) := by
  unfold unitHead
  repeat rw [literal_ofList]
  rfl

theorem unitMiddle_eq : unitMiddle =
    0x0a :: (unlines middleLines ++ (literal "ExecStart" ++ [equalsSign])) := by
  unfold unitMiddle middleLines
  repeat rw [literal_ofList]
  rfl

theorem unitTail_eq : unitTail = 0x0a :: (unlines tailLines ++ []) := by
  unfold unitTail tailLines
  repeat rw [literal_ofList]
  rfl

/-- The lines of a unit. -/
theorem lines_renderSystemdUnit {cfg : InstallConfig} {unit : Bytes}
    (h : renderSystemdUnit cfg = .ok unit) :
    lines unit = literal "[Unit]" ::
      (literal "Description" ++ equalsSign :: replaceDescription cfg.description) ::
      (middleLines ++ (literal "ExecStart" ++
        equalsSign :: commandLine cfg.executable cfg.arguments) :: (tailLines ++ [[]])) := by
  have hplain : ∀ l ∈ [literal "[Unit]"], ∀ b ∈ l, isLineEnd b = false := by
    intro l hl
    rw [List.mem_singleton.mp hl]
    exact (plain_templateLines _ List.mem_cons_self).1
  have hunit : unit = unlines [literal "[Unit]"] ++
      ((literal "Description" ++ equalsSign :: replaceDescription cfg.description) ++ 0x0a ::
        (unlines middleLines ++ ((literal "ExecStart" ++
          equalsSign :: commandLine cfg.executable cfg.arguments) ++ 0x0a ::
            (unlines tailLines ++ [])))) := by
    unfold renderSystemdUnit at h
    split_ifs at h
    cases h
    rw [unitHead_eq, unitMiddle_eq, unitTail_eq]
    simp only [List.append_assoc, List.cons_append, List.nil_append]
  rw [hunit, lines_unlines_append hplain,
    lines_append (isLineEnd_assignment isKey_description (isLineEnd_replaceDescription _)),
    lines_unlines_append fun _ hl ↦ (plain_middleLines hl).1,
    lines_append (isLineEnd_assignment isKey_execStart (isLineEnd_commandLine _ _)),
    lines_unlines_append fun _ hl ↦ (plain_tailLines hl).1]
  rfl

/-- The entries for the description, which is followed by the line about wanted units. -/
def descriptionEntries (description : Bytes) : List Entry :=
  if (equalsSign :: description).getLast? = some backslash then
    [.directive (literal "Description")
      (strip (description.dropLast ++ 0x20 :: literal "Wants=network-online.target"))]
  else
    [.directive (literal "Description") (strip description),
      .directive (literal "Wants") (literal "network-online.target")]

def middleEntries : List Entry :=
  [.directive (literal "After") (literal "network-online.target"), .header (literal "Service"),
    .directive (literal "Type") (literal "simple")]

def tailEntries : List Entry :=
  [.directive (literal "Restart") (literal "on-failure"),
    .directive (literal "RestartSec") (literal "5s"),
    .directive (literal "KillSignal") (literal "SIGTERM"),
    .directive (literal "TimeoutStopSec") (literal "30s"), .header (literal "Install"),
    .directive (literal "WantedBy") (literal "multi-user.target")]

theorem join_command (cfg : InstallConfig) (front : List Bytes)
    (hfront : ∀ l ∈ front, l.getLast? ≠ some backslash) :
    join (front ++ (literal "ExecStart" ++
        equalsSign :: commandLine cfg.executable cfg.arguments) :: (tailLines ++ [[]])) =
      front ++ (literal "ExecStart" ++
        equalsSign :: commandLine cfg.executable cfg.arguments) :: (tailLines ++ [[]]) := by
  have hcommand : (literal "ExecStart" ++
      equalsSign :: commandLine cfg.executable cfg.arguments).getLast? ≠ some backslash := by
    rw [List.getLast?_append, List.getLast?_cons, getLast?_commandLine]
    decide
  rw [join_append hfront, join, if_neg hcommand,
    join_append fun _ hl ↦ (plain_tailLines hl).2.2]
  rfl

theorem lineEntry_unit : lineEntry (literal "[Unit]") = some (.header (literal "Unit")) := by
  rw [literal_ofList, literal_ofList]
  decide

theorem lineEntry_wants : lineEntry (literal "Wants=network-online.target") =
    some (.directive (literal "Wants") (literal "network-online.target")) := by
  repeat rw [literal_ofList]
  decide

theorem filterMap_middleLines : middleLines.tail.filterMap lineEntry = middleEntries := by
  unfold middleLines middleEntries
  repeat rw [literal_ofList]
  decide

theorem filterMap_tailLines : (tailLines ++ [[]]).filterMap lineEntry = tailEntries := by
  unfold tailLines tailEntries
  repeat rw [literal_ofList]
  decide

/-- The entries of a unit: those of the template, unless the description takes in the line
that follows it. -/
theorem entries_renderSystemdUnit {cfg : InstallConfig} {unit : Bytes}
    (h : renderSystemdUnit cfg = .ok unit) :
    entries unit = .header (literal "Unit") ::
      (descriptionEntries (replaceDescription cfg.description) ++ middleEntries ++
        .directive (literal "ExecStart") (commandLine cfg.executable cfg.arguments) ::
          tailEntries) := by
  have hlines := lines_renderSystemdUnit h
  set d := replaceDescription cfg.description
  have hfilter : (lines unit).filter (fun line ↦ !isComment line) = lines unit := by
    rw [List.filter_eq_self, hlines]
    simp only [List.forall_mem_cons, List.forall_mem_append, isComment_assignment isKey_description,
      isComment_assignment isKey_execStart]
    exact ⟨(plain_templateLines _ List.mem_cons_self).2.1, rfl,
      fun _ hl ↦ (plain_middleLines hl).2.1, rfl, fun _ hl ↦ (plain_tailLines hl).2.1, rfl, nofun⟩
  have hlast : (literal "[Unit]").getLast? ≠ some backslash :=
    (plain_templateLines _ List.mem_cons_self).2.2
  have hdescription : (literal "Description" ++ equalsSign :: d).getLast? =
      (equalsSign :: d).getLast? := by
    rw [List.getLast?_append, List.getLast?_cons, Option.some_or]
  have hmiddle : middleLines = literal "Wants=network-online.target" :: middleLines.tail := rfl
  rw [entries, hfilter, hlines, join, if_neg hlast, join, hdescription,
    join_command cfg middleLines fun _ hl ↦ (plain_middleLines hl).2.2, descriptionEntries]
  split_ifs with hbackslash
  · have hne : d ≠ [] := by
      intro hd
      rw [hd] at hbackslash
      exact absurd hbackslash (by decide)
    rw [hmiddle, List.cons_append]
    simp only [List.filterMap_cons, lineEntry_unit]
    rw [List.dropLast_append_of_ne_nil (List.cons_ne_nil equalsSign d),
      List.dropLast_cons_of_ne_nil hne, List.append_assoc, List.cons_append,
      lineEntry_assignment isKey_description]
    simp only [List.filterMap_append, List.filterMap_cons, filterMap_middleLines,
      lineEntry_assignment isKey_execStart, strip_commandLine, ← filterMap_tailLines,
      List.cons_append, List.nil_append]
  · rw [hmiddle, List.cons_append]
    simp only [List.filterMap_append, List.filterMap_cons, lineEntry_unit, lineEntry_wants,
      filterMap_middleLines, lineEntry_assignment isKey_description,
      lineEntry_assignment isKey_execStart, strip_commandLine, ← filterMap_tailLines,
      List.cons_append, List.nil_append]

/-- Whatever the description is, the service has one command, which is the one written. -/
theorem values_renderSystemdUnit {cfg : InstallConfig} {unit : Bytes}
    (h : renderSystemdUnit cfg = .ok unit) :
    values (literal "Service") (literal "ExecStart") (entries unit) =
      [commandLine cfg.executable cfg.arguments] := by
  have hsection : literal "Unit" ≠ literal "Service" := by
    rw [literal_ofList, literal_ofList]
    decide
  have hdescription (current : Bytes) (hcurrent : current ≠ literal "Service") (d : Bytes) :
      valuesFrom (literal "Service") (literal "ExecStart") current (descriptionEntries d) = [] ∧
        sectionAfter current (descriptionEntries d) = current := by
    unfold descriptionEntries
    split_ifs <;> simp [valuesFrom, sectionAfter, hcurrent]
  obtain ⟨hvalues, hafter⟩ := hdescription _ hsection (replaceDescription cfg.description)
  have hmiddle : valuesFrom (literal "Service") (literal "ExecStart") (literal "Unit")
      middleEntries = [] := by
    unfold middleEntries
    repeat rw [literal_ofList]
    decide
  have hmiddleAfter : sectionAfter (literal "Unit") middleEntries = literal "Service" := rfl
  have htail : valuesFrom (literal "Service") (literal "ExecStart") (literal "Service")
      tailEntries = [] := by
    unfold tailEntries
    repeat rw [literal_ofList]
    decide
  rw [entries_renderSystemdUnit h, values, valuesFrom, List.append_assoc, valuesFrom_append,
    hvalues, hafter, valuesFrom_append, hmiddle, hmiddleAfter, valuesFrom, if_pos ⟨rfl, rfl⟩, htail]
  rfl

end Unit

section Command

theorem serviceCommand_renderSystemdUnit (specifier : UInt8 → Option Bytes)
    (env : Bytes → Option Bytes) {cfg : InstallConfig} {unit : Bytes}
    (hexecutable : 0 ∉ cfg.executable) (harguments : ∀ a ∈ cfg.arguments, 0 ∉ a)
    (h : renderSystemdUnit cfg = .ok unit) :
    serviceCommand specifier env unit =
      some (sanitize cfg.executable ::
        cfg.arguments.flatMap fun a ↦ expandVariables env (sanitize a)) := by
  rw [serviceCommand, values_renderSystemdUnit h]
  simp only
  rw [argumentVector_commandLine specifier env hexecutable harguments, List.flatMap_map]

theorem exists_renderSystemdUnit {cfg : InstallConfig} (h : isAbs cfg.executable = true) :
    ∃ unit, renderSystemdUnit cfg = .ok unit := by
  have hne : cfg.executable ≠ [] := by
    intro hnil
    rw [hnil] at h
    cases h
  exact ⟨_, if_neg (by simp [hne, h])⟩

/-- The service runs the requested command, whatever its environment is, exactly if every word
of it is UTF-8 and no argument has a reference in it. -/
theorem serviceCommand_exact_iff (cfg : InstallConfig) (habsolute : isAbs cfg.executable = true)
    (hexecutable : 0 ∉ cfg.executable) (harguments : ∀ a ∈ cfg.arguments, 0 ∉ a) :
    ∃ unit, renderSystemdUnit cfg = .ok unit ∧
      ((∀ specifier env, serviceCommand specifier env unit =
          some (cfg.executable :: cfg.arguments)) ↔
        Valid cfg.executable ∧ ∀ a ∈ cfg.arguments, Valid a ∧ refers a = false) := by
  obtain ⟨unit, hunit⟩ := exists_renderSystemdUnit habsolute
  refine ⟨unit, hunit, ?_⟩
  constructor
  · intro h
    have hnone := h (fun _ ↦ none) noVariables
    rw [serviceCommand_renderSystemdUnit _ _ hexecutable harguments hunit, Option.some.injEq,
      List.cons.injEq] at hnone
    refine ⟨(sanitize_eq_iff _).mp hnone.1, fun a ha ↦ ?_⟩
    apply refers_of_expandVariables
    exact flatMap_eq_self (fun a ↦ length_expandVariables_le (sanitize a)) hnone.2 a ha
  · rintro ⟨hvalid, hplain⟩ specifier env
    rw [serviceCommand_renderSystemdUnit _ _ hexecutable harguments hunit,
      (sanitize_eq_iff _).mpr hvalid]
    have hself : ∀ a ∈ cfg.arguments, expandVariables env (sanitize a) = [a] := by
      intro a ha
      obtain ⟨ha, hrefers⟩ := hplain a ha
      rw [(sanitize_eq_iff a).mpr ha, expandVariables_of_not_refers env hrefers]
    rw [List.flatMap_congr hself, List.flatMap_singleton']

def sampleConfig (arguments : List Bytes) : InstallConfig where
  name := literal "relaycat-ssh"
  displayName := literal "Relaycat SSH"
  description := literal "Relaycat 100%\nSSH"
  executable := literal "/opt/relay cat/relaycat"
  arguments := arguments
  automatic := true

/-- Arguments with quotes, a percent sign, controls and a lone dollar sign. -/
def sampleArguments : List Bytes :=
  [literal "serve", literal "say \"50%\"", [0x01, 0x5c], literal "a$b", []]

theorem isAbs_sample : isAbs (literal "/opt/relay cat/relaycat") = true := by
  rw [literal_ofList]
  rfl

theorem zero_notMem_sample : 0 ∉ literal "/opt/relay cat/relaycat" := by
  rw [literal_ofList]
  decide

theorem serviceCommand_exact_sampleArguments :
    ∃ unit, renderSystemdUnit (sampleConfig sampleArguments) = .ok unit ∧
      ∀ specifier env, serviceCommand specifier env unit =
        some (literal "/opt/relay cat/relaycat" :: sampleArguments) := by
  obtain ⟨unit, hunit, hiff⟩ := serviceCommand_exact_iff (sampleConfig sampleArguments)
    isAbs_sample zero_notMem_sample (by decide +kernel)
  exact ⟨unit, hunit, hiff.mpr (by decide +kernel)⟩

/-- With `HOME` set, the argument `$HOME` is replaced; a byte that is not UTF-8 is replaced in
any environment. -/
theorem serviceCommand_substituted :
    (∃ unit, renderSystemdUnit (sampleConfig [literal "$HOME"]) = .ok unit ∧
      serviceCommand (fun _ ↦ none)
          (fun name ↦ if name = literal "HOME" then some (literal "/root") else none) unit =
        some [literal "/opt/relay cat/relaycat", literal "/root"]) ∧
    ∃ unit, renderSystemdUnit (sampleConfig [[0xff]]) = .ok unit ∧
      serviceCommand (fun _ ↦ none) noVariables unit =
        some [literal "/opt/relay cat/relaycat", [0xef, 0xbf, 0xbd]] := by
  constructor
  · obtain ⟨unit, hunit⟩ :=
      exists_renderSystemdUnit
        (show isAbs (sampleConfig [literal "$HOME"]).executable = true from isAbs_sample)
    refine ⟨unit, hunit, ?_⟩
    rw [serviceCommand_renderSystemdUnit _ _ zero_notMem_sample (by decide +kernel) hunit]
    decide +kernel
  · obtain ⟨unit, hunit⟩ := exists_renderSystemdUnit
      (show isAbs (sampleConfig [[0xff]]).executable = true from isAbs_sample)
    refine ⟨unit, hunit, ?_⟩
    rw [serviceCommand_renderSystemdUnit _ _ zero_notMem_sample (by decide +kernel) hunit]
    decide +kernel

end Command

end RelayCat.WinService
