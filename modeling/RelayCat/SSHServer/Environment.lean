import RelayCat.Go.Exec

/-!
# The command of an SSH session

`sessionHandler` up to the start of the command: the shell and its arguments, and an environment
that starts from four variables of the server's own and takes the client's pairs only if
`acceptEnvPair` does. The terminal's type comes last. What the command sees of each variable is
stated for the systems other than Windows, where `os/exec` tells keys apart by case.
-/

namespace RelayCat.SSHServer

open Go Go.Utf8 Go.Exec

inductive Goos where
  | unix
  | windows
  deriving DecidableEq, Repr

/-- The fields of `user.User` that are read. -/
structure User where
  homeDir : Bytes
  username : Bytes
  uid : Bytes
  deriving DecidableEq, Repr

/-- What the client has asked for; `pty` is the terminal's type if there is a terminal. -/
structure Session where
  rawCommand : Bytes
  environ : List Bytes
  pty : Option Bytes
  deriving DecidableEq, Repr

/-- `exec.Cmd`. -/
structure Cmd where
  args : List Bytes
  dir : Bytes
  env : List Bytes
  deriving DecidableEq, Repr

def defaultPath (u : User) : Bytes :=
  if u.uid = literal "0" then literal "/usr/local/sbin:/usr/local/bin:/usr/sbin:/usr/bin:/sbin:/bin"
  else literal "/usr/local/bin:/usr/bin:/bin"

/-- The shell that `sessionCommand` runs, from the server's own environment. -/
def sessionShell (goos : Goos) (osGetenv : Bytes → Bytes) : Bytes :=
  let shell := osGetenv (literal "SHELL")
  if shell = [] then
    match goos with
    | .windows => osGetenv (literal "COMSPEC")
    | .unix => literal "/bin/sh"
  else shell

def sessionCommand (goos : Goos) (osGetenv : Bytes → Bytes) (u : User) (rawCommand : Bytes) : Cmd :=
  let shell := sessionShell goos osGetenv
  { args :=
      match goos with
      | .windows => if rawCommand = [] then [shell] else [shell, literal "/c", rawCommand]
      | .unix =>
        if rawCommand = [] then [shell, literal "-l"] else [shell, literal "-c", rawCommand]
    dir := u.homeDir
    env := [literal "HOME=" ++ u.homeDir, literal "USER=" ++ u.username,
      literal "SHELL=" ++ shell, literal "PATH=" ++ defaultPath u] }

def acceptEnvPair (pair : Bytes) : Bool :=
  match Url.cut equalSign pair with
  | (key, some _) =>
    key = literal "TERM" || key = literal "LANG" || (literal "LC_").isPrefixOf key
  | (_, none) => false

inductive Launch where
  | refused (e : Err)
  | pipes (motd : Bool) (cmd : Cmd)
  | pty (motd : Bool) (cmd : Cmd)
  deriving DecidableEq, Repr

/-- The environment that `runWithPTY` starts the command with. -/
def Cmd.withTerm (cmd : Cmd) (term : Bytes) : Cmd :=
  if term = [] then cmd else { cmd with env := cmd.env ++ [literal "TERM=" ++ term] }

def sessionHandler (goos : Goos) (osGetenv : Bytes → Bytes) (current : Except Err User)
    (sess : Session) : Launch :=
  match current with
  | .error e => .refused e
  | .ok u =>
    let base := sessionCommand goos osGetenv u sess.rawCommand
    let cmd := { base with env := base.env ++ sess.environ.filter acceptEnvPair }
    let motd := sess.pty.isSome && sess.rawCommand.isEmpty
    match goos, sess.pty with
    | .unix, some term => .pty motd (cmd.withTerm term)
    | _, _ => .pipes motd cmd

def Launch.cmd : Launch → Option Cmd
  | refused _ => none
  | pipes _ cmd | pty _ cmd => some cmd

/-- The variables that a client may set. -/
def Settable (name : Bytes) : Prop :=
  name = literal "TERM" ∨ name = literal "LANG" ∨ literal "LC_" <+: name

instance : DecidablePred Settable := fun name ↦
  inferInstanceAs (Decidable (name = _ ∨ name = _ ∨ _ <+: name))

/-- What the command should see of a variable. -/
def visible (osGetenv : Bytes → Bytes) (u : User) (sess : Session) (name : Bytes) : Option Bytes :=
  if name = literal "HOME" then some u.homeDir
  else if name = literal "USER" then some u.username
  else if name = literal "SHELL" then some (sessionShell .unix osGetenv)
  else if name = literal "PATH" then some (defaultPath u)
  else if name = literal "TERM" ∧ sess.pty.getD [] ≠ [] then sess.pty
  else if Settable name then lastValue sess.environ name
  else none

section Variables

variable {osGetenv : Bytes → Bytes} {u : User} {sess : Session} {name pair : Bytes}

/-- The names of the server's own variables, with the equals sign that follows them. -/
theorem literal_equalSign :
    (literal "HOME=" = literal "HOME" ++ [equalSign] ∧
      literal "USER=" = literal "USER" ++ [equalSign] ∧
      literal "SHELL=" = literal "SHELL" ++ [equalSign] ∧
      literal "PATH=" = literal "PATH" ++ [equalSign] ∧
      literal "TERM=" = literal "TERM" ++ [equalSign]) ∧
    ∀ key ∈ ["HOME", "USER", "SHELL", "PATH", "TERM"], equalSign ∉ literal key := by
  refine ⟨by decide, ?_⟩
  decide

theorem not_settable :
    ∀ key ∈ ["HOME", "USER", "SHELL", "PATH"], ¬ Settable (literal key) := by
  decide

/-- An accepted pair is one that sets a settable variable. -/
theorem acceptEnvPair_eq_true (hvalue : valueOf name pair ≠ none) :
    acceptEnvPair pair = true ↔ Settable name := by
  unfold valueOf at hvalue
  split_ifs at hvalue with hname
  · obtain ⟨value, hsome⟩ := Option.ne_none_iff_exists'.mp hvalue
    have hcut : Url.cut equalSign pair = (name, some value) := Prod.ext hname hsome
    simp [acceptEnvPair, hcut, Settable, or_assoc]
  · contradiction

theorem lastValue_accepted (environ : List Bytes) (name : Bytes) :
    lastValue (environ.filter acceptEnvPair) name =
      if Settable name then lastValue environ name else none := by
  split_ifs with hsettable
  · exact lastValue_filter _ fun pair _ hvalue ↦ (acceptEnvPair_eq_true hvalue).mpr hsettable
  · refine lastValue_eq_none fun pair hpair ↦ ?_
    by_contra hvalue
    exact hsettable ((acceptEnvPair_eq_true hvalue).mp (List.mem_filter.mp hpair).2)

/-- The server's own variables. -/
theorem lastValue_sessionCommand (goos : Goos) (rawCommand name : Bytes) :
    lastValue (sessionCommand goos osGetenv u rawCommand).env name =
      if name = literal "HOME" then some u.homeDir
      else if name = literal "USER" then some u.username
      else if name = literal "SHELL" then some (sessionShell goos osGetenv)
      else if name = literal "PATH" then some (defaultPath u)
      else none := by
  obtain ⟨⟨hhome, huser, hshell, hpath, -⟩, hsign⟩ := literal_equalSign
  have hdistinct : (["HOME", "USER", "SHELL", "PATH"].map literal).Nodup := by decide
  simp only [List.map_cons, List.map_nil, List.nodup_cons, List.mem_cons, List.not_mem_nil,
    or_false, not_or] at hdistinct
  obtain ⟨⟨hhu, hhs, hhp⟩, ⟨hus, hup⟩, hsp, -⟩ := hdistinct
  simp only [sessionCommand, lastValue_cons, lastValue_nil, Option.none_or, hhome, huser, hshell,
    hpath, List.append_assoc, List.singleton_append]
  simp only [valueOf_pair (hsign "HOME" (by simp)), valueOf_pair (hsign "USER" (by simp)),
    valueOf_pair (hsign "SHELL" (by simp)), valueOf_pair (hsign "PATH" (by simp)),
    eq_comm (a := name)]
  split_ifs <;> simp_all

/-- The entry for the terminal's type. -/
def termEntry (sess : Session) : List Bytes :=
  if sess.pty.getD [] = [] then [] else [literal "TERM=" ++ sess.pty.getD []]

theorem env_of_sessionHandler {cmd : Cmd}
    (h : (sessionHandler .unix osGetenv (.ok u) sess).cmd = some cmd) :
    cmd.env = (sessionCommand .unix osGetenv u sess.rawCommand).env ++
      sess.environ.filter acceptEnvPair ++ termEntry sess := by
  unfold sessionHandler termEntry at *
  cases hpty : sess.pty with
  | none =>
    simp only [hpty, Launch.cmd, Option.some.injEq] at h
    simp [← h]
  | some term =>
    simp only [hpty, Launch.cmd, Option.some.injEq, Cmd.withTerm] at h
    by_cases hterm : term = [] <;> simp [← h, hterm]

theorem lastValue_termEntry (sess : Session) (name : Bytes) :
    lastValue (termEntry sess) name =
      if name = literal "TERM" ∧ sess.pty.getD [] ≠ [] then sess.pty else none := by
  obtain ⟨⟨-, -, -, -, hterm⟩, hsign⟩ := literal_equalSign
  unfold termEntry
  by_cases hempty : sess.pty.getD [] = []
  · simp [hempty]
  · obtain ⟨term, hpty⟩ : ∃ term, sess.pty = some term := by
      cases hpty : sess.pty with
      | none => simp [hpty] at hempty
      | some term => exact ⟨term, rfl⟩
    simp only [hempty, if_false, lastValue_cons, lastValue_nil, Option.none_or, hterm,
      List.append_assoc, List.singleton_append, valueOf_pair (hsign "TERM" (by simp)),
      eq_comm (a := name)]
    simp_all

theorem lastValue_eq_visible (osGetenv : Bytes → Bytes) (u : User) (sess : Session)
    (name : Bytes) :
    lastValue ((sessionCommand .unix osGetenv u sess.rawCommand).env ++
      sess.environ.filter acceptEnvPair ++ termEntry sess) name =
        visible osGetenv u sess name := by
  rw [lastValue_append, lastValue_append, lastValue_termEntry, lastValue_accepted,
    lastValue_sessionCommand]
  have hown := not_settable
  have hterm : ∀ key ∈ ["HOME", "USER", "SHELL", "PATH"], literal key ≠ literal "TERM" := by
    decide
  unfold visible
  by_cases hname : ∃ key ∈ ["HOME", "USER", "SHELL", "PATH"], name = literal key
  · obtain ⟨key, hkey, rfl⟩ := hname
    simp [hown key hkey, hterm key hkey]
  · simp only [List.mem_cons, List.not_mem_nil, or_false, exists_eq_or_imp, exists_eq_left,
      not_or] at hname
    obtain ⟨hhome, huser, hshell, hpath⟩ := hname
    simp only [hhome, huser, hshell, hpath, if_false, Option.or_none]
    split_ifs with hpty
    · cases hsome : sess.pty with
      | none => simp [hsome] at hpty
      | some term => rfl
    · cases hsome : sess.pty with
      | none => simp [hsome] at hpty
      | some term => rfl
    · rfl
    · rfl

theorem forall_sessionCommand_env {P : Bytes → Prop} {rawCommand : Bytes} :
    (∀ entry ∈ (sessionCommand .unix osGetenv u rawCommand).env, P entry) ↔
      P (literal "HOME=" ++ u.homeDir) ∧ P (literal "USER=" ++ u.username) ∧
      P (literal "SHELL=" ++ sessionShell .unix osGetenv) ∧
      P (literal "PATH=" ++ defaultPath u) := by
  simp [sessionCommand]

theorem zero_notMem_literals :
    ∀ text ∈ ["HOME=", "USER=", "SHELL=", "PATH=", "TERM=",
      "/usr/local/sbin:/usr/local/bin:/usr/sbin:/usr/bin:/sbin:/bin",
      "/usr/local/bin:/usr/bin:/bin"], 0 ∉ literal text := by
  decide

end Variables

/-- Whatever the client sends, a session's command sees the server's own `HOME`, `USER`, `SHELL`
and `PATH`, the type of its terminal in `TERM`, of the other variables that a client may set the
last value sent, and no other variable: none of the server's process and none of the client's.
The command gets an environment at all unless one of its entries contains NUL, so a pair that is
not accepted cannot keep it from starting. -/
theorem session_environment (osGetenv : Bytes → Bytes) (u : User) (sess : Session) {cmd : Cmd}
    (h : (sessionHandler .unix osGetenv (.ok u) sess).cmd = some cmd) :
    ((∃ given, dedupEnv cmd.env = .ok given) ↔
      0 ∉ u.homeDir ∧ 0 ∉ u.username ∧ 0 ∉ sessionShell .unix osGetenv ∧
      0 ∉ sess.pty.getD [] ∧ ∀ pair ∈ sess.environ, acceptEnvPair pair = true → 0 ∉ pair) ∧
    ∀ given, dedupEnv cmd.env = .ok given →
      ∀ name, IsName name → getenv given name = visible osGetenv u sess name := by
  have henv := env_of_sessionHandler h
  refine ⟨?_, fun given hgiven name hname ↦ ?_⟩
  · have hliterals := zero_notMem_literals
    simp only [List.forall_mem_cons] at hliterals
    obtain ⟨hhome, huser, hshell, hpath, hterm, hroot, hplain, -⟩ := hliterals
    have hdefault : 0 ∉ defaultPath u := by
      unfold defaultPath
      split_ifs <;> assumption
    have htermEntry : (∀ entry ∈ termEntry sess, 0 ∉ entry) ↔ 0 ∉ sess.pty.getD [] := by
      unfold termEntry
      split_ifs with hempty <;> simp [hempty, hterm]
    rw [dedupEnv_isOk, henv, List.forall_mem_append, List.forall_mem_append,
      forall_sessionCommand_env, htermEntry]
    simp only [List.mem_append, hhome, huser, hshell, hpath, hdefault, false_or,
      not_false_eq_true, and_true, List.mem_filter, and_imp]
    tauto
  · rw [getenv_of_dedupEnv hgiven hname, henv]
    exact lastValue_eq_visible osGetenv u sess name

/-- A client that tries to set the search path, to start the command under another home and to
send one variable twice. -/
def pushyClient : Session where
  rawCommand := literal "id"
  environ := [literal "PATH=/tmp", literal "LC_ALL=C", literal "HOME=/tmp", literal "LC_ALL=de",
    literal "TERM=vt100"]
  pty := some (literal "xterm")

theorem session_environment_pushyClient :
    ∃ cmd given, (sessionHandler .unix (fun _ ↦ []) (.ok ⟨literal "/root", literal "root",
        literal "0"⟩) pushyClient).cmd = some cmd ∧ dedupEnv cmd.env = .ok given ∧
      getenv given (literal "HOME") = some (literal "/root") ∧
      getenv given (literal "LC_ALL") = some (literal "de") ∧
      getenv given (literal "TERM") = some (literal "xterm") := by
  obtain ⟨hok, hvisible⟩ := session_environment (fun _ ↦ [])
    ⟨literal "/root", literal "root", literal "0"⟩ pushyClient rfl
  obtain ⟨given, hgiven⟩ := hok.mpr (by decide)
  refine ⟨_, given, rfl, hgiven, ?_, ?_, ?_⟩
  · exact hvisible given hgiven _ (by decide)
  · rw [hvisible given hgiven _ (by decide)]
    decide
  · rw [hvisible given hgiven _ (by decide)]
    decide

end RelayCat.SSHServer
