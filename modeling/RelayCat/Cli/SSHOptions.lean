import RelayCat.AccessCode.State
import RelayCat.Go.Filepath

/-!
# The input of `relaycat ssh`

The connection code of `relaycat ssh` is the first argument, with or without a user name before
it, or the content of a file that nobody else may read, or an environment variable. The other
arguments are the remote command.
-/

namespace RelayCat.Cli

open Go Utf8 AccessCode

/-- The fields of `sshOptions` that the user's input goes to. -/
structure SSHOptions where
  codeFile : Bytes
  user : Bytes
  identityFile : Bytes
  tokenFile : Bytes
  caFile : Bytes
  sshOptions : List Bytes
  allowInsecure : Bool
  noAuth : Bool
  acceptNewHost : Bool
  idleTimeout : ℤ
  connectionCode : Bytes
  remoteCommand : List Bytes
  deriving DecidableEq, Repr

/-- What the command asks the system for: `os.UserHomeDir`, `os.Getenv`, the permission bits that
`os.Stat` reports, and `os.ReadFile`. -/
structure Host where
  windows : Bool
  userHomeDir : Except Err Bytes
  getenv (name : String) : Bytes
  stat (path : Bytes) : Except Err ℕ
  readFile (path : Bytes) : Except Err Bytes

/-- `strings.Index`. -/
def index (sub : Bytes) : Bytes → Option ℕ
  | [] => if sub = [] then some 0 else none
  | b :: rest => if sub <+: b :: rest then some 0 else (index sub rest).map (· + 1)

def expandHome (userHomeDir : Except Err Bytes) (path : Bytes) : Bytes :=
  if literal "~/" <+: path then
    match userHomeDir with
    | .ok home => Filepath.clean (home ++ Filepath.separator :: path.drop 2)
    | .error _ => path
  else path

def validSSHUserStart (r : Char) : Bool :=
  ('a' ≤ r && r ≤ 'z') || ('A' ≤ r && r ≤ 'Z') || ('0' ≤ r && r ≤ '9') || r == '_'

def validSSHUserPart (r : Char) : Bool :=
  ('a' ≤ r && r ≤ 'z') || ('A' ≤ r && r ≤ 'Z') || ('0' ≤ r && r ≤ '9') || "._-".toList.contains r

def validSSHUser (user : Bytes) : Bool :=
  match runes user with
  | [] => false
  | r :: rest => validSSHUserStart r && (r :: rest).all validSSHUserPart

def defaultUser : Bytes := literal "relaycat"

/-- The mark before a code that has a user name. -/
def userMark : Bytes := 0x40 :: codePrefix

namespace SSHOptions

/-- The part of `resolveInput` that looks at the arguments. -/
def takeCode (o : SSHOptions) : List Bytes → Except Err SSHOptions
  | [] => .ok { o with remoteCommand := [] }
  | first :: rest =>
    match index userMark first with
    | some i =>
      if o.user ≠ defaultUser then
        .error (.new
          "username cannot be specified both before the connection code and with --user")
      else
        let o := { o with user := first.take i }
        if codePrefix <+: first.drop (i + 1) then
          .ok { o with connectionCode := first.drop (i + 1), remoteCommand := rest }
        else .ok { o with remoteCommand := first :: rest }
    | none =>
      if codePrefix <+: first then .ok { o with connectionCode := first, remoteCommand := rest }
      else .ok { o with remoteCommand := first :: rest }

/-- The part of `resolveInput` that looks at the code file. -/
def readCode (host : Host) (codeFile code : Bytes) : Except Err Bytes :=
  if code = [] ∧ codeFile ≠ [] then
    let path := expandHome host.userHomeDir codeFile
    match checkPrivateFile host.windows path (host.stat path) with
    | .error err => .error err
    | .ok () =>
      match host.readFile path with
      | .error err => .error (.errorf "reading connection code file" err)
      | .ok data => .ok (trimSpace data)
  else .ok code

/-- `resolveInput` behind the arguments: the code, if everything is in order. -/
def resolveCode (host : Host) (user codeFile code : Bytes) : Except Err Bytes :=
  if code ≠ [] ∧ codeFile ≠ [] then
    .error (.new "connection code cannot be specified both as an argument and with --code-file")
  else
    match readCode host codeFile code with
    | .error err => .error err
    | .ok code =>
      let code := if code = [] then trimSpace (host.getenv "RELAYCAT_CODE") else code
      if code = [] then
        .error (.new
          "connection code is required as an argument, --code-file, or RELAYCAT_CODE")
      else if validSSHUser user = false then
        .error (.new "SSH username contains unsupported characters")
      else .ok code

def resolveInput (host : Host) (o : SSHOptions) (args : List Bytes) : Except Err SSHOptions :=
  match o.takeCode args with
  | .error err => .error err
  | .ok o =>
    (resolveCode host o.user o.codeFile o.connectionCode).map fun code ↦
      { o with connectionCode := code }

end SSHOptions

/-- The options of `relaycat ssh --code-file`. -/
def codeFileOptions (codeFile : Bytes) : SSHOptions where
  codeFile := codeFile
  user := defaultUser
  identityFile := []
  tokenFile := []
  caFile := []
  sshOptions := []
  allowInsecure := false
  noAuth := false
  acceptNewHost := false
  idleTimeout := 1800 * 10 ^ 9
  connectionCode := []
  remoteCommand := []

theorem validSSHUser_default : validSSHUser defaultUser = true := by decide +kernel

section Arguments

variable {o : SSHOptions} {host : Host}

/-- An argument that `resolveInput` takes a code from. -/
def HasCode (arg : Bytes) : Prop := index userMark arg ≠ none ∨ codePrefix <+: arg

instance (arg : Bytes) : Decidable (HasCode arg) := inferInstanceAs (Decidable (_ ∨ _))

theorem takeCode_of_not_hasCode {args : List Bytes} (h : ∀ arg ∈ args.head?, ¬HasCode arg) :
    o.takeCode args = .ok { o with remoteCommand := args } := by
  cases args with
  | nil => rfl
  | cons first rest =>
    have hfirst := h first rfl
    rw [HasCode, not_or, not_not] at hfirst
    simp only [SSHOptions.takeCode, hfirst.1, hfirst.2, if_false]

theorem index_eq_some {sub s : Bytes} {i : ℕ} (h : index sub s = some i) : sub <+: s.drop i := by
  induction s generalizing i with
  | nil =>
    rw [index] at h
    split_ifs at h with hsub
    rw [hsub]
    exact List.nil_prefix
  | cons b rest ih =>
    rw [index] at h
    split_ifs at h with hbegins
    · cases h
      exact hbegins
    · obtain ⟨j, hj, rfl⟩ := Option.map_eq_some_iff.mp h
      exact ih hj

/-- Behind the name of the user the code starts. -/
theorem codePrefix_of_index {arg : Bytes} {i : ℕ} (h : index userMark arg = some i) :
    codePrefix <+: arg.drop (i + 1) := by
  obtain ⟨rest, hrest⟩ := index_eq_some h
  refine ⟨rest, ?_⟩
  rw [← List.tail_drop, ← hrest]
  rfl

/-- The options with another remote command. -/
def SSHOptions.withCommand (o : SSHOptions) (command : List Bytes) : SSHOptions :=
  { o with remoteCommand := command }

/-- What follows the code is the remote command. -/
theorem takeCode_cons {target : Bytes} (h : HasCode target) (command : List Bytes) :
    o.takeCode (target :: command) = (o.takeCode [target]).map (·.withCommand command) := by
  cases hindex : index userMark target with
  | some i =>
    by_cases huser : o.user = defaultUser
    · simp [SSHOptions.takeCode, hindex, huser, codePrefix_of_index hindex, Except.map,
        SSHOptions.withCommand]
    · simp [SSHOptions.takeCode, hindex, huser, Except.map]
  | none =>
    have hbegins : codePrefix <+: target := h.resolve_left (not_not_intro hindex)
    simp [SSHOptions.takeCode, hindex, hbegins, Except.map, SSHOptions.withCommand]

/-- The remote command has no part in how the rest of the input is resolved. -/
theorem resolveInput_cons {target : Bytes} (h : HasCode target) (command : List Bytes) :
    o.resolveInput host (target :: command) =
      (o.resolveInput host [target]).map (·.withCommand command) := by
  rw [SSHOptions.resolveInput, SSHOptions.resolveInput, takeCode_cons h]
  cases o.takeCode [target] with
  | error err => rfl
  | ok o =>
    change (SSHOptions.resolveCode host o.user o.codeFile o.connectionCode).map _ =
      ((SSHOptions.resolveCode host o.user o.codeFile o.connectionCode).map _).map _
    cases SSHOptions.resolveCode host o.user o.codeFile o.connectionCode with
    | error err => rfl
    | ok code => rfl

theorem takeCode_sshOptions {args : List Bytes} {o' : SSHOptions} (h : o.takeCode args = .ok o') :
    o'.sshOptions = o.sshOptions := by
  cases args with
  | nil =>
    cases h
    rfl
  | cons first rest =>
    rw [SSHOptions.takeCode] at h
    split at h
    · split_ifs at h
      · cases h
        rfl
      · cases h
        rfl
    · split_ifs at h
      · cases h
        rfl
      · cases h
        rfl

/-- Resolving the input leaves the options for OpenSSH alone. -/
theorem resolveInput_sshOptions {args : List Bytes} {o' : SSHOptions}
    (h : o.resolveInput host args = .ok o') : o'.sshOptions = o.sshOptions := by
  rw [SSHOptions.resolveInput] at h
  split at h
  · cases h
  · rename_i o'' htake
    cases hcode : SSHOptions.resolveCode host o''.user o''.codeFile o''.connectionCode with
    | error err =>
      rw [hcode] at h
      cases h
    | ok code =>
      rw [hcode] at h
      cases h
      have hsame := takeCode_sshOptions htake
      exact hsame

/-- Without a code among the arguments the file decides. -/
theorem resolveInput_file {args : List Bytes} {data : Bytes}
    (h : ∀ arg ∈ args.head?, ¬HasCode arg) (hcode : o.connectionCode = [])
    (hfile : o.codeFile ≠ []) (huser : validSSHUser o.user = true)
    (hcheck : checkPrivateFile host.windows (expandHome host.userHomeDir o.codeFile)
      (host.stat (expandHome host.userHomeDir o.codeFile)) = .ok ())
    (hread : host.readFile (expandHome host.userHomeDir o.codeFile) = .ok data)
    (hdata : trimSpace data ≠ []) :
    o.resolveInput host args =
      .ok { o with connectionCode := trimSpace data, remoteCommand := args } := by
  simp [SSHOptions.resolveInput, takeCode_of_not_hasCode h, SSHOptions.resolveCode,
    SSHOptions.readCode, hcode, hfile, huser, hcheck, hread, hdata, Except.map]

theorem resolveInput_unreadable {args : List Bytes} {err : Err}
    (h : ∀ arg ∈ args.head?, ¬HasCode arg) (hcode : o.connectionCode = [])
    (hfile : o.codeFile ≠ [])
    (hcheck : checkPrivateFile host.windows (expandHome host.userHomeDir o.codeFile)
      (host.stat (expandHome host.userHomeDir o.codeFile)) = .ok ())
    (hread : host.readFile (expandHome host.userHomeDir o.codeFile) = .error err) :
    o.resolveInput host args = .error (.errorf "reading connection code file" err) := by
  simp [SSHOptions.resolveInput, takeCode_of_not_hasCode h, SSHOptions.resolveCode,
    SSHOptions.readCode, hcode, hfile, hcheck, hread, Except.map]

end Arguments

end RelayCat.Cli
