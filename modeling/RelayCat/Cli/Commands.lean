import RelayCat.Cobra.Command

/-!
# The commands

The commands of `relaycat` with their flags, as the source declares them: names, kinds, defaults,
which flags are required, which exclude each other, and what each command asks of its arguments.
The commands that install or run a service validate the service name together with their
arguments. The flag for help, which every command has from cobra, is not repeated here.
-/

namespace RelayCat.Cli

open Go Utf8 Cobra

section ServiceName

def isServiceNameStart (c : UInt8) : Bool :=
  (0x61 ≤ c.toNat && c.toNat ≤ 0x7a) || (0x41 ≤ c.toNat && c.toNat ≤ 0x5a) ||
    (0x30 ≤ c.toNat && c.toNat ≤ 0x39)

def isServiceNamePart (c : UInt8) : Bool :=
  isServiceNameStart c || c == 0x2e || c == 0x5f || c == 0x40 || c == 0x2d

def serviceNameError : Err :=
  .new ("service name must be 1-256 characters using letters, digits, dot, underscore, at, " ++
    "or hyphen")

def validateServiceName : Bytes → Except Err Unit
  | [] => .error serviceNameError
  | c :: rest =>
    if rest.length + 1 > 256 ∨ isServiceNameStart c = false then .error serviceNameError
    else if rest.all isServiceNamePart then .ok ()
    else .error serviceNameError

end ServiceName

def defaultServiceName : Bytes := literal "relaycat"

def stringFlag (name : String) (default : String) : Flag := ⟨name, .string (literal default)⟩

def boolFlag (name : String) : Flag := ⟨name, .bool false⟩

def intFlag (name : String) (default : ℤ) : Flag := ⟨name, .int default⟩

/-- A duration with a default in seconds. -/
def durationFlag (name : String) (seconds : ℤ) : Flag := ⟨name, .duration (seconds * 10 ^ 9)⟩

def stringSliceFlag (name : String) : Flag := ⟨name, .stringSlice []⟩

def nameFlag : Flag := ⟨"name", .string defaultServiceName⟩

/-- The persistent flags of the root command. -/
def rootFlags : List Flag :=
  [stringFlag "config" "", stringFlag "log-level" "info", stringFlag "log-format" "text"]

def newRelayCommand : Command where
  path := "relaycat relay"
  flags :=
    [stringFlag "listen" ":8443", stringFlag "tls-cert" "", stringFlag "tls-key" "",
      boolFlag "h2c", boolFlag "allow-public-h2c", stringFlag "auth-token-file" "",
      boolFlag "no-auth", boolFlag "reflection", stringFlag "metrics-listen" "",
      boolFlag "pprof", intFlag "max-agents" 1000, intFlag "max-tunnels-per-agent" 128,
      durationFlag "handshake-timeout" 10, durationFlag "shutdown-timeout" 15]
  inherited := rootFlags
  required := []
  exclusive := [("h2c", "tls-cert"), ("h2c", "tls-key"), ("no-auth", "auth-token-file")]
  validateArgs _ := noArgs "relaycat relay"

def newExposeCommand : Command where
  path := "relaycat expose"
  flags :=
    [stringFlag "relay" "", stringFlag "target" "", stringFlag "state" "",
      stringFlag "token-file" "", stringFlag "ca-file" "", boolFlag "allow-insecure-relay",
      stringFlag "output" "plain", durationFlag "idle-timeout" 1800]
  inherited := rootFlags
  required := ["relay", "target"]
  exclusive := []
  validateArgs _ := noArgs "relaycat expose"

def newConnectCommand : Command where
  path := "relaycat connect"
  flags :=
    [stringFlag "listen" "127.0.0.1:0", stringFlag "token-file" "", stringFlag "ca-file" "",
      boolFlag "allow-insecure-relay", boolFlag "allow-public-listen", boolFlag "once",
      durationFlag "idle-timeout" 1800]
  inherited := rootFlags
  required := []
  exclusive := []
  validateArgs _ := exactArgs 1

def newServeCommand : Command where
  path := "relaycat serve"
  flags :=
    [stringFlag "relay" "", stringFlag "state" "", stringFlag "token-file" "",
      stringFlag "ca-file" "", stringFlag "host-key" "", stringSliceFlag "authorized-keys-file",
      boolFlag "allow-insecure-relay", stringFlag "output" "plain",
      stringFlag "connection-code-file" "", durationFlag "idle-timeout" 1800]
  inherited := rootFlags
  required := ["relay"]
  exclusive := []
  validateArgs _ := exactArgs 1

def newSSHCommand : Command where
  path := "relaycat ssh"
  flags :=
    [stringFlag "code-file" "", stringFlag "user" "relaycat", stringFlag "identity-file" "",
      stringSliceFlag "ssh-option", boolFlag "no-auth", boolFlag "accept-new-host-key",
      stringFlag "token-file" "", stringFlag "ca-file" "", boolFlag "allow-insecure-relay",
      durationFlag "idle-timeout" 1800]
  inherited := rootFlags
  required := []
  exclusive := []
  validateArgs _ := arbitraryArgs

def newServiceInstallCommand : Command where
  path := "relaycat service install"
  flags :=
    [nameFlag, stringFlag "display-name" "",
      stringFlag "description" "Relaycat encrypted relay service",
      stringFlag "startup" "automatic"]
  inherited := rootFlags
  required := []
  exclusive := []
  validateArgs values p :=
    if p.lenAtDash = none then .error (.new "service command must follow --")
    else if p.args = [] then .error (.new "a Relaycat command is required after --")
    else if p.args.head? = some (literal "service") then
      .error (.new "a service cannot run another service command")
    else validateServiceName (values "name").text

def newServiceUninstallCommand : Command where
  path := "relaycat service uninstall"
  flags := [nameFlag]
  inherited := rootFlags
  required := []
  exclusive := []
  validateArgs _ := noArgs "relaycat service uninstall"

def newServiceStartCommand : Command where
  path := "relaycat service start"
  flags := [nameFlag]
  inherited := rootFlags
  required := []
  exclusive := []
  validateArgs _ := noArgs "relaycat service start"

def newServiceStopCommand : Command where
  path := "relaycat service stop"
  flags := [nameFlag, durationFlag "timeout" 30]
  inherited := rootFlags
  required := []
  exclusive := []
  validateArgs _ := noArgs "relaycat service stop"

def newServiceStatusCommand : Command where
  path := "relaycat service status"
  flags := [nameFlag, stringFlag "output" "plain"]
  inherited := rootFlags
  required := []
  exclusive := []
  validateArgs _ := noArgs "relaycat service status"

def newServiceRunCommand : Command where
  path := "relaycat service run"
  flags := [nameFlag]
  inherited := rootFlags
  required := []
  exclusive := []
  validateArgs values p :=
    if p.lenAtDash = none ∨ p.args = [] then
      .error (.new "a Relaycat command is required after --")
    else if p.args.head? = some (literal "service") then
      .error (.new "a service cannot run another service command")
    else validateServiceName (values "name").text

def newVersionCommand : Command where
  path := "relaycat version"
  flags := []
  inherited := rootFlags
  required := []
  exclusive := []
  validateArgs _ := noArgs "relaycat version"

def newCompletionCommand : Command where
  path := "relaycat completion"
  flags := []
  inherited := rootFlags
  required := []
  exclusive := []
  validateArgs _ := exactArgs 1

def commands : List Command :=
  [newRelayCommand, newExposeCommand, newServeCommand, newConnectCommand, newSSHCommand,
    newServiceInstallCommand, newServiceUninstallCommand, newServiceStartCommand,
    newServiceStopCommand, newServiceStatusCommand, newServiceRunCommand, newVersionCommand,
    newCompletionCommand]

/-- What every command has in common. -/
structure Regular (cmd : Command) : Prop where
  nodup : (cmd.all.map Flag.name).Nodup
  inherited : cmd.inherited = rootFlags
  required : ∀ name ∈ cmd.required, ∃ f ∈ cmd.all, f.name = name
  exclusive : ∀ pair ∈ cmd.exclusive,
    (∃ f ∈ cmd.all, f.name = pair.1) ∧ ∃ f ∈ cmd.all, f.name = pair.2
  /-- Arguments that pass with some values pass with those in which flags have their defaults
  instead. -/
  validateArgs : ∀ (values values' : String → Value) (p : Positional),
    (∀ f ∈ cmd.all, values' f.name = values f.name ∨ values' f.name = f.default) →
    cmd.validateArgs values p = .ok () → cmd.validateArgs values' p = .ok ()

theorem validateServiceName_default : validateServiceName defaultServiceName = .ok () := by
  decide +kernel

/-- A service name that passes, or the default in its place. -/
theorem validateServiceName_of_default (cmd : Command) (hname : nameFlag ∈ cmd.all)
    {values later : String → Value}
    (h : ∀ f ∈ cmd.all, later f.name = values f.name ∨ later f.name = f.default)
    (hvalid : validateServiceName (values "name").text = .ok ()) :
    validateServiceName (later "name").text = .ok () := by
  rcases h nameFlag hname with hsame | hdefault
  · rw [show later "name" = values "name" from hsame]
    exact hvalid
  · rw [show later "name" = .string defaultServiceName from hdefault]
    exact validateServiceName_default

theorem regular_of_mem {cmd : Command} (h : cmd ∈ commands) : Regular cmd := by
  simp only [commands, List.mem_cons, List.not_mem_nil, or_false] at h
  rcases h with rfl | rfl | rfl | rfl | rfl | rfl | rfl | rfl | rfl | rfl | rfl | rfl | rfl
  case inr.inr.inr.inr.inr.inl =>
    refine ⟨by decide +kernel, rfl, by decide +kernel, by decide +kernel, ?_⟩
    intro values values' p h hargs
    simp only [newServiceInstallCommand] at hargs ⊢
    split_ifs at hargs ⊢
    exact validateServiceName_of_default newServiceInstallCommand List.mem_cons_self h hargs
  case inr.inr.inr.inr.inr.inr.inr.inr.inr.inr.inl =>
    refine ⟨by decide +kernel, rfl, by decide +kernel, by decide +kernel, ?_⟩
    intro values values' p h hargs
    simp only [newServiceRunCommand] at hargs ⊢
    split_ifs at hargs ⊢
    exact validateServiceName_of_default newServiceRunCommand List.mem_cons_self h hargs
  all_goals
    exact ⟨by decide +kernel, rfl, by decide +kernel, by decide +kernel, fun _ _ _ _ h ↦ h⟩

end RelayCat.Cli
