import RelayCat.Cli.Constraints
import RelayCat.Cli.SSHOptions
import RelayCat.Cobra.Args

/-!
# `relaycat ssh`

`relaycat ssh` opens a temporary tunnel and runs OpenSSH through it. Its options go to OpenSSH
as options, and what stands behind the connection code as the remote command. Both first go
through the command line parser: words of the remote command that start with a dash are flags of
`relaycat ssh` itself, and the value of an option is a list of comma-separated values.

The tunnel, and the functions of the standard library that take texts apart, are parameters.
-/

namespace RelayCat.Cli

open Go Utf8 AccessCode Cobra Command

/-- `endpoint.ClientConfig`, without the fixed listen address and the logger. -/
structure ClientConfig where
  code : AccessCode.Code
  token : Bytes
  caFile : Bytes
  allowInsecure : Bool
  idleTimeout : ℤ
  deriving DecidableEq, Repr

/-- What the command waits for: the address of the tunnel, the end of the client, or the end of
its context. -/
inductive Tunnel where
  | ready (addr : Bytes)
  | done (err : Err)
  | canceled (err : Err)
  deriving DecidableEq, Repr

/-- Everything outside the command line. -/
structure Environment where
  parseDuration : ParseDuration
  sys : Surroundings
  host : Host
  parseURL (raw : Bytes) : Option URL
  unmarshalLevel (text : Bytes) : Except Err Unit
  runClient (cfg : ClientConfig) : Tunnel
  splitHostPort (addr : Bytes) : Except Err (Bytes × Bytes)

/-- The flags of the command that have a letter. -/
def sshShorthands : List (UInt8 × String) :=
  [(0x6c, "user"), (0x69, "identity-file"), (0x6f, "ssh-option")]

/-- `sshOptions` as the flags leave them. -/
def flagOptions (values : String → Value) : SSHOptions where
  codeFile := (values "code-file").text
  user := (values "user").text
  identityFile := (values "identity-file").text
  tokenFile := (values "token-file").text
  caFile := (values "ca-file").text
  sshOptions := (values "ssh-option").strings
  allowInsecure := (values "allow-insecure-relay").isTrue
  noAuth := (values "no-auth").isTrue
  acceptNewHost := (values "accept-new-host-key").isTrue
  idleTimeout := (values "idle-timeout").number
  connectionCode := []
  remoteCommand := []

/-- `hex.EncodeToString`. -/
def hexEncode (bs : Bytes) : Bytes :=
  bs.flatMap fun b ↦ [Json.hexDigit (b.toNat / 16), Json.hexDigit (b.toNat % 16)]

/-- The arguments of OpenSSH before the options of the user. -/
def fixedArgs (userHomeDir : Except Err Bytes) (port : Bytes) (code : AccessCode.Code)
    (o : SSHOptions) : List Bytes :=
  [literal "-p", port, literal "-o",
    literal "HostKeyAlias=relaycat-" ++ hexEncode code.routeID] ++
  (if o.identityFile ≠ [] then [literal "-i", expandHome userHomeDir o.identityFile] else []) ++
  (if o.noAuth then
    [literal "-o", literal "PubkeyAuthentication=no", literal "-o",
      literal "PasswordAuthentication=no"] else []) ++
  (if o.acceptNewHost then [literal "-o", literal "StrictHostKeyChecking=accept-new"] else [])

/-- The options of the user as arguments of OpenSSH. -/
def optionArgs (options : List Bytes) : List Bytes :=
  options.flatMap fun option ↦ [literal "-o", option]

def destination (user : Bytes) : Bytes := user ++ literal "@127.0.0.1"

def buildOpenSSHArgs (env : Environment) (addr : Bytes) (code : AccessCode.Code)
    (o : SSHOptions) : Except Err (List Bytes) :=
  match env.splitHostPort addr with
  | .error err => .error (.errorf "reading temporary tunnel address" err)
  | .ok (_, port) =>
    .ok (fixedArgs env.host.userHomeDir port code o ++ optionArgs o.sshOptions ++
      destination o.user :: o.remoteCommand)

/-- The body of `newSSHCommand` between `resolveInput` and `runOpenSSH`: the address of the tunnel
and the code. -/
def startTunnel (env : Environment) (values : String → Value) (o : SSHOptions) :
    Except Err (Bytes × AccessCode.Code) :=
  match decode env.parseURL o.connectionCode o.allowInsecure with
  | .error err => .error err
  | .ok code =>
    match Endpoint.readToken env.host.readFile env.host.getenv o.tokenFile "RELAYCAT_TOKEN" with
    | .error err => .error err
    | .ok token =>
      match logger env.unmarshalLevel values false with
      | .error err => .error err
      | .ok () =>
        match env.runClient ⟨code, token, o.caFile, o.allowInsecure, o.idleTimeout⟩ with
        | .done err => .error (.errorf "starting temporary tunnel" err)
        | .canceled err => .error err
        | .ready addr => .ok (addr, code)

/-- The body of `newSSHCommand`: the options and the arguments that `runOpenSSH` runs OpenSSH
with. -/
def sshBody (env : Environment) (values : String → Value) (args : List Bytes) :
    Except Err (SSHOptions × List Bytes) :=
  match (flagOptions values).resolveInput env.host args with
  | .error err => .error err
  | .ok o =>
    match startTunnel env values o with
    | .error err => .error err
    | .ok (addr, code) => (buildOpenSSHArgs env addr code o).map fun argv ↦ (o, argv)

/-- `relaycat ssh`, followed by some words; nothing is run if help was asked for. -/
def relaycatSSH (env : Environment) (words : List Bytes) :
    Except Err (Option (SSHOptions × List Bytes)) :=
  match newSSHCommand.executeLine env.parseDuration
      (loadConfig env.parseDuration env.sys newSSHCommand) sshShorthands words with
  | .error err => .error err
  | .ok none => .ok none
  | .ok (some (values, args)) => (sshBody env values args).map some

/-- The words of a command line split by the flags of the command. -/
abbrev splitWords (words : List Bytes) : Except Err (List (String × Bytes) × Positional) :=
  (newSSHCommand.grammar sshShorthands).parseArgs words

/-- The command comes to `runOpenSSH`. -/
def Reaches (env : Environment) (words : List Bytes) (o : SSHOptions) (argv : List Bytes) : Prop :=
  relaycatSSH env words = .ok (some (o, argv))

/-- The options that were given on the command line; those of the configuration if there are
none. -/
def givenOptions (given : List (String × Bytes)) (o : SSHOptions) : List Bytes :=
  if texts given "ssh-option" = [] then o.sshOptions else texts given "ssh-option"

/-- OpenSSH gets the options and the remote command as they were given, and the remote command
neither stops `relaycat ssh` nor changes the user. The words in front of the command hold the
flags and the code. -/
def HandsOver (env : Environment) (front : List Bytes) (given : List (String × Bytes))
    (command : List Bytes) : Prop :=
  (∀ o argv, Reaches env (front ++ command) o argv →
    ∃ port code, argv = fixedArgs env.host.userHomeDir port code o ++
      optionArgs (givenOptions given o) ++ destination o.user :: command) ∧
  (∀ o argv, Reaches env front o argv →
    ∃ o' argv', Reaches env (front ++ command) o' argv' ∧ o'.user = o.user)

/-- Every option is one comma-separated value, and no word of the remote command starts with a
dash, unless two dashes stand in front of it. -/
def Verbatim (given : List (String × Bytes)) (lenAtDash : Option ℕ) (command : List Bytes) :
    Prop :=
  (∀ option ∈ texts given "ssh-option", readAsCSV option = some [option]) ∧
    (lenAtDash = none → ∀ word ∈ command, isFlagWord word = false)

section Arguments

variable {env : Environment} {values : String → Value} {o o' : SSHOptions} {argv : List Bytes}

/-- What OpenSSH is run with. -/
theorem sshBody_eq_ok {args : List Bytes} :
    sshBody env values args = .ok (o, argv) ↔
      (flagOptions values).resolveInput env.host args = .ok o ∧
        ∃ addr code host port, startTunnel env values o = .ok (addr, code) ∧
          env.splitHostPort addr = .ok (host, port) ∧
          argv = fixedArgs env.host.userHomeDir port code o ++ optionArgs o.sshOptions ++
            destination o.user :: o.remoteCommand := by
  constructor
  · intro h
    rw [sshBody] at h
    split at h
    · cases h
    · rename_i o' hresolve
      split at h
      · cases h
      · rename_i addr code htunnel
        obtain ⟨argv', hargs, heq⟩ := map_eq_ok_iff.mp h
        cases heq
        rw [buildOpenSSHArgs] at hargs
        split at hargs
        · cases hargs
        · rename_i host port hport
          exact ⟨hresolve, addr, code, host, port, htunnel, hport, (Except.ok.inj hargs).symm⟩
  · rintro ⟨hresolve, addr, code, host, port, htunnel, hport, rfl⟩
    simp only [sshBody, hresolve, htunnel, buildOpenSSHArgs, hport]
    rfl

theorem optionArgs_cons (option : Bytes) (options : List Bytes) :
    optionArgs (option :: options) = literal "-o" :: option :: optionArgs options := rfl

/-- Options, the destination and a command are told apart in the arguments. -/
theorem optionArgs_append_inj {options options' command command' : List Bytes} {dest : Bytes}
    (hdest : dest ≠ literal "-o")
    (h : optionArgs options ++ dest :: command = optionArgs options' ++ dest :: command') :
    options = options' ∧ command = command' := by
  induction options generalizing options' with
  | nil =>
    cases options' with
    | nil => exact ⟨rfl, (List.cons.inj h).2⟩
    | cons option options' => exact absurd (List.cons.inj h).1 hdest
  | cons option options ih =>
    cases options' with
    | nil => exact absurd (List.cons.inj h).1.symm hdest
    | cons option' options' =>
      simp only [optionArgs_cons, List.cons_append, List.cons.injEq, true_and] at h
      obtain ⟨hoptions, hcommand⟩ := ih h.2
      rw [h.1, hoptions]
      exact ⟨rfl, hcommand⟩

theorem destination_ne (user : Bytes) : destination user ≠ literal "-o" := by
  intro h
  have hlength := congrArg List.length h
  rw [destination, List.length_append] at hlength
  have hhost : (literal "@127.0.0.1").length = 10 := by decide
  have hoption : (literal "-o").length = 2 := by decide
  omega

theorem length_fixedArgs (userHomeDir : Except Err Bytes) (port port' : Bytes)
    (code code' : AccessCode.Code) :
    (fixedArgs userHomeDir port code o).length = (fixedArgs userHomeDir port' code' o).length := by
  simp only [fixedArgs, List.length_append, List.length_cons, List.length_nil]

/-- With the same options OpenSSH gets the same arguments only for the same options of the user
and the same command. -/
theorem args_inj {userHomeDir : Except Err Bytes} {port port' : Bytes}
    {code code' : AccessCode.Code}
    {options options' command command' : List Bytes}
    (h : fixedArgs userHomeDir port code o ++ optionArgs options ++ destination o.user :: command =
      fixedArgs userHomeDir port' code' o ++ optionArgs options' ++
        destination o.user :: command') : options = options' ∧ command = command' := by
  rw [List.append_assoc, List.append_assoc] at h
  obtain ⟨-, hrest⟩ := List.append_inj h (length_fixedArgs userHomeDir port port' code code')
  exact optionArgs_append_inj (destination_ne o.user) hrest

end Arguments

section Lines

variable {env : Environment} {words front command : List Bytes} {o : SSHOptions}
  {argv : List Bytes} {given : List (String × Bytes)} {lenAtDash : Option ℕ} {target : Bytes}

/-- The stages that a command line goes through before OpenSSH is run. -/
theorem reaches_iff :
    Reaches env words o argv ↔
      ∃ given p values, splitWords words = .ok (given, p) ∧
        run env.parseDuration env.sys newSSHCommand given p = .ok values ∧
        sshBody env values p.args = .ok (o, argv) := by
  rw [Reaches, relaycatSSH]
  constructor
  · intro h
    split at h
    · cases h
    · cases h
    · rename_i values args hline
      obtain ⟨result, hbody, heq⟩ := map_eq_ok_iff.mp h
      cases heq
      obtain ⟨given, p, hsplit, hrun, rfl⟩ := executeLine_eq_some.mp hline
      exact ⟨given, p, values, hsplit, hrun, hbody⟩
  · rintro ⟨given, p, values, hsplit, hrun, hbody⟩
    have hline := executeLine_eq_some.mpr ⟨given, p, hsplit, hrun, rfl⟩
    rw [hline]
    simp only [hbody]
    rfl

/-- The options of the user that the flags give. -/
theorem strings_of_run {p : Positional} {values : String → Value}
    (h : run env.parseDuration env.sys newSSHCommand given p = .ok values)
    (hgiven : texts given "ssh-option" ≠ []) :
    (∀ option ∈ texts given "ssh-option", readAsCSV option = some (csvFields option)) ∧
      (values "ssh-option").strings = (texts given "ssh-option").flatMap csvFields := by
  have hregular : Regular newSSHCommand := regular_of_mem (by simp [commands])
  have hflag : stringSliceFlag "ssh-option" ∈ newSSHCommand.all := by
    simp [Command.all, newSSHCommand]
  obtain ⟨config, hconfig⟩ := exists_readConfig hregular h
  have hseen := seen_of_run hregular hconfig h hflag
  have hparse : parseTexts env.parseDuration .stringSlice (texts given "ssh-option") =
      some (values "ssh-option") := by
    rw [seen] at hseen
    change (if texts given "ssh-option" ≠ [] then
      parseTexts env.parseDuration .stringSlice (texts given "ssh-option")
      else _) = some (values "ssh-option") at hseen
    rwa [if_pos hgiven] at hseen
  obtain ⟨hreads, hvalue⟩ := parseTexts_stringSlice hparse
  rw [hvalue]
  exact ⟨hreads, rfl⟩

/-- Without flags among its words the remote command follows the code. -/
theorem splitWords_verbatim (hfront : splitWords front = .ok (given, ⟨[target], lenAtDash⟩))
    (hcommand : lenAtDash = none → ∀ word ∈ command, isFlagWord word = false) :
    ∃ p, splitWords (front ++ command) = .ok (given, p) ∧ p.args = target :: command := by
  cases lenAtDash with
  | none =>
    refine ⟨⟨target :: command, none⟩, ?_, rfl⟩
    rw [splitWords, (Grammar.splits_of_parseArgs hfront).append rfl,
      Grammar.parseArgs_args (hcommand rfl)]
    simp [Except.map, Grammar.merge]
  | some n =>
    exact ⟨_, (Grammar.splits_of_parseArgs hfront).append_dashed (Option.some_ne_none n) command,
      rfl⟩

/-- If every word behind the code is an argument, none of them is a flag. -/
theorem flags_of_splitWords {given' : List (String × Bytes)} {p : Positional}
    (hfront : splitWords front = .ok (given, ⟨[target], lenAtDash⟩))
    (h : splitWords (front ++ command) = .ok (given', p)) :
    ∃ rest, p.args = target :: rest ∧
      (rest = command →
        given' = given ∧ (lenAtDash = none → ∀ word ∈ command, isFlagWord word = false)) := by
  have hsplits := Grammar.splits_of_parseArgs hfront
  cases lenAtDash with
  | none =>
    rw [splitWords, hsplits.append rfl] at h
    obtain ⟨⟨more, p'⟩, hcommand, hmerge⟩ := map_eq_ok_iff.mp h
    cases hmerge
    refine ⟨p'.args, rfl, fun hargs ↦ ?_⟩
    have hwords : ∀ word ∈ command, isFlagWord word = false :=
      (Grammar.splits_of_parseArgs hcommand).length.2 (congrArg List.length hargs)
    cases (Grammar.parseArgs_args hwords).symm.trans hcommand
    exact ⟨List.append_nil given, fun _ ↦ hwords⟩
  | some n =>
    have hdashed := hsplits.append_dashed (Option.some_ne_none n) command
    cases hdashed.symm.trans h
    exact ⟨command, rfl, fun _ ↦ ⟨rfl, nofun⟩⟩

theorem remoteCommand_eq {host : Host} {o' : SSHOptions} (hcode : HasCode target)
    (h : o.resolveInput host (target :: command) = .ok o') : o'.remoteCommand = command := by
  rw [resolveInput_cons hcode] at h
  obtain ⟨o'', -, rfl⟩ := map_eq_ok_iff.mp h
  rfl

/-- Options that are each one value are those that the user has given. -/
theorem givenOptions_eq {p : Positional} {values : String → Value} {args : List Bytes}
    (hrun : run env.parseDuration env.sys newSSHCommand given p = .ok values)
    (hresolve : (flagOptions values).resolveInput env.host args = .ok o)
    (h : ∀ option ∈ texts given "ssh-option", readAsCSV option = some [option]) :
    givenOptions given o = o.sshOptions := by
  rw [givenOptions]
  split_ifs with hgiven
  · rfl
  · have hfields : ∀ option ∈ texts given "ssh-option", csvFields option = [option] := by
      intro option hoption
      rw [csvFields, h option hoption, Option.getD_some]
    calc
      texts given "ssh-option" = (texts given "ssh-option").flatMap fun option ↦ [option] := by
        rw [List.flatMap_singleton']
      _ = (texts given "ssh-option").flatMap csvFields :=
        (List.flatMap_congr hfields).symm
      _ = (flagOptions values).sshOptions := (strings_of_run hrun hgiven).2.symm
      _ = o.sshOptions := (resolveInput_sshOptions hresolve).symm

theorem handsOver_of_verbatim (hfront : splitWords front = .ok (given, ⟨[target], lenAtDash⟩))
    (hcode : HasCode target) (h : Verbatim given lenAtDash command) :
    HandsOver env front given command := by
  obtain ⟨p, hsplit, hargs⟩ := splitWords_verbatim hfront h.2
  constructor
  · intro o argv hreaches
    obtain ⟨given', p', values, hsplit', hrun, hbody⟩ := reaches_iff.mp hreaches
    cases hsplit.symm.trans hsplit'
    rw [hargs, sshBody_eq_ok] at hbody
    obtain ⟨hresolve, addr, code, host, port, -, -, rfl⟩ := hbody
    rw [givenOptions_eq hrun hresolve h.1, remoteCommand_eq hcode hresolve]
    exact ⟨port, code, rfl⟩
  · intro o argv hreaches
    obtain ⟨given', p', values, hsplit', hrun, hbody⟩ := reaches_iff.mp hreaches
    cases hfront.symm.trans hsplit'
    obtain ⟨hresolve, addr, code, host, port, htunnel, hport, -⟩ := sshBody_eq_ok.mp hbody
    have hresolve' : (flagOptions values).resolveInput env.host (target :: command) =
        .ok (o.withCommand command) := by
      rw [resolveInput_cons hcode, hresolve]
      rfl
    have hbody' := sshBody_eq_ok.mpr ⟨hresolve', addr, code, host, port, htunnel, hport, rfl⟩
    rw [← hargs] at hbody'
    exact ⟨_, _, reaches_iff.mpr ⟨given, p, values, hsplit, hrun, hbody'⟩, rfl⟩

theorem verbatim_of_handsOver (hfront : splitWords front = .ok (given, ⟨[target], lenAtDash⟩))
    (hcode : HasCode target) (hbase : ∃ o argv, Reaches env front o argv)
    (h : HandsOver env front given command) : Verbatim given lenAtDash command := by
  obtain ⟨o₀, argv₀, hreaches₀⟩ := hbase
  obtain ⟨o, argv, hreaches, -⟩ := h.2 o₀ argv₀ hreaches₀
  obtain ⟨port, code, hargv⟩ := h.1 o argv hreaches
  obtain ⟨given', p, values, hsplit, hrun, hbody⟩ := reaches_iff.mp hreaches
  obtain ⟨hresolve, -, code', -, port', -, -, hargv'⟩ := sshBody_eq_ok.mp hbody
  obtain ⟨hoptions, hcommand⟩ := args_inj (hargv'.symm.trans hargv)
  obtain ⟨rest, hargs, hrest⟩ := flags_of_splitWords hfront hsplit
  rw [hargs] at hresolve
  obtain ⟨rfl, hwords⟩ := hrest ((remoteCommand_eq hcode hresolve).symm.trans hcommand)
  refine ⟨?_, hwords⟩
  by_cases hgiven : texts given' "ssh-option" = []
  · rw [hgiven]
    exact nofun
  · obtain ⟨hreads, hstrings⟩ := strings_of_run hrun hgiven
    rw [givenOptions, if_neg hgiven, resolveInput_sshOptions hresolve] at hoptions
    exact readAsCSV_of_flatMap hreads (hstrings.symm.trans hoptions)

end Lines

section Main

variable {front : List Bytes} {given : List (String × Bytes)} {lenAtDash : Option ℕ}
  {target : Bytes}

/-- The options and the remote command are handed over as they were given if every option is one
value and no word of the command is a flag, and only then, once the command line works without
the remote command. -/
theorem handsOver_iff (env : Environment)
    (hfront : splitWords front = .ok (given, ⟨[target], lenAtDash⟩)) (hcode : HasCode target)
    (command : List Bytes) :
    (Verbatim given lenAtDash command → HandsOver env front given command) ∧
      ((∃ o argv, Reaches env front o argv) →
        (HandsOver env front given command ↔ Verbatim given lenAtDash command)) :=
  ⟨handsOver_of_verbatim hfront hcode, fun hbase ↦
    ⟨verbatim_of_handsOver hfront hcode hbase, handsOver_of_verbatim hfront hcode⟩⟩

end Main

section Samples

/-- The text of the sample code. -/
def sampleTarget : Bytes :=
  match encode sampleCode with
  | .ok s => s
  | .error _ => []

/-- A relay that is there, no configuration and no files. -/
def sampleEnvironment : Environment where
  parseDuration _ := none
  sys := surroundings [] fun _ ↦ none
  host :=
    { windows := false
      userHomeDir := .ok (literal "/home/relaycat")
      getenv := fun _ ↦ []
      stat := fun _ ↦ .error (.new "no such file or directory")
      readFile := fun _ ↦ .error (.new "no such file or directory") }
  parseURL raw :=
    if raw = literal "https://relay.example" then
      some ⟨literal "https", literal "relay.example", [], [], []⟩
    else none
  unmarshalLevel _ := .ok ()
  runClient _ := .ready (literal "127.0.0.1:40022")
  splitHostPort _ := .ok (literal "127.0.0.1", literal "40022")

theorem exists_reaches (env : Environment) (words : List Bytes)
    (h : (relaycatSSH env words).toOption.join.isSome = true) :
    ∃ o argv, Reaches env words o argv := by
  cases hrun : relaycatSSH env words with
  | error err =>
    rw [hrun] at h
    cases h
  | ok result =>
    cases result with
    | none =>
      rw [hrun] at h
      cases h
    | some result => exact ⟨result.1, result.2, hrun⟩

theorem hasCode_sampleTarget : HasCode sampleTarget := Or.inr (by decide +kernel)

theorem splitWords_sampleTarget : splitWords [sampleTarget] = .ok ([], ⟨[sampleTarget], none⟩) := by
  apply Grammar.parseArgs_args
  rw [List.forall_mem_singleton]
  decide +kernel

/-- An option in the word behind its letter. -/
theorem splitWords_option (option : Bytes) :
    splitWords [literal "-o", option, sampleTarget] =
      .ok ([("ssh-option", option)], ⟨[sampleTarget], none⟩) := by
  have hflag : (newSSHCommand.grammar sshShorthands).parseFlagWord (literal "-o") (some option) =
      .ok ([("ssh-option", option)], true) := rfl
  rw [splitWords, Grammar.parseArgs_taken (by decide) (by decide) hflag]
  change (splitWords [sampleTarget]).map _ = _
  rw [splitWords_sampleTarget]
  rfl

def sampleOption : Bytes := literal "ConnectTimeout=5"

theorem handsOver_sample :
    HandsOver sampleEnvironment [literal "-o", sampleOption, sampleTarget]
      [("ssh-option", sampleOption)] [literal "cat", literal "-"] := by
  apply (handsOver_iff sampleEnvironment (splitWords_option _) hasCode_sampleTarget _).1
  constructor
  · decide +kernel
  · decide

def cipherOption : Bytes := literal "Ciphers=aes128-ctr,aes256-ctr"

/-- A command with an option of its own is taken apart, and so is an option with a comma. -/
theorem not_handsOver_samples :
    ¬HandsOver sampleEnvironment [sampleTarget] [] [literal "ls", literal "-l"] ∧
      ¬HandsOver sampleEnvironment [literal "-o", cipherOption, sampleTarget]
        [("ssh-option", cipherOption)] [literal "uptime"] := by
  constructor
  · intro h
    have hbase := exists_reaches sampleEnvironment [sampleTarget] (by decide +kernel)
    have hverbatim :=
      verbatim_of_handsOver splitWords_sampleTarget hasCode_sampleTarget hbase h
    exact absurd (hverbatim.2 rfl (literal "-l") (by simp)) (by decide)
  · intro h
    have hbase := exists_reaches sampleEnvironment
      [literal "-o", cipherOption, sampleTarget] (by decide +kernel)
    have hverbatim :=
      verbatim_of_handsOver (splitWords_option cipherOption) hasCode_sampleTarget hbase h
    exact absurd (hverbatim.1 cipherOption (by decide +kernel)) (by decide +kernel)

end Samples

end RelayCat.Cli
