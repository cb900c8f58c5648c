import RelayCat.Cli.Config
import RelayCat.Relay.Auth
import RelayCat.WinService.Install

/-!
# Constraints on options from the configuration

`service install` validates the service name together with its arguments, before the
configuration is loaded, while the other service commands validate it in their bodies. The pairs
of options of `relay` that exclude each other are checked after the configuration was loaded, but
by the marks that the configuration does not set. So an option that the environment or the file
sets passes both checks unseen.
-/

namespace RelayCat.Cli

open Go Utf8 Cobra Command WinService

section Bodies

def parseStartup (value : Bytes) : Except Err Bool :=
  if value = literal "automatic" then .ok true
  else if value = literal "manual" then .ok false
  else .error (.new "startup must be automatic or manual")

/-- The body of `service install`, up to `winservice.Install`. -/
def serviceInstall (executable : Except Err Bytes) (values : String → Value) (args : List Bytes) :
    Except Err InstallConfig :=
  match parseStartup (values "startup").text with
  | .error err => .error err
  | .ok automatic =>
    match executable with
    | .error err => .error (.errorf "locating Relaycat executable" err)
    | .ok executable =>
      .ok
        { name := (values "name").text
          displayName :=
            if (values "display-name").text = [] then (values "name").text
            else (values "display-name").text
          description := (values "description").text
          executable := executable
          arguments := args
          automatic := automatic }

/-- `logger`, with the parser of levels as a parameter. -/
def logger (unmarshalLevel : Bytes → Except Err Unit) (values : String → Value)
    (relayMode : Bool) : Except Err Unit :=
  match unmarshalLevel (values "log-level").text with
  | .error err => .error (.errorf "invalid log level" err)
  | .ok () =>
    let format :=
      if relayMode ∧ (values "log-format").text = literal "text" then literal "json"
      else (values "log-format").text
    if format = literal "text" ∨ format = literal "json" then .ok ()
    else .error (.new "log format must be text or json")

/-- `relay.ServerConfig`. -/
structure ServerConfig where
  listen : Bytes
  tlsCert : Bytes
  tlsKey : Bytes
  h2c : Bool
  allowPublicH2C : Bool
  auth : Relay.ServerConfig
  reflection : Bool
  metricsListen : Bytes
  pprof : Bool
  shutdownTimeout : ℤ
  maxAgents : ℤ
  maxTunnelsPerAgent : ℤ
  handshakeTimeout : ℤ
  deriving DecidableEq, Repr

/-- The body of `relay`, up to `RunServer`. -/
def relay (unmarshalLevel : Bytes → Except Err Unit) (readFile : Bytes → Except Err Bytes)
    (getenv : String → Bytes) (values : String → Value) : Except Err ServerConfig :=
  match logger unmarshalLevel values true with
  | .error err => .error err
  | .ok () =>
    match Relay.relayCommand readFile getenv (values "auth-token-file").text
        (values "no-auth").isTrue with
    | .error err => .error err
    | .ok auth =>
      .ok
        { listen := (values "listen").text
          tlsCert := (values "tls-cert").text
          tlsKey := (values "tls-key").text
          h2c := (values "h2c").isTrue
          allowPublicH2C := (values "allow-public-h2c").isTrue
          auth := auth
          reflection := (values "reflection").isTrue
          metricsListen := (values "metrics-listen").text
          pprof := (values "pprof").isTrue
          shutdownTimeout := (values "shutdown-timeout").number
          maxAgents := (values "max-agents").number
          maxTunnelsPerAgent := (values "max-tunnels-per-agent").number
          handshakeTimeout := (values "handshake-timeout").number }

end Bodies

section Conditions

variable (parseDuration : ParseDuration) (sys : Surroundings) (config : ConfigFile)
  (given : List (String × Bytes))

/-- The service name is valid and its unit is a direct child of the unit directory. -/
def NameBound (name : Bytes) : Prop :=
  validateServiceName name = .ok () ∧
    unitPath name = Filepath.components systemdUnitDirectory ++ [name ++ literal ".service"]

/-- The service name is given on the command line, or no invalid one is configured. -/
def NameChecked : Prop :=
  texts given "name" ≠ [] ∨
    ∀ setting, get sys config "name" = some setting → validateServiceName setting.text = .ok ()

/-- An option of `relay` is on. -/
def SeenOn (name : String) : Prop :=
  ∃ f v, newRelayCommand.find name = some f ∧
    seen parseDuration sys config given f = some v ∧ isOn v = true

/-- The environment or the file switches an option of `relay` on. -/
def SwitchedOn (name : String) : Prop :=
  texts given name = [] ∧ get sys config name ≠ none ∧ SeenOn parseDuration sys config given name

/-- When the configuration switches one option of a pair on, the other one is off. -/
def PairChecked (pair : String × String) : Prop :=
  (SwitchedOn parseDuration sys config given pair.1 →
    ¬ SeenOn parseDuration sys config given pair.2) ∧
  (SwitchedOn parseDuration sys config given pair.2 →
    ¬ SeenOn parseDuration sys config given pair.1)

end Conditions

section Names

theorem isServiceNamePart_of_start {c : UInt8} (h : isServiceNameStart c = true) :
    isServiceNamePart c = true := by
  simp [isServiceNamePart, h]

theorem all_isServiceNamePart {name : Bytes} (h : validateServiceName name = .ok ()) :
    ∀ c ∈ name, isServiceNamePart c = true := by
  cases name with
  | nil => cases h
  | cons c rest =>
    rw [validateServiceName] at h
    split_ifs at h with hstart hrest
    rw [not_or, Bool.not_eq_false] at hstart
    rw [List.forall_mem_cons]
    exact ⟨isServiceNamePart_of_start hstart.2, List.all_eq_true.mp hrest⟩

/-- A valid name stays in the unit directory. -/
theorem nameBound_iff (name : Bytes) : NameBound name ↔ validateServiceName name = .ok () := by
  refine ⟨And.left, fun h ↦ ⟨h, ?_⟩⟩
  have hlength : (literal ".service").length = 8 := by
    rw [literal_ofList]
    rfl
  have hlong : (name ++ literal ".service").length ≥ 8 := by
    rw [List.length_append]
    omega
  apply Filepath.join_eq
  · intro hmem
    rcases List.mem_append.mp hmem with hmem | hmem
    · exact absurd (all_isServiceNamePart h _ hmem) (by decide)
    · rw [literal_ofList] at hmem
      exact absurd hmem (by decide)
  · intro hnil
    rw [hnil] at hlong
    exact absurd hlong (by decide)
  · intro hdot
    rw [hdot, literal_ofList] at hlong
    exact absurd hlong (by decide)
  · intro hdots
    rw [hdots, literal_ofList] at hlong
    exact absurd hlong (by decide)

end Names

section Main

variable {parseDuration : ParseDuration} {sys : Surroundings} {config : ConfigFile}
  {given : List (String × Bytes)} {cmd : Command} {p : Positional} {values : String → Value}

/-- A service name that was given on the command line was validated. -/
theorem validateServiceName_of_given
    (hrun : run parseDuration sys newServiceInstallCommand given p = .ok values)
    (hconfig : readConfig sys (configPath given) = .ok config)
    (hgiven : texts given "name" ≠ []) : validateServiceName (values "name").text = .ok () := by
  have hmem : newServiceInstallCommand ∈ commands := by simp [commands]
  have hregular := regular_of_mem hmem
  have hf : nameFlag ∈ newServiceInstallCommand.all := List.mem_cons_self
  obtain ⟨st, st', hparse, -, hargs, hload, -, -, rfl⟩ := execute_eq_ok_iff.mp hrun
  have hsame : st' "name" = st "name" := by
    rcases loadConfig_flag hregular hf hparse hconfig hload with ⟨-, hsame⟩ | ⟨hnil, -⟩
    · exact hsame
    · exact absurd hnil hgiven
  simp only [newServiceInstallCommand] at hargs
  split_ifs at hargs
  rw [FlagSet.values, hsame]
  exact hargs

theorem nameBound_iff_nameChecked
    (hrun : run parseDuration sys newServiceInstallCommand given p = .ok values)
    (hconfig : readConfig sys (configPath given) = .ok config) :
    NameBound (values "name").text ↔ NameChecked sys config given := by
  have hmem : newServiceInstallCommand ∈ commands := by simp [commands]
  have hf : nameFlag ∈ newServiceInstallCommand.all := List.mem_cons_self
  have hseen := seen_of_run (regular_of_mem hmem) hconfig hrun hf
  rw [nameBound_iff, NameChecked]
  by_cases hgiven : texts given "name" = []
  · have hname : nameFlag.name = "name" := rfl
    rw [seen, hname, if_neg (not_not_intro hgiven)] at hseen
    cases hget : get sys config "name" with
    | none =>
      rw [hget] at hseen
      have hvalue : values "name" = .string defaultServiceName := (Option.some.inj hseen).symm
      rw [hvalue]
      refine ⟨fun _ ↦ Or.inr ?_, fun _ ↦ validateServiceName_default⟩
      intro setting hsetting
      cases hsetting
    | some setting =>
      rw [hget] at hseen
      have hvalue : values "name" = .string setting.text := (Option.some.inj hseen).symm
      rw [hvalue]
      constructor
      · intro hvalid
        right
        rintro _ ⟨⟩
        exact hvalid
      · rintro (hne | hall)
        · exact absurd hgiven hne
        · exact hall setting rfl
  · exact ⟨fun _ ↦ Or.inl hgiven, fun _ ↦ validateServiceName_of_given hrun hconfig hgiven⟩

/-- The options of `relay` in its body. -/
theorem seenOn_iff (hrun : run parseDuration sys newRelayCommand given p = .ok values)
    (hconfig : readConfig sys (configPath given) = .ok config) {f : Flag}
    (hf : f ∈ newRelayCommand.all) :
    SeenOn parseDuration sys config given f.name ↔ isOn (values f.name) = true := by
  have hmem : newRelayCommand ∈ commands := List.mem_cons_self
  have hregular := regular_of_mem hmem
  have hseen := seen_of_run hregular hconfig hrun hf
  have hfind := find_eq_some hregular.nodup hf
  constructor
  · rintro ⟨g, v, hg, hv, hon⟩
    cases hfind.symm.trans hg
    cases hseen.symm.trans hv
    exact hon
  · intro hon
    exact ⟨f, values f.name, hfind, hseen, hon⟩

/-- An option that is off by default and is on was given or configured. -/
theorem switchedOn_of_seenOn {f : Flag} (hfind : newRelayCommand.find f.name = some f)
    (hdefault : isOn f.default = false) (hgiven : texts given f.name = [])
    (hon : SeenOn parseDuration sys config given f.name) :
    SwitchedOn parseDuration sys config given f.name := by
  refine ⟨hgiven, fun hnone ↦ ?_, hon⟩
  obtain ⟨g, v, hg, hv, hvalue⟩ := hon
  cases hfind.symm.trans hg
  rw [seen, if_neg (not_not_intro hgiven), hnone] at hv
  cases hv
  rw [hdefault] at hvalue
  cases hvalue

theorem pairChecked_iff (hrun : run parseDuration sys newRelayCommand given p = .ok values)
    (hconfig : readConfig sys (configPath given) = .ok config) {pair : String × String}
    (hpair : pair ∈ newRelayCommand.exclusive) :
    ¬ (isOn (values pair.1) = true ∧ isOn (values pair.2) = true) ↔
      PairChecked parseDuration sys config given pair := by
  have hmem : newRelayCommand ∈ commands := List.mem_cons_self
  have hregular := regular_of_mem hmem
  have hoff : ∀ f ∈ newRelayCommand.all, f.name = pair.1 ∨ f.name = pair.2 →
      isOn f.default = false := by
    have hall : ∀ pair ∈ newRelayCommand.exclusive, ∀ f ∈ newRelayCommand.all,
        f.name = pair.1 ∨ f.name = pair.2 → isOn f.default = false := by decide +kernel
    exact hall pair hpair
  obtain ⟨⟨f, hf, hfname⟩, g, hg, hgname⟩ := hregular.exclusive pair hpair
  have hfoff := hoff f hf (Or.inl hfname)
  have hgoff := hoff g hg (Or.inr hgname)
  have hfon := seenOn_iff hrun hconfig hf
  have hgon := seenOn_iff hrun hconfig hg
  have hnot : ¬ (texts given f.name ≠ [] ∧ texts given g.name ≠ []) := by
    rintro ⟨hfgiven, hggiven⟩
    obtain ⟨st, st', hparse, -, -, hload, -, hexclusive, rfl⟩ := execute_eq_ok_iff.mp hrun
    apply hexclusive pair hpair
    rw [← hfname, ← hgname]
    exact ⟨(changed_iff hregular hf hparse hconfig hload).mpr hfgiven,
      (changed_iff hregular hg hparse hconfig hload).mpr hggiven⟩
  rw [PairChecked, ← hfname, ← hgname, ← hfon, ← hgon]
  constructor
  · intro hboth
    exact ⟨fun hswitched hon ↦ hboth ⟨hswitched.2.2, hon⟩,
      fun hswitched hon ↦ hboth ⟨hon, hswitched.2.2⟩⟩
  · rintro ⟨hfirst, hsecond⟩ ⟨hf', hg'⟩
    by_cases hgiven : texts given f.name = []
    · have hfind := find_eq_some hregular.nodup hf
      exact hfirst (switchedOn_of_seenOn hfind hfoff hgiven hf') hg'
    · have hgiven' : texts given g.name = [] := by
        by_contra hne
        exact hnot ⟨hgiven, hne⟩
      have hfind := find_eq_some hregular.nodup hg
      exact hsecond (switchedOn_of_seenOn hfind hgoff hgiven' hg') hf'

/-- Of the runs that reach `winservice.Install` or `RunServer`, those with a bound service name
and without excluded options are exactly those in which the configuration sets no invalid name
and switches no option on whose opposite is on. -/
theorem option_constraints_iff (hconfig : readConfig sys (configPath given) = .ok config)
    (p : Positional) (executable : Except Err Bytes) (unmarshalLevel : Bytes → Except Err Unit)
    (readFile : Bytes → Except Err Bytes) (getenv : String → Bytes) :
    (∀ values cfg, run parseDuration sys newServiceInstallCommand given p = .ok values →
      serviceInstall executable values p.args = .ok cfg →
        (NameBound cfg.name ↔ NameChecked sys config given)) ∧
    ∀ values server, run parseDuration sys newRelayCommand given p = .ok values →
      relay unmarshalLevel readFile getenv values = .ok server →
        ((∀ pair ∈ newRelayCommand.exclusive, ¬ (isOn (values pair.1) ∧ isOn (values pair.2))) ↔
          ∀ pair ∈ newRelayCommand.exclusive, PairChecked parseDuration sys config given pair) := by
  constructor
  · intro values cfg hrun hinstall
    have hname : cfg.name = (values "name").text := by
      unfold serviceInstall at hinstall
      split at hinstall
      · cases hinstall
      · split at hinstall
        · cases hinstall
        · cases hinstall
          rfl
    rw [hname]
    exact nameBound_iff_nameChecked hrun hconfig
  · intro values _ hrun _
    exact forall₂_congr fun pair hpair ↦ pairChecked_iff hrun hconfig hpair

end Main

section Samples

/-- The command that the service is to run. -/
def installArgs : Positional := ⟨[literal "relay", literal "--h2c"], some 0⟩

def installSurroundings (name : String) : Surroundings :=
  surroundings [("RELAYCAT_NAME", literal name)] (fileOf [])

def sampleInstall (name : String) : InstallConfig where
  name := literal name
  displayName := literal name
  description := literal "Relaycat encrypted relay service"
  executable := literal "/usr/bin/relaycat"
  arguments := installArgs.args
  automatic := true

/-- The command comes to `winservice.Install` with the name in the environment. -/
def Installs (name : String) (values : String → Value) : Prop :=
  run parseFortyFive (installSurroundings name) newServiceInstallCommand [] installArgs =
      .ok values ∧
    serviceInstall (.ok (literal "/usr/bin/relaycat")) values installArgs.args =
      .ok (sampleInstall name)

theorem exists_installs {name : String} (hname : name = "relaycat-2" ∨ name = "../../tmp/evil") :
    ∃ values, Installs name values := by
  rcases hname with rfl | rfl
  · exact map_eq_ok_iff.mp (by decide +kernel)
  · exact map_eq_ok_iff.mp (by decide +kernel)

theorem validateServiceName_evil :
    validateServiceName (literal "../../tmp/evil") = .error serviceNameError := by
  rw [literal_ofList]
  rfl

theorem not_nameBound_evil : ¬ NameBound (sampleInstall "../../tmp/evil").name := by
  intro hbound
  exact absurd (validateServiceName_evil.symm.trans hbound.1) nofun

def noAuthFile : ConfigFile := fileOf [("no-auth", .bool true)]

/-- The command comes to its server, with a file that switches authentication off. -/
def Relays (given : List (String × Bytes)) (values : String → Value) (server : ServerConfig) :
    Prop :=
  run parseFortyFive (surroundings [] noAuthFile) newRelayCommand given ⟨[], none⟩ = .ok values ∧
    relay (fun _ ↦ .ok ()) (fun _ ↦ .ok (literal "s3cret")) (fun _ ↦ []) values = .ok server

/-- The token file of the command line. -/
def tokenGiven : List (String × Bytes) := [("auth-token-file", literal "relay.token")]

theorem exists_relays {given : List (String × Bytes)} (hgiven : given = [] ∨ given = tokenGiven) :
    ∃ values server, Relays given values server ∧
      isOn (values "no-auth") = true ∧
      (given = tokenGiven → isOn (values "auth-token-file") = true ∧
        server.auth = ⟨literal "s3cret", true⟩) := by
  obtain ⟨auth, on, hmap, hon⟩ : ∃ auth on, ((run parseFortyFive (surroundings [] noAuthFile)
      newRelayCommand given ⟨[], none⟩).map fun values ↦
        ((relay (fun _ ↦ .ok ()) (fun _ ↦ .ok (literal "s3cret")) (fun _ ↦ []) values).map
          ServerConfig.auth, isOn (values "no-auth"), isOn (values "auth-token-file"))) =
      .ok (.ok auth, true, on) ∧
        (given = tokenGiven → on = true ∧ auth = ⟨literal "s3cret", true⟩) := by
    rcases hgiven with rfl | rfl
    · exact ⟨⟨[], true⟩, false, by decide +kernel, nofun⟩
    · exact ⟨⟨literal "s3cret", true⟩, true, by decide +kernel, fun _ ↦ ⟨rfl, rfl⟩⟩
  obtain ⟨values, hrun, hvalues⟩ := map_eq_ok_iff.mp hmap
  rw [Prod.mk.injEq, Prod.mk.injEq] at hvalues
  obtain ⟨hauth, hnoAuth, rfl⟩ := hvalues
  obtain ⟨server, hserver, rfl⟩ := map_eq_ok_iff.mp hauth
  exact ⟨values, server, ⟨hrun, hserver⟩, hnoAuth, hon⟩

theorem pairChecked_open :
    ∀ pair ∈ newRelayCommand.exclusive, PairChecked parseFortyFive (surroundings [] noAuthFile)
      noAuthFile [] pair := by
  intro pair hpair
  have hoff : ¬ SeenOn parseFortyFive (surroundings [] noAuthFile) noAuthFile [] pair.2 := by
    rintro ⟨f, v, hf, hv, hon⟩
    have hseen : ∀ pair ∈ newRelayCommand.exclusive, ((newRelayCommand.find pair.2).bind
        (seen parseFortyFive (surroundings [] noAuthFile) noAuthFile [])).map isOn =
          some false := by decide +kernel
    have hsecond := hseen pair hpair
    rw [hf, Option.bind_some, hv, Option.map_some, hon] at hsecond
    cases hsecond
  exact ⟨fun _ ↦ hoff, fun hswitched ↦ absurd hswitched.2.2 hoff⟩

/-- A valid and an invalid name in the environment, and a file that switches authentication off
without and with a token file on the command line. -/
theorem option_constraints_named :
    (∃ values, Installs "relaycat-2" values ∧ NameBound (sampleInstall "relaycat-2").name) ∧
    (∃ values, Installs "../../tmp/evil" values ∧
      ¬ NameChecked (installSurroundings "../../tmp/evil") (fileOf []) []) ∧
    (∃ values server, Relays [] values server ∧
      ∀ pair ∈ newRelayCommand.exclusive, ¬ (isOn (values pair.1) ∧ isOn (values pair.2))) ∧
    ∃ values server, Relays tokenGiven values server ∧
      ¬ ∀ pair ∈ newRelayCommand.exclusive, PairChecked parseFortyFive
        (surroundings [] noAuthFile) noAuthFile tokenGiven pair := by
  refine ⟨?_, ?_, ?_, ?_⟩
  · obtain ⟨values, hrun, hinstall⟩ := exists_installs (.inl rfl)
    refine ⟨values, ⟨hrun, hinstall⟩, ?_⟩
    have hget : get (installSurroundings "relaycat-2") (fileOf []) "name" =
        some (.string (literal "relaycat-2")) := rfl
    have hvalid : validateServiceName (literal "relaycat-2") = .ok () := by
      rw [literal_ofList]
      rfl
    refine ((option_constraints_iff rfl installArgs (.ok (literal "/usr/bin/relaycat"))
      (fun _ ↦ .ok ()) (fun _ ↦ .ok []) (fun _ ↦ [])).1 values _ hrun hinstall).mpr (Or.inr ?_)
    intro setting hsetting
    cases hget.symm.trans hsetting
    exact hvalid
  · obtain ⟨values, hrun, hinstall⟩ := exists_installs (.inr rfl)
    exact ⟨values, ⟨hrun, hinstall⟩, fun hchecked ↦ not_nameBound_evil
      (((option_constraints_iff rfl installArgs (.ok (literal "/usr/bin/relaycat"))
        (fun _ ↦ .ok ()) (fun _ ↦ .ok []) (fun _ ↦ [])).1 values _ hrun hinstall).mpr hchecked)⟩
  · obtain ⟨values, server, ⟨hrun, hserver⟩, -⟩ := exists_relays (.inl rfl)
    exact ⟨values, server, ⟨hrun, hserver⟩,
      ((option_constraints_iff rfl ⟨[], none⟩ (.ok []) _ _ _).2 values server hrun hserver).mpr
        pairChecked_open⟩
  · obtain ⟨values, server, ⟨hrun, hserver⟩, hnoAuth, hgiven⟩ := exists_relays (.inr rfl)
    refine ⟨values, server, ⟨hrun, hserver⟩, fun hchecked ↦ ?_⟩
    exact ((option_constraints_iff rfl ⟨[], none⟩ (.ok []) _ _ _).2 values server hrun
      hserver).mpr hchecked ("no-auth", "auth-token-file") (by decide)
        ⟨hnoAuth, (hgiven rfl).1⟩

/-- A name in the environment leaves the unit directory, and a file switches authentication off
although a token file is given on the command line. -/
theorem option_constraints_bypassed :
    (∃ values cfg, run parseFortyFive (installSurroundings "../../tmp/evil")
        newServiceInstallCommand [] installArgs = .ok values ∧
      serviceInstall (.ok (literal "/usr/bin/relaycat")) values installArgs.args = .ok cfg ∧
      validateServiceName cfg.name = .error serviceNameError ∧
      unitPath cfg.name = [literal "etc", literal "tmp", literal "evil.service"] ∧
      ¬ NameBound cfg.name) ∧
    ∃ values server, run parseFortyFive (surroundings [] noAuthFile) newRelayCommand
        [("auth-token-file", literal "relay.token")] ⟨[], none⟩ = .ok values ∧
      relay (fun _ ↦ .ok ()) (fun _ ↦ .ok (literal "s3cret")) (fun _ ↦ []) values = .ok server ∧
      server.auth = ⟨literal "s3cret", true⟩ ∧
      isOn (values "no-auth") = true ∧ isOn (values "auth-token-file") = true := by
  constructor
  · obtain ⟨values, hrun, hinstall⟩ := exists_installs (.inr rfl)
    exact ⟨values, _, hrun, hinstall, validateServiceName_evil, by decide +kernel,
      not_nameBound_evil⟩
  · obtain ⟨values, server, ⟨hrun, hserver⟩, hnoAuth, hgiven⟩ := exists_relays (.inr rfl)
    obtain ⟨htoken, hauth⟩ := hgiven rfl
    exact ⟨values, server, hrun, hserver, hauth, hnoAuth, htoken⟩

end Samples

end RelayCat.Cli
