import RelayCat.Cli.Constraints
import RelayCat.Go.Net
import RelayCat.Relay.Registry

/-!
# `RunServer`: from the checks of its configuration to the end of its shutdown

The body of `RunServer`, its goroutines (`Serve`, `GracefulStop`, the metrics server) and the
calls of the relay service that run meanwhile, next to a clock. The results of `net.Listen`, of
loading the certificate and of accepting connections are part of the action.

Of gRPC: `Serve` returns nil only after `GracefulStop` or `Stop`, and then once that is over.
`GracefulStop` and `Stop` close the listener and wait for the accept loop; then the one tells
every connection to open no stream and waits for the calls to return, the other closes the
connections without waiting for the calls. Of `net/http`: a server that is shut down before it
listens does not serve.
-/

namespace RelayCat.Relay

open Go Go.Net Automaton

/-- `isLoopbackListen`. -/
def isLoopbackListen (net : Network) (addr : Bytes) : Bool := net.namesLoopback addr

/-- The checks of `RunServer` before it listens. -/
def serverCheck (net : Network) (cfg : Cli.ServerConfig) : Option Err :=
  if cfg.h2c && !cfg.allowPublicH2C && !isLoopbackListen net cfg.listen then
    some (.new "h2c may only bind loopback unless --allow-public-h2c is set")
  else if !cfg.h2c && (cfg.tlsCert.isEmpty || cfg.tlsKey.isEmpty) then
    some (.new "--tls-cert and --tls-key are required unless --h2c is set")
  else if cfg.pprof && (cfg.metricsListen.isEmpty || !isLoopbackListen net cfg.metricsListen) then
    some (.new "pprof requires a loopback --metrics-listen address")
  else none

/-- `cfg.ShutdownTimeout` in nanoseconds, or its default. -/
def shutdownTimeout (cfg : Cli.ServerConfig) : ℕ :=
  if cfg.shutdownTimeout ≤ 0 then 15 * 1000000000 else cfg.shutdownTimeout.toNat

/-- The part of the configuration that `NewService` gets. -/
def serviceConfig (cfg : Cli.ServerConfig) : Config :=
  ⟨cfg.maxAgents, cfg.maxTunnelsPerAgent, cfg.handshakeTimeout⟩

/-- `grpc.ErrServerStopped`. -/
def errServerStopped : Err := .new "grpc: the server has been stopped"

inductive ServerPc where
  | checking
  | listening
  | loading
  | starting
  | spawning
  | readying
  | selecting
  | unhealthy
  | closingMetrics
  | waitMetrics (deadline : ℕ)
  | stopping
  | draining (deadline : ℕ)
  | forcing
  | closing (result : Option Err)
  | returned (result : Option Err)
  deriving DecidableEq, Repr

/-- Before `RunServer` listens and after it has returned. -/
def ServerPc.shut : ServerPc → Bool
  | .checking | .listening | .returned _ => true
  | _ => false

/-- Past `SetServingStatus`, on the way to return nil. -/
def ServerPc.leaving : ServerPc → Bool
  | .closingMetrics | .waitMetrics _ | .stopping | .draining _ | .forcing => true
  | .closing none | .returned none => true
  | _ => false

/-- Past the call of `metrics.Shutdown`. -/
def ServerPc.pastMetrics : ServerPc → Bool
  | .waitMetrics _ | .stopping | .draining _ | .forcing => true
  | .closing none | .returned none => true
  | _ => false

/-- The goroutine of `grpcServer.Serve`. -/
inductive ServePc where
  | absent
  | created
  | running
  | waiting
  | returned
  deriving DecidableEq, Repr

/-- The goroutine of `grpcServer.GracefulStop`. -/
inductive GracefulPc where
  | absent
  | created
  | quitting
  | draining
  | done
  deriving DecidableEq, Repr

/-- The metrics server with its goroutine. -/
inductive MetricsPc where
  | absent
  | created
  | bound (b : Bound)
  | serving (b : Bound)
  | closed
  deriving DecidableEq, Repr

/-- One call of the relay service. -/
inductive Call where
  | register (r : ℕ)
  | connect (i : ℕ)
  | accept (m : ℕ)
  deriving DecidableEq, Repr

/-- The call that an action of the service begins. -/
def Act.begins : Act → Option Call
  | .register r (.own (.call _)) => some (.register r)
  | .connect i (.own .call) => some (.connect i)
  | .accept m (.own .call) => some (.accept m)
  | _ => none

def Call.returned (s : Service) : Call → Bool
  | .register r => match (s.reg r).pc with
    | .returned _ => true
    | _ => false
  | .connect i => match (s.conn i).pc with
    | .returned _ => true
    | _ => false
  | .accept m => match (s.acc m).pc with
    | .returned _ => true
    | _ => false

/-- One run of `RunServer`. `begun` are the calls that have begun, `shutdownAt` the time at which
the `select` took the end of the context; no step reads the latter. -/
structure ServerRun where
  pc : ServerPc := .checking
  ctxDone : Bool := false
  lis : Option Bound := none
  tls : Bool := false
  serve : ServePc := .absent
  served : Bool := false
  errCh : Option (Option Err) := none
  graceful : GracefulPc := .absent
  quit : Bool := false
  goAway : Bool := false
  stopped : Bool := false
  metrics : MetricsPc := .absent
  metricsDown : Bool := false
  pprof : Bool := false
  notServing : Bool := false
  readied : ℕ := 0
  relay : Service := {}
  begun : List Call := []
  now : ℕ := 0
  shutdownAt : Option ℕ := none

inductive MainAct where
  | check
  | listen (result : Except Err Bound)
  | load (result : Option Err)
  | start
  | spawn
  | ready
  | takeErr
  | takeCtx
  | setNotServing
  | shutdownMetrics
  | metricsDone
  | stop
  | takeDone
  | timeout
  | stopDone
  | close
  deriving DecidableEq, Repr

inductive ServeAct where
  | start
  | fail (e : Err)
  | quit
  | done
  deriving DecidableEq, Repr

inductive GracefulAct where
  | quit
  | drain
  | done
  deriving DecidableEq, Repr

inductive MetricsAct where
  | listen (result : Except Err Bound)
  | serve
  deriving DecidableEq, Repr

inductive ServerAct where
  | cancel
  | tick
  | main (a : MainAct)
  | serve (a : ServeAct)
  | graceful (a : GracefulAct)
  | metrics (a : MetricsAct)
  | relay (a : Act)
  deriving DecidableEq, Repr

namespace ServerRun

/-- `GracefulStop` and `Stop` close the listener that `Serve` has taken. -/
def fireQuit (s : ServerRun) : ServerRun :=
  { s with quit := true, lis := if s.serve = .running then none else s.lis }

/-- The body of `RunServer`. -/
def main (net : Network) (cfg : Cli.ServerConfig) (s : ServerRun) : MainAct → Option ServerRun
  | .check =>
    match s.pc with
    | .checking =>
      match serverCheck net cfg with
      | some e => some { s with pc := .returned (some e) }
      | none => some { s with pc := .listening }
    | _ => none
  | .listen result =>
    match s.pc, result with
    | .listening, .error e => some { s with pc := .returned (some (.errorf "listening" e)) }
    | .listening, .ok b =>
      if b ∈ net.listenAddrs cfg.listen then some { s with pc := .loading, lis := some b }
      else none
    | _, _ => none
  | .load result =>
    match s.pc with
    | .loading =>
      if cfg.h2c then some { s with pc := .starting, tls := false }
      else
        match result with
        | none => some { s with pc := .starting, tls := true }
        | some e => some { s with pc := .closing (some (.errorf "loading TLS certificate" e)) }
    | _ => none
  | .start =>
    match s.pc with
    | .starting =>
      if cfg.metricsListen.isEmpty then some { s with pc := .spawning }
      else some { s with pc := .spawning, metrics := .created, pprof := cfg.pprof }
    | _ => none
  | .spawn =>
    match s.pc with
    | .spawning => some { s with pc := .readying, serve := .created }
    | _ => none
  | .ready =>
    match s.pc with
    | .readying => some { s with pc := .selecting, readied := s.readied + 1 }
    | _ => none
  | .takeErr =>
    match s.pc, s.errCh with
    | .selecting, some result => some { s with pc := .closing result, errCh := none }
    | _, _ => none
  | .takeCtx =>
    match s.pc, s.ctxDone with
    | .selecting, true => some { s with pc := .unhealthy, shutdownAt := some s.now }
    | _, _ => none
  | .setNotServing =>
    match s.pc with
    | .unhealthy => some { s with pc := .closingMetrics, notServing := true }
    | _ => none
  | .shutdownMetrics =>
    match s.pc with
    | .closingMetrics =>
      if s.metrics = .absent then some { s with pc := .stopping }
      else some { s with
        pc := .waitMetrics (s.now + shutdownTimeout cfg)
        metricsDown := true
        metrics := match s.metrics with
          | .serving _ => .closed
          | other => other }
    | _ => none
  | .metricsDone =>
    match s.pc with
    | .waitMetrics _ => some { s with pc := .stopping }
    | _ => none
  | .stop =>
    match s.pc with
    | .stopping =>
      some { s with pc := .draining (s.now + shutdownTimeout cfg), graceful := .created }
    | _ => none
  | .takeDone =>
    match s.pc, s.graceful with
    | .draining _, .done => some { s with pc := .closing none }
    | _, _ => none
  | .timeout =>
    match s.pc with
    | .draining deadline =>
      if deadline ≤ s.now then some { s.fireQuit with pc := .forcing } else none
    | _ => none
  | .stopDone =>
    match s.pc with
    | .forcing =>
      if s.serve = .running then none
      else some { s with pc := .closing none, goAway := true, stopped := true }
    | _ => none
  | .close =>
    match s.pc with
    | .closing result => some { s with pc := .returned result, lis := none }
    | _ => none

/-- `errCh <- grpcServer.Serve(lis)`. -/
def serveStep (s : ServerRun) : ServeAct → Option ServerRun
  | .start =>
    match s.serve with
    | .created =>
      if s.quit then
        some { s with serve := .returned, lis := none, errCh := some (some errServerStopped) }
      else some { s with serve := .running, served := true }
    | _ => none
  | .fail e =>
    match s.serve, s.quit with
    | .running, false =>
      some { s with serve := .returned, lis := none, errCh := some (some e) }
    | _, _ => none
  | .quit =>
    match s.serve, s.quit with
    | .running, true => some { s with serve := .waiting }
    | _, _ => none
  | .done =>
    match s.serve with
    | .waiting =>
      if s.stopped ∨ s.graceful = .done then
        some { s with serve := .returned, errCh := some none }
      else none
    | _ => none

/-- `grpcServer.GracefulStop()`. -/
def gracefulStep (s : ServerRun) : GracefulAct → Option ServerRun
  | .quit =>
    match s.graceful with
    | .created => some { s.fireQuit with graceful := .quitting }
    | _ => none
  | .drain =>
    match s.graceful with
    | .quitting =>
      if s.serve = .running then none
      else some { s with graceful := .draining, goAway := true }
    | _ => none
  | .done =>
    match s.graceful with
    | .draining =>
      if s.begun.all (Call.returned s.relay) then some { s with graceful := .done } else none
    | _ => none

/-- `metrics.ListenAndServe()`. -/
def metricsStep (net : Network) (cfg : Cli.ServerConfig) (s : ServerRun) :
    MetricsAct → Option ServerRun
  | .listen result =>
    match s.metrics with
    | .created =>
      if s.metricsDown then some { s with metrics := .closed }
      else
        match result with
        | .error _ => some { s with metrics := .closed }
        | .ok b =>
          if b ∈ net.listenAddrs cfg.metricsListen then some { s with metrics := .bound b }
          else none
    | _ => none
  | .serve =>
    match s.metrics with
    | .bound b =>
      if s.metricsDown then some { s with metrics := .closed }
      else some { s with metrics := .serving b }
    | _ => none

/-- The calls of the service; one may begin on a connection that was not told to go away. -/
def relayStep (cfg : Cli.ServerConfig) (s : ServerRun) (a : Act) : Option ServerRun :=
  match a.begins with
  | none => ((Service.machine (serviceConfig cfg)).step s.relay a).map fun t ↦
      { s with relay := t }
  | some c =>
    if s.served && !s.goAway then
      ((Service.machine (serviceConfig cfg)).step s.relay a).map fun t ↦
        { s with relay := t, begun := c :: s.begun }
    else none

/-- Time passes while `RunServer` starts, serves, waits or has returned; its steps of shutting
down take none. -/
def idles (s : ServerRun) : Bool :=
  match s.pc with
  | .unhealthy | .closingMetrics | .stopping => false
  | .waitMetrics deadline => decide (s.now < deadline)
  | .draining deadline => decide (s.now < deadline) && s.graceful != .done
  | _ => true

def step (net : Network) (cfg : Cli.ServerConfig) (s : ServerRun) :
    ServerAct → Option ServerRun
  | .cancel => some { s with ctxDone := true }
  | .tick => if s.idles then some { s with now := s.now + 1 } else none
  | .main a => s.main net cfg a
  | .serve a => s.serveStep a
  | .graceful a => s.gracefulStep a
  | .metrics a => s.metricsStep net cfg a
  | .relay a => s.relayStep cfg a

def machine (net : Network) (cfg : Cli.ServerConfig) : Machine ServerRun ServerAct where
  init := {}
  step := step net cfg

/-- Everything a step of the body can do. -/
inductive MainMove (net : Network) (cfg : Cli.ServerConfig) (s : ServerRun) : ServerRun → Prop
  | refused (e : Err) : s.pc = .checking → MainMove net cfg s { s with pc := .returned (some e) }
  | checked : s.pc = .checking → serverCheck net cfg = none →
      MainMove net cfg s { s with pc := .listening }
  | listenFailed (e : Err) : s.pc = .listening →
      MainMove net cfg s { s with pc := .returned (some e) }
  | listened (b : Bound) : s.pc = .listening → b ∈ net.listenAddrs cfg.listen →
      MainMove net cfg s { s with pc := .loading, lis := some b }
  | loadFailed (e : Err) : s.pc = .loading → MainMove net cfg s { s with pc := .closing (some e) }
  | loaded : s.pc = .loading → MainMove net cfg s { s with pc := .starting, tls := !cfg.h2c }
  | unmetered : s.pc = .starting → MainMove net cfg s { s with pc := .spawning }
  | metered : s.pc = .starting →
      MainMove net cfg s { s with pc := .spawning, metrics := .created, pprof := cfg.pprof }
  | spawned : s.pc = .spawning → MainMove net cfg s { s with pc := .readying, serve := .created }
  | readied : s.pc = .readying →
      MainMove net cfg s { s with pc := .selecting, readied := s.readied + 1 }
  | tookErr (result : Option Err) : s.pc = .selecting → s.errCh = some result →
      MainMove net cfg s { s with pc := .closing result, errCh := none }
  | tookCtx : s.pc = .selecting → s.ctxDone = true →
      MainMove net cfg s { s with pc := .unhealthy, shutdownAt := some s.now }
  | saidNotServing : s.pc = .unhealthy →
      MainMove net cfg s { s with pc := .closingMetrics, notServing := true }
  | noMetrics : s.pc = .closingMetrics → s.metrics = .absent →
      MainMove net cfg s { s with pc := .stopping }
  | metricsShut (metrics : MetricsPc) : s.pc = .closingMetrics →
      (∀ b, metrics ≠ .serving b) → (metrics = .closed ∨ metrics = s.metrics) →
      MainMove net cfg s { s with
        pc := .waitMetrics (s.now + shutdownTimeout cfg), metricsDown := true, metrics := metrics }
  | metricsDone (deadline : ℕ) : s.pc = .waitMetrics deadline →
      MainMove net cfg s { s with pc := .stopping }
  | stopCalled : s.pc = .stopping →
      MainMove net cfg s
        { s with pc := .draining (s.now + shutdownTimeout cfg), graceful := .created }
  | tookDone (deadline : ℕ) : s.pc = .draining deadline → s.graceful = .done →
      MainMove net cfg s { s with pc := .closing none }
  | timedOut (deadline : ℕ) : s.pc = .draining deadline →
      MainMove net cfg s { s.fireQuit with pc := .forcing }
  | stopDone : s.pc = .forcing →
      MainMove net cfg s { s with pc := .closing none, goAway := true, stopped := true }
  | closed (result : Option Err) : s.pc = .closing result →
      MainMove net cfg s { s with pc := .returned result, lis := none }

inductive ServeMove (s : ServerRun) : ServerRun → Prop
  | refused : s.serve = .created → s.quit = true →
      ServeMove s { s with
        serve := .returned, lis := none, errCh := some (some errServerStopped) }
  | started : s.serve = .created → ServeMove s { s with serve := .running, served := true }
  | failed (e : Err) : s.serve = .running →
      ServeMove s { s with serve := .returned, lis := none, errCh := some (some e) }
  | quit : s.serve = .running → s.quit = true → ServeMove s { s with serve := .waiting }
  | done : s.serve = .waiting → ServeMove s { s with serve := .returned, errCh := some none }

inductive GracefulMove (s : ServerRun) : ServerRun → Prop
  | quit : s.graceful = .created → GracefulMove s { s.fireQuit with graceful := .quitting }
  | drain : s.graceful = .quitting → GracefulMove s { s with graceful := .draining, goAway := true }
  | done : s.graceful = .draining → s.begun.all (Call.returned s.relay) = true →
      GracefulMove s { s with graceful := .done }

/-- A step of the metrics server ends it, binds its address or serves there. -/
inductive MetricsMove (net : Network) (cfg : Cli.ServerConfig) (s : ServerRun) : ServerRun → Prop
  | closed : s.metrics ≠ .absent → MetricsMove net cfg s { s with metrics := .closed }
  | bound (b : Bound) : s.metrics = .created → b ∈ net.listenAddrs cfg.metricsListen →
      MetricsMove net cfg s { s with metrics := .bound b }
  | serving (b : Bound) : s.metrics = .bound b → s.metricsDown = false →
      MetricsMove net cfg s { s with metrics := .serving b }

/-- A step of the service, which begins a call only while streams may be opened. -/
inductive RelayMove (cfg : Cli.ServerConfig) (s : ServerRun) : ServerRun → Prop
  | inside (a : Act) (t : Service) : a.begins = none →
      (Service.machine (serviceConfig cfg)).step s.relay a = some t →
      RelayMove cfg s { s with relay := t }
  | began (a : Act) (c : Call) (t : Service) : a.begins = some c → s.goAway = false →
      (Service.machine (serviceConfig cfg)).step s.relay a = some t →
      RelayMove cfg s { s with relay := t, begun := c :: s.begun }

/-- Everything a step can do. -/
inductive Move (net : Network) (cfg : Cli.ServerConfig) (s : ServerRun) : ServerRun → Prop
  | cancelled : Move net cfg s { s with ctxDone := true }
  | ticked : s.idles = true → Move net cfg s { s with now := s.now + 1 }
  | main (t : ServerRun) : MainMove net cfg s t → Move net cfg s t
  | serve (t : ServerRun) : ServeMove s t → Move net cfg s t
  | graceful (t : ServerRun) : GracefulMove s t → Move net cfg s t
  | metrics (t : ServerRun) : MetricsMove net cfg s t → Move net cfg s t
  | relay (t : ServerRun) : RelayMove cfg s t → Move net cfg s t

variable {net : Network} {cfg : Cli.ServerConfig} {s t : ServerRun}

theorem mainMove_of_main {a : MainAct} (h : s.main net cfg a = some t) :
    MainMove net cfg s t := by
  cases a <;> simp only [main] at h
  case check =>
    split at h
    · rename_i hpc
      split at h
      · cases h
        exact .refused _ hpc
      · rename_i hcheck
        cases h
        exact .checked hpc hcheck
    · contradiction
  case listen result =>
    split at h
    · rename_i e hpc
      cases h
      exact .listenFailed _ hpc
    · rename_i b hpc
      obtain ⟨hb, ht⟩ := Option.ite_none_right_eq_some.mp h
      cases ht
      exact .listened b hpc hb
    · contradiction
  case load result =>
    split at h
    · rename_i hpc
      have hloaded : MainMove net cfg s _ := .loaded hpc
      split_ifs at h with hh2c
      · cases h
        simpa [hh2c] using hloaded
      · split at h
        · cases h
          simpa [hh2c] using hloaded
        · cases h
          exact .loadFailed _ hpc
    · contradiction
  case start =>
    split at h
    · rename_i hpc
      split_ifs at h with hmetrics
      · cases h
        exact .unmetered hpc
      · cases h
        exact .metered hpc
    · contradiction
  case takeErr =>
    split at h
    · rename_i result hpc herr
      cases h
      exact .tookErr result hpc herr
    · contradiction
  case takeCtx =>
    split at h
    · rename_i hpc hctx
      cases h
      exact .tookCtx hpc hctx
    · contradiction
  case shutdownMetrics =>
    split at h
    · rename_i hpc
      split_ifs at h with habsent
      · cases h
        exact .noMetrics hpc habsent
      · cases h
        cases hmetrics : s.metrics with
        | serving b => exact .metricsShut .closed hpc (fun _ ↦ by simp) (.inl rfl)
        | _ => exact .metricsShut _ hpc (fun _ ↦ by simp) (.inr hmetrics.symm)
    · contradiction
  case takeDone =>
    split at h
    · rename_i deadline hpc hdone
      cases h
      exact .tookDone deadline hpc hdone
    · contradiction
  case timeout =>
    split at h
    · rename_i deadline hpc
      obtain ⟨-, ht⟩ := Option.ite_none_right_eq_some.mp h
      cases ht
      exact .timedOut deadline hpc
    · contradiction
  case stopDone =>
    split at h
    · rename_i hpc
      obtain ⟨-, ht⟩ := Option.ite_none_left_eq_some.mp h
      cases ht
      exact .stopDone hpc
    · contradiction
  case metricsDone =>
    split at h
    · rename_i deadline hpc
      cases h
      exact .metricsDone deadline hpc
    · contradiction
  case close =>
    split at h
    · rename_i result hpc
      cases h
      exact .closed result hpc
    · contradiction
  all_goals
    split at h
    · rename_i hpc
      cases h
      constructor
      exact hpc
    · contradiction

theorem serveMove_of_serveStep {a : ServeAct} (h : s.serveStep a = some t) : ServeMove s t := by
  cases a <;> simp only [serveStep] at h
  case start =>
    split at h
    · rename_i hserve
      split_ifs at h with hquit
      · cases h
        exact .refused hserve hquit
      · cases h
        exact .started hserve
    · contradiction
  case fail e =>
    split at h
    · rename_i hserve hquit
      cases h
      exact .failed e hserve
    · contradiction
  case quit =>
    split at h
    · rename_i hserve hquit
      cases h
      exact .quit hserve hquit
    · contradiction
  case done =>
    split at h
    · rename_i hserve
      obtain ⟨-, ht⟩ := Option.ite_none_right_eq_some.mp h
      cases ht
      exact .done hserve
    · contradiction

theorem gracefulMove_of_gracefulStep {a : GracefulAct} (h : s.gracefulStep a = some t) :
    GracefulMove s t := by
  cases a <;> simp only [gracefulStep] at h
  case quit =>
    split at h
    · rename_i hpc
      cases h
      exact .quit hpc
    · contradiction
  case drain =>
    split at h
    · rename_i hpc
      obtain ⟨-, ht⟩ := Option.ite_none_left_eq_some.mp h
      cases ht
      exact .drain hpc
    · contradiction
  case done =>
    split at h
    · rename_i hpc
      obtain ⟨hall, ht⟩ := Option.ite_none_right_eq_some.mp h
      cases ht
      exact .done hpc hall
    · contradiction

theorem metricsMove_of_metricsStep {a : MetricsAct} (h : s.metricsStep net cfg a = some t) :
    MetricsMove net cfg s t := by
  cases a <;> simp only [metricsStep] at h
  case listen result =>
    split at h
    · rename_i hpc
      have hclosed : MetricsMove net cfg s _ := .closed (by simp [hpc])
      split_ifs at h with hdown
      · cases h
        exact hclosed
      · split at h
        · cases h
          exact hclosed
        · rename_i b
          obtain ⟨hb, ht⟩ := Option.ite_none_right_eq_some.mp h
          cases ht
          exact .bound b hpc hb
    · contradiction
  case serve =>
    split at h
    · rename_i b hpc
      split_ifs at h with hdown
      · cases h
        exact .closed (by simp [hpc])
      · cases h
        exact .serving b hpc (by simpa using hdown)
    · contradiction

theorem relayMove_of_relayStep {a : Act} (h : s.relayStep cfg a = some t) :
    RelayMove cfg s t := by
  simp only [relayStep] at h
  split at h
  · rename_i hbegins
    obtain ⟨relay, hrelay, rfl⟩ := Option.map_eq_some_iff.mp h
    exact .inside a relay hbegins hrelay
  · rename_i c hbegins
    obtain ⟨hopen, h⟩ := Option.ite_none_right_eq_some.mp h
    obtain ⟨relay, hrelay, rfl⟩ := Option.map_eq_some_iff.mp h
    exact .began a c relay hbegins (by simp_all) hrelay

theorem move_of_step {a : ServerAct} (h : s.step net cfg a = some t) : Move net cfg s t := by
  cases a with
  | cancel =>
    cases h
    exact .cancelled
  | tick =>
    obtain ⟨hidles, ht⟩ := Option.ite_none_right_eq_some.mp h
    cases ht
    exact .ticked hidles
  | main a => exact .main t (mainMove_of_main h)
  | serve a => exact .serve t (serveMove_of_serveStep h)
  | graceful a => exact .graceful t (gracefulMove_of_gracefulStep h)
  | metrics a => exact .metrics t (metricsMove_of_metricsStep h)
  | relay a => exact .relay t (relayMove_of_relayStep h)

/-- The configuration has passed the checks, or nothing was opened. -/
def Opened (net : Network) (cfg : Cli.ServerConfig) (s : ServerRun) : Prop :=
  ((s.pc = .checking ∨ ∃ result, s.pc = .returned result) ∧ s.lis = none ∧ s.metrics = .absent) ∨
    serverCheck net cfg = none

theorem Move.opened (hmove : Move net cfg s t) (h : Opened net cfg s) : Opened net cfg t := by
  rcases h with ⟨hpc, hlis, habsent⟩ | hcheck
  · cases hmove with
    | main t hmain =>
      cases hmain with
      | refused e _ => exact .inl ⟨.inr ⟨_, rfl⟩, hlis, habsent⟩
      | checked _ hcheck => exact .inr hcheck
      | _ => simp_all
    | serve t hserve => cases hserve <;> exact .inl ⟨hpc, by simp [hlis], habsent⟩
    | graceful t hgraceful =>
      cases hgraceful <;> exact .inl ⟨hpc, by simp [fireQuit, hlis], habsent⟩
    | metrics t hmetrics => cases hmetrics <;> simp_all
    | relay t hrelay => cases hrelay <;> exact .inl ⟨hpc, hlis, habsent⟩
    | _ => exact .inl ⟨hpc, hlis, habsent⟩
  · exact .inr hcheck

/-- The listener is bound as the configuration says, and closed outside the body. -/
structure Listens (net : Network) (cfg : Cli.ServerConfig) (s : ServerRun) : Prop where
  addr : ∀ b, s.lis = some b → b ∈ net.listenAddrs cfg.listen
  shut : s.pc.shut = true → s.lis = none

theorem Listens.congr (h : Listens net cfg s) (hpc : t.pc.shut = true → s.pc.shut = true)
    (hlis : t.lis = s.lis ∨ t.lis = none) : Listens net cfg t := by
  rcases hlis with hlis | hlis
  · exact ⟨hlis ▸ h.addr, fun hshut ↦ hlis ▸ h.shut (hpc hshut)⟩
  · exact ⟨by simp [hlis], fun _ ↦ hlis⟩

theorem fireQuit_lis (s : ServerRun) : s.fireQuit.lis = s.lis ∨ s.fireQuit.lis = none := by
  unfold fireQuit
  split_ifs
  · exact .inr rfl
  · exact .inl rfl

theorem MainMove.listens (hmove : MainMove net cfg s t) (h : Listens net cfg s) :
    Listens net cfg t := by
  cases hmove with
  | refused e hpc => exact h.congr (fun _ ↦ by simp [hpc, ServerPc.shut]) (.inl rfl)
  | checked hpc _ => exact h.congr (fun _ ↦ by simp [hpc, ServerPc.shut]) (.inl rfl)
  | listenFailed e hpc => exact h.congr (fun _ ↦ by simp [hpc, ServerPc.shut]) (.inl rfl)
  | listened b _ hb =>
    refine ⟨fun b' hb' ↦ ?_, fun hshut ↦ by contradiction⟩
    cases hb'
    exact hb
  | timedOut deadline _ => exact h.congr (fun hshut ↦ by contradiction) s.fireQuit_lis
  | closed result _ => exact ⟨fun b hb ↦ by contradiction, fun _ ↦ rfl⟩
  | _ => exact h.congr (fun hshut ↦ by contradiction) (.inl rfl)

theorem Move.listens (hmove : Move net cfg s t) (h : Listens net cfg s) : Listens net cfg t := by
  cases hmove with
  | main t hmain => exact hmain.listens h
  | serve t hserve =>
    cases hserve with
    | refused _ _ => exact h.congr id (.inr rfl)
    | failed e _ => exact h.congr id (.inr rfl)
    | _ => exact h.congr id (.inl rfl)
  | graceful t hgraceful =>
    cases hgraceful with
    | quit _ => exact h.congr id s.fireQuit_lis
    | _ => exact h.congr id (.inl rfl)
  | metrics t hmetrics => cases hmetrics <;> exact h.congr id (.inl rfl)
  | relay t hrelay => cases hrelay <;> exact h.congr id (.inl rfl)
  | _ => exact h.congr id (.inl rfl)

/-- gRPC is served with the credentials that the configuration asks for. -/
def Secured (cfg : Cli.ServerConfig) (s : ServerRun) : Prop :=
  s.pc = .starting ∨ s.pc = .spawning ∨ s.serve ≠ .absent ∨ s.served = true → s.tls = !cfg.h2c

theorem ServeMove.present (hmove : ServeMove s t) : s.serve ≠ .absent ∧ t.tls = s.tls := by
  cases hmove <;> simp_all

theorem Move.secured (hmove : Move net cfg s t) (h : Secured cfg s) : Secured cfg t := by
  cases hmove with
  | main t hmain =>
    cases hmain with
    | loaded _ => exact fun _ ↦ rfl
    | unmetered hpc => exact fun _ ↦ h (.inl hpc)
    | metered hpc => exact fun _ ↦ h (.inl hpc)
    | spawned hpc => exact fun _ ↦ h (.inr (.inl hpc))
    | _ => exact fun hany ↦ h (.inr (.inr (by simpa [fireQuit] using hany)))
  | serve t hserve =>
    obtain ⟨hpresent, htls⟩ := hserve.present
    exact fun _ ↦ htls.trans (h (.inr (.inr (.inl hpresent))))
  | graceful t hgraceful => cases hgraceful <;> exact h
  | metrics t hmetrics => cases hmetrics <;> exact h
  | relay t hrelay => cases hrelay <;> exact h
  | _ => exact h

/-- The metrics server is bound as the configuration says and does not serve once shut down. -/
structure MetricsServed (net : Network) (cfg : Cli.ServerConfig) (s : ServerRun) : Prop where
  addr : ∀ b, s.metrics = .bound b ∨ s.metrics = .serving b → b ∈ net.listenAddrs cfg.metricsListen
  down : s.metricsDown = true → ∀ b, s.metrics ≠ .serving b
  pprof : s.pprof = true → cfg.pprof = true

theorem Move.metricsServed (hmove : Move net cfg s t) (h : MetricsServed net cfg s) :
    MetricsServed net cfg t := by
  cases hmove with
  | main t hmain =>
    cases hmain with
    | metered _ => exact ⟨by simp, by simp, id⟩
    | metricsShut metrics _ hserving hmetrics =>
      refine ⟨fun b hb ↦ ?_, fun _ ↦ hserving, h.pprof⟩
      rcases hmetrics with rfl | rfl
      · simp at hb
      · exact h.addr b hb
    | _ => exact ⟨h.addr, h.down, h.pprof⟩
  | serve t hserve => cases hserve <;> exact ⟨h.addr, h.down, h.pprof⟩
  | graceful t hgraceful => cases hgraceful <;> exact ⟨h.addr, h.down, h.pprof⟩
  | metrics t hmetrics =>
    cases hmetrics with
    | closed _ => exact ⟨by simp, by simp, h.pprof⟩
    | bound b _ hb =>
      refine ⟨fun b' hb' ↦ ?_, by simp, h.pprof⟩
      obtain rfl : b = b' := by simpa using hb'
      exact hb
    | serving b hbound hdown =>
      refine ⟨fun b' hb' ↦ ?_, fun hdown' ↦ ?_, h.pprof⟩
      · obtain rfl : b = b' := by simpa using hb'
        exact h.addr b (.inl hbound)
      · simp [hdown] at hdown'
  | relay t hrelay => cases hrelay <;> exact ⟨h.addr, h.down, h.pprof⟩
  | _ => exact ⟨h.addr, h.down, h.pprof⟩

/-- The context is done, the shutdown has begun and the health service says so. -/
structure Leaving (s : ServerRun) : Prop where
  ctxDone : s.ctxDone = true
  shutdownAt : s.shutdownAt ≠ none
  notServing : s.notServing = true

theorem Move.leaving (hmove : Move net cfg s t) (h : Leaving s) : Leaving t := by
  obtain ⟨hctx, hat, hhealth⟩ := h
  cases hmove with
  | main t hmain =>
    cases hmain with
    | tookCtx _ _ => exact ⟨hctx, by simp, hhealth⟩
    | saidNotServing _ => exact ⟨hctx, hat, rfl⟩
    | _ => exact ⟨hctx, hat, hhealth⟩
  | serve t hserve => cases hserve <;> exact ⟨hctx, hat, hhealth⟩
  | graceful t hgraceful => cases hgraceful <;> exact ⟨hctx, hat, hhealth⟩
  | metrics t hmetrics => cases hmetrics <;> exact ⟨hctx, hat, hhealth⟩
  | relay t hrelay => cases hrelay <;> exact ⟨hctx, hat, hhealth⟩
  | cancelled => exact ⟨rfl, hat, hhealth⟩
  | ticked _ => exact ⟨hctx, hat, hhealth⟩

/-- Something that only the shutdown does has been done. -/
def Quits (s : ServerRun) : Prop :=
  s.pc.leaving = true ∨ s.graceful ≠ .absent ∨ s.quit = true ∨ s.goAway = true ∨
    s.serve = .waiting ∨ s.errCh = some none

/-- The shutdown does nothing before the health service was told. -/
structure Announced (s : ServerRun) : Prop where
  unhealthy : s.pc = .unhealthy → s.ctxDone = true ∧ s.shutdownAt ≠ none
  quits : Quits s → Leaving s

theorem Quits.of_main (hmove : MainMove net cfg s t) (h : Quits t) :
    Quits s ∨ s.pc = .unhealthy := by
  cases hmove with
  | saidNotServing hpc => exact .inr hpc
  | tookErr result hpc herr =>
    left
    rcases h with h | h | h | h | h | h
    · cases result with
      | none => simp [Quits, herr]
      | some e => simp [ServerPc.leaving] at h
    all_goals simp_all [Quits]
  | noMetrics hpc _ => exact .inl (.inl (by simp [hpc, ServerPc.leaving]))
  | metricsShut metrics hpc _ _ => exact .inl (.inl (by simp [hpc, ServerPc.leaving]))
  | metricsDone deadline hpc => exact .inl (.inl (by simp [hpc, ServerPc.leaving]))
  | stopCalled hpc => exact .inl (.inl (by simp [hpc, ServerPc.leaving]))
  | tookDone deadline hpc _ => exact .inl (.inl (by simp [hpc, ServerPc.leaving]))
  | timedOut deadline hpc => exact .inl (.inl (by simp [hpc, ServerPc.leaving]))
  | stopDone hpc => exact .inl (.inl (by simp [hpc, ServerPc.leaving]))
  | closed result hpc =>
    left
    cases result <;> simp_all [Quits, ServerPc.leaving]
  | spawned _ => exact .inl (by grind [Quits, ServerPc.leaving])
  | _ => simp_all [Quits, ServerPc.leaving]

theorem Move.announced (hmove : Move net cfg s t) (h : Announced s) : Announced t := by
  have hleaving : Quits s → Leaving t := fun hquits ↦ hmove.leaving (h.quits hquits)
  cases hmove with
  | main t hmain =>
    refine ⟨?_, fun hquits ↦ ?_⟩
    · cases hmain with
      | tookCtx _ hctx => exact fun _ ↦ ⟨hctx, by simp⟩
      | _ => intro hpc; contradiction
    · rcases Quits.of_main hmain hquits with hold | hpc
      · exact hleaving hold
      · obtain ⟨hctx, hat⟩ := h.unhealthy hpc
        cases hmain with
        | saidNotServing _ => exact ⟨hctx, hat, rfl⟩
        | _ => simp_all
  | serve t hserve =>
    refine ⟨?_, fun hquits ↦ hleaving ?_⟩
    · cases hserve <;> exact h.unhealthy
    · cases hserve <;> grind [Quits]
  | graceful t hgraceful =>
    refine ⟨?_, fun hquits ↦ hleaving ?_⟩
    · cases hgraceful <;> exact h.unhealthy
    · cases hgraceful <;> simp_all [Quits]
  | metrics t hmetrics =>
    refine ⟨?_, fun hquits ↦ hleaving ?_⟩
    · cases hmetrics <;> exact h.unhealthy
    · cases hmetrics <;> exact hquits
  | relay t hrelay =>
    refine ⟨?_, fun hquits ↦ hleaving ?_⟩
    · cases hrelay <;> exact h.unhealthy
    · cases hrelay <;> exact hquits
  | cancelled => exact ⟨fun hpc ↦ ⟨rfl, (h.unhealthy hpc).2⟩, hleaving⟩
  | ticked _ => exact ⟨h.unhealthy, hleaving⟩

/-- Where `RunServer` is against the time at which its shutdown began. -/
def Scheduled (timeout : ℕ) (s : ServerRun) : Prop :=
  match s.pc with
  | .unhealthy | .closingMetrics => s.shutdownAt = some s.now
  | .waitMetrics deadline => ∃ b, s.shutdownAt = some b ∧ s.now ≤ deadline ∧ deadline ≤ b + timeout
  | .stopping => ∃ b, s.shutdownAt = some b ∧ s.now ≤ b + timeout
  | .draining deadline =>
    ∃ b, s.shutdownAt = some b ∧ s.now ≤ deadline ∧ deadline ≤ b + 2 * timeout
  | .forcing | .closing none | .returned none => s.shutdownAt ≠ none
  | _ => s.shutdownAt = none

theorem Scheduled.congr {timeout : ℕ} (h : Scheduled timeout s) (hpc : t.pc = s.pc)
    (hat : t.shutdownAt = s.shutdownAt) (hnow : t.now = s.now) : Scheduled timeout t := by
  unfold Scheduled at h ⊢
  rw [hpc, hat, hnow]
  exact h

theorem Scheduled.tick {timeout : ℕ} (h : Scheduled timeout s) (hidles : s.idles = true) :
    Scheduled timeout { s with now := s.now + 1 } := by
  unfold Scheduled at h ⊢
  unfold idles at hidles
  cases hpc : s.pc with
  | waitMetrics deadline =>
    simp only [hpc, decide_eq_true_eq] at h hidles ⊢
    obtain ⟨b, hb, -, hle⟩ := h
    exact ⟨b, hb, hidles, hle⟩
  | draining deadline =>
    simp only [hpc, Bool.and_eq_true, decide_eq_true_eq] at h hidles ⊢
    obtain ⟨b, hb, -, hle⟩ := h
    exact ⟨b, hb, hidles.1, hle⟩
  | closing result => cases result <;> simpa [hpc] using h
  | returned result => cases result <;> simpa [hpc] using h
  | _ => simp_all

theorem MainMove.scheduled (hmove : MainMove net cfg s t) (hquits : Quits s → Leaving s)
    (h : Scheduled (shutdownTimeout cfg) s) : Scheduled (shutdownTimeout cfg) t := by
  unfold Scheduled at h ⊢
  cases hmove with
  | tookErr result hpc herr =>
    rw [hpc] at h
    cases result with
    | none => exact (hquits (by simp [Quits, herr])).shutdownAt
    | some e => exact h
  | tookCtx _ _ => exact rfl
  | metricsShut metrics hpc _ _ =>
    rw [hpc] at h
    exact ⟨s.now, h, Nat.le_add_right _ _, Nat.le_refl _⟩
  | noMetrics hpc _ =>
    rw [hpc] at h
    exact ⟨s.now, h, Nat.le_add_right _ _⟩
  | metricsDone deadline hpc =>
    rw [hpc] at h
    obtain ⟨b, hb, hnow, hle⟩ := h
    exact ⟨b, hb, hnow.trans hle⟩
  | stopCalled hpc =>
    rw [hpc] at h
    obtain ⟨b, hb, hnow⟩ := h
    exact ⟨b, hb, Nat.le_add_right _ _, by omega⟩
  | tookDone deadline hpc _ =>
    rw [hpc] at h
    obtain ⟨b, hb, -⟩ := h
    simp [hb]
  | timedOut deadline hpc =>
    rw [hpc] at h
    obtain ⟨b, hb, -⟩ := h
    simp [fireQuit, hb]
  | closed result hpc =>
    rw [hpc] at h
    cases result <;> exact h
  | _ => simp_all

theorem Move.scheduled (hmove : Move net cfg s t) (hquits : Quits s → Leaving s)
    (h : Scheduled (shutdownTimeout cfg) s) : Scheduled (shutdownTimeout cfg) t := by
  cases hmove with
  | main t hmain => exact hmain.scheduled hquits h
  | ticked hidles => exact h.tick hidles
  | cancelled => exact h.congr rfl rfl rfl
  | serve t hserve => cases hserve <;> exact h.congr rfl rfl rfl
  | graceful t hgraceful => cases hgraceful <;> exact h.congr rfl rfl rfl
  | metrics t hmetrics => cases hmetrics <;> exact h.congr rfl rfl rfl
  | relay t hrelay => cases hrelay <;> exact h.congr rfl rfl rfl

/-- `Stop` has told `Serve` to end. -/
def Forced (s : ServerRun) : Prop := s.pc = .forcing → s.quit = true

theorem Move.forced (hmove : Move net cfg s t) (h : Forced s) : Forced t := by
  cases hmove with
  | main t hmain =>
    cases hmain with
    | timedOut deadline _ => exact fun _ ↦ rfl
    | _ => exact fun hpc ↦ by contradiction
  | serve t hserve => cases hserve <;> exact h
  | graceful t hgraceful =>
    cases hgraceful with
    | quit _ => exact fun _ ↦ rfl
    | _ => exact h
  | metrics t hmetrics => cases hmetrics <;> exact h
  | relay t hrelay => cases hrelay <;> exact h
  | _ => exact h

/-- On the way to return nil the metrics server is shut down, and at its end one of the two ways
to stop gRPC is over. -/
structure Concluded (s : ServerRun) : Prop where
  metrics : s.pc.pastMetrics = true → s.metricsDown = true ∨ s.metrics = .absent
  stopped : s.pc = .closing none ∨ s.pc = .returned none → s.graceful = .done ∨ s.stopped = true

theorem MainMove.concluded (hmove : MainMove net cfg s t)
    (hnil : s.pc = .selecting → s.errCh ≠ some none) (h : Concluded s) : Concluded t := by
  cases hmove with
  | tookErr result hpc herr =>
    cases result with
    | none => exact absurd herr (hnil hpc)
    | some e => exact ⟨fun hpast ↦ by contradiction, by simp⟩
  | noMetrics _ habsent => exact ⟨fun _ ↦ .inr habsent, by simp⟩
  | metricsShut metrics _ _ _ => exact ⟨fun _ ↦ .inl rfl, by simp⟩
  | metricsDone deadline hpc =>
    exact ⟨fun _ ↦ h.metrics (by simp [hpc, ServerPc.pastMetrics]), by simp⟩
  | stopCalled hpc => exact ⟨fun _ ↦ h.metrics (by simp [hpc, ServerPc.pastMetrics]), by simp⟩
  | tookDone deadline hpc hdone =>
    exact ⟨fun _ ↦ h.metrics (by simp [hpc, ServerPc.pastMetrics]), fun _ ↦ .inl hdone⟩
  | timedOut deadline hpc =>
    exact ⟨fun _ ↦ h.metrics (by simp [hpc, ServerPc.pastMetrics]), by simp⟩
  | stopDone hpc =>
    exact ⟨fun _ ↦ h.metrics (by simp [hpc, ServerPc.pastMetrics]), fun _ ↦ .inr rfl⟩
  | closed result hpc =>
    cases result with
    | none =>
      exact ⟨fun _ ↦ h.metrics (by simp [hpc, ServerPc.pastMetrics]), fun _ ↦ h.stopped (.inl hpc)⟩
    | some e => exact ⟨fun hpast ↦ by contradiction, by simp⟩
  | _ => exact ⟨fun hpast ↦ by contradiction, by simp⟩

theorem Move.concluded (hmove : Move net cfg s t)
    (hnil : s.pc = .selecting → s.errCh ≠ some none) (h : Concluded s) : Concluded t := by
  cases hmove with
  | main t hmain => exact hmain.concluded hnil h
  | serve t hserve => cases hserve <;> exact ⟨h.metrics, h.stopped⟩
  | graceful t hgraceful =>
    cases hgraceful with
    | quit hpc => exact ⟨h.metrics, fun hend ↦ (h.stopped hend).imp (by simp [hpc]) id⟩
    | drain hpc => exact ⟨h.metrics, fun hend ↦ (h.stopped hend).imp (by simp [hpc]) id⟩
    | done _ _ => exact ⟨h.metrics, fun _ ↦ .inl rfl⟩
  | metrics t hmetrics =>
    cases hmetrics with
    | closed habsent =>
      exact ⟨fun hpast ↦ .inl ((h.metrics hpast).resolve_right habsent), h.stopped⟩
    | bound b hpc _ =>
      exact ⟨fun hpast ↦ .inl ((h.metrics hpast).resolve_right (by simp [hpc])), h.stopped⟩
    | serving b hpc _ =>
      exact ⟨fun hpast ↦ .inl ((h.metrics hpast).resolve_right (by simp [hpc])), h.stopped⟩
  | relay t hrelay => cases hrelay <;> exact ⟨h.metrics, h.stopped⟩
  | _ => exact ⟨h.metrics, h.stopped⟩

end ServerRun

def RegisterPc.resting : RegisterPc → Bool
  | .idle | .returned _ => true
  | _ => false

def ConnectPc.resting : ConnectPc → Bool
  | .idle | .returned _ => true
  | _ => false

def AcceptPc.resting : AcceptPc → Bool
  | .idle | .returned _ => true
  | _ => false

/-- A call that has not begun or has returned. -/
def Call.resting (s : Service) : Call → Bool
  | .register r => (s.reg r).pc.resting
  | .connect i => (s.conn i).pc.resting
  | .accept m => (s.acc m).pc.resting

theorem Call.resting_of_returned {s : Service} {c : Call} (h : c.returned s = true) :
    c.resting s = true := by
  cases c <;> simp only [returned, resting] at h ⊢ <;> split at h <;> simp_all
    [RegisterPc.resting, ConnectPc.resting, AcceptPc.resting]

namespace Service

variable {cfg : Config} {s t : Service} {a : Act}

/-- A change of one call is a change of no other. -/
theorem reg_update {q r : ℕ} {c : RegisterCall} (h : (s.reg r).pc.resting = true)
    (hc : (s.reg q).pc.resting = true → r = q → c.pc.resting = true) :
    (Function.update s.reg q c r).pc.resting = true :=
  holds_update (P := fun c : RegisterCall ↦ c.pc.resting = true) h hc

theorem acc_update {q r : ℕ} {c : AcceptCall} (h : (s.acc r).pc.resting = true)
    (hc : (s.acc q).pc.resting = true → r = q → c.pc.resting = true) :
    (Function.update s.acc q c r).pc.resting = true :=
  holds_update (P := fun c : AcceptCall ↦ c.pc.resting = true) h hc

theorem Step.reg_resting (hstep : Step cfg s a t) {r : ℕ} (ha : a.begins ≠ some (.register r))
    (h : (s.reg r).pc.resting = true) : (t.reg r).pc.resting = true := by
  cases hstep with
  | registerOwn q ev c hmove =>
    refine reg_update h fun hq hr ↦ ?_
    cases hmove with
    | called req _ _ => exact absurd (by rw [hr]; rfl) ha
    | refused req e _ => rfl
    | streamDone e => exact hq
    | _ => simp_all [RegisterPc.resting]
  | found m i _ _ _ =>
    simp only [setAcc_reg, makeReady]
    split_ifs <;> exact h
  | registerRefused q e _ => exact reg_update h fun _ _ ↦ rfl
  | registered q hpc _ _ _ => exact reg_update h fun hq _ ↦ by simp [hpc, RegisterPc.resting] at hq
  | locked q result hpc _ _ => exact reg_update h fun hq _ ↦ by simp [hpc, RegisterPc.resting] at hq
  | lockedOther q result hpc _ _ =>
    exact reg_update h fun hq _ ↦ by simp [hpc, RegisterPc.resting] at hq
  | doneClosed q result hpc => exact reg_update h fun hq _ ↦ by simp [hpc, RegisterPc.resting] at hq
  | sessionCancelled q i result todo hpc _ =>
    exact reg_update h fun _ hr ↦ by simp [hr, hpc, RegisterPc.resting] at h
  | unlocked q result _ => exact reg_update h fun _ _ ↦ rfl
  | reserved i q routeId _ _ _ _ => exact reg_update h fun hq _ ↦ hq
  | released i q result _ _ _ => exact reg_update h fun hq _ ↦ hq
  | notified i q clientHello _ _ hserving =>
    exact reg_update h fun hq _ ↦ by simp [hserving, RegisterPc.resting] at hq
  | _ => exact h

theorem Step.conn_resting (hstep : Step cfg s a t) {i : ℕ} (ha : a.begins ≠ some (.connect i))
    (h : (s.conn i).pc.resting = true) : (t.conn i).pc.resting = true := by
  have hphase : (s.conn i).pc.phase = .early ∨ (s.conn i).pc.phase = .returned := by
    cases hpc : (s.conn i).pc <;> simp_all [ConnectPc.resting, ConnectPc.phase]
  generalize hc : t.conn i = c
  have hmove : ConnStep s a i c := hc ▸ hstep.conn i
  cases hmove with
  | own ev c hmove heq =>
    cases hmove with
    | called _ => exact absurd (by rw [heq]; rfl) ha
    | openRefused result e _ => rfl
    | _ => simp_all [ConnectPc.resting]
  | reserveRefused routeId e _ => rfl
  | released b result _ _ => rfl
  | _ => simp_all [ConnectPc.resting]

theorem Step.acc_resting (hstep : Step cfg s a t) {m : ℕ} (ha : a.begins ≠ some (.accept m))
    (h : (s.acc m).pc.resting = true) : (t.acc m).pc.resting = true := by
  cases hstep with
  | acceptOwn n ev c hmove =>
    refine acc_update h fun hn hm ↦ ?_
    cases hmove with
    | called _ => exact absurd (by rw [hm]; rfl) ha
    | refused result e _ => rfl
    | forward ev fwd _ => exact hn
    | _ => simp_all [AcceptPc.resting]
  | notFound n _ _ _ => exact acc_update h fun _ _ ↦ rfl
  | found n i hpc _ _ =>
    have hacc : ((s.makeReady i (s.acc n).agentHello).acc) = s.acc := by
      unfold makeReady
      split_ifs <;> rfl
    simp only [setAcc, hacc]
    exact acc_update h fun hn _ ↦ by simp [hpc, AcceptPc.resting] at hn
  | acceptCancelled n i result _ _ => exact acc_update h fun _ _ ↦ rfl
  | clientToAgent n i payload _ _ _ => exact acc_update h fun hn _ ↦ hn
  | agentToClient n i payload _ _ _ => exact acc_update h fun hn _ ↦ hn
  | _ => exact h

/-- Only its beginning takes a call that rests out of its rest. -/
theorem Step.resting (hstep : Step cfg s a t) {c : Call} (ha : a.begins ≠ some c)
    (h : c.resting s = true) : c.resting t = true := by
  cases c with
  | register r => exact hstep.reg_resting ha h
  | connect i => exact hstep.conn_resting ha h
  | accept m => exact hstep.acc_resting ha h

end Service

namespace ServerRun

variable {net : Network} {cfg : Cli.ServerConfig} {s t : ServerRun}

/-- Calls that have not begun rest, and once `GracefulStop` is over all calls do. -/
structure Rested (s : ServerRun) : Prop where
  unbegun : ∀ c, c ∉ s.begun → c.resting s.relay = true
  draining : s.graceful = .draining → s.goAway = true
  done : s.graceful = .done → s.goAway = true ∧ ∀ c : Call, c.resting s.relay = true

theorem MainMove.rested (hmove : MainMove net cfg s t) (h : Rested s) : Rested t := by
  cases hmove with
  | stopCalled _ => exact ⟨h.unbegun, by simp, by simp⟩
  | stopDone _ => exact ⟨h.unbegun, fun _ ↦ rfl, fun hdone ↦ ⟨rfl, (h.done hdone).2⟩⟩
  | _ => exact ⟨h.unbegun, h.draining, h.done⟩

theorem GracefulMove.rested (hmove : GracefulMove s t) (h : Rested s) : Rested t := by
  cases hmove with
  | quit _ => exact ⟨h.unbegun, by simp, by simp⟩
  | drain _ => exact ⟨h.unbegun, fun _ ↦ rfl, by simp⟩
  | done hpc hall =>
    refine ⟨h.unbegun, by simp, fun _ ↦ ⟨h.draining hpc, fun c ↦ ?_⟩⟩
    by_cases hc : c ∈ s.begun
    · exact Call.resting_of_returned (List.all_eq_true.mp hall c hc)
    · exact h.unbegun c hc

theorem RelayMove.rested (hmove : RelayMove cfg s t) (h : Rested s) : Rested t := by
  cases hmove with
  | inside a relay hbegins hstep =>
    have hrest (c : Call) (hc : c.resting s.relay = true) : c.resting relay = true :=
      (Service.step_of_step hstep).resting (by simp [hbegins]) hc
    exact ⟨fun c hc ↦ hrest c (h.unbegun c hc), h.draining,
      fun hdone ↦ ⟨(h.done hdone).1, fun c ↦ hrest c ((h.done hdone).2 c)⟩⟩
  | began a c relay hbegins hopen hstep =>
    refine ⟨fun c' hc' ↦ ?_, h.draining, fun hdone ↦ ?_⟩
    · obtain ⟨hne, hold⟩ := not_or.mp (mt List.mem_cons.mpr hc')
      refine (Service.step_of_step hstep).resting ?_ (h.unbegun c' hold)
      rw [hbegins]
      exact fun heq ↦ hne (Option.some.inj heq).symm
    · have hgone := (h.done hdone).1
      simp [hopen] at hgone

theorem Move.rested (hmove : Move net cfg s t) (h : Rested s) : Rested t := by
  cases hmove with
  | main t hmain => exact hmain.rested h
  | graceful t hgraceful => exact hgraceful.rested h
  | relay t hrelay => exact hrelay.rested h
  | serve t hserve => cases hserve <;> exact ⟨h.unbegun, h.draining, h.done⟩
  | metrics t hmetrics => cases hmetrics <;> exact ⟨h.unbegun, h.draining, h.done⟩
  | _ => exact ⟨h.unbegun, h.draining, h.done⟩

/-- What holds of every run of `RunServer`. -/
structure Sound (net : Network) (cfg : Cli.ServerConfig) (s : ServerRun) : Prop where
  opened : Opened net cfg s
  listens : Listens net cfg s
  secured : Secured cfg s
  metrics : MetricsServed net cfg s
  announced : Announced s
  scheduled : Scheduled (shutdownTimeout cfg) s
  forced : Forced s
  concluded : Concluded s
  rested : Rested s

/-- `Serve` does not return nil before the shutdown. -/
theorem Sound.errCh_ne_nil (h : Sound net cfg s) (hpc : s.pc = .selecting) :
    s.errCh ≠ some none := by
  intro herr
  have hat := (h.announced.quits (by simp [Quits, herr])).shutdownAt
  have hscheduled := h.scheduled
  simp only [Scheduled, hpc] at hscheduled
  exact hat hscheduled

theorem Sound.step {a : ServerAct} (h : Sound net cfg s) (hstep : s.step net cfg a = some t) :
    Sound net cfg t := by
  have hmove := move_of_step hstep
  exact ⟨hmove.opened h.opened, hmove.listens h.listens, hmove.secured h.secured,
    hmove.metricsServed h.metrics, hmove.announced h.announced,
    hmove.scheduled h.announced.quits h.scheduled, hmove.forced h.forced,
    hmove.concluded h.errCh_ne_nil h.concluded, hmove.rested h.rested⟩

theorem sound_init : Sound net cfg {} where
  opened := .inl ⟨.inl rfl, rfl, rfl⟩
  listens := ⟨fun _ hb ↦ by contradiction, fun _ ↦ rfl⟩
  secured := by simp [Secured]
  metrics := ⟨by simp, by simp, by simp⟩
  announced := ⟨fun hpc ↦ by contradiction, by simp [Quits, ServerPc.leaving]⟩
  scheduled := rfl
  forced := fun hpc ↦ by contradiction
  concluded := ⟨fun hpast ↦ by contradiction, by simp⟩
  rested := ⟨fun c _ ↦ by cases c <;> rfl, by simp, by simp⟩

theorem sound_of_reachable (hs : (machine net cfg).Reachable s) : Sound net cfg s :=
  Machine.invariant sound_init (fun _ _ _ _ h hstep ↦ h.step hstep) hs

/-- The checks leave cleartext gRPC without consent and pprof to loopback addresses. -/
theorem loopback_of_serverCheck (h : serverCheck net cfg = none) :
    (cfg.h2c = true → cfg.allowPublicH2C = false → isLoopbackListen net cfg.listen = true) ∧
    (cfg.pprof = true → isLoopbackListen net cfg.metricsListen = true) := by
  simp only [serverCheck] at h
  split_ifs at h with hh2c htls hpprof
  refine ⟨fun hclear hpublic ↦ ?_, fun hon ↦ ?_⟩
  · simpa [hclear, hpublic] using hh2c
  · simp only [hon, Bool.true_and, Bool.or_eq_true, not_or, Bool.not_eq_true'] at hpprof
    simpa using hpprof.2

/-- In every run of the relay's server, gRPC is served with TLS, or by consent, or on a loopback
address only, and a metrics server with pprof has its socket on a loopback address. -/
theorem relay_exposes_only_loopback (hlocal : net.LocalhostIsLoopback)
    (hs : (machine net cfg).Reachable s) :
    (s.served = true → ∀ b, s.lis = some b →
      s.tls = true ∨ cfg.allowPublicH2C = true ∨ b.isLoopback = true) ∧
    (s.pprof = true → ∀ b, s.metrics = .bound b ∨ s.metrics = .serving b →
      b.isLoopback = true) := by
  have h := sound_of_reachable hs
  refine ⟨fun hserved b hb ↦ ?_, fun hpprof b hb ↦ ?_⟩
  · have hcheck : serverCheck net cfg = none := by
      rcases h.opened with ⟨-, hlis, -⟩ | hcheck
      · simp [hlis] at hb
      · exact hcheck
    cases hh2c : cfg.h2c with
    | false =>
      left
      simpa [hh2c] using h.secured (.inr (.inr (.inr hserved)))
    | true =>
      right
      cases hpublic : cfg.allowPublicH2C with
      | true => exact .inl rfl
      | false =>
        have hnames := (loopback_of_serverCheck hcheck).1 hh2c hpublic
        exact .inr (Network.isLoopback_of_namesLoopback hlocal hnames (h.listens.addr b hb))
  · have hcheck : serverCheck net cfg = none := by
      rcases h.opened with ⟨-, -, habsent⟩ | hcheck
      · simp [habsent] at hb
      · exact hcheck
    have hnames := (loopback_of_serverCheck hcheck).2 (h.metrics.pprof hpprof)
    exact Network.isLoopback_of_namesLoopback hlocal hnames (h.metrics.addr b hb)

/-- How far `RunServer` is from its return, in steps and units of time. -/
def rank (timeout : ℕ) (s : ServerRun) : ℕ :=
  match s.pc with
  | .returned _ => 0
  | .closing _ => 1
  | .forcing => if s.serve = .running then 3 else 2
  | .draining deadline => 4 + (deadline - s.now)
  | .stopping => 5 + timeout
  | .waitMetrics _ => 6 + timeout
  | .closingMetrics => 7 + timeout
  | .unhealthy => 8 + timeout
  | .selecting => if s.ctxDone then 9 + timeout else 10 + timeout
  | .readying => 11 + timeout
  | .spawning => 12 + timeout
  | .starting => 13 + timeout
  | .loading => 14 + timeout
  | .listening => 15 + timeout
  | .checking => 16 + timeout

/-- A draining server gets on: the drain is over, its time is, or time passes. -/
theorem exists_step_of_draining {deadline : ℕ} (hpc : s.pc = .draining deadline) :
    ∃ a t, (∀ b, a ≠ .relay b) ∧ s.step net cfg a = some t ∧
      t.rank (shutdownTimeout cfg) < s.rank (shutdownTimeout cfg) := by
  by_cases hdone : s.graceful = .done
  · refine ⟨.main .takeDone, { s with pc := .closing none }, by simp, ?_, ?_⟩
    · simp [step, main, hpc, hdone]
    · simp only [rank, hpc]
      omega
  · by_cases hnow : deadline ≤ s.now
    · refine ⟨.main .timeout, { s.fireQuit with pc := .forcing }, by simp, ?_, ?_⟩
      · simp [step, main, hpc, hnow]
      · simp only [rank, hpc]
        split_ifs <;> omega
    · refine ⟨.tick, { s with now := s.now + 1 }, by simp, ?_, ?_⟩
      · have hlt : s.now < deadline := Nat.lt_of_not_le hnow
        simp [step, idles, hpc, hdone, hlt]
      · simp only [rank, hpc]
        omega

/-- `Stop` waits for the accept loop only, which has been told to end. -/
theorem Sound.exists_step_of_forcing (h : Sound net cfg s) (hpc : s.pc = .forcing) :
    ∃ a t, (∀ b, a ≠ .relay b) ∧ s.step net cfg a = some t ∧
      t.rank (shutdownTimeout cfg) < s.rank (shutdownTimeout cfg) := by
  by_cases hserve : s.serve = .running
  · refine ⟨.serve .quit, { s with serve := .waiting }, by simp, ?_, by simp [rank, hpc, hserve]⟩
    simp [ServerRun.step, serveStep, hserve, h.forced hpc]
  · refine ⟨.main .stopDone, { s with pc := .closing none, goAway := true, stopped := true },
      by simp, ?_, by simp [rank, hpc, hserve]⟩
    simp [ServerRun.step, main, hpc, hserve]

theorem Sound.exists_step (h : Sound net cfg s) (hrun : ¬ ∃ result, s.pc = .returned result) :
    ∃ a t, (∀ b, a ≠ .relay b) ∧ s.step net cfg a = some t ∧
      t.rank (shutdownTimeout cfg) < s.rank (shutdownTimeout cfg) := by
  cases hpc : s.pc with
  | returned result => exact absurd ⟨result, hpc⟩ hrun
  | draining deadline => exact exists_step_of_draining hpc
  | forcing => exact h.exists_step_of_forcing hpc
  | checking =>
    refine ⟨.main .check, ?_⟩
    cases hcheck : serverCheck net cfg <;> simp [ServerRun.step, main, hpc, hcheck, rank]
  | listening => exact ⟨.main (.listen (.error .eof)), by simp [ServerRun.step, main, hpc, rank]⟩
  | loading =>
    refine ⟨.main (.load none), ?_⟩
    cases hh2c : cfg.h2c <;> simp [ServerRun.step, main, hpc, hh2c, rank]
  | starting =>
    refine ⟨.main .start, ?_⟩
    cases hempty : cfg.metricsListen.isEmpty <;> simp [ServerRun.step, main, hpc, hempty, rank]
  | spawning => exact ⟨.main .spawn, by simp [ServerRun.step, main, hpc, rank]⟩
  | readying =>
    refine ⟨.main .ready, ?_⟩
    cases hctx : s.ctxDone <;> simp [ServerRun.step, main, hpc, hctx, rank]
  | selecting =>
    cases hctx : s.ctxDone with
    | true => exact ⟨.main .takeCtx, by simp [ServerRun.step, main, hpc, hctx, rank]⟩
    | false => exact ⟨.cancel, by simp [ServerRun.step, hpc, hctx, rank]⟩
  | unhealthy => exact ⟨.main .setNotServing, by simp [ServerRun.step, main, hpc, rank]⟩
  | closingMetrics =>
    refine ⟨.main .shutdownMetrics, ?_⟩
    by_cases habsent : s.metrics = .absent <;> simp [ServerRun.step, main, hpc, habsent, rank]
  | waitMetrics deadline => exact ⟨.main .metricsDone, by simp [ServerRun.step, main, hpc, rank]⟩
  | stopping => exact ⟨.main .stop, by simp [ServerRun.step, main, hpc, rank]⟩
  | closing result => exact ⟨.main .close, by simp [ServerRun.step, main, hpc, rank]⟩

end ServerRun

section Samples

def loopback : IP := .v4 127 0 0 1

/-- A network that knows one literal and the name of the host itself. -/
def sampleNetwork : Network where
  parseIP host := if host = Utf8.literal "127.0.0.1" then some loopback else none
  lookup host := if host = Utf8.literal "localhost" then [loopback] else []
  parseIP_nil := by decide +kernel

/-- A relay behind a proxy on the same host, with pprof and a shutdown of two units. -/
def sampleServer : Cli.ServerConfig where
  listen := Utf8.literal "127.0.0.1:8443"
  tlsCert := []
  tlsKey := []
  h2c := true
  allowPublicH2C := false
  auth := ⟨[], false⟩
  reflection := false
  metricsListen := Utf8.literal "localhost:9090"
  pprof := true
  shutdownTimeout := 2
  maxAgents := 0
  maxTunnelsPerAgent := 0
  handshakeTimeout := 0

/-- The server starts and an agent registers. -/
def sampleStart : List ServerAct :=
  [.main .check, .main (.listen (.ok (.address loopback))), .main (.load none), .main .start,
    .metrics (.listen (.ok (.address loopback))), .metrics .serve, .main .spawn, .serve .start,
    .main .ready, .relay (.register 0 (.own (.call ⟨1, sampleRoute⟩))),
    .relay (.register 0 .register)]

theorem localhostIsLoopback_sampleNetwork : sampleNetwork.LocalhostIsLoopback := by
  unfold Network.LocalhostIsLoopback
  decide +kernel

namespace ServerRun

theorem relay_exposes_only_loopback_sampleStart :
    ∃ s, (machine sampleNetwork sampleServer).Reachable s ∧
      (s.served = true ∧ s.lis = some (.address loopback) ∧ s.tls = false) ∧
      (s.pprof = true ∧ s.metrics = .serving (.address loopback)) ∧
      (Bound.address loopback).isLoopback = true := by
  obtain ⟨s, hexec, ⟨hserved, hlis, htls⟩, hpprof, hmetrics⟩ := Machine.exists_of_exec
    (M := machine sampleNetwork sampleServer) (s := {}) sampleStart
    (fun s ↦ (s.served = true ∧ s.lis = some (.address loopback) ∧ s.tls = false) ∧
      s.pprof = true ∧ s.metrics = .serving (.address loopback)) (by decide +kernel)
  have hs := Machine.reaches_of_exec sampleStart hexec
  refine ⟨s, hs, ⟨hserved, hlis, htls⟩, ⟨hpprof, hmetrics⟩, ?_⟩
  exact (relay_exposes_only_loopback localhostIsLoopback_sampleNetwork hs).2 hpprof _
    (.inr hmetrics)

end ServerRun

end Samples

end RelayCat.Relay
