import RelayCat.Endpoint.Handshake

/-!
# The agent process

`RunAgent` registers the agent, receives notifications until the registration is lost, and
registers again after a pause. A notification is handled by a goroutine of its own, which takes a
place in a semaphore that all registrations of the process share. The goroutines are the agents
of the handshake model, so the process refines it: here a call of `handleAgentTunnel` starts only
for a notification that was received, and never while all places are taken.

The relay, the clients and the context are free: a registration may fail or be lost at any time.
-/

namespace RelayCat.Endpoint

open Go AccessCode Wire Automaton Noise.Handshake

/-- The configuration of `RunAgent`. -/
structure RunConfig where
  code : AccessCode.Code
  target : Bytes
  handler : Bool
  maxTunnels : ℤ

/-- The configuration of the handlers. -/
def RunConfig.agent (cfg : RunConfig) : AgentConfig := ⟨cfg.code, cfg.handler⟩

/-- The places of the semaphore. -/
def RunConfig.capacity (cfg : RunConfig) : ℕ :=
  if cfg.maxTunnels ≤ 0 then 128 else cfg.maxTunnels.toNat

/-- A second as a `time.Duration`. -/
def second : ℕ := 1000000000

/-- Where `RunAgent` is, with `registerOnce` in place of its call. -/
inductive RunPc where
  | dial
  | register
  | recv
  | acquire (incoming : RegisterAgentResponse)
  | lost (err : Err)
  | backoff
  | returned (err : Option Err)
  deriving DecidableEq

/-- What `RunAgent` waits for, with the outcome. -/
inductive RunAct where
  | dialed (err : Option Err)
  | registered (err : Option Err)
  | received (result : Except Err RegisterAgentResponse)
  | acquired
  | acquireDone
  | checked
  | timer
  | waitDone

/-- The variables of `RunAgent`: the semaphore's places in use, and whether the context is done. -/
structure Loop where
  pc : RunPc
  backoff : ℕ
  sem : ℕ
  done : Bool

/-- What the loop did that can be seen from outside; each call of `RegisterAgent` with its
outcome. -/
inductive RunEvent where
  | registered (err : Option Err)
  | received (incoming : RegisterAgentResponse)
  | started (incoming : RegisterAgentResponse)
  | waiting (duration : ℕ)

/-- `RunAgent` up to its first blocking call. -/
def runAgentStart (cfg : RunConfig) : Loop where
  pc :=
    if decide (cfg.target = []) = !cfg.handler then
      .returned (some (.new "exactly one target or connection handler is required"))
    else .dial
  backoff := second
  sem := 0
  done := false

/-- `RunAgent` and `registerOnce`, one blocking call or `select` at a time. -/
def runAgent (capacity : ℕ) (l : Loop) : RunAct → Option (Loop × Option RunEvent)
  | .dialed err =>
    match l.pc, err with
    | .dial, some err => some ({ l with pc := .returned (some err) }, none)
    | .dial, none => some ({ l with pc := .register }, none)
    | _, _ => none
  | .registered err =>
    match l.pc, err with
    | .register, some err =>
      some ({ l with pc := .lost (.errorf "registering agent" err) }, some (.registered (some err)))
    | .register, none => some ({ l with pc := .recv }, some (.registered none))
    | _, _ => none
  | .received result =>
    match l.pc, result with
    | .recv, .error err =>
      some ({ l with pc := .lost (.errorf "receiving tunnel request" err) }, none)
    | .recv, .ok incoming => some ({ l with pc := .acquire incoming }, some (.received incoming))
    | _, _ => none
  | .acquired =>
    match l.pc with
    | .acquire incoming =>
      if l.sem < capacity then
        some ({ l with pc := .recv, sem := l.sem + 1 }, some (.started incoming))
      else none
    | _ => none
  | .acquireDone =>
    match l.pc with
    | .acquire _ => if l.done then some ({ l with pc := .lost .canceled }, none) else none
    | _ => none
  | .checked =>
    match l.pc with
    | .lost _ =>
      if l.done then some ({ l with pc := .returned none }, none)
      else some ({ l with pc := .backoff }, some (.waiting l.backoff))
    | _ => none
  | .timer =>
    match l.pc with
    | .backoff =>
      some ({ l with pc := .register, backoff := min (l.backoff * 2) (30 * second) }, none)
    | _ => none
  | .waitDone =>
    match l.pc with
    | .backoff => if l.done then some ({ l with pc := .returned none }, none) else none
    | _ => none

/-- A goroutine of `registerOnce`; an ended one has given back its place. -/
inductive TunnelRun where
  | idle
  | running (incoming : RegisterAgentResponse)
  | ended (incoming : RegisterAgentResponse)

def TunnelRun.notification : TunnelRun → Option RegisterAgentResponse
  | idle => none
  | running incoming => some incoming
  | ended incoming => some incoming

def TunnelRun.isRunning : TunnelRun → Prop
  | running _ => True
  | _ => False

/-- The process with its goroutines, in surroundings where clients and the relay act as in the
handshake model. The log is the history of the loop. -/
structure Process where
  loop : Loop
  tunnels : ℕ → TunnelRun
  setup : Setup
  log : List RunEvent

def RunEvent.registered? : RunEvent → Option (Option Err)
  | registered err => some err
  | _ => none

def RunEvent.received? : RunEvent → Option RegisterAgentResponse
  | received incoming => some incoming
  | _ => none

def RunEvent.started? : RunEvent → Option RegisterAgentResponse
  | started incoming => some incoming
  | _ => none

def RunEvent.waiting? : RunEvent → Option ℕ
  | waiting duration => some duration
  | _ => none

namespace Process

/-- The calls of `RegisterAgent`, with their outcomes. -/
def registrations (s : Process) : List (Option Err) := s.log.filterMap RunEvent.registered?

/-- The notifications received, over all registrations. -/
def received (s : Process) : List RegisterAgentResponse := s.log.filterMap RunEvent.received?

/-- The notifications that a goroutine was started for. -/
def started (s : Process) : List RegisterAgentResponse := s.log.filterMap RunEvent.started?

/-- The pauses before registering again. -/
def waits (s : Process) : List ℕ := s.log.filterMap RunEvent.waiting?

end Process

inductive ProcessAct where
  | loop (act : RunAct)
  | cancel
  | tunnel (i : ℕ) (act : AgentAct)
  | release (i : ℕ)
  | client (j : ℕ) (act : ClientAct)
  | relay (message : Message)

/-- The notification that a step of `handleAgentTunnel` reads. -/
def AgentAct.reads : AgentAct → Option RegisterAgentResponse
  | incoming notification _ => some notification
  | _ => none

section Machine

variable (noise : Library) (cfg : RunConfig) (clientCfg : ℕ → ClientConfig) (known : Bytes → Bool)

/-- The calls that the process and its surroundings make. -/
def calls : Machine Setup SetupAct := setup noise (fun _ ↦ cfg.agent) clientCfg known

/-- The process after a step of the loop, with the goroutine that it starts. -/
def Process.advance (s : Process) (loop : Loop) (event : Option RunEvent) : Process where
  loop := loop
  tunnels :=
    match event with
    | some (.started incoming) => Function.update s.tunnels s.started.length (.running incoming)
    | _ => s.tunnels
  setup := s.setup
  log := s.log ++ event.toList

def agentProcess : Machine Process ProcessAct where
  init := ⟨runAgentStart cfg, fun _ ↦ .idle, ⟨fun _ ↦ .start, fun _ ↦ .start, []⟩, []⟩
  step s
    | .loop act =>
      (runAgent cfg.capacity s.loop act).map fun (loop, event) ↦ s.advance loop event
    | .cancel => some { s with loop := { s.loop with done := true } }
    | .tunnel i act =>
      match s.tunnels i with
      | .running incoming =>
        if ∀ read ∈ act.reads, read = incoming then
          ((calls noise cfg clientCfg known).step s.setup (.agent i act)).map fun setup ↦
            { s with setup := setup }
        else none
      | _ => none
    | .release i =>
      match s.tunnels i, s.setup.agents i with
      | .running incoming, .returned _ =>
        some { s with
          loop := { s.loop with sem := s.loop.sem - 1 }
          tunnels := Function.update s.tunnels i (.ended incoming) }
      | _, _ => none
    | .client j act =>
      ((calls noise cfg clientCfg known).step s.setup (.client j act)).map fun setup ↦
        { s with setup := setup }
    | .relay message =>
      ((calls noise cfg clientCfg known).step s.setup (.relay message)).map fun setup ↦
        { s with setup := setup }

end Machine

section Loop

/-- The notification that waits for a place. -/
def RunPc.waiting : RunPc → List RegisterAgentResponse
  | acquire incoming => [incoming]
  | _ => []

/-- The loop has left `registerOnce`. -/
def RunPc.isOver : RunPc → Prop
  | lost _ => True
  | returned _ => True
  | _ => False

/-- The steps of `RunAgent`. -/
inductive LoopMove (capacity : ℕ) (l : Loop) : Loop → Option RunEvent → Prop
  | dialFailed {err} : l.pc = .dial → LoopMove capacity l { l with pc := .returned (some err) } none
  | dialed : l.pc = .dial → LoopMove capacity l { l with pc := .register } none
  | registerFailed {err cause} : l.pc = .register →
      LoopMove capacity l { l with pc := .lost err } (some (.registered (some cause)))
  | registered : l.pc = .register →
      LoopMove capacity l { l with pc := .recv } (some (.registered none))
  | recvFailed {err} : l.pc = .recv → LoopMove capacity l { l with pc := .lost err } none
  | received {incoming} : l.pc = .recv →
      LoopMove capacity l { l with pc := .acquire incoming } (some (.received incoming))
  | acquired {incoming} : l.pc = .acquire incoming → l.sem < capacity →
      LoopMove capacity l { l with pc := .recv, sem := l.sem + 1 } (some (.started incoming))
  | acquireDone {incoming} : l.pc = .acquire incoming → l.done = true →
      LoopMove capacity l { l with pc := .lost .canceled } none
  | finished {err} : l.pc = .lost err → l.done = true →
      LoopMove capacity l { l with pc := .returned none } none
  | pause {err} : l.pc = .lost err → l.done = false →
      LoopMove capacity l { l with pc := .backoff } (some (.waiting l.backoff))
  | timer : l.pc = .backoff →
      LoopMove capacity l
        { l with pc := .register, backoff := min (l.backoff * 2) (30 * second) } none
  | waitDone : l.pc = .backoff → l.done = true →
      LoopMove capacity l { l with pc := .returned none } none

theorem loopMove_of_runAgent {capacity : ℕ} {l l' : Loop} {act : RunAct} {event : Option RunEvent}
    (h : runAgent capacity l act = some (l', event)) : LoopMove capacity l l' event := by
  cases act with
  | dialed err =>
    simp only [runAgent] at h
    split at h
    · cases h
      exact .dialFailed (by assumption)
    · cases h
      exact .dialed (by assumption)
    · cases h
  | registered err =>
    simp only [runAgent] at h
    split at h
    · cases h
      exact .registerFailed (by assumption)
    · cases h
      exact .registered (by assumption)
    · cases h
  | received result =>
    simp only [runAgent] at h
    split at h
    · cases h
      exact .recvFailed (by assumption)
    · cases h
      exact .received (by assumption)
    · cases h
  | acquired =>
    simp only [runAgent] at h
    split at h
    · split_ifs at h with hsem
      cases h
      exact .acquired (by assumption) hsem
    · cases h
  | acquireDone =>
    simp only [runAgent] at h
    split at h
    · split_ifs at h with hdone
      cases h
      exact .acquireDone (by assumption) hdone
    · cases h
  | checked =>
    simp only [runAgent] at h
    split at h
    · split_ifs at h with hdone
      · cases h
        exact .finished (by assumption) hdone
      · cases h
        exact .pause (by assumption) (Bool.eq_false_iff.mpr hdone)
    · cases h
  | timer =>
    simp only [runAgent] at h
    split at h
    · cases h
      exact .timer (by assumption)
    · cases h
  | waitDone =>
    simp only [runAgent] at h
    split at h
    · split_ifs at h with hdone
      cases h
      exact .waitDone (by assumption) hdone
    · cases h

end Loop

section Process

variable {noise : Library} {cfg : RunConfig} {clientCfg : ℕ → ClientConfig} {known : Bytes → Bool}
  {s t : Process}

/-- The steps of the process. -/
inductive ProcessMove (noise : Library) (cfg : RunConfig) (clientCfg : ℕ → ClientConfig)
    (known : Bytes → Bool) (s : Process) : Process → Prop
  | loop {l event} : LoopMove cfg.capacity s.loop l event →
      ProcessMove noise cfg clientCfg known s (s.advance l event)
  | cancel : ProcessMove noise cfg clientCfg known s
      { s with loop := { s.loop with done := true } }
  | tunnel {i incoming act pc events} : s.tunnels i = .running incoming →
      (∀ read ∈ act.reads, read = incoming) →
      handleAgentTunnel noise cfg.agent i s.setup.trace (s.setup.agents i) act =
        some (pc, events) →
      ProcessMove noise cfg clientCfg known s
        { s with setup := { s.setup with
          agents := Function.update s.setup.agents i pc
          trace := events ++ s.setup.trace } }
  | release {i incoming} : s.tunnels i = .running incoming →
      ProcessMove noise cfg clientCfg known s
        { s with
          loop := { s.loop with sem := s.loop.sem - 1 }
          tunnels := Function.update s.tunnels i (.ended incoming) }
  | others {clients events} : (∀ i incoming, .openTarget i incoming ∉ events) →
      ProcessMove noise cfg clientCfg known s
        { s with setup := { s.setup with
          clients := clients
          trace := events ++ s.setup.trace } }

theorem openTarget_notMem_of_handleClientTunnel {ccfg : ClientConfig} {n : ℕ}
    {trace events : List SetupEvent} {pc pc' : ClientPc} {act : ClientAct}
    (h : handleClientTunnel noise ccfg n trace pc act = some (pc', events)) (i : ℕ)
    (incoming : RegisterAgentResponse) : .openTarget i incoming ∉ events := by
  unfold handleClientTunnel at h
  split at h
  case h_6 =>
    split at h
    · split_ifs at h
      · cases h
        exact List.not_mem_nil
      · split at h
        · cases h
          exact List.not_mem_nil
        · cases h
          simp
    · cases h
      exact List.not_mem_nil
  case h_10 =>
    split at h
    · split at h
      · cases h
        exact List.not_mem_nil
      · cases h
        simp
    · cases h
      exact List.not_mem_nil
  case h_12 => cases h
  all_goals
    cases h
    simp

theorem processMove_of_step {act : ProcessAct}
    (h : (agentProcess noise cfg clientCfg known).step s act = some t) :
    ProcessMove noise cfg clientCfg known s t := by
  cases act with
  | loop act =>
    obtain ⟨⟨l, event⟩, hloop, rfl⟩ := Option.map_eq_some_iff.mp h
    exact .loop (loopMove_of_runAgent hloop)
  | cancel =>
    cases h
    exact .cancel
  | tunnel i act =>
    simp only [agentProcess] at h
    split at h
    · split_ifs at h with hreads
      obtain ⟨setup', hsetup, rfl⟩ := Option.map_eq_some_iff.mp h
      obtain ⟨⟨pc, events⟩, htunnel, rfl⟩ := Option.map_eq_some_iff.mp hsetup
      exact .tunnel (by assumption) hreads htunnel
    · cases h
  | release i =>
    simp only [agentProcess] at h
    split at h
    · cases h
      exact .release (by assumption)
    · cases h
  | client j act =>
    obtain ⟨setup', hsetup, rfl⟩ := Option.map_eq_some_iff.mp h
    obtain ⟨⟨pc, events⟩, hclient, rfl⟩ := Option.map_eq_some_iff.mp hsetup
    exact .others (openTarget_notMem_of_handleClientTunnel hclient)
  | relay message =>
    obtain ⟨setup', hsetup, rfl⟩ := Option.map_eq_some_iff.mp h
    obtain ⟨-, hsome⟩ := Option.ite_none_right_eq_some.mp hsetup
    have hevents (i : ℕ) (incoming : RegisterAgentResponse) :
        .openTarget i incoming ∉ [SetupEvent.relayWrote message] := by simp
    cases hsome
    exact .others hevents

end Process

end RelayCat.Endpoint
