import RelayCat.Endpoint.Client

/-!
# The temporary tunnel of `relaycat ssh`

The body of `newSSHCommand` runs the client in a goroutine, waits until it listens, runs OpenSSH
against it, cancels the context of the client and waits for its end. The goroutine reports through
two channels with room for one value: `ready`, with the address of the listener, and `clientDone`,
with what `RunClient` returned. The context of the client is also done when that of the command is.

The client is the process of the endpoint, with all its connections. OpenSSH is outside: it ends
when and as it likes.
-/

namespace RelayCat.Cli

open Go Automaton Noise.Handshake
open Endpoint (AgentConfig Forwarder ForwarderAct clientProcess)

/-- What `ssh.Run` reports of a process that was started. -/
inductive SSHExit where
  | success
  | status (code : ℤ) (err : Err)
  | failed (err : Err)
  deriving DecidableEq

/-- What `runOpenSSH` returns then. -/
def SSHExit.err : SSHExit → Option Err
  | success => none
  | status code err => some (.errorf ("ssh exited with status " ++ toString code) err)
  | failed err => some (.errorf "running OpenSSH" err)

inductive OpenSSH where
  | idle
  | running
  | ended (exit : SSHExit)
  deriving DecidableEq

/-- Where the body of the command is. -/
inductive CommandPc where
  | select
  | startOpenSSH
  | runOpenSSH
  | cancel (sshErr : Option Err)
  | recvClientDone (sshErr : Option Err)
  | deferred (err : Option Err)
  | returned (err : Option Err)
  deriving DecidableEq

/-- The command no longer reads from its channels. -/
def CommandPc.over : CommandPc → Bool
  | deferred _ => true
  | returned _ => true
  | _ => false

/-- The variables of the command; `sent` if the goroutine has sent on `clientDone`. -/
structure TemporaryTunnel where
  pc : CommandPc
  openSSH : OpenSSH
  forwarder : Forwarder
  ready : ℕ
  clientDone : Option (Option Err)
  sent : Bool
  ctxDone : Bool

inductive CommandAct where
  | ready
  | clientDone
  | ctxDone
  | argsFailed (err : Err)
  | startFailed (err : Err)
  | started
  | exited (exit : SSHExit)
  | cancelled
  | received
  | deferredCancel

inductive TunnelAct where
  | command (act : CommandAct)
  | client (act : ForwarderAct)
  | send
  | cancelContext

/-- The error for a client that ended before it listened; `%w` of no error is a text. -/
def startErr : Option Err → Err
  | some err => .errorf "starting temporary tunnel" err
  | none => .new "starting temporary tunnel: %!w(<nil>)"

/-- What the command returns when both OpenSSH and the client have ended. -/
def closeErr (sshErr clientErr : Option Err) : Option Err :=
  match sshErr, clientErr with
  | some err, _ => some err
  | none, some err =>
    if err.is .canceled then none else some (.errorf "closing temporary tunnel" err)
  | none, none => none

namespace TemporaryTunnel

/-- The context of the client is done. -/
def cancelClient (s : TemporaryTunnel) : TemporaryTunnel :=
  { s with forwarder.loop.done := true }

/-- The body of the command, one blocking or deferred call at a time. -/
def command (s : TemporaryTunnel) : CommandAct → Option TemporaryTunnel
  | .ready =>
    match s.pc with
    | .select =>
      if s.ready = 0 then none else some { s with pc := .startOpenSSH, ready := s.ready - 1 }
    | _ => none
  | .clientDone =>
    match s.pc, s.clientDone with
    | .select, some err => some { s with pc := .deferred (some (startErr err)), clientDone := none }
    | _, _ => none
  | .ctxDone =>
    match s.pc with
    | .select => if s.ctxDone then some { s with pc := .deferred (some .canceled) } else none
    | _ => none
  | .argsFailed err =>
    match s.pc with
    | .startOpenSSH =>
      some { s with pc := .cancel (some (.errorf "reading temporary tunnel address" err)) }
    | _ => none
  | .startFailed err =>
    match s.pc with
    | .startOpenSSH => some { s with pc := .cancel (SSHExit.failed err).err }
    | _ => none
  | .started =>
    match s.pc with
    | .startOpenSSH => some { s with pc := .runOpenSSH, openSSH := .running }
    | _ => none
  | .exited exit =>
    match s.pc with
    | .runOpenSSH => some { s with pc := .cancel exit.err, openSSH := .ended exit }
    | _ => none
  | .cancelled =>
    match s.pc with
    | .cancel sshErr => some { s.cancelClient with pc := .recvClientDone sshErr }
    | _ => none
  | .received =>
    match s.pc, s.clientDone with
    | .recvClientDone sshErr, some clientErr =>
      some { s with pc := .deferred (closeErr sshErr clientErr), clientDone := none }
    | _, _ => none
  | .deferredCancel =>
    match s.pc with
    | .deferred err => some { s.cancelClient with pc := .returned err }
    | _ => none

/-- The command after a step of the client, whose call of `ready` sends on the channel. -/
def advance (s : TemporaryTunnel) (forwarder : Forwarder) : Option TemporaryTunnel :=
  let ready := s.ready + (forwarder.loop.announced - s.forwarder.loop.announced)
  if ready ≤ 1 then some { s with forwarder := forwarder, ready := ready } else none

section Machine

variable (noise : Library) (agentCfg : ℕ → AgentConfig) (cfg : Endpoint.ClientConfig)
  (known : Bytes → Bool)

/-- The client that the command runs. -/
abbrev client : Machine Forwarder ForwarderAct := clientProcess noise agentCfg cfg known false

def machine : Machine TemporaryTunnel TunnelAct where
  init := ⟨.select, .idle, (client noise agentCfg cfg known).init, 0, none, false, false⟩
  step s
    | .command act => s.command act
    | .client act =>
      match act with
      | .cancel => none
      | act => ((client noise agentCfg cfg known).step s.forwarder act).bind s.advance
    | .send =>
      match s.forwarder.loop.pc with
      | .returned err =>
        if s.sent = false ∧ s.clientDone = none then
          some { s with clientDone := some err, sent := true }
        else none
      | _ => none
    | .cancelContext => some { s.cancelClient with ctxDone := true }

end Machine

section Moves

variable {noise : Library} {agentCfg : ℕ → AgentConfig} {cfg : Endpoint.ClientConfig}
  {known : Bytes → Bool} {s t : TemporaryTunnel}

/-- The steps of the command with its surroundings. -/
inductive Move (noise : Library) (agentCfg : ℕ → AgentConfig) (cfg : Endpoint.ClientConfig)
    (known : Bytes → Bool) (s : TemporaryTunnel) : TemporaryTunnel → Prop
  | ready : s.pc = .select → s.ready ≠ 0 →
      Move noise agentCfg cfg known s { s with pc := .startOpenSSH, ready := s.ready - 1 }
  | clientDone (err : Option Err) : s.pc = .select → s.clientDone = some err →
      Move noise agentCfg cfg known s
        { s with pc := .deferred (some (startErr err)), clientDone := none }
  | ctxDone : s.pc = .select →
      Move noise agentCfg cfg known s { s with pc := .deferred (some .canceled) }
  | notStarted (err : Err) : s.pc = .startOpenSSH →
      Move noise agentCfg cfg known s { s with pc := .cancel (some err) }
  | started : s.pc = .startOpenSSH →
      Move noise agentCfg cfg known s { s with pc := .runOpenSSH, openSSH := .running }
  | exited (exit : SSHExit) : s.pc = .runOpenSSH →
      Move noise agentCfg cfg known s { s with pc := .cancel exit.err, openSSH := .ended exit }
  | cancelled (sshErr : Option Err) : s.pc = .cancel sshErr →
      Move noise agentCfg cfg known s { s.cancelClient with pc := .recvClientDone sshErr }
  | received (sshErr clientErr : Option Err) : s.pc = .recvClientDone sshErr →
      s.clientDone = some clientErr →
      Move noise agentCfg cfg known s
        { s with pc := .deferred (closeErr sshErr clientErr), clientDone := none }
  | deferredCancel (err : Option Err) : s.pc = .deferred err →
      Move noise agentCfg cfg known s { s.cancelClient with pc := .returned err }
  | client (act : ForwarderAct) (f : Forwarder) :
      (client noise agentCfg cfg known).step s.forwarder act = some f →
      f.loop.done = s.forwarder.loop.done →
      s.ready + (f.loop.announced - s.forwarder.loop.announced) ≤ 1 →
      Move noise agentCfg cfg known s
        { s with
          forwarder := f
          ready := s.ready + (f.loop.announced - s.forwarder.loop.announced) }
  | send (err : Option Err) : s.forwarder.loop.pc = .returned err → s.sent = false →
      Move noise agentCfg cfg known s { s with clientDone := some err, sent := true }
  | cancelContext : Move noise agentCfg cfg known s { s.cancelClient with ctxDone := true }

theorem move_of_command {act : CommandAct} (h : s.command act = some t) :
    Move noise agentCfg cfg known s t := by
  cases act with
  | ready =>
    simp only [command] at h
    split at h
    · split_ifs at h with hready
      cases h
      exact .ready ‹_› hready
    · cases h
  | clientDone =>
    simp only [command] at h
    split at h
    · cases h
      exact .clientDone _ ‹_› ‹_›
    · cases h
  | ctxDone =>
    simp only [command] at h
    split at h
    · split_ifs at h
      cases h
      exact .ctxDone ‹_›
    · cases h
  | argsFailed err =>
    simp only [command] at h
    split at h
    · cases h
      exact .notStarted _ ‹_›
    · cases h
  | startFailed err =>
    simp only [command] at h
    split at h
    · cases h
      exact .notStarted _ ‹_›
    · cases h
  | started =>
    simp only [command] at h
    split at h
    · cases h
      exact .started ‹_›
    · cases h
  | exited exit =>
    simp only [command] at h
    split at h
    · cases h
      exact .exited exit ‹_›
    · cases h
  | cancelled =>
    simp only [command] at h
    split at h
    · cases h
      exact .cancelled _ ‹_›
    · cases h
  | received =>
    simp only [command] at h
    split at h
    · cases h
      exact .received _ _ ‹_› ‹_›
    · cases h
  | deferredCancel =>
    simp only [command] at h
    split at h
    · cases h
      exact .deferredCancel _ ‹_›
    · cases h

theorem move_of_step {act : TunnelAct}
    (h : (machine noise agentCfg cfg known).step s act = some t) :
    Move noise agentCfg cfg known s t := by
  cases act with
  | command act => exact move_of_command h
  | client act =>
    simp only [machine] at h
    split at h
    · cases h
    · rename_i hact
      obtain ⟨f, hf, h⟩ := Option.bind_eq_some_iff.mp h
      obtain ⟨hroom, h⟩ := Option.ite_none_right_eq_some.mp h
      cases h
      exact .client act f hf (Endpoint.done_of_step hact hf) hroom
  | send =>
    simp only [machine] at h
    split at h
    · split_ifs at h with hsent
      cases h
      exact .send _ ‹_› hsent.1
    · cases h
  | cancelContext =>
    cases h
    exact .cancelContext

end Moves

section Invariant

variable {noise : Library} {agentCfg : ℕ → AgentConfig} {cfg : Endpoint.ClientConfig}
  {known : Bytes → Bool} {s t : TemporaryTunnel}

/-- What `runOpenSSH` returned belongs to the end of OpenSSH, or says why it was not run. -/
def Explains (s : TemporaryTunnel) (sshErr : Option Err) : Prop :=
  s.openSSH = .idle ∧ sshErr ≠ none ∨ ∃ exit, s.openSSH = .ended exit ∧ sshErr = exit.err

/-- What the command returns says how OpenSSH and the client ended, or that OpenSSH was not
run. -/
def Concludes (s : TemporaryTunnel) (err : Option Err) : Prop :=
  s.openSSH = .idle ∧ err ≠ none ∨
    ∃ exit clientErr, s.openSSH = .ended exit ∧ s.forwarder.loop.pc = .returned clientErr ∧
      err = closeErr exit.err clientErr

/-- What holds at each place of the command. -/
def At (s : TemporaryTunnel) : CommandPc → Prop
  | .select => s.openSSH = .idle ∧ s.forwarder.loop.done = s.ctxDone
  | .startOpenSSH =>
    s.openSSH = .idle ∧ s.forwarder.loop.done = s.ctxDone ∧ s.forwarder.loop.announced ≠ 0
  | .runOpenSSH =>
    s.openSSH = .running ∧ s.forwarder.loop.done = s.ctxDone ∧ s.forwarder.loop.announced ≠ 0
  | .cancel sshErr => s.Explains sshErr
  | .recvClientDone sshErr => s.Explains sshErr ∧ s.forwarder.loop.done = true
  | .deferred err => s.Concludes err
  | .returned err => s.Concludes err ∧ s.forwarder.loop.done = true

structure Sound (noise : Library) (agentCfg : ℕ → AgentConfig) (cfg : Endpoint.ClientConfig)
    (known : Bytes → Bool) (s : TemporaryTunnel) : Prop where
  client : (client noise agentCfg cfg known).Reachable s.forwarder
  ready : s.ready ≤ s.forwarder.loop.announced
  room : s.ready ≤ 1
  place : s.At s.pc
  unsent : s.sent = false → s.clientDone = none
  sent : s.sent = true → ∃ err, s.forwarder.loop.pc = .returned err ∧
    (s.clientDone = some err ∨ s.clientDone = none ∧ s.pc.over = true)

/-- The value in `clientDone` is what `RunClient` returned. -/
theorem Sound.returned_of_clientDone (h : s.Sound noise agentCfg cfg known) {err : Option Err}
    (hdone : s.clientDone = some err) : s.forwarder.loop.pc = .returned err := by
  have hsent : s.sent = true := by
    by_contra hnot
    have hnone := h.unsent (Bool.eq_false_iff.mpr hnot)
    rw [hdone] at hnone
    cases hnone
  obtain ⟨err', hpc, hvalue | ⟨hvalue, -⟩⟩ := h.sent hsent
  · rw [hdone] at hvalue
    cases hvalue
    exact hpc
  · rw [hdone] at hvalue
    cases hvalue

theorem Explains.concludes {sshErr clientErr : Option Err} (h : s.Explains sshErr)
    (hpc : s.forwarder.loop.pc = .returned clientErr) :
    s.Concludes (closeErr sshErr clientErr) := by
  rcases h with ⟨hidle, hne⟩ | ⟨exit, hended, rfl⟩
  · obtain ⟨err, rfl⟩ := Option.ne_none_iff_exists'.mp hne
    exact Or.inl ⟨hidle, by simp [closeErr]⟩
  · exact Or.inr ⟨exit, clientErr, hended, hpc, rfl⟩

/-- A step of the client changes nothing at the place of the command. -/
theorem At.client {pc : CommandPc} (h : s.At pc) {f : Forwarder}
    (hmove : Endpoint.ForwarderMove false s.forwarder f)
    (hdone : f.loop.done = s.forwarder.loop.done) (ready : ℕ) :
    ({ s with forwarder := f, ready := ready } : TemporaryTunnel).At pc := by
  have hannounced := hmove.announced
  have hconcludes {err : Option Err} (h : s.Concludes err) :
      ({ s with forwarder := f, ready := ready } : TemporaryTunnel).Concludes err := by
    rcases h with hidle | ⟨exit, clientErr, hended, hpc, rfl⟩
    · exact Or.inl hidle
    · exact Or.inr ⟨exit, clientErr, hended, hmove.returned hpc, rfl⟩
  cases pc with
  | select => exact ⟨h.1, hdone.trans h.2⟩
  | startOpenSSH => exact ⟨h.1, hdone.trans h.2.1, by have := h.2.2; simp only; omega⟩
  | runOpenSSH => exact ⟨h.1, hdone.trans h.2.1, by have := h.2.2; simp only; omega⟩
  | cancel sshErr => exact h
  | recvClientDone sshErr => exact ⟨h.1, hdone.trans h.2⟩
  | deferred err => exact hconcludes h
  | returned err => exact ⟨hconcludes h.1, hdone.trans h.2⟩

theorem At.cancelContext {pc : CommandPc} (h : s.At pc) :
    ({ s.cancelClient with ctxDone := true } : TemporaryTunnel).At pc := by
  cases pc with
  | select => exact ⟨h.1, rfl⟩
  | startOpenSSH => exact ⟨h.1, rfl, h.2.2⟩
  | runOpenSSH => exact ⟨h.1, rfl, h.2.2⟩
  | cancel sshErr => exact h
  | recvClientDone sshErr => exact ⟨h.1, rfl⟩
  | deferred err => exact h
  | returned err => exact ⟨h.1, rfl⟩

theorem Sound.move (h : s.Sound noise agentCfg cfg known)
    (hmove : Move noise agentCfg cfg known s t) : t.Sound noise agentCfg cfg known := by
  obtain ⟨hclient, hready, hroom, hplace, hunsent, hsent⟩ := id h
  have hcancelled : (TemporaryTunnel.client noise agentCfg cfg known).Reachable
      s.cancelClient.forwarder := hclient.tail (a := .cancel) rfl
  cases hmove with
  | ready hpc hne =>
    rw [hpc] at hplace hsent
    refine ⟨hclient, by simp only; omega, by simp only; omega,
      ⟨hplace.1, hplace.2, by simp only; omega⟩, hunsent, ?_⟩
    simpa [CommandPc.over] using hsent
  | clientDone err hpc hdone =>
    rw [hpc] at hplace
    exact ⟨hclient, hready, hroom, Or.inl ⟨hplace.1, by simp⟩, fun _ ↦ rfl,
      fun _ ↦ ⟨err, h.returned_of_clientDone hdone, Or.inr ⟨rfl, rfl⟩⟩⟩
  | ctxDone hpc =>
    rw [hpc] at hplace hsent
    refine ⟨hclient, hready, hroom, Or.inl ⟨hplace.1, by simp⟩, hunsent, fun hyes ↦ ?_⟩
    obtain ⟨err, hreturned, hvalue⟩ := hsent hyes
    exact ⟨err, hreturned, hvalue.imp_right fun hnone ↦ ⟨hnone.1, rfl⟩⟩
  | notStarted err hpc =>
    rw [hpc] at hplace hsent
    exact ⟨hclient, hready, hroom, Or.inl ⟨hplace.1, by simp⟩, hunsent, hsent⟩
  | started hpc =>
    rw [hpc] at hplace hsent
    exact ⟨hclient, hready, hroom, ⟨rfl, hplace.2⟩, hunsent, hsent⟩
  | exited exit hpc =>
    rw [hpc] at hsent
    exact ⟨hclient, hready, hroom, Or.inr ⟨exit, rfl, rfl⟩, hunsent, hsent⟩
  | cancelled sshErr hpc =>
    rw [hpc] at hplace hsent
    exact ⟨hcancelled, hready, hroom, ⟨hplace, rfl⟩, hunsent, hsent⟩
  | received sshErr clientErr hpc hdone =>
    rw [hpc] at hplace
    have hreturned := h.returned_of_clientDone hdone
    exact ⟨hclient, hready, hroom, hplace.1.concludes hreturned, fun _ ↦ rfl,
      fun _ ↦ ⟨clientErr, hreturned, Or.inr ⟨rfl, rfl⟩⟩⟩
  | deferredCancel err hpc =>
    rw [hpc] at hplace hsent
    exact ⟨hcancelled, hready, hroom, ⟨hplace, rfl⟩, hunsent, hsent⟩
  | client act f hf hdone hroom' =>
    have hmove := Endpoint.forwarderMove_of_step hf
    have hannounced := hmove.announced
    refine ⟨hclient.tail hf, by simp only; omega, hroom', hplace.client hmove hdone _, hunsent,
      fun hyes ↦ ?_⟩
    obtain ⟨err, hpc, hvalue⟩ := hsent hyes
    exact ⟨err, hmove.returned hpc, hvalue⟩
  | send err hpc hno =>
    exact ⟨hclient, hready, hroom, hplace, fun hnot ↦ absurd hnot (by simp),
      fun _ ↦ ⟨err, hpc, Or.inl rfl⟩⟩
  | cancelContext => exact ⟨hcancelled, hready, hroom, hplace.cancelContext, hunsent, hsent⟩

theorem sound_of_reachable (hs : (machine noise agentCfg cfg known).Reachable s) :
    s.Sound noise agentCfg cfg known :=
  Machine.invariant ⟨Machine.Reachable.init, le_rfl, Nat.zero_le 1, ⟨rfl, rfl⟩, fun _ ↦ rfl, nofun⟩
    (fun _ _ _ _ h hstep ↦ h.move (move_of_step hstep)) hs

/-- OpenSSH runs only after the listener was there and `ready` was called, and the listener is
there until the context of the command is done or the client fails. A command that has run
OpenSSH returns after the client, which leaves no connection open, and it returns an error unless
OpenSSH and the client succeeded; one that returns early has an error and has told the client to
stop. The goroutine never waits to send. -/
theorem openSSH_within_tunnel (hs : (machine noise agentCfg cfg known).Reachable s) :
    (s.openSSH = .running → s.forwarder.loop.announced = 1 ∧ 3 ≤ s.forwarder.loop.pc.stage ∧
      (s.forwarder.loop.listening = true ∨ s.ctxDone = true ∨
        4 ≤ s.forwarder.loop.pc.stage ∧ ¬ s.forwarder.loop.pc.succeeds)) ∧
    (∀ err, s.pc = .returned err → s.forwarder.loop.done = true ∧
      (s.openSSH = .idle ∧ err ≠ none ∨
        ∃ exit clientErr, s.openSSH = .ended exit ∧ err = closeErr exit.err clientErr ∧
          s.forwarder.loop.pc = .returned clientErr ∧ s.forwarder.loop.listening = false ∧
          s.forwarder.loop.connected = false ∧
          ∀ j < s.forwarder.loop.accepted, s.forwarder.handlers j = .closed)) ∧
    (s.forwarder.loop.pc = .listen → s.ready = 0) ∧ (s.sent = false → s.clientDone = none) := by
  have h := sound_of_reachable hs
  have hplace := h.place
  refine ⟨fun hrunning ↦ ?_, fun err hpc ↦ ?_, fun hpc ↦ ?_, h.unsent⟩
  · have hpc : s.pc = .runOpenSSH := by
      cases hpc : s.pc <;> rw [hpc] at hplace <;> simp_all [At, Explains, Concludes]
    rw [hpc] at hplace
    obtain ⟨-, hdone, hannounced⟩ := hplace
    rw [← hdone]
    exact ⟨le_antisymm (Endpoint.announced_le_of_reachable h.client)
      (Nat.one_le_iff_ne_zero.mpr hannounced),
      (Endpoint.at_of_reachable h.client).announced hannounced⟩
  · rw [hpc] at hplace
    refine ⟨hplace.2, hplace.1.imp_right ?_⟩
    rintro ⟨exit, clientErr, hended, hreturned, rfl⟩
    exact ⟨exit, clientErr, hended, rfl, hreturned, Endpoint.closed_of_returned h.client hreturned⟩
  · have hclient := Endpoint.at_of_reachable h.client
    rw [hpc] at hclient
    exact Nat.le_zero.mp (h.ready.trans_eq hclient.1.2.1)

end Invariant

section Progress

variable (noise : Library) (agentCfg : ℕ → AgentConfig) (cfg : Endpoint.ClientConfig)
  (known : Bytes → Bool) {s : TemporaryTunnel}

/-- The client moves on while the command stays where it is. -/
structure Follows (s : TemporaryTunnel) (f : Forwarder) (t : TemporaryTunnel) : Prop where
  forwarder : t.forwarder = f
  pc : t.pc = s.pc
  clientDone : t.clientDone = s.clientDone
  sent : t.sent = s.sent
  done : f.loop.done = true

/-- A step of the client is one of the command: the channel has room when `ready` is called. -/
theorem client_step (hs : (machine noise agentCfg cfg known).Reachable s) {act : ForwarderAct}
    {f : Forwarder} (hact : act ≠ .cancel)
    (hstep : (client noise agentCfg cfg known).step s.forwarder act = some f) :
    (machine noise agentCfg cfg known).step s (.client act) =
      some { s with
        forwarder := f
        ready := s.ready + (f.loop.announced - s.forwarder.loop.announced) } := by
  have h := sound_of_reachable hs
  have hroom : s.ready + (f.loop.announced - s.forwarder.loop.announced) ≤ 1 := by
    have hle := h.room
    rcases (Endpoint.forwarderMove_of_step hstep).announced with hsame | ⟨hpc, hnext⟩
    · omega
    · have hclient := Endpoint.at_of_reachable h.client
      rw [hpc] at hclient
      have hzero := hclient.1.2.1
      have hready := h.ready
      omega
  cases act with
  | cancel => exact absurd rfl hact
  | _ => simp only [machine, hstep, Option.bind_some, advance, if_pos hroom]

/-- The runs of a client whose context is done are runs of the command. -/
theorem exists_follows (hs : (machine noise agentCfg cfg known).Reachable s) {f : Forwarder}
    (hdone : s.forwarder.loop.done = true)
    (hrun : (client noise agentCfg cfg known).Reaches s.forwarder f) :
    ∃ t, (machine noise agentCfg cfg known).Reaches s t ∧ s.Follows f t := by
  suffices h : ∃ t, (machine noise agentCfg cfg known).Reaches s t ∧
      ((machine noise agentCfg cfg known).Reachable t ∧ s.Follows f t) by
    obtain ⟨t, hreach, -, ht⟩ := h
    exact ⟨t, hreach, ht⟩
  refine Machine.Reaches.simulate
    (R := fun f t ↦ (machine noise agentCfg cfg known).Reachable t ∧ s.Follows f t) ?_ hrun
    ⟨hs, rfl, rfl, rfl, rfl, hdone⟩
  rintro f act g u ⟨hu, rfl, hpc, hvalue, hsent, hdone⟩ hstep
  by_cases hact : act = .cancel
  · subst hact
    cases hstep
    refine ⟨u, Machine.Reaches.refl u, hu, ?_, hpc, hvalue, hsent, rfl⟩
    simp only [← hdone]
  · have ht := client_step noise agentCfg cfg known hu hact hstep
    exact ⟨_, (Machine.Reaches.refl u).tail ht, hu.tail ht, rfl, hpc, hvalue, hsent,
      (Endpoint.done_of_step hact hstep).trans hdone⟩

/-- A client whose context is done can return and report it. -/
theorem exists_sent (hs : (machine noise agentCfg cfg known).Reachable s)
    (hdone : s.forwarder.loop.done = true) :
    ∃ t clientErr, (machine noise agentCfg cfg known).Reaches s t ∧ t.pc = s.pc ∧
      t.forwarder.loop.pc = .returned clientErr ∧ t.sent = true := by
  obtain ⟨f, clientErr, hrun, hreturned⟩ := Endpoint.exists_returned_of_done noise agentCfg cfg
    known false (sound_of_reachable hs).client hdone
  obtain ⟨t, hreach, hforwarder, hpc, -, -, -⟩ :=
    exists_follows noise agentCfg cfg known hs hdone hrun
  rw [← hforwarder] at hreturned
  by_cases hsent : t.sent = true
  · exact ⟨t, clientErr, hreach, hpc, hreturned, hsent⟩
  · have hempty := (sound_of_reachable (hs.trans hreach)).unsent (Bool.eq_false_iff.mpr hsent)
    have hsend : (machine noise agentCfg cfg known).step t .send =
        some { t with clientDone := some clientErr, sent := true } := by
      simp [machine, hreturned, hempty, Bool.eq_false_iff.mpr hsent]
    exact ⟨_, clientErr, hreach.tail hsend, hpc, hreturned, rfl⟩

/-- The command can come to its last blocking call, or past it, with the client cancelled. -/
theorem exists_cancelled (hs : (machine noise agentCfg cfg known).Reachable s) :
    ∃ t, (machine noise agentCfg cfg known).Reaches s t ∧ t.forwarder.loop.done = true ∧
      ((∃ sshErr, t.pc = .recvClientDone sshErr) ∨ ∃ err, t.pc = .returned err) := by
  have hcancel {s : TemporaryTunnel} {sshErr : Option Err} (hpc : s.pc = .cancel sshErr) :
      ∃ t, (machine noise agentCfg cfg known).Reaches s t ∧ t.forwarder.loop.done = true ∧
        ((∃ sshErr, t.pc = .recvClientDone sshErr) ∨ ∃ err, t.pc = .returned err) := by
    have hstep : (machine noise agentCfg cfg known).step s (.command .cancelled) =
        some { s.cancelClient with pc := .recvClientDone sshErr } := by
      simp only [machine, command, hpc]
    exact ⟨_, (Machine.Reaches.refl s).tail hstep, rfl, Or.inl ⟨sshErr, rfl⟩⟩
  have hdeferred {s : TemporaryTunnel} {err : Option Err} (hpc : s.pc = .deferred err) :
      ∃ t, (machine noise agentCfg cfg known).Reaches s t ∧ t.forwarder.loop.done = true ∧
        ((∃ sshErr, t.pc = .recvClientDone sshErr) ∨ ∃ err, t.pc = .returned err) := by
    have hstep : (machine noise agentCfg cfg known).step s (.command .deferredCancel) =
        some { s.cancelClient with pc := .returned err } := by
      simp only [machine, command, hpc]
    exact ⟨_, (Machine.Reaches.refl s).tail hstep, rfl, Or.inr ⟨err, rfl⟩⟩
  have hplace := (sound_of_reachable hs).place
  cases hpc : s.pc with
  | select =>
    have hdone : (machine noise agentCfg cfg known).step
        { s.cancelClient with ctxDone := true } (.command .ctxDone) =
          some { s.cancelClient with ctxDone := true, pc := .deferred (some .canceled) } := by
      simp only [machine, command, cancelClient, hpc, if_true]
    obtain ⟨t, hreach, ht⟩ := hdeferred (s := { s.cancelClient with
      ctxDone := true, pc := .deferred (some .canceled) }) rfl
    exact ⟨t, (((Machine.Reaches.refl s).tail (a := .cancelContext) rfl).tail hdone).trans hreach,
      ht⟩
  | startOpenSSH =>
    have hstep : (machine noise agentCfg cfg known).step s (.command (.startFailed .eof)) =
        some { s with pc := .cancel (SSHExit.failed .eof).err } := by
      simp only [machine, command, hpc]
    obtain ⟨t, hreach, ht⟩ := hcancel (s := { s with pc := .cancel (SSHExit.failed .eof).err }) rfl
    exact ⟨t, ((Machine.Reaches.refl s).tail hstep).trans hreach, ht⟩
  | runOpenSSH =>
    have hstep : (machine noise agentCfg cfg known).step s (.command (.exited .success)) =
        some { s with pc := .cancel none, openSSH := .ended .success } := by
      simp only [machine, command, hpc, SSHExit.err]
    obtain ⟨t, hreach, ht⟩ := hcancel
      (s := { s with pc := .cancel none, openSSH := .ended .success }) rfl
    exact ⟨t, ((Machine.Reaches.refl s).tail hstep).trans hreach, ht⟩
  | cancel sshErr => exact hcancel hpc
  | recvClientDone sshErr =>
    rw [hpc] at hplace
    exact ⟨s, Machine.Reaches.refl s, hplace.2, Or.inl ⟨sshErr, hpc⟩⟩
  | deferred err => exact hdeferred hpc
  | returned err =>
    rw [hpc] at hplace
    exact ⟨s, Machine.Reaches.refl s, hplace.2, Or.inr ⟨err, hpc⟩⟩

/-- From wherever it is, the command can return and leave no goroutine behind: neither waits for
the other for good. -/
theorem ssh_can_return (hs : (machine noise agentCfg cfg known).Reachable s) :
    ∃ t err clientErr, (machine noise agentCfg cfg known).Reaches s t ∧ t.pc = .returned err ∧
      t.forwarder.loop.pc = .returned clientErr ∧ t.sent = true := by
  obtain ⟨u, hsu, hdone, hpc⟩ := exists_cancelled noise agentCfg cfg known hs
  obtain ⟨v, clientErr, huv, hsame, hreturned, hsent⟩ :=
    exists_sent noise agentCfg cfg known (hs.trans hsu) hdone
  have hsv := hsu.trans huv
  rcases hpc with ⟨sshErr, hpc⟩ | ⟨err, hpc⟩
  · rw [hpc] at hsame
    have hvalue : v.clientDone = some clientErr := by
      obtain ⟨err', hpc', hvalue | ⟨-, hover⟩⟩ := (sound_of_reachable (hs.trans hsv)).sent hsent
      · rw [hreturned] at hpc'
        cases hpc'
        exact hvalue
      · rw [hsame] at hover
        cases hover
    have hreceived : (machine noise agentCfg cfg known).step v (.command .received) =
        some { v with pc := .deferred (closeErr sshErr clientErr), clientDone := none } := by
      simp only [machine, command, hsame, hvalue]
    exact ⟨_, _, clientErr, (hsv.tail hreceived).tail (a := .command .deferredCancel) rfl, rfl,
      hreturned, hsent⟩
  · exact ⟨v, err, clientErr, hsv, hsame.trans hpc, hreturned, hsent⟩

end Progress

section Samples

/-- OpenSSH has opened a connection through the tunnel when the user interrupts the command. -/
def interruptedCommand : List TunnelAct :=
  [.client (.loop (.dialed none)), .client (.loop .warmed), .client (.loop (.listened none)),
    .command .ready, .command .started, .client (.loop (.accepted (.ok ()))), .cancelContext]

/-- OpenSSH ends before a connection was opened, and the command stops the client. -/
def finishedCommand : List TunnelAct :=
  [.client (.loop (.dialed none)), .client (.loop .warmed), .client (.loop (.listened none)),
    .command .ready, .command .started, .command (.exited .success), .command .cancelled,
    .client .closeListener, .client (.loop (.accepted (.error .netClosed))),
    .client (.loop .waited), .client (.loop .listenerClosed), .client (.loop .connClosed), .send,
    .command .received, .command .deferredCancel]

theorem exists_interruptedCommand :
    ∃ s, (machine ideal (fun _ ↦ ⟨Endpoint.sharedCode, false⟩) ⟨Endpoint.sharedCode⟩
        (fun _ ↦ false)).Reachable s ∧
      s.openSSH = .running ∧ s.forwarder.handlers 0 = .running := by
  obtain ⟨s, hexec, hs⟩ := Machine.exists_of_exec
    (M := machine ideal (fun _ ↦ ⟨Endpoint.sharedCode, false⟩) ⟨Endpoint.sharedCode⟩
      (fun _ ↦ false))
    (s := ⟨.select, .idle, ⟨Endpoint.runClientStart, fun _ ↦ .idle,
      ⟨fun _ ↦ .start, fun _ ↦ .start, []⟩⟩, 0, none, false, false⟩) interruptedCommand
    (fun s ↦ s.openSSH = .running ∧ s.forwarder.handlers 0 = .running) rfl
  exact ⟨s, Machine.reaches_of_exec interruptedCommand hexec, hs⟩

theorem openSSH_within_tunnel_interrupted :
    ∃ s t, (machine ideal (fun _ ↦ ⟨Endpoint.sharedCode, false⟩) ⟨Endpoint.sharedCode⟩
        (fun _ ↦ false)).Reachable s ∧
      (machine ideal (fun _ ↦ ⟨Endpoint.sharedCode, false⟩) ⟨Endpoint.sharedCode⟩
        (fun _ ↦ false)).Reachable t ∧
      s.forwarder.handlers 0 = .running ∧ s.openSSH = .running ∧
      s.forwarder.loop.announced = 1 ∧ 3 ≤ s.forwarder.loop.pc.stage ∧
      t.pc = .returned none ∧ t.openSSH = .ended .success ∧ t.forwarder.loop.done = true ∧
      ∃ clientErr, t.forwarder.loop.pc = .returned clientErr ∧
        t.forwarder.loop.listening = false ∧ t.forwarder.loop.connected = false := by
  obtain ⟨s, hs, hrunning, hhandler⟩ := exists_interruptedCommand
  obtain ⟨t, hexec, hpc, hended⟩ := Machine.exists_of_exec
    (M := machine ideal (fun _ ↦ ⟨Endpoint.sharedCode, false⟩) ⟨Endpoint.sharedCode⟩
      (fun _ ↦ false))
    (s := ⟨.select, .idle, ⟨Endpoint.runClientStart, fun _ ↦ .idle,
      ⟨fun _ ↦ .start, fun _ ↦ .start, []⟩⟩, 0, none, false, false⟩) finishedCommand
    (fun s ↦ s.pc = .returned none ∧ s.openSSH = .ended .success) rfl
  have ht := Machine.reaches_of_exec finishedCommand hexec
  obtain ⟨hannounced, hstage, -⟩ := (openSSH_within_tunnel hs).1 hrunning
  obtain ⟨hdone, hreturned⟩ := (openSSH_within_tunnel ht).2.1 none hpc
  obtain ⟨-, clientErr, -, -, hclient, hlistening, hconnected, -⟩ :=
    hreturned.resolve_left fun hearly ↦ hearly.2 rfl
  exact ⟨s, t, hs, ht, hhandler, hrunning, hannounced, hstage, hpc, hended, hdone, clientErr,
    hclient, hlistening, hconnected⟩

theorem ssh_can_return_interrupted :
    ∃ s t err clientErr, (machine ideal (fun _ ↦ ⟨Endpoint.sharedCode, false⟩)
        ⟨Endpoint.sharedCode⟩ (fun _ ↦ false)).Reaches s t ∧
      s.openSSH = .running ∧ t.pc = .returned err ∧
      t.forwarder.loop.pc = .returned clientErr := by
  obtain ⟨s, hs, hrunning, -⟩ := exists_interruptedCommand
  obtain ⟨t, err, clientErr, hreach, hpc, hclient, -⟩ := ssh_can_return _ _ _ _ hs
  exact ⟨s, t, err, clientErr, hreach, hrunning, hpc, hclient⟩

end Samples

end TemporaryTunnel

end RelayCat.Cli
