import RelayCat.Endpoint.Handshake

/-!
# The client process

`RunClient` dials the relay, listens locally and handles every local connection in a goroutine
of its own, until its context is done or, with `Once`, after the first connection. On its way
out it waits for the goroutines, closes the listener and closes the connection to the relay, in
this order. A second goroutine closes the listener when the context is done, which ends a blocked
`Accept`.

The goroutines are the clients of the handshake model. What the network answers is free, but for
one thing: `Accept` reports `net.ErrClosed` exactly if the listener was closed.
-/

namespace RelayCat.Endpoint

open Go AccessCode Wire Automaton Noise.Handshake

/-- Where `RunClient` is; from `waitGroup` on it returns with an error or without. -/
inductive ForwardPc where
  | dial
  | warm
  | listen
  | accept
  | waitGroup (err : Option Err)
  | closeListener (err : Option Err)
  | closeConn (err : Option Err)
  | returned (err : Option Err)
  deriving DecidableEq

inductive ForwardAct where
  | dialed (err : Option Err)
  | warmed
  | listened (err : Option Err)
  | accepted (result : Except Err Unit)
  | waited
  | listenerClosed
  | connClosed

/-- The variables of `RunClient`, with the calls of `ready` and of `Accept` that succeeded. -/
structure Forward where
  pc : ForwardPc
  listening : Bool
  connected : Bool
  done : Bool
  wg : ℕ
  announced : ℕ
  accepted : ℕ

def runClientStart : Forward := ⟨.dial, false, false, false, 0, 0, 0⟩

/-- `RunClient`, one blocking or deferred call at a time. -/
def runClient (once : Bool) (l : Forward) : ForwardAct → Option Forward
  | .dialed err =>
    match l.pc, err with
    | .dial, some err => some { l with pc := .returned (some err) }
    | .dial, none => some { l with pc := .warm, connected := true }
    | _, _ => none
  | .warmed =>
    match l.pc with
    | .warm => some { l with pc := .listen }
    | _ => none
  | .listened err =>
    match l.pc, err with
    | .listen, some err => some { l with pc := .closeConn (some (.errorf "listening locally" err)) }
    | .listen, none =>
      some { l with pc := .accept, listening := true, announced := l.announced + 1 }
    | _, _ => none
  | .accepted (.ok ()) =>
    match l.pc with
    | .accept =>
      if l.listening then
        some { l with
          pc := if once then .waitGroup none else .accept
          wg := l.wg + 1
          accepted := l.accepted + 1 }
      else none
    | _ => none
  | .accepted (.error err) =>
    match l.pc with
    | .accept =>
      if l.listening = err.is .netClosed then none
      else if l.done ∨ err.is .netClosed then some { l with pc := .waitGroup none }
      else some { l with pc := .waitGroup (some (.errorf "accepting local connection" err)) }
    | _ => none
  | .waited =>
    match l.pc with
    | .waitGroup err => if l.wg = 0 then some { l with pc := .closeListener err } else none
    | _ => none
  | .listenerClosed =>
    match l.pc with
    | .closeListener err => some { l with pc := .closeConn err, listening := false }
    | _ => none
  | .connClosed =>
    match l.pc with
    | .closeConn err => some { l with pc := .returned err, connected := false }
    | _ => none

/-- A goroutine of `RunClient`; a closed one has closed its local connection. -/
inductive LocalRun where
  | idle
  | running
  | closed
  deriving DecidableEq

/-- The process with its goroutines and its surroundings. -/
structure Forwarder where
  loop : Forward
  handlers : ℕ → LocalRun
  setup : Setup

inductive ForwarderAct where
  | loop (act : ForwardAct)
  | cancel
  | closeListener
  | handler (j : ℕ) (act : ClientAct)
  | finish (j : ℕ)
  | agent (i : ℕ) (act : AgentAct)
  | relay (message : Message)

section Machine

variable (noise : Library) (agentCfg : ℕ → AgentConfig) (cfg : ClientConfig) (known : Bytes → Bool)
  (once : Bool)

/-- The process after a step of `RunClient`, with the goroutine that an accepted connection
gets. -/
def Forwarder.advance (s : Forwarder) (loop : Forward) : Forwarder where
  loop := loop
  handlers :=
    if loop.accepted = s.loop.accepted then s.handlers
    else Function.update s.handlers s.loop.accepted .running
  setup := s.setup

def clientProcess : Machine Forwarder ForwarderAct where
  init := ⟨runClientStart, fun _ ↦ .idle, ⟨fun _ ↦ .start, fun _ ↦ .start, []⟩⟩
  step s
    | .loop act => (runClient once s.loop act).map s.advance
    | .cancel => some { s with loop := { s.loop with done := true } }
    | .closeListener =>
      if s.loop.done ∧ s.loop.listening then
        some { s with loop := { s.loop with listening := false } }
      else none
    | .handler j act =>
      if s.handlers j = .running then
        ((setup noise agentCfg (fun _ ↦ cfg) known).step s.setup (.client j act)).map
          fun setup ↦ { s with setup := setup }
      else none
    | .finish j =>
      match s.handlers j, s.setup.clients j with
      | .running, .returned _ =>
        some { s with
          loop := { s.loop with wg := s.loop.wg - 1 }
          handlers := Function.update s.handlers j .closed }
      | _, _ => none
    | .agent i act =>
      ((setup noise agentCfg (fun _ ↦ cfg) known).step s.setup (.agent i act)).map
        fun setup ↦ { s with setup := setup }
    | .relay message =>
      ((setup noise agentCfg (fun _ ↦ cfg) known).step s.setup (.relay message)).map
        fun setup ↦ { s with setup := setup }

end Machine

section Moves

/-- How far `RunClient` has come. -/
def ForwardPc.stage : ForwardPc → ℕ
  | dial => 0
  | warm => 1
  | listen => 2
  | accept => 3
  | waitGroup _ => 4
  | closeListener _ => 5
  | closeConn _ => 6
  | returned _ => 7

/-- `RunClient` is about to return, or has returned, without an error. -/
def ForwardPc.succeeds : ForwardPc → Prop
  | waitGroup err => err = none
  | closeListener err => err = none
  | closeConn err => err = none
  | returned err => err = none
  | _ => False

variable {once : Bool} {l : Forward}

/-- The steps of `RunClient`. -/
inductive ForwardMove (once : Bool) (l : Forward) : Forward → Prop
  | dialFailed {err} : l.pc = .dial → ForwardMove once l { l with pc := .returned (some err) }
  | dialed : l.pc = .dial → ForwardMove once l { l with pc := .warm, connected := true }
  | warmed : l.pc = .warm → ForwardMove once l { l with pc := .listen }
  | listenFailed {err} : l.pc = .listen → ForwardMove once l { l with pc := .closeConn (some err) }
  | listened : l.pc = .listen → ForwardMove once l
      { l with pc := .accept, listening := true, announced := l.announced + 1 }
  | accepted : l.pc = .accept → ForwardMove once l
      { l with
        pc := if once then .waitGroup none else .accept
        wg := l.wg + 1
        accepted := l.accepted + 1 }
  | closed : l.pc = .accept → l.done = true ∨ l.listening = false →
      ForwardMove once l { l with pc := .waitGroup none }
  | acceptFailed {err} : l.pc = .accept →
      ForwardMove once l { l with pc := .waitGroup (some err) }
  | waited {err} : l.pc = .waitGroup err → l.wg = 0 →
      ForwardMove once l { l with pc := .closeListener err }
  | listenerClosed {err} : l.pc = .closeListener err →
      ForwardMove once l { l with pc := .closeConn err, listening := false }
  | connClosed {err} : l.pc = .closeConn err →
      ForwardMove once l { l with pc := .returned err, connected := false }

theorem forwardMove_of_runClient {l' : Forward} {act : ForwardAct}
    (h : runClient once l act = some l') : ForwardMove once l l' := by
  unfold runClient at h
  split at h
  · split at h
    · cases h
      exact .dialFailed (by assumption)
    · cases h
      exact .dialed (by assumption)
    · cases h
  · split at h
    · cases h
      exact .warmed (by assumption)
    · cases h
  · split at h
    · cases h
      exact .listenFailed (by assumption)
    · cases h
      exact .listened (by assumption)
    · cases h
  · split at h
    · obtain ⟨-, h⟩ := Option.ite_none_right_eq_some.mp h
      cases h
      exact .accepted (by assumption)
    · cases h
  · split at h
    · split_ifs at h with hlistening hover
      · cases h
        refine .closed (by assumption) (hover.imp_right fun hclosed ↦ ?_)
        rw [hclosed] at hlistening
        exact Bool.eq_false_iff.mpr hlistening
      · cases h
        exact .acceptFailed (by assumption)
    · cases h
  · split at h
    · split_ifs at h with hwg
      cases h
      exact .waited (by assumption) hwg
    · cases h
  · split at h
    · cases h
      exact .listenerClosed (by assumption)
    · cases h
  · split at h
    · cases h
      exact .connClosed (by assumption)
    · cases h

end Moves

section Stages

variable {once : Bool} {l l' : Forward}

/-- Nothing has been accepted or announced. -/
def Forward.Fresh (l : Forward) : Prop :=
  l.accepted = 0 ∧ l.announced = 0 ∧ l.wg = 0 ∧ l.listening = false

/-- The accept loop has been left, or was never entered. -/
def Forward.Ends (once : Bool) (l : Forward) (err : Option Err) : Prop :=
  (l.accepted ≠ 0 → l.announced = 1) ∧ (once = true → l.accepted ≤ 1) ∧
    (err = none → l.done = true ∨ once = true ∧ l.accepted = 1)

/-- What is open and what has happened at each place of `RunClient`. -/
def Forward.At (once : Bool) (l : Forward) : ForwardPc → Prop
  | .dial => l.Fresh ∧ l.connected = false
  | .warm => l.Fresh ∧ l.connected = true
  | .listen => l.Fresh ∧ l.connected = true
  | .accept => l.connected = true ∧ l.announced = 1 ∧ (l.listening = false → l.done = true) ∧
      (once = true → l.accepted = 0)
  | .waitGroup err => l.connected = true ∧ l.Ends once err
  | .closeListener err => l.connected = true ∧ l.Ends once err ∧ l.wg = 0
  | .closeConn err => l.connected = true ∧ l.Ends once err ∧ l.wg = 0 ∧ l.listening = false
  | .returned err => l.connected = false ∧ l.Ends once err ∧ l.wg = 0 ∧ l.listening = false

theorem Forward.Fresh.ends (h : l.Fresh) (once : Bool) (err : Err) : l.Ends once (some err) :=
  ⟨fun hne ↦ absurd h.1 hne, fun _ ↦ h.1.trans_le (Nat.zero_le 1), fun hnone ↦ by cases hnone⟩

theorem Forward.At.move (h : l.At once l.pc) (hmove : ForwardMove once l l') :
    l'.At once l'.pc := by
  cases hmove with
  | dialFailed hpc =>
    rw [hpc] at h
    exact ⟨h.2, h.1.ends once _, h.1.2.2⟩
  | dialed hpc =>
    rw [hpc] at h
    exact ⟨h.1, rfl⟩
  | warmed hpc =>
    rw [hpc] at h
    exact h
  | listenFailed hpc =>
    rw [hpc] at h
    exact ⟨h.2, h.1.ends once _, h.1.2.2⟩
  | listened hpc =>
    rw [hpc] at h
    obtain ⟨⟨haccepted, hannounced, -, -⟩, hconnected⟩ := h
    refine ⟨hconnected, ?_, fun hlistening ↦ ?_, fun _ ↦ haccepted⟩
    · simp only [hannounced]
    · cases hlistening
  | accepted hpc =>
    rw [hpc] at h
    obtain ⟨hconnected, hannounced, hclosed, honce⟩ := h
    cases once with
    | false => exact ⟨hconnected, hannounced, hclosed, fun heq ↦ by cases heq⟩
    | true =>
      have haccepted : l.accepted + 1 = 1 := by rw [honce rfl]
      exact ⟨hconnected, fun _ ↦ hannounced, fun _ ↦ haccepted.le,
        fun _ ↦ Or.inr ⟨rfl, haccepted⟩⟩
  | closed hpc hover =>
    rw [hpc] at h
    obtain ⟨hconnected, hannounced, hclosed, honce⟩ := h
    exact ⟨hconnected, fun _ ↦ hannounced, fun heq ↦ (honce heq).trans_le (Nat.zero_le 1),
      fun _ ↦ Or.inl (hover.elim id hclosed)⟩
  | acceptFailed hpc =>
    rw [hpc] at h
    obtain ⟨hconnected, hannounced, -, honce⟩ := h
    exact ⟨hconnected, fun _ ↦ hannounced, fun heq ↦ (honce heq).trans_le (Nat.zero_le 1),
      fun hnone ↦ by cases hnone⟩
  | waited hpc hwg =>
    rw [hpc] at h
    exact ⟨h.1, h.2, hwg⟩
  | listenerClosed hpc =>
    rw [hpc] at h
    exact ⟨h.1, h.2.1, h.2.2, rfl⟩
  | connClosed hpc =>
    rw [hpc] at h
    exact ⟨rfl, h.2⟩

theorem Forward.At.cancel {pc : ForwardPc} (h : l.At once pc) :
    ({ l with done := true } : Forward).At once pc := by
  cases pc with
  | accept => exact ⟨h.1, h.2.1, fun _ ↦ rfl, h.2.2.2⟩
  | waitGroup err => exact ⟨h.1, h.2.1, h.2.2.1, fun _ ↦ Or.inl rfl⟩
  | closeListener err => exact ⟨h.1, ⟨h.2.1.1, h.2.1.2.1, fun _ ↦ Or.inl rfl⟩, h.2.2⟩
  | closeConn err => exact ⟨h.1, ⟨h.2.1.1, h.2.1.2.1, fun _ ↦ Or.inl rfl⟩, h.2.2⟩
  | returned err => exact ⟨h.1, ⟨h.2.1.1, h.2.1.2.1, fun _ ↦ Or.inl rfl⟩, h.2.2⟩
  | _ => exact h

theorem Forward.At.closeListener {pc : ForwardPc} (h : l.At once pc) (hdone : l.done = true) :
    ({ l with listening := false } : Forward).At once pc := by
  cases pc with
  | dial => exact ⟨⟨h.1.1, h.1.2.1, h.1.2.2.1, rfl⟩, h.2⟩
  | warm => exact ⟨⟨h.1.1, h.1.2.1, h.1.2.2.1, rfl⟩, h.2⟩
  | listen => exact ⟨⟨h.1.1, h.1.2.1, h.1.2.2.1, rfl⟩, h.2⟩
  | accept => exact ⟨h.1, h.2.1, fun _ ↦ hdone, h.2.2.2⟩
  | closeConn err => exact ⟨h.1, h.2.1, h.2.2.1, rfl⟩
  | returned err => exact ⟨h.1, h.2.1, h.2.2.1, rfl⟩
  | _ => exact h

theorem Forward.At.finish {pc : ForwardPc} (h : l.At once pc) :
    ({ l with wg := l.wg - 1 } : Forward).At once pc := by
  have hzero (hwg : l.wg = 0) : l.wg - 1 = 0 := by rw [hwg]
  cases pc with
  | dial => exact ⟨⟨h.1.1, h.1.2.1, hzero h.1.2.2.1, h.1.2.2.2⟩, h.2⟩
  | warm => exact ⟨⟨h.1.1, h.1.2.1, hzero h.1.2.2.1, h.1.2.2.2⟩, h.2⟩
  | listen => exact ⟨⟨h.1.1, h.1.2.1, hzero h.1.2.2.1, h.1.2.2.2⟩, h.2⟩
  | closeListener err => exact ⟨h.1, h.2.1, hzero h.2.2⟩
  | closeConn err => exact ⟨h.1, h.2.1, hzero h.2.2.1, h.2.2.2⟩
  | returned err => exact ⟨h.1, h.2.1, hzero h.2.2.1, h.2.2.2⟩
  | _ => exact h

/-- At most one connection is accepted with `Once`, and none before `ready` is called. -/
theorem Forward.At.accepted {pc : ForwardPc} (h : l.At once pc) :
    (once = true → l.accepted ≤ 1) ∧ (l.accepted ≠ 0 → l.announced = 1) := by
  cases pc with
  | dial => exact ⟨fun _ ↦ h.1.1.trans_le (Nat.zero_le 1), fun hne ↦ absurd h.1.1 hne⟩
  | warm => exact ⟨fun _ ↦ h.1.1.trans_le (Nat.zero_le 1), fun hne ↦ absurd h.1.1 hne⟩
  | listen => exact ⟨fun _ ↦ h.1.1.trans_le (Nat.zero_le 1), fun hne ↦ absurd h.1.1 hne⟩
  | accept => exact ⟨fun heq ↦ (h.2.2.2 heq).trans_le (Nat.zero_le 1), fun _ ↦ h.2.1⟩
  | waitGroup err => exact ⟨h.2.2.1, h.2.1⟩
  | closeListener err => exact ⟨h.2.1.2.1, h.2.1.1⟩
  | closeConn err => exact ⟨h.2.1.2.1, h.2.1.1⟩
  | returned err => exact ⟨h.2.1.2.1, h.2.1.1⟩

/-- After `ready` was called the listener is there, until the context is done or the accept loop
was left with an error. -/
theorem Forward.At.announced {pc : ForwardPc} (h : l.At false pc) (hannounced : l.announced ≠ 0) :
    3 ≤ pc.stage ∧ (l.listening = true ∨ l.done = true ∨ 4 ≤ pc.stage ∧ ¬ pc.succeeds) := by
  have hends {err : Option Err} (h : l.Ends false err) : l.done = true ∨ err ≠ none := by
    by_cases herr : err = none
    · exact (h.2.2 herr).imp_right fun honce ↦ by cases honce.1
    · exact Or.inr herr
  cases pc with
  | dial => exact absurd h.1.2.1 hannounced
  | warm => exact absurd h.1.2.1 hannounced
  | listen => exact absurd h.1.2.1 hannounced
  | accept =>
    refine ⟨le_rfl, ?_⟩
    cases hlistening : l.listening with
    | true => exact Or.inl rfl
    | false => exact Or.inr (Or.inl (h.2.2.1 hlistening))
  | waitGroup err =>
    exact ⟨by simp [ForwardPc.stage], Or.inr ((hends h.2).imp_right fun herr ↦ ⟨le_rfl, herr⟩)⟩
  | closeListener err =>
    exact ⟨by simp [ForwardPc.stage],
      Or.inr ((hends h.2.1).imp_right fun herr ↦ ⟨by simp [ForwardPc.stage], herr⟩)⟩
  | closeConn err =>
    exact ⟨by simp [ForwardPc.stage],
      Or.inr ((hends h.2.1).imp_right fun herr ↦ ⟨by simp [ForwardPc.stage], herr⟩)⟩
  | returned err =>
    exact ⟨by simp [ForwardPc.stage],
      Or.inr ((hends h.2.1).imp_right fun herr ↦ ⟨by simp [ForwardPc.stage], herr⟩)⟩

/-- The connection to the relay is open while a goroutine is at work. -/
theorem Forward.At.connected {pc : ForwardPc} (h : l.At once pc) (hwg : l.wg ≠ 0) :
    l.connected = true := by
  cases pc with
  | dial => exact absurd h.1.2.2.1 hwg
  | returned err => exact absurd h.2.2.1 hwg
  | warm => exact h.2
  | listen => exact h.2
  | _ => exact h.1

end Stages

section Process

variable {noise : Library} {agentCfg : ℕ → AgentConfig} {cfg : ClientConfig} {known : Bytes → Bool}
  {once : Bool} {s t : Forwarder}

/-- The steps of the process. -/
inductive ForwarderMove (once : Bool) (s : Forwarder) : Forwarder → Prop
  | loop {l} : ForwardMove once s.loop l → ForwarderMove once s (s.advance l)
  | cancel : ForwarderMove once s { s with loop := { s.loop with done := true } }
  | closeListener : s.loop.done = true →
      ForwarderMove once s { s with loop := { s.loop with listening := false } }
  | finish {j} : s.handlers j = .running → ForwarderMove once s
      { s with
        loop := { s.loop with wg := s.loop.wg - 1 }
        handlers := Function.update s.handlers j .closed }
  | setup {setup} : ForwarderMove once s { s with setup := setup }

theorem forwarderMove_of_step {act : ForwarderAct}
    (h : (clientProcess noise agentCfg cfg known once).step s act = some t) :
    ForwarderMove once s t := by
  cases act with
  | loop act =>
    obtain ⟨l, hloop, rfl⟩ := Option.map_eq_some_iff.mp h
    exact .loop (forwardMove_of_runClient hloop)
  | cancel =>
    cases h
    exact .cancel
  | closeListener =>
    obtain ⟨hdone, h⟩ := Option.ite_none_right_eq_some.mp h
    cases h
    exact .closeListener hdone.1
  | handler j act =>
    obtain ⟨-, h⟩ := Option.ite_none_right_eq_some.mp h
    obtain ⟨setup', -, rfl⟩ := Option.map_eq_some_iff.mp h
    exact .setup
  | finish j =>
    simp only [clientProcess] at h
    split at h
    · cases h
      exact .finish (by assumption)
    · cases h
  | agent i act =>
    obtain ⟨setup', -, rfl⟩ := Option.map_eq_some_iff.mp h
    exact .setup
  | relay message =>
    obtain ⟨setup', -, rfl⟩ := Option.map_eq_some_iff.mp h
    exact .setup

theorem ForwardMove.done_eq {l l' : Forward} (h : ForwardMove once l l') : l'.done = l.done := by
  cases h <;> rfl

/-- Only the cancellation changes whether the context is done. -/
theorem done_of_step {act : ForwarderAct} (hact : act ≠ .cancel)
    (h : (clientProcess noise agentCfg cfg known once).step s act = some t) :
    t.loop.done = s.loop.done := by
  cases act with
  | cancel => exact absurd rfl hact
  | loop act =>
    obtain ⟨l, hloop, rfl⟩ := Option.map_eq_some_iff.mp h
    exact (forwardMove_of_runClient hloop).done_eq
  | closeListener =>
    obtain ⟨-, h⟩ := Option.ite_none_right_eq_some.mp h
    cases h
    rfl
  | handler j act =>
    obtain ⟨-, h⟩ := Option.ite_none_right_eq_some.mp h
    obtain ⟨setup', -, rfl⟩ := Option.map_eq_some_iff.mp h
    rfl
  | finish j =>
    simp only [clientProcess] at h
    split at h
    · cases h
      rfl
    · cases h
  | agent i act =>
    obtain ⟨setup', -, rfl⟩ := Option.map_eq_some_iff.mp h
    rfl
  | relay message =>
    obtain ⟨setup', -, rfl⟩ := Option.map_eq_some_iff.mp h
    rfl

/-- `ready` is called when the listener is there. -/
theorem ForwarderMove.announced (h : ForwarderMove once s t) :
    t.loop.announced = s.loop.announced ∨
      s.loop.pc = .listen ∧ t.loop.announced = s.loop.announced + 1 := by
  cases h with
  | loop hloop =>
    cases hloop with
    | listened hpc => exact Or.inr ⟨hpc, rfl⟩
    | _ => exact Or.inl rfl
  | _ => exact Or.inl rfl

theorem ForwarderMove.returned (h : ForwarderMove once s t) {err : Option Err}
    (hpc : s.loop.pc = .returned err) : t.loop.pc = .returned err := by
  cases h with
  | loop hloop => cases hloop <;> simp_all
  | _ => exact hpc

theorem at_of_reachable
    (hs : (clientProcess noise agentCfg cfg known once).Reachable s) :
    s.loop.At once s.loop.pc := by
  refine Machine.invariant (I := fun s ↦ s.loop.At once s.loop.pc)
    ⟨⟨rfl, rfl, rfl, rfl⟩, rfl⟩ (fun s act t _ h hstep ↦ ?_) hs
  cases forwarderMove_of_step hstep with
  | loop hloop => exact h.move hloop
  | cancel => exact h.cancel
  | closeListener hdone => exact h.closeListener hdone
  | finish _ => exact h.finish
  | setup => exact h

/-- `ready` is called once at most. -/
theorem announced_le_of_reachable (hs : (clientProcess noise agentCfg cfg known once).Reachable s) :
    s.loop.announced ≤ 1 := by
  refine Machine.invariant (I := fun s ↦ s.loop.announced ≤ 1) (Nat.zero_le 1)
    (fun s act t hr h hstep ↦ ?_) hs
  rcases (forwarderMove_of_step hstep).announced with hsame | ⟨hpc, hnext⟩
  · exact hsame.trans_le h
  · have hlisten := at_of_reachable hr
    rw [hpc] at hlisten
    rw [hnext, hlisten.1.2.1]

/-- Every accepted connection has a goroutine, and the wait group counts those at work. -/
structure Forwarder.Counted (s : Forwarder) : Prop where
  idle : ∀ j, s.handlers j = .idle ↔ s.loop.accepted ≤ j
  wg : s.loop.wg = {j | s.handlers j = .running}.ncard

theorem Forwarder.Counted.finite (h : s.Counted) : {j | s.handlers j = .running}.Finite := by
  refine (Set.finite_lt_nat s.loop.accepted).subset fun j hj ↦ ?_
  have hrunning : s.handlers j = .running := hj
  by_contra hle
  have hidle := (h.idle j).mpr (not_lt.mp hle)
  rw [hrunning] at hidle
  cases hidle

theorem Forwarder.Counted.move (h : s.Counted) (hmove : ForwarderMove once s t) : t.Counted := by
  have hsame {l : Forward} (haccepted : l.accepted = s.loop.accepted) (hwg : l.wg = s.loop.wg) :
      (s.advance l).Counted := by
    rw [Forwarder.advance, if_pos haccepted]
    refine ⟨fun j ↦ ?_, hwg.trans h.wg⟩
    rw [haccepted]
    exact h.idle j
  cases hmove with
  | loop hloop =>
    cases hloop with
    | accepted hpc =>
      have hidle : s.handlers s.loop.accepted = .idle := (h.idle _).mpr le_rfl
      have hnot : s.handlers s.loop.accepted ≠ .running := by
        rw [hidle]
        exact LocalRun.noConfusion
      rw [Forwarder.advance, if_neg (Nat.succ_ne_self _)]
      refine ⟨fun j ↦ ?_, ?_⟩
      · simp only
        by_cases hj : j = s.loop.accepted
        · subst hj
          rw [Function.update_self]
          simp
        · rw [Function.update_of_ne hj, h.idle]
          omega
      · simp only
        rw [ncard_holders_gain (P := fun x ↦ x = LocalRun.running) h.finite hnot rfl, h.wg]
    | _ => exact hsame rfl rfl
  | cancel => exact ⟨h.idle, h.wg⟩
  | closeListener _ => exact ⟨h.idle, h.wg⟩
  | @finish j hrunning =>
    refine ⟨fun i ↦ ?_, ?_⟩
    · simp only
      by_cases hi : i = j
      · subst hi
        rw [Function.update_self, ← h.idle, hrunning]
        simp
      · rw [Function.update_of_ne hi]
        exact h.idle i
    · have hcard := ncard_holders_lose (P := fun x ↦ x = LocalRun.running) (x := .closed)
        h.finite hrunning LocalRun.noConfusion
      simp only
      rw [h.wg, ← hcard, Nat.add_sub_cancel]
  | setup => exact ⟨h.idle, h.wg⟩

theorem counted_of_reachable
    (hs : (clientProcess noise agentCfg cfg known once).Reachable s) : s.Counted := by
  refine Machine.invariant ?_ (fun s act t _ h hstep ↦ h.move (forwarderMove_of_step hstep)) hs
  refine ⟨fun j ↦ ⟨fun _ ↦ Nat.zero_le j, fun _ ↦ rfl⟩, ?_⟩
  have hempty : {j : ℕ | LocalRun.idle = .running} = ∅ :=
    Set.eq_empty_of_forall_notMem fun _ hj ↦ LocalRun.noConfusion hj
  change 0 = {j : ℕ | LocalRun.idle = .running}.ncard
  rw [hempty, Set.ncard_empty]

theorem wg_ne_zero_of_running (hs : (clientProcess noise agentCfg cfg known once).Reachable s)
    {j : ℕ} (hj : s.handlers j = .running) : s.loop.wg ≠ 0 := by
  have hcounted := counted_of_reachable hs
  rw [hcounted.wg]
  exact Set.ncard_ne_zero_of_mem hj hcounted.finite

/-- What `RunClient` has opened is closed when it has returned. -/
theorem closed_of_returned (hs : (clientProcess noise agentCfg cfg known once).Reachable s)
    {err : Option Err} (hpc : s.loop.pc = .returned err) :
    s.loop.listening = false ∧ s.loop.connected = false ∧
      ∀ j < s.loop.accepted, s.handlers j = .closed := by
  have hplace := at_of_reachable hs
  rw [hpc] at hplace
  obtain ⟨hconnected, -, hwg, hlistening⟩ := hplace
  refine ⟨hlistening, hconnected, fun j hj ↦ ?_⟩
  cases hhandler : s.handlers j with
  | closed => rfl
  | idle => exact absurd (((counted_of_reachable hs).idle j).mp hhandler) (not_le.mpr hj)
  | running => exact absurd hwg (wg_ne_zero_of_running hs hhandler)

/-- When `RunClient` has returned, every accepted connection, the listener and the connection to
the relay are closed, and the latter is never closed under a tunnel at work. With `Once` at most
one connection is accepted, `ready` is called once before any is, and without an error `RunClient`
returns only when its context is done or its one connection has been served. -/
theorem client_leaves_nothing
    (hs : (clientProcess noise agentCfg cfg known once).Reachable s) :
    (∀ err, s.loop.pc = .returned err → s.loop.listening = false ∧ s.loop.connected = false ∧
      ∀ j < s.loop.accepted, s.handlers j = .closed) ∧
    (∀ j, s.handlers j = .running → s.loop.connected = true) ∧
    (once = true → s.loop.accepted ≤ 1) ∧
    (s.loop.accepted ≠ 0 → s.loop.announced = 1) ∧
    (s.loop.pc = .returned none → s.loop.done = true ∨ once = true ∧ s.loop.accepted = 1) := by
  have hplace := at_of_reachable hs
  refine ⟨fun err hpc ↦ closed_of_returned hs hpc,
    fun j hj ↦ hplace.connected (wg_ne_zero_of_running hs hj), hplace.accepted.1,
    hplace.accepted.2, fun hpc ↦ ?_⟩
  rw [hpc] at hplace
  exact hplace.2.1.2.2 rfl

end Process

section Progress

variable (noise : Library) (agentCfg : ℕ → AgentConfig) (cfg : ClientConfig) (known : Bytes → Bool)
  (once : Bool) {s : Forwarder}

theorem exists_client_returned {j : ℕ} (pc : ClientPc) (trace : List SetupEvent) :
    (∃ err, pc = .returned err) ∨
      ∃ act err events, handleClientTunnel noise cfg j trace pc act =
        some (.returned err, events) := by
  cases pc with
  | start => exact Or.inr ⟨.opened (some .eof), _, _, rfl⟩
  | sendOpen => exact Or.inr ⟨.openSent (some .eof), _, _, rfl⟩
  | recvAssigned => exact Or.inr ⟨.assigned (.error .eof) (.error .eof), _, _, rfl⟩
  | sendHandshake sessionID initiator => exact Or.inr ⟨.handshakeSent (some .eof), _, _, rfl⟩
  | recvAccept sessionID initiator => exact Or.inr ⟨.accepted (.error .eof), _, _, rfl⟩
  | bridge => exact Or.inr ⟨.bridged none, _, _, rfl⟩
  | returned err => exact Or.inl ⟨err, rfl⟩

/-- A goroutine at work can end without the loop. -/
theorem exists_finish {j : ℕ} (hrunning : s.handlers j = .running) :
    ∃ t, (clientProcess noise agentCfg cfg known once).Reaches s t ∧
      t.loop = { s.loop with wg := s.loop.wg - 1 } := by
  have hfinish {s : Forwarder} (hrunning : s.handlers j = .running) {err : Option Err}
      (hreturned : s.setup.clients j = .returned err) :
      ∃ t, (clientProcess noise agentCfg cfg known once).Reaches s t ∧
        t.loop = { s.loop with wg := s.loop.wg - 1 } := by
    refine ⟨{ s with
      loop := { s.loop with wg := s.loop.wg - 1 }
      handlers := Function.update s.handlers j .closed },
      (Machine.Reaches.refl s).tail (a := .finish j) ?_, rfl⟩
    simp only [clientProcess, hrunning, hreturned]
  rcases exists_client_returned noise cfg (j := j) (s.setup.clients j) s.setup.trace with
    ⟨err, hreturned⟩ | ⟨act, err, events, hact⟩
  · exact hfinish hrunning hreturned
  · have hstep : (clientProcess noise agentCfg cfg known once).step s (.handler j act) =
        some { s with setup := { s.setup with
          clients := Function.update s.setup.clients j (.returned err)
          trace := events ++ s.setup.trace } } := by
      simp only [clientProcess, if_pos hrunning, setup, hact, Option.map_some]
    obtain ⟨t, hreach, hloop⟩ := hfinish (s := { s with setup := { s.setup with
      clients := Function.update s.setup.clients j (.returned err)
      trace := events ++ s.setup.trace } }) hrunning (Function.update_self ..)
    exact ⟨t, ((Machine.Reaches.refl s).tail hstep).trans hreach, hloop⟩

/-- Once `RunClient` waits for its goroutines, it can return. -/
theorem exists_returned_of_waiting {err : Option Err}
    (hs : (clientProcess noise agentCfg cfg known once).Reachable s)
    (hpc : s.loop.pc = .waitGroup err) :
    ∃ t, (clientProcess noise agentCfg cfg known once).Reaches s t ∧
      t.loop.pc = .returned err := by
  generalize hwg : s.loop.wg = n
  induction n generalizing s with
  | zero =>
    have hwaited : (clientProcess noise agentCfg cfg known once).step s (.loop .waited) =
        some (s.advance { s.loop with pc := .closeListener err }) := by
      simp only [clientProcess, runClient, hpc, if_pos hwg, Option.map_some]
    have hrest := (Machine.Reaches.refl s).tail hwaited
    exact ⟨_, (hrest.tail (a := .loop .listenerClosed) rfl).tail (a := .loop .connClosed) rfl, rfl⟩
  | succ n ih =>
    have hcounted := counted_of_reachable hs
    have hpos : 0 < {j | s.handlers j = .running}.ncard := by
      rw [← hcounted.wg, hwg]
      exact Nat.succ_pos n
    obtain ⟨j, hj⟩ := (Set.ncard_pos hcounted.finite).mp hpos
    obtain ⟨t, hreach, hloop⟩ := exists_finish noise agentCfg cfg known once hj
    obtain ⟨u, hreach', hu⟩ := ih (hs.trans hreach) (by rw [hloop]; exact hpc)
      (by rw [hloop]; simp only [hwg, Nat.add_sub_cancel])
    exact ⟨u, hreach.trans hreach', hu⟩

theorem exists_returned_of_done (hs : (clientProcess noise agentCfg cfg known once).Reachable s)
    (hdone : s.loop.done = true) :
    ∃ t err, (clientProcess noise agentCfg cfg known once).Reaches s t ∧
      t.loop.pc = .returned err := by
  have hfree {s : Forwarder} (hs : (clientProcess noise agentCfg cfg known once).Reachable s)
      (hpc : s.loop.pc = .accept) (hlistening : s.loop.listening = false) :
      ∃ t err, (clientProcess noise agentCfg cfg known once).Reaches s t ∧
        t.loop.pc = .returned err := by
    have hstep : (clientProcess noise agentCfg cfg known once).step s
        (.loop (.accepted (.error .netClosed))) =
          some (s.advance { s.loop with pc := .waitGroup none }) := by
      simp [clientProcess, runClient, hpc, hlistening, Err.is]
    obtain ⟨t, hreach, ht⟩ := exists_returned_of_waiting noise agentCfg cfg known once
      (hs.tail hstep) rfl
    exact ⟨t, none, ((Machine.Reaches.refl s).tail hstep).trans hreach, ht⟩
  have hlast {s : Forwarder} {err : Option Err} (hpc : s.loop.pc = .closeConn err) :
      (clientProcess noise agentCfg cfg known once).Reaches s
        (s.advance { s.loop with pc := .returned err, connected := false }) := by
    refine (Machine.Reaches.refl s).tail (a := .loop .connClosed) ?_
    simp only [clientProcess, runClient, hpc, Option.map_some]
  have hlisten {s : Forwarder} (hpc : s.loop.pc = .listen) :
      ∃ t err, (clientProcess noise agentCfg cfg known once).Reaches s t ∧
        t.loop.pc = .returned err := by
    have hstep : (clientProcess noise agentCfg cfg known once).step s
        (.loop (.listened (some .eof))) =
          some (s.advance
            { s.loop with pc := .closeConn (some (.errorf "listening locally" .eof)) }) := by
      simp only [clientProcess, runClient, hpc, Option.map_some]
    exact ⟨_, _, ((Machine.Reaches.refl s).tail hstep).trans (hlast rfl), rfl⟩
  cases hpc : s.loop.pc with
  | dial =>
    have hstep : (clientProcess noise agentCfg cfg known once).step s
        (.loop (.dialed (some .eof))) =
          some (s.advance { s.loop with pc := .returned (some .eof) }) := by
      simp only [clientProcess, runClient, hpc, Option.map_some]
    exact ⟨_, _, (Machine.Reaches.refl s).tail hstep, rfl⟩
  | warm =>
    have hstep : (clientProcess noise agentCfg cfg known once).step s (.loop .warmed) =
        some (s.advance { s.loop with pc := .listen }) := by
      simp only [clientProcess, runClient, hpc, Option.map_some]
    obtain ⟨t, err, hreach, ht⟩ := hlisten (s := s.advance { s.loop with pc := .listen }) rfl
    exact ⟨t, err, ((Machine.Reaches.refl s).tail hstep).trans hreach, ht⟩
  | listen => exact hlisten hpc
  | accept =>
    by_cases hlistening : s.loop.listening = true
    · have hstep : (clientProcess noise agentCfg cfg known once).step s .closeListener =
          some { s with loop := { s.loop with listening := false } } := by
        simp only [clientProcess, hdone, hlistening, and_self, if_true]
      obtain ⟨t, err, hreach, ht⟩ := hfree (hs.tail hstep) hpc rfl
      exact ⟨t, err, ((Machine.Reaches.refl s).tail hstep).trans hreach, ht⟩
    · exact hfree hs hpc (Bool.eq_false_iff.mpr hlistening)
  | waitGroup err =>
    obtain ⟨t, hreach, ht⟩ := exists_returned_of_waiting noise agentCfg cfg known once hs hpc
    exact ⟨t, err, hreach, ht⟩
  | closeListener err =>
    have hstep : (clientProcess noise agentCfg cfg known once).step s (.loop .listenerClosed) =
        some (s.advance { s.loop with pc := .closeConn err, listening := false }) := by
      simp only [clientProcess, runClient, hpc, Option.map_some]
    exact ⟨_, _, ((Machine.Reaches.refl s).tail hstep).trans (hlast rfl), rfl⟩
  | closeConn err => exact ⟨_, _, hlast hpc, rfl⟩
  | returned err => exact ⟨s, err, Machine.Reaches.refl s, hpc⟩

/-- Wherever `RunClient` is when its context is done, it can return: nothing it waits for is
waiting for it. -/
theorem client_can_return (hs : (clientProcess noise agentCfg cfg known once).Reachable s)
    (hdone : s.loop.done = true) :
    ∃ t err, (clientProcess noise agentCfg cfg known once).Reaches s t ∧
      t.loop.pc = .returned err := exists_returned_of_done noise agentCfg cfg known once hs hdone

end Progress

section Samples

/-- Two connections are accepted, the context is done while both are at work, and `RunClient`
comes to wait for them. -/
def interruptedClient : List ForwarderAct :=
  [.loop (.dialed none), .loop .warmed, .loop (.listened none), .loop (.accepted (.ok ())),
    .loop (.accepted (.ok ())), .cancel, .closeListener,
    .loop (.accepted (.error (.errorf "accept tcp" .netClosed)))]

theorem exists_interruptedClient :
    ∃ s, (clientProcess ideal (fun _ ↦ ⟨sharedCode, false⟩) ⟨sharedCode⟩ (fun _ ↦ false)
        false).Reachable s ∧
      s.loop.pc = .waitGroup none ∧ s.loop.done = true ∧ s.handlers 1 = .running := by
  obtain ⟨s, hexec, hs⟩ := Machine.exists_of_exec
    (M := clientProcess ideal (fun _ ↦ ⟨sharedCode, false⟩) ⟨sharedCode⟩ (fun _ ↦ false) false)
    (s := ⟨runClientStart, fun _ ↦ .idle, ⟨fun _ ↦ .start, fun _ ↦ .start, []⟩⟩) interruptedClient
    (fun s ↦ s.loop.pc = .waitGroup none ∧ s.loop.done = true ∧ s.handlers 1 = .running) rfl
  exact ⟨s, Machine.reaches_of_exec interruptedClient hexec, hs⟩

theorem client_leaves_nothing_interrupted :
    ∃ s, (clientProcess ideal (fun _ ↦ ⟨sharedCode, false⟩) ⟨sharedCode⟩ (fun _ ↦ false)
        false).Reachable s ∧
      s.handlers 1 = .running ∧ s.loop.connected = true := by
  obtain ⟨s, hs, -, -, hrunning⟩ := exists_interruptedClient
  exact ⟨s, hs, hrunning, (client_leaves_nothing hs).2.1 1 hrunning⟩

theorem client_can_return_interrupted :
    ∃ s t err, (clientProcess ideal (fun _ ↦ ⟨sharedCode, false⟩) ⟨sharedCode⟩ (fun _ ↦ false)
        false).Reaches s t ∧
      s.handlers 1 = .running ∧ t.loop.pc = .returned err := by
  obtain ⟨s, hs, -, hdone, hrunning⟩ := exists_interruptedClient
  obtain ⟨t, err, hreach, ht⟩ := client_can_return _ _ _ _ _ hs hdone
  exact ⟨s, t, err, hreach, hrunning, ht⟩

end Samples

end RelayCat.Endpoint
