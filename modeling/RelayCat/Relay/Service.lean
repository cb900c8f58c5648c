import Mathlib.Data.List.AList
import RelayCat.Automaton.Machine
import RelayCat.Relay.Forward

/-!
# The relay service

Any number of `RegisterAgent`, `Connect` and `Accept` calls on one `Service`, each a thread
with its own control point. An action is one step of one call, or a rendezvous of two calls on
an unbuffered channel; results of `Recv`, `Send` and `rand.Read`, expired timers, finished
stream contexts and the choice of a `select` are part of the action. A critical section of the
mutex is one step when it touches guarded data only; the deferred cleanup of `RegisterAgent`
holds the mutex over several steps.

An agent value is named by the `RegisterAgent` call that allocated it, a session by the
`Connect` call that allocated it. `drawn`, `greeting`, `refused`, `inserted`, `deleted`,
`released` and the payload histories are records that no step reads.
-/

namespace RelayCat.Relay

open Go Wire Automaton

/-- `Config`; the timeout is in nanoseconds. -/
structure Config where
  maxAgents : ℤ
  maxTunnelsPerAgent : ℤ
  handshakeTimeout : ℤ
  deriving DecidableEq, Repr

/-- The configuration that `NewService` keeps. -/
def Config.withDefaults (cfg : Config) : Config where
  maxAgents := if cfg.maxAgents ≤ 0 then 1000 else cfg.maxAgents
  maxTunnelsPerAgent := if cfg.maxTunnelsPerAgent ≤ 0 then 128 else cfg.maxTunnelsPerAgent
  handshakeTimeout := if cfg.handshakeTimeout ≤ 0 then 10 * 1000000000 else cfg.handshakeTimeout

/-- `grpc.MaxRecvMsgSize` and `grpc.MaxSendMsgSize` of `RunServer`. -/
def maxMsgSize : ℕ := 128 * 1024

/-- gRPC delivers a received frame only within the size limit. -/
def recvFits : Except Err ConnectRequest → Bool
  | .ok frame => decide (frame.marshal.length ≤ maxMsgSize)
  | .error _ => true

inductive RegisterPc where
  | idle
  | registering
  | serving
  | sending (i : ℕ) (msg : RegisterAgentResponse)
  | leaving (result : Err)
  | closing (result : Err)
  | cancelling (result : Err) (todo : List ℕ)
  | returned (result : Err)
  deriving DecidableEq, Repr

/-- A `RegisterAgent` call with the agent value it allocates. -/
structure RegisterCall where
  pc : RegisterPc := .idle
  ctx : Option CtxErr := none
  route : Bytes := []
  active : ℤ := 0
  done : Bool := false
  deriving DecidableEq, Repr

/-- What `stream.Send` of a notification answers. -/
inductive SendResult where
  | ok
  | tooLarge
  | failed (e : Err)
  deriving DecidableEq, Repr

inductive RegisterLocal where
  | call (req : RegisterAgentRequest)
  | streamDone (e : CtxErr)
  | ctxDone
  | send (result : SendResult)
  deriving DecidableEq, Repr

inductive RegisterEvent where
  | own (ev : RegisterLocal)
  | register
  | lock
  | closeDone
  | cancelSession (i : ℕ)
  | unlock
  deriving DecidableEq, Repr

inductive ConnectPc where
  | idle
  | recvOpen
  | reserving (routeId : Bytes)
  | allocating
  | assigning
  | recvHandshake
  | inserting (clientHello : Bytes)
  | notifying (clientHello : Bytes)
  | awaitReady
  | accepting
  | forwarding
  | deleting (result : Option Err)
  | cancelling (result : Option Err)
  | releasing (result : Option Err)
  | returned (result : Option Err)
  deriving DecidableEq, Repr

/-- A `Connect` call with the session it allocates. `ctx` is the stream's context until the
session's own context is derived from it. -/
structure ConnectCall where
  pc : ConnectPc := .idle
  ctx : Option CtxErr := none
  agent : Option ℕ := none
  sid : Bytes := []
  ready : Bool := false
  agentHello : Bytes := []
  greeting : List ConnectResponse := []
  fwd : Handler := {}
  refused : Bool := false
  inserted : ℕ := 0
  deleted : ℕ := 0
  released : ℕ := 0
  deriving DecidableEq, Repr

/-- `connectCiphertext`. -/
def connectCiphertext (b : Bytes) : ConnectResponse := .ciphertext b

/-- The frames sent on the `Connect` stream so far. -/
def ConnectCall.frames (c : ConnectCall) : List ConnectResponse :=
  c.greeting ++ c.fwd.sent.map connectCiphertext

inductive ConnectLocal where
  | call
  | streamDone (e : CtxErr)
  | recv (result : Except Err ConnectRequest)
  | sendAssigned (result : Option Err)
  | agentDone
  | ctxDone
  | timeout
  | ready
  | sendAccept (result : Option Err)
  | forward (ev : HandlerEvent ConnectRequest)
  | leave
  | cancel
  deriving DecidableEq, Repr

inductive ConnectEvent where
  | own (ev : ConnectLocal)
  | reserveAgent
  | randRead (result : Option Bytes)
  | insertSession
  | deleteSession
  | releaseAgent
  deriving DecidableEq, Repr

inductive AcceptPc where
  | idle
  | recvFirst
  | looking
  | forwarding
  | cancelling (result : Option Err)
  | returned (result : Option Err)
  deriving DecidableEq, Repr

/-- An `Accept` call: its first frame's fields and the session it has found. -/
structure AcceptCall where
  pc : AcceptPc := .idle
  sessionId : Bytes := []
  agentHello : Bytes := []
  session : Option ℕ := none
  fwd : Handler := {}
  deriving DecidableEq, Repr

inductive AcceptLocal where
  | call
  | recv (result : Except Err AcceptRequest)
  | forward (ev : HandlerEvent AcceptRequest)
  | leave
  deriving DecidableEq, Repr

inductive AcceptEvent where
  | own (ev : AcceptLocal)
  | lookup
  | cancel
  deriving DecidableEq, Repr

/-- `Service` with all its calls; `mu` names the `RegisterAgent` call whose cleanup holds the
mutex, and `gauge` is `observability.Agents`. -/
structure Service where
  mu : Option ℕ := none
  agents : AList (fun _ : Bytes ↦ ℕ) := ∅
  sessions : AList (fun _ : Bytes ↦ ℕ) := ∅
  gauge : ℤ := 0
  drawn : List Bytes := []
  reg : ℕ → RegisterCall := fun _ ↦ {}
  conn : ℕ → ConnectCall := fun _ ↦ {}
  acc : ℕ → AcceptCall := fun _ ↦ {}

inductive Act where
  | register (r : ℕ) (ev : RegisterEvent)
  | connect (i : ℕ) (ev : ConnectEvent)
  | accept (m : ℕ) (ev : AcceptEvent)
  | notify (i : ℕ)
  | clientToAgent (m : ℕ)
  | agentToClient (m : ℕ)
  deriving DecidableEq, Repr

/-- The checks of `RegisterAgent` before it takes the mutex. -/
def registerCheck (req : RegisterAgentRequest) : RegisterPc :=
  if req.protocolVersion ≠ protocolVersion then
    .returned (.status .failedPrecondition
      ("unsupported protocol version " ++ toString req.protocolVersion))
  else if req.routeId.length ≠ routeIDSize then
    .returned (.status .invalidArgument "invalid route ID")
  else .registering

/-- gRPC's answer to a message above the size limit. -/
def sendTooLarge : Err := .status .resourceExhausted "trying to send message larger than max"

/-- The steps of `RegisterAgent` that touch only its own values. -/
def RegisterCall.next (c : RegisterCall) : RegisterLocal → Option RegisterCall
  | .call req =>
    match c.pc with
    | .idle => some { c with pc := registerCheck req, route := req.routeId }
    | _ => none
  | .streamDone e => some { c with ctx := c.ctx <|> some e }
  | .ctxDone =>
    match c.pc, c.ctx with
    | .serving, some e => some { c with pc := .leaving e.statusErr }
    | _, _ => none
  | .send result =>
    match c.pc with
    | .sending _ msg =>
      match result with
      | .ok => if msg.marshal.length ≤ maxMsgSize then some { c with pc := .serving } else none
      | .tooLarge =>
        if msg.marshal.length ≤ maxMsgSize then none
        else some { c with pc := .leaving sendTooLarge }
      | .failed e => some { c with pc := .leaving e }
    | _ => none

/-- The check of `Connect` on its first frame. -/
def openCheck : ConnectRequest → ConnectPc
  | .clientOpen version routeId =>
    if version = protocolVersion ∧ routeId.length = routeIDSize then .reserving routeId
    else .returned (some (.status .invalidArgument "first frame must be a valid client open"))
  | _ => .returned (some (.status .invalidArgument "first frame must be a valid client open"))

/-- The check of `Connect` on its second frame. -/
def handshakeCheck : ConnectRequest → ConnectPc
  | .clientHandshake clientHello =>
    if clientHello.length = 0 then
      .cancelling (some (.status .invalidArgument "second frame must be a client handshake"))
    else .inserting clientHello
  | _ => .cancelling (some (.status .invalidArgument "second frame must be a client handshake"))

/-- Frames that the goroutine of `Connect` can receive. -/
def forwardFits : HandlerEvent ConnectRequest → Bool
  | .recv result => recvFits result
  | _ => true

/-- What `Connect` returns when its context is done. -/
def connectDone (e : CtxErr) : Option Err := some e.statusErr

/-- What `Accept` returns when the session's context is done. -/
def acceptDone (_ : CtxErr) : Option Err := none

/-- The steps of `Connect` that touch only its own values; `offline` tells whether `a.done` is
closed. -/
def ConnectCall.next (c : ConnectCall) (offline : Bool) : ConnectLocal → Option ConnectCall
  | .call =>
    match c.pc with
    | .idle => some { c with pc := .recvOpen }
    | _ => none
  | .streamDone e => some { c with ctx := c.ctx <|> some e }
  | .recv result =>
    if recvFits result then
      match c.pc with
      | .recvOpen =>
        match result with
        | .error e => some { c with pc := .returned (some e) }
        | .ok frame => some { c with pc := openCheck frame }
      | .recvHandshake =>
        match result with
        | .error e => some { c with pc := .cancelling (some e) }
        | .ok frame => some { c with pc := handshakeCheck frame }
      | _ => none
    else none
  | .sendAssigned result =>
    match c.pc with
    | .assigning =>
      match result with
      | some e => some { c with pc := .cancelling (some e) }
      | none =>
        some { c with pc := .recvHandshake, greeting := c.greeting ++ [.sessionAssigned c.sid] }
    | _ => none
  | .agentDone =>
    match c.pc with
    | .notifying _ =>
      if offline then
        some { c with pc := .deleting (some (.status .unavailable "agent is offline")) }
      else none
    | _ => none
  | .ctxDone =>
    match c.pc, c.ctx with
    | .notifying _, some e => some { c with pc := .deleting (some e.statusErr) }
    | .awaitReady, some e => some { c with pc := .deleting (some e.statusErr) }
    | _, _ => none
  | .timeout =>
    match c.pc with
    | .notifying _ =>
      let err := Err.status .deadlineExceeded "agent notification timed out"
      some { c with pc := .deleting (some err) }
    | .awaitReady =>
      let err := Err.status .deadlineExceeded "agent handshake timed out"
      some { c with pc := .deleting (some err) }
    | _ => none
  | .ready =>
    match c.pc with
    | .awaitReady => if c.ready then some { c with pc := .accepting } else none
    | _ => none
  | .sendAccept result =>
    match c.pc with
    | .accepting =>
      match result with
      | some e => some { c with pc := .deleting (some e) }
      | none =>
        some { c with
          pc := .forwarding
          greeting := c.greeting ++ [.agentAccept protocolVersion c.sid c.agentHello]
          fwd := Handler.start }
    | _ => none
  | .forward ev =>
    if forwardFits ev then
      (c.fwd.step ConnectRequest.getCiphertext connectDone c.ctx ev).map fun h ↦
        { c with fwd := h }
    else none
  | .leave =>
    match c.pc, c.fwd.loop with
    | .forwarding, .exited result => some { c with pc := .deleting result }
    | _, _ => none
  | .cancel =>
    match c.pc with
    | .cancelling result =>
      some { c with pc := .releasing result, ctx := c.ctx <|> some .canceled }
    | _ => none

/-- The check of `Accept` on its first frame. -/
def AcceptCall.first (c : AcceptCall) : AcceptRequest → AcceptCall
  | .agentAccept version sessionId agentHello =>
    if version = protocolVersion ∧ sessionId.length = 16 ∧ agentHello.length ≠ 0 then
      { c with pc := .looking, sessionId := sessionId, agentHello := agentHello }
    else { c with
      pc := .returned (some (.status .invalidArgument "first frame must be a valid agent accept")) }
  | _ => { c with
      pc := .returned (some (.status .invalidArgument "first frame must be a valid agent accept")) }

/-- The steps of `Accept` that touch only its own values and read the session's context. -/
def AcceptCall.next (c : AcceptCall) (ctx : Option CtxErr) : AcceptLocal → Option AcceptCall
  | .call =>
    match c.pc with
    | .idle => some { c with pc := .recvFirst }
    | _ => none
  | .recv result =>
    match c.pc with
    | .recvFirst =>
      match result with
      | .error e => some { c with pc := .returned (some e) }
      | .ok frame => some (c.first frame)
    | _ => none
  | .forward ev =>
    (c.fwd.step AcceptRequest.getCiphertext acceptDone ctx ev).map fun h ↦ { c with fwd := h }
  | .leave =>
    match c.pc, c.fwd.loop with
    | .forwarding, .exited result => some { c with pc := .cancelling result }
    | _, _ => none

namespace Service

def setReg (s : Service) (r : ℕ) (c : RegisterCall) : Service :=
  { s with reg := Function.update s.reg r c }

def setConn (s : Service) (i : ℕ) (c : ConnectCall) : Service :=
  { s with conn := Function.update s.conn i c }

def setAcc (s : Service) (m : ℕ) (c : AcceptCall) : Service :=
  { s with acc := Function.update s.acc m c }

/-- `sess.cancel()`. -/
def cancelSession (s : Service) (i : ℕ) : Service :=
  s.setConn i { s.conn i with ctx := (s.conn i).ctx <|> some .canceled }

/-- `reserveAgent`. -/
def reserveAgent (cfg : Config) (s : Service) (route : Bytes) : Except Err (ℕ × Service) :=
  match s.agents.lookup route with
  | none => .error (.status .unavailable "agent is offline")
  | some a =>
    if (s.reg a).active ≥ cfg.maxTunnelsPerAgent then
      .error (.status .resourceExhausted "route tunnel capacity reached")
    else .ok (a, s.setReg a { s.reg a with active := (s.reg a).active + 1 })

/-- `releaseAgent`. -/
def releaseAgent (s : Service) (a : ℕ) : Service :=
  s.setReg a { s.reg a with active := (s.reg a).active - 1 }

/-- The first critical section of `RegisterAgent`. -/
def registerRoute (cfg : Config) (s : Service) (r : ℕ) : Service :=
  if (s.agents.keys.length : ℤ) ≥ cfg.maxAgents then
    s.setReg r { s.reg r with
      pc := .returned (.status .resourceExhausted "agent capacity reached") }
  else if (s.agents.lookup (s.reg r).route).isSome then
    s.setReg r { s.reg r with
      pc := .returned (.status .alreadyExists "route is already registered") }
  else
    { s.setReg r { s.reg r with pc := .serving } with
      agents := s.agents.insert (s.reg r).route r
      gauge := s.gauge + 1 }

/-- The deferred cleanup of `RegisterAgent` takes the mutex and gives the route up. -/
def lockCleanup (s : Service) (r : ℕ) (result : Err) : Service :=
  let held : Service := { s.setReg r { s.reg r with pc := .closing result } with mu := some r }
  if s.agents.lookup (s.reg r).route = some r then
    { held with agents := s.agents.erase (s.reg r).route, gauge := s.gauge - 1 }
  else held

/-- The sessions in the map whose agent is `r`. -/
def sessionsOf (s : Service) (r : ℕ) : List ℕ :=
  (s.sessions.entries.map Sigma.snd).filter fun i ↦ (s.conn i).agent == some r

def registerAgent (cfg : Config) (s : Service) (r : ℕ) : RegisterEvent → Option Service
  | .own ev => ((s.reg r).next ev).map (s.setReg r)
  | .register =>
    match (s.reg r).pc, s.mu with
    | .registering, none => some (s.registerRoute cfg r)
    | _, _ => none
  | .lock =>
    match (s.reg r).pc, s.mu with
    | .leaving result, none => some (s.lockCleanup r result)
    | _, _ => none
  | .closeDone =>
    match (s.reg r).pc with
    | .closing result =>
      some (s.setReg r { s.reg r with
        pc := .cancelling result (s.sessionsOf r), done := true })
    | _ => none
  | .cancelSession i =>
    match (s.reg r).pc with
    | .cancelling result todo =>
      if i ∈ todo then
        some ((s.cancelSession i).setReg r
          { s.reg r with pc := .cancelling result (todo.filter (· ≠ i)) })
      else none
    | _ => none
  | .unlock =>
    match (s.reg r).pc with
    | .cancelling result [] =>
      some { s.setReg r { s.reg r with pc := .returned result } with mu := none }
    | _ => none

/-- The `done` channel of the agent that `Connect` call `i` has reserved is closed. -/
def offline (s : Service) (i : ℕ) : Bool := (s.conn i).agent.any fun a ↦ (s.reg a).done

def connect (cfg : Config) (s : Service) (i : ℕ) : ConnectEvent → Option Service
  | .own ev => ((s.conn i).next (s.offline i) ev).map (s.setConn i)
  | .reserveAgent =>
    match (s.conn i).pc, s.mu with
    | .reserving routeId, none =>
      match s.reserveAgent cfg routeId with
      | .error e => some (s.setConn i { s.conn i with pc := .returned (some e), refused := true })
      | .ok (a, s') => some (s'.setConn i { s.conn i with pc := .allocating, agent := some a })
    | _, _ => none
  | .randRead result =>
    match (s.conn i).pc with
    | .allocating =>
      match result with
      | none => some (s.setConn i { s.conn i with
          pc := .releasing (some (.status .internal "could not allocate session")) })
      | some sid =>
        if sid.length = 16 then
          some { s.setConn i { s.conn i with pc := .assigning, sid := sid } with
            drawn := s.drawn ++ [sid] }
        else none
    | _ => none
  | .insertSession =>
    match (s.conn i).pc, s.mu with
    | .inserting clientHello, none =>
      some { s.setConn i { s.conn i with
          pc := .notifying clientHello, inserted := (s.conn i).inserted + 1 } with
        sessions := s.sessions.insert (s.conn i).sid i }
    | _, _ => none
  | .deleteSession =>
    match (s.conn i).pc, s.mu with
    | .deleting result, none =>
      some { s.setConn i { s.conn i with
          pc := .cancelling result, deleted := (s.conn i).deleted + 1 } with
        sessions := s.sessions.erase (s.conn i).sid }
    | _, _ => none
  | .releaseAgent =>
    match (s.conn i).pc, (s.conn i).agent, s.mu with
    | .releasing result, some a, none =>
      some ((s.releaseAgent a).setConn i
        { s.conn i with pc := .returned result, released := (s.conn i).released + 1 })
    | _, _, _ => none

/-- `readyOnce.Do` of `Accept`. -/
def makeReady (s : Service) (i : ℕ) (agentHello : Bytes) : Service :=
  if (s.conn i).ready then s
  else s.setConn i { s.conn i with ready := true, agentHello := agentHello }

/-- The context that the handler of `Accept` selects on. -/
def sessionCtx (s : Service) (m : ℕ) : Option CtxErr :=
  match (s.acc m).session with
  | some i => (s.conn i).ctx
  | none => none

def accept (s : Service) (m : ℕ) : AcceptEvent → Option Service
  | .own ev => ((s.acc m).next (s.sessionCtx m) ev).map (s.setAcc m)
  | .lookup =>
    match (s.acc m).pc, s.mu with
    | .looking, none =>
      match s.sessions.lookup (s.acc m).sessionId with
      | none => some (s.setAcc m { s.acc m with
          pc := .returned (some (.status .notFound "session is not pending")) })
      | some i => some ((s.makeReady i (s.acc m).agentHello).setAcc m { s.acc m with
          pc := .forwarding, session := some i, fwd := Handler.start })
    | _, _ => none
  | .cancel =>
    match (s.acc m).pc, (s.acc m).session with
    | .cancelling result, some i =>
      some ((s.cancelSession i).setAcc m { s.acc m with pc := .returned result })
    | _, _ => none

/-- The notification that `Connect` call `i` offers to its agent. -/
def notification (c : ConnectCall) (clientHello : Bytes) : RegisterAgentResponse :=
  ⟨protocolVersion, c.sid, clientHello⟩

/-- `a.incoming`: `Connect` call `i` hands its notification to the agent it has reserved. -/
def notify (s : Service) (i : ℕ) : Option Service :=
  match (s.conn i).pc, (s.conn i).agent with
  | .notifying clientHello, some a =>
    match (s.reg a).pc with
    | .serving =>
      some ((s.setReg a { s.reg a with
          pc := .sending i (notification (s.conn i) clientHello) }).setConn i
        { s.conn i with pc := .awaitReady })
    | _ => none
  | _, _ => none

/-- `sess.clientToAgent`: the session's goroutine meets the loop of `Accept` call `m`. -/
def clientToAgent (s : Service) (m : ℕ) : Option Service :=
  (s.acc m).session.bind fun i ↦ (s.conn i).fwd.handOver.bind fun (payload, from') ↦
    ((s.acc m).fwd.take payload).map fun to' ↦
      (s.setConn i { s.conn i with fwd := from' }).setAcc m { s.acc m with fwd := to' }

/-- `sess.agentToClient`: the goroutine of `Accept` call `m` meets the session's loop. -/
def agentToClient (s : Service) (m : ℕ) : Option Service :=
  (s.acc m).session.bind fun i ↦ (s.acc m).fwd.handOver.bind fun (payload, from') ↦
    ((s.conn i).fwd.take payload).map fun to' ↦
      (s.setConn i { s.conn i with fwd := to' }).setAcc m { s.acc m with fwd := from' }

def step (cfg : Config) (s : Service) : Act → Option Service
  | .register r ev => s.registerAgent cfg r ev
  | .connect i ev => s.connect cfg i ev
  | .accept m ev => s.accept m ev
  | .notify i => s.notify i
  | .clientToAgent m => s.clientToAgent m
  | .agentToClient m => s.agentToClient m

/-- `NewService` and every run of its calls. -/
def machine (cfg : Config) : Machine Service Act where
  init := {}
  step := step cfg.withDefaults

end Service

end RelayCat.Relay
