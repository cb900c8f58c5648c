import RelayCat.Automaton.Fifo
import RelayCat.Endpoint.Completion
import RelayCat.Relay.Service

/-!
# A tunnel: two endpoints and the relay between them

The client's `Bridge`, the forwarding phase of `Connect` and `Accept`, and the agent's `Bridge`,
for one session. Each endpoint talks to its handler over a gRPC stream: a queue in each direction,
the endpoint's `CloseSend`, the end that the handler's return puts after the frames it has sent,
and the reset by which gRPC answers a `Send` after `CloseSend`. Nothing fails from outside: reads,
writes and encryptions succeed, no parent context is cancelled, and the agent stays registered.
-/

namespace RelayCat

open Go Wire Noise Automaton Bridge Relay

/-- One endpoint's stream with the relay handler at its other end. `cancelled` and `finished` tell
whether the handler has run its deferred `cancel`, and whether its return has reached the
endpoint. -/
structure Leg where
  up : Fifo Bytes := {}
  down : Fifo Bytes := {}
  handler : Handler := Handler.start
  reset : Bool := false
  cancelled : Bool := false
  finished : Bool := false

/-- The session: both endpoints, both streams and the session context. -/
structure Tunnel (K : Type) where
  pair : Pair K
  leg : Side → Leg := fun _ ↦ {}
  ctx : Option CtxErr := none

namespace Tunnel

/-- gRPC's answer to a `Send` after `CloseSend`. -/
def sendAfterClose : Err := .status .internal "SendMsg called after CloseSend"

/-- What a handler's `Recv` returns once its stream is reset or its handler has returned. -/
def recvCanceled : Err := .status .canceled "context canceled"

/-- What the endpoint's `Recv` returns after the last frame. -/
def ending (leg : Leg) : Err :=
  match leg.handler.loop with
  | .exited (some e) => e.toStatus
  | _ => .eof

/-- The answers that the endpoint's stream and connection give to one of its events, and the
stream after it. -/
def exchange {K : Type} (e : Endpoint K) (leg : Leg) : Event → Option Leg
  | .send (.transmit result) =>
    match e.sender.pc with
    | .transmitting _ ciphertext =>
      if e.sendClosed then
        if result = some sendAfterClose then some { leg with reset := true } else none
      else if leg.finished then
        if result = some .eof then some leg else none
      else if result = none then some { leg with up := leg.up.push ciphertext } else none
    | _ => none
  | .recv (.receive result) =>
    match leg.down.pop with
    | some (ciphertext, down) =>
      if result = .ok ciphertext then some { leg with down := down } else none
    | none => if leg.finished ∧ result = .error (ending leg) then some leg else none
  | .send (.read _ (.failed _)) => if e.connClosed then some leg else none
  | .recv (.write (.error _)) => if e.connClosed then some leg else none
  | .bridge (.cancelParent _) => none
  | _ => some leg

/-- The answers that the handler's stream gives to one of its events, and the stream after it;
`closed` tells whether the endpoint has called `CloseSend`. -/
def answer (closed : Bool) (leg : Leg) : HandlerEvent Bytes → Option Leg
  | .recv (.ok payload) =>
    match leg.up.pop with
    | some (ciphertext, up) => if payload = ciphertext then some { leg with up := up } else none
    | none => none
  | .recv (.error e) =>
    if e = .eof then
      if leg.up.queue = [] ∧ closed then some leg else none
    else if e = recvCanceled ∧ (leg.reset ∨ leg.cancelled) then some leg
    else none
  | .send none =>
    match leg.handler.loop with
    | .sending payload => some { leg with down := leg.down.push payload }
    | _ => none
  | .send (some _) => if leg.reset then some leg else none
  | _ => some leg

/-- What the loop of each handler returns when the session context is done. -/
def onDone : Side → CtxErr → Option Err
  | .client => connectDone
  | .agent => acceptDone

inductive Act where
  | endpoint (side : Side) (ev : Event)
  | relay (side : Side) (ev : HandlerEvent Bytes)
  | cross (side : Side)
  | cancel (side : Side)
  | finish (side : Side)
  | abort
  deriving DecidableEq, Repr

variable {K : Type}

def setLeg (s : Tunnel K) (side : Side) (leg : Leg) : Tunnel K :=
  { s with leg := Function.update s.leg side leg }

/-- A step of one endpoint; `sendPlain` is assumed not to fail. -/
def stepEndpoint [DecidableEq K] (libs : Libs K) (s : Tunnel K) (side : Side) (ev : Event) :
    Option (Tunnel K) :=
  (exchange (s.pair.endpoint side) (s.leg side) ev).bind fun leg ↦
    (s.pair.step libs (side, ev)).bind fun pair ↦
      if ev = .send .sendPlain ∧ (pair.endpoint side).sender.pc = .returned then none
      else some { s.setLeg side leg with pair := pair }

/-- A step of one handler on its own stream. -/
def stepRelay (s : Tunnel K) (side : Side) (ev : HandlerEvent Bytes) : Option (Tunnel K) :=
  (answer (s.pair.endpoint side).sendClosed (s.leg side) ev).bind fun leg ↦
    ((s.leg side).handler.step some (onDone side) s.ctx ev).map fun handler ↦
      s.setLeg side { leg with handler := handler }

/-- The goroutine of one handler meets the loop of the other. -/
def stepCross (s : Tunnel K) (side : Side) : Option (Tunnel K) :=
  (s.leg side).handler.handOver.bind fun (payload, pumped) ↦
    ((s.leg side.peer).handler.take payload).map fun taking ↦
      (s.setLeg side { s.leg side with handler := pumped }).setLeg side.peer
        { s.leg side.peer with handler := taking }

def step [DecidableEq K] (libs : Libs K) (s : Tunnel K) : Act → Option (Tunnel K)
  | .endpoint side ev => s.stepEndpoint libs side ev
  | .relay side ev => s.stepRelay side ev
  | .cross side => s.stepCross side
  | .cancel side =>
    match (s.leg side).handler.loop with
    | .exited _ =>
      some { s.setLeg side { s.leg side with cancelled := true } with
        ctx := s.ctx <|> some .canceled }
    | _ => none
  | .finish side =>
    if (s.leg side).cancelled then some (s.setLeg side { s.leg side with finished := true })
    else none
  | .abort => if (s.leg .client).reset then some { s with ctx := s.ctx <|> some .canceled } else none

/-- The tunnel once both handlers forward and both `Bridge` calls have started. -/
def machine [DecidableEq K] (libs : Libs K) (split : Split K) (canCloseWrite : Side → Bool) :
    Machine (Tunnel K) Act where
  init := { pair := Pair.start split canCloseWrite }
  step := step libs

end Tunnel

end RelayCat
