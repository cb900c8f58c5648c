import RelayCat.Go.Errors
import RelayCat.Protobuf.Wire

/-!
# Messages of `relay.v1`

The protobuf messages that the relay and the endpoints exchange. A `oneof` body is an
inductive type with one constructor per member and one for the unset body, so the
generated getters are total functions that answer `none` for every other member.
-/

namespace RelayCat.Wire

open Go Protobuf

/-- `accesscode.ProtocolVersion`. -/
def protocolVersion : ℕ := 1

/-- `accesscode.RouteIDSize`. -/
def routeIDSize : ℕ := 16

structure RegisterAgentRequest where
  protocolVersion : ℕ
  routeId : Bytes
  deriving DecidableEq, Repr

structure RegisterAgentResponse where
  protocolVersion : ℕ
  sessionId : Bytes
  clientHello : Bytes
  deriving DecidableEq, Repr

inductive ConnectRequest where
  | clientOpen (protocolVersion : ℕ) (routeId : Bytes)
  | clientHandshake (clientHello : Bytes)
  | ciphertext (payload : Bytes)
  | unset
  deriving DecidableEq, Repr

inductive ConnectResponse where
  | sessionAssigned (sessionId : Bytes)
  | agentAccept (protocolVersion : ℕ) (sessionId agentHello : Bytes)
  | ciphertext (payload : Bytes)
  deriving DecidableEq, Repr

inductive AcceptRequest where
  | agentAccept (protocolVersion : ℕ) (sessionId agentHello : Bytes)
  | ciphertext (payload : Bytes)
  | unset
  deriving DecidableEq, Repr

inductive CloseCode where
  | unspecified
  | normal
  | targetUnreachable
  | idleTimeout
  | internal
  deriving DecidableEq, Repr

/-- The plaintext frames inside the Noise transport. -/
inductive PlainFrame where
  | data (bytes : Bytes)
  | halfClose
  | close (code : CloseCode) (message : String)
  | unset
  deriving DecidableEq, Repr

/-- `GetCiphertext`, with the payload of the message it returns. -/
def ConnectRequest.getCiphertext : ConnectRequest → Option Bytes
  | .ciphertext payload => some payload
  | _ => none

def AcceptRequest.getCiphertext : AcceptRequest → Option Bytes
  | .ciphertext payload => some payload
  | _ => none

/-- `proto.Marshal` of a notification. -/
def RegisterAgentResponse.marshal (m : RegisterAgentResponse) : Bytes :=
  uintField 1 m.protocolVersion ++ bytesField 2 m.sessionId ++ bytesField 3 m.clientHello

/-- `proto.Marshal` of a client frame. -/
def ConnectRequest.marshal : ConnectRequest → Bytes
  | .clientOpen version routeId => delimited 1 (uintField 1 version ++ bytesField 2 routeId)
  | .clientHandshake clientHello => delimited 2 (bytesField 1 clientHello)
  | .ciphertext payload => delimited 3 (bytesField 1 payload)
  | .unset => []

end RelayCat.Wire
