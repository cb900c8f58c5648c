import RelayCat.Go.Utf8

/-!
# The Noise handshake, symbolically

`StartInitiator`, `Respond` and `Initiator.Finish` over a handshake library that is a
parameter. What the library guarantees is said through the history of handshake messages that
anyone has written: a message is read only if some party wrote it under the same key and
prologue, and an answer only if its writer had read the first message it is an answer to.
Nothing is assumed about the bytes of messages, so they may be copied, replayed and mixed.

The prologue is the concatenation of a tag, the route id and the session id without
separators. It determines both ids because route ids all have the same length.
-/

namespace RelayCat.Noise.Handshake

open Go Utf8

def prologue (routeID sessionID : Bytes) : Bytes :=
  literal "relaycat/v1" ++ routeID ++ sessionID

theorem prologue_inj {routeID routeID' sessionID sessionID' : Bytes}
    (hlength : routeID.length = routeID'.length)
    (h : prologue routeID sessionID = prologue routeID' sessionID') :
    routeID = routeID' ∧ sessionID = sessionID' := by
  simp only [prologue, List.append_assoc] at h
  exact List.append_inj (List.append_cancel_left h) hlength

/-- A handshake message with what its writer was given. -/
inductive Message where
  | first (psk prologue message : Bytes)
  | second (psk prologue first message : Bytes)
  deriving DecidableEq, Repr

/-- The key under which a message was written. -/
def Message.psk : Message → Bytes
  | first psk _ _ => psk
  | second psk _ _ _ => psk

/-- The library: which keys `NewHandshakeState` takes, and which messages the two calls of
`ReadMessage` accept after a history of written messages. -/
structure Library where
  newHandshakeState : Bytes → Bool
  readFirst (history : List Message) (psk prologue message : Bytes) : Bool
  readSecond (history : List Message) (psk prologue first message : Bytes) : Bool

/-- Only messages written under the reader's key and prologue are read. -/
structure Library.Authentic (noise : Library) : Prop where
  first {history : List Message} {psk prologue message : Bytes} :
    noise.readFirst history psk prologue message = true → .first psk prologue message ∈ history
  second {history : List Message} {psk prologue first message : Bytes} :
    noise.readSecond history psk prologue first message = true →
      .second psk prologue first message ∈ history

/-- The library that reads exactly what was written. -/
def ideal : Library where
  newHandshakeState psk := psk.length = 32
  readFirst history psk prologue message := Message.first psk prologue message ∈ history
  readSecond history psk prologue first message :=
    Message.second psk prologue first message ∈ history

theorem ideal_authentic : ideal.Authentic := ⟨of_decide_eq_true, of_decide_eq_true⟩

/-- An `Initiator` after its first message. -/
structure Initiator where
  psk : Bytes
  prologue : Bytes
  hello : Bytes
  deriving DecidableEq, Repr

variable (noise : Library) (history : List Message)

/-- `StartInitiator`; `write` is what `WriteMessage` returns. -/
def startInitiator (psk routeID sessionID : Bytes) (write : Except Err Bytes) :
    Except Err Initiator :=
  if noise.newHandshakeState psk then
    match write with
    | .error err => .error (.errorf "writing noise client hello" err)
    | .ok hello => .ok ⟨psk, prologue routeID sessionID, hello⟩
  else .error (.errorf "creating noise initiator" (.new "noise: invalid preshared key"))

/-- `Initiator.Finish`. -/
def Initiator.finish (i : Initiator) (agentHello : Bytes) : Except Err Unit :=
  if noise.readSecond history i.psk i.prologue i.hello agentHello then .ok ()
  else .error (.errorf "verifying noise agent hello" (.new "noise: message authentication failed"))

/-- `Respond`; `write` is what `WriteMessage` returns. -/
def respond (psk routeID sessionID clientHello : Bytes) (write : Except Err Bytes) :
    Except Err Bytes :=
  if noise.newHandshakeState psk then
    if noise.readFirst history psk (prologue routeID sessionID) clientHello then
      match write with
      | .error err => .error (.errorf "writing noise agent hello" err)
      | .ok hello => .ok hello
    else
      .error (.errorf "verifying noise client hello" (.new "noise: message authentication failed"))
  else .error (.errorf "creating noise responder" (.new "noise: invalid preshared key"))

variable {noise history}

theorem startInitiator_ok {psk routeID sessionID : Bytes} {write : Except Err Bytes}
    {i : Initiator} (h : startInitiator noise psk routeID sessionID write = .ok i) :
    i = ⟨psk, prologue routeID sessionID, i.hello⟩ := by
  unfold startInitiator at h
  split_ifs at h
  split at h
  · cases h
  · cases h
    rfl

theorem Initiator.finish_ok (hnoise : noise.Authentic) {i : Initiator} {agentHello : Bytes}
    (h : i.finish noise history agentHello = .ok ()) :
    .second i.psk i.prologue i.hello agentHello ∈ history := by
  unfold Initiator.finish at h
  split_ifs at h with hread
  exact hnoise.second hread

theorem respond_ok (hnoise : noise.Authentic) {psk routeID sessionID clientHello hello : Bytes}
    {write : Except Err Bytes}
    (h : respond noise history psk routeID sessionID clientHello write = .ok hello) :
    .first psk (prologue routeID sessionID) clientHello ∈ history := by
  unfold respond at h
  split_ifs at h with hnew hread
  exact hnoise.first hread

end RelayCat.Noise.Handshake
