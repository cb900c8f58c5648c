import RelayCat.Noise.Transport
import RelayCat.Wire.Messages

/-!
# One endpoint running `Bridge`

`Bridge` starts `sendLoop` and `recvLoop` on one TCP connection and one ciphertext stream.
Each of the three threads is a step function: an event is one operation of the thread
together with what the outside world answered (bytes of the local connection, results of
the stream, the choice of a `select`). The thread-local state keeps histories of what was
read, sealed, sent, opened and written; no step reads a history.
-/

namespace RelayCat.Bridge

open Go Wire Noise

/-- `chunkSize`. -/
def chunkSize : ℕ := 32 * 1024

/-- `proto.Marshal` and `proto.Unmarshal` on plaintext frames. -/
structure Codec where
  marshal : PlainFrame → Option Bytes
  unmarshal : Bytes → Option PlainFrame
  round_trip : ∀ frame b, marshal frame = some b → unmarshal b = some frame

/-- The libraries an endpoint calls. -/
structure Libs (K : Type) where
  codec : Codec
  cipher : Cipher K

/-- The error that `conn.Read` returned next to its bytes. -/
inductive ReadErr where
  | nil
  | eof
  | failed (e : Err)
  deriving DecidableEq, Repr

/-- The three places where `sendLoop` calls `sendPlain`. -/
inductive Stage where
  | data (chunk : Bytes) (readErr : ReadErr)
  | halfClose
  | close
  deriving DecidableEq, Repr

/-- The frame that `sendLoop` builds at each of them. -/
def Stage.frame : Stage → PlainFrame
  | .data chunk _ => .data chunk
  | .halfClose => .halfClose
  | .close => .close .normal ""

inductive SendPc where
  | reading
  | sealing (stage : Stage)
  | transmitting (stage : Stage) (ciphertext : Bytes)
  | waiting
  | returned
  deriving DecidableEq, Repr

/-- `sendLoop`: control point, then the bytes and the EOF it has read, the frames it has
encrypted, and the frames whose `SendCiphertext` succeeded. -/
structure Sender where
  pc : SendPc := .reading
  read : Bytes := []
  readEOF : Bool := false
  sealed : List PlainFrame := []
  sent : List PlainFrame := []
  deriving DecidableEq, Repr

inductive RecvPc where
  | receiving
  | opening (ciphertext : Bytes)
  | writing (data : Bytes)
  | halfClosing
  | closing (code : CloseCode) (message : String)
  | checking
  | returned
  deriving DecidableEq, Repr

/-- `recvLoop`: control point, then the frames it has decrypted and parsed, the bytes it has
written to the local connection, and whether it has called `CloseWrite`. -/
structure Receiver where
  pc : RecvPc := .receiving
  opened : List PlainFrame := []
  written : Bytes := []
  closeWrite : Bool := false
  deriving DecidableEq, Repr

/-- The body of `Bridge` after it has started the loops. -/
inductive BridgePc where
  | waitFirst
  | cancelling (first : Option Err)
  | closingConn (first : Option Err)
  | closingSend (first : Option Err)
  | waitSecond (first : Option Err)
  | returned (result : Option Err)
  deriving DecidableEq, Repr

/-- One running `Bridge`. `errCh` is the buffered channel of loop results, `ctx` the derived
context, `streamErrors` the errors that the stream has returned so far. -/
structure Endpoint (K : Type) where
  crypt : Transport K
  canCloseWrite : Bool := true
  sender : Sender := {}
  receiver : Receiver := {}
  bridge : BridgePc := .waitFirst
  errCh : List (Option Err) := []
  ctx : Option CtxErr := none
  remoteEOF : Bool := false
  connClosed : Bool := false
  sendClosed : Bool := false
  parentDone : Bool := false
  streamErrors : List Err := []
  deriving DecidableEq, Repr

inductive SendEvent where
  | read (chunk : Bytes) (readErr : ReadErr)
  | sendPlain
  | transmit (result : Option Err)
  | remoteDone
  | ctxDone
  deriving DecidableEq, Repr

inductive RecvEvent where
  | receive (result : Except Err Bytes)
  | decrypt
  | write (result : Except (ℕ × Err) Unit)
  | halfClose
  | close
  | check
  deriving DecidableEq, Repr

inductive BridgeEvent where
  | first
  | cancel
  | closeConn
  | closeSend
  | second
  | cancelParent (e : CtxErr)
  deriving DecidableEq, Repr

inductive Event where
  | send (e : SendEvent)
  | recv (e : RecvEvent)
  | bridge (e : BridgeEvent)
  deriving DecidableEq, Repr

/-- Errors of the local TCP connection: `net.ErrClosed` exactly after `conn.Close`, never a
context error, and an end of file is reported as `io.EOF` only. -/
def connErr (closed : Bool) (e : Err) : Bool :=
  e.is .netClosed == closed && !e.is .eof && !e.is .canceled

/-- Results that `conn.Read` can return: at most one buffer, and only an error once closed. -/
def readAllowed (closed : Bool) (chunk : Bytes) : ReadErr → Bool
  | .failed e => decide (chunk.length ≤ chunkSize) && connErr closed e && (!closed || chunk == [])
  | _ => decide (chunk.length ≤ chunkSize) && !closed

/-- Results that `conn.Write` can return. -/
def writeAllowed (closed : Bool) : Except (ℕ × Err) Unit → Bool
  | .ok () => !closed
  | .error (_, e) => connErr closed e

/-- `isNormalClose`. -/
def isNormalClose (e : Err) : Bool := e.is .canceled || e.is .eof || e.is .netClosed

/-- What `Bridge` returns for the two loop results, in the order they arrived. -/
def bridgeResult (first second : Option Err) : Option Err :=
  match first.filter fun e ↦ !isNormalClose e with
  | some e => some e
  | none => second.filter fun e ↦ !isNormalClose e

namespace Endpoint

variable {K : Type}

/-- The goroutine of `sendLoop` puts its result on `errCh`. -/
def sendReturn (e : Endpoint K) (result : Option Err) : Endpoint K :=
  { e with sender := { e.sender with pc := .returned }, errCh := e.errCh ++ [result] }

/-- The goroutine of `recvLoop` puts its result on `errCh`. -/
def recvReturn (e : Endpoint K) (result : Option Err) : Endpoint K :=
  { e with receiver := { e.receiver with pc := .returned }, errCh := e.errCh ++ [result] }

def sendAt (e : Endpoint K) (pc : SendPc) : Endpoint K :=
  { e with sender := { e.sender with pc := pc } }

def recvAt (e : Endpoint K) (pc : RecvPc) : Endpoint K :=
  { e with receiver := { e.receiver with pc := pc } }

/-- `sendLoop` after the bytes of one `conn.Read` are dealt with. -/
def afterRead (e : Endpoint K) : ReadErr → Endpoint K
  | .nil => e.sendAt .reading
  | .eof => e.sendAt (.sealing .halfClose)
  | .failed err => e.sendReturn (some (.errorf "reading TCP connection" err))

/-- `sendLoop` after a `SendCiphertext` that returned nil. -/
def afterSend (e : Endpoint K) : Stage → Endpoint K
  | .data _ readErr => e.afterRead readErr
  | .halfClose => e.sendAt .waiting
  | .close => e.sendReturn none

/-- `sendLoop` takes the result of `conn.Read`. -/
def noteRead (e : Endpoint K) (chunk : Bytes) (readErr : ReadErr) : Endpoint K :=
  { e with sender := { e.sender with
      read := e.sender.read ++ chunk, readEOF := e.sender.readEOF || readErr == .eof } }

/-- `sendPlain` has a ciphertext to hand to the stream. -/
def sealFrame (e : Endpoint K) (crypt : Transport K) (stage : Stage) (ciphertext : Bytes) :
    Endpoint K :=
  { e with
    crypt := crypt
    sender := { e.sender with
      pc := .transmitting stage ciphertext
      sealed := e.sender.sealed ++ [stage.frame] } }

/-- `SendCiphertext` returned nil. -/
def noteSent (e : Endpoint K) (stage : Stage) : Endpoint K :=
  { e with sender := { e.sender with sent := e.sender.sent ++ [stage.frame] } }

/-- The stream returned an error. -/
def noteStreamError (e : Endpoint K) (err : Err) : Endpoint K :=
  { e with streamErrors := e.streamErrors ++ [err] }

/-- `proto.Marshal` and `crypt.Encrypt` of `sendPlain`; `SendCiphertext` is the next step. -/
def sendPlain [DecidableEq K] (libs : Libs K) (ledger : Ledger K) (e : Endpoint K)
    (stage : Stage) : Ledger K × Endpoint K :=
  match libs.codec.marshal stage.frame with
  | none => (ledger, e.sendReturn (some (.errorf "encoding frame" (.new "proto: marshal failed"))))
  | some plaintext =>
    match e.crypt.encrypt libs.cipher ledger plaintext with
    | .error err => (ledger, e.sendReturn (some err))
    | .ok (ciphertext, ledger', crypt) =>
      (ledger', e.sealFrame crypt stage ciphertext)

/-- One step of `sendLoop`. -/
def sendLoop [DecidableEq K] (libs : Libs K) (ledger : Ledger K) (e : Endpoint K) :
    SendEvent → Option (Ledger K × Endpoint K)
  | .read chunk readErr =>
    match e.sender.pc with
    | .reading =>
      if readAllowed e.connClosed chunk readErr then
        let e := e.noteRead chunk readErr
        some (ledger, if chunk = [] then e.afterRead readErr
          else e.sendAt (.sealing (.data chunk readErr)))
      else none
    | _ => none
  | .sendPlain =>
    match e.sender.pc with
    | .sealing stage => some (e.sendPlain libs ledger stage)
    | _ => none
  | .transmit result =>
    match e.sender.pc with
    | .transmitting stage _ =>
      match result with
      | some err => some (ledger, (e.noteStreamError err).sendReturn (some err))
      | none => some (ledger, (e.noteSent stage).afterSend stage)
    | _ => none
  | .remoteDone =>
    match e.sender.pc with
    | .waiting => if e.remoteEOF then some (ledger, e.sendAt (.sealing .close)) else none
    | _ => none
  | .ctxDone =>
    match e.sender.pc, e.ctx with
    | .waiting, some err => some (ledger, e.sendReturn (some err.err))
    | _, _ => none

/-- `recvLoop` has decrypted and parsed a frame. -/
def noteOpened (e : Endpoint K) (crypt : Transport K) (frame : PlainFrame) : Endpoint K :=
  { e with
    crypt := crypt
    receiver := { e.receiver with opened := e.receiver.opened ++ [frame] } }

/-- `conn.Write` accepted some bytes. -/
def noteWritten (e : Endpoint K) (bytes : Bytes) : Endpoint K :=
  { e with receiver := { e.receiver with written := e.receiver.written ++ bytes } }

/-- `recvLoop` handles `HalfClose`: `CloseWrite` where the connection has it, then
`remoteEOF`. -/
def halfClosed (e : Endpoint K) : Endpoint K :=
  { e with
    remoteEOF := true
    receiver := { e.receiver with
      pc := .checking, closeWrite := e.receiver.closeWrite || e.canCloseWrite } }

/-- `recvLoop`'s switch on a parsed frame. -/
def onFrame (e : Endpoint K) : PlainFrame → Endpoint K
  | .data [] => e.recvAt .receiving
  | .data (b :: bs) => e.recvAt (.writing (b :: bs))
  | .halfClose => e.recvAt .halfClosing
  | .close code message => e.recvAt (.closing code message)
  | .unset => e.recvReturn (some (.new "empty encrypted frame"))

/-- `crypt.Decrypt` and `proto.Unmarshal` of `recvLoop`. -/
def openFrame (libs : Libs K) (ledger : Ledger K) (e : Endpoint K) (ciphertext : Bytes) :
    Endpoint K :=
  match e.crypt.decrypt ledger ciphertext with
  | .error err => e.recvReturn (some err)
  | .ok (plaintext, crypt) =>
    match libs.codec.unmarshal plaintext with
    | none => { e with crypt := crypt }.recvReturn (some (.new "invalid encrypted frame"))
    | some frame => (e.noteOpened crypt frame).onFrame frame

/-- One step of `recvLoop`. -/
def recvLoop (libs : Libs K) (ledger : Ledger K) (e : Endpoint K) :
    RecvEvent → Option (Endpoint K)
  | .receive result =>
    match e.receiver.pc with
    | .receiving =>
      match result with
      | .error err => some ((e.noteStreamError err).recvReturn (some err))
      | .ok ciphertext => some (e.recvAt (.opening ciphertext))
    | _ => none
  | .decrypt =>
    match e.receiver.pc with
    | .opening ciphertext => some (e.openFrame libs ledger ciphertext)
    | _ => none
  | .write result =>
    match e.receiver.pc with
    | .writing data =>
      if writeAllowed e.connClosed result then
        match result with
        | .ok () => some ((e.noteWritten data).recvAt .checking)
        | .error (n, err) =>
          some ((e.noteWritten (data.take n)).recvReturn
            (some (.errorf "writing TCP connection" err)))
      else none
    | _ => none
  | .halfClose =>
    match e.receiver.pc with
    | .halfClosing =>
      some e.halfClosed
    | _ => none
  | .close =>
    match e.receiver.pc with
    | .closing code message =>
      some ({ e with remoteEOF := true }.recvReturn
        (if code = CloseCode.normal then none else some (.new ("remote closed tunnel: " ++ message))))
    | _ => none
  | .check =>
    match e.receiver.pc with
    | .checking =>
      match e.ctx with
      | some err => some (e.recvReturn (some err.err))
      | none => some (e.recvAt .receiving)
    | _ => none

/-- One step of `Bridge` itself, or the cancellation of its parent context. -/
def bridgeLoop (e : Endpoint K) : BridgeEvent → Option (Endpoint K)
  | .first =>
    match e.bridge, e.errCh with
    | .waitFirst, result :: rest => some { e with bridge := .cancelling result, errCh := rest }
    | _, _ => none
  | .cancel =>
    match e.bridge with
    | .cancelling first =>
      some { e with bridge := .closingConn first, ctx := e.ctx <|> some .canceled }
    | _ => none
  | .closeConn =>
    match e.bridge with
    | .closingConn first => some { e with bridge := .closingSend first, connClosed := true }
    | _ => none
  | .closeSend =>
    match e.bridge with
    | .closingSend first => some { e with bridge := .waitSecond first, sendClosed := true }
    | _ => none
  | .second =>
    match e.bridge, e.errCh with
    | .waitSecond first, result :: rest =>
      some { e with bridge := .returned (bridgeResult first result), errCh := rest }
    | _, _ => none
  | .cancelParent err =>
    some { e with parentDone := true, ctx := e.ctx <|> some err }

/-- One step of the endpoint, with the ledger of the cipher it runs over. -/
def step [DecidableEq K] (libs : Libs K) (ledger : Ledger K) (e : Endpoint K) :
    Event → Option (Ledger K × Endpoint K)
  | .send ev => e.sendLoop libs ledger ev
  | .recv ev => (e.recvLoop libs ledger ev).map fun e' ↦ (ledger, e')
  | .bridge ev => (e.bridgeLoop ev).map fun e' ↦ (ledger, e')

end Endpoint

end RelayCat.Bridge
