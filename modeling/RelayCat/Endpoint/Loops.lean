import RelayCat.Endpoint.Bridge
import Mathlib.Data.List.Infix

/-!
# Invariants of the two loops of one endpoint

What `sendLoop` has sealed is a chunking of what it has read, followed by at most one
`HalfClose` and at most one normal `Close`, both only after the end of file. What `recvLoop`
has written is the data of the frames it has opened, up to a write that failed. Neither fact
mentions the peer or the relay.
-/

namespace RelayCat.Bridge

open Go Wire Noise

/-- The bytes a frame carries. -/
def payload : PlainFrame → Bytes
  | .data bytes => bytes
  | _ => []

/-- The frames that end the peer's direction. -/
def isControl : PlainFrame → Bool
  | .halfClose => true
  | .close _ _ => true
  | _ => false

@[simp] theorem isControl_data (bytes : Bytes) : isControl (.data bytes) = false := rfl

@[simp] theorem isControl_halfClose : isControl .halfClose = true := rfl

@[simp] theorem isControl_close (code : CloseCode) (message : String) :
    isControl (.close code message) = true := rfl

@[simp] theorem isControl_unset : isControl .unset = false := rfl

def hasControl (frames : List PlainFrame) : Bool := frames.any isControl

@[simp] theorem hasControl_append (left right : List PlainFrame) :
    hasControl (left ++ right) = (hasControl left || hasControl right) := by
  simp [hasControl]

@[simp] theorem hasControl_singleton (frame : PlainFrame) :
    hasControl [frame] = isControl frame := by
  simp [hasControl]

def dataOf (frames : List PlainFrame) : Bytes := frames.flatMap payload

@[simp] theorem dataOf_nil : dataOf [] = [] := rfl

@[simp] theorem dataOf_append (left right : List PlainFrame) :
    dataOf (left ++ right) = dataOf left ++ dataOf right := by
  simp [dataOf]

@[simp] theorem dataOf_singleton (frame : PlainFrame) : dataOf [frame] = payload frame := by
  simp [dataOf]

@[simp] theorem dataOf_data (chunks : List Bytes) :
    dataOf (chunks.map PlainFrame.data) = chunks.flatten := by
  induction chunks with
  | nil => rfl
  | cons chunk chunks ih => simpa [dataOf, payload] using ih

/-- The two control frames that `sendLoop` sends, in the order it sends them. -/
def farewell : List PlainFrame := [.halfClose, .close .normal ""]

theorem dataOf_of_prefix_farewell {controls : List PlainFrame} (h : controls <+: farewell) :
    dataOf controls = [] := by
  have hdata : dataOf farewell = [] := rfl
  have hpre : dataOf controls <+: dataOf farewell := h.flatMap payload
  rw [hdata] at hpre
  exact List.prefix_nil.mp hpre

/-- The control frames sealed by the time `sendLoop` is at this point. -/
def SendPc.controls : SendPc → List PlainFrame
  | .transmitting .halfClose _ => [.halfClose]
  | .waiting => [.halfClose]
  | .sealing .close => [.halfClose]
  | .transmitting .close _ => farewell
  | _ => []

/-- Bytes that `sendLoop` has read and not yet sealed. -/
def SendPc.pending : SendPc → Bytes
  | .sealing (.data chunk _) => chunk
  | _ => []

/-- Whether the last `conn.Read` reported the end of file. -/
def SendPc.seenEOF : SendPc → Bool
  | .reading => false
  | .sealing (.data _ readErr) => readErr == .eof
  | .transmitting (.data _ readErr) _ => readErr == .eof
  | _ => true

/-- The sealed frame whose `SendCiphertext` has not returned. -/
def SendPc.inFlight : SendPc → List PlainFrame
  | .transmitting stage _ => [stage.frame]
  | _ => []

/-- The sealed frames are chunks of data and then `controls`; with `pending` they account for
every byte read. -/
def Sender.Shape (t : Sender) (controls : List PlainFrame) (pending : Bytes) : Prop :=
  ∃ chunks : List Bytes, t.sealed = chunks.map .data ++ controls ∧ chunks.flatten ++ pending = t.read

/-- What stays true of `sendLoop` after it has returned. -/
def Sender.Settled (t : Sender) : Prop :=
  (∃ controls pending, controls <+: farewell ∧ t.Shape controls pending ∧
    (controls ≠ [] → t.readEOF = true ∧ pending = [])) ∧
  ∃ rest : List PlainFrame, t.sealed = t.sent ++ rest ∧ rest.length ≤ 1

structure Sender.Running (t : Sender) : Prop where
  shape : t.Shape t.pc.controls t.pc.pending
  eof : t.readEOF = t.pc.seenEOF
  sent : t.sealed = t.sent ++ t.pc.inFlight

structure Sender.Inv (t : Sender) : Prop where
  running : t.pc ≠ .returned → t.Running
  settled : t.Settled

theorem SendPc.controls_prefix_farewell (pc : SendPc) : pc.controls <+: farewell := by
  rcases pc with _ | stage | ⟨stage, ciphertext⟩ | _ | _ <;> try cases stage
  all_goals simp [SendPc.controls, farewell]

theorem SendPc.seenEOF_of_controls (pc : SendPc) (h : pc.controls ≠ []) :
    pc.seenEOF = true ∧ pc.pending = [] := by
  rcases pc with _ | stage | ⟨stage, ciphertext⟩ | _ | _ <;> try cases stage
  all_goals simp_all [SendPc.controls, SendPc.seenEOF, SendPc.pending]

theorem SendPc.inFlight_length (pc : SendPc) : pc.inFlight.length ≤ 1 := by
  cases pc <;> simp [SendPc.inFlight]

theorem Sender.Running.settled {t : Sender} (h : t.Running) : t.Settled := by
  refine ⟨⟨t.pc.controls, t.pc.pending, t.pc.controls_prefix_farewell, h.shape, ?_⟩,
    t.pc.inFlight, h.sent, t.pc.inFlight_length⟩
  intro hcontrols
  obtain ⟨heof, hpending⟩ := t.pc.seenEOF_of_controls hcontrols
  exact ⟨by rw [h.eof, heof], hpending⟩

theorem Sender.Running.inv {t : Sender} (h : t.Running) : t.Inv := ⟨fun _ ↦ h, h.settled⟩

/-- Returning from any point keeps the history. -/
theorem Sender.Inv.returned {t : Sender} (h : t.Inv) : { t with pc := .returned }.Inv :=
  ⟨fun hne ↦ absurd rfl hne, h.settled⟩

theorem Sender.inv_init : Sender.Inv {} :=
  Sender.Running.inv ⟨⟨[], rfl, rfl⟩, rfl, rfl⟩

/-- Bytes of an opened data frame that are not written yet. -/
def RecvPc.unwritten : RecvPc → Bytes
  | .writing data => data
  | _ => []

/-- `recvLoop` has a control frame in hand and has not closed `remoteEOF` for it. -/
def RecvPc.atControl : RecvPc → Bool
  | .halfClosing => true
  | .closing _ _ => true
  | _ => false

namespace Endpoint

variable {K : Type}

@[simp] theorem sendReturn_sender (e : Endpoint K) (result : Option Err) :
    (e.sendReturn result).sender = { e.sender with pc := .returned } := rfl

@[simp] theorem sendAt_sender (e : Endpoint K) (pc : SendPc) :
    (e.sendAt pc).sender = { e.sender with pc := pc } := rfl

/-- With nothing pending, `sendLoop` may go on from the error that came with the last read. -/
theorem afterRead_sender_inv {e : Endpoint K} {readErr : ReadErr}
    (hshape : e.sender.Shape [] []) (heof : e.sender.readEOF = (readErr == .eof))
    (hsent : e.sender.sealed = e.sender.sent) : (e.afterRead readErr).sender.Inv := by
  have hsent' : e.sender.sealed = e.sender.sent ++ [] := by rw [hsent, List.append_nil]
  cases readErr with
  | nil => exact Sender.Running.inv ⟨hshape, heof, hsent'⟩
  | eof => exact Sender.Running.inv ⟨hshape, heof, hsent'⟩
  | failed err =>
    refine ⟨fun hne ↦ absurd rfl hne, ⟨[], [], List.nil_prefix, hshape, ?_⟩, [], hsent', ?_⟩
    · exact fun hne ↦ absurd rfl hne
    · simp

/-- `sendPlain` either ends `sendLoop` with an error that is not a normal close, or seals
exactly one frame under the next counter. -/
theorem sendPlain_cases [DecidableEq K] (libs : Libs K) (ledger : Ledger K) (e : Endpoint K)
    (stage : Stage) :
    (∃ err, isNormalClose err = false ∧
      e.sendPlain libs ledger stage = (ledger, e.sendReturn (some err))) ∨
    ∃ plaintext ciphertext, libs.codec.marshal stage.frame = some plaintext ∧
      e.sendPlain libs ledger stage =
        (Function.update ledger e.crypt.send.key
          (ledger e.crypt.send.key ++ [⟨plaintext, ciphertext⟩]),
        e.sealFrame e.crypt.sent stage ciphertext) := by
  unfold sendPlain
  split
  · exact .inl ⟨_, rfl, rfl⟩
  · rename_i plaintext hmarshal
    split
    · rename_i err herr
      unfold Transport.encrypt at herr
      split at herr
      · cases herr
        exact .inl ⟨_, rfl, rfl⟩
      · contradiction
    · rename_i ciphertext ledger' crypt hok
      obtain ⟨rfl, rfl⟩ := Transport.encrypt_ok hok
      exact .inr ⟨plaintext, ciphertext, hmarshal, rfl⟩

/-- Everything a step of `sendLoop` can do. -/
inductive SendMove [DecidableEq K] (libs : Libs K) (ledger : Ledger K) (e : Endpoint K) :
    SendEvent → Ledger K → Endpoint K → Prop
  | readEmpty (readErr : ReadErr) : e.sender.pc = .reading →
      readAllowed e.connClosed [] readErr = true →
      SendMove libs ledger e (.read [] readErr) ledger ((e.noteRead [] readErr).afterRead readErr)
  | readData (chunk : Bytes) (readErr : ReadErr) : e.sender.pc = .reading →
      readAllowed e.connClosed chunk readErr = true → chunk ≠ [] →
      SendMove libs ledger e (.read chunk readErr) ledger
        ((e.noteRead chunk readErr).sendAt (.sealing (.data chunk readErr)))
  | sealFailed (stage : Stage) (err : Err) : e.sender.pc = .sealing stage →
      isNormalClose err = false →
      SendMove libs ledger e .sendPlain ledger (e.sendReturn (some err))
  | sealed (stage : Stage) (plaintext ciphertext : Bytes) : e.sender.pc = .sealing stage →
      libs.codec.marshal stage.frame = some plaintext →
      SendMove libs ledger e .sendPlain
        (Function.update ledger e.crypt.send.key
          (ledger e.crypt.send.key ++ [⟨plaintext, ciphertext⟩]))
        (e.sealFrame e.crypt.sent stage ciphertext)
  | transmitFailed (stage : Stage) (ciphertext : Bytes) (err : Err) :
      e.sender.pc = .transmitting stage ciphertext →
      SendMove libs ledger e (.transmit (some err)) ledger
        ((e.noteStreamError err).sendReturn (some err))
  | transmitted (stage : Stage) (ciphertext : Bytes) :
      e.sender.pc = .transmitting stage ciphertext →
      SendMove libs ledger e (.transmit none) ledger ((e.noteSent stage).afterSend stage)
  | remoteDone : e.sender.pc = .waiting → e.remoteEOF = true →
      SendMove libs ledger e .remoteDone ledger (e.sendAt (.sealing .close))
  | ctxDone (err : CtxErr) : e.sender.pc = .waiting → e.ctx = some err →
      SendMove libs ledger e .ctxDone ledger (e.sendReturn (some err.err))

theorem sendMove_of_sendLoop [DecidableEq K] {libs : Libs K} {ledger ledger' : Ledger K}
    {e e' : Endpoint K} {ev : SendEvent}
    (hstep : e.sendLoop libs ledger ev = some (ledger', e')) :
    SendMove libs ledger e ev ledger' e' := by
  cases ev with
  | read chunk readErr =>
    simp only [sendLoop] at hstep
    split at hstep
    · rename_i hpc
      split_ifs at hstep with hallowed hempty
      · subst hempty
        cases hstep
        exact .readEmpty readErr hpc hallowed
      · cases hstep
        exact .readData chunk readErr hpc hallowed hempty
    · contradiction
  | sendPlain =>
    simp only [sendLoop] at hstep
    split at hstep
    · rename_i stage hpc
      rcases sendPlain_cases libs ledger e stage with
        ⟨err, herr, heq⟩ | ⟨plaintext, ciphertext, hmarshal, heq⟩
      · rw [heq] at hstep
        cases hstep
        exact .sealFailed stage err hpc herr
      · rw [heq] at hstep
        cases hstep
        exact .sealed stage plaintext ciphertext hpc hmarshal
    · contradiction
  | transmit result =>
    simp only [sendLoop] at hstep
    split at hstep
    · rename_i stage ciphertext hpc
      cases result with
      | some err =>
        cases hstep
        exact .transmitFailed stage ciphertext err hpc
      | none =>
        cases hstep
        exact .transmitted stage ciphertext hpc
    · contradiction
  | remoteDone =>
    simp only [sendLoop] at hstep
    split at hstep
    · rename_i hpc
      split_ifs at hstep with heof
      cases hstep
      exact .remoteDone hpc heof
    · contradiction
  | ctxDone =>
    simp only [sendLoop] at hstep
    split at hstep
    · rename_i err hpc hctx
      cases hstep
      exact .ctxDone err hpc hctx
    · contradiction

theorem sealFrame_sender_inv {e : Endpoint K} {stage : Stage} (crypt : Transport K)
    (ciphertext : Bytes) (hpc : e.sender.pc = .sealing stage) (h : e.sender.Running) :
    (e.sealFrame crypt stage ciphertext).sender.Inv := by
  obtain ⟨⟨chunks, hsealed, hread⟩, heof, hsent⟩ := h
  rw [hpc] at hsealed hread heof hsent
  refine Sender.Running.inv ⟨?_, ?_, ?_⟩
  · cases stage with
    | data chunk readErr =>
      refine ⟨chunks ++ [chunk], ?_, ?_⟩
      · simpa [sealFrame, SendPc.controls, Stage.frame] using hsealed
      · simpa [sealFrame, SendPc.pending] using hread
    | halfClose =>
      refine ⟨chunks, ?_, hread⟩
      simpa [sealFrame, SendPc.controls, Stage.frame] using hsealed
    | close =>
      refine ⟨chunks, ?_, hread⟩
      have hsealed' : e.sender.sealed = chunks.map .data ++ [.halfClose] := hsealed
      simp [sealFrame, SendPc.controls, Stage.frame, farewell, hsealed']
  · cases stage <;> exact heof
  · have hsent' : e.sender.sealed = e.sender.sent := by simpa [SendPc.inFlight] using hsent
    simp [sealFrame, SendPc.inFlight, hsent']

/-- A successful `SendCiphertext` moves the frame in flight to the frames sent. -/
theorem afterSend_sender_inv {e : Endpoint K} {stage : Stage} {ciphertext : Bytes}
    (hpc : e.sender.pc = .transmitting stage ciphertext) (h : e.sender.Running) :
    ((e.noteSent stage).afterSend stage).sender.Inv := by
  obtain ⟨hshape, heof, hsent⟩ := h
  rw [hpc] at hshape heof hsent
  cases stage with
  | data chunk readErr => exact afterRead_sender_inv hshape heof hsent
  | halfClose =>
    exact Sender.Running.inv ⟨hshape, heof, hsent.trans (List.append_nil _).symm⟩
  | close =>
    refine ⟨fun hne ↦ absurd rfl hne, ⟨farewell, [], List.prefix_rfl, hshape, ?_⟩, [], ?_, ?_⟩
    · exact fun _ ↦ ⟨heof, rfl⟩
    · rw [List.append_nil]
      exact hsent
    · simp

/-- Every step of `sendLoop` keeps its invariant. -/
theorem SendMove.sender_inv [DecidableEq K] {libs : Libs K} {ledger ledger' : Ledger K}
    {e e' : Endpoint K} {ev : SendEvent} (hmove : SendMove libs ledger e ev ledger' e')
    (h : e.sender.Inv) : e'.sender.Inv := by
  cases hmove with
  | readEmpty readErr hpc _ =>
    obtain ⟨⟨chunks, hsealed, hread⟩, heof, hsent⟩ := h.running (by simp [hpc])
    rw [hpc] at hsealed hread heof hsent
    refine afterRead_sender_inv ⟨chunks, hsealed, ?_⟩ ?_ ?_
    · simpa [noteRead, SendPc.pending] using hread
    · simp [noteRead, heof, SendPc.seenEOF]
    · simpa [noteRead, SendPc.inFlight] using hsent
  | readData chunk readErr hpc _ _ =>
    obtain ⟨⟨chunks, hsealed, hread⟩, heof, hsent⟩ := h.running (by simp [hpc])
    rw [hpc] at hsealed hread heof hsent
    have hread' : chunks.flatten = e.sender.read := by simpa [SendPc.pending] using hread
    refine Sender.Running.inv ⟨⟨chunks, hsealed, ?_⟩, ?_, hsent⟩
    · simp [noteRead, SendPc.pending, hread']
    · simp [noteRead, heof, SendPc.seenEOF]
  | sealFailed stage err _ _ => exact h.returned
  | sealed stage plaintext ciphertext hpc _ =>
    exact sealFrame_sender_inv _ ciphertext hpc (h.running (by simp [hpc]))
  | transmitFailed stage ciphertext err _ => exact h.returned
  | transmitted stage ciphertext hpc => exact afterSend_sender_inv hpc (h.running (by simp [hpc]))
  | remoteDone hpc _ =>
    obtain ⟨hshape, heof, hsent⟩ := h.running (by simp [hpc])
    rw [hpc] at hshape heof hsent
    exact Sender.Running.inv ⟨hshape, heof, hsent⟩
  | ctxDone err _ _ => exact h.returned

/-- What a step of `sendLoop` leaves alone. -/
structure SendFrame (e e' : Endpoint K) : Prop where
  receiver : e'.receiver = e.receiver
  remoteEOF : e'.remoteEOF = e.remoteEOF
  bridge : e'.bridge = e.bridge
  ctx : e'.ctx = e.ctx
  connClosed : e'.connClosed = e.connClosed
  sendClosed : e'.sendClosed = e.sendClosed
  parentDone : e'.parentDone = e.parentDone
  recvKey : e'.crypt.recv = e.crypt.recv

theorem afterRead_noteRead_frame (e : Endpoint K) (chunk : Bytes) (readErr : ReadErr) :
    SendFrame e ((e.noteRead chunk readErr).afterRead readErr) := by
  cases readErr <;> exact ⟨rfl, rfl, rfl, rfl, rfl, rfl, rfl, rfl⟩

theorem afterSend_frame (e : Endpoint K) (stage : Stage) :
    SendFrame e ((e.noteSent stage).afterSend stage) := by
  rcases stage with ⟨chunk, _ | _ | _⟩ | _ | _ <;>
    exact ⟨rfl, rfl, rfl, rfl, rfl, rfl, rfl, rfl⟩

theorem SendMove.frame [DecidableEq K] {libs : Libs K} {ledger ledger' : Ledger K}
    {e e' : Endpoint K} {ev : SendEvent} (hmove : SendMove libs ledger e ev ledger' e') :
    SendFrame e e' := by
  cases hmove with
  | readEmpty readErr _ _ => exact afterRead_noteRead_frame e [] readErr
  | transmitted stage ciphertext _ => exact afterSend_frame e stage
  | _ => exact ⟨rfl, rfl, rfl, rfl, rfl, rfl, rfl, rfl⟩

/-- What a step of `recvLoop` leaves alone. -/
structure RecvFrame (e e' : Endpoint K) : Prop where
  sender : e'.sender = e.sender
  bridge : e'.bridge = e.bridge
  ctx : e'.ctx = e.ctx
  connClosed : e'.connClosed = e.connClosed
  sendClosed : e'.sendClosed = e.sendClosed
  parentDone : e'.parentDone = e.parentDone
  sendKey : e'.crypt.send = e.crypt.send
  recvKey : e'.crypt.recv.key = e.crypt.recv.key

theorem onFrame_frame (e : Endpoint K) (frame : PlainFrame) : RecvFrame e (e.onFrame frame) := by
  rcases frame with (_ | ⟨b, bs⟩) | _ | _ | _ <;> exact ⟨rfl, rfl, rfl, rfl, rfl, rfl, rfl, rfl⟩

/-- `openFrame` either ends `recvLoop` with an error that is not a normal close, or opens
exactly the frame whose ciphertext stands next in the ledger. -/
theorem openFrame_cases (libs : Libs K) (ledger : Ledger K) (e : Endpoint K)
    (ciphertext : Bytes) :
    (∃ err, isNormalClose err = false ∧
      (∀ plaintext, (ledger e.crypt.recv.key)[e.crypt.recv.n]? ≠ some ⟨plaintext, ciphertext⟩) ∧
      e.openFrame libs ledger ciphertext = e.recvReturn (some err)) ∨
    (∃ err plaintext, isNormalClose err = false ∧ libs.codec.unmarshal plaintext = none ∧
      (ledger e.crypt.recv.key)[e.crypt.recv.n]? = some ⟨plaintext, ciphertext⟩ ∧
      e.openFrame libs ledger ciphertext =
        { e with crypt := e.crypt.received }.recvReturn (some err)) ∨
    ∃ plaintext frame, libs.codec.unmarshal plaintext = some frame ∧
      (ledger e.crypt.recv.key)[e.crypt.recv.n]? = some ⟨plaintext, ciphertext⟩ ∧
      e.openFrame libs ledger ciphertext = (e.noteOpened e.crypt.received frame).onFrame frame := by
  unfold openFrame
  split
  · rename_i err herr
    refine .inl ⟨err, ?_, ?_, rfl⟩
    · unfold Transport.decrypt at herr
      split at herr
      · cases herr
        rfl
      · split_ifs at herr
        cases herr
        rfl
    · intro plaintext hentry
      rw [Transport.decrypt_of_entry hentry] at herr
      contradiction
  · rename_i plaintext crypt hok
    obtain ⟨hentry, rfl⟩ := Transport.decrypt_ok hok
    split
    · rename_i hbad
      exact .inr (.inl ⟨_, plaintext, rfl, hbad, hentry, rfl⟩)
    · rename_i frame hframe
      exact .inr (.inr ⟨plaintext, frame, hframe, hentry, rfl⟩)

/-- Everything a step of `recvLoop` can do. -/
inductive RecvMove (libs : Libs K) (ledger : Ledger K) (e : Endpoint K) :
    RecvEvent → Endpoint K → Prop
  | receiveFailed (err : Err) : e.receiver.pc = .receiving →
      RecvMove libs ledger e (.receive (.error err)) ((e.noteStreamError err).recvReturn (some err))
  | received (ciphertext : Bytes) : e.receiver.pc = .receiving →
      RecvMove libs ledger e (.receive (.ok ciphertext)) (e.recvAt (.opening ciphertext))
  | rejected (ciphertext : Bytes) (err : Err) : e.receiver.pc = .opening ciphertext →
      isNormalClose err = false →
      (∀ plaintext, (ledger e.crypt.recv.key)[e.crypt.recv.n]? ≠ some ⟨plaintext, ciphertext⟩) →
      RecvMove libs ledger e .decrypt (e.recvReturn (some err))
  | garbled (plaintext ciphertext : Bytes) (err : Err) : e.receiver.pc = .opening ciphertext →
      isNormalClose err = false → libs.codec.unmarshal plaintext = none →
      (ledger e.crypt.recv.key)[e.crypt.recv.n]? = some ⟨plaintext, ciphertext⟩ →
      RecvMove libs ledger e .decrypt ({ e with crypt := e.crypt.received }.recvReturn (some err))
  | opened (plaintext ciphertext : Bytes) (frame : PlainFrame) :
      e.receiver.pc = .opening ciphertext → libs.codec.unmarshal plaintext = some frame →
      (ledger e.crypt.recv.key)[e.crypt.recv.n]? = some ⟨plaintext, ciphertext⟩ →
      RecvMove libs ledger e .decrypt ((e.noteOpened e.crypt.received frame).onFrame frame)
  | wrote (data : Bytes) : e.receiver.pc = .writing data →
      RecvMove libs ledger e (.write (.ok ())) ((e.noteWritten data).recvAt .checking)
  | writeFailed (data : Bytes) (n : ℕ) (err : Err) : e.receiver.pc = .writing data →
      connErr e.connClosed err = true →
      RecvMove libs ledger e (.write (.error (n, err)))
        ((e.noteWritten (data.take n)).recvReturn (some (.errorf "writing TCP connection" err)))
  | halfClosed : e.receiver.pc = .halfClosing →
      RecvMove libs ledger e .halfClose e.halfClosed
  | closed (code : CloseCode) (message : String) : e.receiver.pc = .closing code message →
      RecvMove libs ledger e .close ({ e with remoteEOF := true }.recvReturn
        (if code = CloseCode.normal then none
          else some (.new ("remote closed tunnel: " ++ message))))
  | checkDone (err : CtxErr) : e.receiver.pc = .checking → e.ctx = some err →
      RecvMove libs ledger e .check (e.recvReturn (some err.err))
  | checkLive : e.receiver.pc = .checking → e.ctx = none →
      RecvMove libs ledger e .check (e.recvAt .receiving)

theorem recvMove_of_recvLoop {libs : Libs K} {ledger : Ledger K} {e e' : Endpoint K}
    {ev : RecvEvent} (hstep : e.recvLoop libs ledger ev = some e') :
    RecvMove libs ledger e ev e' := by
  cases ev with
  | receive result =>
    simp only [recvLoop] at hstep
    split at hstep
    · rename_i hpc
      cases result with
      | error err =>
        cases hstep
        exact .receiveFailed err hpc
      | ok ciphertext =>
        cases hstep
        exact .received ciphertext hpc
    · contradiction
  | decrypt =>
    simp only [recvLoop] at hstep
    split at hstep
    · rename_i ciphertext hpc
      rcases openFrame_cases libs ledger e ciphertext with
        ⟨err, herr, hnone, heq⟩ | ⟨err, plaintext, herr, hbad, hentry, heq⟩ |
          ⟨plaintext, frame, hframe, hentry, heq⟩
      · rw [heq] at hstep
        cases hstep
        exact .rejected ciphertext err hpc herr hnone
      · rw [heq] at hstep
        cases hstep
        exact .garbled plaintext ciphertext err hpc herr hbad hentry
      · rw [heq] at hstep
        cases hstep
        exact .opened plaintext ciphertext frame hpc hframe hentry
    · contradiction
  | write result =>
    simp only [recvLoop] at hstep
    split at hstep
    · rename_i data hpc
      split_ifs at hstep with hallowed
      rcases result with ⟨n, err⟩ | _
      · cases hstep
        exact .writeFailed data n err hpc hallowed
      · cases hstep
        exact .wrote data hpc
    · contradiction
  | halfClose =>
    simp only [recvLoop] at hstep
    split at hstep
    · rename_i hpc
      cases hstep
      exact .halfClosed hpc
    · contradiction
  | close =>
    simp only [recvLoop] at hstep
    split at hstep
    · rename_i code message hpc
      cases hstep
      exact .closed code message hpc
    · contradiction
  | check =>
    simp only [recvLoop] at hstep
    split at hstep
    · rename_i hpc
      split at hstep
      · rename_i err hctx
        cases hstep
        exact .checkDone err hpc hctx
      · rename_i hctx
        cases hstep
        exact .checkLive hpc hctx
    · contradiction

theorem RecvMove.frame {libs : Libs K} {ledger : Ledger K} {e e' : Endpoint K} {ev : RecvEvent}
    (hmove : RecvMove libs ledger e ev e') : RecvFrame e e' := by
  cases hmove with
  | opened plaintext ciphertext frame _ _ _ =>
    have h := onFrame_frame (e.noteOpened e.crypt.received frame) frame
    exact ⟨h.sender, h.bridge, h.ctx, h.connClosed, h.sendClosed, h.parentDone, h.sendKey,
      h.recvKey⟩
  | _ => exact ⟨rfl, rfl, rfl, rfl, rfl, rfl, rfl, rfl⟩

/-- What a step of `Bridge` itself leaves alone. -/
structure BridgeFrame (e e' : Endpoint K) : Prop where
  sender : e'.sender = e.sender
  receiver : e'.receiver = e.receiver
  remoteEOF : e'.remoteEOF = e.remoteEOF
  crypt : e'.crypt = e.crypt
  streamErrors : e'.streamErrors = e.streamErrors

/-- Everything a step of `Bridge` itself can do. -/
inductive BridgeMove (e : Endpoint K) : BridgeEvent → Endpoint K → Prop
  | first (result : Option Err) (rest : List (Option Err)) : e.bridge = .waitFirst →
      e.errCh = result :: rest →
      BridgeMove e .first { e with bridge := .cancelling result, errCh := rest }
  | cancel (result : Option Err) : e.bridge = .cancelling result →
      BridgeMove e .cancel
        { e with bridge := .closingConn result, ctx := e.ctx <|> some .canceled }
  | closeConn (result : Option Err) : e.bridge = .closingConn result →
      BridgeMove e .closeConn { e with bridge := .closingSend result, connClosed := true }
  | closeSend (result : Option Err) : e.bridge = .closingSend result →
      BridgeMove e .closeSend { e with bridge := .waitSecond result, sendClosed := true }
  | second (result other : Option Err) (rest : List (Option Err)) :
      e.bridge = .waitSecond result → e.errCh = other :: rest →
      BridgeMove e .second { e with bridge := .returned (bridgeResult result other), errCh := rest }
  | cancelParent (err : CtxErr) :
      BridgeMove e (.cancelParent err) { e with parentDone := true, ctx := e.ctx <|> some err }

theorem bridgeMove_of_bridgeLoop {e e' : Endpoint K} {ev : BridgeEvent}
    (hstep : e.bridgeLoop ev = some e') : BridgeMove e ev e' := by
  cases ev <;> simp only [bridgeLoop] at hstep
  case first =>
    split at hstep
    · rename_i result rest hpc herrCh
      cases hstep
      exact .first result rest hpc herrCh
    · contradiction
  case second =>
    split at hstep
    · rename_i result other rest hpc herrCh
      cases hstep
      exact .second result other rest hpc herrCh
    · contradiction
  case cancelParent err =>
    cases hstep
    exact .cancelParent err
  all_goals
    split at hstep
    · rename_i result hpc
      cases hstep
      constructor
      exact hpc
    · contradiction

theorem BridgeMove.frame {e e' : Endpoint K} {ev : BridgeEvent} (hmove : BridgeMove e ev e') :
    BridgeFrame e e' := by
  cases hmove <;> exact ⟨rfl, rfl, rfl, rfl, rfl⟩

/-- `recvLoop` and the `remoteEOF` channel it closes. `remoteEOF` means that some opened
prefix holds a control frame and has been written in full. -/
structure RecvInv (e : Endpoint K) : Prop where
  running : e.receiver.pc ≠ .returned →
    e.receiver.written ++ e.receiver.pc.unwritten = dataOf e.receiver.opened
  settled : e.receiver.written <+: dataOf e.receiver.opened
  ended : e.remoteEOF = true → ∃ frames, frames <+: e.receiver.opened ∧
    hasControl frames = true ∧ dataOf frames <+: e.receiver.written
  seen : hasControl e.receiver.opened = true →
    e.remoteEOF = true ∨ e.receiver.pc.atControl = true
  control : e.receiver.pc.atControl = true → hasControl e.receiver.opened = true
  closed : ∀ code message, PlainFrame.close code message ∈ e.receiver.opened →
    e.receiver.pc = .closing code message ∨ e.receiver.pc = .returned
  closeWrite : e.receiver.closeWrite = true → e.remoteEOF = true

/-- `recvLoop` may return from any point at which no control frame waits to be handled. -/
theorem RecvInv.returned {e : Endpoint K} (h : e.RecvInv) (hpc : e.receiver.pc.atControl = false)
    (result : Option Err) : (e.recvReturn result).RecvInv where
  running hne := absurd rfl hne
  settled := h.settled
  ended := h.ended
  seen hany := by
    rcases h.seen hany with heof | hat
    · exact .inl heof
    · rw [hpc] at hat
      contradiction
  control hat := by contradiction
  closed _ _ _ := .inr rfl
  closeWrite := h.closeWrite

/-- The invariant does not read the transport, the results or the stream errors. -/
theorem RecvInv.congr {e e' : Endpoint K} (h : e.RecvInv) (hreceiver : e'.receiver = e.receiver)
    (heof : e'.remoteEOF = e.remoteEOF) : e'.RecvInv := by
  obtain ⟨h1, h2, h3, h4, h5, h6, h7⟩ := h
  rw [← hreceiver] at h1 h2 h3 h4 h5 h6 h7
  rw [← heof] at h3 h4 h7
  exact ⟨h1, h2, h3, h4, h5, h6, h7⟩

/-- A control frame is handled only when everything opened before it has been written. -/
theorem RecvInv.atControl {e : Endpoint K} (h : e.RecvInv)
    (hpc : e.receiver.pc.atControl = true) :
    e.receiver.written = dataOf e.receiver.opened ∧
      ∃ frames, frames <+: e.receiver.opened ∧ hasControl frames = true ∧
        dataOf frames <+: e.receiver.written := by
  have hne : e.receiver.pc ≠ .returned := by
    intro heq
    rw [heq] at hpc
    contradiction
  have hnone : e.receiver.pc.unwritten = [] := by
    cases hcase : e.receiver.pc <;> simp_all [RecvPc.atControl, RecvPc.unwritten]
  have hwritten : e.receiver.written = dataOf e.receiver.opened := by
    simpa [hnone] using h.running hne
  exact ⟨hwritten, _, List.prefix_rfl, h.control hpc, hwritten ▸ List.prefix_rfl⟩

/-- With a data frame in hand, what is written and what is in hand is all that was opened. -/
theorem RecvInv.atWrite {e : Endpoint K} {data : Bytes} (h : e.RecvInv)
    (hpc : e.receiver.pc = .writing data) :
    e.receiver.written ++ data = dataOf e.receiver.opened ∧
      (∀ bytes, e.remoteEOF = true → ∃ frames, frames <+: e.receiver.opened ∧
        hasControl frames = true ∧ dataOf frames <+: e.receiver.written ++ bytes) ∧
      (hasControl e.receiver.opened = true → e.remoteEOF = true) ∧
      ∀ code message, PlainFrame.close code message ∉ e.receiver.opened := by
  refine ⟨?_, fun bytes heof ↦ ?_, fun hany ↦ ?_, fun code message hmem ↦ ?_⟩
  · simpa [hpc, RecvPc.unwritten] using h.running (by simp [hpc])
  · obtain ⟨frames, hpre, hcontrol, hwritten⟩ := h.ended heof
    exact ⟨frames, hpre, hcontrol, hwritten.trans (List.prefix_append _ _)⟩
  · simpa [hpc, RecvPc.atControl] using h.seen hany
  · simpa [hpc] using h.closed code message hmem

/-- Opening one more frame from the point where nothing waits to be written. -/
theorem RecvInv.opened {e : Endpoint K} {ciphertext : Bytes} (h : e.RecvInv)
    (hpc : e.receiver.pc = .opening ciphertext) (crypt : Transport K) (frame : PlainFrame) :
    ((e.noteOpened crypt frame).onFrame frame).RecvInv := by
  have hwritten : e.receiver.written = dataOf e.receiver.opened := by
    simpa [hpc, RecvPc.unwritten] using h.running (by simp [hpc])
  have hended : e.remoteEOF = true → ∃ frames, frames <+: e.receiver.opened ++ [frame] ∧
      hasControl frames = true ∧ dataOf frames <+: e.receiver.written := by
    intro heof
    obtain ⟨frames, hpre, hany, hdata⟩ := h.ended heof
    exact ⟨frames, hpre.trans (List.prefix_append _ _), hany, hdata⟩
  have hseen : hasControl e.receiver.opened = true → e.remoteEOF = true := by
    intro hany
    simpa [hpc, RecvPc.atControl] using h.seen hany
  have hclosed : ∀ code message, PlainFrame.close code message ∉ e.receiver.opened := by
    intro code message hmem
    simpa [hpc] using h.closed code message hmem
  rcases frame with (_ | ⟨b, bs⟩) | _ | ⟨code, message⟩ | _
  all_goals
    refine ⟨?_, ?_, hended, ?_, ?_, ?_, h.closeWrite⟩
    all_goals
      simp_all [onFrame, recvAt, recvReturn, noteOpened, RecvPc.unwritten, RecvPc.atControl,
        payload]

/-- Moving between points with nothing to write and no control frame in hand. -/
theorem RecvInv.at_idle {e : Endpoint K} (h : e.RecvInv) {pc : RecvPc}
    (hne : e.receiver.pc ≠ .returned) (hnone : e.receiver.pc.unwritten = [])
    (hat : e.receiver.pc.atControl = false) (hnone' : pc.unwritten = [])
    (hat' : pc.atControl = false) : (e.recvAt pc).RecvInv where
  running _ := by
    have hwritten := h.running hne
    rw [hnone] at hwritten
    simpa [recvAt, hnone'] using hwritten
  settled := h.settled
  ended := h.ended
  seen hany := by
    rcases h.seen hany with heof | hat0
    · exact .inl heof
    · rw [hat] at hat0
      contradiction
  control hat'' := by
    simp [recvAt, hat'] at hat''
  closed code message hmem := by
    rcases h.closed code message hmem with hclosing | hreturned
    · rw [hclosing] at hat
      contradiction
    · exact absurd hreturned hne
  closeWrite := h.closeWrite

/-- Every step of `recvLoop` keeps its invariant. -/
theorem RecvMove.recvInv {libs : Libs K} {ledger : Ledger K} {e e' : Endpoint K} {ev : RecvEvent}
    (hmove : RecvMove libs ledger e ev e') (h : e.RecvInv) : e'.RecvInv := by
  cases hmove with
  | receiveFailed err hpc =>
    have h' : (e.noteStreamError err).RecvInv := h.congr rfl rfl
    exact h'.returned (by simp [noteStreamError, hpc, RecvPc.atControl]) _
  | received ciphertext hpc =>
    exact h.at_idle (by simp [hpc]) (by simp [hpc, RecvPc.unwritten])
      (by simp [hpc, RecvPc.atControl]) rfl rfl
  | rejected ciphertext err hpc _ _ => exact h.returned (by simp [hpc, RecvPc.atControl]) _
  | garbled plaintext ciphertext err hpc _ _ _ =>
    have h' : RecvInv { e with crypt := e.crypt.received } := h.congr rfl rfl
    exact h'.returned (by simp [hpc, RecvPc.atControl]) _
  | opened plaintext ciphertext frame hpc _ _ => exact h.opened hpc _ frame
  | wrote data hpc =>
    obtain ⟨hdata, hgrow, hseen, hclosed⟩ := h.atWrite hpc
    refine ⟨fun _ ↦ (List.append_nil _).trans hdata, hdata ▸ List.prefix_rfl, hgrow data,
      fun hany ↦ .inl (hseen hany), fun hat ↦ by contradiction, ?_, h.closeWrite⟩
    exact fun code message hmem ↦ absurd hmem (hclosed code message)
  | writeFailed data n err hpc _ =>
    obtain ⟨hdata, hgrow, hseen, _⟩ := h.atWrite hpc
    refine ⟨fun hne ↦ absurd rfl hne, ?_, hgrow (data.take n), fun hany ↦ .inl (hseen hany),
      fun hat ↦ by contradiction, fun _ _ _ ↦ .inr rfl, h.closeWrite⟩
    change e.receiver.written ++ data.take n <+: dataOf e.receiver.opened
    rw [← hdata]
    exact (List.prefix_append_right_inj _).mpr (List.take_prefix n data)
  | halfClosed hpc =>
    obtain ⟨hwritten, hended⟩ := h.atControl (by simp [hpc, RecvPc.atControl])
    refine ⟨fun _ ↦ (List.append_nil _).trans hwritten, h.settled, fun _ ↦ hended,
      fun _ ↦ .inl rfl, fun hat ↦ by contradiction, ?_, fun _ ↦ rfl⟩
    intro code message hmem
    simpa [hpc] using h.closed code message hmem
  | closed code message hpc =>
    obtain ⟨_, hended⟩ := h.atControl (by simp [hpc, RecvPc.atControl])
    exact ⟨fun hne ↦ absurd rfl hne, h.settled, fun _ ↦ hended, fun _ ↦ .inl rfl,
      fun hat ↦ by contradiction, fun _ _ _ ↦ .inr rfl, fun _ ↦ rfl⟩
  | checkDone err hpc _ => exact h.returned (by simp [hpc, RecvPc.atControl]) _
  | checkLive hpc _ =>
    exact h.at_idle (by simp [hpc]) (by simp [hpc, RecvPc.unwritten])
      (by simp [hpc, RecvPc.atControl]) rfl rfl

end Endpoint

end RelayCat.Bridge
