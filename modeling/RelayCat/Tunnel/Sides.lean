import RelayCat.Tunnel.Delivery

/-!
# One side of the tunnel at a time

A step of the tunnel seen from one side: its endpoint with its stream, or its handler with its
stream, or one of the two meeting the other side. The facts about one side that the teardown of a
session depends on are each proved from these projections.
-/

namespace RelayCat.Bridge

open Go Wire Noise

/-- A prefix of the sealed frames that reaches a control frame has the `HalfClose`. -/
theorem Sender.Settled.halfClose_mem {t : Sender} (h : t.Settled) {frames : List PlainFrame}
    (hpre : frames <+: t.sealed) (hcontrol : hasControl frames = true) :
    .halfClose ∈ frames := by
  obtain ⟨⟨controls, pending, hcontrols, ⟨chunks, hsealed, _⟩, _⟩, _⟩ := h
  rw [hsealed] at hpre
  rcases List.prefix_or_prefix_of_prefix hpre (List.prefix_append _ controls) with hdata | hdata
  · have hcontrol' := hasControl_mono hdata hcontrol
    rw [not_hasControl_data] at hcontrol'
    contradiction
  · obtain ⟨rest, rfl⟩ := hdata
    have hrest : rest <+: farewell := ((List.prefix_append_right_inj _).mp hpre).trans hcontrols
    cases rest with
    | nil =>
      rw [List.append_nil, not_hasControl_data] at hcontrol
      contradiction
    | cons first rest =>
      have hfirst : first = .halfClose := by
        simpa [farewell] using (List.cons_prefix_cons.mp hrest).1
      simp [hfirst]

/-- `sendLoop` never seals an unset frame. -/
theorem Sender.Settled.unset_not_mem {t : Sender} (h : t.Settled) : .unset ∉ t.sealed := by
  obtain ⟨⟨controls, pending, hcontrols, ⟨chunks, hsealed, _⟩, _⟩, _⟩ := h
  intro hmem
  rw [hsealed, List.mem_append] at hmem
  rcases hmem with hmem | hmem
  · simp at hmem
  · have hfarewell := hcontrols.subset hmem
    simp [farewell] at hfarewell

theorem Pair.Inv.unset_not_mem {K : Type} {libs : Libs K} {split : Split K} {s : Pair K}
    (h : Pair.Inv libs split s) (side : Side) : .unset ∉ (s.endpoint side).receiver.opened := by
  have hlink := h.link side.peer
  rw [Side.peer_peer] at hlink
  exact fun hmem ↦ (h.sender side.peer).settled.unset_not_mem (hlink.opened.subset hmem)

theorem Sender.Settled.sent_prefix_sealed {t : Sender} (h : t.Settled) : t.sent <+: t.sealed := by
  obtain ⟨_, rest, hsealed, _⟩ := h
  rw [hsealed]
  exact List.prefix_append _ _

/-- A sender that has sealed `Close` has sealed its data, `HalfClose` and `Close`. -/
theorem Sender.Settled.sealed_eq {t : Sender} (h : t.Settled) {code : CloseCode}
    {message : String} (hclose : .close code message ∈ t.sealed) :
    ∃ chunks : List Bytes, t.sealed = chunks.map .data ++ farewell := by
  obtain ⟨⟨controls, pending, hcontrols, ⟨chunks, hsealed, _⟩, _⟩, _⟩ := h
  have hmem : .close code message ∈ controls := by
    rw [hsealed, List.mem_append] at hclose
    rcases hclose with hdata | hmem
    · simp at hdata
    · exact hmem
  refine ⟨chunks, ?_⟩
  obtain ⟨missing, hmissing⟩ := hcontrols
  match controls, hmissing with
  | [], _ => simp at hmem
  | [first], hmissing =>
    obtain ⟨rfl, _⟩ := List.cons.inj hmissing
    simp at hmem
  | [first, second], hmissing =>
    have hnil : missing = [] := by simpa [farewell] using congrArg List.length hmissing
    rw [hsealed, ← hmissing, hnil, List.append_nil]
  | _ :: _ :: _ :: _, hmissing =>
    have hlength := congrArg List.length hmissing
    simp [farewell] at hlength

/-- `Close` is sealed only after `HalfClose` was sent. -/
theorem Sender.Settled.halfClose_sent {t : Sender} (h : t.Settled) {code : CloseCode}
    {message : String} (hclose : .close code message ∈ t.sealed) : .halfClose ∈ t.sent := by
  obtain ⟨chunks, hsealed⟩ := h.sealed_eq hclose
  obtain ⟨_, rest, hsent, hrest⟩ := h
  have hlength := congrArg List.length (hsent.symm.trans hsealed)
  have hlong : (chunks.map PlainFrame.data ++ [PlainFrame.halfClose]).length ≤ t.sent.length := by
    simp [farewell] at hlength ⊢
    omega
  have hpre : chunks.map PlainFrame.data ++ [PlainFrame.halfClose] <+: t.sent := by
    refine List.prefix_of_prefix_length_le ?_ (hsent ▸ List.prefix_append t.sent rest) hlong
    rw [hsealed, farewell]
    exact ⟨[.close .normal ""], by simp⟩
  exact hpre.subset (by simp)

/-- The only `Close` that `sendLoop` seals is the normal one. -/
theorem Sender.Settled.close_normal {t : Sender} (h : t.Settled) {code : CloseCode}
    {message : String} (hclose : .close code message ∈ t.sealed) :
    code = .normal ∧ message = "" := by
  obtain ⟨chunks, hsealed⟩ := h.sealed_eq hclose
  rw [hsealed, List.mem_append] at hclose
  rcases hclose with hdata | hfarewell
  · simp at hdata
  · simpa [farewell] using hfarewell

/-- Nothing is sealed after `Close`. -/
theorem Sender.Settled.length_le {t : Sender} (h : t.Settled) {code : CloseCode}
    {message : String} {n : ℕ} (hclose : .close code message ∈ t.sealed.take n) :
    t.sealed.length ≤ n := by
  obtain ⟨chunks, hsealed⟩ := h.sealed_eq (List.mem_of_mem_take hclose)
  have hsplit : t.sealed = (chunks.map .data ++ [.halfClose]) ++ [.close .normal ""] := by
    simp [hsealed, farewell]
  by_contra hlt
  rw [hsplit, List.take_append_of_le_length] at hclose
  · simpa using List.mem_of_mem_take hclose
  · simp [hsplit] at hlt ⊢
    omega

/-- Once `HalfClose` is sent, only `Close` is left to transmit. -/
theorem Sender.Running.stage_close {t : Sender} (h : t.Running) {stage : Stage}
    {ciphertext : Bytes} (hpc : t.pc = .transmitting stage ciphertext)
    (hhalf : .halfClose ∈ t.sent) : stage = .close := by
  obtain ⟨⟨chunks, hsealed, _⟩, _, hsent⟩ := h
  rw [hpc] at hsealed hsent
  rw [hsent] at hsealed
  cases stage with
  | data chunk readErr =>
    have hmem := List.mem_append_left
      (SendPc.transmitting (.data chunk readErr) ciphertext).inFlight hhalf
    rw [hsealed] at hmem
    simp [SendPc.controls] at hmem
  | halfClose =>
    have hsealed' : t.sent ++ [PlainFrame.halfClose] = chunks.map .data ++ [.halfClose] := hsealed
    rw [List.append_cancel_right hsealed'] at hhalf
    simp at hhalf
  | close => rfl

namespace Endpoint

variable {K : Type}

/-- One of the two loops has returned. -/
def LoopReturned (e : Endpoint K) : Prop :=
  e.sender.pc = .returned ∨ e.receiver.pc = .returned

/-- `Bridge` and its loops when nothing fails from outside. -/
structure LoopInv (e : Endpoint K) : Prop where
  waiting : e.bridge = .waitFirst → e.ctx = none ∧ e.connClosed = false ∧ e.sendClosed = false
  returned : e.errCh ≠ [] ∨ e.bridge ≠ .waitFirst → e.LoopReturned
  reading : e.sender.pc.readFailure = none
  closing : ∀ code message, e.receiver.pc = .closing code message →
    .close code message ∈ e.receiver.opened
  sealedClose : ∀ code message, .close code message ∈ e.sender.sealed → e.remoteEOF = true

/-- Everything that `Bridge` undoes comes after its first loop has returned. -/
theorem LoopInv.returned_of_undone {e : Endpoint K} (h : e.LoopInv)
    (hundone : e.ctx ≠ none ∨ e.connClosed = true ∨ e.sendClosed = true) : e.LoopReturned := by
  refine h.returned (.inr fun hwait ↦ ?_)
  obtain ⟨hctx, hconn, hsend⟩ := h.waiting hwait
  simp [hctx, hconn, hsend] at hundone

/-- `Bridge` takes its first step when a loop has returned. -/
theorem BridgeMove.loopReturned {e e' : Endpoint K} {ev : BridgeEvent} (hmove : BridgeMove e ev e')
    (hparent : ∀ err, ev ≠ .cancelParent err) (h : e.LoopInv) :
    e'.bridge ≠ .waitFirst ∧ e'.LoopReturned := by
  have hframe := hmove.frame
  have hreturned : e.LoopReturned := by
    cases hmove with
    | first result rest _ herrCh => exact h.returned (.inl (by simp [herrCh]))
    | cancelParent err => exact absurd rfl (hparent err)
    | _ => exact h.returned (.inr (by simp_all))
  refine ⟨?_, ?_⟩
  · cases hmove with
    | cancelParent err => exact absurd rfl (hparent err)
    | _ => simp
  · unfold LoopReturned
    rw [hframe.sender, hframe.receiver]
    exact hreturned

end Endpoint

end RelayCat.Bridge

namespace RelayCat.Tunnel

open Go Wire Noise Automaton Bridge Relay Endpoint

variable {K : Type} [DecidableEq K] {libs : Libs K}

section Turn

variable {ledger ledger' : Ledger K} {e e' : Endpoint K} {leg leg' : Leg} {ev : Event}

/-- A turn is a step of one of the three threads, and leaves the fields of the others alone. -/
theorem Turn.frame (hturn : Turn libs ledger e leg ev ledger' e' leg') :
    SendFrame e e' ∨ RecvFrame e e' ∨
      ∃ ev, BridgeMove e ev e' ∧ ∀ err, ev ≠ .cancelParent err := by
  cases hturn with
  | readEmpty readErr _ _ _ => exact .inl (afterRead_noteRead_frame e [] readErr)
  | sent stage ciphertext _ _ _ => exact .inl (afterSend_frame e stage)
  | received ciphertext down _ _ => exact .inr (.inl ⟨rfl, rfl, rfl, rfl, rfl, rfl, rfl, rfl⟩)
  | recvEnded _ _ _ => exact .inr (.inl ⟨rfl, rfl, rfl, rfl, rfl, rfl, rfl, rfl⟩)
  | recvOwn ev e' hmove _ _ => exact .inr (.inl hmove.frame)
  | bridge ev e' hmove hparent => exact .inr (.inr ⟨ev, hmove, hparent⟩)
  | _ => exact .inl ⟨rfl, rfl, rfl, rfl, rfl, rfl, rfl, rfl⟩

/-- A loop that has returned stays so. -/
theorem Turn.sender_returned (hturn : Turn libs ledger e leg ev ledger' e' leg')
    (h : e.sender.pc = .returned) : e'.sender.pc = .returned := by
  cases hturn with
  | received ciphertext down _ _ => exact h
  | recvEnded _ _ _ => exact h
  | recvOwn ev e' hmove _ _ => exact hmove.frame.sender ▸ h
  | bridge ev e' hmove _ => exact hmove.frame.sender ▸ h
  | _ => simp_all

theorem Turn.receiver_returned (hturn : Turn libs ledger e leg ev ledger' e' leg')
    (h : e.receiver.pc = .returned) : e'.receiver.pc = .returned := by
  cases hturn with
  | readEmpty readErr _ _ _ => exact (afterRead_noteRead_frame e [] readErr).receiver ▸ h
  | sent stage ciphertext _ _ _ => exact (afterSend_frame e stage).receiver ▸ h
  | received ciphertext down hpc _ => simp [hpc] at h
  | recvEnded hpc _ _ => rfl
  | recvOwn ev e' hmove _ _ => cases hmove <;> simp_all
  | bridge ev e' hmove _ => exact hmove.frame.receiver ▸ h
  | _ => exact h

theorem Turn.loopReturned (hturn : Turn libs ledger e leg ev ledger' e' leg')
    (h : e.LoopReturned) : e'.LoopReturned :=
  h.imp hturn.sender_returned hturn.receiver_returned

theorem Turn.remoteEOF (hturn : Turn libs ledger e leg ev ledger' e' leg')
    (h : e.remoteEOF = true) : e'.remoteEOF = true := by
  cases hturn with
  | readEmpty readErr _ _ _ => exact (afterRead_noteRead_frame e [] readErr).remoteEOF ▸ h
  | sent stage ciphertext _ _ _ => exact (afterSend_frame e stage).remoteEOF ▸ h
  | recvOwn ev e' hmove _ _ => exact hmove.grows.remoteEOF h
  | bridge ev e' hmove _ => exact hmove.frame.remoteEOF ▸ h
  | _ => exact h

theorem Turn.sendClosed (hturn : Turn libs ledger e leg ev ledger' e' leg')
    (h : e.sendClosed = true) : e'.sendClosed = true := by
  rcases hturn.frame with hframe | hframe | ⟨ev, hmove, _⟩
  · exact hframe.sendClosed ▸ h
  · exact hframe.sendClosed ▸ h
  · cases hmove <;> simp [h]

/-- The frames sent only grow. -/
theorem Turn.sent_grows (hturn : Turn libs ledger e leg ev ledger' e' leg') :
    e.sender.sent <+: e'.sender.sent := by
  cases hturn with
  | readEmpty readErr _ _ _ => cases readErr <;> exact List.prefix_rfl
  | sent stage ciphertext _ _ _ =>
    rw [(afterSend_sender e stage).1]
    exact List.prefix_append _ _
  | recvOwn ev e' hmove _ _ => exact hmove.frame.sender ▸ List.prefix_rfl
  | bridge ev e' hmove _ => exact hmove.frame.sender ▸ List.prefix_rfl
  | _ => exact List.prefix_rfl

theorem Turn.sealed_grows (hturn : Turn libs ledger e leg ev ledger' e' leg') :
    e.sender.sealed <+: e'.sender.sealed := by
  cases hturn with
  | readEmpty readErr _ _ _ => cases readErr <;> exact List.prefix_rfl
  | sealed stage plaintext ciphertext _ => exact List.prefix_append _ _
  | sent stage ciphertext _ _ _ =>
    rcases stage with ⟨chunk, _ | _ | _⟩ | _ | _ <;> exact List.prefix_rfl
  | recvOwn ev e' hmove _ _ => exact hmove.frame.sender ▸ List.prefix_rfl
  | bridge ev e' hmove _ => exact hmove.frame.sender ▸ List.prefix_rfl
  | _ => exact List.prefix_rfl

/-- A loop puts a result on `errCh` only when it returns. -/
theorem Turn.errCh (hturn : Turn libs ledger e leg ev ledger' e' leg') :
    (e'.errCh = e.errCh ∧ e'.bridge = e.bridge) ∨ e'.LoopReturned ∨
      ∃ ev, BridgeMove e ev e' ∧ ∀ err, ev ≠ .cancelParent err := by
  cases hturn with
  | readEmpty readErr _ _ _ =>
    cases readErr with
    | failed err => exact .inr (.inl (.inl rfl))
    | nil => exact .inl ⟨rfl, rfl⟩
    | eof => exact .inl ⟨rfl, rfl⟩
  | sent stage ciphertext _ _ _ =>
    rcases stage with ⟨chunk, _ | _ | err⟩ | _ | _
    case data.failed => exact .inr (.inl (.inl rfl))
    case close => exact .inr (.inl (.inl rfl))
    all_goals exact .inl ⟨rfl, rfl⟩
  | sendEnded stage ciphertext _ _ _ => exact .inr (.inl (.inl rfl))
  | sentLate stage ciphertext _ _ => exact .inr (.inl (.inl rfl))
  | ctxDone err _ _ => exact .inr (.inl (.inl rfl))
  | recvEnded _ _ _ => exact .inr (.inl (.inr rfl))
  | recvOwn ev e' hmove _ _ =>
    cases hmove with
    | opened plaintext ciphertext frame _ _ _ =>
      rcases frame with (_ | ⟨b, bs⟩) | _ | _ | _
      case unset => exact .inr (.inl (.inr rfl))
      all_goals exact .inl ⟨rfl, rfl⟩
    | received _ _ => exact .inl ⟨rfl, rfl⟩
    | wrote _ _ => exact .inl ⟨rfl, rfl⟩
    | halfClosed _ => exact .inl ⟨rfl, rfl⟩
    | checkLive _ _ => exact .inl ⟨rfl, rfl⟩
    | _ => exact .inr (.inl (.inr rfl))
  | bridge ev e' hmove hparent => exact .inr (.inr ⟨ev, hmove, hparent⟩)
  | _ => exact .inl ⟨rfl, rfl⟩

/-- Only a turn at `sealing .close` seals a `Close`. -/
theorem Turn.sealed_close (hturn : Turn libs ledger e leg ev ledger' e' leg')
    (hclosing : e.sender.pc.closing = true → e.remoteEOF = true) {code : CloseCode}
    {message : String} (hmem : .close code message ∈ e'.sender.sealed) :
    .close code message ∈ e.sender.sealed ∨ e.remoteEOF = true := by
  cases hturn with
  | readEmpty readErr _ _ _ => cases readErr <;> exact .inl hmem
  | sealed stage plaintext ciphertext hpc =>
    rcases List.mem_append.mp hmem with hold | hnew
    · exact .inl hold
    · cases stage with
      | data chunk readErr => simp [Stage.frame] at hnew
      | halfClose => simp [Stage.frame] at hnew
      | close => exact .inr (hclosing (by simp [hpc, SendPc.closing]))
  | sent stage ciphertext _ _ _ =>
    rcases stage with ⟨chunk, _ | _ | _⟩ | _ | _ <;> exact .inl hmem
  | recvOwn ev e' hmove _ _ => exact .inl (hmove.frame.sender ▸ hmem)
  | bridge ev e' hmove _ => exact .inl (hmove.frame.sender ▸ hmem)
  | _ => exact .inl hmem

/-- `recvLoop` handles a `Close` that it has opened. -/
theorem Turn.closing (hturn : Turn libs ledger e leg ev ledger' e' leg') (h : e.LoopInv)
    {code : CloseCode} {message : String} (hpc : e'.receiver.pc = .closing code message) :
    .close code message ∈ e'.receiver.opened := by
  cases hturn with
  | readEmpty readErr _ _ _ => cases readErr <;> exact h.closing code message hpc
  | sent stage ciphertext _ _ _ =>
    rcases stage with ⟨chunk, _ | _ | _⟩ | _ | _ <;> exact h.closing code message hpc
  | received ciphertext down _ _ => contradiction
  | recvEnded _ _ _ => contradiction
  | recvOwn ev e' hmove _ _ =>
    cases hmove with
    | opened plaintext ciphertext frame _ _ _ =>
      rcases frame with (_ | ⟨b, bs⟩) | _ | ⟨code', message'⟩ | _
      case close =>
        obtain ⟨rfl, rfl⟩ := RecvPc.closing.inj hpc
        exact List.mem_append_right _ List.mem_cons_self
      all_goals contradiction
    | _ => contradiction
  | bridge ev e' hmove _ =>
    rw [hmove.frame.receiver] at hpc ⊢
    exact h.closing code message hpc
  | _ => exact h.closing code message hpc

theorem Turn.reading (hturn : Turn libs ledger e leg ev ledger' e' leg') (h : e.LoopInv) :
    e'.sender.pc.readFailure = none := by
  have hbefore := h.reading
  cases hturn with
  | readEmpty readErr _ _ _ => exact (afterRead_closing _ readErr).2
  | readData chunk readErr _ _ hfailed =>
    cases readErr with
    | failed err => exact absurd rfl (hfailed err)
    | nil => rfl
    | eof => rfl
  | sealed stage plaintext ciphertext hpc =>
    rw [hpc] at hbefore
    rcases stage with ⟨chunk, _ | _ | err⟩ | _ | _
    case data.failed => contradiction
    all_goals rfl
  | sent stage ciphertext _ _ _ => rcases stage with ⟨chunk, _ | _ | _⟩ | _ | _ <;> rfl
  | recvOwn ev e' hmove _ _ => exact hmove.frame.sender ▸ hbefore
  | bridge ev e' hmove _ => exact hmove.frame.sender ▸ hbefore
  | received ciphertext down _ _ => exact hbefore
  | recvEnded _ _ _ => exact hbefore
  | _ => rfl

theorem Turn.loopInv (hturn : Turn libs ledger e leg ev ledger' e' leg') (hresult : e.ResultInv)
    (h : e.LoopInv) : e'.LoopInv where
  waiting hwait := by
    rcases hturn.frame with hframe | hframe | ⟨ev, hmove, hparent⟩
    · rw [hframe.ctx, hframe.connClosed, hframe.sendClosed]
      exact h.waiting (hframe.bridge ▸ hwait)
    · rw [hframe.ctx, hframe.connClosed, hframe.sendClosed]
      exact h.waiting (hframe.bridge ▸ hwait)
    · exact absurd hwait (hmove.loopReturned hparent h).1
  returned hor := by
    rcases hturn.errCh with ⟨hsame, hbridge⟩ | hreturned | ⟨ev, hmove, hparent⟩
    · rw [hsame, hbridge] at hor
      exact hturn.loopReturned (h.returned hor)
    · exact hreturned
    · exact (hmove.loopReturned hparent h).2
  reading := hturn.reading h
  closing _ _ hpc := hturn.closing h hpc
  sealedClose _ _ hmem := by
    rcases hturn.sealed_close hresult.closing hmem with hold | heof
    · exact hturn.remoteEOF (h.sealedClose _ _ hold)
    · exact hturn.remoteEOF heof

/-- How the first loop of an endpoint can return. -/
inductive Ends (e e' : Endpoint K) (leg : Leg) : Prop
  | sentClose (ciphertext : Bytes) : e.sender.pc = .transmitting .close ciphertext →
      .close .normal "" ∈ e'.sender.sent → e'.receiver = e.receiver → Ends e e' leg
  | sendEnded (stage : Stage) (ciphertext : Bytes) :
      e.sender.pc = .transmitting stage ciphertext → e.sendClosed = false →
      leg.finished = true → e'.receiver = e.receiver → Ends e e' leg
  | recvEnded : e.receiver.pc = .receiving → leg.down.queue = [] → leg.finished = true →
      e'.sender = e.sender → Ends e e' leg
  | closed (code : CloseCode) (message : String) : e.receiver.pc = .closing code message →
      e'.remoteEOF = true → e'.sender = e.sender → Ends e e' leg

theorem Turn.ends (hturn : Turn libs ledger e leg ev ledger' e' leg') (h : e.LoopInv)
    (hdecrypts : Decrypts libs ledger e) (hset : .unset ∉ e'.receiver.opened)
    (hold : ¬ e.LoopReturned) (hnew : e'.LoopReturned) : Ends e e' leg := by
  have hundone : e.ctx = none ∧ e.connClosed = false ∧ e.sendClosed = false := by
    by_contra hnot
    refine hold (h.returned_of_undone ?_)
    by_contra hcontra
    push Not at hcontra
    exact hnot ⟨hcontra.1, by simpa using hcontra.2.1, by simpa using hcontra.2.2⟩
  obtain ⟨hctx, hconn, hsend⟩ := hundone
  have hsender : e.sender.pc ≠ .returned := fun hpc ↦ hold (.inl hpc)
  have hreceiver : e.receiver.pc ≠ .returned := fun hpc ↦ hold (.inr hpc)
  cases hturn with
  | readEmpty readErr _ _ hfailed =>
    cases readErr with
    | failed err => exact absurd (hfailed err rfl) (by simp [hconn])
    | nil => exact absurd hnew (by simp [LoopReturned, afterRead, sendAt, noteRead, hreceiver])
    | eof => exact absurd hnew (by simp [LoopReturned, afterRead, sendAt, noteRead, hreceiver])
  | readData chunk readErr _ _ _ =>
    exact absurd hnew (by simp [LoopReturned, sendAt, noteRead, hreceiver])
  | sealed stage plaintext ciphertext _ =>
    exact absurd hnew (by simp [LoopReturned, sealFrame, hreceiver])
  | sent stage ciphertext hpc _ _ =>
    cases stage with
    | data chunk readErr =>
      have hreading := h.reading
      rw [hpc] at hreading
      cases readErr with
      | failed err => contradiction
      | nil =>
        exact absurd hnew
          (by simp [LoopReturned, afterSend, afterRead, sendAt, noteSent, hreceiver])
      | eof =>
        exact absurd hnew
          (by simp [LoopReturned, afterSend, afterRead, sendAt, noteSent, hreceiver])
    | halfClose =>
      exact absurd hnew (by simp [LoopReturned, afterSend, sendAt, noteSent, hreceiver])
    | close => exact .sentClose ciphertext hpc (List.mem_append_right _ List.mem_cons_self) rfl
  | sendEnded stage ciphertext hpc hclosed hfinished =>
    exact .sendEnded stage ciphertext hpc hclosed hfinished rfl
  | sentLate stage ciphertext _ hclosed => exact absurd hclosed (by simp [hsend])
  | remoteDone _ _ => exact absurd hnew (by simp [LoopReturned, sendAt, hreceiver])
  | ctxDone err _ hdone => exact absurd hdone (by simp [hctx])
  | received ciphertext down _ _ => exact absurd hnew (by simp [LoopReturned, recvAt, hsender])
  | recvEnded hpc hqueue hfinished => exact .recvEnded hpc hqueue hfinished rfl
  | recvOwn ev e' hmove hreceive hwrite =>
    cases hmove with
    | receiveFailed err _ => exact absurd rfl (hreceive _)
    | received ciphertext _ => exact absurd rfl (hreceive _)
    | rejected ciphertext err hpc _ hnone => exact (hdecrypts.not_rejected hpc hnone).elim
    | garbled plaintext ciphertext err hpc _ hbad hfound =>
      exact (hdecrypts.not_garbled hpc hbad hfound).elim
    | opened plaintext ciphertext frame _ _ _ =>
      rcases frame with (_ | ⟨b, bs⟩) | _ | _ | _
      case unset => exact absurd (List.mem_append_right _ List.mem_cons_self) hset
      all_goals
        exact absurd hnew (by simp [LoopReturned, onFrame, recvAt, noteOpened, hsender])
    | wrote data _ =>
      exact absurd hnew (by simp [LoopReturned, recvAt, noteWritten, hsender])
    | writeFailed data n err _ _ => exact absurd (hwrite _ rfl) (by simp [hconn])
    | halfClosed _ => exact absurd hnew (by simp [LoopReturned, halfClosed, hsender])
    | closed code message hpc => exact .closed code message hpc rfl rfl
    | checkDone err _ hdone => exact absurd hdone (by simp [hctx])
    | checkLive _ _ => exact absurd hnew (by simp [LoopReturned, recvAt, hsender])
  | bridge ev e' hmove _ =>
    refine absurd ?_ hold
    unfold LoopReturned at hnew ⊢
    rw [hmove.frame.sender, hmove.frame.receiver] at hnew
    exact hnew

end Turn

variable {split : Split K} {s t : Tunnel K} {a : Act}

/-- A step of the tunnel seen from one side. -/
inductive SideStep (libs : Libs K) (s : Tunnel K) (a : Act) (side : Side) :
    Endpoint K → Leg → Prop
  | same : SideStep libs s a side (s.pair.endpoint side) (s.leg side)
  | turn (ev : Event) (ledger : Ledger K) (e : Endpoint K) (leg : Leg) :
      Turn libs s.pair.ledger (s.pair.endpoint side) (s.leg side) ev ledger e leg →
      a = .endpoint side ev → SideStep libs s a side e leg
  | served (ev : HandlerEvent Bytes) (leg : Leg) :
      Served (onDone side) s.ctx (s.pair.endpoint side).sendClosed (s.leg side) ev leg →
      a = .relay side ev → SideStep libs s a side (s.pair.endpoint side) leg
  | handed (payload : Bytes) : (s.leg side).handler.pump = .handing payload →
      SideStep libs s a side (s.pair.endpoint side) (handed (s.leg side) payload)
  | taken (payload : Bytes) : (s.leg side).handler.loop = .selecting →
      SideStep libs s a side (s.pair.endpoint side) (taken (s.leg side) payload)
  | cancelled (result : Option Err) : (s.leg side).handler.loop = .exited result →
      SideStep libs s a side (s.pair.endpoint side) { s.leg side with cancelled := true }
  | finished : (s.leg side).cancelled = true →
      SideStep libs s a side (s.pair.endpoint side) { s.leg side with finished := true }

/-- An update of one leg leaves the other side as it was. -/
theorem SideStep.update {actor : Side} {leg : Leg}
    (h : SideStep libs s a actor (s.pair.endpoint actor) leg) (side : Side) :
    SideStep libs s a side (s.pair.endpoint side) (Function.update s.leg actor leg side) := by
  by_cases hside : side = actor
  · subst hside
    simpa using h
  · rw [Function.update_of_ne hside]
    exact .same

theorem Step.side (hstep : Step libs s a t) (side : Side) :
    SideStep libs s a side (t.pair.endpoint side) (t.leg side) := by
  cases hstep with
  | endpoint actor ev ledger e leg hturn =>
    by_cases hside : side = actor
    · subst hside
      simpa using SideStep.turn ev ledger e leg hturn rfl
    · simpa [hside] using SideStep.same
  | relay actor ev leg hserved => exact (SideStep.served ev leg hserved rfl).update side
  | cross actor payload hpump hloop =>
    rcases side.eq_or_eq_peer actor with rfl | rfl
    · rw [crossed_leg]
      exact .handed payload hpump
    · rw [crossed_leg_peer]
      exact .taken payload hloop
  | cancel actor result hloop => exact (SideStep.cancelled result hloop).update side
  | finish actor hcancelled => exact (SideStep.finished hcancelled).update side
  | abort _ => exact .same

section Side

variable {side : Side} {e : Endpoint K} {leg : Leg}

theorem SideStep.loopInv (hstep : SideStep libs s a side e leg)
    (hresult : (s.pair.endpoint side).ResultInv) (h : (s.pair.endpoint side).LoopInv) :
    e.LoopInv := by
  cases hstep with
  | turn ev ledger e leg hturn => exact hturn.loopInv hresult h
  | _ => exact h

theorem SideStep.remoteEOF (hstep : SideStep libs s a side e leg)
    (h : (s.pair.endpoint side).remoteEOF = true) : e.remoteEOF = true := by
  cases hstep with
  | turn ev ledger e leg hturn => exact hturn.remoteEOF h
  | _ => exact h

theorem SideStep.sender_returned (hstep : SideStep libs s a side e leg)
    (h : (s.pair.endpoint side).sender.pc = .returned) : e.sender.pc = .returned := by
  cases hstep with
  | turn ev ledger e leg hturn => exact hturn.sender_returned h
  | _ => exact h

theorem SideStep.receiver_returned (hstep : SideStep libs s a side e leg)
    (h : (s.pair.endpoint side).receiver.pc = .returned) : e.receiver.pc = .returned := by
  cases hstep with
  | turn ev ledger e leg hturn => exact hturn.receiver_returned h
  | _ => exact h

theorem SideStep.sendClosed (hstep : SideStep libs s a side e leg)
    (h : (s.pair.endpoint side).sendClosed = true) : e.sendClosed = true := by
  cases hstep with
  | turn ev ledger e leg hturn => exact hturn.sendClosed h
  | _ => exact h

theorem SideStep.sent_grows (hstep : SideStep libs s a side e leg) :
    (s.pair.endpoint side).sender.sent <+: e.sender.sent := by
  cases hstep with
  | turn ev ledger e leg hturn => exact hturn.sent_grows
  | _ => exact List.prefix_rfl

theorem SideStep.sealed_grows (hstep : SideStep libs s a side e leg) :
    (s.pair.endpoint side).sender.sealed <+: e.sender.sealed := by
  cases hstep with
  | turn ev ledger e leg hturn => exact hturn.sealed_grows
  | _ => exact List.prefix_rfl

/-- The payloads that a handler has handed over and sent only grow. -/
theorem SideStep.forwarded (hstep : SideStep libs s a side e leg) :
    (s.leg side).handler.handed.length ≤ leg.handler.handed.length ∧
      (s.leg side).handler.sent.length ≤ leg.handler.sent.length := by
  cases hstep with
  | turn ev ledger e leg hturn => rw [hturn.handler]; exact ⟨le_rfl, le_rfl⟩
  | served ev leg hserved =>
    cases hserved with
    | sent payload _ => exact ⟨le_rfl, by simp⟩
    | _ => exact ⟨le_rfl, le_rfl⟩
  | handed payload _ => exact ⟨by simp [Tunnel.handed], le_rfl⟩
  | _ => exact ⟨le_rfl, le_rfl⟩

/-- A loop that has left its `select` and a goroutine that is done stay so. -/
theorem SideStep.exited (hstep : SideStep libs s a side e leg) {result : Option Err}
    (h : (s.leg side).handler.loop = .exited result) : leg.handler.loop = .exited result := by
  cases hstep with
  | turn ev ledger e leg hturn => rw [hturn.handler, h]
  | served ev leg hserved => cases hserved <;> simp_all
  | taken payload hloop => simp [hloop] at h
  | _ => exact h

theorem SideStep.done (hstep : SideStep libs s a side e leg) {err : Err}
    (h : (s.leg side).handler.pump = .done err) : leg.handler.pump = .done err := by
  cases hstep with
  | turn ev ledger e leg hturn => rw [hturn.handler, h]
  | served ev leg hserved => cases hserved <;> simp_all
  | handed payload hpump => simp [hpump] at h
  | _ => exact h

theorem SideStep.ended (hstep : SideStep libs s a side e leg)
    (h : ended (s.leg side).handler.pump = true) : ended leg.handler.pump = true := by
  cases hpump : (s.leg side).handler.pump with
  | done err =>
    rw [hpump] at h
    rw [hstep.done hpump, h]
  | _ =>
    rw [hpump] at h
    contradiction

/-- Why a handler's loop may leave. -/
theorem SideStep.loop_exits (hstep : SideStep libs s a side e leg) {result : Option Err}
    (h : leg.handler.loop = .exited result) :
    (s.leg side).handler.loop = .exited result ∨ s.ctx ≠ none ∨ (s.leg side).reset = true ∨
      ∃ err, (s.leg side).handler.pump = .done err := by
  cases hstep with
  | turn ev ledger e leg hturn => exact .inl (hturn.handler ▸ h)
  | served ev leg hserved =>
    cases hserved with
    | received payload up _ _ => exact .inl h
    | ended _ _ _ => exact .inl h
    | canceled _ _ => exact .inl h
    | gaveUp payload err _ _ => exact .inl h
    | sent payload _ => contradiction
    | sendFailed payload err _ hreset => exact .inr (.inr (.inl hreset))
    | tookErr err _ hpump => exact .inr (.inr (.inr ⟨err, hpump⟩))
    | tookDone err _ hctx => exact .inr (.inl (by simp [hctx]))
  | taken payload _ => contradiction
  | _ => exact .inl h

/-- Why a goroutine may have failed. -/
theorem SideStep.pump_fails (hstep : SideStep libs s a side e leg)
    (h : leg.handler.pump.failed = true) :
    (s.leg side).handler.pump.failed = true ∨
    ((s.leg side).handler.pump = .receiving ∧
      ((s.leg side).reset = true ∨ (s.leg side).cancelled = true)) ∨
    ∃ payload, (s.leg side).handler.pump = .handing payload ∧ s.ctx ≠ none := by
  cases hstep with
  | turn ev ledger e leg hturn => exact .inl (hturn.handler ▸ h)
  | served ev leg hserved =>
    cases hserved with
    | received payload up _ _ => contradiction
    | ended _ _ _ => contradiction
    | canceled hor hpump => exact .inr (.inl ⟨hpump, hor⟩)
    | gaveUp payload err hpump hctx => exact .inr (.inr ⟨payload, hpump, by simp [hctx]⟩)
    | _ => exact .inl h
  | handed payload _ => contradiction
  | _ => exact .inl h

/-- A send side that has been seen to end stays drained and closed. -/
theorem SideStep.eof (hstep : SideStep libs s a side e leg)
    (h : Tunnel.ended (s.leg side).handler.pump = true → (s.leg side).up.queue = [] ∧
      (s.pair.endpoint side).sendClosed = true)
    (hended : Tunnel.ended leg.handler.pump = true) :
    leg.up.queue = [] ∧ e.sendClosed = true := by
  cases hstep with
  | turn ev ledger e leg hturn =>
    rw [hturn.handler] at hended
    obtain ⟨hqueue, hclosed⟩ := h hended
    refine ⟨?_, hturn.sendClosed hclosed⟩
    cases hturn with
    | sent stage ciphertext _ hopen _ => simp [hopen] at hclosed
    | _ => exact hqueue
  | served ev leg hserved =>
    cases hserved with
    | received payload up _ _ => contradiction
    | ended hqueue hclosed _ => exact ⟨hqueue, hclosed⟩
    | canceled _ _ => contradiction
    | gaveUp payload err _ _ => cases err <;> contradiction
    | _ => exact h hended
  | handed payload _ => contradiction
  | _ => exact h hended

theorem SideStep.sendFails (hstep : SideStep libs s a side e leg)
    (h : leg.handler.sendFailed = true) :
    (s.leg side).handler.sendFailed = true ∨ (s.leg side).reset = true := by
  cases hstep with
  | turn ev ledger e leg hturn => exact .inl (hturn.handler ▸ h)
  | served ev leg hserved =>
    cases hserved with
    | sendFailed payload err _ hreset => exact .inr hreset
    | _ => exact .inl h
  | _ => exact .inl h

/-- Why a stream may be reset. -/
theorem SideStep.resets (hstep : SideStep libs s a side e leg) (h : leg.reset = true) :
    (s.leg side).reset = true ∨ (s.pair.endpoint side).sendClosed = true ∧
      (s.pair.endpoint side).sender.pc ≠ .returned := by
  cases hstep with
  | turn ev ledger e leg hturn =>
    cases hturn with
    | sentLate stage ciphertext hpc hclosed => exact .inr ⟨hclosed, by simp [hpc]⟩
    | _ => exact .inl h
  | served ev leg hserved => cases hserved <;> exact .inl h
  | _ => exact .inl h

theorem SideStep.reset (hstep : SideStep libs s a side e leg) (h : (s.leg side).reset = true) :
    leg.reset = true := by
  cases hstep with
  | turn ev ledger e leg hturn =>
    cases hturn with
    | sentLate stage ciphertext _ _ => rfl
    | _ => exact h
  | served ev leg hserved => cases hserved <;> exact h
  | _ => exact h

/-- How the first loop of a side returns in a step of the tunnel. -/
theorem SideStep.ends (hstep : SideStep libs s a side e leg)
    (hloop : (s.pair.endpoint side).LoopInv)
    (hdecrypts : Decrypts libs s.pair.ledger (s.pair.endpoint side))
    (hset : .unset ∉ e.receiver.opened) (hold : ¬ (s.pair.endpoint side).LoopReturned)
    (hnew : e.LoopReturned) : Ends (s.pair.endpoint side) e (s.leg side) := by
  cases hstep with
  | turn ev ledger e leg hturn => exact hturn.ends hloop hdecrypts hset hold hnew
  | _ => exact absurd hnew hold

/-- A handler runs its deferred `cancel` after its loop, and returns after that. -/
theorem SideStep.leaves (hstep : SideStep libs s a side e leg)
    (hcancelled : (s.leg side).cancelled = true →
      ∃ result, (s.leg side).handler.loop = .exited result)
    (hfinished : (s.leg side).finished = true → (s.leg side).cancelled = true) :
    (leg.cancelled = true → ∃ result, leg.handler.loop = .exited result) ∧
      (leg.finished = true → leg.cancelled = true) := by
  have hstay : (s.leg side).cancelled = true → ∃ result, leg.handler.loop = .exited result :=
    fun hc ↦ (hcancelled hc).imp fun _ ↦ hstep.exited
  cases hstep with
  | turn ev ledger e leg hturn =>
    have hsame : leg.cancelled = (s.leg side).cancelled ∧
        leg.finished = (s.leg side).finished := by
      cases hturn <;> exact ⟨rfl, rfl⟩
    rw [hsame.1, hsame.2]
    exact ⟨hstay, hfinished⟩
  | served ev leg hserved =>
    have hsame : leg.cancelled = (s.leg side).cancelled ∧
        leg.finished = (s.leg side).finished := by
      cases hserved <;> exact ⟨rfl, rfl⟩
    rw [hsame.1, hsame.2]
    exact ⟨hstay, hfinished⟩
  | cancelled result hloop => exact ⟨fun _ ↦ ⟨result, hloop⟩, fun _ ↦ rfl⟩
  | finished hc => exact ⟨hstay, fun _ ↦ hc⟩
  | _ => exact ⟨hstay, hfinished⟩

end Side

end RelayCat.Tunnel
