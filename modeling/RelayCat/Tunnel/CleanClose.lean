import RelayCat.Tunnel.HalfClose

/-!
# When a clean close is reported as clean

Nothing fails, and still two orders of events make `Bridge` return an error. A `Close` that
`sendLoop` sends after `Bridge` has called `CloseSend` is refused by the stream. An agent that
shuts its side on the client's `Close`, without a `Close` of its own, makes `Accept` cancel the
session, and `Connect` then ends the client's stream with a status that is not a normal close.
Without these two orders every `Bridge` that returns, returns nil.
-/

namespace RelayCat.Bridge

open Go Wire Noise

/-- `Bridge` does not report this result of a loop. -/
def Harmless (result : Option Err) : Prop :=
  ∀ err, result = some err → isNormalClose err = true

theorem harmless_none : Harmless none := fun _ herr ↦ by contradiction

theorem harmless_some {err : Err} (h : isNormalClose err = true) : Harmless (some err) := by
  rintro _ ⟨⟩
  exact h

theorem bridgeResult_of_harmless {first second : Option Err} (hfirst : Harmless first)
    (hsecond : Harmless second) : bridgeResult first second = none := by
  have hfilter : ∀ result, Harmless result →
      result.filter (fun err ↦ !isNormalClose err) = none := by
    intro result hresult
    cases result with
    | none => rfl
    | some err => simp [Option.filter, hresult err rfl]
  simp [bridgeResult, hfilter first hfirst, hfilter second hsecond]

/-- A connection fails normally once it is closed. -/
theorem isNormalClose_of_closed {err : Err} (h : connErr true err = true) :
    isNormalClose err = true := by
  simp only [connErr, Bool.and_eq_true, beq_iff_eq] at h
  simp [isNormalClose, h.1.1]

namespace Endpoint

variable {K : Type}

/-- `Bridge` has nothing to report. -/
structure Clean (e : Endpoint K) : Prop where
  ctx : ∀ err, e.ctx = some err → err = .canceled
  errCh : ∀ result ∈ e.errCh, Harmless result
  first : ∀ result, e.bridge.firstResult = some result → Harmless result
  returned : ∀ result, e.bridge = .returned result → result = none

theorem Clean.ctxErr {e : Endpoint K} (h : e.Clean) {err : CtxErr} (hctx : e.ctx = some err) :
    Harmless (some err.err) := by
  rw [h.ctx err hctx]
  exact harmless_some rfl

theorem Clean.loop {e e' : Endpoint K} (h : e.Clean) (hctx : e'.ctx = e.ctx)
    (hbridge : e'.bridge = e.bridge)
    (hresults : ∀ result ∈ e'.errCh, result ∈ e.errCh ∨ Harmless result) : e'.Clean where
  ctx := hctx ▸ h.ctx
  errCh result hmem := (hresults result hmem).elim (h.errCh result) id
  first := hbridge ▸ h.first
  returned := hbridge ▸ h.returned

theorem BridgeMove.clean {e e' : Endpoint K} {ev : BridgeEvent} (hmove : BridgeMove e ev e')
    (hparent : ∀ err, ev ≠ .cancelParent err) (h : e.Clean) : e'.Clean := by
  have hfirst := h.first
  cases hmove with
  | first result rest _ herrCh =>
    have hresults := h.errCh
    rw [herrCh, List.forall_mem_cons] at hresults
    refine ⟨h.ctx, hresults.2, ?_, fun _ hpc ↦ by contradiction⟩
    rintro _ hresult
    cases hresult
    exact hresults.1
  | cancel result hpc =>
    rw [hpc] at hfirst
    refine ⟨?_, h.errCh, hfirst, fun _ hpc ↦ by contradiction⟩
    intro err herr
    cases hctx : e.ctx with
    | none => simpa [hctx] using herr.symm
    | some err' => exact h.ctx err (by simpa [hctx] using herr)
  | closeConn result hpc =>
    rw [hpc] at hfirst
    exact ⟨h.ctx, h.errCh, hfirst, fun _ hpc ↦ by contradiction⟩
  | closeSend result hpc =>
    rw [hpc] at hfirst
    exact ⟨h.ctx, h.errCh, hfirst, fun _ hpc ↦ by contradiction⟩
  | second result other rest hpc herrCh =>
    have hresults := h.errCh
    rw [herrCh, List.forall_mem_cons] at hresults
    rw [hpc] at hfirst
    refine ⟨h.ctx, hresults.2, fun _ hfirst ↦ by contradiction, ?_⟩
    rintro _ hresult
    cases hresult
    exact bridgeResult_of_harmless (hfirst result rfl) hresults.1
  | cancelParent err => exact absurd rfl (hparent err)

end Endpoint

end RelayCat.Bridge

namespace RelayCat.Tunnel

open Go Wire Noise Automaton Bridge Relay Endpoint

variable {K : Type}

/-- The `Close` of a side is among the first `n` frames that the side has sealed. -/
def CloseWithin (s : Tunnel K) (side : Side) (n : ℕ) : Prop :=
  .close .normal "" ∈ (s.pair.endpoint side).sender.sealed.take n

instance (s : Tunnel K) (side : Side) (n : ℕ) : Decidable (s.CloseWithin side n) :=
  inferInstanceAs (Decidable (_ ∈ _))

/-- The handler of a side has handed the side's `Close` to the other handler. -/
def CloseHanded (s : Tunnel K) (side : Side) : Prop :=
  s.CloseWithin side (s.leg side).handler.handed.length

/-- The other handler has sent the side's `Close` to the peer. -/
def CloseForwarded (s : Tunnel K) (side : Side) : Prop :=
  s.CloseWithin side (s.leg side.peer).handler.sent.length

instance (s : Tunnel K) (side : Side) : Decidable (s.CloseForwarded side) :=
  inferInstanceAs (Decidable (s.CloseWithin side _))

/-- A side has sent its `Close`, or the peer's has passed from one handler to the other. -/
def Concluded (s : Tunnel K) (side : Side) : Prop :=
  .close .normal "" ∈ (s.pair.endpoint side).sender.sent ∨ s.CloseHanded side.peer

/-- `sendLoop` sends nothing after `CloseSend`, and `Connect` leaves through its context only when
it has forwarded the agent's `Close` or the client's `recvLoop` has returned. -/
def Orderly (s : Tunnel K) : Act → Prop
  | .endpoint side (.send (.transmit _)) => (s.pair.endpoint side).sendClosed = false
  | .relay .client .takeDone =>
    s.CloseForwarded .agent ∨ (s.pair.endpoint .client).receiver.pc = .returned
  | _ => True

instance (s : Tunnel K) (a : Act) : Decidable (s.Orderly a) := by
  unfold Orderly
  split <;> infer_instance

/-- The loop of a side's handler has not returned. -/
def Looping (s : Tunnel K) (side : Side) : Prop :=
  ∀ result, (s.leg side).handler.loop ≠ .exited result

/-- What holds while all steps are orderly. -/
structure CleanInv (s : Tunnel K) : Prop where
  reset : ∀ side, (s.leg side).reset = false
  concluded : ∀ side, (s.pair.endpoint side).LoopReturned → s.Concluded side
  torn : s.TornDown → ∀ side, s.Concluded side
  ended : s.TornDown → ∀ side, s.Looping side →
    ended (s.leg side.peer).handler.pump = true
  failed : ∀ side, (s.leg side).handler.pump.failed = true → s.Looping side →
    s.CloseHanded side.peer
  forwarded : ∀ side err, (s.leg side).handler.loop = .exited (some err) →
    s.CloseForwarded side.peer ∨ (s.pair.endpoint side).receiver.pc = .returned
  clean : ∀ side, (s.pair.endpoint side).Clean

section States

variable {libs : Libs K} {split : Split K} {s : Tunnel K}

theorem CloseWithin.mono {side : Side} {m n : ℕ} (h : s.CloseWithin side m) (hle : m ≤ n) :
    s.CloseWithin side n :=
  (List.take_prefix_take_left hle).subset h

/-- A side has sent a `Close` exactly if it is among the sealed frames that were sent. -/
theorem Base.closeWithin_sent (h : Base libs split s) (side : Side) :
    s.CloseWithin side (s.pair.endpoint side).sender.sent.length ↔
      .close .normal "" ∈ (s.pair.endpoint side).sender.sent := by
  unfold CloseWithin
  rw [← List.prefix_iff_eq_take.mp (h.pair.sender side).settled.sent_prefix_sealed]

/-- A peer has opened a `Close` exactly if it is among the sealed frames that were opened. -/
theorem Base.closeWithin_opened (h : Base libs split s) (side : Side) :
    s.CloseWithin side.peer (s.pair.endpoint side).receiver.opened.length ↔
      .close .normal "" ∈ (s.pair.endpoint side).receiver.opened := by
  have hlink := (h.pair.link side.peer).opened
  rw [Side.peer_peer] at hlink
  unfold CloseWithin
  rw [← List.prefix_iff_eq_take.mp hlink]

theorem Base.sent_of_handed (h : Base libs split s) {side : Side} (hhanded : s.CloseHanded side) :
    .close .normal "" ∈ (s.pair.endpoint side).sender.sent :=
  (h.closeWithin_sent side).mp (CloseWithin.mono hhanded (h.delivery.handed_length_le side))

/-- A drained send side has handed over the `Close` that it sent. -/
theorem Base.handed_of_sent (h : Base libs split s) (hteardown : TeardownInv s) {side : Side}
    (hended : Tunnel.ended (s.leg side).handler.pump = true)
    (hsent : .close .normal "" ∈ (s.pair.endpoint side).sender.sent) : s.CloseHanded side := by
  unfold CloseHanded
  rw [h.delivery.taken_length hended (hteardown.eof side hended).1]
  exact (h.closeWithin_sent side).mpr hsent

/-- A send side that is seen to end has concluded, and so has its peer. -/
theorem CleanInv.concluded_of_ended (h : CleanInv s) (hbase : Base libs split s)
    (hteardown : TeardownInv s) {side : Side}
    (hended : Tunnel.ended (s.leg side).handler.pump = true) (other : Side) :
    s.Concluded other := by
  have hclosed := (hteardown.eof side hended).2
  have hside := h.concluded side ((hbase.loops side).returned_of_undone (.inr (.inr hclosed)))
  rcases other.eq_or_eq_peer side with rfl | rfl
  · exact hside
  · rcases hside with hsent | hhanded
    · right
      rw [Side.peer_peer]
      exact hbase.handed_of_sent hteardown hended hsent
    · exact .inl (hbase.sent_of_handed hhanded)

/-- A goroutine that still holds a payload has not handed over its side's `Close`. -/
theorem Base.not_handed (h : Base libs split s) {side : Side} {payload : Bytes}
    (hpump : (s.leg side).handler.pump = .handing payload) : ¬ s.CloseHanded side := by
  intro hhanded
  have hlast := (h.pair.sender side).settled.length_le hhanded
  have hreceived := (h.delivery.handler side).received_eq (by simp [hpump, PumpPc.failed])
  rw [hpump, (h.delivery.up side).received] at hreceived
  have hlength := congrArg List.length hreceived
  simp only [PumpPc.held, List.length_append, List.length_cons, List.length_nil] at hlength
  have hpopped := (Fifo.popped_prefix_pushed (s.leg side).up).length_le
  rw [(h.delivery.up side).accepted] at hpopped
  have hsent := (h.pair.sender side).settled.sent_prefix_sealed.length_le
  omega

/-- A goroutine gives up only when the peer's `Close` has passed it. -/
theorem CleanInv.handed_of_giveUp (h : CleanInv s) (hbase : Base libs split s)
    (hteardown : TeardownInv s) {side : Side} {payload : Bytes}
    (hpump : (s.leg side).handler.pump = .handing payload) (hctx : s.ctx ≠ none)
    (hlooping : s.Looping side) : s.CloseHanded side.peer := by
  have hended := h.ended (.inl hctx) side hlooping
  rcases h.torn (.inl hctx) side.peer with hsent | hhanded
  · exact hbase.handed_of_sent hteardown hended hsent
  · rw [Side.peer_peer] at hhanded
    exact absurd hhanded (hbase.not_handed hpump)

/-- A loop that is ready for the next event has sent everything it has taken. -/
theorem Base.forwarded_of_handed (h : Base libs split s) {side : Side}
    (hloop : (s.leg side).handler.loop = .selecting) (hhanded : s.CloseHanded side.peer) :
    s.CloseForwarded side.peer := by
  have htaken := (h.delivery.handler side).taken_eq
    ((h.delivery.handler side).not_sendFailed (by simp [hloop]))
  have hcrossed := h.delivery.crossed side.peer
  rw [Side.peer_peer, htaken, hloop] at hcrossed
  unfold CloseForwarded
  unfold CloseHanded at hhanded
  rw [hcrossed] at hhanded
  simpa [LoopPc.held] using hhanded

/-- A stream that ends after its last frame ends normally. -/
theorem CleanInv.ending_normal (h : CleanInv s) (hbase : Base libs split s) {side : Side}
    (hpc : (s.pair.endpoint side).receiver.pc = .receiving)
    (hqueue : (s.leg side).down.queue = []) : isNormalClose (ending (s.leg side)) = true := by
  unfold ending
  split
  · rename_i err hloop
    have hforwarded := (h.forwarded side err hloop).resolve_right (by simp [hpc])
    have hlength := hbase.delivery.opened_length hqueue (by simp [hpc, RecvPc.inHand])
    unfold CloseForwarded at hforwarded
    rw [Side.peer_peer, ← hlength, hbase.closeWithin_opened side] at hforwarded
    have hclosed := (hbase.pair.recv side).closed _ _ hforwarded
    simp [hpc] at hclosed
  · rfl

end States

section Turn

variable [DecidableEq K] {libs : Libs K} {ledger ledger' : Ledger K} {e e' : Endpoint K}
  {leg leg' : Leg} {ev : Event}

/-- Every result that a loop adds is harmless if nothing is sent after `CloseSend` and the stream
ends normally. -/
theorem Turn.harmless (hturn : Turn libs ledger e leg ev ledger' e' leg') (hloop : e.LoopInv)
    (hdecrypts : Decrypts libs ledger e) (hset : .unset ∉ e'.receiver.opened)
    (hnormal : ∀ code message, .close code message ∈ e.receiver.opened → code = .normal)
    (hopen : ∀ result, ev = .send (.transmit result) → e.sendClosed = false)
    (hending : e.receiver.pc = .receiving → leg.down.queue = [] →
      isNormalClose (ending leg) = true)
    (h : e.Clean) : ∀ result ∈ e'.errCh, result ∈ e.errCh ∨ Harmless result := by
  have hpush : ∀ {last : Option Err}, Harmless last →
      ∀ result ∈ e.errCh ++ [last], result ∈ e.errCh ∨ Harmless result := by
    intro last hlast result hmem
    rcases List.mem_append.mp hmem with hold | hnew
    · exact .inl hold
    · exact .inr (List.mem_singleton.mp hnew ▸ hlast)
  have hkeep : ∀ result ∈ e.errCh, result ∈ e.errCh ∨ Harmless result := fun _ ↦ .inl
  cases hturn with
  | readEmpty readErr _ hallowed hfailed =>
    cases readErr with
    | failed err =>
      rw [hfailed err rfl] at hallowed
      simp only [readAllowed, Bool.and_eq_true] at hallowed
      refine hpush (harmless_some ?_)
      rw [isNormalClose_errorf]
      exact isNormalClose_of_closed hallowed.1.2
    | nil => exact hkeep
    | eof => exact hkeep
  | sent stage ciphertext hpc _ _ =>
    cases stage with
    | data chunk readErr =>
      have hreading := hloop.reading
      rw [hpc] at hreading
      cases readErr with
      | failed err => contradiction
      | nil => exact hkeep
      | eof => exact hkeep
    | halfClose => exact hkeep
    | close => exact hpush harmless_none
  | sendEnded stage ciphertext _ _ _ => exact hpush (harmless_some rfl)
  | sentLate stage ciphertext _ hclosed =>
    rw [hopen _ rfl] at hclosed
    contradiction
  | ctxDone err _ hctx => exact hpush (h.ctxErr hctx)
  | recvEnded hpc hqueue _ => exact hpush (harmless_some (hending hpc hqueue))
  | recvOwn ev e' hmove hreceive hwrite =>
    cases hmove with
    | receiveFailed err _ => exact absurd rfl (hreceive _)
    | received ciphertext _ => exact absurd rfl (hreceive _)
    | rejected ciphertext err hpc _ hnone => exact (hdecrypts.not_rejected hpc hnone).elim
    | garbled plaintext ciphertext err hpc _ hbad hfound =>
      exact (hdecrypts.not_garbled hpc hbad hfound).elim
    | opened plaintext ciphertext frame _ _ _ =>
      rcases frame with (_ | ⟨b, bs⟩) | _ | _ | _
      case unset => exact absurd (List.mem_append_right _ List.mem_cons_self) hset
      all_goals exact hkeep
    | writeFailed data n err _ hconn =>
      rw [hwrite _ rfl] at hconn
      refine hpush (harmless_some ?_)
      rw [isNormalClose_errorf]
      exact isNormalClose_of_closed hconn
    | closed code message hpc =>
      rw [if_pos (hnormal code message (hloop.closing code message hpc))]
      exact hpush harmless_none
    | checkDone err _ hctx => exact hpush (h.ctxErr hctx)
    | _ => exact hkeep
  | bridge ev e' hmove hparent =>
    cases hmove with
    | first result rest _ herrCh =>
      exact fun _ hmem ↦ .inl (herrCh ▸ List.mem_cons_of_mem _ hmem)
    | second result other rest _ herrCh =>
      exact fun _ hmem ↦ .inl (herrCh ▸ List.mem_cons_of_mem _ hmem)
    | _ => exact hkeep
  | _ => exact hkeep

end Turn

section Steps

variable [DecidableEq K] {libs : Libs K} {split : Split K} {s t : Tunnel K} {a : Act}

/-- Endpoints stay clean along orderly steps. -/
theorem SideStep.clean {side : Side} {e : Endpoint K} {leg : Leg}
    (hstep : SideStep libs s a side e leg) (horderly : s.Orderly a) (hbase : Base libs split s)
    (hset : .unset ∉ e.receiver.opened) (h : CleanInv s) : e.Clean := by
  have hclean := h.clean side
  cases hstep with
  | turn ev ledger e leg hturn ha =>
    subst ha
    have hnormal : ∀ code message,
        .close code message ∈ (s.pair.endpoint side).receiver.opened → code = .normal := by
      intro code message hmem
      have hsent := (hbase.delivery.opened_prefix_sent hbase.pair side).subset hmem
      have hsettled := (hbase.pair.sender side.peer).settled
      exact (hsettled.close_normal (hsettled.sent_prefix_sealed.subset hsent)).1
    have hresults := hturn.harmless (hbase.loops side) (hbase.delivery.decrypts hbase.pair side)
      hset hnormal (by rintro result rfl; exact horderly)
      (fun hpc hqueue ↦ h.ending_normal hbase hpc hqueue) hclean
    rcases hturn.frame with hframe | hframe | ⟨ev, hmove, hparent⟩
    · exact hclean.loop hframe.ctx hframe.bridge hresults
    · exact hclean.loop hframe.ctx hframe.bridge hresults
    · exact hmove.clean hparent hclean
  | _ => exact hclean

/-- Orderly steps reset no stream. -/
theorem SideStep.not_reset {side : Side} {e : Endpoint K} {leg : Leg}
    (hstep : SideStep libs s a side e leg) (horderly : s.Orderly a)
    (h : (s.leg side).reset = false) : leg.reset = false := by
  cases hstep with
  | turn ev ledger e leg hturn ha =>
    subst ha
    cases hturn with
    | sentLate stage ciphertext _ hclosed =>
      rw [show (s.pair.endpoint side).sendClosed = false from horderly] at hclosed
      contradiction
    | _ => exact h
  | served ev leg hserved => cases hserved <;> exact h
  | _ => exact h

/-- How a handler's loop may leave with an error. -/
theorem SideStep.loop_fails {side : Side} {e : Endpoint K} {leg : Leg} {err : Err}
    (hstep : SideStep libs s a side e leg) (h : leg.handler.loop = .exited (some err)) :
    (s.leg side).handler.loop = .exited (some err) ∨ (s.leg side).reset = true ∨
      (s.leg side).handler.loop = .selecting ∧ (s.leg side).handler.pump.failed = true ∨
      side = .client ∧ a = .relay .client .takeDone := by
  cases hstep with
  | turn ev ledger e leg hturn => exact .inl (hturn.handler ▸ h)
  | served ev leg hserved ha =>
    subst ha
    cases hserved with
    | sent payload _ => contradiction
    | sendFailed payload err _ hreset => exact .inr (.inl hreset)
    | tookErr err hloop hpump =>
      refine .inr (.inr (.inl ⟨hloop, ?_⟩))
      rw [hpump]
      by_contra hnot
      have heof : err.is .eof = true := by simpa [PumpPc.failed] using hnot
      simp [heof] at h
    | tookDone err _ _ =>
      cases side with
      | client => exact .inr (.inr (.inr ⟨rfl, rfl⟩))
      | agent => simp [onDone, acceptDone] at h
    | _ => exact .inl h
  | taken payload _ => contradiction
  | _ => exact .inl h

theorem Step.closeWithin (hstep : Step libs s a t) {side : Side} {m n : ℕ}
    (h : s.CloseWithin side m) (hle : m ≤ n) : t.CloseWithin side n :=
  (((hstep.side side).sealed_grows.take m).trans (List.take_prefix_take_left hle)).subset h

theorem Step.closeHanded (hstep : Step libs s a t) {side : Side} (h : s.CloseHanded side) :
    t.CloseHanded side :=
  hstep.closeWithin h (hstep.side side).forwarded.1

theorem Step.concluded (hstep : Step libs s a t) {side : Side} (h : s.Concluded side) :
    t.Concluded side :=
  h.imp (fun hsent ↦ (hstep.side side).sent_grows.subset hsent) hstep.closeHanded

theorem Step.looping (hstep : Step libs s a t) {side : Side} (h : t.Looping side) :
    s.Looping side :=
  fun result hloop ↦ h result ((hstep.side side).exited hloop)

/-- An orderly teardown starts with a send side that is seen to end. -/
theorem Step.tears_ended (hstep : Step libs s a t) (hteardown : TeardownInv s) (h : CleanInv s)
    (htorn : t.TornDown) : s.TornDown ∨ ∃ side, Tunnel.ended (s.leg side).handler.pump = true ∧
      ¬ t.Looping side := by
  rcases hstep.tears htorn with hold | ⟨side, hreset⟩ | ⟨side, err, hpump, result, hexit⟩
  · exact .inl hold
  · rw [h.reset side] at hreset
    contradiction
  · cases heof : err.is .eof with
    | true => exact .inr ⟨side, by simpa [hpump, ended] using heof, fun hl ↦ hl result hexit⟩
    | false =>
      rcases hteardown.failed side (by simp [hpump, PumpPc.failed, heof]) with hold | hreset
      · exact .inl hold
      · rw [h.reset side] at hreset
        contradiction

/-- The first loop of a side returns when the side has concluded. -/
theorem Step.concludes (hstep : Step libs s a t) (hbase : Base libs split s)
    (hteardown : TeardownInv s) (hpair : Pair.Inv libs split t.pair) (h : CleanInv s) {side : Side}
    (hnew : (t.pair.endpoint side).LoopReturned) : t.Concluded side := by
  by_cases hold : (s.pair.endpoint side).LoopReturned
  · exact hstep.concluded (h.concluded side hold)
  have htorn : (s.leg side).finished = true → s.Concluded side := by
    intro hfinished
    obtain ⟨result, hloop⟩ := hteardown.cancelled side (hteardown.finished side hfinished)
    exact h.torn (.inr ⟨side, result, hloop⟩) side
  cases hstep.ends hbase hpair hold hnew with
  | sentClose ciphertext _ hsent _ => exact .inl hsent
  | sendEnded stage ciphertext _ _ hfinished _ => exact hstep.concluded (htorn hfinished)
  | recvEnded _ _ hfinished _ => exact hstep.concluded (htorn hfinished)
  | closed code message hpc _ _ =>
    have hopened := (hbase.loops side).closing code message hpc
    have hsent := (hbase.delivery.opened_prefix_sent hbase.pair side).subset hopened
    have hsettled := (hbase.pair.sender side.peer).settled
    obtain ⟨rfl, rfl⟩ := hsettled.close_normal (hsettled.sent_prefix_sealed.subset hsent)
    refine hstep.concluded (.inr ?_)
    exact ((hbase.closeWithin_opened side).mpr hopened).mono (hbase.delivery.opened_length_le side)

theorem Step.fails (hstep : Step libs s a t) (hbase : Base libs split s)
    (hteardown : TeardownInv s) (h : CleanInv s) {side : Side}
    (hfailed : (t.leg side).handler.pump.failed = true) (hlooping : t.Looping side) :
    t.CloseHanded side.peer := by
  have hlooping' := hstep.looping hlooping
  refine hstep.closeHanded ?_
  rcases (hstep.side side).pump_fails hfailed with
    hold | ⟨_, hreset | hcancelled⟩ | ⟨payload, hpump, hctx⟩
  · exact h.failed side hold hlooping'
  · rw [h.reset side] at hreset
    contradiction
  · obtain ⟨result, hloop⟩ := hteardown.cancelled side hcancelled
    exact absurd hloop (hlooping' result)
  · exact h.handed_of_giveUp hbase hteardown hpump hctx hlooping'

theorem Step.forwards (hstep : Step libs s a t) (horderly : s.Orderly a)
    (hbase : Base libs split s) (h : CleanInv s) {side : Side} {err : Err}
    (hexit : (t.leg side).handler.loop = .exited (some err)) :
    t.CloseForwarded side.peer ∨ (t.pair.endpoint side).receiver.pc = .returned := by
  have hforwarded :
      s.CloseForwarded side.peer ∨ (s.pair.endpoint side).receiver.pc = .returned := by
    rcases (hstep.side side).loop_fails hexit with hold | hreset | ⟨hloop, hfailed⟩ | ⟨rfl, rfl⟩
    · exact h.forwarded side err hold
    · rw [h.reset side] at hreset
      contradiction
    · exact .inl
        (hbase.forwarded_of_handed hloop (h.failed side hfailed (by simp [Looping, hloop])))
    · exact horderly
  refine hforwarded.imp (fun hclose ↦ hstep.closeWithin hclose ?_)
    (hstep.side side).receiver_returned
  rw [Side.peer_peer]
  exact (hstep.side side).forwarded.2

theorem Step.cleanInv (hstep : Step libs s a t) (horderly : s.Orderly a)
    (hbase : Base libs split s) (hteardown : TeardownInv s) (hpair : Pair.Inv libs split t.pair)
    (h : CleanInv s) : CleanInv t where
  reset side := (hstep.side side).not_reset horderly (h.reset side)
  concluded _ := hstep.concludes hbase hteardown hpair h
  torn htorn side := by
    refine hstep.concluded ?_
    rcases hstep.tears_ended hteardown h htorn with hold | ⟨other, hended, _⟩
    · exact h.torn hold side
    · exact h.concluded_of_ended hbase hteardown hended side
  ended htorn side hlooping := by
    refine (hstep.side side.peer).ended ?_
    rcases hstep.tears_ended hteardown h htorn with hold | ⟨other, hended, hexit⟩
    · exact h.ended hold side (hstep.looping hlooping)
    · rcases other.eq_or_eq_peer side with rfl | rfl
      · exact absurd hlooping hexit
      · exact hended
  failed _ := hstep.fails hbase hteardown h
  forwarded _ _ := hstep.forwards horderly hbase h
  clean side := (hstep.side side).clean horderly hbase (hpair.unset_not_mem side) h

theorem cleanInv_of_reachable {canCloseWrite : Side → Bool}
    (h : (machine libs split canCloseWrite).ReachableVia Orderly s) : CleanInv s := by
  refine Machine.invariant_via (I := CleanInv) ?_ ?_ h
  · have hidle := not_tornDown_init libs split canCloseWrite
    exact ⟨fun _ ↦ rfl, fun _ hor ↦ by simp [LoopReturned, machine, Pair.start] at hor,
      fun htorn ↦ absurd htorn hidle, fun htorn ↦ absurd htorn hidle,
      fun _ hfailed ↦ by contradiction, fun _ _ hexit ↦ by contradiction,
      fun _ ↦ ⟨fun _ hctx ↦ by contradiction, fun _ hmem ↦ by contradiction,
        fun _ hfirst ↦ by contradiction, fun _ hpc ↦ by contradiction⟩⟩
  · intro s a t hr hs horderly hstep
    have hpair := Pair.inv_of_reachable (pair_reachable (hr.reachable.tail hstep))
    exact (step_of_step hstep).cleanInv horderly (base_of_reachable hr.reachable)
      (teardownInv_of_reachable hr.reachable) hpair hs

end Steps

/-- In every run whose steps are orderly, whatever bytes the two connections deliver and however
the loops interleave, a `Bridge` that returns, returns nil. -/
theorem clean_close [DecidableEq K] (libs : Libs K) (split : Split K) (canCloseWrite : Side → Bool)
    {s : Tunnel K} (h : (machine libs split canCloseWrite).ReachableVia Orderly s) (side : Side)
    (result : Option Err) (hreturned : (s.pair.endpoint side).bridge = .returned result) :
    result = none :=
  ((cleanInv_of_reachable h).clean side).returned result hreturned

/-- A side reads its end of file, and its `HalfClose` is handled by the peer. -/
def halfCloses (side : Side) : List Act :=
  [.endpoint side (.send (.read [] .eof)), .endpoint side (.send .sendPlain),
    .endpoint side (.send (.transmit none))] ++ forward side [0, 0x12, 0] ++
  [.endpoint side.peer (.recv (.receive (.ok [0, 0x12, 0]))), .endpoint side.peer (.recv .decrypt),
    .endpoint side.peer (.recv .halfClose), .endpoint side.peer (.recv .check)]

/-- The `sendLoop` of a side sends `Close`, and the peer's `recvLoop` returns. -/
def closes (side : Side) : List Act :=
  [.endpoint side (.send .remoteDone), .endpoint side (.send .sendPlain),
    .endpoint side (.send (.transmit none))] ++ forward side [1, 0x1a, 2, 8, 1] ++
  [.endpoint side.peer (.recv (.receive (.ok [1, 0x1a, 2, 8, 1]))),
    .endpoint side.peer (.recv .decrypt), .endpoint side.peer (.recv .close)]

/-- `Bridge` takes its first result and shuts the side. -/
def shuts (side : Side) : List Act :=
  [.endpoint side (.bridge .first), .endpoint side (.bridge .cancel),
    .endpoint side (.bridge .closeConn), .endpoint side (.bridge .closeSend)]

/-- The `Close` of the agent ends the client's `recvLoop`, `Bridge` calls `CloseSend`, and the
client's `sendLoop` then takes `remoteEOF` from its `select`. -/
def lateClose : List Act :=
  halfCloses .client ++ halfCloses .agent ++ closes .agent ++ shuts .client ++
  [.endpoint .client (.send .remoteDone), .endpoint .client (.send .sendPlain),
    .endpoint .client (.send (.transmit (some sendAfterClose))),
    .endpoint .client (.bridge .second)]

/-- The `Close` of the client ends the agent's `recvLoop`, the agent shuts its side without a
`Close`, and `Connect` leaves through the context that `Accept` has cancelled. -/
def cancelledConnect : List Act :=
  halfCloses .client ++ halfCloses .agent ++ closes .client ++ shuts .agent ++
  [.relay .agent (.recv (.error .eof)), .relay .agent .takeErr, .cancel .agent,
    .relay .client .takeDone, .cancel .client, .finish .client] ++ shuts .client ++
  [.endpoint .client (.recv (.receive (.error CtxErr.canceled.statusErr))),
    .endpoint .client (.bridge .second)]

/-- A clean close may be reported as an error, by either of the two orders. -/
theorem not_clean_close :
    (∃ s, (machine sampleLibs sampleSplit fun _ ↦ true).Reachable s ∧
      (s.pair.endpoint .client).bridge = .returned (some sendAfterClose)) ∧
    (∃ s, (machine sampleLibs sampleSplit fun _ ↦ true).Reachable s ∧
      (s.pair.endpoint .client).bridge = .returned (some CtxErr.canceled.statusErr)) ∧
    ¬ ∀ s, (machine sampleLibs sampleSplit fun _ ↦ true).Reachable s → ∀ side result,
      (s.pair.endpoint side).bridge = .returned result → result = none := by
  obtain ⟨s, hexec, hs⟩ := Machine.exists_of_exec
    (M := machine sampleLibs sampleSplit fun _ ↦ true)
    (s := (machine sampleLibs sampleSplit fun _ ↦ true).init) lateClose
    (fun s ↦ (s.pair.endpoint .client).bridge = .returned (some sendAfterClose))
    (by decide +kernel)
  obtain ⟨t, hexec', ht⟩ := Machine.exists_of_exec
    (M := machine sampleLibs sampleSplit fun _ ↦ true)
    (s := (machine sampleLibs sampleSplit fun _ ↦ true).init) cancelledConnect
    (fun s ↦ (s.pair.endpoint .client).bridge = .returned (some CtxErr.canceled.statusErr))
    (by decide +kernel)
  have hreachable : (machine sampleLibs sampleSplit fun _ ↦ true).Reachable s :=
    Machine.reaches_of_exec lateClose hexec
  refine ⟨⟨s, hreachable, hs⟩, ⟨t, Machine.reaches_of_exec cancelledConnect hexec', ht⟩, ?_⟩
  intro hall
  have hnone := hall s hreachable .client _ hs
  contradiction

/-- The agent's `Close` ends the client's `recvLoop`, the client's `sendLoop` takes its context,
and the client's `CloseSend` ends both handlers and the agent. -/
def orderlyClose : List Act :=
  halfCloses .client ++ halfCloses .agent ++ closes .agent ++ shuts .client ++
  [.endpoint .client (.send .ctxDone), .endpoint .client (.bridge .second)] ++ shuts .agent ++
  [.relay .client (.recv (.error .eof)), .relay .client .takeErr, .cancel .client,
    .relay .agent .takeDone, .cancel .agent, .finish .agent,
    .endpoint .agent (.recv (.receive (.error .eof))), .endpoint .agent (.bridge .second)]

theorem clean_close_orderlyClose :
    ∃ s, (machine sampleLibs sampleSplit fun _ ↦ true).ReachableVia Orderly s ∧
      (∃ result, (s.pair.endpoint .client).bridge = .returned result ∧ result = none) ∧
      ∃ result, (s.pair.endpoint .agent).bridge = .returned result ∧ result = none := by
  obtain ⟨s, hexec, hclient, hagent⟩ := Machine.exists_of_exec
    (M := (machine sampleLibs sampleSplit fun _ ↦ true).restrict Orderly)
    (s := (machine sampleLibs sampleSplit fun _ ↦ true).init) orderlyClose
    (fun s ↦ (s.pair.endpoint .client).bridge = .returned none ∧
      (s.pair.endpoint .agent).bridge = .returned none) (by decide +kernel)
  have hvia : (machine sampleLibs sampleSplit fun _ ↦ true).ReachableVia Orderly s :=
    (Machine.reaches_of_exec orderlyClose hexec).of_restrict
  have hclean := clean_close sampleLibs sampleSplit (fun _ ↦ true) hvia
  exact ⟨s, hvia, ⟨none, hclient, hclean .client none hclient⟩,
    ⟨none, hagent, hclean .agent none hagent⟩⟩

end RelayCat.Tunnel
