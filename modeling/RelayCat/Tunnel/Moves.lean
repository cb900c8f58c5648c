import RelayCat.Tunnel.Compose

/-!
# Everything a step of the tunnel can do

A turn is one step of an endpoint together with the answer of its stream; a service is one step of
a handler together with the answer of its stream. Both are listed once, and every invariant of
the tunnel is proved by going through the lists.
-/

namespace RelayCat.Tunnel

open Go Wire Noise Automaton Bridge Relay Endpoint

variable {K : Type}

/-- Everything one endpoint and its stream can do together. -/
inductive Turn [DecidableEq K] (libs : Libs K) (ledger : Ledger K) (e : Endpoint K) (leg : Leg) :
    Event → Ledger K → Endpoint K → Leg → Prop
  | readEmpty (readErr : ReadErr) : e.sender.pc = .reading →
      readAllowed e.connClosed [] readErr = true →
      (∀ err, readErr = .failed err → e.connClosed = true) →
      Turn libs ledger e leg (.send (.read [] readErr)) ledger
        ((e.noteRead [] readErr).afterRead readErr) leg
  | readData (chunk : Bytes) (readErr : ReadErr) : e.sender.pc = .reading → chunk ≠ [] →
      (∀ err, readErr ≠ .failed err) →
      Turn libs ledger e leg (.send (.read chunk readErr)) ledger
        ((e.noteRead chunk readErr).sendAt (.sealing (.data chunk readErr))) leg
  | sealed (stage : Stage) (plaintext ciphertext : Bytes) : e.sender.pc = .sealing stage →
      Turn libs ledger e leg (.send .sendPlain)
        (Function.update ledger e.crypt.send.key
          (ledger e.crypt.send.key ++ [⟨plaintext, ciphertext⟩]))
        (e.sealFrame e.crypt.sent stage ciphertext) leg
  | sent (stage : Stage) (ciphertext : Bytes) : e.sender.pc = .transmitting stage ciphertext →
      e.sendClosed = false → leg.finished = false →
      Turn libs ledger e leg (.send (.transmit none)) ledger
        ((e.noteSent stage).afterSend stage) { leg with up := leg.up.push ciphertext }
  | sendEnded (stage : Stage) (ciphertext : Bytes) :
      e.sender.pc = .transmitting stage ciphertext → e.sendClosed = false → leg.finished = true →
      Turn libs ledger e leg (.send (.transmit (some .eof))) ledger
        ((e.noteStreamError .eof).sendReturn (some .eof)) leg
  | sentLate (stage : Stage) (ciphertext : Bytes) :
      e.sender.pc = .transmitting stage ciphertext → e.sendClosed = true →
      Turn libs ledger e leg (.send (.transmit (some sendAfterClose))) ledger
        ((e.noteStreamError sendAfterClose).sendReturn (some sendAfterClose))
        { leg with reset := true }
  | remoteDone : e.sender.pc = .waiting → e.remoteEOF = true →
      Turn libs ledger e leg (.send .remoteDone) ledger (e.sendAt (.sealing .close)) leg
  | ctxDone (err : CtxErr) : e.sender.pc = .waiting → e.ctx = some err →
      Turn libs ledger e leg (.send .ctxDone) ledger (e.sendReturn (some err.err)) leg
  | received (ciphertext : Bytes) (down : Fifo Bytes) : e.receiver.pc = .receiving →
      leg.down.pop = some (ciphertext, down) →
      Turn libs ledger e leg (.recv (.receive (.ok ciphertext))) ledger
        (e.recvAt (.opening ciphertext)) { leg with down := down }
  | recvEnded : e.receiver.pc = .receiving → leg.down.queue = [] → leg.finished = true →
      Turn libs ledger e leg (.recv (.receive (.error (ending leg)))) ledger
        ((e.noteStreamError (ending leg)).recvReturn (some (ending leg))) leg
  | recvOwn (ev : RecvEvent) (e' : Endpoint K) : RecvMove libs ledger e ev e' →
      (∀ result, ev ≠ .receive result) →
      (∀ result, ev = .write (.error result) → e.connClosed = true) →
      Turn libs ledger e leg (.recv ev) ledger e' leg
  | bridge (ev : BridgeEvent) (e' : Endpoint K) : BridgeMove e ev e' →
      (∀ err, ev ≠ .cancelParent err) → Turn libs ledger e leg (.bridge ev) ledger e' leg

/-- Everything one handler and its stream can do together. -/
inductive Served (onDone : CtxErr → Option Err) (ctx : Option CtxErr) (closed : Bool) (leg : Leg) :
    HandlerEvent Bytes → Leg → Prop
  | received (payload : Bytes) (up : Fifo Bytes) : leg.up.pop = some (payload, up) →
      leg.handler.pump = .receiving →
      Served onDone ctx closed leg (.recv (.ok payload)) { leg with
        up := up
        handler := { leg.handler with
          pump := .handing payload, received := leg.handler.received ++ [payload] } }
  | ended : leg.up.queue = [] → closed = true → leg.handler.pump = .receiving →
      Served onDone ctx closed leg (.recv (.error .eof))
        { leg with handler := { leg.handler with pump := .done .eof } }
  | canceled : leg.reset = true ∨ leg.cancelled = true → leg.handler.pump = .receiving →
      Served onDone ctx closed leg (.recv (.error recvCanceled))
        { leg with handler := { leg.handler with pump := .done recvCanceled } }
  | gaveUp (payload : Bytes) (e : CtxErr) : leg.handler.pump = .handing payload → ctx = some e →
      Served onDone ctx closed leg .giveUp
        { leg with handler := { leg.handler with pump := .done e.err } }
  | sent (payload : Bytes) : leg.handler.loop = .sending payload →
      Served onDone ctx closed leg (.send none) { leg with
        down := leg.down.push payload
        handler := { leg.handler with
          loop := .selecting, sent := leg.handler.sent ++ [payload] } }
  | sendFailed (payload : Bytes) (e : Err) : leg.handler.loop = .sending payload →
      leg.reset = true →
      Served onDone ctx closed leg (.send (some e)) { leg with
        handler := { leg.handler with loop := .exited (some e), sendFailed := true } }
  | tookErr (e : Err) : leg.handler.loop = .selecting → leg.handler.pump = .done e →
      Served onDone ctx closed leg .takeErr { leg with
        handler := { leg.handler with loop := .exited (if e.is .eof then none else some e) } }
  | tookDone (e : CtxErr) : leg.handler.loop = .selecting → ctx = some e →
      Served onDone ctx closed leg .takeDone
        { leg with handler := { leg.handler with loop := .exited (onDone e) } }

/-- The goroutine has handed its payload over. -/
def handed (leg : Leg) (payload : Bytes) : Leg :=
  { leg with handler := { leg.handler with
      pump := .receiving, handed := leg.handler.handed ++ [payload] } }

/-- The loop has taken a payload. -/
def taken (leg : Leg) (payload : Bytes) : Leg :=
  { leg with handler := { leg.handler with
      loop := .sending payload, taken := leg.handler.taken ++ [payload] } }

/-- A payload has crossed from one handler to the other. -/
def crossed (s : Tunnel K) (side : Side) (payload : Bytes) : Tunnel K :=
  (s.setLeg side (handed (s.leg side) payload)).setLeg side.peer (taken (s.leg side.peer) payload)

@[simp] theorem setLeg_pair (s : Tunnel K) (side : Side) (leg : Leg) :
    (s.setLeg side leg).pair = s.pair := rfl

@[simp] theorem setLeg_ctx (s : Tunnel K) (side : Side) (leg : Leg) :
    (s.setLeg side leg).ctx = s.ctx := rfl

@[simp] theorem setLeg_leg (s : Tunnel K) (side : Side) (leg : Leg) :
    (s.setLeg side leg).leg = Function.update s.leg side leg := rfl

@[simp] theorem crossed_pair (s : Tunnel K) (side : Side) (payload : Bytes) :
    (s.crossed side payload).pair = s.pair := rfl

@[simp] theorem crossed_ctx (s : Tunnel K) (side : Side) (payload : Bytes) :
    (s.crossed side payload).ctx = s.ctx := rfl

@[simp] theorem crossed_leg (s : Tunnel K) (side : Side) (payload : Bytes) :
    (s.crossed side payload).leg side = handed (s.leg side) payload := by
  simp [crossed, (Side.peer_ne side).symm]

@[simp] theorem crossed_leg_peer (s : Tunnel K) (side : Side) (payload : Bytes) :
    (s.crossed side payload).leg side.peer = taken (s.leg side.peer) payload := by
  simp [crossed]

/-- Everything a step of the tunnel can do. -/
inductive Step [DecidableEq K] (libs : Libs K) (s : Tunnel K) : Act → Tunnel K → Prop
  | endpoint (side : Side) (ev : Event) (ledger : Ledger K) (e : Endpoint K) (leg : Leg) :
      Turn libs s.pair.ledger (s.pair.endpoint side) (s.leg side) ev ledger e leg →
      Step libs s (.endpoint side ev) { s with
        pair := { ledger := ledger, endpoint := Function.update s.pair.endpoint side e }
        leg := Function.update s.leg side leg }
  | relay (side : Side) (ev : HandlerEvent Bytes) (leg : Leg) :
      Served (onDone side) s.ctx (s.pair.endpoint side).sendClosed (s.leg side) ev leg →
      Step libs s (.relay side ev) (s.setLeg side leg)
  | cross (side : Side) (payload : Bytes) : (s.leg side).handler.pump = .handing payload →
      (s.leg side.peer).handler.loop = .selecting →
      Step libs s (.cross side) (s.crossed side payload)
  | cancel (side : Side) (result : Option Err) : (s.leg side).handler.loop = .exited result →
      Step libs s (.cancel side) { s.setLeg side { s.leg side with cancelled := true } with
        ctx := s.ctx <|> some .canceled }
  | finish (side : Side) : (s.leg side).cancelled = true →
      Step libs s (.finish side) (s.setLeg side { s.leg side with finished := true })
  | abort : (s.leg .client).reset = true →
      Step libs s .abort { s with ctx := s.ctx <|> some .canceled }

/-- `conn.Read` and `conn.Write` fail only after `conn.Close`. -/
theorem readAllowed_failed {chunk : Bytes} {err : Err}
    (h : readAllowed true chunk (.failed err) = true) : chunk = [] := by
  simp only [readAllowed, Bool.not_true, Bool.false_or, Bool.and_eq_true, beq_iff_eq] at h
  exact h.2

/-- A step of `sendLoop` with the answer of its stream. -/
theorem turn_of_send [DecidableEq K] {libs : Libs K} {ledger ledger' : Ledger K}
    {e e' : Endpoint K} {leg leg' : Leg} {ev : SendEvent}
    (hexchange : exchange e leg (.send ev) = some leg')
    (hmove : SendMove libs ledger e ev ledger' e')
    (hseal : ev = .sendPlain → e'.sender.pc ≠ .returned) :
    Turn libs ledger e leg (.send ev) ledger' e' leg' := by
  cases hmove with
  | readEmpty readErr hpc hallowed =>
    cases readErr with
    | failed err =>
      simp only [exchange] at hexchange
      split_ifs at hexchange with hclosed
      cases hexchange
      exact .readEmpty _ hpc hallowed (fun _ _ ↦ hclosed)
    | nil =>
      cases hexchange
      exact .readEmpty _ hpc hallowed (fun _ h ↦ by contradiction)
    | eof =>
      cases hexchange
      exact .readEmpty _ hpc hallowed (fun _ h ↦ by contradiction)
  | readData chunk readErr hpc hallowed hne =>
    cases readErr with
    | failed err =>
      simp only [exchange] at hexchange
      split_ifs at hexchange with hclosed
      rw [hclosed] at hallowed
      exact absurd (readAllowed_failed hallowed) hne
    | nil =>
      cases hexchange
      exact .readData chunk _ hpc hne (fun _ h ↦ by contradiction)
    | eof =>
      cases hexchange
      exact .readData chunk _ hpc hne (fun _ h ↦ by contradiction)
  | sealFailed stage err hpc _ => exact absurd rfl (hseal rfl)
  | sealed stage plaintext ciphertext hpc _ =>
    cases hexchange
    exact .sealed stage plaintext ciphertext hpc
  | transmitFailed stage ciphertext err hpc =>
    simp only [exchange, hpc] at hexchange
    split_ifs at hexchange with hclosed hresult hfinished hresult
    · cases hexchange
      cases hresult
      exact .sentLate stage ciphertext hpc hclosed
    · cases hexchange
      cases hresult
      exact .sendEnded stage ciphertext hpc (by simpa using hclosed) hfinished
    · contradiction
  | transmitted stage ciphertext hpc =>
    simp only [exchange, hpc] at hexchange
    split_ifs at hexchange with hclosed hresult hfinished hresult
    · contradiction
    · contradiction
    · cases hexchange
      exact .sent stage ciphertext hpc (by simpa using hclosed) (by simpa using hfinished)
  | remoteDone hpc heof =>
    cases hexchange
    exact .remoteDone hpc heof
  | ctxDone err hpc hctx =>
    cases hexchange
    exact .ctxDone err hpc hctx

/-- A step of `recvLoop` with the answer of its stream. -/
theorem turn_of_recv [DecidableEq K] {libs : Libs K} {ledger : Ledger K}
    {e e' : Endpoint K} {leg leg' : Leg} {ev : RecvEvent}
    (hexchange : exchange e leg (.recv ev) = some leg')
    (hmove : RecvMove libs ledger e ev e') :
    Turn libs ledger e leg (.recv ev) ledger e' leg' := by
  cases hmove with
  | receiveFailed err hpc =>
    cases hpop : leg.down.pop with
    | some item => simp [exchange, hpop] at hexchange
    | none =>
      simp only [exchange, hpop, Option.ite_none_right_eq_some, Option.some.injEq,
        Except.error.injEq] at hexchange
      obtain ⟨⟨hfinished, rfl⟩, rfl⟩ := hexchange
      exact .recvEnded hpc (Fifo.pop_eq_none hpop) hfinished
  | received ciphertext hpc =>
    cases hpop : leg.down.pop with
    | none => simp [exchange, hpop] at hexchange
    | some item =>
      obtain ⟨first, down⟩ := item
      simp only [exchange, hpop, Option.ite_none_right_eq_some, Option.some.injEq,
        Except.ok.injEq] at hexchange
      obtain ⟨rfl, rfl⟩ := hexchange
      exact .received ciphertext down hpc hpop
  | writeFailed data n err hpc hconn =>
    simp only [exchange] at hexchange
    split_ifs at hexchange with hclosed
    cases hexchange
    exact .recvOwn _ _ (.writeFailed data n err hpc hconn) (by simp) (fun _ _ ↦ hclosed)
  | rejected ciphertext err hpc herr hentry =>
    cases hexchange
    exact .recvOwn _ _ (.rejected ciphertext err hpc herr hentry) (by simp) (by simp)
  | garbled plaintext ciphertext err hpc herr hbad hentry =>
    cases hexchange
    exact .recvOwn _ _ (.garbled plaintext ciphertext err hpc herr hbad hentry) (by simp) (by simp)
  | opened plaintext ciphertext frame hpc hframe hentry =>
    cases hexchange
    exact .recvOwn _ _ (.opened plaintext ciphertext frame hpc hframe hentry) (by simp) (by simp)
  | wrote data hpc =>
    cases hexchange
    exact .recvOwn _ _ (.wrote data hpc) (by simp) (by simp)
  | halfClosed hpc =>
    cases hexchange
    exact .recvOwn _ _ (.halfClosed hpc) (by simp) (by simp)
  | closed code message hpc =>
    cases hexchange
    exact .recvOwn _ _ (.closed code message hpc) (by simp) (by simp)
  | checkDone err hpc hctx =>
    cases hexchange
    exact .recvOwn _ _ (.checkDone err hpc hctx) (by simp) (by simp)
  | checkLive hpc hctx =>
    cases hexchange
    exact .recvOwn _ _ (.checkLive hpc hctx) (by simp) (by simp)

theorem turn_of_bridge [DecidableEq K] {libs : Libs K} {ledger : Ledger K}
    {e e' : Endpoint K} {leg leg' : Leg} {ev : BridgeEvent}
    (hexchange : exchange e leg (.bridge ev) = some leg') (hmove : BridgeMove e ev e') :
    Turn libs ledger e leg (.bridge ev) ledger e' leg' := by
  cases ev with
  | cancelParent err => contradiction
  | _ =>
    cases hexchange
    exact .bridge _ _ hmove (by simp)

theorem served_of_answer {onDone : CtxErr → Option Err} {ctx : Option CtxErr} {closed : Bool}
    {leg leg' : Leg} {handler : Handler} {ev : HandlerEvent Bytes}
    (hanswer : answer closed leg ev = some leg')
    (hmove : Handler.Move some onDone ctx leg.handler ev handler) :
    Served onDone ctx closed leg ev { leg' with handler := handler } := by
  cases hmove with
  | recvFailed e hpump =>
    simp only [answer] at hanswer
    split_ifs at hanswer with heof hended hcanceled
    · cases hanswer
      subst heof
      exact .ended hended.1 hended.2 hpump
    · cases hanswer
      obtain ⟨rfl, hor⟩ := hcanceled
      exact .canceled hor hpump
  | recvOther frame hpump hnone => contradiction
  | received frame payload hpump hpayload =>
    cases hpayload
    simp only [answer] at hanswer
    split at hanswer
    · rename_i ciphertext up hpop
      split_ifs at hanswer with heq
      cases hanswer
      subst heq
      exact .received frame up hpop hpump
    · contradiction
  | gaveUp payload e hpump hctx =>
    cases hanswer
    exact .gaveUp payload e hpump hctx
  | sent payload hloop =>
    simp only [answer, hloop] at hanswer
    cases hanswer
    exact .sent payload hloop
  | sendFailed payload e hloop =>
    simp only [answer] at hanswer
    split_ifs at hanswer with hreset
    cases hanswer
    exact .sendFailed payload e hloop hreset
  | tookErr e hloop hpump =>
    cases hanswer
    exact .tookErr e hloop hpump
  | tookDone e hloop hctx =>
    cases hanswer
    exact .tookDone e hloop hctx

theorem stepEndpoint_eq_some [DecidableEq K] {libs : Libs K} {s t : Tunnel K} {side : Side}
    {ev : Event} (h : s.stepEndpoint libs side ev = some t) :
    ∃ ledger e leg, (s.pair.endpoint side).step libs s.pair.ledger ev = some (ledger, e) ∧
      exchange (s.pair.endpoint side) (s.leg side) ev = some leg ∧
      (ev = .send .sendPlain → e.sender.pc ≠ .returned) ∧
      t = { s with
        pair := { ledger := ledger, endpoint := Function.update s.pair.endpoint side e }
        leg := Function.update s.leg side leg } := by
  unfold stepEndpoint at h
  obtain ⟨leg, hexchange, h⟩ := Option.bind_eq_some_iff.mp h
  obtain ⟨pair, hpair, h⟩ := Option.bind_eq_some_iff.mp h
  obtain ⟨ledger, e, hstep, rfl⟩ := Pair.step_eq_some hpair
  split_ifs at h with hseal
  cases h
  refine ⟨ledger, e, leg, hstep, hexchange, fun hev hpc ↦ hseal ⟨hev, ?_⟩, rfl⟩
  simpa using hpc

theorem step_of_step [DecidableEq K] {libs : Libs K} {s t : Tunnel K} {a : Act}
    (h : s.step libs a = some t) : Step libs s a t := by
  cases a with
  | endpoint side ev =>
    obtain ⟨ledger, e, leg, hstep, hexchange, hseal, rfl⟩ := stepEndpoint_eq_some h
    refine .endpoint side ev ledger e leg ?_
    rcases Endpoint.step_cases hstep with
      ⟨ev, rfl, hmove⟩ | ⟨ev, rfl, rfl, hmove⟩ | ⟨ev, rfl, rfl, hmove⟩
    · exact turn_of_send hexchange hmove (fun hev ↦ hseal (by rw [hev]))
    · exact turn_of_recv hexchange hmove
    · exact turn_of_bridge hexchange hmove
  | relay side ev =>
    obtain ⟨leg, hanswer, h⟩ := Option.bind_eq_some_iff.mp h
    obtain ⟨handler, hstep, rfl⟩ := Option.map_eq_some_iff.mp h
    exact .relay side ev _ (served_of_answer hanswer (Handler.move_of_step hstep))
  | cross side =>
    obtain ⟨⟨payload, pumped⟩, hover, h⟩ := Option.bind_eq_some_iff.mp h
    obtain ⟨taking, htake, rfl⟩ := Option.map_eq_some_iff.mp h
    obtain ⟨hpump, rfl⟩ := Handler.handOver_eq_some hover
    obtain ⟨hloop, rfl⟩ := Handler.take_eq_some htake
    exact .cross side payload hpump hloop
  | cancel side =>
    simp only [step] at h
    split at h
    · rename_i result hloop
      cases h
      exact .cancel side result hloop
    · contradiction
  | finish side =>
    simp only [step] at h
    split_ifs at h with hcancelled
    cases h
    exact .finish side hcancelled
  | abort =>
    simp only [step] at h
    split_ifs at h with hreset
    cases h
    exact .abort hreset

/-- The endpoints of the tunnel are a pair of endpoints against one particular relay. -/
theorem pair_reachable [DecidableEq K] {libs : Libs K} {split : Split K}
    {canCloseWrite : Side → Bool} {s : Tunnel K}
    (h : (machine libs split canCloseWrite).Reachable s) :
    (Pair.machine libs split canCloseWrite).Reachable s.pair := by
  refine Machine.reachable_of_refines Tunnel.pair rfl ?_ h
  intro s a t _ hstep
  have hmove : Step libs s a t := step_of_step hstep
  cases a with
  | endpoint side ev =>
    obtain ⟨ledger, e, leg, he, _, _, rfl⟩ := stepEndpoint_eq_some hstep
    refine Machine.Reaches.tail (a := (side, ev)) (Machine.Reaches.refl _) ?_
    change s.pair.step libs (side, ev) = _
    rw [Pair.step, he]
    rfl
  | _ =>
    cases hmove
    exact Machine.Reaches.refl _

end RelayCat.Tunnel
