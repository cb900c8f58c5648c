import RelayCat.Automaton.Threads
import RelayCat.Tunnel.Moves

/-!
# The tunnel delivers ciphertexts in order

For each direction, what an endpoint has been given is a prefix of what its peer has sealed,
through the sender's queue, both handlers and the receiver's queue. So `Decrypt` meets exactly the
ciphertext it expects and never fails.
-/

namespace RelayCat.Bridge

open Go

/-- The sealed ciphertext whose `SendCiphertext` has not returned. -/
def SendPc.ciphertexts : SendPc → List Bytes
  | .transmitting _ ciphertext => [ciphertext]
  | _ => []

/-- The ciphertext that `recvLoop` has been given and not decrypted. -/
def RecvPc.inHand : RecvPc → List Bytes
  | .opening ciphertext => [ciphertext]
  | _ => []

end RelayCat.Bridge

namespace RelayCat.Tunnel

open Go Wire Noise Automaton Bridge Relay Endpoint

variable {K : Type}

/-- The sending endpoint, its queue and the goroutine behind it, against the ciphertexts sealed. -/
structure UpInv (sealed : List Bytes) (e : Endpoint K) (leg : Leg) : Prop where
  accepted : leg.up.pushed.length = e.sender.sent.length
  ordered : leg.up.pushed <+: sealed
  inFlight : e.sender.pc ≠ .returned → sealed = leg.up.pushed ++ e.sender.pc.ciphertexts
  received : leg.handler.received = leg.up.popped

/-- The loop of a handler, its queue and the receiving endpoint. -/
structure DownInv (e : Endpoint K) (leg : Leg) : Prop where
  sent : leg.handler.sent = leg.down.pushed
  got : ∃ opened, leg.down.popped = opened ++ e.receiver.pc.inHand ∧
    opened.length = e.receiver.opened.length

/-- A step that sends nothing leaves what was sent. -/
theorem UpInv.move {sealed : List Bytes} {e e' : Endpoint K} {leg : Leg}
    (h : UpInv sealed e leg) (hsent : e'.sender.sent = e.sender.sent)
    (hpc : e'.sender.pc = .returned ∨ e.sender.pc ≠ .returned ∧
      e'.sender.pc.ciphertexts = e.sender.pc.ciphertexts) : UpInv sealed e' leg where
  accepted := by rw [hsent, h.accepted]
  ordered := h.ordered
  inFlight hne := by
    rcases hpc with hreturned | ⟨hrunning, hsame⟩
    · exact absurd hreturned hne
    · rw [hsame]
      exact h.inFlight hrunning
  received := h.received

theorem UpInv.congr {sealed : List Bytes} {e e' : Endpoint K} {leg : Leg}
    (h : UpInv sealed e leg) (hsender : e'.sender = e.sender) : UpInv sealed e' leg := by
  obtain ⟨h1, h2, h3, h4⟩ := h
  rw [← hsender] at h1 h3
  exact ⟨h1, h2, h3, h4⟩

theorem UpInv.sealed {sealed : List Bytes} {e : Endpoint K} {leg : Leg} {stage : Stage}
    (h : UpInv sealed e leg) (hpc : e.sender.pc = .sealing stage) (crypt : Transport K)
    (ciphertext : Bytes) :
    UpInv (sealed ++ [ciphertext]) (e.sealFrame crypt stage ciphertext) leg where
  accepted := h.accepted
  ordered := h.ordered.trans (List.prefix_append _ _)
  inFlight _ := by
    have hall := h.inFlight (by simp [hpc])
    rw [hpc] at hall
    simpa [SendPc.ciphertexts, sealFrame] using hall
  received := h.received

theorem afterSend_sender (e : Endpoint K) (stage : Stage) :
    ((e.noteSent stage).afterSend stage).sender.sent = e.sender.sent ++ [stage.frame] ∧
      ((e.noteSent stage).afterSend stage).sender.pc.ciphertexts = [] := by
  rcases stage with ⟨chunk, _ | _ | _⟩ | _ | _ <;> exact ⟨rfl, rfl⟩

theorem UpInv.sent {sealed : List Bytes} {e : Endpoint K} {leg : Leg} {stage : Stage}
    {ciphertext : Bytes} (h : UpInv sealed e leg)
    (hpc : e.sender.pc = .transmitting stage ciphertext) :
    UpInv sealed ((e.noteSent stage).afterSend stage)
      { leg with up := leg.up.push ciphertext } := by
  obtain ⟨hsent, hnone⟩ := afterSend_sender e stage
  have hall := h.inFlight (by simp [hpc])
  rw [hpc] at hall
  have hall' : sealed = leg.up.pushed ++ [ciphertext] := hall
  refine ⟨?_, ?_, fun _ ↦ ?_, h.received⟩
  · simp [hsent, h.accepted]
  · rw [hall']
    exact List.prefix_rfl
  · rw [hnone, List.append_nil]
    exact hall'

/-- A turn of the sending side. -/
theorem Turn.up [DecidableEq K] {libs : Libs K} {ledger ledger' : Ledger K} {e e' : Endpoint K}
    {leg leg' : Leg} {ev : Event} (hturn : Turn libs ledger e leg ev ledger' e' leg')
    (h : UpInv ((ledger e.crypt.send.key).map Sealed.ciphertext) e leg) :
    UpInv ((ledger' e.crypt.send.key).map Sealed.ciphertext) e' leg' := by
  cases hturn with
  | readEmpty readErr hpc _ _ =>
    refine h.move ?_ ?_
    · cases readErr <;> rfl
    · cases readErr with
      | failed err => exact .inl rfl
      | nil => exact .inr ⟨by simp [hpc], by rw [hpc]; rfl⟩
      | eof => exact .inr ⟨by simp [hpc], by rw [hpc]; rfl⟩
  | readData chunk readErr hpc _ _ => exact h.move rfl (.inr ⟨by simp [hpc], by rw [hpc]; rfl⟩)
  | sealed stage plaintext ciphertext hpc =>
    simpa using h.sealed hpc e.crypt.sent ciphertext
  | sent stage ciphertext hpc _ _ => exact h.sent hpc
  | sendEnded stage ciphertext _ _ _ => exact h.move rfl (.inl rfl)
  | sentLate stage ciphertext _ _ =>
    exact ⟨h.accepted, h.ordered, fun hne ↦ absurd rfl hne, h.received⟩
  | remoteDone hpc _ => exact h.move rfl (.inr ⟨by simp [hpc], by rw [hpc]; rfl⟩)
  | ctxDone err _ _ => exact h.move rfl (.inl rfl)
  | received ciphertext down _ _ => exact ⟨h.accepted, h.ordered, h.inFlight, h.received⟩
  | recvEnded _ _ _ => exact h.congr rfl
  | recvOwn ev e' hmove _ _ => exact h.congr hmove.frame.sender
  | bridge ev e' hmove _ => exact h.congr hmove.frame.sender

/-- The ciphertext in hand is the one that `Decrypt` expects, and its plaintext is a frame. -/
def Decrypts (libs : Libs K) (ledger : Ledger K) (e : Endpoint K) : Prop :=
  ∀ ciphertext, e.receiver.pc = .opening ciphertext → ∃ plaintext,
    (ledger e.crypt.recv.key)[e.crypt.recv.n]? = some ⟨plaintext, ciphertext⟩ ∧
    libs.codec.unmarshal plaintext ≠ none

theorem Decrypts.not_rejected {libs : Libs K} {ledger : Ledger K} {e : Endpoint K}
    (h : Decrypts libs ledger e) {ciphertext : Bytes} (hpc : e.receiver.pc = .opening ciphertext)
    (hnone : ∀ plaintext,
      (ledger e.crypt.recv.key)[e.crypt.recv.n]? ≠ some ⟨plaintext, ciphertext⟩) : False := by
  obtain ⟨plaintext, hexpected, _⟩ := h ciphertext hpc
  exact hnone plaintext hexpected

theorem Decrypts.not_garbled {libs : Libs K} {ledger : Ledger K} {e : Endpoint K}
    (h : Decrypts libs ledger e) {plaintext ciphertext : Bytes}
    (hpc : e.receiver.pc = .opening ciphertext) (hbad : libs.codec.unmarshal plaintext = none)
    (hfound : (ledger e.crypt.recv.key)[e.crypt.recv.n]? = some ⟨plaintext, ciphertext⟩) :
    False := by
  obtain ⟨plaintext', hexpected, hgood⟩ := h ciphertext hpc
  rw [hfound] at hexpected
  cases hexpected
  exact hgood hbad

/-- A turn of the receiving side. -/
theorem Turn.down [DecidableEq K] {libs : Libs K} {ledger ledger' : Ledger K} {e e' : Endpoint K}
    {leg leg' : Leg} {ev : Event} (hturn : Turn libs ledger e leg ev ledger' e' leg')
    (hdecrypts : Decrypts libs ledger e) (h : DownInv e leg) : DownInv e' leg' := by
  obtain ⟨hsent, opened, hgot, hlength⟩ := h
  cases hturn with
  | received ciphertext down hpc hpop =>
    obtain ⟨_, hpushed, hpopped⟩ := Fifo.pop_eq_some hpop
    refine ⟨hsent.trans hpushed.symm, opened, ?_, hlength⟩
    rw [hpc] at hgot
    simpa [RecvPc.inHand, recvAt, hgot] using hpopped
  | recvEnded hpc _ _ =>
    rw [hpc] at hgot
    exact ⟨hsent, opened, hgot, hlength⟩
  | recvOwn ev e' hmove hreceive _ =>
    cases hmove with
    | receiveFailed err _ => exact absurd rfl (hreceive _)
    | received ciphertext _ => exact absurd rfl (hreceive _)
    | rejected ciphertext err hpc _ hnone => exact (hdecrypts.not_rejected hpc hnone).elim
    | garbled plaintext ciphertext err hpc _ hbad hfound =>
      exact (hdecrypts.not_garbled hpc hbad hfound).elim
    | opened plaintext ciphertext frame hpc _ _ =>
      rw [hpc] at hgot
      refine ⟨hsent, opened ++ [ciphertext], ?_, ?_⟩
      · rw [hgot]
        rcases frame with (_ | ⟨b, bs⟩) | _ | _ | _ <;>
          simp [RecvPc.inHand, onFrame, recvAt, recvReturn]
      · rcases frame with (_ | ⟨b, bs⟩) | _ | _ | _ <;>
          simp [onFrame, recvAt, recvReturn, noteOpened, hlength]
    | wrote data hpc =>
      rw [hpc] at hgot
      exact ⟨hsent, opened, hgot, hlength⟩
    | writeFailed data n err hpc _ =>
      rw [hpc] at hgot
      exact ⟨hsent, opened, hgot, hlength⟩
    | halfClosed hpc =>
      rw [hpc] at hgot
      exact ⟨hsent, opened, hgot, hlength⟩
    | closed code message hpc =>
      rw [hpc] at hgot
      exact ⟨hsent, opened, hgot, hlength⟩
    | checkDone err hpc _ =>
      rw [hpc] at hgot
      exact ⟨hsent, opened, hgot, hlength⟩
    | checkLive hpc _ =>
      rw [hpc] at hgot
      exact ⟨hsent, opened, hgot, hlength⟩
  | bridge ev e' hmove _ =>
    rw [← hmove.frame.receiver] at hgot hlength
    exact ⟨hsent, opened, hgot, hlength⟩
  | readEmpty readErr _ _ _ =>
    cases readErr <;> exact ⟨hsent, opened, hgot, hlength⟩
  | sent stage ciphertext _ _ _ =>
    rcases stage with ⟨chunk, _ | _ | _⟩ | _ | _ <;> exact ⟨hsent, opened, hgot, hlength⟩
  | _ => exact ⟨hsent, opened, hgot, hlength⟩

/-- Endpoints do not touch the handlers. -/
theorem Turn.handler [DecidableEq K] {libs : Libs K} {ledger ledger' : Ledger K}
    {e e' : Endpoint K} {leg leg' : Leg} {ev : Event}
    (hturn : Turn libs ledger e leg ev ledger' e' leg') : leg'.handler = leg.handler := by
  cases hturn <;> rfl

/-- An endpoint seals under its own key only. -/
theorem Turn.ledger_of_ne [DecidableEq K] {libs : Libs K} {ledger ledger' : Ledger K}
    {e e' : Endpoint K} {leg leg' : Leg} {ev : Event}
    (hturn : Turn libs ledger e leg ev ledger' e' leg') {key : K} (hkey : key ≠ e.crypt.send.key) :
    ledger' key = ledger key := by
  cases hturn with
  | sealed stage plaintext ciphertext _ => exact Function.update_of_ne hkey _ _
  | _ => rfl

section Served

variable {done : CtxErr → Option Err} {ctx : Option CtxErr} {closed : Bool} {leg leg' : Leg}
  {ev : HandlerEvent Bytes}

theorem Served.move (h : Served done ctx closed leg ev leg') :
    Handler.Move some done ctx leg.handler ev leg'.handler := by
  cases h with
  | received payload up _ hpump => exact .received payload payload hpump rfl
  | ended _ _ hpump => exact .recvFailed .eof hpump
  | canceled _ hpump => exact .recvFailed recvCanceled hpump
  | gaveUp payload e hpump hctx => exact .gaveUp payload e hpump hctx
  | sent payload hloop => exact .sent payload hloop
  | sendFailed payload e hloop _ => exact .sendFailed payload e hloop
  | tookErr e hloop hpump => exact .tookErr e hloop hpump
  | tookDone e hloop hctx => exact .tookDone e hloop hctx

theorem Served.up (h : Served done ctx closed leg ev leg') {sealed : List Bytes} {e : Endpoint K}
    (hup : UpInv sealed e leg) : UpInv sealed e leg' := by
  cases h with
  | received payload up hpop _ =>
    obtain ⟨_, hpushed, hpopped⟩ := Fifo.pop_eq_some hpop
    refine ⟨?_, ?_, ?_, ?_⟩
    · exact hpushed ▸ hup.accepted
    · exact hpushed ▸ hup.ordered
    · exact hpushed ▸ hup.inFlight
    · rw [hpopped, ← hup.received]
  | _ => exact ⟨hup.accepted, hup.ordered, hup.inFlight, hup.received⟩

theorem Served.down (h : Served done ctx closed leg ev leg') {e : Endpoint K}
    (hdown : DownInv e leg) : DownInv e leg' := by
  cases h with
  | sent payload _ => exact ⟨by simp [hdown.sent], hdown.got⟩
  | _ => exact ⟨hdown.sent, hdown.got⟩

end Served

/-- The ciphertexts that a side has sealed. -/
def ciphertexts (split : Split K) (ledger : Ledger K) (side : Side) : List Bytes :=
  (ledger (sendKey split side)).map Sealed.ciphertext

/-- Both directions of the tunnel. -/
structure Delivery (split : Split K) (s : Tunnel K) : Prop where
  up : ∀ side, UpInv (ciphertexts split s.pair.ledger side) (s.pair.endpoint side) (s.leg side)
  down : ∀ side, DownInv (s.pair.endpoint side) (s.leg side)
  crossed : ∀ side, (s.leg side).handler.handed = (s.leg side.peer).handler.taken
  handler : ∀ side, (s.leg side).handler.Inv

section Chain

variable {split : Split K} {s t : Tunnel K}

/-- What an endpoint has been given is what its peer has sealed, up to some point. -/
theorem Delivery.popped_prefix_ciphertexts (h : Delivery split s) (side : Side) :
    (s.leg side).down.popped <+: ciphertexts split s.pair.ledger side.peer := by
  have hcrossed := h.crossed side.peer
  rw [Side.peer_peer] at hcrossed
  calc (s.leg side).down.popped
      <+: (s.leg side).down.pushed := Fifo.popped_prefix_pushed _
    _ = (s.leg side).handler.sent := (h.down side).sent.symm
    _ <+: (s.leg side).handler.taken := (h.handler side).sent_prefix_taken
    _ = (s.leg side.peer).handler.handed := hcrossed.symm
    _ <+: (s.leg side.peer).handler.received := (h.handler side.peer).handed_prefix_received
    _ = (s.leg side.peer).up.popped := (h.up side.peer).received
    _ <+: (s.leg side.peer).up.pushed := Fifo.popped_prefix_pushed _
    _ <+: ciphertexts split s.pair.ledger side.peer := (h.up side.peer).ordered

theorem Delivery.decrypts {libs : Libs K} (h : Delivery split s)
    (hpair : Pair.Inv libs split s.pair) (side : Side) :
    Decrypts libs s.pair.ledger (s.pair.endpoint side) := by
  intro ciphertext hpc
  have hlink := hpair.link side.peer
  rw [Side.peer_peer] at hlink
  obtain ⟨opened, hgot, hlength⟩ := (h.down side).got
  rw [hpc] at hgot
  obtain ⟨rest, hrest⟩ := h.popped_prefix_ciphertexts side
  have hnext : (ciphertexts split s.pair.ledger side.peer)[
      (s.pair.endpoint side).receiver.opened.length]? = some ciphertext := by
    rw [← hrest, hgot, ← hlength]
    simp [RecvPc.inHand]
  unfold ciphertexts at hnext
  rw [List.getElem?_map, Option.map_eq_some_iff] at hnext
  obtain ⟨⟨plaintext, _⟩, hentry, rfl⟩ := hnext
  obtain ⟨frame, _, hframe⟩ := hlink.unmarshal_entry hentry
  rw [hlink.recv]
  exact ⟨plaintext, hentry, by simp [hframe]⟩

/-- Only the queues, the handlers and the endpoints matter. -/
theorem Delivery.congr (h : Delivery split s) (hpair : t.pair = s.pair)
    (hup : ∀ side, (t.leg side).up = (s.leg side).up)
    (hdown : ∀ side, (t.leg side).down = (s.leg side).down)
    (hhandler : ∀ side, (t.leg side).handler = (s.leg side).handler) : Delivery split t where
  up side := by
    obtain ⟨h1, h2, h3, h4⟩ := h.up side
    rw [← hup, ← hhandler] at h4
    rw [← hup] at h1 h2 h3
    rw [← hpair] at h1 h2 h3
    exact ⟨h1, h2, h3, h4⟩
  down side := by
    obtain ⟨h1, h2⟩ := h.down side
    rw [← hdown] at h1 h2
    rw [← hhandler] at h1
    rw [← hpair] at h2
    exact ⟨h1, h2⟩
  crossed side := by
    rw [hhandler, hhandler]
    exact h.crossed side
  handler side := by
    rw [hhandler]
    exact h.handler side

theorem Delivery.endpoint [DecidableEq K] {libs : Libs K} (h : Delivery split s)
    (hpair : Pair.Inv libs split s.pair) {actor : Side} {ev : Event} {ledger : Ledger K}
    {e : Endpoint K} {leg : Leg}
    (hturn : Turn libs s.pair.ledger (s.pair.endpoint actor) (s.leg actor) ev ledger e leg) :
    Delivery split { s with
      pair := { ledger := ledger, endpoint := Function.update s.pair.endpoint actor e }
      leg := Function.update s.leg actor leg } := by
  have hkey : (s.pair.endpoint actor).crypt.send.key = sendKey split actor := by
    rw [(hpair.link actor).send]
  have hhandler := proj_update Leg.handler hturn.handler
  refine ⟨fun side ↦ ?_, fun side ↦ ?_, fun side ↦ ?_, fun side ↦ ?_⟩
  · rcases side.eq_or_eq_peer actor with rfl | rfl
    · have hup := hturn.up (by rw [hkey]; exact h.up side)
      rw [hkey] at hup
      simpa [ciphertexts] using hup
    · have hother : ledger (sendKey split actor.peer) = s.pair.ledger (sendKey split actor.peer) :=
        hturn.ledger_of_ne (by rw [hkey]; exact sendKey_peer_ne split actor)
      simpa [ciphertexts, hother] using h.up actor.peer
  · by_cases hside : side = actor
    · subst hside
      simpa using hturn.down (h.decrypts hpair side) (h.down side)
    · simpa [hside] using h.down side
  · rw [hhandler, hhandler]
    exact h.crossed side
  · rw [hhandler]
    exact h.handler side

theorem Delivery.relay (h : Delivery split s) {actor : Side} {ev : HandlerEvent Bytes} {leg : Leg}
    (hserved : Served (onDone actor) s.ctx (s.pair.endpoint actor).sendClosed (s.leg actor) ev
      leg) : Delivery split (s.setLeg actor leg) := by
  obtain ⟨hhanded, htaken⟩ := hserved.move.frame
  refine ⟨fun side ↦ ?_, fun side ↦ ?_, fun side ↦ ?_, fun side ↦ ?_⟩
  · by_cases hside : side = actor
    · subst hside
      simpa [setLeg, ciphertexts] using hserved.up (h.up side)
    · simpa [setLeg, ciphertexts, hside] using h.up side
  · by_cases hside : side = actor
    · subst hside
      simpa [setLeg] using hserved.down (h.down side)
    · simpa [setLeg, hside] using h.down side
  · have hhanded' := proj_update (f := s.leg) (fun leg ↦ leg.handler.handed) hhanded side
    have htaken' := proj_update (f := s.leg) (fun leg ↦ leg.handler.taken) htaken side.peer
    exact hhanded'.trans ((h.crossed side).trans htaken'.symm)
  · by_cases hside : side = actor
    · subst hside
      simpa [setLeg] using hserved.move.inv (h.handler side)
    · simpa [setLeg, hside] using h.handler side

theorem Delivery.cross (h : Delivery split s) {actor : Side} {payload : Bytes}
    (hpump : (s.leg actor).handler.pump = .handing payload)
    (hloop : (s.leg actor.peer).handler.loop = .selecting) :
    Delivery split (s.crossed actor payload) := by
  have hcross := h.crossed actor
  have hback := h.crossed actor.peer
  rw [Side.peer_peer] at hback
  refine ⟨fun side ↦ ?_, fun side ↦ ?_, fun side ↦ ?_, fun side ↦ ?_⟩
  · obtain ⟨h1, h2, h3, h4⟩ := h.up side
    rcases side.eq_or_eq_peer actor with rfl | rfl
    · rw [crossed_leg]
      exact ⟨h1, h2, h3, h4⟩
    · rw [crossed_leg_peer]
      exact ⟨h1, h2, h3, h4⟩
  · obtain ⟨h1, h2⟩ := h.down side
    rcases side.eq_or_eq_peer actor with rfl | rfl
    · rw [crossed_leg]
      exact ⟨h1, h2⟩
    · rw [crossed_leg_peer]
      exact ⟨h1, h2⟩
  · rcases side.eq_or_eq_peer actor with rfl | rfl
    · rw [crossed_leg, crossed_leg_peer]
      simp [handed, taken, hcross]
    · rw [crossed_leg_peer, Side.peer_peer, crossed_leg]
      exact hback
  · rcases side.eq_or_eq_peer actor with rfl | rfl
    · rw [crossed_leg]
      exact (h.handler side).handOver hpump
    · rw [crossed_leg_peer]
      exact (h.handler actor.peer).take payload hloop

theorem Step.delivery [DecidableEq K] {libs : Libs K} {a : Act} (hstep : Step libs s a t)
    (hpair : Pair.Inv libs split s.pair) (h : Delivery split s) : Delivery split t := by
  cases hstep with
  | endpoint side ev ledger e leg hturn => exact h.endpoint hpair hturn
  | relay side ev leg hserved => exact h.relay hserved
  | cross side payload hpump hloop => exact h.cross hpump hloop
  | cancel side result _ =>
    exact h.congr rfl (proj_update Leg.up rfl) (proj_update Leg.down rfl)
      (proj_update Leg.handler rfl)
  | finish side _ =>
    exact h.congr rfl (proj_update Leg.up rfl) (proj_update Leg.down rfl)
      (proj_update Leg.handler rfl)
  | abort _ => exact h.congr rfl (fun _ ↦ rfl) (fun _ ↦ rfl) (fun _ ↦ rfl)

theorem delivery_of_reachable [DecidableEq K] {libs : Libs K} {canCloseWrite : Side → Bool}
    (h : (machine libs split canCloseWrite).Reachable s) : Delivery split s := by
  refine Machine.invariant (I := Delivery split) ?_ ?_ h
  · refine ⟨fun side ↦ ⟨rfl, List.prefix_rfl, fun _ ↦ rfl, rfl⟩, fun side ↦ ⟨rfl, [], rfl, rfl⟩,
      fun side ↦ rfl, fun side ↦ Handler.inv_start⟩
  · intro s a t hr hs hstep
    exact (step_of_step hstep).delivery (Pair.inv_of_reachable (pair_reachable hr)) hs

/-- What a handler has handed over, its endpoint has sent. -/
theorem Delivery.handed_length_le (h : Delivery split s) (side : Side) :
    (s.leg side).handler.handed.length ≤ (s.pair.endpoint side).sender.sent.length := by
  calc (s.leg side).handler.handed.length
      ≤ (s.leg side).handler.received.length := (h.handler side).handed_prefix_received.length_le
    _ ≤ (s.leg side).up.pushed.length := by
        rw [(h.up side).received]
        exact (Fifo.popped_prefix_pushed _).length_le
    _ = (s.pair.endpoint side).sender.sent.length := (h.up side).accepted

/-- What a side has opened, the goroutine of its peer's handler has handed over. -/
theorem Delivery.opened_length_le (h : Delivery split s) (side : Side) :
    (s.pair.endpoint side).receiver.opened.length ≤
      (s.leg side.peer).handler.handed.length := by
  obtain ⟨opened, hgot, hlength⟩ := (h.down side).got
  have hcrossed := h.crossed side.peer
  rw [Side.peer_peer] at hcrossed
  calc (s.pair.endpoint side).receiver.opened.length
      ≤ (s.leg side).down.popped.length := by rw [hgot, List.length_append]; omega
    _ ≤ (s.leg side).down.pushed.length := (Fifo.popped_prefix_pushed _).length_le
    _ ≤ (s.leg side).handler.taken.length := by
        rw [← (h.down side).sent]
        exact (h.handler side).sent_prefix_taken.length_le
    _ = (s.leg side.peer).handler.handed.length := by rw [hcrossed]

/-- A side has opened only frames that its peer has sent. -/
theorem Delivery.opened_prefix_sent {libs : Libs K} (h : Delivery split s)
    (hpair : Pair.Inv libs split s.pair) (side : Side) :
    (s.pair.endpoint side).receiver.opened <+: (s.pair.endpoint side.peer).sender.sent := by
  have hlink := hpair.link side.peer
  rw [Side.peer_peer] at hlink
  obtain ⟨_, rest, hsealed, _⟩ := (hpair.sender side.peer).settled
  refine List.prefix_of_prefix_length_le hlink.opened (hsealed ▸ List.prefix_append _ _) ?_
  exact (h.opened_length_le side).trans (h.handed_length_le side.peer)

end Chain

/-- The goroutine has seen the end of its stream. -/
def ended : PumpPc → Bool
  | .done e => e.is .eof
  | _ => false

theorem held_of_ended {pump : PumpPc} (h : ended pump = true) :
    pump.held = [] ∧ pump.failed = false := by
  cases pump <;> simp_all [ended, PumpPc.held, PumpPc.failed]

/-- Everything that was sent has been taken by the other handler, once the goroutine has seen the
end of a drained stream. -/
theorem Delivery.taken_length {split : Split K} {s : Tunnel K} (h : Delivery split s) {side : Side}
    (hended : ended (s.leg side).handler.pump = true) (hqueue : (s.leg side).up.queue = []) :
    (s.leg side).handler.handed.length = (s.pair.endpoint side).sender.sent.length := by
  obtain ⟨hheld, hfailed⟩ := held_of_ended hended
  have hreceived := (h.handler side).received_eq hfailed
  rw [hheld, List.append_nil] at hreceived
  rw [← hreceived, (h.up side).received, Fifo.popped_eq _ hqueue, (h.up side).accepted]

/-- Everything a side's handler has sent has been opened, once its queue is empty and nothing is
in hand. -/
theorem Delivery.opened_length {split : Split K} {s : Tunnel K} (h : Delivery split s) {side : Side}
    (hqueue : (s.leg side).down.queue = [])
    (hhand : (s.pair.endpoint side).receiver.pc.inHand = []) :
    (s.pair.endpoint side).receiver.opened.length = (s.leg side).handler.sent.length := by
  obtain ⟨opened, hgot, hlength⟩ := (h.down side).got
  rw [hhand, List.append_nil] at hgot
  rw [(h.down side).sent, ← Fifo.popped_eq _ hqueue, hgot, hlength]

end RelayCat.Tunnel
