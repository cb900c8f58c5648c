import RelayCat.Endpoint.Loops
import RelayCat.Automaton.Machine

/-!
# Two endpoints of one handshake against an arbitrary relay

The initiator's and the responder's endpoint run over the transports of one completed
handshake. The relay is not a party: every result of the ciphertext streams is chosen freely,
so it may drop, delay, duplicate, reorder, truncate, inject, reflect and splice frames. The
invariant says, for each direction, that the ledger is the sender's sealed frames in order and
that the receiver has opened a prefix of them.
-/

namespace RelayCat.Bridge

open Go Wire Noise Automaton

inductive Side where
  | client
  | agent
  deriving DecidableEq, Repr

def Side.peer : Side → Side
  | client => agent
  | agent => client

@[simp] theorem Side.peer_peer (side : Side) : side.peer.peer = side := by
  cases side <;> rfl

@[simp] theorem Side.peer_ne (side : Side) : side.peer ≠ side := by
  cases side <;> simp [Side.peer]

theorem Side.eq_or_eq_peer (side actor : Side) : side = actor ∨ side = actor.peer := by
  cases side <;> cases actor <;> simp [Side.peer]

structure Pair (K : Type) where
  ledger : Ledger K
  endpoint : Side → Endpoint K

/-- The key under which a side sends. -/
def sendKey {K : Type} (split : Split K) : Side → K
  | .client => split.first
  | .agent => split.second

/-- Each side's transport of one completed handshake. -/
def transport {K : Type} (split : Split K) : Side → Transport K
  | .client => finish split
  | .agent => respond split

theorem transport_send {K : Type} (split : Split K) (side : Side) :
    (transport split side).send = ⟨sendKey split side, 0⟩ := by
  cases side <;> rfl

theorem transport_recv {K : Type} (split : Split K) (side : Side) :
    (transport split side).recv = ⟨sendKey split side.peer, 0⟩ := by
  cases side <;> rfl

theorem sendKey_peer_ne {K : Type} (split : Split K) (side : Side) :
    sendKey split side.peer ≠ sendKey split side := by
  cases side
  · exact split.distinct.symm
  · exact split.distinct

namespace Pair

variable {K : Type}

/-- Both `Bridge` calls have just started. -/
def start (split : Split K) (canCloseWrite : Side → Bool) : Pair K where
  ledger _ := []
  endpoint side := { crypt := transport split side, canCloseWrite := canCloseWrite side }

/-- One step of one thread of one side. -/
def step [DecidableEq K] (libs : Libs K) (s : Pair K) (a : Side × Event) : Option (Pair K) :=
  ((s.endpoint a.1).step libs s.ledger a.2).map fun r ↦
    { ledger := r.1, endpoint := Function.update s.endpoint a.1 r.2 }

/-- The two endpoints and an arbitrary relay as one machine. -/
def machine [DecidableEq K] (libs : Libs K) (split : Split K) (canCloseWrite : Side → Bool) :
    Machine (Pair K) (Side × Event) where
  init := start split canCloseWrite
  step := step libs

theorem step_eq_some [DecidableEq K] {libs : Libs K} {s t : Pair K} {side : Side} {ev : Event}
    (h : s.step libs (side, ev) = some t) :
    ∃ ledger e, (s.endpoint side).step libs s.ledger ev = some (ledger, e) ∧
      t = { ledger := ledger, endpoint := Function.update s.endpoint side e } := by
  obtain ⟨⟨ledger, e⟩, hr, ht⟩ := Option.map_eq_some_iff.mp h
  exact ⟨ledger, e, hr, ht.symm⟩

end Pair

namespace Endpoint

variable {K : Type}

/-- A step of `sendLoop` leaves the ledger alone or seals exactly one frame. -/
theorem SendMove.ledger [DecidableEq K] {libs : Libs K} {ledger ledger' : Ledger K}
    {e e' : Endpoint K} {ev : SendEvent} (hmove : SendMove libs ledger e ev ledger' e') :
    (ledger' = ledger ∧ e'.crypt.send = e.crypt.send ∧ e'.sender.sealed = e.sender.sealed) ∨
    ∃ frame plaintext ciphertext, libs.codec.marshal frame = some plaintext ∧
      ledger' = Function.update ledger e.crypt.send.key
        (ledger e.crypt.send.key ++ [⟨plaintext, ciphertext⟩]) ∧
      e'.crypt.send = ⟨e.crypt.send.key, e.crypt.send.n + 1⟩ ∧
      e'.sender.sealed = e.sender.sealed ++ [frame] := by
  cases hmove with
  | readEmpty readErr _ _ => cases readErr <;> exact .inl ⟨rfl, rfl, rfl⟩
  | sealed stage plaintext ciphertext _ hmarshal =>
    exact .inr ⟨stage.frame, plaintext, ciphertext, hmarshal, rfl, rfl, rfl⟩
  | transmitted stage ciphertext _ =>
    rcases stage with ⟨chunk, _ | _ | _⟩ | _ | _ <;> exact .inl ⟨rfl, rfl, rfl⟩
  | _ => exact .inl ⟨rfl, rfl, rfl⟩

/-- A step of `recvLoop` leaves its counter alone or decrypts the next ledger entry; only a
plaintext that does not parse advances the counter without being opened. -/
theorem RecvMove.counter {libs : Libs K} {ledger : Ledger K} {e e' : Endpoint K} {ev : RecvEvent}
    (hmove : RecvMove libs ledger e ev e') :
    (e'.crypt.recv = e.crypt.recv ∧ e'.receiver.opened = e.receiver.opened) ∨
    (∃ plaintext ciphertext, libs.codec.unmarshal plaintext = none ∧
      (ledger e.crypt.recv.key)[e.crypt.recv.n]? = some ⟨plaintext, ciphertext⟩) ∨
    ∃ plaintext ciphertext frame, libs.codec.unmarshal plaintext = some frame ∧
      (ledger e.crypt.recv.key)[e.crypt.recv.n]? = some ⟨plaintext, ciphertext⟩ ∧
      e'.crypt.recv = ⟨e.crypt.recv.key, e.crypt.recv.n + 1⟩ ∧
      e'.receiver.opened = e.receiver.opened ++ [frame] := by
  cases hmove with
  | garbled plaintext ciphertext err _ _ hbad hentry =>
    exact .inr (.inl ⟨plaintext, ciphertext, hbad, hentry⟩)
  | opened plaintext ciphertext frame _ hframe hentry =>
    refine .inr (.inr ⟨plaintext, ciphertext, frame, hframe, hentry, ?_⟩)
    rcases frame with (_ | ⟨b, bs⟩) | _ | _ | _ <;> exact ⟨rfl, rfl⟩
  | _ => exact .inl ⟨rfl, rfl⟩

/-- A step of an endpoint is a step of one of its three threads. -/
theorem step_cases [DecidableEq K] {libs : Libs K} {ledger ledger' : Ledger K}
    {e e' : Endpoint K} {ev : Event} (hstep : e.step libs ledger ev = some (ledger', e')) :
    (∃ ev', ev = .send ev' ∧ SendMove libs ledger e ev' ledger' e') ∨
    (∃ ev', ev = .recv ev' ∧ ledger' = ledger ∧ RecvMove libs ledger e ev' e') ∨
    ∃ ev', ev = .bridge ev' ∧ ledger' = ledger ∧ BridgeMove e ev' e' := by
  cases ev with
  | send ev => exact .inl ⟨ev, rfl, sendMove_of_sendLoop hstep⟩
  | recv ev =>
    obtain ⟨e, he, heq⟩ := Option.map_eq_some_iff.mp hstep
    cases heq
    exact .inr (.inl ⟨ev, rfl, rfl, recvMove_of_recvLoop he⟩)
  | bridge ev =>
    obtain ⟨e, he, heq⟩ := Option.map_eq_some_iff.mp hstep
    cases heq
    exact .inr (.inr ⟨ev, rfl, rfl, bridgeMove_of_bridgeLoop he⟩)

end Endpoint

/-- A prefix grows by the element that stands next. -/
theorem prefix_concat_of_getElem? {α : Type} {short long : List α} {next : α}
    (h : short <+: long) (hnext : long[short.length]? = some next) : short ++ [next] <+: long := by
  obtain ⟨rest, rfl⟩ := h
  cases rest with
  | nil => simp at hnext
  | cons first rest =>
    have hfirst : first = next := by simpa using hnext
    subst hfirst
    simp

/-- One direction: `tx` seals under `key`, and `rx` has opened a prefix of what it sealed. -/
structure Link {K : Type} (libs : Libs K) (ledger : Ledger K) (key : K) (tx rx : Endpoint K) :
    Prop where
  send : tx.crypt.send = ⟨key, tx.sender.sealed.length⟩
  recv : rx.crypt.recv = ⟨key, rx.receiver.opened.length⟩
  ledger : tx.sender.sealed.map libs.codec.marshal =
    (ledger key).map fun entry ↦ some entry.plaintext
  opened : rx.receiver.opened <+: tx.sender.sealed

namespace Link

variable {K : Type} {libs : Libs K} {ledger : Ledger K} {key : K} {tx rx : Endpoint K}

/-- The ledger entry at a counter is the encoding of the frame sealed there. -/
theorem unmarshal_entry (h : Link libs ledger key tx rx) {n : ℕ} {entry : Sealed}
    (hentry : (ledger key)[n]? = some entry) :
    ∃ frame, tx.sender.sealed[n]? = some frame ∧
      libs.codec.unmarshal entry.plaintext = some frame := by
  have hn : (tx.sender.sealed.map libs.codec.marshal)[n]? = some (some entry.plaintext) := by
    rw [h.ledger, List.getElem?_map, hentry]
    rfl
  obtain ⟨frame, hframe, hmarshal⟩ := by simpa using hn
  exact ⟨frame, hframe, libs.codec.round_trip frame _ hmarshal⟩

/-- Only these fields of the two endpoints matter. -/
theorem congr (h : Link libs ledger key tx rx) {tx' rx' : Endpoint K}
    (hsend : tx'.crypt.send = tx.crypt.send) (hsealed : tx'.sender.sealed = tx.sender.sealed)
    (hrecv : rx'.crypt.recv = rx.crypt.recv) (hopened : rx'.receiver.opened = rx.receiver.opened) :
    Link libs ledger key tx' rx' := by
  obtain ⟨h1, h2, h3, h4⟩ := h
  rw [← hsealed] at h1 h3 h4
  rw [← hopened] at h2 h4
  exact ⟨hsend.trans h1, hrecv.trans h2, h3, h4⟩

theorem tx_step [DecidableEq K] {ledger' : Ledger K} {tx' : Endpoint K} {ev : Event}
    (h : Link libs ledger key tx rx) (hstep : tx.step libs ledger ev = some (ledger', tx')) :
    Link libs ledger' key tx' rx := by
  rcases Endpoint.step_cases hstep with
    ⟨ev, rfl, hmove⟩ | ⟨ev, rfl, rfl, hmove⟩ | ⟨ev, rfl, rfl, hmove⟩
  · rcases hmove.ledger with
      ⟨rfl, hsend, hsealed⟩ | ⟨frame, plaintext, ciphertext, hmarshal, rfl, hsend, hsealed⟩
    · exact h.congr hsend hsealed rfl rfl
    · rw [h.send] at hsend ⊢
      refine ⟨by simp [hsend, hsealed], h.recv, ?_, ?_⟩
      · simp [hsealed, h.ledger, hmarshal]
      · rw [hsealed]
        exact h.opened.trans (List.prefix_append _ _)
  · exact h.congr hmove.frame.sendKey (by rw [hmove.frame.sender]) rfl rfl
  · have hframe := hmove.frame
    exact h.congr (by rw [hframe.crypt]) (by rw [hframe.sender]) rfl rfl

theorem rx_step [DecidableEq K] {ledger' : Ledger K} {rx' : Endpoint K} {ev : Event}
    (h : Link libs ledger key tx rx) (hkey : rx.crypt.send.key ≠ key)
    (hstep : rx.step libs ledger ev = some (ledger', rx')) : Link libs ledger' key tx rx' := by
  rcases Endpoint.step_cases hstep with
    ⟨ev, rfl, hmove⟩ | ⟨ev, rfl, rfl, hmove⟩ | ⟨ev, rfl, rfl, hmove⟩
  · have h' : Link libs ledger key tx rx' :=
      h.congr rfl rfl hmove.frame.recvKey (by rw [hmove.frame.receiver])
    rcases hmove.ledger with ⟨rfl, _, _⟩ | ⟨frame, plaintext, ciphertext, _, rfl, _⟩
    · exact h'
    · refine ⟨h'.send, h'.recv, ?_, h'.opened⟩
      rw [Function.update_of_ne hkey.symm]
      exact h'.ledger
  · rcases hmove.counter with
      ⟨hrecv, hopened⟩ | ⟨plaintext, ciphertext, hbad, hentry⟩ |
        ⟨plaintext, ciphertext, frame, hframe, hentry, hrecv, hopened⟩
    · exact h.congr rfl rfl hrecv hopened
    · rw [h.recv] at hentry
      obtain ⟨frame, _, hframe⟩ := h.unmarshal_entry hentry
      simp [hbad] at hframe
    · rw [h.recv] at hentry hrecv
      obtain ⟨frame', hsealed, hframe'⟩ := h.unmarshal_entry hentry
      have hsame : frame' = frame := by simpa [hframe] using hframe'.symm
      subst hsame
      refine ⟨h.send, by simp [hrecv, hopened], h.ledger, ?_⟩
      rw [hopened]
      exact prefix_concat_of_getElem? h.opened hsealed
  · have hframe := hmove.frame
    exact h.congr rfl rfl (by rw [hframe.crypt]) (by rw [hframe.receiver])

end Link

end RelayCat.Bridge
