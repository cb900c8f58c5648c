import RelayCat.Endpoint.Pair
import RelayCat.Automaton.Stream

/-!
# End-to-end stream integrity against any relay

Each direction between the two local connections is a reliable half-closable byte stream,
whatever the relay does to the ciphertext: the pair of endpoints refines two independent
instances of the abstract stream.
-/

namespace RelayCat.Bridge

open Go Wire Noise Automaton

theorem not_hasControl_data (chunks : List Bytes) :
    hasControl (chunks.map PlainFrame.data) = false := by
  simp [hasControl]

theorem hasControl_mono {left right : List PlainFrame} (h : left <+: right)
    (hleft : hasControl left = true) : hasControl right = true := by
  obtain ⟨rest, rfl⟩ := h
  simp [hleft]

/-- Everything sealed is data that was read. -/
theorem Sender.Settled.dataOf_sealed {t : Sender} (h : t.Settled) : dataOf t.sealed <+: t.read := by
  obtain ⟨⟨controls, pending, hcontrols, ⟨chunks, hsealed, hread⟩, _⟩, _⟩ := h
  rw [hsealed, ← hread, dataOf_append, dataOf_of_prefix_farewell hcontrols, List.append_nil,
    dataOf_data]
  exact List.prefix_append _ _

/-- A prefix of the sealed frames that reaches a control frame holds all the data, and the end
of file has been read. -/
theorem Sender.Settled.dataOf_of_control {t : Sender} (h : t.Settled) {frames : List PlainFrame}
    (hpre : frames <+: t.sealed) (hcontrol : hasControl frames = true) :
    t.readEOF = true ∧ dataOf frames = t.read := by
  obtain ⟨⟨controls, pending, hcontrols, ⟨chunks, hsealed, hread⟩, hend⟩, _⟩ := h
  rw [hsealed] at hpre
  rcases List.prefix_or_prefix_of_prefix hpre (List.prefix_append _ controls) with hdata | hdata
  · have hcontrol' := hasControl_mono hdata hcontrol
    rw [not_hasControl_data] at hcontrol'
    contradiction
  · obtain ⟨rest, rfl⟩ := hdata
    have hrest : rest <+: controls := (List.prefix_append_right_inj _).mp hpre
    have hne : controls ≠ [] := by
      rintro rfl
      rw [List.prefix_nil.mp hrest, List.append_nil, not_hasControl_data] at hcontrol
      contradiction
    obtain ⟨heof, hpending⟩ := hend hne
    refine ⟨heof, ?_⟩
    rw [dataOf_append, dataOf_of_prefix_farewell (hrest.trans hcontrols), List.append_nil,
      dataOf_data, ← hread, hpending, List.append_nil]

namespace Pair

variable {K : Type}

/-- Both directions are linked and all four loops keep their own invariants. -/
structure Inv (libs : Libs K) (split : Split K) (s : Pair K) : Prop where
  link : ∀ side, Link libs s.ledger (sendKey split side) (s.endpoint side) (s.endpoint side.peer)
  sender : ∀ side, (s.endpoint side).sender.Inv
  recv : ∀ side, (s.endpoint side).RecvInv

theorem inv_start (libs : Libs K) (split : Split K) (canCloseWrite : Side → Bool) :
    Inv libs split (start split canCloseWrite) where
  link side := by
    have hrecv := transport_recv split side.peer
    rw [Side.peer_peer] at hrecv
    exact ⟨transport_send split side, hrecv, rfl, List.prefix_rfl⟩
  sender _ := Sender.inv_init
  recv _ := ⟨fun _ ↦ rfl, List.prefix_rfl, fun h ↦ by contradiction, fun h ↦ by contradiction,
    fun h ↦ by contradiction, fun _ _ h ↦ by contradiction, fun h ↦ by contradiction⟩

/-- The loops of the acting side keep their invariants under any step of it. -/
theorem endpoint_step_inv [DecidableEq K] {libs : Libs K} {ledger ledger' : Ledger K}
    {e e' : Endpoint K} {ev : Event} (hsender : e.sender.Inv) (hrecv : e.RecvInv)
    (hstep : e.step libs ledger ev = some (ledger', e')) : e'.sender.Inv ∧ e'.RecvInv := by
  rcases Endpoint.step_cases hstep with
    ⟨ev, rfl, hmove⟩ | ⟨ev, rfl, rfl, hmove⟩ | ⟨ev, rfl, rfl, hmove⟩
  · exact ⟨hmove.sender_inv hsender, hrecv.congr hmove.frame.receiver hmove.frame.remoteEOF⟩
  · exact ⟨hmove.frame.sender ▸ hsender, hmove.recvInv hrecv⟩
  · have hframe := hmove.frame
    exact ⟨hframe.sender ▸ hsender, hrecv.congr hframe.receiver hframe.remoteEOF⟩

theorem inv_step [DecidableEq K] {libs : Libs K} {split : Split K} {s t : Pair K}
    {a : Side × Event} (h : Inv libs split s) (hstep : s.step libs a = some t) :
    Inv libs split t := by
  obtain ⟨actor, ev⟩ := a
  obtain ⟨ledger, e, he, rfl⟩ := step_eq_some hstep
  obtain ⟨hsender, hrecv⟩ := endpoint_step_inv (h.sender actor) (h.recv actor) he
  refine ⟨fun side ↦ ?_, fun side ↦ ?_, fun side ↦ ?_⟩
  · rcases side.eq_or_eq_peer actor with rfl | rfl
    · simpa using (h.link side).tx_step he
    · have hlink := h.link actor.peer
      rw [Side.peer_peer] at hlink ⊢
      have hkey : (s.endpoint actor).crypt.send.key ≠ sendKey split actor.peer := by
        rw [(h.link actor).send]
        exact (sendKey_peer_ne split actor).symm
      simpa using hlink.rx_step hkey he
  · by_cases hside : side = actor
    · subst hside
      simpa using hsender
    · simpa [hside] using h.sender side
  · by_cases hside : side = actor
    · subst hside
      simpa using hrecv
    · simpa [hside] using h.recv side

theorem inv_of_reachable [DecidableEq K] {libs : Libs K} {split : Split K}
    {canCloseWrite : Side → Bool} {s : Pair K}
    (h : (machine libs split canCloseWrite).Reachable s) : Inv libs split s :=
  Machine.invariant (I := Inv libs split) (inv_start libs split canCloseWrite)
    (fun _ _ _ _ hs hstep ↦ inv_step hs hstep) h

/-- What a side has opened carries no byte that its peer has not read. -/
theorem Inv.dataOf_opened {libs : Libs K} {split : Split K} {s : Pair K} (h : Inv libs split s)
    (side : Side) :
    dataOf (s.endpoint side).receiver.opened <+: (s.endpoint side.peer).sender.read := by
  have hopened : (s.endpoint side).receiver.opened <+: (s.endpoint side.peer).sender.sealed := by
    simpa using (h.link side.peer).opened
  exact (hopened.flatMap payload).trans (h.sender side.peer).settled.dataOf_sealed

/-- Once a control frame has been opened, the peer has read its end of file and the opened
data is all it read. -/
theorem Inv.opened_of_control {libs : Libs K} {split : Split K} {s : Pair K}
    (h : Inv libs split s) {side : Side} {frames : List PlainFrame}
    (hpre : frames <+: (s.endpoint side).receiver.opened) (hcontrol : hasControl frames = true) :
    (s.endpoint side.peer).sender.readEOF = true ∧
      dataOf frames = (s.endpoint side.peer).sender.read := by
  have hopened : (s.endpoint side).receiver.opened <+: (s.endpoint side.peer).sender.sealed := by
    simpa using (h.link side.peer).opened
  exact (h.sender side.peer).settled.dataOf_of_control (hpre.trans hopened) hcontrol

/-- A closed `remoteEOF` channel means a complete transfer. -/
theorem Inv.complete_of_remoteEOF {libs : Libs K} {split : Split K} {s : Pair K}
    (h : Inv libs split s) {side : Side} (heof : (s.endpoint side).remoteEOF = true) :
    (s.endpoint side.peer).sender.readEOF = true ∧
      (s.endpoint side).receiver.written = (s.endpoint side.peer).sender.read := by
  obtain ⟨frames, hpre, hcontrol, hwritten⟩ := (h.recv side).ended heof
  obtain ⟨hread, hdata⟩ := h.opened_of_control hpre hcontrol
  have hpre' := (h.recv side).settled.trans (h.dataOf_opened side)
  exact ⟨hread, hpre'.eq_of_length_le (hdata ▸ hwritten.length_le)⟩

/-- The direction from `side` to its peer, as the two local connections see it. -/
def direction (side : Side) (s : Pair K) : HalfStream UInt8 where
  sent := (s.endpoint side).sender.read
  ended := (s.endpoint side).sender.readEOF
  got := (s.endpoint side.peer).receiver.written
  closed := (s.endpoint side.peer).receiver.closeWrite

end Pair

namespace Endpoint

variable {K : Type}

/-- `sendLoop` reads only before it has seen the end of file. -/
theorem SendMove.read [DecidableEq K] {libs : Libs K} {ledger ledger' : Ledger K}
    {e e' : Endpoint K} {ev : SendEvent} (hmove : SendMove libs ledger e ev ledger' e')
    (h : e.sender.Inv) :
    (e'.sender.read = e.sender.read ∧ e'.sender.readEOF = e.sender.readEOF) ∨
    e.sender.readEOF = false ∧ ∃ chunk, e'.sender.read = e.sender.read ++ chunk := by
  have hreading : e.sender.pc = .reading → e.sender.readEOF = false := by
    intro hpc
    simpa [hpc, SendPc.seenEOF] using (h.running (by simp [hpc])).eof
  cases hmove with
  | readEmpty readErr hpc _ =>
    refine .inr ⟨hreading hpc, [], ?_⟩
    cases readErr <;> rfl
  | readData chunk readErr hpc _ _ => exact .inr ⟨hreading hpc, chunk, rfl⟩
  | transmitted stage ciphertext _ =>
    rcases stage with ⟨chunk, _ | _ | _⟩ | _ | _ <;> exact .inl ⟨rfl, rfl⟩
  | _ => exact .inl ⟨rfl, rfl⟩

/-- `recvLoop` writes only bytes of the data frame in hand, and calls `CloseWrite` only with a
control frame in hand. -/
theorem RecvMove.written {libs : Libs K} {ledger : Ledger K} {e e' : Endpoint K} {ev : RecvEvent}
    (hmove : RecvMove libs ledger e ev e') :
    (e'.receiver.written = e.receiver.written ∧ e'.receiver.closeWrite = e.receiver.closeWrite) ∨
    (∃ data bytes, e.receiver.pc = .writing data ∧ bytes <+: data ∧
      e'.receiver.written = e.receiver.written ++ bytes ∧
      e'.receiver.closeWrite = e.receiver.closeWrite) ∨
    e.receiver.pc = .halfClosing ∧ e'.receiver.written = e.receiver.written ∧
      (e'.receiver.closeWrite = e.receiver.closeWrite ∨ e'.receiver.closeWrite = true) := by
  cases hmove with
  | opened plaintext ciphertext frame _ _ _ =>
    rcases frame with (_ | ⟨b, bs⟩) | _ | _ | _ <;> exact .inl ⟨rfl, rfl⟩
  | wrote data hpc => exact .inr (.inl ⟨data, data, hpc, List.prefix_rfl, rfl, rfl⟩)
  | writeFailed data n err hpc _ =>
    exact .inr (.inl ⟨data, data.take n, hpc, List.take_prefix n data, rfl, rfl⟩)
  | halfClosed hpc =>
    refine .inr (.inr ⟨hpc, rfl, ?_⟩)
    cases hcan : e.canCloseWrite <;> simp [Endpoint.halfClosed, hcan]
  | _ => exact .inl ⟨rfl, rfl⟩

end Endpoint

namespace Pair

variable {K : Type}

/-- The sending side's steps are writes and the end of the abstract stream. -/
theorem direction_tx [DecidableEq K] {libs : Libs K} {split : Split K} {s : Pair K}
    {ledger : Ledger K} {e : Endpoint K} {side : Side} {ev : Event} (h : Inv libs split s)
    (hstep : (s.endpoint side).step libs s.ledger ev = some (ledger, e)) :
    (HalfStream.machine UInt8).Reaches (direction side s)
      { direction side s with sent := e.sender.read, ended := e.sender.readEOF } := by
  rcases Endpoint.step_cases hstep with
    ⟨ev, rfl, hmove⟩ | ⟨ev, rfl, rfl, hmove⟩ | ⟨ev, rfl, rfl, hmove⟩
  · rcases hmove.read (h.sender side) with ⟨hread, heof⟩ | ⟨heof, chunk, hread⟩
    · rw [hread, heof]
      exact Machine.Reaches.refl _
    · have hwrite := HalfStream.reaches_write (s := direction side s) chunk heof
      rw [hread]
      cases hend : e.sender.readEOF with
      | false => simpa [direction, heof] using hwrite
      | true => exact hwrite.trans (HalfStream.reaches_finish _)
  · rw [hmove.frame.sender]
    exact Machine.Reaches.refl _
  · rw [hmove.frame.sender]
    exact Machine.Reaches.refl _

/-- The receiving side's steps are deliveries and the close of the abstract stream. -/
theorem direction_rx [DecidableEq K] {libs : Libs K} {split : Split K} {s : Pair K}
    {ledger : Ledger K} {e : Endpoint K} (side : Side) {ev : Event} (h : Inv libs split s)
    (hstep : (s.endpoint side.peer).step libs s.ledger ev = some (ledger, e)) :
    (HalfStream.machine UInt8).Reaches (direction side s)
      { direction side s with got := e.receiver.written, closed := e.receiver.closeWrite } := by
  rcases Endpoint.step_cases hstep with
    ⟨ev, rfl, hmove⟩ | ⟨ev, rfl, rfl, hmove⟩ | ⟨ev, rfl, rfl, hmove⟩
  · rw [hmove.frame.receiver]
    exact Machine.Reaches.refl _
  · have hopened := h.dataOf_opened side.peer
    rw [Side.peer_peer] at hopened
    rcases hmove.written with
      ⟨hwritten, hclose⟩ | ⟨data, bytes, hpc, hbytes, hwritten, hclose⟩ | ⟨hpc, hwritten, hclose⟩
    · rw [hwritten, hclose]
      exact Machine.Reaches.refl _
    · obtain ⟨hdata, _⟩ := (h.recv side.peer).atWrite hpc
      rw [hwritten, hclose]
      apply HalfStream.reaches_deliver (s := direction side s)
      exact ((List.prefix_append_right_inj _).mpr hbytes).trans (hdata ▸ hopened)
    · obtain ⟨hall, _⟩ := (h.recv side.peer).atControl (by simp [hpc, RecvPc.atControl])
      have hcontrol := (h.recv side.peer).control (by simp [hpc, RecvPc.atControl])
      obtain ⟨heof, hread⟩ := h.opened_of_control List.prefix_rfl hcontrol
      rw [Side.peer_peer] at heof hread
      rcases hclose with hclose | hclose
      · rw [hwritten, hclose]
        exact Machine.Reaches.refl _
      · rw [hwritten, hclose]
        exact HalfStream.reaches_close (s := direction side s) heof (hall.trans hread)
  · rw [hmove.frame.receiver]
    exact Machine.Reaches.refl _

/-- Each direction of the pair refines the reliable half-closable stream. -/
theorem direction_reachable [DecidableEq K] {libs : Libs K} {split : Split K}
    {canCloseWrite : Side → Bool} {s : Pair K}
    (h : (machine libs split canCloseWrite).Reachable s) (side : Side) :
    (HalfStream.machine UInt8).Reachable (direction side s) := by
  refine Machine.reachable_of_refines (direction side) rfl ?_ h
  rintro s ⟨actor, ev⟩ t hs hstep
  have hinv := inv_of_reachable hs
  obtain ⟨ledger, e, he, rfl⟩ := step_eq_some hstep
  rcases side.eq_or_eq_peer actor with rfl | rfl
  · simpa [direction] using direction_tx hinv he
  · have hrx := direction_rx actor.peer hinv (by simpa using he)
    simpa [direction] using hrx

/-- For any bytes of the two local connections, any chunking, any interleaving of the four loops
and any behaviour of the relay, what a side has written is a prefix of what its peer has read,
and `CloseWrite` comes only after the peer's end of file, with every byte before it written. -/
theorem stream_integrity [DecidableEq K] (libs : Libs K) (split : Split K)
    (canCloseWrite : Side → Bool) {s : Pair K}
    (h : (machine libs split canCloseWrite).Reachable s) (side : Side) :
    (s.endpoint side).receiver.written <+: (s.endpoint side.peer).sender.read ∧
    ((s.endpoint side).receiver.closeWrite = true →
      (s.endpoint side.peer).sender.readEOF = true ∧
      (s.endpoint side).receiver.written = (s.endpoint side.peer).sender.read) := by
  have hsafe := HalfStream.safe_of_reachable (direction_reachable h side.peer)
  have hgot := hsafe.got
  have hclosed := hsafe.closed
  simp only [direction, Side.peer_peer] at hgot hclosed
  exact ⟨hgot, hclosed⟩

end Pair

/-- The proto3 encoding of the frames an endpoint sends, for data of at most 127 bytes. -/
def shortMarshal : PlainFrame → Option Bytes
  | .data bytes => if bytes.length < 128 then some (0x0a :: UInt8.ofNat bytes.length :: bytes) else none
  | .halfClose => some [0x12, 0x00]
  | .close .normal "" => some [0x1a, 0x02, 0x08, 0x01]
  | _ => none

def shortUnmarshal : Bytes → Option PlainFrame
  | [0x12, 0x00] => some .halfClose
  | [0x1a, 0x02, 0x08, 0x01] => some (.close .normal "")
  | 0x0a :: length :: bytes => if bytes.length = length.toNat then some (.data bytes) else none
  | _ => none

def shortCodec : Codec where
  marshal := shortMarshal
  unmarshal := shortUnmarshal
  round_trip frame b h := by
    unfold shortMarshal at h
    split at h
    · rename_i bytes
      split_ifs at h with hlength
      cases h
      have hnat : bytes.length % 256 = bytes.length := Nat.mod_eq_of_lt (by omega)
      simp [shortUnmarshal, hnat]
    · cases h
      rfl
    · cases h
      rfl
    · contradiction

/-- A cipher for fixed runs: the counter in front of the plaintext. -/
def sampleLibs : Libs Side where
  codec := shortCodec
  cipher _ n plaintext := some (UInt8.ofNat n :: plaintext)

def sampleSplit : Split Side := ⟨.client, .agent, by decide⟩

/-- The client reads two bytes and the end of file; the agent writes them and half-closes. -/
def sampleTransfer : List (Side × Event) :=
  [(.client, .send (.read [104, 105] .eof)), (.client, .send .sendPlain),
    (.client, .send (.transmit none)), (.client, .send .sendPlain),
    (.agent, .recv (.receive (.ok [0, 0x0a, 2, 104, 105]))), (.agent, .recv .decrypt),
    (.agent, .recv (.write (.ok ()))), (.agent, .recv .check),
    (.agent, .recv (.receive (.ok [1, 0x12, 0]))), (.agent, .recv .decrypt),
    (.agent, .recv .halfClose)]

namespace Pair

theorem stream_integrity_sampleTransfer :
    ∃ s, (machine sampleLibs sampleSplit fun _ ↦ true).exec (start sampleSplit fun _ ↦ true)
        sampleTransfer = some s ∧
      (s.endpoint .agent).receiver.written = [104, 105] ∧
      (s.endpoint .agent).receiver.closeWrite = true ∧
      (s.endpoint .client).sender.readEOF = true ∧
      (s.endpoint .agent).receiver.written = (s.endpoint .client).sender.read := by
  refine ⟨_, rfl, rfl, rfl, ?_⟩
  exact (stream_integrity sampleLibs sampleSplit (fun _ ↦ true)
    (Machine.reaches_of_exec sampleTransfer rfl) .agent).2 rfl

end Pair

end RelayCat.Bridge
