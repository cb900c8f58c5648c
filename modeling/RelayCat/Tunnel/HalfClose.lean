import RelayCat.Tunnel.Sides

/-!
# Half-close loses no data

The three parties tear a session down on each other's half-closes: `Bridge` closes its connection
and its send side when its first loop returns, and the relay cancels the session when a send side
ends. No endpoint is torn down early, because the first loop of an endpoint returns only after the
peer's `HalfClose` has been handled: a teardown that reaches an endpoint before that has been
started by its peer, whose frames are then all in the endpoint's own queue.
-/

namespace RelayCat.Tunnel

open Go Wire Noise Automaton Bridge Relay Endpoint

variable {K : Type}

/-- The session is being torn down: its context is done or a handler has left its loop. -/
def TornDown (s : Tunnel K) : Prop :=
  s.ctx ≠ none ∨ ∃ side result, (s.leg side).handler.loop = .exited result

/-- What the teardown of a session can rely on. -/
structure TeardownInv (s : Tunnel K) : Prop where
  returned : ∀ side, (s.pair.endpoint side).LoopReturned →
    (s.pair.endpoint side).remoteEOF = true ∧ .halfClose ∈ (s.pair.endpoint side).sender.sent
  receiver : ∀ side, (s.pair.endpoint side).receiver.pc = .returned →
    (s.pair.endpoint side).sender.pc ≠ .returned → (s.pair.endpoint side.peer).remoteEOF = true
  eof : ∀ side, ended (s.leg side).handler.pump = true →
    (s.leg side).up.queue = [] ∧ (s.pair.endpoint side).sendClosed = true
  failed : ∀ side, (s.leg side).handler.pump.failed = true →
    s.TornDown ∨ (s.leg side).reset = true
  reset : ∀ side, (s.leg side).reset = true → (s.pair.endpoint side).sendClosed = true ∧
    (s.pair.endpoint side.peer).remoteEOF = true
  cancelled : ∀ side, (s.leg side).cancelled = true →
    ∃ result, (s.leg side).handler.loop = .exited result
  finished : ∀ side, (s.leg side).finished = true → (s.leg side).cancelled = true
  drained : ∀ side, (s.pair.endpoint side).remoteEOF = false → s.TornDown →
    ended (s.leg side.peer).handler.pump = true
  intact : ∀ side, (s.pair.endpoint side).remoteEOF = false →
    (s.leg side.peer).handler.pump.failed = false ∧ (s.leg side).handler.sendFailed = false

/-- The invariants of the endpoints and of the delivery that the teardown builds on. -/
structure Base (libs : Libs K) (split : Split K) (s : Tunnel K) : Prop where
  pair : Pair.Inv libs split s.pair
  delivery : Delivery split s
  loops : ∀ side, (s.pair.endpoint side).LoopInv

variable [DecidableEq K] {libs : Libs K} {split : Split K} {s t : Tunnel K} {a : Act}

theorem base_of_reachable {canCloseWrite : Side → Bool}
    (h : (machine libs split canCloseWrite).Reachable s) : Base libs split s := by
  refine ⟨Pair.inv_of_reachable (pair_reachable h), delivery_of_reachable h, ?_⟩
  refine Machine.invariant (I := fun s : Tunnel K ↦ ∀ side, (s.pair.endpoint side).LoopInv) ?_ ?_ h
  · exact fun side ↦ ⟨fun _ ↦ ⟨rfl, rfl, rfl⟩, fun hor ↦ by simp [machine, Pair.start] at hor, rfl,
      fun _ _ hpc ↦ by contradiction, fun _ _ hmem ↦ by contradiction⟩
  · intro s a t hr hs hstep side
    exact ((step_of_step hstep).side side).loopInv
      (Pair.resultInv_of_reachable (pair_reachable hr) side) (hs side)

namespace Base

omit [DecidableEq K]

/-- A side that has handled its peer's `HalfClose` or `Close` has a peer that sent `HalfClose`. -/
theorem halfClose_sent (h : Base libs split s) {side : Side}
    (heof : (s.pair.endpoint side).remoteEOF = true) :
    .halfClose ∈ (s.pair.endpoint side.peer).sender.sent := by
  obtain ⟨frames, hpre, hcontrol, _⟩ := (h.pair.recv side).ended heof
  have hsent := hpre.trans (h.delivery.opened_prefix_sent h.pair side)
  have hsettled := (h.pair.sender side.peer).settled
  exact hsent.subset (hsettled.halfClose_mem (hsent.trans hsettled.sent_prefix_sealed) hcontrol)

/-- A `Close` comes from a peer that has handled this side's `HalfClose` or `Close`. -/
theorem remoteEOF_of_close (h : Base libs split s) {side : Side} {code : CloseCode}
    {message : String} (hpc : (s.pair.endpoint side).receiver.pc = .closing code message) :
    (s.pair.endpoint side.peer).remoteEOF = true := by
  have hopened := (h.loops side).closing code message hpc
  have hsent := (h.delivery.opened_prefix_sent h.pair side).subset hopened
  exact (h.loops side.peer).sealedClose code message
    ((h.pair.sender side.peer).settled.sent_prefix_sealed.subset hsent)

end Base

omit [DecidableEq K] in
/-- A send side is closed only after the peer's `HalfClose` has been handled. -/
theorem TeardownInv.remoteEOF_of_closed (h : TeardownInv s) (hbase : Base libs split s)
    {side : Side} (hclosed : (s.pair.endpoint side).sendClosed = true) :
    (s.pair.endpoint side).remoteEOF = true :=
  (h.returned side ((hbase.loops side).returned_of_undone (.inr (.inr hclosed)))).1

omit [DecidableEq K] in
/-- While a side waits for its peer's `HalfClose`, no stream has been reset. -/
theorem TeardownInv.not_reset (h : TeardownInv s) (hbase : Base libs split s) {side : Side}
    (heof : (s.pair.endpoint side).remoteEOF = false) (other : Side) :
    (s.leg other).reset = false := by
  cases hreset : (s.leg other).reset with
  | false => rfl
  | true =>
    obtain ⟨hclosed, hpeer⟩ := h.reset other hreset
    rcases side.eq_or_eq_peer other with rfl | rfl
    · rw [h.remoteEOF_of_closed hbase hclosed] at heof
      contradiction
    · rw [hpeer] at heof
      contradiction

theorem not_tornDown_init (libs : Libs K) (split : Split K) (canCloseWrite : Side → Bool) :
    ¬ TornDown (machine libs split canCloseWrite).init := by
  simp [TornDown, machine, Handler.start]

theorem Step.tornDown (hstep : Step libs s a t) (h : s.TornDown) : t.TornDown := by
  rcases h with hctx | ⟨side, result, hloop⟩
  · left
    cases hstep with
    | cancel side result _ => simp
    | abort _ => simp
    | _ => exact hctx
  · exact .inr ⟨side, result, (hstep.side side).exited hloop⟩

/-- A teardown starts with a goroutine's result or with a reset. -/
theorem Step.tears (hstep : Step libs s a t) (h : t.TornDown) :
    s.TornDown ∨ (∃ side, (s.leg side).reset = true) ∨
      ∃ side err, (s.leg side).handler.pump = .done err ∧
        ∃ result, (t.leg side).handler.loop = .exited result := by
  rcases h with hctx | ⟨side, result, hloop⟩
  · cases hstep with
    | cancel side result hloop => exact .inl (.inr ⟨side, result, hloop⟩)
    | abort hreset => exact .inr (.inl ⟨.client, hreset⟩)
    | _ => exact .inl (.inl hctx)
  · rcases (hstep.side side).loop_exits hloop with hold | hctx | hreset | ⟨err, hpump⟩
    · exact .inl (.inr ⟨side, result, hold⟩)
    · exact .inl (.inl hctx)
    · exact .inr (.inl ⟨side, hreset⟩)
    · exact .inr (.inr ⟨side, err, hpump, result, hloop⟩)

theorem Step.remoteEOF_of_false (hstep : Step libs s a t) {side : Side}
    (heof : (t.pair.endpoint side).remoteEOF = false) :
    (s.pair.endpoint side).remoteEOF = false := by
  cases hbefore : (s.pair.endpoint side).remoteEOF with
  | false => rfl
  | true =>
    rw [(hstep.side side).remoteEOF hbefore] at heof
    contradiction

/-- A teardown that begins while a side waits for its peer's `HalfClose` was begun by the peer. -/
theorem Step.drained (hstep : Step libs s a t) (hbase : Base libs split s) (h : TeardownInv s)
    {side : Side} (heof : (t.pair.endpoint side).remoteEOF = false) (htorn : t.TornDown) :
    ended (t.leg side.peer).handler.pump = true := by
  have heof' := hstep.remoteEOF_of_false heof
  refine (hstep.side side.peer).ended ?_
  rcases hstep.tears htorn with htorn' | ⟨other, hreset⟩ | ⟨other, err, hpump, _⟩
  · exact h.drained side heof' htorn'
  · rw [h.not_reset hbase heof' other] at hreset
    contradiction
  · rcases other.eq_or_eq_peer side with rfl | rfl
    · cases hend : err.is .eof with
      | true =>
        have hclosed := (h.eof other (by simpa [hpump, ended] using hend)).2
        rw [h.remoteEOF_of_closed hbase hclosed] at heof'
        contradiction
      | false =>
        rcases h.failed other (by simp [hpump, PumpPc.failed, hend]) with htorn' | hreset
        · exact h.drained other heof' htorn'
        · rw [h.not_reset hbase heof' other] at hreset
          contradiction
    · have hfailed := (h.intact side heof').1
      rw [hpump] at hfailed ⊢
      simpa [ended, PumpPc.failed] using hfailed

theorem Step.intact (hstep : Step libs s a t) (hbase : Base libs split s) (h : TeardownInv s)
    {side : Side} (heof : (t.pair.endpoint side).remoteEOF = false) :
    (t.leg side.peer).handler.pump.failed = false ∧ (t.leg side).handler.sendFailed = false := by
  have heof' := hstep.remoteEOF_of_false heof
  obtain ⟨hfailed, hsend⟩ := h.intact side heof'
  constructor
  · by_contra hnot
    rcases (hstep.side side.peer).pump_fails (by simpa using hnot) with
      hold | ⟨hpump, hreset | hcancelled⟩ | ⟨payload, hpump, hctx⟩
    · rw [hfailed] at hold
      contradiction
    · rw [h.not_reset hbase heof' side.peer] at hreset
      contradiction
    · obtain ⟨result, hloop⟩ := h.cancelled side.peer hcancelled
      have hended := h.drained side heof' (.inr ⟨side.peer, result, hloop⟩)
      rw [hpump] at hended
      contradiction
    · have hended := h.drained side heof' (.inl hctx)
      rw [hpump] at hended
      contradiction
  · by_contra hnot
    rcases (hstep.side side).sendFails (by simpa using hnot) with hold | hreset
    · rw [hsend] at hold
      contradiction
    · rw [h.not_reset hbase heof' side] at hreset
      contradiction

theorem Step.failed (hstep : Step libs s a t) (h : TeardownInv s) {side : Side}
    (hfailed : (t.leg side).handler.pump.failed = true) :
    t.TornDown ∨ (t.leg side).reset = true := by
  rcases (hstep.side side).pump_fails hfailed with
    hold | ⟨_, hreset | hcancelled⟩ | ⟨_, _, hctx⟩
  · exact (h.failed side hold).imp hstep.tornDown (hstep.side side).reset
  · exact .inr ((hstep.side side).reset hreset)
  · obtain ⟨result, hloop⟩ := h.cancelled side hcancelled
    exact .inl (hstep.tornDown (.inr ⟨side, result, hloop⟩))
  · exact .inl (hstep.tornDown (.inl hctx))

theorem Step.reset (hstep : Step libs s a t) (hbase : Base libs split s) (h : TeardownInv s)
    {side : Side} (hreset : (t.leg side).reset = true) :
    (t.pair.endpoint side).sendClosed = true ∧
      (t.pair.endpoint side.peer).remoteEOF = true := by
  rcases (hstep.side side).resets hreset with hold | ⟨hclosed, hrunning⟩
  · obtain ⟨hclosed, heof⟩ := h.reset side hold
    exact ⟨(hstep.side side).sendClosed hclosed, (hstep.side side.peer).remoteEOF heof⟩
  · refine ⟨(hstep.side side).sendClosed hclosed, (hstep.side side.peer).remoteEOF ?_⟩
    have hreturned := (hbase.loops side).returned_of_undone (.inr (.inr hclosed))
    exact h.receiver side (hreturned.resolve_left hrunning) hrunning

omit [DecidableEq K] in
/-- An open send side whose stream has ended has a peer that has handled its `HalfClose`. -/
theorem TeardownInv.peer_remoteEOF (h : TeardownInv s) {side : Side}
    (hopen : (s.pair.endpoint side).sendClosed = false)
    (hfinished : (s.leg side).finished = true) :
    (s.pair.endpoint side.peer).remoteEOF = true := by
  obtain ⟨result, hloop⟩ := h.cancelled side (h.finished side hfinished)
  by_contra hnot
  have hended := h.drained side.peer (by simpa using hnot) (.inr ⟨side, result, hloop⟩)
  rw [Side.peer_peer] at hended
  rw [(h.eof side hended).2] at hopen
  contradiction

omit [DecidableEq K] in
/-- A stream that ends after its last frame has delivered the peer's `HalfClose`. -/
theorem TeardownInv.remoteEOF_of_ended (h : TeardownInv s) (hbase : Base libs split s)
    {side : Side} (hpc : (s.pair.endpoint side).receiver.pc = .receiving)
    (hqueue : (s.leg side).down.queue = []) (hfinished : (s.leg side).finished = true) :
    (s.pair.endpoint side).remoteEOF = true := by
  by_contra hnot
  have heof : (s.pair.endpoint side).remoteEOF = false := by simpa using hnot
  obtain ⟨result, hloop⟩ := h.cancelled side (h.finished side hfinished)
  have hended := h.drained side heof (.inr ⟨side, result, hloop⟩)
  obtain ⟨hup, hclosed⟩ := h.eof side.peer hended
  have hpeer := (hbase.loops side.peer).returned_of_undone (.inr (.inr hclosed))
  have hhalf := (h.returned side.peer hpeer).2
  have hlength : (s.pair.endpoint side).receiver.opened.length =
      (s.pair.endpoint side.peer).sender.sent.length := by
    have hsent := (hbase.delivery.handler side).taken_eq (h.intact side heof).2
    rw [hloop] at hsent
    have hcrossed := hbase.delivery.crossed side.peer
    rw [Side.peer_peer, hsent] at hcrossed
    rw [hbase.delivery.opened_length hqueue (by simp [hpc, RecvPc.inHand]),
      ← hbase.delivery.taken_length hended hup, hcrossed]
    simp [LoopPc.held]
  have hopened := (hbase.delivery.opened_prefix_sent hbase.pair side).eq_of_length hlength
  have hcontrol : hasControl (s.pair.endpoint side).receiver.opened = true := by
    rw [hopened]
    exact List.any_eq_true.mpr ⟨_, hhalf, rfl⟩
  have hseen := (hbase.pair.recv side).seen hcontrol
  simp [heof, hpc, RecvPc.atControl] at hseen

theorem Step.ends (hstep : Step libs s a t) (hbase : Base libs split s)
    (hpair : Pair.Inv libs split t.pair) {side : Side}
    (hold : ¬ (s.pair.endpoint side).LoopReturned) (hnew : (t.pair.endpoint side).LoopReturned) :
    Ends (s.pair.endpoint side) (t.pair.endpoint side) (s.leg side) := by
  exact (hstep.side side).ends (hbase.loops side) (hbase.delivery.decrypts hbase.pair side)
    (hpair.unset_not_mem side) hold hnew

omit [DecidableEq K] in
/-- A side that is about to send `Close` has handled its peer's `HalfClose`. -/
theorem Base.closing (h : Base libs split s) {side : Side} {ciphertext : Bytes}
    (hpc : (s.pair.endpoint side).sender.pc = .transmitting .close ciphertext) :
    (s.pair.endpoint side).remoteEOF = true ∧
      .halfClose ∈ (s.pair.endpoint side).sender.sent := by
  have hsealed := ((h.pair.sender side).running (by simp [hpc])).sent
  rw [hpc] at hsealed
  have hmem : .close .normal "" ∈ (s.pair.endpoint side).sender.sealed := by
    rw [hsealed]
    exact List.mem_append_right _ List.mem_cons_self
  exact ⟨(h.loops side).sealedClose _ _ hmem, (h.pair.sender side).settled.halfClose_sent hmem⟩

theorem Step.returned (hstep : Step libs s a t) (hbase : Base libs split s)
    (hpair : Pair.Inv libs split t.pair) (h : TeardownInv s) {side : Side}
    (hnew : (t.pair.endpoint side).LoopReturned) :
    (t.pair.endpoint side).remoteEOF = true ∧
      .halfClose ∈ (t.pair.endpoint side).sender.sent := by
  have hside := hstep.side side
  have hgrow : (s.pair.endpoint side).remoteEOF = true ∧
      .halfClose ∈ (s.pair.endpoint side).sender.sent →
      (t.pair.endpoint side).remoteEOF = true ∧
        .halfClose ∈ (t.pair.endpoint side).sender.sent :=
    fun hs ↦ ⟨hside.remoteEOF hs.1, hside.sent_grows.subset hs.2⟩
  by_cases hold : (s.pair.endpoint side).LoopReturned
  · exact hgrow (h.returned side hold)
  have hopen : (s.pair.endpoint side).sendClosed = false := by
    by_contra hclosed
    exact hold ((hbase.loops side).returned_of_undone (.inr (.inr (by simpa using hclosed))))
  have hsent : (s.pair.endpoint side.peer).remoteEOF = true →
      .halfClose ∈ (s.pair.endpoint side).sender.sent := by
    intro hpeer
    simpa using hbase.halfClose_sent hpeer
  cases hstep.ends hbase hpair hold hnew with
  | sentClose ciphertext hpc _ _ => exact hgrow (hbase.closing hpc)
  | sendEnded stage ciphertext hpc _ hfinished _ =>
    have hhalf := hsent (h.peer_remoteEOF hopen hfinished)
    have hrunning := (hbase.pair.sender side).running (by simp [hpc])
    rw [hrunning.stage_close hpc hhalf] at hpc
    exact hgrow (hbase.closing hpc)
  | recvEnded hpc hqueue hfinished _ =>
    exact hgrow ⟨h.remoteEOF_of_ended hbase hpc hqueue hfinished,
      hsent (h.peer_remoteEOF hopen hfinished)⟩
  | closed code message hpc heof _ =>
    exact ⟨heof, hside.sent_grows.subset (hsent (hbase.remoteEOF_of_close hpc))⟩

theorem Step.receiver (hstep : Step libs s a t) (hbase : Base libs split s)
    (hpair : Pair.Inv libs split t.pair) (h : TeardownInv s) {side : Side}
    (hreturned : (t.pair.endpoint side).receiver.pc = .returned)
    (hrunning : (t.pair.endpoint side).sender.pc ≠ .returned) :
    (t.pair.endpoint side.peer).remoteEOF = true := by
  refine (hstep.side side.peer).remoteEOF ?_
  have hsender : (s.pair.endpoint side).sender.pc ≠ .returned :=
    fun hpc ↦ hrunning ((hstep.side side).sender_returned hpc)
  by_cases hreceiver : (s.pair.endpoint side).receiver.pc = .returned
  · exact h.receiver side hreceiver hsender
  have hold : ¬ (s.pair.endpoint side).LoopReturned := fun hor ↦ hor.elim hsender hreceiver
  cases hstep.ends hbase hpair hold (.inr hreturned) with
  | sentClose ciphertext _ _ hsame => exact absurd (hsame ▸ hreturned) hreceiver
  | sendEnded stage ciphertext _ _ _ hsame => exact absurd (hsame ▸ hreturned) hreceiver
  | recvEnded _ _ hfinished _ =>
    refine h.peer_remoteEOF ?_ hfinished
    by_contra hclosed
    exact hold ((hbase.loops side).returned_of_undone (.inr (.inr (by simpa using hclosed))))
  | closed code message hpc _ _ => exact hbase.remoteEOF_of_close hpc

theorem Step.teardownInv (hstep : Step libs s a t) (hbase : Base libs split s)
    (hpair : Pair.Inv libs split t.pair) (h : TeardownInv s) : TeardownInv t where
  returned _ := hstep.returned hbase hpair h
  receiver _ := hstep.receiver hbase hpair h
  eof side := (hstep.side side).eof (h.eof side)
  failed _ := hstep.failed h
  reset _ := hstep.reset hbase h
  cancelled side := ((hstep.side side).leaves (h.cancelled side) (h.finished side)).1
  finished side := ((hstep.side side).leaves (h.cancelled side) (h.finished side)).2
  drained _ := hstep.drained hbase h
  intact _ := hstep.intact hbase h

theorem teardownInv_of_reachable {canCloseWrite : Side → Bool}
    (h : (machine libs split canCloseWrite).Reachable s) : TeardownInv s := by
  refine Machine.invariant (I := TeardownInv) ?_ ?_ h
  · have hidle := not_tornDown_init libs split canCloseWrite
    exact ⟨fun _ hor ↦ by simp [LoopReturned, machine, Pair.start] at hor,
      fun _ hpc ↦ by contradiction, fun _ hended ↦ by contradiction,
      fun _ hfailed ↦ by contradiction, fun _ hreset ↦ by contradiction,
      fun _ hc ↦ by contradiction, fun _ hf ↦ by contradiction,
      fun _ _ htorn ↦ absurd htorn hidle, fun _ _ ↦ ⟨rfl, rfl⟩⟩
  · intro s a t hr hs hstep
    have hpair := Pair.inv_of_reachable (pair_reachable (hr.tail hstep))
    exact (step_of_step hstep).teardownInv (base_of_reachable hr) hpair hs

/-- For any bytes of the two local connections, whichever side reaches its end of file first, and
any interleaving of the endpoints and the handlers: an endpoint that has closed its connection has
written exactly what its peer read up to its end of file, and an endpoint seals a `Close` only
after it has sent its own `HalfClose` and opened the peer's `HalfClose` or `Close`. -/
theorem half_close_lossless (libs : Libs K) (split : Split K) (canCloseWrite : Side → Bool)
    {s : Tunnel K} (h : (machine libs split canCloseWrite).Reachable s) (side : Side) :
    ((s.pair.endpoint side).connClosed = true →
      (s.pair.endpoint side.peer).sender.readEOF = true ∧
      (s.pair.endpoint side).receiver.written = (s.pair.endpoint side.peer).sender.read) ∧
    ∀ code message, .close code message ∈ (s.pair.endpoint side).sender.sealed →
      .halfClose ∈ (s.pair.endpoint side).sender.sent ∧
      ∃ frame ∈ (s.pair.endpoint side).receiver.opened,
        frame = .halfClose ∨ frame = .close .normal "" := by
  have hbase := base_of_reachable h
  refine ⟨fun hclosed ↦ ?_, fun code message hmem ↦ ?_⟩
  · have hreturned := (hbase.loops side).returned_of_undone (.inr (.inl hclosed))
    have heof := ((teardownInv_of_reachable h).returned side hreturned).1
    exact hbase.pair.complete_of_remoteEOF heof
  · have heof := (hbase.loops side).sealedClose code message hmem
    exact ⟨(hbase.pair.sender side).settled.halfClose_sent hmem, (hbase.pair.complete heof).1⟩

/-- A payload passes through the relay. -/
def forward (side : Side) (payload : Bytes) : List Act :=
  [.relay side (.recv (.ok payload)), .cross side, .relay side.peer (.send none)]

/-- The agent writes two bytes of the client, answers the client's half-close with its own and with
`Close`, and shuts its connection. -/
def sampleHalfClose : List Act :=
  [.endpoint .client (.send (.read [104, 105] .eof)), .endpoint .client (.send .sendPlain),
    .endpoint .client (.send (.transmit none)), .endpoint .client (.send .sendPlain),
    .endpoint .client (.send (.transmit none))] ++
  forward .client [0, 0x0a, 2, 104, 105] ++ forward .client [1, 0x12, 0] ++
  [.endpoint .agent (.recv (.receive (.ok [0, 0x0a, 2, 104, 105]))),
    .endpoint .agent (.recv .decrypt), .endpoint .agent (.recv (.write (.ok ()))),
    .endpoint .agent (.recv .check), .endpoint .agent (.recv (.receive (.ok [1, 0x12, 0]))),
    .endpoint .agent (.recv .decrypt), .endpoint .agent (.recv .halfClose),
    .endpoint .agent (.send (.read [] .eof)), .endpoint .agent (.send .sendPlain),
    .endpoint .agent (.send (.transmit none)), .endpoint .agent (.send .remoteDone),
    .endpoint .agent (.send .sendPlain), .endpoint .agent (.send (.transmit none)),
    .endpoint .agent (.bridge .first), .endpoint .agent (.bridge .cancel),
    .endpoint .agent (.bridge .closeConn)]

theorem half_close_lossless_sampleHalfClose :
    ∃ s, (machine sampleLibs sampleSplit fun _ ↦ true).Reachable s ∧
      (s.pair.endpoint .agent).connClosed = true ∧
      .close .normal "" ∈ (s.pair.endpoint .agent).sender.sealed ∧
      (s.pair.endpoint .client).sender.readEOF = true ∧
      (s.pair.endpoint .agent).receiver.written = (s.pair.endpoint .client).sender.read ∧
      .halfClose ∈ (s.pair.endpoint .agent).sender.sent := by
  obtain ⟨s, hexec, hclosed, hmem⟩ := Machine.exists_of_exec
    (M := machine sampleLibs sampleSplit fun _ ↦ true)
    (s := (machine sampleLibs sampleSplit fun _ ↦ true).init) sampleHalfClose
    (fun s ↦ (s.pair.endpoint .agent).connClosed = true ∧
      .close .normal "" ∈ (s.pair.endpoint .agent).sender.sealed) (by decide +kernel)
  have hreachable : (machine sampleLibs sampleSplit fun _ ↦ true).Reachable s :=
    Machine.reaches_of_exec sampleHalfClose hexec
  have hlossless := half_close_lossless sampleLibs sampleSplit (fun _ ↦ true) hreachable .agent
  exact ⟨s, hreachable, hclosed, hmem, (hlossless.1 hclosed).1, (hlossless.1 hclosed).2,
    (hlossless.2 _ _ hmem).1⟩

end RelayCat.Tunnel
