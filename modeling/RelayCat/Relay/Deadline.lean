import RelayCat.Relay.Lifetime

/-!
# Which part of pairing has a deadline

`HandshakeTimeout` bounds the two `select`s of `Connect` that wait for the agent. The service is
put together with the clients' ends of the `Connect` streams: a client puts frames into its stream,
makes room for the frames of the relay, or breaks the stream, and `Recv` and `Send` return only
what that allows. A slot that a call has reserved has a deadline when the relay alone, with no
further word from any peer, can bring the call to return and to release it. This is so at every
point of the pairing except before the client's second frame: there the call waits for the client
without a timer.
-/

namespace RelayCat.Relay

open Go Wire Automaton

/-- The client's end of one `Connect` stream: what the next calls of `Recv` and of `Send` are going
to return. Once the stream is broken both may fail instead. -/
structure ClientStream where
  inbox : List (Except Err ConnectRequest) := []
  window : List (Option Err) := []
  broken : Bool := false
  fits : ∀ result ∈ inbox, recvFits result = true := by nofun

namespace ClientStream

/-- The client sends a frame or ends its side. -/
def arrive (c : ClientStream) (result : Except Err ConnectRequest)
    (h : recvFits result = true) : ClientStream where
  inbox := c.inbox ++ [result]
  window := c.window
  broken := c.broken
  fits r hr := by
    rcases List.mem_append.mp hr with hold | hnew
    · exact c.fits r hold
    · rwa [List.mem_singleton.mp hnew]

/-- Flow control lets one more `Send` through, or fails it. -/
def grant (c : ClientStream) (result : Option Err) : ClientStream :=
  { c with window := c.window ++ [result] }

/-- `stream.Recv`. -/
def recv (c : ClientStream) (result : Except Err ConnectRequest) : Option ClientStream :=
  if c.inbox.head? = some result then
    some { c with
      inbox := c.inbox.tail
      fits := fun r hr ↦ c.fits r (List.mem_of_mem_tail hr) }
  else if c.broken && !result.isOk then some c
  else none

/-- `stream.Send`. -/
def send (c : ClientStream) (result : Option Err) : Option ClientStream :=
  if c.window.head? = some result then some { c with window := c.window.tail }
  else if c.broken && result.isSome then some c
  else none

/-- What a step inside `Connect` does with its stream. -/
def next (c : ClientStream) : ConnectLocal → Option ClientStream
  | .streamDone _ => some { c with broken := true }
  | .recv result | .forward (.recv result) => c.recv result
  | .sendAssigned result | .sendAccept result | .forward (.send result) => c.send result
  | _ => some c

/-- The client has already done what a call at this point of the pairing waits for. -/
def attends (c : ClientStream) : ConnectPc → Bool
  | .allocating | .assigning =>
    c.broken || c.window.head?.any fun result ↦ result.isSome || !c.inbox.isEmpty
  | .recvHandshake => c.broken || !c.inbox.isEmpty
  | _ => true

end ClientStream

/-- The service with the clients' ends of the `Connect` streams. -/
@[ext]
structure Net where
  service : Service := {}
  stream : ℕ → ClientStream := fun _ ↦ {}

/-- A step of a client on its stream, or a step of the service. -/
inductive NetAct where
  | arrive (i : ℕ) (result : Except Err ConnectRequest)
  | grant (i : ℕ) (result : Option Err)
  | relay (a : Act)

/-- The relay takes the step by itself: it is not a new call, the end of a stream, a frame or an
answer from a peer that has not come yet, or a failure of `rand.Read`. -/
def Act.own : Act → Bool
  | .register _ (.own (.call _)) | .register _ (.own (.streamDone _))
  | .register _ (.own (.send _)) => false
  | .connect _ (.own .call) | .connect _ (.own (.streamDone _)) | .connect _ (.randRead none) =>
    false
  | .accept _ (.own .call) | .accept _ (.own (.recv _)) | .accept _ (.own (.forward (.recv _)))
  | .accept _ (.own (.forward (.send _))) => false
  | _ => true

/-- The call holds a slot, and the client's handshake has not been received. -/
def ConnectPc.opening : ConnectPc → Bool
  | .allocating | .assigning | .recvHandshake => true
  | _ => false

/-- The cleanup of the call holds the mutex. -/
def RegisterPc.cleaning : RegisterPc → Bool
  | .closing _ | .cancelling _ _ => true
  | _ => false

namespace Net

/-- The streams after a step of the service. -/
def exchange (n : Net) : Act → Option (ℕ → ClientStream)
  | .connect i (.own ev) => ((n.stream i).next ev).map (Function.update n.stream i)
  | _ => some n.stream

def step (cfg : Config) (n : Net) : NetAct → Option Net
  | .arrive i result =>
    if h : recvFits result = true then
      some { n with stream := Function.update n.stream i ((n.stream i).arrive result h) }
    else none
  | .grant i result =>
    some { n with stream := Function.update n.stream i ((n.stream i).grant result) }
  | .relay a =>
    match n.exchange a, n.service.step cfg a with
    | some stream, some service => some ⟨service, stream⟩
    | _, _ => none

def machine (cfg : Config) : Machine Net NetAct where
  init := {}
  step := step cfg.withDefaults

/-- No peer does anything. -/
def Silent (_ : Net) : NetAct → Prop
  | .relay a => a.own = true
  | _ => False

/-- The call holds a slot of an agent, and no `Accept` call has made its session ready. -/
def Pairing (n : Net) (i : ℕ) : Prop :=
  (∃ a, (n.service.conn i).Holds a) ∧ (n.service.conn i).ready = false

/-- The call has returned and holds no slot. -/
def Released (n : Net) (i : ℕ) : Prop :=
  (n.service.conn i).pc.phase = .returned ∧ ∀ a, ¬ (n.service.conn i).Holds a

/-- With every peer silent, the relay's own steps, the expiry of `HandshakeTimeout` among them,
make the call return and release its slot. -/
def Deadline (cfg : Config) (n : Net) (i : ℕ) : Prop :=
  ∃ m, (machine cfg).ReachesVia Silent n m ∧ m.Released i

/-- The client has already done what the call waits for without a timer. -/
def attended (n : Net) (i : ℕ) : Bool := (n.stream i).attends (n.service.conn i).pc

/-- A slot is reserved only for a client that has already made room for `SessionAssigned` and sent
its handshake frame or its end, or whose stream is broken. -/
def Prompt (n : Net) : NetAct → Prop
  | .relay (.connect i .reserveAgent) => (n.stream i).attends .allocating = true
  | _ => True

instance (n : Net) (a : NetAct) : Decidable (n.Prompt a) := by
  unfold Prompt
  split <;> infer_instance

end Net

namespace ClientStream

variable {c c' : ClientStream}

theorem attends_of_not_opening {pc : ConnectPc} (h : pc.opening = false) :
    c.attends pc = true := by
  cases pc <;> first | rfl | contradiction

theorem attends_of_broken (h : c.broken = true) (pc : ConnectPc) : c.attends pc = true := by
  cases pc <;> simp [attends, h]

theorem attends_arrive {pc : ConnectPc} {result : Except Err ConnectRequest}
    {hfits : recvFits result = true} (h : c.attends pc = true) :
    (c.arrive result hfits).attends pc = true := by
  cases hwindow : c.window <;> cases pc <;> simp_all [attends, arrive]

theorem attends_grant {pc : ConnectPc} {result : Option Err} (h : c.attends pc = true) :
    (c.grant result).attends pc = true := by
  cases hwindow : c.window <;> cases pc <;> simp_all [attends, grant]

/-- `Recv` returns only to a call whose client has sent something or ended the stream. -/
theorem attends_of_recv {result : Except Err ConnectRequest} (h : c.recv result = some c') :
    c.attends .recvHandshake = true := by
  unfold recv at h
  split_ifs at h with hhead hbroken
  · cases hinbox : c.inbox with
    | nil => simp [hinbox] at hhead
    | cons _ _ => simp [attends, hinbox]
  · rw [Bool.and_eq_true] at hbroken
    exact attends_of_broken hbroken.1 _

/-- `Send` fails, or hands the call on to the wait for the second frame. -/
theorem attends_of_send {result : Option Err} (h : c.send result = some c') :
    c.attends .assigning = (result.isSome || c'.attends .recvHandshake) := by
  unfold send at h
  split_ifs at h with hhead hbroken
  · cases h
    cases result <;> simp [attends, hhead]
  · rw [Bool.and_eq_true] at hbroken
    rw [attends_of_broken hbroken.1, hbroken.2, Bool.true_or]

theorem recv_arrive {result : Except Err ConnectRequest} (hfits : recvFits result = true)
    (hinbox : c.inbox = []) : (c.arrive result hfits).recv result = some c := by
  obtain ⟨inbox, window, broken, fits⟩ := c
  subst hinbox
  simp [recv, arrive]

theorem send_grant (result : Option Err) (hwindow : c.window = []) :
    (c.grant result).send result = some c := by
  obtain ⟨inbox, window, broken, fits⟩ := c
  subst hwindow
  simp [send, grant]

theorem exists_recv (h : c.attends .recvHandshake = true) :
    ∃ result c', recvFits result = true ∧ c.recv result = some c' := by
  cases hinbox : c.inbox with
  | cons result rest =>
    exact ⟨result, _, c.fits result (by simp [hinbox]), if_pos (by simp [hinbox])⟩
  | nil =>
    have hbroken : c.broken = true := by simpa [attends, hinbox] using h
    refine ⟨.error .canceled, c, rfl, ?_⟩
    rw [recv, if_neg (by simp [hinbox]), if_pos (by simp [hbroken, Except.isOk, Except.toBool])]

theorem exists_send (h : c.attends .assigning = true) :
    ∃ result c', c.send result = some c' := by
  cases hwindow : c.window with
  | cons result rest =>
    exact ⟨result, _, if_pos (by simp [hwindow])⟩
  | nil =>
    have hbroken : c.broken = true := by simpa [attends, hwindow] using h
    refine ⟨some .canceled, c, ?_⟩
    rw [send, if_neg (by simp [hwindow]), if_pos (by simp [hbroken])]

end ClientStream

/-- What a call that waits for its client's handshake can do by itself. -/
inductive OpeningMove (c : ConnectCall) : ConnectLocal → ConnectCall → Prop
  | streamDone (e : CtxErr) (c' : ConnectCall) : c'.pc = c.pc → OpeningMove c (.streamDone e) c'
  | assigned (c' : ConnectCall) : c.pc = .assigning → c'.pc = .recvHandshake →
      OpeningMove c (.sendAssigned none) c'
  | sendFailed (e : Err) (c' : ConnectCall) : c.pc = .assigning → c'.pc.opening = false →
      OpeningMove c (.sendAssigned (some e)) c'
  | received (result : Except Err ConnectRequest) (c' : ConnectCall) : c.pc = .recvHandshake →
      c'.pc.opening = false → OpeningMove c (.recv result) c'

theorem handshakeCheck_cases (frame : ConnectRequest) :
    (∃ e, handshakeCheck frame = .cancelling (some e)) ∨
      ∃ clientHello, handshakeCheck frame = .inserting clientHello := by
  unfold handshakeCheck
  split
  · split_ifs
    · exact .inl ⟨_, rfl⟩
    · exact .inr ⟨_, rfl⟩
  · exact .inl ⟨_, rfl⟩

theorem handshakeCheck_not_opening (frame : ConnectRequest) :
    (handshakeCheck frame).opening = false := by
  rcases handshakeCheck_cases frame with ⟨e, hcheck⟩ | ⟨clientHello, hcheck⟩
  · rw [hcheck]
    rfl
  · rw [hcheck]
    rfl

theorem openingMove_of_next {c c' : ConnectCall} {offline : Bool} {ev : ConnectLocal}
    (h : c.next offline ev = some c') (hidle : c.fwd = {}) (hopening : c.pc.opening = true) :
    OpeningMove c ev c' := by
  cases ev with
  | streamDone e =>
    cases h
    exact .streamDone e _ rfl
  | sendAssigned result =>
    cases hpc : c.pc <;> simp only [ConnectCall.next, hpc, reduceCtorEq] at h
    cases result with
    | none =>
      cases h
      exact .assigned _ hpc rfl
    | some e =>
      cases h
      exact .sendFailed e _ hpc rfl
  | recv result =>
    cases hpc : c.pc <;> simp_all [ConnectCall.next, ConnectPc.opening]
    refine .received result c' hpc ?_
    cases result with
    | error e =>
      cases h.2
      rfl
    | ok frame =>
      cases h.2
      exact handshakeCheck_not_opening frame
  | forward ev => cases ev <;> simp [ConnectCall.next, hidle, Handler.step] at h
  | _ => cases hpc : c.pc <;> simp_all [ConnectCall.next, ConnectPc.opening]

theorem ConnectMove.not_opening {c c' : ConnectCall} {offline : Bool} {ev : ConnectLocal}
    (hmove : ConnectMove c offline ev c') (h : c.pc.opening = false) : c'.pc.opening = false := by
  cases hmove with
  | streamDone e => exact h
  | forward ev handler _ => exact h
  | assigned hpc => simp [hpc, ConnectPc.opening] at h
  | _ => rfl

theorem ConnectPc.unnotified_of_opening {pc : ConnectPc} (h : pc.opening = true) :
    pc.unnotified = true := by
  cases pc <;> first | rfl | contradiction

namespace Service

variable {cfg : Config} {s t : Service} {a : Act}

/-- How a step that is not the call's own changes its control point. -/
inductive PcStep (s : Service) (i : ℕ) : Act → ConnectCall → Prop
  | same (a : Act) (c : ConnectCall) : c.pc = (s.conn i).pc → PcStep s i a c
  | settled (a : Act) (c : ConnectCall) : (s.conn i).pc.opening = false → c.pc.opening = false →
      PcStep s i a c
  | reserved (c : ConnectCall) : (s.conn i).pc.opening = false → c.pc = .allocating →
      PcStep s i (.connect i .reserveAgent) c
  | randFailed (c : ConnectCall) : c.pc.opening = false →
      PcStep s i (.connect i (.randRead none)) c
  | drew (a : Act) (c : ConnectCall) : (s.conn i).pc = .allocating → c.pc = .assigning →
      PcStep s i a c

theorem PcStep.update {i : ℕ} {c : ConnectCall} (h : PcStep s i a c) (j : ℕ) :
    PcStep s j a (Function.update s.conn i c j) :=
  (Function.forall_update_iff s.conn (PcStep s · a)).mpr ⟨h, fun _ _ ↦ .same a _ rfl⟩ j

theorem Step.pcStep (h : Step cfg s a t) (i : ℕ) (hown : ∀ ev, a ≠ .connect i (.own ev)) :
    PcStep s i a (t.conn i) := by
  have hopening : ∀ {j : ℕ} {pc : ConnectPc}, (s.conn j).pc = pc → pc.opening = false →
      (s.conn j).pc.opening = false := fun hpc hfalse ↦ hpc ▸ hfalse
  cases h with
  | connectOwn j ev c _ =>
    have hne : i ≠ j := by
      rintro rfl
      exact hown ev rfl
    rw [setConn_conn, Function.update_of_ne hne]
    exact .same _ _ rfl
  | sessionCancelled r j _ _ _ _ => exact .same _ _ (proj_update ConnectCall.pc (by rfl) i)
  | reserveRefused j _ _ hpc => exact (PcStep.settled _ _ (hopening hpc rfl) rfl).update i
  | reserved j _ _ hpc _ _ _ => exact (PcStep.reserved _ (hopening hpc rfl) rfl).update i
  | randFailed j _ _ => exact (PcStep.randFailed _ rfl).update i
  | drew j _ hpc _ => exact (PcStep.drew _ _ hpc rfl).update i
  | inserted j _ hpc _ => exact (PcStep.settled _ _ (hopening hpc rfl) rfl).update i
  | deleted j _ hpc _ => exact (PcStep.settled _ _ (hopening hpc rfl) rfl).update i
  | released j _ _ hpc _ _ => exact (PcStep.settled _ _ (hopening hpc rfl) rfl).update i
  | notified j _ _ hpc _ _ => exact (PcStep.settled _ _ (hopening hpc rfl) rfl).update i
  | acceptCancelled _ j _ _ _ => exact .same _ _ (proj_update ConnectCall.pc (by rfl) i)
  | clientToAgent _ j _ _ _ _ => exact .same _ _ (proj_update ConnectCall.pc (by rfl) i)
  | agentToClient _ j _ _ _ _ => exact .same _ _ (proj_update ConnectCall.pc (by rfl) i)
  | found _ j _ _ _ =>
    simp only [setAcc_conn, makeReady]
    split_ifs
    · exact .same _ _ rfl
    · exact .same _ _ (proj_update ConnectCall.pc (by rfl) i)
  | _ => exact .same _ _ rfl

/-- The mutex is held only by a cleanup of `RegisterAgent` that has not finished. -/
def MutexInv (s : Service) : Prop := ∀ r, s.mu = some r → (s.reg r).pc.cleaning = true

theorem MutexInv.update (h : MutexInv s) {r : ℕ} {c : RegisterCall}
    (hc : (s.reg r).pc.cleaning = true → c.pc.cleaning = true) :
    ∀ q, s.mu = some q → (Function.update s.reg r c q).pc.cleaning = true :=
  (Function.forall_update_iff s.reg fun q c ↦ s.mu = some q → c.pc.cleaning = true).mpr
    ⟨fun hr ↦ hc (h r hr), fun q _ ↦ h q⟩

theorem Step.mutexInv (hstep : Step cfg s a t) (h : MutexInv s) : MutexInv t := by
  cases hstep with
  | registerOwn r ev c hmove =>
    refine h.update fun hcleaning ↦ ?_
    cases hmove with
    | streamDone e => exact hcleaning
    | _ => simp_all [RegisterPc.cleaning]
  | registerRefused r e hpc => exact h.update (by simp [hpc, RegisterPc.cleaning])
  | registered r hpc _ _ _ => exact h.update (by simp [hpc, RegisterPc.cleaning])
  | locked r result _ _ _ =>
    rintro q ⟨⟩
    simp [RegisterPc.cleaning]
  | lockedOther r result _ _ _ =>
    rintro q ⟨⟩
    simp [RegisterPc.cleaning]
  | doneClosed r result _ => exact h.update fun _ ↦ rfl
  | sessionCancelled r i result todo _ _ => exact h.update fun _ ↦ rfl
  | unlocked r result _ => exact nofun
  | reserved i b routeId _ _ _ _ => exact h.update id
  | released i b result _ _ _ => exact h.update id
  | notified i b clientHello _ _ hserving =>
    exact h.update (by simp [hserving, RegisterPc.cleaning])
  | found m i _ _ _ =>
    unfold makeReady
    split_ifs <;> exact h
  | _ => exact h

theorem mutexInv_of_reachable (h : (machine cfg).Reachable s) : MutexInv s := by
  refine Machine.invariant (I := MutexInv) (by nofun) ?_ h
  intro s a t _ hs hstep
  exact (step_of_step hstep).mutexInv hs

theorem step_unlock {r : ℕ} {result : Err} (hpc : (s.reg r).pc = .cancelling result []) :
    s.step cfg (.register r .unlock) =
      some { s.setReg r { s.reg r with pc := .returned result } with mu := none } := by
  simp [step, registerAgent, hpc]

theorem step_cancelSession {r i : ℕ} {result : Err} {todo : List ℕ}
    (hpc : (s.reg r).pc = .cancelling result todo) (hi : i ∈ todo) :
    s.step cfg (.register r (.cancelSession i)) = some ((s.cancelSession i).setReg r
      { s.reg r with pc := .cancelling result (todo.filter (· ≠ i)) }) := by
  simp [step, registerAgent, hpc, hi]

theorem step_closeDone {r : ℕ} {result : Err} (hpc : (s.reg r).pc = .closing result) :
    s.step cfg (.register r .closeDone) = some (s.setReg r { s.reg r with
      pc := .cancelling result (s.sessionsOf r), done := true }) := by
  simp [step, registerAgent, hpc]

theorem step_own {i : ℕ} {ev : ConnectLocal} {c : ConnectCall}
    (h : (s.conn i).next (s.offline i) ev = some c) :
    s.step cfg (.connect i (.own ev)) = some (s.setConn i c) := by
  rw [step, connect, h, Option.map_some]

theorem step_randRead {i : ℕ} {sid : Bytes} (hpc : (s.conn i).pc = .allocating)
    (hlength : sid.length = 16) :
    s.step cfg (.connect i (.randRead (some sid))) =
      some { s.setConn i { s.conn i with pc := .assigning, sid := sid } with
        drawn := s.drawn ++ [sid] } := by
  simp [step, connect, hpc, hlength]

theorem step_insertSession {i : ℕ} {clientHello : Bytes}
    (hpc : (s.conn i).pc = .inserting clientHello) (hmu : s.mu = none) :
    s.step cfg (.connect i .insertSession) =
      some { s.setConn i { s.conn i with
          pc := .notifying clientHello, inserted := (s.conn i).inserted + 1 } with
        sessions := s.sessions.insert (s.conn i).sid i } := by
  simp [step, connect, hpc, hmu]

theorem step_deleteSession {i : ℕ} {result : Option Err}
    (hpc : (s.conn i).pc = .deleting result) (hmu : s.mu = none) :
    s.step cfg (.connect i .deleteSession) =
      some { s.setConn i { s.conn i with
          pc := .cancelling result, deleted := (s.conn i).deleted + 1 } with
        sessions := s.sessions.erase (s.conn i).sid } := by
  simp [step, connect, hpc, hmu]

theorem step_releaseAgent {i b : ℕ} {result : Option Err}
    (hpc : (s.conn i).pc = .releasing result) (hagent : (s.conn i).agent = some b)
    (hmu : s.mu = none) :
    s.step cfg (.connect i .releaseAgent) = some ((s.releaseAgent b).setConn i
      { s.conn i with pc := .returned result, released := (s.conn i).released + 1 }) := by
  simp [step, connect, hpc, hagent, hmu]

end Service

namespace Net

variable {cfg : Config} {n m : Net} {a : Act} {i : ℕ}

theorem step_relay_eq_some :
    n.step cfg (.relay a) = some m ↔
      n.exchange a = some m.stream ∧ n.service.step cfg a = some m.service := by
  cases hex : n.exchange a <;> cases hstep : n.service.step cfg a <;>
    simp [step, hex, hstep, Net.ext_iff, and_comm]

theorem exchange_of_not_own (hown : ∀ ev, a ≠ .connect i (.own ev))
    (h : n.exchange a = some m.stream) : m.stream i = n.stream i := by
  unfold exchange at h
  split at h
  · rename_i j ev
    obtain ⟨c, _, heq⟩ := Option.map_eq_some_iff.mp h
    have hne : i ≠ j := by
      rintro rfl
      exact hown ev rfl
    rw [← heq, Function.update_of_ne hne]
  · rw [Option.some.inj h]

/-- The service of a reachable state is reachable. -/
theorem reachable_service (h : (machine cfg).Reachable n) :
    (Service.machine cfg).Reachable n.service := by
  refine Machine.reachable_of_refines Net.service rfl ?_ h
  intro n a m _ hstep
  cases a with
  | relay a =>
    exact (Machine.Reaches.refl _).tail (step_relay_eq_some.mp hstep).2
  | arrive i result =>
    obtain ⟨_, hm⟩ := Option.dite_none_right_eq_some.mp hstep
    cases hm
    exact .refl _
  | grant i result =>
    cases hstep
    exact .refl _

/-- The clients have done nothing that the relay has not seen. -/
def Drained (n : Net) : Prop := ∀ i, (n.stream i).inbox = [] ∧ (n.stream i).window = []

theorem Drained.update {c : ClientStream} (h : n.Drained) (hc : c.inbox = [] ∧ c.window = [])
    {service : Service} : Drained ⟨service, Function.update n.stream i c⟩ :=
  (Function.forall_update_iff n.stream fun _ c ↦ c.inbox = [] ∧ c.window = []).mpr
    ⟨hc, fun j _ ↦ h j⟩

theorem reachable_own {ev : ConnectLocal} {s : Service} {c : ClientStream}
    (h : (machine cfg).Reachable n) (hnext : (n.stream i).next ev = some c)
    (hstep : n.service.step cfg.withDefaults (.connect i (.own ev)) = some s) :
    (machine cfg).Reachable ⟨s, Function.update n.stream i c⟩ := by
  refine h.tail (a := .relay (.connect i (.own ev))) (step_relay_eq_some.mpr ⟨?_, hstep⟩)
  rw [exchange, hnext, Option.map_some]

/-- The client sends the frame that a step of its call receives, just before the step. -/
theorem exists_step_recv {ev : ConnectLocal} {s : Service} {result : Except Err ConnectRequest}
    (h : (machine cfg).Reachable n) (hdrained : n.Drained) (hfits : recvFits result = true)
    (hev : ∀ c : ClientStream, c.next ev = c.recv result)
    (hstep : n.service.step cfg.withDefaults (.connect i (.own ev)) = some s) :
    ∃ m, (machine cfg).Reachable m ∧ m.service = s ∧ m.Drained := by
  have harrive : (machine cfg).step n (.arrive i result) = some _ := dif_pos hfits
  refine ⟨_, reachable_own (c := n.stream i) (h.tail harrive) ?_ hstep, rfl, ?_⟩
  · rw [hev]
    simpa using ClientStream.recv_arrive hfits (hdrained i).1
  · rw [Function.update_idem]
    exact hdrained.update (hdrained i)

/-- The client makes room for the frame that a step of its call sends, just before the step. -/
theorem exists_step_send {ev : ConnectLocal} {s : Service} {result : Option Err}
    (h : (machine cfg).Reachable n) (hdrained : n.Drained)
    (hev : ∀ c : ClientStream, c.next ev = c.send result)
    (hstep : n.service.step cfg.withDefaults (.connect i (.own ev)) = some s) :
    ∃ m, (machine cfg).Reachable m ∧ m.service = s ∧ m.Drained := by
  have hgrant : (machine cfg).step n (.grant i result) = some _ := rfl
  refine ⟨_, reachable_own (c := n.stream i) (h.tail hgrant) ?_ hstep, rfl, ?_⟩
  · rw [hev]
    simpa using ClientStream.send_grant result (hdrained i).2
  · rw [Function.update_idem]
    exact hdrained.update (hdrained i)

theorem exists_step_own {ev : ConnectLocal} {s : Service} (h : (machine cfg).Reachable n)
    (hdrained : n.Drained)
    (hstep : n.service.step cfg.withDefaults (.connect i (.own ev)) = some s) :
    ∃ m, (machine cfg).Reachable m ∧ m.service = s ∧ m.Drained := by
  have hother : ∀ {c : ClientStream}, (n.stream i).next ev = some c →
      c.inbox = (n.stream i).inbox → c.window = (n.stream i).window →
      ∃ m, (machine cfg).Reachable m ∧ m.service = s ∧ m.Drained := by
    intro c hnext hinbox hwindow
    refine ⟨_, reachable_own h hnext hstep, rfl, hdrained.update ?_⟩
    rw [hinbox, hwindow]
    exact hdrained i
  obtain ⟨d, hd, _⟩ := Option.map_eq_some_iff.mp hstep
  cases ev with
  | recv result =>
    refine exists_step_recv h hdrained ?_ (fun _ ↦ rfl) hstep
    by_contra hfits
    simp [ConnectCall.next, hfits] at hd
  | sendAssigned result => exact exists_step_send h hdrained (fun _ ↦ rfl) hstep
  | sendAccept result => exact exists_step_send h hdrained (fun _ ↦ rfl) hstep
  | forward ev =>
    cases ev with
    | recv result =>
      refine exists_step_recv h hdrained ?_ (fun _ ↦ rfl) hstep
      by_contra hfits
      simp [ConnectCall.next, forwardFits, hfits] at hd
    | send result => exact exists_step_send h hdrained (fun _ ↦ rfl) hstep
    | _ => exact hother rfl rfl rfl
  | _ => exact hother rfl rfl rfl

/-- The clients' streams restrict no run of the service. -/
theorem exists_reachable {s : Service} (h : (Service.machine cfg).Reachable s) :
    ∃ n, (machine cfg).Reachable n ∧ n.service = s := by
  have hdrained : ∃ n, (machine cfg).Reachable n ∧ n.service = s ∧ n.Drained := by
    refine Machine.invariant
      (I := fun s ↦ ∃ n, (machine cfg).Reachable n ∧ n.service = s ∧ n.Drained) ?_ ?_ h
    · exact ⟨{}, Machine.Reachable.init, rfl, fun _ ↦ ⟨rfl, rfl⟩⟩
    · rintro _ a t _ ⟨n, hn, rfl, hdrained⟩ hstep
      by_cases hown : ∃ i ev, a = .connect i (.own ev)
      · obtain ⟨i, ev, rfl⟩ := hown
        exact exists_step_own hn hdrained hstep
      · have hex : n.exchange a = some n.stream := by
          unfold exchange
          split
          · exact absurd ⟨_, _, rfl⟩ hown
          · rfl
        have hrelay : (machine cfg).step n (.relay a) = some ⟨t, n.stream⟩ :=
          step_relay_eq_some.mpr ⟨hex, hstep⟩
        exact ⟨_, hn.tail hrelay, rfl, hdrained⟩
  obtain ⟨n, hn, hservice, _⟩ := hdrained
  exact ⟨n, hn, hservice⟩

theorem idle_of_opening (h : (machine cfg).Reachable n)
    (hopening : (n.service.conn i).pc.opening = true) : (n.service.conn i).fwd = {} := by
  have hstream := Service.connStream_of_reachable (reachable_service h) i
  exact hstream.idle (hstream.greeting_lt (ConnectPc.unnotified_of_opening hopening))

/-- The call's own steps do not leave it waiting for more than it waited for before. -/
theorem attended_own {ev : ConnectLocal} (h : (machine cfg).Reachable n)
    (hstep : n.step cfg.withDefaults (.relay (.connect i (.own ev))) = some m) :
    m.attended i = n.attended i ∨ m.attended i = true ∧ ∃ e, ev = .streamDone e := by
  obtain ⟨hex, hservice⟩ := step_relay_eq_some.mp hstep
  obtain ⟨c, hc, hstream⟩ := Option.map_eq_some_iff.mp hex
  obtain ⟨d, hd, hconn⟩ := Option.map_eq_some_iff.mp hservice
  have hm : m.attended i = c.attends d.pc := by
    rw [attended, ← hstream, ← hconn]
    simp
  rw [hm]
  cases hopening : (n.service.conn i).pc.opening with
  | false =>
    left
    rw [attended, ClientStream.attends_of_not_opening hopening]
    exact ClientStream.attends_of_not_opening ((connectMove_of_next hd).not_opening hopening)
  | true =>
    cases openingMove_of_next hd (idle_of_opening h hopening) hopening with
    | streamDone e _ _ =>
      cases hc
      exact .inr ⟨ClientStream.attends_of_broken rfl _, e, rfl⟩
    | assigned _ hpc hpc' =>
      left
      rw [attended, hpc, hpc', ClientStream.attends_of_send hc]
      rfl
    | sendFailed e _ hpc hpc' =>
      left
      rw [attended, hpc, ClientStream.attends_of_send hc]
      exact ClientStream.attends_of_not_opening hpc'
    | received result _ hpc hpc' =>
      left
      rw [attended, hpc, ClientStream.attends_of_recv hc]
      exact ClientStream.attends_of_not_opening hpc'

theorem attended_relay (h : (machine cfg).Reachable n)
    (hstep : n.step cfg.withDefaults (.relay a) = some m) (i : ℕ) :
    m.attended i = n.attended i ∨ (m.attended i = true ∧ a.own = false) ∨
      (a = .connect i .reserveAgent ∧ n.attended i = true ∧
        m.attended i = (n.stream i).attends .allocating) := by
  by_cases hown : ∃ ev, a = .connect i (.own ev)
  · obtain ⟨ev, rfl⟩ := hown
    rcases attended_own h hstep with hsame | ⟨htrue, e, rfl⟩
    · exact .inl hsame
    · exact .inr (.inl ⟨htrue, rfl⟩)
  · obtain ⟨hex, hservice⟩ := step_relay_eq_some.mp hstep
    have hown : ∀ ev, a ≠ .connect i (.own ev) := fun ev heq ↦ hown ⟨ev, heq⟩
    have hstream := exchange_of_not_own hown hex
    unfold attended
    rw [hstream]
    cases (Service.step_of_step hservice).pcStep i hown with
    | same _ _ hpc => exact .inl (by rw [hpc])
    | settled _ _ hpc hpc' =>
      left
      rw [ClientStream.attends_of_not_opening hpc, ClientStream.attends_of_not_opening hpc']
    | reserved _ hpc hpc' =>
      exact .inr (.inr ⟨rfl, ClientStream.attends_of_not_opening hpc, by rw [hpc']⟩)
    | randFailed _ hpc' => exact .inr (.inl ⟨ClientStream.attends_of_not_opening hpc', rfl⟩)
    | drew _ _ hpc hpc' =>
      left
      rw [hpc, hpc']
      rfl

/-- While every peer is silent, a call that waits for its client goes on waiting. -/
theorem unattended_silent {a : NetAct} (h : (machine cfg).Reachable n) (hsilent : n.Silent a)
    (hstep : (machine cfg).step n a = some m) (hn : n.attended i = false) :
    m.attended i = false := by
  cases a with
  | arrive j result => exact hsilent.elim
  | grant j result => exact hsilent.elim
  | relay a =>
    rcases attended_relay h hstep i with hsame | ⟨_, hother⟩ | ⟨_, htrue, _⟩
    · rw [hsame, hn]
    · exact absurd (hother.symm.trans hsilent) (by simp)
    · exact absurd (htrue.symm.trans hn) (by simp)

theorem attended_of_released (h : n.Released i) : n.attended i = true := by
  refine ClientStream.attends_of_not_opening ?_
  have hphase := h.1
  cases hpc : (n.service.conn i).pc <;> simp_all [ConnectPc.phase, ConnectPc.opening]

/-- Without the client's next step there is no deadline. -/
theorem Deadline.attended (h : (machine cfg).Reachable n) (hdeadline : Deadline cfg n i) :
    n.attended i = true := by
  obtain ⟨m, hreach, hreleased⟩ := hdeadline
  by_contra hnot
  have hn : n.attended i = false := by simpa using hnot
  have hboth : (machine cfg).Reachable m ∧ m.attended i = false := by
    refine Machine.ReachesVia.preserve
      (I := fun m ↦ (machine cfg).Reachable m ∧ m.attended i = false) ?_ hreach ⟨h, hn⟩
    intro n a m hn hsilent hstep
    exact ⟨hn.1.tail hstep, unattended_silent hn.1 hsilent hstep hn.2⟩
  exact absurd (attended_of_released hreleased) (by simp [hboth.2])

theorem attended_update {c : ClientStream} (hc : c.attends (n.service.conn i).pc = true)
    (h : ∀ j, n.attended j = true) :
    ∀ j, attended ⟨n.service, Function.update n.stream i c⟩ j = true :=
  (Function.forall_update_iff n.stream fun j c ↦ c.attends (n.service.conn j).pc = true).mpr
    ⟨hc, fun j _ ↦ h j⟩

/-- A run in which slots are reserved only for prompt clients leaves no call waiting for one. -/
theorem attended_of_prompt (h : (machine cfg).ReachableVia Prompt n) (i : ℕ) :
    n.attended i = true := by
  refine Machine.invariant_via (I := fun n : Net ↦ ∀ i, n.attended i = true) ?_ ?_ h i
  · exact fun _ ↦ rfl
  · intro n a m hr hn hprompt hstep i
    cases a with
    | arrive j result =>
      obtain ⟨hfits, hm⟩ := Option.dite_none_right_eq_some.mp hstep
      cases hm
      exact attended_update (ClientStream.attends_arrive (hn j)) hn i
    | grant j result =>
      cases hstep
      exact attended_update (ClientStream.attends_grant (hn j)) hn i
    | relay a =>
      rcases attended_relay hr.reachable hstep i with hsame | ⟨htrue, _⟩ | ⟨rfl, _, hreserved⟩
      · rw [hsame, hn i]
      · exact htrue
      · rw [hreserved]
        exact hprompt

/-- A step of the relay by itself leads to a state with a deadline. -/
theorem Deadline.head {service : Service} {stream : ℕ → ClientStream} (hown : a.own = true)
    (hex : n.exchange a = some stream)
    (hstep : n.service.step cfg.withDefaults a = some service)
    (h : Deadline cfg ⟨service, stream⟩ i) : Deadline cfg n i := by
  obtain ⟨m, hreach, hreleased⟩ := h
  have hsilent : n.Silent (.relay a) := hown
  exact ⟨m, hreach.head hsilent (step_relay_eq_some.mpr ⟨hex, hstep⟩), hreleased⟩

/-- The call itself takes a step, with what its client has already done. -/
theorem Deadline.own {ev : ConnectLocal} {c c' : ConnectCall} {stream : ClientStream}
    (hown : (Act.connect i (.own ev)).own = true) (hconn : n.service.conn i = c)
    (hnext : c.next (n.service.offline i) ev = some c')
    (hstream : (n.stream i).next ev = some stream)
    (h : Deadline cfg ⟨n.service.setConn i c', Function.update n.stream i stream⟩ i) :
    Deadline cfg n i := by
  subst hconn
  refine Deadline.head hown ?_ (Service.step_own hnext) h
  rw [exchange, hstream, Option.map_some]

/-- The mutex is free, and the call and its stream are as in `n`. -/
structure Unlocked (n m : Net) (i : ℕ) : Prop where
  mu : m.service.mu = none
  stream : m.stream = n.stream
  pc : (m.service.conn i).pc = (n.service.conn i).pc
  agent : (m.service.conn i).agent = (n.service.conn i).agent

/-- The cleanup that holds the mutex cancels the sessions it has found and unlocks. -/
theorem deadline_of_cleanup {r : ℕ} {c : RegisterCall} {result : Err} {todo : List ℕ}
    (hreg : n.service.reg r = c) (hpc : c.pc = .cancelling result todo)
    (h : ∀ m, Unlocked n m i → Deadline cfg m i) : Deadline cfg n i := by
  induction hk : todo.length using Nat.strong_induction_on generalizing n c todo with
  | _ k ih =>
    subst hreg
    cases todo with
    | nil => exact Deadline.head rfl rfl (Service.step_unlock hpc) (h _ ⟨rfl, rfl, rfl, rfl⟩)
    | cons j rest =>
      refine Deadline.head rfl rfl (Service.step_cancelSession hpc List.mem_cons_self) ?_
      refine ih _ ?_ (Function.update_self r _ _) rfl (fun m hm ↦ h m ?_) rfl
      · rw [← hk, List.filter_cons_of_neg (by simp)]
        exact Nat.lt_succ_of_le (List.length_filter_le _ rest)
      · refine ⟨hm.mu, hm.stream, hm.pc.trans ?_, hm.agent.trans ?_⟩
        · exact proj_update ConnectCall.pc (by rfl) i
        · exact proj_update ConnectCall.agent (by rfl) i

/-- The relay alone frees the mutex. -/
theorem deadline_of_unlocked (hmutex : n.service.MutexInv)
    (h : ∀ m, Unlocked n m i → Deadline cfg m i) : Deadline cfg n i := by
  cases hmu : n.service.mu with
  | none => exact h n ⟨hmu, rfl, rfl, rfl⟩
  | some r =>
    have hcleaning := hmutex r hmu
    cases hpc : (n.service.reg r).pc with
    | closing result =>
      refine Deadline.head rfl rfl (Service.step_closeDone hpc) ?_
      exact deadline_of_cleanup (Function.update_self r _ _) rfl
        fun m hm ↦ h m ⟨hm.mu, hm.stream, hm.pc, hm.agent⟩
    | cancelling result todo => exact deadline_of_cleanup rfl hpc h
    | _ => simp [hpc, RegisterPc.cleaning] at hcleaning

section Unwinding

variable {c : ConnectCall} {b : ℕ} {result : Option Err} {clientHello : Bytes}

theorem deadline_of_releasing (hmu : n.service.mu = none) (hconn : n.service.conn i = c)
    (hagent : c.agent = some b) (hpc : c.pc = .releasing result) : Deadline cfg n i := by
  subst hconn
  refine Deadline.head rfl rfl (Service.step_releaseAgent hpc hagent hmu) ⟨_, .refl, ?_⟩
  simp [Released, ConnectPc.phase, ConnectCall.Holds]

theorem deadline_of_cancelling (hmu : n.service.mu = none) (hconn : n.service.conn i = c)
    (hagent : c.agent = some b) (hpc : c.pc = .cancelling result) : Deadline cfg n i := by
  have hnext : c.next (n.service.offline i) .cancel =
      some { c with pc := .releasing result, ctx := c.ctx <|> some .canceled } := by
    simp [ConnectCall.next, hpc]
  refine Deadline.own rfl hconn hnext rfl ?_
  exact deadline_of_releasing hmu (Function.update_self i _ _) hagent rfl

theorem deadline_of_deleting (hmu : n.service.mu = none) (hconn : n.service.conn i = c)
    (hagent : c.agent = some b) (hpc : c.pc = .deleting result) : Deadline cfg n i := by
  subst hconn
  refine Deadline.head rfl rfl (Service.step_deleteSession hpc hmu) ?_
  exact deadline_of_cancelling hmu (Function.update_self i _ _) hagent rfl

/-- `time.After(s.cfg.HandshakeTimeout)` in the `select` on `a.incoming`. -/
theorem deadline_of_notifying (hmu : n.service.mu = none) (hconn : n.service.conn i = c)
    (hagent : c.agent = some b) (hpc : c.pc = .notifying clientHello) : Deadline cfg n i := by
  have hnext : c.next (n.service.offline i) .timeout = some { c with
      pc := .deleting (some (.status .deadlineExceeded "agent notification timed out")) } := by
    simp [ConnectCall.next, hpc]
  refine Deadline.own rfl hconn hnext rfl ?_
  exact deadline_of_deleting hmu (Function.update_self i _ _) hagent rfl

/-- `timer.C` in the `select` on `sess.ready`. -/
theorem deadline_of_awaitReady (hmu : n.service.mu = none) (hconn : n.service.conn i = c)
    (hagent : c.agent = some b) (hpc : c.pc = .awaitReady) : Deadline cfg n i := by
  have hnext : c.next (n.service.offline i) .timeout = some { c with
      pc := .deleting (some (.status .deadlineExceeded "agent handshake timed out")) } := by
    simp [ConnectCall.next, hpc]
  refine Deadline.own rfl hconn hnext rfl ?_
  exact deadline_of_deleting hmu (Function.update_self i _ _) hagent rfl

theorem deadline_of_inserting (hmu : n.service.mu = none) (hconn : n.service.conn i = c)
    (hagent : c.agent = some b) (hpc : c.pc = .inserting clientHello) : Deadline cfg n i := by
  subst hconn
  refine Deadline.head rfl rfl (Service.step_insertSession hpc hmu) ?_
  exact deadline_of_notifying hmu (Function.update_self i _ _) hagent rfl

/-- The client's second frame, or the end of its stream, is there. -/
theorem deadline_of_recvHandshake (hmu : n.service.mu = none) (hconn : n.service.conn i = c)
    (hagent : c.agent = some b) (hpc : c.pc = .recvHandshake)
    (hattends : (n.stream i).attends .recvHandshake = true) : Deadline cfg n i := by
  obtain ⟨result, stream, hfits, hrecv⟩ := ClientStream.exists_recv hattends
  cases result with
  | error e =>
    have hnext : c.next (n.service.offline i) (.recv (.error e)) =
        some { c with pc := .cancelling (some e) } := by
      simp [ConnectCall.next, hpc, hfits]
    refine Deadline.own rfl hconn hnext hrecv ?_
    exact deadline_of_cancelling hmu (Function.update_self i _ _) hagent rfl
  | ok frame =>
    have hnext : c.next (n.service.offline i) (.recv (.ok frame)) =
        some { c with pc := handshakeCheck frame } := by
      simp [ConnectCall.next, hpc, hfits]
    refine Deadline.own rfl hconn hnext hrecv ?_
    rcases handshakeCheck_cases frame with ⟨e, hcheck⟩ | ⟨clientHello, hcheck⟩
    · exact deadline_of_cancelling hmu (Function.update_self i _ _) hagent hcheck
    · exact deadline_of_inserting hmu (Function.update_self i _ _) hagent hcheck

theorem deadline_of_assigning (hmu : n.service.mu = none) (hconn : n.service.conn i = c)
    (hagent : c.agent = some b) (hpc : c.pc = .assigning)
    (hattends : (n.stream i).attends .assigning = true) : Deadline cfg n i := by
  obtain ⟨result, stream, hsend⟩ := ClientStream.exists_send hattends
  rw [ClientStream.attends_of_send hsend] at hattends
  cases result with
  | some e =>
    have hnext : c.next (n.service.offline i) (.sendAssigned (some e)) =
        some { c with pc := .cancelling (some e) } := by
      simp [ConnectCall.next, hpc]
    refine Deadline.own rfl hconn hnext hsend ?_
    exact deadline_of_cancelling hmu (Function.update_self i _ _) hagent rfl
  | none =>
    have hnext : c.next (n.service.offline i) (.sendAssigned none) =
        some { c with
          pc := .recvHandshake
          greeting := c.greeting ++ [.sessionAssigned c.sid] } := by
      simp [ConnectCall.next, hpc]
    refine Deadline.own rfl hconn hnext hsend ?_
    refine deadline_of_recvHandshake hmu (Function.update_self i _ _) hagent rfl ?_
    simpa using hattends

theorem deadline_of_allocating (hmu : n.service.mu = none) (hconn : n.service.conn i = c)
    (hagent : c.agent = some b) (hpc : c.pc = .allocating)
    (hattends : (n.stream i).attends .allocating = true) : Deadline cfg n i := by
  subst hconn
  have hlength : (List.replicate 16 (0 : UInt8)).length = 16 := List.length_replicate
  refine Deadline.head rfl rfl (Service.step_randRead hpc hlength) ?_
  exact deadline_of_assigning hmu (Function.update_self i _ _) hagent rfl hattends

end Unwinding

/-- A call that has a slot and no ready session has a deadline, unless it waits for its client. -/
theorem deadline_of_attended (h : (machine cfg).Reachable n) (hpairing : n.Pairing i)
    (hattended : n.attended i = true) : Deadline cfg n i := by
  have hservice := reachable_service h
  obtain ⟨⟨b, hagent, hreleased⟩, hready⟩ := hpairing
  have hinv := Service.connInv_of_reachable hservice i
  have hstream := Service.connStream_of_reachable hservice i
  refine deadline_of_unlocked (Service.mutexInv_of_reachable hservice) fun m hm ↦ ?_
  have hagent' := hm.agent.trans hagent
  rw [attended, ← hm.stream] at hattended
  unfold ConnectCall.Inv at hinv
  cases hpc : (n.service.conn i).pc with
  | allocating =>
    rw [hpc] at hattended
    exact deadline_of_allocating hm.mu rfl hagent' (hm.pc.trans hpc) hattended
  | assigning =>
    rw [hpc] at hattended
    exact deadline_of_assigning hm.mu rfl hagent' (hm.pc.trans hpc) hattended
  | recvHandshake =>
    rw [hpc] at hattended
    exact deadline_of_recvHandshake hm.mu rfl hagent' (hm.pc.trans hpc) hattended
  | inserting _ => exact deadline_of_inserting hm.mu rfl hagent' (hm.pc.trans hpc)
  | notifying _ => exact deadline_of_notifying hm.mu rfl hagent' (hm.pc.trans hpc)
  | awaitReady => exact deadline_of_awaitReady hm.mu rfl hagent' (hm.pc.trans hpc)
  | deleting _ => exact deadline_of_deleting hm.mu rfl hagent' (hm.pc.trans hpc)
  | cancelling _ => exact deadline_of_cancelling hm.mu rfl hagent' (hm.pc.trans hpc)
  | releasing _ => exact deadline_of_releasing hm.mu rfl hagent' (hm.pc.trans hpc)
  | accepting => exact absurd (hstream.ready (.inl hpc)) (by simp [hready])
  | forwarding =>
    have hgreeting := hstream.greeted 2 (by rw [hpc]; rfl)
    exact absurd (hstream.ready (.inr (by simp [hgreeting, ConnectCall.preamble])))
      (by simp [hready])
  | idle => simp [hpc, ConnectPc.phase, hagent] at hinv
  | recvOpen => simp [hpc, ConnectPc.phase, hagent] at hinv
  | reserving _ => simp [hpc, ConnectPc.phase, hagent] at hinv
  | returned _ => simp [hpc, ConnectPc.phase, hagent, hreleased] at hinv

/-- Every reserved slot whose session is not ready has a deadline, except one whose call still waits
for its client's second frame, or for room to send `SessionAssigned`, while the client does
nothing. Where slots are reserved only for clients that have already sent that frame, every such
slot has a deadline. -/
theorem slot_deadline (cfg : Config) (n : Net) (i : ℕ) (hpairing : n.Pairing i) :
    ((machine cfg).Reachable n → (Deadline cfg n i ↔ n.attended i = true)) ∧
    ((machine cfg).ReachableVia Prompt n → Deadline cfg n i) := by
  refine ⟨fun h ↦ ⟨fun hdeadline ↦ hdeadline.attended h, deadline_of_attended h hpairing⟩, ?_⟩
  intro h
  exact deadline_of_attended h.reachable hpairing (attended_of_prompt h i)

/-- A client that sends both its frames at once, up to the notification of the agent. -/
def samplePrompt : List NetAct :=
  [.relay (.register 0 (.own (.call ⟨1, sampleRoute⟩))), .relay (.register 0 .register),
    .relay (.connect 0 (.own .call)), .arrive 0 (.ok (.clientOpen 1 sampleRoute)),
    .arrive 0 (.ok (.clientHandshake [1, 2, 3])), .grant 0 none,
    .relay (.connect 0 (.own (.recv (.ok (.clientOpen 1 sampleRoute))))),
    .relay (.connect 0 .reserveAgent), .relay (.connect 0 (.randRead (some sampleSid))),
    .relay (.connect 0 (.own (.sendAssigned none))),
    .relay (.connect 0 (.own (.recv (.ok (.clientHandshake [1, 2, 3]))))),
    .relay (.connect 0 .insertSession)]

theorem slot_deadline_samplePrompt :
    ∃ n, (machine sampleConfig).ReachableVia Prompt n ∧ n.Pairing 0 ∧
      (n.service.conn 0).pc = .notifying [1, 2, 3] ∧ n.attended 0 = true ∧
      Deadline sampleConfig n 0 := by
  obtain ⟨n, hexec, hagent, hreleased, hready, hpc⟩ :=
    Machine.exists_of_exec (M := (machine sampleConfig).restrict Prompt) (s := {}) samplePrompt
      (fun n ↦ (n.service.conn 0).agent = some 0 ∧ (n.service.conn 0).released = 0 ∧
        (n.service.conn 0).ready = false ∧ (n.service.conn 0).pc = .notifying [1, 2, 3])
      (by decide +kernel)
  have hvia : (machine sampleConfig).ReachableVia Prompt n :=
    (Machine.reaches_of_exec samplePrompt hexec).of_restrict
  have hpairing : n.Pairing 0 := ⟨⟨0, hagent, hreleased⟩, hready⟩
  obtain ⟨hiff, hprompt⟩ := slot_deadline sampleConfig n 0 hpairing
  exact ⟨n, hvia, hpairing, hpc, (hiff hvia.reachable).mp (hprompt hvia), hprompt hvia⟩

/-- One slot for each agent. -/
def narrowConfig : Config := ⟨0, 1, 0⟩

/-- The first client opens and then says nothing; a second one asks for the same route. -/
def sampleSilence : List NetAct :=
  [.relay (.register 0 (.own (.call ⟨1, sampleRoute⟩))), .relay (.register 0 .register),
    .relay (.connect 0 (.own .call)), .arrive 0 (.ok (.clientOpen 1 sampleRoute)), .grant 0 none,
    .relay (.connect 0 (.own (.recv (.ok (.clientOpen 1 sampleRoute))))),
    .relay (.connect 0 .reserveAgent), .relay (.connect 0 (.randRead (some sampleSid))),
    .relay (.connect 0 (.own (.sendAssigned none))), .relay (.connect 1 (.own .call)),
    .arrive 1 (.ok (.clientOpen 1 sampleRoute)),
    .relay (.connect 1 (.own (.recv (.ok (.clientOpen 1 sampleRoute))))),
    .relay (.connect 1 .reserveAgent)]

/-- The silent client keeps the agent's only slot: no timer runs, nothing that the relay does by
itself ends the call, and the second client is refused. -/
theorem slot_held_without_deadline :
    ∃ n, (machine narrowConfig).Reachable n ∧ n.Pairing 0 ∧
      (n.service.conn 0).pc = .recvHandshake ∧
      (n.service.conn 0).next (n.service.offline 0) .timeout = none ∧
      (n.service.conn 1).pc =
        .returned (some (.status .resourceExhausted "route tunnel capacity reached")) ∧
      ¬ Deadline narrowConfig n 0 := by
  obtain ⟨n, hexec, hagent, hreleased, hready, hpc, htimeout, hrefused, hattended⟩ :=
    Machine.exists_of_exec (M := machine narrowConfig) (s := {}) sampleSilence
      (fun n ↦ (n.service.conn 0).agent = some 0 ∧ (n.service.conn 0).released = 0 ∧
        (n.service.conn 0).ready = false ∧ (n.service.conn 0).pc = .recvHandshake ∧
        (n.service.conn 0).next (n.service.offline 0) .timeout = none ∧
        (n.service.conn 1).pc =
          .returned (some (.status .resourceExhausted "route tunnel capacity reached")) ∧
        n.attended 0 = false)
      (by decide +kernel)
  have hreach : (machine narrowConfig).Reachable n := Machine.reaches_of_exec sampleSilence hexec
  refine ⟨n, hreach, ⟨⟨0, hagent, hreleased⟩, hready⟩, hpc, htimeout, hrefused, ?_⟩
  intro hdeadline
  exact absurd (hdeadline.attended hreach) (by simp [hattended])

end Net

end RelayCat.Relay
