import RelayCat.Relay.Registry

/-!
# What one client can do to the others

The client's hello is wrapped into a notification with two more fields and sent on the agent's
registration stream, where an error of `Send` ends the registration and cancels every session of
the agent. The notification is 16 bytes longer than the frame the hello came in, so a hello
between 131049 and 131064 bytes passes the receive limit and exceeds the send limit. Up to 131048
bytes no step of one client's stream reaches beyond its own session.
-/

namespace RelayCat.Relay

open Go Wire Automaton Protobuf

/-- The longest hello whose notification is within the send limit. -/
def maxClientHello : ℕ := 131048

/-- The encoded sizes of a long hello, as received and as sent on. -/
theorem handshake_length {clientHello : Bytes} (hlow : 16384 ≤ clientHello.length)
    (hhigh : clientHello.length < 2097148) :
    (ConnectRequest.clientHandshake clientHello).marshal.length = clientHello.length + 8 := by
  have hne : clientHello ≠ [] := by
    rintro rfl
    simp at hlow
  have hinner : (bytesField 1 clientHello).length = clientHello.length + 4 := by
    rw [bytesField_length 1 hne, varint_length_three hlow (by omega), key, varint_length_one]
    · omega
    · decide
  rw [ConnectRequest.marshal, delimited_length, hinner, varint_length_three (by omega) (by omega),
    key, varint_length_one]
  · omega
  · decide

theorem notification_length {c : ConnectCall} {clientHello : Bytes} (hsid : c.sid.length = 16)
    (hlow : 16384 ≤ clientHello.length) (hhigh : clientHello.length < 2097152) :
    (Service.notification c clientHello).marshal.length = clientHello.length + 24 := by
  have hne : clientHello ≠ [] := by
    rintro rfl
    simp at hlow
  have hsidNe : c.sid ≠ [] := by
    intro hnil
    simp [hnil] at hsid
  simp only [Service.notification, RegisterAgentResponse.marshal, List.length_append]
  rw [bytesField_length 2 hsidNe, bytesField_length 3 hne, hsid, varint_length_three hlow hhigh]
  simp only [key, varint_length_one (show 8 * 2 + 2 < 128 by decide),
    varint_length_one (show 8 * 3 + 2 < 128 by decide), varint_length_one (show 16 < 128 by decide)]
  have huint : (uintField 1 protocolVersion).length = 2 := by decide
  omega

/-- The notification of a hello within the bound is within the send limit. -/
theorem notification_fits {c : ConnectCall} {clientHello : Bytes} (hsid : c.sid.length ≤ 16)
    (hhello : clientHello.length ≤ maxClientHello) :
    (Service.notification c clientHello).marshal.length ≤ maxMsgSize := by
  have hsidField := bytesField_length_le 2 hsid
  have hhelloField := bytesField_length_le 3 hhello
  simp only [key, varint_length_one (show 8 * 2 + 2 < 128 by decide),
    varint_length_one (show 16 < 128 by decide)] at hsidField
  simp only [key, varint_length_one (show 8 * 3 + 2 < 128 by decide),
    varint_length_three (show 16384 ≤ maxClientHello by decide)
      (show maxClientHello < 2097152 by decide)] at hhelloField
  have huint : (uintField 1 protocolVersion).length = 2 := by decide
  simp only [Service.notification, RegisterAgentResponse.marshal, List.length_append, maxMsgSize,
    maxClientHello] at *
  omega

/-- The condition on a received hello. -/
def Act.SmallHello : Act → Prop
  | .connect _ (.own (.recv (.ok (.clientHandshake clientHello)))) =>
    clientHello.length ≤ maxClientHello
  | _ => True

instance (a : Act) : Decidable a.SmallHello := by
  unfold Act.SmallHello
  split <;> infer_instance

/-- The registration is in service. -/
def RegisterPc.inService : RegisterPc → Bool
  | .serving | .sending _ _ => true
  | _ => false

/-- The hello that the call holds until its agent is notified. -/
def ConnectPc.hello : ConnectPc → Option Bytes
  | .inserting clientHello | .notifying clientHello => some clientHello
  | _ => none

namespace Service

variable {cfg : Config} {s t : Service} {a : Act}

/-- The `Connect` stream that causes a step: the steps of its own call, those of the `Accept`
calls that have joined its session, and the outcome of sending its notification, as far as the
size of the message decides it. -/
def cause (s : Service) : Act → Option ℕ
  | .connect i _ | .notify i => some i
  | .accept m _ | .clientToAgent m | .agentToClient m => (s.acc m).session
  | .register r (.own (.send .ok)) | .register r (.own (.send .tooLarge)) =>
    match (s.reg r).pc with
    | .sending i _ => some i
    | _ => none
  | .register _ _ => none

/-- No step that a `Connect` stream causes ends a registration, removes an agent or cancels
another session. -/
def Isolated (cfg : Config) (s : Service) : Prop :=
  ∀ i a t, s.cause a = some i → (machine cfg).step s a = some t →
    (∀ r, (t.reg r).pc = (s.reg r).pc ∨
      (s.reg r).pc.inService = true ∧ (t.reg r).pc.inService = true) ∧
    t.agents = s.agents ∧ ∀ j, j ≠ i → (t.conn j).ctx = (s.conn j).ctx

/-- The sizes that decide whether a notification can be sent. -/
structure SizeInv (s : Service) : Prop where
  hello : ∀ i, ∀ clientHello ∈ (s.conn i).pc.hello, clientHello.length ≤ maxClientHello
  sid : ∀ i, (s.conn i).sid.length ≤ 16
  sending : ∀ r i msg, (s.reg r).pc = .sending i msg → msg.marshal.length ≤ maxMsgSize

theorem ConnStep.hello {j : ℕ} {c : ConnectCall} (hstep : ConnStep s a j c)
    (hsmall : a.SmallHello)
    (h : ∀ clientHello ∈ (s.conn j).pc.hello, clientHello.length ≤ maxClientHello) :
    ∀ clientHello ∈ c.pc.hello, clientHello.length ≤ maxClientHello := by
  cases hstep with
  | own ev c hmove ha =>
    subst ha
    cases hmove with
    | streamDone e => exact h
    | forward ev handler _ => exact h
    | handshake clientHello _ _ _ =>
      intro hello hmem
      obtain rfl := Option.mem_some.mp hmem
      exact hsmall
    | _ => simp [ConnectPc.hello]
  | inserted clientHello hpc =>
    intro hello hmem
    exact h hello (by rw [hpc]; exact hmem)
  | same => exact h
  | cancelled => exact h
  | madeReady _ _ => exact h
  | handed _ _ => exact h
  | took _ _ => exact h
  | _ => simp [ConnectPc.hello]

theorem ConnStep.sid_length {j : ℕ} {c : ConnectCall} (hstep : ConnStep s a j c)
    (h : (s.conn j).sid.length ≤ 16) : c.sid.length ≤ 16 := by
  cases hstep with
  | own ev c hmove _ => cases hmove <;> exact h
  | drew sid _ hlength => exact le_of_eq hlength
  | _ => exact h

theorem RegStep.sending {q i : ℕ} {c : RegisterCall} {msg : RegisterAgentResponse}
    (hstep : RegStep s t q c) (hinv : SizeInv s) (hpc : c.pc = .sending i msg) :
    msg.marshal.length ≤ maxMsgSize := by
  cases hstep with
  | own ev c hmove =>
    cases hmove with
    | streamDone e => exact hinv.sending q i msg hpc
    | _ => contradiction
  | notified j clientHello hnotifying _ _ =>
    obtain ⟨rfl, rfl⟩ := RegisterPc.sending.inj hpc
    refine notification_fits (hinv.sid j) (hinv.hello j clientHello ?_)
    rw [hnotifying]
    rfl
  | same => exact hinv.sending q i msg hpc
  | reserved => exact hinv.sending q i msg hpc
  | released => exact hinv.sending q i msg hpc
  | _ => contradiction

theorem Step.sizeInv (hstep : Step cfg s a t) (hsmall : a.SmallHello) (h : SizeInv s) :
    SizeInv t where
  hello i := (hstep.conn i).hello hsmall (h.hello i)
  sid i := (hstep.conn i).sid_length (h.sid i)
  sending r _ _ hpc := (hstep.reg r).sending h hpc

theorem sizeInv_of_reachable (h : (machine cfg).ReachableVia (fun _ a ↦ a.SmallHello) s) :
    SizeInv s := by
  refine Machine.invariant_via (I := SizeInv) ?_ ?_ h
  · exact ⟨fun _ ↦ by simp [machine, ConnectPc.hello], fun _ ↦ by simp [machine],
      fun _ _ _ hpc ↦ by simp [machine] at hpc⟩
  · exact fun s a t _ hs hsmall hstep ↦ (step_of_step hstep).sizeInv hsmall hs

/-- A change of one call's stage leaves the others' alone. -/
theorem pc_update {r : ℕ} {c : RegisterCall}
    (h : c.pc = (s.reg r).pc ∨ (s.reg r).pc.inService = true ∧ c.pc.inService = true) (q : ℕ) :
    (Function.update s.reg r c q).pc = (s.reg q).pc ∨
      (s.reg q).pc.inService = true ∧ (Function.update s.reg r c q).pc.inService = true := by
  by_cases hq : q = r
  · subst hq
    simpa using h
  · simp [hq]

theorem ctx_update {i : ℕ} {c : ConnectCall} (j : ℕ) (hj : j ≠ i) :
    (Function.update s.conn i c j).ctx = (s.conn j).ctx := by
  simp [hj]

/-- What a step does to the other parties, when it is caused by one `Connect` stream. -/
theorem Step.isolated (hstep : Step cfg s a t) (hsize : SizeInv s) {i : ℕ}
    (hcause : s.cause a = some i) :
    (∀ r, (t.reg r).pc = (s.reg r).pc ∨
      (s.reg r).pc.inService = true ∧ (t.reg r).pc.inService = true) ∧
    t.agents = s.agents ∧ ∀ j, j ≠ i → (t.conn j).ctx = (s.conn j).ctx := by
  cases hstep with
  | registerOwn r ev c hmove =>
    cases hmove with
    | sent k msg hpc _ =>
      exact ⟨pc_update (.inr ⟨by simp [hpc, RegisterPc.inService], rfl⟩), rfl, fun _ _ ↦ rfl⟩
    | tooLarge k msg hpc hlarge => exact absurd (hsize.sending r k msg hpc) hlarge
    | _ => contradiction
  | connectOwn k ev c hmove =>
    obtain rfl : k = i := Option.some.inj hcause
    exact ⟨fun _ ↦ .inl rfl, rfl, ctx_update⟩
  | reserved k b routeId _ _ _ _ =>
    obtain rfl : k = i := Option.some.inj hcause
    exact ⟨pc_update (.inl rfl), rfl, ctx_update⟩
  | released k b result _ _ _ =>
    obtain rfl : k = i := Option.some.inj hcause
    exact ⟨pc_update (.inl rfl), rfl, ctx_update⟩
  | notified k b clientHello _ _ hserving =>
    obtain rfl : k = i := Option.some.inj hcause
    exact ⟨pc_update (.inr ⟨by simp [hserving, RegisterPc.inService], rfl⟩), rfl, ctx_update⟩
  | found m k hpc hmu hlookup =>
    rw [setAcc_reg, setAcc_agents, setAcc_conn]
    unfold makeReady
    split_ifs
    · exact ⟨fun _ ↦ .inl rfl, rfl, fun _ _ ↦ rfl⟩
    · refine ⟨fun _ ↦ .inl rfl, rfl, fun j _ ↦ proj_update (f := s.conn) ConnectCall.ctx ?_ j⟩
      rfl
  | acceptCancelled m k result _ hsession =>
    obtain rfl : k = i := Option.some.inj (hsession.symm.trans hcause)
    exact ⟨fun _ ↦ .inl rfl, rfl, ctx_update⟩
  | clientToAgent m k payload hsession _ _ =>
    obtain rfl : k = i := Option.some.inj (hsession.symm.trans hcause)
    exact ⟨fun _ ↦ .inl rfl, rfl, ctx_update⟩
  | agentToClient m k payload hsession _ _ =>
    obtain rfl : k = i := Option.some.inj (hsession.symm.trans hcause)
    exact ⟨fun _ ↦ .inl rfl, rfl, ctx_update⟩
  | acceptOwn m ev c hmove => exact ⟨fun _ ↦ .inl rfl, rfl, fun _ _ ↦ rfl⟩
  | notFound m _ _ _ => exact ⟨fun _ ↦ .inl rfl, rfl, fun _ _ ↦ rfl⟩
  | _ =>
    first
    | contradiction
    | (obtain rfl := Option.some.inj hcause
       exact ⟨fun _ ↦ .inl rfl, rfl, ctx_update⟩)

/-- While every hello received is within the bound, no client can end a registration, remove an
agent or cancel another client's session. -/
theorem client_isolated (cfg : Config) {s : Service}
    (h : (machine cfg).ReachableVia (fun _ a ↦ a.SmallHello) s) : s.Isolated cfg := by
  intro i a t hcause hstep
  exact (step_of_step hstep).isolated (sizeInv_of_reachable h) hcause

/-- The client sends its hello and the agent's registration is handed the notification. -/
theorem exec_hello (cfg : Config) {s : Service} {i r : ℕ} {clientHello : Bytes}
    (hpc : (s.conn i).pc = .recvHandshake) (hagent : (s.conn i).agent = some r)
    (hserving : (s.reg r).pc = .serving) (hmu : s.mu = none) (hne : clientHello ≠ [])
    (hfits : (ConnectRequest.clientHandshake clientHello).marshal.length ≤ maxMsgSize) :
    ∃ t, (machine cfg).exec s [.connect i (.own (.recv (.ok (.clientHandshake clientHello)))),
        .connect i .insertSession, .notify i] = some t ∧
      (t.reg r).pc = .sending i (notification (s.conn i) clientHello) ∧
      (t.reg r).route = (s.reg r).route ∧ t.agents = s.agents ∧ t.mu = none ∧
      t.sessions = s.sessions.insert (s.conn i).sid i ∧ ∀ j, j ≠ i → t.conn j = s.conn j := by
  simp +contextual [Machine.exec, machine, step, connect, ConnectCall.next, recvFits, hfits, hpc,
    handshakeCheck, hne, hmu, notify, hagent, hserving, notification]

/-- The cleanup of a registration takes its agent out of the map and cancels a session of it. -/
theorem exec_cleanup (cfg : Config) {s : Service} {j r : ℕ} {result : Err}
    (hpc : (s.reg r).pc = .leaving result) (hmu : s.mu = none)
    (hlookup : s.agents.lookup (s.reg r).route = some r) (hmem : j ∈ s.sessionsOf r) :
    ∃ t, (machine cfg).exec s
        [.register r .lock, .register r .closeDone, .register r (.cancelSession j)] = some t ∧
      t.agents.lookup (s.reg r).route = none ∧ (t.conn j).ctx ≠ none := by
  have hlock : s.lockCleanup r result =
      { s.setReg r { s.reg r with pc := .closing result } with
        mu := some r
        agents := s.agents.erase (s.reg r).route
        gauge := s.gauge - 1 } := by
    simp [lockCleanup, hlookup]
  unfold sessionsOf at hmem
  simp [Machine.exec, machine, step, registerAgent, hpc, hmu, hlock, sessionsOf, hmem,
    cancelSession]

/-- A hello between the two limits ends the registration of its agent, whatever else is going on
at the relay. -/
theorem oversizedHello_ends_registration (cfg : Config) {s : Service} {i r : ℕ}
    {clientHello : Bytes} (hpc : (s.conn i).pc = .recvHandshake)
    (hagent : (s.conn i).agent = some r) (hsid : (s.conn i).sid.length = 16)
    (hserving : (s.reg r).pc = .serving) (hmu : s.mu = none)
    (hlow : maxClientHello < clientHello.length) (hhigh : clientHello.length ≤ 131064) :
    ∃ t u, (machine cfg).Reaches s t ∧
      t.cause (.register r (.own (.send .tooLarge))) = some i ∧
      (machine cfg).step t (.register r (.own (.send .tooLarge))) = some u ∧
      (t.reg r).pc.inService = true ∧ (u.reg r).pc = .leaving sendTooLarge ∧ u.mu = none ∧
      (u.reg r).route = (s.reg r).route ∧ u.agents = s.agents ∧
      u.sessions = s.sessions.insert (s.conn i).sid i ∧ ∀ j, j ≠ i → u.conn j = s.conn j := by
  unfold maxClientHello at hlow
  have hfits : (ConnectRequest.clientHandshake clientHello).marshal.length ≤ maxMsgSize := by
    rw [handshake_length (by omega) (by omega), maxMsgSize]
    omega
  have hlarge : ¬ (notification (s.conn i) clientHello).marshal.length ≤ maxMsgSize := by
    rw [notification_length hsid (by omega) (by omega), maxMsgSize]
    omega
  have hne : clientHello ≠ [] := by
    rintro rfl
    simp at hlow
  obtain ⟨t, hexec, hsending, hroute, hagents, hmu', hsessions, hothers⟩ :=
    exec_hello cfg hpc hagent hserving hmu hne hfits
  refine ⟨t, t.setReg r { t.reg r with pc := .leaving sendTooLarge },
    Machine.reaches_of_exec _ hexec, ?_, ?_, ?_, ?_⟩
  · simp [cause, hsending]
  · simp [machine, step, registerAgent, RegisterCall.next, hsending, hlarge]
  · simp [hsending, RegisterPc.inService]
  · exact ⟨by simp, hmu', by simpa using hroute, hagents, hsessions, hothers⟩

def secondSid : Bytes := List.replicate 16 8

/-- Two clients of one agent: the first has its session, the second is asked for its hello. -/
def twoClients : List Act :=
  sampleOpening ++
  [.notify 0, .register 0 (.own (.send .ok)), .connect 1 (.own .call),
    .connect 1 (.own (.recv (.ok (.clientOpen 1 sampleRoute)))), .connect 1 .reserveAgent,
    .connect 1 (.randRead (some secondSid)), .connect 1 (.own (.sendAssigned none))]

/-- The second client's hello ends the registration, removes the agent and cancels the first
client's session. -/
theorem not_isolated_twoClients :
    ¬ (∀ s, (machine sampleConfig).Reachable s → s.Isolated sampleConfig) ∧
    ∃ s t u, (machine sampleConfig).Reachable s ∧
      s.cause (.register 0 (.own (.send .tooLarge))) = some 1 ∧
      (machine sampleConfig).step s (.register 0 (.own (.send .tooLarge))) = some t ∧
      (s.reg 0).pc.inService = true ∧ (t.reg 0).pc = .leaving sendTooLarge ∧
      (machine sampleConfig).exec t
        [.register 0 .lock, .register 0 .closeDone, .register 0 (.cancelSession 0)] = some u ∧
      t.agents.lookup sampleRoute = some 0 ∧ u.agents.lookup sampleRoute = none ∧
      (t.conn 0).ctx = none ∧ (u.conn 0).ctx ≠ none := by
  obtain ⟨s, hexec, hpc, hagent, hsid, hserving, hmu, hroute, hlookup, hsession, hvictim, hctx⟩ :=
    Machine.exists_of_exec (M := machine sampleConfig) (s := {}) twoClients
      (fun s ↦ (s.conn 1).pc = .recvHandshake ∧ (s.conn 1).agent = some 0 ∧
        (s.conn 1).sid = secondSid ∧ (s.reg 0).pc = .serving ∧ s.mu = none ∧
        (s.reg 0).route = sampleRoute ∧ s.agents.lookup sampleRoute = some 0 ∧
        s.sessions.lookup sampleSid = some 0 ∧ (s.conn 0).agent = some 0 ∧
        (s.conn 0).ctx = none) (by decide +kernel)
  obtain ⟨clientHello, hlength⟩ : ∃ clientHello : Bytes, clientHello.length = 131060 :=
    ⟨List.replicate 131060 0, List.length_replicate⟩
  have hlow : maxClientHello < clientHello.length := by rw [hlength]; decide
  have hhigh : clientHello.length ≤ 131064 := by rw [hlength]; decide
  obtain ⟨t, u, hreach, hcause, hstep, hin, hleaving, hmu', hroute', hagents, hsessions, hothers⟩ :=
    oversizedHello_ends_registration sampleConfig hpc hagent (by rw [hsid]; rfl) hserving hmu
      hlow hhigh
  have hreachable := (Machine.reaches_of_exec twoClients hexec).trans hreach
  have hzero := hothers 0 (by decide)
  have hentry : u.sessions.lookup sampleSid = some 0 := by
    rw [hsessions, hsid, AList.lookup_insert_ne (by decide)]
    exact hsession
  have hlookup' : u.agents.lookup (u.reg 0).route = some 0 := by
    rw [hroute', hroute, hagents]
    exact hlookup
  obtain ⟨v, hcleanup, hgone, hcancelled⟩ :=
    exec_cleanup sampleConfig hleaving hmu' hlookup' (mem_sessionsOf hentry (hzero ▸ hvictim))
  rw [hroute', hroute] at hgone
  refine ⟨fun hall ↦ ?_, t, u, v, hreachable, hcause, hstep, hin, hleaving, hcleanup,
    by rw [hagents]; exact hlookup, hgone, by rw [hzero]; exact hctx, hcancelled⟩
  rcases (hall t hreachable 1 _ u hcause hstep).1 0 with hsame | ⟨_, hserves⟩
  · rw [← hsame, hleaving] at hin
    contradiction
  · rw [hleaving] at hserves
    contradiction

theorem client_isolated_sampleSession :
    ∃ s, (machine sampleConfig).ReachableVia (fun _ a ↦ a.SmallHello) s ∧
      (s.conn 0).pc = .returned none ∧ (s.reg 0).pc = .serving ∧ s.Isolated sampleConfig := by
  obtain ⟨s, hexec, hs⟩ := Machine.exists_of_exec
    (M := (machine sampleConfig).restrict fun _ a ↦ a.SmallHello) (s := {}) sampleSession
    (fun s ↦ (s.conn 0).pc = .returned none ∧ (s.reg 0).pc = .serving) (by decide +kernel)
  have hvia : (machine sampleConfig).ReachableVia (fun _ a ↦ a.SmallHello) s :=
    (Machine.reaches_of_exec sampleSession hexec).of_restrict
  exact ⟨s, hvia, hs.1, hs.2, client_isolated sampleConfig hvia⟩

end Service

end RelayCat.Relay
