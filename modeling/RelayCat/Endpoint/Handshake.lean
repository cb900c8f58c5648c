import RelayCat.AccessCode.Code
import RelayCat.Automaton.Machine
import RelayCat.Automaton.Threads
import RelayCat.Noise.Handshake

/-!
# Setting up tunnels through a hostile relay

Any number of calls of `handleAgentTunnel` and `handleClientTunnel`, each with the code of its
own configuration. Everything that comes from the relay (notifications, assigned sessions,
accepted handshakes) is chosen freely by the action, so the relay may answer with anything it
has seen, for any route and session, in any order, and may run handshakes of its own under the
keys it knows. The trace records, newest first, what was written, what was sent, and where a
target was opened or a tunnel entered.
-/

namespace RelayCat.Endpoint

open Go AccessCode Wire Automaton Noise.Handshake

structure AgentConfig where
  code : AccessCode.Code
  handler : Bool

structure ClientConfig where
  code : AccessCode.Code

inductive SetupEvent where
  | startInitiator (client : ℕ) (psk routeID sessionID hello : Bytes)
  | respond (agent : ℕ) (psk routeID sessionID clientHello hello : Bytes)
  | relayWrote (message : Message)
  | acceptSent (agent : ℕ) (request : AcceptRequest)
  | connectSent (client : ℕ) (request : ConnectRequest)
  | openTarget (agent : ℕ) (incoming : RegisterAgentResponse)
  | bridge (client : ℕ) (sessionID clientHello agentHello : Bytes)
  deriving DecidableEq, Repr

/-- The handshake message that an event writes. -/
def SetupEvent.written : SetupEvent → Option Message
  | startInitiator _ psk routeID sessionID hello =>
    some (.first psk (prologue routeID sessionID) hello)
  | respond _ psk routeID sessionID clientHello hello =>
    some (.second psk (prologue routeID sessionID) clientHello hello)
  | relayWrote message => some message
  | _ => none

/-- The messages that the handshake library has written so far, for anyone. -/
def history (trace : List SetupEvent) : List Message := trace.filterMap SetupEvent.written

inductive AgentPc where
  | start
  | accept (incoming : RegisterAgentResponse) (agentHello : Bytes)
  | send (incoming : RegisterAgentResponse) (agentHello : Bytes)
  | openTarget (incoming : RegisterAgentResponse)
  | bridge (incoming : RegisterAgentResponse)
  | handlerDone (incoming : RegisterAgentResponse) (bridgeErr : Option Err)
  | returned (errs : List Err)

/-- What a call of `handleAgentTunnel` waits for, with the outcome. -/
inductive AgentAct where
  | incoming (incoming : RegisterAgentResponse) (write : Except Err Bytes)
  | accepted (err : Option Err)
  | sent (err : Option Err)
  | target (err : Option Err)
  | bridged (err : Option Err)
  | handlerReturned (err : Option Err)

/-- `handleAgentTunnel`, one blocking call at a time, with the new events. -/
def handleAgentTunnel (noise : Library) (cfg : AgentConfig) (agent : ℕ) (trace : List SetupEvent) :
    AgentPc → AgentAct → Option (AgentPc × List SetupEvent)
  | .start, .incoming incoming write =>
    if incoming.protocolVersion ≠ protocolVersion ∨ incoming.sessionId.length ≠ 16 then
      some (.returned [.new "invalid incoming tunnel notification"], [])
    else
      match respond noise (history trace) cfg.code.psk cfg.code.routeID incoming.sessionId
        incoming.clientHello write with
      | .error err => some (.returned [err], [])
      | .ok agentHello =>
        some (.accept incoming agentHello,
          [.respond agent cfg.code.psk cfg.code.routeID incoming.sessionId incoming.clientHello
            agentHello])
  | .accept _ _, .accepted (some err) => some (.returned [.errorf "opening accept stream" err], [])
  | .accept incoming agentHello, .accepted none =>
    some (.send incoming agentHello,
      [.acceptSent agent (.agentAccept protocolVersion incoming.sessionId agentHello)])
  | .send _ _, .sent (some err) => some (.returned [.errorf "accepting tunnel" err], [])
  | .send incoming _, .sent none => some (.openTarget incoming, [.openTarget agent incoming])
  | .openTarget _, .target (some err) => some (.returned [err], [])
  | .openTarget incoming, .target none => some (.bridge incoming, [])
  | .bridge incoming, .bridged err =>
    if cfg.handler then some (.handlerDone incoming err, []) else some (.returned err.toList, [])
  | .handlerDone _ bridgeErr, .handlerReturned err =>
    some (.returned (bridgeErr.toList ++ err.toList), [])
  | _, _ => none

inductive ClientPc where
  | start
  | sendOpen
  | recvAssigned
  | sendHandshake (sessionID : Bytes) (initiator : Initiator)
  | recvAccept (sessionID : Bytes) (initiator : Initiator)
  | bridge
  | returned (err : Option Err)

/-- What a call of `handleClientTunnel` waits for, with the outcome. A received frame whose
body is unset is `none`. -/
inductive ClientAct where
  | opened (err : Option Err)
  | openSent (err : Option Err)
  | assigned (frame : Except Err (Option ConnectResponse)) (write : Except Err Bytes)
  | handshakeSent (err : Option Err)
  | accepted (frame : Except Err (Option ConnectResponse))
  | bridged (err : Option Err)

/-- `handleClientTunnel`, one blocking call at a time, with the new events. -/
def handleClientTunnel (noise : Library) (cfg : ClientConfig) (client : ℕ)
    (trace : List SetupEvent) : ClientPc → ClientAct → Option (ClientPc × List SetupEvent)
  | .start, .opened (some err) => some (.returned (some (.errorf "opening tunnel" err)), [])
  | .start, .opened none =>
    some (.sendOpen, [.connectSent client (.clientOpen protocolVersion cfg.code.routeID)])
  | .sendOpen, .openSent (some err) => some (.returned (some err), [])
  | .sendOpen, .openSent none => some (.recvAssigned, [])
  | .recvAssigned, .assigned (.error err) _ =>
    some (.returned (some (.errorf "allocating session" err)), [])
  | .recvAssigned, .assigned (.ok frame) write =>
    match frame with
    | some (.sessionAssigned sessionID) =>
      if sessionID.length ≠ 16 then
        some (.returned (some (.new "relay returned invalid session")), [])
      else
        match startInitiator noise cfg.code.psk cfg.code.routeID sessionID write with
        | .error err => some (.returned (some err), [])
        | .ok initiator =>
          some (.sendHandshake sessionID initiator,
            [.connectSent client (.clientHandshake initiator.hello),
              .startInitiator client cfg.code.psk cfg.code.routeID sessionID initiator.hello])
    | _ => some (.returned (some (.new "relay returned invalid session")), [])
  | .sendHandshake _ _, .handshakeSent (some err) => some (.returned (some err), [])
  | .sendHandshake sessionID initiator, .handshakeSent none =>
    some (.recvAccept sessionID initiator, [])
  | .recvAccept _ _, .accepted (.error err) =>
    some (.returned (some (.errorf "waiting for agent" err)), [])
  | .recvAccept sessionID initiator, .accepted (.ok frame) =>
    match frame with
    | some (.agentAccept _ _ agentHello) =>
      match initiator.finish noise (history trace) agentHello with
      | .error err => some (.returned (some err), [])
      | .ok () => some (.bridge, [.bridge client sessionID initiator.hello agentHello])
    | _ => some (.returned (some (.new "relay returned invalid agent handshake")), [])
  | .bridge, .bridged err => some (.returned err, [])
  | _, _ => none

structure Setup where
  agents : ℕ → AgentPc
  clients : ℕ → ClientPc
  trace : List SetupEvent

inductive SetupAct where
  | agent (i : ℕ) (act : AgentAct)
  | client (j : ℕ) (act : ClientAct)
  | relay (message : Message)

section Machine

variable (noise : Library) (agentCfg : ℕ → AgentConfig) (clientCfg : ℕ → ClientConfig)
  (known : Bytes → Bool)

/-- The calls, and a relay that knows some of the preshared keys. -/
def setup : Machine Setup SetupAct where
  init := ⟨fun _ ↦ .start, fun _ ↦ .start, []⟩
  step s
    | .agent i act =>
      (handleAgentTunnel noise (agentCfg i) i s.trace (s.agents i) act).map fun (pc, events) ↦
        { s with agents := Function.update s.agents i pc, trace := events ++ s.trace }
    | .client j act =>
      (handleClientTunnel noise (clientCfg j) j s.trace (s.clients j) act).map fun (pc, events) ↦
        { s with clients := Function.update s.clients j pc, trace := events ++ s.trace }
    | .relay message =>
      if known message.psk then some { s with trace := .relayWrote message :: s.trace } else none

/-- What earlier events and configurations an event rests on. -/
def Justified (earlier : List SetupEvent) : SetupEvent → Prop
  | .startInitiator j psk routeID _ _ =>
    psk = (clientCfg j).code.psk ∧ routeID = (clientCfg j).code.routeID
  | .respond i psk routeID _ _ _ =>
    psk = (agentCfg i).code.psk ∧ routeID = (agentCfg i).code.routeID
  | .relayWrote message => known message.psk = true
  | .openTarget i incoming => known (agentCfg i).code.psk = false →
    ∃ j, .startInitiator j (agentCfg i).code.psk (agentCfg i).code.routeID incoming.sessionId
      incoming.clientHello ∈ earlier
  | .bridge j sessionID clientHello agentHello =>
    .startInitiator j (clientCfg j).code.psk (clientCfg j).code.routeID sessionID clientHello ∈
      earlier ∧
    (known (clientCfg j).code.psk = false →
      ∃ i, .respond i (clientCfg j).code.psk (clientCfg j).code.routeID sessionID clientHello
        agentHello ∈ earlier)
  | _ => True

/-- Every event of a trace rests on the events before it. -/
def JustifiedTrace : List SetupEvent → Prop
  | [] => True
  | event :: earlier =>
    Justified agentCfg clientCfg known earlier event ∧ JustifiedTrace earlier

end Machine

section Trace

variable {agentCfg : ℕ → AgentConfig} {clientCfg : ℕ → ClientConfig} {known : Bytes → Bool}
  {trace : List SetupEvent} {psk routeID sessionID clientHello hello : Bytes}

theorem JustifiedTrace.at_event {later earlier : List SetupEvent} {event : SetupEvent}
    (h : JustifiedTrace agentCfg clientCfg known (later ++ event :: earlier)) :
    Justified agentCfg clientCfg known earlier event := by
  induction later with
  | nil => exact h.1
  | cons e later ih => exact ih h.2

theorem JustifiedTrace.of_mem {event : SetupEvent}
    (h : JustifiedTrace agentCfg clientCfg known trace)
    (hmem : event ∈ trace) : ∃ earlier, Justified agentCfg clientCfg known earlier event := by
  obtain ⟨later, earlier, rfl⟩ := List.append_of_mem hmem
  exact ⟨earlier, h.at_event⟩

/-- A first message under a key that the relay does not know was written by a client for
exactly the route and session in its prologue. -/
theorem JustifiedTrace.startInitiator (h : JustifiedTrace agentCfg clientCfg known trace)
    (hclients : ∀ j, (clientCfg j).code.routeID.length = routeIDSize)
    (hroute : routeID.length = routeIDSize) (hpsk : known psk = false)
    (hmem : .first psk (prologue routeID sessionID) hello ∈ history trace) :
    ∃ j, .startInitiator j psk routeID sessionID hello ∈ trace := by
  obtain ⟨event, hevent, hwritten⟩ := List.mem_filterMap.mp hmem
  obtain ⟨earlier, hjustified⟩ := h.of_mem hevent
  cases event with
  | startInitiator j psk' routeID' sessionID' hello' =>
    simp only [SetupEvent.written, Option.some.injEq, Message.first.injEq] at hwritten
    obtain ⟨rfl, hprologue, rfl⟩ := hwritten
    obtain ⟨-, rfl⟩ := hjustified
    obtain ⟨rfl, rfl⟩ := prologue_inj ((hclients j).trans hroute.symm) hprologue
    exact ⟨j, hevent⟩
  | relayWrote message =>
    simp only [SetupEvent.written, Option.some.injEq] at hwritten
    subst hwritten
    exact absurd (hpsk.symm.trans hjustified) Bool.false_ne_true
  | respond => simp [SetupEvent.written] at hwritten
  | acceptSent => simp [SetupEvent.written] at hwritten
  | connectSent => simp [SetupEvent.written] at hwritten
  | openTarget => simp [SetupEvent.written] at hwritten
  | bridge => simp [SetupEvent.written] at hwritten

/-- A second message under a key that the relay does not know was written by an agent for
exactly the route and session in its prologue. -/
theorem JustifiedTrace.respond (h : JustifiedTrace agentCfg clientCfg known trace)
    (hagents : ∀ i, (agentCfg i).code.routeID.length = routeIDSize)
    (hroute : routeID.length = routeIDSize) (hpsk : known psk = false)
    (hmem : .second psk (prologue routeID sessionID) clientHello hello ∈ history trace) :
    ∃ i, .respond i psk routeID sessionID clientHello hello ∈ trace := by
  obtain ⟨event, hevent, hwritten⟩ := List.mem_filterMap.mp hmem
  obtain ⟨earlier, hjustified⟩ := h.of_mem hevent
  cases event with
  | respond i psk' routeID' sessionID' clientHello' hello' =>
    simp only [SetupEvent.written, Option.some.injEq, Message.second.injEq] at hwritten
    obtain ⟨rfl, hprologue, rfl, rfl⟩ := hwritten
    obtain ⟨-, rfl⟩ := hjustified
    obtain ⟨rfl, rfl⟩ := prologue_inj ((hagents i).trans hroute.symm) hprologue
    exact ⟨i, hevent⟩
  | relayWrote message =>
    simp only [SetupEvent.written, Option.some.injEq] at hwritten
    subst hwritten
    exact absurd (hpsk.symm.trans hjustified) Bool.false_ne_true
  | startInitiator => simp [SetupEvent.written] at hwritten
  | acceptSent => simp [SetupEvent.written] at hwritten
  | connectSent => simp [SetupEvent.written] at hwritten
  | openTarget => simp [SetupEvent.written] at hwritten
  | bridge => simp [SetupEvent.written] at hwritten

end Trace

section Moves

/-- The notification that a call has verified and not yet opened a target for. -/
def AgentPc.pending : AgentPc → Option RegisterAgentResponse
  | accept incoming _ => some incoming
  | send incoming _ => some incoming
  | _ => none

/-- The session and initiator of a call that waits for its handshake. -/
def ClientPc.pending : ClientPc → Option (Bytes × Initiator)
  | sendHandshake sessionID initiator => some (sessionID, initiator)
  | recvAccept sessionID initiator => some (sessionID, initiator)
  | _ => none

variable (cfg : AgentConfig) (ccfg : ClientConfig) (n : ℕ) (trace : List SetupEvent)

/-- The steps of `handleAgentTunnel`. -/
inductive AgentMove : AgentPc → AgentPc → List SetupEvent → Prop
  | quiet {pc pc'} : pc'.pending = none → AgentMove pc pc' []
  | respond {pc incoming hello} :
      .first cfg.code.psk (prologue cfg.code.routeID incoming.sessionId) incoming.clientHello ∈
        history trace →
      AgentMove pc (.accept incoming hello)
        [.respond n cfg.code.psk cfg.code.routeID incoming.sessionId incoming.clientHello hello]
  | send {incoming hello} :
      AgentMove (.accept incoming hello) (.send incoming hello)
        [.acceptSent n (.agentAccept protocolVersion incoming.sessionId hello)]
  | target {incoming hello} :
      AgentMove (.send incoming hello) (.openTarget incoming) [.openTarget n incoming]

/-- The steps of `handleClientTunnel`. -/
inductive ClientMove : ClientPc → ClientPc → List SetupEvent → Prop
  | quiet {pc pc'} : pc'.pending = none → ClientMove pc pc' []
  | register {pc} :
      ClientMove pc .sendOpen [.connectSent n (.clientOpen protocolVersion ccfg.code.routeID)]
  | initiate {pc sessionID hello} :
      ClientMove pc
        (.sendHandshake sessionID ⟨ccfg.code.psk, prologue ccfg.code.routeID sessionID, hello⟩)
        [.connectSent n (.clientHandshake hello),
          .startInitiator n ccfg.code.psk ccfg.code.routeID sessionID hello]
  | sent {sessionID initiator} :
      ClientMove (.sendHandshake sessionID initiator) (.recvAccept sessionID initiator) []
  | finish {sessionID initiator agentHello} :
      .second initiator.psk initiator.prologue initiator.hello agentHello ∈ history trace →
      ClientMove (.recvAccept sessionID initiator) .bridge
        [.bridge n sessionID initiator.hello agentHello]

variable {cfg ccfg n trace} {noise : Library} {events : List SetupEvent}

theorem agentMove_of_handleAgentTunnel (hnoise : noise.Authentic) {pc pc' : AgentPc}
    {act : AgentAct}
    (h : handleAgentTunnel noise cfg n trace pc act = some (pc', events)) :
    AgentMove cfg n trace pc pc' events := by
  unfold handleAgentTunnel at h
  split at h
  · split_ifs at h
    · cases h
      exact .quiet rfl
    · split at h
      · cases h
        exact .quiet rfl
      · rename_i hello hrespond
        cases h
        exact .respond (respond_ok hnoise hrespond)
  · cases h
    exact .quiet rfl
  · cases h
    exact .send
  · cases h
    exact .quiet rfl
  · cases h
    exact .target
  · cases h
    exact .quiet rfl
  · cases h
    exact .quiet rfl
  · split_ifs at h
    · cases h
      exact .quiet rfl
    · cases h
      exact .quiet rfl
  · cases h
    exact .quiet rfl
  · cases h

theorem clientMove_of_handleClientTunnel (hnoise : noise.Authentic) {pc pc' : ClientPc}
    {act : ClientAct}
    (h : handleClientTunnel noise ccfg n trace pc act = some (pc', events)) :
    ClientMove ccfg n trace pc pc' events := by
  unfold handleClientTunnel at h
  split at h
  · cases h
    exact .quiet rfl
  · cases h
    exact .register
  · cases h
    exact .quiet rfl
  · cases h
    exact .quiet rfl
  · cases h
    exact .quiet rfl
  · split at h
    · split_ifs at h
      · cases h
        exact .quiet rfl
      · split at h
        · cases h
          exact .quiet rfl
        · rename_i initiator hstart
          cases h
          have hinitiator := startInitiator_ok hstart
          rw [hinitiator]
          exact .initiate
    · cases h
      exact .quiet rfl
  · cases h
    exact .quiet rfl
  · cases h
    exact .sent
  · cases h
    exact .quiet rfl
  · split at h
    · split at h
      · cases h
        exact .quiet rfl
      · rename_i hfinish
        cases h
        exact .finish (Initiator.finish_ok hnoise hfinish)
    · cases h
      exact .quiet rfl
  · cases h
    exact .quiet rfl
  · cases h

end Moves

section Agreement

variable (agentCfg : ℕ → AgentConfig) (clientCfg : ℕ → ClientConfig) (known : Bytes → Bool)

/-- The invariant: the trace is justified, and so is what each call will add to it. -/
structure Agreed (s : Setup) : Prop where
  trace : JustifiedTrace agentCfg clientCfg known s.trace
  agents : ∀ i incoming, (s.agents i).pending = some incoming →
    known (agentCfg i).code.psk = false →
    ∃ j, .startInitiator j (agentCfg i).code.psk (agentCfg i).code.routeID incoming.sessionId
      incoming.clientHello ∈ s.trace
  clients : ∀ j sessionID initiator, (s.clients j).pending = some (sessionID, initiator) →
    initiator.psk = (clientCfg j).code.psk ∧
    initiator.prologue = prologue (clientCfg j).code.routeID sessionID ∧
    .startInitiator j (clientCfg j).code.psk (clientCfg j).code.routeID sessionID
      initiator.hello ∈ s.trace

variable {agentCfg clientCfg known} {s : Setup}

/-- New events keep what rests on the old ones. -/
theorem Agreed.extend (h : Agreed agentCfg clientCfg known s) (events : List SetupEvent)
    (hevents : JustifiedTrace agentCfg clientCfg known (events ++ s.trace)) :
    Agreed agentCfg clientCfg known { s with trace := events ++ s.trace } where
  trace := hevents
  agents i incoming hpending hpsk := by
    obtain ⟨j, hj⟩ := h.agents i incoming hpending hpsk
    exact ⟨j, List.mem_append_right events hj⟩
  clients j sessionID initiator hpending := by
    obtain ⟨hpsk, hprologue, hmem⟩ := h.clients j sessionID initiator hpending
    exact ⟨hpsk, hprologue, List.mem_append_right events hmem⟩

theorem Agreed.updateAgent (h : Agreed agentCfg clientCfg known s) {i : ℕ} {pc : AgentPc}
    (hpc : ∀ incoming, pc.pending = some incoming → known (agentCfg i).code.psk = false →
      ∃ j, .startInitiator j (agentCfg i).code.psk (agentCfg i).code.routeID incoming.sessionId
        incoming.clientHello ∈ s.trace) :
    Agreed agentCfg clientCfg known { s with agents := Function.update s.agents i pc } where
  trace := h.trace
  agents i' incoming hpending := by
    dsimp only at hpending
    by_cases hi : i' = i
    · subst hi
      rw [Function.update_self] at hpending
      exact hpc incoming hpending
    · rw [Function.update_of_ne hi] at hpending
      exact h.agents i' incoming hpending
  clients := h.clients

theorem Agreed.updateClient (h : Agreed agentCfg clientCfg known s) {j : ℕ} {pc : ClientPc}
    (hpc : ∀ sessionID initiator, pc.pending = some (sessionID, initiator) →
      initiator.psk = (clientCfg j).code.psk ∧
      initiator.prologue = prologue (clientCfg j).code.routeID sessionID ∧
      .startInitiator j (clientCfg j).code.psk (clientCfg j).code.routeID sessionID
        initiator.hello ∈ s.trace) :
    Agreed agentCfg clientCfg known { s with clients := Function.update s.clients j pc } where
  trace := h.trace
  agents := h.agents
  clients j' sessionID initiator hpending := by
    dsimp only at hpending
    by_cases hj : j' = j
    · subst hj
      rw [Function.update_self] at hpending
      exact hpc sessionID initiator hpending
    · rw [Function.update_of_ne hj] at hpending
      exact h.clients j' sessionID initiator hpending

theorem Agreed.agentMove (hagents : ∀ i, (agentCfg i).code.routeID.length = routeIDSize)
    (hclients : ∀ j, (clientCfg j).code.routeID.length = routeIDSize)
    (h : Agreed agentCfg clientCfg known s) {i : ℕ} {pc : AgentPc} {events : List SetupEvent}
    (hmove : AgentMove (agentCfg i) i s.trace (s.agents i) pc events) :
    Agreed agentCfg clientCfg known
      { s with agents := Function.update s.agents i pc, trace := events ++ s.trace } := by
  generalize hpc : s.agents i = old at hmove
  cases hmove with
  | quiet hpending =>
    apply Agreed.updateAgent (h.extend [] h.trace)
    intro incoming hsome
    rw [hpending] at hsome
    cases hsome
  | respond hread =>
    apply Agreed.updateAgent (h.extend _ ?_)
    · rintro incoming ⟨⟩ hpsk
      obtain ⟨j, hj⟩ := h.trace.startInitiator hclients (hagents i) hpsk hread
      exact ⟨j, List.mem_cons_of_mem _ hj⟩
    · exact ⟨⟨rfl, rfl⟩, h.trace⟩
  | send =>
    apply Agreed.updateAgent (h.extend _ ?_)
    · rintro incoming ⟨⟩ hpsk
      obtain ⟨j, hj⟩ := h.agents i _ (by rw [hpc]; rfl) hpsk
      exact ⟨j, List.mem_cons_of_mem _ hj⟩
    · exact ⟨trivial, h.trace⟩
  | target =>
    apply Agreed.updateAgent (h.extend _ ?_)
    · rintro incoming ⟨⟩
    · exact ⟨h.agents i _ (by rw [hpc]; rfl), h.trace⟩

theorem Agreed.clientMove (hagents : ∀ i, (agentCfg i).code.routeID.length = routeIDSize)
    (hclients : ∀ j, (clientCfg j).code.routeID.length = routeIDSize)
    (h : Agreed agentCfg clientCfg known s) {j : ℕ} {pc : ClientPc} {events : List SetupEvent}
    (hmove : ClientMove (clientCfg j) j s.trace (s.clients j) pc events) :
    Agreed agentCfg clientCfg known
      { s with clients := Function.update s.clients j pc, trace := events ++ s.trace } := by
  generalize hpc : s.clients j = old at hmove
  cases hmove with
  | quiet hpending =>
    apply Agreed.updateClient (h.extend [] h.trace)
    intro sessionID initiator hsome
    rw [hpending] at hsome
    cases hsome
  | register =>
    apply Agreed.updateClient (h.extend _ ?_)
    · rintro sessionID initiator ⟨⟩
    · exact ⟨trivial, h.trace⟩
  | initiate =>
    apply Agreed.updateClient (h.extend _ ?_)
    · rintro sessionID initiator ⟨⟩
      exact ⟨rfl, rfl, by simp⟩
    · exact ⟨trivial, ⟨rfl, rfl⟩, h.trace⟩
  | sent =>
    apply Agreed.updateClient (h.extend [] h.trace)
    rintro sessionID initiator ⟨⟩
    exact h.clients j _ _ (by rw [hpc]; rfl)
  | finish hread =>
    rename_i sessionID initiator agentHello
    obtain ⟨hkey, hprologue, hmem⟩ := h.clients j sessionID initiator (by rw [hpc]; rfl)
    apply Agreed.updateClient (h.extend _ ?_)
    · rintro sessionID initiator ⟨⟩
    · refine ⟨⟨hmem, fun hpsk ↦ ?_⟩, h.trace⟩
      rw [hkey, hprologue] at hread
      exact h.trace.respond hagents (hclients j) hpsk hread

/-- Every reachable state is agreed. -/
theorem agreed_of_reachable {noise : Library} (hnoise : noise.Authentic)
    (hagents : ∀ i, (agentCfg i).code.routeID.length = routeIDSize)
    (hclients : ∀ j, (clientCfg j).code.routeID.length = routeIDSize)
    (hs : (setup noise agentCfg clientCfg known).Reachable s) :
    Agreed agentCfg clientCfg known s := by
  refine Machine.invariant ?_ ?_ hs
  · refine ⟨trivial, ?_, ?_⟩
    · rintro i incoming ⟨⟩
    · rintro j sessionID initiator ⟨⟩
  · intro s act t _ h hstep
    cases act with
    | agent i act =>
      obtain ⟨⟨pc, events⟩, hmove, rfl⟩ := Option.map_eq_some_iff.mp hstep
      exact h.agentMove hagents hclients (agentMove_of_handleAgentTunnel hnoise hmove)
    | client j act =>
      obtain ⟨⟨pc, events⟩, hmove, rfl⟩ := Option.map_eq_some_iff.mp hstep
      exact h.clientMove hagents hclients (clientMove_of_handleClientTunnel hnoise hmove)
    | relay message =>
      obtain ⟨hknown, hstep⟩ := Option.ite_none_right_eq_some.mp hstep
      cases hstep
      exact h.extend [_] ⟨hknown, h.trace⟩

/-- Whatever the relay does: an agent opens its target for a notification only after a client
with the agent's key and route id started the handshake of that notification for that session,
and a client enters its tunnel only after an agent with the client's key and route id answered
this client's own first message for the session that the client was assigned. -/
theorem handshake_agreement {noise : Library} (hnoise : noise.Authentic)
    (hagents : ∀ i, (agentCfg i).code.routeID.length = routeIDSize)
    (hclients : ∀ j, (clientCfg j).code.routeID.length = routeIDSize)
    (hs : (setup noise agentCfg clientCfg known).Reachable s) (later earlier : List SetupEvent) :
    (∀ i incoming, known (agentCfg i).code.psk = false →
      s.trace = later ++ .openTarget i incoming :: earlier →
      ∃ j, .startInitiator j (agentCfg i).code.psk (agentCfg i).code.routeID incoming.sessionId
        incoming.clientHello ∈ earlier) ∧
    ∀ j sessionID clientHello agentHello, known (clientCfg j).code.psk = false →
      s.trace = later ++ .bridge j sessionID clientHello agentHello :: earlier →
      .startInitiator j (clientCfg j).code.psk (clientCfg j).code.routeID sessionID clientHello ∈
        earlier ∧
      ∃ i, .respond i (clientCfg j).code.psk (clientCfg j).code.routeID sessionID clientHello
        agentHello ∈ earlier := by
  have hagreed := (agreed_of_reachable hnoise hagents hclients hs).trace
  constructor
  · intro i incoming hpsk htrace
    rw [htrace] at hagreed
    exact hagreed.at_event hpsk
  · intro j sessionID clientHello agentHello hpsk htrace
    rw [htrace] at hagreed
    obtain ⟨hstart, hrespond⟩ := hagreed.at_event
    exact ⟨hstart, hrespond hpsk⟩

/-- The code of the run below. -/
def sharedCode : AccessCode.Code := ⟨[], List.replicate 16 1, List.replicate 32 2⟩

/-- One client and one agent whose messages the relay passes on. -/
def pairing : List SetupAct :=
  [.client 0 (.opened none), .client 0 (.openSent none),
    .client 0 (.assigned (.ok (some (.sessionAssigned (List.replicate 16 3)))) (.ok [10])),
    .client 0 (.handshakeSent none),
    .agent 0 (.incoming ⟨1, List.replicate 16 3, [10]⟩ (.ok [11])), .agent 0 (.accepted none),
    .agent 0 (.sent none),
    .client 0 (.accepted (.ok (some (.agentAccept 1 [] [11]))))]

theorem handshake_agreement_pairing :
    ∃ s earlier, (setup ideal (fun _ ↦ ⟨sharedCode, false⟩) (fun _ ↦ ⟨sharedCode⟩)
        fun _ ↦ false).Reachable s ∧
      s.trace = [.bridge 0 (List.replicate 16 3) [10] [11]] ++
        .openTarget 0 ⟨1, List.replicate 16 3, [10]⟩ :: earlier ∧
      (∃ j, .startInitiator j sharedCode.psk sharedCode.routeID (List.replicate 16 3) [10] ∈
        earlier) ∧
      ∃ i, .respond i sharedCode.psk sharedCode.routeID (List.replicate 16 3) [10] [11] ∈
        earlier := by
  obtain ⟨s, hexec, htrace⟩ := Machine.exists_of_exec
    (M := setup ideal (fun _ ↦ ⟨sharedCode, false⟩) (fun _ ↦ ⟨sharedCode⟩) fun _ ↦ false)
    (s := ⟨fun _ ↦ .start, fun _ ↦ .start, []⟩) pairing
    (fun s ↦ s.trace = [.bridge 0 (List.replicate 16 3) [10] [11]] ++
      .openTarget 0 ⟨1, List.replicate 16 3, [10]⟩ :: s.trace.drop 2) (by decide +kernel)
  have hs := Machine.reaches_of_exec pairing hexec
  have hroute : ∀ _ : ℕ, sharedCode.routeID.length = routeIDSize := fun _ ↦ by decide
  have htarget := (handshake_agreement ideal_authentic hroute hroute hs _ _).1 0 _ rfl htrace
  have hbridge := (handshake_agreement ideal_authentic hroute hroute hs [] _).2 0 _ _ _ rfl htrace
  refine ⟨s, s.trace.drop 2, hs, htrace, htarget, ?_⟩
  obtain ⟨i, hi⟩ := hbridge.2
  exact ⟨i, (List.mem_cons.mp hi).resolve_left nofun⟩

end Agreement

end RelayCat.Endpoint
