import RelayCat.Endpoint.Agent

/-!
# How the agent serves its notifications

Over all registrations of one agent process the notifications are served in the order in which
they were received, each by one goroutine, and no more goroutines run at a time than the semaphore
has places. Every goroutine works on its own notification, so what the handshake model says of a
target that is opened holds of the notification that was received.
-/

namespace RelayCat.Endpoint

open Go AccessCode Wire Automaton Noise.Handshake

section Service

variable {noise : Library} {cfg : RunConfig} {clientCfg : ℕ → ClientConfig} {known : Bytes → Bool}
  {s t : Process}

/-- Notifications are served in the order in which they were received, each by one goroutine;
only the last one may be without, and then it waits for a place or the context is done. -/
structure Process.Served (s : Process) : Prop where
  notification : ∀ i, (s.tunnels i).notification = s.started[i]?
  received : s.received = s.started ++ s.loop.pc.waiting ∨
    s.loop.done = true ∧ s.loop.pc.isOver ∧ ∃ incoming, s.received = s.started ++ [incoming]

theorem Process.received_advance (s : Process) (l : Loop) (event : Option RunEvent) :
    (s.advance l event).received = s.received ++ event.toList.filterMap RunEvent.received? :=
  List.filterMap_append

theorem Process.started_advance (s : Process) (l : Loop) (event : Option RunEvent) :
    (s.advance l event).started = s.started ++ event.toList.filterMap RunEvent.started? :=
  List.filterMap_append

theorem Process.waits_advance (s : Process) (l : Loop) (event : Option RunEvent) :
    (s.advance l event).waits = s.waits ++ event.toList.filterMap RunEvent.waiting? :=
  List.filterMap_append

/-- A notification is not lost before the loop has left `registerOnce`. -/
theorem Process.Served.received_eq (h : s.Served) (hpc : ¬ s.loop.pc.isOver) :
    s.received = s.started ++ s.loop.pc.waiting :=
  h.received.resolve_right fun hover ↦ hpc hover.2.1

theorem Process.Served.notification_start (h : s.Served) (incoming : RegisterAgentResponse)
    (i : ℕ) :
    (Function.update s.tunnels s.started.length (.running incoming) i).notification =
      (s.started ++ [incoming])[i]? := by
  by_cases hi : i = s.started.length
  · subst hi
    rw [Function.update_self, List.getElem?_concat_length]
    rfl
  · rw [Function.update_of_ne hi, h.notification]
    rcases Nat.lt_or_gt_of_ne hi with hlt | hgt
    · rw [List.getElem?_append_left hlt]
    · rw [List.getElem?_eq_none hgt.le, List.getElem?_eq_none (by simpa using hgt)]

theorem Process.Served.loopMove (h : s.Served) {l : Loop} {event : Option RunEvent}
    (hmove : LoopMove cfg.capacity s.loop l event) : (s.advance l event).Served := by
  have hnotification : event.toList.filterMap RunEvent.started? = [] →
      (∀ i, ((s.advance l event).tunnels i).notification = (s.advance l event).started[i]?) := by
    intro hnil i
    rw [started_advance, hnil, List.append_nil, ← h.notification]
    unfold advance
    split
    · cases hnil
    · rfl
  have hquiet (hpc : ¬ s.loop.pc.isOver) (hwaiting : s.loop.pc.waiting = l.pc.waiting)
      (hreceived : event.toList.filterMap RunEvent.received? = [])
      (hstarted : event.toList.filterMap RunEvent.started? = []) : (s.advance l event).Served := by
    refine ⟨hnotification hstarted, Or.inl ?_⟩
    rw [received_advance, started_advance, hreceived, hstarted]
    simpa [advance, ← hwaiting] using h.received_eq hpc
  cases hmove with
  | dialFailed hpc => exact hquiet (by simp [hpc, RunPc.isOver]) (by rw [hpc]; rfl) rfl rfl
  | dialed hpc => exact hquiet (by simp [hpc, RunPc.isOver]) (by rw [hpc]; rfl) rfl rfl
  | registerFailed hpc => exact hquiet (by simp [hpc, RunPc.isOver]) (by rw [hpc]; rfl) rfl rfl
  | registered hpc => exact hquiet (by simp [hpc, RunPc.isOver]) (by rw [hpc]; rfl) rfl rfl
  | recvFailed hpc => exact hquiet (by simp [hpc, RunPc.isOver]) (by rw [hpc]; rfl) rfl rfl
  | timer hpc => exact hquiet (by simp [hpc, RunPc.isOver]) (by rw [hpc]; rfl) rfl rfl
  | waitDone hpc => exact hquiet (by simp [hpc, RunPc.isOver]) (by rw [hpc]; rfl) rfl rfl
  | received hpc =>
    refine ⟨hnotification rfl, Or.inl ?_⟩
    have hreceived : s.received = s.started := by
      simpa [hpc, RunPc.waiting] using h.received_eq (by simp [hpc, RunPc.isOver])
    rw [received_advance, started_advance, hreceived]
    simp [advance, RunEvent.received?, RunEvent.started?, RunPc.waiting]
  | acquired hpc =>
    have hreceived := h.received_eq (by simp [hpc, RunPc.isOver])
    rw [hpc, RunPc.waiting] at hreceived
    refine ⟨fun i ↦ ?_, Or.inl ?_⟩
    · rw [started_advance]
      exact h.notification_start _ i
    · rw [received_advance, started_advance, hreceived]
      simp [advance, RunEvent.received?, RunEvent.started?, RunPc.waiting]
  | @acquireDone incoming hpc hdone =>
    have hreceived := h.received_eq (by simp [hpc, RunPc.isOver])
    rw [hpc, RunPc.waiting] at hreceived
    refine ⟨hnotification rfl, Or.inr ⟨hdone, trivial, incoming, ?_⟩⟩
    rw [received_advance, started_advance, hreceived]
    simp
  | finished hpc hdone =>
    refine ⟨hnotification rfl, ?_⟩
    rw [received_advance, started_advance]
    have hreceived := h.received
    rw [hpc] at hreceived
    rcases hreceived with hreceived | ⟨-, -, incoming, hreceived⟩
    · left
      simpa [advance, RunPc.waiting] using hreceived
    · right
      exact ⟨hdone, trivial, incoming, by simpa using hreceived⟩
  | pause hpc hdone =>
    refine ⟨hnotification rfl, Or.inl ?_⟩
    have hreceived := h.received.resolve_right fun hover ↦ by simp [hdone] at hover
    rw [hpc] at hreceived
    rw [received_advance, started_advance]
    simpa [advance, List.filterMap_cons, RunEvent.received?, RunEvent.started?, RunPc.waiting]
      using hreceived

theorem TunnelRun.notification_running {tunnel : TunnelRun} (h : tunnel.isRunning) :
    ∃ incoming, tunnel = .running incoming := by
  cases tunnel with
  | running incoming => exact ⟨incoming, rfl⟩
  | idle => exact h.elim
  | ended _ => exact h.elim

theorem Process.Served.move (h : s.Served) (hmove : ProcessMove noise cfg clientCfg known s t) :
    t.Served := by
  cases hmove with
  | loop hloop => exact h.loopMove hloop
  | cancel =>
    refine ⟨h.notification, ?_⟩
    rcases h.received with hreceived | ⟨-, hover, hdropped⟩
    · exact Or.inl hreceived
    · exact Or.inr ⟨rfl, hover, hdropped⟩
  | tunnel _ _ _ => exact ⟨h.notification, h.received⟩
  | @release i incoming hrunning =>
    refine ⟨fun j ↦ ?_, h.received⟩
    have hsame : (TunnelRun.ended incoming).notification = (s.tunnels i).notification := by
      rw [hrunning]
      rfl
    exact (proj_update TunnelRun.notification hsame j).trans (h.notification j)
  | others _ => exact ⟨h.notification, h.received⟩

theorem served_of_reachable (hs : (agentProcess noise cfg clientCfg known).Reachable s) :
    s.Served := by
  refine Machine.invariant ?_ (fun _ _ _ _ h hstep ↦ h.move (processMove_of_step hstep)) hs
  refine ⟨fun _ ↦ rfl, Or.inl ?_⟩
  simp only [agentProcess, runAgentStart]
  split_ifs <;> rfl

/-- The places in use are those of the running goroutines. -/
structure Process.Bounded (cfg : RunConfig) (s : Process) : Prop where
  finite : {i | (s.tunnels i).isRunning}.Finite
  sem : s.loop.sem = {i | (s.tunnels i).isRunning}.ncard
  capacity : s.loop.sem ≤ cfg.capacity

theorem Process.Bounded.move (h : s.Bounded cfg) (hserved : s.Served)
    (hmove : ProcessMove noise cfg clientCfg known s t) : t.Bounded cfg := by
  cases hmove with
  | loop hloop =>
    cases hloop with
    | @acquired incoming _ hsem =>
      have hidle : ¬ (s.tunnels s.started.length).isRunning := by
        intro hrunning
        obtain ⟨m, hm⟩ := TunnelRun.notification_running hrunning
        have hnone := hserved.notification s.started.length
        rw [hm, List.getElem?_eq_none le_rfl] at hnone
        cases hnone
      have hstart : (TunnelRun.running incoming).isRunning := trivial
      refine ⟨?_, ?_, Nat.succ_le_of_lt hsem⟩
      · change {i | TunnelRun.isRunning (Function.update s.tunnels _ _ i)}.Finite
        rw [holders_update_gain hstart]
        exact h.finite.insert _
      · change s.loop.sem + 1 = {i | TunnelRun.isRunning (Function.update s.tunnels _ _ i)}.ncard
        rw [ncard_holders_gain h.finite hidle hstart, h.sem]
    | _ => exact ⟨h.finite, h.sem, h.capacity⟩
  | cancel => exact ⟨h.finite, h.sem, h.capacity⟩
  | tunnel _ _ _ => exact ⟨h.finite, h.sem, h.capacity⟩
  | @release i incoming hrunning =>
    have hi : (s.tunnels i).isRunning := by
      rw [hrunning]
      trivial
    have hend : ¬ (TunnelRun.ended incoming).isRunning := id
    have hcard := ncard_holders_lose h.finite hi hend
    refine ⟨?_, ?_, (Nat.sub_le _ _).trans h.capacity⟩
    · change {i | TunnelRun.isRunning (Function.update s.tunnels _ _ i)}.Finite
      rw [holders_update_lose hend]
      exact h.finite.sdiff
    · change s.loop.sem - 1 = {i | TunnelRun.isRunning (Function.update s.tunnels _ _ i)}.ncard
      rw [h.sem, ← hcard, Nat.add_sub_cancel]
  | others _ => exact ⟨h.finite, h.sem, h.capacity⟩

theorem bounded_of_reachable (hs : (agentProcess noise cfg clientCfg known).Reachable s) :
    s.Bounded cfg := by
  refine Machine.invariant ?_ (fun _ _ _ hr h hstep ↦
    h.move (served_of_reachable hr) (processMove_of_step hstep)) hs
  have hempty : {i : ℕ | (TunnelRun.idle).isRunning} = ∅ := Set.eq_empty_of_forall_notMem fun _ ↦ id
  refine ⟨?_, ?_, Nat.zero_le _⟩
  · change {i : ℕ | (TunnelRun.idle).isRunning}.Finite
    rw [hempty]
    exact Set.finite_empty
  · change 0 = {i : ℕ | (TunnelRun.idle).isRunning}.ncard
    rw [hempty, Set.ncard_empty]

/-- What a step of `handleAgentTunnel` goes on with was read in that step or before, and a target
is opened for what was read before. -/
theorem pending_of_handleAgentTunnel {acfg : AgentConfig} {n : ℕ} {trace events : List SetupEvent}
    {pc pc' : AgentPc} {act : AgentAct}
    (h : handleAgentTunnel noise acfg n trace pc act = some (pc', events)) :
    (∀ incoming, pc'.pending = some incoming →
      incoming ∈ act.reads ∨ pc.pending = some incoming) ∧
    ∀ i incoming, .openTarget i incoming ∈ events → i = n ∧ pc.pending = some incoming := by
  have hquiet {pc' : AgentPc} (hpending : pc'.pending = none) :
      (∀ incoming, pc'.pending = some incoming →
        incoming ∈ act.reads ∨ pc.pending = some incoming) ∧
      ∀ i incoming, .openTarget i incoming ∈ ([] : List SetupEvent) →
        i = n ∧ pc.pending = some incoming := by
    rw [hpending]
    exact ⟨nofun, nofun⟩
  unfold handleAgentTunnel at h
  split at h
  · split_ifs at h
    · cases h
      exact hquiet rfl
    · split at h
      · cases h
        exact hquiet rfl
      · cases h
        exact ⟨fun _ hsome ↦ Or.inl hsome, by simp⟩
  · cases h
    exact hquiet rfl
  · cases h
    exact ⟨fun _ hsome ↦ Or.inr hsome, by simp⟩
  · cases h
    exact hquiet rfl
  · cases h
    refine ⟨nofun, fun i incoming hmem ↦ ?_⟩
    cases List.mem_singleton.mp hmem
    exact ⟨rfl, rfl⟩
  · cases h
    exact hquiet rfl
  · cases h
    exact hquiet rfl
  · split_ifs at h
    · cases h
      exact hquiet rfl
    · cases h
      exact hquiet rfl
  · cases h
    exact hquiet rfl
  · cases h

/-- Every call works on the notification of its goroutine. -/
structure Process.Linked (s : Process) : Prop where
  pending : ∀ i incoming, (s.setup.agents i).pending = some incoming →
    (s.tunnels i).notification = some incoming
  target : ∀ i incoming, .openTarget i incoming ∈ s.setup.trace →
    (s.tunnels i).notification = some incoming

theorem Process.Linked.move (h : s.Linked) (hserved : s.Served)
    (hmove : ProcessMove noise cfg clientCfg known s t) : t.Linked := by
  cases hmove with
  | @loop l event hloop =>
    have hkeep (i : ℕ) (incoming : RegisterAgentResponse)
        (hsome : (s.tunnels i).notification = some incoming) :
        ((s.advance l event).tunnels i).notification = some incoming := by
      rw [(hserved.loopMove hloop).notification, started_advance]
      rw [hserved.notification] at hsome
      rw [List.getElem?_append_left (List.getElem?_eq_some_iff.mp hsome).1, hsome]
    exact ⟨fun i incoming hp ↦ hkeep i incoming (h.pending i incoming hp),
      fun i incoming hmem ↦ hkeep i incoming (h.target i incoming hmem)⟩
  | cancel => exact ⟨h.pending, h.target⟩
  | @tunnel i m act pc events hrunning hreads htunnel =>
    obtain ⟨hpending, htarget⟩ := pending_of_handleAgentTunnel htunnel
    have hi : (s.tunnels i).notification = some m := by
      rw [hrunning]
      rfl
    constructor
    · intro j incoming hsome
      dsimp only at hsome
      by_cases hj : j = i
      · subst hj
        rw [Function.update_self] at hsome
        rcases hpending incoming hsome with hread | hbefore
        · rw [hreads incoming hread]
          exact hi
        · exact h.pending j incoming hbefore
      · rw [Function.update_of_ne hj] at hsome
        exact h.pending j incoming hsome
    · intro j incoming hmem
      rcases List.mem_append.mp hmem with hmem | hmem
      · obtain ⟨rfl, hbefore⟩ := htarget j incoming hmem
        exact h.pending j incoming hbefore
      · exact h.target j incoming hmem
  | @release i m hrunning =>
    have hsame : (TunnelRun.ended m).notification = (s.tunnels i).notification := by
      rw [hrunning]
      rfl
    refine ⟨fun j incoming hp ↦ ?_, fun j incoming hmem ↦ ?_⟩
    · exact (proj_update TunnelRun.notification hsame j).trans (h.pending j incoming hp)
    · exact (proj_update TunnelRun.notification hsame j).trans (h.target j incoming hmem)
  | others hevents =>
    refine ⟨h.pending, fun i incoming hmem ↦ ?_⟩
    exact h.target i incoming ((List.mem_append.mp hmem).resolve_left (hevents i incoming))

theorem linked_of_reachable (hs : (agentProcess noise cfg clientCfg known).Reachable s) :
    s.Linked := by
  refine Machine.invariant ?_ (fun _ _ _ hr h hstep ↦
    h.move (served_of_reachable hr) (processMove_of_step hstep)) hs
  exact ⟨nofun, nofun⟩

/-- The calls of the process are runs of the handshake model. -/
theorem reachable_setup (hs : (agentProcess noise cfg clientCfg known).Reachable s) :
    (setup noise (fun _ ↦ cfg.agent) clientCfg known).Reachable s.setup := by
  refine Machine.reachable_of_refines Process.setup rfl ?_ hs
  intro s act t _ hstep
  cases act with
  | loop act =>
    obtain ⟨⟨l, event⟩, -, rfl⟩ := Option.map_eq_some_iff.mp hstep
    exact Machine.Reaches.refl _
  | cancel =>
    cases hstep
    exact Machine.Reaches.refl _
  | tunnel i act =>
    simp only [agentProcess] at hstep
    split at hstep
    · split_ifs at hstep
      obtain ⟨setup', hsetup, rfl⟩ := Option.map_eq_some_iff.mp hstep
      exact (Machine.Reaches.refl _).tail hsetup
    · cases hstep
  | release i =>
    simp only [agentProcess] at hstep
    split at hstep
    · cases hstep
      exact Machine.Reaches.refl _
    · cases hstep
  | client j act =>
    obtain ⟨setup', hsetup, rfl⟩ := Option.map_eq_some_iff.mp hstep
    exact (Machine.Reaches.refl _).tail hsetup
  | relay message =>
    obtain ⟨setup', hsetup, rfl⟩ := Option.map_eq_some_iff.mp hstep
    exact (Machine.Reaches.refl _).tail hsetup

/-- However often the registration is lost, at most as many goroutines run at a time as the
semaphore has places. The goroutine with number `i` serves the `i`-th notification received on
any registration, so none is served twice, and one that is not served waits for a place or came
when the context was done. A target is opened only for the goroutine's own notification, which a
client with the agent's key has written if the relay does not know the key. -/
theorem agent_serves_each_once (hnoise : noise.Authentic)
    (hagent : cfg.code.routeID.length = routeIDSize)
    (hclients : ∀ j, (clientCfg j).code.routeID.length = routeIDSize)
    (hs : (agentProcess noise cfg clientCfg known).Reachable s) :
    {i | (s.tunnels i).isRunning}.ncard ≤ cfg.capacity ∧
      (∀ i, (s.tunnels i).notification = s.started[i]?) ∧
      (s.received = s.started ++ s.loop.pc.waiting ∨
        s.loop.done = true ∧ ∃ incoming, s.received = s.started ++ [incoming]) ∧
      ∀ i incoming, .openTarget i incoming ∈ s.setup.trace →
        s.received[i]? = some incoming ∧
          (known cfg.code.psk = false →
            ∃ j, .startInitiator j cfg.code.psk cfg.code.routeID incoming.sessionId
              incoming.clientHello ∈ s.setup.trace) := by
  have hserved := served_of_reachable hs
  have hbounded := bounded_of_reachable hs
  refine ⟨hbounded.sem ▸ hbounded.capacity, hserved.notification, ?_, fun i incoming hmem ↦ ?_⟩
  · rcases hserved.received with hreceived | ⟨hdone, -, hdropped⟩
    · exact Or.inl hreceived
    · exact Or.inr ⟨hdone, hdropped⟩
  · have hstarted : s.started[i]? = some incoming := by
      rw [← hserved.notification]
      exact (linked_of_reachable hs).target i incoming hmem
    constructor
    · have hlt : i < s.started.length := (List.getElem?_eq_some_iff.mp hstarted).1
      rcases hserved.received with hreceived | ⟨-, -, _, hreceived⟩
      · rw [hreceived, List.getElem?_append_left hlt, hstarted]
      · rw [hreceived, List.getElem?_append_left hlt, hstarted]
    · intro hpsk
      have hagreed := agreed_of_reachable hnoise (fun _ ↦ hagent) hclients (reachable_setup hs)
      obtain ⟨later, earlier, htrace⟩ := List.append_of_mem hmem
      have hjustified := hagreed.trace
      rw [htrace] at hjustified ⊢
      obtain ⟨j, hj⟩ := hjustified.at_event hpsk
      exact ⟨j, List.mem_append_right later (List.mem_cons_of_mem _ hj)⟩

/-- An agent with one place. -/
def singleConfig : RunConfig := ⟨sharedCode, [0x3a], false, 1⟩

/-- The first notification takes the only place, and its target is opened; the registration is
lost, and the second notification comes on the next one. -/
def overload : List ProcessAct :=
  [.client 0 (.opened none), .client 0 (.openSent none),
    .client 0 (.assigned (.ok (some (.sessionAssigned (List.replicate 16 3)))) (.ok [10])),
    .loop (.dialed none), .loop (.registered none),
    .loop (.received (.ok ⟨1, List.replicate 16 3, [10]⟩)), .loop .acquired,
    .tunnel 0 (.incoming ⟨1, List.replicate 16 3, [10]⟩ (.ok [11])), .tunnel 0 (.accepted none),
    .tunnel 0 (.sent none), .loop (.received (.error .eof)), .loop .checked, .loop .timer,
    .loop (.registered none), .loop (.received (.ok ⟨1, List.replicate 16 4, [20]⟩))]

theorem exists_overload : ∃ s, (agentProcess ideal singleConfig (fun _ ↦ ⟨sharedCode⟩)
      fun _ ↦ false).Reachable s ∧
    s.loop.pc = .acquire ⟨1, List.replicate 16 4, [20]⟩ ∧ s.loop.sem = singleConfig.capacity ∧
      s.waits = [second] ∧ s.registrations = [none, none] ∧
      s.started = [⟨1, List.replicate 16 3, [10]⟩] ∧
      .openTarget 0 ⟨1, List.replicate 16 3, [10]⟩ ∈ s.setup.trace := by
  obtain ⟨s, hexec, hs⟩ := Machine.exists_of_exec
    (M := agentProcess ideal singleConfig (fun _ ↦ ⟨sharedCode⟩) fun _ ↦ false)
    (s := ⟨runAgentStart singleConfig, fun _ ↦ .idle, ⟨fun _ ↦ .start, fun _ ↦ .start, []⟩, []⟩)
    overload
    (fun s ↦ s.loop.pc = .acquire ⟨1, List.replicate 16 4, [20]⟩ ∧
      s.loop.sem = singleConfig.capacity ∧ s.waits = [second] ∧ s.registrations = [none, none] ∧
      s.started = [⟨1, List.replicate 16 3, [10]⟩] ∧
      .openTarget 0 ⟨1, List.replicate 16 3, [10]⟩ ∈ s.setup.trace) (by decide +kernel)
  exact ⟨s, Machine.reaches_of_exec overload hexec, hs⟩

theorem agent_serves_each_once_overload :
    ∃ s, (agentProcess ideal singleConfig (fun _ ↦ ⟨sharedCode⟩) fun _ ↦ false).Reachable s ∧
      {i | (s.tunnels i).isRunning}.ncard ≤ singleConfig.capacity ∧
      (s.tunnels 0).notification = some ⟨1, List.replicate 16 3, [10]⟩ ∧
      (s.received = [⟨1, List.replicate 16 3, [10]⟩, ⟨1, List.replicate 16 4, [20]⟩] ∨
        s.loop.done = true) ∧
      .openTarget 0 ⟨1, List.replicate 16 3, [10]⟩ ∈ s.setup.trace ∧
      s.received[0]? = some ⟨1, List.replicate 16 3, [10]⟩ ∧
      ∃ j, .startInitiator j sharedCode.psk sharedCode.routeID (List.replicate 16 3) [10] ∈
        s.setup.trace := by
  obtain ⟨s, hs, hpc, -, -, -, hstarted, htarget⟩ := exists_overload
  obtain ⟨hbounded, hnotification, hreceived, htargets⟩ :=
    agent_serves_each_once ideal_authentic (by decide) (fun _ ↦ by decide) hs
  obtain ⟨hfirst, hclient⟩ := htargets 0 _ htarget
  refine ⟨s, hs, hbounded, ?_, ?_, htarget, hfirst, hclient rfl⟩
  · rw [hnotification, hstarted]
    rfl
  · rw [hpc, hstarted] at hreceived
    exact hreceived.imp_right And.left

end Service

end RelayCat.Endpoint
