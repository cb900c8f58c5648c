import RelayCat.Endpoint.Serving

/-!
# Registering again

An agent process that loses its registration pauses and registers again, for as long as its
context lives. The pauses double up to half a minute and are never reset. A notification that was
received can always be served in the end: what it waits for is a goroutine that can come to its
end without the loop.
-/

namespace RelayCat.Endpoint

open Go AccessCode Wire Automaton Noise.Handshake

section Pace

variable {noise : Library} {cfg : RunConfig} {clientCfg : ℕ → ClientConfig} {known : Bytes → Bool}
  {s t : Process}

/-- The pause after losing the registration for the `k`-th time. -/
def delay (k : ℕ) : ℕ := min (2 ^ k * second) (30 * second)

theorem delay_zero : delay 0 = second := by simp [delay, second]

theorem delay_succ (k : ℕ) : min (delay k * 2) (30 * second) = delay (k + 1) := by
  simp only [delay, second, pow_succ]
  omega

/-- The loop is neither pausing nor at its end. -/
def RunPc.isActive : RunPc → Prop
  | backoff => False
  | returned _ => False
  | _ => True

/-- The pauses so far, and the next one. -/
structure Process.Paced (s : Process) : Prop where
  waits : s.waits = (List.range s.waits.length).map delay
  backoff : s.loop.pc.isActive → s.loop.backoff = delay s.waits.length
  pausing : s.loop.pc = .backoff → ∃ n, s.waits.length = n + 1 ∧ s.loop.backoff = delay n
  returned : s.loop.pc = .returned none → s.loop.done = true
  fresh : s.loop.pc = .dial ∨ (∃ err, s.loop.pc = .returned (some err)) → s.log = []

theorem Process.Paced.loopMove (h : s.Paced) {l : Loop} {event : Option RunEvent}
    (hmove : LoopMove cfg.capacity s.loop l event) : (s.advance l event).Paced := by
  have hsame (hnone : event.toList.filterMap RunEvent.waiting? = []) :
      (s.advance l event).waits = s.waits := by
    rw [waits_advance, hnone, List.append_nil]
  have hactive (hpc : s.loop.pc.isActive) (hpc' : l.pc.isActive) (hdial : l.pc ≠ .dial)
      (hbackoff : l.backoff = s.loop.backoff)
      (hnone : event.toList.filterMap RunEvent.waiting? = []) : (s.advance l event).Paced := by
    have hreturned (err : Option Err) : l.pc ≠ .returned err := by
      intro heq
      rw [heq] at hpc'
      exact hpc'
    refine ⟨?_, fun _ ↦ ?_, fun heq ↦ ?_, fun heq ↦ absurd heq (hreturned none), ?_⟩
    · rw [hsame hnone]
      exact h.waits
    · rw [hsame hnone]
      exact hbackoff.trans (h.backoff hpc)
    · have hpausing : l.pc = .backoff := heq
      rw [hpausing] at hpc'
      exact hpc'.elim
    · rintro (heq | ⟨err, heq⟩)
      · exact absurd heq hdial
      · exact absurd heq (hreturned _)
  have hover (hdone : s.loop.done = true)
      (hl : l = { s.loop with pc := .returned none }) (hevent : event = none) :
      (s.advance l event).Paced := by
    subst hl hevent
    refine ⟨?_, False.elim, ?_, fun _ ↦ hdone, ?_⟩
    · rw [hsame rfl]
      exact h.waits
    · intro heq
      cases heq
    · rintro (heq | ⟨err, heq⟩)
      · cases heq
      · cases heq
  cases hmove with
  | dialFailed hpc =>
    refine ⟨?_, False.elim, ?_, ?_, fun _ ↦ ?_⟩
    · rw [hsame rfl]
      exact h.waits
    · intro heq
      cases heq
    · intro heq
      cases heq
    · have hlog := h.fresh (Or.inl hpc)
      simp [advance, hlog]
  | dialed hpc => exact hactive (by rw [hpc]; trivial) trivial RunPc.noConfusion rfl rfl
  | registerFailed hpc => exact hactive (by rw [hpc]; trivial) trivial RunPc.noConfusion rfl rfl
  | registered hpc => exact hactive (by rw [hpc]; trivial) trivial RunPc.noConfusion rfl rfl
  | recvFailed hpc => exact hactive (by rw [hpc]; trivial) trivial RunPc.noConfusion rfl rfl
  | received hpc => exact hactive (by rw [hpc]; trivial) trivial RunPc.noConfusion rfl rfl
  | acquired hpc => exact hactive (by rw [hpc]; trivial) trivial RunPc.noConfusion rfl rfl
  | acquireDone hpc => exact hactive (by rw [hpc]; trivial) trivial RunPc.noConfusion rfl rfl
  | finished _ hdone => exact hover hdone rfl rfl
  | waitDone _ hdone => exact hover hdone rfl rfl
  | pause hpc _ =>
    have hbackoff := h.backoff (by rw [hpc]; trivial)
    have hwaits : (s.advance { s.loop with pc := .backoff }
        (some (.waiting s.loop.backoff))).waits = s.waits ++ [delay s.waits.length] := by
      rw [waits_advance, hbackoff]
      rfl
    refine ⟨?_, False.elim, fun _ ↦ ⟨s.waits.length, ?_, hbackoff⟩, ?_, ?_⟩
    · rw [hwaits, List.length_append, List.length_singleton, List.range_succ, List.map_append,
        ← h.waits]
      rfl
    · rw [hwaits, List.length_append, List.length_singleton]
    · intro heq
      cases heq
    · rintro (heq | ⟨err, heq⟩)
      · cases heq
      · cases heq
  | timer hpc =>
    obtain ⟨n, hlength, hbackoff⟩ := h.pausing hpc
    refine ⟨?_, fun _ ↦ ?_, ?_, ?_, ?_⟩
    · rw [hsame rfl]
      exact h.waits
    · rw [hsame rfl, hlength]
      change min (s.loop.backoff * 2) (30 * second) = delay (n + 1)
      rw [hbackoff, delay_succ]
    · intro heq
      cases heq
    · intro heq
      cases heq
    · rintro (heq | ⟨err, heq⟩)
      · cases heq
      · cases heq

theorem Process.Paced.move (h : s.Paced) (hmove : ProcessMove noise cfg clientCfg known s t) :
    t.Paced := by
  cases hmove with
  | loop hloop => exact h.loopMove hloop
  | cancel => exact ⟨h.waits, h.backoff, h.pausing, fun _ ↦ rfl, h.fresh⟩
  | tunnel _ _ _ => exact ⟨h.waits, h.backoff, h.pausing, h.returned, h.fresh⟩
  | release _ => exact ⟨h.waits, h.backoff, h.pausing, h.returned, h.fresh⟩
  | others _ => exact ⟨h.waits, h.backoff, h.pausing, h.returned, h.fresh⟩

theorem paced_of_reachable (hs : (agentProcess noise cfg clientCfg known).Reachable s) :
    s.Paced := by
  refine Machine.invariant ?_ (fun _ _ _ _ h hstep ↦ h.move (processMove_of_step hstep)) hs
  refine ⟨rfl, fun _ ↦ delay_zero.symm, ?_, ?_, fun _ ↦ rfl⟩
  · simp only [agentProcess, runAgentStart]
    split_ifs
    · intro heq
      cases heq
    · intro heq
      cases heq
  · simp only [agentProcess, runAgentStart]
    split_ifs
    · intro heq
      cases heq
    · intro heq
      cases heq

/-- The pause before each new registration is twice the one before, up to half a minute, also
after registrations that lasted. The loop ends with an error only before its first call of
`RegisterAgent`, and without one only when the context is done. -/
theorem agent_backs_off (hs : (agentProcess noise cfg clientCfg known).Reachable s) :
    s.waits = (List.range s.waits.length).map delay ∧
      (s.loop.pc = .returned none → s.loop.done = true) ∧
      ∀ err, s.loop.pc = .returned (some err) → s.registrations = [] ∧ s.log = [] := by
  have hpaced := paced_of_reachable hs
  refine ⟨hpaced.waits, hpaced.returned, fun err herr ↦ ?_⟩
  have hlog := hpaced.fresh (Or.inr ⟨err, herr⟩)
  exact ⟨by rw [Process.registrations, hlog, List.filterMap_nil], hlog⟩

/-- The relay cannot be dialed. -/
def undialed : List ProcessAct := [.loop (.dialed (some .eof))]

/-- The context is done while the agent is registered. -/
def cancelled : List ProcessAct :=
  [.loop (.dialed none), .loop (.registered none), .cancel,
    .loop (.received (.error .canceled)), .loop .checked]

theorem agent_backs_off_overload :
    ∃ s t u, (agentProcess ideal singleConfig (fun _ ↦ ⟨sharedCode⟩) fun _ ↦ false).Reachable s ∧
      (agentProcess ideal singleConfig (fun _ ↦ ⟨sharedCode⟩) fun _ ↦ false).Reachable t ∧
      (agentProcess ideal singleConfig (fun _ ↦ ⟨sharedCode⟩) fun _ ↦ false).Reachable u ∧
      s.registrations = [none, none] ∧ s.waits = (List.range 1).map delay ∧
      t.loop.pc = .returned (some .eof) ∧ t.registrations = [] ∧ t.log = [] ∧
      u.loop.pc = .returned none ∧ u.loop.done = true := by
  obtain ⟨s, hs, -, -, hwaits, hregistrations, -⟩ := exists_overload
  obtain ⟨t, htexec, htpc⟩ := Machine.exists_of_exec
    (M := agentProcess ideal singleConfig (fun _ ↦ ⟨sharedCode⟩) fun _ ↦ false)
    (s := ⟨runAgentStart singleConfig, fun _ ↦ .idle, ⟨fun _ ↦ .start, fun _ ↦ .start, []⟩, []⟩)
    undialed (fun t ↦ t.loop.pc = .returned (some .eof)) rfl
  obtain ⟨u, huexec, hupc⟩ := Machine.exists_of_exec
    (M := agentProcess ideal singleConfig (fun _ ↦ ⟨sharedCode⟩) fun _ ↦ false)
    (s := ⟨runAgentStart singleConfig, fun _ ↦ .idle, ⟨fun _ ↦ .start, fun _ ↦ .start, []⟩, []⟩)
    cancelled (fun u ↦ u.loop.pc = .returned none) rfl
  have ht := Machine.reaches_of_exec undialed htexec
  have hu := Machine.reaches_of_exec cancelled huexec
  have hlength : s.waits.length = 1 := by rw [hwaits, List.length_singleton]
  obtain ⟨hfresh, hlog⟩ := (agent_backs_off ht).2.2 .eof htpc
  exact ⟨s, t, u, hs, ht, hu, hregistrations, hlength ▸ (agent_backs_off hs).1, htpc, hfresh, hlog,
    hupc, (agent_backs_off hu).2.1 hupc⟩

end Pace

section Progress

variable (noise : Library) (cfg : RunConfig) (clientCfg : ℕ → ClientConfig) (known : Bytes → Bool)
  {s : Process} {i : ℕ} {incoming : RegisterAgentResponse}

theorem RunConfig.capacity_pos (cfg : RunConfig) : 0 < cfg.capacity := by
  unfold capacity
  split_ifs <;> omega

theorem exists_tunnel_step (hrunning : s.tunnels i = .running incoming) {act : AgentAct}
    {pc : AgentPc} {events : List SetupEvent} (hreads : ∀ read ∈ act.reads, read = incoming)
    (h : handleAgentTunnel noise cfg.agent i s.setup.trace (s.setup.agents i) act =
      some (pc, events)) :
    ∃ setup, (agentProcess noise cfg clientCfg known).Reaches s { s with setup := setup } ∧
      setup.agents i = pc := by
  refine ⟨{ s.setup with
    agents := Function.update s.setup.agents i pc
    trace := events ++ s.setup.trace }, ?_, Function.update_self ..⟩
  refine (Machine.Reaches.refl s).tail (a := .tunnel i act) ?_
  have hcalls : (calls noise cfg clientCfg known).step s.setup (.agent i act) =
      some { s.setup with
        agents := Function.update s.setup.agents i pc
        trace := events ++ s.setup.trace } := by
    simp only [calls, setup, h, Option.map_some]
  simp only [agentProcess, hrunning, if_pos hreads, hcalls, Option.map_some]

/-- A goroutine whose handler is at work can come to its end. -/
theorem exists_tunnel_returned (hrunning : s.tunnels i = .running incoming) :
    ∃ setup errs, (agentProcess noise cfg clientCfg known).Reaches s { s with setup := setup } ∧
      setup.agents i = .returned errs := by
  have hlast {s : Process} (hrunning : s.tunnels i = .running incoming) (act : AgentAct)
      {errs : List Err} {events : List SetupEvent} (hreads : ∀ read ∈ act.reads, read = incoming)
      (h : handleAgentTunnel noise cfg.agent i s.setup.trace (s.setup.agents i) act =
        some (.returned errs, events)) :
      ∃ setup errs, (agentProcess noise cfg clientCfg known).Reaches s { s with setup := setup } ∧
        setup.agents i = .returned errs := by
    obtain ⟨setup', hreach, hpc⟩ := exists_tunnel_step noise cfg clientCfg known hrunning hreads h
    exact ⟨setup', errs, hreach, hpc⟩
  have hnone {act : AgentAct} (hact : act.reads = none) : ∀ read ∈ act.reads, read = incoming := by
    intro read hread
    rw [hact] at hread
    cases hread
  cases hpc : s.setup.agents i with
  | start =>
    have hreads : ∀ read ∈ (AgentAct.incoming incoming (.error .eof)).reads, read = incoming := by
      rintro read ⟨⟩
      rfl
    have hstep : ∃ errs events, handleAgentTunnel noise cfg.agent i s.setup.trace
        (s.setup.agents i) (.incoming incoming (.error .eof)) = some (.returned errs, events) := by
      rw [hpc]
      simp only [handleAgentTunnel]
      split_ifs
      · exact ⟨_, _, rfl⟩
      · simp only [respond]
        split_ifs
        · exact ⟨_, _, rfl⟩
        · exact ⟨_, _, rfl⟩
        · exact ⟨_, _, rfl⟩
    obtain ⟨errs, events, hstep⟩ := hstep
    exact hlast hrunning _ hreads hstep
  | accept m hello =>
    exact hlast hrunning (.accepted (some .eof)) (hnone rfl) (by rw [hpc]; rfl)
  | send m hello => exact hlast hrunning (.sent (some .eof)) (hnone rfl) (by rw [hpc]; rfl)
  | openTarget m =>
    exact hlast hrunning (.target (some .eof)) (hnone rfl) (by rw [hpc]; rfl)
  | handlerDone m err =>
    exact hlast hrunning (.handlerReturned none) (hnone rfl) (by rw [hpc]; rfl)
  | bridge m =>
    by_cases hhandler : cfg.agent.handler = true
    · have hstep : handleAgentTunnel noise cfg.agent i s.setup.trace (s.setup.agents i)
          (.bridged none) = some (.handlerDone m none, []) := by
        rw [hpc]
        simp only [handleAgentTunnel, hhandler, if_true]
      obtain ⟨setup', hreach, hdone⟩ :=
        exists_tunnel_step noise cfg clientCfg known hrunning (hnone rfl) hstep
      obtain ⟨setup'', errs, hreach', hreturned⟩ := hlast (s := { s with setup := setup' })
        hrunning (.handlerReturned none) (hnone rfl) (by rw [hdone]; rfl)
      exact ⟨setup'', errs, hreach.trans hreach', hreturned⟩
    · have hstep : handleAgentTunnel noise cfg.agent i s.setup.trace (s.setup.agents i)
          (.bridged none) = some (.returned [], []) := by
        rw [hpc]
        simp only [handleAgentTunnel, hhandler]
        rfl
      exact hlast hrunning _ (hnone rfl) hstep
  | returned errs => exact ⟨s.setup, errs, Machine.Reaches.refl s, hpc⟩

/-- A place can be given back whenever one is taken. -/
theorem exists_release (hrunning : s.tunnels i = .running incoming) :
    ∃ t, (agentProcess noise cfg clientCfg known).Reaches s t ∧ t.log = s.log ∧
      t.loop = { s.loop with sem := s.loop.sem - 1 } := by
  obtain ⟨setup', errs, hreach, hreturned⟩ :=
    exists_tunnel_returned noise cfg clientCfg known hrunning
  refine ⟨{ s with
    loop := { s.loop with sem := s.loop.sem - 1 }
    tunnels := Function.update s.tunnels i (.ended incoming)
    setup := setup' }, hreach.tail (a := .release i) ?_, rfl, rfl⟩
  simp only [agentProcess, hrunning, hreturned]

/-- A notification that waits for a place can always get one: the goroutines never wait for the
loop. -/
theorem agent_can_start (hs : (agentProcess noise cfg clientCfg known).Reachable s)
    (hpc : s.loop.pc = .acquire incoming) :
    ∃ t, (agentProcess noise cfg clientCfg known).Reaches s t ∧
      t.started = s.started ++ [incoming] ∧ t.loop.pc = .recv := by
  have hstart {s : Process} (hpc : s.loop.pc = .acquire incoming)
      (hsem : s.loop.sem < cfg.capacity) :
      ∃ t, (agentProcess noise cfg clientCfg known).Reaches s t ∧
        t.started = s.started ++ [incoming] ∧ t.loop.pc = .recv := by
    refine ⟨s.advance { s.loop with pc := .recv, sem := s.loop.sem + 1 } (some (.started incoming)),
      (Machine.Reaches.refl s).tail (a := .loop .acquired) ?_, ?_, rfl⟩
    · simp only [agentProcess, runAgent, hpc, if_pos hsem, Option.map_some]
    · rw [Process.started_advance]
      rfl
  have hbounded := bounded_of_reachable hs
  by_cases hsem : s.loop.sem < cfg.capacity
  · exact hstart hpc hsem
  · have hpos : 0 < {i | (s.tunnels i).isRunning}.ncard := by
      rw [← hbounded.sem]
      exact cfg.capacity_pos.trans_le (not_lt.mp hsem)
    obtain ⟨i, hi⟩ := (Set.ncard_pos hbounded.finite).mp hpos
    obtain ⟨m, hm⟩ := TunnelRun.notification_running hi
    obtain ⟨t, hreach, hlog, hloop⟩ :=
      exists_release noise cfg clientCfg known hm
    have hstarted : t.started = s.started := by
      rw [Process.started, hlog, Process.started]
    have hless : t.loop.sem < cfg.capacity := by
      rw [hloop]
      have hle := hbounded.capacity
      have hcapacity := cfg.capacity_pos
      simp only
      omega
    obtain ⟨u, hreach', hu, hrecv⟩ := hstart (s := t) (by rw [hloop]; exact hpc) hless
    exact ⟨u, hreach.trans hreach', by rw [hu, hstarted], hrecv⟩

theorem agent_can_start_overload :
    ∃ s t, (agentProcess ideal singleConfig (fun _ ↦ ⟨sharedCode⟩) fun _ ↦ false).Reaches s t ∧
      s.loop.sem = singleConfig.capacity ∧
      t.started = [⟨1, List.replicate 16 3, [10]⟩, ⟨1, List.replicate 16 4, [20]⟩] := by
  obtain ⟨s, hs, hpc, hsem, -, -, hstarted, -⟩ := exists_overload
  obtain ⟨t, hreach, ht, -⟩ := agent_can_start _ _ _ _ hs hpc
  refine ⟨s, t, hreach, hsem, ?_⟩
  rw [ht, hstarted]
  rfl

end Progress

end RelayCat.Endpoint
