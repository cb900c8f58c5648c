import RelayCat.Relay.Pipes

/-!
# No tunnel outlives its agent's registration

The cleanup of `RegisterAgent` cancels the sessions that are in the map at that instant, while
`Connect` reserves, inserts and notifies in separate steps. A call that has passed the
notification is in the map, so the cleanup reaches it; one that has not can no longer pass it,
because nobody receives from `incoming` any more.
-/

namespace RelayCat.Relay

open Go Wire Automaton

/-- The call holds a reservation and has not completed the `select` on `incoming`. -/
def ConnectPc.unnotified : ConnectPc → Bool
  | .allocating | .assigning | .recvHandshake | .inserting _ | .notifying _ => true
  | _ => false

/-- The call has handed its notification over and has not begun to return. -/
def ConnectPc.notified : ConnectPc → Bool
  | .awaitReady | .accepting | .forwarding => true
  | _ => false

/-- The call has begun to return. -/
def ConnectPc.exiting : ConnectPc → Bool
  | .deleting _ | .cancelling _ | .releasing _ | .returned _ => true
  | _ => false

theorem ConnectPc.phase_of_notified {pc : ConnectPc} (h : pc.notified = true) :
    pc.phase = .listed := by
  cases pc <;> simp_all [notified, phase]

theorem ConnectPc.cases_of_not_early {pc : ConnectPc} (h : pc.phase ≠ .early) :
    pc.notified = true ∨ pc.exiting = true ∨ pc.unnotified = true := by
  cases pc <;> simp_all [notified, exiting, unnotified, phase]

theorem ConnectPc.not_notified {pc : ConnectPc} (h : pc.unnotified = true) :
    pc.notified = false := by
  cases pc <;> simp_all [unnotified, notified]

/-- The call has passed its registration, or was refused. -/
def RegisterPc.started : RegisterPc → Bool
  | .idle | .registering => false
  | _ => true

/-- The sessions that the cleanup has still to cancel, once it has closed `done`. -/
def RegisterPc.remaining : RegisterPc → Option (List ℕ)
  | .cancelling _ todo => some todo
  | .returned _ => some []
  | _ => none

theorem ConnectMove.notified {c c' : ConnectCall} {offline : Bool} {ev : ConnectLocal}
    (hmove : ConnectMove c offline ev c') (hn : c'.pc.notified = true) :
    c.pc.notified = true ∧ c'.agent = c.agent ∧ (c.ctx ≠ none → c'.ctx ≠ none) := by
  cases hmove with
  | streamDone e => exact ⟨hn, rfl, fun _ ↦ by simp⟩
  | ready hpc _ => exact ⟨by simp [hpc, ConnectPc.notified], rfl, id⟩
  | accepted hpc => exact ⟨by simp [hpc, ConnectPc.notified], rfl, id⟩
  | forward ev h _ => exact ⟨hn, rfl, id⟩
  | _ => contradiction

theorem ConnectCall.StreamInv.greeting_lt {c : ConnectCall} (h : c.StreamInv)
    (hunnotified : c.pc.unnotified = true) : c.greeting.length < 2 := by
  cases hpc : c.pc with
  | allocating => simp [h.greeted 0 (by rw [hpc]; rfl)]
  | assigning => simp [h.greeted 0 (by rw [hpc]; rfl)]
  | recvHandshake => simp [h.greeted 1 (by rw [hpc]; rfl), ConnectCall.preamble]
  | inserting _ => simp [h.greeted 1 (by rw [hpc]; rfl), ConnectCall.preamble]
  | notifying _ => simp [h.greeted 1 (by rw [hpc]; rfl), ConnectCall.preamble]
  | _ => simp [hpc, ConnectPc.unnotified] at hunnotified

/-- A call past its reservation that is not notified stays so on its own. -/
theorem ConnectMove.stranded {c c' : ConnectCall} {offline : Bool} {ev : ConnectLocal}
    (hmove : ConnectMove c offline ev c') (hstream : c.StreamInv) (hlate : c.pc.phase ≠ .early)
    (hnotified : c.pc.notified = false) (hgreeting : c.greeting.length < 2) :
    c'.agent = c.agent ∧ c'.pc.phase ≠ .early ∧ c'.pc.notified = false ∧
      c'.greeting.length < 2 := by
  cases hmove with
  | assigned hpc =>
    have hnil : c.greeting = [] := hstream.greeted 0 (by rw [hpc]; rfl)
    simp [hnil, ConnectPc.phase, ConnectPc.notified]
  | called hpc => simp [hpc, ConnectPc.phase] at hlate
  | opened _ _ hpc => simp [hpc, ConnectPc.phase] at hlate
  | openRefused _ _ hpc => simp [hpc, ConnectPc.phase] at hlate
  | ready hpc _ => simp [hpc, ConnectPc.notified] at hnotified
  | accepted hpc => simp [hpc, ConnectPc.notified] at hnotified
  | streamDone e => exact ⟨rfl, hlate, hnotified, hgreeting⟩
  | forward ev h _ => exact ⟨rfl, hlate, hnotified, hgreeting⟩
  | _ => simp [ConnectPc.phase, ConnectPc.notified, hgreeting]

namespace Service

variable {cfg : Config} {s t : Service} {a : Act}

theorem ConnStep.before_notified {j : ℕ} {c : ConnectCall} (hstep : ConnStep s a j c)
    (hn : c.pc.notified = true) :
    ((s.conn j).pc.notified = true ∧ c.agent = (s.conn j).agent ∧
      ((s.conn j).ctx ≠ none → c.ctx ≠ none)) ∨
    ∃ b, c.agent = some b ∧ (s.reg b).pc = .serving := by
  cases hstep with
  | same => exact .inl ⟨hn, rfl, id⟩
  | own ev c hmove _ => exact .inl (hmove.notified hn)
  | cancelled => exact .inl ⟨hn, rfl, fun _ ↦ by simp⟩
  | madeReady _ _ => exact .inl ⟨hn, rfl, id⟩
  | handed _ _ => exact .inl ⟨hn, rfl, id⟩
  | took _ _ => exact .inl ⟨hn, rfl, id⟩
  | notified b clientHello _ hagent hserving => exact .inr ⟨b, hagent, hserving⟩
  | _ => contradiction

theorem RegStep.started {q : ℕ} {c : RegisterCall} (hstep : RegStep s t q c)
    (h : (s.reg q).pc.started = true) : c.pc.started = true := by
  cases hstep with
  | same => exact h
  | own ev c hmove =>
    cases hmove with
    | called req hpc _ => simp [hpc, RegisterPc.started] at h
    | streamDone e => exact h
    | _ => rfl
  | reserved => exact h
  | released => exact h
  | _ => rfl

theorem RegStep.remaining {q : ℕ} {c : RegisterCall} {todo : List ℕ} (hstep : RegStep s t q c)
    (hrem : c.pc.remaining = some todo) :
    (s.reg q).pc.remaining = some todo ∨ (s.reg q).pc.started = false ∨
    ((∃ result, (s.reg q).pc = .closing result) ∧ todo = s.sessionsOf q) ∨
    ∃ j old, (s.reg q).pc.remaining = some old ∧ todo = old.filter (· ≠ j) ∧
      (t.conn j).ctx ≠ none := by
  cases hstep with
  | same => exact .inl hrem
  | own ev c hmove =>
    cases hmove with
    | refused req e hpc => exact .inr (.inl (by simp [hpc, RegisterPc.started]))
    | streamDone e => exact .inl hrem
    | _ => contradiction
  | refused e hpc => exact .inr (.inl (by simp [hpc, RegisterPc.started]))
  | doneClosed result hpc => exact .inr (.inr (.inl ⟨⟨result, hpc⟩, (Option.some.inj hrem).symm⟩))
  | sessionCancelled j result old hpc hctx =>
    refine .inr (.inr (.inr ⟨j, old, by simp [hpc, RegisterPc.remaining], ?_, hctx⟩))
    exact (Option.some.inj hrem).symm
  | unlocked result hpc => exact .inl (by simpa [hpc, RegisterPc.remaining] using hrem)
  | reserved => exact .inl hrem
  | released => exact .inl hrem
  | _ => contradiction

/-- The agent of a call is fixed by the reservation. -/
theorem ConnStep.agent {j r : ℕ} {c : ConnectCall} (hstep : ConnStep s a j c)
    (hagent : c.agent = some r) :
    (s.conn j).agent = some r ∨ ∃ key, s.agents.lookup key = some r := by
  cases hstep with
  | own ev c hmove _ =>
    refine .inl (hagent ▸ ?_)
    cases hmove <;> rfl
  | reserved b routeId _ hlookup => exact .inr ⟨routeId, hagent ▸ hlookup⟩
  | _ => exact .inl hagent

/-- Reservations are held only on agents that have registered. -/
theorem started_of_reachable (h : (machine cfg).Reachable s) {i r : ℕ}
    (hagent : (s.conn i).agent = some r) : (s.reg r).pc.started = true := by
  refine Machine.invariant (I := fun s : Service ↦ ∀ i r, (s.conn i).agent = some r →
    (s.reg r).pc.started = true) ?_ ?_ h i r hagent
  · intro i r hnone
    simp [machine] at hnone
  · intro s a t hr hs hstep i r hagent
    have hstep := step_of_step hstep
    refine (hstep.reg r).started ?_
    rcases (hstep.conn i).agent hagent with hsome | ⟨key, hlookup⟩
    · exact hs i r hsome
    · obtain ⟨hreg, _⟩ := ((agentsInv_of_reachable hr).owner key r).mp hlookup
      cases hpc : (s.reg r).pc <;> simp_all [RegisterPc.registered, RegisterPc.started]

/-- Once `done` is closed, a notified call on that agent is cancelled or about to be. -/
def LifetimeInv (s : Service) : Prop :=
  ∀ r i todo, (s.reg r).pc.remaining = some todo → (s.conn i).agent = some r →
    (s.conn i).pc.notified = true → (s.conn i).ctx ≠ none ∨ i ∈ todo

theorem Step.lifetimeInv (hstep : Step cfg s a t) (hsessions : SessionsInv s)
    (hstarted : ∀ i r, (s.conn i).agent = some r → (s.reg r).pc.started = true)
    (h : LifetimeInv s) : LifetimeInv t := by
  intro r i todo hrem hagent hnotified
  rcases (hstep.conn i).before_notified hnotified with ⟨hbefore, hsame, hctx⟩ | ⟨b, hb, hserving⟩
  · have hagent' : (s.conn i).agent = some r := hsame.symm.trans hagent
    rcases (hstep.reg r).remaining hrem with hrem' | hnot | ⟨_, rfl⟩ | ⟨j, old, hold, rfl, hcancel⟩
    · exact (h r i todo hrem' hagent' hbefore).imp_left hctx
    · exact absurd (hstarted i r hagent') (by simp [hnot])
    · have hlisted : (s.conn i).Listed (s.conn i).sid :=
        ⟨ConnectPc.phase_of_notified hbefore, rfl⟩
      exact .inr (mem_sessionsOf ((hsessions.entry _ i).mpr hlisted) hagent')
    · rcases h r i old hold hagent' hbefore with hdone | hmem
      · exact .inl (hctx hdone)
      · by_cases hij : i = j
        · exact .inl (hij ▸ hcancel)
        · exact .inr (List.mem_filter.mpr ⟨hmem, by simpa using hij⟩)
  · obtain rfl : b = r := Option.some.inj (hb.symm.trans hagent)
    have hremaining := (hstep.reg b).remaining hrem
    simp [hserving, RegisterPc.remaining, RegisterPc.started] at hremaining

theorem lifetimeInv_of_reachable (h : (machine cfg).Reachable s) (hids : s.drawn.Nodup) :
    LifetimeInv s := by
  refine Machine.invariant (I := fun s : Service ↦ s.drawn.Nodup → LifetimeInv s) ?_ ?_ h hids
  · intro _ r i todo _ hagent
    simp [machine] at hagent
  · intro s a t hr hs hstep hids
    have hstep := step_of_step hstep
    have hids := hstep.sessions.nodup_drawn hids
    exact hstep.lifetimeInv (sessionsInv_of_reachable hr hids) (fun i r ↦ started_of_reachable hr)
      (hs hids)

/-- A call that holds a reservation on an agent which has left, and was not notified in time. -/
structure Stranded (s : Service) (r i : ℕ) : Prop where
  closed : (s.reg r).pc.remaining ≠ none
  agent : (s.conn i).agent = some r
  late : (s.conn i).pc.phase ≠ .early
  notified : (s.conn i).pc.notified = false
  greeting : (s.conn i).greeting.length < 2

theorem RegStep.closed {q : ℕ} {c : RegisterCall} (hstep : RegStep s t q c)
    (h : (s.reg q).pc.remaining ≠ none) : c.pc.remaining ≠ none := by
  cases hstep with
  | same => exact h
  | own ev c hmove => cases hmove <;> simp_all [RegisterPc.remaining]
  | reserved => exact h
  | released => exact h
  | _ => simp_all [RegisterPc.remaining]

theorem ConnStep.stranded {j r : ℕ} {c : ConnectCall} (hstep : ConnStep s a j c)
    (hstream : (s.conn j).StreamInv) (h : Stranded s r j) :
    c.agent = some r ∧ c.pc.phase ≠ .early ∧ c.pc.notified = false ∧ c.greeting.length < 2 := by
  obtain ⟨hclosed, hagent, hlate, hnotified, hgreeting⟩ := h
  cases hstep with
  | own ev c hmove _ =>
    obtain ⟨hsame, hrest⟩ := hmove.stranded hstream hlate hnotified hgreeting
    exact ⟨hsame.trans hagent, hrest⟩
  | notified b clientHello _ hb hserving =>
    obtain rfl : b = r := Option.some.inj (hb.symm.trans hagent)
    simp [hserving, RegisterPc.remaining] at hclosed
  | reserveRefused _ _ hpc => simp [hpc, ConnectPc.phase] at hlate
  | reserved _ _ hpc _ => simp [hpc, ConnectPc.phase] at hlate
  | same => exact ⟨hagent, hlate, hnotified, hgreeting⟩
  | cancelled => exact ⟨hagent, hlate, hnotified, hgreeting⟩
  | madeReady _ _ => exact ⟨hagent, hlate, hnotified, hgreeting⟩
  | handed _ _ => exact ⟨hagent, hlate, hnotified, hgreeting⟩
  | took _ _ => exact ⟨hagent, hlate, hnotified, hgreeting⟩
  | _ => simp [ConnectPc.phase, ConnectPc.notified, hgreeting, hagent]

theorem Step.stranded (hstep : Step cfg s a t) {r i : ℕ} (hstream : (s.conn i).StreamInv)
    (h : Stranded s r i) : Stranded t r i := by
  obtain ⟨hagent, hlate, hnotified, hgreeting⟩ := (hstep.conn i).stranded hstream h
  exact ⟨(hstep.reg r).closed h.closed, hagent, hlate, hnotified, hgreeting⟩

theorem Stranded.frames {r i : ℕ} (h : Stranded s r i) (hstream : (s.conn i).StreamInv) :
    ∀ f ∈ (s.conn i).frames, f = .sessionAssigned (s.conn i).sid := by
  intro f hf
  have hfwd := hstream.idle h.greeting
  have hpre := List.prefix_take_iff.mpr ⟨hstream.within, Nat.le_of_lt_succ h.greeting⟩
  unfold ConnectCall.frames at hf
  rw [hfwd] at hf
  have hmem := hpre.subset (by simpa using hf)
  simpa [ConnectCall.preamble] using hmem

/-- Once the cleanup of `RegisterAgent` has closed `done` and cancelled the sessions it found,
every `Connect` call that still holds a reservation on that agent is cancelled, has begun to
return, or has not completed the notification; and in the last case it sends the client nothing
beyond `SessionAssigned`, whatever happens afterwards. -/
theorem no_tunnel_outlives_registration (cfg : Config) {s : Service}
    (h : (machine cfg).Reachable s) (hids : s.drawn.Nodup) {r i : ℕ}
    (hclean : (s.reg r).done = true ∧ (s.reg r).pc.remaining = some [])
    (hholds : (s.conn i).Holds r) :
    ((s.conn i).ctx ≠ none ∨ (s.conn i).pc.exiting = true ∨ (s.conn i).pc.unnotified = true) ∧
    ((s.conn i).pc.unnotified = true → ∀ t, (machine cfg).Reaches s t →
      ∀ f ∈ (t.conn i).frames, f = .sessionAssigned (t.conn i).sid) := by
  obtain ⟨hagent, _⟩ := hholds
  have hinv := connInv_of_reachable h i
  have hstream := connStream_of_reachable h i
  have hlate : (s.conn i).pc.phase ≠ .early := by
    intro hearly
    unfold ConnectCall.Inv at hinv
    rw [hearly] at hinv
    exact absurd (hinv.1.symm.trans hagent) (by simp)
  refine ⟨?_, fun hunnotified t hreach ↦ ?_⟩
  · rcases ConnectPc.cases_of_not_early hlate with hnotified | hrest
    · have hctx := lifetimeInv_of_reachable h hids r i [] hclean.2 hagent hnotified
      exact .inl (hctx.resolve_right List.not_mem_nil)
    · exact .inr hrest
  · have hstranded : Stranded s r i := by
      refine ⟨by simp [hclean.2], hagent, hlate, ?_, ?_⟩
      · exact ConnectPc.not_notified hunnotified
      · exact hstream.greeting_lt hunnotified
    have hboth : (machine cfg).Reachable t ∧ Stranded t r i := by
      refine Machine.Reaches.preserve (I := fun t ↦ (machine cfg).Reachable t ∧ Stranded t r i)
        ?_ hreach ⟨h, hstranded⟩
      intro u a v hu hstep
      exact ⟨hu.1.tail hstep,
        (step_of_step hstep).stranded (connStream_of_reachable hu.1 i) hu.2⟩
    exact hboth.2.frames (connStream_of_reachable hboth.1 i)

/-- The agent leaves before the client has sent its handshake, and its route is registered again
by another call. -/
def sampleDeparture : List Act :=
  [.register 0 (.own (.call ⟨1, sampleRoute⟩)), .register 0 .register, .connect 0 (.own .call),
    .connect 0 (.own (.recv (.ok (.clientOpen 1 sampleRoute)))), .connect 0 .reserveAgent,
    .connect 0 (.randRead (some sampleSid)), .connect 0 (.own (.sendAssigned none)),
    .register 0 (.own (.streamDone .canceled)), .register 0 (.own .ctxDone), .register 0 .lock,
    .register 0 .closeDone, .register 0 .unlock, .register 1 (.own (.call ⟨1, sampleRoute⟩)),
    .register 1 .register]

theorem no_tunnel_outlives_registration_sampleDeparture :
    ∃ s, (machine sampleConfig).exec {} sampleDeparture = some s ∧
      ((s.reg 0).done = true ∧ (s.reg 0).pc.remaining = some [] ∧ s.drawn.Nodup ∧
        (s.conn 0).agent = some 0 ∧ (s.conn 0).released = 0 ∧ (s.conn 0).pc.unnotified = true ∧
        s.agents.lookup sampleRoute = some 1) ∧
      ∀ t, (machine sampleConfig).Reaches s t →
        ∀ f ∈ (t.conn 0).frames, f = .sessionAssigned (t.conn 0).sid := by
  obtain ⟨s, hexec, hs⟩ := Machine.exists_of_exec (M := machine sampleConfig) (s := {})
    sampleDeparture (fun s ↦ (s.reg 0).done = true ∧ (s.reg 0).pc.remaining = some [] ∧
      s.drawn.Nodup ∧ (s.conn 0).agent = some 0 ∧ (s.conn 0).released = 0 ∧
      (s.conn 0).pc.unnotified = true ∧ s.agents.lookup sampleRoute = some 1) (by decide +kernel)
  have hs' := hs
  obtain ⟨hdone, hrem, hids, hagent, hreleased, hunnotified, _⟩ := hs
  exact ⟨s, hexec, hs', (no_tunnel_outlives_registration sampleConfig
    (Machine.reaches_of_exec sampleDeparture hexec) hids ⟨hdone, hrem⟩
    ⟨hagent, hreleased⟩).2 hunnotified⟩

end Service

end RelayCat.Relay
