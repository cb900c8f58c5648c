import RelayCat.Relay.Pipes

/-!
# The metrics of the relay

`Connect` updates `TunnelOpens` and `Tunnels` outside the mutex, each in a step of its own
between the calls of `reserveAgent` and `releaseAgent`, and `recvClient` and `recvAgent` add to
`Bytes` after a payload has crossed the channel. The service is run with these updates as
further actions: a goroutine takes no other step before the update it owes. The counters, which
Prometheus keeps as floating point numbers, are natural numbers here.

At every instant each metric differs from the number it stands for by exactly the calls that
are between the two.
-/

namespace RelayCat.Relay

open Go Wire Automaton

/-- Where a `Connect` call is with its updates of `TunnelOpens` and `Tunnels`. -/
inductive MeterPc where
  | quiet
  | rejecting
  | rejected
  | opening
  | entering
  | counted
  | leaving
  | left
  deriving DecidableEq, Repr

/-- The service with its metrics; `clientOwes` and `agentOwes` hold the payloads that have
crossed a channel and are not yet in `Bytes`. -/
structure Metered where
  service : Service := {}
  accepted : ℕ := 0
  rejected : ℕ := 0
  tunnels : ℤ := 0
  clientToAgent : ℕ := 0
  agentToClient : ℕ := 0
  meter : ℕ → MeterPc := fun _ ↦ .quiet
  clientOwes : ℕ → Option Bytes := fun _ ↦ none
  agentOwes : ℕ → Option Bytes := fun _ ↦ none

inductive MeterAct where
  | service (a : Act)
  | openCounted (i : ℕ)
  | tunnelsInc (i : ℕ)
  | tunnelsDec (i : ℕ)
  | clientAdd (i : ℕ)
  | agentAdd (n : ℕ)
  deriving DecidableEq, Repr

namespace Metered

/-- The goroutine that takes the step owes no update. -/
def admits (m : Metered) : Act → Bool
  | .connect i (.randRead _) => m.meter i = .counted
  | .connect i (.own (.forward (.recv _))) => m.clientOwes i = none
  | .accept n (.own (.forward (.recv _))) => m.agentOwes n = none
  | _ => true

/-- The updates that a step of the service makes its goroutine owe. -/
def record (m : Metered) (t : Service) : Act → Metered
  | .connect i .reserveAgent =>
    { m with
      service := t
      meter := Function.update m.meter i
        (if (t.conn i).agent = none then .rejecting else .opening) }
  | .connect i .releaseAgent =>
    { m with service := t, meter := Function.update m.meter i .leaving }
  | .clientToAgent n =>
    match (m.service.acc n).session with
    | some i =>
      { m with
        service := t
        clientOwes := Function.update m.clientOwes i
          ((m.service.conn i).fwd.handOver.map Prod.fst) }
    | none => { m with service := t }
  | .agentToClient n =>
    { m with
      service := t
      agentOwes := Function.update m.agentOwes n
        ((m.service.acc n).fwd.handOver.map Prod.fst) }
  | _ => { m with service := t }

def step (cfg : Config) (m : Metered) : MeterAct → Option Metered
  | .service a =>
    if m.admits a then (m.service.step cfg a).map fun t ↦ m.record t a else none
  | .openCounted i =>
    match m.meter i with
    | .rejecting => some { m with
        rejected := m.rejected + 1, meter := Function.update m.meter i .rejected }
    | .opening => some { m with
        accepted := m.accepted + 1, meter := Function.update m.meter i .entering }
    | _ => none
  | .tunnelsInc i =>
    match m.meter i with
    | .entering => some { m with
        tunnels := m.tunnels + 1, meter := Function.update m.meter i .counted }
    | _ => none
  | .tunnelsDec i =>
    match m.meter i with
    | .leaving => some { m with
        tunnels := m.tunnels - 1, meter := Function.update m.meter i .left }
    | _ => none
  | .clientAdd i =>
    (m.clientOwes i).map fun payload ↦ { m with
      clientToAgent := m.clientToAgent + payload.length
      clientOwes := Function.update m.clientOwes i none }
  | .agentAdd n =>
    (m.agentOwes n).map fun payload ↦ { m with
      agentToClient := m.agentToClient + payload.length
      agentOwes := Function.update m.agentOwes n none }

/-- The relay and the collectors of its process. -/
def machine (cfg : Config) : Machine Metered MeterAct where
  init := {}
  step := step cfg.withDefaults

end Metered

/-- Steps that take or give back a reservation. -/
def Act.reserves : Act → Bool
  | .connect _ .reserveAgent | .connect _ .releaseAgent => true
  | _ => false

/-- Steps in which a payload crosses a channel. -/
def Act.crosses : Act → Bool
  | .clientToAgent _ | .agentToClient _ => true
  | _ => false

namespace Metered

/-- Everything a step of the service with its metrics can do. -/
inductive Move (cfg : Config) (m : Metered) : Metered → Prop
  | silent (a : Act) (t : Service) : Service.Step cfg m.service a t → m.admits a = true →
      a.reserves = false → a.crosses = false → Move cfg m { m with service := t }
  | rejecting (i : ℕ) (t : Service) : Service.Step cfg m.service (.connect i .reserveAgent) t →
      (t.conn i).agent = none →
      Move cfg m { m with service := t, meter := Function.update m.meter i .rejecting }
  | opening (i : ℕ) (t : Service) : Service.Step cfg m.service (.connect i .reserveAgent) t →
      (t.conn i).agent ≠ none →
      Move cfg m { m with service := t, meter := Function.update m.meter i .opening }
  | leaving (i : ℕ) (t : Service) : Service.Step cfg m.service (.connect i .releaseAgent) t →
      Move cfg m { m with service := t, meter := Function.update m.meter i .leaving }
  | clientCrossed (n i : ℕ) (payload : Bytes) (t : Service) :
      Service.Step cfg m.service (.clientToAgent n) t → (m.service.acc n).session = some i →
      (m.service.conn i).fwd.pump = .handing payload →
      Move cfg m { m with
        service := t, clientOwes := Function.update m.clientOwes i (some payload) }
  | agentCrossed (n : ℕ) (payload : Bytes) (t : Service) :
      Service.Step cfg m.service (.agentToClient n) t →
      (m.service.acc n).fwd.pump = .handing payload →
      Move cfg m { m with
        service := t, agentOwes := Function.update m.agentOwes n (some payload) }
  | rejected (i : ℕ) : m.meter i = .rejecting →
      Move cfg m { m with
        rejected := m.rejected + 1, meter := Function.update m.meter i .rejected }
  | accepted (i : ℕ) : m.meter i = .opening →
      Move cfg m { m with
        accepted := m.accepted + 1, meter := Function.update m.meter i .entering }
  | entered (i : ℕ) : m.meter i = .entering →
      Move cfg m { m with
        tunnels := m.tunnels + 1, meter := Function.update m.meter i .counted }
  | left (i : ℕ) : m.meter i = .leaving →
      Move cfg m { m with tunnels := m.tunnels - 1, meter := Function.update m.meter i .left }
  | clientAdded (i : ℕ) (payload : Bytes) : m.clientOwes i = some payload →
      Move cfg m { m with
        clientToAgent := m.clientToAgent + payload.length
        clientOwes := Function.update m.clientOwes i none }
  | agentAdded (n : ℕ) (payload : Bytes) : m.agentOwes n = some payload →
      Move cfg m { m with
        agentToClient := m.agentToClient + payload.length
        agentOwes := Function.update m.agentOwes n none }

variable {cfg : Config} {m m' : Metered}

theorem move_of_record {a : Act} {t : Service} (hadmits : m.admits a = true)
    (hstep : Service.Step cfg m.service a t) : Move cfg m (m.record t a) := by
  cases a with
  | connect i ev =>
    cases ev with
    | reserveAgent =>
      simp only [record]
      split_ifs with hagent
      · exact .rejecting i t hstep hagent
      · exact .opening i t hstep hagent
    | releaseAgent => exact .leaving i t hstep
    | _ => exact .silent _ t hstep hadmits rfl rfl
  | clientToAgent n =>
    obtain ⟨i, payload, hsession, hpump⟩ : ∃ i payload, (m.service.acc n).session = some i ∧
        (m.service.conn i).fwd.pump = .handing payload := by
      cases hstep with
      | clientToAgent _ i payload hsession hpump _ => exact ⟨i, payload, hsession, hpump⟩
    simp only [record, hsession, Handler.handOver, hpump]
    exact .clientCrossed n i payload t hstep hsession hpump
  | agentToClient n =>
    obtain ⟨payload, hpump⟩ : ∃ payload, (m.service.acc n).fwd.pump = .handing payload := by
      cases hstep with
      | agentToClient _ i payload _ hpump _ => exact ⟨payload, hpump⟩
    simp only [record, Handler.handOver, hpump]
    exact .agentCrossed n payload t hstep hpump
  | _ => exact .silent _ t hstep hadmits rfl rfl

theorem move_of_step {a : MeterAct} (h : m.step cfg a = some m') : Move cfg m m' := by
  cases a with
  | service a =>
    obtain ⟨hadmits, h⟩ := Option.ite_none_right_eq_some.mp h
    obtain ⟨t, hstep, rfl⟩ := Option.map_eq_some_iff.mp h
    exact move_of_record hadmits (Service.step_of_step hstep)
  | openCounted i =>
    simp only [step] at h
    split at h
    · cases h
      exact .rejected i ‹_›
    · cases h
      exact .accepted i ‹_›
    · contradiction
  | tunnelsInc i =>
    simp only [step] at h
    split at h
    · cases h
      exact .entered i ‹_›
    · contradiction
  | tunnelsDec i =>
    simp only [step] at h
    split at h
    · cases h
      exact .left i ‹_›
    · contradiction
  | clientAdd i =>
    obtain ⟨payload, howes, rfl⟩ := Option.map_eq_some_iff.mp h
    exact .clientAdded i payload howes
  | agentAdd n =>
    obtain ⟨payload, howes, rfl⟩ := Option.map_eq_some_iff.mp h
    exact .agentAdded n payload howes

theorem record_service (t : Service) (a : Act) : (m.record t a).service = t := by
  unfold record
  split
  · rfl
  · rfl
  · split <;> rfl
  · rfl
  · rfl

/-- The updates are invisible to the service. -/
theorem reachable_service (h : (machine cfg).Reachable m) :
    (Service.machine cfg).Reachable m.service := by
  refine Machine.reachable_of_refines (N := Service.machine cfg) Metered.service rfl ?_ h
  intro s a t _ hstep
  cases a with
  | service a =>
    obtain ⟨_, hstep⟩ := Option.ite_none_right_eq_some.mp hstep
    obtain ⟨u, hservice, rfl⟩ := Option.map_eq_some_iff.mp hstep
    rw [record_service]
    exact (Machine.Reaches.refl _).tail (a := a) hservice
  | clientAdd i =>
    obtain ⟨payload, _, rfl⟩ := Option.map_eq_some_iff.mp hstep
    exact Machine.Reaches.refl _
  | agentAdd n =>
    obtain ⟨payload, _, rfl⟩ := Option.map_eq_some_iff.mp hstep
    exact Machine.Reaches.refl _
  | _ =>
    simp only [machine, step] at hstep
    split at hstep <;> cases hstep <;> exact Machine.Reaches.refl _

end Metered

/-- The call is between its reservation and its session id, or has returned. -/
def ConnectPc.parked : ConnectPc → Bool
  | .allocating | .returned _ => true
  | _ => false

/-- What `reserveAgent` and `releaseAgent` did for the call. -/
def ConnectCall.reservation (c : ConnectCall) : Option ℕ × ℕ × Bool :=
  (c.agent, c.released, c.refused)

theorem ConnectMove.reservation {c c' : ConnectCall} {offline : Bool} {ev : ConnectLocal}
    (hmove : ConnectMove c offline ev c') : c'.reservation = c.reservation := by
  cases hmove <;> rfl

theorem ConnectMove.parked {c c' : ConnectCall} {offline : Bool} {ev : ConnectLocal}
    (hmove : ConnectMove c offline ev c') (hparked : c.pc.parked = true) : c'.pc = c.pc := by
  cases hmove with
  | streamDone e => rfl
  | forward ev h _ => rfl
  | refused ev e hphase => cases hpc : c.pc <;> simp_all [ConnectPc.parked, ConnectPc.phase]
  | left ev result hphase _ => cases hpc : c.pc <;> simp_all [ConnectPc.parked, ConnectPc.phase]
  | _ => simp_all [ConnectPc.parked]

namespace Service

variable {cfg : Config} {s t : Service} {a : Act}

/-- Only `reserveAgent` and `releaseAgent` change who holds a reservation. -/
theorem Step.reservation (hstep : Step cfg s a t) (ha : a.reserves = false) (j : ℕ) :
    (t.conn j).reservation = (s.conn j).reservation := by
  have hkeep : ∀ i c, c.reservation = (s.conn i).reservation →
      (Function.update s.conn i c j).reservation = (s.conn j).reservation := fun i c h ↦
    proj_update ConnectCall.reservation h j
  cases hstep with
  | connectOwn i ev c hmove => exact hkeep i c hmove.reservation
  | sessionCancelled r i result todo _ _ => exact hkeep i _ rfl
  | randFailed i e _ => exact hkeep i _ rfl
  | drew i sid _ _ => exact hkeep i _ rfl
  | inserted i clientHello _ _ => exact hkeep i _ rfl
  | deleted i result _ _ => exact hkeep i _ rfl
  | acceptCancelled n i result _ _ => exact hkeep i _ rfl
  | notified i b clientHello _ _ _ => exact hkeep i _ rfl
  | clientToAgent n i payload _ _ _ => exact hkeep i _ rfl
  | agentToClient n i payload _ _ _ => exact hkeep i _ rfl
  | found n i _ _ _ =>
    simp only [setAcc_conn, makeReady]
    split_ifs
    · rfl
    · exact hkeep i _ rfl
  | reserveRefused i routeId e _ => contradiction
  | reserved i b routeId _ _ _ _ => contradiction
  | released i b result _ _ _ => contradiction
  | _ => rfl

/-- A parked call moves only by drawing its session id. -/
theorem Step.parked (hstep : Step cfg s a t) {j : ℕ}
    (ha : ∀ result, a ≠ .connect j (.randRead result)) (hparked : (s.conn j).pc.parked = true) :
    (t.conn j).pc = (s.conn j).pc := by
  have hkeep : ∀ i c, ((s.conn i).pc.parked = true → i = j → c.pc = (s.conn i).pc) →
      (Function.update s.conn i c j).pc = (s.conn j).pc := by
    intro i c h
    by_cases hj : j = i
    · subst hj
      rw [Function.update_self]
      exact h hparked rfl
    · rw [Function.update_of_ne hj]
  have hunparked : ∀ i pc, (s.conn i).pc = pc → pc.parked = false → ∀ c : ConnectCall,
      (s.conn i).pc.parked = true → i = j → c.pc = (s.conn i).pc := by
    intro i pc hpc hno c hyes _
    rw [hpc, hno] at hyes
    contradiction
  cases hstep with
  | connectOwn i ev c hmove => exact hkeep i c fun h _ ↦ hmove.parked h
  | sessionCancelled r i result todo _ _ => exact hkeep i _ fun _ _ ↦ rfl
  | reserveRefused i routeId e hpc => exact hkeep i _ (hunparked i _ hpc rfl _)
  | reserved i b routeId hpc _ _ _ => exact hkeep i _ (hunparked i _ hpc rfl _)
  | randFailed i e _ => exact hkeep i _ fun _ hi ↦ absurd (by rw [hi]) (ha none)
  | drew i sid _ _ => exact hkeep i _ fun _ hi ↦ absurd (by rw [hi]) (ha (some sid))
  | inserted i clientHello hpc _ => exact hkeep i _ (hunparked i _ hpc rfl _)
  | deleted i result hpc _ => exact hkeep i _ (hunparked i _ hpc rfl _)
  | released i b result hpc _ _ => exact hkeep i _ (hunparked i _ hpc rfl _)
  | acceptCancelled n i result _ _ => exact hkeep i _ fun _ _ ↦ rfl
  | notified i b clientHello hpc _ _ => exact hkeep i _ (hunparked i _ hpc rfl _)
  | clientToAgent n i payload _ _ _ => exact hkeep i _ fun _ _ ↦ rfl
  | agentToClient n i payload _ _ _ => exact hkeep i _ fun _ _ ↦ rfl
  | found n i _ _ _ =>
    simp only [setAcc_conn, makeReady]
    split_ifs
    · rfl
    · exact hkeep i _ fun _ _ ↦ rfl
  | _ => rfl

/-- What `reserveAgent` does to the calls. -/
theorem Step.of_reserveAgent {i : ℕ} (hstep : Step cfg s (.connect i .reserveAgent) t) :
    (s.conn i).pc.phase = .early ∧ (∀ j, j ≠ i → t.conn j = s.conn j) ∧
      (((t.conn i).agent = (s.conn i).agent ∧ (t.conn i).pc.phase = .returned ∧
          (t.conn i).refused = true) ∨
        ((t.conn i).agent ≠ none ∧ (t.conn i).pc = .allocating ∧
          (t.conn i).refused = (s.conn i).refused)) := by
  cases hstep with
  | reserveRefused _ routeId e hpc =>
    refine ⟨by rw [hpc]; rfl, fun j hj ↦ Function.update_of_ne hj .., .inl ?_⟩
    simp [ConnectPc.phase]
  | reserved _ b routeId hpc _ _ _ =>
    refine ⟨by rw [hpc]; rfl, fun j hj ↦ Function.update_of_ne hj .., .inr ?_⟩
    simp

/-- What `releaseAgent` does to the calls. -/
theorem Step.of_releaseAgent {i : ℕ} (hstep : Step cfg s (.connect i .releaseAgent) t) :
    (s.conn i).pc.phase = .cancelled ∧ (∀ j, j ≠ i → t.conn j = s.conn j) ∧
      (t.conn i).agent = (s.conn i).agent ∧
      (t.conn i).released = (s.conn i).released + 1 ∧
      (t.conn i).refused = (s.conn i).refused := by
  cases hstep with
  | released _ b result hpc _ _ =>
    refine ⟨by rw [hpc]; rfl, fun j hj ↦ Function.update_of_ne hj .., ?_⟩
    simp

end Service

/-- What a call's position among its updates says about the call. -/
def MeterPc.Agrees (c : ConnectCall) : MeterPc → Prop
  | .quiet => c.agent = none
  | .rejecting | .rejected => c.agent = none ∧ c.pc.phase = .returned
  | .opening | .entering => c.pc = .allocating
  | .counted => c.agent ≠ none ∧ c.released = 0
  | .leaving | .left => c.agent ≠ none ∧ c.released = 1

/-- The positions of a call that was refused. -/
def MeterPc.refuses : MeterPc → Bool
  | .rejecting | .rejected => true
  | _ => false

theorem ConnectPc.parked_of_returned {pc : ConnectPc} (h : pc.phase = .returned) :
    pc.parked = true := by
  cases pc <;> simp_all [phase, parked]

namespace MeterPc

variable {p : MeterPc} {c c' : ConnectCall}

theorem Agrees.congr (h : p.Agrees c) (hsame : c'.reservation = c.reservation)
    (hpc : p ≠ .counted → c.pc.parked = true → c'.pc = c.pc) : p.Agrees c' := by
  obtain ⟨hagent, hrest⟩ := Prod.mk.inj hsame
  have hreleased := (Prod.mk.inj hrest).1
  cases p with
  | quiet => exact hagent.trans h
  | rejecting =>
    refine ⟨hagent.trans h.1, ?_⟩
    rw [hpc (by simp) (ConnectPc.parked_of_returned h.2)]
    exact h.2
  | rejected =>
    refine ⟨hagent.trans h.1, ?_⟩
    rw [hpc (by simp) (ConnectPc.parked_of_returned h.2)]
    exact h.2
  | opening => exact (hpc (by simp) (by rw [h]; rfl)).trans h
  | entering => exact (hpc (by simp) (by rw [h]; rfl)).trans h
  | counted => exact ⟨hagent ▸ h.1, hreleased.trans h.2⟩
  | leaving => exact ⟨hagent ▸ h.1, hreleased.trans h.2⟩
  | left => exact ⟨hagent ▸ h.1, hreleased.trans h.2⟩

/-- A call that has not reserved has made no update. -/
theorem Agrees.quiet_of_early (h : p.Agrees c) (hinv : c.Inv) (hphase : c.pc.phase = .early) :
    p = .quiet := by
  unfold ConnectCall.Inv at hinv
  rw [hphase] at hinv
  cases p <;> simp_all [Agrees, ConnectPc.phase]

/-- A call that gives its reservation back is in the gauge. -/
theorem Agrees.counted_of_cancelled (h : p.Agrees c) (hinv : c.Inv)
    (hphase : c.pc.phase = .cancelled) : p = .counted := by
  unfold ConnectCall.Inv at hinv
  rw [hphase] at hinv
  cases p <;> simp_all [Agrees, ConnectPc.phase]

end MeterPc

namespace Metered

variable {cfg : Config} {m m' : Metered}

/-- Every call agrees with its position. -/
def Agrees (m : Metered) : Prop := ∀ i, (m.meter i).Agrees (m.service.conn i)

theorem Agrees.update {i : ℕ} {p : MeterPc} (h : m.Agrees) {t : Service}
    (hother : ∀ j, j ≠ i → t.conn j = m.service.conn j) (hp : p.Agrees (t.conn i)) (j : ℕ) :
    (Function.update m.meter i p j).Agrees (t.conn j) := by
  by_cases hj : j = i
  · subst hj
    rwa [Function.update_self]
  · rw [Function.update_of_ne hj, hother j hj]
    exact h j

theorem Move.agrees (hmove : Move cfg m m') (hinv : ∀ i, (m.service.conn i).Inv)
    (h : m.Agrees) : m'.Agrees := by
  cases hmove with
  | silent a t hstep hadmits hreserves _ =>
    intro j
    refine (h j).congr (hstep.reservation hreserves j) fun hp hparked ↦ ?_
    refine hstep.parked (fun result ha ↦ ?_) hparked
    subst ha
    exact hp (by simpa [admits] using hadmits)
  | rejecting i t hstep hagent =>
    obtain ⟨_, hother, hcase⟩ := hstep.of_reserveAgent
    refine h.update hother ⟨hagent, ?_⟩
    rcases hcase with ⟨_, hpc, _⟩ | ⟨hne, _⟩
    · exact hpc
    · exact absurd hagent hne
  | opening i t hstep hagent =>
    obtain ⟨hearly, hother, hcase⟩ := hstep.of_reserveAgent
    refine h.update hother ?_
    rcases hcase with ⟨hsame, _⟩ | ⟨_, hpc, _⟩
    · have hi := hinv i
      unfold ConnectCall.Inv at hi
      rw [hearly] at hi
      exact absurd (hsame.trans hi.1) hagent
    · exact hpc
  | leaving i t hstep =>
    obtain ⟨hphase, hother, hagent, hreleased, _⟩ := hstep.of_releaseAgent
    have hcounted := h i
    rw [hcounted.counted_of_cancelled (hinv i) hphase] at hcounted
    refine h.update hother ⟨hagent ▸ hcounted.1, ?_⟩
    rw [hreleased, hcounted.2]
  | clientCrossed n i payload t hstep _ _ =>
    intro j
    refine (h j).congr (hstep.reservation rfl j) fun _ hparked ↦ ?_
    exact hstep.parked (by simp) hparked
  | agentCrossed n payload t hstep _ =>
    intro j
    refine (h j).congr (hstep.reservation rfl j) fun _ hparked ↦ ?_
    exact hstep.parked (by simp) hparked
  | rejected i hi =>
    have hbefore := h i
    rw [hi] at hbefore
    exact h.update (fun _ _ ↦ rfl) hbefore
  | accepted i hi =>
    have hbefore := h i
    rw [hi] at hbefore
    exact h.update (fun _ _ ↦ rfl) hbefore
  | entered i hi =>
    have hbefore := h i
    have hi' := hinv i
    rw [hi] at hbefore
    unfold ConnectCall.Inv at hi'
    rw [hbefore] at hi'
    exact h.update (fun _ _ ↦ rfl) ⟨hi'.1, hi'.2.2.2.2⟩
  | left i hi =>
    have hbefore := h i
    rw [hi] at hbefore
    exact h.update (fun _ _ ↦ rfl) hbefore
  | clientAdded i payload _ => exact h
  | agentAdded n payload _ => exact h

theorem agrees_of_reachable (h : (machine cfg).Reachable m) : m.Agrees := by
  refine Machine.invariant (fun _ ↦ rfl) (fun s a t hr hs hstep ↦ ?_) h
  exact (move_of_step hstep).agrees (Service.connInv_of_reachable (reachable_service hr)) hs

/-- The calls that `reserveAgent` has refused are the ones that count themselves as rejected. -/
def Refused (m : Metered) : Prop := ∀ i, (m.service.conn i).refused = (m.meter i).refuses

theorem Refused.update {i : ℕ} {p : MeterPc} (h : m.Refused) {t : Service}
    (hother : ∀ j, j ≠ i → t.conn j = m.service.conn j) (hp : (t.conn i).refused = p.refuses)
    (j : ℕ) : (t.conn j).refused = (Function.update m.meter i p j).refuses := by
  by_cases hj : j = i
  · subst hj
    rwa [Function.update_self]
  · rw [Function.update_of_ne hj, hother j hj]
    exact h j

theorem Refused.advance {i : ℕ} {p q : MeterPc} (h : m.Refused) (hi : m.meter i = p)
    (hsame : p.refuses = q.refuses) (j : ℕ) :
    (m.service.conn j).refused = (Function.update m.meter i q j).refuses :=
  h.update (fun _ _ ↦ rfl) (by rw [h i, hi, hsame]) j

theorem Move.refused (hmove : Move cfg m m') (hinv : ∀ i, (m.service.conn i).Inv)
    (hagrees : m.Agrees) (h : m.Refused) : m'.Refused := by
  have hkeep {a : Act} {t : Service} (hstep : Service.Step cfg m.service a t)
      (ha : a.reserves = false) (j : ℕ) : (t.conn j).refused = (m.meter j).refuses :=
    (congrArg (fun x ↦ x.2.2) (hstep.reservation ha j)).trans (h j)
  cases hmove with
  | silent a t hstep _ hreserves _ => exact hkeep hstep hreserves
  | rejecting i t hstep hagent =>
    obtain ⟨_, hother, hcase⟩ := hstep.of_reserveAgent
    refine h.update hother ?_
    rcases hcase with ⟨_, _, hrefused⟩ | ⟨hne, _⟩
    · exact hrefused
    · exact absurd hagent hne
  | opening i t hstep hagent =>
    obtain ⟨hearly, hother, hcase⟩ := hstep.of_reserveAgent
    have hquiet := (hagrees i).quiet_of_early (hinv i) hearly
    refine h.update hother ?_
    rcases hcase with ⟨hsame, _⟩ | ⟨_, _, hrefused⟩
    · have hi := hagrees i
      rw [hquiet] at hi
      exact absurd (hsame.trans hi) hagent
    · rw [hrefused, h i, hquiet]
      rfl
  | leaving i t hstep =>
    obtain ⟨hphase, hother, _, _, hrefused⟩ := hstep.of_releaseAgent
    refine h.update hother ?_
    rw [hrefused, h i, (hagrees i).counted_of_cancelled (hinv i) hphase]
    rfl
  | clientCrossed n i payload t hstep _ _ => exact hkeep hstep rfl
  | agentCrossed n payload t hstep _ => exact hkeep hstep rfl
  | rejected i hi => exact h.advance hi rfl
  | accepted i hi => exact h.advance hi rfl
  | entered i hi => exact h.advance hi rfl
  | left i hi => exact h.advance hi rfl
  | clientAdded i payload _ => exact h
  | agentAdded n payload _ => exact h

theorem refused_of_reachable (h : (machine cfg).Reachable m) : m.Refused := by
  refine Machine.invariant (fun _ ↦ rfl) (fun s a t hr hs hstep ↦ ?_) h
  exact (move_of_step hstep).refused (Service.connInv_of_reachable (reachable_service hr))
    (agrees_of_reachable hr) hs

end Metered

namespace MeterPc

/-- The call is in the `Tunnels` gauge. -/
def inTunnels (p : MeterPc) : Prop := p = .counted ∨ p = .leaving

/-- The call is in `TunnelOpens` as accepted. -/
def inAccepted (p : MeterPc) : Prop := p = .entering ∨ p.inTunnels ∨ p = .left

/-- The call has its reservation and is not in the gauge yet. -/
def uncounted (p : MeterPc) : Prop := p = .opening ∨ p = .entering

instance : DecidablePred inTunnels := fun p ↦ inferInstanceAs (Decidable (p = _ ∨ p = _))

instance : DecidablePred inAccepted := fun p ↦ inferInstanceAs (Decidable (p = _ ∨ _ ∨ p = _))

end MeterPc

namespace Metered

variable {cfg : Config} {m m' : Metered}

/-- Each counter of tunnels is the number of calls that have made its update. -/
structure Tallied (m : Metered) : Prop where
  finite : {i | m.meter i ≠ .quiet}.Finite
  tunnels : m.tunnels = {i | (m.meter i).inTunnels}.ncard
  accepted : m.accepted = {i | (m.meter i).inAccepted}.ncard
  rejected : m.rejected = {i | m.meter i = .rejected}.ncard

/-- The calls at given positions other than the first are finitely many. -/
theorem Tallied.finite_of (h : m.Tallied) {P : MeterPc → Prop} (hquiet : ¬ P .quiet) :
    {i | P (m.meter i)}.Finite := by
  refine h.finite.subset fun i hi hquiet' ↦ hquiet ?_
  rw [← hquiet']
  exact hi

/-- One call moves on, and the counters with it. -/
theorem Tallied.update (h : m.Tallied) {i : ℕ} {p q : MeterPc} (hi : m.meter i = p)
    (hmeter : m'.meter = Function.update m.meter i q)
    (htunnels : m'.tunnels + (if p.inTunnels then 1 else 0) =
      m.tunnels + (if q.inTunnels then 1 else 0))
    (haccepted : m'.accepted + (if p.inAccepted then 1 else 0) =
      m.accepted + (if q.inAccepted then 1 else 0))
    (hrejected : m'.rejected + (if p = .rejected then 1 else 0) =
      m.rejected + (if q = .rejected then 1 else 0)) : m'.Tallied := by
  have hin := ncard_holders_update (P := MeterPc.inTunnels) (f := m.meter)
    (h.finite_of (by decide)) i q
  have hacc := ncard_holders_update (P := MeterPc.inAccepted) (f := m.meter)
    (h.finite_of (by decide)) i q
  have hrej := ncard_holders_update (P := fun x ↦ x = MeterPc.rejected) (f := m.meter)
    (h.finite_of (P := fun x ↦ x = .rejected) (by decide)) i q
  rw [hi] at hin hacc hrej
  refine ⟨?_, ?_, ?_, ?_⟩ <;> rw [hmeter]
  · exact finite_holders_update (P := fun x ↦ x ≠ MeterPc.quiet) h.finite i q
  · have htotal := h.tunnels
    split_ifs at htunnels hin <;> omega
  · have htotal := h.accepted
    omega
  · have htotal := h.rejected
    omega

theorem Move.tallied (hmove : Move cfg m m') (hinv : ∀ i, (m.service.conn i).Inv)
    (hagrees : m.Agrees) (h : m.Tallied) : m'.Tallied := by
  cases hmove with
  | silent a t _ _ _ _ => exact ⟨h.finite, h.tunnels, h.accepted, h.rejected⟩
  | rejecting i t hstep _ =>
    have hquiet := (hagrees i).quiet_of_early (hinv i) hstep.of_reserveAgent.1
    exact h.update hquiet rfl rfl rfl rfl
  | opening i t hstep _ =>
    have hquiet := (hagrees i).quiet_of_early (hinv i) hstep.of_reserveAgent.1
    exact h.update hquiet rfl rfl rfl rfl
  | leaving i t hstep =>
    have hcounted := (hagrees i).counted_of_cancelled (hinv i) hstep.of_releaseAgent.1
    exact h.update hcounted rfl rfl rfl rfl
  | clientCrossed n i payload t _ _ _ => exact ⟨h.finite, h.tunnels, h.accepted, h.rejected⟩
  | agentCrossed n payload t _ _ => exact ⟨h.finite, h.tunnels, h.accepted, h.rejected⟩
  | rejected i hi => exact h.update hi rfl rfl rfl rfl
  | accepted i hi => exact h.update hi rfl rfl rfl rfl
  | entered i hi => exact h.update hi rfl (by simp [MeterPc.inTunnels]) rfl rfl
  | left i hi => exact h.update hi rfl (by simp [MeterPc.inTunnels]) rfl rfl
  | clientAdded i payload _ => exact ⟨h.finite, h.tunnels, h.accepted, h.rejected⟩
  | agentAdded n payload _ => exact ⟨h.finite, h.tunnels, h.accepted, h.rejected⟩

theorem tallied_init : Tallied {} where
  finite := by simp
  tunnels := by simp [MeterPc.inTunnels]
  accepted := by simp [MeterPc.inAccepted, MeterPc.inTunnels]
  rejected := by simp

theorem tallied_of_reachable (h : (machine cfg).Reachable m) : m.Tallied := by
  refine Machine.invariant tallied_init (fun s a t hr hs hstep ↦ ?_) h
  exact (move_of_step hstep).tallied (Service.connInv_of_reachable (reachable_service hr))
    (agrees_of_reachable hr) hs

end Metered

/-- A step by which the goroutine hands nothing over and, unless it receives a frame, stays
where it waits for one. -/
def Handler.Keeps (receives : Prop) (h h' : Handler) : Prop :=
  h'.handed = h.handed ∧ (h.pump = .receiving → ¬ receives → h'.pump = .receiving)

theorem Handler.keeps_of_same {receives : Prop} {h h' : Handler} (hhanded : h'.handed = h.handed)
    (hpump : h'.pump = h.pump) : h.Keeps receives h' :=
  ⟨hhanded, fun hreceiving _ ↦ hpump.trans hreceiving⟩

theorem Handler.Move.keeps {F : Type} {getCiphertext : F → Option Bytes}
    {onDone : CtxErr → Option Err} {ctx : Option CtxErr} {h h' : Handler} {ev : HandlerEvent F}
    (hmove : Handler.Move getCiphertext onDone ctx h ev h') :
    h.Keeps (∃ result, ev = .recv result) h' := by
  cases hmove with
  | recvFailed e _ => exact ⟨rfl, fun _ hno ↦ absurd ⟨_, rfl⟩ hno⟩
  | recvOther frame _ _ => exact ⟨rfl, fun _ hno ↦ absurd ⟨_, rfl⟩ hno⟩
  | received frame payload _ _ => exact ⟨rfl, fun _ hno ↦ absurd ⟨_, rfl⟩ hno⟩
  | gaveUp payload e hpump _ => exact ⟨rfl, fun hreceiving ↦ by simp [hpump] at hreceiving⟩
  | _ => exact keeps_of_same rfl rfl

theorem ConnectMove.keeps {c c' : ConnectCall} {offline : Bool} {ev : ConnectLocal}
    (hmove : ConnectMove c offline ev c') (hstream : c.StreamInv) :
    c.fwd.Keeps (∃ result, ev = .forward (.recv result)) c'.fwd := by
  cases hmove with
  | accepted hpc =>
    have hone := hstream.greeted 1 (by rw [hpc]; rfl)
    have hidle := hstream.idle (by simp [hone, ConnectCall.preamble])
    refine ⟨?_, fun _ _ ↦ rfl⟩
    rw [hidle]
    rfl
  | forward ev h hmove =>
    refine ⟨hmove.keeps.1, fun hreceiving hno ↦ hmove.keeps.2 hreceiving ?_⟩
    rintro ⟨result, rfl⟩
    exact hno ⟨result, rfl⟩
  | _ => exact Handler.keeps_of_same rfl rfl

theorem AcceptMove.keeps {c c' : AcceptCall} {ctx : Option CtxErr} {ev : AcceptLocal}
    (hmove : AcceptMove c ctx ev c') :
    c.fwd.Keeps (∃ result, ev = .forward (.recv result)) c'.fwd := by
  cases hmove with
  | forward ev h hmove =>
    refine ⟨hmove.keeps.1, fun hreceiving hno ↦ hmove.keeps.2 hreceiving ?_⟩
    rintro ⟨result, rfl⟩
    exact hno ⟨result, rfl⟩
  | _ => exact Handler.keeps_of_same rfl rfl

namespace Service

variable {cfg : Config} {s t : Service} {a : Act}

/-- A session's goroutine hands a payload over only in `clientToAgent`. -/
theorem Step.keeps_conn (hstep : Step cfg s a t) (hstream : ∀ i, (s.conn i).StreamInv)
    (ha : ∀ n, a ≠ .clientToAgent n) (j : ℕ) :
    (s.conn j).fwd.Keeps (∃ result, a = .connect j (.own (.forward (.recv result))))
      (t.conn j).fwd := by
  have hkeep : ∀ i c, (s.conn i).fwd.Keeps
      (∃ result, a = .connect i (.own (.forward (.recv result)))) c.fwd →
      (s.conn j).fwd.Keeps (∃ result, a = .connect j (.own (.forward (.recv result))))
        (Function.update s.conn i c j).fwd := by
    intro i c h
    by_cases hj : j = i
    · subst hj
      rwa [Function.update_self]
    · rw [Function.update_of_ne hj]
      exact Handler.keeps_of_same rfl rfl
  have hsame : ∀ i c, c.fwd = (s.conn i).fwd →
      (s.conn j).fwd.Keeps (∃ result, a = .connect j (.own (.forward (.recv result))))
        (Function.update s.conn i c j).fwd := by
    intro i c h
    exact hkeep i c (Handler.keeps_of_same (by rw [h]) (by rw [h]))
  cases hstep with
  | connectOwn i ev c hmove =>
    have hown := hmove.keeps (hstream i)
    refine hkeep i c ⟨hown.1, fun hreceiving hno ↦ hown.2 hreceiving ?_⟩
    rintro ⟨result, rfl⟩
    exact hno ⟨result, rfl⟩
  | sessionCancelled r i result todo _ _ => exact hsame i _ rfl
  | reserveRefused i routeId e _ => exact hsame i _ rfl
  | reserved i b routeId _ _ _ _ => exact hsame i _ rfl
  | randFailed i e _ => exact hsame i _ rfl
  | drew i sid _ _ => exact hsame i _ rfl
  | inserted i clientHello _ _ => exact hsame i _ rfl
  | deleted i result _ _ => exact hsame i _ rfl
  | released i b result _ _ _ => exact hsame i _ rfl
  | acceptCancelled n i result _ _ => exact hsame i _ rfl
  | notified i b clientHello _ _ _ => exact hsame i _ rfl
  | agentToClient n i payload _ _ _ => exact hkeep i _ (Handler.keeps_of_same rfl rfl)
  | clientToAgent n i payload _ _ _ => exact absurd rfl (ha n)
  | found n i _ _ _ =>
    by_cases hready : (s.conn i).ready = true
    · rw [setAcc_conn, makeReady, if_pos hready]
      exact Handler.keeps_of_same rfl rfl
    · rw [setAcc_conn, makeReady, if_neg hready]
      exact hsame i _ rfl
  | _ => exact Handler.keeps_of_same rfl rfl

/-- The goroutine of an `Accept` call hands a payload over only in `agentToClient`. -/
theorem Step.keeps_acc (hstep : Step cfg s a t) (hstream : ∀ n, (s.acc n).StreamInv)
    (ha : ∀ n, a ≠ .agentToClient n) (j : ℕ) :
    (s.acc j).fwd.Keeps (∃ result, a = .accept j (.own (.forward (.recv result))))
      (t.acc j).fwd := by
  have hkeep : ∀ n c, (s.acc n).fwd.Keeps
      (∃ result, a = .accept n (.own (.forward (.recv result)))) c.fwd →
      (s.acc j).fwd.Keeps (∃ result, a = .accept j (.own (.forward (.recv result))))
        (Function.update s.acc n c j).fwd := by
    intro n c h
    by_cases hj : j = n
    · subst hj
      rwa [Function.update_self]
    · rw [Function.update_of_ne hj]
      exact Handler.keeps_of_same rfl rfl
  cases hstep with
  | acceptOwn n ev c hmove =>
    refine hkeep n c ⟨hmove.keeps.1, fun hreceiving hno ↦ hmove.keeps.2 hreceiving ?_⟩
    rintro ⟨result, rfl⟩
    exact hno ⟨result, rfl⟩
  | notFound n _ _ _ => exact hkeep n _ (Handler.keeps_of_same rfl rfl)
  | found n i hpc _ _ =>
    have hidle := (hstream n).idle ((hstream n).early (.inr (.inr hpc)))
    have hstart : (s.acc n).fwd.Keeps
        (∃ result, Act.accept n .lookup = .accept n (.own (.forward (.recv result))))
        Handler.start := by
      rw [hidle]
      exact ⟨rfl, fun _ _ ↦ rfl⟩
    have hupdate := hkeep n { s.acc n with
      pc := .forwarding, session := some i, fwd := Handler.start } hstart
    simp only [setAcc_acc, makeReady]
    split_ifs <;> exact hupdate
  | acceptCancelled n i result _ _ => exact hkeep n _ (Handler.keeps_of_same rfl rfl)
  | clientToAgent n i payload _ _ _ => exact hkeep n _ (Handler.keeps_of_same rfl rfl)
  | agentToClient n i payload _ _ _ => exact absurd rfl (ha n)
  | _ => exact Handler.keeps_of_same rfl rfl

theorem Step.of_clientToAgent {n i : ℕ} {payload : Bytes}
    (hstep : Step cfg s (.clientToAgent n) t) (hsession : (s.acc n).session = some i)
    (hpump : (s.conn i).fwd.pump = .handing payload) :
    (fun j ↦ (t.conn j).fwd) = Function.update (fun j ↦ (s.conn j).fwd) i
      { (s.conn i).fwd with
        pump := .receiving, handed := (s.conn i).fwd.handed ++ [payload] } := by
  cases hstep with
  | clientToAgent _ i' payload' hsession' hpump' _ =>
    cases hsession.symm.trans hsession'
    cases hpump.symm.trans hpump'
    exact Function.comp_update ConnectCall.fwd s.conn i _

theorem Step.of_agentToClient {n : ℕ} {payload : Bytes}
    (hstep : Step cfg s (.agentToClient n) t)
    (hpump : (s.acc n).fwd.pump = .handing payload) :
    (fun j ↦ (t.acc j).fwd) = Function.update (fun j ↦ (s.acc j).fwd) n
      { (s.acc n).fwd with
        pump := .receiving, handed := (s.acc n).fwd.handed ++ [payload] } := by
  cases hstep with
  | agentToClient _ i payload' _ hpump' _ =>
    cases hpump.symm.trans hpump'
    exact Function.comp_update AcceptCall.fwd s.acc n _

end Service

/-- The total length of some payloads. -/
def totalLength (payloads : List Bytes) : ℕ := (payloads.map List.length).sum

@[simp] theorem totalLength_append (payloads : List Bytes) (payload : Bytes) :
    totalLength (payloads ++ [payload]) = totalLength payloads + payload.length := by
  simp [totalLength]

/-- A byte counter, the payloads that goroutines still owe it and the handlers they belong to. A
goroutine that owes has not received another frame. -/
structure Balanced (counter : ℕ) (owes : ℕ → Option Bytes) (handler : ℕ → Handler) : Prop where
  owing : {i | owes i ≠ none}.Finite
  handing : {i | (handler i).handed ≠ []}.Finite
  waits : ∀ i, owes i ≠ none → (handler i).pump = .receiving
  total : counter + ∑ᶠ i, totalLength (owes i).toList = ∑ᶠ i, totalLength (handler i).handed

namespace Balanced

variable {counter : ℕ} {owes : ℕ → Option Bytes} {handler handler' : ℕ → Handler} {i : ℕ}
  {payload : Bytes}

theorem weights (h : Balanced counter owes handler) :
    {i | totalLength (owes i).toList ≠ 0}.Finite ∧
      {i | totalLength (handler i).handed ≠ 0}.Finite := by
  refine ⟨h.owing.subset fun i hi hnone ↦ hi ?_, h.handing.subset fun i hi hnil ↦ hi ?_⟩
  · rw [hnone]
    rfl
  · rw [hnil]
    rfl

/-- Nothing crosses the channel. -/
theorem kept {receives : ℕ → Prop} (h : Balanced counter owes handler)
    (hkeeps : ∀ i, (handler i).Keeps (receives i) (handler' i))
    (hfree : ∀ i, receives i → owes i = none) : Balanced counter owes handler' where
  owing := h.owing
  handing := by
    simp only [(hkeeps _).1]
    exact h.handing
  waits i howes := (hkeeps i).2 (h.waits i howes) fun hreceives ↦ howes (hfree i hreceives)
  total := by
    simp only [(hkeeps _).1]
    exact h.total

/-- A payload crosses the channel. -/
theorem crossed (h : Balanced counter owes handler) (hpump : (handler i).pump = .handing payload) :
    Balanced counter (Function.update owes i (some payload))
      (Function.update handler i { handler i with
        pump := .receiving, handed := (handler i).handed ++ [payload] }) := by
  have hnone : owes i = none := by
    by_contra howes
    rw [h.waits i howes] at hpump
    contradiction
  refine ⟨?_, ?_, fun j howes ↦ ?_, ?_⟩
  · exact finite_holders_update (P := fun x ↦ x ≠ none) h.owing i _
  · exact finite_holders_update (P := fun x : Handler ↦ x.handed ≠ []) h.handing i _
  · by_cases hj : j = i
    · subst hj
      rw [Function.update_self]
    · rw [Function.update_of_ne hj] at howes ⊢
      exact h.waits j howes
  · have htotal := h.total
    have howed := finsum_update_add (f := owes) (fun x ↦ totalLength x.toList) h.weights.1 i
      (some payload)
    have hgiven := finsum_update_add (f := handler) (fun x ↦ totalLength x.handed) h.weights.2 i
      { handler i with pump := .receiving, handed := (handler i).handed ++ [payload] }
    simp only [hnone, totalLength_append] at howed hgiven
    simp only [totalLength, Option.toList_none, Option.toList_some, List.map_nil, List.map_cons,
      List.sum_nil, List.sum_cons] at howed hgiven htotal ⊢
    omega

/-- A goroutine adds the payload it owes. -/
theorem added (h : Balanced counter owes handler) (howes : owes i = some payload) :
    Balanced (counter + payload.length) (Function.update owes i none) handler := by
  refine ⟨?_, h.handing, fun j hj ↦ h.waits j ?_, ?_⟩
  · exact finite_holders_update (P := fun x ↦ x ≠ none) h.owing i _
  · by_cases hji : j = i
    · subst hji
      simp [howes]
    · rwa [Function.update_of_ne hji] at hj
  · have htotal := h.total
    have howed := finsum_update_add (f := owes) (fun x ↦ totalLength x.toList) h.weights.1 i none
    rw [howes] at howed
    simp only [totalLength, Option.toList_none, Option.toList_some, List.map_nil, List.map_cons,
      List.sum_nil, List.sum_cons] at howed htotal ⊢
    omega

end Balanced

namespace Metered

variable {cfg : Config} {m m' : Metered}

/-- Both byte counters are balanced. -/
structure Weighed (m : Metered) : Prop where
  client : Balanced m.clientToAgent m.clientOwes fun i ↦ (m.service.conn i).fwd
  agent : Balanced m.agentToClient m.agentOwes fun n ↦ (m.service.acc n).fwd

/-- A step of the service in which nothing crosses from the clients. -/
theorem Weighed.client_kept {a : Act} {t : Service} (h : m.Weighed)
    (hstep : Service.Step cfg m.service a t) (hstream : ∀ i, (m.service.conn i).StreamInv)
    (ha : ∀ n, a ≠ .clientToAgent n) (hadmits : m.admits a = true) :
    Balanced m.clientToAgent m.clientOwes fun i ↦ (t.conn i).fwd := by
  refine h.client.kept (hstep.keeps_conn hstream ha) ?_
  rintro i ⟨result, rfl⟩
  simpa [admits] using hadmits

/-- A step of the service in which nothing crosses from the agents. -/
theorem Weighed.agent_kept {a : Act} {t : Service} (h : m.Weighed)
    (hstep : Service.Step cfg m.service a t) (hstream : ∀ n, (m.service.acc n).StreamInv)
    (ha : ∀ n, a ≠ .agentToClient n) (hadmits : m.admits a = true) :
    Balanced m.agentToClient m.agentOwes fun n ↦ (t.acc n).fwd := by
  refine h.agent.kept (hstep.keeps_acc hstream ha) ?_
  rintro n ⟨result, rfl⟩
  simpa [admits] using hadmits

theorem Move.weighed (hmove : Move cfg m m') (hconn : ∀ i, (m.service.conn i).StreamInv)
    (hacc : ∀ n, (m.service.acc n).StreamInv) (h : m.Weighed) : m'.Weighed := by
  have hservice : ∀ {a t}, Service.Step cfg m.service a t → m.admits a = true →
      a.crosses = false → ∀ meter, Weighed { m with service := t, meter := meter } := by
    intro a t hstep hadmits hcrosses meter
    exact ⟨h.client_kept hstep hconn (by rintro n rfl; contradiction) hadmits,
      h.agent_kept hstep hacc (by rintro n rfl; contradiction) hadmits⟩
  cases hmove with
  | silent a t hstep hadmits _ hcrosses => exact hservice hstep hadmits hcrosses m.meter
  | rejecting i t hstep _ => exact hservice hstep rfl rfl _
  | opening i t hstep _ => exact hservice hstep rfl rfl _
  | leaving i t hstep => exact hservice hstep rfl rfl _
  | clientCrossed n i payload t hstep hsession hpump =>
    refine ⟨?_, h.agent_kept hstep hacc (by simp) rfl⟩
    rw [hstep.of_clientToAgent hsession hpump]
    exact h.client.crossed hpump
  | agentCrossed n payload t hstep hpump =>
    refine ⟨h.client_kept hstep hconn (by simp) rfl, ?_⟩
    rw [hstep.of_agentToClient hpump]
    exact h.agent.crossed hpump
  | clientAdded i payload howes => exact ⟨h.client.added howes, h.agent⟩
  | agentAdded n payload howes => exact ⟨h.client, h.agent.added howes⟩
  | _ => exact ⟨h.client, h.agent⟩

theorem weighed_init : Weighed {} := by
  have hempty : Balanced 0 (fun _ ↦ none) (fun _ ↦ {}) := by
    refine ⟨?_, ?_, fun _ hne ↦ absurd rfl hne, ?_⟩ <;> simp [totalLength]
  exact ⟨hempty, hempty⟩

theorem weighed_of_reachable (h : (machine cfg).Reachable m) : m.Weighed := by
  refine Machine.invariant weighed_init (fun s a t hr hs hstep ↦ ?_) h
  have hservice := reachable_service hr
  exact (move_of_step hstep).weighed (Service.connStream_of_reachable hservice)
    (Service.accStream_of_reachable hservice) hs

/-- A call with its reservation has not made the first update of `Tunnels` or is between the
two. -/
theorem holds_iff_of_agrees {i : ℕ} (hagrees : m.Agrees) (hinv : (m.service.conn i).Inv) :
    (∃ r, (m.service.conn i).Holds r) ↔ (m.meter i).uncounted ∨ m.meter i = .counted := by
  have hi := hagrees i
  unfold ConnectCall.Inv at hinv
  cases hmeter : m.meter i with
  | opening =>
    rw [hmeter] at hi
    rw [hi] at hinv
    obtain ⟨r, hr⟩ := Option.ne_none_iff_exists'.mp hinv.1
    exact iff_of_true ⟨r, hr, hinv.2.2.2.2⟩ (.inl (.inl rfl))
  | entering =>
    rw [hmeter] at hi
    rw [hi] at hinv
    obtain ⟨r, hr⟩ := Option.ne_none_iff_exists'.mp hinv.1
    exact iff_of_true ⟨r, hr, hinv.2.2.2.2⟩ (.inl (.inr rfl))
  | counted =>
    rw [hmeter] at hi
    obtain ⟨r, hr⟩ := Option.ne_none_iff_exists'.mp hi.1
    exact iff_of_true ⟨r, hr, hi.2⟩ (.inr rfl)
  | _ =>
    rw [hmeter] at hi
    refine iff_of_false ?_ (by simp [MeterPc.uncounted])
    rintro ⟨r, hr, hreleased⟩
    simp_all [MeterPc.Agrees]

theorem reserved_iff_of_agrees {i : ℕ} (hagrees : m.Agrees) (hinv : (m.service.conn i).Inv) :
    (m.service.conn i).agent ≠ none ↔ (m.meter i).inAccepted ∨ m.meter i = .opening := by
  have hi := hagrees i
  unfold ConnectCall.Inv at hinv
  cases hmeter : m.meter i with
  | opening =>
    rw [hmeter] at hi
    rw [hi] at hinv
    exact iff_of_true hinv.1 (.inr rfl)
  | entering =>
    rw [hmeter] at hi
    rw [hi] at hinv
    exact iff_of_true hinv.1 (.inl (.inl rfl))
  | _ =>
    rw [hmeter] at hi
    simp_all [MeterPc.Agrees, MeterPc.inAccepted, MeterPc.inTunnels]

theorem refused_iff_of_refused {i : ℕ} (hrefused : m.Refused) :
    (m.service.conn i).refused = true ↔ m.meter i = .rejected ∨ m.meter i = .rejecting := by
  rw [hrefused i]
  cases m.meter i <;> simp [MeterPc.refuses]

/-- The numbers of calls at positions that exclude each other add up. -/
theorem Tallied.ncard_or (h : m.Tallied) {P Q : MeterPc → Prop} (hP : ¬ P .quiet)
    (hQ : ¬ Q .quiet) (hdisjoint : ∀ p, P p → ¬ Q p) :
    {i | P (m.meter i) ∨ Q (m.meter i)}.ncard =
      {i | P (m.meter i)}.ncard + {i | Q (m.meter i)}.ncard :=
  Set.ncard_union_eq (Set.disjoint_left.mpr fun _ hp hq ↦ hdisjoint _ hp hq)
    (h.finite_of hP) (h.finite_of hQ)

/-- In every reachable state the `Tunnels` gauge is not negative and differs from the number of
reservations held by exactly the calls that have reserved and not incremented it and those that
have released and not decremented it; `TunnelOpens` counts as accepted the calls that have ever
reserved, and as rejected those that `reserveAgent` has refused, which return without a
reservation, in both cases but for the calls about to count themselves; and each `Bytes` counter
is the number of payload bytes handed to the other side, but for the payloads whose goroutine is
about to add them. -/
theorem metrics_account (cfg : Config) {m : Metered} (h : (machine cfg).Reachable m) :
    (Service.machine cfg).Reachable m.service ∧
    0 ≤ m.tunnels ∧
    m.tunnels + {i | (m.meter i).uncounted}.ncard =
      {i | ∃ r, (m.service.conn i).Holds r}.ncard + {i | m.meter i = .leaving}.ncard ∧
    m.accepted + {i | m.meter i = .opening}.ncard =
      {i | (m.service.conn i).agent ≠ none}.ncard ∧
    m.rejected + {i | m.meter i = .rejecting}.ncard =
      {i | (m.service.conn i).refused = true}.ncard ∧
    (m.rejected = {i | m.meter i = .rejected}.ncard ∧
      ∀ i, m.meter i = .rejecting ∨ m.meter i = .rejected →
        (m.service.conn i).agent = none ∧ (m.service.conn i).pc.phase = .returned) ∧
    m.clientToAgent + ∑ᶠ i, totalLength (m.clientOwes i).toList =
      ∑ᶠ i, totalLength (m.service.conn i).fwd.handed ∧
    m.agentToClient + ∑ᶠ n, totalLength (m.agentOwes n).toList =
      ∑ᶠ n, totalLength (m.service.acc n).fwd.handed := by
  have hservice := reachable_service h
  have hinv := Service.connInv_of_reachable hservice
  have hagrees := agrees_of_reachable h
  have htallied := tallied_of_reachable h
  have hweighed := weighed_of_reachable h
  refine ⟨hservice, ?_, ?_, ?_, ?_, ⟨htallied.rejected, fun i hi ↦ ?_⟩, hweighed.client.total,
    hweighed.agent.total⟩
  · rw [htallied.tunnels]
    exact Int.natCast_nonneg _
  · have hgauge : {i | (m.meter i).inTunnels}.ncard =
        {i | m.meter i = .counted}.ncard + {i | m.meter i = .leaving}.ncard :=
      htallied.ncard_or (P := (· = .counted)) (Q := (· = .leaving)) (by simp) (by simp)
        (by rintro p rfl; simp)
    have hholders : {i | ∃ r, (m.service.conn i).Holds r}.ncard =
        {i | (m.meter i).uncounted}.ncard + {i | m.meter i = .counted}.ncard := by
      simp only [holds_iff_of_agrees hagrees (hinv _)]
      exact htallied.ncard_or (Q := (· = .counted)) (by simp [MeterPc.uncounted]) (by simp)
        (by rintro p (rfl | rfl) <;> simp)
    rw [htallied.tunnels, hgauge, hholders]
    push_cast
    ring
  · have hreserved : {i | (m.service.conn i).agent ≠ none}.ncard =
        {i | (m.meter i).inAccepted}.ncard + {i | m.meter i = .opening}.ncard := by
      simp only [reserved_iff_of_agrees hagrees (hinv _)]
      exact htallied.ncard_or (Q := (· = .opening))
        (by simp [MeterPc.inAccepted, MeterPc.inTunnels]) (by simp)
        (by rintro p (rfl | (rfl | rfl) | rfl) <;> simp)
    rw [hreserved, htallied.accepted]
  · have hrefused : {i | (m.service.conn i).refused = true}.ncard =
        {i | m.meter i = .rejected}.ncard + {i | m.meter i = .rejecting}.ncard := by
      simp only [refused_iff_of_refused (refused_of_reachable h)]
      exact htallied.ncard_or (P := (· = .rejected)) (Q := (· = .rejecting)) (by simp) (by simp)
        (by rintro p rfl; simp)
    rw [hrefused, htallied.rejected]
  · have hcall := hagrees i
    rcases hi with hi | hi <;> rwa [hi] at hcall

/-- One call opens a tunnel, passes a payload on and is about to leave the gauge; another asks
for a route that nobody serves. -/
def sampleMetered : List MeterAct :=
  (sampleSession.take 5).map .service ++ [.openCounted 0, .tunnelsInc 0] ++
  ((sampleSession.drop 5).take 13).map .service ++ [.clientAdd 0] ++
  ((sampleSession.drop 18).take 10).map .service ++
  [.service (.connect 1 (.own .call)),
    .service (.connect 1 (.own (.recv (.ok (.clientOpen 1 sampleSid))))),
    .service (.connect 1 .reserveAgent), .openCounted 1]

theorem metrics_account_sampleMetered :
    ∃ m, (machine sampleConfig).exec {} sampleMetered = some m ∧
      (m.tunnels = 1 ∧ m.accepted = 1 ∧ m.rejected = 1 ∧ m.clientToAgent = 1 ∧
        m.agentToClient = 0 ∧ m.meter 0 = .leaving ∧ m.agentOwes 0 = some [20] ∧
        (m.service.conn 1).refused = true) ∧
      m.tunnels + {i | (m.meter i).uncounted}.ncard =
        {i | ∃ r, (m.service.conn i).Holds r}.ncard + {i | m.meter i = .leaving}.ncard ∧
      m.accepted + {i | m.meter i = .opening}.ncard =
        {i | (m.service.conn i).agent ≠ none}.ncard ∧
      m.rejected + {i | m.meter i = .rejecting}.ncard =
        {i | (m.service.conn i).refused = true}.ncard ∧
      1 + ∑ᶠ i, totalLength (m.clientOwes i).toList =
        ∑ᶠ i, totalLength (m.service.conn i).fwd.handed ∧
      ∑ᶠ n, totalLength (m.agentOwes n).toList =
        ∑ᶠ n, totalLength (m.service.acc n).fwd.handed := by
  obtain ⟨m, hexec, hm⟩ := Machine.exists_of_exec (M := machine sampleConfig) (s := {})
    sampleMetered (fun m ↦ m.tunnels = 1 ∧ m.accepted = 1 ∧ m.rejected = 1 ∧
      m.clientToAgent = 1 ∧ m.agentToClient = 0 ∧ m.meter 0 = .leaving ∧
      m.agentOwes 0 = some [20] ∧ (m.service.conn 1).refused = true) rfl
  obtain ⟨-, -, htunnels, haccepted, hrejected, -, hclient, hagent⟩ :=
    metrics_account sampleConfig (Machine.reaches_of_exec sampleMetered hexec)
  rw [hm.2.2.2.1] at hclient
  rw [hm.2.2.2.2.1, zero_add] at hagent
  exact ⟨m, hexec, hm, htunnels, haccepted, hrejected, hclient, hagent⟩

end Metered

end RelayCat.Relay
