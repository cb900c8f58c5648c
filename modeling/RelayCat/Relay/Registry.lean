import RelayCat.Automaton.Threads
import RelayCat.Relay.Calls

/-!
# Registry and capacity accounting

The `agents` map, the `Agents` gauge, the tunnel counters of the agents and the `sessions` map
in every reachable state of the relay. Each entry has exactly one owner, each counter is the
number of calls that hold a reservation, and a `Connect` call undoes what it has done exactly
once, by whichever exit it leaves.
-/

namespace RelayCat.Relay

open Go Wire Automaton

/-- What a `Connect` call has done and undone in each phase. -/
def ConnectCall.Inv (c : ConnectCall) : Prop :=
  match c.pc.phase with
  | .early => c.agent = none ∧ c.sid = [] ∧ c.inserted = 0 ∧ c.deleted = 0 ∧ c.released = 0
  | .reserved => c.agent ≠ none ∧ c.sid = [] ∧ c.inserted = 0 ∧ c.deleted = 0 ∧ c.released = 0
  | .assigned => c.agent ≠ none ∧ c.sid ≠ [] ∧ c.inserted = 0 ∧ c.deleted = 0 ∧ c.released = 0
  | .listed => c.agent ≠ none ∧ c.sid ≠ [] ∧ c.inserted = 1 ∧ c.deleted = 0 ∧ c.released = 0
  | .unlisted =>
    c.agent ≠ none ∧ c.sid ≠ [] ∧ c.inserted ≤ 1 ∧ c.deleted = c.inserted ∧ c.released = 0
  | .cancelled => c.agent ≠ none ∧ (c.sid ≠ [] → c.ctx ≠ none) ∧
    c.inserted ≤ 1 ∧ c.deleted = c.inserted ∧ c.released = 0
  | .returned => (c.sid ≠ [] → c.ctx ≠ none) ∧ c.inserted ≤ 1 ∧ c.deleted = c.inserted ∧
    c.released = if c.agent = none then 0 else 1

theorem ConnectMove.inv {c c' : ConnectCall} {offline : Bool} {ev : ConnectLocal}
    (hmove : ConnectMove c offline ev c') (h : c.Inv) : c'.Inv := by
  unfold ConnectCall.Inv at h ⊢
  cases hmove with
  | called hpc =>
    rw [hpc] at h
    exact h
  | streamDone e =>
    cases hphase : c.pc.phase <;> simp only [hphase] at h ⊢
    case cancelled => exact ⟨h.1, fun _ ↦ by simp, h.2.2⟩
    case returned => exact ⟨fun _ ↦ by simp, h.2⟩
    all_goals exact h
  | opened version routeId hpc =>
    rw [hpc] at h
    exact h
  | openRefused result e hpc =>
    rw [hpc] at h
    obtain ⟨hagent, hsid, hins, hdel, hrel⟩ := h
    exact ⟨fun hne ↦ absurd hsid hne, by simp [hins], by simp [hins, hdel], by simp [hagent, hrel]⟩
  | refused ev e hphase =>
    rw [hphase] at h
    obtain ⟨hagent, hsid, hins, hdel, hrel⟩ := h
    exact ⟨hagent, hsid, by simp [hins], by simp [hins, hdel], hrel⟩
  | assigned hpc =>
    rw [hpc] at h
    exact h
  | handshake clientHello hpc _ _ =>
    rw [hpc] at h
    exact h
  | left ev result hphase _ =>
    rw [hphase] at h
    exact h
  | ready hpc _ =>
    rw [hpc] at h
    exact h
  | accepted hpc =>
    rw [hpc] at h
    exact h
  | forward ev handler _ => exact h
  | cancel result hpc =>
    rw [hpc] at h
    obtain ⟨hagent, _, hrest⟩ := h
    exact ⟨hagent, fun _ ↦ by simp, hrest⟩

namespace Service

variable {cfg : Config} {s t : Service} {a : Act}

theorem ConnStep.inv {j : ℕ} {c : ConnectCall} (hstep : ConnStep s a j c) (h : (s.conn j).Inv) :
    c.Inv := by
  cases hstep with
  | same => exact h
  | own ev c hmove _ => exact hmove.inv h
  | cancelled =>
    have hmove : ConnectMove (s.conn j) false (.streamDone .canceled) _ := .streamDone .canceled
    exact hmove.inv h
  | madeReady _ _ => exact h
  | handed _ _ => exact h
  | took _ _ => exact h
  | reserveRefused routeId e hpc =>
    unfold ConnectCall.Inv at h ⊢
    rw [hpc] at h
    obtain ⟨hagent, hsid, hins, hdel, hrel⟩ := h
    exact ⟨fun hne ↦ absurd hsid hne, by simp [hins], by simp [hins, hdel], by simp [hagent, hrel]⟩
  | reserved a routeId hpc _ =>
    unfold ConnectCall.Inv at h ⊢
    rw [hpc] at h
    exact ⟨by simp, h.2⟩
  | randFailed e hpc =>
    unfold ConnectCall.Inv at h ⊢
    rw [hpc] at h
    obtain ⟨hagent, hsid, hins, hdel, hrel⟩ := h
    exact ⟨hagent, fun hne ↦ absurd hsid hne, by simp [hins], by simp [hins, hdel], hrel⟩
  | drew sid hpc hlength =>
    unfold ConnectCall.Inv at h ⊢
    rw [hpc] at h
    refine ⟨h.1, ?_, h.2.2⟩
    rintro rfl
    contradiction
  | inserted clientHello hpc =>
    unfold ConnectCall.Inv at h ⊢
    rw [hpc] at h
    obtain ⟨hagent, hsid, hins, hrest⟩ := h
    exact ⟨hagent, hsid, by simp [hins], hrest⟩
  | deleted result hpc =>
    unfold ConnectCall.Inv at h ⊢
    rw [hpc] at h
    obtain ⟨hagent, hsid, hins, hdel, hrel⟩ := h
    exact ⟨hagent, hsid, by simp [hins], by simp [hins, hdel], hrel⟩
  | released a result hpc hagent =>
    unfold ConnectCall.Inv at h ⊢
    rw [hpc] at h
    obtain ⟨_, hctx, hins, hdel, hrel⟩ := h
    exact ⟨hctx, hins, hdel, by simp [hagent, hrel]⟩
  | notified a clientHello hpc _ _ =>
    unfold ConnectCall.Inv at h ⊢
    rw [hpc] at h
    exact h

theorem connInv_of_reachable (h : (machine cfg).Reachable s) (i : ℕ) : (s.conn i).Inv := by
  refine Machine.invariant (I := fun s : Service ↦ ∀ i, (s.conn i).Inv) ?_ ?_ h i
  · exact fun _ ↦ ⟨rfl, rfl, rfl, rfl, rfl⟩
  · intro s a t _ hs hstep j
    exact ((step_of_step hstep).conn j).inv (hs j)

end Service

/-- The call's route is in the `agents` map. -/
def RegisterPc.registered : RegisterPc → Bool
  | .serving | .sending _ _ | .leaving _ => true
  | _ => false

/-- The call has registered its route `key` and not yet cleaned up. -/
def RegisterCall.Owns (c : RegisterCall) (key : Bytes) : Prop :=
  c.pc.registered = true ∧ c.route = key

/-- The call passed `reserveAgent` on `a` and has not yet run `releaseAgent`. -/
def ConnectCall.Holds (a : ℕ) (c : ConnectCall) : Prop := c.agent = some a ∧ c.released = 0

theorem RegisterMove.registered {c c' : RegisterCall} {ev : RegisterLocal}
    (hmove : RegisterMove c ev c') :
    c'.pc.registered = c.pc.registered ∧ (c.pc.registered = true → c'.route = c.route) := by
  cases hmove with
  | called req hpc _ => simp [hpc, RegisterPc.registered]
  | refused req e hpc => simp [hpc, RegisterPc.registered]
  | streamDone e => exact ⟨rfl, fun _ ↦ rfl⟩
  | ctxDone e hpc _ => exact ⟨by simp [hpc, RegisterPc.registered], fun _ ↦ rfl⟩
  | sent i msg hpc _ => exact ⟨by simp [hpc, RegisterPc.registered], fun _ ↦ rfl⟩
  | tooLarge i msg hpc _ => exact ⟨by simp [hpc, RegisterPc.registered], fun _ ↦ rfl⟩
  | sendFailed i msg e hpc => exact ⟨by simp [hpc, RegisterPc.registered], fun _ ↦ rfl⟩

theorem RegisterMove.owns_iff {c c' : RegisterCall} {ev : RegisterLocal}
    (hmove : RegisterMove c ev c') (key : Bytes) : c'.Owns key ↔ c.Owns key := by
  obtain ⟨hreg, hroute⟩ := hmove.registered
  unfold RegisterCall.Owns
  rw [hreg]
  constructor
  · rintro ⟨hc, rfl⟩
    exact ⟨hc, (hroute hc).symm⟩
  · rintro ⟨hc, rfl⟩
    exact ⟨hc, hroute hc⟩

theorem RegisterMove.active {c c' : RegisterCall} {ev : RegisterLocal}
    (hmove : RegisterMove c ev c') : c'.active = c.active := by
  cases hmove <;> rfl

theorem ConnectMove.holds_iff {c c' : ConnectCall} {offline : Bool} {ev : ConnectLocal}
    (hmove : ConnectMove c offline ev c') (a : ℕ) : c'.Holds a ↔ c.Holds a := by
  cases hmove <;> rfl

/-- The call has passed its checks and has not cleaned up. -/
def RegisterPc.entered : RegisterPc → Bool
  | .registering | .serving | .sending _ _ | .leaving _ => true
  | _ => false

theorem RegisterPc.entered_of_registered {pc : RegisterPc} (h : pc.registered = true) :
    pc.entered = true := by
  cases pc <;> simp_all [registered, entered]

namespace Service

variable {cfg : Config} {s t : Service} {a : Act}

/-- Every entry of the `agents` map has a registered owner, and the gauge counts the entries. -/
structure AgentsInv (cfg : Config) (s : Service) : Prop where
  owner : ∀ key r, s.agents.lookup key = some r ↔ (s.reg r).Owns key
  gauge : s.gauge = s.agents.keys.length
  capacity : (s.agents.keys.length : ℤ) ≤ cfg.maxAgents

/-- A step that leaves the map alone and changes no owner keeps the invariant. -/
theorem AgentsInv.congr (h : AgentsInv cfg s) (hagents : t.agents = s.agents)
    (hgauge : t.gauge = s.gauge) (howns : ∀ q key, (t.reg q).Owns key ↔ (s.reg q).Owns key) :
    AgentsInv cfg t := by
  refine ⟨fun key r ↦ ?_, ?_, ?_⟩
  · rw [hagents, howns]
    exact h.owner key r
  · rw [hgauge, hagents]
    exact h.gauge
  · rw [hagents]
    exact h.capacity

theorem owns_update {r : ℕ} {c : RegisterCall} (h : ∀ key, c.Owns key ↔ (s.reg r).Owns key)
    (q : ℕ) (key : Bytes) : (Function.update s.reg r c q).Owns key ↔ (s.reg q).Owns key := by
  by_cases hq : q = r
  · subst hq
    simpa using h key
  · rw [Function.update_of_ne hq]

theorem not_owns {c : RegisterCall} {pc : RegisterPc} (hpc : c.pc = pc)
    (h : pc.registered = false) (key : Bytes) : ¬ c.Owns key := by
  rintro ⟨hc, _⟩
  rw [hpc, h] at hc
  contradiction

/-- Registering a free route. -/
theorem AgentsInv.registered (h : AgentsInv cfg s) {r : ℕ} (hpc : (s.reg r).pc = .registering)
    (hcap : (s.agents.keys.length : ℤ) < cfg.maxAgents)
    (hfree : s.agents.lookup (s.reg r).route = none) :
    AgentsInv cfg { s.setReg r { s.reg r with pc := .serving } with
      agents := s.agents.insert (s.reg r).route r
      gauge := s.gauge + 1 } := by
  have hlength := length_keys_insert (b := r) hfree
  refine ⟨fun key q ↦ ?_, ?_, ?_⟩
  · by_cases hkey : key = (s.reg r).route
    · subst hkey
      rw [AList.lookup_insert]
      by_cases hq : q = r
      · subst hq
        simp [RegisterCall.Owns, RegisterPc.registered]
      · have hq' : ¬ (s.reg q).Owns (s.reg r).route := by
          rw [← h.owner, hfree]
          simp
        simpa [hq, Ne.symm hq] using hq'
    · rw [AList.lookup_insert_ne hkey, h.owner]
      by_cases hq : q = r
      · subst hq
        have hleft := not_owns hpc rfl key
        simp [RegisterCall.Owns] at hleft ⊢
        simp [hpc, RegisterPc.registered, Ne.symm hkey]
      · simp [hq]
  · have hgauge := h.gauge
    simp only [hlength]
    push_cast
    omega
  · simp only [hlength]
    push_cast
    omega

/-- Giving an owned route up. -/
theorem AgentsInv.locked (h : AgentsInv cfg s) {r : ℕ} {result : Err}
    (hpc : (s.reg r).pc = .leaving result)
    (howner : s.agents.lookup (s.reg r).route = some r) :
    AgentsInv cfg { s.setReg r { s.reg r with pc := .closing result } with
      mu := some r
      agents := s.agents.erase (s.reg r).route
      gauge := s.gauge - 1 } := by
  have hlength := length_keys_erase howner
  have hclosing : ∀ key, ¬ RegisterCall.Owns { s.reg r with pc := .closing result } key :=
    fun key ↦ not_owns rfl rfl key
  refine ⟨fun key q ↦ ?_, ?_, ?_⟩
  · by_cases hkey : key = (s.reg r).route
    · subst hkey
      rw [AList.lookup_erase]
      by_cases hq : q = r
      · subst hq
        simpa using hclosing _
      · have hq' : ¬ (s.reg q).Owns (s.reg r).route := by
          rw [← h.owner, howner]
          simpa using Ne.symm hq
        simpa [hq] using hq'
    · rw [AList.lookup_erase_ne hkey, h.owner]
      by_cases hq : q = r
      · subst hq
        have hleft : ¬ (s.reg q).Owns key := fun hown ↦ hkey hown.2.symm
        simpa [hleft] using hclosing key
      · simp [hq]
  · have hgauge := h.gauge
    simp only
    omega
  · have hcap := h.capacity
    simp only
    omega

theorem Step.agentsInv (hstep : Step cfg s a t) (h : AgentsInv cfg s) : AgentsInv cfg t := by
  cases hstep with
  | registerOwn r ev c hmove => exact h.congr rfl rfl (owns_update hmove.owns_iff)
  | registerRefused r e hpc =>
    refine h.congr rfl rfl (owns_update fun key ↦ ?_)
    exact iff_of_false (not_owns rfl rfl key) (not_owns hpc rfl key)
  | registered r hpc _ hcap hfree => exact h.registered hpc hcap hfree
  | locked r result hpc _ howner => exact h.locked hpc howner
  | lockedOther r result hpc _ hother =>
    refine absurd ((h.owner _ r).mpr ⟨?_, rfl⟩) hother
    simp [hpc, RegisterPc.registered]
  | doneClosed r result hpc =>
    refine h.congr rfl rfl (owns_update fun key ↦ ?_)
    exact iff_of_false (not_owns rfl rfl key) (not_owns hpc rfl key)
  | sessionCancelled r i result todo hpc _ =>
    refine h.congr rfl rfl (owns_update fun key ↦ ?_)
    exact iff_of_false (not_owns rfl rfl key) (not_owns hpc rfl key)
  | unlocked r result hpc =>
    refine h.congr rfl rfl (owns_update fun key ↦ ?_)
    exact iff_of_false (not_owns rfl rfl key) (not_owns hpc rfl key)
  | reserved i a routeId _ _ _ _ => exact h.congr rfl rfl (owns_update fun key ↦ Iff.rfl)
  | released i a result _ _ _ => exact h.congr rfl rfl (owns_update fun key ↦ Iff.rfl)
  | notified i a clientHello _ _ hserving =>
    refine h.congr rfl rfl (owns_update fun key ↦ ?_)
    simp [RegisterCall.Owns, RegisterPc.registered, hserving]
  | found m i _ _ _ =>
    unfold makeReady
    split_ifs <;> exact h.congr rfl rfl fun q key ↦ Iff.rfl
  | _ => exact h.congr rfl rfl fun q key ↦ Iff.rfl

/-- Routes that passed the checks have the length of a route id. -/
theorem RegStep.route {q : ℕ} {c : RegisterCall} (hstep : RegStep s t q c)
    (h : (s.reg q).pc.entered = true → (s.reg q).route.length = routeIDSize) :
    c.pc.entered = true → c.route.length = routeIDSize := by
  intro hc
  cases hstep with
  | same => exact h hc
  | own ev c hmove =>
    cases hmove with
    | called req _ hlength => exact hlength
    | refused req e _ => contradiction
    | streamDone e => exact h hc
    | ctxDone e hpc _ => exact h (by simp [hpc, RegisterPc.entered])
    | sent i msg hpc _ => exact h (by simp [hpc, RegisterPc.entered])
    | tooLarge i msg hpc _ => exact h (by simp [hpc, RegisterPc.entered])
    | sendFailed i msg e hpc => exact h (by simp [hpc, RegisterPc.entered])
  | registered hpc => exact h (by simp [hpc, RegisterPc.entered])
  | reserved => exact h hc
  | released => exact h hc
  | notified i clientHello _ _ hpc => exact h (by simp [hpc, RegisterPc.entered])
  | _ => contradiction

/-- The counter of an agent is the number of calls that hold a reservation on it. -/
structure ActiveInv (cfg : Config) (s : Service) : Prop where
  finite : ∀ r, {i | (s.conn i).Holds r}.Finite
  active : ∀ r, (s.reg r).active = {i | (s.conn i).Holds r}.ncard
  bound : ∀ r, (s.reg r).active ≤ cfg.maxTunnelsPerAgent

theorem ActiveInv.congr (h : ActiveInv cfg s)
    (hholds : ∀ r, {i | (t.conn i).Holds r} = {i | (s.conn i).Holds r})
    (hactive : ∀ r, (t.reg r).active = (s.reg r).active) : ActiveInv cfg t := by
  refine ⟨fun r ↦ ?_, fun r ↦ ?_, fun r ↦ ?_⟩
  · rw [hholds]
    exact h.finite r
  · rw [hholds, hactive]
    exact h.active r
  · rw [hactive]
    exact h.bound r

/-- `reserveAgent` adds one holder to one agent. -/
theorem ActiveInv.reserved (h : ActiveInv cfg s) {i b : ℕ} (hnone : (s.conn i).agent = none)
    (hrel : (s.conn i).released = 0) (hcap : (s.reg b).active < cfg.maxTunnelsPerAgent)
    (pc : ConnectPc) :
    ActiveInv cfg ((s.setReg b { s.reg b with active := (s.reg b).active + 1 }).setConn i
      { s.conn i with pc := pc, agent := some b }) := by
  have hnot : ∀ r, ¬ (s.conn i).Holds r := by
    rintro r ⟨hagent, _⟩
    rw [hnone] at hagent
    contradiction
  have hnew : ConnectCall.Holds b { s.conn i with pc := pc, agent := some b } := ⟨rfl, hrel⟩
  have hother : ∀ r, r ≠ b →
      ¬ ConnectCall.Holds r { s.conn i with pc := pc, agent := some b } := by
    rintro r hr ⟨hagent, _⟩
    exact hr (Option.some.inj hagent).symm
  refine ⟨fun r ↦ ?_, fun r ↦ ?_, fun r ↦ ?_⟩
  · by_cases hr : r = b
    · subst hr
      simp only [setConn_conn, setReg_conn, holders_update_gain hnew]
      exact (h.finite r).insert i
    · simp only [setConn_conn, setReg_conn, holders_update_lose (hother r hr)]
      exact (h.finite r).sdiff
  · by_cases hr : r = b
    · subst hr
      simp only [setConn_conn, setConn_reg, setReg_conn, setReg_reg, Function.update_self,
        ncard_holders_gain (h.finite r) (hnot r) hnew, h.active r]
      push_cast
      rfl
    · have hsame := holders_update_same (f := s.conn) (iff_of_false (hother r hr) (hnot r))
      simp only [setConn_conn, setConn_reg, setReg_conn, setReg_reg, Function.update_of_ne hr,
        hsame, h.active r]
  · by_cases hr : r = b
    · subst hr
      simp only [setConn_reg, setReg_reg, Function.update_self]
      omega
    · simp only [setConn_reg, setReg_reg, Function.update_of_ne hr]
      exact h.bound r

/-- `releaseAgent` takes one holder from one agent. -/
theorem ActiveInv.released (h : ActiveInv cfg s) {i b : ℕ} (hagent : (s.conn i).agent = some b)
    (hrel : (s.conn i).released = 0) (pc : ConnectPc) :
    ActiveInv cfg ((s.releaseAgent b).setConn i
      { s.conn i with pc := pc, released := (s.conn i).released + 1 }) := by
  have hnot : ∀ r, ¬ ConnectCall.Holds r
      { s.conn i with pc := pc, released := (s.conn i).released + 1 } := by
    rintro r ⟨_, hzero⟩
    contradiction
  have hother : ∀ r, r ≠ b → ¬ (s.conn i).Holds r := by
    rintro r hr ⟨hsome, _⟩
    rw [hagent] at hsome
    exact hr (Option.some.inj hsome).symm
  refine ⟨fun r ↦ ?_, fun r ↦ ?_, fun r ↦ ?_⟩
  · simp only [setConn_conn, releaseAgent, setReg_conn, holders_update_lose (hnot r)]
    exact (h.finite r).sdiff
  · by_cases hr : r = b
    · subst hr
      have hlose := ncard_holders_lose (P := ConnectCall.Holds r) (h.finite r) ⟨hagent, hrel⟩
        (hnot r)
      have hactive := h.active r
      rw [← hlose] at hactive
      simp only [setConn_reg, releaseAgent, setReg_reg, Function.update_self, hactive]
      push_cast
      exact add_sub_cancel_right _ _
    · have hsame := holders_update_same (f := s.conn) (iff_of_false (hnot r) (hother r hr))
      simp only [setConn_conn, setConn_reg, releaseAgent, setReg_conn, setReg_reg,
        Function.update_of_ne hr, hsame, h.active r]
  · by_cases hr : r = b
    · subst hr
      have hbound := h.bound r
      simp only [setConn_reg, releaseAgent, setReg_reg, Function.update_self]
      omega
    · simp only [setConn_reg, releaseAgent, setReg_reg, Function.update_of_ne hr]
      exact h.bound r

theorem Step.activeInv (hstep : Step cfg s a t) (hconn : ∀ i, (s.conn i).Inv)
    (h : ActiveInv cfg s) : ActiveInv cfg t := by
  cases hstep with
  | registerOwn r ev c hmove =>
    exact h.congr (fun _ ↦ rfl) (proj_update RegisterCall.active hmove.active)
  | registerRefused r e _ => exact h.congr (fun _ ↦ rfl) (proj_update RegisterCall.active rfl)
  | registered r _ _ _ _ => exact h.congr (fun _ ↦ rfl) (proj_update RegisterCall.active rfl)
  | locked r result _ _ _ => exact h.congr (fun _ ↦ rfl) (proj_update RegisterCall.active rfl)
  | lockedOther r result _ _ _ => exact h.congr (fun _ ↦ rfl) (proj_update RegisterCall.active rfl)
  | doneClosed r result _ => exact h.congr (fun _ ↦ rfl) (proj_update RegisterCall.active rfl)
  | sessionCancelled r i result todo _ _ =>
    exact h.congr (fun _ ↦ holders_update_same Iff.rfl) (proj_update RegisterCall.active rfl)
  | unlocked r result _ => exact h.congr (fun _ ↦ rfl) (proj_update RegisterCall.active rfl)
  | connectOwn i ev c hmove =>
    exact h.congr (fun r ↦ holders_update_same (hmove.holds_iff r)) fun _ ↦ rfl
  | reserved i b routeId hpc _ _ hcap =>
    have hinv := hconn i
    unfold ConnectCall.Inv at hinv
    rw [hpc] at hinv
    exact h.reserved hinv.1 hinv.2.2.2.2 hcap _
  | released i b result hpc hagent _ =>
    have hinv := hconn i
    unfold ConnectCall.Inv at hinv
    rw [hpc] at hinv
    exact h.released hagent hinv.2.2.2.2 _
  | acceptOwn m ev c _ => exact h.congr (fun _ ↦ rfl) fun _ ↦ rfl
  | notFound m _ _ _ => exact h.congr (fun _ ↦ rfl) fun _ ↦ rfl
  | found m i _ _ _ =>
    unfold makeReady
    split_ifs
    · exact h.congr (fun _ ↦ rfl) fun _ ↦ rfl
    · exact h.congr (fun _ ↦ holders_update_same Iff.rfl) fun _ ↦ rfl
  | notified i a clientHello _ _ _ =>
    exact h.congr (fun _ ↦ holders_update_same Iff.rfl) (proj_update RegisterCall.active rfl)
  | _ => exact h.congr (fun _ ↦ holders_update_same Iff.rfl) fun _ ↦ rfl

end Service

/-- The call's session is in the `sessions` map under `sid`. -/
def ConnectCall.Listed (sid : Bytes) (c : ConnectCall) : Prop :=
  c.pc.phase = .listed ∧ c.sid = sid

theorem ConnectMove.sid {c c' : ConnectCall} {offline : Bool} {ev : ConnectLocal}
    (hmove : ConnectMove c offline ev c') : c'.sid = c.sid := by
  cases hmove <;> rfl

theorem ConnectMove.listed_iff {c c' : ConnectCall} {offline : Bool} {ev : ConnectLocal}
    (hmove : ConnectMove c offline ev c') :
    c'.pc.phase = .listed ↔ c.pc.phase = .listed := by
  cases hmove with
  | streamDone e => exact Iff.rfl
  | forward ev h _ => exact Iff.rfl
  | refused ev e hphase =>
    rw [hphase]
    simp [ConnectPc.phase]
  | left ev result hphase _ =>
    rw [hphase]
    simp [ConnectPc.phase]
  | called hpc => simp [hpc, ConnectPc.phase]
  | opened version routeId hpc => simp [hpc, ConnectPc.phase]
  | openRefused result e hpc => simp [hpc, ConnectPc.phase]
  | assigned hpc => simp [hpc, ConnectPc.phase]
  | handshake clientHello hpc _ _ => simp [hpc, ConnectPc.phase]
  | ready hpc _ => simp [hpc, ConnectPc.phase]
  | accepted hpc => simp [hpc, ConnectPc.phase]
  | cancel result hpc => simp [hpc, ConnectPc.phase]

namespace Service

variable {cfg : Config} {s t : Service} {a : Act}

/-- Session ids in use are drawn ones, each call has its own, and the map lists exactly the
calls between their insertion and their deletion. -/
structure SessionsInv (s : Service) : Prop where
  drawn : ∀ i, (s.conn i).sid ≠ [] → (s.conn i).sid ∈ s.drawn
  distinct : ∀ i j, (s.conn i).sid ≠ [] → (s.conn i).sid = (s.conn j).sid → i = j
  entry : ∀ sid i, s.sessions.lookup sid = some i ↔ (s.conn i).Listed sid

/-- The cleanup of an agent finds every entry of the map that has this agent. -/
theorem mem_sessionsOf {sid : Bytes} {i r : ℕ} (hlookup : s.sessions.lookup sid = some i)
    (hagent : (s.conn i).agent = some r) : i ∈ s.sessionsOf r := by
  have hentry := AList.mem_lookup_iff.mp hlookup
  unfold sessionsOf
  rw [List.mem_filter, List.mem_map]
  exact ⟨⟨_, hentry, rfl⟩, by simp [hagent]⟩

theorem SessionsInv.congr (h : SessionsInv s) (hsessions : t.sessions = s.sessions)
    (hdrawn : t.drawn = s.drawn) (hsid : ∀ i, (t.conn i).sid = (s.conn i).sid)
    (hlisted : ∀ i, (t.conn i).pc.phase = .listed ↔ (s.conn i).pc.phase = .listed) :
    SessionsInv t := by
  refine ⟨fun i ↦ ?_, fun i j ↦ ?_, fun sid i ↦ ?_⟩
  · rw [hsid, hdrawn]
    exact h.drawn i
  · rw [hsid, hsid]
    exact h.distinct i j
  · unfold ConnectCall.Listed
    rw [hsessions, hsid, hlisted]
    exact h.entry sid i

theorem listed_update {i : ℕ} {c : ConnectCall}
    (h : c.pc.phase = .listed ↔ (s.conn i).pc.phase = .listed) (j : ℕ) :
    (Function.update s.conn i c j).pc.phase = .listed ↔ (s.conn j).pc.phase = .listed := by
  by_cases hj : j = i
  · subst hj
    simpa using h
  · rw [Function.update_of_ne hj]

/-- A fresh id belongs to no other call. -/
theorem SessionsInv.drew (h : SessionsInv s) {i : ℕ} {sid : Bytes}
    (hpc : (s.conn i).pc = .allocating) (hfresh : sid ∉ s.drawn) :
    SessionsInv { s.setConn i { s.conn i with pc := .assigning, sid := sid } with
      drawn := s.drawn ++ [sid] } := by
  have hne : ∀ j, (s.conn j).sid ≠ [] → (s.conn j).sid ≠ sid := by
    rintro j hj rfl
    exact hfresh (h.drawn j hj)
  refine ⟨fun j hj ↦ ?_, fun j k hj hjk ↦ ?_, fun sid' j ↦ ?_⟩
  · by_cases hji : j = i
    · subst hji
      simp
    · simp only [setConn_conn, Function.update_of_ne hji] at hj ⊢
      exact List.mem_append_left _ (h.drawn j hj)
  · simp only [setConn_conn] at hj hjk
    by_cases hji : j = i <;> by_cases hki : k = i
    · rw [hji, hki]
    · subst hji
      simp only [Function.update_self, Function.update_of_ne hki] at hj hjk
      exact absurd hjk.symm (hne k (hjk ▸ hj))
    · subst hki
      simp only [Function.update_self, Function.update_of_ne hji] at hj hjk
      exact absurd hjk (hne j hj)
    · simp only [Function.update_of_ne hji, Function.update_of_ne hki] at hj hjk
      exact h.distinct j k hj hjk
  · change s.sessions.lookup sid' = some j ↔ _
    rw [h.entry]
    by_cases hji : j = i
    · subst hji
      simp [ConnectCall.Listed, hpc, ConnectPc.phase]
    · simp [hji]

theorem SessionsInv.inserted {i : ℕ} {clientHello : Bytes} (h : SessionsInv s)
    (hconn : (s.conn i).Inv)
    (hpc : (s.conn i).pc = .inserting clientHello) (count : ℕ) :
    SessionsInv { s.setConn i { s.conn i with
        pc := .notifying clientHello, inserted := count } with
      sessions := s.sessions.insert (s.conn i).sid i } := by
  have hsid : (s.conn i).sid ≠ [] := by
    unfold ConnectCall.Inv at hconn
    rw [hpc] at hconn
    exact hconn.2.1
  have hsame := proj_update (f := s.conn) (i := i)
    (x := { s.conn i with pc := .notifying clientHello, inserted := count }) ConnectCall.sid rfl
  refine ⟨fun j ↦ ?_, fun j k ↦ ?_, fun sid' j ↦ ?_⟩
  · rw [setConn_conn, hsame]
    exact h.drawn j
  · rw [setConn_conn, hsame, hsame]
    exact h.distinct j k
  · by_cases hkey : sid' = (s.conn i).sid
    · subst hkey
      rw [AList.lookup_insert]
      by_cases hji : j = i
      · subst hji
        simp [ConnectCall.Listed, ConnectPc.phase]
      · have hj : ¬ (s.conn j).Listed (s.conn i).sid :=
          fun hl ↦ hji (h.distinct i j hsid hl.2.symm).symm
        simpa [hji, Ne.symm hji] using hj
    · rw [AList.lookup_insert_ne hkey, h.entry]
      by_cases hji : j = i
      · subst hji
        simp [ConnectCall.Listed, Ne.symm hkey]
      · simp [hji]

theorem SessionsInv.deleted {i : ℕ} {result : Option Err} (h : SessionsInv s)
    (hconn : (s.conn i).Inv)
    (hpc : (s.conn i).pc = .deleting result) (count : ℕ) :
    SessionsInv { s.setConn i { s.conn i with
        pc := .cancelling result, deleted := count } with
      sessions := s.sessions.erase (s.conn i).sid } := by
  have hsid : (s.conn i).sid ≠ [] := by
    unfold ConnectCall.Inv at hconn
    rw [hpc] at hconn
    exact hconn.2.1
  have hsame := proj_update (f := s.conn) (i := i)
    (x := { s.conn i with pc := .cancelling result, deleted := count }) ConnectCall.sid rfl
  refine ⟨fun j ↦ ?_, fun j k ↦ ?_, fun sid' j ↦ ?_⟩
  · rw [setConn_conn, hsame]
    exact h.drawn j
  · rw [setConn_conn, hsame, hsame]
    exact h.distinct j k
  · by_cases hkey : sid' = (s.conn i).sid
    · subst hkey
      rw [AList.lookup_erase]
      by_cases hji : j = i
      · subst hji
        simp [ConnectCall.Listed, ConnectPc.phase]
      · have hj : ¬ (s.conn j).Listed (s.conn i).sid :=
          fun hl ↦ hji (h.distinct i j hsid hl.2.symm).symm
        simpa [hji] using hj
    · rw [AList.lookup_erase_ne hkey, h.entry]
      by_cases hji : j = i
      · subst hji
        simp [ConnectCall.Listed, Ne.symm hkey]
      · simp [hji]

/-- How a step concerns the sessions: it draws an id, or a call enters the map or leaves it. -/
inductive SessionsStep (s : Service) : Service → Prop
  | kept {t : Service} : t.sessions = s.sessions → t.drawn = s.drawn →
      (∀ i, (t.conn i).sid = (s.conn i).sid) →
      (∀ i, (t.conn i).pc.phase = .listed ↔ (s.conn i).pc.phase = .listed) → SessionsStep s t
  | drew (i : ℕ) (sid : Bytes) : (s.conn i).pc = .allocating →
      SessionsStep s { s.setConn i { s.conn i with pc := .assigning, sid := sid } with
        drawn := s.drawn ++ [sid] }
  | inserted (i : ℕ) (clientHello : Bytes) (count : ℕ) : (s.conn i).pc = .inserting clientHello →
      SessionsStep s { s.setConn i { s.conn i with
          pc := .notifying clientHello, inserted := count } with
        sessions := s.sessions.insert (s.conn i).sid i }
  | deleted (i : ℕ) (result : Option Err) (count : ℕ) : (s.conn i).pc = .deleting result →
      SessionsStep s { s.setConn i { s.conn i with
          pc := .cancelling result, deleted := count } with
        sessions := s.sessions.erase (s.conn i).sid }

theorem Step.sessions (hstep : Step cfg s a t) : SessionsStep s t := by
  cases hstep with
  | connectOwn i ev c hmove =>
    exact .kept rfl rfl (proj_update ConnectCall.sid hmove.sid) (listed_update hmove.listed_iff)
  | sessionCancelled r i result todo _ _ =>
    exact .kept rfl rfl (proj_update ConnectCall.sid rfl) (listed_update Iff.rfl)
  | reserveRefused i routeId e hpc =>
    refine .kept rfl rfl (proj_update ConnectCall.sid rfl) (listed_update ?_)
    simp [hpc, ConnectPc.phase]
  | reserved i b routeId hpc _ _ _ =>
    refine .kept rfl rfl (proj_update ConnectCall.sid rfl) (listed_update ?_)
    simp [hpc, ConnectPc.phase]
  | randFailed i e hpc =>
    refine .kept rfl rfl (proj_update ConnectCall.sid rfl) (listed_update ?_)
    simp [hpc, ConnectPc.phase]
  | drew i sid hpc _ => exact .drew i sid hpc
  | inserted i clientHello hpc _ => exact .inserted i clientHello _ hpc
  | deleted i result hpc _ => exact .deleted i result _ hpc
  | released i b result hpc _ _ =>
    refine .kept rfl rfl (proj_update (f := s.conn) ConnectCall.sid rfl)
      (listed_update (s := s) ?_)
    simp [hpc, ConnectPc.phase]
  | acceptCancelled m i result _ _ =>
    exact .kept rfl rfl (proj_update ConnectCall.sid rfl) (listed_update Iff.rfl)
  | notified i b clientHello hpc _ _ =>
    refine .kept rfl rfl (proj_update ConnectCall.sid rfl) (listed_update ?_)
    simp [hpc, ConnectPc.phase]
  | clientToAgent m i payload _ _ _ =>
    exact .kept rfl rfl (proj_update ConnectCall.sid rfl) (listed_update Iff.rfl)
  | agentToClient m i payload _ _ _ =>
    exact .kept rfl rfl (proj_update ConnectCall.sid rfl) (listed_update Iff.rfl)
  | found m i _ _ _ =>
    unfold makeReady
    split_ifs
    · exact .kept rfl rfl (fun _ ↦ rfl) fun _ ↦ Iff.rfl
    · exact .kept rfl rfl (proj_update ConnectCall.sid rfl) (listed_update Iff.rfl)
  | _ => exact .kept rfl rfl (fun _ ↦ rfl) fun _ ↦ Iff.rfl

theorem SessionsStep.sessionsInv (hstep : SessionsStep s t) (hconn : ∀ i, (s.conn i).Inv)
    (hids : t.drawn.Nodup) (h : SessionsInv s) : SessionsInv t := by
  cases hstep with
  | kept hsessions hdrawn hsid hlisted => exact h.congr hsessions hdrawn hsid hlisted
  | drew i sid hpc =>
    refine h.drew hpc fun hmem ↦ ?_
    exact (List.nodup_append.mp hids).2.2 sid hmem sid (by simp) rfl
  | inserted i clientHello count hpc => exact h.inserted (hconn i) hpc count
  | deleted i result count hpc => exact h.deleted (hconn i) hpc count

/-- Ids that are distinct after a step were distinct before it. -/
theorem SessionsStep.nodup_drawn (hstep : SessionsStep s t) (hids : t.drawn.Nodup) :
    s.drawn.Nodup := by
  cases hstep with
  | kept _ hdrawn _ _ => rwa [hdrawn] at hids
  | drew i sid _ => exact (List.nodup_append.mp hids).1
  | inserted i clientHello count _ => exact hids
  | deleted i result count _ => exact hids

/-- Whatever ids are drawn, an entry of the map is of a call that has not deleted its own. -/
theorem SessionsStep.listed (hstep : SessionsStep s t)
    (h : ∀ sid i, s.sessions.lookup sid = some i → (s.conn i).Listed sid) {sid : Bytes} {j : ℕ}
    (hlookup : t.sessions.lookup sid = some j) : (t.conn j).Listed sid := by
  have hother {i : ℕ} {c : ConnectCall} (hi : (s.conn i).pc.phase ≠ .listed)
      (hbefore : s.sessions.lookup sid = some j) : (Function.update s.conn i c j).Listed sid := by
    have hj : j ≠ i := by
      rintro rfl
      exact hi (h sid j hbefore).1
    rw [Function.update_of_ne hj]
    exact h sid j hbefore
  cases hstep with
  | kept hsessions _ hsid hlisted =>
    rw [hsessions] at hlookup
    obtain ⟨hphase, hbefore⟩ := h sid j hlookup
    exact ⟨(hlisted j).mpr hphase, (hsid j).trans hbefore⟩
  | drew i sid' hpc => exact hother (by simp [hpc, ConnectPc.phase]) hlookup
  | inserted i clientHello count hpc =>
    simp only at hlookup
    by_cases hkey : sid = (s.conn i).sid
    · rw [hkey, AList.lookup_insert] at hlookup
      cases hlookup
      simp [ConnectCall.Listed, ConnectPc.phase, hkey]
    · rw [AList.lookup_insert_ne hkey] at hlookup
      exact hother (by simp [hpc, ConnectPc.phase]) hlookup
  | deleted i result count hpc =>
    simp only at hlookup
    by_cases hkey : sid = (s.conn i).sid
    · rw [hkey, AList.lookup_erase] at hlookup
      cases hlookup
    · rw [AList.lookup_erase_ne hkey] at hlookup
      have hbefore := h sid j hlookup
      have hj : j ≠ i := by
        rintro rfl
        exact hkey hbefore.2.symm
      simpa [Function.update_of_ne hj] using hbefore

theorem withDefaults_pos (cfg : Config) :
    0 < cfg.withDefaults.maxAgents ∧ 0 < cfg.withDefaults.maxTunnelsPerAgent := by
  simp only [Config.withDefaults]
  constructor <;> split_ifs <;> omega

theorem agentsInv_of_reachable (h : (machine cfg).Reachable s) :
    AgentsInv cfg.withDefaults s := by
  refine Machine.invariant (I := AgentsInv cfg.withDefaults) ?_ ?_ h
  · refine ⟨fun key r ↦ ?_, rfl, (withDefaults_pos cfg).1.le⟩
    exact iff_of_false (by simp [machine]) (not_owns rfl rfl key)
  · intro s a t _ hs hstep
    exact (step_of_step hstep).agentsInv hs

theorem route_of_reachable (h : (machine cfg).Reachable s) (r : ℕ) :
    (s.reg r).pc.entered = true → (s.reg r).route.length = routeIDSize := by
  refine Machine.invariant (I := fun s : Service ↦ ∀ r, (s.reg r).pc.entered = true →
    (s.reg r).route.length = routeIDSize) ?_ ?_ h r
  · exact fun _ hentered ↦ by contradiction
  · intro s a t _ hs hstep q
    exact ((step_of_step hstep).reg q).route (hs q)

theorem activeInv_of_reachable (h : (machine cfg).Reachable s) :
    ActiveInv cfg.withDefaults s := by
  refine Machine.invariant (I := ActiveInv cfg.withDefaults) ?_ ?_ h
  · have hnone : ∀ r, {i | ((machine cfg).init.conn i).Holds r} = ∅ := by
      intro r
      ext i
      simp [machine, ConnectCall.Holds]
    refine ⟨fun r ↦ ?_, fun r ↦ ?_, fun r ↦ (withDefaults_pos cfg).2.le⟩
    · rw [hnone]
      exact Set.finite_empty
    · rw [hnone, Set.ncard_empty]
      rfl
  · intro s a t hr hs hstep
    exact (step_of_step hstep).activeInv (connInv_of_reachable hr) hs

theorem sessionsInv_of_reachable (h : (machine cfg).Reachable s) (hids : s.drawn.Nodup) :
    SessionsInv s := by
  refine Machine.invariant (I := fun s : Service ↦ s.drawn.Nodup → SessionsInv s) ?_ ?_ h hids
  · intro _
    refine ⟨fun _ hne ↦ absurd rfl hne, fun _ _ hne ↦ absurd rfl hne, fun sid i ↦ ?_⟩
    exact iff_of_false (by simp [machine]) (fun hl ↦ by simp [machine, ConnectCall.Listed,
      ConnectPc.phase] at hl)
  · intro s a t hr hs hstep hids
    have hstep := (step_of_step hstep).sessions
    exact hstep.sessionsInv (connInv_of_reachable hr) hids (hs (hstep.nodup_drawn hids))

/-- In every reachable state the `agents` map is within its capacity, each of its keys is a route
id with exactly one owner and the gauge counts them; each agent's counter is the number of
reservations held on it and is within its bound; each `sessions` entry belongs to exactly one
call in flight, given distinct session ids; and a `Connect` call that has returned has released
its reservation and its entry exactly once and its session is cancelled. -/
theorem registry_accounting (cfg : Config) {s : Service} (h : (machine cfg).Reachable s) :
    ((s.agents.keys.length : ℤ) ≤ cfg.withDefaults.maxAgents ∧
      s.gauge = s.agents.keys.length ∧
      (∀ key r, s.agents.lookup key = some r ↔ (s.reg r).Owns key) ∧
      ∀ key r, s.agents.lookup key = some r → key.length = routeIDSize ∧
        ∀ q, (s.reg q).Owns key → q = r) ∧
    (∀ r, {i | (s.conn i).Holds r}.Finite ∧
      (s.reg r).active = {i | (s.conn i).Holds r}.ncard ∧
      0 ≤ (s.reg r).active ∧ (s.reg r).active ≤ cfg.withDefaults.maxTunnelsPerAgent) ∧
    (s.drawn.Nodup →
      (∀ sid i, s.sessions.lookup sid = some i ↔ (s.conn i).Listed sid) ∧
      ∀ sid i, s.sessions.lookup sid = some i → ∀ j, (s.conn j).sid = sid → j = i) ∧
    ∀ i result, (s.conn i).pc = .returned result →
      ((s.conn i).released = if (s.conn i).agent = none then 0 else 1) ∧
      (∀ r, ¬ (s.conn i).Holds r) ∧
      (s.conn i).inserted ≤ 1 ∧ (s.conn i).deleted = (s.conn i).inserted ∧
      (s.drawn.Nodup → ∀ sid, s.sessions.lookup sid ≠ some i) ∧
      ((s.conn i).sid ≠ [] → (s.conn i).ctx ≠ none) := by
  have hagents := agentsInv_of_reachable h
  have hactive := activeInv_of_reachable h
  refine ⟨⟨hagents.capacity, hagents.gauge, hagents.owner, fun key r hr ↦ ⟨?_, ?_⟩⟩, fun r ↦ ?_,
    fun hids ↦ ?_, fun i result hpc ↦ ?_⟩
  · obtain ⟨hreg, rfl⟩ := (hagents.owner key r).mp hr
    exact route_of_reachable h r (RegisterPc.entered_of_registered hreg)
  · intro q hq
    have hq' := (hagents.owner key q).mpr hq
    rw [hr] at hq'
    exact (Option.some.inj hq').symm
  · refine ⟨hactive.finite r, hactive.active r, ?_, hactive.bound r⟩
    rw [hactive.active r]
    exact Int.natCast_nonneg _
  · have hsessions := sessionsInv_of_reachable h hids
    refine ⟨hsessions.entry, fun sid i hi j hj ↦ ?_⟩
    obtain ⟨hphase, rfl⟩ := (hsessions.entry sid i).mp hi
    have hinv := connInv_of_reachable h i
    unfold ConnectCall.Inv at hinv
    rw [hphase] at hinv
    exact (hsessions.distinct i j hinv.2.1 hj.symm).symm
  · have hinv := connInv_of_reachable h i
    unfold ConnectCall.Inv at hinv
    rw [hpc] at hinv
    obtain ⟨hctx, hins, hdel, hrel⟩ := hinv
    refine ⟨hrel, ?_, hins, hdel, fun hids sid hlookup ↦ ?_, hctx⟩
    · rintro r ⟨hagent, hzero⟩
      rw [hagent] at hrel
      rw [hzero] at hrel
      contradiction
    · obtain ⟨hphase, _⟩ := ((sessionsInv_of_reachable h hids).entry sid i).mp hlookup
      rw [hpc] at hphase
      contradiction

end Service

/-- A route id and a session id for fixed runs. -/
def sampleRoute : Bytes := List.replicate 16 7

def sampleSid : Bytes := List.replicate 16 9

/-- An agent registers and a client's `Connect` call reaches the notification. -/
def sampleOpening : List Act :=
  [.register 0 (.own (.call ⟨1, sampleRoute⟩)), .register 0 .register, .connect 0 (.own .call),
    .connect 0 (.own (.recv (.ok (.clientOpen 1 sampleRoute)))), .connect 0 .reserveAgent,
    .connect 0 (.randRead (some sampleSid)), .connect 0 (.own (.sendAssigned none)),
    .connect 0 (.own (.recv (.ok (.clientHandshake [1, 2, 3])))), .connect 0 .insertSession]

/-- The agent accepts, one payload crosses in each direction, and the client ends its side. -/
def sampleSession : List Act :=
  sampleOpening ++
  [.notify 0, .register 0 (.own (.send .ok)), .accept 0 (.own .call),
    .accept 0 (.own (.recv (.ok (.agentAccept 1 sampleSid [4, 5])))), .accept 0 .lookup,
    .connect 0 (.own .ready), .connect 0 (.own (.sendAccept none)),
    .connect 0 (.own (.forward (.recv (.ok (.ciphertext [10]))))), .clientToAgent 0,
    .accept 0 (.own (.forward (.send none))),
    .accept 0 (.own (.forward (.recv (.ok (.ciphertext [20]))))), .agentToClient 0,
    .connect 0 (.own (.forward (.send none))),
    .connect 0 (.own (.forward (.recv (.error .eof)))), .connect 0 (.own (.forward .takeErr)),
    .connect 0 (.own .leave), .connect 0 .deleteSession, .connect 0 (.own .cancel),
    .connect 0 .releaseAgent, .accept 0 (.own (.forward .takeDone)), .accept 0 (.own .leave),
    .accept 0 .cancel]

def sampleConfig : Config := ⟨0, 0, 0⟩

namespace Service

theorem registry_accounting_sampleSession :
    ∃ s, (machine sampleConfig).exec {} sampleSession = some s ∧
      ((s.conn 0).pc = .returned none ∧ s.drawn.Nodup ∧ (s.conn 0).sid ≠ [] ∧
        (s.conn 0).released = 1 ∧ (s.conn 0).deleted = 1 ∧ s.agents.keys = [sampleRoute]) ∧
      (s.conn 0).ctx ≠ none ∧ s.gauge = 1 ∧
      (s.reg 0).active = {i | (s.conn i).Holds 0}.ncard := by
  obtain ⟨s, hexec, hs⟩ := Machine.exists_of_exec (M := machine sampleConfig) (s := {})
    sampleSession (fun s ↦ (s.conn 0).pc = .returned none ∧ s.drawn.Nodup ∧
      (s.conn 0).sid ≠ [] ∧ (s.conn 0).released = 1 ∧ (s.conn 0).deleted = 1 ∧
      s.agents.keys = [sampleRoute]) (by decide +kernel)
  obtain ⟨⟨_, hgauge, _⟩, hactive, _, hreturned⟩ :=
    registry_accounting sampleConfig (Machine.reaches_of_exec sampleSession hexec)
  refine ⟨s, hexec, hs, ?_, ?_, (hactive 0).2.1⟩
  · exact (hreturned 0 none hs.1).2.2.2.2.2 hs.2.2.1
  · rw [hgauge, hs.2.2.2.2.2]
    rfl

end Service

end RelayCat.Relay
