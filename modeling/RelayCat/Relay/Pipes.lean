import RelayCat.Relay.Registry

/-!
# The relay as a pair of FIFO pipes

For a session joined by exactly one `Accept` call, the payloads that crossed each unbuffered
channel are the same on both of its ends, in order. With what each handler has received, holds
and has sent, this makes the relay a pair of pipes that neither reorder, duplicate nor drop in
the middle, and that a graceful end drains completely.
-/

namespace RelayCat.Relay

open Go Wire Automaton

/-- The loop of a handler has not returned. -/
def LoopPc.running : LoopPc → Bool
  | .selecting | .sending _ => true
  | _ => false

theorem LoopPc.held_of_not_running {pc : LoopPc} (h : pc.running = false) : pc.held = [] := by
  cases pc <;> simp_all [running, held]

theorem Handler.Move.running {F : Type} {getCiphertext : F → Option Bytes}
    {onDone : CtxErr → Option Err} {ctx : Option CtxErr} {h h' : Handler} {ev : HandlerEvent F}
    (hmove : Handler.Move getCiphertext onDone ctx h ev h') (hrun : h'.loop.running = true) :
    h.loop.running = true := by
  cases hmove with
  | sent payload hloop => simp [hloop, LoopPc.running]
  | sendFailed payload e _ => contradiction
  | tookErr e _ _ => contradiction
  | tookDone e _ _ => contradiction
  | _ => exact hrun

/-- A handler that was never started takes no step. -/
theorem Handler.Move.not_idle {F : Type} {getCiphertext : F → Option Bytes}
    {onDone : CtxErr → Option Err} {ctx : Option CtxErr} {h' : Handler} {ev : HandlerEvent F}
    (hmove : Handler.Move getCiphertext onDone ctx {} ev h') : False := by
  cases hmove <;> contradiction

/-- The two frames that `Connect` sends before it forwards. -/
def ConnectCall.preamble (c : ConnectCall) : List ConnectResponse :=
  [.sessionAssigned c.sid, .agentAccept protocolVersion c.sid c.agentHello]

/-- How many of them a running call has sent. -/
def ConnectPc.greeted : ConnectPc → Option ℕ
  | .idle | .recvOpen | .reserving _ | .allocating | .assigning => some 0
  | .recvHandshake | .inserting _ | .notifying _ | .awaitReady | .accepting => some 1
  | .forwarding => some 2
  | _ => none

/-- The stream of one `Connect` call. -/
structure ConnectCall.StreamInv (c : ConnectCall) : Prop where
  greeted : ∀ n, c.pc.greeted = some n → c.greeting = c.preamble.take n
  within : c.greeting <+: c.preamble
  idle : c.greeting.length < 2 → c.fwd = {}
  ready : c.pc = .accepting ∨ 2 ≤ c.greeting.length → c.ready = true
  handler : c.fwd.Inv
  loop : c.fwd.loop.running = true → c.pc = .forwarding

namespace ConnectCall.StreamInv

variable {c c' : ConnectCall}

/-- The call moves to a point with the same greeting sent. -/
theorem move (h : c.StreamInv) (pc : ConnectPc)
    (hgreeted : pc.greeted = none ∨ pc.greeted = c.pc.greeted)
    (hready : pc = .accepting → c.ready = true)
    (hloop : c.fwd.loop.running = false ∨ pc = c.pc) : { c with pc := pc }.StreamInv where
  greeted n hn := by
    rcases hgreeted with hnone | hsame
    · exact absurd (hnone.symm.trans hn) (by simp)
    · exact h.greeted n (hsame.symm.trans hn)
  within := h.within
  idle := h.idle
  ready hor := by
    rcases hor with hacc | hlen
    · exact hready hacc
    · exact h.ready (.inr hlen)
  handler := h.handler
  loop hrun := by
    rcases hloop with hstop | hsame
    · exact absurd (hstop.symm.trans hrun) (by simp)
    · exact hsame.trans (h.loop hrun)

/-- Outside the forwarding phase the loop is not running. -/
theorem not_running (h : c.StreamInv) (hpc : c.pc ≠ .forwarding) : c.fwd.loop.running = false := by
  cases hrun : c.fwd.loop.running with
  | false => rfl
  | true => exact absurd (h.loop hrun) hpc

/-- Only the handler changes, and it was started before. -/
theorem handle (h : c.StreamInv) {handler : Handler} (hinv : handler.Inv) (hne : c.fwd ≠ {})
    (hrun : handler.loop.running = true → c.fwd.loop.running = true) :
    { c with fwd := handler }.StreamInv where
  greeted := h.greeted
  within := h.within
  idle hlen := absurd (h.idle hlen) hne
  ready := h.ready
  handler := hinv
  loop hr := h.loop (hrun hr)

theorem assigned (h : c.StreamInv) (hpc : c.pc = .assigning) :
    { c with
      pc := .recvHandshake
      greeting := c.greeting ++ [ConnectResponse.sessionAssigned c.sid] }.StreamInv := by
  have hnil : c.greeting = [] := h.greeted 0 (by rw [hpc]; rfl)
  refine ⟨?_, ?_, ?_, ?_, h.handler, ?_⟩
  · rintro n ⟨⟩
    simp [hnil, ConnectCall.preamble]
  · simp [hnil, ConnectCall.preamble]
  · exact fun _ ↦ h.idle (by simp [hnil])
  · intro hor
    simp [hnil] at hor
  · intro hrun
    rw [h.not_running (by simp [hpc])] at hrun
    contradiction

theorem accepted (h : c.StreamInv) (hpc : c.pc = .accepting) :
    { c with
      pc := .forwarding
      greeting := c.greeting ++ [ConnectResponse.agentAccept protocolVersion c.sid c.agentHello]
      fwd := Handler.start }.StreamInv := by
  have hone : c.greeting = [.sessionAssigned c.sid] := h.greeted 1 (by rw [hpc]; rfl)
  refine ⟨?_, ?_, ?_, ?_, Handler.inv_start, fun _ ↦ rfl⟩
  · rintro n ⟨⟩
    simp [hone, ConnectCall.preamble]
  · simp [hone, ConnectCall.preamble]
  · intro hlen
    simp [hone] at hlen
  · exact fun _ ↦ h.ready (.inl hpc)

theorem madeReady (h : c.StreamInv) (hready : c.ready = false) (agentHello : Bytes) :
    { c with ready := true, agentHello := agentHello }.StreamInv := by
  have hshort : c.greeting.length < 2 := by
    by_contra hlen
    rw [h.ready (.inr (by omega))] at hready
    contradiction
  have hwithin : c.greeting <+: [.sessionAssigned c.sid] := by
    have htake := List.prefix_take_iff.mpr ⟨h.within, Nat.le_of_lt_succ hshort⟩
    simpa [ConnectCall.preamble] using htake
  refine ⟨fun n hn ↦ ?_, hwithin.trans (by simp [ConnectCall.preamble]), h.idle, fun _ ↦ rfl,
    h.handler, h.loop⟩
  have hgreeting := h.greeted n hn
  match n with
  | 0 => simpa using hgreeting
  | 1 => simpa [ConnectCall.preamble] using hgreeting
  | n + 2 =>
    rw [hgreeting] at hshort
    simp [ConnectCall.preamble] at hshort

end ConnectCall.StreamInv

theorem ConnectMove.streamInv {c c' : ConnectCall} {offline : Bool} {ev : ConnectLocal}
    (hmove : ConnectMove c offline ev c') (h : c.StreamInv) : c'.StreamInv := by
  cases hmove with
  | called hpc =>
    exact h.move _ (.inr (by rw [hpc]; rfl)) (by simp) (.inl (h.not_running (by simp [hpc])))
  | streamDone e => exact ⟨h.greeted, h.within, h.idle, h.ready, h.handler, h.loop⟩
  | opened version routeId hpc =>
    exact h.move _ (.inr (by rw [hpc]; rfl)) (by simp) (.inl (h.not_running (by simp [hpc])))
  | openRefused result e hpc =>
    exact h.move _ (.inl rfl) (by simp) (.inl (h.not_running (by simp [hpc])))
  | refused ev e hphase =>
    refine h.move _ (.inl rfl) (by simp) (.inl (h.not_running fun hpc ↦ ?_))
    rw [hpc] at hphase
    contradiction
  | assigned hpc => exact h.assigned hpc
  | handshake clientHello hpc _ _ =>
    exact h.move _ (.inr (by rw [hpc]; rfl)) (by simp) (.inl (h.not_running (by simp [hpc])))
  | left ev result _ hexit =>
    refine h.move _ (.inl rfl) (by simp) (.inl ?_)
    by_cases hpc : c.pc = .forwarding
    · rw [hexit hpc]
      rfl
    · exact h.not_running hpc
  | ready hpc hready =>
    exact h.move _ (.inr (by rw [hpc]; rfl)) (fun _ ↦ hready)
      (.inl (h.not_running (by simp [hpc])))
  | accepted hpc => exact h.accepted hpc
  | forward ev handler hmove =>
    refine h.handle (hmove.inv h.handler) (fun hidle ↦ ?_) hmove.running
    rw [hidle] at hmove
    exact hmove.not_idle
  | cancel result hpc =>
    have h' := h.move (.releasing result) (.inl rfl) (by simp)
      (.inl (h.not_running (by simp [hpc])))
    exact ⟨h'.greeted, h'.within, h'.idle, h'.ready, h'.handler, h'.loop⟩

/-- One `Accept` call: its handler runs only once it has found a session. -/
structure AcceptCall.StreamInv (c : AcceptCall) : Prop where
  early : c.pc = .idle ∨ c.pc = .recvFirst ∨ c.pc = .looking → c.session = none
  idle : c.session = none → c.fwd = {}
  handler : c.fwd.Inv
  loop : c.fwd.loop.running = true → c.pc = .forwarding

theorem AcceptCall.StreamInv.not_running {c : AcceptCall} (h : c.StreamInv)
    (hpc : c.pc ≠ .forwarding) : c.fwd.loop.running = false := by
  cases hrun : c.fwd.loop.running with
  | false => rfl
  | true => exact absurd (h.loop hrun) hpc

theorem AcceptCall.StreamInv.handle {c : AcceptCall} (h : c.StreamInv) {handler : Handler}
    (hinv : handler.Inv) (hne : c.fwd ≠ {})
    (hrun : handler.loop.running = true → c.fwd.loop.running = true) :
    { c with fwd := handler }.StreamInv where
  early := h.early
  idle hnone := absurd (h.idle hnone) hne
  handler := hinv
  loop hr := h.loop (hrun hr)

theorem AcceptMove.streamInv {c c' : AcceptCall} {ctx : Option CtxErr} {ev : AcceptLocal}
    (hmove : AcceptMove c ctx ev c') (h : c.StreamInv) : c'.StreamInv := by
  cases hmove with
  | called hpc =>
    refine ⟨fun _ ↦ h.early (.inl hpc), h.idle, h.handler, fun hrun ↦ ?_⟩
    rw [h.not_running (by simp [hpc])] at hrun
    contradiction
  | refused result e hpc =>
    refine ⟨fun _ ↦ h.early (.inr (.inl hpc)), h.idle, h.handler, fun hrun ↦ ?_⟩
    rw [h.not_running (by simp [hpc])] at hrun
    contradiction
  | accepted version sessionId agentHello hpc =>
    refine ⟨fun _ ↦ h.early (.inr (.inl hpc)), h.idle, h.handler, fun hrun ↦ ?_⟩
    rw [h.not_running (by simp [hpc])] at hrun
    contradiction
  | forward ev handler hmove =>
    refine h.handle (hmove.inv h.handler) (fun hidle ↦ ?_) hmove.running
    rw [hidle] at hmove
    exact hmove.not_idle
  | left result hpc hloop =>
    refine ⟨fun hor ↦ by simp at hor, h.idle, h.handler, fun hrun ↦ ?_⟩
    rw [hloop] at hrun
    contradiction

namespace Service

variable {cfg : Config} {s t : Service} {a : Act}

theorem ConnStep.streamInv {j : ℕ} {c : ConnectCall} (hstep : ConnStep s a j c)
    (h : (s.conn j).StreamInv) : c.StreamInv := by
  cases hstep with
  | same => exact h
  | own ev c hmove _ => exact hmove.streamInv h
  | cancelled => exact ⟨h.greeted, h.within, h.idle, h.ready, h.handler, h.loop⟩
  | madeReady agentHello hready => exact h.madeReady hready agentHello
  | handed payload hpump =>
    refine h.handle (h.handler.handOver hpump) (fun hidle ↦ ?_) id
    rw [hidle] at hpump
    contradiction
  | took payload hloop =>
    refine h.handle (h.handler.take payload hloop) (fun hidle ↦ ?_) fun _ ↦ ?_
    · rw [hidle] at hloop
      contradiction
    · rw [hloop]
      rfl
  | reserveRefused routeId e hpc =>
    have h' := h.move (.returned (some e)) (.inl rfl) (by simp)
      (.inl (h.not_running (by simp [hpc])))
    exact ⟨h'.greeted, h'.within, h'.idle, h'.ready, h'.handler, h'.loop⟩
  | reserved b routeId hpc _ =>
    have h' := h.move .allocating (.inr (by rw [hpc]; rfl)) (by simp)
      (.inl (h.not_running (by simp [hpc])))
    exact ⟨h'.greeted, h'.within, h'.idle, h'.ready, h'.handler, h'.loop⟩
  | randFailed e hpc =>
    exact h.move _ (.inl rfl) (by simp) (.inl (h.not_running (by simp [hpc])))
  | drew sid hpc _ =>
    have h' := h.move .assigning (.inr (by rw [hpc]; rfl)) (by simp)
      (.inl (h.not_running (by simp [hpc])))
    have hnil : (s.conn j).greeting = [] := h.greeted 0 (by rw [hpc]; rfl)
    refine ⟨?_, ?_, h'.idle, h'.ready, h'.handler, h'.loop⟩
    · rintro n ⟨⟩
      exact hnil
    · rw [hnil]
      exact List.nil_prefix
  | inserted clientHello hpc =>
    have h' := h.move (.notifying clientHello) (.inr (by rw [hpc]; rfl)) (by simp)
      (.inl (h.not_running (by simp [hpc])))
    exact ⟨h'.greeted, h'.within, h'.idle, h'.ready, h'.handler, h'.loop⟩
  | deleted result hpc =>
    have h' := h.move (.cancelling result) (.inl rfl) (by simp)
      (.inl (h.not_running (by simp [hpc])))
    exact ⟨h'.greeted, h'.within, h'.idle, h'.ready, h'.handler, h'.loop⟩
  | released b result hpc _ =>
    have h' := h.move (.returned result) (.inl rfl) (by simp)
      (.inl (h.not_running (by simp [hpc])))
    exact ⟨h'.greeted, h'.within, h'.idle, h'.ready, h'.handler, h'.loop⟩
  | notified b clientHello hpc _ _ =>
    exact h.move _ (.inr (by rw [hpc]; rfl)) (by simp) (.inl (h.not_running (by simp [hpc])))

theorem AccStep.streamInv {n : ℕ} {c : AcceptCall} (hstep : AccStep s n c)
    (h : (s.acc n).StreamInv) : c.StreamInv := by
  cases hstep with
  | same => exact h
  | own ev c hmove => exact hmove.streamInv h
  | notFound hpc _ =>
    refine ⟨fun hor ↦ by simp at hor, h.idle, h.handler, fun hrun ↦ ?_⟩
    rw [h.not_running (by simp [hpc])] at hrun
    contradiction
  | found i _ _ =>
    exact ⟨fun hor ↦ by simp at hor, fun hnone ↦ by contradiction, Handler.inv_start,
      fun _ ↦ rfl⟩
  | cancelled i result hpc _ =>
    refine ⟨fun hor ↦ by simp at hor, h.idle, h.handler, fun hrun ↦ ?_⟩
    rw [h.not_running (by simp [hpc])] at hrun
    contradiction
  | took i payload _ hloop =>
    refine h.handle (h.handler.take payload hloop) (fun hidle ↦ ?_) fun _ ↦ ?_
    · rw [hidle] at hloop
      contradiction
    · rw [hloop]
      rfl
  | handed i payload _ hpump =>
    refine h.handle (h.handler.handOver hpump) (fun hidle ↦ ?_) id
    rw [hidle] at hpump
    contradiction

theorem connStream_of_reachable (h : (machine cfg).Reachable s) (i : ℕ) :
    (s.conn i).StreamInv := by
  refine Machine.invariant (I := fun s : Service ↦ ∀ i, (s.conn i).StreamInv) ?_ ?_ h i
  · intro i
    refine ⟨?_, List.nil_prefix, fun _ ↦ rfl, fun hor ↦ ?_, Handler.inv_idle, ?_⟩
    · rintro n ⟨⟩
      rfl
    · rcases hor with hpc | hlen
      · contradiction
      · exact absurd hlen (by simp [machine])
    · exact fun hrun ↦ by contradiction
  · intro s a t _ hs hstep j
    exact ((step_of_step hstep).conn j).streamInv (hs j)

theorem accStream_of_reachable (h : (machine cfg).Reachable s) (m : ℕ) :
    (s.acc m).StreamInv := by
  refine Machine.invariant (I := fun s : Service ↦ ∀ m, (s.acc m).StreamInv) ?_ ?_ h m
  · exact fun _ ↦ ⟨fun _ ↦ rfl, fun _ ↦ rfl, Handler.inv_idle, fun hrun ↦ by contradiction⟩
  · intro s a t _ hs hstep n
    exact ((step_of_step hstep).acc n).streamInv (hs n)

/-- `Accept` call `m` has entered the forwarding phase of session `i`, and no other call has. -/
def SoleAccept (s : Service) (m i : ℕ) : Prop :=
  (s.acc m).session = some i ∧ ∀ n, (s.acc n).session = some i → n = m

/-- Sessions are ready exactly when some `Accept` call has found them, and keep the hello of
one of these calls. -/
structure JoinInv (s : Service) : Prop where
  ready : ∀ m i, (s.acc m).session = some i → (s.conn i).ready = true
  hello : ∀ i, (s.conn i).ready = true →
    ∃ m, (s.acc m).session = some i ∧ (s.acc m).agentHello = (s.conn i).agentHello

theorem JoinInv.congr (h : JoinInv s) (hsession : ∀ m, (t.acc m).session = (s.acc m).session)
    (haccHello : ∀ m, (s.acc m).session ≠ none → (t.acc m).agentHello = (s.acc m).agentHello)
    (hready : ∀ i, (t.conn i).ready = (s.conn i).ready)
    (hhello : ∀ i, (t.conn i).agentHello = (s.conn i).agentHello) : JoinInv t := by
  refine ⟨fun m i hm ↦ ?_, fun i hi ↦ ?_⟩
  · rw [hready]
    exact h.ready m i (hsession m ▸ hm)
  · obtain ⟨m, hm, heq⟩ := h.hello i (hready i ▸ hi)
    refine ⟨m, hsession m ▸ hm, ?_⟩
    rw [hhello, haccHello m (by simp [hm]), heq]

/-- A step of `Connect` outside the map leaves the joins alone. -/
theorem JoinInv.setConn (h : JoinInv s) {i : ℕ} {c : ConnectCall}
    (hready : c.ready = (s.conn i).ready) (hhello : c.agentHello = (s.conn i).agentHello) :
    JoinInv (s.setConn i c) :=
  h.congr (fun _ ↦ rfl) (fun _ _ ↦ rfl) (proj_update ConnectCall.ready hready)
    (proj_update ConnectCall.agentHello hhello)

theorem JoinInv.setAcc (h : JoinInv s) {m : ℕ} {c : AcceptCall}
    (hsession : c.session = (s.acc m).session)
    (hhello : (s.acc m).session ≠ none → c.agentHello = (s.acc m).agentHello) :
    JoinInv (s.setAcc m c) := by
  refine h.congr (proj_update AcceptCall.session hsession) (fun n hn ↦ ?_) (fun _ ↦ rfl)
    fun _ ↦ rfl
  by_cases hnm : n = m
  · subst hnm
    simpa using hhello hn
  · simp [hnm]

/-- The lookup of `Accept` call `m` finds session `i`. -/
theorem JoinInv.found (h : JoinInv s) {m i : ℕ} (hnone : (s.acc m).session = none) :
    JoinInv ((s.makeReady i (s.acc m).agentHello).setAcc m
      { s.acc m with pc := .forwarding, session := some i, fwd := Handler.start }) := by
  unfold makeReady
  split_ifs with hready
  · refine ⟨fun n j hn ↦ ?_, fun j hj ↦ ?_⟩
    · by_cases hnm : n = m
      · subst hnm
        have hij : i = j := by simpa using hn
        exact hij ▸ hready
      · exact h.ready n j (by simpa [hnm] using hn)
    · obtain ⟨n, hn, heq⟩ := h.hello j hj
      have hnm : n ≠ m := by
        rintro rfl
        simp [hnone] at hn
      exact ⟨n, by simpa [hnm] using hn, by simpa [hnm] using heq⟩
  · refine ⟨fun n j hn ↦ ?_, fun j hj ↦ ?_⟩
    · by_cases hnm : n = m
      · subst hnm
        have hij : i = j := by simpa using hn
        subst hij
        simp
      · have hj := h.ready n j (by simpa [hnm] using hn)
        by_cases hji : j = i
        · subst hji
          simp
        · simpa [hji] using hj
    · by_cases hji : j = i
      · subst hji
        exact ⟨m, by simp, by simp⟩
      · obtain ⟨n, hn, heq⟩ := h.hello j (by simpa [hji] using hj)
        have hnm : n ≠ m := by
          rintro rfl
          simp [hnone] at hn
        exact ⟨n, by simpa [hnm] using hn, by simpa [hnm, hji] using heq⟩

end Service

theorem ConnectMove.joined {c c' : ConnectCall} {offline : Bool} {ev : ConnectLocal}
    (hmove : ConnectMove c offline ev c') :
    c'.ready = c.ready ∧ c'.agentHello = c.agentHello := by
  cases hmove <;> exact ⟨rfl, rfl⟩

theorem AcceptMove.joined {c c' : AcceptCall} {ctx : Option CtxErr} {ev : AcceptLocal}
    (hmove : AcceptMove c ctx ev c') (h : c.StreamInv) :
    c'.session = c.session ∧ (c.session ≠ none → c'.agentHello = c.agentHello) := by
  cases hmove with
  | accepted version sessionId agentHello hpc =>
    exact ⟨rfl, fun hne ↦ absurd (h.early (.inr (.inl hpc))) hne⟩
  | _ => exact ⟨rfl, fun _ ↦ rfl⟩

namespace Service

variable {cfg : Config} {s t : Service} {a : Act}

theorem Step.joinInv (hstep : Step cfg s a t) (hacc : ∀ m, (s.acc m).StreamInv)
    (h : JoinInv s) : JoinInv t := by
  cases hstep with
  | connectOwn i ev c hmove => exact h.setConn hmove.joined.1 hmove.joined.2
  | acceptOwn m ev c hmove =>
    obtain ⟨hsession, hhello⟩ := hmove.joined (hacc m)
    exact h.setAcc hsession hhello
  | notFound m _ _ _ => exact h.setAcc rfl fun _ ↦ rfl
  | found m i hpc _ _ => exact h.found ((hacc m).early (.inr (.inr hpc)))
  | acceptCancelled m i result _ _ =>
    have h' : JoinInv (s.cancelSession i) := h.setConn rfl rfl
    exact h'.setAcc rfl fun _ ↦ rfl
  | clientToAgent m i payload _ _ _ =>
    refine JoinInv.setAcc ?_ rfl fun _ ↦ rfl
    exact h.setConn rfl rfl
  | agentToClient m i payload _ _ _ =>
    refine JoinInv.setAcc ?_ rfl fun _ ↦ rfl
    exact h.setConn rfl rfl
  | _ =>
    first
    | exact h.congr (fun _ ↦ rfl) (fun _ _ ↦ rfl) (fun _ ↦ rfl) (fun _ ↦ rfl)
    | exact h.congr (fun _ ↦ rfl) (fun _ _ ↦ rfl) (proj_update ConnectCall.ready rfl)
        (proj_update ConnectCall.agentHello rfl)

theorem joinInv_of_reachable (h : (machine cfg).Reachable s) : JoinInv s := by
  refine Machine.invariant (I := JoinInv) ?_ ?_ h
  · exact ⟨fun _ _ hm ↦ by contradiction, fun _ hi ↦ by contradiction⟩
  · intro s a t hr hs hstep
    exact (step_of_step hstep).joinInv (accStream_of_reachable hr) hs

/-- Both ends of each channel agree on what has crossed it, for a session with one `Accept`. -/
def PipeInv (s : Service) : Prop :=
  ∀ m i, s.SoleAccept m i →
    (s.acc m).fwd.taken = (s.conn i).fwd.handed ∧ (s.acc m).fwd.handed = (s.conn i).fwd.taken

theorem PipeInv.congr (h : PipeInv s) (hsession : ∀ m, (t.acc m).session = (s.acc m).session)
    (hacc : ∀ m, (t.acc m).fwd.taken = (s.acc m).fwd.taken ∧
      (t.acc m).fwd.handed = (s.acc m).fwd.handed)
    (hconn : ∀ i, (t.conn i).fwd.taken = (s.conn i).fwd.taken ∧
      (t.conn i).fwd.handed = (s.conn i).fwd.handed) : PipeInv t := by
  rintro m i ⟨hm, hsole⟩
  rw [(hacc m).1, (hacc m).2, (hconn i).1, (hconn i).2]
  refine h m i ⟨hsession m ▸ hm, fun n hn ↦ hsole n ?_⟩
  rw [hsession]
  exact hn

/-- What has crossed the two channels of a call. -/
def crossed (h : Handler) : List Bytes × List Bytes := (h.taken, h.handed)

theorem PipeInv.setConn (h : PipeInv s) {i : ℕ} {c : ConnectCall}
    (hsame : crossed c.fwd = crossed (s.conn i).fwd) : PipeInv (s.setConn i c) := by
  refine h.congr (fun _ ↦ rfl) (fun _ ↦ ⟨rfl, rfl⟩) fun j ↦ ?_
  have hj := proj_update (fun c : ConnectCall ↦ crossed c.fwd) hsame j
  exact Prod.mk.inj hj

theorem PipeInv.setAcc (h : PipeInv s) {m : ℕ} {c : AcceptCall}
    (hsession : c.session = (s.acc m).session)
    (hsame : crossed c.fwd = crossed (s.acc m).fwd) : PipeInv (s.setAcc m c) := by
  refine h.congr (proj_update AcceptCall.session hsession) (fun n ↦ ?_) fun _ ↦ ⟨rfl, rfl⟩
  have hn := proj_update (fun c : AcceptCall ↦ crossed c.fwd) hsame n
  exact Prod.mk.inj hn

/-- Nothing has crossed the channels of a session that no `Accept` call has found. -/
theorem crossed_of_unjoined {i : ℕ} (hconn : (s.conn i).StreamInv) (hjoin : JoinInv s)
    (hnone : ∀ n, (s.acc n).session ≠ some i) : (s.conn i).fwd = {} := by
  apply hconn.idle
  by_contra hlen
  obtain ⟨n, hn, _⟩ := hjoin.hello i (hconn.ready (.inr (by omega)))
  exact hnone n hn

theorem makeReady_fwd (s : Service) (i j : ℕ) (agentHello : Bytes) :
    ((s.makeReady i agentHello).conn j).fwd = (s.conn j).fwd := by
  unfold makeReady
  split_ifs
  · rfl
  · rw [setConn_conn]
    apply proj_update ConnectCall.fwd
    rfl

theorem makeReady_acc (s : Service) (i : ℕ) (agentHello : Bytes) :
    (s.makeReady i agentHello).acc = s.acc := by
  unfold makeReady
  split_ifs <;> rfl

theorem PipeInv.found (h : PipeInv s) {m i : ℕ} (hconn : (s.conn i).StreamInv)
    (hjoin : JoinInv s) (hnone : (s.acc m).session = none) :
    PipeInv ((s.makeReady i (s.acc m).agentHello).setAcc m
      { s.acc m with pc := .forwarding, session := some i, fwd := Handler.start }) := by
  rintro n j ⟨hn, hsole⟩
  simp only [setAcc_acc, setAcc_conn, makeReady_fwd, makeReady_acc] at hn hsole ⊢
  by_cases hnm : n = m
  · subst hnm
    have hij : i = j := by simpa using hn
    subst hij
    have hother : ∀ k, (s.acc k).session ≠ some i := by
      intro k hk
      have hkn : k ≠ n := by
        rintro rfl
        simp [hnone] at hk
      exact hkn (hsole k (by simpa [hkn] using hk))
    rw [crossed_of_unjoined hconn hjoin hother]
    simp [Handler.start]
  · have hji : j ≠ i := by
      rintro rfl
      exact hnm (hsole m (by simp)).symm
    simp only [Function.update_of_ne hnm] at hn ⊢
    refine h n j ⟨hn, fun k hk ↦ hsole k ?_⟩
    have hkm : k ≠ m := by
      rintro rfl
      simp [hnone] at hk
    simpa [hkm] using hk

/-- A payload crosses from the client's side to the agent's. -/
theorem PipeInv.clientToAgent (h : PipeInv s) {m i : ℕ} (payload : Bytes) (pump : PumpPc)
    (loop : LoopPc) (hsession : (s.acc m).session = some i) :
    PipeInv ((s.setConn i { s.conn i with fwd := { (s.conn i).fwd with
        pump := pump, handed := (s.conn i).fwd.handed ++ [payload] } }).setAcc m
      { s.acc m with fwd := { (s.acc m).fwd with
        loop := loop, taken := (s.acc m).fwd.taken ++ [payload] } }) := by
  rintro n j ⟨hn, hsole⟩
  simp only [setAcc_acc, setAcc_conn, setConn_acc, setConn_conn,
    proj_update AcceptCall.session] at hn hsole ⊢
  by_cases hnm : n = m
  · subst hnm
    have hij : i = j := by simpa [hsession] using hn
    subst hij
    have hpipe := h n i ⟨hsession, hsole⟩
    simp [hpipe.1, hpipe.2]
  · have hji : j ≠ i := by
      rintro rfl
      exact hnm (hsole m hsession).symm
    simp only [Function.update_of_ne hnm, Function.update_of_ne hji]
    exact h n j ⟨hn, hsole⟩

/-- A payload crosses from the agent's side to the client's. -/
theorem PipeInv.agentToClient (h : PipeInv s) {m i : ℕ} (payload : Bytes) (pump : PumpPc)
    (loop : LoopPc) (hsession : (s.acc m).session = some i) :
    PipeInv ((s.setConn i { s.conn i with fwd := { (s.conn i).fwd with
        loop := loop, taken := (s.conn i).fwd.taken ++ [payload] } }).setAcc m
      { s.acc m with fwd := { (s.acc m).fwd with
        pump := pump, handed := (s.acc m).fwd.handed ++ [payload] } }) := by
  rintro n j ⟨hn, hsole⟩
  simp only [setAcc_acc, setAcc_conn, setConn_acc, setConn_conn,
    proj_update AcceptCall.session] at hn hsole ⊢
  by_cases hnm : n = m
  · subst hnm
    have hij : i = j := by simpa [hsession] using hn
    subst hij
    have hpipe := h n i ⟨hsession, hsole⟩
    simp [hpipe.1, hpipe.2]
  · have hji : j ≠ i := by
      rintro rfl
      exact hnm (hsole m hsession).symm
    simp only [Function.update_of_ne hnm, Function.update_of_ne hji]
    exact h n j ⟨hn, hsole⟩

end Service

theorem ConnectMove.crossed {c c' : ConnectCall} {offline : Bool} {ev : ConnectLocal}
    (hmove : ConnectMove c offline ev c') (h : c.StreamInv) :
    Service.crossed c'.fwd = Service.crossed c.fwd := by
  cases hmove with
  | accepted hpc =>
    have hone : c.greeting = c.preamble.take 1 := h.greeted 1 (by rw [hpc]; rfl)
    rw [h.idle (by simp [hone, ConnectCall.preamble])]
    rfl
  | forward ev handler hmove => simp [Service.crossed, hmove.frame.1, hmove.frame.2]
  | _ => rfl

theorem AcceptMove.crossed {c c' : AcceptCall} {ctx : Option CtxErr} {ev : AcceptLocal}
    (hmove : AcceptMove c ctx ev c') : Service.crossed c'.fwd = Service.crossed c.fwd := by
  cases hmove with
  | forward ev handler hmove => simp [Service.crossed, hmove.frame.1, hmove.frame.2]
  | _ => rfl

namespace Service

variable {cfg : Config} {s t : Service} {a : Act}

theorem Step.pipeInv (hstep : Step cfg s a t) (hconn : ∀ i, (s.conn i).StreamInv)
    (hacc : ∀ m, (s.acc m).StreamInv) (hjoin : JoinInv s) (h : PipeInv s) : PipeInv t := by
  cases hstep with
  | connectOwn i ev c hmove => exact h.setConn (hmove.crossed (hconn i))
  | acceptOwn m ev c hmove => exact h.setAcc (hmove.joined (hacc m)).1 hmove.crossed
  | notFound m _ _ _ => exact h.setAcc rfl rfl
  | found m i hpc _ _ =>
    exact h.found (hconn i) hjoin ((hacc m).early (.inr (.inr hpc)))
  | acceptCancelled m i result _ _ =>
    have h' : PipeInv (s.cancelSession i) := h.setConn rfl
    exact h'.setAcc rfl rfl
  | clientToAgent m i payload hsession _ _ => exact h.clientToAgent payload _ _ hsession
  | agentToClient m i payload hsession _ _ => exact h.agentToClient payload _ _ hsession
  | _ =>
    first
    | exact h.congr (fun _ ↦ rfl) (fun _ ↦ ⟨rfl, rfl⟩) (fun _ ↦ ⟨rfl, rfl⟩)
    | exact PipeInv.setConn (h.congr (fun _ ↦ rfl) (fun _ ↦ ⟨rfl, rfl⟩) fun _ ↦ ⟨rfl, rfl⟩) rfl

theorem pipeInv_of_reachable (h : (machine cfg).Reachable s) : PipeInv s := by
  refine Machine.invariant (I := PipeInv) ?_ ?_ h
  · exact fun _ _ hsole ↦ absurd hsole.1 (by simp [machine])
  · intro s a t hr hs hstep
    exact (step_of_step hstep).pipeInv (connStream_of_reachable hr) (accStream_of_reachable hr)
      (joinInv_of_reachable hr) hs

/-- A session joined by exactly one `Accept` call is a pair of FIFO pipes: the frames sent to the
client are a prefix of the assignment, the agent's acceptance and the payloads received from
the agent, and the payloads sent to the agent are a prefix of those received from the client. -/
theorem faithful_pipes (cfg : Config) {s : Service} (h : (machine cfg).Reachable s) {m i : ℕ}
    (hsole : s.SoleAccept m i) :
    (s.conn i).frames <+:
      [.sessionAssigned (s.conn i).sid,
        .agentAccept protocolVersion (s.conn i).sid (s.acc m).agentHello] ++
      (s.acc m).fwd.received.map connectCiphertext ∧
    (s.acc m).fwd.sent <+: (s.conn i).fwd.received := by
  have hconn := connStream_of_reachable h i
  have hacc := accStream_of_reachable h m
  obtain ⟨htaken, hhanded⟩ := pipeInv_of_reachable h m i hsole
  refine ⟨?_, ?_⟩
  · unfold ConnectCall.frames
    by_cases hshort : (s.conn i).greeting.length < 2
    · rw [hconn.idle hshort]
      have htake := List.prefix_take_iff.mpr ⟨hconn.within, Nat.le_of_lt_succ hshort⟩
      have hone : (s.conn i).greeting <+: [.sessionAssigned (s.conn i).sid] := by
        simpa [ConnectCall.preamble] using htake
      simpa using hone.trans (by simp)
    · have hlong : 2 ≤ (s.conn i).greeting.length := by omega
      have hfull : (s.conn i).greeting = (s.conn i).preamble :=
        hconn.within.eq_of_length_le (by simpa [ConnectCall.preamble] using hlong)
      obtain ⟨n, hn, hhello⟩ := (joinInv_of_reachable h).hello i (hconn.ready (.inr hlong))
      rw [hsole.2 n hn] at hhello
      have hsent : (s.conn i).fwd.sent <+: (s.acc m).fwd.received :=
        (hconn.handler.sent_prefix_taken.trans (hhanded ▸ List.prefix_rfl)).trans
          hacc.handler.handed_prefix_received
      rw [hfull, ConnectCall.preamble, hhello]
      exact (List.prefix_append_right_inj _).mpr (hsent.map _)
  · exact (hacc.handler.sent_prefix_taken.trans (htaken ▸ List.prefix_rfl)).trans
      hconn.handler.handed_prefix_received

/-- A direction whose receiving goroutine has seen the end of file is drained when the other
handler has returned: everything received has been handed over, taken and sent. -/
theorem sent_eq_received {tx rx : Handler} (htx : tx.Inv) (hrx : rx.Inv) {e : Err}
    (hcross : rx.taken = tx.handed) (hpump : tx.pump = .done e) (heof : e.is .eof = true)
    (hloop : rx.loop.running = false) (hok : rx.sendFailed = false) : rx.sent = tx.received := by
  have hreceived := htx.received_eq (by simp [hpump, PumpPc.failed, heof])
  have htaken := hrx.taken_eq hok
  rw [hpump] at hreceived
  rw [LoopPc.held_of_not_running hloop, List.append_nil] at htaken
  rw [← htaken, hcross, hreceived]
  exact (List.append_nil _).symm

/-- With all sends succeeding, a graceful end of one side drains through the relay: once the
goroutine on that side has received its end of file, the other handler returns only after it
has sent exactly the payloads received, in order. -/
theorem graceful_end_drains (cfg : Config) {s : Service} (h : (machine cfg).Reachable s) {m i : ℕ}
    (hsole : s.SoleAccept m i) :
    (∀ e result, (s.conn i).fwd.pump = .done e → e.is .eof = true →
      (s.acc m).pc = .returned result → (s.acc m).fwd.sendFailed = false →
      (s.acc m).fwd.sent = (s.conn i).fwd.received) ∧
    (∀ e result, (s.acc m).fwd.pump = .done e → e.is .eof = true →
      (s.conn i).pc = .returned result → (s.conn i).fwd.sendFailed = false →
      (s.conn i).fwd.sent = (s.acc m).fwd.received) := by
  have hconn := connStream_of_reachable h i
  have hacc := accStream_of_reachable h m
  obtain ⟨htaken, hhanded⟩ := pipeInv_of_reachable h m i hsole
  refine ⟨fun e result hpump heof hret hok ↦ ?_, fun e result hpump heof hret hok ↦ ?_⟩
  · exact sent_eq_received hconn.handler hacc.handler htaken hpump heof
      (hacc.not_running (by simp [hret])) hok
  · exact sent_eq_received hacc.handler hconn.handler hhanded.symm hpump heof
      (hconn.not_running (by simp [hret])) hok

end Service

/-- The `Accept` call that an action steps. -/
def Act.acceptCall : Act → Option ℕ
  | .accept m _ => some m
  | .clientToAgent m => some m
  | .agentToClient m => some m
  | _ => none

namespace Service

variable {cfg : Config} {s t : Service} {a : Act}

theorem Step.acc_eq (hstep : Step cfg s a t) {n : ℕ} (hn : a.acceptCall ≠ some n) :
    t.acc n = s.acc n := by
  have hother : ∀ m c, some m ≠ some n → Function.update s.acc m c n = s.acc n := by
    intro m c hmn
    exact Function.update_of_ne (fun heq ↦ hmn (congrArg some heq.symm)) c s.acc
  cases hstep with
  | acceptOwn m ev c _ => exact hother m c hn
  | notFound m _ _ _ => exact hother m _ hn
  | found m i _ _ _ =>
    rw [setAcc_acc, makeReady_acc]
    exact hother m _ hn
  | acceptCancelled m i result _ _ => exact hother m _ hn
  | clientToAgent m i payload _ _ _ => exact hother m _ hn
  | agentToClient m i payload _ _ _ => exact hother m _ hn
  | _ => rfl

/-- A run in which only `Accept` call `m` takes steps has no other call in any session. -/
theorem soleAccept_of_exec {m i : ℕ} (actions : List Act)
    (hact : ∀ a ∈ actions, a.acceptCall = none ∨ a.acceptCall = some m)
    (hexec : (machine cfg).exec {} actions = some s) (hm : (s.acc m).session = some i) :
    s.SoleAccept m i := by
  refine ⟨hm, fun n hn ↦ ?_⟩
  by_contra hne
  have hidle : s.acc n = {} := by
    refine Machine.exec_proj (fun s : Service ↦ s.acc n) actions (fun a ha s t hstep ↦ ?_) hexec
    refine (step_of_step hstep).acc_eq ?_
    rcases hact a ha with hnone | hsome
    · simp [hnone]
    · simpa [hsome] using Ne.symm hne
  rw [hidle] at hn
  contradiction

theorem faithful_pipes_sampleSession :
    ∃ s, (machine sampleConfig).exec {} sampleSession = some s ∧ s.SoleAccept 0 0 ∧
      (s.conn 0).frames = [.sessionAssigned sampleSid, .agentAccept 1 sampleSid [4, 5],
        .ciphertext [20]] ∧
      (s.acc 0).fwd.sent = [[10]] ∧ (s.acc 0).fwd.sent <+: (s.conn 0).fwd.received := by
  obtain ⟨s, hexec, hsession, hframes, hsent⟩ := Machine.exists_of_exec
    (M := machine sampleConfig) (s := {}) sampleSession (fun s ↦ (s.acc 0).session = some 0 ∧
      (s.conn 0).frames = [.sessionAssigned sampleSid, .agentAccept 1 sampleSid [4, 5],
        .ciphertext [20]] ∧ (s.acc 0).fwd.sent = [[10]]) (by decide +kernel)
  have hsole := soleAccept_of_exec sampleSession (by decide) hexec hsession
  have hpipes := faithful_pipes sampleConfig (Machine.reaches_of_exec sampleSession hexec) hsole
  exact ⟨s, hexec, hsole, hframes, hsent, hpipes.2⟩

/-- The agent ends its side too. -/
def sampleEnd : List Act := sampleSession ++ [.accept 0 (.own (.forward (.recv (.error .eof))))]

theorem graceful_end_drains_sampleEnd :
    ∃ s, (machine sampleConfig).exec {} sampleEnd = some s ∧ s.SoleAccept 0 0 ∧
      ((s.conn 0).fwd.pump = .done .eof ∧ (s.acc 0).pc = .returned none ∧
        (s.acc 0).fwd.sendFailed = false ∧ (s.conn 0).fwd.received = [[10]]) ∧
      ((s.acc 0).fwd.pump = .done .eof ∧ (s.conn 0).pc = .returned none ∧
        (s.conn 0).fwd.sendFailed = false ∧ (s.acc 0).fwd.received = [[20]]) ∧
      (s.acc 0).fwd.sent = [[10]] ∧ (s.conn 0).fwd.sent = [[20]] := by
  obtain ⟨s, hexec, hsession, hclient, hagent⟩ := Machine.exists_of_exec
    (M := machine sampleConfig) (s := {}) sampleEnd (fun s ↦ (s.acc 0).session = some 0 ∧
      ((s.conn 0).fwd.pump = .done .eof ∧ (s.acc 0).pc = .returned none ∧
        (s.acc 0).fwd.sendFailed = false ∧ (s.conn 0).fwd.received = [[10]]) ∧
      ((s.acc 0).fwd.pump = .done .eof ∧ (s.conn 0).pc = .returned none ∧
        (s.conn 0).fwd.sendFailed = false ∧ (s.acc 0).fwd.received = [[20]])) (by decide +kernel)
  have hsole := soleAccept_of_exec sampleEnd (by decide) hexec hsession
  obtain ⟨hto, hfrom⟩ := graceful_end_drains sampleConfig
    (Machine.reaches_of_exec sampleEnd hexec) hsole
  refine ⟨s, hexec, hsole, hclient, hagent, ?_, ?_⟩
  · rw [← hclient.2.2.2]
    exact hto .eof none hclient.1 rfl hclient.2.1 hclient.2.2.1
  · rw [← hagent.2.2.2]
    exact hfrom .eof none hagent.1 rfl hagent.2.1 hagent.2.2.1

end Service

end RelayCat.Relay
