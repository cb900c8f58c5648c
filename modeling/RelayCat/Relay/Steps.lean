import RelayCat.Relay.Service

/-!
# What a step of the relay can do

Inversion of the step functions, once for the steps inside each kind of call and once for the
whole service. `Phase` abstracts the control point of `Connect` to what its deferred functions
still have to undo: every step inside a call keeps the phase or moves it towards the exit.
-/

namespace RelayCat.Relay

open Go Wire Automaton

inductive Phase where
  | early
  | reserved
  | assigned
  | listed
  | unlisted
  | cancelled
  | returned
  deriving DecidableEq, Repr

def ConnectPc.phase : ConnectPc → Phase
  | .idle | .recvOpen | .reserving _ => .early
  | .allocating => .reserved
  | .assigning | .recvHandshake | .inserting _ => .assigned
  | .notifying _ | .awaitReady | .accepting | .forwarding | .deleting _ => .listed
  | .cancelling _ => .unlisted
  | .releasing _ => .cancelled
  | .returned _ => .returned

/-- Everything a step inside `RegisterAgent` can do. -/
inductive RegisterMove (c : RegisterCall) : RegisterLocal → RegisterCall → Prop
  | called (req : RegisterAgentRequest) : c.pc = .idle → req.routeId.length = routeIDSize →
      RegisterMove c (.call req) { c with pc := .registering, route := req.routeId }
  | refused (req : RegisterAgentRequest) (e : Err) : c.pc = .idle →
      RegisterMove c (.call req) { c with pc := .returned e, route := req.routeId }
  | streamDone (e : CtxErr) : RegisterMove c (.streamDone e) { c with ctx := c.ctx <|> some e }
  | ctxDone (e : CtxErr) : c.pc = .serving → c.ctx = some e →
      RegisterMove c .ctxDone { c with pc := .leaving e.statusErr }
  | sent (i : ℕ) (msg : RegisterAgentResponse) : c.pc = .sending i msg →
      msg.marshal.length ≤ maxMsgSize → RegisterMove c (.send .ok) { c with pc := .serving }
  | tooLarge (i : ℕ) (msg : RegisterAgentResponse) : c.pc = .sending i msg →
      ¬ msg.marshal.length ≤ maxMsgSize →
      RegisterMove c (.send .tooLarge) { c with pc := .leaving sendTooLarge }
  | sendFailed (i : ℕ) (msg : RegisterAgentResponse) (e : Err) : c.pc = .sending i msg →
      RegisterMove c (.send (.failed e)) { c with pc := .leaving e }

theorem registerMove_of_next {c c' : RegisterCall} {ev : RegisterLocal}
    (hnext : c.next ev = some c') : RegisterMove c ev c' := by
  cases ev with
  | call req =>
    simp only [RegisterCall.next] at hnext
    split at hnext
    · rename_i hpc
      cases hnext
      unfold registerCheck
      split_ifs with hversion hroute
      · exact .refused req _ hpc
      · exact .refused req _ hpc
      · exact .called req hpc (by simpa using hroute)
    · contradiction
  | streamDone e =>
    cases hnext
    exact .streamDone e
  | ctxDone =>
    simp only [RegisterCall.next] at hnext
    split at hnext
    · rename_i e hpc hctx
      cases hnext
      exact .ctxDone e hpc hctx
    · contradiction
  | send result =>
    simp only [RegisterCall.next] at hnext
    split at hnext
    · rename_i i msg hpc
      cases result with
      | ok =>
        simp only at hnext
        split_ifs at hnext with hsize
        cases hnext
        exact .sent i msg hpc hsize
      | tooLarge =>
        simp only at hnext
        split_ifs at hnext with hsize
        cases hnext
        exact .tooLarge i msg hpc hsize
      | failed e =>
        cases hnext
        exact .sendFailed i msg e hpc
    · contradiction

/-- Everything a step inside `Connect` can do. -/
inductive ConnectMove (c : ConnectCall) (offline : Bool) : ConnectLocal → ConnectCall → Prop
  | called : c.pc = .idle → ConnectMove c offline .call { c with pc := .recvOpen }
  | streamDone (e : CtxErr) :
      ConnectMove c offline (.streamDone e) { c with ctx := c.ctx <|> some e }
  | opened (version : ℕ) (routeId : Bytes) : c.pc = .recvOpen →
      ConnectMove c offline (.recv (.ok (.clientOpen version routeId)))
        { c with pc := .reserving routeId }
  | openRefused (result : Except Err ConnectRequest) (e : Err) : c.pc = .recvOpen →
      ConnectMove c offline (.recv result) { c with pc := .returned (some e) }
  | refused (ev : ConnectLocal) (e : Err) : c.pc.phase = .assigned →
      ConnectMove c offline ev { c with pc := .cancelling (some e) }
  | assigned : c.pc = .assigning →
      ConnectMove c offline (.sendAssigned none)
        { c with pc := .recvHandshake, greeting := c.greeting ++ [.sessionAssigned c.sid] }
  | handshake (clientHello : Bytes) : c.pc = .recvHandshake → clientHello ≠ [] →
      (ConnectRequest.clientHandshake clientHello).marshal.length ≤ maxMsgSize →
      ConnectMove c offline (.recv (.ok (.clientHandshake clientHello)))
        { c with pc := .inserting clientHello }
  | left (ev : ConnectLocal) (result : Option Err) : c.pc.phase = .listed →
      (c.pc = .forwarding → c.fwd.loop = .exited result) →
      ConnectMove c offline ev { c with pc := .deleting result }
  | ready : c.pc = .awaitReady → c.ready = true →
      ConnectMove c offline .ready { c with pc := .accepting }
  | accepted : c.pc = .accepting →
      ConnectMove c offline (.sendAccept none) { c with
        pc := .forwarding
        greeting := c.greeting ++ [.agentAccept protocolVersion c.sid c.agentHello]
        fwd := Handler.start }
  | forward (ev : HandlerEvent ConnectRequest) (h : Handler) :
      Handler.Move ConnectRequest.getCiphertext connectDone c.ctx c.fwd ev h →
      ConnectMove c offline (.forward ev) { c with fwd := h }
  | cancel (result : Option Err) : c.pc = .cancelling result →
      ConnectMove c offline .cancel
        { c with pc := .releasing result, ctx := c.ctx <|> some .canceled }

/-- The two frames that `Connect` receives before it forwards. -/
theorem connectMove_of_recv {c c' : ConnectCall} {offline : Bool}
    {result : Except Err ConnectRequest} (hnext : c.next offline (.recv result) = some c') :
    ConnectMove c offline (.recv result) c' := by
  simp only [ConnectCall.next] at hnext
  split_ifs at hnext with hfits
  split at hnext
  · rename_i hpc
    rcases result with e | ⟨version, routeId⟩ | clientHello | payload | _
    · cases hnext
      exact .openRefused _ e hpc
    · cases hnext
      simp only [openCheck]
      split_ifs with hvalid
      · exact .opened version routeId hpc
      · exact .openRefused _ _ hpc
    · cases hnext
      exact .openRefused _ _ hpc
    · cases hnext
      exact .openRefused _ _ hpc
    · cases hnext
      exact .openRefused _ _ hpc
  · rename_i hpc
    have hphase : c.pc.phase = .assigned := by
      rw [hpc]
      rfl
    rcases result with e | ⟨version, routeId⟩ | clientHello | payload | _
    · cases hnext
      exact .refused _ e hphase
    · cases hnext
      exact .refused _ _ hphase
    · cases hnext
      simp only [handshakeCheck]
      split_ifs with hempty
      · exact .refused _ _ hphase
      · refine .handshake clientHello hpc ?_ (by simpa [recvFits] using hfits)
        exact fun hnil ↦ hempty (by simp [hnil])
    · cases hnext
      exact .refused _ _ hphase
    · cases hnext
      exact .refused _ _ hphase
  · contradiction

theorem connectMove_of_next {c c' : ConnectCall} {offline : Bool} {ev : ConnectLocal}
    (hnext : c.next offline ev = some c') : ConnectMove c offline ev c' := by
  cases ev with
  | call =>
    simp only [ConnectCall.next] at hnext
    split at hnext
    · rename_i hpc
      cases hnext
      exact .called hpc
    · contradiction
  | streamDone e =>
    cases hnext
    exact .streamDone e
  | recv result => exact connectMove_of_recv hnext
  | sendAssigned result =>
    simp only [ConnectCall.next] at hnext
    split at hnext
    · rename_i hpc
      cases result with
      | none =>
        cases hnext
        exact .assigned hpc
      | some e =>
        cases hnext
        exact .refused _ e (by rw [hpc]; rfl)
    · contradiction
  | agentDone =>
    simp only [ConnectCall.next] at hnext
    split at hnext
    · rename_i clientHello hpc
      split_ifs at hnext
      cases hnext
      exact .left _ _ (by rw [hpc]; rfl) (by simp [hpc])
    · contradiction
  | ctxDone =>
    simp only [ConnectCall.next] at hnext
    split at hnext
    · rename_i clientHello e hpc _
      cases hnext
      exact .left _ _ (by rw [hpc]; rfl) (by simp [hpc])
    · rename_i e hpc _
      cases hnext
      exact .left _ _ (by rw [hpc]; rfl) (by simp [hpc])
    · contradiction
  | timeout =>
    simp only [ConnectCall.next] at hnext
    split at hnext
    · rename_i clientHello hpc
      cases hnext
      exact .left _ _ (by rw [hpc]; rfl) (by simp [hpc])
    · rename_i hpc
      cases hnext
      exact .left _ _ (by rw [hpc]; rfl) (by simp [hpc])
    · contradiction
  | ready =>
    simp only [ConnectCall.next] at hnext
    split at hnext
    · rename_i hpc
      split_ifs at hnext with hready
      cases hnext
      exact .ready hpc hready
    · contradiction
  | sendAccept result =>
    simp only [ConnectCall.next] at hnext
    split at hnext
    · rename_i hpc
      cases result with
      | none =>
        cases hnext
        exact .accepted hpc
      | some e =>
        cases hnext
        exact .left _ _ (by rw [hpc]; rfl) (by simp [hpc])
    · contradiction
  | forward ev =>
    simp only [ConnectCall.next] at hnext
    split_ifs at hnext
    obtain ⟨h, hstep, heq⟩ := Option.map_eq_some_iff.mp hnext
    subst heq
    exact .forward ev h (Handler.move_of_step hstep)
  | leave =>
    simp only [ConnectCall.next] at hnext
    split at hnext
    · rename_i result hpc hloop
      cases hnext
      exact .left _ _ (by rw [hpc]; rfl) (fun _ ↦ hloop)
    · contradiction
  | cancel =>
    simp only [ConnectCall.next] at hnext
    split at hnext
    · rename_i result hpc
      cases hnext
      exact .cancel result hpc
    · contradiction

/-- Everything a step inside `Accept` can do. -/
inductive AcceptMove (c : AcceptCall) (ctx : Option CtxErr) : AcceptLocal → AcceptCall → Prop
  | called : c.pc = .idle → AcceptMove c ctx .call { c with pc := .recvFirst }
  | refused (result : Except Err AcceptRequest) (e : Err) : c.pc = .recvFirst →
      AcceptMove c ctx (.recv result) { c with pc := .returned (some e) }
  | accepted (version : ℕ) (sessionId agentHello : Bytes) : c.pc = .recvFirst →
      AcceptMove c ctx (.recv (.ok (.agentAccept version sessionId agentHello)))
        { c with pc := .looking, sessionId := sessionId, agentHello := agentHello }
  | forward (ev : HandlerEvent AcceptRequest) (h : Handler) :
      Handler.Move AcceptRequest.getCiphertext acceptDone ctx c.fwd ev h →
      AcceptMove c ctx (.forward ev) { c with fwd := h }
  | left (result : Option Err) : c.pc = .forwarding → c.fwd.loop = .exited result →
      AcceptMove c ctx .leave { c with pc := .cancelling result }

theorem acceptMove_of_next {c c' : AcceptCall} {ctx : Option CtxErr} {ev : AcceptLocal}
    (hnext : c.next ctx ev = some c') : AcceptMove c ctx ev c' := by
  cases ev with
  | call =>
    simp only [AcceptCall.next] at hnext
    split at hnext
    · rename_i hpc
      cases hnext
      exact .called hpc
    · contradiction
  | recv result =>
    simp only [AcceptCall.next] at hnext
    split at hnext
    · rename_i hpc
      rcases result with e | ⟨version, sessionId, agentHello⟩ | payload | _
      · cases hnext
        exact .refused _ e hpc
      · cases hnext
        simp only [AcceptCall.first]
        split_ifs
        · exact .accepted version sessionId agentHello hpc
        · exact .refused _ _ hpc
      · cases hnext
        exact .refused _ _ hpc
      · cases hnext
        exact .refused _ _ hpc
    · contradiction
  | forward ev =>
    simp only [AcceptCall.next] at hnext
    obtain ⟨h, hstep, heq⟩ := Option.map_eq_some_iff.mp hnext
    subst heq
    exact .forward ev h (Handler.move_of_step hstep)
  | leave =>
    simp only [AcceptCall.next] at hnext
    split at hnext
    · rename_i result hpc hloop
      cases hnext
      exact .left result hpc hloop
    · contradiction

namespace Service

section Fields

variable (s : Service) (r i m : ℕ) (c : RegisterCall) (d : ConnectCall) (f : AcceptCall)

@[simp] theorem setReg_reg : (s.setReg r c).reg = Function.update s.reg r c := rfl
@[simp] theorem setReg_conn : (s.setReg r c).conn = s.conn := rfl
@[simp] theorem setReg_acc : (s.setReg r c).acc = s.acc := rfl
@[simp] theorem setReg_agents : (s.setReg r c).agents = s.agents := rfl
@[simp] theorem setReg_sessions : (s.setReg r c).sessions = s.sessions := rfl
@[simp] theorem setReg_gauge : (s.setReg r c).gauge = s.gauge := rfl
@[simp] theorem setReg_drawn : (s.setReg r c).drawn = s.drawn := rfl
@[simp] theorem setReg_mu : (s.setReg r c).mu = s.mu := rfl

@[simp] theorem setConn_reg : (s.setConn i d).reg = s.reg := rfl
@[simp] theorem setConn_conn : (s.setConn i d).conn = Function.update s.conn i d := rfl
@[simp] theorem setConn_acc : (s.setConn i d).acc = s.acc := rfl
@[simp] theorem setConn_agents : (s.setConn i d).agents = s.agents := rfl
@[simp] theorem setConn_sessions : (s.setConn i d).sessions = s.sessions := rfl
@[simp] theorem setConn_gauge : (s.setConn i d).gauge = s.gauge := rfl
@[simp] theorem setConn_drawn : (s.setConn i d).drawn = s.drawn := rfl
@[simp] theorem setConn_mu : (s.setConn i d).mu = s.mu := rfl

@[simp] theorem setAcc_reg : (s.setAcc m f).reg = s.reg := rfl
@[simp] theorem setAcc_conn : (s.setAcc m f).conn = s.conn := rfl
@[simp] theorem setAcc_acc : (s.setAcc m f).acc = Function.update s.acc m f := rfl
@[simp] theorem setAcc_agents : (s.setAcc m f).agents = s.agents := rfl
@[simp] theorem setAcc_sessions : (s.setAcc m f).sessions = s.sessions := rfl
@[simp] theorem setAcc_gauge : (s.setAcc m f).gauge = s.gauge := rfl
@[simp] theorem setAcc_drawn : (s.setAcc m f).drawn = s.drawn := rfl
@[simp] theorem setAcc_mu : (s.setAcc m f).mu = s.mu := rfl

end Fields

/-- Everything a step of the service can do. -/
inductive Step (cfg : Config) (s : Service) : Act → Service → Prop
  | registerOwn (r : ℕ) (ev : RegisterLocal) (c : RegisterCall) : RegisterMove (s.reg r) ev c →
      Step cfg s (.register r (.own ev)) (s.setReg r c)
  | registerRefused (r : ℕ) (e : Err) : (s.reg r).pc = .registering →
      Step cfg s (.register r .register) (s.setReg r { s.reg r with pc := .returned e })
  | registered (r : ℕ) : (s.reg r).pc = .registering → s.mu = none →
      (s.agents.keys.length : ℤ) < cfg.maxAgents → s.agents.lookup (s.reg r).route = none →
      Step cfg s (.register r .register)
        { s.setReg r { s.reg r with pc := .serving } with
          agents := s.agents.insert (s.reg r).route r
          gauge := s.gauge + 1 }
  | locked (r : ℕ) (result : Err) : (s.reg r).pc = .leaving result → s.mu = none →
      s.agents.lookup (s.reg r).route = some r →
      Step cfg s (.register r .lock)
        { s.setReg r { s.reg r with pc := .closing result } with
          mu := some r
          agents := s.agents.erase (s.reg r).route
          gauge := s.gauge - 1 }
  | lockedOther (r : ℕ) (result : Err) : (s.reg r).pc = .leaving result → s.mu = none →
      s.agents.lookup (s.reg r).route ≠ some r →
      Step cfg s (.register r .lock)
        { s.setReg r { s.reg r with pc := .closing result } with mu := some r }
  | doneClosed (r : ℕ) (result : Err) : (s.reg r).pc = .closing result →
      Step cfg s (.register r .closeDone) (s.setReg r { s.reg r with
        pc := .cancelling result (s.sessionsOf r), done := true })
  | sessionCancelled (r i : ℕ) (result : Err) (todo : List ℕ) :
      (s.reg r).pc = .cancelling result todo → i ∈ todo →
      Step cfg s (.register r (.cancelSession i)) ((s.cancelSession i).setReg r
        { s.reg r with pc := .cancelling result (todo.filter (· ≠ i)) })
  | unlocked (r : ℕ) (result : Err) : (s.reg r).pc = .cancelling result [] →
      Step cfg s (.register r .unlock)
        { s.setReg r { s.reg r with pc := .returned result } with mu := none }
  | connectOwn (i : ℕ) (ev : ConnectLocal) (c : ConnectCall) :
      ConnectMove (s.conn i) (s.offline i) ev c → Step cfg s (.connect i (.own ev)) (s.setConn i c)
  | reserveRefused (i : ℕ) (routeId : Bytes) (e : Err) : (s.conn i).pc = .reserving routeId →
      Step cfg s (.connect i .reserveAgent)
        (s.setConn i { s.conn i with pc := .returned (some e), refused := true })
  | reserved (i a : ℕ) (routeId : Bytes) : (s.conn i).pc = .reserving routeId → s.mu = none →
      s.agents.lookup routeId = some a → (s.reg a).active < cfg.maxTunnelsPerAgent →
      Step cfg s (.connect i .reserveAgent)
        ((s.setReg a { s.reg a with active := (s.reg a).active + 1 }).setConn i
          { s.conn i with pc := .allocating, agent := some a })
  | randFailed (i : ℕ) (e : Err) : (s.conn i).pc = .allocating →
      Step cfg s (.connect i (.randRead none))
        (s.setConn i { s.conn i with pc := .releasing (some e) })
  | drew (i : ℕ) (sid : Bytes) : (s.conn i).pc = .allocating → sid.length = 16 →
      Step cfg s (.connect i (.randRead (some sid)))
        { s.setConn i { s.conn i with pc := .assigning, sid := sid } with
          drawn := s.drawn ++ [sid] }
  | inserted (i : ℕ) (clientHello : Bytes) : (s.conn i).pc = .inserting clientHello →
      s.mu = none → Step cfg s (.connect i .insertSession)
        { s.setConn i { s.conn i with
            pc := .notifying clientHello, inserted := (s.conn i).inserted + 1 } with
          sessions := s.sessions.insert (s.conn i).sid i }
  | deleted (i : ℕ) (result : Option Err) : (s.conn i).pc = .deleting result → s.mu = none →
      Step cfg s (.connect i .deleteSession)
        { s.setConn i { s.conn i with
            pc := .cancelling result, deleted := (s.conn i).deleted + 1 } with
          sessions := s.sessions.erase (s.conn i).sid }
  | released (i a : ℕ) (result : Option Err) : (s.conn i).pc = .releasing result →
      (s.conn i).agent = some a → s.mu = none →
      Step cfg s (.connect i .releaseAgent)
        ((s.releaseAgent a).setConn i
          { s.conn i with pc := .returned result, released := (s.conn i).released + 1 })
  | acceptOwn (m : ℕ) (ev : AcceptLocal) (c : AcceptCall) :
      AcceptMove (s.acc m) (s.sessionCtx m) ev c → Step cfg s (.accept m (.own ev)) (s.setAcc m c)
  | notFound (m : ℕ) : (s.acc m).pc = .looking → s.mu = none →
      s.sessions.lookup (s.acc m).sessionId = none →
      Step cfg s (.accept m .lookup) (s.setAcc m { s.acc m with
        pc := .returned (some (.status .notFound "session is not pending")) })
  | found (m i : ℕ) : (s.acc m).pc = .looking → s.mu = none →
      s.sessions.lookup (s.acc m).sessionId = some i →
      Step cfg s (.accept m .lookup) ((s.makeReady i (s.acc m).agentHello).setAcc m
        { s.acc m with pc := .forwarding, session := some i, fwd := Handler.start })
  | acceptCancelled (m i : ℕ) (result : Option Err) : (s.acc m).pc = .cancelling result →
      (s.acc m).session = some i →
      Step cfg s (.accept m .cancel)
        ((s.cancelSession i).setAcc m { s.acc m with pc := .returned result })
  | notified (i a : ℕ) (clientHello : Bytes) : (s.conn i).pc = .notifying clientHello →
      (s.conn i).agent = some a → (s.reg a).pc = .serving →
      Step cfg s (.notify i)
        ((s.setReg a { s.reg a with
            pc := .sending i (notification (s.conn i) clientHello) }).setConn i
          { s.conn i with pc := .awaitReady })
  | clientToAgent (m i : ℕ) (payload : Bytes) : (s.acc m).session = some i →
      (s.conn i).fwd.pump = .handing payload → (s.acc m).fwd.loop = .selecting →
      Step cfg s (.clientToAgent m)
        ((s.setConn i { s.conn i with fwd := { (s.conn i).fwd with
            pump := .receiving, handed := (s.conn i).fwd.handed ++ [payload] } }).setAcc m
          { s.acc m with fwd := { (s.acc m).fwd with
            loop := .sending payload, taken := (s.acc m).fwd.taken ++ [payload] } })
  | agentToClient (m i : ℕ) (payload : Bytes) : (s.acc m).session = some i →
      (s.acc m).fwd.pump = .handing payload → (s.conn i).fwd.loop = .selecting →
      Step cfg s (.agentToClient m)
        ((s.setConn i { s.conn i with fwd := { (s.conn i).fwd with
            loop := .sending payload, taken := (s.conn i).fwd.taken ++ [payload] } }).setAcc m
          { s.acc m with fwd := { (s.acc m).fwd with
            pump := .receiving, handed := (s.acc m).fwd.handed ++ [payload] } })

variable {cfg : Config} {s t : Service}

theorem step_of_registerAgent {r : ℕ} {ev : RegisterEvent}
    (h : s.registerAgent cfg r ev = some t) : Step cfg s (.register r ev) t := by
  cases ev with
  | own ev =>
    obtain ⟨c, hnext, heq⟩ := Option.map_eq_some_iff.mp h
    subst heq
    exact .registerOwn r ev c (registerMove_of_next hnext)
  | register =>
    simp only [registerAgent] at h
    split at h
    · rename_i hpc hmu
      cases h
      unfold registerRoute
      split_ifs with hfull htaken
      · exact .registerRefused r _ hpc
      · exact .registerRefused r _ hpc
      · exact .registered r hpc hmu (by simpa using hfull) (by simpa using htaken)
    · contradiction
  | lock =>
    simp only [registerAgent] at h
    split at h
    · rename_i result hpc hmu
      cases h
      unfold lockCleanup
      split_ifs with howner
      · exact .locked r result hpc hmu howner
      · exact .lockedOther r result hpc hmu howner
    · contradiction
  | closeDone =>
    simp only [registerAgent] at h
    split at h
    · rename_i result hpc
      cases h
      exact .doneClosed r result hpc
    · contradiction
  | cancelSession i =>
    simp only [registerAgent] at h
    split at h
    · rename_i result todo hpc
      split_ifs at h with hmem
      cases h
      exact .sessionCancelled r i result todo hpc hmem
    · contradiction
  | unlock =>
    simp only [registerAgent] at h
    split at h
    · rename_i result hpc
      cases h
      exact .unlocked r result hpc
    · contradiction

theorem step_of_connect {i : ℕ} {ev : ConnectEvent} (h : s.connect cfg i ev = some t) :
    Step cfg s (.connect i ev) t := by
  cases ev with
  | own ev =>
    obtain ⟨c, hnext, heq⟩ := Option.map_eq_some_iff.mp h
    subst heq
    exact .connectOwn i ev c (connectMove_of_next hnext)
  | reserveAgent =>
    simp only [connect] at h
    split at h
    · rename_i routeId hpc hmu
      unfold reserveAgent at h
      cases hlookup : s.agents.lookup routeId with
      | none =>
        simp only [hlookup] at h
        cases h
        exact .reserveRefused i routeId _ hpc
      | some a =>
        simp only [hlookup] at h
        split_ifs at h with hfull
        · cases h
          exact .reserveRefused i routeId _ hpc
        · cases h
          exact .reserved i a routeId hpc hmu hlookup (by simpa using hfull)
    · contradiction
  | randRead result =>
    simp only [connect] at h
    split at h
    · rename_i hpc
      cases result with
      | none =>
        cases h
        exact .randFailed i _ hpc
      | some sid =>
        simp only at h
        split_ifs at h with hlength
        cases h
        exact .drew i sid hpc hlength
    · contradiction
  | insertSession =>
    simp only [connect] at h
    split at h
    · rename_i clientHello hpc hmu
      cases h
      exact .inserted i clientHello hpc hmu
    · contradiction
  | deleteSession =>
    simp only [connect] at h
    split at h
    · rename_i result hpc hmu
      cases h
      exact .deleted i result hpc hmu
    · contradiction
  | releaseAgent =>
    simp only [connect] at h
    split at h
    · rename_i result a hpc hagent hmu
      cases h
      exact .released i a result hpc hagent hmu
    · contradiction

theorem step_of_accept {m : ℕ} {ev : AcceptEvent} (h : s.accept m ev = some t) :
    Step cfg s (.accept m ev) t := by
  cases ev with
  | own ev =>
    obtain ⟨c, hnext, heq⟩ := Option.map_eq_some_iff.mp h
    subst heq
    exact .acceptOwn m ev c (acceptMove_of_next hnext)
  | lookup =>
    simp only [accept] at h
    split at h
    · rename_i hpc hmu
      cases hlookup : s.sessions.lookup (s.acc m).sessionId with
      | none =>
        simp only [hlookup] at h
        cases h
        exact .notFound m hpc hmu hlookup
      | some i =>
        simp only [hlookup] at h
        cases h
        exact .found m i hpc hmu hlookup
    · contradiction
  | cancel =>
    simp only [accept] at h
    split at h
    · rename_i result i hpc hsession
      cases h
      exact .acceptCancelled m i result hpc hsession
    · contradiction

theorem step_of_notify {i : ℕ} (h : s.notify i = some t) : Step cfg s (.notify i) t := by
  unfold notify at h
  split at h
  · rename_i clientHello a hpc hagent
    split at h
    · rename_i hserving
      cases h
      exact .notified i a clientHello hpc hagent hserving
    · contradiction
  · contradiction

theorem step_of_clientToAgent {m : ℕ} (h : s.clientToAgent m = some t) :
    Step cfg s (.clientToAgent m) t := by
  obtain ⟨i, hsession, h⟩ := Option.bind_eq_some_iff.mp h
  obtain ⟨⟨payload, from'⟩, hover, h⟩ := Option.bind_eq_some_iff.mp h
  obtain ⟨to', htake, heq⟩ := Option.map_eq_some_iff.mp h
  obtain ⟨hpump, rfl⟩ := Handler.handOver_eq_some hover
  obtain ⟨hloop, rfl⟩ := Handler.take_eq_some htake
  subst heq
  exact .clientToAgent m i payload hsession hpump hloop

theorem step_of_agentToClient {m : ℕ} (h : s.agentToClient m = some t) :
    Step cfg s (.agentToClient m) t := by
  obtain ⟨i, hsession, h⟩ := Option.bind_eq_some_iff.mp h
  obtain ⟨⟨payload, from'⟩, hover, h⟩ := Option.bind_eq_some_iff.mp h
  obtain ⟨to', htake, heq⟩ := Option.map_eq_some_iff.mp h
  obtain ⟨hpump, rfl⟩ := Handler.handOver_eq_some hover
  obtain ⟨hloop, rfl⟩ := Handler.take_eq_some htake
  subst heq
  exact .agentToClient m i payload hsession hpump hloop

theorem step_of_step {a : Act} (h : s.step cfg a = some t) : Step cfg s a t := by
  cases a with
  | register r ev => exact step_of_registerAgent h
  | connect i ev => exact step_of_connect h
  | accept m ev => exact step_of_accept h
  | notify i => exact step_of_notify h
  | clientToAgent m => exact step_of_clientToAgent h
  | agentToClient m => exact step_of_agentToClient h

end Service

end RelayCat.Relay
