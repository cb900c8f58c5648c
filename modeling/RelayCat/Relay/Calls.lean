import RelayCat.Relay.Steps

/-!
# One call of the relay at a time

A step of the service seen from one `RegisterAgent`, `Connect` or `Accept` call: the call is
untouched, takes a step of its own, or is changed by another call through a shared object. The
invariants that concern one call follow from these projections.
-/

namespace RelayCat.Relay

open Go Wire Automaton

namespace Service

/-- How one step from `s` to `t` changes one `RegisterAgent` call and its agent value. -/
inductive RegStep (s t : Service) (q : ℕ) : RegisterCall → Prop
  | same : RegStep s t q (s.reg q)
  | own (ev : RegisterLocal) (c : RegisterCall) : RegisterMove (s.reg q) ev c → RegStep s t q c
  | refused (e : Err) : (s.reg q).pc = .registering →
      RegStep s t q { s.reg q with pc := .returned e }
  | registered : (s.reg q).pc = .registering → RegStep s t q { s.reg q with pc := .serving }
  | locked (result : Err) : (s.reg q).pc = .leaving result →
      RegStep s t q { s.reg q with pc := .closing result }
  | doneClosed (result : Err) : (s.reg q).pc = .closing result →
      RegStep s t q { s.reg q with pc := .cancelling result (s.sessionsOf q), done := true }
  | sessionCancelled (i : ℕ) (result : Err) (todo : List ℕ) :
      (s.reg q).pc = .cancelling result todo → (t.conn i).ctx ≠ none →
      RegStep s t q { s.reg q with pc := .cancelling result (todo.filter (· ≠ i)) }
  | unlocked (result : Err) : (s.reg q).pc = .cancelling result [] →
      RegStep s t q { s.reg q with pc := .returned result }
  | reserved : RegStep s t q { s.reg q with active := (s.reg q).active + 1 }
  | released : RegStep s t q { s.reg q with active := (s.reg q).active - 1 }
  | notified (i : ℕ) (clientHello : Bytes) : (s.conn i).pc = .notifying clientHello →
      (s.conn i).agent = some q → (s.reg q).pc = .serving →
      RegStep s t q { s.reg q with pc := .sending i (notification (s.conn i) clientHello) }

/-- How the step by action `a` changes one `Connect` call and its session. -/
inductive ConnStep (s : Service) (a : Act) (j : ℕ) : ConnectCall → Prop
  | same : ConnStep s a j (s.conn j)
  | own (ev : ConnectLocal) (c : ConnectCall) : ConnectMove (s.conn j) (s.offline j) ev c →
      a = .connect j (.own ev) → ConnStep s a j c
  | cancelled : ConnStep s a j { s.conn j with ctx := (s.conn j).ctx <|> some .canceled }
  | madeReady (agentHello : Bytes) : (s.conn j).ready = false →
      ConnStep s a j { s.conn j with ready := true, agentHello := agentHello }
  | handed (payload : Bytes) : (s.conn j).fwd.pump = .handing payload →
      ConnStep s a j { s.conn j with fwd := { (s.conn j).fwd with
        pump := .receiving, handed := (s.conn j).fwd.handed ++ [payload] } }
  | took (payload : Bytes) : (s.conn j).fwd.loop = .selecting →
      ConnStep s a j { s.conn j with fwd := { (s.conn j).fwd with
        loop := .sending payload, taken := (s.conn j).fwd.taken ++ [payload] } }
  | reserveRefused (routeId : Bytes) (e : Err) : (s.conn j).pc = .reserving routeId →
      ConnStep s a j { s.conn j with pc := .returned (some e), refused := true }
  | reserved (b : ℕ) (routeId : Bytes) : (s.conn j).pc = .reserving routeId →
      s.agents.lookup routeId = some b →
      ConnStep s a j { s.conn j with pc := .allocating, agent := some b }
  | randFailed (e : Err) : (s.conn j).pc = .allocating →
      ConnStep s a j { s.conn j with pc := .releasing (some e) }
  | drew (sid : Bytes) : (s.conn j).pc = .allocating → sid.length = 16 →
      ConnStep s a j { s.conn j with pc := .assigning, sid := sid }
  | inserted (clientHello : Bytes) : (s.conn j).pc = .inserting clientHello →
      ConnStep s a j { s.conn j with
        pc := .notifying clientHello, inserted := (s.conn j).inserted + 1 }
  | deleted (result : Option Err) : (s.conn j).pc = .deleting result →
      ConnStep s a j { s.conn j with pc := .cancelling result, deleted := (s.conn j).deleted + 1 }
  | released (b : ℕ) (result : Option Err) : (s.conn j).pc = .releasing result →
      (s.conn j).agent = some b →
      ConnStep s a j { s.conn j with
        pc := .returned result, released := (s.conn j).released + 1 }
  | notified (b : ℕ) (clientHello : Bytes) : (s.conn j).pc = .notifying clientHello →
      (s.conn j).agent = some b → (s.reg b).pc = .serving →
      ConnStep s a j { s.conn j with pc := .awaitReady }

/-- How one step changes one `Accept` call. -/
inductive AccStep (s : Service) (n : ℕ) : AcceptCall → Prop
  | same : AccStep s n (s.acc n)
  | own (ev : AcceptLocal) (c : AcceptCall) : AcceptMove (s.acc n) (s.sessionCtx n) ev c →
      AccStep s n c
  | notFound : (s.acc n).pc = .looking → s.sessions.lookup (s.acc n).sessionId = none →
      AccStep s n { s.acc n with
        pc := .returned (some (.status .notFound "session is not pending")) }
  | found (i : ℕ) : (s.acc n).pc = .looking → s.sessions.lookup (s.acc n).sessionId = some i →
      AccStep s n { s.acc n with pc := .forwarding, session := some i, fwd := Handler.start }
  | cancelled (i : ℕ) (result : Option Err) : (s.acc n).pc = .cancelling result →
      (s.acc n).session = some i → AccStep s n { s.acc n with pc := .returned result }
  | took (i : ℕ) (payload : Bytes) : (s.acc n).session = some i →
      (s.acc n).fwd.loop = .selecting →
      AccStep s n { s.acc n with fwd := { (s.acc n).fwd with
        loop := .sending payload, taken := (s.acc n).fwd.taken ++ [payload] } }
  | handed (i : ℕ) (payload : Bytes) : (s.acc n).session = some i →
      (s.acc n).fwd.pump = .handing payload →
      AccStep s n { s.acc n with fwd := { (s.acc n).fwd with
        pump := .receiving, handed := (s.acc n).fwd.handed ++ [payload] } }

variable {cfg : Config} {s t : Service} {a : Act}

/-- An update of one call leaves the others as they were. -/
theorem RegStep.update {r : ℕ} {c : RegisterCall} (h : RegStep s t r c) (q : ℕ) :
    RegStep s t q (Function.update s.reg r c q) :=
  (Function.forall_update_iff s.reg (RegStep s t)).mpr ⟨h, fun _ _ ↦ .same⟩ q

theorem ConnStep.update {i : ℕ} {c : ConnectCall} (h : ConnStep s a i c) (j : ℕ) :
    ConnStep s a j (Function.update s.conn i c j) :=
  (Function.forall_update_iff s.conn (ConnStep s a)).mpr ⟨h, fun _ _ ↦ .same⟩ j

theorem AccStep.update {m : ℕ} {c : AcceptCall} (h : AccStep s m c) (n : ℕ) :
    AccStep s n (Function.update s.acc m c n) :=
  (Function.forall_update_iff s.acc (AccStep s)).mpr ⟨h, fun _ _ ↦ .same⟩ n

theorem Step.reg (h : Step cfg s a t) (q : ℕ) : RegStep s t q (t.reg q) := by
  cases h with
  | registerOwn r ev c hmove => exact (RegStep.own ev c hmove).update q
  | registerRefused r e hpc => exact (RegStep.refused e hpc).update q
  | registered r hpc _ _ _ => exact (RegStep.registered hpc).update q
  | locked r result hpc _ _ => exact (RegStep.locked result hpc).update q
  | lockedOther r result hpc _ _ => exact (RegStep.locked result hpc).update q
  | doneClosed r result hpc => exact (RegStep.doneClosed result hpc).update q
  | sessionCancelled r i result todo hpc _ =>
    refine (RegStep.sessionCancelled i result todo hpc ?_).update q
    simp [cancelSession]
  | unlocked r result hpc => exact (RegStep.unlocked result hpc).update q
  | reserved i a routeId _ _ _ _ => exact RegStep.reserved.update q
  | released i a result _ _ _ => exact RegStep.released.update q
  | notified i a clientHello hpc hagent hserving =>
    exact (RegStep.notified i clientHello hpc hagent hserving).update q
  | found m i _ _ _ =>
    simp only [setAcc_reg, makeReady]
    split_ifs <;> exact .same
  | _ => exact .same

theorem Step.conn (h : Step cfg s a t) (j : ℕ) : ConnStep s a j (t.conn j) := by
  cases h with
  | sessionCancelled r i result todo _ _ => exact ConnStep.cancelled.update j
  | connectOwn i ev c hmove => exact (ConnStep.own ev c hmove rfl).update j
  | reserveRefused i routeId e hpc => exact (ConnStep.reserveRefused routeId e hpc).update j
  | reserved i a routeId hpc _ hlookup _ =>
    exact (ConnStep.reserved a routeId hpc hlookup).update j
  | randFailed i e hpc => exact (ConnStep.randFailed e hpc).update j
  | drew i sid hpc hlength => exact (ConnStep.drew sid hpc hlength).update j
  | inserted i clientHello hpc _ => exact (ConnStep.inserted clientHello hpc).update j
  | deleted i result hpc _ => exact (ConnStep.deleted result hpc).update j
  | released i a result hpc hagent _ => exact (ConnStep.released a result hpc hagent).update j
  | acceptCancelled m i result _ _ => exact ConnStep.cancelled.update j
  | notified i a clientHello hpc hagent hserving =>
    exact (ConnStep.notified a clientHello hpc hagent hserving).update j
  | clientToAgent m i payload _ hpump _ => exact (ConnStep.handed payload hpump).update j
  | agentToClient m i payload _ _ hloop => exact (ConnStep.took payload hloop).update j
  | found m i _ _ _ =>
    simp only [setAcc_conn, makeReady]
    split_ifs with hready
    · exact .same
    · exact (ConnStep.madeReady _ (by simpa using hready)).update j
  | _ => exact .same

theorem Step.acc (h : Step cfg s a t) (n : ℕ) : AccStep s n (t.acc n) := by
  cases h with
  | acceptOwn m ev c hmove => exact (AccStep.own ev c hmove).update n
  | notFound m hpc _ hlookup => exact (AccStep.notFound hpc hlookup).update n
  | found m i hpc _ hlookup =>
    have hupdate := (AccStep.found i hpc hlookup).update n
    simp only [setAcc_acc, makeReady]
    split_ifs <;> exact hupdate
  | acceptCancelled m i result hpc hsession =>
    exact (AccStep.cancelled i result hpc hsession).update n
  | clientToAgent m i payload hsession _ hloop =>
    exact (AccStep.took i payload hsession hloop).update n
  | agentToClient m i payload hsession hpump _ =>
    exact (AccStep.handed i payload hsession hpump).update n
  | _ => exact .same

end Service

end RelayCat.Relay
