import RelayCat.Relay.Pipes

/-!
# Who owns a session

`Accept` looks its session up in the map, makes it ready once and forwards. The session stays in
the map while it is in use, so a second `Accept` call that names it is served as well: it competes
for the client's payloads, its own payloads reach the client, and it cancels the session when it
ends. When no call looks up a session that is already accepted, each session has one owner.
-/

namespace RelayCat.Relay

open Go Wire Automaton

/-- The answer of `Accept` to an unknown session id. -/
def sessionNotPending : Err := .status .notFound "session is not pending"

/-- A call that named a session and did not join it was refused or has yet to look it up. -/
structure AcceptCall.NameInv (c : AcceptCall) : Prop where
  unnamed : c.pc = .idle ∨ c.pc = .recvFirst → c.sessionId = []
  joined : c.pc = .forwarding ∨ (∃ result, c.pc = .cancelling result) → c.session ≠ none
  refused : c.session = none → c.sessionId ≠ [] →
    c.pc = .looking ∨ c.pc = .returned (some sessionNotPending)

theorem AcceptMove.nameInv {c c' : AcceptCall} {ctx : Option CtxErr} {ev : AcceptLocal}
    (hmove : AcceptMove c ctx ev c') (h : c.NameInv) : c'.NameInv := by
  cases hmove with
  | called hpc =>
    have hnil := h.unnamed (.inl hpc)
    exact ⟨fun _ ↦ hnil, by simp, fun _ hne ↦ absurd hnil hne⟩
  | refused result e hpc =>
    have hnil := h.unnamed (.inr hpc)
    exact ⟨by simp, by simp, fun _ hne ↦ absurd hnil hne⟩
  | accepted version sessionId agentHello hpc => exact ⟨by simp, by simp, fun _ _ ↦ .inl rfl⟩
  | forward ev handler _ => exact ⟨h.unnamed, h.joined, h.refused⟩
  | left result hpc _ =>
    have hjoined := h.joined (.inl hpc)
    exact ⟨by simp, fun _ ↦ hjoined, fun hnone ↦ absurd hnone hjoined⟩

namespace Service

variable {cfg : Config} {s t : Service} {a : Act}

theorem AccStep.nameInv {n : ℕ} {c : AcceptCall} (hstep : AccStep s n c)
    (h : (s.acc n).NameInv) : c.NameInv := by
  cases hstep with
  | same => exact h
  | own ev c hmove => exact hmove.nameInv h
  | notFound _ _ => exact ⟨by simp, by simp, fun _ _ ↦ .inr rfl⟩
  | found i _ _ => exact ⟨by simp, by simp, by simp⟩
  | cancelled i result _ hsession =>
    exact ⟨by simp, by simp, fun hnone ↦ absurd (hsession.symm.trans hnone) (by simp)⟩
  | took i payload _ _ => exact ⟨h.unnamed, h.joined, h.refused⟩
  | handed i payload _ _ => exact ⟨h.unnamed, h.joined, h.refused⟩

theorem nameInv_of_reachable (h : (machine cfg).Reachable s) (m : ℕ) : (s.acc m).NameInv := by
  refine Machine.invariant (I := fun s : Service ↦ ∀ m, (s.acc m).NameInv) ?_ ?_ h m
  · exact fun _ ↦ ⟨fun _ ↦ rfl, by simp [machine], fun _ hne ↦ absurd rfl hne⟩
  · exact fun s a t _ hs hstep m ↦ ((step_of_step hstep).acc m).nameInv (hs m)

/-- A session id is drawn once and kept. -/
theorem ConnStep.sid {j : ℕ} {c : ConnectCall} (hstep : ConnStep s a j c) (hinv : (s.conn j).Inv)
    (hne : (s.conn j).sid ≠ []) : c.sid = (s.conn j).sid := by
  cases hstep with
  | own ev c hmove _ => cases hmove <;> rfl
  | drew sid hpc _ =>
    unfold ConnectCall.Inv at hinv
    rw [hpc] at hinv
    exact absurd hinv.2.1 hne
  | _ => rfl

/-- The call that has joined a session named its id. -/
def NamedInv (s : Service) : Prop :=
  ∀ m i, (s.acc m).session = some i → (s.conn i).sid ≠ [] ∧ (s.acc m).sessionId = (s.conn i).sid

theorem AccStep.joins {n i : ℕ} {c : AcceptCall} (hstep : AccStep s n c)
    (hstream : (s.acc n).StreamInv) (hsession : c.session = some i) :
    (s.acc n).session = some i ∧ c.sessionId = (s.acc n).sessionId ∨
      s.sessions.lookup (s.acc n).sessionId = some i ∧ c.sessionId = (s.acc n).sessionId := by
  cases hstep with
  | own ev c hmove =>
    cases hmove with
    | accepted version sessionId agentHello hpc =>
      have hnone := hstream.early (.inr (.inl hpc))
      exact absurd (hnone.symm.trans hsession) (by simp)
    | _ => exact .inl ⟨hsession, rfl⟩
  | found j _ hlookup =>
    obtain rfl : j = i := Option.some.inj hsession
    exact .inr ⟨hlookup, rfl⟩
  | _ => exact .inl ⟨hsession, rfl⟩

theorem Step.namedInv (hstep : Step cfg s a t) (hconn : ∀ i, (s.conn i).Inv)
    (hacc : ∀ m, (s.acc m).StreamInv) (hsessions : SessionsInv s) (h : NamedInv s) :
    NamedInv t := by
  intro m i hsession
  have hnamed : (s.conn i).sid ≠ [] ∧ (t.acc m).sessionId = (s.conn i).sid := by
    rcases (hstep.acc m).joins (hacc m) hsession with ⟨hbefore, hid⟩ | ⟨hlookup, hid⟩
    · rw [hid]
      exact h m i hbefore
    · obtain ⟨hphase, hsid⟩ := (hsessions.entry _ i).mp hlookup
      have hinv := hconn i
      unfold ConnectCall.Inv at hinv
      rw [hphase] at hinv
      exact ⟨hinv.2.1, hid.trans hsid.symm⟩
  rw [(hstep.conn i).sid (hconn i) hnamed.1]
  exact hnamed

theorem namedInv_of_reachable (h : (machine cfg).Reachable s) (hids : s.drawn.Nodup) :
    NamedInv s := by
  refine Machine.invariant (I := fun s : Service ↦ s.drawn.Nodup → NamedInv s) ?_ ?_ h hids
  · intro _ m i hsession
    simp [machine] at hsession
  · intro s a t hr hs hstep hids
    have hstep := step_of_step hstep
    have hids := hstep.sessions.nodup_drawn hids
    exact hstep.namedInv (connInv_of_reachable hr) (accStream_of_reachable hr)
      (sessionsInv_of_reachable hr hids) (hs hids)

/-- Each session has one `Accept` call: it named the session's id, its hello is the one the client
sees, and every other call that names the id is refused, neither receives from nor injects into
the session, and has no session to cancel. -/
structure ExclusiveAccept (s : Service) : Prop where
  sole : ∀ m n, (s.acc m).session ≠ none → (s.acc n).session ≠ none →
    (s.acc m).sessionId = (s.acc n).sessionId → m = n
  hello : ∀ m i, (s.acc m).session = some i → (s.acc m).sessionId = (s.conn i).sid ∧
    ∀ version sid agentHello, .agentAccept version sid agentHello ∈ (s.conn i).frames →
      agentHello = (s.acc m).agentHello
  refused : ∀ m n, (s.acc m).session ≠ none → n ≠ m →
    (s.acc n).sessionId = (s.acc m).sessionId →
    ((s.acc n).pc = .looking ∨ (s.acc n).pc = .returned (some sessionNotPending)) ∧
      (s.acc n).fwd = {} ∧ (s.acc n).session = none

/-- The condition on a lookup of `Accept`: a session it finds has not been accepted yet. -/
def LooksUpPending (s : Service) : Act → Prop
  | .accept m .lookup => ∀ i ∈ s.sessions.lookup (s.acc m).sessionId, (s.conn i).ready = false
  | _ => True

instance (s : Service) (a : Act) : Decidable (s.LooksUpPending a) := by
  unfold LooksUpPending
  split <;> infer_instance

/-- Two calls never join one session. -/
def SoleInv (s : Service) : Prop :=
  ∀ m n i, (s.acc m).session = some i → (s.acc n).session = some i → m = n

theorem SoleInv.congr (h : SoleInv s) (hsession : ∀ m, (t.acc m).session = (s.acc m).session) :
    SoleInv t := by
  intro m n i hm hn
  exact h m n i (hsession m ▸ hm) (hsession n ▸ hn)

theorem Step.soleInv (hstep : Step cfg s a t) (hpending : s.LooksUpPending a) (hjoin : JoinInv s)
    (hacc : ∀ m, (s.acc m).StreamInv) (h : SoleInv s) : SoleInv t := by
  cases hstep with
  | acceptOwn m ev c hmove =>
    exact h.congr (proj_update AcceptCall.session (hmove.joined (hacc m)).1)
  | found m i _ _ hlookup =>
    have hfree : ∀ n, (s.acc n).session ≠ some i := by
      intro n hn
      have hready := hjoin.ready n i hn
      rw [hpending i hlookup] at hready
      contradiction
    intro k n j hk hn
    rw [setAcc_acc, makeReady_acc] at hk hn
    by_cases hkm : k = m <;> by_cases hnm : n = m
    · rw [hkm, hnm]
    · subst hkm
      have hij : i = j := by simpa using hk
      exact absurd (by simpa [hnm] using hn) (hij ▸ hfree n)
    · subst hnm
      have hij : i = j := by simpa using hn
      exact absurd (by simpa [hkm] using hk) (hij ▸ hfree k)
    · exact h k n j (by simpa [hkm] using hk) (by simpa [hnm] using hn)
  | _ =>
    first
    | exact h.congr fun _ ↦ rfl
    | exact h.congr (proj_update (f := s.acc) AcceptCall.session rfl)

theorem soleInv_of_reachable (h : (machine cfg).ReachableVia LooksUpPending s) : SoleInv s := by
  refine Machine.invariant_via (I := SoleInv) ?_ ?_ h
  · intro m n i hm
    simp [machine] at hm
  · intro s a t hr hs hpending hstep
    exact (step_of_step hstep).soleInv hpending (joinInv_of_reachable hr.reachable)
      (accStream_of_reachable hr.reachable) hs

/-- In runs in which no `Accept` call looks up a session that is already accepted, sessions have
one owner. -/
theorem exclusive_accept (cfg : Config) {s : Service}
    (h : (machine cfg).ReachableVia LooksUpPending s) (hids : s.drawn.Nodup) :
    s.ExclusiveAccept := by
  have hr := h.reachable
  have hnamed := namedInv_of_reachable hr hids
  have hsole : ∀ m n, (s.acc m).session ≠ none → (s.acc n).session ≠ none →
      (s.acc m).sessionId = (s.acc n).sessionId → m = n := by
    intro m n hm hn hid
    obtain ⟨i, hi⟩ := Option.ne_none_iff_exists'.mp hm
    obtain ⟨j, hj⟩ := Option.ne_none_iff_exists'.mp hn
    obtain ⟨hne, hmi⟩ := hnamed m i hi
    obtain ⟨_, hnj⟩ := hnamed n j hj
    have hsid : (s.conn i).sid = (s.conn j).sid := by rw [← hmi, ← hnj, hid]
    obtain rfl := (sessionsInv_of_reachable hr hids).distinct i j hne hsid
    exact soleInv_of_reachable h m n i hi hj
  refine ⟨hsole, fun m i hm ↦ ⟨(hnamed m i hm).2, fun version sid agentHello hframe ↦ ?_⟩,
    fun m n hm hne hid ↦ ?_⟩
  · have hjoin := joinInv_of_reachable hr
    obtain ⟨n, hn, hhello⟩ := hjoin.hello i (hjoin.ready m i hm)
    obtain rfl := soleInv_of_reachable h m n i hm hn
    rw [hhello]
    have hmem : .agentAccept version sid agentHello ∈ (s.conn i).greeting := by
      unfold ConnectCall.frames at hframe
      simpa [connectCiphertext] using hframe
    have hpreamble := (connStream_of_reachable hr i).within.subset hmem
    simp [ConnectCall.preamble] at hpreamble
    exact hpreamble.2.2
  · have hnone : (s.acc n).session = none := by
      by_contra hsome
      exact hne (hsole n m hsome hm hid)
    have hnonempty : (s.acc n).sessionId ≠ [] := by
      obtain ⟨i, hi⟩ := Option.ne_none_iff_exists'.mp hm
      obtain ⟨hsid, hmi⟩ := hnamed m i hi
      rw [hid, hmi]
      exact hsid
    exact ⟨(nameInv_of_reachable hr n).refused hnone hnonempty,
      (accStream_of_reachable hr n).idle hnone, hnone⟩

/-- A second call names the accepted session: it is served the client's payload, injects its own,
and cancels the session when it ends. -/
def doubleAccept : List Act :=
  sampleOpening ++
  [.notify 0, .register 0 (.own (.send .ok)), .accept 0 (.own .call),
    .accept 0 (.own (.recv (.ok (.agentAccept 1 sampleSid [4, 5])))), .accept 0 .lookup,
    .accept 1 (.own .call), .accept 1 (.own (.recv (.ok (.agentAccept 1 sampleSid [6])))),
    .accept 1 .lookup, .connect 0 (.own .ready), .connect 0 (.own (.sendAccept none)),
    .connect 0 (.own (.forward (.recv (.ok (.ciphertext [10]))))), .clientToAgent 1,
    .accept 1 (.own (.forward (.send none))),
    .accept 1 (.own (.forward (.recv (.ok (.ciphertext [66]))))), .agentToClient 1,
    .connect 0 (.own (.forward (.send none))),
    .accept 1 (.own (.forward (.recv (.error .eof)))), .accept 1 (.own (.forward .takeErr)),
    .accept 1 (.own .leave), .accept 1 .cancel]

/-- With a second call for an accepted session, exclusiveness fails. -/
theorem not_exclusive_doubleAccept :
    ¬ (∀ s, (machine sampleConfig).Reachable s → s.drawn.Nodup → s.ExclusiveAccept) ∧
    ∃ s, (machine sampleConfig).exec {} doubleAccept = some s ∧ s.drawn.Nodup ∧
      (s.acc 0).session = some 0 ∧ (s.acc 1).session = some 0 ∧
      (s.conn 0).frames = [.sessionAssigned sampleSid, .agentAccept 1 sampleSid [4, 5],
        .ciphertext [66]] ∧
      (s.acc 1).agentHello = [6] ∧ (s.acc 1).fwd.sent = [[10]] ∧ (s.acc 0).fwd.sent = [] ∧
      (s.acc 0).pc = .forwarding ∧ (s.conn 0).ctx = some .canceled := by
  obtain ⟨s, hexec, hs⟩ := Machine.exists_of_exec (M := machine sampleConfig) (s := {})
    doubleAccept (fun s ↦ s.drawn.Nodup ∧ (s.acc 0).session = some 0 ∧
      (s.acc 1).session = some 0 ∧
      (s.conn 0).frames = [.sessionAssigned sampleSid, .agentAccept 1 sampleSid [4, 5],
        .ciphertext [66]] ∧
      (s.acc 1).agentHello = [6] ∧ (s.acc 1).fwd.sent = [[10]] ∧ (s.acc 0).fwd.sent = [] ∧
      (s.acc 0).pc = .forwarding ∧ (s.conn 0).ctx = some .canceled) (by decide +kernel)
  refine ⟨fun hall ↦ ?_, s, hexec, hs⟩
  obtain ⟨hids, hzero, hone, hframes, hhello, _⟩ := hs
  have hex := hall s (Machine.reaches_of_exec doubleAccept hexec) hids
  have hrelayed := (hex.hello 1 0 hone).2 1 sampleSid [4, 5] (by simp [hframes])
  rw [hhello] at hrelayed
  contradiction

/-- A second call that comes after the session is over. -/
def lateAccept : List Act :=
  sampleSession ++
  [.accept 1 (.own .call), .accept 1 (.own (.recv (.ok (.agentAccept 1 sampleSid [6])))),
    .accept 1 .lookup]

theorem exclusive_accept_lateAccept :
    ∃ s, (machine sampleConfig).ReachableVia LooksUpPending s ∧ s.drawn.Nodup ∧
      (s.acc 0).session = some 0 ∧ (s.acc 1).sessionId = sampleSid ∧
      (s.acc 1).pc = .returned (some sessionNotPending) ∧ s.ExclusiveAccept := by
  obtain ⟨s, hexec, hids, hs⟩ := Machine.exists_of_exec
    (M := (machine sampleConfig).restrict LooksUpPending) (s := {}) lateAccept
    (fun s ↦ s.drawn.Nodup ∧ (s.acc 0).session = some 0 ∧ (s.acc 1).sessionId = sampleSid ∧
      (s.acc 1).pc = .returned (some sessionNotPending)) (by decide +kernel)
  have hvia : (machine sampleConfig).ReachableVia LooksUpPending s :=
    (Machine.reaches_of_exec lateAccept hexec).of_restrict
  exact ⟨s, hvia, hids, hs.1, hs.2.1, hs.2.2, exclusive_accept sampleConfig hvia hids⟩

end Service

end RelayCat.Relay
