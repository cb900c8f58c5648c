import RelayCat.Automaton.Machine
import RelayCat.Go.Errors

/-!
# A service under the Service Control Manager

`handler.Execute` runs the command of a service in a goroutine and answers the controls of the
manager, until the command has ended. `Stop` opens the service, sends the control and polls the
manager until the service is stopped. Package `svc` stands between them: it hands over one control
at a time and takes every status. What the manager shows after the statuses that were reported,
what a request carries and which controls are accepted are parameters.

The command returns when and as it likes, and the process may be killed at any time.
-/

namespace RelayCat.WinService.Control

open Go Automaton

inductive State where
  | startPending
  | running
  | stopPending
  | stopped
  deriving DecidableEq

def State.rank : State → ℕ
  | startPending => 0
  | running => 1
  | stopPending => 2
  | stopped => 3

/-- `svc.Status`: the state, and if stop and shutdown are accepted. -/
structure Status where
  state : State
  accepts : Bool
  deriving DecidableEq

inductive Cmd where
  | interrogate
  | stop
  | shutdown
  | other
  deriving DecidableEq

/-- The goroutine of the command. -/
inductive RunPc where
  | idle
  | running
  | sending (err : Option Err)
  | ended (err : Option Err)
  deriving DecidableEq

/-- Where `Execute` is; it returns 1 as a service's own code if `failed`, else 0. -/
inductive ExecutePc where
  | sendStartPending
  | startRun
  | sendRunning
  | select
  | sendCurrent (status : Status)
  | sendStopPending
  | cancel
  | sendStopped (err : Option Err)
  | cancelClosed
  | recvDone
  | deferred (failed : Bool)
  | returned (failed : Bool)
  deriving DecidableEq

/-- The variables of `Execute`, with the statuses that it has reported; `closed` if it has seen
that there are no more requests. -/
structure Process where
  pc : ExecutePc
  run : RunPc
  done : Option (Option Err)
  ctxDone : Bool
  closed : Bool
  reported : List Status

def executeStart : Process := ⟨.sendStartPending, .idle, none, false, false, []⟩

/-- The command has failed, for the manager. -/
def fails : Option Err → Bool
  | none => false
  | some err => !err.is .canceled

/-- The status that `Execute` wants to report, and where it goes on. -/
def ExecutePc.sends : ExecutePc → Option (Status × ExecutePc)
  | sendStartPending => some (⟨.startPending, false⟩, startRun)
  | sendRunning => some (⟨.running, true⟩, select)
  | sendCurrent status => some (status, select)
  | sendStopPending => some (⟨.stopPending, false⟩, cancel)
  | sendStopped err => some (⟨.stopped, false⟩, deferred (fails err))
  | _ => none

inductive ExecuteAct where
  | reported
  | started
  | done
  | request (cmd : Cmd) (current : Status)
  | requestsClosed
  | cancelled
  | received
  | deferredCancel
  | runReturned (err : Option Err)
  | runSent

/-- One step of `Execute` or of the goroutine of the command. -/
def Process.execute (p : Process) : ExecuteAct → Option Process
  | .reported =>
    p.pc.sends.map fun (status, pc) ↦ { p with pc := pc, reported := p.reported ++ [status] }
  | .started =>
    match p.pc with
    | .startRun => some { p with pc := .sendRunning, run := .running }
    | _ => none
  | .done =>
    match p.pc, p.done with
    | .select, some err => some { p with pc := .sendStopped err, done := none }
    | _, _ => none
  | .request cmd current =>
    match p.pc with
    | .select =>
      match cmd with
      | .interrogate => some { p with pc := .sendCurrent current }
      | .stop => some { p with pc := .sendStopPending }
      | .shutdown => some { p with pc := .sendStopPending }
      | .other => some p
    | _ => none
  | .requestsClosed =>
    match p.pc with
    | .select => some { p with pc := .cancelClosed, closed := true }
    | _ => none
  | .cancelled =>
    match p.pc with
    | .cancel => some { p with pc := .select, ctxDone := true }
    | .cancelClosed => some { p with pc := .recvDone, ctxDone := true }
    | _ => none
  | .received =>
    match p.pc, p.done with
    | .recvDone, some _ => some { p with pc := .deferred false, done := none }
    | _, _ => none
  | .deferredCancel =>
    match p.pc with
    | .deferred failed => some { p with pc := .returned failed, ctxDone := true }
    | _ => none
  | .runReturned err =>
    match p.run with
    | .running => some { p with run := .sending err }
    | _ => none
  | .runSent =>
    match p.run, p.done with
    | .sending err, none => some { p with run := .ended err, done := some err }
    | _, _ => none

/-- Package `svc` and the manager, for one process of the service: the status that is shown after
the statuses that it has reported, the one that a request carries, and if a control is accepted. -/
structure Package where
  shown : List Status → Status
  current : List Status → Status
  takes : Status → Cmd → Bool

/-- The last status that was reported is shown, and comes with a request. Until there is one, the
service is not shown as stopped. -/
structure Package.Follows (pkg : Package) : Prop where
  shown_nil : (pkg.shown []).state ≠ .stopped
  shown_concat : ∀ statuses status, pkg.shown (statuses ++ [status]) = status
  current_concat : ∀ statuses status, pkg.current (statuses ++ [status]) = status

/-- Where a call of `Stop` is, `withService` first, with the number of the process that it has
sent the control to. -/
inductive StopPc where
  | connect
  | openService
  | control
  | wait (n : ℕ)
  | query (n : ℕ)
  | returned (n : Option ℕ) (err : Option Err)
  deriving DecidableEq

/-- The manager: the process of the service, counted by `starts`, the status it shows, and the
controls that it has accepted. -/
structure Scm where
  process : Option Process
  starts : ℕ
  status : Status
  queue : List Cmd
  stop : StopPc

inductive Act where
  | start
  | execute (act : ExecuteAct)
  | deliver
  | control (cmd : Cmd)
  | exit
  | kill
  | stopConnected (err : Option Err)
  | stopOpened (err : Option Err)
  | stopRefused (err : Err)
  | stopSent
  | stopTimeout (err : Err)
  | stopElapsed
  | stopQueried (err : Option Err)

section Machine

variable (pkg : Package) (quote : String)

/-- What `Stop` does with a status. -/
def StopPc.next (n : ℕ) (status : Status) : StopPc :=
  if status.state = .stopped then .returned (some n) none else .wait n

/-- The control is accepted. -/
def Scm.takes (s : Scm) (cmd : Cmd) : Bool := s.process.isSome && pkg.takes s.status cmd

def machine : Machine Scm Act where
  init := ⟨none, 0, ⟨.stopped, false⟩, [], .connect⟩
  step s
    | .start =>
      if s.status.state = .stopped then
        some { s with
          process := some executeStart
          starts := s.starts + 1
          status := pkg.shown []
          queue := [] }
      else none
    | .execute act =>
      match act, s.process with
      | .request _ _, _ => none
      | act, some p =>
        (p.execute act).map fun p' ↦
          { s with process := some p', status := pkg.shown p'.reported }
      | _, none => none
    | .deliver =>
      match s.process, s.queue with
      | some p, cmd :: queue =>
        (p.execute (.request cmd (pkg.current p.reported))).map fun p' ↦
          { s with process := some p', queue := queue }
      | _, _ => none
    | .control cmd => if s.takes pkg cmd then some { s with queue := s.queue ++ [cmd] } else none
    | .exit =>
      match s.process with
      | some p =>
        match p.pc with
        | .returned _ => some { s with process := none, status := ⟨.stopped, false⟩ }
        | _ => none
      | none => none
    | .kill => some { s with process := none, status := ⟨.stopped, false⟩ }
    | .stopConnected err =>
      match s.stop, err with
      | .connect, none => some { s with stop := .openService }
      | .connect, some err =>
        some { s with
          stop := .returned none
            (some (.errorf "connecting to Windows Service Control Manager" err)) }
      | _, _ => none
    | .stopOpened err =>
      match s.stop, err with
      | .openService, none => some { s with stop := .control }
      | .openService, some err =>
        some { s with
          stop := .returned none (some (.errorf ("opening Windows service " ++ quote) err)) }
      | _, _ => none
    | .stopRefused err =>
      match s.stop with
      | .control =>
        some { s with
          stop := .returned none (some (.errorf ("stopping Windows service " ++ quote) err)) }
      | _ => none
    | .stopSent =>
      match s.stop with
      | .control =>
        if s.takes pkg .stop then
          some { s with queue := s.queue ++ [.stop], stop := .next s.starts s.status }
        else none
      | _ => none
    | .stopTimeout err =>
      match s.stop with
      | .wait n =>
        some { s with
          stop := .returned (some n)
            (some (.errorf ("waiting for Windows service " ++ quote ++ " to stop") err)) }
      | _ => none
    | .stopElapsed =>
      match s.stop with
      | .wait n => some { s with stop := .query n }
      | _ => none
    | .stopQueried err =>
      match s.stop, err with
      | .query n, none => some { s with stop := .next n s.status }
      | .query n, some err =>
        some { s with
          stop := .returned (some n) (some (.errorf ("querying Windows service " ++ quote) err)) }
      | _, _ => none

end Machine

section Process

variable {p p' : Process} {act : ExecuteAct}

def RunPc.result : RunPc → Option (Option Err)
  | ended err => some err
  | _ => none

namespace Process

/-- The command was started, and its result is in the channel if it has ended. -/
def Live (p : Process) : Prop := p.run ≠ .idle ∧ p.done = p.run.result

/-- The service was not reported as stopped. -/
def Unstopped (p : Process) : Prop := p.reported ≠ [] ∧ ∀ st ∈ p.reported, st.state ≠ .stopped

/-- The result of the command has been received. -/
def Over (p : Process) (failed : Bool) : Prop :=
  (∃ err, p.run = .ended err ∧ (failed = true ↔ p.closed = false ∧ fails err = true)) ∧
    p.done = none ∧ ∀ st ∈ p.reported.dropLast, st.state ≠ .stopped

/-- What holds at each place of `Execute`. -/
def At (p : Process) : ExecutePc → Prop
  | .sendStartPending => p.run = .idle ∧ p.done = none ∧ p.closed = false ∧ p.reported = []
  | .startRun =>
    p.run = .idle ∧ p.done = none ∧ p.closed = false ∧ p.reported = [⟨.startPending, false⟩]
  | .sendRunning => p.Live ∧ p.closed = false ∧ p.reported = [⟨.startPending, false⟩]
  | .select => p.Live ∧ p.closed = false ∧ p.Unstopped
  | .sendCurrent status =>
    p.Live ∧ p.closed = false ∧ p.Unstopped ∧ p.reported.getLast? = some status
  | .sendStopPending => p.Live ∧ p.closed = false ∧ p.Unstopped
  | .cancel => p.Live ∧ p.closed = false ∧ p.Unstopped
  | .sendStopped err => p.run = .ended err ∧ p.done = none ∧ p.closed = false ∧ p.Unstopped
  | .cancelClosed => p.Live ∧ p.closed = true ∧ p.Unstopped
  | .recvDone => p.Live ∧ p.closed = true ∧ p.Unstopped
  | .deferred failed => p.Over failed
  | .returned failed => p.Over failed

/-- The states that were reported never go back. -/
def Sorted (p : Process) : Prop := p.reported.Pairwise fun a b ↦ a.state.rank ≤ b.state.rank

/-- The command has been told to stop when the manager is told so. -/
def Told (p : Process) : Prop :=
  ∀ st ∈ p.reported, st.state = .stopPending → p.ctxDone = true ∨ p.pc = .cancel

structure Sound (p : Process) : Prop where
  place : p.At p.pc
  sorted : p.Sorted
  told : p.Told

/-- One more status is reported. -/
theorem Sorted.concat {l : List Status} {status : Status}
    (h : l.Pairwise fun a b ↦ a.state.rank ≤ b.state.rank)
    (hle : ∀ st ∈ l, st.state.rank ≤ status.state.rank) :
    (l ++ [status]).Pairwise fun a b ↦ a.state.rank ≤ b.state.rank := by
  rw [List.pairwise_append]
  refine ⟨h, List.pairwise_singleton _ _, fun st hst st' hst' ↦ ?_⟩
  rw [List.mem_singleton.mp hst']
  exact hle st hst

theorem Sorted.le_last {l : List Status} {status : Status}
    (h : l.Pairwise fun a b ↦ a.state.rank ≤ b.state.rank) (hlast : l.getLast? = some status) :
    ∀ st ∈ l, st.state.rank ≤ status.state.rank := by
  obtain ⟨init, rfl⟩ := List.getLast?_eq_some_iff.mp hlast
  intro st hst
  rcases List.mem_append.mp hst with hinit | hone
  · exact (List.pairwise_append.mp h).2.2 st hinit status (List.mem_singleton_self status)
  · obtain rfl := List.mem_singleton.mp hone
    exact Nat.le_refl _

theorem Told.ctxDone (h : p.Told) (hpc : p.pc ≠ .cancel) :
    ∀ st ∈ p.reported, st.state = .stopPending → p.ctxDone = true :=
  fun st hst hstate ↦ (h st hst hstate).resolve_right hpc

theorem Unstopped.concat {status : Status} (h : p.Unstopped) (hstatus : status.state ≠ .stopped) :
    ∀ st ∈ p.reported ++ [status], st.state ≠ .stopped := by
  intro st hst
  rcases List.mem_append.mp hst with hold | hone
  · exact h.2 st hold
  · rwa [List.mem_singleton.mp hone]

theorem Unstopped.rank_le (h : p.Unstopped) : ∀ st ∈ p.reported, st.state.rank ≤ 2 := by
  intro st hst
  have hne := h.2 st hst
  cases hstate : st.state with
  | stopped => exact absurd hstate hne
  | _ => simp [State.rank]

theorem Sound.reported (h : p.Sound) (hstep : p.execute .reported = some p') : p'.Sound := by
  obtain ⟨hplace, hsorted, htold⟩ := h
  obtain ⟨⟨status, pc⟩, hsends, rfl⟩ := Option.map_eq_some_iff.mp hstep
  cases hpc : p.pc with
  | sendStartPending =>
    rw [hpc] at hplace hsends
    cases hsends
    obtain ⟨hrun, hdone, hclosed, hreported⟩ := hplace
    refine ⟨⟨hrun, hdone, hclosed, by rw [hreported]; rfl⟩, ?_, ?_⟩
    · simp [Sorted, hreported]
    · simp [Told, hreported]
  | sendRunning =>
    rw [hpc] at hplace hsends
    cases hsends
    obtain ⟨hlive, hclosed, hreported⟩ := hplace
    refine ⟨⟨hlive, hclosed, ?_⟩, ?_, ?_⟩
    · simp [Unstopped, hreported]
    · simp [Sorted, hreported, State.rank]
    · simp [Told, hreported]
  | sendCurrent current =>
    have hctx := htold.ctxDone (by simp [hpc])
    rw [hpc] at hplace hsends
    cases hsends
    obtain ⟨hlive, hclosed, hunstopped, hlast⟩ := hplace
    have hmem := List.mem_of_getLast? hlast
    refine ⟨⟨hlive, hclosed, by simp, hunstopped.concat (hunstopped.2 _ hmem)⟩,
      Sorted.concat hsorted (Sorted.le_last hsorted hlast), fun st hst hstate ↦ Or.inl ?_⟩
    rcases List.mem_append.mp hst with hold | hone
    · exact hctx st hold hstate
    · exact hctx status hmem (by rwa [List.mem_singleton.mp hone] at hstate)
  | sendStopPending =>
    rw [hpc] at hplace hsends
    cases hsends
    obtain ⟨hlive, hclosed, hunstopped⟩ := hplace
    exact ⟨⟨hlive, hclosed, by simp, hunstopped.concat (by simp)⟩,
      Sorted.concat hsorted hunstopped.rank_le, fun _ _ _ ↦ Or.inr rfl⟩
  | sendStopped err =>
    have hctx := htold.ctxDone (by simp [hpc])
    rw [hpc] at hplace hsends
    cases hsends
    obtain ⟨hrun, hdone, hclosed, hunstopped⟩ := hplace
    refine ⟨⟨⟨err, hrun, by simp [hclosed]⟩, hdone, ?_⟩, ?_, fun st hst hstate ↦ Or.inl ?_⟩
    · simpa using hunstopped.2
    · exact Sorted.concat hsorted fun st hst ↦ Nat.le_succ_of_le (hunstopped.rank_le st hst)
    · rcases List.mem_append.mp hst with hold | hone
      · exact hctx st hold hstate
      · rw [List.mem_singleton.mp hone] at hstate
        cases hstate
  | _ =>
    rw [hpc] at hsends
    cases hsends

/-- Nothing is reported in this step. -/
theorem Sound.silent (h : p.Sound) (hreported : p'.reported = p.reported) (hplace : p'.At p'.pc)
    (hctx : p.pc ≠ .cancel ∧ p'.ctxDone = p.ctxDone ∨ p'.ctxDone = true ∨
      p'.pc = p.pc ∧ p'.ctxDone = p.ctxDone) : p'.Sound := by
  refine ⟨hplace, ?_, fun st hst hstate ↦ ?_⟩
  · rw [Sorted, hreported]
    exact h.sorted
  · rw [hreported] at hst
    rcases hctx with ⟨hpc, hsame⟩ | hdone | ⟨hpc, hsame⟩
    · exact Or.inl (hsame.trans (h.told.ctxDone hpc st hst hstate))
    · exact Or.inl hdone
    · rw [hpc, hsame]
      exact h.told st hst hstate

theorem Live.sent {err : Option Err} :
    ({ p with run := .ended err, done := some err } : Process).Live := ⟨by simp, rfl⟩

theorem At.done_eq {pc : ExecutePc} (h : p.At pc) (hrun : p.run = .running) : p.done = none := by
  have hlive (h : p.Live) : p.done = none := by
    have hdone := h.2
    rwa [hrun] at hdone
  cases pc with
  | sendStartPending => exact h.2.1
  | startRun => exact h.2.1
  | sendStopped err => exact h.2.1
  | deferred failed => exact h.2.1
  | returned failed => exact h.2.1
  | _ => exact hlive h.1

/-- The goroutine of the command moves on. -/
theorem At.live {pc : ExecutePc} (h : p.At pc) {run : RunPc} {done : Option (Option Err)}
    (hrun : p.run ≠ .idle) (hended : ∀ err, p.run ≠ .ended err)
    (hlive : ({ p with run := run, done := done } : Process).Live) :
    ({ p with run := run, done := done } : Process).At pc := by
  cases pc with
  | sendStartPending => exact absurd h.1 hrun
  | startRun => exact absurd h.1 hrun
  | sendStopped err => exact absurd h.1 (hended err)
  | deferred failed =>
    obtain ⟨⟨err, hover, -⟩, -⟩ := h
    exact absurd hover (hended err)
  | returned failed =>
    obtain ⟨⟨err, hover, -⟩, -⟩ := h
    exact absurd hover (hended err)
  | _ => exact ⟨hlive, h.2⟩

theorem Sound.execute (h : p.Sound) (hstep : p.execute act = some p')
    (hcurrent : ∀ cmd current, act = .request cmd current → p.reported.getLast? = some current) :
    p'.Sound := by
  have hplace := h.place
  cases act with
  | reported => exact h.reported hstep
  | started =>
    simp only [execute] at hstep
    split at hstep
    · rename_i hpc
      cases hstep
      rw [hpc] at hplace
      obtain ⟨-, hdone, hclosed, hreported⟩ := hplace
      exact h.silent rfl ⟨⟨by simp, hdone⟩, hclosed, hreported⟩ (Or.inl ⟨by simp [hpc], rfl⟩)
    · cases hstep
  | done =>
    simp only [execute] at hstep
    split at hstep
    · rename_i err hpc hdone
      cases hstep
      rw [hpc] at hplace
      obtain ⟨⟨-, hresult⟩, hclosed, hunstopped⟩ := hplace
      have hrun : p.run = .ended err := by
        rw [hdone] at hresult
        cases hrun : p.run with
        | ended err' =>
          rw [hrun] at hresult
          cases hresult
          rfl
        | _ =>
          rw [hrun] at hresult
          cases hresult
      exact h.silent rfl ⟨hrun, rfl, hclosed, hunstopped⟩ (Or.inl ⟨by simp [hpc], rfl⟩)
    · cases hstep
  | request cmd current =>
    have hlast := hcurrent cmd current rfl
    simp only [execute] at hstep
    split at hstep
    · rename_i hpc
      rw [hpc] at hplace
      obtain ⟨hlive, hclosed, hunstopped⟩ := hplace
      have hcancel : p.pc ≠ .cancel := by simp [hpc]
      cases cmd with
      | interrogate =>
        cases hstep
        exact h.silent rfl ⟨hlive, hclosed, hunstopped, hlast⟩ (Or.inl ⟨hcancel, rfl⟩)
      | stop =>
        cases hstep
        exact h.silent rfl ⟨hlive, hclosed, hunstopped⟩ (Or.inl ⟨hcancel, rfl⟩)
      | shutdown =>
        cases hstep
        exact h.silent rfl ⟨hlive, hclosed, hunstopped⟩ (Or.inl ⟨hcancel, rfl⟩)
      | other =>
        cases hstep
        exact h
    · cases hstep
  | requestsClosed =>
    simp only [execute] at hstep
    split at hstep
    · rename_i hpc
      cases hstep
      rw [hpc] at hplace
      obtain ⟨hlive, -, hunstopped⟩ := hplace
      exact h.silent rfl ⟨hlive, rfl, hunstopped⟩ (Or.inl ⟨by simp [hpc], rfl⟩)
    · cases hstep
  | cancelled =>
    simp only [execute] at hstep
    split at hstep
    · rename_i hpc
      cases hstep
      rw [hpc] at hplace
      exact h.silent rfl hplace (Or.inr (Or.inl rfl))
    · rename_i hpc
      cases hstep
      rw [hpc] at hplace
      exact h.silent rfl hplace (Or.inr (Or.inl rfl))
    · cases hstep
  | received =>
    simp only [execute] at hstep
    split at hstep
    · rename_i err hpc hdone
      cases hstep
      rw [hpc] at hplace
      obtain ⟨⟨-, hresult⟩, hclosed, hunstopped⟩ := hplace
      refine h.silent rfl ⟨?_, rfl, fun st hst ↦ hunstopped.2 st (List.dropLast_subset _ hst)⟩
        (Or.inl ⟨by simp [hpc], rfl⟩)
      rw [hdone] at hresult
      cases hrun : p.run with
      | ended err' => exact ⟨err', rfl, by simp [hclosed]⟩
      | _ =>
        rw [hrun] at hresult
        cases hresult
    · cases hstep
  | deferredCancel =>
    simp only [execute] at hstep
    split at hstep
    · rename_i failed hpc
      cases hstep
      rw [hpc] at hplace
      exact h.silent rfl hplace (Or.inr (Or.inl rfl))
    · cases hstep
  | runReturned err =>
    simp only [execute] at hstep
    split at hstep
    · rename_i hrun
      cases hstep
      exact h.silent rfl
        (hplace.live (by simp [hrun]) (by simp [hrun]) ⟨by simp, hplace.done_eq hrun⟩)
        (Or.inr (Or.inr ⟨rfl, rfl⟩))
    · cases hstep
  | runSent =>
    simp only [execute] at hstep
    split at hstep
    · rename_i err hrun hdone
      cases hstep
      exact h.silent rfl (hplace.live (by simp [hrun]) (by simp [hrun]) Live.sent)
        (Or.inr (Or.inr ⟨rfl, rfl⟩))
    · cases hstep

/-- Nothing follows `Stopped`. -/
theorem At.dropLast {pc : ExecutePc} (h : p.At pc) :
    ∀ st ∈ p.reported.dropLast, st.state ≠ .stopped := by
  have hunstopped (hu : p.Unstopped) : ∀ st ∈ p.reported.dropLast, st.state ≠ .stopped :=
    fun st hst ↦ hu.2 st (List.dropLast_subset _ hst)
  cases pc with
  | sendStartPending => simp [h.2.2.2]
  | startRun => simp [h.2.2.2]
  | sendRunning => simp [h.2.2]
  | sendCurrent status => exact hunstopped h.2.2.1
  | sendStopped err => exact hunstopped h.2.2.2
  | deferred failed => exact h.2.2
  | returned failed => exact h.2.2
  | _ => exact hunstopped h.2.2

/-- The command does not come back. -/
theorem Sound.ended (h : p.Sound) (hstep : p.execute act = some p') {err : Option Err}
    (hrun : p.run = .ended err) : p'.run = .ended err := by
  cases act with
  | reported =>
    obtain ⟨sent, -, rfl⟩ := Option.map_eq_some_iff.mp hstep
    exact hrun
  | started =>
    simp only [Process.execute] at hstep
    split at hstep
    · rename_i hpc
      have hplace := h.place
      rw [hpc] at hplace
      simp [hplace.1] at hrun
    · cases hstep
  | _ =>
    simp only [Process.execute] at hstep
    repeat' split at hstep
    all_goals cases hstep
    all_goals simp_all

/-- Requests are taken in the loop only. -/
theorem select_of_request {cmd : Cmd} {current : Status}
    (hstep : p.execute (.request cmd current) = some p') :
    p.pc = .select ∧ p'.reported = p.reported := by
  simp only [Process.execute] at hstep
  split at hstep
  · rename_i hpc
    split at hstep
    all_goals cases hstep
    all_goals exact ⟨hpc, rfl⟩
  · cases hstep

end Process

end Process

section Manager

variable {pkg : Package} {quote : String} {s t : Scm}

namespace Scm

/-- The command of the process has ended, or there is none. -/
def Over (s : Scm) : Prop := ∀ p, s.process = some p → ∃ err, p.run = .ended err

structure Sound (pkg : Package) (s : Scm) : Prop where
  process : ∀ p, s.process = some p → p.Sound ∧ s.status = pkg.shown p.reported
  absent : s.process = none → s.status.state = .stopped
  waits : ∀ n, s.stop = .wait n ∨ s.stop = .query n → n ≤ s.starts
  answered : ∀ n, s.stop = .returned (some n) none → n ≤ s.starts ∧ (n = s.starts → s.Over)

theorem Sound.over_of_stopped (h : s.Sound pkg) (hpkg : pkg.Follows)
    (hstate : s.status.state = .stopped) : s.Over := by
  intro p hp
  obtain ⟨⟨hplace, -, -⟩, hstatus⟩ := h.process p hp
  rw [hstatus] at hstate
  have hlast : ∃ st ∈ p.reported, st.state = .stopped := by
    rcases List.eq_nil_or_concat' p.reported with hnil | ⟨statuses, st, hconcat⟩
    · rw [hnil] at hstate
      exact absurd hstate hpkg.shown_nil
    · rw [hconcat, hpkg.shown_concat] at hstate
      exact ⟨st, by simp [hconcat], hstate⟩
  obtain ⟨st, hst, hstopped⟩ := hlast
  have hunstopped : ¬ p.Unstopped := fun hu ↦ hu.2 st hst hstopped
  cases hpc : p.pc with
  | sendStartPending =>
    rw [hpc] at hplace
    simp [hplace.2.2.2] at hst
  | startRun =>
    rw [hpc] at hplace
    simp [hplace.2.2.2] at hst
    simp [hst] at hstopped
  | sendRunning =>
    rw [hpc] at hplace
    simp [hplace.2.2] at hst
    simp [hst] at hstopped
  | sendStopped err =>
    rw [hpc] at hplace
    exact ⟨err, hplace.1⟩
  | deferred failed =>
    rw [hpc] at hplace
    obtain ⟨⟨err, hrun, -⟩, -⟩ := hplace
    exact ⟨err, hrun⟩
  | returned failed =>
    rw [hpc] at hplace
    obtain ⟨⟨err, hrun, -⟩, -⟩ := hplace
    exact ⟨err, hrun⟩
  | sendCurrent status =>
    rw [hpc] at hplace
    exact absurd hplace.2.2.1 hunstopped
  | _ =>
    rw [hpc] at hplace
    exact absurd hplace.2.2 hunstopped

/-- `Stop` has looked at the status. -/
theorem Sound.next (h : s.Sound pkg) (hpkg : pkg.Follows) {n : ℕ} (hn : n ≤ s.starts)
    (queue : List Cmd) :
    ({ s with queue := queue, stop := .next n s.status } : Scm).Sound pkg := by
  refine ⟨h.process, h.absent, fun m hm ↦ ?_, fun m hm ↦ ?_⟩
  · simp only [StopPc.next] at hm
    split_ifs at hm <;> simp_all
  · simp only [StopPc.next] at hm
    split_ifs at hm with hstopped
    · cases hm
      exact ⟨hn, fun _ ↦ h.over_of_stopped hpkg hstopped⟩

/-- The process moves on. -/
theorem Sound.execute (h : s.Sound pkg) {p p' : Process} {act : ExecuteAct}
    (hp : s.process = some p) (hstep : p.execute act = some p') (hsound : p'.Sound)
    {status : Status} (hstatus : status = pkg.shown p'.reported) (queue : List Cmd) :
    ({ s with process := some p', status := status, queue := queue } : Scm).Sound pkg := by
  refine ⟨fun q hq ↦ ?_, fun hnone ↦ (by cases hnone), h.waits, fun n hn ↦ ?_⟩
  · cases hq
    exact ⟨hsound, hstatus⟩
  · obtain ⟨hle, hover⟩ := h.answered n hn
    refine ⟨hle, fun heq q hq ↦ ?_⟩
    cases hq
    obtain ⟨err, herr⟩ := hover heq p hp
    exact ⟨err, (h.process p hp).1.ended hstep herr⟩

/-- There is no process any more. -/
theorem Sound.gone (h : s.Sound pkg) :
    ({ s with process := none, status := ⟨.stopped, false⟩ } : Scm).Sound pkg :=
  ⟨fun _ hp ↦ (by cases hp), fun _ ↦ rfl, h.waits,
    fun n hn ↦ ⟨(h.answered n hn).1, fun _ _ hp ↦ (by cases hp)⟩⟩

/-- `Stop` goes on without a status. -/
theorem Sound.stop (h : s.Sound pkg) {pc : StopPc}
    (hwaits : ∀ n, pc = .wait n ∨ pc = .query n → n ≤ s.starts)
    (herr : ∀ n, pc ≠ .returned n none) : ({ s with stop := pc } : Scm).Sound pkg :=
  ⟨h.process, h.absent, hwaits, fun n hn ↦ absurd hn (herr (some n))⟩

theorem sound_step (hpkg : pkg.Follows) (h : s.Sound pkg) {a : Act}
    (hstep : (machine pkg quote).step s a = some t) : t.Sound pkg := by
  cases a with
  | start =>
    obtain ⟨-, hstep⟩ := Option.ite_none_right_eq_some.mp hstep
    cases hstep
    refine ⟨fun p hp ↦ ?_, fun hnone ↦ (by cases hnone),
      fun n hn ↦ Nat.le_succ_of_le (h.waits n hn), fun n hn ↦ ?_⟩
    · cases hp
      refine ⟨⟨⟨rfl, rfl, rfl, rfl⟩, List.Pairwise.nil, nofun⟩, rfl⟩
    · have hle := (h.answered n hn).1
      exact ⟨Nat.le_succ_of_le hle, fun heq ↦ absurd heq (Nat.ne_of_lt (Nat.lt_succ_of_le hle))⟩
  | execute act =>
    simp only [machine] at hstep
    split at hstep
    · cases hstep
    · rename_i p hact hp
      obtain ⟨p', hp', rfl⟩ := Option.map_eq_some_iff.mp hstep
      exact h.execute hp hp' ((h.process p hp).1.execute hp' fun cmd current heq ↦
        absurd heq (hact cmd current)) rfl s.queue
    · cases hstep
  | deliver =>
    simp only [machine] at hstep
    split at hstep
    · rename_i p cmd queue hp hqueue
      obtain ⟨p', hp', rfl⟩ := Option.map_eq_some_iff.mp hstep
      obtain ⟨hsound, hstatus⟩ := h.process p hp
      obtain ⟨hpc, hreported⟩ := Process.select_of_request hp'
      have hplace := hsound.place
      rw [hpc] at hplace
      obtain ⟨statuses, status, hconcat⟩ :=
        (List.eq_nil_or_concat' p.reported).resolve_left hplace.2.2.1
      refine h.execute hp hp' (hsound.execute hp' fun cmd current heq ↦ ?_) ?_ queue
      · cases heq
        rw [hconcat, hpkg.current_concat, List.getLast?_concat]
      · rw [hreported]
        exact hstatus
    · cases hstep
  | control cmd =>
    obtain ⟨-, hstep⟩ := Option.ite_none_right_eq_some.mp hstep
    cases hstep
    exact ⟨h.process, h.absent, h.waits, h.answered⟩
  | exit =>
    simp only [machine] at hstep
    split at hstep
    · split at hstep
      · cases hstep
        exact h.gone
      · cases hstep
    · cases hstep
  | kill =>
    cases hstep
    exact h.gone
  | stopConnected err | stopOpened err =>
    simp only [machine] at hstep
    split at hstep
    · cases hstep
      exact h.stop (by simp) (by simp)
    · cases hstep
      exact h.stop (by simp) (by simp)
    · cases hstep
  | stopRefused err =>
    simp only [machine] at hstep
    split at hstep
    · cases hstep
      exact h.stop (by simp) (by simp)
    · cases hstep
  | stopSent =>
    simp only [machine] at hstep
    split at hstep
    · obtain ⟨-, hstep⟩ := Option.ite_none_right_eq_some.mp hstep
      cases hstep
      exact h.next hpkg (Nat.le_refl _) _
    · cases hstep
  | stopTimeout err =>
    simp only [machine] at hstep
    split at hstep
    · cases hstep
      exact h.stop (by simp) (by simp)
    · cases hstep
  | stopElapsed =>
    simp only [machine] at hstep
    split at hstep
    · rename_i n hstop
      cases hstep
      exact h.stop (by simpa using h.waits n (Or.inl hstop)) (by simp)
    · cases hstep
  | stopQueried err =>
    simp only [machine] at hstep
    split at hstep
    · rename_i n hstop
      cases hstep
      exact h.next hpkg (h.waits n (Or.inr hstop)) s.queue
    · cases hstep
      exact h.stop (by simp) (by simp)
    · cases hstep

theorem sound_of_reachable (hpkg : pkg.Follows) (hs : (machine pkg quote).Reachable s) :
    s.Sound pkg :=
  Machine.invariant
    ⟨fun _ hp ↦ (by cases hp), fun _ ↦ rfl, fun _ hn ↦ (by simp [machine] at hn),
      fun _ hn ↦ (by cases hn)⟩
    (fun _ _ _ _ h hstep ↦ sound_step hpkg h hstep) hs

/-- A service that the manager shows as stopped has no command at work, and a `Stop` that has
succeeded leaves none in the process it was sent to. The states that a process reports never go
back, `Stopped` comes last, and when `StopPending` is reported the command has been told to stop
or is told so next. `Execute` returns after the command, with a failure if the command has failed
by itself, as long as there are requests. -/
theorem stopped_service_is_over (hpkg : pkg.Follows) (hs : (machine pkg quote).Reachable s) :
    (s.status.state = .stopped → s.Over) ∧
    (∀ n, s.stop = .returned (some n) none → n ≤ s.starts ∧ (n = s.starts → s.Over)) ∧
    ∀ p, s.process = some p →
      (p.reported.Pairwise fun a b ↦ a.state.rank ≤ b.state.rank) ∧
      (∀ st ∈ p.reported.dropLast, st.state ≠ .stopped) ∧
      (∀ st ∈ p.reported, st.state = .stopPending → p.ctxDone = true ∨ p.pc = .cancel) ∧
      ∀ failed, p.pc = .returned failed →
        ∃ err, p.run = .ended err ∧ (failed = true ↔ p.closed = false ∧ fails err = true) := by
  have h := sound_of_reachable hpkg hs
  refine ⟨h.over_of_stopped hpkg, h.answered, fun p hp ↦ ?_⟩
  obtain ⟨⟨hplace, hsorted, htold⟩, -⟩ := h.process p hp
  refine ⟨hsorted, hplace.dropLast, htold, fun failed hpc ↦ ?_⟩
  rw [hpc] at hplace
  exact hplace.1

end Scm

end Manager

section Progress

variable {pkg : Package} {quote : String} {s : Scm}

def ExecutePc.rank : ExecutePc → ℕ
  | sendStartPending => 9
  | startRun => 8
  | sendRunning => 7
  | sendStopPending => 7
  | sendCurrent _ => 6
  | cancel => 6
  | cancelClosed => 6
  | select => 5
  | recvDone => 5
  | sendStopped _ => 3
  | deferred _ => 2
  | returned _ => 1

def RunPc.rank : RunPc → ℕ
  | idle => 3
  | running => 2
  | sending _ => 1
  | ended _ => 0

def StopPc.rank : StopPc → ℕ
  | wait _ => 2
  | query _ => 1
  | _ => 0

def Process.rank (p : Process) : ℕ := 4 * p.pc.rank + p.run.rank

def Scm.rank (s : Scm) : ℕ := s.process.elim 0 Process.rank + s.stop.rank

/-- A live process waits for nothing but the manager and its command. -/
theorem Process.Sound.exists_execute {p : Process} (h : p.Sound)
    (hpc : ∀ failed, p.pc ≠ .returned failed) :
    ∃ act p', (∀ cmd current, act ≠ .request cmd current) ∧ p.execute act = some p' ∧
      p'.rank < p.rank := by
  have hplace := h.place
  have hlive (hlive : p.Live) (hready : ∀ err, p.run = .ended err → p.done = some err →
      ∃ act p', (∀ cmd current, act ≠ .request cmd current) ∧ p.execute act = some p' ∧
        p'.rank < p.rank) :
      ∃ act p', (∀ cmd current, act ≠ .request cmd current) ∧ p.execute act = some p' ∧
        p'.rank < p.rank := by
    obtain ⟨hidle, hdone⟩ := hlive
    cases hrun : p.run with
    | idle => exact absurd hrun hidle
    | running =>
      refine ⟨.runReturned none, { p with run := .sending none }, by simp, ?_, ?_⟩
      · simp only [Process.execute, hrun]
      · simp [Process.rank, hrun, RunPc.rank]
    | sending err =>
      rw [hrun] at hdone
      refine ⟨.runSent, { p with run := .ended err, done := some err }, by simp, ?_, ?_⟩
      · simp only [Process.execute, hrun, hdone, RunPc.result]
      · simp [Process.rank, hrun, RunPc.rank]
    | ended err =>
      rw [hrun] at hdone
      exact hready err hrun hdone
  have hsends {status : Status} {pc : ExecutePc} (hsends : p.pc.sends = some (status, pc))
      (hrank : pc.rank < p.pc.rank) :
      ∃ act p', (∀ cmd current, act ≠ .request cmd current) ∧ p.execute act = some p' ∧
        p'.rank < p.rank := by
    refine ⟨.reported, { p with pc := pc, reported := p.reported ++ [status] }, by simp, ?_, ?_⟩
    · simp only [Process.execute, hsends, Option.map_some]
    · simp only [Process.rank]
      omega
  cases hcase : p.pc with
  | sendStartPending =>
    exact hsends (by rw [hcase]; rfl) (by rw [hcase]; simp [ExecutePc.rank])
  | sendRunning => exact hsends (by rw [hcase]; rfl) (by rw [hcase]; simp [ExecutePc.rank])
  | sendCurrent status => exact hsends (by rw [hcase]; rfl) (by rw [hcase]; simp [ExecutePc.rank])
  | sendStopPending => exact hsends (by rw [hcase]; rfl) (by rw [hcase]; simp [ExecutePc.rank])
  | sendStopped err => exact hsends (by rw [hcase]; rfl) (by rw [hcase]; simp [ExecutePc.rank])
  | startRun =>
    rw [hcase] at hplace
    refine ⟨.started, { p with pc := .sendRunning, run := .running }, by simp, ?_, ?_⟩
    · simp only [Process.execute, hcase]
    · simp [Process.rank, hcase, hplace.1, RunPc.rank, ExecutePc.rank]
  | select =>
    rw [hcase] at hplace
    refine hlive hplace.1 fun err hrun hdone ↦
      ⟨.done, { p with pc := .sendStopped err, done := none }, by simp, ?_, ?_⟩
    · simp only [Process.execute, hcase, hdone]
    · simp [Process.rank, hcase, ExecutePc.rank]
  | recvDone =>
    rw [hcase] at hplace
    refine hlive hplace.1 fun err hrun hdone ↦
      ⟨.received, { p with pc := .deferred false, done := none }, by simp, ?_, ?_⟩
    · simp only [Process.execute, hcase, hdone]
    · simp [Process.rank, hcase, ExecutePc.rank]
  | cancel =>
    refine ⟨.cancelled, { p with pc := .select, ctxDone := true }, by simp, ?_, ?_⟩
    · simp only [Process.execute, hcase]
    · simp [Process.rank, hcase, ExecutePc.rank]
  | cancelClosed =>
    refine ⟨.cancelled, { p with pc := .recvDone, ctxDone := true }, by simp, ?_, ?_⟩
    · simp only [Process.execute, hcase]
    · simp [Process.rank, hcase, ExecutePc.rank]
  | deferred failed =>
    refine ⟨.deferredCancel, { p with pc := .returned failed, ctxDone := true }, by simp, ?_, ?_⟩
    · simp only [Process.execute, hcase]
    · simp [Process.rank, hcase, ExecutePc.rank]
  | returned failed => exact absurd hcase (hpc failed)

/-- A service that is not at its end has a step that brings it nearer. -/
theorem Scm.Sound.exists_step (h : s.Sound pkg)
    (hnot : ¬ (s.process = none ∧ s.stop.rank = 0)) :
    ∃ a t, a ≠ .kill ∧ (machine pkg quote).step s a = some t ∧ t.rank < s.rank := by
  cases hp : s.process with
  | some p =>
    by_cases hreturned : ∃ failed, p.pc = .returned failed
    · obtain ⟨failed, hpc⟩ := hreturned
      refine ⟨.exit, { s with process := none, status := ⟨.stopped, false⟩ }, by simp, ?_, ?_⟩
      · simp only [machine, hp, hpc]
      · simp only [Scm.rank, hp, Option.elim, Process.rank, hpc, ExecutePc.rank]
        omega
    · obtain ⟨act, p', hrequest, hexecute, hlt⟩ :=
        (h.process p hp).1.exists_execute fun failed hpc ↦ hreturned ⟨failed, hpc⟩
      refine ⟨.execute act, { s with
        process := some p', status := pkg.shown p'.reported }, by simp, ?_, ?_⟩
      · cases act with
        | request cmd current => exact absurd rfl (hrequest cmd current)
        | _ => simp only [machine, hp, hexecute, Option.map_some]
      · simpa [Scm.rank, hp] using hlt
  | none =>
    have hstopped := h.absent hp
    cases hstop : s.stop with
    | wait n =>
      refine ⟨.stopElapsed, { s with stop := .query n }, by simp, ?_, ?_⟩
      · simp only [machine, hstop]
      · simp [Scm.rank, hstop, StopPc.rank]
    | query n =>
      refine ⟨.stopQueried none, { s with stop := .next n s.status }, by simp, ?_, ?_⟩
      · simp only [machine, hstop]
      · simp [Scm.rank, hstop, StopPc.rank, StopPc.next, hstopped]
    | _ => exact absurd ⟨hp, by rw [hstop]; rfl⟩ hnot

/-- Without being killed, a service can end from wherever it is, once its command returns, and a
`Stop` that waits for it can return. -/
theorem service_can_end (hpkg : pkg.Follows) (hs : (machine pkg quote).Reachable s) :
    ∃ t, (machine pkg quote).ReachesVia (fun _ a ↦ a ≠ .kill) s t ∧
      t.process = none ∧ t.status.state = .stopped ∧
      ∀ n, t.stop ≠ .wait n ∧ t.stop ≠ .query n := by
  obtain ⟨t, hreach, hprocess, hstop⟩ := Machine.exists_reachesVia_of_rank
    (M := machine pkg quote) (C := fun _ a ↦ a ≠ .kill)
    (P := fun t ↦ t.process = none ∧ t.stop.rank = 0) Scm.rank
    (fun s hs hnot ↦ (Scm.sound_of_reachable hpkg hs).exists_step hnot) hs
  have h := Scm.sound_of_reachable hpkg (hs.trans hreach.reaches)
  refine ⟨t, hreach, hprocess, h.absent hprocess, fun n ↦ ⟨fun heq ↦ ?_, fun heq ↦ ?_⟩⟩
  · simp [heq, StopPc.rank] at hstop
  · simp [heq, StopPc.rank] at hstop

end Progress

section Samples

/-- Every control but the question for the status needs to be accepted by the service. -/
def samplePackage : Package where
  shown statuses := statuses.getLast?.getD ⟨.startPending, false⟩
  current statuses := statuses.getLast?.getD ⟨.stopped, false⟩
  takes status cmd := cmd == .interrogate || status.accepts

theorem samplePackage_follows : samplePackage.Follows where
  shown_nil := by decide
  shown_concat statuses status := by simp [samplePackage]
  current_concat statuses status := by simp [samplePackage]

/-- A service is started and told to stop while it runs, and is asked for its status before its
command has ended. -/
def stoppedEarly : List Act :=
  [.start, .execute .reported, .execute .started, .execute .reported, .stopConnected none,
    .stopOpened none, .stopSent, .deliver, .execute .reported, .execute .cancelled,
    .control .interrogate, .stopElapsed, .deliver, .execute .reported, .stopQueried none]

/-- Its command fails then, and `Stop` sees that it has stopped. -/
def failedLate : List Act :=
  stoppedEarly ++ [.execute (.runReturned (some (.new "lost"))), .execute .runSent,
    .execute .done, .execute .reported, .execute .deferredCancel, .stopElapsed, .stopQueried none]

theorem stopped_service_is_over_failedLate :
    ∃ s p, (machine samplePackage "relaycat").Reachable s ∧ s.process = some p ∧
      s.status.state = .stopped ∧ s.stop = .returned (some s.starts) none ∧ s.Over ∧
      p.reported.map Status.state =
        [.startPending, .running, .stopPending, .stopPending, .stopped] ∧
      (p.reported.Pairwise fun a b ↦ a.state.rank ≤ b.state.rank) ∧
      (∀ st ∈ p.reported.dropLast, st.state ≠ .stopped) ∧ p.ctxDone = true ∧
      p.pc = .returned true ∧ ∃ err, p.run = .ended err ∧ fails err = true := by
  obtain ⟨s, hexec, hprocess, hstatus, hstop⟩ := Machine.exists_of_exec
    (M := machine samplePackage "relaycat") (s := ⟨none, 0, ⟨.stopped, false⟩, [], .connect⟩)
    failedLate
    (fun s ↦ s.process.map (fun p ↦ (p.reported, p.pc)) =
        some ([⟨.startPending, false⟩, ⟨.running, true⟩, ⟨.stopPending, false⟩,
          ⟨.stopPending, false⟩, ⟨.stopped, false⟩], .returned true) ∧
      s.status.state = .stopped ∧ s.stop = .returned (some s.starts) none) rfl
  have hreach := Machine.reaches_of_exec failedLate hexec
  obtain ⟨p, hp, hpair⟩ := Option.map_eq_some_iff.mp hprocess
  obtain ⟨hreported, hpc⟩ := Prod.mk.inj hpair
  obtain ⟨hover, hanswered, hreports⟩ :=
    Scm.stopped_service_is_over samplePackage_follows hreach
  obtain ⟨hsorted, hlast, htold, hreturned⟩ := hreports p hp
  have hctx : p.ctxDone = true :=
    (htold ⟨.stopPending, false⟩ (by simp [hreported]) rfl).resolve_right (by simp [hpc])
  obtain ⟨err, hrun, hfails⟩ := hreturned true hpc
  exact ⟨s, p, hreach, hp, hstatus, hstop, (hanswered s.starts hstop).2 rfl, by rw [hreported]; rfl,
    hsorted, hlast, hctx, hpc, err, hrun, (hfails.mp rfl).2⟩

theorem service_can_end_stoppedEarly :
    ∃ s t, (machine samplePackage "relaycat").ReachesVia (fun _ a ↦ a ≠ .kill) s t ∧
      s.stop = .wait 1 ∧ s.process ≠ none ∧ t.process = none := by
  obtain ⟨s, hexec, hprocess, hstop⟩ := Machine.exists_of_exec
    (M := machine samplePackage "relaycat") (s := ⟨none, 0, ⟨.stopped, false⟩, [], .connect⟩)
    stoppedEarly (fun s ↦ s.process.isSome = true ∧ s.stop = .wait 1) rfl
  have hreach := Machine.reaches_of_exec stoppedEarly hexec
  obtain ⟨t, hend, hgone, -⟩ := service_can_end samplePackage_follows hreach
  exact ⟨s, t, hend, hstop, Option.isSome_iff_ne_none.mp hprocess, hgone⟩

end Samples

end RelayCat.WinService.Control
