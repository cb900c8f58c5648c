import RelayCat.Endpoint.Handshake

/-!
# The target of an agent tunnel

`openTarget` and the rest of `handleAgentTunnel`, statement by statement, with the sockets they
open and close. With a handler the tunnel is bridged to a connection that the agent dials to a
listener of its own: the listener is on a loopback port, so any local process may connect to it
as long as it is open, and `Accept` takes the connection that came first. The handler runs in a
goroutine that owns its end of the connection.

The calls that `openTarget` consists of refine the one step that the handshake model has for
it. No socket outlives the call and the handler, on any path.
-/

namespace RelayCat.Endpoint

open Go Wire Noise Automaton

inductive Socket where
  | unopened
  | opened
  | closed
  deriving DecidableEq, Repr

/-- Who is at the other end of a connection. -/
inductive Peer where
  | target
  | handler
  | stranger
  deriving DecidableEq, Repr

inductive TargetPc where
  | dial
  | listen
  | dialBridge
  | acceptBridge
  | abandonListener (err : Err)
  | closeListener (err : Option Err)
  | closeHandlerConn (err : Err)
  | start
  | sendClose (err : Err)
  | closeSend (err : Err)
  | bridge
  | closeTarget (bridgeErr : Option Err)
  | handlerDone (bridgeErr : Option Err)
  | deferred (errs : List Err)
  | returned (errs : List Err)
  deriving DecidableEq, Repr

/-- The goroutine that runs the handler. -/
inductive HandlerPc where
  | idle
  | running
  | sending (err : Option Err)
  | closing
  | ended
  deriving DecidableEq, Repr

/-- `backlog` holds the connections that the listener has not accepted, `done` is the channel of
the handler's result, `closeFrames` counts the calls of `SendClose` with
`CLOSE_CODE_TARGET_UNREACHABLE`, and `raced` records that a stranger connected before the agent
did. -/
structure TargetRun where
  pc : TargetPc
  handler : HandlerPc := .idle
  listener : Socket := .unopened
  backlog : List Peer := []
  handlerConn : Socket := .unopened
  target : Socket := .unopened
  peer : Option Peer := none
  done : Option (Option Err) := none
  closeFrames : ℕ := 0
  raced : Bool := false
  deriving DecidableEq, Repr

inductive TargetAct where
  | dialed (err : Option Err)
  | listened (err : Option Err)
  | bridgeDialed (err : Option Err)
  | bridgeAccepted (err : Option Err)
  | listenerClosed
  | handlerConnClosed
  | started
  | closeSent
  | sendClosed
  | bridged (err : Option Err)
  | targetClosed
  | handlerReceived
  | deferredClosed
  | strangerConnected
  | handlerReturned (err : Option Err)
  | handlerSent
  | handlerClosed
  deriving DecidableEq, Repr

namespace TargetRun

def openTarget (s : TargetRun) : TargetAct → Option TargetRun
  | .dialed err =>
    match s.pc, err with
    | .dial, some e => some { s with pc := .sendClose (.errorf "dialing target" e) }
    | .dial, none => some { s with pc := .bridge, target := .opened, peer := some .target }
    | _, _ => none
  | .listened err =>
    match s.pc, err with
    | .listen, some e => some { s with pc := .sendClose (.errorf "creating handler bridge" e) }
    | .listen, none => some { s with pc := .dialBridge, listener := .opened }
    | _, _ => none
  | .bridgeDialed err =>
    match s.pc, err with
    | .dialBridge, some e =>
      some { s with pc := .abandonListener (.errorf "dialing handler bridge" e) }
    | .dialBridge, none =>
      some { s with
        pc := .acceptBridge, handlerConn := .opened, backlog := s.backlog ++ [.handler] }
    | _, _ => none
  | .bridgeAccepted err =>
    match s.pc, err, s.backlog with
    | .acceptBridge, some e, _ =>
      some { s with pc := .closeListener (some (.errorf "accepting handler bridge" e)) }
    | .acceptBridge, none, p :: backlog =>
      some { s with
        pc := .closeListener none, target := .opened, peer := some p, backlog := backlog }
    | _, _, _ => none
  | .listenerClosed =>
    match s.pc with
    | .abandonListener e => some { s with pc := .sendClose e, listener := .closed, backlog := [] }
    | .closeListener none => some { s with pc := .start, listener := .closed, backlog := [] }
    | .closeListener (some e) =>
      some { s with pc := .closeHandlerConn e, listener := .closed, backlog := [] }
    | _ => none
  | .handlerConnClosed =>
    match s.pc with
    | .closeHandlerConn e => some { s with pc := .sendClose e, handlerConn := .closed }
    | _ => none
  | .started =>
    match s.pc with
    | .start => some { s with pc := .bridge, handler := .running }
    | _ => none
  | _ => none

/-- What `handleAgentTunnel` does with the target; `Bridge` closes it before it returns. -/
def handleTarget (handler : Bool) (s : TargetRun) : TargetAct → Option TargetRun
  | .closeSent =>
    match s.pc with
    | .sendClose e => some { s with pc := .closeSend e, closeFrames := s.closeFrames + 1 }
    | _ => none
  | .sendClosed =>
    match s.pc with
    | .closeSend e => some { s with pc := .returned [e] }
    | _ => none
  | .bridged err =>
    match s.pc with
    | .bridge =>
      if handler then some { s with pc := .closeTarget err, target := .closed }
      else some { s with pc := .deferred err.toList, target := .closed }
    | _ => none
  | .targetClosed =>
    match s.pc with
    | .closeTarget err => some { s with pc := .handlerDone err, target := .closed }
    | _ => none
  | .handlerReceived =>
    match s.pc, s.done with
    | .handlerDone err, some result =>
      some { s with pc := .deferred (err.toList ++ result.toList), done := none }
    | _, _ => none
  | .deferredClosed =>
    match s.pc with
    | .deferred errs => some { s with pc := .returned errs, target := .closed }
    | _ => none
  | _ => none

/-- The handler's goroutine, and other processes of the machine. -/
def environment (s : TargetRun) : TargetAct → Option TargetRun
  | .strangerConnected =>
    if s.listener = .opened then
      some { s with
        backlog := s.backlog ++ [.stranger], raced := s.raced || s.pc = .dialBridge }
    else none
  | .handlerReturned err =>
    match s.handler with
    | .running => some { s with handler := .sending err }
    | _ => none
  | .handlerSent =>
    match s.handler, s.done with
    | .sending err, none => some { s with handler := .closing, done := some err }
    | _, _ => none
  | .handlerClosed =>
    match s.handler with
    | .closing => some { s with handler := .ended, handlerConn := .closed }
    | _ => none
  | _ => none

def step (handler : Bool) (s : TargetRun) (a : TargetAct) : Option TargetRun :=
  (s.openTarget a).or ((s.handleTarget handler a).or (s.environment a))

/-- One tunnel of an agent with or without a handler, from the call of `openTarget` on. -/
def machine (handler : Bool) : Machine TargetRun TargetAct where
  init := { pc := if handler then .listen else .dial }
  step := step handler

end TargetRun

namespace TargetPc

/-- The listener is open. -/
def listens : TargetPc → Bool
  | dialBridge | acceptBridge | abandonListener _ | closeListener _ => true
  | _ => false

/-- `openTarget` holds the connection that it has dialed for the handler. -/
def holdsHandlerConn : TargetPc → Bool
  | acceptBridge | closeListener _ | closeHandlerConn _ | start => true
  | _ => false

/-- The target is open. -/
def holdsTarget : TargetPc → Bool
  | closeListener none | start | bridge => true
  | _ => false

/-- `openTarget` has returned without an error, or the call has returned. -/
def isOpened : TargetPc → Bool
  | bridge | closeTarget _ | handlerDone _ | deferred _ | returned _ => true
  | _ => false

/-- Points that only an agent with a handler reaches. -/
def forHandler : TargetPc → Bool
  | dial | sendClose _ | closeSend _ | bridge | deferred _ | returned _ => false
  | _ => true

/-- `openTarget` has returned without an error and the handler's result is not needed yet. -/
def isBridging : TargetPc → Bool
  | bridge | closeTarget _ | handlerDone _ => true
  | _ => false

/-- The target has been opened, if the call has not returned. -/
def hasTarget : TargetPc → Bool
  | closeListener none | start | bridge | closeTarget _ | handlerDone _ | deferred _ => true
  | _ => false

/-- `SendClose` may have been called. -/
def mayHaveSent : TargetPc → Bool
  | closeSend _ | returned _ => true
  | _ => false

/-- How far the call is from its end, through the longest way. -/
def rank : TargetPc → ℕ
  | listen => 9
  | dialBridge => 8
  | acceptBridge => 7
  | closeListener _ => 6
  | dial | start => 5
  | bridge => 4
  | closeTarget _ | closeHandlerConn _ | abandonListener _ => 3
  | handlerDone _ | sendClose _ => 2
  | deferred _ | closeSend _ => 1
  | returned _ => 0

theorem not_holdsHandlerConn {pc : TargetPc} (h : pc.isOpened = true) :
    pc.holdsHandlerConn = false := by
  cases pc <;> simp_all [isOpened, holdsHandlerConn]

end TargetPc

namespace HandlerPc

/-- The goroutine holds its end of the connection. -/
def isLive : HandlerPc → Bool
  | running | sending _ | closing => true
  | _ => false

def rank : HandlerPc → ℕ
  | running => 3
  | sending _ => 2
  | closing => 1
  | idle | ended => 0

/-- The handler has returned and its result is in the channel. -/
def hasSent : HandlerPc → Bool
  | closing | ended => true
  | _ => false

end HandlerPc

namespace TargetRun

/-- Everything a step of a tunnel's target can do. -/
inductive Move (handler : Bool) (s : TargetRun) : TargetRun → Prop
  | dialFailed (e : Err) : s.pc = .dial →
      Move handler s { s with pc := .sendClose (.errorf "dialing target" e) }
  | dialed : s.pc = .dial →
      Move handler s { s with pc := .bridge, target := .opened, peer := some .target }
  | listenFailed (e : Err) : s.pc = .listen →
      Move handler s { s with pc := .sendClose (.errorf "creating handler bridge" e) }
  | listened : s.pc = .listen → Move handler s { s with pc := .dialBridge, listener := .opened }
  | bridgeDialFailed (e : Err) : s.pc = .dialBridge →
      Move handler s { s with pc := .abandonListener (.errorf "dialing handler bridge" e) }
  | bridgeDialed : s.pc = .dialBridge →
      Move handler s { s with
        pc := .acceptBridge, handlerConn := .opened, backlog := s.backlog ++ [.handler] }
  | acceptFailed (e : Err) : s.pc = .acceptBridge →
      Move handler s { s with
        pc := .closeListener (some (.errorf "accepting handler bridge" e)) }
  | accepted (p : Peer) (backlog : List Peer) : s.pc = .acceptBridge → s.backlog = p :: backlog →
      Move handler s { s with
        pc := .closeListener none, target := .opened, peer := some p, backlog := backlog }
  | listenerClosed (pc : TargetPc) :
      (∃ e, s.pc = .abandonListener e ∧ pc = .sendClose e) ∨
        (s.pc = .closeListener none ∧ pc = .start) ∨
        (∃ e, s.pc = .closeListener (some e) ∧ pc = .closeHandlerConn e) →
      Move handler s { s with pc := pc, listener := .closed, backlog := [] }
  | handlerConnClosed (e : Err) : s.pc = .closeHandlerConn e →
      Move handler s { s with pc := .sendClose e, handlerConn := .closed }
  | started : s.pc = .start → Move handler s { s with pc := .bridge, handler := .running }
  | closeSent (e : Err) : s.pc = .sendClose e →
      Move handler s { s with pc := .closeSend e, closeFrames := s.closeFrames + 1 }
  | sendClosed (e : Err) : s.pc = .closeSend e → Move handler s { s with pc := .returned [e] }
  | bridged (err : Option Err) : s.pc = .bridge →
      Move handler s { s with
        pc := if handler then .closeTarget err else .deferred err.toList, target := .closed }
  | targetClosed (err : Option Err) : s.pc = .closeTarget err →
      Move handler s { s with pc := .handlerDone err, target := .closed }
  | handlerReceived (err result : Option Err) : s.pc = .handlerDone err → s.done = some result →
      Move handler s { s with pc := .deferred (err.toList ++ result.toList), done := none }
  | deferredClosed (errs : List Err) : s.pc = .deferred errs →
      Move handler s { s with pc := .returned errs, target := .closed }
  | strangerConnected : s.listener = .opened →
      Move handler s { s with
        backlog := s.backlog ++ [.stranger], raced := s.raced || s.pc = .dialBridge }
  | handlerReturned (err : Option Err) : s.handler = .running →
      Move handler s { s with handler := .sending err }
  | handlerSent (err : Option Err) : s.handler = .sending err → s.done = none →
      Move handler s { s with handler := .closing, done := some err }
  | handlerClosed : s.handler = .closing →
      Move handler s { s with handler := .ended, handlerConn := .closed }

variable {handler : Bool} {s t : TargetRun} {a : TargetAct}

theorem move_of_openTarget (h : s.openTarget a = some t) : Move handler s t := by
  unfold openTarget at h
  split at h
  · split at h
    · cases h; exact .dialFailed _ ‹_›
    · cases h; exact .dialed ‹_›
    · contradiction
  · split at h
    · cases h; exact .listenFailed _ ‹_›
    · cases h; exact .listened ‹_›
    · contradiction
  · split at h
    · cases h; exact .bridgeDialFailed _ ‹_›
    · cases h; exact .bridgeDialed ‹_›
    · contradiction
  · split at h
    · cases h; exact .acceptFailed _ ‹_›
    · rename_i hpc hbacklog
      cases h; exact .accepted _ _ hpc hbacklog
    · contradiction
  · split at h
    · rename_i e hpc
      cases h; exact .listenerClosed _ (.inl ⟨e, hpc, rfl⟩)
    · rename_i hpc
      cases h; exact .listenerClosed _ (.inr (.inl ⟨hpc, rfl⟩))
    · rename_i e hpc
      cases h; exact .listenerClosed _ (.inr (.inr ⟨e, hpc, rfl⟩))
    · contradiction
  · split at h
    · cases h; exact .handlerConnClosed _ ‹_›
    · contradiction
  · split at h
    · cases h; exact .started ‹_›
    · contradiction
  · contradiction

theorem move_of_handleTarget (h : s.handleTarget handler a = some t) : Move handler s t := by
  unfold handleTarget at h
  split at h
  · split at h
    · cases h; exact .closeSent _ ‹_›
    · contradiction
  · split at h
    · cases h; exact .sendClosed _ ‹_›
    · contradiction
  · split at h
    · rename_i err _ hpc
      have hmove : Move handler s _ := Move.bridged err hpc
      cases handler <;> cases h <;> exact hmove
    · contradiction
  · split at h
    · cases h; exact .targetClosed _ ‹_›
    · contradiction
  · split at h
    · rename_i hpc hdone
      cases h; exact .handlerReceived _ _ hpc hdone
    · contradiction
  · split at h
    · cases h; exact .deferredClosed _ ‹_›
    · contradiction
  · contradiction

theorem move_of_environment (h : s.environment a = some t) : Move handler s t := by
  unfold environment at h
  split at h
  · obtain ⟨hopened, h⟩ := Option.ite_none_right_eq_some.mp h
    cases h; exact .strangerConnected hopened
  · split at h
    · cases h; exact .handlerReturned _ ‹_›
    · contradiction
  · split at h
    · rename_i hsending hdone
      cases h; exact .handlerSent _ hsending hdone
    · contradiction
  · split at h
    · cases h; exact .handlerClosed ‹_›
    · contradiction
  · contradiction

theorem move_of_step (h : s.step handler a = some t) : Move handler s t := by
  rcases Option.or_eq_some_iff.mp h with hopen | ⟨_, h⟩
  · exact move_of_openTarget hopen
  · rcases Option.or_eq_some_iff.mp h with hhandle | ⟨_, henv⟩
    · exact move_of_handleTarget hhandle
    · exact move_of_environment henv

/-- The sockets that are open at each point. -/
structure Sockets (s : TargetRun) : Prop where
  listener : s.listener = .opened ↔ s.pc.listens = true
  handlerConn : s.handlerConn = .opened ↔ s.pc.holdsHandlerConn = true ∨ s.handler.isLive = true
  target : s.target = .opened ↔ s.pc.holdsTarget = true
  opened : s.handler ≠ .idle → s.pc.isOpened = true

theorem Move.sockets (hmove : Move handler s t) (h : s.Sockets) : t.Sockets := by
  obtain ⟨hlistener, hconn, htarget, hopened⟩ := h
  cases hmove with
  | listenerClosed pc hcase =>
    rcases hcase with ⟨e, hpc, rfl⟩ | ⟨hpc, rfl⟩ | ⟨e, hpc, rfl⟩ <;>
      constructor <;>
      simp_all [TargetPc.listens, TargetPc.holdsHandlerConn, TargetPc.holdsTarget,
        TargetPc.isOpened]
  | bridged err hpc =>
    cases handler <;> constructor <;>
      simp_all [TargetPc.listens, TargetPc.holdsHandlerConn, TargetPc.holdsTarget,
        TargetPc.isOpened]
  | handlerClosed hclosing =>
    have hopen := hopened (by simp [hclosing])
    refine ⟨hlistener, ?_, htarget, fun _ ↦ hopen⟩
    simp [TargetPc.not_holdsHandlerConn hopen, HandlerPc.isLive]
  | _ =>
    constructor <;>
      simp_all [TargetPc.listens, TargetPc.holdsHandlerConn, TargetPc.holdsTarget,
        TargetPc.isOpened, HandlerPc.isLive]

/-- The handler's goroutine and its result at each point. -/
structure Delivers (handler : Bool) (s : TargetRun) : Prop where
  direct : s.pc = .dial → handler = false
  mode : s.pc.forHandler = true ∨ s.handler ≠ .idle → handler = true
  serves : s.pc.isBridging = true → handler = true → s.handler ≠ .idle
  unsent : s.handler.hasSent = false → s.done = none
  pending : s.pc.isBridging = true → s.handler.hasSent = true → s.done ≠ none
  settled : s.pc.isBridging = false → s.done = none ∧ (s.handler = .idle ∨ s.handler.hasSent = true)

/-- The call moves between points of one kind. -/
theorem Delivers.congr (h : s.Delivers handler) (hhandler : t.handler = s.handler)
    (hdone : t.done = s.done) (hdial : t.pc ≠ .dial)
    (hmode : t.pc.forHandler = true → s.pc.forHandler = true)
    (hbridging : t.pc.isBridging = s.pc.isBridging) : t.Delivers handler := by
  refine ⟨fun hpc ↦ absurd hpc hdial, ?_, ?_, ?_, ?_, ?_⟩ <;>
    rw [hhandler]
  · exact fun hor ↦ h.mode (hor.imp_left hmode)
  · exact hbridging ▸ h.serves
  · exact hdone ▸ h.unsent
  · exact hbridging ▸ hdone ▸ h.pending
  · exact hbridging ▸ hdone ▸ h.settled

theorem Move.delivers (hmove : Move handler s t) (h : s.Delivers handler) :
    t.Delivers handler := by
  cases hmove with
  | dialed hpc =>
    obtain ⟨hdirect, hmode, hserves, hunsent, hpending, hsettled⟩ := h
    constructor <;> simp_all [TargetPc.isBridging, TargetPc.forHandler, HandlerPc.hasSent]
  | started hpc =>
    obtain ⟨hdirect, hmode, hserves, hunsent, hpending, hsettled⟩ := h
    constructor <;> simp_all [TargetPc.isBridging, TargetPc.forHandler, HandlerPc.hasSent]
  | bridged err hpc =>
    obtain ⟨hdirect, hmode, hserves, hunsent, hpending, hsettled⟩ := h
    cases handler <;> constructor <;>
      simp_all [TargetPc.isBridging, TargetPc.forHandler, HandlerPc.hasSent]
  | handlerReceived err result hpc hdone =>
    obtain ⟨hdirect, hmode, hserves, hunsent, hpending, hsettled⟩ := h
    constructor <;> simp_all [TargetPc.isBridging, TargetPc.forHandler]
  | handlerReturned err hrunning =>
    obtain ⟨hdirect, hmode, hserves, hunsent, hpending, hsettled⟩ := h
    constructor <;> simp_all [HandlerPc.hasSent]
  | handlerSent err hsending hdone =>
    obtain ⟨hdirect, hmode, hserves, hunsent, hpending, hsettled⟩ := h
    constructor <;> simp_all [HandlerPc.hasSent]
  | handlerClosed hclosing =>
    obtain ⟨hdirect, hmode, hserves, hunsent, hpending, hsettled⟩ := h
    constructor <;> simp_all [HandlerPc.hasSent]
  | strangerConnected _ =>
    exact ⟨h.direct, h.mode, h.serves, h.unsent, h.pending, h.settled⟩
  | listenerClosed pc hcase =>
    rcases hcase with ⟨e, hpc, rfl⟩ | ⟨hpc, rfl⟩ | ⟨e, hpc, rfl⟩ <;>
      refine h.congr rfl rfl ?_ ?_ ?_ <;> simp [hpc, TargetPc.forHandler, TargetPc.isBridging]
  | _ =>
    refine h.congr rfl rfl ?_ ?_ ?_ <;> simp [*, TargetPc.forHandler, TargetPc.isBridging]

/-- Whether the target has been opened, and the close that tells that it has not. -/
structure Reports (s : TargetRun) : Prop where
  unopened : (∀ errs, s.pc ≠ .returned errs) → (s.target = .unopened ↔ s.pc.hasTarget = false)
  refused : s.target = .unopened → s.handler = .idle
  frames : s.closeFrames = if s.target = .unopened ∧ s.pc.mayHaveSent = true then 1 else 0

theorem Reports.congr (h : s.Reports) (hhandler : t.handler = s.handler)
    (htarget : t.target = s.target) (hframes : t.closeFrames = s.closeFrames)
    (hreturned : ∀ errs, s.pc ≠ .returned errs) (hhas : t.pc.hasTarget = s.pc.hasTarget)
    (hsent : t.pc.mayHaveSent = s.pc.mayHaveSent) : t.Reports where
  unopened _ := by
    rw [htarget, hhas]
    exact h.unopened hreturned
  refused := by
    rw [htarget, hhandler]
    exact h.refused
  frames := by
    rw [hframes, htarget, hsent]
    exact h.frames

theorem Move.reports (hmove : Move handler s t) (h : s.Reports) : t.Reports := by
  cases hmove with
  | strangerConnected _ => exact ⟨h.unopened, h.refused, h.frames⟩
  | handlerReturned err hrunning =>
    refine ⟨h.unopened, fun hun ↦ ?_, h.frames⟩
    simp [h.refused hun] at hrunning
  | handlerSent err hsending _ =>
    refine ⟨h.unopened, fun hun ↦ ?_, h.frames⟩
    simp [h.refused hun] at hsending
  | handlerClosed hclosing =>
    refine ⟨h.unopened, fun hun ↦ ?_, h.frames⟩
    simp [h.refused hun] at hclosing
  | listenerClosed pc hcase =>
    rcases hcase with ⟨e, hpc, rfl⟩ | ⟨hpc, rfl⟩ | ⟨e, hpc, rfl⟩ <;>
      refine h.congr rfl rfl rfl ?_ ?_ ?_ <;>
      simp [hpc, TargetPc.hasTarget, TargetPc.mayHaveSent]
  | dialed hpc =>
    obtain ⟨hunopened, hrefused, hframes⟩ := h
    constructor <;> simp_all [TargetPc.hasTarget, TargetPc.mayHaveSent]
  | accepted p backlog hpc _ =>
    obtain ⟨hunopened, hrefused, hframes⟩ := h
    constructor <;> simp_all [TargetPc.hasTarget, TargetPc.mayHaveSent]
  | started hpc =>
    obtain ⟨hunopened, hrefused, hframes⟩ := h
    constructor <;> simp_all [TargetPc.hasTarget, TargetPc.mayHaveSent]
  | closeSent e hpc =>
    obtain ⟨hunopened, hrefused, hframes⟩ := h
    constructor <;> simp_all [TargetPc.hasTarget, TargetPc.mayHaveSent]
  | sendClosed e hpc =>
    obtain ⟨hunopened, hrefused, hframes⟩ := h
    constructor <;> simp_all [TargetPc.hasTarget, TargetPc.mayHaveSent]
  | bridged err hpc =>
    obtain ⟨hunopened, hrefused, hframes⟩ := h
    cases handler <;> constructor <;> simp_all [TargetPc.hasTarget, TargetPc.mayHaveSent]
  | targetClosed err hpc =>
    obtain ⟨hunopened, hrefused, hframes⟩ := h
    constructor <;> simp_all [TargetPc.hasTarget, TargetPc.mayHaveSent]
  | deferredClosed errs hpc =>
    obtain ⟨hunopened, hrefused, hframes⟩ := h
    constructor <;> simp_all [TargetPc.hasTarget, TargetPc.mayHaveSent]
  | _ =>
    refine h.congr rfl rfl rfl ?_ ?_ ?_ <;> simp [*, TargetPc.hasTarget, TargetPc.mayHaveSent]

/-- Who waits in the listener's backlog and who is at the other end of the target. -/
structure Raced (handler : Bool) (s : TargetRun) : Prop where
  early : s.pc = .dial ∨ s.pc = .listen → s.backlog = [] ∧ s.raced = false ∧ s.peer = none
  dialing : s.pc = .dialBridge →
    (∀ p ∈ s.backlog, p = .stranger) ∧ (s.raced = true ↔ s.backlog ≠ []) ∧ s.peer = none
  accepting : s.pc = .acceptBridge →
    ∃ p rest, s.backlog = p :: rest ∧ p ≠ .target ∧ (p = .stranger ↔ s.raced = true)
  peer : ∀ p, s.peer = some p →
    if handler then p ≠ .target ∧ (p = .stranger ↔ s.raced = true) else p = .target

/-- The agent's own connection comes after those of the strangers. -/
theorem head_of_strangers {backlog : List Peer} (h : ∀ p ∈ backlog, p = .stranger) :
    ∃ p rest, backlog ++ [.handler] = p :: rest ∧ p ≠ .target ∧
      (p = .stranger ↔ backlog ≠ []) := by
  cases backlog with
  | nil => exact ⟨.handler, [], rfl, by simp, by simp⟩
  | cons p rest =>
    have hp := h p List.mem_cons_self
    exact ⟨p, rest ++ [.handler], rfl, by simp [hp], by simp [hp]⟩

theorem Move.raced (hmove : Move handler s t) (hsockets : s.Sockets)
    (hdelivers : s.Delivers handler) (h : s.Raced handler) : t.Raced handler := by
  cases hmove with
  | dialed hpc =>
    refine ⟨by simp, by simp, by simp, ?_⟩
    rintro p ⟨⟩
    simp [hdelivers.direct hpc]
  | listened hpc =>
    have hearly := h.early (.inr hpc)
    exact ⟨by simp, fun _ ↦ by simp [hearly], by simp, h.peer⟩
  | bridgeDialed hpc =>
    obtain ⟨hstrangers, hraced, _⟩ := h.dialing hpc
    refine ⟨by simp, by simp, fun _ ↦ ?_, h.peer⟩
    simp only [hraced]
    exact head_of_strangers hstrangers
  | accepted p backlog hpc hbacklog =>
    obtain ⟨q, rest, hq, hne, hraced⟩ := h.accepting hpc
    obtain ⟨rfl, rfl⟩ := List.cons.inj (hbacklog.symm.trans hq)
    refine ⟨by simp, by simp, by simp, ?_⟩
    rintro p' ⟨⟩
    rw [hdelivers.mode (.inl (by rw [hpc]; rfl))]
    exact ⟨hne, hraced⟩
  | bridged err hpc => cases handler <;> exact ⟨by simp, by simp, by simp, h.peer⟩
  | strangerConnected hopened =>
    have hlistens := hsockets.listener.mp hopened
    refine ⟨fun hpc ↦ ?_, fun hpc ↦ ?_, fun hpc ↦ ?_, fun p hp ↦ ?_⟩
    · rcases hpc with hpc | hpc <;> simp [show s.pc = _ from hpc, TargetPc.listens] at hlistens
    · obtain ⟨hstrangers, _, hpeer⟩ := h.dialing hpc
      simpa [show s.pc = _ from hpc, or_imp, forall_and, hpeer] using hstrangers
    · obtain ⟨q, rest, hq, hne, hraced⟩ := h.accepting hpc
      refine ⟨q, rest ++ [.stranger], by simp [hq], hne, ?_⟩
      simpa [show s.pc = _ from hpc] using hraced
    · have hnot : s.pc ≠ .dialBridge := fun hpc ↦ by simp [(h.dialing hpc).2.2] at hp
      simpa [hnot] using h.peer p hp
  | handlerReturned err _ => exact ⟨h.early, h.dialing, h.accepting, h.peer⟩
  | handlerSent err _ _ => exact ⟨h.early, h.dialing, h.accepting, h.peer⟩
  | handlerClosed _ => exact ⟨h.early, h.dialing, h.accepting, h.peer⟩
  | listenerClosed pc hcase =>
    rcases hcase with ⟨e, hpc, rfl⟩ | ⟨hpc, rfl⟩ | ⟨e, hpc, rfl⟩ <;>
      exact ⟨by simp, by simp, by simp, h.peer⟩
  | _ => exact ⟨by simp, by simp, by simp, h.peer⟩

theorem sound_of_reachable (h : (machine handler).Reachable s) :
    s.Sockets ∧ s.Delivers handler ∧ s.Reports ∧ s.Raced handler := by
  refine Machine.invariant (I := fun s ↦ s.Sockets ∧ s.Delivers handler ∧ s.Reports ∧
    s.Raced handler) ⟨?_, ?_, ?_, ?_⟩ ?_ h
  · cases handler <;> constructor <;>
      simp [machine, TargetPc.listens, TargetPc.holdsHandlerConn, TargetPc.holdsTarget,
        HandlerPc.isLive]
  · cases handler <;> constructor <;>
      simp [machine, TargetPc.forHandler, TargetPc.isBridging, HandlerPc.hasSent]
  · cases handler <;> constructor <;>
      simp [machine, TargetPc.hasTarget, TargetPc.mayHaveSent]
  · cases handler <;> constructor <;> simp [machine]
  · rintro s a t _ ⟨hsockets, hdelivers, hreports, hraced⟩ hstep
    have hmove := move_of_step hstep
    exact ⟨hmove.sockets hsockets, hmove.delivers hdelivers, hmove.reports hreports,
      hmove.raced hsockets hdelivers hraced⟩

/-- Another process connects to the listener before the agent does. -/
def strangerFirst : List TargetAct :=
  [.listened none, .strangerConnected, .bridgeDialed none, .bridgeAccepted none, .listenerClosed,
    .started, .handlerReturned (some .eof)]

theorem exists_strangerFirst : ∃ s, (machine true).Reachable s ∧
    s.pc = .bridge ∧ s.peer = some .stranger ∧ s.handler = .sending (some .eof) := by
  obtain ⟨s, hexec, hs⟩ := Machine.exists_of_exec (M := machine true) (s := { pc := .listen })
    strangerFirst (fun s ↦ s.pc = .bridge ∧ s.peer = some .stranger ∧
      s.handler = .sending (some .eof)) rfl
  exact ⟨s, Machine.reaches_of_exec strangerFirst hexec, hs⟩

/-- A handler, a dial or a bridge that returns brings the call closer to its end. -/
def rank (s : TargetRun) : ℕ := 4 * s.pc.rank + s.handler.rank

/-- The call has returned and the handler's goroutine has ended. -/
def isOver (s : TargetRun) : Prop :=
  (∃ errs, s.pc = .returned errs) ∧ (s.handler = .idle ∨ s.handler = .ended)

/-- The handler's goroutine is never stuck. -/
theorem exists_handler_step (hdelivers : s.Delivers handler) (hidle : s.handler ≠ .idle)
    (hended : s.handler ≠ .ended) :
    ∃ a t, s.step handler a = some t ∧ t.rank < s.rank := by
  cases hhandler : s.handler with
  | idle => exact absurd hhandler hidle
  | running =>
    refine ⟨.handlerReturned none, { s with handler := .sending none }, ?_, ?_⟩
    · simp [step, openTarget, handleTarget, environment, hhandler]
    · simp [rank, hhandler, HandlerPc.rank]
  | sending err =>
    have hdone := hdelivers.unsent (by rw [hhandler]; rfl)
    refine ⟨.handlerSent, { s with handler := .closing, done := some err }, ?_, ?_⟩
    · simp [step, openTarget, handleTarget, environment, hhandler, hdone]
    · simp [rank, hhandler, HandlerPc.rank]
  | closing =>
    refine ⟨.handlerClosed, { s with handler := .ended, handlerConn := .closed }, ?_, ?_⟩
    · simp [step, openTarget, handleTarget, environment, hhandler]
    · simp [rank, hhandler, HandlerPc.rank]
  | ended => exact absurd hhandler hended

/-- The call itself waits for nothing but the outside and the handler. -/
theorem exists_step (hdelivers : s.Delivers handler) (hraced : s.Raced handler)
    (hnot : ¬ s.isOver) : ∃ a t, s.step handler a = some t ∧ t.rank < s.rank := by
  have hlower : ∀ a, (∃ t, s.step handler a = some t ∧ t.handler = s.handler ∧
      t.pc.rank < s.pc.rank) → ∃ a t, s.step handler a = some t ∧ t.rank < s.rank := by
    rintro a ⟨t, hstep, hhandler, hrank⟩
    refine ⟨a, t, hstep, ?_⟩
    simp only [rank, hhandler]
    omega
  cases hpc : s.pc with
  | dial => exact hlower (.dialed none) (by simp [step, openTarget, hpc, TargetPc.rank])
  | listen => exact hlower (.listened none) (by simp [step, openTarget, hpc, TargetPc.rank])
  | dialBridge =>
    exact hlower (.bridgeDialed none) (by simp [step, openTarget, hpc, TargetPc.rank])
  | acceptBridge =>
    obtain ⟨p, rest, hbacklog, _⟩ := hraced.accepting hpc
    exact hlower (.bridgeAccepted none)
      (by simp [step, openTarget, hpc, hbacklog, TargetPc.rank])
  | abandonListener e =>
    exact hlower .listenerClosed (by simp [step, openTarget, hpc, TargetPc.rank])
  | closeListener err =>
    cases err <;> exact hlower .listenerClosed (by simp [step, openTarget, hpc, TargetPc.rank])
  | closeHandlerConn e =>
    exact hlower .handlerConnClosed (by simp [step, openTarget, hpc, TargetPc.rank])
  | start =>
    refine ⟨.started, { s with pc := .bridge, handler := .running }, ?_, ?_⟩
    · simp [step, openTarget, hpc]
    · simp only [rank, hpc, TargetPc.rank, HandlerPc.rank]
      omega
  | sendClose e =>
    exact hlower .closeSent (by simp [step, openTarget, handleTarget, hpc, TargetPc.rank])
  | closeSend e =>
    exact hlower .sendClosed (by simp [step, openTarget, handleTarget, hpc, TargetPc.rank])
  | bridge =>
    refine hlower (.bridged none) ?_
    cases handler <;> simp [step, openTarget, handleTarget, hpc, TargetPc.rank]
  | closeTarget err =>
    exact hlower .targetClosed (by simp [step, openTarget, handleTarget, hpc, TargetPc.rank])
  | handlerDone err =>
    cases hdone : s.done with
    | none =>
      have hbridging : s.pc.isBridging = true := by
        rw [hpc]
        rfl
      have hserves := hdelivers.serves hbridging (hdelivers.mode (.inl (by rw [hpc]; rfl)))
      refine exists_handler_step hdelivers hserves fun hended ↦ ?_
      exact hdelivers.pending hbridging (by rw [hended]; rfl) hdone
    | some result =>
      exact hlower .handlerReceived
        (by simp [step, openTarget, handleTarget, hpc, hdone, TargetPc.rank])
  | deferred errs =>
    exact hlower .deferredClosed (by simp [step, openTarget, handleTarget, hpc, TargetPc.rank])
  | returned errs =>
    refine exists_handler_step hdelivers (fun hidle ↦ ?_) fun hended ↦ ?_
    · exact hnot ⟨⟨errs, hpc⟩, .inl hidle⟩
    · exact hnot ⟨⟨errs, hpc⟩, .inr hended⟩

/-- From every reachable state the call can return and the handler's goroutine end, and then no
socket is left open. -/
theorem target_can_end (cfg : AgentConfig) {s : TargetRun}
    (h : (machine cfg.handler).Reachable s) :
    ∃ t errs, (machine cfg.handler).Reaches s t ∧ t.pc = .returned errs ∧
      (t.handler = .idle ∨ t.handler = .ended) ∧ t.done = none ∧
      t.listener ≠ .opened ∧ t.handlerConn ≠ .opened ∧ t.target ≠ .opened := by
  obtain ⟨t, hreaches, ⟨errs, hpc⟩, hhandler⟩ :=
    Machine.exists_reaches_of_rank (P := isOver) rank (fun s hs hnot ↦ by
      obtain ⟨_, hdelivers, _, hraced⟩ := sound_of_reachable hs
      exact exists_step hdelivers hraced hnot) h
  obtain ⟨hsockets, hdelivers, _, _⟩ := sound_of_reachable (h.trans hreaches)
  have hlive : t.handler.isLive = false := by
    rcases hhandler with hhandler | hhandler <;> rw [hhandler] <;> rfl
  refine ⟨t, errs, hreaches, hpc, hhandler, (hdelivers.settled (by rw [hpc]; rfl)).1, ?_, ?_, ?_⟩
  · simp [hsockets.listener, hpc, TargetPc.listens]
  · simp [hsockets.handlerConn, hpc, TargetPc.holdsHandlerConn, hlive]
  · simp [hsockets.target, hpc, TargetPc.holdsTarget]

theorem target_can_end_strangerFirst :
    ∃ s t errs, (machine true).Reachable s ∧ s.pc = .bridge ∧ (machine true).Reaches s t ∧
      t.pc = .returned errs ∧ t.handlerConn ≠ .opened := by
  obtain ⟨s, hs, hpc, -⟩ := exists_strangerFirst
  obtain ⟨t, errs, hreaches, hreturned, -, -, -, hconn, -⟩ :=
    target_can_end ⟨sharedCode, true⟩ hs
  exact ⟨s, t, errs, hs, hpc, hreaches, hreturned, hconn⟩

end TargetRun

end RelayCat.Endpoint
