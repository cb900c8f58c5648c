import RelayCat.Endpoint.Integrity

/-!
# The idle timeout of `Bridge`

Before each `conn.Read` and each `conn.Write` the loops move the one deadline of the local
connection to `idleTimeout` from now. The two endpoints run here next to a clock: a `Read` or a
`Write` may report the deadline only once it is over, and time does not pass a deadline that an
operation is waiting for. Forgetting the clock gives the runs of the two endpoints.
-/

namespace RelayCat.Bridge

open Go Wire Noise Automaton

/-- `os.ErrDeadlineExceeded`. -/
def osDeadlineExceeded : Err := .new "i/o timeout"

namespace Event

def isRead : Event → Bool
  | .send (.read _ _) => true
  | _ => false

def isWrite : Event → Bool
  | .recv (.write _) => true
  | _ => false

/-- The error that the local connection returned. -/
def connFailure : Event → Option Err
  | .send (.read _ (.failed e)) => some e
  | .recv (.write (.error (_, e))) => some e
  | _ => none

/-- The local connection reported its deadline. -/
def timesOut (ev : Event) : Bool := ev.connFailure.any fun e ↦ e.is osDeadlineExceeded

end Event

/-- The deadline of one local connection, whether `sendLoop` is in `conn.Read` and `recvLoop` in
`conn.Write`, and the times at which such calls were begun. -/
structure ConnClock where
  deadline : Option ℕ := none
  reading : Bool := false
  writing : Bool := false
  begun : List ℕ := []
  deriving DecidableEq, Repr

namespace ConnClock

/-- `SetDeadline(time.Now().Add(idleTimeout))`, if there is an idle timeout. -/
def setDeadline (idleTimeout now : ℕ) (c : ConnClock) : ConnClock :=
  { c with
    deadline := if 0 < idleTimeout then some (now + idleTimeout) else c.deadline
    begun := now :: c.begun }

/-- A call of the local connection has not returned. -/
def pending (c : ConnClock) : Bool := c.reading || c.writing

def expired (c : ConnClock) (now : ℕ) : Bool := c.deadline.any fun d ↦ decide (d ≤ now)

/-- What the connection may answer at this time. -/
def allows (c : ConnClock) (now : ℕ) (ev : Event) : Bool :=
  (!ev.isRead || c.reading) && (!ev.isWrite || c.writing) && (!ev.timesOut || c.expired now)

/-- The call whose answer the event is has returned. -/
def answered (c : ConnClock) (ev : Event) : ConnClock :=
  { c with reading := c.reading && !ev.isRead, writing := c.writing && !ev.isWrite }

theorem pending_of_answered {c : ConnClock} {ev : Event} (h : (c.answered ev).pending = true) :
    c.pending = true := by
  simp only [pending, answered, Bool.or_eq_true, Bool.and_eq_true] at h ⊢
  exact h.imp And.left And.left

theorem expired_iff {c : ConnClock} {now : ℕ} :
    c.expired now = true ↔ ∃ d, c.deadline = some d ∧ d ≤ now := by
  cases hd : c.deadline <;> simp [expired, hd]

end ConnClock

/-- Two endpoints and the time. -/
structure Timed (K : Type) where
  pair : Pair K
  now : ℕ := 0
  clock : Side → ConnClock := fun _ ↦ {}

inductive TimedAct where
  | tick
  | beginRead (side : Side)
  | beginWrite (side : Side)
  | run (side : Side) (ev : Event)
  deriving DecidableEq, Repr

namespace Timed

variable {K : Type}

/-- An operation on the local connection of this side waits and its deadline is over. -/
def due (s : Timed K) (side : Side) : Bool :=
  (s.clock side).pending && (s.clock side).expired s.now

def setClock (s : Timed K) (side : Side) (c : ConnClock) : Timed K :=
  { s with clock := Function.update s.clock side c }

def step [DecidableEq K] (libs : Libs K) (idleTimeout : Side → ℕ) (s : Timed K) :
    TimedAct → Option (Timed K)
  | .tick => if s.due .client || s.due .agent then none else some { s with now := s.now + 1 }
  | .beginRead side =>
    match (s.pair.endpoint side).sender.pc with
    | .reading =>
      if (s.clock side).reading then none
      else some (s.setClock side
        { (s.clock side).setDeadline (idleTimeout side) s.now with reading := true })
    | _ => none
  | .beginWrite side =>
    match (s.pair.endpoint side).receiver.pc with
    | .writing _ =>
      if (s.clock side).writing then none
      else some (s.setClock side
        { (s.clock side).setDeadline (idleTimeout side) s.now with writing := true })
    | _ => none
  | .run side ev =>
    if (s.clock side).allows s.now ev then
      (s.pair.step libs (side, ev)).map fun pair ↦
        { s with pair := pair }.setClock side ((s.clock side).answered ev)
    else none

/-- The two endpoints of one handshake, an arbitrary relay, and the clock. -/
def machine [DecidableEq K] (libs : Libs K) (split : Split K) (canCloseWrite : Side → Bool)
    (idleTimeout : Side → ℕ) : Machine (Timed K) TimedAct where
  init := { pair := Pair.start split canCloseWrite }
  step := step libs idleTimeout

/-- Everything a step can do. -/
inductive Move [DecidableEq K] (libs : Libs K) (idleTimeout : Side → ℕ) (s : Timed K) :
    TimedAct → Timed K → Prop
  | tick : (∀ side, s.due side = false) →
      Move libs idleTimeout s .tick { s with now := s.now + 1 }
  | beginRead (side : Side) : (s.pair.endpoint side).sender.pc = .reading →
      Move libs idleTimeout s (.beginRead side) (s.setClock side
        { (s.clock side).setDeadline (idleTimeout side) s.now with reading := true })
  | beginWrite (side : Side) (data : Bytes) :
      (s.pair.endpoint side).receiver.pc = .writing data →
      Move libs idleTimeout s (.beginWrite side) (s.setClock side
        { (s.clock side).setDeadline (idleTimeout side) s.now with writing := true })
  | run (side : Side) (ev : Event) (pair : Pair K) :
      (s.clock side).allows s.now ev = true → s.pair.step libs (side, ev) = some pair →
      Move libs idleTimeout s (.run side ev)
        ({ s with pair := pair }.setClock side ((s.clock side).answered ev))

theorem move_of_step [DecidableEq K] {libs : Libs K} {idleTimeout : Side → ℕ} {s t : Timed K}
    {a : TimedAct} (h : s.step libs idleTimeout a = some t) : Move libs idleTimeout s a t := by
  cases a with
  | tick =>
    obtain ⟨hdue, ht⟩ := Option.ite_none_left_eq_some.mp h
    cases ht
    refine .tick fun side ↦ ?_
    cases side <;> simp_all
  | beginRead side =>
    simp only [step] at h
    split at h
    · rename_i hpc
      obtain ⟨-, ht⟩ := Option.ite_none_left_eq_some.mp h
      cases ht
      exact .beginRead side hpc
    · contradiction
  | beginWrite side =>
    simp only [step] at h
    split at h
    · rename_i data hpc
      obtain ⟨-, ht⟩ := Option.ite_none_left_eq_some.mp h
      cases ht
      exact .beginWrite side data hpc
    · contradiction
  | run side ev =>
    obtain ⟨hallows, hrun⟩ := Option.ite_none_right_eq_some.mp h
    obtain ⟨pair, hpair, ht⟩ := Option.map_eq_some_iff.mp hrun
    cases ht
    exact .run side ev pair hallows hpair

end Timed

namespace Endpoint

variable {K : Type}

/-- Only the answer of `conn.Read` takes `sendLoop` out of it. -/
theorem reading_of_step [DecidableEq K] {libs : Libs K} {ledger ledger' : Ledger K}
    {e e' : Endpoint K} {ev : Event} (hstep : e.step libs ledger ev = some (ledger', e'))
    (hev : ev.isRead = false) (hpc : e.sender.pc = .reading) : e'.sender.pc = .reading := by
  rcases step_cases hstep with ⟨ev, rfl, hmove⟩ | ⟨ev, rfl, rfl, hmove⟩ | ⟨ev, rfl, rfl, hmove⟩
  · cases hmove <;> simp_all [Event.isRead]
  · rw [hmove.frame.sender, hpc]
  · rw [hmove.frame.sender, hpc]

/-- Only the answer of `conn.Write` takes `recvLoop` out of it. -/
theorem writing_of_step [DecidableEq K] {libs : Libs K} {ledger ledger' : Ledger K}
    {e e' : Endpoint K} {ev : Event} {data : Bytes}
    (hstep : e.step libs ledger ev = some (ledger', e'))
    (hev : ev.isWrite = false) (hpc : e.receiver.pc = .writing data) :
    e'.receiver.pc = .writing data := by
  rcases step_cases hstep with ⟨ev, rfl, hmove⟩ | ⟨ev, rfl, rfl, hmove⟩ | ⟨ev, rfl, rfl, hmove⟩
  · rw [hmove.frame.receiver, hpc]
  · cases hmove <;> simp_all [Event.isWrite]
  · rw [hmove.frame.receiver, hpc]

end Endpoint

/-- One side's clock fits its endpoint: calls are pending only where the loops make them, the
deadline is `idleTimeout` after the last call begun, and a pending call has not outlived it. -/
structure ConnClock.Timely {K : Type} (idleTimeout now : ℕ) (e : Endpoint K) (c : ConnClock) :
    Prop where
  reading : c.reading = true → e.sender.pc = .reading
  writing : c.writing = true → ∃ data, e.receiver.pc = .writing data
  past : ∀ b ∈ c.begun, b ≤ now
  last : 0 < idleTimeout → ∀ d, c.deadline = some d →
    (∃ b ∈ c.begun, d = b + idleTimeout) ∧ ∀ b ∈ c.begun, b + idleTimeout ≤ d
  waits : 0 < idleTimeout → c.pending = true → ∃ d, c.deadline = some d ∧ now ≤ d

namespace ConnClock.Timely

variable {K : Type} {idleTimeout now : ℕ} {e e' : Endpoint K} {c : ConnClock}

theorem start (e : Endpoint K) : Timely idleTimeout now e {} where
  reading h := by contradiction
  writing h := by contradiction
  past b hb := by contradiction
  last _ d hd := by contradiction
  waits _ h := by contradiction

/-- Time passes where no deadline is over that a call waits for. -/
theorem tick (h : Timely idleTimeout now e c) (hdue : (c.pending && c.expired now) = false) :
    Timely idleTimeout (now + 1) e c where
  reading := h.reading
  writing := h.writing
  past b hb := Nat.le_succ_of_le (h.past b hb)
  last := h.last
  waits hidle hpending := by
    obtain ⟨d, hd, hle⟩ := h.waits hidle hpending
    have hexpired : ¬ c.expired now = true := by simpa [hpending] using hdue
    have hlt : ¬ d ≤ now := fun hdle ↦ hexpired (expired_iff.mpr ⟨d, hd, hdle⟩)
    exact ⟨d, hd, by omega⟩

/-- A call is begun under a fresh deadline. -/
theorem setDeadline (h : Timely idleTimeout now e c) (reading writing : Bool)
    (hreading : reading = true → e.sender.pc = .reading)
    (hwriting : writing = true → ∃ data, e.receiver.pc = .writing data) :
    Timely idleTimeout now e
      { c.setDeadline idleTimeout now with reading := reading, writing := writing } where
  reading := hreading
  writing := hwriting
  past b hb := by
    rcases List.mem_cons.mp hb with rfl | hb
    · exact le_rfl
    · exact h.past b hb
  last hidle d hd := by
    simp only [ConnClock.setDeadline, if_pos hidle, Option.some.injEq] at hd
    subst hd
    refine ⟨⟨now, List.mem_cons_self, rfl⟩, fun b hb ↦ ?_⟩
    rcases List.mem_cons.mp hb with rfl | hb
    · exact le_rfl
    · exact Nat.add_le_add_right (h.past b hb) idleTimeout
  waits hidle _ := ⟨now + idleTimeout, if_pos hidle, Nat.le_add_right now idleTimeout⟩

/-- The endpoint takes a step, an answer of the connection among them. -/
theorem answered (h : Timely idleTimeout now e c) {ev : Event}
    (hreading : ev.isRead = false → e.sender.pc = .reading → e'.sender.pc = .reading)
    (hwriting : ∀ data, ev.isWrite = false → e.receiver.pc = .writing data →
      e'.receiver.pc = .writing data) :
    Timely idleTimeout now e' (c.answered ev) where
  reading hc := by
    obtain ⟨hc, hev⟩ := Bool.and_eq_true_iff.mp hc
    exact hreading (by simpa using hev) (h.reading hc)
  writing hc := by
    obtain ⟨hc, hev⟩ := Bool.and_eq_true_iff.mp hc
    obtain ⟨data, hdata⟩ := h.writing hc
    exact ⟨data, hwriting data (by simpa using hev) hdata⟩
  past := h.past
  last := h.last
  waits hidle hpending := h.waits hidle (pending_of_answered hpending)

end ConnClock.Timely

namespace Timed

variable {K : Type} {idleTimeout : Side → ℕ} {s t : Timed K}

/-- Both sides' clocks fit their endpoints. -/
def Timely (idleTimeout : Side → ℕ) (s : Timed K) : Prop :=
  ∀ side, (s.clock side).Timely (idleTimeout side) s.now (s.pair.endpoint side)

theorem Timely.setClock (h : Timely idleTimeout s) {side : Side} {c : ConnClock}
    (hc : c.Timely (idleTimeout side) s.now (s.pair.endpoint side)) :
    Timely idleTimeout (s.setClock side c) := by
  intro other
  by_cases hside : other = side
  · subst hside
    simpa [Timed.setClock] using hc
  · simpa [Timed.setClock, hside] using h other

variable [DecidableEq K] {libs : Libs K} {split : Split K} {canCloseWrite : Side → Bool}

theorem Timely.step (h : Timely idleTimeout s) {a : TimedAct}
    (hstep : s.step libs idleTimeout a = some t) : Timely idleTimeout t := by
  cases move_of_step hstep with
  | tick hdue => exact fun side ↦ (h side).tick (hdue side)
  | beginRead side hpc =>
    exact h.setClock ((h side).setDeadline true (s.clock side).writing (fun _ ↦ hpc)
      (h side).writing)
  | beginWrite side data hpc =>
    exact h.setClock ((h side).setDeadline (s.clock side).reading true (h side).reading
      fun _ ↦ ⟨data, hpc⟩)
  | run side ev pair hallows hpair =>
    obtain ⟨ledger, e, he, rfl⟩ := Pair.step_eq_some hpair
    intro other
    by_cases hside : other = side
    · subst hside
      have hanswered : ((s.clock other).answered ev).Timely (idleTimeout other) s.now e :=
        (h other).answered (Endpoint.reading_of_step he) fun _ ↦ Endpoint.writing_of_step he
      simpa [Timed.setClock] using hanswered
    · simpa [Timed.setClock, hside] using h other

/-- Time that passes changes nothing else. -/
theorem ticked {s t : Timed K}
    (h : (machine libs split canCloseWrite idleTimeout).ReachesVia (fun _ a ↦ a = .tick) s t) :
    t.pair = s.pair ∧ t.clock = s.clock := by
  induction h with
  | refl => exact ⟨rfl, rfl⟩
  | tail _ ha hstep ih =>
    subst ha
    have hmove : Move libs idleTimeout _ .tick _ := move_of_step hstep
    cases hmove with
    | tick _ => exact ih

end Timed

namespace Timed

end Timed

end RelayCat.Bridge
