import RelayCat.Automaton.Machine
import Mathlib.Data.List.Infix

/-!
# The reliable half-closable stream

The abstract service of one direction of a connection: a writer appends items and may end the
stream once, a reader is given the written items in order, and may be told the end only when
it has been given all of them. Nothing is lost, reordered, duplicated or invented.
-/

namespace RelayCat.Automaton

/-- One direction of a connection. -/
structure HalfStream (α : Type) where
  sent : List α := []
  ended : Bool := false
  got : List α := []
  closed : Bool := false

namespace HalfStream

variable {α : Type}

inductive Action (α : Type) where
  | write (items : List α)
  | finish
  | deliver (items : List α)
  | close

/-- Delivery is only of what comes next; closing waits for the end and for all items. -/
def step [DecidableEq α] (s : HalfStream α) : Action α → Option (HalfStream α)
  | .write items => if s.ended then none else some { s with sent := s.sent ++ items }
  | .finish => some { s with ended := true }
  | .deliver items =>
    if s.got ++ items <+: s.sent then some { s with got := s.got ++ items } else none
  | .close => if s.ended ∧ s.got = s.sent then some { s with closed := true } else none

def machine (α : Type) [DecidableEq α] : Machine (HalfStream α) (Action α) where
  init := {}
  step := step

/-- The guarantee that a user of the stream relies on. -/
structure Safe (s : HalfStream α) : Prop where
  got : s.got <+: s.sent
  closed : s.closed = true → s.ended = true ∧ s.got = s.sent

theorem safe_step [DecidableEq α] {s t : HalfStream α} {a : Action α} (h : s.Safe)
    (hstep : s.step a = some t) : t.Safe := by
  cases a with
  | write items =>
    simp only [step] at hstep
    split_ifs at hstep with hended
    cases hstep
    refine ⟨h.got.trans (List.prefix_append _ _), fun hclosed ↦ ?_⟩
    exact absurd (h.closed hclosed).1 hended
  | finish =>
    cases hstep
    exact ⟨h.got, fun hclosed ↦ ⟨rfl, (h.closed hclosed).2⟩⟩
  | deliver items =>
    simp only [step] at hstep
    split_ifs at hstep with hnext
    cases hstep
    refine ⟨hnext, fun hclosed ↦ ?_⟩
    obtain ⟨hended, hall⟩ := h.closed hclosed
    refine ⟨hended, hnext.eq_of_length_le ?_⟩
    simp [← hall]
  | close =>
    simp only [step] at hstep
    split_ifs at hstep with hall
    cases hstep
    exact ⟨h.got, fun _ ↦ hall⟩

theorem safe_of_reachable [DecidableEq α] {s : HalfStream α} (h : (machine α).Reachable s) :
    s.Safe :=
  Machine.invariant (I := Safe) ⟨List.prefix_rfl, fun hclosed ↦ by contradiction⟩
    (fun _ _ _ _ hs hstep ↦ safe_step hs hstep) h

theorem reaches_write [DecidableEq α] {s : HalfStream α} (items : List α)
    (hended : s.ended = false) :
    (machine α).Reaches s { s with sent := s.sent ++ items } :=
  Machine.Reaches.tail (a := .write items) (Machine.Reaches.refl s) (by
    simp [machine, step, hended])

theorem reaches_finish [DecidableEq α] (s : HalfStream α) :
    (machine α).Reaches s { s with ended := true } :=
  Machine.Reaches.tail (a := .finish) (Machine.Reaches.refl s) rfl

theorem reaches_deliver [DecidableEq α] {s : HalfStream α} {items : List α}
    (hnext : s.got ++ items <+: s.sent) :
    (machine α).Reaches s { s with got := s.got ++ items } :=
  Machine.Reaches.tail (a := .deliver items) (Machine.Reaches.refl s) (by
    simp [machine, step, hnext])

theorem reaches_close [DecidableEq α] {s : HalfStream α} (hended : s.ended = true)
    (hall : s.got = s.sent) : (machine α).Reaches s { s with closed := true } :=
  Machine.Reaches.tail (a := .close) (Machine.Reaches.refl s) (by
    simp [machine, step, hended, hall])

end HalfStream

end RelayCat.Automaton
