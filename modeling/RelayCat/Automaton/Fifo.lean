import Mathlib.Data.List.Infix

/-!
# A queue that remembers what went through it

The contents of a reliable in-order channel with the items that were ever put in and taken out.
That the three agree is part of the value, so no queue loses, reorders or invents an item.
-/

namespace RelayCat.Automaton

structure Fifo (α : Type) where
  pushed : List α := []
  popped : List α := []
  queue : List α := []
  balanced : pushed = popped ++ queue := by rfl
  deriving DecidableEq

namespace Fifo

variable {α : Type}

def push (q : Fifo α) (item : α) : Fifo α where
  pushed := q.pushed ++ [item]
  popped := q.popped
  queue := q.queue ++ [item]
  balanced := by rw [q.balanced, List.append_assoc]

/-- The oldest item and the queue without it. -/
def pop (q : Fifo α) : Option (α × Fifo α) :=
  match hq : q.queue with
  | [] => none
  | item :: rest => some (item,
      { pushed := q.pushed
        popped := q.popped ++ [item]
        queue := rest
        balanced := by rw [q.balanced, hq, List.append_assoc, List.singleton_append] })

@[simp] theorem push_pushed (q : Fifo α) (item : α) : (q.push item).pushed = q.pushed ++ [item] :=
  rfl

@[simp] theorem push_popped (q : Fifo α) (item : α) : (q.push item).popped = q.popped := rfl

theorem popped_prefix_pushed (q : Fifo α) : q.popped <+: q.pushed := by
  rw [q.balanced]
  exact List.prefix_append _ _

theorem popped_eq (q : Fifo α) (h : q.queue = []) : q.popped = q.pushed := by
  rw [q.balanced, h, List.append_nil]

theorem pop_eq_some {q r : Fifo α} {item : α} (h : q.pop = some (item, r)) :
    q.queue = item :: r.queue ∧ r.pushed = q.pushed ∧ r.popped = q.popped ++ [item] := by
  unfold pop at h
  split at h
  · contradiction
  · rename_i first rest hq
    simp only [Option.some.injEq, Prod.mk.injEq] at h
    obtain ⟨rfl, rfl⟩ := h
    exact ⟨hq, rfl, rfl⟩

theorem pop_eq_none {q : Fifo α} (h : q.pop = none) : q.queue = [] := by
  unfold pop at h
  split at h
  · assumption
  · contradiction

end Fifo

end RelayCat.Automaton
