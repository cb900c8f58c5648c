import Mathlib.Logic.Basic
import Mathlib.Data.List.Basic

/-!
# Executable transition machines

A machine has one initial state and a partial step function; every source of
nondeterminism (schedules, peers, faults) is carried by the action. Runs may be
restricted to steps that meet a condition on the state before the step, which is
how a property that fails in general is proved on the runs that avoid the failure.
Invariants, restricted invariants and refinements are each packaged once.
-/

namespace RelayCat.Automaton

/-- A deterministic step function of state and action, with one initial state. -/
structure Machine (σ α : Type) where
  init : σ
  step : σ → α → Option σ

namespace Machine

variable {σ α τ β : Type} (M : Machine σ α) (N : Machine τ β)

/-- Execute a list of actions, failing at the first one that is not enabled. -/
def exec (s : σ) : List α → Option σ
  | [] => some s
  | a :: actions => (M.step s a).bind fun t ↦ exec t actions

/-- Runs in which each step meets `P` at the state it is taken from. -/
inductive ReachesVia (P : σ → α → Prop) (s : σ) : σ → Prop
  | refl : ReachesVia P s s
  | tail {t u : σ} {a : α} :
      ReachesVia P s t → P t a → M.step t a = some u → ReachesVia P s u

/-- Runs with no restriction on their steps. -/
def Reaches : σ → σ → Prop := M.ReachesVia fun _ _ ↦ True

/-- States of runs that start in the initial state. -/
def Reachable (s : σ) : Prop := M.Reaches M.init s

/-- States of restricted runs that start in the initial state. -/
def ReachableVia (P : σ → α → Prop) (s : σ) : Prop := M.ReachesVia P M.init s

variable {M N}

theorem Reaches.refl (s : σ) : M.Reaches s s := ReachesVia.refl

theorem Reaches.tail {s t u : σ} {a : α} (h : M.Reaches s t) (hstep : M.step t a = some u) :
    M.Reaches s u := ReachesVia.tail h trivial hstep

theorem Reaches.trans {s t u : σ} (hst : M.Reaches s t) (htu : M.Reaches t u) : M.Reaches s u := by
  induction htu with
  | refl => exact hst
  | tail _ _ hstep ih => exact ih.tail hstep

theorem Reachable.init : M.Reachable M.init := ReachesVia.refl

theorem Reachable.tail {s t : σ} {a : α} (h : M.Reachable s) (hstep : M.step s a = some t) :
    M.Reachable t := Reaches.tail h hstep

theorem Reachable.trans {s t : σ} (h : M.Reachable s) (hst : M.Reaches s t) : M.Reachable t :=
  Reaches.trans h hst

theorem ReachesVia.reaches {P : σ → α → Prop} {s t : σ} (h : M.ReachesVia P s t) :
    M.Reaches s t := by
  induction h with
  | refl => exact Reaches.refl s
  | tail _ _ hstep ih => exact ih.tail hstep

/-- A run may be extended at its start. -/
theorem ReachesVia.head {P : σ → α → Prop} {s t u : σ} {a : α} (hP : P s a)
    (hstep : M.step s a = some t) (h : M.ReachesVia P t u) : M.ReachesVia P s u := by
  induction h with
  | refl => exact ReachesVia.refl.tail hP hstep
  | tail _ hP ht ih => exact ih.tail hP ht

theorem ReachableVia.reachable {P : σ → α → Prop} {s : σ} (h : M.ReachableVia P s) :
    M.Reachable s := ReachesVia.reaches h

/-- Executed action lists are runs. -/
theorem reaches_of_exec {s t : σ} (actions : List α) (h : M.exec s actions = some t) :
    M.Reaches s t := by
  have hgen : ∀ r, M.Reaches r s → M.Reaches r t := by
    induction actions generalizing s with
    | nil =>
      intro r hr
      cases h
      exact hr
    | cons a actions ih =>
      intro r hr
      obtain ⟨u, hu, hrest⟩ := Option.bind_eq_some_iff.mp h
      exact ih hrest r (hr.tail hu)
  exact hgen s (Reaches.refl s)

/-- The machine that takes only the steps that meet `P`. -/
def restrict (M : Machine σ α) (P : σ → α → Prop) [∀ s a, Decidable (P s a)] : Machine σ α where
  init := M.init
  step s a := if P s a then M.step s a else none

/-- The runs of the restricted machine are the restricted runs. -/
theorem Reaches.of_restrict {P : σ → α → Prop} [∀ s a, Decidable (P s a)] {s t : σ}
    (h : (M.restrict P).Reaches s t) : M.ReachesVia P s t := by
  induction h with
  | refl => exact .refl
  | tail _ _ hstep ih =>
    obtain ⟨hP, hstep⟩ := Option.ite_none_right_eq_some.mp hstep
    exact ih.tail hP hstep

/-- What no action of a list changes, its execution does not change. -/
theorem exec_proj (f : σ → τ) {s t : σ} (actions : List α)
    (hstep : ∀ a ∈ actions, ∀ s t, M.step s a = some t → f t = f s)
    (h : M.exec s actions = some t) : f t = f s := by
  induction actions generalizing s with
  | nil =>
    cases h
    rfl
  | cons a actions ih =>
    obtain ⟨u, hu, hrest⟩ := Option.bind_eq_some_iff.mp h
    rw [ih (fun b hb ↦ hstep b (List.mem_cons_of_mem a hb)) hrest]
    exact hstep a List.mem_cons_self s u hu

/-- The outcome of an executed action list, evaluated. -/
theorem exists_of_exec {s : σ} (actions : List α) (p : σ → Prop) [DecidablePred p]
    (h : (M.exec s actions).any (fun t ↦ decide (p t)) = true) :
    ∃ t, M.exec s actions = some t ∧ p t := by
  cases hexec : M.exec s actions with
  | none => simp [hexec] at h
  | some t => exact ⟨t, rfl, by simpa [hexec] using h⟩

/-- A property of the initial state kept by every restricted step holds along restricted runs.
The step may use that its source is reachable. -/
theorem invariant_via {P : σ → α → Prop} {I : σ → Prop} (hinit : I M.init)
    (hstep : ∀ s a t, M.ReachableVia P s → I s → P s a → M.step s a = some t → I t)
    {s : σ} (h : M.ReachableVia P s) : I s := by
  induction h with
  | refl => exact hinit
  | tail hr hP ht ih => exact hstep _ _ _ hr ih hP ht

/-- The unrestricted form: an inductive invariant holds in every reachable state. -/
theorem invariant {I : σ → Prop} (hinit : I M.init)
    (hstep : ∀ s a t, M.Reachable s → I s → M.step s a = some t → I t)
    {s : σ} (h : M.Reachable s) : I s :=
  invariant_via hinit (fun s a t hr hI _ ht ↦ hstep s a t hr hI ht) h

/-- A property kept by every restricted step is kept to the end of a restricted run. -/
theorem ReachesVia.preserve {P : σ → α → Prop} {I : σ → Prop}
    (hstep : ∀ s a t, I s → P s a → M.step s a = some t → I t)
    {s t : σ} (h : M.ReachesVia P s t) (hs : I s) : I t := by
  induction h with
  | refl => exact hs
  | tail _ hP ht ih => exact hstep _ _ _ ih hP ht

/-- An invariant of the states from which a run starts is kept to its end. -/
theorem Reaches.preserve {I : σ → Prop} (hstep : ∀ s a t, I s → M.step s a = some t → I t)
    {s t : σ} (h : M.Reaches s t) (hs : I s) : I t :=
  ReachesVia.preserve (fun s a t hI _ ht ↦ hstep s a t hI ht) h hs

/-- Every reachable concrete state abstracts to a reachable abstract one when each concrete
step from a reachable state is matched by an abstract run. -/
theorem reachable_of_refines (abs : σ → τ) (hinit : abs M.init = N.init)
    (hstep : ∀ s a t, M.Reachable s → M.step s a = some t → N.Reaches (abs s) (abs t))
    {s : σ} (h : M.Reachable s) : N.Reachable (abs s) := by
  refine invariant (I := fun s ↦ N.Reachable (abs s)) ?_ ?_ h
  · rw [hinit]
    exact Reachable.init
  · intro s a t hr hs ht
    exact hs.trans (hstep s a t hr ht)

/-- A run is followed by another machine when each of its steps is, from every related state. -/
theorem Reaches.simulate {R : σ → τ → Prop}
    (hstep : ∀ s a t u, R s u → M.step s a = some t → ∃ v, N.Reaches u v ∧ R t v)
    {s t : σ} {u : τ} (h : M.Reaches s t) (hs : R s u) : ∃ v, N.Reaches u v ∧ R t v := by
  induction h with
  | refl => exact ⟨u, Reaches.refl u, hs⟩
  | tail _ _ ht ih =>
    obtain ⟨v, huv, hv⟩ := ih
    obtain ⟨w, hvw, hw⟩ := hstep _ _ _ v hv ht
    exact ⟨w, huv.trans hvw, hw⟩

/-- A goal is within reach of every reachable state, in a restricted run, when from each one that
misses it some step lowers a rank. -/
theorem exists_reachesVia_of_rank {C : σ → α → Prop} {P : σ → Prop} (rank : σ → ℕ)
    (hstep : ∀ s, M.Reachable s → ¬ P s → ∃ a t, C s a ∧ M.step s a = some t ∧ rank t < rank s)
    {s : σ} (h : M.Reachable s) : ∃ t, M.ReachesVia C s t ∧ P t := by
  induction hrank : rank s using Nat.strongRecOn generalizing s with
  | _ n ih =>
    by_cases hP : P s
    · exact ⟨s, ReachesVia.refl, hP⟩
    · obtain ⟨a, t, hC, hst, hlt⟩ := hstep s h hP
      obtain ⟨u, htu, hu⟩ := ih (rank t) (hrank ▸ hlt) (h.tail hst) rfl
      exact ⟨u, htu.head hC hst, hu⟩

theorem exists_reaches_of_rank {P : σ → Prop} (rank : σ → ℕ)
    (hstep : ∀ s, M.Reachable s → ¬ P s → ∃ a t, M.step s a = some t ∧ rank t < rank s)
    {s : σ} (h : M.Reachable s) : ∃ t, M.Reaches s t ∧ P t :=
  exists_reachesVia_of_rank rank (fun s hs hP ↦
    have ⟨a, t, hst, hlt⟩ := hstep s hs hP
    ⟨a, t, trivial, hst, hlt⟩) h

end Machine

end RelayCat.Automaton
