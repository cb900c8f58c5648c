import Mathlib.Algebra.BigOperators.Finprod
import Mathlib.Data.List.AList
import Mathlib.Data.Set.Card

/-!
# Families of threads and finite maps

A family of threads of which one takes a step: what the others project to, how many of them
satisfy a predicate and what their weights sum to. Also the number of keys of an association
list under insertion and erasure.
-/

namespace RelayCat.Automaton

section Keys

variable {α : Type} {β : α → Type} [DecidableEq α] {s : AList β} {a : α}

theorem length_keys_insert (b : β a) (h : s.lookup a = none) :
    (s.insert a b).keys.length = s.keys.length + 1 := by
  have hnot : a ∉ s.keys := AList.lookup_eq_none.mp h
  rw [AList.keys_insert, List.length_cons, List.erase_of_not_mem hnot]

theorem length_keys_erase {b : β a} (h : s.lookup a = some b) :
    (s.erase a).keys.length + 1 = s.keys.length := by
  have hmem : a ∈ s.keys := by
    rw [← AList.mem_keys, ← AList.lookup_isSome, h]
    rfl
  rw [AList.keys_erase, List.length_erase_add_one hmem]

end Keys

section Holders

variable {ι σ : Type} [DecidableEq ι] {f : ι → σ} {i : ι} {x : σ} {P : σ → Prop}

/-- What a step does not change in the acting thread, it changes in no thread. -/
theorem proj_update {τ : Type} (g : σ → τ) (h : g x = g (f i)) (j : ι) :
    g (Function.update f i x j) = g (f j) := by
  by_cases hj : j = i
  · subst hj
    simpa using h
  · rw [Function.update_of_ne hj]

/-- What holds of a thread still does if the step keeps it whenever that thread acts. -/
theorem holds_update {j : ι} (h : P (f j)) (hx : P (f i) → j = i → P x) :
    P (Function.update f i x j) := by
  by_cases hj : j = i
  · subst hj
    simpa using hx h rfl
  · simpa [hj] using h

theorem holders_update_same (h : P x ↔ P (f i)) :
    {j | P (Function.update f i x j)} = {j | P (f j)} := by
  ext j
  by_cases hj : j = i
  · subst hj
    simpa using h
  · simp [hj]

theorem holders_update_gain (hx : P x) :
    {j | P (Function.update f i x j)} = insert i {j | P (f j)} := by
  ext j
  by_cases hj : j = i
  · subst hj
    simpa using hx
  · simp [hj]

theorem holders_update_lose (hx : ¬ P x) :
    {j | P (Function.update f i x j)} = {j | P (f j)} \ {i} := by
  ext j
  by_cases hj : j = i
  · subst hj
    simpa using hx
  · simp [hj]

/-- One more thread satisfies the predicate. -/
theorem ncard_holders_gain (hfin : {j | P (f j)}.Finite) (hi : ¬ P (f i)) (hx : P x) :
    {j | P (Function.update f i x j)}.ncard = {j | P (f j)}.ncard + 1 := by
  rw [holders_update_gain hx]
  exact Set.ncard_insert_of_notMem hi hfin

/-- One thread fewer satisfies the predicate. -/
theorem ncard_holders_lose (hfin : {j | P (f j)}.Finite) (hi : P (f i)) (hx : ¬ P x) :
    {j | P (Function.update f i x j)}.ncard + 1 = {j | P (f j)}.ncard := by
  rw [holders_update_lose hx]
  exact Set.ncard_sdiff_singleton_add_one hi hfin

/-- The number of threads that satisfy the predicate changes by the acting thread alone. -/
theorem ncard_holders_update [DecidablePred P] (hfin : {j | P (f j)}.Finite) (i : ι) (x : σ) :
    {j | P (Function.update f i x j)}.ncard + (if P (f i) then 1 else 0) =
      {j | P (f j)}.ncard + (if P x then 1 else 0) := by
  by_cases hi : P (f i)
  · by_cases hx : P x
    · rw [holders_update_same (iff_of_true hx hi), if_pos hi, if_pos hx]
    · rw [if_pos hi, if_neg hx]
      exact ncard_holders_lose hfin hi hx
  · by_cases hx : P x
    · rw [if_neg hi, if_pos hx]
      exact ncard_holders_gain hfin hi hx
    · rw [holders_update_same (iff_of_false hx hi), if_neg hi, if_neg hx]

theorem finite_holders_update (hfin : {j | P (f j)}.Finite) (i : ι) (x : σ) :
    {j | P (Function.update f i x j)}.Finite := by
  refine (hfin.insert i).subset fun j hj ↦ ?_
  by_cases hji : j = i
  · exact .inl hji
  · exact .inr (by simpa [hji] using hj)

end Holders

section Weights

variable {ι σ : Type} [DecidableEq ι] {f : ι → σ}

/-- The weights of the threads sum to the same but for the acting thread. -/
theorem finsum_update_add (w : σ → ℕ) (hfin : {j | w (f j) ≠ 0}.Finite) (i : ι) (x : σ) :
    (∑ᶠ j, w (Function.update f i x j)) + w (f i) = (∑ᶠ j, w (f j)) + w x := by
  have hnew : Function.support (fun j ↦ w (Function.update f i x j)) ⊆
      ↑(insert i hfin.toFinset) := by
    intro j hj
    by_cases hji : j = i
    · simp [hji]
    · rw [Function.mem_support, Function.update_of_ne hji] at hj
      simpa [hji] using hj
  have hold : Function.support (fun j ↦ w (f j)) ⊆ ↑(insert i hfin.toFinset) := by
    intro j hj
    simpa using Or.inr hj
  have hrest : ∑ j ∈ (insert i hfin.toFinset).erase i, w (Function.update f i x j) =
      ∑ j ∈ (insert i hfin.toFinset).erase i, w (f j) := by
    refine Finset.sum_congr rfl fun j hj ↦ ?_
    rw [Function.update_of_ne (Finset.ne_of_mem_erase hj)]
  rw [finsum_eq_sum_of_support_subset _ hnew, finsum_eq_sum_of_support_subset _ hold,
    ← Finset.sum_erase_add _ _ (Finset.mem_insert_self i _), hrest, Function.update_self,
    ← Finset.sum_erase_add _ (fun j ↦ w (f j)) (Finset.mem_insert_self i _)]
  omega

end Weights

end RelayCat.Automaton
