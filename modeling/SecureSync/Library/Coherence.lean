import Mathlib.Logic.Function.Basic

/-!
# A cache beside a store

An entry of the cache was derived from what the store held under the same key.
It stays right as long as the store changes only where nothing is cached, or
the entry is derived anew.  A key is dirty while somebody is changing what the
store holds under it, and has yet to derive the entry.
-/

namespace Coherence

variable {κ ν δ : Type}

/-- Every entry of a key that is not dirty describes what is stored under it. -/
def Coherent (describes : δ → ν → Prop) (dirty : κ → Prop) (cache : κ → Option δ)
    (store : κ → Option ν) : Prop :=
  ∀ k d, cache k = some d → ¬ dirty k → ∃ v, store k = some v ∧ describes d v

variable {describes : δ → ν → Prop} {dirty dirty' : κ → Prop} {cache : κ → Option δ}
  {store store' : κ → Option ν}

theorem coherent_empty (dirty : κ → Prop) (store : κ → Option ν) :
    Coherent describes dirty (fun _ ↦ none) store := by
  intro k d hd
  cases hd

theorem Coherent.of_store (h : Coherent describes dirty cache store)
    (hstore : ∀ k, ¬ dirty' k → cache k = none ∨ ¬ dirty k ∧ store' k = store k) :
    Coherent describes dirty' cache store' := by
  intro k d hd hclean
  rcases hstore k hclean with hnone | ⟨hbefore, hsame⟩
  · cases hnone.symm.trans hd
  · rw [hsame]
    exact h k d hd hbefore

theorem Coherent.refill [DecidableEq κ] {k : κ} {d : δ} {v : ν}
    (h : Coherent describes dirty cache store)
    (hstore : ∀ j ≠ k, ¬ dirty' j → ¬ dirty j ∧ store' j = store j) (hv : store' k = some v)
    (hd : describes d v) :
    Coherent describes dirty' (Function.update cache k (some d)) store' := by
  intro j e he hclean
  by_cases hj : j = k
  · subst hj
    rw [Function.update_self] at he
    cases he
    exact ⟨v, hv, hd⟩
  · rw [Function.update_of_ne hj] at he
    obtain ⟨hbefore, hsame⟩ := hstore j hj hclean
    rw [hsame]
    exact h j e he hbefore

end Coherence
