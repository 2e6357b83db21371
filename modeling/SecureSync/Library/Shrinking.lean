import Mathlib.Tactic.SplitIfs
import Mathlib.Tactic.ByContra
import Mathlib.Data.Nat.Notation
import Mathlib.Data.Option.Basic

/-!
# Loops that make room

`while` a state is full, take something out of it; stop early if there is
nothing to take.  The loop is given as many rounds as the state has items.
-/

namespace Shrinking

variable {σ : Type} (full : σ → Bool) (evict : σ → Option σ)

def evictWhile : ℕ → σ → σ
  | 0, s => s
  | n + 1, s =>
      if full s then
        match evict s with
        | some s' => evictWhile n s'
        | none => s
      else s

variable {full evict}

/-- The loop rule: what an eviction from a full state keeps, the loop keeps. -/
theorem evictWhile_induction_of_full {P : σ → Prop}
    (hstep : ∀ s s', full s = true → P s → evict s = some s' → P s') (n : ℕ) {s : σ} (h : P s) :
    P (evictWhile full evict n s) := by
  induction n generalizing s with
  | zero => exact h
  | succ n ih =>
      unfold evictWhile
      split_ifs with hfull
      · cases hevict : evict s with
        | none => exact h
        | some s' => exact ih (hstep s s' hfull h hevict)
      · exact h

theorem evictWhile_induction {P : σ → Prop} (hstep : ∀ s s', P s → evict s = some s' → P s') (n : ℕ)
    {s : σ} (h : P s) : P (evictWhile full evict n s) :=
  evictWhile_induction_of_full (fun s s' _ ↦ hstep s s') n h

/-- If every eviction takes something away, the rounds are never used up. -/
theorem evictWhile_done {size : σ → ℕ} (hstep : ∀ s s', evict s = some s' → size s' < size s)
    (n : ℕ) {s : σ} (h : size s ≤ n) :
    full (evictWhile full evict n s) = false ∨ evict (evictWhile full evict n s) = none := by
  induction n generalizing s with
  | zero =>
      right
      by_contra hsome
      obtain ⟨s', hs'⟩ := Option.ne_none_iff_exists'.mp hsome
      have hlt := hstep _ _ hs'
      simp only [evictWhile] at hlt
      omega
  | succ n ih =>
      unfold evictWhile
      split_ifs with hfull
      · cases hevict : evict s with
        | none => exact .inr hevict
        | some s' =>
            have hlt := hstep s s' hevict
            exact ih (by omega)
      · exact .inl (Bool.eq_false_iff.mpr hfull)

end Shrinking
