import Mathlib.Algebra.Order.Field.Basic
import Mathlib.Tactic.Linarith
import Mathlib.Tactic.Ring

/-!
# Token buckets

A bucket that fills at a constant rate up to its capacity, and from which every admission
takes one token.  What it holds at any time is told by the admissions alone: the scarcest of
what could have come in since each of them, and at most the capacity.
-/

namespace TokenBucket

variable {K : Type} [Field K] [LinearOrder K] [IsStrictOrderedRing K]

structure Bucket (K : Type) [Field K] [LinearOrder K] where
  rate : K
  burst : K
  rate_nonneg : 0 ≤ rate

namespace Bucket

variable (b : Bucket K)

/-- What the bucket holds at `t` after admissions at these times, oldest first. -/
def level : List K → K → K
  | [], _ => b.burst
  | a :: times, t => min (b.burst + b.rate * (t - a) - (times.length + 1)) (level times t)

variable {b} {times : List K} {s t : K}

omit [IsStrictOrderedRing K] in
theorem level_le_burst (times : List K) (t : K) : b.level times t ≤ b.burst := by
  induction times with
  | nil => exact le_rfl
  | cons a times ih => exact (min_le_right _ _).trans ih

/-- Filling on from one time to a later one. -/
theorem level_later (h : s ≤ t) (htimes : ∀ a ∈ times, a ≤ s) :
    b.level times t = min b.burst (b.level times s + b.rate * (t - s)) := by
  have hfill : 0 ≤ b.rate * (t - s) := mul_nonneg b.rate_nonneg (sub_nonneg.mpr h)
  induction times with
  | nil => rw [level, level, min_eq_left (le_add_of_nonneg_right hfill)]
  | cons a times ih =>
      obtain ⟨ha, htimes⟩ := List.forall_mem_cons.mp htimes
      have hsplit : b.burst + b.rate * (t - a) - (times.length + 1) =
          b.burst + b.rate * (s - a) - (times.length + 1) + b.rate * (t - s) := by ring
      rw [level, level, ih htimes, hsplit, min_left_comm, min_add_add_right]

/-- An admission takes one token. -/
theorem level_concat (times : List K) (t : K) :
    b.level (times ++ [t]) t = b.level times t - 1 := by
  induction times with
  | nil =>
      have hone : b.burst + b.rate * (t - t) - (([] : List K).length + 1) = b.burst - 1 := by simp
      change min (b.burst + b.rate * (t - t) - (([] : List K).length + 1)) b.burst = b.burst - 1
      rw [hone, min_eq_left (sub_le_self b.burst zero_le_one)]
  | cons a times ih =>
      have hone : b.burst + b.rate * (t - a) - ((times ++ [t]).length + 1) =
          b.burst + b.rate * (t - a) - (times.length + 1) - 1 := by
        rw [List.length_append, List.length_singleton, Nat.cast_add, Nat.cast_one]
        ring
      rw [List.cons_append, level, level, ih, hone, sub_eq_add_neg, sub_eq_add_neg _ 1,
        sub_eq_add_neg _ 1, min_add_add_right]

/-- In every stretch of time no more is admitted than the capacity and what comes in. -/
theorem count_add_level_le (h : s ≤ t) :
    ((times.filter fun a ↦ s ≤ a).length : K) + b.level times t ≤ b.burst + b.rate * (t - s) := by
  have hfill : 0 ≤ b.rate * (t - s) := mul_nonneg b.rate_nonneg (sub_nonneg.mpr h)
  induction times with
  | nil => simpa [level] using hfill
  | cons a times ih =>
      by_cases ha : s ≤ a
      · have hcount : ((times.filter fun a ↦ s ≤ a).length : K) ≤ times.length :=
          Nat.cast_le.mpr (List.length_filter_le _ _)
        have hlevel : b.level (a :: times) t ≤
            b.burst + b.rate * (t - a) - (times.length + 1) := min_le_left _ _
        have hearlier : b.rate * (t - a) ≤ b.rate * (t - s) :=
          mul_le_mul_of_nonneg_left (sub_le_sub_left ha t) b.rate_nonneg
        rw [List.filter_cons_of_pos (by simpa using ha), List.length_cons, Nat.cast_add,
          Nat.cast_one]
        linarith
      · have hlevel : b.level (a :: times) t ≤ b.level times t := min_le_right _ _
        rw [List.filter_cons_of_neg (by simpa using ha)]
        linarith

end Bucket
end TokenBucket
