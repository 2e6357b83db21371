import Mathlib.Data.Finset.Insert
import Mathlib.Order.Interval.Finset.Defs
import Mathlib.Algebra.Order.Ring.Int

/-!
# A sliding window of counters

What a receiver of numbered messages has to remember: every number it took,
and the highest one.  A number is admitted if it is new and lies in the band of
`size` numbers on either side of the highest.
-/

namespace SlidingWindow

structure Window where
  size : ℕ
  highest : ℤ
  seen : Finset ℤ
  highest_nonneg : 0 ≤ highest
  le_highest : ∀ c ∈ seen, c ≤ highest
  highest_mem : highest = 0 ∨ highest ∈ seen

def empty (size : ℕ) : Window where
  size := size
  highest := 0
  seen := ∅
  highest_nonneg := le_rfl
  le_highest := by simp
  highest_mem := .inl rfl

variable (w : Window) (c : ℤ)

namespace Window

def Admits : Prop := 0 < c ∧ c ≤ w.highest + w.size ∧ w.highest < c + w.size ∧ c ∉ w.seen

instance : Decidable (w.Admits c) := inferInstanceAs (Decidable (_ ∧ _ ∧ _ ∧ _))

def record : Window where
  size := w.size
  highest := max w.highest c
  seen := insert c w.seen
  highest_nonneg := le_max_of_le_left w.highest_nonneg
  le_highest := by
    intro d hd
    rcases Finset.mem_insert.mp hd with rfl | hd
    · exact le_max_right _ _
    · exact le_max_of_le_left (w.le_highest d hd)
  highest_mem := by
    rcases le_total w.highest c with h | h
    · rw [max_eq_right h]
      exact .inr (Finset.mem_insert_self _ _)
    · rw [max_eq_left h]
      exact w.highest_mem.imp_right (Finset.mem_insert_of_mem ·)

@[simp] theorem record_size : (w.record c).size = w.size := rfl

@[simp] theorem record_highest : (w.record c).highest = max w.highest c := rfl

@[simp] theorem mem_record_seen {d : ℤ} : d ∈ (w.record c).seen ↔ d = c ∨ d ∈ w.seen :=
  Finset.mem_insert

variable {w c}

/-- A number above the highest is admitted unless it is too far ahead. -/
theorem admits_iff_of_highest_lt (h : w.highest < c) : w.Admits c ↔ c ≤ w.highest + w.size := by
  have hnew : c ∉ w.seen := fun hc ↦ absurd (w.le_highest c hc) (not_le.mpr h)
  have hpos := w.highest_nonneg
  constructor
  · exact fun hadmits ↦ hadmits.2.1
  · intro hle
    exact ⟨by omega, hle, by omega, hnew⟩

/-- A number above all that were seen is admitted if it is close enough to one. -/
theorem admits_iff_of_seen_lt (h : ∀ d ∈ w.seen, d < c) (hpos : 0 < c) :
    w.Admits c ↔ c ≤ w.size ∨ ∃ d ∈ w.seen, c ≤ d + w.size := by
  have hlt : w.highest < c := by
    rcases w.highest_mem with hzero | hmem
    · rwa [hzero]
    · exact h _ hmem
  have hnonneg := w.highest_nonneg
  rw [admits_iff_of_highest_lt hlt]
  constructor
  · intro hle
    rcases w.highest_mem with hzero | hmem
    · left
      rwa [hzero, zero_add] at hle
    · exact .inr ⟨_, hmem, hle⟩
  · rintro (hle | ⟨d, hd, hle⟩)
    · omega
    · have hdle := w.le_highest d hd
      omega

theorem not_admits_of_mem (h : c ∈ w.seen) : ¬ w.Admits c := fun hadmits ↦ hadmits.2.2.2 h

end Window
end SlidingWindow
