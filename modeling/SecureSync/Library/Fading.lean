import Mathlib.Data.List.Basic
import Mathlib.Order.Lattice

/-!
# Entries that fade

What is remembered of a list of instants when all that is older than some window is
forgotten, and how many of its instants lie in one window.
-/

namespace Fading

/-- Which instants are remembered at another one: fewer and fewer, the oldest forgotten
first. -/
structure Memory (T : Type) [LinearOrder T] where
  Remembers : T → T → Prop
  decidable : DecidableRel Remembers
  fade : ∀ {now later t : T}, now ≤ later → Remembers later t → Remembers now t
  newer : ∀ {now t t' : T}, t ≤ t' → Remembers now t → Remembers now t'

variable {T : Type} [LinearOrder T] (m : Memory T)

instance (now t : T) : Decidable (m.Remembers now t) := m.decidable now t

namespace Memory

variable {α : Type} (time : α → T)

def recent (now : T) (l : List α) : List α := l.filter fun a ↦ m.Remembers now (time a)

@[simp] theorem recent_nil (now : T) : m.recent time now [] = [] := rfl

theorem recent_append (now : T) (l l' : List α) :
    m.recent time now (l ++ l') = m.recent time now l ++ m.recent time now l' :=
  List.filter_append ..

theorem mem_recent {now : T} {l : List α} {a : α} :
    a ∈ m.recent time now l ↔ a ∈ l ∧ m.Remembers now (time a) := by
  rw [recent, List.mem_filter, decide_eq_true_iff]

variable {time} {now later : T} {l : List α}

/-- Forgetting twice is forgetting once. -/
theorem recent_recent (h : now ≤ later) :
    m.recent time later (m.recent time now l) = m.recent time later l := by
  rw [recent, recent, recent, List.filter_filter]
  apply List.filter_congr
  intro a _
  by_cases ha : m.Remembers later (time a)
  · simp [ha, m.fade h ha]
  · simp [ha]

theorem recent_of_forall (h : ∀ a ∈ l, m.Remembers now (time a)) : m.recent time now l = l :=
  List.filter_eq_self.mpr fun a ha ↦ decide_eq_true (h a ha)

/-- In order of time, it is enough to forget from the front. -/
theorem dropWhile_eq_recent (h : l.Pairwise fun a b ↦ time a ≤ time b) :
    l.dropWhile (fun a ↦ ¬ m.Remembers now (time a)) = m.recent time now l := by
  induction l with
  | nil => rfl
  | cons a l ih =>
      obtain ⟨ha, hl⟩ := List.pairwise_cons.mp h
      by_cases hold : m.Remembers now (time a)
      · have hall : ∀ b ∈ a :: l, m.Remembers now (time b) := by
          rw [List.forall_mem_cons]
          exact ⟨hold, fun b hb ↦ m.newer (ha b hb) hold⟩
        rw [m.recent_of_forall hall, List.dropWhile_cons_of_neg (by simpa using hold)]
      · rw [List.dropWhile_cons_of_pos (by simpa using hold), ih hl, recent, recent,
          List.filter_cons_of_neg (by simpa using hold)]

/-! ## Windows -/

/-- The instants up to `now` that are remembered at `now`. -/
def within (now : T) (l : List T) : List T := l.filter fun t ↦ m.Remembers now t ∧ t ≤ now

variable {times : List T} {bound : ℕ}

theorem within_eq_recent (h : ∀ t ∈ times, t ≤ now) :
    m.within now times = m.recent id now times := by
  apply List.filter_congr
  intro t ht
  simp [h t ht]

/-- No window holds more than `bound` of the instants. -/
def Bounded (bound : ℕ) (times : List T) : Prop := ∀ now, (m.within now times).length ≤ bound

theorem Bounded.nil : m.Bounded bound [] := fun _ ↦ Nat.zero_le _

variable {m} in
/-- An instant may be added where fewer are remembered. -/
theorem Bounded.concat (h : m.Bounded bound times)
    (hfew : (m.recent id now times).length < bound) : m.Bounded bound (times ++ [now]) := by
  intro other
  rw [within, List.filter_append, List.length_append]
  by_cases hother : now ≤ other
  · have hsub : (times.filter fun t ↦ m.Remembers other t ∧ t ≤ other).length ≤
        (m.recent id now times).length := by
      apply List.Sublist.length_le
      apply List.monotone_filter_right
      intro t ht
      rw [decide_eq_true_iff] at ht ⊢
      exact m.fade hother ht.1
    have hone := List.length_filter_le (fun t ↦ decide (m.Remembers other t ∧ t ≤ other)) [now]
    rw [List.length_singleton] at hone
    omega
  · rw [List.filter_cons_of_neg (by simp [hother])]
    exact h other

end Memory
end Fading
