import Mathlib.Data.Finset.Card
import Mathlib.Data.List.Infix

/-!
# A clamped counter of admissions

Owners enter and leave.  A counter goes up at every entry and down at every
exit, but never below zero.  If each owner enters once at most and leaves after
that, then the clamp plays no part and the counter says how many are inside.
-/

namespace Admission

inductive Call where
  | enter
  | leave
  deriving DecidableEq, Repr

def Call.count (n : ℕ) : Call → ℕ
  | .enter => n + 1
  | .leave => n - 1

variable {ι : Type}

/-- What the counter shows after the calls. -/
def counter (log : List (ι × Call)) : ℕ := log.foldl (fun n p ↦ p.2.count n) 0

theorem counter_append (log log' : List (ι × Call)) :
    counter (log ++ log') = (log'.map Prod.snd).foldl Call.count (counter log) := by
  rw [counter, List.foldl_append, List.foldl_map]
  rfl

variable [DecidableEq ι]

def callsOf (log : List (ι × Call)) (i : ι) : List Call :=
  (log.filter fun p ↦ p.1 = i).map Prod.snd

@[simp] theorem callsOf_nil (i : ι) : callsOf [] i = [] := rfl

@[simp] theorem callsOf_append (log log' : List (ι × Call)) (i : ι) :
    callsOf (log ++ log') i = callsOf log i ++ callsOf log' i := by
  rw [callsOf, List.filter_append, List.map_append]
  rfl

@[simp] theorem callsOf_map_self (calls : List Call) (i : ι) :
    callsOf (calls.map (i, ·)) i = calls := by
  induction calls with
  | nil => rfl
  | cons call calls ih => simpa [callsOf] using ih

theorem callsOf_map_of_ne (calls : List Call) {i j : ι} (h : j ≠ i) :
    callsOf (calls.map (j, ·)) i = [] := by
  induction calls with
  | nil => rfl
  | cons call calls ih => simp [callsOf, h]

/-- Each owner enters once at most, and leaves once at most and after that. -/
def Orderly (log : List (ι × Call)) : Prop := ∀ i, callsOf log i <+: [.enter, .leave]

/-- Those who have entered and not left. -/
def inside (log : List (ι × Call)) : Finset ι :=
  (log.map Prod.fst).toFinset.filter fun i ↦ callsOf log i = [.enter]

variable {log log' : List (ι × Call)} {i : ι}

theorem mem_inside : i ∈ inside log ↔ callsOf log i = [.enter] := by
  rw [inside, Finset.mem_filter, List.mem_toFinset, and_iff_right_iff_imp]
  intro h
  have hmem : Call.enter ∈ callsOf log i := by
    rw [h]
    exact List.mem_singleton_self _
  obtain ⟨p, hp, -⟩ := List.mem_map.mp hmem
  obtain ⟨hp, hi⟩ := List.mem_filter.mp hp
  exact List.mem_map.mpr ⟨p, hp, of_decide_eq_true hi⟩

theorem Orderly.left (h : Orderly (log ++ log')) : Orderly log := by
  intro i
  have hi := h i
  rw [callsOf_append] at hi
  exact (List.prefix_append _ _).trans hi

theorem Orderly.callsOf_of_enter (h : Orderly (log ++ [(i, .enter)])) : callsOf log i = [] := by
  have hi := h i
  rw [callsOf_append, show [(i, Call.enter)] = [Call.enter].map (i, ·) from rfl,
    callsOf_map_self] at hi
  rcases hcalls : callsOf log i with _ | ⟨call, rest⟩
  · rfl
  · rw [hcalls, List.cons_append, List.cons_prefix_cons] at hi
    have hlast : Call.enter ∈ [Call.leave] := hi.2.subset (by simp)
    exact absurd hlast (by decide)

theorem Orderly.callsOf_of_leave (h : Orderly (log ++ [(i, .leave)])) :
    callsOf log i = [.enter] := by
  have hi := h i
  rw [callsOf_append, show [(i, Call.leave)] = [Call.leave].map (i, ·) from rfl,
    callsOf_map_self] at hi
  rcases hcalls : callsOf log i with _ | ⟨call, rest⟩
  · rw [hcalls, List.nil_append, List.cons_prefix_cons] at hi
    exact absurd hi.1 (by decide)
  · rw [hcalls, List.cons_append, List.cons_prefix_cons] at hi
    obtain ⟨rfl, hrest⟩ := hi
    have hlength := hrest.length_le
    rw [List.length_append, List.length_singleton] at hlength
    have hnil : rest = [] := List.length_eq_zero_iff.mp (by omega)
    rw [hnil]

theorem mem_inside_append_of_ne {call : Call} {j : ι} (h : i ≠ j) :
    j ∈ inside (log ++ [(i, call)]) ↔ j ∈ inside log := by
  rw [mem_inside, mem_inside, callsOf_append,
    show [(i, call)] = [call].map (i, ·) from rfl, callsOf_map_of_ne _ h, List.append_nil]

theorem Orderly.inside_enter (h : Orderly (log ++ [(i, .enter)])) :
    i ∉ inside log ∧ inside (log ++ [(i, .enter)]) = insert i (inside log) := by
  have hi := h.callsOf_of_enter
  refine ⟨fun hmem ↦ ?_, Finset.ext fun j ↦ ?_⟩
  · rw [mem_inside, hi] at hmem
    cases hmem
  · rw [Finset.mem_insert]
    by_cases hj : j = i
    · subst hj
      rw [mem_inside, callsOf_append, hi]
      simp [callsOf]
    · rw [mem_inside_append_of_ne (Ne.symm hj)]
      exact (or_iff_right hj).symm

theorem Orderly.inside_leave (h : Orderly (log ++ [(i, .leave)])) :
    i ∈ inside log ∧ inside (log ++ [(i, .leave)]) = (inside log).erase i := by
  have hi := h.callsOf_of_leave
  refine ⟨mem_inside.mpr hi, Finset.ext fun j ↦ ?_⟩
  rw [Finset.mem_erase]
  by_cases hj : j = i
  · subst hj
    rw [mem_inside, callsOf_append, hi]
    simp [callsOf]
  · rw [mem_inside_append_of_ne (Ne.symm hj)]
    exact (and_iff_right hj).symm

/-- The counter says how many are inside. -/
theorem Orderly.counter_eq (h : Orderly log) : counter log = (inside log).card := by
  induction log using List.reverseRecOn with
  | nil => rfl
  | append_singleton log p ih =>
      obtain ⟨i, call⟩ := p
      rw [counter_append, ih h.left]
      cases call with
      | enter =>
          obtain ⟨hout, hinside⟩ := h.inside_enter
          rw [hinside, Finset.card_insert_of_notMem hout]
          rfl
      | leave =>
          obtain ⟨hin, hinside⟩ := h.inside_leave
          rw [hinside, Finset.card_erase_of_mem hin]
          rfl

/-- Nobody leaves who has not entered, so the counter is never taken below zero. -/
theorem Orderly.of_leave {after : List (ι × Call)} (h : Orderly (log ++ (i, .leave) :: after)) :
    i ∈ inside log ∧ 0 < counter log := by
  rw [← List.singleton_append, ← List.append_assoc] at h
  have hin := h.left.inside_leave.1
  refine ⟨hin, ?_⟩
  rw [h.left.left.counter_eq]
  exact Finset.card_pos.mpr ⟨i, hin⟩

/-! ## Counting in a table -/

/-- Changing one entry changes the count by what the entry counts for, before and after. -/
theorem countP_modify {α : Type} (p : α → Bool) (f : α → α) (l : List α) (i : ℕ) :
    (l.modify i f).countP p + l[i]?.toList.countP p =
      l.countP p + (l[i]?.map f).toList.countP p := by
  induction l generalizing i with
  | nil => simp
  | cons a l ih =>
      cases i with
      | zero =>
          simp only [List.modify_zero_cons, List.countP_cons, List.getElem?_cons_zero,
            Option.map_some, Option.toList_some, List.countP_nil]
          omega
      | succ i =>
          have htail := ih i
          simp only [List.modify_succ_cons, List.countP_cons, List.getElem?_cons_succ]
          omega

end Admission
