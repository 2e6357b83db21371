import Mathlib.Data.List.Infix
import Mathlib.Data.List.ReduceOption
import Mathlib.Order.Nat

/-!
# Machines

A machine takes inputs one after the other and answers each.  If the states of
two machines stay related and related states answer alike, then so do the runs.
A machine without answers may be run under a condition on its inputs, or forever.
-/

namespace Machines

variable {σ τ ι ο : Type}

/-- The answers to a list of inputs, and the state that is left. -/
def run (step : σ → ι → ο × σ) : σ → List ι → List ο × σ
  | s, [] => ([], s)
  | s, i :: is => ((step s i).1 :: (run step (step s i).2 is).1, (run step (step s i).2 is).2)

variable {f : σ → ι → ο × σ} {g : τ → ι → ο × τ}

@[simp] theorem run_nil (s : σ) : run f s [] = ([], s) := rfl

@[simp] theorem run_cons (s : σ) (i : ι) (is : List ι) :
    run f s (i :: is) = ((f s i).1 :: (run f (f s i).2 is).1, (run f (f s i).2 is).2) := rfl

/-- What every step keeps, a run keeps. -/
theorem run_induction {P : σ → Prop} (hstep : ∀ s i, P s → P (f s i).2) {s : σ} (h : P s)
    (is : List ι) : P (run f s is).2 := by
  induction is generalizing s with
  | nil => exact h
  | cons i is ih => exact ih (hstep s i h)

/-- The simulation rule. -/
theorem run_simulates {R : σ → τ → Prop}
    (hstep : ∀ s t i, R s t → (f s i).1 = (g t i).1 ∧ R (f s i).2 (g t i).2) {s : σ} {t : τ}
    (h : R s t) (is : List ι) :
    (run f s is).1 = (run g t is).1 ∧ R (run f s is).2 (run g t is).2 := by
  induction is generalizing s t with
  | nil => exact ⟨rfl, h⟩
  | cons i is ih =>
      obtain ⟨hanswer, hrelated⟩ := hstep s t i h
      obtain ⟨hanswers, hleft⟩ := ih hrelated
      refine ⟨?_, hleft⟩
      rw [run_cons, run_cons, hanswer, hanswers]

/-! ## Purging -/

section Purge

variable {R : σ → σ → Prop} {visible : ι → Bool} {step : σ → ι → Option ο × σ}

/-- The unwinding rule: inputs that show nothing and keep the states related may be left out. -/
theorem run_purge
    (hhidden : ∀ s t i, visible i = false → R s t → (step s i).1 = none ∧ R (step s i).2 t)
    (hvisible : ∀ s t i, visible i = true → R s t →
      (step s i).1 = (step t i).1 ∧ R (step s i).2 (step t i).2) {s t : σ} (h : R s t)
    (is : List ι) :
    (run step s is).1.reduceOption = (run step t (is.filter visible)).1.reduceOption := by
  induction is generalizing s t with
  | nil => rfl
  | cons i is ih =>
      cases hi : visible i with
      | false =>
          obtain ⟨hnone, hrelated⟩ := hhidden s t i hi h
          rw [List.filter_cons_of_neg (by simp [hi]), run_cons, hnone,
            List.reduceOption_cons_of_none]
          exact ih hrelated
      | true =>
          obtain ⟨hanswer, hrelated⟩ := hvisible s t i hi h
          rw [List.filter_cons_of_pos hi, run_cons, run_cons, hanswer]
          dsimp only
          cases (step t i).1 with
          | none =>
              rw [List.reduceOption_cons_of_none, List.reduceOption_cons_of_none]
              exact ih hrelated
          | some answer =>
              rw [List.reduceOption_cons_of_some, List.reduceOption_cons_of_some, ih hrelated]

end Purge

/-! ## Runs under a condition -/

section Meets

variable {step : σ → ι → σ} {C : σ → ι → Prop}

/-- Every input of the run meets a condition on the state that it finds. -/
def Meets (step : σ → ι → σ) (C : σ → ι → Prop) : σ → List ι → Prop
  | _, [] => True
  | s, i :: is => C s i ∧ Meets step C (step s i) is

instance decidableMeets [∀ s i, Decidable (C s i)] : ∀ s is, Decidable (Meets step C s is)
  | _, [] => .isTrue trivial
  | s, i :: is =>
      have := decidableMeets (step s i) is
      inferInstanceAs (Decidable (C s i ∧ Meets step C (step s i) is))

theorem meets_append {s : σ} {is js : List ι} :
    Meets step C s (is ++ js) ↔ Meets step C s is ∧ Meets step C (is.foldl step s) js := by
  induction is generalizing s with
  | nil => exact (iff_of_eq (true_and _)).symm
  | cons i is ih => rw [List.cons_append, Meets, Meets, ih, List.foldl_cons, and_assoc]

theorem meets_iff {s : σ} {is : List ι} : Meets step C s is ↔
    ∀ before i after, is = before ++ i :: after → C (before.foldl step s) i := by
  constructor
  · rintro h before i after rfl
    exact (meets_append.mp h).2.1
  · intro h
    induction is generalizing s with
    | nil => exact trivial
    | cons i is ih =>
        refine ⟨h [] i is rfl, ih fun before j after his ↦ ?_⟩
        exact h (i :: before) j after (by rw [his, List.cons_append])

/-- Conditions that agree wherever an invariant holds. -/
theorem meets_congr_of_invariant {D : σ → ι → Prop} {P : σ → Prop}
    (hstep : ∀ s i, P s → P (step s i)) (h : ∀ s i, P s → (C s i ↔ D s i)) {s : σ} (hs : P s)
    {is : List ι} : Meets step C s is ↔ Meets step D s is := by
  induction is generalizing s with
  | nil => exact Iff.rfl
  | cons i is ih => exact and_congr (h s i hs) (ih (hstep s i hs))

/-- Conditions that agree as long as the first one has been met. -/
theorem meets_congr_of_met {D : σ → ι → Prop} {P : σ → Prop}
    (hstep : ∀ s i, P s → C s i → P (step s i)) (h : ∀ s i, P s → (C s i ↔ D s i)) {s : σ}
    (hs : P s) {is : List ι} : Meets step C s is ↔ Meets step D s is := by
  induction is generalizing s with
  | nil => exact Iff.rfl
  | cons i is ih =>
      rw [Meets, Meets, ← h s i hs]
      exact and_congr_right fun hi ↦ ih (hstep s i hs hi)

theorem meets_congr {D : σ → ι → Prop} (h : ∀ s i, C s i ↔ D s i) {s : σ} {is : List ι} :
    Meets step C s is ↔ Meets step D s is :=
  meets_congr_of_invariant (P := fun _ ↦ True) (fun _ _ _ ↦ trivial) (fun s i _ ↦ h s i) trivial

theorem meets_and {D : σ → ι → Prop} {s : σ} {is : List ι} :
    Meets step (fun s i ↦ C s i ∧ D s i) s is ↔ Meets step C s is ∧ Meets step D s is := by
  induction is generalizing s with
  | nil => exact (iff_of_eq (true_and _)).symm
  | cons i is ih => exact (and_congr_right' ih).trans and_and_and_comm

/-- What every step under the condition keeps, such a run keeps. -/
theorem Meets.induction {P : σ → Prop} (hstep : ∀ s i, C s i → P s → P (step s i)) {s : σ}
    {is : List ι} (h : Meets step C s is) (hs : P s) : P (is.foldl step s) := by
  induction is generalizing s with
  | nil => exact hs
  | cons i is ih => exact ih h.2 (hstep s i h.1 hs)

/-- What can change once only: after a change the machine is spent, and a spent
machine changes nothing. -/
theorem foldl_eq_iff_meets {γ : Type} {g : σ → γ} {S : σ → Prop}
    (hchange : ∀ s i, g (step s i) = g s ∨ S (step s i))
    (hspent : ∀ s i, S s → g (step s i) = g s ∧ S (step s i)) {s : σ} {is : List ι} :
    g (is.foldl step s) = g s ↔ Meets step (fun s i ↦ g (step s i) = g s) s is := by
  have hkept : ∀ (js : List ι) t, S t → g (js.foldl step t) = g t := by
    intro js
    induction js with
    | nil => exact fun _ _ ↦ rfl
    | cons j js ih =>
        intro t ht
        obtain ⟨hg, hstep⟩ := hspent t j ht
        exact (ih _ hstep).trans hg
  induction is generalizing s with
  | nil => exact iff_of_true rfl trivial
  | cons i is ih =>
      constructor
      · intro h
        rcases hchange s i with hg | hstep
        · exact ⟨hg, ih.mp (h.trans hg.symm)⟩
        · have hg := hkept is _ hstep
          exact ⟨hg.symm.trans h, ih.mp hg⟩
      · rintro ⟨hg, h⟩
        exact (ih.mpr h).trans hg

/-- Where steps only lower a measure, a run keeps it if and only if each step does. -/
theorem le_foldl_iff_meets {γ : Type} [Preorder γ] {g : σ → γ} (hlower : ∀ s i, g (step s i) ≤ g s)
    {s : σ} {is : List ι} :
    g s ≤ g (is.foldl step s) ↔ Meets step (fun s i ↦ g s ≤ g (step s i)) s is := by
  have hfoldl : ∀ (js : List ι) t, g (js.foldl step t) ≤ g t := by
    intro js
    induction js with
    | nil => exact fun _ ↦ le_rfl
    | cons j js ih => exact fun t ↦ (ih _).trans (hlower t j)
  induction is generalizing s with
  | nil => exact iff_of_true le_rfl trivial
  | cons i is ih =>
      constructor
      · intro h
        exact ⟨h.trans (hfoldl is _), ih.mp ((hlower s i).trans h)⟩
      · rintro ⟨hstep, h⟩
        exact hstep.trans (ih.mpr h)

/-- A property of every state of a run, from the first to the last. -/
def Throughout (step : σ → ι → σ) (P : σ → Prop) (s : σ) (is : List ι) : Prop :=
  ∀ done, done <+: is → P (done.foldl step s)

theorem throughout_nil {P : σ → Prop} {s : σ} : Throughout step P s [] ↔ P s := by
  constructor
  · exact fun h ↦ h [] (List.prefix_refl _)
  · intro h done hdone
    rwa [List.prefix_nil.mp hdone]

theorem throughout_cons {P : σ → Prop} {s : σ} {i : ι} {is : List ι} :
    Throughout step P s (i :: is) ↔ P s ∧ Throughout step P (step s i) is := by
  constructor
  · intro h
    exact ⟨h [] List.nil_prefix,
      fun done hdone ↦ h (i :: done) (List.prefix_cons_inj i |>.mpr hdone)⟩
  · rintro ⟨hs, h⟩ done hdone
    rcases List.prefix_cons_iff.mp hdone with rfl | ⟨later, rfl, hlater⟩
    · exact hs
    · exact h later hlater

/-- It holds at first and after every step. -/
theorem throughout_iff {P : σ → Prop} {s : σ} {is : List ι} :
    Throughout step P s is ↔ P s ∧ Meets step (fun s i ↦ P (step s i)) s is := by
  induction is generalizing s with
  | nil => exact throughout_nil.trans (and_iff_left trivial).symm
  | cons i is ih => rw [throughout_cons, ih, Meets]

/-- Where a step keeps the property exactly under the condition, a run has it throughout
exactly if every step meets the condition.  The invariant `I` needs inputs of the kind `D`. -/
theorem throughout_iff_meets {P I : σ → Prop} {D : ι → Prop}
    (hkeep : ∀ s i, D i → I s → I (step s i))
    (hstep : ∀ s i, D i → I s → P s → (P (step s i) ↔ C s i)) {s : σ} {is : List ι}
    (hD : ∀ i ∈ is, D i) (hI : I s) (hP : P s) :
    Throughout step P s is ↔ Meets step C s is := by
  induction is generalizing s with
  | nil => exact throughout_nil.trans (iff_of_true hP trivial)
  | cons i is ih =>
      obtain ⟨hi, his⟩ := List.forall_mem_cons.mp hD
      rw [throughout_cons, and_iff_right hP, Meets, ← hstep s i hi hI hP]
      constructor
      · intro h
        have hnext : P (step s i) := h [] List.nil_prefix
        exact ⟨hnext, (ih his (hkeep s i hi hI) hnext).mp h⟩
      · rintro ⟨hnext, h⟩
        exact (ih his (hkeep s i hi hI) hnext).mpr h

end Meets

/-! ## Infinite runs -/

section Forever

variable {step : σ → ι → σ} {inputs : ℕ → ι}

/-- The state after the first `n` inputs. -/
def after (step : σ → ι → σ) (inputs : ℕ → ι) (s : σ) : ℕ → σ
  | 0 => s
  | n + 1 => step (after step inputs s n) (inputs n)

/-- Every input comes again and again. -/
def Fair (inputs : ℕ → ι) : Prop := ∀ i n, ∃ m, n ≤ m ∧ inputs m = i

/-- What every step keeps, an infinite run keeps. -/
theorem after_induction {P : σ → Prop} (hstep : ∀ s i, P s → P (step s i)) {s : σ} {n m : ℕ}
    (hnm : n ≤ m) (h : P (after step inputs s n)) : P (after step inputs s m) := by
  induction m, hnm using Nat.le_induction with
  | base => exact h
  | succ m _ ih => exact hstep _ _ ih

/-- A machine that follows another one step by step follows its runs. -/
theorem after_map {f : τ → ι → τ} {g : τ → σ} (hstep : ∀ t i, step (g t) i = g (f t i)) (t : τ)
    (n : ℕ) : after step inputs (g t) n = g (after f inputs t n) := by
  induction n with
  | zero => rfl
  | succ n ih => rw [after, ih, hstep, after]

/-- If every step lowers the rank or changes nothing, and some input lowers it
wherever the goal is not reached, then a fair run reaches the goal. -/
theorem Fair.exists_goal (hfair : Fair inputs) {Goal : σ → Prop} (rank : σ → ℕ)
    (hstep : ∀ s i, step s i = s ∨ rank (step s i) < rank s)
    (hprogress : ∀ s, ¬ Goal s → ∃ i, rank (step s i) < rank s) (s : σ) :
    ∃ n, Goal (after step inputs s n) := by
  have hlater : ∀ k n, rank (after step inputs s n) = k → ∃ m, Goal (after step inputs s m) := by
    intro k
    induction k using Nat.strong_induction_on with
    | _ k ih =>
        rintro n rfl
        by_cases hgoal : Goal (after step inputs s n)
        · exact ⟨n, hgoal⟩
        obtain ⟨i, hi⟩ := hprogress _ hgoal
        obtain ⟨m, hnm, hm⟩ := hfair i n
        -- until that input comes, the run waits or has gone on
        have hwait : after step inputs s m = after step inputs s n ∨
            rank (after step inputs s m) < rank (after step inputs s n) := by
          clear hm
          induction m, hnm using Nat.le_induction with
          | base => exact .inl rfl
          | succ m _ ihm =>
              have hle : rank (after step inputs s m) ≤ rank (after step inputs s n) :=
                ihm.elim (fun h ↦ by rw [h]) le_of_lt
              rcases hstep (after step inputs s m) (inputs m) with heq | hlt
              · rw [after, heq]
                exact ihm
              · exact .inr (lt_of_lt_of_le hlt hle)
        rcases hwait with heq | hlt
        · refine ih _ ?_ (m + 1) rfl
          rw [after, hm, heq]
          exact hi
        · exact ih _ hlt m rfl
  exact hlater _ 0 rfl

end Forever

end Machines
