import Mathlib.Data.List.Nodup
import Mathlib.Order.Nat

/-!
# Multicast

Messages are published on a board and each is passed to the subscribers there are when its
delivery begins, one after the other.  Subscriptions change, and deliveries overlap.
-/

namespace Multicast

variable {ω : Type}

theorem getElem?_concat_eq_some {α : Type} {l : List α} {a b : α} {i : ℕ} :
    (l ++ [a])[i]? = some b ↔ l[i]? = some b ∨ i = l.length ∧ a = b := by
  rcases lt_trichotomy i l.length with hi | rfl | hi
  · rw [List.getElem?_append_left hi]
    simp [hi.ne]
  · simp
  · rw [List.getElem?_eq_none (by simp; omega), List.getElem?_eq_none hi.le]
    simp [hi.ne']

inductive Delivery (ω : Type) where
  | waiting
  /-- The last of the called has not returned. -/
  | passing (called rest : List ω)
  | ended (called rest : List ω)
  deriving DecidableEq, Repr

namespace Delivery

def called : Delivery ω → List ω
  | waiting => []
  | passing called _ | ended called _ => called

def rest : Delivery ω → List ω
  | waiting => []
  | passing _ rest | ended _ rest => rest

/-- The next one is called, or there is none. -/
def proceed (called : List ω) : List ω → Delivery ω
  | [] => .ended called []
  | o :: rest => .passing (called ++ [o]) rest

@[simp] theorem called_proceed (called rest : List ω) :
    (proceed called rest).called ++ (proceed called rest).rest = called ++ rest := by
  cases rest <;> simp [proceed, Delivery.called, Delivery.rest]

/-- Whom an open delivery has still to call. -/
def Awaits [DecidableEq ω] (o : ω) : Delivery ω → Bool
  | waiting => true
  | passing _ rest => o ∈ rest
  | ended _ _ => false

end Delivery

structure Board (ω : Type) where
  subscribers : List ω := []
  deliveries : List (Delivery ω) := []
  /-- Which delivery called whom. -/
  calls : List (ℕ × ω) := []

inductive Act (ω : Type) where
  | subscribe (o : ω)
  | unsubscribe (o : ω)
  | publish
  | pass (i : ℕ)
  | abandon (i : ℕ)
  deriving DecidableEq, Repr

namespace Board

variable [DecidableEq ω] (b : Board ω)

def proceed (i : ℕ) (called rest : List ω) : Board ω :=
  { b with
    deliveries := b.deliveries.set i (.proceed called rest)
    calls := b.calls ++ rest.head?.toList.map (i, ·) }

def step (b : Board ω) : Act ω → Board ω
  | .subscribe o =>
      if o ∈ b.subscribers then b else { b with subscribers := b.subscribers ++ [o] }
  | .unsubscribe o => { b with subscribers := b.subscribers.erase o }
  | .publish => { b with deliveries := b.deliveries ++ [.waiting] }
  | .pass i =>
      match b.deliveries[i]? with
      | some .waiting => b.proceed i [] b.subscribers
      | some (.passing called rest) => b.proceed i called rest
      | _ => b
  | .abandon i =>
      match b.deliveries[i]? with
      | some (.passing called rest) =>
          { b with deliveries := b.deliveries.set i (.ended called rest) }
      | _ => b

/-- How often a delivery has called somebody. -/
def times (i : ℕ) (o : ω) : ℕ := b.calls.count (i, o)

def Awaits (i : ℕ) (o : ω) : Bool := (b.deliveries[i]?).any (·.Awaits o)

/-- What is kept of every delivery. -/
structure Sound : Prop where
  nodup : b.subscribers.Nodup
  called : ∀ i d, b.deliveries[i]? = some d → (d.called ++ d.rest).Nodup ∧
    ∀ o, b.times i o = d.called.count o
  fresh : ∀ i, b.deliveries.length ≤ i → ∀ o, b.times i o = 0

variable {b}

theorem times_proceed (i : ℕ) (called rest : List ω) (j : ℕ) (o : ω) :
    (b.proceed i called rest).times j o =
      b.times j o + if j = i ∧ rest.head? = some o then 1 else 0 := by
  unfold times proceed
  dsimp only
  rw [List.count_append]
  congr 1
  cases rest with
  | nil => simp
  | cons first rest =>
      simp only [List.head?_cons, Option.toList_some, List.map_cons, List.map_nil,
        List.count_singleton, beq_iff_eq, Prod.mk.injEq, Option.some.injEq]
      by_cases hj : j = i
      · simp [hj, eq_comm]
      · simp [hj, Ne.symm hj]

omit [DecidableEq ω] in
theorem getElem?_proceed {i j : ℕ} {called rest : List ω} (hi : i < b.deliveries.length) :
    (b.proceed i called rest).deliveries[j]? =
      if j = i then some (.proceed called rest) else b.deliveries[j]? := by
  unfold proceed
  dsimp only
  rw [List.getElem?_set]
  by_cases hj : j = i
  · subst hj
    simp [hi]
  · simp [hj, Ne.symm hj]

/-- A delivery goes on: the rest is called in order, and nobody twice. -/
theorem Sound.proceed (h : b.Sound) {i : ℕ} {d : Delivery ω} {called rest : List ω}
    (hd : b.deliveries[i]? = some d) (hnodup : (called ++ rest).Nodup)
    (hcalled : d.called = called) : (b.proceed i called rest).Sound := by
  have hi : i < b.deliveries.length := (List.getElem?_eq_some_iff.mp hd).1
  refine ⟨h.nodup, fun j d' hd' ↦ ?_, fun j hj o ↦ ?_⟩
  · rw [getElem?_proceed hi] at hd'
    by_cases hji : j = i
    · subst hji
      rw [if_pos rfl, Option.some.injEq] at hd'
      subst hd'
      refine ⟨by rwa [Delivery.called_proceed], fun o ↦ ?_⟩
      rw [times_proceed, (h.called j d hd).2 o, hcalled]
      cases rest with
      | nil => simp [Delivery.proceed, Delivery.called]
      | cons first rest =>
          simp only [Delivery.proceed, Delivery.called, List.count_append, List.count_singleton,
            List.head?_cons, Option.some.injEq, true_and, beq_iff_eq]
    · rw [if_neg hji] at hd'
      obtain ⟨hnodup', htimes⟩ := h.called j d' hd'
      refine ⟨hnodup', fun o ↦ ?_⟩
      rw [times_proceed, if_neg fun hjo ↦ hji hjo.1, htimes o, Nat.add_zero]
  · have hlength : (b.proceed i called rest).deliveries.length = b.deliveries.length :=
      List.length_set
    rw [hlength] at hj
    rw [times_proceed, h.fresh j hj o, if_neg fun hjo ↦ absurd hjo.1 (by omega)]

theorem Sound.step (h : b.Sound) (act : Act ω) : (b.step act).Sound := by
  cases act with
  | subscribe o =>
      simp only [Board.step]
      split_ifs with ho
      · exact h
      · refine ⟨?_, h.called, h.fresh⟩
        rw [← List.concat_eq_append]
        exact h.nodup.concat ho
  | unsubscribe o => exact ⟨h.nodup.erase o, h.called, h.fresh⟩
  | publish =>
      refine ⟨h.nodup, fun i d hd ↦ ?_, fun i hi o ↦ ?_⟩
      · simp only [Board.step] at hd
        rcases getElem?_concat_eq_some.mp hd with hd | ⟨rfl, rfl⟩
        · exact h.called i d hd
        · exact ⟨List.nodup_nil, fun o ↦ h.fresh _ le_rfl o⟩
      · simp only [Board.step, List.length_append, List.length_singleton] at hi
        exact h.fresh i (by omega) o
  | pass i =>
      simp only [Board.step]
      split
      · rename_i hd
        exact h.proceed hd h.nodup rfl
      · rename_i called rest hd
        exact h.proceed hd (h.called i _ hd).1 rfl
      · exact h
  | abandon i =>
      simp only [Board.step]
      split
      · rename_i called rest hd
        refine ⟨h.nodup, fun j d hd' ↦ ?_, fun j hj o ↦ ?_⟩
        · dsimp only at hd'
          rw [List.getElem?_set] at hd'
          split_ifs at hd' with hij
          · subst hij
            obtain rfl := Option.some.inj hd'
            exact h.called i (.passing called rest) hd
          · exact h.called j d hd'
        · dsimp only at hj
          rw [List.length_set] at hj
          exact h.fresh j hj o
      · exact h

theorem sound_empty : (⟨[], [], []⟩ : Board ω).Sound :=
  ⟨List.nodup_nil, fun i d hd ↦ absurd hd (by simp), fun _ _ _ ↦ List.count_nil⟩

theorem Sound.run (h : b.Sound) (acts : List (Act ω)) : (acts.foldl Board.step b).Sound := by
  induction acts generalizing b with
  | nil => exact h
  | cons act acts ih => exact ih (h.step act)

/-! ## Nothing is lost and nothing is passed twice -/

theorem length_step_le (act : Act ω) : b.deliveries.length ≤ (b.step act).deliveries.length := by
  cases act with
  | subscribe o =>
      simp only [Board.step]
      split_ifs <;> exact le_rfl
  | unsubscribe o => exact le_rfl
  | publish => simp [Board.step]
  | pass i =>
      simp only [Board.step]
      split <;> simp [Board.proceed]
  | abandon i =>
      simp only [Board.step]
      split <;> simp

theorem mem_subscribers_step {o : ω} {act : Act ω} (ho : o ∈ b.subscribers)
    (hact : act ≠ .unsubscribe o) : o ∈ (b.step act).subscribers := by
  cases act with
  | subscribe o' =>
      simp only [Board.step]
      split_ifs
      · exact ho
      · exact List.mem_append_left _ ho
  | unsubscribe o' =>
      have hne : o ≠ o' := fun hoo ↦ hact (congrArg Act.unsubscribe hoo.symm)
      exact (List.mem_erase_of_ne hne).mpr ho
  | publish => exact ho
  | pass i =>
      simp only [Board.step]
      split <;> exact ho
  | abandon i =>
      simp only [Board.step]
      split <;> exact ho

/-- Calls made and calls to come. -/
def tally (b : Board ω) (i : ℕ) (o : ω) : ℕ := b.times i o + if b.Awaits i o then 1 else 0

theorem awaits_of_getElem? {i : ℕ} {d : Delivery ω}
    (hd : b.deliveries[i]? = some d) (o : ω) : b.Awaits i o = d.Awaits o := by
  rw [Awaits, hd, Option.any_some]

/-- A call that is made is one less to come. -/
theorem tally_proceed {i : ℕ} {d : Delivery ω} {called rest : List ω} {o : ω}
    (hd : b.deliveries[i]? = some d) (hrest : rest.Nodup) (hawaits : d.Awaits o = decide (o ∈ rest))
    (j : ℕ) : (b.proceed i called rest).tally j o = b.tally j o := by
  have hi : i < b.deliveries.length := (List.getElem?_eq_some_iff.mp hd).1
  unfold tally
  rw [times_proceed]
  by_cases hj : j = i
  · subst hj
    rw [awaits_of_getElem? hd, hawaits, Awaits, getElem?_proceed hi, if_pos rfl, Option.any_some]
    cases rest with
    | nil => simp [Delivery.proceed, Delivery.Awaits]
    | cons first rest =>
        have hfirst : first ∉ rest := (List.nodup_cons.mp hrest).1
        simp only [Delivery.proceed, Delivery.Awaits, List.head?_cons, Option.some.injEq, true_and,
          List.mem_cons, decide_eq_true_eq]
        by_cases ho : first = o
        · subst ho
          simp [hfirst]
        · simp [ho, Ne.symm ho]
  · rw [if_neg fun hjo ↦ hj hjo.1, Awaits, getElem?_proceed hi, if_neg hj, Nat.add_zero]
    rfl

/-- As long as somebody stays subscribed, a step leaves the tally of a delivery that it does
not abandon; a new one has a call to come. -/
theorem tally_step (h : b.Sound) {o : ω} (ho : o ∈ b.subscribers) {act : Act ω} {i : ℕ}
    (hunsubscribe : act ≠ .unsubscribe o) (habandon : act ≠ .abandon i)
    (hi : i < (b.step act).deliveries.length) :
    (b.step act).tally i o = if i < b.deliveries.length then b.tally i o else 1 := by
  cases act with
  | subscribe o' =>
      have hsame : (b.step (.subscribe o')).tally i o = b.tally i o ∧
          (b.step (.subscribe o')).deliveries = b.deliveries := by
        simp only [Board.step]
        split_ifs <;> exact ⟨rfl, rfl⟩
      rw [hsame.2] at hi
      rw [hsame.1, if_pos hi]
  | unsubscribe o' => exact (if_pos hi).symm
  | publish =>
      simp only [Board.step, List.length_append, List.length_singleton] at hi
      by_cases hlt : i < b.deliveries.length
      · have hget : (b.deliveries ++ [.waiting])[i]? = b.deliveries[i]? :=
          List.getElem?_append_left hlt
        rw [if_pos hlt, tally, tally, Awaits, Awaits]
        simp only [Board.step, hget]
        rfl
      · obtain rfl : i = b.deliveries.length := by omega
        have htimes : (b.step .publish).times b.deliveries.length o = 0 := h.fresh _ le_rfl o
        have hget : (b.step .publish).deliveries[b.deliveries.length]? = some .waiting :=
          List.getElem?_concat_length
        rw [if_neg hlt, tally, htimes, awaits_of_getElem? hget]
        rfl
  | pass j =>
      have hlength : i < b.deliveries.length := by
        simp only [Board.step] at hi
        split at hi <;> simpa [Board.proceed] using hi
      rw [if_pos hlength]
      simp only [Board.step]
      split
      · rename_i hd
        exact tally_proceed hd h.nodup (by simp [Delivery.Awaits, ho]) i
      · rename_i called rest hd
        have hrest : rest.Nodup := (h.called j _ hd).1.of_append_right
        exact tally_proceed hd hrest rfl i
      · rfl
  | abandon j =>
      have hji : j ≠ i := fun hji ↦ habandon (hji ▸ rfl)
      simp only [Board.step] at hi ⊢
      split
      · rename_i called rest hd
        have hlength : i < b.deliveries.length := by
          rw [hd] at hi
          simpa using hi
        rw [if_pos hlength, tally, tally, Awaits, Awaits]
        dsimp only
        rw [List.getElem?_set_ne hji]
        rfl
      · rename_i hnone
        have hlength : i < b.deliveries.length := by
          split at hi
          · rename_i called rest hd
            exact absurd hd (hnone called rest)
          · exact hi
        exact (if_pos hlength).symm

/-- Over a run in which somebody stays subscribed, every delivery that is not abandoned makes
exactly the calls to them that were still to come. -/
theorem tally_run {o : ω} {i : ℕ} {acts : List (Act ω)} (hunsubscribe : .unsubscribe o ∉ acts)
    (habandon : .abandon i ∉ acts) (h : b.Sound) (ho : o ∈ b.subscribers)
    (hi : i < (acts.foldl Board.step b).deliveries.length) :
    (acts.foldl Board.step b).tally i o =
      if i < b.deliveries.length then b.tally i o else 1 := by
  induction acts generalizing b with
  | nil => exact (if_pos hi).symm
  | cons act acts ih =>
      obtain ⟨hact, hacts⟩ := not_or.mp (List.mem_cons.not.mp hunsubscribe)
      obtain ⟨hact', hacts'⟩ := not_or.mp (List.mem_cons.not.mp habandon)
      have hstep := ih hacts hacts' (h.step act) (mem_subscribers_step ho (Ne.symm hact)) hi
      rw [List.foldl_cons, hstep]
      have hle := length_step_le (b := b) act
      by_cases hlt : i < (b.step act).deliveries.length
      · rw [if_pos hlt, tally_step h ho (Ne.symm hact) (Ne.symm hact') hlt]
      · rw [if_neg hlt, if_neg (by omega)]

end Board
end Multicast
