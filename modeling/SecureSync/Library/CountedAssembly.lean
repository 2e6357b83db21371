import Mathlib.Data.Finset.Card
import Mathlib.Data.List.Induction
import Mathlib.Tactic.ByContra

/-!
# Counted assembly

A value is rebuilt from items that arrive one at a time.  A buffer is opened
over the committed value, every item is applied to it and its index noted, and
the buffer becomes the committed value as soon as the number of distinct
indices reaches the total that the latest item declares.  Nothing else links
an item to the buffer it lands in.
-/

namespace CountedAssembly

open scoped List

variable {κ ι ο : Type*}

/-- One arrival: its index, the total it declares, and what it does to the
value under construction. -/
structure Item (κ ι : Type*) where
  index : ι
  total : ℕ
  apply : κ → κ

structure State (κ ι : Type*) where
  committed : Option κ
  buffer : Option (κ × Finset ι)
  commits : List (Option κ × κ)

/-- The value that the items make of `c`, in order of arrival. -/
def assemble (xs : List (Item κ ι)) (c : κ) : κ :=
  xs.foldl (fun c x ↦ x.apply c) c

@[simp] theorem assemble_append (xs ys : List (Item κ ι)) (c : κ) :
    assemble (xs ++ ys) c = assemble ys (assemble xs c) := by
  simp [assemble, List.foldl_append]

@[simp] theorem assemble_singleton (x : Item κ ι) (c : κ) : assemble [x] c = x.apply c := rfl

/-! ## Owners

Items come from several owners, each of which sends its own list.  The
assembly never learns whose item it is given. -/

inductive Event (ο κ ι : Type*) where
  | arrive (owner : ο) (x : Item κ ι)
  | discard
  | skip

def arrivals [DecidableEq ο] (owner : ο) : List (Event ο κ ι) → List (Item κ ι)
  | [] => []
  | .arrive o x :: es => if o = owner then x :: arrivals owner es else arrivals owner es
  | _ :: es => arrivals owner es

theorem arrivals_append [DecidableEq ο] (owner : ο) (es fs : List (Event ο κ ι)) :
    arrivals owner (es ++ fs) = arrivals owner es ++ arrivals owner fs := by
  induction es with
  | nil => rfl
  | cons e es ih =>
      cases e with
      | arrive o x => by_cases ho : o = owner <;> simp [arrivals, ho, ih]
      | discard => simpa [arrivals] using ih
      | skip => simpa [arrivals] using ih

def lastOwner (es : List (Event ο κ ι)) : Option ο :=
  es.foldl (fun last e ↦ match e with
    | .arrive o _ => some o
    | _ => last) none

theorem lastOwner_concat (es : List (Event ο κ ι)) (e : Event ο κ ι) :
    lastOwner (es ++ [e]) = match e with
      | .arrive o _ => some o
      | _ => lastOwner es := by
  simp [lastOwner, List.foldl_append]

/-! ## One buffer -/

variable [DecidableEq ι]

def indices (xs : List (Item κ ι)) : Finset ι :=
  (xs.map Item.index).toFinset

theorem indices_concat (xs : List (Item κ ι)) (x : Item κ ι) :
    indices (xs ++ [x]) = insert x.index (indices xs) := by
  ext i
  simp [indices]

theorem card_indices_le (xs : List (Item κ ι)) : (indices xs).card ≤ xs.length := by
  simpa [indices] using List.toFinset_card_le (xs.map Item.index)

theorem card_indices_of_nodup {xs : List (Item κ ι)} (h : (xs.map Item.index).Nodup) :
    (indices xs).card = xs.length := by
  rw [indices, List.toFinset_card_of_nodup h, List.length_map]

variable (empty : κ)

/-- The buffer an arrival lands in: a new one starts from the committed value. -/
def State.opened (s : State κ ι) : κ × Finset ι :=
  s.buffer.getD (s.committed.getD empty, ∅)

def State.Completes (s : State κ ι) (x : Item κ ι) : Prop :=
  x.total ≤ (insert x.index (s.opened empty).2).card

instance (s : State κ ι) (x : Item κ ι) : Decidable (s.Completes empty x) :=
  inferInstanceAs (Decidable (_ ≤ _))

def State.add (s : State κ ι) (x : Item κ ι) : State κ ι :=
  let value := x.apply (s.opened empty).1
  if s.Completes empty x then ⟨some value, none, s.commits ++ [(s.committed, value)]⟩
  else { s with buffer := some (value, insert x.index (s.opened empty).2) }

def State.discard (s : State κ ι) : State κ ι := { s with buffer := none }

/-- The buffer is what exactly the items `xs` made of the committed value. -/
def State.Holds (s : State κ ι) (xs : List (Item κ ι)) : Prop :=
  s.buffer =
    if xs.isEmpty then none else some (assemble xs (s.committed.getD empty), indices xs)

theorem State.holds_nil_iff (s : State κ ι) : s.Holds empty [] ↔ s.buffer = none := by
  simp [State.Holds]

variable {empty}

theorem State.Holds.opened_eq {s : State κ ι} {xs : List (Item κ ι)} (h : s.Holds empty xs) :
    s.opened empty = (assemble xs (s.committed.getD empty), indices xs) := by
  rw [State.opened, h]
  cases xs with
  | nil => rfl
  | cons x xs => simp

theorem State.Holds.completes_iff {s : State κ ι} {xs : List (Item κ ι)} (h : s.Holds empty xs)
    (x : Item κ ι) : s.Completes empty x ↔ x.total ≤ (indices (xs ++ [x])).card := by
  rw [State.Completes, h.opened_eq, indices_concat]

theorem State.Holds.add_of_completes {s : State κ ι} {xs : List (Item κ ι)}
    (h : s.Holds empty xs) {x : Item κ ι} (hx : s.Completes empty x) :
    s.add empty x =
      ⟨some (assemble (xs ++ [x]) (s.committed.getD empty)), none,
        s.commits ++ [(s.committed, assemble (xs ++ [x]) (s.committed.getD empty))]⟩ := by
  simp only [State.add, if_pos hx, h.opened_eq, assemble_append, assemble_singleton]

theorem State.Holds.add_of_not_completes {s : State κ ι} {xs : List (Item κ ι)}
    (h : s.Holds empty xs) {x : Item κ ι} (hx : ¬ s.Completes empty x) :
    (s.add empty x).committed = s.committed ∧ (s.add empty x).commits = s.commits ∧
      (s.add empty x).Holds empty (xs ++ [x]) := by
  simp only [State.add, if_neg hx, h.opened_eq, true_and]
  have hne : (xs ++ [x]).isEmpty = false := by simp
  simp only [State.Holds, hne, Bool.false_eq_true, if_false, assemble_append,
    assemble_singleton, indices_concat]

/-! ## One declared total -/

/-- How many of these arrivals end up committed when every one declares `d`
and `held` is what the buffer has noted: a commit takes in all that came
before it. -/
def committedCount (d : ℕ) : Finset ι → List ι → ℕ
  | _, [] => 0
  | held, i :: is =>
      if d ≤ (insert i held).card then committedCount d ∅ is + 1
      else
        match committedCount d (insert i held) is with
        | 0 => 0
        | n + 1 => n + 2

theorem foldl_add_committed {d : ℕ} (xs : List (Item κ ι)) (htotal : ∀ x ∈ xs, x.total = d)
    (s : State κ ι) :
    (xs.foldl (State.add empty) s).committed =
      if committedCount d (s.opened empty).2 (xs.map Item.index) = 0 then s.committed
      else some (assemble (xs.take (committedCount d (s.opened empty).2 (xs.map Item.index)))
        (s.opened empty).1) := by
  induction xs generalizing s with
  | nil => rfl
  | cons x xs ih =>
      have ih := ih fun y hy ↦ htotal y (List.mem_cons_of_mem _ hy)
      have hx : x.total = d := htotal x (by simp)
      rw [List.foldl_cons, ih, List.map_cons, committedCount]
      by_cases hfull : d ≤ (insert x.index (s.opened empty).2).card
      · have hcompletes : s.Completes empty x := by rwa [State.Completes, hx]
        have hadd : s.add empty x = ⟨some (x.apply (s.opened empty).1), none,
            s.commits ++ [(s.committed, x.apply (s.opened empty).1)]⟩ := by
          rw [State.add, if_pos hcompletes]
        have hopened : (s.add empty x).opened empty = (x.apply (s.opened empty).1, ∅) := by
          rw [hadd]
          rfl
        rw [if_pos hfull, hopened, if_neg (Nat.succ_ne_zero _), List.take_succ_cons, hadd]
        by_cases hzero : committedCount d ∅ (xs.map Item.index) = 0
        · rw [if_pos hzero, hzero, List.take_zero]
          rfl
        · rw [if_neg hzero]
          rfl
      · have hcompletes : ¬ s.Completes empty x := by rwa [State.Completes, hx]
        have hadd : s.add empty x =
            { s with buffer := some (x.apply (s.opened empty).1,
                insert x.index (s.opened empty).2) } := by
          rw [State.add, if_neg hcompletes]
        have hopened : (s.add empty x).opened empty =
            (x.apply (s.opened empty).1, insert x.index (s.opened empty).2) := by
          rw [hadd]
          rfl
        rw [if_neg hfull, hopened, hadd]
        cases committedCount d (insert x.index (s.opened empty).2) (xs.map Item.index) with
        | zero => rfl
        | succ n => rfl

/-- From an empty buffer and with distinct indices the arrivals fall into
groups of `d`: each full group is one commit, and what is left over stays in
the buffer. -/
theorem foldl_add_grouped {d : ℕ} (hd : 0 < d) {s : State κ ι} (hs : s.buffer = none)
    (xs : List (Item κ ι)) (htotal : ∀ x ∈ xs, x.total = d)
    (hnodup : (xs.map Item.index).Nodup) :
    (xs.foldl (State.add empty) s).Holds empty (xs.drop (d * (xs.length / d))) ∧
      (xs.foldl (State.add empty) s).commits.length = s.commits.length + xs.length / d := by
  induction xs using List.reverseRecOn with
  | nil => simp [State.holds_nil_iff, hs]
  | append_singleton xs x ih =>
      have hnodup' : (xs.map Item.index).Nodup := by
        rw [List.map_append] at hnodup
        exact hnodup.of_append_left
      obtain ⟨hholds, hcommits⟩ :=
        ih (fun y hy ↦ htotal y (List.mem_append_left _ hy)) hnodup'
      have hx : x.total = d := htotal x (by simp)
      rw [List.foldl_append, List.foldl_cons, List.foldl_nil]
      generalize hq : xs.length / d = q at hholds hcommits
      generalize xs.foldl (State.add empty) s = t at hholds hcommits
      have hdiv : d * q + xs.length % d = xs.length := by rw [← hq, Nat.div_add_mod]
      have hmod : xs.length % d < d := Nat.mod_lt _ hd
      have hdrop : (xs ++ [x]).drop (d * q) = xs.drop (d * q) ++ [x] :=
        List.drop_append_of_le_length (by omega)
      have hcard : (indices (xs.drop (d * q) ++ [x])).card = xs.length % d + 1 := by
        rw [card_indices_of_nodup, ← hdrop, List.length_drop, List.length_append,
          List.length_singleton]
        · omega
        · rw [← hdrop, List.map_drop]
          exact hnodup.sublist (List.drop_sublist _ _)
      have hcompletes : t.Completes empty x ↔ d ≤ xs.length % d + 1 := by
        rw [hholds.completes_iff, hx, hcard]
      by_cases hfull : d ≤ xs.length % d + 1
      · have hlen : (xs ++ [x]).length = d * (q + 1) := by
          rw [List.length_append, List.length_singleton, Nat.mul_succ]
          omega
        have hdivq : (xs ++ [x]).length / d = q + 1 := by
          rw [hlen, Nat.mul_div_cancel_left _ hd]
        rw [hholds.add_of_completes (hcompletes.mpr hfull), hdivq, ← hlen, List.drop_length,
          State.holds_nil_iff]
        refine ⟨rfl, ?_⟩
        rw [List.length_append, List.length_singleton, hcommits]
        omega
      · have hdivq : (xs ++ [x]).length / d = q := by
          have hlower : q * d ≤ xs.length + 1 := by
            rw [Nat.mul_comm]
            omega
          have hupper : xs.length + 1 < (q + 1) * d := by
            rw [Nat.succ_mul, Nat.mul_comm]
            omega
          rw [List.length_append, List.length_singleton]
          exact Nat.div_eq_of_lt_le hlower hupper
        obtain ⟨-, hsame, hheld⟩ := hholds.add_of_not_completes (mt hcompletes.mp hfull)
        rw [hdivq, hdrop, hsame]
        exact ⟨hheld, hcommits⟩

/-! ## Runs of several owners -/

def State.step (empty : κ) (s : State κ ι) : Event ο κ ι → State κ ι
  | .arrive _ x => s.add empty x
  | .discard => s.discard
  | .skip => s

def State.run (empty : κ) (s : State κ ι) (es : List (Event ο κ ι)) : State κ ι :=
  es.foldl (State.step empty) s

theorem State.run_concat (s : State κ ι) (es : List (Event ο κ ι)) (e : Event ο κ ι) :
    s.run empty (es ++ [e]) = (s.run empty es).step empty e := by
  simp [State.run, List.foldl_append]

/-- Every item declares how many items its owner sends, under distinct
indices. -/
def WholeCount (sent : List (Item κ ι)) : Prop :=
  (sent.map Item.index).Nodup ∧ ∀ x ∈ sent, x.total = sent.length

/-- An arrival meets an empty buffer, or one that its own owner filled last;
and the committed value is then as `P` wants it for that owner. -/
def State.Exclusive (empty : κ) (P : ο → Option κ → Prop) (s : State κ ι)
    (es : List (Event ο κ ι)) : Prop :=
  ∀ pre o x post, es = pre ++ .arrive o x :: post →
    ((s.run empty pre).buffer = none ∨ lastOwner pre = some o) ∧
      P o (s.run empty pre).committed

variable [DecidableEq ο] {P : ο → Option κ → Prop} {sent : ο → List (Item κ ι)}

/-- What holds after every prefix: the buffer is made of arrivals of the last
owner only, and every commit of arrivals of one owner, or of all that it sends
if it declares how many they are. -/
def State.Separated (empty : κ) (P : ο → Option κ → Prop) (sent : ο → List (Item κ ι))
    (s : State κ ι) (es : List (Event ο κ ι)) : Prop :=
  (∃ xs, (s.run empty es).Holds empty xs ∧
      (xs = [] ∨ ∃ o, lastOwner es = some o ∧ xs <+ arrivals o es)) ∧
    ∃ new, (s.run empty es).commits = s.commits ++ new ∧
      ∀ c ∈ new, ∃ o xs, xs <+~ sent o ∧ (WholeCount (sent o) → xs ~ sent o) ∧ P o c.1 ∧
        c.2 = assemble xs (c.1.getD empty)

theorem WholeCount.perm {sent xs : List (Item κ ι)} {x : Item κ ι} (h : WholeCount sent)
    (hsub : xs ++ [x] <+~ sent) (hfull : x.total ≤ (indices (xs ++ [x])).card) :
    xs ++ [x] ~ sent := by
  have htotal : x.total = sent.length := h.2 x (hsub.subset (by simp))
  exact hsub.perm_of_length_le (htotal.symm.le.trans (hfull.trans (card_indices_le _)))

theorem State.Separated.arrive {s : State κ ι} {es : List (Event ο κ ι)} {o : ο} {x : Item κ ι}
    (h : s.Separated empty P sent es)
    (howner : (s.run empty es).buffer = none ∨ lastOwner es = some o)
    (hP : P o (s.run empty es).committed) (hsub : arrivals o (es ++ [.arrive o x]) <+~ sent o) :
    s.Separated empty P sent (es ++ [.arrive o x]) := by
  obtain ⟨⟨xs, hholds, hxs⟩, new, hnew, hcommits⟩ := h
  have harr : arrivals o (es ++ [.arrive o x]) = arrivals o es ++ [x] := by
    simp [arrivals_append, arrivals]
  rw [harr] at hsub
  -- whoever filled the buffer, it holds arrivals of `o` only
  have hown : xs <+ arrivals o es := by
    rcases hxs with rfl | ⟨o', hlast, hxs⟩
    · exact List.nil_sublist _
    · rcases howner with hnone | hlast'
      · have : xs = [] := by
          by_contra hne
          rw [State.Holds, hnone] at hholds
          simp [hne] at hholds
        exact this ▸ List.nil_sublist _
      · cases hlast.symm.trans hlast'
        exact hxs
  have hsublist : xs ++ [x] <+ arrivals o es ++ [x] := hown.append_right [x]
  have hsent : xs ++ [x] <+~ sent o := hsublist.subperm.trans hsub
  rw [State.Separated, State.run_concat, lastOwner_concat]
  simp only [State.step]
  by_cases hx : (s.run empty es).Completes empty x
  · rw [hholds.add_of_completes hx]
    refine ⟨⟨[], rfl, .inl rfl⟩, new ++ [_], by rw [hnew, List.append_assoc], ?_⟩
    intro c hc
    rcases List.mem_append.mp hc with hc | hc
    · exact hcommits c hc
    · cases List.mem_singleton.mp hc
      rw [hholds.completes_iff] at hx
      exact ⟨o, xs ++ [x], hsent, fun hwhole ↦ hwhole.perm hsent hx, hP, rfl⟩
  · obtain ⟨-, hsame, hheld⟩ := hholds.add_of_not_completes hx
    exact ⟨⟨xs ++ [x], hheld, .inr ⟨o, rfl, by rwa [harr]⟩⟩, new, by rw [hsame, hnew],
      hcommits⟩

/-- As long as owners do not interleave within a buffer, every commit is made
of what one of them sends. -/
theorem State.separated_of_exclusive {s : State κ ι} (hs : s.buffer = none)
    (es : List (Event ο κ ι)) (hsub : ∀ o, arrivals o es <+~ sent o)
    (h : s.Exclusive empty P es) : s.Separated empty P sent es := by
  induction es using List.reverseRecOn with
  | nil =>
      have hnil : (s.run empty ([] : List (Event ο κ ι))).Holds empty [] :=
        (State.holds_nil_iff ..).mpr hs
      exact ⟨⟨[], hnil, .inl rfl⟩, [], by simp [State.run]⟩
  | append_singleton es e ih =>
      have hinitial (o : ο) : arrivals o es <+ arrivals o (es ++ [e]) := by
        rw [arrivals_append]
        exact List.sublist_append_left _ _
      have ih := ih (fun o ↦ (hinitial o).subperm.trans (hsub o))
        (fun pre o x post heq ↦ h pre o x (post ++ [e]) (by simp [heq]))
      cases e with
      | arrive o x =>
          obtain ⟨howner, hP⟩ := h es o x [] rfl
          exact ih.arrive howner hP (hsub o)
      | discard =>
          obtain ⟨-, hcommits⟩ := ih
          rw [State.Separated, State.run_concat]
          exact ⟨⟨[], rfl, .inl rfl⟩, hcommits⟩
      | skip =>
          obtain ⟨⟨xs, hholds, hxs⟩, hcommits⟩ := ih
          rw [State.Separated, State.run_concat, lastOwner_concat]
          have harr : ∀ o, arrivals o (es ++ [Event.skip]) = arrivals o es := by
            simp [arrivals_append, arrivals]
          exact ⟨⟨xs, hholds, by simpa only [harr] using hxs⟩, hcommits⟩

/-- Items of a single owner are never taken for those of another. -/
theorem State.exclusive_unit {s : State κ ι} (hs : s.buffer = none) (es : List (Event Unit κ ι)) :
    s.Exclusive empty (fun _ _ ↦ True) es := by
  have hlast (pre : List (Event Unit κ ι)) :
      (s.run empty pre).buffer = none ∨ lastOwner pre = some () := by
    induction pre using List.reverseRecOn with
    | nil => exact .inl hs
    | append_singleton pre e ih =>
        rw [State.run_concat, lastOwner_concat]
        cases e with
        | arrive o x => exact .inr rfl
        | discard => exact .inl rfl
        | skip => exact ih
  exact fun pre o x post _ ↦ ⟨hlast pre, trivial⟩

end CountedAssembly
