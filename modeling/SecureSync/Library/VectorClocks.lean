import Mathlib.Data.Finset.Card
import Mathlib.Data.Finset.Union
import Mathlib.Logic.Function.Basic
import Mathlib.Order.Lattice

/-!
# Vector clocks

Replicas edit a document and receive versions of each other.  Every version is
stamped by counters, one for each replica; beside it stands the set of edits that
went into it, as positions in the whole history.  The counters say exactly which
edits a version knows.
-/

namespace VectorClock

variable {ι α β : Type}

/-- How versions are stamped. -/
structure Stamps (ι α : Type) where
  initial : α
  edit : α → ι → α
  merge : α → α → α

/-- Counters, one for each replica. -/
def counters (ι : Type) [DecidableEq ι] : Stamps ι (ι → ℕ) where
  initial _ := 0
  edit c i := Function.update c i (c i + 1)
  merge c c' i := max (c i) (c' i)

/-- A stamp with the edits behind it. -/
structure Version (α : Type) where
  stamp : α
  known : Finset ℕ

/-- A replica edits its version, or receives a version that was current somewhere at
some time, however late and however often. -/
inductive Turn (ι : Type) where
  | edit (i : ι)
  | receive (i : ι) (k : ℕ)

/-- The version that each replica holds, all versions so far, and who made the edits. -/
structure World (ι α : Type) where
  held : ι → Version α
  versions : List (Version α)
  edits : List ι

namespace Stamps

variable [DecidableEq ι] (stamps : Stamps ι α)

def start : World ι α where
  held _ := ⟨stamps.initial, ∅⟩
  versions := [⟨stamps.initial, ∅⟩]
  edits := []

/-- A replica has a new version. -/
def hold (w : World ι α) (i : ι) (version : Version α) (edits : List ι) : World ι α where
  held := Function.update w.held i version
  versions := w.versions ++ [version]
  edits := edits

def step (w : World ι α) : Turn ι → World ι α
  | .edit i =>
      hold w i ⟨stamps.edit (w.held i).stamp i, insert w.edits.length (w.held i).known⟩
        (w.edits ++ [i])
  | .receive i k =>
      match w.versions[k]? with
      | none => w
      | some received =>
          hold w i ⟨stamps.merge (w.held i).stamp received.stamp,
            (w.held i).known ∪ received.known⟩ w.edits

def run (turns : List (Turn ι)) : World ι α := turns.foldl stamps.step stamps.start

end Stamps

/-! ## Other ways to write a stamp -/

def Version.map (f : α → β) (version : Version α) : Version β :=
  ⟨f version.stamp, version.known⟩

def World.map (f : α → β) (w : World ι α) : World ι β where
  held i := (w.held i).map f
  versions := w.versions.map (Version.map f)
  edits := w.edits

/-- `f` respects what is done with stamps. -/
structure Respects (stamps : Stamps ι α) (stamps' : Stamps ι β) (f : α → β) : Prop where
  initial : f stamps.initial = stamps'.initial
  edit : ∀ a i, f (stamps.edit a i) = stamps'.edit (f a) i
  merge : ∀ a b, f (stamps.merge a b) = stamps'.merge (f a) (f b)

section Respects

variable [DecidableEq ι] {stamps : Stamps ι α} {stamps' : Stamps ι β} {f : α → β}

theorem map_hold (w : World ι α) (i : ι) (version : Version α) (edits : List ι) :
    (Stamps.hold w i version edits).map f = Stamps.hold (w.map f) i (version.map f) edits := by
  simp only [World.map, Stamps.hold, List.map_append, List.map_singleton, World.mk.injEq, and_true]
  funext j
  by_cases hj : j = i
  · subst hj
    rw [Function.update_self, Function.update_self]
  · rw [Function.update_of_ne hj, Function.update_of_ne hj]

theorem Respects.map_step (h : Respects stamps stamps' f) (w : World ι α) (turn : Turn ι) :
    (stamps.step w turn).map f = stamps'.step (w.map f) turn := by
  cases turn with
  | edit i =>
      simp only [Stamps.step, map_hold]
      simp only [Version.map, World.map, h.edit]
  | receive i k =>
      simp only [Stamps.step]
      cases hk : w.versions[k]? with
      | none => simp [World.map, hk]
      | some received =>
          have hk' : (w.map f).versions[k]? = some (received.map f) := by
            simp [World.map, hk]
          simp only [hk', map_hold]
          simp only [Version.map, World.map, h.merge]

theorem Respects.map_run (h : Respects stamps stamps' f) (turns : List (Turn ι)) :
    (stamps.run turns).map f = stamps'.run turns := by
  induction turns using List.reverseRecOn with
  | nil => simp [Stamps.run, Stamps.start, World.map, Version.map, h.initial]
  | append_singleton turns turn ih =>
      rw [Stamps.run, List.foldl_append, List.foldl_cons, List.foldl_nil, h.map_step]
      rw [Stamps.run] at ih
      rw [ih, Stamps.run, Stamps.run, List.foldl_append]
      rfl

end Respects

/-! ## What counters know -/

/-- The edits of one replica among those that are known. -/
def madeBy [DecidableEq ι] (edits : List ι) (known : Finset ℕ) (i : ι) : Finset ℕ :=
  known.filter fun n ↦ edits[n]? = some i

/-- With an edit, all earlier ones of the same replica are known. -/
def Closed (edits : List ι) (known : Finset ℕ) : Prop :=
  ∀ n ∈ known, ∀ m < n, ∀ i, edits[n]? = some i → edits[m]? = some i → m ∈ known

variable [DecidableEq ι] {edits : List ι} {known known' : Finset ℕ} {i : ι}

theorem mem_madeBy {n : ℕ} : n ∈ madeBy edits known i ↔ n ∈ known ∧ edits[n]? = some i :=
  Finset.mem_filter

/-- What two versions know of one replica is comparable. -/
theorem Closed.madeBy_total (h : Closed edits known) (h' : Closed edits known') (i : ι) :
    madeBy edits known i ⊆ madeBy edits known' i ∨
      madeBy edits known' i ⊆ madeBy edits known i := by
  by_contra hnot
  obtain ⟨hleft, hright⟩ := not_or.mp hnot
  obtain ⟨n, hn, hn'⟩ := Finset.not_subset.mp hleft
  obtain ⟨m, hm, hm'⟩ := Finset.not_subset.mp hright
  obtain ⟨hnknown, hni⟩ := mem_madeBy.mp hn
  obtain ⟨hmknown, hmi⟩ := mem_madeBy.mp hm
  rcases Nat.lt_trichotomy m n with hlt | rfl | hlt
  · exact hm' (mem_madeBy.mpr ⟨h n hnknown m hlt i hni hmi, hmi⟩)
  · exact hm' hn
  · exact hn' (mem_madeBy.mpr ⟨h' m hmknown n hlt i hmi hni, hni⟩)

omit [DecidableEq ι] in
theorem Closed.union (h : Closed edits known) (h' : Closed edits known') :
    Closed edits (known ∪ known') := by
  intro n hn m hm j hj hj'
  rcases Finset.mem_union.mp hn with hn | hn
  · exact Finset.mem_union_left _ (h n hn m hm j hj hj')
  · exact Finset.mem_union_right _ (h' n hn m hm j hj hj')

theorem madeBy_union (i : ι) :
    madeBy edits (known ∪ known') i = madeBy edits known i ∪ madeBy edits known' i :=
  Finset.filter_union _ _ _

theorem Closed.card_union (h : Closed edits known) (h' : Closed edits known') (i : ι) :
    (madeBy edits (known ∪ known') i).card =
      max (madeBy edits known i).card (madeBy edits known' i).card := by
  rw [madeBy_union]
  rcases h.madeBy_total h' i with hsub | hsub
  · rw [Finset.union_eq_right.mpr hsub, max_eq_right (Finset.card_le_card hsub)]
  · rw [Finset.union_eq_left.mpr hsub, max_eq_left (Finset.card_le_card hsub)]

/-- The stamp counts the edits, which are complete up to the last of each replica. -/
structure Exact (edits : List ι) (version : Version (ι → ℕ)) : Prop where
  closed : Closed edits version.known
  made : ∀ n ∈ version.known, n < edits.length
  counts : ∀ i, version.stamp i = (madeBy edits version.known i).card

theorem Exact.known_subset {version version' : Version (ι → ℕ)} (h : Exact edits version)
    (h' : Exact edits version') :
    version.stamp ≤ version'.stamp ↔ version.known ⊆ version'.known := by
  constructor
  · intro hle n hn
    obtain ⟨i, hi⟩ : ∃ i, edits[n]? = some i := ⟨_, List.getElem?_eq_getElem (h.made n hn)⟩
    have hmem : n ∈ madeBy edits version.known i := mem_madeBy.mpr ⟨hn, hi⟩
    have hcard := hle i
    rw [h.counts, h'.counts] at hcard
    rcases h.closed.madeBy_total h'.closed i with hsub | hsub
    · exact (mem_madeBy.mp (hsub hmem)).1
    · rw [← Finset.eq_of_subset_of_card_le hsub hcard] at hmem
      exact (mem_madeBy.mp hmem).1
  · intro hsub j
    rw [h.counts, h'.counts]
    exact Finset.card_le_card (Finset.filter_subset_filter _ hsub)

theorem Exact.initial (edits : List ι) : Exact edits ⟨(counters ι).initial, ∅⟩ :=
  ⟨by simp [Closed], by simp, by simp [counters, madeBy]⟩

theorem Exact.merge {version version' : Version (ι → ℕ)} (h : Exact edits version)
    (h' : Exact edits version') :
    Exact edits ⟨(counters ι).merge version.stamp version'.stamp,
      version.known ∪ version'.known⟩ where
  closed := h.closed.union h'.closed
  made n hn := (Finset.mem_union.mp hn).elim (h.made n) (h'.made n)
  counts i := by
    rw [h.closed.card_union h'.closed, ← h.counts, ← h'.counts]
    rfl

omit [DecidableEq ι] in
theorem getElem?_append_singleton {n : ℕ} (hn : n < edits.length) (j : ι) :
    (edits ++ [j])[n]? = edits[n]? := List.getElem?_append_left hn

theorem madeBy_append {version : Version (ι → ℕ)} (h : Exact edits version) (i j : ι) :
    madeBy (edits ++ [j]) version.known i = madeBy edits version.known i := by
  apply Finset.filter_congr
  intro n hn
  rw [getElem?_append_singleton (h.made n hn)]

/-- A later edit changes nothing about a version. -/
theorem Exact.later {version : Version (ι → ℕ)} (h : Exact edits version) (j : ι) :
    Exact (edits ++ [j]) version where
  closed n hn m hm i hi hi' := by
    have hn' := h.made n hn
    rw [getElem?_append_singleton hn'] at hi
    rw [getElem?_append_singleton (hm.trans hn')] at hi'
    exact h.closed n hn m hm i hi hi'
  made n hn := by
    rw [List.length_append]
    exact Nat.lt_add_right 1 (h.made n hn)
  counts i := by rw [madeBy_append h, h.counts]

/-- A replica that knows all its own edits makes another one. -/
theorem Exact.edit {version : Version (ι → ℕ)} (h : Exact edits version) {i : ι}
    (hown : ∀ n, edits[n]? = some i → n ∈ version.known) :
    Exact (edits ++ [i])
      ⟨(counters ι).edit version.stamp i, insert edits.length version.known⟩ where
  closed n hn m hm j hj hj' := by
    rcases Finset.mem_insert.mp hn with rfl | hn
    · rw [List.getElem?_concat_length] at hj
      obtain rfl := Option.some.inj hj
      rw [getElem?_append_singleton hm] at hj'
      exact Finset.mem_insert_of_mem (hown m hj')
    · exact Finset.mem_insert_of_mem ((h.later i).closed n hn m hm j hj hj')
  made n hn := by
    rw [List.length_append, List.length_singleton]
    rcases Finset.mem_insert.mp hn with rfl | hn
    · exact Nat.lt_succ_self _
    · exact Nat.lt_succ_of_lt (h.made n hn)
  counts j := by
    have hlast : (edits ++ [i])[edits.length]? = some i := List.getElem?_concat_length
    have hnew : edits.length ∉ madeBy (edits ++ [i]) version.known j := fun hmem ↦
      Nat.lt_irrefl _ (h.made _ (mem_madeBy.mp hmem).1)
    rw [madeBy, Finset.filter_insert, ← madeBy, hlast]
    simp only [counters]
    by_cases hj : j = i
    · subst hj
      rw [if_pos rfl, Function.update_self, Finset.card_insert_of_notMem hnew,
        madeBy_append h j j, h.counts]
    · rw [if_neg fun heq ↦ hj (Option.some.inj heq).symm, Function.update_of_ne hj,
        madeBy_append h j i, h.counts]

/-- Every version is exact, and every replica knows its own edits. -/
structure Causal (w : World ι (ι → ℕ)) : Prop where
  versions : ∀ version ∈ w.versions, Exact w.edits version
  held : ∀ i, w.held i ∈ w.versions
  own : ∀ i n, w.edits[n]? = some i → n ∈ (w.held i).known

theorem Causal.hold {w : World ι (ι → ℕ)} {edits : List ι} {version : Version (ι → ℕ)} {i : ι}
    (h : Causal w) (hold : ∀ version' ∈ w.versions, Exact edits version')
    (hnew : Exact edits version)
    (hown : ∀ n, edits[n]? = some i → n ∈ version.known)
    (hothers : ∀ (j : ι) (n : ℕ), j ≠ i → edits[n]? = some j → w.edits[n]? = some j) :
    Causal (Stamps.hold w i version edits) where
  versions version' hmem := by
    rcases List.mem_append.mp hmem with hmem | hmem
    · exact hold version' hmem
    · rw [List.mem_singleton.mp hmem]
      exact hnew
  held j := by
    simp only [Stamps.hold]
    by_cases hj : j = i
    · subst hj
      rw [Function.update_self]
      exact List.mem_append_right _ (List.mem_singleton_self _)
    · rw [Function.update_of_ne hj]
      exact List.mem_append_left _ (h.held j)
  own j n hn := by
    simp only [Stamps.hold] at hn ⊢
    by_cases hj : j = i
    · subst hj
      rw [Function.update_self]
      exact hown n hn
    · rw [Function.update_of_ne hj]
      exact h.own j n (hothers j n hj hn)

theorem Causal.step {w : World ι (ι → ℕ)} (h : Causal w) (turn : Turn ι) :
    Causal ((counters ι).step w turn) := by
  cases turn with
  | edit i =>
      refine h.hold (fun version hmem ↦ (h.versions version hmem).later i)
        ((h.versions _ (h.held i)).edit (h.own i)) (fun n hn ↦ ?_) fun j n hj hn ↦ ?_
      · rcases Nat.lt_or_ge n w.edits.length with hlt | hge
        · rw [getElem?_append_singleton hlt] at hn
          exact Finset.mem_insert_of_mem (h.own i n hn)
        · have hlt := (List.getElem?_eq_some_iff.mp hn).1
          rw [List.length_append, List.length_singleton] at hlt
          rw [Nat.le_antisymm (Nat.le_of_lt_succ hlt) hge]
          exact Finset.mem_insert_self _ _
      · rcases Nat.lt_or_ge n w.edits.length with hlt | hge
        · rwa [getElem?_append_singleton hlt] at hn
        · have hlt := (List.getElem?_eq_some_iff.mp hn).1
          rw [List.length_append, List.length_singleton] at hlt
          obtain rfl := Nat.le_antisymm (Nat.le_of_lt_succ hlt) hge
          rw [List.getElem?_concat_length] at hn
          exact absurd (Option.some.inj hn).symm hj
  | receive i k =>
      simp only [Stamps.step]
      split
      case h_1 => exact h
      case h_2 received hk =>
        have hreceived := h.versions received (List.mem_of_getElem? hk)
        refine h.hold h.versions ((h.versions _ (h.held i)).merge hreceived) (fun n hn ↦ ?_)
          fun j n _ hn ↦ hn
        exact Finset.mem_union_left _ (h.own i n hn)

theorem causal_run (turns : List (Turn ι)) : Causal ((counters ι).run turns) := by
  induction turns using List.reverseRecOn with
  | nil =>
      refine ⟨fun version hmem ↦ ?_, fun i ↦ List.mem_singleton_self _, fun i n hn ↦ ?_⟩
      · rw [List.mem_singleton.mp hmem]
        exact .initial _
      · cases hn
  | append_singleton turns turn ih =>
      rw [Stamps.run, List.foldl_append]
      exact ih.step turn

/-- One version is below another exactly if every edit known to it is known to the other. -/
theorem le_iff_known_subset {turns : List (Turn ι)} {version version' : Version (ι → ℕ)}
    (h : version ∈ ((counters ι).run turns).versions)
    (h' : version' ∈ ((counters ι).run turns).versions) :
    version.stamp ≤ version'.stamp ↔ version.known ⊆ version'.known :=
  ((causal_run turns).versions version h).known_subset ((causal_run turns).versions version' h')

end VectorClock
