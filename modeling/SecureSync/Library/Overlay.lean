import Mathlib.Algebra.GroupWithZero.Nat
import Mathlib.Data.List.Basic
import Mathlib.Data.List.Induction
import Mathlib.Data.Nat.Basic
import Mathlib.Order.Lattice
import Mathlib.Tactic.ByContra

/-!
# Overlaying pieces on a list

A piece is a run of elements with a fixed offset.  Writing it replaces what
the list holds there; a write past the end first fills the gap with a default
element, as a seek past the end of a file does.  When every piece agrees with
one target list, the order of the writes is immaterial and the outcome is
known position by position.
-/

namespace Overlay

variable {α : Type*} (z : α)

structure Piece (α : Type*) where
  offset : ℕ
  data : List α
  deriving DecidableEq, Repr

def Piece.Covers (p : Piece α) (i : ℕ) : Prop :=
  p.offset ≤ i ∧ i < p.offset + p.data.length

instance (p : Piece α) (i : ℕ) : Decidable (p.Covers i) :=
  inferInstanceAs (Decidable (_ ∧ _))

/-- Writing nonempty data at `i`'s right leaves a default element at `i`
when the list is too short to reach it. -/
def Piece.Reaches (p : Piece α) (i : ℕ) : Prop :=
  p.data ≠ [] ∧ i < p.offset

instance (p : Piece α) (i : ℕ) : Decidable (p.Reaches i) :=
  decidable_of_iff (p.data.isEmpty = false ∧ i < p.offset) (by simp [Piece.Reaches])

/-- Seek to the offset of the piece, then write its data.  Empty data
changes nothing, not even the length. -/
def writeAt (old : List α) (p : Piece α) : List α :=
  if p.data.isEmpty then old
  else old.take p.offset ++ List.replicate (p.offset - old.length) z ++ p.data ++
    old.drop (p.offset + p.data.length)

def writeAll (old : List α) (ps : List (Piece α)) : List α :=
  ps.foldl (writeAt z) old

/-- Writing where the list ends appends. -/
theorem writeAt_length (old data : List α) : writeAt z old ⟨old.length, data⟩ = old ++ data := by
  unfold writeAt
  cases data <;> simp

@[simp] theorem writeAll_nil (old : List α) : writeAll z old [] = old := rfl

theorem writeAll_concat (old : List α) (ps : List (Piece α)) (p : Piece α) :
    writeAll z old (ps ++ [p]) = writeAt z (writeAll z old ps) p := by
  simp [writeAll, List.foldl_append]

theorem Piece.not_covers_of_isEmpty {p : Piece α} (h : p.data.isEmpty = true) (i : ℕ) :
    ¬ p.Covers i := by
  have hlen : p.data.length = 0 := by simpa using h
  rintro ⟨hle, hlt⟩
  omega

theorem getElem?_writeAt (old : List α) (p : Piece α) (i : ℕ) :
    (writeAt z old p)[i]? =
      if p.Covers i then p.data[i - p.offset]?
      else (old[i]?).or (if p.Reaches i then some z else none) := by
  unfold writeAt
  by_cases hempty : p.data.isEmpty = true
  · have hreach : ¬ p.Reaches i := fun h ↦ h.1 (List.isEmpty_iff.mp hempty)
    rw [if_pos hempty, if_neg (p.not_covers_of_isEmpty hempty i), if_neg hreach, Option.or_none]
  · have hne : p.data ≠ [] := fun h ↦ hempty (List.isEmpty_iff.mpr h)
    have hfront : (old.take p.offset ++ List.replicate (p.offset - old.length) z).length =
        p.offset := by
      simp only [List.length_append, List.length_take, List.length_replicate]
      omega
    rw [if_neg hempty]
    rcases lt_or_ge i p.offset with hlt | hge
    · have hcov : ¬ p.Covers i := fun h ↦ absurd h.1 (not_le.mpr hlt)
      rw [if_neg hcov, if_pos ⟨hne, hlt⟩, List.append_assoc,
        List.getElem?_append_left (by omega)]
      rcases lt_or_ge i old.length with hold | hold
      · rw [List.getElem?_append_left (by simp only [List.length_take]; omega),
          List.getElem?_take_of_lt hlt, List.getElem?_eq_getElem hold, Option.some_or]
      · rw [List.getElem?_append_right (by simp only [List.length_take]; omega),
          List.getElem?_eq_none hold, Option.none_or, List.getElem?_replicate]
        simp only [List.length_take]
        rw [if_pos (by omega)]
    · have hreach : ¬ p.Reaches i := fun h ↦ absurd h.2 (not_lt.mpr hge)
      rw [if_neg hreach, Option.or_none, List.append_assoc,
        List.getElem?_append_right (by omega), hfront]
      by_cases hcov : p.Covers i
      · have hin : i - p.offset < p.data.length := by
          have := hcov.2
          omega
        rw [if_pos hcov, List.getElem?_append_left hin]
      · have hout : p.offset + p.data.length ≤ i := by
          by_contra hlt
          exact hcov ⟨hge, by omega⟩
        rw [if_neg hcov, List.getElem?_append_right (by omega), List.getElem?_drop]
        congr 1
        omega

/-! ## Pieces of one target -/

/-- The piece holds what `target` holds at the same place. -/
def IsSlice (target : List α) (p : Piece α) : Prop :=
  ∀ k < p.data.length, target[p.offset + k]? = p.data[k]?

theorem IsSlice.getElem?_of_covers {target : List α} {p : Piece α} (h : IsSlice target p)
    {i : ℕ} (hi : p.Covers i) : p.data[i - p.offset]? = target[i]? := by
  obtain ⟨hle, hlt⟩ := hi
  rw [← h (i - p.offset) (by omega), Nat.add_sub_cancel' hle]

theorem IsSlice.lt_length_of_covers {target : List α} {p : Piece α} (h : IsSlice target p)
    {i : ℕ} (hi : p.Covers i) : i < target.length := by
  have hin : i - p.offset < p.data.length := by
    have := hi.1
    have := hi.2
    omega
  have hsome := h.getElem?_of_covers hi
  rw [List.getElem?_eq_getElem hin] at hsome
  exact (List.getElem?_eq_some_iff.mp hsome.symm).1

/-- A write changes nothing exactly when the list already holds the piece. -/
theorem writeAt_eq_self_iff {old : List α} {p : Piece α} :
    writeAt z old p = old ↔ IsSlice old p := by
  constructor
  · intro heq k hk
    have hcov : p.Covers (p.offset + k) := ⟨Nat.le_add_right _ _, by omega⟩
    have hget := getElem?_writeAt z old p (p.offset + k)
    rw [heq, if_pos hcov, Nat.add_sub_cancel_left] at hget
    exact hget
  · intro h
    apply List.ext_getElem?
    intro i
    rw [getElem?_writeAt]
    by_cases hcov : p.Covers i
    · rw [if_pos hcov, h.getElem?_of_covers hcov]
    · rw [if_neg hcov]
      rcases lt_or_ge i old.length with hi | hi
      · rw [List.getElem?_eq_getElem hi, Option.some_or]
      · have hreach : ¬ p.Reaches i := by
          rintro ⟨hne, hlt⟩
          have hpos := List.length_pos_iff.mpr hne
          have hin := h.lt_length_of_covers (i := p.offset) ⟨le_refl _, by omega⟩
          omega
        rw [if_neg hreach, Option.or_none]

theorem isSlice_drop_take (target : List α) (offset size : ℕ) :
    IsSlice target ⟨offset, (target.drop offset).take size⟩ := by
  intro k hk
  have hsize : k < size := by
    have := List.length_take_le size (target.drop offset)
    simp only at hk
    omega
  simp only
  rw [List.getElem?_take_of_lt hsize, List.getElem?_drop]

/-- The outcome of any number of writes of slices: the target where a piece
covers the position, the old list elsewhere, and default elements in gaps. -/
theorem getElem?_writeAll {target old : List α} {ps : List (Piece α)}
    (h : ∀ p ∈ ps, IsSlice target p) (i : ℕ) :
    (writeAll z old ps)[i]? =
      if ∃ p ∈ ps, p.Covers i then target[i]?
      else (old[i]?).or (if ∃ p ∈ ps, p.Reaches i then some z else none) := by
  induction ps using List.reverseRecOn with
  | nil => simp
  | append_singleton ps p ih =>
      have ih := ih fun q hq ↦ h q (List.mem_append_left _ hq)
      have hp : IsSlice target p := h p (by simp)
      rw [writeAll_concat, getElem?_writeAt, ih]
      by_cases hcov : p.Covers i
      · rw [if_pos hcov, if_pos ⟨p, by simp, hcov⟩, hp.getElem?_of_covers hcov]
      · have hcovs : (∃ q ∈ ps ++ [p], q.Covers i) ↔ ∃ q ∈ ps, q.Covers i := by
          simp [or_and_right, exists_or, hcov]
        have hreaches : (∃ q ∈ ps ++ [p], q.Reaches i) ↔
            (∃ q ∈ ps, q.Reaches i) ∨ p.Reaches i := by
          simp [or_and_right, exists_or]
        simp only [if_neg hcov, hcovs, hreaches]
        by_cases hprev : ∃ q ∈ ps, q.Covers i
        · have hlt : i < target.length := by
            obtain ⟨q, hq, hqi⟩ := hprev
            exact (h q (List.mem_append_left _ hq)).lt_length_of_covers hqi
          simp only [if_pos hprev, List.getElem?_eq_getElem hlt, Option.some_or]
        · rw [if_neg hprev, if_neg hprev]
          by_cases hr : ∃ q ∈ ps, q.Reaches i <;> by_cases hpr : p.Reaches i <;>
            cases old[i]? <;> simp [hr, hpr]

/-- Exactly what makes an overlay of slices equal to its target: the old
list is not longer, and a position that no piece covers already holds the
target's element, or holds the default by lying in a gap. -/
def Completes (old target : List α) (ps : List (Piece α)) : Prop :=
  old.length ≤ target.length ∧
    ∀ i < target.length, (∃ p ∈ ps, p.Covers i) ∨ old[i]? = target[i]? ∨
      (old.length ≤ i ∧ target[i]? = some z ∧ ∃ p ∈ ps, p.Reaches i)

instance [DecidableEq α] (old target : List α) (ps : List (Piece α)) :
    Decidable (Completes z old target ps) :=
  inferInstanceAs (Decidable (_ ∧ ∀ i < target.length, _))

theorem writeAll_eq_iff {target old : List α} {ps : List (Piece α)}
    (h : ∀ p ∈ ps, IsSlice target p) :
    writeAll z old ps = target ↔ Completes z old target ps := by
  constructor
  · intro heq
    have hpos : ∀ i, target[i]? = if ∃ p ∈ ps, p.Covers i then target[i]?
        else (old[i]?).or (if ∃ p ∈ ps, p.Reaches i then some z else none) := by
      intro i
      rw [← getElem?_writeAll z h, heq]
    refine ⟨?_, fun i hi ↦ ?_⟩
    · by_contra hlen
      have hlt : target.length < old.length := by omega
      have hnone := hpos target.length
      rw [if_neg (fun ⟨p, hp, hc⟩ => absurd ((h p hp).lt_length_of_covers hc) (lt_irrefl _)),
        List.getElem?_eq_none (le_refl _), List.getElem?_eq_getElem hlt] at hnone
      simp at hnone
    · by_cases hcov : ∃ p ∈ ps, p.Covers i
      · exact .inl hcov
      · right
        have hi' := hpos i
        rw [if_neg hcov] at hi'
        rcases lt_or_ge i old.length with hold | hold
        · left
          rw [hi', List.getElem?_eq_getElem hold, Option.some_or]
        · right
          rw [List.getElem?_eq_none hold, Option.none_or] at hi'
          by_cases hr : ∃ p ∈ ps, p.Reaches i
          · exact ⟨hold, by rw [hi', if_pos hr], hr⟩
          · rw [if_neg hr, List.getElem?_eq_getElem hi] at hi'
            simp at hi'
  · rintro ⟨hlen, hpos⟩
    apply List.ext_getElem?
    intro i
    rw [getElem?_writeAll z h]
    by_cases hcov : ∃ p ∈ ps, p.Covers i
    · rw [if_pos hcov]
    · rw [if_neg hcov]
      rcases lt_or_ge i target.length with hi | hi
      · rcases hpos i hi with hc | hsame | ⟨hold, hz, hr⟩
        · exact absurd hc hcov
        · rw [hsame, List.getElem?_eq_getElem hi, Option.some_or]
        · rw [List.getElem?_eq_none hold, Option.none_or, if_pos hr, hz]
      · have hreach : ¬ ∃ p ∈ ps, p.Reaches i := by
          rintro ⟨p, hp, hne, hlt⟩
          have hcov0 : p.Covers p.offset := by
            have := List.length_pos_iff.mpr hne
            exact ⟨le_refl _, by omega⟩
          have := (h p hp).lt_length_of_covers hcov0
          omega
        rw [if_neg hreach, List.getElem?_eq_none (by omega), List.getElem?_eq_none hi,
          Option.or_none]

theorem writeAll_eq_of_covered {target old : List α} {ps : List (Piece α)}
    (h : ∀ p ∈ ps, IsSlice target p) (hlen : old.length ≤ target.length)
    (hcov : ∀ i < target.length, ∃ p ∈ ps, p.Covers i) : writeAll z old ps = target :=
  (writeAll_eq_iff z h).mpr ⟨hlen, fun i hi ↦ .inl (hcov i hi)⟩

/-! ## Consecutive pieces -/

/-- Lay runs of elements end to end, starting at `offset`. -/
def place : ℕ → List (List α) → List (Piece α)
  | _, [] => []
  | offset, d :: ds => ⟨offset, d⟩ :: place (offset + d.length) ds

theorem getElem?_place {offset i : ℕ} {ds : List (List α)} (hi : i < ds.length) :
    (place offset ds)[i]? = some ⟨offset + ((ds.take i).map List.length).sum, ds[i]⟩ := by
  induction ds generalizing offset i with
  | nil => simp at hi
  | cons d ds ih =>
      cases i with
      | zero => simp [place]
      | succ i => simp [place, ih (Nat.lt_of_succ_lt_succ hi), Nat.add_assoc]

theorem isSlice_place {target : List α} {offset : ℕ} {ds : List (List α)}
    (h : target.drop offset = ds.flatten) : ∀ p ∈ place offset ds, IsSlice target p := by
  induction ds generalizing offset with
  | nil => simp [place]
  | cons d ds ih =>
      intro p hp
      rcases List.mem_cons.mp hp with rfl | hp
      · intro k hk
        rw [← List.getElem?_drop, h, List.flatten_cons, List.getElem?_append_left hk]
      · refine ih ?_ p hp
        rw [← List.drop_drop, h, List.flatten_cons, List.drop_left]

theorem exists_covers_place {offset i : ℕ} {ds : List (List α)} (hle : offset ≤ i)
    (hlt : i < offset + ds.flatten.length) : ∃ p ∈ place offset ds, p.Covers i := by
  induction ds generalizing offset with
  | nil =>
      simp only [List.flatten_nil, List.length_nil] at hlt
      omega
  | cons d ds ih =>
      rw [List.flatten_cons, List.length_append] at hlt
      rcases lt_or_ge i (offset + d.length) with hi | hi
      · exact ⟨⟨offset, d⟩, by simp [place], hle, hi⟩
      · obtain ⟨p, hp, hcov⟩ := ih hi (by omega)
        exact ⟨p, List.mem_cons_of_mem _ hp, hcov⟩

/-- The runs that make up a list, laid end to end, rebuild it over any list
that is not longer, in whatever order they are written. -/
theorem writeAll_place_perm {target old : List α} {ds : List (List α)} {ps : List (Piece α)}
    (htarget : ds.flatten = target) (hps : ∀ p, p ∈ ps ↔ p ∈ place 0 ds)
    (hlen : old.length ≤ target.length) : writeAll z old ps = target := by
  subst htarget
  have hslice : ∀ p ∈ ps, IsSlice ds.flatten p := fun p hp =>
    isSlice_place (by simp) p ((hps p).mp hp)
  apply writeAll_eq_of_covered z hslice hlen
  intro i hi
  obtain ⟨p, hp, hcov⟩ := exists_covers_place (Nat.zero_le i) (by simpa using hi)
  exact ⟨p, (hps p).mpr hp, hcov⟩

end Overlay
