import SecureSync.Domain.Conflict
import SecureSync.Library.VectorClocks

/-!
# The order of version vectors

An absent key counts as zero in a comparison, and yet differs from a zero.
Vectors that are built by incrementing and merging hold no zeros, so that their
order is that of the clocks they stand for, and their joins are the merges.
-/

namespace SecureSync

open VectorClock

namespace VersionVector

inductive Built : VersionVector → Prop
  | empty : Built empty
  | increment {v : VersionVector} (hv : Built v) (deviceId : DeviceId) :
      Built (v.increment deviceId)
  | merge {v w : VersionVector} (hv : Built v) (hw : Built w) : Built (v.merge w)

theorem get_increment (v : VersionVector) (deviceId d : DeviceId) :
    (v.increment deviceId).get d = if d = deviceId then v.get deviceId + 1 else v.get d := by
  rw [get, increment]
  split_ifs with hd
  · rw [hd, Finmap.lookup_insert, Option.getD_some]
  · rw [Finmap.lookup_insert_of_ne _ hd, get]

end VersionVector

/-- A vector without zeros and without negative counters. -/
structure CausalVector where
  vector : VersionVector
  positive : ∀ d n, vector.counters.lookup d = some n → 0 < n

namespace CausalVector

variable (u v w : CausalVector) (deviceId : DeviceId)

def get (d : DeviceId) : ℤ := v.vector.get d

theorem lookup_eq (d : DeviceId) :
    v.vector.counters.lookup d = if v.get d = 0 then none else some (v.get d) := by
  cases hn : v.vector.counters.lookup d with
  | none => rw [get, VersionVector.get, hn, Option.getD_none, if_pos rfl]
  | some n =>
      have hget : v.get d = n := by rw [get, VersionVector.get, hn, Option.getD_some]
      rw [hget, if_neg (v.positive d n hn).ne']

theorem get_nonneg (d : DeviceId) : 0 ≤ v.get d := by
  cases hn : v.vector.counters.lookup d with
  | none => rw [get, VersionVector.get, hn, Option.getD_none]
  | some n =>
      rw [get, VersionVector.get, hn, Option.getD_some]
      exact (v.positive d n hn).le

variable {u v w} in
theorem ext_get (h : ∀ d, v.get d = w.get d) : v = w := by
  have hcounters : v.vector.counters = w.vector.counters := Finmap.ext_lookup fun d ↦ by
    rw [v.lookup_eq, w.lookup_eq, h]
  obtain ⟨⟨counters⟩, hv⟩ := v
  obtain ⟨⟨counters'⟩, hw⟩ := w
  cases hcounters
  rfl

variable {v w} in
theorem vector_le_iff : v.vector ≤ w.vector ↔ ∀ d, v.get d ≤ w.get d := by
  rw [VersionVector.le_def]
  constructor
  · intro h d
    by_cases hd : d ∈ v.vector.counters
    · exact h d hd
    · rw [get, VersionVector.get, Finmap.lookup_eq_none.mpr hd, Option.getD_none]
      exact w.get_nonneg d
  · exact fun h d _ ↦ h d

def empty : CausalVector := ⟨.empty, fun d n h ↦ by simp [VersionVector.empty] at h⟩

def increment : CausalVector where
  vector := v.vector.increment deviceId
  positive d n h := by
    have hpos := v.get_nonneg deviceId
    by_cases hd : d = deviceId
    · subst hd
      rw [VersionVector.increment, Finmap.lookup_insert] at h
      rw [← Option.some.inj h]
      exact Int.lt_add_one_of_le hpos
    · rw [VersionVector.increment, Finmap.lookup_insert_of_ne _ hd] at h
      exact v.positive d n h

def merge : CausalVector where
  vector := v.vector.merge w.vector
  positive d n h := by
    rw [VersionVector.lookup_merge] at h
    cases hw : w.vector.counters.lookup d with
    | none =>
        rw [hw] at h
        exact v.positive d n h
    | some m =>
        rw [hw] at h
        rw [← Option.some.inj h]
        exact lt_max_of_lt_right (w.positive d m hw)

theorem get_increment (d : DeviceId) :
    (v.increment deviceId).get d = if d = deviceId then v.get deviceId + 1 else v.get d :=
  v.vector.get_increment deviceId d

theorem get_merge (d : DeviceId) : (v.merge w).get d = max (v.get d) (w.get d) := by
  rw [get, merge, VersionVector.get, VersionVector.lookup_merge, w.lookup_eq]
  split_ifs with hzero
  · rw [hzero, max_eq_left (v.get_nonneg d)]
    rfl
  · rfl

/-- What `increment` and `merge` build is a causal vector. -/
theorem exists_of_built {v : VersionVector} (h : v.Built) : ∃ c : CausalVector, c.vector = v := by
  induction h with
  | empty => exact ⟨.empty, rfl⟩
  | increment _ deviceId ih =>
      obtain ⟨c, rfl⟩ := ih
      exact ⟨c.increment deviceId, rfl⟩
  | merge _ _ ih ih' =>
      obtain ⟨c, rfl⟩ := ih
      obtain ⟨c', rfl⟩ := ih'
      exact ⟨c.merge c', rfl⟩

/-- `<=` and `merge`, as an order with joins. -/
instance : SemilatticeSup CausalVector where
  le v w := v.vector ≤ w.vector
  le_refl _ := vector_le_iff.mpr fun _ ↦ le_rfl
  le_trans _ _ _ h h' := vector_le_iff.mpr fun d ↦
    (vector_le_iff.mp h d).trans (vector_le_iff.mp h' d)
  le_antisymm _ _ h h' := ext_get fun d ↦
    (vector_le_iff.mp h d).antisymm (vector_le_iff.mp h' d)
  sup := merge
  le_sup_left v w := vector_le_iff.mpr fun d ↦ by
    rw [get_merge]
    exact le_max_left _ _
  le_sup_right v w := vector_le_iff.mpr fun d ↦ by
    rw [get_merge]
    exact le_max_right _ _
  sup_le u v w h h' := vector_le_iff.mpr fun d ↦ by
    rw [get_merge]
    exact max_le (vector_le_iff.mp h d) (vector_le_iff.mp h' d)

theorem le_def : v ≤ w ↔ v.vector ≤ w.vector := Iff.rfl

theorem vector_sup : (v ⊔ w).vector = v.vector.merge w.vector := rfl

/-! ## Clocks -/

def clock (d : DeviceId) : ℕ := (v.get d).toNat

variable {v w} in
theorem vector_le_iff_clock : v.vector ≤ w.vector ↔ v.clock ≤ w.clock := by
  rw [vector_le_iff]
  constructor
  · exact fun h d ↦ Int.toNat_le_toNat (h d)
  · intro h d
    have hd : (v.get d).toNat ≤ (w.get d).toNat := h d
    have hcast := Int.ofNat_le.mpr hd
    rwa [Int.toNat_of_nonneg (v.get_nonneg d), Int.toNat_of_nonneg (w.get_nonneg d)] at hcast

end CausalVector

/-- The stamps of the program. -/
def versionStamps : Stamps DeviceId VersionVector where
  initial := .empty
  edit := .increment
  merge := .merge

def causalStamps : Stamps DeviceId CausalVector where
  initial := .empty
  edit := .increment
  merge := .merge

theorem respects_vector : Respects causalStamps versionStamps CausalVector.vector where
  initial := rfl
  edit _ _ := rfl
  merge _ _ := rfl

theorem respects_clock : Respects causalStamps (counters DeviceId) CausalVector.clock where
  initial := funext fun _ ↦ rfl
  edit v i := by
    funext d
    simp only [counters, causalStamps, CausalVector.clock, CausalVector.get_increment]
    by_cases hd : d = i
    · subst hd
      rw [if_pos rfl, Function.update_self, Int.toNat_add (v.get_nonneg d) (by decide)]
      rfl
    · rw [if_neg hd, Function.update_of_ne hd, CausalVector.clock]
  merge v w := by
    funext d
    simp only [counters, causalStamps, CausalVector.clock, CausalVector.get_merge]
    have hv := v.get_nonneg d
    have hw := w.get_nonneg d
    omega

/-- Whatever the replicas do, a vector is below another exactly if it knows no edit that
the other does not. -/
theorem le_iff_known_subset_of_versions {turns : List (Turn DeviceId)}
    {v w : Version VersionVector} (hv : v ∈ (versionStamps.run turns).versions)
    (hw : w ∈ (versionStamps.run turns).versions) : v.stamp ≤ w.stamp ↔ v.known ⊆ w.known := by
  rw [← respects_vector.map_run] at hv hw
  obtain ⟨v, hmem, rfl⟩ := List.mem_map.mp hv
  obtain ⟨w, hmem', rfl⟩ := List.mem_map.mp hw
  have hclock : ∀ u ∈ (causalStamps.run turns).versions,
      u.map CausalVector.clock ∈ ((counters DeviceId).run turns).versions := by
    intro u hu
    rw [← respects_clock.map_run]
    exact List.mem_map_of_mem hu
  exact CausalVector.vector_le_iff_clock.trans (le_iff_known_subset (hclock v hmem)
    (hclock w hmem'))

/-- Version vectors that are built by incrementing and merging form a join-semilattice, and
over any history their order is that of the edits they know. -/
theorem versions_form_semilattice :
    (∀ u v w : VersionVector, u.Built → v.Built → w.Built →
      v ≤ v ∧ (u ≤ v → v ≤ w → u ≤ w) ∧ (v ≤ w → w ≤ v → v = w) ∧
        v ≤ v.merge w ∧ w ≤ v.merge w ∧ (v ≤ u → w ≤ u → v.merge w ≤ u) ∧
        v.merge w = w.merge v ∧ (u.merge v).merge w = u.merge (v.merge w) ∧ v.merge v = v ∧
        ∀ deviceId, v < v.increment deviceId) ∧
    ∀ turns : List (Turn DeviceId), ∀ v ∈ (versionStamps.run turns).versions,
      ∀ w ∈ (versionStamps.run turns).versions,
        (v.stamp ≤ w.stamp ↔ v.known ⊆ w.known) ∧
          (v.stamp.IsConcurrent w.stamp ↔ ¬ v.known ⊆ w.known ∧ ¬ w.known ⊆ v.known) := by
  constructor
  · intro u v w hu hv hw
    obtain ⟨u, rfl⟩ := CausalVector.exists_of_built hu
    obtain ⟨v, rfl⟩ := CausalVector.exists_of_built hv
    obtain ⟨w, rfl⟩ := CausalVector.exists_of_built hw
    simp only [← CausalVector.vector_sup, ← CausalVector.le_def]
    refine ⟨le_rfl, le_trans, fun h h' ↦ congrArg _ (le_antisymm h h'), le_sup_left, le_sup_right,
      sup_le, ?_, ?_, ?_, v.vector.lt_increment⟩
    · rw [sup_comm]
    · rw [sup_assoc]
    · rw [sup_idem]
  · intro turns v hv w hw
    rw [VersionVector.IsConcurrent, le_iff_known_subset_of_versions hv hw,
      le_iff_known_subset_of_versions hw hv, not_or]
    exact ⟨Iff.rfl, Iff.rfl⟩

/-- Alice and Bob edit side by side, and then Bob receives Alice's version. -/
def crossingTurns : List (Turn DeviceId) :=
  [.edit "alice", .edit "bob", .receive "bob" 1]

theorem crossingTurns_versions :
    ∀ v ∈ [(⟨.firstEdit "alice", {0}⟩ : Version VersionVector), ⟨.firstEdit "bob", {1}⟩,
      ⟨(VersionVector.firstEdit "bob").merge (.firstEdit "alice"), {1, 0}⟩],
      v ∈ (versionStamps.run crossingTurns).versions := by
  have hne : "bob" ≠ "alice" := by decide
  simp [versionStamps, crossingTurns, Stamps.run, Stamps.start, Stamps.step, Stamps.hold,
    VersionVector.firstEdit, Function.update, hne]

theorem versions_form_semilattice_crossing :
    (VersionVector.firstEdit "alice").merge (.firstEdit "bob") =
        (VersionVector.firstEdit "bob").merge (.firstEdit "alice") ∧
      (VersionVector.firstEdit "alice").IsConcurrent (.firstEdit "bob") ∧
      VersionVector.firstEdit "alice" ≤
        (VersionVector.firstEdit "bob").merge (.firstEdit "alice") := by
  have hbuilt (d : DeviceId) : (VersionVector.firstEdit d).Built := .increment .empty d
  have hmem := crossingTurns_versions
  simp only [List.forall_mem_cons] at hmem
  obtain ⟨halice, hbob, hmerged, -⟩ := hmem
  obtain ⟨hlattice, hcausal⟩ := versions_form_semilattice
  refine ⟨(hlattice .empty _ _ .empty (hbuilt "alice") (hbuilt "bob")).2.2.2.2.2.2.1,
    (hcausal crossingTurns _ halice _ hbob).2.mpr (by decide),
    (hcausal crossingTurns _ halice _ hmerged).1.mpr (by decide)⟩

end SecureSync
