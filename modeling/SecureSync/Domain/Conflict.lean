import Mathlib.Data.Finmap
import Mathlib.Order.Lattice

/-!
# Version vectors and conflict records

The value objects of `domain/conflict.py`, and the default merge strategy.  A
`dict` is a finite map, so two vectors are equal when they agree on every key,
and a key holding zero differs from an absent one.
-/

namespace SecureSync

abbrev DeviceId := String

abbrev Counters := Finmap fun _ : DeviceId ↦ ℤ

structure VersionVector where
  counters : Counters
  deriving DecidableEq

namespace VersionVector

def empty : VersionVector := ⟨∅⟩

/-- `counters.get(device_id, 0)`. -/
def get (v : VersionVector) (deviceId : DeviceId) : ℤ :=
  (v.counters.lookup deviceId).getD 0

def increment (v : VersionVector) (deviceId : DeviceId) : VersionVector :=
  ⟨v.counters.insert deviceId (v.get deviceId + 1)⟩

def firstEdit (deviceId : DeviceId) : VersionVector := empty.increment deviceId

/-- One round of the loop of `merge`. -/
def raise (acc : Counters) (deviceId : DeviceId) (counter : ℤ) : Counters :=
  acc.insert deviceId (max ((acc.lookup deviceId).getD 0) counter)

theorem raise_comm (acc : Counters) (d : DeviceId) (m : ℤ) (e : DeviceId) (n : ℤ) :
    raise (raise acc d m) e n = raise (raise acc e n) d m := by
  by_cases hde : d = e
  · subst hde
    simp only [raise, Finmap.lookup_insert, Option.getD_some, Finmap.insert_insert]
    rw [max_right_comm]
  · simp only [raise, Finmap.lookup_insert_of_ne _ hde, Finmap.lookup_insert_of_ne _ (Ne.symm hde)]
    exact Finmap.insert_insert_of_ne _ hde

def merge (v w : VersionVector) : VersionVector :=
  ⟨w.counters.foldl raise raise_comm v.counters⟩

/-- The loop of `__le__`: only the keys of the left vector are compared. -/
instance : LE VersionVector where
  le v w := ∀ d ∈ v.counters.keys, v.get d ≤ w.get d

instance (v w : VersionVector) : Decidable (v ≤ w) :=
  inferInstanceAs (Decidable (∀ d ∈ v.counters.keys, _))

/-- `__lt__`, with dictionary inequality. -/
instance : LT VersionVector where
  lt v w := v ≤ w ∧ v ≠ w

instance (v w : VersionVector) : Decidable (v < w) :=
  inferInstanceAs (Decidable (_ ∧ _))

def IsConcurrent (v w : VersionVector) : Prop :=
  ¬ (v ≤ w ∨ w ≤ v)

instance (v w : VersionVector) : Decidable (v.IsConcurrent w) :=
  inferInstanceAs (Decidable (¬ _))

theorem le_def {v w : VersionVector} : v ≤ w ↔ ∀ d ∈ v.counters, v.get d ≤ w.get d := by
  simp only [LE.le, Finmap.mem_keys]

/-! ### What `merge` holds -/

theorem lookup_foldl_raise (l : List (Sigma fun _ : DeviceId ↦ ℤ)) (hl : l.NodupKeys)
    (acc : Counters) (d : DeviceId) :
    (l.foldl (fun acc s ↦ raise acc s.1 s.2) acc).lookup d =
      match l.dlookup d with
      | none => acc.lookup d
      | some n => some (max ((acc.lookup d).getD 0) n) := by
  induction l generalizing acc with
  | nil => rfl
  | cons s l ih =>
      obtain ⟨e, n⟩ := s
      obtain ⟨hfresh, hl⟩ := List.nodupKeys_cons.mp hl
      rw [List.foldl_cons, ih hl]
      by_cases hde : d = e
      · subst hde
        rw [List.dlookup_cons_eq, List.dlookup_eq_none.mpr hfresh]
        exact Finmap.lookup_insert _
      · rw [List.dlookup_cons_ne _ _ hde]
        simp only [raise, Finmap.lookup_insert_of_ne _ hde]

theorem lookup_merge (v w : VersionVector) (d : DeviceId) :
    (v.merge w).counters.lookup d =
      match w.counters.lookup d with
      | none => v.counters.lookup d
      | some n => some (max (v.get d) n) := by
  obtain ⟨wc⟩ := w
  induction wc using Finmap.induction_on with
  | H a => exact lookup_foldl_raise a.entries a.nodupKeys v.counters d

/-! ### Vectors that only grow

`≤` looks at the keys of its left side only, and a counter may be negative, so
it is not transitive.  Merging and incrementing keep more than it says. -/

/-- Every key of `v` is a key of `w`, with a counter that is no smaller. -/
def Within (v w : VersionVector) : Prop :=
  ∀ d n, v.counters.lookup d = some n → ∃ m, w.counters.lookup d = some m ∧ n ≤ m

theorem Within.refl (v : VersionVector) : v.Within v := fun _ n h ↦ ⟨n, h, le_rfl⟩

theorem Within.trans {u v w : VersionVector} (h : u.Within v) (h' : v.Within w) : u.Within w := by
  intro d n hn
  obtain ⟨m, hm, hnm⟩ := h d n hn
  obtain ⟨k, hk, hmk⟩ := h' d m hm
  exact ⟨k, hk, hnm.trans hmk⟩

theorem Within.le {v w : VersionVector} (h : v.Within w) : v ≤ w := by
  apply le_def.mpr
  intro d hd
  obtain ⟨n, hn⟩ := Finmap.mem_iff.mp hd
  obtain ⟨m, hm, hnm⟩ := h d n hn
  rwa [get, get, hn, hm]

theorem within_merge_left (v w : VersionVector) : v.Within (v.merge w) := by
  intro d n hn
  rw [lookup_merge]
  cases w.counters.lookup d with
  | none => exact ⟨n, hn, le_rfl⟩
  | some m => exact ⟨_, rfl, by rw [get, hn]; exact le_max_left _ _⟩

theorem within_merge_right (v w : VersionVector) : w.Within (v.merge w) := by
  intro d n hn
  rw [lookup_merge, hn]
  exact ⟨_, rfl, le_max_right _ _⟩

theorem within_increment (v : VersionVector) (deviceId : DeviceId) :
    v.Within (v.increment deviceId) := by
  intro d n hn
  by_cases hd : d = deviceId
  · subst hd
    refine ⟨v.get d + 1, Finmap.lookup_insert _, ?_⟩
    rw [get, hn, Option.getD_some]
    omega
  · exact ⟨n, by rw [increment, Finmap.lookup_insert_of_ne _ hd, hn], le_rfl⟩

theorem lt_increment (v : VersionVector) (deviceId : DeviceId) : v < v.increment deviceId := by
  refine ⟨(within_increment v deviceId).le, fun heq ↦ ?_⟩
  have hget := congrArg (fun w ↦ w.get deviceId) heq
  simp only [increment, get, Finmap.lookup_insert, Option.getD_some] at hget
  omega

end VersionVector

/-! ## Conflicts -/

inductive ConflictType where
  | concurrentModification
  | modifyDelete
  | renameConflict
  | moveConflict
  deriving DecidableEq, Repr

/-- Microseconds since the epoch, the resolution of `datetime`. -/
abbrev Timestamp := ℤ

structure ConflictMetadata where
  conflictId : String
  filePath : String
  conflictType : ConflictType
  localVersion : VersionVector
  remoteVersion : VersionVector
  remoteDeviceId : DeviceId
  detectedAt : Timestamp
  deriving DecidableEq

/-- `True` when the remote version wins. -/
structure MergeStrategy where
  merge : ConflictMetadata → ConflictMetadata → Bool

/-- `LastWriterWinsStrategy` of `application/use_cases/conflict_resolution.py`. -/
def lastWriterWinsStrategy : MergeStrategy where
  merge localConflict remoteConflict :=
    decide (remoteConflict.detectedAt > localConflict.detectedAt)

end SecureSync
