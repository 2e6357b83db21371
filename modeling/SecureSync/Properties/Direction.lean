import SecureSync.Application.HashChunks
import SecureSync.Domain.SyncDirection

/-!
# When the resolver settles concurrent edits

The content diff behind the two causal cases also decides for concurrent
vectors.  It then calls a conflict only if each side has a chunk of its own.
-/

namespace SecureSync

open SyncDirectionResolver

variable {v w : VersionVector} {localCollection remoteCollection : Option ChunkCollection}

/-- Concurrent versions are a conflict, and a transfer between known, unequal
versions goes with causality. -/
def ResolvesCausally (v w : VersionVector)
    (localCollection remoteCollection : Option ChunkCollection) : Prop :=
  let direction := (resolve localCollection (some v) remoteCollection (some w)).direction
  (v.IsConcurrent w → direction = .conflict) ∧
    (v ≠ w → direction = .push ∨ direction = .pull → v < w ∨ w < v)

theorem lt_or_lt_of_not_isConcurrent (hne : v ≠ w) (h : ¬ v.IsConcurrent w) : v < w ∨ w < v := by
  rcases not_not.mp h with hle | hle
  · exact .inl ⟨hle, hne⟩
  · exact .inr ⟨hle, hne.symm⟩

theorem not_lt_of_isConcurrent (h : v.IsConcurrent w) : ¬ v < w ∧ ¬ w < v :=
  ⟨fun hlt ↦ h (.inl hlt.1), fun hlt ↦ h (.inr hlt.1)⟩

variable (localCollection remoteCollection) in
theorem resolve_of_isConcurrent (h : v.IsConcurrent w) :
    (resolve localCollection (some v) remoteCollection (some w)).direction =
      (diffContentHashes localCollection remoteCollection).direction := by
  obtain ⟨hvw, hwv⟩ := not_lt_of_isConcurrent h
  rw [resolve_of_versions, direction_of_not_lt hvw hwv]

theorem resolvesCausally_iff (v w : VersionVector)
    (localCollection remoteCollection : Option ChunkCollection) :
    ResolvesCausally v w localCollection remoteCollection ↔
      ¬ v.IsConcurrent w ∨
        HasOwnChunk localCollection remoteCollection ∧
          HasOwnChunk remoteCollection localCollection := by
  by_cases hconc : v.IsConcurrent w
  · have hdirection := resolve_of_isConcurrent localCollection remoteCollection hconc
    rw [← diffContentHashes_conflict_iff, ← hdirection]
    constructor
    · intro h
      exact .inr (h.1 hconc)
    · intro h
      have hconflict := h.resolve_left (not_not.mpr hconc)
      refine ⟨fun _ ↦ hconflict, fun _ htransfer ↦ ?_⟩
      rw [hconflict] at htransfer
      simp at htransfer
  · refine ⟨fun _ ↦ .inl hconc, fun _ ↦ ⟨fun h ↦ absurd h hconc, fun hne _ ↦ ?_⟩⟩
    exact lt_or_lt_of_not_isConcurrent hne hconc

/-- Both devices edited, and the remote file is the local one without its last
chunk: the resolver pushes. -/
theorem not_resolvesCausally :
    (VersionVector.firstEdit "A").IsConcurrent (.firstEdit "B") ∧
      (resolve (some (sampleManifest [1, 2])) (some (.firstEdit "A")) (some (sampleManifest [1]))
        (some (.firstEdit "B"))).direction = .push ∧
      ¬ ResolvesCausally (.firstEdit "A") (.firstEdit "B") (some (sampleManifest [1, 2]))
        (some (sampleManifest [1])) := by
  have hconc : (VersionVector.firstEdit "A").IsConcurrent (.firstEdit "B") := by decide
  have hpush : (resolve (some (sampleManifest [1, 2])) (some (.firstEdit "A"))
      (some (sampleManifest [1])) (some (.firstEdit "B"))).direction = .push := by decide
  refine ⟨hconc, hpush, fun h ↦ ?_⟩
  have hconflict := h.1 hconc
  rw [hpush] at hconflict
  cases hconflict

end SecureSync
