import SecureSync.Domain.Chunk
import SecureSync.Library.Raising

/-!
# Delta plans

`domain/delta.py`: chunks are matched by digest over the whole baseline, never
by position.
-/

namespace SecureSync

open Raising

inductive ChunkAction where
  | transfer
  | reuse
  deriving DecidableEq, Repr

structure ChunkDeltaEntry where
  metadata : ChunkMetadata
  action : ChunkAction
  deriving DecidableEq

structure DeltaPlan where
  sourcePath : FilePath
  baseline : Option ChunkCollection
  current : ChunkCollection
  entries : List ChunkDeltaEntry
  deriving DecidableEq

namespace DeltaPlan

def chunksToTransfer (plan : DeltaPlan) : List ChunkMetadata :=
  (plan.entries.filter fun entry ↦ entry.action = .transfer).map ChunkDeltaEntry.metadata

def transferCount (plan : DeltaPlan) : ℕ := plan.chunksToTransfer.length

def reuseCount (plan : DeltaPlan) : ℤ := plan.current.chunkCount - plan.transferCount

def bytesToTransfer (plan : DeltaPlan) : ℕ := (plan.chunksToTransfer.map ChunkMetadata.size).sum

end DeltaPlan

inductive DeltaError where
  | incompatibleBaseline (current baseline : FilePath)
  | unhashedChunk (chunkId : String) (index : ℕ)
  deriving DecidableEq, Repr

namespace DeltaCalculator

/-- `_known_hashes`; only membership is asked of the set. -/
def knownHashes (baseline : Option ChunkCollection) : List ChunkHash :=
  match baseline with
  | none => []
  | some baseline => baseline.chunks.filterMap ChunkMetadata.chunkHash

def requireHash (metadata : ChunkMetadata) : Except DeltaError ChunkHash :=
  match metadata.chunkHash with
  | none => .error (.unhashedChunk metadata.chunkId metadata.index)
  | some chunkHash => .ok chunkHash

def classify (known : List ChunkHash) (metadata : ChunkMetadata) :
    Except DeltaError ChunkDeltaEntry := do
  let chunkHash ← requireHash metadata
  return ⟨metadata, if chunkHash ∈ known then .reuse else .transfer⟩

def compute (baseline : Option ChunkCollection) (current : ChunkCollection) :
    Except DeltaError DeltaPlan := do
  if let some baseline := baseline then
    if baseline.sourcePath ≠ current.sourcePath then
      throw (.incompatibleBaseline current.sourcePath baseline.sourcePath)
  let entries ← current.chunks.mapM (classify (knownHashes baseline))
  return ⟨current.sourcePath, baseline, current, entries⟩

end DeltaCalculator

/-! ## What a plan transfers -/

/-- The chunk's digest is recorded, and nowhere in the baseline. -/
def ChunkMetadata.LackedBy (m : ChunkMetadata) (baseline : Option ChunkCollection) : Prop :=
  ∃ h ∈ m.chunkHash, h ∉ DeltaCalculator.knownHashes baseline

instance (m : ChunkMetadata) (baseline : Option ChunkCollection) :
    Decidable (m.LackedBy baseline) :=
  match hm : m.chunkHash with
  | none => .isFalse (by simp [ChunkMetadata.LackedBy, hm])
  | some h =>
      decidable_of_iff (h ∉ DeltaCalculator.knownHashes baseline)
        (by simp [ChunkMetadata.LackedBy, hm])

namespace DeltaCalculator

theorem classify_eq_ok {known : List ChunkHash} {m : ChunkMetadata} {entry : ChunkDeltaEntry} :
    classify known m = .ok entry ↔ ∃ hash, m.chunkHash = some hash ∧
      entry = ⟨m, if hash ∈ known then .reuse else .transfer⟩ := by
  rw [classify, requireHash, except_bind_eq_ok]
  cases m.chunkHash with
  | none => exact iff_of_false (fun ⟨_, h, _⟩ ↦ nomatch h) (fun ⟨_, h, _⟩ ↦ nomatch h)
  | some hash => simp [pure, Except.pure, eq_comm]

/-- Every chunk keeps its place, and is transferred exactly when the baseline lacks it. -/
theorem entries_of_mapM {baseline : Option ChunkCollection} {ms : List ChunkMetadata}
    {entries : List ChunkDeltaEntry}
    (h : ms.mapM (classify (knownHashes baseline)) = .ok entries) :
    entries = ms.map fun m ↦ ⟨m, if m.LackedBy baseline then .transfer else .reuse⟩ := by
  symm
  rw [← List.forall₂_eq_eq_eq, List.forall₂_map_left_iff]
  refine (except_mapM_eq_ok.mp h).imp ?_
  intro m entry hentry
  obtain ⟨hash, hhash, rfl⟩ := classify_eq_ok.mp hentry
  have hlacked : m.LackedBy baseline ↔ hash ∉ knownHashes baseline := by
    simp [ChunkMetadata.LackedBy, hhash]
  simp only [hlacked, ite_not]

theorem entries_of_compute {baseline : Option ChunkCollection} {current : ChunkCollection}
    {plan : DeltaPlan} (h : compute baseline current = .ok plan) :
    plan.current = current ∧ plan.entries = current.chunks.map fun m ↦
      ⟨m, if m.LackedBy baseline then .transfer else .reuse⟩ := by
  unfold compute at h
  cases hentries : current.chunks.mapM (classify (knownHashes baseline)) with
  | error e =>
      cases baseline with
      | none => simp [hentries, bind, Except.bind] at h
      | some b =>
          simp [hentries, bind, Except.bind] at h
          split_ifs at h
  | ok entries =>
      rw [← entries_of_mapM hentries]
      cases baseline with
      | none =>
          simp only [hentries, bind, Except.bind, pure, Except.pure, Except.ok.injEq] at h
          rw [← h]
          exact ⟨rfl, rfl⟩
      | some b =>
          simp only [hentries, bind, Except.bind, pure, Except.pure] at h
          split_ifs at h
          cases h
          exact ⟨rfl, rfl⟩

/-- A plan transfers, in manifest order, the chunks that the baseline lacks. -/
theorem compute_eq_ok {baseline : Option ChunkCollection} {current : ChunkCollection}
    {plan : DeltaPlan} (h : compute baseline current = .ok plan) :
    plan.chunksToTransfer = current.chunks.filter fun m ↦ m.LackedBy baseline := by
  rw [DeltaPlan.chunksToTransfer, (entries_of_compute h).2, List.filter_map, List.map_map]
  simp [Function.comp_def]

theorem exists_compute_iff {baseline : Option ChunkCollection} {current : ChunkCollection}
    (hpath : ∀ b ∈ baseline, b.sourcePath = current.sourcePath) :
    (∃ plan, compute baseline current = .ok plan) ↔ ∀ m ∈ current.chunks, m.chunkHash ≠ none := by
  have hentries : (∃ entries, current.chunks.mapM (classify (knownHashes baseline)) =
      .ok entries) ↔ ∀ m ∈ current.chunks, m.chunkHash ≠ none := by
    generalize knownHashes baseline = known
    induction current.chunks with
    | nil => simp [pure, Except.pure]
    | cons m ms ih =>
        rw [List.forall_mem_cons, ← ih, List.mapM_cons]
        cases hm : m.chunkHash with
        | none => simp [classify, requireHash, hm, bind, Except.bind]
        | some hash =>
            cases ms.mapM (classify known) <;>
              simp [classify, requireHash, hm, bind, Except.bind, pure, Except.pure]
  rw [← hentries]
  unfold compute
  cases current.chunks.mapM (classify (knownHashes baseline)) with
  | error e =>
      cases baseline with
      | none => simp [bind, Except.bind]
      | some b => simp [hpath b rfl, bind, Except.bind]
  | ok entries =>
      cases baseline with
      | none => simp [bind, Except.bind, pure, Except.pure]
      | some b => simp [hpath b rfl, bind, Except.bind, pure, Except.pure]

end DeltaCalculator
end SecureSync
