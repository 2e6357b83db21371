import SecureSync.Application.HashChunks
import SecureSync.Domain.Delta

/-!
# Delta plans

A plan against the manifest of an old file: what it leaves out can be read back
from the old file, however the two files were cut.
-/

namespace SecureSync

/-- The bytes of a file that a chunk of its manifest stands for. -/
def ChunkMetadata.sliceOf (m : ChunkMetadata) (content : Bytes) : Bytes :=
  (content.drop m.offset).take m.size

theorem flatten_slices_of_offsets {content : Bytes} {ms : List ChunkMetadata} {offset : ℕ}
    (hoffsets : ms.map ChunkMetadata.offset =
      runningOffsets offset (ms.map ChunkMetadata.size)) :
    (ms.map fun m ↦ m.sliceOf content).flatten =
      (content.drop offset).take (ms.map ChunkMetadata.size).sum := by
  induction ms generalizing offset with
  | nil => simp
  | cons m ms ih =>
      obtain ⟨hoffset, hlater⟩ := List.cons.inj hoffsets
      rw [List.map_cons, List.flatten_cons, ih hlater, List.map_cons, List.sum_cons,
        List.take_add, List.drop_drop]
      simp only [ChunkMetadata.sliceOf, hoffset]

/-- The chunks of a manifest make up the file it describes. -/
theorem ChunkCollection.Describes.flatten_slices {c : ChunkCollection} {hasher : ChunkHasher}
    {content : Bytes} (h : c.Describes hasher content) :
    (c.chunks.map fun m ↦ m.sliceOf content).flatten = content := by
  obtain ⟨htotal, hoffsets, -⟩ := h
  rw [flatten_slices_of_offsets hoffsets, List.drop_zero, c.wellFormed.2.2, htotal,
    List.take_length]

/-- No two chunks of the two manifests collide. -/
def CollisionFree (hasher : ChunkHasher) (oldContent newContent : Bytes)
    (baseline current : ChunkCollection) : Prop :=
  ∀ b ∈ baseline.chunks, ∀ m ∈ current.chunks,
    hasher.hash (b.sliceOf oldContent) = hasher.hash (m.sliceOf newContent) →
      b.sliceOf oldContent = m.sliceOf newContent

/-- The new file from the old one, the two manifests and the bytes that were sent: a
chunk whose digest the old manifest knows is read from the old file, any other one is
the next that was sent. -/
def rebuild (oldContent : Bytes) (baseline : ChunkCollection) :
    List ChunkMetadata → List Bytes → Bytes
  | [], _ => []
  | m :: ms, sent =>
      match baseline.chunks.find? fun b ↦ b.chunkHash = m.chunkHash, sent with
      | some b, sent => b.sliceOf oldContent ++ rebuild oldContent baseline ms sent
      | none, [] => []
      | none, data :: sent => data ++ rebuild oldContent baseline ms sent

section Matching

variable {hasher : ChunkHasher} {oldContent newContent : Bytes}
  {baseline current : ChunkCollection}

theorem mem_knownHashes {h : ChunkHash} :
    h ∈ DeltaCalculator.knownHashes (some baseline) ↔
      ∃ b ∈ baseline.chunks, b.chunkHash = some h := by
  simp [DeltaCalculator.knownHashes]

theorem lackedBy_iff {m : ChunkMetadata} {h : ChunkHash} (hm : m.chunkHash = some h) :
    m.LackedBy (some baseline) ↔ ∀ b ∈ baseline.chunks, b.chunkHash ≠ m.chunkHash := by
  simp [ChunkMetadata.LackedBy, hm, mem_knownHashes]

/-- A digest in both manifests stands for the same bytes. -/
theorem sliceOf_eq (hold : baseline.Describes hasher oldContent)
    (hnew : current.Describes hasher newContent)
    (hfree : CollisionFree hasher oldContent newContent baseline current)
    {b m : ChunkMetadata} (hb : b ∈ baseline.chunks) (hm : m ∈ current.chunks)
    (h : b.chunkHash = m.chunkHash) : b.sliceOf oldContent = m.sliceOf newContent := by
  apply hfree b hb m hm
  apply Option.some.inj
  rw [ChunkMetadata.sliceOf, ChunkMetadata.sliceOf, ← hold.2.2 b hb, ← hnew.2.2 m hm, h]

/-- What is not sent is in the old file. -/
theorem lackedBy_or_known (hold : baseline.Describes hasher oldContent)
    (hnew : current.Describes hasher newContent)
    (hfree : CollisionFree hasher oldContent newContent baseline current) {m : ChunkMetadata}
    (hm : m ∈ current.chunks) :
    m.LackedBy (some baseline) ∨ ∃ b ∈ baseline.chunks, b.chunkHash = m.chunkHash ∧
      b.sliceOf oldContent = m.sliceOf newContent := by
  by_cases hlacked : m.LackedBy (some baseline)
  · exact .inl hlacked
  · rw [lackedBy_iff (hnew.2.2 m hm)] at hlacked
    push Not at hlacked
    obtain ⟨b, hb, heq⟩ := hlacked
    exact .inr ⟨b, hb, heq, sliceOf_eq hold hnew hfree hb hm heq⟩

theorem rebuild_lacked (hold : baseline.Describes hasher oldContent)
    (hnew : current.Describes hasher newContent)
    (hfree : CollisionFree hasher oldContent newContent baseline current)
    {ms : List ChunkMetadata} (hms : ms ⊆ current.chunks) :
    rebuild oldContent baseline ms
        ((ms.filter fun m ↦ m.LackedBy (some baseline)).map fun m ↦ m.sliceOf newContent) =
      (ms.map fun m ↦ m.sliceOf newContent).flatten := by
  induction ms with
  | nil => rfl
  | cons m ms ih =>
      have hm : m ∈ current.chunks := hms List.mem_cons_self
      have hlater := ih fun k hk ↦ hms (List.mem_cons_of_mem m hk)
      have hlacked : m.LackedBy (some baseline) ↔
          ∀ b ∈ baseline.chunks, b.chunkHash ≠ m.chunkHash := lackedBy_iff (hnew.2.2 m hm)
      cases hfind : baseline.chunks.find? fun b ↦ b.chunkHash = m.chunkHash with
      | none =>
          have hnone : m.LackedBy (some baseline) := by
            apply hlacked.mpr
            simpa using hfind
          simp only [List.filter_cons, hnone, decide_true, if_true, List.map_cons, rebuild, hfind,
            List.flatten_cons, hlater]
      | some b =>
          have hsome : b.chunkHash = m.chunkHash := by simpa using List.find?_some hfind
          have hb := List.mem_of_find?_eq_some hfind
          have hknown : ¬ m.LackedBy (some baseline) := by
            rw [hlacked]
            exact fun hne ↦ hne b hb hsome
          simp only [List.filter_cons, hknown, decide_false, List.map_cons, rebuild, hfind,
            List.flatten_cons, Bool.false_eq_true, if_false, hlater,
            sliceOf_eq hold hnew hfree hb hm hsome]

end Matching

/-! ## The totals of a plan -/

namespace DeltaPlan

theorem transferCount_eq (plan : DeltaPlan) :
    plan.transferCount = plan.entries.countP fun entry ↦ entry.action = .transfer := by
  rw [transferCount, chunksToTransfer, List.length_map, List.countP_eq_length_filter]

theorem bytesToTransfer_eq (plan : DeltaPlan) :
    plan.bytesToTransfer = ((plan.entries.filter fun entry ↦ entry.action = .transfer).map
      fun entry ↦ entry.metadata.size).sum := by
  rw [bytesToTransfer, chunksToTransfer, List.map_map]
  rfl

theorem countP_actions (entries : List ChunkDeltaEntry) :
    entries.countP (fun entry ↦ entry.action = .transfer) +
      entries.countP (fun entry ↦ entry.action = .reuse) = entries.length := by
  rw [List.length_eq_countP_add_countP fun entry : ChunkDeltaEntry ↦ entry.action = .transfer]
  congr 1
  apply List.countP_congr
  intro entry _
  cases entry.action <;> simp

/-- Every byte of the file is counted with one of the two actions. -/
theorem sum_sizes_actions (entries : List ChunkDeltaEntry) :
    ((entries.filter fun entry ↦ entry.action = .transfer).map
        fun entry ↦ entry.metadata.size).sum +
      ((entries.filter fun entry ↦ entry.action = .reuse).map
        fun entry ↦ entry.metadata.size).sum =
      (entries.map fun entry ↦ entry.metadata.size).sum := by
  induction entries with
  | nil => rfl
  | cons entry entries ih =>
      cases haction : entry.action <;> simp [haction, ← ih] <;> omega

end DeltaPlan

/-- The old file, the manifests and what a plan transfers give the new file; nothing is
transferred that the old manifest knows. -/
theorem compute_sufficient_minimal (hasher : ChunkHasher) (oldContent newContent : Bytes)
    (baseline current : ChunkCollection) (hpath : baseline.sourcePath = current.sourcePath)
    (hold : baseline.Describes hasher oldContent) (hnew : current.Describes hasher newContent)
    (hfree : CollisionFree hasher oldContent newContent baseline current) :
    ∃ plan, DeltaCalculator.compute (some baseline) current = .ok plan ∧
      rebuild oldContent baseline current.chunks
        (plan.chunksToTransfer.map fun m ↦ m.sliceOf newContent) = newContent ∧
      (∀ m ∈ current.chunks, m ∈ plan.chunksToTransfer ∨
        ∃ b ∈ baseline.chunks, b.chunkHash = m.chunkHash ∧
          b.sliceOf oldContent = m.sliceOf newContent) ∧
      (∀ entry ∈ plan.entries, entry.action = .transfer ↔
        ∀ b ∈ baseline.chunks, b.chunkHash ≠ entry.metadata.chunkHash) ∧
      plan.entries.map ChunkDeltaEntry.metadata = current.chunks ∧
      plan.transferCount = plan.entries.countP (fun entry ↦ entry.action = .transfer) ∧
      plan.reuseCount = plan.entries.countP (fun entry ↦ entry.action = .reuse) ∧
      plan.transferCount + plan.reuseCount = current.chunkCount ∧
      plan.bytesToTransfer = ((plan.entries.filter fun entry ↦ entry.action = .transfer).map
        fun entry ↦ entry.metadata.size).sum ∧
      plan.bytesToTransfer + ((plan.entries.filter fun entry ↦ entry.action = .reuse).map
        fun entry ↦ entry.metadata.size).sum = newContent.length := by
  obtain ⟨plan, hplan⟩ : ∃ plan, DeltaCalculator.compute (some baseline) current = .ok plan := by
    apply (DeltaCalculator.exists_compute_iff (by simpa using hpath)).mpr
    intro m hm
    simp [hnew.2.2 m hm]
  obtain ⟨hcurrent, hentries⟩ := DeltaCalculator.entries_of_compute hplan
  have htransfer := DeltaCalculator.compute_eq_ok hplan
  have hmetadata : plan.entries.map ChunkDeltaEntry.metadata = current.chunks := by
    simp [hentries, Function.comp_def]
  have hlength : plan.entries.length = current.chunkCount := by
    rw [hentries, List.length_map, ChunkCollection.chunkCount]
  have hcount := DeltaPlan.countP_actions plan.entries
  refine ⟨plan, hplan, ?_, ?_, ?_, hmetadata, plan.transferCount_eq, ?_, ?_,
    plan.bytesToTransfer_eq, ?_⟩
  · rw [htransfer, rebuild_lacked hold hnew hfree (List.Subset.refl _), hnew.flatten_slices]
  · intro m hm
    rw [htransfer, List.mem_filter]
    exact (lackedBy_or_known hold hnew hfree hm).imp_left
      fun hlacked ↦ ⟨hm, decide_eq_true hlacked⟩
  · intro entry hentry
    rw [hentries] at hentry
    obtain ⟨m, hm, rfl⟩ := List.mem_map.mp hentry
    rw [← lackedBy_iff (hnew.2.2 m hm)]
    by_cases hlacked : m.LackedBy (some baseline) <;> simp [hlacked]
  · rw [DeltaPlan.reuseCount, hcurrent, plan.transferCount_eq]
    omega
  · rw [DeltaPlan.reuseCount, hcurrent]
    omega
  · rw [plan.bytesToTransfer_eq, DeltaPlan.sum_sizes_actions, ← hnew.1,
      ← current.wellFormed.2.2, ← hmetadata, List.map_map]
    rfl

/-- A byte that moved to the front is not sent again. -/
theorem compute_sufficient_minimal_moved :
    ∃ plan, DeltaCalculator.compute (some (sampleManifest [2, 1])) (sampleManifest [1, 3]) =
        .ok plan ∧
      rebuild [2, 1] (sampleManifest [2, 1]) (sampleManifest [1, 3]).chunks
        (plan.chunksToTransfer.map fun m ↦ m.sliceOf [1, 3]) = [1, 3] := by
  have hfree : CollisionFree sampleHasher [2, 1] [1, 3] (sampleManifest [2, 1])
      (sampleManifest [1, 3]) := by
    unfold CollisionFree
    decide
  obtain ⟨plan, hplan, hrebuild, -⟩ := compute_sufficient_minimal sampleHasher [2, 1] [1, 3]
    (sampleManifest [2, 1]) (sampleManifest [1, 3]) (by decide) (by decide) (by decide) hfree
  exact ⟨plan, hplan, hrebuild⟩

end SecureSync
