import SecureSync.Infrastructure.StreamingChunkReader

/-!
# Hashed chunks and manifests

The use cases of `chunk_file.py` and `calculate_chunk_hashes.py`, and what it
means for a manifest to describe a file.
-/

namespace SecureSync

/-- The `ChunkHasher` port; SHA-256 itself lies outside the repository. -/
structure ChunkHasher where
  hash : Bytes → ChunkHash

structure ChunkEngine where
  reader : StreamingChunkReader
  hasher : ChunkHasher

inductive ManifestError where
  | source (error : ChunkSourceError)
  | value (error : ChunkValueError)
  deriving DecidableEq, Repr

section Hashing

variable (engine : ChunkEngine) (path : FilePath) (strategy : ChunkingStrategy)
  (content : Option Bytes)

/-- `ChunkFileUseCase.execute`. -/
def executeChunkFile : List Chunk × Option ChunkSourceError :=
  let read := readChunks engine.reader path strategy content
  (read.1.map fun chunk ↦ chunk.withHash (engine.hasher.hash chunk.data), read.2)

/-- `CalculateChunkHashesUseCase.execute`: the bytes are dropped once hashed. -/
def executeCalculateHashes : List ChunkMetadata × Option ChunkSourceError :=
  let read := readChunks engine.reader path strategy content
  (read.1.map fun chunk ↦ chunk.metadata.withHash (engine.hasher.hash chunk.data), read.2)

def buildManifest (chunkSize : ℕ) : Except ManifestError ChunkCollection :=
  match executeCalculateHashes engine path strategy content with
  | (_, some error) => .error (.source error)
  | (collected, none) =>
      match ChunkCollection.make path chunkSize (collected.map ChunkMetadata.size).sum
        collected with
      | .error error => .error (.value error)
      | .ok collection => .ok collection

end Hashing

/-! ## The chunks of a file -/

section Chunks

variable {engine : ChunkEngine} {path : FilePath} {strategy : ChunkingStrategy}

theorem executeCalculateHashes_eq (content : Option Bytes) :
    executeCalculateHashes engine path strategy content =
      ((executeChunkFile engine path strategy content).1.map Chunk.metadata,
        (executeChunkFile engine path strategy content).2) := by
  simp only [executeCalculateHashes, executeChunkFile, List.map_map]
  rfl

variable (engine path) in
theorem executeChunkFile_tiles (hs : strategy.Honours) (content : Bytes) :
    (executeChunkFile engine path strategy (some content)).2 = none ∧
      Tiles 0 0 content (executeChunkFile engine path strategy (some content)).1 := by
  obtain ⟨hnone, htiles⟩ := streamChunks_tiles engine.reader path hs content
  refine ⟨hnone, ?_⟩
  simp only [executeChunkFile, readChunks]
  exact
    { flatten_data := by simpa [List.map_map, Function.comp_def] using htiles.flatten_data
      map_index := by simpa [List.map_map, Function.comp_def] using htiles.map_index
      map_piece := by simpa [List.map_map, Function.comp_def] using htiles.map_piece
      data_ne := by
        intro c hc
        obtain ⟨d, hd, rfl⟩ := List.mem_map.mp hc
        exact htiles.data_ne d hd }

theorem chunkHash_of_mem_executeChunkFile {content : Option Bytes} {c : Chunk}
    (hc : c ∈ (executeChunkFile engine path strategy content).1) :
    c.metadata.chunkHash = some (engine.hasher.hash c.data) := by
  obtain ⟨d, -, rfl⟩ := List.mem_map.mp hc
  rfl

theorem Tiles.sum_size {index offset : ℕ} {content : Bytes} {chunks : List Chunk}
    (h : Tiles index offset content chunks) :
    (chunks.map fun c ↦ c.metadata.size).sum = content.length := by
  rw [← h.flatten_data, List.length_flatten, List.map_map]
  simp only [Function.comp_def, Chunk.length_eq]

theorem Tiles.nodup_index {index offset : ℕ} {content : Bytes} {chunks : List Chunk}
    (h : Tiles index offset content chunks) :
    (chunks.map fun c ↦ c.metadata.index).Nodup := by
  rw [h.map_index]
  exact List.nodup_range'

theorem Tiles.isSlice {content : Bytes} {chunks : List Chunk} (h : Tiles 0 0 content chunks)
    {c : Chunk} (hc : c ∈ chunks) : Overlay.IsSlice content c.piece := by
  apply @Overlay.isSlice_place _ _ 0 (chunks.map Chunk.data)
  · rw [h.flatten_data, List.drop_zero]
  · rw [← h.map_piece]
    exact List.mem_map_of_mem hc

theorem buildManifest_eq_ok_iff {content : Option Bytes} {chunkSize : ℕ} {c : ChunkCollection} :
    buildManifest engine path strategy content chunkSize = .ok c ↔
      (executeChunkFile engine path strategy content).2 = none ∧
        ChunkCollection.make path chunkSize
          (((executeChunkFile engine path strategy content).1.map Chunk.metadata).map
            ChunkMetadata.size).sum
          ((executeChunkFile engine path strategy content).1.map Chunk.metadata) = .ok c := by
  rw [buildManifest, executeCalculateHashes_eq]
  generalize executeChunkFile engine path strategy content = read
  obtain ⟨chunks, _ | error⟩ := read
  · simp only [true_and]
    generalize ChunkCollection.make path chunkSize _ (chunks.map Chunk.metadata) = made
    cases made <;> simp
  · simp

theorem chunks_of_buildManifest {content : Option Bytes} {chunkSize : ℕ} {c : ChunkCollection}
    (h : buildManifest engine path strategy content chunkSize = .ok c) :
    c.chunks = (executeChunkFile engine path strategy content).1.map Chunk.metadata :=
  (ChunkCollection.make_eq_ok (buildManifest_eq_ok_iff.mp h).2).2.2.2

theorem sourcePath_of_buildManifest {content : Option Bytes} {chunkSize : ℕ} {c : ChunkCollection}
    (h : buildManifest engine path strategy content chunkSize = .ok c) : c.sourcePath = path :=
  (ChunkCollection.make_eq_ok (buildManifest_eq_ok_iff.mp h).2).1

theorem exists_of_buildManifest {content : Option Bytes} {chunkSize : ℕ} {c : ChunkCollection}
    (h : buildManifest engine path strategy content chunkSize = .ok c) :
    ∃ bytes, content = some bytes := by
  cases content with
  | none => cases h
  | some bytes => exact ⟨bytes, rfl⟩

theorem exists_buildManifest_iff (hs : strategy.Honours) (content : Bytes) (chunkSize : ℕ) :
    (∃ c, buildManifest engine path strategy (some content) chunkSize = .ok c) ↔
      0 < chunkSize := by
  obtain ⟨hnone, htiles⟩ := executeChunkFile_tiles engine path hs content
  have hindex : ((executeChunkFile engine path strategy (some content)).1.map
      Chunk.metadata).map ChunkMetadata.index = List.range
        ((executeChunkFile engine path strategy (some content)).1.map Chunk.metadata).length := by
    rw [List.map_map, List.length_map, List.range_eq_range']
    exact htiles.map_index
  simp only [buildManifest_eq_ok_iff, hnone, true_and]
  constructor
  · rintro ⟨c, hc⟩
    rw [← (ChunkCollection.make_eq_ok hc).2.1]
    exact c.wellFormed.1
  · intro hpos
    exact ⟨_, dif_pos ⟨hpos, hindex, rfl⟩⟩

/-- Of an existing file a manifest can only fail to be built for a bad cut or
a value that a manifest does not accept. -/
theorem buildManifest_eq_error {content : Bytes} {chunkSize : ℕ} {error : ManifestError}
    (h : buildManifest engine path strategy (some content) chunkSize = .error error) :
    (∃ cut, error = .source (.nonPositiveCut strategy.name cut)) ∨ ∃ e, error = .value e := by
  rw [buildManifest, executeCalculateHashes_eq] at h
  cases hread : (executeChunkFile engine path strategy (some content)).2 with
  | some e =>
      obtain ⟨cut, rfl⟩ := streamChunksFrom_error hread
      rw [hread] at h
      cases h
      exact .inl ⟨cut, rfl⟩
  | none =>
      rw [hread] at h
      simp only at h
      split at h
      · cases h
        exact .inr ⟨_, rfl⟩
      · cases h

end Chunks

/-! ## Accurate manifests -/

def runningOffsets : ℕ → List ℕ → List ℕ
  | _, [] => []
  | offset, size :: sizes => offset :: runningOffsets (offset + size) sizes

/-- The manifest gives the sizes, offsets and digests of exactly these bytes. -/
def ChunkCollection.Describes (c : ChunkCollection) (hasher : ChunkHasher) (content : Bytes) :
    Prop :=
  c.totalSize = content.length ∧
    c.chunks.map ChunkMetadata.offset = runningOffsets 0 (c.chunks.map ChunkMetadata.size) ∧
    ∀ m ∈ c.chunks,
      m.chunkHash = some (hasher.hash ((content.drop m.offset).take m.size))

instance (c : ChunkCollection) (hasher : ChunkHasher) (content : Bytes) :
    Decidable (c.Describes hasher content) :=
  inferInstanceAs (Decidable (_ ∧ _ ∧ _))

theorem map_offset_place (offset : ℕ) (ds : List Bytes) :
    (Overlay.place offset ds).map Overlay.Piece.offset =
      runningOffsets offset (ds.map List.length) := by
  induction ds generalizing offset with
  | nil => rfl
  | cons d ds ih => simp [Overlay.place, runningOffsets, ih]

/-- What `build_manifest` makes of a file describes that file. -/
theorem describes_of_buildManifest {engine : ChunkEngine} {path : FilePath}
    {strategy : ChunkingStrategy} (hs : strategy.Honours) {content : Bytes} {chunkSize : ℕ}
    {c : ChunkCollection}
    (h : buildManifest engine path strategy (some content) chunkSize = .ok c) :
    c.Describes engine.hasher content := by
  obtain ⟨-, htiles⟩ := executeChunkFile_tiles engine path hs content
  obtain ⟨-, -, htotal, hchunks⟩ := ChunkCollection.make_eq_ok (buildManifest_eq_ok_iff.mp h).2
  generalize hread : (executeChunkFile engine path strategy (some content)).1 = chunks
    at htiles htotal hchunks
  refine ⟨?_, ?_, ?_⟩
  · rw [htotal, List.map_map, ← htiles.sum_size]
    rfl
  · have hoffsets := congrArg (List.map Overlay.Piece.offset) htiles.map_piece
    rw [map_offset_place] at hoffsets
    simpa [hchunks, List.map_map, Function.comp_def, Chunk.piece, Chunk.length_eq] using hoffsets
  · intro m hm
    rw [hchunks] at hm
    obtain ⟨chunk, hmem, rfl⟩ := List.mem_map.mp hm
    have hslice := htiles.isSlice hmem
    have hdata : (content.drop chunk.metadata.offset).take chunk.metadata.size = chunk.data := by
      apply List.ext_getElem?
      intro k
      rcases lt_or_ge k chunk.metadata.size with hk | hk
      · rw [List.getElem?_take_of_lt hk, List.getElem?_drop]
        exact hslice k (by simpa [Chunk.piece, chunk.length_eq] using hk)
      · rw [List.getElem?_eq_none ((List.length_take_le ..).trans hk),
          List.getElem?_eq_none (chunk.length_eq.trans_le hk)]
    rw [hdata]
    exact chunkHash_of_mem_executeChunkFile (hread ▸ hmem)

/-! ## SHA-256 of short inputs

The digests and chunk identifiers that the examples of this development
need: of the files `[]`, `[1]`, `[2]` and `[3]`, and of `/srv/sync/a.txt`. -/

def digestOfNil : ChunkHash :=
  ⟨.sha256, "e3b0c44298fc1c149afbf4c8996fb92427ae41e4649b934ca495991b7852b855", by decide⟩

def digestOf1 : ChunkHash :=
  ⟨.sha256, "4bf5122f344554c53bde2ebb8cd2b7e3d1600ad631c385a5d7cce23c7785459a", by decide⟩

def digestOf2 : ChunkHash :=
  ⟨.sha256, "dbc1b4c900ffe48d575b5da5c638040125f65db0fe3e24494b76ea986457d986", by decide⟩

def digestOf3 : ChunkHash :=
  ⟨.sha256, "084fed08b978af4d7d196a7446a86b58009e636b611db16211b65a9aadff29c5", by decide⟩

def sampleHasher : ChunkHasher where
  hash data :=
    if data = [1] then digestOf1 else if data = [2] then digestOf2
    else if data = [3] then digestOf3 else digestOfNil

def sampleReader : StreamingChunkReader where
  deriveChunkId _ index :=
    match index with
    | 0 => ⟨"dac5e54d-5747-561c-b755-bc074d809801", by decide⟩
    | 1 => ⟨"ad7144e6-7a98-5a57-8e7c-6ec9ea356558", by decide⟩
    | _ => ⟨"1d0611fb-ab70-5a02-b098-b1ae2f4202b0", by decide⟩

def sampleEngine : ChunkEngine := ⟨sampleReader, sampleHasher⟩

def samplePath : FilePath := ["srv", "sync", "a.txt"]

def byteStrategy : FixedSizeChunkingStrategy := ⟨1, by decide⟩

def sampleManifest (content : Bytes) : ChunkCollection :=
  match buildManifest sampleEngine samplePath byteStrategy.toStrategy (some content) 1 with
  | .ok collection => collection
  | .error _ => ⟨samplePath, 1, 0, [], by decide⟩

example : (sampleManifest [2, 1]).chunks.map (fun m ↦ (m.offset, m.size, m.chunkHash)) =
    [(0, 1, some digestOf2), (1, 1, some digestOf1)] := by decide

end SecureSync
