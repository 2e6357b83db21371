import SecureSync.Sync.Runs
import Mathlib.Algebra.Order.BigOperators.Group.List
import Mathlib.Algebra.Order.Group.Nat

/-!
# What a pull does to the local file

A pull writes into the local file itself whatever the peer returns.  What it
asks for are digests, wherever the local file has them, and it never shortens
the file.
-/

namespace SecureSync

open Raising

namespace SyncRun

variable {W : Type} (run : SyncRun W)

def fetched (c : ChunkCollection) (peerContent : Bytes) : List (Overlay.Piece UInt8) :=
  (c.chunks.filter run.lacks).map fun m ↦ ⟨m.offset, (peerContent.drop m.offset).take m.size⟩

variable {run} {c current : ChunkCollection} {plan : DeltaPlan}

theorem filter_requested (c : ChunkCollection) :
    (c.chunks.filter fun m ↦ m.chunkHash.any fun h ↦ h.digest ∈ run.requested c) =
      c.chunks.filter run.lacks := by
  apply List.filter_congr
  intro m hm
  cases hhash : m.chunkHash with
  | none => simp [lacks, hhash]
  | some h =>
      rw [Option.any_some, Bool.eq_iff_iff, decide_eq_true_iff, requested,
        List.mem_map_of_injective ChunkHash.digest_injective, List.mem_filterMap]
      constructor
      · rintro ⟨m', hm', hhash'⟩
        have hlacks := (List.mem_filter.mp hm').2
        rw [lacks, hhash'] at hlacks
        rwa [lacks, hhash]
      · intro hlacks
        exact ⟨m, List.mem_filter.mpr ⟨hm, hlacks⟩, hhash⟩

theorem returned_exchange {server : ManifestServer} {peerPath : FilePath} {w : W}
    (hserver : ∀ hashes, run.settings.manifestExchange.requestChunks run.peer run.relativePath
      hashes w = (server.exchange W).requestChunks run.peer run.relativePath hashes w)
    (hpath : server.safeResolve run.relativePath = .ok peerPath)
    (hload : server.repository.load server.resolver peerPath = some c)
    (hcurrent : current.chunks = run.chunks.map Chunk.metadata)
    (hplan : DeltaCalculator.compute (some current) (c.withSourcePath run.path) = .ok plan)
    (h : (run.settings.returned run.peer run.relativePath plan w).2 = none) :
    (run.settings.returned run.peer run.relativePath plan w).1.map Chunk.piece =
      run.fetched c ((server.files peerPath).getD []) := by
  rw [returned_eq hcurrent hplan, hserver] at h
  rw [returned_eq hcurrent hplan, hserver]
  split_ifs at h ⊢ with hnone
  · rw [fetched, (requested_eq_nil_iff c).mp hnone]
    rfl
  · cases hfile : server.files peerPath with
    | none =>
        have hmissing : server.buildChunkResponse run.relativePath (run.requested c) =
            .error (.fileMissing peerPath) := by
          simp only [ManifestServer.buildChunkResponse, hpath, hload, hfile, bind, Except.bind]
          rfl
        simp [ManifestServer.exchange, hmissing] at h
    | some peerContent =>
        rw [ManifestServer.requestChunks_exchange hpath hload hfile _ _ _ h, filter_requested]
        rfl

end SyncRun

/-! ## Convergence -/

section

variable {W : Type} {run : SyncRun W} {c : ChunkCollection}

/-- With an honest peer the file ends as the peer's exactly when the chunks
fetched complete what was there, or none was and it was the same. -/
theorem file_eq_peer_iff {server : ManifestServer} {peerPath : FilePath} {peerContent : Bytes}
    {result : SyncFileResult} {s' : SyncState W}
    (hserver : run.settings.manifestExchange = server.exchange W)
    (hpath : server.safeResolve run.relativePath = .ok peerPath)
    (hload : server.repository.load server.resolver peerPath = some c)
    (hfile : server.files peerPath = some peerContent) (hpulled : run.pulled = .ok result s') :
    s'.storage.files (run.settings.located run.path) = some peerContent ↔
      run.fetched c peerContent = [] ∧ run.content = some peerContent ∨
        run.fetched c peerContent ≠ [] ∧
          Overlay.Completes 0 (run.content.getD []) peerContent (run.fetched c peerContent) := by
  obtain ⟨answer, w, hanswer, hdone⟩ := pull_eq_ok hpulled
  rw [hserver, ManifestServer.requestManifest_exchange hpath hload] at hanswer
  cases hanswer
  obtain ⟨current, plan, final, hcurrent, hplan, herror, hstorage, -, -⟩ := hdone
  have hpieces := SyncRun.returned_exchange (fun _ ↦ by rw [hserver]) hpath hload
    (SyncRun.chunks_of_localManifest hcurrent) hplan herror
  rw [hfile, Option.getD_some] at hpieces
  have hslices : ∀ p ∈ run.fetched c peerContent, Overlay.IsSlice peerContent p := by
    intro p hp
    obtain ⟨m, -, rfl⟩ := List.mem_map.mp hp
    exact Overlay.isSlice_drop_take peerContent m.offset m.size
  have hcontent : run.state.storage.files (run.settings.located run.path) = run.content := rfl
  have hlocated : run.settings.located (joinPath run.syncRoot run.relativePath) =
      run.settings.located run.path := rfl
  rw [hstorage, hlocated, Storage.files_storeAll_self, hcontent, hpieces]
  have hnil := List.map_eq_nil_iff (f := Chunk.piece)
    (l := (run.settings.returned run.peer run.relativePath plan run.state.world).1)
  rw [hpieces] at hnil
  split_ifs with hnone
  · simp [hnil.mpr hnone]
  · rw [Option.some_inj, Overlay.writeAll_eq_iff 0 hslices]
    simp [mt hnil.mp hnone]

end

def sampleServer (content : Bytes) : ManifestServer where
  resolver := .plain
  syncRoot := sampleRoot
  repository path := if path = samplePath then some (sampleManifest content) else none
  files path := if path = samplePath then some content else none

def samplePull (content : Option Bytes) (peerContent : Bytes) : SyncRun Unit :=
  sampleRun content none ((sampleServer peerContent).exchange Unit) fun _ ↦ 0

theorem file_eq_peer_sample :
    let run := samplePull (some [1]) [1, 2]
    (stateOf run.pulled).storage.files (run.settings.located run.path) = some [1, 2] ↔
      run.fetched (sampleManifest [1, 2]) [1, 2] = [] ∧ run.content = some [1, 2] ∨
        run.fetched (sampleManifest [1, 2]) [1, 2] ≠ [] ∧
          Overlay.Completes 0 (run.content.getD []) [1, 2]
            (run.fetched (sampleManifest [1, 2]) [1, 2]) := by
  intro run
  have hcompleted : Completed run.pulled := by decide
  obtain ⟨result, s', hpulled⟩ := hcompleted.exists_ok
  have hfile := @file_eq_peer_iff Unit run (sampleManifest [1, 2]) (sampleServer [1, 2]) samplePath
    [1, 2] result s' rfl (by decide) (by decide) (by decide) hpulled
  rwa [hpulled]

/-- The local file has both chunks in the other order: the manifest served is
accurate, nothing is fetched, and the file stays. -/
theorem moved_blocks_are_not_pulled :
    let run := samplePull (some [2, 1]) [1, 2]
    (sampleManifest [1, 2]).Describes sampleHasher [1, 2] ∧ run.content = some [2, 1] ∧
      Completed run.pulled ∧
      (stateOf run.pulled).storage.files (run.settings.located run.path) = some [2, 1] :=
  ⟨by decide, content_sampleRun .., by decide, by decide⟩

/-! ## Verification -/

def writesTo (path : Path) (ops : List FsOp) : List Chunk :=
  ops.filterMap fun
    | .write target chunk => if target = path then some chunk else none
    | _ => none

theorem writesTo_map_write (path : Path) (chunks : List Chunk) :
    writesTo path (chunks.map (FsOp.write path)) = chunks := by
  rw [writesTo, List.filterMap_map]
  simp

namespace SyncRun

variable {W : Type} (run : SyncRun W)

/-- The bytes are those that the digest promises, the digest was asked for, and
the manifest has a chunk with this digest at this place. -/
structure Verified (c : ChunkCollection) (chunk : Chunk) : Prop where
  hash_eq : chunk.metadata.chunkHash = some (run.settings.engine.hasher.hash chunk.data)
  digest_mem : ∃ digest ∈ chunk.digest?, digest ∈ run.requested c
  range_eq : ∃ m ∈ c.chunks, m.chunkHash = chunk.metadata.chunkHash ∧
    m.offset = chunk.metadata.offset ∧ m.size = chunk.metadata.size

/-- The same run when the request for chunks is answered by these payloads. -/
def answering (payloads : List ChunkPayload) : SyncRun W :=
  { run with
    settings := { run.settings with
      manifestExchange := { run.settings.manifestExchange with
        requestChunks := fun _ _ _ w ↦ (decodeChunks payloads, w) } } }

/-- The chunks that the pull writes into the local file, whether or not it
completes. -/
def written : List Chunk :=
  writesTo (run.settings.located run.path)
    ((stateOf run.pulled).storage.journal.drop run.state.storage.journal.length)

end SyncRun

section

variable {W : Type} {run : SyncRun W} {m : ManifestWithVersion}

theorem SyncRun.exists_localManifest_iff (run : SyncRun W) :
    (∃ current, run.settings.onDisk.localManifestOrEmpty run.path run.strategy run.chunkSize
      run.state = .ok current run.state) ↔ 0 < run.chunkSize := by
  cases hcontent : run.content with
  | some content =>
      rw [← exists_buildManifest_iff run.honours content run.chunkSize]
      constructor
      · rintro ⟨current, hcurrent⟩
        obtain ⟨-, -, ⟨bytes, hbytes, hbuild⟩ | ⟨hnone, -⟩⟩ := localManifestOrEmpty_eq_ok hcurrent
        · cases hcontent.symm.trans hbytes
          exact ⟨current, hbuild⟩
        · cases hcontent.symm.trans hnone
      · rintro ⟨current, hbuild⟩
        exact ⟨current, localManifestOrEmpty_of_build hcontent hbuild⟩
  | none =>
      rw [localManifestOrEmpty_of_no_content hcontent]
      simp only [orRaise_eq_ok, and_true]
      constructor
      · rintro ⟨current, hmake⟩
        rw [← (ChunkCollection.make_eq_ok hmake).2.1]
        exact current.wellFormed.1
      · intro hpos
        exact ⟨_, dif_pos ⟨hpos, rfl, rfl⟩⟩

theorem SyncRun.written_answering (hanswer : run.Answers (some m)) (hpos : 0 < run.chunkSize)
    (hhashed : ∀ k ∈ m.collection.chunks, k.chunkHash ≠ none) (payloads : List ChunkPayload) :
    (run.answering payloads).written =
      if run.requested m.collection = [] then [] else (decodeChunks payloads).1 := by
  obtain ⟨w, hanswer⟩ := hanswer
  obtain ⟨current, hcurrent⟩ := run.exists_localManifest_iff.mpr hpos
  have hpath : ∀ b ∈ some current, b.sourcePath =
      (m.collection.withSourcePath run.path).sourcePath := by
    intro b hb
    cases hb
    exact (localManifestOrEmpty_eq_ok hcurrent).2.1
  obtain ⟨plan, hplan⟩ := (DeltaCalculator.exists_compute_iff hpath).mpr hhashed
  have hstorage : (stateOf (run.answering payloads).pulled).storage =
      run.state.storage.storeAll (run.settings.located run.path)
        ((run.answering payloads).settings.returned run.peer run.relativePath plan w).1 :=
    @pull_storage W (run.answering payloads).settings run.peer run.syncRoot run.relativePath
      run.strategy run.chunkSize run.state current m plan w hcurrent hanswer hplan
  have hreturned : ((run.answering payloads).settings.returned run.peer run.relativePath plan
      w).1 = if run.requested m.collection = [] then [] else (decodeChunks payloads).1 := by
    have hreturned := @SyncRun.returned_eq W (run.answering payloads) m.collection current plan w
      (SyncRun.chunks_of_localManifest hcurrent) hplan
    exact (congrArg Prod.fst hreturned).trans (apply_ite Prod.fst _ _ _)
  have hlocated : (run.answering payloads).settings.located (run.answering payloads).path =
      run.settings.located run.path := rfl
  have hstate : (run.answering payloads).state = run.state := rfl
  rw [SyncRun.written, hstorage, Storage.journal_storeAll, hstate, List.drop_left, hlocated,
    writesTo_map_write, hreturned]

theorem SyncRun.written_of_no_plan (hanswer : run.Answers (some m))
    (h : run.chunkSize = 0 ∨ ∃ k ∈ m.collection.chunks, k.chunkHash = none)
    (payloads : List ChunkPayload) : (run.answering payloads).written = [] := by
  obtain ⟨w, hanswer⟩ := hanswer
  have hstorage : (stateOf (run.answering payloads).pulled).storage = run.state.storage := by
    refine @storage_pull_of_no_plan W run.peer run.syncRoot run.relativePath run.strategy
      run.chunkSize run.state (run.answering payloads).settings.onDisk
        fun current m' w' plan hcurrent hanswer' hplan ↦ ?_
    cases hanswer.symm.trans hanswer'
    rcases h with hzero | ⟨k, hk, hnone⟩
    · have hpos := run.exists_localManifest_iff.mp ⟨current, hcurrent⟩
      omega
    · have hpath : ∀ b ∈ some current, b.sourcePath =
          (m.collection.withSourcePath run.path).sourcePath := by
        intro b hb
        cases hb
        exact (localManifestOrEmpty_eq_ok hcurrent).2.1
      exact (DeltaCalculator.exists_compute_iff hpath).mp ⟨plan, hplan⟩ k hk hnone
  have hstate : (run.answering payloads).state = run.state := rfl
  rw [SyncRun.written, hstorage, hstate, List.drop_length]
  rfl

/-- Only a pull that asks for nothing is safe from what the peer returns. -/
theorem writes_verified_iff (hanswer : run.Answers (some m)) :
    (∀ payloads, (decodeChunks payloads).2 = none →
        ∀ chunk ∈ (run.answering payloads).written, run.Verified m.collection chunk) ↔
      run.chunkSize = 0 ∨ (∃ k ∈ m.collection.chunks, k.chunkHash = none) ∨
        run.requested m.collection = [] := by
  rw [← or_assoc]
  by_cases hplan : run.chunkSize = 0 ∨ ∃ k ∈ m.collection.chunks, k.chunkHash = none
  · refine iff_of_true (fun payloads _ chunk hchunk ↦ ?_) (.inl hplan)
    rw [SyncRun.written_of_no_plan hanswer hplan] at hchunk
    cases hchunk
  · rw [or_iff_right hplan]
    obtain ⟨hpos, hhashed⟩ : 0 < run.chunkSize ∧
        ∀ k ∈ m.collection.chunks, k.chunkHash ≠ none := by
      push Not at hplan
      exact ⟨Nat.pos_of_ne_zero hplan.1, hplan.2⟩
    simp only [SyncRun.written_answering hanswer hpos hhashed]
    constructor
    · intro h
      by_contra hasks
      obtain ⟨digest, hdigest⟩ := List.exists_mem_of_ne_nil _ hasks
      obtain ⟨chunkHash, -, rfl⟩ := List.mem_map.mp hdigest
      -- a payload under this digest, at an offset where the manifest has no chunk
      obtain ⟨chunk, hdecode, hoffset⟩ := chunkFromPayload_of_digest chunkHash
        ((m.collection.chunks.map ChunkMetadata.offset).sum + 1)
      have hchunks : decodeChunks [⟨"x", 0, 0,
          ((m.collection.chunks.map ChunkMetadata.offset).sum + 1 : ℕ), "sha256",
          chunkHash.digest, []⟩] = ([chunk], none) := by
        simp only [decodeChunks, hdecode]
      have hverified := h _ (congrArg Prod.snd hchunks) chunk
        (by rw [if_neg hasks, hchunks]; exact List.mem_singleton_self chunk)
      obtain ⟨k, hk, -, hsame, -⟩ := hverified.range_eq
      have hle := List.le_sum_of_mem (List.mem_map_of_mem (f := ChunkMetadata.offset) hk)
      omega
    · intro hnone payloads _ chunk hchunk
      rw [if_pos hnone] at hchunk
      cases hchunk

end

theorem writes_verified_sample :
    (∀ payloads, (decodeChunks payloads).2 = none →
        ∀ chunk ∈ ((samplePull (some [1]) [1, 2]).answering payloads).written,
          (samplePull (some [1]) [1, 2]).Verified (sampleManifest [1, 2]) chunk) ↔
      (samplePull (some [1]) [1, 2]).chunkSize = 0 ∨
        (∃ k ∈ (sampleManifest [1, 2]).chunks, k.chunkHash = none) ∨
          (samplePull (some [1]) [1, 2]).requested (sampleManifest [1, 2]) = [] := by
  have hpath : (sampleServer [1, 2]).safeResolve "a.txt" = .ok samplePath := by decide
  have hload : (sampleServer [1, 2]).repository.load (sampleServer [1, 2]).resolver samplePath =
      some (sampleManifest [1, 2]) := by decide
  have hanswer : (samplePull (some [1]) [1, 2]).Answers (some ⟨sampleManifest [1, 2], none⟩) :=
    ⟨(), ManifestServer.requestManifest_exchange hpath hload samplePeer ()⟩
  exact writes_verified_iff hanswer

/-- The digest of `[1]` was asked for, and `[3]` is returned under it. -/
theorem forged_chunk_is_written :
    let payloads : List ChunkPayload := [⟨"x", 0, 1, 0, "sha256", digestOf1.digest, [3]⟩]
    let run := (samplePull none [1]).answering payloads
    (decodeChunks payloads).2 = none ∧ Completed run.pulled ∧
      (stateOf run.pulled).storage.files (run.settings.located run.path) = some [3] ∧
      ∃ chunk ∈ run.written, ¬ (samplePull none [1]).Verified (sampleManifest [1]) chunk := by
  intro payloads run
  have hforged : ∃ chunk ∈ run.written,
      chunk.metadata.chunkHash ≠ some (sampleHasher.hash chunk.data) := by decide
  obtain ⟨chunk, hchunk, hhash⟩ := hforged
  exact ⟨by decide, by decide, by decide, chunk, hchunk, fun h ↦ hhash h.hash_eq⟩

end SecureSync
