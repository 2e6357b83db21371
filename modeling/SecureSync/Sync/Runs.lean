import SecureSync.Sync.Transfers

/-!
# Runs of the sync use case

One call of the use case on one file, with all that it is given.
-/

namespace SecureSync

open Raising
open scoped List

structure SyncRun (W : Type) where
  settings : SyncFileSettings W
  peer : Peer
  syncRoot : FilePath
  relativePath : String
  strategy : ChunkingStrategy
  honours : strategy.Honours
  chunkSize : ℕ
  state : SyncState W

namespace SyncRun

variable {W : Type} (run : SyncRun W)

def path : FilePath := joinPath run.syncRoot run.relativePath

def content : Option Bytes := run.settings.onDisk.contentAt run.path run.state

/-- The peer's answer to the first request of the run. -/
def Answers (answer : Option ManifestWithVersion) : Prop :=
  ∃ w, run.settings.manifestExchange.requestManifest run.peer run.relativePath run.state.world =
    .ok answer w

def pushed : EStateM.Result SyncError (SyncState W) SyncFileResult :=
  run.settings.onDisk.push run.peer run.syncRoot run.relativePath run.strategy run.chunkSize
    run.state

def pulled : EStateM.Result SyncError (SyncState W) SyncFileResult :=
  run.settings.onDisk.pull run.peer run.syncRoot run.relativePath run.strategy run.chunkSize
    run.state

def chosen : EStateM.Result SyncError (SyncState W) SyncFileUseCase.SyncAction :=
  run.settings.onDisk.chooseAction run.peer run.syncRoot run.relativePath run.strategy
    run.chunkSize lastWriterWinsStrategy run.state

/-- The messages that a push sends, whether or not it completes. -/
def sent : List IncomingPush := (stateOf run.pushed).outbox.drop run.state.outbox.length

def chunks : List Chunk :=
  (executeChunkFile run.settings.engine run.path run.strategy run.content).1

/-- The chunks of the file that an answer lacks. -/
def missing (answer : Option ManifestWithVersion) : List Chunk :=
  run.chunks.filter fun chunk ↦
    chunk.metadata.LackedBy (answer.map ManifestWithVersion.collection)

/-- The run sees this manifest and version here, and those at the peer. -/
def Compares (localCollection : ChunkCollection) (localVersion : Option VersionVector)
    (remoteCollection : ChunkCollection) (remoteVersion : Option VersionVector) : Prop :=
  ∃ w w',
    run.settings.onDisk.localManifestOrEmpty run.path run.strategy run.chunkSize run.state =
      .ok localCollection run.state ∧
    run.settings.onDisk.localVersion run.relativePath run.state =
      .ok localVersion { run.state with world := w } ∧
    run.settings.manifestExchange.requestManifest run.peer run.relativePath w =
      .ok (some ⟨remoteCollection, remoteVersion⟩) w'

variable {run}

theorem Answers.unique {answer answer' : Option ManifestWithVersion} (h : run.Answers answer)
    (h' : run.Answers answer') : answer = answer' := by
  obtain ⟨w, h⟩ := h
  obtain ⟨w', h'⟩ := h'
  cases h.symm.trans h'
  rfl

theorem missing_eq {content : Bytes} (hcontent : run.content = some content)
    (answer : Option ManifestWithVersion) :
    run.missing answer = missingChunks run.settings.engine run.path run.strategy content
      (answer.map ManifestWithVersion.collection) := by
  rw [missing, chunks, hcontent]
  rfl

theorem tiles_chunks {content : Bytes} (hcontent : run.content = some content) :
    Tiles 0 0 content run.chunks := by
  rw [chunks, hcontent]
  exact (executeChunkFile_tiles _ _ run.honours content).2

theorem nodup_index_missing (answer : Option ManifestWithVersion) :
    ((run.missing answer).map fun chunk ↦ chunk.metadata.index).Nodup := by
  cases hcontent : run.content with
  | none => simp [missing, chunks, hcontent, executeChunkFile, readChunks]
  | some content =>
      exact (tiles_chunks hcontent).nodup_index.sublist (List.filter_sublist.map _)

theorem digest_of_mem_missing {answer : Option ManifestWithVersion} {chunk : Chunk}
    (h : chunk ∈ run.missing answer) :
    chunk.digest? = some (run.settings.engine.hasher.hash chunk.data).digest := by
  rw [Chunk.digest?, chunkHash_of_mem_executeChunkFile (List.mem_of_mem_filter h)]
  rfl

theorem length_digests_missing (answer : Option ManifestWithVersion) :
    ((run.missing answer).filterMap Chunk.digest?).length = (run.missing answer).length := by
  rw [List.length_filterMap_eq_countP, List.countP_eq_length]
  intro chunk hchunk
  rw [digest_of_mem_missing hchunk]
  rfl

theorem distinctDigests_pos {answer : Option ManifestWithVersion} (h : run.missing answer ≠ []) :
    0 < distinctDigests (run.missing answer) := by
  have hlength := run.length_digests_missing answer
  rw [distinctDigests, Finset.card_pos, List.toFinset_nonempty_iff]
  intro hnil
  rw [hnil, List.length_nil] at hlength
  exact h (List.length_eq_zero_iff.mp hlength.symm)

theorem distinctDigests_eq_length_iff (answer : Option ManifestWithVersion) :
    distinctDigests (run.missing answer) = (run.missing answer).length ↔
      ((run.missing answer).filterMap Chunk.digest?).Nodup := by
  rw [← length_digests_missing, distinctDigests, ← Multiset.coe_nodup,
    ← Multiset.toFinset_card_eq_card_iff_nodup]
  rfl

theorem distinctDigests_le_length (answer : Option ManifestWithVersion) :
    distinctDigests (run.missing answer) ≤ (run.missing answer).length := by
  rw [← length_digests_missing]
  exact List.toFinset_card_le _

theorem missing_none : run.missing none = run.chunks := by
  apply List.filter_eq_self.mpr
  intro chunk hchunk
  rw [decide_eq_true_iff]
  exact ⟨_, chunkHash_of_mem_executeChunkFile hchunk, List.not_mem_nil⟩

theorem isSlice_missing {content : Bytes} (hcontent : run.content = some content)
    {answer : Option ManifestWithVersion} {chunk : Chunk} (h : chunk ∈ run.missing answer) :
    Overlay.IsSlice content chunk.piece :=
  (tiles_chunks hcontent).isSlice (List.mem_of_mem_filter h)

/-- All chunks of the file rebuild it, in any order, over a file that is not
longer. -/
theorem writeAll_chunks {content old : Bytes} (hcontent : run.content = some content)
    {xs : List Chunk} (hxs : xs ~ run.chunks) (hlen : old.length ≤ content.length) :
    Overlay.writeAll 0 old (xs.map Chunk.piece) = content := by
  have htiles := tiles_chunks hcontent
  refine Overlay.writeAll_place_perm 0 htiles.flatten_data (fun p ↦ ?_) hlen
  rw [← htiles.map_piece]
  exact (hxs.map _).mem_iff

theorem sent_of_pushed {result : SyncFileResult} {s' : SyncState W}
    (h : run.pushed = .ok result s') :
    ∃ content answer version, run.content = some content ∧ run.Answers answer ∧
      run.sent = pushesOf run.relativePath version (run.missing answer) := by
  obtain ⟨content, answer, w, version, current, hcontent, hanswer, -, -, -, houtbox⟩ :=
    push_eq_ok h
  refine ⟨content, answer, version, hcontent, ⟨w, hanswer⟩, ?_⟩
  rw [sent, h, missing_eq hcontent]
  simp only [stateOf, houtbox, List.drop_left]
  rfl

theorem sent_of_no_content (h : run.content = none) : run.sent = [] := by
  have hmanifest : run.settings.onDisk.buildManifestOf (joinPath run.syncRoot run.relativePath)
      run.strategy run.chunkSize run.state =
        .error (.manifest (.source (.notFound run.path))) run.state := by
    have hnone : run.settings.onDisk.contentAt (joinPath run.syncRoot run.relativePath)
        run.state = none := h
    simp only [SyncFileUseCase.buildManifestOf, bind_run, get_run, hnone]
    rfl
  rw [sent, pushed, SyncFileUseCase.push, bind_run, hmanifest]
  exact List.drop_length

theorem prefix_sent {answer : Option ManifestWithVersion} (hanswer : run.Answers answer) :
    ∃ version, run.sent <+: pushesOf run.relativePath version (run.missing answer) := by
  cases hcontent : run.content with
  | none => exact ⟨none, by rw [sent_of_no_content hcontent]; exact List.nil_prefix⟩
  | some content =>
      obtain ⟨w, hanswer⟩ := hanswer
      obtain ⟨version, sent, hinitial, houtbox⟩ := @push_outbox W run.settings.onDisk run.peer
        run.syncRoot run.relativePath run.strategy run.chunkSize run.state _ _ _ hcontent hanswer
      refine ⟨version, ?_⟩
      rw [SyncRun.sent, pushed, missing_eq hcontent, houtbox, List.drop_left]
      exact hinitial

/-! ### What a pull asks for -/

section Requests

variable (run) in
/-- The digest of the chunk occurs nowhere in the local file. -/
def lacks (m : ChunkMetadata) : Bool :=
  m.chunkHash.any fun h ↦ h ∉ run.chunks.filterMap fun chunk ↦ chunk.metadata.chunkHash

variable (run) in
/-- The digests that a pull asks for when it is shown this manifest. -/
def requested (c : ChunkCollection) : List String :=
  ((c.chunks.filter run.lacks).filterMap ChunkMetadata.chunkHash).map ChunkHash.digest

variable {c current : ChunkCollection} {plan : DeltaPlan}

theorem chunks_of_localManifest (h : run.settings.onDisk.localManifestOrEmpty run.path run.strategy
      run.chunkSize run.state = .ok current run.state) :
    current.chunks = run.chunks.map Chunk.metadata := by
  obtain ⟨-, -, ⟨bytes, hbytes, hbuild⟩ | ⟨hnone, hchunks⟩⟩ := localManifestOrEmpty_eq_ok h
  · rw [chunks, content, hbytes]
    exact chunks_of_buildManifest hbuild
  · rw [chunks, content, hnone, hchunks]
    rfl

theorem lackedBy_iff (h : current.chunks = run.chunks.map Chunk.metadata) (m : ChunkMetadata) :
    m.LackedBy (some current) ↔ run.lacks m = true := by
  have hknown : DeltaCalculator.knownHashes (some current) =
      run.chunks.filterMap fun chunk ↦ chunk.metadata.chunkHash := by
    rw [DeltaCalculator.knownHashes, h, List.filterMap_map]
    rfl
  rw [ChunkMetadata.LackedBy, hknown, lacks, Option.any_eq_true_iff_get]
  cases m.chunkHash <;> simp

theorem chunksToTransfer_eq (h : current.chunks = run.chunks.map Chunk.metadata)
    (hplan : DeltaCalculator.compute (some current) (c.withSourcePath run.path) = .ok plan) :
    plan.chunksToTransfer = c.chunks.filter run.lacks := by
  rw [DeltaCalculator.compute_eq_ok hplan]
  apply List.filter_congr
  intro m _
  rw [Bool.eq_iff_iff, decide_eq_true_iff, lackedBy_iff h]

theorem hashesToRequest_eq (h : current.chunks = run.chunks.map Chunk.metadata)
    (hplan : DeltaCalculator.compute (some current) (c.withSourcePath run.path) = .ok plan) :
    SyncFileUseCase.hashesToRequest plan = run.requested c := by
  rw [SyncFileUseCase.hashesToRequest, chunksToTransfer_eq h hplan]
  rfl

theorem requested_eq_nil_iff (c : ChunkCollection) :
    run.requested c = [] ↔ c.chunks.filter run.lacks = [] := by
  rw [requested, List.map_eq_nil_iff, List.filterMap_eq_nil_iff]
  constructor
  · intro h
    apply List.eq_nil_iff_forall_not_mem.mpr
    intro m hm
    have hlacks := (List.mem_filter.mp hm).2
    rw [lacks, h m hm] at hlacks
    cases hlacks
  · intro h
    simp [h]

theorem returned_eq {w : W} (h : current.chunks = run.chunks.map Chunk.metadata)
    (hplan : DeltaCalculator.compute (some current) (c.withSourcePath run.path) = .ok plan) :
    run.settings.returned run.peer run.relativePath plan w =
      if run.requested c = [] then ([], none)
      else (run.settings.manifestExchange.requestChunks run.peer run.relativePath
        (run.requested c) w).1 := by
  rw [SyncFileSettings.returned, hashesToRequest_eq h hplan, DeltaPlan.transferCount,
    chunksToTransfer_eq h hplan]
  simp only [requested_eq_nil_iff, List.length_pos_iff, ne_eq, ite_not]

end Requests

/-! ### The decision -/

section Decision

variable {localCollection remoteCollection : ChunkCollection}
  {localVersion remoteVersion : Option VersionVector}

theorem chosen_of_compares
    (h : run.Compares localCollection localVersion remoteCollection remoteVersion) :
    ∃ t : SyncState W, t.clock = run.state.clock ∧ run.chosen =
      match (SyncDirectionResolver.resolve (some localCollection) localVersion
        (some remoteCollection) remoteVersion).direction with
      | .push => .ok .push t
      | .pull => .ok .pull t
      | .noop => .ok .noop t
      | .conflict => (SyncFileUseCase.remoteWins run.peer run.relativePath localVersion
          remoteVersion lastWriterWinsStrategy >>= fun wins ↦ pure (.conflict wins)) t := by
  obtain ⟨w, w', hmanifest, hversion, hanswer⟩ := h
  have hrequest : onWorld SyncError.exchange
      (run.settings.onDisk.manifestExchange.requestManifest run.peer run.relativePath)
        { run.state with world := w } =
      .ok (some ⟨remoteCollection, remoteVersion⟩) { run.state with world := w' } :=
    zoom_eq_ok.mpr ⟨w', hanswer, rfl⟩
  refine ⟨{ run.state with world := w' }, rfl, ?_⟩
  unfold SyncRun.chosen SyncFileUseCase.chooseAction
  rw [path] at hmanifest
  simp only [bind_run, hmanifest, hversion, hrequest]
  cases (SyncDirectionResolver.resolve (some localCollection) localVersion (some remoteCollection)
    remoteVersion).direction <;> rfl

theorem direction_of_chosen_push {t : SyncState W}
    (h : run.Compares localCollection localVersion remoteCollection remoteVersion)
    (hpush : run.chosen = .ok .push t) :
    (SyncDirectionResolver.resolve (some localCollection) localVersion (some remoteCollection)
      remoteVersion).direction = .push := by
  obtain ⟨u, -, hchosen⟩ := chosen_of_compares h
  rw [hpush] at hchosen
  cases hdirection : (SyncDirectionResolver.resolve (some localCollection) localVersion
      (some remoteCollection) remoteVersion).direction with
  | push => rfl
  | pull | noop =>
      rw [hdirection] at hchosen
      cases hchosen
  | conflict =>
      rw [hdirection] at hchosen
      obtain ⟨wins, u', -, hpure⟩ := bind_eq_ok.mp hchosen.symm
      cases hpure

end Decision

end SyncRun

/-! ## Runs on one file

For the examples of this development: the peer answers every request in the
same way. -/

def samplePeer : Peer := ⟨"peer", "192.0.2.7"⟩

def sampleExchange (answer : Option ManifestWithVersion) (payloads : List ChunkPayload) :
    ManifestExchange Unit where
  requestManifest _ _ := fun w ↦ .ok answer w
  requestChunks _ _ _ w := (decodeChunks payloads, w)

def sampleSettings (exchange : ManifestExchange Unit) (version : Option VersionVector) :
    SyncFileSettings Unit where
  resolver := .plain
  engine := sampleEngine
  manifestExchange := exchange
  sendChunk _ _ := fun w ↦ .ok () w
  localVersionProvider := some fun _ w ↦ (version, w)

def sampleState (content : Option Bytes) (clock : ℕ → Timestamp) : SyncState Unit where
  storage := sampleStorage content
  repository := fun _ ↦ none
  outbox := []
  clock := clock
  world := ()

def sampleRun (content : Option Bytes) (version : Option VersionVector)
    (exchange : ManifestExchange Unit) (clock : ℕ → Timestamp) : SyncRun Unit where
  settings := sampleSettings exchange version
  peer := samplePeer
  syncRoot := sampleRoot
  relativePath := "a.txt"
  strategy := byteStrategy.toStrategy
  honours := byteStrategy.honours
  chunkSize := 1
  state := sampleState content clock

section

variable (content : Option Bytes) (version : Option VersionVector)
  (exchange : ManifestExchange Unit) (clock : ℕ → Timestamp)

theorem path_sampleRun : (sampleRun content version exchange clock).path = samplePath := by
  simp only [SyncRun.path, sampleRun]
  decide

theorem content_sampleRun : (sampleRun content version exchange clock).content = content := by
  rw [SyncRun.content, path_sampleRun]
  rfl

end

theorem localManifest_sampleRun {content : Bytes} {version : Option VersionVector}
    {exchange : ManifestExchange Unit} {clock : ℕ → Timestamp}
    (h : buildManifest sampleEngine samplePath byteStrategy.toStrategy (some content) 1 =
      .ok (sampleManifest content)) :
    let run := sampleRun (some content) version exchange clock
    run.settings.onDisk.localManifestOrEmpty run.path run.strategy run.chunkSize run.state =
      .ok (sampleManifest content) run.state := by
  apply localManifestOrEmpty_of_build (content_sampleRun ..)
  rw [path_sampleRun]
  exact h

end SecureSync
