import SecureSync.Application.SyncFile

/-!
# What a completed push or pull has done

A successful run of `push` sends the chunks that the peer's manifest lacks and
saves the manifest of the local file; a successful run of `pull` writes what
the peer returned.
-/

namespace SecureSync

open Raising

/-! ## The chunks a manifest lacks -/

/-- The chunks of the file whose digests the manifest does not list. -/
def missingChunks (engine : ChunkEngine) (path : FilePath) (strategy : ChunkingStrategy)
    (content : Bytes) (baseline : Option ChunkCollection) : List Chunk :=
  (executeChunkFile engine path strategy (some content)).1.filter fun chunk ↦
    chunk.metadata.LackedBy baseline

def Chunk.digest? (chunk : Chunk) : Option String :=
  chunk.metadata.chunkHash.map ChunkHash.digest

def distinctDigests (chunks : List Chunk) : ℕ :=
  (chunks.filterMap Chunk.digest?).toFinset.card

/-- The messages of one push of these chunks. -/
def pushesOf (relativePath : String) (version : Option VersionVector) (chunks : List Chunk) :
    List IncomingPush :=
  chunks.map fun chunk ↦
    { relativePath, totalChunks := distinctDigests chunks, chunk, versionVector := version }

section Missing

variable {engine : ChunkEngine} {path : FilePath} {strategy : ChunkingStrategy}

theorem isNeeded_iff {baseline : Option ChunkCollection} {chunks : List Chunk} {chunk : Chunk}
    (hchunk : chunk ∈ chunks) :
    isNeeded ((chunks.filter fun c ↦ c.metadata.LackedBy baseline).filterMap
        Chunk.digest?).toFinset chunk = true ↔ chunk.metadata.LackedBy baseline := by
  unfold isNeeded
  cases hhash : chunk.metadata.chunkHash with
  | none => simp [ChunkMetadata.LackedBy, hhash]
  | some chunkHash =>
      simp only [decide_eq_true_eq, List.mem_toFinset]
      constructor
      · intro hmem
        obtain ⟨other, hother, hdigest⟩ := List.mem_filterMap.mp hmem
        obtain ⟨otherHash, hotherHash, heq⟩ := Option.map_eq_some_iff.mp hdigest
        obtain ⟨h, hh, hnot⟩ : other.metadata.LackedBy baseline := by
          simpa using (List.mem_filter.mp hother).2
        cases ChunkHash.eq_of_digest_eq heq
        cases hotherHash.symm.trans hh
        exact ⟨_, hhash, hnot⟩
      · intro hlacked
        exact List.mem_filterMap.mpr ⟨chunk, List.mem_filter.mpr
          ⟨hchunk, by simpa using hlacked⟩, by rw [Chunk.digest?, hhash]; rfl⟩

theorem chunksToTransfer_eq {content : Bytes} {chunkSize : ℕ} {current : ChunkCollection}
    {baseline : Option ChunkCollection} {plan : DeltaPlan}
    (hcurrent : buildManifest engine path strategy (some content) chunkSize = .ok current)
    (hplan : DeltaCalculator.compute baseline current = .ok plan) :
    plan.chunksToTransfer =
      (missingChunks engine path strategy content baseline).map Chunk.metadata := by
  rw [DeltaCalculator.compute_eq_ok hplan, chunks_of_buildManifest hcurrent, missingChunks,
    List.filter_map]
  rfl

theorem neededHashes_eq {content : Bytes} {chunkSize : ℕ} {current : ChunkCollection}
    {baseline : Option ChunkCollection} {plan : DeltaPlan}
    (hcurrent : buildManifest engine path strategy (some content) chunkSize = .ok current)
    (hplan : DeltaCalculator.compute baseline current = .ok plan) :
    neededHashes plan =
      ((missingChunks engine path strategy content baseline).filterMap Chunk.digest?).toFinset := by
  unfold neededHashes
  rw [chunksToTransfer_eq hcurrent hplan, List.filterMap_map, List.map_filterMap]
  rfl

theorem filter_isNeeded {content : Bytes} {chunkSize : ℕ} {current : ChunkCollection}
    {baseline : Option ChunkCollection} {plan : DeltaPlan}
    (hcurrent : buildManifest engine path strategy (some content) chunkSize = .ok current)
    (hplan : DeltaCalculator.compute baseline current = .ok plan) :
    (executeChunkFile engine path strategy (some content)).1.filter
        (isNeeded (neededHashes plan)) =
      missingChunks engine path strategy content baseline := by
  apply List.filter_congr
  intro chunk hchunk
  rw [neededHashes_eq hcurrent hplan, missingChunks, Bool.eq_iff_iff, isNeeded_iff hchunk,
    decide_eq_true_iff]

theorem card_neededHashes {content : Bytes} {chunkSize : ℕ} {current : ChunkCollection}
    {baseline : Option ChunkCollection} {plan : DeltaPlan}
    (hcurrent : buildManifest engine path strategy (some content) chunkSize = .ok current)
    (hplan : DeltaCalculator.compute baseline current = .ok plan) :
    (neededHashes plan).card =
      distinctDigests (missingChunks engine path strategy content baseline) := by
  rw [neededHashes_eq hcurrent hplan]
  rfl

end Missing

/-! ## Pushing -/

section Push

variable {W : Type} {uc : SyncFileUseCase W} {peer : Peer} {syncRoot : FilePath}
  {relativePath : String} {strategy : ChunkingStrategy} {chunkSize : ℕ} {s s' : SyncState W}

theorem buildManifestOf_run (uc : SyncFileUseCase W) (path : FilePath)
    (strategy : ChunkingStrategy) (chunkSize : ℕ) (s : SyncState W) :
    uc.buildManifestOf path strategy chunkSize s =
      orRaise .manifest (buildManifest uc.engine path strategy (uc.contentAt path s) chunkSize) s :=
  rfl

theorem send_eq_ok {incoming : IncomingPush} {u : Unit}
    (h : uc.send peer incoming s = .ok u s') :
    s'.storage = s.storage ∧ s'.repository = s.repository ∧
      s'.outbox = s.outbox ++ [incoming] := by
  obtain ⟨_, t, hworld, hmodify⟩ := bind_eq_ok.mp h
  obtain ⟨w, -, rfl⟩ := zoom_eq_ok.mp hworld
  cases hmodify
  exact ⟨rfl, rfl, rfl⟩

theorem send_eq_error {incoming : IncomingPush} {e : SyncError}
    (h : uc.send peer incoming s = .error e s') : s'.outbox = s.outbox := by
  unfold SyncFileUseCase.send at h
  rw [bind_run] at h
  cases hworld : onWorld SyncError.transfer (uc.sendChunk peer incoming) s with
  | ok u t =>
      rw [hworld] at h
      cases h
  | error e t =>
      rw [hworld] at h
      cases h
      unfold onWorld zoom at hworld
      cases hsend : uc.sendChunk peer incoming s.world with
      | ok u w => simp [hsend] at hworld
      | error e w =>
          simp only [hsend, EStateM.Result.error.injEq] at hworld
          rw [← hworld.2]

theorem upload_eq_ok {total : ℤ} {version : Option VersionVector}
    {error : Option ChunkSourceError} {chunks : List Chunk} {u : Unit}
    (h : uc.upload peer relativePath total version error chunks s = .ok u s') :
    s'.storage = s.storage ∧ s'.repository = s.repository ∧
      s'.outbox = s.outbox ++ chunks.map fun chunk ↦
        { relativePath, totalChunks := total, chunk, versionVector := version } := by
  induction chunks generalizing s with
  | nil =>
      cases error with
      | some e => cases h
      | none =>
          cases h
          simp
  | cons chunk later ih =>
      obtain ⟨_, t, hsend, hlater⟩ := bind_eq_ok.mp h
      obtain ⟨hstorage, hrepository, houtbox⟩ := send_eq_ok hsend
      obtain ⟨hstorage', hrepository', houtbox'⟩ := ih hlater
      refine ⟨hstorage'.trans hstorage, hrepository'.trans hrepository, ?_⟩
      rw [houtbox', houtbox]
      simp

variable (uc relativePath) in
theorem exists_localVersion (s : SyncState W) :
    ∃ version w, uc.localVersion relativePath s = .ok version { s with world := w } := by
  unfold SyncFileUseCase.localVersion
  cases uc.localVersionProvider with
  | none => exact ⟨none, s.world, rfl⟩
  | some provider => exact ⟨_, _, rfl⟩

theorem normalizedPeerManifest_eq_ok {sourcePath : FilePath} {c : Option ChunkCollection}
    (h : uc.normalizedPeerManifest peer relativePath sourcePath s = .ok c s') :
    ∃ answer w, uc.manifestExchange.requestManifest peer relativePath s.world = .ok answer w ∧
      c = answer.map (fun m ↦ m.collection.withSourcePath sourcePath) ∧
      s' = { s with world := w } := by
  obtain ⟨answer, t, hworld, hpure⟩ := bind_eq_ok.mp h
  obtain ⟨w, hanswer, rfl⟩ := zoom_eq_ok.mp hworld
  obtain ⟨rfl, rfl⟩ := pure_eq_ok.mp hpure
  exact ⟨answer, w, hanswer, rfl, rfl⟩

variable (uc) in
theorem normalizedPeerManifest_run {answer : Option ManifestWithVersion} {w : W}
    {sourcePath : FilePath}
    (h : uc.manifestExchange.requestManifest peer relativePath s.world = .ok answer w) :
    uc.normalizedPeerManifest peer relativePath sourcePath s =
      .ok (answer.map fun m ↦ m.collection.withSourcePath sourcePath) { s with world := w } := by
  have hrequest : onWorld SyncError.exchange
      (uc.manifestExchange.requestManifest peer relativePath) s =
        .ok answer { s with world := w } := zoom_eq_ok.mpr ⟨w, h, rfl⟩
  rw [SyncFileUseCase.normalizedPeerManifest, bind_run, hrequest]
  rfl

/-- Renaming the source of a manifest does not change what it lacks. -/
theorem missingChunks_withSourcePath (engine : ChunkEngine) (path : FilePath)
    (strategy : ChunkingStrategy) (content : Bytes) (answer : Option ManifestWithVersion)
    (sourcePath : FilePath) :
    missingChunks engine path strategy content
        (answer.map fun m ↦ m.collection.withSourcePath sourcePath) =
      missingChunks engine path strategy content (answer.map ManifestWithVersion.collection) := by
  cases answer <;> rfl

theorem uploadMissing_eq_ok {sourcePath : FilePath} {version : Option VersionVector}
    {baseline : Option ChunkCollection} {current : ChunkCollection} {plan : DeltaPlan}
    {content : Bytes} {u : Unit} (hcontent : uc.contentAt sourcePath s = some content)
    (hcurrent : buildManifest uc.engine sourcePath strategy (some content) chunkSize = .ok current)
    (hplan : DeltaCalculator.compute baseline current = .ok plan)
    (h : uc.uploadMissing peer relativePath sourcePath strategy version plan s = .ok u s') :
    s'.storage = s.storage ∧ s'.repository = s.repository ∧
      s'.outbox = s.outbox ++ pushesOf relativePath version
        (missingChunks uc.engine sourcePath strategy content baseline) := by
  obtain ⟨_, _, hget, hupload⟩ := bind_eq_ok.mp h
  cases hget
  rw [hcontent] at hupload
  obtain ⟨hstorage, hrepository, houtbox⟩ := upload_eq_ok hupload
  refine ⟨hstorage, hrepository, ?_⟩
  rw [houtbox, filter_isNeeded hcurrent hplan, card_neededHashes hcurrent hplan]
  rfl

/-- A completed push has sent the chunks that the peer's manifest lacks, in
file order, and has saved the manifest of the unchanged local file. -/
theorem push_eq_ok {result : SyncFileResult}
    (h : uc.push peer syncRoot relativePath strategy chunkSize s = .ok result s') :
    ∃ content answer w version current,
      uc.contentAt (joinPath syncRoot relativePath) s = some content ∧
      uc.manifestExchange.requestManifest peer relativePath s.world = .ok answer w ∧
      buildManifest uc.engine (joinPath syncRoot relativePath) strategy (some content) chunkSize =
        .ok current ∧
      s'.storage = s.storage ∧ s'.repository = s.repository.save uc.resolver current ∧
      s'.outbox = s.outbox ++ pushesOf relativePath version
        (missingChunks uc.engine (joinPath syncRoot relativePath) strategy content
          (answer.map ManifestWithVersion.collection)) := by
  unfold SyncFileUseCase.push at h
  obtain ⟨current, s₁, hcurrent, h⟩ := bind_eq_ok.mp h
  obtain ⟨peerManifest, s₂, hpeer, h⟩ := bind_eq_ok.mp h
  obtain ⟨version, s₃, hversion, h⟩ := bind_eq_ok.mp h
  obtain ⟨plan, s₄, hplan, h⟩ := bind_eq_ok.mp h
  obtain ⟨_, _, hget, hcurrent⟩ := bind_eq_ok.mp hcurrent
  cases hget
  obtain ⟨hbuild, rfl⟩ := orRaise_eq_ok.mp hcurrent
  obtain ⟨content, hcontent⟩ := exists_of_buildManifest hbuild
  obtain ⟨answer, w, hanswer, rfl, rfl⟩ := normalizedPeerManifest_eq_ok hpeer
  obtain ⟨version', w', hversion'⟩ := exists_localVersion uc relativePath { s with world := w }
  cases hversion'.symm.trans hversion
  obtain ⟨hcompute, rfl⟩ := orRaise_eq_ok.mp hplan
  rw [hcontent] at hbuild
  refine ⟨content, answer, w, version, current, hcontent, hanswer, hbuild, ?_⟩
  rw [← missingChunks_withSourcePath _ _ _ _ _ (joinPath syncRoot relativePath)]
  split_ifs at h with hcount
  · obtain ⟨_, s₅, hupload, h⟩ := bind_eq_ok.mp h
    obtain ⟨_, s₆, hsave, hresult⟩ := bind_eq_ok.mp h
    cases hsave
    obtain ⟨-, rfl⟩ := pure_eq_ok.mp hresult
    have hcontent' : uc.contentAt (joinPath syncRoot relativePath) { s with world := w' } =
        some content := hcontent
    obtain ⟨hstorage, hrepository, houtbox⟩ :=
      uploadMissing_eq_ok hcontent' hbuild hcompute hupload
    exact ⟨hstorage, congrArg (ChunkRepository.save uc.resolver current) hrepository, houtbox⟩
  · obtain ⟨_, s₆, hsave, hresult⟩ := bind_eq_ok.mp h
    cases hsave
    obtain ⟨-, rfl⟩ := pure_eq_ok.mp hresult
    have hnone : missingChunks uc.engine (joinPath syncRoot relativePath) strategy content
        (answer.map fun a ↦ a.collection.withSourcePath (joinPath syncRoot relativePath)) = [] := by
      rw [DeltaPlan.transferCount, chunksToTransfer_eq hbuild hcompute, List.length_map] at hcount
      exact List.length_eq_zero_iff.mp (by omega)
    rw [hnone]
    exact ⟨rfl, rfl, (List.append_nil _).symm⟩

/-! ### Pushes that may raise -/

variable (uc peer relativePath) in
theorem upload_outbox (total : ℤ) (version : Option VersionVector)
    (error : Option ChunkSourceError) (chunks : List Chunk) (s : SyncState W) :
    ∃ sent, sent <+: chunks.map (fun chunk ↦
        ({ relativePath, totalChunks := total, chunk, versionVector := version } :
          IncomingPush)) ∧
      (stateOf (uc.upload peer relativePath total version error chunks s)).outbox =
        s.outbox ++ sent := by
  induction chunks generalizing s with
  | nil =>
      refine ⟨[], List.nil_prefix, ?_⟩
      rw [List.append_nil]
      cases error <;> rfl
  | cons chunk later ih =>
      rw [SyncFileUseCase.upload, bind_run]
      cases hsend : uc.send peer
          { relativePath, totalChunks := total, chunk, versionVector := version } s with
      | ok u t =>
          obtain ⟨sent, hsent, houtbox⟩ := ih t
          refine ⟨_ :: sent, List.cons_prefix_cons.mpr ⟨rfl, hsent⟩, ?_⟩
          simp only [houtbox, (send_eq_ok hsend).2.2, List.append_assoc, List.singleton_append]
      | error e t =>
          refine ⟨[], List.nil_prefix, ?_⟩
          rw [List.append_nil]
          exact send_eq_error hsend

theorem uploadMissing_outbox {sourcePath : FilePath} {version : Option VersionVector}
    {baseline : Option ChunkCollection} {current : ChunkCollection} {plan : DeltaPlan}
    {content : Bytes} (hcontent : uc.contentAt sourcePath s = some content)
    (hcurrent : buildManifest uc.engine sourcePath strategy (some content) chunkSize = .ok current)
    (hplan : DeltaCalculator.compute baseline current = .ok plan) :
    ∃ sent, sent <+: pushesOf relativePath version
        (missingChunks uc.engine sourcePath strategy content baseline) ∧
      (stateOf (uc.uploadMissing peer relativePath sourcePath strategy version plan s)).outbox =
        s.outbox ++ sent := by
  have hupload := upload_outbox uc peer relativePath (neededHashes plan).card version
    (executeChunkFile uc.engine sourcePath strategy (some content)).2
    ((executeChunkFile uc.engine sourcePath strategy (some content)).1.filter
      (isNeeded (neededHashes plan))) s
  rw [SyncFileUseCase.uploadMissing]
  simp only [bind_run, get_run, hcontent]
  rw [filter_isNeeded hcurrent hplan, card_neededHashes hcurrent hplan] at hupload ⊢
  exact hupload

/-- A push that may have been cut short has sent the first of the chunks that
the peer's manifest lacks. -/
theorem push_outbox {content : Bytes} {answer : Option ManifestWithVersion} {w : W}
    (hcontent : uc.contentAt (joinPath syncRoot relativePath) s = some content)
    (hanswer : uc.manifestExchange.requestManifest peer relativePath s.world = .ok answer w) :
    ∃ version sent, sent <+: pushesOf relativePath version
        (missingChunks uc.engine (joinPath syncRoot relativePath) strategy content
          (answer.map ManifestWithVersion.collection)) ∧
      (stateOf (uc.push peer syncRoot relativePath strategy chunkSize s)).outbox =
        s.outbox ++ sent := by
  have hnothing : ∃ version sent, sent <+: pushesOf relativePath version
      (missingChunks uc.engine (joinPath syncRoot relativePath) strategy content
        (answer.map ManifestWithVersion.collection)) ∧ s.outbox = s.outbox ++ sent :=
    ⟨none, [], List.nil_prefix, (List.append_nil _).symm⟩
  obtain ⟨version, w', hversion⟩ := exists_localVersion uc relativePath { s with world := w }
  unfold SyncFileUseCase.push
  rw [bind_run, buildManifestOf_run, hcontent]
  cases hbuild : buildManifest uc.engine (joinPath syncRoot relativePath) strategy (some content)
      chunkSize with
  | error e => exact hnothing
  | ok current =>
      simp only [orRaise, pure_run, bind_run, normalizedPeerManifest_run uc hanswer, hversion]
      cases hplan : DeltaCalculator.compute
          (answer.map fun m ↦ m.collection.withSourcePath (joinPath syncRoot relativePath))
          current with
      | error e => exact hnothing
      | ok plan =>
          simp only [pure_run]
          split_ifs with hcount
          · have hcontent' : uc.contentAt (joinPath syncRoot relativePath)
                { s with world := w' } = some content := hcontent
            obtain ⟨sent, hsent, houtbox⟩ := @uploadMissing_outbox W uc peer relativePath strategy
              chunkSize _ _ version _ _ _ _ hcontent' hbuild hplan
            rw [missingChunks_withSourcePath] at hsent
            refine ⟨version, sent, hsent, ?_⟩
            rw [← houtbox, bind_run]
            generalize uc.uploadMissing peer relativePath _ strategy version plan _ = outcome
            cases outcome <;> rfl
          · exact hnothing

/-! ### What a push leaves alone -/

section Keeps

variable {γ : Type} {g : SyncState W → γ}

theorem keeps_onWorld {ε α : Type} (hworld : ∀ (w : W) s, g { s with world := w } = g s)
    (wrap : ε → SyncError) (action : EStateM ε W α) : Keeps g (onWorld wrap action) :=
  keeps_zoom hworld

theorem keeps_buildManifestOf (path : FilePath) :
    Keeps g (uc.buildManifestOf path strategy chunkSize) :=
  keeps_get.bind fun _ ↦ keeps_orRaise _ _

theorem keeps_localVersion (hworld : ∀ (w : W) s, g { s with world := w } = g s) :
    Keeps g (uc.localVersion relativePath) := by
  unfold SyncFileUseCase.localVersion
  cases uc.localVersionProvider with
  | none => exact keeps_pure _
  | some provider => exact fun s ↦ hworld _ s

theorem keeps_normalizedPeerManifest (hworld : ∀ (w : W) s, g { s with world := w } = g s)
    (sourcePath : FilePath) : Keeps g (uc.normalizedPeerManifest peer relativePath sourcePath) :=
  (keeps_onWorld hworld _ _).bind fun _ ↦ keeps_pure _

variable (hworld : ∀ (w : W) s, g { s with world := w } = g s)
  (houtbox : ∀ o s, g { s with outbox := o } = g s)

include hworld houtbox

theorem keeps_send (incoming : IncomingPush) : Keeps g (uc.send peer incoming) :=
  (keeps_onWorld hworld _ _).bind fun _ ↦ keeps_modify fun s ↦ houtbox _ s

theorem keeps_upload (total : ℤ) (version : Option VersionVector)
    (error : Option ChunkSourceError) (chunks : List Chunk) :
    Keeps g (uc.upload peer relativePath total version error chunks) := by
  induction chunks with
  | nil => cases error <;> exact fun _ ↦ rfl
  | cons chunk later ih => exact (keeps_send hworld houtbox _).bind fun _ ↦ ih

end Keeps

theorem keeps_storage_push :
    Keeps SyncState.storage (uc.push peer syncRoot relativePath strategy chunkSize) := by
  apply (keeps_buildManifestOf _).bind
  intro current
  apply (keeps_normalizedPeerManifest (fun _ _ ↦ rfl) _).bind
  intro peerManifest
  apply (keeps_localVersion fun _ _ ↦ rfl).bind
  intro version
  apply (keeps_orRaise _ _).bind
  intro plan
  have hsave : Keeps SyncState.storage (do
      uc.saveManifest current
      return { transferredCount := plan.transferCount } : SyncM W SyncFileResult) :=
    fun _ ↦ rfl
  split_ifs
  · exact (keeps_get.bind fun s ↦ keeps_upload (fun _ _ ↦ rfl) (fun _ _ ↦ rfl) _ _ _ _).bind
      fun _ ↦ hsave
  · exact hsave

end Push

/-! ## Pulling -/

namespace Storage

def storeAll (path : Path) (chunks : List Chunk) (s : Storage) : Storage :=
  chunks.foldl (fun s chunk ↦ s.writeChunkAtOffset path chunk) s

theorem journal_storeAll (path : Path) (chunks : List Chunk) (s : Storage) :
    (s.storeAll path chunks).journal = s.journal ++ chunks.map (FsOp.write path) := by
  induction chunks generalizing s with
  | nil => simp [storeAll]
  | cons chunk chunks ih =>
      rw [storeAll, List.foldl_cons]
      exact (ih _).trans (by simp)

theorem files_storeAll_self (path : Path) (chunks : List Chunk) (s : Storage) :
    (s.storeAll path chunks).files path =
      if chunks = [] then s.files path
      else some (Overlay.writeAll 0 ((s.files path).getD []) (chunks.map Chunk.piece)) := by
  induction chunks generalizing s with
  | nil => rfl
  | cons chunk chunks ih =>
      rw [storeAll, List.foldl_cons, if_neg (List.cons_ne_nil _ _)]
      apply (ih _).trans
      rw [files_writeChunkAtOffset_self]
      split_ifs with hnil
      · rw [hnil]
        rfl
      · rfl

end Storage

section Pull

variable {W : Type} {settings : SyncFileSettings W} {peer : Peer} {syncRoot : FilePath}
  {relativePath : String} {strategy : ChunkingStrategy} {chunkSize : ℕ} {s s' : SyncState W}

def SyncFileSettings.located (settings : SyncFileSettings W) (path : FilePath) : Path :=
  .file (settings.resolver.resolve path)

theorem storeChunks_run (path : FilePath) (error : Option ExchangeError) (chunks : List Chunk)
    (s : SyncState W) :
    settings.onDisk.storeChunks path error chunks s =
      match error with
      | none => .ok chunks.length
          { s with storage := s.storage.storeAll (settings.located path) chunks }
      | some e => .error (.exchange e)
          { s with storage := s.storage.storeAll (settings.located path) chunks } := by
  induction chunks generalizing s with
  | nil => cases error <;> rfl
  | cons chunk later ih =>
      have hwrite : onSyncStorage (settings.onDisk.fileReconstructor.writeChunkAtOffset
          (.file (settings.onDisk.resolver.resolve path)) chunk) s =
            .ok () { s with storage :=
              s.storage.writeChunkAtOffset (settings.located path) chunk } := rfl
      rw [SyncFileUseCase.storeChunks, bind_run, hwrite]
      simp only [bind_run, ih]
      cases error <;> rfl

theorem localManifestOrEmpty_eq_ok {uc : SyncFileUseCase W} {path : FilePath}
    {c : ChunkCollection} (h : uc.localManifestOrEmpty path strategy chunkSize s = .ok c s') :
    s' = s ∧ c.sourcePath = path ∧
      ((∃ content, uc.contentAt path s = some content ∧
          buildManifest uc.engine path strategy (some content) chunkSize = .ok c) ∨
        uc.contentAt path s = none ∧ c.chunks = []) := by
  obtain ⟨_, _, hget, h⟩ := bind_eq_ok.mp h
  cases hget
  cases hcontent : uc.contentAt path s with
  | some content =>
      rw [hcontent] at h
      cases hbuild : buildManifest uc.engine path strategy (some content) chunkSize with
      | ok collection =>
          rw [hbuild] at h
          obtain ⟨rfl, rfl⟩ := pure_eq_ok.mp h
          exact ⟨rfl, sourcePath_of_buildManifest hbuild, .inl ⟨content, rfl, hbuild⟩⟩
      | error e =>
          rw [hbuild] at h
          obtain ⟨cut, rfl⟩ | ⟨e, rfl⟩ := buildManifest_eq_error hbuild
          · cases h
          · cases h
  | none =>
      have hmissing : buildManifest uc.engine path strategy none chunkSize =
          .error (.source (.notFound path)) := rfl
      rw [hcontent, hmissing] at h
      obtain ⟨hmake, rfl⟩ := orRaise_eq_ok.mp h
      obtain ⟨hpath, -, -, hchunks⟩ := ChunkCollection.make_eq_ok hmake
      exact ⟨rfl, hpath, .inr ⟨rfl, hchunks⟩⟩

theorem localManifestOrEmpty_of_build {uc : SyncFileUseCase W} {path : FilePath}
    {content : Bytes} {c : ChunkCollection} (hcontent : uc.contentAt path s = some content)
    (h : buildManifest uc.engine path strategy (some content) chunkSize = .ok c) :
    uc.localManifestOrEmpty path strategy chunkSize s = .ok c s := by
  simp only [SyncFileUseCase.localManifestOrEmpty, bind_run, get_run, hcontent, h, pure_run]

theorem localManifestOrEmpty_of_no_content {uc : SyncFileUseCase W} {path : FilePath}
    (h : uc.contentAt path s = none) :
    uc.localManifestOrEmpty path strategy chunkSize s =
      orRaise (fun error ↦ .manifest (.value error)) (ChunkCollection.make path chunkSize 0 [])
        s := by
  simp only [SyncFileUseCase.localManifestOrEmpty, bind_run, get_run, h]
  rfl

/-- What the peer returns to a pull that got this plan. -/
def SyncFileSettings.returned (settings : SyncFileSettings W) (peer : Peer)
    (relativePath : String) (plan : DeltaPlan) (w : W) : List Chunk × Option ExchangeError :=
  if 0 < plan.transferCount then
    (settings.manifestExchange.requestChunks peer relativePath
      (SyncFileUseCase.hashesToRequest plan) w).1
  else ([], none)

theorem download_cases (path : FilePath) (plan : DeltaPlan) (s : SyncState W) :
    ∃ w, settings.onDisk.download peer relativePath path plan s =
      let written := { s with
        storage := s.storage.storeAll (settings.located path)
          (settings.returned peer relativePath plan s.world).1
        world := w }
      match (settings.returned peer relativePath plan s.world).2 with
      | none => .ok (settings.returned peer relativePath plan s.world).1.length written
      | some e => .error (.exchange e) written := by
  unfold SyncFileUseCase.download SyncFileSettings.returned
  by_cases hcount : 0 < plan.transferCount
  · refine ⟨(settings.manifestExchange.requestChunks peer relativePath
      (SyncFileUseCase.hashesToRequest plan) s.world).2, ?_⟩
    simp only [if_pos hcount]
    rw [bind_run]
    exact storeChunks_run ..
  · refine ⟨s.world, ?_⟩
    simp only [if_neg hcount]
    rfl

theorem buildManifestOf_eq_ok {uc : SyncFileUseCase W} {path : FilePath} {c : ChunkCollection}
    (h : uc.buildManifestOf path strategy chunkSize s = .ok c s') :
    s' = s ∧ buildManifest uc.engine path strategy (uc.contentAt path s) chunkSize = .ok c := by
  rw [buildManifestOf_run] at h
  obtain ⟨hbuild, rfl⟩ := orRaise_eq_ok.mp h
  exact ⟨rfl, hbuild⟩

/-- A completed pull of a file that the peer has: what was returned is now in
the local file, and the saved manifest is that of the file if anything was. -/
theorem pull_eq_ok {result : SyncFileResult}
    (h : settings.onDisk.pull peer syncRoot relativePath strategy chunkSize s = .ok result s') :
    ∃ answer w,
      settings.manifestExchange.requestManifest peer relativePath s.world = .ok answer w ∧
      match answer with
      | none => s'.storage = s.storage ∧ s'.repository = s.repository
      | some m => ∃ current plan final,
          settings.onDisk.localManifestOrEmpty (joinPath syncRoot relativePath) strategy chunkSize s
            = .ok current s ∧
          DeltaCalculator.compute (some current)
            (m.collection.withSourcePath (joinPath syncRoot relativePath)) = .ok plan ∧
          (settings.returned peer relativePath plan w).2 = none ∧
          s'.storage = s.storage.storeAll (settings.located (joinPath syncRoot relativePath))
            (settings.returned peer relativePath plan w).1 ∧
          s'.repository = s.repository.save settings.resolver final ∧
          if (settings.returned peer relativePath plan w).1 = [] then final = current
          else buildManifest settings.engine (joinPath syncRoot relativePath) strategy
            (s'.storage.files (settings.located (joinPath syncRoot relativePath))) chunkSize =
              .ok final := by
  obtain ⟨current, s₁, hcurrent, h⟩ := bind_eq_ok.mp h
  obtain ⟨peerManifest, s₂, hpeer, h⟩ := bind_eq_ok.mp h
  obtain ⟨rfl, -, -⟩ := localManifestOrEmpty_eq_ok hcurrent
  obtain ⟨answer, w, hanswer, rfl, rfl⟩ := normalizedPeerManifest_eq_ok hpeer
  refine ⟨answer, w, hanswer, ?_⟩
  cases answer with
  | none =>
      cases h
      exact ⟨rfl, rfl⟩
  | some m =>
      obtain ⟨plan, s₃, hplan, h⟩ := bind_eq_ok.mp h
      obtain ⟨count, s₄, hdownload, h⟩ := bind_eq_ok.mp h
      obtain ⟨final, s₅, hfinal, h⟩ := bind_eq_ok.mp h
      obtain ⟨_, s₆, hsave, h⟩ := bind_eq_ok.mp h
      cases hsave
      obtain ⟨-, rfl⟩ := pure_eq_ok.mp h
      obtain ⟨hcompute, rfl⟩ := orRaise_eq_ok.mp hplan
      obtain ⟨w', hrun⟩ := @download_cases W settings peer relativePath
        (joinPath syncRoot relativePath) plan { s₁ with world := w }
      rw [hrun] at hdownload
      generalize hreturned : settings.returned peer relativePath plan w = returned at hdownload
      obtain ⟨chunks, _ | e⟩ := returned
      · simp only [EStateM.Result.ok.injEq] at hdownload
        obtain ⟨rfl, rfl⟩ := hdownload
        refine ⟨current, plan, final, hcurrent, hcompute, by rw [hreturned], ?_⟩
        rw [hreturned]
        simp only [SyncFileUseCase.finalManifest, ne_eq, List.length_eq_zero_iff, ite_not] at hfinal
        by_cases hnil : chunks = []
        · rw [if_pos hnil] at hfinal
          obtain ⟨rfl, rfl⟩ := pure_eq_ok.mp hfinal
          exact ⟨rfl, rfl, by rw [if_pos hnil]⟩
        · rw [if_neg hnil] at hfinal
          obtain ⟨rfl, hbuild⟩ := buildManifestOf_eq_ok hfinal
          exact ⟨rfl, rfl, by rw [if_neg hnil]; exact hbuild⟩
      · simp at hdownload

/-! ### Pulls that may raise -/

section

variable (uc : SyncFileUseCase W)

theorem stateOf_download (path : FilePath) (plan : DeltaPlan) (s : SyncState W) :
    ∃ w, stateOf (uc.download peer relativePath path plan s) =
      stateOf (uc.storeChunks path (uc.returned peer relativePath plan s.world).2
        (uc.returned peer relativePath plan s.world).1 { s with world := w }) := by
  unfold SyncFileUseCase.download SyncFileSettings.returned
  by_cases hcount : 0 < plan.transferCount
  · refine ⟨(uc.manifestExchange.requestChunks peer relativePath
      (SyncFileUseCase.hashesToRequest plan) s.world).2, ?_⟩
    rw [if_pos hcount, if_pos hcount, bind_run]
    rfl
  · refine ⟨s.world, ?_⟩
    rw [if_neg hcount, if_neg hcount]
    rfl

theorem keeps_finalManifest {γ : Type} {g : SyncState W → γ} (path : FilePath)
    (current : ChunkCollection) (count : ℕ) :
    Keeps g (uc.finalManifest path strategy chunkSize current count) := by
  unfold SyncFileUseCase.finalManifest
  split_ifs
  · exact keeps_buildManifestOf _
  · exact keeps_pure _

/-- What a pull leaves on the disk is what storing the returned chunks leaves
there, whatever becomes of it later. -/
theorem storage_pull {current : ChunkCollection} {m : ManifestWithVersion} {plan : DeltaPlan}
    {w : W}
    (hcurrent : uc.localManifestOrEmpty (joinPath syncRoot relativePath) strategy chunkSize s =
      .ok current s)
    (hanswer : uc.manifestExchange.requestManifest peer relativePath s.world = .ok (some m) w)
    (hplan : DeltaCalculator.compute (some current)
      (m.collection.withSourcePath (joinPath syncRoot relativePath)) = .ok plan) :
    ∃ w', (stateOf (uc.pull peer syncRoot relativePath strategy chunkSize s)).storage =
      (stateOf (uc.storeChunks (joinPath syncRoot relativePath)
        (uc.returned peer relativePath plan w).2 (uc.returned peer relativePath plan w).1
        { s with world := w' })).storage := by
  obtain ⟨w', hdownload⟩ := @stateOf_download W peer relativePath uc
    (joinPath syncRoot relativePath) plan { s with world := w }
  refine ⟨w', ?_⟩
  unfold SyncFileUseCase.pull
  rw [bind_run, hcurrent]
  simp only
  rw [bind_run, normalizedPeerManifest_run uc hanswer]
  simp only [Option.map_some]
  rw [bind_run, orRaise_eq_ok.mpr ⟨hplan, rfl⟩]
  simp only
  apply (stateOf_bind (g := SyncState.storage)
    (fun _ ↦ (keeps_finalManifest uc _ _ _).bind fun _ _ ↦ rfl) _).trans
  exact congrArg SyncState.storage hdownload

theorem stateOf_localManifestOrEmpty (path : FilePath)
    (strategy : ChunkingStrategy) (chunkSize : ℕ) (s : SyncState W) :
    stateOf (uc.localManifestOrEmpty path strategy chunkSize s) = s := by
  simp only [SyncFileUseCase.localManifestOrEmpty, bind_run, get_run]
  generalize buildManifest uc.engine path strategy (uc.contentAt path s) chunkSize = built
  rcases built with ((_ | _) | _) | _
  · simp only
    generalize ChunkCollection.make path chunkSize 0 [] = made
    cases made <;> rfl
  · rfl
  · rfl
  · rfl

theorem storage_pull_of_no_plan
    (h : ∀ current m w plan,
      uc.localManifestOrEmpty (joinPath syncRoot relativePath) strategy chunkSize s =
        .ok current s →
      uc.manifestExchange.requestManifest peer relativePath s.world = .ok (some m) w →
      DeltaCalculator.compute (some current)
        (m.collection.withSourcePath (joinPath syncRoot relativePath)) ≠ .ok plan) :
    (stateOf (uc.pull peer syncRoot relativePath strategy chunkSize s)).storage = s.storage := by
  have hstate := stateOf_localManifestOrEmpty uc (joinPath syncRoot relativePath) strategy
    chunkSize s
  unfold SyncFileUseCase.pull
  rw [bind_run]
  cases hcurrent : uc.localManifestOrEmpty (joinPath syncRoot relativePath) strategy chunkSize s
    with
  | error e t =>
      rw [hcurrent] at hstate
      exact congrArg SyncState.storage hstate
  | ok current t =>
      rw [hcurrent] at hstate
      obtain rfl : t = s := hstate
      cases hanswer : uc.manifestExchange.requestManifest peer relativePath t.world with
      | error e w =>
          simp only [SyncFileUseCase.normalizedPeerManifest, bind_run, onWorld, zoom, hanswer,
            stateOf]
      | ok answer w =>
          simp only [bind_run, normalizedPeerManifest_run uc hanswer]
          cases answer with
          | none => rfl
          | some m =>
              cases hplan : DeltaCalculator.compute (some current)
                  (m.collection.withSourcePath (joinPath syncRoot relativePath)) with
              | ok plan => exact absurd hplan (h current m w plan hcurrent hanswer)
              | error e => simp only [Option.map_some, bind_run, hplan, orRaise, throw_run, stateOf]

end

theorem pull_storage {current : ChunkCollection} {m : ManifestWithVersion} {plan : DeltaPlan}
    {w : W}
    (hcurrent : settings.onDisk.localManifestOrEmpty (joinPath syncRoot relativePath) strategy
      chunkSize s = .ok current s)
    (hanswer : settings.manifestExchange.requestManifest peer relativePath s.world =
      .ok (some m) w)
    (hplan : DeltaCalculator.compute (some current)
      (m.collection.withSourcePath (joinPath syncRoot relativePath)) = .ok plan) :
    (stateOf (settings.onDisk.pull peer syncRoot relativePath strategy chunkSize s)).storage =
      s.storage.storeAll (settings.located (joinPath syncRoot relativePath))
        (settings.returned peer relativePath plan w).1 := by
  obtain ⟨w', hstorage⟩ := storage_pull settings.onDisk hcurrent hanswer hplan
  rw [hstorage, storeChunks_run]
  have hreturned : settings.onDisk.returned peer relativePath plan w =
      settings.returned peer relativePath plan w := rfl
  rw [hreturned]
  cases (settings.returned peer relativePath plan w).2 <;> rfl

end Pull

end SecureSync
