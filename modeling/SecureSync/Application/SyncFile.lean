import SecureSync.Application.ReceivePushedFiles
import SecureSync.Domain.Delta
import SecureSync.Domain.SyncDirection
import SecureSync.Infrastructure.ManifestExchange

/-!
# Synchronizing one file

`application/use_cases/sync_file.py`, with the upload loop of
`transfer_chunks.py`.  `W` is the world outside this device: the peer, the
network, and whatever else the injected callables may look at or change.
-/

namespace SecureSync

open Raising

structure SyncFileResult where
  transferredCount : ℕ
  direction : Option String := none
  deriving DecidableEq, Repr

inductive TransferError where
  | unreachable
  deriving DecidableEq, Repr

inductive SyncError where
  | manifest (error : ManifestError)
  | delta (error : DeltaError)
  | exchange (error : ExchangeError)
  | transfer (error : TransferError)
  | chunkEngine (error : ChunkEngineError)
  deriving DecidableEq

/-- This device during a sync, and the world around it.  `outbox` lists the
pushes sent so far, `clock` what the next readings of `datetime.now` return. -/
structure SyncState (W : Type) where
  storage : Storage
  repository : ChunkRepository
  outbox : List IncomingPush
  clock : ℕ → Timestamp
  world : W

structure SyncFileSettings (W : Type) where
  resolver : Resolver
  engine : ChunkEngine
  manifestExchange : ManifestExchange W
  sendChunk : Peer → IncomingPush → EStateM TransferError W Unit
  localVersionProvider : Option (String → W → Option VersionVector × W) := none

structure SyncFileUseCase (W : Type) extends SyncFileSettings W where
  fileReconstructor : FileReconstructor

def SyncFileSettings.onDisk {W : Type} (settings : SyncFileSettings W) : SyncFileUseCase W :=
  { settings with fileReconstructor := localFileReconstructor }

abbrev SyncM (W : Type) := EStateM SyncError (SyncState W)

variable {W : Type}

def onWorld {ε α : Type} (wrap : ε → SyncError) (action : EStateM ε W α) : SyncM W α :=
  zoom SyncState.world (fun world s ↦ { s with world }) wrap action

def onSyncStorage {α : Type} (action : EStateM ChunkEngineError Storage α) : SyncM W α :=
  zoom SyncState.storage (fun storage s ↦ { s with storage }) .chunkEngine action

/-- One reading of `datetime.now(UTC)`. -/
def utcNow : SyncM W Timestamp := fun s ↦
  .ok (s.clock 0) { s with clock := fun n ↦ s.clock (n + 1) }

def neededHashes (plan : DeltaPlan) : Finset String :=
  ((plan.chunksToTransfer.filterMap ChunkMetadata.chunkHash).map ChunkHash.digest).toFinset

/-- `_filter_chunks_to_upload` keeps a chunk whose digest is needed. -/
def isNeeded (needed : Finset String) (chunk : Chunk) : Bool :=
  match chunk.metadata.chunkHash with
  | none => false
  | some chunkHash => chunkHash.digest ∈ needed

namespace SyncFileUseCase

variable (uc : SyncFileUseCase W)

def contentAt (path : FilePath) (s : SyncState W) : Option Bytes :=
  s.storage.files (.file (uc.resolver.resolve path))

def buildManifestOf (path : FilePath) (strategy : ChunkingStrategy) (chunkSize : ℕ) :
    SyncM W ChunkCollection := do
  let s ← get
  orRaise .manifest (buildManifest uc.engine path strategy (uc.contentAt path s) chunkSize)

/-- `_local_manifest_or_empty`. -/
def localManifestOrEmpty (sourcePath : FilePath) (strategy : ChunkingStrategy) (chunkSize : ℕ) :
    SyncM W ChunkCollection := do
  let s ← get
  match buildManifest uc.engine sourcePath strategy (uc.contentAt sourcePath s) chunkSize with
  | .ok collection => return collection
  | .error (.source (.notFound _)) =>
      orRaise (fun error ↦ .manifest (.value error))
        (ChunkCollection.make sourcePath chunkSize 0 [])
  | .error error => throw (.manifest error)

/-- `_normalized_peer_manifest`. -/
def normalizedPeerManifest (peer : Peer) (relativePath : String) (sourcePath : FilePath) :
    SyncM W (Option ChunkCollection) := do
  let peerManifest ← onWorld .exchange (uc.manifestExchange.requestManifest peer relativePath)
  return peerManifest.map fun m ↦ m.collection.withSourcePath sourcePath

def localVersion (relativePath : String) : SyncM W (Option VersionVector) :=
  match uc.localVersionProvider with
  | none => pure none
  | some provider => fun s ↦
      .ok (provider relativePath s.world).1 { s with world := (provider relativePath s.world).2 }

def send (peer : Peer) (incoming : IncomingPush) : SyncM W Unit := do
  onWorld .transfer (uc.sendChunk peer incoming)
  modify fun s ↦ { s with outbox := s.outbox ++ [incoming] }

/-- `UploadChunksUseCase.execute` on the chunks that a reader yields before the
error that ends the stream, if one does. -/
def upload (peer : Peer) (relativePath : String) (totalChunks : ℤ)
    (versionVector : Option VersionVector) (error : Option ChunkSourceError) :
    List Chunk → SyncM W Unit
  | [] =>
      match error with
      | none => pure ()
      | some error => throw (.manifest (.source error))
  | chunk :: later => do
      uc.send peer { relativePath, totalChunks, chunk, versionVector }
      upload peer relativePath totalChunks versionVector error later

def saveManifest (collection : ChunkCollection) : SyncM W Unit :=
  modify fun s ↦ { s with repository := s.repository.save uc.resolver collection }

/-- The body of the `if` of `push`. -/
def uploadMissing (peer : Peer) (relativePath : String) (sourcePath : FilePath)
    (strategy : ChunkingStrategy) (localVersion : Option VersionVector)
    (uploadPlan : DeltaPlan) : SyncM W Unit := do
  let needed := neededHashes uploadPlan
  let s ← get
  let chunks := executeChunkFile uc.engine sourcePath strategy (uc.contentAt sourcePath s)
  uc.upload peer relativePath needed.card localVersion chunks.2 (chunks.1.filter (isNeeded needed))

def push (peer : Peer) (syncRoot : FilePath) (relativePath : String)
    (strategy : ChunkingStrategy) (chunkSize : ℕ) : SyncM W SyncFileResult := do
  let sourcePath := joinPath syncRoot relativePath
  let current ← uc.buildManifestOf sourcePath strategy chunkSize
  let peerManifest ← uc.normalizedPeerManifest peer relativePath sourcePath
  let localVersion ← uc.localVersion relativePath
  let uploadPlan ← orRaise .delta (DeltaCalculator.compute peerManifest current)
  if 0 < uploadPlan.transferCount then
    uc.uploadMissing peer relativePath sourcePath strategy localVersion uploadPlan
  uc.saveManifest current
  return { transferredCount := uploadPlan.transferCount }

/-- The loop of `pull`: store what the peer returns, and count it. -/
def storeChunks (path : FilePath) (error : Option ExchangeError) : List Chunk → SyncM W ℕ
  | [] =>
      match error with
      | none => pure 0
      | some error => throw (.exchange error)
  | chunk :: later => do
      onSyncStorage
        (uc.fileReconstructor.writeChunkAtOffset (.file (uc.resolver.resolve path)) chunk)
      let count ← storeChunks path error later
      return count + 1

def requestChunks (peer : Peer) (relativePath : String) (hashes : List String) :
    SyncM W (List Chunk × Option ExchangeError) := fun s ↦
  let answer := uc.manifestExchange.requestChunks peer relativePath hashes s.world
  .ok answer.1 { s with world := answer.2 }

def hashesToRequest (plan : DeltaPlan) : List String :=
  (plan.chunksToTransfer.filterMap ChunkMetadata.chunkHash).map ChunkHash.digest

def download (peer : Peer) (relativePath : String) (sourcePath : FilePath)
    (downloadPlan : DeltaPlan) : SyncM W ℕ := do
  if 0 < downloadPlan.transferCount then
    let chunks ← uc.requestChunks peer relativePath (hashesToRequest downloadPlan)
    uc.storeChunks sourcePath chunks.2 chunks.1
  else
    return 0

def finalManifest (sourcePath : FilePath) (strategy : ChunkingStrategy) (chunkSize : ℕ)
    (current : ChunkCollection) (transferredCount : ℕ) : SyncM W ChunkCollection :=
  if transferredCount ≠ 0 then uc.buildManifestOf sourcePath strategy chunkSize
  else pure current

def pull (peer : Peer) (syncRoot : FilePath) (relativePath : String)
    (strategy : ChunkingStrategy) (chunkSize : ℕ) : SyncM W SyncFileResult := do
  let sourcePath := joinPath syncRoot relativePath
  let current ← uc.localManifestOrEmpty sourcePath strategy chunkSize
  let peerManifest ← uc.normalizedPeerManifest peer relativePath sourcePath
  match peerManifest with
  | none => return { transferredCount := 0 }
  | some peerManifest =>
      let downloadPlan ← orRaise .delta (DeltaCalculator.compute (some current) peerManifest)
      let transferredCount ← uc.download peer relativePath sourcePath downloadPlan
      let finalManifest ← uc.finalManifest sourcePath strategy chunkSize current transferredCount
      uc.saveManifest finalManifest
      return { transferredCount }

/-! ## Choosing a direction -/

/-- What `sync` goes on to do. -/
inductive SyncAction where
  | push
  | pull
  | noop
  | conflict (remoteWins : Bool)
  deriving DecidableEq, Repr

/-- `_own_device_id`. -/
def ownDeviceId (peer : Peer) : DeviceId :=
  if peer.ipAddress = "" then "local" else peer.ipAddress

/-- The conflict branch of `sync`: both records are built here, each with its
own reading of the clock. -/
def remoteWins (peer : Peer) (relativePath : String)
    (localVersion remoteVersion : Option VersionVector) (mergeStrategy : MergeStrategy) :
    SyncM W Bool := do
  let detectedAt ← utcNow
  let localConflict : ConflictMetadata :=
    { conflictId := "sync-" ++ relativePath ++ "-" ++ peer.deviceId
      filePath := relativePath
      conflictType := .concurrentModification
      localVersion := localVersion.getD .empty
      remoteVersion := remoteVersion.getD .empty
      remoteDeviceId := peer.deviceId
      detectedAt }
  let detectedAt ← utcNow
  let remoteConflict : ConflictMetadata :=
    { conflictId := "sync-" ++ relativePath ++ "-local"
      filePath := relativePath
      conflictType := .concurrentModification
      localVersion := remoteVersion.getD .empty
      remoteVersion := localVersion.getD .empty
      remoteDeviceId := ownDeviceId peer
      detectedAt }
  return mergeStrategy.merge localConflict remoteConflict

/-- `sync` up to its decision. -/
def chooseAction (peer : Peer) (syncRoot : FilePath) (relativePath : String)
    (strategy : ChunkingStrategy) (chunkSize : ℕ) (mergeStrategy : MergeStrategy) :
    SyncM W SyncAction := do
  let localCollection ← uc.localManifestOrEmpty (joinPath syncRoot relativePath) strategy chunkSize
  let localVersion ← uc.localVersion relativePath
  let peerManifest ← onWorld .exchange (uc.manifestExchange.requestManifest peer relativePath)
  match peerManifest with
  | none => return if 0 < localCollection.chunkCount then .push else .noop
  | some peerManifest =>
      let decision := SyncDirectionResolver.resolve (some localCollection) localVersion
        (some peerManifest.collection) peerManifest.version
      match decision.direction with
      | .push => return .push
      | .pull => return .pull
      | .noop => return .noop
      | .conflict =>
          return .conflict (← remoteWins peer relativePath localVersion peerManifest.version
            mergeStrategy)

def sync (peer : Peer) (syncRoot : FilePath) (relativePath : String)
    (strategy : ChunkingStrategy) (chunkSize : ℕ)
    (mergeStrategy : MergeStrategy := lastWriterWinsStrategy) : SyncM W SyncFileResult := do
  match ← uc.chooseAction peer syncRoot relativePath strategy chunkSize mergeStrategy with
  | .push => uc.push peer syncRoot relativePath strategy chunkSize
  | .pull | .conflict true => uc.pull peer syncRoot relativePath strategy chunkSize
  | .noop | .conflict false =>
      return { transferredCount := 0, direction := some SyncDirection.noop.value }

end SyncFileUseCase
end SecureSync
