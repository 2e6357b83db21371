import SecureSync.Library.Raising
import SecureSync.Application.HashChunks
import SecureSync.Domain.Metadata
import SecureSync.Infrastructure.LocalFileReconstructor
import SecureSync.Shared.SafePath
import Mathlib.Data.Finset.Card
import Mathlib.Data.List.AList
import Mathlib.Data.Rat.Defs
import Mathlib.Algebra.Order.Ring.Unbundled.Rat

/-!
# Receiving pushed files

`application/use_cases/receive_pushed_files.py`.  Handling one push is a state
transformer that keeps the state it reached when it raises, and an event of a
run is a push taken from the transport or a sweep of the background task.
-/

namespace SecureSync

open Raising

/-! ## Messages and limits -/

structure IncomingPush where
  relativePath : String
  totalChunks : ℤ
  chunk : Chunk
  versionVector : Option VersionVector := none
  deriving DecidableEq

def mib : ℕ := 1024 * 1024

structure PushLimits where
  maxChunkSize : ℕ := 64 * mib
  maxFileSize : ℕ := 64 * 1024 * mib
  maxTotalChunks : ℕ := 100000
  maxPendingFiles : ℕ := 64
  partialTimeoutSeconds : ℚ := 300
  sweepIntervalSeconds : ℚ := 30

inductive PushRejection where
  | totalChunksBelowOne (totalChunks : ℤ)
  | totalChunksAboveLimit (totalChunks : ℤ) (limit : ℕ)
  | chunkSizeAboveLimit (size limit : ℕ)
  | fileSizeAboveLimit (offset limit : ℕ)
  | noHash
  | hashMismatch (relativePath : String) (declared actual : ChunkHash)
  | tooManyPending (count : ℕ)
  deriving DecidableEq

inductive PushError where
  | unsafePath (error : UnsafePathError)
  | rejected (error : PushRejection)
  | chunkEngine (error : ChunkEngineError)
  | metadata (error : MetadataError)
  deriving DecidableEq

/-- The errors that `run_forever` logs and drops; a database error is not one
of them. -/
def PushError.isCaught : PushError → Bool
  | .metadata _ => false
  | _ => true

/-! ## State -/

structure PendingFile where
  partPath : PartPath
  receivedIndices : Finset ℕ := ∅
  versionVector : Option VersionVector := none
  lastActivity : ℚ
  deriving DecidableEq

/-- The files and records of a device with the pending table of its receiver.
The order of the table only decides in which order a sweep unlinks. -/
structure ReceiverState where
  storage : Storage
  metadata : MetadataStore
  pending : AList fun _ : String ↦ PendingFile

/-- `time.monotonic()` in seconds and `datetime.now(UTC)`, as read while one
push is handled. -/
structure Clock where
  monotonic : ℚ
  utc : Timestamp

structure ReceiverSettings where
  resolver : Resolver
  syncRoot : FilePath
  ownDeviceId : DeviceId
  hasher : ChunkHasher
  limits : PushLimits := {}

structure ReceivePushedFiles extends ReceiverSettings where
  fileReconstructor : FileReconstructor
  metadataRepo : MetadataRepository

/-- The receiver over a disk and a database that serve every request. -/
def ReceiverSettings.onDisk (settings : ReceiverSettings) : ReceivePushedFiles :=
  { settings with
    fileReconstructor := localFileReconstructor
    metadataRepo := mapMetadataRepository }

/-! ## Handling one push -/

abbrev HandleM := EStateM PushError ReceiverState

def onStorage {α : Type} (action : EStateM ChunkEngineError Storage α) : HandleM α :=
  zoom ReceiverState.storage (fun storage st ↦ { st with storage }) .chunkEngine action

def onMetadata {α : Type} (action : EStateM MetadataError MetadataStore α) : HandleM α :=
  zoom ReceiverState.metadata (fun metadata st ↦ { st with metadata }) .metadata action

def setPending (relativePath : String) (pending : PendingFile) : HandleM Unit :=
  modify fun st ↦ { st with pending := st.pending.insert relativePath pending }

/-- `_validate`. -/
def ReceiverSettings.validate (settings : ReceiverSettings) (incoming : IncomingPush) :
    Except PushRejection Unit :=
  let metadata := incoming.chunk.metadata
  if incoming.totalChunks < 1 then .error (.totalChunksBelowOne incoming.totalChunks)
  else if settings.limits.maxTotalChunks < incoming.totalChunks then
    .error (.totalChunksAboveLimit incoming.totalChunks settings.limits.maxTotalChunks)
  else if settings.limits.maxChunkSize < metadata.size then
    .error (.chunkSizeAboveLimit metadata.size settings.limits.maxChunkSize)
  else if settings.limits.maxFileSize < metadata.offset + metadata.size then
    .error (.fileSizeAboveLimit metadata.offset settings.limits.maxFileSize)
  else
    match metadata.chunkHash with
    | none => .error .noHash
    | some declared =>
        let actual := settings.hasher.hash incoming.chunk.data
        if actual.algorithm ≠ declared.algorithm ∨ actual.digest ≠ declared.digest then
          .error (.hashMismatch incoming.relativePath declared actual)
        else .ok ()

def PendingFile.mergedVersion (pending : PendingFile) (incoming : IncomingPush) :
    Option VersionVector :=
  match incoming.versionVector, pending.versionVector with
  | none, known => known
  | some sent, none => some sent
  | some sent, some known => some (known.merge sent)

def finalVersion (ownDeviceId : DeviceId) (sent : Option VersionVector)
    (existing : Option FileMetadata) : VersionVector :=
  match sent, existing with
  | none, none => VersionVector.empty.increment ownDeviceId
  | none, some existing => existing.versionVector.increment ownDeviceId
  | some version, none => version
  | some version, some existing => version.merge existing.versionVector

theorem existing_within_finalVersion (ownDeviceId : DeviceId) (sent : Option VersionVector)
    (existing : FileMetadata) :
    existing.versionVector.Within (finalVersion ownDeviceId sent (some existing)) := by
  cases sent with
  | none => exact VersionVector.within_increment _ _
  | some version => exact VersionVector.within_merge_right _ _

theorem sent_within_finalVersion (ownDeviceId : DeviceId) (sent : VersionVector)
    (existing : Option FileMetadata) :
    sent.Within (finalVersion ownDeviceId (some sent) existing) := by
  cases existing with
  | none => exact .refl sent
  | some existing => exact VersionVector.within_merge_left _ _

namespace ReceivePushedFiles

variable (uc : ReceivePushedFiles)

def finalize (clock : Clock) (relativePath : String) (destination : FilePath)
    (pending : PendingFile) : HandleM Unit := do
  onStorage (uc.fileReconstructor.commitPartial destination pending.partPath)
  modify fun st ↦ { st with pending := st.pending.erase relativePath }
  let existing ← onMetadata (uc.metadataRepo.getFileMetadata relativePath)
  onMetadata (uc.metadataRepo.saveFileMetadata
    { filePath := relativePath
      versionVector := finalVersion uc.ownDeviceId pending.versionVector existing
      lastModified := clock.utc })

/-- The entry a chunk is written through, opened if there is none. -/
def openPending (clock : Clock) (relativePath : String) (destination : FilePath) :
    HandleM PendingFile := do
  let st ← get
  match st.pending.lookup relativePath with
  | some pending => return pending
  | none =>
      if uc.limits.maxPendingFiles ≤ st.pending.keys.length then
        throw (.rejected (.tooManyPending st.pending.keys.length))
      let partPath ← onStorage (uc.fileReconstructor.beginPartial destination)
      let pending : PendingFile := { partPath, lastActivity := clock.monotonic }
      setPending relativePath pending
      return pending

def handlePush (clock : Clock) (incoming : IncomingPush) : HandleM Unit := do
  let destination ← orRaise .unsafePath
    (resolveWithin uc.resolver uc.syncRoot incoming.relativePath)
  orRaise .rejected (uc.validate incoming)
  let pending ← uc.openPending clock incoming.relativePath destination
  let pending := { pending with lastActivity := clock.monotonic }
  setPending incoming.relativePath pending
  onStorage (uc.fileReconstructor.writeChunkAtOffset (.part pending.partPath) incoming.chunk)
  let pending := { pending with
    receivedIndices := insert incoming.chunk.metadata.index pending.receivedIndices
    versionVector := pending.mergedVersion incoming }
  setPending incoming.relativePath pending
  if incoming.totalChunks ≤ pending.receivedIndices.card then
    uc.finalize clock incoming.relativePath destination pending

/-! ## Clean-up -/

def abortPending (relativePath : String) (st : ReceiverState) : ReceiverState :=
  match st.pending.lookup relativePath with
  | none => st
  | some pending =>
      { st with
        storage := uc.fileReconstructor.abortPartial pending.partPath st.storage
        pending := st.pending.erase relativePath }

def isExpired (now : ℚ) (pending : PendingFile) : Bool :=
  uc.limits.partialTimeoutSeconds < now - pending.lastActivity

def abortExpiredPartials (now : ℚ) (st : ReceiverState) : ReceiverState :=
  let expired := (st.pending.entries.filter fun entry ↦ uc.isExpired now entry.2).map Sigma.fst
  expired.foldl (fun st relativePath ↦ uc.abortPending relativePath st) st

def abortAllPartials (st : ReceiverState) : ReceiverState :=
  { st with
    storage := st.pending.entries.foldl
      (fun storage entry ↦ uc.fileReconstructor.abortPartial entry.2.partPath storage) st.storage
    pending := ∅ }

end ReceivePushedFiles

/-! ## Runs -/

inductive ReceiverEvent where
  | push (clock : Clock) (incoming : IncomingPush)
  | sweep (now : ℚ)

/-- The body of the loop, with the errors it drops; and the sweeper's. -/
def ReceivePushedFiles.handleEvent (uc : ReceivePushedFiles) : ReceiverEvent → HandleM Unit
  | .push clock incoming => fun st ↦
      match uc.handlePush clock incoming st with
      | .ok _ st' => .ok () st'
      | .error e st' => if e.isCaught then .ok () st' else .error e st'
  | .sweep now => modify (uc.abortExpiredPartials now)

/-- The loop up to the last of these events.  An error that is not dropped ends
it, and the partial files are cleaned up. -/
def ReceivePushedFiles.runForever (uc : ReceivePushedFiles) :
    List ReceiverEvent → ReceiverState → ReceiverState
  | [], st => st
  | event :: events, st =>
      match uc.handleEvent event st with
      | .ok _ st' => uc.runForever events st'
      | .error _ st' => uc.abortAllPartials st'

/-! ## A device with one file

For the examples of this development: the file is `a.txt` below `/srv/sync`. -/

def sampleRoot : FilePath := ["srv", "sync"]

def sampleStorage (content : Option Bytes) : Storage :=
  .ofFiles fun path ↦ if path = samplePath then content else none

def sampleReceiver : ReceiverSettings where
  resolver := .plain
  syncRoot := sampleRoot
  ownDeviceId := "C"
  hasher := sampleHasher

def sampleReceiverState (content : Option Bytes) : ReceiverState :=
  ⟨sampleStorage content, fun _ ↦ none, ∅⟩

def samplePushOf2 (version : Option VersionVector) : IncomingPush where
  relativePath := "a.txt"
  totalChunks := 1
  chunk := (cutChunk sampleReader samplePath ⟨[], [], 0, 0⟩ [2]).withHash digestOf2
  versionVector := version

end SecureSync
