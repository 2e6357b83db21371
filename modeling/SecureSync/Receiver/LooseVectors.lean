import SecureSync.Core.Operators
import SecureSync.Infrastructure.TcpTransport

/-!
# Vectors of other types

The entries of a vector may be of any type.  `_handle_push` and `_finalize` of
`receive_pushed_files.py` merge and store them as far as the operators go.
-/

namespace SecureSync

open Raising

inductive LoopError where
  | channel (error : ChannelError)
  | payload (error : PayloadError)
  | type
  | linkLoop
  | handler (error : PushError)
  deriving DecidableEq

/-- The errors that `run_forever` drops.  A `TypeError` or a `RuntimeError` is not one of them. -/
def LoopError.isCaught : LoopError → Bool
  | .handler e => e.isCaught
  | .channel _ | .payload _ | .type | .linkLoop => false

/-! ## Where they are kept -/

/-- The vectors that are not of the declared types: of files that are being received, and of
recorded ones.  Each stands in for the vector of the receiver's own table. -/
structure LooseVectors where
  pending : String → Option PyDict
  recorded : String → Option PyDict

namespace LooseVectors

def empty : LooseVectors := ⟨fun _ ↦ none, fun _ ↦ none⟩

/-- The vectors of the file have the declared types. -/
def Typed (loose : LooseVectors) (relativePath : String) : Prop :=
  (loose.pending relativePath).isNone ∧ (loose.recorded relativePath).isNone

instance (loose : LooseVectors) (relativePath : String) : Decidable (loose.Typed relativePath) :=
  inferInstanceAs (Decidable (_ ∧ _))

end LooseVectors

/-- The receiver with the vectors that its own tables cannot hold. -/
structure LooseState where
  receiver : ReceiverState
  loose : LooseVectors

namespace LooseState

variable (s : LooseState) (relativePath : String)

def pendingVector : Option PyDict :=
  (s.receiver.pending.lookup relativePath).bind fun pending ↦
    s.loose.pending relativePath <|> pending.versionVector.map PyDict.ofVector

def recordedVector (metadata : FileMetadata) : PyDict :=
  (s.loose.recorded relativePath).getD (.ofVector metadata.versionVector)

end LooseState

/-- What the receiver's tables take of a vector, and what is kept apart. -/
def PyDict.kept (counters : PyDict) : VersionVector × Option PyDict :=
  match counters.vector? with
  | some version => (version, none)
  | none => (.empty, some counters)

/-! ## Handling a push -/

abbrev LooseM := EStateM LoopError LooseState

def onReceiver {α : Type} (action : HandleM α) : LooseM α :=
  zoom LooseState.receiver (fun receiver s ↦ { s with receiver }) .handler action

/-- The result of an operation that may raise a `TypeError`. -/
def comparable {α : Type} : Option α → LooseM α
  | none => throw .type
  | some a => pure a

/-- The `try` of `run_forever`. -/
def dropping (action : LooseM Unit) : LooseM Unit := fun s ↦
  match action s with
  | .ok _ s => .ok () s
  | .error e s => if e.isCaught then .ok () s else .error e s

/-- The entries that a push declares. -/
def PushMessage.sentVector (push : PushMessage) : Option PyDict :=
  push.versionCounters.map PyDict.ofPairs

def mergedVector? : Option PyDict → Option PyDict → Option (Option PyDict)
  | known, none => some known
  | none, some sent => some (some sent)
  | some known, some sent => (known.merge? sent).map some

def finalVector? (ownDeviceId : DeviceId) : Option PyDict → Option PyDict → Option PyDict
  | none, existing => (existing.getD []).increment? ownDeviceId
  | some vector, none => some vector
  | some vector, some existing => vector.merge? existing

def setPendingVector (relativePath : String) (pending : PendingFile) (vector : Option PyDict) :
    LooseM Unit :=
  modify fun s ↦
    { receiver := { s.receiver with
        pending := s.receiver.pending.insert relativePath
          { pending with versionVector := vector.map fun counters ↦ counters.kept.1 } }
      loose := { s.loose with
        pending := Function.update s.loose.pending relativePath
          (vector.bind fun counters ↦ counters.kept.2) } }

namespace ReceivePushedFiles

variable (uc : ReceivePushedFiles)

/-- `_handle_push` up to the vector. -/
def storeChunk (clock : Clock) (incoming : IncomingPush) : HandleM (FilePath × PendingFile) := do
  let destination ← orRaise .unsafePath
    (resolveWithin uc.resolver uc.syncRoot incoming.relativePath)
  orRaise .rejected (uc.validate incoming)
  let pending ← uc.openPending clock incoming.relativePath destination
  let pending := { pending with lastActivity := clock.monotonic }
  setPending incoming.relativePath pending
  onStorage (uc.fileReconstructor.writeChunkAtOffset (.part pending.partPath) incoming.chunk)
  let pending := { pending with
    receivedIndices := insert incoming.chunk.metadata.index pending.receivedIndices }
  setPending incoming.relativePath pending
  return (destination, pending)

variable (builtins : Builtins)

/-- The vector that `_finalize` stores, over the record that it finds. -/
def storedVector? (vector : Option PyDict) (existing : Option PyDict) : Option PyDict :=
  (finalVector? uc.ownDeviceId vector existing).bind (PyDict.throughJson? builtins)

/-- `_finalize`. -/
def finalizeLoose (clock : Clock) (relativePath : String) (destination : FilePath)
    (pending : PendingFile) (vector : Option PyDict) : LooseM Unit := do
  onReceiver (onStorage (uc.fileReconstructor.commitPartial destination pending.partPath))
  onReceiver (modify fun st ↦ { st with pending := st.pending.erase relativePath })
  let existing ← onReceiver (onMetadata (uc.metadataRepo.getFileMetadata relativePath))
  let s ← get
  let stored ← comparable
    (uc.storedVector? builtins vector (existing.map (s.recordedVector relativePath)))
  onReceiver (onMetadata (uc.metadataRepo.saveFileMetadata
    { filePath := relativePath
      versionVector := stored.kept.1
      lastModified := clock.utc }))
  modify fun s ↦
    { s with loose := { s.loose with
        recorded := Function.update s.loose.recorded relativePath stored.kept.2 } }

/-- `_handle_push`, with a vector of any types. -/
def handleLoose (clock : Clock) (push : PushMessage) (chunk : Chunk) : LooseM Unit := do
  let s ← get
  let (destination, pending) ← onReceiver
    (uc.storeChunk clock ⟨push.relativePath, push.totalChunks, chunk, none⟩)
  let vector ← comparable (mergedVector? (s.pendingVector push.relativePath) push.sentVector)
  setPendingVector push.relativePath pending vector
  if push.totalChunks ≤ pending.receivedIndices.card then
    uc.finalizeLoose builtins clock push.relativePath destination pending vector

theorem setPending_bind_setPending {α : Type} (relativePath : String)
    (pending pending' : PendingFile) (f : Unit → HandleM α) :
    (setPending relativePath pending >>= fun _ ↦ setPending relativePath pending' >>= f) =
      setPending relativePath pending' >>= f := by
  funext st
  have hsets (st : ReceiverState) (pending : PendingFile) : setPending relativePath pending st =
      .ok () { st with pending := st.pending.insert relativePath pending } := rfl
  simp only [bind_run, hsets, AList.insert_insert]

variable {uc} in
/-- A vector of the declared types is merged as in the domain. -/
theorem handlePush_eq (clock : Clock) (incoming : IncomingPush) :
    uc.handlePush clock incoming = (do
      let (destination, pending) ← uc.storeChunk clock incoming
      let pending := { pending with versionVector := pending.mergedVersion incoming }
      setPending incoming.relativePath pending
      if incoming.totalChunks ≤ pending.receivedIndices.card then
        uc.finalize clock incoming.relativePath destination pending) := by
  unfold handlePush storeChunk
  simp only [bind_assoc, pure_bind, setPending_bind_setPending]
  rfl

end ReceivePushedFiles

end SecureSync
