import SecureSync.Domain.Chunk
import SecureSync.Library.Inodes

/-!
# Atomic writes

`_atomic_write.py` and the reading of `FileChunkRepository.load`, one system call after the
other, for calls that overlap.  Directories hold no data and are left out.
-/

namespace SecureSync

open Inodes

abbrev Disk := FileSystem FilePath UInt8

/-- A call of `atomic_write_bytes`. -/
structure AtomicWrite where
  directory : FilePath
  name : String
  data : Bytes
  tempSuffix : String
  deriving DecidableEq, Repr

namespace AtomicWrite

variable (call : AtomicWrite)

def destination : FilePath := call.directory ++ [call.name]

/-- `destination.with_name(...)`. -/
def tempPath : FilePath := call.directory ++ ["." ++ call.name ++ ".tmp-" ++ call.tempSuffix]

end AtomicWrite

/-- The call that `FileChunkRepository.save` makes. -/
def manifestWrite (storageDir : FilePath) (name : String) (document : Bytes) : AtomicWrite :=
  ⟨storageDir, name, document, "manifest"⟩

/-- What a call has done so far. -/
inductive WritePhase where
  | begun
  | madeParents
  | writing (inode written : ℕ)
  | synced
  | failing
  | returned
  | raised
  | crashed
  deriving DecidableEq, Repr

/-- How a step ends; `count` bytes are written or read. -/
inductive StepOutcome where
  | goes (count : ℕ)
  | raises
  | crashes
  deriving DecidableEq, Repr

def AtomicWrite.step (call : AtomicWrite) (disk : Disk) :
    WritePhase → StepOutcome → Disk × WritePhase
  | .returned, _ => (disk, .returned)
  | .raised, _ => (disk, .raised)
  | .crashed, _ => (disk, .crashed)
  | _, .crashes => (disk, .crashed)
  -- `mkdir` is called before the `try`.
  | .begun, .raises => (disk, .raised)
  | .begun, .goes _ => (disk, .madeParents)
  | .madeParents, .goes _ => (disk.truncate call.tempPath, .writing (disk.opened call.tempPath) 0)
  | .writing inode written, .goes count =>
      if written = call.data.length then (disk, .synced)
      else
        let bytes := (call.data.drop written).take count
        (disk.writeTo 0 inode ⟨written, bytes⟩, .writing inode (written + bytes.length))
  | .synced, .goes _ =>
      if disk.names call.tempPath = none then (disk, .failing)
      else (disk.rename call.tempPath call.destination, .returned)
  | .madeParents, .raises => (disk, .failing)
  -- The error leaves the `with` block; its `close` has written what it could before.
  | .writing _ _, .raises => (disk, .failing)
  | .synced, .raises => (disk, .failing)
  -- An error of `unlink` is suppressed.
  | .failing, .goes _ => (disk.unlink call.tempPath, .raised)
  | .failing, .raises => (disk, .raised)

/-- What a reader has seen; `load` returns `None` where there is no file. -/
inductive ReadPhase where
  | begun
  | found
  | reading (inode : ℕ) (got : Bytes)
  | returned (content : Option Bytes)
  | raised
  deriving DecidableEq, Repr

/-- `exists()` and `read_bytes()`. -/
def ReadPhase.step (path : FilePath) (disk : Disk) : ReadPhase → StepOutcome → ReadPhase
  | .returned content, _ => .returned content
  | .raised, _ => .raised
  | _, .raises => .raised
  | _, .crashes => .raised
  | .begun, .goes _ => if disk.names path = none then .returned none else .found
  | .found, .goes _ =>
      match disk.names path with
      | none => .raised
      | some inode => .reading inode []
  | .reading inode got, .goes count =>
      if (disk.contents inode).length ≤ got.length then .returned (some got)
      else .reading inode (got ++ ((disk.contents inode).drop got.length).take count)

/-! ## Overlapping calls -/

/-- The calls, and readers of the destinations of some of them. -/
structure OverlappingWrites (ι κ : Type) where
  writes : ι → AtomicWrite
  reads : κ → ι

structure WritesState (ι κ : Type) where
  disk : Disk
  writes : ι → WritePhase
  reads : κ → ReadPhase

def WritesState.start {ι κ : Type} (disk : Disk) : WritesState ι κ :=
  ⟨disk, fun _ ↦ .begun, fun _ ↦ .begun⟩

inductive DiskEvent (ι κ : Type) where
  | write (i : ι) (outcome : StepOutcome)
  | read (j : κ) (outcome : StepOutcome)
  deriving DecidableEq, Repr

def OverlappingWrites.step {ι κ : Type} [DecidableEq ι] [DecidableEq κ]
    (calls : OverlappingWrites ι κ) (s : WritesState ι κ) : DiskEvent ι κ → WritesState ι κ
  | .write i outcome =>
      let (disk, phase) := (calls.writes i).step s.disk (s.writes i) outcome
      { s with disk, writes := Function.update s.writes i phase }
  | .read j outcome =>
      let path := (calls.writes (calls.reads j)).destination
      { s with reads := Function.update s.reads j (ReadPhase.step path s.disk (s.reads j) outcome) }

end SecureSync
