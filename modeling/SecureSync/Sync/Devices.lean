import SecureSync.Receiver.Commits
import SecureSync.Sync.Runs
import SecureSync.Sync.Segments

/-!
# Runs of one device

`main.py` gives the sync use case, the receiver of pushes and the answering
side of the manifest exchange one sync root, one chunk repository and one
metadata repository.  A run of the device is any sequence of their steps.
-/

namespace SecureSync

open Raising

structure Device (W : Type) extends SyncFileSettings W where
  syncRoot : FilePath
  ownDeviceId : DeviceId
  limits : PushLimits := {}

structure DeviceState (W : Type) extends SyncState W where
  metadata : MetadataStore
  pending : AList fun _ : String ↦ PendingFile

variable {W : Type}

def DeviceState.received (s : DeviceState W) : ReceiverState := ⟨s.storage, s.metadata, s.pending⟩

def DeviceState.withReceived (s : DeviceState W) (st : ReceiverState) : DeviceState W :=
  { s with storage := st.storage, metadata := st.metadata, pending := st.pending }

namespace Device

variable (d : Device W)

def receiver : ReceiverSettings where
  resolver := d.resolver
  syncRoot := d.syncRoot
  ownDeviceId := d.ownDeviceId
  hasher := d.engine.hasher
  limits := d.limits

/-- What this device answers the requests of its peers from. -/
def server (s : DeviceState W) : ManifestServer where
  resolver := d.resolver
  syncRoot := d.syncRoot
  repository := s.repository
  files path := s.storage.files (.file path)
  metadataLookup := some s.metadata

def run (s : DeviceState W) (call : SyncCall) : SyncRun W where
  settings := d.toSyncFileSettings
  peer := call.peer
  syncRoot := d.syncRoot
  relativePath := call.relativePath
  strategy := call.strategy
  honours := call.honours
  chunkSize := call.chunkSize
  state := s.toSyncState

/-- Where the file of a call is. -/
def place (call : SyncCall) : FilePath := d.resolver.resolve (joinPath d.syncRoot call.relativePath)

end Device

/-! ## Calls under way -/

namespace SyncPhase

def isReading : SyncPhase → Bool
  | .reading _ | .pushing (.reading _) | .pulling (.reading _) | .pulling (.rereading _ _) => true
  | _ => false

/-- The call has read something else. -/
def misread (content : Option Bytes) : SyncPhase → SyncPhase
  | .reading _ => .reading content
  | .pushing (.reading _) => .pushing (.reading content)
  | .pulling (.reading _) => .pulling (.reading content)
  | .pulling (.rereading _ n) => .pulling (.rereading content n)
  | phase => phase

end SyncPhase

/-- `disturbed` keeps whether the file was changed by another task since the call opened it. -/
structure SyncTask where
  call : SyncCall
  phase : SyncPhase
  disturbed : Bool

structure BusyDevice (W : Type) extends DeviceState W where
  tasks : ℕ → Option SyncTask

def BusyDevice.setTask (s : BusyDevice W) (id : ℕ) (task : Option SyncTask) : BusyDevice W :=
  { s with tasks := Function.update s.tasks id task }

inductive SyncOperation where
  | push
  | pull
  | sync

def SyncOperation.start : SyncOperation → SyncPhase
  | .push => .pushing .starting
  | .pull => .pulling .starting
  | .sync => .starting

/-- `advance` runs a call to its next await.  A call may have read anything of a file that another
task has written to meanwhile.  A received push is one step, since it awaits nothing before its file
is in place.  `elapse` is what happens elsewhere. -/
inductive DeviceEvent (W : Type) where
  | call (id : ℕ) (operation : SyncOperation) (call : SyncCall)
  | advance (id : ℕ)
  | cancel (id : ℕ)
  | misread (id : ℕ) (content : Option Bytes)
  | receive (event : ReceiverEvent)
  | elapse (clock : ℕ → Timestamp) (world : W)

namespace Device

variable (d : Device W)

def fileOf (storage : Storage) (call : SyncCall) : Option Bytes :=
  storage.files (.file (d.place call))

/-- The tasks, when the files were these before and are those after. -/
def disturb (before after : Storage) (tasks : ℕ → Option SyncTask) (id : ℕ) : Option SyncTask :=
  (tasks id).map fun task ↦
    { task with
      disturbed := task.disturbed || d.fileOf after task.call ≠ d.fileOf before task.call }

def next (s : BusyDevice W) (task : SyncTask) :
    EStateM.Result SyncError (SyncState W) SyncPhase :=
  d.toSyncFileSettings.onDisk.syncNext d.syncRoot task.call task.phase s.toSyncState

/-- What the task has come to, and what that leaves of the others. -/
def moved (s : BusyDevice W) (t : SyncState W) (id : ℕ) (task : Option SyncTask) : BusyDevice W :=
  { s with toSyncState := t, tasks := d.disturb s.storage t.storage s.tasks }.setTask id task

/-- A segment of one call, which may also be its last. -/
def advance (s : BusyDevice W) (id : ℕ) (task : SyncTask) : BusyDevice W :=
  match d.next s task with
  | .ok phase t =>
      d.moved s t id
        (some { task with phase, disturbed := task.disturbed && !phase.isReading })
  | .error _ t => d.moved s t id none

def receive (s : BusyDevice W) (event : ReceiverEvent) : BusyDevice W :=
  let st := d.receiver.step s.received event
  { s.withReceived st with tasks := d.disturb s.storage st.storage s.tasks }

def step (s : BusyDevice W) : DeviceEvent W → BusyDevice W
  | .call id operation call =>
      if (s.tasks id).isSome then s else s.setTask id (some ⟨call, operation.start, false⟩)
  | .advance id =>
      match s.tasks id with
      | none => s
      | some task => d.advance s id task
  | .cancel id => s.setTask id none
  | .misread id content =>
      match s.tasks id with
      | none => s
      | some task =>
          if task.disturbed then
            s.setTask id (some { task with phase := task.phase.misread content })
          else s
  | .receive event => d.receive s event
  | .elapse clock world => { s with clock := clock, world := world }

theorem disturb_self (files : Storage) (tasks : ℕ → Option SyncTask) :
    d.disturb files files tasks = tasks := by
  funext id
  unfold disturb
  cases tasks id <;> simp

theorem setTask_eq_moved (s : BusyDevice W) (id : ℕ) (task : Option SyncTask) :
    s.setTask id task = d.moved s s.toSyncState id task := by
  rw [moved, disturb_self]

end Device

def sampleCall : SyncCall where
  peer := samplePeer
  relativePath := "a.txt"
  strategy := byteStrategy.toStrategy
  honours := byteStrategy.honours
  chunkSize := 1

end SecureSync
