import SecureSync.Application.ReceivePushedFiles
import Mathlib.Tactic.ByContra

/-!
# Steps of the receiver

Over a disk and a database that serve every request, each event of a run is
one total update of the state.
-/

namespace SecureSync

open Raising

/-! ## One push as a state update -/

/-- The entry that a chunk lands in, and the state in which it is open. -/
def ReceiverState.opened (st : ReceiverState) (clock : Clock) (relativePath : String)
    (destination : FilePath) : PendingFile × ReceiverState :=
  match st.pending.lookup relativePath with
  | some pending => (pending, st)
  | none =>
      let begun := st.storage.beginPartial destination
      let pending : PendingFile := { partPath := begun.1, lastActivity := clock.monotonic }
      (pending, { st with storage := begun.2, pending := st.pending.insert relativePath pending })

def PendingFile.counted (pending : PendingFile) (clock : Clock) (incoming : IncomingPush) :
    PendingFile :=
  { pending with
    lastActivity := clock.monotonic
    receivedIndices := insert incoming.chunk.metadata.index pending.receivedIndices
    versionVector := pending.mergedVersion incoming }

def ReceiverSettings.finalRecord (settings : ReceiverSettings) (st : ReceiverState) (clock : Clock)
    (relativePath : String) (pending : PendingFile) : FileMetadata where
  filePath := relativePath
  versionVector := finalVersion settings.ownDeviceId pending.versionVector
    (st.metadata relativePath)
  lastModified := clock.utc

/-- An accepted push that does not complete its file, as one state update. -/
def ReceiverState.hold (st : ReceiverState) (clock : Clock) (pending : PendingFile)
    (incoming : IncomingPush) : ReceiverState :=
  { st with
    storage := st.storage.writeChunkAtOffset (.part pending.partPath) incoming.chunk
    pending := st.pending.insert incoming.relativePath (pending.counted clock incoming) }

def ReceiverSettings.commit (settings : ReceiverSettings) (st : ReceiverState) (clock : Clock)
    (destination : FilePath) (pending : PendingFile) (incoming : IncomingPush) : ReceiverState :=
  let held := st.hold clock pending incoming
  { storage := held.storage.replace pending.partPath destination
      (Overlay.writeAt 0 ((st.storage.files (.part pending.partPath)).getD [])
        incoming.chunk.piece)
    metadata := Function.update st.metadata incoming.relativePath
      (some (settings.finalRecord st clock incoming.relativePath (pending.counted clock incoming)))
    pending := held.pending.erase incoming.relativePath }

def ReceiverSettings.accepted (settings : ReceiverSettings) (clock : Clock)
    (destination : FilePath) (incoming : IncomingPush) (st : ReceiverState) : ReceiverState :=
  let opened := st.opened clock incoming.relativePath destination
  if incoming.totalChunks ≤ (opened.1.counted clock incoming).receivedIndices.card then
    settings.commit opened.2 clock destination opened.1 incoming
  else opened.2.hold clock opened.1 incoming

def ReceiverSettings.HasRoom (settings : ReceiverSettings) (st : ReceiverState)
    (name : String) : Prop :=
  name ∈ st.pending ∨ st.pending.keys.length < settings.limits.maxPendingFiles

instance (settings : ReceiverSettings) (st : ReceiverState) (name : String) :
    Decidable (settings.HasRoom st name) :=
  inferInstanceAs (Decidable (_ ∨ _))

/-- The push passes every check: its name stays below the root, it is within
the limits and carries the digest of its bytes, and there is room for it. -/
def ReceiverSettings.Admits (settings : ReceiverSettings) (st : ReceiverState)
    (incoming : IncomingPush) (destination : FilePath) : Prop :=
  resolveWithin settings.resolver settings.syncRoot incoming.relativePath = .ok destination ∧
    settings.validate incoming = .ok () ∧ settings.HasRoom st incoming.relativePath

/-! ## The state transformer computes that update -/

section Steps

variable (st : ReceiverState)

theorem setPending_run (relativePath : String) (pending : PendingFile) :
    setPending relativePath pending st =
      .ok () { st with pending := st.pending.insert relativePath pending } := rfl

theorem write_run (part : PartPath) (chunk : Chunk) :
    onStorage (localFileReconstructor.writeChunkAtOffset (.part part) chunk) st =
      .ok () { st with storage := st.storage.writeChunkAtOffset (.part part) chunk } := rfl

theorem begin_run (destination : FilePath) :
    onStorage (localFileReconstructor.beginPartial destination) st =
      .ok (st.storage.beginPartial destination).1
        { st with storage := (st.storage.beginPartial destination).2 } := rfl

theorem commit_run {part : PartPath} {bytes : Bytes} (destination : FilePath)
    (h : st.storage.files (.part part) = some bytes) :
    onStorage (localFileReconstructor.commitPartial destination part) st =
      .ok () { st with storage := st.storage.replace part destination bytes } := by
  simp only [onStorage, zoom, localFileReconstructor, h]

end Steps

theorem openPending_run (settings : ReceiverSettings) (clock : Clock) (relativePath : String)
    (destination : FilePath) (st : ReceiverState)
    (hroom : settings.HasRoom st relativePath) :
    settings.onDisk.openPending clock relativePath destination st =
      .ok (st.opened clock relativePath destination).1
        (st.opened clock relativePath destination).2 := by
  unfold ReceivePushedFiles.openPending ReceiverState.opened
  cases hlookup : st.pending.lookup relativePath with
  | some pending => simp only [bind_run, get_run, hlookup, pure_run]
  | none =>
      have hnot : ¬ settings.limits.maxPendingFiles ≤ st.pending.keys.length := by
        have := AList.lookup_eq_none.mp hlookup
        simpa [ReceiverSettings.HasRoom, this] using hroom
      simp only [bind_run, get_run, hlookup]
      rw [if_neg (show ¬ settings.onDisk.limits.maxPendingFiles ≤ _ from hnot)]
      simp only [ReceiverSettings.onDisk, bind_run, pure_run, begin_run, setPending_run]

theorem finalize_run (settings : ReceiverSettings) (clock : Clock) (relativePath : String)
    (destination : FilePath) (pending : PendingFile) (st : ReceiverState) {bytes : Bytes}
    (h : st.storage.files (.part pending.partPath) = some bytes) :
    settings.onDisk.finalize clock relativePath destination pending st =
      .ok ()
        { storage := st.storage.replace pending.partPath destination bytes
          metadata := Function.update st.metadata relativePath
            (some (settings.finalRecord st clock relativePath pending))
          pending := st.pending.erase relativePath } := by
  simp only [ReceivePushedFiles.finalize, ReceiverSettings.onDisk, bind_run,
    commit_run st destination h]
  rfl

instance (settings : ReceiverSettings) (st : ReceiverState) (incoming : IncomingPush)
    (destination : FilePath) : Decidable (settings.Admits st incoming destination) :=
  inferInstanceAs (Decidable (_ ∧ _ ∧ _))

theorem handlePush_of_admits (settings : ReceiverSettings) (clock : Clock)
    {incoming : IncomingPush} {st : ReceiverState} {destination : FilePath}
    (h : settings.Admits st incoming destination) :
    settings.onDisk.handlePush clock incoming st =
      .ok () (settings.accepted clock destination incoming st) := by
  obtain ⟨hpath, hvalid, hroom⟩ := h
  unfold ReceivePushedFiles.handlePush ReceiverSettings.accepted
  have hresolve : resolveWithin settings.onDisk.resolver settings.onDisk.syncRoot
      incoming.relativePath = .ok destination := hpath
  have hval : settings.onDisk.validate incoming = .ok () := hvalid
  simp only [bind_run, hresolve, hval, orRaise, pure_run,
    openPending_run settings clock _ destination st hroom]
  generalize st.opened clock incoming.relativePath destination = opened
  simp only [setPending_run]
  simp only [ReceiverSettings.onDisk, write_run, AList.insert_insert]
  have hcard : insert incoming.chunk.metadata.index opened.1.receivedIndices =
      (opened.1.counted clock incoming).receivedIndices := rfl
  rw [hcard]
  split_ifs with hdone
  · exact finalize_run settings clock incoming.relativePath destination
      (opened.1.counted clock incoming) (opened.2.hold clock opened.1 incoming)
      (Storage.files_writeChunkAtOffset_self ..)
  · rfl

theorem openPending_full (uc : ReceivePushedFiles) (clock : Clock) {relativePath : String}
    (destination : FilePath) {st : ReceiverState} (hnew : relativePath ∉ st.pending)
    (hfull : uc.limits.maxPendingFiles ≤ st.pending.keys.length) :
    uc.openPending clock relativePath destination st =
      .error (.rejected (.tooManyPending st.pending.keys.length)) st := by
  unfold ReceivePushedFiles.openPending
  simp only [bind_run, get_run, AList.lookup_eq_none.mpr hnew]
  rw [if_pos hfull]
  simp only [bind_run, throw_run]

/-- Whatever the disk and the database do. -/
theorem handlePush_of_not_admits (uc : ReceivePushedFiles) (clock : Clock)
    {incoming : IncomingPush} {st : ReceiverState}
    (h : ∀ destination, ¬ uc.toReceiverSettings.Admits st incoming destination) :
    ∃ e, e.isCaught = true ∧ uc.handlePush clock incoming st = .error e st := by
  unfold ReceivePushedFiles.handlePush
  cases hpath : resolveWithin uc.resolver uc.syncRoot incoming.relativePath with
  | error e => exact ⟨.unsafePath e, rfl, rfl⟩
  | ok destination =>
      cases hvalid : uc.validate incoming with
      | error e =>
          refine ⟨.rejected e, rfl, ?_⟩
          simp only [orRaise, bind_run, pure_run, throw_run]
      | ok u =>
          have hfull : incoming.relativePath ∉ st.pending ∧
              uc.limits.maxPendingFiles ≤ st.pending.keys.length := by
            by_contra hroom
            refine h destination ⟨hpath, hvalid, ?_⟩
            by_contra hno
            exact hroom (by simpa [ReceiverSettings.HasRoom] using hno)
          refine ⟨.rejected (.tooManyPending st.pending.keys.length), rfl, ?_⟩
          have hopen := openPending_full uc clock destination hfull.1 hfull.2
          simp only [orRaise, bind_run, pure_run, hopen]

/-! ## Runs -/

def ReceiverSettings.step (settings : ReceiverSettings) (st : ReceiverState) :
    ReceiverEvent → ReceiverState
  | .push clock incoming =>
      match resolveWithin settings.resolver settings.syncRoot incoming.relativePath with
      | .error _ => st
      | .ok destination =>
          if settings.Admits st incoming destination then
            settings.accepted clock destination incoming st
          else st
  | .sweep now => settings.onDisk.abortExpiredPartials now st

theorem step_push_of_admits {settings : ReceiverSettings} {st : ReceiverState}
    {incoming : IncomingPush} {destination : FilePath} (clock : Clock)
    (h : settings.Admits st incoming destination) :
    settings.step st (.push clock incoming) = settings.accepted clock destination incoming st := by
  simp only [ReceiverSettings.step, h.1, if_pos h]

theorem step_push_of_not_admits {settings : ReceiverSettings} {st : ReceiverState}
    {incoming : IncomingPush} (clock : Clock)
    (h : ∀ destination, ¬ settings.Admits st incoming destination) :
    settings.step st (.push clock incoming) = st := by
  cases hpath : resolveWithin settings.resolver settings.syncRoot incoming.relativePath with
  | error e => simp only [ReceiverSettings.step, hpath]
  | ok destination => simp only [ReceiverSettings.step, hpath, if_neg (h destination)]

theorem handleEvent_onDisk (settings : ReceiverSettings) (event : ReceiverEvent)
    (st : ReceiverState) :
    settings.onDisk.handleEvent event st = .ok () (settings.step st event) := by
  cases event with
  | sweep now => rfl
  | push clock incoming =>
      by_cases h : ∃ destination, settings.Admits st incoming destination
      · obtain ⟨destination, h⟩ := h
        rw [step_push_of_admits clock h]
        simp only [ReceivePushedFiles.handleEvent, handlePush_of_admits settings clock h]
      · have h : ∀ destination, ¬ settings.Admits st incoming destination := by simpa using h
        obtain ⟨e, hcaught, he⟩ := handlePush_of_not_admits settings.onDisk clock h
        rw [step_push_of_not_admits clock h]
        simp only [ReceivePushedFiles.handleEvent, he, hcaught, if_true]

/-- No event ends the loop. -/
theorem runForever_onDisk (settings : ReceiverSettings) (events : List ReceiverEvent)
    (st : ReceiverState) :
    settings.onDisk.runForever events st = events.foldl settings.step st := by
  induction events generalizing st with
  | nil => rfl
  | cons event events ih =>
      simp only [ReceivePushedFiles.runForever, handleEvent_onDisk, ih, List.foldl_cons]

end SecureSync
