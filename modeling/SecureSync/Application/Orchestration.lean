import SecureSync.Application.DiscoverPeers
import SecureSync.Library.Raising
import Mathlib.Data.Finset.Insert

/-!
# Orchestration

`SyncOrchestrator` of `application/orchestration.py`.  The calls and the loop
run in one thread and give way to each other only where they await; a step goes
from one such point to the next.
-/

namespace SecureSync.Orchestration

open Raising

inductive SyncState where
  | idle
  | scanning
  | syncing
  | paused
  | error
  deriving DecidableEq, Repr

structure SyncStats where
  filesProcessed : ℕ := 0
  errorsEncountered : ℕ := 0
  deriving DecidableEq

/-- What the constructor has been given. -/
structure OrchestratorSettings where
  sessionCoordinator : Bool
  syncFileUseCase : Bool
  /-- `sync_root`, `chunking_strategy` and `chunk_size` are there. -/
  pushConfigured : Bool

structure SyncOrchestrator where
  state : SyncState := .idle
  stats : SyncStats := {}
  activePeers : Finset DeviceId := ∅
  deriving DecidableEq

/-! ## Handling a peer -/

/-- What the collaborators answer while one peer is handled. -/
structure PeerAnswers where
  sessionRaises : Bool
  /-- `none`: the call raises. -/
  listAllFiles : Option (List FileMetadata)
  syncRaises : FileMetadata → Bool

inductive HandlerError where
  | listAllFiles
  deriving DecidableEq

abbrev OrchestratorM := EStateM HandlerError SyncOrchestrator

def SyncOrchestrator.addActive (o : SyncOrchestrator) (peer : Peer) : SyncOrchestrator :=
  { o with activePeers := insert peer.deviceId o.activePeers }

def SyncOrchestrator.countErrors (o : SyncOrchestrator) (count : ℕ) : SyncOrchestrator :=
  { o with stats.errorsEncountered := o.stats.errorsEncountered + count }

def SyncOrchestrator.setFilesProcessed (o : SyncOrchestrator) (count : ℕ) : SyncOrchestrator :=
  { o with stats.filesProcessed := count }

def SyncOrchestrator.markSyncing (o : SyncOrchestrator) : SyncOrchestrator :=
  if o.state = .scanning then { o with state := .syncing } else o

namespace OrchestratorSettings

variable (settings : OrchestratorSettings)

/-- The errors that `_auto_push_known_files` counts and drops. -/
def autoPushErrors (answers : PeerAnswers) (localFiles : List FileMetadata) : ℕ :=
  if settings.syncFileUseCase && settings.pushConfigured then
    (localFiles.filter fun file ↦ !file.isDeleted && answers.syncRaises file).length
  else 0

/-- `handle_peer_discovered` from its first await on. -/
def finishHandling (answers : PeerAnswers) : OrchestratorM Unit := do
  if settings.sessionCoordinator && answers.sessionRaises then
    modify fun o ↦ o.countErrors 1
  match answers.listAllFiles with
  | none => throw .listAllFiles
  | some localFiles =>
      modify fun o ↦ o.setFilesProcessed localFiles.length
      modify fun o ↦ o.countErrors (settings.autoPushErrors answers localFiles)
      modify SyncOrchestrator.markSyncing

def handlePeerDiscovered (peer : Peer) (answers : PeerAnswers) : OrchestratorM Unit := do
  modify fun o ↦ o.addActive peer
  settings.finishHandling answers

end OrchestratorSettings

/-! ## The engine -/

/-- Where a task of `_run_sync_loop` is suspended. -/
inductive LoopPc where
  | created
  | pauseWait
  | listing
  | handling (rest : List Peer)
  | pollWait
  | done

def LoopPc.isRunning : LoopPc → Bool
  | .done => false
  | _ => true

/-- Where a call of `stop` is suspended. -/
inductive StopPc where
  | joining (task : ℕ)
  | discovery

/-- Tasks are numbered in the order in which they are created. -/
structure Engine extends SyncOrchestrator where
  stopEvent : Bool := false
  syncTask : Option ℕ := none
  tasks : List LoopPc := []
  /-- Calls of `start` that wait for `discovery.start()`. -/
  starts : ℕ := 0
  stops : List StopPc := []

/-- What becomes of a call to the discovery service. -/
inductive Reply where
  | returned
  | suspended
  | raised
  deriving DecidableEq

inductive LoopAnswer where
  | woken
  | online (peers : List Peer)
  | listRaised
  | handled (answers : PeerAnswers)

inductive EngineInput where
  | start (reply : Reply)
  | startResumes (raises : Bool)
  | stop (reply : Reply)
  | stopResumes (index : ℕ) (reply : Reply)
  | pause
  | resume
  | loop (task : ℕ) (answer : LoopAnswer)

namespace Engine

variable (e : Engine)

def isRunning (task : ℕ) : Bool := (e.tasks[task]?).any LoopPc.isRunning

/-- A sync-loop task is running. -/
def Running : Prop := ∃ task, e.isRunning task = true

/-! ### Calls -/

def launch : Engine :=
  { e with syncTask := some e.tasks.length, tasks := e.tasks ++ [.created] }

def start (reply : Reply) : Engine :=
  if e.state ≠ .idle then e
  else
    let begun := { e with state := .scanning, stopEvent := false }
    match reply with
    | .returned => begun.launch
    | .suspended => { begun with starts := begun.starts + 1 }
    | .raised => begun

def startResumes (raises : Bool) : Engine :=
  if e.starts = 0 then e
  else
    let resumed := { e with starts := e.starts - 1 }
    if raises then resumed else resumed.launch

/-- `stop` from `discovery.stop()` on. -/
def leave (reply : Reply) : Engine :=
  match reply with
  | .returned => { e with state := .idle }
  | .suspended => { e with stops := e.stops ++ [.discovery] }
  | .raised => e

/-- A task that is done is not waited for. -/
def stop (reply : Reply) : Engine :=
  let set := { e with stopEvent := true }
  match e.syncTask with
  | none => set.leave reply
  | some task =>
      if e.isRunning task then { set with stops := e.stops ++ [.joining task] }
      else set.leave reply

def stopResumes (index : ℕ) (reply : Reply) : Engine :=
  match e.stops[index]? with
  | none => e
  | some (.joining task) =>
      if e.isRunning task then e else { e with stops := e.stops.eraseIdx index }.leave reply
  | some .discovery =>
      match reply with
      | .returned => { e with stops := e.stops.eraseIdx index, state := .idle }
      | .suspended => e
      | .raised => { e with stops := e.stops.eraseIdx index }

def pause : Engine := { e with state := .paused }

def resume : Engine := if e.state = .paused then { e with state := .syncing } else e

/-! ### The loop -/

def setPc (task : ℕ) (pc : LoopPc) : Engine := { e with tasks := e.tasks.set task pc }

/-- The `finally` clause. -/
def finish (task : ℕ) : Engine := { e with state := .idle }.setPc task .done

/-- The `except` clause; nothing runs between it and the `finally` clause. -/
def fail (task : ℕ) : Engine :=
  let failed := { e with state := .error }
  { failed with toSyncOrchestrator := failed.countErrors 1 }.finish task

def top (task : ℕ) : Engine :=
  if e.stopEvent then e.finish task
  else if e.state = .paused then e.setPc task .pauseWait
  else e.setPc task .listing

def nextPeer (task : ℕ) : List Peer → Engine
  | [] => e.setPc task .pollWait
  | peer :: rest =>
      { e with toSyncOrchestrator := e.addActive peer }.setPc task (.handling rest)

def newPeers (online : List Peer) : List Peer :=
  online.filter fun peer ↦ peer.deviceId ∉ e.activePeers

/-- An exception reaches the loop. -/
def loopFails (task : ℕ) (answer : LoopAnswer) : Bool :=
  match e.tasks[task]?, answer with
  | some .listing, .listRaised => true
  | some (.handling _), .handled answers => answers.listAllFiles.isNone
  | _, _ => false

end Engine

namespace OrchestratorSettings

variable (settings : OrchestratorSettings)

/-- A task goes on from where it is suspended, if that is what it waits for. -/
def loop (e : Engine) (task : ℕ) (answer : LoopAnswer) : Engine :=
  match e.tasks[task]?, answer with
  | some .created, .woken | some .pauseWait, .woken | some .pollWait, .woken => e.top task
  | some .listing, .online peers => e.nextPeer task (e.newPeers peers)
  | some .listing, .listRaised => e.fail task
  | some (.handling rest), .handled answers =>
      match settings.finishHandling answers e.toSyncOrchestrator with
      | .ok _ o => { e with toSyncOrchestrator := o }.nextPeer task rest
      | .error _ o => { e with toSyncOrchestrator := o }.fail task
  | _, _ => e

def step (e : Engine) : EngineInput → Engine
  | .start reply => e.start reply
  | .startResumes raises => e.startResumes raises
  | .stop reply => e.stop reply
  | .stopResumes index reply => e.stopResumes index reply
  | .pause => e.pause
  | .resume => e.resume
  | .loop task answer => settings.loop e task answer

end OrchestratorSettings

/-! ## What handling a peer leaves behind -/

section Handling

variable (settings : OrchestratorSettings) {answers : PeerAnswers} (o : SyncOrchestrator)

/-- It raises exactly if `list_all_files` does. -/
theorem finishHandling_run (answers : PeerAnswers) :
    let counted := if settings.sessionCoordinator && answers.sessionRaises then o.countErrors 1
      else o
    settings.finishHandling answers o =
      match answers.listAllFiles with
      | none => .error .listAllFiles counted
      | some localFiles => .ok () ((counted.setFilesProcessed localFiles.length).countErrors
          (settings.autoPushErrors answers localFiles)).markSyncing := by
  intro counted
  unfold OrchestratorSettings.finishHandling
  cases hraises : settings.sessionCoordinator && answers.sessionRaises <;>
    cases answers.listAllFiles <;> simp only [counted, hraises] <;> rfl

theorem finishHandling_of_none (h : answers.listAllFiles = none) :
    ∃ o', settings.finishHandling answers o = .error .listAllFiles o' ∧
      o'.activePeers = o.activePeers := by
  rw [finishHandling_run, h]
  refine ⟨_, rfl, ?_⟩
  split_ifs <;> rfl

/-- Otherwise the engine is syncing if it was scanning before. -/
theorem finishHandling_of_some {localFiles : List FileMetadata}
    (h : answers.listAllFiles = some localFiles) :
    ∃ o', settings.finishHandling answers o = .ok () o' ∧ o'.activePeers = o.activePeers ∧
      o'.state = if o.state = .scanning then .syncing else o.state := by
  rw [finishHandling_run, h]
  refine ⟨_, rfl, ?_⟩
  unfold SyncOrchestrator.markSyncing SyncOrchestrator.countErrors
    SyncOrchestrator.setFilesProcessed
  split_ifs <;> exact ⟨rfl, rfl⟩

end Handling

end SecureSync.Orchestration
