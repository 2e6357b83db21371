import SecureSync.Application.SyncFile

/-!
# Calls between their awaits

Other tasks of a device run while `push`, `pull` or `sync` of `sync_file.py` awaits.  A phase says
where a call has come to, `next` is the code up to its next await, and `rest` all that is left.
-/

namespace SecureSync

open Raising

inductive PushPhase where
  | starting
  | reading (content : Option Bytes)
  | requesting (current : ChunkCollection)
  | comparing (current : ChunkCollection) (peerManifest : Option ChunkCollection)
  | sending (current : ChunkCollection) (uploadPlan : DeltaPlan)
      (localVersion : Option VersionVector) (error : Option ChunkSourceError) (left : List Chunk)
  | saving (current : ChunkCollection) (transferredCount : ℕ)
  | done (transferredCount : ℕ)

inductive PullPhase where
  | starting
  | reading (content : Option Bytes)
  | requesting (current : ChunkCollection)
  | fetching (current : ChunkCollection) (downloadPlan : DeltaPlan)
  | storing (current : ChunkCollection) (error : Option ExchangeError) (left : List Chunk)
      (transferredCount : ℕ)
  | rereading (content : Option Bytes) (transferredCount : ℕ)
  | saving (finalManifest : ChunkCollection) (transferredCount : ℕ)
  | done (transferredCount : ℕ)

inductive SyncPhase where
  | starting
  | reading (content : Option Bytes)
  | versioning (localCollection : ChunkCollection)
  | requesting (localCollection : ChunkCollection) (localVersion : Option VersionVector)
  | chosen (action : SyncFileUseCase.SyncAction)
  | pushing (phase : PushPhase)
  | pulling (phase : PullPhase)
  | done (result : SyncFileResult)

structure SyncCall where
  peer : Peer
  relativePath : String
  strategy : ChunkingStrategy
  honours : strategy.Honours
  chunkSize : ℕ

variable {W : Type}

namespace SyncFileUseCase

variable (uc : SyncFileUseCase W)

/-- `build_manifest` of what the file held when it was opened. -/
def manifestFrom (path : FilePath) (call : SyncCall) (content : Option Bytes) :
    SyncM W ChunkCollection :=
  orRaise .manifest (buildManifest uc.engine path call.strategy content call.chunkSize)

/-- `_local_manifest_or_empty` of what the file held when it was opened. -/
def manifestOrEmptyFrom (path : FilePath) (call : SyncCall) (content : Option Bytes) :
    SyncM W ChunkCollection :=
  match buildManifest uc.engine path call.strategy content call.chunkSize with
  | .ok collection => pure collection
  | .error (.source (.notFound _)) =>
      orRaise (fun error ↦ .manifest (.value error)) (ChunkCollection.make path call.chunkSize 0 [])
  | .error error => throw (.manifest error)

variable (syncRoot : FilePath) (call : SyncCall)

/-! ## `push` -/

def pushNext : PushPhase → SyncM W PushPhase
  | .starting => do
      let s ← get
      return .reading (uc.contentAt (joinPath syncRoot call.relativePath) s)
  | .reading content => do
      let current ← uc.manifestFrom (joinPath syncRoot call.relativePath) call content
      return .requesting current
  | .requesting current => do
      let peerManifest ← uc.normalizedPeerManifest call.peer call.relativePath
        (joinPath syncRoot call.relativePath)
      return .comparing current peerManifest
  | .comparing current peerManifest => do
      let localVersion ← uc.localVersion call.relativePath
      let uploadPlan ← orRaise .delta (DeltaCalculator.compute peerManifest current)
      if 0 < uploadPlan.transferCount then
        let s ← get
        let sourcePath := joinPath syncRoot call.relativePath
        let chunks := executeChunkFile uc.engine sourcePath call.strategy
          (uc.contentAt sourcePath s)
        return .sending current uploadPlan localVersion chunks.2
          (chunks.1.filter (isNeeded (neededHashes uploadPlan)))
      else return .saving current uploadPlan.transferCount
  | .sending current uploadPlan localVersion error (chunk :: left) => do
      uc.send call.peer
        { relativePath := call.relativePath
          totalChunks := (neededHashes uploadPlan).card
          chunk
          versionVector := localVersion }
      return .sending current uploadPlan localVersion error left
  | .sending current uploadPlan _ none [] => return .saving current uploadPlan.transferCount
  | .sending _ _ _ (some error) [] => throw (.manifest (.source error))
  | .saving current transferredCount => do
      uc.saveManifest current
      return .done transferredCount
  | .done transferredCount => return .done transferredCount

def pushAfterManifest (current : ChunkCollection) : SyncM W SyncFileResult := do
  let sourcePath := joinPath syncRoot call.relativePath
  let peerManifest ← uc.normalizedPeerManifest call.peer call.relativePath sourcePath
  let localVersion ← uc.localVersion call.relativePath
  let uploadPlan ← orRaise .delta (DeltaCalculator.compute peerManifest current)
  if 0 < uploadPlan.transferCount then
    uc.uploadMissing call.peer call.relativePath sourcePath call.strategy localVersion uploadPlan
  uc.saveManifest current
  return { transferredCount := uploadPlan.transferCount }

def pushRest : PushPhase → SyncM W SyncFileResult
  | .starting => uc.push call.peer syncRoot call.relativePath call.strategy call.chunkSize
  | .reading content => do
      let current ← uc.manifestFrom (joinPath syncRoot call.relativePath) call content
      uc.pushAfterManifest syncRoot call current
  | .requesting current => uc.pushAfterManifest syncRoot call current
  | .comparing current peerManifest => do
      let sourcePath := joinPath syncRoot call.relativePath
      let localVersion ← uc.localVersion call.relativePath
      let uploadPlan ← orRaise .delta (DeltaCalculator.compute peerManifest current)
      if 0 < uploadPlan.transferCount then
        uc.uploadMissing call.peer call.relativePath sourcePath call.strategy localVersion
          uploadPlan
      uc.saveManifest current
      return { transferredCount := uploadPlan.transferCount }
  | .sending current uploadPlan localVersion error left => do
      uc.upload call.peer call.relativePath (neededHashes uploadPlan).card localVersion error left
      uc.saveManifest current
      return { transferredCount := uploadPlan.transferCount }
  | .saving current transferredCount => do
      uc.saveManifest current
      return { transferredCount }
  | .done transferredCount => return { transferredCount }

/-- Segment by segment, the call is `push`. -/
theorem pushRest_eq (phase : PushPhase) : uc.pushRest syncRoot call phase =
    uc.pushNext syncRoot call phase >>= uc.pushRest syncRoot call := by
  cases phase with
  | starting =>
      simp only [pushNext, pushRest, push, bind_assoc, pure_bind, buildManifestOf]
      rfl
  | reading content => simp only [pushNext, pushRest, bind_assoc, pure_bind]
  | requesting current =>
      simp only [pushNext, pushRest, pushAfterManifest, bind_assoc, pure_bind]
  | comparing current peerManifest =>
      simp only [pushNext, pushRest, bind_assoc]
      congr 1
      funext localVersion
      congr 1
      funext uploadPlan
      split_ifs
      · simp only [pushRest, uploadMissing, bind_assoc, pure_bind]
      · simp only [pushRest, pure_bind]
  | sending current uploadPlan localVersion error left =>
      cases left with
      | nil =>
          cases error with
          | none => simp only [pushNext, pushRest, upload, pure_bind]
          | some error =>
              simp only [pushNext, pushRest, upload]
              rfl
      | cons chunk left => simp only [pushNext, pushRest, upload, bind_assoc, pure_bind]
  | saving current transferredCount => simp only [pushNext, pushRest, bind_assoc, pure_bind]
  | done transferredCount => simp only [pushNext, pushRest, pure_bind]

/-! ## `pull` -/

def pullNext : PullPhase → SyncM W PullPhase
  | .starting => do
      let s ← get
      return .reading (uc.contentAt (joinPath syncRoot call.relativePath) s)
  | .reading content => do
      let current ← uc.manifestOrEmptyFrom (joinPath syncRoot call.relativePath) call content
      return .requesting current
  | .requesting current => do
      let peerManifest ← uc.normalizedPeerManifest call.peer call.relativePath
        (joinPath syncRoot call.relativePath)
      match peerManifest with
      | none => return .done 0
      | some peerManifest =>
          let downloadPlan ← orRaise .delta (DeltaCalculator.compute (some current) peerManifest)
          if 0 < downloadPlan.transferCount then return .fetching current downloadPlan
          else return .saving current 0
  | .fetching current downloadPlan => do
      let chunks ← uc.requestChunks call.peer call.relativePath (hashesToRequest downloadPlan)
      return .storing current chunks.2 chunks.1 0
  | .storing current error (chunk :: left) transferredCount => do
      onSyncStorage (uc.fileReconstructor.writeChunkAtOffset
        (.file (uc.resolver.resolve (joinPath syncRoot call.relativePath))) chunk)
      return .storing current error left (transferredCount + 1)
  | .storing current none [] transferredCount => do
      if transferredCount ≠ 0 then
        let s ← get
        return .rereading (uc.contentAt (joinPath syncRoot call.relativePath) s) transferredCount
      else return .saving current transferredCount
  | .storing _ (some error) [] _ => throw (.exchange error)
  | .rereading content transferredCount => do
      let finalManifest ← uc.manifestFrom (joinPath syncRoot call.relativePath) call content
      return .saving finalManifest transferredCount
  | .saving finalManifest transferredCount => do
      uc.saveManifest finalManifest
      return .done transferredCount
  | .done transferredCount => return .done transferredCount

def pullAfterChunks (current : ChunkCollection) (transferredCount : ℕ) :
    SyncM W SyncFileResult := do
  let finalManifest ← uc.finalManifest (joinPath syncRoot call.relativePath) call.strategy
    call.chunkSize current transferredCount
  uc.saveManifest finalManifest
  return { transferredCount }

def pullAfterManifest (current : ChunkCollection) : SyncM W SyncFileResult := do
  let sourcePath := joinPath syncRoot call.relativePath
  let peerManifest ← uc.normalizedPeerManifest call.peer call.relativePath sourcePath
  match peerManifest with
  | none => return { transferredCount := 0 }
  | some peerManifest =>
      let downloadPlan ← orRaise .delta (DeltaCalculator.compute (some current) peerManifest)
      let transferredCount ← uc.download call.peer call.relativePath sourcePath downloadPlan
      uc.pullAfterChunks syncRoot call current transferredCount

def pullRest : PullPhase → SyncM W SyncFileResult
  | .starting => uc.pull call.peer syncRoot call.relativePath call.strategy call.chunkSize
  | .reading content => do
      let current ← uc.manifestOrEmptyFrom (joinPath syncRoot call.relativePath) call content
      uc.pullAfterManifest syncRoot call current
  | .requesting current => uc.pullAfterManifest syncRoot call current
  | .fetching current downloadPlan => do
      let chunks ← uc.requestChunks call.peer call.relativePath (hashesToRequest downloadPlan)
      let transferredCount ← uc.storeChunks (joinPath syncRoot call.relativePath) chunks.2 chunks.1
      uc.pullAfterChunks syncRoot call current transferredCount
  | .storing current error left transferredCount => do
      let more ← uc.storeChunks (joinPath syncRoot call.relativePath) error left
      uc.pullAfterChunks syncRoot call current (transferredCount + more)
  | .rereading content transferredCount => do
      let finalManifest ← uc.manifestFrom (joinPath syncRoot call.relativePath) call content
      uc.saveManifest finalManifest
      return { transferredCount }
  | .saving finalManifest transferredCount => do
      uc.saveManifest finalManifest
      return { transferredCount }
  | .done transferredCount => return { transferredCount }

theorem localManifestOrEmpty_eq (path : FilePath) :
    uc.localManifestOrEmpty path call.strategy call.chunkSize =
      (do let s ← get; uc.manifestOrEmptyFrom path call (uc.contentAt path s)) := by
  unfold localManifestOrEmpty manifestOrEmptyFrom
  congr 1

/-- Segment by segment, the call is `pull`. -/
theorem pullRest_eq (phase : PullPhase) : uc.pullRest syncRoot call phase =
    uc.pullNext syncRoot call phase >>= uc.pullRest syncRoot call := by
  cases phase with
  | starting =>
      simp only [pullNext, pullRest, pull, bind_assoc, pure_bind, localManifestOrEmpty_eq]
      rfl
  | reading content => simp only [pullNext, pullRest, bind_assoc, pure_bind]
  | requesting current =>
      simp only [pullNext, pullRest, pullAfterManifest, bind_assoc]
      congr 1
      funext peerManifest
      cases peerManifest with
      | none => simp only [pullRest, pure_bind]
      | some peerManifest =>
          simp only [bind_assoc]
          congr 1
          funext downloadPlan
          unfold download
          split_ifs
          · simp only [pullRest, bind_assoc, pure_bind]
          · simp [pullRest, pullAfterChunks, finalManifest]
  | fetching current downloadPlan =>
      simp only [pullNext, pullRest, bind_assoc, pure_bind, Nat.zero_add]
  | storing current error left transferredCount =>
      cases left with
      | nil =>
          cases error with
          | none =>
              simp only [pullNext, pullRest, storeChunks, pure_bind, pullAfterChunks,
                finalManifest, Nat.add_zero]
              split_ifs
              · simp only [pullRest, buildManifestOf, bind_assoc, pure_bind]
                rfl
              · simp only [pullRest, pure_bind]
          | some error =>
              simp only [pullNext, pullRest, storeChunks]
              rfl
      | cons chunk left =>
          simp only [pullNext, pullRest, storeChunks, bind_assoc, pure_bind]
          congr 1
          funext _
          congr 1
          funext more
          rw [Nat.add_right_comm, Nat.add_assoc]
  | rereading content transferredCount =>
      simp only [pullNext, pullRest, bind_assoc, pure_bind]
  | saving finalManifest transferredCount => simp only [pullNext, pullRest, bind_assoc, pure_bind]
  | done transferredCount => simp only [pullNext, pullRest, pure_bind]

/-! ## `sync` -/

/-- `sync` from the peer's answer to its decision. -/
def actionFor (localCollection : ChunkCollection) (localVersion : Option VersionVector) :
    Option ManifestWithVersion → SyncM W SyncAction
  | none => return if 0 < localCollection.chunkCount then .push else .noop
  | some peerManifest =>
      match (SyncDirectionResolver.resolve (some localCollection) localVersion
        (some peerManifest.collection) peerManifest.version).direction with
      | .push => return .push
      | .pull => return .pull
      | .noop => return .noop
      | .conflict => do
          let wins ← remoteWins call.peer call.relativePath localVersion peerManifest.version
            lastWriterWinsStrategy
          return .conflict wins

def syncNext : SyncPhase → SyncM W SyncPhase
  | .starting => do
      let s ← get
      return .reading (uc.contentAt (joinPath syncRoot call.relativePath) s)
  | .reading content => do
      let localCollection ← uc.manifestOrEmptyFrom (joinPath syncRoot call.relativePath) call
        content
      return .versioning localCollection
  | .versioning localCollection => do
      let localVersion ← uc.localVersion call.relativePath
      return .requesting localCollection localVersion
  | .requesting localCollection localVersion => do
      let peerManifest ← onWorld .exchange
        (uc.manifestExchange.requestManifest call.peer call.relativePath)
      let action ← actionFor call localCollection localVersion peerManifest
      return .chosen action
  | .chosen .push => return .pushing .starting
  | .chosen .pull | .chosen (.conflict true) => return .pulling .starting
  | .chosen .noop | .chosen (.conflict false) =>
      return .done { transferredCount := 0, direction := some SyncDirection.noop.value }
  | .pushing phase => do
      let phase ← uc.pushNext syncRoot call phase
      return .pushing phase
  | .pulling phase => do
      let phase ← uc.pullNext syncRoot call phase
      return .pulling phase
  | .done result => return .done result

def syncAfterManifest (localCollection : ChunkCollection) : SyncM W SyncAction := do
  let localVersion ← uc.localVersion call.relativePath
  let peerManifest ← onWorld .exchange
    (uc.manifestExchange.requestManifest call.peer call.relativePath)
  actionFor call localCollection localVersion peerManifest

def syncChosen : SyncAction → SyncM W SyncFileResult
  | .push => uc.push call.peer syncRoot call.relativePath call.strategy call.chunkSize
  | .pull | .conflict true =>
      uc.pull call.peer syncRoot call.relativePath call.strategy call.chunkSize
  | .noop | .conflict false =>
      return { transferredCount := 0, direction := some SyncDirection.noop.value }

def syncRest : SyncPhase → SyncM W SyncFileResult
  | .starting => uc.sync call.peer syncRoot call.relativePath call.strategy call.chunkSize
  | .reading content => do
      let localCollection ← uc.manifestOrEmptyFrom (joinPath syncRoot call.relativePath) call
        content
      let action ← uc.syncAfterManifest call localCollection
      uc.syncChosen syncRoot call action
  | .versioning localCollection => do
      let action ← uc.syncAfterManifest call localCollection
      uc.syncChosen syncRoot call action
  | .requesting localCollection localVersion => do
      let peerManifest ← onWorld .exchange
        (uc.manifestExchange.requestManifest call.peer call.relativePath)
      let action ← actionFor call localCollection localVersion peerManifest
      uc.syncChosen syncRoot call action
  | .chosen action => uc.syncChosen syncRoot call action
  | .pushing phase => uc.pushRest syncRoot call phase
  | .pulling phase => uc.pullRest syncRoot call phase
  | .done result => return result

/-- Segment by segment, the call is `sync`. -/
theorem syncRest_eq (phase : SyncPhase) : uc.syncRest syncRoot call phase =
    uc.syncNext syncRoot call phase >>= uc.syncRest syncRoot call := by
  cases phase with
  | starting =>
      have hchoose : uc.chooseAction call.peer syncRoot call.relativePath call.strategy
          call.chunkSize lastWriterWinsStrategy = (do
            let localCollection ← uc.localManifestOrEmpty (joinPath syncRoot call.relativePath)
              call.strategy call.chunkSize
            uc.syncAfterManifest call localCollection) := rfl
      have hsync : uc.sync call.peer syncRoot call.relativePath call.strategy call.chunkSize = (do
          let action ← uc.chooseAction call.peer syncRoot call.relativePath call.strategy
            call.chunkSize lastWriterWinsStrategy
          uc.syncChosen syncRoot call action) := rfl
      simp only [syncNext, syncRest, hsync, hchoose, localManifestOrEmpty_eq, bind_assoc,
        pure_bind]
  | reading content => simp only [syncNext, syncRest, bind_assoc, pure_bind]
  | versioning localCollection =>
      simp only [syncNext, syncRest, syncAfterManifest, bind_assoc, pure_bind]
  | requesting localCollection localVersion =>
      simp only [syncNext, syncRest, bind_assoc, pure_bind]
  | chosen action =>
      rcases action with _ | _ | _ | _ | _ <;>
        simp only [syncNext, syncRest, syncChosen, pushRest, pullRest, pure_bind]
  | pushing phase => simp only [syncNext, syncRest, bind_assoc, pure_bind, ← pushRest_eq]
  | pulling phase => simp only [syncNext, syncRest, bind_assoc, pure_bind, ← pullRest_eq]
  | done result => simp only [syncNext, syncRest, pure_bind]

end SyncFileUseCase

end SecureSync
