import SecureSync.Sync.Devices

/-!
# Two devices

One device syncs with another one, whose state is the world of the first.  The
other one answers from its files, and its receiver handles what it is sent.
-/

namespace SecureSync

open Raising

variable {V W : Type}

/-- The exchange with the device whose state is the world. -/
def Device.exchange (peer : Device V) : ManifestExchange (DeviceState V) where
  requestManifest address relativePath := fun w ↦
    ((peer.server w).exchange (DeviceState V)).requestManifest address relativePath w
  requestChunks address relativePath hashes w :=
    ((peer.server w).exchange (DeviceState V)).requestChunks address relativePath hashes w

def knownVersion (metadata : MetadataStore) (relativePath : String) : Option VersionVector :=
  (metadata relativePath).map FileMetadata.versionVector

/-- The device with the `_local_version` of `main.py`. -/
def Device.lookingUp (d : Device W) (metadata : MetadataStore) : Device W :=
  { d with localVersionProvider := some fun relativePath w ↦
      (knownVersion metadata relativePath, w) }

/-- Sending hands a message to the network, or fails; either way the peer's
receiver has not seen it yet. -/
structure DevicePair (V : Type) where
  device : Device (DeviceState V)
  peer : Device V
  exchange_eq : device.manifestExchange = peer.exchange
  keeps_sendChunk : ∀ address incoming, Keeps id (device.sendChunk address incoming)

abbrev PairState (V : Type) := DeviceState (DeviceState V)

/-- `sync` with the default strategy. -/
def SyncRun.synced (run : SyncRun W) : EStateM.Result SyncError (SyncState W) SyncFileResult :=
  run.settings.onDisk.sync run.peer run.syncRoot run.relativePath run.strategy run.chunkSize
    lastWriterWinsStrategy run.state

namespace DevicePair

variable (pair : DevicePair V)

def run (s : PairState V) (call : SyncCall) : SyncRun (DeviceState V) :=
  (pair.device.lookingUp s.metadata).run s call

/-- A sync that decided to push, after which the peer's receiver has put the
file in place; or one that decided to pull, and completed. -/
inductive Syncs (call : SyncCall) : PairState V → PairState V → Prop where
  | push {s : PairState V} {t : SyncState (DeviceState V)} {before after : List ReceiverEvent}
      {now : Clock} {incoming : IncomingPush} {destination : FilePath} (clock : ℕ → Timestamp)
      (hchosen : (pair.run s call).chosen = .ok .push t)
      (hsent : ∀ now incoming', .push now incoming' ∈ before ++ .push now incoming :: after →
        incoming' ∈ (stateOf (pair.run s call).synced).outbox.drop s.outbox.length)
      (hfinish : pair.peer.receiver.Finishes
        (pair.peer.receiver.onDisk.runForever before s.world.received) now incoming destination) :
      Syncs call s { s with
        toSyncState := { stateOf (pair.run s call).synced with
          clock := clock
          world := s.world.withReceived (pair.peer.receiver.onDisk.runForever
            (before ++ .push now incoming :: after) s.world.received) } }
  | pull {s : PairState V} {t t' : SyncState (DeviceState V)} {result : SyncFileResult}
      (clock : ℕ → Timestamp) (hchosen : (pair.run s call).chosen = .ok .pull t)
      (hsynced : (pair.run s call).synced = .ok result t') :
      Syncs call s { s with toSyncState := { t' with clock := clock } }

end DevicePair

/-! ## What a pull leaves alone -/

section Keeps

variable {uc : SyncFileUseCase W} {address : Peer} {relativePath : String} {path : FilePath}
  {strategy : ChunkingStrategy} {chunkSize : ℕ}

theorem keeps_world_onWorld {ε α : Type} {wrap : ε → SyncError} {action : EStateM ε W α}
    (h : Keeps id action) : Keeps SyncState.world (onWorld wrap action) := by
  intro s
  have hworld : stateOf (action s.world) = s.world := h s.world
  unfold onWorld zoom
  cases hrun : action s.world <;> rw [hrun] at hworld <;> exact hworld

theorem keeps_world_localManifestOrEmpty :
    Keeps SyncState.world (uc.localManifestOrEmpty path strategy chunkSize) := by
  intro s
  rw [stateOf_localManifestOrEmpty]

theorem keeps_world_storeChunks {error : Option ExchangeError} {chunks : List Chunk} :
    Keeps SyncState.world (uc.storeChunks path error chunks) := by
  induction chunks with
  | nil => cases error <;> exact fun _ ↦ rfl
  | cons chunk later ih =>
      have hwrite : Keeps SyncState.world (@onSyncStorage W _
          (uc.fileReconstructor.writeChunkAtOffset (.file (uc.resolver.resolve path)) chunk)) :=
        keeps_zoom fun _ _ ↦ rfl
      exact hwrite.bind fun _ ↦ ih.bind fun _ ↦ keeps_pure _

theorem keeps_world_pull {syncRoot : FilePath}
    (hmanifest : Keeps id (uc.manifestExchange.requestManifest address relativePath))
    (hchunks : ∀ hashes w,
      (uc.manifestExchange.requestChunks address relativePath hashes w).2 = w) :
    Keeps SyncState.world (uc.pull address syncRoot relativePath strategy chunkSize) := by
  apply keeps_world_localManifestOrEmpty.bind
  intro current
  apply ((keeps_world_onWorld hmanifest).bind fun _ ↦ keeps_pure _).bind
  rintro (_ | peerManifest)
  · exact keeps_pure _
  · apply (keeps_orRaise _ _).bind
    intro plan
    have hdownload : Keeps SyncState.world (uc.download address relativePath
        (joinPath syncRoot relativePath) plan) := by
      unfold SyncFileUseCase.download
      split_ifs
      · exact Keeps.bind (fun s ↦ hchunks _ s.world) fun _ ↦ keeps_world_storeChunks
      · exact keeps_pure _
    apply hdownload.bind
    intro transferredCount
    exact (keeps_finalManifest uc _ _ _).bind fun _ _ ↦ rfl

end Keeps

/-! ## What a sync does -/

section

variable {uc : SyncFileUseCase W} {path : FilePath} {strategy : ChunkingStrategy} {chunkSize : ℕ}
  {s s' : SyncState W} {c : ChunkCollection}

theorem localManifestOrEmpty_congr (hcontent : uc.contentAt path s' = uc.contentAt path s)
    (h : uc.localManifestOrEmpty path strategy chunkSize s = .ok c s) :
    uc.localManifestOrEmpty path strategy chunkSize s' = .ok c s' := by
  simp only [SyncFileUseCase.localManifestOrEmpty, bind_run, get_run, hcontent] at h ⊢
  generalize buildManifest uc.engine path strategy (uc.contentAt path s) chunkSize = built at h ⊢
  rcases built with ((_ | _) | _) | _
  · simp only at h ⊢
    generalize ChunkCollection.make path chunkSize 0 [] = made at h ⊢
    cases made with
    | error e => cases h
    | ok made =>
        cases h
        rfl
  · cases h
  · cases h
  · cases h
    rfl

end

def SyncFileUseCase.SyncAction.direction : SyncFileUseCase.SyncAction → SyncDirection
  | .push => .push
  | .pull => .pull
  | .noop => .noop
  | .conflict _ => .conflict

namespace SyncRun

variable {run : SyncRun W} {t : SyncState W} {action : SyncFileUseCase.SyncAction}

/-- What `sync` can have gone by in choosing. -/
def ChoosesFrom (current : ChunkCollection) (version : Option VersionVector) :
    Option ManifestWithVersion → SyncFileUseCase.SyncAction → Prop
  | none, action => action = if 0 < current.chunkCount then .push else .noop
  | some m, action =>
      (SyncDirectionResolver.resolve (some current) version (some m.collection)
        m.version).direction = action.direction

theorem synced_of_chosen (h : run.chosen = .ok action t) :
    run.synced =
      match action with
      | .push => run.settings.onDisk.push run.peer run.syncRoot run.relativePath run.strategy
          run.chunkSize t
      | .pull | .conflict true => run.settings.onDisk.pull run.peer run.syncRoot run.relativePath
          run.strategy run.chunkSize t
      | .noop | .conflict false => .ok ⟨0, some SyncDirection.noop.value⟩ t := by
  rw [SyncRun.chosen] at h
  rw [synced, SyncFileUseCase.sync, bind_run, h]
  rcases action with _ | _ | _ | _ | _ <;> rfl

end SyncRun

namespace DevicePair

variable {pair : DevicePair V} {call : SyncCall} {s s' : PairState V}
  {answer : Option ManifestWithVersion} {current : ChunkCollection}
  {action : SyncFileUseCase.SyncAction} {t : SyncState (DeviceState V)}

/-- The peer's answer to a request for the manifest. -/
def Answers (pair : DevicePair V) (w : DeviceState V) (relativePath : String)
    (answer : Option ManifestWithVersion) : Prop :=
  ∃ response, (pair.peer.server w).buildManifestResponse relativePath = .ok response ∧
    answer = if response.found then
        response.collection.map fun collection ↦ ⟨collection, response.version⟩
      else none

theorem requestManifest_eq_ok {address : Peer} {relativePath : String} {w w' : DeviceState V} :
    pair.device.manifestExchange.requestManifest address relativePath w = .ok answer w' ↔
      pair.Answers w relativePath answer ∧ w' = w := by
  rw [pair.exchange_eq]
  simp only [Device.exchange, ManifestServer.exchange, Answers]
  cases (pair.peer.server w).buildManifestResponse relativePath with
  | error e => simp
  | ok response =>
      simp only [EStateM.Result.ok.injEq, Except.ok.injEq, exists_eq_left']
      exact and_congr eq_comm eq_comm

theorem answers_run :
    (pair.run s call).Answers answer ↔ pair.Answers s.world call.relativePath answer := by
  constructor
  · rintro ⟨w, h⟩
    exact (requestManifest_eq_ok.mp h).1
  · exact fun h ↦ ⟨_, requestManifest_eq_ok.mpr ⟨h, rfl⟩⟩

/-- The manifest of the local file, or an empty one. -/
def Current (pair : DevicePair V) (s : PairState V) (call : SyncCall)
    (current : ChunkCollection) : Prop :=
  let run := pair.run s call
  run.settings.onDisk.localManifestOrEmpty run.path run.strategy run.chunkSize run.state =
    .ok current run.state

theorem localVersion_run (t : SyncState (DeviceState V)) :
    (pair.run s call).settings.onDisk.localVersion call.relativePath t =
      .ok (knownVersion s.metadata call.relativePath) t := rfl

theorem chosen_eq_ok (h : (pair.run s call).chosen = .ok action t) :
    ∃ current answer, pair.Current s call current ∧
      pair.Answers s.world call.relativePath answer ∧
        SyncRun.ChoosesFrom current (knownVersion s.metadata call.relativePath) answer action ∧
          ((∀ wins, action ≠ .conflict wins) → t = s.toSyncState) := by
  obtain ⟨current, s₁, hcurrent, h⟩ := bind_eq_ok.mp h
  obtain ⟨version, s₂, hversion, h⟩ := bind_eq_ok.mp h
  obtain ⟨answer, s₃, hanswer, h⟩ := bind_eq_ok.mp h
  obtain ⟨rfl, -, -⟩ := localManifestOrEmpty_eq_ok hcurrent
  cases (localVersion_run _).symm.trans hversion
  obtain ⟨w, hrequest, rfl⟩ := zoom_eq_ok.mp hanswer
  obtain ⟨hserved, rfl⟩ := requestManifest_eq_ok.mp hrequest
  refine ⟨current, answer, hcurrent, hserved, ?_⟩
  cases answer with
  | none =>
      cases h
      exact ⟨rfl, fun _ ↦ rfl⟩
  | some m =>
      simp only [SyncRun.ChoosesFrom] at h ⊢
      generalize (SyncDirectionResolver.resolve (some current)
        (knownVersion s.metadata call.relativePath) (some m.collection) m.version).direction =
          direction at h ⊢
      cases direction with
      | push | pull | noop =>
          cases h
          exact ⟨rfl, fun _ ↦ rfl⟩
      | conflict =>
          obtain ⟨wins, u, -, hpure⟩ := bind_eq_ok.mp h
          cases hpure
          exact ⟨rfl, fun hne ↦ absurd rfl (hne wins)⟩

theorem chosen_noop (hcurrent : pair.Current s call current)
    (hanswer : pair.Answers s.world call.relativePath answer)
    (hchooses : SyncRun.ChoosesFrom current (knownVersion s.metadata call.relativePath) answer
      .noop) : (pair.run s call).chosen = .ok .noop s.toSyncState := by
  have hrequest : onWorld SyncError.exchange ((pair.run s call).settings.onDisk.manifestExchange
      |>.requestManifest (pair.run s call).peer (pair.run s call).relativePath) s.toSyncState =
        .ok answer s.toSyncState :=
    zoom_eq_ok.mpr ⟨s.world, requestManifest_eq_ok.mpr ⟨hanswer, rfl⟩, rfl⟩
  refine bind_eq_ok.mpr ⟨current, _, hcurrent, bind_eq_ok.mpr ⟨_, _, localVersion_run _,
    bind_eq_ok.mpr ⟨answer, _, hrequest, ?_⟩⟩⟩
  cases answer with
  | none =>
      rw [SyncRun.ChoosesFrom] at hchooses
      simp only [← hchooses]
      rfl
  | some m =>
      simp only [SyncRun.ChoosesFrom, SyncFileUseCase.SyncAction.direction] at hchooses ⊢
      simp only [hchooses]
      rfl

/-- The pair has nothing to do for this file. -/
def Settled (pair : DevicePair V) (call : SyncCall) (s : PairState V) : Prop :=
  ∃ t, (pair.run s call).chosen = .ok .noop t ∧
    (pair.run s call).synced = .ok ⟨0, some SyncDirection.noop.value⟩ t

theorem settled_iff :
    pair.Settled call s ↔ ∃ current answer, pair.Current s call current ∧
      pair.Answers s.world call.relativePath answer ∧
        SyncRun.ChoosesFrom current (knownVersion s.metadata call.relativePath) answer .noop := by
  constructor
  · rintro ⟨t, hchosen, -⟩
    obtain ⟨current, answer, hcurrent, hanswer, hchooses, -⟩ := chosen_eq_ok hchosen
    exact ⟨current, answer, hcurrent, hanswer, hchooses⟩
  · rintro ⟨current, answer, hcurrent, hanswer, hchooses⟩
    have hchosen := chosen_noop hcurrent hanswer hchooses
    exact ⟨_, hchosen, SyncRun.synced_of_chosen hchosen⟩

/-! ### The peer's answer -/

theorem answers_iff {w : DeviceState V} {relativePath : String} :
    pair.Answers w relativePath answer ↔
      ∃ path, (pair.peer.server w).safeResolve relativePath = .ok path ∧
        answer = ((pair.peer.server w).repository.load (pair.peer.server w).resolver path).map
          fun collection ↦ ⟨collection, (pair.peer.server w).resolveVersion relativePath⟩ := by
  have hfound (collection : Option ChunkCollection) (version : Option VersionVector) :
      (if collection.isSome then collection.map fun collection ↦
        (⟨collection, version⟩ : ManifestWithVersion) else none) =
          collection.map fun collection ↦ ⟨collection, version⟩ := by
    cases collection <;> rfl
  constructor
  · rintro ⟨response, hresponse, rfl⟩
    obtain ⟨path, hpath, hreturn⟩ := except_bind_eq_ok.mp hresponse
    cases hreturn
    exact ⟨path, hpath, hfound _ _⟩
  · rintro ⟨path, hpath, rfl⟩
    exact ⟨_, except_bind_eq_ok.mpr ⟨path, hpath, rfl⟩, (hfound _ _).symm⟩

theorem Answers.unique {w : DeviceState V} {relativePath : String}
    {answer answer' : Option ManifestWithVersion} (h : pair.Answers w relativePath answer)
    (h' : pair.Answers w relativePath answer') : answer = answer' := by
  obtain ⟨response, hresponse, rfl⟩ := h
  obtain ⟨response', hresponse', rfl⟩ := h'
  cases hresponse.symm.trans hresponse'
  rfl

/-- What the receiver does to files and records does not change the manifest
that is served, only the version that comes with it. -/
theorem Answers.of_withReceived {w : DeviceState V} {st : ReceiverState} {relativePath : String}
    {answer answer' : Option ManifestWithVersion} (h : pair.Answers w relativePath answer)
    (h' : pair.Answers (w.withReceived st) relativePath answer') :
    answer'.map ManifestWithVersion.collection = answer.map ManifestWithVersion.collection := by
  obtain ⟨path, hpath, rfl⟩ := answers_iff.mp h
  obtain ⟨path', hpath', rfl⟩ := answers_iff.mp h'
  cases hpath.symm.trans hpath'
  simp only [Option.map_map, Function.comp_def]
  rfl

/-! ### A sync that pulls -/

theorem world_of_pulled {result : SyncFileResult} (h : (pair.run s call).pulled = .ok result t) :
    t.world = s.world := by
  have hkeeps : Keeps SyncState.world ((pair.run s call).settings.onDisk.pull call.peer
      pair.device.syncRoot call.relativePath call.strategy call.chunkSize) := by
    apply keeps_world_pull
    · intro w
      change stateOf (pair.device.manifestExchange.requestManifest call.peer call.relativePath w) =
        w
      rw [pair.exchange_eq]
      simp only [Device.exchange, ManifestServer.exchange]
      cases (pair.peer.server w).buildManifestResponse call.relativePath <;> rfl
    · intro hashes w
      change (pair.device.manifestExchange.requestChunks call.peer call.relativePath hashes w).2 = w
      rw [pair.exchange_eq]
      simp only [Device.exchange, ManifestServer.exchange]
      cases (pair.peer.server w).buildChunkResponse call.relativePath hashes <;> rfl
  have hworld := hkeeps s.toSyncState
  have hstate : stateOf (pair.run s call).pulled = t := by rw [h]; rfl
  rw [← hstate]
  exact hworld

end DevicePair
end SecureSync
