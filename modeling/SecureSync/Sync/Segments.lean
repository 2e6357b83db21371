import SecureSync.Sync.Phases
import SecureSync.Sync.Transfers

/-!
# What a segment does

Between two awaits a call writes one chunk into its file, or saves a manifest, or leaves both files
and manifests alone.
-/

namespace SecureSync

open Raising

variable {W : Type}

/-- How `push` goes on when the file holds `content`. -/
inductive PushPhase.Follows (uc : SyncFileUseCase W) (path : FilePath) (call : SyncCall)
    (content : Option Bytes) : PushPhase → PushPhase → Prop
  | opened : Follows uc path call content .starting (.reading content)
  | built {read current}
      (h : buildManifest uc.engine path call.strategy read call.chunkSize = .ok current) :
      Follows uc path call content (.reading read) (.requesting current)
  | answered (current peerManifest) :
      Follows uc path call content (.requesting current) (.comparing current peerManifest)
  | sends (current peerManifest uploadPlan localVersion error left) :
      Follows uc path call content (.comparing current peerManifest)
        (.sending current uploadPlan localVersion error left)
  | nothing (current peerManifest n) :
      Follows uc path call content (.comparing current peerManifest) (.saving current n)
  | sent (current uploadPlan localVersion error chunk left) :
      Follows uc path call content (.sending current uploadPlan localVersion error (chunk :: left))
        (.sending current uploadPlan localVersion error left)
  | all (current uploadPlan localVersion) :
      Follows uc path call content (.sending current uploadPlan localVersion none [])
        (.saving current uploadPlan.transferCount)
  | saved (current n) : Follows uc path call content (.saving current n) (.done n)
  | done (n) : Follows uc path call content (.done n) (.done n)

/-- What `_local_manifest_or_empty` makes of this content. -/
def SyncFileUseCase.IsLocalManifest (uc : SyncFileUseCase W) (path : FilePath) (call : SyncCall)
    (read : Option Bytes) (current : ChunkCollection) : Prop :=
  (∃ bytes, read = some bytes ∧
      buildManifest uc.engine path call.strategy (some bytes) call.chunkSize = .ok current) ∨
    read = none ∧ ChunkCollection.make path call.chunkSize 0 [] = .ok current

theorem SyncFileUseCase.IsLocalManifest.unique {uc : SyncFileUseCase W} {path : FilePath}
    {call : SyncCall} {read : Option Bytes} {current other : ChunkCollection}
    (h : uc.IsLocalManifest path call read current)
    (h' : uc.IsLocalManifest path call read other) : current = other := by
  rcases h with ⟨bytes, rfl, hbuild⟩ | ⟨rfl, hmake⟩
  · obtain ⟨bytes', hread, hbuild'⟩ | ⟨hnone, -⟩ := h'
    · cases hread
      exact Except.ok.inj (hbuild.symm.trans hbuild')
    · cases hnone
  · obtain ⟨bytes, hread, -⟩ | ⟨-, hmake'⟩ := h'
    · cases hread
    · exact Except.ok.inj (hmake.symm.trans hmake')

/-- How `pull` goes on when the file holds `content`. -/
inductive PullPhase.Follows (uc : SyncFileUseCase W) (path : FilePath) (call : SyncCall)
    (content : Option Bytes) : PullPhase → PullPhase → Prop
  | opened : Follows uc path call content .starting (.reading content)
  | built {read current} (h : uc.IsLocalManifest path call read current) :
      Follows uc path call content (.reading read) (.requesting current)
  | refused (current) : Follows uc path call content (.requesting current) (.done 0)
  | asks (current downloadPlan) :
      Follows uc path call content (.requesting current) (.fetching current downloadPlan)
  | nothing (current) : Follows uc path call content (.requesting current) (.saving current 0)
  | answered (current downloadPlan error left) :
      Follows uc path call content (.fetching current downloadPlan) (.storing current error left 0)
  | stored (current error chunk left n) :
      Follows uc path call content (.storing current error (chunk :: left) n)
        (.storing current error left (n + 1))
  | reopened (current) {n} (h : n ≠ 0) :
      Follows uc path call content (.storing current none [] n) (.rereading content n)
  | kept (current) : Follows uc path call content (.storing current none [] 0) (.saving current 0)
  | rebuilt {read finalManifest} (n)
      (h : buildManifest uc.engine path call.strategy read call.chunkSize = .ok finalManifest) :
      Follows uc path call content (.rereading read n) (.saving finalManifest n)
  | saved (finalManifest n) : Follows uc path call content (.saving finalManifest n) (.done n)
  | done (n) : Follows uc path call content (.done n) (.done n)

/-- How `sync` goes on when the file holds `content`. -/
inductive SyncPhase.Follows (uc : SyncFileUseCase W) (path : FilePath) (call : SyncCall)
    (content : Option Bytes) : SyncPhase → SyncPhase → Prop
  | opened : Follows uc path call content .starting (.reading content)
  | built {read localCollection} (h : uc.IsLocalManifest path call read localCollection) :
      Follows uc path call content (.reading read) (.versioning localCollection)
  | versioned (localCollection localVersion) :
      Follows uc path call content (.versioning localCollection)
        (.requesting localCollection localVersion)
  | chose (localCollection localVersion action) :
      Follows uc path call content (.requesting localCollection localVersion) (.chosen action)
  | push : Follows uc path call content (.chosen .push) (.pushing .starting)
  | pull : Follows uc path call content (.chosen .pull) (.pulling .starting)
  | yields : Follows uc path call content (.chosen (.conflict true)) (.pulling .starting)
  | noop (result) : Follows uc path call content (.chosen .noop) (.done result)
  | keeps (result) : Follows uc path call content (.chosen (.conflict false)) (.done result)
  | pushing {phase phase'} (h : PushPhase.Follows uc path call content phase phase') :
      Follows uc path call content (.pushing phase) (.pushing phase')
  | pulling {phase phase'} (h : PullPhase.Follows uc path call content phase phase') :
      Follows uc path call content (.pulling phase) (.pulling phase')
  | done (result) : Follows uc path call content (.done result) (.done result)

/-- The chunk that `pull` writes into the file next. -/
def PullPhase.writes : PullPhase → Option Chunk
  | .storing _ _ (chunk :: _) _ => some chunk
  | _ => none

def PushPhase.saves : PushPhase → Option ChunkCollection
  | .saving current _ => some current
  | _ => none

def PullPhase.saves : PullPhase → Option ChunkCollection
  | .saving finalManifest _ => some finalManifest
  | _ => none

/-- Chunks have been written, and the manifest is not saved yet. -/
def PullPhase.hasWritten : PullPhase → Bool
  | .storing _ _ _ transferredCount | .rereading _ transferredCount
  | .saving _ transferredCount => transferredCount ≠ 0
  | .starting | .reading _ | .requesting _ | .fetching _ _ | .done _ => false

namespace SyncPhase

/-- The chunk that the next segment writes into the file. -/
def writes : SyncPhase → Option Chunk
  | .pulling phase => phase.writes
  | _ => none

/-- The manifest that the next segment saves. -/
def saves : SyncPhase → Option ChunkCollection
  | .pushing phase => phase.saves
  | .pulling phase => phase.saves
  | _ => none

def hasWritten : SyncPhase → Bool
  | .pulling phase => phase.hasWritten
  | _ => false

end SyncPhase

section Segments

variable {uc : SyncFileUseCase W} {syncRoot : FilePath} {call : SyncCall}

section Keeps

variable {γ : Type} {g : SyncState W → γ}

theorem keeps_manifestFrom (path : FilePath) (content : Option Bytes) :
    Keeps g (uc.manifestFrom path call content) :=
  keeps_orRaise _ _

theorem keeps_manifestOrEmptyFrom (path : FilePath) (content : Option Bytes) :
    Keeps g (uc.manifestOrEmptyFrom path call content) := by
  unfold SyncFileUseCase.manifestOrEmptyFrom
  split
  · exact keeps_pure _
  · exact keeps_orRaise _ _
  · exact fun _ ↦ rfl

variable (hworld : ∀ (w : W) s, g { s with world := w } = g s)
  (houtbox : ∀ o s, g { s with outbox := o } = g s)
  (hclock : ∀ c s, g { s with clock := c } = g s)

include hworld houtbox in
theorem keeps_pushNext {phase : PushPhase} (h : phase.saves = none) :
    Keeps g (uc.pushNext syncRoot call phase) := by
  cases phase with
  | starting => exact keeps_get.bind fun _ ↦ keeps_pure _
  | reading content => exact (keeps_manifestFrom _ _).bind fun _ ↦ keeps_pure _
  | requesting current =>
      exact (keeps_normalizedPeerManifest hworld _).bind fun _ ↦ keeps_pure _
  | comparing current peerManifest =>
      apply (keeps_localVersion hworld).bind
      intro localVersion
      apply (keeps_orRaise _ _).bind
      intro uploadPlan
      split_ifs
      · exact keeps_get.bind fun _ ↦ keeps_pure _
      · exact keeps_pure _
  | sending current uploadPlan localVersion error left =>
      cases left with
      | nil => cases error <;> exact fun _ ↦ rfl
      | cons chunk left => exact (keeps_send hworld houtbox _).bind fun _ ↦ keeps_pure _
  | saving current n => cases h
  | done n => exact keeps_pure _

include hworld in
theorem keeps_pullNext {phase : PullPhase} (hwrites : phase.writes = none)
    (hsaves : phase.saves = none) :
    Keeps g (uc.pullNext syncRoot call phase) := by
  cases phase with
  | starting => exact keeps_get.bind fun _ ↦ keeps_pure _
  | reading content => exact (keeps_manifestOrEmptyFrom _ _).bind fun _ ↦ keeps_pure _
  | requesting current =>
      apply (keeps_normalizedPeerManifest hworld _).bind
      intro peerManifest
      cases peerManifest with
      | none => exact keeps_pure _
      | some peerManifest =>
          apply (keeps_orRaise _ _).bind
          intro downloadPlan
          split_ifs <;> exact keeps_pure _
  | fetching current downloadPlan =>
      have hrequest : Keeps g (uc.requestChunks call.peer call.relativePath
          (SyncFileUseCase.hashesToRequest downloadPlan)) := fun s ↦ hworld _ s
      exact hrequest.bind fun _ ↦ keeps_pure _
  | storing current error left n =>
      cases left with
      | nil =>
          cases error with
          | none =>
              rw [SyncFileUseCase.pullNext]
              split_ifs
              · exact keeps_get.bind fun _ ↦ keeps_pure _
              · exact keeps_pure _
          | some error => exact fun _ ↦ rfl
      | cons chunk left => cases hwrites
  | rereading content n => exact (keeps_manifestFrom _ _).bind fun _ ↦ keeps_pure _
  | saving finalManifest n => cases hsaves
  | done n => exact keeps_pure _

include hclock in
theorem keeps_utcNow : Keeps g (utcNow : SyncM W Timestamp) := fun s ↦ hclock _ s

include hclock in
theorem keeps_actionFor (localCollection : ChunkCollection) (localVersion : Option VersionVector)
    (answer : Option ManifestWithVersion) :
    Keeps g (SyncFileUseCase.actionFor (W := W) call localCollection localVersion answer) := by
  cases answer with
  | none => exact keeps_pure _
  | some peerManifest =>
      unfold SyncFileUseCase.actionFor
      dsimp only
      split
      case h_4 =>
        apply Keeps.bind ?_ fun _ ↦ keeps_pure _
        exact (keeps_utcNow hclock).bind fun _ ↦ (keeps_utcNow hclock).bind fun _ ↦ keeps_pure _
      all_goals exact keeps_pure _

include hworld houtbox hclock in
/-- A segment that neither writes nor saves. -/
theorem keeps_syncNext {phase : SyncPhase} (hwrites : phase.writes = none)
    (hsaves : phase.saves = none) : Keeps g (uc.syncNext syncRoot call phase) := by
  cases phase with
  | starting => exact keeps_get.bind fun _ ↦ keeps_pure _
  | reading content => exact (keeps_manifestOrEmptyFrom _ _).bind fun _ ↦ keeps_pure _
  | versioning localCollection => exact (keeps_localVersion hworld).bind fun _ ↦ keeps_pure _
  | requesting localCollection localVersion =>
      apply (keeps_onWorld hworld _ _).bind
      intro answer
      exact (keeps_actionFor hclock _ _ _).bind fun _ ↦ keeps_pure _
  | chosen action => rcases action with _ | _ | _ | _ | _ <;> exact keeps_pure _
  | pushing phase =>
      exact (keeps_pushNext hworld houtbox hsaves).bind fun _ ↦ keeps_pure _
  | pulling phase => exact (keeps_pullNext hworld hwrites hsaves).bind fun _ ↦ keeps_pure _
  | done result => exact keeps_pure _

end Keeps

variable {settings : SyncFileSettings W} {phase phase' : SyncPhase} {s t : SyncState W}

theorem exists_of_writes {chunk : Chunk} (h : phase.writes = some chunk) :
    ∃ current error left n, phase = .pulling (.storing current error (chunk :: left) n) := by
  unfold SyncPhase.writes PullPhase.writes at h
  split at h
  case h_2 => cases h
  case h_1 phase =>
    split at h
    case h_2 => cases h
    case h_1 current error chunk' left n =>
      obtain rfl := Option.some.inj h
      exact ⟨current, error, left, n, rfl⟩

theorem syncNext_of_saves {collection : ChunkCollection} (h : phase.saves = some collection) :
    ∃ phase' t, settings.onDisk.syncNext syncRoot call phase s = .ok phase' t ∧
      phase'.hasWritten = false ∧ t.storage = s.storage ∧
        t.repository = s.repository.save settings.resolver collection := by
  unfold SyncPhase.saves PushPhase.saves PullPhase.saves at h
  split at h
  case h_3 => cases h
  all_goals
    split at h
    case h_2 => cases h
    case h_1 collection' n =>
      obtain rfl := Option.some.inj h
      exact ⟨_, _, rfl, rfl, rfl, rfl⟩

/-- Any other segment leaves files and manifests alone. -/
theorem stateOf_syncNext (hwrites : phase.writes = none) (hsaves : phase.saves = none) :
    (stateOf (uc.syncNext syncRoot call phase s)).storage = s.storage ∧
      (stateOf (uc.syncNext syncRoot call phase s)).repository = s.repository :=
  ⟨keeps_syncNext (fun _ _ ↦ rfl) (fun _ _ ↦ rfl) (fun _ _ ↦ rfl) hwrites hsaves s,
    keeps_syncNext (fun _ _ ↦ rfl) (fun _ _ ↦ rfl) (fun _ _ ↦ rfl) hwrites hsaves s⟩

theorem repository_syncNext (hsaves : phase.saves = none) :
    (stateOf (uc.syncNext syncRoot call phase s)).repository = s.repository := by
  cases hwrites : phase.writes with
  | none => exact (stateOf_syncNext hwrites hsaves).2
  | some chunk =>
      obtain ⟨current, error, left, n, rfl⟩ := exists_of_writes hwrites
      have hwrite : Keeps SyncState.repository (@onSyncStorage W _
          (uc.fileReconstructor.writeChunkAtOffset
            (.file (uc.resolver.resolve (joinPath syncRoot call.relativePath))) chunk)) :=
        keeps_zoom fun _ _ ↦ rfl
      exact ((hwrite.bind fun _ ↦ keeps_pure _).bind fun _ ↦ keeps_pure _) s

theorem manifestFrom_eq_ok {path : FilePath} {content : Option Bytes} {c : ChunkCollection} :
    uc.manifestFrom path call content s = .ok c t ↔
      buildManifest uc.engine path call.strategy content call.chunkSize = .ok c ∧ s = t :=
  orRaise_eq_ok

theorem manifestOrEmptyFrom_eq_ok {path : FilePath} {content : Option Bytes} {c : ChunkCollection}
    (h : uc.manifestOrEmptyFrom path call content s = .ok c t) :
    uc.IsLocalManifest path call content c ∧ s = t := by
  unfold SyncFileUseCase.manifestOrEmptyFrom at h
  cases content with
  | some bytes =>
      cases hbuild : buildManifest uc.engine path call.strategy (some bytes) call.chunkSize with
      | ok collection =>
          rw [hbuild] at h
          obtain ⟨rfl, rfl⟩ := pure_eq_ok.mp h
          exact ⟨.inl ⟨bytes, rfl, hbuild⟩, rfl⟩
      | error e =>
          rw [hbuild] at h
          obtain ⟨cut, rfl⟩ | ⟨e, rfl⟩ := buildManifest_eq_error hbuild
          · cases h
          · cases h
  | none =>
      have hmissing : buildManifest uc.engine path call.strategy none call.chunkSize =
          .error (.source (.notFound path)) := rfl
      rw [hmissing] at h
      obtain ⟨hmake, rfl⟩ := orRaise_eq_ok.mp h
      exact ⟨.inr ⟨rfl, hmake⟩, rfl⟩

theorem follows_of_pushNext {phase phase' : PushPhase}
    (h : uc.pushNext syncRoot call phase s = .ok phase' t) :
    phase.Follows uc (joinPath syncRoot call.relativePath) call
      (uc.contentAt (joinPath syncRoot call.relativePath) s) phase' := by
  cases phase with
  | starting =>
      cases h
      exact .opened
  | reading content =>
      obtain ⟨current, s₁, hbuild, h⟩ := bind_eq_ok.mp h
      cases h
      exact .built (manifestFrom_eq_ok.mp hbuild).1
  | requesting current =>
      obtain ⟨peerManifest, s₁, -, h⟩ := bind_eq_ok.mp h
      cases h
      exact .answered current peerManifest
  | comparing current peerManifest =>
      obtain ⟨localVersion, s₁, -, h⟩ := bind_eq_ok.mp h
      obtain ⟨uploadPlan, s₂, -, h⟩ := bind_eq_ok.mp h
      split_ifs at h
      · obtain ⟨s₃, s₄, -, h⟩ := bind_eq_ok.mp h
        cases h
        exact .sends ..
      · cases h
        exact .nothing ..
  | sending current uploadPlan localVersion error left =>
      cases left with
      | nil =>
          cases error with
          | none =>
              cases h
              exact .all ..
          | some error => cases h
      | cons chunk left =>
          obtain ⟨u, s₁, -, h⟩ := bind_eq_ok.mp h
          cases h
          exact .sent ..
  | saving current n =>
      cases h
      exact .saved current n
  | done n =>
      cases h
      exact .done n

theorem follows_of_pullNext {phase phase' : PullPhase}
    (h : uc.pullNext syncRoot call phase s = .ok phase' t) :
    phase.Follows uc (joinPath syncRoot call.relativePath) call
      (uc.contentAt (joinPath syncRoot call.relativePath) s) phase' := by
  cases phase with
  | starting =>
      cases h
      exact .opened
  | reading content =>
      obtain ⟨current, s₁, hbuild, h⟩ := bind_eq_ok.mp h
      cases h
      exact .built (manifestOrEmptyFrom_eq_ok hbuild).1
  | requesting current =>
      obtain ⟨peerManifest, s₁, -, h⟩ := bind_eq_ok.mp h
      cases peerManifest with
      | none =>
          cases h
          exact .refused current
      | some peerManifest =>
          obtain ⟨downloadPlan, s₂, -, h⟩ := bind_eq_ok.mp h
          split_ifs at h
          · cases h
            exact .asks current downloadPlan
          · cases h
            exact .nothing current
  | fetching current downloadPlan =>
      cases h
      exact .answered ..
  | storing current error left n =>
      cases left with
      | nil =>
          cases error with
          | none =>
              rw [SyncFileUseCase.pullNext] at h
              split_ifs at h with hn
              · cases h
                exact .reopened current hn
              · cases h
                obtain rfl := not_not.mp hn
                exact .kept current
          | some error => cases h
      | cons chunk left =>
          obtain ⟨u, s₁, -, h⟩ := bind_eq_ok.mp h
          cases h
          exact .stored ..
  | rereading content n =>
      obtain ⟨current, s₁, hbuild, h⟩ := bind_eq_ok.mp h
      cases h
      exact .rebuilt n (manifestFrom_eq_ok.mp hbuild).1
  | saving finalManifest n =>
      cases h
      exact .saved finalManifest n
  | done n =>
      cases h
      exact .done n

theorem follows_of_syncNext (h : uc.syncNext syncRoot call phase s = .ok phase' t) :
    phase.Follows uc (joinPath syncRoot call.relativePath) call
      (uc.contentAt (joinPath syncRoot call.relativePath) s) phase' := by
  cases phase with
  | starting =>
      cases h
      exact .opened
  | reading content =>
      obtain ⟨localCollection, s₁, hbuild, h⟩ := bind_eq_ok.mp h
      cases h
      exact .built (manifestOrEmptyFrom_eq_ok hbuild).1
  | versioning localCollection =>
      obtain ⟨localVersion, s₁, -, h⟩ := bind_eq_ok.mp h
      cases h
      exact .versioned ..
  | requesting localCollection localVersion =>
      obtain ⟨answer, s₁, -, h⟩ := bind_eq_ok.mp h
      obtain ⟨action, s₂, -, h⟩ := bind_eq_ok.mp h
      cases h
      exact .chose ..
  | chosen action =>
      rcases action with _ | _ | _ | _ | _ <;> cases h
      · exact .push
      · exact .pull
      · exact .noop _
      · exact .keeps _
      · exact .yields
  | pushing phase =>
      obtain ⟨phase', s₁, hpush, h⟩ := bind_eq_ok.mp h
      cases h
      exact .pushing (follows_of_pushNext hpush)
  | pulling phase =>
      obtain ⟨phase', s₁, hpull, h⟩ := bind_eq_ok.mp h
      cases h
      exact .pulling (follows_of_pullNext hpull)
  | done result =>
      cases h
      exact .done result

theorem PullPhase.Follows.hasWritten {phase phase' : PullPhase} {path : FilePath}
    {content : Option Bytes} (h : phase.Follows uc path call content phase')
    (hwrites : phase.writes = none) (hsaves : phase.saves = none) :
    phase'.hasWritten = phase.hasWritten := by
  cases h with
  | stored => cases hwrites
  | saved => cases hsaves
  | _ => simp [PullPhase.hasWritten]

theorem hasWritten_syncNext (hwrites : phase.writes = none) (hsaves : phase.saves = none)
    (h : uc.syncNext syncRoot call phase s = .ok phase' t) :
    phase'.hasWritten = phase.hasWritten := by
  cases follows_of_syncNext h with
  | pulling hfollows => exact hfollows.hasWritten hwrites hsaves
  | _ => rfl

end Segments
end SecureSync
