import SecureSync.Properties.PullTransfer

/-!
# Pulls that fail

A pull writes each chunk into the local file as it arrives and saves the
manifest last.  Wherever it stops before that, the manifest is untouched, and
the file is untouched exactly when it already held what had been written.
-/

namespace SecureSync

open Raising

/-! ## Where a pull stops -/

/-- How a write fails.  `unopened`: the directory could not be made or the file
not opened, or the task was cancelled before the write began.  `written count`:
the file was opened, and `count` bytes reached it when the disk refused the
rest or the task was cancelled; a worker thread that is not stopped by this may
still write them all. -/
inductive WriteFault where
  | unopened
  | written (count : ℕ)
  deriving DecidableEq, Repr

/-- The write that comes after `after` completed ones fails. -/
structure Stop where
  after : ℕ
  fault : WriteFault
  deriving DecidableEq, Repr

def WriteFault.NoLater : WriteFault → WriteFault → Prop
  | .unopened, _ => True
  | .written _, .unopened => False
  | .written count, .written count' => count ≤ count'

instance : DecidableRel WriteFault.NoLater
  | .unopened, _ => .isTrue trivial
  | .written _, .unopened => .isFalse id
  | .written count, .written count' => inferInstanceAs (Decidable (count ≤ count'))

def Stop.NoLater (stop stop' : Stop) : Prop :=
  stop.after < stop'.after ∨ stop.after = stop'.after ∧ stop.fault.NoLater stop'.fault

def Chunk.partialPiece (chunk : Chunk) (count : ℕ) : Overlay.Piece UInt8 :=
  ⟨chunk.metadata.offset, chunk.data.take count⟩

/-- The disk after a write that failed: `w+b` has made a missing file. -/
def WriteFault.leave (path : Path) (chunk : Chunk) (s : Storage) : WriteFault → Storage
  | .unopened => s
  | .written count =>
      { s with
        files := Function.update s.files path
          (some (Overlay.writeAt 0 ((s.files path).getD []) (chunk.partialPiece count))) }

/-- The local disk when the write that finds `moment` operations in the journal
fails. -/
def reconstructorFailingAt (moment : ℕ) (fault : WriteFault) : FileReconstructor :=
  { localFileReconstructor with
    writeChunkAtOffset := fun path chunk s ↦
      if s.journal.length = moment then
        .error (.writeChunk chunk.metadata.chunkId path chunk.metadata.offset)
          (fault.leave path chunk s)
      else localFileReconstructor.writeChunkAtOffset path chunk s }

def SyncFileSettings.failingAt {W : Type} (settings : SyncFileSettings W) (moment : ℕ)
    (fault : WriteFault) : SyncFileUseCase W :=
  { settings with fileReconstructor := reconstructorFailingAt moment fault }

/-- `pull` on a disk that fails there; past the last chunk it never does. -/
def SyncRun.pulledUntil {W : Type} (run : SyncRun W) (stop : Stop) :
    EStateM.Result SyncError (SyncState W) SyncFileResult :=
  (run.settings.failingAt (run.state.storage.journal.length + stop.after) stop.fault).pull
    run.peer run.syncRoot run.relativePath run.strategy run.chunkSize run.state

/-! ## What is stored until then -/

/-- Store the chunks one by one, up to the stop. -/
def Storage.storeUntil (path : Path) (fault : WriteFault) : ℕ → List Chunk → Storage → Storage
  | _, [], s => s
  | 0, chunk :: _, s => fault.leave path chunk s
  | after + 1, chunk :: later, s =>
      storeUntil path fault after later (s.writeChunkAtOffset path chunk)

section Stores

variable {W : Type} (settings : SyncFileSettings W) (fault : WriteFault)

theorem onSyncStorage_failingAt (path : FilePath) (chunk : Chunk) (s : SyncState W) (moment : ℕ) :
    onSyncStorage ((settings.failingAt moment fault).fileReconstructor.writeChunkAtOffset
        (.file ((settings.failingAt moment fault).resolver.resolve path)) chunk) s =
      if s.storage.journal.length = moment then
        .error (.chunkEngine (.writeChunk chunk.metadata.chunkId (settings.located path)
            chunk.metadata.offset))
          { s with storage := fault.leave (settings.located path) chunk s.storage }
      else
        .ok () { s with
          storage := s.storage.writeChunkAtOffset (settings.located path) chunk } := by
  simp only [onSyncStorage, zoom, SyncFileSettings.failingAt, reconstructorFailingAt]
  split_ifs <;> rfl

theorem storage_storeChunks_failingAt (path : FilePath) (error : Option ExchangeError)
    (chunks : List Chunk) (after : ℕ) (s : SyncState W) {moment : ℕ}
    (h : moment = s.storage.journal.length + after) :
    (stateOf ((settings.failingAt moment fault).storeChunks path error chunks s)).storage =
      s.storage.storeUntil (settings.located path) fault after chunks := by
  induction chunks generalizing after s with
  | nil => cases error <;> cases after <;> rfl
  | cons chunk later ih =>
      rw [SyncFileUseCase.storeChunks, bind_run, onSyncStorage_failingAt]
      cases after with
      | zero =>
          rw [if_pos (by omega)]
          rfl
      | succ after =>
          have hmoment : moment = (s.storage.writeChunkAtOffset (settings.located path)
              chunk).journal.length + after := by
            rw [Storage.journal_writeChunkAtOffset, List.length_append, List.length_singleton]
            omega
          rw [if_neg (by omega)]
          exact (stateOf_bind (fun _ ↦ keeps_pure _) _).trans (ih after _ hmoment)

end Stores

namespace SyncRun

variable {W : Type} (run : SyncRun W)

/-- The chunks that the peer returns to the pull before its response ends or
turns out malformed. -/
def received : List Chunk :=
  match run.settings.manifestExchange.requestManifest run.peer run.relativePath
      run.state.world with
  | .ok (some m) w =>
      if (0 < run.chunkSize ∧ ∀ k ∈ m.collection.chunks, k.chunkHash ≠ none) ∧
          run.requested m.collection ≠ [] then
        (run.settings.manifestExchange.requestChunks run.peer run.relativePath
          (run.requested m.collection) w).1.1
      else []
  | _ => []

variable {run}

theorem exists_plan_iff {m : ManifestWithVersion} :
    (∃ current plan, run.settings.onDisk.localManifestOrEmpty run.path run.strategy run.chunkSize
        run.state = .ok current run.state ∧
      DeltaCalculator.compute (some current) (m.collection.withSourcePath run.path) = .ok plan) ↔
      0 < run.chunkSize ∧ ∀ k ∈ m.collection.chunks, k.chunkHash ≠ none := by
  rw [← exists_localManifest_iff]
  have hpath : ∀ current, run.settings.onDisk.localManifestOrEmpty run.path run.strategy
      run.chunkSize run.state = .ok current run.state → ∀ b ∈ some current,
        b.sourcePath = (m.collection.withSourcePath run.path).sourcePath := by
    intro current hcurrent b hb
    cases hb
    exact (localManifestOrEmpty_eq_ok hcurrent).2.1
  constructor
  · rintro ⟨current, plan, hcurrent, hplan⟩
    exact ⟨⟨current, hcurrent⟩,
      (DeltaCalculator.exists_compute_iff (hpath current hcurrent)).mp ⟨plan, hplan⟩⟩
  · rintro ⟨⟨current, hcurrent⟩, hhashed⟩
    obtain ⟨plan, hplan⟩ :=
      (DeltaCalculator.exists_compute_iff (hpath current hcurrent)).mpr hhashed
    exact ⟨current, plan, hcurrent, hplan⟩

theorem received_of_plan {m : ManifestWithVersion} {w : W} {current : ChunkCollection}
    {plan : DeltaPlan}
    (hcurrent : run.settings.onDisk.localManifestOrEmpty run.path run.strategy run.chunkSize
      run.state = .ok current run.state)
    (hanswer : run.settings.manifestExchange.requestManifest run.peer run.relativePath
      run.state.world = .ok (some m) w)
    (hplan : DeltaCalculator.compute (some current) (m.collection.withSourcePath run.path) =
      .ok plan) :
    run.received = (run.settings.returned run.peer run.relativePath plan w).1 := by
  have hpositive := exists_plan_iff.mp ⟨current, plan, hcurrent, hplan⟩
  rw [received, hanswer, returned_eq (chunks_of_localManifest hcurrent) hplan]
  by_cases hasks : run.requested m.collection = []
  · rw [if_pos hasks]
    exact if_neg fun h ↦ h.2 hasks
  · rw [if_neg hasks]
    exact if_pos ⟨hpositive, hasks⟩

variable (run) in
theorem storage_pulledUntil (stop : Stop) :
    (stateOf (run.pulledUntil stop)).storage =
      run.state.storage.storeUntil (run.settings.located run.path) stop.fault stop.after
        run.received := by
  have hnil : run.state.storage.storeUntil (run.settings.located run.path) stop.fault stop.after
      [] = run.state.storage := by
    cases stop.after <;> rfl
  by_cases hasked : ∃ current m w plan,
      run.settings.onDisk.localManifestOrEmpty run.path run.strategy run.chunkSize run.state =
        .ok current run.state ∧
      run.settings.manifestExchange.requestManifest run.peer run.relativePath run.state.world =
        .ok (some m) w ∧
      DeltaCalculator.compute (some current) (m.collection.withSourcePath run.path) = .ok plan
  · obtain ⟨current, m, w, plan, hcurrent, hanswer, hplan⟩ := hasked
    rw [received_of_plan hcurrent hanswer hplan]
    obtain ⟨w', hstorage⟩ := storage_pull (run.settings.failingAt
      (run.state.storage.journal.length + stop.after) stop.fault) hcurrent hanswer hplan
    exact hstorage.trans (storage_storeChunks_failingAt run.settings stop.fault run.path _ _
      stop.after _ rfl)
  · have hnone : run.received = [] := by
      rw [received]
      cases hanswer : run.settings.manifestExchange.requestManifest run.peer run.relativePath
          run.state.world with
      | error e w => rfl
      | ok answer w =>
          cases answer with
          | none => rfl
          | some m =>
              simp only
              rw [if_neg]
              rintro ⟨hpositive, -⟩
              obtain ⟨current, plan, hcurrent, hplan⟩ := exists_plan_iff.mpr hpositive
              exact hasked ⟨current, m, w, plan, hcurrent, hanswer, hplan⟩
    rw [hnone, hnil]
    exact storage_pull_of_no_plan _ fun current m w plan hcurrent hanswer hplan ↦
      hasked ⟨current, m, w, plan, hcurrent, hanswer, hplan⟩

theorem keepsOnError_repository_pull (uc : SyncFileUseCase W) {peer : Peer}
    {syncRoot : FilePath} {relativePath : String} {strategy : ChunkingStrategy} {chunkSize : ℕ} :
    KeepsOnError SyncState.repository
      (uc.pull peer syncRoot relativePath strategy chunkSize) := by
  have hlocal : Keeps SyncState.repository (uc.localManifestOrEmpty (joinPath syncRoot relativePath)
      strategy chunkSize) := by
    intro s
    rw [stateOf_localManifestOrEmpty]
  have hstore : ∀ path error chunks,
      Keeps SyncState.repository (uc.storeChunks path error chunks) := by
    intro path error chunks
    induction chunks with
    | nil => cases error <;> exact fun _ ↦ rfl
    | cons chunk later ih =>
        have hwrite : Keeps SyncState.repository (@onSyncStorage W _
            (uc.fileReconstructor.writeChunkAtOffset (.file (uc.resolver.resolve path)) chunk)) :=
          keeps_zoom fun _ _ ↦ rfl
        exact hwrite.bind fun _ ↦ ih.bind fun _ ↦ keeps_pure _
  apply hlocal.bind_onError
  intro current
  apply (keeps_normalizedPeerManifest (fun _ _ ↦ rfl) _).bind_onError
  rintro (_ | peerManifest)
  · exact (keeps_pure _).onError
  · apply (keeps_orRaise _ _).bind_onError
    intro plan
    have hdownload : Keeps SyncState.repository (uc.download peer relativePath
        (joinPath syncRoot relativePath) plan) := by
      intro s
      obtain ⟨w, hrun⟩ := @stateOf_download W peer relativePath uc
        (joinPath syncRoot relativePath) plan s
      rw [hrun]
      exact hstore _ _ _ _
    apply hdownload.bind_onError
    intro count
    apply (keeps_finalManifest uc _ _ _).bind_onError
    intro final s e t h
    cases h

end SyncRun

/-! ## When nothing has changed -/

def Holds (content : Option Bytes) (piece : Overlay.Piece UInt8) : Prop :=
  ∃ old, content = some old ∧ Overlay.IsSlice old piece

def WriteFault.InPlace (content : Option Bytes) (chunk : Chunk) : WriteFault → Prop
  | .unopened => True
  | .written count => Holds content (chunk.partialPiece count)

/-- The file already holds each chunk that is stored before the stop, and what
reaches it of the one whose write fails. -/
structure Stop.InPlace (stop : Stop) (content : Option Bytes) (chunks : List Chunk) : Prop where
  stored : ∀ chunk ∈ chunks.take stop.after, Holds content chunk.piece
  failed : ∀ chunk ∈ chunks[stop.after]?, stop.fault.InPlace content chunk

section InPlace

variable {content : Option Bytes} {chunk : Chunk} {path : Path} {fault fault' : WriteFault}

theorem writeAt_eq_content_iff {piece : Overlay.Piece UInt8} :
    some (Overlay.writeAt 0 (content.getD []) piece) = content ↔ Holds content piece := by
  cases content with
  | none => simp [Holds]
  | some old =>
      rw [Option.getD_some, Option.some_inj, Overlay.writeAt_eq_self_iff]
      simp [Holds]

theorem partialPiece_isSlice {old : Bytes} {count : ℕ} {piece : Overlay.Piece UInt8}
    (h : Overlay.IsSlice old piece) (hoffset : piece.offset = chunk.metadata.offset)
    (hdata : ∃ size, piece.data = chunk.data.take size ∧ count ≤ size) :
    Overlay.IsSlice old (chunk.partialPiece count) := by
  obtain ⟨size, hdata, hle⟩ := hdata
  intro k hk
  have hcount : k < count ∧ k < chunk.data.length := by
    simpa [Chunk.partialPiece] using hk
  have hsize : k < piece.data.length := by
    rw [hdata, List.length_take]
    omega
  have hget := h k hsize
  rw [hoffset, hdata, List.getElem?_take_of_lt (hcount.1.trans_le hle)] at hget
  simp only [Chunk.partialPiece]
  rw [hget, List.getElem?_take_of_lt hcount.1]

theorem Holds.inPlace (h : Holds content chunk.piece) (fault : WriteFault) :
    fault.InPlace content chunk := by
  obtain ⟨old, hold, hslice⟩ := h
  cases fault with
  | unopened => trivial
  | written count =>
      refine ⟨old, hold, partialPiece_isSlice hslice rfl ⟨max count chunk.data.length, ?_, ?_⟩⟩
      · exact (List.take_of_length_le (le_max_right _ _)).symm
      · exact le_max_left _ _

theorem WriteFault.InPlace.of_noLater (h : fault.InPlace content chunk)
    (hle : fault'.NoLater fault) : fault'.InPlace content chunk := by
  cases fault' with
  | unopened => trivial
  | written count' =>
      cases fault with
      | unopened => exact absurd hle id
      | written count =>
          obtain ⟨old, hold, hslice⟩ := h
          exact ⟨old, hold, partialPiece_isSlice hslice rfl ⟨count, rfl, hle⟩⟩

theorem WriteFault.NoLater.refl (fault : WriteFault) : fault.NoLater fault := by
  cases fault with
  | unopened => trivial
  | written count => exact le_refl count

theorem files_leave_iff {s : Storage} :
    (fault.leave path chunk s).files path = s.files path ↔
      fault.InPlace (s.files path) chunk := by
  cases fault with
  | unopened => exact iff_of_true rfl trivial
  | written count =>
      simp only [WriteFault.leave, Function.update_self]
      exact writeAt_eq_content_iff

theorem Stop.noLater_succ {n n' : ℕ} {fault fault' : WriteFault} :
    (⟨n + 1, fault⟩ : Stop).NoLater ⟨n' + 1, fault'⟩ ↔
      (⟨n, fault⟩ : Stop).NoLater ⟨n', fault'⟩ := by
  rw [Stop.NoLater, Stop.NoLater, Nat.succ_lt_succ_iff, Nat.succ_inj]

/-- Nothing was tried before the first chunk. -/
theorem Stop.zero_noLater (stop : Stop) : (⟨0, .unopened⟩ : Stop).NoLater stop := by
  rcases Nat.eq_zero_or_pos stop.after with hzero | hpos
  · exact .inr ⟨hzero.symm, trivial⟩
  · exact .inl hpos

theorem files_storeUntil_iff (chunks : List Chunk) (stop : Stop) (s : Storage) :
    (∀ moment : Stop, moment.NoLater stop →
        (s.storeUntil path moment.fault moment.after chunks).files path = s.files path) ↔
      stop.InPlace (s.files path) chunks := by
  induction chunks generalizing stop s with
  | nil =>
      have hnil : ∀ (fault : WriteFault) after, s.storeUntil path fault after [] = s := by
        intro fault after
        cases after <;> rfl
      exact iff_of_true (fun moment _ ↦ by rw [hnil]) ⟨by simp, by simp⟩
  | cons chunk later ih =>
      obtain ⟨_ | after, fault⟩ := stop
      · constructor
        · intro h
          refine ⟨by simp, fun first hfirst ↦ ?_⟩
          cases hfirst
          exact files_leave_iff.mp (h ⟨0, fault⟩ (.inr ⟨rfl, .refl fault⟩))
        · rintro ⟨-, hfailed⟩ ⟨after', fault'⟩ (hlt | ⟨rfl, hle⟩)
          · exact absurd hlt (Nat.not_lt_zero _)
          · exact files_leave_iff.mpr ((hfailed chunk rfl).of_noLater hle)
      · have hwritten : (s.writeChunkAtOffset path chunk).files path = s.files path ↔
            Holds (s.files path) chunk.piece := by
          rw [Storage.files_writeChunkAtOffset_self]
          exact writeAt_eq_content_iff
        have hlater := ih ⟨after, fault⟩ (s.writeChunkAtOffset path chunk)
        constructor
        · intro h
          -- the pull that stops right after the first chunk shows what this chunk did
          have hfirst : (s.writeChunkAtOffset path chunk).files path = s.files path := by
            have hfiles := h ⟨1, .unopened⟩ (Stop.noLater_succ.mpr (Stop.zero_noLater _))
            cases later <;> exact hfiles
          rw [hfirst] at hlater
          obtain ⟨hstored, hfailed⟩ := hlater.mp fun moment hmoment ↦
            h ⟨moment.after + 1, moment.fault⟩ (Stop.noLater_succ.mpr hmoment)
          refine ⟨fun stored hmem ↦ ?_, hfailed⟩
          rcases List.mem_cons.mp hmem with rfl | hmem
          · exact hwritten.mp hfirst
          · exact hstored stored hmem
        · rintro ⟨hstored, hfailed⟩ ⟨after', fault'⟩ hmoment
          have hchunk := hstored chunk (by simp)
          have hfirst := hwritten.mpr hchunk
          rw [hfirst] at hlater
          cases after' with
          | zero => exact files_leave_iff.mpr (hchunk.inPlace fault')
          | succ after' =>
              refine hlater.mpr ⟨fun stored hmem ↦ ?_, hfailed⟩ ⟨after', fault'⟩
                (Stop.noLater_succ.mp hmoment)
              exact hstored stored (List.mem_cons_of_mem _ hmem)

end InPlace

/-! ## The local file and its manifest -/

/-- After a pull that stops here the manifest is the one before it, and at no
moment until then was the file at the real path another one. -/
structure SyncRun.LeavesIntact {W : Type} (run : SyncRun W) (stop : Stop) : Prop where
  repository_eq : (stateOf (run.pulledUntil stop)).repository = run.state.repository
  content_eq : ∀ moment : Stop, moment.NoLater stop →
    run.settings.onDisk.contentAt run.path (stateOf (run.pulledUntil moment)) = run.content

/-- A pull that raises leaves everything intact exactly when the file already
held all that was written into it. -/
theorem leaves_intact_iff {W : Type} (run : SyncRun W) (stop : Stop)
    (hraises : ¬ Completed (run.pulledUntil stop)) :
    run.LeavesIntact stop ↔ stop.InPlace run.content run.received := by
  have hfiles := @files_storeUntil_iff (run.settings.located run.path) run.received stop
    run.state.storage
  have hcontent : ∀ moment, run.settings.onDisk.contentAt run.path
      (stateOf (run.pulledUntil moment)) =
        (run.state.storage.storeUntil (run.settings.located run.path) moment.fault moment.after
          run.received).files (run.settings.located run.path) := by
    intro moment
    rw [← run.storage_pulledUntil]
    rfl
  refine Iff.trans ⟨fun h moment hmoment ↦ ?_, fun h ↦ ⟨?_, fun moment hmoment ↦ ?_⟩⟩ hfiles
  · rw [← hcontent]
    exact h.content_eq moment hmoment
  · cases hrun : run.pulledUntil stop with
    | ok result t =>
        rw [hrun] at hraises
        exact absurd trivial hraises
    | error e t => exact SyncRun.keepsOnError_repository_pull _ _ _ _ hrun
  · rw [hcontent]
    exact h moment hmoment

/-! ### A pull that fails half-way -/

def halfAnswered : List ChunkPayload :=
  [⟨"x", 0, 1, 0, "sha256", digestOf1.digest, [1]⟩, ⟨"y", 1, 1, 1, "md5", "", [2]⟩]

theorem leaves_intact_sample :
    ((samplePull (some [1, 9]) [1, 2]).answering halfAnswered).LeavesIntact ⟨5, .unopened⟩ ↔
      Stop.InPlace ⟨5, .unopened⟩ (some [1, 9])
        ((samplePull (some [1, 9]) [1, 2]).answering halfAnswered).received :=
  leaves_intact_iff _ _ (by decide)

/-- The first chunk returned is stored and the second is malformed: the pull
raises, and the file is neither the old one nor the peer's. -/
theorem failed_pull_tears_file :
    let run := (samplePull (some [9, 9]) [1, 2]).answering halfAnswered
    run.content = some [9, 9] ∧ ¬ Completed run.pulled ∧
      (stateOf run.pulled).storage.files (run.settings.located run.path) = some [1, 9] ∧
      ¬ Completed (run.pulledUntil ⟨5, .unopened⟩) ∧ ¬ run.LeavesIntact ⟨5, .unopened⟩ := by
  intro run
  refine ⟨content_sampleRun .., by decide, by decide, by decide, fun h ↦ ?_⟩
  have hcontent := h.content_eq ⟨5, .unopened⟩ (.inr ⟨rfl, trivial⟩)
  exact absurd hcontent (by decide)

end SecureSync
