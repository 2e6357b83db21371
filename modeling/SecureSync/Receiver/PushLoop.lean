import SecureSync.Library.Machines
import SecureSync.Receiver.LooseVectors
import SecureSync.Receiver.Steps

/-!
# The loop over the inbox

`receive_pushes` of `tcp_transport.py`, drained by `run_forever` of
`receive_pushed_files.py`.  What neither of them catches ends both.
-/

namespace SecureSync

open Raising

/-- The part of `_validate` before the bytes of the chunk are hashed. -/
def PushLimits.validateBounds (limits : PushLimits) (totalChunks : ℤ) (metadata : ChunkMetadata) :
    Except PushRejection ChunkHash :=
  if totalChunks < 1 then .error (.totalChunksBelowOne totalChunks)
  else if limits.maxTotalChunks < totalChunks then
    .error (.totalChunksAboveLimit totalChunks limits.maxTotalChunks)
  else if limits.maxChunkSize < metadata.size then
    .error (.chunkSizeAboveLimit metadata.size limits.maxChunkSize)
  else if limits.maxFileSize < metadata.offset + metadata.size then
    .error (.fileSizeAboveLimit metadata.offset limits.maxFileSize)
  else
    match metadata.chunkHash with
    | none => .error .noHash
    | some declared => .ok declared

theorem ReceiverSettings.validate_eq_ok {settings : ReceiverSettings} {incoming : IncomingPush} :
    settings.validate incoming = .ok () ↔
      settings.limits.validateBounds incoming.totalChunks incoming.chunk.metadata =
        .ok (settings.hasher.hash incoming.chunk.data) := by
  unfold validate PushLimits.validateBounds
  dsimp only
  split_ifs
  iterate 4 simp
  cases incoming.chunk.metadata.chunkHash with
  | none => simp
  | some declared =>
      dsimp only
      split_ifs with hmismatch
      · refine iff_of_false nofun ?_
        intro h
        obtain rfl := Except.ok.inj h
        exact hmismatch.elim (fun h ↦ h rfl) (fun h ↦ h rfl)
      · push Not at hmismatch
        exact iff_of_true rfl (congrArg _ (ChunkHash.eq_of_digest_eq hmismatch.2.symm))

/-- The use case over a transport.  `linkLoops` are the paths where `Path.resolve` meets a loop of
symbolic links, which makes it raise a `RuntimeError`; `resolver` says where the others lead. -/
structure PushLoop extends ReceivePushedFiles where
  channel : SecureChannel PyValue
  builtins : Builtins
  linkLoops : FilePath → Bool

/-- The negotiated sessions, the files and records of the receiver, and the
exception that has ended the loop. -/
structure PushLoopState where
  store : SessionStore
  receiver : ReceiverState
  loose : LooseVectors
  failure : Option LoopError

def PushLoopState.looseState (s : PushLoopState) : LooseState := ⟨s.receiver, s.loose⟩

inductive InboxEvent where
  | frame (frame : Bytes) (now : ChannelClock) (clock : Clock)
  | sweep (now : ℚ)

namespace PushLoop

variable (loop : PushLoop)

/-- One turn of `receive_pushes`. -/
def receivePush (frame : Bytes) (now : ChannelClock) :
    EStateM LoopError SessionStore (Option PushMessage) := fun store ↦
  match loop.channel.open frame now store with
  | .error (.replay _) store => .ok none store
  | .error e store => .error (.channel e) store
  | .ok (packet, _) store =>
      match pushFromPayload loop.builtins packet.payload with
      | .error e => .error (.payload e) store
      | .ok push => .ok (some push) store

/-- `resolve_within` resolves the root, and then the path below it. -/
def meetsLinkLoop (relativePath : String) : Bool :=
  match rejectUnsafeSpelling relativePath with
  | .error _ => false
  | .ok _ => loop.linkLoops loop.syncRoot ||
      loop.linkLoops (joinPath (loop.resolver.resolve loop.syncRoot) relativePath)

/-- The body of the loop of `run_forever`, on a push of any types. -/
def handleMessage (clock : Clock) (push : PushMessage) : LooseM Unit := fun s ↦
  if loop.meetsLinkLoop push.relativePath then .error .linkLoop s
  else
    match push.chunk.typed? with
    | none =>
        -- the hash of anything but bytes is a `TypeError`
        match resolveWithin loop.resolver loop.syncRoot push.relativePath,
          loop.limits.validateBounds push.totalChunks push.chunk.metadata with
        | .ok _, .ok _ => .error .type s
        | _, _ => .ok () s
    | some chunk =>
        match push.vector? with
        | none => dropping (loop.handleLoose loop.builtins clock push chunk) s
        | some versionVector =>
            if s.loose.Typed push.relativePath then
              onReceiver (loop.handleEvent
                (.push clock ⟨push.relativePath, push.totalChunks, chunk, versionVector⟩)) s
            else dropping (loop.handleLoose loop.builtins clock push chunk) s

/-- The `finally` of `run_forever`. -/
def ended (store : SessionStore) (s : LooseState) (error : LoopError) : PushLoopState :=
  ⟨store, loop.abortAllPartials s.receiver, s.loose, some error⟩

/-- One frame of the inbox, or one round of the sweeper. -/
def step (s : PushLoopState) (event : InboxEvent) : PushLoopState :=
  if s.failure.isSome then s
  else
    match event with
    | .sweep now => { s with receiver := loop.abortExpiredPartials now s.receiver }
    | .frame frame now clock =>
        match loop.receivePush frame now s.store with
        | .error e store => loop.ended store s.looseState e
        | .ok none store => { s with store }
        | .ok (some push) store =>
            match loop.handleMessage clock push s.looseState with
            | .error e after => loop.ended store after e
            | .ok _ after => ⟨store, after.receiver, after.loose, none⟩

end PushLoop

/-! ## What handling a push may raise -/

/-- The database answers every request. -/
structure MetadataRepository.Serves (repo : MetadataRepository) : Prop where
  get : ∀ filePath store, Completed (repo.getFileMetadata filePath store)
  save : ∀ metadata store, Completed (repo.saveFileMetadata metadata store)

def Caught (e : PushError) : Prop := e.isCaught = true

section Caught

variable {α : Type}

theorem onStorage_raises (action : EStateM ChunkEngineError Storage α) :
    RaisesOnly Caught (onStorage action) :=
  RaisesOnly.zoom (P := fun _ ↦ True) (fun _ _ _ _ ↦ trivial) fun _ _ ↦ rfl

theorem onMetadata_raises {action : EStateM MetadataError MetadataStore α}
    (h : ∀ store, Completed (action store)) : RaisesOnly Caught (onMetadata action) :=
  (raisesOnly_of_completed (P := fun _ ↦ False) h).zoom fun _ h ↦ h.elim

variable {uc : ReceivePushedFiles}

theorem finalize_raises (hserves : uc.metadataRepo.Serves) (clock : Clock) (relativePath : String)
    (destination : FilePath) (pending : PendingFile) :
    RaisesOnly Caught (uc.finalize clock relativePath destination pending) := by
  unfold ReceivePushedFiles.finalize
  refine RaisesOnly.bind (onStorage_raises _) fun _ ↦ ?_
  refine RaisesOnly.bind (raisesOnly_modify _) fun _ ↦ ?_
  refine RaisesOnly.bind (onMetadata_raises (hserves.get _)) fun existing ↦ ?_
  exact onMetadata_raises (hserves.save _)

theorem openPending_raises (clock : Clock) (relativePath : String) (destination : FilePath) :
    RaisesOnly Caught (uc.openPending clock relativePath destination) := by
  unfold ReceivePushedFiles.openPending
  have hbegin : RaisesOnly Caught (do
      let partPath ← onStorage (uc.fileReconstructor.beginPartial destination)
      let pending : PendingFile := { partPath, lastActivity := clock.monotonic }
      setPending relativePath pending
      return pending) := by
    refine RaisesOnly.bind (onStorage_raises _) fun partPath ↦ ?_
    refine RaisesOnly.bind (raisesOnly_modify _) fun _ ↦ ?_
    exact raisesOnly_pure _
  refine RaisesOnly.bind raisesOnly_get fun st ↦ ?_
  cases st.pending.lookup relativePath with
  | some pending => exact raisesOnly_pure _
  | none =>
      dsimp only
      split_ifs
      · exact RaisesOnly.bind (raisesOnly_throw rfl) fun _ ↦ hbegin
      · exact hbegin

theorem storeChunk_raises (clock : Clock) (incoming : IncomingPush) :
    RaisesOnly Caught (uc.storeChunk clock incoming) := by
  unfold ReceivePushedFiles.storeChunk
  have hpath : ∀ e, Caught (.unsafePath e) := fun _ ↦ rfl
  have hrejected : ∀ e, Caught (.rejected e) := fun _ ↦ rfl
  refine RaisesOnly.bind (raisesOnly_orRaise hpath _) fun destination ↦ ?_
  refine RaisesOnly.bind (raisesOnly_orRaise hrejected _) fun _ ↦ ?_
  refine RaisesOnly.bind (openPending_raises _ _ _) fun pending ↦ ?_
  refine RaisesOnly.bind (raisesOnly_modify _) fun _ ↦ ?_
  refine RaisesOnly.bind (onStorage_raises _) fun _ ↦ ?_
  refine RaisesOnly.bind (raisesOnly_modify _) fun _ ↦ ?_
  exact raisesOnly_pure _

/-- Only the database can make `_handle_push` raise what `run_forever` does not
catch. -/
theorem handlePush_raises (hserves : uc.metadataRepo.Serves) (clock : Clock)
    (incoming : IncomingPush) : RaisesOnly Caught (uc.handlePush clock incoming) := by
  rw [ReceivePushedFiles.handlePush_eq]
  refine RaisesOnly.bind (storeChunk_raises _ _) fun result ↦ ?_
  refine RaisesOnly.bind (raisesOnly_modify _) fun _ ↦ ?_
  split_ifs
  · exact finalize_raises hserves _ _ _ _
  · exact raisesOnly_pure _

theorem completed_handleEvent (hserves : uc.metadataRepo.Serves) (event : ReceiverEvent)
    (st : ReceiverState) : Completed (uc.handleEvent event st) := by
  cases event with
  | sweep now => exact trivial
  | push clock incoming =>
      cases h : uc.handlePush clock incoming st with
      | ok u st' => simp only [ReceivePushedFiles.handleEvent, h, Completed]
      | error e st' =>
          have hcaught : e.isCaught = true := handlePush_raises hserves clock incoming _ _ _ h
          simp only [ReceivePushedFiles.handleEvent, h, hcaught, if_true, Completed]

/-! ### With vectors of other types -/

/-- The indices of the file that have arrived. -/
def ReceiverState.receivedIndices (st : ReceiverState) (relativePath : String) : Finset ℕ :=
  (st.pending.lookup relativePath).elim ∅ PendingFile.receivedIndices

variable {st st' : ReceiverState} {clock : Clock} {destination : FilePath} {pending : PendingFile}

theorem openPending_ok {relativePath : String}
    (h : uc.openPending clock relativePath destination st = .ok pending st') :
    uc.HasRoom st relativePath ∧
      pending.receivedIndices = st.receivedIndices relativePath ∧ st'.metadata = st.metadata := by
  unfold ReceivePushedFiles.openPending at h
  obtain ⟨st₁, st₂, hget, h⟩ := bind_eq_ok.mp h
  cases hget
  unfold ReceiverState.receivedIndices
  cases hlookup : st.pending.lookup relativePath with
  | some known =>
      simp only [hlookup, pure_eq_ok] at h
      obtain ⟨rfl, rfl⟩ := h
      exact ⟨.inl (AList.lookup_isSome.mp (by rw [hlookup]; rfl)), rfl, rfl⟩
  | none =>
      simp only [hlookup] at h
      split_ifs at h with hfull
      · obtain ⟨u, st₁, hthrow, -⟩ := bind_eq_ok.mp h
        cases hthrow
      · obtain ⟨partPath, st₁, hbegin, h⟩ := bind_eq_ok.mp h
        obtain ⟨storage, -, rfl⟩ := zoom_eq_ok.mp hbegin
        obtain ⟨u, st₂, hset, h⟩ := bind_eq_ok.mp h
        cases hset
        cases h
        exact ⟨.inr (not_le.mp hfull), rfl, rfl⟩

/-- What the chunk that is stored has passed. -/
theorem storeChunk_ok {incoming : IncomingPush}
    (h : uc.storeChunk clock incoming st = .ok (destination, pending) st') :
    resolveWithin uc.resolver uc.syncRoot incoming.relativePath = .ok destination ∧
      uc.validate incoming = .ok () ∧ uc.HasRoom st incoming.relativePath ∧
      pending.receivedIndices =
        insert incoming.chunk.metadata.index (st.receivedIndices incoming.relativePath) ∧
      st'.metadata = st.metadata := by
  unfold ReceivePushedFiles.storeChunk at h
  obtain ⟨destination', st₁, hresolve, h⟩ := bind_eq_ok.mp h
  obtain ⟨hpath, rfl⟩ := orRaise_eq_ok.mp hresolve
  obtain ⟨u, st₁, hvalidate, h⟩ := bind_eq_ok.mp h
  obtain ⟨hvalid, rfl⟩ := orRaise_eq_ok.mp hvalidate
  obtain ⟨opened, st₁, hopen, h⟩ := bind_eq_ok.mp h
  obtain ⟨hroom, hindices, hmetadata⟩ := openPending_ok hopen
  obtain ⟨u, st₂, hset, h⟩ := bind_eq_ok.mp h
  cases hset
  obtain ⟨u, st₂, hwrite, h⟩ := bind_eq_ok.mp h
  obtain ⟨storage, -, rfl⟩ := zoom_eq_ok.mp hwrite
  obtain ⟨u, st₂, hset, h⟩ := bind_eq_ok.mp h
  cases hset
  cases h
  exact ⟨hpath, hvalid, hroom, by rw [hindices], hmetadata⟩

variable {s : LooseState} {P : LoopError → Prop}

theorem raisesAt_onReceiver {action : HandleM α} (h : RaisesAt Caught action s.receiver) :
    RaisesAt (fun e ↦ e.isCaught = true) (onReceiver action) s :=
  h.zoom fun _ h ↦ h

theorem raisesAt_comparable {a : Option α} (h : a.isSome) : RaisesAt P (comparable a) s := by
  obtain ⟨a, rfl⟩ := Option.isSome_iff_exists.mp h
  exact raisesAt_pure a

/-- Over the record of the file, if there is one, the vector comes to one that can be written. -/
def ReceivePushedFiles.Storable (uc : ReceivePushedFiles) (builtins : Builtins) (s : LooseState)
    (relativePath : String) (vector : Option PyDict) : Prop :=
  ∀ existing ∈ value? (uc.metadataRepo.getFileMetadata relativePath s.receiver.metadata),
    (uc.storedVector? builtins vector (existing.map (s.recordedVector relativePath))).isSome

theorem raisesAt_finalizeLoose (hserves : uc.metadataRepo.Serves) (builtins : Builtins)
    (clock : Clock) {relativePath : String} (destination : FilePath) (pending : PendingFile)
    {vector : Option PyDict} (h : uc.Storable builtins s relativePath vector) :
    RaisesAt (fun e ↦ e.isCaught = true)
      (uc.finalizeLoose builtins clock relativePath destination pending vector) s := by
  unfold ReceivePushedFiles.finalizeLoose
  refine RaisesAt.bind (raisesAt_onReceiver (onStorage_raises _ _)) fun _ s₁ hfirst ↦ ?_
  obtain ⟨st₁, hcommit, rfl⟩ := zoom_eq_ok.mp hfirst
  obtain ⟨storage, -, rfl⟩ := zoom_eq_ok.mp hcommit
  refine RaisesAt.bind (raisesAt_onReceiver (raisesOnly_modify _ _)) fun _ s₂ hsecond ↦ ?_
  obtain ⟨st₂, herase, rfl⟩ := zoom_eq_ok.mp hsecond
  cases herase
  refine RaisesAt.bind (raisesAt_onReceiver (onMetadata_raises (hserves.get _) _))
    fun existing s₃ hthird ↦ ?_
  obtain ⟨st₃, hread, rfl⟩ := zoom_eq_ok.mp hthird
  obtain ⟨metadata, hget, rfl⟩ := zoom_eq_ok.mp hread
  refine RaisesAt.bind (raisesOnly_get _) fun s' s₄ hs' ↦ ?_
  cases hs'
  refine RaisesAt.bind (raisesAt_comparable (h existing (value?_eq_some.mpr ⟨_, hget⟩)))
    fun stored s₅ hstored ↦ ?_
  refine RaisesAt.bind (raisesAt_onReceiver (onMetadata_raises (hserves.save _) _)) fun _ s₆ _ ↦ ?_
  exact raisesOnly_modify _ _

/-- The vectors merge, and if the push is the last one of its file, they can be written. -/
def ReceivePushedFiles.Merges (uc : ReceivePushedFiles) (builtins : Builtins) (s : LooseState)
    (push : PushMessage) : Prop :=
  ∃ vector ∈ mergedVector? (s.pendingVector push.relativePath) push.sentVector,
    push.totalChunks ≤ (insert push.chunk.metadata.index
        (s.receiver.receivedIndices push.relativePath)).card →
      uc.Storable builtins s push.relativePath vector

instance (builtins : Builtins) (relativePath : String) (vector : Option PyDict) :
    Decidable (uc.Storable builtins s relativePath vector) :=
  inferInstanceAs (Decidable (∀ existing ∈ _, _))

instance (builtins : Builtins) (push : PushMessage) : Decidable (uc.Merges builtins s push) :=
  inferInstanceAs (Decidable (∃ vector ∈ _, _ → _))

theorem raisesAt_handleLoose (hserves : uc.metadataRepo.Serves) (builtins : Builtins)
    (clock : Clock) (push : PushMessage) {chunk : Chunk}
    (hchunk : chunk.metadata = push.chunk.metadata)
    (h : (∃ destination,
        resolveWithin uc.resolver uc.syncRoot push.relativePath = .ok destination) →
      uc.validate ⟨push.relativePath, push.totalChunks, chunk, none⟩ = .ok () →
      uc.HasRoom s.receiver push.relativePath → uc.Merges builtins s push) :
    RaisesAt (fun e ↦ e.isCaught = true) (uc.handleLoose builtins clock push chunk) s := by
  unfold ReceivePushedFiles.handleLoose
  refine RaisesAt.bind (raisesOnly_get _) fun s₀ s₁ hget ↦ ?_
  cases hget
  refine RaisesAt.bind (raisesAt_onReceiver (storeChunk_raises _ _ _)) fun result s₂ hfirst ↦ ?_
  obtain ⟨destination, pending⟩ := result
  obtain ⟨st, hstore, rfl⟩ := zoom_eq_ok.mp hfirst
  obtain ⟨hpath, hvalid, hroom, hindices, hmetadata⟩ := storeChunk_ok hstore
  obtain ⟨vector, hmerge, hstorable⟩ := h ⟨destination, hpath⟩ hvalid hroom
  rw [Option.mem_def.mp hmerge]
  refine RaisesAt.bind (raisesAt_pure _) fun vector' s₃ hpure ↦ ?_
  cases hpure
  refine RaisesAt.bind (raisesOnly_modify _ _) fun _ s₄ hset ↦ ?_
  cases hset
  split_ifs with hcomplete
  · apply raisesAt_finalizeLoose hserves
    rw [hindices, hchunk] at hcomplete
    have hstored := hstorable hcomplete
    unfold ReceivePushedFiles.Storable at hstored ⊢
    rw [← hmetadata] at hstored
    exact hstored
  · exact raisesAt_pure _

theorem completed_dropping {action : LooseM Unit}
    (h : RaisesAt (fun e ↦ e.isCaught = true) action s) : Completed (dropping action s) := by
  unfold dropping
  cases hrun : action s with
  | ok u s' => trivial
  | error e s' =>
      have hcaught := h e s' hrun
      dsimp only at hcaught ⊢
      rw [if_pos hcaught]
      trivial

end Caught
end SecureSync
