import SecureSync.Infrastructure.OperatingSystem
import SecureSync.Receiver.Assembly

/-!
# The receiver on a disk that fails

What one push does to the partial files and to the pending table, whichever of
its calls raises.
-/

namespace SecureSync

open Raising

/-- What the receiver calls while it handles one event. -/
structure Services where
  os : Os
  metadataRepo : MetadataRepository

def ReceiverSettings.under (settings : ReceiverSettings) (services : Services) :
    ReceivePushedFiles :=
  { settings with
    fileReconstructor := services.os.fileReconstructor
    metadataRepo := services.metadataRepo }

/-! ## Runs -/

/-- `cancel`: the task of `run_forever` is cancelled. -/
inductive ReceiverInput where
  | event (event : ReceiverEvent)
  | cancel

structure ReceiverRun where
  state : ReceiverState
  stopped : Bool

/-- One event, each with the answers that its calls get.  An error that is not
caught ends the loop as a cancellation does. -/
def ReceiverSettings.advance (settings : ReceiverSettings) (run : ReceiverRun)
    (input : Services × ReceiverInput) : ReceiverRun :=
  if run.stopped then run
  else
    match input.2 with
    | .cancel => ⟨(settings.under input.1).abortAllPartials run.state, true⟩
    | .event event =>
        match (settings.under input.1).handleEvent event run.state with
        | .ok _ st => ⟨st, false⟩
        | .error _ st => ⟨(settings.under input.1).abortAllPartials st, true⟩

theorem handleEvent_push (uc : ReceivePushedFiles) (clock : Clock) (incoming : IncomingPush)
    (st : ReceiverState) :
    stateOf (uc.handleEvent (.push clock incoming) st) =
      stateOf (uc.handlePush clock incoming st) := by
  unfold ReceivePushedFiles.handleEvent
  dsimp only
  cases uc.handlePush clock incoming st with
  | ok u st' => rfl
  | error e st' =>
      dsimp only
      split_ifs <;> rfl

/-- The loop goes on from what the event has left, or cleans up and stops. -/
theorem advance_event (settings : ReceiverSettings) (services : Services) (run : ReceiverRun)
    (event : ReceiverEvent) (hrunning : run.stopped = false) :
    (settings.advance run (services, .event event)).state =
        stateOf ((settings.under services).handleEvent event run.state) ∨
      (settings.advance run (services, .event event)).state =
        (settings.under services).abortAllPartials
          (stateOf ((settings.under services).handleEvent event run.state)) := by
  unfold ReceiverSettings.advance
  rw [hrunning, if_neg Bool.false_ne_true]
  dsimp only
  cases (settings.under services).handleEvent event run.state with
  | ok u st' => exact .inl rfl
  | error e st' => exact .inr rfl

/-- What the cleaning keeps and every event establishes holds after a step. -/
theorem advance_rule (settings : ReceiverSettings) {P : ReceiverState → Prop} {run : ReceiverRun}
    {input : Services × ReceiverInput} (h : P run.state)
    (hclean : ∀ st, P st → P ((settings.under input.1).abortAllPartials st))
    (hevent : ∀ event, run.stopped = false → input.2 = .event event →
      P (stateOf ((settings.under input.1).handleEvent event run.state))) :
    P (settings.advance run input).state := by
  obtain ⟨st, stopped⟩ := run
  obtain ⟨services, input⟩ := input
  cases stopped with
  | true => exact h
  | false =>
      cases input with
      | cancel => exact hclean st h
      | event event =>
          have hleft := hevent event rfl rfl
          rcases advance_event settings services ⟨st, false⟩ event rfl with hstate | hstate
          · rwa [hstate]
          · rw [hstate]
            exact hclean _ hleft

/-! ## One push -/

def ReceiverSettings.Opens (settings : ReceiverSettings) (st : ReceiverState)
    (incoming : IncomingPush) (destination : FilePath) : Prop :=
  settings.Admits st incoming destination ∧ incoming.relativePath ∉ st.pending

/-- The entry that a chunk is written through, and the disk once it is open. -/
inductive EntryOpen (os : Os) (st : ReceiverState) (clock : Clock) (name : String)
    (destination : FilePath) : PendingFile → Storage → Prop
  | known {p : PendingFile} (h : st.pending.lookup name = some p) :
      EntryOpen os st clock name destination p st.storage
  | begun {part : PartPath} {s : Storage} (hnew : name ∉ st.pending)
      (h : os.beginPartial destination st.storage = .ok part s) :
      EntryOpen os st clock name destination { partPath := part, lastActivity := clock.monotonic } s

/-- How a push ends.  The metadata store counts only once the file is committed. -/
inductive PushEffect (settings : ReceiverSettings) (os : Os) (clock : Clock)
    (incoming : IncomingPush) (st : ReceiverState) :
    EStateM.Result PushError ReceiverState Unit → Prop
  | refused {e : PushError} (h : ∀ destination, ¬ settings.Admits st incoming destination)
      (hcaught : e.isCaught = true) : PushEffect settings os clock incoming st (.error e st)
  | notBegun {destination : FilePath} {e : ChunkEngineError} {s : Storage}
      (hopens : settings.Opens st incoming destination)
      (hbegin : os.beginPartial destination st.storage = .error e s) :
      PushEffect settings os clock incoming st (.error (.chunkEngine e) { st with storage := s })
  | notWritten {destination : FilePath} {p : PendingFile} {s s' : Storage} {e : ChunkEngineError}
      (hadmits : settings.Admits st incoming destination)
      (hentry : EntryOpen os st clock incoming.relativePath destination p s)
      (hwrite : os.writeChunkAtOffset (.part p.partPath) incoming.chunk s = .error e s') :
      PushEffect settings os clock incoming st (.error (.chunkEngine e)
        { st with
          storage := s'
          pending := st.pending.insert incoming.relativePath
            { p with lastActivity := clock.monotonic } })
  | held {destination : FilePath} {p : PendingFile} {s s' : Storage}
      (hadmits : settings.Admits st incoming destination)
      (hentry : EntryOpen os st clock incoming.relativePath destination p s)
      (hwrite : os.writeChunkAtOffset (.part p.partPath) incoming.chunk s = .ok () s') :
      PushEffect settings os clock incoming st (.ok ()
        { st with
          storage := s'
          pending := st.pending.insert incoming.relativePath (p.counted clock incoming) })
  | notCommitted {destination : FilePath} {p : PendingFile} {s s' s'' : Storage}
      {e : ChunkEngineError} (hadmits : settings.Admits st incoming destination)
      (hentry : EntryOpen os st clock incoming.relativePath destination p s)
      (hwrite : os.writeChunkAtOffset (.part p.partPath) incoming.chunk s = .ok () s')
      (hcommit : os.commitPartial destination p.partPath s' = .error e s'') :
      PushEffect settings os clock incoming st (.error (.chunkEngine e)
        { st with
          storage := s''
          pending := st.pending.insert incoming.relativePath (p.counted clock incoming) })
  | committed {destination : FilePath} {p : PendingFile} {s s' s'' : Storage}
      {result : EStateM.Result PushError ReceiverState Unit}
      (hadmits : settings.Admits st incoming destination)
      (hentry : EntryOpen os st clock incoming.relativePath destination p s)
      (hwrite : os.writeChunkAtOffset (.part p.partPath) incoming.chunk s = .ok () s')
      (hcommit : os.commitPartial destination p.partPath s' = .ok () s'')
      (hstorage : (stateOf result).storage = s'')
      (hpending : (stateOf result).pending = st.pending.erase incoming.relativePath) :
      PushEffect settings os clock incoming st result

section Push

variable {α : Type} {action : EStateM ChunkEngineError Storage α} {st : ReceiverState}

theorem onStorage_of_ok {a : α} {s : Storage} (h : action st.storage = .ok a s) :
    onStorage action st = .ok a { st with storage := s } := by
  simp only [onStorage, zoom, h]

theorem onStorage_of_error {e : ChunkEngineError} {s : Storage}
    (h : action st.storage = .error e s) :
    onStorage action st = .error (.chunkEngine e) { st with storage := s } := by
  simp only [onStorage, zoom, h]

theorem erase_insert_self (pending : AList fun _ : String ↦ PendingFile) (name : String)
    (p : PendingFile) : (pending.insert name p).erase name = pending.erase name := by
  apply AList.ext
  exact List.kerase_cons_eq rfl

variable {settings : ReceiverSettings} {incoming : IncomingPush} {destination : FilePath}

/-- An entry is open for the name, or its partial file could not be begun. -/
theorem openPending_under (services : Services) (clock : Clock)
    (h : settings.Admits st incoming destination) :
    (∃ p s st₁, EntryOpen services.os st clock incoming.relativePath destination p s ∧
      (settings.under services).openPending clock incoming.relativePath destination st =
          .ok p st₁ ∧
        ∀ q, setPending incoming.relativePath q st₁ = .ok ()
          { st with storage := s, pending := st.pending.insert incoming.relativePath q }) ∨
      ∃ e s, settings.Opens st incoming destination ∧
        services.os.beginPartial destination st.storage = .error e s ∧
          (settings.under services).openPending clock incoming.relativePath destination st =
            .error (.chunkEngine e) { st with storage := s } := by
  unfold ReceivePushedFiles.openPending
  simp only [bind_run, get_run]
  cases hlookup : st.pending.lookup incoming.relativePath with
  | some p => exact .inl ⟨p, st.storage, st, .known hlookup, rfl, fun q ↦ rfl⟩
  | none =>
      have hnew := AList.lookup_eq_none.mp hlookup
      have hroom : ¬ (settings.under services).limits.maxPendingFiles ≤ st.pending.keys.length :=
        Nat.not_le_of_lt (h.2.2.resolve_left hnew)
      dsimp only
      rw [if_neg hroom, bind_run]
      cases hbegin : services.os.beginPartial destination st.storage with
      | error e s =>
          refine .inr ⟨e, s, ⟨h, hnew⟩, rfl, ?_⟩
          have hrun : onStorage ((settings.under services).fileReconstructor.beginPartial
              destination) st = .error (.chunkEngine e) { st with storage := s } :=
            onStorage_of_error hbegin
          rw [hrun]
      | ok part s =>
          have hrun : onStorage ((settings.under services).fileReconstructor.beginPartial
              destination) st = .ok part { st with storage := s } :=
            onStorage_of_ok hbegin
          rw [hrun]
          refine .inl ⟨_, s, _, .begun hnew hbegin, rfl, fun q ↦ ?_⟩
          simp only [setPending_run, AList.insert_insert]

/-- The entry depends on the state and on the answers of the disk alone. -/
theorem EntryOpen.unique {os : Os} {clock : Clock} {name : String} {p p' : PendingFile}
    {s s' : Storage} (h : EntryOpen os st clock name destination p s)
    (h' : EntryOpen os st clock name destination p' s') : p = p' ∧ s = s' := by
  cases h with
  | known h =>
      cases h' with
      | known h' => exact ⟨Option.some.inj (h.symm.trans h'), rfl⟩
      | begun hnew => exact absurd (AList.lookup_isSome.mp (Option.isSome_of_mem h)) hnew
  | begun hnew h =>
      cases h' with
      | known h' => exact absurd (AList.lookup_isSome.mp (Option.isSome_of_mem h')) hnew
      | begun _ h' =>
          obtain ⟨rfl, rfl⟩ := EStateM.Result.ok.inj (h.symm.trans h')
          exact ⟨rfl, rfl⟩

theorem EntryOpen.not_fails {os : Os} {clock : Clock} {name : String} {p : PendingFile}
    {s s' : Storage} {e : ChunkEngineError} (h : EntryOpen os st clock name destination p s)
    (hnew : name ∉ st.pending) (hbegin : os.beginPartial destination st.storage = .error e s') :
    False := by
  cases h with
  | known h => exact hnew (AList.lookup_isSome.mp (Option.isSome_of_mem h))
  | begun _ h => cases h.symm.trans hbegin

theorem openPending_of_entry (services : Services) {clock : Clock} {p : PendingFile} {s : Storage}
    (h : settings.Admits st incoming destination)
    (hentry : EntryOpen services.os st clock incoming.relativePath destination p s) :
    ∃ st₁, (settings.under services).openPending clock incoming.relativePath destination st =
        .ok p st₁ ∧
      ∀ q, setPending incoming.relativePath q st₁ = .ok ()
        { st with storage := s, pending := st.pending.insert incoming.relativePath q } := by
  rcases openPending_under services clock h with
    ⟨p', s', st₁, hentry', hopen, hset⟩ | ⟨e, s', hopens, hbegin, -⟩
  · obtain ⟨rfl, rfl⟩ := hentry.unique hentry'
    exact ⟨st₁, hopen, hset⟩
  · exact (hentry.not_fails hopens.2 hbegin).elim

theorem keeps_onMetadata {β : Type} (action : EStateM MetadataError MetadataStore β) :
    Keeps (fun st : ReceiverState ↦ (st.storage, st.pending)) (onMetadata action) :=
  keeps_zoom fun _ _ ↦ rfl

/-- Once the file is renamed, the rest only concerns its record. -/
theorem finalize_of_commit (settings : ReceiverSettings) (services : Services) (clock : Clock)
    (name : String) (p : PendingFile) (st : ReceiverState) {s : Storage}
    (h : services.os.commitPartial destination p.partPath st.storage = .ok () s) :
    (stateOf ((settings.under services).finalize clock name destination p st)).storage = s ∧
      (stateOf ((settings.under services).finalize clock name destination p st)).pending =
        st.pending.erase name := by
  have hrun : onStorage ((settings.under services).fileReconstructor.commitPartial destination
      p.partPath) st = .ok () { st with storage := s } :=
    onStorage_of_ok h
  unfold ReceivePushedFiles.finalize
  rw [bind_run, hrun]
  exact Prod.mk.inj (Keeps.bind
    (keeps_onMetadata ((settings.under services).metadataRepo.getFileMetadata name))
    (fun _ ↦ keeps_onMetadata ((settings.under services).metadataRepo.saveFileMetadata _))
    { st with storage := s, pending := st.pending.erase name })

theorem finalize_of_not_commit (settings : ReceiverSettings) (services : Services) (clock : Clock)
    (name : String) (p : PendingFile) (st : ReceiverState) {e : ChunkEngineError} {s : Storage}
    (h : services.os.commitPartial destination p.partPath st.storage = .error e s) :
    (settings.under services).finalize clock name destination p st =
      .error (.chunkEngine e) { st with storage := s } := by
  have hrun : onStorage ((settings.under services).fileReconstructor.commitPartial destination
      p.partPath) st = .error (.chunkEngine e) { st with storage := s } :=
    onStorage_of_error h
  unfold ReceivePushedFiles.finalize
  rw [bind_run, hrun]

/-- `_handle_push` up to `received_indices.add`, or to its first error.  Nothing that
it keeps gets smaller until then. -/
def ReceivePushedFiles.receiveChunk (uc : ReceivePushedFiles) (clock : Clock)
    (incoming : IncomingPush) : HandleM (FilePath × PendingFile) := do
  let destination ← orRaise .unsafePath
    (resolveWithin uc.resolver uc.syncRoot incoming.relativePath)
  orRaise .rejected (uc.validate incoming)
  let pending ← uc.openPending clock incoming.relativePath destination
  let pending := { pending with lastActivity := clock.monotonic }
  setPending incoming.relativePath pending
  onStorage (uc.fileReconstructor.writeChunkAtOffset (.part pending.partPath) incoming.chunk)
  let pending := { pending with
    receivedIndices := insert incoming.chunk.metadata.index pending.receivedIndices
    versionVector := pending.mergedVersion incoming }
  setPending incoming.relativePath pending
  return (destination, pending)

theorem handlePush_eq (uc : ReceivePushedFiles) (clock : Clock) (incoming : IncomingPush) :
    uc.handlePush clock incoming = (do
      let (destination, pending) ← uc.receiveChunk clock incoming
      if incoming.totalChunks ≤ pending.receivedIndices.card then
        uc.finalize clock incoming.relativePath destination pending) := by
  unfold ReceivePushedFiles.handlePush ReceivePushedFiles.receiveChunk
  simp only [bind_assoc, pure_bind]

/-- The state in which `received_indices` has its new index. -/
def ReceiverState.countedIn (st : ReceiverState) (clock : Clock) (incoming : IncomingPush)
    (p : PendingFile) (s : Storage) : ReceiverState :=
  { st with
    storage := s
    pending := st.pending.insert incoming.relativePath (p.counted clock incoming) }

theorem receiveChunk_of_write {services : Services} {clock : Clock} {p : PendingFile}
    {s s' : Storage} (hadmits : settings.Admits st incoming destination)
    (hentry : EntryOpen services.os st clock incoming.relativePath destination p s)
    (hwrite : services.os.writeChunkAtOffset (.part p.partPath) incoming.chunk s = .ok () s') :
    (settings.under services).receiveChunk clock incoming st =
      .ok (destination, p.counted clock incoming) (st.countedIn clock incoming p s') := by
  have hresolve : resolveWithin (settings.under services).resolver
      (settings.under services).syncRoot incoming.relativePath = .ok destination := hadmits.1
  have hvalid : (settings.under services).validate incoming = .ok () := hadmits.2.1
  obtain ⟨st₁, hopen, hset⟩ := openPending_of_entry services hadmits hentry
  have hrun : ∀ st' : ReceiverState, st'.storage = s →
      onStorage ((settings.under services).fileReconstructor.writeChunkAtOffset
        (.part p.partPath) incoming.chunk) st' = .ok () { st' with storage := s' } := by
    rintro st' rfl
    exact onStorage_of_ok hwrite
  unfold ReceivePushedFiles.receiveChunk
  rw [hresolve, hvalid]
  simp only [orRaise, bind_run, pure_run, hopen, hset, hrun, setPending_run, AList.insert_insert]
  rfl

/-- A chunk that is written is counted, and then the file may be complete. -/
theorem handlePush_of_write (settings : ReceiverSettings) (services : Services) (clock : Clock)
    {p : PendingFile} {s s' : Storage} (hadmits : settings.Admits st incoming destination)
    (hentry : EntryOpen services.os st clock incoming.relativePath destination p s)
    (hwrite : services.os.writeChunkAtOffset (.part p.partPath) incoming.chunk s = .ok () s') :
    (settings.under services).handlePush clock incoming st =
      if incoming.totalChunks ≤ (p.counted clock incoming).receivedIndices.card then
        (settings.under services).finalize clock incoming.relativePath destination
          (p.counted clock incoming) { st with
            storage := s'
            pending := st.pending.insert incoming.relativePath (p.counted clock incoming) }
      else .ok () { st with
        storage := s'
        pending := st.pending.insert incoming.relativePath (p.counted clock incoming) } := by
  rw [handlePush_eq, bind_run, receiveChunk_of_write hadmits hentry hwrite]
  dsimp only
  split_ifs
  · rfl
  · rfl

theorem handlePush_under (settings : ReceiverSettings) (services : Services) (clock : Clock)
    (incoming : IncomingPush) (st : ReceiverState) :
    PushEffect settings services.os clock incoming st
      ((settings.under services).handlePush clock incoming st) := by
  by_cases hadmits : ∃ destination, settings.Admits st incoming destination
  · obtain ⟨destination, hadmits⟩ := hadmits
    have hresolve : resolveWithin (settings.under services).resolver
        (settings.under services).syncRoot incoming.relativePath = .ok destination := hadmits.1
    have hvalid : (settings.under services).validate incoming = .ok () := hadmits.2.1
    rcases openPending_under services clock hadmits with
      ⟨p, s, st₁, hentry, hopen, hset⟩ | ⟨e, s, hopens, hbegin, hopen⟩
    · cases hwrite : services.os.writeChunkAtOffset (.part p.partPath) incoming.chunk s with
      | error e s' =>
          have hrun : ∀ st' : ReceiverState, st'.storage = s →
              onStorage ((settings.under services).fileReconstructor.writeChunkAtOffset
                (.part p.partPath) incoming.chunk) st' =
                  .error (.chunkEngine e) { st' with storage := s' } := by
            rintro st' rfl
            exact onStorage_of_error hwrite
          unfold ReceivePushedFiles.handlePush
          rw [hresolve, hvalid]
          simp only [orRaise, bind_run, pure_run, hopen, hset, hrun]
          exact .notWritten hadmits hentry hwrite
      | ok u s' =>
          rw [handlePush_of_write settings services clock hadmits hentry hwrite]
          split_ifs with hdone
          · cases hcommit : services.os.commitPartial destination p.partPath s' with
            | error e s'' =>
                have hfinal := finalize_of_not_commit settings services clock
                  incoming.relativePath (p.counted clock incoming)
                  ⟨s', st.metadata, st.pending.insert incoming.relativePath
                    (p.counted clock incoming)⟩ hcommit
                have heffect : PushEffect settings services.os clock incoming st _ :=
                  .notCommitted hadmits hentry hwrite hcommit
                rwa [← hfinal] at heffect
            | ok u s'' =>
                have hfinal := finalize_of_commit settings services clock incoming.relativePath
                  (p.counted clock incoming)
                  ⟨s', st.metadata, st.pending.insert incoming.relativePath
                    (p.counted clock incoming)⟩ hcommit
                rw [erase_insert_self] at hfinal
                exact .committed hadmits hentry hwrite hcommit hfinal.1 hfinal.2
          · exact .held hadmits hentry hwrite
    · unfold ReceivePushedFiles.handlePush
      rw [hresolve, hvalid]
      simp only [orRaise, bind_run, pure_run, hopen]
      exact .notBegun hopens hbegin
  · have hrefused : ∀ destination, ¬ settings.Admits st incoming destination := by
      simpa using hadmits
    obtain ⟨e, hcaught, hrun⟩ := handlePush_of_not_admits (settings.under services) clock hrefused
    rw [hrun]
    exact .refused hrefused hcaught

end Push

/-! ## Runs for examples -/

/-- This directory, those above it and those that have been made; nothing raises. -/
def treeOs (directory : FilePath) : Os where
  isDirectory s path := path <+: directory ∨ .mkdir path ∈ s.journal
  raises _ := false
  written _ _ := 0

def receiverStart : ReceiverRun := ⟨⟨.ofFiles fun _ ↦ none, fun _ ↦ none, ∅⟩, false⟩

end SecureSync
