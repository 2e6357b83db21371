import SecureSync.Receiver.Journal
import SecureSync.Properties.OrphanFiles

/-!
# The bounds of the receiver's bookkeeping

The number of open files and the length of each hold in every run.  The number
of received indices is bounded because an entry is closed when it is full, and
closing it takes a commit that does not fail.
-/

namespace SecureSync

open Machines Raising

/-! ## Within a push -/

/-- The states within a push. -/
def ReceiverSettings.midway (settings : ReceiverSettings) (run : ReceiverRun)
    (input : Services × ReceiverInput) : List ReceiverState :=
  match run.stopped, input.2 with
  | false, .event (.push clock incoming) =>
      [stateOf ((settings.under input.1).receiveChunk clock incoming run.state),
        stateOf ((settings.under input.1).handlePush clock incoming run.state)]
  | _, _ => []

/-- All states that the receiver passes through, also between two events. -/
def ReceiverSettings.passed (settings : ReceiverSettings) :
    ReceiverRun → List (Services × ReceiverInput) → List ReceiverState
  | run, [] => [run.state]
  | run, input :: inputs =>
      run.state :: settings.midway run input ++ settings.passed (settings.advance run input) inputs

theorem forall_mem_passed_iff {settings : ReceiverSettings} {P : ReceiverState → Prop}
    {run : ReceiverRun} {inputs : List (Services × ReceiverInput)} :
    (∀ st ∈ settings.passed run inputs, P st) ↔ P run.state ∧
      Meets settings.advance (fun run input ↦ (∀ st ∈ settings.midway run input, P st) ∧
        P (settings.advance run input).state) run inputs := by
  induction inputs generalizing run with
  | nil => simp [ReceiverSettings.passed, Meets]
  | cons input inputs ih =>
      rw [ReceiverSettings.passed, List.cons_append, List.forall_mem_cons, List.forall_mem_append,
        ih, Meets, and_assoc]

/-! ## Files within the limit -/

/-- What the receiver may read: its partial files, and the files that they replace. -/
inductive ReceiverSettings.Owns (settings : ReceiverSettings) : Path → Prop
  | part (part : PartPath) : settings.Owns (.part part)
  | file {name : String} {destination : FilePath}
      (h : resolveWithin settings.resolver settings.syncRoot name = .ok destination) :
      settings.Owns (.file destination)

def ReceiverSettings.FilesWithin (settings : ReceiverSettings) (s : Storage) : Prop :=
  ∀ path, settings.Owns path → ∀ bytes, s.files path = some bytes →
    bytes.length ≤ settings.limits.maxFileSize

theorem length_writeAt_le (old : Bytes) (piece : Overlay.Piece UInt8) :
    (Overlay.writeAt 0 old piece).length ≤ max old.length (piece.offset + piece.data.length) := by
  unfold Overlay.writeAt
  split_ifs
  · exact le_max_left _ _
  · simp only [List.length_append, List.length_take, List.length_replicate, List.length_drop]
    omega

section Files

variable {settings : ReceiverSettings} {os : Os} {destination : FilePath} {part : PartPath}
  {s s' : Storage}

theorem ReceiverSettings.FilesWithin.length_getD (h : settings.FilesWithin s) {path : Path}
    (hpath : settings.Owns path) :
    ((s.files path).getD []).length ≤ settings.limits.maxFileSize := by
  cases hfile : s.files path with
  | none => exact Nat.zero_le _
  | some bytes => exact h path hpath bytes hfile

/-- A file that comes or changes is within the limit. -/
theorem ReceiverSettings.FilesWithin.update (h : settings.FilesWithin s) (path : Path)
    {bytes : Bytes} (hfiles : s'.files = Function.update s.files path (some bytes))
    (hlength : bytes.length ≤ settings.limits.maxFileSize) : settings.FilesWithin s' := by
  intro other hother bytes' hbytes'
  rw [hfiles] at hbytes'
  by_cases heq : other = path
  · rw [heq, Function.update_self] at hbytes'
    rwa [← Option.some.inj hbytes']
  · rw [Function.update_of_ne heq] at hbytes'
    exact h other hother bytes' hbytes'

theorem ReceiverSettings.FilesWithin.unlink (h : settings.FilesWithin s) (part : PartPath) :
    settings.FilesWithin (s.unlink part) := by
  intro other hother bytes hbytes
  by_cases heq : other = .part part
  · have hgone : (s.unlink part).files (.part part) = none := Function.update_self ..
    rw [heq, hgone] at hbytes
    cases hbytes
  · rw [Storage.files_unlink_of_ne _ _ heq] at hbytes
    exact h other hother bytes hbytes

theorem ReceiverSettings.FilesWithin.write (h : settings.FilesWithin s) (part : PartPath)
    {chunk : Chunk}
    (hchunk : chunk.metadata.offset + chunk.data.length ≤ settings.limits.maxFileSize) :
    settings.FilesWithin (s.writeChunkAtOffset (.part part) chunk) := by
  apply h.update (.part part) rfl
  apply (length_writeAt_le _ _).trans
  exact max_le (h.length_getD (.part part)) hchunk

theorem ReceiverSettings.FilesWithin.replace (h : settings.FilesWithin s) {bytes : Bytes}
    (hpart : s.files (.part part) = some bytes) :
    settings.FilesWithin (s.replace part destination bytes) := by
  have hunlinked := h.unlink part
  exact hunlinked.update (.file destination) rfl (h _ (.part part) bytes hpart)

/-- What keeps the files within the limit. -/
def ReceiverSettings.KeepsFiles (settings : ReceiverSettings) (s t : Storage) : Prop :=
  settings.FilesWithin s → settings.FilesWithin t

theorem keepsFiles_refl (s : Storage) : settings.KeepsFiles s s := id

theorem keepsFiles_trans (s t u : Storage) (h : settings.KeepsFiles s t)
    (h' : settings.KeepsFiles t u) : settings.KeepsFiles s u :=
  fun hs ↦ h' (h hs)

theorem keepsFiles_beginPartial (os : Os) {name : String}
    (h : resolveWithin settings.resolver settings.syncRoot name = .ok destination) :
    Advances settings.KeepsFiles (os.beginPartial destination) := by
  apply Advances.adaptExcept
  apply Advances.bind keepsFiles_trans
  · apply Os.advances_createPartial keepsFiles_refl keepsFiles_trans
    · exact fun _ _ _ _ hs ↦ hs
    · exact fun s hs ↦ hs.update _ rfl (Nat.zero_le _)
  · intro part
    apply Advances.bind keepsFiles_trans
    · apply Os.advances_seedPartial keepsFiles_refl keepsFiles_trans
      exact fun s hs ↦ hs.update _ rfl (hs.length_getD (.file h))
    · exact fun _ ↦ keepsFiles_refl

theorem keepsFiles_writeChunkAtOffset (part : PartPath) {chunk : Chunk}
    (hchunk : chunk.metadata.offset + chunk.data.length ≤ settings.limits.maxFileSize) :
    Advances settings.KeepsFiles (os.writeChunkAtOffset (.part part) chunk) := by
  apply Advances.adaptExcept
  apply Os.advances_writeAll_cut keepsFiles_refl keepsFiles_trans
  · exact fun _ _ _ _ hs ↦ hs
  · intro s count hs
    apply hs.write
    have hcut : (chunk.cut count).data.length ≤ chunk.data.length := List.length_take_le' _ _
    exact (Nat.add_le_add_left hcut _).trans hchunk
  · exact fun s hs ↦ hs.write part hchunk

end Files

/-! ## One push -/

section Push

variable {settings : ReceiverSettings} {services : Services} {st : ReceiverState} {clock : Clock}
  {incoming : IncomingPush} {destination : FilePath} {p : PendingFile} {s s' : Storage}

theorem length_of_validate (h : settings.validate incoming = .ok ()) :
    incoming.chunk.metadata.offset + incoming.chunk.data.length ≤ settings.limits.maxFileSize ∧
      1 ≤ incoming.totalChunks ∧ incoming.totalChunks ≤ settings.limits.maxTotalChunks := by
  unfold ReceiverSettings.validate at h
  rw [incoming.chunk.length_eq]
  dsimp only at h
  split_ifs at h with hbelow habove hsize hfile
  exact ⟨Nat.not_lt.mp hfile, not_lt.mp hbelow, not_lt.mp habove⟩

theorem countsChunk_of_receiveChunk {r : FilePath × PendingFile} {st' : ReceiverState}
    (h : (settings.under services).receiveChunk clock incoming st = .ok r st') :
    (settings.under services).countsChunk clock incoming st = true := by
  obtain ⟨destination, t, hpath, h⟩ := bind_eq_ok.mp h
  obtain ⟨hresolve, rfl⟩ := orRaise_eq_ok.mp hpath
  obtain ⟨u, t, hchecked, h⟩ := bind_eq_ok.mp h
  obtain ⟨hvalid, rfl⟩ := orRaise_eq_ok.mp hchecked
  obtain ⟨p, t, hopen, h⟩ := bind_eq_ok.mp h
  obtain ⟨v, t', hset, h⟩ := bind_eq_ok.mp h
  obtain ⟨-, rfl⟩ := EStateM.Result.ok.inj hset
  obtain ⟨w, t', hstored, -⟩ := bind_eq_ok.mp h
  obtain ⟨s, hwrite, -⟩ := zoom_eq_ok.mp hstored
  have hwrite : (settings.under services).fileReconstructor.writeChunkAtOffset (.part p.partPath)
      incoming.chunk t.storage = .ok w s := hwrite
  unfold ReceivePushedFiles.countsChunk
  rw [hresolve, hvalid]
  dsimp only
  rw [hopen]
  dsimp only
  rw [hwrite]

/-- Either the chunk is counted, or the push has failed before. -/
theorem stateOf_receiveChunk (settings : ReceiverSettings) (services : Services) (clock : Clock)
    (incoming : IncomingPush) (st : ReceiverState) :
    (∃ destination p s s', settings.Admits st incoming destination ∧
      EntryOpen services.os st clock incoming.relativePath destination p s ∧
      services.os.writeChunkAtOffset (.part p.partPath) incoming.chunk s = .ok () s' ∧
      stateOf ((settings.under services).receiveChunk clock incoming st) =
        st.countedIn clock incoming p s') ∨
    stateOf ((settings.under services).receiveChunk clock incoming st) =
      stateOf ((settings.under services).handlePush clock incoming st) := by
  cases hrun : (settings.under services).receiveChunk clock incoming st with
  | ok r st' =>
      left
      obtain ⟨destination, p, s, s', hadmits, hentry, hwrite⟩ :=
        exists_of_countsChunk (countsChunk_of_receiveChunk hrun)
      refine ⟨destination, p, s, s', hadmits, hentry, hwrite, ?_⟩
      rw [← hrun, receiveChunk_of_write hadmits hentry hwrite]
      rfl
  | error e st' =>
      right
      rw [handlePush_eq, bind_run, hrun]
      rfl

/-! ## What always holds -/

/-- The table is sound and no file is too long. -/
structure ReceiverSettings.Regular (settings : ReceiverSettings) (st : ReceiverState) : Prop where
  tracks : settings.Tracks st
  files : settings.FilesWithin st.storage

theorem EntryOpen.filesWithin (h : settings.FilesWithin st.storage)
    (hadmits : settings.Admits st incoming destination)
    (hentry : EntryOpen services.os st clock incoming.relativePath destination p s) :
    settings.FilesWithin s := by
  cases hentry with
  | known => exact h
  | begun hnew hbegin =>
      have hkeeps := keepsFiles_beginPartial services.os hadmits.1 st.storage
      rw [hbegin] at hkeeps
      exact hkeeps h

theorem EntryOpen.filesWithin_write {result : EStateM.Result ChunkEngineError Storage Unit}
    (h : settings.FilesWithin st.storage) (hadmits : settings.Admits st incoming destination)
    (hentry : EntryOpen services.os st clock incoming.relativePath destination p s)
    (hwrite : services.os.writeChunkAtOffset (.part p.partPath) incoming.chunk s = result) :
    settings.FilesWithin (stateOf result) := by
  rw [← hwrite]
  apply keepsFiles_writeChunkAtOffset p.partPath (length_of_validate hadmits.2.1).1
  exact hentry.filesWithin h hadmits

theorem ReceiverSettings.Regular.countedIn (h : settings.Regular st)
    (hadmits : settings.Admits st incoming destination)
    (hentry : EntryOpen services.os st clock incoming.relativePath destination p s)
    (hwrite : services.os.writeChunkAtOffset (.part p.partPath) incoming.chunk s = .ok () s') :
    settings.Regular (st.countedIn clock incoming p s') where
  tracks := hentry.tracks h.tracks hadmits.2.2 rfl (EntryOpen.touches_write hwrite)
  files := hentry.filesWithin_write h.files hadmits hwrite

theorem PushEffect.regular {result : EStateM.Result PushError ReceiverState Unit}
    (h : settings.Regular st)
    (heffect : PushEffect settings services.os clock incoming st result) :
    settings.Regular (stateOf result) := by
  refine ⟨heffect.tracks h.tracks, ?_⟩
  cases heffect with
  | refused => exact h.files
  | notBegun hopens hbegin =>
      have hkeeps := keepsFiles_beginPartial services.os hopens.1.1 st.storage
      rw [hbegin] at hkeeps
      exact hkeeps h.files
  | notWritten hadmits hentry hwrite | held hadmits hentry hwrite =>
      exact hentry.filesWithin_write h.files hadmits hwrite
  | notCommitted hadmits hentry hwrite hcommit =>
      rw [Os.commitPartial_eq_error hcommit]
      exact hentry.filesWithin_write h.files hadmits hwrite
  | committed hadmits hentry hwrite hcommit hstorage =>
      obtain ⟨bytes, hpart, rfl⟩ := Os.rename_eq_ok (adaptExcept_eq_ok.mp hcommit)
      rw [hstorage]
      exact (hentry.filesWithin_write h.files hadmits hwrite).replace hpart

theorem ReceiverSettings.FilesWithin.abortPartial (h : settings.FilesWithin s) (os : Os)
    (part : PartPath) : settings.FilesWithin (os.abortPartial part s) := by
  unfold Os.abortPartial
  split_ifs
  · exact h
  · exact h.unlink part

theorem filesWithin_abortPending (services : Services) (name : String)
    (h : settings.FilesWithin st.storage) :
    settings.FilesWithin ((settings.under services).abortPending name st).storage := by
  unfold ReceivePushedFiles.abortPending
  cases st.pending.lookup name with
  | none => exact h
  | some p => exact h.abortPartial services.os p.partPath

theorem filesWithin_foldl_abortPending (services : Services) (names : List String)
    (h : settings.FilesWithin st.storage) :
    settings.FilesWithin (names.foldl (fun st name ↦ (settings.under services).abortPending name
      st) st).storage := by
  induction names generalizing st with
  | nil => exact h
  | cons name names ih => exact ih (filesWithin_abortPending services name h)

theorem filesWithin_abortAllPartials (services : Services) (h : settings.FilesWithin st.storage) :
    settings.FilesWithin ((settings.under services).abortAllPartials st).storage := by
  unfold ReceivePushedFiles.abortAllPartials
  dsimp only
  generalize st.storage = storage at h
  induction st.pending.entries generalizing storage with
  | nil => exact h
  | cons entry entries ih => exact ih _ (h.abortPartial services.os entry.2.partPath)

theorem ReceiverSettings.Regular.handleEvent (h : settings.Regular st) (services : Services)
    (event : ReceiverEvent) :
    settings.Regular (stateOf ((settings.under services).handleEvent event st)) := by
  cases event with
  | sweep now =>
      exact ⟨h.tracks.handleEvent services _, filesWithin_foldl_abortPending services _ h.files⟩
  | push clock incoming =>
      rw [handleEvent_push]
      exact (handlePush_under settings services clock incoming st).regular h

theorem ReceiverSettings.Regular.abortAllPartials (h : settings.Regular st)
    (services : Services) : settings.Regular ((settings.under services).abortAllPartials st) :=
  ⟨h.tracks.abortAllPartials services, filesWithin_abortAllPartials services h.files⟩

theorem ReceiverSettings.Regular.advance {run : ReceiverRun} (h : settings.Regular run.state)
    (input : Services × ReceiverInput) : settings.Regular (settings.advance run input).state :=
  advance_rule settings h (fun _ hst ↦ hst.abortAllPartials input.1)
    fun event _ _ ↦ h.handleEvent input.1 event

theorem ReceiverSettings.Regular.midway {run : ReceiverRun} (h : settings.Regular run.state)
    (input : Services × ReceiverInput) : ∀ st ∈ settings.midway run input, settings.Regular st := by
  obtain ⟨st, stopped⟩ := run
  obtain ⟨services, input⟩ := input
  intro mid hmid
  unfold ReceiverSettings.midway at hmid
  split at hmid
  case h_2 => cases hmid
  case h_1 clock incoming hrunning hinput =>
    obtain rfl : input = .event (.push clock incoming) := hinput
    have hpushed := (handlePush_under settings services clock incoming st).regular h
    rcases List.mem_pair.mp hmid with rfl | rfl
    · rcases stateOf_receiveChunk settings services clock incoming st with
        ⟨destination, p, s, s', hadmits, hentry, hwrite, hstate⟩ | hstate
      · rw [hstate]
        exact h.countedIn hadmits hentry hwrite
      · rw [hstate]
        exact hpushed
    · exact hpushed

/-! ## Full entries -/

def ReceiverSettings.IndicesWithin (settings : ReceiverSettings) (st : ReceiverState) : Prop :=
  ∀ name p, st.pending.lookup name = some p →
    p.receivedIndices.card ≤ settings.limits.maxTotalChunks

/-- What the limits promise. -/
structure ReceiverSettings.Bounded (settings : ReceiverSettings) (st : ReceiverState) : Prop where
  pending : st.pending.keys.length ≤ settings.limits.maxPendingFiles
  indices : settings.IndicesWithin st
  length : ∀ part bytes, st.storage.files (.part part) = some bytes →
    bytes.length ≤ settings.limits.maxFileSize

theorem ReceiverSettings.Regular.bounded_iff (h : settings.Regular st) :
    settings.Bounded st ↔ settings.IndicesWithin st :=
  ⟨fun hbounded ↦ hbounded.indices,
    fun hindices ↦ ⟨h.tracks.length_le, hindices, fun part ↦ h.files _ (.part part)⟩⟩

/-- The entry is full, and the chunk has an index that it does not have. -/
def ReceiverSettings.Full (settings : ReceiverSettings) (p : PendingFile)
    (incoming : IncomingPush) : Prop :=
  settings.limits.maxTotalChunks ≤ p.receivedIndices.card ∧
    incoming.chunk.metadata.index ∉ p.receivedIndices

/-- The push finds its entry full, and its chunk is written all the same. -/
def ReceiverSettings.Overfills (settings : ReceiverSettings) (run : ReceiverRun)
    (input : Services × ReceiverInput) : Prop :=
  match run.stopped, input.2 with
  | false, .event (.push _ incoming) =>
      ∃ destination p s, settings.Admits run.state incoming destination ∧
        run.state.pending.lookup incoming.relativePath = some p ∧ settings.Full p incoming ∧
          input.1.os.writeChunkAtOffset (.part p.partPath) incoming.chunk run.state.storage =
            .ok () s
  | _, _ => False

theorem ReceiverSettings.IndicesWithin.of_lookup {st' : ReceiverState}
    (h : settings.IndicesWithin st)
    (hlookup : ∀ name p, st'.pending.lookup name = some p → st.pending.lookup name = some p) :
    settings.IndicesWithin st' :=
  fun name p hp ↦ h name p (hlookup name p hp)

theorem ReceiverSettings.IndicesWithin.insert (h : settings.IndicesWithin st)
    (hp : p.receivedIndices.card ≤ settings.limits.maxTotalChunks) (s : Storage) (name : String) :
    settings.IndicesWithin ⟨s, st.metadata, st.pending.insert name p⟩ := by
  intro other q hq
  rcases lookup_insert_cases hq with ⟨-, rfl⟩ | ⟨-, hq⟩
  · exact hp
  · exact h other q hq

theorem EntryOpen.card_le (h : settings.IndicesWithin st)
    (hentry : EntryOpen services.os st clock incoming.relativePath destination p s) :
    p.receivedIndices.card ≤ settings.limits.maxTotalChunks := by
  cases hentry with
  | known hp => exact h _ p hp
  | begun => exact Nat.zero_le _

theorem card_counted_le_iff (hp : p.receivedIndices.card ≤ settings.limits.maxTotalChunks) :
    (p.counted clock incoming).receivedIndices.card ≤ settings.limits.maxTotalChunks ↔
      ¬ settings.Full p incoming := by
  unfold ReceiverSettings.Full PendingFile.counted
  dsimp only
  by_cases hmem : incoming.chunk.metadata.index ∈ p.receivedIndices
  · rw [Finset.insert_eq_of_mem hmem]
    exact iff_of_true hp fun hfull ↦ hfull.2 hmem
  · rw [Finset.card_insert_of_notMem hmem, and_iff_left hmem]
    omega

/-- A new entry is never full. -/
theorem EntryOpen.known_of_full (hadmits : settings.Admits st incoming destination)
    (hentry : EntryOpen services.os st clock incoming.relativePath destination p s)
    (hfull : settings.Full p incoming) :
    st.pending.lookup incoming.relativePath = some p ∧ s = st.storage := by
  cases hentry with
  | known hp => exact ⟨hp, rfl⟩
  | begun =>
      obtain ⟨-, hone, hmany⟩ := length_of_validate hadmits.2.1
      have hnone : settings.limits.maxTotalChunks ≤ 0 := hfull.1
      omega

theorem not_full_of_not_overfills
    (hnot : ¬ settings.Overfills ⟨st, false⟩ (services, .event (.push clock incoming)))
    (hadmits : settings.Admits st incoming destination)
    (hentry : EntryOpen services.os st clock incoming.relativePath destination p s)
    (hwrite : services.os.writeChunkAtOffset (.part p.partPath) incoming.chunk s = .ok () s') :
    ¬ settings.Full p incoming := by
  intro hfull
  obtain ⟨hp, rfl⟩ := hentry.known_of_full hadmits hfull
  exact hnot ⟨destination, p, s', hadmits, hp, hfull, hwrite⟩

theorem ReceiverSettings.IndicesWithin.countedIn (h : settings.IndicesWithin st)
    (hentry : EntryOpen services.os st clock incoming.relativePath destination p s)
    (hfull : ¬ settings.Full p incoming) (s' : Storage) :
    settings.IndicesWithin (st.countedIn clock incoming p s') :=
  h.insert ((card_counted_le_iff (hentry.card_le h)).mpr hfull) s' _

theorem PushEffect.indicesWithin {result : EStateM.Result PushError ReceiverState Unit}
    (h : settings.IndicesWithin st)
    (hnot : ¬ settings.Overfills ⟨st, false⟩ (services, .event (.push clock incoming)))
    (heffect : PushEffect settings services.os clock incoming st result) :
    settings.IndicesWithin (stateOf result) := by
  cases heffect with
  | refused => exact h
  | notBegun => exact h
  | @notWritten _ p s s' e hadmits hentry =>
      have hcard := hentry.card_le h
      exact h.insert (p := { p with lastActivity := clock.monotonic }) hcard s' _
  | held hadmits hentry hwrite | notCommitted hadmits hentry hwrite =>
      exact h.countedIn hentry (not_full_of_not_overfills hnot hadmits hentry hwrite) _
  | committed hadmits hentry hwrite hcommit hstorage hpending =>
      apply h.of_lookup
      intro name q hq
      rw [hpending] at hq
      exact exists_lookup_of_erase hq

/-! ## Runs -/

theorem indicesWithin_midway (h : settings.IndicesWithin st)
    (hnot : ¬ settings.Overfills ⟨st, false⟩ (services, .event (.push clock incoming))) :
    settings.IndicesWithin
        (stateOf ((settings.under services).receiveChunk clock incoming st)) ∧
      settings.IndicesWithin
        (stateOf ((settings.under services).handlePush clock incoming st)) := by
  have hpushed := (handlePush_under settings services clock incoming st).indicesWithin h hnot
  refine ⟨?_, hpushed⟩
  rcases stateOf_receiveChunk settings services clock incoming st with
    ⟨destination, p, s, s', hadmits, hentry, hwrite, hstate⟩ | hstate
  · rw [hstate]
    exact h.countedIn hentry (not_full_of_not_overfills hnot hadmits hentry hwrite) s'
  · rw [hstate]
    exact hpushed

theorem not_overfills_of_indicesWithin (h : settings.IndicesWithin st)
    (hcounted : settings.IndicesWithin
      (stateOf ((settings.under services).receiveChunk clock incoming st))) :
    ¬ settings.Overfills ⟨st, false⟩ (services, .event (.push clock incoming)) := by
  rintro ⟨destination, p, s, hadmits, hp, hfull, hwrite⟩
  have hentry : EntryOpen services.os st clock incoming.relativePath destination p st.storage :=
    .known hp
  rw [receiveChunk_of_write hadmits hentry hwrite] at hcounted
  have hcard := hcounted incoming.relativePath (p.counted clock incoming) (AList.lookup_insert _)
  exact (card_counted_le_iff (h _ p hp)).mp hcard hfull

theorem ReceiverSettings.IndicesWithin.advance {run : ReceiverRun}
    {input : Services × ReceiverInput} (h : settings.IndicesWithin run.state)
    (hnot : ¬ settings.Overfills run input) :
    settings.IndicesWithin (settings.advance run input).state := by
  obtain ⟨st, stopped⟩ := run
  obtain ⟨services, input⟩ := input
  apply advance_rule settings h
  · intro st' _ name p hp
    cases hp
  · rintro event rfl rfl
    cases event with
    | sweep now => exact h.of_lookup (lookup_foldl_abortPending settings services _ st)
    | push clock incoming =>
        rw [handleEvent_push]
        exact (indicesWithin_midway h hnot).2

theorem indicesWithin_advance {run : ReceiverRun} (h : settings.IndicesWithin run.state)
    (input : Services × ReceiverInput) :
    ((∀ st ∈ settings.midway run input, settings.IndicesWithin st) ∧
      settings.IndicesWithin (settings.advance run input).state) ↔
        ¬ settings.Overfills run input := by
  constructor
  · rintro ⟨hmidway, -⟩ hoverfills
    obtain ⟨st, stopped⟩ := run
    obtain ⟨services, input⟩ := input
    -- only a push that is handled overfills
    match stopped, input with
    | false, .event (.push clock incoming) =>
        exact not_overfills_of_indicesWithin h (hmidway _ List.mem_cons_self) hoverfills
    | false, .event (.sweep now) | false, .cancel | true, _ => exact hoverfills
  · intro hnot
    refine ⟨fun mid hmid ↦ ?_, h.advance hnot⟩
    obtain ⟨st, stopped⟩ := run
    obtain ⟨services, input⟩ := input
    match stopped, input with
    | false, .event (.push clock incoming) =>
        obtain ⟨hcounted, hpushed⟩ := indicesWithin_midway h hnot
        rcases List.mem_pair.mp hmid with rfl | rfl
        · exact hcounted
        · exact hpushed
    | false, .event (.sweep now) | false, .cancel | true, _ => cases hmid

end Push

/-- A receiver with an empty table and these files. -/
def ReceiverRun.start (files : FilePath → Option Bytes) (metadata : MetadataStore) : ReceiverRun :=
  ⟨⟨.ofFiles files, metadata, ∅⟩, false⟩

theorem regular_start (settings : ReceiverSettings) (files : FilePath → Option Bytes)
    (metadata : MetadataStore)
    (hfiles : ∀ name destination,
      resolveWithin settings.resolver settings.syncRoot name = .ok destination →
        ∀ bytes ∈ files destination, bytes.length ≤ settings.limits.maxFileSize) :
    settings.Regular (ReceiverRun.start files metadata).state where
  tracks := settings.tracks_start files metadata
  files := by
    intro path hpath bytes hbytes
    cases hpath with
    | part part => cases hbytes
    | file h => exact hfiles _ _ h bytes hbytes

theorem regular_passed {settings : ReceiverSettings} {run : ReceiverRun}
    (h : settings.Regular run.state) (inputs : List (Services × ReceiverInput)) :
    ∀ st ∈ settings.passed run inputs, settings.Regular st := by
  induction inputs generalizing run with
  | nil => exact List.forall_mem_singleton.mpr h
  | cons input inputs ih =>
      refine List.forall_mem_append.mpr ⟨List.forall_mem_cons.mpr ⟨h, h.midway input⟩, ?_⟩
      exact ih (h.advance input)

/-! ### Where every commit succeeds -/

/-- No `commit_partial` of this event raises. -/
def ReceiverSettings.Commits (settings : ReceiverSettings) (run : ReceiverRun)
    (input : Services × ReceiverInput) : Prop :=
  match run.stopped, input.2 with
  | false, .event (.push clock incoming) =>
      ∀ destination p s s', settings.Admits run.state incoming destination →
        EntryOpen input.1.os run.state clock incoming.relativePath destination p s →
        input.1.os.writeChunkAtOffset (.part p.partPath) incoming.chunk s = .ok () s' →
        incoming.totalChunks ≤ (p.counted clock incoming).receivedIndices.card →
          ∃ s'', input.1.os.commitPartial destination p.partPath s' = .ok () s''
  | _, _ => True

def ReceiverSettings.HasGaps (settings : ReceiverSettings) (st : ReceiverState) : Prop :=
  ∀ name p, st.pending.lookup name = some p →
    p.receivedIndices.card < settings.limits.maxTotalChunks

section Commits

variable {settings : ReceiverSettings} {services : Services} {st : ReceiverState} {clock : Clock}
  {incoming : IncomingPush}

theorem ReceiverSettings.HasGaps.of_lookup {st' : ReceiverState} (h : settings.HasGaps st)
    (hlookup : ∀ name p, st'.pending.lookup name = some p → st.pending.lookup name = some p) :
    settings.HasGaps st' :=
  fun name p hp ↦ h name p (hlookup name p hp)

theorem ReceiverSettings.HasGaps.insert {p : PendingFile} (h : settings.HasGaps st)
    (hp : p.receivedIndices.card < settings.limits.maxTotalChunks) (s : Storage) (name : String) :
    settings.HasGaps ⟨s, st.metadata, st.pending.insert name p⟩ := by
  intro other q hq
  rcases lookup_insert_cases hq with ⟨-, rfl⟩ | ⟨-, hq⟩
  · exact hp
  · exact h other q hq

theorem EntryOpen.card_lt {destination : FilePath} {p : PendingFile} {s : Storage}
    (h : settings.HasGaps st) (hadmits : settings.Admits st incoming destination)
    (hentry : EntryOpen services.os st clock incoming.relativePath destination p s) :
    p.receivedIndices.card < settings.limits.maxTotalChunks := by
  cases hentry with
  | known hp => exact h _ p hp
  | begun =>
      obtain ⟨-, hone, hmany⟩ := length_of_validate hadmits.2.1
      rw [Finset.card_empty]
      omega

/-- The entry that becomes full is committed at once. -/
theorem hasGaps_handlePush (h : settings.HasGaps st)
    (hcommits : settings.Commits ⟨st, false⟩ (services, .event (.push clock incoming))) :
    settings.HasGaps (stateOf ((settings.under services).handlePush clock incoming st)) := by
  by_cases hcounts : (settings.under services).countsChunk clock incoming st = true
  · obtain ⟨destination, p, s, s', hadmits, hentry, hwrite⟩ := exists_of_countsChunk hcounts
    rw [handlePush_of_write settings services clock hadmits hentry hwrite]
    split_ifs with hdone
    · obtain ⟨s'', hcommit⟩ := hcommits destination p s s' hadmits hentry hwrite hdone
      have hclosed := (finalize_of_commit settings services clock incoming.relativePath
        (p.counted clock incoming) (st.countedIn clock incoming p s') hcommit).2
      apply h.of_lookup
      intro name q hq
      rw [ReceiverState.countedIn] at hclosed
      rw [hclosed, erase_insert_self] at hq
      exact exists_lookup_of_erase hq
    · obtain ⟨-, -, hmany⟩ := length_of_validate hadmits.2.1
      apply h.insert
      omega
  · have heffect := handlePush_under settings services clock incoming st
    generalize (settings.under services).handlePush clock incoming st = result at heffect ⊢
    cases heffect with
    | refused | notBegun => exact h
    | @notWritten _ p s s' e hadmits hentry =>
        have hcard := hentry.card_lt h hadmits
        exact h.insert (p := { p with lastActivity := clock.monotonic }) hcard s' _
    | held hadmits hentry hwrite | notCommitted hadmits hentry hwrite
    | committed hadmits hentry hwrite =>
        exact absurd (countsChunk_of_write hadmits hentry hwrite) hcounts

theorem hasGaps_advance {run : ReceiverRun} {input : Services × ReceiverInput}
    (h : settings.HasGaps run.state) (hcommits : settings.Commits run input) :
    settings.HasGaps (settings.advance run input).state := by
  obtain ⟨st, stopped⟩ := run
  obtain ⟨services, input⟩ := input
  apply advance_rule settings h
  · intro st' _ name p hp
    cases hp
  · rintro event rfl rfl
    cases event with
    | sweep now => exact h.of_lookup (lookup_foldl_abortPending settings services _ st)
    | push clock incoming =>
        rw [handleEvent_push]
        exact hasGaps_handlePush h hcommits

theorem ReceiverSettings.HasGaps.not_overfills {run : ReceiverRun}
    (h : settings.HasGaps run.state) (input : Services × ReceiverInput) :
    ¬ settings.Overfills run input := by
  unfold ReceiverSettings.Overfills
  split
  · rintro ⟨destination, p, s, -, hp, hfull, -⟩
    exact absurd hfull.1 (Nat.not_le.mpr (h _ p hp))
  · exact id

/-- Only a commit that fails leaves an entry full. -/
theorem not_overfilled_of_commits {run : ReceiverRun} {inputs : List (Services × ReceiverInput)}
    (h : settings.HasGaps run.state)
    (hcommits : Meets settings.advance settings.Commits run inputs) :
    Meets settings.advance (fun run input ↦ ¬ settings.Overfills run input) run inputs := by
  have hboth : Meets settings.advance
      (fun run input ↦ settings.Commits run input ∧ ¬ settings.Overfills run input) run inputs := by
    refine (meets_congr_of_met (P := fun run ↦ settings.HasGaps run.state) ?_ ?_ h).mp hcommits
    · exact fun _ _ ↦ hasGaps_advance
    · exact fun _ input hgaps ↦ (and_iff_left (hgaps.not_overfills input)).symm
  exact (meets_and.mp hboth).2

end Commits

/-! ### Every state -/

section Passed

variable (settings : ReceiverSettings) (files : FilePath → Option Bytes) (metadata : MetadataStore)
  (inputs : List (Services × ReceiverInput))

theorem forall_bounded_iff
    (hregular : ∀ st ∈ settings.passed (.start files metadata) inputs, settings.Regular st) :
    (∀ st ∈ settings.passed (.start files metadata) inputs, settings.Bounded st) ↔
      Meets settings.advance (fun run input ↦ ¬ settings.Overfills run input)
        (.start files metadata) inputs := by
  have hindices : (∀ st ∈ settings.passed (.start files metadata) inputs, settings.Bounded st) ↔
      ∀ st ∈ settings.passed (.start files metadata) inputs, settings.IndicesWithin st :=
    forall₂_congr fun st hst ↦ (hregular st hst).bounded_iff
  have hnone : settings.IndicesWithin (ReceiverRun.start files metadata).state := by
    intro name p hp
    cases hp
  rw [hindices, forall_mem_passed_iff, and_iff_right hnone]
  apply meets_congr_of_met (P := fun run ↦ settings.IndicesWithin run.state)
    (fun _ _ _ h ↦ h.2) _ hnone
  exact fun run input h ↦ indicesWithin_advance h input

/-- Where every commit succeeds, the limits are kept in every state. -/
theorem bounded_of_commits
    (hfiles : ∀ name destination,
      resolveWithin settings.resolver settings.syncRoot name = .ok destination →
        ∀ bytes ∈ files destination, bytes.length ≤ settings.limits.maxFileSize)
    (hcommits : Meets settings.advance settings.Commits (.start files metadata) inputs) :
    ∀ st ∈ settings.passed (.start files metadata) inputs, settings.Bounded st := by
  have hregular := regular_passed (regular_start settings files metadata hfiles) inputs
  have hgaps : settings.HasGaps (ReceiverRun.start files metadata).state := by
    intro name p hp
    cases hp
  exact (forall_bounded_iff settings files metadata inputs hregular).mpr
    (not_overfilled_of_commits hgaps hcommits)

/-- Whatever the sender declares and whichever operations fail: the table and the partial
files keep within their limits in every state, and the received indices do in exactly the
runs in which no chunk with a new index is written for an entry that is full. -/
theorem bounded_iff_not_overfilled
    (hfiles : ∀ name destination,
      resolveWithin settings.resolver settings.syncRoot name = .ok destination →
        ∀ bytes ∈ files destination, bytes.length ≤ settings.limits.maxFileSize) :
    let passed := settings.passed (.start files metadata) inputs
    (∀ st ∈ passed, st.pending.keys.length ≤ settings.limits.maxPendingFiles ∧
      ∀ part, ∀ bytes ∈ st.storage.files (.part part),
        bytes.length ≤ settings.limits.maxFileSize) ∧
    ((∀ st ∈ passed, settings.Bounded st) ↔
      Meets settings.advance (fun run input ↦ ¬ settings.Overfills run input)
        (.start files metadata) inputs) := by
  intro passed
  have hregular : ∀ st ∈ passed, settings.Regular st :=
    regular_passed (regular_start settings files metadata hfiles) inputs
  refine ⟨fun st hst ↦ ?_, forall_bounded_iff settings files metadata inputs hregular⟩
  exact ⟨(hregular st hst).tracks.length_le, fun part ↦ (hregular st hst).files _ (.part part)⟩

end Passed

def narrowReceiver : ReceiverSettings := { sampleReceiver with limits := { maxTotalChunks := 1 } }

/-- The second chunk of a file that has been declared to be one chunk. -/
def secondPush : IncomingPush :=
  { samplePushOf2 none with
    chunk := (cutChunk sampleReader samplePath ⟨[], [], 1, 1⟩ [2]).withHash digestOf2 }

def sampleFiles : FilePath → Option Bytes := fun path ↦ if path = samplePath then some [1] else none

/-- A device that has the file, and a push that replaces it. -/
theorem bounded_iff_not_overfilled_sample :
    narrowReceiver.Bounded (narrowReceiver.advance (.start sampleFiles fun _ ↦ none)
      (freeServices, .event (.push ⟨0, 0⟩ (samplePushOf2 none)))).state := by
  have hshort : ∀ name destination,
      resolveWithin narrowReceiver.resolver narrowReceiver.syncRoot name = .ok destination →
        ∀ bytes ∈ sampleFiles destination,
          bytes.length ≤ narrowReceiver.limits.maxFileSize := by
    intro name destination _ bytes hbytes
    unfold sampleFiles at hbytes
    split_ifs at hbytes
    · obtain rfl : [1] = bytes := Option.some.inj hbytes
      decide
    · cases hbytes
  have hgaps : narrowReceiver.HasGaps (ReceiverRun.start sampleFiles fun _ ↦ none).state := by
    intro name p hp
    cases hp
  refine (bounded_iff_not_overfilled narrowReceiver sampleFiles (fun _ ↦ none)
    [(freeServices, .event (.push ⟨0, 0⟩ (samplePushOf2 none)))] hshort).2.mpr ?_ _ ?_
  · exact ⟨hgaps.not_overfills _, trivial⟩
  · exact List.mem_append_right _ (List.mem_singleton_self _)

def stuckPushes : List (Services × ReceiverInput) :=
  [(stuckServices, .event (.push ⟨0, 0⟩ (samplePushOf2 none))),
    (stuckServices, .event (.push ⟨1, 1⟩ secondPush))]

/-- With a limit of one index, two pushes whose commits fail leave an entry with two. -/
theorem not_bounded_of_stuck :
    let left := (stuckPushes.foldl narrowReceiver.advance receiverStart).state
    (left.pending.lookup "a.txt").map PendingFile.receivedIndices = some {0, 1} ∧
      ¬ ∀ st ∈ narrowReceiver.passed receiverStart stuckPushes, narrowReceiver.Bounded st := by
  intro left
  have hleft : (left.pending.lookup "a.txt").map PendingFile.receivedIndices = some {0, 1} := by
    decide +kernel
  refine ⟨hleft, fun hbounded ↦ ?_⟩
  obtain ⟨p, hp, hindices⟩ := Option.map_eq_some_iff.mp hleft
  have hlast : left ∈ narrowReceiver.passed receiverStart stuckPushes :=
    List.mem_append_right _ (List.mem_append_right _ (List.mem_singleton_self _))
  have hcard := (hbounded _ hlast).indices "a.txt" p hp
  rw [hindices] at hcard
  exact absurd hcard (by decide)

end SecureSync
