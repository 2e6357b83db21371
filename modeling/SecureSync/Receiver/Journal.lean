import SecureSync.Receiver.PartialFiles

/-!
# What a pending entry has counted

Beside a run goes a journal of the pushes whose chunks the open entries have
counted.  An entry is exactly what these pushes make of it, also where a commit
has failed and the entry has outlived it.
-/

namespace SecureSync

open Raising

/-- `_handle_push` gets as far as `received_indices.add`. -/
def ReceivePushedFiles.countsChunk (uc : ReceivePushedFiles) (clock : Clock)
    (incoming : IncomingPush) (st : ReceiverState) : Bool :=
  match resolveWithin uc.resolver uc.syncRoot incoming.relativePath, uc.validate incoming with
  | .ok destination, .ok _ =>
      match uc.openPending clock incoming.relativePath destination st with
      | .ok pending st' =>
          match uc.fileReconstructor.writeChunkAtOffset (.part pending.partPath) incoming.chunk
              st'.storage with
          | .ok _ _ => true
          | .error _ _ => false
      | .error _ _ => false
  | _, _ => false

abbrev PushJournal := String → List IncomingPush

/-- What the open entry of a name has counted; a new entry starts with nothing. -/
def ReceiverState.countedBefore (st : ReceiverState) (journal : PushJournal) (name : String) :
    List IncomingPush :=
  if name ∈ st.pending then journal name else []

def ReceiverSettings.countedBy (settings : ReceiverSettings) (services : Services) (clock : Clock)
    (incoming : IncomingPush) (st : ReceiverState) (journal : PushJournal) : List IncomingPush :=
  st.countedBefore journal incoming.relativePath ++
    if (settings.under services).countsChunk clock incoming st then [incoming] else []

structure JournaledRun where
  run : ReceiverRun
  journal : PushJournal

def ReceiverSettings.record (settings : ReceiverSettings) (j : JournaledRun)
    (input : Services × ReceiverInput) : JournaledRun where
  run := settings.advance j.run input
  journal :=
    match j.run.stopped, input.2 with
    | false, .event (.push clock incoming) =>
        Function.update j.journal incoming.relativePath
          (settings.countedBy input.1 clock incoming j.run.state j.journal)
    | _, _ => j.journal

/-- The use case as it is built, with an empty table, and then these inputs. -/
def ReceiverSettings.journaled (settings : ReceiverSettings) (storage : Storage)
    (metadata : MetadataStore) (inputs : List (Services × ReceiverInput)) : JournaledRun :=
  inputs.foldl settings.record ⟨⟨⟨storage, metadata, ∅⟩, false⟩, fun _ ↦ []⟩

theorem run_foldl_record (settings : ReceiverSettings) (j : JournaledRun)
    (inputs : List (Services × ReceiverInput)) :
    (inputs.foldl settings.record j).run = inputs.foldl settings.advance j.run := by
  induction inputs generalizing j with
  | nil => rfl
  | cons input inputs ih => exact ih (settings.record j input)

section

variable {settings : ReceiverSettings} {services : Services} {st : ReceiverState} {clock : Clock}
  {incoming : IncomingPush} {destination : FilePath} {p : PendingFile} {s s' : Storage}

theorem countsChunk_of_write (hadmits : settings.Admits st incoming destination)
    (hentry : EntryOpen services.os st clock incoming.relativePath destination p s)
    (hwrite : services.os.writeChunkAtOffset (.part p.partPath) incoming.chunk s = .ok () s') :
    (settings.under services).countsChunk clock incoming st = true := by
  have hresolve : resolveWithin (settings.under services).resolver
      (settings.under services).syncRoot incoming.relativePath = .ok destination := hadmits.1
  have hvalid : (settings.under services).validate incoming = .ok () := hadmits.2.1
  obtain ⟨st₁, hopen, hset⟩ := openPending_of_entry services hadmits hentry
  have hstorage : st₁.storage = s :=
    congrArg (fun result ↦ (stateOf result).storage) (hset p)
  have hrun : (settings.under services).fileReconstructor.writeChunkAtOffset (.part p.partPath)
      incoming.chunk st₁.storage = .ok () s' := by
    rw [hstorage]
    exact hwrite
  simp only [ReceivePushedFiles.countsChunk, hresolve, hvalid, hopen, hrun]

theorem exists_of_countsChunk
    (h : (settings.under services).countsChunk clock incoming st = true) :
    ∃ destination p s s', settings.Admits st incoming destination ∧
      EntryOpen services.os st clock incoming.relativePath destination p s ∧
        services.os.writeChunkAtOffset (.part p.partPath) incoming.chunk s = .ok () s' := by
  unfold ReceivePushedFiles.countsChunk at h
  split at h
  case h_2 => cases h
  case h_1 destination u hresolve hvalid =>
    have hadmits : settings.Admits st incoming destination := by
      refine ⟨hresolve, hvalid, ?_⟩
      by_contra hroom
      obtain ⟨hnew, hfull⟩ := not_or.mp hroom
      rw [openPending_full (settings.under services) clock destination hnew
        (Nat.not_lt.mp hfull)] at h
      cases h
    rcases openPending_under services clock hadmits with
      ⟨p, s, st₁, hentry, hopen, hset⟩ | ⟨e, s, -, -, hopen⟩
    · have hstorage : st₁.storage = s :=
        congrArg (fun result ↦ (stateOf result).storage) (hset p)
      rw [hopen] at h
      dsimp only at h
      rw [hstorage] at h
      cases hwrite : services.os.writeChunkAtOffset (.part p.partPath) incoming.chunk s with
      | ok u s' => exact ⟨destination, p, s, s', hadmits, hentry, hwrite⟩
      | error e s' =>
          have hrun : (settings.under services).fileReconstructor.writeChunkAtOffset
              (.part p.partPath) incoming.chunk s = .error e s' := hwrite
          rw [hrun] at h
          cases h
    · rw [hopen] at h
      cases h

/-! ## Entries and their journal -/

def indicesOf (counted : List IncomingPush) : Finset ℕ :=
  (counted.map fun incoming ↦ incoming.chunk.metadata.index).toFinset

def mergeSent (known : Option VersionVector) (incoming : IncomingPush) : Option VersionVector :=
  match incoming.versionVector, known with
  | none, known => known
  | some sent, none => some sent
  | some sent, some known => some (known.merge sent)

def mergedVersions (counted : List IncomingPush) : Option VersionVector :=
  counted.foldl mergeSent none

theorem mergedVersions_append (counted : List IncomingPush) (incoming : IncomingPush) :
    mergedVersions (counted ++ [incoming]) = mergeSent (mergedVersions counted) incoming := by
  rw [mergedVersions, List.foldl_append]
  rfl

theorem indicesOf_append (counted : List IncomingPush) (incoming : IncomingPush) :
    indicesOf (counted ++ [incoming]) =
      insert incoming.chunk.metadata.index (indicesOf counted) := by
  ext n
  simp [indicesOf]

/-- The entry holds what these pushes have brought. -/
structure PendingFile.MadeOf (p : PendingFile) (counted : List IncomingPush) : Prop where
  indices : p.receivedIndices = indicesOf counted
  version : p.versionVector = mergedVersions counted

theorem PendingFile.MadeOf.counted {counted : List IncomingPush} (h : p.MadeOf counted)
    (clock : Clock) (incoming : IncomingPush) :
    (p.counted clock incoming).MadeOf (counted ++ [incoming]) where
  indices := by
    rw [indicesOf_append, ← h.indices]
    rfl
  version := by
    rw [mergedVersions_append, ← h.version]
    rfl

/-- Every entry is made of the pushes in its journal, which came under its name. -/
structure ReceiverState.Journaled (st : ReceiverState) (journal : PushJournal) : Prop where
  entry : ∀ name p, st.pending.lookup name = some p → p.MadeOf (journal name)
  name : ∀ name, ∀ incoming ∈ journal name, incoming.relativePath = name

variable {journal : PushJournal}

theorem ReceiverState.Journaled.countedBefore (h : st.Journaled journal)
    (hentry : EntryOpen services.os st clock incoming.relativePath destination p s) :
    p.MadeOf (st.countedBefore journal incoming.relativePath) := by
  cases hentry with
  | known hp =>
      rw [ReceiverState.countedBefore, if_pos (AList.lookup_isSome.mp (Option.isSome_of_mem hp))]
      exact h.entry _ p hp
  | begun hnew =>
      rw [ReceiverState.countedBefore, if_neg hnew]
      exact ⟨rfl, rfl⟩

theorem ReceiverState.Journaled.name_countedBy (h : st.Journaled journal)
    (settings : ReceiverSettings) (services : Services) (clock : Clock) (incoming : IncomingPush) :
    ∀ counted ∈ settings.countedBy services clock incoming st journal,
      counted.relativePath = incoming.relativePath := by
  intro counted hmem
  rcases List.mem_append.mp hmem with hmem | hmem
  · rw [ReceiverState.countedBefore] at hmem
    split_ifs at hmem with hpending
    · exact h.name _ counted hmem
    · cases hmem
  · split_ifs at hmem
    · rw [List.mem_singleton.mp hmem]
    · cases hmem

/-- The table changes at one name at most. -/
theorem ReceiverState.Journaled.update {st' : ReceiverState} (h : st.Journaled journal)
    {name : String} {counted : List IncomingPush}
    (hothers : ∀ other p, other ≠ name → st'.pending.lookup other = some p →
      st.pending.lookup other = some p)
    (hself : ∀ p, st'.pending.lookup name = some p → p.MadeOf counted)
    (hname : ∀ incoming ∈ counted, incoming.relativePath = name) :
    st'.Journaled (Function.update journal name counted) where
  entry other p hp := by
    by_cases hother : other = name
    · subst hother
      rw [Function.update_self]
      exact hself p hp
    · rw [Function.update_of_ne hother]
      exact h.entry other p (hothers other p hother hp)
  name other incoming hmem := by
    by_cases hother : other = name
    · subst hother
      rw [Function.update_self] at hmem
      exact hname incoming hmem
    · rw [Function.update_of_ne hother] at hmem
      exact h.name other incoming hmem

theorem ReceiverState.Journaled.of_lookup {st' : ReceiverState} (h : st.Journaled journal)
    (hlookup : ∀ name p, st'.pending.lookup name = some p → st.pending.lookup name = some p) :
    st'.Journaled journal where
  entry name p hp := h.entry name p (hlookup name p hp)
  name := h.name

/-! ### Pushes that count nothing -/

theorem countsChunk_of_refused
    (hrefused : ∀ destination, ¬ settings.Admits st incoming destination) :
    (settings.under services).countsChunk clock incoming st = false := by
  rw [← Bool.not_eq_true]
  intro htrue
  obtain ⟨destination, -, -, -, hadmits, -⟩ := exists_of_countsChunk htrue
  exact hrefused destination hadmits

theorem countsChunk_of_notBegun {destination : FilePath} {error : ChunkEngineError} {s : Storage}
    (hopens : settings.Opens st incoming destination)
    (hbegin : services.os.beginPartial destination st.storage = .error error s) :
    (settings.under services).countsChunk clock incoming st = false := by
  rw [← Bool.not_eq_true]
  intro htrue
  obtain ⟨destination', p, t, -, hadmits', hentry, -⟩ := exists_of_countsChunk htrue
  obtain rfl := Except.ok.inj (hadmits'.1.symm.trans hopens.1.1)
  exact hentry.not_fails hopens.2 hbegin

theorem countsChunk_of_notWritten {destination : FilePath} {p : PendingFile} {s s' : Storage}
    {error : ChunkEngineError} (hadmits : settings.Admits st incoming destination)
    (hentry : EntryOpen services.os st clock incoming.relativePath destination p s)
    (hwrite : services.os.writeChunkAtOffset (.part p.partPath) incoming.chunk s =
      .error error s') : (settings.under services).countsChunk clock incoming st = false := by
  rw [← Bool.not_eq_true]
  intro htrue
  obtain ⟨destination', p', t, t', hadmits', hentry', hwrite'⟩ := exists_of_countsChunk htrue
  obtain rfl := Except.ok.inj (hadmits'.1.symm.trans hadmits.1)
  obtain ⟨rfl, rfl⟩ := hentry.unique hentry'
  cases hwrite.symm.trans hwrite'

theorem countedBy_of_not_counts
    (h : (settings.under services).countsChunk clock incoming st = false) :
    settings.countedBy services clock incoming st journal =
      st.countedBefore journal incoming.relativePath := by
  rw [ReceiverSettings.countedBy, h, if_neg Bool.false_ne_true, List.append_nil]

/-- A push leaves its entry, if it is open, made of what has been counted by then. -/
theorem PushEffect.journaled (h : st.Journaled journal)
    {result : EStateM.Result PushError ReceiverState Unit}
    (heffect : PushEffect settings services.os clock incoming st result) :
    (stateOf result).Journaled (Function.update journal incoming.relativePath
      (settings.countedBy services clock incoming st journal)) := by
  have hname := h.name_countedBy settings services clock incoming
  have hinsert : ∀ q : PendingFile, ∀ other r, other ≠ incoming.relativePath →
      (st.pending.insert incoming.relativePath q).lookup other = some r →
        st.pending.lookup other = some r := by
    intro q other r hother hr
    rwa [AList.lookup_insert_ne hother] at hr
  have hkept : (settings.under services).countsChunk clock incoming st = false →
      ∀ p, st.pending.lookup incoming.relativePath = some p →
        p.MadeOf (settings.countedBy services clock incoming st journal) := by
    intro hfalse p hp
    rw [countedBy_of_not_counts hfalse, ReceiverState.countedBefore,
      if_pos (AList.lookup_isSome.mp (Option.isSome_of_mem hp))]
    exact h.entry _ p hp
  have hcounted : ∀ {destination p s s'}, settings.Admits st incoming destination →
      EntryOpen services.os st clock incoming.relativePath destination p s →
        services.os.writeChunkAtOffset (.part p.partPath) incoming.chunk s = .ok () s' →
          (p.counted clock incoming).MadeOf
            (settings.countedBy services clock incoming st journal) := by
    intro destination p s s' hadmits hentry hwrite
    rw [ReceiverSettings.countedBy, countsChunk_of_write hadmits hentry hwrite, if_pos rfl]
    exact (h.countedBefore hentry).counted clock incoming
  cases heffect with
  | refused hrefused =>
      exact h.update (fun _ _ _ hp ↦ hp) (hkept (countsChunk_of_refused hrefused)) hname
  | notBegun hopens hbegin =>
      exact h.update (fun _ _ _ hp ↦ hp) (hkept (countsChunk_of_notBegun hopens hbegin)) hname
  | @notWritten destination p s s' e hadmits hentry hwrite =>
      refine h.update (hinsert _) (fun q hq ↦ ?_) hname
      have hq : { p with lastActivity := clock.monotonic } = q := by
        simpa [stateOf, AList.lookup_insert] using hq
      rw [countedBy_of_not_counts (countsChunk_of_notWritten hadmits hentry hwrite), ← hq]
      exact ⟨(h.countedBefore hentry).indices, (h.countedBefore hentry).version⟩
  | @held destination p s s' hadmits hentry hwrite
  | @notCommitted destination p s s' s'' e hadmits hentry hwrite hcommit =>
      refine h.update (hinsert _) (fun q hq ↦ ?_) hname
      have hq : p.counted clock incoming = q := by
        simpa [stateOf, AList.lookup_insert] using hq
      rw [← hq]
      exact hcounted hadmits hentry hwrite
  | committed hadmits hentry hwrite hcommit hstorage hpending =>
      refine h.update (fun other r hother hr ↦ ?_) (fun q hq ↦ ?_) hname
      · rwa [hpending, AList.lookup_erase_ne hother] at hr
      · rw [hpending, AList.lookup_erase] at hq
        cases hq

/-! ## Runs -/

theorem lookup_foldl_abortPending (settings : ReceiverSettings) (services : Services)
    (names : List String) (st : ReceiverState) :
    ∀ name p, (names.foldl (fun st name ↦ (settings.under services).abortPending name
      st) st).pending.lookup name = some p → st.pending.lookup name = some p := by
  induction names generalizing st with
  | nil => exact fun _ _ hp ↦ hp
  | cons first names ih =>
      intro name p hp
      have hp := ih _ name p hp
      dsimp only at hp
      rw [(abortPending_under settings services first st).2.2] at hp
      by_cases hname : name = first
      · subst hname
        rw [AList.lookup_erase] at hp
        cases hp
      · rwa [AList.lookup_erase_ne hname] at hp

theorem metadata_foldl_abortPending (settings : ReceiverSettings) (services : Services)
    (names : List String) (st : ReceiverState) :
    (names.foldl (fun st name ↦ (settings.under services).abortPending name st) st).metadata =
      st.metadata := by
  induction names generalizing st with
  | nil => rfl
  | cons name names ih =>
      refine (ih _).trans ?_
      dsimp only
      unfold ReceivePushedFiles.abortPending
      split <;> rfl

theorem ReceiverState.Journaled.abortAllPartials (h : st.Journaled journal) :
    ((settings.under services).abortAllPartials st).Journaled journal :=
  h.of_lookup fun _ _ hp ↦ by simp [ReceivePushedFiles.abortAllPartials] at hp

/-- What the loop goes on with is what the event has left, or has been cleaned up. -/
theorem ReceiverState.Journaled.advance {run : ReceiverRun} {event : ReceiverEvent}
    (hrunning : run.stopped = false)
    (h : (stateOf ((settings.under services).handleEvent event run.state)).Journaled journal) :
    (settings.advance run (services, .event event)).state.Journaled journal := by
  rcases advance_event settings services run event hrunning with hstate | hstate
  · rwa [hstate]
  · rw [hstate]
    exact h.abortAllPartials

theorem journaled_record {j : JournaledRun} (h : j.run.state.Journaled j.journal)
    (input : Services × ReceiverInput) :
    (settings.record j input).run.state.Journaled (settings.record j input).journal := by
  obtain ⟨⟨st, stopped⟩, journal⟩ := j
  obtain ⟨services, input⟩ := input
  cases stopped with
  | true => exact h
  | false =>
      cases input with
      | cancel => exact h.abortAllPartials
      | event event =>
          apply ReceiverState.Journaled.advance rfl
          cases event with
          | sweep now => exact h.of_lookup (lookup_foldl_abortPending settings services _ st)
          | push clock incoming =>
              rw [handleEvent_push]
              exact (handlePush_under settings services clock incoming st).journaled h

/-- In every run, whatever raises. -/
theorem journaled_run (settings : ReceiverSettings) (storage : Storage) (metadata : MetadataStore)
    (inputs : List (Services × ReceiverInput)) :
    (settings.journaled storage metadata inputs).run.state.Journaled
      (settings.journaled storage metadata inputs).journal := by
  induction inputs using List.reverseRecOn with
  | nil =>
      constructor
      · intro name p hp
        cases hp
      · intro name incoming hmem
        cases hmem
  | append_singleton inputs input ih =>
      rw [ReceiverSettings.journaled, List.foldl_append]
      exact journaled_record ih input

/-! ## Records -/

/-- A database that may raise at any call, before or after it has done what is asked. -/
structure MetadataRepository.Faithful (repo : MetadataRepository) : Prop where
  get : ∀ name store, repo.getFileMetadata name store = .ok (store name) store ∨
    ∃ e, repo.getFileMetadata name store = .error e store
  save : ∀ record store,
    repo.saveFileMetadata record store =
        .ok () (Function.update store record.filePath (some record)) ∨
      ∃ e, repo.saveFileMetadata record store = .error e store ∨
        repo.saveFileMetadata record store =
          .error e (Function.update store record.filePath (some record))

/-- What a push does to the records. -/
inductive RecordEffect (settings : ReceiverSettings) (services : Services) (clock : Clock)
    (incoming : IncomingPush) (st : ReceiverState)
    (result : EStateM.Result PushError ReceiverState Unit) : Prop
  | kept (hmetadata : (stateOf result).metadata = st.metadata)
      (hopen : Completed result → incoming.relativePath ∈ (stateOf result).pending)
  | saved {destination : FilePath} {p : PendingFile} {s s' : Storage}
      (hadmits : settings.Admits st incoming destination)
      (hentry : EntryOpen services.os st clock incoming.relativePath destination p s)
      (hwrite : services.os.writeChunkAtOffset (.part p.partPath) incoming.chunk s = .ok () s')
      (hmetadata : (stateOf result).metadata = Function.update st.metadata incoming.relativePath
        (some (settings.finalRecord st clock incoming.relativePath (p.counted clock incoming))))
      (hclosed : incoming.relativePath ∉ (stateOf result).pending)

theorem finalize_commit_run (settings : ReceiverSettings) (services : Services) (clock : Clock)
    (name : String) (p : PendingFile) (st : ReceiverState)
    (h : services.os.commitPartial destination p.partPath st.storage = .ok () s) :
    (settings.under services).finalize clock name destination p st =
      (onMetadata (services.metadataRepo.getFileMetadata name) >>= fun existing ↦
        onMetadata (services.metadataRepo.saveFileMetadata
          { filePath := name
            versionVector := finalVersion settings.ownDeviceId p.versionVector existing
            lastModified := clock.utc }))
        { st with storage := s, pending := st.pending.erase name } := by
  have hrun : onStorage ((settings.under services).fileReconstructor.commitPartial destination
      p.partPath) st = .ok () { st with storage := s } :=
    onStorage_of_ok h
  unfold ReceivePushedFiles.finalize
  rw [bind_run, hrun]
  rfl

theorem recordEffect_finalize (hfaithful : services.metadataRepo.Faithful)
    (hadmits : settings.Admits st incoming destination)
    (hentry : EntryOpen services.os st clock incoming.relativePath destination p s)
    (hwrite : services.os.writeChunkAtOffset (.part p.partPath) incoming.chunk s = .ok () s') :
    RecordEffect settings services clock incoming st
      ((settings.under services).finalize clock incoming.relativePath destination
        (p.counted clock incoming) { st with
          storage := s'
          pending := st.pending.insert incoming.relativePath (p.counted clock incoming) }) := by
  cases hcommit : services.os.commitPartial destination p.partPath s' with
  | error e s'' =>
      rw [finalize_of_not_commit settings services clock incoming.relativePath
        (p.counted clock incoming) _ hcommit]
      exact .kept rfl fun h ↦ h.elim
  | ok u s'' =>
      rw [finalize_commit_run settings services clock incoming.relativePath
        (p.counted clock incoming) _ hcommit, erase_insert_self, bind_run]
      have hnot : incoming.relativePath ∉ st.pending.erase incoming.relativePath := by
        rw [AList.mem_erase]
        exact fun h ↦ h.1 rfl
      rcases hfaithful.get incoming.relativePath st.metadata with hget | ⟨e, hget⟩
      · simp only [onMetadata, zoom, hget]
        rcases hfaithful.save (settings.finalRecord st clock incoming.relativePath
          (p.counted clock incoming)) st.metadata with hsave | ⟨e, hsave | hsave⟩
        · simp only [ReceiverSettings.finalRecord] at hsave
          simp only [hsave]
          exact .saved hadmits hentry hwrite rfl hnot
        · simp only [ReceiverSettings.finalRecord] at hsave
          simp only [hsave]
          exact .kept rfl fun h ↦ h.elim
        · simp only [ReceiverSettings.finalRecord] at hsave
          simp only [hsave]
          exact .saved hadmits hentry hwrite rfl hnot
      · simp only [onMetadata, zoom, hget]
        exact .kept rfl fun h ↦ h.elim

theorem recordEffect_handlePush (hfaithful : services.metadataRepo.Faithful) (clock : Clock)
    (incoming : IncomingPush) (st : ReceiverState) :
    RecordEffect settings services clock incoming st
      ((settings.under services).handlePush clock incoming st) := by
  by_cases hcounts : (settings.under services).countsChunk clock incoming st = true
  · obtain ⟨destination, p, s, s', hadmits, hentry, hwrite⟩ := exists_of_countsChunk hcounts
    rw [handlePush_of_write settings services clock hadmits hentry hwrite]
    split_ifs with hdone
    · exact recordEffect_finalize hfaithful hadmits hentry hwrite
    · exact .kept rfl fun _ ↦ AList.mem_insert _ |>.mpr (.inl rfl)
  · have heffect := handlePush_under settings services clock incoming st
    generalize (settings.under services).handlePush clock incoming st = result at heffect ⊢
    cases heffect with
    | refused | notBegun | notWritten => exact .kept rfl fun h ↦ h.elim
    | held hadmits hentry hwrite | notCommitted hadmits hentry hwrite
    | committed hadmits hentry hwrite =>
        exact absurd (countsChunk_of_write hadmits hentry hwrite) hcounts

end

/-! ### A disk on which files cannot be renamed -/

theorem mapMetadataRepository_faithful : mapMetadataRepository.Faithful where
  get _ _ := .inl rfl
  save _ _ := .inl rfl

def SysCall.isRename : SysCall → Bool
  | .rename .. => true
  | _ => false

def stuckServices : Services :=
  ⟨{ treeOs sampleRoot with raises := SysCall.isRename }, mapMetadataRepository⟩

def freeServices : Services := ⟨treeOs sampleRoot, mapMetadataRepository⟩

end SecureSync
