import SecureSync.Receiver.Delivery
import SecureSync.Sync.Runs

/-!
# What one push does to the receiver

A delta push and the receiver's count of distinct indices agree only in part.
Both theorems say for which files, manifests and orders of arrival they do.
-/

namespace SecureSync

open CountedAssembly Raising
open scoped List

section

variable {W : Type} {run : SyncRun W} {settings : ReceiverSettings} {st : ReceiverState}
  {destination : FilePath} {es : List (Clock × IncomingPush)}

/-- The pushes that a commit takes in turn what they found into `content`; or
none is committed, and the file already holds it. -/
def ReceiverSettings.Restores (settings : ReceiverSettings) (st : ReceiverState) (name : String)
    (destination : FilePath) (total : ℕ) (es : List (Clock × IncomingPush)) (content : Bytes) :
    Prop :=
  let committed := settings.committedOf st name destination total es
  committed = [] ∧ st.storage.files (.file destination) = some content ∨
    committed ≠ [] ∧ Overlay.Completes 0 ((st.assembly name destination).opened []).1 content
      (committed.map fun e ↦ e.2.chunk.piece)

instance (settings : ReceiverSettings) (st : ReceiverState) (name : String)
    (destination : FilePath) (total : ℕ) (es : List (Clock × IncomingPush)) (content : Bytes) :
    Decidable (settings.Restores st name destination total es content) :=
  inferInstanceAs (Decidable (_ ∧ _ ∨ _ ∧ _))

/-- The messages of a push of what this answer lacks, in some order. -/
structure SyncRun.Delivers (run : SyncRun W) (answer : Option ManifestWithVersion)
    (es : List (Clock × IncomingPush)) : Prop where
  relativePath_eq : ∀ e ∈ es, e.2.relativePath = run.relativePath
  totalChunks_eq : ∀ e ∈ es, e.2.totalChunks = distinctDigests (run.missing answer)
  chunks_perm : es.map (fun e ↦ e.2.chunk) ~ run.missing answer

namespace SyncRun.Delivers

variable {answer : Option ManifestWithVersion}

theorem of_pushed {result : SyncFileResult} {s' : SyncState W}
    (hpushed : run.pushed = .ok result s') (hanswer : run.Answers answer)
    (hes : es.map Prod.snd ~ run.sent) : run.Delivers answer es := by
  obtain ⟨content, answer', version, -, hanswer', hsent⟩ := run.sent_of_pushed hpushed
  cases hanswer.unique hanswer'
  rw [hsent] at hes
  have hmem : ∀ e ∈ es, ∃ chunk ∈ run.missing answer,
      { relativePath := run.relativePath, totalChunks := distinctDigests (run.missing answer),
        chunk, versionVector := version } = e.2 :=
    fun e he ↦ List.mem_map.mp (hes.subset (List.mem_map_of_mem he))
  refine ⟨fun e he ↦ ?_, fun e he ↦ ?_, ?_⟩
  · obtain ⟨chunk, -, heq⟩ := hmem e he
    rw [← heq]
  · obtain ⟨chunk, -, heq⟩ := hmem e he
    rw [← heq]
  · have hchunks := hes.map IncomingPush.chunk
    simpa [pushesOf, List.map_map, Function.comp_def] using hchunks

theorem length_eq (h : run.Delivers answer es) : es.length = (run.missing answer).length := by
  rw [← h.chunks_perm.length_eq, List.length_map]

theorem ne_nil (h : run.Delivers answer es) (hne : run.missing answer ≠ []) : es ≠ [] := by
  rintro rfl
  exact hne (List.length_eq_zero_iff.mp h.length_eq.symm)

theorem mem_missing (h : run.Delivers answer es) {e : Clock × IncomingPush} (he : e ∈ es) :
    e.2.chunk ∈ run.missing answer :=
  h.chunks_perm.subset (List.mem_map_of_mem he)

theorem nodup_index (h : run.Delivers answer es) :
    (es.map fun e ↦ e.2.chunk.metadata.index).Nodup := by
  have hindices := h.chunks_perm.map fun chunk : Chunk ↦ chunk.metadata.index
  rw [List.map_map] at hindices
  exact hindices.nodup_iff.mpr (run.nodup_index_missing answer)

end SyncRun.Delivers

theorem file_eq_content_iff {result : SyncFileResult} {s' : SyncState W} {content : Bytes}
    {answer : Option ManifestWithVersion} (hpushed : run.pushed = .ok result s')
    (hcontent : run.content = some content) (hanswer : run.Answers answer)
    (hwf : settings.WellFormed st)
    (hdest : resolveWithin settings.resolver settings.syncRoot run.relativePath = .ok destination)
    (hes : es.map Prod.snd ~ run.sent) :
    (settings.onDisk.runForever (delivered es) st).storage.files (.file destination) =
        some content ↔
      settings.Restores st run.relativePath destination (distinctDigests (run.missing answer))
        es content := by
  have hdelivers := SyncRun.Delivers.of_pushed hpushed hanswer hes
  have hslices : ∀ p ∈ (settings.committedOf st run.relativePath destination
      (distinctDigests (run.missing answer)) es).map fun e ↦ e.2.chunk.piece,
        Overlay.IsSlice content p := by
    intro p hp
    obtain ⟨e, he, rfl⟩ := List.mem_map.mp hp
    exact SyncRun.isSlice_missing hcontent (hdelivers.mem_missing (mem_of_mem_committedOf he))
  rw [runForever_onDisk, file_delivered hwf hdest es hdelivers.relativePath_eq
    hdelivers.totalChunks_eq]
  simp only [ReceiverSettings.Restores]
  split_ifs with hnone
  · simp [hnone]
  · rw [Option.some_inj, Overlay.writeAll_eq_iff 0 hslices]
    simp [hnone]

theorem file_eq_content_sample :
    let run := sampleRun (some [1, 2]) none (sampleExchange none []) fun _ ↦ 0
    let es := run.sent.reverse.map fun incoming ↦ (⟨0, 0⟩, incoming)
    (sampleReceiver.onDisk.runForever (delivered es) (sampleReceiverState none)).storage.files
          (.file samplePath) = some [1, 2] ↔
      sampleReceiver.Restores (sampleReceiverState none) "a.txt" samplePath
        (distinctDigests (run.missing none)) es [1, 2] := by
  intro run es
  have hcompleted : Completed run.pushed := by decide
  obtain ⟨result, s', hpushed⟩ := hcompleted.exists_ok
  refine file_eq_content_iff hpushed (content_sampleRun ..) ⟨(), rfl⟩
    (sampleReceiver.wellFormed_start _ _) (by decide) ?_
  simp only [es, List.map_map, Function.comp_def, List.map_id']
  exact List.reverse_perm _

/-- The receiver serves an accurate manifest of `[1, 2]`, the sender holds
`[2, 1]`: nothing is missing, nothing is sent, and the file stays. -/
theorem moved_blocks_are_not_pushed :
    let run := sampleRun (some [2, 1]) none
      (sampleExchange (some ⟨sampleManifest [1, 2], none⟩) []) fun _ ↦ 0
    (sampleManifest [1, 2]).Describes sampleHasher [1, 2] ∧ run.content = some [2, 1] ∧
      run.Answers (some ⟨sampleManifest [1, 2], none⟩) ∧ Completed run.pushed ∧
      ∀ es : List (Clock × IncomingPush), es.map Prod.snd ~ run.sent →
        (sampleReceiver.onDisk.runForever (delivered es)
          (sampleReceiverState (some [1, 2]))).storage.files (.file samplePath) = some [1, 2] := by
  intro run
  have hsent : run.sent = [] := by decide
  refine ⟨by decide, content_sampleRun .., ⟨(), rfl⟩, by decide, fun es hes ↦ ?_⟩
  rw [hsent] at hes
  obtain rfl : es = [] := List.map_eq_nil_iff.mp hes.eq_nil
  decide

/-! ## One rename, after the last chunk -/

/-- Among these operations a partial file replaces the destination just once,
after all of these chunks were written to it. -/
def RenamedOnceAfter (destination : FilePath) (chunks : List Chunk) (ops : List FsOp) : Prop :=
  ∃ written part before after rest,
    ops = written ++ .replace part destination before after :: rest ∧
      commitsAt destination (written ++ rest) = [] ∧
      ∀ chunk ∈ chunks, .write (.part part) chunk ∈ written

theorem RenamedOnceAfter.length_commitsAt {chunks : List Chunk} {ops : List FsOp}
    (h : RenamedOnceAfter destination chunks ops) : (commitsAt destination ops).length = 1 := by
  obtain ⟨written, part, before, after, rest, rfl, hnone, -⟩ := h
  obtain ⟨hwritten, hrest⟩ := List.append_eq_nil_iff.mp (commitsAt_append .. ▸ hnone)
  rw [commitsAt_append, commitsAt_replace_self, hwritten, hrest]
  rfl

theorem RenamedOnceAfter.exists_write {chunks : List Chunk} {ops : List FsOp}
    (h : RenamedOnceAfter destination chunks ops) {chunk : Chunk} (hchunk : chunk ∈ chunks) :
    ∃ path, .write path chunk ∈ ops := by
  obtain ⟨written, part, before, after, rest, rfl, -, hwritten⟩ := h
  exact ⟨_, List.mem_append_left _ (hwritten chunk hchunk)⟩

variable {name : String}

theorem length_le_of_committed_once {total : ℕ} (htotal : 0 < total)
    (hname : ∀ e ∈ es, e.2.relativePath = name)
    (htotals : ∀ e ∈ es, e.2.totalChunks = total)
    (hnodup : (es.map fun e ↦ e.2.chunk.metadata.index).Nodup)
    (hidle : name ∉ st.pending)
    (hfree : name ∉ (settings.acceptAll destination es st).pending)
    (hcommits : (commitsAt destination
      (settings.acceptAll destination es st).storage.journal).length =
        (commitsAt destination st.storage.journal).length + 1) : es.length ≤ total := by
  have hbuffer : (st.assembly name destination).buffer = none :=
    assembly_buffer_eq_none_iff.mpr hidle
  have hgrouped := @foldl_add_grouped _ _ _ [] total htotal _ hbuffer (es.map fun e ↦ e.2.item)
    (total_item htotals) (by rwa [map_index_item])
  rw [← assembly_acceptAll es hname st] at hgrouped
  obtain ⟨hholds, hcount⟩ := hgrouped
  have hquot : (es.map fun e ↦ e.2.item).length / total = 1 := by
    have hsame : ((settings.acceptAll destination es st).assembly name
        destination).commits = commitsAt destination
          (settings.acceptAll destination es st).storage.journal := rfl
    have hsame' : (st.assembly name destination).commits =
        commitsAt destination st.storage.journal := rfl
    rw [hsame, hsame', hcommits] at hcount
    omega
  rw [State.Holds, assembly_buffer_eq_none_iff.mpr hfree, hquot, Nat.mul_one] at hholds
  have hnil : (es.map fun e ↦ e.2.item).drop total = [] := by
    by_contra hne
    simp [hne] at hholds
  simpa using hnil

theorem renamedOnceAfter_acceptAll (hne : es ≠ [])
    (hname : ∀ e ∈ es, e.2.relativePath = name)
    (htotals : ∀ e ∈ es, e.2.totalChunks = es.length)
    (hnodup : (es.map fun e ↦ e.2.chunk.metadata.index).Nodup)
    (hidle : name ∉ st.pending) :
    (∃ ops, (settings.acceptAll destination es st).storage.journal = st.storage.journal ++ ops ∧
        RenamedOnceAfter destination (es.map fun e ↦ e.2.chunk) ops) ∧
      name ∉ (settings.acceptAll destination es st).pending := by
  obtain ⟨init, last, rfl⟩ := (List.eq_nil_or_concat' es).resolve_left hne
  have hlast : last.2.relativePath = name := hname last (by simp)
  have hlength : (init ++ [last]).length = init.length + 1 := by simp
  obtain ⟨hindices, hjournal⟩ := @opened_acceptAll settings st name destination
    (init ++ [last]).length init (fun e he ↦ hname e (List.mem_append_left _ he))
    (fun e he ↦ htotals e (List.mem_append_left _ he)) (by omega) hidle last.1
  have hstep : settings.acceptAll destination (init ++ [last]) st =
      settings.accepted last.1 destination last.2 (settings.acceptAll destination init st) :=
    List.foldl_append
  rw [hstep, ReceiverSettings.accepted, hlast]
  generalize (settings.acceptAll destination init st).opened last.1 name destination =
    opened at hindices hjournal ⊢
  have hcounted : (opened.1.counted last.1 last.2).receivedIndices =
      ((init ++ [last]).map fun e ↦ e.2.chunk.metadata.index).toFinset := by
    rw [PendingFile.counted, hindices]
    ext i
    simp
  have hwhole : last.2.totalChunks ≤ (opened.1.counted last.1 last.2).receivedIndices.card := by
    rw [hcounted, List.toFinset_card_of_nodup hnodup, htotals last (by simp), List.length_map]
  simp only [if_pos hwhole]
  obtain ⟨before, after, hcommit⟩ :=
    @journal_commit settings opened.2 last.1 destination opened.1 last.2
  refine ⟨⟨_, by rw [hcommit, hjournal, List.append_assoc], ?_⟩, ?_⟩
  · refine ⟨.create opened.1.partPath :: ((init ++ [last]).map fun e ↦ e.2.chunk).map
      (FsOp.write (.part opened.1.partPath)), opened.1.partPath, before, after, [], by simp, ?_, ?_⟩
    · rw [List.append_nil, commitsAt_create, commitsAt_map_write]
    · intro chunk hchunk
      exact List.mem_cons_of_mem _ (List.mem_map_of_mem hchunk)
  · rw [ReceiverSettings.commit, hlast, AList.mem_erase]
    simp

theorem acceptable_eq_of_renamedOnceAfter {answer : Option ManifestWithVersion} {ops : List FsOp}
    (h : run.Delivers answer es)
    (hops : (settings.acceptAll destination (settings.acceptable st name es) st).storage.journal =
      st.storage.journal ++ ops)
    (honce : RenamedOnceAfter destination (run.missing answer) ops) :
    settings.acceptable st name es = es := by
  obtain ⟨ops', hops', hwrites⟩ := journal_acceptAll settings destination
    (settings.acceptable st name es) st
  cases List.append_cancel_left (hops.symm.trans hops')
  -- every chunk was written, and an accepted push writes one chunk
  have hsubset : run.missing answer ⊆
      (settings.acceptable st name es).map fun e ↦ e.2.chunk := by
    intro chunk hchunk
    obtain ⟨path, hwrite⟩ := honce.exists_write hchunk
    obtain ⟨e, he, heq⟩ := hwrites path chunk hwrite
    exact List.mem_map.mpr ⟨e, he, heq⟩
  have hnodup : (run.missing answer).Nodup := (run.nodup_index_missing answer).of_map _
  have hlength := (hnodup.subperm hsubset).length_le
  rw [List.length_map, ← h.length_eq] at hlength
  exact (acceptable_sublist es).eq_of_length_le hlength

/-- Accepted one after the other, the pushes make one commit exactly when they
are as many as they declare. -/
theorem renamedOnceAfter_acceptAll_iff {answer : Option ManifestWithVersion}
    (h : run.Delivers answer es) (hidle : run.relativePath ∉ st.pending) :
    (∃ ops, (settings.acceptAll destination es st).storage.journal = st.storage.journal ++ ops ∧
        RenamedOnceAfter destination (run.missing answer) ops) ∧
        run.relativePath ∉ (settings.acceptAll destination es st).pending ↔
      run.missing answer ≠ [] ∧ ((run.missing answer).filterMap Chunk.digest?).Nodup := by
  rw [← SyncRun.distinctDigests_eq_length_iff]
  constructor
  · rintro ⟨⟨ops, hops, honce⟩, hfree⟩
    have hone := honce.length_commitsAt
    have hne : run.missing answer ≠ [] := by
      intro hnil
      have hempty : es = [] := List.length_eq_zero_iff.mp (by rw [h.length_eq, hnil]; rfl)
      subst hempty
      rw [List.append_right_eq_self.mp hops.symm] at hone
      cases hone
    refine ⟨hne, le_antisymm (SyncRun.distinctDigests_le_length answer) ?_⟩
    rw [← h.length_eq]
    refine length_le_of_committed_once (SyncRun.distinctDigests_pos hne) h.relativePath_eq
      h.totalChunks_eq h.nodup_index hidle hfree ?_
    rw [hops, commitsAt_append, List.length_append, hone]
  · rintro ⟨hne, htotal⟩
    rw [← h.length_eq] at htotal
    obtain ⟨⟨ops, hops, written, part, before, after, rest, hsplit, hnone, hwritten⟩, hfree⟩ :=
      @renamedOnceAfter_acceptAll settings st destination es run.relativePath (h.ne_nil hne)
        h.relativePath_eq (fun e he ↦ by rw [h.totalChunks_eq e he, htotal]) h.nodup_index hidle
    exact ⟨⟨ops, hops, written, part, before, after, rest, hsplit, hnone,
      fun chunk hchunk ↦ hwritten chunk (h.chunks_perm.mem_iff.mpr hchunk)⟩, hfree⟩

theorem committed_once_iff {result : SyncFileResult} {s' : SyncState W}
    {answer : Option ManifestWithVersion} (hpushed : run.pushed = .ok result s')
    (hanswer : run.Answers answer) (hwf : settings.WellFormed st)
    (hdest : resolveWithin settings.resolver settings.syncRoot run.relativePath = .ok destination)
    (hidle : run.relativePath ∉ st.pending) (hes : es.map Prod.snd ~ run.sent) :
    let st' := settings.onDisk.runForever (delivered es) st
    (∃ ops, st'.storage.journal = st.storage.journal ++ ops ∧
        RenamedOnceAfter destination (run.missing answer) ops) ∧ run.relativePath ∉ st'.pending ↔
      run.missing answer ≠ [] ∧ ((run.missing answer).filterMap Chunk.digest?).Nodup ∧
        settings.HasRoom st run.relativePath ∧
          ∀ incoming ∈ run.sent, settings.validate incoming = .ok () := by
  have h := SyncRun.Delivers.of_pushed hpushed hanswer hes
  intro st'
  have hst' : st' = settings.acceptAll destination
      (settings.acceptable st run.relativePath es) st := by
    rw [← foldl_step_delivered hwf hdest es h.relativePath_eq, ← runForever_onDisk]
  have hvalid : (∀ incoming ∈ run.sent, settings.validate incoming = .ok ()) ↔
      ∀ e ∈ es, settings.validate e.2 = .ok () := by
    simp only [← hes.mem_iff, List.mem_map, forall_exists_index, and_imp, forall_apply_eq_imp_iff₂]
  rw [hst', hvalid]
  constructor
  · rintro ⟨⟨ops, hops, honce⟩, hfree⟩
    have haccept := acceptable_eq_of_renamedOnceAfter h hops honce
    rw [haccept] at hops hfree
    obtain ⟨hne, hdistinct⟩ :=
      (renamedOnceAfter_acceptAll_iff h hidle).mp ⟨⟨ops, hops, honce⟩, hfree⟩
    exact ⟨hne, hdistinct, (acceptable_eq_self_iff (h.ne_nil hne)).mp haccept⟩
  · rintro ⟨hne, hdistinct, haccept⟩
    rw [(acceptable_eq_self_iff (h.ne_nil hne)).mpr haccept]
    exact (renamedOnceAfter_acceptAll_iff h hidle).mpr ⟨hne, hdistinct⟩

end

theorem committed_once_sample :
    let run := sampleRun (some [1, 2]) none (sampleExchange none []) fun _ ↦ 0
    let es := run.sent.reverse.map fun incoming ↦ (⟨0, 0⟩, incoming)
    let st' := sampleReceiver.onDisk.runForever (delivered es) (sampleReceiverState none)
    (∃ ops, st'.storage.journal = (sampleReceiverState none).storage.journal ++ ops ∧
        RenamedOnceAfter samplePath (run.missing none) ops) ∧ "a.txt" ∉ st'.pending ↔
      run.missing none ≠ [] ∧ ((run.missing none).filterMap Chunk.digest?).Nodup ∧
        sampleReceiver.HasRoom (sampleReceiverState none) "a.txt" ∧
          ∀ incoming ∈ run.sent, sampleReceiver.validate incoming = .ok () := by
  intro run es
  have hcompleted : Completed run.pushed := by decide
  obtain ⟨result, s', hpushed⟩ := hcompleted.exists_ok
  refine committed_once_iff hpushed ⟨(), rfl⟩ (sampleReceiver.wellFormed_start _ _) (by decide)
    (by decide) ?_
  simp only [es, List.map_map, Function.comp_def, List.map_id']
  exact List.reverse_perm _

/-- Three chunks of `[1, 1, 2]` are sent, as a push of two: the second one
commits the file, and the third is left in an entry of its own. -/
theorem repeated_block_is_committed_early :
    let run := sampleRun (some [1, 1, 2]) none (sampleExchange none []) fun _ ↦ 0
    let es := run.sent.map fun incoming ↦ (⟨0, 0⟩, incoming)
    let st' := sampleReceiver.onDisk.runForever (delivered es) (sampleReceiverState none)
    Completed run.pushed ∧ run.Answers none ∧ run.sent.length = 3 ∧
      commitsAt samplePath st'.storage.journal = [(none, [1, 1])] ∧ "a.txt" ∈ st'.pending ∧
      ¬ ((∃ ops, st'.storage.journal = (sampleReceiverState none).storage.journal ++ ops ∧
          RenamedOnceAfter samplePath (run.missing none) ops) ∧ "a.txt" ∉ st'.pending) := by
  intro run es st'
  have hpending : "a.txt" ∈ st'.pending := by decide
  exact ⟨by decide, ⟨(), rfl⟩, by decide, by decide, hpending, fun h ↦ h.2 hpending⟩

end SecureSync
