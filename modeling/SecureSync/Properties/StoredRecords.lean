import SecureSync.Infrastructure.SqliteRows
import SecureSync.Library.Raising

/-!
# Stored records

The metadata repository against a map from path to record: what a sequence of calls
leaves to be read.
-/

namespace SecureSync

open IsoTime JsonObject

/-! ## A map from path to record -/

namespace FileRecord

/-- No counter is too long to be written. -/
def Savable (r : FileRecord) : Prop := ∀ entry ∈ items r.counters, Writable entry.2

instance (r : FileRecord) : Decidable r.Savable :=
  inferInstanceAs (Decidable (∀ entry ∈ items r.counters, _))

/-- The time is one that its text tells, and the numbers of the chunks fit in the `INTEGER`
columns. -/
def Fits (r : FileRecord) : Prop :=
  r.lastModified.Exact ∧
    ∀ chunk ∈ r.chunks, chunk.index < 2 ^ 63 ∧ chunk.size < 2 ^ 63 ∧ chunk.offset < 2 ^ 63

instance (r : FileRecord) : Decidable r.Fits :=
  inferInstanceAs (Decidable (_ ∧ ∀ chunk ∈ r.chunks, _))

/-- The record as a read may give it back: its chunks in the order of their indices. -/
structure ReadAs (r found : FileRecord) : Prop where
  filePath : found.filePath = r.filePath
  counters : found.counters = r.counters
  lastModified : found.lastModified = r.lastModified
  isDeleted : found.isDeleted = r.isDeleted
  perm : found.chunks.Perm r.chunks
  sorted : found.chunks.Pairwise fun chunk chunk' ↦ chunk.index ≤ chunk'.index

end FileRecord

abbrev Records := String → Option FileRecord

/-- What a call does to the map; a record that cannot be written is not saved. -/
def MetadataCall.effect (records : Records) : MetadataCall → Records
  | .save r => if r.Savable then Function.update records r.filePath (some r) else records
  | .delete path => Function.update records path none
  | .get _ | .listAll => records

def recordsAfter (calls : List MetadataCall) : Records :=
  calls.foldl MetadataCall.effect fun _ ↦ none

def MetadataCall.path? : MetadataCall → Option String
  | .save r => some r.filePath
  | .get path | .delete path => some path
  | .listAll => none

/-! ## Columns -/

namespace FileRecord

variable {r : FileRecord}

theorem exists_columns_iff : (∃ row, r.columns = .ok row) ↔ r.Savable := by
  unfold columns Savable
  rw [← dumps_isSome_iff]
  cases dumps (items r.counters) <;> simp

theorem columns_eq_ok {row : FilesColumns} (hexact : r.lastModified.Exact)
    (h : r.columns = .ok row) :
    loads row.versionVector.toList = some (items r.counters) ∧
      DateTime.fromisoformat row.lastModified.toList = some r.lastModified ∧
      decide (row.isDeleted ≠ 0) = r.isDeleted := by
  unfold columns at h
  cases htext : dumps (items r.counters) with
  | none =>
      rw [htext] at h
      cases h
  | some text =>
      rw [htext] at h
      cases h
      refine ⟨?_, ?_, ?_⟩
      · rw [String.toList_ofList, loads_dumps htext]
      · rw [String.toList_ofList, DateTime.fromisoformat_isoformat, hexact.reread_eq_self]
      · cases r.isDeleted <;> rfl

end FileRecord

theorem ChunkMetadata.read_columns (path : String) (chunk : ChunkMetadata) :
    (chunk.columns path).read = .ok chunk := by
  have hhash : readHash (chunk.columns path).hashAlgo (chunk.columns path).hashValue =
      .ok chunk.chunkHash := by
    cases hchunk : chunk.chunkHash with
    | none => simp [columns, hchunk, readHash]
    | some chunkHash =>
        obtain ⟨⟨⟩, digest, hwell⟩ := chunkHash
        have hmake : ChunkHash.make .sha256 digest = .ok ⟨.sha256, digest, hwell⟩ :=
          ChunkHash.make_eq_ok.mpr ⟨rfl, rfl⟩
        simp [columns, hchunk, readHash, ChunkAlgorithm.value, ChunkAlgorithm.ofValue?, hwell.1,
          hmake, Except.map]
  rw [ChunksColumns.read, hhash]
  exact ChunkMetadata.make_eq_ok.mpr ⟨rfl, rfl, rfl, rfl, rfl⟩

theorem mapM_read_columns (path : String) (chunks : List ChunkMetadata) :
    (chunks.map (ChunkMetadata.columns path)).mapM ChunksColumns.read = .ok chunks := by
  rw [Raising.except_mapM_eq_ok, List.forall₂_map_left_iff, List.forall₂_same]
  exact fun chunk _ ↦ chunk.read_columns path

/-- Whatever its order among equal indices, a query for the chunks gives them back. -/
theorem QueryOrder.mapM_read (order : QueryOrder) (path : String) (chunks : List ChunkMetadata) :
    ∃ found, (order.byIndex (chunks.map (ChunkMetadata.columns path))).mapM ChunksColumns.read =
        .ok found ∧ found.Perm chunks ∧
      found.Pairwise fun chunk chunk' ↦ chunk.index ≤ chunk'.index := by
  have hsorted := order.byIndex_sorted (chunks.map (ChunkMetadata.columns path))
  obtain ⟨found, hfound, hperm⟩ := (congrFun₂ (List.eq_map_comp_perm (ChunkMetadata.columns path))
    _ _).mpr (order.byIndex_perm (chunks.map (ChunkMetadata.columns path)))
  refine ⟨found, ?_, hperm, ?_⟩
  · rw [hfound]
    exact mapM_read_columns path found
  · rw [hfound, List.pairwise_map] at hsorted
    simpa [ChunkMetadata.columns] using hsorted

/-! ## Tables that hold a map -/

namespace Database

/-- The tables hold the rows of these records, and no others. -/
structure Holds (db : Database) (records : Records) : Prop where
  lookup_eq : ∀ path, db.files.lookup path = (records path).bind fun r ↦ r.columns.toOption
  chunksOf_eq : ∀ path, db.chunksOf path =
    ((records path).map fun r ↦ r.chunks.map (ChunkMetadata.columns path)).getD []
  path_eq : ∀ path r, records path = some r →
    r.filePath = path ∧ r.Savable ∧ r.lastModified.Exact

theorem Holds.empty : Database.empty.Holds fun _ ↦ none where
  lookup_eq path := AList.lookup_empty path
  chunksOf_eq _ := rfl
  path_eq := by simp

variable {db : Database} {records : Records} {path other : String} {r : FileRecord}

theorem chunksOf_filter_self (rows : List ChunksColumns) :
    (rows.filter fun row ↦ row.filePath ≠ path).filter (fun row ↦ row.filePath = path) = [] := by
  rw [List.filter_filter, List.filter_eq_nil_iff]
  simp

theorem chunksOf_filter_ne (h : other ≠ path) (rows : List ChunksColumns) :
    (rows.filter fun row ↦ row.filePath ≠ path).filter (fun row ↦ row.filePath = other) =
      rows.filter fun row ↦ row.filePath = other := by
  rw [List.filter_filter]
  refine List.filter_congr fun row _ ↦ ?_
  by_cases hother : row.filePath = other <;> simp [hother, h]

theorem Holds.deleteFile (h : db.Holds records) :
    (db.deleteFile path).Holds (Function.update records path none) where
  lookup_eq other := by
    by_cases hother : other = path
    · subst hother
      simp [Database.deleteFile]
    · rw [Function.update_of_ne hother, ← h.lookup_eq other]
      exact AList.lookup_erase_ne hother
  chunksOf_eq other := by
    by_cases hother : other = path
    · subst hother
      rw [Function.update_self]
      exact chunksOf_filter_self db.chunks
    · rw [Function.update_of_ne hother, ← h.chunksOf_eq other]
      exact chunksOf_filter_ne hother db.chunks
  path_eq other r hr := by
    by_cases hother : other = path
    · subst hother
      simp at hr
    · rw [Function.update_of_ne hother] at hr
      exact h.path_eq other r hr

theorem insertChunk_eq_ok {row : ChunksColumns} (hrow : row.AllBindable)
    (hpath : row.filePath ∈ db.files) :
    ∃ later, (insertChunk row).run db = .ok () later ∧ later.files = db.files ∧
      later.chunks = db.chunks ++ [row] := by
  refine ⟨⟨db.files, db.chunks ++ [row], ?_⟩, ?_, rfl, rfl⟩
  · rw [List.forall_mem_append]
    exact ⟨db.references, List.forall_mem_singleton.mpr hpath⟩
  · rw [EStateM.run, insertChunk, if_neg (not_not.mpr hrow), dif_pos hpath]

theorem forM_insertChunk {chunks : List ChunkMetadata} {db : Database} (hpath : path ∈ db.files)
    (hfits : ∀ chunk ∈ chunks, (chunk.columns path).AllBindable) :
    ∃ later, (chunks.forM fun chunk ↦ insertChunk (chunk.columns path)).run db = .ok () later ∧
      later.files = db.files ∧
      later.chunks = db.chunks ++ chunks.map (ChunkMetadata.columns path) := by
  induction chunks generalizing db with
  | nil => exact ⟨db, rfl, rfl, by simp⟩
  | cons chunk chunks ih =>
      obtain ⟨hchunk, hfits⟩ := List.forall_mem_cons.mp hfits
      obtain ⟨first, hfirst, hfiles, hchunks⟩ := insertChunk_eq_ok hchunk hpath
      obtain ⟨later, hlater, hlaterFiles, hlaterChunks⟩ :=
        ih (hfiles ▸ hpath : path ∈ first.files) hfits
      refine ⟨later, ?_, hlaterFiles.trans hfiles, ?_⟩
      · rw [List.forM_eq_forM] at hlater ⊢
        rw [List.forM_cons, EStateM.run_bind, hfirst]
        dsimp only
        rw [hlater]
      · rw [hlaterChunks, hchunks, List.append_assoc, List.map_cons, List.singleton_append]

theorem saveFileMetadata_eq_ok {row : FilesColumns} (db : Database) (hfits : r.Fits)
    (hcolumns : r.columns = .ok row) :
    ∃ later, saveFileMetadata r db = .ok () later ∧
      later.files = db.files.insert r.filePath row ∧
      later.chunks = (db.chunks.filter fun row ↦ row.filePath ≠ r.filePath) ++
        r.chunks.map (ChunkMetadata.columns r.filePath) := by
  have hbind : ∀ chunk ∈ r.chunks, (chunk.columns r.filePath).AllBindable := by
    intro chunk hchunk
    obtain ⟨hindex, hsize, hoffset⟩ := hfits.2 chunk hchunk
    simp only [ChunksColumns.AllBindable, Bindable, ChunkMetadata.columns]
    omega
  have hfile : r.filePath ∈ ((db.replaceFile r.filePath row).deleteChunks r.filePath).files :=
    (AList.mem_insert db.files).mpr (.inl rfl)
  obtain ⟨later, hlater, hfiles, hchunks⟩ := forM_insertChunk hfile hbind
  refine ⟨later, ?_, hfiles, ?_⟩
  · rw [saveFileMetadata, hcolumns]
    exact hlater
  · rw [hchunks]
    simp [deleteChunks, replaceFile]

/-- The row of the record and those of its chunks take the place of the ones before. -/
theorem Holds.replace {row : FilesColumns} {later : Database} (h : db.Holds records)
    (hsave : r.Savable) (hexact : r.lastModified.Exact) (hcolumns : r.columns = .ok row)
    (hfiles : later.files = db.files.insert r.filePath row)
    (hchunks : later.chunks = (db.chunks.filter fun row ↦ row.filePath ≠ r.filePath) ++
      r.chunks.map (ChunkMetadata.columns r.filePath)) :
    later.Holds (Function.update records r.filePath (some r)) where
  lookup_eq other := by
    rw [hfiles]
    by_cases hother : other = r.filePath
    · subst hother
      rw [AList.lookup_insert, Function.update_self, Option.bind_some, hcolumns]
      rfl
    · rw [Function.update_of_ne hother, ← h.lookup_eq other]
      exact AList.lookup_insert_ne hother
  chunksOf_eq other := by
    rw [chunksOf, hchunks, List.filter_append]
    by_cases hother : other = r.filePath
    · subst hother
      rw [Function.update_self, Option.map_some, Option.getD_some, chunksOf_filter_self,
        List.nil_append, List.filter_eq_self]
      simp [ChunkMetadata.columns]
    · have hnone : (r.chunks.map (ChunkMetadata.columns r.filePath)).filter
          (fun row ↦ row.filePath = other) = [] := by
        rw [List.filter_eq_nil_iff]
        simp [ChunkMetadata.columns, Ne.symm hother]
      rw [Function.update_of_ne hother, ← h.chunksOf_eq other, chunksOf_filter_ne hother, hnone,
        List.append_nil, chunksOf]
  path_eq other r' hr' := by
    by_cases hother : other = r.filePath
    · subst hother
      rw [Function.update_self] at hr'
      cases hr'
      exact ⟨rfl, hsave, hexact⟩
    · rw [Function.update_of_ne hother] at hr'
      exact h.path_eq other r' hr'

/-- A record that fits replaces the one that was there, and its chunks. -/
theorem Holds.save (h : db.Holds records) (hfits : r.Fits) :
    ((MetadataCall.save r).run db).Holds ((MetadataCall.save r).effect records) := by
  unfold MetadataCall.run MetadataCall.effect
  dsimp only
  cases hcolumns : r.columns with
  | error e =>
      have hsave : ¬ r.Savable := by
        rw [← FileRecord.exists_columns_iff, hcolumns]
        simp
      rw [saveFileMetadata, hcolumns, if_neg hsave]
      exact h
  | ok row =>
      have hsave : r.Savable := FileRecord.exists_columns_iff.mp ⟨row, hcolumns⟩
      obtain ⟨later, hlater, hfiles, hchunks⟩ := saveFileMetadata_eq_ok db hfits hcolumns
      rw [hlater, if_pos hsave]
      exact h.replace hsave hfits.1 hcolumns hfiles hchunks

theorem Holds.runCalls {calls : List MetadataCall} (hfits : ∀ r, .save r ∈ calls → r.Fits) :
    (SecureSync.runCalls calls).Holds (recordsAfter calls) := by
  induction calls using List.reverseRecOn with
  | nil => exact Holds.empty
  | append_singleton calls call ih =>
      have hbefore := ih fun r hr ↦ hfits r (List.mem_append_left _ hr)
      rw [SecureSync.runCalls, recordsAfter, List.foldl_concat, List.foldl_concat]
      cases call with
      | save r => exact hbefore.save (hfits r (by simp))
      | delete path => exact hbefore.deleteFile
      | get | listAll => exact hbefore

/-! ## What is read -/

variable (order : QueryOrder)

theorem Holds.read_none (h : db.Holds records) (hpath : records path = none) :
    readFileMetadata order db path = .ok none := by
  have hlookup := h.lookup_eq path
  rw [hpath] at hlookup
  rw [readFileMetadata, hlookup]
  rfl

theorem Holds.read_some (h : db.Holds records) (hpath : records path = some r) :
    ∃ found, readFileMetadata order db path = .ok (some found) ∧ r.ReadAs found := by
  obtain ⟨hr, hsave, hexact⟩ := h.path_eq path r hpath
  obtain ⟨row, hrow⟩ := FileRecord.exists_columns_iff.mpr hsave
  obtain ⟨hcounters, htime, hdeleted⟩ := FileRecord.columns_eq_ok hexact hrow
  obtain ⟨chunks, hchunks, hperm, hsorted⟩ := order.mapM_read path r.chunks
  have hlookup := h.lookup_eq path
  rw [hpath, Option.bind_some, hrow] at hlookup
  have hrows := h.chunksOf_eq path
  rw [hpath, Option.map_some, Option.getD_some] at hrows
  refine ⟨⟨path, r.counters, r.lastModified, r.isDeleted, chunks⟩, ?_, hr.symm, rfl, rfl, rfl,
    hperm, hsorted⟩
  rw [readFileMetadata, hlookup, hrows]
  simp only [Except.toOption, hcounters, htime, hchunks, dictOf_items, hdeleted]

/-- A read depends on nothing but the record of its path. -/
theorem Holds.read_congr {db' : Database} {records' : Records} (h : db.Holds records)
    (h' : db'.Holds records') (hpath : records path = records' path) :
    readFileMetadata order db path = readFileMetadata order db' path := by
  unfold readFileMetadata
  rw [h.lookup_eq, h.chunksOf_eq, hpath, ← h'.lookup_eq, ← h'.chunksOf_eq]

variable {order}

theorem filePath_of_read {f : FileRecord}
    (h : readFileMetadata order db path = .ok (some f)) : f.filePath = path ∧ path ∈ db.files := by
  unfold readFileMetadata at h
  split at h
  · cases h
  · next row hrow =>
      split at h
      all_goals cases h
      exact ⟨rfl, AList.lookup_isSome.mp (Option.isSome_iff_exists.mpr ⟨row, hrow⟩)⟩

theorem mapM_read_paths {paths : List String}
    (h : ∀ path ∈ paths, ∃ found, readFileMetadata order db path = .ok (some found) ∧
      found.filePath = path) :
    ∃ found : List FileRecord, paths.mapM (readFileMetadata order db) = .ok (found.map some) ∧
      found.map FileRecord.filePath = paths ∧
      ∀ f ∈ found, readFileMetadata order db f.filePath = .ok (some f) := by
  induction paths with
  | nil => exact ⟨[], rfl, rfl, by simp⟩
  | cons path paths ih =>
      obtain ⟨hpath, hpaths⟩ := List.forall_mem_cons.mp h
      obtain ⟨first, hfirst, hname⟩ := hpath
      obtain ⟨found, hfound, hnames, hreads⟩ := ih hpaths
      refine ⟨first :: found, ?_, by rw [List.map_cons, hname, hnames], ?_⟩
      · rw [List.mapM_cons, hfirst, hfound]
        rfl
      · rw [List.forall_mem_cons]
        exact ⟨hname.symm ▸ hfirst, hreads⟩

variable (order) in
/-- Every record that can be read is listed, and once. -/
theorem Holds.listAllFiles (h : db.Holds records) :
    ∃ found : List FileRecord, SecureSync.listAllFiles order db = .ok found ∧
      (found.map FileRecord.filePath).Nodup ∧
      ∀ f, f ∈ found ↔ ∃ path, readFileMetadata order db path = .ok (some f) := by
  have hperm := order.paths_perm db.files.keys
  have hread : ∀ path ∈ order.paths db.files.keys, ∃ found,
      readFileMetadata order db path = .ok (some found) ∧ found.filePath = path := by
    intro path hpath
    obtain ⟨row, hrow⟩ := Option.isSome_iff_exists.mp
      (AList.lookup_isSome.mpr (AList.mem_keys.mpr (hperm.mem_iff.mp hpath)))
    obtain ⟨r, hr, -⟩ := Option.bind_eq_some_iff.mp ((h.lookup_eq path).symm.trans hrow)
    obtain ⟨found, hfound, hreads⟩ := h.read_some order hr
    exact ⟨found, hfound, hreads.filePath.trans (h.path_eq path r hr).1⟩
  obtain ⟨found, hfound, hnames, hreads⟩ := mapM_read_paths hread
  refine ⟨found, ?_, ?_, ?_⟩
  · rw [SecureSync.listAllFiles, hfound]
    simp [bind, Except.bind, pure, Except.pure]
  · rw [hnames]
    exact hperm.nodup_iff.mpr db.files.keys_nodup
  · intro f
    constructor
    · intro hf
      exact ⟨_, hreads f hf⟩
    · rintro ⟨path, hpath⟩
      obtain ⟨hname, hmem⟩ := filePath_of_read hpath
      have hlisted : path ∈ found.map FileRecord.filePath := by
        rw [hnames]
        exact hperm.mem_iff.mpr (AList.mem_keys.mp hmem)
      obtain ⟨g, hg, hgname⟩ := List.mem_map.mp hlisted
      have hreadg := hreads g hg
      rw [hgname, hpath] at hreadg
      cases hreadg
      exact hg

theorem Holds.mem_chunks (h : db.Holds records) {row : ChunksColumns} (hrow : row ∈ db.chunks) :
    ∃ r, records row.filePath = some r ∧ ∃ chunk ∈ r.chunks, row = chunk.columns row.filePath := by
  have hmem : row ∈ db.chunksOf row.filePath := by
    simp [chunksOf, hrow]
  rw [h.chunksOf_eq] at hmem
  cases hr : records row.filePath with
  | none => simp [hr] at hmem
  | some r =>
      rw [hr, Option.map_some, Option.getD_some] at hmem
      obtain ⟨chunk, hchunk, heq⟩ := List.mem_map.mp hmem
      exact ⟨r, rfl, chunk, hchunk, heq.symm⟩

end Database

theorem MetadataCall.effect_of_path_ne {call : MetadataCall} {records : Records} {path : String}
    (h : call.path? ≠ some path) : call.effect records path = records path := by
  cases call with
  | save r =>
      have hne : path ≠ r.filePath := fun heq ↦ h (congrArg some heq.symm)
      unfold effect
      dsimp only
      split_ifs
      · exact Function.update_of_ne hne _ _
      · rfl
  | delete other =>
      have hne : path ≠ other := fun heq ↦ h (congrArg some heq.symm)
      exact Function.update_of_ne hne _ _
  | get | listAll => rfl

/-- Over every sequence of calls that saves records whose times and chunk numbers fit, the
repository reads back the map from path to the record last saved and not deleted since. -/
theorem runCalls_refines (order : QueryOrder) (calls : List MetadataCall)
    (hfits : ∀ r, .save r ∈ calls → r.Fits) :
    (∀ path, recordsAfter calls path = none →
      readFileMetadata order (runCalls calls) path = .ok none) ∧
    (∀ path r, recordsAfter calls path = some r →
      ∃ found, readFileMetadata order (runCalls calls) path = .ok (some found) ∧ r.ReadAs found) ∧
    (∃ found : List FileRecord, listAllFiles order (runCalls calls) = .ok found ∧
      (found.map FileRecord.filePath).Nodup ∧
      ∀ f, f ∈ found ↔ ∃ path, readFileMetadata order (runCalls calls) path = .ok (some f)) ∧
    (∀ call path, call.path? ≠ some path → (∀ r, call = .save r → r.Fits) →
      readFileMetadata order (runCalls (calls ++ [call])) path =
        readFileMetadata order (runCalls calls) path) ∧
    ∀ row ∈ (runCalls calls).chunks, ∃ r, recordsAfter calls row.filePath = some r ∧
      ∃ chunk ∈ r.chunks, row = chunk.columns row.filePath := by
  have hholds := Database.Holds.runCalls hfits
  refine ⟨fun path hpath ↦ hholds.read_none order hpath,
    fun path r hpath ↦ hholds.read_some order hpath, hholds.listAllFiles order, ?_,
    fun row hrow ↦ hholds.mem_chunks hrow⟩
  intro call path hpath hcall
  have hlater : (runCalls (calls ++ [call])).Holds (recordsAfter (calls ++ [call])) := by
    apply Database.Holds.runCalls
    intro r hr
    rcases List.mem_append.mp hr with hr | hr
    · exact hfits r hr
    · exact hcall r (List.mem_singleton.mp hr).symm
  apply hlater.read_congr order hholds
  rw [recordsAfter, List.foldl_concat, MetadataCall.effect_of_path_ne hpath, recordsAfter]

def newYear : DateTime :=
  ⟨2024, 1, 1, .midnight, none, by omega, by omega, Nat.one_pos, by omega, Nat.one_pos, by decide⟩

/-- One chunk of a byte, at this offset. -/
def notesAt (offset : ℕ) : FileRecord where
  filePath := "notes"
  counters := ∅
  lastModified := newYear
  isDeleted := false
  chunks := [⟨"notes-0", 0, 1, offset, none, by simp⟩]

theorem runCalls_refines_notes :
    ∃ found, readFileMetadata rowOrder (runCalls [.save (notesAt 0)]) "notes" = .ok (some found) ∧
      (notesAt 0).ReadAs found :=
  (runCalls_refines rowOrder [.save (notesAt 0)] (by
    intro r hr
    obtain rfl : r = notesAt 0 := by simpa using hr
    decide)).2.1 "notes" (notesAt 0) rfl

/-- An offset of `2 ^ 63` raises `OverflowError` when the row of the file is replaced
already: what is read then is neither of the two records. -/
theorem wide_offset_half_saved :
    (∃ left, saveFileMetadata (notesAt (2 ^ 63)) (runCalls [.save (notesAt 0)]) =
      .error .overflow left) ∧
    ∃ found, readFileMetadata rowOrder
        (runCalls [.save (notesAt 0), .save (notesAt (2 ^ 63))]) "notes" = .ok (some found) ∧
      ¬ (notesAt 0).ReadAs found ∧ ¬ (notesAt (2 ^ 63)).ReadAs found := by
  have hbare : runCalls [.save (notesAt 0), .save (notesAt (2 ^ 63))] =
      runCalls [.save (notesAt 0), .save { notesAt 0 with chunks := [] }] := rfl
  have hholds : (runCalls [.save (notesAt 0), .save { notesAt 0 with chunks := [] }]).Holds
      (recordsAfter [.save (notesAt 0), .save { notesAt 0 with chunks := [] }]) := by
    apply Database.Holds.runCalls
    intro r hr
    simp only [List.mem_cons, MetadataCall.save.injEq, List.not_mem_nil, or_false] at hr
    rcases hr with rfl | rfl <;> decide
  have hrecord : recordsAfter [.save (notesAt 0), .save { notesAt 0 with chunks := [] }] "notes" =
      some { notesAt 0 with chunks := [] } := rfl
  obtain ⟨found, hfound, hreads⟩ := hholds.read_some rowOrder hrecord
  have hnil : found.chunks = [] := hreads.perm.eq_nil
  refine ⟨⟨_, rfl⟩, found, hbare ▸ hfound, fun h ↦ ?_, fun h ↦ ?_⟩
  · have hperm := h.perm
    rw [hnil] at hperm
    exact absurd hperm.symm.eq_nil (by simp [notesAt])
  · have hperm := h.perm
    rw [hnil] at hperm
    exact absurd hperm.symm.eq_nil (by simp [notesAt])

end SecureSync
