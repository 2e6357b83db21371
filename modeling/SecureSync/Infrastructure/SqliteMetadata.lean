import SecureSync.Domain.Metadata
import SecureSync.Library.Transactions
import Mathlib.Data.List.Sort

/-!
# The SQLite metadata repository

`sqlite_metadata_repository.py`.  A call is the list of the statements that it
awaits one by one on the one connection, which opens a transaction before a
statement that changes data.  The columns are kept as the values that they encode.
-/

namespace SecureSync

open Transactions

/-! ## Tables -/

structure FileRow where
  versionVector : VersionVector
  lastModified : Timestamp
  isDeleted : Bool
  deriving DecidableEq

structure ChunkRow where
  filePath : String
  chunk : ChunkMetadata
  deriving DecidableEq

/-- The rows of `files` by primary key, and those of `chunks` by ascending `id`;
`FOREIGN KEY (file_path) REFERENCES files`. -/
structure Tables where
  files : String → Option FileRow
  chunks : List ChunkRow
  references : ∀ row ∈ chunks, (files row.filePath).isSome

/-- A file row with its chunks. -/
structure StoredFile where
  row : FileRow
  chunks : List ChunkMetadata
  deriving DecidableEq

namespace Tables

variable (t : Tables) (path : String)

def chunksOf : List ChunkMetadata :=
  (t.chunks.filter fun row ↦ row.filePath = path).map ChunkRow.chunk

def stored : Option StoredFile := (t.files path).map fun row ↦ ⟨row, t.chunksOf path⟩

/-- `DELETE FROM files`, with `ON DELETE CASCADE`. -/
def deleteFile : Tables where
  files := Function.update t.files path none
  chunks := t.chunks.filter fun row ↦ row.filePath ≠ path
  references row hrow := by
    obtain ⟨hrow, hne⟩ := List.mem_filter.mp hrow
    rw [Function.update_of_ne (of_decide_eq_true hne)]
    exact t.references row hrow

/-- `INSERT OR REPLACE INTO files`: a row in the way is deleted. -/
def replaceFile (row : FileRow) : Tables where
  files := Function.update t.files path (some row)
  chunks := (t.deleteFile path).chunks
  references row' hrow := by
    obtain ⟨hrow, hne⟩ := List.mem_filter.mp hrow
    rw [Function.update_of_ne (of_decide_eq_true hne)]
    exact t.references row' hrow

def deleteChunks : Tables where
  files := t.files
  chunks := t.chunks.filter fun row ↦ row.filePath ≠ path
  references row hrow := t.references row (List.mem_filter.mp hrow).1

/-- `INSERT INTO chunks`, refused where the key refers to no row. -/
def insertChunk? (chunk : ChunkMetadata) : Option Tables :=
  if h : (t.files path).isSome then
    some {
      files := t.files
      chunks := t.chunks ++ [⟨path, chunk⟩]
      references := by
        refine List.forall_mem_append.mpr ⟨t.references, ?_⟩
        exact List.forall_mem_singleton.mpr h }
  else none

end Tables

/-! ## Calls -/

inductive Statement where
  | replaceFile (path : String) (row : FileRow)
  | deleteChunks (path : String)
  | insertChunk (path : String) (chunk : ChunkMetadata)
  | deleteFile (path : String)
  | commit
  deriving DecidableEq

/-- `none`: the statement raises `IntegrityError`. -/
def Statement.execute? (c : Connection Tables) : Statement → Option (Connection Tables)
  | .replaceFile path row => c.write? fun t ↦ some (t.replaceFile path row)
  | .deleteChunks path => c.write? fun t ↦ some (t.deleteChunks path)
  | .insertChunk path chunk => c.write? fun t ↦ t.insertChunk? path chunk
  | .deleteFile path => c.write? fun t ↦ some (t.deleteFile path)
  | .commit => some c.commit

namespace FileMetadata

variable (metadata : FileMetadata)

def row : FileRow := ⟨metadata.versionVector, metadata.lastModified, metadata.isDeleted⟩

def storedFile : StoredFile := ⟨metadata.row, metadata.chunks⟩

end FileMetadata

inductive WriteCall where
  | saveFileMetadata (metadata : FileMetadata)
  | deleteFileMetadata (path : String)
  deriving DecidableEq

namespace WriteCall

def path : WriteCall → String
  | .saveFileMetadata metadata => metadata.filePath
  | .deleteFileMetadata path => path

/-- The statements before `commit`. -/
def changes : WriteCall → List Statement
  | .saveFileMetadata metadata =>
      .replaceFile metadata.filePath metadata.row :: .deleteChunks metadata.filePath ::
        metadata.chunks.map (.insertChunk metadata.filePath)
  | .deleteFileMetadata path => [.deleteFile path]

def statements (call : WriteCall) : List Statement := call.changes ++ [.commit]

/-- What the first `reached` statements leave under the path, if there are any. -/
def outcome (reached : ℕ) : WriteCall → Option StoredFile
  | .saveFileMetadata metadata => some ⟨metadata.row, metadata.chunks.take (reached - 2)⟩
  | .deleteFileMetadata _ => none

end WriteCall

/-- `ORDER BY chunk_index`.  SQLite leaves open how it orders equal indices. -/
structure ChunkOrder where
  sort : List ChunkMetadata → List ChunkMetadata
  perm : ∀ chunks, (sort chunks).Perm chunks
  sorted : ∀ chunks, (sort chunks).Pairwise fun chunk chunk' ↦ chunk.index ≤ chunk'.index

/-- Equal indices in the order of their rows. -/
def indexOrder : ChunkOrder where
  sort := List.insertionSort fun chunk chunk' ↦ chunk.index ≤ chunk'.index
  perm := List.perm_insertionSort _
  sorted chunks := by
    have : IsTrans ChunkMetadata fun chunk chunk' ↦ chunk.index ≤ chunk'.index :=
      ⟨fun _ _ _ ↦ le_trans⟩
    have : Std.Total fun chunk chunk' : ChunkMetadata ↦ chunk.index ≤ chunk'.index :=
      ⟨fun _ _ ↦ le_total ..⟩
    exact List.pairwise_insertionSort _ chunks

def ChunkOrder.read (order : ChunkOrder) (path : String) (stored : StoredFile) : FileMetadata where
  filePath := path
  versionVector := stored.row.versionVector
  lastModified := stored.row.lastModified
  isDeleted := stored.row.isDeleted
  chunks := order.sort stored.chunks

/-- `get_file_metadata`, when nothing comes between its two queries. -/
def getFileMetadata (order : ChunkOrder) (c : Connection Tables) (path : String) :
    Option FileMetadata :=
  (c.view.stored path).map (order.read path)

/-! ## What a statement does to the stored files -/

namespace Tables

variable (t : Tables) (path other : String) (row : FileRow) (chunk : ChunkMetadata)

theorem chunksOf_filter_self :
    ((t.chunks.filter fun row ↦ row.filePath ≠ path).filter
      fun row ↦ row.filePath = path).map ChunkRow.chunk = [] := by
  rw [List.filter_filter, List.map_eq_nil_iff, List.filter_eq_nil_iff]
  simp

theorem chunksOf_filter_of_ne (h : other ≠ path) :
    ((t.chunks.filter fun row ↦ row.filePath ≠ path).filter
      fun row ↦ row.filePath = other).map ChunkRow.chunk = t.chunksOf other := by
  rw [List.filter_filter, chunksOf]
  congr 1
  refine List.filter_congr fun row _ ↦ ?_
  by_cases hother : row.filePath = other <;> simp [hother, h]

theorem stored_deleteFile :
    (t.deleteFile path).stored = Function.update t.stored path none := by
  ext1 other
  by_cases hother : other = path
  · subst hother
    simp [stored, deleteFile]
  · have hkept := chunksOf_filter_of_ne t path other hother
    simp only [stored, chunksOf, deleteFile, Function.update_of_ne hother, hkept]

theorem stored_replaceFile :
    (t.replaceFile path row).stored = Function.update t.stored path (some ⟨row, []⟩) := by
  ext1 other
  by_cases hother : other = path
  · subst hother
    simp only [stored, replaceFile, deleteFile, chunksOf, Function.update_self, Option.map_some,
      chunksOf_filter_self]
  · have hkept := chunksOf_filter_of_ne t path other hother
    simp only [stored, chunksOf, replaceFile, deleteFile, Function.update_of_ne hother, hkept]

theorem stored_deleteChunks :
    (t.deleteChunks path).stored =
      Function.update t.stored path ((t.stored path).map fun file ↦ ⟨file.row, []⟩) := by
  ext1 other
  by_cases hother : other = path
  · subst hother
    simp only [stored, deleteChunks, chunksOf, Function.update_self, Option.map_map,
      chunksOf_filter_self]
    rfl
  · have hkept := chunksOf_filter_of_ne t path other hother
    simp only [stored, chunksOf, deleteChunks, Function.update_of_ne hother, hkept]

variable {t path chunk} {t' : Tables}

theorem stored_insertChunk? (h : t.insertChunk? path chunk = some t') :
    t'.stored = Function.update t.stored path
      ((t.stored path).map fun file ↦ ⟨file.row, file.chunks ++ [chunk]⟩) := by
  unfold insertChunk? at h
  split_ifs at h with hsome
  cases h
  ext1 other
  by_cases hother : other = path
  · subst hother
    simp [stored, chunksOf, Function.comp_def]
  · rw [Function.update_of_ne hother]
    simp [stored, chunksOf, Ne.symm hother]

theorem insertChunk?_eq_none : t.insertChunk? path chunk = none ↔ t.stored path = none := by
  unfold insertChunk? stored
  rw [Option.map_eq_none_iff]
  split_ifs with h
  · exact iff_of_false nofun (Option.isSome_iff_ne_none.mp h)
  · exact iff_of_true rfl (Option.not_isSome_iff_eq_none.mp h)

end Tables

abbrev StoredFiles := String → Option StoredFile

/-- What a statement does to the stored files, which is nothing where the key of a chunk
refers to no row. -/
def Statement.effect (files : StoredFiles) : Statement → StoredFiles
  | .replaceFile path row => Function.update files path (some ⟨row, []⟩)
  | .deleteChunks path =>
      Function.update files path ((files path).map fun file ↦ ⟨file.row, []⟩)
  | .insertChunk path chunk =>
      Function.update files path
        ((files path).map fun file ↦ ⟨file.row, file.chunks ++ [chunk]⟩)
  | .deleteFile path => Function.update files path none
  | .commit => files

theorem Statement.stored_execute? {statement : Statement} {c c' : Connection Tables}
    (h : statement.execute? c = some c') :
    c'.view.stored = statement.effect c.view.stored ∧
      c'.committed = if statement = .commit then c.view else c.committed := by
  cases statement with
  | commit =>
      cases h
      exact ⟨rfl, rfl⟩
  | insertChunk path chunk =>
      rw [execute?] at h
      obtain ⟨t, ht, rfl⟩ := Connection.write?_eq_some.mp h
      exact ⟨Tables.stored_insertChunk? ht, rfl⟩
  | replaceFile path row =>
      rw [execute?] at h
      obtain ⟨t, ⟨⟩, rfl⟩ := Connection.write?_eq_some.mp h
      exact ⟨Tables.stored_replaceFile .., rfl⟩
  | deleteChunks path =>
      rw [execute?] at h
      obtain ⟨t, ⟨⟩, rfl⟩ := Connection.write?_eq_some.mp h
      exact ⟨Tables.stored_deleteChunks .., rfl⟩
  | deleteFile path =>
      rw [execute?] at h
      obtain ⟨t, ⟨⟩, rfl⟩ := Connection.write?_eq_some.mp h
      exact ⟨Tables.stored_deleteFile .., rfl⟩

/-- A statement is refused only where it inserts a chunk of a file that is not there. -/
theorem Statement.execute?_eq_none {statement : Statement} {c : Connection Tables} :
    statement.execute? c = none ↔
      ∃ path chunk, statement = .insertChunk path chunk ∧ c.view.stored path = none := by
  cases statement with
  | insertChunk path chunk =>
      rw [execute?, Connection.write?, Option.map_eq_none_iff, Tables.insertChunk?_eq_none]
      constructor
      · exact fun h ↦ ⟨path, chunk, rfl, h⟩
      · rintro ⟨_, _, ⟨⟩, h⟩
        exact h
  | replaceFile | deleteChunks | deleteFile | commit =>
      refine iff_of_false (Option.some_ne_none _) ?_
      rintro ⟨_, _, ⟨⟩, -⟩

def emptyTables : Tables := ⟨fun _ ↦ none, [], nofun⟩

def notesMetadata : FileMetadata where
  filePath := "notes"
  versionVector := .empty
  lastModified := 0
  chunks := [⟨"notes-0", 0, 1, 0, none, by decide⟩]

end SecureSync
