import SecureSync.Domain.Metadata
import SecureSync.Library.IsoTime
import SecureSync.Library.JsonObject
import Mathlib.Data.List.Sort

/-!
# The rows of the metadata database

`sqlite_metadata_repository.py` down to its columns: counters are written as JSON,
times in ISO form, digests as the names of their algorithms and their text.  Every text
here has a UTF-8 form; `sqlite3` binds no other.  The tables are as the one connection
sees them; no call here rolls back.
-/

namespace SecureSync

open DecimalText IsoTime JsonObject

/-- `FileMetadata` with the order of its counters and the parts of its time. -/
structure FileRecord where
  filePath : String
  counters : Dict
  lastModified : DateTime
  isDeleted : Bool
  chunks : List ChunkMetadata
  deriving DecidableEq

def FileRecord.versionVector (r : FileRecord) : VersionVector := ⟨r.counters.toFinmap⟩

/-! ## Tables -/

structure FilesColumns where
  versionVector : String
  lastModified : String
  isDeleted : ℤ
  deriving DecidableEq, Repr

structure ChunksColumns where
  filePath : String
  chunkId : String
  chunkIndex : ℤ
  size : ℤ
  offset : ℤ
  hashAlgo : Option String
  hashValue : Option String
  deriving DecidableEq, Repr

/-- The rows of `files` by primary key, and the rows of `chunks`. -/
structure Database where
  files : AList fun _ : String ↦ FilesColumns
  chunks : List ChunksColumns
  references : ∀ row ∈ chunks, row.filePath ∈ files

inductive SqliteError where
  | value
  | overflow
  | integrity
  deriving DecidableEq, Repr

/-- The integers that `sqlite3` binds to a parameter: those from `-2 ^ 63` to `2 ^ 63 - 1`. -/
def Bindable (z : ℤ) : Prop := z.toNat < 2 ^ 63 ∧ (-z).toNat ≤ 2 ^ 63

instance (z : ℤ) : Decidable (Bindable z) := inferInstanceAs (Decidable (_ ∧ _))

def ChunksColumns.AllBindable (row : ChunksColumns) : Prop :=
  Bindable row.chunkIndex ∧ Bindable row.size ∧ Bindable row.offset

instance (row : ChunksColumns) : Decidable row.AllBindable :=
  inferInstanceAs (Decidable (_ ∧ _ ∧ _))

namespace Database

def empty : Database := ⟨∅, [], by simp⟩

def chunksOf (db : Database) (path : String) : List ChunksColumns :=
  db.chunks.filter fun row ↦ row.filePath = path

/-- `INSERT OR REPLACE INTO files`: a row in the way goes, and its chunks with it. -/
def replaceFile (db : Database) (path : String) (row : FilesColumns) : Database where
  files := db.files.insert path row
  chunks := db.chunks.filter fun row ↦ row.filePath ≠ path
  references row hrow := by
    rw [AList.mem_insert]
    exact .inr (db.references row (List.mem_of_mem_filter hrow))

/-- `DELETE FROM files`, with `ON DELETE CASCADE`. -/
def deleteFile (db : Database) (path : String) : Database where
  files := db.files.erase path
  chunks := db.chunks.filter fun row ↦ row.filePath ≠ path
  references row hrow := by
    obtain ⟨hrow, hne⟩ := List.mem_filter.mp hrow
    rw [AList.mem_erase]
    exact ⟨of_decide_eq_true hne, db.references row hrow⟩

def deleteChunks (db : Database) (path : String) : Database where
  files := db.files
  chunks := db.chunks.filter fun row ↦ row.filePath ≠ path
  references row hrow := db.references row (List.mem_of_mem_filter hrow)

/-- `INSERT INTO chunks`: its parameters are bound before its foreign key is checked. -/
def insertChunk (row : ChunksColumns) : EStateM SqliteError Database Unit := fun db ↦
  if ¬ row.AllBindable then .error .overflow db
  else if h : row.filePath ∈ db.files then
    .ok () ⟨db.files, db.chunks ++ [row], by
      rw [List.forall_mem_append]
      exact ⟨db.references, List.forall_mem_singleton.mpr h⟩⟩
  else .error .integrity db

end Database

/-! ## Writing -/

def ChunkMetadata.columns (path : String) (chunk : ChunkMetadata) : ChunksColumns where
  filePath := path
  chunkId := chunk.chunkId
  chunkIndex := chunk.index
  size := chunk.size
  offset := chunk.offset
  hashAlgo := chunk.chunkHash.map fun chunkHash ↦ chunkHash.algorithm.value
  hashValue := chunk.chunkHash.map ChunkHash.digest

namespace FileRecord

/-- The row of `files`; `ValueError` where a counter is too long for `json.dumps`. -/
def columns (r : FileRecord) : Except SqliteError FilesColumns :=
  match dumps (items r.counters) with
  | none => .error .value
  | some text => .ok
      { versionVector := String.ofList text
        lastModified := String.ofList r.lastModified.isoformat
        isDeleted := if r.isDeleted then 1 else 0 }

end FileRecord

def saveFileMetadata (r : FileRecord) : EStateM SqliteError Database Unit := fun db ↦
  match r.columns with
  | .error e => .error e db
  | .ok row =>
      (r.chunks.forM fun chunk ↦ Database.insertChunk (chunk.columns r.filePath)).run
        ((db.replaceFile r.filePath row).deleteChunks r.filePath)

/-! ## Reading -/

/-- What SQLite leaves open: the order of rows with equal indices, and that of the rows of
a query without `ORDER BY`. -/
structure QueryOrder where
  byIndex : List ChunksColumns → List ChunksColumns
  paths : List String → List String
  byIndex_perm : ∀ rows, (byIndex rows).Perm rows
  byIndex_sorted : ∀ rows,
    (byIndex rows).Pairwise fun row row' ↦ row.chunkIndex ≤ row'.chunkIndex
  paths_perm : ∀ keys, (paths keys).Perm keys

/-- Everything in the order in which it was written. -/
def rowOrder : QueryOrder where
  byIndex := List.insertionSort fun row row' ↦ row.chunkIndex ≤ row'.chunkIndex
  paths := id
  byIndex_perm := List.perm_insertionSort _
  byIndex_sorted rows := by
    have : IsTrans ChunksColumns fun row row' ↦ row.chunkIndex ≤ row'.chunkIndex :=
      ⟨fun _ _ _ ↦ le_trans⟩
    have : Std.Total fun row row' : ChunksColumns ↦ row.chunkIndex ≤ row'.chunkIndex :=
      ⟨fun _ _ ↦ le_total ..⟩
    exact List.pairwise_insertionSort _ rows
  paths_perm _ := .refl _

inductive RowError where
  | json
  | time
  | chunk (error : ChunkValueError)
  deriving DecidableEq, Repr

/-- `ChunkHash(algo, val) if algo and val else None`. -/
def readHash : Option String → Option String → Except ChunkValueError (Option ChunkHash)
  | some algo, some val =>
      if algo = "" ∨ val = "" then .ok none
      else
        match ChunkAlgorithm.ofValue? algo with
        | none =>
            if parsesBase16 val then .error (.unknownAlgorithm algo)
            else .error (.notHexadecimal val)
        | some algorithm => (ChunkHash.make algorithm val).map some
  | _, _ => .ok none

def ChunksColumns.read (row : ChunksColumns) : Except ChunkValueError ChunkMetadata := do
  let chunkHash ← readHash row.hashAlgo row.hashValue
  ChunkMetadata.make row.chunkId row.chunkIndex row.size row.offset chunkHash

section Queries

variable (order : QueryOrder) (db : Database)

def readFileMetadata (path : String) : Except RowError (Option FileRecord) :=
  match db.files.lookup path with
  | none => .ok none
  | some row =>
      match loads row.versionVector.toList, DateTime.fromisoformat row.lastModified.toList,
          (order.byIndex (db.chunksOf path)).mapM ChunksColumns.read with
      | none, _, _ => .error .json
      | _, none, _ => .error .time
      | _, _, .error e => .error (.chunk e)
      | some counters, some lastModified, .ok chunks => .ok (some
          { filePath := path
            counters := dictOf counters
            lastModified
            isDeleted := row.isDeleted ≠ 0
            chunks })

def listAllFiles : Except RowError (List FileRecord) := do
  let found ← (order.paths db.files.keys).mapM (readFileMetadata order db)
  return found.filterMap id

end Queries

/-! ## Calls -/

inductive MetadataCall where
  | save (record : FileRecord)
  | get (path : String)
  | listAll
  | delete (path : String)
  deriving DecidableEq

/-- What a call leaves, when it raises too. -/
def MetadataCall.run (db : Database) : MetadataCall → Database
  | .save record =>
      match saveFileMetadata record db with
      | .ok _ later => later
      | .error _ later => later
  | .delete path => db.deleteFile path
  | .get _ | .listAll => db

def runCalls (calls : List MetadataCall) : Database := calls.foldl MetadataCall.run .empty

end SecureSync
