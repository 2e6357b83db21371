import SecureSync.Infrastructure.WireMessages
import SecureSync.Library.IsoTime
import SecureSync.Shared.PathText

/-!
# Manifests as documents

`file_chunk_repository.py` down to what it writes: manifests with the times of their
chunks and the text of their paths, the documents made of them, and one file for each
digest of a resolved path.
-/

namespace SecureSync

open IsoTime Raising

/-- What `Path(...)` makes of a text. -/
structure SourcePath (flavour : Flavour) where
  path : PurePath
  parsed : ∃ text, flavour.parse text = path
  deriving DecidableEq

def SourcePath.ofText (flavour : Flavour) (text : List Char) : SourcePath flavour :=
  ⟨flavour.parse text, text, rfl⟩

/-- The time is naive or at a fixed offset from UTC; other time zones are left out. -/
structure TimedChunk extends ChunkMetadata where
  createdAt : DateTime
  deriving DecidableEq

def metadataOf (chunks : List TimedChunk) : List ChunkMetadata :=
  chunks.map TimedChunk.toChunkMetadata

/-- `ChunkCollection` with the times of its chunks. -/
structure TimedCollection (flavour : Flavour) where
  sourcePath : SourcePath flavour
  chunkSize : ℕ
  totalSize : ℕ
  chunks : List TimedChunk
  wellFormed : ManifestWellFormed chunkSize totalSize (metadataOf chunks)
  deriving DecidableEq

/-! ## Documents -/

namespace TimedChunk

/-- `_metadata_to_dict`. -/
def metadataToDict (metadata : TimedChunk) : PyValue :=
  .dict [field "chunk_id" (.str metadata.chunkId), field "index" (.int metadata.index),
    field "size" (.int metadata.size), field "offset" (.int metadata.offset),
    field "chunk_hash" (orNone ChunkHash.toDict metadata.chunkHash),
    field "created_at" (.str (String.ofList metadata.createdAt.isoformat))]

end TimedChunk

variable {flavour : Flavour}

def collectionToDict (collection : TimedCollection flavour) : PyValue :=
  .dict [field "source_path" (.str (String.ofList (flavour.text collection.sourcePath.path))),
    field "chunk_size" (.int collection.chunkSize), field "total_size" (.int collection.totalSize),
    field "chunks" (.list (collection.chunks.map TimedChunk.metadataToDict))]

inductive CollectionError where
  | payload (error : PayloadError)
  | chunkSizeNotPositive (chunkSize : ℤ)
  | negativeTotal (totalSize : ℤ)
  | notContiguous (expected actual : ℕ)
  | totalSize (actual : ℕ) (declared : ℤ)
  deriving DecidableEq, Repr

/-- The first chunk that is not at its place. -/
def firstGap : ℕ → List TimedChunk → Option (ℕ × ℕ)
  | _, [] => none
  | expected, chunk :: chunks =>
      if chunk.index ≠ expected then some (expected, chunk.index)
      else firstGap (expected + 1) chunks

/-- `ChunkCollection(...)` on numbers that may still be negative. -/
def TimedCollection.make (sourcePath : SourcePath flavour) (chunkSize totalSize : ℤ)
    (chunks : List TimedChunk) : Except CollectionError (TimedCollection flavour) :=
  if h : 0 ≤ totalSize ∧
      ManifestWellFormed chunkSize.toNat totalSize.toNat (metadataOf chunks) then
    .ok ⟨sourcePath, chunkSize.toNat, totalSize.toNat, chunks, h.2⟩
  else if chunkSize ≤ 0 then .error (.chunkSizeNotPositive chunkSize)
  else if totalSize < 0 then .error (.negativeTotal totalSize)
  else
    match firstGap 0 chunks with
    | some (expected, actual) => .error (.notContiguous expected actual)
    | none => .error (.totalSize (chunks.map fun chunk ↦ chunk.size).sum totalSize)

/-! ### Reading

A value of another type than the one declared for its field ends in `TypeError`; the
source lets some of them through. -/

namespace PyValue

/-- `value[name]`. -/
def item (name : String) : PyValue → Except PayloadError PyValue
  | .dict entries => PyDict.getItem entries name
  | _ => .error .type

def asStr : PyValue → Except PayloadError String
  | .str s => .ok s
  | _ => .error .type

def asInt : PyValue → Except PayloadError ℤ
  | .int n => .ok n
  | .bool b => .ok (if b then 1 else 0)
  | _ => .error .type

def asList : PyValue → Except PayloadError (List PyValue)
  | .list items => .ok items
  | _ => .error .type

/-- `ChunkAlgorithm(value)`. -/
def asAlgorithm : PyValue → Except PayloadError ChunkAlgorithm
  | .str value =>
      match ChunkAlgorithm.ofValue? value with
      | .none => .error (.chunk (.unknownAlgorithm value))
      | some algorithm => .ok algorithm
  | _ => .error .value

/-- `datetime.fromisoformat(value)`. -/
def asTime : PyValue → Except PayloadError DateTime
  | .str s =>
      match DateTime.fromisoformat s.toList with
      | .none => .error .value
      | some t => .ok t
  | _ => .error .type

end PyValue

def hashFromDict : PyValue → Except PayloadError (Option ChunkHash)
  | .none => .ok none
  | payload => do
      let algorithm ← (← payload.item "algorithm").asAlgorithm
      let digest ← (← payload.item "digest").asStr
      let chunkHash ← (ChunkHash.make algorithm digest).mapError .chunk
      return some chunkHash

/-- `_metadata_from_dict`. -/
def metadataFromDict (payload : PyValue) : Except PayloadError TimedChunk := do
  let chunkHash ← hashFromDict (← payload.item "chunk_hash")
  let chunkId ← (← payload.item "chunk_id").asStr
  let index ← (← payload.item "index").asInt
  let size ← (← payload.item "size").asInt
  let offset ← (← payload.item "offset").asInt
  let createdAt ← (← payload.item "created_at").asTime
  let metadata ← (ChunkMetadata.make chunkId index size offset chunkHash).mapError .chunk
  return { toChunkMetadata := metadata, createdAt }

/-- The arguments of the manifest in `collection_from_dict`. -/
def partsFromDict (flavour : Flavour) (payload : PyValue) :
    Except PayloadError (SourcePath flavour × ℤ × ℤ × List TimedChunk) := do
  let chunksPayload ← payload.item "chunks"
  let sourcePath ← (← payload.item "source_path").asStr
  let chunkSize ← (← payload.item "chunk_size").asInt
  let totalSize ← (← payload.item "total_size").asInt
  let chunks ← (← chunksPayload.asList).mapM metadataFromDict
  return (.ofText flavour sourcePath.toList, chunkSize, totalSize, chunks)

def collectionFromDict (flavour : Flavour) (payload : PyValue) :
    Except CollectionError (TimedCollection flavour) := do
  let (sourcePath, chunkSize, totalSize, chunks) ←
    (partsFromDict flavour payload).mapError .payload
  TimedCollection.make sourcePath chunkSize totalSize chunks

/-! ## Files -/

/-- `orjson` or `msgpack`; `dumps` raises on what the format does not hold. -/
structure DocumentCodec where
  dumps : PyValue → Option Bytes
  loads : Bytes → Option PyValue

abbrev StorageDir := String → Option Bytes

/-- The name of a manifest in the storage directory. -/
def manifestName (sha256 : String → String) (location : String) : String :=
  sha256 location ++ ".json"

/-- A call of `save`, with what `Path.resolve` makes of its path and whether the file system
raises `OSError` before the manifest is renamed into place.  A path that cannot be resolved,
or whose location has no UTF-8 form, ends the call. -/
structure SaveCall (flavour : Flavour) where
  collection : TimedCollection flavour
  resolve : PurePath → Option String
  diskFails : Bool

def SaveCall.location (call : SaveCall flavour) : Option String :=
  call.resolve call.collection.sourcePath.path

section Repository

variable (codec : DocumentCodec) (sha256 : String → String)

/-- `FileChunkRepository.save`, when it raises too. -/
def SaveCall.run (disk : StorageDir) (call : SaveCall flavour) : StorageDir :=
  match call.location, codec.dumps (collectionToDict call.collection) with
  | some location, some document =>
      if call.diskFails then disk
      else Function.update disk (manifestName sha256 location) (some document)
  | _, _ => disk

def runSaves (calls : List (SaveCall flavour)) : StorageDir :=
  calls.foldl (SaveCall.run codec sha256) fun _ ↦ none

inductive LoadError where
  | unresolved
  | document
  | manifest (error : CollectionError)
  deriving DecidableEq, Repr

/-- `FileChunkRepository.load`; `unresolved` is also a location without a UTF-8 form. -/
def loadManifest (flavour : Flavour) (resolve : PurePath → Option String) (disk : StorageDir)
    (path : PurePath) : Except LoadError (Option (TimedCollection flavour)) :=
  match resolve path with
  | none => .error .unresolved
  | some location =>
      match disk (manifestName sha256 location) with
      | none => .ok none
      | some bytes =>
          match codec.loads bytes with
          | none => .error .document
          | some payload => ((collectionFromDict flavour payload).mapError .manifest).map some

end Repository

end SecureSync
