import SecureSync.Application.ReceivePushedFiles
import SecureSync.Core.Payload
import SecureSync.Infrastructure.SecureChannel

/-!
# Pushes off the wire

`receive_pushes` of `tcp_transport.py`: the conversion of a payload to a push,
every part of which may raise.
-/

namespace SecureSync

open Raising

/-- A `Chunk` whose data may be of any type that has a length. -/
structure WireChunk where
  metadata : ChunkMetadata
  data : PyValue
  size_eq : data.size = .ok metadata.size

def WireChunk.make (metadata : ChunkMetadata) (data : PyValue) : Except PayloadError WireChunk :=
  match h : data.size with
  | .error e => .error e
  | .ok length =>
      if hlength : length = metadata.size then .ok ⟨metadata, data, by rw [h, hlength]⟩
      else .error (.chunk (.dataLength length metadata.size))

/-- An `IncomingPush`, with a vector whose entries may be of any type. -/
structure PushMessage where
  relativePath : String
  totalChunks : ℤ
  chunk : WireChunk
  versionCounters : Option PyDict

/-- `ChunkAlgorithm(value)`. -/
def algorithmOf : PyValue → Except PayloadError ChunkAlgorithm
  | .str value =>
      match ChunkAlgorithm.ofValue? value with
      | none => .error (.chunk (.unknownAlgorithm value))
      | some algorithm => .ok algorithm
  | _ => .error .value

section Conversions

variable (builtins : Builtins) (payload : PyDict)

def hashFromPayload : Except PayloadError (Option ChunkHash) :=
  match payload.given? "hash_algorithm" with
  | none => .ok none
  | some value => do
      let algorithm ← algorithmOf value
      let digest ← payload.getItem "hash_digest"
      let chunkHash ← (ChunkHash.make algorithm (builtins.str digest)).mapError .chunk
      return some chunkHash

def intField (name : String) : Except PayloadError ℤ := do
  let value ← payload.getItem name
  builtins.int value

/-- `_chunk_from_payload`. -/
def wireChunkFromPayload : Except PayloadError WireChunk := do
  let chunkHash ← hashFromPayload builtins payload
  let chunkId ← payload.getItem "chunk_id"
  let index ← intField builtins payload "index"
  let size ← intField builtins payload "size"
  let offset ← intField builtins payload "offset"
  let metadata ← (ChunkMetadata.make (builtins.str chunkId) index size offset chunkHash).mapError
    .chunk
  let data ← payload.getItem "data"
  WireChunk.make metadata data

def countersFromPayload : Except PayloadError (Option PyDict) :=
  match payload.given? "version_counters" with
  | none => .ok none
  | some value => do
      let entries ← value.toDict
      return some entries

def pushFromDict : Except PayloadError PushMessage := do
  let relativePath ← payload.getItem "relative_path"
  let totalChunks ← intField builtins payload "total_chunks"
  let chunk ← wireChunkFromPayload builtins payload
  let versionCounters ← countersFromPayload payload
  return ⟨builtins.str relativePath, totalChunks, chunk, versionCounters⟩

end Conversions

/-- The conversion of a payload in `receive_pushes`. -/
def pushFromPayload (builtins : Builtins) : PyValue → Except PayloadError PushMessage
  | .dict payload => pushFromDict builtins payload
  | _ => .error .attribute

/-! ## Payloads that are pushes -/

/-- The payload has an integer under this name, or a text that spells one. -/
def HasInt (builtins : Builtins) (payload : PyDict) (name : String) (n : ℤ) : Prop :=
  ∃ value, payload.get? name = some value ∧ builtins.int value = .ok n

/-- What the payload says of the digest of the chunk. -/
def DeclaresHash (builtins : Builtins) (payload : PyDict) (chunkHash : Option ChunkHash) : Prop :=
  match payload.given? "hash_algorithm", chunkHash with
  | none, none => True
  | some value, some chunkHash =>
      (∃ name, value = .str name ∧ ChunkAlgorithm.ofValue? name = some chunkHash.algorithm) ∧
        ∃ digest, payload.get? "hash_digest" = some digest ∧
          builtins.str digest = chunkHash.digest
  | none, some _ | some _, none => False

def DeclaresCounters (payload : PyDict) (counters : Option PyDict) : Prop :=
  match payload.given? "version_counters", counters with
  | none, none => True
  | some value, some counters => value.toDict = .ok counters
  | none, some _ | some _, none => False

/-- Every field of the push is there and has the form that it is read in. -/
structure IsPush (builtins : Builtins) (payload : PyDict) (push : PushMessage) : Prop where
  relativePath : ∃ value, payload.get? "relative_path" = some value ∧
    builtins.str value = push.relativePath
  totalChunks : HasInt builtins payload "total_chunks" push.totalChunks
  chunkHash : DeclaresHash builtins payload push.chunk.metadata.chunkHash
  chunkId : ∃ value, payload.get? "chunk_id" = some value ∧
    builtins.str value = push.chunk.metadata.chunkId
  index : HasInt builtins payload "index" push.chunk.metadata.index
  size : HasInt builtins payload "size" push.chunk.metadata.size
  offset : HasInt builtins payload "offset" push.chunk.metadata.offset
  data : payload.get? "data" = some push.chunk.data
  counters : DeclaresCounters payload push.versionCounters

section Spec

variable {builtins : Builtins} {payload : PyDict}

theorem intField_eq_ok {name : String} {n : ℤ} :
    intField builtins payload name = .ok n ↔ HasInt builtins payload name n := by
  simp only [intField, except_bind_eq_ok, PyDict.getItem_eq_ok, HasInt]

theorem algorithmOf_eq_ok {value : PyValue} {algorithm : ChunkAlgorithm} :
    algorithmOf value = .ok algorithm ↔
      ∃ name, value = .str name ∧ ChunkAlgorithm.ofValue? name = some algorithm := by
  cases value with
  | str name => cases h : ChunkAlgorithm.ofValue? name <;> simp [algorithmOf, h]
  | _ => simp [algorithmOf]

theorem hashFromPayload_eq_ok {chunkHash : Option ChunkHash} :
    hashFromPayload builtins payload = .ok chunkHash ↔ DeclaresHash builtins payload chunkHash := by
  unfold hashFromPayload DeclaresHash
  cases payload.given? "hash_algorithm" with
  | none => cases chunkHash <;> simp
  | some value =>
      simp only [except_bind_eq_ok, except_mapError_eq_ok, PyDict.getItem_eq_ok, algorithmOf_eq_ok]
      cases chunkHash with
      | none =>
          refine iff_of_false ?_ id
          rintro ⟨_, -, _, -, _, -, h⟩
          cases h
      | some chunkHash =>
          constructor
          · rintro ⟨algorithm, halgorithm, digest, hdigest, made, hmake, hreturn⟩
            obtain ⟨heq, hmade⟩ := ChunkHash.make_eq_ok.mp hmake
            obtain rfl := Option.some.inj (Except.ok.inj hreturn)
            exact ⟨heq ▸ halgorithm, digest, hdigest, hmade.symm⟩
          · rintro ⟨halgorithm, digest, hdigest, hdigest'⟩
            exact ⟨_, halgorithm, digest, hdigest, chunkHash,
              ChunkHash.make_eq_ok.mpr ⟨rfl, hdigest'.symm⟩, rfl⟩

theorem countersFromPayload_eq_ok {counters : Option PyDict} :
    countersFromPayload payload = .ok counters ↔ DeclaresCounters payload counters := by
  unfold countersFromPayload DeclaresCounters
  cases payload.given? "version_counters" with
  | none => cases counters <;> simp
  | some value =>
      simp only [except_bind_eq_ok]
      cases counters with
      | none =>
          refine iff_of_false ?_ id
          rintro ⟨_, -, h⟩
          cases h
      | some counters =>
          constructor
          · rintro ⟨entries, hentries, hreturn⟩
            obtain rfl := Option.some.inj (Except.ok.inj hreturn)
            exact hentries
          · intro h
            exact ⟨counters, h, rfl⟩

theorem WireChunk.make_eq_ok {metadata : ChunkMetadata} {data : PyValue} {chunk : WireChunk} :
    WireChunk.make metadata data = .ok chunk ↔ metadata = chunk.metadata ∧ data = chunk.data := by
  obtain ⟨metadata', data', hsize⟩ := chunk
  unfold WireChunk.make
  split
  case h_1 e herror =>
    refine iff_of_false nofun ?_
    rintro ⟨rfl, rfl⟩
    rw [hsize] at herror
    cases herror
  case h_2 length hlength =>
    split_ifs with heq
    · simp
    · refine iff_of_false nofun ?_
      rintro ⟨rfl, rfl⟩
      rw [hsize] at hlength
      exact heq (Except.ok.inj hlength).symm

/-- A payload is read exactly when it is a push. -/
theorem pushFromDict_eq_ok {push : PushMessage} :
    pushFromDict builtins payload = .ok push ↔ IsPush builtins payload push := by
  simp only [pushFromDict, wireChunkFromPayload, except_bind_eq_ok, except_mapError_eq_ok,
    PyDict.getItem_eq_ok, intField_eq_ok, hashFromPayload_eq_ok, countersFromPayload_eq_ok,
    ChunkMetadata.make_eq_ok, WireChunk.make_eq_ok]
  constructor
  · rintro ⟨relativePath, hpath, totalChunks, htotal, chunk, ⟨chunkHash, hhash, chunkId, hid, index,
      hindex, size, hsize, offset, hoffset, metadata, ⟨hid', rfl, rfl, rfl, rfl⟩, data, hdata, rfl,
      rfl⟩, counters, hcounters, hreturn⟩
    obtain rfl := Except.ok.inj hreturn
    exact ⟨⟨relativePath, hpath, rfl⟩, htotal, hhash, ⟨chunkId, hid, hid'⟩, hindex, hsize, hoffset,
      hdata, hcounters⟩
  · intro h
    obtain ⟨relativePath, hpath, hpath'⟩ := h.relativePath
    obtain ⟨chunkId, hid, hid'⟩ := h.chunkId
    refine ⟨relativePath, hpath, _, h.totalChunks, push.chunk,
      ⟨_, h.chunkHash, chunkId, hid, _, h.index, _, h.size, _, h.offset, push.chunk.metadata,
        ⟨hid', rfl, rfl, rfl, rfl⟩, push.chunk.data, h.data, rfl, rfl⟩, _, h.counters, ?_⟩
    rw [hpath']
    rfl

theorem pushFromPayload_eq_ok {value : PyValue} {push : PushMessage} :
    pushFromPayload builtins value = .ok push ↔
      ∃ payload, value = .dict payload ∧ IsPush builtins payload push := by
  cases value with
  | dict payload => simp [pushFromPayload, pushFromDict_eq_ok]
  | _ => simp [pushFromPayload]

end Spec

/-! ## Pushes of the declared types -/

def WireChunk.typed? (chunk : WireChunk) : Option Chunk :=
  match h : chunk.data with
  | .bytes bs => some ⟨chunk.metadata, bs, by simpa [h, PyValue.size] using chunk.size_eq⟩
  | _ => none

def PushMessage.vector? (push : PushMessage) : Option (Option VersionVector) :=
  match push.versionCounters with
  | none => some none
  | some entries => entries.vector?.map some

/-- The push, when its data is bytes and its vector maps names to integers. -/
def PushMessage.typed? (push : PushMessage) : Option IncomingPush := do
  let chunk ← push.chunk.typed?
  let versionVector ← push.vector?
  return ⟨push.relativePath, push.totalChunks, chunk, versionVector⟩

end SecureSync
