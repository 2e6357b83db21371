import SecureSync.Application.HashChunks
import SecureSync.Domain.Metadata
import SecureSync.Infrastructure.LocalFileReconstructor
import SecureSync.Shared.SafePath

/-!
# Manifest exchange

The port of `domain/manifest_exchange.py`, the store that manifests are served
from, and the two answers of `tcp_manifest_exchange.py` with their decoding.
Sealing, framing and the sockets between the two sides are left out.
-/

namespace SecureSync

structure ManifestWithVersion where
  collection : ChunkCollection
  version : Option VersionVector
  deriving DecidableEq

structure Peer where
  deviceId : DeviceId
  ipAddress : String
  deriving DecidableEq, Repr

/-! ## The chunk repository -/

/-- `FileChunkRepository`: one manifest for each resolved path. -/
abbrev ChunkRepository := FilePath → Option ChunkCollection

def ChunkRepository.save (R : Resolver) (collection : ChunkCollection)
    (repository : ChunkRepository) : ChunkRepository :=
  Function.update repository (R.resolve collection.sourcePath) (some collection)

def ChunkRepository.load (R : Resolver) (sourcePath : FilePath) (repository : ChunkRepository) :
    Option ChunkCollection :=
  repository (R.resolve sourcePath)

/-! ## The answering side -/

/-- One entry of a chunk response; its integers may be negative. -/
structure ChunkPayload where
  chunkId : String
  index : ℤ
  size : ℤ
  offset : ℤ
  hashAlgorithm : String
  hashDigest : String
  data : Bytes
  deriving DecidableEq, Repr

structure ManifestResponse where
  found : Bool
  collection : Option ChunkCollection
  version : Option VersionVector
  deriving DecidableEq

inductive ServeError where
  | unsafePath (error : UnsafePathError)
  | fileMissing (path : FilePath)
  deriving DecidableEq, Repr

/-- What `TcpManifestExchangeTransport` answers from. -/
structure ManifestServer where
  resolver : Resolver
  syncRoot : FilePath
  repository : ChunkRepository
  files : FilePath → Option Bytes
  metadataLookup : Option MetadataStore := none

namespace ManifestServer

variable (server : ManifestServer) (relativePath : String)

def safeResolve : Except ServeError FilePath :=
  (resolveWithin server.resolver server.syncRoot relativePath).mapError .unsafePath

def resolveVersion : Option VersionVector :=
  match server.metadataLookup with
  | none => none
  | some lookup => (lookup relativePath).map FileMetadata.versionVector

def buildManifestResponse : Except ServeError ManifestResponse := do
  let resolved ← server.safeResolve relativePath
  let collection := server.repository.load server.resolver resolved
  let version := server.resolveVersion relativePath
  return ⟨collection.isSome, collection, version⟩

/-- The entry for one chunk of the stored manifest: its bytes are read from the
live file, at the recorded offset. -/
def chunkPayload (requestedHashes : List String) (bytes : Bytes) (metadata : ChunkMetadata) :
    Option ChunkPayload :=
  match metadata.chunkHash with
  | none => none
  | some chunkHash =>
      if chunkHash.digest ∉ requestedHashes then none
      else some
        { chunkId := metadata.chunkId
          index := metadata.index
          size := metadata.size
          offset := metadata.offset
          hashAlgorithm := chunkHash.algorithm.value
          hashDigest := chunkHash.digest
          data := (bytes.drop metadata.offset).take metadata.size }

def buildChunkResponse (requestedHashes : List String) : Except ServeError (List ChunkPayload) := do
  let localPath ← server.safeResolve relativePath
  match server.repository.load server.resolver localPath with
  | none => return []
  | some collection =>
      match server.files localPath with
      | none => throw (.fileMissing localPath)
      | some bytes => return collection.chunks.filterMap (chunkPayload requestedHashes bytes)

end ManifestServer

/-! ## The requesting side -/

inductive ExchangeError where
  | connectionLost
  | malformedChunk (error : ChunkValueError)
  deriving DecidableEq, Repr

/-- `_chunk_from_payload`. -/
def chunkFromPayload (payload : ChunkPayload) : Except ChunkValueError Chunk := do
  let algorithm ← match ChunkAlgorithm.ofValue? payload.hashAlgorithm with
    | none => throw (.unknownAlgorithm payload.hashAlgorithm)
    | some algorithm => pure algorithm
  let chunkHash ← ChunkHash.make algorithm payload.hashDigest
  let metadata ← ChunkMetadata.make payload.chunkId payload.index payload.size payload.offset
    (some chunkHash)
  Chunk.make metadata payload.data

/-- The chunks yielded before the first entry that does not decode. -/
def decodeChunks : List ChunkPayload → List Chunk × Option ExchangeError
  | [] => ([], none)
  | payload :: payloads =>
      match chunkFromPayload payload with
      | .error error => ([], some (.malformedChunk error))
      | .ok chunk => (chunk :: (decodeChunks payloads).1, (decodeChunks payloads).2)

/-- The `ManifestExchangeTransport` port.  `W` is everything outside this
device, which a request may change. -/
structure ManifestExchange (W : Type) where
  requestManifest : Peer → String → EStateM ExchangeError W (Option ManifestWithVersion)
  requestChunks : Peer → String → List String → W → (List Chunk × Option ExchangeError) × W

def ManifestServer.exchange (server : ManifestServer) (W : Type) : ManifestExchange W where
  requestManifest _ relativePath := fun w ↦
    match server.buildManifestResponse relativePath with
    | .error _ => .error .connectionLost w
    | .ok response =>
        .ok (if response.found then
            response.collection.map fun collection ↦ ⟨collection, response.version⟩
          else none) w
  requestChunks _ relativePath chunkHashes w :=
    match server.buildChunkResponse relativePath chunkHashes with
    | .error _ => (([], some .connectionLost), w)
    | .ok payloads => (decodeChunks payloads, w)

/-! ## What decoding keeps -/

theorem chunkFromPayload_eq_ok {payload : ChunkPayload} {chunk : Chunk}
    (h : chunkFromPayload payload = .ok chunk) :
    chunk.metadata.offset = payload.offset ∧ chunk.metadata.size = payload.size ∧
      chunk.data = payload.data ∧
      chunk.metadata.chunkHash.map ChunkHash.digest = some payload.hashDigest := by
  unfold chunkFromPayload at h
  cases halg : ChunkAlgorithm.ofValue? payload.hashAlgorithm with
  | none => simp [halg, bind, Except.bind] at h
  | some algorithm =>
      simp only [halg, pure, Except.pure, bind, Except.bind] at h
      cases hhash : ChunkHash.make algorithm payload.hashDigest with
      | error e => simp [hhash] at h
      | ok chunkHash =>
          simp only [hhash] at h
          cases hmeta : ChunkMetadata.make payload.chunkId payload.index payload.size
              payload.offset (some chunkHash) with
          | error e => simp [hmeta] at h
          | ok metadata =>
              simp only [hmeta] at h
              have hdigest : chunkHash.digest = payload.hashDigest := by
                unfold ChunkHash.make at hhash
                split_ifs at hhash
                cases hhash
                rfl
              unfold Chunk.make at h
              unfold ChunkMetadata.make at hmeta
              split_ifs at hmeta with hid hindex hsize hoffset
              cases hmeta
              split_ifs at h
              cases h
              simp only [Option.map_some, hdigest, and_self, and_true]
              constructor <;> omega

theorem chunkFromPayload_of_digest (chunkHash : ChunkHash) (offset : ℕ) :
    ∃ chunk, chunkFromPayload ⟨"x", 0, 0, offset, "sha256", chunkHash.digest, []⟩ = .ok chunk ∧
      chunk.metadata.offset = offset := by
  obtain ⟨⟨⟩, digest, hdigest⟩ := chunkHash
  have hoffset : ¬ (offset : ℤ) < 0 := by omega
  refine ⟨⟨⟨"x", 0, 0, offset, some ⟨.sha256, digest, hdigest⟩, by decide⟩, [], rfl⟩, ?_, rfl⟩
  simp [chunkFromPayload, ChunkAlgorithm.ofValue?, ChunkHash.make, hdigest, ChunkMetadata.make,
    hoffset, Chunk.make, bind, Except.bind, pure, Except.pure]

theorem map_piece_decodeChunks {payloads : List ChunkPayload}
    (h : (decodeChunks payloads).2 = none) :
    (decodeChunks payloads).1.map Chunk.piece =
      payloads.map fun payload ↦ ⟨payload.offset.toNat, payload.data⟩ := by
  induction payloads with
  | nil => rfl
  | cons payload payloads ih =>
      cases hp : chunkFromPayload payload with
      | error e => simp [decodeChunks, hp] at h
      | ok chunk =>
          simp only [decodeChunks, hp] at h ⊢
          obtain ⟨hoffset, -, hdata, -⟩ := chunkFromPayload_eq_ok hp
          rw [List.map_cons, List.map_cons, ih h, Chunk.piece, hdata, ← hoffset, Int.toNat_natCast]

/-! ## An honest server -/

namespace ManifestServer

variable {server : ManifestServer} {W : Type} {relativePath : String} {peerPath : FilePath}
  {collection : ChunkCollection}

theorem safeResolve_eq_ok :
    server.safeResolve relativePath = .ok peerPath ↔
      resolveWithin server.resolver server.syncRoot relativePath = .ok peerPath := by
  unfold safeResolve
  cases resolveWithin server.resolver server.syncRoot relativePath <;> simp [Except.mapError]

theorem buildManifestResponse_eq_ok {response : ManifestResponse}
    (h : server.buildManifestResponse relativePath = .ok response) (hfound : response.found) :
    ∃ path collection, server.safeResolve relativePath = .ok path ∧
      server.repository path = some collection ∧ response.collection = some collection := by
  unfold buildManifestResponse at h
  cases hpath : server.safeResolve relativePath with
  | error e =>
      rw [hpath] at h
      cases h
  | ok path =>
      rw [hpath] at h
      cases h
      obtain ⟨collection, hload⟩ := Option.isSome_iff_exists.mp hfound
      have hresolved := resolve_of_resolveWithin (safeResolve_eq_ok.mp hpath)
      rw [ChunkRepository.load, hresolved] at hload
      refine ⟨path, collection, rfl, hload, ?_⟩
      rw [ChunkRepository.load, hresolved, hload]

theorem requestManifest_exchange (hpath : server.safeResolve relativePath = .ok peerPath)
    (hload : server.repository.load server.resolver peerPath = some collection) (peer : Peer)
    (w : W) :
    (server.exchange W).requestManifest peer relativePath w =
      .ok (some ⟨collection, server.resolveVersion relativePath⟩) w := by
  simp only [exchange, buildManifestResponse, hpath, hload, bind, Except.bind, pure, Except.pure,
    Option.isSome_some, if_true, Option.map_some]

/-- What it returns are the requested chunks of that manifest, each with the
bytes that the file has there. -/
theorem requestChunks_exchange {content : Bytes}
    (hpath : server.safeResolve relativePath = .ok peerPath)
    (hload : server.repository.load server.resolver peerPath = some collection)
    (hfile : server.files peerPath = some content) (peer : Peer) (hashes : List String) (w : W)
    (h : ((server.exchange W).requestChunks peer relativePath hashes w).1.2 = none) :
    ((server.exchange W).requestChunks peer relativePath hashes w).1.1.map Chunk.piece =
      (collection.chunks.filter fun m ↦ m.chunkHash.any fun k ↦ k.digest ∈ hashes).map fun m ↦
        ⟨m.offset, (content.drop m.offset).take m.size⟩ := by
  have hanswer : server.buildChunkResponse relativePath hashes =
      .ok (collection.chunks.filterMap (chunkPayload hashes content)) := by
    simp only [buildChunkResponse, hpath, hload, hfile, bind, Except.bind, pure, Except.pure]
  simp only [exchange, hanswer] at h ⊢
  rw [map_piece_decodeChunks h]
  generalize collection.chunks = metadata
  induction metadata with
  | nil => rfl
  | cons m metadata ih =>
      cases hm : m.chunkHash with
      | none => simpa [chunkPayload, hm] using ih
      | some chunkHash =>
          by_cases hmem : chunkHash.digest ∈ hashes
          · simpa [chunkPayload, hm, hmem] using ih
          · simpa [chunkPayload, hm, hmem] using ih

end ManifestServer
end SecureSync
