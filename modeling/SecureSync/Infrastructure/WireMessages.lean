import SecureSync.Application.ReceivePushedFiles
import SecureSync.Core.PackedValues
import SecureSync.Infrastructure.ManifestExchange
import SecureSync.Infrastructure.MessageIo
import SecureSync.Infrastructure.SecureChannel

/-!
# What the transports write

The payloads of `tcp_manifest_exchange.py`, `file_chunk_repository.py` and
`send_chunk` in `tcp_transport.py`, sealed and put on a connection.
-/

namespace SecureSync

open BigEndian MessagePack Raising

/-- `str(path)`, `created_at.isoformat()`, and the order of a `dict`, which the records of
this development leave out. -/
structure WireTexts where
  pathText : FilePath → String
  createdAt : ChunkMetadata → String
  listing : Counters → List (Sigma fun _ : DeviceId ↦ ℤ)
  coe_listing : ∀ counters, (listing counters : Multiset _) = counters.entries

/-! ## Payloads -/

def field (name : String) (value : PyValue) : PyValue × PyValue := (.str name, value)

def orNone {α : Type} (toPy : α → PyValue) : Option α → PyValue
  | none => .none
  | some a => toPy a

/-- One entry of `chunks_payload`. -/
def ChunkPayload.toDict (payload : ChunkPayload) : PyValue :=
  .dict [field "chunk_id" (.str payload.chunkId), field "index" (.int payload.index),
    field "size" (.int payload.size), field "offset" (.int payload.offset),
    field "hash_algorithm" (.str payload.hashAlgorithm),
    field "hash_digest" (.str payload.hashDigest), field "data" (.bytes payload.data)]

def chunkResponse (payloads : List ChunkPayload) : PyValue :=
  .dict [field "chunks" (.list (payloads.map ChunkPayload.toDict))]

def ChunkHash.toDict (chunkHash : ChunkHash) : PyValue :=
  .dict [field "algorithm" (.str chunkHash.algorithm.value), field "digest" (.str chunkHash.digest)]

namespace WireTexts

variable (texts : WireTexts)

/-- `_metadata_to_dict`. -/
def metadataToDict (metadata : ChunkMetadata) : PyValue :=
  .dict [field "chunk_id" (.str metadata.chunkId), field "index" (.int metadata.index),
    field "size" (.int metadata.size), field "offset" (.int metadata.offset),
    field "chunk_hash" (orNone ChunkHash.toDict metadata.chunkHash),
    field "created_at" (.str (texts.createdAt metadata))]

def collectionToDict (collection : ChunkCollection) : PyValue :=
  .dict [field "source_path" (.str (texts.pathText collection.sourcePath)),
    field "chunk_size" (.int collection.chunkSize), field "total_size" (.int collection.totalSize),
    field "chunks" (.list (collection.chunks.map texts.metadataToDict))]

def countersToDict (version : VersionVector) : PyValue :=
  .dict ((texts.listing version.counters).map fun entry ↦ field entry.1 (.int entry.2))

def manifestResponse (response : ManifestResponse) : PyValue :=
  .dict [field "found" (.bool response.found),
    field "collection" (orNone texts.collectionToDict response.collection),
    field "version" (orNone (fun version ↦ .dict [field "counters" (texts.countersToDict version)])
      response.version)]

/-- The payload of `send_chunk`. -/
def pushPayload (incoming : IncomingPush) : PyValue :=
  .dict [field "chunk_id" (.str incoming.chunk.metadata.chunkId),
    field "index" (.int incoming.chunk.metadata.index),
    field "size" (.int incoming.chunk.metadata.size),
    field "offset" (.int incoming.chunk.metadata.offset),
    field "hash_algorithm" (orNone (fun chunkHash ↦ .str chunkHash.algorithm.value)
      incoming.chunk.metadata.chunkHash),
    field "hash_digest" (orNone (fun chunkHash ↦ .str chunkHash.digest)
      incoming.chunk.metadata.chunkHash),
    field "data" (.bytes incoming.chunk.data), field "relative_path" (.str incoming.relativePath),
    field "total_chunks" (.int incoming.totalChunks),
    field "version_counters" (orNone texts.countersToDict incoming.versionVector)]

end WireTexts

/-! ## Writing -/

namespace SecureChannel

variable (channel : SecureChannel PyValue)

/-- The frame that `seal` returns; `packb` may raise as well. -/
def sealed? (packetType : PacketType) (payload : PyValue) (clock : ChannelClock)
    (session : PeerSession) : Option Bytes :=
  if payload.packable then
    match channel.seal packetType payload clock session with
    | .ok frame _ => some frame
    | .error _ _ => none
  else none

def envelope (frame : Bytes) : PyValue := .dict [field "envelope" (.bytes frame)]

/-- `_write_message`, with the envelope of a frame. -/
def writeEnvelope? (frame : Bytes) : Option Bytes :=
  if (envelope frame).packable then writeMessage? (channel.msgpack.packb (envelope frame)) else none

end SecureChannel

inductive ServedRequest where
  | manifest (relativePath : String)
  | chunks (relativePath : String) (chunkHashes : List String)
  deriving DecidableEq

/-- The body of `_handle_connection`. -/
def ManifestServer.response (server : ManifestServer) (texts : WireTexts) :
    ServedRequest → Except ServeError (PacketType × PyValue)
  | .manifest relativePath => do
      let response ← server.buildManifestResponse relativePath
      return (.fileManifest, texts.manifestResponse response)
  | .chunks relativePath chunkHashes => do
      let payloads ← server.buildChunkResponse relativePath chunkHashes
      return (.chunkData, chunkResponse payloads)

/-- What a transport puts on a connection. -/
inductive WireMessage where
  | response (server : ManifestServer) (request : ServedRequest)
  | push (incoming : IncomingPush)

/-- `none`: something raises, and the connection is closed without the message. -/
def WireMessage.write? (channel : SecureChannel PyValue) (texts : WireTexts) (clock : ChannelClock)
    (session : PeerSession) : WireMessage → Option Bytes
  | .response server request =>
      match server.response texts request with
      | .error _ => none
      | .ok (packetType, payload) =>
          (channel.sealed? packetType payload clock session).bind channel.writeEnvelope?
  | .push incoming =>
      (channel.sealed? .chunkData (texts.pushPayload incoming) clock session).bind writeMessage?

/-! ## Sizes -/

section Sizes

variable {channel : SecureChannel PyValue} {packetType : PacketType} {payload : PyValue}
  {clock : ChannelClock} {session : PeerSession} {frame written : Bytes}

/-- What the code relies on: the format of `msgpack`, and a cipher whose ciphertext is as
long as the plaintext. -/
structure SecureChannel.KeepsSize (channel : SecureChannel PyValue) : Prop where
  length_packb : ∀ value, value.packable = true →
    (channel.msgpack.packb value).length = value.packedSize
  length_ciphertext : ∀ call, (channel.cipher.run call).ciphertext.length = call.plaintext.length

theorem length_of_sealed? (hsize : channel.KeepsSize)
    (h : channel.sealed? packetType payload clock session = some frame) :
    frame.length = 71 + payload.packedSize := by
  unfold SecureChannel.sealed? at h
  split_ifs at h with hpackable
  cases hseal : channel.seal packetType payload clock session with
  | error e s =>
      rw [hseal] at h
      cases h
  | ok frame' s =>
      rw [hseal] at h
      cases h
      obtain ⟨-, -, header, call, hcall, hframe⟩ := SecureChannel.seal_eq_ok.mp hseal
      obtain ⟨front, hfront, hplaintext⟩ := except_bind_eq_ok.mp hcall.plaintext_eq
      obtain ⟨hid, hnonce, htag, rfl⟩ := encodeFrame_eq_ok.mp hframe
      have hlength : call.plaintext.length = headerSize + payload.packedSize := by
        rw [← Except.ok.inj hplaintext, List.length_append, (PacketHeader.unpack_pack hfront).1,
          hsize.length_packb _ hpackable]
      simp only [List.length_cons, List.length_append, hid, hnonce, htag,
        hsize.length_ciphertext, hlength, headerSize, sessionIdSize, nonceSize, tagSize]
      omega

theorem packedSize_envelope :
    (SecureChannel.envelope frame).packedSize =
      10 + (binHead.size frame.length + frame.length) := by
  have hsum : (SecureChannel.envelope frame).packedSize =
      1 + (9 + (binHead.size frame.length + frame.length) + 0) :=
    rfl
  omega

theorem packable_envelope :
    (SecureChannel.envelope frame).packable = true ↔ frame.length < 2 ^ 32 := by
  have hname : (PyValue.str "envelope").packable = true := by decide
  have hall : (SecureChannel.envelope frame).packable =
      (true && ((PyValue.str "envelope").packable && decide (frame.length < 2 ^ 32) && true)) :=
    rfl
  rw [hall, hname, Bool.true_and, Bool.true_and, Bool.and_true, decide_eq_true_eq]

/-- The reader at the other end gets the message. -/
def Accepted (written : Bytes) : Prop :=
  readLengthPrefixed maxMessageSize ⟨written, true⟩ =
    .ok (written.drop lengthPrefixSize) ⟨[], true⟩

theorem accepted_iff {message : Bytes} (h : writeMessage? message = some written) :
    Accepted written ↔ message.length ≤ maxMessageSize := by
  have hread : readLengthPrefixed maxMessageSize ⟨written ++ [], true⟩ = .ok message ⟨[], true⟩ ↔
      message.length ≤ maxMessageSize :=
    readLengthPrefixed_write h
  rw [← hread, List.append_nil, Accepted]
  unfold writeMessage? at h
  split_ifs at h
  obtain rfl := Option.some.inj h
  rw [List.drop_left' (length_encode ..)]

/-- A response is accepted if and only if its frame leaves room for the envelope. -/
theorem writeEnvelope?_accepted (hsize : channel.KeepsSize)
    (h : channel.writeEnvelope? frame = some written) :
    Accepted written ↔ frame.length ≤ maxMessageSize - 15 := by
  unfold SecureChannel.writeEnvelope? at h
  split_ifs at h with hpackable
  rw [accepted_iff h, hsize.length_packb _ hpackable, packedSize_envelope]
  have hfits := packable_envelope.mp hpackable
  simp only [Head.size, binHead, wideSize, maxMessageSize]
  split_ifs <;> omega

end Sizes
end SecureSync
