import SecureSync.Application.SyncFile
import SecureSync.Channel.Records
import SecureSync.Infrastructure.WireMessages

/-!
# Responses and the limit of the reader

A response carries all chunks that are asked for.  Nothing on its way compares
its size with the limit that the reader at the other end puts on a message.
-/

namespace SecureSync

open MessagePack Raising

/-! ## Sizes of the payloads -/

/-- What a payload says of a chunk in every case. -/
def ChunkMetadata.numbersSize (metadata : ChunkMetadata) : ℕ :=
  strSize metadata.chunkId + intSize metadata.index + intSize metadata.size +
    intSize metadata.offset

def ChunkHash.textSize (chunkHash : ChunkHash) : ℕ :=
  strSize chunkHash.algorithm.value + strSize chunkHash.digest

/-- A chunk with its bytes, if it is asked for; the file may end within it. -/
def ChunkMetadata.servedSize? (chunkHashes : List String) (fileLength : ℕ)
    (metadata : ChunkMetadata) : Option ℕ :=
  match metadata.chunkHash with
  | none => none
  | some chunkHash =>
      if chunkHash.digest ∉ chunkHashes then none
      else some (60 + metadata.numbersSize + chunkHash.textSize +
        binSize (min metadata.size (fileLength - metadata.offset)))

def VersionVector.countersSize (version : VersionVector) : ℕ :=
  mapHead.size (Multiset.card version.counters.entries) +
    (version.counters.entries.map fun entry ↦ strSize entry.1 + intSize entry.2).sum

namespace WireTexts

variable (texts : WireTexts)

def describedSize (metadata : ChunkMetadata) : ℕ :=
  50 + metadata.numbersSize + metadata.chunkHash.elim 1 (fun chunkHash ↦ 18 + chunkHash.textSize) +
    strSize (texts.createdAt metadata)

def collectionSize (collection : ChunkCollection) : ℕ :=
  42 + strSize (texts.pathText collection.sourcePath) + intSize collection.chunkSize +
    intSize collection.totalSize + arraySize (collection.chunks.map texts.describedSize)

end WireTexts

def IncomingPush.payloadSize (incoming : IncomingPush) : ℕ :=
  104 + incoming.chunk.metadata.numbersSize +
    incoming.chunk.metadata.chunkHash.elim 2 ChunkHash.textSize +
      binSize incoming.chunk.data.length + strSize incoming.relativePath +
        intSize incoming.totalChunks +
          incoming.versionVector.elim 1 VersionVector.countersSize

/-- A frame adds 71 bytes to its payload, and an envelope of its own up to 15 to the frame. -/
def WireMessage.Fits (texts : WireTexts) : WireMessage → Prop
  | .response server (.manifest relativePath) =>
      ∀ path, server.safeResolve relativePath = .ok path →
        27 + (server.repository.load server.resolver path).elim 1 texts.collectionSize +
          (server.resolveVersion relativePath).elim 1 (fun version ↦ 10 + version.countersSize) ≤
            maxMessageSize - 86
  | .response server (.chunks relativePath chunkHashes) =>
      ∀ path collection bytes, server.safeResolve relativePath = .ok path →
        server.repository.load server.resolver path = some collection →
          server.files path = some bytes →
            8 + arraySize (collection.chunks.filterMap
              (ChunkMetadata.servedSize? chunkHashes bytes.length)) ≤ maxMessageSize - 86
  | .push incoming => incoming.payloadSize ≤ maxMessageSize - 71

section Payloads

variable (texts : WireTexts)

theorem packedSize_orNone {α : Type} {toPy : α → PyValue} {size : α → ℕ}
    (h : ∀ a, (toPy a).packedSize = size a) (a : Option α) :
    (orNone toPy a).packedSize = a.elim 1 size := by
  cases a with
  | none => rfl
  | some a => exact h a

theorem packedSize_chunkPayload (payload : ChunkPayload) :
    payload.toDict.packedSize = 60 + (strSize payload.chunkId + intSize payload.index +
      intSize payload.size + intSize payload.offset) +
        (strSize payload.hashAlgorithm + strSize payload.hashDigest) +
          binSize payload.data.length := by
  have hsum : payload.toDict.packedSize = 1 + (9 + strSize payload.chunkId +
      (6 + intSize payload.index + (5 + intSize payload.size + (7 + intSize payload.offset +
        (15 + strSize payload.hashAlgorithm + (12 + strSize payload.hashDigest +
          (5 + binSize payload.data.length + 0))))))) :=
    rfl
  omega

theorem packedSize_chunkResponse (payloads : List ChunkPayload) :
    (chunkResponse payloads).packedSize =
      8 + arraySize (payloads.map fun payload ↦ payload.toDict.packedSize) := by
  have hsum : (chunkResponse payloads).packedSize =
      1 + (7 + (PyValue.list (payloads.map ChunkPayload.toDict)).packedSize + 0) :=
    rfl
  rw [hsum, PyValue.packedSize_list, List.map_map]
  change _ = 8 + arraySize (payloads.map (PyValue.packedSize ∘ ChunkPayload.toDict))
  omega

theorem map_packedSize_chunkPayload (chunkHashes : List String) (bytes : Bytes)
    (metadata : ChunkMetadata) :
    (ManifestServer.chunkPayload chunkHashes bytes metadata).map
        (fun payload ↦ payload.toDict.packedSize) =
      metadata.servedSize? chunkHashes bytes.length := by
  unfold ManifestServer.chunkPayload ChunkMetadata.servedSize?
  cases metadata.chunkHash with
  | none => rfl
  | some chunkHash =>
      dsimp only
      split_ifs
      · rw [Option.map_some, packedSize_chunkPayload, List.length_take, List.length_drop]
        rfl
      · rfl

theorem packedSize_counters (version : VersionVector) :
    (texts.countersToDict version).packedSize = version.countersSize := by
  unfold WireTexts.countersToDict VersionVector.countersSize
  rw [PyValue.packedSize_dict, mapSize, ← texts.coe_listing, Multiset.map_coe, Multiset.sum_coe,
    Multiset.coe_card, List.length_map, List.length_map, List.map_map]
  rfl

theorem packedSize_chunkHash (chunkHash : ChunkHash) :
    chunkHash.toDict.packedSize = 18 + chunkHash.textSize := by
  have hsum : chunkHash.toDict.packedSize =
      1 + (10 + strSize chunkHash.algorithm.value + (7 + strSize chunkHash.digest + 0)) :=
    rfl
  rw [hsum, ChunkHash.textSize]
  omega

theorem packedSize_metadata (metadata : ChunkMetadata) :
    (texts.metadataToDict metadata).packedSize = texts.describedSize metadata := by
  have hsum : (texts.metadataToDict metadata).packedSize = 1 + (9 + strSize metadata.chunkId +
      (6 + intSize metadata.index + (5 + intSize metadata.size + (7 + intSize metadata.offset +
        (11 + (orNone ChunkHash.toDict metadata.chunkHash).packedSize +
          (11 + strSize (texts.createdAt metadata) + 0)))))) :=
    rfl
  rw [hsum, packedSize_orNone packedSize_chunkHash, WireTexts.describedSize,
    ChunkMetadata.numbersSize]
  omega

theorem packedSize_collection (collection : ChunkCollection) :
    (texts.collectionToDict collection).packedSize = texts.collectionSize collection := by
  have hsum : (texts.collectionToDict collection).packedSize =
      1 + (12 + strSize (texts.pathText collection.sourcePath) +
        (11 + intSize collection.chunkSize + (11 + intSize collection.totalSize +
          (7 + (PyValue.list (collection.chunks.map texts.metadataToDict)).packedSize + 0)))) :=
    rfl
  have hchunks : collection.chunks.map (PyValue.packedSize ∘ texts.metadataToDict) =
      collection.chunks.map texts.describedSize :=
    List.map_congr_left fun metadata _ ↦ packedSize_metadata texts metadata
  rw [hsum, PyValue.packedSize_list, List.map_map, hchunks, WireTexts.collectionSize]
  omega

theorem packedSize_manifestResponse (response : ManifestResponse) :
    (texts.manifestResponse response).packedSize =
      27 + response.collection.elim 1 texts.collectionSize +
        response.version.elim 1 (fun version ↦ 10 + version.countersSize) := by
  have hsum : (texts.manifestResponse response).packedSize =
      1 + (6 + 1 + (11 + (orNone texts.collectionToDict response.collection).packedSize +
        (8 + (orNone (fun version ↦ .dict [field "counters" (texts.countersToDict version)])
          response.version).packedSize + 0))) :=
    rfl
  have hversion : ∀ version,
      (PyValue.dict [field "counters" (texts.countersToDict version)]).packedSize =
        10 + version.countersSize := by
    intro version
    rw [← packedSize_counters texts]
    have hsum : (PyValue.dict [field "counters" (texts.countersToDict version)]).packedSize =
        1 + (9 + (texts.countersToDict version).packedSize + 0) :=
      rfl
    omega
  rw [hsum, packedSize_orNone (packedSize_collection texts), packedSize_orNone hversion]
  omega

theorem packedSize_push (incoming : IncomingPush) :
    (texts.pushPayload incoming).packedSize = incoming.payloadSize := by
  have hsum : (texts.pushPayload incoming).packedSize =
      1 + (9 + strSize incoming.chunk.metadata.chunkId +
        (6 + intSize incoming.chunk.metadata.index + (5 + intSize incoming.chunk.metadata.size +
          (7 + intSize incoming.chunk.metadata.offset +
            (15 + (orNone (fun chunkHash ↦ .str chunkHash.algorithm.value)
              incoming.chunk.metadata.chunkHash).packedSize +
              (12 + (orNone (fun chunkHash ↦ .str chunkHash.digest)
                incoming.chunk.metadata.chunkHash).packedSize +
                (5 + binSize incoming.chunk.data.length +
                  (14 + strSize incoming.relativePath + (13 + intSize incoming.totalChunks +
                    (17 + (orNone texts.countersToDict
                      incoming.versionVector).packedSize + 0)))))))))) :=
    rfl
  have hhash : (orNone (fun chunkHash ↦ .str chunkHash.algorithm.value)
      incoming.chunk.metadata.chunkHash).packedSize +
        (orNone (fun chunkHash ↦ .str chunkHash.digest)
          incoming.chunk.metadata.chunkHash).packedSize =
      incoming.chunk.metadata.chunkHash.elim 2 ChunkHash.textSize := by
    cases incoming.chunk.metadata.chunkHash <;> rfl
  have hcounters : (orNone texts.countersToDict incoming.versionVector).packedSize =
      incoming.versionVector.elim 1 VersionVector.countersSize :=
    packedSize_orNone (packedSize_counters texts) _
  rw [IncomingPush.payloadSize, ChunkMetadata.numbersSize]
  omega

end Payloads

/-! ## What is written -/

section Written

variable {channel : SecureChannel PyValue} {texts : WireTexts} {clock : ChannelClock}
  {session : PeerSession} {written : Bytes}

theorem response_accepted_iff (hsize : channel.KeepsSize) {packetType : PacketType}
    {payload : PyValue}
    (h : (channel.sealed? packetType payload clock session).bind channel.writeEnvelope? =
      some written) : Accepted written ↔ payload.packedSize ≤ maxMessageSize - 86 := by
  obtain ⟨frame, hframe, hwritten⟩ := Option.bind_eq_some_iff.mp h
  rw [writeEnvelope?_accepted hsize hwritten, length_of_sealed? hsize hframe, maxMessageSize]
  omega

theorem manifest_fits_iff {server : ManifestServer} {relativePath : String}
    {answer : PacketType × PyValue}
    (h : server.response texts (.manifest relativePath) = .ok answer) :
    answer.2.packedSize ≤ maxMessageSize - 86 ↔
      (WireMessage.response server (.manifest relativePath)).Fits texts := by
  obtain ⟨response, hbuild, hreturn⟩ := except_bind_eq_ok.mp h
  obtain ⟨path, hpath, hserved⟩ := except_bind_eq_ok.mp hbuild
  cases hreturn
  cases hserved
  rw [packedSize_manifestResponse, WireMessage.Fits]
  constructor
  · intro hfits path' hpath'
    obtain rfl := Except.ok.inj (hpath.symm.trans hpath')
    exact hfits
  · exact fun hfits ↦ hfits path hpath

theorem chunks_fits_iff {server : ManifestServer} {relativePath : String}
    {chunkHashes : List String} {answer : PacketType × PyValue}
    (h : server.response texts (.chunks relativePath chunkHashes) = .ok answer) :
    answer.2.packedSize ≤ maxMessageSize - 86 ↔
      (WireMessage.response server (.chunks relativePath chunkHashes)).Fits texts := by
  obtain ⟨payloads, hbuild, hreturn⟩ := except_bind_eq_ok.mp h
  obtain ⟨path, hpath, hserved⟩ := except_bind_eq_ok.mp hbuild
  cases hreturn
  rw [packedSize_chunkResponse, WireMessage.Fits]
  cases hload : server.repository.load server.resolver path with
  | none =>
      rw [hload] at hserved
      cases hserved
      refine iff_of_true (by decide) fun path' collection bytes hpath' hload' ↦ ?_
      obtain rfl := Except.ok.inj (hpath.symm.trans hpath')
      rw [hload] at hload'
      cases hload'
  | some collection =>
      rw [hload] at hserved
      dsimp only at hserved
      cases hfile : server.files path with
      | none =>
          rw [hfile] at hserved
          cases hserved
      | some bytes =>
          rw [hfile] at hserved
          cases hserved
          rw [List.map_filterMap]
          simp only [map_packedSize_chunkPayload]
          constructor
          · intro hfits path' collection' bytes' hpath' hload' hfile'
            obtain rfl := Except.ok.inj (hpath.symm.trans hpath')
            obtain rfl := Option.some.inj (hload.symm.trans hload')
            obtain rfl := Option.some.inj (hfile.symm.trans hfile')
            exact hfits
          · exact fun hfits ↦ hfits path collection bytes hpath hload hfile

/-- A message is accepted if and only if the bound on its inputs holds. -/
theorem accepted_iff_fits (hsize : channel.KeepsSize) {message : WireMessage}
    (h : message.write? channel texts clock session = some written) :
    Accepted written ↔ message.Fits texts := by
  cases message with
  | push incoming =>
      obtain ⟨frame, hframe, hwritten⟩ := Option.bind_eq_some_iff.mp h
      rw [accepted_iff hwritten, length_of_sealed? hsize hframe, packedSize_push,
        WireMessage.Fits, maxMessageSize]
      omega
  | response server request =>
      rw [WireMessage.write?] at h
      cases hresponse : server.response texts request with
      | error e =>
          rw [hresponse] at h
          cases h
      | ok answer =>
          rw [hresponse] at h
          rw [response_accepted_iff hsize h]
          cases request with
          | manifest relativePath => exact manifest_fits_iff hresponse
          | chunks relativePath chunkHashes => exact chunks_fits_iff hresponse

end Written

/-! ### A file of 128 MiB -/

/-- The channel of Bob, who serves Alice. -/
def bobChannel : SecureChannel PyValue where
  ownDeviceId := "bob"
  cipher := plainCipher
  msgpack := ⟨PyValue.pack, fun _ ↦ none⟩

def bobSession : PeerSession := .start (pairTerms true) 0

theorem bobChannel_keepsSize : bobChannel.KeepsSize where
  length_packb value _ := value.length_pack
  length_ciphertext _ := rfl

theorem bob_seals {payload : PyValue} (hpackable : payload.packable = true)
    (hroom : payload.packedSize < 2 ^ 31) :
    ∃ frame, bobChannel.sealed? .chunkData payload ⟨0, 0⟩ bobSession = some frame := by
  let packet : Packet PyValue := ⟨makeHeader .chunkData 1 0, payload⟩
  have hfits : (packet.completed bobChannel.msgpack).header.Fits := by
    refine ⟨(by decide : 2 < 256 ^ 1), (by decide : 0 < 256 ^ 2), (by decide : 1 < 256 ^ 8), ?_,
      (by decide : 0 < 256 ^ 8), UInt32.toNat_lt _⟩
    exact (payload.length_pack.trans_lt hroom).trans (by decide)
  obtain ⟨front, hfront⟩ := hfits.exists_pack
  have hplaintext : packet.encode bobChannel.msgpack = .ok (front ++ payload.pack) :=
    except_bind_eq_ok.mpr ⟨front, hfront, rfl⟩
  obtain ⟨nonce, hnonce, hnonceSize⟩ : ∃ nonce,
      deriveNonce bobSession.role.outgoingDirection 1 = .ok nonce ∧ nonce.length = nonceSize :=
    ⟨_, rfl, rfl⟩
  let header : FrameHeader :=
    ⟨frameVersion, bobSession.role.outgoingDirection, PacketType.chunkData.value,
      bobSession.sessionId⟩
  obtain ⟨aad, haad⟩ : ∃ aad,
      buildAad header (utf8 bobChannel.ownDeviceId) (utf8 bobSession.peerId) = .ok aad :=
    ⟨_, rfl⟩
  let call : Encryption := ⟨front ++ payload.pack, bobSession.sendKey, nonce, aad⟩
  have hcall : bobChannel.IsCall bobSession .chunkData payload 1 ⟨0, 0⟩ header call :=
    ⟨rfl, rfl, hnonce, haad, hplaintext⟩
  obtain ⟨frame, hframe⟩ : ∃ frame, encodeFrame header (bobChannel.cipher.run call) = .ok frame :=
    ⟨_, encodeFrame_eq_ok.mpr ⟨rfl, hnonceSize, plainCipher_correct.length_tag_run call, rfl⟩⟩
  have hseal := SecureChannel.seal_eq_ok.mpr ⟨rfl, rfl, header, call, hcall, hframe⟩
  refine ⟨frame, ?_⟩
  rw [SecureChannel.sealed?, if_pos hpackable, hseal]

theorem bob_writes {payload : PyValue} (hpackable : payload.packable = true)
    (hroom : payload.packedSize < 2 ^ 31) :
    ∃ written, (bobChannel.sealed? .chunkData payload ⟨0, 0⟩ bobSession).bind
      bobChannel.writeEnvelope? = some written := by
  obtain ⟨frame, hframe⟩ := bob_seals hpackable hroom
  have hlength := length_of_sealed? bobChannel_keepsSize hframe
  have henvelope := packable_envelope.mpr (show frame.length < 2 ^ 32 by omega)
  have hsmall : (SecureChannel.envelope frame).pack.length < 2 ^ 32 := by
    have hhead : binHead.size frame.length ≤ 5 := by
      simp only [Head.size, binHead, wideSize]
      split_ifs <;> omega
    rw [PyValue.length_pack, packedSize_envelope]
    omega
  rw [hframe, Option.bind_some, SecureChannel.writeEnvelope?, if_pos henvelope]
  exact ⟨_, if_pos hsmall⟩

/-- The digest is that of 64 MiB of zeros. -/
def zerosDigest : ChunkHash :=
  ⟨.sha256, "3b6a07d0d404fab4e23b6d34bc6696a6a312dd92821332385e5af7c01c421351", by decide⟩

def zerosChunk (index offset : ℕ) : ChunkMetadata :=
  ⟨_, index, 64 * mib, offset, some zerosDigest, (sampleReader.deriveChunkId samplePath index).2⟩

def zerosManifest : ChunkCollection where
  sourcePath := samplePath
  chunkSize := 64 * mib
  totalSize := 128 * mib
  chunks := [zerosChunk 0 0, zerosChunk 1 (64 * mib)]
  wellFormed := by decide

def zerosServer (content : Bytes) : ManifestServer where
  resolver := .plain
  syncRoot := sampleRoot
  repository path := if path = samplePath then some zerosManifest else none
  files path := if path = samplePath then some content else none

/-- What a device asks for that pulls the file and has nothing of it. -/
def zerosHashes : List String :=
  match DeltaCalculator.compute (some ⟨samplePath, 64 * mib, 0, [], by decide⟩) zerosManifest with
  | .ok plan => SyncFileUseCase.hashesToRequest plan
  | .error _ => []

theorem zeros_response (texts : WireTexts) (content : Bytes) :
    (zerosServer content).response texts (.chunks "a.txt" zerosHashes) =
      .ok (.chunkData, chunkResponse
        (zerosManifest.chunks.filterMap (ManifestServer.chunkPayload zerosHashes content))) := by
  have hpath : (zerosServer content).safeResolve "a.txt" = .ok samplePath := by
    rw [ManifestServer.safeResolve_eq_ok]
    change resolveWithin .plain sampleRoot "a.txt" = .ok samplePath
    decide +kernel
  have hbuild : (zerosServer content).buildChunkResponse "a.txt" zerosHashes =
      .ok (zerosManifest.chunks.filterMap (ManifestServer.chunkPayload zerosHashes content)) :=
    except_bind_eq_ok.mpr ⟨samplePath, hpath, rfl⟩
  exact except_bind_eq_ok.mpr ⟨_, hbuild, rfl⟩

def zerosPayload (chunkId : String) (index offset : ℤ) (data : Bytes) : ChunkPayload :=
  ⟨chunkId, index, 64 * mib, offset, "sha256", zerosDigest.digest, data⟩

theorem zeros_payloads (content : Bytes) :
    zerosManifest.chunks.filterMap (ManifestServer.chunkPayload zerosHashes content) =
      [zerosPayload "dac5e54d-5747-561c-b755-bc074d809801" 0 0 (content.take (64 * mib)),
        zerosPayload "ad7144e6-7a98-5a57-8e7c-6ec9ea356558" 1 (64 * mib)
          ((content.drop (64 * mib)).take (64 * mib))] := by
  rfl

theorem zeros_packable (content : Bytes) :
    (chunkResponse (zerosManifest.chunks.filterMap
      (ManifestServer.chunkPayload zerosHashes content))).packable = true := by
  have hdata : ∀ bytes : Bytes, (bytes.take (64 * mib)).length < 2 ^ 32 := fun bytes ↦
    (List.length_take_le _ _).trans_lt (by decide)
  have hfirst : ∀ data : Bytes,
      (zerosPayload "dac5e54d-5747-561c-b755-bc074d809801" 0 0 data).toDict.packable =
        (decide (data.length < 2 ^ 32) && true) :=
    fun _ ↦ rfl
  have hsecond : ∀ data : Bytes,
      (zerosPayload "ad7144e6-7a98-5a57-8e7c-6ec9ea356558" 1 (64 * mib) data).toDict.packable =
        (decide (data.length < 2 ^ 32) && true) :=
    fun _ ↦ rfl
  have hall : ∀ p q : ChunkPayload, (chunkResponse [p, q]).packable =
      ((p.toDict.packable && (q.toDict.packable && true)) && true) :=
    fun _ _ ↦ rfl
  rw [zeros_payloads, hall, hfirst, hsecond, decide_eq_true (hdata _), decide_eq_true (hdata _)]
  rfl

theorem zeros_size (content : Bytes) :
    (chunkResponse (zerosManifest.chunks.filterMap
      (ManifestServer.chunkPayload zerosHashes content))).packedSize =
        8 + arraySize (zerosManifest.chunks.filterMap
          (ChunkMetadata.servedSize? zerosHashes content.length)) := by
  rw [packedSize_chunkResponse, List.map_filterMap]
  simp only [map_packedSize_chunkPayload]

theorem zeros_written (texts : WireTexts) (content : Bytes)
    (hroom : 8 + arraySize (zerosManifest.chunks.filterMap
      (ChunkMetadata.servedSize? zerosHashes content.length)) < 2 ^ 31) :
    ∃ written, (WireMessage.response (zerosServer content) (.chunks "a.txt" zerosHashes)).write?
      bobChannel texts ⟨0, 0⟩ bobSession = some written := by
  rw [WireMessage.write?, zeros_response]
  exact bob_writes (zeros_packable content) ((zeros_size content).trans_lt hroom)

noncomputable def posixTexts : WireTexts where
  pathText path := "/" ++ "/".intercalate path
  createdAt _ := "2026-01-01T00:00:00+00:00"
  listing counters := counters.entries.toList
  coe_listing counters := counters.entries.coe_toList

/-- After the file has been cut to one byte, its response fits. -/
theorem cut_file_response_accepted :
    ∃ written, (WireMessage.response (zerosServer [0]) (.chunks "a.txt" zerosHashes)).write?
        bobChannel posixTexts ⟨0, 0⟩ bobSession = some written ∧ Accepted written := by
  obtain ⟨written, hwritten⟩ := zeros_written posixTexts [0] (by decide +kernel)
  refine ⟨written, hwritten, (accepted_iff_fits bobChannel_keepsSize hwritten).mpr ?_⟩
  intro path collection bytes hpath hload hfile
  obtain ⟨-, ⟨⟩⟩ := Option.ite_none_right_eq_some.mp hload
  obtain ⟨-, ⟨⟩⟩ := Option.ite_none_right_eq_some.mp hfile
  decide +kernel

/-- The response to a first pull of the whole file is written, and not accepted. -/
theorem whole_file_response_refused :
    ∃ written, (WireMessage.response (zerosServer (List.replicate (128 * mib) 0))
        (.chunks "a.txt" zerosHashes)).write? bobChannel posixTexts ⟨0, 0⟩ bobSession =
          some written ∧ ¬ Accepted written := by
  have hlength : (List.replicate (128 * mib) (0 : UInt8)).length = 128 * mib :=
    List.length_replicate
  obtain ⟨written, hwritten⟩ :=
    zeros_written posixTexts (List.replicate (128 * mib) 0) (by rw [hlength]; decide +kernel)
  refine ⟨written, hwritten, fun haccepted ↦ ?_⟩
  rw [WireMessage.write?, zeros_response] at hwritten
  have hfits := (response_accepted_iff bobChannel_keepsSize hwritten).mp haccepted
  rw [zeros_size, hlength] at hfits
  revert hfits
  decide +kernel

end SecureSync
