import SecureSync.Infrastructure.ManifestFiles

/-!
# Stored manifests

A manifest is read back from its document, and the chunk repository gives back the last
manifest that was saved for a location.
-/

namespace SecureSync

open IsoTime Raising

/-! ## Documents of any format -/

namespace PyValue

def name? : PyValue → Option String
  | .str s => some s
  | _ => .none

mutual

/-- What JSON has, and MessagePack too: no name occurs twice in an object. -/
def isJson : PyValue → Bool
  | .none | .bool _ | .int _ | .str _ => true
  | .list items => itemsJson items
  | .dict entries => (entries.map fun entry ↦ entry.1.name?).Nodup && entriesJson entries
  | .float _ | .bytes _ | .ext _ _ | .timestamp _ _ => false

def itemsJson : List PyValue → Bool
  | [] => true
  | item :: items => item.isJson && itemsJson items

def entriesJson : List (PyValue × PyValue) → Bool
  | [] => true
  | (key, value) :: entries => key.name?.isSome && value.isJson && entriesJson entries

end

end PyValue

/-- Every document that can be written is read back. -/
def DocumentCodec.Lossless (codec : DocumentCodec) : Prop :=
  ∀ value document, value.isJson = true → codec.dumps value = some document →
    codec.loads document = some value

/-- The manifest saved last for a location. -/
def lastSaved {flavour : Flavour} (codec : DocumentCodec) (calls : List (SaveCall flavour))
    (location : String) : Option (TimedCollection flavour) :=
  ((calls.filter fun call ↦ (codec.dumps (collectionToDict call.collection)).isSome ∧
    call.diskFails = false ∧ call.location = some location).getLast?).map SaveCall.collection

/-! ## Reading documents -/

theorem isJson_toDict (chunkHash : ChunkHash) : chunkHash.toDict.isJson = true := by
  have hnames : [some "algorithm", some "digest"].Nodup := by decide
  simp [ChunkHash.toDict, field, PyValue.isJson, PyValue.entriesJson, PyValue.name?, hnames]

theorem isJson_metadataToDict (metadata : TimedChunk) :
    metadata.metadataToDict.isJson = true := by
  have hhash : (orNone ChunkHash.toDict metadata.chunkHash).isJson = true := by
    cases metadata.chunkHash with
    | none => rfl
    | some chunkHash => exact isJson_toDict chunkHash
  have hnames : [some "chunk_id", some "index", some "size", some "offset", some "chunk_hash",
      some "created_at"].Nodup := by decide
  simp [TimedChunk.metadataToDict, field, PyValue.isJson, PyValue.entriesJson, PyValue.name?,
    hnames, hhash]

theorem itemsJson_map (chunks : List TimedChunk) :
    PyValue.itemsJson (chunks.map TimedChunk.metadataToDict) = true := by
  induction chunks with
  | nil => rfl
  | cons chunk chunks ih =>
      rw [List.map_cons, PyValue.itemsJson, isJson_metadataToDict, ih]
      rfl

variable {flavour : Flavour}

theorem isJson_collectionToDict (collection : TimedCollection flavour) :
    (collectionToDict collection).isJson = true := by
  have hnames : [some "source_path", some "chunk_size", some "total_size", some "chunks"].Nodup :=
    by decide
  simp [collectionToDict, field, PyValue.isJson, PyValue.entriesJson, PyValue.name?, hnames,
    itemsJson_map]

theorem hashFromDict_orNone (chunkHash : Option ChunkHash) :
    hashFromDict (orNone ChunkHash.toDict chunkHash) = .ok chunkHash := by
  cases chunkHash with
  | none => rfl
  | some chunkHash =>
      have hmake : ChunkHash.make chunkHash.algorithm chunkHash.digest = .ok chunkHash :=
        ChunkHash.make_eq_ok.mpr ⟨rfl, rfl⟩
      have halgorithm : (PyValue.str chunkHash.algorithm.value).asAlgorithm =
          .ok chunkHash.algorithm := by
        cases chunkHash.algorithm
        rfl
      rw [orNone, ChunkHash.toDict, hashFromDict]
      · simp [PyValue.item, PyDict.getItem, PyDict.get?, field, PyValue.isName, PyValue.asStr,
          halgorithm, hmake, bind, Except.bind, Except.mapError, pure, Except.pure]
      · simp

theorem asTime_isoformat (t : DateTime) :
    (PyValue.str (String.ofList t.isoformat)).asTime = .ok t.reread := by
  rw [PyValue.asTime, String.toList_ofList, DateTime.fromisoformat_isoformat]

def TimedChunk.reread (metadata : TimedChunk) : TimedChunk :=
  { metadata with createdAt := metadata.createdAt.reread }

theorem metadataFromDict_metadataToDict (metadata : TimedChunk) :
    metadataFromDict metadata.metadataToDict = .ok metadata.reread := by
  have hmake : ChunkMetadata.make metadata.chunkId metadata.index metadata.size metadata.offset
      metadata.chunkHash = .ok metadata.toChunkMetadata :=
    ChunkMetadata.make_eq_ok.mpr ⟨rfl, rfl, rfl, rfl, rfl⟩
  simp [metadataFromDict, TimedChunk.metadataToDict, PyValue.item, PyDict.getItem, PyDict.get?,
    field, PyValue.isName, PyValue.asStr, PyValue.asInt, asTime_isoformat, hashFromDict_orNone,
    hmake, TimedChunk.reread, bind, Except.bind, Except.mapError, pure, Except.pure]

theorem mapM_metadataFromDict (chunks : List TimedChunk) :
    (chunks.map TimedChunk.metadataToDict).mapM metadataFromDict =
      .ok (chunks.map TimedChunk.reread) := by
  rw [except_mapM_eq_ok, List.forall₂_map_left_iff, List.forall₂_map_right_iff, List.forall₂_same]
  exact fun chunk _ ↦ metadataFromDict_metadataToDict chunk

theorem metadataOf_reread (chunks : List TimedChunk) :
    metadataOf (chunks.map TimedChunk.reread) = metadataOf chunks := by
  rw [metadataOf, metadataOf, List.map_map]
  rfl

/-- What is read back of a manifest. -/
def TimedCollection.reread (collection : TimedCollection flavour) : TimedCollection flavour where
  sourcePath := collection.sourcePath
  chunkSize := collection.chunkSize
  totalSize := collection.totalSize
  chunks := collection.chunks.map TimedChunk.reread
  wellFormed := (metadataOf_reread collection.chunks).symm ▸ collection.wellFormed

theorem TimedCollection.make_self (collection : TimedCollection flavour) :
    make collection.sourcePath collection.chunkSize collection.totalSize collection.chunks =
      .ok collection :=
  dif_pos ⟨Int.natCast_nonneg _, collection.wellFormed⟩

theorem SourcePath.ofText_text (sourcePath : SourcePath flavour) :
    ofText flavour (flavour.text sourcePath.path) = sourcePath := by
  obtain ⟨path, text, rfl⟩ := sourcePath
  simp [ofText, flavour.parse_text]

theorem collectionFromDict_collectionToDict (collection : TimedCollection flavour) :
    collectionFromDict flavour (collectionToDict collection) = .ok collection.reread := by
  have hparts : partsFromDict flavour (collectionToDict collection) =
      .ok (collection.sourcePath, collection.chunkSize, collection.totalSize,
        collection.chunks.map TimedChunk.reread) := by
    simp [partsFromDict, collectionToDict, PyValue.item, PyDict.getItem, PyDict.get?, field,
      PyValue.isName, PyValue.asStr, PyValue.asInt, PyValue.asList, mapM_metadataFromDict,
      SourcePath.ofText_text, bind, Except.bind, pure, Except.pure, -List.mapM_map]
  rw [collectionFromDict, hparts]
  exact collection.reread.make_self

/-- Every time in the manifest is one that its text tells. -/
def TimedCollection.Exact (collection : TimedCollection flavour) : Prop :=
  ∀ chunk ∈ collection.chunks, chunk.createdAt.Exact

instance (collection : TimedCollection flavour) : Decidable collection.Exact :=
  inferInstanceAs (Decidable (∀ chunk ∈ collection.chunks, _))

theorem TimedCollection.Exact.reread_eq_self {collection : TimedCollection flavour}
    (hexact : collection.Exact) : collection.reread = collection := by
  have hchunks : collection.chunks.map TimedChunk.reread = collection.chunks := by
    refine (List.map_congr_left fun chunk hchunk ↦ ?_).trans (List.map_id _)
    simp [TimedChunk.reread, (hexact chunk hchunk).reread_eq_self]
  obtain ⟨sourcePath, chunkSize, totalSize, chunks, hwell⟩ := collection
  simp only [reread, hchunks]

/-! ## The repository -/

theorem manifestName_inj {sha256 : String → String} {location location' : String}
    (h : manifestName sha256 location = manifestName sha256 location') :
    sha256 location = sha256 location' := by
  have hlist := congrArg String.toList h
  rw [manifestName, manifestName, String.toList_append, String.toList_append,
    List.append_cancel_right_eq] at hlist
  exact String.toList_inj.mp hlist

variable {codec : DocumentCodec} {sha256 : String → String} {calls : List (SaveCall flavour)}
  {location : String}

theorem SaveCall.run_of_saved (call : SaveCall flavour) (disk : StorageDir) {document : Bytes}
    (hlocation : call.location = some location)
    (hdocument : codec.dumps (collectionToDict call.collection) = some document)
    (hdisk : call.diskFails = false) :
    call.run codec sha256 disk =
      Function.update disk (manifestName sha256 location) (some document) := by
  rw [run, hlocation, hdocument]
  simp [hdisk]

/-- A call that is no save for a location leaves its file. -/
theorem SaveCall.run_of_not_saved (call : SaveCall flavour) (disk : StorageDir)
    (hdistinct : ∀ other, call.location = some other →
      sha256 other = sha256 location → other = location)
    (h : ¬ ((codec.dumps (collectionToDict call.collection)).isSome ∧ call.diskFails = false ∧
      call.location = some location)) :
    call.run codec sha256 disk (manifestName sha256 location) =
      disk (manifestName sha256 location) := by
  cases hother : call.location with
  | none => rw [run, hother]
  | some other =>
      cases hdocument : codec.dumps (collectionToDict call.collection) with
      | none => rw [run, hother, hdocument]
      | some document =>
          cases hdisk : call.diskFails with
          | true =>
              rw [run, hother, hdocument]
              simp [hdisk]
          | false =>
              rw [call.run_of_saved disk hother hdocument hdisk]
              apply Function.update_of_ne
              intro hname
              obtain rfl := hdistinct other hother (manifestName_inj hname).symm
              exact h ⟨by rw [hdocument]; rfl, hdisk, hother⟩

/-- The file of a location holds the document of what was saved last for it. -/
theorem runSaves_manifestName
    (hdistinct : ∀ call ∈ calls, ∀ other, call.location = some other →
      sha256 other = sha256 location → other = location) :
    runSaves codec sha256 calls (manifestName sha256 location) =
      (lastSaved codec calls location).bind fun c ↦ codec.dumps (collectionToDict c) := by
  induction calls using List.reverseRecOn with
  | nil => rfl
  | append_singleton calls call ih =>
      have hbefore := ih fun call hcall ↦ hdistinct call (List.mem_append_left _ hcall)
      rw [runSaves, List.foldl_concat, ← runSaves, lastSaved, List.filter_append]
      by_cases hsaved : (codec.dumps (collectionToDict call.collection)).isSome ∧
          call.diskFails = false ∧ call.location = some location
      · obtain ⟨document, hdocument⟩ := Option.isSome_iff_exists.mp hsaved.1
        rw [call.run_of_saved _ hsaved.2.2 hdocument hsaved.2.1, Function.update_self,
          List.filter_cons_of_pos (by simpa using hsaved), List.filter_nil,
          List.getLast?_concat, Option.map_some, Option.bind_some, hdocument]
      · rw [call.run_of_not_saved _ (hdistinct call (by simp)) hsaved,
          List.filter_cons_of_neg (by simpa using hsaved), List.filter_nil, List.append_nil,
          ← lastSaved, hbefore]

theorem loadManifest_eq (hcodec : codec.Lossless)
    (hexact : ∀ call ∈ calls, call.collection.Exact) {resolve : PurePath → Option String}
    {path : PurePath} (hresolve : resolve path = some location)
    (hdistinct : ∀ call ∈ calls, ∀ other, call.location = some other →
      sha256 other = sha256 location → other = location) :
    loadManifest codec sha256 flavour resolve (runSaves codec sha256 calls) path =
      .ok (lastSaved codec calls location) := by
  rw [loadManifest, hresolve]
  dsimp only
  rw [runSaves_manifestName hdistinct]
  cases hlast : lastSaved codec calls location with
  | none => rfl
  | some collection =>
      obtain ⟨call, hcall, rfl⟩ := Option.map_eq_some_iff.mp hlast
      have hmem := List.mem_filter.mp (List.mem_of_getLast? hcall)
      obtain ⟨document, hdocument⟩ := Option.isSome_iff_exists.mp (of_decide_eq_true hmem.2).1
      rw [Option.bind_some, hdocument]
      dsimp only
      rw [hcodec _ _ (isJson_collectionToDict call.collection) hdocument]
      dsimp only
      rw [collectionFromDict_collectionToDict, (hexact call hmem.1).reread_eq_self]
      rfl

/-- Every manifest with exact times is read back from its document, also in bytes of a
lossless format; and after every sequence of saves of such manifests, loading a path gives
what was saved last under a path with the same location. -/
theorem manifests_round_trip (hcodec : codec.Lossless) (sha256 : String → String) :
    (∀ collection : TimedCollection flavour, collection.Exact →
      collectionFromDict flavour (collectionToDict collection) = .ok collection) ∧
    (∀ (collection : TimedCollection flavour) document, collection.Exact →
      codec.dumps (collectionToDict collection) = some document →
      (codec.loads document).map (collectionFromDict flavour) = some (.ok collection)) ∧
    ∀ (calls : List (SaveCall flavour)) (resolve : PurePath → Option String) path location,
      (∀ call ∈ calls, call.collection.Exact) → resolve path = some location →
      (∀ call ∈ calls, ∀ other, call.location = some other →
        sha256 other = sha256 location → other = location) →
      loadManifest codec sha256 flavour resolve (runSaves codec sha256 calls) path =
        .ok (lastSaved codec calls location) := by
  refine ⟨?_, ?_, ?_⟩
  · intro collection hexact
    rw [collectionFromDict_collectionToDict, hexact.reread_eq_self]
  · intro collection document hexact hdocument
    rw [hcodec _ _ (isJson_collectionToDict collection) hdocument, Option.map_some,
      collectionFromDict_collectionToDict, hexact.reread_eq_self]
  · intro calls resolve path location hexact hresolve hdistinct
    exact loadManifest_eq hcodec hexact hresolve hdistinct

def timedNotes : TimedCollection .posix where
  sourcePath := .ofText .posix "./notes".toList
  chunkSize := 1024
  totalSize := 5
  chunks := [⟨⟨"notes-chunk-0", 0, 5, 0, none, by simp⟩,
    ⟨2025, 6, 15, .midnight, none, by omega, by omega, by omega, by omega, by omega, by decide⟩⟩]
  wellFormed := by decide

def notesJson : String :=
  "\x7b\"source_path\":\"notes\",\"chunk_size\":1024,\"total_size\":5,\"chunks\":[" ++
    "\x7b\"chunk_id\":\"notes-chunk-0\",\"index\":0,\"size\":5,\"offset\":0," ++
    "\"chunk_hash\":null,\"created_at\":\"2025-06-15T00:00:00\"\x7d]\x7d"

open Classical in
/-- JSON for this one manifest. -/
noncomputable def notesCodec : DocumentCodec where
  dumps value :=
    if value = collectionToDict timedNotes then some notesJson.toUTF8.data.toList else none
  loads document :=
    if document = notesJson.toUTF8.data.toList then some (collectionToDict timedNotes) else none

/-- Without links, and from the directory `/srv`. -/
def fromSrv (path : PurePath) : Option String :=
  some (String.ofList
    ((if path.root = [] then "/srv/".toList else path.root) ++ joinParts '/' path.parts))

def srvDigest (location : String) : String :=
  if location = "/srv/notes" then
    "b9c5ef133aecc07318825cc01c949dd74fee1db7d83b0bc0595cecef584497a9"
  else "d7fb29caec3b374fbd89c9ff0416388df622f59b15c927baf30c59d890c011bd"

theorem manifests_round_trip_notes :
    loadManifest notesCodec srvDigest .posix fromSrv
        (runSaves notesCodec srvDigest
          [⟨timedNotes, fromSrv, false⟩, ⟨timedNotes, fromSrv, true⟩])
        (PurePath.posix "/srv/notes".toList) = .ok (some timedNotes) := by
  have hlossless : notesCodec.Lossless := by
    intro value document _ hdumps
    simp only [notesCodec] at hdumps ⊢
    split_ifs at hdumps with hvalue
    obtain rfl := Option.some.inj hdumps
    rw [if_pos rfl, hvalue]
  have hlocation : fromSrv timedNotes.sourcePath.path = some "/srv/notes" := by decide
  have hload := (manifests_round_trip hlossless srvDigest).2.2
    [⟨timedNotes, fromSrv, false⟩, ⟨timedNotes, fromSrv, true⟩] fromSrv
    (PurePath.posix "/srv/notes".toList) "/srv/notes" (by decide) (by decide) (by
      intro call hcall other hother _
      simp only [List.mem_cons, List.not_mem_nil, or_false] at hcall
      rcases hcall with rfl | rfl <;> exact Option.some.inj (hother.symm.trans hlocation))
  rw [hload]
  simp [lastSaved, SaveCall.location, hlocation, notesCodec]

/-- Half a second east of UTC. -/
def halfSecondEast : Offset where
  west := false
  amount := ⟨0, 0, 0, 500000, by omega, by omega, by omega, by omega⟩
  east_of_zero := fun _ ↦ rfl

def skewedNotes : TimedCollection .posix where
  sourcePath := .ofText .posix "./notes".toList
  chunkSize := 1024
  totalSize := 5
  chunks := [⟨⟨"notes-chunk-0", 0, 5, 0, none, by simp⟩,
    ⟨2025, 6, 15, .midnight, some halfSecondEast, by omega, by omega, by omega, by omega,
      by omega, by decide⟩⟩]
  wellFormed := by decide

/-- `+00:00:00.500000` is read as UTC. -/
theorem subsecond_offset_lost :
    collectionFromDict .posix (collectionToDict skewedNotes) ≠ .ok skewedNotes := by
  rw [collectionFromDict_collectionToDict]
  intro h
  have hchunks := congrArg TimedCollection.chunks (Except.ok.inj h)
  revert hchunks
  decide

end SecureSync
