import SecureSync.Properties.PullTransfer
import SecureSync.Properties.ServedManifest
import SecureSync.Sync.Pairs

/-!
# Syncing twice

The receiver of a push does not store a manifest of the file, and a pull does
not record the version that it fetched.
-/

namespace SecureSync

open Raising SyncDirectionResolver

/-! ## What the second sync sees -/

namespace SyncRun

variable {W : Type} (run : SyncRun W)

def digestsOf (content : Option Bytes) : List String :=
  (executeChunkFile run.settings.engine run.path run.strategy content).1.filterMap Chunk.digest?

/-- The local file once the chunks that it lacks are in it. -/
def contentWith (c : ChunkCollection) (peerContent : Bytes) : Option Bytes :=
  if run.fetched c peerContent = [] then run.content
  else some (Overlay.writeAll 0 (run.content.getD []) (run.fetched c peerContent))

variable {run}

theorem digests_of_localManifest {current : ChunkCollection}
    (h : run.settings.onDisk.localManifestOrEmpty run.path run.strategy run.chunkSize run.state =
      .ok current run.state) : digests (some current) = run.digestsOf run.content := by
  rw [digests, chunks_of_localManifest h, List.filterMap_map, List.map_filterMap]
  rfl

end SyncRun

theorem not_hasOwnChunk_iff {left right : Option ChunkCollection} :
    ¬ HasOwnChunk left right ↔ ∀ digest ∈ digests left, digest ∈ digests right := by
  simp [HasOwnChunk]

namespace DevicePair

variable {V : Type} {pair : DevicePair V} {call : SyncCall} {s s' : PairState V}

/-- No version is older, every local digest is in the peer's manifest, and once
the chunks that the local file lacks are in it, it has just those digests. -/
def Converges (pair : DevicePair V) (call : SyncCall) (s : PairState V) : Prop :=
  ∃ m peerPath, pair.Answers s.world call.relativePath (some m) ∧
    (pair.peer.server s.world).safeResolve call.relativePath = .ok peerPath ∧
      Undecided (knownVersion s.metadata call.relativePath) m.version ∧
        let run := pair.run s call
        let peerContent := ((pair.peer.server s.world).files peerPath).getD []
        (∀ digest ∈ run.digestsOf run.content, digest ∈ digests (some m.collection)) ∧
          ∀ digest, digest ∈ run.digestsOf (run.contentWith m.collection peerContent) ↔
            digest ∈ digests (some m.collection)

/-! ## After a push -/

theorem not_converges_of_push {t : SyncState (DeviceState V)}
    (hchosen : (pair.run s call).chosen = .ok .push t) : ¬ pair.Converges call s := by
  rintro ⟨m, peerPath, hanswer, -, hundecided, hknown, -⟩
  obtain ⟨current, answer, hcurrent, hanswer', hchooses, -⟩ := chosen_eq_ok hchosen
  cases hanswer.unique hanswer'
  obtain ⟨digest, hmem, hnot⟩ := hasOwnChunk_of_push hundecided hchooses
  rw [SyncRun.digests_of_localManifest hcurrent] at hmem
  exact hnot (hknown digest hmem)

theorem current_congr {t : SyncState (DeviceState V)} {current : ChunkCollection}
    (hcontent : (pair.run { s with toSyncState := t } call).content = (pair.run s call).content)
    (h : pair.Current s call current) : pair.Current { s with toSyncState := t } call current :=
  localManifestOrEmpty_congr hcontent h

/-- A chunk that the peer's manifest lacks when it is pushed is lacking still. -/
theorem not_settled_of_missing {t : SyncState (DeviceState V)} {st : ReceiverState}
    {answer : Option ManifestWithVersion} (hstorage : t.storage = s.storage)
    (hworld : t.world = s.world.withReceived st)
    (hanswer : pair.Answers s.world call.relativePath answer)
    (hmissing : (pair.run s call).missing answer ≠ []) :
    ¬ pair.Settled call { s with toSyncState := t } := by
  intro hsettled
  obtain ⟨current, answer', hcurrent, hanswer', hchooses⟩ := settled_iff.mp hsettled
  have hchunks : current.chunks = (pair.run s call).chunks.map Chunk.metadata := by
    have hcontent : (pair.run { s with toSyncState := t } call).content =
        (pair.run s call).content :=
      congrArg (fun storage : Storage ↦ storage.files _) hstorage
    rw [SyncRun.chunks_of_localManifest hcurrent, SyncRun.chunks, SyncRun.chunks, hcontent]
    rfl
  have hcollection : answer'.map ManifestWithVersion.collection =
      answer.map ManifestWithVersion.collection :=
    hanswer.of_withReceived (hworld ▸ hanswer')
  obtain ⟨chunk, hchunk⟩ := List.exists_mem_of_ne_nil _ hmissing
  obtain ⟨hmem, hlacked⟩ := List.mem_filter.mp hchunk
  rw [decide_eq_true_iff, ← hcollection] at hlacked
  have hmem' : chunk.metadata ∈ current.chunks := hchunks ▸ List.mem_map_of_mem hmem
  cases answer' with
  | none =>
      have hpos : 0 < current.chunkCount := List.length_pos_of_mem hmem'
      rw [SyncRun.ChoosesFrom, if_pos hpos] at hchooses
      cases hchooses
  | some m =>
      obtain ⟨-, hown, -⟩ := resolve_noop_iff.mp hchooses
      obtain ⟨h, hhash, hunknown⟩ := hlacked
      refine hown ⟨h.digest, List.mem_map_of_mem (List.mem_filterMap.mpr ⟨_, hmem', hhash⟩), ?_⟩
      rwa [digests, List.mem_map_of_injective ChunkHash.digest_injective]

theorem missing_ne_nil_of_sent {incoming : IncomingPush} {answer : Option ManifestWithVersion}
    (hanswer : pair.Answers s.world call.relativePath answer)
    (h : incoming ∈ (pair.run s call).sent) : (pair.run s call).missing answer ≠ [] := by
  obtain ⟨version, hinitial⟩ := SyncRun.prefix_sent (answers_run.mpr hanswer)
  intro hnil
  rw [hnil] at hinitial
  have hmem := hinitial.subset h
  cases hmem

/-! ## After a pull -/

theorem content_of_pulled {t : SyncState (DeviceState V)} {result : SyncFileResult}
    {current : ChunkCollection} {m : ManifestWithVersion} {peerPath : FilePath}
    (hcurrent : pair.Current s call current)
    (hanswer : pair.Answers s.world call.relativePath (some m))
    (hpath : (pair.peer.server s.world).safeResolve call.relativePath = .ok peerPath)
    (hpulled : (pair.run s call).pulled = .ok result t) (clock : ℕ → Timestamp) :
    let run := pair.run s call
    let after : PairState V := { s with toSyncState := { t with clock := clock } }
    (pair.run after call).content = run.contentWith m.collection
        (((pair.peer.server s.world).files peerPath).getD []) ∧
      ∃ final, pair.Current after call final := by
  intro run after
  obtain ⟨answer, w, hrequest, hdone⟩ := pull_eq_ok hpulled
  obtain ⟨hserved, rfl⟩ := requestManifest_eq_ok.mp hrequest
  cases hanswer.unique hserved
  obtain ⟨current', plan, final, hcurrent', hplan, hnone, hstorage, -, hfinal⟩ := hdone
  cases hcurrent.symm.trans hcurrent'
  -- what came back are the chunks that the local file lacked
  obtain ⟨path, hpath', hmap⟩ := answers_iff.mp hanswer
  cases hpath.symm.trans hpath'
  obtain ⟨collection, hload, rfl⟩ := Option.map_eq_some_iff.mp hmap.symm
  have hserver (hashes : List String) :
      run.settings.manifestExchange.requestChunks run.peer run.relativePath hashes s.world =
        ((pair.peer.server s.world).exchange (DeviceState V)).requestChunks run.peer
          run.relativePath hashes s.world := by
    change pair.device.manifestExchange.requestChunks _ _ hashes s.world = _
    rw [pair.exchange_eq]
    rfl
  have hpieces := SyncRun.returned_exchange hserver hpath hload
    (SyncRun.chunks_of_localManifest hcurrent) hplan hnone
  have hcontent : (pair.run after call).content = run.contentWith collection
      (((pair.peer.server s.world).files peerPath).getD []) := by
    have hfile : (pair.run after call).content = t.storage.files (run.settings.located run.path) :=
      rfl
    have hlocated : run.settings.located (joinPath run.syncRoot run.relativePath) =
        run.settings.located run.path := rfl
    rw [hfile, hstorage, hlocated, Storage.files_storeAll_self, SyncRun.contentWith, ← hpieces]
    simp only [List.map_eq_nil_iff]
    rfl
  refine ⟨hcontent, final, ?_⟩
  split_ifs at hfinal with hnil
  · subst hfinal
    refine current_congr ?_ hcurrent
    rw [hcontent, SyncRun.contentWith, if_pos]
    rw [← hpieces]
    exact List.map_eq_nil_iff.mpr hnil
  · obtain ⟨bytes, hbytes⟩ := exists_of_buildManifest hfinal
    rw [hbytes] at hfinal
    exact localManifestOrEmpty_of_build hbytes hfinal

theorem settled_iff_of_pulled {t : SyncState (DeviceState V)} {result : SyncFileResult}
    {current : ChunkCollection} {answer : Option ManifestWithVersion} (clock : ℕ → Timestamp)
    (hcurrent : pair.Current s call current)
    (hanswer : pair.Answers s.world call.relativePath answer)
    (hchooses : SyncRun.ChoosesFrom current (knownVersion s.metadata call.relativePath) answer
      .pull)
    (hpulled : (pair.run s call).pulled = .ok result t) :
    pair.Settled call { s with toSyncState := { t with clock := clock } } ↔
      pair.Converges call s := by
  cases answer with
  | none =>
      rw [SyncRun.ChoosesFrom] at hchooses
      split_ifs at hchooses
  | some m =>
      obtain ⟨peerPath, hpath, -⟩ := answers_iff.mp hanswer
      obtain ⟨hcontent, final, hfinal⟩ := content_of_pulled hcurrent hanswer hpath hpulled clock
      have hdigests := SyncRun.digests_of_localManifest hfinal
      rw [hcontent] at hdigests
      have hsettled : pair.Settled call { s with toSyncState := { t with clock := clock } } ↔
          (resolve (some final) (knownVersion s.metadata call.relativePath) (some m.collection)
            m.version).direction = .noop := by
        rw [settled_iff]
        constructor
        · rintro ⟨final', answer', hfinal', hanswer', hnoop⟩
          cases hfinal.symm.trans hfinal'
          cases (world_of_pulled hpulled ▸ hanswer).unique hanswer'
          exact hnoop
        · exact fun hnoop ↦ ⟨final, some m, hfinal, world_of_pulled hpulled ▸ hanswer, hnoop⟩
      rw [hsettled, resolve_noop_iff, not_hasOwnChunk_iff, not_hasOwnChunk_iff, hdigests]
      constructor
      · rintro ⟨hundecided, hlocal, hremote⟩
        refine ⟨m, peerPath, hanswer, hpath, hundecided, ?_, fun d ↦ ⟨hlocal d, hremote d⟩⟩
        rw [← SyncRun.digests_of_localManifest hcurrent]
        exact not_hasOwnChunk_iff.mp (not_hasOwnChunk_of_pull hundecided hchooses)
      · rintro ⟨m', peerPath', hanswer', hpath', hundecided, -, hsame⟩
        cases hanswer.unique hanswer'
        cases hpath.symm.trans hpath'
        exact ⟨hundecided, fun d ↦ (hsame d).mp, fun d ↦ (hsame d).mpr⟩

/-- In no case is a pushed file in step, and a pulled one is just when the pull
has made the contents the same under versions of which none is older. -/
theorem settled_iff_converges (h : pair.Syncs call s s') :
    pair.Settled call s' ↔ pair.Converges call s := by
  cases h with
  | @push t before after now incoming destination clock hchosen hsent hfinish =>
      obtain ⟨current, answer, hcurrent, hanswer, -, ht⟩ := chosen_eq_ok hchosen
      obtain rfl := ht (by simp)
      have hsynced : (pair.run s call).synced = (pair.run s call).pushed :=
        SyncRun.synced_of_chosen hchosen
      rw [hsynced] at hsent
      have hmissing := missing_ne_nil_of_sent hanswer (hsent now incoming (by simp))
      have hstorage : (stateOf (pair.run s call).synced).storage = s.storage := by
        rw [hsynced]
        exact keeps_storage_push _
      exact iff_of_false (not_settled_of_missing hstorage rfl hanswer hmissing)
        (not_converges_of_push hchosen)
  | @pull t t' result clock hchosen hsynced =>
      obtain ⟨current, answer, hcurrent, hanswer, hchooses, ht⟩ := chosen_eq_ok hchosen
      obtain rfl := ht (by simp)
      have hpulled : (pair.run s call).pulled = .ok result t' :=
        (SyncRun.synced_of_chosen hchosen).symm.trans hsynced
      exact settled_iff_of_pulled clock hcurrent hanswer hchooses hpulled

end DevicePair

theorem DevicePair.not_settled_of_push {V : Type} (pair : DevicePair V) {call : SyncCall}
    {s : PairState V} (h : value? (pair.run s call).chosen = some .push) :
    ¬ pair.Settled call s := by
  rintro ⟨t, hnoop, -⟩
  rw [hnoop] at h
  cases h

/-! ### Two devices with one file -/

def samplePair : DevicePair Unit where
  device :=
    { resolver := .plain
      engine := sampleEngine
      manifestExchange := sampleDevice.exchange
      sendChunk := fun _ _ w ↦ .ok () w
      syncRoot := sampleRoot
      ownDeviceId := "A" }
  peer := sampleDevice
  exchange_eq := rfl
  keeps_sendChunk _ _ _ := rfl

/-- The peer has stored the manifest of its file, if it has one. -/
def samplePairState (content peerContent : Option Bytes) : PairState Unit where
  storage := sampleStorage content
  repository := fun _ ↦ none
  outbox := []
  clock := fun _ ↦ 0
  world :=
    { storage := sampleStorage peerContent
      repository := fun path ↦ if path = samplePath then peerContent.map sampleManifest else none
      outbox := []
      clock := fun _ ↦ 0
      world := ()
      metadata := fun _ ↦ none
      pending := ∅ }
  metadata := fun _ ↦ none
  pending := ∅

theorem settled_iff_converges_sample :
    let s := samplePairState (some [1]) (some [1, 2])
    let s' : PairState Unit :=
      { s with
        toSyncState := { stateOf (samplePair.run s sampleCall).synced with clock := s.clock } }
    samplePair.Settled sampleCall s' ↔ samplePair.Converges sampleCall s := by
  intro s s'
  have hpull : value? (samplePair.run s sampleCall).chosen = some .pull := by decide
  have hcompleted : Completed (samplePair.run s sampleCall).synced := by decide
  obtain ⟨t, hchosen⟩ := value?_eq_some.mp hpull
  obtain ⟨result, t', hsynced⟩ := hcompleted.exists_ok
  have hsyncs := DevicePair.Syncs.pull s.clock hchosen hsynced
  have hstate : s' = { s with toSyncState := { t' with clock := s.clock } } := by
    simp only [s', hsynced, stateOf]
  rw [hstate]
  exact DevicePair.settled_iff_converges hsyncs

/-- The peer has put the pushed file in place, and is sent it once more. -/
theorem pushed_file_is_pushed_again :
    let s := samplePairState (some [2]) none
    ∃ s', samplePair.Syncs sampleCall s s' ∧
      s'.world.storage.files (.file samplePath) = some [2] ∧
        value? (samplePair.run s' sampleCall).chosen = some .push ∧
          (value? (samplePair.run s' sampleCall).synced).map SyncFileResult.transferredCount =
            some 1 ∧
          ¬ samplePair.Settled sampleCall s' := by
  intro s
  have hpush : value? (samplePair.run s sampleCall).chosen = some .push := by decide
  obtain ⟨t, hchosen⟩ := value?_eq_some.mp hpush
  have houtbox : (stateOf (samplePair.run s sampleCall).synced).outbox.drop s.outbox.length =
      [samplePushOf2 none] := by decide
  have hsyncs := @DevicePair.Syncs.push Unit samplePair sampleCall s t [] [] ⟨0, 0⟩
    (samplePushOf2 none) samplePath s.clock hchosen
    (fun now incoming h ↦ by
      rw [houtbox]
      simpa using h) (by decide)
  exact ⟨_, hsyncs, by decide, by decide, by decide, samplePair.not_settled_of_push (by decide)⟩

end SecureSync
