import SecureSync.Exchange.System
import SecureSync.Library.Machines

/-!
# What the manifest server discloses

Its replies tell nothing of what lies outside the sync root: not of the files there, nor of
their manifests, nor of the records under names that lead there.
-/

namespace SecureSync

open Machines Raising

/-- What happens on the serving device, and what its peers ask. -/
inductive ServerEvent where
  | writeFile (path : FilePath) (content : Option Bytes)
  | saveManifest (collection : ChunkCollection)
  | saveMetadata (filePath : String) (metadata : Option FileMetadata)
  | request (packetType : PacketType) (payload : ExchangePayload)

theorem update_eq_update {α β : Type} [DecidableEq α] {f g : α → β} {a x : α} (v : β)
    (h : f x = g x) : Function.update f a v x = Function.update g a v x := by
  by_cases hx : x = a
  · subst hx
    rw [Function.update_self, Function.update_self]
  · rw [Function.update_of_ne hx, Function.update_of_ne hx, h]

namespace ManifestServer

/-- The answer to a request is its reply, or that the connection is dropped. -/
def answer (server : ManifestServer) :
    ServerEvent → Option (Option (PacketType × ExchangePayload)) × ManifestServer
  | .writeFile path content =>
      (none, { server with files := Function.update server.files path content })
  | .saveManifest collection =>
      (none, { server with repository := server.repository.save server.resolver collection })
  | .saveMetadata filePath metadata =>
      (none, { server with
        metadataLookup := server.metadataLookup.map fun lookup ↦
          Function.update lookup filePath metadata })
  | .request packetType payload => (some (server.reply packetType payload), server)

/-- All that the peers get in a run. -/
def replies (server : ManifestServer) (events : List ServerEvent) :
    List (Option (PacketType × ExchangePayload)) := (run answer server events).1.reduceOption

variable (server : ManifestServer)

/-- The resolved path is that of the sync root or below it. -/
def covers (path : FilePath) : Bool := server.resolver.resolve server.syncRoot <+: path

/-- An event that the peers may learn of. -/
def visible : ServerEvent → Bool
  | .writeFile path _ => server.covers path
  | .saveManifest collection => server.covers (server.resolver.resolve collection.sourcePath)
  | .saveMetadata filePath _ => (server.safeResolve filePath).toOption.isSome
  | .request _ _ => true

/-- Servers with one sync root that have the same in it. -/
structure Agrees (server server' : ManifestServer) : Prop where
  resolver : server'.resolver = server.resolver
  syncRoot : server'.syncRoot = server.syncRoot
  repository : ∀ path, server.covers path = true → server'.repository path = server.repository path
  files : ∀ path, server.covers path = true → server'.files path = server.files path
  lookup : server'.metadataLookup.isSome = server.metadataLookup.isSome
  versions : ∀ filePath, (server.safeResolve filePath).toOption.isSome = true →
    server'.resolveVersion filePath = server.resolveVersion filePath

variable {server} {server' : ManifestServer}

theorem Agrees.safeResolve (h : server.Agrees server') (relativePath : String) :
    server'.safeResolve relativePath = server.safeResolve relativePath := by
  rw [ManifestServer.safeResolve, ManifestServer.safeResolve, h.resolver, h.syncRoot]

theorem covers_of_safeResolve {relativePath : String} {path : FilePath}
    (h : server.safeResolve relativePath = .ok path) :
    server.covers path = true ∧ server.resolver.resolve path = path := by
  have hpath := safeResolve_eq_ok.mp h
  refine ⟨decide_eq_true ?_, resolve_of_resolveWithin hpath⟩
  unfold resolveWithin at hpath
  obtain ⟨_, -, hpath⟩ := except_bind_eq_ok.mp hpath
  dsimp only at hpath
  split_ifs at hpath with hbelow
  cases hpath
  exact hbelow

theorem Agrees.load (h : server.Agrees server') {relativePath : String} {path : FilePath}
    (hpath : server.safeResolve relativePath = .ok path) :
    server'.repository.load server'.resolver path =
      server.repository.load server.resolver path := by
  obtain ⟨hcovers, hresolved⟩ := covers_of_safeResolve hpath
  rw [ChunkRepository.load, ChunkRepository.load, h.resolver, hresolved]
  exact h.repository path hcovers

theorem Agrees.buildManifestResponse (h : server.Agrees server') (relativePath : String) :
    server'.buildManifestResponse relativePath = server.buildManifestResponse relativePath := by
  unfold ManifestServer.buildManifestResponse
  rw [h.safeResolve]
  cases hpath : server.safeResolve relativePath with
  | error e => rfl
  | ok path =>
      simp only [bind, Except.bind]
      rw [h.load hpath, h.versions relativePath (by rw [hpath]; rfl)]

theorem Agrees.buildChunkResponse (h : server.Agrees server') (relativePath : String)
    (requestedHashes : List String) :
    server'.buildChunkResponse relativePath requestedHashes =
      server.buildChunkResponse relativePath requestedHashes := by
  unfold ManifestServer.buildChunkResponse
  rw [h.safeResolve]
  cases hpath : server.safeResolve relativePath with
  | error e => rfl
  | ok path =>
      simp only [bind, Except.bind]
      rw [h.load hpath, h.files path (covers_of_safeResolve hpath).1]

theorem Agrees.reply (h : server.Agrees server') (packetType : PacketType)
    (payload : ExchangePayload) :
    server'.reply packetType payload = server.reply packetType payload := by
  unfold ManifestServer.reply
  split_ifs
  · cases payload with
    | chunkRequest relativePath chunkHashes => simp only [h.buildChunkResponse]
    | manifestRequest relativePath => rfl
    | manifestResponse response => rfl
    | chunkResponse chunks => rfl
    | push relativePath totalChunks chunk versionCounters => rfl
  · simp only [h.buildManifestResponse]

/-- The versions that are told are those of the records under names of the sync root. -/
theorem resolveVersion_saveMetadata (filePath relativePath : String)
    (metadata : Option FileMetadata) :
    (server.answer (.saveMetadata filePath metadata)).2.resolveVersion relativePath =
      if relativePath = filePath then
        if server.metadataLookup.isSome then metadata.map FileMetadata.versionVector else none
      else server.resolveVersion relativePath := by
  unfold ManifestServer.answer ManifestServer.resolveVersion
  cases server.metadataLookup with
  | none => simp
  | some lookup =>
      by_cases hname : relativePath = filePath
      · subst hname
        simp
      · simp [hname]

/-- What happens outside the sync root shows nothing and is not to be seen afterwards. -/
theorem Agrees.answer_hidden (h : server.Agrees server') {event : ServerEvent}
    (hhidden : server.visible event = false) :
    (server.answer event).1 = none ∧ (server.answer event).2.Agrees server' := by
  cases event with
  | writeFile path content =>
      refine ⟨rfl, { h with files := fun path' hpath' ↦ ?_ }⟩
      have hne : path' ≠ path := by
        rintro rfl
        cases hhidden.symm.trans hpath'
      exact (h.files path' hpath').trans (Function.update_of_ne hne ..).symm
  | saveManifest collection =>
      refine ⟨rfl, { h with repository := fun path' hpath' ↦ ?_ }⟩
      have hne : path' ≠ server.resolver.resolve collection.sourcePath := by
        rintro rfl
        cases hhidden.symm.trans hpath'
      exact (h.repository path' hpath').trans (Function.update_of_ne hne ..).symm
  | saveMetadata filePath metadata =>
      refine ⟨rfl, { h with lookup := ?_, versions := fun relativePath hname ↦ ?_ }⟩
      · exact h.lookup.trans Option.isSome_map.symm
      rw [resolveVersion_saveMetadata, if_neg]
      · exact h.versions relativePath hname
      · rintro rfl
        cases hhidden.symm.trans hname
  | request packetType payload => cases hhidden

/-- Anything else shows the same on both sides, and leaves them with the same. -/
theorem Agrees.answer (h : server.Agrees server') (event : ServerEvent) :
    (server.answer event).1 = (server'.answer event).1 ∧
      (server.answer event).2.Agrees (server'.answer event).2 := by
  cases event with
  | writeFile path content =>
      refine ⟨rfl, { h with files := fun path' hpath' ↦ ?_ }⟩
      exact update_eq_update content (h.files path' hpath')
  | saveManifest collection =>
      refine ⟨rfl, { h with repository := fun path' hpath' ↦ ?_ }⟩
      change server'.repository.save server'.resolver collection path' =
        server.repository.save server.resolver collection path'
      unfold ChunkRepository.save
      rw [h.resolver]
      exact update_eq_update _ (h.repository path' hpath')
  | saveMetadata filePath metadata =>
      refine ⟨rfl, { h with lookup := ?_, versions := fun relativePath hname ↦ ?_ }⟩
      · exact Option.isSome_map.trans (h.lookup.trans Option.isSome_map.symm)
      · rw [resolveVersion_saveMetadata, resolveVersion_saveMetadata, h.lookup,
          h.versions relativePath hname]
  | request packetType payload => exact ⟨congrArg some (h.reply packetType payload).symm, h⟩

/-- Where the sync root is does not change. -/
structure SameRoot (server server' : ManifestServer) : Prop where
  resolver : server'.resolver = server.resolver
  syncRoot : server'.syncRoot = server.syncRoot

theorem sameRoot_answer (server : ManifestServer) (event : ServerEvent) :
    server.SameRoot (server.answer event).2 := by
  cases event with
  | writeFile path content => exact ⟨rfl, rfl⟩
  | saveManifest collection => exact ⟨rfl, rfl⟩
  | saveMetadata filePath metadata => exact ⟨rfl, rfl⟩
  | request packetType payload => exact ⟨rfl, rfl⟩

theorem SameRoot.trans {server'' : ManifestServer} (h : server.SameRoot server')
    (h' : server'.SameRoot server'') : server.SameRoot server'' :=
  ⟨h'.resolver.trans h.resolver, h'.syncRoot.trans h.syncRoot⟩

theorem SameRoot.visible (h : server.SameRoot server') (event : ServerEvent) :
    server'.visible event = server.visible event := by
  obtain ⟨resolver, syncRoot, repository, files, lookup⟩ := server
  obtain ⟨resolver', syncRoot', repository', files', lookup'⟩ := server'
  obtain ⟨hresolver, hroot⟩ := h
  dsimp only at hresolver hroot
  subst hresolver hroot
  cases event with
  | writeFile path content => rfl
  | saveManifest collection => rfl
  | saveMetadata filePath metadata => rfl
  | request packetType payload => rfl

/-- Noninterference: the replies of a run are those of a server with the same in its sync root,
on which nothing happens outside it. -/
theorem disclosure_confined (h : server.Agrees server') (events : List ServerEvent) :
    server.replies events = server'.replies (events.filter server.visible) := by
  refine run_purge (R := fun s t ↦ server.SameRoot s ∧ s.Agrees t) ?_ ?_ ⟨⟨rfl, rfl⟩, h⟩ events
  · rintro s t event hhidden ⟨hroot, hagrees⟩
    rw [← hroot.visible] at hhidden
    obtain ⟨hanswer, hagrees⟩ := hagrees.answer_hidden hhidden
    exact ⟨hanswer, hroot.trans (s.sameRoot_answer event), hagrees⟩
  · rintro s t event - ⟨hroot, hagrees⟩
    obtain ⟨hanswer, hagrees⟩ := hagrees.answer event
    exact ⟨hanswer, hroot.trans (s.sameRoot_answer event), hagrees⟩

/-- A server next to a key that its peers must not see. -/
def sampleServer (secret : Bytes) : ManifestServer where
  resolver := .plain
  syncRoot := ["srv", "sync"]
  repository _ := none
  files path := if path = ["srv", "id.key"] then some secret else none

def sampleManifest : ChunkCollection where
  sourcePath := ["srv", "sync", "a.txt"]
  chunkSize := 4
  totalSize := 1
  chunks := [⟨"a-0", 0, 1, 0, some digestOf1, by simp⟩]
  wellFormed := by decide

def sampleEvents : List ServerEvent :=
  [.request .fileManifest (.manifestRequest "../id.key"), .writeFile ["srv", "id.key"] none,
    .saveMetadata "/srv/id.key" none, .writeFile ["srv", "sync", "a.txt"] (some [1]),
    .saveManifest sampleManifest, .request .fileManifest (.manifestRequest "a.txt"),
    .request .chunkRequest (.chunkRequest "a.txt" [digestOf1.digest])]

/-- The request for the key is dropped, and those for the file are answered. -/
theorem disclosure_confined_secret :
    (sampleServer [7]).replies sampleEvents =
        (sampleServer [8]).replies (sampleEvents.filter (sampleServer [7]).visible) ∧
      (sampleServer [7]).replies sampleEvents =
        [none, some (.fileManifest, .manifestResponse ⟨true, some sampleManifest, none⟩),
          some (.chunkData, .chunkResponse
            [⟨"a-0", 0, 1, 0, "sha256", digestOf1.digest, [1]⟩])] := by
  refine ⟨disclosure_confined ⟨rfl, rfl, fun _ _ ↦ rfl, fun path hpath ↦ ?_, rfl,
    fun _ _ ↦ rfl⟩ _, ?_⟩
  · have hne : path ≠ ["srv", "id.key"] := by
      rintro rfl
      exact absurd hpath (by decide)
    simp [sampleServer, hne]
  · decide +kernel

end ManifestServer
end SecureSync
