import SecureSync.Infrastructure.TcpTransport
import SecureSync.Infrastructure.WireMessages

/-!
# Pushes on the wire

What `send_chunk` writes is what `receive_pushes` reads, field by field.
-/

namespace SecureSync

open Raising

theorem lookup_foldl_insert (l : List (Sigma fun _ : DeviceId ↦ ℤ)) (hl : l.NodupKeys)
    (acc : Counters) (d : DeviceId) :
    (l.foldl (fun acc entry ↦ acc.insert entry.1 entry.2) acc).lookup d =
      (l.dlookup d).or (acc.lookup d) := by
  induction l generalizing acc with
  | nil => rfl
  | cons entry l ih =>
      obtain ⟨e, n⟩ := entry
      obtain ⟨hfresh, hl⟩ := List.nodupKeys_cons.mp hl
      rw [List.foldl_cons, ih hl]
      by_cases hd : d = e
      · subst hd
        rw [List.dlookup_eq_none.mpr hfresh, List.dlookup_cons_eq, Finmap.lookup_insert]
        rfl
      · rw [List.dlookup_cons_ne _ _ hd, Finmap.lookup_insert_of_ne _ hd]

/-- A dictionary that is entered one by one is the same again. -/
theorem foldl_insert_listing (texts : WireTexts) (counters : Counters) :
    (texts.listing counters).foldl (fun acc entry ↦ acc.insert entry.1 entry.2) ∅ = counters := by
  have hcoe := texts.coe_listing counters
  have hnodup : (texts.listing counters).NodupKeys := by
    rw [← Multiset.coe_nodupKeys, hcoe]
    exact counters.nodupKeys
  apply Finmap.ext_lookup
  intro d
  rw [lookup_foldl_insert _ hnodup, Finmap.lookup_empty, Option.or_none]
  ext n
  rw [← Option.mem_def, List.mem_dlookup_iff hnodup, ← Multiset.mem_coe, hcoe,
    Finmap.lookup_eq_some_iff]

namespace WireTexts

variable (texts : WireTexts) (incoming : IncomingPush)

/-- The push as it is read. -/
def pushMessage : PushMessage where
  relativePath := incoming.relativePath
  totalChunks := incoming.totalChunks
  chunk := ⟨incoming.chunk.metadata, .bytes incoming.chunk.data, by
    simpa [PyValue.size] using incoming.chunk.length_eq⟩
  versionCounters := incoming.versionVector.map fun version ↦
    (texts.listing version.counters).map fun entry ↦ field entry.1 (.int entry.2)

theorem pushFromPayload_pushPayload (builtins : Builtins) :
    pushFromPayload builtins (texts.pushPayload incoming) = .ok (texts.pushMessage incoming) := by
  rw [pushFromPayload_eq_ok]
  refine ⟨_, rfl, ?_⟩
  have hint (n : ℤ) : builtins.int (.int n) = .ok n := rfl
  constructor
  case chunkHash =>
    simp only [DeclaresHash, pushMessage]
    cases hhash : incoming.chunk.metadata.chunkHash with
    | none => simp [PyDict.given?, PyDict.get?, PyValue.isName, field, orNone]
    | some chunkHash =>
        obtain ⟨⟨⟩, digest, hdigest⟩ := chunkHash
        simp [PyDict.given?, PyDict.get?, PyValue.isName, field, orNone, ChunkAlgorithm.value,
          ChunkAlgorithm.ofValue?, builtins.str_str]
  case counters =>
    simp only [DeclaresCounters, pushMessage]
    cases incoming.versionVector with
    | none => simp [PyDict.given?, PyDict.get?, PyValue.isName, field, orNone]
    | some version =>
        simp [PyDict.given?, PyDict.get?, PyValue.isName, field, orNone, countersToDict,
          PyValue.toDict]
  all_goals
    simp [HasInt, PyDict.get?, PyValue.isName, field, pushMessage, builtins.str_str, hint]

theorem vector?_listing (version : VersionVector) :
    PyDict.vector? ((texts.listing version.counters).map fun entry ↦
      field entry.1 (.int entry.2)) = some version := by
  have hentries : ((texts.listing version.counters).map fun entry ↦
      field entry.1 (.int entry.2)).mapM PyDict.counterOf =
        some ((texts.listing version.counters).map fun entry ↦ (entry.1, entry.2)) := by
    induction texts.listing version.counters with
    | nil => rfl
    | cons entry entries ih =>
        rw [List.map_cons, List.mapM_cons, ih]
        rfl
  rw [PyDict.vector?, hentries, Option.map_some, List.foldl_map]
  exact congrArg (fun counters ↦ some (VersionVector.mk counters))
    (foldl_insert_listing texts version.counters)

theorem typed?_pushMessage : (texts.pushMessage incoming).typed? = some incoming := by
  have hvector : (texts.pushMessage incoming).vector? = some incoming.versionVector := by
    unfold PushMessage.vector? pushMessage
    cases incoming.versionVector with
    | none => rfl
    | some version =>
        dsimp only [Option.map_some]
        rw [vector?_listing]
        rfl
  rw [PushMessage.typed?, hvector]
  rfl

end WireTexts

end SecureSync
