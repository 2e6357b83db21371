import SecureSync.Infrastructure.TrustedPeerFile
import SecureSync.Infrastructure.X25519Handshake

/-!
# The pins survive

`FileTrustedPeerRepository` against the pins that the handshake works on, over every sequence of
calls that return, raise or are cut short by a crash.
-/

namespace SecureSync

open KeyedTable Machines

namespace FileTrustedPeerRepository

/-! ## The pins -/

def referenceStep (pinned : TrustStore) : TrustCall → TrustAnswer × TrustStore
  | .getTrustedKey deviceId readRaises =>
      (if readRaises then .raised .os else .key (pinned.lookup deviceId), pinned)
  | .trust deviceId publicKey readRaises saveEnd =>
      if readRaises then (.raised .os, pinned)
      else
        (saveEnd.answer, if saveEnd.replaces then pinned.insert deviceId publicKey else pinned)

/-- The store has the pins, in hexadecimal notation. -/
def Shows (store : TrustedKeys) (pinned : TrustStore) : Prop :=
  ∀ deviceId, store.find? deviceId =
    (pinned.lookup deviceId).map fun publicKey ↦ (deviceId, String.ofList (JsonTexts.hex publicKey))

variable {repository : FileTrustedPeerRepository} {files : TrustFiles} {pinned : TrustStore}

/-- The document is whole, and shows the pins; before the first one there is none. -/
def Holds (repository : FileTrustedPeerRepository) (files : TrustFiles)
    (pinned : TrustStore) : Prop :=
  ∃ store, Shows store pinned ∧
    (files repository.storagePath = none ∧ store = .empty ∨
      files repository.storagePath = some (document store))

theorem storagePath_ne_tmpPath : repository.storagePath ≠ repository.tmpPath := by
  intro h
  have hname : repository.name = "." ++ repository.name ++ ".tmp" := by
    simpa [storagePath, tmpPath] using h
  have hlength := congrArg String.length hname
  simp only [String.length_append] at hlength
  have hdot : ".".length = 1 := by decide
  omega

/-! ## Reading what was written -/

theorem find?_storeOf_perm {store : TrustedKeys} {entries : List (String × String)}
    (h : entries.Perm store.items) (deviceId : DeviceId) :
    (storeOf entries).find? deviceId = store.find? deviceId := by
  have hnodup : (entries.map Prod.fst).Nodup := (h.map Prod.fst).nodup_iff.mpr store.nodup
  let sorted : TrustedKeys := ⟨entries, hnodup⟩
  have hsame : sorted.find? deviceId = store.find? deviceId := by
    ext entry
    rw [Table.find?_eq_some, Table.find?_eq_some]
    exact and_congr_left fun _ ↦ h.mem_iff
  have hempty : (Table.empty : TrustedKeys).find? deviceId = none := rfl
  rw [storeOf, Table.find?_foldl_set hnodup, hempty, Option.or_none]
  exact hsame

theorem parse_document (store : TrustedKeys) :
    ∃ read, parse (document store) = .ok read ∧
      ∀ deviceId, read.find? deviceId = store.find? deviceId := by
  refine ⟨storeOf (store.items.mergeSort fun a b ↦ a.1 ≤ b.1), ?_,
    find?_storeOf_perm (List.mergeSort_perm _ _)⟩
  have hdecode : String.fromUTF8? ⟨(document store).toArray⟩ =
      some (String.ofList (JsonTexts.dumps (store.items.mergeSort fun a b ↦ a.1 ≤ b.1))) :=
    fromUTF8?_eq_some.mpr rfl
  rw [parse, hdecode]
  simp only [String.toList_ofList, JsonTexts.loads_dumps]

theorem Holds.load (h : Holds repository files pinned) :
    ∃ store, repository.load files false = .ok store ∧ Shows store pinned := by
  obtain ⟨store, hshows, ⟨hnone, rfl⟩ | hsome⟩ := h
  · refine ⟨.empty, ?_, hshows⟩
    simp [FileTrustedPeerRepository.load, hnone]
  · obtain ⟨read, hparse, hfind⟩ := parse_document store
    refine ⟨read, ?_, fun deviceId ↦ (hfind deviceId).trans (hshows deviceId)⟩
    simp [FileTrustedPeerRepository.load, hsome, hparse]

theorem Shows.set {store : TrustedKeys} (h : Shows store pinned) (deviceId : DeviceId)
    (publicKey : Bytes) :
    Shows (store.set (deviceId, String.ofList (JsonTexts.hex publicKey)))
      (pinned.insert deviceId publicKey) := by
  intro other
  by_cases hother : other = deviceId
  · subst hother
    rw [Finmap.lookup_insert]
    exact Table.find?_set_self
  · rw [Finmap.lookup_insert_of_ne pinned hother, Table.find?_set_of_ne hother]
    exact h other

/-! ## Saving -/

theorem leaves_of_ne {payload : Bytes} {point : SavePoint} {p : FilePath}
    (h : p ≠ repository.tmpPath) : repository.leaves files payload point p = files p := by
  cases point <;> simp [leaves, Function.update_of_ne h]

/-- The document is replaced as a whole, or not at all, and nothing else is touched. -/
theorem save_of_ne (payload : Bytes) (saveEnd : SaveEnd) {p : FilePath}
    (h : p ≠ repository.tmpPath) :
    repository.save files payload saveEnd p =
      if p = repository.storagePath ∧ saveEnd.replaces then some payload else files p := by
  cases saveEnd with
  | completes | crashesAfterReplace =>
      by_cases hp : p = repository.storagePath
      · subst hp
        simp [save, replaced, SaveEnd.replaces]
      · simp [save, replaced, SaveEnd.replaces, hp, Function.update_of_ne h]
  | mkdirRaises => simp [save, SaveEnd.replaces]
  | raises point unlinks =>
      cases unlinks <;> simp [save, SaveEnd.replaces, leaves_of_ne h, Function.update_of_ne h]
  | crashes point => simp [save, SaveEnd.replaces, leaves_of_ne h]

/-! ## Runs -/

theorem step_refines (h : Holds repository files pinned) (call : TrustCall) :
    (repository.step files call).1 = (referenceStep pinned call).1 ∧
      Holds repository (repository.step files call).2 (referenceStep pinned call).2 := by
  cases call with
  | getTrustedKey deviceId readRaises =>
      refine ⟨?_, h⟩
      cases readRaises with
      | true => rfl
      | false =>
          obtain ⟨store, hload, hshows⟩ := h.load
          simp only [step, getTrustedKey, hload, referenceStep, hshows deviceId]
          cases pinned.lookup deviceId with
          | none => rfl
          | some publicKey =>
              simp [String.toList_ofList, JsonTexts.fromHex?_hex]
  | trust deviceId publicKey readRaises saveEnd =>
      cases readRaises with
      | true => exact ⟨rfl, h⟩
      | false =>
          obtain ⟨store, hload, hshows⟩ := h.load
          simp only [step, trust, hload, referenceStep, Bool.false_eq_true, if_false]
          refine ⟨trivial, ?_⟩
          have hsave (payload : Bytes) :
              repository.save files payload saveEnd repository.storagePath = _ :=
            save_of_ne payload saveEnd storagePath_ne_tmpPath
          cases hreplaces : saveEnd.replaces with
          | true =>
              refine ⟨_, hshows.set deviceId publicKey, .inr ?_⟩
              rw [hsave, hreplaces]
              simp
          | false =>
              obtain ⟨old, hold, hfile⟩ := h
              refine ⟨old, hold, ?_⟩
              rw [hsave, hreplaces]
              simpa using hfile

theorem step_of_ne {p : FilePath} (hstorage : p ≠ repository.storagePath)
    (htmp : p ≠ repository.tmpPath) (call : TrustCall) :
    (repository.step files call).2 p = files p := by
  cases call with
  | getTrustedKey deviceId readRaises => rfl
  | trust deviceId publicKey readRaises saveEnd =>
      simp only [step, trust]
      split
      · rfl
      · exact (save_of_ne _ _ htmp).trans (if_neg fun h ↦ hstorage h.1)

/-- Over every sequence of calls, cut short or not, the store answers like the pins of the
handshake, where a key is pinned as soon as its document has been put in place; the document on
disk is whole at every time; and no file is touched but it and the temporary one. -/
theorem trusted_peers_refine (repository : FileTrustedPeerRepository) (files : TrustFiles)
    (pinned : TrustStore) (h : Holds repository files pinned) (calls : List TrustCall) :
    (Machines.run repository.step files calls).1 = (Machines.run referenceStep pinned calls).1 ∧
    Holds repository (Machines.run repository.step files calls).2
      (Machines.run referenceStep pinned calls).2 ∧
    ∀ p, p ≠ repository.storagePath → p ≠ repository.tmpPath →
      (Machines.run repository.step files calls).2 p = files p := by
  obtain ⟨hanswers, hholds⟩ := run_simulates (R := Holds repository)
    (fun _ _ call h ↦ step_refines h call) h calls
  refine ⟨hanswers, hholds, fun p hstorage htmp ↦ ?_⟩
  exact run_induction (P := fun later : TrustFiles ↦ later p = files p)
    (fun _ call hp ↦ (step_of_ne hstorage htmp call).trans hp) rfl calls

/-- A crash in the middle of a write, and one after the document was put in place. -/
def crashingCalls : List TrustCall :=
  [.trust "a" [1] false .completes, .trust "b" [255] false (.crashes (.writing 7)),
    .getTrustedKey "b" false, .trust "a" [2] false .crashesAfterReplace, .getTrustedKey "a" false]

theorem trusted_peers_refine_crashes :
    (Machines.run (step ⟨["srv"], "trust.json"⟩) (fun _ ↦ none) crashingCalls).1 =
      [.trusted, .crashed, .key none, .crashed, .key (some [2])] := by
  have hempty : Holds ⟨["srv"], "trust.json"⟩ (fun _ ↦ none) ∅ :=
    ⟨.empty, fun _ ↦ rfl, .inl ⟨rfl, rfl⟩⟩
  exact (trusted_peers_refine ⟨["srv"], "trust.json"⟩ (fun _ ↦ none) ∅ hempty
    crashingCalls).1

end FileTrustedPeerRepository
end SecureSync
