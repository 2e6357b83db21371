import SecureSync.Receiver.Commits
import SecureSync.Sync.Runs

/-!
# What a commit does to the recorded version

The receiver commits whatever it accepted; it never compares versions.  What
it records afterwards covers both sides, and only the decision of the sender
keeps a push from replacing a newer copy.
-/

namespace SecureSync

open Raising SyncDirectionResolver

def ReceiverState.recorded (st : ReceiverState) (name : String) : Option VersionVector :=
  (st.metadata name).map FileMetadata.versionVector

section

variable {settings : ReceiverSettings} {st : ReceiverState} {clock : Clock}
  {incoming : IncomingPush} {destination : FilePath} {name : String}

theorem recorded_of_finishes (h : settings.Finishes st clock incoming destination) :
    (settings.step st (.push clock incoming)).recorded incoming.relativePath =
      some (finalVersion settings.ownDeviceId
        ((st.opened clock incoming.relativePath destination).1.mergedVersion incoming)
        (st.metadata incoming.relativePath)) := by
  have hmetadata := (step_of_finishes h).2.2
  rw [ReceiverState.recorded, hmetadata, Function.update_self, Option.map_some]
  rfl

variable (settings) in
theorem recorded_step_cases (st : ReceiverState) (event : ReceiverEvent) (name : String) :
    (settings.step st event).recorded name = st.recorded name ∨
      ∃ clock incoming destination, event = .push clock incoming ∧
        incoming.relativePath = name ∧ settings.Finishes st clock incoming destination := by
  rcases sameFiles_step settings st event with
    hsame | ⟨clock, incoming, destination, rfl, hfinish⟩
  · exact .inl (by rw [ReceiverState.recorded, hsame.1, ReceiverState.recorded])
  · by_cases hname : incoming.relativePath = name
    · exact .inr ⟨clock, incoming, destination, rfl, hname, hfinish⟩
    · left
      rw [ReceiverState.recorded, (step_of_finishes hfinish).2.2,
        Function.update_of_ne (Ne.symm hname), ReceiverState.recorded]

variable (settings) in
theorem recorded_step {v : VersionVector} (h : st.recorded name = some v) (event : ReceiverEvent) :
    ∃ w, (settings.step st event).recorded name = some w ∧ v.Within w := by
  rcases recorded_step_cases settings st event name with
    hsame | ⟨clock, incoming, destination, rfl, rfl, hfinish⟩
  · exact ⟨v, hsame.trans h, .refl v⟩
  · obtain ⟨existing, hexisting, rfl⟩ := Option.map_eq_some_iff.mp h
    refine ⟨_, recorded_of_finishes hfinish, ?_⟩
    rw [hexisting]
    exact existing_within_finalVersion _ _ _

variable (settings) in
/-- Along a run a recorded version only grows. -/
theorem recorded_run {v : VersionVector} (h : st.recorded name = some v)
    (events : List ReceiverEvent) :
    ∃ w, (settings.onDisk.runForever events st).recorded name = some w ∧ v.Within w := by
  rw [runForever_onDisk]
  induction events generalizing st v with
  | nil => exact ⟨v, h, .refl v⟩
  | cons event events ih =>
      obtain ⟨w, hw, hvw⟩ := recorded_step settings h event
      obtain ⟨x, hx, hwx⟩ := ih hw
      exact ⟨x, hx, hvw.trans hwx⟩

theorem attached_within_finalVersion (ownDeviceId : DeviceId) (pending : PendingFile)
    (existing : Option FileMetadata) {attached : VersionVector}
    (h : incoming.versionVector = some attached) :
    attached.Within (finalVersion ownDeviceId (pending.mergedVersion incoming) existing) := by
  obtain ⟨sent, hsent, hwithin⟩ :
      ∃ sent, pending.mergedVersion incoming = some sent ∧ attached.Within sent := by
    rw [PendingFile.mergedVersion, h]
    cases pending.versionVector with
    | none => exact ⟨attached, rfl, .refl attached⟩
    | some known => exact ⟨_, rfl, VersionVector.within_merge_right _ _⟩
  rw [hsent]
  exact hwithin.trans (sent_within_finalVersion _ _ _)

/-- A resolver that knows both versions pushes concurrent edits, or a version
that is not behind. -/
theorem le_of_push {localCollection remoteCollection : ChunkCollection} {v w : VersionVector}
    (h : (resolve (some localCollection) (some v) (some remoteCollection) (some w)).direction =
      .push) (hconc : ¬ v.IsConcurrent w) : w ≤ v := by
  rcases not_not.mp hconc with hvw | hwv
  · by_cases heq : v = w
    · exact heq ▸ hvw
    · have hlt : v < w := ⟨hvw, heq⟩
      rw [resolve_of_versions, resolveWithVersions, if_pos hlt] at h
      cases h
  · exact hwv

/-- Whatever is accepted is committed, whichever version is recorded; the
version recorded from then on covers the one it replaces and the one attached.
If the sender's sync compared the version recorded here with its own, knew both
and found them ordered, and attached its own, then the push is not behind. -/
theorem commit_covers_versions {pre post : List ReceiverEvent}
    (h : settings.Finishes (settings.onDisk.runForever pre st) clock incoming destination) :
    let before := settings.onDisk.runForever pre st
    let after := settings.onDisk.runForever (pre ++ [.push clock incoming]) st
    let final := settings.onDisk.runForever (pre ++ .push clock incoming :: post) st
    after.storage.files (.file destination) =
        some (incoming.item.apply
          ((before.assembly incoming.relativePath destination).opened []).1) ∧
      (∃ v, final.recorded incoming.relativePath = some v ∧
        (∀ replaced ∈ before.recorded incoming.relativePath, replaced ≤ v) ∧
          ∀ attached ∈ incoming.versionVector, attached ≤ v) ∧
      ∀ (W : Type) (run : SyncRun W) (localCollection remoteCollection : ChunkCollection)
          (attached recorded : VersionVector) (t : SyncState W),
        run.Compares localCollection (some attached) remoteCollection (some recorded) →
        run.chosen = .ok .push t → ¬ attached.IsConcurrent recorded →
        incoming.versionVector = some attached →
        before.recorded incoming.relativePath = some recorded → recorded ≤ attached := by
  intro before after final
  have hafter : after = settings.step before (.push clock incoming) := by
    simp only [after, before, runForever_onDisk, List.foldl_append, List.foldl_cons,
      List.foldl_nil]
  have hfinal : final = settings.onDisk.runForever post after := by
    simp only [final, after, runForever_onDisk, List.foldl_append, List.foldl_cons,
      List.foldl_nil]
  have hfile := (step_of_finishes h).1
  have hrecorded := recorded_of_finishes h
  rw [← hafter] at hfile hrecorded
  refine ⟨hfile, ?_, fun W run c c' attached recorded t hcompares hchosen hconc _ _ ↦ ?_⟩
  · obtain ⟨v, hv, hwithin⟩ := recorded_run settings hrecorded post
    rw [← hfinal] at hv
    refine ⟨v, hv, fun replaced hreplaced ↦ ?_, fun attached hattached ↦ ?_⟩
    · obtain ⟨existing, hexisting, rfl⟩ := Option.map_eq_some_iff.mp hreplaced
      rw [hexisting] at hwithin
      exact ((existing_within_finalVersion _ _ _).trans hwithin).le
    · exact ((attached_within_finalVersion _ _ _ hattached).trans hwithin).le
  · exact le_of_push (SyncRun.direction_of_chosen_push hcompares hchosen) hconc

end

def sampleEdited : ReceiverState :=
  { sampleReceiverState (some [1]) with
    metadata := fun name ↦
      if name = "a.txt" then
        some { filePath := "a.txt", versionVector := .firstEdit "B", lastModified := 0 }
      else none }

theorem commit_covers_versions_sample :
    let attached := (VersionVector.firstEdit "B").increment "A"
    let incoming := samplePushOf2 (some attached)
    let after := sampleReceiver.onDisk.runForever [.push ⟨0, 0⟩ incoming] sampleEdited
    after.storage.files (.file samplePath) = some [2] ∧
      (∃ v, after.recorded "a.txt" = some v ∧ VersionVector.firstEdit "B" ≤ v ∧ attached ≤ v) ∧
      VersionVector.firstEdit "B" ≤ attached := by
  intro attached incoming after
  have hfinish : sampleReceiver.Finishes (sampleReceiver.onDisk.runForever [] sampleEdited) ⟨0, 0⟩
      incoming samplePath := by decide
  obtain ⟨hfile, ⟨v, hv, hreplaced, hattached⟩, hsender⟩ :=
    @commit_covers_versions sampleReceiver sampleEdited ⟨0, 0⟩ incoming samplePath [] [] hfinish
  have hcompares : (sampleRun (some [2]) (some attached) (sampleExchange
      (some ⟨sampleManifest [1], some (.firstEdit "B")⟩) []) fun _ ↦ 0).Compares
        (sampleManifest [2]) (some attached) (sampleManifest [1]) (some (.firstEdit "B")) :=
    ⟨(), (), localManifest_sampleRun (by decide), rfl, rfl⟩
  obtain ⟨t, -, hchosen⟩ := SyncRun.chosen_of_compares hcompares
  have hpush : (resolve (some (sampleManifest [2])) (some attached) (some (sampleManifest [1]))
      (some (.firstEdit "B"))).direction = .push := by decide
  rw [hpush] at hchosen
  exact ⟨hfile, ⟨v, hv, hreplaced _ rfl, hattached _ rfl⟩,
    hsender Unit _ _ _ attached (.firstEdit "B") t hcompares hchosen (by decide) rfl rfl⟩

/-- The receiver's edit and the sender's are concurrent.  The push replaces the
content, and the version recorded for it covers the edit that is gone. -/
theorem concurrent_push_overwrites :
    let incoming := samplePushOf2 (some (.firstEdit "A"))
    let after := sampleReceiver.onDisk.runForever [.push ⟨0, 0⟩ incoming] sampleEdited
    incoming ∈ (sampleRun (some [2]) (some (.firstEdit "A")) (sampleExchange none [])
        fun _ ↦ 0).sent ∧
      sampleEdited.recorded "a.txt" = some (.firstEdit "B") ∧
      ¬ VersionVector.firstEdit "B" ≤ .firstEdit "A" ∧
      sampleEdited.storage.files (.file samplePath) = some [1] ∧
      after.storage.files (.file samplePath) = some [2] ∧
      ∃ v, after.recorded "a.txt" = some v ∧ VersionVector.firstEdit "B" ≤ v :=
  ⟨by decide, by decide, by decide, by decide, by decide,
    (VersionVector.firstEdit "A").merge (.firstEdit "B"), by decide, by decide⟩

end SecureSync
