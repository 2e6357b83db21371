import SecureSync.Receiver.Journal

/-!
# Recorded versions only grow

The vectors that come with the chunks are merged in the pending entry, and the
entry may outlive a commit that fails.  Whatever is recorded in the end covers
the record that it replaces and every vector that was counted.
-/

namespace SecureSync

open Raising

def sentVersions (counted : List IncomingPush) : List VersionVector :=
  counted.filterMap IncomingPush.versionVector

/-- The new record covers the old one and what was sent, and without a vector from the
sender it is strictly newer. -/
def Covers (old new : Option FileMetadata) (sent : List VersionVector) : Prop :=
  ∃ saved, new = some saved ∧
    (∀ existing ∈ old, existing.versionVector ≤ saved.versionVector) ∧
    (∀ v ∈ sent, v ≤ saved.versionVector) ∧
    (sent = [] → (old.elim .empty FileMetadata.versionVector) < saved.versionVector)

theorem sentVersions_append (counted : List IncomingPush) (incoming : IncomingPush) :
    sentVersions (counted ++ [incoming]) =
      sentVersions counted ++ incoming.versionVector.toList := by
  rw [sentVersions, List.filterMap_append]
  cases h : incoming.versionVector with
  | none => simp [sentVersions, h]
  | some v => simp [sentVersions, h]

/-- The merge holds all that was sent, and there is one exactly if something was sent. -/
theorem mergedVersions_spec (counted : List IncomingPush) :
    (mergedVersions counted = none ∧ sentVersions counted = []) ∨
      ∃ merged, mergedVersions counted = some merged ∧ sentVersions counted ≠ [] ∧
        ∀ v ∈ sentVersions counted, v.Within merged := by
  induction counted using List.reverseRecOn with
  | nil => exact .inl ⟨rfl, rfl⟩
  | append_singleton counted incoming ih =>
      rw [mergedVersions_append, sentVersions_append]
      unfold mergeSent
      cases hsent : incoming.versionVector with
      | none => simpa using ih
      | some sent =>
          right
          rcases ih with ⟨hnone, hnil⟩ | ⟨merged, hmerged, -, hwithin⟩
          · simp only [hnone, hnil]
            exact ⟨sent, rfl, by simp, by simp [VersionVector.Within.refl]⟩
          · simp only [hmerged]
            refine ⟨merged.merge sent, rfl, by simp, fun v hv ↦ ?_⟩
            rcases List.mem_append.mp hv with hv | hv
            · exact (hwithin v hv).trans (VersionVector.within_merge_left _ _)
            · obtain rfl : v = sent := by simpa using hv
              exact VersionVector.within_merge_right _ _

variable {settings : ReceiverSettings} {services : Services} {st : ReceiverState} {clock : Clock}
  {incoming : IncomingPush}

theorem covers_finalRecord {counted : List IncomingPush} {p : PendingFile} (name : String)
    (h : p.MadeOf counted) :
    Covers (st.metadata name) (some (settings.finalRecord st clock name p))
      (sentVersions counted) := by
  refine ⟨_, rfl, fun existing hexisting ↦ ?_, ?_⟩
  · rw [ReceiverSettings.finalRecord, hexisting]
    exact (existing_within_finalVersion _ _ _).le
  · simp only [ReceiverSettings.finalRecord, h.version]
    rcases mergedVersions_spec counted with ⟨hnone, hnil⟩ | ⟨merged, hmerged, hne, hwithin⟩
    · rw [hnone, hnil]
      refine ⟨fun v hv ↦ absurd hv List.not_mem_nil, fun _ ↦ ?_⟩
      cases st.metadata name with
      | none => exact VersionVector.lt_increment _ _
      | some existing => exact VersionVector.lt_increment _ _
    · rw [hmerged]
      exact ⟨fun v hv ↦ ((hwithin v hv).trans (sent_within_finalVersion _ _ _)).le,
        fun hnil ↦ absurd hnil hne⟩

/-- One push: the records of other names stay, and that of its own stays or is covered; a
push that is handled to the end and closes its entry has recorded a version. -/
theorem recorded_push (settings : ReceiverSettings) {journal : PushJournal}
    (h : st.Journaled journal) (hfaithful : services.metadataRepo.Faithful) (clock : Clock)
    (incoming : IncomingPush) :
    let result := (settings.under services).handlePush clock incoming st
    let sent := sentVersions (settings.countedBy services clock incoming st journal)
    (∀ name, name ≠ incoming.relativePath →
      (stateOf result).metadata name = st.metadata name) ∧
    ((stateOf result).metadata incoming.relativePath = st.metadata incoming.relativePath ∨
      Covers (st.metadata incoming.relativePath)
        ((stateOf result).metadata incoming.relativePath) sent) ∧
    (Completed result → incoming.relativePath ∉ (stateOf result).pending →
      Covers (st.metadata incoming.relativePath)
        ((stateOf result).metadata incoming.relativePath) sent) := by
  intro result sent
  have heffect : RecordEffect settings services clock incoming st result :=
    recordEffect_handlePush hfaithful clock incoming st
  cases heffect with
  | kept hmetadata hopen =>
      rw [hmetadata]
      exact ⟨fun _ _ ↦ rfl, .inl rfl, fun hdone hclosed ↦ absurd (hopen hdone) hclosed⟩
  | @saved destination p s s' hadmits hentry hwrite hmetadata hclosed =>
      have hcounts := countsChunk_of_write hadmits hentry hwrite
      have hmade : (p.counted clock incoming).MadeOf
          (settings.countedBy services clock incoming st journal) := by
        rw [ReceiverSettings.countedBy, hcounts, if_pos rfl]
        exact (h.countedBefore hentry).counted clock incoming
      have hcovers : Covers (st.metadata incoming.relativePath)
          ((stateOf result).metadata incoming.relativePath) sent := by
        rw [hmetadata, Function.update_self]
        exact covers_finalRecord _ hmade
      refine ⟨fun name hname ↦ ?_, .inr hcovers, fun _ _ ↦ hcovers⟩
      rw [hmetadata, Function.update_of_ne hname]

/-! ## Runs -/

def ReceiverState.version (st : ReceiverState) (name : String) : Option VersionVector :=
  (st.metadata name).map FileMetadata.versionVector

/-- A record that is there stays, or gives way to one that covers it. -/
def Grows (st st' : ReceiverState) : Prop :=
  ∀ name v, st.version name = some v → ∃ w, st'.version name = some w ∧ v.Within w

theorem Grows.of_metadata {st' : ReceiverState} (h : st'.metadata = st.metadata) :
    Grows st st' := by
  intro name v hv
  rw [ReceiverState.version, h]
  exact ⟨v, hv, .refl v⟩

theorem Grows.trans {st' st'' : ReceiverState} (h : Grows st st') (h' : Grows st' st'') :
    Grows st st'' := by
  intro name v hv
  obtain ⟨w, hw, hvw⟩ := h name v hv
  obtain ⟨x, hx, hwx⟩ := h' name w hw
  exact ⟨x, hx, hvw.trans hwx⟩

theorem grows_handleEvent (settings : ReceiverSettings)
    (hfaithful : services.metadataRepo.Faithful) (event : ReceiverEvent)
    (st : ReceiverState) :
    Grows st (stateOf ((settings.under services).handleEvent event st)) := by
  cases event with
  | sweep now => exact .of_metadata (metadata_foldl_abortPending settings services _ st)
  | push clock incoming =>
      rw [handleEvent_push]
      have heffect : RecordEffect settings services clock incoming st _ :=
        recordEffect_handlePush hfaithful clock incoming st
      cases heffect with
      | kept hmetadata => exact .of_metadata hmetadata
      | @saved destination p s s' hadmits hentry hwrite hmetadata hclosed =>
          intro name v hv
          rw [ReceiverState.version, hmetadata]
          by_cases hname : name = incoming.relativePath
          · subst hname
            obtain ⟨existing, hexisting, rfl⟩ := Option.map_eq_some_iff.mp hv
            rw [Function.update_self]
            refine ⟨_, rfl, ?_⟩
            rw [ReceiverSettings.finalRecord, hexisting]
            exact existing_within_finalVersion _ _ _
          · rw [Function.update_of_ne hname]
            exact ⟨v, hv, .refl v⟩

theorem grows_advance {input : Services × ReceiverInput} (run : ReceiverRun)
    (hfaithful : input.1.metadataRepo.Faithful) :
    Grows run.state (settings.advance run input).state := by
  apply advance_rule settings (P := Grows run.state) (.of_metadata rfl)
  · exact fun st h ↦ h.trans (.of_metadata rfl)
  · exact fun event _ _ ↦ grows_handleEvent settings hfaithful event run.state

theorem grows_run (run : ReceiverRun) (inputs : List (Services × ReceiverInput))
    (hfaithful : ∀ input ∈ inputs, input.1.metadataRepo.Faithful) :
    Grows run.state (inputs.foldl settings.advance run).state := by
  induction inputs generalizing run with
  | nil => exact .of_metadata rfl
  | cons input inputs ih =>
      obtain ⟨hinput, hinputs⟩ := List.forall_mem_cons.mp hfaithful
      exact (grows_advance run hinput).trans (ih _ hinputs)

/-- Whatever the receiver has been through, with commits and writes that fail: what a push
records covers the old record and every vector that came with a counted chunk, is strictly
newer if none came, and is never taken back later. -/
theorem recorded_version_grows (settings : ReceiverSettings) (storage : Storage)
    (metadata : MetadataStore) (inputs : List (Services × ReceiverInput)) (services : Services)
    (hfaithful : services.metadataRepo.Faithful) (clock : Clock) (incoming : IncomingPush) :
    let j := settings.journaled storage metadata inputs
    let st := j.run.state
    let result := (settings.under services).handlePush clock incoming st
    let name := incoming.relativePath
    let sent := sentVersions (settings.countedBy services clock incoming st j.journal)
    (∀ other, other ≠ name → (stateOf result).metadata other = st.metadata other) ∧
    ((stateOf result).metadata name = st.metadata name ∨
      Covers (st.metadata name) ((stateOf result).metadata name) sent) ∧
    (Completed result → name ∉ (stateOf result).pending →
      Covers (st.metadata name) ((stateOf result).metadata name) sent) ∧
    ∀ later : List (Services × ReceiverInput),
      (∀ input ∈ later, input.1.metadataRepo.Faithful) → ∀ other v,
        (stateOf result).version other = some v →
          ∃ w, (later.foldl settings.advance ⟨stateOf result, false⟩).state.version other =
            some w ∧ v ≤ w := by
  intro j st result name sent
  obtain ⟨hothers, hown, hclosed⟩ := recorded_push settings
    (journaled_run settings storage metadata inputs) hfaithful clock incoming
  refine ⟨hothers, hown, hclosed, fun later hlater other v hv ↦ ?_⟩
  obtain ⟨w, hw, hwithin⟩ := grows_run ⟨stateOf result, false⟩ later hlater other v hv
  exact ⟨w, hw, hwithin.le⟩

/-- The first push comes with a vector and cannot be committed. -/
def stuckInputs : List (Services × ReceiverInput) :=
  [(stuckServices, .event (.push ⟨0, 0⟩ (samplePushOf2 (some (.firstEdit "A")))))]

def recordOfB : MetadataStore := fun name ↦
  if name = "a.txt" then
    some { filePath := "a.txt", versionVector := .firstEdit "B", lastModified := 0 }
  else none

def stuckState : ReceiverState :=
  (sampleReceiver.journaled (.ofFiles fun _ ↦ none) recordOfB stuckInputs).run.state

def afterStuck : EStateM.Result PushError ReceiverState Unit :=
  (sampleReceiver.under freeServices).handlePush ⟨1, 1⟩ (samplePushOf2 none) stuckState

/-- The next push, without a vector, records what came with the first one too. -/
theorem recorded_version_grows_sample :
    ∃ v, (stateOf afterStuck).version "a.txt" = some v ∧ VersionVector.firstEdit "A" ≤ v ∧
      VersionVector.firstEdit "B" ≤ v ∧
      ∃ w, ([(freeServices, ReceiverInput.cancel)].foldl sampleReceiver.advance
        ⟨stateOf afterStuck, false⟩).state.version "a.txt" = some w ∧ v ≤ w := by
  obtain ⟨-, -, hclosed, hlater⟩ := recorded_version_grows sampleReceiver (.ofFiles fun _ ↦ none)
    recordOfB stuckInputs freeServices mapMetadataRepository_faithful ⟨1, 1⟩ (samplePushOf2 none)
  obtain ⟨saved, hsaved, hold, hsent, -⟩ := hclosed (by decide +kernel) (by decide +kernel)
  have hversion : (stateOf afterStuck).version "a.txt" = some saved.versionVector :=
    congrArg (Option.map FileMetadata.versionVector) hsaved
  have hstored : stuckState.metadata "a.txt" =
      some { filePath := "a.txt", versionVector := .firstEdit "B", lastModified := 0 } := by
    decide +kernel
  have hmerged : VersionVector.firstEdit "A" ∈ sentVersions (sampleReceiver.countedBy freeServices
      ⟨1, 1⟩ (samplePushOf2 none) stuckState (sampleReceiver.journaled (.ofFiles fun _ ↦ none)
        recordOfB stuckInputs).journal) := by
    decide +kernel
  refine ⟨_, hversion, hsent _ hmerged, hold _ hstored, hlater _ ?_ _ _ hversion⟩
  exact List.forall_mem_singleton.mpr mapMetadataRepository_faithful

end SecureSync
