import SecureSync.Receiver.Assembly

/-!
# Events that commit a file

A push that completes its file is the only event that changes a file of the
sync root or a record.
-/

namespace SecureSync

/-- The push is accepted here and completes its file. -/
def ReceiverSettings.Finishes (settings : ReceiverSettings) (st : ReceiverState) (clock : Clock)
    (incoming : IncomingPush) (destination : FilePath) : Prop :=
  settings.Admits st incoming destination ∧ incoming.totalChunks ≤
    ((st.opened clock incoming.relativePath destination).1.counted clock
      incoming).receivedIndices.card

instance (settings : ReceiverSettings) (st : ReceiverState) (clock : Clock)
    (incoming : IncomingPush) (destination : FilePath) :
    Decidable (settings.Finishes st clock incoming destination) :=
  inferInstanceAs (Decidable (_ ∧ _))

def ReceiverState.SameFiles (st st' : ReceiverState) : Prop :=
  st'.metadata = st.metadata ∧ ∀ p, st'.storage.files (.file p) = st.storage.files (.file p)

section

variable {settings : ReceiverSettings} {st : ReceiverState} {clock : Clock}
  {incoming : IncomingPush} {destination : FilePath}

theorem sameFiles_opened (st : ReceiverState) (clock : Clock) (name : String)
    (destination : FilePath) : st.SameFiles (st.opened clock name destination).2 := by
  rcases opened_cases st clock name destination with ⟨p, -, heq⟩ | ⟨-, heq⟩
  · rw [heq]
    exact ⟨rfl, fun _ ↦ rfl⟩
  · rw [heq]
    exact ⟨rfl, fun p ↦ st.storage.files_file_beginPartial destination p⟩

theorem sameFiles_hold (st : ReceiverState) (clock : Clock) (p : PendingFile)
    (incoming : IncomingPush) : st.SameFiles (st.hold clock p incoming) :=
  ⟨rfl, fun q ↦ st.storage.files_file_writeChunkAtOffset_part incoming.chunk p.partPath q⟩

theorem sameFiles_abortPending (name : String) (st : ReceiverState) :
    st.SameFiles (settings.onDisk.abortPending name st) := by
  unfold ReceivePushedFiles.abortPending
  cases st.pending.lookup name with
  | none => exact ⟨rfl, fun _ ↦ rfl⟩
  | some p => exact ⟨rfl, fun q ↦ st.storage.files_file_unlink p.partPath q⟩

theorem ReceiverState.SameFiles.trans {st' st'' : ReceiverState} (h : st.SameFiles st')
    (h' : st'.SameFiles st'') : st.SameFiles st'' :=
  ⟨h'.1.trans h.1, fun p ↦ (h'.2 p).trans (h.2 p)⟩

theorem sameFiles_foldl_abortPending (names : List String) (st : ReceiverState) :
    st.SameFiles (names.foldl (fun st name ↦ settings.onDisk.abortPending name st) st) := by
  induction names generalizing st with
  | nil => exact ⟨rfl, fun _ ↦ rfl⟩
  | cons name names ih => exact (sameFiles_abortPending name st).trans (ih _)

variable (settings) in
/-- An event leaves files and records alone unless it completes a file. -/
theorem sameFiles_step (st : ReceiverState) (event : ReceiverEvent) :
    st.SameFiles (settings.step st event) ∨ ∃ clock incoming destination,
      event = .push clock incoming ∧ settings.Finishes st clock incoming destination := by
  cases event with
  | sweep now => exact .inl (sameFiles_foldl_abortPending _ st)
  | push clock incoming =>
      by_cases hadmits : ∃ destination, settings.Admits st incoming destination
      · obtain ⟨destination, hadmits⟩ := hadmits
        by_cases hfinish : settings.Finishes st clock incoming destination
        · exact .inr ⟨clock, incoming, destination, rfl, hfinish⟩
        · left
          rw [step_push_of_admits clock hadmits, ReceiverSettings.accepted,
            if_neg fun hdone ↦ hfinish ⟨hadmits, hdone⟩]
          exact (sameFiles_opened st clock _ destination).trans (sameFiles_hold ..)
      · rw [step_push_of_not_admits clock (by simpa using hadmits)]
        exact .inl ⟨rfl, fun _ ↦ rfl⟩

/-- A push that completes its file puts what was assembled in place and saves
one record. -/
theorem step_of_finishes (h : settings.Finishes st clock incoming destination) :
    let after := settings.step st (.push clock incoming)
    after.storage.files (.file destination) = some (incoming.item.apply
        ((st.assembly incoming.relativePath destination).opened []).1) ∧
      (∀ p ≠ destination, after.storage.files (.file p) = st.storage.files (.file p)) ∧
      after.metadata = Function.update st.metadata incoming.relativePath
        (some (settings.finalRecord st clock incoming.relativePath
          ((st.opened clock incoming.relativePath destination).1.counted clock incoming))) := by
  intro after
  have hsame := sameFiles_opened st clock incoming.relativePath destination
  have hopened := (assembly_opened st clock incoming.relativePath destination).1
  have hafter : after = settings.commit (st.opened clock incoming.relativePath destination).2 clock
      destination (st.opened clock incoming.relativePath destination).1 incoming :=
    (step_push_of_admits clock h.1).trans (if_pos h.2)
  rw [hafter, hopened]
  generalize st.opened clock incoming.relativePath destination = opened at hsame
  refine ⟨Storage.files_replace_destination .., fun p hp ↦ ?_, ?_⟩
  · apply (Storage.files_replace_of_ne _ _ _ _ (by simp) (by simpa using hp)).trans
    exact (hsame.trans (sameFiles_hold opened.2 clock opened.1 incoming)).2 p
  · simp only [ReceiverSettings.commit, ReceiverSettings.finalRecord, hsame.1]

end
end SecureSync
