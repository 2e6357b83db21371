import SecureSync.Library.Machines
import SecureSync.Receiver.PartialFiles

/-!
# Orphan files

The temporary files on the disk are those of the pending table, until a
`begin_partial` fails that has made its file already, or a clean-up fails.
-/

namespace SecureSync

open Custody Machines Raising

/-- Between two events; and once the loop has ended there is none. -/
def ReceiverRun.Tidy (run : ReceiverRun) : Prop :=
  (∀ part, part ∈ run.state.storage.parts ↔
      ∃ name p, run.state.pending.lookup name = some p ∧ p.partPath = part) ∧
    (run.stopped = true → run.state.storage.parts = ∅)

/-- The partial files of these names can be unlinked. -/
def Os.Unlinks (os : Os) (pending : AList fun _ : String ↦ PendingFile) (names : Set String) :
    Prop :=
  ∀ name ∈ names, ∀ part, heldParts pending name = some part → os.raises (.unlink part) = false

def ReceiverSettings.expired (settings : ReceiverSettings) (now : ℚ)
    (pending : AList fun _ : String ↦ PendingFile) : Set String :=
  {name | ∃ p, pending.lookup name = some p ∧
    settings.limits.partialTimeoutSeconds < now - p.lastActivity}

/-- A push does not leave a new file behind, and what is cleaned up can be unlinked: at the
end of the loop that is all but the file committed last. -/
def ReceiverSettings.Clean (settings : ReceiverSettings) (run : ReceiverRun)
    (input : Services × ReceiverInput) : Prop :=
  run.stopped = true ∨
    match input.2 with
    | .cancel => input.1.os.Unlinks run.state.pending Set.univ
    | .event (.sweep now) =>
        input.1.os.Unlinks run.state.pending (settings.expired now run.state.pending)
    | .event (.push clock incoming) =>
        ¬ settings.LeavesPart input.1.os run.state incoming ∧
          (Completed ((settings.under input.1).handleEvent (.push clock incoming) run.state) ∨
            input.1.os.Unlinks run.state.pending {name | name ≠ incoming.relativePath})

section Events

variable {settings : ReceiverSettings} {services : Services} {st : ReceiverState}

/-- Some names give up their files, as far as these can be unlinked. -/
theorem accounted_iff_unlinks {os : Os} {left : ReceiverState} {names : Set String}
    (h : settings.Tracks st) (haccounted : st.Accounted)
    (hparts : ∀ part, part ∈ left.storage.parts ↔ part ∈ st.storage.parts ∧
      ¬ ((∃ name ∈ names, heldParts st.pending name = some part) ∧
        os.raises (.unlink part) = false))
    (hgone : ∀ name ∈ names, heldParts left.pending name = none)
    (hkept : ∀ name, name ∉ names → heldParts left.pending name = heldParts st.pending name) :
    left.Accounted ↔ os.Unlinks st.pending names := by
  have hdiff : left.storage.parts = st.storage.parts \
      {part | (∃ name ∈ names, heldParts st.pending name = some part) ∧
        os.raises (.unlink part) = false} :=
    Set.ext hparts
  rw [ReceiverState.Accounted, hdiff,
    haccounted.release_iff h.separate (fun _ hpart _ ↦ hpart.1) hgone hkept]
  refine forall_congr' fun name ↦ forall₃_congr fun hname part hheld ↦ ?_
  exact and_iff_right ⟨name, hname, hheld⟩

theorem accounted_abortAllPartials_iff (h : settings.Tracks st) (haccounted : st.Accounted) :
    ((settings.under services).abortAllPartials st).Accounted ↔
      services.os.Unlinks st.pending Set.univ := by
  apply accounted_iff_unlinks h haccounted
  · simp only [Set.mem_univ, true_and]
    exact abortAllPartials_under settings services st
  · exact fun _ _ ↦ rfl
  · exact fun name hname ↦ absurd (Set.mem_univ name) hname

theorem accounted_abortExpiredPartials_iff (h : settings.Tracks st) (haccounted : st.Accounted)
    (now : ℚ) :
    ((settings.under services).abortExpiredPartials now st).Accounted ↔
      services.os.Unlinks st.pending (settings.expired now st.pending) := by
  have hnames : ∀ name, name ∈ ((st.pending.entries.filter fun entry ↦
      (settings.under services).isExpired now entry.2).map Sigma.fst) ↔
        name ∈ settings.expired now st.pending := by
    intro name
    rw [List.mem_map]
    constructor
    · rintro ⟨⟨_, p⟩, hentry, rfl⟩
      obtain ⟨hentry, hexpired⟩ := List.mem_filter.mp hentry
      exact ⟨p, AList.mem_lookup_iff.mpr hentry, of_decide_eq_true hexpired⟩
    · rintro ⟨p, hp, hexpired⟩
      exact ⟨⟨name, p⟩, List.mem_filter.mpr ⟨AList.mem_lookup_iff.mp hp,
        decide_eq_true hexpired⟩, rfl⟩
  unfold ReceivePushedFiles.abortExpiredPartials
  obtain ⟨hparts, hheld⟩ := foldl_abortPending settings services
    ((st.pending.entries.filter fun entry ↦
      (settings.under services).isExpired now entry.2).map Sigma.fst) st
  simp only [hnames] at hparts
  apply accounted_iff_unlinks h haccounted hparts
  · exact fun name hname ↦ (hheld name).trans (if_pos ((hnames name).mpr hname))
  · exact fun name hname ↦ (hheld name).trans (if_neg (mt (hnames name).mp hname))

theorem ReceiverSettings.Tracks.handleEvent (h : settings.Tracks st) (services : Services)
    (event : ReceiverEvent) :
    settings.Tracks (stateOf ((settings.under services).handleEvent event st)) := by
  cases event with
  | sweep now => exact h.foldl_abortPending services _
  | push clock incoming =>
      rw [handleEvent_push]
      exact (handlePush_under settings services clock incoming st).tracks h

/-- What no event changes: the table keeps track, and it is empty once the loop has ended. -/
structure ReceiverSettings.Sound (settings : ReceiverSettings) (run : ReceiverRun) : Prop where
  tracks : settings.Tracks run.state
  stopped : run.stopped = true → run.state.pending = ∅

variable {run : ReceiverRun} {input : Services × ReceiverInput}

theorem ReceiverSettings.Sound.advance (h : settings.Sound run) :
    settings.Sound (settings.advance run input) := by
  obtain ⟨st, stopped⟩ := run
  obtain ⟨services, input⟩ := input
  cases stopped with
  | true => exact h
  | false =>
      unfold ReceiverSettings.advance
      rw [if_neg Bool.false_ne_true]
      cases input with
      | cancel => exact ⟨h.tracks.abortAllPartials services, fun _ ↦ rfl⟩
      | event event =>
          have hevent := h.tracks.handleEvent services event
          dsimp only
          cases hrun : (settings.under services).handleEvent event st with
          | ok u st' =>
              rw [hrun] at hevent
              exact ⟨hevent, nofun⟩
          | error e st' =>
              rw [hrun] at hevent
              exact ⟨hevent.abortAllPartials services, fun _ ↦ rfl⟩

theorem ReceiverSettings.Sound.tidy_iff (h : settings.Sound run) :
    run.Tidy ↔ run.state.Accounted := by
  have hheld : run.state.Accounted ↔ ∀ part, part ∈ run.state.storage.parts ↔
      ∃ name p, run.state.pending.lookup name = some p ∧ p.partPath = part := by
    simp only [ReceiverState.Accounted, Custody.Accounted, heldParts, Option.map_eq_some_iff]
  rw [hheld, ReceiverRun.Tidy]
  refine and_iff_left_of_imp fun hparts hstopped ↦ ?_
  have hpending := h.stopped hstopped
  refine Set.eq_empty_of_forall_notMem fun part hpart ↦ ?_
  obtain ⟨name, p, hp, -⟩ := (hparts part).mp hpart
  rw [hpending] at hp
  cases hp

theorem unlinks_erase_iff {os : Os} {pending : AList fun _ : String ↦ PendingFile}
    {name : String} :
    os.Unlinks (pending.erase name) Set.univ ↔ os.Unlinks pending {other | other ≠ name} := by
  unfold Os.Unlinks
  rw [heldParts_erase]
  refine forall_congr' fun other ↦ ?_
  by_cases hother : other = name
  · rw [hother, Function.update_self]
    exact iff_of_true (fun _ _ ↦ nofun) fun hne ↦ absurd rfl hne
  · rw [Function.update_of_ne hother]
    exact ⟨fun h _ ↦ h trivial, fun h _ ↦ h hother⟩

/-- An error that ends the loop comes from the record of a committed file. -/
theorem pending_of_not_caught {clock : Clock} {incoming : IncomingPush} {e : PushError}
    {st' : ReceiverState}
    (hrun : (settings.under services).handleEvent (.push clock incoming) st = .error e st') :
    ¬ settings.LeavesPart services.os st incoming ∧
      st'.pending = st.pending.erase incoming.relativePath := by
  have heffect := handlePush_under settings services clock incoming st
  unfold ReceivePushedFiles.handleEvent at hrun
  dsimp only at hrun
  cases hpush : (settings.under services).handlePush clock incoming st with
  | ok u st'' =>
      rw [hpush] at hrun
      cases hrun
  | error e' st'' =>
      rw [hpush] at hrun heffect
      dsimp only at hrun
      split_ifs at hrun with hcaught
      cases hrun
      cases heffect with
      | refused h htrue => exact absurd htrue hcaught
      | notBegun | notWritten | notCommitted => exact absurd rfl hcaught
      | committed hadmits hentry hwrite hcommit hstorage hpending =>
          exact ⟨hentry.not_leavesPart hadmits, hpending⟩

/-- Before it ends, the loop cleans up all files but the committed one. -/
theorem accounted_advance_push_iff {clock : Clock} {incoming : IncomingPush}
    (h : settings.Tracks st) (haccounted : st.Accounted) :
    (settings.advance ⟨st, false⟩ (services, .event (.push clock incoming))).state.Accounted ↔
      ¬ settings.LeavesPart services.os st incoming ∧
        (Completed ((settings.under services).handleEvent (.push clock incoming) st) ∨
          services.os.Unlinks st.pending {name | name ≠ incoming.relativePath}) := by
  have hpushed := (handlePush_under settings services clock incoming st).accounted_iff h haccounted
  have htracks := h.handleEvent services (.push clock incoming)
  rw [← handleEvent_push] at hpushed
  unfold ReceiverSettings.advance
  rw [if_neg Bool.false_ne_true]
  dsimp only
  cases hrun : (settings.under services).handleEvent (.push clock incoming) st with
  | ok u st' =>
      rw [hrun] at hpushed
      exact hpushed.trans (and_iff_left (.inl trivial)).symm
  | error e st' =>
      rw [hrun] at hpushed htracks
      obtain ⟨hleaves, hpending⟩ := pending_of_not_caught hrun
      have hunlinks : services.os.Unlinks st'.pending Set.univ ↔
          services.os.Unlinks st.pending {name | name ≠ incoming.relativePath} := by
        rw [hpending]
        exact unlinks_erase_iff
      rw [and_iff_right hleaves]
      refine (accounted_abortAllPartials_iff htracks (hpushed.mpr hleaves)).trans ?_
      exact hunlinks.trans (or_iff_right id).symm

/-- What a step has to meet. -/
theorem accounted_advance_iff (h : settings.Sound run) (haccounted : run.state.Accounted) :
    (settings.advance run input).state.Accounted ↔ settings.Clean run input := by
  obtain ⟨st, stopped⟩ := run
  obtain ⟨services, input⟩ := input
  cases stopped with
  | true => exact iff_of_true haccounted (.inl rfl)
  | false =>
      rw [ReceiverSettings.Clean, or_iff_right Bool.false_ne_true]
      cases input with
      | cancel => exact accounted_abortAllPartials_iff h.tracks haccounted
      | event event =>
          cases event with
          | sweep now => exact accounted_abortExpiredPartials_iff h.tracks haccounted now
          | push clock incoming => exact accounted_advance_push_iff h.tracks haccounted

end Events

theorem ReceiverSettings.sound_start (settings : ReceiverSettings)
    (files : FilePath → Option Bytes) (metadata : MetadataStore) :
    settings.Sound ⟨⟨.ofFiles files, metadata, ∅⟩, false⟩ :=
  ⟨settings.tracks_start files metadata, fun h ↦ absurd h Bool.false_ne_true⟩

/-- The temporary files are accounted for in exactly the runs of which every step is clean. -/
theorem tidy_iff_clean (settings : ReceiverSettings) (files : FilePath → Option Bytes)
    (metadata : MetadataStore) (inputs : List (Services × ReceiverInput)) :
    Throughout settings.advance ReceiverRun.Tidy ⟨⟨.ofFiles files, metadata, ∅⟩, false⟩ inputs ↔
      Meets settings.advance settings.Clean ⟨⟨.ofFiles files, metadata, ∅⟩, false⟩ inputs := by
  have hsound := settings.sound_start files metadata
  apply throughout_iff_meets (I := settings.Sound) (D := fun _ ↦ True)
    (fun run input _ h ↦ h.advance) _ (fun _ _ ↦ trivial) hsound
  · rw [hsound.tidy_iff]
    intro part
    refine iff_of_false (parts_ofFiles files ▸ Set.notMem_empty part) ?_
    rintro ⟨name, ⟨⟩⟩
  · intro run input _ h htidy
    rw [h.advance.tidy_iff]
    exact accounted_advance_iff h (h.tidy_iff.mp htidy)

/-! ### A name that is taken by a directory -/

def docsServices : Services := ⟨treeOs (sampleRoot ++ ["docs"]), mapMetadataRepository⟩

def docsPush : Services × ReceiverInput :=
  (docsServices, .event (.push ⟨0, 0⟩ { samplePushOf2 none with relativePath := "docs" }))

def docsCancel : Services × ReceiverInput := (docsServices, .cancel)

/-- The copy of the directory fails, and its temporary file stays for good. -/
theorem directory_push_leaves_orphan :
    ([docsPush, docsCancel].foldl sampleReceiver.advance receiverStart).stopped = true ∧
      ([docsPush, docsCancel].foldl sampleReceiver.advance receiverStart).state.storage.files
          (.part ⟨["srv", "sync", "docs"], 0⟩) = some [] ∧
        ¬ Throughout sampleReceiver.advance ReceiverRun.Tidy receiverStart
          [docsPush, docsCancel] := by
  have hleft : ([docsPush, docsCancel].foldl sampleReceiver.advance
      receiverStart).state.storage.files (.part ⟨["srv", "sync", "docs"], 0⟩) = some [] := by
    decide +kernel
  refine ⟨by decide +kernel, hleft, fun h ↦ ?_⟩
  have hstopped : ([docsPush, docsCancel].foldl sampleReceiver.advance receiverStart).stopped =
      true := by
    decide +kernel
  have hempty := (h _ (List.prefix_refl _)).2 hstopped
  have hmem : (⟨["srv", "sync", "docs"], 0⟩ : PartPath) ∈
      ([docsPush, docsCancel].foldl sampleReceiver.advance receiverStart).state.storage.parts := by
    change _ ≠ none
    rw [hleft]
    exact nofun
  rw [hempty] at hmem
  exact hmem

end SecureSync
