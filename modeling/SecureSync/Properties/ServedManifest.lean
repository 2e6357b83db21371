import SecureSync.Library.Coherence
import SecureSync.Library.Machines
import SecureSync.Sync.Devices

/-!
# What a device serves about its files

The manifests that peers are answered from are a cache beside the files.  A
push and a pull write the entry of their file; a received push does not.
-/

namespace SecureSync

open Raising Coherence Machines

variable {W : Type}

/-- Whatever manifest is served is that of the file as it is. -/
def ManifestServer.ServesAccurately (server : ManifestServer) (hasher : ChunkHasher)
    (relativePath : String) : Prop :=
  ∀ response, server.buildManifestResponse relativePath = .ok response →
    response.found = true → ∃ path collection content,
      server.safeResolve relativePath = .ok path ∧ response.collection = some collection ∧
        server.files path = some content ∧ collection.Describes hasher content

/-! ## What calls hold -/

/-- If there is a file of this content, the manifest is one of it. -/
def Device.Mirrors (d : Device W) (call : SyncCall) (content : Option Bytes)
    (collection : ChunkCollection) : Prop :=
  ∀ bytes, content = some bytes → collection.sourcePath = joinPath d.syncRoot call.relativePath ∧
    collection.Describes d.engine.hasher bytes

/-- What a push has read, and will save, is of this content. -/
def PushPhase.Fresh (d : Device W) (call : SyncCall) (content : Option Bytes) : PushPhase → Prop
  | .starting | .done _ => True
  | .reading read => read = content
  | .requesting current | .comparing current _ | .sending current _ _ _ _ | .saving current _ =>
      d.Mirrors call content current

/-- What a pull has read, and will save, is of this content. -/
def PullPhase.Fresh (d : Device W) (call : SyncCall) (content : Option Bytes) : PullPhase → Prop
  | .starting | .done _ => True
  | .reading read | .rereading read _ => read = content
  | .requesting current | .fetching current _ | .saving current _ => d.Mirrors call content current
  -- after the first chunk the manifest is built anew
  | .storing current _ _ transferredCount => transferredCount = 0 → d.Mirrors call content current

def SyncPhase.Fresh (d : Device W) (call : SyncCall) (content : Option Bytes) : SyncPhase → Prop
  | .pushing phase => phase.Fresh d call content
  | .pulling phase => phase.Fresh d call content
  | _ => True

/-- A pull that is still under way has written into the file at this path. -/
def Device.Written (d : Device W) (s : BusyDevice W) (path : FilePath) : Prop :=
  ∃ id task, s.tasks id = some task ∧ task.phase.hasWritten = true ∧ d.place task.call = path

/-- A call saves a manifest of a file that is there and has not changed since it was read; a pull
that has written does not end before it saves, and a received push does not change a file, where a
manifest is stored already, unless a pull is about to save another one. -/
def Device.InStep (d : Device W) (s : BusyDevice W) : DeviceEvent W → Prop
  | .advance id => ∀ task ∈ s.tasks id,
      (task.phase.saves.isSome → task.disturbed = false ∧
        (d.fileOf s.storage task.call).isSome) ∧
      (task.phase.hasWritten = true →
        Completed (d.next s task) ∨ s.repository (d.place task.call) = none)
  | .cancel id => ∀ task, s.tasks id = some task → task.phase.hasWritten = true →
      s.repository (d.place task.call) = none
  | .receive (.push clock incoming) => ∀ destination,
      d.receiver.Finishes s.received clock incoming destination →
        s.repository destination = none ∨ d.Written s destination ∨
          some (incoming.item.apply
            ((s.received.assembly incoming.relativePath destination).opened []).1) =
              s.storage.files (.file destination)
  | .call _ _ _ | .misread _ _ | .receive (.sweep _) | .elapse _ _ => True

instance (d : Device W) (s : BusyDevice W) (id : ℕ) : Decidable (d.InStep s (.advance id)) :=
  inferInstanceAs (Decidable (∀ task ∈ s.tasks id, _ ∧ _))

/-- The stored manifests describe the files that no pull is writing to, and so do the manifests that
undisturbed calls will save. -/
structure Device.Accurate (d : Device W) (s : BusyDevice W) : Prop where
  stored : Coherent (fun collection content ↦ collection.Describes d.engine.hasher content)
    (d.Written s) s.repository fun path ↦ s.storage.files (.file path)
  fresh : ∀ id task, s.tasks id = some task → task.disturbed = false →
    task.phase.Fresh d task.call (d.fileOf s.storage task.call)

section Fresh

variable {d : Device W} {call : SyncCall} {content read : Option Bytes} {current : ChunkCollection}

theorem mirrors_of_build
    (h : buildManifest d.engine (joinPath d.syncRoot call.relativePath) call.strategy read
      call.chunkSize = .ok current) : d.Mirrors call read current := by
  rintro bytes rfl
  exact ⟨sourcePath_of_buildManifest h, describes_of_buildManifest call.honours h⟩

theorem mirrors_of_isLocalManifest
    (h : d.toSyncFileSettings.onDisk.IsLocalManifest (joinPath d.syncRoot call.relativePath) call
      read current) : d.Mirrors call read current := by
  rcases h with ⟨bytes, rfl, hbuild⟩ | ⟨rfl, -⟩
  · exact mirrors_of_build hbuild
  · intro bytes hnone
    cases hnone

theorem PushPhase.Follows.fresh {phase phase' : PushPhase}
    (h : phase.Follows d.toSyncFileSettings.onDisk (joinPath d.syncRoot call.relativePath) call
      content phase')
    (hfresh : (SyncPhase.pushing phase').isReading = true ∨ phase.Fresh d call content) :
    phase'.Fresh d call content := by
  cases h with
  | opened => rfl
  | done | saved => trivial
  | built hbuild =>
      rcases hfresh with hreading | rfl
      · cases hreading
      · exact mirrors_of_build hbuild
  | answered | sends | nothing | sent | all =>
      rcases hfresh with hreading | hfresh
      · cases hreading
      · exact hfresh

theorem PullPhase.Follows.fresh {phase phase' : PullPhase}
    (h : phase.Follows d.toSyncFileSettings.onDisk (joinPath d.syncRoot call.relativePath) call
      content phase')
    (hfresh : (SyncPhase.pulling phase').isReading = true ∨ phase.Fresh d call content) :
    phase'.Fresh d call content := by
  cases h with
  | opened | reopened => rfl
  | refused | saved | done => trivial
  | stored =>
      intro hzero
      cases hzero
  | built hmanifest =>
      rcases hfresh with hreading | rfl
      · cases hreading
      · exact mirrors_of_isLocalManifest hmanifest
  | rebuilt n hbuild =>
      rcases hfresh with hreading | rfl
      · cases hreading
      · exact mirrors_of_build hbuild
  | asks | nothing =>
      rcases hfresh with hreading | hfresh
      · cases hreading
      · exact hfresh
  | answered =>
      rcases hfresh with hreading | hfresh
      · cases hreading
      · exact fun _ ↦ hfresh
  | kept =>
      rcases hfresh with hreading | hfresh
      · cases hreading
      · exact hfresh rfl

theorem fresh_syncNext {s t : SyncState W} {phase phase' : SyncPhase}
    (h : d.toSyncFileSettings.onDisk.syncNext d.syncRoot call phase s = .ok phase' t)
    (hfresh : phase'.isReading = true ∨ phase.Fresh d call (d.fileOf s.storage call)) :
    phase'.Fresh d call (d.fileOf s.storage call) := by
  cases follows_of_syncNext h with
  | pushing hfollows => exact hfollows.fresh hfresh
  | pulling hfollows => exact hfollows.fresh hfresh
  | _ => trivial

end Fresh

section

variable {d : Device W} {s s' : BusyDevice W} {t : SyncState W} {id : ℕ} {task : SyncTask}
  {new : Option SyncTask}

theorem Device.disturb_eq_some {before after : Storage} {tasks : ℕ → Option SyncTask} :
    d.disturb before after tasks id = some task ↔
      ∃ known, tasks id = some known ∧
        task = { known with
          disturbed :=
            known.disturbed || d.fileOf after known.call ≠ d.fileOf before known.call } := by
  unfold Device.disturb
  rw [Option.map_eq_some_iff]
  simp only [eq_comm]

/-- Whoever has written to the file is still at it, unless it was the task that moves. -/
theorem Device.Written.moved {path : FilePath} (h : d.Written s path) :
    d.Written (d.moved s t id new) path ∨ ∃ task, s.tasks id = some task ∧
      task.phase.hasWritten = true ∧ d.place task.call = path := by
  obtain ⟨id', task, htask, hwritten, rfl⟩ := h
  by_cases hne : id' = id
  · subst hne
    exact .inr ⟨task, htask, hwritten, rfl⟩
  · have hstill : d.disturb s.storage t.storage s.tasks id' = some { task with
        disturbed := task.disturbed ||
          d.fileOf t.storage task.call ≠ d.fileOf s.storage task.call } :=
      Device.disturb_eq_some.mpr ⟨task, htask, rfl⟩
    exact .inl ⟨id', _, (Function.update_of_ne hne _ _).trans hstill, hwritten, rfl⟩

theorem Device.written_moved_self (hwritten : task.phase.hasWritten = true) :
    d.Written (d.moved s t id (some task)) (d.place task.call) :=
  ⟨id, task, Function.update_self .., hwritten, rfl⟩

/-- An undisturbed task still holds what the file holds. -/
theorem Device.Accurate.fresh_disturb (h : d.Accurate s) {after : Storage}
    (htask : d.disturb s.storage after s.tasks id = some task)
    (hdisturbed : task.disturbed = false) :
    task.phase.Fresh d task.call (d.fileOf after task.call) := by
  obtain ⟨known, hknown, rfl⟩ := Device.disturb_eq_some.mp htask
  obtain ⟨hundisturbed, hsame⟩ := Bool.or_eq_false_iff.mp hdisturbed
  rw [not_not.mp (of_decide_eq_false hsame)]
  exact h.fresh id known hknown hundisturbed

theorem Device.Accurate.moved (h : d.Accurate s)
    (hstored : Coherent (fun collection content ↦ collection.Describes d.engine.hasher content)
      (d.Written (d.moved s t id new)) t.repository fun path ↦ t.storage.files (.file path))
    (hfresh : ∀ task, new = some task → task.disturbed = false →
      task.phase.Fresh d task.call (d.fileOf t.storage task.call)) :
    d.Accurate (d.moved s t id new) where
  stored := hstored
  fresh id' task htask hdisturbed := by
    have htask : Function.update (d.disturb s.storage t.storage s.tasks) id new id' = some task :=
      htask
    by_cases hne : id' = id
    · subst hne
      rw [Function.update_self] at htask
      exact hfresh task htask hdisturbed
    · rw [Function.update_of_ne hne] at htask
      exact h.fresh_disturb htask hdisturbed

/-- The task has changed neither files nor manifests, and goes on writing if it was. -/
theorem Device.Accurate.moved_of_same (h : d.Accurate s) (hstorage : t.storage = s.storage)
    (hrepository : t.repository = s.repository)
    (hwritten : ∀ task, s.tasks id = some task → task.phase.hasWritten = true →
      s.repository (d.place task.call) = none ∨ ∃ task', new = some task' ∧
        task'.phase.hasWritten = true ∧ d.place task'.call = d.place task.call)
    (hfresh : ∀ task, new = some task → task.disturbed = false →
      task.phase.Fresh d task.call (d.fileOf s.storage task.call)) :
    d.Accurate (d.moved s t id new) := by
  refine h.moved ?_ (by rw [hstorage]; exact hfresh)
  rw [hstorage, hrepository]
  apply h.stored.of_store
  intro path hclean
  by_cases hdirty : d.Written s path
  · rcases hdirty.moved with hstill | ⟨task, htask, hphase, rfl⟩
    · exact absurd hstill hclean
    · rcases hwritten task htask hphase with hnone | ⟨task', rfl, hphase', hplace⟩
      · exact .inl hnone
      · rw [← hplace] at hclean
        exact absurd (Device.written_moved_self hphase') hclean
  · exact .inr ⟨hdirty, rfl⟩

theorem Device.Accurate.serves (h : d.Accurate s) {relativePath : String}
    (hrest : ∀ path, (d.server s.toDeviceState).safeResolve relativePath = .ok path →
      ¬ d.Written s path) :
    (d.server s.toDeviceState).ServesAccurately d.engine.hasher relativePath := by
  intro response hresponse hfound
  obtain ⟨path, collection, hpath, hstored, hcollection⟩ :=
    ManifestServer.buildManifestResponse_eq_ok hresponse hfound
  obtain ⟨content, hcontent, hdescribes⟩ := h.stored path collection hstored (hrest path hpath)
  exact ⟨path, collection, content, hpath, hcollection, hcontent, hdescribes⟩

/-! ### The steps -/

theorem Device.Accurate.call (h : d.Accurate s) (hid : s.tasks id = none)
    (operation : SyncOperation) (call : SyncCall) :
    d.Accurate (s.setTask id (some ⟨call, operation.start, false⟩)) := by
  rw [d.setTask_eq_moved]
  apply h.moved_of_same rfl rfl
  · intro task htask
    cases hid.symm.trans htask
  · rintro task ⟨⟩ -
    cases operation <;> trivial

/-- A task may go, if it has not written to a file with a manifest. -/
theorem Device.Accurate.cancel (h : d.Accurate s)
    (hunwritten : ∀ task, s.tasks id = some task → task.phase.hasWritten = true →
      s.repository (d.place task.call) = none) : d.Accurate (s.setTask id none) := by
  rw [d.setTask_eq_moved]
  apply h.moved_of_same rfl rfl
  · exact fun task htask hphase ↦ .inl (hunwritten task htask hphase)
  · rintro task ⟨⟩

theorem hasWritten_misread (content : Option Bytes) (phase : SyncPhase) :
    (phase.misread content).hasWritten = phase.hasWritten := by
  cases phase with
  | pushing phase => cases phase <;> rfl
  | pulling phase => cases phase <;> rfl
  | _ => rfl

theorem Device.Accurate.misread (h : d.Accurate s) (htask : s.tasks id = some task)
    (hdisturbed : task.disturbed = true) (content : Option Bytes) :
    d.Accurate (s.setTask id (some { task with phase := task.phase.misread content })) := by
  rw [d.setTask_eq_moved]
  apply h.moved_of_same rfl rfl
  · intro task' htask' hphase
    cases htask.symm.trans htask'
    exact .inr ⟨_, rfl, (hasWritten_misread content _).trans hphase, rfl⟩
  · rintro task' ⟨⟩ hundisturbed
    cases hdisturbed.symm.trans hundisturbed

/-- A task that moves has no business with the other files. -/
theorem Device.not_written_of_ne (htask : s.tasks id = some task) {path : FilePath}
    (hne : path ≠ d.place task.call) (hclean : ¬ d.Written (d.moved s t id new) path) :
    ¬ d.Written s path := by
  intro hdirty
  rcases hdirty.moved with hstill | ⟨task', htask', -, hplace⟩
  · exact hclean hstill
  · cases htask.symm.trans htask'
    exact hne hplace.symm

theorem Device.Accurate.advance_of_writes (h : d.Accurate s) (htask : s.tasks id = some task)
    {chunk : Chunk} (hwrites : task.phase.writes = some chunk) :
    d.Accurate (d.advance s id task) := by
  obtain ⟨call, phase, disturbed⟩ := task
  obtain ⟨current, error, left, n, rfl⟩ := exists_of_writes hwrites
  have hdirty : d.Written (d.advance s id
      ⟨call, .pulling (.storing current error (chunk :: left) n), disturbed⟩) (d.place call) :=
    @Device.written_moved_self W d s _ id
      ⟨call, .pulling (.storing current error left (n + 1)), _⟩ rfl
  apply h.moved
  · apply h.stored.of_store
    intro path hclean
    have hne : path ≠ d.place call := by
      rintro rfl
      exact hclean hdirty
    refine .inr ⟨Device.not_written_of_ne htask hne hclean, ?_⟩
    exact Storage.files_writeChunkAtOffset_of_ne _ _ _ fun heq ↦ hne (Path.file.inj heq)
  · rintro task ⟨⟩ -
    intro hzero
    cases hzero

theorem mirrors_of_saves {call : SyncCall} {phase : SyncPhase} {content : Option Bytes}
    {collection : ChunkCollection} (hsaves : phase.saves = some collection)
    (hfresh : phase.Fresh d call content) : d.Mirrors call content collection := by
  unfold SyncPhase.saves PushPhase.saves PullPhase.saves at hsaves
  split at hsaves
  case h_3 => cases hsaves
  all_goals
    split at hsaves
    case h_2 => cases hsaves
    case h_1 =>
      obtain rfl := Option.some.inj hsaves
      exact hfresh

theorem Device.Accurate.advance_of_saves (h : d.Accurate s) (htask : s.tasks id = some task)
    {collection : ChunkCollection} (hsaves : task.phase.saves = some collection)
    (hdisturbed : task.disturbed = false) (hthere : (d.fileOf s.storage task.call).isSome) :
    d.Accurate (d.advance s id task) := by
  obtain ⟨phase, t, hnext, -, hstorage, hrepository⟩ := @syncNext_of_saves W d.syncRoot
    task.call d.toSyncFileSettings task.phase s.toSyncState collection hsaves
  have hadvance : d.advance s id task = d.moved s t id
      (some { task with phase, disturbed := task.disturbed && !phase.isReading }) := by
    rw [Device.advance, Device.next, hnext]
  have hfresh := h.fresh id task htask hdisturbed
  obtain ⟨bytes, hbytes⟩ := Option.isSome_iff_exists.mp hthere
  obtain ⟨hsource, hdescribes⟩ := mirrors_of_saves hsaves hfresh bytes hbytes
  rw [hadvance]
  apply h.moved
  · rw [hrepository, hstorage, ChunkRepository.save, hsource]
    apply h.stored.refill (fun path hne hclean ↦ ?_) hbytes hdescribes
    exact ⟨Device.not_written_of_ne htask hne hclean, rfl⟩
  · rintro task' ⟨⟩ -
    rw [hstorage]
    exact fresh_syncNext hnext (.inr hfresh)

theorem Device.Accurate.advance_of_neither (h : d.Accurate s) (htask : s.tasks id = some task)
    (hwrites : task.phase.writes = none) (hsaves : task.phase.saves = none)
    (hends : task.phase.hasWritten = true →
      Completed (d.next s task) ∨ s.repository (d.place task.call) = none) :
    d.Accurate (d.advance s id task) := by
  have hkept : (stateOf (d.next s task)).storage = s.storage ∧
      (stateOf (d.next s task)).repository = s.repository := stateOf_syncNext hwrites hsaves
  unfold Device.advance
  cases hnext : d.next s task with
  | ok phase t =>
      rw [hnext] at hkept
      apply h.moved_of_same hkept.1 hkept.2
      · intro task' htask' hphase
        cases htask.symm.trans htask'
        exact .inr ⟨_, rfl, (hasWritten_syncNext hwrites hsaves hnext).trans hphase, rfl⟩
      · rintro task' ⟨⟩ hdisturbed
        apply fresh_syncNext hnext
        cases hundisturbed : task.disturbed with
        | false => exact .inr (h.fresh id task htask hundisturbed)
        | true => exact .inl (by simpa [hundisturbed] using hdisturbed)
  | error e t =>
      rw [hnext] at hkept hends
      apply h.moved_of_same hkept.1 hkept.2
      · intro task' htask' hphase
        cases htask.symm.trans htask'
        exact .inl ((hends hphase).resolve_left fun hcompleted ↦ hcompleted)
      · rintro task' ⟨⟩

theorem Device.Accurate.receive (h : d.Accurate s) {event : ReceiverEvent}
    (hin : d.InStep s (.receive event)) : d.Accurate (d.receive s event) where
  stored := by
    have hdirty : ∀ path, d.Written s path → d.Written (d.receive s event) path := by
      rintro path ⟨id, task, htask, hwritten, rfl⟩
      exact ⟨id, _, Device.disturb_eq_some.mpr ⟨task, htask, rfl⟩, hwritten, rfl⟩
    apply h.stored.of_store
    intro path hclean
    have hbefore : ¬ d.Written s path := fun hwritten ↦ hclean (hdirty path hwritten)
    rcases sameFiles_step d.receiver s.received event with
      hsame | ⟨clock, incoming, destination, rfl, hfinish⟩
    · exact .inr ⟨hbefore, hsame.2 path⟩
    · obtain ⟨hfile, hother, -⟩ := step_of_finishes hfinish
      by_cases hp : path = destination
      · subst hp
        rcases hin path hfinish with hnone | hwritten | hunchanged
        · exact .inl hnone
        · exact absurd hwritten hbefore
        · exact .inr ⟨hbefore, hfile.trans hunchanged⟩
      · exact .inr ⟨hbefore, hother path hp⟩
  fresh id task htask hdisturbed := h.fresh_disturb htask hdisturbed

theorem Device.Accurate.step {event : DeviceEvent W} (h : d.Accurate s) (hin : d.InStep s event) :
    d.Accurate (d.step s event) := by
  cases event with
  | call id operation call =>
      rw [Device.step]
      split_ifs with hid
      · exact h
      · exact h.call (Option.not_isSome_iff_eq_none.mp hid) operation call
  | advance id =>
      rw [Device.step]
      cases htask : s.tasks id with
      | none => exact h
      | some task =>
          obtain ⟨hsave, hends⟩ := hin task htask
          cases hwrites : task.phase.writes with
          | some chunk => exact h.advance_of_writes htask hwrites
          | none =>
              cases hsaves : task.phase.saves with
              | some collection =>
                  obtain ⟨hdisturbed, hthere⟩ := hsave (by rw [hsaves]; rfl)
                  exact h.advance_of_saves htask hsaves hdisturbed hthere
              | none => exact h.advance_of_neither htask hwrites hsaves hends
  | cancel id => exact h.cancel hin
  | misread id content =>
      rw [Device.step]
      cases htask : s.tasks id with
      | none => exact h
      | some task =>
          dsimp only
          split_ifs with hdisturbed
          · exact h.misread htask hdisturbed content
          · exact h
  | receive event => exact h.receive hin
  | elapse clock world => exact ⟨h.stored, h.fresh⟩

theorem Device.tasks_moved_eq_none {id' : ℕ} (hid : s.tasks id = none) (hne : id ≠ id') :
    (d.moved s t id' new).tasks id = none :=
  (Function.update_of_ne hne _ _).trans (Option.map_eq_none_iff.mpr hid)

/-- Only a call starts a task. -/
theorem Device.tasks_step_eq_none {event : DeviceEvent W} (hid : s.tasks id = none)
    (hcall : ∀ operation call, event ≠ .call id operation call) :
    (d.step s event).tasks id = none := by
  -- the other tasks are not this one, since they are there
  have hother {id' : ℕ} {task : SyncTask} (htask : s.tasks id' = some task) : id ≠ id' := by
    rintro rfl
    cases hid.symm.trans htask
  cases event with
  | call id' operation call =>
      have hne : id ≠ id' := by
        rintro rfl
        exact hcall operation call rfl
      rw [Device.step, d.setTask_eq_moved]
      split_ifs
      · exact hid
      · exact Device.tasks_moved_eq_none hid hne
  | advance id' =>
      rw [Device.step]
      cases htask : s.tasks id' with
      | none => exact hid
      | some task =>
          dsimp only [Device.advance]
          cases d.next s task <;> exact Device.tasks_moved_eq_none hid (hother htask)
  | cancel id' =>
      by_cases hne : id = id'
      · subst hne
        exact Function.update_self ..
      · rw [Device.step, d.setTask_eq_moved]
        exact Device.tasks_moved_eq_none hid hne
  | misread id' content =>
      rw [Device.step]
      cases htask : s.tasks id' with
      | none => exact hid
      | some task =>
          dsimp only
          rw [d.setTask_eq_moved]
          split_ifs
          · exact Device.tasks_moved_eq_none hid (hother htask)
          · exact hid
  | receive event => exact Option.map_eq_none_iff.mpr hid
  | elapse clock world => exact hid

theorem Device.tasks_foldl_eq_none {events : List (DeviceEvent W)} (hid : s.tasks id = none)
    (hcalls : ∀ operation call, .call id operation call ∉ events) :
    (events.foldl d.step s).tasks id = none := by
  induction events generalizing s with
  | nil => exact hid
  | cons event events ih =>
      apply ih
      · apply Device.tasks_step_eq_none hid
        rintro operation call rfl
        exact hcalls operation call List.mem_cons_self
      · exact fun operation call hmem ↦ hcalls operation call (List.mem_cons_of_mem _ hmem)

/-- In a run that keeps in step, whatever is served of a file is the manifest of the file as it is,
unless a pull has written to the file and has yet to save. -/
theorem served_in_step (hidle : ∀ id, s.tasks id = none)
    (hstart : Coherent (fun collection content ↦ collection.Describes d.engine.hasher content)
      (fun _ ↦ False) s.repository fun path ↦ s.storage.files (.file path))
    {events : List (DeviceEvent W)} (hrun : Meets d.step d.InStep s events) {relativePath : String}
    (hrest : ∀ path, (d.server (events.foldl d.step s).toDeviceState).safeResolve relativePath =
      .ok path → ¬ d.Written (events.foldl d.step s) path) :
    (d.server (events.foldl d.step s).toDeviceState).ServesAccurately d.engine.hasher
      relativePath := by
  apply Device.Accurate.serves ?_ hrest
  apply hrun.induction (P := d.Accurate) fun s event hin h ↦ h.step hin
  refine ⟨hstart.of_store fun path _ ↦ .inr ⟨not_false, rfl⟩, fun id task htask ↦ ?_⟩
  cases (hidle id).symm.trans htask

end

def sampleDevice : Device Unit where
  toSyncFileSettings := sampleSettings (sampleExchange none []) none
  syncRoot := sampleRoot
  ownDeviceId := "C"

def sampleBusyDevice : BusyDevice Unit where
  toSyncState := sampleState (some [1]) fun _ ↦ 0
  metadata := fun _ ↦ none
  pending := ∅
  tasks := fun _ ↦ none

def receivePushOf2 : DeviceEvent Unit := .receive (.push ⟨0, 0⟩ (samplePushOf2 none))

/-- A push that has read the file when it is replaced is given up, and another one is made. -/
def pushAfterReceive : List (DeviceEvent Unit) :=
  [.call 0 .push sampleCall, .advance 0, receivePushOf2, .cancel 0, .call 1 .push sampleCall,
    .advance 1, .advance 1, .advance 1, .advance 1, .advance 1, .advance 1, .advance 1]

theorem served_in_step_sample :
    let s := pushAfterReceive.foldl sampleDevice.step sampleBusyDevice
    (sampleDevice.server s.toDeviceState).ServesAccurately sampleHasher "a.txt" ∧
      ((sampleDevice.server s.toDeviceState).buildManifestResponse "a.txt").map
        ManifestResponse.collection = .ok (some (sampleManifest [2])) := by
  intro s
  have hmeets : Meets sampleDevice.step sampleDevice.InStep sampleBusyDevice pushAfterReceive := by
    refine ⟨trivial, by decide +kernel, fun _ _ ↦ .inl rfl, ?_, trivial, by decide +kernel,
      by decide +kernel, by decide +kernel, by decide +kernel, by decide +kernel,
      by decide +kernel, by decide +kernel, trivial⟩
    rintro task ⟨⟩ hwritten
    cases hwritten
  refine ⟨served_in_step (fun _ ↦ rfl) (coherent_empty _ _) hmeets ?_, by decide +kernel⟩
  rintro path - ⟨id, task, htask, hwritten, -⟩
  have hid : id = 0 ∨ id = 1 := by
    by_contra hother
    have hnone : s.tasks id = none := by
      apply Device.tasks_foldl_eq_none rfl
      intro operation call hmem
      simp [pushAfterReceive, receivePushOf2] at hmem
      omega
    cases hnone.symm.trans htask
  rcases hid with rfl | rfl
  · cases htask
  · cases htask
    cases hwritten

def receiveAfterPush : List (DeviceEvent Unit) :=
  [.call 0 .push sampleCall, .advance 0, .advance 0, .advance 0, .advance 0, .advance 0,
    .advance 0, .advance 0, receivePushOf2]

/-- After a push that has completed and a received one, the manifest of `[1]` is served while the
file holds `[2]`. -/
theorem received_push_is_served_stale :
    let s := receiveAfterPush.foldl sampleDevice.step sampleBusyDevice
    (∃ disturbed, s.tasks 0 = some ⟨sampleCall, .pushing (.done 1), disturbed⟩) ∧
      s.storage.files (.file samplePath) = some [2] ∧
      ((sampleDevice.server s.toDeviceState).buildManifestResponse "a.txt").map
        ManifestResponse.collection = .ok (some (sampleManifest [1])) ∧
      ¬ (sampleDevice.server s.toDeviceState).ServesAccurately sampleHasher "a.txt" := by
  intro s
  have hfile : s.storage.files (.file samplePath) = some [2] := by decide +kernel
  have hserved : (sampleDevice.server s.toDeviceState).buildManifestResponse "a.txt" =
      .ok ⟨true, some (sampleManifest [1]), some (.firstEdit "C")⟩ := by decide +kernel
  have hpath : (sampleDevice.server s.toDeviceState).safeResolve "a.txt" = .ok samplePath := by
    decide +kernel
  have hstale : ¬ (sampleManifest [1]).Describes sampleHasher [2] := by decide
  refine ⟨⟨_, rfl⟩, hfile, congrArg (Except.map ManifestResponse.collection) hserved,
    fun hserves ↦ ?_⟩
  obtain ⟨path, collection, content, hpath', hcollection, hcontent, hdescribes⟩ :=
    hserves _ hserved rfl
  cases hpath.symm.trans hpath'
  cases hcollection
  cases hfile.symm.trans hcontent
  exact hstale hdescribes

end SecureSync
