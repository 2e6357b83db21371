import SecureSync.Application.Orchestration
import SecureSync.Library.Machines

/-!
# The state that the engine reports

The state follows the sync loop as long as the loop does not fail, nothing is
paused that does not run, and no call finds the engine between two of another
call's steps.
-/

namespace SecureSync.Orchestration

open Machines

namespace Engine

variable {e : Engine}

/-! ## Which tasks run -/

theorem isRunning_append (pc : LoopPc) (task : ℕ) :
    { e with tasks := e.tasks ++ [pc] }.isRunning task =
      if task = e.tasks.length then pc.isRunning else e.isRunning task := by
  unfold isRunning
  dsimp only
  split_ifs with h
  · rw [h, List.getElem?_concat_length]
    rfl
  · rcases lt_or_gt_of_ne h with hlt | hgt
    · rw [List.getElem?_append_left hlt]
    · rw [List.getElem?_eq_none (by simp; omega), List.getElem?_eq_none (by omega)]

theorem isRunning_launch (task : ℕ) :
    e.launch.isRunning task = if task = e.tasks.length then true else e.isRunning task :=
  isRunning_append .created task

theorem isRunning_setPc (pc : LoopPc) {task : ℕ} (h : e.isRunning task = true) (other : ℕ) :
    (e.setPc task pc).isRunning other =
      if other = task then pc.isRunning else e.isRunning other := by
  unfold isRunning setPc
  dsimp only
  have hlt : task < e.tasks.length := by
    by_contra hge
    rw [isRunning, List.getElem?_eq_none (Nat.not_lt.mp hge)] at h
    cases h
  split_ifs with hother
  · rw [hother, List.getElem?_set_self hlt]
    rfl
  · rw [List.getElem?_set_ne (Ne.symm hother)]

end Engine

/-! ## Runs with a memory of failures -/

/-- `failed`: the loop has failed, and neither `start` nor `stop` has been called since. -/
structure EngineRun where
  engine : Engine
  failed : Bool

namespace OrchestratorSettings

def advance (settings : OrchestratorSettings) (run : EngineRun) (input : EngineInput) :
    EngineRun where
  engine := settings.step run.engine input
  failed :=
    match input with
    | .start _ | .stop _ => false
    | .loop task answer => run.failed || run.engine.loopFails task answer
    | _ => run.failed

end OrchestratorSettings

def SyncState.isActive : SyncState → Bool
  | .scanning | .syncing | .paused => true
  | .idle | .error => false

structure EngineRun.Truthful (run : EngineRun) : Prop where
  active : run.engine.state.isActive = true ↔ run.engine.Running
  error : run.failed = true → run.engine.state = .error
  single : ∀ task task', run.engine.isRunning task = true → run.engine.isRunning task' = true →
    task = task'

/-- `start` from a stopped engine launches a loop, at once or when discovery has started. -/
def OrchestratorSettings.Launches (settings : OrchestratorSettings) (run : EngineRun)
    (input : EngineInput) : Prop :=
  match input with
  | .start _ => ¬ run.engine.Running → run.engine.starts = 0 →
      (settings.step run.engine input).Running ∨ (settings.step run.engine input).starts = 1
  | _ => True

/-- The call comes to its last statement. -/
def Engine.StopEnds (e : Engine) (index : ℕ) (reply : Reply) : Prop :=
  reply = .returned ∧
    match e.stops[index]? with
    | none => False
    | some (.joining task) => e.isRunning task = false
    | some .discovery => True

/-- What a step has to meet: discovery starts at once, `pause` finds a loop, a call of
`stop` does not end while a loop is running, and the loop does not fail. -/
def EngineRun.Orderly (run : EngineRun) : EngineInput → Prop
  | .start reply => run.engine.state = .idle → reply = .returned
  | .startResumes raises => run.engine.starts = 0 ∨ raises = true
  | .stop _ => True
  | .stopResumes index reply => run.engine.StopEnds index reply → ¬ run.engine.Running
  | .pause => run.engine.Running
  | .resume => True
  | .loop task answer => run.engine.loopFails task answer = false

/-- The invariant: the engine never rests in `ERROR`, and the task that runs is the last. -/
structure EngineRun.Settled (run : EngineRun) : Prop extends run.Truthful where
  not_error : run.engine.state ≠ .error
  last : ∀ task, run.engine.isRunning task = true → run.engine.syncTask = some task

section Steps

variable {settings : OrchestratorSettings} {e : Engine} {task : ℕ}

theorem EngineRun.Settled.not_failed {run : EngineRun} (h : run.Settled) : run.failed = false := by
  rw [← Bool.not_eq_true]
  exact fun hfailed ↦ h.not_error (h.error hfailed)

/-- An engine in which the same loops run and that is as active as before. -/
theorem EngineRun.Settled.of_eq (h : EngineRun.Settled ⟨e, false⟩) {e' : Engine}
    (hactive : e'.state.isActive = e.state.isActive) (herror : e'.state ≠ .error)
    (hrunning : ∀ task, e'.isRunning task = e.isRunning task)
    (hlast : e'.syncTask = e.syncTask) : EngineRun.Settled ⟨e', false⟩ where
  active := by
    dsimp only
    rw [hactive, h.active]
    unfold Engine.Running
    simp only [hrunning]
  error hfailed := absurd hfailed Bool.false_ne_true
  single task task' htask htask' := by
    dsimp only at htask htask'
    rw [hrunning] at htask htask'
    exact h.single task task' htask htask'
  not_error := herror
  last task htask := by
    dsimp only at htask ⊢
    rw [hrunning] at htask
    rw [hlast]
    exact h.last task htask

theorem settled_of_not_running (hstate : e.state = .idle) (h : ¬ e.Running) :
    EngineRun.Settled ⟨e, false⟩ where
  active := by
    dsimp only
    rw [hstate]
    exact iff_of_false Bool.false_ne_true h
  error hfailed := absurd hfailed Bool.false_ne_true
  single task _ htask := absurd ⟨task, htask⟩ h
  not_error := by
    dsimp only
    rw [hstate]
    exact SyncState.noConfusion
  last task htask := absurd ⟨task, htask⟩ h

theorem EngineRun.Settled.not_running (h : EngineRun.Settled ⟨e, false⟩)
    (hstate : e.state.isActive = false) : ¬ e.Running := by
  intro hrunning
  have hactive := h.active.mpr hrunning
  dsimp only at hactive
  rw [hstate] at hactive
  cases hactive

theorem not_truthful_of_running {failed : Bool} (hstate : e.state.isActive = false)
    (h : e.Running) : ¬ EngineRun.Truthful ⟨e, failed⟩ := by
  intro htruthful
  have hactive := htruthful.active.mpr h
  dsimp only at hactive
  rw [hstate] at hactive
  cases hactive

/-! ## Calls -/

theorem settled_launch (hstate : e.state.isActive = true) (h : ¬ e.Running) :
    EngineRun.Settled ⟨e.launch, false⟩ := by
  have honly : ∀ task, e.launch.isRunning task = true → task = e.tasks.length := by
    intro task htask
    rw [Engine.isRunning_launch] at htask
    split_ifs at htask with heq
    · exact heq
    · exact absurd ⟨task, htask⟩ h
  have hrunning : e.launch.Running := by
    refine ⟨e.tasks.length, ?_⟩
    rw [Engine.isRunning_launch, if_pos rfl]
  refine ⟨⟨iff_of_true hstate hrunning, fun hfailed ↦ absurd hfailed Bool.false_ne_true, ?_⟩,
    ?_, ?_⟩
  · intro task task' htask htask'
    exact (honly task htask).trans (honly task' htask').symm
  · intro herror
    have herror : e.state = .error := herror
    rw [herror] at hstate
    cases hstate
  · intro task htask
    rw [honly task htask]
    rfl

theorem not_truthful_launch {failed : Bool} (h : EngineRun.Settled ⟨e, false⟩) :
    ¬ EngineRun.Truthful ⟨e.launch, failed⟩ := by
  have hlast : e.launch.isRunning e.tasks.length = true := by
    rw [Engine.isRunning_launch, if_pos rfl]
  by_cases hrunning : e.Running
  · -- the new task runs beside the old one
    obtain ⟨task, htask⟩ := hrunning
    intro htruthful
    have hne : task ≠ e.tasks.length := by
      rintro rfl
      simp [Engine.isRunning] at htask
    refine hne (htruthful.single task e.tasks.length ?_ hlast)
    dsimp only
    rw [Engine.isRunning_launch, if_neg hne]
    exact htask
  · refine not_truthful_of_running ?_ ⟨_, hlast⟩
    rw [← Bool.not_eq_true]
    exact fun hactive ↦ hrunning (h.active.mp hactive)

theorem settled_leave {reply : Reply} (h : EngineRun.Settled ⟨e, false⟩)
    (hends : reply = .returned → ¬ e.Running) : EngineRun.Settled ⟨e.leave reply, false⟩ := by
  cases reply with
  | returned => exact settled_of_not_running rfl (hends rfl)
  | suspended => exact h.of_eq rfl h.not_error (fun _ ↦ rfl) rfl
  | raised => exact h

theorem settled_start {reply : Reply} (h : EngineRun.Settled ⟨e, false⟩)
    (horderly : e.state = .idle → reply = .returned) :
    EngineRun.Settled ⟨e.start reply, false⟩ ∧ (¬ e.Running → (e.start reply).Running) := by
  unfold Engine.start
  split_ifs with hidle
  · refine ⟨h, fun hnot ↦ absurd (h.active.mp ?_) hnot⟩
    have herror := h.not_error
    dsimp only at herror ⊢
    cases hstate : e.state with
    | idle => exact absurd hstate hidle
    | error => exact absurd hstate herror
    | scanning | syncing | paused => rfl
  · have hstate : e.state = .idle := not_not.mp hidle
    rw [horderly hstate]
    have hnot : ¬ e.Running := by
      apply h.not_running
      rw [hstate]
      rfl
    refine ⟨settled_launch rfl hnot, fun _ ↦ ⟨e.tasks.length, ?_⟩⟩
    exact (Engine.isRunning_launch _).trans (if_pos rfl)

/-- Without its loop an engine must not be scanning. -/
theorem not_truthful_start {reply : Reply} {failed : Bool} (h : EngineRun.Settled ⟨e, false⟩)
    (hstate : e.state = .idle) (hreply : reply ≠ .returned) :
    ¬ EngineRun.Truthful ⟨e.start reply, failed⟩ := by
  have hnot : ¬ e.Running := by
    apply h.not_running
    rw [hstate]
    rfl
  unfold Engine.start
  rw [if_neg (not_not.mpr hstate)]
  cases reply with
  | returned => exact absurd rfl hreply
  | suspended => exact fun htruthful ↦ hnot (htruthful.active.mp rfl)
  | raised => exact fun htruthful ↦ hnot (htruthful.active.mp rfl)

theorem settled_stop {reply : Reply} (h : EngineRun.Settled ⟨e, false⟩) :
    EngineRun.Settled ⟨e.stop reply, false⟩ := by
  have hset : EngineRun.Settled ⟨{ e with stopEvent := true }, false⟩ :=
    h.of_eq rfl h.not_error (fun _ ↦ rfl) rfl
  unfold Engine.stop
  dsimp only
  split
  case h_1 hnone =>
    refine settled_leave hset fun _ hrunning ↦ ?_
    obtain ⟨task, htask⟩ := hrunning
    have hsome : e.syncTask = some task := h.last task htask
    rw [hnone] at hsome
    cases hsome
  case h_2 task hlast =>
    split_ifs with hrunning
    · exact hset.of_eq rfl h.not_error (fun _ ↦ rfl) rfl
    · refine settled_leave hset fun _ hother ↦ ?_
      obtain ⟨other, hother⟩ := hother
      have hsome : e.syncTask = some other := h.last other hother
      obtain rfl := Option.some.inj (hlast.symm.trans hsome)
      exact hrunning hother

theorem settled_stopResumes {index : ℕ} {reply : Reply} (h : EngineRun.Settled ⟨e, false⟩)
    (horderly : e.StopEnds index reply → ¬ e.Running) :
    EngineRun.Settled ⟨e.stopResumes index reply, false⟩ := by
  have hset : EngineRun.Settled ⟨{ e with stops := e.stops.eraseIdx index }, false⟩ :=
    h.of_eq rfl h.not_error (fun _ ↦ rfl) rfl
  unfold Engine.StopEnds at horderly
  unfold Engine.stopResumes
  cases hpc : e.stops[index]? with
  | none => exact h
  | some pc =>
      rw [hpc] at horderly
      cases pc with
      | joining task =>
          dsimp only
          split_ifs with hrunning
          · exact h
          · refine settled_leave hset fun hreturned ↦ ?_
            exact horderly ⟨hreturned, Bool.eq_false_of_not_eq_true hrunning⟩
      | discovery =>
          cases reply with
          | returned => exact settled_of_not_running rfl (horderly ⟨rfl, trivial⟩)
          | suspended => exact h
          | raised => exact hset

theorem not_truthful_stopResumes {index : ℕ} {reply : Reply} {failed : Bool}
    (hends : e.StopEnds index reply) (hrunning : e.Running) :
    ¬ EngineRun.Truthful ⟨e.stopResumes index reply, failed⟩ := by
  obtain ⟨rfl, hends⟩ := hends
  unfold Engine.stopResumes
  cases hpc : e.stops[index]? with
  | none =>
      rw [hpc] at hends
      exact hends.elim
  | some pc =>
      rw [hpc] at hends
      cases pc with
      | joining task =>
          dsimp only at hends ⊢
          rw [hends, if_neg Bool.false_ne_true]
          exact not_truthful_of_running rfl hrunning
      | discovery => exact not_truthful_of_running rfl hrunning

/-! ## The loop -/

theorem settled_setPc {pc : LoopPc} (h : EngineRun.Settled ⟨e, false⟩)
    (htask : e.isRunning task = true) (hpc : pc.isRunning = true) :
    EngineRun.Settled ⟨e.setPc task pc, false⟩ := by
  refine h.of_eq rfl h.not_error (fun other ↦ ?_) rfl
  rw [Engine.isRunning_setPc pc htask]
  split_ifs with hother
  · rw [hother, htask, hpc]
  · rfl

/-- The loop that ends was the only one. -/
theorem not_running_finish (h : EngineRun.Settled ⟨e, false⟩) (htask : e.isRunning task = true) :
    ¬ (e.finish task).Running := by
  rintro ⟨other, hother⟩
  have hset : (e.finish task).isRunning other =
      if other = task then false else e.isRunning other :=
    Engine.isRunning_setPc .done (e := { e with state := .idle }) htask other
  rw [hset] at hother
  split_ifs at hother with heq
  exact heq (h.single other task hother htask)

theorem settled_top (h : EngineRun.Settled ⟨e, false⟩) (htask : e.isRunning task = true) :
    EngineRun.Settled ⟨e.top task, false⟩ := by
  unfold Engine.top
  split_ifs
  · exact settled_of_not_running rfl (not_running_finish h htask)
  · exact settled_setPc h htask rfl
  · exact settled_setPc h htask rfl

theorem settled_nextPeer (h : EngineRun.Settled ⟨e, false⟩) (htask : e.isRunning task = true)
    (peers : List Peer) : EngineRun.Settled ⟨e.nextPeer task peers, false⟩ := by
  cases peers with
  | nil => exact settled_setPc h htask rfl
  | cons peer rest =>
      have hactive : EngineRun.Settled ⟨{ e with toSyncOrchestrator := e.addActive peer }, false⟩ :=
        h.of_eq rfl h.not_error (fun _ ↦ rfl) rfl
      exact settled_setPc hactive htask rfl

theorem settled_handled (settings : OrchestratorSettings) {answers : PeerAnswers}
    {localFiles : List FileMetadata} (h : EngineRun.Settled ⟨e, false⟩)
    (hfiles : answers.listAllFiles = some localFiles) :
    ∃ o, settings.finishHandling answers e.toSyncOrchestrator = .ok () o ∧
      EngineRun.Settled ⟨{ e with toSyncOrchestrator := o }, false⟩ := by
  obtain ⟨o, hrun, -, hstate⟩ := finishHandling_of_some settings e.toSyncOrchestrator hfiles
  refine ⟨o, hrun, h.of_eq ?_ ?_ (fun _ ↦ rfl) rfl⟩
  · dsimp only
    rw [hstate]
    split_ifs with hscanning
    · rw [hscanning]
      rfl
    · rfl
  · dsimp only
    rw [hstate]
    split_ifs
    · exact SyncState.noConfusion
    · exact h.not_error

theorem settled_loop {answer : LoopAnswer} (h : EngineRun.Settled ⟨e, false⟩)
    (hfails : e.loopFails task answer = false) :
    EngineRun.Settled ⟨settings.loop e task answer, false⟩ := by
  have hrunning : ∀ pc, e.tasks[task]? = some pc → pc.isRunning = true →
      e.isRunning task = true := by
    intro pc hpc hrunning
    rw [Engine.isRunning, hpc]
    exact hrunning
  unfold OrchestratorSettings.loop
  unfold Engine.loopFails at hfails
  split
  case h_1 hpc | h_2 hpc | h_3 hpc => exact settled_top h (hrunning _ hpc rfl)
  case h_4 peers hpc => exact settled_nextPeer h (hrunning _ hpc rfl) _
  case h_5 hpc =>
    rw [hpc] at hfails
    cases hfails
  case h_6 rest answers hpc =>
    rw [hpc] at hfails
    dsimp only at hfails
    cases hfiles : answers.listAllFiles with
    | none =>
        rw [hfiles] at hfails
        cases hfails
    | some localFiles =>
        obtain ⟨o, hrun, hhandled⟩ := settled_handled settings h hfiles
        rw [hrun]
        exact settled_nextPeer hhandled (hrunning _ hpc rfl) rest
  case h_7 => exact h

theorem state_loop_of_fails {answer : LoopAnswer} (hfails : e.loopFails task answer = true) :
    (settings.loop e task answer).state = .idle := by
  unfold OrchestratorSettings.loop
  unfold Engine.loopFails at hfails
  split at hfails
  case h_1 hpc =>
    rw [hpc]
    rfl
  case h_2 rest answers hpc =>
    obtain ⟨o, hrun, -⟩ := finishHandling_of_none settings e.toSyncOrchestrator
      (Option.isNone_iff_eq_none.mp hfails)
    rw [hpc]
    dsimp only
    rw [hrun]
    rfl
  case h_3 => cases hfails

/-! ## Runs -/

variable {run : EngineRun} {input : EngineInput}

theorem settled_advance (settings : OrchestratorSettings) (h : run.Settled)
    (horderly : run.Orderly input) :
    (settings.advance run input).Settled ∧ settings.Launches run input := by
  obtain ⟨e, failed⟩ := run
  obtain rfl : failed = false := h.not_failed
  cases input with
  | start reply =>
      obtain ⟨hsettled, hlaunches⟩ := settled_start h horderly
      exact ⟨hsettled, fun hnot _ ↦ .inl (hlaunches hnot)⟩
  | startResumes raises =>
      refine ⟨?_, trivial⟩
      change EngineRun.Settled ⟨e.startResumes raises, false⟩
      unfold Engine.startResumes
      split_ifs with hnone hraises
      · exact h
      · exact h.of_eq rfl h.not_error (fun _ ↦ rfl) rfl
      · exact absurd horderly (not_or.mpr ⟨hnone, hraises⟩)
  | stop reply => exact ⟨settled_stop h, trivial⟩
  | stopResumes index reply => exact ⟨settled_stopResumes h horderly, trivial⟩
  | pause =>
      refine ⟨⟨⟨iff_of_true rfl horderly, ?_, h.single⟩, ?_, h.last⟩, trivial⟩
      · exact fun hfailed ↦ absurd hfailed Bool.false_ne_true
      · exact SyncState.noConfusion
  | resume =>
      refine ⟨?_, trivial⟩
      change EngineRun.Settled ⟨e.resume, false⟩
      unfold Engine.resume
      split_ifs with hpaused
      · refine h.of_eq ?_ SyncState.noConfusion (fun _ ↦ rfl) rfl
        rw [hpaused]
        rfl
      · exact h
  | loop task answer =>
      have hfails : e.loopFails task answer = false := horderly
      refine ⟨?_, trivial⟩
      unfold OrchestratorSettings.advance
      dsimp only
      rw [hfails]
      exact settled_loop h hfails

theorem orderly_of_truthful (h : run.Settled) (htruthful : (settings.advance run input).Truthful) :
    run.Orderly input := by
  obtain ⟨e, failed⟩ := run
  obtain rfl : failed = false := h.not_failed
  cases input with
  | start reply =>
      intro hidle
      by_contra hreply
      exact not_truthful_start h hidle hreply htruthful
  | startResumes raises =>
      by_contra hnot
      obtain ⟨hsome, hraises⟩ := not_or.mp hnot
      have hlaunch : e.startResumes raises = { e with starts := e.starts - 1 }.launch := by
        rw [Engine.startResumes, if_neg hsome, if_neg hraises]
      have hresumed : EngineRun.Settled ⟨{ e with starts := e.starts - 1 }, false⟩ :=
        h.of_eq rfl h.not_error (fun _ ↦ rfl) rfl
      change EngineRun.Truthful ⟨e.startResumes raises, false⟩ at htruthful
      rw [hlaunch] at htruthful
      exact not_truthful_launch hresumed htruthful
  | stop reply => trivial
  | stopResumes index reply =>
      exact fun hends hrunning ↦ not_truthful_stopResumes hends hrunning htruthful
  | pause => exact htruthful.active.mp rfl
  | resume => trivial
  | loop task answer =>
      change e.loopFails task answer = false
      rw [← Bool.not_eq_true]
      intro hfails
      have hfailed : (settings.advance ⟨e, false⟩ (.loop task answer)).failed = true := hfails
      have herror := htruthful.error hfailed
      have hidle : (settings.advance ⟨e, false⟩ (.loop task answer)).engine.state = .idle :=
        state_loop_of_fails hfails
      rw [hidle] at herror
      cases herror

end Steps

/-- The engine as it is constructed. -/
def EngineRun.fresh : EngineRun := ⟨{}, false⟩

theorem settled_fresh : EngineRun.fresh.Settled := by
  refine settled_of_not_running rfl ?_
  rintro ⟨task, htask⟩
  cases htask

/-- For every interleaving of the calls with the steps of the loops: the engine's state tells
the truth throughout, and every start launches a loop, exactly if every step is orderly. -/
theorem truthful_iff_orderly (settings : OrchestratorSettings) (inputs : List EngineInput) :
    (Throughout settings.advance EngineRun.Truthful .fresh inputs ∧
      Meets settings.advance settings.Launches .fresh inputs) ↔
    Meets settings.advance EngineRun.Orderly .fresh inputs := by
  rw [throughout_iff, and_iff_right settled_fresh.toTruthful, ← meets_and]
  apply (meets_congr_of_met (P := EngineRun.Settled) _ _ settled_fresh).symm
  · exact fun run input h horderly ↦ (settled_advance settings h horderly).1
  · intro run input h
    constructor
    · intro horderly
      obtain ⟨hsettled, hlaunches⟩ := settled_advance settings h horderly
      exact ⟨hsettled.toTruthful, hlaunches⟩
    · exact fun htruthful ↦ orderly_of_truthful h htruthful.1

def sampleOrchestrator : OrchestratorSettings := ⟨true, true, true⟩

/-- The repository of peers cannot be read at the first poll. -/
def failingPoll : List EngineInput :=
  [.start .returned, .loop 0 .woken, .loop 0 .listRaised]

/-- The loop has failed, and the engine says that it is idle. -/
theorem idle_after_failure :
    (failingPoll.foldl sampleOrchestrator.advance .fresh).failed = true ∧
      (failingPoll.foldl sampleOrchestrator.advance .fresh).engine.state = .idle ∧
      ¬ Throughout sampleOrchestrator.advance EngineRun.Truthful .fresh failingPoll := by
  refine ⟨by decide, by decide, fun htruthful ↦ ?_⟩
  have herror := (htruthful failingPoll (List.prefix_refl _)).error (by decide)
  exact absurd herror (by decide)

end SecureSync.Orchestration
