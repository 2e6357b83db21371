import SecureSync.Library.Admissions
import SecureSync.Properties.FileNotifications

/-!
# The threads of the watcher

What `start` and `stop` leave behind, at whatever point the threads of the notification
library get in between.
-/

namespace SecureSync

open Multicast

def HandlerPc.isDispatching {T : Type} : HandlerPc T → Bool
  | .dispatching .. => true
  | _ => false

/-- The steps of `start` and `stop`. -/
def WatcherStep.isControl {ω T : Type} : WatcherStep ω T → Bool
  | .start .. | .stop | .control _ => true
  | _ => false

namespace WatcherState

variable {ω T : Type} {s : WatcherState ω T}

/-! ## What `start` and `stop` are about -/

structure Core where
  control : ControlPc
  running : Bool
  watchdogObserver : Option ℕ
  loop : Option ℕ
  told : List Bool

def core (s : WatcherState ω T) : Core :=
  ⟨s.control, s.running, s.watchdogObserver, s.loop, s.threads.map WatchThread.told⟩

/-- The thread that is to be told to stop some time. -/
def Core.held (c : Core) : Option ℕ :=
  match c.control with
  | .keep thread | .release thread | .forget thread | .halt thread => some thread
  | _ => c.watchdogObserver

def Core.Consistent (c : Core) : Prop :=
  match c.control with
  | .idle => c.running = c.watchdogObserver.isSome ∧ (c.running = true → c.loop.isSome = true)
  | .schedule | .keep _ => c.running = false ∧ c.watchdogObserver = none ∧ c.loop.isSome = true
  | .announce => c.running = false ∧ c.watchdogObserver.isSome = true ∧ c.loop.isSome = true
  | .release _ => c.running = false
  | .forget _ => c.running = false ∧ c.watchdogObserver = none
  | .halt _ => c.running = false ∧ c.watchdogObserver = none ∧ c.loop = none

/-- Every thread has been told to stop, except the one that is held. -/
structure Core.Orderly (c : Core) : Prop where
  consistent : c.Consistent
  held_iff : ∀ i, c.held = some i ↔ c.told[i]? = some false

theorem told_setPc (thread : ℕ) (pc : HandlerPc T) :
    (s.setPc thread pc).core = s.core := by
  unfold setPc core
  congr 1
  apply List.ext_getElem?
  intro j
  simp only [List.getElem?_map, List.getElem?_modify]
  by_cases hj : thread = j
  · subst hj
    cases s.threads[thread]? <;> simp
  · simp [hj]

theorem told_tellThread (thread : ℕ) :
    (s.tellThread thread).map WatchThread.told =
      (s.threads.map WatchThread.told).set thread true := by
  unfold tellThread
  apply List.ext_getElem?
  intro j
  simp only [List.getElem?_map, List.getElem?_modify, List.getElem?_set, List.length_map]
  by_cases hj : thread = j
  · subst hj
    by_cases hi : thread < s.threads.length
    · simp [hi]
    · simp [hi]
  · simp [hj]

theorem orderly_start (h : s.core.Orderly) (loop : ℕ) (valid : Bool) :
    (s.start loop valid).core.Orderly := by
  unfold start
  split_ifs with hstart
  · obtain ⟨hidle, hrunning, -⟩ := hstart
    have hconsistent := h.consistent
    simp only [Core.Consistent, core, hidle] at hconsistent
    have hobserver : s.watchdogObserver = none := by
      rw [← Option.not_isSome_iff_eq_none, ← hconsistent.1]
      simpa using hrunning
    refine ⟨⟨Bool.eq_false_iff.mpr hrunning, hobserver, rfl⟩, fun i ↦ ?_⟩
    have hheld := h.held_iff i
    simp only [Core.held, core, hidle] at hheld
    exact hheld
  · exact h

theorem orderly_stop (h : s.core.Orderly) : s.stop.core.Orderly := by
  unfold stop
  split
  · rename_i thread hidle hrunning hobserver
    refine ⟨rfl, fun i ↦ ?_⟩
    have hheld := h.held_iff i
    simp only [Core.held, core, hidle, hobserver] at hheld
    exact hheld
  · exact h

theorem orderly_runControl (h : s.core.Orderly) (fails : Bool) :
    (s.runControl fails).core.Orderly := by
  have hconsistent := h.consistent
  have hheld := h.held_iff
  unfold runControl
  split
  · exact h
  · rename_i hcontrol
    simp only [Core.Consistent, Core.held, core, hcontrol] at hconsistent hheld
    obtain ⟨hrunning, hobserver, hloop⟩ := hconsistent
    split_ifs
    · refine ⟨⟨?_, fun _ ↦ hloop⟩, hheld⟩
      change s.running = s.watchdogObserver.isSome
      rw [hrunning, hobserver]
      rfl
    · refine ⟨⟨hrunning, hobserver, hloop⟩, fun i ↦ ?_⟩
      rw [hobserver] at hheld
      simp only [Core.held, core, List.map_append, List.map_cons, List.map_nil,
        getElem?_concat_eq_some, ← hheld i, List.length_map, and_true, Option.some.injEq]
      simp [eq_comm]
  · rename_i thread hcontrol
    simp only [Core.Consistent, Core.held, core, hcontrol] at hconsistent hheld
    exact ⟨⟨hconsistent.1, rfl, hconsistent.2.2⟩, hheld⟩
  · rename_i hcontrol
    simp only [Core.Consistent, Core.held, core, hcontrol] at hconsistent hheld
    exact ⟨⟨hconsistent.2.1.symm, fun _ ↦ hconsistent.2.2⟩, hheld⟩
  · rename_i thread hcontrol
    simp only [Core.Consistent, Core.held, core, hcontrol] at hconsistent hheld
    exact ⟨⟨hconsistent, rfl⟩, hheld⟩
  · rename_i thread hcontrol
    simp only [Core.Consistent, Core.held, core, hcontrol] at hconsistent hheld
    exact ⟨⟨hconsistent.1, hconsistent.2, rfl⟩, hheld⟩
  · rename_i thread hcontrol
    simp only [Core.Consistent, Core.held, core, hcontrol] at hconsistent hheld
    obtain ⟨hrunning, hobserver, hloop⟩ := hconsistent
    refine ⟨⟨?_, ?_⟩, fun i ↦ ?_⟩
    · simp [core, hrunning, hobserver]
    · simp [core, hrunning]
    · simp only [Core.held, core, told_tellThread, hobserver]
      have hthread := hheld i
      rw [List.getElem?_set]
      split_ifs with hi <;> simp_all

theorem orderly_init : ({} : WatcherState ω T).core.Orderly := by
  refine ⟨⟨rfl, fun h ↦ absurd h Bool.false_ne_true⟩, fun i ↦ ?_⟩
  simp [Core.held, core]

/-! ## A watcher that has been stopped -/

/-- Threads that have read `_loop` and are about to hand over their event. -/
def inFlight (s : WatcherState ω T) : ℕ := s.threads.countP fun t ↦ t.pc.isDispatching

/-- At rest, with no loop. -/
def Stopped (s : WatcherState ω T) : Prop :=
  s.control = .idle ∧ s.running = false ∧ s.loop = none

theorem inFlight_setPc (thread : ℕ) {pc : HandlerPc T} (hpc : pc.isDispatching = false) :
    (s.setPc thread pc).inFlight +
      (s.threads[thread]?.toList.countP fun t ↦ t.pc.isDispatching) = s.inFlight := by
  have hcount := Admission.countP_modify (fun t : WatchThread T ↦ t.pc.isDispatching)
    (fun t ↦ { t with pc }) s.threads thread
  cases hthread : s.threads[thread]? with
  | none => simpa [hthread, inFlight, setPc] using hcount
  | some t => simpa [hthread, hpc, inFlight, setPc] using hcount

theorem core_of_stopped {s s' : WatcherState ω T} (h : s.Stopped) (hcore : s'.core = s.core) :
    s'.Stopped := by
  obtain ⟨hcontrol, hrunning, hloop⟩ := h
  have hcontrol' : s'.control = s.control := congrArg Core.control hcore
  have hrunning' : s'.running = s.running := congrArg Core.running hcore
  have hloop' : s'.loop = s.loop := congrArg Core.loop hcore
  exact ⟨hcontrol'.trans hcontrol, hrunning'.trans hrunning, hloop'.trans hloop⟩

/-! ## Runs -/

section

variable [DecidableEq ω] [LinearOrder T] [Zero T] [Sub T] {flavour : Flavour}
  {debouncer : EventDebouncer T}

theorem core_step {a : WatcherStep ω T} (ha : a.isControl = false) :
    (s.step flavour debouncer a).core = s.core := by
  cases a with
  | start loop valid => cases ha
  | stop => cases ha
  | control fails => cases ha
  | subscribe o implements =>
      simp only [step, subscribe]
      split_ifs <;> rfl
  | unsubscribe o => rfl
  | rawEvent thread raw =>
      simp only [step, rawEvent]
      split
      · exact told_setPc thread _
      · rfl
  | readClock thread now =>
      simp only [step, readClock]
      split
      · exact told_setPc thread _
      · rfl
  | debounce thread =>
      simp only [step, debounce]
      split
      · exact told_setPc thread _
      · rfl
  | readLoop thread =>
      simp only [step, readLoop]
      split
      · split
        · exact told_setPc thread _
        · split_ifs <;> exact told_setPc thread _
      · rfl
  | dispatch thread =>
      simp only [step, dispatch]
      split
      · split_ifs <;> exact told_setPc thread _
      · rfl
  | threadEnds thread =>
      simp only [step, threadEnds]
      split
      · exact told_setPc thread _
      · rfl
  | closeLoop loop => rfl
  | beginNotify loop =>
      simp only [step, beginNotify]
      split_ifs
      · rfl
      · split <;> rfl
  | observerEnds i result =>
      simp only [step, observerEnds]
      split
      · split_ifs
        · rfl
        · cases result <;> rfl
      · rfl

theorem orderly_step (h : s.core.Orderly) (a : WatcherStep ω T) :
    (s.step flavour debouncer a).core.Orderly := by
  cases hcontrol : a.isControl with
  | false => rwa [core_step hcontrol]
  | true =>
      cases a with
      | start loop valid => exact orderly_start h loop valid
      | stop => exact orderly_stop h
      | control fails => exact orderly_runControl h fails
      | _ => cases hcontrol

theorem orderly_run (h : s.core.Orderly) (steps : List (WatcherStep ω T)) :
    (run flavour debouncer s steps).core.Orderly := by
  induction steps generalizing s with
  | nil => exact h
  | cons a steps ih => exact ih (orderly_step h a)

/-- Without a loop, an event is only handed over by a thread that had read it before. -/
theorem inFlight_step (flavour : Flavour) (debouncer : EventDebouncer T) (h : s.Stopped)
    {a : WatcherStep ω T}
    (ha : ∀ loop valid, a ≠ .start loop valid) :
    (s.step flavour debouncer a).Stopped ∧
      (s.step flavour debouncer a).notifications.length + (s.step flavour debouncer a).inFlight ≤
        s.notifications.length + s.inFlight := by
  obtain ⟨hcontrol, hrunning, hloop⟩ := id h
  have hset {thread : ℕ} {pc : HandlerPc T} (hpc : pc.isDispatching = false) :
      s.notifications.length + (s.setPc thread pc).inFlight ≤
        s.notifications.length + s.inFlight := by
    have hcount := inFlight_setPc (s := s) thread hpc
    omega
  cases hkind : a.isControl with
  | true =>
      cases a with
      | start loop valid => exact absurd rfl (ha loop valid)
      | stop =>
          have hstop : s.stop = s := by
            unfold stop
            rw [hcontrol, hrunning]
          rw [step, hstop]
          exact ⟨h, le_rfl⟩
      | control fails =>
          have hidle : s.runControl fails = s := by
            unfold runControl
            rw [hcontrol]
          rw [step, hidle]
          exact ⟨h, le_rfl⟩
      | _ => cases hkind
  | false =>
      refine ⟨core_of_stopped h (core_step hkind), ?_⟩
      cases a with
      | start loop valid => cases hkind
      | stop => cases hkind
      | control fails => cases hkind
      | subscribe o implements =>
          simp only [step, subscribe]
          split_ifs <;> exact le_rfl
      | unsubscribe o => exact le_rfl
      | rawEvent thread raw =>
          simp only [step, rawEvent]
          split
          · exact hset rfl
          · exact le_rfl
      | readClock thread now =>
          simp only [step, readClock]
          split
          · exact hset rfl
          · exact le_rfl
      | debounce thread =>
          simp only [step, debounce]
          split
          · exact hset (by split_ifs <;> rfl)
          · exact le_rfl
      | readLoop thread =>
          simp only [step, readLoop, hloop]
          split
          · exact hset rfl
          · exact le_rfl
      | dispatch thread =>
          simp only [step, dispatch]
          split
          · rename_i event loop hpc
            split_ifs
            · exact hset rfl
            · obtain ⟨t, ht, htpc⟩ := Option.map_eq_some_iff.mp hpc
              have hcount := inFlight_setPc (s := s) thread
                (rfl : HandlerPc.isDispatching (.waiting : HandlerPc T) = false)
              rw [ht, Option.toList_some, List.countP_singleton, htpc] at hcount
              change (s.notifications ++ [_]).length + (s.setPc thread .waiting).inFlight ≤ _
              rw [List.length_append, List.length_singleton]
              simp only [HandlerPc.isDispatching, if_true] at hcount
              omega
          · exact le_rfl
      | threadEnds thread =>
          simp only [step, threadEnds]
          split
          · exact hset rfl
          · exact le_rfl
      | closeLoop loop => exact le_rfl
      | beginNotify loop =>
          simp only [step, beginNotify]
          split_ifs
          · exact le_rfl
          · split
            · exact le_rfl
            · simp [proceed, setDelivery, inFlight]
      | observerEnds i result =>
          simp only [step, observerEnds]
          split
          · split_ifs
            · exact le_rfl
            · cases result <;> simp [proceed, setDelivery, inFlight]
          · exact le_rfl

theorem inFlight_run (flavour : Flavour) (debouncer : EventDebouncer T) (h : s.Stopped)
    {steps : List (WatcherStep ω T)}
    (hsteps : ∀ loop valid, .start loop valid ∉ steps) :
    (run flavour debouncer s steps).Stopped ∧
      (run flavour debouncer s steps).notifications.length +
        (run flavour debouncer s steps).inFlight ≤ s.notifications.length + s.inFlight := by
  induction steps generalizing s with
  | nil => exact ⟨h, le_rfl⟩
  | cons a steps ih =>
      obtain ⟨hnext, hle⟩ := inFlight_step flavour debouncer h (a := a)
        fun loop valid ha ↦ hsteps loop valid (ha ▸ List.mem_cons_self)
      obtain ⟨hlast, hle'⟩ := ih hnext fun loop valid hmem ↦
        hsteps loop valid (List.mem_cons_of_mem a hmem)
      exact ⟨hlast, hle'.trans hle⟩

/-- Whenever no `start` or `stop` is under way, the watcher runs if and only if it holds a
thread, which is the only one that has not been told to stop, and has a loop if it runs.  Once
`stop` has returned, and until `start` is called again, it does not run, and hands over no more
events than threads had read the loop before. -/
theorem watcher_at_rest (flavour : Flavour) (debouncer : EventDebouncer T)
    (steps : List (WatcherStep ω T)) (hidle : (run flavour debouncer {} steps).control = .idle) :
    ((run flavour debouncer {} steps).running =
        (run flavour debouncer {} steps).watchdogObserver.isSome ∧
      ((run flavour debouncer {} steps).running = true →
        (run flavour debouncer {} steps).loop.isSome = true) ∧
      ∀ i, (run flavour debouncer {} steps).watchdogObserver = some i ↔
        ((run flavour debouncer {} steps).threads.map WatchThread.told)[i]? = some false) ∧
    ((run flavour debouncer {} steps).loop = none →
      ∀ later : List (WatcherStep ω T), (∀ loop valid, .start loop valid ∉ later) →
        (run flavour debouncer {} (steps ++ later)).running = false ∧
        (run flavour debouncer {} (steps ++ later)).notifications.length ≤
          (run flavour debouncer {} steps).notifications.length +
            (run flavour debouncer {} steps).inFlight) := by
  have horderly : (run flavour debouncer ({} : WatcherState ω T) steps).core.Orderly :=
    orderly_run orderly_init steps
  have hconsistent := horderly.consistent
  have hheld := horderly.held_iff
  simp only [Core.Consistent, Core.held, core, hidle] at hconsistent hheld
  refine ⟨⟨hconsistent.1, hconsistent.2, hheld⟩, fun hloop later hlater ↦ ?_⟩
  have hrunning : (run flavour debouncer ({} : WatcherState ω T) steps).running = false := by
    rw [Bool.eq_false_iff]
    intro hrunning
    have hsome := hconsistent.2 hrunning
    rw [hloop] at hsome
    cases hsome
  obtain ⟨⟨-, hlast, -⟩, hle⟩ := inFlight_run flavour debouncer
    (s := run flavour debouncer {} steps) ⟨hidle, hrunning, hloop⟩ hlater
  have hrun : run flavour debouncer ({} : WatcherState ω T) (steps ++ later) =
      run flavour debouncer (run flavour debouncer {} steps) later := List.foldl_append ..
  rw [hrun]
  exact ⟨hlast, by omega⟩

/-- The watcher is stopped while its thread has an event and the loop in hand. -/
def stoppedMidway : List (WatcherStep ℕ ℤ) :=
  watching ++ [.rawEvent 0 ⟨"deleted", "/a".toList, [], false⟩, .readClock 0 7, .debounce 0,
    .readLoop 0, .stop, .control false, .control false, .control false]

theorem watcher_at_rest_midway :
    (run .posix fiveTicks {} (stoppedMidway ++ [.dispatch 0])).running = false ∧
    (run .posix fiveTicks {} (stoppedMidway ++ [.dispatch 0])).notifications.length ≤
      (run .posix fiveTicks {} stoppedMidway).notifications.length +
        (run .posix fiveTicks {} stoppedMidway).inFlight :=
  (watcher_at_rest .posix fiveTicks stoppedMidway (by decide +kernel)).2 (by decide +kernel)
    [.dispatch 0] (by simp)

end

end WatcherState
end SecureSync
