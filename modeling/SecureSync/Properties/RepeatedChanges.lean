import SecureSync.Properties.FileNotifications

/-!
# Repeated changes

What the watcher holds back, over every interleaving of the threads that ask the debouncer.
-/

namespace SecureSync

/-- The same kind of change of the same paths. -/
def FileSystemEvent.SameChange (event event' : FileSystemEvent) : Prop :=
  event.eventType = event'.eventType ∧ event.srcPath = event'.srcPath ∧
    event.destPath = event'.destPath

instance (event event' : FileSystemEvent) : Decidable (event.SameChange event') :=
  inferInstanceAs (Decidable (_ ∧ _ ∧ _))

def FileSystemEvent.Translated (flavour : Flavour) (event : FileSystemEvent) : Prop :=
  ∃ raw, translate flavour raw = .ok event

theorem FileSystemEvent.Translated.dedupKey_eq_iff {flavour : Flavour}
    {event event' : FileSystemEvent} (h : event.Translated flavour)
    (h' : event'.Translated flavour) :
    event.dedupKey flavour = event'.dedupKey flavour ↔ event.SameChange event' := by
  obtain ⟨raw, hraw⟩ := h
  obtain ⟨raw', hraw'⟩ := h'
  exact SecureSync.dedupKey_eq_iff hraw hraw'

/-- The event that a thread is at work on before it is let through or held back. -/
def HandlerPc.incoming? {T : Type} : HandlerPc T → Option FileSystemEvent
  | .translated event | .clocked event _ => some event
  | _ => none

namespace WatcherState

variable {ω T : Type} {flavour : Flavour} {s : WatcherState ω T}

/-! ## Only translated events are asked about -/

/-- Every thread is at work on what was translated. -/
def Incoming (flavour : Flavour) (s : WatcherState ω T) : Prop :=
  ∀ i pc, s.pc? i = some pc → ∀ event ∈ pc.incoming?, event.Translated flavour

theorem pc?_setPc (i j : ℕ) (pc : HandlerPc T) :
    (s.setPc i pc).pc? j = if i = j then (s.pc? j).map fun _ ↦ pc else s.pc? j := by
  unfold setPc pc?
  simp only [List.getElem?_modify]
  by_cases hj : i = j
  · subst hj
    cases s.threads[i]? <;> simp
  · simp [hj]

theorem Incoming.setPc (h : s.Incoming flavour) (i : ℕ) {pc : HandlerPc T}
    (hpc : ∀ event ∈ pc.incoming?, event.Translated flavour) :
    (s.setPc i pc).Incoming flavour := by
  intro j pc' hpc'
  rw [pc?_setPc] at hpc'
  split_ifs at hpc' with hij
  · obtain ⟨old, -, rfl⟩ := Option.map_eq_some_iff.mp hpc'
    exact hpc
  · exact h j pc' hpc'

theorem incoming_runControl (h : s.Incoming flavour) (fails : Bool) :
    (s.runControl fails).Incoming flavour := by
  unfold runControl
  split
  case h_2 =>
    split_ifs
    · exact h
    · intro i pc hpc event hevent
      obtain ⟨t, ht, rfl⟩ := Option.map_eq_some_iff.mp hpc
      rcases Multicast.getElem?_concat_eq_some.mp ht with ht | ⟨-, rfl⟩
      · exact h i t.pc (by rw [pc?, ht]; rfl) event hevent
      · cases hevent
  case h_7 thread _ =>
    intro i pc hpc event hevent
    obtain ⟨t, ht, rfl⟩ := Option.map_eq_some_iff.mp hpc
    change (s.tellThread thread)[i]? = some t at ht
    unfold tellThread at ht
    rw [List.getElem?_modify] at ht
    obtain ⟨old, hold, rfl⟩ := Option.map_eq_some_iff.mp ht
    refine h i old.pc (by rw [pc?, hold]; rfl) event ?_
    split_ifs at hevent <;> exact hevent
  all_goals exact h

theorem incoming_init : ({} : WatcherState ω T).Incoming flavour := by
  intro i pc hpc
  simp [pc?] at hpc

/-! ## Questions and answers -/

variable [DecidableEq ω] [LinearOrder T] [Zero T] [Sub T]

section

variable (flavour : Flavour) (debouncer : EventDebouncer T)

/-- The question that a step puts to the debouncer, with the reading of the clock. -/
def asks (s : WatcherState ω T) : WatcherStep ω T → Option (FileSystemEvent × T)
  | .debounce thread =>
      match s.pc? thread with
      | some (.clocked event now) => some (event, now)
      | _ => none
  | _ => none

/-- The answer to it. -/
def letsThrough (s : WatcherState ω T) (event : FileSystemEvent) (now : T) : Bool :=
  (debouncer.shouldEmit (event.dedupKey flavour) now s.lastSeen).1

/-- What was asked in a run, in order. -/
def asked (s : WatcherState ω T) : List (WatcherStep ω T) → List (FileSystemEvent × T)
  | [] => []
  | a :: steps => (s.asks a).toList ++ asked (s.step flavour debouncer a) steps

/-- What was let through. -/
def passed (s : WatcherState ω T) : List (WatcherStep ω T) → List (FileSystemEvent × T)
  | [] => []
  | a :: steps =>
      (s.asks a).toList.filter (fun question ↦
          s.letsThrough flavour debouncer question.1 question.2) ++
        passed (s.step flavour debouncer a) steps

end

variable {debouncer : EventDebouncer T}

theorem asked_append (steps later : List (WatcherStep ω T)) :
    asked flavour debouncer s (steps ++ later) =
      asked flavour debouncer s steps ++
        asked flavour debouncer (run flavour debouncer s steps) later := by
  induction steps generalizing s with
  | nil => rfl
  | cons a steps ih =>
      rw [List.cons_append, asked, asked, ih, List.append_assoc]
      rfl

theorem passed_append (steps later : List (WatcherStep ω T)) :
    passed flavour debouncer s (steps ++ later) =
      passed flavour debouncer s steps ++
        passed flavour debouncer (run flavour debouncer s steps) later := by
  induction steps generalizing s with
  | nil => rfl
  | cons a steps ih =>
      rw [List.cons_append, passed, passed, ih, List.append_assoc]
      rfl

theorem passed_subset (steps : List (WatcherStep ω T)) :
    passed flavour debouncer s steps ⊆ asked flavour debouncer s steps := by
  induction steps generalizing s with
  | nil => exact List.Subset.refl _
  | cons a steps ih =>
      rw [passed, asked]
      apply List.append_subset.mpr
      constructor
      · exact List.subset_append_of_subset_left _ (List.filter_subset_self _)
      · exact List.subset_append_of_subset_right _ ih

theorem incoming_step (h : s.Incoming flavour) (a : WatcherStep ω T) :
    (s.step flavour debouncer a).Incoming flavour := by
  have hnone {i : ℕ} {pc : HandlerPc T} (hpc : pc.incoming? = none) :
      (s.setPc i pc).Incoming flavour := h.setPc i fun event hevent ↦ by
    rw [hpc] at hevent
    cases hevent
  cases a with
  | subscribe o implements =>
      simp only [step, subscribe]
      split_ifs <;> exact h
  | unsubscribe o => exact h
  | start loop valid =>
      simp only [step, start]
      split_ifs <;> exact h
  | stop =>
      simp only [step, stop]
      split <;> exact h
  | control fails => exact incoming_runControl h fails
  | rawEvent thread raw =>
      simp only [step, rawEvent]
      split
      · rename_i event _ hraw
        apply h.setPc
        rintro _ ⟨rfl⟩
        exact ⟨raw, hraw⟩
      · exact h
  | readClock thread now =>
      simp only [step, readClock]
      split
      · rename_i event hpc
        apply h.setPc
        exact h thread (.translated event) hpc
      · exact h
  | debounce thread =>
      simp only [step, debounce]
      split
      · refine Incoming.setPc ?_ thread fun event hevent ↦ ?_
        · exact h
        · split_ifs at hevent <;> cases hevent
      · exact h
  | readLoop thread =>
      simp only [step, readLoop]
      split
      · split
        · exact hnone rfl
        · split_ifs <;> exact hnone rfl
      · exact h
  | dispatch thread =>
      simp only [step, dispatch]
      split
      · split_ifs <;> exact hnone rfl
      · exact h
  | threadEnds thread =>
      simp only [step, threadEnds]
      split
      · exact hnone rfl
      · exact h
  | closeLoop loop => exact h
  | beginNotify loop =>
      simp only [step, beginNotify]
      split_ifs
      · exact h
      · split <;> exact h
  | observerEnds i result =>
      simp only [step, observerEnds]
      split
      · split_ifs
        · exact h
        · cases result <;> exact h
      · exact h

theorem incoming_run (h : s.Incoming flavour) (steps : List (WatcherStep ω T)) :
    (run flavour debouncer s steps).Incoming flavour := by
  induction steps generalizing s with
  | nil => exact h
  | cons a steps ih => exact ih (incoming_step h a)

/-! ## What the debouncer remembers -/

/-- Only a question changes the dictionary. -/
theorem lastSeen_step (a : WatcherStep ω T) :
    (s.step flavour debouncer a).lastSeen =
      match s.asks a with
      | some (event, now) => (debouncer.shouldEmit (event.dedupKey flavour) now s.lastSeen).2
      | none => s.lastSeen := by
  cases a with
  | debounce thread =>
      simp only [step, debounce, asks]
      split <;> simp_all [setPc]
  | subscribe o implements =>
      simp only [step, subscribe, asks]
      split_ifs <;> rfl
  | start loop valid =>
      simp only [step, start, asks]
      split_ifs <;> rfl
  | control fails =>
      simp only [step, runControl, asks]
      split <;> (try split_ifs) <;> rfl
  | readLoop thread =>
      simp only [step, readLoop, asks]
      repeat' split
      all_goals rfl
  | dispatch thread =>
      simp only [step, dispatch, asks]
      repeat' split
      all_goals rfl
  | beginNotify loop =>
      simp only [step, beginNotify, asks]
      repeat' split
      all_goals rfl
  | observerEnds i result =>
      simp only [step, observerEnds, asks]
      repeat' split
      all_goals rfl
  | stop =>
      simp only [step, stop, asks]
      split <;> rfl
  | rawEvent thread raw =>
      simp only [step, rawEvent, asks]
      split <;> rfl
  | readClock thread now =>
      simp only [step, readClock, asks]
      split <;> rfl
  | threadEnds thread =>
      simp only [step, threadEnds, asks]
      split <;> rfl
  | unsubscribe o => rfl
  | closeLoop loop => rfl

/-- The dictionary is about the latest of what was let through. -/
def Remembers (flavour : Flavour) (debouncer : EventDebouncer T) (lastSeen : LastSeen DedupKey T)
    (asked passed : List (FileSystemEvent × T)) : Prop :=
  ∃ emitted : DedupKey → Option T,
    (∀ now, (∀ question ∈ asked, question.2 ≤ now) → debouncer.Tracks lastSeen emitted now) ∧
    (∀ key t, emitted key = some t → ∃ question ∈ passed,
      question.1.dedupKey flavour = key ∧ question.2 = t) ∧
    ∀ question ∈ passed, ∃ t, emitted (question.1.dedupKey flavour) = some t ∧ question.2 ≤ t

omit [DecidableEq ω] in
theorem remembers_nil : Remembers flavour debouncer (⟨[], List.nodup_nil⟩) [] [] :=
  ⟨fun _ ↦ none, fun _ _ ↦ ⟨List.Pairwise.nil, by simp, by simp, by simp⟩, by simp, by simp⟩

/-- One more question, asked at the latest reading. -/
theorem Remembers.ask {lastSeen : LastSeen DedupKey T} {asked passed : List (FileSystemEvent × T)}
    (h : Remembers flavour debouncer lastSeen asked passed) (hwindow : 0 < debouncer.windowSeconds)
    (hsubset : passed ⊆ asked) (event : FileSystemEvent) {now : T}
    (hnow : ∀ question ∈ asked, question.2 ≤ now) :
    ((debouncer.shouldEmit (event.dedupKey flavour) now lastSeen).1 = true ↔
      ∀ question ∈ passed, question.1.dedupKey flavour = event.dedupKey flavour →
        ¬ now - question.2 < debouncer.windowSeconds) ∧
    Remembers flavour debouncer (debouncer.shouldEmit (event.dedupKey flavour) now lastSeen).2
      (asked ++ [(event, now)])
      (passed ++ if (debouncer.shouldEmit (event.dedupKey flavour) now lastSeen).1 then
        [(event, now)] else []) := by
  obtain ⟨emitted, htracks, hlast, hpassed⟩ := h
  obtain ⟨hanswer, hafter, -⟩ := (htracks now hnow).shouldEmit hwindow (event.dedupKey flavour)
  constructor
  · rw [hanswer, EventDebouncer.referenceEmits, decide_eq_true_eq]
    constructor
    · intro hnone question hquestion hkey hyoung
      obtain ⟨t, ht, hle⟩ := hpassed question hquestion
      apply hnone
      refine ⟨t, hkey ▸ ht, ?_⟩
      exact (debouncer.sub_anti hle now).trans_lt hyoung
    · rintro hall ⟨t, ht, hyoung⟩
      obtain ⟨question, hquestion, hkey, rfl⟩ := hlast _ t ht
      exact hall question hquestion hkey hyoung
  · have hlater {emitted' : DedupKey → Option T}
        (htracks' : debouncer.Tracks
          (debouncer.shouldEmit (event.dedupKey flavour) now lastSeen).2 emitted' now) (later : T)
        (hle : ∀ question ∈ asked ++ [(event, now)], question.2 ≤ later) :
        debouncer.Tracks (debouncer.shouldEmit (event.dedupKey flavour) now lastSeen).2 emitted'
          later := htracks'.mono (hle (event, now) List.mem_concat_self)
    rw [hanswer]
    cases hemits : debouncer.referenceEmits emitted (event.dedupKey flavour) now with
    | false =>
        rw [hemits] at hafter
        exact ⟨emitted, hlater hafter, by simpa using hlast, by simpa using hpassed⟩
    | true =>
        rw [hemits] at hafter
        refine ⟨_, hlater hafter, fun key t ht ↦ ?_, fun question hquestion ↦ ?_⟩
        · by_cases hkey : key = event.dedupKey flavour
          · subst hkey
            rw [if_pos rfl, Function.update_self] at ht
            exact ⟨(event, now), List.mem_concat_self, rfl, Option.some.inj ht⟩
          · rw [if_pos rfl, Function.update_of_ne hkey] at ht
            obtain ⟨question, hquestion, hfound⟩ := hlast key t ht
            exact ⟨question, List.mem_append_left _ hquestion, hfound⟩
        · rw [if_pos rfl]
          by_cases hkey : question.1.dedupKey flavour = event.dedupKey flavour
          · refine ⟨now, by rw [hkey, Function.update_self], ?_⟩
            rcases List.mem_append.mp hquestion with hquestion | hquestion
            · exact hnow question (hsubset hquestion)
            · rw [List.mem_singleton.mp hquestion]
          · rw [Function.update_of_ne hkey]
            rcases List.mem_append.mp hquestion with hquestion | hquestion
            · exact hpassed question hquestion
            · rw [List.mem_singleton.mp hquestion] at hkey
              exact absurd rfl hkey

/-- The readings of the clock do not go back, in the order in which the debouncer is asked. -/
def InOrder (questions : List (FileSystemEvent × T)) : Prop :=
  questions.Pairwise fun question question' ↦ question.2 ≤ question'.2

instance (questions : List (FileSystemEvent × T)) : Decidable (InOrder questions) :=
  inferInstanceAs (Decidable (List.Pairwise _ _))

theorem remembers_run (hwindow : 0 < debouncer.windowSeconds) (steps : List (WatcherStep ω T))
    (h : InOrder (asked flavour debouncer {} steps)) :
    Remembers flavour debouncer (run flavour debouncer {} steps).lastSeen
      (asked flavour debouncer {} steps) (passed flavour debouncer {} steps) := by
  induction steps using List.reverseRecOn with
  | nil => exact remembers_nil
  | append_singleton steps a ih =>
      rw [asked_append] at h
      obtain ⟨hbefore, -, hlast⟩ := List.pairwise_append.mp h
      have hremembers := ih hbefore
      have hrun : run flavour debouncer ({} : WatcherState ω T) (steps ++ [a]) =
          (run flavour debouncer {} steps).step flavour debouncer a := List.foldl_concat ..
      rw [asked_append, passed_append, hrun, lastSeen_step]
      simp only [asked, passed, List.append_nil] at hlast ⊢
      cases hask : (run flavour debouncer ({} : WatcherState ω T) steps).asks a with
      | none => simpa using hremembers
      | some question =>
          obtain ⟨event, now⟩ := question
          have hnow : ∀ question ∈ asked flavour debouncer {} steps, question.2 ≤ now :=
            fun question hquestion ↦ hlast question hquestion (event, now) (by simp [hask])
          have hafter := (hremembers.ask hwindow (passed_subset steps) event hnow).2
          rw [Option.toList_some, List.filter_singleton, Bool.cond_eq_ite]
          exact hafter

/-- Whatever the window, which is nothing at all where debouncing is switched off. -/
theorem shouldEmit_run_iff (steps : List (WatcherStep ω T))
    (horder : InOrder (asked flavour debouncer ({} : WatcherState ω T) steps))
    (event : FileSystemEvent) {now : T}
    (hnow : ∀ question ∈ asked flavour debouncer ({} : WatcherState ω T) steps,
      question.2 ≤ now) :
    (debouncer.shouldEmit (event.dedupKey flavour) now
        (run flavour debouncer ({} : WatcherState ω T) steps).lastSeen).1 = true ↔
      ∀ question ∈ passed flavour debouncer ({} : WatcherState ω T) steps,
        question.1.dedupKey flavour = event.dedupKey flavour →
          ¬ now - question.2 < debouncer.windowSeconds := by
  rcases debouncer.window_nonneg.eq_or_lt with hzero | hwindow
  · rw [EventDebouncer.shouldEmit, if_pos hzero.symm]
    refine iff_of_true rfl fun question hquestion _ ↦ ?_
    rw [← hzero, not_lt, ← debouncer.sub_self question.2]
    exact debouncer.sub_mono (hnow question (passed_subset steps hquestion)) question.2
  · exact ((remembers_run hwindow steps horder).ask hwindow (passed_subset steps) event hnow).1

theorem translated_passed (steps : List (WatcherStep ω T)) (h : s.Incoming flavour) :
    ∀ question ∈ passed flavour debouncer s steps, question.1.Translated flavour := by
  induction steps generalizing s with
  | nil => simp [passed]
  | cons a steps ih =>
      intro question hquestion
      rcases List.mem_append.mp hquestion with hquestion | hquestion
      · have hask : s.asks a = some question := by
          simpa using (List.mem_filter.mp hquestion).1
        cases a with
        | debounce thread =>
            simp only [asks] at hask
            split at hask
            · rename_i event now hpc
              obtain rfl := Option.some.inj hask
              exact h thread _ hpc event rfl
            · cases hask
        | _ => cases hask
      · exact ih (incoming_step h a) question hquestion

/-- As long as the readings of the clock do not go back, an event that reaches the debouncer is
let through if and only if no event of the same kind on the same paths has been let through
within the window, whatever threads, restarts and other changes come in between. -/
theorem held_back_iff_repeated (flavour : Flavour) (debouncer : EventDebouncer T)
    (steps : List (WatcherStep ω T)) (thread : ℕ) (event : FileSystemEvent) (now : T)
    (horder : InOrder (asked flavour debouncer {} (steps ++ [.debounce thread])))
    (hevent : (run flavour debouncer {} steps).pc? thread = some (.clocked event now)) :
    (run flavour debouncer {} (steps ++ [.debounce thread])).pc? thread =
      some (if ∃ question ∈ passed flavour debouncer {} steps,
          question.1.SameChange event ∧ now - question.2 < debouncer.windowSeconds
        then .waiting else .accepted event) := by
  have hask : (run flavour debouncer {} steps).asks (.debounce thread) = some (event, now) := by
    simp only [asks, hevent]
  have hincoming : (run flavour debouncer ({} : WatcherState ω T) steps).Incoming flavour :=
    incoming_run incoming_init steps
  have htranslated : event.Translated flavour := hincoming thread _ hevent event rfl
  rw [asked_append] at horder
  obtain ⟨hbefore, -, hlast⟩ := List.pairwise_append.mp horder
  have hnow : ∀ question ∈ asked flavour debouncer {} steps, question.2 ≤ now := by
    intro question hquestion
    apply hlast question hquestion (event, now)
    simp [asked, hask]
  have hanswer := shouldEmit_run_iff steps hbefore event hnow
  have hrun : run flavour debouncer ({} : WatcherState ω T) (steps ++ [.debounce thread]) =
      (run flavour debouncer {} steps).debounce flavour debouncer thread := List.foldl_concat ..
  have hsame : (∃ question ∈ passed flavour debouncer ({} : WatcherState ω T) steps,
      question.1.SameChange event ∧ now - question.2 < debouncer.windowSeconds) ↔
        ¬ (debouncer.shouldEmit (event.dedupKey flavour) now
          (run flavour debouncer {} steps).lastSeen).1 = true := by
    rw [hanswer]
    push Not
    refine exists_congr fun question ↦ and_congr_right fun hquestion ↦ ?_
    rw [(translated_passed steps incoming_init question hquestion).dedupKey_eq_iff htranslated]
  rw [hrun, debounce, hevent]
  dsimp only
  rw [pc?_setPc, if_pos rfl]
  change ((run flavour debouncer {} steps).pc? thread).map _ = _
  rw [hevent, Option.map_some, if_congr hsame rfl rfl, ite_not]

/-- A file is modified twice within the window. -/
def modifiedTwice : List (WatcherStep ℕ ℤ) :=
  watching ++ [.rawEvent 0 ⟨"modified", "/a".toList, [], false⟩, .readClock 0 7, .debounce 0,
    .readLoop 0, .dispatch 0, .rawEvent 0 ⟨"modified", "/./a".toList, [], false⟩, .readClock 0 11]

theorem held_back_iff_repeated_twice :
    (run .posix fiveTicks {} (modifiedTwice ++ [.debounce 0])).pc? 0 =
      some (if ∃ question ∈ passed .posix fiveTicks {} modifiedTwice,
          question.1.SameChange ⟨.modified, ⟨[], ['/'], ["a"]⟩, false, none, by decide⟩ ∧
            11 - question.2 < fiveTicks.windowSeconds
        then .waiting else .accepted ⟨.modified, ⟨[], ['/'], ["a"]⟩, false, none, by decide⟩) :=
  held_back_iff_repeated .posix fiveTicks modifiedTwice 0
    ⟨.modified, ⟨[], ['/'], ["a"]⟩, false, none, by decide⟩ 11 (by decide +kernel)
    (by decide +kernel)

end WatcherState
end SecureSync
