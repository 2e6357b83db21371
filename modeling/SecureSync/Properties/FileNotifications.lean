import SecureSync.Infrastructure.FileWatcher
import SecureSync.Properties.Debouncing

/-!
# File notifications

The watcher over every interleaving of its calls, its threads and its notifications: who is
told of a change and how often, what is held back, and what a watcher at rest holds.
-/

namespace SecureSync

open Multicast

namespace WatcherState

variable {ω T : Type} {s : WatcherState ω T}

/-! ## The board -/

/-- What subscribers and notifications are to each other. -/
def board (s : WatcherState ω T) : Board ω :=
  ⟨s.observers, s.notifications.map Notification.delivery, s.calls⟩

@[simp] theorem board_setPc (thread : ℕ) (pc : HandlerPc T) :
    (s.setPc thread pc).board = s.board := rfl

theorem getElem?_board {i : ℕ} {n : Notification ω} (h : s.notifications[i]? = some n) :
    s.board.deliveries[i]? = some n.delivery := by
  simp [board, h]

theorem deliveries_setDelivery (i : ℕ) (d : Multicast.Delivery ω) :
    (s.setDelivery i d).notifications.map Notification.delivery =
      (s.notifications.map Notification.delivery).set i d := by
  unfold setDelivery
  apply List.ext_getElem?
  intro j
  simp only [List.getElem?_map, List.getElem?_modify, List.getElem?_set, List.length_map]
  by_cases hj : i = j
  · subst hj
    by_cases hi : i < s.notifications.length
    · simp [hi]
    · simp [hi]
  · simp [hj]

theorem board_proceed (i : ℕ) (called rest : List ω) :
    (s.proceed i called rest).board = s.board.proceed i called rest := by
  unfold WatcherState.proceed Board.proceed board
  exact congrArg (Board.mk s.observers · _) (deliveries_setDelivery i _)

/-- What a step does on the board; only the named steps unsubscribe or abandon. -/
def Drives (steps : List (WatcherStep ω T)) (acts : List (Multicast.Act ω)) : Prop :=
  (∀ o, .unsubscribe o ∈ acts → .unsubscribe o ∈ steps) ∧
    ∀ i, .abandon i ∈ acts → .observerEnds i .cancelled ∈ steps

theorem drives_nil (steps : List (WatcherStep ω T)) : Drives steps [] := by
  constructor <;> simp

theorem Drives.append {steps later : List (WatcherStep ω T)} {acts acts' : List (Multicast.Act ω)}
    (h : Drives steps acts) (h' : Drives later acts') :
    Drives (steps ++ later) (acts ++ acts') := by
  constructor
  · intro o ho
    rcases List.mem_append.mp ho with ho | ho
    · exact List.mem_append_left _ (h.1 o ho)
    · exact List.mem_append_right _ (h'.1 o ho)
  · intro i hi
    rcases List.mem_append.mp hi with hi | hi
    · exact List.mem_append_left _ (h.2 i hi)
    · exact List.mem_append_right _ (h'.2 i hi)

section

variable [DecidableEq ω]

theorem board_beginNotify (loop : ℕ) : (s.beginNotify loop).board = s.board ∨
    ∃ i, (s.beginNotify loop).board = s.board.step (.pass i) := by
  unfold beginNotify
  split_ifs with hclosed
  · exact .inl rfl
  · split
    · exact .inl rfl
    · rename_i i hi
      right
      refine ⟨i, ?_⟩
      obtain ⟨hlt, hwaiting, -⟩ := List.findIdx?_eq_some_iff_getElem.mp hi
      have hget : s.notifications[i]? = some s.notifications[i] := List.getElem?_eq_getElem hlt
      have hdelivery : s.board.deliveries[i]? = some .waiting := by
        rw [getElem?_board hget]
        exact congrArg some (of_decide_eq_true hwaiting).2
      rw [board_proceed, Board.step, hdelivery]
      rfl

theorem board_observerEnds (i : ℕ) (result : ObserverEnd) :
    (s.observerEnds i result).board = s.board ∨
      (s.observerEnds i result).board = s.board.step (.pass i) ∨
      result = .cancelled ∧ (s.observerEnds i result).board = s.board.step (.abandon i) := by
  unfold observerEnds
  split
  · rename_i event loop called rest hget
    split_ifs with hclosed
    · exact .inl rfl
    · have hdelivery := getElem?_board hget
      have hpass : (s.proceed i called rest).board = s.board.step (.pass i) := by
        rw [board_proceed, Board.step, hdelivery]
      cases result with
      | returned => exact .inr (.inl hpass)
      | raised => exact .inr (.inl hpass)
      | cancelled =>
          right
          right
          refine ⟨rfl, ?_⟩
          rw [Board.step, hdelivery]
          exact congrArg (Board.mk s.observers · s.calls) (deliveries_setDelivery i _)
  · exact .inl rfl

theorem board_dispatch (thread : ℕ) : (s.dispatch thread).board = s.board ∨
    (s.dispatch thread).board = s.board.step .publish := by
  unfold dispatch
  split
  · split_ifs
    · exact .inl rfl
    · right
      simp [board, setPc, Board.step]
  · exact .inl rfl

variable [LinearOrder T] [Zero T] [Sub T] {flavour : Flavour} {debouncer : EventDebouncer T}

/-- A step of the watcher is at most one act on the board. -/
theorem board_step (a : WatcherStep ω T) :
    ∃ acts, Drives [a] acts ∧
      (s.step flavour debouncer a).board = acts.foldl Board.step s.board := by
  have hstill {t : WatcherState ω T} (h : t.board = s.board) :
      ∃ acts, Drives [a] acts ∧ t.board = acts.foldl Board.step s.board :=
    ⟨[], drives_nil _, h⟩
  have hact {t : WatcherState ω T} (act : Multicast.Act ω) (h : t.board = s.board.step act)
      (hact : Drives [a] [act]) :
      ∃ acts, Drives [a] acts ∧ t.board = acts.foldl Board.step s.board := ⟨[act], hact, h⟩
  cases a with
  | subscribe o implements =>
      by_cases himplements : implements = true
      · apply hact (.subscribe o) _ ⟨by simp, by simp⟩
        simp only [step, subscribe, himplements, if_true, Board.step, board]
        by_cases ho : o ∈ s.observers <;> simp [ho]
      · apply hstill
        simp [step, subscribe, himplements]
  | unsubscribe o => exact hact (.unsubscribe o) rfl ⟨by simp, by simp⟩
  | start loop valid =>
      apply hstill
      simp only [step, start]
      split_ifs <;> rfl
  | stop =>
      apply hstill
      simp only [step, stop]
      split <;> rfl
  | control fails =>
      apply hstill
      simp only [step, runControl]
      split <;> (try split_ifs) <;> rfl
  | rawEvent thread raw =>
      apply hstill
      simp only [step, rawEvent]
      split <;> rfl
  | readClock thread now =>
      apply hstill
      simp only [step, readClock]
      split <;> rfl
  | debounce thread =>
      apply hstill
      simp only [step, debounce]
      split <;> rfl
  | readLoop thread =>
      apply hstill
      simp only [step, readLoop]
      split
      · split
        · rfl
        · split_ifs <;> rfl
      · rfl
  | dispatch thread =>
      rcases board_dispatch (s := s) thread with h | h
      · exact hstill h
      · exact hact .publish h ⟨by simp, by simp⟩
  | threadEnds thread =>
      apply hstill
      simp only [step, threadEnds]
      split <;> rfl
  | closeLoop loop => exact hstill rfl
  | beginNotify loop =>
      rcases board_beginNotify (s := s) loop with h | ⟨i, h⟩
      · exact hstill h
      · exact hact _ h ⟨by simp, by simp⟩
  | observerEnds i result =>
      rcases board_observerEnds (s := s) i result with h | h | ⟨rfl, h⟩
      · exact hstill h
      · exact hact _ h ⟨by simp, by simp⟩
      · exact hact _ h ⟨by simp, by simp⟩

theorem board_run (steps : List (WatcherStep ω T)) :
    ∃ acts, Drives steps acts ∧
      (run flavour debouncer s steps).board = acts.foldl Board.step s.board := by
  induction steps generalizing s with
  | nil => exact ⟨[], drives_nil _, rfl⟩
  | cons a steps ih =>
      obtain ⟨acts, hdrives, hboard⟩ : ∃ acts, Drives [a] acts ∧
          (s.step flavour debouncer a).board = acts.foldl Board.step s.board := board_step a
      obtain ⟨later, hlater, hrun⟩ := ih (s := s.step flavour debouncer a)
      refine ⟨acts ++ later, hdrives.append hlater, ?_⟩
      rw [List.foldl_append, ← hboard]
      exact hrun

theorem sound_board (steps : List (WatcherStep ω T)) :
    (run flavour debouncer ({} : WatcherState ω T) steps).board.Sound := by
  obtain ⟨acts, -, hboard⟩ : ∃ acts, Drives steps acts ∧
      (run flavour debouncer {} steps).board =
        acts.foldl Board.step ({} : WatcherState ω T).board := board_run steps
  rw [hboard]
  exact Board.sound_empty.run acts

/-- A notification owes somebody a call: it is not yet there, or has still to call them. -/
def Owes (s : WatcherState ω T) (i : ℕ) (o : ω) : Bool :=
  (s.notifications[i]?).all fun n ↦ n.delivery.Awaits o

/-- Whoever stays subscribed is told once of every change that is handed to the loop, whatever
the other observers do: what a notification has called of them and has still to call is from
then on one, unless it had called them before, or it is cancelled. -/
theorem observers_told_once (flavour : Flavour) (debouncer : EventDebouncer T)
    (before after : List (WatcherStep ω T)) (o : ω) (i : ℕ) (n : Notification ω)
    (hsubscribed : o ∈ (run flavour debouncer {} before).observers)
    (hstays : .unsubscribe o ∉ after) (hcancelled : .observerEnds i .cancelled ∉ after)
    (hn : (run flavour debouncer {} (before ++ after)).notifications[i]? = some n) :
    ((run flavour debouncer {} (before ++ after)).calls.count (i, o) +
        (if n.delivery.Awaits o then 1 else 0) =
      (run flavour debouncer {} before).calls.count (i, o) +
        if (run flavour debouncer {} before).Owes i o then 1 else 0) ∧
    (run flavour debouncer {} (before ++ after)).calls.count (i, o) ≤ 1 := by
  have hafter : (run flavour debouncer {} (before ++ after)).board.Sound := sound_board _
  have hdelivery := getElem?_board hn
  obtain ⟨hnodup, htimes⟩ := hafter.called i _ hdelivery
  have hlength : i < (run flavour debouncer {} (before ++ after)).board.deliveries.length :=
    (List.getElem?_eq_some_iff.mp hdelivery).1
  have honce : (run flavour debouncer {} (before ++ after)).board.times i o ≤ 1 := by
    rw [htimes]
    exact List.nodup_iff_count_le_one.mp hnodup.of_append_left o
  refine ⟨?_, honce⟩
  have htally : (run flavour debouncer {} (before ++ after)).board.tally i o =
      (run flavour debouncer {} (before ++ after)).calls.count (i, o) +
        if n.delivery.Awaits o then 1 else 0 := by
    rw [Board.tally, Board.awaits_of_getElem? hdelivery]
    rfl
  have hbefore : (run flavour debouncer ({} : WatcherState ω T) before).board.Sound :=
    sound_board _
  rw [← htally]
  rw [run, List.foldl_append, ← run, ← run] at hlength ⊢
  obtain ⟨acts, hdrives, hboard⟩ : ∃ acts, Drives after acts ∧
      (run flavour debouncer (run flavour debouncer {} before) after).board =
        acts.foldl Board.step (run flavour debouncer {} before).board := board_run after
  rw [hboard] at hlength ⊢
  rw [Board.tally_run (fun h ↦ hstays (hdrives.1 o h)) (fun h ↦ hcancelled (hdrives.2 i h))
    hbefore hsubscribed hlength]
  unfold Owes
  cases hold : (run flavour debouncer ({} : WatcherState ω T) before).notifications[i]? with
  | some old =>
      have hget := getElem?_board hold
      rw [if_pos (List.getElem?_eq_some_iff.mp hget).1, Board.tally,
        Board.awaits_of_getElem? hget]
      rfl
  | none =>
      have hnone : (run flavour debouncer ({} : WatcherState ω T) before).board.deliveries.length
          ≤ i := by
        simpa [board] using hold
      have hzero : (run flavour debouncer {} before).calls.count (i, o) = 0 :=
        hbefore.fresh i hnone o
      rw [if_neg (by omega), hzero]
      rfl

/-- A window of five ticks. -/
def fiveTicks : EventDebouncer ℤ where
  windowSeconds := 5
  window_nonneg := by decide
  sub_self t := Int.sub_self t
  sub_mono h t := Int.sub_le_sub_right h t
  sub_anti h now := Int.sub_le_sub_left h now

/-- Two observers subscribe and the watcher is started. -/
def watching : List (WatcherStep ℕ ℤ) :=
  [.subscribe 1 true, .subscribe 2 true, .start 0 true, .control false, .control false,
    .control false]

/-- A file is created, and the first observer fails on it. -/
def fileCreated : List (WatcherStep ℕ ℤ) :=
  [.rawEvent 0 ⟨"created", "/a".toList, [], false⟩, .readClock 0 7, .debounce 0, .readLoop 0,
    .dispatch 0, .beginNotify 0, .unsubscribe 1, .observerEnds 0 .raised]

theorem observers_told_once_failing :
    ((run .posix fiveTicks {} (watching ++ fileCreated)).calls.count (0, 2) + 0 = 0 + 1) ∧
    (run .posix fiveTicks {} (watching ++ fileCreated)).calls.count (0, 2) ≤ 1 :=
  observers_told_once .posix fiveTicks watching fileCreated 2 0
    ⟨⟨.created, ⟨[], ['/'], ["a"]⟩, false, none, by decide⟩, 0, .passing [1, 2] []⟩
    (by decide) (by simp [fileCreated]) (by simp [fileCreated]) (by decide +kernel)

end

end WatcherState
end SecureSync
