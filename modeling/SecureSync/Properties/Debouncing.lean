import SecureSync.Infrastructure.EventDebouncer
import SecureSync.Library.Fading
import Mathlib.Algebra.Order.Ring.Rat
import Mathlib.Data.List.Induction
import Mathlib.Data.Set.Finite.Lattice
import Mathlib.Data.Set.Finite.List
import Mathlib.Logic.Function.Basic
import Mathlib.Tactic.NormNum

/-!
# Evicting and not evicting

`EventDebouncer` against a record of the last emission of every key, over every sequence of
calls.
-/

namespace SecureSync

open Fading KeyedTable

inductive DebounceCall (K T : Type) where
  | shouldEmit (key : K) (now : T)
  | reset
  deriving DecidableEq, Repr

def DebounceCall.time? {K T : Type} : DebounceCall K T → Option T
  | .shouldEmit _ now => some now
  | .reset => none

namespace EventDebouncer

variable {K T : Type} [DecidableEq K] [LinearOrder T] [Zero T] [Sub T]
  (debouncer : EventDebouncer T)

/-- The dictionary, and the answers that were given. -/
structure DebounceRun (K T : Type) where
  lastSeen : LastSeen K T
  answers : List Bool

def step (run : DebounceRun K T) : DebounceCall K T → DebounceRun K T
  | .shouldEmit key now =>
      let (emitted, lastSeen) := debouncer.shouldEmit key now run.lastSeen
      ⟨lastSeen, run.answers ++ [emitted]⟩
  | .reset => ⟨reset, run.answers⟩

def run (calls : List (DebounceCall K T)) : DebounceRun K T :=
  calls.foldl debouncer.step ⟨.empty, []⟩

/-- The clock does not go back. -/
def Ordered (calls : List (DebounceCall K T)) : Prop :=
  (calls.filterMap DebounceCall.time?).Pairwise (· ≤ ·)

/-! ## A record that is never evicted -/

/-- The last emission of every key, and the answers that were given. -/
structure Reference (K T : Type) where
  emitted : K → Option T
  answers : List Bool

/-- A key is emitted unless it was emitted within the window. -/
def referenceEmits (emitted : K → Option T) (key : K) (now : T) : Bool :=
  ¬ ∃ last ∈ emitted key, now - last < debouncer.windowSeconds

def referenceStep (reference : Reference K T) : DebounceCall K T → Reference K T
  | .shouldEmit key now =>
      let emits := debouncer.referenceEmits reference.emitted key now
      ⟨if emits then Function.update reference.emitted key (some now) else reference.emitted,
        reference.answers ++ [emits]⟩
  | .reset => ⟨fun _ ↦ none, reference.answers⟩

def reference (calls : List (DebounceCall K T)) : Reference K T :=
  calls.foldl debouncer.referenceStep ⟨fun _ ↦ none, []⟩

/-- An emission is remembered while it is younger than the window. -/
def memory : Memory T where
  Remembers now t := now - t < debouncer.windowSeconds
  decidable _ _ := inferInstance
  fade h hlater := (debouncer.sub_mono h _).trans_lt hlater
  newer h hnow := (debouncer.sub_anti h _).trans_lt hnow

/-! ## The dictionary and the record -/

/-- The dictionary has, in the order of time, what was emitted and is remembered. -/
structure Tracks (lastSeen : LastSeen K T) (emitted : K → Option T) (now : T) : Prop where
  sorted : lastSeen.items.Pairwise fun entry entry' ↦ entry.2 ≤ entry'.2
  emitted_eq : ∀ entry ∈ lastSeen.items, emitted entry.1 = some entry.2
  mem_of_remembers : ∀ key t, emitted key = some t → debouncer.memory.Remembers now t →
    (key, t) ∈ lastSeen.items
  le_now : ∀ entry ∈ lastSeen.items, entry.2 ≤ now

variable {debouncer} {lastSeen : LastSeen K T} {emitted : K → Option T} {now later : T} {key : K}

omit [DecidableEq K] in
theorem Tracks.mono (h : debouncer.Tracks lastSeen emitted now) (hlater : now ≤ later) :
    debouncer.Tracks lastSeen emitted later where
  sorted := h.sorted
  emitted_eq := h.emitted_eq
  mem_of_remembers key t hkey ht :=
    h.mem_of_remembers key t hkey (debouncer.memory.fade hlater ht)
  le_now entry hentry := (h.le_now entry hentry).trans hlater

omit [DecidableEq K] in
/-- Evicting from the front leaves what is younger than the window. -/
theorem Tracks.items_evictStale (h : debouncer.Tracks lastSeen emitted now) :
    (debouncer.evictStale now lastSeen).items =
      debouncer.memory.recent Prod.snd now lastSeen.items :=
  debouncer.memory.dropWhile_eq_recent h.sorted

omit [DecidableEq K] in
theorem Tracks.mem_evictStale (h : debouncer.Tracks lastSeen emitted now) {t : T} :
    (key, t) ∈ (debouncer.evictStale now lastSeen).items ↔
      emitted key = some t ∧ debouncer.memory.Remembers now t := by
  rw [h.items_evictStale, Memory.mem_recent]
  constructor
  · rintro ⟨hmem, hnow⟩
    exact ⟨h.emitted_eq _ hmem, hnow⟩
  · rintro ⟨hkey, hnow⟩
    exact ⟨h.mem_of_remembers key t hkey hnow, hnow⟩

omit [DecidableEq K] in
theorem Tracks.evictStale (h : debouncer.Tracks lastSeen emitted now) :
    debouncer.Tracks (debouncer.evictStale now lastSeen) emitted now where
  sorted := h.sorted.sublist (List.dropWhile_sublist _)
  emitted_eq _ hentry := (h.mem_evictStale.mp hentry).1
  mem_of_remembers _ _ hkey ht := h.mem_evictStale.mpr ⟨hkey, ht⟩
  le_now entry hentry := h.le_now entry ((List.dropWhile_sublist _).subset hentry)

/-- A key is suppressed where the record suppresses it. -/
theorem Tracks.suppressed_iff (h : debouncer.Tracks lastSeen emitted now) :
    ((debouncer.evictStale now lastSeen).find? key).any
        (fun entry ↦ now - entry.2 < debouncer.windowSeconds) =
      !debouncer.referenceEmits emitted key now := by
  rw [Bool.eq_iff_iff, Option.any_eq_true]
  simp only [referenceEmits, decide_not, Bool.not_not, decide_eq_true_eq]
  constructor
  · rintro ⟨⟨key', t⟩, hfind, hnow⟩
    obtain ⟨hmem, rfl⟩ := Table.find?_eq_some.mp hfind
    exact ⟨t, (h.mem_evictStale.mp hmem).1, hnow⟩
  · rintro ⟨t, ht, hnow⟩
    exact ⟨(key, t), Table.find?_eq_some.mpr ⟨h.mem_evictStale.mpr ⟨ht, hnow⟩, rfl⟩, hnow⟩

theorem Tracks.find?_evictStale (h : debouncer.Tracks lastSeen emitted now)
    (hemits : debouncer.referenceEmits emitted key now = true) :
    (debouncer.evictStale now lastSeen).find? key = none := by
  have hnot : ((debouncer.evictStale now lastSeen).find? key).any
      (fun entry ↦ now - entry.2 < debouncer.windowSeconds) =
        !debouncer.referenceEmits emitted key now := h.suppressed_iff
  rw [hemits, Bool.not_true, Option.any_eq_false] at hnot
  rw [Option.eq_none_iff_forall_ne_some]
  rintro ⟨key', t⟩ hfind
  obtain ⟨hmem, -⟩ := Table.find?_eq_some.mp hfind
  exact of_decide_eq_false (hnot _ hfind) (h.mem_evictStale.mp hmem).2

omit [LinearOrder T] [Zero T] [Sub T] in
theorem items_moveToEnd_set (h : lastSeen.find? key = none) :
    (moveToEnd key (lastSeen.set (key, now))).items = lastSeen.items ++ [(key, now)] := by
  have hfresh : ∀ entry ∈ lastSeen.items, entry.1 ≠ key := Table.find?_eq_none.mp h
  have hkept : (lastSeen.items.filter fun entry ↦ entry.1 ≠ key) = lastSeen.items :=
    List.filter_eq_self.mpr fun entry hentry ↦ decide_eq_true (hfresh entry hentry)
  have hnone : (lastSeen.items.filter fun entry ↦ entry.1 = key) = [] := by
    rw [List.filter_eq_nil_iff]
    exact fun entry hentry heq ↦ hfresh entry hentry (of_decide_eq_true heq)
  unfold moveToEnd
  dsimp only
  rw [Table.items_set_of_find? h, List.filter_append, List.filter_append, hkept, hnone]
  simp

/-- An emission is entered at the end, where it is the latest. -/
theorem Tracks.emit (h : debouncer.Tracks lastSeen emitted now)
    (hfresh : lastSeen.find? key = none) :
    debouncer.Tracks (moveToEnd key (lastSeen.set (key, now)))
      (Function.update emitted key (some now)) now := by
  have hitems : (moveToEnd key (lastSeen.set (key, now))).items =
      lastSeen.items ++ [(key, now)] := items_moveToEnd_set hfresh
  refine ⟨?_, ?_, ?_, ?_⟩ <;> rw [hitems]
  · rw [List.pairwise_append]
    refine ⟨h.sorted, List.pairwise_singleton _ _, fun entry hentry last hlast ↦ ?_⟩
    rw [List.mem_singleton.mp hlast]
    exact h.le_now entry hentry
  · intro entry hentry
    rcases List.mem_append.mp hentry with hentry | hentry
    · rw [Function.update_of_ne (Table.find?_eq_none.mp hfresh entry hentry)]
      exact h.emitted_eq entry hentry
    · rw [List.mem_singleton.mp hentry, Function.update_self]
  · intro other t hother ht
    by_cases hkey : other = key
    · subst hkey
      rw [Function.update_self] at hother
      simp [Option.some.inj hother]
    · rw [Function.update_of_ne hkey] at hother
      exact List.mem_append_left _ (h.mem_of_remembers other t hother ht)
  · intro entry hentry
    rcases List.mem_append.mp hentry with hentry | hentry
    · exact h.le_now entry hentry
    · rw [List.mem_singleton.mp hentry]

theorem Tracks.shouldEmit_eq (h : debouncer.Tracks lastSeen emitted now)
    (hwindow : 0 < debouncer.windowSeconds) :
    debouncer.shouldEmit key now lastSeen =
      if debouncer.referenceEmits emitted key now then
        (true, moveToEnd key ((debouncer.evictStale now lastSeen).set (key, now)))
      else (false, debouncer.evictStale now lastSeen) := by
  rw [shouldEmit, if_neg hwindow.ne']
  dsimp only
  rw [h.suppressed_iff]
  cases debouncer.referenceEmits emitted key now <;> rfl

/-- A call answers as the record does, and keeps only what is younger than the window. -/
theorem Tracks.shouldEmit (h : debouncer.Tracks lastSeen emitted now)
    (hwindow : 0 < debouncer.windowSeconds) (key : K) :
    (debouncer.shouldEmit key now lastSeen).1 = debouncer.referenceEmits emitted key now ∧
    debouncer.Tracks (debouncer.shouldEmit key now lastSeen).2
      (if debouncer.referenceEmits emitted key now then Function.update emitted key (some now)
        else emitted) now ∧
    ∀ entry ∈ (debouncer.shouldEmit key now lastSeen).2.items,
      debouncer.memory.Remembers now entry.2 := by
  have hyoung : ∀ entry ∈ (debouncer.evictStale now lastSeen).items,
      debouncer.memory.Remembers now entry.2 :=
    fun entry hentry ↦ (h.mem_evictStale.mp hentry).2
  rw [h.shouldEmit_eq hwindow]
  cases hemits : debouncer.referenceEmits emitted key now with
  | false => exact ⟨rfl, h.evictStale, hyoung⟩
  | true =>
      have hfresh := h.find?_evictStale hemits
      refine ⟨rfl, h.evictStale.emit hfresh, ?_⟩
      simp only [if_true, items_moveToEnd_set hfresh, List.forall_mem_append,
        List.forall_mem_singleton]
      refine ⟨hyoung, ?_⟩
      change now - now < debouncer.windowSeconds
      rwa [debouncer.sub_self]

/-! ## Runs -/

variable {calls : List (DebounceCall K T)}

omit [DecidableEq K] [Zero T] [Sub T] in
theorem ordered_concat {call : DebounceCall K T} :
    Ordered (calls ++ [call]) ↔ Ordered calls ∧
      ∀ t ∈ calls.filterMap DebounceCall.time?, ∀ now ∈ call.time?, t ≤ now := by
  unfold Ordered
  rw [List.filterMap_append, List.pairwise_append]
  cases call with
  | reset =>
      have hnone : ([.reset] : List (DebounceCall K T)).filterMap DebounceCall.time? = [] := rfl
      simp [hnone, DebounceCall.time?]
  | shouldEmit key now => simp [DebounceCall.time?]

theorem tracks_run (hwindow : 0 < debouncer.windowSeconds) (h : Ordered calls) :
    (debouncer.run calls).answers = (debouncer.reference calls).answers ∧
    ∀ now, (∀ t ∈ calls.filterMap DebounceCall.time?, t ≤ now) →
      debouncer.Tracks (debouncer.run calls).lastSeen (debouncer.reference calls).emitted now := by
  induction calls using List.reverseRecOn with
  | nil => exact ⟨rfl, fun now _ ↦ ⟨List.Pairwise.nil, by simp [run, Table.empty],
      by simp [reference], by simp [run, Table.empty]⟩⟩
  | append_singleton calls call ih =>
      obtain ⟨hcalls, hcall⟩ := ordered_concat.mp h
      obtain ⟨hanswers, htracks⟩ := ih hcalls
      have hrun : debouncer.run (calls ++ [call]) = debouncer.step (debouncer.run calls) call :=
        List.foldl_concat ..
      have hreference : debouncer.reference (calls ++ [call]) =
          debouncer.referenceStep (debouncer.reference calls) call := List.foldl_concat ..
      rw [hrun, hreference]
      cases call with
      | reset =>
          refine ⟨hanswers, fun now _ ↦ ⟨List.Pairwise.nil, ?_, ?_, ?_⟩⟩
          · simp [step, reset, Table.empty]
          · simp [referenceStep]
          · simp [step, reset, Table.empty]
      | shouldEmit key asked =>
          have hbefore := htracks asked fun t ht ↦ hcall t ht asked rfl
          obtain ⟨hanswer, hafter, -⟩ := hbefore.shouldEmit hwindow key
          refine ⟨?_, fun now hnow ↦ hafter.mono (hnow asked (by simp [DebounceCall.time?]))⟩
          change (debouncer.run calls).answers ++
            [(debouncer.shouldEmit key asked (debouncer.run calls).lastSeen).1] = _
          rw [hanswer, hanswers]
          rfl

/-- The answers are those of a record that is never evicted; what is kept is in the order of
emission; after a call it is exactly what the record has within the window, and after a
reset nothing. -/
theorem debounce_exact (debouncer : EventDebouncer T) (hwindow : 0 < debouncer.windowSeconds)
    (calls : List (DebounceCall K T)) (h : Ordered calls) :
    (debouncer.run calls).answers = (debouncer.reference calls).answers ∧
    ((debouncer.run calls).lastSeen.items.Pairwise fun entry entry' ↦ entry.2 ≤ entry'.2) ∧
    (∀ front key now, calls = front ++ [.shouldEmit key now] →
      ∀ entry, entry ∈ (debouncer.run calls).lastSeen.items ↔
        (debouncer.reference calls).emitted entry.1 = some entry.2 ∧
          now - entry.2 < debouncer.windowSeconds) ∧
    ∀ front, calls = front ++ [.reset] → (debouncer.run calls).lastSeen.items = [] := by
  obtain ⟨hanswers, htracks⟩ := tracks_run hwindow h
  refine ⟨hanswers, ?_, ?_, ?_⟩
  · have hnonempty : Nonempty T := ⟨0⟩
    obtain ⟨now, hnow⟩ := (List.finite_toSet (calls.filterMap DebounceCall.time?)).bddAbove
    exact (htracks now fun t ht ↦ hnow ht).sorted
  · rintro front key now rfl entry
    obtain ⟨hfront, hlast⟩ := ordered_concat.mp h
    have hbefore := (tracks_run hwindow hfront).2 now fun t ht ↦ hlast t ht now rfl
    have hafter := htracks now fun t ht ↦ by
      rw [List.filterMap_append, List.mem_append] at ht
      rcases ht with ht | ht
      · exact hlast t ht now rfl
      · have hlast : t ∈ [now] := ht
        exact (List.mem_singleton.mp hlast).le
    constructor
    · intro hentry
      refine ⟨hafter.emitted_eq entry hentry, ?_⟩
      rw [run, List.foldl_concat, ← run] at hentry
      exact (hbefore.shouldEmit hwindow key).2.2 entry hentry
    · rintro ⟨hemitted, hyoung⟩
      exact hafter.mem_of_remembers entry.1 entry.2 hemitted hyoung
  · rintro front rfl
    rw [run, List.foldl_concat]
    rfl

/-- Half a second. -/
def halfSecond : EventDebouncer ℚ where
  windowSeconds := 1 / 2
  window_nonneg := by norm_num
  sub_self t := by simp
  sub_mono h t := sub_le_sub_right h t
  sub_anti h now := sub_le_sub_left h now

/-- At the edge of the window a key is emitted again, and moves to the end. -/
theorem debounce_exact_edge :
    (halfSecond.run [.shouldEmit "a" 0, .shouldEmit "b" (1 / 4), .shouldEmit "a" (1 / 4),
      .shouldEmit "a" (1 / 2)]).answers = [true, true, false, true] ∧
    ∀ entry, entry ∈ (halfSecond.run [.shouldEmit "a" 0, .shouldEmit "b" (1 / 4),
      .shouldEmit "a" (1 / 4), .shouldEmit "a" (1 / 2)]).lastSeen.items ↔
        (halfSecond.reference [.shouldEmit "a" 0, .shouldEmit "b" (1 / 4),
          .shouldEmit "a" (1 / 4), .shouldEmit "a" (1 / 2)]).emitted entry.1 = some entry.2 ∧
            1 / 2 - entry.2 < 1 / 2 := by
  refine ⟨by decide +kernel, ?_⟩
  have hwindow : 0 < halfSecond.windowSeconds := by norm_num [halfSecond]
  have hordered : Ordered [.shouldEmit "a" (0 : ℚ), .shouldEmit "b" (1 / 4),
      .shouldEmit "a" (1 / 4), .shouldEmit "a" (1 / 2)] := by
    change [(0 : ℚ), 1 / 4, 1 / 4, 1 / 2].Pairwise (· ≤ ·)
    norm_num
  exact (halfSecond.debounce_exact hwindow _ hordered).2.2.1
    [.shouldEmit "a" 0, .shouldEmit "b" (1 / 4), .shouldEmit "a" (1 / 4)] "a" (1 / 2) rfl

end EventDebouncer
end SecureSync
