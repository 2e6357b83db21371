import SecureSync.Infrastructure.AntiReplayWindow
import SecureSync.Library.Machines

/-!
# What the anti-replay window answers

Over any run of `accept` and `would_accept`, the marks answer as the set of all
accepted counters does, and no slot outside of them is used.
-/

namespace SecureSync

open SlidingWindow Machines

inductive WindowCall where
  | accept (counter : ℤ)
  | wouldAccept (counter : ℤ)
  deriving DecidableEq

/-- The counters for which `accept` has answered `True`. -/
def acceptedIn : List WindowCall → List Bool → List ℤ
  | .accept c :: calls, true :: answers => c :: acceptedIn calls answers
  | _ :: calls, _ :: answers => acceptedIn calls answers
  | _, _ => []

namespace AntiReplayWindow

variable {w : AntiReplayWindow} {a : Window} {c : ℤ}

def answer (w : AntiReplayWindow) : WindowCall → Bool × AntiReplayWindow
  | .accept c => w.accept c
  | .wouldAccept c => (w.wouldAccept c, w)

/-- The same for the window that remembers every counter. -/
def reference (a : Window) : WindowCall → Bool × Window
  | .accept c => if a.Admits c then (true, a.record c) else (false, a)
  | .wouldAccept c => (decide (a.Admits c), a)

theorem Tracks.answer (h : w.Tracks a) (call : WindowCall) :
    (w.answer call).1 = (reference a call).1 ∧ (w.answer call).2.Tracks (reference a call).2 := by
  cases call with
  | accept c =>
      simp only [AntiReplayWindow.answer, accept, reference]
      by_cases hadmits : a.Admits c
      · rw [if_pos (h.wouldAccept_iff.mpr hadmits), if_pos hadmits]
        exact ⟨rfl, h.advance hadmits⟩
      · rw [if_neg fun hw ↦ hadmits (h.wouldAccept_iff.mp hw), if_neg hadmits]
        exact ⟨rfl, h⟩
  | wouldAccept c =>
      refine ⟨?_, h⟩
      rw [Bool.eq_iff_iff]
      exact h.wouldAccept_iff.trans decide_eq_true_iff.symm

/-! ## The counters that were accepted -/

/-- The reference sees what it accepts, and accepts nothing that it has seen. -/
theorem seen_run (a : Window) (calls : List WindowCall) :
    (acceptedIn calls (run reference a calls).1).Nodup ∧
      (∀ c ∈ acceptedIn calls (run reference a calls).1, c ∉ a.seen) ∧
        ∀ c, c ∈ (run reference a calls).2.seen ↔
          c ∈ a.seen ∨ c ∈ acceptedIn calls (run reference a calls).1 := by
  induction calls generalizing a with
  | nil => simp [acceptedIn]
  | cons call calls ih =>
      cases call with
      | wouldAccept c => exact ih a
      | accept c =>
          by_cases hadmits : a.Admits c
          · have hreference : reference a (.accept c) = (true, a.record c) := if_pos hadmits
            obtain ⟨hnodup, hfresh, hseen⟩ := ih (a.record c)
            simp only [run_cons, hreference, acceptedIn]
            refine ⟨List.nodup_cons.mpr ⟨fun hc ↦ ?_, hnodup⟩, ?_, ?_⟩
            · apply hfresh c hc
              exact (a.mem_record_seen c).mpr (.inl rfl)
            · intro d hd hmem
              rcases List.mem_cons.mp hd with rfl | hd
              · exact Window.not_admits_of_mem hmem hadmits
              · apply hfresh d hd
                exact (a.mem_record_seen c).mpr (.inr hmem)
            · intro d
              rw [hseen d, Window.mem_record_seen, List.mem_cons]
              tauto
          · have hreference : reference a (.accept c) = (false, a) := if_neg hadmits
            simp only [run_cons, hreference, acceptedIn]
            exact ih a

theorem size_reference (a : Window) (call : WindowCall) : (reference a call).2.size = a.size := by
  cases call with
  | accept c =>
      unfold reference
      dsimp only
      split_ifs <;> rfl
  | wouldAccept c => rfl

/-- The highest of the accepted counters, from zero. -/
def highestOf (counters : List ℤ) : ℤ := counters.foldr max 0

theorem highestOf_nonneg (counters : List ℤ) : 0 ≤ highestOf counters := by
  induction counters with
  | nil => exact le_rfl
  | cons c counters ih => exact le_max_of_le_right ih

theorem le_highestOf {counters : List ℤ} (h : c ∈ counters) : c ≤ highestOf counters := by
  induction counters with
  | nil => cases h
  | cons d counters ih =>
      rcases List.mem_cons.mp h with rfl | h
      · exact le_max_left _ _
      · exact le_max_of_le_right (ih h)

theorem highestOf_mem (counters : List ℤ) :
    highestOf counters = 0 ∨ highestOf counters ∈ counters := by
  induction counters with
  | nil => exact .inl rfl
  | cons d counters ih =>
      rw [highestOf, List.foldr_cons]
      rcases le_total d (counters.foldr max 0) with hle | hle
      · rw [max_eq_right hle]
        exact ih.imp_right (List.mem_cons_of_mem d)
      · rw [max_eq_left hle]
        exact .inr List.mem_cons_self

/-- A window's highest counter is that of the counters it has seen. -/
theorem highest_eq_highestOf {counters : List ℤ} (h : ∀ c, c ∈ a.seen ↔ c ∈ counters) :
    a.highest = highestOf counters := by
  apply le_antisymm
  · rcases a.highest_mem with hzero | hmem
    · rw [hzero]
      exact highestOf_nonneg counters
    · exact le_highestOf ((h _).mp hmem)
  · rcases highestOf_mem counters with hzero | hmem
    · rw [hzero]
      exact a.highest_nonneg
    · exact a.le_highest _ ((h _).mpr hmem)

/-! ## Runs -/

/-- The window of a given size after a run of calls. -/
def after (size : ℕ) (calls : List WindowCall) : AntiReplayWindow :=
  (run answer (make size) calls).2

/-- The counters that a run of calls has accepted. -/
def acceptedBy (size : ℕ) (calls : List WindowCall) : List ℤ :=
  acceptedIn calls (run answer (make size) calls).1

variable {size : ℕ}

theorem run_answer (h : 0 < size) (calls : List WindowCall) :
    (run answer (make size) calls).1 = (run reference (SlidingWindow.empty size) calls).1 ∧
      (after size calls).Tracks (run reference (SlidingWindow.empty size) calls).2 :=
  run_simulates (fun _ _ call htracks ↦ htracks.answer call) (tracks_make h) calls

theorem window_after (h : 0 < size) (calls : List WindowCall) :
    (after size calls).window = size := by
  rw [← (run_answer h calls).2.size_eq]
  have hstep (a : Window) (call : WindowCall) (ha : a.size = size) :
      (reference a call).2.size = size := (size_reference a call).trans ha
  exact @run_induction _ _ _ reference (fun a ↦ a.size = size) hstep _ rfl calls

theorem seen_after (h : 0 < size) (calls : List WindowCall) :
    (acceptedBy size calls).Nodup ∧
      ∀ c, c ∈ (run reference (SlidingWindow.empty size) calls).2.seen ↔
        c ∈ acceptedBy size calls := by
  obtain ⟨hnodup, -, hseen⟩ := seen_run (SlidingWindow.empty size) calls
  rw [acceptedBy, (run_answer h calls).1]
  refine ⟨hnodup, fun c ↦ ?_⟩
  rw [hseen c]
  exact or_iff_right (Finset.notMem_empty c)

theorem highest_after (h : 0 < size) (calls : List WindowCall) :
    (after size calls).highest = highestOf (acceptedBy size calls) := by
  rw [← (run_answer h calls).2.highest_eq]
  exact highest_eq_highestOf (seen_after h calls).2

/-! ## The slots that a call uses -/

/-- The slot of a counter that passes the checks against the highest. -/
def slotsTested (w : AntiReplayWindow) (c : ℤ) : List ℤ :=
  if 0 < c ∧ c ≤ w.highest + w.window ∧ w.highest - w.window + 1 ≤ c then [w.slot c] else []

/-- The slots that `_slide` reads, and those to which it moves a mark. -/
def slotsMoved (w : AntiReplayWindow) (newBase : ℤ) : List ℤ :=
  if newBase - w.base ≤ 0 then []
  else (List.range w.slots).flatMap fun i ↦
    if w.bits.isSet i ∧ 0 ≤ i - (newBase - w.base) ∧ i - (newBase - w.base) < w.slots then
      [(i : ℤ), i - (newBase - w.base)]
    else [(i : ℤ)]

def slotsUsed (w : AntiReplayWindow) : WindowCall → List ℤ
  | .wouldAccept c => w.slotsTested c
  | .accept c =>
      if w.wouldAccept c then
        w.slotsTested c ++
          ((if w.highest < c then w.slotsMoved (c - w.window + 1) else []) ++
            [(w.advance c).slot c])
      else w.slotsTested c

theorem mem_slotsTested (hbase : w.base = w.highest - w.window + 1) {s : ℤ}
    (hs : s ∈ w.slotsTested c) : 0 ≤ s ∧ s < w.slots := by
  unfold slotsTested at hs
  split_ifs at hs with hband
  · rw [List.mem_singleton] at hs
    rw [hs, slot, slots]
    omega
  · cases hs

theorem mem_slotsMoved {newBase s : ℤ} (hs : s ∈ w.slotsMoved newBase) : 0 ≤ s ∧ s < w.slots := by
  unfold slotsMoved at hs
  split_ifs at hs
  · cases hs
  · obtain ⟨i, hi, hs⟩ := List.mem_flatMap.mp hs
    have hlt := List.mem_range.mp hi
    split_ifs at hs with hfits
    · simp only [List.mem_cons, List.not_mem_nil, or_false] at hs
      omega
    · rw [List.mem_singleton] at hs
      omega

/-- The slot that `accept` sets, after it has slid the marks. -/
theorem Tracks.slot_advance (h : w.Tracks a) (hadmits : a.Admits c) :
    0 ≤ (w.advance c).slot c ∧ (w.advance c).slot c < w.slots := by
  have hadvance := h.advance hadmits
  have hbase := hadvance.base_eq
  have hhighest := hadvance.highest_eq
  have hwindow := hadvance.size_eq
  rw [Window.record_highest] at hhighest
  rw [Window.record_size, h.size_eq] at hwindow
  obtain ⟨hpos, hhigh, hlow, -⟩ := hadmits
  rw [h.size_eq] at hhigh hlow
  rw [slot, slots]
  omega

theorem Tracks.mem_slotsUsed (h : w.Tracks a) (call : WindowCall) {s : ℤ}
    (hs : s ∈ w.slotsUsed call) : 0 ≤ s ∧ s < w.slots := by
  cases call with
  | wouldAccept c => exact mem_slotsTested h.base_eq hs
  | accept c =>
      unfold slotsUsed at hs
      dsimp only at hs
      by_cases haccept : w.wouldAccept c = true
      · rw [if_pos haccept] at hs
        rcases List.mem_append.mp hs with hs | hs
        · exact mem_slotsTested h.base_eq hs
        · rcases List.mem_append.mp hs with hs | hs
          · split_ifs at hs
            · exact mem_slotsMoved hs
            · cases hs
          · rw [List.mem_singleton.mp hs]
            exact h.slot_advance (h.wouldAccept_iff.mp haccept)
      · rw [if_neg haccept] at hs
        exact mem_slotsTested h.base_eq hs

/-- The marks stand for the set of accepted counters, and every slot that a call
uses is one of them. -/
theorem answers_eq_reference (h : 0 < size) (calls : List WindowCall) :
    (run answer (make size) calls).1 = (run reference (SlidingWindow.empty size) calls).1 ∧
      (acceptedBy size calls).Nodup ∧
        (after size calls).base = (after size calls).highest - size + 1 ∧
          (∀ c, ((after size calls).accept c).1 = true ↔
            0 < c ∧ highestOf (acceptedBy size calls) - size + 1 ≤ c ∧
              c ≤ highestOf (acceptedBy size calls) + size ∧ c ∉ acceptedBy size calls) ∧
            (∀ c, (after size calls).answer (.wouldAccept c) =
              (((after size calls).accept c).1, after size calls)) ∧
              ∀ call, ∀ s ∈ (after size calls).slotsUsed call,
                (0 ≤ s ∧ s ≤ 2 * size) ∧ s / 8 < (after size calls).bits.length := by
  obtain ⟨hanswers, htracks⟩ := run_answer h calls
  obtain ⟨hnodup, hseen⟩ := seen_after h calls
  have hwindow := window_after h calls
  have haccept (c : ℤ) : ((after size calls).accept c).1 = (after size calls).wouldAccept c := by
    unfold accept
    split_ifs with hc <;> simp [hc]
  refine ⟨hanswers, hnodup, ?_, fun c ↦ ?_, fun c ↦ ?_, fun call s hs ↦ ?_⟩
  · rw [htracks.base_eq, hwindow]
  · rw [haccept c, htracks.wouldAccept_iff, Window.Admits, htracks.highest_eq, htracks.size_eq,
      hwindow, highest_after h, hseen c]
    constructor
    · rintro ⟨hpos, hhigh, hlow, hnew⟩
      exact ⟨hpos, by omega, hhigh, hnew⟩
    · rintro ⟨hpos, hlow, hhigh, hnew⟩
      exact ⟨hpos, hhigh, by omega, hnew⟩
  · rw [haccept c]
    rfl
  · obtain ⟨hlow, hhigh⟩ := htracks.mem_slotsUsed call hs
    have hlength := htracks.length_bits
    rw [slots, hwindow] at hhigh hlength
    rw [hlength]
    omega

/-- A window of two: a gap slides it past a counter that is then too old. -/
theorem answers_eq_reference_two :
    acceptedBy 2 [.accept 2, .accept 1, .accept 2, .accept 4, .wouldAccept 6, .accept 2] =
        [2, 1, 4] ∧
      ((after 2 [.accept 2, .accept 1, .accept 2, .accept 4, .wouldAccept 6]).accept 3).1 =
        true := by
  refine ⟨by decide, ?_⟩
  apply ((answers_eq_reference (by decide) _).2.2.2.1 3).mpr
  decide

end AntiReplayWindow
end SecureSync
