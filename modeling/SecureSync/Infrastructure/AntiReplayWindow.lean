import SecureSync.Library.SlidingWindow
import Mathlib.Data.List.Basic

/-!
# The anti-replay window

`AntiReplayWindow` of `replay_protection.py`: a byte array of marks that slides
with the highest accepted counter.  It answers as the window that remembers
every counter does.
-/

namespace SecureSync

open SlidingWindow

/-- A `bytearray`; an index beyond its end is never used. -/
abbrev Marks := List ℕ

/-- `bits[slot >> 3] & (1 << (slot & 7))`. -/
def Marks.isSet (bits : Marks) (slot : ℕ) : Bool := (bits.getD (slot / 8) 0).testBit (slot % 8)

/-- `bits[slot >> 3] |= 1 << (slot & 7)`. -/
def Marks.mark (bits : Marks) (slot : ℕ) : Marks :=
  bits.modify (slot / 8) fun byte ↦ byte ||| 1 <<< (slot % 8)

def Marks.clear (length : ℕ) : Marks := List.replicate length 0

structure AntiReplayWindow where
  window : ℕ
  bits : Marks
  highest : ℤ
  base : ℤ
  deriving DecidableEq, Repr

namespace AntiReplayWindow

def defaultSize : ℕ := 128

/-- `AntiReplayWindow(window_size)`, for a positive size. -/
def make (windowSize : ℕ) : AntiReplayWindow where
  window := windowSize
  bits := .clear ((2 * windowSize + 1 + 7) / 8)
  highest := 0
  base := 1 - windowSize

def slots (w : AntiReplayWindow) : ℕ := 2 * w.window + 1

def slot (w : AntiReplayWindow) (counter : ℤ) : ℤ := counter - w.base

def wouldAccept (w : AntiReplayWindow) (counter : ℤ) : Bool :=
  if counter ≤ 0 then false
  else if w.highest + w.window < counter then false
  else if counter < w.highest - w.window + 1 then false
  else if w.slot counter < 0 ∨ w.slots ≤ w.slot counter then false
  else !w.bits.isSet (w.slot counter).toNat

/-- One round of the loop of `_slide`: the mark at slot `i` moves down by `delta`. -/
def moveMark (old : Marks) (delta total : ℕ) (new : Marks) (i : ℕ) : Marks :=
  if old.isSet i then
    if delta ≤ i ∧ i - delta < total then new.mark (i - delta) else new
  else new

/-- `_slide`. -/
def slide (w : AntiReplayWindow) (newBase : ℤ) : AntiReplayWindow :=
  if newBase - w.base ≤ 0 then { w with base := newBase }
  else { w with
    bits := (List.range w.slots).foldl (moveMark w.bits (newBase - w.base).toNat w.slots)
      (.clear w.bits.length)
    base := newBase }

/-- `accept` when `would_accept` holds. -/
def advance (w : AntiReplayWindow) (counter : ℤ) : AntiReplayWindow :=
  let w := if w.highest < counter then
      { w.slide (counter - w.window + 1) with highest := counter }
    else w
  { w with bits := w.bits.mark (w.slot counter).toNat }

/-- `accept`, with the state it leaves. -/
def accept (w : AntiReplayWindow) (counter : ℤ) : Bool × AntiReplayWindow :=
  if w.wouldAccept counter then (true, w.advance counter) else (false, w)

end AntiReplayWindow

/-! ## Marks -/

theorem Marks.length_mark (bits : Marks) (slot : ℕ) : (bits.mark slot).length = bits.length := by
  simp [mark]

theorem Marks.isSet_mark {bits : Marks} {slot : ℕ} (h : slot / 8 < bits.length) (i : ℕ) :
    (bits.mark slot).isSet i = (decide (i = slot) || bits.isSet i) := by
  simp only [isSet, mark, List.getD_eq_getElem?_getD, List.getElem?_modify]
  by_cases hbyte : slot / 8 = i / 8
  · have hi : i / 8 < bits.length := hbyte ▸ h
    have hsame : decide (slot % 8 = i % 8) = decide (i = slot) := by
      rw [decide_eq_decide]
      omega
    rw [List.getElem?_eq_getElem hi]
    simp only [Option.map_eq_map, Option.map_some, Option.getD_some, if_pos hbyte, Nat.testBit_or,
      Nat.one_shiftLeft, Nat.testBit_two_pow, hsame]
    exact Bool.or_comm _ _
  · have hne : i ≠ slot := by
      rintro rfl
      exact hbyte rfl
    simp [hbyte, hne]

theorem Marks.isSet_clear (length i : ℕ) : (clear length).isSet i = false := by
  rw [isSet, clear, List.getD_eq_getElem?_getD, List.getElem?_replicate]
  split_ifs <;> simp

namespace AntiReplayWindow

/-! ## Sliding -/

theorem length_moveMark (old : Marks) (delta total : ℕ) (new : Marks) (i : ℕ) :
    (moveMark old delta total new i).length = new.length := by
  unfold moveMark
  split_ifs
  · exact new.length_mark _
  · rfl
  · rfl

/-- After `n` rounds, the marks below `n` have moved. -/
theorem isSet_foldl_moveMark {old new : Marks} {delta total : ℕ}
    (hclear : ∀ j, new.isSet j = false) (hlength : (total + 7) / 8 ≤ new.length) (n j : ℕ) :
    ((List.range n).foldl (moveMark old delta total) new).isSet j =
      (decide (j < total ∧ j + delta < n) && old.isSet (j + delta)) ∧
    ((List.range n).foldl (moveMark old delta total) new).length = new.length := by
  induction n with
  | zero => simp [hclear]
  | succ n ih =>
      rw [List.range_succ, List.foldl_append, List.foldl_cons, List.foldl_nil]
      generalize (List.range n).foldl (moveMark old delta total) new = moved at ih ⊢
      obtain ⟨ih, hmoved⟩ := ih
      refine ⟨?_, (length_moveMark ..).trans hmoved⟩
      -- only the mark at `n`, which goes to `n - delta`, tells the two rounds apart
      have hother (hne : j + delta ≠ n) :
          decide (j < total ∧ j + delta < n + 1) = decide (j < total ∧ j + delta < n) := by
        rw [decide_eq_decide]
        omega
      unfold moveMark
      split_ifs with hset hfits
      · rw [Marks.isSet_mark (by omega), ih]
        by_cases hj : j + delta = n
        · have hjn : j = n - delta := by omega
          have hfit : decide (j < total ∧ j + delta < n + 1) = true := by
            rw [decide_eq_true_iff]
            omega
          rw [hfit, hj, hset, decide_eq_true hjn]
          rfl
        · have hjn : j ≠ n - delta := by omega
          rw [hother hj, decide_eq_false hjn, Bool.false_or]
      · rw [ih]
        by_cases hj : j + delta = n
        · have hjt : ¬ j < total := by omega
          simp [hjt]
        · rw [hother hj]
      · rw [ih]
        by_cases hj : j + delta = n
        · simp [hj, hset]
        · rw [hother hj]

/-! ## The window that remembers everything -/

/-- The marks are those of the counters that `a` has seen, as far as they reach. -/
structure Tracks (w : AntiReplayWindow) (a : Window) : Prop where
  size_eq : a.size = w.window
  window_pos : 0 < w.window
  highest_eq : a.highest = w.highest
  base_eq : w.base = w.highest - w.window + 1
  length_bits : w.bits.length = (w.slots + 7) / 8
  isSet_iff : ∀ s < w.slots, w.bits.isSet s = true ↔ w.base + s ∈ a.seen

theorem tracks_make {windowSize : ℕ} (h : 0 < windowSize) :
    (make windowSize).Tracks (SlidingWindow.empty windowSize) where
  size_eq := rfl
  window_pos := h
  highest_eq := rfl
  base_eq := by
    simp only [make]
    omega
  length_bits := List.length_replicate
  isSet_iff s _ := by simp [make, Marks.isSet_clear, SlidingWindow.empty]

variable {w : AntiReplayWindow} {a : Window} {c : ℤ}

theorem Tracks.wouldAccept_iff (h : w.Tracks a) : w.wouldAccept c = true ↔ a.Admits c := by
  have hbase := h.base_eq
  unfold wouldAccept Window.Admits
  rw [h.highest_eq, h.size_eq]
  split_ifs with hpos hahead hold hslot
  · simp [hpos]
  · simp [hahead]
  · simp; omega
  · simp only [slot, slots] at hslot
    omega
  · simp only [slot, slots, not_or, not_lt, not_le] at hslot
    have hmark := h.isSet_iff (w.slot c).toNat (by simp only [slot, slots]; omega)
    have hcounter : w.base + ((w.slot c).toNat : ℤ) = c := by
      rw [slot]
      omega
    rw [hcounter] at hmark
    rw [Bool.not_eq_true', Bool.eq_false_iff, ne_eq, hmark]
    constructor
    · intro hnew
      exact ⟨by omega, by omega, by omega, hnew⟩
    · exact fun hadmits ↦ hadmits.2.2.2

theorem Tracks.slide (h : w.Tracks a) (hahead : w.highest < c) :
    (w.slide (c - w.window + 1)).bits.length = (w.slots + 7) / 8 ∧
      ∀ s < w.slots, (w.slide (c - w.window + 1)).bits.isSet s = true ↔
        c - w.window + 1 + s ∈ a.seen := by
  have hbase := h.base_eq
  have hdelta : ¬ c - w.window + 1 - w.base ≤ 0 := by omega
  have hlength : (w.slots + 7) / 8 ≤ (Marks.clear w.bits.length).length := by
    rw [Marks.clear, List.length_replicate, h.length_bits]
  have hmoved := fun s ↦ @isSet_foldl_moveMark w.bits (.clear w.bits.length)
    (c - w.window + 1 - w.base).toNat w.slots (Marks.isSet_clear _) hlength w.slots s
  rw [AntiReplayWindow.slide, if_neg hdelta]
  constructor
  · rw [(hmoved 0).2, Marks.clear, List.length_replicate, h.length_bits]
  · intro s hs
    rw [(hmoved s).1]
    generalize hn : s + (c - w.window + 1 - w.base).toNat = n
    have hcounter : c - w.window + 1 + s = w.base + n := by omega
    by_cases hin : n < w.slots
    · rw [decide_eq_true ⟨hs, hin⟩, Bool.true_and, h.isSet_iff n hin, hcounter]
    · -- beyond the old marks there is nothing, as nothing above the highest was seen
      have hbound := h.highest_eq ▸ a.le_highest (w.base + n)
      rw [decide_eq_false (fun hboth ↦ hin hboth.2), Bool.false_and, hcounter]
      simp only [Bool.false_eq_true, false_iff]
      intro hseen
      have hle := hbound hseen
      simp only [slots] at hin
      omega

theorem isSet_mark_slot {seen : Finset ℤ} (hlength : w.bits.length = (w.slots + 7) / 8)
    (hset : ∀ s < w.slots, w.bits.isSet s = true ↔ w.base + s ∈ seen) (hlow : w.base ≤ c)
    (hhigh : c < w.base + w.slots) (s : ℕ) (hs : s < w.slots) :
    (w.bits.mark (w.slot c).toNat).isSet s = true ↔ w.base + s ∈ insert c seen := by
  have hslot : (w.slot c).toNat / 8 < w.bits.length := by
    rw [hlength, slot]
    omega
  have hsame : s = (w.slot c).toNat ↔ w.base + s = c := by
    rw [slot]
    omega
  rw [Marks.isSet_mark hslot, Bool.or_eq_true, decide_eq_true_iff, hset s hs, hsame,
    Finset.mem_insert]

theorem Tracks.advance (h : w.Tracks a) (hadmits : a.Admits c) :
    (w.advance c).Tracks (a.record c) := by
  have hbase := h.base_eq
  have hpos := h.window_pos
  obtain ⟨hc, hhigh, hlow, hnew⟩ := hadmits
  rw [h.highest_eq, h.size_eq] at hhigh hlow
  have hmax : max a.highest c = if w.highest < c then c else w.highest := by
    rw [h.highest_eq, max_def]
    split_ifs <;> omega
  unfold AntiReplayWindow.advance
  split_ifs with hahead
  · obtain ⟨hlength, hset⟩ := h.slide hahead
    have hwindow : (w.slide (c - w.window + 1)).window = w.window := by
      unfold AntiReplayWindow.slide
      split_ifs <;> rfl
    have hnewBase : (w.slide (c - w.window + 1)).base = c - w.window + 1 := by
      unfold AntiReplayWindow.slide
      split_ifs <;> rfl
    generalize w.slide (c - w.window + 1) = slid at hlength hset hwindow hnewBase ⊢
    have hslots : slid.slots = w.slots := by rw [slots, slots, hwindow]
    rw [← hslots] at hlength hset
    rw [← hnewBase] at hset
    refine ⟨by rw [Window.record_size, h.size_eq, hwindow], by rw [hwindow]; exact hpos,
      by rw [Window.record_highest, hmax, if_pos hahead], by rw [hnewBase, hwindow],
      (Marks.length_mark ..).trans hlength, ?_⟩
    exact isSet_mark_slot hlength hset (by omega) (by simp only [slots]; omega)
  · refine ⟨h.size_eq, hpos, by rw [Window.record_highest, hmax, if_neg hahead], hbase,
      (Marks.length_mark ..).trans h.length_bits, ?_⟩
    exact isSet_mark_slot h.length_bits h.isSet_iff (by omega) (by simp only [slots]; omega)

end AntiReplayWindow
end SecureSync
