import Mathlib.Data.List.Basic
import Mathlib.Logic.Function.Basic

/-!
# Torn writes

Whole files that are written one after the other, in place.  A crash leaves a prefix of each
file whose write has begun, and the others as they were.
-/

namespace TornWrites

variable {P α : Type} [DecidableEq P]

abbrev Files (P α : Type) := P → Option (List α)

def writeAll (files : Files P α) (writes : List (P × List α)) : Files P α :=
  writes.foldl (fun files write ↦ Function.update files write.1 (some write.2)) files

/-- `kept` says how much is left by each write that has begun. -/
def cutShort (files : Files P α) (writes : List (P × List α)) (kept : List ℕ) : Files P α :=
  writeAll files (writes.zipWith (fun write n ↦ (write.1, write.2.take n)) kept)

variable {files : Files P α} {writes : List (P × List α)} {kept : List ℕ} {p : P}

theorem writeAll_of_notMem (h : p ∉ writes.map Prod.fst) : writeAll files writes p = files p := by
  induction writes generalizing files with
  | nil => rfl
  | cons write writes ih =>
      rw [List.map_cons, List.mem_cons, not_or] at h
      rw [writeAll, List.foldl_cons, ← writeAll, ih h.2, Function.update_of_ne h.1]

/-- A file whose write has not begun is as it was. -/
theorem cutShort_of_notMem (h : p ∉ (writes.take kept.length).map Prod.fst) :
    cutShort files writes kept p = files p := by
  apply writeAll_of_notMem
  induction writes generalizing kept with
  | nil => simp
  | cons write writes ih =>
      cases kept with
      | nil => simp
      | cons n kept =>
          rw [List.length_cons, List.take_succ_cons, List.map_cons, List.mem_cons, not_or] at h
          rw [List.zipWith_cons_cons, List.map_cons, List.mem_cons, not_or]
          exact ⟨h.1, ih h.2⟩

end TornWrites
