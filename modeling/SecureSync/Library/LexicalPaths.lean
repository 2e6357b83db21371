import Mathlib.Data.List.Basic

/-!
# Lexical paths

A path is a list of components, and one component stands for the parent.  A path
is normalised from left to right without a look at the disk.
-/

namespace LexicalPaths

variable {α : Type} [DecidableEq α]

/-- One more component after a normalised path.  The root is its own parent, and a
relative path keeps the parent references that lead out of it. -/
def push (parent : α) (rooted : Bool) (done : List α) (part : α) : List α :=
  if part = parent then
    match done.getLast? with
    | none => if rooted then [] else [part]
    | some last => if last = parent then done ++ [part] else done.dropLast
  else done ++ [part]

def collapse (parent : α) (rooted : Bool) (parts : List α) : List α :=
  parts.foldl (push parent rooted) []

variable {parent : α} {rooted : Bool} {parts later : List α}

theorem foldl_push_of_notMem (done : List α) (h : parent ∉ parts) :
    parts.foldl (push parent rooted) done = done ++ parts := by
  induction parts generalizing done with
  | nil => exact (List.append_nil done).symm
  | cons part parts ih =>
      obtain ⟨hpart, hparts⟩ := not_or.mp (mt List.mem_cons.mpr h)
      rw [List.foldl_cons, push, if_neg (Ne.symm hpart), ih _ hparts, List.append_assoc]
      rfl

theorem collapse_of_notMem (h : parent ∉ parts) : collapse parent rooted parts = parts := by
  rw [collapse, foldl_push_of_notMem [] h, List.nil_append]

/-- Without parent references a path stays below the one that it is appended to. -/
theorem collapse_append_of_notMem (h : parent ∉ later) :
    collapse parent rooted (parts ++ later) = collapse parent rooted parts ++ later := by
  rw [collapse, List.foldl_append, foldl_push_of_notMem _ h]
  rfl

end LexicalPaths
