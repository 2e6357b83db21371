import Mathlib.Data.Option.Basic
import Mathlib.Tactic.SplitIfs

/-!
# A connection to a database

The committed state, and the state that the connection works on while it has a
transaction open.
-/

namespace Transactions

variable {D : Type}

structure Connection (D : Type) where
  committed : D
  working : Option D

namespace Connection

variable (c : Connection D) (f : D → Option D)

/-- What the connection itself reads. -/
def view : D := c.working.getD c.committed

def begin? : Option (Connection D) :=
  if c.working.isSome then none else some { c with working := some c.committed }

/-- A statement that changes data; it opens a transaction if there is none, and may be
refused. -/
def write? : Option (Connection D) := (f c.view).map fun d ↦ { c with working := some d }

def commit : Connection D := ⟨c.view, none⟩

def rollback : Connection D := ⟨c.committed, none⟩

@[simp] theorem view_commit : c.commit.view = c.view := rfl

@[simp] theorem committed_commit : c.commit.committed = c.view := rfl

@[simp] theorem view_rollback : c.rollback.view = c.committed := rfl

variable {c f} {c' : Connection D}

theorem write?_eq_some :
    c.write? f = some c' ↔ ∃ d, f c.view = some d ∧ c' = ⟨c.committed, some d⟩ := by
  rw [write?, Option.map_eq_some_iff]
  exact exists_congr fun d ↦ and_congr_right fun _ ↦ eq_comm

theorem view_begin? (h : c.begin? = some c') :
    c'.view = c.committed ∧ c'.committed = c.committed ∧ c.view = c.committed := by
  unfold begin? at h
  split_ifs at h with hopen
  cases h
  refine ⟨rfl, rfl, ?_⟩
  rw [view, Option.not_isSome_iff_eq_none.mp hopen]
  rfl

end Connection
end Transactions
