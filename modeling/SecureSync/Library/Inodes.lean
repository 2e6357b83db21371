import SecureSync.Library.Overlay
import Mathlib.Logic.Function.Basic
import Mathlib.Order.MinMax

/-!
# Files behind names

A file system in which each file has one name at most.  A file that is open stays what it is
when its name goes to another file.
-/

namespace Inodes

variable {P α : Type}

/-- The files that names stand for, and what is in them; files from `next` on are unused. -/
structure FileSystem (P α : Type) where
  names : P → Option ℕ
  contents : ℕ → List α
  next : ℕ
  inj : ∀ {p q : P} {n : ℕ}, names p = some n → names q = some n → p = q
  lt_next : ∀ {p : P} {n : ℕ}, names p = some n → n < next

namespace FileSystem

variable (fs : FileSystem P α)

def read (p : P) : Option (List α) := (fs.names p).map fs.contents

/-- The file that a path is opened for writing as. -/
def opened (p : P) : ℕ := (fs.names p).getD fs.next

variable {fs} in
theorem eq_of_opened {p q : P} (h : fs.names q = some (fs.opened p)) : q = p := by
  unfold opened at h
  cases hp : fs.names p with
  | none =>
      rw [hp, Option.getD_none] at h
      exact absurd (fs.lt_next h) (lt_irrefl _)
  | some n =>
      rw [hp, Option.getD_some] at h
      exact fs.inj h hp

variable [DecidableEq P]

/-- Create the file, or empty the one that is there. -/
def truncate (p : P) : FileSystem P α where
  names := Function.update fs.names p (some (fs.opened p))
  contents := Function.update fs.contents (fs.opened p) []
  next := max fs.next (fs.opened p + 1)
  inj {q r n} hq hr := by
    rw [Function.update_apply] at hq hr
    split_ifs at hq hr with hqp hrp hrp
    · exact hqp.trans hrp.symm
    · exact absurd (eq_of_opened (hr.trans hq.symm)) hrp
    · exact absurd (eq_of_opened (hq.trans hr.symm)) hqp
    · exact fs.inj hq hr
  lt_next {q n} hq := by
    rw [Function.update_apply] at hq
    rw [lt_max_iff]
    split_ifs at hq with hqp
    · cases hq
      exact .inr (Nat.lt_succ_self _)
    · exact .inl (fs.lt_next hq)

/-- Write to an open file, with zeros where it ends before the offset. -/
def writeTo (zero : α) (n : ℕ) (piece : Overlay.Piece α) : FileSystem P α where
  names := fs.names
  contents := Function.update fs.contents n (Overlay.writeAt zero (fs.contents n) piece)
  next := fs.next
  inj := fs.inj
  lt_next := fs.lt_next

variable {fs} in
theorem names_rename {source target q : P} {n : ℕ}
    (h : Function.update (Function.update fs.names source none) target (fs.names source) q =
      some n) :
    (q = target ∧ fs.names source = some n) ∨
      (q ≠ target ∧ q ≠ source ∧ fs.names q = some n) := by
  rw [Function.update_apply, Function.update_apply] at h
  split_ifs at h with htarget hsource
  · exact .inl ⟨htarget, h⟩
  · exact .inr ⟨htarget, hsource, h⟩

/-- The target stands for the file of the source, and the source for none. -/
def rename (source target : P) : FileSystem P α where
  names := Function.update (Function.update fs.names source none) target (fs.names source)
  contents := fs.contents
  next := fs.next
  inj {q r n} hq hr := by
    rcases names_rename hq with ⟨hqt, hqn⟩ | ⟨-, hqs, hqn⟩ <;>
      rcases names_rename hr with ⟨hrt, hrn⟩ | ⟨-, hrs, hrn⟩
    · exact hqt.trans hrt.symm
    · exact absurd (fs.inj hrn hqn) hrs
    · exact absurd (fs.inj hqn hrn) hqs
    · exact fs.inj hqn hrn
  lt_next {q n} hq := by
    rcases names_rename hq with ⟨-, hq⟩ | ⟨-, -, hq⟩ <;> exact fs.lt_next hq

def unlink (p : P) : FileSystem P α where
  names := Function.update fs.names p none
  contents := fs.contents
  next := fs.next
  inj {q r n} hq hr := by
    rw [Function.update_apply] at hq hr
    split_ifs at hq hr
    exact fs.inj hq hr
  lt_next {q n} hq := by
    rw [Function.update_apply] at hq
    split_ifs at hq
    exact fs.lt_next hq

variable {fs} {p q : P} {n : ℕ}

omit [DecidableEq P] in
theorem opened_ne (hlt : n < fs.next) (hname : fs.names p ≠ some n) : n ≠ fs.opened p := by
  unfold opened
  cases hp : fs.names p with
  | none => exact hlt.ne
  | some m =>
      rintro rfl
      exact hname hp

theorem names_truncate (h : (fs.truncate p).names q = some n) :
    (q = p ∧ n = fs.opened p) ∨ (q ≠ p ∧ fs.names q = some n) := by
  change Function.update fs.names p (some (fs.opened p)) q = some n at h
  rw [Function.update_apply] at h
  split_ifs at h with hq
  · exact .inl ⟨hq, (Option.some.inj h).symm⟩
  · exact .inr ⟨hq, h⟩

theorem contents_truncate_of_ne (h : n ≠ fs.opened p) :
    (fs.truncate p).contents n = fs.contents n := Function.update_of_ne h _ _

theorem contents_truncate_self : (fs.truncate p).contents (fs.opened p) = [] :=
  Function.update_self ..

theorem le_next_truncate : fs.next ≤ (fs.truncate p).next := le_max_left _ _

theorem names_unlink (h : (fs.unlink p).names q = some n) : fs.names q = some n := by
  change Function.update fs.names p none q = some n at h
  rw [Function.update_apply] at h
  split_ifs at h
  exact h

omit [DecidableEq P] in
theorem contents_writeTo_of_ne {m : ℕ} {zero : α} {piece : Overlay.Piece α} (h : n ≠ m) :
    (fs.writeTo zero m piece).contents n = fs.contents n := Function.update_of_ne h _ _

theorem read_truncate_of_ne (h : q ≠ p) : (fs.truncate p).read q = fs.read q := by
  unfold read
  change ((Function.update fs.names p (some (fs.opened p))) q).map
    (Function.update fs.contents (fs.opened p) []) = _
  rw [Function.update_of_ne h]
  cases hq : fs.names q with
  | none => rfl
  | some m =>
      have hm : m ≠ fs.opened p := fun heq ↦ h (eq_of_opened (heq ▸ hq))
      rw [Option.map_some, Option.map_some, Function.update_of_ne hm]

omit [DecidableEq P] in
/-- What is written to an open file is seen under its name only. -/
theorem read_writeTo_of_ne {zero : α} {piece : Overlay.Piece α} (h : fs.names q ≠ some n) :
    (fs.writeTo zero n piece).read q = fs.read q := by
  unfold read
  change (fs.names q).map (Function.update fs.contents n _) = _
  cases hq : fs.names q with
  | none => rfl
  | some m =>
      have hm : m ≠ n := fun heq ↦ h (hq.trans (congrArg some heq))
      rw [Option.map_some, Option.map_some, Function.update_of_ne hm]

theorem read_rename_target (source target : P) :
    (fs.rename source target).read target = fs.read source := by
  change ((Function.update (Function.update fs.names source none) target (fs.names source))
    target).map fs.contents = _
  rw [Function.update_self]
  rfl

theorem read_rename_of_ne {source target : P} (htarget : q ≠ target) (hsource : q ≠ source) :
    (fs.rename source target).read q = fs.read q := by
  change ((Function.update (Function.update fs.names source none) target (fs.names source))
    q).map fs.contents = _
  rw [Function.update_of_ne htarget, Function.update_of_ne hsource]
  rfl

theorem read_unlink_of_ne (h : q ≠ p) : (fs.unlink p).read q = fs.read q := by
  change ((Function.update fs.names p none) q).map fs.contents = _
  rw [Function.update_of_ne h]
  rfl

end FileSystem
end Inodes
