import SecureSync.Domain.Chunk
import Mathlib.Data.List.Infix

/-!
# Peer-supplied paths

`shared/safe_path.py` on a POSIX host.  Only `Path.resolve` looks at the disk;
it is a parameter, with the two facts that callers rely on while nobody moves
a symbolic link.
-/

namespace SecureSync

/-- `Path.resolve` on one machine: where a path leads once symbolic links and
parent references are followed.  At a loop of links `resolve` raises instead; the
receiver's loop knows these paths by themselves. -/
structure Resolver where
  resolve : FilePath → FilePath
  resolve_append : ∀ p q, resolve (resolve p ++ q) = resolve (p ++ q)

@[simp] theorem Resolver.resolve_resolve (R : Resolver) (p : FilePath) :
    R.resolve (R.resolve p) = R.resolve p := by
  simpa using R.resolve_append p []

/-- A disk without symbolic links, for paths without parent references. -/
def Resolver.plain : Resolver := ⟨id, fun _ _ ↦ rfl⟩

def maxRelativePathLength : ℕ := 4096

inductive UnsafePathError where
  | empty
  | tooLong
  | nulByte (relativePath : String)
  | absolute (relativePath : String)
  | parentComponent (relativePath : String)
  | escapesRoot (relativePath : String)
  deriving DecidableEq, Repr

/-- `PurePosixPath(path).parts` without the root. -/
def posixParts (path : List Char) : FilePath :=
  ((path.splitOn '/').filter fun part ↦ part ≠ [] ∧ part ≠ ['.']).map String.ofList

/-- `base / relative_path`: an absolute right side replaces the left. -/
def joinPath (base : FilePath) (relativePath : String) : FilePath :=
  if relativePath.toList.head? = some '/' then posixParts relativePath.toList
  else base ++ posixParts relativePath.toList

def isWindowsSeparator (c : Char) : Bool := c = '\\' || c = '/'

/-- `PureWindowsPath(path).drive` is not empty: a drive letter, or a leading
pair of separators. -/
def hasWindowsDrive : List Char → Bool
  | a :: b :: _ => if isWindowsSeparator a then isWindowsSeparator b else b = ':'
  | _ => false

def slashed (path : List Char) : List Char :=
  path.map fun c ↦ if c = '\\' then '/' else c

/-- `_reject_unsafe_spelling`.  A Windows path is absolute only with a drive. -/
def rejectUnsafeSpelling (relativePath : String) : Except UnsafePathError Unit :=
  if relativePath = "" then .error .empty
  else if relativePath.length > maxRelativePathLength then .error .tooLong
  else if '\x00' ∈ relativePath.toList then .error (.nulByte relativePath)
  else if hasWindowsDrive relativePath.toList then .error (.absolute relativePath)
  else if relativePath.toList.head? = some '/' then .error (.absolute relativePath)
  else if ".." ∈ posixParts relativePath.toList ∨ ".." ∈ posixParts (slashed relativePath.toList)
  then .error (.parentComponent relativePath)
  else .ok ()

def resolveWithin (R : Resolver) (root : FilePath) (relativePath : String) :
    Except UnsafePathError FilePath := do
  rejectUnsafeSpelling relativePath
  let rootResolved := R.resolve root
  let resolved := R.resolve (joinPath rootResolved relativePath)
  if rootResolved <+: resolved then return resolved
  else throw (.escapesRoot relativePath)

theorem resolveWithin_eq_ok {R : Resolver} {root : FilePath} {relativePath : String}
    {destination : FilePath} (h : resolveWithin R root relativePath = .ok destination) :
    relativePath.toList.head? ≠ some '/' ∧
      destination = R.resolve (R.resolve root ++ posixParts relativePath.toList) := by
  unfold resolveWithin at h
  cases hspell : rejectUnsafeSpelling relativePath with
  | error e =>
      rw [hspell] at h
      cases h
  | ok u =>
      have hhead : relativePath.toList.head? ≠ some '/' := by
        intro habs
        unfold rejectUnsafeSpelling at hspell
        simp only [habs, if_true] at hspell
        split_ifs at hspell
      rw [hspell] at h
      simp only [bind, Except.bind, joinPath, if_neg hhead] at h
      split at h
      · cases h
        exact ⟨hhead, rfl⟩
      · cases h

theorem resolve_of_resolveWithin {R : Resolver} {root : FilePath} {relativePath : String}
    {destination : FilePath} (h : resolveWithin R root relativePath = .ok destination) :
    R.resolve destination = destination := by
  rw [(resolveWithin_eq_ok h).2, R.resolve_resolve]

example : resolveWithin .plain ["srv", "sync"] "docs/./a.txt" =
    .ok ["srv", "sync", "docs", "a.txt"] := by decide

end SecureSync
