import SecureSync.Library.LexicalPaths
import SecureSync.Shared.SafePath

/-!
# Pure paths

`PurePosixPath` and `PureWindowsPath` of `pathlib`: how each platform takes a
string apart, and what it makes of a path that is joined to another one.
-/

namespace SecureSync

/-- The parts are without the anchor, which is the drive and the root. -/
structure PurePath where
  drive : List Char
  root : List Char
  parts : FilePath
  deriving DecidableEq, Repr

inductive Flavour where
  | posix
  | windows
  deriving DecidableEq, Repr

def splitParts (separator : Char) (path : List Char) : FilePath :=
  ((path.splitOn separator).filter fun part ↦ part ≠ [] ∧ part ≠ ['.']).map String.ofList

/-! ## Taking a string apart -/

/-- `posixpath.splitroot`. -/
def posixSplitRoot : List Char → List Char × List Char × List Char
  | '/' :: '/' :: '/' :: path => ([], ['/'], '/' :: '/' :: path)
  | '/' :: '/' :: path => ([], ['/', '/'], path)
  | '/' :: path => ([], ['/'], path)
  | path => ([], [], path)

def backslashed (path : List Char) : List Char :=
  path.map fun c ↦ if c = '/' then '\\' else c

/-- `path.find(sep, start)`. -/
def findSeparator (path : List Char) (start : ℕ) : Option ℕ :=
  ((path.drop start).findIdx? fun c ↦ c = '\\').map (start + ·)

/-- The drive of a path that begins with two separators goes up to the fourth one. -/
def uncSplitRoot (path : List Char) : List Char × List Char × List Char :=
  let start := if (path.take 8).map Char.toUpper = "\\\\?\\UNC\\".toList then 8 else 2
  match findSeparator path start with
  | none => (path, [], [])
  | some index =>
      match findSeparator path (index + 1) with
      | none => (path, [], [])
      | some index2 => (path.take index2, (path.drop index2).take 1, path.drop (index2 + 1))

/-- `ntpath.splitroot`, with backslashes only. -/
def ntSplitRoot : List Char → List Char × List Char × List Char
  | '\\' :: '\\' :: path => uncSplitRoot ('\\' :: '\\' :: path)
  | '\\' :: path => ([], ['\\'], path)
  | c :: ':' :: '\\' :: path => ([c, ':'], ['\\'], path)
  | c :: ':' :: path => ([c, ':'], [], path)
  | path => ([], [], path)

/-- A share is rooted, also where nothing follows it. -/
def isShare (drive : List Char) : Bool :=
  drive.head? = some '\\' && drive.getLast? ≠ some '\\' &&
    match drive.splitOn '\\' with
    | [_, _, server, _] => server ∉ [[], ['?'], ['.'], ['?', '.']]
    | [_, _, _, _, _, _] => true
    | _ => false

def PurePath.posix (path : List Char) : PurePath :=
  let (drive, root, rel) := posixSplitRoot path
  ⟨drive, root, splitParts '/' rel⟩

def PurePath.windows (path : List Char) : PurePath :=
  let (drive, root, rel) := ntSplitRoot (backslashed path)
  ⟨drive, if root = [] ∧ isShare drive then ['\\'] else root, splitParts '\\' rel⟩

def Flavour.parse : Flavour → List Char → PurePath
  | .posix => PurePath.posix
  | .windows => PurePath.windows

def Flavour.isAbsolute : Flavour → PurePath → Bool
  | .posix, path => path.root ≠ []
  | .windows, path => path.drive ≠ [] ∧ path.root ≠ []

/-! ## Joining and normalising -/

namespace PurePath

/-- `base / path`; the drives are compared in lower case. -/
def join (lower : List Char → List Char) (base path : PurePath) : PurePath :=
  if path.root ≠ [] then
    { path with drive := if path.drive ≠ [] ∨ base.drive = [] then path.drive else base.drive }
  else if path.drive ≠ [] ∧ lower path.drive ≠ lower base.drive then path
  else
    { drive := if path.drive ≠ [] then path.drive else base.drive
      root := base.root
      parts := base.parts ++ path.parts }

def normpath (path : PurePath) : PurePath :=
  { path with parts := LexicalPaths.collapse ".." (path.root ≠ []) path.parts }

/-- `is_relative_to`. -/
def IsRelativeTo (path other : PurePath) : Prop :=
  path.drive = other.drive ∧ path.root = other.root ∧ other.parts <+: path.parts

instance (path other : PurePath) : Decidable (path.IsRelativeTo other) :=
  inferInstanceAs (Decidable (_ ∧ _ ∧ _))

end PurePath

/-! ## The filter in these terms -/

theorem splitParts_cons_separator (separator : Char) (path : List Char) :
    splitParts separator (separator :: path) = splitParts separator path := by
  simp [splitParts, List.splitOn_cons_eq_if_modifyHead]

theorem isWindowsSeparator_iff {c : Char} :
    isWindowsSeparator c = true ↔ (if c = '/' then '\\' else c) = '\\' := by
  unfold isWindowsSeparator
  split_ifs with h
  · simp [h]
  · simp [h]

/-- The two spellings of a path with one separator have the same parts. -/
theorem splitParts_backslashed (path : List Char) :
    splitParts '\\' (backslashed path) = posixParts (slashed path) := by
  have hpieces : (backslashed path).splitOn '\\' = (slashed path).splitOn '/' := by
    induction path with
    | nil => rfl
    | cons c path ih =>
        unfold backslashed slashed at ih ⊢
        rw [List.map_cons, List.map_cons, List.splitOn_cons_eq_if_modifyHead,
          List.splitOn_cons_eq_if_modifyHead, ih]
        by_cases hslash : c = '/'
        · subst hslash
          rfl
        · by_cases hback : c = '\\'
          · subst hback
            rfl
          · simp [hslash, hback]
  rw [splitParts, posixParts, hpieces]

theorem posix_parts (path : List Char) : (PurePath.posix path).parts = posixParts path := by
  have hrel : splitParts '/' (posixSplitRoot path).2.2 = splitParts '/' path := by
    unfold posixSplitRoot
    split <;> simp only [splitParts_cons_separator]
  exact hrel

theorem posix_drive (path : List Char) : (PurePath.posix path).drive = [] := by
  have hdrive : (posixSplitRoot path).1 = [] := by
    unfold posixSplitRoot
    split <;> rfl
  exact hdrive

theorem posix_isAbsolute (path : List Char) :
    Flavour.posix.isAbsolute (PurePath.posix path) = true ↔ path.head? = some '/' := by
  have hroot : (posixSplitRoot path).2.1 ≠ [] ↔ path.head? = some '/' := by
    unfold posixSplitRoot
    split
    case h_4 hthree htwo hone =>
      refine iff_of_false (not_not.mpr rfl) fun hhead ↦ ?_
      obtain ⟨rest, rfl⟩ := List.head?_eq_some_iff.mp hhead
      exact hone rest rfl
    all_goals simp
  exact decide_eq_true_iff.trans hroot

theorem uncSplitRoot_drive_ne_nil {path : List Char} (h : path ≠ []) :
    (uncSplitRoot path).1 ≠ [] := by
  unfold uncSplitRoot
  dsimp only
  split
  · exact h
  · split
    · exact h
    · next index hindex index2 hindex2 =>
        have hpos : 0 < index2 := by
          obtain ⟨n, -, rfl⟩ := Option.map_eq_some_iff.mp hindex2
          omega
        intro habs
        rcases List.take_eq_nil_iff.mp habs with hzero | hnil
        · omega
        · exact h hnil

/-- How a Windows path begins. -/
theorem ntSplitRoot_cases (path : List Char) :
    ((∃ rest, path = '\\' :: '\\' :: rest) ∧ (ntSplitRoot path).1 ≠ []) ∨
    (∃ c rest, path = c :: ':' :: rest ∧ c ≠ '\\' ∧ (ntSplitRoot path).1 ≠ []) ∨
    (∃ rest, path = '\\' :: rest ∧ rest.head? ≠ some '\\' ∧
      ntSplitRoot path = ([], ['\\'], rest)) ∨
    (path.head? ≠ some '\\' ∧ path.tail.head? ≠ some ':' ∧ ntSplitRoot path = ([], [], path)) := by
  unfold ntSplitRoot
  split
  case h_1 rest => exact .inl ⟨⟨rest, rfl⟩, uncSplitRoot_drive_ne_nil (by simp)⟩
  case h_2 rest hunc =>
    refine .inr (.inr (.inl ⟨rest, rfl, fun hhead ↦ ?_, rfl⟩))
    obtain ⟨rest', rfl⟩ := List.head?_eq_some_iff.mp hhead
    exact hunc rest' rfl
  case h_3 c rest hback => exact .inr (.inl ⟨c, '\\' :: rest, rfl, hback, by simp⟩)
  case h_4 c rest hback hroot => exact .inr (.inl ⟨c, rest, rfl, hback, by simp⟩)
  case h_5 hunc hback hroot hdrive =>
    refine .inr (.inr (.inr ⟨fun hhead ↦ ?_, fun hcolon ↦ ?_, rfl⟩))
    · obtain ⟨rest, rfl⟩ := List.head?_eq_some_iff.mp hhead
      exact hback rest rfl
    · obtain ⟨rest, htail⟩ := List.head?_eq_some_iff.mp hcolon
      cases path with
      | nil => cases htail
      | cons c path' =>
          obtain rfl : path' = ':' :: rest := htail
          exact hdrive c rest rfl

theorem not_mem_backslashed (path : List Char) : '/' ∉ backslashed path := by
  intro hmem
  obtain ⟨c, -, hc⟩ := List.mem_map.mp hmem
  split_ifs at hc with hslash
  · cases hc
  · exact hslash hc

theorem hasWindowsDrive_backslashed (path : List Char) :
    hasWindowsDrive (backslashed path) = hasWindowsDrive path := by
  have hseparator : ∀ c : Char, isWindowsSeparator (if c = '/' then '\\' else c) =
      isWindowsSeparator c := by
    intro c
    unfold isWindowsSeparator
    split_ifs with hslash
    · simp [hslash]
    · rfl
  match path with
  | [] | [_] => rfl
  | a :: b :: rest =>
      change (if isWindowsSeparator (if a = '/' then '\\' else a) then
        isWindowsSeparator (if b = '/' then '\\' else b)
        else decide ((if b = '/' then '\\' else b) = ':')) = _
      rw [hseparator, hseparator, hasWindowsDrive]
      by_cases hslash : b = '/'
      · subst hslash
        rfl
      · rw [if_neg hslash]

/-- What the filter calls a drive is what `PureWindowsPath` finds. -/
theorem drive_eq_nil_iff (path : List Char) :
    (PurePath.windows path).drive = [] ↔ hasWindowsDrive path = false := by
  have hslash := not_mem_backslashed path
  rw [← hasWindowsDrive_backslashed]
  change (ntSplitRoot (backslashed path)).1 = [] ↔ _
  generalize backslashed path = path' at hslash ⊢
  rcases ntSplitRoot_cases path' with ⟨⟨rest, rfl⟩, hdrive⟩ | ⟨c, rest, rfl, hc, hdrive⟩ |
    ⟨rest, rfl, hrest, hsplit⟩ | ⟨hhead, htail, hsplit⟩
  · exact iff_of_false hdrive (by simp [hasWindowsDrive, isWindowsSeparator])
  · have hseparator : isWindowsSeparator c = false := by
      have hne : c ≠ '/' := fun heq ↦ hslash (by simp [heq])
      simp [isWindowsSeparator, hc, hne]
    exact iff_of_false hdrive (by simp [hasWindowsDrive, hseparator])
  · rw [hsplit]
    refine iff_of_true rfl ?_
    cases rest with
    | nil => rfl
    | cons b rest =>
        have hback : b ≠ '\\' := fun heq ↦ hrest (by rw [heq]; rfl)
        have hne : b ≠ '/' := fun heq ↦ hslash (by simp [heq])
        simp [hasWindowsDrive, isWindowsSeparator, hback, hne]
  · rw [hsplit]
    refine iff_of_true rfl ?_
    match path' with
    | [] | [_] => rfl
    | a :: b :: rest =>
        have hback : a ≠ '\\' := fun heq ↦ hhead (by rw [heq]; rfl)
        have hne : a ≠ '/' := fun heq ↦ hslash (by simp [heq])
        have hcolon : b ≠ ':' := fun heq ↦ htail (by rw [heq]; rfl)
        simp [hasWindowsDrive, isWindowsSeparator, hback, hne, hcolon]

/-- Without a drive a path is rooted if it begins with a separator. -/
theorem windows_of_not_drive {path : List Char} (h : hasWindowsDrive path = false) :
    PurePath.windows path = ⟨[], if path.head?.any isWindowsSeparator then ['\\'] else [],
      posixParts (slashed path)⟩ := by
  have hdrive : (ntSplitRoot (backslashed path)).1 = [] := (drive_eq_nil_iff path).mpr h
  have hhead : path.head?.any isWindowsSeparator = true ↔
      (backslashed path).head? = some '\\' := by
    cases path with
    | nil => simp [backslashed]
    | cons c path => simp [backslashed, isWindowsSeparator_iff]
  have hparts := splitParts_backslashed path
  unfold PurePath.windows
  rcases ntSplitRoot_cases (backslashed path) with ⟨-, habs⟩ | ⟨c, rest, -, -, habs⟩ |
    ⟨rest, hrest, -, hsplit⟩ | ⟨hnot, -, hsplit⟩
  · exact absurd hdrive habs
  · exact absurd hdrive habs
  · rw [hrest, splitParts_cons_separator] at hparts
    rw [if_pos (hhead.mpr (by rw [hrest]; rfl)), hsplit, ← hparts]
    rfl
  · rw [if_neg (mt hhead.mp hnot), hsplit, ← hparts]
    rfl

/-- `_reject_unsafe_spelling` as it is written, over pure paths. -/
theorem rejectUnsafeSpelling_eq_ok_iff (s : String) :
    rejectUnsafeSpelling s = .ok () ↔
      s ≠ "" ∧ s.length ≤ maxRelativePathLength ∧ '\x00' ∉ s.toList ∧
      ((PurePath.windows s.toList).drive = [] ∧
        Flavour.windows.isAbsolute (PurePath.windows s.toList) = false) ∧
      Flavour.posix.isAbsolute (PurePath.posix s.toList) = false ∧
      ".." ∉ (PurePath.posix s.toList).parts ∧
      ".." ∉ (PurePath.posix (slashed s.toList)).parts := by
  have hwindows : (PurePath.windows s.toList).drive = [] ∧
      Flavour.windows.isAbsolute (PurePath.windows s.toList) = false ↔
        hasWindowsDrive s.toList = false := by
    rw [← drive_eq_nil_iff]
    refine and_iff_left_of_imp fun hdrive ↦ ?_
    exact decide_eq_false fun habs ↦ habs.1 hdrive
  rw [hwindows, ← Bool.not_eq_true, ← Bool.not_eq_true, posix_isAbsolute, posix_parts, posix_parts]
  unfold rejectUnsafeSpelling
  split_ifs with hempty hlong hnul hdrive hhead hparent
  · exact iff_of_false (by simp) fun h ↦ h.1 hempty
  · exact iff_of_false (by simp) fun h ↦ absurd h.2.1 (Nat.not_le.mpr hlong)
  · exact iff_of_false (by simp) fun h ↦ h.2.2.1 hnul
  · exact iff_of_false (by simp) fun h ↦ h.2.2.2.1 hdrive
  · exact iff_of_false (by simp) fun h ↦ h.2.2.2.2.1 hhead
  · exact iff_of_false (by simp) fun h ↦ hparent.elim h.2.2.2.2.2.1 h.2.2.2.2.2.2
  · exact iff_of_true rfl ⟨hempty, Nat.not_lt.mp hlong, hnul, hdrive, hhead,
      not_or.mp hparent⟩

end SecureSync
