import SecureSync.Shared.PurePaths

/-!
# Accepted paths on both platforms

A path that passes the filter stays below every root it is joined to, on POSIX
always and on Windows unless it begins with a single backslash: such a path has
a root and no drive, and the filter looks at the drive only.
-/

namespace SecureSync

/-- Joined to any absolute root and normalised, the path is the root or below it. -/
def StaysBeneath (flavour : Flavour) (lower : List Char → List Char) (relativePath : String) :
    Prop :=
  ∀ root : List Char, flavour.isAbsolute (flavour.parse root) = true →
    ((flavour.parse root).join lower (flavour.parse relativePath.toList)).normpath.IsRelativeTo
      (flavour.parse root).normpath

/-- A path without drive, root and parent references is appended to its base. -/
theorem isRelativeTo_join (lower : List Char → List Char) (base : PurePath) {path : PurePath}
    (hdrive : path.drive = []) (hroot : path.root = []) (hparts : ".." ∉ path.parts) :
    (base.join lower path).normpath.IsRelativeTo base.normpath := by
  have hjoin : base.join lower path = { base with parts := base.parts ++ path.parts } := by
    simp [PurePath.join, hdrive, hroot]
  refine ⟨?_, ?_, ?_⟩
  · rw [hjoin]
    rfl
  · rw [hjoin]
    rfl
  · rw [hjoin, PurePath.normpath, PurePath.normpath]
    dsimp only
    rw [LexicalPaths.collapse_append_of_notMem hparts]
    exact List.prefix_append _ _

section

variable {s : String} (h : rejectUnsafeSpelling s = .ok ())
include h

theorem posix_root_of_accepted : (PurePath.posix s.toList).root = [] := by
  obtain ⟨-, -, -, -, habsolute, -⟩ := (rejectUnsafeSpelling_eq_ok_iff s).mp h
  exact not_not.mp (of_decide_eq_false habsolute)

theorem hasWindowsDrive_of_accepted : hasWindowsDrive s.toList = false := by
  obtain ⟨-, -, -, ⟨hdrive, -⟩, -⟩ := (rejectUnsafeSpelling_eq_ok_iff s).mp h
  exact (drive_eq_nil_iff _).mp hdrive

theorem not_mem_parts_of_accepted :
    ".." ∉ (PurePath.posix s.toList).parts ∧ ".." ∉ (PurePath.windows s.toList).parts := by
  obtain ⟨-, -, -, -, -, hposix, hslashed⟩ := (rejectUnsafeSpelling_eq_ok_iff s).mp h
  rw [windows_of_not_drive (hasWindowsDrive_of_accepted h)]
  rw [posix_parts] at hslashed
  exact ⟨hposix, hslashed⟩

theorem windows_root_of_accepted :
    (PurePath.windows s.toList).root = [] ↔ s.toList.head? ≠ some '\\' := by
  have hhead : s.toList.head? ≠ some '/' := by
    obtain ⟨-, -, -, -, habsolute, -⟩ := (rejectUnsafeSpelling_eq_ok_iff s).mp h
    rwa [← Bool.not_eq_true, posix_isAbsolute] at habsolute
  rw [windows_of_not_drive (hasWindowsDrive_of_accepted h)]
  cases hfirst : s.toList.head? with
  | none => simp
  | some c =>
      have hslash : c ≠ '/' := fun heq ↦ hhead (by rw [hfirst, heq])
      simp [isWindowsSeparator, hslash]

theorem staysBeneath_posix (lower : List Char → List Char) : StaysBeneath .posix lower s :=
  fun _ _ ↦ isRelativeTo_join lower _ (posix_drive _) (posix_root_of_accepted h)
    (not_mem_parts_of_accepted h).1

/-- A rooted path leaves one of two roots on the same drive. -/
theorem staysBeneath_windows_iff (lower : List Char → List Char) :
    StaysBeneath .windows lower s ↔ s.toList.head? ≠ some '\\' := by
  have hdrive : (PurePath.windows s.toList).drive = [] :=
    (drive_eq_nil_iff _).mpr (hasWindowsDrive_of_accepted h)
  have hparts := (not_mem_parts_of_accepted h).2
  rw [← windows_root_of_accepted h]
  constructor
  · intro hbeneath
    by_contra hroot
    have hbelow : ∀ name : String, name ≠ ".." →
        ∀ root, Flavour.windows.parse root = ⟨['C', ':'], ['\\'], [name]⟩ →
          [name] <+: (PurePath.windows s.toList).parts := by
      intro name hname root hparse
      have hrelative := (hbeneath root (by rw [hparse]; rfl)).2.2
      rw [hparse] at hrelative
      unfold PurePath.join PurePath.normpath at hrelative
      rw [if_pos (show (Flavour.windows.parse s.toList).root ≠ [] from hroot)] at hrelative
      dsimp only at hrelative
      rwa [LexicalPaths.collapse_of_notMem (by simpa using hname.symm),
        LexicalPaths.collapse_of_notMem (show ".." ∉ (Flavour.windows.parse s.toList).parts from
          hparts)] at hrelative
    have hx := hbelow "x" (by decide) "C:\\x".toList (by decide)
    have hy := hbelow "y" (by decide) "C:\\y".toList (by decide)
    obtain ⟨rest, hrest⟩ := hx
    rw [← hrest] at hy
    exact absurd (List.cons_prefix_cons.mp hy).1 (by decide)
  · exact fun hroot root _ ↦ isRelativeTo_join lower _ hdrive hroot hparts

end

/-- What the filter accepts, from the string alone, is safe under POSIX rules, and it is safe
under the rules of both platforms exactly if it does not begin with a backslash. -/
theorem accepted_safe_iff (lower : List Char → List Char) (s : String)
    (h : rejectUnsafeSpelling s = .ok ()) :
    StaysBeneath .posix lower s ∧
      ((∀ flavour, StaysBeneath flavour lower s) ↔ s.toList.head? ≠ some '\\') := by
  refine ⟨staysBeneath_posix h lower, ?_⟩
  rw [← staysBeneath_windows_iff h lower]
  constructor
  · exact fun hsafe ↦ hsafe .windows
  · intro hwindows flavour
    cases flavour with
    | posix => exact staysBeneath_posix h lower
    | windows => exact hwindows

theorem accepted_safe_iff_sample :
    StaysBeneath .posix (List.map Char.toLower) "docs\\a:b/c.txt" ∧
      StaysBeneath .windows (List.map Char.toLower) "docs\\a:b/c.txt" := by
  obtain ⟨hposix, hboth⟩ :=
    accepted_safe_iff (List.map Char.toLower) "docs\\a:b/c.txt" (by decide)
  exact ⟨hposix, hboth.mpr (by decide) .windows⟩

/-- The path is accepted, and on Windows it leads to the root of the drive. -/
theorem backslash_accepted :
    rejectUnsafeSpelling "\\foo" = .ok () ∧
      ((PurePath.windows "C:\\srv\\sync".toList).join (List.map Char.toLower)
        (PurePath.windows "\\foo".toList)).normpath = ⟨['C', ':'], ['\\'], ["foo"]⟩ ∧
      ¬ StaysBeneath .windows (List.map Char.toLower) "\\foo" := by
  refine ⟨by decide, by decide, fun hbeneath ↦ ?_⟩
  have hrelative := hbeneath "C:\\srv\\sync".toList (by decide)
  exact absurd hrelative (by decide)

end SecureSync
