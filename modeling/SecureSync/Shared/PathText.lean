import SecureSync.Shared.PurePaths

/-!
# Paths as text

`str(path)` on both platforms, and that the path is read back from it.
-/

namespace SecureSync

def Flavour.separator : Flavour → Char
  | .posix => '/'
  | .windows => '\\'

/-- `splitdrive(part)[0]`. -/
def Flavour.driveOf : Flavour → List Char → List Char
  | .posix, _ => []
  | .windows, part => (ntSplitRoot (backslashed part)).1

def joinParts (separator : Char) (parts : FilePath) : List Char :=
  [separator].intercalate (parts.map String.toList)

/-- `_format_parsed_parts`: a relative path does not begin with what looks like a drive. -/
def Flavour.format (flavour : Flavour) (path : PurePath) : List Char :=
  if path.drive ≠ [] ∨ path.root ≠ [] then
    path.drive ++ path.root ++ joinParts flavour.separator path.parts
  else
    match path.parts with
    | [] => []
    | part :: parts =>
        if flavour.driveOf part.toList ≠ [] then
          joinParts flavour.separator ("." :: part :: parts)
        else joinParts flavour.separator (part :: parts)

def Flavour.text (flavour : Flavour) (path : PurePath) : List Char :=
  if flavour.format path = [] then ['.'] else flavour.format path

/-! ## Parts -/

/-- What is left of a path between its separators. -/
def PlainParts (separator : Char) (parts : FilePath) : Prop :=
  ∀ part ∈ parts, part.toList ≠ [] ∧ part.toList ≠ ['.'] ∧ separator ∉ part.toList

theorem of_mem_splitOn {separator : Char} {path piece : List Char}
    (h : piece ∈ path.splitOn separator) : separator ∉ piece ∧ piece ⊆ path := by
  induction path generalizing piece with
  | nil =>
      rw [List.splitOn_nil, List.mem_singleton] at h
      simp [h]
  | cons c path ih =>
      rw [List.splitOn_cons_eq_if_modifyHead] at h
      split_ifs at h with hc
      · rcases List.mem_cons.mp h with rfl | h
        · simp
        · exact ⟨(ih h).1, List.subset_cons_of_subset c (ih h).2⟩
      · cases hsplit : path.splitOn separator with
        | nil => exact absurd hsplit (List.splitOn_ne_nil _ _)
        | cons first others =>
            rw [hsplit, List.modifyHead_cons] at h
            have hfirst : separator ∉ first ∧ first ⊆ path := ih (by simp [hsplit])
            rcases List.mem_cons.mp h with rfl | h
            · have hne : separator ≠ c := fun heq ↦ hc (by simp [heq])
              exact ⟨by simp [hne, hfirst.1], List.cons_subset_cons c hfirst.2⟩
            · have hother : separator ∉ piece ∧ piece ⊆ path := ih (by simp [hsplit, h])
              exact ⟨hother.1, List.subset_cons_of_subset c hother.2⟩

theorem plainParts_splitParts (separator : Char) (path : List Char) :
    PlainParts separator (splitParts separator path) := by
  intro part hpart
  obtain ⟨piece, hpiece, rfl⟩ := List.mem_map.mp hpart
  obtain ⟨hmem, hplain⟩ := List.mem_filter.mp hpiece
  obtain ⟨hne, hdot⟩ := of_decide_eq_true hplain
  rw [String.toList_ofList]
  exact ⟨hne, hdot, (of_mem_splitOn hmem).1⟩

variable {separator : Char} {parts : FilePath}

theorem splitParts_joinParts (h : PlainParts separator parts) :
    splitParts separator (joinParts separator parts) = parts := by
  cases parts with
  | nil => rfl
  | cons part parts =>
      have hsplit : (joinParts separator (part :: parts)).splitOn separator =
          (part :: parts).map String.toList := by
        apply List.splitOn_intercalate
        · intro l hl
          obtain ⟨p, hp, rfl⟩ := List.mem_map.mp hl
          exact (h p hp).2.2
        · simp
      rw [splitParts, hsplit, List.filter_eq_self.mpr, List.map_map]
      · simp [Function.comp_def]
      · intro l hl
        obtain ⟨p, hp, rfl⟩ := List.mem_map.mp hl
        exact decide_eq_true ⟨(h p hp).1, (h p hp).2.1⟩

theorem joinParts_cons (separator : Char) (part : String) (parts : FilePath) :
    joinParts separator (part :: parts) =
      part.toList ++ if parts = [] then [] else separator :: joinParts separator parts := by
  cases parts with
  | nil => simp [joinParts]
  | cons part' parts => simp [joinParts, List.intercalate]

/-- A leading `.` is not a part. -/
theorem splitParts_joinParts_dot (hdot : separator ≠ '.') (h : PlainParts separator parts) :
    splitParts separator (joinParts separator ("." :: parts)) = parts := by
  rw [joinParts_cons]
  split_ifs with hnil
  · subst hnil
    have hone : (['.'] : List Char).splitOn separator = [['.']] :=
      List.splitOn_eq_singleton (by simpa using hdot)
    simp [splitParts, hone]
  · have hsplit : (".".toList ++ separator :: joinParts separator parts).splitOn separator =
        ['.'] :: (joinParts separator parts).splitOn separator :=
      List.splitOn_append_cons_self_of_not_mem (by simpa using hdot) _
    have hparts := splitParts_joinParts h
    unfold splitParts at hparts ⊢
    rw [hsplit, List.filter_cons_of_neg (by simp), hparts]

theorem head_joinParts (h : PlainParts separator parts) :
    (joinParts separator parts).head? ≠ some separator := by
  cases parts with
  | nil => simp [joinParts]
  | cons part parts =>
      obtain ⟨hne, -, hseparator⟩ := h part List.mem_cons_self
      rw [joinParts_cons]
      cases hpart : part.toList with
      | nil => exact absurd hpart hne
      | cons c cs =>
          rw [hpart] at hseparator
          intro hhead
          have heq : c = separator := by simpa using hhead
          exact hseparator (by simp [heq])

/-! ## POSIX -/

theorem posixSplitRoot_of_head {path : List Char} (h : path.head? ≠ some '/') :
    posixSplitRoot path = ([], [], path) ∧ posixSplitRoot ('/' :: path) = ([], ['/'], path) ∧
      posixSplitRoot ('/' :: '/' :: path) = ([], ['/', '/'], path) := by
  cases path with
  | nil => exact ⟨rfl, rfl, rfl⟩
  | cons c path =>
      have hc : c ≠ '/' := fun heq ↦ h (by rw [heq]; rfl)
      simp [posixSplitRoot, hc]

theorem posix_root (path : List Char) :
    (PurePath.posix path).root ∈ [[], ['/'], ['/', '/']] := by
  have hroot : (posixSplitRoot path).2.1 ∈ [[], ['/'], ['/', '/']] := by
    unfold posixSplitRoot
    split <;> simp
  exact hroot

theorem posix_format (root : List Char) (parts : FilePath) :
    Flavour.posix.format ⟨[], root, parts⟩ = root ++ joinParts '/' parts := by
  unfold Flavour.format
  by_cases hroot : root = []
  · subst hroot
    cases parts <;> simp [Flavour.driveOf, Flavour.separator, joinParts]
  · simp [hroot, Flavour.separator]

theorem posix_parse_text (path : List Char) :
    PurePath.posix (Flavour.posix.text (PurePath.posix path)) = PurePath.posix path := by
  have hdrive := posix_drive path
  have hroot := posix_root path
  have hplain : PlainParts '/' (PurePath.posix path).parts := by
    rw [posix_parts]
    exact plainParts_splitParts '/' path
  generalize PurePath.posix path = p at hdrive hroot hplain
  obtain ⟨drive, root, parts⟩ := p
  obtain rfl : drive = [] := hdrive
  change PlainParts '/' parts at hplain
  have hparts := splitParts_joinParts hplain
  obtain ⟨hnone, hone, htwo⟩ := posixSplitRoot_of_head (head_joinParts hplain)
  rw [Flavour.text, posix_format]
  simp only [List.mem_cons, List.not_mem_nil, or_false] at hroot
  rcases hroot with rfl | rfl | rfl
  · rw [List.nil_append]
    split_ifs with hempty
    · rw [hempty] at hparts
      rw [← hparts]
      rfl
    · rw [PurePath.posix, hnone]
      exact congrArg _ hparts
  · rw [if_neg (by simp), PurePath.posix, List.singleton_append, hone]
    exact congrArg _ hparts
  · rw [if_neg (by simp), PurePath.posix, List.cons_append, List.singleton_append, htwo]
    exact congrArg _ hparts

/-! ## Windows -/

theorem append_separator_inj {c : Char} {front front' rest rest' : List Char}
    (h : front ++ c :: rest = front' ++ c :: rest') (hfront : c ∉ front) (hfront' : c ∉ front') :
    front = front' ∧ rest = rest' := by
  induction front generalizing front' with
  | nil =>
      cases front' with
      | nil => simpa using h
      | cons d front' =>
          obtain ⟨rfl, -⟩ := List.cons.inj h
          simp at hfront'
  | cons d front ih =>
      cases front' with
      | nil =>
          obtain ⟨rfl, -⟩ := List.cons.inj h
          simp at hfront
      | cons d' front' =>
          obtain ⟨rfl, hrest⟩ := List.cons.inj h
          obtain ⟨rfl, rfl⟩ := ih hrest (List.not_mem_of_not_mem_cons hfront)
            (List.not_mem_of_not_mem_cons hfront')
          exact ⟨rfl, rfl⟩

theorem findSeparator_eq_none_iff {path : List Char} {start : ℕ} :
    findSeparator path start = none ↔ '\\' ∉ path.drop start := by
  rw [findSeparator, Option.map_eq_none_iff, List.findIdx?_eq_none_iff]
  constructor
  · intro h hmem
    exact of_decide_eq_false (h _ hmem) rfl
  · intro h c hc
    exact decide_eq_false fun heq ↦ h (heq ▸ hc)

/-- What lies between the start of a search and the separator it finds. -/
theorem exists_of_findSeparator {path : List Char} {start index : ℕ}
    (h : findSeparator path start = some index) :
    ∃ name rest, path.drop start = name ++ '\\' :: rest ∧ '\\' ∉ name ∧
      index = start + name.length := by
  obtain ⟨i, hi, rfl⟩ := Option.map_eq_some_iff.mp h
  obtain ⟨hlt, hat, hbefore⟩ := List.findIdx?_eq_some_iff_getElem.mp hi
  have hchar : (path.drop start)[i] = '\\' := of_decide_eq_true hat
  refine ⟨(path.drop start).take i, (path.drop start).drop (i + 1), ?_, ?_, ?_⟩
  · rw [← hchar, List.cons_getElem_drop_succ, List.take_append_drop]
  · intro hmem
    obtain ⟨j, hj, heq⟩ := List.mem_iff_getElem.mp hmem
    rw [List.length_take] at hj
    rw [List.getElem_take] at heq
    exact hbefore j (by omega) (decide_eq_true heq)
  · rw [List.length_take]
    omega

theorem findSeparator_of_drop {path name rest : List Char} {start : ℕ}
    (h : path.drop start = name ++ '\\' :: rest) (hname : '\\' ∉ name) :
    findSeparator path start = some (start + name.length) := by
  have hfind : (name ++ '\\' :: rest).findIdx? (fun c ↦ c = '\\') = some name.length := by
    rw [List.findIdx?_append, List.findIdx?_eq_none_iff.mpr]
    · simp [List.findIdx?_cons]
    · intro c hc
      exact decide_eq_false fun heq ↦ hname (heq ▸ hc)
  rw [findSeparator, h, hfind]
  rfl

/-- The prefix of a path to a share that is spelled out in full. -/
def UncPrefix (path : List Char) : Prop :=
  (path.take 8).map Char.toUpper = "\\\\?\\UNC\\".toList

instance (path : List Char) : Decidable (UncPrefix path) := inferInstanceAs (Decidable (_ = _))

def uncStart (path : List Char) : ℕ := if UncPrefix path then 8 else 2

theorem toUpper_letter : ∀ i < 26,
    65 ≤ (Char.ofNat (97 + i)).toUpper.toNat ∧ (Char.ofNat (97 + i)).toUpper.toNat ≤ 90 := by
  decide

/-- Only letters are changed, into letters. -/
theorem eq_of_toUpper_eq {c d : Char} (h : c.toUpper = d) (hd : d.toNat < 65 ∨ 90 < d.toNat) :
    c = d := by
  by_cases hlower : 97 ≤ c.toNat ∧ c.toNat ≤ 122
  · have hletter := toUpper_letter (c.toNat - 97) (by omega)
    rw [Nat.add_sub_cancel' hlower.1, Char.ofNat_toNat, h] at hletter
    omega
  · have hsame : c.toUpper = c := dif_neg fun habs ↦ hlower habs
    exact hsame.symm.trans h

theorem exists_of_uncPrefix {path : List Char} (h : UncPrefix path) :
    ∃ u n c rest, path = '\\' :: '\\' :: '?' :: '\\' :: u :: n :: c :: '\\' :: rest ∧
      '\\' ∉ [u, n, c] := by
  unfold UncPrefix at h
  simp only [String.reduceToList, List.map_eq_cons_iff, List.map_eq_nil_iff] at h
  obtain ⟨a, _, htake, ha, b, _, rfl, hb, m, _, rfl, hm, d, _, rfl, hd, u, _, rfl, hu, n, _, rfl,
    hn, c, _, rfl, hc, e, _, rfl, he, rfl⟩ := h
  refine ⟨u, n, c, path.drop 8, ?_, ?_⟩
  · rw [eq_of_toUpper_eq ha (by decide), eq_of_toUpper_eq hb (by decide),
      eq_of_toUpper_eq hm (by decide), eq_of_toUpper_eq hd (by decide),
      eq_of_toUpper_eq he (by decide)] at htake
    rw [← List.take_append_drop 8 path, htake]
    simp
  · have hback : Char.toUpper '\\' = '\\' := rfl
    simp only [List.mem_cons, List.not_mem_nil, or_false, not_or]
    refine ⟨?_, ?_, ?_⟩ <;> rintro rfl
    · rw [hback] at hu
      revert hu
      decide
    · rw [hback] at hn
      revert hn
      decide
    · rw [hback] at hc
      revert hc
      decide

theorem uncSplitRoot_eq (path : List Char) :
    uncSplitRoot path =
      match findSeparator path (uncStart path) with
      | none => (path, [], [])
      | some index =>
          match findSeparator path (index + 1) with
          | none => (path, [], [])
          | some index2 =>
              (path.take index2, (path.drop index2).take 1, path.drop (index2 + 1)) := rfl

/-- The drive and root of a share. -/
theorem uncSplitRoot_of_names {front server share rest : List Char}
    (hstart : uncStart (front ++ (server ++ '\\' :: (share ++ '\\' :: rest))) = front.length)
    (hserver : '\\' ∉ server) (hshare : '\\' ∉ share) :
    uncSplitRoot (front ++ (server ++ '\\' :: (share ++ '\\' :: rest))) =
      (front ++ (server ++ '\\' :: share), ['\\'], rest) := by
  have hjoin : front ++ (server ++ '\\' :: (share ++ '\\' :: rest)) =
      (front ++ (server ++ '\\' :: share)) ++ '\\' :: rest := by simp
  have hfrom : (front ++ (server ++ '\\' :: (share ++ '\\' :: rest))).drop front.length =
      server ++ '\\' :: (share ++ '\\' :: rest) := by simp
  have hfirst := findSeparator_of_drop hfrom hserver
  have hsecond : findSeparator (front ++ (server ++ '\\' :: (share ++ '\\' :: rest)))
      (front.length + server.length + 1) =
        some (front.length + server.length + 1 + share.length) := by
    have hfrom : (front ++ (server ++ '\\' :: (share ++ '\\' :: rest))).drop
        (front.length + server.length + 1) = share ++ '\\' :: rest := by
      rw [Nat.add_assoc, ← List.drop_drop, List.drop_left, ← List.drop_drop, List.drop_left]
      rfl
    exact findSeparator_of_drop hfrom hshare
  have hlen : front.length + server.length + 1 + share.length =
      (front ++ (server ++ '\\' :: share)).length := by
    simp only [List.length_append, List.length_cons]
    omega
  rw [uncSplitRoot_eq, hstart, hfirst]
  dsimp only
  rw [hsecond]
  dsimp only
  rw [hlen, hjoin, List.take_left, List.drop_left, ← List.drop_drop, List.drop_left]
  rfl

theorem uncPrefix_congr {path path' : List Char} (h : path.take 8 = path'.take 8) :
    UncPrefix path ↔ UncPrefix path' := by
  rw [UncPrefix, UncPrefix, h]

theorem length_of_uncStart {path front : List Char} (h : uncStart path = front.length) :
    front.length = 8 ∧ UncPrefix path ∨ front.length = 2 ∧ ¬ UncPrefix path := by
  unfold uncStart at h
  split_ifs at h with hprefix
  · exact .inl ⟨h.symm, hprefix⟩
  · exact .inr ⟨h.symm, hprefix⟩

/-- What comes after the front matters only where the front is the two separators. -/
theorem uncStart_of_front {front tail tail' : List Char} (hfront : ['\\', '\\'] <+: front)
    (hstart : uncStart (front ++ tail) = front.length)
    (htail : front = ['\\', '\\'] → ¬ UncPrefix (front ++ tail) → ¬ UncPrefix (front ++ tail')) :
    uncStart (front ++ tail') = front.length := by
  rcases length_of_uncStart hstart with ⟨hlen, hprefix⟩ | ⟨hlen, hprefix⟩
  · have hsame : (front ++ tail').take 8 = (front ++ tail).take 8 := by
      rw [← hlen, List.take_left, List.take_left]
    rw [uncStart, if_pos ((uncPrefix_congr hsame).mpr hprefix), hlen]
  · obtain rfl : ['\\', '\\'] = front := hfront.eq_of_length hlen.symm
    rw [uncStart, if_neg (htail rfl hprefix), hlen]

theorem names_of_uncPrefix {server share rest : List Char} (hserver : '\\' ∉ server)
    (hshare : '\\' ∉ share)
    (h : UncPrefix (['\\', '\\'] ++ (server ++ '\\' :: (share ++ '\\' :: rest)))) :
    ∃ u n c, '\\' ∉ [u, n, c] ∧ server = ['?'] ∧ share = [u, n, c] := by
  obtain ⟨u, n, c, tail, heq, hname⟩ := exists_of_uncPrefix h
  have hcut : server ++ '\\' :: (share ++ '\\' :: rest) =
      ['?'] ++ '\\' :: ([u, n, c] ++ '\\' :: tail) := by simpa using heq
  obtain ⟨hmark, hlater⟩ := append_separator_inj hcut hserver (by decide)
  exact ⟨u, n, c, hname, hmark, (append_separator_inj hlater hshare hname).1⟩

/-- Whether a share is spelled out in full shows before its root. -/
theorem uncStart_congr {front server share rest rest' : List Char}
    (hfront : ['\\', '\\'] <+: front)
    (hstart : uncStart (front ++ (server ++ '\\' :: (share ++ '\\' :: rest))) = front.length)
    (hserver : '\\' ∉ server) (hshare : '\\' ∉ share) :
    uncStart (front ++ (server ++ '\\' :: (share ++ '\\' :: rest'))) = front.length := by
  apply uncStart_of_front hfront hstart
  rintro rfl hprefix hother
  obtain ⟨u, n, c, -, rfl, rfl⟩ := names_of_uncPrefix hserver hshare hother
  exact hprefix ((uncPrefix_congr rfl).mp hother)

theorem front_isPrefix {path : List Char} (h : ['\\', '\\'] <+: path) :
    ['\\', '\\'] <+: path.take (uncStart path) := by
  obtain ⟨rest, rfl⟩ := h
  unfold uncStart
  split_ifs <;> simp

/-- A path to a share: without a share, with a rooted share, or with a share at its end. -/
theorem uncSplitRoot_cases {path : List Char} (h : ['\\', '\\'] <+: path) :
    ('\\' ∉ path.drop (uncStart path) ∧ uncSplitRoot path = (path, [], [])) ∨
    ∃ front server share, ['\\', '\\'] <+: front ∧ front.length = uncStart path ∧
      '\\' ∉ server ∧ '\\' ∉ share ∧
      ((∃ rest, path = front ++ (server ++ '\\' :: (share ++ '\\' :: rest))) ∨
        path = front ++ (server ++ '\\' :: share) ∧ uncSplitRoot path = (path, [], [])) := by
  rw [uncSplitRoot_eq]
  cases hfirst : findSeparator path (uncStart path) with
  | none => exact .inl ⟨findSeparator_eq_none_iff.mp hfirst, rfl⟩
  | some index =>
      right
      obtain ⟨server, rest, hdrop, hserver, rfl⟩ := exists_of_findSeparator hfirst
      have hpath : path = path.take (uncStart path) ++ (server ++ '\\' :: rest) := by
        rw [← hdrop, List.take_append_drop]
      have hlen : (path.take (uncStart path)).length = uncStart path := by
        have hlong := congrArg List.length hdrop
        rw [List.length_drop, List.length_append, List.length_cons] at hlong
        rw [List.length_take]
        omega
      have hrest : path.drop (uncStart path + server.length + 1) = rest := by
        rw [Nat.add_assoc, ← List.drop_drop, hdrop, ← List.drop_drop, List.drop_left]
        rfl
      dsimp only
      cases hsecond : findSeparator path (uncStart path + server.length + 1) with
      | none =>
          rw [findSeparator_eq_none_iff, hrest] at hsecond
          exact ⟨_, server, rest, front_isPrefix h, hlen, hserver, hsecond, .inr ⟨hpath, rfl⟩⟩
      | some index2 =>
          obtain ⟨share, rest', hdrop', hshare, -⟩ := exists_of_findSeparator hsecond
          rw [hrest] at hdrop'
          subst hdrop'
          exact ⟨_, server, share, front_isPrefix h, hlen, hserver, hshare, .inl ⟨rest', hpath⟩⟩

/-! ### Slashes -/

theorem backslashed_of_notMem {path : List Char} (h : '/' ∉ path) : backslashed path = path := by
  have hsame : ∀ c ∈ path, (if c = '/' then '\\' else c) = id c := by
    intro c hc
    rw [if_neg, id]
    rintro rfl
    exact h hc
  rw [backslashed, List.map_congr_left hsame, List.map_id]

theorem uncSplitRoot_subset (path : List Char) :
    (uncSplitRoot path).1 ⊆ path ∧ (uncSplitRoot path).2.1 ⊆ path ∧
      (uncSplitRoot path).2.2 ⊆ path := by
  rw [uncSplitRoot_eq]
  split
  · simp
  · split
    · simp
    · refine ⟨List.take_subset _ _, ?_, List.drop_subset _ _⟩
      exact fun c hc ↦ List.drop_subset _ _ (List.take_subset _ _ hc)

theorem ntSplitRoot_subset (path : List Char) :
    (ntSplitRoot path).1 ⊆ path ∧ (ntSplitRoot path).2.1 ⊆ path ∧
      (ntSplitRoot path).2.2 ⊆ path := by
  unfold ntSplitRoot
  split
  · exact uncSplitRoot_subset _
  · simp
  · next c rest _ => exact ⟨by simp, by simp, fun d hd ↦ by simp [hd]⟩
  · next c rest _ _ => exact ⟨by simp, by simp, fun d hd ↦ by simp [hd]⟩
  · simp

theorem slash_notMem_windows (path : List Char) :
    '/' ∉ (PurePath.windows path).drive ∧ '/' ∉ (PurePath.windows path).root ∧
      ∀ part ∈ (PurePath.windows path).parts, '/' ∉ part.toList := by
  obtain ⟨hdrive, hroot, hrel⟩ := ntSplitRoot_subset (backslashed path)
  have hslash := not_mem_backslashed path
  refine ⟨fun h ↦ hslash (hdrive h), fun h ↦ ?_, fun part hpart h ↦ ?_⟩
  · unfold PurePath.windows at h
    dsimp only at h
    split_ifs at h with hshare
    · simp at h
    · exact hslash (hroot h)
  · obtain ⟨piece, hpiece, rfl⟩ := List.mem_map.mp hpart
    rw [String.toList_ofList] at h
    exact hslash (hrel ((of_mem_splitOn (List.mem_filter.mp hpiece).1).2 h))

theorem slash_notMem_joinParts {parts : FilePath} (h : ∀ part ∈ parts, '/' ∉ part.toList) :
    '/' ∉ joinParts '\\' parts := by
  induction parts with
  | nil => simp [joinParts]
  | cons part parts ih =>
      obtain ⟨hpart, hparts⟩ := List.forall_mem_cons.mp h
      rw [joinParts_cons]
      split_ifs with hnil <;> simp [hpart, ih hparts]

/-- What is written has backslashed separators. -/
theorem slash_notMem_text {p : PurePath} (hdrive : '/' ∉ p.drive) (hroot : '/' ∉ p.root)
    (hparts : ∀ part ∈ p.parts, '/' ∉ part.toList) : '/' ∉ Flavour.windows.text p := by
  have hdot : ∀ part ∈ "." :: p.parts, '/' ∉ part.toList :=
    List.forall_mem_cons.mpr ⟨by decide, hparts⟩
  have hformat : '/' ∉ Flavour.windows.format p := by
    unfold Flavour.format
    split_ifs with hanchor
    · simp [hdrive, hroot, slash_notMem_joinParts hparts, Flavour.separator]
    · split
      · simp
      · next part parts heq =>
          rw [heq] at hparts hdot
          split_ifs
          · exact slash_notMem_joinParts hdot
          · exact slash_notMem_joinParts hparts
  unfold Flavour.text
  split_ifs
  · decide
  · exact hformat

/-! ### Reading back -/

theorem windows_of_split {path drive root rel : List Char} (hslash : '/' ∉ path)
    (h : ntSplitRoot path = (drive, root, rel)) :
    PurePath.windows path =
      ⟨drive, if root = [] ∧ isShare drive then ['\\'] else root, splitParts '\\' rel⟩ := by
  rw [PurePath.windows, backslashed_of_notMem hslash, h]

theorem splitOn_cut {name rest : List Char} (h : '\\' ∉ name) :
    (name ++ '\\' :: rest).splitOn '\\' = name :: rest.splitOn '\\' :=
  List.splitOn_append_cons_self_of_not_mem h _

theorem splitOn_cons_separator (rest : List Char) :
    ('\\' :: rest).splitOn '\\' = [] :: rest.splitOn '\\' := by
  have hempty : '\\' ∉ ([] : List Char) := by simp
  exact splitOn_cut hempty

theorem splitOn_mark (rest : List Char) :
    ('?' :: '\\' :: rest).splitOn '\\' = ['?'] :: rest.splitOn '\\' := by
  have hmark : '\\' ∉ ['?'] := by decide
  exact splitOn_cut hmark

theorem splitOn_last {name : List Char} (h : '\\' ∉ name) : name.splitOn '\\' = [name] :=
  List.splitOn_eq_singleton h

/-- A path with nothing after its server names no share. -/
theorem isShare_of_no_separator {path : List Char} (h : ['\\', '\\'] <+: path)
    (hnone : '\\' ∉ path.drop (uncStart path)) : isShare path = false := by
  unfold uncStart at hnone
  split_ifs at hnone with hprefix
  · obtain ⟨u, n, c, rest, rfl, hname⟩ := exists_of_uncPrefix hprefix
    have hsplit : ('\\' :: '\\' :: '?' :: '\\' :: u :: n :: c :: '\\' :: rest).splitOn '\\' =
        [[], [], ['?'], [u, n, c], rest] := by
      have hmark : ('?' :: '\\' :: u :: n :: c :: '\\' :: rest).splitOn '\\' =
          ['?'] :: (u :: n :: c :: '\\' :: rest).splitOn '\\' := splitOn_mark _
      have hlast : (u :: n :: c :: '\\' :: rest).splitOn '\\' = [u, n, c] :: rest.splitOn '\\' :=
        splitOn_cut hname
      have hrest : '\\' ∉ rest := hnone
      rw [splitOn_cons_separator, splitOn_cons_separator, hmark, hlast, splitOn_last hrest]
    rw [isShare, hsplit]
    simp
  · obtain ⟨rest, rfl⟩ := h
    have hsplit : (['\\', '\\'] ++ rest).splitOn '\\' = [[], [], rest] := by
      have hrest : '\\' ∉ rest := hnone
      rw [List.cons_append, List.singleton_append, splitOn_cons_separator, splitOn_cons_separator,
        splitOn_last hrest]
    rw [isShare, hsplit]
    simp

theorem isShare_long_prefix (u n c : Char) (h : '\\' ∉ [u, n, c]) :
    isShare ('\\' :: '\\' :: '?' :: '\\' :: [u, n, c]) = false := by
  have hsplit : ('\\' :: '\\' :: '?' :: '\\' :: [u, n, c]).splitOn '\\' =
      [[], [], ['?'], [u, n, c]] := by
    rw [splitOn_cons_separator, splitOn_cons_separator, splitOn_mark, splitOn_last h]
  rw [isShare, hsplit]
  simp

/-- A share at the end of a path is rooted by a separator after it. -/
theorem uncSplitRoot_share {front server share : List Char} (hfront : ['\\', '\\'] <+: front)
    (hstart : uncStart (front ++ (server ++ '\\' :: share)) = front.length)
    (hserver : '\\' ∉ server) (hshare : '\\' ∉ share)
    (h : isShare (front ++ (server ++ '\\' :: share)) = true) :
    uncSplitRoot (front ++ (server ++ '\\' :: (share ++ '\\' :: []))) =
      (front ++ (server ++ '\\' :: share), ['\\'], []) := by
  apply uncSplitRoot_of_names _ hserver hshare
  apply uncStart_of_front hfront hstart
  rintro rfl - hother
  obtain ⟨u, n, c, hname, rfl, rfl⟩ := names_of_uncPrefix hserver hshare hother
  have hnot := isShare_long_prefix u n c hname
  exact absurd (h.symm.trans hnot) (by simp)

theorem ntSplitRoot_unc {path : List Char} (h : ['\\', '\\'] <+: path) :
    ntSplitRoot path = uncSplitRoot path := by
  obtain ⟨rest, rfl⟩ := h
  rfl

theorem ntSplitRoot_reread_unc {q drive root rel tail : List Char} (hunc : ['\\', '\\'] <+: q)
    (h : ntSplitRoot q = (drive, root, rel)) (hrel : rel = [] → tail = []) :
    ntSplitRoot (drive ++ (if root = [] ∧ isShare drive then ['\\'] else root) ++ tail) =
      (drive, if root = [] ∧ isShare drive then ['\\'] else root, tail) := by
  rw [ntSplitRoot_unc hunc] at h
  rcases uncSplitRoot_cases hunc with ⟨hnone, hsplit⟩ |
      ⟨front, server, share, hfront, hlen, hserver, hshare, ⟨rest, rfl⟩ | ⟨rfl, hsplit⟩⟩
  · rw [hsplit] at h
    cases h
    rw [hrel rfl, isShare_of_no_separator hunc hnone]
    simpa [ntSplitRoot_unc hunc] using hsplit
  · rw [uncSplitRoot_of_names hlen.symm hserver hshare] at h
    cases h
    have hstart : uncStart (front ++ (server ++ '\\' :: (share ++ '\\' :: tail))) =
        front.length := uncStart_congr hfront hlen.symm hserver hshare
    have hnames := uncSplitRoot_of_names hstart hserver hshare
    have hprefix : ['\\', '\\'] <+: front ++ (server ++ '\\' :: (share ++ '\\' :: tail)) :=
      hfront.trans (List.prefix_append _ _)
    rw [← ntSplitRoot_unc hprefix] at hnames
    simpa using hnames
  · rw [hsplit] at h
    cases h
    rw [hrel rfl]
    by_cases hisShare : isShare (front ++ (server ++ '\\' :: share)) = true
    · have hrooted := uncSplitRoot_share hfront hlen.symm hserver hshare hisShare
      have hprefix : ['\\', '\\'] <+: front ++ (server ++ '\\' :: (share ++ '\\' :: [])) :=
        hfront.trans (List.prefix_append _ _)
      rw [← ntSplitRoot_unc hprefix] at hrooted
      rw [if_pos ⟨rfl, hisShare⟩]
      simpa using hrooted
    · rw [if_neg (by simp [hisShare])]
      simpa [ntSplitRoot_unc hunc] using hsplit

theorem ntSplitRoot_reread_drive {q drive root rel tail : List Char}
    (hunc : ¬ ['\\', '\\'] <+: q) (h : ntSplitRoot q = (drive, root, rel))
    (hanchor : drive ≠ [] ∨ root ≠ []) (htail : tail.head? ≠ some '\\') :
    ntSplitRoot (drive ++ (if root = [] ∧ isShare drive then ['\\'] else root) ++ tail) =
      (drive, if root = [] ∧ isShare drive then ['\\'] else root, tail) := by
  unfold ntSplitRoot at h
  split at h
  · exact absurd (List.prefix_append _ _) hunc
  · cases h
    cases tail with
    | nil => rfl
    | cons c tail =>
        have hc : c ≠ '\\' := fun heq ↦ htail (by rw [heq]; rfl)
        simp [ntSplitRoot, hc]
  · next c rest hc =>
      cases h
      simp [ntSplitRoot]
  · next c rest hc hroot =>
      cases h
      have hne : c ≠ '\\' := hc
      have hdrive : isShare [c, ':'] = false := by
        have hone : [c, ':'].splitOn '\\' = [[c, ':']] :=
          splitOn_last (by simp [Ne.symm hne])
        rw [isShare, hone]
        simp
      rw [hdrive]
      cases tail with
      | nil => simp [ntSplitRoot]
      | cons d tail =>
          have hd : d ≠ '\\' := fun heq ↦ htail (by rw [heq]; rfl)
          simp [ntSplitRoot, hd]
  · cases h
    simp at hanchor

/-- How the text of an anchored path is taken apart. -/
theorem ntSplitRoot_anchored {q drive root rel tail : List Char}
    (h : ntSplitRoot q = (drive, root, rel)) (hanchor : drive ≠ [] ∨ root ≠ [])
    (htail : tail.head? ≠ some '\\') (hrel : rel = [] → tail = []) :
    ntSplitRoot (drive ++ (if root = [] ∧ isShare drive then ['\\'] else root) ++ tail) =
      (drive, if root = [] ∧ isShare drive then ['\\'] else root, tail) := by
  by_cases hunc : ['\\', '\\'] <+: q
  · exact ntSplitRoot_reread_unc hunc h hrel
  · exact ntSplitRoot_reread_drive hunc h hanchor htail

theorem windows_parse_anchored {q drive root rel : List Char}
    (h : ntSplitRoot q = (drive, root, rel)) (hslash : '/' ∉ q)
    (hanchor : drive ≠ [] ∨ (if root = [] ∧ isShare drive then ['\\'] else root) ≠ []) :
    PurePath.windows (Flavour.windows.text
      ⟨drive, if root = [] ∧ isShare drive then ['\\'] else root, splitParts '\\' rel⟩) =
      ⟨drive, if root = [] ∧ isShare drive then ['\\'] else root, splitParts '\\' rel⟩ := by
  have hplain := plainParts_splitParts '\\' rel
  have htail : splitParts '\\' rel = [] → joinParts '\\' (splitParts '\\' rel) = [] := by
    intro hnil
    rw [hnil]
    rfl
  have hback : ntSplitRoot (drive ++ (if root = [] ∧ isShare drive then ['\\'] else root) ++
      joinParts '\\' (splitParts '\\' rel)) =
        (drive, if root = [] ∧ isShare drive then ['\\'] else root,
          joinParts '\\' (splitParts '\\' rel)) := by
    apply ntSplitRoot_anchored h _ (head_joinParts hplain)
    · rintro rfl
      exact htail rfl
    · by_cases hdrive : drive = []
      · right
        subst hdrive
        simpa [isShare] using hanchor
      · exact .inl hdrive
  have htext := slash_notMem_windows q
  rw [windows_of_split hslash h] at htext
  have hnone := slash_notMem_text htext.1 htext.2.1 htext.2.2
  have hformat : Flavour.windows.text
      ⟨drive, if root = [] ∧ isShare drive then ['\\'] else root, splitParts '\\' rel⟩ =
        drive ++ (if root = [] ∧ isShare drive then ['\\'] else root) ++
          joinParts '\\' (splitParts '\\' rel) := by
    rw [Flavour.text, Flavour.format, if_pos hanchor, if_neg]
    · rfl
    · rcases hanchor with hdrive | hroot
      · simp [hdrive]
      · simp [hroot]
  rw [hformat] at hnone ⊢
  rw [windows_of_split hnone hback, splitParts_joinParts hplain]
  congr 1
  split_ifs <;> simp_all

/-- A part that does not look like a drive begins a relative path. -/
theorem ntSplitRoot_relative {part : String} {parts : FilePath}
    (hplain : PlainParts '\\' (part :: parts)) (hslash : '/' ∉ part.toList)
    (hdrive : Flavour.windows.driveOf part.toList = []) :
    ntSplitRoot (joinParts '\\' (part :: parts)) =
      ([], [], joinParts '\\' (part :: parts)) := by
  have hhead := head_joinParts hplain
  rcases ntSplitRoot_cases (joinParts '\\' (part :: parts)) with ⟨⟨rest, hjoin⟩, -⟩ |
      ⟨c, rest, hjoin, hc, -⟩ | ⟨rest, hjoin, -, -⟩ | ⟨-, -, hsplit⟩
  · rw [hjoin] at hhead
    exact absurd rfl hhead
  · exfalso
    change (ntSplitRoot (backslashed part.toList)).1 = [] at hdrive
    rw [backslashed_of_notMem hslash] at hdrive
    have hpart := (hplain part List.mem_cons_self).1
    rw [joinParts_cons] at hjoin
    rcases ntSplitRoot_cases part.toList with ⟨-, habs⟩ | ⟨-, -, -, -, habs⟩ |
        ⟨rest', hpart', -, -⟩ | ⟨-, hcolon, -⟩
    · exact habs hdrive
    · exact habs hdrive
    · rw [hpart', List.cons_append] at hjoin
      exact hc (List.cons.inj hjoin).1.symm
    · cases hname : part.toList with
      | nil => exact hpart hname
      | cons d name =>
          rw [hname] at hjoin hcolon
          cases name with
          | nil => split_ifs at hjoin <;> simp at hjoin
          | cons e name =>
              have he : e = ':' := by
                simp only [List.cons_append, List.cons.injEq] at hjoin
                exact hjoin.2.1
              exact hcolon (by simp [he])
  · rw [hjoin] at hhead
    exact absurd rfl hhead
  · exact hsplit

theorem windows_parse_relative {parts : FilePath} (hplain : PlainParts '\\' parts)
    (hslash : ∀ part ∈ parts, '/' ∉ part.toList) :
    PurePath.windows (Flavour.windows.text ⟨[], [], parts⟩) = ⟨[], [], parts⟩ := by
  have hnone : '/' ∉ Flavour.windows.text ⟨[], [], parts⟩ :=
    slash_notMem_text (by simp) (by simp) hslash
  have hshare : isShare [] = false := rfl
  cases parts with
  | nil => rfl
  | cons part parts =>
      have hpart := (hplain part List.mem_cons_self).1
      unfold Flavour.text Flavour.format at hnone ⊢
      have hseparator : Flavour.windows.separator = '\\' := rfl
      simp only [ne_eq, not_true, or_self, if_false, hseparator] at hnone ⊢
      by_cases hdrive : Flavour.windows.driveOf part.toList = []
      · simp only [hdrive, not_true, if_false] at hnone ⊢
        have hjoin : joinParts '\\' (part :: parts) ≠ [] := by
          rw [joinParts_cons]
          simp [hpart]
        rw [if_neg hjoin] at hnone ⊢
        have hsplit := ntSplitRoot_relative hplain (hslash part List.mem_cons_self) hdrive
        rw [windows_of_split hnone hsplit, splitParts_joinParts hplain, hshare]
        rfl
      · simp only [hdrive, not_false_eq_true, if_true] at hnone ⊢
        have hjoin : joinParts '\\' ("." :: part :: parts) =
            '.' :: '\\' :: joinParts '\\' (part :: parts) := by
          rw [joinParts_cons]
          rfl
        have hsplit : ntSplitRoot (joinParts '\\' ("." :: part :: parts)) =
            ([], [], joinParts '\\' ("." :: part :: parts)) := by
          rw [hjoin]
          simp [ntSplitRoot]
        have hdot := splitParts_joinParts_dot (by decide) hplain
        rw [if_neg (by simp [hjoin])] at hnone ⊢
        rw [windows_of_split hnone hsplit, hdot, hshare]
        rfl

theorem windows_parse_text (path : List Char) :
    PurePath.windows (Flavour.windows.text (PurePath.windows path)) = PurePath.windows path := by
  obtain ⟨hdrive, hroot, hparts⟩ := slash_notMem_windows path
  have hplain : PlainParts '\\' (PurePath.windows path).parts :=
    plainParts_splitParts '\\' _
  by_cases hanchor : (PurePath.windows path).drive ≠ [] ∨ (PurePath.windows path).root ≠ []
  · exact windows_parse_anchored rfl (not_mem_backslashed path) hanchor
  · simp only [ne_eq, not_or, not_not] at hanchor
    generalize PurePath.windows path = p at hanchor hplain hparts
    obtain ⟨drive, root, parts⟩ := p
    obtain ⟨rfl, rfl⟩ : drive = [] ∧ root = [] := hanchor
    exact windows_parse_relative hplain hparts

/-! ## Both -/

/-- `Path(str(path)) == path`. -/
theorem Flavour.parse_text (flavour : Flavour) (path : List Char) :
    flavour.parse (flavour.text (flavour.parse path)) = flavour.parse path := by
  cases flavour with
  | posix => exact posix_parse_text path
  | windows => exact windows_parse_text path

end SecureSync
