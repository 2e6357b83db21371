import SecureSync.Infrastructure.LocalFileReconstructor
import SecureSync.Library.Raising

/-!
# File reconstruction on a disk that fails

`local_file_reconstructor.py` once more, call by call: the operating system says
which directories there are and which calls raise `OSError`.
-/

namespace SecureSync

open Raising

namespace PartPath

variable (part : PartPath)

def directory : FilePath := part.destination.dropLast

/-- The name that `mkstemp` makes of its prefix, its random part and its suffix. -/
def name : String :=
  "." ++ part.destination.getLast?.getD "" ++ "." ++ toString part.token ++ ".part"

def path : FilePath := part.directory ++ [part.name]

end PartPath

namespace Path

def directory : Path → FilePath
  | .file path => path.dropLast
  | .part p => p.directory

def path : Path → FilePath
  | .file path => path
  | .part p => p.path

end Path

/-- The files and directories that an operation creates, writes, renames or deletes. -/
def FsOp.touched : FsOp → List FilePath
  | .mkdir directory => [directory]
  | .create part => [part.path]
  | .write path _ => [path.path]
  | .replace part destination _ _ => [part.path, destination]
  | .unlink part => [part.path]

/-! ## System calls -/

inductive SysCall where
  | mkdir (directory : FilePath)
  | mkstemp (directory : FilePath)
  | close (part : PartPath)
  | stat (path : FilePath)
  | copyfile (source : FilePath)
  | openFile (path : Path)
  | write (path : Path)
  | rename (part : PartPath) (destination : FilePath)
  | unlink (part : PartPath)
  deriving DecidableEq, Repr

structure OsError where
  deriving DecidableEq, Repr

/-- What the operating system answers while one event is handled.  A write that
raises has let `written` bytes through. -/
structure Os where
  isDirectory : Storage → FilePath → Bool
  raises : SysCall → Bool
  written : Path → Chunk → ℕ

abbrev DiskM := EStateM OsError Storage

namespace Storage

variable (s : Storage)

def make (directory : FilePath) : Storage := { s with journal := s.journal ++ [.mkdir directory] }

def fresh (destination : FilePath) : PartPath := ⟨destination, s.nextToken⟩

/-- An empty temporary file. -/
def create (destination : FilePath) : Storage where
  files := Function.update s.files (.part (s.fresh destination)) (some [])
  nextToken := s.nextToken + 1
  journal := s.journal ++ [.create (s.fresh destination)]

def copy (destination : FilePath) (part : PartPath) : Storage :=
  { s with
    files := Function.update s.files (.part part)
      (some ((s.files (.file destination)).getD [])) }

end Storage

@[simp] theorem Storage.files_file_create (s : Storage) (destination p : FilePath) :
    (s.create destination).files (.file p) = s.files (.file p) := by
  simp only [create]
  exact Function.update_of_ne (by simp) _ _

/-- The first bytes of a chunk. -/
def Chunk.cut (chunk : Chunk) (count : ℕ) : Chunk where
  metadata := { chunk.metadata with size := (chunk.data.take count).length }
  data := chunk.data.take count
  length_eq := rfl

namespace Os

variable (os : Os)

def call (call : SysCall) : DiskM Unit := if os.raises call then throw ⟨⟩ else pure ()

/-- `os.mkdir` on a path that is no directory. -/
def makeDirectory (directory : FilePath) : DiskM Unit := do
  os.call (.mkdir directory)
  if ((← get).files (.file directory)).isSome then throw ⟨⟩
  modify fun s ↦ s.make directory

/-- `Path.mkdir(parents=True, exist_ok=True)`, with the components of the path
from the last to the first. -/
def makeDirectories : List String → DiskM Unit
  | [] => do
      unless os.isDirectory (← get) [] do throw ⟨⟩
  | name :: parents => do
      unless os.isDirectory (← get) (name :: parents).reverse do
        makeDirectories parents
        os.makeDirectory (name :: parents).reverse

def createPartial (destination : FilePath) : DiskM PartPath := do
  os.makeDirectories destination.dropLast.reverse
  os.call (.mkstemp destination.dropLast)
  let s ← get
  set (s.create destination)
  return s.fresh destination

/-- `Path.exists`. -/
def exists? (s : Storage) (path : FilePath) : Bool :=
  (s.files (.file path)).isSome || os.isDirectory s path

def seedPartial (destination : FilePath) (part : PartPath) : DiskM Unit := do
  os.call (.close part)
  os.call (.stat destination)
  let s ← get
  if os.exists? s destination then
    if os.isDirectory s destination then throw ⟨⟩
    os.call (.copyfile destination)
    set (s.copy destination part)

def beginPartial (destination : FilePath) : EStateM ChunkEngineError Storage PartPath :=
  EStateM.adaptExcept (fun _ ↦ .startPartial destination) do
    let part ← os.createPartial destination
    os.seedPartial destination part
    return part

def writeAll (path : Path) (chunk : Chunk) : DiskM Unit := do
  os.makeDirectories path.directory.reverse
  os.call (.openFile path)
  if os.raises (.write path) then
    modify (Storage.writeChunkAtOffset path (chunk.cut (os.written path chunk)))
    throw ⟨⟩
  modify (Storage.writeChunkAtOffset path chunk)

def writeChunkAtOffset (path : Path) (chunk : Chunk) : EStateM ChunkEngineError Storage Unit :=
  EStateM.adaptExcept (fun _ ↦ .writeChunk chunk.metadata.chunkId path chunk.metadata.offset)
    (os.writeAll path chunk)

/-- `os.replace`. -/
def rename (destination : FilePath) (part : PartPath) : DiskM Unit := do
  os.call (.rename part destination)
  let s ← get
  if os.isDirectory s destination then throw ⟨⟩
  match s.files (.part part) with
  | none => throw ⟨⟩
  | some bytes => set (s.replace part destination bytes)

def commitPartial (destination : FilePath) (part : PartPath) :
    EStateM ChunkEngineError Storage Unit :=
  EStateM.adaptExcept (fun _ ↦ .commitPartial destination) (os.rename destination part)

/-- A failure of this clean-up is only logged. -/
def abortPartial (part : PartPath) (s : Storage) : Storage :=
  if os.raises (.unlink part) then s else s.unlink part

def fileReconstructor : FileReconstructor where
  writeChunkAtOffset := os.writeChunkAtOffset
  beginPartial := os.beginPartial
  commitPartial := os.commitPartial
  abortPartial := os.abortPartial

end Os

/-! ## What the calls leave behind -/

/-- The journal goes on with operations of one kind. -/
def Storage.Extends (Q : FsOp → Prop) (s t : Storage) : Prop :=
  ∃ ops, t.journal = s.journal ++ ops ∧ ∀ op ∈ ops, Q op

namespace Storage

variable {Q : FsOp → Prop} {s t u : Storage}

theorem extends_refl (Q : FsOp → Prop) (s : Storage) : s.Extends Q s :=
  ⟨[], (List.append_nil _).symm, List.forall_mem_nil _⟩

theorem extends_trans (Q : FsOp → Prop) (s t u : Storage) (h : s.Extends Q t)
    (h' : t.Extends Q u) : s.Extends Q u := by
  obtain ⟨ops, hjournal, hops⟩ := h
  obtain ⟨ops', hjournal', hops'⟩ := h'
  refine ⟨ops ++ ops', ?_, List.forall_mem_append.mpr ⟨hops, hops'⟩⟩
  rw [hjournal', hjournal, List.append_assoc]

theorem extends_one {op : FsOp} (h : t.journal = s.journal ++ [op]) (hop : Q op) :
    s.Extends Q t :=
  ⟨[op], h, List.forall_mem_singleton.mpr hop⟩

/-- If the journal kept to one kind before, it does so afterwards. -/
theorem Extends.forall_mem (h : s.Extends Q t) (hs : ∀ op ∈ s.journal, Q op) :
    ∀ op ∈ t.journal, Q op := by
  obtain ⟨ops, hjournal, hops⟩ := h
  rw [hjournal]
  exact List.forall_mem_append.mpr ⟨hs, hops⟩

end Storage

namespace Os

variable {os : Os} {Q : FsOp → Prop} {destination : FilePath} {part : PartPath}

theorem stateOf_call (c : SysCall) (s : Storage) : stateOf (os.call c s) = s := by
  unfold call
  split_ifs <;> rfl

theorem call_eq_ok {c : SysCall} {s t : Storage} {u : Unit} :
    os.call c s = .ok u t ↔ os.raises c = false ∧ s = t := by
  unfold call
  cases os.raises c <;> simp [throw_run, pure_run]

theorem advances_makeDirectory {r : Storage → Storage → Prop} (hrefl : ∀ s, r s s)
    {directory : FilePath} (hmake : ∀ s, r s (s.make directory)) :
    Advances r (os.makeDirectory directory) := by
  intro s
  unfold makeDirectory call
  cases os.raises (.mkdir directory) with
  | true => exact hrefl s
  | false =>
      simp only [bind_run, Bool.false_eq_true, if_false, pure_run, get_run]
      split_ifs
      · exact hrefl s
      · exact hmake s

/-- A relation that holds when a missing directory is made holds when all are. -/
theorem advances_makeDirectories {r : Storage → Storage → Prop} (hrefl : ∀ s, r s s)
    (htrans : ∀ s t u, r s t → r t u → r s u) {names : List String}
    (hmake : ∀ s directory, directory <+: names.reverse →
      (∃ t, os.isDirectory t directory = false) → r s (s.make directory)) :
    Advances r (os.makeDirectories names) := by
  induction names with
  | nil =>
      intro s
      simp only [makeDirectories, bind_run, get_run]
      split_ifs <;> exact hrefl s
  | cons name parents ih =>
      intro s
      simp only [makeDirectories, bind_run, get_run]
      split_ifs with hdirectory
      · exact hrefl s
      · have hparents : Advances r (os.makeDirectories parents) := by
          apply ih
          intro s directory hbelow
          rw [List.reverse_cons] at hmake
          exact hmake s directory (hbelow.trans (List.prefix_append _ _))
        have hlast : Advances r (os.makeDirectory (name :: parents).reverse) := by
          apply advances_makeDirectory hrefl
          exact fun s ↦ hmake s _ (List.prefix_refl _) ⟨_, Bool.not_eq_true _ ▸ hdirectory⟩
        exact hparents.bind htrans (fun _ ↦ hlast) s

section Calls

variable {r : Storage → Storage → Prop}

theorem advances_createPartial (hrefl : ∀ s, r s s) (htrans : ∀ s t u, r s t → r t u → r s u)
    (hmake : ∀ s directory, directory <+: destination.dropLast →
      (∃ t, os.isDirectory t directory = false) → r s (s.make directory))
    (hcreate : ∀ s, r s (s.create destination)) : Advances r (os.createPartial destination) := by
  have hdirectories : Advances r (os.makeDirectories destination.dropLast.reverse) := by
    apply advances_makeDirectories hrefl htrans
    rwa [List.reverse_reverse]
  refine hdirectories.bind htrans fun _ ↦ ?_
  refine (advances_of_refl hrefl (stateOf_call _)).bind htrans fun _ ↦ ?_
  exact hcreate

theorem advances_seedPartial (hrefl : ∀ s, r s s) (htrans : ∀ s t u, r s t → r t u → r s u)
    (hcopy : ∀ s, r s (s.copy destination part)) :
    Advances r (os.seedPartial destination part) := by
  refine (advances_of_refl hrefl (stateOf_call _)).bind htrans fun _ ↦ ?_
  refine (advances_of_refl hrefl (stateOf_call _)).bind htrans fun _ s ↦ ?_
  simp only [bind_run, get_run]
  split_ifs
  · exact hrefl s
  · unfold call
    cases os.raises (.copyfile destination) with
    | true => exact hrefl s
    | false => exact hcopy s
  · exact hrefl s

/-- What is written is the chunk or, if the write raises, a first part of it. -/
theorem advances_writeAll_cut (hrefl : ∀ s, r s s) (htrans : ∀ s t u, r s t → r t u → r s u)
    {path : Path} (hmake : ∀ s directory, directory <+: path.directory →
      (∃ t, os.isDirectory t directory = false) → r s (s.make directory)) {chunk : Chunk}
    (hcut : ∀ s count, r s (s.writeChunkAtOffset path (chunk.cut count)))
    (hwrite : ∀ s, r s (s.writeChunkAtOffset path chunk)) :
    Advances r (os.writeAll path chunk) := by
  have hdirectories : Advances r (os.makeDirectories path.directory.reverse) := by
    apply advances_makeDirectories hrefl htrans
    rwa [List.reverse_reverse]
  refine hdirectories.bind htrans fun _ ↦ ?_
  refine (advances_of_refl hrefl (stateOf_call _)).bind htrans fun _ s ↦ ?_
  split_ifs
  · exact hcut s _
  · exact hwrite s

theorem advances_writeAll (hrefl : ∀ s, r s s) (htrans : ∀ s t u, r s t → r t u → r s u)
    {path : Path} (hmake : ∀ s directory, directory <+: path.directory →
      (∃ t, os.isDirectory t directory = false) → r s (s.make directory))
    (hwrite : ∀ s chunk, r s (s.writeChunkAtOffset path chunk)) (chunk : Chunk) :
    Advances r (os.writeAll path chunk) :=
  advances_writeAll_cut hrefl htrans hmake (fun s _ ↦ hwrite s _) (fun s ↦ hwrite s chunk)

theorem advances_rename (hrefl : ∀ s, r s s) (htrans : ∀ s t u, r s t → r t u → r s u)
    (hreplace : ∀ s bytes, r s (s.replace part destination bytes)) :
    Advances r (os.rename destination part) := by
  refine (advances_of_refl hrefl (stateOf_call _)).bind htrans fun _ s ↦ ?_
  simp only [bind_run, get_run]
  split_ifs
  · exact hrefl s
  · cases s.files (.part part) with
    | none => exact hrefl s
    | some bytes => exact hreplace s bytes

theorem rename_eq_ok {s s' : Storage} {u : Unit} (h : os.rename destination part s = .ok u s') :
    ∃ bytes, s.files (.part part) = some bytes ∧ s' = s.replace part destination bytes := by
  obtain ⟨_, t, hcall, h⟩ := bind_eq_ok.mp h
  obtain ⟨-, rfl⟩ := call_eq_ok.mp hcall
  simp only [bind_run, get_run] at h
  split_ifs at h
  · cases h
  · cases hfile : s.files (.part part) with
    | none =>
        rw [hfile] at h
        cases h
    | some bytes =>
        rw [hfile] at h
        cases h
        exact ⟨bytes, rfl, rfl⟩

theorem rename_eq_error {s s' : Storage} {e : OsError}
    (h : os.rename destination part s = .error e s') : s' = s := by
  unfold rename call at h
  cases hcall : os.raises (.rename part destination) with
  | true =>
      rw [hcall] at h
      cases h
      rfl
  | false =>
      simp only [hcall, bind_run, Bool.false_eq_true, if_false, pure_run, get_run] at h
      split_ifs at h
      · cases h
        rfl
      · cases hfile : s.files (.part part) with
        | none =>
            rw [hfile] at h
            cases h
            rfl
        | some bytes =>
            rw [hfile] at h
            cases h

end Calls

theorem makeDirectories_of_isDirectory {s : Storage} {names : List String}
    (h : os.isDirectory s names.reverse = true) : os.makeDirectories names s = .ok () s := by
  cases names with
  | nil =>
      rw [List.reverse_nil] at h
      simp only [makeDirectories, bind_run, get_run, h, if_true, pure_run]
  | cons name parents =>
      simp only [makeDirectories, bind_run, get_run, h, if_true, pure_run]

theorem createPartial_eq_ok {s s' : Storage} (h : os.createPartial destination s = .ok part s') :
    ∃ t, os.makeDirectories destination.dropLast.reverse s = .ok () t ∧
      part = t.fresh destination ∧ s' = t.create destination := by
  obtain ⟨_, t, hmake, h⟩ := bind_eq_ok.mp h
  obtain ⟨_, t', hcall, h⟩ := bind_eq_ok.mp h
  obtain ⟨-, rfl⟩ := call_eq_ok.mp hcall
  cases h
  exact ⟨t, hmake, rfl, rfl⟩

/-- Nothing after `mkstemp` raises. -/
def CanSeed (os : Os) (destination : FilePath) (part : PartPath) (s : Storage) : Prop :=
  os.raises (.close part) = false ∧ os.raises (.stat destination) = false ∧
    (os.exists? s destination = true →
      os.isDirectory s destination = false ∧ os.raises (.copyfile destination) = false)

instance (destination : FilePath) (part : PartPath) (s : Storage) :
    Decidable (os.CanSeed destination part s) :=
  inferInstanceAs (Decidable (_ ∧ _ ∧ (_ → _)))

theorem seedPartial_eq_ok {s s' : Storage} :
    os.seedPartial destination part s = .ok () s' ↔ os.CanSeed destination part s ∧
      (if os.exists? s destination = true then s.copy destination part else s) = s' := by
  simp only [seedPartial, CanSeed, bind_eq_ok, call_eq_ok, get_run]
  constructor
  · rintro ⟨_, _, ⟨hclose, rfl⟩, _, _, ⟨hstat, rfl⟩, _, _, ⟨⟩, h⟩
    split_ifs at h ⊢ with hexists hdirectory
    · cases h
    · obtain ⟨_, _, hcall, h⟩ := bind_eq_ok.mp h
      obtain ⟨hcopy, rfl⟩ := call_eq_ok.mp hcall
      cases h
      exact ⟨⟨hclose, hstat, fun _ ↦ ⟨Bool.eq_false_of_not_eq_true hdirectory, hcopy⟩⟩, rfl⟩
    · cases h
      exact ⟨⟨hclose, hstat, fun habs ↦ absurd habs hexists⟩, rfl⟩
  · rintro ⟨⟨hclose, hstat, hcopy⟩, rfl⟩
    refine ⟨(), s, ⟨hclose, rfl⟩, (), s, ⟨hstat, rfl⟩, s, s, rfl, ?_⟩
    split_ifs with hexists hdirectory
    · rw [(hcopy hexists).1] at hdirectory
      cases hdirectory
    · exact bind_eq_ok.mpr ⟨(), s, call_eq_ok.mpr ⟨(hcopy hexists).2, rfl⟩, rfl⟩
    · rfl

theorem beginPartial_eq_ok {s s' : Storage} :
    os.beginPartial destination s = .ok part s' ↔ ∃ t,
      os.createPartial destination s = .ok part t ∧
        os.seedPartial destination part t = .ok () s' := by
  simp only [beginPartial, adaptExcept_eq_ok, bind_eq_ok, pure_eq_ok]
  constructor
  · rintro ⟨_, t, hcreate, _, _, hseed, rfl, rfl⟩
    exact ⟨t, hcreate, hseed⟩
  · rintro ⟨t, hcreate, hseed⟩
    exact ⟨part, t, hcreate, (), s', hseed, rfl, rfl⟩

/-! ## A disk that serves every request -/

section Serves

variable (hserves : ∀ c, os.raises c = false)
  (hparent : ∀ s, os.isDirectory s destination.dropLast = true)
  (hfile : ∀ s, os.isDirectory s destination = false)

include hserves in
theorem call_of_serves (c : SysCall) (s : Storage) : os.call c s = .ok () s :=
  call_eq_ok.mpr ⟨hserves c, rfl⟩

include hserves hparent hfile in
theorem beginPartial_of_serves (s : Storage) :
    os.beginPartial destination s = localFileReconstructor.beginPartial destination s := by
  have hmake : os.makeDirectories destination.dropLast.reverse s = .ok () s := by
    apply makeDirectories_of_isDirectory
    rw [List.reverse_reverse]
    exact hparent s
  have hcreate : os.createPartial destination s =
      .ok (s.fresh destination) (s.create destination) := by
    simp only [createPartial, bind_run, hmake, call_of_serves hserves]
    rfl
  have hseed : os.seedPartial destination (s.fresh destination) (s.create destination) =
      .ok () (s.beginPartial destination).2 := by
    refine seedPartial_eq_ok.mpr ⟨⟨hserves _, hserves _, fun _ ↦ ⟨hfile _, hserves _⟩⟩, ?_⟩
    have hkept := s.files_file_create destination destination
    rw [exists?, hfile, Bool.or_false, hkept]
    split_ifs with hexists
    · rw [Storage.copy, hkept]
      simp only [Storage.create, Function.update_idem]
      rfl
    · rw [Storage.beginPartial, Option.not_isSome_iff_eq_none.mp hexists]
      rfl
  exact beginPartial_eq_ok.mpr ⟨_, hcreate, hseed⟩

include hserves hfile in
theorem commitPartial_of_serves (part : PartPath) (s : Storage) :
    os.commitPartial destination part s =
      localFileReconstructor.commitPartial destination part s := by
  unfold commitPartial rename EStateM.adaptExcept localFileReconstructor
  simp only [bind_run, call_of_serves hserves, get_run, hfile, Bool.false_eq_true, if_false]
  cases s.files (.part part) <;> rfl

include hserves in
theorem writeChunkAtOffset_of_serves {path : Path}
    (hdirectory : ∀ s, os.isDirectory s path.directory = true) (chunk : Chunk) (s : Storage) :
    os.writeChunkAtOffset path chunk s =
      localFileReconstructor.writeChunkAtOffset path chunk s := by
  have hmake : os.makeDirectories path.directory.reverse s = .ok () s := by
    apply makeDirectories_of_isDirectory
    rw [List.reverse_reverse]
    exact hdirectory s
  unfold writeChunkAtOffset writeAll EStateM.adaptExcept
  simp only [bind_run, hmake, call_of_serves hserves, hserves, Bool.false_eq_true, if_false]
  rfl

end Serves

end Os
end SecureSync
