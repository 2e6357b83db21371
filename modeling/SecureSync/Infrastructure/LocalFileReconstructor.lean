import SecureSync.Domain.Chunk
import Mathlib.Logic.Function.Basic

/-!
# Local storage and file reconstruction

The `FileReconstructor` port of `domain/reconstruction.py` and its adapter
`infrastructure/chunking/local_file_reconstructor.py` on a disk that serves
every request and has every directory.
-/

namespace SecureSync

/-- A temporary file of `tempfile.mkstemp`.  It lies in the directory of
`destination`; `token` stands for the random part of its name, which no peer
can name. -/
structure PartPath where
  destination : FilePath
  token : ℕ
  deriving DecidableEq, Repr

inductive Path where
  | file (path : FilePath)
  | part (path : PartPath)
  deriving DecidableEq, Repr

inductive FsOp where
  | mkdir (directory : FilePath)
  | create (part : PartPath)
  | write (path : Path) (chunk : Chunk)
  | replace (part : PartPath) (destination : FilePath) (before : Option Bytes) (after : Bytes)
  | unlink (part : PartPath)
  deriving DecidableEq

/-- The files of one device, under their resolved paths, with a journal of the
operations carried out so far, oldest first. -/
structure Storage where
  files : Path → Option Bytes
  nextToken : ℕ
  journal : List FsOp

inductive ChunkEngineError where
  | startPartial (destination : FilePath)
  | writeChunk (chunkId : String) (path : Path) (offset : ℕ)
  | commitPartial (destination : FilePath)
  deriving DecidableEq, Repr

structure FileReconstructor where
  writeChunkAtOffset : Path → Chunk → EStateM ChunkEngineError Storage Unit
  beginPartial : FilePath → EStateM ChunkEngineError Storage PartPath
  commitPartial : FilePath → PartPath → EStateM ChunkEngineError Storage Unit
  abortPartial : PartPath → Storage → Storage

namespace Storage

def ofFiles (files : FilePath → Option Bytes) : Storage where
  files
    | .file p => files p
    | .part _ => none
  nextToken := 0
  journal := []

/-- `r+b` on an existing file, `w+b` otherwise; then seek and write. -/
def writeChunkAtOffset (path : Path) (chunk : Chunk) (s : Storage) : Storage :=
  { s with
    files := Function.update s.files path
      (some (Overlay.writeAt 0 ((s.files path).getD []) chunk.piece))
    journal := s.journal ++ [.write path chunk] }

/-- A fresh temporary file, seeded with the destination's bytes when it
exists. -/
def beginPartial (destination : FilePath) (s : Storage) : PartPath × Storage :=
  (⟨destination, s.nextToken⟩,
    { files := Function.update s.files (.part ⟨destination, s.nextToken⟩)
        (some ((s.files (.file destination)).getD []))
      nextToken := s.nextToken + 1
      journal := s.journal ++ [.create ⟨destination, s.nextToken⟩] })

/-- `os.replace`. -/
def replace (part : PartPath) (destination : FilePath) (bytes : Bytes) (s : Storage) : Storage :=
  { s with
    files := Function.update (Function.update s.files (.part part) none) (.file destination)
      (some bytes)
    journal := s.journal ++ [.replace part destination (s.files (.file destination)) bytes] }

/-- `unlink(missing_ok=True)`. -/
def unlink (part : PartPath) (s : Storage) : Storage :=
  { s with
    files := Function.update s.files (.part part) none
    journal := s.journal ++ [.unlink part] }

end Storage

def localFileReconstructor : FileReconstructor where
  writeChunkAtOffset path chunk := fun s ↦ .ok () (s.writeChunkAtOffset path chunk)
  beginPartial destination := fun s ↦
    .ok (s.beginPartial destination).1 (s.beginPartial destination).2
  commitPartial destination part := fun s ↦
    match s.files (.part part) with
    | none => .error (.commitPartial destination) s
    | some bytes => .ok () (s.replace part destination bytes)
  abortPartial part := Storage.unlink part

/-! ## What each operation leaves behind -/

namespace Storage

variable (s : Storage) (path : Path) (chunk : Chunk) (part : PartPath) (destination : FilePath)
  (bytes : Bytes)

@[simp] theorem files_writeChunkAtOffset_self :
    (s.writeChunkAtOffset path chunk).files path =
      some (Overlay.writeAt 0 ((s.files path).getD []) chunk.piece) :=
  Function.update_self ..

theorem files_writeChunkAtOffset_of_ne {q : Path} (h : q ≠ path) :
    (s.writeChunkAtOffset path chunk).files q = s.files q :=
  Function.update_of_ne h ..

@[simp] theorem files_file_writeChunkAtOffset_part (p : FilePath) :
    (s.writeChunkAtOffset (.part part) chunk).files (.file p) = s.files (.file p) :=
  s.files_writeChunkAtOffset_of_ne _ chunk (by simp)

@[simp] theorem journal_writeChunkAtOffset :
    (s.writeChunkAtOffset path chunk).journal = s.journal ++ [.write path chunk] := rfl

@[simp] theorem files_beginPartial_self :
    (s.beginPartial destination).2.files (.part ⟨destination, s.nextToken⟩) =
      some ((s.files (.file destination)).getD []) :=
  Function.update_self ..

theorem files_beginPartial_of_ne {q : Path} (h : q ≠ .part ⟨destination, s.nextToken⟩) :
    (s.beginPartial destination).2.files q = s.files q :=
  Function.update_of_ne h ..

@[simp] theorem files_file_beginPartial (p : FilePath) :
    (s.beginPartial destination).2.files (.file p) = s.files (.file p) :=
  s.files_beginPartial_of_ne destination (by simp)

@[simp] theorem nextToken_beginPartial :
    (s.beginPartial destination).2.nextToken = s.nextToken + 1 := rfl

@[simp] theorem journal_beginPartial :
    (s.beginPartial destination).2.journal =
      s.journal ++ [.create ⟨destination, s.nextToken⟩] := rfl

@[simp] theorem files_replace_destination :
    (s.replace part destination bytes).files (.file destination) = some bytes :=
  Function.update_self ..

theorem files_replace_of_ne {q : Path} (hpart : q ≠ .part part) (hfile : q ≠ .file destination) :
    (s.replace part destination bytes).files q = s.files q := by
  simp only [replace, Function.update_of_ne hfile, Function.update_of_ne hpart]

@[simp] theorem journal_replace :
    (s.replace part destination bytes).journal =
      s.journal ++ [.replace part destination (s.files (.file destination)) bytes] := rfl

theorem files_unlink_of_ne {q : Path} (h : q ≠ .part part) :
    (s.unlink part).files q = s.files q :=
  Function.update_of_ne h ..

@[simp] theorem files_file_unlink (p : FilePath) :
    (s.unlink part).files (.file p) = s.files (.file p) :=
  s.files_unlink_of_ne part (by simp)

@[simp] theorem journal_unlink : (s.unlink part).journal = s.journal ++ [.unlink part] := rfl

end Storage
end SecureSync
