import SecureSync.Library.Overlay
import Mathlib.Algebra.GroupWithZero.Nat

/-!
# Chunks and manifests

The value objects of `domain/chunk.py`.  What a `__post_init__` rejects is
excluded here by a field of the structure, so every chunk, digest and manifest
that exists is one the source would have built.
-/

namespace SecureSync

abbrev Bytes := List UInt8

instance lawfulBEqBytes : LawfulBEq Bytes := inferInstance

/-- The components of a resolved path below the file-system root. -/
abbrev FilePath := List String

/-! ## Digests -/

inductive ChunkAlgorithm where
  | sha256
  deriving DecidableEq, Repr

def ChunkAlgorithm.value : ChunkAlgorithm → String
  | .sha256 => "sha256"

/-- `ChunkAlgorithm(value)`; an unknown value raises `ValueError`. -/
def ChunkAlgorithm.ofValue? (value : String) : Option ChunkAlgorithm :=
  if value = "sha256" then some .sha256 else none

def digestHexLength : ChunkAlgorithm → ℕ
  | .sha256 => 64

/-! ### What `int(digest, 16)` accepts

The interpreter maps Unicode decimal digits and spaces to ASCII, strips
spaces, takes an optional sign and an optional `0x`, and then reads hexadecimal
digits with single underscores between them. -/

/-- Code points of the zeros of the Unicode decimal digit blocks. -/
def decimalZeros : List ℕ :=
  [0x660, 0x6f0, 0x7c0, 0x966, 0x9e6, 0xa66, 0xae6, 0xb66, 0xbe6, 0xc66, 0xce6, 0xd66, 0xde6,
    0xe50, 0xed0, 0xf20, 0x1040, 0x1090, 0x17e0, 0x1810, 0x1946, 0x19d0, 0x1a80, 0x1a90, 0x1b50,
    0x1bb0, 0x1c40, 0x1c50, 0xa620, 0xa8d0, 0xa900, 0xa9d0, 0xa9f0, 0xaa50, 0xabf0, 0xff10,
    0x104a0, 0x10d30, 0x11066, 0x110f0, 0x11136, 0x111d0, 0x112f0, 0x11450, 0x114d0, 0x11650,
    0x116c0, 0x11730, 0x118e0, 0x11950, 0x11c50, 0x11d50, 0x11da0, 0x11f50, 0x16a60, 0x16ac0,
    0x16b50, 0x1d7ce, 0x1d7d8, 0x1d7e2, 0x1d7ec, 0x1d7f6, 0x1e140, 0x1e2f0, 0x1e4f0, 0x1e950,
    0x1fbf0]

/-- Code points above ASCII that the interpreter treats as spaces. -/
def unicodeSpaces : List ℕ :=
  [0x85, 0xa0, 0x1680, 0x2000, 0x2001, 0x2002, 0x2003, 0x2004, 0x2005, 0x2006, 0x2007, 0x2008,
    0x2009, 0x200a, 0x2028, 0x2029, 0x202f, 0x205f, 0x3000]

def asciiOf (c : Char) : Char :=
  if c.toNat < 127 then c
  else if unicodeSpaces.contains c.toNat then ' '
  else
    match decimalZeros.find? fun low ↦ low ≤ c.toNat && c.toNat < low + 10 with
    | some low => Char.ofNat (48 + (c.toNat - low))
    | none => '?'

def isAsciiSpace (c : Char) : Bool :=
  c = ' ' || (9 ≤ c.toNat && c.toNat ≤ 13)

def isHexDigit (c : Char) : Bool :=
  c.isDigit || ('a' ≤ c && c ≤ 'f') || ('A' ≤ c && c ≤ 'F')

def dropSign : List Char → List Char
  | '+' :: cs => cs
  | '-' :: cs => cs
  | cs => cs

def dropHexMark : List Char → List Char
  | '0' :: 'x' :: '_' :: cs => cs
  | '0' :: 'X' :: '_' :: cs => cs
  | '0' :: 'x' :: cs => cs
  | '0' :: 'X' :: cs => cs
  | cs => cs

/-- Read on through digits; `pending` says that an underscore still waits for
one.  Returns what follows the numeral. -/
def hexRun (pending : Bool) : List Char → Option (List Char)
  | [] => if pending then none else some []
  | c :: cs =>
      if isHexDigit c then hexRun false cs
      else if c = '_' then if pending then none else hexRun true cs
      else if pending then none else some (c :: cs)

def parsesBase16 (s : String) : Bool :=
  match dropHexMark (dropSign ((s.toList.map asciiOf).dropWhile isAsciiSpace)) with
  | [] => false
  | c :: cs =>
      isHexDigit c &&
        match hexRun false cs with
        | some rest => rest.all isAsciiSpace
        | none => false

/-- The checks of `ChunkHash.__post_init__`. -/
def DigestWellFormed (algorithm : ChunkAlgorithm) (digest : String) : Prop :=
  digest ≠ "" ∧ parsesBase16 digest = true ∧ digest.length = digestHexLength algorithm

instance (algorithm : ChunkAlgorithm) (digest : String) :
    Decidable (DigestWellFormed algorithm digest) :=
  inferInstanceAs (Decidable (_ ∧ _ ∧ _))

structure ChunkHash where
  algorithm : ChunkAlgorithm
  digest : String
  wellFormed : DigestWellFormed algorithm digest
  deriving DecidableEq

theorem ChunkHash.eq_of_digest_eq {h k : ChunkHash} (heq : h.digest = k.digest) : h = k := by
  obtain ⟨⟨⟩, d, _⟩ := h
  obtain ⟨⟨⟩, e, _⟩ := k
  cases heq
  rfl

theorem ChunkHash.digest_injective : Function.Injective ChunkHash.digest :=
  fun _ _ ↦ ChunkHash.eq_of_digest_eq

/-! ## Chunks -/

inductive ChunkValueError where
  | emptyDigest
  | notHexadecimal (digest : String)
  | digestLength (expected actual : ℕ)
  | unknownAlgorithm (value : String)
  | emptyChunkId
  | negativeIndex (index : ℤ)
  | negativeSize (size : ℤ)
  | negativeOffset (offset : ℤ)
  | dataLength (length size : ℕ)
  | chunkSizeNotPositive (chunkSize : ℕ)
  | notContiguous (expectedIndex : ℕ)
  | totalSize (actual declared : ℕ)
  deriving DecidableEq, Repr

def ChunkHash.make (algorithm : ChunkAlgorithm) (digest : String) :
    Except ChunkValueError ChunkHash :=
  if h : DigestWellFormed algorithm digest then .ok ⟨algorithm, digest, h⟩
  else if digest = "" then .error .emptyDigest
  else if parsesBase16 digest = false then .error (.notHexadecimal digest)
  else .error (.digestLength (digestHexLength algorithm) digest.length)

theorem ChunkHash.make_eq_ok {algorithm : ChunkAlgorithm} {digest : String}
    {chunkHash : ChunkHash} : ChunkHash.make algorithm digest = .ok chunkHash ↔
      chunkHash.algorithm = algorithm ∧ chunkHash.digest = digest := by
  unfold ChunkHash.make
  split_ifs with hwell
  · obtain ⟨algorithm', digest', hwell'⟩ := chunkHash
    simp [eq_comm]
  all_goals
    refine iff_of_false (by simp) ?_
    rintro ⟨rfl, rfl⟩
    exact hwell chunkHash.wellFormed

structure ChunkMetadata where
  chunkId : String
  index : ℕ
  size : ℕ
  offset : ℕ
  chunkHash : Option ChunkHash := none
  chunkId_ne : chunkId ≠ ""
  deriving DecidableEq

def ChunkMetadata.withHash (m : ChunkMetadata) (chunkHash : ChunkHash) : ChunkMetadata :=
  { m with chunkHash := some chunkHash }

/-- `ChunkMetadata(...)` on numbers that may still be negative. -/
def ChunkMetadata.make (chunkId : String) (index size offset : ℤ)
    (chunkHash : Option ChunkHash) : Except ChunkValueError ChunkMetadata :=
  if h : chunkId = "" then .error .emptyChunkId
  else if index < 0 then .error (.negativeIndex index)
  else if size < 0 then .error (.negativeSize size)
  else if offset < 0 then .error (.negativeOffset offset)
  else .ok ⟨chunkId, index.toNat, size.toNat, offset.toNat, chunkHash, h⟩

theorem ChunkMetadata.make_eq_ok {chunkId : String} {index size offset : ℤ}
    {chunkHash : Option ChunkHash} {metadata : ChunkMetadata} :
    ChunkMetadata.make chunkId index size offset chunkHash = .ok metadata ↔
      chunkId = metadata.chunkId ∧ index = metadata.index ∧ size = metadata.size ∧
        offset = metadata.offset ∧ chunkHash = metadata.chunkHash := by
  obtain ⟨chunkId', index', size', offset', chunkHash', hne⟩ := metadata
  unfold ChunkMetadata.make
  split_ifs with hid hindex hsize hoffset
  · exact iff_of_false (by simp) fun h ↦ hne (h.1.symm.trans hid)
  · exact iff_of_false (by simp) fun h ↦ by omega
  · exact iff_of_false (by simp) fun h ↦ by omega
  · exact iff_of_false (by simp) fun h ↦ by omega
  · constructor
    · intro h
      cases h
      exact ⟨rfl, (Int.toNat_of_nonneg (not_lt.mp hindex)).symm,
        (Int.toNat_of_nonneg (not_lt.mp hsize)).symm,
        (Int.toNat_of_nonneg (not_lt.mp hoffset)).symm, rfl⟩
    · rintro ⟨rfl, rfl, rfl, rfl, rfl⟩
      rfl

structure Chunk where
  metadata : ChunkMetadata
  data : Bytes
  length_eq : data.length = metadata.size
  deriving DecidableEq

def Chunk.make (metadata : ChunkMetadata) (data : Bytes) : Except ChunkValueError Chunk :=
  if h : data.length = metadata.size then .ok ⟨metadata, data, h⟩
  else .error (.dataLength data.length metadata.size)

def Chunk.piece (c : Chunk) : Overlay.Piece UInt8 := ⟨c.metadata.offset, c.data⟩

def Chunk.withHash (c : Chunk) (chunkHash : ChunkHash) : Chunk :=
  ⟨c.metadata.withHash chunkHash, c.data, c.length_eq⟩

@[simp] theorem Chunk.withHash_data (c : Chunk) (h : ChunkHash) : (c.withHash h).data = c.data :=
  rfl

@[simp] theorem Chunk.withHash_piece (c : Chunk) (h : ChunkHash) :
    (c.withHash h).piece = c.piece := rfl

@[simp] theorem Chunk.withHash_index (c : Chunk) (h : ChunkHash) :
    (c.withHash h).metadata.index = c.metadata.index := rfl

/-! ## Manifests -/

/-- The checks of `ChunkCollection.__post_init__`. -/
def ManifestWellFormed (chunkSize totalSize : ℕ) (chunks : List ChunkMetadata) : Prop :=
  0 < chunkSize ∧ chunks.map ChunkMetadata.index = List.range chunks.length ∧
    (chunks.map ChunkMetadata.size).sum = totalSize

instance (chunkSize totalSize : ℕ) (chunks : List ChunkMetadata) :
    Decidable (ManifestWellFormed chunkSize totalSize chunks) :=
  inferInstanceAs (Decidable (_ ∧ _ ∧ _))

structure ChunkCollection where
  sourcePath : FilePath
  chunkSize : ℕ
  totalSize : ℕ
  chunks : List ChunkMetadata
  wellFormed : ManifestWellFormed chunkSize totalSize chunks
  deriving DecidableEq

def ChunkCollection.make (sourcePath : FilePath) (chunkSize totalSize : ℕ)
    (chunks : List ChunkMetadata) : Except ChunkValueError ChunkCollection :=
  if h : ManifestWellFormed chunkSize totalSize chunks then
    .ok ⟨sourcePath, chunkSize, totalSize, chunks, h⟩
  else if chunkSize = 0 then .error (.chunkSizeNotPositive chunkSize)
  else
    match (List.range chunks.length).find? fun i ↦
        (chunks.map ChunkMetadata.index)[i]? != some i with
    | some i => .error (.notContiguous i)
    | none => .error (.totalSize (chunks.map ChunkMetadata.size).sum totalSize)

/-- `dataclasses.replace(collection, source_path=...)`. -/
def ChunkCollection.withSourcePath (c : ChunkCollection) (sourcePath : FilePath) :
    ChunkCollection :=
  { c with sourcePath }

def ChunkCollection.chunkCount (c : ChunkCollection) : ℕ := c.chunks.length

theorem ChunkCollection.make_eq_ok {sourcePath : FilePath} {chunkSize totalSize : ℕ}
    {chunks : List ChunkMetadata} {c : ChunkCollection}
    (h : ChunkCollection.make sourcePath chunkSize totalSize chunks = .ok c) :
    c.sourcePath = sourcePath ∧ c.chunkSize = chunkSize ∧ c.totalSize = totalSize ∧
      c.chunks = chunks := by
  unfold ChunkCollection.make at h
  split at h
  · cases h
    exact ⟨rfl, rfl, rfl, rfl⟩
  · split at h
    · cases h
    · split at h <;> cases h

end SecureSync
