import SecureSync.Domain.Chunk
import SecureSync.Domain.Conflict
import Mathlib.Logic.Function.Basic

/-!
# File metadata

The record and the repository port of `domain/metadata.py`.
-/

namespace SecureSync

structure FileMetadata where
  filePath : String
  versionVector : VersionVector
  lastModified : Timestamp
  isDeleted : Bool := false
  chunks : List ChunkMetadata := []
  deriving DecidableEq

abbrev MetadataStore := String → Option FileMetadata

inductive MetadataError where
  | unavailable
  deriving DecidableEq, Repr

structure MetadataRepository where
  getFileMetadata : String → EStateM MetadataError MetadataStore (Option FileMetadata)
  saveFileMetadata : FileMetadata → EStateM MetadataError MetadataStore Unit

/-- A repository that answers every request. -/
def mapMetadataRepository : MetadataRepository where
  getFileMetadata filePath := fun store ↦ .ok (store filePath) store
  saveFileMetadata metadata := fun store ↦
    .ok () (Function.update store metadata.filePath (some metadata))

end SecureSync
