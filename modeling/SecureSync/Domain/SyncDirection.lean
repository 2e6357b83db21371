import SecureSync.Domain.Chunk
import SecureSync.Domain.Conflict

/-!
# Sync direction

`domain/sync_direction.py`.  A decision carries its reason; the vectors that
the source prints into it are kept as data.
-/

namespace SecureSync

inductive SyncDirection where
  | push
  | pull
  | conflict
  | noop
  deriving DecidableEq, Repr

def SyncDirection.value : SyncDirection → String
  | .push => "push"
  | .pull => "pull"
  | .conflict => "conflict"
  | .noop => "noop"

inductive DecisionReason where
  | peerHasNoManifest
  | neitherSideHasFile
  | remoteNewer (remote localVersion : VersionVector)
  | localNewer (localVersion remote : VersionVector)
  | versionsEqual (localVersion : VersionVector)
  | noVersionVectors
  | bothSidesHaveChunks
  | localHasChunks
  | remoteHasChunks
  | chunkSetsEqual
  deriving DecidableEq

structure SyncDirectionDecision where
  direction : SyncDirection
  reason : DecisionReason
  deriving DecidableEq

namespace SyncDirectionResolver

def digests (collection : Option ChunkCollection) : List String :=
  match collection with
  | none => []
  | some collection => (collection.chunks.filterMap ChunkMetadata.chunkHash).map ChunkHash.digest

/-- Some chunk of the left manifest has a digest that the right one lacks. -/
def HasOwnChunk (left right : Option ChunkCollection) : Prop :=
  ∃ digest ∈ digests left, digest ∉ digests right

instance (left right : Option ChunkCollection) : Decidable (HasOwnChunk left right) :=
  inferInstanceAs (Decidable (∃ digest ∈ digests left, _))

def diffContentHashes (localCollection remoteCollection : Option ChunkCollection) :
    SyncDirectionDecision :=
  let localOnly := HasOwnChunk localCollection remoteCollection
  let remoteOnly := HasOwnChunk remoteCollection localCollection
  if localOnly ∧ remoteOnly then ⟨.conflict, .bothSidesHaveChunks⟩
  else if localOnly then ⟨.push, .localHasChunks⟩
  else if remoteOnly then ⟨.pull, .remoteHasChunks⟩
  else ⟨.noop, .chunkSetsEqual⟩

def resolveWithVersions (localVersion remoteVersion : VersionVector)
    (localCollection remoteCollection : Option ChunkCollection) : SyncDirectionDecision :=
  if localVersion < remoteVersion then ⟨.pull, .remoteNewer remoteVersion localVersion⟩
  else if remoteVersion < localVersion then ⟨.push, .localNewer localVersion remoteVersion⟩
  else
    -- reached with equal vectors, and with concurrent ones
    let decision := diffContentHashes localCollection remoteCollection
    match decision.direction with
    | .conflict => decision
    | .noop => ⟨.noop, .versionsEqual localVersion⟩
    | _ => decision

def resolveWithoutVersions (localCollection remoteCollection : Option ChunkCollection) :
    SyncDirectionDecision :=
  let decision := diffContentHashes localCollection remoteCollection
  match decision.direction with
  | .conflict => ⟨.push, .noVersionVectors⟩
  | _ => decision

def resolve (localCollection : Option ChunkCollection) (localVersion : Option VersionVector)
    (remoteCollection : Option ChunkCollection) (remoteVersion : Option VersionVector) :
    SyncDirectionDecision :=
  if remoteCollection = none ∧ remoteVersion = none then
    match localCollection with
    | some c =>
        if 0 < c.chunkCount then ⟨.push, .peerHasNoManifest⟩ else ⟨.noop, .neitherSideHasFile⟩
    | none => ⟨.noop, .neitherSideHasFile⟩
  else
    match localVersion, remoteVersion with
    | some v, some w => resolveWithVersions v w localCollection remoteCollection
    | _, _ => resolveWithoutVersions localCollection remoteCollection

/-! ## What each step can decide -/

variable {localCollection remoteCollection : Option ChunkCollection}

theorem diffContentHashes_conflict_iff :
    (diffContentHashes localCollection remoteCollection).direction = .conflict ↔
      HasOwnChunk localCollection remoteCollection ∧
        HasOwnChunk remoteCollection localCollection := by
  simp only [diffContentHashes]
  split_ifs <;> simp_all

theorem resolve_of_versions (v w : VersionVector) :
    resolve localCollection (some v) remoteCollection (some w) =
      resolveWithVersions v w localCollection remoteCollection := by
  simp [resolve]

/-- Past the two causal cases the direction is that of the content diff. -/
theorem direction_of_not_lt {v w : VersionVector} (hvw : ¬ v < w) (hwv : ¬ w < v) :
    (resolveWithVersions v w localCollection remoteCollection).direction =
      (diffContentHashes localCollection remoteCollection).direction := by
  rw [resolveWithVersions, if_neg hvw, if_neg hwv]
  cases h : (diffContentHashes localCollection remoteCollection).direction <;> simp [h]

/-! ## Without an older version -/

section Undecided

/-- Where both versions are known, neither is older. -/
def Undecided (localVersion remoteVersion : Option VersionVector) : Prop :=
  ∀ v w, localVersion = some v → remoteVersion = some w → ¬ v < w ∧ ¬ w < v

variable {localCollection remoteCollection : ChunkCollection}
  {localVersion remoteVersion : Option VersionVector}

/-- It is then the content that decides. -/
theorem direction_of_undecided (h : Undecided localVersion remoteVersion) :
    let diff := (diffContentHashes (some localCollection) (some remoteCollection)).direction
    let direction := (resolve (some localCollection) localVersion (some remoteCollection)
      remoteVersion).direction
    direction = diff ∨ diff = .conflict ∧ direction = .push := by
  intro diff direction
  have hunversioned : (resolveWithoutVersions (some localCollection)
      (some remoteCollection)).direction = diff ∨
        diff = .conflict ∧ (resolveWithoutVersions (some localCollection)
          (some remoteCollection)).direction = .push := by
    simp only [resolveWithoutVersions, diff]
    cases hdiff : (diffContentHashes (some localCollection) (some remoteCollection)).direction <;>
      simp [hdiff]
  simp only [direction, resolve, reduceCtorEq, false_and, if_false]
  cases localVersion with
  | none => exact hunversioned
  | some v =>
      cases remoteVersion with
      | none => exact hunversioned
      | some w =>
          obtain ⟨hvw, hwv⟩ := h v w rfl rfl
          exact .inl (direction_of_not_lt hvw hwv)

theorem direction_of_not_undecided (h : ¬ Undecided localVersion remoteVersion) :
    (resolve (some localCollection) localVersion (some remoteCollection)
      remoteVersion).direction ≠ .noop := by
  simp only [Undecided, not_forall] at h
  obtain ⟨v, w, rfl, rfl, hlt⟩ := h
  rw [resolve_of_versions, resolveWithVersions]
  by_cases hvw : v < w
  · simp [if_pos hvw]
  · rw [if_neg hvw, if_pos (by simpa [hvw] using hlt)]
    simp

theorem diffContentHashes_noop_iff {left right : Option ChunkCollection} :
    (diffContentHashes left right).direction = .noop ↔
      ¬ HasOwnChunk left right ∧ ¬ HasOwnChunk right left := by
  simp only [diffContentHashes]
  split_ifs <;> simp_all

theorem resolve_noop_iff :
    (resolve (some localCollection) localVersion (some remoteCollection)
        remoteVersion).direction = .noop ↔
      Undecided localVersion remoteVersion ∧
        ¬ HasOwnChunk (some localCollection) (some remoteCollection) ∧
          ¬ HasOwnChunk (some remoteCollection) (some localCollection) := by
  by_cases h : Undecided localVersion remoteVersion
  · rw [← diffContentHashes_noop_iff]
    rcases @direction_of_undecided localCollection remoteCollection _ _ h with
      hsame | ⟨hconflict, hpush⟩
    · simp [h, hsame]
    · simp [h, hconflict, hpush]
  · simp [h, direction_of_not_undecided h]

/-- If no version is older, a pull finds no local chunk that the peer lacks. -/
theorem not_hasOwnChunk_of_pull (h : Undecided localVersion remoteVersion)
    (hpull : (resolve (some localCollection) localVersion (some remoteCollection)
      remoteVersion).direction = .pull) :
    ¬ HasOwnChunk (some localCollection) (some remoteCollection) := by
  rcases @direction_of_undecided localCollection remoteCollection _ _ h with hsame | ⟨-, hpush⟩
  · rw [hpull] at hsame
    intro hown
    simp only [diffContentHashes, hown, true_and, if_true] at hsame
    split_ifs at hsame
  · rw [hpull] at hpush
    cases hpush

theorem hasOwnChunk_of_push (h : Undecided localVersion remoteVersion)
    (hpush : (resolve (some localCollection) localVersion (some remoteCollection)
      remoteVersion).direction = .push) :
    HasOwnChunk (some localCollection) (some remoteCollection) := by
  rcases @direction_of_undecided localCollection remoteCollection _ _ h with
    hsame | ⟨hconflict, -⟩
  · rw [hpush] at hsame
    by_contra hown
    simp only [diffContentHashes, hown, false_and, if_false] at hsame
    split_ifs at hsame
  · exact (diffContentHashes_conflict_iff.mp hconflict).1

end Undecided

end SyncDirectionResolver
end SecureSync
