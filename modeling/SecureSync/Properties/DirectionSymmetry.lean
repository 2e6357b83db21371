import SecureSync.Application.HashChunks
import SecureSync.Domain.SyncDirection

/-!
# Two peers that compare the same states

Each of them calls the resolver with its own state first.  Their verdicts are
mirror images, but for vectors that are below each other and yet differ.
-/

namespace SecureSync

open SyncDirectionResolver

/-- The same transfer, seen from the other side. -/
def SyncDirection.mirror : SyncDirection → SyncDirection
  | push => pull
  | pull => push
  | conflict => conflict
  | noop => noop

/-- What both peers decide about the same pair of states. -/
def MirrorsDecision (localCollection remoteCollection : Option ChunkCollection)
    (localVersion remoteVersion : VersionVector) : Prop :=
  let here := (resolve localCollection (some localVersion) remoteCollection
    (some remoteVersion)).direction
  let there := (resolve remoteCollection (some remoteVersion) localCollection
    (some localVersion)).direction
  there = here.mirror ∧ ¬ (here = .push ∧ there = .push) ∧ ¬ (here = .pull ∧ there = .pull)

/-- The vectors are equal, or differ in a key of both, or in a positive counter of one. -/
def ToldApart (v w : VersionVector) : Prop :=
  v = w ∨
    (∃ d m n, v.counters.lookup d = some m ∧ w.counters.lookup d = some n ∧ m ≠ n) ∨
    (∃ d n, v.counters.lookup d = some n ∧ w.counters.lookup d = none ∧ 0 < n) ∨
    ∃ d n, v.counters.lookup d = none ∧ w.counters.lookup d = some n ∧ 0 < n

variable {localCollection remoteCollection : Option ChunkCollection} {v w : VersionVector}

theorem exists_of_not_le (h : ¬ v ≤ w) :
    (∃ d m n, v.counters.lookup d = some m ∧ w.counters.lookup d = some n ∧ n < m) ∨
      ∃ d m, v.counters.lookup d = some m ∧ w.counters.lookup d = none ∧ 0 < m := by
  rw [VersionVector.le_def] at h
  obtain ⟨d, hd, hlt⟩ : ∃ d ∈ v.counters, ¬ v.get d ≤ w.get d := by simpa using h
  obtain ⟨m, hm⟩ := Finmap.mem_iff.mp hd
  rw [VersionVector.get, VersionVector.get, hm, Option.getD_some, not_le] at hlt
  cases hn : w.counters.lookup d with
  | none =>
      rw [hn, Option.getD_none] at hlt
      exact .inr ⟨d, m, hm, hn, hlt⟩
  | some n =>
      rw [hn, Option.getD_some] at hlt
      exact .inl ⟨d, m, n, hm, hn, hlt⟩

theorem counter_le_of_le (h : v ≤ w) {d : DeviceId} {m : ℤ}
    (hm : v.counters.lookup d = some m) : m ≤ (w.counters.lookup d).getD 0 := by
  have hle := VersionVector.le_def.mp h d (Finmap.mem_iff.mpr ⟨m, hm⟩)
  rwa [VersionVector.get, hm] at hle

/-- The resolver mistakes each of two vectors for the older one exactly if they cannot be
told apart. -/
theorem toldApart_iff : ToldApart v w ↔ ¬ (v < w ∧ w < v) := by
  constructor
  · rintro h ⟨⟨hvw, hne⟩, hwv, -⟩
    rcases h with heq | ⟨d, m, n, hm, hn, hmn⟩ | ⟨d, n, hn, hnone, hpos⟩ | ⟨d, n, hnone, hn, hpos⟩
    · exact hne heq
    · have hle := counter_le_of_le hvw hm
      have hge := counter_le_of_le hwv hn
      rw [hn, Option.getD_some] at hle
      rw [hm, Option.getD_some] at hge
      exact hmn (hle.antisymm hge)
    · have hle := counter_le_of_le hvw hn
      rw [hnone, Option.getD_none] at hle
      exact hpos.not_ge hle
    · have hle := counter_le_of_le hwv hn
      rw [hnone, Option.getD_none] at hle
      exact hpos.not_ge hle
  · intro h
    by_cases heq : v = w
    · exact .inl heq
    · by_cases hvw : v ≤ w
      · have hwv : ¬ w ≤ v := fun hwv ↦ h ⟨⟨hvw, heq⟩, hwv, Ne.symm heq⟩
        rcases exists_of_not_le hwv with ⟨d, n, m, hn, hm, hlt⟩ | ⟨d, n, hn, hnone, hpos⟩
        · exact .inr (.inl ⟨d, m, n, hm, hn, hlt.ne⟩)
        · exact .inr (.inr (.inr ⟨d, n, hnone, hn, hpos⟩))
      · rcases exists_of_not_le hvw with ⟨d, m, n, hm, hn, hlt⟩ | ⟨d, n, hn, hnone, hpos⟩
        · exact .inr (.inl ⟨d, m, n, hm, hn, hlt.ne'⟩)
        · exact .inr (.inr (.inl ⟨d, n, hn, hnone, hpos⟩))

theorem diffContentHashes_mirror (localCollection remoteCollection : Option ChunkCollection) :
    (diffContentHashes remoteCollection localCollection).direction =
      (diffContentHashes localCollection remoteCollection).direction.mirror := by
  simp only [diffContentHashes]
  by_cases hlocal : HasOwnChunk localCollection remoteCollection <;>
    by_cases hremote : HasOwnChunk remoteCollection localCollection <;>
      simp [hlocal, hremote, SyncDirection.mirror]

theorem resolveWithVersions_of_lt (hvw : v < w) :
    (resolveWithVersions v w localCollection remoteCollection).direction = .pull := by
  rw [resolveWithVersions, if_pos hvw]

theorem resolveWithVersions_of_gt (hvw : ¬ v < w) (hwv : w < v) :
    (resolveWithVersions v w localCollection remoteCollection).direction = .push := by
  rw [resolveWithVersions, if_neg hvw, if_pos hwv]

theorem resolveWithVersions_mirror (h : ¬ (v < w ∧ w < v)) :
    (resolveWithVersions w v remoteCollection localCollection).direction =
      (resolveWithVersions v w localCollection remoteCollection).direction.mirror := by
  by_cases hvw : v < w
  · have hwv : ¬ w < v := fun hwv ↦ h ⟨hvw, hwv⟩
    rw [resolveWithVersions_of_lt hvw, resolveWithVersions_of_gt hwv hvw]
    rfl
  · by_cases hwv : w < v
    · rw [resolveWithVersions_of_lt hwv, resolveWithVersions_of_gt hvw hwv]
      rfl
    · rw [direction_of_not_lt hvw hwv, direction_of_not_lt hwv hvw, diffContentHashes_mirror]

/-- Two peers reach mirrored verdicts about their states exactly if the vectors can be told
apart. -/
theorem mirrorsDecision_iff (localCollection remoteCollection : Option ChunkCollection)
    (localVersion remoteVersion : VersionVector) :
    MirrorsDecision localCollection remoteCollection localVersion remoteVersion ↔
      ToldApart localVersion remoteVersion := by
  rw [toldApart_iff, MirrorsDecision, resolve_of_versions, resolve_of_versions]
  constructor
  · rintro ⟨-, -, hpull⟩ ⟨hlt, hgt⟩
    exact hpull ⟨resolveWithVersions_of_lt hlt, resolveWithVersions_of_lt hgt⟩
  · intro h
    rw [resolveWithVersions_mirror h]
    cases (resolveWithVersions localVersion remoteVersion localCollection
      remoteCollection).direction <;> simp [SyncDirection.mirror]

def explicitZero : VersionVector := ⟨(∅ : Counters).insert "A" 0⟩

/-- Both hold the same file.  One counts a zero where the other has no counter: each pulls
from the other. -/
theorem not_mirrorsDecision :
    let file := some (sampleManifest [1])
    (resolve file (some explicitZero) file (some .empty)).direction = .pull ∧
      (resolve file (some .empty) file (some explicitZero)).direction = .pull ∧
        ¬ MirrorsDecision file file explicitZero .empty := by
  intro file
  have hpull : (resolve file (some explicitZero) file (some .empty)).direction = .pull := by decide
  have hpull' : (resolve file (some .empty) file (some explicitZero)).direction = .pull := by
    decide
  exact ⟨hpull, hpull', fun h ↦ h.2.2 ⟨hpull, hpull'⟩⟩

end SecureSync
