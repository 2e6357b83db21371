import SecureSync.Sync.MutualSync

/-!
# Two devices resolving one conflict

Each device compares two readings of its own clock, so its verdict says nothing about the other
device.  Only a pull that was saved before the other device compares can settle the matter.
-/

namespace SecureSync

open Raising SyncDirectionResolver

/-- The resolver calls it a conflict if neither known version is older and each side has a chunk of
its own. -/
theorem resolve_conflict_iff {c c' : ChunkCollection} {v v' : Option VersionVector} :
    (resolve (some c) v (some c') v').direction = .conflict ↔
      (∃ w w', v = some w ∧ v' = some w' ∧ ¬ w < w' ∧ ¬ w' < w) ∧
        HasOwnChunk (some c) (some c') ∧ HasOwnChunk (some c') (some c) := by
  have hboth : ∀ {x y : Option ChunkCollection},
      (resolveWithoutVersions x y).direction ≠ .conflict := by
    intro x y
    simp only [resolveWithoutVersions]
    cases hd : (diffContentHashes x y).direction <;> simp [hd]
  cases v with
  | none => exact iff_of_false (by simpa [resolve] using hboth) (by simp)
  | some w =>
      cases v' with
      | none => exact iff_of_false (by simpa [resolve] using hboth) (by simp)
      | some w' =>
          rw [resolve_of_versions]
          by_cases hlt : w < w'
          · simp [resolveWithVersions, hlt]
          · by_cases hgt : w' < w
            · simp [resolveWithVersions, hlt, hgt]
            · rw [direction_of_not_lt hlt hgt, diffContentHashes_conflict_iff]
              simp [hlt, hgt]

theorem resolve_conflict_comm {c c' : ChunkCollection} {v v' : Option VersionVector}
    (h : (resolve (some c) v (some c') v').direction = .conflict) :
    (resolve (some c') v' (some c) v).direction = .conflict := by
  obtain ⟨⟨w, w', hw, hw', hlt, hgt⟩, hown, hown'⟩ := resolve_conflict_iff.mp h
  exact resolve_conflict_iff.mpr ⟨⟨w', w, hw', hw, hgt, hlt⟩, hown', hown⟩

namespace MutualSync

variable {m : MutualSync} {s : MutualState} {held : Bool → ChunkCollection}

/-- The manifest that the other device serves and the one made here both have a chunk that the other
one lacks. -/
def Apart (m : MutualSync) (s : MutualState) (side : Bool) (current : ChunkCollection) : Prop :=
  ∃ served, m.Serves s (!side) served ∧
    HasOwnChunk (some current) (some served) ∧ HasOwnChunk (some served) (some current)

/-- Devices that serve the manifests of their files are in conflict together. -/
theorem InConflict.symm {side : Bool} (h : m.InConflict s side (held side))
    (hserves : m.Serves s side (held side)) (hserves' : m.Serves s (!side) (held !side)) :
    m.InConflict s (!side) (held !side) := by
  obtain ⟨served, hserved, hconflict⟩ := h
  cases hserves'.symm.trans hserved
  refine ⟨held side, ?_, ?_⟩
  · rw [Bool.not_not]
    exact hserves
  · rw [Bool.not_not]
    exact resolve_conflict_comm hconflict

/-- Up to its comparison a call has moved through its undecided phases only. -/
theorem exists_comparison {side : Bool} {phase : SyncPhase} (hphase : s.phase side = some phase)
    (hundecided : phase.isUndecided = true) {events : List MutualEvent} {phase' : SyncPhase}
    (hphase' : (m.run s events).phase side = some phase') (hdecided : phase'.isUndecided = false) :
    ∃ before clock later, events = before ++ .advance side clock :: later ∧
      (m.run s before).Compares side := by
  induction events generalizing s phase with
  | nil =>
      cases hphase.symm.trans hphase'
      cases hundecided.symm.trans hdecided
  | cons event events ih =>
      obtain ⟨hsame, -⟩ | ⟨hnone, -, -⟩ | ⟨clock, phase, rfl, hbefore, hnext, -⟩ :=
        step_cases m s event side
      · obtain ⟨before, clock, later, rfl, hcompares⟩ := ih (hsame.trans hphase) hundecided hphase'
        exact ⟨event :: before, clock, later, rfl, hcompares⟩
      · cases (phase_run_eq_none hnone).symm.trans hphase'
      · cases hphase.symm.trans hbefore
        by_cases hrequesting : s.Compares side
        · exact ⟨[], clock, events, rfl, hrequesting⟩
        · cases hresult : m.next s side clock phase with
          | error e t =>
              rw [hresult] at hnext
              cases (phase_run_eq_none hnext).symm.trans hphase'
          | ok next t =>
              rw [hresult] at hnext
              have hstill : next.isUndecided = true := by
                cases follows_of_syncNext hresult with
                | opened | built | versioned => rfl
                | chose => exact absurd ⟨_, _, hphase⟩ hrequesting
                | _ => cases hundecided
              obtain ⟨before, clock', later, rfl, hcompares⟩ := ih hnext hstill hphase'
              exact ⟨_ :: before, clock', later, rfl, hcompares⟩

theorem phase_advance_of_ne {side other : Bool} (hne : other ≠ side) (clock : ℕ → Timestamp) :
    (m.step s (.advance side clock)).phase other = s.phase other := by
  rw [step]
  cases s.phase side with
  | none => rfl
  | some phase => exact MutualState.moved_phase_of_ne hne

/-- If both devices decide, one of them compares first and the other one some time later. -/
theorem exists_comparisons (hstart : ∀ side, s.phase side = some .starting)
    {events : List MutualEvent} (hdecided : ∀ side, ∃ phase,
      (m.run s events).phase side = some phase ∧ phase.isUndecided = false) :
    ∃ first before clock between clock' later,
      events = before ++ .advance first clock :: (between ++ .advance (!first) clock' :: later) ∧
        (m.run s before).Compares first ∧
        (m.run s (before ++ .advance first clock :: between)).Compares !first := by
  obtain ⟨phase, hphase, hphase_decided⟩ := hdecided true
  obtain ⟨phase', hphase', hphase'_decided⟩ := hdecided false
  obtain ⟨before, clock, later, rfl, hcompares⟩ :=
    exists_comparison (hstart true) rfl hphase hphase_decided
  rw [run_append] at hphase'
  cases hother : (m.run s before).phase false with
  | none => cases (phase_run_eq_none hother).symm.trans hphase'
  | some other =>
      cases hundecided : other.isUndecided with
      | true =>
          -- the second one compares later
          have hstill : (m.step (m.run s before) (.advance true clock)).phase false = some other :=
            (phase_advance_of_ne (by decide) clock).trans hother
          obtain ⟨between, clock', later, rfl, hcompares'⟩ :=
            exists_comparison hstill hundecided hphase' hphase'_decided
          refine ⟨true, before, clock, between, clock', later, rfl, hcompares, ?_⟩
          rw [run_append]
          exact hcompares'
      | false =>
          obtain ⟨before, clock', between, rfl, hcompares'⟩ :=
            exists_comparison (hstart false) rfl hother hundecided
          refine ⟨false, before, clock', between, clock, later, ?_, hcompares', hcompares⟩
          rw [List.append_assoc, List.cons_append]
          rfl

/-! ## The two verdicts -/

section Verdicts

variable {first : Bool} {before between : List MutualEvent} {clock clock' : ℕ → Timestamp}
  (hstart : ∀ side, s.phase side = some .starting) (hholds : ∀ side, m.Holds s side (held side))
  (hconflict : ∀ side, m.InConflict s side (held side))
  (hsecond : (m.run s (before ++ .advance first clock :: between)).Compares !first)
  (hfirst : (m.run s before).Compares first)

include hstart hholds hconflict hsecond

include hfirst

end Verdicts

end MutualSync

/-! ## Two devices in conflict -/

end SecureSync
