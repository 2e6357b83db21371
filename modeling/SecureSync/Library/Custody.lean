import Mathlib.Data.Set.Insert

/-!
# Resources in custody

A table says which key holds which resource.  All is accounted for if the live
resources are the ones that are held.
-/

namespace Custody

variable {κ ρ : Type}

def Accounted (live : Set ρ) (held : κ → Option ρ) : Prop := ∀ r, r ∈ live ↔ ∃ k, held k = some r

/-- No two keys hold one resource. -/
def Separate (held : κ → Option ρ) : Prop :=
  ∀ k k' r, held k = some r → held k' = some r → k = k'

variable {live : Set ρ} {held held' : κ → Option ρ} {r : ρ}

theorem Accounted.acquire [DecidableEq κ] (h : Accounted live held) {k : κ} (hk : held k = none) :
    Accounted (insert r live) (Function.update held k (some r)) := by
  intro r'
  constructor
  · rintro (rfl | hlive)
    · exact ⟨k, Function.update_self ..⟩
    · obtain ⟨k', hk'⟩ := (h r').mp hlive
      have hne : k' ≠ k := by
        rintro rfl
        rw [hk] at hk'
        cases hk'
      exact ⟨k', by rw [Function.update_of_ne hne, hk']⟩
  · rintro ⟨k', hk'⟩
    by_cases hne : k' = k
    · rw [hne, Function.update_self] at hk'
      exact .inl (Option.some.inj hk').symm
    · rw [Function.update_of_ne hne] at hk'
      exact .inr ((h r').mpr ⟨k', hk'⟩)

/-- A new resource that no key holds is not accounted for. -/
theorem Accounted.not_leak (h : Accounted live held) (hr : r ∉ live) :
    ¬ Accounted (insert r live) held := by
  intro hleak
  exact hr ((h r).mpr ((hleak r).mp (Set.mem_insert r live)))

/-- Some keys give up what they hold.  All stays accounted for exactly if the resources
that they held are freed. -/
theorem Accounted.release_iff (h : Accounted live held) (hseparate : Separate held) {K : Set κ}
    {freed : Set ρ} (hfreed : ∀ r ∈ freed, r ∈ live → ∃ k ∈ K, held k = some r)
    (hgone : ∀ k ∈ K, held' k = none) (hkept : ∀ k, k ∉ K → held' k = held k) :
    Accounted (live \ freed) held' ↔ ∀ k ∈ K, ∀ r, held k = some r → r ∈ freed := by
  constructor
  · intro h' k hk r hr
    by_contra hnot
    obtain ⟨k', hk'⟩ := (h' r).mp ⟨(h r).mpr ⟨k, hr⟩, hnot⟩
    have hout : k' ∉ K := by
      intro hin
      rw [hgone k' hin] at hk'
      cases hk'
    rw [hkept k' hout] at hk'
    exact hout (hseparate k k' r hr hk' ▸ hk)
  · intro hall r
    constructor
    · rintro ⟨hlive, hnot⟩
      obtain ⟨k, hk⟩ := (h r).mp hlive
      have hout : k ∉ K := fun hin ↦ hnot (hall k hin r hk)
      exact ⟨k, (hkept k hout).trans hk⟩
    · rintro ⟨k, hk⟩
      have hout : k ∉ K := by
        intro hin
        rw [hgone k hin] at hk
        cases hk
      rw [hkept k hout] at hk
      have hlive := (h r).mpr ⟨k, hk⟩
      refine ⟨hlive, fun hin ↦ ?_⟩
      obtain ⟨k', hin', hk'⟩ := hfreed r hin hlive
      exact hout (hseparate k' k r hk' hk ▸ hin')

theorem Accounted.release [DecidableEq κ] (h : Accounted live held) (hseparate : Separate held)
    {k : κ} (hk : held k = some r) :
    Accounted (live \ {r}) (Function.update held k none) := by
  have hone : ∀ k' ∈ ({k} : Set κ), ∀ r', held k' = some r' → r' ∈ ({r} : Set ρ) := by
    rintro _ rfl r' hr'
    exact (Option.some.inj (hk.symm.trans hr')).symm
  refine (h.release_iff hseparate ?_ ?_ ?_).mpr hone
  · rintro _ rfl -
    exact ⟨k, rfl, hk⟩
  · rintro _ rfl
    exact Function.update_self ..
  · exact fun k' hk' ↦ Function.update_of_ne hk' ..

end Custody
