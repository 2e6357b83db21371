import Mathlib.Data.Set.Function
import Mathlib.Data.Nat.Notation

/-!
# Hash chains

A digest is linked with one part after the other, and each link is hashed.  If
the hash has no collision among the links, the end of a chain determines its start
and its parts.
-/

namespace HashChain

variable {D P I : Type} (link : D → P → I) (hash : I → D)

def chain (digest : D) (parts : List P) : D :=
  parts.foldl (fun digest part ↦ hash (link digest part)) digest

/-- What is hashed on the way. -/
def links : D → List P → List I
  | _, [] => []
  | digest, part :: parts => link digest part :: links (hash (link digest part)) parts

@[simp] theorem chain_nil (digest : D) : chain link hash digest [] = digest := rfl

@[simp] theorem chain_cons (digest : D) (part : P) (parts : List P) :
    chain link hash digest (part :: parts) = chain link hash (hash (link digest part)) parts := rfl

variable {link hash} {A : D → Prop} {B : P → Prop} {S : Set I}

theorem chain_inj (hhash : ∀ i, A (hash i)) (hfree : Set.InjOn hash S)
    (hlink : ∀ d d' p p', A d → A d' → B p → B p' →
      link d p = link d' p' → d = d' ∧ p = p')
    {d d' : D} {ps qs : List P} (hd : A d) (hd' : A d') (hps : ∀ p ∈ ps, B p)
    (hqs : ∀ q ∈ qs, B q) (hlength : ps.length = qs.length)
    (hS : ∀ i ∈ links link hash d ps, i ∈ S) (hS' : ∀ i ∈ links link hash d' qs, i ∈ S)
    (h : chain link hash d ps = chain link hash d' qs) : d = d' ∧ ps = qs := by
  induction ps generalizing d d' qs with
  | nil =>
      obtain rfl := List.length_eq_zero_iff.mp hlength.symm
      exact ⟨h, rfl⟩
  | cons p ps ih =>
      cases qs with
      | nil => cases hlength
      | cons q qs =>
          rw [links, List.forall_mem_cons] at hS hS'
          rw [List.forall_mem_cons] at hps hqs
          obtain ⟨hhashes, rfl⟩ := ih (hhash _) (hhash _) hps.2 hqs.2 (Nat.succ.inj hlength) hS.2
            hS'.2 h
          have hlinks := hfree hS.1 hS'.1 hhashes
          obtain ⟨rfl, rfl⟩ := hlink _ _ _ _ hd hd' hps.1 hqs.1 hlinks
          exact ⟨rfl, rfl⟩

end HashChain
