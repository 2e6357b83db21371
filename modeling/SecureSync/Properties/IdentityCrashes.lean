import SecureSync.Infrastructure.IdentityFiles
import SecureSync.Library.Machines
import Mathlib.Tactic.IntervalCases

/-!
# Identities and crashes

Calls of `load_or_create` on one storage directory, one after the other.  As soon as there are
two files they are never written again, so the first call that opens the second one decides.
-/

namespace SecureSync

open Machines TornWrites

variable {ed25519 : Ed25519}

/-- The private key is that of the public key. -/
def Ed25519.Matches (ed25519 : Ed25519) (keypair : IdentityKeyPair) : Prop :=
  ed25519.publicKeyOf keypair.privateKey = some keypair.publicKey

namespace IdentityCall

/-- What the calls return, and nothing for one that is cut short. -/
def answers (files : IdentityFiles) (calls : List (IdentityCall ed25519)) :
    List (Option IdentityKeyPair) :=
  (run loadOrCreate files calls).1

/-- Every keypair matches, and after the first one no other is returned. -/
structure Survives (files : IdentityFiles) (calls : List (IdentityCall ed25519)) : Prop where
  matching : ∀ keypair, some keypair ∈ answers files calls → ed25519.Matches keypair
  same : (calls.zip (answers files calls)).Pairwise fun first later ↦
    first.2.isSome → later.1.cut = none → later.2 = first.2

/-- Where there are not both files, the call begins to write the second one. -/
def OpensPublicKey (call : IdentityCall ed25519) : Prop :=
  match call.cut with
  | none => True
  | some kept => 2 ≤ kept.length

/-- Both writes leave all their bytes. -/
def Whole (call : IdentityCall ed25519) : Prop :=
  match call.cut with
  | none => True
  | some kept => ∀ n ∈ kept.take 2, 32 ≤ n

/-- The first call that opens the public key file leaves both files whole, or no later call
returns. -/
def Unharmed : List (IdentityCall ed25519) → Prop
  | [] => True
  | call :: later =>
      (call.OpensPublicKey ∧ (call.Whole ∨ ∀ c ∈ later, c.cut ≠ none)) ∨
        (¬ call.OpensPublicKey ∧ Unharmed later)

/-! ## Both files -/

section Loaded

variable {files : IdentityFiles} {privateKey publicKey : Bytes}
  (hprivate : files .privateKey = some privateKey) (hpublic : files .publicKey = some publicKey)

include hprivate hpublic

theorem loadOrCreate_loaded (call : IdentityCall ed25519) :
    loadOrCreate files call =
      (if call.cut = none then some ⟨privateKey, publicKey⟩ else none, files) := by
  rw [loadOrCreate, hprivate, hpublic]

theorem answers_loaded (calls : List (IdentityCall ed25519)) :
    answers files calls =
      calls.map fun call ↦ if call.cut = none then some ⟨privateKey, publicKey⟩ else none := by
  unfold answers
  induction calls with
  | nil => rfl
  | cons call calls ih => rw [run_cons, loadOrCreate_loaded hprivate hpublic, ih, List.map_cons]

/-- What is in the files is returned by every call that is not cut short. -/
theorem survives_loaded_iff (calls : List (IdentityCall ed25519)) :
    Survives files calls ↔
      ed25519.Matches ⟨privateKey, publicKey⟩ ∨ ∀ call ∈ calls, call.cut ≠ none := by
  have hanswers := answers_loaded hprivate hpublic calls
  constructor
  · intro h
    by_contra hneither
    push Not at hneither
    obtain ⟨hmismatch, call, hcall, hcut⟩ := hneither
    apply hmismatch
    apply h.matching
    rw [hanswers, List.mem_map]
    exact ⟨call, hcall, if_pos hcut⟩
  · intro h
    refine ⟨fun keypair hkeypair ↦ ?_, ?_⟩
    · rw [hanswers, List.mem_map] at hkeypair
      obtain ⟨call, hcall, hreturned⟩ := hkeypair
      split_ifs at hreturned with hcut
      cases hreturned
      rcases h with hmatches | hnone
      · exact hmatches
      · exact absurd hcut (hnone call hcall)
    · have hanswer : ∀ p ∈ calls.zip (answers files calls),
          p.2 = if p.1.cut = none then some ⟨privateKey, publicKey⟩ else none := by
        intro p hp
        have hzip := List.zip_map' (f := id) (l := calls) (g := fun call ↦
          if call.cut = none then some (⟨privateKey, publicKey⟩ : IdentityKeyPair) else none)
        rw [List.map_id] at hzip
        rw [hanswers, hzip, List.mem_map] at hp
        obtain ⟨call, -, rfl⟩ := hp
        rfl
      apply List.pairwise_of_forall_mem_list
      intro first hfirst later hlater hreturned hcut
      by_cases hfirstCut : first.1.cut = none
      · rw [hanswer first hfirst, hanswer later hlater, if_pos hcut, if_pos hfirstCut]
      · rw [hanswer first hfirst, if_neg hfirstCut] at hreturned
        cases hreturned

end Loaded

/-! ## Until the public key file is opened -/

section Missing

variable {files : IdentityFiles} {call : IdentityCall ed25519}

theorem loadOrCreate_missing (hmissing : files .publicKey = none) :
    loadOrCreate files call =
      match call.cut with
      | none => (some call.generated.toIdentityKeyPair,
          writeAll files call.generated.toIdentityKeyPair.persist)
      | some kept => (none, cutShort files call.generated.toIdentityKeyPair.persist kept) := by
  unfold loadOrCreate
  rw [hmissing]
  cases files .privateKey <;> rfl

/-- A call that does not come to the public key file leaves it missing. -/
theorem loadOrCreate_of_not_opens (hmissing : files .publicKey = none)
    (hopens : ¬ call.OpensPublicKey) :
    (loadOrCreate files call).1 = none ∧ (loadOrCreate files call).2 .publicKey = none := by
  rw [loadOrCreate_missing hmissing]
  unfold OpensPublicKey at hopens
  cases hcut : call.cut with
  | none =>
      rw [hcut] at hopens
      exact absurd trivial hopens
  | some kept =>
      rw [hcut, not_le] at hopens
      refine ⟨rfl, (cutShort_of_notMem ?_).trans hmissing⟩
      interval_cases hlength : kept.length <;> simp [IdentityKeyPair.persist]

variable (hmissing : files .publicKey = none) {later : List (IdentityCall ed25519)}

theorem survives_cons_iff_of_none (hnone : (loadOrCreate files call).1 = none) :
    Survives files (call :: later) ↔ Survives (loadOrCreate files call).2 later := by
  have hanswers : answers files (call :: later) =
      none :: answers (loadOrCreate files call).2 later := by
    rw [answers, run_cons, hnone, ← answers]
  constructor
  · intro h
    refine ⟨fun keypair hkeypair ↦ h.matching keypair ?_, ?_⟩
    · rw [hanswers]
      exact List.mem_cons_of_mem _ hkeypair
    · have hsame := h.same
      rw [hanswers, List.zip_cons_cons, List.pairwise_cons] at hsame
      exact hsame.2
  · intro h
    refine ⟨fun keypair hkeypair ↦ ?_, ?_⟩
    · rw [hanswers, List.mem_cons] at hkeypair
      rcases hkeypair with hkeypair | hkeypair
      · cases hkeypair
      · exact h.matching keypair hkeypair
    · rw [hanswers, List.zip_cons_cons, List.pairwise_cons]
      refine ⟨fun _ _ hreturned ↦ ?_, h.same⟩
      cases hreturned

include hmissing

/-- A call that is not cut short returns the keypair that it leaves in the files. -/
theorem survives_cons_of_uncut (hcut : call.cut = none) : Survives files (call :: later) := by
  have hstep : loadOrCreate files call = (some call.generated.toIdentityKeyPair,
      writeAll files call.generated.toIdentityKeyPair.persist) := by
    rw [loadOrCreate_missing hmissing, hcut]
  have hprivate : (loadOrCreate files call).2 .privateKey = some call.generated.privateKey := by
    rw [hstep]
    rfl
  have hpublic : (loadOrCreate files call).2 .publicKey = some call.generated.publicKey := by
    rw [hstep]
    rfl
  have hlater := (survives_loaded_iff hprivate hpublic (call :: later)).mpr
    (.inl call.generated.publicKey_eq)
  have hanswers : answers files (call :: later) =
      answers (loadOrCreate files call).2 (call :: later) := by
    rw [answers, run_cons, answers, run_cons, loadOrCreate_loaded hprivate hpublic, if_pos hcut]
    rw [hstep]
  exact ⟨hanswers ▸ hlater.matching, hanswers ▸ hlater.same⟩

omit hmissing in
theorem whole_iff {m n : ℕ} {rest : List ℕ} (hcut : call.cut = some (m :: n :: rest)) :
    call.Whole ↔ 32 ≤ m ∧ 32 ≤ n := by
  rw [Whole, hcut]
  simp

omit hmissing in
/-- Keys of which bytes are missing do not match. -/
theorem matches_take_iff (generated : ed25519.Generated) (m n : ℕ) :
    ed25519.Matches ⟨generated.privateKey.take m, generated.publicKey.take n⟩ ↔
      32 ≤ m ∧ 32 ≤ n := by
  have hprivate := ed25519.privateKey_length generated.publicKey_eq
  have hpublic := ed25519.publicKey_length generated.publicKey_eq
  constructor
  · intro h
    have hprivateLeft := ed25519.privateKey_length h
    have hpublicLeft := ed25519.publicKey_length h
    rw [List.length_take] at hprivateLeft hpublicLeft
    omega
  · rintro ⟨hm, hn⟩
    rw [List.take_of_length_le (by omega), List.take_of_length_le (by omega)]
    exact generated.publicKey_eq

/-- A call that is cut short in the second file leaves what it has written of both. -/
theorem survives_cons_iff_of_torn {kept : List ℕ} (hcut : call.cut = some kept)
    (hopens : 2 ≤ kept.length) :
    Survives files (call :: later) ↔ call.Whole ∨ ∀ c ∈ later, c.cut ≠ none := by
  obtain ⟨m, n, rest, rfl⟩ : ∃ m n rest, kept = m :: n :: rest := by
    rcases kept with - | ⟨m, - | ⟨n, rest⟩⟩
    · simp at hopens
    · simp at hopens
    · exact ⟨m, n, rest, rfl⟩
  have hstep : loadOrCreate files call = (none,
      cutShort files call.generated.toIdentityKeyPair.persist (m :: n :: rest)) := by
    rw [loadOrCreate_missing hmissing, hcut]
  have hprivate : (loadOrCreate files call).2 .privateKey =
      some (call.generated.privateKey.take m) := by
    rw [hstep]
    rfl
  have hpublic : (loadOrCreate files call).2 .publicKey =
      some (call.generated.publicKey.take n) := by
    rw [hstep]
    rfl
  rw [survives_cons_iff_of_none (by rw [hstep]), survives_loaded_iff hprivate hpublic,
    matches_take_iff, whole_iff hcut]

end Missing

/-- Identities survive unless the public key file is torn and read afterwards. -/
theorem survives_iff_unharmed {files : IdentityFiles} (hmissing : files .publicKey = none)
    (calls : List (IdentityCall ed25519)) : Survives files calls ↔ Unharmed calls := by
  induction calls generalizing files with
  | nil => exact iff_of_true ⟨by simp [answers], List.Pairwise.nil⟩ trivial
  | cons call later ih =>
      by_cases hopens : call.OpensPublicKey
      · rw [Unharmed]
        simp only [hopens, true_and, not_true, false_and, or_false]
        cases hcut : call.cut with
        | none =>
            have hwhole : call.Whole := by
              rw [Whole, hcut]
              trivial
            exact iff_of_true (survives_cons_of_uncut hmissing hcut) (.inl hwhole)
        | some kept =>
            rw [OpensPublicKey, hcut] at hopens
            exact survives_cons_iff_of_torn hmissing hcut hopens
      · obtain ⟨hnone, hstill⟩ := loadOrCreate_of_not_opens hmissing hopens
        rw [survives_cons_iff_of_none hnone, ih hstill, Unharmed]
        simp [hopens]

/-- In a directory that is new, identities survive unless both files are there, one of them
torn, and a later call reads them. -/
theorem identity_survives_iff (ed25519 : Ed25519) (calls : List (IdentityCall ed25519)) :
    Survives (fun _ ↦ none) calls ↔ Unharmed calls :=
  survives_iff_unharmed rfl calls

end IdentityCall

/-! ## A crash in the second file -/

def testPrivateKey : Bytes :=
  BigEndian.encode 32 0x9d61b19deffd5a60ba844af492ec2cc44449c5697b326919703bac031cae7f60

def testPublicKey : Bytes :=
  BigEndian.encode 32 0xd75a980182b10ab7d54bfed3c964073a0ee172f3daa62325af021a68f707511a

/-- Ed25519 on one private key. -/
def oneKey : Ed25519 where
  publicKeyOf privateKey := if privateKey = testPrivateKey then some testPublicKey else none
  privateKey_length h := by
    split_ifs at h with hkey
    rw [hkey, testPrivateKey, BigEndian.length_encode]
  publicKey_length h := by
    split_ifs at h
    rw [← Option.some.inj h, testPublicKey, BigEndian.length_encode]

def testKey : oneKey.Generated := ⟨⟨testPrivateKey, testPublicKey⟩, by simp [oneKey]⟩

/-- The crash comes when the public key file has been opened and nothing written to it. -/
def tornCalls : List (IdentityCall oneKey) := [⟨testKey, some [32, 0]⟩, ⟨testKey, none⟩]

theorem torn_identity_returned :
    IdentityCall.answers (fun _ ↦ none) tornCalls = [none, some ⟨testPrivateKey, []⟩] ∧
      ¬ IdentityCall.Survives (fun _ ↦ none) tornCalls := by
  have hanswers :
      IdentityCall.answers (fun _ ↦ none) tornCalls = [none, some ⟨testPrivateKey, []⟩] := rfl
  refine ⟨hanswers, fun h ↦ ?_⟩
  have hmatches : oneKey.Matches ⟨testPrivateKey, []⟩ := by
    apply h.matching
    rw [hanswers]
    exact List.mem_cons_of_mem _ (List.mem_singleton_self _)
  have hlength := oneKey.publicKey_length hmatches
  cases hlength

end SecureSync
