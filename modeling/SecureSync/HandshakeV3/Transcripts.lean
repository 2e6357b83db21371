import SecureSync.HandshakeV3.Attacker

/-!
# Transcripts that never coincide

A digest has a fixed length, and so have the labels; the rest of an input shows
which stage of the handshake it belongs to.
-/

namespace SecureSync

open BigEndian

/-- The length of a digest. -/
def Sha256.Sized (sha256 : Sha256) : Prop := ∀ bs, (sha256 bs).length = transcriptSize

theorem length_linkInput (digest part : Bytes) :
    (linkInput digest part).length = digest.length + (2 + part.length) := by
  simp [linkInput, lengthPrefixed]

theorem length_rejectInput (t2s m3 : Bytes) :
    (rejectInput t2s m3).length = t2s.length + (2 + m3.length + 25) := by
  have hlabel : m4RejectLabel.length = 23 := by decide +kernel
  simp [rejectInput, lengthPrefixed, hlabel, Nat.add_assoc]

variable {tFinal t2s t2s' digest part signature : Bytes}

theorem length_linkInput_accept (htFinal : tFinal.length = transcriptSize) :
    (linkInput tFinal m4AcceptLabel).length = 57 := by
  have hlabel : m4AcceptLabel.length = 23 := by decide +kernel
  rw [length_linkInput, htFinal, hlabel]
  rfl

/-- What comes before an accept ends in a signature. -/
theorem linkInput_ne_accept (htFinal : tFinal.length = transcriptSize)
    (hdigest : digest.length = transcriptSize)
    (hsignature : signature.length = ed25519SignatureSize) :
    linkInput digest signature ≠ linkInput tFinal m4AcceptLabel := by
  intro h
  have hlength := congrArg List.length h
  rw [length_linkInput, hdigest, hsignature, length_linkInput_accept htFinal] at hlength
  simp [transcriptSize, ed25519SignatureSize] at hlength

theorem rejectInput_ne_accept (htFinal : tFinal.length = transcriptSize) (m3 : Bytes)
    (ht2s : t2s.length = transcriptSize) : rejectInput t2s m3 ≠ linkInput tFinal m4AcceptLabel := by
  intro h
  have hlength := congrArg List.length h
  rw [length_rejectInput, ht2s, length_linkInput_accept htFinal, transcriptSize] at hlength
  omega

/-- A reject has a label behind message 3, and a link has one part only. -/
theorem rejectInput_ne_linkInput {m3 : Bytes} (hm3 : m3.length < 65536)
    (hpart : part.length < 65536) (hdigest : t2s.length = digest.length) :
    rejectInput t2s m3 ≠ linkInput digest part := by
  intro h
  obtain ⟨-, hrest⟩ := List.append_inj h hdigest
  rw [← List.append_nil (lengthPrefixed part)] at hrest
  have hlabel := (lengthPrefixed_append_inj hm3 hpart hrest).2
  have hne : lengthPrefixed m4RejectLabel ≠ [] := by decide +kernel
  exact hne hlabel

theorem rejectInput_inj {m3 m3' : Bytes} (ht2s : t2s.length = t2s'.length)
    (hm3 : m3.length < 65536) (hm3' : m3'.length < 65536)
    (h : rejectInput t2s m3 = rejectInput t2s' m3') : t2s = t2s' ∧ m3 = m3' := by
  obtain ⟨hdigest, hrest⟩ := List.append_inj h ht2s
  exact ⟨hdigest, (lengthPrefixed_append_inj hm3 hm3' hrest).1⟩

end SecureSync
