import SecureSync.HandshakeV3.Transcripts
import SecureSync.Library.HashChain

/-!
# The chain of transcripts

What a transcript says about the messages that it covers, as long as the hash has
no collision among its inputs.
-/

namespace SecureSync

open BigEndian Raising HashChain

/-- What a confirmed handshake hashes, part by part. -/
structure TranscriptParts where
  m1 : Bytes
  m2body : Bytes
  sigR : Bytes
  macR : Bytes
  sigI : Bytes
  macI : Bytes
  deriving DecidableEq

structure TranscriptDigests where
  t2 : Bytes
  t2s : Bytes
  t3 : Bytes
  t3s : Bytes
  tFinal : Bytes

namespace TranscriptParts

variable (sha256 : Sha256) (parts : TranscriptParts)

def digests : Except MessageError TranscriptDigests := do
  let t2 ← transcriptT2 sha256 parts.m1 parts.m2body
  let t2s ← transcriptT2s sha256 t2 parts.sigR
  let t3 ← transcriptT3 sha256 t2s parts.macR
  let t3s ← transcriptT3s sha256 t3 parts.sigI
  let tFinal ← transcriptFinal sha256 t3s parts.macI
  return ⟨t2, t2s, t3, t3s, tFinal⟩

/-- The parts behind `t2`. -/
def linked : List Bytes := [parts.sigR, parts.macR, parts.sigI, parts.macI]

def t2 : Bytes := sha256 (t2Input parts.m1 parts.m2body)

/-- The inputs of the five hashes. -/
def hashed : List Bytes :=
  t2Input parts.m1 parts.m2body :: links linkInput sha256 (parts.t2 sha256) parts.linked

/-- Each part has a length prefix. -/
structure Fits : Prop where
  m1 : parts.m1.length < 65536
  m2body : parts.m2body.length < 65536
  linked : ∀ part ∈ parts.linked, part.length < 65536

variable {sha256 parts}

theorem digests_eq_ok {digests : TranscriptDigests} (h : parts.digests sha256 = .ok digests) :
    parts.Fits ∧ chain linkInput sha256 (parts.t2 sha256) parts.linked = digests.tFinal := by
  simp only [TranscriptParts.digests, transcriptT2s, transcriptT3, transcriptT3s, transcriptFinal,
    except_bind_eq_ok, transcriptT2_eq_ok, transcriptLink_eq_ok] at h
  obtain ⟨t2, ⟨hm1, hm2body, rfl⟩, t2s, ⟨hsigR, rfl⟩, t3, ⟨hmacR, rfl⟩, t3s, ⟨hsigI, rfl⟩, tFinal,
    ⟨hmacI, rfl⟩, hreturn⟩ := h
  obtain rfl := Except.ok.inj hreturn
  refine ⟨⟨hm1, hm2body, ?_⟩, rfl⟩
  simp only [linked, List.forall_mem_cons]
  exact ⟨hsigR, hmacR, hsigI, hmacI, List.forall_mem_nil _⟩

theorem Fits.exists_digests (h : parts.Fits) (sha256 : Sha256) :
    ∃ digests, parts.digests sha256 = .ok digests := by
  have hlinked := h.linked
  simp only [TranscriptParts.linked, List.forall_mem_cons] at hlinked
  obtain ⟨hsigR, hmacR, hsigI, hmacI, -⟩ := hlinked
  simp only [TranscriptParts.digests, transcriptT2s, transcriptT3, transcriptT3s, transcriptFinal,
    except_bind_eq_ok, transcriptT2_eq_ok, transcriptLink_eq_ok]
  exact ⟨_, _, ⟨h.m1, h.m2body, rfl⟩, _, ⟨hsigR, rfl⟩, _, ⟨hmacR, rfl⟩, _, ⟨hsigI, rfl⟩, _,
    ⟨hmacI, rfl⟩, rfl⟩

variable {S : Set Bytes} {parts' : TranscriptParts}

theorem eq_of_chain_eq (hsized : sha256.Sized) (hfree : Set.InjOn sha256 S) (hfits : parts.Fits)
    (hfits' : parts'.Fits) (hS : ∀ a ∈ parts.hashed sha256, a ∈ S)
    (hS' : ∀ a ∈ parts'.hashed sha256, a ∈ S)
    (h : chain linkInput sha256 (parts.t2 sha256) parts.linked =
      chain linkInput sha256 (parts'.t2 sha256) parts'.linked) : parts = parts' := by
  rw [hashed, List.forall_mem_cons] at hS hS'
  obtain ⟨ht2, hlinked⟩ := chain_inj (A := fun d : Bytes ↦ d.length = transcriptSize)
    (B := fun part : Bytes ↦ part.length < 65536) hsized hfree
    (fun d d' p p' hd hd' hp hp' hlink ↦ linkInput_inj (hd.trans hd'.symm) hp hp' hlink)
    (hsized _) (hsized _) hfits.linked hfits'.linked rfl hS.2 hS'.2 h
  have hinput := hfree hS.1 hS'.1 ht2
  obtain ⟨hm1, hm2body⟩ := t2Input_inj hfits.m1 hfits'.m1 hfits.m2body hfits'.m2body hinput
  simp only [linked, List.cons.injEq, and_true] at hlinked
  obtain ⟨hsigR, hmacR, hsigI, hmacI⟩ := hlinked
  cases parts
  cases parts'
  congr

end TranscriptParts

section Rejects

variable {sha256 : Sha256} {S : Set Bytes} {t2s t2s' m3 m3' transcript : Bytes}

theorem eq_of_transcriptM4Reject_eq (hfree : Set.InjOn sha256 S) (ht2s : t2s.length = t2s'.length)
    (hS : rejectInput t2s m3 ∈ S) (hS' : rejectInput t2s' m3' ∈ S)
    (h : transcriptM4Reject sha256 t2s m3 = .ok transcript)
    (h' : transcriptM4Reject sha256 t2s' m3' = .ok transcript) : t2s = t2s' ∧ m3 = m3' := by
  obtain ⟨hm3, hreject⟩ := transcriptM4Reject_eq_ok.mp h
  obtain ⟨hm3', rfl⟩ := transcriptM4Reject_eq_ok.mp h'
  exact rejectInput_inj ht2s hm3 hm3' (hfree hS hS' hreject)

/-- The inputs of the MACs under `k_r` are the digests of inputs of three shapes. -/
theorem pairwise_ne_of_hashed {t2 sigR tFinal a b c : Bytes} (hfree : Set.InjOn sha256 S)
    (ht2 : t2.length = transcriptSize) (htFinal : tFinal.length = transcriptSize)
    (ht2s : t2s.length = transcriptSize) (hsigR : sigR.length = ed25519SignatureSize)
    (hlink : linkInput t2 sigR ∈ S) (haccept : linkInput tFinal m4AcceptLabel ∈ S)
    (hreject : rejectInput t2s m3 ∈ S) (ha : transcriptT2s sha256 t2 sigR = .ok a)
    (hb : transcriptM4Accept sha256 tFinal = .ok b)
    (hc : transcriptM4Reject sha256 t2s m3 = .ok c) : a ≠ b ∧ a ≠ c ∧ b ≠ c := by
  obtain ⟨hpart, rfl⟩ := transcriptLink_eq_ok.mp ha
  obtain rfl := Except.ok.inj ((transcriptM4Accept_run tFinal).symm.trans hb)
  obtain ⟨hm3, rfl⟩ := transcriptM4Reject_eq_ok.mp hc
  refine ⟨fun h ↦ ?_, fun h ↦ ?_, fun h ↦ ?_⟩
  · exact linkInput_ne_accept htFinal ht2 hsigR (hfree hlink haccept h)
  · exact rejectInput_ne_linkInput hm3 hpart (ht2s.trans ht2.symm) (hfree hreject hlink h.symm)
  · exact rejectInput_ne_accept htFinal m3 ht2s (hfree hreject haccept h.symm)

end Rejects

/-- Among the inputs in `S`: equal final transcripts cover equal messages, equal
rejects answer the same message, the three inputs of MACs under `k_r` are told
apart, and so are the two signatures. -/
theorem transcripts_separated {sha256 : Sha256} {S : Set Bytes} (hsized : sha256.Sized)
    (hfree : Set.InjOn sha256 S) :
    (∀ (parts parts' : TranscriptParts) (d d' : TranscriptDigests),
        parts.digests sha256 = .ok d → parts'.digests sha256 = .ok d' →
          (∀ a ∈ parts.hashed sha256, a ∈ S) → (∀ a ∈ parts'.hashed sha256, a ∈ S) →
            d.tFinal = d'.tFinal → parts = parts') ∧
      (∀ t2s t2s' m3 m3' transcript : Bytes, t2s.length = transcriptSize →
        t2s'.length = transcriptSize → rejectInput t2s m3 ∈ S → rejectInput t2s' m3' ∈ S →
          transcriptM4Reject sha256 t2s m3 = .ok transcript →
            transcriptM4Reject sha256 t2s' m3' = .ok transcript → t2s = t2s' ∧ m3 = m3') ∧
        (∀ t2 sigR tFinal t2s m3 a b c : Bytes, t2.length = transcriptSize →
          sigR.length = ed25519SignatureSize → tFinal.length = transcriptSize →
            t2s.length = transcriptSize → linkInput t2 sigR ∈ S →
              linkInput tFinal m4AcceptLabel ∈ S → rejectInput t2s m3 ∈ S →
                transcriptT2s sha256 t2 sigR = .ok a → transcriptM4Accept sha256 tFinal = .ok b →
                  transcriptM4Reject sha256 t2s m3 = .ok c → a ≠ b ∧ a ≠ c ∧ b ≠ c) ∧
          ∀ t2 t2s a b : Bytes, signedResponder t2 = .ok a → signedInitiator t2s = .ok b →
            a ≠ b := by
  refine ⟨?_, ?_, ?_, ?_⟩
  · intro parts parts' d d' h h' hS hS' htFinal
    obtain ⟨hfits, hd⟩ := TranscriptParts.digests_eq_ok h
    obtain ⟨hfits', hd'⟩ := TranscriptParts.digests_eq_ok h'
    apply TranscriptParts.eq_of_chain_eq hsized hfree hfits hfits' hS hS'
    rw [hd, hd', htFinal]
  · intro t2s t2s' m3 m3' transcript ht2s ht2s' hS hS' h h'
    exact eq_of_transcriptM4Reject_eq hfree (ht2s.trans ht2s'.symm) hS hS' h h'
  · intro t2 sigR tFinal t2s m3 a b c ht2 hsigR htFinal ht2s hlink haccept hreject ha hb hc
    exact pairwise_ne_of_hashed hfree ht2 htFinal ht2s hsigR hlink haccept hreject ha hb hc
  · rintro t2 t2s a b ha hb
    obtain rfl := Except.ok.inj ((signedResponder_run t2).symm.trans ha)
    obtain rfl := Except.ok.inj ((signedInitiator_run t2s).symm.trans hb)
    exact responderInput_ne_initiatorInput t2 t2s

def sampleParts (m1 : UInt8) : TranscriptParts :=
  ⟨[m1], [2], encode 64 3, encode 32 4, encode 64 5, encode 32 6⟩

theorem fits_sampleParts (m1 : UInt8) : (sampleParts m1).Fits where
  m1 := by simp [sampleParts]
  m2body := by simp [sampleParts]
  linked := by simp [sampleParts, TranscriptParts.linked]

/-- Another message 1, another final transcript. -/
theorem transcripts_separated_sample : ∃ d d',
    (sampleParts 1).digests pairCrypto.sha256 = .ok d ∧
      (sampleParts 2).digests pairCrypto.sha256 = .ok d' ∧ d.tFinal ≠ d'.tFinal := by
  obtain ⟨d, hd⟩ := (fits_sampleParts 1).exists_digests pairCrypto.sha256
  obtain ⟨d', hd'⟩ := (fits_sampleParts 2).exists_digests pairCrypto.sha256
  refine ⟨d, d', hd, hd', fun htFinal ↦ ?_⟩
  have hfree : ∀ a ∈ (sampleParts 1).hashed pairCrypto.sha256 ++
      (sampleParts 2).hashed pairCrypto.sha256, ∀ b ∈ (sampleParts 1).hashed pairCrypto.sha256 ++
        (sampleParts 2).hashed pairCrypto.sha256,
      pairCrypto.sha256 a = pairCrypto.sha256 b → a = b := by
    decide +kernel
  have hparts := (transcripts_separated (fun bs ↦ length_encode 32 _) fun a ha b hb ↦
    hfree a ha b hb).1 (sampleParts 1) (sampleParts 2) d d' hd hd'
    (fun _ ↦ List.mem_append_left _) (fun _ ↦ List.mem_append_right _) htFinal
  have hne : sampleParts 1 ≠ sampleParts 2 := by decide
  exact hne hparts

end SecureSync
