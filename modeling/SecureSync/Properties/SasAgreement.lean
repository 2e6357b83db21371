import SecureSync.HandshakeV3.Transcripts
import SecureSync.Infrastructure.HandshakeSas

/-!
# What a short authentication string rules out

Two users who find the same material on both sides have been in one exchange with each
other.  Neither pins nor the signatures are needed for it, only that SHA-256 has no
collision.
-/

namespace SecureSync

open BigEndian Raising

section Material

variable (sha256 : Sha256)

/-- The material of a side, from what its transcript ends in. -/
def sasOf (t3s macI : Bytes) : Option Bytes := do
  let tFinal ← (transcriptFinal sha256 t3s macI).toOption
  (sasMaterial sha256 tFinal).toOption

/-- What is hashed for it. -/
def sasInput (t3s macI : Bytes) : Bytes :=
  transcriptLabel ++ lengthPrefixed sasLabel ++ sha256 (linkInput t3s macI)

def sasInputs (t3s macI : Bytes) : List Bytes := [linkInput t3s macI, sasInput sha256 t3s macI]

variable {sha256} {t3s macI : Bytes}

theorem macSize_lt : macSize < 65536 := by decide

theorem ed25519SignatureSize_lt : ed25519SignatureSize < 65536 := by decide

theorem sasOf_eq_some (hsized : sha256.Sized) (hmacI : macI.length = macSize) :
    sasOf sha256 t3s macI = some (sha256 (sasInput sha256 t3s macI)) := by
  have hfield : ∀ part ∈ [macI], part.length < 65536 := by
    intro part hpart
    obtain rfl := List.mem_singleton.mp hpart
    exact hmacI.trans_lt macSize_lt
  have hfinal : transcriptFinal sha256 t3s macI = .ok (sha256 (linkInput t3s macI)) := by
    apply transcriptHash_eq_ok.mpr
    refine ⟨hfield, ?_⟩
    rw [List.flatMap_singleton, linkInput]
  have hmaterial : sasMaterial sha256 (sha256 (linkInput t3s macI)) =
      .ok (sha256 (sasInput sha256 t3s macI)) := by
    apply except_bind_eq_ok.mpr
    refine ⟨(), require_eq_ok.mpr (hsized _), ?_⟩
    rw [sasInput]
    rfl
  rw [sasOf, hfinal]
  exact congrArg Except.toOption hmaterial

end Material

def Initiator.sasHashed (sha256 : Sha256) (x : Initiator) : List Bytes :=
  x.phase.sent?.toList.flatMap fun sent ↦ sasInputs sha256 sent.t3s sent.macI

def Responder.sasHashed (sha256 : Sha256) (y : Responder) : List Bytes :=
  y.phase.verified?.toList.flatMap fun p ↦ sasInputs sha256 p.2.t3s p.2.confirm.macI

namespace HandshakeWorld

variable {δ : Type} (w : HandshakeWorld δ) (sha256 : Sha256)

/-- What the exchanges hash, and what is hashed for the material that they show. -/
def sasHashed : List Bytes :=
  w.hashed sha256 ++ ((w.initiators.flatMap fun p ↦ p.2.sasHashed sha256) ++
    w.responders.flatMap fun p ↦ p.2.sasHashed sha256)

def SasCollisionFree : Prop :=
  ∀ a ∈ w.sasHashed sha256, ∀ b ∈ w.sasHashed sha256, sha256 a = sha256 b → a = b

instance : Decidable (w.SasCollisionFree sha256) :=
  inferInstanceAs (Decidable (∀ a ∈ w.sasHashed sha256, ∀ b ∈ w.sasHashed sha256,
    sha256 a = sha256 b → a = b))

variable {w sha256} {d : δ} {x : Initiator} {y : Responder} {sent : ConfirmSent}
  {sent' : ReplySent} {v : ConfirmVerified}

theorem SasCollisionFree.collisionFree (h : w.SasCollisionFree sha256) :
    w.CollisionFree sha256 :=
  fun a ha b hb ↦ h a (List.mem_append_left _ ha) b (List.mem_append_left _ hb)

theorem mem_of_confirmInputs {t2s macR sigI : Bytes} {inputs : List Bytes}
    (h : confirmInputs sha256 t2s macR sigI ⊆ inputs) :
    linkInput t2s macR ∈ inputs ∧ linkInput (sha256 (linkInput t2s macR)) sigI ∈ inputs := by
  rw [confirmInputs] at h
  exact ⟨h List.mem_cons_self, h (List.mem_cons_of_mem _ List.mem_cons_self)⟩

theorem confirmInputs_of_initiator (sha256 : Sha256) (hx : (d, x) ∈ w.initiators)
    (hsent : sent ∈ x.phase.sent?) :
    linkInput sent.t2s sent.reply.macR ∈ w.hashed sha256 ∧
      linkInput (sha256 (linkInput sent.t2s sent.reply.macR)) sent.sigI ∈ w.hashed sha256 := by
  apply mem_of_confirmInputs
  intro a ha
  apply hashed_of_initiator hx
  apply Initiator.inputs_subset_hashed hsent
  rw [ConfirmSent.inputs]
  apply List.mem_cons_of_mem
  apply List.mem_append_left
  exact ha

theorem confirmInputs_of_responder (sha256 : Sha256) (hy : (d, y) ∈ w.responders)
    (hverified : (sent', v) ∈ y.phase.verified?) :
    linkInput sent'.t2s sent'.macR ∈ w.hashed sha256 ∧
      linkInput (sha256 (linkInput sent'.t2s sent'.macR)) v.confirm.sigI ∈ w.hashed sha256 := by
  have hsubset : confirmInputs sha256 sent'.t2s sent'.macR v.confirm.sigI ⊆ w.hashed sha256 :=
    List.Subset.trans (Responder.confirmInputs_subset_hashed hverified) (hashed_of_responder hy)
  exact mem_of_confirmInputs hsubset

theorem sasInputs_of_initiator (sha256 : Sha256) (hx : (d, x) ∈ w.initiators)
    (hsent : sent ∈ x.phase.sent?) :
    sasInputs sha256 sent.t3s sent.macI ⊆ w.sasHashed sha256 := by
  intro a ha
  apply List.mem_append_right
  apply List.mem_append_left
  apply List.mem_flatMap_of_mem hx
  exact subset_flatMap_toList hsent (fun sent ↦ sasInputs sha256 sent.t3s sent.macI) ha

theorem sasInputs_of_responder (sha256 : Sha256) (hy : (d, y) ∈ w.responders)
    (hverified : (sent', v) ∈ y.phase.verified?) :
    sasInputs sha256 v.t3s v.confirm.macI ⊆ w.sasHashed sha256 := by
  intro a ha
  apply List.mem_append_right
  apply List.mem_append_right
  apply List.mem_flatMap_of_mem hy
  exact subset_flatMap_toList hverified (fun p ↦ sasInputs sha256 p.2.t3s p.2.confirm.macI) ha

/-- Equal material comes from equal ends of the transcript. -/
theorem SasCollisionFree.inj (hfree : w.SasCollisionFree sha256) {d' : δ}
    (hx : (d, x) ∈ w.initiators) (hsent : sent ∈ x.phase.sent?)
    (hy : (d', y) ∈ w.responders) (hverified : (sent', v) ∈ y.phase.verified?)
    (hmac : sent.macI.length = macSize) (hmac' : v.confirm.macI.length = macSize)
    (h : sha256 (sasInput sha256 sent.t3s sent.macI) =
      sha256 (sasInput sha256 v.t3s v.confirm.macI)) :
    sent.t3s = v.t3s ∧ sent.macI = v.confirm.macI := by
  have hinputs := sasInputs_of_initiator sha256 hx hsent
  have hinputs' := sasInputs_of_responder sha256 hy hverified
  have hmaterial := hfree _ (hinputs (List.mem_cons_of_mem _ List.mem_cons_self)) _
    (hinputs' (List.mem_cons_of_mem _ List.mem_cons_self)) h
  have hfinal := hfree _ (hinputs List.mem_cons_self) _ (hinputs' List.mem_cons_self)
    (List.append_cancel_left hmaterial)
  have hlength := congrArg List.length hfinal
  rw [length_linkInput, length_linkInput, hmac, hmac'] at hlength
  exact linkInput_inj (Nat.add_right_cancel hlength) (hmac.trans_lt macSize_lt)
    (hmac'.trans_lt macSize_lt) hfinal

end HandshakeWorld

/-- The first three messages are the same on both sides, to the last MAC. -/
structure SameConversation (x : Initiator) (sent : ConfirmSent) (sent' : ReplySent)
    (v : ConfirmVerified) : Prop extends SameMessages x sent sent' where
  sigR : sent'.sigR = sent.reply.sigR
  macR : sent'.macR = sent.reply.macR
  sigI : v.confirm.sigI = sent.sigI
  macI : v.confirm.macI = sent.macI

/-- Whatever one side makes of the session, the other makes the mirror image of it. -/
def ConfirmSent.Mirrors (I R : HandshakeV3) (sent : ConfirmSent) (sent' : ReplySent) : Prop :=
  (∀ res, HandshakeV3.result sent.reply.toHandshakeFields sent.secrets .initiator = .ok res →
    ∃ res', HandshakeV3.result sent'.hello.toHandshakeFields sent'.secrets .responder = .ok res' ∧
      res.Mirrors I R res') ∧
    ∀ res', HandshakeV3.result sent'.hello.toHandshakeFields sent'.secrets .responder = .ok res' →
      ∃ res, HandshakeV3.result sent.reply.toHandshakeFields sent.secrets .initiator = .ok res ∧
        res.Mirrors I R res'

namespace HandshakeSetting

variable {δ : Type} {setting : HandshakeSetting δ} {w : HandshakeWorld δ} {d d' : δ}
  {x : Initiator} {y : Responder} {sent : ConfirmSent} {sent' : ReplySent} {v : ConfirmVerified}

/-- The hash `t3s` covers the two signatures, the responder's MAC and, through `t2`, the first
two messages. -/
theorem Sound.sameConversation (h : setting.Sound w) (hsized : setting.crypto.sha256.Sized)
    (hfree : w.CollisionFree setting.crypto.sha256) (hx : (d, x) ∈ w.initiators)
    (hy : (d', y) ∈ w.responders) (hsent : sent ∈ x.phase.sent?)
    (hverified : (sent', v) ∈ y.phase.verified?) (ht3s : v.t3s = sent.t3s)
    (hmacI : v.confirm.macI = sent.macI) : SameConversation x sent sent' v := by
  have hsent' := ResponderPhase.sent?_of_verified? hverified
  have hconfirmed := (h.initiators _ hx).sent _ hsent
  have hanswered := ((h.responders _ hy).sent _ hsent').reply
  have hchecked := (h.responders _ hy).verified _ hverified
  have hinputs := HandshakeWorld.confirmInputs_of_initiator setting.crypto.sha256 hx hsent
  have hinputs' := HandshakeWorld.confirmInputs_of_responder setting.crypto.sha256 hy hverified
  have hlength : sent.t2s.length = transcriptSize := by
    rw [← hconfirmed.t2s_eq]
    exact hsized _
  have hlength' : sent'.t2s.length = transcriptSize := by
    rw [← hanswered.t2s_eq]
    exact hsized _
  have ht3s' : setting.crypto.sha256 (linkInput (setting.crypto.sha256
      (linkInput sent'.t2s sent'.macR)) v.confirm.sigI) =
        setting.crypto.sha256 (linkInput (setting.crypto.sha256
          (linkInput sent.t2s sent.reply.macR)) sent.sigI) :=
    hchecked.t3s_eq.trans (ht3s.trans hconfirmed.t3s_eq.symm)
  -- the chain is unwound from its end, one link at a time
  obtain ⟨ht3, hsigI⟩ := hfree.linkInput_inj hinputs'.2 hinputs.2 ((hsized _).trans (hsized _).symm)
    (hchecked.confirm_valid.length_sigI.trans_lt ed25519SignatureSize_lt)
    (hconfirmed.length_sigI.trans_lt ed25519SignatureSize_lt) ht3s'
  obtain ⟨ht2s, hmacR⟩ := hfree.linkInput_inj hinputs'.1 hinputs.1 (hlength'.trans hlength.symm)
    (hanswered.length_macR.trans_lt macSize_lt) (hconfirmed.length_macR.trans_lt macSize_lt) ht3
  obtain ⟨ht2, hsigR⟩ := h.t2_eq_of_t2s hfree hx hy hsent hsent' ht2s
  have hsame := h.sameMessages hfree hx hy hsent hsent' ht2
  exact ⟨hsame, hsigR, hmacR, hsigI, hmacI⟩

/-- The first three messages lead to one value of `t3s`. -/
theorem Sound.t3s_eq (h : setting.Sound w) (hcommutes : setting.crypto.keyExchange.Commutes)
    (hx : (d, x) ∈ w.initiators) (hy : (d', y) ∈ w.responders) (hsent : sent ∈ x.phase.sent?)
    (hverified : (sent', v) ∈ y.phase.verified?) (hsame : SameConversation x sent sent' v) :
    v.t3s = sent.t3s := by
  have hsent' := ResponderPhase.sent?_of_verified? hverified
  have hshared := hsame.toSameMessages.shared (h.initiators _ hx) (h.responders _ hy) hsent hsent'
    rfl hcommutes
  have ht2s : sent'.t2s = sent.t2s := by
    rw [← ((h.responders _ hy).sent _ hsent').reply.t2s_eq, hshared.t2, hsame.sigR]
    exact ((h.initiators _ hx).sent _ hsent).t2s_eq
  have hchecked := ((h.responders _ hy).verified _ hverified).t3s_eq
  rw [ht2s, hsame.macR, hsame.sigI] at hchecked
  exact hchecked.symm.trans ((h.initiators _ hx).sent _ hsent).t3s_eq

end HandshakeSetting

variable {δ : Type} [DecidableEq δ] {setting : HandshakeSetting δ}

/-- Whatever the network has done, two sides show the same material if and only if they have had
the same conversation; then each has the identity key of the other, and the sessions mirror each
other. -/
theorem sas_agrees_iff (stores : δ → HandshakeStores) (events : List (HandshakeEvent δ))
    (hcommutes : setting.crypto.keyExchange.Commutes) (hsized : setting.crypto.sha256.Sized)
    (hfree : (setting.exec stores events).SasCollisionFree setting.crypto.sha256) :
    ∀ d x, (d, x) ∈ (setting.exec stores events).initiators → ∀ sent ∈ x.phase.sent?,
      ∀ d' y, (d', y) ∈ (setting.exec stores events).responders →
        ∀ sent' v, (sent', v) ∈ y.phase.verified? →
          ∃ material material', sasOf setting.crypto.sha256 sent.t3s sent.macI = some material ∧
            sasOf setting.crypto.sha256 v.t3s v.confirm.macI = some material' ∧
              (material = material' ↔ SameConversation x sent sent' v) ∧
                (material = material' →
                  sent.reply.identityPublicKey = (setting.identity d').publicKey ∧
                    sent'.hello.identityPublicKey = (setting.identity d).publicKey ∧
                      sent.Mirrors (setting.handshake d) (setting.handshake d') sent') := by
  intro d x hx sent hsent d' y hy sent' v hverified
  have hsound := setting.sound_exec stores events
  have hsent' := ResponderPhase.sent?_of_verified? hverified
  have hconfirmed := (hsound.initiators _ hx).sent _ hsent
  have hmacI := ((hsound.responders _ hy).verified _ hverified).confirm_valid.length_macI
  have hiff : setting.crypto.sha256 (sasInput setting.crypto.sha256 sent.t3s sent.macI) =
      setting.crypto.sha256 (sasInput setting.crypto.sha256 v.t3s v.confirm.macI) ↔
        SameConversation x sent sent' v := by
    constructor
    · intro hmaterial
      obtain ⟨ht3s, hmac⟩ := hfree.inj hx hsent hy hverified hconfirmed.length_macI hmacI
        hmaterial
      exact hsound.sameConversation hsized hfree.collisionFree hx hy hsent hverified ht3s.symm
        hmac.symm
    · intro hsame
      rw [hsound.t3s_eq hcommutes hx hy hsent hverified hsame, hsame.macI]
  refine ⟨_, _, sasOf_eq_some hsized hconfirmed.length_macI, sasOf_eq_some hsized hmacI, hiff,
    fun hmaterial ↦ ?_⟩
  have hsame := (hiff.mp hmaterial).toSameMessages
  have hshared := hsame.shared (hsound.initiators _ hx) (hsound.responders _ hy) hsent hsent' rfl
    hcommutes
  refine ⟨?_, ?_, fun res hres ↦ ?_, fun res' hres' ↦ ?_⟩
  · rw [← hshared.reply, ((hsound.responders _ hy).sent _ hsent').reply.fields_eq]
    rfl
  · obtain ⟨nonce, hown⟩ := (hsound.initiators _ hx).hello_eq hsent
    rw [hshared.hello, hown]
    rfl
  · exact hshared.exists_mirror (hsound.initiators _ hx) (hsound.responders _ hy) hsent hsent' hres
  · exact hshared.exists_mirrored (hsound.initiators _ hx) (hsound.responders _ hy) hsent hsent'
      hres'

/-! ### Alice and Bob -/

theorem pairCrypto_sized : pairCrypto.sha256.Sized := fun _ ↦ length_encode 32 _

theorem sas_agrees_iff_pair : ∃ x y sent sent' v,
    (false, x) ∈ (v3PairSetting.exec noStores pairEvents).initiators ∧ sent ∈ x.phase.sent? ∧
      (true, y) ∈ (v3PairSetting.exec noStores pairEvents).responders ∧
        (sent', v) ∈ y.phase.verified? ∧
          (sasOf pairCrypto.sha256 sent.t3s sent.macI =
              sasOf pairCrypto.sha256 v.t3s v.confirm.macI ↔ SameConversation x sent sent' v) := by
  have hpair : ∃ p ∈ (v3PairSetting.exec noStores pairEvents).initiators, p.1 = false ∧
      ∃ sent ∈ p.2.phase.sent?,
        ∃ q ∈ (v3PairSetting.exec noStores pairEvents).responders, q.1 = true ∧
          ∃ r ∈ q.2.phase.verified?, True := by
    decide +kernel
  obtain ⟨⟨_, x⟩, hx, rfl, sent, hsent, ⟨_, y⟩, hy, rfl, ⟨sent', v⟩, hverified, -⟩ := hpair
  obtain ⟨material, material', hmaterial, hmaterial', hiff, -⟩ := sas_agrees_iff noStores pairEvents
    pairCrypto_commutes pairCrypto_sized (by decide +kernel) false x hx sent hsent true y hy sent' v
    hverified
  refine ⟨x, y, sent, sent', v, hx, hsent, hy, hverified, ?_⟩
  change sasOf v3PairSetting.crypto.sha256 sent.t3s sent.macI =
    sasOf v3PairSetting.crypto.sha256 v.t3s v.confirm.macI ↔ _
  rw [hmaterial, hmaterial', Option.some_inj, hiff]

end SecureSync
