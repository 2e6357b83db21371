import SecureSync.HandshakeV3.Agreement

/-!
# What the attacker cannot do

The network can hand an exchange any bytes.  What it cannot make is a signature
under the key of an honest device, a MAC under a key that it does not hold, or
two inputs with the same hash among those that the exchanges feed to SHA-256.
-/

namespace SecureSync

open BigEndian Raising

/-! ## Signatures -/

/-- A signature that an exchange has verified. -/
structure SignatureCheck where
  publicKey : Bytes
  message : Bytes
  signature : Bytes
  deriving DecidableEq

def Initiator.signed (x : Initiator) : List Bytes :=
  (x.phase.sent?.map fun sent ↦ initiatorInput sent.t2s).toList

def Responder.signed (y : Responder) : List Bytes :=
  (y.phase.sent?.map fun sent ↦ responderInput sent.t2).toList

def Initiator.signatureChecks (x : Initiator) : List SignatureCheck :=
  (x.phase.verified?.map fun v ↦
    ⟨v.reply.identityPublicKey, responderInput v.t2, v.reply.sigR⟩).toList

def Responder.signatureChecks (y : Responder) : List SignatureCheck :=
  (y.phase.verified?.map fun p ↦
    ⟨p.1.hello.identityPublicKey, initiatorInput p.1.t2s, p.2.confirm.sigI⟩).toList

/-! ## Hashes -/

section Hashed

variable (sha256 : Sha256)

/-- The last input of the transcript of an accept. -/
def acceptInput (t3s macI : Bytes) : Bytes :=
  linkInput (sha256 (linkInput t3s macI)) m4AcceptLabel

/-- What `mac_f` of an accept authenticates. -/
def acceptDigest (t3s macI : Bytes) : Bytes := sha256 (acceptInput sha256 t3s macI)

/-- The part of the transcript that follows message 3 and its signature. -/
def acceptInputs (t3s macI : Bytes) : List Bytes :=
  [linkInput t3s macI, acceptInput sha256 t3s macI]

/-- The part between the two signatures. -/
def confirmInputs (t2s macR sigI : Bytes) : List Bytes :=
  [linkInput t2s macR, linkInput (sha256 (linkInput t2s macR)) sigI]

def ConfirmSent.inputs (sent : ConfirmSent) : List Bytes :=
  linkInput sent.t2 sent.reply.sigR :: (confirmInputs sha256 sent.t2s sent.reply.macR sent.sigI ++
    acceptInputs sha256 sent.t3s sent.macI)

def Initiator.hashed (x : Initiator) : List Bytes :=
  (x.phase.verified?.map fun v ↦ t2Input x.hello v.reply.body).toList ++
    x.phase.sent?.toList.flatMap (ConfirmSent.inputs sha256)

def ReplySent.inputs (sent : ReplySent) : List Bytes :=
  [t2Input sent.hello.raw sent.body, linkInput sent.t2 sent.sigR]

def Responder.hashed (y : Responder) : List Bytes :=
  y.phase.sent?.toList.flatMap ReplySent.inputs ++
    (y.phase.verified?.toList.flatMap fun p ↦
      confirmInputs sha256 p.1.t2s p.1.macR p.2.confirm.sigI) ++
    (y.phase.recorded?.toList.flatMap fun p ↦
      acceptInputs sha256 p.2.1.t3s p.2.1.confirm.macI) ++
    (y.phase.sent?.toList.flatMap fun sent ↦
      y.refused.toList.map fun m3 ↦ rejectInput sent.t2s m3)

theorem subset_flatMap_toList {α β : Type} {o : Option α} {a : α} (h : a ∈ o) (f : α → List β) :
    f a ⊆ o.toList.flatMap f :=
  fun _ hb ↦ List.mem_flatMap_of_mem (Option.mem_toList.mpr h) hb

section Initiator

variable {sha256} {x : Initiator}

theorem Initiator.t2Input_mem_hashed {v : ReplyVerified} (h : v ∈ x.phase.verified?) :
    t2Input x.hello v.reply.body ∈ x.hashed sha256 := by
  apply List.mem_append_left
  rw [h]
  exact List.mem_singleton_self _

theorem Initiator.inputs_subset_hashed {sent : ConfirmSent} (h : sent ∈ x.phase.sent?) :
    sent.inputs sha256 ⊆ x.hashed sha256 :=
  List.subset_append_of_subset_right _ (subset_flatMap_toList h _)

end Initiator

section Responder

variable {sha256} {y : Responder} {sent : ReplySent} {v : ConfirmVerified}

theorem Responder.inputs_subset_hashed (h : sent ∈ y.phase.sent?) :
    sent.inputs ⊆ y.hashed sha256 := by
  intro a ha
  apply List.mem_append_left
  apply List.mem_append_left
  apply List.mem_append_left
  exact subset_flatMap_toList h _ ha

theorem Responder.confirmInputs_subset_hashed (h : (sent, v) ∈ y.phase.verified?) :
    confirmInputs sha256 sent.t2s sent.macR v.confirm.sigI ⊆ y.hashed sha256 := by
  intro a ha
  apply List.mem_append_left
  apply List.mem_append_left
  apply List.mem_append_right
  exact subset_flatMap_toList h (fun p ↦ confirmInputs sha256 p.1.t2s p.1.macR p.2.confirm.sigI) ha

theorem Responder.acceptInputs_subset_hashed {res : HandshakeResult}
    (h : (sent, v, res) ∈ y.phase.recorded?) :
    acceptInputs sha256 v.t3s v.confirm.macI ⊆ y.hashed sha256 := by
  intro a ha
  apply List.mem_append_left
  apply List.mem_append_right
  exact subset_flatMap_toList h (fun p ↦ acceptInputs sha256 p.2.1.t3s p.2.1.confirm.macI) ha

theorem Responder.rejectInput_mem_hashed {m3 : Bytes} (h : sent ∈ y.phase.sent?)
    (hrefused : m3 ∈ y.refused) : rejectInput sent.t2s m3 ∈ y.hashed sha256 := by
  apply List.mem_append_right
  apply subset_flatMap_toList h fun sent ↦ y.refused.toList.map fun m3 ↦ rejectInput sent.t2s m3
  exact List.mem_map_of_mem (Option.mem_toList.mpr hrefused)

end Responder

end Hashed

/-! ## Confirmation MACs -/

section Macs

variable (sha256 : Sha256)

/-- The key and the transcript of `mac_i`. -/
def Initiator.macs (x : Initiator) : List (Bytes × Bytes) :=
  (x.phase.sent?.map fun sent ↦ (sent.secrets.initiatorConfirmationKey, sent.t3s)).toList

/-- Those of `mac_r` and of the MAC of a reject. -/
def Responder.otherMacs (y : Responder) : List (Bytes × Bytes) :=
  y.phase.sent?.toList.flatMap fun sent ↦
    (sent.secrets.responderConfirmationKey, sent.t2s) :: y.refused.toList.map fun m3 ↦
      (sent.secrets.responderConfirmationKey, sha256 (rejectInput sent.t2s m3))

def Responder.acceptMacs (y : Responder) : List (Bytes × Bytes) :=
  (y.phase.recorded?.map fun p ↦ (p.1.secrets.responderConfirmationKey,
    acceptDigest sha256 p.2.1.t3s p.2.1.confirm.macI)).toList

def Initiator.macChecks (x : Initiator) : List (Bytes × Bytes) :=
  (x.phase.sent?.map fun sent ↦ (sent.secrets.responderConfirmationKey, sent.t2s)).toList ++
    (x.phase.accepted?.map fun sent ↦ (sent.secrets.responderConfirmationKey,
      acceptDigest sha256 sent.t3s sent.macI)).toList

def Responder.macChecks (y : Responder) : List (Bytes × Bytes) :=
  (y.phase.authenticated?.map fun p ↦ (p.1.secrets.initiatorConfirmationKey, p.2.t3s)).toList

end Macs

/-! ## All exchanges together -/

namespace HandshakeWorld

variable {δ : Type} (w : HandshakeWorld δ) (sha256 : Sha256)

def signed : List (δ × Bytes) :=
  (w.initiators.flatMap fun p ↦ p.2.signed.map (p.1, ·)) ++
    w.responders.flatMap fun p ↦ p.2.signed.map (p.1, ·)

def signatureChecks : List SignatureCheck :=
  (w.initiators.flatMap fun p ↦ p.2.signatureChecks) ++
    w.responders.flatMap fun p ↦ p.2.signatureChecks

def hashed : List Bytes :=
  (w.initiators.flatMap fun p ↦ p.2.hashed sha256) ++
    w.responders.flatMap fun p ↦ p.2.hashed sha256

/-- The MACs other than those of accepts. -/
def otherMacs : List (Bytes × Bytes) :=
  (w.initiators.flatMap fun p ↦ p.2.macs) ++ w.responders.flatMap fun p ↦ p.2.otherMacs sha256

def acceptMacs : List (Bytes × Bytes) := w.responders.flatMap fun p ↦ p.2.acceptMacs sha256

def macChecks : List (Bytes × Bytes) :=
  (w.initiators.flatMap fun p ↦ p.2.macChecks sha256) ++
    w.responders.flatMap fun p ↦ p.2.macChecks

def CollisionFree : Prop :=
  ∀ a ∈ w.hashed sha256, ∀ b ∈ w.hashed sha256, sha256 a = sha256 b → a = b

instance : Decidable (w.CollisionFree sha256) :=
  inferInstanceAs (Decidable (∀ a ∈ w.hashed sha256, ∀ b ∈ w.hashed sha256,
    sha256 a = sha256 b → a = b))

/-- A MAC under a key that the attacker does not hold comes from an exchange. -/
def UnforgedMacs (held : Set Bytes) : Prop :=
  ∀ c ∈ w.macChecks sha256, c.1 ∉ held → c ∈ w.otherMacs sha256 ++ w.acceptMacs sha256

variable {w sha256}

theorem hashed_of_initiator {p : δ × Initiator} (hp : p ∈ w.initiators) :
    p.2.hashed sha256 ⊆ w.hashed sha256 :=
  fun _ ha ↦ List.mem_append_left _ (List.mem_flatMap_of_mem hp ha)

theorem hashed_of_responder {p : δ × Responder} (hp : p ∈ w.responders) :
    p.2.hashed sha256 ⊆ w.hashed sha256 :=
  fun _ ha ↦ List.mem_append_right _ (List.mem_flatMap_of_mem hp ha)

theorem CollisionFree.linkInput_inj (hfree : w.CollisionFree sha256)
    {digest digest' part part' : Bytes} (hmem : linkInput digest part ∈ w.hashed sha256)
    (hmem' : linkInput digest' part' ∈ w.hashed sha256) (hdigest : digest.length = digest'.length)
    (hpart : part.length < 65536) (hpart' : part'.length < 65536)
    (h : sha256 (linkInput digest part) = sha256 (linkInput digest' part')) :
    digest = digest' ∧ part = part' :=
  SecureSync.linkInput_inj hdigest hpart hpart' (hfree _ hmem _ hmem' h)

end HandshakeWorld

/-- Under the key of an honest device only what it has signed verifies. -/
def HandshakeSetting.UnforgedSignatures {δ : Type} (setting : HandshakeSetting δ)
    (w : HandshakeWorld δ) : Prop :=
  ∀ d, ∀ c ∈ w.signatureChecks, c.publicKey = (setting.identity d).publicKey →
    setting.crypto.identityProvider.verify c.publicKey c.message c.signature = true →
      (d, c.message) ∈ w.signed

/-! ## What equal hashes say -/

namespace HandshakeSetting

variable {δ : Type} {setting : HandshakeSetting δ} {w : HandshakeWorld δ} {d d' : δ}
  {x : Initiator} {y : Responder} {sent : ConfirmSent} {sent' : ReplySent}

/-- The hash `t2` covers the first two messages. -/
theorem Sound.sameMessages (h : setting.Sound w) (hfree : w.CollisionFree setting.crypto.sha256)
    (hx : (d, x) ∈ w.initiators) (hy : (d', y) ∈ w.responders) (hsent : sent ∈ x.phase.sent?)
    (hsent' : sent' ∈ y.phase.sent?) (ht2 : sent'.t2 = sent.t2) : SameMessages x sent sent' := by
  have hreplied := (h.initiators _ hx).reply_valid hsent
  have hanswered := ((h.responders _ hy).sent _ hsent').reply
  have hinput := hfree _ (HandshakeWorld.hashed_of_responder hy
      (Responder.inputs_subset_hashed hsent' List.mem_cons_self)) _
    (HandshakeWorld.hashed_of_initiator hx
      (Initiator.t2Input_mem_hashed (InitiatorPhase.verified?_of_sent? hsent)))
    (hanswered.t2_eq.trans (ht2.trans hreplied.t2_eq.symm))
  obtain ⟨hhello, hbody⟩ := t2Input_inj hanswered.length_hello hreplied.length_hello
    hanswered.length_body hreplied.length_body hinput
  exact ⟨hhello, hbody⟩

/-- The hash `t2s` covers `t2` and the responder's signature. -/
theorem Sound.t2_eq_of_t2s (h : setting.Sound w) (hfree : w.CollisionFree setting.crypto.sha256)
    (hx : (d, x) ∈ w.initiators) (hy : (d', y) ∈ w.responders) (hsent : sent ∈ x.phase.sent?)
    (hsent' : sent' ∈ y.phase.sent?) (ht2s : sent'.t2s = sent.t2s) :
    sent'.t2 = sent.t2 ∧ sent'.sigR = sent.reply.sigR := by
  have hconfirmed := (h.initiators _ hx).sent _ hsent
  have hanswered := ((h.responders _ hy).sent _ hsent').reply
  have hinput := hfree _ (HandshakeWorld.hashed_of_responder hy
      (Responder.inputs_subset_hashed hsent' (List.mem_cons_of_mem _ List.mem_cons_self))) _
    (HandshakeWorld.hashed_of_initiator hx
      (Initiator.inputs_subset_hashed hsent List.mem_cons_self))
    (hanswered.t2s_eq.trans (ht2s.trans hconfirmed.t2s_eq.symm))
  have hsigR : sent'.sigR.length < 65536 := by
    rw [hanswered.length_sigR]
    decide
  exact linkInput_inj (hanswered.derives.length_t2.trans hconfirmed.derives.length_t2.symm) hsigR
    hconfirmed.length_sigR hinput

end HandshakeSetting
end SecureSync
