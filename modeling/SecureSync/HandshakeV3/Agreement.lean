import SecureSync.HandshakeV3.Soundness

/-!
# Two exchanges on the same two messages

The codecs are injective and the key schedule is a function of what the first
two messages say, so that sides which agree on their bytes agree on the session.
-/

namespace SecureSync

open BigEndian Raising

/-- What the two sides of a session return. -/
structure HandshakeResult.Mirrors (initiator responder : HandshakeV3)
    (res res' : HandshakeResult) : Prop where
  sessionId : res.sessionId = res'.sessionId
  role : res.role = .initiator ∧ res'.role = .responder
  sendKey : res.sendKey = res'.receiveKey
  receiveKey : res.receiveKey = res'.sendKey
  peerDeviceId : res.peerDeviceId = responder.ownDeviceId ∧
    res'.peerDeviceId = initiator.ownDeviceId
  peerTransferPort : res.peerTransferPort = responder.ownTransferPort ∧
    res'.peerTransferPort = initiator.ownTransferPort
  peerManifestPort : res.peerManifestPort = responder.ownManifestPort ∧
    res'.peerManifestPort = initiator.ownManifestPort

theorem HandshakeFields.layout_inj {fields fields' : HandshakeFields} (h : fields.Readable)
    (h' : fields'.Readable) (heq : fields.layout = fields'.layout) : fields = fields' := by
  have hread : decodeFields msgHello "" (3 :: msgHello :: (fields.layout ++ [])) =
      .ok (fields, []) := decodeFields_eq_ok.mpr ⟨h, rfl⟩
  have hread' : decodeFields msgHello "" (3 :: msgHello :: (fields.layout ++ [])) =
      .ok (fields', []) := decodeFields_eq_ok.mpr ⟨h', by rw [heq]⟩
  exact congrArg Prod.fst (Except.ok.inj (hread.symm.trans hread'))

theorem HelloMessage.Valid.eq_of_raw {hello hello' : HelloMessage} (h : hello.Valid)
    (h' : hello'.Valid) (heq : hello.raw = hello'.raw) : hello = hello' :=
  Except.ok.inj ((decodeHello_eq_ok.mpr ⟨h, heq⟩).symm.trans (decodeHello_eq_ok.mpr ⟨h', rfl⟩))

/-- The two sides have the first two messages in common, up to the signature. -/
structure SameMessages (x : Initiator) (sent : ConfirmSent) (sent' : ReplySent) : Prop where
  hello : sent'.hello.raw = x.hello
  body : sent'.body = sent.reply.body

/-- What they have in common then. -/
structure SharedSession (sent : ConfirmSent) (sent' : ReplySent) : Prop where
  hello : sent'.hello = sent.hello
  reply : sent'.fields = sent.reply.toHandshakeFields
  t2 : sent'.t2 = sent.t2
  secrets : sent'.secrets = sent.secrets

section Shared

variable {I R : HandshakeV3} {x : Initiator} {y : Responder} {sent : ConfirmSent}
  {sent' : ReplySent}

theorem Initiator.Sound.reply_valid (h : x.Sound I) (hsent : sent ∈ x.phase.sent?) :
    sent.toReplyVerified.Valid I x.hello :=
  h.verified _ (InitiatorPhase.verified?_of_sent? hsent)

/-- An initiator reads its own message 1 as it was meant. -/
theorem Initiator.Sound.hello_eq (h : x.Sound I) (hsent : sent ∈ x.phase.sent?) :
    ∃ nonce, sent.hello.toHandshakeFields = I.ownFields x.privateKey nonce := by
  have hvalid := h.reply_valid hsent
  have hidle : x.phase ≠ .idle := by
    rintro hidle
    rw [hidle] at hsent
    cases hsent
  obtain ⟨nonce, hhello⟩ := h.hello hidle
  obtain ⟨hwell, hraw⟩ := HandshakeV3.hello_eq_ok.mp hhello
  refine ⟨nonce, HandshakeFields.layout_inj hvalid.hello_valid.toReadable hwell.toReadable ?_⟩
  have hlayout := hvalid.hello_valid.raw_eq.symm.trans (hvalid.hello_raw.trans hraw.symm)
  exact (List.cons.inj (List.cons.inj hlayout).2).2

theorem SameMessages.shared (h : SameMessages x sent sent') (hx : x.Sound I) (hy : y.Sound R)
    (hsent : sent ∈ x.phase.sent?) (hsent' : sent' ∈ y.phase.sent?) (hcrypto : I.crypto = R.crypto)
    (hcommutes : R.crypto.keyExchange.Commutes) :
    SharedSession sent sent' := by
  have hreplied := hx.reply_valid hsent
  have hanswered := hy.sent _ hsent'
  have hhello : sent'.hello = sent.hello :=
    hanswered.hello.eq_of_raw hreplied.hello_valid (h.hello.trans hreplied.hello_raw.symm)
  have hreply : sent'.fields = sent.reply.toHandshakeFields := by
    refine HandshakeFields.layout_inj hanswered.reply.wellFormed.toReadable
      hreplied.reply_valid.toReadable ?_
    have hlayout := hanswered.reply.body_eq.trans (h.body.trans hreplied.reply_valid.body_eq)
    exact (List.cons.inj (List.cons.inj hlayout).2).2
  have ht2 : sent'.t2 = sent.t2 := by
    rw [← hanswered.reply.t2_eq, ← hreplied.t2_eq, h.hello, h.body, hcrypto]
  obtain ⟨nonce, hown⟩ := hx.hello_eq hsent
  obtain ⟨secret, hsecret, hderive⟩ := (hx.sent _ hsent).derives
  obtain ⟨secret', hsecret', hderive'⟩ := hanswered.reply.derives
  -- each side combines its own ephemeral key with the other's public one
  have hephemeral : sent.hello.ephemeral = R.crypto.keyExchange.publicKey x.privateKey := by
    rw [hown, ← hcrypto]
    rfl
  have hephemeral' : sent.reply.ephemeral = R.crypto.keyExchange.publicKey y.privateKey := by
    rw [← hreply, hanswered.reply.fields_eq]
    rfl
  have hshared : secret' = secret := by
    rw [hhello, hephemeral, ← hcommutes] at hsecret'
    rw [hephemeral', hcrypto, hsecret'] at hsecret
    exact Option.some.inj hsecret
  rw [hshared, hhello, hreply, ht2, ← hcrypto] at hderive'
  exact ⟨hhello, hreply, ht2, Except.ok.inj (hderive'.symm.trans hderive)⟩

/-- The results of two sides that share a session. -/
theorem SharedSession.mirrors (h : SharedSession sent sent') (hx : x.Sound I) (hy : y.Sound R)
    (hsent : sent ∈ x.phase.sent?) (hsent' : sent' ∈ y.phase.sent?) {res res' : HandshakeResult}
    (hres : HandshakeV3.result sent.reply.toHandshakeFields sent.secrets .initiator = .ok res)
    (hres' : HandshakeV3.result sent'.hello.toHandshakeFields sent'.secrets .responder =
      .ok res') : res.Mirrors I R res' := by
  obtain ⟨nonce, hown⟩ := hx.hello_eq hsent
  have hreply := (hy.sent _ hsent').reply.fields_eq
  obtain ⟨-, rfl⟩ := HandshakeV3.result_eq_ok.mp hres
  obtain ⟨-, rfl⟩ := HandshakeV3.result_eq_ok.mp hres'
  rw [← h.reply, hreply, h.hello, h.secrets, hown]
  exact ⟨rfl, ⟨rfl, rfl⟩, rfl, rfl, ⟨rfl, rfl⟩, ⟨rfl, rfl⟩, ⟨rfl, rfl⟩⟩

/-- Whichever side has returned, the other is about to return the mirror image. -/
theorem SharedSession.exists_mirror (h : SharedSession sent sent') (hx : x.Sound I)
    (hy : y.Sound R) (hsent : sent ∈ x.phase.sent?) (hsent' : sent' ∈ y.phase.sent?)
    {res : HandshakeResult}
    (hres : HandshakeV3.result sent.reply.toHandshakeFields sent.secrets .initiator = .ok res) :
    ∃ res', HandshakeV3.result sent'.hello.toHandshakeFields sent'.secrets .responder = .ok res' ∧
      res.Mirrors I R res' := by
  have hsession := (HandshakeV3.result_eq_ok.mp hres).1
  rw [← h.secrets] at hsession
  obtain ⟨res', hres'⟩ :=
    HandshakeV3.exists_result hsession sent'.hello.toHandshakeFields .responder
  exact ⟨res', hres', h.mirrors hx hy hsent hsent' hres hres'⟩

theorem SharedSession.exists_mirrored (h : SharedSession sent sent') (hx : x.Sound I)
    (hy : y.Sound R) (hsent : sent ∈ x.phase.sent?) (hsent' : sent' ∈ y.phase.sent?)
    {res' : HandshakeResult}
    (hres' : HandshakeV3.result sent'.hello.toHandshakeFields sent'.secrets .responder =
      .ok res') :
    ∃ res, HandshakeV3.result sent.reply.toHandshakeFields sent.secrets .initiator = .ok res ∧
      res.Mirrors I R res' := by
  have hsession := (HandshakeV3.result_eq_ok.mp hres').1
  rw [h.secrets] at hsession
  obtain ⟨res, hres⟩ :=
    HandshakeV3.exists_result hsession sent.reply.toHandshakeFields .initiator
  exact ⟨res, hres, h.mirrors hx hy hsent hsent' hres hres'⟩

end Shared
end SecureSync
