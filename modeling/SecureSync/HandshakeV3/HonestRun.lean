import SecureSync.HandshakeV3.Agreement

/-!
# The messages of an honest exchange

What two honest endpoints write to each other, one message after the other, and
that each of them passes the checks of the other side.
-/

namespace SecureSync

open BigEndian Raising

/-! ## Honest endpoints -/

/-- What the two sides rely on from the libraries. -/
structure HandshakeCrypto.Works (crypto : HandshakeCrypto) : Prop where
  commutes : crypto.keyExchange.Commutes
  publicKey : ∀ privateKey, (crypto.keyExchange.publicKey privateKey).length = x25519KeySize
  secret : ∀ privateKey peer secret,
    crypto.keyExchange.deriveSharedSecret privateKey peer = some secret →
      secret.length = x25519KeySize
  lowOrder : ∀ privateKey, ∀ point ∈ lowOrderPoints, ∀ secret,
    crypto.keyExchange.deriveSharedSecret privateKey point = some secret →
      secret = encode x25519KeySize 0
  sha256 : ∀ bs, (crypto.sha256 bs).length = transcriptSize
  hmac : ∀ key transcript, (crypto.hmac key transcript).length = macSize
  hkdf : ∀ call, call.length ≤ secretSize → (crypto.hkdf call).length = call.length

theorem HandshakeCrypto.Works.confirmationMac_run {crypto : HandshakeCrypto} (h : crypto.Works)
    {key : Bytes} (hkey : key.length = keySize) (bs : Bytes) :
    confirmationMac crypto.hmac key (crypto.sha256 bs) =
      .ok (crypto.hmac key (crypto.sha256 bs)) :=
  SecureSync.confirmationMac_run hkey (h.sha256 bs)

/-- An endpoint with proper parameters, whose signatures verify. -/
structure HandshakeV3.Honest (handshake : HandshakeV3) : Prop where
  deviceId : DeviceIdValid handshake.ownDeviceId
  identityKey : handshake.ownIdentity.publicKey.length = ed25519PublicKeySize
  transferPort : minPort ≤ handshake.ownTransferPort ∧ handshake.ownTransferPort ≤ maxPort
  manifestPort : minPort ≤ handshake.ownManifestPort ∧ handshake.ownManifestPort ≤ maxPort
  signature : ∀ message, (handshake.sign message).length = ed25519SignatureSize
  verifies : ∀ message, handshake.crypto.identityProvider.verify handshake.ownIdentity.publicKey
    message (handshake.sign message) = true

theorem HandshakeV3.Honest.wellFormed {handshake : HandshakeV3} (h : handshake.Honest)
    (hcrypto : handshake.crypto.Works) {nonce : Bytes} (hnonce : nonce.length = handshakeNonceSize)
    (privateKey : Bytes) : (handshake.ownFields privateKey nonce).WellFormed where
  ephemeral := hcrypto.publicKey privateKey
  nonce := hnonce
  deviceId := h.deviceId
  identityPublicKey := h.identityKey
  transferPort := ⟨le_trans (by decide) h.transferPort.1, h.transferPort.2⟩
  manifestPort := ⟨le_trans (by decide) h.manifestPort.1, h.manifestPort.2⟩
  minPort_le_transferPort := h.transferPort.1
  minPort_le_manifestPort := h.manifestPort.1

theorem HandshakeFields.Readable.length_layout {fields : HandshakeFields} (h : fields.Readable) :
    fields.layout.length ≤ 166 := by
  have hid := h.deviceId.length_le
  simp only [maxDeviceIdBytes] at hid
  simp only [layout, List.length_append, length_encode, h.ephemeral, h.nonce, h.identityPublicKey,
    x25519KeySize, handshakeNonceSize, ed25519PublicKeySize]
  omega

/-! ## Two of them -/

/-- Two honest endpoints that may talk to each other, with their ephemeral keys
and nonces. -/
structure HonestPair (I R : HandshakeV3) (privateKey nonce privateKey' nonce' : Bytes) :
    Prop where
  crypto : I.crypto = R.crypto
  works : R.crypto.Works
  initiator : I.Honest
  responder : R.Honest
  deviceId_ne : I.ownDeviceId ≠ R.ownDeviceId
  identityKey_ne : I.ownIdentity.publicKey ≠ R.ownIdentity.publicKey
  nonce : nonce.length = handshakeNonceSize
  nonce' : nonce'.length = handshakeNonceSize
  secret : ∃ secret, R.crypto.keyExchange.deriveSharedSecret privateKey'
    (R.crypto.keyExchange.publicKey privateKey) = some secret ∧ secret ≠ encode x25519KeySize 0

namespace HonestPair

variable {I R : HandshakeV3} {privateKey nonce privateKey' nonce' : Bytes}
  (h : HonestPair I R privateKey nonce privateKey' nonce')

include h

/-- The initiator derives the secret that the responder derives. -/
theorem exists_secret : ∃ secret,
    R.crypto.keyExchange.deriveSharedSecret privateKey'
        (R.crypto.keyExchange.publicKey privateKey) = some secret ∧
      R.crypto.keyExchange.deriveSharedSecret privateKey
          (R.crypto.keyExchange.publicKey privateKey') = some secret ∧
        secret.length = x25519KeySize ∧ secret ≠ encode x25519KeySize 0 := by
  obtain ⟨secret, hsecret, hne⟩ := h.secret
  exact ⟨secret, hsecret, (h.works.commutes _ _).trans hsecret, h.works.secret _ _ _ hsecret, hne⟩

theorem not_lowOrder : R.crypto.keyExchange.publicKey privateKey ∉ lowOrderPoints := by
  obtain ⟨secret, hsecret, -, -, hne⟩ := h.exists_secret
  exact fun hlow ↦ hne (h.works.lowOrder _ _ hlow _ hsecret)

theorem not_lowOrder' : R.crypto.keyExchange.publicKey privateKey' ∉ lowOrderPoints := by
  obtain ⟨secret, -, hsecret, -, hne⟩ := h.exists_secret
  exact fun hlow ↦ hne (h.works.lowOrder _ _ hlow _ hsecret)

/-- The responder answers message 1. -/
theorem exists_replySent (hello : HelloMessage)
    (hhello : hello.toHandshakeFields = I.ownFields privateKey nonce)
    (hraw : hello.raw = 3 :: msgHello :: hello.layout) :
    ∃ sent : ReplySent, sent.Valid R privateKey' nonce' ∧ sent.hello = hello ∧
      sent.secrets.Sized := by
  have hI := h.initiator.wellFormed (h.crypto.symm ▸ h.works) h.nonce privateKey
  have hR := h.responder.wellFormed h.works h.nonce' privateKey'
  rw [← hhello] at hI
  have hm1 : hello.raw.length < 65536 := by
    have hlayout := hI.toReadable.length_layout
    rw [hraw, List.length_cons, List.length_cons]
    omega
  have hbody : (3 :: msgReply :: (R.ownFields privateKey' nonce').layout).length < 65536 := by
    have hlayout := hR.toReadable.length_layout
    rw [List.length_cons, List.length_cons]
    omega
  obtain ⟨secret, hsecret, -, hlength, hne⟩ := h.exists_secret
  have hephemeral : hello.ephemeral = R.crypto.keyExchange.publicKey privateKey := by
    rw [hhello, ← h.crypto]
    rfl
  rw [← hephemeral] at hsecret
  set body := 3 :: msgReply :: (R.ownFields privateKey' nonce').layout with hbodyEq
  set sigR := R.sign (responderInput (R.crypto.sha256 (t2Input hello.raw body))) with hsigR
  set t2s := R.crypto.sha256 (linkInput (R.crypto.sha256 (t2Input hello.raw body)) sigR) with ht2s
  obtain ⟨secrets, hderive, hsized⟩ := exists_deriveHandshakeSecrets h.works.hkdf hI hR hlength hne
    (h.works.sha256 (t2Input hello.raw body))
  exact ⟨{
      hello
      fields := R.ownFields privateKey' nonce'
      body
      t2 := R.crypto.sha256 (t2Input hello.raw body)
      sigR
      secrets
      t2s
      macR := R.crypto.hmac secrets.responderConfirmationKey t2s
      message := body ++ (sigR ++ R.crypto.hmac secrets.responderConfirmationKey t2s) },
    ⟨rfl, hR, rfl, hm1, hbody, rfl, rfl, h.responder.signature _, ⟨secret, hsecret, hderive⟩, rfl,
      h.works.confirmationMac_run hsized.responderConfirmationKey _, h.works.hmac _ _, rfl⟩,
    rfl, hsized⟩

/-- The initiator reads that answer. -/
theorem exists_verified {sent : ReplySent} (hsent : sent.Valid R privateKey' nonce')
    (hhello : sent.hello.Valid) :
    ∃ verified : ReplyVerified, verified.Valid I sent.hello.raw ∧ verified.hello = sent.hello ∧
      verified.reply.toHandshakeFields = sent.fields ∧ verified.reply.raw = sent.message ∧
        verified.reply.sigR = sent.sigR ∧ verified.reply.macR = sent.macR ∧
          verified.t2 = sent.t2 := by
  have hfields := hsent.fields_eq
  have hreply : ({ sent.fields with
      version := 3
      sigR := sent.sigR
      macR := sent.macR
      body := sent.body
      raw := sent.message } : ReplyMessage).Valid := by
    refine ⟨hsent.wellFormed, ?_, rfl, hsent.length_sigR, hsent.length_macR, hsent.body_eq.symm,
      hsent.message_eq.symm⟩
    rw [hfields]
    exact h.not_lowOrder'
  refine ⟨⟨sent.hello, _, sent.t2⟩, ⟨hhello, rfl, hreply, ?_, ?_, hsent.length_hello,
    hsent.length_body, ?_, ?_⟩, rfl, rfl, rfl, rfl, rfl, rfl⟩
  · rw [hfields]
    exact h.deviceId_ne.symm
  · rw [hfields]
    exact h.identityKey_ne.symm
  · rw [h.crypto]
    exact hsent.t2_eq
  · rw [h.crypto, hfields, ← hsent.sigR_eq]
    exact h.responder.verifies _

/-- It confirms with message 3. -/
theorem exists_confirmSent {sent : ReplySent} (hsent : sent.Valid R privateKey' nonce')
    (hhello : sent.hello.toHandshakeFields = I.ownFields privateKey nonce)
    (hsized : sent.secrets.Sized) {verified : ReplyVerified}
    (hverified : verified.hello = sent.hello)
    (hreply : verified.reply.toHandshakeFields = sent.fields)
    (hsigR : verified.reply.sigR = sent.sigR) (hmacR : verified.reply.macR = sent.macR)
    (ht2 : verified.t2 = sent.t2) :
    ∃ confirm : ConfirmSent, confirm.Valid I privateKey ∧ confirm.toReplyVerified = verified ∧
      confirm.secrets = sent.secrets ∧ confirm.t2s = sent.t2s := by
  obtain ⟨secret, hsecret, hsecret', -⟩ := h.exists_secret
  have hderive : I.Derives privateKey verified.reply.ephemeral verified.hello.toHandshakeFields
      verified.reply.toHandshakeFields verified.t2 sent.secrets := by
    obtain ⟨secret', hsecret'', hderive⟩ := hsent.derives
    have hephemeral : sent.hello.ephemeral = R.crypto.keyExchange.publicKey privateKey := by
      rw [hhello, ← h.crypto]
      rfl
    rw [hephemeral, hsecret] at hsecret''
    obtain rfl := Option.some.inj hsecret''
    refine ⟨secret, ?_, ?_⟩
    · rw [hreply, hsent.fields_eq, h.crypto]
      exact hsecret'
    · rw [hverified, hreply, ht2, h.crypto]
      exact hderive
  set t2s := I.crypto.sha256 (linkInput verified.t2 verified.reply.sigR) with ht2s
  set sigI := I.sign (initiatorInput t2s) with hsigI
  set t3s := I.crypto.sha256 (linkInput (I.crypto.sha256 (linkInput t2s verified.reply.macR)) sigI)
    with ht3s
  set macI := I.crypto.hmac sent.secrets.initiatorConfirmationKey t3s with hmacI
  have ht2s' : t2s = sent.t2s := by
    rw [ht2s, ht2, hsigR, h.crypto]
    exact hsent.t2s_eq
  have hworks := h.crypto.symm ▸ h.works
  refine ⟨⟨verified, sent.secrets, t2s, t3s, sigI, macI, 3 :: msgConfirm :: (sigI ++ macI)⟩,
    ⟨hderive, ?_, rfl, ?_, ?_, rfl, h.initiator.signature _, rfl, ?_, hworks.hmac _ _, rfl⟩,
    rfl, rfl, ht2s'⟩
  · rw [hsigR, hsent.length_sigR]
    decide
  · rw [hmacR]
    exact hsent.length_macR
  · rw [hmacR, ht2s', h.crypto]
    exact hsent.macR_eq
  · exact hworks.confirmationMac_run hsized.initiatorConfirmationKey _

/-- The responder verifies that and accepts. -/
theorem exists_accepted {sent : ReplySent}
    (hhello : sent.hello.toHandshakeFields = I.ownFields privateKey nonce)
    (hsized : sent.secrets.Sized) {confirm : ConfirmSent} (hconfirm : confirm.Valid I privateKey)
    (hmacR : confirm.reply.macR = sent.macR) (hsecrets : confirm.secrets = sent.secrets)
    (ht2s : confirm.t2s = sent.t2s) :
    ∃ verified : ConfirmVerified, ∃ m4 : Bytes, verified.Valid R sent ∧
      verified.confirm.raw = confirm.message ∧
        (∀ pin, pin = none ∨ pin = some I.ownIdentity.publicKey →
          R.authenticate sent verified pin = .ok ()) ∧
          R.acceptMessage sent verified = .ok m4 ∧ I.verifyFinal confirm m4 = .ok () := by
  set message : ConfirmMessage := ⟨3, confirm.sigI, confirm.macI, confirm.message⟩ with hmessage
  have hvalid : message.Valid :=
    ⟨rfl, hconfirm.length_sigI, hconfirm.length_macI, hconfirm.message_eq.symm⟩
  have ht3s : R.crypto.sha256 (linkInput (R.crypto.sha256 (linkInput sent.t2s sent.macR))
      confirm.sigI) = confirm.t3s := by
    rw [← ht2s, ← hmacR, ← h.crypto]
    exact hconfirm.t3s_eq
  have hsigned : R.crypto.identityProvider.verify sent.hello.identityPublicKey
      (initiatorInput sent.t2s) confirm.sigI = true := by
    rw [hhello, ← ht2s, ← hconfirm.sigI_eq, ← h.crypto]
    exact h.initiator.verifies _
  have hmacI : confirmationMac R.crypto.hmac sent.secrets.initiatorConfirmationKey confirm.t3s =
      .ok confirm.macI := by
    rw [← hsecrets, ← h.crypto]
    exact hconfirm.macI_eq
  have hlength : confirm.macI.length < 65536 := by
    rw [hconfirm.length_macI]
    decide
  set transcript := R.crypto.sha256 (linkInput (R.crypto.sha256
    (linkInput confirm.t3s confirm.macI)) m4AcceptLabel) with htranscript
  have haccept : R.acceptTranscript confirm.t3s confirm.macI = .ok transcript :=
    HandshakeV3.acceptTranscript_eq_ok.mpr ⟨hlength, rfl⟩
  have haccept' : I.acceptTranscript confirm.t3s confirm.macI = .ok transcript :=
    HandshakeV3.acceptTranscript_eq_ok.mpr ⟨hlength, by rw [h.crypto]⟩
  have hmacF := h.works.confirmationMac_run hsized.responderConfirmationKey
    (linkInput (R.crypto.sha256 (linkInput confirm.t3s confirm.macI)) m4AcceptLabel)
  refine ⟨⟨message, confirm.t3s⟩, _, ⟨hvalid, ht3s, hsigned⟩, rfl, ?_,
    HandshakeV3.acceptMessage_eq_ok.mpr ⟨transcript, _, haccept, h.works.hmac _ _, hmacF, rfl⟩,
    HandshakeV3.verifyFinal_eq_ok.mpr ⟨transcript, _, haccept', h.works.hmac _ _, ?_, rfl⟩⟩
  · intro pin hpin
    refine (HandshakeV3.authenticate_eq_ok hvalid).mpr ⟨?_, hmacI⟩
    rw [hhello]
    exact hpin
  · rw [hsecrets, h.crypto]
    exact hmacF

end HonestPair

/-! ## The exchange -/

/-- The four messages, and what the two sides make of them. -/
structure HonestRun (I R : HandshakeV3) (privateKey nonce privateKey' nonce' : Bytes) where
  m1 : Bytes
  hello : HelloMessage
  replySent : ReplySent
  verified : ReplyVerified
  confirmSent : ConfirmSent
  confirmVerified : ConfirmVerified
  m4 : Bytes
  res : HandshakeResult
  res' : HandshakeResult
  hello_eq : I.hello privateKey nonce = .ok m1
  checkHello_eq : R.checkHello m1 = .ok hello
  reply_eq : R.reply privateKey' nonce' hello = .ok replySent
  verifyReply_eq : I.verifyReply m1 replySent.message = .ok verified
  peer_eq : verified.reply.toHandshakeFields = R.ownFields privateKey' nonce'
  confirm_eq : ∀ pin, pin = none ∨ pin = some R.ownIdentity.publicKey →
    I.confirm privateKey verified pin = .ok confirmSent
  verifyConfirm_eq : R.verifyConfirm replySent confirmSent.message = .ok confirmVerified
  peer_eq' : replySent.hello.toHandshakeFields = I.ownFields privateKey nonce
  authenticate_eq : ∀ pin, pin = none ∨ pin = some I.ownIdentity.publicKey →
    R.authenticate replySent confirmVerified pin = .ok ()
  acceptMessage_eq : R.acceptMessage replySent confirmVerified = .ok m4
  verifyFinal_eq : I.verifyFinal confirmSent m4 = .ok ()
  result_eq : HandshakeV3.result confirmSent.reply.toHandshakeFields confirmSent.secrets
    .initiator = .ok res
  result_eq' : HandshakeV3.result replySent.hello.toHandshakeFields replySent.secrets .responder =
    .ok res'
  mirrors : res.Mirrors I R res'

variable {I R : HandshakeV3} {privateKey nonce privateKey' nonce' : Bytes}

theorem HonestPair.nonempty_run (h : HonestPair I R privateKey nonce privateKey' nonce') :
    Nonempty (HonestRun I R privateKey nonce privateKey' nonce') := by
  have hI := h.initiator.wellFormed (h.crypto.symm ▸ h.works) h.nonce privateKey
  set hello : HelloMessage :=
    { I.ownFields privateKey nonce with
      version := 3
      raw := 3 :: msgHello :: (I.ownFields privateKey nonce).layout } with hhello
  have hephemeral : hello.ephemeral = R.crypto.keyExchange.publicKey privateKey := by
    rw [← h.crypto]
    rfl
  have hvalid : hello.Valid := ⟨hI, by rw [hephemeral]; exact h.not_lowOrder, rfl, rfl⟩
  obtain ⟨sent, hsent, hsentHello, hsized⟩ := h.exists_replySent hello rfl rfl
  obtain ⟨verified, hverified, hverifiedHello, hfields, hraw, hsigR, hmacR, ht2⟩ :=
    h.exists_verified hsent (hsentHello.symm ▸ hvalid)
  have hpeer' : sent.hello.toHandshakeFields = I.ownFields privateKey nonce := by rw [hsentHello]
  obtain ⟨confirm, hconfirm, rfl, hsecrets, ht2s⟩ :=
    h.exists_confirmSent hsent hpeer' hsized hverifiedHello hfields hsigR hmacR ht2
  obtain ⟨confirmVerified, m4, hconfirmVerified, hmessage, hauthenticate, haccept, hfinal⟩ :=
    h.exists_accepted hpeer' hsized hconfirm hmacR hsecrets ht2s
  have hpeer := hfields.trans hsent.fields_eq
  have hsession : confirm.secrets.sessionId.length = sessionIdSize := by
    rw [hsecrets]
    exact hsized.sessionId
  refine ⟨⟨hello.raw, hello, sent, confirm.toReplyVerified, confirm, confirmVerified, m4, _, _,
    HandshakeV3.hello_eq_ok.mpr ⟨hI, rfl⟩,
    HandshakeV3.checkHello_eq_ok.mpr ⟨hvalid, rfl, h.deviceId_ne, h.identityKey_ne⟩,
    HandshakeV3.reply_eq_ok.mpr ⟨hsent, hsentHello⟩,
    HandshakeV3.verifyReply_eq_ok.mpr ⟨hsentHello ▸ hverified, hraw⟩, hpeer, ?_,
    (HandshakeV3.verifyConfirm_eq_ok hsent.length_macR).mpr ⟨hconfirmVerified, hmessage⟩, hpeer',
    hauthenticate, haccept, hfinal, HandshakeV3.result_eq_ok.mpr ⟨hsession, rfl⟩,
    HandshakeV3.result_eq_ok.mpr ⟨hsized.sessionId, rfl⟩, ?_⟩⟩
  · intro pin hpin
    refine HandshakeV3.confirm_eq_ok.mpr ⟨?_, hconfirm, rfl⟩
    rw [hpeer]
    exact hpin
  · rw [hsecrets, hpeer, hpeer']
    exact ⟨rfl, ⟨rfl, rfl⟩, rfl, rfl, ⟨rfl, rfl⟩, ⟨rfl, rfl⟩, ⟨rfl, rfl⟩⟩

end SecureSync
