import SecureSync.Infrastructure.HandshakeV3

/-!
# What each part of an exchange has checked

For each stretch of code between two awaits: it returns exactly when these
checks pass, and then with these values.
-/

namespace SecureSync

open BigEndian Raising

/-! ## The inputs of the hashes -/

def t2Input (m1 m2body : Bytes) : Bytes :=
  transcriptLabel ++ (lengthPrefixed m1 ++ lengthPrefixed m2body)

/-- One more part of the transcript, behind the hash of what came before. -/
def linkInput (digest part : Bytes) : Bytes := digest ++ lengthPrefixed part

def rejectInput (t2s m3Raw : Bytes) : Bytes :=
  t2s ++ (lengthPrefixed m3Raw ++ lengthPrefixed m4RejectLabel)

def responderInput (t2 : Bytes) : Bytes := lengthPrefixed responderSigLabel ++ t2

def initiatorInput (t2s : Bytes) : Bytes := lengthPrefixed initiatorSigLabel ++ t2s

section Transcripts

variable {sha256 : Sha256} {digest part m1 m2body t2s m3Raw t2 : Bytes}

theorem transcriptT2_eq_ok :
    transcriptT2 sha256 m1 m2body = .ok t2 ↔
      m1.length < 65536 ∧ m2body.length < 65536 ∧ sha256 (t2Input m1 m2body) = t2 := by
  simp [transcriptT2, transcriptHash_eq_ok, t2Input, and_assoc]

theorem transcriptLink_eq_ok :
    transcriptHash sha256 digest [part] = .ok t2s ↔
      part.length < 65536 ∧ sha256 (linkInput digest part) = t2s := by
  simp [transcriptHash_eq_ok, linkInput]

theorem transcriptM4Accept_run (tFinal : Bytes) :
    transcriptM4Accept sha256 tFinal = .ok (sha256 (linkInput tFinal m4AcceptLabel)) :=
  transcriptLink_eq_ok.mpr ⟨by decide +kernel, rfl⟩

theorem transcriptM4Reject_eq_ok {transcript : Bytes} :
    transcriptM4Reject sha256 t2s m3Raw = .ok transcript ↔
      m3Raw.length < 65536 ∧ sha256 (rejectInput t2s m3Raw) = transcript := by
  have hlabel : m4RejectLabel.length < 65536 := by decide +kernel
  simp [transcriptM4Reject, transcriptHash_eq_ok, rejectInput, hlabel]

theorem signedResponder_run (t2 : Bytes) : signedResponder t2 = .ok (responderInput t2) := by
  rw [signedResponder, fieldOf_eq_ok.mpr ⟨by decide +kernel, rfl⟩]
  rfl

theorem signedInitiator_run (t2s : Bytes) : signedInitiator t2s = .ok (initiatorInput t2s) := by
  rw [signedInitiator, fieldOf_eq_ok.mpr ⟨by decide +kernel, rfl⟩]
  rfl

end Transcripts

/-! ### They determine what they are made of -/

theorem responderInput_inj {t2 t2' : Bytes} (h : responderInput t2 = responderInput t2') :
    t2 = t2' :=
  List.append_cancel_left h

theorem initiatorInput_inj {t2s t2s' : Bytes} (h : initiatorInput t2s = initiatorInput t2s') :
    t2s = t2s' :=
  List.append_cancel_left h

/-- What one side signs is never what the other side signs. -/
theorem responderInput_ne_initiatorInput (t2 t2s : Bytes) :
    responderInput t2 ≠ initiatorInput t2s := by
  intro h
  have hlabel := (lengthPrefixed_append_inj (by decide +kernel) (by decide +kernel) h).1
  have hne : responderSigLabel ≠ initiatorSigLabel := by decide +kernel
  exact hne hlabel

theorem t2Input_inj {m1 m1' body body' : Bytes} (hm1 : m1.length < 65536)
    (hm1' : m1'.length < 65536) (hbody : body.length < 65536) (hbody' : body'.length < 65536)
    (h : t2Input m1 body = t2Input m1' body') : m1 = m1' ∧ body = body' := by
  obtain ⟨hm, hrest⟩ := lengthPrefixed_append_inj hm1 hm1' (List.append_cancel_left h)
  exact ⟨hm, lengthPrefixed_inj hbody hbody' hrest⟩

theorem linkInput_inj {digest digest' part part' : Bytes} (hdigest : digest.length = digest'.length)
    (hpart : part.length < 65536) (hpart' : part'.length < 65536)
    (h : linkInput digest part = linkInput digest' part') : digest = digest' ∧ part = part' := by
  obtain ⟨hd, hp⟩ := List.append_inj h hdigest
  exact ⟨hd, lengthPrefixed_inj hpart hpart' hp⟩

namespace HandshakeV3

variable {handshake : HandshakeV3}

/-! ## Common checks -/

theorem checkPeer_eq_ok {fields : HandshakeFields} {u : Unit} :
    handshake.checkPeer fields = .ok u ↔ fields.deviceId ≠ handshake.ownDeviceId ∧
      fields.identityPublicKey ≠ handshake.ownIdentity.publicKey := by
  simp only [checkPeer, except_mapError_eq_ok, checkNotSelf, except_bind_eq_ok, require_eq_ok]
  constructor
  · rintro ⟨-, hid, hkey⟩
    exact ⟨hid, hkey⟩
  · rintro ⟨hid, hkey⟩
    exact ⟨(), hid, hkey⟩

theorem sharedSecret_eq_ok {privateKey peerPublicKey sharedSecret : Bytes} :
    handshake.sharedSecret privateKey peerPublicKey = .ok sharedSecret ↔
      handshake.crypto.keyExchange.deriveSharedSecret privateKey peerPublicKey =
        some sharedSecret := by
  unfold HandshakeV3.sharedSecret
  cases handshake.crypto.keyExchange.deriveSharedSecret privateKey peerPublicKey <;> simp

/-- The secrets that this side derives for the two messages. -/
def Derives (handshake : HandshakeV3) (privateKey peerPublicKey : Bytes)
    (hello reply : HandshakeFields) (t2 : Bytes) (secrets : HandshakeSecrets) : Prop :=
  ∃ sharedSecret, handshake.crypto.keyExchange.deriveSharedSecret privateKey peerPublicKey =
      some sharedSecret ∧
    deriveHandshakeSecrets handshake.crypto.hkdf sharedSecret hello reply t2 = .ok secrets

theorem Derives.length_t2 {privateKey peerPublicKey : Bytes} {hello reply : HandshakeFields}
    {t2 : Bytes} {secrets : HandshakeSecrets}
    (h : handshake.Derives privateKey peerPublicKey hello reply t2 secrets) :
    t2.length = transcriptSize := by
  obtain ⟨sharedSecret, -, hderive⟩ := h
  simp only [deriveHandshakeSecrets, requireSize, except_bind_eq_ok, require_eq_ok] at hderive
  obtain ⟨-, -, -, -, -, ht2, -⟩ := hderive
  exact ht2

theorem result_eq_ok {peer : HandshakeFields} {secrets : HandshakeSecrets} {role : Role}
    {res : HandshakeResult} :
    result peer secrets role = .ok res ↔ secrets.sessionId.length = sessionIdSize ∧ res =
      { peerDeviceId := peer.deviceId
        sessionId := secrets.sessionId
        role := role
        sendKey := match role with
          | .initiator => secrets.initiatorToResponderKey
          | .responder => secrets.responderToInitiatorKey
        receiveKey := match role with
          | .initiator => secrets.responderToInitiatorKey
          | .responder => secrets.initiatorToResponderKey
        peerTransferPort := peer.transferPort
        peerManifestPort := peer.manifestPort } := by
  simp only [result, keysForRole, requireSize, except_bind_eq_ok, except_mapError_eq_ok,
    require_eq_ok]
  constructor
  · rintro ⟨keys, ⟨-, hlength, hkeys⟩, hreturn⟩
    obtain rfl := Except.ok.inj hkeys
    obtain rfl := Except.ok.inj hreturn
    cases role <;> exact ⟨hlength, rfl⟩
  · rintro ⟨hlength, rfl⟩
    refine ⟨_, ⟨(), hlength, rfl⟩, ?_⟩
    cases role <;> rfl

theorem exists_result {secrets : HandshakeSecrets}
    (h : secrets.sessionId.length = sessionIdSize) (peer : HandshakeFields) (role : Role) :
    ∃ res, result peer secrets role = .ok res :=
  ⟨_, result_eq_ok.mpr ⟨h, rfl⟩⟩

theorem hello_eq_ok {privateKey nonce bs : Bytes} :
    handshake.hello privateKey nonce = .ok bs ↔
      (handshake.ownFields privateKey nonce).WellFormed ∧
        3 :: msgHello :: (handshake.ownFields privateKey nonce).layout = bs := by
  simp only [hello, checkNonce, except_bind_eq_ok, require_eq_ok, except_mapError_eq_ok,
    encodeHello_eq_ok]
  constructor
  · rintro ⟨-, -, h⟩
    exact h
  · intro h
    exact ⟨(), h.1.nonce, h⟩

end HandshakeV3

/-! ## The initiator -/

structure ReplyVerified.Valid (handshake : HandshakeV3) (helloBytes : Bytes)
    (verified : ReplyVerified) : Prop where
  hello_valid : verified.hello.Valid
  hello_raw : verified.hello.raw = helloBytes
  reply_valid : verified.reply.Valid
  deviceId_ne : verified.reply.deviceId ≠ handshake.ownDeviceId
  identityKey_ne : verified.reply.identityPublicKey ≠ handshake.ownIdentity.publicKey
  length_hello : helloBytes.length < 65536
  length_body : verified.reply.body.length < 65536
  t2_eq : handshake.crypto.sha256 (t2Input helloBytes verified.reply.body) = verified.t2
  signed : handshake.crypto.identityProvider.verify verified.reply.identityPublicKey
    (responderInput verified.t2) verified.reply.sigR = true

structure ConfirmSent.Valid (handshake : HandshakeV3) (privateKey : Bytes) (sent : ConfirmSent) :
    Prop where
  derives : handshake.Derives privateKey sent.reply.ephemeral sent.hello.toHandshakeFields
    sent.reply.toHandshakeFields sent.t2 sent.secrets
  length_sigR : sent.reply.sigR.length < 65536
  t2s_eq : handshake.crypto.sha256 (linkInput sent.t2 sent.reply.sigR) = sent.t2s
  length_macR : sent.reply.macR.length = macSize
  macR_eq : confirmationMac handshake.crypto.hmac sent.secrets.responderConfirmationKey sent.t2s =
    .ok sent.reply.macR
  sigI_eq : handshake.sign (initiatorInput sent.t2s) = sent.sigI
  length_sigI : sent.sigI.length = ed25519SignatureSize
  t3s_eq : handshake.crypto.sha256 (linkInput (handshake.crypto.sha256
    (linkInput sent.t2s sent.reply.macR)) sent.sigI) = sent.t3s
  macI_eq : confirmationMac handshake.crypto.hmac sent.secrets.initiatorConfirmationKey sent.t3s =
    .ok sent.macI
  length_macI : sent.macI.length = macSize
  message_eq : 3 :: msgConfirm :: (sent.sigI ++ sent.macI) = sent.message

/-! ## The responder -/

structure ReplySent.Valid (handshake : HandshakeV3) (privateKey nonce : Bytes)
    (sent : ReplySent) : Prop where
  fields_eq : sent.fields = handshake.ownFields privateKey nonce
  wellFormed : sent.fields.WellFormed
  body_eq : 3 :: msgReply :: sent.fields.layout = sent.body
  length_hello : sent.hello.raw.length < 65536
  length_body : sent.body.length < 65536
  t2_eq : handshake.crypto.sha256 (t2Input sent.hello.raw sent.body) = sent.t2
  sigR_eq : handshake.sign (responderInput sent.t2) = sent.sigR
  length_sigR : sent.sigR.length = ed25519SignatureSize
  derives : handshake.Derives privateKey sent.hello.ephemeral sent.hello.toHandshakeFields
    sent.fields sent.t2 sent.secrets
  t2s_eq : handshake.crypto.sha256 (linkInput sent.t2 sent.sigR) = sent.t2s
  macR_eq : confirmationMac handshake.crypto.hmac sent.secrets.responderConfirmationKey sent.t2s =
    .ok sent.macR
  length_macR : sent.macR.length = macSize
  message_eq : sent.body ++ (sent.sigR ++ sent.macR) = sent.message

structure ConfirmVerified.Valid (handshake : HandshakeV3) (sent : ReplySent)
    (verified : ConfirmVerified) : Prop where
  confirm_valid : verified.confirm.Valid
  t3s_eq : handshake.crypto.sha256 (linkInput (handshake.crypto.sha256
    (linkInput sent.t2s sent.macR)) verified.confirm.sigI) = verified.t3s
  signed : handshake.crypto.identityProvider.verify sent.hello.identityPublicKey
    (initiatorInput sent.t2s) verified.confirm.sigI = true

namespace HandshakeV3

variable {handshake : HandshakeV3}

theorem verifyReply_eq_ok {helloBytes replyBytes : Bytes} {verified : ReplyVerified} :
    handshake.verifyReply helloBytes replyBytes = .ok verified ↔
      verified.Valid handshake helloBytes ∧ verified.reply.raw = replyBytes := by
  simp only [verifyReply, verifySignature, except_bind_eq_ok, except_mapError_eq_ok,
    require_eq_ok, decodeReply_eq_ok, decodeHello_eq_ok, checkPeer_eq_ok, transcriptT2_eq_ok,
    signedResponder_run]
  constructor
  · rintro ⟨reply, ⟨hreply, rfl⟩, -, ⟨hid, hkey⟩, hello, ⟨hhello, rfl⟩, t2, ⟨hm1, hbody, ht2⟩, _,
      hsigned, -, hverify, hreturn⟩
    obtain rfl := Except.ok.inj hsigned
    obtain rfl := Except.ok.inj hreturn
    exact ⟨⟨hhello, rfl, hreply, hid, hkey, hm1, hbody, ht2, hverify⟩, rfl⟩
  · rintro ⟨h, rfl⟩
    exact ⟨_, ⟨h.reply_valid, rfl⟩, (), ⟨h.deviceId_ne, h.identityKey_ne⟩, _,
      ⟨h.hello_valid, h.hello_raw⟩, _, ⟨h.length_hello, h.length_body, h.t2_eq⟩, _, rfl, (),
      h.signed, rfl⟩

theorem confirm_eq_ok {privateKey : Bytes} {verified : ReplyVerified} {pin : Option Bytes}
    {sent : ConfirmSent} :
    handshake.confirm privateKey verified pin = .ok sent ↔
      (pin = none ∨ pin = some verified.reply.identityPublicKey) ∧
        sent.Valid handshake privateKey ∧ sent.toReplyVerified = verified := by
  simp only [confirm, checkPin, except_bind_eq_ok, except_mapError_eq_ok, require_eq_ok,
    sharedSecret_eq_ok, verifyConfirmationMac_eq_ok, transcriptT2s, transcriptT3, transcriptT3s,
    transcriptLink_eq_ok, signedInitiator_run, encodeConfirm_eq_ok]
  constructor
  · rintro ⟨-, hpin, sharedSecret, hshared, secrets, hsecrets, t2s, ⟨hsigR, ht2s⟩, -,
      ⟨hmacRLength, hmacR⟩, t3, ⟨-, rfl⟩, _, hsigned, t3s, ⟨-, ht3s⟩, macI, hmacI, message,
      ⟨hsigI, hmacILength, hmessage⟩, hreturn⟩
    obtain rfl := Except.ok.inj hsigned
    obtain rfl := Except.ok.inj hreturn
    exact ⟨hpin, ⟨⟨sharedSecret, hshared, hsecrets⟩, hsigR, ht2s, hmacRLength, hmacR, rfl, hsigI,
      ht3s, hmacI, hmacILength, hmessage⟩, rfl⟩
  · rintro ⟨hpin, h, rfl⟩
    obtain ⟨sharedSecret, hshared, hsecrets⟩ := h.derives
    have hsigI := h.sigI_eq
    have hmacR : sent.reply.macR.length < 65536 := by
      rw [h.length_macR]
      decide
    have hsigILength : sent.sigI.length < 65536 := by
      rw [h.length_sigI]
      decide
    refine ⟨(), hpin, _, hshared, _, hsecrets, _, ⟨h.length_sigR, h.t2s_eq⟩, (),
      ⟨h.length_macR, h.macR_eq⟩, _, ⟨hmacR, rfl⟩, _, rfl, _, ⟨?_, ?_⟩, _, h.macI_eq, sent.message,
      ⟨?_, h.length_macI, ?_⟩, ?_⟩
    · rw [hsigI]
      exact hsigILength
    · rw [hsigI]
      exact h.t3s_eq
    · rw [hsigI]
      exact h.length_sigI
    · rw [hsigI]
      exact h.message_eq
    · rw [hsigI]
      rfl

theorem acceptTranscript_eq_ok {t3s macI transcript : Bytes} :
    handshake.acceptTranscript t3s macI = .ok transcript ↔ macI.length < 65536 ∧
      handshake.crypto.sha256 (linkInput (handshake.crypto.sha256 (linkInput t3s macI))
        m4AcceptLabel) = transcript := by
  simp only [acceptTranscript, transcriptFinal, except_bind_eq_ok, except_mapError_eq_ok,
    transcriptLink_eq_ok, transcriptM4Accept_run]
  constructor
  · rintro ⟨_, ⟨hmacI, rfl⟩, h⟩
    exact ⟨hmacI, Except.ok.inj h⟩
  · rintro ⟨hmacI, rfl⟩
    exact ⟨_, ⟨hmacI, rfl⟩, rfl⟩

/-- Only an accept under the right MAC gets past message 4. -/
theorem verifyFinal_eq_ok {sent : ConfirmSent} {finalBytes : Bytes} {u : Unit} :
    handshake.verifyFinal sent finalBytes = .ok u ↔ ∃ transcript macF,
      handshake.acceptTranscript sent.t3s sent.macI = .ok transcript ∧ macF.length = macSize ∧
        confirmationMac handshake.crypto.hmac sent.secrets.responderConfirmationKey transcript =
          .ok macF ∧ finalBytes = 3 :: msgFinal :: statusAccept :: macF := by
  unfold verifyFinal
  cases hdecode : decodeFinal finalBytes with
  | error e =>
      dsimp only
      refine iff_of_false ?_ ?_
      · split_ifs <;> exact nofun
      · rintro ⟨transcript, macF, -, hlength, -, rfl⟩
        have hvalid : (⟨3, statusAccept, macF, 3 :: msgFinal :: statusAccept :: macF⟩ :
          FinalMessage).Valid := ⟨rfl, .inl rfl, hlength, rfl⟩
        rw [decodeFinal_eq_ok.mpr ⟨hvalid, rfl⟩] at hdecode
        cases hdecode
  | ok final =>
      obtain ⟨hvalid, rfl⟩ := decodeFinal_eq_ok.mp hdecode
      have hraw := hvalid.raw_eq
      dsimp only
      split_ifs with hstatus
      · refine iff_of_false ?_ ?_
        · simp only [except_bind_eq_ok]
          rintro ⟨-, -, h⟩
          cases h
        · rintro ⟨transcript, macF, -, -, -, heq⟩
          rw [hraw] at heq
          exact hstatus (by simpa using (List.cons.inj (List.cons.inj (List.cons.inj heq).2).2).1)
      · have haccept : final.status = statusAccept := not_not.mp hstatus
        simp only [except_bind_eq_ok, except_mapError_eq_ok, verifyConfirmationMac_eq_ok]
        constructor
        · rintro ⟨transcript, htranscript, hlength, hmac⟩
          exact ⟨transcript, final.macF, htranscript, hlength, hmac, by rw [hraw, haccept]⟩
        · rintro ⟨transcript, macF, htranscript, hlength, hmac, heq⟩
          rw [hraw, haccept] at heq
          obtain rfl : final.macF = macF := by simpa using heq
          exact ⟨transcript, htranscript, hlength, hmac⟩

theorem checkHello_eq_ok {m1 : Bytes} {hello : HelloMessage} :
    handshake.checkHello m1 = .ok hello ↔ hello.Valid ∧ hello.raw = m1 ∧
      hello.deviceId ≠ handshake.ownDeviceId ∧
        hello.identityPublicKey ≠ handshake.ownIdentity.publicKey := by
  simp only [checkHello, except_bind_eq_ok, except_mapError_eq_ok, decodeHello_eq_ok,
    checkPeer_eq_ok]
  constructor
  · rintro ⟨_, ⟨hvalid, hraw⟩, -, hpeer, hreturn⟩
    obtain rfl := Except.ok.inj hreturn
    exact ⟨hvalid, hraw, hpeer⟩
  · rintro ⟨hvalid, hraw, hpeer⟩
    exact ⟨hello, ⟨hvalid, hraw⟩, (), hpeer, rfl⟩

theorem reply_eq_ok {privateKey nonce : Bytes} {hello : HelloMessage} {sent : ReplySent} :
    handshake.reply privateKey nonce hello = .ok sent ↔
      sent.Valid handshake privateKey nonce ∧ sent.hello = hello := by
  simp only [reply, checkNonce, except_bind_eq_ok, except_mapError_eq_ok, require_eq_ok,
    encodeReplyBody_eq_ok, transcriptT2_eq_ok, signedResponder_run, sharedSecret_eq_ok,
    transcriptT2s, transcriptLink_eq_ok, encodeReply_eq_ok]
  constructor
  · rintro ⟨-, -, body, ⟨hwell, hbody⟩, t2, ⟨hm1, hm2, ht2⟩, _, hsigned, sharedSecret, hshared,
      secrets, hsecrets, t2s, ⟨-, ht2s⟩, macR, hmacR, message, ⟨hsig, hmac, -, hmessage⟩, hreturn⟩
    obtain rfl := Except.ok.inj hsigned
    obtain rfl := Except.ok.inj hreturn
    rw [hbody] at hmessage
    exact ⟨⟨rfl, hwell, hbody, hm1, hm2, ht2, rfl, hsig, ⟨sharedSecret, hshared, hsecrets⟩, ht2s,
      hmacR, hmac, hmessage⟩, rfl⟩
  · rintro ⟨h, rfl⟩
    obtain ⟨hello, fields, body, t2, sigR, secrets, t2s, macR, message⟩ := sent
    obtain ⟨hfields, hwell, hbody, hm1, hm2, ht2, hsigR, hsig, ⟨sharedSecret, hshared, hsecrets⟩,
      ht2s, hmacR, hmac, hmessage⟩ := h
    dsimp only at *
    subst hfields hbody hsigR hmessage
    have hsig' : (handshake.sign (responderInput t2)).length < 65536 := by
      rw [hsig]
      decide
    exact ⟨(), hwell.nonce, _, ⟨hwell, rfl⟩, _, ⟨hm1, hm2, ht2⟩, _, rfl, _, hshared, _, hsecrets, _,
      ⟨hsig', ht2s⟩, _, hmacR, _, ⟨hsig, hmac, hwell, rfl⟩, rfl⟩

theorem verifyConfirm_eq_ok {sent : ReplySent} {m3 : Bytes} {verified : ConfirmVerified}
    (hmacR : sent.macR.length = macSize) :
    handshake.verifyConfirm sent m3 = .ok verified ↔
      verified.Valid handshake sent ∧ verified.confirm.raw = m3 := by
  have hmacR' : sent.macR.length < 65536 := by
    rw [hmacR]
    decide
  simp only [verifyConfirm, verifySignature, except_bind_eq_ok, except_mapError_eq_ok,
    require_eq_ok, decodeConfirm_eq_ok, transcriptT3, transcriptT3s, transcriptLink_eq_ok,
    signedInitiator_run]
  constructor
  · rintro ⟨confirm, ⟨hvalid, hraw⟩, _, ⟨-, rfl⟩, t3s, ⟨-, ht3s⟩, _, hsigned, -, hverify, hreturn⟩
    obtain rfl := Except.ok.inj hsigned
    obtain rfl := Except.ok.inj hreturn
    exact ⟨⟨hvalid, ht3s, hverify⟩, hraw⟩
  · rintro ⟨⟨hvalid, ht3s, hverify⟩, hraw⟩
    have hsigI : verified.confirm.sigI.length < 65536 := by
      rw [hvalid.length_sigI]
      decide
    exact ⟨_, ⟨hvalid, hraw⟩, _, ⟨hmacR', rfl⟩, _, ⟨hsigI, ht3s⟩, _, rfl, (), hverify, rfl⟩

theorem authenticate_eq_ok {sent : ReplySent} {verified : ConfirmVerified} {pin : Option Bytes}
    {u : Unit} (hvalid : verified.confirm.Valid) :
    handshake.authenticate sent verified pin = .ok u ↔
      (pin = none ∨ pin = some sent.hello.identityPublicKey) ∧
        confirmationMac handshake.crypto.hmac sent.secrets.initiatorConfirmationKey verified.t3s =
          .ok verified.confirm.macI := by
  simp only [authenticate, checkPin, except_bind_eq_ok, except_mapError_eq_ok, require_eq_ok,
    verifyConfirmationMac_eq_ok]
  constructor
  · rintro ⟨-, hpin, -, hmac⟩
    exact ⟨hpin, hmac⟩
  · rintro ⟨hpin, hmac⟩
    exact ⟨(), hpin, hvalid.length_macI, hmac⟩

theorem acceptMessage_eq_ok {sent : ReplySent} {verified : ConfirmVerified} {message : Bytes} :
    handshake.acceptMessage sent verified = .ok message ↔ ∃ transcript macF,
      handshake.acceptTranscript verified.t3s verified.confirm.macI = .ok transcript ∧
        macF.length = macSize ∧
          confirmationMac handshake.crypto.hmac sent.secrets.responderConfirmationKey transcript =
            .ok macF ∧ 3 :: msgFinal :: statusAccept :: macF = message := by
  simp only [acceptMessage, except_bind_eq_ok, except_mapError_eq_ok, encodeFinal_eq_ok]
  constructor
  · rintro ⟨transcript, htranscript, macF, hmac, -, hlength, hmessage⟩
    exact ⟨transcript, macF, htranscript, hlength, hmac, hmessage⟩
  · rintro ⟨transcript, macF, htranscript, hlength, hmac, hmessage⟩
    exact ⟨transcript, htranscript, macF, hmac, .inl trivial, hlength, hmessage⟩

theorem rejectMessage_eq_ok {sent : ReplySent} {m3 message : Bytes} :
    handshake.rejectMessage sent m3 = .ok message ↔ m3.length < 65536 ∧ ∃ macF,
      macF.length = macSize ∧
        confirmationMac handshake.crypto.hmac sent.secrets.responderConfirmationKey
          (handshake.crypto.sha256 (rejectInput sent.t2s m3)) = .ok macF ∧
          3 :: msgFinal :: statusReject :: macF = message := by
  simp only [rejectMessage, except_bind_eq_ok, except_mapError_eq_ok, encodeFinal_eq_ok,
    transcriptM4Reject_eq_ok]
  constructor
  · rintro ⟨_, ⟨hm3, rfl⟩, macF, hmac, -, hlength, hmessage⟩
    exact ⟨hm3, macF, hlength, hmac, hmessage⟩
  · rintro ⟨hm3, macF, hlength, hmac, hmessage⟩
    exact ⟨_, ⟨hm3, rfl⟩, macF, hmac, .inr trivial, hlength, hmessage⟩

end HandshakeV3
end SecureSync
