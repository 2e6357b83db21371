import SecureSync.Infrastructure.HandshakeMessages

/-!
# The key schedule of the v3 handshake

`handshake_keys.py`.  The master secret binds the transcript of the first two
messages; everything else is derived from it.
-/

namespace SecureSync

open BigEndian Raising

def secretSize : ℕ := 32

def transcriptSize : ℕ := 32

/-- HMAC-SHA256. -/
abbrev Hmac := Bytes → Bytes → Bytes

def handshakeMasterInfo : Bytes := utf8 "securesync-1e-master"

def responderConfirmInfo : Bytes := utf8 "securesync-1e-kr"

def initiatorConfirmInfo : Bytes := utf8 "securesync-1e-ki"

def handshakeSessionIdInfo : Bytes := utf8 "securesync-1e-sid"

/-- `HandshakeKeyError`, `KeyConfirmationError`, and what is passed on. -/
inductive HandshakeKeyError where
  | size (name : String) (size actual : ℕ)
  | keyConfirmation
  | lowOrderPoint (error : LowOrderPointError)
  | keySchedule (error : KeyScheduleError)
  deriving DecidableEq, Repr

structure HandshakeSecrets where
  master : Bytes
  responderConfirmationKey : Bytes
  initiatorConfirmationKey : Bytes
  sessionId : Bytes
  initiatorToResponderKey : Bytes
  responderToInitiatorKey : Bytes
  deriving DecidableEq

def requireSize (value : Bytes) (name : String) (size : ℕ) : Except HandshakeKeyError Unit :=
  require (value.length = size) (.size name size value.length)

def keyFieldOf (value : Bytes) : Except HandshakeKeyError Bytes :=
  (keyField value).mapError .keySchedule

section Derive

variable (hkdf : Hkdf)

/-- `_hkdf` from the master secret. -/
def deriveFromMaster (master info : Bytes) (length : ℕ) : Except HandshakeKeyError Bytes := do
  let info ← keyFieldOf info
  return hkdf ⟨master, [], info, length⟩

/-- The arguments of `derive_directional_keys` but for the master secret and the
session id; the shared secret and the salt play no part in it. -/
def directionalMaterial (hello reply : HandshakeFields) : KeyMaterial where
  sharedSecret := []
  salt := []
  initiatorId := hello.deviceId
  responderId := reply.deviceId
  initiatorEphemeralPub := hello.ephemeral
  responderEphemeralPub := reply.ephemeral

def deriveHandshakeSecrets (sharedSecret : Bytes) (hello reply : HandshakeFields) (t2 : Bytes) :
    Except HandshakeKeyError HandshakeSecrets := do
  requireSize sharedSecret "shared_secret" x25519KeySize
  (checkSharedSecret sharedSecret).mapError .lowOrderPoint
  requireSize t2 "transcript_t2" transcriptSize
  requireSize hello.nonce "hello.n_i" handshakeNonceSize
  requireSize reply.nonce "reply.n_r" handshakeNonceSize
  let initiatorNonce ← keyFieldOf hello.nonce
  let responderNonce ← keyFieldOf reply.nonce
  let masterInfo ← keyFieldOf handshakeMasterInfo
  let master := hkdf ⟨sharedSecret, initiatorNonce ++ responderNonce, masterInfo ++ t2, secretSize⟩
  let responderConfirmationKey ← deriveFromMaster hkdf master responderConfirmInfo secretSize
  let initiatorConfirmationKey ← deriveFromMaster hkdf master initiatorConfirmInfo secretSize
  let sessionId ← deriveFromMaster hkdf master handshakeSessionIdInfo sessionIdSize
  let keys ← ((directionalMaterial hello reply).deriveDirectionalKeys hkdf master
    sessionId).mapError .keySchedule
  return {
    master
    responderConfirmationKey
    initiatorConfirmationKey
    sessionId
    initiatorToResponderKey := keys.1
    responderToInitiatorKey := keys.2 }

end Derive

def keysForRole (secrets : HandshakeSecrets) (role : Role) :
    Except HandshakeKeyError SessionKeys := do
  requireSize secrets.sessionId "session_id" sessionIdSize
  return match role with
    | .initiator => ⟨secrets.sessionId, secrets.initiatorToResponderKey,
        secrets.responderToInitiatorKey, .initiator⟩
    | .responder => ⟨secrets.sessionId, secrets.responderToInitiatorKey,
        secrets.initiatorToResponderKey, .responder⟩

section Confirmation

variable (hmac : Hmac)

def confirmationMac (key transcript : Bytes) : Except HandshakeKeyError Bytes := do
  requireSize key "confirmation key" keySize
  requireSize transcript "transcript" transcriptSize
  return hmac key transcript

def verifyConfirmationMac (key transcript received : Bytes) : Except HandshakeKeyError Unit := do
  requireSize received "confirmation mac" macSize
  let expected ← confirmationMac hmac key transcript
  require (expected = received) .keyConfirmation

end Confirmation

/-! ## What they return -/

variable {hkdf : Hkdf} {hmac : Hmac}

theorem keyFieldOf_eq_ok {value bs : Bytes} :
    keyFieldOf value = .ok bs ↔ value.length < 65536 ∧ lengthPrefixed value = bs := by
  rw [keyFieldOf, except_mapError_eq_ok, keyField_eq_ok]

theorem confirmationMac_eq_ok {key transcript mac : Bytes} :
    confirmationMac hmac key transcript = .ok mac ↔
      key.length = keySize ∧ transcript.length = transcriptSize ∧ hmac key transcript = mac := by
  simp only [confirmationMac, requireSize, except_bind_eq_ok, require_eq_ok]
  constructor
  · rintro ⟨-, hkey, -, htranscript, hmac⟩
    exact ⟨hkey, htranscript, Except.ok.inj hmac⟩
  · rintro ⟨hkey, htranscript, rfl⟩
    exact ⟨(), hkey, (), htranscript, rfl⟩

theorem confirmationMac_run {key transcript : Bytes} (hkey : key.length = keySize)
    (htranscript : transcript.length = transcriptSize) :
    confirmationMac hmac key transcript = .ok (hmac key transcript) :=
  confirmationMac_eq_ok.mpr ⟨hkey, htranscript, rfl⟩

theorem verifyConfirmationMac_run {key transcript received : Bytes} (hkey : key.length = keySize)
    (htranscript : transcript.length = transcriptSize) (hreceived : received.length = macSize) :
    verifyConfirmationMac hmac key transcript received =
      require (hmac key transcript = received) .keyConfirmation := by
  rw [verifyConfirmationMac, confirmationMac_run hkey htranscript, requireSize, require,
    if_pos hreceived]
  rfl

theorem verifyConfirmationMac_eq_ok {key transcript received : Bytes} {u : Unit} :
    verifyConfirmationMac hmac key transcript received = .ok u ↔
      received.length = macSize ∧ confirmationMac hmac key transcript = .ok received := by
  simp only [verifyConfirmationMac, requireSize, except_bind_eq_ok, require_eq_ok]
  constructor
  · rintro ⟨-, hlength, _, hmac, rfl⟩
    exact ⟨hlength, hmac⟩
  · rintro ⟨hlength, hmac⟩
    exact ⟨(), hlength, _, hmac, rfl⟩

theorem deriveFromMaster_run {master info : Bytes} {length : ℕ} (h : info.length < 65536) :
    deriveFromMaster hkdf master info length =
      .ok (hkdf ⟨master, [], lengthPrefixed info, length⟩) := by
  rw [deriveFromMaster, keyFieldOf_eq_ok.mpr ⟨h, rfl⟩]
  rfl

theorem directionalCall_of_fits {material : KeyMaterial} {master sessionId label : Bytes}
    (hsession : sessionId.length = sessionIdSize)
    (hi : (utf8 material.initiatorId).length < 65536)
    (hr : (utf8 material.responderId).length < 65536)
    (hie : material.initiatorEphemeralPub.length < 65536)
    (hre : material.responderEphemeralPub.length < 65536) (hlabel : label.length < 65536) :
    ∃ call, material.directionalCall master sessionId label = .ok call := by
  rw [KeyMaterial.directionalCall, if_neg (not_not.mpr hsession)]
  simp only [except_bind_eq_ok, keyField_eq_ok]
  exact ⟨_, _, ⟨hi, rfl⟩, _, ⟨hr, rfl⟩, _, ⟨hie, rfl⟩, _, ⟨hre, rfl⟩, _, ⟨hlabel, rfl⟩, rfl⟩

/-- The secrets have the sizes that the confirmation MACs and the frames ask for. -/
structure HandshakeSecrets.Sized (secrets : HandshakeSecrets) : Prop where
  responderConfirmationKey : secrets.responderConfirmationKey.length = keySize
  initiatorConfirmationKey : secrets.initiatorConfirmationKey.length = keySize
  sessionId : secrets.sessionId.length = sessionIdSize

theorem sized_of_deriveHandshakeSecrets {sharedSecret t2 : Bytes} {hello reply : HandshakeFields}
    {secrets : HandshakeSecrets}
    (hhkdf : ∀ call, call.length ≤ secretSize → (hkdf call).length = call.length)
    (h : deriveHandshakeSecrets hkdf sharedSecret hello reply t2 = .ok secrets) :
    secrets.Sized := by
  have hmaster : ∀ master info length key, deriveFromMaster hkdf master info length = .ok key →
      length ≤ secretSize → key.length = length := by
    intro master info length key hkey hlength
    simp only [deriveFromMaster, except_bind_eq_ok] at hkey
    obtain ⟨field, -, hreturn⟩ := hkey
    obtain rfl := Except.ok.inj hreturn
    exact hhkdf _ hlength
  simp only [deriveHandshakeSecrets, except_bind_eq_ok] at h
  obtain ⟨-, -, -, -, -, -, -, -, -, -, _, -, _, -, _, -, kr, hkr, ki, hki, sid, hsid, _, -,
    hreturn⟩ := h
  obtain rfl := Except.ok.inj hreturn
  exact ⟨hmaster _ _ _ _ hkr le_rfl, hmaster _ _ _ _ hki le_rfl, hmaster _ _ _ _ hsid (by decide)⟩

/-- The schedule fails on no two well-formed messages and no proper secret. -/
theorem exists_deriveHandshakeSecrets {sharedSecret t2 : Bytes} {hello reply : HandshakeFields}
    (hhkdf : ∀ call, call.length ≤ secretSize → (hkdf call).length = call.length)
    (hhello : hello.WellFormed) (hreply : reply.WellFormed)
    (hsecret : sharedSecret.length = x25519KeySize)
    (hzero : sharedSecret ≠ encode x25519KeySize 0) (ht2 : t2.length = transcriptSize) :
    ∃ secrets, deriveHandshakeSecrets hkdf sharedSecret hello reply t2 = .ok secrets ∧
      secrets.Sized := by
  have hid : ∀ fields : HandshakeFields, fields.WellFormed →
      (utf8 fields.deviceId).length < 65536 := by
    intro fields h
    have hle := h.deviceId.length_le
    simp only [maxDeviceIdBytes] at hle
    omega
  have hephemeral : ∀ fields : HandshakeFields, fields.WellFormed →
      fields.ephemeral.length < 65536 := by
    intro fields h
    rw [h.ephemeral]
    decide
  have hnonce : ∀ fields : HandshakeFields, fields.WellFormed → fields.nonce.length < 65536 := by
    intro fields h
    rw [h.nonce]
    decide
  have hmaster : ∀ master info length, info.length < 65536 → length ≤ secretSize →
      ∃ key, deriveFromMaster hkdf master info length = .ok key ∧ key.length = length :=
    fun master info length hinfo hlength ↦ ⟨_, deriveFromMaster_run hinfo, hhkdf _ hlength⟩
  generalize hmasterKey : hkdf ⟨sharedSecret,
    lengthPrefixed hello.nonce ++ lengthPrefixed reply.nonce,
    lengthPrefixed handshakeMasterInfo ++ t2, secretSize⟩ = master
  obtain ⟨kr, hkr, hkrSize⟩ := hmaster master responderConfirmInfo secretSize
    (by decide +kernel) (by decide)
  obtain ⟨ki, hki, hkiSize⟩ := hmaster master initiatorConfirmInfo secretSize
    (by decide +kernel) (by decide)
  obtain ⟨sid, hsid, hsidSize⟩ := hmaster master handshakeSessionIdInfo sessionIdSize
    (by decide +kernel) (by decide)
  have hcall : ∀ label : Bytes, label.length < 65536 → ∃ call,
      (directionalMaterial hello reply).directionalCall master sid label = .ok call :=
    fun label hlabel ↦ directionalCall_of_fits hsidSize (hid hello hhello) (hid reply hreply)
      (hephemeral hello hhello) (hephemeral reply hreply) hlabel
  obtain ⟨i2r, hi2r⟩ := hcall i2rInfo (by decide +kernel)
  obtain ⟨r2i, hr2i⟩ := hcall r2iInfo (by decide +kernel)
  have hkeys : (directionalMaterial hello reply).deriveDirectionalKeys hkdf master sid =
      .ok (hkdf i2r, hkdf r2i) := by
    rw [KeyMaterial.deriveDirectionalKeys, hi2r, hr2i]
    rfl
  refine ⟨⟨master, kr, ki, sid, hkdf i2r, hkdf r2i⟩, ?_, ⟨hkrSize, hkiSize, hsidSize⟩⟩
  simp only [deriveHandshakeSecrets, requireSize, checkSharedSecret, except_bind_eq_ok,
    require_eq_ok, except_mapError_eq_ok, keyFieldOf_eq_ok]
  exact ⟨(), hsecret, (), ⟨(), hsecret, hzero⟩, (), ht2, (), hhello.nonce, (), hreply.nonce, _,
    ⟨hnonce hello hhello, rfl⟩, _, ⟨hnonce reply hreply, rfl⟩, _, ⟨by decide +kernel, rfl⟩, kr,
    by rw [hmasterKey]; exact hkr, ki, by rw [hmasterKey]; exact hki, sid,
    by rw [hmasterKey]; exact hsid, _, by rw [hmasterKey]; exact hkeys, by rw [hmasterKey]; rfl⟩

end SecureSync
