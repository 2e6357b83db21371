import SecureSync.Infrastructure.SessionKeys

/-!
# The messages of the v3 handshake

`handshake_messages.py`, with the checks of `x25519_safety.py`.  HELLO and the
body of REPLY have the same fields in the same order.
-/

namespace SecureSync

open BigEndian Raising

/-! ## Degenerate keys -/

def x25519KeySize : ℕ := 32

/-- `LOW_ORDER_POINTS`. -/
def lowOrderPoints : List Bytes :=
  [encode 32 0,
   1 :: encode 31 0,
   encode 32 0xe0eb7a7c3b41b8ae1656e3faf19fc46ada098deb9c32b1fd866205165f49b800,
   encode 32 0x5f9c95bca3508c24b1d0b1559c83ef5b04445cc4581c8e86d8224eddd09f1157,
   encode 32 0xecffffffffffffffffffffffffffffffffffffffffffffffffffffffffffff7f,
   encode 32 0xedffffffffffffffffffffffffffffffffffffffffffffffffffffffffffff7f,
   encode 32 0xeeffffffffffffffffffffffffffffffffffffffffffffffffffffffffffff7f]

inductive LowOrderPointError where
  | publicKeyLength (length : ℕ)
  | publicKey
  | sharedSecretLength (length : ℕ)
  | sharedSecret
  deriving DecidableEq, Repr

def checkPublicKey (publicKey : Bytes) : Except LowOrderPointError Unit := do
  require (publicKey.length = x25519KeySize) (.publicKeyLength publicKey.length)
  require (publicKey ∉ lowOrderPoints) .publicKey

def checkSharedSecret (sharedSecret : Bytes) : Except LowOrderPointError Unit := do
  require (sharedSecret.length = x25519KeySize) (.sharedSecretLength sharedSecret.length)
  require (sharedSecret ≠ encode x25519KeySize 0) .sharedSecret

/-! ## Constants and errors -/

def handshakeVersion : ℕ := 3

def msgHello : UInt8 := 0x01

def msgReply : UInt8 := 0x02

def msgConfirm : UInt8 := 0x03

def msgFinal : UInt8 := 0x04

def statusAccept : UInt8 := 0x00

def statusReject : UInt8 := 0x01

def minDeviceIdBytes : ℕ := 1

def maxDeviceIdBytes : ℕ := 64

def minPort : ℤ := 1

def maxPort : ℤ := 65535

/-- `NONCE_SIZE` of the handshake. -/
def handshakeNonceSize : ℕ := 32

def ed25519PublicKeySize : ℕ := 32

def ed25519SignatureSize : ℕ := 64

def macSize : ℕ := 32

inductive HandshakeDecodeError where
  | header
  | msgType (expected actual : UInt8)
  | truncated (field : String)
  | trailing (message : String) (count : ℕ)
  deriving DecidableEq, Repr

inductive HandshakeValidationError where
  | deviceIdUtf8
  | deviceIdEmpty
  | deviceIdLength (length : ℕ)
  | deviceIdControl
  | fieldLength (field : String) (length : ℕ)
  | port (name : String) (port : ℤ)
  | size (name : String) (size actual : ℕ)
  | status (status : UInt8)
  | tooLong (error : KeyScheduleError)
  | ownDeviceId
  | ownIdentityKey
  deriving DecidableEq, Repr

/-- What the codecs raise. -/
inductive MessageError where
  | decode (error : HandshakeDecodeError)
  | validation (error : HandshakeValidationError)
  | unsupportedVersion (version : ℕ)
  | lowOrderPoint (error : LowOrderPointError)
  deriving DecidableEq, Repr

/-- `HandshakeMessageError` is the base class of two of them. -/
def MessageError.isHandshakeMessageError : MessageError → Bool
  | .decode _ | .validation _ => true
  | .unsupportedVersion _ | .lowOrderPoint _ => false

/-! ## Messages -/

structure HandshakeFields where
  ephemeral : Bytes
  nonce : Bytes
  deviceId : DeviceId
  identityPublicKey : Bytes
  transferPort : ℤ
  manifestPort : ℤ
  deriving DecidableEq

structure HelloMessage extends HandshakeFields where
  version : UInt8
  raw : Bytes
  deriving DecidableEq

structure ReplyMessage extends HandshakeFields where
  version : UInt8
  sigR : Bytes
  macR : Bytes
  body : Bytes
  raw : Bytes
  deriving DecidableEq

structure ConfirmMessage where
  version : UInt8
  sigI : Bytes
  macI : Bytes
  raw : Bytes
  deriving DecidableEq

structure FinalMessage where
  version : UInt8
  status : UInt8
  macF : Bytes
  raw : Bytes
  deriving DecidableEq

/-! ## Validation -/

def validateVersion (version : ℕ) : Except MessageError Unit :=
  require (version = handshakeVersion) (.unsupportedVersion version)

/-- `_validate_msg_type`, which returns the bytes after the header. -/
def validateMsgType (data : Bytes) (expected : UInt8) : Except MessageError Bytes :=
  match data with
  | version :: msgType :: rest => do
      validateVersion version.toNat
      require (msgType = expected) (.decode (.msgType expected msgType))
      return rest
  | _ => .error (.decode .header)

/-- `unicodedata.category(c) == "Cc"`. -/
def isControl (c : Char) : Bool :=
  c.toNat < 0x20 || (0x7f ≤ c.toNat && c.toNat < 0xa0)

/-- The checks that encoder and decoder make of a device id. -/
def checkDeviceId (deviceId : DeviceId) (encoded : Bytes) : Except MessageError Unit := do
  require (encoded ≠ []) (.validation .deviceIdEmpty)
  require (encoded.length ≤ maxDeviceIdBytes) (.validation (.deviceIdLength encoded.length))
  require (deviceId.toList.any isControl = false) (.validation .deviceIdControl)

def validateDeviceId (deviceId : DeviceId) : Except MessageError Bytes := do
  checkDeviceId deviceId (utf8 deviceId)
  return utf8 deviceId

def decodeDeviceId (raw : Bytes) : Except MessageError DeviceId :=
  match String.fromUTF8? ⟨raw.toArray⟩ with
  | none => .error (.validation .deviceIdUtf8)
  | some deviceId => do
      checkDeviceId deviceId raw
      return deviceId

def validatePort (port : ℤ) (name : String) : Except MessageError Unit :=
  require (minPort ≤ port ∧ port ≤ maxPort) (.validation (.port name port))

def validateBytes (value : Bytes) (name : String) (size : ℕ) : Except MessageError Unit :=
  require (value.length = size) (.validation (.size name size value.length))

/-- `_lp`. -/
def fieldOf (value : Bytes) : Except MessageError Bytes :=
  (keyField value).mapError fun e ↦ .validation (.tooLong e)

/-- `_take`, with what follows the field. -/
def takeBytes (data : Bytes) (size : ℕ) (field : String) : Except MessageError (Bytes × Bytes) := do
  require (size ≤ data.length) (.decode (.truncated field))
  return (data.take size, data.drop size)

/-- `_u16`. -/
def takeU16 (data : Bytes) (field : String) : Except MessageError (ℕ × Bytes) := do
  let taken ← takeBytes data 2 field
  return (decode taken.1, taken.2)

def checkNotSelf (peerDeviceId : DeviceId) (peerIdentityPublicKey : Bytes)
    (ownDeviceId : DeviceId) (ownIdentityPublicKey : Bytes) : Except MessageError Unit := do
  require (peerDeviceId ≠ ownDeviceId) (.validation .ownDeviceId)
  require (peerIdentityPublicKey ≠ ownIdentityPublicKey) (.validation .ownIdentityKey)

/-! ## Encoders -/

/-- What `encode_hello` and `encode_reply_body` have in common; the names are
those in the errors about the two fields of their own. -/
def encodeFields (msgType : UInt8) (ephemeralName nonceName : String) (fields : HandshakeFields)
    (version : ℕ) : Except MessageError Bytes := do
  validateVersion version
  validateBytes fields.ephemeral ephemeralName x25519KeySize
  validateBytes fields.nonce nonceName handshakeNonceSize
  validateBytes fields.identityPublicKey "identity_public_key" ed25519PublicKeySize
  validatePort fields.transferPort "transfer_port"
  validatePort fields.manifestPort "manifest_port"
  let deviceIdBytes ← validateDeviceId fields.deviceId
  return UInt8.ofNat version :: msgType :: (fields.ephemeral ++ (fields.nonce ++
    (encode 2 deviceIdBytes.length ++ (deviceIdBytes ++ (fields.identityPublicKey ++
      (encode 2 fields.transferPort.toNat ++ encode 2 fields.manifestPort.toNat))))))

def encodeHello (fields : HandshakeFields) (version : ℕ := handshakeVersion) :
    Except MessageError Bytes :=
  encodeFields msgHello "e_i" "n_i" fields version

def encodeReplyBody (fields : HandshakeFields) (version : ℕ := handshakeVersion) :
    Except MessageError Bytes :=
  encodeFields msgReply "e_r" "n_r" fields version

def encodeReply (fields : HandshakeFields) (sigR macR : Bytes)
    (version : ℕ := handshakeVersion) : Except MessageError Bytes := do
  validateBytes sigR "sig_r" ed25519SignatureSize
  validateBytes macR "mac_r" macSize
  let body ← encodeReplyBody fields version
  return body ++ (sigR ++ macR)

def encodeConfirm (sigI macI : Bytes) (version : ℕ := handshakeVersion) :
    Except MessageError Bytes := do
  validateVersion version
  validateBytes sigI "sig_i" ed25519SignatureSize
  validateBytes macI "mac_i" macSize
  return UInt8.ofNat version :: msgConfirm :: (sigI ++ macI)

def encodeFinal (status : UInt8) (macF : Bytes) (version : ℕ := handshakeVersion) :
    Except MessageError Bytes := do
  validateVersion version
  require (status = statusAccept ∨ status = statusReject) (.validation (.status status))
  validateBytes macF "mac_f" macSize
  return UInt8.ofNat version :: msgFinal :: status :: macF

/-! ## Decoders -/

/-- The part that `decode_hello` and `decode_reply` have in common, with the
bytes after it; `side` is the last letter of the field names. -/
def decodeFields (msgType : UInt8) (side : String) (data : Bytes) :
    Except MessageError (HandshakeFields × Bytes) := do
  let rest ← validateMsgType data msgType
  let ephemeral ← takeBytes rest x25519KeySize ("e_" ++ side)
  let nonce ← takeBytes ephemeral.2 handshakeNonceSize ("n_" ++ side)
  let idLength ← takeU16 nonce.2 ("id_" ++ side ++ "_len")
  require (minDeviceIdBytes ≤ idLength.1 ∧ idLength.1 ≤ maxDeviceIdBytes)
    (.validation (.fieldLength ("id_" ++ side ++ "_len") idLength.1))
  let id ← takeBytes idLength.2 idLength.1 ("id_" ++ side)
  let deviceId ← decodeDeviceId id.1
  let identityPublicKey ← takeBytes id.2 ed25519PublicKeySize ("id_pub_" ++ side)
  let transferPort ← takeU16 identityPublicKey.2 ("transfer_port_" ++ side)
  let manifestPort ← takeU16 transferPort.2 ("manifest_port_" ++ side)
  return (⟨ephemeral.1, nonce.1, deviceId, identityPublicKey.1, transferPort.1, manifestPort.1⟩,
    manifestPort.2)

/-- The checks that both decoders make once the message is read to its end. -/
def checkFields (message side : String) (rest : Bytes) (fields : HandshakeFields) :
    Except MessageError Unit := do
  require (rest = []) (.decode (.trailing message rest.length))
  validatePort fields.transferPort ("transfer_port_" ++ side)
  validatePort fields.manifestPort ("manifest_port_" ++ side)
  (checkPublicKey fields.ephemeral).mapError .lowOrderPoint

def decodeHello (data : Bytes) : Except MessageError HelloMessage := do
  let fields ← decodeFields msgHello "i" data
  checkFields "HELLO" "i" fields.2 fields.1
  return { fields.1 with version := data.getD 0 0, raw := data }

def decodeReply (data : Bytes) : Except MessageError ReplyMessage := do
  let fields ← decodeFields msgReply "r" data
  let sigR ← takeBytes fields.2 ed25519SignatureSize "sig_r"
  let macR ← takeBytes sigR.2 macSize "mac_r"
  checkFields "REPLY" "r" macR.2 fields.1
  return { fields.1 with
    version := data.getD 0 0
    sigR := sigR.1
    macR := macR.1
    body := data.take (data.length - fields.2.length)
    raw := data }

def decodeConfirm (data : Bytes) : Except MessageError ConfirmMessage := do
  let rest ← validateMsgType data msgConfirm
  let sigI ← takeBytes rest ed25519SignatureSize "sig_i"
  let macI ← takeBytes sigI.2 macSize "mac_i"
  require (macI.2 = []) (.decode (.trailing "CONFIRM" macI.2.length))
  return { version := data.getD 0 0, sigI := sigI.1, macI := macI.1, raw := data }

def decodeFinal (data : Bytes) : Except MessageError FinalMessage := do
  let rest ← validateMsgType data msgFinal
  let status ← takeBytes rest 1 "status"
  require (status.1.getD 0 0 = statusAccept ∨ status.1.getD 0 0 = statusReject)
    (.validation (.status (status.1.getD 0 0)))
  let macF ← takeBytes status.2 macSize "mac_f"
  require (macF.2 = []) (.decode (.trailing "FINAL" macF.2.length))
  return { version := data.getD 0 0, status := status.1.getD 0 0, macF := macF.1, raw := data }

/-! ## Transcripts -/

abbrev Sha256 := Bytes → Bytes

/-- `T1`. -/
def transcriptLabel : Bytes := utf8 "securesync-1e-handshake-v1"

def responderSigLabel : Bytes := utf8 "securesync-1e-responder-sig"

def initiatorSigLabel : Bytes := utf8 "securesync-1e-initiator-sig"

def m4AcceptLabel : Bytes := utf8 "securesync-1e-m4-accept"

def m4RejectLabel : Bytes := utf8 "securesync-1e-m4-reject"

/-- What `_hash` feeds to SHA-256. -/
def transcriptInput (front : Bytes) : List Bytes → Except MessageError Bytes
  | [] => .ok front
  | part :: parts => do
      let field ← fieldOf part
      transcriptInput (front ++ field) parts

/-- `_hash`. -/
def transcriptHash (sha256 : Sha256) (front : Bytes) (parts : List Bytes) :
    Except MessageError Bytes := do
  let input ← transcriptInput front parts
  return sha256 input

section Transcripts

variable (sha256 : Sha256)

def transcriptT2 (m1 m2body : Bytes) : Except MessageError Bytes :=
  transcriptHash sha256 transcriptLabel [m1, m2body]

def transcriptT2s (t2 sigR : Bytes) : Except MessageError Bytes := transcriptHash sha256 t2 [sigR]

def transcriptT3 (t2s macR : Bytes) : Except MessageError Bytes := transcriptHash sha256 t2s [macR]

def transcriptT3s (t3 sigI : Bytes) : Except MessageError Bytes := transcriptHash sha256 t3 [sigI]

def transcriptFinal (t3s macI : Bytes) : Except MessageError Bytes :=
  transcriptHash sha256 t3s [macI]

def transcriptM4Accept (tFinal : Bytes) : Except MessageError Bytes :=
  transcriptHash sha256 tFinal [m4AcceptLabel]

def transcriptM4Reject (t2s m3Raw : Bytes) : Except MessageError Bytes :=
  transcriptHash sha256 t2s [m3Raw, m4RejectLabel]

end Transcripts

def signedResponder (t2 : Bytes) : Except MessageError Bytes := do
  let label ← fieldOf responderSigLabel
  return label ++ t2

def signedInitiator (t2s : Bytes) : Except MessageError Bytes := do
  let label ← fieldOf initiatorSigLabel
  return label ++ t2s

/-! ## What a transcript covers -/

theorem fieldOf_eq_ok {value bs : Bytes} :
    fieldOf value = .ok bs ↔ value.length < 65536 ∧ lengthPrefixed value = bs := by
  rw [fieldOf, except_mapError_eq_ok, keyField_eq_ok]

theorem transcriptInput_eq_ok {front bs : Bytes} {parts : List Bytes} :
    transcriptInput front parts = .ok bs ↔
      (∀ part ∈ parts, part.length < 65536) ∧ front ++ parts.flatMap lengthPrefixed = bs := by
  induction parts generalizing front with
  | nil => simp [transcriptInput]
  | cons part parts ih =>
      simp only [transcriptInput, except_bind_eq_ok, fieldOf_eq_ok, ih, List.forall_mem_cons,
        List.flatMap_cons]
      constructor
      · rintro ⟨_, ⟨hpart, rfl⟩, hparts, hinput⟩
        exact ⟨⟨hpart, hparts⟩, by rw [← hinput, List.append_assoc]⟩
      · rintro ⟨⟨hpart, hparts⟩, hinput⟩
        exact ⟨_, ⟨hpart, rfl⟩, hparts, by rw [← hinput, List.append_assoc]⟩

theorem transcriptHash_eq_ok {sha256 : Sha256} {front digest : Bytes} {parts : List Bytes} :
    transcriptHash sha256 front parts = .ok digest ↔
      (∀ part ∈ parts, part.length < 65536) ∧
        sha256 (front ++ parts.flatMap lengthPrefixed) = digest := by
  simp only [transcriptHash, except_bind_eq_ok, transcriptInput_eq_ok]
  constructor
  · rintro ⟨_, ⟨hparts, rfl⟩, h⟩
    exact ⟨hparts, Except.ok.inj h⟩
  · rintro ⟨hparts, h⟩
    exact ⟨_, ⟨hparts, rfl⟩, congrArg Except.ok h⟩

/-! ## Round trips -/

theorem takeBytes_eq_ok {data bs rest : Bytes} {size : ℕ} {field : String} :
    takeBytes data size field = .ok (bs, rest) ↔ bs.length = size ∧ data = bs ++ rest := by
  simp only [takeBytes, except_bind_eq_ok, require_eq_ok]
  constructor
  · rintro ⟨-, hsize, hreturn⟩
    obtain ⟨rfl, rfl⟩ := Prod.mk.inj (Except.ok.inj hreturn)
    exact ⟨List.length_take_of_le hsize, (List.take_append_drop size data).symm⟩
  · rintro ⟨rfl, rfl⟩
    refine ⟨(), by simp, ?_⟩
    rw [List.take_left, List.drop_left]
    rfl

theorem takeBytes_append (bs rest : Bytes) (field : String) {size : ℕ} (h : bs.length = size) :
    takeBytes (bs ++ rest) size field = .ok (bs, rest) :=
  takeBytes_eq_ok.mpr ⟨h, rfl⟩

theorem takeU16_eq_ok {data rest : Bytes} {n : ℕ} {field : String} :
    takeU16 data field = .ok (n, rest) ↔ n < 65536 ∧ data = encode 2 n ++ rest := by
  simp only [takeU16, except_bind_eq_ok]
  constructor
  · rintro ⟨⟨bs, rest'⟩, htake, hreturn⟩
    obtain ⟨hlength, rfl⟩ := takeBytes_eq_ok.mp htake
    obtain ⟨rfl, rfl⟩ := Prod.mk.inj (Except.ok.inj hreturn)
    have hlt := decode_lt bs
    have hencode := encode_decode bs
    rw [hlength] at hlt hencode
    exact ⟨hlt, by rw [hencode]⟩
  · rintro ⟨hlt, rfl⟩
    refine ⟨(encode 2 n, rest), takeBytes_append _ _ _ (length_encode 2 n), ?_⟩
    rw [decode_encode (by simpa using hlt)]
    rfl

theorem validateMsgType_eq_ok {data rest : Bytes} {msgType : UInt8} :
    validateMsgType data msgType = .ok rest ↔ data = 3 :: msgType :: rest := by
  unfold validateMsgType
  split
  · rename_i version actual rest'
    simp only [except_bind_eq_ok, validateVersion, require_eq_ok]
    constructor
    · rintro ⟨-, hversion, -, rfl, hreturn⟩
      obtain rfl := Except.ok.inj hreturn
      rw [show version = 3 from UInt8.toNat_inj.mp hversion]
    · intro h
      obtain ⟨rfl, rfl, rfl⟩ : version = 3 ∧ actual = msgType ∧ rest' = rest := by simpa using h
      exact ⟨(), rfl, (), rfl, rfl⟩
  · rename_i hshort
    refine iff_of_false nofun fun h ↦ hshort 3 msgType rest h

theorem fromUTF8?_eq_some {raw : Bytes} {s : String} :
    String.fromUTF8? ⟨raw.toArray⟩ = some s ↔ utf8 s = raw := by
  constructor
  · intro h
    unfold String.fromUTF8? at h
    split_ifs at h
    obtain rfl := Option.some.inj h
    simp [utf8, String.fromUTF8]
  · rintro rfl
    have hbytes : (⟨(utf8 s).toArray⟩ : ByteArray) = s.toUTF8 := by simp [utf8]
    have hvalid : s.toUTF8.IsValidUTF8 := s.isValidUTF8
    rw [hbytes, String.fromUTF8?, dif_pos hvalid]
    rfl

/-- What the codecs ask of a device id. -/
structure DeviceIdValid (deviceId : DeviceId) : Prop where
  ne_nil : utf8 deviceId ≠ []
  length_le : (utf8 deviceId).length ≤ maxDeviceIdBytes
  no_control : deviceId.toList.any isControl = false

theorem checkDeviceId_eq_ok {deviceId : DeviceId} {u : Unit} :
    checkDeviceId deviceId (utf8 deviceId) = .ok u ↔ DeviceIdValid deviceId := by
  simp only [checkDeviceId, except_bind_eq_ok, require_eq_ok]
  constructor
  · rintro ⟨-, hne, -, hlength, hcontrol⟩
    exact ⟨hne, hlength, hcontrol⟩
  · rintro ⟨hne, hlength, hcontrol⟩
    exact ⟨(), hne, (), hlength, hcontrol⟩

theorem decodeDeviceId_eq_ok {raw : Bytes} {deviceId : DeviceId} :
    decodeDeviceId raw = .ok deviceId ↔ utf8 deviceId = raw ∧ DeviceIdValid deviceId := by
  unfold decodeDeviceId
  cases hraw : String.fromUTF8? ⟨raw.toArray⟩ with
  | none =>
      refine iff_of_false nofun fun h ↦ ?_
      rw [fromUTF8?_eq_some.mpr h.1] at hraw
      cases hraw
  | some s =>
      obtain rfl := fromUTF8?_eq_some.mp hraw
      simp only [except_bind_eq_ok, checkDeviceId_eq_ok]
      constructor
      · rintro ⟨-, hvalid, hreturn⟩
        obtain rfl := Except.ok.inj hreturn
        exact ⟨rfl, hvalid⟩
      · rintro ⟨heq, hvalid⟩
        obtain rfl := utf8_injective heq
        exact ⟨(), hvalid, rfl⟩

namespace HandshakeFields

/-- The bytes of the fields, after the header. -/
def layout (fields : HandshakeFields) : Bytes :=
  fields.ephemeral ++ (fields.nonce ++ (encode 2 (utf8 fields.deviceId).length ++
    (utf8 fields.deviceId ++ (fields.identityPublicKey ++
      (encode 2 fields.transferPort.toNat ++ encode 2 fields.manifestPort.toNat)))))

/-- The fields that a decoder can have read, before it checks them. -/
structure Readable (fields : HandshakeFields) : Prop where
  ephemeral : fields.ephemeral.length = x25519KeySize
  nonce : fields.nonce.length = handshakeNonceSize
  deviceId : DeviceIdValid fields.deviceId
  identityPublicKey : fields.identityPublicKey.length = ed25519PublicKeySize
  transferPort : 0 ≤ fields.transferPort ∧ fields.transferPort ≤ maxPort
  manifestPort : 0 ≤ fields.manifestPort ∧ fields.manifestPort ≤ maxPort

/-- The fields that an encoder accepts. -/
structure WellFormed (fields : HandshakeFields) : Prop extends fields.Readable where
  minPort_le_transferPort : minPort ≤ fields.transferPort
  minPort_le_manifestPort : minPort ≤ fields.manifestPort

end HandshakeFields

section Fields

variable {fields : HandshakeFields} {msgType : UInt8} {bs rest : Bytes}

theorem encodeFields_eq_ok {ephemeralName nonceName : String} :
    encodeFields msgType ephemeralName nonceName fields handshakeVersion = .ok bs ↔
      fields.WellFormed ∧ 3 :: msgType :: fields.layout = bs := by
  simp only [encodeFields, validateVersion, validateBytes, validatePort, validateDeviceId,
    except_bind_eq_ok, require_eq_ok, checkDeviceId_eq_ok]
  constructor
  · rintro ⟨-, -, -, he, -, hn, -, hk, -, ht, -, hm, _, ⟨-, hid, hutf⟩, hreturn⟩
    obtain rfl := Except.ok.inj hutf
    have ht0 : 0 ≤ fields.transferPort := le_trans (by decide) ht.1
    have hm0 : 0 ≤ fields.manifestPort := le_trans (by decide) hm.1
    exact ⟨⟨⟨he, hn, hid, hk, ⟨ht0, ht.2⟩, ⟨hm0, hm.2⟩⟩, ht.1, hm.1⟩, Except.ok.inj hreturn⟩
  · rintro ⟨h, rfl⟩
    exact ⟨(), trivial, (), h.ephemeral, (), h.nonce, (), h.identityPublicKey, (),
      ⟨h.minPort_le_transferPort, h.transferPort.2⟩, (),
      ⟨h.minPort_le_manifestPort, h.manifestPort.2⟩, _, ⟨(), h.deviceId, rfl⟩, rfl⟩

theorem decodeFields_eq_ok {side : String} :
    decodeFields msgType side bs = .ok (fields, rest) ↔
      fields.Readable ∧ bs = 3 :: msgType :: (fields.layout ++ rest) := by
  simp only [decodeFields, except_bind_eq_ok, require_eq_ok]
  constructor
  · rintro ⟨data, hheader, ⟨e, d₁⟩, he, ⟨n, d₂⟩, hn, ⟨len, d₃⟩, hlen, -, -, ⟨id, d₄⟩, hid,
      deviceId, hdevice, ⟨key, d₅⟩, hkey, ⟨tp, d₆⟩, htp, ⟨mp, d₇⟩, hmp, hreturn⟩
    obtain ⟨rfl, rfl⟩ := Prod.mk.inj (Except.ok.inj hreturn)
    obtain rfl := validateMsgType_eq_ok.mp hheader
    obtain ⟨heLength, rfl⟩ := takeBytes_eq_ok.mp he
    obtain ⟨hnLength, rfl⟩ := takeBytes_eq_ok.mp hn
    obtain ⟨-, rfl⟩ := takeU16_eq_ok.mp hlen
    obtain ⟨hidLength, rfl⟩ := takeBytes_eq_ok.mp hid
    obtain ⟨rfl, hvalid⟩ := decodeDeviceId_eq_ok.mp hdevice
    obtain ⟨hkeyLength, rfl⟩ := takeBytes_eq_ok.mp hkey
    obtain ⟨htpLt, rfl⟩ := takeU16_eq_ok.mp htp
    obtain ⟨hmpLt, rfl⟩ := takeU16_eq_ok.mp hmp
    refine ⟨⟨heLength, hnLength, hvalid, hkeyLength, ?_, ?_⟩, ?_⟩
    · exact ⟨Int.natCast_nonneg tp, by simp only [maxPort]; omega⟩
    · exact ⟨Int.natCast_nonneg mp, by simp only [maxPort]; omega⟩
    · simp only [HandshakeFields.layout, Int.toNat_natCast, List.append_assoc, hidLength]
  · rintro ⟨h, rfl⟩
    obtain ⟨tp, htp⟩ := Int.eq_ofNat_of_zero_le h.transferPort.1
    obtain ⟨mp, hmp⟩ := Int.eq_ofNat_of_zero_le h.manifestPort.1
    have htp' := h.transferPort.2
    have hmp' := h.manifestPort.2
    have hlength := h.deviceId.length_le
    have hpos := List.length_pos_iff.mpr h.deviceId.ne_nil
    simp only [maxPort, maxDeviceIdBytes] at htp' hmp' hlength
    simp only [HandshakeFields.layout, List.append_assoc]
    refine ⟨_, validateMsgType_eq_ok.mpr rfl, _, takeBytes_append _ _ _ h.ephemeral, _,
      takeBytes_append _ _ _ h.nonce, _, takeU16_eq_ok.mpr ⟨by omega, rfl⟩, (),
      ⟨hpos, h.deviceId.length_le⟩, _, takeBytes_append _ _ _ rfl, _,
      decodeDeviceId_eq_ok.mpr ⟨rfl, h.deviceId⟩, _,
      takeBytes_append _ _ _ h.identityPublicKey, (tp, encode 2 mp ++ rest),
      takeU16_eq_ok.mpr ⟨by omega, by rw [htp, hmp]; rfl⟩, (mp, rest),
      takeU16_eq_ok.mpr ⟨by omega, rfl⟩, ?_⟩
    rw [show (tp : ℤ) = fields.transferPort from htp.symm,
      show (mp : ℤ) = fields.manifestPort from hmp.symm]
    rfl

theorem checkPublicKey_eq_ok {publicKey : Bytes} {u : Unit} :
    checkPublicKey publicKey = .ok u ↔
      publicKey.length = x25519KeySize ∧ publicKey ∉ lowOrderPoints := by
  simp only [checkPublicKey, except_bind_eq_ok, require_eq_ok]
  exact ⟨fun ⟨_, hlength, hlow⟩ ↦ ⟨hlength, hlow⟩, fun ⟨hlength, hlow⟩ ↦ ⟨(), hlength, hlow⟩⟩

theorem checkFields_eq_ok {message side : String} {u : Unit} (h : fields.Readable) :
    checkFields message side rest fields = .ok u ↔
      rest = [] ∧ fields.WellFormed ∧ fields.ephemeral ∉ lowOrderPoints := by
  simp only [checkFields, validatePort, except_bind_eq_ok, require_eq_ok, except_mapError_eq_ok,
    checkPublicKey_eq_ok]
  constructor
  · rintro ⟨-, hrest, -, ht, -, hm, -, hlow⟩
    exact ⟨hrest, ⟨h, ht.1, hm.1⟩, hlow⟩
  · rintro ⟨hrest, hwell, hlow⟩
    exact ⟨(), hrest, (), ⟨hwell.minPort_le_transferPort, h.transferPort.2⟩, (),
      ⟨hwell.minPort_le_manifestPort, h.manifestPort.2⟩, h.ephemeral, hlow⟩

end Fields

/-! ### The messages that decode -/

structure HelloMessage.Valid (hello : HelloMessage) : Prop
    extends hello.toHandshakeFields.WellFormed where
  not_lowOrder : hello.ephemeral ∉ lowOrderPoints
  version_eq : hello.version = 3
  raw_eq : hello.raw = 3 :: msgHello :: hello.layout

structure ReplyMessage.Valid (reply : ReplyMessage) : Prop
    extends reply.toHandshakeFields.WellFormed where
  not_lowOrder : reply.ephemeral ∉ lowOrderPoints
  version_eq : reply.version = 3
  length_sigR : reply.sigR.length = ed25519SignatureSize
  length_macR : reply.macR.length = macSize
  body_eq : reply.body = 3 :: msgReply :: reply.layout
  raw_eq : reply.raw = reply.body ++ (reply.sigR ++ reply.macR)

structure ConfirmMessage.Valid (confirm : ConfirmMessage) : Prop where
  version_eq : confirm.version = 3
  length_sigI : confirm.sigI.length = ed25519SignatureSize
  length_macI : confirm.macI.length = macSize
  raw_eq : confirm.raw = 3 :: msgConfirm :: (confirm.sigI ++ confirm.macI)

structure FinalMessage.Valid (final : FinalMessage) : Prop where
  version_eq : final.version = 3
  status_eq : final.status = statusAccept ∨ final.status = statusReject
  length_macF : final.macF.length = macSize
  raw_eq : final.raw = 3 :: msgFinal :: final.status :: final.macF

theorem decodeHello_eq_ok {data : Bytes} {hello : HelloMessage} :
    decodeHello data = .ok hello ↔ hello.Valid ∧ hello.raw = data := by
  simp only [decodeHello, except_bind_eq_ok]
  constructor
  · rintro ⟨⟨fields, rest⟩, hfields, u, hcheck, hreturn⟩
    obtain rfl := Except.ok.inj hreturn
    obtain ⟨hreadable, rfl⟩ := decodeFields_eq_ok.mp hfields
    obtain ⟨rfl, hwell, hlow⟩ := (checkFields_eq_ok hreadable).mp hcheck
    exact ⟨⟨hwell, hlow, rfl, by simp⟩, rfl⟩
  · rintro ⟨h, rfl⟩
    refine ⟨(hello.toHandshakeFields, []), decodeFields_eq_ok.mpr ⟨h.toReadable, ?_⟩, (),
      (checkFields_eq_ok h.toReadable).mpr ⟨rfl, h.toWellFormed, h.not_lowOrder⟩, ?_⟩
    · rw [List.append_nil, h.raw_eq]
    · obtain ⟨fields, version, raw⟩ := hello
      obtain rfl : version = 3 := h.version_eq
      obtain rfl : raw = 3 :: msgHello :: fields.layout := h.raw_eq
      rfl

theorem decodeReply_eq_ok {data : Bytes} {reply : ReplyMessage} :
    decodeReply data = .ok reply ↔ reply.Valid ∧ reply.raw = data := by
  simp only [decodeReply, except_bind_eq_ok]
  constructor
  · rintro ⟨⟨fields, rest⟩, hfields, ⟨sigR, rest'⟩, hsig, ⟨macR, rest''⟩, hmac, u, hcheck, hreturn⟩
    obtain rfl := Except.ok.inj hreturn
    obtain ⟨hreadable, rfl⟩ := decodeFields_eq_ok.mp hfields
    obtain ⟨hsigLength, rfl⟩ := takeBytes_eq_ok.mp hsig
    obtain ⟨hmacLength, rfl⟩ := takeBytes_eq_ok.mp hmac
    obtain ⟨rfl, hwell, hlow⟩ := (checkFields_eq_ok hreadable).mp hcheck
    have hbody : (3 :: msgReply :: (fields.layout ++ (sigR ++ (macR ++ [])))).take
        ((3 :: msgReply :: (fields.layout ++ (sigR ++ (macR ++ [])))).length -
          (sigR ++ (macR ++ [])).length) = 3 :: msgReply :: fields.layout := by
      rw [← List.cons_append, ← List.cons_append, List.length_append, Nat.add_sub_cancel,
        List.take_left]
    refine ⟨⟨hwell, hlow, rfl, hsigLength, hmacLength, hbody, ?_⟩, rfl⟩
    simp only [List.append_nil] at hbody ⊢
    rw [hbody]
    rfl
  · rintro ⟨h, rfl⟩
    have hraw : reply.raw = 3 :: msgReply :: (reply.layout ++ (reply.sigR ++ reply.macR)) := by
      rw [h.raw_eq, h.body_eq, List.cons_append, List.cons_append]
    refine ⟨(reply.toHandshakeFields, reply.sigR ++ reply.macR),
      decodeFields_eq_ok.mpr ⟨h.toReadable, hraw⟩, _, takeBytes_append _ _ _ h.length_sigR,
      (reply.macR, []), takeBytes_eq_ok.mpr ⟨h.length_macR, (List.append_nil _).symm⟩, (),
      (checkFields_eq_ok h.toReadable).mpr ⟨rfl, h.toWellFormed, h.not_lowOrder⟩, ?_⟩
    have hbody : reply.raw.take (reply.raw.length - (reply.sigR ++ reply.macR).length) =
        reply.body := by
      rw [h.raw_eq, List.length_append, Nat.add_sub_cancel, List.take_left]
    have hversion : reply.raw.getD 0 0 = reply.version := by
      rw [hraw, h.version_eq]
      rfl
    rw [hbody, hversion]
    rfl

theorem decodeConfirm_eq_ok {data : Bytes} {confirm : ConfirmMessage} :
    decodeConfirm data = .ok confirm ↔ confirm.Valid ∧ confirm.raw = data := by
  simp only [decodeConfirm, except_bind_eq_ok, require_eq_ok]
  constructor
  · rintro ⟨rest, hheader, ⟨sigI, rest'⟩, hsig, ⟨macI, rest''⟩, hmac, -, hrest, hreturn⟩
    obtain rfl := Except.ok.inj hreturn
    obtain rfl := validateMsgType_eq_ok.mp hheader
    obtain ⟨hsigLength, rfl⟩ := takeBytes_eq_ok.mp hsig
    obtain ⟨hmacLength, rfl⟩ := takeBytes_eq_ok.mp hmac
    obtain rfl : rest'' = [] := hrest
    exact ⟨⟨rfl, hsigLength, hmacLength, by simp⟩, rfl⟩
  · rintro ⟨h, rfl⟩
    refine ⟨_, validateMsgType_eq_ok.mpr h.raw_eq, _, takeBytes_append _ _ _ h.length_sigI,
      (confirm.macI, []), takeBytes_eq_ok.mpr ⟨h.length_macI, (List.append_nil _).symm⟩, (), rfl,
      ?_⟩
    have hversion : confirm.raw.getD 0 0 = confirm.version := by
      rw [h.raw_eq, h.version_eq]
      rfl
    rw [hversion]
    rfl

theorem decodeFinal_eq_ok {data : Bytes} {final : FinalMessage} :
    decodeFinal data = .ok final ↔ final.Valid ∧ final.raw = data := by
  simp only [decodeFinal, except_bind_eq_ok, require_eq_ok]
  constructor
  · rintro ⟨rest, hheader, ⟨status, rest'⟩, hstatus, -, hknown, ⟨macF, rest''⟩, hmac, -, hrest,
      hreturn⟩
    obtain rfl := Except.ok.inj hreturn
    obtain rfl := validateMsgType_eq_ok.mp hheader
    obtain ⟨hone, rfl⟩ := takeBytes_eq_ok.mp hstatus
    obtain ⟨hmacLength, rfl⟩ := takeBytes_eq_ok.mp hmac
    obtain rfl : rest'' = [] := hrest
    obtain ⟨b, rfl⟩ := List.length_eq_one_iff.mp hone
    exact ⟨⟨rfl, hknown, hmacLength, by simp⟩, rfl⟩
  · rintro ⟨h, rfl⟩
    refine ⟨_, validateMsgType_eq_ok.mpr h.raw_eq, ([final.status], final.macF),
      takeBytes_eq_ok.mpr ⟨rfl, rfl⟩, (), h.status_eq, (final.macF, []),
      takeBytes_eq_ok.mpr ⟨h.length_macF, (List.append_nil _).symm⟩, (), rfl, ?_⟩
    have hversion : final.raw.getD 0 0 = final.version := by
      rw [h.raw_eq, h.version_eq]
      rfl
    rw [hversion]
    rfl

theorem encodeHello_eq_ok {fields : HandshakeFields} {bs : Bytes} :
    encodeHello fields = .ok bs ↔ fields.WellFormed ∧ 3 :: msgHello :: fields.layout = bs :=
  encodeFields_eq_ok

theorem encodeReplyBody_eq_ok {fields : HandshakeFields} {bs : Bytes} :
    encodeReplyBody fields = .ok bs ↔ fields.WellFormed ∧ 3 :: msgReply :: fields.layout = bs :=
  encodeFields_eq_ok

theorem encodeReply_eq_ok {fields : HandshakeFields} {sigR macR bs : Bytes} :
    encodeReply fields sigR macR = .ok bs ↔
      sigR.length = ed25519SignatureSize ∧ macR.length = macSize ∧ fields.WellFormed ∧
        3 :: msgReply :: fields.layout ++ (sigR ++ macR) = bs := by
  simp only [encodeReply, validateBytes, except_bind_eq_ok, require_eq_ok, encodeReplyBody_eq_ok]
  constructor
  · rintro ⟨-, hsig, -, hmac, _, ⟨hwell, rfl⟩, hreturn⟩
    exact ⟨hsig, hmac, hwell, Except.ok.inj hreturn⟩
  · rintro ⟨hsig, hmac, hwell, rfl⟩
    exact ⟨(), hsig, (), hmac, _, ⟨hwell, rfl⟩, rfl⟩

theorem encodeConfirm_eq_ok {sigI macI bs : Bytes} :
    encodeConfirm sigI macI = .ok bs ↔
      sigI.length = ed25519SignatureSize ∧ macI.length = macSize ∧
        3 :: msgConfirm :: (sigI ++ macI) = bs := by
  simp only [encodeConfirm, validateVersion, validateBytes, except_bind_eq_ok, require_eq_ok]
  constructor
  · rintro ⟨-, -, -, hsig, -, hmac, hreturn⟩
    exact ⟨hsig, hmac, Except.ok.inj hreturn⟩
  · rintro ⟨hsig, hmac, rfl⟩
    exact ⟨(), trivial, (), hsig, (), hmac, rfl⟩

theorem encodeFinal_eq_ok {status : UInt8} {macF bs : Bytes} :
    encodeFinal status macF = .ok bs ↔
      (status = statusAccept ∨ status = statusReject) ∧ macF.length = macSize ∧
        3 :: msgFinal :: status :: macF = bs := by
  simp only [encodeFinal, validateVersion, validateBytes, except_bind_eq_ok, require_eq_ok]
  constructor
  · rintro ⟨-, -, -, hstatus, -, hmac, hreturn⟩
    exact ⟨hstatus, hmac, Except.ok.inj hreturn⟩
  · rintro ⟨hstatus, hmac, rfl⟩
    exact ⟨(), trivial, (), hstatus, (), hmac, rfl⟩

end SecureSync
