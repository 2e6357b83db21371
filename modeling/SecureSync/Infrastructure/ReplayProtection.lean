import SecureSync.Core.Protocol
import SecureSync.Domain.Conflict

/-!
# Frames, nonces and associated data

The stateless half of `replay_protection.py`: the plaintext frame header, the
deterministic nonce, the associated data and the skew check.
-/

namespace SecureSync

open BigEndian Raising

def frameVersion : UInt8 := 2

def sessionIdSize : ℕ := 8

def frameHeaderSize : ℕ := 11

def nonceSize : ℕ := 12

def tagSize : ℕ := 16

def minFrameSize : ℕ := frameHeaderSize + nonceSize + tagSize

def defaultTimestampSkewMs : ℤ := 300000

/-! ## Roles and directions -/

inductive Role where
  | initiator
  | responder
  deriving DecidableEq, Repr

namespace Role

def flip : Role → Role
  | initiator => responder
  | responder => initiator

@[simp] theorem flip_flip (r : Role) : r.flip.flip = r := by cases r <;> rfl

/-- `outgoing_direction`. -/
def outgoingDirection : Role → UInt8
  | initiator => 0x00
  | responder => 0x01

/-- `incoming_direction`: what the other role sends in. -/
def incomingDirection (r : Role) : UInt8 := r.flip.outgoingDirection

theorem outgoingDirection_injective : Function.Injective outgoingDirection := by
  intro r r' h
  cases r <;> cases r' <;> simp_all [outgoingDirection]

end Role

/-! ## Errors -/

inductive ReplayProtectionError where
  | sessionIdLength (length : ℕ)
  | frameLength (length : ℕ)
  | nonceLength (length : ℕ)
  | tagLength (length : ℕ)
  | unsupportedVersion (version : UInt8)
  | unknownSession (sessionId : Bytes)
  | directionMismatch (direction : UInt8) (role : Role)
  | windowRejected (counter : ℤ)
  | authentication
  | nonceMismatch (messageId : ℕ)
  | invalidDirection (direction : UInt8)
  | counterNotPositive
  | packetTypeMismatch (inner outer : UInt8)
  | timestampSkew (skew limit : ℤ)
  | alreadyAccepted (counter : ℤ)
  deriving DecidableEq, Repr

/-! ## Frames -/

structure FrameHeader where
  version : UInt8
  direction : UInt8
  packetType : UInt8
  sessionId : Bytes
  deriving DecidableEq, Repr

/-- `EncryptedPayload` of `domain/crypto.py`. -/
structure EncryptedPayload where
  ciphertext : Bytes
  nonce : Bytes
  tag : Bytes
  deriving DecidableEq, Repr

def packFrameHeader (header : FrameHeader) : Except ReplayProtectionError Bytes :=
  if header.sessionId.length ≠ sessionIdSize then
    .error (.sessionIdLength header.sessionId.length)
  else .ok (header.version :: header.direction :: header.packetType :: header.sessionId)

def encodeFrame (header : FrameHeader) (payload : EncryptedPayload) :
    Except ReplayProtectionError Bytes := do
  if payload.nonce.length ≠ nonceSize then throw (.nonceLength payload.nonce.length)
  if payload.tag.length ≠ tagSize then throw (.tagLength payload.tag.length)
  let front ← packFrameHeader header
  return front ++ payload.nonce ++ payload.ciphertext ++ payload.tag

/-- `split_frame`, with the header read by `unpack_frame_header`.  The nonce it
returns is that of the payload. -/
def splitFrame (data : Bytes) : Except ReplayProtectionError (FrameHeader × EncryptedPayload) :=
  if data.length < minFrameSize then .error (.frameLength data.length)
  else
    let rest := data.drop (frameHeaderSize + nonceSize)
    .ok
      ({ version := data.getD 0 0
         direction := data.getD 1 0
         packetType := data.getD 2 0
         sessionId := (data.drop 3).take sessionIdSize },
       { nonce := (data.drop frameHeaderSize).take nonceSize
         ciphertext := rest.take (rest.length - tagSize)
         tag := rest.drop (rest.length - tagSize) })

theorem encodeFrame_eq_ok {header : FrameHeader} {payload : EncryptedPayload} {frame : Bytes} :
    encodeFrame header payload = .ok frame ↔
      header.sessionId.length = sessionIdSize ∧ payload.nonce.length = nonceSize ∧
        payload.tag.length = tagSize ∧
          header.version :: header.direction :: header.packetType ::
            (header.sessionId ++ (payload.nonce ++ (payload.ciphertext ++ payload.tag))) =
              frame := by
  unfold encodeFrame packFrameHeader
  split_ifs <;> simp_all [bind, Except.bind, pure, Except.pure, throw, throwThe,
    MonadExceptOf.throw]

theorem splitFrame_encodeFrame {header : FrameHeader} {payload : EncryptedPayload}
    {frame : Bytes} (h : encodeFrame header payload = .ok frame) :
    splitFrame frame = .ok (header, payload) := by
  obtain ⟨hid, hnonce, htag, rfl⟩ := encodeFrame_eq_ok.mp h
  obtain ⟨version, direction, packetType, sessionId⟩ := header
  obtain ⟨ciphertext, nonce, tag⟩ := payload
  have hlong : ¬ (version :: direction :: packetType ::
      (sessionId ++ (nonce ++ (ciphertext ++ tag)))).length < minFrameSize := by
    simp only [List.length_cons, List.length_append, hid, hnonce, htag, sessionIdSize, nonceSize,
      tagSize, minFrameSize, frameHeaderSize]
    omega
  have hrest : (version :: direction :: packetType ::
      (sessionId ++ (nonce ++ (ciphertext ++ tag)))).drop (frameHeaderSize + nonceSize) =
        ciphertext ++ tag := by
    rw [← List.append_assoc sessionId]
    exact List.drop_left' (by rw [List.length_append, hid, hnonce]; rfl)
  have hnonceField : (version :: direction :: packetType ::
      (sessionId ++ (nonce ++ (ciphertext ++ tag)))).drop frameHeaderSize =
        nonce ++ (ciphertext ++ tag) := List.drop_left' hid
  have hcut : (ciphertext ++ tag).length - tagSize = ciphertext.length := by
    rw [List.length_append, htag]
    omega
  simp only [splitFrame, if_neg hlong, hrest, hnonceField, hcut, List.take_left' hnonce,
    List.take_left' rfl, List.drop_left' rfl]
  exact congrArg (fun id ↦ Except.ok (FrameHeader.mk version direction packetType id, _))
    (List.take_left' hid)

theorem encodeFrame_splitFrame {frame : Bytes} {header : FrameHeader} {payload : EncryptedPayload}
    (h : splitFrame frame = .ok (header, payload)) : encodeFrame header payload = .ok frame := by
  unfold splitFrame at h
  split_ifs at h with hlong
  cases h
  obtain ⟨version, direction, packetType, rest, rfl⟩ :
      ∃ version direction packetType rest, frame = version :: direction :: packetType :: rest := by
    match frame, hlong with
    | version :: direction :: packetType :: rest, _ =>
        exact ⟨version, direction, packetType, rest, rfl⟩
    | [], hlong | [_], hlong | [_, _], hlong =>
        simp [minFrameSize, frameHeaderSize, nonceSize, tagSize] at hlong
  simp only [minFrameSize, frameHeaderSize, nonceSize, tagSize, List.length_cons] at hlong
  refine encodeFrame_eq_ok.mpr ⟨?_, ?_, ?_, ?_⟩
  · simp only [List.drop_succ_cons, List.drop_zero, List.length_take, sessionIdSize]
    omega
  · simp only [List.length_take, List.length_drop, List.length_cons, frameHeaderSize, nonceSize]
    omega
  · simp only [List.length_drop, List.length_cons, frameHeaderSize, nonceSize, tagSize]
    omega
  · simp only [frameHeaderSize, nonceSize, List.drop_succ_cons, List.drop_zero,
      List.take_append_drop, List.getD_cons_zero, List.getD_cons_succ]
    rw [show List.drop 20 rest = (List.drop 8 rest).drop 12 by rw [List.drop_drop],
      List.take_append_drop, sessionIdSize, List.take_append_drop]

/-! ## Nonces and associated data -/

inductive ChannelError where
  | replay (error : ReplayProtectionError)
  | packet (error : PacketError)
  | counterExhausted (sentCount : ℕ)
  deriving DecidableEq, Repr

/-- `direction(1) + counter(8) + zero-pad(3)`. -/
def deriveNonce (direction : UInt8) (counter : ℕ) : Except ChannelError Bytes :=
  if direction ≠ Role.initiator.outgoingDirection ∧
      direction ≠ Role.responder.outgoingDirection then
    .error (.replay (.invalidDirection direction))
  else if counter = 0 then .error (.replay .counterNotPositive)
  else
    match packUnsigned 8 counter with
    | .error e => .error (.packet e)
    | .ok counterBytes => .ok (direction :: (counterBytes ++ [0, 0, 0]))

/-- `int.from_bytes(nonce[1:9], "big")`. -/
def counterOfNonce (nonce : Bytes) : ℕ := decode ((nonce.drop 1).take 8)

theorem deriveNonce_eq_ok {direction : UInt8} {counter : ℕ} {nonce : Bytes}
    (h : deriveNonce direction counter = .ok nonce) :
    0 < counter ∧ counter < 256 ^ 8 ∧ direction :: (encode 8 counter ++ [0, 0, 0]) = nonce := by
  unfold deriveNonce at h
  split_ifs at h with hdirection hzero
  cases hpack : packUnsigned 8 counter with
  | error e =>
      rw [hpack] at h
      cases h
  | ok bs =>
      rw [hpack] at h
      cases h
      obtain ⟨hlt, rfl⟩ := packUnsigned_eq_ok.mp hpack
      exact ⟨Nat.pos_of_ne_zero hzero, hlt, rfl⟩

theorem counterOfNonce_deriveNonce {direction : UInt8} {counter : ℕ} {nonce : Bytes}
    (h : deriveNonce direction counter = .ok nonce) : counterOfNonce nonce = counter := by
  obtain ⟨-, hlt, rfl⟩ := deriveNonce_eq_ok h
  rw [counterOfNonce, List.drop_succ_cons, List.drop_zero,
    List.take_left' (length_encode 8 counter), decode_encode hlt]

theorem length_deriveNonce {direction : UInt8} {counter : ℕ} {nonce : Bytes}
    (h : deriveNonce direction counter = .ok nonce) : nonce.length = nonceSize := by
  obtain ⟨-, -, rfl⟩ := deriveNonce_eq_ok h
  simp [nonceSize]

def utf8 (s : String) : Bytes := s.toUTF8.data.toList

theorem utf8_injective : Function.Injective utf8 := by
  intro s t h
  apply String.toByteArray_inj.mp
  exact ByteArray.ext (Array.toList_inj.mp h)

/-- `_length_prefixed`; `struct.pack` raises beyond 65535 bytes. -/
def packLengthPrefixed (value : Bytes) : Except PacketError Bytes := do
  let length ← packUnsigned 2 value.length
  return length ++ value

def buildAad (header : FrameHeader) (senderId receiverId : Bytes) : Except PacketError Bytes := do
  let sender ← packLengthPrefixed senderId
  let receiver ← packLengthPrefixed receiverId
  return header.version :: header.direction :: header.packetType ::
    (header.sessionId ++ sender ++ receiver)

theorem packLengthPrefixed_eq_ok {value bs : Bytes} :
    packLengthPrefixed value = .ok bs ↔ value.length < 65536 ∧ lengthPrefixed value = bs := by
  unfold packLengthPrefixed packUnsigned
  split_ifs with h <;> simp_all [bind, Except.bind, pure, Except.pure, lengthPrefixed]

theorem buildAad_eq_ok {header : FrameHeader} {senderId receiverId aad : Bytes} :
    buildAad header senderId receiverId = .ok aad ↔
      senderId.length < 65536 ∧ receiverId.length < 65536 ∧
        header.version :: header.direction :: header.packetType :: (header.sessionId ++
          lengthPrefixed senderId ++ lengthPrefixed receiverId) = aad := by
  unfold buildAad
  rw [except_bind_eq_ok]
  simp only [packLengthPrefixed_eq_ok, except_bind_eq_ok]
  constructor
  · rintro ⟨_, ⟨hs, rfl⟩, _, ⟨hr, rfl⟩, h⟩
    exact ⟨hs, hr, Except.ok.inj h⟩
  · rintro ⟨hs, hr, h⟩
    exact ⟨_, ⟨hs, rfl⟩, _, ⟨hr, rfl⟩, congrArg Except.ok h⟩

/-! ## Timestamps -/

def checkTimestampSkew (timestampMs nowMs maxSkewMs : ℤ) : Bool :=
  |nowMs - timestampMs| ≤ maxSkewMs

end SecureSync
