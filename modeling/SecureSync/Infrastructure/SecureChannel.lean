import SecureSync.Infrastructure.SessionStore

/-!
# Sealing and opening frames

`secure_channel.py`.  Sealing works on a session object, opening on the whole
store.  The cipher and the payload encoding are parameters.
-/

namespace SecureSync

open Raising

/-- `AeadCipher`; `decrypt` raises when the tag does not verify. -/
structure AeadCipher where
  encrypt : Bytes → Bytes → Bytes → Bytes → EncryptedPayload
  decrypt : EncryptedPayload → Bytes → Bytes → Option Bytes

/-- One call of `encrypt`. -/
structure Encryption where
  plaintext : Bytes
  key : Bytes
  nonce : Bytes
  associatedData : Bytes
  deriving DecidableEq

def AeadCipher.run (cipher : AeadCipher) (call : Encryption) : EncryptedPayload :=
  cipher.encrypt call.plaintext call.key call.nonce call.associatedData

structure AeadCipher.Correct (cipher : AeadCipher) : Prop where
  nonce_run : ∀ call, (cipher.run call).nonce = call.nonce
  length_tag_run : ∀ call, (cipher.run call).tag.length = tagSize
  decrypt_run : ∀ call,
    cipher.decrypt (cipher.run call) call.key call.associatedData = some call.plaintext

/-- The readings of `time.time()` and `now_ms()`. -/
structure ChannelClock where
  seconds : ℚ
  milliseconds : ℕ

structure SecureChannel (π : Type) where
  ownDeviceId : DeviceId
  cipher : AeadCipher
  msgpack : MsgPack π
  timestampSkewMs : ℤ := defaultTimestampSkewMs

namespace SecureChannel

variable {π : Type} (channel : SecureChannel π)

/-! ## Sealing -/

/-- The frame header and the call of `encrypt` for one message. -/
def encryption (session : PeerSession) (packetType : PacketType) (payload : π) (counter : ℕ)
    (clock : ChannelClock) : Except ChannelError (FrameHeader × Encryption) := do
  let packet := Packet.mk (makeHeader packetType counter clock.milliseconds) payload
  let framed ← (packet.encode channel.msgpack).mapError .packet
  let direction := session.role.outgoingDirection
  let nonce ← deriveNonce direction counter
  let header := FrameHeader.mk frameVersion direction packetType.value session.sessionId
  let aad ← (buildAad header (utf8 channel.ownDeviceId) (utf8 session.peerId)).mapError .packet
  return (header, ⟨framed, session.sendKey, nonce, aad⟩)

def «seal» (packetType : PacketType) (payload : π) (clock : ChannelClock) :
    EStateM ChannelError PeerSession Bytes := do
  let counter ← PeerSession.allocateCounter
  let session ← get
  let (header, call) ← orRaise id (channel.encryption session packetType payload counter clock)
  modify fun session ↦ session.markActive clock.seconds
  orRaise .replay (encodeFrame header (channel.cipher.run call))

/-! ## Opening -/

/-- The checks that come before any cryptography. -/
def preFilter (store : SessionStore) (header : FrameHeader) (counter : ℕ) :
    Except ReplayProtectionError PeerSession :=
  if header.version ≠ frameVersion then .error (.unsupportedVersion header.version)
  else
    match store.getBySessionId header.sessionId with
    | none => .error (.unknownSession header.sessionId)
    | some session =>
        if header.direction ≠ session.role.incomingDirection then
          .error (.directionMismatch header.direction session.role)
        else if !session.receiveWindow.wouldAccept counter then .error (.windowRejected counter)
        else .ok session

def decryptFrame (session : PeerSession) (header : FrameHeader) (encrypted : EncryptedPayload) :
    Except ChannelError Bytes :=
  match buildAad header (utf8 session.peerId) (utf8 channel.ownDeviceId) with
  | .error e => .error (.packet e)
  | .ok aad =>
      match channel.cipher.decrypt encrypted session.receiveKey aad with
      | none => .error (.replay .authentication)
      | some framed => .ok framed

/-- The checks of the decrypted packet against the frame and the clock. -/
def checkPacket (header : FrameHeader) (nonce : Bytes) (inner : PacketHeader)
    (clock : ChannelClock) : Except ChannelError PUnit :=
  match deriveNonce header.direction inner.messageId with
  | .error e => .error e
  | .ok expectedNonce =>
      if nonce ≠ expectedNonce then .error (.replay (.nonceMismatch inner.messageId))
      else if inner.packetType.value ≠ header.packetType then
        .error (.replay (.packetTypeMismatch inner.packetType.value header.packetType))
      else if !checkTimestampSkew inner.timestamp clock.milliseconds channel.timestampSkewMs then
        .error (.replay
          (.timestampSkew |(clock.milliseconds : ℤ) - inner.timestamp| channel.timestampSkewMs))
      else .ok ⟨⟩

/-- Steps (a) to (e) of `open`, which change nothing. -/
def authenticate (store : SessionStore) (frame : Bytes) (clock : ChannelClock) :
    Except ChannelError (PeerSession × Packet π × ℕ) := do
  let (header, encrypted) ← (splitFrame frame).mapError .replay
  let counter := counterOfNonce encrypted.nonce
  let session ← (preFilter store header counter).mapError .replay
  let framed ← channel.decryptFrame session header encrypted
  let packet ← (Packet.decode channel.msgpack framed).mapError .packet
  let _ ← channel.checkPacket header encrypted.nonce packet.header clock
  return (session, packet, counter)

/-- Step (g). -/
def afterAccept (session : PeerSession) (clock : ChannelClock) : PeerSession :=
  let session := if session.role = .responder then { session with confirmed := true } else session
  session.markActive clock.seconds

def «open» (frame : Bytes) (clock : ChannelClock) :
    EStateM ChannelError SessionStore (Packet π × PeerSession) := fun store ↦
  match channel.authenticate store frame clock with
  | .error e => .error e store
  | .ok (session, packet, counter) =>
      match session.receiveWindow.accept counter with
      | (false, _) => .error (.replay (.alreadyAccepted counter)) store
      | (true, window) =>
          let session := afterAccept { session with receiveWindow := window } clock
          .ok (packet, session) (store.update session)

/-! ## What sealing does -/

variable {channel} {packetType : PacketType} {payload : π} {clock : ChannelClock}
  {session session' : PeerSession} {header : FrameHeader} {call : Encryption} {frame : Bytes}

/-- The frame header and the cipher call of the message with a given counter. -/
structure IsCall (channel : SecureChannel π) (session : PeerSession) (packetType : PacketType)
    (payload : π) (counter : ℕ) (clock : ChannelClock) (header : FrameHeader) (call : Encryption) :
    Prop where
  header_eq : header =
    ⟨frameVersion, session.role.outgoingDirection, packetType.value, session.sessionId⟩
  key_eq : call.key = session.sendKey
  nonce_eq : deriveNonce session.role.outgoingDirection counter = .ok call.nonce
  aad_eq : buildAad header (utf8 channel.ownDeviceId) (utf8 session.peerId) =
    .ok call.associatedData
  plaintext_eq :
    (Packet.mk (makeHeader packetType counter clock.milliseconds) payload).encode channel.msgpack =
      .ok call.plaintext

/-- The session after its next counter has been taken. -/
def counted (session : PeerSession) : PeerSession := { session with
  nextSendCounter := session.nextSendCounter + 1
  sentCount := session.sentCount + 1 }

theorem encryption_eq_ok {counter : ℕ} :
    channel.encryption session packetType payload counter clock = .ok (header, call) ↔
      IsCall channel session packetType payload counter clock header call := by
  simp only [encryption, except_bind_eq_ok, except_mapError_eq_ok]
  constructor
  · rintro ⟨framed, hframed, nonce, hnonce, aad, haad, hreturn⟩
    cases hreturn
    exact ⟨rfl, rfl, hnonce, haad, hframed⟩
  · rintro ⟨rfl, hkey, hnonce, haad, hframed⟩
    refine ⟨_, hframed, _, hnonce, _, haad, ?_⟩
    rw [← hkey]
    rfl

/-- Nothing but the counters is read and written before the cipher is called. -/
theorem seal_run : channel.seal packetType payload clock session =
    if session.exhausted then .error (.counterExhausted session.sentCount) session
    else
      match channel.encryption session packetType payload session.nextSendCounter clock with
      | .error e => .error e (counted session)
      | .ok (header, call) =>
          orRaise .replay (encodeFrame header (channel.cipher.run call))
            ((counted session).markActive clock.seconds) := by
  simp only [«seal», bind_run, PeerSession.allocateCounter]
  split_ifs
  · rfl
  · simp only [get_run]
    have hsame : channel.encryption { session with
        nextSendCounter := session.nextSendCounter + 1
        sentCount := session.sentCount + 1 } packetType payload session.nextSendCounter clock =
          channel.encryption session packetType payload session.nextSendCounter clock := rfl
    rw [hsame]
    cases channel.encryption session packetType payload session.nextSendCounter clock <;> rfl

theorem seal_eq_ok :
    channel.seal packetType payload clock session = .ok frame session' ↔
      session.exhausted = false ∧ session' = (counted session).markActive clock.seconds ∧
        ∃ header call,
          IsCall channel session packetType payload session.nextSendCounter clock header call ∧
            encodeFrame header (channel.cipher.run call) = .ok frame := by
  rw [seal_run]
  simp only [← encryption_eq_ok]
  split_ifs with hexhausted
  · simp [hexhausted]
  · rw [Bool.not_eq_true] at hexhausted
    cases channel.encryption session packetType payload session.nextSendCounter clock with
    | error e => simp
    | ok result =>
        obtain ⟨header, call⟩ := result
        simp only [orRaise_eq_ok, hexhausted, Except.ok.injEq, Prod.mk.injEq]
        constructor
        · rintro ⟨hframe, rfl⟩
          exact ⟨trivial, rfl, header, call, ⟨rfl, rfl⟩, hframe⟩
        · rintro ⟨-, rfl, _, _, ⟨rfl, rfl⟩, hframe⟩
          exact ⟨hframe, rfl⟩

/-! ## What opening checks -/

variable {store store' : SessionStore} {packet : Packet π} {counter : ℕ}

/-- A frame that passes every check that is made before the state changes. -/
structure Authentic (channel : SecureChannel π) (store : SessionStore) (frame : Bytes)
    (clock : ChannelClock) (session : PeerSession) (packet : Packet π) (counter : ℕ)
    (header : FrameHeader) (encrypted : EncryptedPayload) (aad framed : Bytes) : Prop where
  split_eq : splitFrame frame = .ok (header, encrypted)
  version_eq : header.version = frameVersion
  session_eq : store.getBySessionId header.sessionId = some session
  direction_eq : header.direction = session.role.incomingDirection
  counter_eq : counter = counterOfNonce encrypted.nonce
  wouldAccept : session.receiveWindow.wouldAccept counter = true
  aad_eq : buildAad header (utf8 session.peerId) (utf8 channel.ownDeviceId) = .ok aad
  decrypt_eq : channel.cipher.decrypt encrypted session.receiveKey aad = some framed
  packet_eq : Packet.decode channel.msgpack framed = .ok packet
  nonce_eq : deriveNonce header.direction packet.header.messageId = .ok encrypted.nonce
  packetType_eq : packet.header.packetType.value = header.packetType
  skew : checkTimestampSkew packet.header.timestamp clock.milliseconds channel.timestampSkewMs =
    true

theorem preFilter_eq_ok :
    preFilter store header counter = .ok session ↔
      header.version = frameVersion ∧ store.getBySessionId header.sessionId = some session ∧
        header.direction = session.role.incomingDirection ∧
          session.receiveWindow.wouldAccept counter = true := by
  unfold preFilter
  split_ifs with hversion
  · simp [hversion]
  · rw [not_not] at hversion
    cases hfind : store.getBySessionId header.sessionId with
    | none => simp
    | some s =>
        dsimp only
        split_ifs with hdirection hwindow
        · simp only [Option.some.injEq, false_iff]
          rintro ⟨-, rfl, heq, -⟩
          exact hdirection heq
        · simp only [Option.some.injEq, false_iff]
          rintro ⟨-, rfl, -, haccept⟩
          simp [haccept] at hwindow
        · simp only [Except.ok.injEq, Option.some.injEq]
          constructor
          · rintro rfl
            exact ⟨hversion, rfl, not_not.mp hdirection, by simpa using hwindow⟩
          · exact fun h ↦ h.2.1

theorem decryptFrame_eq_ok {encrypted : EncryptedPayload} {framed : Bytes} :
    channel.decryptFrame session header encrypted = .ok framed ↔
      ∃ aad, buildAad header (utf8 session.peerId) (utf8 channel.ownDeviceId) = .ok aad ∧
        channel.cipher.decrypt encrypted session.receiveKey aad = some framed := by
  unfold decryptFrame
  cases buildAad header (utf8 session.peerId) (utf8 channel.ownDeviceId) with
  | error e => simp
  | ok aad => cases h : channel.cipher.decrypt encrypted session.receiveKey aad <;> simp [h]

theorem checkPacket_eq_ok {nonce : Bytes} {inner : PacketHeader} :
    channel.checkPacket header nonce inner clock = .ok ⟨⟩ ↔
      deriveNonce header.direction inner.messageId = .ok nonce ∧
        inner.packetType.value = header.packetType ∧
          checkTimestampSkew inner.timestamp clock.milliseconds channel.timestampSkewMs =
            true := by
  unfold checkPacket
  cases deriveNonce header.direction inner.messageId with
  | error e => simp
  | ok expected =>
      dsimp only
      split_ifs with hnonce htype hskew
      · simp [Ne.symm hnonce]
      · simp [htype]
      · simp_all
      · simp_all

theorem authenticate_eq_ok :
    channel.authenticate store frame clock = .ok (session, packet, counter) ↔
      ∃ header encrypted aad framed, Authentic channel store frame clock session packet counter
        header encrypted aad framed := by
  simp only [authenticate, except_bind_eq_ok, except_mapError_eq_ok, preFilter_eq_ok,
    decryptFrame_eq_ok, Prod.exists]
  constructor
  · rintro ⟨header, encrypted, hsplit, s, ⟨hversion, hsession, hdirection, haccept⟩, framed,
      ⟨aad, haad, hdecrypt⟩, p, hpacket, ⟨⟩, hcheck, hreturn⟩
    obtain ⟨rfl, rfl, rfl⟩ : s = session ∧ p = packet ∧ _ = counter := by
      simpa [pure, Except.pure] using hreturn
    obtain ⟨hnonce, htype, hskew⟩ := checkPacket_eq_ok.mp hcheck
    exact ⟨header, encrypted, aad, framed, ⟨hsplit, hversion, hsession, hdirection, rfl, haccept,
      haad, hdecrypt, hpacket, hnonce, htype, hskew⟩⟩
  · rintro ⟨header, encrypted, aad, framed, h⟩
    refine ⟨header, encrypted, h.split_eq, session,
      ⟨h.version_eq, h.session_eq, h.direction_eq, h.counter_eq ▸ h.wouldAccept⟩, framed,
      ⟨aad, h.aad_eq, h.decrypt_eq⟩, packet, h.packet_eq, ⟨⟩,
      checkPacket_eq_ok.mpr ⟨h.nonce_eq, h.packetType_eq, h.skew⟩, ?_⟩
    rw [← h.counter_eq]
    rfl

/-- The session that an accepted frame leaves. -/
def received (session : PeerSession) (counter : ℕ) (clock : ChannelClock) : PeerSession :=
  afterAccept { session with receiveWindow := session.receiveWindow.advance counter } clock

theorem open_eq_ok :
    channel.open frame clock store = .ok (packet, session') store' ↔
      ∃ session counter, channel.authenticate store frame clock = .ok (session, packet, counter) ∧
        session' = received session counter clock ∧ store' = store.update session' := by
  unfold «open»
  cases h : channel.authenticate store frame clock with
  | error e => simp
  | ok result =>
      obtain ⟨session, packet', counter⟩ := result
      obtain ⟨header, encrypted, aad, framed, hauthentic⟩ := authenticate_eq_ok.mp h
      have haccept : session.receiveWindow.accept counter =
          (true, session.receiveWindow.advance counter) := by
        rw [AntiReplayWindow.accept, if_pos hauthentic.wouldAccept]
      simp only [haccept, EStateM.Result.ok.injEq, Prod.mk.injEq, Except.ok.injEq]
      constructor
      · rintro ⟨⟨rfl, rfl⟩, rfl⟩
        exact ⟨session, counter, ⟨rfl, rfl, rfl⟩, rfl, rfl⟩
      · rintro ⟨_, _, ⟨rfl, rfl, rfl⟩, rfl, rfl⟩
        exact ⟨⟨rfl, rfl⟩, rfl⟩

/-- A frame that is refused leaves the store as it was. -/
theorem open_error {e : ChannelError}
    (h : channel.open frame clock store = .error e store') : store' = store := by
  unfold «open» at h
  cases hauth : channel.authenticate store frame clock with
  | error e' =>
      rw [hauth] at h
      cases h
      rfl
  | ok result =>
      obtain ⟨session, packet', counter⟩ := result
      obtain ⟨header, encrypted, aad, framed, hauthentic⟩ := authenticate_eq_ok.mp hauth
      simp only [hauth, AntiReplayWindow.accept, if_pos hauthentic.wouldAccept] at h
      cases h

end SecureChannel

/-! ## What sending and receiving does to a session object -/

inductive SessionChange where
  | allocateCounter
  | markActive (now : ℚ)
  | receive (counter : ℕ) (clock : ChannelClock)

def PeerSession.change (session : PeerSession) : SessionChange → PeerSession
  | .allocateCounter => stateOf (PeerSession.allocateCounter session)
  | .markActive now => session.markActive now
  | .receive counter clock =>
      if session.receiveWindow.wouldAccept counter then
        SecureChannel.received session counter clock
      else session

theorem PeerSession.peerId_change (session : PeerSession) (change : SessionChange) :
    (session.change change).peerId = session.peerId ∧
      (session.change change).sessionId = session.sessionId ∧
        (session.confirmed = true → (session.change change).confirmed = true) := by
  cases change with
  | allocateCounter =>
      simp only [PeerSession.change, PeerSession.allocateCounter]
      split_ifs <;> exact ⟨rfl, rfl, id⟩
  | markActive now => exact ⟨rfl, rfl, id⟩
  | receive counter clock =>
      simp only [PeerSession.change, SecureChannel.received, SecureChannel.afterAccept]
      split_ifs
      · exact ⟨rfl, rfl, fun _ ↦ rfl⟩
      · exact ⟨rfl, rfl, id⟩
      · exact ⟨rfl, rfl, id⟩

end SecureSync
