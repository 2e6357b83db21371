import SecureSync.Infrastructure.HandshakeKeys
import SecureSync.Infrastructure.X25519Handshake

/-!
# The v3 handshake

`handshake_v3.py`.  The code between two reads of a message, or between two
calls of the trust store, is a function; an exchange goes from one to the next
when what it awaits returns or raises.
-/

namespace SecureSync

open Raising

/-- The libraries that the handshake calls. -/
structure HandshakeCrypto where
  sha256 : Sha256
  hmac : Hmac
  hkdf : Hkdf
  keyExchange : KeyExchange
  identityProvider : IdentityProvider

inductive HandshakeV3Error where
  | message (error : MessageError)
  | keys (error : HandshakeKeyError)
  | keyExchange
  | nonceLength (length : ℕ)
  | invalidSignature (deviceId : DeviceId)
  | identityMismatch (deviceId : DeviceId)
  | rejected (deviceId : DeviceId)
  | rejectionUnverified
  | busy (halfOpen : ℕ)
  | deadline
  | connection
  | trustStore
  | onConfirmed
  | cancelled
  deriving DecidableEq, Repr

/-- `MAX_HALF_OPEN`. -/
def maxHalfOpen : ℕ := 64

structure HandshakeV3 where
  ownDeviceId : DeviceId
  ownTransferPort : ℤ
  ownManifestPort : ℤ
  crypto : HandshakeCrypto
  ownIdentity : IdentityKeyPair
  maxHalfOpen : ℕ := SecureSync.maxHalfOpen

/-! ## What the initiator has worked out -/

structure ReplyVerified where
  hello : HelloMessage
  reply : ReplyMessage
  t2 : Bytes
  deriving DecidableEq

structure ConfirmSent extends ReplyVerified where
  secrets : HandshakeSecrets
  t2s : Bytes
  t3s : Bytes
  sigI : Bytes
  macI : Bytes
  message : Bytes
  deriving DecidableEq

/-! ## What the responder has worked out -/

structure ReplySent where
  hello : HelloMessage
  fields : HandshakeFields
  body : Bytes
  t2 : Bytes
  sigR : Bytes
  secrets : HandshakeSecrets
  t2s : Bytes
  macR : Bytes
  message : Bytes
  deriving DecidableEq

structure ConfirmVerified where
  confirm : ConfirmMessage
  t3s : Bytes
  deriving DecidableEq

namespace HandshakeV3

variable (handshake : HandshakeV3)

def ownFields (privateKey nonce : Bytes) : HandshakeFields where
  ephemeral := handshake.crypto.keyExchange.publicKey privateKey
  nonce := nonce
  deviceId := handshake.ownDeviceId
  identityPublicKey := handshake.ownIdentity.publicKey
  transferPort := handshake.ownTransferPort
  manifestPort := handshake.ownManifestPort

/-- The check of `generate_nonce`. -/
def checkNonce (nonce : Bytes) : Except HandshakeV3Error Unit :=
  require (nonce.length = handshakeNonceSize) (.nonceLength nonce.length)

def checkPeer (fields : HandshakeFields) : Except HandshakeV3Error Unit :=
  (checkNotSelf fields.deviceId fields.identityPublicKey handshake.ownDeviceId
    handshake.ownIdentity.publicKey).mapError .message

def sign (message : Bytes) : Bytes :=
  handshake.crypto.identityProvider.sign handshake.ownIdentity.privateKey message

def verifySignature (fields : HandshakeFields) (message signature : Bytes) :
    Except HandshakeV3Error Unit :=
  require (handshake.crypto.identityProvider.verify fields.identityPublicKey message signature =
    true) (.invalidSignature fields.deviceId)

/-- The comparison with what `get_trusted_key` has returned. -/
def checkPin (fields : HandshakeFields) (pin : Option Bytes) : Except HandshakeV3Error Unit :=
  require (pin = none ∨ pin = some fields.identityPublicKey) (.identityMismatch fields.deviceId)

def sharedSecret (privateKey peerPublicKey : Bytes) : Except HandshakeV3Error Bytes :=
  match handshake.crypto.keyExchange.deriveSharedSecret privateKey peerPublicKey with
  | none => .error .keyExchange
  | some sharedSecret => .ok sharedSecret

def result (peer : HandshakeFields) (secrets : HandshakeSecrets) (role : Role) :
    Except HandshakeV3Error HandshakeResult := do
  let keys ← (keysForRole secrets role).mapError .keys
  return {
    peerDeviceId := peer.deviceId
    sessionId := keys.sessionId
    role := role
    sendKey := keys.sendKey
    receiveKey := keys.receiveKey
    peerTransferPort := peer.transferPort
    peerManifestPort := peer.manifestPort }

/-! ## The initiator -/

/-- Message 1. -/
def hello (privateKey nonce : Bytes) : Except HandshakeV3Error Bytes := do
  checkNonce nonce
  (encodeHello (handshake.ownFields privateKey nonce)).mapError .message

/-- From message 2 to the look at the trust store. -/
def verifyReply (helloBytes replyBytes : Bytes) : Except HandshakeV3Error ReplyVerified := do
  let reply ← (decodeReply replyBytes).mapError .message
  handshake.checkPeer reply.toHandshakeFields
  let hello ← (decodeHello helloBytes).mapError .message
  let t2 ← (transcriptT2 handshake.crypto.sha256 helloBytes reply.body).mapError .message
  let signed ← (signedResponder t2).mapError .message
  handshake.verifySignature reply.toHandshakeFields signed reply.sigR
  return { hello, reply, t2 }

/-- From there to message 3. -/
def confirm (privateKey : Bytes) (verified : ReplyVerified) (pin : Option Bytes) :
    Except HandshakeV3Error ConfirmSent := do
  checkPin verified.reply.toHandshakeFields pin
  let sharedSecret ← handshake.sharedSecret privateKey verified.reply.ephemeral
  let secrets ← (deriveHandshakeSecrets handshake.crypto.hkdf sharedSecret
    verified.hello.toHandshakeFields verified.reply.toHandshakeFields verified.t2).mapError .keys
  let t2s ← (transcriptT2s handshake.crypto.sha256 verified.t2 verified.reply.sigR).mapError
    .message
  (verifyConfirmationMac handshake.crypto.hmac secrets.responderConfirmationKey t2s
    verified.reply.macR).mapError .keys
  let t3 ← (transcriptT3 handshake.crypto.sha256 t2s verified.reply.macR).mapError .message
  let signed ← (signedInitiator t2s).mapError .message
  let sigI := handshake.sign signed
  let t3s ← (transcriptT3s handshake.crypto.sha256 t3 sigI).mapError .message
  let macI ← (confirmationMac handshake.crypto.hmac secrets.initiatorConfirmationKey t3s).mapError
    .keys
  let message ← (encodeConfirm sigI macI).mapError .message
  return { verified with secrets, t2s, t3s, sigI, macI, message }

/-- What `mac_f` of an accept authenticates. -/
def acceptTranscript (t3s macI : Bytes) : Except HandshakeV3Error Bytes := do
  let tFinal ← (transcriptFinal handshake.crypto.sha256 t3s macI).mapError .message
  (transcriptM4Accept handshake.crypto.sha256 tFinal).mapError .message

/-- `_require_authenticated_reject`. -/
def requireAuthenticatedReject (final : FinalMessage) (t2s confirmBytes : Bytes)
    (secrets : HandshakeSecrets) : Except HandshakeV3Error Unit := do
  let transcript ← (transcriptM4Reject handshake.crypto.sha256 t2s confirmBytes).mapError .message
  let expected ← (confirmationMac handshake.crypto.hmac secrets.responderConfirmationKey
    transcript).mapError .keys
  require (expected = final.macF) .rejectionUnverified

/-- From message 4 to the writing of the pin. -/
def verifyFinal (sent : ConfirmSent) (finalBytes : Bytes) : Except HandshakeV3Error Unit :=
  match decodeFinal finalBytes with
  | .error e =>
      if e.isHandshakeMessageError then .error .rejectionUnverified else .error (.message e)
  | .ok final =>
      if final.status ≠ statusAccept then do
        handshake.requireAuthenticatedReject final sent.t2s sent.message sent.secrets
        throw (.rejected sent.reply.deviceId)
      else do
        let transcript ← handshake.acceptTranscript sent.t3s sent.macI
        (verifyConfirmationMac handshake.crypto.hmac sent.secrets.responderConfirmationKey
          transcript final.macF).mapError .keys

/-! ## The responder -/

/-- From message 1 to the admission as half-open. -/
def checkHello (m1 : Bytes) : Except HandshakeV3Error HelloMessage := do
  let hello ← (decodeHello m1).mapError .message
  handshake.checkPeer hello.toHandshakeFields
  return hello

/-- From there to message 2. -/
def reply (privateKey nonce : Bytes) (hello : HelloMessage) :
    Except HandshakeV3Error ReplySent := do
  checkNonce nonce
  let fields := handshake.ownFields privateKey nonce
  let body ← (encodeReplyBody fields).mapError .message
  let t2 ← (transcriptT2 handshake.crypto.sha256 hello.raw body).mapError .message
  let signed ← (signedResponder t2).mapError .message
  let sigR := handshake.sign signed
  let sharedSecret ← handshake.sharedSecret privateKey hello.ephemeral
  let secrets ← (deriveHandshakeSecrets handshake.crypto.hkdf sharedSecret
    hello.toHandshakeFields fields t2).mapError .keys
  let t2s ← (transcriptT2s handshake.crypto.sha256 t2 sigR).mapError .message
  let macR ← (confirmationMac handshake.crypto.hmac secrets.responderConfirmationKey t2s).mapError
    .keys
  let message ← (encodeReply fields sigR macR).mapError .message
  return { hello, fields, body, t2, sigR, secrets, t2s, macR, message }

/-- `_verify_message_3`, up to the look at the trust store. -/
def verifyConfirm (sent : ReplySent) (m3 : Bytes) : Except HandshakeV3Error ConfirmVerified := do
  let confirm ← (decodeConfirm m3).mapError .message
  let t3 ← (transcriptT3 handshake.crypto.sha256 sent.t2s sent.macR).mapError .message
  let t3s ← (transcriptT3s handshake.crypto.sha256 t3 confirm.sigI).mapError .message
  let signed ← (signedInitiator sent.t2s).mapError .message
  handshake.verifySignature sent.hello.toHandshakeFields signed confirm.sigI
  return { confirm, t3s }

/-- From there to the writing of the pin. -/
def authenticate (sent : ReplySent) (verified : ConfirmVerified) (pin : Option Bytes) :
    Except HandshakeV3Error Unit := do
  checkPin sent.hello.toHandshakeFields pin
  (verifyConfirmationMac handshake.crypto.hmac sent.secrets.initiatorConfirmationKey verified.t3s
    verified.confirm.macI).mapError .keys

/-- Message 4 of a responder that accepts. -/
def acceptMessage (sent : ReplySent) (verified : ConfirmVerified) :
    Except HandshakeV3Error Bytes := do
  let transcript ← handshake.acceptTranscript verified.t3s verified.confirm.macI
  let macF ← (confirmationMac handshake.crypto.hmac sent.secrets.responderConfirmationKey
    transcript).mapError .keys
  (encodeFinal statusAccept macF).mapError .message

/-- The message of `_reject`. -/
def rejectMessage (sent : ReplySent) (m3 : Bytes) : Except HandshakeV3Error Bytes := do
  let transcript ← (transcriptM4Reject handshake.crypto.sha256 sent.t2s m3).mapError .message
  let macF ← (confirmationMac handshake.crypto.hmac sent.secrets.responderConfirmationKey
    transcript).mapError .keys
  (encodeFinal statusReject macF).mapError .message

end HandshakeV3

/-! ## Exchanges -/

inductive HandshakeEffect where
  | trusted (deviceId : DeviceId) (publicKey : Bytes)
  | recorded (result : HandshakeResult)
  deriving DecidableEq

/-- What the exchanges of one device share: the trust store, the sessions that
the callbacks have recorded, and the count of half-open exchanges; with a
journal of the pins written and the callbacks completed so far. -/
structure HandshakeStores where
  trusted : TrustStore
  sessions : List HandshakeResult
  halfOpen : ℕ
  journal : List HandshakeEffect

/-- How an await ends: a message has been read, another await has returned, or
it has raised. -/
inductive Awaited where
  | message (bytes : Bytes)
  | returned
  | raised (error : HandshakeV3Error)
  deriving DecidableEq, Repr

namespace HandshakeStores

variable (stores : HandshakeStores)

def trust (deviceId : DeviceId) (publicKey : Bytes) : HandshakeStores :=
  { stores with
    trusted := stores.trusted.insert deviceId publicKey
    journal := stores.journal ++ [.trusted deviceId publicKey] }

def beginHalfOpen : HandshakeStores := { stores with halfOpen := stores.halfOpen + 1 }

def endHalfOpen : HandshakeStores := { stores with halfOpen := stores.halfOpen - 1 }

/-- What a callback leaves, whether or not it has raised. -/
def callback (sessions : List HandshakeResult) : HandshakeStores := { stores with sessions }

def record (result : HandshakeResult) (sessions : List HandshakeResult) : HandshakeStores :=
  { stores with sessions, journal := stores.journal ++ [.recorded result] }

variable (deviceId : DeviceId) (publicKey : Bytes) (result : HandshakeResult)
  (sessions : List HandshakeResult)

@[simp] theorem trusted_trust : (stores.trust deviceId publicKey).trusted =
    stores.trusted.insert deviceId publicKey := rfl

@[simp] theorem sessions_trust : (stores.trust deviceId publicKey).sessions = stores.sessions :=
  rfl

@[simp] theorem trusted_beginHalfOpen : stores.beginHalfOpen.trusted = stores.trusted := rfl

@[simp] theorem sessions_beginHalfOpen : stores.beginHalfOpen.sessions = stores.sessions := rfl

@[simp] theorem journal_beginHalfOpen : stores.beginHalfOpen.journal = stores.journal := rfl

@[simp] theorem trusted_endHalfOpen : stores.endHalfOpen.trusted = stores.trusted := rfl

@[simp] theorem sessions_endHalfOpen : stores.endHalfOpen.sessions = stores.sessions := rfl

@[simp] theorem journal_endHalfOpen : stores.endHalfOpen.journal = stores.journal := rfl

@[simp] theorem trusted_callback : (stores.callback sessions).trusted = stores.trusted := rfl

@[simp] theorem sessions_callback : (stores.callback sessions).sessions = sessions := rfl

@[simp] theorem journal_callback : (stores.callback sessions).journal = stores.journal := rfl

@[simp] theorem trusted_record : (stores.record result sessions).trusted = stores.trusted := rfl

@[simp] theorem sessions_record : (stores.record result sessions).sessions = sessions := rfl

end HandshakeStores

/-! ### Initiators -/

/-- Where `_InitiatorExchange` stands.  `checked`: `get_trusted_key` has returned
`pin`; `pinned`: `trust` has returned. -/
inductive InitiatorPhase where
  | idle
  | sentHello
  | verified (verified : ReplyVerified)
  | checked (verified : ReplyVerified) (pin : Option Bytes)
  | sentConfirm (sent : ConfirmSent) (pin : Option Bytes)
  | accepted (sent : ConfirmSent) (pin : Option Bytes)
  | pinned (sent : ConfirmSent) (pin : Option Bytes)
  | confirmed (sent : ConfirmSent) (pin : Option Bytes) (result : HandshakeResult)
  deriving DecidableEq

/-- An exchange, with the phase that it has reached and the error with which it
has failed there. -/
structure Initiator where
  privateKey : Bytes
  hello : Bytes
  phase : InitiatorPhase
  failure : Option HandshakeV3Error
  written : List Bytes
  deriving DecidableEq

namespace Initiator

variable (x : Initiator)

def fail (error : HandshakeV3Error) : Initiator := { x with failure := some error }

def enter (phase : Except HandshakeV3Error InitiatorPhase) : Initiator :=
  match phase with
  | .ok phase => { x with phase }
  | .error e => x.fail e

/-- `_write`, which raises once the deadline has passed. -/
def write (phase : InitiatorPhase) (message : Bytes) (writable : Bool) : Initiator :=
  if writable then { x with phase, written := x.written ++ [message] } else x.fail .deadline

end Initiator

namespace HandshakeV3

variable (handshake : HandshakeV3)

/-- `_exchange` up to the first read. -/
def initiate (privateKey nonce : Bytes) (writable : Bool) : Initiator :=
  match handshake.hello privateKey nonce with
  | .error e => ⟨privateKey, [], .idle, some e, []⟩
  | .ok hello => Initiator.write ⟨privateKey, hello, .idle, none, []⟩ .sentHello hello writable

/-- The exchange goes on from what it awaits. -/
def initiatorStep (x : Initiator) (stores : HandshakeStores) (awaited : Awaited)
    (writable : Bool) : Initiator × HandshakeStores :=
  if x.failure.isSome then (x, stores)
  else
    match x.phase, awaited with
    | .idle, _ | .confirmed .., _ => (x, stores)
    | _, .raised e => (x.fail e, stores)
    | .sentHello, .message m2 =>
        (x.enter ((handshake.verifyReply x.hello m2).map .verified), stores)
    | .verified verified, .returned =>
        ({ x with phase := .checked verified (stores.trusted.lookup verified.reply.deviceId) },
          stores)
    | .checked verified pin, .returned =>
        match handshake.confirm x.privateKey verified pin with
        | .error e => (x.fail e, stores)
        | .ok sent => (x.write (.sentConfirm sent pin) sent.message writable, stores)
    | .sentConfirm sent pin, .message m4 =>
        (x.enter ((handshake.verifyFinal sent m4).map fun _ ↦ .accepted sent pin), stores)
    | .accepted sent pin, .returned =>
        ({ x with phase := .pinned sent pin },
          stores.trust sent.reply.deviceId sent.reply.identityPublicKey)
    | .pinned sent pin, .returned =>
        (x.enter ((result sent.reply.toHandshakeFields sent.secrets .initiator).map
          (.confirmed sent pin)), stores)
    | _, _ => (x, stores)

end HandshakeV3

/-! ### Responders -/

/-- Where `_ResponderExchange` stands.  `authenticated`: message 3 is verified and
`trust` called; `recorded`: the callback has returned and message 4 is written. -/
inductive ResponderPhase where
  | waitHello
  | sentReply (sent : ReplySent)
  | verified (sent : ReplySent) (verified : ConfirmVerified)
  | checked (sent : ReplySent) (verified : ConfirmVerified) (pin : Option Bytes)
  | authenticated (sent : ReplySent) (verified : ConfirmVerified) (pin : Option Bytes)
  | pinned (sent : ReplySent) (verified : ConfirmVerified) (pin : Option Bytes)
  | recorded (sent : ReplySent) (verified : ConfirmVerified) (pin : Option Bytes)
      (result : HandshakeResult)
  | confirmed (sent : ReplySent) (verified : ConfirmVerified) (pin : Option Bytes)
      (result : HandshakeResult)
  deriving DecidableEq

/-- `rejecting`: the reject is written and not yet drained. -/
inductive ResponderStatus where
  | running
  | rejecting (error : HandshakeV3Error)
  | failed (error : HandshakeV3Error)
  deriving DecidableEq

abbrev OnConfirmed := HandshakeResult → EStateM HandshakeV3Error (List HandshakeResult) Unit

/-- An exchange, with the phase that it has reached.  `refused` is the message 3
to which it has written a reject. -/
structure Responder where
  privateKey : Bytes
  nonce : Bytes
  onConfirmed : OnConfirmed
  phase : ResponderPhase
  status : ResponderStatus
  refused : Option Bytes
  written : List Bytes

namespace Responder

variable (y : Responder)

/-- The end of an exchange that was half-open. -/
def fail (error : HandshakeV3Error) (stores : HandshakeStores) : Responder × HandshakeStores :=
  ({ y with status := .failed error }, stores.endHalfOpen)

def write (phase : ResponderPhase) (message : Bytes) (writable : Bool)
    (stores : HandshakeStores) : Responder × HandshakeStores :=
  if writable then ({ y with phase, written := y.written ++ [message] }, stores)
  else y.fail .deadline stores

end Responder

namespace HandshakeV3

variable (handshake : HandshakeV3)

def accept (privateKey nonce : Bytes) (onConfirmed : OnConfirmed) : Responder :=
  ⟨privateKey, nonce, onConfirmed, .waitHello, .running, none, []⟩

/-- `_reject`, best effort, and the error that goes on. -/
def refuse (y : Responder) (sent : ReplySent) (m3 : Bytes) (error : HandshakeV3Error)
    (writable : Bool) (stores : HandshakeStores) : Responder × HandshakeStores :=
  match handshake.rejectMessage sent m3 with
  | .ok message =>
      if writable then
        ({ y with
            status := .rejecting error
            refused := some m3
            written := y.written ++ [message] },
          stores)
      else y.fail error stores
  | .error _ => y.fail error stores

/-- From the pin to message 4. -/
def finishAccept (y : Responder) (sent : ReplySent) (verified : ConfirmVerified)
    (pin : Option Bytes) (writable : Bool) (stores : HandshakeStores) :
    Responder × HandshakeStores :=
  match result sent.hello.toHandshakeFields sent.secrets .responder with
  | .error e => handshake.refuse y sent verified.confirm.raw e writable stores
  | .ok result =>
      match y.onConfirmed result stores.sessions with
      | .error e sessions =>
          handshake.refuse y sent verified.confirm.raw e writable (stores.callback sessions)
      | .ok _ sessions =>
          match handshake.acceptMessage sent verified with
          | .error e => y.fail e (stores.record result sessions)
          | .ok message =>
              y.write (.recorded sent verified pin result) message writable
                (stores.record result sessions)

def responderStep (y : Responder) (stores : HandshakeStores) (awaited : Awaited)
    (writable : Bool) : Responder × HandshakeStores :=
  match y.status with
  | .failed _ => (y, stores)
  | .rejecting e =>
      match awaited with
      | .message _ => (y, stores)
      | .raised .cancelled => y.fail .cancelled stores
      | .returned | .raised _ => y.fail e stores
  | .running =>
      match y.phase, awaited with
      | .waitHello, .message m1 =>
          match handshake.checkHello m1 with
          | .error e => ({ y with status := .failed e }, stores)
          | .ok hello =>
              if handshake.maxHalfOpen ≤ stores.halfOpen then
                ({ y with status := .failed (.busy stores.halfOpen) }, stores)
              else
                match handshake.reply y.privateKey y.nonce hello with
                | .error e => y.fail e stores.beginHalfOpen
                | .ok sent => y.write (.sentReply sent) sent.message writable stores.beginHalfOpen
      | .sentReply sent, .message m3 =>
          match handshake.verifyConfirm sent m3 with
          | .error e => handshake.refuse y sent m3 e writable stores
          | .ok verified => ({ y with phase := .verified sent verified }, stores)
      | .verified sent verified, .returned =>
          ({ y with
              phase := .checked sent verified (stores.trusted.lookup sent.hello.deviceId) },
            stores)
      | .checked sent verified pin, .returned =>
          match handshake.authenticate sent verified pin with
          | .error e => handshake.refuse y sent verified.confirm.raw e writable stores
          | .ok _ => ({ y with phase := .authenticated sent verified pin }, stores)
      | .authenticated sent verified pin, .returned =>
          ({ y with phase := .pinned sent verified pin },
            stores.trust sent.hello.deviceId sent.hello.identityPublicKey)
      | .pinned sent verified pin, .returned =>
          handshake.finishAccept y sent verified pin writable stores
      | .recorded sent verified pin result, .returned =>
          ({ y with phase := .confirmed sent verified pin result }, stores.endHalfOpen)
      | .waitHello, .raised e => ({ y with status := .failed e }, stores)
      | .sentReply _, .raised e | .recorded .., .raised e => y.fail e stores
      | .verified sent verified, .raised e | .checked sent verified _, .raised e
      | .authenticated sent verified _, .raised e | .pinned sent verified _, .raised e =>
          handshake.refuse y sent verified.confirm.raw e writable stores
      | _, _ => (y, stores)

end HandshakeV3
end SecureSync
