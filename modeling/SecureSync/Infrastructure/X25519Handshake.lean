import SecureSync.Infrastructure.SessionKeys
import Mathlib.Data.Finmap

/-!
# The v2 handshake

`X25519Handshake` of `x25519_handshake.py`, between the reading and the writing
of its two messages.  Key exchange and signatures are parameters.
-/

namespace SecureSync

open Raising

/-- `KeyExchangeProvider`; an exchange raises on a key it cannot use. -/
structure KeyExchange where
  publicKey : Bytes → Bytes
  deriveSharedSecret : Bytes → Bytes → Option Bytes

/-- Both sides of an exchange come to the same secret. -/
def KeyExchange.Commutes (keyExchange : KeyExchange) : Prop :=
  ∀ privateKey privateKey',
    keyExchange.deriveSharedSecret privateKey (keyExchange.publicKey privateKey') =
      keyExchange.deriveSharedSecret privateKey' (keyExchange.publicKey privateKey)

/-- The long-term part of `IdentityProvider`. -/
structure IdentityProvider where
  sign : Bytes → Bytes → Bytes
  verify : Bytes → Bytes → Bytes → Bool

structure IdentityKeyPair where
  privateKey : Bytes
  publicKey : Bytes

/-- The keys pinned by a `TrustedPeerRepository`. -/
abbrev TrustStore := Finmap fun _ : DeviceId ↦ Bytes

/-- What both handshake messages carry. -/
structure HandshakeMessage where
  deviceId : DeviceId
  transferPort : ℤ
  manifestPort : ℤ
  publicKey : Bytes
  identityPublicKey : Bytes
  signature : Bytes
  deriving DecidableEq

/-- The request of the initiator. -/
structure Hello extends HandshakeMessage where
  salt : Bytes
  deriving DecidableEq

structure HandshakeResult where
  peerDeviceId : DeviceId
  sessionId : Bytes
  role : Role
  sendKey : Bytes
  receiveKey : Bytes
  peerTransferPort : ℤ
  peerManifestPort : ℤ
  deriving DecidableEq

inductive HandshakeError where
  | invalidSignature (deviceId : DeviceId)
  | identityMismatch (deviceId : DeviceId)
  | keyExchange
  | keySchedule (error : KeyScheduleError)
  deriving DecidableEq

structure X25519Handshake where
  ownDeviceId : DeviceId
  ownTransferPort : ℤ
  ownManifestPort : ℤ
  keyExchange : KeyExchange
  identityProvider : IdentityProvider
  ownIdentity : IdentityKeyPair
  hkdf : Hkdf

namespace X25519Handshake

variable (handshake : X25519Handshake)

/-- `_verify_and_trust`, with the trust store it leaves. -/
def verifyAndTrust (trusted : TrustStore) (message : HandshakeMessage) (signedData : Bytes) :
    Except HandshakeError TrustStore :=
  if !handshake.identityProvider.verify message.identityPublicKey signedData message.signature then
    .error (.invalidSignature message.deviceId)
  else if (trusted.lookup message.deviceId).any (· ≠ message.identityPublicKey) then
    .error (.identityMismatch message.deviceId)
  else .ok (trusted.insert message.deviceId message.identityPublicKey)

def ownMessage (privateKey salt : Bytes) : HandshakeMessage where
  deviceId := handshake.ownDeviceId
  transferPort := handshake.ownTransferPort
  manifestPort := handshake.ownManifestPort
  publicKey := handshake.keyExchange.publicKey privateKey
  identityPublicKey := handshake.ownIdentity.publicKey
  signature := handshake.identityProvider.sign handshake.ownIdentity.privateKey
    (salt ++ handshake.keyExchange.publicKey privateKey)

/-- What `initiate` sends, for its ephemeral key and salt. -/
def hello (privateKey salt : Bytes) : Hello where
  toHandshakeMessage := handshake.ownMessage privateKey salt
  salt := salt

def result (peer : HandshakeMessage) (keys : SessionKeys) : HandshakeResult where
  peerDeviceId := peer.deviceId
  sessionId := keys.sessionId
  role := keys.role
  sendKey := keys.sendKey
  receiveKey := keys.receiveKey
  peerTransferPort := peer.transferPort
  peerManifestPort := peer.manifestPort

/-- The key material of the handshake that `request` and `response` make up. -/
def keyMaterial (sharedSecret : Bytes) (request : Hello) (response : HandshakeMessage) :
    KeyMaterial where
  sharedSecret := sharedSecret
  salt := request.salt
  initiatorId := request.deviceId
  responderId := response.deviceId
  initiatorEphemeralPub := request.publicKey
  responderEphemeralPub := response.publicKey

/-- The exchange and the key schedule on one side. -/
def deriveResult (role : Role) (privateKey : Bytes) (peer : HandshakeMessage) (request : Hello)
    (response : HandshakeMessage) : Except HandshakeError HandshakeResult :=
  match handshake.keyExchange.deriveSharedSecret privateKey peer.publicKey with
  | none => .error .keyExchange
  | some sharedSecret =>
      match (keyMaterial sharedSecret request response).deriveSessionKeys handshake.hkdf role with
      | .error e => .error (.keySchedule e)
      | .ok keys => .ok (result peer keys)

/-- `initiate`, from the response on. -/
def finishInitiate (privateKey salt : Bytes) (trusted : TrustStore)
    (response : HandshakeMessage) : Except HandshakeError (HandshakeResult × TrustStore) := do
  let trusted ← handshake.verifyAndTrust trusted response (salt ++ response.publicKey)
  let result ← handshake.deriveResult .initiator privateKey response
    (handshake.hello privateKey salt) response
  return (result, trusted)

/-- `accept`, up to the response that it writes. -/
def answer (privateKey : Bytes) (trusted : TrustStore) (request : Hello) :
    Except HandshakeError (HandshakeMessage × TrustStore) := do
  let trusted ← handshake.verifyAndTrust trusted request.toHandshakeMessage
    (request.salt ++ request.publicKey)
  return (handshake.ownMessage privateKey request.salt, trusted)

/-- `accept`, from the response on. -/
def finishAccept (privateKey : Bytes) (request : Hello) :
    Except HandshakeError HandshakeResult :=
  handshake.deriveResult .responder privateKey request.toHandshakeMessage request
    (handshake.ownMessage privateKey request.salt)

end X25519Handshake

theorem X25519Handshake.deriveResult_eq_ok {handshake : X25519Handshake} {role : Role}
    {privateKey : Bytes} {peer response : HandshakeMessage} {request : Hello}
    {res : HandshakeResult} :
    handshake.deriveResult role privateKey peer request response = .ok res ↔
      ∃ sharedSecret keys,
        handshake.keyExchange.deriveSharedSecret privateKey peer.publicKey = some sharedSecret ∧
          (keyMaterial sharedSecret request response).deriveSessionKeys handshake.hkdf role =
              .ok keys ∧
            result peer keys = res := by
  unfold deriveResult
  cases handshake.keyExchange.deriveSharedSecret privateKey peer.publicKey with
  | none => simp
  | some sharedSecret =>
      cases h : (keyMaterial sharedSecret request response).deriveSessionKeys handshake.hkdf role
        with
      | error e => simp [h]
      | ok keys => simp [h]

end SecureSync
