import SecureSync.Domain.Metadata

/-!
# Peers

`Peer` of `domain/networking.py`.
-/

namespace SecureSync.Orchestration

inductive PeerStatus where
  | online
  | offline
  | unknown
  deriving DecidableEq, Repr

structure PeerIdentity where
  deviceId : DeviceId
  hostname : String
  fingerprint : String
  deriving DecidableEq

structure PeerAddress where
  ipAddress : String
  port : ℕ
  deriving DecidableEq

structure PeerCapabilities where
  version : String
  features : Finset String := ∅
  deriving DecidableEq

structure Peer where
  identity : PeerIdentity
  address : PeerAddress
  capabilities : PeerCapabilities
  status : PeerStatus := .unknown
  lastSeen : Timestamp
  deriving DecidableEq

def Peer.deviceId (peer : Peer) : DeviceId := peer.identity.deviceId

end SecureSync.Orchestration
