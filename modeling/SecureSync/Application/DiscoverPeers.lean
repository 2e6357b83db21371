import SecureSync.Domain.Networking
import SecureSync.Library.KeyedTable

/-!
# Discovering peers

`DiscoverPeersUseCase` of `application/use_cases/discover_peers.py` over the
in-memory repository, a dictionary that keeps its order.
-/

namespace SecureSync.Orchestration

open KeyedTable

abbrev PeerRepository := Table Peer.deviceId

def onPeerDiscovered (peer : Peer) (repository : PeerRepository) : PeerRepository :=
  repository.set { peer with status := .online }

def onPeerLost (deviceId : DeviceId) (repository : PeerRepository) : PeerRepository :=
  match repository.find? deviceId with
  | none => repository
  | some peer => repository.set { peer with status := .offline }

def listOnlinePeers (repository : PeerRepository) : List Peer :=
  repository.items.filter fun peer ↦ peer.status = .online

theorem nodup_listOnlinePeers (repository : PeerRepository) :
    ((listOnlinePeers repository).map Peer.deviceId).Nodup :=
  (repository.filter fun peer ↦ peer.status = .online).nodup

end SecureSync.Orchestration
