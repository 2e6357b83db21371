import SecureSync.Application.DiscoverPeers
import SecureSync.Infrastructure.ReplayProtection

/-!
# Discovery by mDNS

`MdnsDiscoveryService` of `mdns_discovery.py` between the callbacks of zeroconf and the use
cases that observe it.  A callback puts a coroutine on the loop, and the loop takes them in
that order.  Its observers wait for nothing but a lock that nobody keeps across an `await`, so
that each coroutine runs through at its turn.
-/

namespace SecureSync.Orchestration

def serviceType : String := "_securesync._tcp.local."

/-- `ServiceInfo` of zeroconf, as far as it is read. -/
structure ServiceInfo where
  properties : List (String × Option Bytes)
  port : Option ℕ
  addresses : List Bytes
  deriving DecidableEq

/-- What may be raised on the way to a peer. -/
inductive AdvertisementError where
  | index
  | unicode
  | os
  deriving DecidableEq, Repr

/-- `raw.decode()`. -/
def decodeText (raw : Bytes) : Except AdvertisementError String :=
  match String.fromUTF8? ⟨raw.toArray⟩ with
  | none => .error .unicode
  | some text => .ok text

/-- `socket.inet_ntoa`. -/
def inetNtoa (packed : Bytes) : Except AdvertisementError String :=
  if packed.length = 4 then .ok (".".intercalate (packed.map fun byte ↦ toString byte.toNat))
  else .error .os

/-- A property that is there and not empty. -/
def ServiceInfo.given? (info : ServiceInfo) (name : String) : Option Bytes :=
  ((info.properties.lookup name).bind id).filter fun raw ↦ raw ≠ []

structure MdnsDiscoveryService where
  deviceId : DeviceId
  deriving DecidableEq, Repr

/-- The peer of an advertisement that is neither our own nor short of something. -/
def MdnsDiscoveryService.peerOf (service : MdnsDiscoveryService) (info : ServiceInfo)
    (now : Timestamp) : Except AdvertisementError (Option Peer) := do
  let some raw := info.given? "device_id" | return none
  let deviceId ← decodeText raw
  if deviceId = service.deviceId then return none
  let some hostname := info.given? "hostname" | return none
  let some fingerprint := info.given? "fingerprint" | return none
  let some version := info.given? "version" | return none
  let some port := info.port.filter fun port ↦ port ≠ 0 | return none
  let hostname ← decodeText hostname
  let fingerprint ← decodeText fingerprint
  let address :: _ := info.addresses | throw .index
  let ipAddress ← inetNtoa address
  let version ← decodeText version
  return some
    { identity := ⟨deviceId, hostname, fingerprint⟩
      address := ⟨ipAddress, port⟩
      capabilities := { version }
      status := .online
      lastSeen := now }

/-- A coroutine on the loop. -/
inductive Notice (ι : Type) where
  | discovered (info : ServiceInfo)
  | lost (observer : ι) (deviceId : DeviceId)
  deriving DecidableEq

/-- The observers are use cases, each with its repository. -/
structure Discovery (ι : Type) where
  observers : List ι := []
  queue : List (Notice ι) := []
  repository : ι → PeerRepository := fun _ ↦ .empty

inductive DiscoveryStep (ι : Type) where
  | subscribe (observer : ι)
  | unsubscribe (observer : ι)
  /-- `add_service` or `update_service`, on a thread with or without a running loop. -/
  | addService (running : Bool) (info : Option ServiceInfo)
  | removeService (running : Bool) (name : String)
  /-- The loop takes its next coroutine. -/
  | turn (now : Timestamp)
  deriving DecidableEq

/-- `name.split(".")[0]`. -/
def deviceIdOfName (name : String) : DeviceId := String.ofList (name.toList.takeWhile (· ≠ '.'))

namespace Discovery

variable {ι : Type} [DecidableEq ι]

def subscribe (s : Discovery ι) (observer : ι) : Discovery ι :=
  if observer ∈ s.observers then s else { s with observers := s.observers ++ [observer] }

def unsubscribe (s : Discovery ι) (observer : ι) : Discovery ι :=
  { s with observers := s.observers.erase observer }

/-- `asyncio.get_running_loop()` raises where no loop runs. -/
def addService (s : Discovery ι) (running : Bool) (info : Option ServiceInfo) : Discovery ι :=
  match info with
  | none => s
  | some info => if running then { s with queue := s.queue ++ [.discovered info] } else s

def removeService (s : Discovery ι) (running : Bool) (name : String) : Discovery ι :=
  if running then
    { s with queue := s.queue ++ s.observers.map (Notice.lost · (deviceIdOfName name)) }
  else s

def tell (s : Discovery ι) (observer : ι) (f : PeerRepository → PeerRepository) : Discovery ι :=
  { s with repository := Function.update s.repository observer (f (s.repository observer)) }

/-- `_handle_discovered_service`; what is not caught ends in its coroutine. -/
def handleDiscoveredService (service : MdnsDiscoveryService) (s : Discovery ι) (info : ServiceInfo)
    (now : Timestamp) : Discovery ι :=
  match service.peerOf info now with
  | .ok (some peer) =>
      s.observers.foldl (fun s observer ↦ s.tell observer (onPeerDiscovered peer)) s
  | _ => s

def turn (service : MdnsDiscoveryService) (s : Discovery ι) (now : Timestamp) : Discovery ι :=
  match s.queue with
  | [] => s
  | .discovered info :: queue => handleDiscoveredService service { s with queue } info now
  | .lost observer deviceId :: queue => { s with queue }.tell observer (onPeerLost deviceId)

def step (service : MdnsDiscoveryService) (s : Discovery ι) : DiscoveryStep ι → Discovery ι
  | .subscribe observer => s.subscribe observer
  | .unsubscribe observer => s.unsubscribe observer
  | .addService running info => s.addService running info
  | .removeService running name => s.removeService running name
  | .turn now => s.turn service now

def run (service : MdnsDiscoveryService) (s : Discovery ι) (steps : List (DiscoveryStep ι)) :
    Discovery ι := steps.foldl (step service) s

end Discovery
end SecureSync.Orchestration
