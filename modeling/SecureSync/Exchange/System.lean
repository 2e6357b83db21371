import SecureSync.Channel.Lifecycle
import SecureSync.Infrastructure.ManifestExchange

/-!
# Requests over the secure channel

`request_manifest`, `request_chunks` and `_handle_connection` of
`tcp_manifest_exchange.py`, on devices that run any number of them at once.  The
network brings any frame to any connection.
-/

namespace SecureSync

open Raising

/-! ## Payloads -/

/-- The payload dictionaries of the two transports. -/
inductive ExchangePayload where
  | manifestRequest (relativePath : String)
  | chunkRequest (relativePath : String) (chunkHashes : List String)
  | manifestResponse (response : ManifestResponse)
  | chunkResponse (chunks : List ChunkPayload)
  | push (relativePath : String) (totalChunks : ℕ) (chunk : ChunkPayload)
      (versionCounters : Option VersionVector)
  deriving DecidableEq

namespace ExchangePayload

/-- `payload["relative_path"]`, which may raise `KeyError`. -/
def relativePath? : ExchangePayload → Option String
  | manifestRequest relativePath | chunkRequest relativePath _ | push relativePath .. =>
      some relativePath
  | manifestResponse _ | chunkResponse _ => none

end ExchangePayload

/-- A call of `request_manifest`, or of `request_chunks` with some hashes. -/
structure ExchangeRequest where
  peer : DeviceId
  relativePath : String
  chunkHashes : Option (List String)

/-- What a call returns or yields. -/
inductive Returned where
  | manifest (value : Option ManifestWithVersion)
  | chunks (yielded : List Chunk)

def ManifestResponse.value (response : ManifestResponse) : Option ManifestWithVersion :=
  if response.found then response.collection.map fun collection ↦ ⟨collection, response.version⟩
  else none

namespace ExchangeRequest

def packetType (request : ExchangeRequest) : PacketType :=
  if request.chunkHashes.isSome then .chunkRequest else .fileManifest

def payload (request : ExchangeRequest) : ExchangePayload :=
  match request.chunkHashes with
  | none => .manifestRequest request.relativePath
  | some chunkHashes => .chunkRequest request.relativePath chunkHashes

/-- What the call makes of the payload that comes back, unless a key is missing. -/
def returned (request : ExchangeRequest) : ExchangePayload → Option Returned
  | .manifestResponse response =>
      if request.chunkHashes.isNone then some (.manifest response.value) else none
  | .chunkResponse chunks =>
      if request.chunkHashes.isSome then some (.chunks (decodeChunks chunks).1) else none
  | _ => none

/-- What the server's files and manifests answer to the request. -/
def answer (request : ExchangeRequest) (server : ManifestServer) : Option Returned :=
  match request.chunkHashes with
  | none => (server.buildManifestResponse request.relativePath).toOption.map
      fun response ↦ .manifest response.value
  | some chunkHashes => (server.buildChunkResponse request.relativePath chunkHashes).toOption.map
      fun chunks ↦ .chunks (decodeChunks chunks).1

end ExchangeRequest

/-- The reply of `_handle_connection`, unless it raises. -/
def ManifestServer.reply (server : ManifestServer) (packetType : PacketType)
    (payload : ExchangePayload) : Option (PacketType × ExchangePayload) :=
  if packetType = .chunkRequest then
    match payload with
    | .chunkRequest relativePath chunkHashes =>
        (server.buildChunkResponse relativePath chunkHashes).toOption.map
          fun chunks ↦ (.chunkData, .chunkResponse chunks)
    | _ => none
  else
    match payload.relativePath? with
    | none => none
    | some relativePath =>
        (server.buildManifestResponse relativePath).toOption.map
          fun response ↦ (.fileManifest, .manifestResponse response)

/-! ## Runs -/

/-- A call whose request has been sealed. -/
structure ExchangeCall (δ : Type) where
  device : δ
  request : ExchangeRequest
  frame : Bytes

/-- A connection that has been answered. -/
structure ExchangeReply (δ : Type) where
  request : Opened δ ExchangePayload
  server : ManifestServer
  packetType : PacketType
  payload : ExchangePayload
  frame : Bytes

structure ExchangeReturn (δ : Type) where
  call : ExchangeCall δ
  opened : Opened δ ExchangePayload
  value : Returned

structure Exchanging (δ : Type) where
  world : World δ ExchangePayload
  calls : List (ExchangeCall δ)
  /-- The calls that have yet to read a response. -/
  waiting : List (ExchangeCall δ)
  /-- The requests that have been opened and have yet to be answered. -/
  accepted : List (Opened δ ExchangePayload)
  replies : List (ExchangeReply δ)
  returns : List (ExchangeReturn δ)

variable {δ : Type} [DecidableEq δ]

/-- The record that `open` leaves. -/
def openedAs (d : δ) (frame : Bytes) (clock : ChannelClock) (packet : Packet ExchangePayload)
    (session : PeerSession) : Opened δ ExchangePayload :=
  ⟨d, session.sessionId, packet.header.messageId, packet.header.packetType, packet.payload, clock,
    frame⟩

namespace Network

variable (net : Network δ ExchangePayload)

inductive ExchangeStep : Exchanging δ → Exchanging δ → Prop
  | request (st : Exchanging δ) (d : δ) (request : ExchangeRequest) (clock : ChannelClock)
      (session session' : PeerSession) (frame : Bytes)
      (hsession : (st.world.endpoints d).store.getSendSession request.peer clock.seconds =
        some session)
      (hseal : (net.channel d).seal request.packetType request.payload clock session =
        .ok frame session') :
      ExchangeStep st { st with
        world := net.step st.world
          (.seal d session.sessionId request.packetType request.payload clock)
        calls := st.calls ++ [⟨d, request, frame⟩]
        waiting := st.waiting ++ [⟨d, request, frame⟩] }
  /-- `_handle_connection`, up to the request. -/
  | accept (st : Exchanging δ) (d : δ) (frame : Bytes) (clock : ChannelClock)
      (packet : Packet ExchangePayload) (session : PeerSession) (store : SessionStore)
      (hideal : net.Unforged st.world (.deliver d frame clock))
      (hopen : (net.channel d).open frame clock (st.world.endpoints d).store =
        .ok (packet, session) store) :
      ExchangeStep st { st with
        world := net.step st.world (.deliver d frame clock)
        accepted := st.accepted ++ [openedAs d frame clock packet session] }
  /-- `_handle_connection`, from its answer on. -/
  | reply (st : Exchanging δ) (o : Opened δ ExchangePayload)
      (before after : List (Opened δ ExchangePayload)) (server : ManifestServer)
      (packetType : PacketType) (payload : ExchangePayload) (clock : ChannelClock)
      (session session' : PeerSession) (frame : Bytes) (ho : st.accepted = before ++ o :: after)
      (hreply : server.reply o.packetType o.payload = some (packetType, payload))
      (hsession : st.world.find o.device o.sessionId = some session)
      (hseal : (net.channel o.device).seal packetType payload clock session = .ok frame session') :
      ExchangeStep st { st with
        world := net.step st.world (.seal o.device o.sessionId packetType payload clock)
        accepted := before ++ after
        replies := st.replies ++ [⟨o, server, packetType, payload, frame⟩] }
  /-- A call reads a frame from its connection. -/
  | return (st : Exchanging δ) (call : ExchangeCall δ) (before after : List (ExchangeCall δ))
      (frame : Bytes) (clock : ChannelClock) (packet : Packet ExchangePayload)
      (session : PeerSession) (store : SessionStore) (value : Returned)
      (hcall : st.waiting = before ++ call :: after)
      (hideal : net.Unforged st.world (.deliver call.device frame clock))
      (hopen : (net.channel call.device).open frame clock (st.world.endpoints call.device).store =
        .ok (packet, session) store)
      (hvalue : call.request.returned packet.payload = some value) :
      ExchangeStep st { st with
        world := net.step st.world (.deliver call.device frame clock)
        waiting := before ++ after
        returns := st.returns ++ [⟨call, openedAs call.device frame clock packet session, value⟩] }
  /-- Any other step of the channels. -/
  | elsewhere (st : Exchanging δ) (act : Act δ ExchangePayload)
      (hideal : net.Unforged st.world act) :
      ExchangeStep st { st with world := net.step st.world act }

def exchangeStart : Exchanging δ := ⟨.start net.policy, [], [], [], [], []⟩

inductive ExchangeRun : Exchanging δ → Prop
  | start : ExchangeRun net.exchangeStart
  | step {st st' : Exchanging δ} (h : ExchangeRun st) (hstep : net.ExchangeStep st st') :
      ExchangeRun st'

end Network
end SecureSync
