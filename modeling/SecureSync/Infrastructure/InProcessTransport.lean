import SecureSync.Infrastructure.PushCodec

/-!
# Transport within one process

`in_process_transport.py`: one queue for every device, from which the generators of
`request_chunks` and `receive_pushes` take the encrypted messages one by one.
-/

namespace SecureSync

open Raising

structure InProcessTransport where
  ownDeviceId : DeviceId
  sendKey : Bytes
  receiveKey : Bytes
  messageId : ℕ := 0
  deriving DecidableEq

inductive InProcessError where
  | invalidTag
  | packet (error : PacketError)
  | payload (error : PayloadError)
  deriving DecidableEq

/-- What the transports have in common. -/
structure InProcessSettings where
  cipher : AeadCipher
  msgpack : MsgPack PyValue
  texts : WireTexts
  builtins : Builtins

/-- `os.urandom(NONCE_SIZE)`. -/
abbrev RandomNonce := { bs : Bytes // bs.length = nonceSize }

namespace EncryptedPayload

/-- `_pack_envelope`. -/
def pack (payload : EncryptedPayload) : Bytes := payload.nonce ++ payload.tag ++ payload.ciphertext

/-- `_unpack_envelope`. -/
def unpack (envelope : Bytes) : EncryptedPayload where
  nonce := envelope.take nonceSize
  tag := (envelope.drop nonceSize).take tagSize
  ciphertext := envelope.drop (nonceSize + tagSize)

theorem unpack_pack {payload : EncryptedPayload} (hnonce : payload.nonce.length = nonceSize)
    (htag : payload.tag.length = tagSize) : unpack payload.pack = payload := by
  obtain ⟨ciphertext, nonce, tag⟩ := payload
  unfold unpack pack
  rw [List.append_assoc, List.take_left' hnonce, List.drop_left' hnonce, List.take_left' htag,
    ← List.append_assoc, List.drop_left' (by rw [List.length_append, hnonce, htag])]

end EncryptedPayload

namespace InProcessSettings

variable (settings : InProcessSettings)

/-- What `send_chunk` puts into the inbox of the peer. -/
def envelope (transport : InProcessTransport) (peer : DeviceId) (incoming : IncomingPush)
    (nonce : RandomNonce) (nowMs : ℕ) : Option Bytes :=
  let payload := settings.texts.pushPayload incoming
  if payload.packable then
    match (Packet.mk (makeHeader .chunkData (transport.messageId + 1) nowMs) payload).encode
        settings.msgpack with
    | .ok framed =>
        some (settings.cipher.encrypt framed transport.sendKey nonce.val (utf8 peer)).pack
    | .error _ => none
  else none

/-- What a generator makes of an envelope before it looks at the payload. -/
def openEnvelope (transport : InProcessTransport) (envelope : Bytes) :
    Except InProcessError PyValue :=
  match settings.cipher.decrypt (.unpack envelope) transport.receiveKey
      (utf8 transport.ownDeviceId) with
  | none => .error .invalidTag
  | some framed =>
      match Packet.decode settings.msgpack framed with
      | .error e => .error (.packet e)
      | .ok packet => .ok packet.payload

end InProcessSettings

/-! ## Generators -/

/-- `payload.get("hash_digest") in remaining`. -/
def wantedDigest (remaining : Finset String) (payload : PyDict) :
    Except PayloadError (Option String) :=
  match payload.get? "hash_digest" with
  | none => .ok none
  | some (.str digest) => .ok (if digest ∈ remaining then some digest else none)
  | some value => if value.hashable then .ok none else .error .type

inductive GeneratorCall where
  | requestChunks (chunkHashes : List String)
  | receivePushes
  deriving DecidableEq

inductive GeneratorPc where
  | requesting (remaining : Finset String)
  | receiving
  | finished
  | failed (error : InProcessError)

/-- A generator under way, with what it has yielded. -/
structure Generator where
  call : GeneratorCall
  transport : ℕ
  pc : GeneratorPc
  chunks : List WireChunk := []
  pushes : List PushMessage := []

namespace Generator

variable (builtins : Builtins) (generator : Generator)

/-- `while remaining`. -/
def requesting (remaining : Finset String) : GeneratorPc :=
  if remaining = ∅ then .finished else .requesting remaining

def fail (error : PayloadError) : Generator := { generator with pc := .failed (.payload error) }

/-- The body of the loop of `request_chunks`. -/
def handleRequested (remaining : Finset String) : PyValue → Generator
  | .dict payload =>
      match wantedDigest remaining payload with
      | .error e => generator.fail e
      | .ok none => generator
      | .ok (some digest) =>
          match wireChunkFromPayload builtins payload with
          | .error e => generator.fail e
          | .ok chunk =>
              { generator with
                pc := requesting (remaining.erase digest)
                chunks := generator.chunks ++ [chunk] }
  | _ => generator.fail .attribute

/-- The body of the loop of `receive_pushes`. -/
def handlePush (payload : PyValue) : Generator :=
  match pushFromPayload builtins payload with
  | .error e => generator.fail e
  | .ok push => { generator with pushes := generator.pushes ++ [push] }

def handle (payload : PyValue) : Generator :=
  match generator.pc with
  | .requesting remaining => generator.handleRequested builtins remaining payload
  | .receiving => generator.handlePush builtins payload
  | _ => generator

/-- It waits for the inbox. -/
def isWaiting : Bool :=
  match generator.pc with
  | .requesting _ | .receiving => true
  | _ => false

end Generator

/-! ## The network -/

structure InProcessNetwork where
  transports : List InProcessTransport
  inboxes : DeviceId → List Bytes := fun _ ↦ []
  generators : List Generator := []

inductive InProcessStep where
  | send (transport : ℕ) (peer : DeviceId) (incoming : IncomingPush) (nonce : RandomNonce)
      (nowMs : ℕ)
  | requestChunks (transport : ℕ) (chunkHashes : List String)
  | receivePushes (transport : ℕ)
  /-- A generator that waits gets the first message of its inbox. -/
  | take (generator : ℕ)

namespace InProcessNetwork

variable (settings : InProcessSettings) (net : InProcessNetwork)

/-- `_next_message_id`. -/
def countMessage (transport : ℕ) : List InProcessTransport :=
  net.transports.modify transport fun t ↦ { t with messageId := t.messageId + 1 }

def putMessage (peer : DeviceId) (message : Bytes) : DeviceId → List Bytes :=
  Function.update net.inboxes peer (net.inboxes peer ++ [message])

def send (transport : ℕ) (peer : DeviceId) (incoming : IncomingPush) (nonce : RandomNonce)
    (nowMs : ℕ) : InProcessNetwork :=
  match net.transports[transport]? with
  | none => net
  | some t =>
      match settings.envelope t peer incoming nonce nowMs with
      | none => { net with transports := net.countMessage transport }
      | some message =>
          { net with
            transports := net.countMessage transport
            inboxes := net.putMessage peer message }

def addGenerator (generator : Generator) : InProcessNetwork :=
  { net with generators := net.generators ++ [generator] }

def take (index : ℕ) : InProcessNetwork :=
  match net.generators[index]? with
  | none => net
  | some generator =>
      match generator.isWaiting, net.transports[generator.transport]? with
      | true, some t =>
          match net.inboxes t.ownDeviceId with
          | [] => net
          | message :: rest =>
              { net with
                inboxes := Function.update net.inboxes t.ownDeviceId rest
                generators := net.generators.set index <|
                  match settings.openEnvelope t message with
                  | .error e => { generator with pc := .failed e }
                  | .ok payload => generator.handle settings.builtins payload }
      | _, _ => net

def step (net : InProcessNetwork) : InProcessStep → InProcessNetwork
  | .send transport peer incoming nonce nowMs =>
      net.send settings transport peer incoming nonce nowMs
  | .requestChunks transport chunkHashes =>
      net.addGenerator
        ⟨.requestChunks chunkHashes, transport, Generator.requesting chunkHashes.toFinset, [], []⟩
  | .receivePushes transport => net.addGenerator ⟨.receivePushes, transport, .receiving, [], []⟩
  | .take index => net.take settings index

def run (net : InProcessNetwork) (steps : List InProcessStep) : InProcessNetwork :=
  steps.foldl (step settings) net

end InProcessNetwork

end SecureSync
