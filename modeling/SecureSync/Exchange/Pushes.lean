import SecureSync.Channel.Records
import SecureSync.Infrastructure.PushCodec
import SecureSync.Receiver.PushLoop
import SecureSync.Receiver.Senders

/-!
# Pushes over the secure channel

Devices that seal the payloads of `tcp_transport.py` and `tcp_manifest_exchange.py`, each with
one loop over its inbox.  The network brings any frame to any inbox.
-/

namespace SecureSync

open Raising

/-! ## Payloads -/

/-- The payload of `request_manifest`. -/
def manifestRequest (relativePath : String) : PyValue :=
  .dict [field "relative_path" (.str relativePath)]

/-- The payload of `request_chunks`. -/
def chunkRequest (relativePath : String) (chunkHashes : List String) : PyValue :=
  .dict [field "relative_path" (.str relativePath),
    field "chunk_hashes" (.list (chunkHashes.map PyValue.str))]

/-- What the two transports seal. -/
inductive WireTexts.Makes (texts : WireTexts) : PyValue → Prop
  | push (incoming : IncomingPush) : Makes texts (texts.pushPayload incoming)
  | manifestRequest (relativePath : String) : Makes texts (SecureSync.manifestRequest relativePath)
  | chunkRequest (relativePath : String) (chunkHashes : List String) :
      Makes texts (SecureSync.chunkRequest relativePath chunkHashes)
  | manifestResponse (response : ManifestResponse) :
      Makes texts (texts.manifestResponse response)
  | chunkResponse (payloads : List ChunkPayload) : Makes texts (SecureSync.chunkResponse payloads)

/-! ## Devices -/

/-- `π` are the values that `msgpack` represents. -/
structure PushNetwork (δ π : Type) where
  network : Network δ π
  msgpack : MsgPack PyValue
  value : π → PyValue
  packb_value : ∀ payload, msgpack.packb (value payload) = network.msgpack.packb payload
  unpackb_eq : ∀ bs, msgpack.unpackb bs = (network.msgpack.unpackb bs).map value
  builtins : Builtins
  receivers : δ → ReceivePushedFiles
  linkLoops : δ → FilePath → Bool

structure Pushing (δ π : Type) where
  world : World δ π
  receivers : δ → ReceiverState
  loose : δ → LooseVectors
  failures : δ → Option LoopError
  /-- What each receiver was given, a push with the session that it came under. -/
  events : δ → List (SenderEvent Bytes)

inductive PushAct (δ π : Type) where
  | elsewhere (act : Act δ π)
  | inbox (d : δ) (event : InboxEvent)

/-- What a step does to the channels. -/
def Pushing.act? {δ π : Type} (st : Pushing δ π) : PushAct δ π → Option (Act δ π)
  | .elsewhere act => some act
  | .inbox d (.frame frame now _) =>
      if (st.failures d).isSome then none else some (.deliver d frame now)
  | .inbox _ (.sweep _) => none

namespace PushNetwork

variable {δ π : Type} (fleet : PushNetwork δ π)

def loop (d : δ) : PushLoop :=
  { fleet.receivers d with
    channel := ⟨fleet.network.deviceId d, fleet.network.cipher, fleet.msgpack,
      fleet.network.timestampSkewMs⟩
    builtins := fleet.builtins
    linkLoops := fleet.linkLoops d }

/-- The push that a payload is read as. -/
def pushOf (value : PyValue) : Option IncomingPush :=
  (pushFromPayload fleet.builtins value).toOption.bind PushMessage.typed?

def pushesIn (payloads : List π) : List IncomingPush :=
  payloads.filterMap fun payload ↦ fleet.pushOf (fleet.value payload)

/-- What the loop of a device hands on to its receiver. -/
def handed (store : SessionStore) (d : δ) : InboxEvent → Option (SenderEvent Bytes)
  | .sweep now => some (.sweep now)
  | .frame frame now clock =>
      match (fleet.loop d).channel.open frame now store with
      | .error _ _ => none
      | .ok (packet, session) _ =>
          ((fleet.pushOf packet.payload).filter fun incoming ↦
            !(fleet.loop d).meetsLinkLoop incoming.relativePath).map fun incoming ↦
              .push session.sessionId clock incoming

/-- One turn of the loop of a device. -/
def turn (st : Pushing δ π) (d : δ) (event : InboxEvent) : PushLoopState :=
  (fleet.loop d).step ⟨(st.world.endpoints d).store, st.receivers d, st.loose d, none⟩ event

variable [DecidableEq δ]

/-- What the turn does to the channels. -/
def channels (w : World δ π) (d : δ) : InboxEvent → World δ π
  | .sweep _ => w
  | .frame frame now _ => fleet.network.step w (.deliver d frame now)

def step (st : Pushing δ π) : PushAct δ π → Pushing δ π
  | .elsewhere act => { st with world := fleet.network.step st.world act }
  | .inbox d event =>
      if (st.failures d).isSome then st
      else
        { world := fleet.channels st.world d event
          receivers := Function.update st.receivers d (fleet.turn st d event).receiver
          loose := Function.update st.loose d (fleet.turn st d event).loose
          failures := Function.update st.failures d (fleet.turn st d event).failure
          events := Function.update st.events d (st.events d ++
            (fleet.handed (st.world.endpoints d).store d event).toList) }

def start (receivers : δ → ReceiverState) : Pushing δ π :=
  ⟨.start fleet.network.policy, receivers, fun _ ↦ .empty, fun _ ↦ none, fun _ ↦ []⟩

/-- The states that are reached from `receivers` while the cipher is not broken. -/
inductive Run (receivers : δ → ReceiverState) : Pushing δ π → Prop
  | start : Run receivers (fleet.start receivers)
  | step {st : Pushing δ π} (act : PushAct δ π) (h : Run receivers st)
      (hideal : ∀ a ∈ st.act? act, fleet.network.Unforged st.world a) :
      Run receivers (fleet.step st act)

end PushNetwork

/-! ## What is read of a payload -/

namespace WireTexts

variable {texts : WireTexts} {builtins : Builtins} {value : PyValue}

/-- A payload of the transports is a push, or is not read at all. -/
theorem Makes.push_or_error (h : texts.Makes value) :
    (∃ incoming, value = texts.pushPayload incoming) ∨
      ∃ name, pushFromPayload builtins value = .error (.key name) := by
  cases h with
  | push incoming => exact .inl ⟨incoming, rfl⟩
  | manifestRequest relativePath => exact .inr ⟨"total_chunks", rfl⟩
  | chunkRequest relativePath chunkHashes => exact .inr ⟨"total_chunks", rfl⟩
  | manifestResponse response => exact .inr ⟨"relative_path", rfl⟩
  | chunkResponse payloads => exact .inr ⟨"relative_path", rfl⟩

end WireTexts

namespace PushNetwork

variable {δ π : Type} {fleet : PushNetwork δ π} {texts : WireTexts}

theorem pushesIn_append (payloads payloads' : List π) :
    fleet.pushesIn (payloads ++ payloads') = fleet.pushesIn payloads ++ fleet.pushesIn payloads' :=
  List.filterMap_append

theorem pushOf_pushPayload (incoming : IncomingPush) :
    fleet.pushOf (texts.pushPayload incoming) = some incoming := by
  rw [pushOf, texts.pushFromPayload_pushPayload]
  exact texts.typed?_pushMessage incoming

theorem pushOf_eq_none {value : PyValue} {e : PayloadError}
    (h : pushFromPayload fleet.builtins value = .error e) : fleet.pushOf value = none := by
  rw [pushOf, h]
  rfl

/-! ## Opening on both levels -/

variable (fleet) in
/-- The packet as the loop has it. -/
def seen (packet : Packet π) : Packet PyValue := ⟨packet.header, fleet.value packet.payload⟩

theorem decode_loop (framed : Bytes) : Packet.decode fleet.msgpack framed =
    (Packet.decode fleet.network.msgpack framed).map fleet.seen := by
  unfold Packet.decode
  cases PacketHeader.unpack (framed.take headerSize) with
  | error e => rfl
  | ok header =>
      simp only [except_ok_bind, fleet.unpackb_eq]
      split_ifs
      iterate 3 rfl
      cases fleet.network.msgpack.unpackb ((framed.drop headerSize).take header.payloadLength) <;>
        rfl

variable {store : SessionStore} {frame : Bytes} {now : ChannelClock} {d : δ}

theorem authenticate_loop : (fleet.loop d).channel.authenticate store frame now =
    ((fleet.network.channel d).authenticate store frame now).map
      fun r ↦ (r.1, fleet.seen r.2.1, r.2.2) := by
  unfold SecureChannel.authenticate
  cases splitFrame frame with
  | error e => rfl
  | ok split =>
      obtain ⟨header, encrypted⟩ := split
      dsimp only [bind, Except.bind, Except.mapError]
      cases SecureChannel.preFilter store header (counterOfNonce encrypted.nonce) with
      | error e => rfl
      | ok session =>
          have hsame : (fleet.loop d).channel.decryptFrame session header encrypted =
              (fleet.network.channel d).decryptFrame session header encrypted := rfl
          dsimp only
          rw [hsame]
          cases (fleet.network.channel d).decryptFrame session header encrypted with
          | error e => rfl
          | ok framed =>
              have hcheck (header : FrameHeader) (nonce : Bytes) (inner : PacketHeader) :
                  (fleet.loop d).channel.checkPacket header nonce inner now =
                    (fleet.network.channel d).checkPacket header nonce inner now := rfl
              have hdecode : Packet.decode (fleet.loop d).channel.msgpack framed =
                  (Packet.decode (fleet.network.channel d).msgpack framed).map fleet.seen :=
                decode_loop framed
              dsimp only
              rw [hdecode]
              cases Packet.decode (fleet.network.channel d).msgpack framed with
              | error e => rfl
              | ok packet =>
                  dsimp only [Except.map]
                  rw [hcheck, show (fleet.seen packet).header = packet.header from rfl]
                  cases (fleet.network.channel d).checkPacket header encrypted.nonce packet.header
                    now <;> rfl

theorem open_loop : (fleet.loop d).channel.open frame now store =
    match (fleet.network.channel d).open frame now store with
    | .error e store => .error e store
    | .ok (packet, session) store => .ok (fleet.seen packet, session) store := by
  unfold SecureChannel.«open»
  rw [authenticate_loop]
  cases (fleet.network.channel d).authenticate store frame now with
  | error e => rfl
  | ok result =>
      obtain ⟨session, packet, counter⟩ := result
      dsimp only [Except.map]
      cases session.receiveWindow.accept counter with
      | mk accepted window => cases accepted <;> rfl

end PushNetwork
end SecureSync
