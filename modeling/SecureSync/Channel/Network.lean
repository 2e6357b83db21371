import SecureSync.Infrastructure.SecureChannel
import Mathlib.Logic.Function.Basic

/-!
# Devices on an untrusted network

Every device has a secure channel and a store.  A session object that the store
has dropped can still be sealed under by a task that holds it.  Any bytes may
arrive anywhere; the frames that are accepted are recorded.
-/

namespace SecureSync

open Raising KeyedTable

/-! ## Endpoints -/

/-- The session objects of one device: those in its store, and those dropped
from it. -/
structure Endpoint where
  store : SessionStore
  dropped : Table PeerSession.sessionId

namespace Endpoint

def new (policy : SessionPolicy) : Endpoint := ⟨.new policy, .empty⟩

def find (e : Endpoint) (sessionId : Bytes) : Option PeerSession :=
  (e.store.getBySessionId sessionId).or (e.dropped.find? sessionId)

/-- Change a session object, wherever it is. -/
def write (e : Endpoint) (session : PeerSession) : Endpoint :=
  match e.store.getBySessionId session.sessionId with
  | some _ => { e with store := e.store.update session }
  | none => { e with dropped := e.dropped.set session }

/-- Move on to a later store; what is no longer in it has been dropped. -/
def moveTo (e : Endpoint) (store : SessionStore) : Endpoint where
  store := store
  dropped := (e.store.bySessionId.filter fun s ↦
    (store.getBySessionId s.sessionId).isNone).items.foldl Table.set e.dropped

end Endpoint

/-! ## The network -/

structure Network (δ π : Type) where
  deviceId : δ → DeviceId
  cipher : AeadCipher
  msgpack : MsgPack π
  timestampSkewMs : ℤ
  policy : SessionPolicy

/-- A call of `encrypt` made by `seal`, and the frame that came of it. -/
structure Sent (δ π : Type) where
  device : δ
  sessionId : Bytes
  counter : ℕ
  packetType : PacketType
  payload : π
  clock : ChannelClock
  call : Encryption
  frame? : Option Bytes

/-- A frame that `open` accepted. -/
structure Opened (δ π : Type) where
  device : δ
  sessionId : Bytes
  counter : ℕ
  packetType : PacketType
  payload : π
  clock : ChannelClock
  frame : Bytes

structure World (δ π : Type) where
  endpoints : δ → Endpoint
  recorded : List (δ × PeerSession)
  sent : List (Sent δ π)
  opened : List (Opened δ π)

inductive Act (δ π : Type) where
  | seal (d : δ) (sessionId : Bytes) (packetType : PacketType) (payload : π) (clock : ChannelClock)
  | deliver (d : δ) (frame : Bytes) (clock : ChannelClock)
  | put (d : δ) (terms : SessionTerms) (now : ℚ)
  | confirm (d : δ) (sessionId : Bytes)
  | forget (d : δ) (sessionIds : List Bytes)

variable {δ π : Type} [DecidableEq δ]

namespace World

def start (policy : SessionPolicy) : World δ π := ⟨fun _ ↦ .new policy, [], [], []⟩

def find (w : World δ π) (d : δ) (sessionId : Bytes) : Option PeerSession :=
  (w.endpoints d).find sessionId

def setEndpoint (w : World δ π) (d : δ) (e : Endpoint) : World δ π :=
  { w with endpoints := Function.update w.endpoints d e }

@[simp] theorem endpoints_setEndpoint_self (w : World δ π) (d : δ) (e : Endpoint) :
    (w.setEndpoint d e).endpoints d = e := Function.update_self ..

theorem endpoints_setEndpoint_of_ne (w : World δ π) {d d' : δ} (e : Endpoint) (h : d' ≠ d) :
    (w.setEndpoint d e).endpoints d' = w.endpoints d' := Function.update_of_ne h ..

end World

namespace Network

variable (net : Network δ π)

def channel (d : δ) : SecureChannel π where
  ownDeviceId := net.deviceId d
  cipher := net.cipher
  msgpack := net.msgpack
  timestampSkewMs := net.timestampSkewMs

/-- The record of the cipher call that a `seal` makes, if it gets that far. -/
def sentBy (d : δ) (session : PeerSession) (packetType : PacketType) (payload : π)
    (clock : ChannelClock) : List (Sent δ π) :=
  if session.exhausted then []
  else
    match (net.channel d).encryption session packetType payload session.nextSendCounter clock with
    | .error _ => []
    | .ok (_, call) => [{
        device := d
        sessionId := session.sessionId
        counter := session.nextSendCounter
        packetType
        payload
        clock
        call
        frame? := value? ((net.channel d).seal packetType payload clock session) }]

def step (w : World δ π) : Act δ π → World δ π
  | .seal d sessionId packetType payload clock =>
      match w.find d sessionId with
      | none => w
      | some session =>
          let after := stateOf ((net.channel d).seal packetType payload clock session)
          { w.setEndpoint d ((w.endpoints d).write after) with
            sent := w.sent ++ net.sentBy d session packetType payload clock }
  | .deliver d frame clock =>
      match (net.channel d).open frame clock (w.endpoints d).store with
      | .error _ store => w.setEndpoint d { w.endpoints d with store }
      | .ok (packet, session) store =>
          { w.setEndpoint d { w.endpoints d with store } with
            opened := w.opened ++ [{
              device := d
              sessionId := session.sessionId
              counter := packet.header.messageId
              packetType := packet.header.packetType
              payload := packet.payload
              clock
              frame }] }
  | .put d terms now =>
      match SessionStore.put (.start terms now) now (w.endpoints d).store with
      | .error _ store => w.setEndpoint d ((w.endpoints d).moveTo store)
      | .ok _ store =>
          { w.setEndpoint d ((w.endpoints d).moveTo store) with
            recorded := w.recorded ++ [(d, .start terms now)] }
  | .confirm d sessionId =>
      w.setEndpoint d
        { w.endpoints d with store := (w.endpoints d).store.confirm sessionId }
  | .forget d sessionIds =>
      w.setEndpoint d ((w.endpoints d).moveTo
        (sessionIds.foldl SessionStore.remove (w.endpoints d).store))

end Network
end SecureSync
