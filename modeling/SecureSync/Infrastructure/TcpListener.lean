import SecureSync.Infrastructure.MessageIo

/-!
# The listening side of the transport

`_handle_connection` and `_try_enqueue` of `tcp_transport.py`: one task for each connection, a
count of those that read, and the bounded inbox that the receiver is served from.
-/

namespace SecureSync

open BigEndian Raising

def maxConcurrentConnections : ℕ := 256

def inboxMaxSize : ℕ := 4096

/-- What raises in a task while it waits, apart from its own deadline. -/
inductive Interruption where
  | reset
  | cancelled
  deriving DecidableEq

inductive ConnectionEnd where
  | refused
  | enqueued (frame : Bytes)
  | dropped (frame : Bytes)
  | raised (error : MessageReadError)
  | interrupted (cause : Interruption)
  deriving DecidableEq

/-- Where the task of a connection stands.  Nothing it does after the count has been taken back
matters to the others. -/
inductive ConnectionStage where
  | readingLength
  | readingBody (length : ℕ)
  | ended (result : ConnectionEnd)
  deriving DecidableEq

structure InboundConnection where
  /-- The buffer of the stream reader. -/
  stream : Stream
  /-- All that has arrived while the task was reading. -/
  received : Bytes
  stage : ConnectionStage
  deriving DecidableEq

namespace InboundConnection

def isReading (c : InboundConnection) : Bool :=
  match c.stage with
  | .readingLength | .readingBody _ => true
  | .ended _ => false

def accepted : InboundConnection := ⟨⟨[], false⟩, [], .readingLength⟩

def refused : InboundConnection := ⟨⟨[], false⟩, [], .ended .refused⟩

/-- Bytes after the end of a stream, or of its task, are nobody's. -/
def receive (bytes : Bytes) (c : InboundConnection) : InboundConnection :=
  if c.isReading && !c.stream.closed then
    { c with
      stream := { c.stream with bytes := c.stream.bytes ++ bytes }
      received := c.received ++ bytes }
  else c

def close (c : InboundConnection) : InboundConnection :=
  if c.isReading then { c with stream := { c.stream with closed := true } } else c

def finish (stream : Stream) (result : ConnectionEnd) (c : InboundConnection) : InboundConnection :=
  { c with stream, stage := .ended result }

end InboundConnection

structure TcpListener where
  activeConnections : ℤ := 0
  inbox : List Bytes := []
  connections : List InboundConnection := []
  /-- The frames put into the inbox, each with its connection. -/
  arrived : List (ℕ × Bytes) := []
  /-- The frames that the consumers have got. -/
  taken : List Bytes := []

inductive ListenerStep where
  | connect
  | receive (i : ℕ) (bytes : Bytes)
  | close (i : ℕ)
  /-- The task of a connection goes on as far as its next read. -/
  | read (i : ℕ)
  | expire (i : ℕ)
  | interrupt (i : ℕ) (cause : Interruption)
  | take
  deriving DecidableEq

namespace TcpListener

def update (s : TcpListener) (i : ℕ) (f : InboundConnection → InboundConnection) : TcpListener :=
  { s with connections := s.connections.modify i f }

def connect (s : TcpListener) : TcpListener :=
  if (maxConcurrentConnections : ℤ) ≤ s.activeConnections then
    { s with connections := s.connections ++ [.refused] }
  else
    { s with
      activeConnections := s.activeConnections + 1
      connections := s.connections ++ [.accepted] }

/-- The `finally` of the handler. -/
def leave (s : TcpListener) (i : ℕ) (stream : Stream) (result : ConnectionEnd) : TcpListener :=
  { s.update i (.finish stream result) with activeConnections := s.activeConnections - 1 }

/-- `_try_enqueue`. -/
def enqueue (s : TcpListener) (i : ℕ) (frame : Bytes) : TcpListener × ConnectionEnd :=
  if inboxMaxSize ≤ s.inbox.length then (s, .dropped frame)
  else ({ s with inbox := s.inbox ++ [frame], arrived := s.arrived ++ [(i, frame)] },
    .enqueued frame)

def readLength (s : TcpListener) (i : ℕ) (stream : Stream) : TcpListener :=
  match readExactly lengthPrefixSize stream with
  | .ok header rest =>
      match checkSize (decode header) maxMessageSize with
      | .ok _ => s.update i fun c ↦ { c with stream := rest, stage := .readingBody (decode header) }
      | .error e => s.leave i rest (.raised e)
  | .error .timeout _ => s
  | .error e rest => s.leave i rest (.raised e)

def readBody (s : TcpListener) (i : ℕ) (stream : Stream) (length : ℕ) : TcpListener :=
  match readExactly length stream with
  | .ok frame rest =>
      let (s, result) := s.enqueue i frame
      s.leave i rest result
  | .error .timeout _ => s
  | .error e rest => s.leave i rest (.raised e)

def read (s : TcpListener) (i : ℕ) : TcpListener :=
  match s.connections[i]? with
  | some ⟨stream, _, .readingLength⟩ => s.readLength i stream
  | some ⟨stream, _, .readingBody length⟩ => s.readBody i stream length
  | _ => s

/-- An exception in the read that a task waits for. -/
def raise (s : TcpListener) (i : ℕ) (result : ConnectionEnd) : TcpListener :=
  match s.connections[i]? with
  | some c => if c.isReading then s.leave i c.stream result else s
  | none => s

def take (s : TcpListener) : TcpListener :=
  match s.inbox with
  | [] => s
  | frame :: inbox => { s with inbox, taken := s.taken ++ [frame] }

def step (s : TcpListener) : ListenerStep → TcpListener
  | .connect => s.connect
  | .receive i bytes => s.update i (.receive bytes)
  | .close i => s.update i .close
  | .read i => s.read i
  | .expire i => s.raise i (.raised .timeout)
  | .interrupt i cause => s.raise i (.interrupted cause)
  | .take => s.take

def run (s : TcpListener) (steps : List ListenerStep) : TcpListener := steps.foldl step s

end TcpListener
end SecureSync
