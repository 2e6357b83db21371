import SecureSync.Domain.Chunk
import SecureSync.Library.BigEndian
import SecureSync.Library.Raising

/-!
# The wire protocol

`core/protocol.py`: packet types, the 32-byte header, and whole packets.  The
payload and its msgpack encoding are parameters.
-/

namespace SecureSync

open BigEndian Raising

def magic : ℕ := 0x53594E43

def headerSize : ℕ := 32

def currentVersion : ℕ := 2

inductive PacketType where
  | hello
  | keyExchange
  | auth
  | fileManifest
  | chunkRequest
  | chunkData
  | heartbeat
  | peerList
  | error
  | close
  deriving DecidableEq, Repr

namespace PacketType

def value : PacketType → UInt8
  | hello => 0x01
  | keyExchange => 0x02
  | auth => 0x03
  | fileManifest => 0x10
  | chunkRequest => 0x11
  | chunkData => 0x12
  | heartbeat => 0x20
  | peerList => 0x21
  | error => 0xF0
  | close => 0xFF

def all : List PacketType :=
  [hello, keyExchange, auth, fileManifest, chunkRequest, chunkData, heartbeat, peerList, error,
    close]

/-- `PacketType(value)`; an unknown value raises `ValueError`. -/
def ofValue? (value : UInt8) : Option PacketType := all.find? fun p ↦ p.value = value

theorem ofValue?_value (p : PacketType) : ofValue? p.value = some p := by
  cases p <;> decide

end PacketType

/-! ## Headers -/

inductive PacketError where
  | headerSize (length : ℕ)
  | badMagic (magic : ℕ)
  | payloadLength (expected actual : ℕ)
  | payloadCrc
  | unknownPacketType (value : UInt8)
  | unpack
  | structRange (width value : ℕ)
  deriving DecidableEq, Repr

/-- The subclasses of `ProtocolError`. -/
def PacketError.isProtocolError : PacketError → Bool
  | headerSize _ | badMagic _ | payloadLength _ _ | payloadCrc => true
  | unknownPacketType _ | unpack | structRange _ _ => false

structure PacketHeader where
  version : ℕ
  packetType : PacketType
  flags : ℕ
  messageId : ℕ
  payloadLength : ℕ
  timestamp : ℕ
  crc32 : ℕ
  deriving DecidableEq, Repr

/-- One unsigned integer of `struct.pack`, which raises `struct.error` when it
does not fit. -/
def packUnsigned (width n : ℕ) : Except PacketError Bytes :=
  if n < 256 ^ width then .ok (encode width n) else .error (.structRange width n)

theorem packUnsigned_eq_ok {width n : ℕ} {bs : Bytes} :
    packUnsigned width n = .ok bs ↔ n < 256 ^ width ∧ encode width n = bs := by
  unfold packUnsigned
  split_ifs with h <;> simp [h]

/-- The unsigned integer at `offset` of a buffer. -/
def unpackUnsigned (data : Bytes) (offset width : ℕ) : ℕ :=
  decode ((data.drop offset).take width)

namespace PacketHeader

/-- `struct.pack(">IBBHQIQI", ...)`. -/
def pack (h : PacketHeader) : Except PacketError Bytes := do
  let version ← packUnsigned 1 h.version
  let flags ← packUnsigned 2 h.flags
  let messageId ← packUnsigned 8 h.messageId
  let payloadLength ← packUnsigned 4 h.payloadLength
  let timestamp ← packUnsigned 8 h.timestamp
  let crc32 ← packUnsigned 4 h.crc32
  return encode 4 magic ++ version ++ [h.packetType.value] ++ flags ++ messageId ++
    payloadLength ++ timestamp ++ crc32

def unpack (data : Bytes) : Except PacketError PacketHeader :=
  if data.length ≠ headerSize then .error (.headerSize data.length)
  else if unpackUnsigned data 0 4 ≠ magic then .error (.badMagic (unpackUnsigned data 0 4))
  else
    let packetType := data.getD 5 0
    match PacketType.ofValue? packetType with
    | none => .error (.unknownPacketType packetType)
    | some packetType => .ok
        { version := unpackUnsigned data 4 1
          packetType
          flags := unpackUnsigned data 6 2
          messageId := unpackUnsigned data 8 8
          payloadLength := unpackUnsigned data 16 4
          timestamp := unpackUnsigned data 20 8
          crc32 := unpackUnsigned data 28 4 }

end PacketHeader

theorem unpackUnsigned_append_of_le (pre post : Bytes) {offset width : ℕ}
    (h : pre.length ≤ offset) :
    unpackUnsigned (pre ++ post) offset width =
      unpackUnsigned post (offset - pre.length) width := by
  rw [unpackUnsigned, unpackUnsigned, List.drop_append, List.drop_of_length_le h, List.nil_append]

theorem unpackUnsigned_encode_append {width n : ℕ} (post : Bytes) (h : n < 256 ^ width) :
    unpackUnsigned (encode width n ++ post) 0 width = n := by
  rw [unpackUnsigned, List.drop_zero, List.take_left' (length_encode width n), decode_encode h]

theorem unpackUnsigned_encode {width n : ℕ} (h : n < 256 ^ width) :
    unpackUnsigned (encode width n) 0 width = n := by
  rw [← List.append_nil (encode width n), unpackUnsigned_encode_append [] h]

theorem unpackUnsigned_cons (b : UInt8) (bs : Bytes) (offset width : ℕ) :
    unpackUnsigned (b :: bs) (offset + 1) width = unpackUnsigned bs offset width := rfl

namespace PacketHeader

/-- The fields are in the ranges of their `struct` codes. -/
structure Fits (h : PacketHeader) : Prop where
  version : h.version < 256 ^ 1
  flags : h.flags < 256 ^ 2
  messageId : h.messageId < 256 ^ 8
  payloadLength : h.payloadLength < 256 ^ 4
  timestamp : h.timestamp < 256 ^ 8
  crc32 : h.crc32 < 256 ^ 4

theorem pack_eq_ok {h : PacketHeader} {bs : Bytes} (hpack : h.pack = .ok bs) :
    h.Fits ∧ bs = encode 4 magic ++ encode 1 h.version ++ [h.packetType.value] ++
      encode 2 h.flags ++ encode 8 h.messageId ++ encode 4 h.payloadLength ++
        encode 8 h.timestamp ++ encode 4 h.crc32 := by
  obtain ⟨_, h1, hpack⟩ := except_bind_eq_ok.mp hpack
  obtain ⟨_, h2, hpack⟩ := except_bind_eq_ok.mp hpack
  obtain ⟨_, h3, hpack⟩ := except_bind_eq_ok.mp hpack
  obtain ⟨_, h4, hpack⟩ := except_bind_eq_ok.mp hpack
  obtain ⟨_, h5, hpack⟩ := except_bind_eq_ok.mp hpack
  obtain ⟨_, h6, hpack⟩ := except_bind_eq_ok.mp hpack
  obtain ⟨hversion, rfl⟩ := packUnsigned_eq_ok.mp h1
  obtain ⟨hflags, rfl⟩ := packUnsigned_eq_ok.mp h2
  obtain ⟨hid, rfl⟩ := packUnsigned_eq_ok.mp h3
  obtain ⟨hlength, rfl⟩ := packUnsigned_eq_ok.mp h4
  obtain ⟨htime, rfl⟩ := packUnsigned_eq_ok.mp h5
  obtain ⟨hcrc, rfl⟩ := packUnsigned_eq_ok.mp h6
  cases hpack
  exact ⟨⟨hversion, hflags, hid, hlength, htime, hcrc⟩, rfl⟩

theorem Fits.exists_pack {h : PacketHeader} (hfits : h.Fits) : ∃ bs, h.pack = .ok bs := by
  have hpacked : ∀ {width n : ℕ}, n < 256 ^ width → packUnsigned width n = .ok (encode width n) :=
    fun hn ↦ packUnsigned_eq_ok.mpr ⟨hn, rfl⟩
  unfold pack
  rw [hpacked hfits.version, hpacked hfits.flags, hpacked hfits.messageId,
    hpacked hfits.payloadLength, hpacked hfits.timestamp, hpacked hfits.crc32]
  exact ⟨_, rfl⟩

theorem unpack_pack {h : PacketHeader} {bs : Bytes} (hpack : h.pack = .ok bs) :
    bs.length = headerSize ∧ unpack bs = .ok h := by
  obtain ⟨hfits, rfl⟩ := pack_eq_ok hpack
  have hmagic : magic < 256 ^ 4 := by decide
  constructor
  · simp [headerSize]
  · simp (disch := simp) [unpack, headerSize, unpackUnsigned_append_of_le, unpackUnsigned_cons,
      unpackUnsigned_encode_append _ hmagic, unpackUnsigned_encode_append _ hfits.version,
      unpackUnsigned_encode_append _ hfits.flags, unpackUnsigned_encode_append _ hfits.messageId,
      unpackUnsigned_encode_append _ hfits.payloadLength,
      unpackUnsigned_encode_append _ hfits.timestamp, unpackUnsigned_encode hfits.crc32,
      PacketType.ofValue?_value]

end PacketHeader

/-! ## CRC-32 -/

def crc32Shift (crc : UInt32) : UInt32 :=
  if crc &&& 1 = 1 then (crc >>> 1) ^^^ 0xEDB88320 else crc >>> 1

def crc32Byte (crc : UInt32) (b : UInt8) : UInt32 :=
  (List.range 8).foldl (fun crc _ ↦ crc32Shift crc) (crc ^^^ b.toUInt32)

/-- `zlib.crc32`. -/
def crc32 (bs : Bytes) : UInt32 := bs.foldl crc32Byte 0xFFFFFFFF ^^^ 0xFFFFFFFF

/-! ## Packets -/

/-- `msgpack.packb` and `msgpack.unpackb`, which raises on malformed input. -/
structure MsgPack (π : Type) where
  packb : π → Bytes
  unpackb : Bytes → Option π

structure Packet (π : Type) where
  header : PacketHeader
  payload : π

variable {π : Type} (msgpack : MsgPack π)

/-- The packet with the length and checksum of its payload. -/
def Packet.completed (packet : Packet π) : Packet π :=
  let payloadBytes := msgpack.packb packet.payload
  { packet with header := { packet.header with
      payloadLength := payloadBytes.length
      crc32 := (crc32 payloadBytes).toNat } }

def Packet.encode (packet : Packet π) : Except PacketError Bytes := do
  let header ← (packet.completed msgpack).header.pack
  return header ++ msgpack.packb packet.payload

def Packet.decode (data : Bytes) : Except PacketError (Packet π) := do
  let header ← PacketHeader.unpack (data.take headerSize)
  let payloadBytes := (data.drop headerSize).take header.payloadLength
  if payloadBytes.length ≠ header.payloadLength then
    throw (.payloadLength header.payloadLength payloadBytes.length)
  if (crc32 payloadBytes).toNat ≠ header.crc32 then throw .payloadCrc
  match msgpack.unpackb payloadBytes with
  | none => throw .unpack
  | some payload => return ⟨header, payload⟩

/-- `make_header`, with its reading of the clock. -/
def makeHeader (packetType : PacketType) (messageId : ℕ) (nowMs : ℕ) : PacketHeader where
  version := currentVersion
  packetType := packetType
  flags := 0
  messageId := messageId
  payloadLength := 0
  timestamp := nowMs
  crc32 := 0

theorem Packet.decode_encode {packet : Packet π} {bs : Bytes}
    (hround : msgpack.unpackb (msgpack.packb packet.payload) = some packet.payload)
    (h : packet.encode msgpack = .ok bs) : decode msgpack bs = .ok (packet.completed msgpack) := by
  obtain ⟨header, hpack, h⟩ := except_bind_eq_ok.mp h
  cases h
  obtain ⟨hlength, hunpack⟩ := PacketHeader.unpack_pack hpack
  rw [decode, List.take_left' hlength, hunpack, List.drop_left' hlength]
  simp [completed, bind, Except.bind, pure, Except.pure, hround]

end SecureSync
