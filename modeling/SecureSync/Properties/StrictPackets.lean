import SecureSync.Core.Payload
import SecureSync.Core.Protocol

/-!
# Strict packets

Which bytes `Packet.decode` takes for a packet, and with which exceptions it refuses the
others.
-/

namespace SecureSync

open BigEndian Raising

namespace Packet

/-! ## The fields of a packet -/

def announcedLength (data : Bytes) : ℕ := unpackUnsigned data 16 4

def announcedCrc (data : Bytes) : ℕ := unpackUnsigned data 28 4

def payloadBytes (data : Bytes) : Bytes := (data.drop headerSize).take (announcedLength data)

def HasHeader (data : Bytes) : Prop :=
  headerSize ≤ data.length ∧ unpackUnsigned data 0 4 = magic

def HasKnownType (data : Bytes) : Prop := (PacketType.ofValue? (data.getD 5 0)).isSome

/-- The whole payload is there, and has the checksum of the header. -/
def IsIntact (data : Bytes) : Prop :=
  headerSize + announcedLength data ≤ data.length ∧
    (crc32 (payloadBytes data)).toNat = announcedCrc data

variable (msgpack : MsgPack PyValue)

def DecodesToMap (data : Bytes) : Prop :=
  ∃ entries, msgpack.unpackb (payloadBytes data) = some (.dict entries)

/-- A packet and nothing after it. -/
structure WellFormed (data : Bytes) : Prop where
  hasHeader : HasHeader data
  length_eq : data.length = headerSize + announcedLength data
  hasKnownType : HasKnownType data
  crc_eq : (crc32 (payloadBytes data)).toNat = announcedCrc data
  decodesToMap : DecodesToMap msgpack data

/-- Well-formed packets are taken, and everything else is a `ProtocolError`. -/
def Strict (data : Bytes) : Prop :=
  ((∃ packet, decode msgpack data = .ok packet) ↔ WellFormed msgpack data) ∧
    (¬ WellFormed msgpack data →
      ∃ error, decode msgpack data = .error error ∧ error.isProtocolError = true)

/-- Behind a header there is a known packet type, and an intact payload is a map at the end
of the data. -/
def Handled (data : Bytes) : Prop :=
  HasHeader data → HasKnownType data ∧
    (IsIntact data → data.length = headerSize + announcedLength data ∧ DecodesToMap msgpack data)

/-! ## What is decoded -/

theorem unpackUnsigned_take {data : Bytes} {offset width n : ℕ} (h : offset + width ≤ n) :
    unpackUnsigned (data.take n) offset width = unpackUnsigned data offset width := by
  rw [unpackUnsigned, unpackUnsigned, List.drop_take, List.take_take, min_eq_left (by omega)]

theorem length_payloadBytes_eq_iff (data : Bytes) (h : headerSize ≤ data.length) :
    (payloadBytes data).length = announcedLength data ↔
      headerSize + announcedLength data ≤ data.length := by
  rw [payloadBytes, List.length_take, List.length_drop]
  omega

variable {msgpack} {data : Bytes}

theorem unpack_take_of_hasHeader (h : HasHeader data) :
    PacketHeader.unpack (data.take headerSize) =
      match PacketType.ofValue? (data.getD 5 0) with
      | none => .error (.unknownPacketType (data.getD 5 0))
      | some packetType => .ok
          { version := unpackUnsigned data 4 1
            packetType
            flags := unpackUnsigned data 6 2
            messageId := unpackUnsigned data 8 8
            payloadLength := announcedLength data
            timestamp := unpackUnsigned data 20 8
            crc32 := announcedCrc data } := by
  have htype : (data.take headerSize).getD 5 0 = data.getD 5 0 := by
    rw [List.getD_eq_getElem?_getD, List.getD_eq_getElem?_getD, List.getElem?_take]
    rfl
  have hlength : (data.take headerSize).length = headerSize := List.length_take_of_le h.1
  unfold PacketHeader.unpack
  rw [htype, unpackUnsigned_take (by decide), unpackUnsigned_take (by decide),
    unpackUnsigned_take (by decide), unpackUnsigned_take (by decide),
    unpackUnsigned_take (by decide), unpackUnsigned_take (by decide),
    unpackUnsigned_take (by decide), if_neg (not_not.mpr hlength), if_neg (not_not.mpr h.2)]
  rfl

theorem decode_of_not_hasHeader (h : ¬ HasHeader data) :
    ∃ error, decode msgpack data = .error error ∧ error.isProtocolError = true := by
  by_cases hlength : headerSize ≤ data.length
  · have hmagic : unpackUnsigned data 0 4 ≠ magic := fun heq ↦ h ⟨hlength, heq⟩
    refine ⟨.badMagic (unpackUnsigned data 0 4), ?_, rfl⟩
    rw [decode, PacketHeader.unpack, if_neg, unpackUnsigned_take (by decide), if_pos hmagic]
    · rfl
    · exact not_not.mpr (List.length_take_of_le hlength)
  · refine ⟨.headerSize (data.take headerSize).length, ?_, rfl⟩
    rw [decode, PacketHeader.unpack, if_pos]
    · rfl
    · rw [List.length_take]
      omega

theorem decode_of_unknown_type (h : HasHeader data) (htype : ¬ HasKnownType data) :
    decode msgpack data = .error (.unknownPacketType (data.getD 5 0)) := by
  have hnone : PacketType.ofValue? (data.getD 5 0) = none := by
    simpa [HasKnownType] using htype
  rw [decode, unpack_take_of_hasHeader h, hnone]
  rfl

theorem decode_of_not_isIntact (h : HasHeader data) (htype : HasKnownType data)
    (hintact : ¬ IsIntact data) :
    ∃ error, decode msgpack data = .error error ∧ error.isProtocolError = true := by
  obtain ⟨packetType, hsome⟩ := Option.isSome_iff_exists.mp htype
  rw [decode, unpack_take_of_hasHeader h, hsome]
  by_cases hlength : (payloadBytes data).length = announcedLength data
  · have hcrc : (crc32 (payloadBytes data)).toNat ≠ announcedCrc data := fun heq ↦
      hintact ⟨(length_payloadBytes_eq_iff data h.1).mp hlength, heq⟩
    refine ⟨.payloadCrc, ?_, rfl⟩
    unfold payloadBytes at hlength hcrc
    simp [hlength, hcrc, bind, Except.bind, throw, throwThe, MonadExceptOf.throw,
      -List.length_take]
  · refine ⟨.payloadLength (announcedLength data) (payloadBytes data).length, ?_, rfl⟩
    unfold payloadBytes at hlength ⊢
    simp [hlength, bind, Except.bind, throw, throwThe, MonadExceptOf.throw, -List.length_take]

/-- Nothing is asked of what follows the payload, or of the kind of value it is. -/
theorem decode_of_isIntact (h : HasHeader data) (htype : HasKnownType data)
    (hintact : IsIntact data) :
    decode msgpack data = match msgpack.unpackb (payloadBytes data) with
      | none => .error .unpack
      | some payload => (PacketHeader.unpack (data.take headerSize)).map fun header ↦
          ⟨header, payload⟩ := by
  obtain ⟨packetType, hsome⟩ := Option.isSome_iff_exists.mp htype
  have hlength := (length_payloadBytes_eq_iff data h.1).mpr hintact.1
  have hcrc := hintact.2
  unfold payloadBytes at hlength hcrc ⊢
  rw [decode, unpack_take_of_hasHeader h, hsome]
  cases hunpack : msgpack.unpackb ((data.drop headerSize).take (announcedLength data)) <;>
    simp [hlength, hcrc, hunpack, bind, Except.bind, pure, Except.pure, throw, throwThe,
      MonadExceptOf.throw, Except.map, -List.length_take]

theorem exists_decode_iff (h : HasHeader data) (htype : HasKnownType data)
    (hintact : IsIntact data) :
    (∃ packet, decode msgpack data = .ok packet) ↔
      ∃ payload, msgpack.unpackb (payloadBytes data) = some payload := by
  obtain ⟨packetType, hsome⟩ := Option.isSome_iff_exists.mp htype
  rw [decode_of_isIntact h htype hintact, unpack_take_of_hasHeader h, hsome]
  cases msgpack.unpackb (payloadBytes data) <;> simp [Except.map]

theorem strict_of_refused (h : ∃ error, decode msgpack data = .error error ∧
    error.isProtocolError = true) (hnot : ¬ WellFormed msgpack data) : Strict msgpack data := by
  refine ⟨⟨?_, fun hwell ↦ absurd hwell hnot⟩, fun _ ↦ h⟩
  rintro ⟨packet, hpacket⟩
  obtain ⟨error, herror, -⟩ := h
  rw [herror] at hpacket
  cases hpacket

theorem strict_iff_handled : Strict msgpack data ↔ Handled msgpack data := by
  by_cases hheader : HasHeader data
  swap
  · refine iff_of_true ?_ fun h ↦ absurd h hheader
    exact strict_of_refused (decode_of_not_hasHeader hheader) fun h ↦ hheader h.hasHeader
  by_cases htype : HasKnownType data
  swap
  · refine iff_of_false ?_ fun h ↦ htype (h hheader).1
    rintro ⟨-, hrefused⟩
    obtain ⟨error, herror, hprotocol⟩ := hrefused fun h ↦ htype h.hasKnownType
    rw [decode_of_unknown_type hheader htype] at herror
    cases herror
    cases hprotocol
  by_cases hintact : IsIntact data
  swap
  · refine iff_of_true ?_ fun _ ↦ ⟨htype, fun h ↦ absurd h hintact⟩
    apply strict_of_refused (decode_of_not_isIntact hheader htype hintact)
    exact fun h ↦ hintact ⟨h.length_eq.ge, h.crc_eq⟩
  have hreturns : (∃ packet, decode msgpack data = .ok packet) ↔
      ∃ payload, msgpack.unpackb (payloadBytes data) = some payload :=
    exists_decode_iff hheader htype hintact
  constructor
  · rintro ⟨hwell, hrefused⟩ -
    refine ⟨htype, fun _ ↦ ?_⟩
    -- A payload that does not decode raises an exception of msgpack's own.
    by_cases hunpack : ∃ payload, msgpack.unpackb (payloadBytes data) = some payload
    · have hpacket := hwell.mp (hreturns.mpr hunpack)
      exact ⟨hpacket.length_eq, hpacket.decodesToMap⟩
    · exfalso
      have hnone : msgpack.unpackb (payloadBytes data) = none := by
        simpa [Option.eq_none_iff_forall_ne_some] using hunpack
      obtain ⟨error, herror, hprotocol⟩ := hrefused fun h ↦
        hunpack (hreturns.mp (hwell.mpr h))
      rw [decode_of_isIntact hheader htype hintact, hnone] at herror
      cases herror
      cases hprotocol
  · intro h
    obtain ⟨hlength, hmap⟩ := (h hheader).2 hintact
    have hpacket : WellFormed msgpack data := ⟨hheader, hlength, htype, hintact.2, hmap⟩
    obtain ⟨entries, hentries⟩ := hmap
    exact ⟨iff_of_true (hreturns.mpr ⟨_, hentries⟩) hpacket, fun hnot ↦ absurd hpacket hnot⟩

/-- Decoding is strict on exactly the bytes that, if they begin with a header, name a known
packet type, and end with their payload, a map, if it is intact.  What was encoded is
decoded again. -/
theorem decode_strict_iff (msgpack : MsgPack PyValue) :
    (∀ data, Strict msgpack data ↔ Handled msgpack data) ∧
    ∀ packet : Packet PyValue, (packet.completed msgpack).header.Fits →
      msgpack.unpackb (msgpack.packb packet.payload) = some packet.payload →
      ∃ data decoded, packet.encode msgpack = .ok data ∧ decode msgpack data = .ok decoded ∧
        decoded.header.packetType = packet.header.packetType ∧
        decoded.header.flags = packet.header.flags ∧
        decoded.header.messageId = packet.header.messageId ∧
        decoded.header.timestamp = packet.header.timestamp ∧
        decoded.payload = packet.payload := by
  refine ⟨fun data ↦ strict_iff_handled, fun packet hfits hround ↦ ?_⟩
  obtain ⟨header, hheader⟩ := hfits.exists_pack
  have hencode : packet.encode msgpack = .ok (header ++ msgpack.packb packet.payload) := by
    rw [encode, hheader]
    rfl
  exact ⟨_, _, hencode, decode_encode msgpack hround hencode, rfl, rfl, rfl, rfl, rfl⟩

/-- MessagePack on single bytes: an empty map, `None`, and a code that is never used. -/
def onebytePack : MsgPack PyValue where
  packb _ := [0x80]
  unpackb data := if data = [0x80] then some (.dict []) else if data = [0xc0] then some .none
    else none

theorem decode_strict_iff_hello :
    ∃ data decoded,
      encode onebytePack ⟨makeHeader .hello 7 1700000000000, .dict []⟩ = .ok data ∧
      decode onebytePack data = .ok decoded ∧ decoded.header.packetType = .hello ∧
      decoded.header.flags = 0 ∧ decoded.header.messageId = 7 ∧
      decoded.header.timestamp = 1700000000000 ∧ decoded.payload = .dict [] :=
  (decode_strict_iff onebytePack).2 ⟨makeHeader .hello 7 1700000000000, .dict []⟩
    ⟨by decide, by decide, by decide, by decide, by decide, by decide⟩ rfl

/-- A packet of this type around these bytes. -/
def packetAround (packetType : UInt8) (payload : Bytes) : Bytes :=
  BigEndian.encode 4 magic ++ [2, packetType, 0, 0] ++ BigEndian.encode 8 7 ++
    BigEndian.encode 4 payload.length ++ BigEndian.encode 8 0 ++
      BigEndian.encode 4 (crc32 payload).toNat ++ payload

/-- An unknown packet type, a payload that is malformed or no map, and a byte too many. -/
theorem decode_not_strict :
    ¬ Strict onebytePack (packetAround 0x42 [0x80]) ∧
    ¬ Strict onebytePack (packetAround 0x01 [0xc1]) ∧
    ¬ Strict onebytePack (packetAround 0x01 [0xc0]) ∧
    ¬ Strict onebytePack (packetAround 0x01 [0x80] ++ [0]) := by
  simp only [strict_iff_handled]
  refine ⟨fun h ↦ ?_, fun h ↦ ?_, fun h ↦ ?_, fun h ↦ ?_⟩
  · have htype := (h ⟨by decide, by decide⟩).1
    revert htype
    unfold HasKnownType
    decide
  · obtain ⟨-, entries, hmap⟩ := (h ⟨by decide, by decide⟩).2 ⟨by decide, by decide⟩
    have hpayload : payloadBytes (packetAround 0x01 [0xc1]) = [0xc1] := by decide
    rw [hpayload] at hmap
    cases hmap
  · obtain ⟨-, entries, hmap⟩ := (h ⟨by decide, by decide⟩).2 ⟨by decide, by decide⟩
    have hpayload : payloadBytes (packetAround 0x01 [0xc0]) = [0xc0] := by decide
    rw [hpayload] at hmap
    cases hmap
  · have hlength := ((h ⟨by decide, by decide⟩).2 ⟨by decide, by decide⟩).1
    revert hlength
    decide

end Packet
end SecureSync
