import SecureSync.Infrastructure.HandshakeMessages
import SecureSync.Library.Codec

/-!
# The codecs of the handshake messages

Each message has one encoding, and the decoders tell in what way other bytes fail.
-/

namespace SecureSync

open Raising Codec

/-! ## What the decoders raise -/

/-- A version mismatch is told apart from other defects. -/
def MessageError.Explains (data : Bytes) : MessageError → Prop
  | .decode _ | .validation _ => True
  | .unsupportedVersion version =>
      ∃ v msgType rest, data = v :: msgType :: rest ∧ v ≠ 3 ∧ v.toNat = version
  | .lowOrderPoint _ => False

/-- So is a degenerate key, where the message has one. -/
def MessageError.ExplainsKey (data : Bytes) (e : MessageError) : Prop :=
  e.Explains data ∨
    e = .lowOrderPoint .publicKey ∧ (data.drop 2).take x25519KeySize ∈ lowOrderPoints

section Raises

variable {data : Bytes} {msgType : UInt8} {side : String}

theorem validateMsgType_raises :
    ExceptRaises (MessageError.Explains data) (validateMsgType data msgType) := by
  unfold validateMsgType
  split
  · rename_i version actual rest
    refine (exceptRaises_require fun hversion ↦ ?_).bind fun _ _ ↦
      (exceptRaises_require fun _ ↦ trivial).bind fun _ _ ↦ exceptRaises_ok _
    refine ⟨version, actual, rest, rfl, ?_, rfl⟩
    rintro rfl
    exact hversion rfl
  · exact exceptRaises_error trivial

/-- The other steps raise nothing but the errors of the base class. -/
theorem takeBytes_raises {bs : Bytes} {size : ℕ} {field : String} :
    ExceptRaises (MessageError.Explains data) (takeBytes bs size field) :=
  (exceptRaises_require fun _ ↦ trivial).bind fun _ _ ↦ exceptRaises_ok _

theorem takeU16_raises {bs : Bytes} {field : String} :
    ExceptRaises (MessageError.Explains data) (takeU16 bs field) :=
  takeBytes_raises.bind fun _ _ ↦ exceptRaises_ok _

theorem decodeDeviceId_raises {raw : Bytes} :
    ExceptRaises (MessageError.Explains data) (decodeDeviceId raw) := by
  unfold decodeDeviceId
  split
  · exact exceptRaises_error trivial
  · refine ExceptRaises.bind ?_ fun _ _ ↦ exceptRaises_ok _
    refine (exceptRaises_require fun _ ↦ trivial).bind fun _ _ ↦ ?_
    exact (exceptRaises_require fun _ ↦ trivial).bind fun _ _ ↦
      exceptRaises_require fun _ ↦ trivial

theorem decodeFields_raises :
    ExceptRaises (MessageError.Explains data) (decodeFields msgType side data) := by
  unfold decodeFields
  refine validateMsgType_raises.bind fun _ _ ↦ ?_
  refine takeBytes_raises.bind fun _ _ ↦ ?_
  refine takeBytes_raises.bind fun _ _ ↦ ?_
  refine takeU16_raises.bind fun _ _ ↦ ?_
  refine (exceptRaises_require fun _ ↦ trivial).bind fun _ _ ↦ ?_
  refine takeBytes_raises.bind fun _ _ ↦ ?_
  refine decodeDeviceId_raises.bind fun _ _ ↦ ?_
  refine takeBytes_raises.bind fun _ _ ↦ ?_
  refine takeU16_raises.bind fun _ _ ↦ ?_
  exact takeU16_raises.bind fun _ _ ↦ exceptRaises_ok _

theorem checkPublicKey_raises {publicKey : Bytes} (hlength : publicKey.length = x25519KeySize) :
    ExceptRaises (fun e ↦ e = .publicKey ∧ publicKey ∈ lowOrderPoints)
      (checkPublicKey publicKey) := by
  unfold checkPublicKey
  refine (exceptRaises_require fun hne ↦ (hne hlength).elim).bind fun _ _ ↦ ?_
  exact exceptRaises_require fun hlow ↦ ⟨rfl, not_not.mp hlow⟩

theorem checkFields_raises {message : String} {fields : HandshakeFields} {rest rest' : Bytes}
    (hfields : decodeFields msgType side data = .ok (fields, rest')) :
    ExceptRaises (MessageError.ExplainsKey data) (checkFields message side rest fields) := by
  obtain ⟨hreadable, hdata⟩ := decodeFields_eq_ok.mp hfields
  unfold checkFields validatePort
  refine (exceptRaises_require fun _ ↦ .inl trivial).bind fun _ _ ↦ ?_
  refine (exceptRaises_require fun _ ↦ .inl trivial).bind fun _ _ ↦ ?_
  refine (exceptRaises_require fun _ ↦ .inl trivial).bind fun _ _ ↦ ?_
  intro e he
  obtain ⟨error, herror, rfl⟩ := except_mapError_eq_error.mp he
  obtain ⟨rfl, hlow⟩ := checkPublicKey_raises hreadable.ephemeral error herror
  refine .inr ⟨rfl, ?_⟩
  have hephemeral : (data.drop 2).take x25519KeySize = fields.ephemeral := by
    rw [hdata, ← hreadable.ephemeral]
    simp only [HandshakeFields.layout, List.drop_succ_cons, List.drop_zero, List.append_assoc,
      List.take_left]
  rw [hephemeral]
  exact hlow

theorem decodeHello_raises : ExceptRaises (MessageError.ExplainsKey data) (decodeHello data) := by
  unfold decodeHello
  refine (decodeFields_raises.mono fun _ ↦ .inl).bind fun fields hfields ↦ ?_
  exact (checkFields_raises hfields).bind fun _ _ ↦ exceptRaises_ok _

theorem decodeReply_raises : ExceptRaises (MessageError.ExplainsKey data) (decodeReply data) := by
  unfold decodeReply
  refine (decodeFields_raises.mono fun _ ↦ .inl).bind fun fields hfields ↦ ?_
  refine (takeBytes_raises.mono fun _ ↦ .inl).bind fun _ _ ↦ ?_
  refine (takeBytes_raises.mono fun _ ↦ .inl).bind fun _ _ ↦ ?_
  exact (checkFields_raises hfields).bind fun _ _ ↦ exceptRaises_ok _

theorem decodeConfirm_raises : ExceptRaises (MessageError.Explains data) (decodeConfirm data) := by
  unfold decodeConfirm
  refine validateMsgType_raises.bind fun _ _ ↦ ?_
  refine takeBytes_raises.bind fun _ _ ↦ takeBytes_raises.bind fun _ _ ↦ ?_
  exact (exceptRaises_require fun _ ↦ trivial).bind fun _ _ ↦ exceptRaises_ok _

theorem decodeFinal_raises : ExceptRaises (MessageError.Explains data) (decodeFinal data) := by
  unfold decodeFinal
  refine validateMsgType_raises.bind fun _ _ ↦ ?_
  refine takeBytes_raises.bind fun _ _ ↦ ?_
  refine (exceptRaises_require fun _ ↦ trivial).bind fun _ _ ↦ takeBytes_raises.bind fun _ _ ↦ ?_
  exact (exceptRaises_require fun _ ↦ trivial).bind fun _ _ ↦ exceptRaises_ok _

end Raises

/-! ## Both directions -/

/-- The arguments that encode a message again. -/
def HelloMessage.args (hello : HelloMessage) : HandshakeFields × ℕ :=
  (hello.toHandshakeFields, hello.version.toNat)

def ReplyMessage.args (reply : ReplyMessage) : HandshakeFields × Bytes × Bytes × ℕ :=
  (reply.toHandshakeFields, reply.sigR, reply.macR, reply.version.toNat)

def ConfirmMessage.args (confirm : ConfirmMessage) : Bytes × Bytes × ℕ :=
  (confirm.sigI, confirm.macI, confirm.version.toNat)

def FinalMessage.args (final : FinalMessage) : UInt8 × Bytes × ℕ :=
  (final.status, final.macF, final.version.toNat)

theorem version_of_encodeFields {msgType : UInt8} {ephemeralName nonceName : String}
    {fields : HandshakeFields} {version : ℕ} {bs : Bytes}
    (h : encodeFields msgType ephemeralName nonceName fields version = .ok bs) :
    version = handshakeVersion := by
  obtain ⟨u, hversion, -⟩ := except_bind_eq_ok.mp h
  exact require_eq_ok.mp hversion

theorem helloCodec_exact :
    Exact (fun args ↦ encodeHello args.1 args.2) (fun args ↦ args.1.ephemeral ∉ lowOrderPoints)
      decodeHello HelloMessage.args MessageError.ExplainsKey := by
  apply exact_of_roundTrips
  · rintro ⟨fields, version⟩ bs hencode hlow
    obtain rfl := version_of_encodeFields hencode
    obtain ⟨hwell, rfl⟩ := encodeHello_eq_ok.mp hencode
    exact ⟨⟨fields, 3, _⟩, decodeHello_eq_ok.mpr ⟨⟨hwell, hlow, rfl, rfl⟩, rfl⟩, rfl⟩
  · intro bs hello hdecode
    obtain ⟨h, rfl⟩ := decodeHello_eq_ok.mp hdecode
    refine ⟨?_, h.not_lowOrder⟩
    rw [HelloMessage.args, h.version_eq, h.raw_eq]
    exact encodeHello_eq_ok.mpr ⟨h.toWellFormed, rfl⟩
  · exact fun _ ↦ decodeHello_raises

theorem replyCodec_exact :
    Exact (fun args ↦ encodeReply args.1 args.2.1 args.2.2.1 args.2.2.2)
      (fun args ↦ args.1.ephemeral ∉ lowOrderPoints) decodeReply ReplyMessage.args
      MessageError.ExplainsKey := by
  apply exact_of_roundTrips
  · rintro ⟨fields, sigR, macR, version⟩ bs hencode hlow
    have hversion : version = handshakeVersion := by
      simp only [encodeReply, except_bind_eq_ok] at hencode
      obtain ⟨-, -, -, -, body, hbody, -⟩ := hencode
      exact version_of_encodeFields hbody
    obtain rfl := hversion
    obtain ⟨hsig, hmac, hwell, rfl⟩ := encodeReply_eq_ok.mp hencode
    exact ⟨⟨fields, 3, sigR, macR, _, _⟩,
      decodeReply_eq_ok.mpr ⟨⟨hwell, hlow, rfl, hsig, hmac, rfl, rfl⟩, rfl⟩, rfl⟩
  · intro bs reply hdecode
    obtain ⟨h, rfl⟩ := decodeReply_eq_ok.mp hdecode
    refine ⟨?_, h.not_lowOrder⟩
    rw [ReplyMessage.args, h.version_eq, h.raw_eq, h.body_eq]
    exact encodeReply_eq_ok.mpr ⟨h.length_sigR, h.length_macR, h.toWellFormed, rfl⟩
  · exact fun _ ↦ decodeReply_raises

theorem confirmCodec_exact :
    Exact (fun args ↦ encodeConfirm args.1 args.2.1 args.2.2) (fun _ ↦ True) decodeConfirm
      ConfirmMessage.args MessageError.Explains := by
  apply exact_of_roundTrips
  · rintro ⟨sigI, macI, version⟩ bs hencode -
    obtain ⟨u, hversion, -⟩ := except_bind_eq_ok.mp hencode
    obtain rfl : version = handshakeVersion := require_eq_ok.mp hversion
    obtain ⟨hsig, hmac, rfl⟩ := encodeConfirm_eq_ok.mp hencode
    exact ⟨⟨3, sigI, macI, _⟩, decodeConfirm_eq_ok.mpr ⟨⟨rfl, hsig, hmac, rfl⟩, rfl⟩, rfl⟩
  · intro bs confirm hdecode
    obtain ⟨h, rfl⟩ := decodeConfirm_eq_ok.mp hdecode
    refine ⟨?_, trivial⟩
    rw [ConfirmMessage.args, h.version_eq, h.raw_eq]
    exact encodeConfirm_eq_ok.mpr ⟨h.length_sigI, h.length_macI, rfl⟩
  · exact fun _ ↦ decodeConfirm_raises

theorem finalCodec_exact :
    Exact (fun args ↦ encodeFinal args.1 args.2.1 args.2.2) (fun _ ↦ True) decodeFinal
      FinalMessage.args MessageError.Explains := by
  apply exact_of_roundTrips
  · rintro ⟨status, macF, version⟩ bs hencode -
    obtain ⟨u, hversion, -⟩ := except_bind_eq_ok.mp hencode
    obtain rfl : version = handshakeVersion := require_eq_ok.mp hversion
    obtain ⟨hstatus, hmac, rfl⟩ := encodeFinal_eq_ok.mp hencode
    exact ⟨⟨3, status, macF, _⟩, decodeFinal_eq_ok.mpr ⟨⟨rfl, hstatus, hmac, rfl⟩, rfl⟩, rfl⟩
  · intro bs final hdecode
    obtain ⟨h, rfl⟩ := decodeFinal_eq_ok.mp hdecode
    refine ⟨?_, trivial⟩
    rw [FinalMessage.args, h.version_eq, h.raw_eq]
    exact encodeFinal_eq_ok.mpr ⟨h.status_eq, h.length_macF, rfl⟩
  · exact fun _ ↦ decodeFinal_raises

theorem encodeReplyBody_of_decodeReply {data : Bytes} {reply : ReplyMessage}
    (h : decodeReply data = .ok reply) :
    encodeReplyBody reply.toHandshakeFields reply.version.toNat = .ok reply.body := by
  obtain ⟨hvalid, -⟩ := decodeReply_eq_ok.mp h
  rw [hvalid.version_eq, hvalid.body_eq]
  exact encodeReplyBody_eq_ok.mpr ⟨hvalid.toWellFormed, rfl⟩

/-- The four codecs are exact, and the body of a decoded reply is the encoding of
its fields. -/
theorem handshake_codecs_exact :
    Exact (fun args ↦ encodeHello args.1 args.2) (fun args ↦ args.1.ephemeral ∉ lowOrderPoints)
        decodeHello HelloMessage.args MessageError.ExplainsKey ∧
      Exact (fun args ↦ encodeReply args.1 args.2.1 args.2.2.1 args.2.2.2)
          (fun args ↦ args.1.ephemeral ∉ lowOrderPoints) decodeReply ReplyMessage.args
          MessageError.ExplainsKey ∧
        Exact (fun args ↦ encodeConfirm args.1 args.2.1 args.2.2) (fun _ ↦ True) decodeConfirm
            ConfirmMessage.args MessageError.Explains ∧
          Exact (fun args ↦ encodeFinal args.1 args.2.1 args.2.2) (fun _ ↦ True) decodeFinal
              FinalMessage.args MessageError.Explains ∧
            ∀ data reply, decodeReply data = .ok reply →
              encodeReplyBody reply.toHandshakeFields reply.version.toNat = .ok reply.body :=
  ⟨helloCodec_exact, replyCodec_exact, confirmCodec_exact, finalCodec_exact,
    fun _ _ ↦ encodeReplyBody_of_decodeReply⟩

end SecureSync
