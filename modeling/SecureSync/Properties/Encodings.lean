import SecureSync.HandshakeV3.System

/-!
# What the encodings tell apart

Frames, associated data and the key schedule concatenate fixed-width fields,
length-prefixed fields and raw ones.  Nothing is lost on the way: a frame is
read back as it was written, two sets of arguments have different associated
data, and two contexts have different inputs to HKDF.
-/

namespace SecureSync

open BigEndian Raising

/-- `n & 0xFF`. -/
def maskByte (n : ℤ) : UInt8 := UInt8.ofNat (n % 256).toNat

/-- A number that one byte holds. -/
def FitsByte (n : ℤ) : Prop := 0 ≤ n ∧ n < 256

instance (n : ℤ) : Decidable (FitsByte n) := inferInstanceAs (Decidable (0 ≤ n ∧ n < 256))

theorem toNat_maskByte {n : ℤ} (h : FitsByte n) : ((maskByte n).toNat : ℤ) = n := by
  obtain ⟨hpos, hlt⟩ := h
  have hmod : n % 256 = n := Int.emod_eq_of_lt hpos hlt
  have hnat : n.toNat % 2 ^ 8 = n.toNat := Nat.mod_eq_of_lt (by omega)
  rw [maskByte, hmod, UInt8.toNat_ofNat', hnat, Int.toNat_of_nonneg hpos]

theorem maskByte_inj {m n : ℤ} (hm : FitsByte m) (hn : FitsByte n)
    (h : maskByte m = maskByte n) : m = n := by
  rw [← toNat_maskByte hm, h, toNat_maskByte hn]

@[simp] theorem maskByte_toNat (b : UInt8) : maskByte b.toNat = b := by
  have hlt : b.toNat < 256 := b.toNat_lt
  rw [maskByte, Int.emod_eq_of_lt (by omega) (by omega), Int.toNat_natCast, UInt8.ofNat_toNat]

/-! ## Frames -/

/-- The arguments of `encode_frame`, and what `split_frame` returns. -/
structure FrameFields where
  version : ℤ
  direction : ℤ
  packetType : ℤ
  sessionId : Bytes
  nonce : Bytes
  ciphertext : Bytes
  tag : Bytes
  deriving DecidableEq

namespace FrameFields

structure Fits (fields : FrameFields) : Prop where
  version : FitsByte fields.version
  direction : FitsByte fields.direction
  packetType : FitsByte fields.packetType
  sessionId : fields.sessionId.length = sessionIdSize
  nonce : fields.nonce.length = nonceSize
  tag : fields.tag.length = tagSize

def header (fields : FrameFields) : FrameHeader where
  version := maskByte fields.version
  direction := maskByte fields.direction
  packetType := maskByte fields.packetType
  sessionId := fields.sessionId

def payload (fields : FrameFields) : EncryptedPayload where
  ciphertext := fields.ciphertext
  nonce := fields.nonce
  tag := fields.tag

/-- `encode_frame`, with the header bytes as the integers that the caller passes. -/
def encode (fields : FrameFields) : Except ReplayProtectionError Bytes :=
  encodeFrame fields.header fields.payload

def ofParts (parts : FrameHeader × EncryptedPayload) : FrameFields where
  version := parts.1.version.toNat
  direction := parts.1.direction.toNat
  packetType := parts.1.packetType.toNat
  sessionId := parts.1.sessionId
  nonce := parts.2.nonce
  ciphertext := parts.2.ciphertext
  tag := parts.2.tag

/-- `split_frame`. -/
def split (data : Bytes) : Except ReplayProtectionError FrameFields :=
  (splitFrame data).map ofParts

variable {fields : FrameFields}

theorem ofParts_parts (h : fields.Fits) : ofParts (fields.header, fields.payload) = fields := by
  simp only [ofParts, header, payload, toNat_maskByte h.version, toNat_maskByte h.direction,
    toNat_maskByte h.packetType]

@[simp] theorem header_ofParts (parts : FrameHeader × EncryptedPayload) :
    (ofParts parts).header = parts.1 := by
  simp only [header, ofParts, maskByte_toNat]

@[simp] theorem payload_ofParts (parts : FrameHeader × EncryptedPayload) :
    (ofParts parts).payload = parts.2 := rfl

theorem exists_encode (h : fields.Fits) : ∃ frame, fields.encode = .ok frame :=
  ⟨_, encodeFrame_eq_ok.mpr ⟨h.sessionId, h.nonce, h.tag, rfl⟩⟩

theorem split_of_encode (h : fields.Fits) {frame : Bytes} (hencode : fields.encode = .ok frame) :
    split frame = .ok fields := by
  rw [split, splitFrame_encodeFrame hencode]
  exact congrArg Except.ok (ofParts_parts h)

theorem exists_split {frame : Bytes} (h : minFrameSize ≤ frame.length) :
    ∃ fields, split frame = .ok fields := by
  rw [split, splitFrame, if_neg (Nat.not_lt.mpr h)]
  exact ⟨_, rfl⟩

theorem encode_of_split {frame : Bytes} (h : split frame = .ok fields) :
    fields.encode = .ok frame := by
  cases hsplit : splitFrame frame with
  | error e =>
      rw [split, hsplit] at h
      cases h
  | ok parts =>
      rw [split, hsplit] at h
      obtain rfl : ofParts parts = fields := Except.ok.inj h
      rw [encode, header_ofParts, payload_ofParts]
      exact encodeFrame_splitFrame hsplit

end FrameFields

/-! ## Associated data -/

/-- The arguments of `build_aad`. -/
structure AadFields where
  version : ℤ
  direction : ℤ
  packetType : ℤ
  sessionId : Bytes
  senderId : Bytes
  receiverId : Bytes
  deriving DecidableEq

namespace AadFields

structure Fits (fields : AadFields) : Prop where
  version : FitsByte fields.version
  direction : FitsByte fields.direction
  packetType : FitsByte fields.packetType
  sessionId : fields.sessionId.length = sessionIdSize
  senderId : fields.senderId.length ≤ 65535
  receiverId : fields.receiverId.length ≤ 65535

/-- `build_aad`. -/
def build (fields : AadFields) : Except PacketError Bytes :=
  buildAad ⟨maskByte fields.version, maskByte fields.direction, maskByte fields.packetType,
    fields.sessionId⟩ fields.senderId fields.receiverId

variable {fields other : AadFields}

theorem exists_build (h : fields.Fits) : ∃ aad, fields.build = .ok aad :=
  ⟨_, buildAad_eq_ok.mpr
    ⟨Nat.lt_succ_of_le h.senderId, Nat.lt_succ_of_le h.receiverId, rfl⟩⟩

/-- The session id has no prefix; its fixed width keeps it apart from the identities. -/
theorem build_inj (h : fields.Fits) (h' : other.Fits) (heq : fields.build = other.build) :
    fields = other := by
  obtain ⟨aad, hbuild⟩ := exists_build h
  obtain ⟨hsender, hreceiver, hbytes⟩ := buildAad_eq_ok.mp hbuild
  obtain ⟨hsender', hreceiver', hbytes'⟩ := buildAad_eq_ok.mp (heq ▸ hbuild)
  rw [← hbytes'] at hbytes
  simp only [List.cons.injEq, List.append_assoc] at hbytes
  obtain ⟨hversion, hdirection, hpacketType, hrest⟩ := hbytes
  obtain ⟨hsession, hrest⟩ := List.append_inj hrest (h.sessionId.trans h'.sessionId.symm)
  obtain ⟨hsenderId, hrest⟩ := lengthPrefixed_append_inj hsender hsender' hrest
  have hreceiverId := lengthPrefixed_inj hreceiver hreceiver' hrest
  obtain ⟨version, direction, packetType, sessionId, senderId, receiverId⟩ := fields
  obtain ⟨version', direction', packetType', sessionId', senderId', receiverId'⟩ := other
  rw [AadFields.mk.injEq]
  exact ⟨maskByte_inj h.version h'.version hversion,
    maskByte_inj h.direction h'.direction hdirection,
    maskByte_inj h.packetType h'.packetType hpacketType, hsession, hsenderId, hreceiverId⟩

end AadFields

/-! ## Directional keys -/

/-- What one directional key is bound to; the direction is that in which
`direction` sends. -/
structure KeyContext where
  direction : Role
  initiatorId : DeviceId
  responderId : DeviceId
  sessionId : Bytes
  initiatorEphemeralPub : Bytes
  responderEphemeralPub : Bytes
  deriving DecidableEq

def Role.label : Role → Bytes
  | .initiator => i2rInfo
  | .responder => r2iInfo

theorem Role.length_label_lt (role : Role) : role.label.length < 65536 := by
  cases role <;> decide +kernel

theorem Role.label_injective : Function.Injective label := by
  intro role role' h
  cases role <;> cases role' <;> first | rfl | exact absurd h (by decide +kernel)

namespace KeyContext

/-- The shared secret and the salt play no part in it. -/
def material (context : KeyContext) : KeyMaterial where
  sharedSecret := []
  salt := []
  initiatorId := context.initiatorId
  responderId := context.responderId
  initiatorEphemeralPub := context.initiatorEphemeralPub
  responderEphemeralPub := context.responderEphemeralPub

/-- The call of HKDF that `derive_directional_keys` makes for the direction. -/
def call (context : KeyContext) (master : Bytes) : Except KeyScheduleError HkdfCall :=
  context.material.directionalCall master context.sessionId context.direction.label

/-- What `derive_directional_keys` returns for the direction. -/
def key (context : KeyContext) (hkdf : Hkdf) (master : Bytes) : Except KeyScheduleError Bytes := do
  let keys ← context.material.deriveDirectionalKeys hkdf master context.sessionId
  return match context.direction with
    | .initiator => keys.1
    | .responder => keys.2

structure Fits (context : KeyContext) : Prop where
  initiatorId : (utf8 context.initiatorId).length ≤ 65535
  responderId : (utf8 context.responderId).length ≤ 65535
  sessionId : context.sessionId.length = sessionIdSize
  initiatorPub : context.initiatorEphemeralPub.length ≤ 65535
  responderPub : context.responderEphemeralPub.length ≤ 65535

def info (context : KeyContext) : Bytes :=
  lengthPrefixed context.direction.label ++ context.material.context context.sessionId

variable {context other : KeyContext} {master master' : Bytes} {hkdf : Hkdf}

theorem call_run (h : context.Fits) (master : Bytes) :
    context.call master = .ok ⟨master, [], context.info, keySize⟩ := by
  have hexists : ∃ call, context.call master = .ok call :=
    directionalCall_of_fits h.sessionId (Nat.lt_succ_of_le h.initiatorId)
      (Nat.lt_succ_of_le h.responderId) (Nat.lt_succ_of_le h.initiatorPub)
      (Nat.lt_succ_of_le h.responderPub) context.direction.length_label_lt
  obtain ⟨call, hcall⟩ := hexists
  rw [hcall]
  exact congrArg Except.ok (KeyMaterial.directionalCall_eq_ok hcall).2.2.2

/-- The session id stands without a prefix between prefixed fields. -/
theorem info_inj (h : context.Fits) (h' : other.Fits) (heq : context.info = other.info) :
    context = other := by
  obtain ⟨hlabel, hrest⟩ := lengthPrefixed_append_inj context.direction.length_label_lt
    other.direction.length_label_lt heq
  obtain ⟨hinitiator, hrest⟩ := lengthPrefixed_append_inj (Nat.lt_succ_of_le h.initiatorId)
    (Nat.lt_succ_of_le h'.initiatorId) hrest
  obtain ⟨hresponder, hrest⟩ := lengthPrefixed_append_inj (Nat.lt_succ_of_le h.responderId)
    (Nat.lt_succ_of_le h'.responderId) hrest
  obtain ⟨hsession, hrest⟩ := List.append_inj hrest (h.sessionId.trans h'.sessionId.symm)
  obtain ⟨hpub, hrest⟩ := lengthPrefixed_append_inj (Nat.lt_succ_of_le h.initiatorPub)
    (Nat.lt_succ_of_le h'.initiatorPub) hrest
  have hpub' := lengthPrefixed_inj (Nat.lt_succ_of_le h.responderPub)
    (Nat.lt_succ_of_le h'.responderPub) hrest
  obtain ⟨direction, initiatorId, responderId, sessionId, pub, pub'⟩ := context
  rw [KeyContext.mk.injEq]
  exact ⟨Role.label_injective hlabel, utf8_injective hinitiator, utf8_injective hresponder,
    hsession, hpub, hpub'⟩

theorem key_run (h : context.Fits) (hkdf : Hkdf) (master : Bytes) :
    context.key hkdf master = .ok (hkdf ⟨master, [], context.info, keySize⟩) := by
  have hcall : ∀ direction : Role, context.material.directionalCall master context.sessionId
      direction.label = .ok ⟨master, [], { context with direction }.info, keySize⟩ :=
    fun direction ↦ @call_run { context with direction }
      ⟨h.initiatorId, h.responderId, h.sessionId, h.initiatorPub, h.responderPub⟩ master
  rw [key, KeyMaterial.deriveDirectionalKeys, show i2rInfo = Role.initiator.label from rfl,
    show r2iInfo = Role.responder.label from rfl, hcall .initiator, hcall .responder]
  obtain ⟨direction, initiatorId, responderId, sessionId, pub, pub'⟩ := context
  cases direction <;> rfl

/-- HKDF without collisions keeps the keys of different contexts apart. -/
theorem key_ne {uses : Set (Bytes × KeyContext)}
    (hideal : Set.InjOn hkdf {call | ∃ use ∈ uses, use.2.call use.1 = .ok call})
    (hmem : (master, context) ∈ uses) (hmem' : (master', other) ∈ uses) (h : context.Fits)
    (h' : other.Fits) (hne : context ≠ other) :
    context.key hkdf master ≠ other.key hkdf master' := by
  intro heq
  rw [key_run h, key_run h'] at heq
  have hcall := hideal ⟨_, hmem, call_run h master⟩ ⟨_, hmem', call_run h' master'⟩
    (Except.ok.inj heq)
  exact hne (info_inj h h' (HkdfCall.mk.inj hcall).2.2.1)

end KeyContext

/-! ## The two roles -/

/-- The keys of the other side. -/
def SessionKeys.mirror (keys : SessionKeys) : SessionKeys where
  sessionId := keys.sessionId
  sendKey := keys.receiveKey
  receiveKey := keys.sendKey
  role := keys.role.flip

theorem KeyMaterial.deriveSessionKeys_flip (material : KeyMaterial) (hkdf : Hkdf) (role : Role) :
    material.deriveSessionKeys hkdf role.flip =
      (material.deriveSessionKeys hkdf role).map SessionKeys.mirror := by
  unfold deriveSessionKeys
  cases material.deriveMaster hkdf with
  | error e => rfl
  | ok master =>
      cases material.deriveSessionId hkdf with
      | error e => rfl
      | ok sessionId =>
          simp only [except_ok_bind]
          cases material.deriveDirectionalKeys hkdf master sessionId with
          | error e => rfl
          | ok keys => cases role <;> rfl

theorem keysForRole_flip (secrets : HandshakeSecrets) (role : Role) :
    keysForRole secrets role.flip = (keysForRole secrets role).map SessionKeys.mirror := by
  unfold keysForRole
  cases requireSize secrets.sessionId "session_id" sessionIdSize with
  | error e => rfl
  | ok u => cases role <;> rfl

/-- Frames are read back as they were written, and any frame that is long enough
is written back as it was read; associated data and the input of HKDF determine
what they were made from, so that other contexts have other keys; and the two
roles get the same session id with crossed keys. -/
theorem encodings_injective_and_mirrored :
    (∀ fields : FrameFields, fields.Fits →
      ∃ frame, fields.encode = .ok frame ∧ FrameFields.split frame = .ok fields) ∧
    (∀ frame : Bytes, minFrameSize ≤ frame.length →
      ∃ fields, FrameFields.split frame = .ok fields ∧ fields.encode = .ok frame) ∧
    (∀ fields other : AadFields, fields.Fits → other.Fits →
      (∃ aad, fields.build = .ok aad) ∧ (fields.build = other.build → fields = other)) ∧
    (∀ (context other : KeyContext) (master master' : Bytes), context.Fits → other.Fits →
      ∃ call call', context.call master = .ok call ∧ other.call master' = .ok call' ∧
        (call.info = call'.info → context = other)) ∧
    (∀ (hkdf : Hkdf) (uses : Set (Bytes × KeyContext)),
      Set.InjOn hkdf {call | ∃ use ∈ uses, use.2.call use.1 = .ok call} →
        ∀ use ∈ uses, ∀ use' ∈ uses, use.2.Fits → use'.2.Fits → use.2 ≠ use'.2 →
          ∃ key key', use.2.key hkdf use.1 = .ok key ∧ use'.2.key hkdf use'.1 = .ok key' ∧
            key ≠ key') ∧
    (∀ (material : KeyMaterial) (hkdf : Hkdf) (role : Role),
      material.deriveSessionKeys hkdf role.flip =
        (material.deriveSessionKeys hkdf role).map SessionKeys.mirror) ∧
    ∀ (secrets : HandshakeSecrets) (role : Role),
      keysForRole secrets role.flip = (keysForRole secrets role).map SessionKeys.mirror := by
  refine ⟨fun fields h ↦ ?_, fun frame h ↦ ?_, fun fields other h h' ↦ ?_,
    fun context other master master' h h' ↦ ?_, fun hkdf uses hideal ↦ ?_,
    KeyMaterial.deriveSessionKeys_flip, keysForRole_flip⟩
  · obtain ⟨frame, hencode⟩ := FrameFields.exists_encode h
    exact ⟨frame, hencode, FrameFields.split_of_encode h hencode⟩
  · obtain ⟨fields, hsplit⟩ := FrameFields.exists_split h
    exact ⟨fields, hsplit, FrameFields.encode_of_split hsplit⟩
  · exact ⟨AadFields.exists_build h, AadFields.build_inj h h'⟩
  · exact ⟨_, _, KeyContext.call_run h master, KeyContext.call_run h' master',
      KeyContext.info_inj h h'⟩
  · rintro ⟨master, context⟩ hmem ⟨master', other⟩ hmem' h h' hne
    refine ⟨_, _, KeyContext.key_run h hkdf master, KeyContext.key_run h' hkdf master',
      fun heq ↦ KeyContext.key_ne hideal hmem hmem' h h' hne ?_⟩
    rw [KeyContext.key_run h, KeyContext.key_run h', heq]

def sampleFields : FrameFields :=
  ⟨2, 1, 255, encode 8 5, encode 12 6, [7, 8, 9], encode 16 10⟩

def sampleAad (senderId receiverId : String) : AadFields :=
  ⟨2, 0, 1, encode 8 5, utf8 senderId, utf8 receiverId⟩

def sampleContext (direction : Role) : KeyContext :=
  ⟨direction, "alice", "bob", encode 8 5, encode 32 1, encode 32 2⟩

/-- The same identities side by side, split in two ways. -/
theorem encodings_injective_and_mirrored_sample :
    (∃ frame, sampleFields.encode = .ok frame ∧ FrameFields.split frame = .ok sampleFields) ∧
    (∃ fields, FrameFields.split (encode 40 11) = .ok fields ∧
      fields.encode = .ok (encode 40 11)) ∧
    (sampleAad "alice" "bobby").build ≠ (sampleAad "aliceb" "obby").build ∧
    (∃ call call', (sampleContext .initiator).call [1] = .ok call ∧
      (sampleContext .responder).call [1] = .ok call' ∧ call.info ≠ call'.info) ∧
    ∃ key key', (sampleContext .initiator).key pairCrypto.hkdf [1] = .ok key ∧
      (sampleContext .responder).key pairCrypto.hkdf [1] = .ok key' ∧ key ≠ key' := by
  have haad : (sampleAad "alice" "bobby").Fits :=
    ⟨by decide, by decide, by decide, length_encode 8 5, by decide +kernel, by decide +kernel⟩
  have haad' : (sampleAad "aliceb" "obby").Fits :=
    ⟨by decide, by decide, by decide, length_encode 8 5, by decide +kernel, by decide +kernel⟩
  have hcontext : ∀ direction, (sampleContext direction).Fits := by
    intro direction
    have halice : (utf8 "alice").length ≤ 65535 := by decide +kernel
    have hbob : (utf8 "bob").length ≤ 65535 := by decide +kernel
    have hpub : ∀ n, (encode 32 n).length ≤ 65535 := by
      intro n
      rw [length_encode]
      decide
    exact ⟨halice, hbob, length_encode 8 5, hpub 1, hpub 2⟩
  have hne : sampleContext .initiator ≠ sampleContext .responder := by decide
  obtain ⟨hframe, hsplit, hbuild, hinfo, hkey, -⟩ := encodings_injective_and_mirrored
  refine ⟨hframe _ ⟨by decide, by decide, by decide, by decide, by decide, by decide⟩,
    hsplit _ (by decide), fun heq ↦ ?_, ?_, ?_⟩
  · exact absurd ((hbuild _ _ haad haad').2 heq) (by decide +kernel)
  · obtain ⟨call, call', hcall, hcall', hinj⟩ := hinfo _ _ [1] [1] (hcontext .initiator)
      (hcontext .responder)
    exact ⟨call, call', hcall, hcall', fun heq ↦ hne (hinj heq)⟩
  · refine hkey pairCrypto.hkdf {([1], sampleContext .initiator), ([1], sampleContext .responder)}
      ?_ _ (Set.mem_insert _ _) _ (Set.mem_insert_of_mem _ rfl) (hcontext _) (hcontext _) hne
    have hcalls : pairCrypto.hkdf ⟨[1], [], (sampleContext .initiator).info, keySize⟩ ≠
        pairCrypto.hkdf ⟨[1], [], (sampleContext .responder).info, keySize⟩ := by
      decide +kernel
    have hcall : ∀ direction call, (sampleContext direction).call [1] = .ok call →
        call = ⟨[1], [], (sampleContext direction).info, keySize⟩ := fun direction call h ↦
      Except.ok.inj (h.symm.trans (KeyContext.call_run (hcontext direction) [1]))
    rintro call ⟨use, huse, husecall⟩ call' ⟨use', huse', husecall'⟩ heq
    rcases huse with rfl | rfl <;> rcases huse' with rfl | rfl <;>
      obtain rfl := hcall _ _ husecall <;> obtain rfl := hcall _ _ husecall'
    · rfl
    · exact absurd heq hcalls
    · exact absurd heq.symm hcalls
    · rfl

end SecureSync
