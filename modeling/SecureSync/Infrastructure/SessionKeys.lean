import SecureSync.Infrastructure.ReplayProtection
import Mathlib.Data.Set.Function

/-!
# The key schedule

`session_keys.py`.  HKDF is a parameter; which inputs it is given tells apart
the keys of different handshakes, directions and devices.
-/

namespace SecureSync

open BigEndian Raising

def keySize : ℕ := 32

/-- One call of HKDF-SHA256. -/
structure HkdfCall where
  secret : Bytes
  salt : Bytes
  info : Bytes
  length : ℕ
  deriving DecidableEq

abbrev Hkdf := HkdfCall → Bytes

inductive KeyScheduleError where
  | tooLong (length : ℕ)
  | sessionIdLength (length : ℕ)
  deriving DecidableEq, Repr

def masterInfo : Bytes := utf8 "securesync-master-v2"

def sessionIdInfo : Bytes := utf8 "securesync-session-id"

def i2rInfo : Bytes := utf8 "securesync-initiator-to-responder"

def r2iInfo : Bytes := utf8 "securesync-responder-to-initiator"

/-- `length_prefixed`. -/
def keyField (value : Bytes) : Except KeyScheduleError Bytes :=
  if 0xFFFF < value.length then .error (.tooLong value.length) else .ok (lengthPrefixed value)

theorem keyField_eq_ok {value bs : Bytes} :
    keyField value = .ok bs ↔ value.length < 65536 ∧ lengthPrefixed value = bs := by
  unfold keyField
  split_ifs with h
  · simp only [false_iff, not_and]
    omega
  · simp only [Except.ok.injEq]
    constructor
    · exact fun heq ↦ ⟨by omega, heq⟩
    · exact fun heq ↦ heq.2

/-- What both sides of a handshake put into the key schedule. -/
structure KeyMaterial where
  sharedSecret : Bytes
  salt : Bytes
  initiatorId : DeviceId
  responderId : DeviceId
  initiatorEphemeralPub : Bytes
  responderEphemeralPub : Bytes
  deriving DecidableEq

structure SessionKeys where
  sessionId : Bytes
  sendKey : Bytes
  receiveKey : Bytes
  role : Role
  deriving DecidableEq

namespace KeyMaterial

variable (material : KeyMaterial) (hkdf : Hkdf)

/-- The derivations from the shared secret, which bind both ephemeral keys. -/
def sharedCall (label : Bytes) (length : ℕ) : Except KeyScheduleError HkdfCall := do
  let label ← keyField label
  let initiator ← keyField material.initiatorEphemeralPub
  let responder ← keyField material.responderEphemeralPub
  return ⟨material.sharedSecret, material.salt, label ++ initiator ++ responder, length⟩

def deriveMaster : Except KeyScheduleError Bytes := do
  let call ← material.sharedCall masterInfo keySize
  return hkdf call

def deriveSessionId : Except KeyScheduleError Bytes := do
  let call ← material.sharedCall sessionIdInfo sessionIdSize
  return hkdf call

/-- The derivations from the master secret. -/
def directionalCall (master sessionId label : Bytes) : Except KeyScheduleError HkdfCall :=
  if sessionId.length ≠ sessionIdSize then .error (.sessionIdLength sessionId.length)
  else do
    let initiatorId ← keyField (utf8 material.initiatorId)
    let responderId ← keyField (utf8 material.responderId)
    let initiator ← keyField material.initiatorEphemeralPub
    let responder ← keyField material.responderEphemeralPub
    let label ← keyField label
    return ⟨master, [],
      label ++ (initiatorId ++ responderId ++ sessionId ++ initiator ++ responder), keySize⟩

def deriveDirectionalKeys (master sessionId : Bytes) :
    Except KeyScheduleError (Bytes × Bytes) := do
  let i2r ← material.directionalCall master sessionId i2rInfo
  let r2i ← material.directionalCall master sessionId r2iInfo
  return (hkdf i2r, hkdf r2i)

/-- `derive_session_keys`. -/
def deriveSessionKeys (role : Role) : Except KeyScheduleError SessionKeys := do
  let master ← material.deriveMaster hkdf
  let sessionId ← material.deriveSessionId hkdf
  let keys ← material.deriveDirectionalKeys hkdf master sessionId
  return match role with
    | .initiator => ⟨sessionId, keys.1, keys.2, role⟩
    | .responder => ⟨sessionId, keys.2, keys.1, role⟩

end KeyMaterial

/-! ## The calls behind a session -/

/-- The four calls of HKDF with which the keys of one handshake are derived. -/
structure KeySchedule where
  master : HkdfCall
  sessionId : HkdfCall
  i2r : HkdfCall
  r2i : HkdfCall

namespace KeySchedule

def calls (schedule : KeySchedule) : List HkdfCall :=
  [schedule.master, schedule.sessionId, schedule.i2r, schedule.r2i]

/-- The keys of one side. -/
def keys (schedule : KeySchedule) (hkdf : Hkdf) : Role → SessionKeys
  | .initiator => ⟨hkdf schedule.sessionId, hkdf schedule.i2r, hkdf schedule.r2i, .initiator⟩
  | .responder => ⟨hkdf schedule.sessionId, hkdf schedule.r2i, hkdf schedule.i2r, .responder⟩

end KeySchedule

namespace KeyMaterial

variable (material : KeyMaterial) (hkdf : Hkdf)

def ephemeralFields : Bytes :=
  lengthPrefixed material.initiatorEphemeralPub ++ lengthPrefixed material.responderEphemeralPub

/-- What binds a handshake into the two directional keys. -/
def context (sessionId : Bytes) : Bytes :=
  lengthPrefixed (utf8 material.initiatorId) ++ (lengthPrefixed (utf8 material.responderId) ++
    (sessionId ++ material.ephemeralFields))

def schedule : KeySchedule :=
  let master := HkdfCall.mk material.sharedSecret material.salt
    (lengthPrefixed masterInfo ++ material.ephemeralFields) keySize
  let sessionId := HkdfCall.mk material.sharedSecret material.salt
    (lengthPrefixed sessionIdInfo ++ material.ephemeralFields) sessionIdSize
  { master
    sessionId
    i2r := ⟨hkdf master, [], lengthPrefixed i2rInfo ++ material.context (hkdf sessionId), keySize⟩
    r2i := ⟨hkdf master, [], lengthPrefixed r2iInfo ++ material.context (hkdf sessionId), keySize⟩ }

/-- The fields fit their length prefixes, and the session id has its size. -/
structure Fits : Prop where
  initiatorId : (utf8 material.initiatorId).length < 65536
  responderId : (utf8 material.responderId).length < 65536
  initiatorPub : material.initiatorEphemeralPub.length < 65536
  responderPub : material.responderEphemeralPub.length < 65536
  length_sessionId : (hkdf (material.schedule hkdf).sessionId).length = sessionIdSize

end KeyMaterial

variable {material : KeyMaterial} {hkdf : Hkdf} {role : Role} {keys : SessionKeys}

theorem KeyMaterial.sharedCall_eq_ok {label : Bytes} {length : ℕ} {call : HkdfCall} :
    material.sharedCall label length = .ok call ↔
      label.length < 65536 ∧ material.initiatorEphemeralPub.length < 65536 ∧
        material.responderEphemeralPub.length < 65536 ∧
          call = ⟨material.sharedSecret, material.salt,
            lengthPrefixed label ++ material.ephemeralFields, length⟩ := by
  simp only [sharedCall, except_bind_eq_ok, keyField_eq_ok, ephemeralFields, ← List.append_assoc]
  constructor
  · rintro ⟨_, ⟨hlabel, rfl⟩, _, ⟨hi, rfl⟩, _, ⟨hr, rfl⟩, hreturn⟩
    cases hreturn
    exact ⟨hlabel, hi, hr, rfl⟩
  · rintro ⟨hlabel, hi, hr, rfl⟩
    exact ⟨_, ⟨hlabel, rfl⟩, _, ⟨hi, rfl⟩, _, ⟨hr, rfl⟩, rfl⟩

theorem KeyMaterial.directionalCall_eq_ok {master sessionId label : Bytes} {call : HkdfCall}
    (h : material.directionalCall master sessionId label = .ok call) :
    sessionId.length = sessionIdSize ∧ (utf8 material.initiatorId).length < 65536 ∧
      (utf8 material.responderId).length < 65536 ∧
        call = ⟨master, [], lengthPrefixed label ++ material.context sessionId, keySize⟩ := by
  unfold directionalCall at h
  split_ifs at h with hlength
  simp only [except_bind_eq_ok, keyField_eq_ok] at h
  obtain ⟨_, ⟨hi, rfl⟩, _, ⟨hr, rfl⟩, _, ⟨-, rfl⟩, _, ⟨-, rfl⟩, _, ⟨-, rfl⟩, hreturn⟩ := h
  cases hreturn
  refine ⟨not_not.mp hlength, hi, hr, ?_⟩
  simp only [context, ephemeralFields, List.append_assoc]

/-- Keys that are derived are those of the schedule. -/
theorem KeyMaterial.deriveSessionKeys_eq_ok
    (h : material.deriveSessionKeys hkdf role = .ok keys) :
    material.Fits hkdf ∧ keys = (material.schedule hkdf).keys hkdf role := by
  obtain ⟨_, hmaster, h⟩ := except_bind_eq_ok.mp h
  obtain ⟨_, hsession, h⟩ := except_bind_eq_ok.mp h
  obtain ⟨_, hdirectional, hkeys⟩ := except_bind_eq_ok.mp h
  obtain ⟨master, hmasterCall, hreturn⟩ := except_bind_eq_ok.mp hmaster
  cases hreturn
  obtain ⟨session, hsessionCall, hreturn⟩ := except_bind_eq_ok.mp hsession
  cases hreturn
  obtain ⟨i2r, hi2r, hdirectional⟩ := except_bind_eq_ok.mp hdirectional
  obtain ⟨r2i, hr2i, hreturn⟩ := except_bind_eq_ok.mp hdirectional
  cases hreturn
  obtain ⟨-, hi, hr, rfl⟩ := sharedCall_eq_ok.mp hmasterCall
  obtain ⟨-, -, -, rfl⟩ := sharedCall_eq_ok.mp hsessionCall
  obtain ⟨hlength, hiid, hrid, rfl⟩ := directionalCall_eq_ok hi2r
  obtain ⟨-, -, -, rfl⟩ := directionalCall_eq_ok hr2i
  refine ⟨⟨hiid, hrid, hi, hr, hlength⟩, ?_⟩
  cases role <;> cases hkeys <;> rfl

/-! ## What the keys bind -/

namespace KeyMaterial

variable {other : KeyMaterial}

/-- No two of the calls of HKDF that these handshakes make have the same output. -/
def CollisionFree (hkdf : Hkdf) (materials : List KeyMaterial) : Prop :=
  Set.InjOn hkdf {call | ∃ material ∈ materials, call ∈ (material.schedule hkdf).calls}

/-- All calls of HKDF that these handshakes make. -/
def calls (hkdf : Hkdf) (materials : List KeyMaterial) : List HkdfCall :=
  materials.flatMap fun material ↦ (material.schedule hkdf).calls

instance (hkdf : Hkdf) (materials : List KeyMaterial) : Decidable (CollisionFree hkdf materials) :=
  decidable_of_iff (∀ call ∈ calls hkdf materials, ∀ call' ∈ calls hkdf materials,
      hkdf call = hkdf call' → call = call')
    (by simp only [CollisionFree, Set.InjOn, Set.mem_ofPred_eq, calls, List.mem_flatMap])

theorem CollisionFree.eq {materials : List KeyMaterial} (h : CollisionFree hkdf materials)
    {call call' : HkdfCall} (hm : material ∈ materials) (hm' : other ∈ materials)
    (hcall : call ∈ (material.schedule hkdf).calls)
    (hcall' : call' ∈ (other.schedule hkdf).calls) (heq : hkdf call = hkdf call') : call = call' :=
  h ⟨material, hm, hcall⟩ ⟨other, hm', hcall'⟩ heq

theorem ephemeralFields_inj (h : material.Fits hkdf) (h' : other.Fits hkdf)
    (heq : material.ephemeralFields = other.ephemeralFields) :
    material.initiatorEphemeralPub = other.initiatorEphemeralPub ∧
      material.responderEphemeralPub = other.responderEphemeralPub := by
  obtain ⟨hi, hrest⟩ := lengthPrefixed_append_inj h.initiatorPub h'.initiatorPub heq
  exact ⟨hi, lengthPrefixed_inj h.responderPub h'.responderPub hrest⟩

/-- The context names both devices, the session and both ephemeral keys. -/
theorem context_inj (h : material.Fits hkdf) (h' : other.Fits hkdf) {sessionId sessionId' : Bytes}
    (hlength : sessionId.length = sessionId'.length)
    (heq : material.context sessionId = other.context sessionId') :
    material.initiatorId = other.initiatorId ∧ material.responderId = other.responderId ∧
      sessionId = sessionId' ∧ material.ephemeralFields = other.ephemeralFields := by
  obtain ⟨hi, hrest⟩ := lengthPrefixed_append_inj h.initiatorId h'.initiatorId heq
  obtain ⟨hr, hrest⟩ := lengthPrefixed_append_inj h.responderId h'.responderId hrest
  obtain ⟨hid, hrest⟩ := List.append_inj hrest hlength
  exact ⟨utf8_injective hi, utf8_injective hr, hid, hrest⟩

variable {materials : List KeyMaterial}

/-- A session id belongs to one pair of ephemeral keys. -/
theorem CollisionFree.ephemeralFields_of_sessionId (h : CollisionFree hkdf materials)
    (hm : material ∈ materials) (hm' : other ∈ materials)
    (heq : hkdf (material.schedule hkdf).sessionId = hkdf (other.schedule hkdf).sessionId) :
    material.sharedSecret = other.sharedSecret ∧ material.salt = other.salt ∧
      material.ephemeralFields = other.ephemeralFields := by
  have hcall := h.eq hm hm' (by simp [KeySchedule.calls]) (by simp [KeySchedule.calls]) heq
  obtain ⟨hsecret, hsalt, hinfo, -⟩ := HkdfCall.mk.inj hcall
  exact ⟨hsecret, hsalt, List.append_cancel_left hinfo⟩

/-- A directional key belongs to one direction of one handshake. -/
theorem CollisionFree.i2r_ne_r2i (h : CollisionFree hkdf materials)
    (hm : material ∈ materials) (hm' : other ∈ materials) :
    hkdf (material.schedule hkdf).i2r ≠ hkdf (other.schedule hkdf).r2i := by
  intro heq
  have hcall := h.eq hm hm' (by simp [KeySchedule.calls]) (by simp [KeySchedule.calls]) heq
  obtain ⟨-, -, hinfo, -⟩ := HkdfCall.mk.inj hcall
  have hlabel := (lengthPrefixed_append_inj (by decide +kernel) (by decide +kernel) hinfo).1
  exact absurd hlabel (by decide +kernel)

theorem CollisionFree.of_i2r (h : CollisionFree hkdf materials) (hm : material ∈ materials)
    (hm' : other ∈ materials) (hfits : material.Fits hkdf) (hfits' : other.Fits hkdf)
    (heq : hkdf (material.schedule hkdf).i2r = hkdf (other.schedule hkdf).i2r) :
    material.initiatorId = other.initiatorId ∧ material.responderId = other.responderId ∧
      hkdf (material.schedule hkdf).sessionId = hkdf (other.schedule hkdf).sessionId ∧
        material.ephemeralFields = other.ephemeralFields ∧
          (material.schedule hkdf).r2i = (other.schedule hkdf).r2i := by
  have hcall := h.eq hm hm' (by simp [KeySchedule.calls]) (by simp [KeySchedule.calls]) heq
  obtain ⟨hmaster, -, hinfo, -⟩ := HkdfCall.mk.inj hcall
  have hcontext := List.append_cancel_left hinfo
  obtain ⟨hi, hr, hid, hfields⟩ := context_inj hfits hfits'
    (hfits.length_sessionId.trans hfits'.length_sessionId.symm) hcontext
  refine ⟨hi, hr, hid, hfields, ?_⟩
  simp only [schedule] at hmaster hcontext ⊢
  rw [hmaster, hcontext]

theorem CollisionFree.of_r2i (h : CollisionFree hkdf materials) (hm : material ∈ materials)
    (hm' : other ∈ materials)
    (heq : hkdf (material.schedule hkdf).r2i = hkdf (other.schedule hkdf).r2i) :
    (material.schedule hkdf).i2r = (other.schedule hkdf).i2r := by
  have hcall := h.eq hm hm' (by simp [KeySchedule.calls]) (by simp [KeySchedule.calls]) heq
  obtain ⟨hmaster, -, hinfo, -⟩ := HkdfCall.mk.inj hcall
  have hcontext := List.append_cancel_left hinfo
  simp only [schedule] at hmaster hcontext ⊢
  rw [hmaster, hcontext]

end KeyMaterial
end SecureSync
