import SecureSync.Handshake.Exchanges

/-!
# Who shares keys after a v2 handshake

A signature of the v2 handshake covers the salt and one ephemeral key, and the directional
keys cover both device ids and both ephemeral keys.  Two exchanges with a key in common have
therefore been with each other, whatever the network has done.
-/

namespace SecureSync

open BigEndian Raising

/-- Keys of X25519 are 32 bytes long, and it works with no other. -/
structure KeyExchange.Sized (keyExchange : KeyExchange) : Prop where
  publicKey : ∀ privateKey, (keyExchange.publicKey privateKey).length = keySize
  peer : ∀ privateKey peer secret,
    keyExchange.deriveSharedSecret privateKey peer = some secret → peer.length = keySize

/-- A call that has returned, with what its keys come of. -/
structure Established (δ : Type) where
  device : δ
  role : Role
  peer : HandshakeMessage
  material : KeyMaterial
  result : HandshakeResult
  deriving DecidableEq

namespace Established

variable {δ : Type}

def ownId (e : Established δ) : DeviceId :=
  match e.role with
  | .initiator => e.material.initiatorId
  | .responder => e.material.responderId

def peerId (e : Established δ) : DeviceId :=
  match e.role with
  | .initiator => e.material.responderId
  | .responder => e.material.initiatorId

def ownPub (e : Established δ) : Bytes :=
  match e.role with
  | .initiator => e.material.initiatorEphemeralPub
  | .responder => e.material.responderEphemeralPub

def peerPub (e : Established δ) : Bytes :=
  match e.role with
  | .initiator => e.material.responderEphemeralPub
  | .responder => e.material.initiatorEphemeralPub

/-- What the signature of the peer covers. -/
def signedData (e : Established δ) : Bytes := e.material.salt ++ e.peer.publicKey

/-- The session that two calls share. -/
structure Mirrors (e e' : Established δ) : Prop where
  role : e'.role = e.role.flip
  sessionId : e'.result.sessionId = e.result.sessionId
  sendKey : e'.result.sendKey = e.result.receiveKey
  receiveKey : e'.result.receiveKey = e.result.sendKey
  ids : e'.ownId = e.peerId ∧ e'.peerId = e.ownId
  ephemerals : e'.ownPub = e.peerPub ∧ e'.peerPub = e.ownPub

theorem Mirrors.symm {e e' : Established δ} (h : e.Mirrors e') : e'.Mirrors e where
  role := by rw [h.role, Role.flip_flip]
  sessionId := h.sessionId.symm
  sendKey := h.receiveKey.symm
  receiveKey := h.sendKey.symm
  ids := ⟨h.ids.2.symm, h.ids.1.symm⟩
  ephemerals := ⟨h.ephemerals.2.symm, h.ephemerals.1.symm⟩

end Established

/-- A signature under the identity key of a device: the salt, and its own ephemeral key. -/
structure EphemeralSignature (δ : Type) where
  device : δ
  salt : Bytes
  publicKey : Bytes
  deriving DecidableEq

namespace X25519Setting

variable {δ : Type} (setting : X25519Setting δ)

def establishedByInitiator (p : δ × InitiateCall) : Option (Established δ) := do
  let (response, result) ← p.2.phase.finished?
  let secret ← setting.keyExchange.deriveSharedSecret p.2.privateKey response.publicKey
  let request := (setting.handshake p.1).hello p.2.privateKey p.2.salt
  return ⟨p.1, .initiator, response, X25519Handshake.keyMaterial secret request response, result⟩

def establishedByResponder (p : δ × AcceptCall) : Option (Established δ) := do
  let (request, result) ← p.2.phase.finished?
  let secret ← setting.keyExchange.deriveSharedSecret p.2.privateKey request.publicKey
  let response := (setting.handshake p.1).ownMessage p.2.privateKey request.salt
  return ⟨p.1, .responder, request.toHandshakeMessage,
    X25519Handshake.keyMaterial secret request response, result⟩

/-- All calls that have returned. -/
def established (w : ExchangeWorld δ) : List (Established δ) :=
  w.initiated.filterMap setting.establishedByInitiator ++
    w.accepted.filterMap setting.establishedByResponder

def signatures (w : ExchangeWorld δ) : List (EphemeralSignature δ) :=
  (w.initiated.map fun p ↦ ⟨p.1, p.2.salt, setting.keyExchange.publicKey p.2.privateKey⟩) ++
    w.accepted.filterMap fun p ↦ p.2.phase.answered?.map fun request ↦
      ⟨p.1, request.salt, setting.keyExchange.publicKey p.2.privateKey⟩

/-- Under the key of an honest device only what it has signed verifies. -/
def UnforgedSignatures (w : ExchangeWorld δ) : Prop :=
  ∀ d, ∀ e ∈ setting.established w, e.peer.identityPublicKey = (setting.identity d).publicKey →
    setting.identityProvider.verify e.peer.identityPublicKey e.signedData e.peer.signature = true →
      ∃ s ∈ setting.signatures w, s.device = d ∧ s.salt ++ s.publicKey = e.signedData

/-- Every ephemeral key is drawn once. -/
def FreshEphemerals (w : ExchangeWorld δ) : Prop :=
  ((setting.signatures w).map EphemeralSignature.publicKey).Nodup

/-- HKDF has no collisions among the calls behind what is established. -/
def CollisionFree (w : ExchangeWorld δ) : Prop :=
  KeyMaterial.CollisionFree setting.hkdf ((setting.established w).map Established.material)

/-- What is known of a call that has returned. -/
structure Vouched (w : ExchangeWorld δ) (e : Established δ) : Prop where
  fits : e.material.Fits setting.hkdf
  result : e.result = X25519Handshake.result e.peer
    ((e.material.schedule setting.hkdf).keys setting.hkdf e.role)
  ownId : e.ownId = setting.deviceId e.device
  peerId : e.peerId = e.peer.deviceId
  peerPub : e.peerPub = e.peer.publicKey
  length_peerPub : e.peer.publicKey.length = keySize
  signed : ⟨e.device, e.material.salt, e.ownPub⟩ ∈ setting.signatures w
  verified : setting.identityProvider.verify e.peer.identityPublicKey e.signedData
    e.peer.signature = true

variable {setting} {w : ExchangeWorld δ} {e e' : Established δ}

theorem Sound.vouched (h : setting.Sound w) (hsized : setting.keyExchange.Sized)
    (he : e ∈ setting.established w) : setting.Vouched w e := by
  rcases List.mem_append.mp he with he | he
  · obtain ⟨⟨d, call⟩, hcall, he⟩ := List.mem_filterMap.mp he
    obtain ⟨⟨response, result⟩, hfinished, he⟩ := Option.bind_eq_some_iff.mp he
    obtain ⟨secret, hsecret, he⟩ := Option.bind_eq_some_iff.mp he
    obtain rfl := Option.some.inj he
    have hresult := (h.initiated _ hcall).finished _ hfinished
    obtain ⟨secret', keys, hsecret', hkeys, hres⟩ := X25519Handshake.deriveResult_eq_ok.mp hresult
    obtain rfl := Option.some.inj (hsecret.symm.trans hsecret')
    obtain ⟨hfits, rfl⟩ := KeyMaterial.deriveSessionKeys_eq_ok hkeys
    refine ⟨hfits, hres.symm, rfl, rfl, rfl, hsized.peer _ _ _ hsecret, ?_, ?_⟩
    · apply List.mem_append_left
      exact List.mem_map_of_mem hcall
    · exact (h.initiated _ hcall).verified _ (InitiatePhase.peer?_of_finished? hfinished)
  · obtain ⟨⟨d, call⟩, hcall, he⟩ := List.mem_filterMap.mp he
    obtain ⟨⟨request, result⟩, hfinished, he⟩ := Option.bind_eq_some_iff.mp he
    obtain ⟨secret, hsecret, he⟩ := Option.bind_eq_some_iff.mp he
    obtain rfl := Option.some.inj he
    have hresult := (h.accepted _ hcall).finished _ hfinished
    have hanswered := AcceptPhase.answered?_of_finished? hfinished
    obtain ⟨secret', keys, hsecret', hkeys, hres⟩ := X25519Handshake.deriveResult_eq_ok.mp hresult
    obtain rfl := Option.some.inj (hsecret.symm.trans hsecret')
    obtain ⟨hfits, rfl⟩ := KeyMaterial.deriveSessionKeys_eq_ok hkeys
    refine ⟨hfits, hres.symm, rfl, rfl, rfl, hsized.peer _ _ _ hsecret, ?_, ?_⟩
    · apply List.mem_append_right
      apply List.mem_filterMap.mpr
      exact ⟨_, hcall, Option.map_eq_some_iff.mpr ⟨_, hanswered, rfl⟩⟩
    · exact (h.accepted _ hcall).verified _ (AcceptPhase.peer?_of_finished? hfinished)

theorem mem_signatures {s : EphemeralSignature δ} :
    s ∈ setting.signatures w ↔
      (∃ p ∈ w.initiated, ⟨p.1, p.2.salt, setting.keyExchange.publicKey p.2.privateKey⟩ = s) ∨
        ∃ p ∈ w.accepted, ∃ request ∈ p.2.phase.answered?,
          ⟨p.1, request.salt, setting.keyExchange.publicKey p.2.privateKey⟩ = s := by
  simp only [signatures, List.mem_append, List.mem_map, List.mem_filterMap,
    Option.map_eq_some_iff, Option.mem_def]

theorem length_of_mem_signatures (hsized : setting.keyExchange.Sized) {s : EphemeralSignature δ}
    (hs : s ∈ setting.signatures w) : s.publicKey.length = keySize := by
  rcases mem_signatures.mp hs with ⟨p, -, rfl⟩ | ⟨p, -, request, -, rfl⟩
  · exact hsized.publicKey _
  · exact hsized.publicKey _

theorem Vouched.keys_of_initiator (h : setting.Vouched w e) (hrole : e.role = .initiator) :
    e.result.sendKey = setting.hkdf (e.material.schedule setting.hkdf).i2r ∧
      e.result.receiveKey = setting.hkdf (e.material.schedule setting.hkdf).r2i := by
  rw [h.result, hrole]
  exact ⟨rfl, rfl⟩

theorem Vouched.keys_of_responder (h : setting.Vouched w e) (hrole : e.role = .responder) :
    e.result.sendKey = setting.hkdf (e.material.schedule setting.hkdf).r2i ∧
      e.result.receiveKey = setting.hkdf (e.material.schedule setting.hkdf).i2r := by
  rw [h.result, hrole]
  exact ⟨rfl, rfl⟩

theorem Vouched.sessionId_eq (h : setting.Vouched w e) :
    e.result.sessionId = setting.hkdf (e.material.schedule setting.hkdf).sessionId := by
  rw [h.result]
  cases e.role <;> rfl

/-- One key schedule behind two results. -/
structure SameSchedule (setting : X25519Setting δ) (m m' : KeyMaterial) : Prop where
  ids : m'.initiatorId = m.initiatorId ∧ m'.responderId = m.responderId
  ephemerals : m'.initiatorEphemeralPub = m.initiatorEphemeralPub ∧
    m'.responderEphemeralPub = m.responderEphemeralPub
  sessionId : setting.hkdf (m'.schedule setting.hkdf).sessionId =
    setting.hkdf (m.schedule setting.hkdf).sessionId
  i2r : (m'.schedule setting.hkdf).i2r = (m.schedule setting.hkdf).i2r
  r2i : (m'.schedule setting.hkdf).r2i = (m.schedule setting.hkdf).r2i

theorem Vouched.sameSchedule (h : setting.Vouched w e) (h' : setting.Vouched w e')
    (hfree : setting.CollisionFree w) (he : e ∈ setting.established w)
    (he' : e' ∈ setting.established w)
    (hi2r : (e'.material.schedule setting.hkdf).i2r = (e.material.schedule setting.hkdf).i2r) :
    setting.SameSchedule e.material e'.material := by
  obtain ⟨hi, hr, hid, hfields, hr2i⟩ := KeyMaterial.CollisionFree.of_i2r hfree
    (List.mem_map_of_mem he') (List.mem_map_of_mem he) h'.fits h.fits (congrArg setting.hkdf hi2r)
  exact ⟨⟨hi, hr⟩, KeyMaterial.ephemeralFields_inj h'.fits h.fits hfields, hid, hi2r, hr2i⟩

theorem SameSchedule.mirrors (hsame : setting.SameSchedule e.material e'.material)
    (h : setting.Vouched w e) (h' : setting.Vouched w e') (hrole : e.role = .initiator)
    (hrole' : e'.role = .responder) : e.Mirrors e' := by
  obtain ⟨hsend, hreceive⟩ := h.keys_of_initiator hrole
  obtain ⟨hsend', hreceive'⟩ := h'.keys_of_responder hrole'
  refine ⟨by rw [hrole, hrole']; rfl, ?_, ?_, ?_, ?_, ?_⟩
  · rw [h'.sessionId_eq, h.sessionId_eq, hsame.sessionId]
  · rw [hsend', hreceive, hsame.r2i]
  · rw [hreceive', hsend, hsame.i2r]
  · simp only [Established.ownId, Established.peerId, hrole, hrole']
    exact ⟨hsame.ids.2, hsame.ids.1⟩
  · simp only [Established.ownPub, Established.peerPub, hrole, hrole']
    exact ⟨hsame.ephemerals.2, hsame.ephemerals.1⟩

/-- A receiving key is the sending key of nothing but the other side. -/
theorem Vouched.mirrors (h : setting.Vouched w e) (h' : setting.Vouched w e')
    (hfree : setting.CollisionFree w) (he : e ∈ setting.established w)
    (he' : e' ∈ setting.established w) (hkey : e.result.receiveKey = e'.result.sendKey) :
    e.Mirrors e' := by
  have hm : e.material ∈ (setting.established w).map Established.material :=
    List.mem_map_of_mem he
  have hm' : e'.material ∈ (setting.established w).map Established.material :=
    List.mem_map_of_mem he'
  cases hrole : e.role with
  | initiator =>
      rw [(h.keys_of_initiator hrole).2] at hkey
      cases hrole' : e'.role with
      | initiator =>
          rw [(h'.keys_of_initiator hrole').1] at hkey
          exact absurd hkey.symm (KeyMaterial.CollisionFree.i2r_ne_r2i hfree hm' hm)
      | responder =>
          rw [(h'.keys_of_responder hrole').1] at hkey
          have hi2r := KeyMaterial.CollisionFree.of_r2i hfree hm hm' hkey
          exact (h.sameSchedule h' hfree he he' hi2r.symm).mirrors h h' hrole hrole'
  | responder =>
      rw [(h.keys_of_responder hrole).2] at hkey
      cases hrole' : e'.role with
      | initiator =>
          rw [(h'.keys_of_initiator hrole').1] at hkey
          obtain ⟨-, -, -, -, hr2i⟩ :=
            KeyMaterial.CollisionFree.of_i2r hfree hm hm' h.fits h'.fits hkey
          have hi2r := KeyMaterial.CollisionFree.of_r2i hfree hm hm' (congrArg setting.hkdf hr2i)
          exact ((h'.sameSchedule h hfree he' he hi2r).mirrors h' h hrole' hrole).symm
      | responder =>
          rw [(h'.keys_of_responder hrole').1] at hkey
          exact absurd hkey (KeyMaterial.CollisionFree.i2r_ne_r2i hfree hm hm')

/-- The signature of an honest device comes from the call whose ephemeral key it is. -/
theorem Vouched.device_eq (h : setting.Vouched w e) (h' : setting.Vouched w e')
    (hsized : setting.keyExchange.Sized) (hunforged : setting.UnforgedSignatures w)
    (hfresh : setting.FreshEphemerals w) (he : e ∈ setting.established w)
    (hown : e'.ownPub = e.peerPub) {d : δ}
    (hkey : e.peer.identityPublicKey = (setting.identity d).publicKey) : e'.device = d := by
  obtain ⟨s, hs, hdevice, hdata⟩ := hunforged d e he hkey h.verified
  have hlength : s.publicKey.length = e.peer.publicKey.length :=
    (length_of_mem_signatures hsized hs).trans h.length_peerPub.symm
  obtain ⟨-, hpub⟩ := List.append_inj' hdata hlength
  have hsame : s.publicKey = e'.ownPub := hpub.trans (h.peerPub.symm.trans hown.symm)
  have heq := List.inj_on_of_nodup_map hfresh hs h'.signed hsame
  rw [← hdevice, heq]

variable [DecidableEq δ]

theorem mem_set_of_getElem? {α : Type} {l : List α} {i : ℕ} {a b x : α} (ha : l[i]? = some a)
    (hx : x ∈ l) : x ∈ l.set i b ∨ x = a := by
  obtain ⟨k, hk⟩ := List.mem_iff_getElem?.mp hx
  by_cases hki : i = k
  · subst hki
    exact .inr (Option.some.inj (hk.symm.trans ha))
  · rw [← List.getElem?_set_ne hki (a := b)] at hk
    exact .inl (List.mem_of_getElem? hk)

/-- Nothing that was signed is forgotten. -/
theorem signatures_subset_step (event : ExchangeEvent δ) :
    setting.signatures w ⊆ setting.signatures (setting.step w event) := by
  intro s hs
  rw [mem_signatures] at hs ⊢
  cases event with
  | initiate d privateKey salt =>
      refine hs.imp_left ?_
      rintro ⟨p, hp, hsigned⟩
      exact ⟨p, List.mem_append_left _ hp, hsigned⟩
  | accept d privateKey =>
      refine hs.imp_right ?_
      rintro ⟨p, hp, hsigned⟩
      exact ⟨p, List.mem_append_left _ hp, hsigned⟩
  | initiator i input =>
      unfold X25519Setting.step
      dsimp only
      cases hcall : w.initiated[i]? with
      | none => exact hs
      | some entry =>
          obtain ⟨d, call⟩ := entry
          refine hs.imp_left ?_
          rintro ⟨p, hp, hsigned⟩
          rcases mem_set_of_getElem? hcall hp with hp | rfl
          · exact ⟨p, hp, hsigned⟩
          · exact ⟨_, List.mem_set (List.getElem?_eq_some_iff.mp hcall).1 _, hsigned⟩
  | responder j input =>
      unfold X25519Setting.step
      dsimp only
      cases hcall : w.accepted[j]? with
      | none => exact hs
      | some entry =>
          obtain ⟨d, call⟩ := entry
          refine hs.imp_right ?_
          rintro ⟨p, hp, request, hrequest, hsigned⟩
          rcases mem_set_of_getElem? hcall hp with hp | rfl
          · exact ⟨p, hp, request, hrequest, hsigned⟩
          · exact ⟨_, List.mem_set (List.getElem?_eq_some_iff.mp hcall).1 _, request,
              X25519Handshake.answered?_acceptStep hrequest input, hsigned⟩

/-- Two calls with a key in common are the two sides of one session, and each names the other.
Where one of them has the identity key of an honest device, the other is a call of that device. -/
theorem shared_keys_agree (trusted : δ → TrustStore) (events : List (ExchangeEvent δ))
    (hsized : setting.keyExchange.Sized)
    (hunforged : setting.UnforgedSignatures (setting.exec trusted events))
    (hfresh : setting.FreshEphemerals (setting.exec trusted events))
    (hfree : setting.CollisionFree (setting.exec trusted events)) :
    ∀ e ∈ setting.established (setting.exec trusted events),
      ∀ e' ∈ setting.established (setting.exec trusted events),
        e.result.receiveKey = e'.result.sendKey →
          e.Mirrors e' ∧ e.result.peerDeviceId = setting.deviceId e'.device ∧
            e'.result.peerDeviceId = setting.deviceId e.device ∧
              (∀ d, e.peer.identityPublicKey = (setting.identity d).publicKey → e'.device = d) ∧
                ∀ d, e'.peer.identityPublicKey = (setting.identity d).publicKey →
                  e.device = d := by
  intro e he e' he' hkey
  have hsound := setting.sound_exec trusted events
  have hvouched := hsound.vouched hsized he
  have hvouched' := hsound.vouched hsized he'
  have hmirrors := hvouched.mirrors hvouched' hfree he he' hkey
  refine ⟨hmirrors, ?_, ?_, fun d hd ↦ ?_, fun d hd ↦ ?_⟩
  · rw [hvouched.result]
    exact hvouched.peerId.symm.trans (hmirrors.ids.1.symm.trans hvouched'.ownId)
  · rw [hvouched'.result]
    exact hvouched'.peerId.symm.trans (hmirrors.ids.2.trans hvouched.ownId)
  · exact hvouched.device_eq hvouched' hsized hunforged hfresh he hmirrors.ephemerals.1 hd
  · exact hvouched'.device_eq hvouched hsized hunforged hfresh he' hmirrors.ephemerals.2.symm hd

end X25519Setting

/-! ### Alice and Bob -/

/-- Alice and Bob, with checksums for the hash functions. -/
def x25519Pair : X25519Setting Bool where
  deviceId responds := if responds then "bob" else "alice"
  transferPort _ := 9000
  manifestPort _ := 9001
  identity responds := if responds then ⟨[2], [2]⟩ else ⟨[1], [1]⟩
  keyExchange :=
    { publicKey := fun privateKey ↦ encode 32 (decode privateKey)
      deriveSharedSecret := fun privateKey peer ↦
        if peer.length = keySize then some (encode 32 (decode privateKey + decode peer))
        else none }
  identityProvider :=
    { sign := fun key data ↦ key ++ data
      verify := fun key data signature ↦ signature = key ++ data }
  hkdf call :=
    let input := call.secret ++ (call.salt ++ call.info)
    encode call.length (input.foldl (fun sum b ↦ 257 * sum + b.toNat + 1) 0)

theorem x25519Pair_sized : x25519Pair.keyExchange.Sized where
  publicKey _ := length_encode _ _
  peer privateKey peer secret h := by
    by_contra hne
    simp [x25519Pair, hne] at h

/-- The hello of Alice, which arrives as it is. -/
def x25519Hello : Hello := (x25519Pair.handshake false).hello [7] (encode 16 5)

/-- The response of Bob. -/
def x25519Response : HandshakeMessage := (x25519Pair.handshake true).ownMessage [11] (encode 16 5)

/-- A hello of Mallory with the salt of Alice, and a key that cannot be used. -/
def malloryHello : Hello where
  deviceId := "mallory"
  transferPort := 9000
  manifestPort := 9001
  publicKey := [0]
  identityPublicKey := [3]
  signature := [3] ++ (encode 16 5 ++ [0])
  salt := encode 16 5

/-- Bob signs an answer to Mallory too, before that call fails. -/
def x25519Events : List (ExchangeEvent Bool) :=
  [.initiate false [7] (encode 16 5), .accept true [13], .responder 0 (.message malloryHello),
    .responder 0 .returned, .responder 0 .returned, .accept true [11],
    .responder 1 (.message x25519Hello), .responder 1 .returned,
    .initiator 0 (.message x25519Response), .responder 1 .returned, .initiator 0 .returned]

theorem shared_keys_agree_pair : ∃ e e',
    e ∈ x25519Pair.established (x25519Pair.exec (fun _ ↦ ∅) x25519Events) ∧
      e' ∈ x25519Pair.established (x25519Pair.exec (fun _ ↦ ∅) x25519Events) ∧
        e.role = .initiator ∧ e.Mirrors e' ∧ e'.device = true := by
  have hpair : ∃ e ∈ x25519Pair.established (x25519Pair.exec (fun _ ↦ ∅) x25519Events),
      e.role = .initiator ∧ e.peer.identityPublicKey = (x25519Pair.identity true).publicKey ∧
        ∃ e' ∈ x25519Pair.established (x25519Pair.exec (fun _ ↦ ∅) x25519Events),
          e.result.receiveKey = e'.result.sendKey := by
    decide +kernel
  obtain ⟨e, he, hrole, hidentity, e', he', hkey⟩ := hpair
  obtain ⟨hmirrors, -, -, hdevice, -⟩ := X25519Setting.shared_keys_agree (fun _ ↦ ∅) x25519Events
    x25519Pair_sized (by unfold X25519Setting.UnforgedSignatures; decide +kernel)
    (by unfold X25519Setting.FreshEphemerals; decide +kernel)
    (by unfold X25519Setting.CollisionFree; decide +kernel) e he e' he' hkey
  exact ⟨e, e', he, he', hrole, hmirrors, hdevice true hidentity⟩

end SecureSync
