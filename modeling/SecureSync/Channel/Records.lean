import SecureSync.Channel.Effects

/-!
# What the records of a run have in common

The cipher is ideal: a ciphertext that an endpoint decrypts was made by a call
of `encrypt` with the same key and associated data.  Then every accepted frame
is one that the mirrored session sent, and its counter is used up.
-/

namespace SecureSync

open Raising KeyedTable SlidingWindow SecureChannel

variable {δ π : Type}

/-- Two sessions with crossed keys, opposite roles, and each other's device. -/
structure Network.Mirrored (net : Network δ π) (d : δ) (s : PeerSession) (d' : δ)
    (s' : PeerSession) : Prop where
  sessionId : s'.sessionId = s.sessionId
  role : s'.role = s.role.flip
  sendKey : s'.sendKey = s.receiveKey
  receiveKey : s'.receiveKey = s.sendKey
  peerId : s.peerId = net.deviceId d'
  peerId' : s'.peerId = net.deviceId d

/-- Session ids are unique on a device, and only mirrored sessions share keys. -/
structure World.Apart (net : Network δ π) (w : World δ π) : Prop where
  ids : (w.recorded.map fun p ↦ (p.1, p.2.sessionId)).Nodup
  keys : ∀ d s d' s', (d, s) ∈ w.recorded → (d', s') ∈ w.recorded → s.receiveKey = s'.sendKey →
    net.Mirrored d s d' s'

/-- What `open` decrypts has come out of `encrypt`, for the same key and
associated data. -/
def Network.Unforged (net : Network δ π) (w : World δ π) : Act δ π → Prop
  | .deliver d frame _ =>
      ∀ header encrypted s aad framed, splitFrame frame = .ok (header, encrypted) →
        (w.endpoints d).store.getBySessionId header.sessionId = some s →
          buildAad header (utf8 s.peerId) (utf8 (net.deviceId d)) = .ok aad →
            net.cipher.decrypt encrypted s.receiveKey aad = some framed →
              ∃ entry ∈ w.sent, entry.call.key = s.receiveKey ∧
                entry.call.associatedData = aad ∧ net.cipher.run entry.call = encrypted
  | _ => True

/-- The states that are reached while the cipher is not broken. -/
inductive Network.Run [DecidableEq δ] (net : Network δ π) : World δ π → Prop
  | start : net.Run (.start net.policy)
  | step {w : World δ π} (act : Act δ π) (h : net.Run w) (hideal : net.Unforged w act) :
      net.Run (net.step w act)

/-! ## Records -/

def Sent.key (e : Sent δ π) : δ × Bytes × ℕ := (e.device, e.sessionId, e.counter)

def Opened.key (o : Opened δ π) : δ × Bytes × ℕ := (o.device, o.sessionId, o.counter)

/-- The entry belongs to a recorded session, and is the message with its counter. -/
structure Sent.Genuine (net : Network δ π) (w : World δ π) (e : Sent δ π) (s : PeerSession)
    (header : FrameHeader) : Prop where
  recorded : (e.device, s) ∈ w.recorded
  sessionId : s.sessionId = e.sessionId
  call : IsCall (net.channel e.device) s e.packetType e.payload e.counter e.clock header
    e.call
  frame : ∀ frame, e.frame? = some frame ↔ encodeFrame header (net.cipher.run e.call) = .ok frame

/-- The accepted frame is the one that was sent, from the mirrored session. -/
structure Opened.From (net : Network δ π) (w : World δ π) (o : Opened δ π) (e : Sent δ π)
    (s s' : PeerSession) : Prop where
  recorded : (o.device, s) ∈ w.recorded
  recorded' : (e.device, s') ∈ w.recorded
  mirrored : net.Mirrored o.device s e.device s'
  sessionId : s.sessionId = o.sessionId
  sent_sessionId : e.sessionId = o.sessionId
  counter : e.counter = o.counter
  packetType : e.packetType = o.packetType
  payload : e.payload = o.payload
  frame : e.frame? = some o.frame

/-- The windows and counters of all session objects agree with the records. -/
structure World.Sound (net : Network δ π) (w : World δ π) : Prop where
  terms : ∀ d id s, w.find d id = some s → ∃ s₀, (d, s₀) ∈ w.recorded ∧ s₀.SameTerms s
  sent_used : ∀ e ∈ w.sent, ∃ s, w.find e.device e.sessionId = some s ∧
    e.counter < s.nextSendCounter
  sent_nodup : (w.sent.map Sent.key).Nodup
  sent_genuine : ∀ e ∈ w.sent, ∃ s header, e.Genuine net w s header
  window : ∀ d id s, w.find d id = some s → ∃ a, s.receiveWindow.Tracks a ∧
    a.size = AntiReplayWindow.defaultSize ∧
    ∀ c, c ∈ a.seen ↔ ∃ o ∈ w.opened, o.device = d ∧ o.sessionId = id ∧ (o.counter : ℤ) = c
  opened_found : ∀ o ∈ w.opened, (w.find o.device o.sessionId).isSome
  opened_nodup : (w.opened.map Opened.key).Nodup
  opened_from : ∀ o ∈ w.opened, ∃ e ∈ w.sent, ∃ s s', o.From net w e s s'

variable {net : Network δ π} {w w' : World δ π} {d : δ} {s s' : PeerSession}

theorem Sent.Genuine.mono {e : Sent δ π} {header : FrameHeader}
    (h : e.Genuine net w s header) (hsub : w.recorded ⊆ w'.recorded) :
    e.Genuine net w' s header :=
  ⟨hsub h.recorded, h.sessionId, h.call, h.frame⟩

theorem Opened.From.mono {o : Opened δ π} {e : Sent δ π} (h : o.From net w e s s')
    (hsub : w.recorded ⊆ w'.recorded) : o.From net w' e s s' :=
  { h with recorded := hsub h.recorded, recorded' := hsub h.recorded' }

theorem SecureChannel.IsCall.of_sameTerms {channel : SecureChannel π} {packetType : PacketType}
    {payload : π} {counter : ℕ} {clock : ChannelClock} {header : FrameHeader} {call : Encryption}
    (h : IsCall channel s packetType payload counter clock header call) (hs : s'.SameTerms s) :
    IsCall channel s' packetType payload counter clock header call where
  header_eq := by rw [h.header_eq, hs.role, hs.sessionId]
  key_eq := by rw [h.key_eq, hs.sendKey]
  nonce_eq := by rw [← hs.role, h.nonce_eq]
  aad_eq := by rw [← hs.peerId, h.aad_eq]
  plaintext_eq := h.plaintext_eq

/-! ## Steps keep the records sound -/

namespace World

theorem Wrote.find_cases (h : w.Wrote w' d s') {d₁ : δ} {id : Bytes} {s₁ : PeerSession}
    (hfind : w'.find d₁ id = some s₁) :
    (d₁ = d ∧ id = s'.sessionId ∧ s₁ = s') ∨
      ((d₁, id) ≠ (d, s'.sessionId) ∧ w.find d₁ id = some s₁) := by
  by_cases hsame : (d₁, id) = (d, s'.sessionId)
  · obtain ⟨rfl, rfl⟩ := Prod.mk.inj hsame
    exact .inl ⟨rfl, rfl, Option.some.inj (hfind.symm.trans h.self)⟩
  · exact .inr ⟨hsame, h.other d₁ id hsame ▸ hfind⟩

theorem Wrote.isSome (h : w.Wrote w' d s') {d₁ : δ} {id : Bytes}
    (hfind : (w.find d₁ id).isSome) : (w'.find d₁ id).isSome := by
  by_cases hsame : (d₁, id) = (d, s'.sessionId)
  · obtain ⟨rfl, rfl⟩ := Prod.mk.inj hsame
    rw [h.self]
    rfl
  · rw [h.other d₁ id hsame]
    exact hfind

/-- Counters that are used stay used when an object is replaced by a later one. -/
theorem Wrote.used (h : w.Wrote w' d s') (hfind : w.find d s'.sessionId = some s)
    (hcounter : s.nextSendCounter ≤ s'.nextSendCounter) {e : Sent δ π}
    (he : ∃ s, w.find e.device e.sessionId = some s ∧ e.counter < s.nextSendCounter) :
    ∃ s, w'.find e.device e.sessionId = some s ∧ e.counter < s.nextSendCounter := by
  obtain ⟨s₁, hs₁, hlt⟩ := he
  by_cases hsame : (e.device, e.sessionId) = (d, s'.sessionId)
  · obtain ⟨hd, hid⟩ := Prod.mk.inj hsame
    rw [hd, hid, hfind] at hs₁
    cases hs₁
    exact ⟨s', by rw [hd, hid, h.self], hlt.trans_le hcounter⟩
  · exact ⟨s₁, by rw [h.other _ _ hsame, hs₁], hlt⟩

/-- What is on record stays true of a world that records more. -/
theorem Sound.genuine_of_subset (h : w.Sound net) (hsub : w.recorded ⊆ w'.recorded)
    {e : Sent δ π} (he : e ∈ w.sent) : ∃ s header, e.Genuine net w' s header := by
  obtain ⟨s, header, hgenuine⟩ := h.sent_genuine e he
  exact ⟨s, header, hgenuine.mono hsub⟩

theorem Sound.from_of_subset (h : w.Sound net) (hsub : w.recorded ⊆ w'.recorded)
    (hsent : w.sent ⊆ w'.sent) {o : Opened δ π} (ho : o ∈ w.opened) :
    ∃ e ∈ w'.sent, ∃ s s', o.From net w' e s s' := by
  obtain ⟨e, he, s, s', hfrom⟩ := h.opened_from o ho
  exact ⟨e, hsent he, s, s', hfrom.mono hsub⟩

/-- An object that moves on keeps the terms that are on record. -/
theorem Sound.terms_wrote (h : w.Sound net) (hfind : w.find d s.sessionId = some s)
    (hwrote : w.Wrote w' d s') (hterms : s.SameTerms s') {d₁ : δ} {id : Bytes} {s₁ : PeerSession}
    (hs₁ : w'.find d₁ id = some s₁) : ∃ s₀, (d₁, s₀) ∈ w.recorded ∧ s₀.SameTerms s₁ := by
  rcases hwrote.find_cases hs₁ with ⟨rfl, rfl, rfl⟩ | ⟨-, hs₁⟩
  · obtain ⟨s₀, hs₀, hterms₀⟩ := h.terms _ _ _ hfind
    exact ⟨s₀, hs₀, hterms₀.trans hterms⟩
  · exact h.terms _ _ _ hs₁

/-- An object moves on without a change of its window. -/
theorem Sound.changed (h : w.Sound net) (hfind : w.find d s.sessionId = some s)
    (hwrote : w.Wrote w' d s') (hterms : s.SameTerms s')
    (hcounter : s.nextSendCounter ≤ s'.nextSendCounter)
    (hwindow : s'.receiveWindow = s.receiveWindow) (hsame : w.SameRecords w') : w'.Sound net where
  terms d₁ id s₁ hs₁ := by
    rw [hsame.recorded]
    exact h.terms_wrote hfind hwrote hterms hs₁
  sent_used e he := by
    rw [hsame.sent] at he
    exact hwrote.used (hterms.sessionId ▸ hfind) hcounter (h.sent_used e he)
  sent_nodup := hsame.sent ▸ h.sent_nodup
  sent_genuine e he := h.genuine_of_subset (hsame.recorded ▸ List.Subset.refl _) (hsame.sent ▸ he)
  window d₁ id s₁ hs₁ := by
    rw [hsame.opened]
    rcases hwrote.find_cases hs₁ with ⟨rfl, rfl, rfl⟩ | ⟨-, hs₁⟩
    · rw [hwindow]
      exact hterms.sessionId ▸ h.window _ _ _ hfind
    · exact h.window _ _ _ hs₁
  opened_found o ho := hwrote.isSome (h.opened_found o (hsame.opened ▸ ho))
  opened_nodup := hsame.opened ▸ h.opened_nodup
  opened_from o ho := h.from_of_subset (hsame.recorded ▸ List.Subset.refl _)
    (hsame.sent ▸ List.Subset.refl _) (hsame.opened ▸ ho)

theorem Sound.quiet (h : w.Sound net) (hfind : ∀ d id, w'.find d id = w.find d id)
    (hsame : w.SameRecords w') : w'.Sound net where
  terms d id s hs := by
    rw [hsame.recorded]
    exact h.terms d id s (hfind d id ▸ hs)
  sent_used e he := by
    rw [hfind]
    exact h.sent_used e (hsame.sent ▸ he)
  sent_nodup := hsame.sent ▸ h.sent_nodup
  sent_genuine e he := h.genuine_of_subset (hsame.recorded ▸ List.Subset.refl _) (hsame.sent ▸ he)
  window d id s hs := by
    rw [hsame.opened]
    exact h.window d id s (hfind d id ▸ hs)
  opened_found o ho := by
    rw [hfind]
    exact h.opened_found o (hsame.opened ▸ ho)
  opened_nodup := hsame.opened ▸ h.opened_nodup
  opened_from o ho := h.from_of_subset (hsame.recorded ▸ List.Subset.refl _)
    (hsame.sent ▸ List.Subset.refl _) (hsame.opened ▸ ho)

/-- A new entry for the counter that was taken last. -/
theorem Sound.sent (h : w.Sound net) {e : Sent δ π} {header : FrameHeader}
    (hsent : w'.sent = w.sent ++ [e]) (hsame : w.SameRecords { w' with sent := w.sent })
    (hfind : ∀ d id, w'.find d id = w.find d id) (hgenuine : e.Genuine net w s header)
    (hused : ∃ s, w.find e.device e.sessionId = some s ∧ e.counter < s.nextSendCounter)
    (hnew : ∀ e' ∈ w.sent, e'.device = e.device → e'.sessionId = e.sessionId →
      e'.counter < e.counter) : w'.Sound net := by
  have hrecorded : w.recorded ⊆ w'.recorded := hsame.recorded ▸ List.Subset.refl _
  have hopened : w'.opened = w.opened := hsame.opened
  constructor
  case terms =>
    intro d id s hs
    obtain ⟨s₀, hs₀, hterms⟩ := h.terms d id s (hfind d id ▸ hs)
    exact ⟨s₀, hrecorded hs₀, hterms⟩
  case sent_used =>
    intro e' he'
    rw [hsent, List.mem_append, List.mem_singleton] at he'
    rw [hfind]
    rcases he' with he' | rfl
    · exact h.sent_used e' he'
    · exact hused
  case sent_nodup =>
    rw [hsent, List.map_append, List.map_singleton, ← List.concat_eq_append]
    refine h.sent_nodup.concat ?_
    rw [List.mem_map]
    rintro ⟨e', he', hkey⟩
    simp only [Sent.key, Prod.mk.injEq] at hkey
    exact absurd hkey.2.2 (hnew e' he' hkey.1 hkey.2.1).ne
  case sent_genuine =>
    intro e' he'
    rw [hsent, List.mem_append, List.mem_singleton] at he'
    rcases he' with he' | rfl
    · exact h.genuine_of_subset hrecorded he'
    · exact ⟨s, header, hgenuine.mono hrecorded⟩
  case window =>
    intro d id s hs
    rw [hopened]
    exact h.window d id s (hfind d id ▸ hs)
  case opened_found =>
    intro o ho
    rw [hfind]
    exact h.opened_found o (hopened ▸ ho)
  case opened_nodup => exact hopened ▸ h.opened_nodup
  case opened_from =>
    intro o ho
    refine h.from_of_subset hrecorded ?_ (hopened ▸ ho)
    rw [hsent]
    exact List.subset_append_left _ _

/-- A session is recorded under an id that the device has not used. -/
theorem Sound.recorded (h : w.Sound net) {terms : SessionTerms} {now : ℚ}
    (hwrote : w.Wrote w' d (.start terms now))
    (hsame : w.SameRecords { w' with recorded := w.recorded })
    (hrecorded : w'.recorded = w.recorded ++ [(d, .start terms now)])
    (hids : (w'.recorded.map fun p ↦ (p.1, p.2.sessionId)).Nodup) : w'.Sound net := by
  have hsub : w.recorded ⊆ w'.recorded := by
    rw [hrecorded]
    exact List.subset_append_left _ _
  have hsent : w'.sent = w.sent := hsame.sent
  have hopened : w'.opened = w.opened := hsame.opened
  have hnone : ∀ s, w.find d terms.sessionId ≠ some s := by
    intro s hs
    obtain ⟨s₀, hs₀, hterms⟩ := h.terms _ _ _ hs
    rw [hrecorded, List.map_append, List.nodup_append] at hids
    refine hids.2.2 _ (List.mem_map_of_mem hs₀) _ (List.mem_singleton_self _) ?_
    exact Prod.ext rfl (hterms.sessionId.symm.trans (Network.find_sessionId hs))
  constructor
  case terms =>
    intro d₁ id s₁ hs₁
    rw [hrecorded]
    rcases hwrote.find_cases hs₁ with ⟨rfl, rfl, rfl⟩ | ⟨-, hs₁⟩
    · exact ⟨_, List.mem_append_right _ (List.mem_singleton_self _), rfl, rfl, rfl, rfl, rfl, rfl⟩
    · obtain ⟨s₀, hs₀, hterms⟩ := h.terms _ _ _ hs₁
      exact ⟨s₀, List.mem_append_left _ hs₀, hterms⟩
  case sent_used =>
    intro e he
    obtain ⟨s₁, hs₁, hlt⟩ := h.sent_used e (hsent ▸ he)
    refine ⟨s₁, ?_, hlt⟩
    rw [hwrote.other _ _ _, hs₁]
    rintro heq
    obtain ⟨hd, hid⟩ := Prod.mk.inj heq
    rw [hd, hid] at hs₁
    exact hnone s₁ hs₁
  case sent_nodup => exact hsent ▸ h.sent_nodup
  case sent_genuine => exact fun e he ↦ h.genuine_of_subset hsub (hsent ▸ he)
  case window =>
    intro d₁ id s₁ hs₁
    rw [hopened]
    rcases hwrote.find_cases hs₁ with ⟨rfl, rfl, rfl⟩ | ⟨-, hs₁⟩
    · -- nothing was accepted under the new id
      refine ⟨SlidingWindow.empty _, AntiReplayWindow.tracks_make (by decide), rfl,
        fun c ↦ ⟨fun hc ↦ absurd hc (Finset.notMem_empty c), ?_⟩⟩
      rintro ⟨o, ho, rfl, hid, -⟩
      obtain ⟨s₁, hs₁⟩ := Option.isSome_iff_exists.mp (h.opened_found o ho)
      rw [hid] at hs₁
      exact absurd hs₁ (hnone s₁)
    · exact h.window _ _ _ hs₁
  case opened_found => exact fun o ho ↦ hwrote.isSome (h.opened_found o (hopened ▸ ho))
  case opened_nodup => exact hopened ▸ h.opened_nodup
  case opened_from =>
    exact fun o ho ↦ h.from_of_subset hsub (hsent ▸ List.Subset.refl _) (hopened ▸ ho)

end World

/-! ### Accepting a frame -/

@[simp] theorem SecureChannel.receiveWindow_received (s : PeerSession) (counter : ℕ)
    (clock : ChannelClock) :
    (received s counter clock).receiveWindow = s.receiveWindow.advance counter := by
  unfold received afterAccept
  dsimp only
  split_ifs <;> rfl

@[simp] theorem SecureChannel.nextSendCounter_received (s : PeerSession) (counter : ℕ)
    (clock : ChannelClock) : (received s counter clock).nextSendCounter = s.nextSendCounter := by
  unfold received afterAccept
  dsimp only
  split_ifs <;> rfl

/-- A frame that passes all checks is the one that was made by some call of
`seal`, as far as its session, its counter and its content go. -/
theorem SecureChannel.Authentic.eq_of_isCall {channel channel' : SecureChannel π}
    {store : SessionStore} {frame : Bytes} {clock clock' : ChannelClock} {packet : Packet π}
    {counter counter' : ℕ} {header header' : FrameHeader} {encrypted : EncryptedPayload}
    {aad framed : Bytes} {packetType : PacketType} {payload : π} {call : Encryption}
    (h : Authentic channel store frame clock s packet counter header encrypted aad framed)
    (hcall : IsCall channel' s' packetType payload counter' clock' header' call)
    (hcorrect : channel.cipher.Correct) (hmsgpack : channel'.msgpack = channel.msgpack)
    (hround : ∀ p, channel.msgpack.unpackb (channel.msgpack.packb p) = some p)
    (hkey : call.key = s.receiveKey) (haad : call.associatedData = aad)
    (hrun : channel.cipher.run call = encrypted) (hid : s'.sessionId = s.sessionId) :
    header = header' ∧ counter = counter' ∧
      packet = (Packet.mk (makeHeader packetType counter' clock'.milliseconds)
        payload).completed channel.msgpack := by
  have hplain : call.plaintext = framed := by
    have hdecrypt := hcorrect.decrypt_run call
    rw [hrun, hkey, haad, h.decrypt_eq] at hdecrypt
    exact (Option.some.inj hdecrypt).symm
  have hdecode : Packet.decode channel.msgpack framed = .ok
      ((Packet.mk (makeHeader packetType counter' clock'.milliseconds) payload).completed
        channel.msgpack) :=
    Packet.decode_encode channel.msgpack (hround payload)
      (by rw [← hmsgpack, ← hplain, hcall.plaintext_eq])
  have hnonce : call.nonce = encrypted.nonce := by rw [← hrun, hcorrect.nonce_run]
  refine ⟨?_, ?_, ?_⟩
  · obtain ⟨-, -, haad₁⟩ := buildAad_eq_ok.mp h.aad_eq
    obtain ⟨-, -, haad₂⟩ := buildAad_eq_ok.mp hcall.aad_eq
    rw [haad, ← haad₁] at haad₂
    simp only [List.cons.injEq] at haad₂
    obtain ⟨hversion, hdirection, htype, -⟩ := haad₂
    have hsid : header'.sessionId = header.sessionId := by
      rw [hcall.header_eq, ← (SessionStore.getBySessionId_eq_some.mp h.session_eq).2]
      exact hid
    cases header
    cases header'
    simp_all
  · rw [h.counter_eq, ← hnonce, counterOfNonce_deriveNonce hcall.nonce_eq]
  · exact Except.ok.inj (h.packet_eq.symm.trans hdecode)

/-- What the parameters of a network are relied on for. -/
structure Network.Lawful (net : Network δ π) : Prop where
  cipher : net.cipher.Correct
  msgpack : ∀ p, net.msgpack.unpackb (net.msgpack.packb p) = some p

/-! ### A network on which to run examples -/

/-- The tag shows the key and the associated data. -/
def plainCipher : AeadCipher where
  encrypt plaintext key nonce aad :=
    ⟨plaintext, nonce, (key ++ aad ++ List.replicate tagSize 0).take tagSize⟩
  decrypt payload key aad :=
    if payload.tag = (key ++ aad ++ List.replicate tagSize 0).take tagSize then
      some payload.ciphertext
    else none

theorem plainCipher_correct : plainCipher.Correct where
  nonce_run _ := rfl
  length_tag_run call := by
    simp only [AeadCipher.run, plainCipher, List.length_take, List.length_append,
      List.length_replicate]
    omega
  decrypt_run _ := if_pos rfl

/-- Alice initiates and Bob responds. -/
def pairNetworkOf (msgpack : MsgPack π) : Network Bool π where
  deviceId responds := if responds then "bob" else "alice"
  cipher := plainCipher
  msgpack := msgpack
  timestampSkewMs := defaultTimestampSkewMs
  policy := {}

/-- A payload is a number below 128. -/
def pairNetwork : Network Bool (Fin 128) := pairNetworkOf
  { packb := fun p ↦ [UInt8.ofNat p]
    unpackb := fun bs ↦ (bs.head?.map UInt8.toNat).map (Fin.ofNat 128) }

def pairPayload : Fin 128 := 5

def pairPayloads : List (Fin 128) := [5, 6, 7]

theorem pairNetwork_lawful : pairNetwork.Lawful where
  cipher := plainCipher_correct
  msgpack := by decide

def pairTerms (responds : Bool) : SessionTerms where
  peerId := pairNetwork.deviceId !responds
  sessionId := [1, 2, 3, 4, 5, 6, 7, 8]
  role := if responds then .responder else .initiator
  sendKey := if responds then [2] else [1]
  receiveKey := if responds then [1] else [2]
  transferPort := 9000
  manifestPort := 9001
  confirmed := !responds

def pairSessions : List (Bool × PeerSession) :=
  [(false, .start (pairTerms false) 0), (true, .start (pairTerms true) 0)]

def pairStart : World Bool (Fin 128) :=
  pairNetwork.step (pairNetwork.step (.start pairNetwork.policy) (.put false (pairTerms false) 0))
    (.put true (pairTerms true) 0)

theorem pairStart_run : pairNetwork.Run pairStart := .step _ (.step _ .start trivial) trivial

theorem pairStart_recorded : pairStart.recorded = pairSessions := by decide +kernel

theorem pair_mirrored (msgpack : MsgPack π) (responds : Bool) :
    (pairNetworkOf msgpack).Mirrored responds (.start (pairTerms responds) 0) (!responds)
      (.start (pairTerms !responds) 0) := by
  cases responds <;> exact ⟨rfl, rfl, rfl, rfl, rfl, rfl⟩

theorem mem_pairSessions {responds : Bool} {s : PeerSession} :
    (responds, s) ∈ pairSessions ↔ s = .start (pairTerms responds) 0 := by
  cases responds <;> simp [pairSessions]

theorem pair_apart {msgpack : MsgPack π} {w : World Bool π} (hw : w.recorded = pairSessions) :
    w.Apart (pairNetworkOf msgpack) := by
  refine ⟨by rw [hw]; decide, ?_⟩
  intro d s d' s' hs hs' hkey
  rw [hw, mem_pairSessions] at hs hs'
  subst hs hs'
  cases d <;> cases d'
  · exact absurd hkey (by decide)
  · exact pair_mirrored msgpack false
  · exact pair_mirrored msgpack true
  · exact absurd hkey (by decide)

namespace World

/-- An accepted frame is the one that the mirrored session sent. -/
theorem Sound.exists_from (h : w.Sound net) (hlawful : net.Lawful) (hapart : w.Apart net)
    {packet : Packet π} {counter : ℕ} {frame : Bytes} {clock : ChannelClock} {header : FrameHeader}
    {encrypted : EncryptedPayload} {aad framed : Bytes}
    (hauthentic : Authentic (net.channel d) (w.endpoints d).store frame clock s packet counter
      header encrypted aad framed)
    (hideal : net.Unforged w (.deliver d frame clock)) :
    packet.header.messageId = counter ∧ ∃ e ∈ w.sent, ∃ s₀ s₁,
      Opened.From net w ⟨d, s.sessionId, packet.header.messageId, packet.header.packetType,
        packet.payload, clock, frame⟩ e s₀ s₁ := by
  obtain ⟨e, he, hkey, haad, hrun⟩ := hideal header encrypted s aad framed hauthentic.split_eq
    hauthentic.session_eq hauthentic.aad_eq hauthentic.decrypt_eq
  obtain ⟨s₀, hs₀, hterms⟩ := h.terms _ _ _ (Endpoint.find_of_store hauthentic.session_eq)
  obtain ⟨s₁, header₁, hgenuine⟩ := h.sent_genuine e he
  have hmirrored := hapart.keys d s₀ e.device s₁ hs₀ hgenuine.recorded
    (by rw [← hterms.receiveKey, ← hkey, hgenuine.call.key_eq])
  obtain ⟨rfl, rfl, rfl⟩ := hauthentic.eq_of_isCall hgenuine.call hlawful.cipher rfl
    hlawful.msgpack hkey haad hrun (hmirrored.sessionId.trans hterms.sessionId.symm)
  refine ⟨rfl, e, he, s₀, s₁, hs₀, hgenuine.recorded, hmirrored, hterms.sessionId.symm, ?_, rfl,
    rfl, rfl, ?_⟩
  · rw [← hgenuine.sessionId, hmirrored.sessionId, hterms.sessionId]
  · rw [hgenuine.frame, hrun]
    exact encodeFrame_splitFrame hauthentic.split_eq

theorem Sound.opened (h : w.Sound net) (hlawful : net.Lawful) (hapart : w.Apart net)
    {packet : Packet π} {counter : ℕ} {frame : Bytes} {clock : ChannelClock} {header : FrameHeader}
    {encrypted : EncryptedPayload} {aad framed : Bytes}
    (hauthentic : Authentic (net.channel d) (w.endpoints d).store frame clock s packet counter
      header encrypted aad framed)
    (hideal : net.Unforged w (.deliver d frame clock))
    (hwrote : w.Wrote w' d (received s counter clock))
    (hsame : w.SameRecords { w' with opened := w.opened })
    (hopened : w'.opened = w.opened ++ [⟨d, s.sessionId, packet.header.messageId,
      packet.header.packetType, packet.payload, clock, frame⟩]) : w'.Sound net := by
  obtain ⟨hcounter, hfrom⟩ := h.exists_from hlawful hapart hauthentic hideal
  have hrecorded : w'.recorded = w.recorded := hsame.recorded
  have hsub : w.recorded ⊆ w'.recorded := hrecorded ▸ List.Subset.refl _
  have hsent : w'.sent = w.sent := hsame.sent
  have hterms := SecureChannel.sameTerms_received s counter clock
  have hid := (SessionStore.getBySessionId_eq_some.mp hauthentic.session_eq).2
  have hfind : w.find d s.sessionId = some s := by
    rw [hid]
    exact Endpoint.find_of_store hauthentic.session_eq
  obtain ⟨a, htracks, hsize, hseen⟩ := h.window _ _ _ hfind
  have hadmits := htracks.wouldAccept_iff.mp hauthentic.wouldAccept
  have hfresh : ∀ o ∈ w.opened, o.device = d → o.sessionId = s.sessionId →
      o.counter ≠ counter := by
    rintro o ho hd hs rfl
    exact Window.not_admits_of_mem ((hseen _).mpr ⟨o, ho, hd, hs, rfl⟩) hadmits
  constructor
  case terms =>
    intro d₁ id s₁ hs₁
    rw [hrecorded]
    exact h.terms_wrote hfind hwrote hterms hs₁
  case sent_used =>
    intro e he
    exact hwrote.used (hterms.sessionId ▸ hfind) (nextSendCounter_received ..).ge
      (h.sent_used e (hsent ▸ he))
  case sent_nodup => exact hsent ▸ h.sent_nodup
  case sent_genuine => exact fun e he ↦ h.genuine_of_subset hsub (hsent ▸ he)
  case window =>
    intro d₁ id s₁ hs₁
    simp only [hopened, List.mem_append, List.mem_singleton, or_and_right, exists_or,
      exists_eq_left]
    rcases hwrote.find_cases hs₁ with ⟨rfl, rfl, rfl⟩ | ⟨hne, hs₁⟩
    · refine ⟨a.record counter, ?_, hsize, fun c ↦ ?_⟩
      · rw [receiveWindow_received]
        exact htracks.advance hadmits
      · rw [Window.mem_record_seen, hseen c, hcounter, hterms.sessionId]
        simp only [true_and, or_comm, eq_comm]
    · obtain ⟨a₁, htracks₁, hsize₁, hseen₁⟩ := h.window _ _ _ hs₁
      refine ⟨a₁, htracks₁, hsize₁, fun c ↦ ?_⟩
      rw [hseen₁ c]
      refine ⟨.inl, ?_⟩
      rintro (ho | ⟨hd, hs, -⟩)
      · exact ho
      · exact absurd (Prod.ext hd.symm (hs.symm.trans hterms.sessionId.symm)) hne
  case opened_found =>
    intro o ho
    rw [hopened, List.mem_append, List.mem_singleton] at ho
    rcases ho with ho | rfl
    · exact hwrote.isSome (h.opened_found o ho)
    · rw [← hterms.sessionId, hwrote.self]
      rfl
  case opened_nodup =>
    rw [hopened, List.map_append, List.map_singleton, ← List.concat_eq_append]
    refine h.opened_nodup.concat ?_
    rw [List.mem_map]
    rintro ⟨o, ho, hkey⟩
    simp only [Opened.key, Prod.mk.injEq] at hkey
    exact hfresh o ho hkey.1 hkey.2.1 (hkey.2.2.trans hcounter)
  case opened_from =>
    intro o ho
    rw [hopened, List.mem_append, List.mem_singleton] at ho
    rcases ho with ho | rfl
    · exact h.from_of_subset hsub (hsent ▸ List.Subset.refl _) ho
    · rw [hsent]
      obtain ⟨e, he, s₁, s₂, hfrom⟩ := hfrom
      exact ⟨e, he, s₁, s₂, hfrom.mono hsub⟩

theorem sound_start (policy : SessionPolicy) : (start policy : World δ π).Sound net := by
  have hfind (d : δ) (id : Bytes) : (start policy : World δ π).find d id = none := rfl
  constructor
  case terms =>
    intro d id s hs
    cases hs
  case sent_used => exact fun e he ↦ nomatch he
  case sent_nodup => exact List.nodup_nil
  case sent_genuine => exact fun e he ↦ nomatch he
  case window =>
    intro d id s hs
    cases hs
  case opened_found => exact fun o ho ↦ nomatch ho
  case opened_nodup => exact List.nodup_nil
  case opened_from => exact fun o ho ↦ nomatch ho

theorem Sound.effect (h : w.Sound net) (hlawful : net.Lawful) (hapart : w'.Apart net)
    {act : Act δ π} (hideal : net.Unforged w act) (heffect : Effect net w act w') :
    w'.Sound net := by
  cases heffect with
  | quiet hfind hsame => exact h.quiet hfind hsame
  | changed d s s' hfind hwrote hterms hcounter hwindow hactivity hconfirmed hsame =>
      exact h.changed hfind hwrote hterms hcounter hwindow hsame
  | sent d s s' e header hact hfind hwrote hterms hcounter hwindow hactivity hconfirmed hcall
      hdevice hid hcount hframe hsame hsent =>
      have hmid : { w' with sent := w.sent }.Sound net :=
        h.changed hfind ⟨hwrote.self, hwrote.other⟩ hterms (by omega) hwindow hsame
      obtain ⟨s₀, hs₀, hterms₀⟩ := h.terms _ _ _ hfind
      have hrecorded : w'.recorded = w.recorded := hsame.recorded
      have hgenuine : e.Genuine net { w' with sent := w.sent } s₀ header :=
        ⟨by rw [hdevice, hrecorded]; exact hs₀, by rw [hid, hterms₀.sessionId],
          by rw [hdevice]; exact hcall.of_sameTerms hterms₀, hframe⟩
      refine hmid.sent hsent ⟨rfl, rfl, rfl⟩ (fun _ _ ↦ rfl) hgenuine ?_ ?_
      · refine ⟨s', ?_, by omega⟩
        rw [hdevice, hid, ← hterms.sessionId]
        exact hwrote.self
      · -- every counter used before is below the one just taken
        intro e' he' hd hs
        obtain ⟨s₁, hs₁, hlt⟩ := h.sent_used e' he'
        rw [hd, hs, hdevice, hid, hfind] at hs₁
        cases hs₁
        omega
  | opened d s packet counter frame clock header encrypted aad framed hact hauthentic hwrote hsame
      hopened =>
      subst hact
      have hrecorded : w'.recorded = w.recorded := hsame.recorded
      exact h.opened hlawful ⟨hrecorded ▸ hapart.ids, hrecorded ▸ hapart.keys⟩ hauthentic hideal
        hwrote hsame hopened
  | recorded d terms now hact hwrote hsame hrecorded =>
      exact h.recorded hwrote hsame hrecorded hapart.ids

theorem recorded_step [DecidableEq δ] (act : Act δ π) :
    w.recorded <+: (net.step w act).recorded := by
  cases net.effect_step w act with
  | quiet _ hsame => rw [hsame.recorded]
  | changed _ _ _ _ _ _ _ _ _ _ hsame => rw [hsame.recorded]
  | sent _ _ _ _ _ _ _ _ _ _ _ _ _ _ _ _ _ _ hsame _ => rw [← hsame.recorded]
  | opened _ _ _ _ _ _ _ _ _ _ _ _ _ hsame _ => rw [← hsame.recorded]
  | recorded _ _ _ _ _ _ hrecorded =>
      rw [hrecorded]
      exact List.prefix_append _ _

theorem recorded_step_eq [DecidableEq δ] {act : Act δ π}
    (hact : ∀ d terms now, act ≠ .put d terms now) :
    (net.step w act).recorded = w.recorded := by
  cases net.effect_step w act with
  | quiet _ hsame => exact hsame.recorded
  | changed _ _ _ _ _ _ _ _ _ _ hsame => exact hsame.recorded
  | sent _ _ _ _ _ _ _ _ _ _ _ _ _ _ _ _ _ _ hsame _ => exact hsame.recorded
  | opened _ _ _ _ _ _ _ _ _ _ _ _ _ hsame _ => exact hsame.recorded
  | recorded d terms now hput => exact absurd hput (hact d terms now)

theorem recorded_step_put [DecidableEq δ] (terms : SessionTerms) (now : ℚ) :
    (net.step w (.put d terms now)).recorded =
      if Completed (SessionStore.put (.start terms now) now (w.endpoints d).store) then
        w.recorded ++ [(d, .start terms now)]
      else w.recorded := by
  simp only [Network.step]
  cases SessionStore.put (.start terms now) now (w.endpoints d).store <;> rfl

theorem opened_step [DecidableEq δ] (act : Act δ π) : w.opened <+: (net.step w act).opened := by
  cases net.effect_step w act with
  | quiet _ hsame => rw [hsame.opened]
  | changed _ _ _ _ _ _ _ _ _ _ hsame => rw [hsame.opened]
  | sent _ _ _ _ _ _ _ _ _ _ _ _ _ _ _ _ _ _ hsame _ => rw [← hsame.opened]
  | opened _ _ _ _ _ _ _ _ _ _ _ _ _ _ hopened =>
      rw [hopened]
      exact List.prefix_append _ _
  | recorded _ _ _ _ _ hsame _ => rw [← hsame.opened]

theorem sent_step [DecidableEq δ] (act : Act δ π) : w.sent <+: (net.step w act).sent := by
  cases net.effect_step w act with
  | quiet _ hsame => rw [hsame.sent]
  | changed _ _ _ _ _ _ _ _ _ _ hsame => rw [hsame.sent]
  | sent _ _ _ _ _ _ _ _ _ _ _ _ _ _ _ _ _ _ _ hsent =>
      rw [hsent]
      exact List.prefix_append _ _
  | opened _ _ _ _ _ _ _ _ _ _ _ _ _ hsame _ => rw [← hsame.sent]
  | recorded _ _ _ _ _ hsame _ => rw [← hsame.sent]

/-- A seal that returns a frame leaves a record of it. -/
theorem exists_sent_of_seal [DecidableEq δ] (hfind : w.find d s.sessionId = some s)
    {packetType : PacketType} {payload : π} {clock : ChannelClock} {frame : Bytes}
    (hseal : (net.channel d).seal packetType payload clock s = .ok frame s') :
    ∃ e ∈ (net.step w (.seal d s.sessionId packetType payload clock)).sent, e.device = d ∧
      e.sessionId = s.sessionId ∧ e.packetType = packetType ∧ e.payload = payload ∧
        e.frame? = some frame := by
  obtain ⟨hexhausted, -, header, call, hcall, -⟩ := seal_eq_ok.mp hseal
  have hentry : net.sentBy d s packetType payload clock = [{
      device := d
      sessionId := s.sessionId
      counter := s.nextSendCounter
      packetType
      payload
      clock
      call
      frame? := some frame }] := by
    simp [Network.sentBy, hexhausted, encryption_eq_ok.mpr hcall, hseal, value?]
  simp only [Network.step, hfind, hentry]
  exact ⟨_, List.mem_append_right _ (List.mem_singleton_self _), rfl, rfl, rfl, rfl, rfl⟩

theorem Apart.of_prefix (h : w'.Apart net) (hsub : w.recorded <+: w'.recorded) : w.Apart net where
  ids := h.ids.sublist (hsub.sublist.map _)
  keys d s d' s' hs hs' := h.keys d s d' s' (hsub.subset hs) (hsub.subset hs')

end World

/-- While no ciphertext is forged, the records of a run stay sound. -/
theorem Network.Run.sound [DecidableEq δ] (hrun : net.Run w) (hlawful : net.Lawful)
    (hapart : w.Apart net) : w.Sound net := by
  induction hrun with
  | start => exact World.sound_start _
  | step act _ hideal ih =>
      exact (ih (hapart.of_prefix (World.recorded_step act))).effect hlawful hapart hideal
        (net.effect_step _ act)

/-! ## Honest deliveries -/

/-- A frame that was sealed is not a forgery where the mirrored session is. -/
theorem World.Sound.unforged_deliver (h : w.Sound net) {e : Sent δ π} (he : e ∈ w.sent)
    {frame : Bytes} (hframe : e.frame? = some frame) (clock : ChannelClock)
    (hmirrored : ∀ s s', (d, s) ∈ w.recorded → (e.device, s') ∈ w.recorded →
      s.sessionId = e.sessionId → s'.sessionId = e.sessionId → net.Mirrored d s e.device s') :
    net.Unforged w (.deliver d frame clock) := by
  intro header encrypted s aad framed hsplit hsession haad _
  obtain ⟨s₁, header₁, hgenuine⟩ := h.sent_genuine e he
  rw [splitFrame_encodeFrame ((hgenuine.frame _).mp hframe)] at hsplit
  obtain ⟨rfl, rfl⟩ := Prod.mk.inj (Except.ok.inj hsplit)
  obtain ⟨s₀, hs₀, hterms⟩ := h.terms _ _ _ (Endpoint.find_of_store hsession)
  have hid : s₀.sessionId = e.sessionId := by
    rw [← hterms.sessionId, (SessionStore.getBySessionId_eq_some.mp hsession).2,
      hgenuine.call.header_eq, hgenuine.sessionId]
  have hm := hmirrored s₀ s₁ hs₀ hgenuine.recorded hid hgenuine.sessionId
  refine ⟨e, he, ?_, ?_, rfl⟩
  · rw [hgenuine.call.key_eq, hm.sendKey, hterms.receiveKey]
  · have hcall := hgenuine.call.aad_eq
    rw [hm.peerId', show (net.channel e.device).ownDeviceId = net.deviceId e.device from rfl,
      ← hm.peerId, ← hterms.peerId, haad] at hcall
    exact (Except.ok.inj hcall).symm

/-- In the pair, each device can be sent what the other has sealed. -/
theorem pair_unforged {msgpack : MsgPack π} {w : World Bool π} (h : w.Sound (pairNetworkOf msgpack))
    (hw : w.recorded = pairSessions) {responds : Bool} {frame : Bytes}
    (hsent : (!responds, some frame) ∈ w.sent.map fun e ↦ (e.device, e.frame?))
    (clock : ChannelClock) :
    (pairNetworkOf msgpack).Unforged w (.deliver responds frame clock) := by
  obtain ⟨e, he, hfields⟩ := List.mem_map.mp hsent
  obtain ⟨hdevice, hframe⟩ := Prod.mk.inj hfields
  refine h.unforged_deliver he hframe clock fun s s' hs hs' _ _ ↦ ?_
  rw [hw, mem_pairSessions] at hs hs'
  rw [hs, hs', hdevice]
  exact pair_mirrored msgpack responds

end SecureSync
