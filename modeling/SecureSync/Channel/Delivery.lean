import SecureSync.Channel.Records

/-!
# Delivering a sealed frame

Where the mirrored session is recorded, a frame that was sealed is accepted
exactly when the window admits its counter.
-/

namespace SecureSync

open Raising SlidingWindow SecureChannel

variable {δ π : Type} {net : Network δ π} {d d' : δ} {s s' : PeerSession}
  {packetType : PacketType} {payload : π} {counter : ℕ} {clock clock' : ChannelClock}
  {header : FrameHeader} {call : Encryption} {frame : Bytes} {store : SessionStore}

/-- The packet that `seal` encrypts, with its length and checksum. -/
def Network.packet (net : Network δ π) (packetType : PacketType) (payload : π) (counter : ℕ)
    (clock : ChannelClock) : Packet π :=
  (Packet.mk (makeHeader packetType counter clock.milliseconds) payload).completed net.msgpack

theorem Network.authentic_sealed (hlawful : net.Lawful)
    (hcall : IsCall (net.channel d) s packetType payload counter clock header call)
    (hframe : encodeFrame header (net.cipher.run call) = .ok frame)
    (hmirrored : net.Mirrored d s d' s') (hstore : store.getBySessionId s.sessionId = some s')
    (haccept : s'.receiveWindow.wouldAccept counter = true)
    (hskew : |(clock'.milliseconds : ℤ) - clock.milliseconds| ≤ net.timestampSkewMs) :
    Authentic (net.channel d') store frame clock' s'
      (net.packet packetType payload counter clock) counter header (net.cipher.run call)
      call.associatedData call.plaintext where
  split_eq := splitFrame_encodeFrame hframe
  version_eq := by rw [hcall.header_eq]
  session_eq := by rw [hcall.header_eq, hstore]
  direction_eq := by
    rw [hcall.header_eq, hmirrored.role, Role.incomingDirection, Role.flip_flip]
  counter_eq := by rw [hlawful.cipher.nonce_run, counterOfNonce_deriveNonce hcall.nonce_eq]
  wouldAccept := haccept
  aad_eq := by
    rw [← hcall.aad_eq, hmirrored.peerId', hmirrored.peerId]
    rfl
  decrypt_eq := by
    rw [hmirrored.receiveKey, ← hcall.key_eq]
    exact hlawful.cipher.decrypt_run call
  packet_eq := Packet.decode_encode net.msgpack (hlawful.msgpack payload) hcall.plaintext_eq
  nonce_eq := by
    rw [hlawful.cipher.nonce_run, hcall.header_eq]
    exact hcall.nonce_eq
  packetType_eq := by
    rw [hcall.header_eq]
    rfl
  skew := decide_eq_true hskew

theorem Network.Mirrored.symm (h : net.Mirrored d s d' s') : net.Mirrored d' s' d s where
  sessionId := h.sessionId.symm
  role := by rw [h.role, Role.flip_flip]
  sendKey := h.receiveKey.symm
  receiveKey := h.sendKey.symm
  peerId := h.peerId'
  peerId' := h.peerId

theorem Network.Mirrored.of_sameTerms {s₁ : PeerSession} (h : net.Mirrored d s d' s')
    (hs : s'.SameTerms s₁) : net.Mirrored d s d' s₁ where
  sessionId := hs.sessionId.trans h.sessionId
  role := hs.role.trans h.role
  sendKey := hs.sendKey.trans h.sendKey
  receiveKey := hs.receiveKey.trans h.receiveKey
  peerId := h.peerId
  peerId' := hs.peerId.trans h.peerId'

/-- Before the window is asked, a sealed frame passes every check. -/
theorem Network.open_sealed_rejected (hlawful : net.Lawful)
    (hcall : IsCall (net.channel d) s packetType payload counter clock header call)
    (hframe : encodeFrame header (net.cipher.run call) = .ok frame)
    (hmirrored : net.Mirrored d s d' s') (hstore : store.getBySessionId s.sessionId = some s')
    (hreject : s'.receiveWindow.wouldAccept counter = false) :
    (net.channel d').open frame clock' store =
      .error (.replay (.windowRejected counter)) store := by
  have hcounter : counterOfNonce (net.cipher.run call).nonce = counter := by
    rw [hlawful.cipher.nonce_run, counterOfNonce_deriveNonce hcall.nonce_eq]
  have hfilter : preFilter store header counter = .error (.windowRejected counter) := by
    simp [preFilter, hcall.header_eq, hstore, hreject, hmirrored.role, Role.incomingDirection]
  have hauth : (net.channel d').authenticate store frame clock' =
      .error (.replay (.windowRejected counter)) := by
    simp [authenticate, splitFrame_encodeFrame hframe, Except.mapError, bind, Except.bind, hcounter,
      hfilter]
  rw [«open», hauth]

theorem Network.open_sealed_unknown
    (hcall : IsCall (net.channel d) s packetType payload counter clock header call)
    (hframe : encodeFrame header (net.cipher.run call) = .ok frame)
    (hstore : store.getBySessionId s.sessionId = none) :
    (net.channel d').open frame clock' store =
      .error (.replay (.unknownSession s.sessionId)) store := by
  have hauth : (net.channel d').authenticate store frame clock' =
      .error (.replay (.unknownSession s.sessionId)) := by
    simp [authenticate, splitFrame_encodeFrame hframe, Except.mapError, bind, Except.bind,
      preFilter, hcall.header_eq, hstore]
  rw [«open», hauth]

theorem Network.open_sealed (hlawful : net.Lawful)
    (hcall : IsCall (net.channel d) s packetType payload counter clock header call)
    (hframe : encodeFrame header (net.cipher.run call) = .ok frame)
    (hmirrored : net.Mirrored d s d' s') (hstore : store.getBySessionId s.sessionId = some s')
    (haccept : s'.receiveWindow.wouldAccept counter = true)
    (hskew : |(clock'.milliseconds : ℤ) - clock.milliseconds| ≤ net.timestampSkewMs) :
    (net.channel d').open frame clock' store =
      .ok (net.packet packetType payload counter clock, received s' counter clock')
        (store.update (received s' counter clock')) :=
  open_eq_ok.mpr ⟨s', counter, authenticate_eq_ok.mpr ⟨_, _, _, _, Network.authentic_sealed
    hlawful hcall hframe hmirrored hstore haccept hskew⟩, rfl, rfl⟩

/-- Only the window and the clocks decide whether a sealed frame is accepted. -/
theorem Network.completed_open_sealed_iff (hlawful : net.Lawful)
    (hcall : IsCall (net.channel d) s packetType payload counter clock header call)
    (hframe : encodeFrame header (net.cipher.run call) = .ok frame)
    (hmirrored : net.Mirrored d s d' s') (hstore : store.getBySessionId s.sessionId = some s') :
    Completed ((net.channel d').open frame clock' store) ↔
      s'.receiveWindow.wouldAccept counter = true ∧
        |(clock'.milliseconds : ℤ) - clock.milliseconds| ≤ net.timestampSkewMs := by
  constructor
  · intro hcompleted
    cases haccept : s'.receiveWindow.wouldAccept counter with
    | false =>
        rw [open_sealed_rejected hlawful hcall hframe hmirrored hstore haccept] at hcompleted
        exact hcompleted.elim
    | true =>
        obtain ⟨⟨packet, session⟩, store', hopen⟩ := hcompleted.exists_ok
        obtain ⟨s₁, counter', hauth, -, -⟩ := open_eq_ok.mp hopen
        obtain ⟨header', encrypted, aad, framed, h⟩ := authenticate_eq_ok.mp hauth
        have hsplit := h.split_eq
        rw [splitFrame_encodeFrame hframe] at hsplit
        obtain ⟨rfl, rfl⟩ := Prod.mk.inj (Except.ok.inj hsplit)
        have hs₁ := h.session_eq
        rw [hcall.header_eq, hstore] at hs₁
        obtain rfl := Option.some.inj hs₁
        have haad : call.associatedData = aad := by
          have hcallAad := hcall.aad_eq
          rw [hmirrored.peerId, show (net.channel d).ownDeviceId = net.deviceId d from rfl,
            ← hmirrored.peerId'] at hcallAad
          exact Except.ok.inj (hcallAad.symm.trans h.aad_eq)
        obtain ⟨-, -, rfl⟩ := h.eq_of_isCall hcall hlawful.cipher rfl hlawful.msgpack
          (hcall.key_eq.trans hmirrored.receiveKey.symm) haad rfl hmirrored.sessionId.symm
        exact ⟨rfl, of_decide_eq_true h.skew⟩
  · rintro ⟨haccept, hskew⟩
    rw [open_sealed hlawful hcall hframe hmirrored hstore haccept hskew]
    trivial

/-! ## The counters a window has seen -/

variable {w : World δ π}

namespace World

variable (w d) (sessionId : Bytes)

def openedIn [DecidableEq δ] : List (Opened δ π) :=
  w.opened.filter fun o ↦ o.device = d ∧ o.sessionId = sessionId

variable {w d sessionId}

theorem mem_openedIn [DecidableEq δ] {o : Opened δ π} :
    o ∈ w.openedIn d sessionId ↔ o ∈ w.opened ∧ o.device = d ∧ o.sessionId = sessionId := by
  simp [openedIn]

theorem Apart.eq_of_sessionId (h : w.Apart net) {s s' : PeerSession} (hs : (d, s) ∈ w.recorded)
    (hs' : (d, s') ∈ w.recorded) (hid : s'.sessionId = s.sessionId) : s' = s := by
  have heq := List.inj_on_of_nodup_map h.ids hs' hs (Prod.ext rfl hid)
  exact congrArg Prod.snd heq

/-- A frame determines the session and the counter under which a device accepts it. -/
theorem Sound.eq_of_frame (h : w.Sound net) (hcorrect : net.cipher.Correct) {o o' : Opened δ π}
    (ho : o ∈ w.opened) (ho' : o' ∈ w.opened) (hdevice : o.device = o'.device)
    (hframe : o.frame = o'.frame) : o = o' := by
  obtain ⟨e, he, s₀, s₁, hfrom⟩ := h.opened_from o ho
  obtain ⟨e', he', s₀', s₁', hfrom'⟩ := h.opened_from o' ho'
  obtain ⟨s₂, header, hgenuine⟩ := h.sent_genuine e he
  obtain ⟨s₂', header', hgenuine'⟩ := h.sent_genuine e' he'
  have hsplit := splitFrame_encodeFrame ((hgenuine.frame _).mp hfrom.frame)
  have hsplit' := splitFrame_encodeFrame ((hgenuine'.frame _).mp hfrom'.frame)
  rw [hframe, hsplit'] at hsplit
  obtain ⟨hheader, hrun⟩ := Prod.mk.inj (Except.ok.inj hsplit)
  have hsession : o.sessionId = o'.sessionId := by
    rw [hgenuine.call.header_eq, hgenuine'.call.header_eq] at hheader
    rw [← hfrom.sent_sessionId, ← hfrom'.sent_sessionId, ← hgenuine.sessionId,
      ← hgenuine'.sessionId]
    exact (FrameHeader.mk.inj hheader).2.2.2.symm
  have hnonce : e'.call.nonce = e.call.nonce := by
    rw [← hcorrect.nonce_run, ← hcorrect.nonce_run e.call, hrun]
  have hcounter : o.counter = o'.counter := by
    rw [← hfrom.counter, ← hfrom'.counter, ← counterOfNonce_deriveNonce hgenuine.call.nonce_eq,
      ← counterOfNonce_deriveNonce hgenuine'.call.nonce_eq, hnonce]
  refine List.inj_on_of_nodup_map h.opened_nodup ho ho' ?_
  rw [Opened.key, Opened.key, hdevice, hsession, hcounter]

/-- A session id belongs to one initiator and one responder. -/
def IdsUnique (w : World δ π) : Prop :=
  (w.recorded.map fun p ↦ (p.2.sessionId, p.2.role)).Nodup

/-- A frame determines the message that it was sealed for. -/
theorem Sound.eq_of_sent_frame (h : w.Sound net) (hcorrect : net.cipher.Correct)
    (hids : w.IdsUnique) {e e' : Sent δ π} (he : e ∈ w.sent) (he' : e' ∈ w.sent)
    (hframe : e.frame? = some frame) (hframe' : e'.frame? = some frame) : e = e' := by
  obtain ⟨s, header, hgenuine⟩ := h.sent_genuine e he
  obtain ⟨s', header', hgenuine'⟩ := h.sent_genuine e' he'
  have hsplit := splitFrame_encodeFrame ((hgenuine.frame _).mp hframe)
  rw [splitFrame_encodeFrame ((hgenuine'.frame _).mp hframe')] at hsplit
  obtain ⟨hheader, hrun⟩ := Prod.mk.inj (Except.ok.inj hsplit)
  rw [hgenuine.call.header_eq, hgenuine'.call.header_eq] at hheader
  obtain ⟨-, hdirection, -, hid⟩ := FrameHeader.mk.inj hheader
  have hpair : (e'.device, s') = (e.device, s) :=
    List.inj_on_of_nodup_map hids hgenuine'.recorded hgenuine.recorded
      (Prod.ext hid (Role.outgoingDirection_injective hdirection))
  obtain ⟨hdevice, rfl⟩ := Prod.mk.inj hpair
  have hnonce : e'.call.nonce = e.call.nonce := by
    rw [← hcorrect.nonce_run, hrun, hcorrect.nonce_run]
  have hcounter : e'.counter = e.counter := by
    rw [← counterOfNonce_deriveNonce hgenuine'.call.nonce_eq, hnonce,
      counterOfNonce_deriveNonce hgenuine.call.nonce_eq]
  refine (List.inj_on_of_nodup_map h.sent_nodup he' he ?_).symm
  rw [Sent.key, Sent.key, hdevice, hcounter, ← hgenuine'.sessionId, ← hgenuine.sessionId]

/-- What a session has accepted was sent under a counter that its peer has used. -/
theorem Sound.lt_nextSendCounter [DecidableEq δ] (h : w.Sound net) (hapart : w.Apart net)
    (hinj : Function.Injective net.deviceId) (hs : w.find d s.sessionId = some s)
    (hs' : w.find d' s'.sessionId = some s') (hmirrored : net.Mirrored d s d' s')
    {o : Opened δ π} (ho : o ∈ w.openedIn d' s'.sessionId) : o.counter < s.nextSendCounter := by
  obtain ⟨hmem, rfl, hid⟩ := mem_openedIn.mp ho
  obtain ⟨e, he, s₀, s₁, hfrom⟩ := h.opened_from o hmem
  obtain ⟨s₂, hs₂, hterms⟩ := h.terms _ _ _ hs'
  obtain rfl := hapart.eq_of_sessionId hs₂ hfrom.recorded
    (hfrom.sessionId.trans (hid.trans hterms.sessionId))
  have hdevice : e.device = d := by
    apply hinj
    rw [← hfrom.mirrored.peerId, ← hterms.peerId, hmirrored.peerId']
  obtain ⟨s₃, hs₃, hlt⟩ := h.sent_used e he
  rw [hdevice, hfrom.sent_sessionId, hid, hmirrored.sessionId, hs] at hs₃
  cases hs₃
  rwa [← hfrom.counter]

/-- The window admits the next counter unless it is too far ahead of all it has seen. -/
theorem Sound.wouldAccept_next_iff [DecidableEq δ] (h : w.Sound net) (hapart : w.Apart net)
    (hinj : Function.Injective net.deviceId) (hs : w.find d s.sessionId = some s)
    (hs' : w.find d' s'.sessionId = some s') (hmirrored : net.Mirrored d s d' s')
    (hpos : 0 < s.nextSendCounter) :
    s'.receiveWindow.wouldAccept s.nextSendCounter = true ↔
      s.nextSendCounter ≤ AntiReplayWindow.defaultSize ∨
        ∃ o ∈ w.openedIn d' s'.sessionId,
          s.nextSendCounter ≤ o.counter + AntiReplayWindow.defaultSize := by
  obtain ⟨a, htracks, hsize, hseen⟩ := h.window _ _ _ hs'
  have hbelow : ∀ c ∈ a.seen, c < (s.nextSendCounter : ℤ) := by
    intro c hc
    obtain ⟨o, ho, hd, hid, rfl⟩ := (hseen c).mp hc
    exact_mod_cast h.lt_nextSendCounter hapart hinj hs hs' hmirrored
      (mem_openedIn.mpr ⟨ho, hd, hid⟩)
  rw [htracks.wouldAccept_iff, Window.admits_iff_of_seen_lt hbelow (by omega), hsize]
  constructor
  · rintro (hle | ⟨c, hc, hle⟩)
    · left
      omega
    · obtain ⟨o, ho, hd, hid, rfl⟩ := (hseen c).mp hc
      exact .inr ⟨o, mem_openedIn.mpr ⟨ho, hd, hid⟩, by omega⟩
  · rintro (hle | ⟨o, ho, hle⟩)
    · left
      omega
    · obtain ⟨ho, hd, hid⟩ := mem_openedIn.mp ho
      exact .inr ⟨o.counter, (hseen _).mpr ⟨o, ho, hd, hid, rfl⟩, by omega⟩

end World
end SecureSync
