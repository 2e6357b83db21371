import SecureSync.Channel.Network

/-!
# What one step on the network changes

A step writes at most one session object, and adds at most one entry to one of
the three records.
-/

namespace SecureSync

open Raising KeyedTable SecureChannel

/-! ## Where a session object is found -/

namespace Endpoint

variable {e : Endpoint} {session : PeerSession} {sessionId : Bytes} {store : SessionStore}

theorem find_of_store (h : e.store.getBySessionId sessionId = some session) :
    e.find sessionId = some session := by
  rw [find, h, Option.some_or]

theorem find_write_self : (e.write session).find session.sessionId = some session := by
  unfold write
  cases h : e.store.getBySessionId session.sessionId with
  | some _ => exact find_of_store SessionStore.getBySessionId_update_self
  | none => rw [find, h, Option.none_or, Table.find?_set_self]

theorem find_write_of_ne (hne : sessionId ≠ session.sessionId) :
    (e.write session).find sessionId = e.find sessionId := by
  unfold write
  cases e.store.getBySessionId session.sessionId with
  | some _ => rw [find, SessionStore.getBySessionId_update_of_ne hne, find]
  | none => rw [find, Table.find?_set_of_ne hne, find]

theorem find_setStore_self :
    { e with store := e.store.update session }.find session.sessionId = some session :=
  find_of_store SessionStore.getBySessionId_update_self

theorem find_setStore_of_ne (hne : sessionId ≠ session.sessionId) :
    { e with store := e.store.update session }.find sessionId = e.find sessionId := by
  rw [find, SessionStore.getBySessionId_update_of_ne hne, find]

/-- Dropping an object from the store does not lose it. -/
theorem find_moveTo (h : store.getBySessionId sessionId = none ∨
    store.getBySessionId sessionId = e.store.getBySessionId sessionId) :
    (e.moveTo store).find sessionId = e.find sessionId := by
  have hdropped : (e.moveTo store).dropped.find? sessionId =
      ((e.store.getBySessionId sessionId).filter fun s ↦
        (store.getBySessionId s.sessionId).isNone).or (e.dropped.find? sessionId) := by
    rw [moveTo, Table.find?_foldl_set (Table.nodup _), SessionStore.getBySessionId,
      ← Table.find?_filter]
    rfl
  rw [find, hdropped, find]
  cases hold : e.store.getBySessionId sessionId with
  | none =>
      have hgone : store.getBySessionId sessionId = none := by
        rcases h with h | h
        · exact h
        · rw [h, hold]
      rw [show (e.moveTo store).store = store from rfl, hgone]
      rfl
  | some s =>
      have hid := (SessionStore.getBySessionId_eq_some.mp hold).2
      rw [show (e.moveTo store).store = store from rfl]
      cases hnew : store.getBySessionId sessionId with
      | none =>
          rw [Option.filter_some, hid, hnew]
          rfl
      | some s' =>
          rw [hold, hnew] at h
          rcases h with h | h
          · cases h
          · rw [Option.some_or, Option.some_or, h]

theorem find_moveTo_of_shrinks (h : e.store.Shrinks store) :
    (e.moveTo store).find sessionId = e.find sessionId :=
  find_moveTo (h.getBySessionId_cases sessionId)

theorem find_moveTo_record {room : SessionStore} (h : e.store.Shrinks room) :
    (e.moveTo (room.record session)).find session.sessionId = some session ∧
      ∀ id ≠ session.sessionId, (e.moveTo (room.record session)).find id = e.find id := by
  have hself : (room.record session).getBySessionId session.sessionId = some session :=
    Table.find?_set_self
  have hother (id : Bytes) (hne : id ≠ session.sessionId) :
      (room.record session).getBySessionId id = room.getBySessionId id := Table.find?_set_of_ne hne
  refine ⟨find_of_store hself, fun id hne ↦ ?_⟩
  apply find_moveTo
  rw [hother id hne]
  exact h.getBySessionId_cases id

end Endpoint

/-! ## Effects -/

/-- The parts of a session object that are set once. -/
structure PeerSession.SameTerms (s s' : PeerSession) : Prop where
  peerId : s'.peerId = s.peerId
  sessionId : s'.sessionId = s.sessionId
  role : s'.role = s.role
  sendKey : s'.sendKey = s.sendKey
  receiveKey : s'.receiveKey = s.receiveKey
  createdAt : s'.createdAt = s.createdAt

theorem PeerSession.SameTerms.refl (s : PeerSession) : s.SameTerms s :=
  ⟨rfl, rfl, rfl, rfl, rfl, rfl⟩

theorem PeerSession.SameTerms.trans {s₁ s₂ s₃ : PeerSession} (h : s₁.SameTerms s₂)
    (h' : s₂.SameTerms s₃) : s₁.SameTerms s₃ where
  peerId := h'.peerId.trans h.peerId
  sessionId := h'.sessionId.trans h.sessionId
  role := h'.role.trans h.role
  sendKey := h'.sendKey.trans h.sendKey
  receiveKey := h'.receiveKey.trans h.receiveKey
  createdAt := h'.createdAt.trans h.createdAt

theorem PeerSession.sameTerms_markActive (s : PeerSession) (now : ℚ) :
    s.SameTerms (s.markActive now) :=
  ⟨rfl, rfl, rfl, rfl, rfl, rfl⟩

theorem PeerSession.sameTerms_confirmed (s : PeerSession) :
    s.SameTerms { s with confirmed := true } :=
  ⟨rfl, rfl, rfl, rfl, rfl, rfl⟩

theorem SecureChannel.sameTerms_counted (s : PeerSession) : s.SameTerms (counted s) :=
  ⟨rfl, rfl, rfl, rfl, rfl, rfl⟩

theorem SecureChannel.sameTerms_received (s : PeerSession) (counter : ℕ) (clock : ChannelClock) :
    s.SameTerms (received s counter clock) := by
  unfold received afterAccept
  dsimp only
  split_ifs <;> exact ⟨rfl, rfl, rfl, rfl, rfl, rfl⟩

variable {δ π : Type} [DecidableEq δ]

/-- One object is now `session`, and all others are as before. -/
structure World.Wrote (w w' : World δ π) (d : δ) (session : PeerSession) : Prop where
  self : w'.find d session.sessionId = some session
  other : ∀ d' id, (d', id) ≠ (d, session.sessionId) → w'.find d' id = w.find d' id

structure World.SameRecords (w w' : World δ π) : Prop where
  recorded : w'.recorded = w.recorded
  sent : w'.sent = w.sent
  opened : w'.opened = w.opened

inductive Effect (net : Network δ π) (w : World δ π) (act : Act δ π) (w' : World δ π) : Prop where
  | quiet (hfind : ∀ d id, w'.find d id = w.find d id) (hsame : w.SameRecords w')
  | changed (d : δ) (s s' : PeerSession) (hfind : w.find d s.sessionId = some s)
      (hwrote : w.Wrote w' d s') (hterms : s.SameTerms s')
      (hcounter : s.nextSendCounter ≤ s'.nextSendCounter)
      (hwindow : s'.receiveWindow = s.receiveWindow) (hactivity : s'.lastActivity = s.lastActivity)
      (hconfirmed : s'.confirmed = s.confirmed ∨ act = .confirm d s.sessionId)
      (hsame : w.SameRecords w')
  | sent (d : δ) (s s' : PeerSession) (entry : Sent δ π) (header : FrameHeader)
      (hact : act = .seal d s.sessionId entry.packetType entry.payload entry.clock)
      (hfind : w.find d s.sessionId = some s) (hwrote : w.Wrote w' d s')
      (hterms : s.SameTerms s') (hcounter : s'.nextSendCounter = s.nextSendCounter + 1)
      (hwindow : s'.receiveWindow = s.receiveWindow)
      (hactivity : s'.lastActivity = entry.clock.seconds)
      (hconfirmed : s'.confirmed = s.confirmed)
      (hcall : IsCall (net.channel d) s entry.packetType entry.payload entry.counter entry.clock
        header entry.call)
      (hdevice : entry.device = d) (hid : entry.sessionId = s.sessionId)
      (hcount : entry.counter = s.nextSendCounter)
      (hframe : ∀ frame, entry.frame? = some frame ↔
        encodeFrame header (net.cipher.run entry.call) = .ok frame)
      (hsame : w.SameRecords { w' with sent := w.sent }) (hsent : w'.sent = w.sent ++ [entry])
  | opened (d : δ) (s : PeerSession) (packet : Packet π) (counter : ℕ) (frame : Bytes)
      (clock : ChannelClock) (header : FrameHeader) (encrypted : EncryptedPayload)
      (aad framed : Bytes)
      (hact : act = .deliver d frame clock)
      (hauthentic : Authentic (net.channel d) (w.endpoints d).store frame clock s packet counter
        header encrypted aad framed)
      (hwrote : w.Wrote w' d (received s counter clock))
      (hsame : w.SameRecords { w' with opened := w.opened })
      (hopened : w'.opened = w.opened ++
        [⟨d, s.sessionId, packet.header.messageId, packet.header.packetType, packet.payload, clock,
          frame⟩])
  | recorded (d : δ) (terms : SessionTerms) (now : ℚ) (hact : act = .put d terms now)
      (hwrote : w.Wrote w' d (.start terms now))
      (hsame : w.SameRecords { w' with recorded := w.recorded })
      (hrecorded : w'.recorded = w.recorded ++ [(d, .start terms now)])

/-! ## Every step has an effect -/

namespace Network

variable {net : Network δ π} {w w' : World δ π} {d : δ} {session : PeerSession}

theorem wrote_of_endpoint {e : Endpoint} (hself : e.find session.sessionId = some session)
    (hother : ∀ id ≠ session.sessionId, e.find id = (w.endpoints d).find id)
    (hw' : w'.endpoints = Function.update w.endpoints d e) : w.Wrote w' d session := by
  constructor
  · rw [World.find, hw', Function.update_self, hself]
  · intro d' id hne
    rw [World.find, World.find, hw']
    by_cases hd : d' = d
    · subst hd
      rw [Function.update_self]
      exact hother id fun hid ↦ hne (by rw [hid])
    · rw [Function.update_of_ne hd]

theorem quiet_of_endpoint {e : Endpoint} {act : Act δ π}
    (hfind : ∀ id, e.find id = (w.endpoints d).find id) :
    Effect net w act (w.setEndpoint d e) := by
  refine .quiet (fun d' id ↦ ?_) ⟨rfl, rfl, rfl⟩
  rw [World.find, World.find]
  by_cases hd : d' = d
  · subst hd
    rw [World.endpoints_setEndpoint_self, hfind]
  · rw [World.endpoints_setEndpoint_of_ne w e hd]

omit [DecidableEq δ] in
theorem find_sessionId {sessionId : Bytes} (h : w.find d sessionId = some session) :
    session.sessionId = sessionId := by
  rcases Option.or_eq_some_iff.mp h with h | ⟨-, h⟩
  · exact (SessionStore.getBySessionId_eq_some.mp h).2
  · exact Table.find?_key h

/-- What `seal` does: nothing with a session that is used up; else it takes a counter, and
what it hands to the cipher is on record, whether or not it raises afterwards. -/
inductive SealEffect (net : Network δ π) (d : δ) (s : PeerSession) (packetType : PacketType)
    (payload : π) (clock : ChannelClock) : PeerSession → List (Sent δ π) → Prop
  | exhausted (hexhausted : s.exhausted = true) :
      SealEffect net d s packetType payload clock s []
  | counted (hexhausted : s.exhausted = false) :
      SealEffect net d s packetType payload clock (SecureChannel.counted s) []
  | sent (hexhausted : s.exhausted = false) (header : FrameHeader) (call : Encryption)
      (frame? : Option Bytes)
      (hcall : IsCall (net.channel d) s packetType payload s.nextSendCounter clock header call)
      (hframe : ∀ frame, frame? = some frame ↔
        encodeFrame header (net.cipher.run call) = .ok frame) :
      SealEffect net d s packetType payload clock
        ((SecureChannel.counted s).markActive clock.seconds)
        [⟨d, s.sessionId, s.nextSendCounter, packetType, payload, clock, call, frame?⟩]

omit [DecidableEq δ] in
theorem seal_effect (net : Network δ π) (d : δ) (s : PeerSession) (packetType : PacketType)
    (payload : π) (clock : ChannelClock) :
    SealEffect net d s packetType payload clock
      (stateOf ((net.channel d).seal packetType payload clock s))
      (net.sentBy d s packetType payload clock) := by
  rw [sentBy]
  cases hexhausted : s.exhausted with
  | true =>
      rw [seal_run, if_pos hexhausted, if_pos rfl]
      exact .exhausted hexhausted
  | false =>
      simp only [Bool.false_eq_true, if_false]
      cases hencryption :
          (net.channel d).encryption s packetType payload s.nextSendCounter clock with
      | error e =>
          simp only [seal_run, hexhausted, Bool.false_eq_true, if_false, hencryption]
          exact .counted hexhausted
      | ok result =>
          obtain ⟨header, call⟩ := result
          have hrun : (net.channel d).seal packetType payload clock s =
              orRaise .replay (encodeFrame header (net.cipher.run call))
                ((SecureChannel.counted s).markActive clock.seconds) := by
            simp only [seal_run, hexhausted, Bool.false_eq_true, if_false, hencryption]
            rfl
          have hstate : stateOf ((net.channel d).seal packetType payload clock s) =
              (SecureChannel.counted s).markActive clock.seconds := by
            rw [hrun]
            cases encodeFrame header (net.cipher.run call) <;> rfl
          rw [hstate]
          refine .sent hexhausted header call _ (encryption_eq_ok.mp hencryption) fun frame ↦ ?_
          rw [hrun]
          cases encodeFrame header (net.cipher.run call) <;>
            simp [orRaise, value?, pure_run, throw_run]

omit [DecidableEq δ] in
theorem sameTerms_seal (net : Network δ π) (d : δ) (s : PeerSession) (packetType : PacketType)
    (payload : π) (clock : ChannelClock) :
    s.SameTerms (stateOf ((net.channel d).seal packetType payload clock s)) := by
  have heffect := net.seal_effect d s packetType payload clock
  generalize stateOf ((net.channel d).seal packetType payload clock s) = s' at heffect ⊢
  generalize net.sentBy d s packetType payload clock = entries at heffect
  cases heffect with
  | exhausted => exact .refl s
  | counted => exact sameTerms_counted s
  | sent => exact (sameTerms_counted s).trans ((counted s).sameTerms_markActive clock.seconds)

theorem effect_seal {s : PeerSession} (hfind : w.find d s.sessionId = some s)
    (packetType : PacketType) (payload : π) (clock : ChannelClock) :
    Effect net w (.seal d s.sessionId packetType payload clock) {
      w.setEndpoint d ((w.endpoints d).write
        (stateOf ((net.channel d).seal packetType payload clock s))) with
      sent := w.sent ++ net.sentBy d s packetType payload clock } := by
  have hwrote (s' : PeerSession) (sent : List (Sent δ π)) :
      w.Wrote { w.setEndpoint d ((w.endpoints d).write s') with sent } d s' :=
    wrote_of_endpoint Endpoint.find_write_self (fun id hne ↦ Endpoint.find_write_of_ne hne) rfl
  have heffect := net.seal_effect d s packetType payload clock
  generalize stateOf ((net.channel d).seal packetType payload clock s) = s' at heffect ⊢
  generalize net.sentBy d s packetType payload clock = entries at heffect ⊢
  cases heffect with
  | exhausted =>
      rw [List.append_nil]
      exact .changed d s s hfind (hwrote s _) (.refl s) le_rfl rfl rfl (.inl rfl)
        ⟨rfl, rfl, rfl⟩
  | counted =>
      rw [List.append_nil]
      exact .changed d s (counted s) hfind (hwrote _ _) (sameTerms_counted s) (Nat.le_succ _) rfl
        rfl (.inl rfl) ⟨rfl, rfl, rfl⟩
  | sent _ header call frame? hcall hframe =>
      have hterms := (sameTerms_counted s).trans ((counted s).sameTerms_markActive clock.seconds)
      exact .sent d s ((counted s).markActive clock.seconds) _ header rfl hfind (hwrote _ _)
        hterms rfl rfl rfl rfl hcall rfl rfl rfl hframe ⟨rfl, rfl, rfl⟩ rfl

/-- The effects are all that a step can have. -/
theorem effect_step (w : World δ π) (act : Act δ π) : Effect net w act (net.step w act) := by
  cases act with
  | «seal» d sessionId packetType payload clock =>
      simp only [step]
      cases hfind : w.find d sessionId with
      | none => exact .quiet (fun _ _ ↦ rfl) ⟨rfl, rfl, rfl⟩
      | some s =>
          obtain rfl := find_sessionId hfind
          exact effect_seal hfind packetType payload clock
  | deliver d frame clock =>
      simp only [step]
      cases hopen : (net.channel d).open frame clock (w.endpoints d).store with
      | error e store =>
          cases open_error hopen
          exact quiet_of_endpoint fun id ↦ rfl
      | ok result store =>
          obtain ⟨packet, session⟩ := result
          obtain ⟨s, counter, hauth, rfl, rfl⟩ := open_eq_ok.mp hopen
          obtain ⟨header, encrypted, aad, framed, hauthentic⟩ := authenticate_eq_ok.mp hauth
          refine .opened d s packet counter frame clock header encrypted aad framed rfl hauthentic
            ?_ ⟨rfl, rfl, rfl⟩ (by rw [← (sameTerms_received s counter clock).sessionId])
          exact wrote_of_endpoint Endpoint.find_setStore_self
            (fun id hne ↦ Endpoint.find_setStore_of_ne hne) rfl
  | put d terms now =>
      simp only [step]
      cases hput : SessionStore.put (.start terms now) now (w.endpoints d).store with
      | error e store =>
          exact quiet_of_endpoint fun id ↦
            Endpoint.find_moveTo_of_shrinks (SessionStore.shrinks_put_error hput)
      | ok _ store =>
          obtain ⟨-, hfresh, -, rfl⟩ := SessionStore.put_eq_ok.mp hput
          obtain ⟨hself, hother⟩ := @Endpoint.find_moveTo_record (w.endpoints d) (.start terms now)
            _ SessionStore.shrinks_makeRoom
          exact .recorded d terms now rfl (wrote_of_endpoint hself hother rfl) ⟨rfl, rfl, rfl⟩ rfl
  | confirm d sessionId =>
      simp only [step, SessionStore.confirm]
      cases hfind : (w.endpoints d).store.getBySessionId sessionId with
      | none => exact quiet_of_endpoint fun id ↦ rfl
      | some s =>
          obtain rfl := (SessionStore.getBySessionId_eq_some.mp hfind).2
          exact .changed d s { s with confirmed := true } (Endpoint.find_of_store hfind)
            (wrote_of_endpoint Endpoint.find_setStore_self
              (fun id hne ↦ Endpoint.find_setStore_of_ne hne) rfl)
            s.sameTerms_confirmed le_rfl rfl rfl (.inr rfl) ⟨rfl, rfl, rfl⟩
  | forget d sessionIds =>
      exact quiet_of_endpoint fun id ↦
        Endpoint.find_moveTo_of_shrinks (SessionStore.shrinks_foldl_remove _)

end Network
end SecureSync
