import SecureSync.Channel.Delivery
import SecureSync.Properties.ReplayWindow

/-!
# Frames that arrive in any order

One side of a mirrored pair seals, and the other opens what arrives, in any
order.  While every counter that arrives is within the window of the highest
accepted one, each frame is accepted the first time that it arrives.
-/

namespace SecureSync

open Raising SlidingWindow SecureChannel AntiReplayWindow

variable {δ π : Type}

/-- A session object of the sender and the store of the receiver, with what has
been sealed, what has been delivered, and what `open` has returned. -/
structure Lane (δ π : Type) where
  sender : PeerSession
  store : SessionStore
  sent : List (Sent δ π)
  delivered : List (Sent δ π)
  opened : List (Opened δ π)

namespace Lane

variable (net : Network δ π) (d d' : δ)

/-- The highest counter that was accepted so far. -/
def highest (lane : Lane δ π) : ℤ := highestOf (lane.opened.map fun o ↦ (o.counter : ℤ))

def InBand (lane : Lane δ π) (e : Sent δ π) : Prop :=
  lane.highest - defaultSize < e.counter ∧ e.counter ≤ lane.highest + defaultSize

def InTime (e : Sent δ π) (clock : ChannelClock) : Prop :=
  |(clock.milliseconds : ℤ) - e.clock.milliseconds| ≤ net.timestampSkewMs

def «seal» (lane : Lane δ π) (packetType : PacketType) (payload : π) (clock : ChannelClock) :
    Lane δ π := { lane with
  sender := stateOf ((net.channel d).seal packetType payload clock lane.sender)
  sent := lane.sent ++ net.sentBy d lane.sender packetType payload clock }

def deliver (lane : Lane δ π) (e : Sent δ π) (frame : Bytes) (clock : ChannelClock) :
    Lane δ π := { lane with
  store := stateOf ((net.channel d').open frame clock lane.store)
  delivered := lane.delivered ++ [e]
  opened := lane.opened ++
    ((value? ((net.channel d').open frame clock lane.store)).map fun result ↦
      ⟨d', result.2.sessionId, result.1.header.messageId, result.1.header.packetType,
        result.1.payload, clock, frame⟩).toList }

inductive Run (sessionId : Bytes) (sender : PeerSession) (store : SessionStore) :
    Lane δ π → Prop
  | start : Run sessionId sender store ⟨sender, store, [], [], []⟩
  | seal (lane : Lane δ π) (packetType : PacketType) (payload : π) (clock : ChannelClock)
      (h : Run sessionId sender store lane) :
      Run sessionId sender store (lane.seal net d packetType payload clock)
  /-- A sealed frame arrives, for the first time or again. -/
  | deliver (lane : Lane δ π) (e : Sent δ π) (frame : Bytes) (clock : ChannelClock)
      (h : Run sessionId sender store lane) (he : e ∈ lane.sent) (hframe : e.frame? = some frame)
      (hband : lane.InBand e) (htime : InTime net e clock) :
      Run sessionId sender store (lane.deliver net d' e frame clock)
  /-- Whatever else the two devices do with their session objects. -/
  | other (lane : Lane δ π) (sender' : PeerSession) (store' : SessionStore)
      (h : Run sessionId sender store lane) (hsender : lane.sender.SameTerms sender')
      (hcounter : lane.sender.nextSendCounter ≤ sender'.nextSendCounter)
      (hstore : ∀ s, lane.store.getBySessionId sessionId = some s →
        ∃ s', store'.getBySessionId sessionId = some s' ∧ s.SameTerms s' ∧
          s'.receiveWindow = s.receiveWindow) :
      Run sessionId sender store { lane with sender := sender', store := store' }

variable {net d d'} {lane : Lane δ π} {s s' : PeerSession}

/-- Both ends agree with what has been sealed, delivered and accepted. -/
structure Agrees (net : Network δ π) (d : δ) (s s' : PeerSession) (lane : Lane δ π) : Prop where
  sender : s.SameTerms lane.sender
  used : ∀ e ∈ lane.sent, e.counter < lane.sender.nextSendCounter
  increasing : (lane.sent.map Sent.counter).Pairwise (· < ·)
  genuine : ∀ e ∈ lane.sent, ∃ header,
    IsCall (net.channel d) s e.packetType e.payload e.counter e.clock header e.call ∧
      ∀ frame, e.frame? = some frame ↔ encodeFrame header (net.cipher.run e.call) = .ok frame
  delivered : lane.delivered ⊆ lane.sent
  receiver : ∃ s₁ a, lane.store.getBySessionId s.sessionId = some s₁ ∧ s'.SameTerms s₁ ∧
    s₁.receiveWindow.Tracks a ∧ a.size = defaultSize ∧
      ∀ c, c ∈ a.seen ↔ c ∈ lane.opened.map fun o ↦ (o.counter : ℤ)
  opened_nodup : (lane.opened.map Opened.counter).Nodup
  opened_iff : ∀ c, c ∈ lane.opened.map Opened.counter ↔ c ∈ lane.delivered.map Sent.counter
  opened_from : ∀ o ∈ lane.opened, o.sessionId = s.sessionId ∧ ∃ e ∈ lane.delivered,
    e.frame? = some o.frame ∧ o.counter = e.counter ∧ o.packetType = e.packetType ∧
      o.payload = e.payload

/-- A counter belongs to one message. -/
theorem Agrees.eq_of_counter (h : lane.Agrees net d s s') {e e' : Sent δ π} (he : e ∈ lane.sent)
    (he' : e' ∈ lane.sent) (hcounter : e.counter = e'.counter) : e = e' :=
  List.inj_on_of_nodup_map (h.increasing.imp fun hlt ↦ hlt.ne) he he' hcounter

theorem Agrees.mem_opened_iff (h : lane.Agrees net d s s') {e : Sent δ π} (he : e ∈ lane.sent) :
    e.counter ∈ lane.opened.map Opened.counter ↔ e ∈ lane.delivered := by
  rw [h.opened_iff, List.mem_map]
  constructor
  · rintro ⟨e', he', hcounter⟩
    rwa [← h.eq_of_counter (h.delivered he') he hcounter]
  · exact fun hmem ↦ ⟨e, hmem, rfl⟩

/-- The window admits a counter in the band that has not arrived before. -/
theorem Agrees.wouldAccept_iff (h : lane.Agrees net d s s') {e : Sent δ π} (he : e ∈ lane.sent)
    (hband : lane.InBand e) {s₁ : PeerSession}
    (hs₁ : lane.store.getBySessionId s.sessionId = some s₁) :
    s₁.receiveWindow.wouldAccept e.counter = true ↔ e ∉ lane.delivered := by
  obtain ⟨s₂, a, hs₂, -, htracks, hsize, hseen⟩ := h.receiver
  obtain rfl := Option.some.inj (hs₁.symm.trans hs₂)
  obtain ⟨header, hcall, -⟩ := h.genuine e he
  have hpos := (deriveNonce_eq_ok hcall.nonce_eq).1
  obtain ⟨hlow, hhigh⟩ := hband
  rw [highest, ← highest_eq_highestOf hseen] at hlow hhigh
  have hmem : (e.counter : ℤ) ∈ a.seen ↔ e ∈ lane.delivered := by
    rw [hseen, ← h.mem_opened_iff he, List.mem_map, List.mem_map]
    simp only [Nat.cast_inj]
  rw [htracks.wouldAccept_iff, Window.Admits, hmem, hsize]
  constructor
  · exact fun hadmits ↦ hadmits.2.2.2
  · exact fun hnew ↦ ⟨by omega, hhigh, by omega, hnew⟩

/-- What `open` does with a frame that arrives in the band and in time. -/
theorem Agrees.open_eq (h : lane.Agrees net d s s') (hlawful : net.Lawful)
    (hmirrored : net.Mirrored d s d' s') {e : Sent δ π} {frame : Bytes} {clock : ChannelClock}
    (he : e ∈ lane.sent) (hframe : e.frame? = some frame) (hband : lane.InBand e)
    (htime : InTime net e clock) :
    ∃ s₁, lane.store.getBySessionId s.sessionId = some s₁ ∧ s'.SameTerms s₁ ∧
      (net.channel d').open frame clock lane.store =
        open Classical in
        if e ∈ lane.delivered then .error (.replay (.windowRejected e.counter)) lane.store
        else .ok (net.packet e.packetType e.payload e.counter e.clock, received s₁ e.counter clock)
          (lane.store.update (received s₁ e.counter clock)) := by
  obtain ⟨s₁, a, hs₁, hterms, -⟩ := h.receiver
  obtain ⟨header, hcall, hencode⟩ := h.genuine e he
  have hm := hmirrored.of_sameTerms hterms
  have haccept := h.wouldAccept_iff he hband hs₁
  refine ⟨s₁, hs₁, hterms, ?_⟩
  split_ifs with hmem
  · have hreject : s₁.receiveWindow.wouldAccept e.counter = false := by
      rw [← Bool.not_eq_true, haccept]
      exact not_not.mpr hmem
    exact Network.open_sealed_rejected hlawful hcall ((hencode frame).mp hframe) hm hs₁ hreject
  · exact Network.open_sealed hlawful hcall ((hencode frame).mp hframe) hm hs₁
      (haccept.mpr hmem) htime

/-! ## Runs -/

theorem agrees_start {terms terms' : SessionTerms} {now now' : ℚ} {store : SessionStore}
    (hstore : store.getBySessionId terms.sessionId = some (.start terms' now')) :
    Agrees net d (.start terms now) (.start terms' now')
      (⟨.start terms now, store, [], [], []⟩ : Lane δ π) where
  sender := .refl _
  used _ he := nomatch he
  increasing := List.Pairwise.nil
  genuine _ he := nomatch he
  delivered := List.nil_subset _
  receiver := ⟨_, SlidingWindow.empty _, hstore, .refl _, tracks_make (by decide), rfl,
    fun c ↦ by simp [SlidingWindow.empty]⟩
  opened_nodup := List.nodup_nil
  opened_iff _ := Iff.rfl
  opened_from _ ho := nomatch ho

/-- The sender's object moves on, and so does the receiver's apart from its window. -/
theorem Agrees.moved (h : lane.Agrees net d s s') {sender' : PeerSession} {store' : SessionStore}
    (hsender : lane.sender.SameTerms sender')
    (hcounter : lane.sender.nextSendCounter ≤ sender'.nextSendCounter)
    (hstore : ∀ s₁, lane.store.getBySessionId s.sessionId = some s₁ →
      ∃ s₂, store'.getBySessionId s.sessionId = some s₂ ∧ s₁.SameTerms s₂ ∧
        s₂.receiveWindow = s₁.receiveWindow) :
    Agrees net d s s' { lane with sender := sender', store := store' } where
  sender := h.sender.trans hsender
  used e he := (h.used e he).trans_le hcounter
  increasing := h.increasing
  genuine := h.genuine
  delivered := h.delivered
  receiver := by
    obtain ⟨s₁, a, hs₁, hterms, htracks, hsize, hseen⟩ := h.receiver
    obtain ⟨s₂, hs₂, hterms', hwindow⟩ := hstore s₁ hs₁
    exact ⟨s₂, a, hs₂, hterms.trans hterms', hwindow ▸ htracks, hsize, hseen⟩
  opened_nodup := h.opened_nodup
  opened_iff := h.opened_iff
  opened_from := h.opened_from

/-- A message is sealed under a counter above all that were used. -/
theorem Agrees.append (h : lane.Agrees net d s s') {e : Sent δ π}
    (hlt : e.counter < lane.sender.nextSendCounter)
    (hnew : ∀ e' ∈ lane.sent, e'.counter < e.counter)
    (hgenuine : ∃ header,
      IsCall (net.channel d) s e.packetType e.payload e.counter e.clock header e.call ∧
        ∀ frame, e.frame? = some frame ↔ encodeFrame header (net.cipher.run e.call) = .ok frame) :
    Agrees net d s s' { lane with sent := lane.sent ++ [e] } where
  sender := h.sender
  used e' he' := by
    rcases List.mem_append.mp he' with he' | he'
    · exact h.used e' he'
    · rw [List.mem_singleton.mp he']
      exact hlt
  increasing := by
    rw [List.map_append, List.pairwise_append]
    refine ⟨h.increasing, List.pairwise_singleton _ _, fun c hc c' hc' ↦ ?_⟩
    obtain ⟨e', he', rfl⟩ := List.mem_map.mp hc
    rw [List.map_singleton, List.mem_singleton] at hc'
    rw [hc']
    exact hnew e' he'
  genuine e' he' := by
    rcases List.mem_append.mp he' with he' | he'
    · exact h.genuine e' he'
    · rw [List.mem_singleton.mp he']
      exact hgenuine
  delivered := List.subset_append_of_subset_left _ h.delivered
  receiver := h.receiver
  opened_nodup := h.opened_nodup
  opened_iff := h.opened_iff
  opened_from := h.opened_from

theorem Agrees.seal (h : lane.Agrees net d s s') (packetType : PacketType) (payload : π)
    (clock : ChannelClock) : (lane.seal net d packetType payload clock).Agrees net d s s' := by
  have hkept (sender' : PeerSession) (hsender : lane.sender.SameTerms sender')
      (hcounter : lane.sender.nextSendCounter ≤ sender'.nextSendCounter) :
      Agrees net d s s' { lane with sender := sender' } :=
    h.moved hsender hcounter fun s₁ hs₁ ↦ ⟨s₁, hs₁, .refl s₁, rfl⟩
  simp only [Lane.seal]
  have heffect := net.seal_effect d lane.sender packetType payload clock
  generalize stateOf ((net.channel d).seal packetType payload clock lane.sender) = sender'
    at heffect ⊢
  generalize net.sentBy d lane.sender packetType payload clock = entries at heffect ⊢
  cases heffect with
  | exhausted =>
      rw [List.append_nil]
      exact h
  | counted =>
      rw [List.append_nil]
      exact hkept _ (sameTerms_counted _) (Nat.le_succ _)
  | sent hexhausted header call frame? hcall hframe =>
      have hmoved := hkept ((counted lane.sender).markActive clock.seconds)
        ((sameTerms_counted _).trans (PeerSession.sameTerms_markActive ..)) (Nat.le_succ _)
      exact hmoved.append (Nat.lt_succ_self _) h.used
        ⟨header, hcall.of_sameTerms h.sender, hframe⟩

/-- A frame that has arrived before is refused, and nothing changes. -/
theorem Agrees.deliver_again (h : lane.Agrees net d s s') {e : Sent δ π} {frame : Bytes}
    {clock : ChannelClock} (hmem : e ∈ lane.delivered)
    (hopen : (net.channel d').open frame clock lane.store =
      .error (.replay (.windowRejected e.counter)) lane.store) :
    (lane.deliver net d' e frame clock).Agrees net d s s' := by
  simp only [Lane.deliver, hopen, stateOf, value?, Option.map_none, Option.toList_none,
    List.append_nil]
  refine { h with delivered := ?_, opened_iff := fun c ↦ ?_, opened_from := fun o ho ↦ ?_ }
  · exact List.append_subset.mpr
      ⟨h.delivered, List.cons_subset.mpr ⟨h.delivered hmem, List.nil_subset _⟩⟩
  · rw [h.opened_iff, List.map_append, List.mem_append, List.map_singleton, List.mem_singleton]
    refine ⟨.inl, ?_⟩
    rintro (hc | rfl)
    · exact hc
    · exact List.mem_map_of_mem hmem
  · obtain ⟨hid, e', he', hfields⟩ := h.opened_from o ho
    exact ⟨hid, e', List.mem_append_left _ he', hfields⟩

/-- A frame that arrives for the first time is accepted for what it was sealed. -/
theorem Agrees.deliver_new (h : lane.Agrees net d s s') (hmirrored : net.Mirrored d s d' s')
    {e : Sent δ π} {frame : Bytes} {clock : ChannelClock} (he : e ∈ lane.sent)
    (hframe : e.frame? = some frame) (hband : lane.InBand e) (hmem : e ∉ lane.delivered)
    {s₁ : PeerSession} (hs₁ : lane.store.getBySessionId s.sessionId = some s₁)
    (hterms : s'.SameTerms s₁)
    (hopen : (net.channel d').open frame clock lane.store =
      .ok (net.packet e.packetType e.payload e.counter e.clock, received s₁ e.counter clock)
        (lane.store.update (received s₁ e.counter clock))) :
    (lane.deliver net d' e frame clock).Agrees net d s s' := by
  have hreceived := SecureChannel.sameTerms_received s₁ e.counter clock
  have hid : (received s₁ e.counter clock).sessionId = s.sessionId := by
    rw [hreceived.sessionId, hterms.sessionId, hmirrored.sessionId]
  have hnew : e.counter ∉ lane.opened.map Opened.counter := by
    rw [h.mem_opened_iff he]
    exact hmem
  simp only [Lane.deliver, hopen, stateOf, value?, Option.map_some, Option.toList_some]
  refine { h with
    delivered := ?_
    receiver := ?_
    opened_nodup := ?_
    opened_iff := fun c ↦ ?_
    opened_from := fun o ho ↦ ?_ }
  · exact List.append_subset.mpr ⟨h.delivered, List.cons_subset.mpr ⟨he, List.nil_subset _⟩⟩
  · obtain ⟨s₂, a, hs₂, -, htracks, hsize, hseen⟩ := h.receiver
    obtain rfl := Option.some.inj (hs₁.symm.trans hs₂)
    have hadmits := htracks.wouldAccept_iff.mp ((h.wouldAccept_iff he hband hs₁).mpr hmem)
    refine ⟨received s₁ e.counter clock, a.record e.counter, ?_, hterms.trans hreceived, ?_, hsize,
      fun c ↦ ?_⟩
    · rw [← hid]
      exact SessionStore.getBySessionId_update_self
    · rw [receiveWindow_received]
      exact htracks.advance hadmits
    · rw [Window.mem_record_seen, hseen, List.map_append, List.mem_append, List.map_singleton,
        List.mem_singleton, or_comm]
      rfl
  · rw [List.map_append, List.map_singleton, ← List.concat_eq_append]
    exact h.opened_nodup.concat hnew
  · rw [List.map_append, List.map_append, List.mem_append, List.mem_append, h.opened_iff]
    rfl
  · rcases List.mem_append.mp ho with ho | ho
    · obtain ⟨hid', e', he', hfields⟩ := h.opened_from o ho
      exact ⟨hid', e', List.mem_append_left _ he', hfields⟩
    · rw [List.mem_singleton.mp ho]
      exact ⟨hid, e, List.mem_append_right _ (List.mem_singleton_self e), hframe, rfl, rfl, rfl⟩

theorem Run.agrees (hlawful : net.Lawful) {terms terms' : SessionTerms} {now now' : ℚ}
    (hmirrored : net.Mirrored d (.start terms now) d' (.start terms' now')) {store : SessionStore}
    (hstore : store.getBySessionId terms.sessionId = some (.start terms' now'))
    (hrun : Run net d d' terms.sessionId (.start terms now) store lane) :
    lane.Agrees net d (.start terms now) (.start terms' now') := by
  induction hrun with
  | start => exact agrees_start hstore
  | «seal» lane packetType payload clock _ ih => exact ih.seal packetType payload clock
  | deliver lane e frame clock _ he hframe hband htime ih =>
      obtain ⟨s₁, hs₁, hterms, hopen⟩ := ih.open_eq hlawful hmirrored he hframe hband htime
      split_ifs at hopen with hmem
      · exact ih.deliver_again hmem hopen
      · exact ih.deliver_new hmirrored he hframe hband hmem hs₁ hterms hopen
  | other lane sender' store' _ hsender hcounter hstore ih => exact ih.moved hsender hcounter hstore

end Lane

/-- Every frame that is delivered is accepted once, as what was sealed and under
its session; at its first arrival it is accepted, and refused when it comes again. -/
theorem delivered_opened_once {net : Network δ π} {d d' : δ} {terms terms' : SessionTerms}
    {now now' : ℚ} {store : SessionStore} {lane : Lane δ π} (hlawful : net.Lawful)
    (hmirrored : net.Mirrored d (.start terms now) d' (.start terms' now'))
    (hstore : store.getBySessionId terms.sessionId = some (.start terms' now'))
    (hrun : Lane.Run net d d' terms.sessionId (.start terms now) store lane) :
    (∀ e ∈ lane.delivered, (lane.opened.map Opened.counter).count e.counter = 1) ∧
      (∀ o ∈ lane.opened, o.sessionId = terms.sessionId ∧ ∃ e ∈ lane.delivered,
        e.frame? = some o.frame ∧ o.counter = e.counter ∧ o.packetType = e.packetType ∧
          o.payload = e.payload) ∧
      ∀ e ∈ lane.sent, ∀ frame clock, e.frame? = some frame → lane.InBand e →
        Lane.InTime net e clock →
          (e ∉ lane.delivered → ∃ packet session store',
            (net.channel d').open frame clock lane.store = .ok (packet, session) store' ∧
              packet.header.packetType = e.packetType ∧ packet.payload = e.payload ∧
                session.sessionId = terms.sessionId) ∧
          (e ∈ lane.delivered →
            ¬ Completed ((net.channel d').open frame clock lane.store)) := by
  have hagrees := hrun.agrees hlawful hmirrored hstore
  refine ⟨fun e he ↦ ?_, hagrees.opened_from, fun e he frame clock hframe hband htime ↦ ?_⟩
  · apply List.count_eq_one_of_mem hagrees.opened_nodup
    rw [hagrees.opened_iff]
    exact List.mem_map_of_mem he
  · obtain ⟨s₁, hs₁, hterms, hopen⟩ := hagrees.open_eq hlawful hmirrored he hframe hband htime
    split_ifs at hopen with hmem
    · refine ⟨fun hnew ↦ absurd hmem hnew, fun _ ↦ ?_⟩
      rw [hopen]
      exact id
    · refine ⟨fun _ ↦ ⟨_, _, _, hopen, rfl, rfl, ?_⟩, fun hdelivered ↦ absurd hdelivered hmem⟩
      rw [(SecureChannel.sameTerms_received s₁ e.counter clock).sessionId, hterms.sessionId,
        hmirrored.sessionId]
      rfl

/-- Alice and Bob, before anything is sealed. -/
def pairLane : Lane Bool (Fin 128) :=
  ⟨.start (pairTerms false) 0, (pairStart.endpoints true).store, [], [], []⟩

/-- The frame that was sealed at this place arrives. -/
def Lane.arrive (lane : Lane Bool (Fin 128)) (place : ℕ) : Lane Bool (Fin 128) :=
  match lane.sent[place]? with
  | none => lane
  | some e => lane.deliver pairNetwork true e (e.frame?.getD []) ⟨1, 1⟩

def laneSealed : Lane Bool (Fin 128) :=
  pairPayloads.foldl (fun lane payload ↦
    lane.seal pairNetwork false .heartbeat payload ⟨0, 0⟩) pairLane

/-- The third frame overtakes the others, and comes once more after the first. -/
def laneShuffled : Lane Bool (Fin 128) := [2, 0, 2].foldl Lane.arrive laneSealed

abbrev PairRun : Lane Bool (Fin 128) → Prop :=
  Lane.Run pairNetwork false true (pairTerms false).sessionId (.start (pairTerms false) 0)
    (pairStart.endpoints true).store

theorem Lane.run_arrive {lane : Lane Bool (Fin 128)} (hrun : PairRun lane) (place : ℕ)
    (harrives : ∀ e ∈ lane.sent[place]?, e.frame?.isSome ∧
      (lane.highest - AntiReplayWindow.defaultSize < e.counter ∧
        (e.counter : ℤ) ≤ lane.highest + AntiReplayWindow.defaultSize) ∧
      |(1 : ℤ) - e.clock.milliseconds| ≤ pairNetwork.timestampSkewMs) :
    PairRun (lane.arrive place) := by
  unfold arrive
  cases he : lane.sent[place]? with
  | none => exact hrun
  | some e =>
      obtain ⟨hframe, hband, htime⟩ := harrives e he
      obtain ⟨frame, hframe⟩ := Option.isSome_iff_exists.mp hframe
      dsimp only
      rw [hframe]
      exact .deliver lane e frame ⟨1, 1⟩ hrun (List.mem_of_getElem? he) hframe hband htime

theorem laneShuffled_run : PairRun laneShuffled := by
  have hsealed : PairRun laneSealed :=
    .seal _ .heartbeat 7 ⟨0, 0⟩ (.seal _ .heartbeat 6 ⟨0, 0⟩ (.seal _ .heartbeat 5 ⟨0, 0⟩ .start))
  have hthird : PairRun (laneSealed.arrive 2) := Lane.run_arrive hsealed 2 (by decide +kernel)
  have hfirst : PairRun ((laneSealed.arrive 2).arrive 0) :=
    Lane.run_arrive hthird 0 (by decide +kernel)
  exact Lane.run_arrive hfirst 2 (by decide +kernel)

theorem delivered_opened_once_shuffled :
    laneShuffled.delivered.map Sent.counter = [3, 1, 3] ∧
      (∀ e ∈ laneShuffled.delivered,
        (laneShuffled.opened.map Opened.counter).count e.counter = 1) ∧
      laneShuffled.opened.map Opened.payload = [7, 5] := by
  have hmirrored : pairNetwork.Mirrored false (.start (pairTerms false) 0) true
      (.start (pairTerms true) 0) := pair_mirrored pairNetwork.msgpack false
  refine ⟨by decide +kernel, ?_, by decide +kernel⟩
  exact (delivered_opened_once pairNetwork_lawful hmirrored (by decide +kernel)
    laneShuffled_run).1

end SecureSync
