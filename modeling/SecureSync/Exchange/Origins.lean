import SecureSync.Channel.Delivery
import SecureSync.Exchange.System

/-!
# Where requests and replies come from

Every call, reply and return of a run belongs to a frame in the records of the
channel.
-/

namespace SecureSync

open Raising SecureChannel

variable {δ : Type} {net : Network δ ExchangePayload} {st st' : Exchanging δ}
  {w w' : World δ ExchangePayload} {d : δ}

/-- The call's request was sealed under a session with the peer. -/
structure ExchangeCall.Sealed (call : ExchangeCall δ) (w : World δ ExchangePayload)
    (e : Sent δ ExchangePayload) (s : PeerSession) : Prop where
  sent : e ∈ w.sent
  recorded : (call.device, s) ∈ w.recorded
  device : e.device = call.device
  sessionId : s.sessionId = e.sessionId
  peerId : s.peerId = call.request.peer
  packetType : e.packetType = call.request.packetType
  payload : e.payload = call.request.payload
  frame : e.frame? = some call.frame

structure ExchangeReply.Sealed (reply : ExchangeReply δ) (w : World δ ExchangePayload)
    (e : Sent δ ExchangePayload) : Prop where
  sent : e ∈ w.sent
  opened : reply.request ∈ w.opened
  answered : reply.server.reply reply.request.packetType reply.request.payload =
    some (reply.packetType, reply.payload)
  device : e.device = reply.request.device
  payload : e.payload = reply.payload
  frame : e.frame? = some reply.frame

structure ExchangeReturn.Genuine (r : ExchangeReturn δ) (st : Exchanging δ) : Prop where
  call : r.call ∈ st.calls
  opened : r.opened ∈ st.world.opened
  device : r.opened.device = r.call.device
  returned : r.call.request.returned r.opened.payload = some r.value

namespace Network

structure Exchanged [DecidableEq δ] (net : Network δ ExchangePayload) (st : Exchanging δ) :
    Prop where
  run : net.Run st.world
  sound : st.world.Sound net
  indexed : st.world.AllIndexed
  calls : ∀ call ∈ st.calls, ∃ e s, call.Sealed st.world e s
  waiting : ∀ call ∈ st.waiting, call ∈ st.calls
  accepted : ∀ o ∈ st.accepted, o ∈ st.world.opened
  replies : ∀ reply ∈ st.replies, ∃ e, reply.Sealed st.world e
  returns : ∀ r ∈ st.returns, r.Genuine st

end Network

/-! ## Steps -/

/-- The records of the channel go on. -/
structure World.Extends (w w' : World δ ExchangePayload) : Prop where
  recorded : w.recorded <+: w'.recorded
  sent : w.sent <+: w'.sent
  opened : w.opened <+: w'.opened

theorem World.extends_step [DecidableEq δ] (w : World δ ExchangePayload)
    (act : Act δ ExchangePayload) : w.Extends (net.step w act) :=
  ⟨recorded_step act, sent_step act, opened_step act⟩

theorem ExchangeCall.Sealed.mono {call : ExchangeCall δ} {e : Sent δ ExchangePayload}
    {s : PeerSession} (h : call.Sealed w e s) (hext : w.Extends w') : call.Sealed w' e s :=
  { h with
    sent := hext.sent.subset h.sent
    recorded := hext.recorded.subset h.recorded }

theorem ExchangeReply.Sealed.mono {reply : ExchangeReply δ} {e : Sent δ ExchangePayload}
    (h : reply.Sealed w e) (hext : w.Extends w') : reply.Sealed w' e :=
  { h with
    sent := hext.sent.subset h.sent
    opened := hext.opened.subset h.opened }

namespace Network

variable [DecidableEq δ]

/-- The invariant where only the channel has moved on. -/
theorem Exchanged.act (h : net.Exchanged st) {act : Act δ ExchangePayload}
    (hideal : net.Unforged st.world act) (hlawful : net.Lawful)
    (hapart : (net.step st.world act).Apart net) :
    net.Exchanged { st with world := net.step st.world act } := by
  have hext := @World.extends_step _ net _ st.world act
  refine ⟨.step act h.run hideal, h.sound.effect hlawful hapart hideal (net.effect_step _ act),
    h.indexed.step act, fun call hcall ↦ ?_, h.waiting, fun o ho ↦ ?_, fun reply hreply ↦ ?_,
    fun r hr ↦ ?_⟩
  · obtain ⟨e, s, hsealed⟩ := h.calls call hcall
    exact ⟨e, s, hsealed.mono hext⟩
  · exact hext.opened.subset (h.accepted o ho)
  · obtain ⟨e, hsealed⟩ := h.replies reply hreply
    exact ⟨e, hsealed.mono hext⟩
  · exact { h.returns r hr with opened := hext.opened.subset (h.returns r hr).opened }

theorem mem_opened_step {frame : Bytes} {clock : ChannelClock} {packet : Packet ExchangePayload}
    {session : PeerSession} {store : SessionStore}
    (hopen : (net.channel d).open frame clock (w.endpoints d).store = .ok (packet, session) store) :
    openedAs d frame clock packet session ∈ (net.step w (.deliver d frame clock)).opened := by
  simp only [step, hopen]
  exact List.mem_append_right _ (List.mem_singleton_self _)

/-- The session that a call sends under is one with its peer. -/
theorem Exchanged.of_getSendSession (h : net.Exchanged st) {peer : DeviceId} {now : ℚ}
    {session : PeerSession}
    (hsession : (st.world.endpoints d).store.getSendSession peer now = some session) :
    st.world.find d session.sessionId = some session ∧ session.peerId = peer := by
  have hmem := (SessionStore.getSendSession_eq_some hsession).1
  refine ⟨Endpoint.find_of_store (SessionStore.mem_sessionsForPeer hmem), ?_⟩
  rw [(h.indexed d).sessionsForPeer_eq] at hmem
  exact of_decide_eq_true (List.mem_filter.mp hmem).2

theorem Exchanged.request (h : net.Exchanged st) (hlawful : net.Lawful)
    {request : ExchangeRequest} {clock : ChannelClock} {session session' : PeerSession}
    {frame : Bytes}
    (hsession : (st.world.endpoints d).store.getSendSession request.peer clock.seconds =
      some session)
    (hseal : (net.channel d).seal request.packetType request.payload clock session =
      .ok frame session')
    (hapart : (net.step st.world
      (.seal d session.sessionId request.packetType request.payload clock)).Apart net) :
    net.Exchanged { st with
      world := net.step st.world
        (.seal d session.sessionId request.packetType request.payload clock)
      calls := st.calls ++ [⟨d, request, frame⟩]
      waiting := st.waiting ++ [⟨d, request, frame⟩] } := by
  have hact := h.act (show net.Unforged st.world (.seal d _ _ _ _) from trivial) hlawful hapart
  have hsub : st.calls ⊆ st.calls ++ [⟨d, request, frame⟩] := List.subset_append_left _ _
  obtain ⟨hfind, hpeer⟩ := h.of_getSendSession hsession
  obtain ⟨s₀, hs₀, hterms⟩ := h.sound.terms _ _ _ hfind
  obtain ⟨e, he, hdevice, hid, htype, hpayload, hframe⟩ := World.exists_sent_of_seal hfind hseal
  refine ⟨hact.run, hact.sound, hact.indexed, fun call hcall ↦ ?_, fun call hcall ↦ ?_,
    hact.accepted, hact.replies, fun r hr ↦ ?_⟩
  · rcases List.mem_append.mp hcall with hcall | hcall
    · exact hact.calls call hcall
    · rw [List.mem_singleton.mp hcall]
      exact ⟨e, s₀, he, (World.recorded_step _).subset hs₀, hdevice,
        hterms.sessionId.symm.trans hid.symm, hterms.peerId.symm.trans hpeer, htype, hpayload,
        hframe⟩
  · exact List.append_subset.mpr ⟨fun c hc ↦ hsub (h.waiting c hc),
      List.subset_append_right _ _⟩ hcall
  · exact { hact.returns r hr with call := hsub (h.returns r hr).call }

theorem Exchanged.reply (h : net.Exchanged st) (hlawful : net.Lawful)
    {o : Opened δ ExchangePayload} {before after : List (Opened δ ExchangePayload)}
    {server : ManifestServer} {packetType : PacketType} {payload : ExchangePayload}
    {clock : ChannelClock} {session session' : PeerSession} {frame : Bytes}
    (ho : st.accepted = before ++ o :: after)
    (hreply : server.reply o.packetType o.payload = some (packetType, payload))
    (hsession : st.world.find o.device o.sessionId = some session)
    (hseal : (net.channel o.device).seal packetType payload clock session = .ok frame session')
    (hapart : (net.step st.world
      (.seal o.device o.sessionId packetType payload clock)).Apart net) :
    net.Exchanged { st with
      world := net.step st.world (.seal o.device o.sessionId packetType payload clock)
      accepted := before ++ after
      replies := st.replies ++ [⟨o, server, packetType, payload, frame⟩] } := by
  have hact := h.act (show net.Unforged st.world (.seal o.device _ _ _ _) from trivial) hlawful
    hapart
  have hid := find_sessionId hsession
  rw [← hid] at hsession
  obtain ⟨e, he, hdevice, -, -, hpayload, hframe⟩ := World.exists_sent_of_seal hsession hseal
  rw [hid] at he
  refine ⟨hact.run, hact.sound, hact.indexed, hact.calls, hact.waiting, fun o' ho' ↦ ?_,
    fun reply hr ↦ ?_, fun r hr ↦ { hact.returns r hr with }⟩
  · refine hact.accepted o' ?_
    rw [ho]
    exact List.append_subset.mpr ⟨List.subset_append_left _ _,
      fun x hx ↦ List.mem_append_right _ (List.mem_cons_of_mem _ hx)⟩ ho'
  · rcases List.mem_append.mp hr with hr | hr
    · exact hact.replies reply hr
    · rw [List.mem_singleton.mp hr]
      refine ⟨e, he, hact.accepted o ?_, hreply, hdevice, hpayload, hframe⟩
      rw [ho]
      exact List.mem_append_right _ List.mem_cons_self

theorem Exchanged.step (h : net.Exchanged st) (hstep : net.ExchangeStep st st')
    (hlawful : net.Lawful) (hapart : st'.world.Apart net) : net.Exchanged st' := by
  cases hstep with
  | request d request clock session session' frame hsession hseal =>
      exact h.request hlawful hsession hseal hapart
  | accept d frame clock packet session store hideal hopen =>
      have hact := h.act hideal hlawful hapart
      refine ⟨hact.run, hact.sound, hact.indexed, hact.calls, hact.waiting, fun o ho ↦ ?_,
        hact.replies, fun r hr ↦ { hact.returns r hr with }⟩
      rcases List.mem_append.mp ho with ho | ho
      · exact hact.accepted o ho
      · rw [List.mem_singleton.mp ho]
        exact mem_opened_step hopen
  | reply o before after server packetType payload clock session session' frame ho hreply hsession
      hseal => exact h.reply hlawful ho hreply hsession hseal hapart
  | «return» call before after frame clock packet session store value hcall hideal hopen hvalue =>
      have hact := h.act hideal hlawful hapart
      refine ⟨hact.run, hact.sound, hact.indexed, hact.calls, fun c hc ↦ ?_, hact.accepted,
        hact.replies, fun r hr ↦ ?_⟩
      · refine hact.waiting c ?_
        rw [hcall]
        exact List.append_subset.mpr ⟨List.subset_append_left _ _,
          fun x hx ↦ List.mem_append_right _ (List.mem_cons_of_mem _ hx)⟩ hc
      · rcases List.mem_append.mp hr with hr | hr
        · exact { hact.returns r hr with }
        · rw [List.mem_singleton.mp hr]
          refine ⟨h.waiting call ?_, mem_opened_step hopen, rfl, hvalue⟩
          rw [hcall]
          exact List.mem_append_right _ List.mem_cons_self
  | elsewhere act hideal => exact h.act hideal hlawful hapart

theorem ExchangeStep.recorded_prefix (hstep : net.ExchangeStep st st') :
    st.world.recorded <+: st'.world.recorded := by
  cases hstep <;> exact World.recorded_step _

theorem ExchangeRun.exchanged (hrun : net.ExchangeRun st) (hlawful : net.Lawful)
    (hapart : st.world.Apart net) : net.Exchanged st := by
  induction hrun with
  | start =>
      refine ⟨.start, World.sound_start _, fun d ↦ SessionStore.indexed_new _, ?_, ?_, ?_, ?_, ?_⟩
      all_goals exact fun x hx ↦ nomatch hx
  | step _ hstep ih => exact (ih (hapart.of_prefix hstep.recorded_prefix)).step hstep hlawful hapart

end Network
end SecureSync
