import SecureSync.Exchange.Pushes
import SecureSync.Properties.ChannelAuthenticity
import SecureSync.Properties.MessageLimit
import SecureSync.Properties.ReceiverLoop

/-!
# Authenticity of pushes

Whatever the network brings to an inbox, a receiver goes through a run of pushes that its peers
sealed for it.
-/

namespace SecureSync

open Raising SecureChannel
open scoped List

/-! ## What the receiver was given -/

def SenderEvent.from? {ο : Type} [DecidableEq ο] (owner : ο) : SenderEvent ο → Option IncomingPush
  | .push o _ incoming => if o = owner then some incoming else none
  | .sweep _ => none

def takenFrom {ο : Type} [DecidableEq ο] (owner : ο) (es : List (SenderEvent ο)) :
    List IncomingPush :=
  es.filterMap (SenderEvent.from? owner)

theorem takenFrom_append {ο : Type} [DecidableEq ο] (owner : ο) (es es' : List (SenderEvent ο)) :
    takenFrom owner (es ++ es') = takenFrom owner es ++ takenFrom owner es' :=
  List.filterMap_append

namespace ReceivePushedFiles

variable {uc : ReceivePushedFiles} {events : List ReceiverEvent} {st st' : ReceiverState}

/-- The loop over some events, with the error that ends it. -/
def handleEvents (uc : ReceivePushedFiles) :
    List ReceiverEvent → ReceiverState → EStateM.Result PushError ReceiverState Unit
  | [], st => .ok () st
  | event :: events, st =>
      match uc.handleEvent event st with
      | .ok _ st' => uc.handleEvents events st'
      | .error e st' => .error e st'

theorem handleEvents_concat (event : ReceiverEvent)
    (h : uc.handleEvents events st = .ok () st') :
    uc.handleEvents (events ++ [event]) st = uc.handleEvent event st' := by
  induction events generalizing st with
  | nil =>
      cases h
      rw [List.nil_append, handleEvents]
      cases uc.handleEvent event st' <;> rfl
  | cons first events ih =>
      rw [List.cons_append]
      simp only [handleEvents] at h ⊢
      cases hfirst : uc.handleEvent first st with
      | ok u between =>
          rw [hfirst] at h
          exact ih h
      | error e between =>
          rw [hfirst] at h
          cases h

theorem runForever_eq (events : List ReceiverEvent) (st : ReceiverState) :
    uc.runForever events st =
      match uc.handleEvents events st with
      | .ok _ st' => st'
      | .error _ st' => uc.abortAllPartials st' := by
  induction events generalizing st with
  | nil => rfl
  | cons event events ih =>
      rw [runForever, handleEvents]
      cases uc.handleEvent event st with
      | ok u st' => exact ih st'
      | error e st' => rfl

/-- What the receiver is left with: an exception that the transport raises comes after its
events, one of the handler in the last of them. -/
def leftWith (uc : ReceivePushedFiles) (failure : Option LoopError) (events : List ReceiverEvent)
    (start : ReceiverState) : ReceiverState :=
  match failure with
  | none | some (.handler _) => uc.runForever events start
  | some _ => uc.abortAllPartials (uc.runForever events start)

end ReceivePushedFiles

/-! ## One turn of a loop -/

namespace PushNetwork

variable {δ π : Type} {fleet : PushNetwork δ π} {texts : WireTexts} {d : δ}

/-- What a turn comes to, by the event that is handed on in it. -/
inductive Turned (uc : ReceivePushedFiles) (s after : PushLoopState) : Option ReceiverEvent → Prop
  | dropped (hreceiver : after.receiver = s.receiver) (hfailure : after.failure = none) :
      Turned uc s after none
  | refused {e : LoopError} (he : ∀ error, e ≠ .handler error)
      (hreceiver : after.receiver = uc.abortAllPartials s.receiver)
      (hfailure : after.failure = some e) : Turned uc s after none
  | handled {event : ReceiverEvent} {u : Unit}
      (hevent : uc.handleEvent event s.receiver = .ok u after.receiver)
      (hfailure : after.failure = none) : Turned uc s after (some event)
  | raised {event : ReceiverEvent} {e : PushError} {receiver : ReceiverState}
      (hevent : uc.handleEvent event s.receiver = .error e receiver)
      (hreceiver : after.receiver = uc.abortAllPartials receiver)
      (hfailure : after.failure = some (.handler e)) : Turned uc s after (some event)

theorem handed_frame {store store' : SessionStore} {frame : Bytes} {now : ChannelClock}
    {clock : Clock} {packet : Packet PyValue} {session : PeerSession}
    (h : (fleet.loop d).channel.open frame now store = .ok (packet, session) store') :
    fleet.handed store d (.frame frame now clock) =
      ((fleet.pushOf packet.payload).filter fun incoming ↦
        !(fleet.loop d).meetsLinkLoop incoming.relativePath).map
          (.push session.sessionId clock) := by
  simp only [handed, h]

theorem turned_sweep {s : PushLoopState} (hs : s.failure = none) (now : ℚ) :
    Turned (fleet.receivers d) s ((fleet.loop d).step s (.sweep now)) (some (.sweep now)) ∧
      ((fleet.loop d).step s (.sweep now)).loose = s.loose := by
  have hstep : (fleet.loop d).step s (.sweep now) =
      { s with receiver := (fleet.receivers d).abortExpiredPartials now s.receiver } := by
    unfold PushLoop.step
    rw [hs]
    rfl
  rw [hstep]
  exact ⟨.handled rfl hs, rfl⟩

theorem turned_linkLoop {s : PushLoopState} (hs : s.failure = none) {store : SessionStore}
    {frame : Bytes} {now : ChannelClock} (clock : Clock) {push : PushMessage}
    (h : (fleet.loop d).receivePush frame now s.store = .ok (some push) store)
    (hlink : (fleet.loop d).meetsLinkLoop push.relativePath = true) :
    Turned (fleet.receivers d) s ((fleet.loop d).step s (.frame frame now clock)) none ∧
      ((fleet.loop d).step s (.frame frame now clock)).loose = s.loose := by
  rw [PushLoop.step_frame hs, h]
  dsimp only
  unfold PushLoop.handleMessage
  rw [if_pos hlink]
  exact ⟨.refused (by simp) rfl rfl, rfl⟩

theorem turned_push {s : PushLoopState} (hs : s.failure = none) (hloose : s.loose = .empty)
    {store : SessionStore} {frame : Bytes} {now : ChannelClock} (clock : Clock)
    {incoming : IncomingPush}
    (h : (fleet.loop d).receivePush frame now s.store =
      .ok (some (texts.pushMessage incoming)) store)
    (hlink : (fleet.loop d).meetsLinkLoop incoming.relativePath = false) :
    Turned (fleet.receivers d) s ((fleet.loop d).step s (.frame frame now clock))
        (some (.push clock incoming)) ∧
      ((fleet.loop d).step s (.frame frame now clock)).loose = s.loose := by
  have htyped : s.looseState.loose.Typed (texts.pushMessage incoming).relativePath := by
    rw [PushLoopState.looseState, hloose]
    exact ⟨rfl, rfl⟩
  rw [PushLoop.step_frame hs, h]
  dsimp only
  rw [PushLoop.handleMessage_typed hlink (texts.typed?_pushMessage incoming) htyped]
  unfold onReceiver zoom
  dsimp only [PushLoopState.looseState]
  cases hevent : (fleet.loop d).handleEvent (.push clock incoming) s.receiver with
  | ok u receiver => exact ⟨.handled hevent rfl, rfl⟩
  | error e receiver => exact ⟨.raised hevent rfl rfl, rfl⟩

theorem turned_step {s : PushLoopState} (hs : s.failure = none) (hloose : s.loose = .empty)
    (event : InboxEvent)
    (hmakes : ∀ frame now clock packet session store, event = .frame frame now clock →
      (fleet.loop d).channel.open frame now s.store = .ok (packet, session) store →
        texts.Makes packet.payload) :
    Turned (fleet.receivers d) s ((fleet.loop d).step s event)
        ((fleet.handed s.store d event).map SenderEvent.event) ∧
      ((fleet.loop d).step s event).loose = s.loose := by
  cases event with
  | sweep now => exact turned_sweep hs now
  | frame frame now clock =>
      cases hopen : (fleet.loop d).channel.open frame now s.store with
      | error e store =>
          have hnone : fleet.handed s.store d (.frame frame now clock) = none := by
            simp only [handed, hopen]
          rw [hnone, PushLoop.step_frame hs, PushLoop.receivePush, hopen]
          cases e with
          | replay error => exact ⟨.dropped rfl hs, rfl⟩
          | packet error => exact ⟨.refused (by simp) rfl rfl, rfl⟩
          | counterExhausted count => exact ⟨.refused (by simp) rfl rfl, rfl⟩
      | ok result store =>
          obtain ⟨packet, session⟩ := result
          rw [handed_frame hopen]
          rcases (hmakes frame now clock packet session store rfl hopen).push_or_error with
            ⟨incoming, hpush⟩ | ⟨name, herror⟩
          · have hread : (fleet.loop d).receivePush frame now s.store =
                .ok (some (texts.pushMessage incoming)) store := by
              rw [PushLoop.receivePush, hopen]
              dsimp only
              rw [hpush, texts.pushFromPayload_pushPayload]
            rw [hpush, pushOf_pushPayload]
            cases hlink : (fleet.loop d).meetsLinkLoop incoming.relativePath with
            | true =>
                rw [Option.filter_some_neg (by simp [hlink])]
                exact turned_linkLoop hs clock hread hlink
            | false =>
                rw [Option.filter_some_pos (by simp [hlink])]
                exact turned_push hs hloose clock hread hlink
          · have hread : pushFromPayload (fleet.loop d).builtins packet.payload =
                .error (.key name) := herror
            rw [pushOf_eq_none herror, PushLoop.step_frame hs, PushLoop.receivePush, hopen]
            dsimp only
            rw [hread]
            exact ⟨.refused (by simp) rfl rfl, rfl⟩

/-! ## Runs of the receivers -/

/-- The receiver has gone through its events, and stands where its loop has come to. -/
inductive Reflects (uc : ReceivePushedFiles) (start receiver : ReceiverState)
    (events : List ReceiverEvent) : Option LoopError → Prop
  | runs (h : uc.handleEvents events start = .ok () receiver) :
      Reflects uc start receiver events none
  | refused {e : LoopError} {before : ReceiverState} (he : ∀ error, e ≠ .handler error)
      (h : uc.handleEvents events start = .ok () before)
      (hreceiver : receiver = uc.abortAllPartials before) :
      Reflects uc start receiver events (some e)
  | raised {e : PushError} {before : ReceiverState}
      (h : uc.handleEvents events start = .error e before)
      (hreceiver : receiver = uc.abortAllPartials before) :
      Reflects uc start receiver events (some (.handler e))

theorem Reflects.eq_leftWith {uc : ReceivePushedFiles} {start receiver : ReceiverState}
    {events : List ReceiverEvent} {failure : Option LoopError}
    (h : Reflects uc start receiver events failure) :
    receiver = uc.leftWith failure events start := by
  cases h with
  | runs h => rw [ReceivePushedFiles.leftWith, uc.runForever_eq, h]
  | @refused e before he h hreceiver =>
      cases e with
      | handler error => exact absurd rfl (he error)
      | _ =>
          rw [ReceivePushedFiles.leftWith, uc.runForever_eq, h, hreceiver]
          exact he
  | raised h hreceiver => rw [ReceivePushedFiles.leftWith, uc.runForever_eq, h, hreceiver]

theorem Reflects.turn {uc : ReceivePushedFiles} {start : ReceiverState}
    {events : List ReceiverEvent} {s after : PushLoopState} {event : Option ReceiverEvent}
    (h : Reflects uc start s.receiver events none) (hturn : Turned uc s after event) :
    Reflects uc start after.receiver (events ++ event.toList) after.failure := by
  obtain ⟨hevents⟩ := h
  cases hturn with
  | dropped hreceiver hfailure =>
      rw [hreceiver, hfailure, Option.toList_none, List.append_nil]
      exact .runs hevents
  | refused he hreceiver hfailure =>
      rw [hfailure, Option.toList_none, List.append_nil]
      exact .refused he hevents hreceiver
  | handled hevent hfailure =>
      rw [hfailure]
      exact .runs ((uc.handleEvents_concat _ hevents).trans hevent)
  | raised hevent hreceiver hfailure =>
      rw [hfailure]
      exact .raised ((uc.handleEvents_concat _ hevents).trans hevent) hreceiver

/-! ## Runs of the devices -/

variable [DecidableEq δ] {receivers : δ → ReceiverState} {st : Pushing δ π}

theorem opened_deliver {net : Network δ π} {w : World δ π} {frame : Bytes} {now : ChannelClock}
    {packet : Packet π} {session : PeerSession} {store : SessionStore}
    (h : (net.channel d).open frame now (w.endpoints d).store = .ok (packet, session) store) :
    (net.step w (.deliver d frame now)).opened = w.opened ++
      [⟨d, session.sessionId, packet.header.messageId, packet.header.packetType, packet.payload,
        now, frame⟩] := by
  simp only [Network.step, h]

/-- The records of the channel, the receivers and what they were given go together. -/
structure Kept (fleet : PushNetwork δ π) (receivers : δ → ReceiverState) (st : Pushing δ π) :
    Prop where
  run : fleet.network.Run st.world
  loose : ∀ d, st.loose d = .empty
  reflects : ∀ d, Reflects (fleet.receivers d) (receivers d) (st.receivers d)
    ((st.events d).map SenderEvent.event) (st.failures d)
  taken : ∀ d sessionId, takenFrom sessionId (st.events d) <+
    fleet.pushesIn ((st.world.openedIn d sessionId).map Opened.payload)

theorem pushesIn_openedIn_step (w : World δ π) (act : Act δ π) (d : δ) (sessionId : Bytes) :
    fleet.pushesIn ((w.openedIn d sessionId).map Opened.payload) <+
      fleet.pushesIn (((fleet.network.step w act).openedIn d sessionId).map Opened.payload) :=
  (((World.opened_step act).sublist.filter _).map _).filterMap _

/-- What a frame hands on is the push that it carries. -/
theorem taken_handed {w : World δ π} {frame : Bytes} {now : ChannelClock} {clock : Clock}
    (sessionId : Bytes) :
    fleet.pushesIn ((w.openedIn d sessionId).map Opened.payload) ++
        takenFrom sessionId
          (fleet.handed (w.endpoints d).store d (.frame frame now clock)).toList <+
      fleet.pushesIn (((fleet.network.step w (.deliver d frame now)).openedIn d sessionId).map
        Opened.payload) := by
  cases hopen : (fleet.network.channel d).open frame now (w.endpoints d).store with
  | error e store =>
      have hnone : fleet.handed (w.endpoints d).store d (.frame frame now clock) = none := by
        simp only [handed, open_loop, hopen]
      rw [hnone]
      simpa [takenFrom] using pushesIn_openedIn_step w (.deliver d frame now) d sessionId
  | ok result store =>
      obtain ⟨packet, session⟩ := result
      have hloop : (fleet.loop d).channel.open frame now (w.endpoints d).store =
          .ok (fleet.seen packet, session) store := by
        rw [open_loop, hopen]
      rw [handed_frame hloop]
      unfold World.openedIn
      rw [opened_deliver hopen, List.filter_append, List.map_append, pushesIn_append]
      apply List.Sublist.append (List.Sublist.refl _)
      by_cases hsession : session.sessionId = sessionId
      · subst hsession
        have hcarried : fleet.pushOf (fleet.seen packet).payload =
            fleet.pushOf (fleet.value packet.payload) := rfl
        rw [hcarried]
        cases hpush : fleet.pushOf (fleet.value packet.payload) with
        | none => simp [takenFrom, pushesIn, hpush]
        | some incoming =>
            cases hlink : (fleet.loop d).meetsLinkLoop incoming.relativePath <;>
              simp [takenFrom, SenderEvent.from?, pushesIn, hpush, hlink, Option.filter]
      · cases fleet.pushOf (fleet.seen packet).payload with
        | none => simp [takenFrom, pushesIn]
        | some incoming =>
            cases hlink : (fleet.loop d).meetsLinkLoop incoming.relativePath <;>
              simp [takenFrom, SenderEvent.from?, pushesIn, hsession, hlink]

/-- What the loop opens was sealed, so it is a payload of the transports. -/
theorem makes_of_open (hlawful : fleet.network.Lawful) {w : World δ π} {frame : Bytes}
    {now : ChannelClock} (hrun : fleet.network.Run (fleet.network.step w (.deliver d frame now)))
    (hapart : (fleet.network.step w (.deliver d frame now)).Apart fleet.network)
    (hmakes : ∀ e ∈ (fleet.network.step w (.deliver d frame now)).sent,
      texts.Makes (fleet.value e.payload))
    {packet : Packet PyValue} {session : PeerSession} {store : SessionStore}
    (hopen : (fleet.loop d).channel.open frame now (w.endpoints d).store =
      .ok (packet, session) store) : texts.Makes packet.payload := by
  rw [open_loop] at hopen
  cases hnet : (fleet.network.channel d).open frame now (w.endpoints d).store with
  | error e store => simp [hnet] at hopen
  | ok result store =>
      obtain ⟨packet', session'⟩ := result
      rw [hnet] at hopen
      obtain rfl : fleet.seen packet' = packet := by
        cases hopen
        rfl
      obtain ⟨e, he, s, s', hfrom⟩ := (hrun.sound hlawful hapart).opened_from _ (by
        rw [opened_deliver hnet]
        exact List.mem_append_right _ (List.mem_singleton_self _))
      have hpayload : e.payload = packet'.payload := hfrom.payload
      rw [seen, ← hpayload]
      exact hmakes e he

theorem kept_start : fleet.Kept receivers (fleet.start receivers) where
  run := .start
  loose _ := rfl
  reflects _ := .runs rfl
  taken _ _ := List.Sublist.refl _

theorem Kept.inbox (hlawful : fleet.network.Lawful) (h : fleet.Kept receivers st)
    (event : InboxEvent) (hd : st.failures d = none)
    (hrun : fleet.network.Run (fleet.channels st.world d event))
    (hapart : (fleet.channels st.world d event).Apart fleet.network)
    (hmakes : ∀ e ∈ (fleet.channels st.world d event).sent, texts.Makes (fleet.value e.payload)) :
    fleet.Kept receivers (fleet.step st (.inbox d event)) := by
  have hturned : Turned (fleet.receivers d)
        ⟨(st.world.endpoints d).store, st.receivers d, st.loose d, none⟩ (fleet.turn st d event)
        ((fleet.handed (st.world.endpoints d).store d event).map SenderEvent.event) ∧
      (fleet.turn st d event).loose = st.loose d := by
    apply turned_step rfl (h.loose d) event
    rintro frame now clock packet session store rfl hopen
    exact makes_of_open hlawful hrun hapart hmakes hopen
  obtain ⟨hturn, hloose⟩ := hturned
  have hnone : ¬ (st.failures d).isSome = true := by simp [hd]
  simp only [step, if_neg hnone]
  refine ⟨hrun, fun d' ↦ ?_, fun d' ↦ ?_, fun d' sessionId ↦ ?_⟩
  · dsimp only
    by_cases hd' : d' = d
    · subst hd'
      rw [Function.update_self, hloose, h.loose]
    · rw [Function.update_of_ne hd', h.loose]
  · have hreflects := h.reflects d'
    by_cases hd' : d' = d
    · subst hd'
      rw [hd] at hreflects
      simp only [Function.update_self, List.map_append, ← Option.toList_map]
      exact hreflects.turn hturn
    · simpa only [Function.update_of_ne hd'] using hreflects
  · have htaken := h.taken d' sessionId
    dsimp only
    by_cases hd' : d' = d
    · subst hd'
      rw [Function.update_self, takenFrom_append]
      apply (htaken.append (List.Sublist.refl _)).trans
      cases event with
      | sweep now => simp [handed, takenFrom, SenderEvent.from?, channels]
      | frame frame now clock => exact taken_handed sessionId
    · rw [Function.update_of_ne hd']
      apply htaken.trans
      cases event with
      | sweep now => exact List.Sublist.refl _
      | frame frame now clock => exact pushesIn_openedIn_step _ _ _ _

theorem Kept.step (hlawful : fleet.network.Lawful) (h : fleet.Kept receivers st)
    (act : PushAct δ π) (hideal : ∀ a ∈ st.act? act, fleet.network.Unforged st.world a)
    (hapart : (fleet.step st act).world.Apart fleet.network)
    (hmakes : ∀ e ∈ (fleet.step st act).world.sent, texts.Makes (fleet.value e.payload)) :
    fleet.Kept receivers (fleet.step st act) := by
  cases act with
  | elsewhere act =>
      exact ⟨.step act h.run (hideal act rfl), h.loose, h.reflects, fun d sessionId ↦
        (h.taken d sessionId).trans (pushesIn_openedIn_step _ _ _ _)⟩
  | inbox d event =>
      cases hd : st.failures d with
      | some e =>
          have hstep : fleet.step st (.inbox d event) = st := by simp [PushNetwork.step, hd]
          rwa [hstep]
      | none =>
          have hworld : (fleet.step st (.inbox d event)).world =
              fleet.channels st.world d event := by simp [PushNetwork.step, hd]
          rw [hworld] at hapart hmakes
          refine h.inbox hlawful event hd ?_ hapart hmakes
          cases event with
          | sweep now => exact h.run
          | frame frame now clock =>
              exact .step (.deliver d frame now) h.run (hideal _ (by simp [Pushing.act?, hd]))

variable (fleet) in
theorem extends_step (st : Pushing δ π) (act : PushAct δ π) :
    st.world.recorded <+: (fleet.step st act).world.recorded ∧
      st.world.sent <+: (fleet.step st act).world.sent := by
  cases act with
  | elsewhere act => exact ⟨World.recorded_step act, World.sent_step act⟩
  | inbox d event =>
      simp only [PushNetwork.step]
      split_ifs
      · exact ⟨List.prefix_refl _, List.prefix_refl _⟩
      · cases event with
        | sweep now => exact ⟨List.prefix_refl _, List.prefix_refl _⟩
        | frame frame now clock => exact ⟨World.recorded_step _, World.sent_step _⟩

theorem Run.kept (hlawful : fleet.network.Lawful) (hrun : fleet.Run receivers st)
    (hapart : st.world.Apart fleet.network)
    (hmakes : ∀ e ∈ st.world.sent, texts.Makes (fleet.value e.payload)) :
    fleet.Kept receivers st := by
  induction hrun with
  | start => exact kept_start
  | @step st act _ hideal ih =>
      have hext := fleet.extends_step st act
      exact (ih (hapart.of_prefix hext.1) fun e he ↦ hmakes e (hext.2.subset he)).step hlawful act
        hideal hapart hmakes

/-- What arrives under a session was sealed by the device that the session names. -/
theorem Kept.exists_peer (h : fleet.Kept receivers st) (hlawful : fleet.network.Lawful)
    (hinj : Function.Injective fleet.network.deviceId) (hapart : st.world.Apart fleet.network)
    {sessionId : Bytes} (hsome : takenFrom sessionId (st.events d) ≠ []) :
    ∃ s d', (d, s) ∈ st.world.recorded ∧ s.sessionId = sessionId ∧
      s.peerId = fleet.network.deviceId d' ∧ d' ≠ d ∧
      takenFrom sessionId (st.events d) <+~
        fleet.pushesIn ((st.world.sealedIn d' sessionId).map Sent.payload) := by
  have htaken := h.taken d sessionId
  obtain ⟨o, ho⟩ : ∃ o, o ∈ st.world.openedIn d sessionId := by
    refine List.exists_mem_of_ne_nil _ fun hnil ↦ hsome ?_
    rw [hnil] at htaken
    exact List.sublist_nil.mp htaken
  have hsound := h.run.sound hlawful hapart
  obtain ⟨hmem, rfl, rfl⟩ := World.mem_openedIn.mp ho
  obtain ⟨e, he, s, s', hfrom⟩ := hsound.opened_from o hmem
  refine ⟨s, e.device, hfrom.recorded, hfrom.sessionId, hfrom.mirrored.peerId,
    hapart.ne_of_mirrored hfrom.recorded hfrom.recorded' hfrom.mirrored, ?_⟩
  have hpackets := hsound.packetsOpened_subperm hapart hinj hfrom.recorded
    hfrom.mirrored.peerId.symm
  rw [hfrom.sessionId] at hpackets
  obtain ⟨packets, hperm, hsub⟩ := hpackets
  have hpushes : (packets.filterMap fun packet ↦ fleet.pushOf (fleet.value packet.2)).Subperm
      ((st.world.packetsSealed e.device o.sessionId).filterMap
        fun packet ↦ fleet.pushOf (fleet.value packet.2)) := (hsub.filterMap _).subperm
  have hopened := hperm.filterMap fun packet ↦ fleet.pushOf (fleet.value packet.2)
  rw [World.packetsOpened, List.filterMap_map] at hopened
  rw [World.packetsSealed, List.filterMap_map] at hpushes
  rw [pushesIn, List.filterMap_map] at htaken ⊢
  exact htaken.subperm.trans (hopened.symm.subperm.trans hpushes)

/-- Over any network, the state of a receiver comes of a run through pushes that have arrived
under recorded sessions; and those of one session are among the pushes that the device which the
session names has sealed for it, none of them more often. -/
theorem pushes_authentic (fleet : PushNetwork δ π) (texts : WireTexts)
    (hlawful : fleet.network.Lawful) (hinj : Function.Injective fleet.network.deviceId)
    (receivers : δ → ReceiverState) {st : Pushing δ π} (hrun : fleet.Run receivers st)
    (hapart : st.world.Apart fleet.network)
    (hmakes : ∀ e ∈ st.world.sent, texts.Makes (fleet.value e.payload)) (d : δ) :
    st.receivers d = (fleet.receivers d).leftWith (st.failures d)
      ((st.events d).map SenderEvent.event) (receivers d) ∧
    ∀ sessionId, takenFrom sessionId (st.events d) ≠ [] →
      ∃ s d', (d, s) ∈ st.world.recorded ∧ s.sessionId = sessionId ∧
        s.peerId = fleet.network.deviceId d' ∧ d' ≠ d ∧
        takenFrom sessionId (st.events d) <+~
          fleet.pushesIn ((st.world.sealedIn d' sessionId).map Sent.payload) := by
  have hkept := hrun.kept hlawful hapart hmakes
  exact ⟨(hkept.reflects d).eq_leftWith, fun sessionId hsome ↦
    hkept.exists_peer hlawful hinj hapart hsome⟩

/-- Alice and Bob have one payload to exchange, and Bob receives. -/
noncomputable def onePush : PushNetwork Bool Unit where
  network := pairNetworkOf ⟨fun _ ↦ [10], fun bs ↦ if bs = [10] then some () else none⟩
  msgpack := ⟨fun _ ↦ [10], fun bs ↦
    if bs = [10] then some (posixTexts.pushPayload (samplePushOf2 none)) else none⟩
  value _ := posixTexts.pushPayload (samplePushOf2 none)
  packb_value _ := rfl
  unpackb_eq bs := by by_cases h : bs = [10] <;> simp [pairNetworkOf, h]
  builtins := sampleLoop.builtins
  receivers _ := sampleReceiver.onDisk
  linkLoops _ := sampleLoop.linkLoops

def emptyReceivers (_ : Bool) : ReceiverState := sampleReceiverState none

noncomputable def onePushSealed : Pushing Bool Unit :=
  [.put false (pairTerms false) 0, .put true (pairTerms true) 0,
    .seal false (pairTerms false).sessionId .chunkData () ⟨0, 0⟩].foldl
      (fun st act ↦ onePush.step st (.elsewhere act)) (onePush.start emptyReceivers)

noncomputable def onePushFrame : Bytes :=
  ((onePushSealed.world.sent.head?.bind Sent.frame?)).getD []

/-- The frame arrives twice. -/
noncomputable def onePushTaken : Pushing Bool Unit :=
  [onePushFrame, onePushFrame].foldl
    (fun st frame ↦ onePush.step st (.inbox true (.frame frame ⟨1, 1⟩ ⟨1, default⟩)))
    onePushSealed

theorem onePush_lawful : onePush.network.Lawful := ⟨plainCipher_correct, by decide⟩

theorem onePush_makes (payload : Unit) : posixTexts.Makes (onePush.value payload) :=
  .push (samplePushOf2 none)

theorem onePush_run_inbox {st : Pushing Bool Unit} (hrun : onePush.Run emptyReceivers st)
    (hrecorded : st.world.recorded = pairSessions) (frame : Bytes)
    (hsent : (!true, some frame) ∈ st.world.sent.map fun e ↦ (e.device, e.frame?))
    (now : ChannelClock) (clock : Clock) :
    onePush.Run emptyReceivers (onePush.step st (.inbox true (.frame frame now clock))) := by
  apply Run.step _ hrun
  intro act hact
  have hapart : st.world.Apart onePush.network := pair_apart hrecorded
  have hsound := (hrun.kept onePush_lawful hapart fun e _ ↦ onePush_makes e.payload).run.sound
    onePush_lawful hapart
  rw [Pushing.act?] at hact
  split_ifs at hact
  · cases hact
  · obtain rfl := Option.some.inj hact
    exact pair_unforged hsound hrecorded hsent now

theorem onePushTaken_run : onePush.Run emptyReceivers onePushTaken := by
  have hsealed : onePush.Run emptyReceivers onePushSealed := by
    have hstart : onePush.Run emptyReceivers (onePush.start emptyReceivers) := .start
    refine ((hstart.step (.elsewhere _) ?_).step (.elsewhere _) ?_).step (.elsewhere _) ?_
    all_goals
      rintro act ⟨⟩
      trivial
  have hfirst := onePush_run_inbox hsealed (by decide +kernel) onePushFrame (by decide +kernel)
    ⟨1, 1⟩ ⟨1, default⟩
  exact onePush_run_inbox hfirst (by decide +kernel) onePushFrame (by decide +kernel) ⟨1, 1⟩
    ⟨1, default⟩

/-- Bob takes it once. -/
theorem pushes_authentic_bob :
    takenFrom (pairTerms true).sessionId (onePushTaken.events true) = [samplePushOf2 none] ∧
    ∃ s d', (true, s) ∈ onePushTaken.world.recorded ∧ s.sessionId = (pairTerms true).sessionId ∧
      s.peerId = onePush.network.deviceId d' ∧ d' ≠ true ∧
      takenFrom (pairTerms true).sessionId (onePushTaken.events true) <+~
        onePush.pushesIn ((onePushTaken.world.sealedIn d' (pairTerms true).sessionId).map
          Sent.payload) := by
  have htaken : takenFrom (pairTerms true).sessionId (onePushTaken.events true) =
      [samplePushOf2 none] := by decide +kernel
  have hrecorded : onePushTaken.world.recorded = pairSessions := by decide +kernel
  have hinj : Function.Injective onePush.network.deviceId := by decide
  refine ⟨htaken, ?_⟩
  exact (pushes_authentic onePush posixTexts onePush_lawful hinj emptyReceivers onePushTaken_run
    (pair_apart hrecorded) (fun e _ ↦ onePush_makes e.payload) true).2 _ (by simp [htaken])

end PushNetwork
end SecureSync
