import SecureSync.Channel.Delivery
import SecureSync.Handshake.Sources

/-!
# Frames that follow a handshake at once

The initiator can send as soon as it has read the answer.  The responder finds
the session once its drain loop has recorded it.
-/

namespace SecureSync

open Raising Setting

variable {δ π : Type}

/-- The store has dropped a session that it once held. -/
def World.HasDropped (w : World δ π) (d : δ) (sessionId : Bytes) : Prop :=
  (w.endpoints d).store.getBySessionId sessionId = none ∧
    ((w.endpoints d).dropped.find? sessionId).isSome

/-- A frame that reaches the responder as it was sealed. -/
structure Delivery (δ π : Type) where
  before : Handshaking δ π
  entry : Sent δ π
  frame : Bytes
  clock : ChannelClock

namespace Setting

variable [DecidableEq δ] (S : Setting δ π)

/-- The runs, with the frames of the initiators that are delivered in them. -/
inductive DeliveryRun : Handshaking δ π → List (Delivery δ π) → Prop
  | start : DeliveryRun S.start []
  | step {st st' : Handshaking δ π} {log : List (Delivery δ π)} (h : DeliveryRun st log)
      (hstep : S.Step st st') : DeliveryRun st' log
  | deliver {st : Handshaking δ π} {log : List (Delivery δ π)} (h : DeliveryRun st log)
      (entry : Sent δ π) (frame : Bytes) (clock : ChannelClock) (hsent : entry ∈ st.world.sent)
      (hframe : entry.frame? = some frame) (hother : entry.device ≠ S.responder) :
      DeliveryRun { st with world := S.net.step st.world (.deliver S.responder frame clock) }
        (log ++ [⟨st, entry, frame, clock⟩])

end Setting

/-- Opening the frame succeeds. -/
def Delivery.Opens [DecidableEq δ] (x : Delivery δ π) (S : Setting δ π) : Prop :=
  Completed ((S.net.channel S.responder).open x.frame x.clock
    (x.before.world.endpoints S.responder).store)

/-- The frame comes after the drain loop has recorded the responder's side of its
handshake, to a session that has not been dropped since. -/
structure Delivery.Ready (x : Delivery δ π) (S : Setting δ π) : Prop where
  drained : ∀ r ∈ x.before.recorded, r.1.device = x.entry.device →
    (S.terms r.1).sessionId = x.entry.sessionId →
      ∃ r' ∈ x.before.recorded, r'.1.side = (.responder, r.1.answer)
  kept : ¬ x.before.world.HasDropped S.responder x.entry.sessionId
  window : ∀ s, x.before.world.find S.responder x.entry.sessionId = some s →
    s.receiveWindow.wouldAccept x.entry.counter = true
  skew : |(x.clock.milliseconds : ℤ) - x.entry.clock.milliseconds| ≤ S.net.timestampSkewMs

variable {S : Setting δ π} {st st' : Handshaking δ π}

namespace Setting

/-- A sealed frame belongs to a recorded session of its device. -/
theorem Hosted.exists_source [DecidableEq δ] (h : S.Hosted st) (hsound : st.world.Sound S.net)
    {e : Sent δ π} (he : e ∈ st.world.sent) :
    ∃ r ∈ st.recorded, ∃ header, r.1.device = e.device ∧
      e.Genuine S.net st.world (.start (S.terms r.1) r.2) header := by
  obtain ⟨s, header, hgenuine⟩ := hsound.sent_genuine e he
  have hrecorded := hgenuine.recorded
  rw [h.recorded] at hrecorded
  obtain ⟨r, hr, heq⟩ := List.mem_map.mp hrecorded
  obtain ⟨hdevice, rfl⟩ := Prod.mk.inj heq
  exact ⟨r, hr, header, hdevice, hgenuine⟩

variable {r : Source δ × ℚ}

/-- The responder's side of a session is the one recorded for the same answer. -/
theorem Traced.mirrored_of_find [DecidableEq δ] (h : S.Traced st) (hanswered : S.Answered st)
    (hhosted : S.Hosted st) (hfree : S.CollisionFree st) (hsound : st.world.Sound S.net)
    (hr : r ∈ st.recorded) (hrole : r.1.role = .initiator) {s : PeerSession}
    (hs : st.world.find S.responder (S.terms r.1).sessionId = some s) :
    (∃ r' ∈ st.recorded, r'.1.side = (.responder, r.1.answer)) ∧
      S.net.Mirrored r.1.device (.start (S.terms r.1) r.2) S.responder s := by
  obtain ⟨s₀, hs₀, hterms⟩ := hsound.terms _ _ _ hs
  rw [hhosted.recorded] at hs₀
  obtain ⟨r', hr', heq⟩ := List.mem_map.mp hs₀
  obtain ⟨hdevice', rfl⟩ := Prod.mk.inj heq
  have hrole' := (h.device_eq_responder_iff hanswered hr').mp hdevice'
  have hid : (S.terms r'.1).sessionId = (S.terms r.1).sessionId :=
    hterms.sessionId.symm.trans (Network.find_sessionId hs)
  refine ⟨⟨r', hr', Prod.ext hrole' (h.answer_eq hanswered hfree hr' hr hid)⟩, ?_⟩
  rw [← hdevice']
  exact (h.mirrored_of_sessionId hanswered hfree hr hr' hrole hrole' hid).of_sameTerms hterms

theorem Traced.isSome_find_of_drained [DecidableEq δ] (h : S.Traced st) (hanswered : S.Answered st)
    (hhosted : S.Hosted st) (hcommutes : S.keyExchange.Commutes) (hr : r ∈ st.recorded)
    (hrole : r.1.role = .initiator)
    (hdrained : ∃ r' ∈ st.recorded, r'.1.side = (.responder, r.1.answer)) :
    (st.world.find S.responder (S.terms r.1).sessionId).isSome := by
  obtain ⟨r', hr', hside⟩ := hdrained
  obtain ⟨hrole', hanswer⟩ := Prod.mk.inj hside
  obtain ⟨attempt, secret, hstems⟩ := h.recorded r hr
  obtain ⟨attempt', secret', hstems'⟩ := h.recorded r' hr'
  rw [← hstems.sessionId_eq hcommutes hstems' hrole hrole' hanswer]
  refine hhosted.found S.responder (.start (S.terms r'.1) r'.2) ?_
  rw [hhosted.recorded, ← (h.device_eq_responder_iff hanswered hr').mpr hrole']
  exact List.mem_map_of_mem hr'

theorem Traced.opens_iff_ready [DecidableEq δ] (h : S.Traced st) (hanswered : S.Answered st)
    (hhosted : S.Hosted st) (hlawful : S.net.Lawful) (hcommutes : S.keyExchange.Commutes)
    (hfree : S.CollisionFree st) {e : Sent δ π} (he : e ∈ st.world.sent)
    (hother : e.device ≠ S.responder) {frame : Bytes} (hframe : e.frame? = some frame)
    (clock : ChannelClock) :
    Delivery.Opens ⟨st, e, frame, clock⟩ S ↔ Delivery.Ready ⟨st, e, frame, clock⟩ S := by
  have hsound := hhosted.run.sound hlawful (hhosted.apart h hanswered hfree)
  obtain ⟨r, hr, header, hdevice, hgenuine⟩ := hhosted.exists_source hsound he
  have hrole := h.role_eq_initiator hanswered hr (hdevice ▸ hother)
  have hid : (S.terms r.1).sessionId = e.sessionId := hgenuine.sessionId
  have hencoded := (hgenuine.frame _).mp hframe
  cases hstore : (st.world.endpoints S.responder).store.getBySessionId (S.terms r.1).sessionId with
  | none =>
      refine ⟨fun hopens ↦ ?_, fun hready ↦ ?_⟩
      · rw [Delivery.Opens, Network.open_sealed_unknown hgenuine.call hencoded hstore] at hopens
        exact hopens.elim
      · -- what is recorded and not in the store has been dropped
        have hfound := h.isSome_find_of_drained hanswered hhosted hcommutes hr hrole
          (hready.drained r hr hdevice hid)
        rw [World.find, Endpoint.find, hstore, Option.none_or, hid] at hfound
        exact absurd ⟨hid ▸ hstore, hfound⟩ hready.kept
  | some s =>
      have hfind : st.world.find S.responder (S.terms r.1).sessionId = some s :=
        Endpoint.find_of_store hstore
      obtain ⟨hdrained, hmirrored⟩ :=
        h.mirrored_of_find hanswered hhosted hfree hsound hr hrole hfind
      rw [hdevice] at hmirrored
      rw [Delivery.Opens, Network.completed_open_sealed_iff hlawful hgenuine.call hencoded hmirrored
        hstore]
      constructor
      · rintro ⟨haccept, hskew⟩
        refine ⟨fun r₁ hr₁ hdevice₁ hid₁ ↦ ?_, fun hdropped ↦ ?_, fun s₁ hs₁ ↦ ?_, hskew⟩
        · rwa [h.eq_of_sessionId hanswered hfree hr₁ hr (hdevice₁.trans hdevice.symm)
            (hid₁.trans hid.symm)]
        · rw [hid, hdropped.1] at hstore
          cases hstore
        · rw [← hid, hfind] at hs₁
          rwa [← Option.some.inj hs₁]
      · exact fun hready ↦ ⟨hready.window s (hid ▸ hfind), hready.skew⟩

theorem Traced.unforged_deliver [DecidableEq δ] (h : S.Traced st) (hanswered : S.Answered st)
    (hhosted : S.Hosted st) (hfree : S.CollisionFree st) (hsound : st.world.Sound S.net)
    {e : Sent δ π} (he : e ∈ st.world.sent) (hother : e.device ≠ S.responder) {frame : Bytes}
    (hframe : e.frame? = some frame) (clock : ChannelClock) :
    S.net.Unforged st.world (.deliver S.responder frame clock) := by
  refine hsound.unforged_deliver he hframe clock fun s s' hs hs' hid hid' ↦ ?_
  rw [hhosted.recorded] at hs hs'
  obtain ⟨r', hr', heq'⟩ := List.mem_map.mp hs
  obtain ⟨r, hr, heq⟩ := List.mem_map.mp hs'
  obtain ⟨hdevice', rfl⟩ := Prod.mk.inj heq'
  obtain ⟨hdevice, rfl⟩ := Prod.mk.inj heq
  have hrole' := (h.device_eq_responder_iff hanswered hr').mp hdevice'
  have hrole := h.role_eq_initiator hanswered hr (hdevice ▸ hother)
  rw [← hdevice', ← hdevice]
  exact (h.mirrored_of_sessionId hanswered hfree hr hr' hrole hrole' (hid.trans hid'.symm)).symm

/-- What is delivered in a run is delivered in a state that the run has reached. -/
theorem DeliveryRun.reaches [DecidableEq δ] {log : List (Delivery δ π)} (hlawful : S.net.Lawful)
    (hrun : S.DeliveryRun st log) (hfree : S.CollisionFree st) :
    S.Run st ∧ ∀ x ∈ log, S.Run x.before ∧ S.CollisionFree x.before ∧
      x.entry ∈ x.before.world.sent ∧ x.entry.device ≠ S.responder ∧
        x.entry.frame? = some x.frame := by
  induction hrun with
  | start => exact ⟨.start, fun x hx ↦ nomatch hx⟩
  | step h hstep ih =>
      obtain ⟨hreached, hlog⟩ := ih (hfree.of_prefix hstep.recorded_prefix)
      exact ⟨.step hreached hstep, hlog⟩
  | @deliver st log h entry frame clock hsent hframe hother ih =>
      have hbefore : S.CollisionFree st := hfree
      obtain ⟨hreached, hlog⟩ := ih hbefore
      obtain ⟨hanswered, htraced, hhosted⟩ := hreached.invariants
      have hsound := hhosted.run.sound hlawful (hhosted.apart htraced hanswered hbefore)
      refine ⟨.step hreached (.traffic st _ trivial
        (htraced.unforged_deliver hanswered hhosted hbefore hsound hsent hother hframe clock)),
        fun x hx ↦ ?_⟩
      rcases List.mem_append.mp hx with hx | hx
      · exact hlog x hx
      · rw [List.mem_singleton.mp hx]
        exact ⟨hreached, hbefore, hsent, hother, hframe⟩

end Setting

/-- In every run, all frames of the initiators that reach the responder are
opened if and only if each of them comes after the session has been recorded. -/
theorem all_open_iff_all_ready [DecidableEq δ] {log : List (Delivery δ π)}
    (hlawful : S.net.Lawful) (hcommutes : S.keyExchange.Commutes) (hrun : S.DeliveryRun st log)
    (hfree : S.CollisionFree st) : (∀ x ∈ log, x.Opens S) ↔ ∀ x ∈ log, x.Ready S := by
  obtain ⟨-, hlog⟩ := hrun.reaches hlawful hfree
  refine forall₂_congr fun x hx ↦ ?_
  obtain ⟨hreached, hbefore, hsent, hother, hframe⟩ := hlog x hx
  obtain ⟨hanswered, htraced, hhosted⟩ := hreached.invariants
  exact htraced.opens_iff_ready hanswered hhosted hlawful hcommutes hbefore hsent hother hframe
    x.clock

theorem Setting.Run.deliveryRun [DecidableEq δ] (hrun : S.Run st) : S.DeliveryRun st [] := by
  induction hrun with
  | start => exact .start
  | step _ hstep ih => exact .step ih hstep

/-- Alice sends a frame as soon as she has recorded the session. -/
def sendPair (st : Handshaking Bool (Fin 128)) : Handshaking Bool (Fin 128) := { st with
  world := pairNetwork.step st.world (.seal false (pairSetting.terms pairInitiated).sessionId
    .heartbeat pairPayload ⟨1, 1⟩) }

def sentFrame (st : Handshaking Bool (Fin 128)) : Bytes :=
  (st.world.sent.head?.bind Sent.frame?).getD []

theorem deliveryRun_sendPair {st : Handshaking Bool (Fin 128)} (hrun : pairSetting.Run st)
    (hsent : (sendPair st).world.sent.map (fun e ↦
      (e.device, e.frame?, e.counter, e.clock.milliseconds, e.sessionId)) =
        [(false, some (sentFrame (sendPair st)), 1, 1,
          (pairSetting.terms pairInitiated).sessionId)]) :
    ∃ e st', pairSetting.DeliveryRun st' [⟨sendPair st, e, sentFrame (sendPair st), ⟨1, 1⟩⟩] ∧
      st'.recorded = st.recorded ∧ e.counter = 1 ∧ e.clock.milliseconds = 1 ∧
        e.sessionId = (pairSetting.terms pairInitiated).sessionId := by
  obtain ⟨e, he, hfields⟩ := List.mem_map.mp (hsent ▸ List.mem_singleton_self _)
  simp only [Prod.mk.injEq] at hfields
  obtain ⟨hdevice, hframe, hcounter, hclock, hid⟩ := hfields
  have hother : e.device ≠ pairSetting.responder := by
    rw [hdevice]
    decide
  have hsealed : pairSetting.DeliveryRun (sendPair st) [] :=
    .step hrun.deliveryRun
      (.traffic st (.seal false _ .heartbeat pairPayload ⟨1, 1⟩) trivial trivial)
  exact ⟨e, _, .deliver hsealed e _ ⟨1, 1⟩ he hframe hother, rfl, hcounter, hclock, hid⟩

theorem all_open_pairEstablished : ∃ st log, pairSetting.DeliveryRun st log ∧ log ≠ [] ∧
    ∀ x ∈ log, x.Opens pairSetting := by
  obtain ⟨e, st, hrun, hrecorded, hcounter, hclock, hid⟩ :=
    deliveryRun_sendPair pairEstablished_run (by decide +kernel)
  have hcommutes : pairSetting.keyExchange.Commutes := fun a b ↦
    congrArg some (List.zipWith_comm_of_comm UInt8.add_comm)
  have hfree : pairSetting.CollisionFree st := by
    rw [Setting.CollisionFree, hrecorded]
    decide +kernel
  refine ⟨st, _, hrun, List.cons_ne_nil _ _,
    (all_open_iff_all_ready pairNetwork_lawful hcommutes hrun hfree).mpr fun x hx ↦ ?_⟩
  rw [List.mem_singleton.mp hx]
  have hsources :
      (sendPair pairEstablished).recorded = [(pairSource true, 0), (pairInitiated, 0)] := by
    decide +kernel
  refine ⟨fun r hr _ _ ↦ ⟨(pairSource true, 0), ?_, ?_⟩, fun hdropped ↦ ?_, fun s hs ↦ ?_, ?_⟩
  · rw [hsources]
    exact List.mem_cons_self
  · rw [hsources, List.mem_pair] at hr
    rcases hr with rfl | rfl <;> rfl
  · have hheld : ((sendPair pairEstablished).world.endpoints true).store.getBySessionId
        (pairSetting.terms pairInitiated).sessionId ≠ none := by decide +kernel
    rw [← hid] at hheld
    exact hheld hdropped.1
  · have hwindow : ((sendPair pairEstablished).world.find true
        (pairSetting.terms pairInitiated).sessionId).all (·.receiveWindow.wouldAccept (1 : ℕ)) =
          true := by decide +kernel
    rw [← hid, ← hcounter] at hwindow
    exact (Option.all_eq_true _ _).mp hwindow s hs
  · change |((1 : ℕ) : ℤ) - e.clock.milliseconds| ≤ pairNetwork.timestampSkewMs
    rw [hclock]
    decide

/-- Bob has answered, but his drain loop has yet to run. -/
theorem early_frame_lost : ∃ st x, pairSetting.DeliveryRun st [x] ∧ pairSetting.CollisionFree st ∧
    x.before.recorded = [(pairInitiated, 0)] ∧ ¬ x.Opens pairSetting := by
  have hrun : pairSetting.Run (completePair pairPublished) :=
    .step pairPublished_run (.complete _ pairAttempt (pairAnswer true) (pairSecret true) _ 0
      (by decide) rfl rfl (by decide) rfl rfl)
  obtain ⟨e, st, hrun, hrecorded, -⟩ := deliveryRun_sendPair hrun (by decide +kernel)
  have hsources : (sendPair (completePair pairPublished)).recorded = [(pairInitiated, 0)] := by
    decide +kernel
  have hlost : ¬ Completed ((pairNetwork.channel true).open
      (sentFrame (sendPair (completePair pairPublished))) ⟨1, 1⟩
        ((sendPair (completePair pairPublished)).world.endpoints true).store) := by decide +kernel
  refine ⟨st, _, hrun, ?_, hsources, hlost⟩
  rw [Setting.CollisionFree, hrecorded]
  decide +kernel

end SecureSync
