import SecureSync.Channel.Delivery
import SecureSync.Handshake.Sources

/-!
# Hellos and frames that are sent again

The ephemeral key of each answer is fresh, so a hello that is sent again leads
to a session of its own, which no initiator shares and which stays unconfirmed.
-/

namespace SecureSync

open Raising Setting

variable {δ π : Type}

/-- The hello had been answered before. -/
def Handshaking.AnsweredAgain (st : Handshaking δ π) (ans : Answer) : Prop :=
  ∃ first, [first, ans].Sublist st.answers ∧ ans.attempt = first.attempt

/-- Two sessions with neither their id nor any key in common. -/
structure PeerSession.Unrelated (s s' : PeerSession) : Prop where
  sessionId : s.sessionId ≠ s'.sessionId
  keys : [s.sendKey, s.receiveKey].Disjoint [s'.sendKey, s'.receiveKey]

namespace Setting

variable {S : Setting δ π} {st : Handshaking δ π} {r r' : Source δ × ℚ}

/-- A directional key determines the session. -/
theorem Traced.sessionId_eq_of_key (h : S.Traced st) (hfree : S.CollisionFree st)
    (hr : r ∈ st.recorded) (hr' : r' ∈ st.recorded) {key : Bytes}
    (hkey : key ∈ [(S.terms r.1).sendKey, (S.terms r.1).receiveKey])
    (hkey' : key ∈ [(S.terms r'.1).sendKey, (S.terms r'.1).receiveKey]) :
    (S.terms r.1).sessionId = (S.terms r'.1).sessionId := by
  obtain ⟨attempt, secret, hstems⟩ := h.recorded r hr
  obtain ⟨attempt', secret', hstems'⟩ := h.recorded r' hr'
  have hm : r.1.material ∈ st.recorded.map fun r ↦ r.1.material := List.mem_map_of_mem hr
  have hm' : r'.1.material ∈ st.recorded.map fun r ↦ r.1.material := List.mem_map_of_mem hr'
  rw [sessionId_terms, sessionId_terms]
  rcases mem_keys_terms.mp hkey with hkey | hkey <;>
    rcases mem_keys_terms.mp hkey' with hkey' | hkey'
  · exact (hfree.of_i2r hm hm' hstems.fits hstems'.fits (hkey.symm.trans hkey')).2.2.1
  · exact absurd (hkey.symm.trans hkey') (hfree.i2r_ne_r2i hm hm')
  · exact absurd (hkey'.symm.trans hkey) (hfree.i2r_ne_r2i hm' hm)
  · exact (hfree.of_i2r hm hm' hstems.fits hstems'.fits
      (congrArg S.hkdf (hfree.of_r2i hm hm' (hkey.symm.trans hkey')))).2.2.1

theorem Traced.unrelated (h : S.Traced st) (hanswered : S.Answered st) (hfree : S.CollisionFree st)
    (hr : r ∈ st.recorded) (hr' : r' ∈ st.recorded) (hdevice : r.1.device = r'.1.device)
    (hne : r ≠ r') :
    (PeerSession.start (S.terms r.1) r.2).Unrelated (.start (S.terms r'.1) r'.2) where
  sessionId hid := hne (h.eq_of_sessionId hanswered hfree hr hr' hdevice hid)
  keys _ hkey hkey' := hne (h.eq_of_sessionId hanswered hfree hr hr' hdevice
    (h.sessionId_eq_of_key hfree hr hr' hkey hkey'))

theorem Answered.own_eq_false (h : S.Answered st) {ans : Answer} (hagain : st.AnsweredAgain ans) :
    ans.own = false := by
  obtain ⟨first, hsub, hsame⟩ := hagain
  exact List.pairwise_iff_forall_sublist.mp h.repeated hsub hsame

/-- A frame is accepted under the session of an answer only if its initiator has
completed the handshake. -/
theorem Traced.own_of_opened [DecidableEq δ] (h : S.Traced st) (hanswered : S.Answered st)
    (hhosted : S.Hosted st) (hfree : S.CollisionFree st) (hsound : st.world.Sound S.net)
    (hr : r ∈ st.recorded) (hrole : r.1.role = .responder) {o : Opened δ π}
    (ho : o ∈ st.world.opened) (hdevice : o.device = r.1.device)
    (hid : o.sessionId = (S.terms r.1).sessionId) : r.1.answer.own = true := by
  obtain ⟨e, he, s, s', hfrom⟩ := hsound.opened_from o ho
  have hs := hfrom.recorded
  have hs' := hfrom.recorded'
  rw [hhosted.recorded] at hs hs'
  obtain ⟨r₁, hr₁, heq₁⟩ := List.mem_map.mp hs
  obtain ⟨r₂, hr₂, heq₂⟩ := List.mem_map.mp hs'
  obtain ⟨hdevice₁, rfl⟩ := Prod.mk.inj heq₁
  obtain ⟨hdevice₂, rfl⟩ := Prod.mk.inj heq₂
  obtain rfl := h.eq_of_sessionId hanswered hfree hr₁ hr (hdevice₁.trans hdevice)
    (hfrom.sessionId.trans hid)
  have hanswer := h.answer_eq hanswered hfree hr₂ hr₁ hfrom.mirrored.sessionId
  have hflip : (S.terms r₂.1).role = (S.terms r₁.1).role.flip := hfrom.mirrored.role
  rw [role_terms, role_terms, hrole] at hflip
  obtain ⟨attempt, secret, hstems⟩ := h.recorded r₂ hr₂
  rw [← hanswer]
  exact (hstems.role_eq_initiator hflip).2.1

theorem Traced.unconfirmed_of_answeredAgain [DecidableEq δ] (h : S.Traced st)
    (hanswered : S.Answered st) (hhosted : S.Hosted st) (hfree : S.CollisionFree st)
    (hsound : st.world.Sound S.net) (hr : r ∈ st.recorded) (hdevice : r.1.device = S.responder)
    (hagain : st.AnsweredAgain r.1.answer) {s : PeerSession}
    (hs : st.world.find S.responder (S.terms r.1).sessionId = some s) : s.confirmed = false := by
  have hrole := (h.device_eq_responder_iff hanswered hr).mp hdevice
  rw [← Bool.not_eq_true]
  intro hconfirmed
  rcases hhosted.confirmed _ _ _ hs hconfirmed with ⟨s₀, hs₀, hid, hstart⟩ | ⟨o, ho, hd, hid⟩
  · rw [hhosted.recorded] at hs₀
    obtain ⟨r₁, hr₁, heq⟩ := List.mem_map.mp hs₀
    obtain ⟨hdevice₁, rfl⟩ := Prod.mk.inj heq
    obtain rfl := h.eq_of_sessionId hanswered hfree hr₁ hr (hdevice₁.trans hdevice.symm) hid
    have hinitiator : decide (r₁.1.role = .initiator) = true := hstart
    rw [hrole] at hinitiator
    cases hinitiator
  · have hown := h.own_of_opened hanswered hhosted hfree hsound hr hrole ho (hd.trans hdevice.symm)
      hid
    rw [hanswered.own_eq_false hagain] at hown
    cases hown

end Setting

/-- Whatever is sent again: the sessions that the responder records have nothing
in common, no frame is accepted twice, and what a repeated hello leads to is
never confirmed. -/
theorem replays_revive_nothing [DecidableEq δ] {S : Setting δ π} {st : Handshaking δ π}
    (hlawful : S.net.Lawful) (hrun : S.Run st) (hfree : S.CollisionFree st) :
    (st.world.recorded.filter fun p ↦ p.1 = S.responder).Pairwise
        (fun p q ↦ p.2.Unrelated q.2) ∧
      ((st.world.opened.filter fun o ↦ o.device = S.responder).map Opened.frame).Nodup ∧
        ∀ r ∈ st.recorded, r.1.device = S.responder → st.AnsweredAgain r.1.answer →
          ∀ s, st.world.find S.responder (S.terms r.1).sessionId = some s →
            s.confirmed = false := by
  obtain ⟨hanswered, htraced, hhosted⟩ := hrun.invariants
  have hapart := hhosted.apart htraced hanswered hfree
  have hsound := hhosted.run.sound hlawful hapart
  refine ⟨?_, ?_, fun r hr hdevice hagain s hs ↦
    htraced.unconfirmed_of_answeredAgain hanswered hhosted hfree hsound hr hdevice hagain hs⟩
  · refine ((hapart.ids.of_map _).filter _).pairwise_of_forall_ne fun p hp q hq hne ↦ ?_
    obtain ⟨hp, hd⟩ := List.mem_filter.mp hp
    obtain ⟨hq, hd'⟩ := List.mem_filter.mp hq
    rw [hhosted.recorded] at hp hq
    obtain ⟨r, hr, rfl⟩ := List.mem_map.mp hp
    obtain ⟨r', hr', rfl⟩ := List.mem_map.mp hq
    have hdevice : r.1.device = r'.1.device :=
      (of_decide_eq_true hd).trans (of_decide_eq_true hd').symm
    exact htraced.unrelated hanswered hfree hr hr' hdevice fun heq ↦ hne (by rw [heq])
  · refine List.Nodup.map_on (fun o ho o' ho' hframe ↦ ?_) ((hsound.opened_nodup.of_map _).filter _)
    obtain ⟨ho, hd⟩ := List.mem_filter.mp ho
    obtain ⟨ho', hd'⟩ := List.mem_filter.mp ho'
    exact hsound.eq_of_frame hlawful.cipher ho ho'
      ((of_decide_eq_true hd).trans (of_decide_eq_true hd').symm) hframe

/-! ### Alice's hello, sent again after her handshake -/

def pairReplayed : Handshaking Bool (Fin 128) :=
  drainPair (publishPair (answerPair pairEstablished false) false) false

theorem pairReplayed_run : pairSetting.Run pairReplayed := by
  have hanswered : pairSetting.Run (answerPair pairEstablished false) :=
    .step pairEstablished_run
      (.answer _ pairAttempt (pairAnswer false) _ _ rfl (by decide) (by decide) rfl)
  have hpublished : pairSetting.Run (publishPair (answerPair pairEstablished false) false) :=
    .step hanswered
      (.publish _ pairAttempt (pairAnswer false) (pairSecret false) (by decide) rfl rfl rfl)
  exact .step hpublished (.drain _ _ [] 0 (by decide +kernel) rfl)

/-- Bob now has a second session with Alice, which nobody can use. -/
theorem replays_revive_nothing_pairReplayed : ∃ session session',
    pairReplayed.world.recorded.filter (fun p ↦ p.1 = true) = [(true, session), (true, session')] ∧
      session.Unrelated session' ∧
        ∀ s, pairReplayed.world.find true session'.sessionId = some s → s.confirmed = false := by
  obtain ⟨hpairwise, -, hunconfirmed⟩ := replays_revive_nothing pairNetwork_lawful pairReplayed_run
    (by decide +kernel)
  have hrecorded : pairReplayed.recorded =
      [(pairSource true, 0), (pairInitiated, 0), (pairSource false, 0)] := by decide +kernel
  have hsessions : pairReplayed.world.recorded.filter (fun p ↦ p.1 = true) =
      [(true, .start (pairSetting.terms (pairSource true)) 0),
        (true, .start (pairSetting.terms (pairSource false)) 0)] := by
    rw [pairReplayed_run.invariants.2.2.recorded, hrecorded]
    rfl
  refine ⟨_, _, hsessions, ?_, fun s hs ↦ hunconfirmed (pairSource false, 0) ?_ rfl ?_ s hs⟩
  · rw [show pairSetting.responder = true from rfl, hsessions] at hpairwise
    exact List.rel_of_pairwise_cons hpairwise (List.mem_singleton_self _)
  · rw [hrecorded]
    simp
  · exact ⟨pairAnswer true, by decide +kernel, rfl⟩

end SecureSync
