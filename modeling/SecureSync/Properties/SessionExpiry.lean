import SecureSync.Channel.Timing
import SecureSync.Properties.ChannelAuthenticity

/-!
# Sessions past their limits

Only the recording of another session sweeps the store.  Looking a session up,
choosing one to send under and opening a frame leave it to the schedule whether
what they reach has expired.
-/

namespace SecureSync

open Raising SecureChannel

variable {δ π : Type}

/-- The ways in which a session is reached. -/
inductive Access where
  | lookUp (sessionId : Bytes)
  | select (peerId : DeviceId)
  | deliver (frame : Bytes) (clock : ChannelClock)

/-- The sessions that an access returns or accepts a frame under. -/
def Access.Reaches (net : Network δ π) (w : World δ π) (d : δ) (now : ℚ) (s : PeerSession) :
    Access → Prop
  | .lookUp sessionId => (w.endpoints d).store.getBySessionId sessionId = some s
  | .select peerId => (w.endpoints d).store.getSendSession peerId now = some s
  | .deliver frame clock => clock.seconds = now ∧ ∃ packet s' store,
      (net.channel d).open frame clock (w.endpoints d).store = .ok (packet, s') store ∧
        (w.endpoints d).store.getBySessionId s'.sessionId = some s

namespace SessionStore

theorem Shrinks.getBySessionId_eq_none {store store' : SessionStore} {sessionId : Bytes}
    (h : store.Shrinks store') (hnone : store.getBySessionId sessionId = none) :
    store'.getBySessionId sessionId = none := by
  rcases h.getBySessionId_cases sessionId with h | h
  · exact h
  · exact h.trans hnone

/-- Changing a recorded session records no other. -/
theorem getBySessionId_update_eq_none {store : SessionStore} {s s' : PeerSession}
    {sessionId : Bytes} (hs : store.getBySessionId s'.sessionId = some s)
    (hnone : store.getBySessionId sessionId = none) :
    (store.update s').getBySessionId sessionId = none := by
  refine (getBySessionId_update_of_ne ?_).trans hnone
  rintro rfl
  rw [hs] at hnone
  cases hnone

theorem getBySessionId_record_of_ne {store : SessionStore} {s : PeerSession} {sessionId : Bytes}
    (h : sessionId ≠ s.sessionId) :
    (store.record s).getBySessionId sessionId = store.getBySessionId sessionId :=
  KeyedTable.Table.find?_set_of_ne h

/-- A `put` that passes its checks makes room, whether or not it then records. -/
theorem put_of_checks {store : SessionStore} {s : PeerSession} {now : ℚ}
    (hlength : s.sessionId.length = sessionIdSize)
    (hnew : store.getBySessionId s.sessionId = none) :
    (∃ e, put s now store = .error e (store.makeRoom s.peerId now)) ∨
      put s now store = .ok ⟨⟩ ((store.makeRoom s.peerId now).record s) := by
  unfold put
  rw [if_neg (not_not.mpr hlength), if_neg (by rw [hnew]; simp)]
  dsimp only
  split_ifs with hcap
  · exact .inl ⟨_, rfl⟩
  · exact .inr rfl

end SessionStore

namespace World

/-- The idle timeout for the confirmation state that the session is in. -/
def idleTimeout (w : World δ π) (d : δ) (sessionId : Bytes) : ℚ :=
  if (w.find d sessionId).any PeerSession.confirmed then
    (w.endpoints d).store.policy.idleTimeoutConfirmedS
  else (w.endpoints d).store.policy.idleTimeoutUnconfirmedS

/-- The session was recorded, but longer ago than the key lifetime, or it was last
recorded, sealed under or opened for longer ago than the timeout. -/
def Overdue (w : World δ π) (d : δ) (sessionId : Bytes) (now : ℚ) : Prop :=
  (∃ t, w.CreatedAt d sessionId t) ∧
    ((∀ t, w.CreatedAt d sessionId t → (w.endpoints d).store.policy.maxKeyLifetimeS < now - t) ∨
      ∀ t, w.UsedAt d sessionId t → w.idleTimeout d sessionId < now - t)

/-- The act takes the session from the device: another one is recorded when it is
overdue or must give way to the caps, or it is removed by name. -/
inductive Clears (w : World δ π) (d : δ) (sessionId : Bytes) : Act δ π → Prop
  | swept (terms : SessionTerms) (now : ℚ) (hlength : terms.sessionId.length = sessionIdSize)
      (hnew : (w.endpoints d).store.getBySessionId terms.sessionId = none)
      (hne : terms.sessionId ≠ sessionId) (h : w.Overdue d sessionId now) :
      Clears w d sessionId (.put d terms now)
  | evicted (terms : SessionTerms) (now : ℚ) (hlength : terms.sessionId.length = sessionIdSize)
      (hnew : (w.endpoints d).store.getBySessionId terms.sessionId = none)
      (hne : terms.sessionId ≠ sessionId)
      (h : ∀ s ∈ ((w.endpoints d).store.makeRoom terms.peerId now).sessions,
        s.sessionId ≠ sessionId) :
      Clears w d sessionId (.put d terms now)
  | forgotten (sessionIds : List Bytes) (h : sessionId ∈ sessionIds) :
      Clears w d sessionId (.forget d sessionIds)

/-- At some point of the run the session was taken from the device, and none has
been recorded under its id since. -/
def Cleared [DecidableEq δ] (net : Network δ π) (w : World δ π) (d : δ) (sessionId : Bytes) :
    Prop :=
  ∃ w₁ before act now later, net.TimedRun w₁ before ∧ before ≤ now ∧ act.At now ∧
    w₁.Clears d sessionId act ∧ net.TimedSteps (net.step w₁ act) now w later ∧
      ∀ s, (d, s) ∈ w.recorded.drop (net.step w₁ act).recorded.length → s.sessionId ≠ sessionId

/-- The access comes before the session that it names is overdue, or after it was
taken away; or some session that could be chosen was used within the timeout. -/
def Timely [DecidableEq δ] (net : Network δ π) (w : World δ π) (d : δ) (now : ℚ) :
    Access → Prop
  | .lookUp sessionId => ¬ w.Overdue d sessionId now ∨ w.Cleared net d sessionId
  | .select peerId => ∀ s ∈ (w.endpoints d).store.sessionsForPeer peerId,
      s.canSend now (w.endpoints d).store.policy.maxKeyLifetimeS = true →
        ∃ s' ∈ (w.endpoints d).store.sessionsForPeer peerId,
          s'.canSend now (w.endpoints d).store.policy.maxKeyLifetimeS = true ∧
            ∃ t, w.UsedAt d s'.sessionId t ∧
              now - t ≤ (w.endpoints d).store.policy.idleTimeoutConfirmedS
  | .deliver frame _ => ∀ header encrypted, splitFrame frame = .ok (header, encrypted) →
      ¬ w.Overdue d header.sessionId now ∨ w.Cleared net d header.sessionId

variable {net : Network δ π} {w w₀ : World δ π} {d : δ} {s : PeerSession} {sessionId : Bytes}
  {now before : ℚ}

/-! ## Histories -/

theorem forall_lt_iff {p : ℚ → Prop} {t limit : ℚ} (h : IsGreatest {u | p u} t) :
    (∀ u, p u → limit < now - u) ↔ limit < now - t :=
  ⟨fun hall ↦ hall t h.1, fun hlt _ hu ↦ hlt.trans_le (sub_le_sub_left (h.2 hu) now)⟩

theorem idleTimeout_of_find (hs : w.find d sessionId = some s) : w.idleTimeout d sessionId =
    if s.confirmed then (w.endpoints d).store.policy.idleTimeoutConfirmedS
    else (w.endpoints d).store.policy.idleTimeoutUnconfirmedS := by
  rw [idleTimeout, hs, Option.any_some]

/-- A recorded session has expired if and only if it is overdue. -/
theorem Clocked.isExpired_iff (h : w.Clocked before)
    (hs : (w.endpoints d).store.getBySessionId s.sessionId = some s) :
    (w.endpoints d).store.isExpired s now = true ↔ w.Overdue d s.sessionId now := by
  have hfind : w.find d s.sessionId = some s := Endpoint.find_of_store hs
  have hcreated := h.created _ _ _ hfind
  rw [Overdue, forall_lt_iff hcreated, forall_lt_iff (h.used _ _ _ hfind),
    idleTimeout_of_find hfind, and_iff_right ⟨_, hcreated.1⟩, ← Bool.not_eq_false,
    SessionStore.isExpired_eq_false_iff, not_and_or, not_le, not_le]

/-- The session chosen to send under is the one used last of those in their lifetime. -/
theorem Clocked.select_iff [DecidableEq δ] (h : w.Clocked before) {peerId : DeviceId} :
    (∀ s, (w.endpoints d).store.getSendSession peerId now = some s →
        (w.endpoints d).store.isExpired s now = false) ↔ w.Timely net d now (.select peerId) := by
  have hused {s : PeerSession} {limit : ℚ}
      (hs : s ∈ (w.endpoints d).store.sessionsForPeer peerId) :
      (∃ t, w.UsedAt d s.sessionId t ∧ now - t ≤ limit) ↔ now - s.lastActivity ≤ limit := by
    have hgreatest := h.used _ _ _ (Endpoint.find_of_store (SessionStore.mem_sessionsForPeer hs))
    constructor
    · rintro ⟨t, ht, hle⟩
      exact (sub_le_sub_left (hgreatest.2 ht) now).trans hle
    · exact fun hle ↦ ⟨_, hgreatest.1, hle⟩
  constructor
  · intro hfresh s hs hcan
    cases hselect : (w.endpoints d).store.getSendSession peerId now with
    | none =>
        rw [SessionStore.getSendSession_eq_none_iff.mp hselect s hs] at hcan
        cases hcan
    | some s' =>
        obtain ⟨hs', hcan', -⟩ := SessionStore.getSendSession_eq_some hselect
        have hidle := (SessionStore.isExpired_eq_false_iff.mp (hfresh s' hselect)).2
        rw [if_pos (PeerSession.canSend_iff.mp hcan').1] at hidle
        exact ⟨s', hs', hcan', (hused hs').mpr hidle⟩
  · intro htimely s hselect
    obtain ⟨hs, hcan, hlatest⟩ := SessionStore.getSendSession_eq_some hselect
    obtain ⟨s', hs', hcan', hrecent⟩ := htimely s hs hcan
    have hidle' := (hused hs').mp hrecent
    obtain ⟨hconfirmed, hyoung, -⟩ := PeerSession.canSend_iff.mp hcan
    rw [SessionStore.isExpired_eq_false_iff, if_pos hconfirmed]
    exact ⟨hyoung, (sub_le_sub_left (hlatest s' hs' hcan') now).trans hidle'⟩

/-! ## What has been taken away stays away -/

def Absent (w : World δ π) (d : δ) (sessionId : Bytes) : Prop :=
  (w.endpoints d).store.getBySessionId sessionId = none

variable [DecidableEq δ]

theorem Absent.setEndpoint (h : w.Absent d sessionId) {d' : δ} {e : Endpoint}
    (he : d = d' → e.store.getBySessionId sessionId = none) :
    (w.setEndpoint d' e).Absent d sessionId := by
  rw [Absent]
  by_cases hd : d = d'
  · rw [hd, endpoints_setEndpoint_self]
    exact he hd
  · rw [endpoints_setEndpoint_of_ne w e hd]
    exact h

theorem Absent.step (h : w.Absent d sessionId) (act : Act δ π) :
    (net.step w act).Absent d sessionId ∨
      ∃ s, (d, s) ∈ (net.step w act).recorded.drop w.recorded.length ∧
        s.sessionId = sessionId := by
  cases act with
  | «seal» d' id packetType payload clock =>
      refine .inl ?_
      simp only [Network.step]
      cases w.find d' id with
      | none => exact h
      | some s =>
          refine h.setEndpoint fun hd ↦ ?_
          subst hd
          rw [Endpoint.write]
          cases hfind : (w.endpoints d).store.getBySessionId _ with
          | none => exact h
          | some s₀ => exact SessionStore.getBySessionId_update_eq_none hfind h
  | deliver d' frame clock =>
      refine .inl ?_
      simp only [Network.step]
      cases hopen : (net.channel d').open frame clock (w.endpoints d').store with
      | error e store =>
          refine h.setEndpoint fun hd ↦ ?_
          subst hd
          rw [open_error hopen]
          exact h
      | ok result store =>
          obtain ⟨packet, session⟩ := result
          obtain ⟨s, counter, hauth, rfl, rfl⟩ := open_eq_ok.mp hopen
          obtain ⟨header, encrypted, aad, framed, hauthentic⟩ := authenticate_eq_ok.mp hauth
          refine h.setEndpoint fun hd ↦ ?_
          subst hd
          refine SessionStore.getBySessionId_update_eq_none (s := s) ?_ h
          rw [(SecureChannel.sameTerms_received s counter clock).sessionId,
            (SessionStore.getBySessionId_eq_some.mp hauthentic.session_eq).2,
            hauthentic.session_eq]
  | put d' terms now =>
      simp only [Network.step]
      cases hput : SessionStore.put (.start terms now) now (w.endpoints d').store with
      | error e store =>
          refine .inl (h.setEndpoint fun hd ↦ ?_)
          subst hd
          exact (SessionStore.shrinks_put_error hput).getBySessionId_eq_none h
      | ok _ store =>
          obtain ⟨-, -, -, rfl⟩ := SessionStore.put_eq_ok.mp hput
          by_cases hsame : d = d' ∧ sessionId = terms.sessionId
          · obtain ⟨rfl, rfl⟩ := hsame
            refine .inr ⟨.start terms now, ?_, rfl⟩
            rw [List.drop_left]
            exact List.mem_singleton_self _
          · refine .inl (h.setEndpoint fun hd ↦ ?_)
            subst hd
            rw [Endpoint.moveTo,
              SessionStore.getBySessionId_record_of_ne fun hid ↦ hsame ⟨rfl, hid⟩]
            exact SessionStore.shrinks_makeRoom.getBySessionId_eq_none h
  | confirm d' id =>
      refine .inl (h.setEndpoint fun hd ↦ ?_)
      subst hd
      simp only [SessionStore.confirm]
      cases hfind : (w.endpoints d).store.getBySessionId id with
      | none => exact h
      | some s =>
          obtain ⟨-, rfl⟩ := SessionStore.getBySessionId_eq_some.mp hfind
          exact SessionStore.getBySessionId_update_eq_none (s := s) hfind h
  | forget d' ids =>
      refine .inl (h.setEndpoint fun hd ↦ ?_)
      subst hd
      exact (SessionStore.shrinks_foldl_remove ids).getBySessionId_eq_none h

/-- Recording a session leaves nothing of one that has expired or gives way. -/
theorem absent_put {terms : SessionTerms}
    (hlength : terms.sessionId.length = sessionIdSize)
    (hnew : (w.endpoints d).store.getBySessionId terms.sessionId = none)
    (hne : terms.sessionId ≠ sessionId)
    (h : ∀ s ∈ ((w.endpoints d).store.makeRoom terms.peerId now).sessions,
      s.sessionId ≠ sessionId) :
    (net.step w (.put d terms now)).Absent d sessionId := by
  have hroom := SessionStore.getBySessionId_eq_none.mpr h
  have hput : (∃ e, SessionStore.put (.start terms now) now (w.endpoints d).store =
      .error e ((w.endpoints d).store.makeRoom terms.peerId now)) ∨ _ :=
    SessionStore.put_of_checks hlength hnew
  simp only [Network.step, Absent]
  rcases hput with ⟨e, hput⟩ | hput
  · simp only [hput, endpoints_setEndpoint_self]
    exact hroom
  · simp only [hput, endpoints_setEndpoint_self]
    rw [Endpoint.moveTo, SessionStore.getBySessionId_record_of_ne (Ne.symm hne)]
    exact hroom

theorem Clears.absent {act : Act δ π} (hclocked : w.Clocked before)
    (h : w.Clears d sessionId act) : (net.step w act).Absent d sessionId := by
  cases h with
  | swept terms now hlength hnew hne hoverdue =>
      refine absent_put hlength hnew hne fun s hs hid ↦ ?_
      subst hid
      have hstored := SessionStore.getBySessionId_eq_some.mpr
        ⟨SessionStore.shrinks_makeRoom.1.subset hs, rfl⟩
      have hexpired := (hclocked.isExpired_iff hstored).mpr hoverdue
      rw [SessionStore.isExpired_of_mem_makeRoom hs] at hexpired
      cases hexpired
  | evicted terms now hlength hnew hne hevicted => exact absent_put hlength hnew hne hevicted
  | forgotten ids hmem =>
      rw [Network.step, Absent, endpoints_setEndpoint_self]
      refine SessionStore.getBySessionId_eq_none.mpr fun s hs hid ↦ ?_
      rw [Endpoint.moveTo, SessionStore.sessions_foldl_remove, List.mem_filter] at hs
      rw [hid] at hs
      simpa [hmem] using hs.2

theorem Cleared.absent (h : w.Cleared net d sessionId) : w.Absent d sessionId := by
  obtain ⟨w₁, before, act, now, later, hrun, -, -, hclears, hsteps, hnot⟩ := h
  have hkept := hsteps.induction (P := fun w _ ↦
    (net.step w₁ act).recorded <+: w.recorded ∧ (w.Absent d sessionId ∨
      ∃ s, (d, s) ∈ w.recorded.drop (net.step w₁ act).recorded.length ∧ s.sessionId = sessionId))
    ⟨List.prefix_rfl, .inl (hclears.absent hrun.clocked)⟩ ?_
  · rcases hkept.2 with habsent | ⟨s, hs, hid⟩
    · exact habsent
    · exact absurd hid (hnot s hs)
  · rintro w before now act - - ⟨hgrown, hw⟩
    have hstep : w.recorded <+: (net.step w act).recorded := recorded_step act
    refine ⟨hgrown.trans hstep, ?_⟩
    rcases hw with habsent | ⟨s, hs, hid⟩
    · rcases habsent.step act with habsent | ⟨s, hs, hid⟩
      · exact .inl habsent
      · refine .inr ⟨s, ?_, hid⟩
        exact (List.drop_sublist_drop_left _ hgrown.length_le).subset hs
    · exact .inr ⟨s, (hstep.drop _).subset hs, hid⟩

/-- A recorded session that is named in time has not expired. -/
theorem isExpired_of_named (h : w.Clocked before)
    (hs : (w.endpoints d).store.getBySessionId sessionId = some s)
    (htimely : ¬ w.Overdue d sessionId now ∨ w.Cleared net d sessionId) :
    (w.endpoints d).store.isExpired s now = false := by
  obtain rfl := (SessionStore.getBySessionId_eq_some.mp hs).2
  rcases htimely with hyoung | hcleared
  · rw [← h.isExpired_iff hs, Bool.not_eq_true] at hyoung
    exact hyoung
  · rw [hcleared.absent] at hs
    cases hs

end World

/-- In every run, an access that comes in time reaches no expired session. -/
theorem unexpired_of_timely [DecidableEq δ] {net : Network δ π} {w : World δ π} {before : ℚ}
    (hrun : net.TimedRun w before) (d : δ) (now : ℚ) (access : Access)
    (htimely : w.Timely net d now access) (s : PeerSession) (hs : access.Reaches net w d now s) :
    (w.endpoints d).store.isExpired s now = false := by
  cases access with
  | lookUp sessionId => exact World.isExpired_of_named hrun.clocked hs htimely
  | select peerId => exact hrun.clocked.select_iff.mpr htimely s hs
  | deliver frame clock =>
      obtain ⟨-, packet, s', store, hopen, hs⟩ := hs
      obtain ⟨s₀, counter, hauth, rfl, -⟩ := open_eq_ok.mp hopen
      obtain ⟨header, encrypted, aad, framed, hauthentic⟩ := authenticate_eq_ok.mp hauth
      rw [(SecureChannel.sameTerms_received s₀ counter clock).sessionId,
        (SessionStore.getBySessionId_eq_some.mp hauthentic.session_eq).2] at hs
      exact World.isExpired_of_named hrun.clocked hs
        (htimely header encrypted hauthentic.split_eq)

/-- A day after the sessions were recorded, Alice seals under the object she holds. -/
def pairLate : World Bool (Fin 128) :=
  pairNetwork.step pairStart (.seal false (pairTerms false).sessionId .heartbeat pairPayload
    ⟨86401, 86401000⟩)

def lateFrame : Bytes := ((pairLate.sent.head?.bind Sent.frame?)).getD []

/-- A frame that opens under Bob's session reaches it. -/
theorem reaches_of_deliver {w : World Bool (Fin 128)} {frame : Bytes} {clock : ChannelClock}
    {s : PeerSession}
    (hfound : (w.endpoints true).store.getBySessionId (pairTerms true).sessionId = some s)
    (hopen : (value? ((pairNetwork.channel true).open frame clock (w.endpoints true).store)).map
      (fun r ↦ r.2.sessionId) = some (pairTerms true).sessionId) :
    (Access.deliver frame clock).Reaches pairNetwork w true clock.seconds s := by
  obtain ⟨⟨packet, s'⟩, hvalue, hid⟩ := Option.map_eq_some_iff.mp hopen
  cases hrun : (pairNetwork.channel true).open frame clock (w.endpoints true).store with
  | error e store =>
      rw [hrun] at hvalue
      cases hvalue
  | ok result store =>
      rw [hrun] at hvalue
      cases hvalue
      exact ⟨rfl, packet, s', store, hrun, hid ▸ hfound⟩

theorem pairSealed_timed : pairNetwork.TimedRun pairSealed 0 :=
  .step _ pairStart_timed le_rfl rfl

theorem pairSealed_found :
    (pairSealed.endpoints true).store.getBySessionId (pairTerms true).sessionId =
      some (.start (pairTerms true) 0) := by decide +kernel

theorem deliver_pairSealed : ∃ s,
    (Access.deliver pairFrame ⟨30, 30000⟩).Reaches pairNetwork pairSealed true 30 s ∧
      (pairSealed.endpoints true).store.isExpired s 30 = false := by
  have hreaches : (Access.deliver pairFrame ⟨30, 30000⟩).Reaches pairNetwork pairSealed true 30
      (.start (pairTerms true) 0) := reaches_of_deliver pairSealed_found (by decide +kernel)
  have hrecorded : pairSealed.recorded = pairSessions := by decide +kernel
  have hcreated : pairSealed.CreatedAt true (pairTerms true).sessionId 0 := by
    refine ⟨.start (pairTerms true) 0, ?_, rfl, rfl⟩
    rw [hrecorded]
    exact mem_pairSessions.mpr rfl
  refine ⟨_, hreaches, unexpired_of_timely pairSealed_timed true 30 _ ?_ _ hreaches⟩
  intro header encrypted hsplit
  have hheader : (splitFrame pairFrame).map (fun r ↦ r.1.sessionId) =
      .ok (pairTerms true).sessionId := by decide +kernel
  rw [hsplit] at hheader
  obtain hid : header.sessionId = (pairTerms true).sessionId := Except.ok.inj hheader
  rw [hid]
  refine .inl ?_
  rintro ⟨-, hold | hidle⟩
  · exact absurd (hold 0 hcreated) (by decide +kernel)
  · exact absurd (hidle 0 (.recorded hcreated)) (by decide +kernel)

/-- Nothing has been recorded for a day, and the frame is accepted. -/
theorem open_accepts_expired : ∃ s, pairNetwork.TimedRun pairLate 86401 ∧
    (Access.deliver lateFrame ⟨86401, 86401000⟩).Reaches pairNetwork pairLate true 86401 s ∧
      (pairLate.endpoints true).store.isExpired s 86401 = true := by
  have hfound : (pairLate.endpoints true).store.getBySessionId (pairTerms true).sessionId =
      some (.start (pairTerms true) 0) := by decide +kernel
  exact ⟨_, .step _ pairStart_timed (by decide +kernel) rfl,
    reaches_of_deliver hfound (by decide +kernel), by decide +kernel⟩

end SecureSync
