import SecureSync.Properties.ChannelAuthenticity
import SecureSync.Channel.Lifecycle
import SecureSync.Channel.Timing
import SecureSync.Infrastructure.SessionCoordinator

/-!
# When a session has been ensured

`ensure_session` asks whether a session with the peer is confirmed, a sender
asks for one that it can send under, and a handshake answers with the device id
of whoever it reached.
-/

namespace SecureSync

variable {δ π : Type} [DecidableEq δ]

/-- The call `ensure_session(peer)` of a device is entered in the world `w₀` and
returns in the last one: at once, because a session is confirmed, or after a
handshake whose result it records in the world in which it arrives.  Meanwhile
the other tasks take any steps. -/
inductive EnsureCall (net : Network δ π) (d : δ) (peerId : DeviceId) (w₀ : World δ π)
    (entered : ℚ) : Option (World δ π × HandshakeResult) → World δ π → ℚ → Prop
  | confirmed (h : (w₀.endpoints d).store.hasConfirmedSession peerId = true) :
      EnsureCall net d peerId w₀ entered none w₀ entered
  | negotiated {w : World δ π} {before now : ℚ} {result : HandshakeResult} {store : SessionStore}
      (hnone : (w₀.endpoints d).store.hasConfirmedSession peerId = false)
      (hmeanwhile : net.TimedSteps w₀ entered w before) (hle : before ≤ now)
      (h : recordInitiated result now (w.endpoints d).store = .ok ⟨⟩ store) :
      EnsureCall net d peerId w₀ entered (some (w, result))
        (net.step w (.put d (result.terms true) now)) now

namespace World

/-- The session was recorded longer ago than the key lifetime, or its counters
have run out. -/
def Spent (w : World δ π) (d : δ) (now : ℚ) (s : PeerSession) : Prop :=
  (∀ t, w.CreatedAt d s.sessionId t → (w.endpoints d).store.policy.maxKeyLifetimeS < now - t) ∨
    maxMessagesPerKey ≤ s.sentCount ∨ maxCounter < s.nextSendCounter

/-- The device has confirmed sessions with the peer, and all of them are spent. -/
def DeadEnd (w : World δ π) (d : δ) (peerId : DeviceId) (now : ℚ) : Prop :=
  (w.endpoints d).store.hasConfirmedSession peerId = true ∧
    ∀ s ∈ (w.endpoints d).store.sessionsForPeer peerId, s.confirmed = true → w.Spent d now s

/-- Another task has recorded a session with the peer that serves, and it is not
among those that give way to a session with `answering`. -/
def Spares (w : World δ π) (d : δ) (peerId answering : DeviceId) (now : ℚ) : Prop :=
  ∃ s ∈ (w.endpoints d).store.sessionsForPeer peerId, s.confirmed = true ∧ ¬ w.Spent d now s ∧
    s ∈ ((w.endpoints d).store.makeRoom answering now).sessions

variable {net : Network δ π} {w w₀ : World δ π} {d : δ} {peerId : DeviceId} {now before : ℚ}

omit [DecidableEq δ] in
theorem Clocked.canSend_iff (h : w.Clocked before) {s : PeerSession}
    (hs : w.find d s.sessionId = some s) :
    s.canSend now (w.endpoints d).store.policy.maxKeyLifetimeS = true ↔
      s.confirmed = true ∧ ¬ w.Spent d now s := by
  have hcreated := h.created _ _ _ hs
  have hyoung : now - s.createdAt ≤ (w.endpoints d).store.policy.maxKeyLifetimeS ↔
      ¬ ∀ t, w.CreatedAt d s.sessionId t →
        (w.endpoints d).store.policy.maxKeyLifetimeS < now - t := by
    push Not
    constructor
    · exact fun hle ↦ ⟨_, hcreated.1, hle⟩
    · rintro ⟨t, ht, hle⟩
      exact (sub_le_sub_left (hcreated.2 ht) now).trans hle
  rw [PeerSession.canSend_iff, PeerSession.exhausted, Bool.or_eq_false_iff,
    decide_eq_false_iff_not, decide_eq_false_iff_not, hyoung, Spent, not_or, not_or]

end World

variable {net : Network δ π} {w w₀ : World δ π} {d : δ} {peerId : DeviceId}
  {entered now before : ℚ}

theorem Network.TimedRun.allIndexed (hrun : net.TimedRun w now) : w.AllIndexed := by
  induction hrun with
  | start now => exact fun d ↦ SessionStore.indexed_new _
  | step act _ _ _ ih => exact ih.step act

omit [DecidableEq δ] in
/-- A confirmed session is there and not one can be sent under: a dead end. -/
theorem isSome_getSendSession_iff_not_deadEnd (hclocked : w.Clocked before)
    (hconfirmed : (w.endpoints d).store.hasConfirmedSession peerId = true) :
    ((w.endpoints d).store.getSendSession peerId now).isSome ↔ ¬ w.DeadEnd d peerId now := by
  have hsend {s : PeerSession} (hs : s ∈ (w.endpoints d).store.sessionsForPeer peerId) :
      s.canSend now (w.endpoints d).store.policy.maxKeyLifetimeS = true ↔
        s.confirmed = true ∧ ¬ w.Spent d now s :=
    hclocked.canSend_iff (Endpoint.find_of_store (SessionStore.mem_sessionsForPeer hs))
  rw [SessionStore.isSome_getSendSession_iff, World.DeadEnd, not_and, not_forall]
  constructor
  · rintro ⟨s, hs, hcan⟩ -
    obtain ⟨hs_confirmed, hserves⟩ := (hsend hs).mp hcan
    exact ⟨s, fun hall ↦ hserves (hall hs hs_confirmed)⟩
  · intro h
    obtain ⟨s, hs⟩ := h hconfirmed
    push Not at hs
    obtain ⟨hmem, hs_confirmed, hserves⟩ := hs
    exact ⟨s, hmem, (hsend hmem).mpr ⟨hs_confirmed, hserves⟩⟩

/-- After a session with another peer has been recorded, the sessions with the
peer are those that it did not displace. -/
theorem SessionStore.Indexed.mem_sessionsForPeer_put {store store' : SessionStore}
    {session s : PeerSession} (h : store.Indexed) (hput : put session now store = .ok ⟨⟩ store')
    (hne : session.peerId ≠ peerId) : s ∈ store'.sessionsForPeer peerId ↔
      s ∈ store.sessionsForPeer peerId ∧ s ∈ (store.makeRoom session.peerId now).sessions := by
  have hindexed := indexed_put h hput
  obtain ⟨-, hfresh, -, rfl⟩ := put_eq_ok.mp hput
  have hroom : (store.makeRoom session.peerId now).getBySessionId session.sessionId = none := by
    rcases shrinks_makeRoom.getBySessionId_cases session.sessionId with h | h
    · exact h
    · exact h.trans hfresh
  rw [hindexed.sessionsForPeer_eq, h.sessionsForPeer_eq, sessions_record hroom, List.mem_filter,
    List.mem_filter, List.mem_append, List.mem_singleton, decide_eq_true_iff]
  constructor
  · rintro ⟨hs | rfl, hpeer⟩
    · exact ⟨⟨shrinks_makeRoom.1.subset hs, hpeer⟩, hs⟩
    · exact absurd hpeer hne
  · rintro ⟨⟨-, hpeer⟩, hs⟩
    exact ⟨.inl hs, hpeer⟩

omit [DecidableEq δ] in
/-- A session with whoever answered is recorded, and another one is wanted. -/
theorem isSome_getSendSession_iff_spares {result : HandshakeResult} {store : SessionStore}
    (hclocked : w.Clocked before) (hindexed : w.AllIndexed) (hne : result.peerDeviceId ≠ peerId)
    (h : recordInitiated result now (w.endpoints d).store = .ok ⟨⟩ store) :
    (store.getSendSession peerId now).isSome ↔ w.Spares d peerId result.peerDeviceId now := by
  have hpolicy : store.policy = (w.endpoints d).store.policy := by
    obtain ⟨-, -, -, rfl⟩ := SessionStore.put_eq_ok.mp h
    exact SessionStore.shrinks_makeRoom.2
  have hmem {s : PeerSession} := (hindexed d).mem_sessionsForPeer_put (s := s) h hne
  rw [SessionStore.isSome_getSendSession_iff, hpolicy, World.Spares]
  apply exists_congr
  intro s
  rw [hmem]
  constructor
  · rintro ⟨⟨hs, hkept⟩, hcan⟩
    have hfind := Endpoint.find_of_store (SessionStore.mem_sessionsForPeer hs)
    obtain ⟨hconfirmed, hserves⟩ := (hclocked.canSend_iff hfind).mp hcan
    exact ⟨hs, hconfirmed, hserves, hkept⟩
  · rintro ⟨hs, hconfirmed, hserves, hkept⟩
    have hfind := Endpoint.find_of_store (SessionStore.mem_sessionsForPeer hs)
    exact ⟨⟨hs, hkept⟩, (hclocked.canSend_iff hfind).mpr ⟨hconfirmed, hserves⟩⟩

theorem store_of_recordInitiated {result : HandshakeResult} {store : SessionStore}
    (h : recordInitiated result now (w.endpoints d).store = .ok ⟨⟩ store) :
    ((net.step w (.put d (result.terms true) now)).endpoints d).store = store := by
  have hput : SessionStore.put (.start (result.terms true) now) now (w.endpoints d).store =
    .ok ⟨⟩ store := h
  simp only [Network.step, hput, World.endpoints_setEndpoint_self]
  rfl

/-- In every run, when `ensure_session(peer)` returns, there is a session to send
under if and only if it was not entered at a dead end, and a handshake that it
made was answered by the peer that was meant, or spared a session with it. -/
theorem isSome_getSendSession_of_ensureCall {outcome : Option (World δ π × HandshakeResult)}
    (hlifetime : 0 ≤ net.policy.maxKeyLifetimeS) (hrun : net.TimedRun w₀ before)
    (hle : before ≤ entered) (hcall : EnsureCall net d peerId w₀ entered outcome w now) :
    ((w.endpoints d).store.getSendSession peerId now).isSome ↔
      ¬ w₀.DeadEnd d peerId entered ∧
        ∀ arrived result, outcome = some (arrived, result) →
          result.peerDeviceId = peerId ∨ arrived.Spares d peerId result.peerDeviceId now := by
  cases hcall with
  | confirmed hconfirmed =>
      rw [isSome_getSendSession_iff_not_deadEnd hrun.clocked hconfirmed, iff_self_and]
      rintro - arrived result ⟨⟩
  | @negotiated arrived before' now result store hnone hmeanwhile hle' hrecord =>
      have hstart : w₀.Clocked entered ∧ w₀.AllIndexed ∧
          (w₀.endpoints d).store.policy = net.policy :=
        ⟨hrun.clocked.mono hle, hrun.allIndexed, hrun.policy d⟩
      obtain ⟨hclocked, hindexed, hpolicy⟩ := hmeanwhile.induction (P := fun w now ↦
          w.Clocked now ∧ w.AllIndexed ∧ (w.endpoints d).store.policy = net.policy) hstart
        fun act hle hact ⟨hc, hi, hp⟩ ↦ ⟨hc.effect hle hact (net.effect_step _ act), hi.step act,
          (net.policy_step _ act d).trans hp⟩
      have hopen : ¬ w₀.DeadEnd d peerId entered := by
        rintro ⟨hconfirmed, -⟩
        rw [hnone] at hconfirmed
        cases hconfirmed
      rw [store_of_recordInitiated hrecord]
      constructor
      · intro hsome
        refine ⟨hopen, ?_⟩
        rintro _ _ ⟨⟩
        rw [or_iff_not_imp_left]
        intro hne
        exact (isSome_getSendSession_iff_spares hclocked hindexed hne hrecord).mp hsome
      · rintro ⟨-, hanswered⟩
        by_cases hpeer : result.peerDeviceId = peerId
        · subst hpeer
          exact isSome_getSendSession_of_recordInitiated (by rw [hpolicy]; exact hlifetime) hrecord
        · exact (isSome_getSendSession_iff_spares hclocked hindexed hpeer hrecord).mpr
            ((hanswered _ _ rfl).resolve_left hpeer)

/-- What the handshake with Bob comes to. -/
def pairResult : HandshakeResult where
  peerDeviceId := "bob"
  sessionId := [1, 2, 3, 4, 5, 6, 7, 8]
  role := .initiator
  sendKey := [1]
  receiveKey := [2]
  peerTransferPort := 9000
  peerManifestPort := 9001

/-- Nothing is confirmed, and Bob answers. -/
theorem isSome_getSendSession_pairResult :
    ∃ w, EnsureCall pairNetwork false "bob" (.start pairNetwork.policy) 0
        (some (.start pairNetwork.policy, pairResult)) w 60 ∧
      ((w.endpoints false).store.getSendSession "bob" 60).isSome := by
  obtain ⟨⟨⟩, store, hrecord⟩ := Raising.Completed.exists_ok
    (r := recordInitiated pairResult 60
      ((.start pairNetwork.policy : World Bool (Fin 128)).endpoints false).store)
    (by decide +kernel)
  have hcall : EnsureCall pairNetwork false "bob" (.start pairNetwork.policy) 0
      (some (.start pairNetwork.policy, pairResult)) _ 60 :=
    .negotiated (by decide +kernel) .refl (by decide) hrecord
  refine ⟨_, hcall, (isSome_getSendSession_of_ensureCall (by decide +kernel) (.start 0) le_rfl
    hcall).mpr ⟨?_, ?_⟩⟩
  · rintro ⟨hconfirmed, -⟩
    exact absurd hconfirmed (by decide +kernel)
  · rintro _ _ ⟨⟩
    exact .inl rfl

/-- A day later the session is still recorded and confirmed, and of no use. -/
theorem ensureCall_without_session :
    pairNetwork.TimedRun pairStart 0 ∧
      EnsureCall pairNetwork false "bob" pairStart 86401 none pairStart 86401 ∧
        (pairStart.endpoints false).store.getSendSession "bob" 86401 = none :=
  ⟨pairStart_timed, .confirmed (by decide +kernel), by decide +kernel⟩

end SecureSync
