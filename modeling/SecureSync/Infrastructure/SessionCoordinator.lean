import SecureSync.Infrastructure.SessionStore
import SecureSync.Infrastructure.X25519Handshake

/-!
# Recording negotiated sessions

What `X25519SessionCoordinator.ensure_session` and the drain loop of `main.py`
do with the result of a handshake.
-/

namespace SecureSync

def HandshakeResult.terms (result : HandshakeResult) (confirmed : Bool) : SessionTerms where
  peerId := result.peerDeviceId
  sessionId := result.sessionId
  role := result.role
  sendKey := result.sendKey
  receiveKey := result.receiveKey
  transferPort := result.peerTransferPort
  manifestPort := result.peerManifestPort
  confirmed := confirmed

/-- `ensure_session`, from the result of `initiate` on. -/
def recordInitiated (result : HandshakeResult) (now : ℚ) :
    EStateM SessionStoreError SessionStore PUnit :=
  SessionStore.put (.start (result.terms true) now) now

/-- One round of `_drain_inbound_handshakes`. -/
def recordAccepted (result : HandshakeResult) (now : ℚ) :
    EStateM SessionStoreError SessionStore PUnit :=
  SessionStore.put (.start (result.terms false) now) now

variable {store store' : SessionStore} {peerId : DeviceId} {now : ℚ} {session : PeerSession}

/-- What has just been recorded is found under its peer. -/
theorem SessionStore.mem_sessionsForPeer_of_put
    (h : put session now store = .ok ⟨⟩ store') :
    session ∈ store'.sessionsForPeer session.peerId := by
  obtain ⟨-, -, -, rfl⟩ := put_eq_ok.mp h
  refine List.mem_filterMap.mpr ⟨session.sessionId, ?_, KeyedTable.Table.find?_set_self⟩
  rw [idsOf, record, indexPeer, Finmap.lookup_insert, Option.getD_some]
  split_ifs with hlisted
  · exact hlisted
  · simp

theorem SessionStore.isSome_getSendSession_iff :
    (store.getSendSession peerId now).isSome ↔
      ∃ s ∈ store.sessionsForPeer peerId,
        s.canSend now store.policy.maxKeyLifetimeS = true := by
  rw [Option.isSome_iff_ne_none, ne_eq, getSendSession_eq_none_iff]
  simp only [not_forall, exists_prop, Bool.not_eq_false]

/-- A session recorded as confirmed can be sent under at once. -/
theorem isSome_getSendSession_of_recordInitiated {result : HandshakeResult}
    (hlifetime : 0 ≤ store.policy.maxKeyLifetimeS)
    (h : recordInitiated result now store = .ok ⟨⟩ store') :
    (store'.getSendSession result.peerDeviceId now).isSome := by
  have hpolicy : store'.policy = store.policy := by
    obtain ⟨-, -, -, rfl⟩ := SessionStore.put_eq_ok.mp h
    exact SessionStore.shrinks_makeRoom.2
  refine SessionStore.isSome_getSendSession_iff.mpr
    ⟨_, SessionStore.mem_sessionsForPeer_of_put h, PeerSession.canSend_iff.mpr ⟨rfl, ?_, rfl⟩⟩
  rw [hpolicy, PeerSession.start, sub_self]
  exact hlifetime

end SecureSync
