import SecureSync.Infrastructure.AntiReplayWindow
import SecureSync.Infrastructure.ReplayProtection
import SecureSync.Library.KeyedTable
import SecureSync.Library.Shrinking
import Mathlib.Data.List.MinMax
import Mathlib.Algebra.Order.Ring.Rat

/-!
# The session store

`session_store.py`: sessions with their counters and windows, and the registry
that bounds how many there are and for how long.  Times are seconds.
-/

namespace SecureSync

open KeyedTable Shrinking

def maxMessagesPerKey : ℕ := 2 ^ 32

def maxCounter : ℕ := 2 ^ 63 - 1

structure PeerSession where
  peerId : DeviceId
  sessionId : Bytes
  role : Role
  sendKey : Bytes
  receiveKey : Bytes
  transferPort : ℤ
  manifestPort : ℤ
  confirmed : Bool := false
  createdAt : ℚ
  lastActivity : ℚ
  nextSendCounter : ℕ := 1
  sentCount : ℕ := 0
  receiveWindow : AntiReplayWindow := .make AntiReplayWindow.defaultSize
  deriving DecidableEq

/-- The arguments with which a negotiated session is created. -/
structure SessionTerms where
  peerId : DeviceId
  sessionId : Bytes
  role : Role
  sendKey : Bytes
  receiveKey : Bytes
  transferPort : ℤ
  manifestPort : ℤ
  confirmed : Bool
  deriving DecidableEq

def PeerSession.start (terms : SessionTerms) (now : ℚ) : PeerSession where
  peerId := terms.peerId
  sessionId := terms.sessionId
  role := terms.role
  sendKey := terms.sendKey
  receiveKey := terms.receiveKey
  transferPort := terms.transferPort
  manifestPort := terms.manifestPort
  confirmed := terms.confirmed
  createdAt := now
  lastActivity := now

namespace PeerSession

def markActive (session : PeerSession) (now : ℚ) : PeerSession :=
  { session with lastActivity := now }

def exhausted (session : PeerSession) : Bool :=
  maxMessagesPerKey ≤ session.sentCount || maxCounter < session.nextSendCounter

def allocateCounter : EStateM ChannelError PeerSession ℕ := fun session ↦
  if session.exhausted then .error (.counterExhausted session.sentCount) session
  else .ok session.nextSendCounter { session with
    nextSendCounter := session.nextSendCounter + 1
    sentCount := session.sentCount + 1 }

def canSend (session : PeerSession) (now maxLifetimeS : ℚ) : Bool :=
  if !session.confirmed then false
  else if maxLifetimeS < now - session.createdAt then false
  else !session.exhausted

theorem canSend_iff {session : PeerSession} {now maxLifetimeS : ℚ} :
    session.canSend now maxLifetimeS = true ↔
      session.confirmed = true ∧ now - session.createdAt ≤ maxLifetimeS ∧
        session.exhausted = false := by
  unfold canSend
  split_ifs with hconfirmed hold
  · simp_all
  · rw [← not_le] at hold
    simp only [false_iff]
    exact fun h ↦ hold h.2.1
  · simp_all

theorem allocateCounter_eq_ok {session session' : PeerSession} {counter : ℕ} :
    allocateCounter session = .ok counter session' ↔
      session.exhausted = false ∧ session.nextSendCounter = counter ∧
        { session with
          nextSendCounter := session.nextSendCounter + 1
          sentCount := session.sentCount + 1 } = session' := by
  unfold allocateCounter
  split_ifs with h <;> simp [h]

end PeerSession

/-! ## The store -/

inductive SessionStoreError where
  | sessionIdLength (length : ℕ)
  | sessionIdCollision (sessionId : Bytes)
  | globalCap (cap : ℕ)
  deriving DecidableEq, Repr

structure SessionPolicy where
  maxSessionsPerPeer : ℕ := 8
  maxUnconfirmedPerPeer : ℕ := 4
  globalSessionCap : ℕ := 256
  maxKeyLifetimeS : ℚ := 24 * 3600
  idleTimeoutConfirmedS : ℚ := 3600
  idleTimeoutUnconfirmedS : ℚ := 60

structure SessionStore where
  policy : SessionPolicy
  bySessionId : Table PeerSession.sessionId
  byPeer : Finmap fun _ : DeviceId ↦ List Bytes

namespace SessionStore

def new (policy : SessionPolicy) : SessionStore := ⟨policy, .empty, ∅⟩

def sessions (store : SessionStore) : List PeerSession := store.bySessionId.items

def getBySessionId (store : SessionStore) (sessionId : Bytes) : Option PeerSession :=
  store.bySessionId.find? sessionId

/-- `_by_peer.get(peer_id, [])`. -/
def idsOf (store : SessionStore) (peerId : DeviceId) : List Bytes :=
  (store.byPeer.lookup peerId).getD []

def sessionsForPeer (store : SessionStore) (peerId : DeviceId) : List PeerSession :=
  (store.idsOf peerId).filterMap store.getBySessionId

/-- `max` keeps the first of several sessions with the latest activity. -/
def getSendSession (store : SessionStore) (peerId : DeviceId) (now : ℚ) : Option PeerSession :=
  ((store.sessionsForPeer peerId).filter fun session ↦
    session.canSend now store.policy.maxKeyLifetimeS).argmax PeerSession.lastActivity

def hasConfirmedSession (store : SessionStore) (peerId : DeviceId) : Bool :=
  (store.sessionsForPeer peerId).any PeerSession.confirmed

/-- What is left when a recorded session object has been changed to `session`. -/
def update (store : SessionStore) (session : PeerSession) : SessionStore :=
  { store with bySessionId := store.bySessionId.set session }

def confirm (store : SessionStore) (sessionId : Bytes) : SessionStore :=
  match store.getBySessionId sessionId with
  | none => store
  | some session => store.update { session with confirmed := true }

/-! ### Removing -/

def unindex (index : Finmap fun _ : DeviceId ↦ List Bytes) (peerId : DeviceId)
    (sessionId : Bytes) : Finmap fun _ : DeviceId ↦ List Bytes :=
  match index.lookup peerId with
  | none => index
  | some ids =>
      let ids := ids.filter fun id ↦ id ≠ sessionId
      if ids = [] then index.erase peerId else index.insert peerId ids

/-- `_remove`. -/
def remove (store : SessionStore) (sessionId : Bytes) : SessionStore :=
  match store.getBySessionId sessionId with
  | none => store
  | some session => { store with
      bySessionId := store.bySessionId.erase sessionId
      byPeer := unindex store.byPeer session.peerId sessionId }

def removeByPeer (store : SessionStore) (peerId : DeviceId) : SessionStore :=
  (store.idsOf peerId).foldl remove store

/-- `_is_expired`. -/
def isExpired (store : SessionStore) (session : PeerSession) (now : ℚ) : Bool :=
  if store.policy.maxKeyLifetimeS < now - session.createdAt then true
  else
    let idleLimit := if session.confirmed then store.policy.idleTimeoutConfirmedS
      else store.policy.idleTimeoutUnconfirmedS
    idleLimit < now - session.lastActivity

def pruneExpired (store : SessionStore) (now : ℚ) : SessionStore :=
  ((store.sessions.filter (store.isExpired · now)).map PeerSession.sessionId).foldl remove store

/-! ### Caps -/

/-- `_evict_oldest_created`: the first of the oldest unconfirmed candidates goes. -/
def evictOldestCreated (ids : List Bytes) (store : SessionStore) : Option SessionStore :=
  (((ids.filterMap store.getBySessionId).filter fun session ↦ !session.confirmed).argmin
    PeerSession.createdAt).map fun session ↦ store.remove session.sessionId

/-- `_evict_lru_confirmed`. -/
def evictLruConfirmed (ids : List Bytes) (store : SessionStore) : Option SessionStore :=
  (((ids.filterMap store.getBySessionId).filter fun session ↦ session.confirmed).argmin
    PeerSession.lastActivity).map fun session ↦ store.remove session.sessionId

def evictAny (ids : List Bytes) (store : SessionStore) : Option SessionStore :=
  match store.evictOldestCreated ids with
  | some store' => some store'
  | none => store.evictLruConfirmed ids

def unconfirmedIds (store : SessionStore) (peerId : DeviceId) : List Bytes :=
  (store.idsOf peerId).filter fun id ↦
    (store.getBySessionId id).any fun session ↦ !session.confirmed

/-- The first loop of `_enforce_peer_caps`. -/
def enforceUnconfirmedCap (store : SessionStore) (peerId : DeviceId) : SessionStore :=
  evictWhile
    (fun store ↦ store.policy.maxUnconfirmedPerPeer ≤ (store.unconfirmedIds peerId).length)
    (fun store ↦ store.evictOldestCreated (store.unconfirmedIds peerId))
    store.sessions.length store

/-- The second loop of `_enforce_peer_caps`. -/
def enforceSessionCap (store : SessionStore) (peerId : DeviceId) : SessionStore :=
  evictWhile
    (fun store ↦ store.policy.maxSessionsPerPeer ≤ (store.idsOf peerId).length)
    (fun store ↦ store.evictAny (store.idsOf peerId))
    store.sessions.length store

def enforcePeerCaps (store : SessionStore) (peerId : DeviceId) : SessionStore :=
  (store.enforceUnconfirmedCap peerId).enforceSessionCap peerId

/-- The loop of `_enforce_global_cap`. -/
def enforceGlobalCap (store : SessionStore) : SessionStore :=
  evictWhile
    (fun store ↦ store.policy.globalSessionCap ≤ store.sessions.length)
    (fun store ↦ store.evictAny (store.sessions.map PeerSession.sessionId))
    store.sessions.length store

/-! ### Recording -/

/-- `_index_peer`. -/
def indexPeer (index : Finmap fun _ : DeviceId ↦ List Bytes) (peerId : DeviceId)
    (sessionId : Bytes) : Finmap fun _ : DeviceId ↦ List Bytes :=
  let ids := (index.lookup peerId).getD []
  index.insert peerId (if sessionId ∈ ids then ids else ids ++ [sessionId])

def record (store : SessionStore) (session : PeerSession) : SessionStore :=
  { store with
    bySessionId := store.bySessionId.set session
    byPeer := indexPeer store.byPeer session.peerId session.sessionId }

/-- What `put` does before it records a session. -/
def makeRoom (store : SessionStore) (peerId : DeviceId) (now : ℚ) : SessionStore :=
  ((store.pruneExpired now).enforcePeerCaps peerId).enforceGlobalCap

def put (session : PeerSession) (now : ℚ) : EStateM SessionStoreError SessionStore PUnit :=
  fun store ↦
    if session.sessionId.length ≠ sessionIdSize then
      .error (.sessionIdLength session.sessionId.length) store
    else if (store.getBySessionId session.sessionId).isSome then
      .error (.sessionIdCollision session.sessionId) store
    else
      let store := store.makeRoom session.peerId now
      if store.policy.globalSessionCap ≤ store.sessions.length then
        .error (.globalCap store.policy.globalSessionCap) store
      else .ok ⟨⟩ (store.record session)

/-! ## What is in the store -/

variable {store : SessionStore} {session : PeerSession} {sessionId : Bytes} {peerId : DeviceId}
  {now : ℚ}

theorem getBySessionId_eq_some :
    store.getBySessionId sessionId = some session ↔
      session ∈ store.sessions ∧ session.sessionId = sessionId := Table.find?_eq_some

theorem getBySessionId_eq_none :
    store.getBySessionId sessionId = none ↔ ∀ s ∈ store.sessions, s.sessionId ≠ sessionId :=
  Table.find?_eq_none

theorem mem_sessions_update {s : PeerSession} :
    s ∈ (store.update session).sessions ↔
      s = session ∨ s ∈ store.sessions ∧ s.sessionId ≠ session.sessionId := Table.mem_set

theorem getBySessionId_update_self :
    (store.update session).getBySessionId session.sessionId = some session := Table.find?_set_self

theorem getBySessionId_update_of_ne (h : sessionId ≠ session.sessionId) :
    (store.update session).getBySessionId sessionId = store.getBySessionId sessionId :=
  Table.find?_set_of_ne h

theorem sessions_remove :
    (store.remove sessionId).sessions =
      store.sessions.filter fun s ↦ s.sessionId ≠ sessionId := by
  unfold remove
  cases h : store.getBySessionId sessionId with
  | none =>
      symm
      rw [List.filter_eq_self]
      simpa using getBySessionId_eq_none.mp h
  | some s => rfl

@[simp] theorem policy_remove : (store.remove sessionId).policy = store.policy := by
  unfold remove
  cases store.getBySessionId sessionId <;> rfl

theorem sessions_foldl_remove (ids : List Bytes) :
    (ids.foldl remove store).sessions = store.sessions.filter fun s ↦ s.sessionId ∉ ids := by
  induction ids generalizing store with
  | nil => simp
  | cons id ids ih =>
      rw [List.foldl_cons, ih, sessions_remove, List.filter_filter]
      congr 1
      funext s
      rw [Bool.and_comm]
      simp

theorem policy_foldl_remove (ids : List Bytes) :
    (ids.foldl remove store).policy = store.policy := by
  induction ids generalizing store with
  | nil => rfl
  | cons id ids ih => rw [List.foldl_cons, ih, policy_remove]

theorem sessions_pruneExpired :
    (store.pruneExpired now).sessions = store.sessions.filter fun s ↦ !store.isExpired s now := by
  rw [pruneExpired, sessions_foldl_remove]
  apply List.filter_congr
  intro s hs
  cases hexpired : store.isExpired s now with
  | true =>
      have hmem : s.sessionId ∈ (store.sessions.filter (store.isExpired · now)).map
          PeerSession.sessionId := List.mem_map_of_mem (List.mem_filter.mpr ⟨hs, hexpired⟩)
      simp only [hmem, not_true_eq_false, decide_false, Bool.not_true]
  | false =>
      have hnot : s.sessionId ∉ (store.sessions.filter (store.isExpired · now)).map
          PeerSession.sessionId := by
        rintro hmem
        obtain ⟨s', hs', hid⟩ := List.mem_map.mp hmem
        obtain ⟨hs', hexpired'⟩ := List.mem_filter.mp hs'
        rw [store.bySessionId.eq_of_mem hs' hs hid, hexpired] at hexpired'
        cases hexpired'
      simp only [hnot, not_false_eq_true, decide_true, Bool.not_false]

theorem isExpired_eq_false_iff : store.isExpired session now = false ↔
    now - session.createdAt ≤ store.policy.maxKeyLifetimeS ∧
      now - session.lastActivity ≤ if session.confirmed then store.policy.idleTimeoutConfirmedS
        else store.policy.idleTimeoutUnconfirmedS := by
  unfold isExpired
  by_cases hold : store.policy.maxKeyLifetimeS < now - session.createdAt
  · have hnot : ¬ now - session.createdAt ≤ store.policy.maxKeyLifetimeS := not_le.mpr hold
    simp only [if_pos hold, hnot, false_and]
    decide
  · simp only [if_neg hold, decide_eq_false_iff_not, not_lt, not_lt.mp hold, true_and]

theorem mem_sessionsForPeer (h : session ∈ store.sessionsForPeer peerId) :
    store.getBySessionId session.sessionId = some session := by
  obtain ⟨id, -, hfind⟩ := List.mem_filterMap.mp h
  rw [(getBySessionId_eq_some.mp hfind).2, hfind]

/-- The session to send under is sendable, and the one used last of those. -/
theorem getSendSession_eq_some {s : PeerSession} (h : store.getSendSession peerId now = some s) :
    s ∈ store.sessionsForPeer peerId ∧ s.canSend now store.policy.maxKeyLifetimeS = true ∧
      ∀ s' ∈ store.sessionsForPeer peerId, s'.canSend now store.policy.maxKeyLifetimeS = true →
        s'.lastActivity ≤ s.lastActivity := by
  obtain ⟨hmem, hcan⟩ := List.mem_filter.mp (List.argmax_mem h)
  exact ⟨hmem, hcan, fun s' hs' hcan' ↦
    List.le_of_mem_argmax (List.mem_filter.mpr ⟨hs', hcan'⟩) h⟩

theorem getSendSession_eq_none_iff : store.getSendSession peerId now = none ↔
    ∀ s ∈ store.sessionsForPeer peerId, s.canSend now store.policy.maxKeyLifetimeS = false := by
  rw [getSendSession, List.argmax_eq_none, List.filter_eq_nil_iff]
  simp only [Bool.not_eq_true]

/-! ### Making room only removes -/

/-- A part of the sessions is left, and each as it was. -/
def Shrinks (store store' : SessionStore) : Prop :=
  store'.sessions.Sublist store.sessions ∧ store'.policy = store.policy

theorem Shrinks.refl : Shrinks store store := ⟨.refl _, rfl⟩

theorem Shrinks.trans {store₁ store₂ store₃ : SessionStore} (h : Shrinks store₁ store₂)
    (h' : Shrinks store₂ store₃) : Shrinks store₁ store₃ :=
  ⟨h'.1.trans h.1, h'.2.trans h.2⟩

/-- What is left under an id is what was there. -/
theorem Shrinks.getBySessionId_cases {store' : SessionStore} (h : Shrinks store store')
    (sessionId : Bytes) :
    store'.getBySessionId sessionId = none ∨
      store'.getBySessionId sessionId = store.getBySessionId sessionId := by
  cases hleft : store'.getBySessionId sessionId with
  | none => exact .inl rfl
  | some s =>
      obtain ⟨hmem, hid⟩ := getBySessionId_eq_some.mp hleft
      exact .inr (getBySessionId_eq_some.mpr ⟨h.1.subset hmem, hid⟩).symm

theorem shrinks_remove : Shrinks store (store.remove sessionId) :=
  ⟨sessions_remove ▸ List.filter_sublist, policy_remove⟩

theorem shrinks_foldl_remove (ids : List Bytes) : Shrinks store (ids.foldl remove store) :=
  ⟨sessions_foldl_remove ids ▸ List.filter_sublist, policy_foldl_remove ids⟩

theorem exists_of_argmin {ids : List Bytes} {p : PeerSession → Bool} {f : PeerSession → ℚ}
    {store' : SessionStore}
    (h : (((ids.filterMap store.getBySessionId).filter p).argmin f).map
      (fun session ↦ store.remove session.sessionId) = some store') :
    ∃ s ∈ store.sessions, p s = true ∧ store.remove s.sessionId = store' := by
  obtain ⟨s, hs, hremove⟩ := Option.map_eq_some_iff.mp h
  obtain ⟨hs, hp⟩ := List.mem_filter.mp (List.argmin_mem hs)
  obtain ⟨id, -, hfind⟩ := List.mem_filterMap.mp hs
  exact ⟨s, (getBySessionId_eq_some.mp hfind).1, hp, hremove⟩

theorem exists_of_evictOldestCreated {ids : List Bytes} {store' : SessionStore}
    (h : store.evictOldestCreated ids = some store') :
    ∃ s ∈ store.sessions, s.confirmed = false ∧ store.remove s.sessionId = store' := by
  obtain ⟨s, hs, hunconfirmed, hremove⟩ := exists_of_argmin h
  exact ⟨s, hs, by simpa using hunconfirmed, hremove⟩

/-- An eviction removes one of the recorded sessions. -/
theorem exists_of_evictAny {ids : List Bytes} {store' : SessionStore}
    (h : store.evictAny ids = some store') :
    ∃ s ∈ store.sessions, store.remove s.sessionId = store' := by
  unfold evictAny at h
  cases hold : store.evictOldestCreated ids with
  | some store'' =>
      rw [hold] at h
      obtain ⟨s, hs, -, hremove⟩ := exists_of_argmin (hold.trans h)
      exact ⟨s, hs, hremove⟩
  | none =>
      rw [hold] at h
      obtain ⟨s, hs, -, hremove⟩ := exists_of_argmin h
      exact ⟨s, hs, hremove⟩

theorem evictAny_of_evictOldestCreated {ids : List Bytes} {store' : SessionStore}
    (h : store.evictOldestCreated ids = some store') : store.evictAny ids = some store' := by
  rw [evictAny, h]

/-- The rule for `put`'s clean-up: what a removal keeps, making room keeps. -/
theorem makeRoom_induction {P : SessionStore → Prop}
    (hremove : ∀ store id, P store → P (remove store id)) (h : P (store.pruneExpired now)) :
    P (store.makeRoom peerId now) := by
  have hevict (ids : SessionStore → List Bytes) (s s' : SessionStore) (hs : P s)
      (h : s.evictAny (ids s) = some s') : P s' := by
    obtain ⟨_, -, rfl⟩ := exists_of_evictAny h
    exact hremove _ _ hs
  have hunconfirmed : P ((store.pruneExpired now).enforceUnconfirmedCap peerId) :=
    evictWhile_induction (fun s s' hs h ↦
      hevict (unconfirmedIds · peerId) s s' hs (evictAny_of_evictOldestCreated h)) _ h
  have hpeer : P ((store.pruneExpired now).enforcePeerCaps peerId) :=
    evictWhile_induction (hevict (idsOf · peerId)) _ hunconfirmed
  exact evictWhile_induction (hevict fun s ↦ s.sessions.map PeerSession.sessionId) _ hpeer

theorem shrinks_makeRoom_of_pruneExpired :
    Shrinks (store.pruneExpired now) (store.makeRoom peerId now) :=
  makeRoom_induction (fun _ _ h ↦ h.trans shrinks_remove) .refl

theorem shrinks_makeRoom : Shrinks store (store.makeRoom peerId now) :=
  (shrinks_foldl_remove _).trans shrinks_makeRoom_of_pruneExpired

/-- What is left after making room is unexpired. -/
theorem isExpired_of_mem_makeRoom (h : session ∈ (store.makeRoom peerId now).sessions) :
    store.isExpired session now = false := by
  have hmem := shrinks_makeRoom_of_pruneExpired.1.subset h
  rw [sessions_pruneExpired] at hmem
  simpa using (List.mem_filter.mp hmem).2

theorem put_eq_ok {store' : SessionStore} :
    put session now store = .ok ⟨⟩ store' ↔
      session.sessionId.length = sessionIdSize ∧
        store.getBySessionId session.sessionId = none ∧
          (store.makeRoom session.peerId now).sessions.length < store.policy.globalSessionCap ∧
            (store.makeRoom session.peerId now).record session = store' := by
  unfold put
  have hpolicy : (store.makeRoom session.peerId now).policy = store.policy := shrinks_makeRoom.2
  split_ifs with hlength hcollision
  · simp [hlength]
  · rw [Option.isSome_iff_ne_none] at hcollision
    simp [hcollision]
  · rw [Option.not_isSome_iff_eq_none] at hcollision
    simp only [hpolicy]
    split_ifs with hcap
    · simp [hcap]
    · simp only [not_not] at hlength
      simp [hlength, hcollision, not_le.mp hcap]

/-! ## The index -/

/-- The ids of the sessions with a peer. -/
def recordedIds (store : SessionStore) (peerId : DeviceId) : List Bytes :=
  (store.sessions.filter fun s ↦ s.peerId = peerId).map PeerSession.sessionId

/-- No list is kept for a peer without sessions. -/
def indexEntry (ids : List Bytes) : Option (List Bytes) := if ids = [] then none else some ids

def Indexed (store : SessionStore) : Prop :=
  ∀ peerId, store.byPeer.lookup peerId = indexEntry (store.recordedIds peerId)

theorem mem_recordedIds : sessionId ∈ store.recordedIds peerId ↔
    ∃ s ∈ store.sessions, s.peerId = peerId ∧ s.sessionId = sessionId := by
  simp [recordedIds, and_assoc]

theorem getD_indexEntry (ids : List Bytes) : (indexEntry ids).getD [] = ids := by
  unfold indexEntry
  split_ifs with h
  · exact h.symm
  · rfl

theorem indexed_new (policy : SessionPolicy) : (new policy).Indexed :=
  fun _ ↦ Finmap.lookup_empty _

theorem Indexed.idsOf_eq (h : store.Indexed) (peerId : DeviceId) :
    store.idsOf peerId = store.recordedIds peerId := by
  rw [idsOf, h peerId, getD_indexEntry]

theorem Indexed.sessionsForPeer_eq (h : store.Indexed) (peerId : DeviceId) :
    store.sessionsForPeer peerId = store.sessions.filter fun s ↦ s.peerId = peerId := by
  have hfind : ∀ s ∈ store.sessions.filter fun s ↦ s.peerId = peerId,
      (store.getBySessionId ∘ PeerSession.sessionId) s = some s := by
    intro s hs
    exact getBySessionId_eq_some.mpr ⟨(List.mem_filter.mp hs).1, rfl⟩
  rw [sessionsForPeer, h.idsOf_eq, recordedIds, List.filterMap_map, List.filterMap_congr hfind,
    List.filterMap_some]

theorem lookup_unindex_self {index : Finmap fun _ : DeviceId ↦ List Bytes} {ids : List Bytes}
    (h : index.lookup peerId = indexEntry ids) :
    (unindex index peerId sessionId).lookup peerId =
      indexEntry (ids.filter fun id ↦ id ≠ sessionId) := by
  unfold unindex
  by_cases hids : ids = []
  · subst hids
    have hnone : index.lookup peerId = none := h
    simp only [hnone]
    rfl
  · have hsome : index.lookup peerId = some ids := h.trans (if_neg hids)
    simp only [hsome]
    unfold indexEntry
    split_ifs
    · exact Finmap.lookup_erase _ _
    · exact Finmap.lookup_insert _

theorem lookup_unindex_of_ne {index : Finmap fun _ : DeviceId ↦ List Bytes} {q : DeviceId}
    (h : q ≠ peerId) : (unindex index peerId sessionId).lookup q = index.lookup q := by
  unfold unindex
  cases index.lookup peerId with
  | none => rfl
  | some ids =>
      dsimp only
      split_ifs
      · exact Finmap.lookup_erase_ne h
      · exact Finmap.lookup_insert_of_ne _ h

theorem recordedIds_remove : (store.remove sessionId).recordedIds peerId =
    (store.recordedIds peerId).filter fun id ↦ id ≠ sessionId := by
  rw [recordedIds, recordedIds, sessions_remove, List.filter_map, List.filter_filter,
    List.filter_filter]
  simp only [Function.comp_def, Bool.and_comm]

theorem Indexed.remove (h : store.Indexed) (sessionId : Bytes) :
    (store.remove sessionId).Indexed := by
  intro q
  rw [recordedIds_remove]
  unfold SessionStore.remove
  cases hfind : store.getBySessionId sessionId with
  | none =>
      have hall : (store.recordedIds q).filter (fun id ↦ id ≠ sessionId) = store.recordedIds q := by
        rw [List.filter_eq_self]
        intro id hid
        obtain ⟨s, hs, -, rfl⟩ := mem_recordedIds.mp hid
        simpa using getBySessionId_eq_none.mp hfind s hs
      rw [hall]
      exact h q
  | some session =>
      by_cases hq : q = session.peerId
      · rw [hq]
        exact lookup_unindex_self (h session.peerId)
      · obtain ⟨hmem, hid⟩ := getBySessionId_eq_some.mp hfind
        -- the removed session is of another peer
        have hall : (store.recordedIds q).filter (fun id ↦ id ≠ sessionId) =
            store.recordedIds q := by
          rw [List.filter_eq_self]
          intro id hlisted
          obtain ⟨s, hs, hpeer, rfl⟩ := mem_recordedIds.mp hlisted
          have hne : s.sessionId ≠ sessionId := by
            rintro rfl
            exact hq (hpeer ▸ congrArg _ (store.bySessionId.eq_of_mem hs hmem hid.symm))
          simpa using hne
        rw [hall]
        exact (lookup_unindex_of_ne hq).trans (h q)

theorem Indexed.foldl_remove (h : store.Indexed) (ids : List Bytes) :
    (ids.foldl SessionStore.remove store).Indexed := by
  induction ids generalizing store with
  | nil => exact h
  | cons id ids ih => exact ih (h.remove id)

theorem Indexed.makeRoom (h : store.Indexed) : (store.makeRoom peerId now).Indexed :=
  makeRoom_induction (fun _ id hs ↦ hs.remove id) (h.foldl_remove _)

theorem sessions_record (h : store.getBySessionId session.sessionId = none) :
    (store.record session).sessions = store.sessions ++ [session] :=
  Table.items_set_of_find? h

theorem Indexed.record (h : store.Indexed)
    (hfresh : store.getBySessionId session.sessionId = none) : (store.record session).Indexed := by
  intro q
  have hnot : session.sessionId ∉ store.recordedIds session.peerId := by
    rw [mem_recordedIds]
    rintro ⟨s, hs, -, hid⟩
    exact getBySessionId_eq_none.mp hfresh s hs hid
  have hindex : (store.record session).byPeer = store.byPeer.insert session.peerId
      (store.recordedIds session.peerId ++ [session.sessionId]) := by
    rw [SessionStore.record, indexPeer, h session.peerId, getD_indexEntry]
    simp only [if_neg hnot]
  have hids : (store.record session).recordedIds q = store.recordedIds q ++
      ([session].filter fun s ↦ s.peerId = q).map PeerSession.sessionId := by
    rw [recordedIds, sessions_record hfresh, List.filter_append, List.map_append]
    rfl
  rw [hindex, hids]
  by_cases hq : q = session.peerId
  · subst hq
    rw [Finmap.lookup_insert, List.filter_singleton, decide_eq_true rfl]
    exact (if_neg (by simp)).symm
  · rw [Finmap.lookup_insert_of_ne _ hq, List.filter_singleton, decide_eq_false (Ne.symm hq)]
    exact (h q).trans (congrArg indexEntry (List.append_nil _).symm)

/-- A change to a session object leaves the order of the records. -/
theorem map_update {β : Type} {s : PeerSession} {f : PeerSession → β}
    (hs : store.getBySessionId session.sessionId = some s) (hf : f session = f s) :
    (store.update session).sessions.map f = store.sessions.map f := Table.map_set hs hf

theorem Indexed.update {s : PeerSession} (h : store.Indexed)
    (hs : store.getBySessionId session.sessionId = some s) (hpeer : session.peerId = s.peerId) :
    (store.update session).Indexed := by
  intro q
  have hids (store' : SessionStore) : store'.recordedIds q =
      ((store'.sessions.map fun s ↦ (s.peerId, s.sessionId)).filter fun p ↦ p.1 = q).map
        Prod.snd := by
    rw [List.filter_map, List.map_map]
    rfl
  have hid := (getBySessionId_eq_some.mp hs).2
  rw [hids, map_update hs (by rw [hpeer, hid]), ← hids]
  exact h q

theorem indexed_put {store' : SessionStore} (h : store.Indexed)
    (hput : put session now store = .ok ⟨⟩ store') : store'.Indexed := by
  obtain ⟨-, hfresh, -, rfl⟩ := put_eq_ok.mp hput
  apply h.makeRoom.record
  rw [getBySessionId_eq_none] at hfresh ⊢
  exact fun s hs ↦ hfresh s (shrinks_makeRoom.1.subset hs)

theorem sessions_put {store' : SessionStore} (hput : put session now store = .ok ⟨⟩ store') :
    store'.sessions = (store.makeRoom session.peerId now).sessions ++ [session] := by
  obtain ⟨-, hfresh, -, rfl⟩ := put_eq_ok.mp hput
  apply sessions_record
  rw [getBySessionId_eq_none] at hfresh ⊢
  exact fun s hs ↦ hfresh s (shrinks_makeRoom.1.subset hs)

theorem shrinks_put_error {e : SessionStoreError} {store' : SessionStore}
    (hput : put session now store = .error e store') : store.Shrinks store' := by
  unfold put at hput
  split_ifs at hput
  · cases hput
    exact .refl
  · cases hput
    exact .refl
  · dsimp only at hput
    split_ifs at hput
    cases hput
    exact shrinks_makeRoom

theorem indexed_put_error {e : SessionStoreError} {store' : SessionStore} (h : store.Indexed)
    (hput : put session now store = .error e store') : store'.Indexed := by
  unfold put at hput
  split_ifs at hput
  · cases hput
    exact h
  · cases hput
    exact h
  · dsimp only at hput
    split_ifs at hput
    cases hput
    exact h.makeRoom

end SessionStore
end SecureSync
