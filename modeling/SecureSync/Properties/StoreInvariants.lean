import SecureSync.Infrastructure.SecureChannel

/-!
# What holds of a session store at all times

The two indexes of the store agree, its caps are kept, and `put` always finds
room.
-/

namespace SecureSync

open Raising KeyedTable Shrinking

inductive StoreCall where
  | put (session : PeerSession) (now : ℚ)
  | confirm (sessionId : Bytes)
  | removeByPeer (peerId : DeviceId)
  | pruneExpired (now : ℚ)
  | change (sessionId : Bytes) (change : SessionChange)

/-- Every cap lets a session in. -/
structure SessionPolicy.Positive (policy : SessionPolicy) : Prop where
  perPeer : 1 ≤ policy.maxSessionsPerPeer
  unconfirmed : 1 ≤ policy.maxUnconfirmedPerPeer
  total : 1 ≤ policy.globalSessionCap

namespace SessionStore

variable {store store' : SessionStore} {session : PeerSession} {peerId : DeviceId} {now : ℚ}

def step (store : SessionStore) : StoreCall → SessionStore
  | .put session now => stateOf (put session now store)
  | .confirm sessionId => store.confirm sessionId
  | .removeByPeer peerId => store.removeByPeer peerId
  | .pruneExpired now => store.pruneExpired now
  | .change sessionId change =>
      match store.getBySessionId sessionId with
      | none => store
      | some session => store.update (session.change change)

/-! ## Counting sessions -/

def isOf (peerId : DeviceId) (session : PeerSession) : Bool := session.peerId = peerId

def isUnconfirmedOf (peerId : DeviceId) (session : PeerSession) : Bool :=
  session.peerId = peerId && !session.confirmed

theorem Indexed.length_idsOf (h : store.Indexed) (peerId : DeviceId) :
    (store.idsOf peerId).length = store.sessions.countP (isOf peerId) := by
  rw [h.idsOf_eq, recordedIds, List.length_map, List.countP_eq_length_filter]
  rfl

theorem Indexed.unconfirmedIds_eq (h : store.Indexed) (peerId : DeviceId) :
    store.unconfirmedIds peerId =
      (store.sessions.filter (isUnconfirmedOf peerId)).map PeerSession.sessionId := by
  have hfind : ∀ s ∈ store.sessions.filter fun s ↦ s.peerId = peerId,
      ((fun id ↦ (store.getBySessionId id).any fun session ↦ !session.confirmed) ∘
        PeerSession.sessionId) s = !s.confirmed := by
    intro s hs
    have hsome := getBySessionId_eq_some.mpr ⟨(List.mem_filter.mp hs).1, rfl⟩
    rw [Function.comp_apply, hsome, Option.any_some]
  rw [unconfirmedIds, h.idsOf_eq, recordedIds, List.filter_map, List.filter_congr hfind,
    List.filter_filter]
  congr 2
  funext s
  exact Bool.and_comm _ _

theorem Indexed.length_unconfirmedIds (h : store.Indexed) (peerId : DeviceId) :
    (store.unconfirmedIds peerId).length = store.sessions.countP (isUnconfirmedOf peerId) := by
  rw [h.unconfirmedIds_eq, List.length_map, List.countP_eq_length_filter]

theorem Shrinks.countP_le (h : store.Shrinks store') (p : PeerSession → Bool) :
    store'.sessions.countP p ≤ store.sessions.countP p := h.1.countP_le

/-! ## The eviction loops end -/

theorem length_remove_lt (h : session ∈ store.sessions) :
    (store.remove session.sessionId).sessions.length < store.sessions.length := by
  rw [sessions_remove]
  apply List.length_filter_lt_length_iff_exists.mpr
  exact ⟨session, h, by simp⟩

theorem length_evictAny_lt {ids : List Bytes} (h : store.evictAny ids = some store') :
    store'.sessions.length < store.sessions.length := by
  obtain ⟨s, hs, rfl⟩ := exists_of_evictAny h
  exact length_remove_lt hs

theorem evictOldestCreated_ne_none {ids : List Bytes} (hmem : session ∈ store.sessions)
    (hid : session.sessionId ∈ ids) (hunconfirmed : session.confirmed = false) :
    store.evictOldestCreated ids ≠ none := by
  rw [evictOldestCreated, Ne, Option.map_eq_none_iff, List.argmin_eq_none]
  apply List.ne_nil_of_mem (a := session)
  rw [List.mem_filter, List.mem_filterMap]
  exact ⟨⟨_, hid, getBySessionId_eq_some.mpr ⟨hmem, rfl⟩⟩, by rw [hunconfirmed]; rfl⟩

theorem evictAny_ne_none {ids : List Bytes} (hmem : session ∈ store.sessions)
    (hid : session.sessionId ∈ ids) : store.evictAny ids ≠ none := by
  unfold evictAny
  cases hold : store.evictOldestCreated ids with
  | some store' => exact Option.some_ne_none _
  | none =>
      cases hconfirmed : session.confirmed with
      | false => exact absurd hold (evictOldestCreated_ne_none hmem hid hconfirmed)
      | true =>
          dsimp only
          rw [evictLruConfirmed, Ne, Option.map_eq_none_iff, List.argmin_eq_none]
          apply List.ne_nil_of_mem (a := session)
          rw [List.mem_filter, List.mem_filterMap]
          exact ⟨⟨_, hid, getBySessionId_eq_some.mpr ⟨hmem, rfl⟩⟩, hconfirmed⟩

/-- What the eviction loops rely on. -/
structure Evictable (store : SessionStore) : Prop where
  indexed : store.Indexed
  positive : store.policy.Positive

theorem Evictable.shrink (h : store.Evictable) (hindexed : store'.Indexed)
    (hshrinks : store.Shrinks store') : store'.Evictable where
  indexed := hindexed
  positive := by
    rw [hshrinks.2]
    exact h.positive

theorem Evictable.remove (h : store.Evictable) (sessionId : Bytes) :
    (store.remove sessionId).Evictable :=
  h.shrink (h.indexed.remove sessionId) shrinks_remove

theorem Evictable.pruneExpired (h : store.Evictable) (now : ℚ) :
    (store.pruneExpired now).Evictable :=
  h.shrink (h.indexed.foldl_remove _) (shrinks_foldl_remove _)

/-- A loop that keeps a size below a cap, and that can always go on, gets there
within its rounds. -/
theorem Evictable.loop (cap : SessionPolicy → ℕ) (size : SessionStore → ℕ)
    {ids : SessionStore → List Bytes} {evict : SessionStore → Option SessionStore}
    (h : store.Evictable) (hevict : ∀ s s', evict s = some s' → s.evictAny (ids s) = some s')
    (hprogress : ∀ s, Evictable s → cap s.policy ≤ size s → evict s ≠ none) :
    let left := evictWhile (fun s ↦ cap s.policy ≤ size s) evict store.sessions.length store
    left.Evictable ∧ store.Shrinks left ∧ size left < cap store.policy := by
  intro left
  have hkept : left.Evictable ∧ store.Shrinks left := by
    refine evictWhile_induction (P := fun s ↦ s.Evictable ∧ store.Shrinks s)
      (fun s s' hs hstep ↦ ?_) _ ⟨h, .refl⟩
    obtain ⟨s₁, -, rfl⟩ := exists_of_evictAny (hevict s s' hstep)
    exact ⟨hs.1.remove _, hs.2.trans shrinks_remove⟩
  refine ⟨hkept.1, hkept.2, ?_⟩
  have hdone := @evictWhile_done _ (fun s ↦ cap s.policy ≤ size s) evict (fun s ↦ s.sessions.length)
    (fun s s' hstep ↦ length_evictAny_lt (hevict s s' hstep)) _ store le_rfl
  rw [← hkept.2.2]
  rcases hdone with hdone | hnone
  · exact not_le.mp (of_decide_eq_false hdone)
  · by_contra hfull
    exact hprogress left hkept.1 (not_lt.mp hfull) hnone

theorem Evictable.enforceUnconfirmedCap (h : store.Evictable) (peerId : DeviceId) :
    (store.enforceUnconfirmedCap peerId).Evictable ∧
      store.Shrinks (store.enforceUnconfirmedCap peerId) ∧
        ((store.enforceUnconfirmedCap peerId).unconfirmedIds peerId).length <
          store.policy.maxUnconfirmedPerPeer := by
  apply h.loop (·.maxUnconfirmedPerPeer) fun s ↦ (s.unconfirmedIds peerId).length
  · exact fun s s' hstep ↦ evictAny_of_evictOldestCreated hstep
  · intro s hs hfull
    rw [hs.indexed.length_unconfirmedIds] at hfull
    obtain ⟨t, ht, hunconfirmed⟩ := List.countP_pos_iff.mp (hs.positive.unconfirmed.trans hfull)
    apply evictOldestCreated_ne_none ht
    · rw [hs.indexed.unconfirmedIds_eq]
      exact List.mem_map_of_mem (List.mem_filter.mpr ⟨ht, hunconfirmed⟩)
    · simpa using (Bool.and_eq_true_iff.mp hunconfirmed).2

theorem Evictable.enforceSessionCap (h : store.Evictable) (peerId : DeviceId) :
    (store.enforceSessionCap peerId).Evictable ∧
      store.Shrinks (store.enforceSessionCap peerId) ∧
        ((store.enforceSessionCap peerId).idsOf peerId).length <
          store.policy.maxSessionsPerPeer := by
  apply h.loop (·.maxSessionsPerPeer) fun s ↦ (s.idsOf peerId).length
  · exact fun s s' hstep ↦ hstep
  · intro s hs hfull
    obtain ⟨id, hid⟩ := List.exists_mem_of_length_pos (hs.positive.perPeer.trans hfull)
    rw [hs.indexed.idsOf_eq] at hid ⊢
    obtain ⟨t, ht, -, rfl⟩ := mem_recordedIds.mp hid
    exact evictAny_ne_none ht hid

theorem Evictable.enforceGlobalCap (h : store.Evictable) :
    store.enforceGlobalCap.Evictable ∧ store.Shrinks store.enforceGlobalCap ∧
      store.enforceGlobalCap.sessions.length < store.policy.globalSessionCap := by
  apply h.loop (·.globalSessionCap) fun s ↦ s.sessions.length
  · exact fun s s' hstep ↦ hstep
  · intro s hs hfull
    obtain ⟨t, ht⟩ := List.exists_mem_of_length_pos (hs.positive.total.trans hfull)
    exact evictAny_ne_none ht (List.mem_map_of_mem ht)

/-! ## What a step keeps -/

/-- The indexes agree and no cap is exceeded. -/
structure WithinCaps (policy : SessionPolicy) (store : SessionStore) : Prop where
  policy_eq : store.policy = policy
  indexed : store.Indexed
  perPeer : ∀ peerId, store.sessions.countP (isOf peerId) ≤ policy.maxSessionsPerPeer
  unconfirmed : ∀ peerId,
    store.sessions.countP (isUnconfirmedOf peerId) ≤ policy.maxUnconfirmedPerPeer
  total : store.sessions.length ≤ policy.globalSessionCap

variable {policy : SessionPolicy}

theorem withinCaps_new (policy : SessionPolicy) : (new policy).WithinCaps policy where
  policy_eq := rfl
  indexed := indexed_new policy
  perPeer _ := Nat.zero_le _
  unconfirmed _ := Nat.zero_le _
  total := Nat.zero_le _

theorem WithinCaps.evictable (h : store.WithinCaps policy) (hpositive : policy.Positive) :
    store.Evictable := ⟨h.indexed, h.policy_eq ▸ hpositive⟩

theorem WithinCaps.shrink (h : store.WithinCaps policy) (hindexed : store'.Indexed)
    (hshrinks : store.Shrinks store') : store'.WithinCaps policy where
  policy_eq := hshrinks.2.trans h.policy_eq
  indexed := hindexed
  perPeer peerId := (hshrinks.countP_le _).trans (h.perPeer peerId)
  unconfirmed peerId := (hshrinks.countP_le _).trans (h.unconfirmed peerId)
  total := hshrinks.1.length_le.trans h.total

theorem WithinCaps.update (h : store.WithinCaps policy) {s : PeerSession}
    (hfind : store.getBySessionId session.sessionId = some s) (hpeer : session.peerId = s.peerId)
    (hconfirmed : s.confirmed = true → session.confirmed = true) :
    (store.update session).WithinCaps policy where
  policy_eq := h.policy_eq
  indexed := h.indexed.update hfind hpeer
  perPeer peerId := by
    refine (Table.countP_set_le hfind ?_).trans (h.perPeer peerId)
    rw [isOf, isOf, hpeer]
    exact id
  unconfirmed peerId := by
    refine (Table.countP_set_le hfind ?_).trans (h.unconfirmed peerId)
    rw [isUnconfirmedOf, isUnconfirmedOf, hpeer]
    cases hs : s.confirmed with
    | false => exact fun hsession ↦ by simpa using (Bool.and_eq_true_iff.mp hsession).1
    | true =>
        rw [hconfirmed hs]
        exact id
  total := by
    have hlength := congrArg List.length (map_update hfind (f := fun _ ↦ ()) rfl)
    rw [List.length_map, List.length_map] at hlength
    rw [hlength]
    exact h.total

theorem makeRoom_eq : store.makeRoom peerId now =
    (((store.pruneExpired now).enforceUnconfirmedCap peerId).enforceSessionCap
      peerId).enforceGlobalCap := rfl

/-- After the clean-up there is room for one more session of the peer. -/
theorem WithinCaps.makeRoom (h : store.WithinCaps policy) (hpositive : policy.Positive)
    (peerId : DeviceId) (now : ℚ) :
    (store.makeRoom peerId now).WithinCaps policy ∧
      (store.makeRoom peerId now).sessions.countP (isOf peerId) < policy.maxSessionsPerPeer ∧
        (store.makeRoom peerId now).sessions.countP (isUnconfirmedOf peerId) <
            policy.maxUnconfirmedPerPeer ∧
          (store.makeRoom peerId now).sessions.length < policy.globalSessionCap := by
  have hpruned := (h.evictable hpositive).pruneExpired now
  obtain ⟨hleft, hshrinks, hunconfirmed⟩ := hpruned.enforceUnconfirmedCap peerId
  obtain ⟨hleft', hshrinks', hpeer⟩ := hleft.enforceSessionCap peerId
  obtain ⟨hroom, hshrinks'', htotal⟩ := hleft'.enforceGlobalCap
  have hpolicy : (store.pruneExpired now).policy = policy :=
    (shrinks_foldl_remove _).2.trans h.policy_eq
  rw [hleft.indexed.length_unconfirmedIds, hpolicy] at hunconfirmed
  rw [hleft'.indexed.length_idsOf, hshrinks.2, hpolicy] at hpeer
  rw [hshrinks'.2, hshrinks.2, hpolicy] at htotal
  have hkept : store.Shrinks (store.makeRoom peerId now) := shrinks_makeRoom
  rw [makeRoom_eq] at hkept ⊢
  refine ⟨h.shrink hroom.indexed hkept, ?_, ?_, htotal⟩
  · exact (hshrinks''.countP_le _).trans_lt hpeer
  · exact (hshrinks''.countP_le _).trans_lt ((hshrinks'.countP_le _).trans_lt hunconfirmed)

/-- `put` has two reasons to raise, and the lack of a session to evict is none. -/
theorem WithinCaps.put_eq_ok_iff (h : store.WithinCaps policy) (hpositive : policy.Positive) :
    put session now store = .ok ⟨⟩ store' ↔
      session.sessionId.length = sessionIdSize ∧ store.getBySessionId session.sessionId = none ∧
        (store.makeRoom session.peerId now).record session = store' := by
  have hroom := (h.makeRoom hpositive session.peerId now).2.2.2
  rw [put_eq_ok, h.policy_eq]
  exact and_congr_right fun _ ↦ and_congr_right fun _ ↦ and_iff_right hroom

theorem WithinCaps.put_eq_error_iff (h : store.WithinCaps policy) (hpositive : policy.Positive) :
    (∃ e, put session now store = .error e store') ↔
      (session.sessionId.length ≠ sessionIdSize ∨
        (store.getBySessionId session.sessionId).isSome) ∧ store' = store := by
  have hroom := (h.makeRoom hpositive session.peerId now).2.2.2
  have hpolicy : (store.makeRoom session.peerId now).policy = policy :=
    shrinks_makeRoom.2.trans h.policy_eq
  have hunchanged {e : SessionStoreError} {p : Prop} (hp : p) :
      (∃ e', (.error e store : EStateM.Result SessionStoreError SessionStore PUnit) =
        .error e' store') ↔ p ∧ store' = store := by
    constructor
    · rintro ⟨e', he⟩
      cases he
      exact ⟨hp, rfl⟩
    · rintro ⟨-, rfl⟩
      exact ⟨e, rfl⟩
  unfold put
  split_ifs with hlength hcollision
  · exact hunchanged (.inl hlength)
  · exact hunchanged (.inr hcollision)
  · dsimp only
    rw [hpolicy, if_neg (not_le.mpr hroom)]
    constructor
    · rintro ⟨e, he⟩
      cases he
    · rintro ⟨hwrong | htaken, -⟩
      · exact absurd hwrong hlength
      · exact absurd htaken hcollision

theorem WithinCaps.put (h : store.WithinCaps policy) (hpositive : policy.Positive)
    (session : PeerSession) (now : ℚ) :
    (stateOf (put session now store)).WithinCaps policy := by
  cases hput : SessionStore.put session now store with
  | error e store' =>
      obtain ⟨-, rfl⟩ := (h.put_eq_error_iff hpositive).mp ⟨e, hput⟩
      exact h
  | ok _ store' =>
      obtain ⟨hroom, hpeer, hunconfirmed, htotal⟩ := h.makeRoom hpositive session.peerId now
      have hsessions := sessions_put hput
      have hcount (p : PeerSession → Bool) : store'.sessions.countP p =
          (store.makeRoom session.peerId now).sessions.countP p + if p session then 1 else 0 := by
        rw [hsessions, List.countP_append, List.countP_singleton]
      refine ⟨?_, indexed_put h.indexed hput, fun peerId ↦ ?_, fun peerId ↦ ?_, ?_⟩
      · obtain ⟨-, -, -, rfl⟩ := put_eq_ok.mp hput
        simp only [stateOf, SessionStore.record]
        exact hroom.policy_eq
      · simp only [stateOf, hcount]
        split_ifs with hof
        · obtain rfl : session.peerId = peerId := of_decide_eq_true hof
          exact Nat.succ_le_of_lt hpeer
        · rw [Nat.add_zero]
          exact hroom.perPeer peerId
      · simp only [stateOf, hcount]
        split_ifs with hof
        · obtain rfl : session.peerId = peerId :=
            of_decide_eq_true (Bool.and_eq_true_iff.mp hof).1
          exact Nat.succ_le_of_lt hunconfirmed
        · rw [Nat.add_zero]
          exact hroom.unconfirmed peerId
      · simp only [stateOf, hsessions, List.length_append, List.length_singleton]
        exact Nat.succ_le_of_lt htotal

theorem WithinCaps.step (h : store.WithinCaps policy) (hpositive : policy.Positive)
    (call : StoreCall) : (store.step call).WithinCaps policy := by
  cases call with
  | put session now => exact h.put hpositive session now
  | confirm sessionId =>
      simp only [SessionStore.step, SessionStore.confirm]
      cases hfind : store.getBySessionId sessionId with
      | none => exact h
      | some s =>
          obtain rfl := (getBySessionId_eq_some.mp hfind).2
          have hupdate : (store.update { s with confirmed := true }).WithinCaps policy :=
            h.update hfind rfl fun _ ↦ rfl
          exact hupdate
  | removeByPeer peerId =>
      exact h.shrink (h.indexed.foldl_remove _) (shrinks_foldl_remove _)
  | pruneExpired now =>
      exact h.shrink (h.indexed.foldl_remove _) (shrinks_foldl_remove _)
  | change sessionId change =>
      simp only [SessionStore.step]
      cases hfind : store.getBySessionId sessionId with
      | none => exact h
      | some s =>
          obtain ⟨hpeer, hid, hconfirmed⟩ := s.peerId_change change
          obtain rfl := (getBySessionId_eq_some.mp hfind).2
          exact h.update (hid ▸ hfind) hpeer hconfirmed

/-- The store after a run of calls. -/
def afterCalls (policy : SessionPolicy) (calls : List StoreCall) : SessionStore :=
  calls.foldl step (new policy)

theorem withinCaps_afterCalls (hpositive : policy.Positive) (calls : List StoreCall) :
    (afterCalls policy calls).WithinCaps policy := by
  induction calls using List.reverseRecOn with
  | nil => exact withinCaps_new policy
  | append_singleton calls call ih =>
      rw [afterCalls, List.foldl_append]
      exact ih.step hpositive call

/-! ## What a store answers -/

/-- A session id is listed once, under the peer of the session that it names, and
no peer has an empty list. -/
structure IndexesAgree (store : SessionStore) : Prop where
  nodup : ∀ peerId, (store.idsOf peerId).Nodup
  listed : ∀ peerId sessionId, sessionId ∈ store.idsOf peerId ↔
    ∃ session, store.getBySessionId sessionId = some session ∧ session.peerId = peerId
  nonempty : ∀ peerId, store.byPeer.lookup peerId ≠ some []

theorem Indexed.indexesAgree (h : store.Indexed) : store.IndexesAgree where
  nodup peerId := by
    rw [h.idsOf_eq, recordedIds]
    exact store.bySessionId.nodup.sublist (List.filter_sublist.map _)
  listed peerId sessionId := by
    rw [h.idsOf_eq, mem_recordedIds]
    simp only [getBySessionId_eq_some]
    tauto
  nonempty peerId := by
    rw [h peerId, indexEntry]
    split_ifs with hids
    · exact Option.some_ne_none _ ∘ Eq.symm
    · exact fun heq ↦ hids (Option.some.inj heq)

theorem Indexed.sessions_removeByPeer (h : store.Indexed) (peerId : DeviceId) :
    (store.removeByPeer peerId).sessions = store.sessions.filter fun s ↦ s.peerId ≠ peerId := by
  rw [removeByPeer, sessions_foldl_remove]
  apply List.filter_congr
  intro s hs
  rw [decide_eq_decide, not_iff_not, h.idsOf_eq, mem_recordedIds]
  constructor
  · rintro ⟨t, ht, hpeer, hid⟩
    rw [← store.bySessionId.eq_of_mem ht hs hid, hpeer]
  · exact fun hpeer ↦ ⟨s, hs, hpeer, rfl⟩

/-- The sessions of other peers are untouched. -/
theorem Indexed.filter_removeByPeer (h : store.Indexed) {q : DeviceId} (hq : q ≠ peerId) :
    ((store.removeByPeer peerId).sessions.filter fun s ↦ s.peerId = q) =
      store.sessions.filter fun s ↦ s.peerId = q := by
  rw [h.sessions_removeByPeer, List.filter_filter]
  apply List.filter_congr
  intro s _
  rw [Bool.and_eq_decide, decide_eq_decide]
  simp only [decide_eq_true_iff]
  exact ⟨And.left, fun hs ↦ ⟨hs, fun hpeer ↦ hq (hs.symm.trans hpeer)⟩⟩

theorem Indexed.lookup_removeByPeer (h : store.Indexed) {q : DeviceId} (hq : q ≠ peerId) :
    (store.removeByPeer peerId).byPeer.lookup q = store.byPeer.lookup q := by
  have hsame : (store.removeByPeer peerId).recordedIds q = store.recordedIds q := by
    rw [recordedIds, recordedIds, h.filter_removeByPeer hq]
  have hindexed : (store.removeByPeer peerId).Indexed := h.foldl_remove _
  rw [hindexed q, hsame, h q]

theorem Indexed.sessionsForPeer_removeByPeer (h : store.Indexed) {q : DeviceId} (hq : q ≠ peerId) :
    (store.removeByPeer peerId).sessionsForPeer q = store.sessionsForPeer q := by
  have hleft : (store.removeByPeer peerId).Indexed := h.foldl_remove _
  rw [hleft.sessionsForPeer_eq, h.sessionsForPeer_eq, h.filter_removeByPeer hq]

/-- At all times the indexes agree, the caps are kept, every eviction loop ends
below its cap, and `put` and `remove_by_peer` do what they are for. -/
theorem store_invariants (hpositive : policy.Positive) (calls : List StoreCall) :
    let store := afterCalls policy calls
    store.IndexesAgree ∧
      (∀ peerId, (store.idsOf peerId).length ≤ policy.maxSessionsPerPeer ∧
        (store.unconfirmedIds peerId).length ≤ policy.maxUnconfirmedPerPeer) ∧
      store.sessions.length ≤ policy.globalSessionCap ∧
      (∀ peerId now,
        let pruned := store.pruneExpired now
        ((pruned.enforceUnconfirmedCap peerId).unconfirmedIds peerId).length <
            policy.maxUnconfirmedPerPeer ∧
          ((pruned.enforcePeerCaps peerId).idsOf peerId).length < policy.maxSessionsPerPeer ∧
            (pruned.enforcePeerCaps peerId).enforceGlobalCap.sessions.length <
              policy.globalSessionCap) ∧
      (∀ session now store',
        ((∃ e, put session now store = .error e store') ↔
          (session.sessionId.length ≠ sessionIdSize ∨
            (store.getBySessionId session.sessionId).isSome) ∧ store' = store) ∧
          (put session now store = .ok ⟨⟩ store' →
            store'.getBySessionId session.sessionId = some session)) ∧
      ∀ peerId, (∀ s ∈ (store.removeByPeer peerId).sessions, s.peerId ≠ peerId) ∧
        (store.removeByPeer peerId).idsOf peerId = [] ∧
          ∀ q ≠ peerId, (store.removeByPeer peerId).byPeer.lookup q = store.byPeer.lookup q ∧
            (store.removeByPeer peerId).sessionsForPeer q = store.sessionsForPeer q := by
  intro store
  have hcaps := withinCaps_afterCalls hpositive calls
  have hindexed : store.Indexed := hcaps.indexed
  refine ⟨hindexed.indexesAgree, fun peerId ↦ ⟨?_, ?_⟩, hcaps.total, fun peerId now ↦ ?_,
    fun session now store' ↦ ⟨hcaps.put_eq_error_iff hpositive, fun hput ↦ ?_⟩,
    fun peerId ↦ ⟨fun s hs ↦ ?_, ?_, fun q hq ↦
      ⟨hindexed.lookup_removeByPeer hq, hindexed.sessionsForPeer_removeByPeer hq⟩⟩⟩
  · rw [hindexed.length_idsOf]
    exact hcaps.perPeer peerId
  · rw [hindexed.length_unconfirmedIds]
    exact hcaps.unconfirmed peerId
  · have hpruned := (hcaps.evictable hpositive).pruneExpired now
    obtain ⟨hleft, hshrinks, hunconfirmed⟩ := hpruned.enforceUnconfirmedCap peerId
    obtain ⟨hleft', hshrinks', hpeer⟩ := hleft.enforceSessionCap peerId
    obtain ⟨-, -, htotal⟩ := hleft'.enforceGlobalCap
    have hpolicy : (store.pruneExpired now).policy = policy :=
      (shrinks_foldl_remove _).2.trans hcaps.policy_eq
    rw [hpolicy] at hunconfirmed
    rw [hshrinks.2, hpolicy] at hpeer
    rw [hshrinks'.2, hshrinks.2, hpolicy] at htotal
    exact ⟨hunconfirmed, hpeer, htotal⟩
  · obtain ⟨-, -, -, rfl⟩ := put_eq_ok.mp hput
    exact Table.find?_set_self
  · rw [hindexed.sessions_removeByPeer] at hs
    exact of_decide_eq_true (List.mem_filter.mp hs).2
  · have hleft : (store.removeByPeer peerId).Indexed := hindexed.foldl_remove _
    rw [hleft.idsOf_eq, recordedIds, hindexed.sessions_removeByPeer, List.filter_filter]
    simp

/-- The defaults let sessions in. -/
theorem positive_default : ({} : SessionPolicy).Positive := by
  constructor <;> decide

theorem store_invariants_default : ∃ calls,
    ((afterCalls {} calls).idsOf "bob").length = 4 ∧
      ((afterCalls {} calls).idsOf "bob").length ≤ 8 := by
  let session (n : UInt8) : PeerSession := .start
    ⟨"bob", [n, 0, 0, 0, 0, 0, 0, 0], .responder, [], [], 9000, 9001, false⟩ n.toNat
  refine ⟨[1, 2, 3, 4, 5].map fun n ↦ .put (session n) 5, by decide +kernel, ?_⟩
  exact ((store_invariants positive_default _).2.1 "bob").1

end SessionStore
end SecureSync
