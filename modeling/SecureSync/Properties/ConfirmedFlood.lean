import SecureSync.Properties.StoreInvariants
import SecureSync.Library.Machines

/-!
# Floods of unconfirmed sessions

What a confirmed session survives.  Unconfirmed sessions go first, but a peer, or
the whole store, may hold nothing but confirmed ones.
-/

namespace SecureSync

open Raising Shrinking Machines

abbrev UnconfirmedSession : Type := { session : PeerSession // session.confirmed = false }

namespace SessionStore

variable {store left left' : SessionStore} {session : UnconfirmedSession} {peerId : DeviceId}
  {now : ℚ}

def confirmedSessions (store : SessionStore) : Set PeerSession :=
  {s | s ∈ store.sessions ∧ s.confirmed = true}

def isConfirmedOf (peerId : DeviceId) (session : PeerSession) : Bool :=
  session.peerId = peerId && session.confirmed

/-- An unconfirmed session is put, whether or not that raises. -/
def flood (now : ℚ) (store : SessionStore) (session : UnconfirmedSession) : SessionStore :=
  stateOf (put session.val now store)

/-- `put` refuses the session, or no confirmed session has expired and neither the
peer nor the store is full of confirmed ones. -/
def Spares (now : ℚ) (store : SessionStore) (session : UnconfirmedSession) : Prop :=
  (session.val.sessionId.length ≠ sessionIdSize ∨
      (store.getBySessionId session.val.sessionId).isSome = true) ∨
    (∀ s ∈ store.sessions, s.confirmed = true → store.isExpired s now = false) ∧
      store.sessions.countP (isConfirmedOf session.val.peerId) < store.policy.maxSessionsPerPeer ∧
        store.sessions.countP PeerSession.confirmed < store.policy.globalSessionCap

instance (now : ℚ) (store : SessionStore) (session : UnconfirmedSession) :
    Decidable (store.Spares now session) := instDecidableOr

/-! ## Evictions that spare the confirmed sessions -/

structure Sparing (store left : SessionStore) : Prop where
  indexed : left.Indexed
  shrinks : store.Shrinks left
  kept : store.confirmedSessions ⊆ left.confirmedSessions

theorem Sparing.evictOldestCreated {ids : List Bytes} (h : store.Sparing left)
    (hevict : left.evictOldestCreated ids = some left') : store.Sparing left' := by
  obtain ⟨oldest, holdest, hunconfirmed, rfl⟩ := exists_of_evictOldestCreated hevict
  refine ⟨h.indexed.remove _, h.shrinks.trans shrinks_remove, ?_⟩
  intro s hs
  obtain ⟨hmem, hconfirmed⟩ := h.kept hs
  refine ⟨?_, hconfirmed⟩
  rw [sessions_remove, List.mem_filter, decide_eq_true_iff]
  refine ⟨hmem, fun hid ↦ ?_⟩
  rw [left.bySessionId.eq_of_mem hmem holdest hid, hunconfirmed] at hconfirmed
  cases hconfirmed

/-- Among more candidates than confirmed ones there is an unconfirmed one to evict. -/
theorem Sparing.evictAny {ids : List Bytes} {p q : PeerSession → Bool} (h : store.Sparing left)
    (hids : ∀ s ∈ left.sessions, p s = true → s.sessionId ∈ ids)
    (hq : ∀ s, p s = true → s.confirmed = true → q s = true)
    (hcount : store.sessions.countP q < left.sessions.countP p)
    (hevict : left.evictAny ids = some left') : store.Sparing left' := by
  have hfewer : left.sessions.countP q < left.sessions.countP p :=
    (h.shrinks.countP_le q).trans_lt hcount
  obtain ⟨s, hs, hp, hunconfirmed⟩ : ∃ s ∈ left.sessions, p s = true ∧ s.confirmed = false := by
    by_contra hnone
    push Not at hnone
    apply hfewer.not_ge
    apply List.countP_mono_left
    intro s hs hp
    exact hq s hp (by simpa using hnone s hs hp)
  obtain ⟨next, hnext⟩ := Option.ne_none_iff_exists'.mp
    (evictOldestCreated_ne_none hs (hids s hs hp) hunconfirmed)
  rw [evictAny_of_evictOldestCreated hnext] at hevict
  exact h.evictOldestCreated (hnext.trans hevict)

theorem Sparing.enforceUnconfirmedCap (h : store.Sparing left) :
    store.Sparing (left.enforceUnconfirmedCap peerId) :=
  evictWhile_induction (fun _ _ hs hevict ↦ hs.evictOldestCreated hevict) _ h

theorem Sparing.enforceSessionCap (h : store.Sparing left)
    (hcount : store.sessions.countP (isConfirmedOf peerId) < store.policy.maxSessionsPerPeer) :
    store.Sparing (left.enforceSessionCap peerId) := by
  refine evictWhile_induction_of_full (fun s s' hfull hs hevict ↦ ?_) _ h
  have hcap : s.policy.maxSessionsPerPeer ≤ (s.idsOf peerId).length := of_decide_eq_true hfull
  rw [hs.shrinks.2, hs.indexed.length_idsOf] at hcap
  apply hs.evictAny (p := isOf peerId) ?_ ?_ (hcount.trans_le hcap) hevict
  · intro t ht hof
    rw [hs.indexed.idsOf_eq, mem_recordedIds]
    exact ⟨t, ht, of_decide_eq_true hof, rfl⟩
  · intro t hof hconfirmed
    exact Bool.and_eq_true_iff.mpr ⟨hof, hconfirmed⟩

theorem Sparing.enforceGlobalCap (h : store.Sparing left)
    (hcount : store.sessions.countP PeerSession.confirmed < store.policy.globalSessionCap) :
    store.Sparing left.enforceGlobalCap := by
  refine evictWhile_induction_of_full (fun s s' hfull hs hevict ↦ ?_) _ h
  have hcap : s.policy.globalSessionCap ≤ s.sessions.length := of_decide_eq_true hfull
  rw [hs.shrinks.2, ← List.countP_true] at hcap
  apply hs.evictAny (p := fun _ ↦ true) ?_ (fun _ _ hconfirmed ↦ hconfirmed)
    (hcount.trans_le hcap) hevict
  exact fun t ht _ ↦ List.mem_map_of_mem ht

theorem Indexed.sparing_pruneExpired (h : store.Indexed)
    (hlive : ∀ s ∈ store.sessions, s.confirmed = true → store.isExpired s now = false) :
    store.Sparing (store.pruneExpired now) where
  indexed := h.foldl_remove _
  shrinks := shrinks_foldl_remove _
  kept := by
    rintro s ⟨hs, hconfirmed⟩
    refine ⟨?_, hconfirmed⟩
    rw [sessions_pruneExpired, List.mem_filter, hlive s hs hconfirmed]
    exact ⟨hs, rfl⟩

/-! ## One put -/

theorem confirmedSessions_flood_subset :
    (store.flood now session).confirmedSessions ⊆ store.confirmedSessions := by
  rintro s ⟨hs, hconfirmed⟩
  refine ⟨?_, hconfirmed⟩
  unfold flood at hs
  cases hput : put session.val now store with
  | error e store' =>
      rw [hput] at hs
      exact (shrinks_put_error hput).1.subset hs
  | ok u store' =>
      rw [hput, stateOf, sessions_put hput, List.mem_append, List.mem_singleton] at hs
      rcases hs with hs | rfl
      · exact shrinks_makeRoom.1.subset hs
      · rw [session.property] at hconfirmed
        cases hconfirmed

theorem countP_le_of_kept {p q : PeerSession → Bool}
    (hkept : store.confirmedSessions ⊆ left.confirmedSessions)
    (hp : ∀ s, p s = true → s.confirmed = true ∧ q s = true) :
    store.sessions.countP p ≤ left.sessions.countP q := by
  rw [List.countP_eq_length_filter, List.countP_eq_length_filter]
  have hnodup : (store.sessions.filter p).Nodup := store.bySessionId.nodup.of_map.filter _
  refine (hnodup.subperm fun s hs ↦ ?_).length_le
  obtain ⟨hmem, hps⟩ := List.mem_filter.mp hs
  obtain ⟨hconfirmed, hqs⟩ := hp s hps
  exact List.mem_filter.mpr ⟨(hkept ⟨hmem, hconfirmed⟩).1, hqs⟩

variable {policy : SessionPolicy}

theorem WithinCaps.flood_eq (h : store.WithinCaps policy) (hpositive : policy.Positive) (now : ℚ)
    (hlength : session.val.sessionId.length = sessionIdSize)
    (hfresh : store.getBySessionId session.val.sessionId = none) :
    (store.flood now session).sessions =
      (store.makeRoom session.val.peerId now).sessions ++ [session.val] := by
  have hput : SessionStore.put session.val now store =
      .ok ⟨⟩ ((store.makeRoom session.val.peerId now).record session.val) :=
    (h.put_eq_ok_iff hpositive).mpr ⟨hlength, hfresh, rfl⟩
  rw [flood, hput, stateOf, sessions_put hput]

/-- Which puts spare all confirmed sessions. -/
theorem WithinCaps.kept_iff_spares (h : store.WithinCaps policy) (hpositive : policy.Positive) :
    store.confirmedSessions ⊆ (store.flood now session).confirmedSessions ↔
      store.Spares now session := by
  by_cases hrefused : session.val.sessionId.length ≠ sessionIdSize ∨
      (store.getBySessionId session.val.sessionId).isSome = true
  · have hput : ∃ e, SessionStore.put session.val now store = .error e store :=
      (h.put_eq_error_iff hpositive).mpr ⟨hrefused, rfl⟩
    obtain ⟨e, he⟩ := hput
    rw [flood, he, stateOf]
    exact iff_of_true subset_rfl (.inl hrefused)
  rw [Spares, or_iff_right hrefused]
  push Not at hrefused
  have hfresh := Option.not_isSome_iff_eq_none.mp hrefused.2
  have hsessions := h.flood_eq hpositive now hrefused.1 hfresh
  have hkept : store.confirmedSessions ⊆ (store.flood now session).confirmedSessions ↔
      store.confirmedSessions ⊆
        (store.makeRoom session.val.peerId now).confirmedSessions := by
    constructor
    · intro hsubset s hs
      obtain ⟨hmem, hconfirmed⟩ := hsubset hs
      rw [hsessions, List.mem_append, List.mem_singleton] at hmem
      rcases hmem with hmem | rfl
      · exact ⟨hmem, hconfirmed⟩
      · rw [session.property] at hconfirmed
        cases hconfirmed
    · intro hsubset s hs
      refine ⟨?_, hs.2⟩
      rw [hsessions]
      exact List.mem_append_left _ (hsubset hs).1
  rw [hkept]
  constructor
  · intro hsubset
    obtain ⟨-, hpeer, -, htotal⟩ := h.makeRoom hpositive session.val.peerId now
    refine ⟨fun s hs hconfirmed ↦ isExpired_of_mem_makeRoom (hsubset ⟨hs, hconfirmed⟩).1, ?_, ?_⟩
    · rw [h.policy_eq]
      refine (countP_le_of_kept hsubset fun s hs ↦ ?_).trans_lt hpeer
      exact ⟨(Bool.and_eq_true_iff.mp hs).2, (Bool.and_eq_true_iff.mp hs).1⟩
    · rw [← List.countP_true] at htotal
      rw [h.policy_eq]
      exact (countP_le_of_kept hsubset fun s hs ↦ ⟨hs, rfl⟩).trans_lt htotal
  · rintro ⟨hlive, hpeer, htotal⟩
    exact ((h.indexed.sparing_pruneExpired hlive).enforceUnconfirmedCap.enforceSessionCap
      hpeer).enforceGlobalCap htotal |>.kept

/-- A flood displaces no confirmed session if and only if each of its puts spares
them. -/
theorem flood_displaces_none_iff (hpositive : policy.Positive) (calls : List StoreCall) (now : ℚ)
    (sessions : List UnconfirmedSession) :
    let store := afterCalls policy calls
    (∀ s ∈ store.sessions, s.confirmed = true → s ∈ (sessions.foldl (flood now) store).sessions) ↔
      Meets (flood now) (Spares now) store sessions := by
  intro store
  have hkept : (∀ s ∈ store.sessions, s.confirmed = true →
      s ∈ (sessions.foldl (flood now) store).sessions) ↔
        store.confirmedSessions ≤ (sessions.foldl (flood now) store).confirmedSessions := by
    constructor
    · exact fun h s hs ↦ ⟨h s hs.1 hs.2, hs.2⟩
    · exact fun h s hs hconfirmed ↦ (h ⟨hs, hconfirmed⟩).1
  have hcaps : store.WithinCaps policy := withinCaps_afterCalls hpositive calls
  rw [hkept, le_foldl_iff_meets fun _ _ ↦ confirmedSessions_flood_subset]
  exact meets_congr_of_invariant (fun s session hs ↦ hs.put hpositive session.val now)
    (fun s session hs ↦ hs.kept_iff_spares hpositive) hcaps

def floodSession (sessionId : UInt8) (confirmed : Bool) : PeerSession :=
  .start ⟨"bob", [sessionId, 0, 0, 0, 0, 0, 0, 0], .responder, [], [], 9000, 9001, confirmed⟩ 0

/-- Eight confirmed sessions with Bob, the most that the store keeps. -/
def eightConfirmed : SessionStore :=
  afterCalls {} ([1, 2, 3, 4, 5, 6, 7, 8].map fun n ↦ .put (floodSession n true) 0)

/-- One unconfirmed session more, and the first of them is gone. -/
theorem confirmed_session_displaced :
    floodSession 1 true ∈ eightConfirmed.sessions ∧ (floodSession 1 true).confirmed = true ∧
      eightConfirmed.isExpired (floodSession 1 true) 0 = false ∧
        floodSession 1 true ∉ ([⟨floodSession 9 false, rfl⟩].foldl (flood 0)
          eightConfirmed).sessions := by
  decide +kernel

/-- Any number of sessions on top of seven. -/
theorem flood_displaces_none_seven :
    floodSession 1 true ∈
      (([11, 12, 13, 14, 15, 16].map fun n ↦ ⟨floodSession n false, rfl⟩).foldl (flood 0)
        (afterCalls {}
          ([1, 2, 3, 4, 5, 6, 7].map fun n ↦ .put (floodSession n true) 0))).sessions :=
  (flood_displaces_none_iff positive_default _ 0 _).mpr (by decide +kernel) _ (by decide +kernel)
    rfl

end SessionStore
end SecureSync
