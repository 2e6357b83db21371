import SecureSync.Channel.Records

/-!
# What becomes of recorded sessions

No session object is lost, and every store lists its sessions by peer.  Without
`confirm_session`, a session is confirmed when it is recorded or when it accepts
a frame.
-/

namespace SecureSync

open SecureChannel

variable {δ π : Type} {net : Network δ π} {w w' : World δ π} {d : δ}

namespace World

def AllFound (w : World δ π) : Prop :=
  ∀ d s, (d, s) ∈ w.recorded → (w.find d s.sessionId).isSome

theorem AllFound.wrote (h : w.AllFound) {s : PeerSession} (hwrote : w.Wrote w' d s)
    (hrecorded : ∀ p ∈ w'.recorded, p ∈ w.recorded ∨ p = (d, s)) : w'.AllFound := by
  intro d₁ s₁ hs₁
  rcases hrecorded _ hs₁ with hs₁ | heq
  · exact hwrote.isSome (h d₁ s₁ hs₁)
  · obtain ⟨rfl, rfl⟩ := Prod.mk.inj heq
    rw [hwrote.self]
    rfl

theorem AllFound.step [DecidableEq δ] (h : w.AllFound) (act : Act δ π) :
    (net.step w act).AllFound := by
  cases net.effect_step w act with
  | quiet hfind hsame =>
      intro d s hs
      rw [hfind]
      exact h d s (hsame.recorded ▸ hs)
  | changed d s s' hfind hwrote hterms hcounter hwindow hactivity hconfirmed hsame =>
      exact h.wrote hwrote fun p hp ↦ .inl (hsame.recorded ▸ hp)
  | sent d s s' e header hseal hfind hwrote hterms hcounter hwindow hactivity hconfirmed hcall
      hdevice hid hcount hframe hsame hsent =>
      exact h.wrote hwrote fun p hp ↦ .inl (hsame.recorded ▸ hp)
  | opened d s packet counter frame clock header encrypted aad framed hdeliver hauthentic hwrote
      hsame hopened =>
      exact h.wrote hwrote fun p hp ↦ .inl (hsame.recorded ▸ hp)
  | recorded d terms now hput hwrote hsame hrecorded =>
      refine h.wrote hwrote fun p hp ↦ ?_
      rw [hrecorded] at hp
      exact (List.mem_append.mp hp).imp_right List.mem_singleton.mp

/-! ## Sessions by peer -/

def AllIndexed (w : World δ π) : Prop := ∀ d, (w.endpoints d).store.Indexed

theorem AllIndexed.setEndpoint [DecidableEq δ] (h : w.AllIndexed) {e : Endpoint}
    (he : e.store.Indexed) : (w.setEndpoint d e).AllIndexed := by
  intro d'
  by_cases hd : d' = d
  · subst hd
    rwa [endpoints_setEndpoint_self]
  · rw [endpoints_setEndpoint_of_ne w e hd]
    exact h d'

theorem indexed_write {e : Endpoint} {s s' : PeerSession} (h : e.store.Indexed)
    (hfind : e.find s.sessionId = some s) (hterms : s.SameTerms s') :
    (e.write s').store.Indexed := by
  unfold Endpoint.write
  cases hstore : e.store.getBySessionId s'.sessionId with
  | none => exact h
  | some s₁ =>
      have hsame : e.find s.sessionId = some s₁ :=
        Endpoint.find_of_store (hterms.sessionId ▸ hstore)
      obtain rfl := Option.some.inj (hfind.symm.trans hsame)
      exact h.update hstore hterms.peerId

theorem AllIndexed.step [DecidableEq δ] (h : w.AllIndexed) (act : Act δ π) :
    (net.step w act).AllIndexed := by
  cases act with
  | «seal» d sessionId packetType payload clock =>
      simp only [Network.step]
      cases hfind : w.find d sessionId with
      | none => exact h
      | some s =>
          obtain rfl := Network.find_sessionId hfind
          exact h.setEndpoint (indexed_write (h d) hfind (net.sameTerms_seal ..))
  | deliver d frame clock =>
      simp only [Network.step]
      cases hopen : (net.channel d).open frame clock (w.endpoints d).store with
      | error e store =>
          cases open_error hopen
          exact h.setEndpoint (h d)
      | ok result store =>
          obtain ⟨packet, session⟩ := result
          obtain ⟨s, counter, hauth, rfl, rfl⟩ := open_eq_ok.mp hopen
          obtain ⟨header, encrypted, aad, framed, hauthentic⟩ := authenticate_eq_ok.mp hauth
          have hterms := SecureChannel.sameTerms_received s counter clock
          refine h.setEndpoint ((h d).update ?_ hterms.peerId)
          rw [hterms.sessionId, (SessionStore.getBySessionId_eq_some.mp hauthentic.session_eq).2,
            hauthentic.session_eq]
  | put d terms now =>
      simp only [Network.step]
      cases hput : SessionStore.put (.start terms now) now (w.endpoints d).store with
      | error e store => exact h.setEndpoint (SessionStore.indexed_put_error (h d) hput)
      | ok _ store => exact h.setEndpoint (SessionStore.indexed_put (h d) hput)
  | confirm d sessionId =>
      refine h.setEndpoint ?_
      simp only [SessionStore.confirm]
      cases hfind : (w.endpoints d).store.getBySessionId sessionId with
      | none => exact h d
      | some s =>
          obtain rfl := (SessionStore.getBySessionId_eq_some.mp hfind).2
          exact @SessionStore.Indexed.update _ { s with confirmed := true } s (h d) hfind rfl
  | forget d sessionIds => exact h.setEndpoint ((h d).foldl_remove sessionIds)

/-! ## Confirmation -/

/-- Every confirmed session was recorded as confirmed or has accepted a frame. -/
def ConfirmedByUse (w : World δ π) : Prop :=
  ∀ d id s, w.find d id = some s → s.confirmed = true →
    (∃ s₀, (d, s₀) ∈ w.recorded ∧ s₀.sessionId = id ∧ s₀.confirmed = true) ∨
      ∃ o ∈ w.opened, o.device = d ∧ o.sessionId = id

theorem ConfirmedByUse.mono (h : w.ConfirmedByUse) (hrecorded : w.recorded <+: w'.recorded)
    (hopened : w.opened <+: w'.opened) {id : Bytes} {s : PeerSession}
    (hfind : w.find d id = some s) (hs : s.confirmed = true) :
    (∃ s₀, (d, s₀) ∈ w'.recorded ∧ s₀.sessionId = id ∧ s₀.confirmed = true) ∨
      ∃ o ∈ w'.opened, o.device = d ∧ o.sessionId = id := by
  rcases h d id s hfind hs with ⟨s₀, hs₀, hfound⟩ | ⟨o, ho, hfound⟩
  · exact .inl ⟨s₀, hrecorded.subset hs₀, hfound⟩
  · exact .inr ⟨o, hopened.subset ho, hfound⟩

theorem ConfirmedByUse.wrote (h : w.ConfirmedByUse) (hrecorded : w.recorded <+: w'.recorded)
    (hopened : w.opened <+: w'.opened) {s' : PeerSession} (hwrote : w.Wrote w' d s')
    (hs' : s'.confirmed = true → (∃ s₀, (d, s₀) ∈ w'.recorded ∧ s₀.sessionId = s'.sessionId ∧
        s₀.confirmed = true) ∨ ∃ o ∈ w'.opened, o.device = d ∧ o.sessionId = s'.sessionId) :
    w'.ConfirmedByUse := by
  intro d₁ id s hfind hs
  rcases hwrote.find_cases hfind with ⟨rfl, rfl, rfl⟩ | ⟨-, hfind⟩
  · exact hs' hs
  · exact h.mono hrecorded hopened hfind hs

theorem ConfirmedByUse.step [DecidableEq δ] (h : w.ConfirmedByUse) {act : Act δ π}
    (hact : ∀ d id, act ≠ .confirm d id) : (net.step w act).ConfirmedByUse := by
  have hrec := @recorded_step _ _ net w _ act
  have hops := @opened_step _ _ net w _ act
  cases net.effect_step w act with
  | quiet hfind hsame =>
      exact fun d id s hs hconfirmed ↦ h.mono hrec hops (hfind d id ▸ hs) hconfirmed
  | changed d s s' hfind hwrote hterms hcounter hwindow hactivity hconfirmed hsame =>
      refine h.wrote hrec hops hwrote fun hs' ↦ ?_
      rcases hconfirmed with hconfirmed | hconfirm
      · rw [hterms.sessionId]
        exact h.mono hrec hops hfind (hconfirmed.symm.trans hs')
      · exact absurd hconfirm (hact d s.sessionId)
  | sent d s s' e header hseal hfind hwrote hterms hcounter hwindow hactivity hconfirmed hcall
      hdevice hid hcount hframe hsame hsent =>
      refine h.wrote hrec hops hwrote fun hs' ↦ ?_
      rw [hterms.sessionId]
      exact h.mono hrec hops hfind (hconfirmed.symm.trans hs')
  | opened d s packet counter frame clock header encrypted aad framed hdeliver hauthentic hwrote
      hsame hopened =>
      refine h.wrote hrec hops hwrote fun _ ↦ .inr ?_
      rw [hopened]
      exact ⟨_, List.mem_append_right _ (List.mem_singleton_self _), rfl,
        (SecureChannel.sameTerms_received s counter clock).sessionId.symm⟩
  | recorded d terms now hput hwrote hsame hrecorded =>
      refine h.wrote hrec hops hwrote fun hs' ↦ .inl ⟨.start terms now, ?_, rfl, hs'⟩
      rw [hrecorded]
      exact List.mem_append_right _ (List.mem_singleton_self _)

end World
end SecureSync
