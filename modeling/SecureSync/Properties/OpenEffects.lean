import SecureSync.Channel.Lifecycle
import SecureSync.Properties.ChannelAuthenticity

/-!
# What opening a frame changes

A frame that is refused changes nothing.  One that is accepted changes one
session, and a responder's session is confirmed by such a frame only.
-/

namespace SecureSync

open Raising KeyedTable SlidingWindow SecureChannel

variable {δ π : Type} {channel : SecureChannel π} {store store' : SessionStore} {frame : Bytes}
  {clock : ChannelClock} {packet : Packet π} {session : PeerSession}

/-- Two states of one session object, which differ in what receiving may change. -/
structure PeerSession.Received (s s' : PeerSession) : Prop where
  eq : s' = { s with
    receiveWindow := s'.receiveWindow
    lastActivity := s'.lastActivity
    confirmed := s'.confirmed }
  confirmed : s.role = .initiator → s'.confirmed = s.confirmed

theorem SecureChannel.received_received (s : PeerSession) (counter : ℕ) (clock : ChannelClock) :
    s.Received (received s counter clock) := by
  unfold received afterAccept
  dsimp only
  split_ifs with hrole
  · refine ⟨rfl, fun hinitiator ↦ ?_⟩
    rw [show s.role = .responder from hrole] at hinitiator
    cases hinitiator
  · exact ⟨rfl, fun _ ↦ rfl⟩

/-- The window is one that `make` and `accept` can have built. -/
def PeerSession.WindowTracks (s : PeerSession) : Prop := ∃ a, s.receiveWindow.Tracks a

/-- Accepting a counter is never without effect. -/
theorem AntiReplayWindow.Tracks.advance_ne {w : AntiReplayWindow} {a : Window} {c : ℤ}
    (h : w.Tracks a) (hadmits : a.Admits c) : w.advance c ≠ w := by
  intro hsame
  have htracks := h.advance hadmits
  rw [hsame] at htracks
  have haccept := h.wouldAccept_iff.mpr hadmits
  exact Window.not_admits_of_mem ((a.mem_record_seen c).mpr (.inl rfl))
    (htracks.wouldAccept_iff.mp haccept)

/-- `open` writes the session under which the frame is accepted, and no other. -/
theorem SecureChannel.open_writes
    (h : channel.open frame clock store = .ok (packet, session) store') :
    store' = store.update session ∧ ∃ s, store.getBySessionId session.sessionId = some s ∧
      s.Received session ∧
        (s.WindowTracks → session.receiveWindow ≠ s.receiveWindow) := by
  obtain ⟨s, counter, hauth, rfl, rfl⟩ := open_eq_ok.mp h
  obtain ⟨header, encrypted, aad, framed, hauthentic⟩ := authenticate_eq_ok.mp hauth
  have hterms := SecureChannel.sameTerms_received s counter clock
  have hid := (SessionStore.getBySessionId_eq_some.mp hauthentic.session_eq).2
  refine ⟨rfl, s, ?_, received_received s counter clock, ?_⟩
  · rw [hterms.sessionId, hid]
    exact hauthentic.session_eq
  · rintro ⟨a, htracks⟩
    rw [receiveWindow_received]
    exact htracks.advance_ne (htracks.wouldAccept_iff.mp hauthentic.wouldAccept)

/-! ## Runs -/

variable [DecidableEq δ] {net : Network δ π}

/-- The state of the network after some acts. -/
def Network.exec (net : Network δ π) (acts : List (Act δ π)) : World δ π :=
  acts.foldl net.step (.start net.policy)

theorem Network.exec_append (acts : List (Act δ π)) (act : Act δ π) :
    net.exec (acts ++ [act]) = net.step (net.exec acts) act := by
  rw [exec, List.foldl_append]
  rfl

/-- In every state that is reached, all windows are as they were built. -/
theorem windowTracks_exec (acts : List (Act δ π)) {d : δ} {id : Bytes} {s : PeerSession}
    (hs : (net.exec acts).find d id = some s) : s.WindowTracks := by
  induction acts using List.reverseRecOn generalizing d id s with
  | nil => cases hs
  | append_singleton acts act ih =>
      have heffect := net.effect_step (net.exec acts) act
      rw [← Network.exec_append] at heffect
      cases heffect with
      | quiet hfind hsame => exact ih (hfind d id ▸ hs)
      | changed d₁ s₁ s' hfind hwrote hterms hcounter hwindow hactivity hconfirmed hsame =>
          rcases hwrote.find_cases hs with ⟨-, -, rfl⟩ | ⟨-, hs⟩
          · rw [PeerSession.WindowTracks, hwindow]
            exact ih hfind
          · exact ih hs
      | sent d₁ s₁ s' e header hseal hfind hwrote hterms hcounter hwindow hactivity hconfirmed
          hcall hdevice hid hcount hframe hsame hsent =>
          rcases hwrote.find_cases hs with ⟨-, -, rfl⟩ | ⟨-, hs⟩
          · rw [PeerSession.WindowTracks, hwindow]
            exact ih hfind
          · exact ih hs
      | opened d₁ s₁ packet counter frame clock header encrypted aad framed hdeliver hauthentic
          hwrote hsame hopened =>
          rcases hwrote.find_cases hs with ⟨-, -, rfl⟩ | ⟨-, hs⟩
          · obtain ⟨a, htracks⟩ := ih (Endpoint.find_of_store hauthentic.session_eq)
            rw [PeerSession.WindowTracks, receiveWindow_received]
            exact ⟨_, htracks.advance (htracks.wouldAccept_iff.mp hauthentic.wouldAccept)⟩
          · exact ih hs
      | recorded d₁ terms now hput hwrote hsame hrecorded =>
          rcases hwrote.find_cases hs with ⟨-, -, rfl⟩ | ⟨-, hs⟩
          · exact ⟨_, AntiReplayWindow.tracks_make (by decide)⟩
          · exact ih hs

/-- No session is confirmed from outside, and a responder's is recorded unconfirmed. -/
def Act.Unconfirming : Act δ π → Prop
  | .put _ terms _ => terms.role = .responder → terms.confirmed = false
  | .confirm _ _ => False
  | _ => True

/-- Among the acts is the delivery of a frame that was accepted under the key. -/
def Accepts (net : Network δ π) (acts : List (Act δ π)) (d : δ) (sessionId key : Bytes) : Prop :=
  ∃ before frame clock after, acts = before ++ .deliver d frame clock :: after ∧
    Completed ((net.channel d).open frame clock ((net.exec before).endpoints d).store) ∧
      ∃ header encrypted aad framed, splitFrame frame = .ok (header, encrypted) ∧
        header.sessionId = sessionId ∧ net.cipher.decrypt encrypted key aad = some framed ∧
          (net.Unforged (net.exec before) (.deliver d frame clock) →
            ∃ e ∈ (net.exec before).sent, e.call.key = key ∧ net.cipher.run e.call = encrypted)

theorem Accepts.append {acts : List (Act δ π)} {d : δ} {sessionId key : Bytes}
    (h : Accepts net acts d sessionId key) (act : Act δ π) :
    Accepts net (acts ++ [act]) d sessionId key := by
  obtain ⟨before, frame, clock, after, rfl, hrest⟩ := h
  exact ⟨before, frame, clock, after ++ [act], by simp, hrest⟩

/-- The responder's sessions that are confirmed have accepted a frame. -/
def ConfirmedByFrame (net : Network δ π) (acts : List (Act δ π)) : Prop :=
  ∀ d id s, (net.exec acts).find d id = some s → s.role = .responder → s.confirmed = true →
    Accepts net acts d id s.receiveKey

theorem ConfirmedByFrame.wrote {acts : List (Act δ π)} {act : Act δ π} {d : δ}
    {s' : PeerSession} (h : ConfirmedByFrame net acts)
    (hwrote : (net.exec acts).Wrote (net.exec (acts ++ [act])) d s')
    (hs' : s'.role = .responder → s'.confirmed = true →
      Accepts net (acts ++ [act]) d s'.sessionId s'.receiveKey) :
    ConfirmedByFrame net (acts ++ [act]) := by
  intro d₁ id s hfind hrole hconfirmed
  rcases hwrote.find_cases hfind with ⟨rfl, rfl, rfl⟩ | ⟨-, hfind⟩
  · exact hs' hrole hconfirmed
  · exact (h d₁ id s hfind hrole hconfirmed).append act

/-- A change of an object that leaves its terms and does not confirm it. -/
theorem ConfirmedByFrame.changed {acts : List (Act δ π)} {act : Act δ π} {d : δ}
    {s s' : PeerSession} (h : ConfirmedByFrame net acts)
    (hfind : (net.exec acts).find d s.sessionId = some s)
    (hwrote : (net.exec acts).Wrote (net.exec (acts ++ [act])) d s') (hterms : s.SameTerms s')
    (hsame : s'.confirmed = s.confirmed) : ConfirmedByFrame net (acts ++ [act]) := by
  refine h.wrote hwrote fun hrole hconfirmed ↦ ?_
  rw [hterms.sessionId, hterms.receiveKey]
  exact (h d _ s hfind (hterms.role.symm.trans hrole) (hsame.symm.trans hconfirmed)).append act

/-- The frame that `open` has just accepted. -/
theorem accepts_of_authentic {acts : List (Act δ π)} {d : δ} {s : PeerSession} {counter : ℕ}
    {header : FrameHeader} {encrypted : EncryptedPayload} {aad framed : Bytes}
    (h : Authentic (net.channel d) ((net.exec acts).endpoints d).store frame clock s packet counter
      header encrypted aad framed) :
    Accepts net (acts ++ [.deliver d frame clock]) d s.sessionId s.receiveKey := by
  have hopen := open_eq_ok.mpr ⟨s, counter, authenticate_eq_ok.mpr ⟨_, _, _, _, h⟩, rfl, rfl⟩
  refine ⟨acts, frame, clock, [], rfl, ?_, header, encrypted, aad, framed, h.split_eq,
    (SessionStore.getBySessionId_eq_some.mp h.session_eq).2.symm, h.decrypt_eq, fun hideal ↦ ?_⟩
  · rw [hopen]
    trivial
  · obtain ⟨e, he, hkey, -, hrun⟩ := hideal header encrypted s aad framed h.split_eq h.session_eq
      h.aad_eq h.decrypt_eq
    exact ⟨e, he, hkey, hrun⟩

theorem confirmedByFrame_exec {acts : List (Act δ π)} (hacts : ∀ act ∈ acts, act.Unconfirming) :
    ConfirmedByFrame net acts := by
  induction acts using List.reverseRecOn with
  | nil =>
      intro d id s hs
      cases hs
  | append_singleton acts act ih =>
      have h := ih fun act' hact' ↦ hacts act' (List.mem_append_left _ hact')
      have hact := hacts act (List.mem_append_right _ (List.mem_singleton_self _))
      have heffect := net.effect_step (net.exec acts) act
      rw [← Network.exec_append] at heffect
      cases heffect with
      | quiet hfind hsame =>
          intro d id s hs hrole hconfirmed
          exact (h d id s (hfind d id ▸ hs) hrole hconfirmed).append act
      | changed d s s' hfind hwrote hterms hcounter hwindow hactivity hconfirmed hsame =>
          rcases hconfirmed with hconfirmed | rfl
          · exact h.changed hfind hwrote hterms hconfirmed
          · exact hact.elim
      | sent d s s' e header hseal hfind hwrote hterms hcounter hwindow hactivity hconfirmed hcall
          hdevice hid hcount hframe hsame hsent =>
          exact h.changed hfind hwrote hterms hconfirmed
      | opened d s packet counter frame clock header encrypted aad framed hdeliver hauthentic
          hwrote hsame hopened =>
          subst hdeliver
          refine h.wrote hwrote fun _ _ ↦ ?_
          have hterms := SecureChannel.sameTerms_received s counter clock
          rw [hterms.sessionId, hterms.receiveKey]
          exact accepts_of_authentic hauthentic
      | recorded d terms now hput hwrote hsame hrecorded =>
          subst hput
          refine h.wrote hwrote fun hrole hconfirmed ↦ ?_
          have hunconfirmed : terms.confirmed = false := hact hrole
          rw [show (PeerSession.start terms now).confirmed = terms.confirmed from rfl,
            hunconfirmed] at hconfirmed
          cases hconfirmed

/-- In every state of the store, `open` changes nothing when it raises, and one
session otherwise; over a run, only an accepted frame confirms a responder. -/
theorem open_changes_one (net : Network δ π) :
    (∀ d frame clock store e store',
      (net.channel d).open frame clock store = .error e store' → store' = store) ∧
    (∀ d frame clock store packet session store',
      (net.channel d).open frame clock store = .ok (packet, session) store' →
        (∃ s, store.getBySessionId session.sessionId = some s ∧ s.Received session ∧
          (s.WindowTracks → session ≠ s)) ∧
        store'.getBySessionId session.sessionId = some session ∧
        (∀ id ≠ session.sessionId, store'.getBySessionId id = store.getBySessionId id) ∧
        store'.byPeer = store.byPeer ∧ store'.policy = store.policy) ∧
    (∀ acts d id s, (net.exec acts).find d id = some s → s.WindowTracks) ∧
    ∀ acts : List (Act δ π), (∀ act ∈ acts, act.Unconfirming) →
      ConfirmedByFrame net acts := by
  refine ⟨fun d frame clock store e store' ↦ open_error, ?_,
    fun acts d id s ↦ windowTracks_exec acts, fun acts ↦ confirmedByFrame_exec⟩
  intro d frame clock store packet session store' hopen
  obtain ⟨rfl, s, hs, hreceived, hwindow⟩ := open_writes hopen
  refine ⟨⟨s, hs, hreceived, fun htracks hsame ↦ ?_⟩, SessionStore.getBySessionId_update_self,
    fun id hne ↦ SessionStore.getBySessionId_update_of_ne hne, rfl, rfl⟩
  exact hwindow htracks (by rw [hsame])

/-- What leads to the frame that Bob receives from Alice. -/
def pairActs : List (Act Bool (Fin 128)) :=
  [.put false (pairTerms false) 0, .put true (pairTerms true) 0,
    .seal false (pairTerms false).sessionId .heartbeat pairPayload ⟨0, 0⟩,
    .deliver true pairFrame ⟨1, 1⟩]

theorem open_changes_one_pair : ∃ s,
    (pairNetwork.exec pairActs).find true (pairTerms true).sessionId = some s ∧
      s.confirmed = true ∧ Accepts pairNetwork pairActs true (pairTerms true).sessionId [1] := by
  have hunconfirming : ∀ act ∈ pairActs, act.Unconfirming := by
    simp [pairActs, Act.Unconfirming, pairTerms]
  have hfound : ((pairNetwork.exec pairActs).find true (pairTerms true).sessionId).map
      (fun s ↦ (s.role, s.confirmed, s.receiveKey)) = some (.responder, true, [1]) := by
    decide +kernel
  obtain ⟨s, hs, hfields⟩ := Option.map_eq_some_iff.mp hfound
  obtain ⟨hrole, hrest⟩ := Prod.mk.inj hfields
  obtain ⟨hconfirmed, hkey⟩ := Prod.mk.inj hrest
  refine ⟨s, hs, hconfirmed, ?_⟩
  rw [← hkey]
  exact (open_changes_one pairNetwork).2.2.2 pairActs hunconfirming true _ s hs hrole hconfirmed

end SecureSync
