import SecureSync.Properties.ChannelAuthenticity

/-!
# Frames that are lost

Every `seal` takes a counter, whether or not its frame arrives.  The window
refuses a counter that is too far ahead, so a session outlives the loss of
fewer frames in a row than the window is wide.
-/

namespace SecureSync

open Raising SecureChannel

variable {δ π : Type} [DecidableEq δ]

/-- After any run, the next frame is accepted if and only if its counter is at
most one window's width above zero, or above a counter accepted before. -/
theorem open_next_iff {net : Network δ π} {w : World δ π} {d d' : δ} {s s' s₁ : PeerSession}
    {packetType : PacketType} {payload : π} {clock clock' : ChannelClock} {frame : Bytes}
    (hlawful : net.Lawful) (hinj : Function.Injective net.deviceId) (hrun : net.Run w)
    (hapart : w.Apart net) (hs : w.find d s.sessionId = some s)
    (hs' : (w.endpoints d').store.getBySessionId s.sessionId = some s')
    (hmirrored : net.Mirrored d s d' s')
    (hseal : (net.channel d).seal packetType payload clock s = .ok frame s₁)
    (hskew : |(clock'.milliseconds : ℤ) - clock.milliseconds| ≤ net.timestampSkewMs) :
    Completed ((net.channel d').open frame clock' (w.endpoints d').store) ↔
      s.nextSendCounter ≤ AntiReplayWindow.defaultSize ∨
        ∃ o ∈ w.openedIn d' s'.sessionId,
          s.nextSendCounter ≤ o.counter + AntiReplayWindow.defaultSize := by
  obtain ⟨-, -, header, call, hcall, hframe⟩ := seal_eq_ok.mp hseal
  have hfind' : w.find d' s'.sessionId = some s' := by
    rw [hmirrored.sessionId]
    exact Endpoint.find_of_store hs'
  rw [← (hrun.sound hlawful hapart).wouldAccept_next_iff hapart hinj hs hfind' hmirrored
    (deriveNonce_eq_ok hcall.nonce_eq).1]
  cases haccept : s'.receiveWindow.wouldAccept s.nextSendCounter with
  | true =>
      rw [Network.open_sealed hlawful hcall hframe hmirrored hs' haccept hskew]
      exact ⟨fun _ ↦ rfl, fun _ ↦ trivial⟩
  | false =>
      rw [Network.open_sealed_rejected hlawful hcall hframe hmirrored hs' haccept]
      exact ⟨False.elim, fun h ↦ absurd h (by decide)⟩

def pairObject (w : World Bool (Fin 128)) (responds : Bool) : PeerSession :=
  (w.find responds (pairTerms responds).sessionId).getD (.start (pairTerms responds) 0)

/-- Alice seals a frame that is lost. -/
def loseFrame (w : World Bool (Fin 128)) : World Bool (Fin 128) :=
  pairNetwork.step w (.seal false (pairTerms false).sessionId .heartbeat pairPayload ⟨1, 1⟩)

theorem run_loseFrame (n : ℕ) : pairNetwork.Run (loseFrame^[n] pairOpened) := by
  induction n with
  | zero => exact pairOpened_run
  | succ n ih =>
      rw [Function.iterate_succ_apply']
      exact .step _ ih trivial

theorem endpoints_loseFrame (n : ℕ) :
    (loseFrame^[n] pairOpened).endpoints true = pairOpened.endpoints true := by
  induction n with
  | zero => rfl
  | succ n ih =>
      rw [Function.iterate_succ_apply', ← ih, loseFrame]
      simp only [Network.step]
      cases (loseFrame^[n] pairOpened).find false (pairTerms false).sessionId <;> rfl

theorem records_loseFrame (n : ℕ) :
    (loseFrame^[n] pairOpened).recorded = pairOpened.recorded ∧
      (loseFrame^[n] pairOpened).opened = pairOpened.opened := by
  induction n with
  | zero => exact ⟨rfl, rfl⟩
  | succ n ih =>
      rw [Function.iterate_succ_apply', ← ih.1, ← ih.2, loseFrame]
      simp only [Network.step]
      cases (loseFrame^[n] pairOpened).find false (pairTerms false).sessionId <;> exact ⟨rfl, rfl⟩

theorem object_loseFrame_receiver (n : ℕ) :
    pairObject (loseFrame^[n] pairOpened) true = pairObject pairOpened true := by
  rw [pairObject, World.find, endpoints_loseFrame]
  rfl

/-- The frame after 127 losses in a row is accepted. -/
theorem open_after_losses : ∃ frame s₁,
    (pairNetwork.channel false).seal .heartbeat pairPayload ⟨2, 2⟩
        (pairObject (loseFrame^[127] pairOpened) false) = .ok frame s₁ ∧
      Completed ((pairNetwork.channel true).open frame ⟨3, 3⟩
        ((loseFrame^[127] pairOpened).endpoints true).store) := by
  have hsender : pairObject (loseFrame^[127] pairOpened) false =
      { PeerSession.start (pairTerms false) 0 with
        nextSendCounter := 129
        sentCount := 128
        lastActivity := 1 } := by decide +kernel
  have hopened : (1 : ℕ) ∈ ((loseFrame^[127] pairOpened).openedIn true
      (pairObject pairOpened true).sessionId).map Opened.counter := by
    rw [World.openedIn, (records_loseFrame 127).2]
    decide +kernel
  obtain ⟨frame, s₁, hseal⟩ : ∃ frame s₁,
      (pairNetwork.channel false).seal .heartbeat pairPayload ⟨2, 2⟩
        (pairObject (loseFrame^[127] pairOpened) false) = .ok frame s₁ := by
    rw [hsender]
    exact Completed.exists_ok (by decide +kernel)
  have hinj : Function.Injective pairNetwork.deviceId := by decide
  have hmirrored : pairNetwork.Mirrored false (pairObject (loseFrame^[127] pairOpened) false) true
      (pairObject (loseFrame^[127] pairOpened) true) := by
    rw [object_loseFrame_receiver, hsender]
    constructor <;> decide +kernel
  have hrecorded : (loseFrame^[127] pairOpened).recorded = pairSessions := by
    rw [(records_loseFrame 127).1]
    decide +kernel
  have hstored : ((loseFrame^[127] pairOpened).endpoints true).store.getBySessionId
      (pairObject (loseFrame^[127] pairOpened) false).sessionId =
        some (pairObject (loseFrame^[127] pairOpened) true) := by
    rw [object_loseFrame_receiver, endpoints_loseFrame, hsender]
    decide +kernel
  refine ⟨frame, s₁, hseal, ?_⟩
  apply (open_next_iff pairNetwork_lawful hinj (run_loseFrame 127) (pair_apart hrecorded)
    (by decide +kernel) hstored hmirrored hseal (by decide)).mpr
  right
  rw [object_loseFrame_receiver, hsender]
  obtain ⟨o, ho, hcounter⟩ := List.mem_map.mp hopened
  exact ⟨o, ho, hcounter ▸ le_refl _⟩

theorem open_after_losses_rejected :
    let w := loseFrame^[128] pairOpened
    pairNetwork.Run w ∧ (pairObject w false).confirmed = true ∧
      (pairObject w true).confirmed = true ∧
        ∃ frame s₁,
          (pairNetwork.channel false).seal .heartbeat pairPayload ⟨1, 1⟩ (pairObject w false) =
              .ok frame s₁ ∧
            ¬ Completed
              ((pairNetwork.channel true).open frame ⟨1, 1⟩ (w.endpoints true).store) := by
  have hsender : pairObject (loseFrame^[128] pairOpened) false =
      { PeerSession.start (pairTerms false) 0 with
        nextSendCounter := 130
        sentCount := 129
        lastActivity := 1 } := by decide +kernel
  have hreceiver := object_loseFrame_receiver 128
  refine ⟨run_loseFrame 128, by rw [hsender]; rfl, by rw [hreceiver]; decide +kernel, ?_⟩
  obtain ⟨frame, s₁, hseal⟩ : ∃ frame s₁,
      (pairNetwork.channel false).seal .heartbeat pairPayload ⟨1, 1⟩
        (pairObject (loseFrame^[128] pairOpened) false) = .ok frame s₁ := by
    rw [hsender]
    exact Completed.exists_ok (by decide +kernel)
  obtain ⟨-, -, header, call, hcall, hframe⟩ := seal_eq_ok.mp hseal
  have hmirrored : pairNetwork.Mirrored false (pairObject (loseFrame^[128] pairOpened) false) true
      (pairObject pairOpened true) := by
    rw [hsender]
    constructor <;> decide +kernel
  refine ⟨frame, s₁, hseal, ?_⟩
  rw [Network.open_sealed_rejected pairNetwork_lawful hcall hframe hmirrored
    (by rw [endpoints_loseFrame, hsender]; decide +kernel) (by rw [hsender]; decide +kernel)]
  exact id

end SecureSync
