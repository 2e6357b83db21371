import SecureSync.HandshakeV3.Attacker

/-!
# Agreement under attack

Each signature covers the messages before it, under a label for the side that
signs.  A peer that is authenticated by its signature has therefore seen the
same messages, and with them derives the same session.
-/

namespace SecureSync

open BigEndian Raising

namespace HandshakeWorld

variable {δ : Type} {w : HandshakeWorld δ} {d : δ} {message : Bytes}

/-- A device signs as a responder, or as an initiator. -/
theorem mem_signed (h : (d, message) ∈ w.signed) :
    (∃ x, (d, x) ∈ w.initiators ∧ ∃ sent ∈ x.phase.sent?, initiatorInput sent.t2s = message) ∨
      ∃ y, (d, y) ∈ w.responders ∧ ∃ sent ∈ y.phase.sent?, responderInput sent.t2 = message := by
  rcases List.mem_append.mp h with h | h
  · obtain ⟨⟨d', x⟩, hx, hmem⟩ := List.mem_flatMap.mp h
    obtain ⟨m, hm, heq⟩ := List.mem_map.mp hmem
    obtain ⟨rfl, rfl⟩ := Prod.mk.inj heq
    obtain ⟨sent, hsent, rfl⟩ := Option.map_eq_some_iff.mp (Option.mem_toList.mp hm)
    exact .inl ⟨x, hx, sent, hsent, rfl⟩
  · obtain ⟨⟨d', y⟩, hy, hmem⟩ := List.mem_flatMap.mp h
    obtain ⟨m, hm, heq⟩ := List.mem_map.mp hmem
    obtain ⟨rfl, rfl⟩ := Prod.mk.inj heq
    obtain ⟨sent, hsent, rfl⟩ := Option.map_eq_some_iff.mp (Option.mem_toList.mp hm)
    exact .inr ⟨y, hy, sent, hsent, rfl⟩

theorem responder_of_signed {t2 : Bytes} (h : (d, responderInput t2) ∈ w.signed) :
    ∃ y, (d, y) ∈ w.responders ∧ ∃ sent ∈ y.phase.sent?, sent.t2 = t2 := by
  rcases mem_signed h with ⟨x, -, sent, -, heq⟩ | ⟨y, hy, sent, hsent, heq⟩
  · exact absurd heq.symm (responderInput_ne_initiatorInput _ _)
  · exact ⟨y, hy, sent, hsent, responderInput_inj heq⟩

theorem initiator_of_signed {t2s : Bytes} (h : (d, initiatorInput t2s) ∈ w.signed) :
    ∃ x, (d, x) ∈ w.initiators ∧ ∃ sent ∈ x.phase.sent?, sent.t2s = t2s := by
  rcases mem_signed h with ⟨x, hx, sent, hsent, heq⟩ | ⟨y, -, sent, -, heq⟩
  · exact ⟨x, hx, sent, hsent, initiatorInput_inj heq⟩
  · exact absurd heq (responderInput_ne_initiatorInput _ _)

end HandshakeWorld

namespace HandshakeSetting

variable {δ : Type} {setting : HandshakeSetting δ} {w : HandshakeWorld δ} {d d' : δ}
  {x : Initiator} {y : Responder} {sent : ConfirmSent} {sent' : ReplySent}

/-- The responder's signature that the initiator has verified. -/
theorem Sound.exists_responder (h : setting.Sound w) (hunforged : setting.UnforgedSignatures w)
    (hx : (d, x) ∈ w.initiators) (hsent : sent ∈ x.phase.sent?)
    (hkey : sent.reply.identityPublicKey = (setting.identity d').publicKey) :
    ∃ y, (d', y) ∈ w.responders ∧ ∃ sent' ∈ y.phase.sent?, sent'.t2 = sent.t2 := by
  have hverified := InitiatorPhase.verified?_of_sent? hsent
  have hcheck : (⟨sent.reply.identityPublicKey, responderInput sent.t2, sent.reply.sigR⟩ :
      SignatureCheck) ∈ w.signatureChecks := by
    apply List.mem_append_left
    apply List.mem_flatMap_of_mem hx
    rw [Initiator.signatureChecks, hverified]
    exact List.mem_singleton_self _
  exact HandshakeWorld.responder_of_signed
    (hunforged d' _ hcheck hkey ((h.initiators _ hx).verified _ hverified).signed)

/-- The initiator's signature that the responder has verified. -/
theorem Sound.exists_initiator (h : setting.Sound w) (hunforged : setting.UnforgedSignatures w)
    (hy : (d', y) ∈ w.responders) {v : ConfirmVerified} (hverified : (sent', v) ∈ y.phase.verified?)
    (hkey : sent'.hello.identityPublicKey = (setting.identity d).publicKey) :
    ∃ x, (d, x) ∈ w.initiators ∧ ∃ sent ∈ x.phase.sent?, sent.t2s = sent'.t2s := by
  have hcheck : (⟨sent'.hello.identityPublicKey, initiatorInput sent'.t2s, v.confirm.sigI⟩ :
      SignatureCheck) ∈ w.signatureChecks := by
    apply List.mem_append_right
    apply List.mem_flatMap_of_mem hy
    rw [Responder.signatureChecks, hverified]
    exact List.mem_singleton_self _
  exact HandshakeWorld.initiator_of_signed
    (hunforged d _ hcheck hkey ((h.responders _ hy).verified _ hverified).signed)

end HandshakeSetting

variable {δ : Type} [DecidableEq δ] {setting : HandshakeSetting δ}

/-- Whoever has confirmed a session with the key of an honest device shares it
with an exchange of that device, which has signed the same messages. -/
theorem handshakes_agree (stores : δ → HandshakeStores) (events : List (HandshakeEvent δ))
    (hcommutes : setting.crypto.keyExchange.Commutes)
    (hunforged : setting.UnforgedSignatures (setting.exec stores events))
    (hfree : (setting.exec stores events).CollisionFree setting.crypto.sha256) :
    (∀ d x, (d, x) ∈ (setting.exec stores events).initiators →
        ∀ sent res, (sent, res) ∈ x.phase.confirmed? →
          ∀ d', sent.reply.identityPublicKey = (setting.identity d').publicKey →
            ∃ y, (d', y) ∈ (setting.exec stores events).responders ∧ ∃ sent' ∈ y.phase.sent?,
              SameMessages x sent sent' ∧ ∃ res',
                HandshakeV3.result sent'.hello.toHandshakeFields sent'.secrets .responder =
                    .ok res' ∧
                  res.Mirrors (setting.handshake d) (setting.handshake d') res') ∧
      ∀ d' y, (d', y) ∈ (setting.exec stores events).responders →
        ∀ sent' v res', (sent', v, res') ∈ y.phase.confirmed? →
          ∀ d, sent'.hello.identityPublicKey = (setting.identity d).publicKey →
            ∃ x, (d, x) ∈ (setting.exec stores events).initiators ∧ ∃ sent ∈ x.phase.sent?,
              SameMessages x sent sent' ∧ sent.reply.sigR = sent'.sigR ∧ ∃ res,
                HandshakeV3.result sent.reply.toHandshakeFields sent.secrets .initiator =
                    .ok res ∧
                  res.Mirrors (setting.handshake d) (setting.handshake d') res' := by
  have hsound := setting.sound_exec stores events
  refine ⟨fun d x hx sent res hconfirmed d' hkey ↦ ?_,
    fun d' y hy sent' v res' hconfirmed d hkey ↦ ?_⟩
  · have hsent := InitiatorPhase.sent?_of_confirmed? hconfirmed
    obtain ⟨y, hy, sent', hsent', ht2⟩ := hsound.exists_responder hunforged hx hsent hkey
    have hsame := hsound.sameMessages hfree hx hy hsent hsent' ht2
    have hshared := hsame.shared (hsound.initiators _ hx) (hsound.responders _ hy) hsent hsent' rfl
      hcommutes
    exact ⟨y, hy, sent', hsent', hsame, hshared.exists_mirror (hsound.initiators _ hx)
      (hsound.responders _ hy) hsent hsent' ((hsound.initiators _ hx).confirmed _ hconfirmed)⟩
  · have hrecorded := ResponderPhase.recorded?_of_confirmed? hconfirmed
    have hverified := ResponderPhase.verified?_of_authenticated?
      (ResponderPhase.authenticated?_of_recorded? hrecorded)
    have hsent' := ResponderPhase.sent?_of_verified? hverified
    obtain ⟨x, hx, sent, hsent, ht2s⟩ := hsound.exists_initiator hunforged hy hverified hkey
    obtain ⟨ht2, hsigR⟩ := hsound.t2_eq_of_t2s hfree hx hy hsent hsent' ht2s.symm
    have hsame := hsound.sameMessages hfree hx hy hsent hsent' ht2
    have hshared := hsame.shared (hsound.initiators _ hx) (hsound.responders _ hy) hsent hsent' rfl
      hcommutes
    exact ⟨x, hx, sent, hsent, hsame, hsigR.symm, hshared.exists_mirrored (hsound.initiators _ hx)
      (hsound.responders _ hy) hsent hsent' ((hsound.responders _ hy).recorded _ hrecorded)⟩

/-! ### Alice and Bob -/

theorem pair_unforgedSignatures :
    v3PairSetting.UnforgedSignatures (v3PairSetting.exec noStores pairEvents) := by
  unfold HandshakeSetting.UnforgedSignatures
  decide +kernel

theorem handshakes_agree_pair : ∃ x y sent sent' res res',
    (false, x) ∈ (v3PairSetting.exec noStores pairEvents).initiators ∧
      (sent, res) ∈ x.phase.confirmed? ∧
        (true, y) ∈ (v3PairSetting.exec noStores pairEvents).responders ∧
          sent' ∈ y.phase.sent? ∧ SameMessages x sent sent' ∧
            res.Mirrors (v3PairSetting.handshake false) (v3PairSetting.handshake true) res' := by
  obtain ⟨hinitiators, -⟩ := handshakes_agree noStores pairEvents pairCrypto_commutes
    pair_unforgedSignatures (by decide +kernel)
  have hconfirmed : ∃ p ∈ (v3PairSetting.exec noStores pairEvents).initiators, p.1 = false ∧
      ∃ q ∈ p.2.phase.confirmed?, q.1.reply.identityPublicKey = encode 32 2 := by
    decide +kernel
  obtain ⟨⟨_, x⟩, hx, rfl, ⟨sent, res⟩, hres, hkey⟩ := hconfirmed
  obtain ⟨y, hy, sent', hsent', hsame, res', -, hmirrors⟩ :=
    hinitiators false x hx sent res hres true hkey
  exact ⟨x, y, sent, sent', res, res', hx, hres, hy, hsent', hsame, hmirrors⟩

end SecureSync
