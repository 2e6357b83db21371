import SecureSync.HandshakeV3.Transcripts

/-!
# The responder commits first

The accept is authenticated over a transcript that no other MAC covers, so that
an initiator which sees one knows that its responder has finished.
-/

namespace SecureSync

open BigEndian Raising

theorem HandshakeV3.hmac_eq_of_verifyFinal {handshake : HandshakeV3} {sent : ConfirmSent}
    {macF : Bytes}
    (h : handshake.verifyFinal sent (3 :: msgFinal :: statusAccept :: macF) = .ok ()) :
    handshake.crypto.hmac sent.secrets.responderConfirmationKey
      (acceptDigest handshake.crypto.sha256 sent.t3s sent.macI) = macF := by
  obtain ⟨transcript, macF', htranscript, -, hmac, heq⟩ := verifyFinal_eq_ok.mp h
  obtain rfl : macF = macF' := by simpa using heq
  obtain ⟨-, rfl⟩ := acceptTranscript_eq_ok.mp htranscript
  exact (confirmationMac_eq_ok.mp hmac).2.2

/-! ## What comes before the accept -/

namespace HandshakeSetting

variable {δ : Type} {setting : HandshakeSetting δ} {w : HandshakeWorld δ} {d d' : δ}
  {x : Initiator} {y : Responder} {sent : ConfirmSent} {sent' : ReplySent} {v : ConfirmVerified}

/-- The MACs other than those of accepts, by what they cover. -/
theorem mem_otherMacs {sha256 : Sha256} {c : Bytes × Bytes} (h : c ∈ w.otherMacs sha256) :
    (∃ d x, (d, x) ∈ w.initiators ∧ ∃ sent ∈ x.phase.sent?, c.2 = sent.t3s) ∨
      ∃ d y, (d, y) ∈ w.responders ∧ ∃ sent ∈ y.phase.sent?,
        c.2 = sent.t2s ∨ ∃ m3 ∈ y.refused, c.2 = sha256 (rejectInput sent.t2s m3) := by
  rcases List.mem_append.mp h with h | h
  · obtain ⟨⟨d, x⟩, hx, hmem⟩ := List.mem_flatMap.mp h
    obtain ⟨sent, hsent, rfl⟩ := Option.map_eq_some_iff.mp (Option.mem_toList.mp hmem)
    exact .inl ⟨d, x, hx, sent, hsent, rfl⟩
  · obtain ⟨⟨d, y⟩, hy, hmem⟩ := List.mem_flatMap.mp h
    obtain ⟨sent, hsent, hmem⟩ := List.mem_flatMap.mp hmem
    refine .inr ⟨d, y, hy, sent, Option.mem_toList.mp hsent, ?_⟩
    rcases List.mem_cons.mp hmem with rfl | hmem
    · exact .inl rfl
    · obtain ⟨m3, hm3, rfl⟩ := List.mem_map.mp hmem
      exact .inr ⟨m3, Option.mem_toList.mp hm3, rfl⟩

/-- No other MAC covers the transcript of an accept. -/
theorem Sound.acceptDigest_ne (h : setting.Sound w) (hsized : setting.crypto.sha256.Sized)
    (hfree : w.CollisionFree setting.crypto.sha256) (hx : (d, x) ∈ w.initiators)
    (hsent : sent ∈ x.phase.sent?) {c : Bytes × Bytes}
    (hc : c ∈ w.otherMacs setting.crypto.sha256) :
    c.2 ≠ acceptDigest setting.crypto.sha256 sent.t3s sent.macI := by
  have haccept : acceptInput setting.crypto.sha256 sent.t3s sent.macI ∈
      w.hashed setting.crypto.sha256 := by
    apply HandshakeWorld.hashed_of_initiator hx
    apply Initiator.inputs_subset_hashed hsent
    simp [ConfirmSent.inputs, acceptInputs]
  intro heq
  rcases mem_otherMacs hc with ⟨d₁, x₁, hx₁, sent₁, hsent₁, hc₁⟩ |
    ⟨d₁, y₁, hy₁, sent₁, hsent₁, hc₁ | ⟨m3, hm3, hc₁⟩⟩
  · have hvalid := (h.initiators _ hx₁).sent _ hsent₁
    have hmem : linkInput (setting.crypto.sha256 (linkInput sent₁.t2s sent₁.reply.macR))
        sent₁.sigI ∈ sent₁.inputs setting.crypto.sha256 := by
      simp [ConfirmSent.inputs, confirmInputs]
    exact linkInput_ne_accept (hsized _) (hsized _) hvalid.length_sigI
      (hfree _ (HandshakeWorld.hashed_of_initiator hx₁ (Initiator.inputs_subset_hashed hsent₁ hmem))
        _ haccept (hvalid.t3s_eq.trans (hc₁.symm.trans heq)))
  · have hvalid := ((h.responders _ hy₁).sent _ hsent₁).reply
    have hmem : linkInput sent₁.t2 sent₁.sigR ∈ sent₁.inputs := by simp [ReplySent.inputs]
    exact linkInput_ne_accept (hsized _) hvalid.derives.length_t2 hvalid.length_sigR
      (hfree _ (HandshakeWorld.hashed_of_responder hy₁ (Responder.inputs_subset_hashed hsent₁ hmem))
        _ haccept (hvalid.t2s_eq.trans (hc₁.symm.trans heq)))
  · have hvalid := ((h.responders _ hy₁).sent _ hsent₁).reply
    have ht2s : sent₁.t2s.length = transcriptSize := by
      rw [← hvalid.t2s_eq]
      exact hsized _
    exact rejectInput_ne_accept (hsized _) m3 ht2s (hfree _
      (HandshakeWorld.hashed_of_responder hy₁ (Responder.rejectInput_mem_hashed hsent₁ hm3))
        _ haccept (hc₁.symm.trans heq))

/-- Equal accepts come from equal transcripts, back to message 1. -/
theorem Sound.confirm_eq_of_acceptDigest (h : setting.Sound w)
    (hsized : setting.crypto.sha256.Sized) (hfree : w.CollisionFree setting.crypto.sha256)
    (hx : (d, x) ∈ w.initiators) (hy : (d', y) ∈ w.responders) (hsent : sent ∈ x.phase.sent?)
    {res : HandshakeResult} (hrecorded : (sent', v, res) ∈ y.phase.recorded?)
    (heq : acceptDigest setting.crypto.sha256 v.t3s v.confirm.macI =
      acceptDigest setting.crypto.sha256 sent.t3s sent.macI) :
    v.confirm.raw = sent.message ∧ sent'.t2s = sent.t2s := by
  have hverified := ResponderPhase.verified?_of_authenticated?
    (ResponderPhase.authenticated?_of_recorded? hrecorded)
  have hx' := (h.initiators _ hx).sent _ hsent
  have hy' := ((h.responders _ hy).sent _ (ResponderPhase.sent?_of_verified? hverified)).reply
  have hv := (h.responders _ hy).verified _ hverified
  have hinputs : sent.inputs setting.crypto.sha256 ⊆ w.hashed setting.crypto.sha256 :=
    fun _ ha ↦ HandshakeWorld.hashed_of_initiator hx (Initiator.inputs_subset_hashed hsent ha)
  have hconfirm : confirmInputs setting.crypto.sha256 sent'.t2s sent'.macR v.confirm.sigI ⊆
      w.hashed setting.crypto.sha256 :=
    fun _ ha ↦
      HandshakeWorld.hashed_of_responder hy (Responder.confirmInputs_subset_hashed hverified ha)
  have haccept : acceptInputs setting.crypto.sha256 v.t3s v.confirm.macI ⊆
      w.hashed setting.crypto.sha256 :=
    fun _ ha ↦
      HandshakeWorld.hashed_of_responder hy (Responder.acceptInputs_subset_hashed hrecorded ha)
  have hmac : ∀ bs : Bytes, bs.length = macSize → bs.length < 65536 := by
    intro bs hlength
    rw [hlength]
    decide
  have hsignature : ∀ bs : Bytes, bs.length = ed25519SignatureSize → bs.length < 65536 := by
    intro bs hlength
    rw [hlength]
    decide
  have hdigest : ∀ a b : Bytes,
      (setting.crypto.sha256 a).length = (setting.crypto.sha256 b).length :=
    fun a b ↦ (hsized a).trans (hsized b).symm
  have haccepted : acceptInput setting.crypto.sha256 sent.t3s sent.macI ∈
      sent.inputs setting.crypto.sha256 := by simp [ConfirmSent.inputs, acceptInputs]
  have hinput := hfree _ (haccept (List.mem_cons_of_mem _ (List.mem_singleton_self _))) _
    (hinputs haccepted) heq
  have hlabel : m4AcceptLabel.length < 65536 := by decide +kernel
  obtain ⟨hfinal, -⟩ := linkInput_inj (hdigest _ _) hlabel hlabel hinput
  have ht3s : v.t3s.length = sent.t3s.length := by
    rw [← hv.t3s_eq, ← hx'.t3s_eq]
    exact hdigest _ _
  obtain ⟨ht3s, hmacI⟩ := hfree.linkInput_inj (haccept (by simp [acceptInputs]))
    (hinputs (by simp [ConfirmSent.inputs, acceptInputs])) ht3s
    (hmac _ hv.confirm_valid.length_macI) (hmac _ hx'.length_macI) hfinal
  obtain ⟨ht3, hsigI⟩ := hfree.linkInput_inj (hconfirm (by simp [confirmInputs]))
    (hinputs (by simp [ConfirmSent.inputs, confirmInputs])) (hdigest _ _)
    (hsignature _ hv.confirm_valid.length_sigI) (hsignature _ hx'.length_sigI)
    (hv.t3s_eq.trans (ht3s.trans hx'.t3s_eq.symm))
  have ht2s : sent'.t2s.length = sent.t2s.length := by
    rw [← hy'.t2s_eq, ← hx'.t2s_eq]
    exact hdigest _ _
  obtain ⟨ht2s, -⟩ := hfree.linkInput_inj (hconfirm (by simp [confirmInputs]))
    (hinputs (by simp [ConfirmSent.inputs, confirmInputs])) ht2s
    (hmac _ hy'.length_macR) (hmac _ hx'.length_macR) ht3
  exact ⟨by rw [hv.confirm_valid.raw_eq, hsigI, hmacI, hx'.message_eq], ht2s⟩

end HandshakeSetting

/-! ## What has been written by then -/

/-- A responder that has pinned its peer has done so before anything that it
has recorded. -/
structure ResponderPhase.Journaled (journal : List HandshakeEffect) (phase : ResponderPhase) :
    Prop where
  pinned : ∀ peer ∈ phase.pinned?, .trusted peer.deviceId peer.identityPublicKey ∈ journal
  recorded : ∀ p ∈ phase.recorded?,
    [.trusted p.1.hello.deviceId p.1.hello.identityPublicKey, .recorded p.2.2].Sublist journal

namespace ResponderPhase

variable {phase phase' : ResponderPhase} {journal journal' : List HandshakeEffect}

theorem Journaled.mono (h : phase.Journaled journal) (hgrows : journal <+: journal') :
    phase.Journaled journal' where
  pinned peer hpeer := hgrows.subset (h.pinned peer hpeer)
  recorded p hp := (h.recorded p hp).trans hgrows.sublist

variable {handshake : HandshakeV3} {y : Responder} {stores stores' : HandshakeStores}
  {awaited : Awaited}

theorem Journaled.move (h : y.phase.Journaled stores.journal)
    (hmove : handshake.ResponderMoves y stores awaited phase stores') :
    phase.Journaled stores'.journal := by
  have hgrown := h.mono hmove.journal_grows
  cases hmove with
  | stays | calls => exact hgrown
  | replies | verifies | checks | authenticates => exact ⟨forall_mem_none, forall_mem_none⟩
  | pins =>
      exact ⟨forall_mem_some (List.mem_append_right _ (List.mem_singleton_self _)), forall_mem_none⟩
  | records hphase =>
      rw [hphase] at h hgrown
      have htrusted := List.singleton_sublist.mpr (h.pinned _ rfl)
      exact ⟨hgrown.pinned, forall_mem_some (htrusted.append (List.Sublist.refl _))⟩
  | confirms hphase =>
      rw [hphase] at hgrown
      exact ⟨hgrown.pinned, hgrown.recorded⟩

end ResponderPhase

namespace HandshakeSetting

variable {δ : Type} [DecidableEq δ] {setting : HandshakeSetting δ} {w : HandshakeWorld δ}

theorem journal_grows_step (event : HandshakeEvent δ) (d : δ) :
    (w.stores d).journal <+: ((setting.step w event).stores d).journal := by
  rcases setting.stores_step w event d with
    h | ⟨i, x, awaited, writable, -, -, h⟩ | ⟨j, y, awaited, writable, -, -, h⟩
  · rw [h]
  · rw [h]
    exact (HandshakeV3.initiatorStep_moves ..).journal_grows
  · rw [h]
    exact (HandshakeV3.responderStep_moves ..).journal_grows

theorem journaled_exec (stores : δ → HandshakeStores) (events : List (HandshakeEvent δ)) :
    ∀ p ∈ (setting.exec stores events).responders,
      p.2.phase.Journaled ((setting.exec stores events).stores p.1).journal := by
  refine exec_induction (P := fun w ↦ ∀ p ∈ w.responders,
    p.2.phase.Journaled (w.stores p.1).journal) (List.forall_mem_nil _) ?_ events
  intro w event h p hp
  rcases mem_responders_step hp with
    hp | ⟨privateKey, nonce, onConfirmed, heq⟩ | ⟨j, y, awaited, writable, rfl, hy, heq⟩
  · exact (h p hp).mono (journal_grows_step event p.1)
  · rw [heq]
    exact ⟨forall_mem_none, forall_mem_none⟩
  · rw [heq, stores_of_responder awaited writable hy, Function.update_self]
    exact (h _ (List.mem_of_getElem? hy)).move (HandshakeV3.responderStep_moves ..)

end HandshakeSetting

/-- An initiator that returns has a responder which has verified its message 3,
pinned it and recorded the session, unless the attacker holds `k_r`; and the
transcript of an accept is that of no other MAC. -/
theorem responder_commits_first {δ : Type} [DecidableEq δ] {setting : HandshakeSetting δ}
    (stores : δ → HandshakeStores) (events : List (HandshakeEvent δ)) (held : Set Bytes)
    (hcommutes : setting.crypto.keyExchange.Commutes) (hsized : setting.crypto.sha256.Sized)
    (hfree : (setting.exec stores events).CollisionFree setting.crypto.sha256)
    (hunforged : (setting.exec stores events).UnforgedMacs setting.crypto.sha256 held) :
    (∀ d x, (d, x) ∈ (setting.exec stores events).initiators →
        ∀ sent res, (sent, res) ∈ x.phase.confirmed? →
          sent.secrets.responderConfirmationKey ∉ held →
            ∃ d' y, (d', y) ∈ (setting.exec stores events).responders ∧
              ∃ sent' v res', (sent', v, res') ∈ y.phase.recorded? ∧
                res'.sessionId = res.sessionId ∧ v.Valid (setting.handshake d') sent' ∧
                  confirmationMac setting.crypto.hmac sent'.secrets.initiatorConfirmationKey v.t3s =
                      .ok v.confirm.macI ∧
                    v.confirm.raw = sent.message ∧
                      [.trusted (setting.deviceId d) (setting.identity d).publicKey,
                        .recorded res'].Sublist
                          ((setting.exec stores events).stores d').journal) ∧
      ∀ d x, (d, x) ∈ (setting.exec stores events).initiators → ∀ sent ∈ x.phase.sent?,
        ∀ c ∈ (setting.exec stores events).otherMacs setting.crypto.sha256,
          c.2 ≠ acceptDigest setting.crypto.sha256 sent.t3s sent.macI ∧
            ((setting.handshake d).verifyFinal sent
                (3 :: msgFinal :: statusAccept :: setting.crypto.hmac c.1 c.2) = .ok () →
              setting.crypto.hmac sent.secrets.responderConfirmationKey
                  (acceptDigest setting.crypto.sha256 sent.t3s sent.macI) =
                setting.crypto.hmac c.1 c.2) := by
  have hsound := setting.sound_exec stores events
  refine ⟨fun d x hx sent res hconfirmed hkey ↦ ?_, fun d x hx sent hsent c hc ↦
    ⟨hsound.acceptDigest_ne hsized hfree hx hsent hc, HandshakeV3.hmac_eq_of_verifyFinal⟩⟩
  have haccepted := InitiatorPhase.accepted?_of_confirmed? hconfirmed
  have hsent := InitiatorPhase.sent?_of_accepted? haccepted
  have hcheck : (sent.secrets.responderConfirmationKey,
      acceptDigest setting.crypto.sha256 sent.t3s sent.macI) ∈
        (setting.exec stores events).macChecks setting.crypto.sha256 := by
    apply List.mem_append_left
    apply List.mem_flatMap_of_mem hx
    apply List.mem_append_right
    rw [haccepted]
    exact List.mem_singleton_self _
  rcases List.mem_append.mp (hunforged _ hcheck hkey) with hother | haccept
  · exact absurd rfl (hsound.acceptDigest_ne hsized hfree hx hsent hother)
  obtain ⟨⟨d', y⟩, hy, hmem⟩ := List.mem_flatMap.mp haccept
  obtain ⟨⟨sent', v, res'⟩, hrecorded, heq⟩ :=
    Option.map_eq_some_iff.mp (Option.mem_toList.mp hmem)
  obtain ⟨hraw, ht2s⟩ := hsound.confirm_eq_of_acceptDigest hsized hfree hx hy hsent hrecorded
    (Prod.mk.inj heq).2
  have hverified := ResponderPhase.verified?_of_authenticated?
    (ResponderPhase.authenticated?_of_recorded? hrecorded)
  have hsent' := ResponderPhase.sent?_of_verified? hverified
  have hI := hsound.initiators _ hx
  have hR := hsound.responders _ hy
  have ht2 := (hsound.t2_eq_of_t2s hfree hx hy hsent hsent' ht2s).1
  have hshared := (hsound.sameMessages hfree hx hy hsent hsent' ht2).shared hI hR hsent hsent' rfl
    hcommutes
  have hmirrors := hshared.mirrors hI hR hsent hsent' (hI.confirmed _ hconfirmed)
    (hR.recorded _ hrecorded)
  have hjournal := (HandshakeSetting.journaled_exec stores events _ hy).recorded _ hrecorded
  obtain ⟨nonce, hown⟩ := hI.hello_eq hsent
  rw [hshared.hello, hown] at hjournal
  exact ⟨d', y, hy, sent', v, res', hrecorded, hmirrors.sessionId.symm, hR.verified _ hverified,
    hR.authenticated _ (ResponderPhase.authenticated?_of_recorded? hrecorded), hraw, hjournal⟩

/-! ### Alice and Bob -/

theorem responder_commits_first_pair : ∃ res res',
    (∃ x sent, (false, x) ∈ (v3PairSetting.exec noStores pairEvents).initiators ∧
      (sent, res) ∈ x.phase.confirmed?) ∧ res'.sessionId = res.sessionId ∧
        [.trusted "alice" (encode 32 1), .recorded res'].Sublist
          ((v3PairSetting.exec noStores pairEvents).stores true).journal := by
  have hunforged : ∀ c ∈ (v3PairSetting.exec noStores pairEvents).macChecks pairCrypto.sha256,
      c ∈ (v3PairSetting.exec noStores pairEvents).otherMacs pairCrypto.sha256 ++
        (v3PairSetting.exec noStores pairEvents).acceptMacs pairCrypto.sha256 := by
    decide +kernel
  obtain ⟨hinitiators, -⟩ := responder_commits_first noStores pairEvents ∅ pairCrypto_commutes
    (fun _ ↦ length_encode _ _) (by decide +kernel) (fun c hc _ ↦ hunforged c hc)
  have hconfirmed : ∃ p ∈ (v3PairSetting.exec noStores pairEvents).initiators, p.1 = false ∧
      p.2.phase.confirmed?.isSome := by
    decide +kernel
  obtain ⟨⟨_, x⟩, hx, rfl, hsome⟩ := hconfirmed
  obtain ⟨⟨sent, res⟩, hres⟩ := Option.isSome_iff_exists.mp hsome
  obtain ⟨d', y, hy, sent', v, res', -, hid, -, -, -, hjournal⟩ :=
    hinitiators false x hx sent res hres (Set.notMem_empty _)
  have hbob : ∀ q ∈ (v3PairSetting.exec noStores pairEvents).responders, q.1 = true := by
    decide +kernel
  obtain rfl : d' = true := hbob _ hy
  exact ⟨res, res', ⟨x, sent, hx, hres⟩, hid, hjournal⟩

end SecureSync
