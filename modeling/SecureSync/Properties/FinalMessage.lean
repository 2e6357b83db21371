import SecureSync.HandshakeV3.Transcripts
import SecureSync.Library.Machines
import SecureSync.Properties.HandshakeCodecs

/-!
# What an initiator makes of message 4

An accept under the right MAC ends the handshake, one under another MAC is told
apart, a reject counts if it is authenticated, and nothing else does.  Bytes of
another protocol version escape the classification.
-/

namespace SecureSync

open BigEndian Machines Raising

/-- Two bytes at least, the first of which is not the version of the handshake. -/
def OtherVersion : Bytes → Prop
  | version :: _ :: _ => version ≠ 3
  | _ => False

instance : DecidablePred OtherVersion
  | [] => .isFalse id
  | [_] => .isFalse id
  | version :: _ :: _ => inferInstanceAs (Decidable (version ≠ 3))

theorem decodeFinal_of_otherVersion {data : Bytes} (h : OtherVersion data) :
    ∃ version, decodeFinal data = .error (.unsupportedVersion version) := by
  match data, h with
  | version :: msgType :: rest, h =>
      have hne : ¬ version.toNat = handshakeVersion := fun heq ↦ h (UInt8.toNat_inj.mp heq)
      refine ⟨version.toNat, ?_⟩
      simp only [decodeFinal, validateMsgType, validateVersion, require, if_neg hne]
      rfl

namespace HandshakeV3

variable (handshake : HandshakeV3) (sent : ConfirmSent) (m4 : Bytes)

def IsAccept (m4 : Bytes) : Prop :=
  ∃ final, decodeFinal m4 = .ok final ∧ final.status = statusAccept

def AcceptVerifies : Prop :=
  ∃ final transcript, decodeFinal m4 = .ok final ∧ final.status = statusAccept ∧
    handshake.acceptTranscript sent.t3s sent.macI = .ok transcript ∧
      confirmationMac handshake.crypto.hmac sent.secrets.responderConfirmationKey transcript =
        .ok final.macF

def RejectVerifies : Prop :=
  ∃ final transcript, decodeFinal m4 = .ok final ∧ final.status = statusReject ∧
    transcriptM4Reject handshake.crypto.sha256 sent.t2s sent.message = .ok transcript ∧
      confirmationMac handshake.crypto.hmac sent.secrets.responderConfirmationKey transcript =
        .ok final.macF

/-- What `verifyFinal` can come to. -/
inductive FinalOutcome : Except HandshakeV3Error Unit → Prop
  | accepted (h : handshake.AcceptVerifies sent m4) : FinalOutcome (.ok ())
  | unconfirmed (haccept : IsAccept m4) (h : ¬ handshake.AcceptVerifies sent m4) :
      FinalOutcome (.error (.keys .keyConfirmation))
  | rejected (h : handshake.RejectVerifies sent m4) :
      FinalOutcome (.error (.rejected sent.reply.deviceId))
  | unverified (haccept : ¬ IsAccept m4) (h : ¬ handshake.RejectVerifies sent m4)
      (hversion : ¬ OtherVersion m4) : FinalOutcome (.error .rejectionUnverified)
  | otherVersion (hversion : OtherVersion m4) (version : ℕ) :
      FinalOutcome (.error (.message (.unsupportedVersion version)))

variable {handshake sent m4} {privateKey : Bytes}

theorem AcceptVerifies.isAccept (h : handshake.AcceptVerifies sent m4) : IsAccept m4 := by
  obtain ⟨final, transcript, hdecode, hstatus, -⟩ := h
  exact ⟨final, hdecode, hstatus⟩

theorem not_otherVersion_of_decodeFinal {final : FinalMessage} (h : decodeFinal m4 = .ok final) :
    ¬ OtherVersion m4 := by
  intro hversion
  obtain ⟨version, herror⟩ := decodeFinal_of_otherVersion hversion
  rw [h] at herror
  cases herror

theorem IsAccept.not_rejectVerifies (h : IsAccept m4) : ¬ handshake.RejectVerifies sent m4 := by
  obtain ⟨final, hdecode, hstatus⟩ := h
  rintro ⟨final', transcript, hdecode', hstatus', -⟩
  obtain rfl := Except.ok.inj (hdecode.symm.trans hdecode')
  rw [hstatus] at hstatus'
  cases hstatus'

theorem length_confirmKey (hvalid : sent.Valid handshake privateKey) :
    sent.secrets.responderConfirmationKey.length = keySize :=
  (confirmationMac_eq_ok.mp hvalid.macR_eq).1

section Decoded

variable {final : FinalMessage} (hsized : handshake.crypto.sha256.Sized)
  (hvalid : sent.Valid handshake privateKey) (hdecode : decodeFinal m4 = .ok final)

include hsized hvalid hdecode

theorem verifyFinal_of_accept (hstatus : final.status = statusAccept) :
    handshake.FinalOutcome sent m4 (handshake.verifyFinal sent m4) := by
  obtain ⟨transcript, htranscript, htranscriptSize⟩ : ∃ transcript,
      handshake.acceptTranscript sent.t3s sent.macI = .ok transcript ∧
        transcript.length = transcriptSize := by
    have hmacI : sent.macI.length < 65536 := by
      rw [hvalid.length_macI]
      decide
    exact ⟨_, acceptTranscript_eq_ok.mpr ⟨hmacI, rfl⟩, hsized _⟩
  have hmacF : final.macF.length = macSize := (decodeFinal_eq_ok.mp hdecode).1.length_macF
  have hkey := length_confirmKey hvalid
  simp only [verifyFinal, hdecode, hstatus, ne_eq, not_true_eq_false, if_false, htranscript,
    verifyConfirmationMac_run hkey htranscriptSize hmacF, except_ok_bind, require]
  split_ifs with hmac
  · exact .accepted ⟨final, transcript, hdecode, hstatus, htranscript,
      confirmationMac_eq_ok.mpr ⟨hkey, htranscriptSize, hmac⟩⟩
  · refine .unconfirmed ⟨final, hdecode, hstatus⟩ fun h ↦ ?_
    obtain ⟨final', transcript', hdecode', -, htranscript', hmac'⟩ := h
    obtain rfl := Except.ok.inj (hdecode.symm.trans hdecode')
    obtain rfl := Except.ok.inj (htranscript.symm.trans htranscript')
    exact hmac (confirmationMac_eq_ok.mp hmac').2.2

theorem verifyFinal_of_reject (hstatus : final.status = statusReject) :
    handshake.FinalOutcome sent m4 (handshake.verifyFinal sent m4) := by
  obtain ⟨transcript, htranscript, htranscriptSize⟩ : ∃ transcript,
      transcriptM4Reject handshake.crypto.sha256 sent.t2s sent.message = .ok transcript ∧
        transcript.length = transcriptSize := by
    have hmessage : sent.message.length < 65536 := by
      rw [← hvalid.message_eq]
      simp [hvalid.length_sigI, hvalid.length_macI, ed25519SignatureSize, macSize]
    exact ⟨_, transcriptM4Reject_eq_ok.mpr ⟨hmessage, rfl⟩, hsized _⟩
  have hkey := length_confirmKey hvalid
  have hne : final.status ≠ statusAccept := by
    rw [hstatus]
    decide
  have haccept : ¬ IsAccept m4 := by
    rintro ⟨final', hdecode', hstatus'⟩
    obtain rfl := Except.ok.inj (hdecode.symm.trans hdecode')
    exact hne hstatus'
  simp only [verifyFinal, hdecode, if_pos hne, requireAuthenticatedReject, htranscript,
    confirmationMac_run hkey htranscriptSize, Except.mapError, except_ok_bind, require]
  split_ifs with hmac
  · exact .rejected ⟨final, transcript, hdecode, hstatus, htranscript,
      confirmationMac_eq_ok.mpr ⟨hkey, htranscriptSize, hmac⟩⟩
  · refine .unverified haccept (fun h ↦ ?_) (not_otherVersion_of_decodeFinal hdecode)
    obtain ⟨final', transcript', hdecode', -, htranscript', hmac'⟩ := h
    obtain rfl := Except.ok.inj (hdecode.symm.trans hdecode')
    obtain rfl := Except.ok.inj (htranscript.symm.trans htranscript')
    exact hmac (confirmationMac_eq_ok.mp hmac').2.2

end Decoded

theorem verifyFinal_of_undecodable {e : MessageError} (hdecode : decodeFinal m4 = .error e) :
    handshake.FinalOutcome sent m4 (handshake.verifyFinal sent m4) := by
  have haccept : ¬ IsAccept m4 := by
    rintro ⟨final, hdecode', -⟩
    rw [hdecode] at hdecode'
    cases hdecode'
  have hreject : ¬ handshake.RejectVerifies sent m4 := by
    rintro ⟨final, transcript, hdecode', -⟩
    rw [hdecode] at hdecode'
    cases hdecode'
  have hmalformed (h : e.isHandshakeMessageError = true)
      (hne : ∀ version, e ≠ .unsupportedVersion version) :
      handshake.FinalOutcome sent m4 (handshake.verifyFinal sent m4) := by
    simp only [verifyFinal, hdecode, h, if_true]
    refine .unverified haccept hreject fun hversion ↦ ?_
    obtain ⟨version, herror⟩ := decodeFinal_of_otherVersion hversion
    exact hne version (Except.error.inj (hdecode.symm.trans herror))
  have hexplains := decodeFinal_raises e hdecode
  cases e with
  | decode error => exact hmalformed rfl nofun
  | validation error => exact hmalformed rfl nofun
  | lowOrderPoint error => exact hexplains.elim
  | unsupportedVersion version =>
      obtain ⟨v, msgType, rest, rfl, hne, -⟩ := hexplains
      have hversion : OtherVersion (v :: msgType :: rest) := hne
      simp only [verifyFinal, hdecode, MessageError.isHandshakeMessageError, Bool.false_eq_true,
        if_false]
      exact .otherVersion hversion version

theorem finalOutcome (hsized : handshake.crypto.sha256.Sized)
    (hvalid : sent.Valid handshake privateKey) (m4 : Bytes) :
    handshake.FinalOutcome sent m4 (handshake.verifyFinal sent m4) := by
  cases hdecode : decodeFinal m4 with
  | error e => exact verifyFinal_of_undecodable hdecode
  | ok final =>
      rcases (decodeFinal_eq_ok.mp hdecode).1.status_eq with hstatus | hstatus
      · exact verifyFinal_of_accept hsized hvalid hdecode hstatus
      · exact verifyFinal_of_reject hsized hvalid hdecode hstatus

/-! ## The turns behind message 4 -/

variable (handshake) in
/-- One turn of an exchange, with the stores that it finds and leaves. -/
def initiatorTurn (x : Initiator) (input : HandshakeStores × Awaited) :
    HandshakeStores × Initiator :=
  let next := handshake.initiatorStep x input.1 input.2 true
  (next.2, next.1)

variable (handshake) in
/-- Message 4 comes, and `trust`, if it is called, returns. -/
def onMessage4 (x : Initiator) (m4 : Bytes) (s₁ s₂ s₃ : HandshakeStores) :
    List HandshakeStores × Initiator :=
  run handshake.initiatorTurn x [(s₁, .message m4), (s₂, .returned), (s₃, .returned)]

/-- What message 4 is to be taken for, and that the pin is written for an accept
only. -/
structure Classified (handshake : HandshakeV3) (sent : ConfirmSent) (pin : Option Bytes)
    (m4 : Bytes) (s₁ s₂ s₃ : HandshakeStores) (left : List HandshakeStores × Initiator) :
    Prop where
  accepted : handshake.AcceptVerifies sent m4 →
    (∃ res, left.2.phase = .confirmed sent pin res ∧
      result sent.reply.toHandshakeFields sent.secrets .initiator = .ok res) ∧
      left.2.failure = none ∧
        left.1 = [s₁, s₂.trust sent.reply.deviceId sent.reply.identityPublicKey, s₃]
  unconfirmed : IsAccept m4 → ¬ handshake.AcceptVerifies sent m4 →
    left.2.failure = some (.keys .keyConfirmation)
  rejected : left.2.failure = some (.rejected sent.reply.deviceId) ↔
    handshake.RejectVerifies sent m4
  unverified : ¬ IsAccept m4 → ¬ handshake.RejectVerifies sent m4 →
    left.2.failure = some .rejectionUnverified
  unpinned : ¬ handshake.AcceptVerifies sent m4 → left.1 = [s₁, s₂, s₃]

section Turns

variable {x : Initiator} {pin : Option Bytes} {s₁ s₂ s₃ : HandshakeStores}

theorem initiatorStep_sentConfirm {writable : Bool} (hphase : x.phase = .sentConfirm sent pin)
    (hrunning : x.failure = none) :
    handshake.initiatorStep x s₁ (.message m4) writable =
      (x.enter ((handshake.verifyFinal sent m4).map fun _ ↦ .accepted sent pin), s₁) := by
  simp [initiatorStep, hrunning, hphase]

theorem onMessage4_of_error {e : HandshakeV3Error} (hphase : x.phase = .sentConfirm sent pin)
    (hrunning : x.failure = none) (h : handshake.verifyFinal sent m4 = .error e) :
    handshake.onMessage4 x m4 s₁ s₂ s₃ = ([s₁, s₂, s₃], x.fail e) := by
  have hstep : handshake.initiatorStep x s₁ (.message m4) true = (x.fail e, s₁) := by
    rw [initiatorStep_sentConfirm hphase hrunning, h]
    rfl
  have hfailed (s : HandshakeStores) :
      handshake.initiatorStep (x.fail e) s .returned true = (x.fail e, s) := rfl
  simp only [onMessage4, run_cons, run_nil, initiatorTurn, hstep, hfailed]

theorem onMessage4_of_ok {res : HandshakeResult} (hphase : x.phase = .sentConfirm sent pin)
    (hrunning : x.failure = none) (h : handshake.verifyFinal sent m4 = .ok ())
    (hres : result sent.reply.toHandshakeFields sent.secrets .initiator = .ok res) :
    handshake.onMessage4 x m4 s₁ s₂ s₃ =
      ([s₁, s₂.trust sent.reply.deviceId sent.reply.identityPublicKey, s₃],
        { x with phase := .confirmed sent pin res }) := by
  have hstep : handshake.initiatorStep x s₁ (.message m4) true =
      ({ x with phase := .accepted sent pin }, s₁) := by
    rw [initiatorStep_sentConfirm hphase hrunning, h]
    rfl
  have hpins : handshake.initiatorStep { x with phase := .accepted sent pin } s₂ .returned true =
      ({ x with phase := .pinned sent pin },
        s₂.trust sent.reply.deviceId sent.reply.identityPublicKey) := by
    simp [initiatorStep, hrunning]
  have hfinishes : handshake.initiatorStep { x with phase := .pinned sent pin } s₃ .returned true =
      ({ x with phase := .confirmed sent pin res }, s₃) := by
    simp [initiatorStep, hrunning, hres, Except.map, Initiator.enter]
  simp only [onMessage4, run_cons, run_nil, initiatorTurn, hstep, hpins, hfinishes]

theorem FinalOutcome.classified_iff (hphase : x.phase = .sentConfirm sent pin)
    (hrunning : x.failure = none)
    (hres : ∃ res, result sent.reply.toHandshakeFields sent.secrets .initiator = .ok res)
    {outcome : Except HandshakeV3Error Unit} (houtcome : handshake.verifyFinal sent m4 = outcome)
    (h : handshake.FinalOutcome sent m4 outcome) :
    handshake.Classified sent pin m4 s₁ s₂ s₃ (handshake.onMessage4 x m4 s₁ s₂ s₃) ↔
      ¬ OtherVersion m4 := by
  cases h with
  | accepted h =>
      obtain ⟨res, hres⟩ := hres
      obtain ⟨final, hdecode, -⟩ := h.isAccept
      rw [onMessage4_of_ok hphase hrunning houtcome hres]
      refine iff_of_true ⟨fun _ ↦ ⟨⟨res, rfl, hres⟩, hrunning, rfl⟩, fun _ hnot ↦ (hnot h).elim,
        ?_, fun hnot ↦ (hnot h.isAccept).elim, fun hnot ↦ (hnot h).elim⟩
        (not_otherVersion_of_decodeFinal hdecode)
      refine iff_of_false ?_ h.isAccept.not_rejectVerifies
      rw [hrunning]
      exact nofun
  | unconfirmed haccept h =>
      obtain ⟨final, hdecode, -⟩ := id haccept
      rw [onMessage4_of_error hphase hrunning houtcome]
      exact iff_of_true ⟨fun hverifies ↦ (h hverifies).elim, fun _ _ ↦ rfl,
        iff_of_false nofun (IsAccept.not_rejectVerifies haccept),
        fun hnot ↦ (hnot haccept).elim, fun _ ↦ rfl⟩ (not_otherVersion_of_decodeFinal hdecode)
  | rejected h =>
      have haccept : ¬ IsAccept m4 := fun haccept ↦ haccept.not_rejectVerifies h
      have hverifies : ¬ handshake.AcceptVerifies sent m4 := fun h ↦ haccept h.isAccept
      obtain ⟨final, transcript, hdecode, -⟩ := id h
      rw [onMessage4_of_error hphase hrunning houtcome]
      exact iff_of_true ⟨fun h ↦ (hverifies h).elim, fun h ↦ (haccept h).elim, iff_of_true rfl h,
        fun _ hnot ↦ (hnot h).elim, fun _ ↦ rfl⟩ (not_otherVersion_of_decodeFinal hdecode)
  | unverified haccept h hversion =>
      have hverifies : ¬ handshake.AcceptVerifies sent m4 := fun h ↦ haccept h.isAccept
      rw [onMessage4_of_error hphase hrunning houtcome]
      exact iff_of_true ⟨fun h ↦ (hverifies h).elim, fun h ↦ (haccept h).elim,
        iff_of_false nofun h, fun _ _ ↦ rfl, fun _ ↦ rfl⟩ hversion
  | otherVersion hversion version =>
      rw [onMessage4_of_error hphase hrunning houtcome]
      refine iff_of_false (fun hclassified ↦ ?_) (not_not.mpr hversion)
      have haccept : ¬ IsAccept m4 := by
        rintro ⟨final, hdecode, -⟩
        exact not_otherVersion_of_decodeFinal hdecode hversion
      have hreject : ¬ handshake.RejectVerifies sent m4 := by
        rintro ⟨final, transcript, hdecode, -⟩
        exact not_otherVersion_of_decodeFinal hdecode hversion
      exact absurd (hclassified.unverified haccept hreject) nofun

end Turns

end HandshakeV3

theorem ConfirmSent.Valid.exists_result {handshake : HandshakeV3} {privateKey : Bytes}
    {sent : ConfirmSent} (h : sent.Valid handshake privateKey)
    (hhkdf : ∀ call, call.length ≤ secretSize → (handshake.crypto.hkdf call).length = call.length) :
    ∃ res, HandshakeV3.result sent.reply.toHandshakeFields sent.secrets .initiator = .ok res := by
  obtain ⟨sharedSecret, -, hderive⟩ := h.derives
  exact HandshakeV3.exists_result (sized_of_deriveHandshakeSecrets hhkdf hderive).sessionId _ _

/-- Whatever comes as message 4 is taken for what it is, unless it has the version
byte of another protocol. -/
theorem message4_classified_iff {δ : Type} [DecidableEq δ] {setting : HandshakeSetting δ}
    (hsized : setting.crypto.sha256.Sized)
    (hhkdf : ∀ call, call.length ≤ secretSize → (setting.crypto.hkdf call).length = call.length)
    (stores : δ → HandshakeStores) (events : List (HandshakeEvent δ)) {d : δ} {x : Initiator}
    {sent : ConfirmSent} {pin : Option Bytes}
    (hx : (d, x) ∈ (setting.exec stores events).initiators)
    (hphase : x.phase = .sentConfirm sent pin) (hrunning : x.failure = none) (m4 : Bytes)
    (s₁ s₂ s₃ : HandshakeStores) :
    (setting.handshake d).Classified sent pin m4 s₁ s₂ s₃
        ((setting.handshake d).onMessage4 x m4 s₁ s₂ s₃) ↔ ¬ OtherVersion m4 := by
  have hsound := (setting.sound_exec stores events).initiators _ hx
  have hvalid : sent.Valid (setting.handshake d) x.privateKey := by
    apply hsound.sent
    rw [hphase]
    rfl
  exact (HandshakeV3.finalOutcome hsized hvalid m4).classified_iff hphase hrunning
    (hvalid.exists_result hhkdf) rfl

/-! ### Alice waits for message 4 -/

/-- The handshake of Alice and Bob, up to Alice's message 3. -/
def awaitingFinal : List (HandshakeEvent Bool) :=
  v3PairSetting.relay ⟨noStores, [], []⟩ ((pairTurns keepSession true).take 6)

def InitiatorPhase.isSentConfirm : InitiatorPhase → Bool
  | .sentConfirm .. => true
  | _ => false

theorem exists_awaitingFinal_of {p : Initiator → Prop}
    (hwaits : ∃ q ∈ (v3PairSetting.exec noStores awaitingFinal).initiators,
      q.1 = false ∧ q.2.phase.isSentConfirm = true ∧ q.2.failure = none ∧ p q.2) :
    ∃ x sent pin, (false, x) ∈ (v3PairSetting.exec noStores awaitingFinal).initiators ∧
      x.phase = .sentConfirm sent pin ∧ x.failure = none ∧ p x := by
  obtain ⟨⟨_, x⟩, hx, rfl, hphase, hrunning, hp⟩ := hwaits
  match hsent : x.phase with
  | .sentConfirm sent pin => exact ⟨x, sent, pin, hx, hsent, hrunning, hp⟩
  | .idle | .sentHello | .verified _ | .checked _ _ | .accepted _ _ | .pinned _ _
  | .confirmed _ _ _ =>
      rw [hsent] at hphase
      cases hphase

theorem exists_awaitingFinal : ∃ x sent pin,
    (false, x) ∈ (v3PairSetting.exec noStores awaitingFinal).initiators ∧
      x.phase = .sentConfirm sent pin ∧ x.failure = none := by
  obtain ⟨x, sent, pin, hx, hphase, hrunning, -⟩ :=
    exists_awaitingFinal_of (p := fun _ ↦ True) (by decide +kernel)
  exact ⟨x, sent, pin, hx, hphase, hrunning⟩

/-- An accept under a MAC that is all ones. -/
def forgedAccept : Bytes := 3 :: msgFinal :: statusAccept :: List.replicate macSize 0xff

/-- It is taken for a failed confirmation, not for a reject. -/
theorem message4_classified_forged : ∃ x sent pin,
    (false, x) ∈ (v3PairSetting.exec noStores awaitingFinal).initiators ∧
      ((v3PairSetting.handshake false).onMessage4 x forgedAccept (noStores false) (noStores false)
        (noStores false)).2.failure = some (.keys .keyConfirmation) ∧
      (v3PairSetting.handshake false).Classified sent pin forgedAccept (noStores false)
        (noStores false) (noStores false) ((v3PairSetting.handshake false).onMessage4 x
          forgedAccept (noStores false) (noStores false) (noStores false)) := by
  obtain ⟨x, sent, pin, hx, hphase, hrunning, hfailure⟩ :=
    exists_awaitingFinal_of (p := fun x ↦ ((v3PairSetting.handshake false).onMessage4 x
      forgedAccept (noStores false) (noStores false) (noStores false)).2.failure =
        some (.keys .keyConfirmation)) (by decide +kernel)
  have hversion : ¬ OtherVersion forgedAccept := by decide
  exact ⟨x, sent, pin, hx, hfailure, (message4_classified_iff (fun _ ↦ length_encode 32 _)
    (fun _ _ ↦ length_encode _ _) noStores awaitingFinal hx hphase hrunning forgedAccept _ _
    _).mpr hversion⟩

def version2Reject : Bytes := 2 :: msgFinal :: statusReject :: encode 32 0

/-- The reject of a peer that speaks version 2 is reported as a version mismatch. -/
theorem other_version_not_classified : ∃ x sent pin,
    (false, x) ∈ (v3PairSetting.exec noStores awaitingFinal).initiators ∧
      x.phase = .sentConfirm sent pin ∧ x.failure = none ∧
        ((v3PairSetting.handshake false).onMessage4 x version2Reject (noStores false)
          (noStores false) (noStores false)).2.failure =
            some (.message (.unsupportedVersion 2)) ∧
          ¬ (v3PairSetting.handshake false).Classified sent pin version2Reject (noStores false)
            (noStores false) (noStores false) ((v3PairSetting.handshake false).onMessage4 x
              version2Reject (noStores false) (noStores false) (noStores false)) := by
  obtain ⟨x, sent, pin, hx, hphase, hrunning⟩ := exists_awaitingFinal
  have hdecode : decodeFinal version2Reject = .error (.unsupportedVersion 2) := by
    decide +kernel
  have hverify : (v3PairSetting.handshake false).verifyFinal sent version2Reject =
      .error (.message (.unsupportedVersion 2)) := by
    simp [HandshakeV3.verifyFinal, hdecode, MessageError.isHandshakeMessageError]
  have hfails : (v3PairSetting.handshake false).onMessage4 x version2Reject (noStores false)
      (noStores false) (noStores false) =
        ([noStores false, noStores false, noStores false],
          x.fail (.message (.unsupportedVersion 2))) :=
    HandshakeV3.onMessage4_of_error hphase hrunning hverify
  have hnone : ∀ final, decodeFinal version2Reject ≠ .ok final := by
    rw [hdecode]
    exact fun _ ↦ nofun
  refine ⟨x, sent, pin, hx, hphase, hrunning, by rw [hfails]; rfl, fun hclassified ↦ ?_⟩
  have haccept : ¬ HandshakeV3.IsAccept version2Reject := by
    rintro ⟨final, hfinal, -⟩
    exact hnone final hfinal
  have hreject : ¬ (v3PairSetting.handshake false).RejectVerifies sent version2Reject := by
    rintro ⟨final, transcript, hfinal, -⟩
    exact hnone final hfinal
  have hunverified := hclassified.unverified haccept hreject
  rw [hfails] at hunverified
  cases hunverified

end SecureSync
