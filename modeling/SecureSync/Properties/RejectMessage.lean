import SecureSync.HandshakeV3.Soundness
import SecureSync.HandshakeV3.Transcripts
import SecureSync.Infrastructure.MessageIo

/-!
# How a responder refuses message 3

Every failure after message 2 is answered with a reject that covers the bytes of
message 3, as long as they have a length prefix.
-/

namespace SecureSync

open BigEndian Raising

namespace HandshakeV3

variable (handshake : HandshakeV3)

/-- The step in which `_verify_message_3` raises. -/
inductive VerificationFails (y : Responder) (stores : HandshakeStores) (awaited : Awaited) :
    ReplySent → Bytes → HandshakeV3Error → Prop
  | confirm {sent : ReplySent} {m3 : Bytes} {e : HandshakeV3Error}
      (hphase : y.phase = .sentReply sent) (hawaited : awaited = .message m3)
      (h : handshake.verifyConfirm sent m3 = .error e) :
      VerificationFails y stores awaited sent m3 e
  | authenticate {sent : ReplySent} {verified : ConfirmVerified} {pin : Option Bytes}
      {e : HandshakeV3Error} (hphase : y.phase = .checked sent verified pin)
      (hawaited : awaited = .returned) (h : handshake.authenticate sent verified pin = .error e) :
      VerificationFails y stores awaited sent verified.confirm.raw e
  /-- A call of the trust store raises, or the exchange is cancelled. -/
  | raised {sent : ReplySent} {verified : ConfirmVerified} {e : HandshakeV3Error}
      (hphase : y.phase.verified? = some (sent, verified)) (hrecorded : y.phase.recorded? = none)
      (hawaited : awaited = .raised e) :
      VerificationFails y stores awaited sent verified.confirm.raw e
  | result {sent : ReplySent} {verified : ConfirmVerified} {pin : Option Bytes}
      {e : HandshakeV3Error} (hphase : y.phase = .pinned sent verified pin)
      (hawaited : awaited = .returned)
      (h : result sent.hello.toHandshakeFields sent.secrets .responder = .error e) :
      VerificationFails y stores awaited sent verified.confirm.raw e
  | onConfirmed {sent : ReplySent} {verified : ConfirmVerified} {pin : Option Bytes}
      {res : HandshakeResult} {e : HandshakeV3Error} {sessions : List HandshakeResult}
      (hphase : y.phase = .pinned sent verified pin) (hawaited : awaited = .returned)
      (hres : result sent.hello.toHandshakeFields sent.secrets .responder = .ok res)
      (h : y.onConfirmed res stores.sessions = .error e sessions) :
      VerificationFails y stores awaited sent verified.confirm.raw e

variable {handshake} {y : Responder} {stores stores' : HandshakeStores} {awaited : Awaited}
  {writable : Bool} {sent : ReplySent} {m3 : Bytes} {e : HandshakeV3Error}

theorem responderStep_raised {verified : ConfirmVerified} (hrunning : y.status = .running)
    (hphase : y.phase.verified? = some (sent, verified)) (hrecorded : y.phase.recorded? = none) :
    handshake.responderStep y stores (.raised e) writable =
      handshake.refuse y sent verified.confirm.raw e writable stores := by
  obtain ⟨privateKey, nonce, onConfirmed, phase, status, refused, written⟩ := y
  obtain rfl : status = .running := hrunning
  cases phase with
  | waitHello | sentReply sent => cases hphase
  | verified sent' verified' | checked sent' verified' pin | authenticated sent' verified' pin
  | pinned sent' verified' pin =>
      cases hphase
      rfl
  | recorded sent' verified' pin res | confirmed sent' verified' pin res => cases hrecorded

theorem VerificationFails.sent_eq (h : handshake.VerificationFails y stores awaited sent m3 e) :
    y.phase.sent? = some sent := by
  cases h with
  | confirm hphase hawaited h => rw [hphase]; rfl
  | authenticate hphase hawaited h => rw [hphase]; rfl
  | raised hphase hrecorded hawaited => exact ResponderPhase.sent?_of_verified? hphase
  | result hphase hawaited h => rw [hphase]; rfl
  | onConfirmed hphase hawaited hres h => rw [hphase]; rfl

theorem VerificationFails.responderStep_eq (hrunning : y.status = .running)
    (h : handshake.VerificationFails y stores awaited sent m3 e) (writable : Bool) :
    ∃ stores', handshake.responderStep y stores awaited writable =
      handshake.refuse y sent m3 e writable stores' := by
  cases h with
  | confirm hphase hawaited h =>
      subst hawaited
      exact ⟨stores, by simp only [responderStep, hrunning, hphase, h]⟩
  | authenticate hphase hawaited h =>
      subst hawaited
      exact ⟨stores, by simp only [responderStep, hrunning, hphase, h]⟩
  | raised hphase hrecorded hawaited =>
      subst hawaited
      exact ⟨stores, responderStep_raised hrunning hphase hrecorded⟩
  | result hphase hawaited h =>
      subst hawaited
      exact ⟨stores, by simp only [responderStep, hrunning, hphase, finishAccept, h]⟩
  | @onConfirmed _ _ _ _ sessions hphase hawaited hres h =>
      subst hawaited
      refine ⟨stores.callback sessions, ?_⟩
      simp only [responderStep, hrunning, hphase, finishAccept, hres, h]

/-- One reject that is authenticated over message 3, and then the error. -/
def Refused (handshake : HandshakeV3) (y : Responder) (sent : ReplySent) (m3 : Bytes)
    (e : HandshakeV3Error) (left : Responder) : Prop :=
  ∃ transcript macF message,
    transcriptM4Reject handshake.crypto.sha256 sent.t2s m3 = .ok transcript ∧
      confirmationMac handshake.crypto.hmac sent.secrets.responderConfirmationKey transcript =
          .ok macF ∧
        encodeFinal statusReject macF = .ok message ∧ left.written = y.written ++ [message] ∧
          left.status = .failed e

/-- The exchange after it has failed and its reject, if it writes one, is drained;
`later` is what comes then. -/
def afterFailure (handshake : HandshakeV3) (y : Responder) (stores stores' : HandshakeStores)
    (awaited : Awaited) (later : List (HandshakeStores × Awaited × Bool)) : Responder :=
  later.foldl (fun y input ↦ (handshake.responderStep y input.1 input.2.1 input.2.2).1)
    (handshake.responderStep (handshake.responderStep y stores awaited true).1 stores' .returned
      true).1

theorem responderStep_failed (h : y.status = .failed e) (stores : HandshakeStores)
    (awaited : Awaited) (writable : Bool) :
    handshake.responderStep y stores awaited writable = (y, stores) := by
  simp only [responderStep, h]

theorem afterFailure_eq {later : List (HandshakeStores × Awaited × Bool)}
    (h : (handshake.responderStep (handshake.responderStep y stores awaited true).1 stores'
      .returned true).1.status = .failed e) :
    handshake.afterFailure y stores stores' awaited later =
      (handshake.responderStep (handshake.responderStep y stores awaited true).1 stores' .returned
        true).1 := by
  unfold afterFailure
  generalize (handshake.responderStep (handshake.responderStep y stores awaited true).1 stores'
    .returned true).1 = left at h
  induction later with
  | nil => rfl
  | cons input later ih =>
      rw [List.foldl_cons, responderStep_failed h, ih]

theorem refuse_of_fits (y : Responder) (e : HandshakeV3Error) (stores : HandshakeStores)
    {message : Bytes} (h : handshake.rejectMessage sent m3 = .ok message) :
    (handshake.refuse y sent m3 e true stores).1.written = y.written ++ [message] ∧
      (handshake.refuse y sent m3 e true stores).1.status = .rejecting e := by
  simp only [refuse, h, if_true, and_self]

theorem responderStep_rejecting (h : y.status = .rejecting e) :
    handshake.responderStep y stores .returned writable = y.fail e stores := by
  simp only [responderStep, h]

/-- Without a reject the connection closes in silence. -/
theorem afterFailure_of_not_fits (hrunning : y.status = .running)
    (h : handshake.VerificationFails y stores awaited sent m3 e) (hm3 : ¬ m3.length < 65536)
    (stores' : HandshakeStores) (later : List (HandshakeStores × Awaited × Bool)) :
    (handshake.afterFailure y stores stores' awaited later).written = y.written ∧
      (handshake.afterFailure y stores stores' awaited later).status = .failed e := by
  obtain ⟨stores₁, hstep⟩ := h.responderStep_eq hrunning true
  have hfails : handshake.responderStep y stores awaited true = y.fail e stores₁ := by
    cases hreject : handshake.rejectMessage sent m3 with
    | ok message => exact absurd (rejectMessage_eq_ok.mp hreject).1 hm3
    | error error => simp only [hstep, refuse, hreject]
  have hfailed : (handshake.responderStep y stores awaited true).1.status = .failed e := by
    rw [hfails]
    rfl
  have hstays : handshake.responderStep (handshake.responderStep y stores awaited true).1 stores'
      .returned true = (_, stores') :=
    responderStep_failed hfailed stores' .returned true
  rw [afterFailure_eq (e := e), hstays, hfails]
  · exact ⟨rfl, rfl⟩
  · rw [hstays]
    exact hfailed

theorem refused_iff (hsized : handshake.crypto.sha256.Sized)
    (hhmac : ∀ key transcript, (handshake.crypto.hmac key transcript).length = macSize)
    (hkey : sent.secrets.responderConfirmationKey.length = keySize) (hrunning : y.status = .running)
    (h : handshake.VerificationFails y stores awaited sent m3 e)
    (later : List (HandshakeStores × Awaited × Bool)) :
    handshake.Refused y sent m3 e (handshake.afterFailure y stores stores' awaited later) ↔
      m3.length < 65536 := by
  constructor
  · rintro ⟨transcript, macF, message, htranscript, -⟩
    exact (transcriptM4Reject_eq_ok.mp htranscript).1
  · intro hm3
    have hmac :=
      @confirmationMac_run handshake.crypto.hmac _ _ hkey (hsized (rejectInput sent.t2s m3))
    have hreject := rejectMessage_eq_ok.mpr ⟨hm3, _, hhmac _ _, hmac, rfl⟩
    obtain ⟨stores₁, hstep⟩ := h.responderStep_eq hrunning true
    obtain ⟨hwritten, hstatus⟩ := refuse_of_fits y e stores₁ hreject
    rw [afterFailure_eq (e := e), hstep, responderStep_rejecting hstatus]
    · exact ⟨_, _, _, transcriptM4Reject_eq_ok.mpr ⟨hm3, rfl⟩, hmac,
        encodeFinal_eq_ok.mpr ⟨.inr rfl, hhmac _ _, rfl⟩, hwritten, rfl⟩
    · rw [hstep, responderStep_rejecting hstatus]
      rfl

end HandshakeV3

/-- A message 3 that fails is refused with an authenticated reject, unless it is as long
as the reader allows: then its length has no prefix, and nothing is written. -/
theorem message3_refused_iff {δ : Type} [DecidableEq δ] {setting : HandshakeSetting δ}
    (hsized : setting.crypto.sha256.Sized)
    (hhmac : ∀ key transcript, (setting.crypto.hmac key transcript).length = macSize)
    (stores : δ → HandshakeStores) (events : List (HandshakeEvent δ)) {d : δ} {y : Responder}
    (hy : (d, y) ∈ (setting.exec stores events).responders) (hrunning : y.status = .running)
    {m3 : Bytes} {stream stream' : Stream}
    (hdelivered : readLengthPrefixed maxHandshakeMessageSize stream = .ok m3 stream')
    {s₁ : HandshakeStores} {awaited : Awaited} {sent : ReplySent} {e : HandshakeV3Error}
    (h : (setting.handshake d).VerificationFails y s₁ awaited sent m3 e) (s₂ : HandshakeStores)
    (later : List (HandshakeStores × Awaited × Bool)) :
    (setting.handshake d).Refused y sent m3 e
        ((setting.handshake d).afterFailure y s₁ s₂ awaited later) ↔
      m3.length ≠ maxHandshakeMessageSize := by
  have hsound := (setting.sound_exec stores events).responders _ hy
  have hreply := (hsound.sent sent h.sent_eq).reply
  have hkey := (confirmationMac_eq_ok.mp hreply.macR_eq).1
  have hle := length_le_of_readLengthPrefixed hdelivered
  rw [HandshakeV3.refused_iff hsized hhmac hkey hrunning h]
  exact ⟨Nat.ne_of_lt, Nat.lt_of_le_of_ne hle⟩

/-! ### Bob waits for message 3 -/

/-- The handshake of Alice and Bob, up to Bob's message 2. -/
def awaitingConfirm : List (HandshakeEvent Bool) :=
  v3PairSetting.relay ⟨noStores, [], []⟩ ((pairTurns keepSession true).take 3)

def ResponderPhase.isSentReply : ResponderPhase → Bool
  | .sentReply _ => true
  | _ => false

theorem exists_awaitingConfirm : ∃ y sent,
    (true, y) ∈ (v3PairSetting.exec noStores awaitingConfirm).responders ∧
      y.phase = .sentReply sent ∧ y.status = .running := by
  have hwaits : ∃ p ∈ (v3PairSetting.exec noStores awaitingConfirm).responders,
      p.1 = true ∧ p.2.phase.isSentReply = true ∧ p.2.status = .running := by
    decide +kernel
  obtain ⟨⟨_, y⟩, hy, rfl, hphase, hrunning⟩ := hwaits
  cases hsent : y.phase with
  | sentReply sent => exact ⟨y, sent, hy, hsent, hrunning⟩
  | waitHello | verified sent v | checked sent v pin | authenticated sent v pin
  | pinned sent v pin | recorded sent v pin res | confirmed sent v pin res =>
      rw [hsent] at hphase
      cases hphase

/-- A message 3 that ends after the signature. -/
def cutConfirm : Bytes := 3 :: msgConfirm :: List.replicate ed25519SignatureSize 7

theorem message3_refused_cut : ∃ y sent e,
    (true, y) ∈ (v3PairSetting.exec noStores awaitingConfirm).responders ∧
      decodeConfirm cutConfirm = .error e ∧
      (v3PairSetting.handshake true).Refused y sent cutConfirm (.message e)
        ((v3PairSetting.handshake true).afterFailure y (noStores true) (noStores true)
          (.message cutConfirm) []) := by
  obtain ⟨y, sent, hy, hphase, hrunning⟩ := exists_awaitingConfirm
  have hread : readLengthPrefixed maxHandshakeMessageSize
      ⟨encode 4 66 ++ cutConfirm ++ [], false⟩ = .ok cutConfirm ⟨[], false⟩ :=
    (readLengthPrefixed_write rfl).mpr (by decide)
  obtain ⟨e, hdecode⟩ : ∃ e, decodeConfirm cutConfirm = .error e := ⟨_, rfl⟩
  have hverify : (v3PairSetting.handshake true).verifyConfirm sent cutConfirm =
      .error (.message e) := by
    rw [HandshakeV3.verifyConfirm, hdecode]
    rfl
  exact ⟨y, sent, e, hy, hdecode, (message3_refused_iff (fun _ ↦ length_encode 32 _)
    (fun _ _ ↦ length_encode 32 _) noStores awaitingConfirm hy hrunning hread
    (.confirm hphase rfl hverify) _ []).mpr (by decide +kernel)⟩

/-- As many zeros as the reader allows. -/
def longestConfirm : Bytes := List.replicate maxHandshakeMessageSize 0

/-- The longest message 3 is malformed, and the connection closes without an answer. -/
theorem longest_confirm_not_refused : ∃ y sent stream',
    (true, y) ∈ (v3PairSetting.exec noStores awaitingConfirm).responders ∧
      readLengthPrefixed maxHandshakeMessageSize
          ⟨encode 4 maxHandshakeMessageSize ++ longestConfirm, false⟩ =
        .ok longestConfirm stream' ∧
        (v3PairSetting.handshake true).VerificationFails y (noStores true)
          (.message longestConfirm) sent longestConfirm (.message (.unsupportedVersion 0)) ∧
          ((v3PairSetting.handshake true).afterFailure y (noStores true) (noStores true)
            (.message longestConfirm) []).written = y.written ∧
            ¬ (v3PairSetting.handshake true).Refused y sent longestConfirm
              (.message (.unsupportedVersion 0)) ((v3PairSetting.handshake true).afterFailure y
                (noStores true) (noStores true) (.message longestConfirm) []) := by
  obtain ⟨y, sent, hy, hphase, hrunning⟩ := exists_awaitingConfirm
  have hlength : longestConfirm.length = maxHandshakeMessageSize := List.length_replicate
  have hread : readLengthPrefixed maxHandshakeMessageSize
      ⟨encode 4 maxHandshakeMessageSize ++ longestConfirm ++ [], false⟩ =
        .ok longestConfirm ⟨[], false⟩ := by
    apply (readLengthPrefixed_write ?_).mpr hlength.le
    rw [writeMessage?, hlength]
    rfl
  rw [List.append_nil] at hread
  have hzeros : longestConfirm = 0 :: 0 :: List.replicate 65534 0 := by
    rw [longestConfirm, maxHandshakeMessageSize, List.replicate_succ, List.replicate_succ]
  have hverify : (v3PairSetting.handshake true).verifyConfirm sent longestConfirm =
      .error (.message (.unsupportedVersion 0)) := by
    rw [hzeros]
    rfl
  have hlong : ¬ longestConfirm.length < 65536 := by
    rw [hlength]
    exact lt_irrefl _
  have hfails : (v3PairSetting.handshake true).VerificationFails y (noStores true)
      (.message longestConfirm) sent longestConfirm (.message (.unsupportedVersion 0)) :=
    .confirm hphase rfl hverify
  have hsilent := HandshakeV3.afterFailure_of_not_fits hrunning hfails hlong (noStores true) []
  refine ⟨y, sent, _, hy, hread, hfails, hsilent.1, ?_⟩
  rintro ⟨transcript, macF, message, htranscript, -⟩
  exact hlong (transcriptM4Reject_eq_ok.mp htranscript).1

end SecureSync
