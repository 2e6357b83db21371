import SecureSync.HandshakeV3.Segments

/-!
# The moves of an exchange

What one step of an exchange can do, with the checks that have passed on the way
and the stores that it leaves.  Nothing below takes the steps apart again.
-/

namespace SecureSync

open Raising

/-! ## What a phase has established -/

namespace InitiatorPhase

def verified? : InitiatorPhase → Option ReplyVerified
  | .idle | .sentHello => none
  | .verified v | .checked v _ => some v
  | .sentConfirm sent _ | .accepted sent _ | .pinned sent _ | .confirmed sent _ _ =>
      some sent.toReplyVerified

def sent? : InitiatorPhase → Option ConfirmSent
  | .idle | .sentHello | .verified _ | .checked .. => none
  | .sentConfirm sent _ | .accepted sent _ | .pinned sent _ | .confirmed sent _ _ => some sent

/-- Message 4 is an accept. -/
def accepted? : InitiatorPhase → Option ConfirmSent
  | .idle | .sentHello | .verified _ | .checked .. | .sentConfirm .. => none
  | .accepted sent _ | .pinned sent _ | .confirmed sent _ _ => some sent

/-- The peer whose pin has been read and not written yet, and the pin that was read. -/
def reading? : InitiatorPhase → Option (HandshakeFields × Option Bytes)
  | .idle | .sentHello | .verified _ | .pinned .. | .confirmed .. => none
  | .checked v pin => some (v.reply.toHandshakeFields, pin)
  | .sentConfirm sent pin | .accepted sent pin => some (sent.reply.toHandshakeFields, pin)

/-- The peer that is about to be pinned, and the pin that has been read for it. -/
def writing? : InitiatorPhase → Option (HandshakeFields × Option Bytes)
  | .idle | .sentHello | .verified _ | .checked .. | .sentConfirm .. | .pinned .. | .confirmed .. =>
      none
  | .accepted sent pin => some (sent.reply.toHandshakeFields, pin)

/-- The peer that has been pinned. -/
def pinned? : InitiatorPhase → Option HandshakeFields
  | .idle | .sentHello | .verified _ | .checked .. | .sentConfirm .. | .accepted .. => none
  | .pinned sent _ | .confirmed sent _ _ => some sent.reply.toHandshakeFields

def confirmed? : InitiatorPhase → Option (ConfirmSent × HandshakeResult)
  | .idle | .sentHello | .verified _ | .checked .. | .sentConfirm .. | .accepted .. | .pinned .. =>
      none
  | .confirmed sent _ result => some (sent, result)

variable {phase : InitiatorPhase} {sent : ConfirmSent}

theorem reading?_of_writing? {peer : HandshakeFields} {pin : Option Bytes}
    (h : phase.writing? = some (peer, pin)) : phase.reading? = some (peer, pin) := by
  cases phase <;> cases h
  rfl

theorem verified?_of_sent? (h : sent ∈ phase.sent?) : sent.toReplyVerified ∈ phase.verified? := by
  cases phase <;> cases h <;> rfl

theorem sent?_of_accepted? (h : sent ∈ phase.accepted?) : sent ∈ phase.sent? := by
  cases phase <;> cases h <;> rfl

theorem accepted?_of_confirmed? {res : HandshakeResult} (h : (sent, res) ∈ phase.confirmed?) :
    sent ∈ phase.accepted? := by
  cases phase <;> cases h
  rfl

theorem sent?_of_confirmed? {res : HandshakeResult} (h : (sent, res) ∈ phase.confirmed?) :
    sent ∈ phase.sent? :=
  sent?_of_accepted? (accepted?_of_confirmed? h)

theorem pinned?_of_confirmed? {res : HandshakeResult} (h : (sent, res) ∈ phase.confirmed?) :
    sent.reply.toHandshakeFields ∈ phase.pinned? := by
  cases phase <;> cases h
  rfl

end InitiatorPhase

namespace ResponderPhase

def sent? : ResponderPhase → Option ReplySent
  | .waitHello => none
  | .sentReply sent | .verified sent _ | .checked sent _ _ | .authenticated sent _ _
  | .pinned sent _ _ | .recorded sent _ _ _ | .confirmed sent _ _ _ => some sent

/-- The signature in message 3 is verified. -/
def verified? : ResponderPhase → Option (ReplySent × ConfirmVerified)
  | .waitHello | .sentReply _ => none
  | .verified sent v | .checked sent v _ | .authenticated sent v _ | .pinned sent v _
  | .recorded sent v _ _ | .confirmed sent v _ _ => some (sent, v)

/-- So is its MAC. -/
def authenticated? : ResponderPhase → Option (ReplySent × ConfirmVerified)
  | .waitHello | .sentReply _ | .verified .. | .checked .. => none
  | .authenticated sent v _ | .pinned sent v _ | .recorded sent v _ _ | .confirmed sent v _ _ =>
      some (sent, v)

/-- The peer whose pin has been read and not written yet, and the pin that was read. -/
def reading? : ResponderPhase → Option (HandshakeFields × Option Bytes)
  | .waitHello | .sentReply _ | .verified .. | .pinned .. | .recorded .. | .confirmed .. => none
  | .checked sent _ pin | .authenticated sent _ pin => some (sent.hello.toHandshakeFields, pin)

def writing? : ResponderPhase → Option (HandshakeFields × Option Bytes)
  | .waitHello | .sentReply _ | .verified .. | .checked .. | .pinned .. | .recorded ..
  | .confirmed .. => none
  | .authenticated sent _ pin => some (sent.hello.toHandshakeFields, pin)

def pinned? : ResponderPhase → Option HandshakeFields
  | .waitHello | .sentReply _ | .verified .. | .checked .. | .authenticated .. => none
  | .pinned sent _ _ | .recorded sent _ _ _ | .confirmed sent _ _ _ =>
      some sent.hello.toHandshakeFields

/-- Message 4 is written. -/
def recorded? : ResponderPhase → Option (ReplySent × ConfirmVerified × HandshakeResult)
  | .waitHello | .sentReply _ | .verified .. | .checked .. | .authenticated .. | .pinned .. => none
  | .recorded sent v _ result | .confirmed sent v _ result => some (sent, v, result)

def confirmed? : ResponderPhase → Option (ReplySent × ConfirmVerified × HandshakeResult)
  | .waitHello | .sentReply _ | .verified .. | .checked .. | .authenticated .. | .pinned ..
  | .recorded .. => none
  | .confirmed sent v _ result => some (sent, v, result)

variable {phase : ResponderPhase} {sent : ReplySent} {v : ConfirmVerified} {res : HandshakeResult}

theorem reading?_of_writing? {peer : HandshakeFields} {pin : Option Bytes}
    (h : phase.writing? = some (peer, pin)) : phase.reading? = some (peer, pin) := by
  cases phase <;> cases h
  rfl

theorem sent?_of_verified? (h : (sent, v) ∈ phase.verified?) : sent ∈ phase.sent? := by
  cases phase <;> cases h <;> rfl

theorem verified?_of_authenticated? (h : (sent, v) ∈ phase.authenticated?) :
    (sent, v) ∈ phase.verified? := by
  cases phase <;> cases h <;> rfl

theorem authenticated?_of_recorded? (h : (sent, v, res) ∈ phase.recorded?) :
    (sent, v) ∈ phase.authenticated? := by
  cases phase <;> cases h <;> rfl

theorem recorded?_of_confirmed? (h : (sent, v, res) ∈ phase.confirmed?) :
    (sent, v, res) ∈ phase.recorded? := by
  cases phase <;> cases h
  rfl

theorem pinned?_of_confirmed? (h : (sent, v, res) ∈ phase.confirmed?) :
    sent.hello.toHandshakeFields ∈ phase.pinned? := by
  cases phase <;> cases h
  rfl

end ResponderPhase

namespace HandshakeV3

variable (handshake : HandshakeV3)

/-! ## The initiator -/

inductive InitiatorMoves (x : Initiator) (stores : HandshakeStores) (awaited : Awaited) :
    InitiatorPhase → HandshakeStores → Prop
  | stays : InitiatorMoves x stores awaited x.phase stores
  | verifies {m2 : Bytes} {verified : ReplyVerified} (hphase : x.phase = .sentHello)
      (h : handshake.verifyReply x.hello m2 = .ok verified) :
      InitiatorMoves x stores awaited (.verified verified) stores
  | checks {verified : ReplyVerified} (hphase : x.phase = .verified verified) :
      InitiatorMoves x stores awaited
        (.checked verified (stores.trusted.lookup verified.reply.deviceId)) stores
  | confirms {verified : ReplyVerified} {pin : Option Bytes} {sent : ConfirmSent}
      (hphase : x.phase = .checked verified pin)
      (h : handshake.confirm x.privateKey verified pin = .ok sent) :
      InitiatorMoves x stores awaited (.sentConfirm sent pin) stores
  | accepts {sent : ConfirmSent} {pin : Option Bytes} {m4 : Bytes}
      (hphase : x.phase = .sentConfirm sent pin) (h : handshake.verifyFinal sent m4 = .ok ()) :
      InitiatorMoves x stores awaited (.accepted sent pin) stores
  | pins {sent : ConfirmSent} {pin : Option Bytes} (hphase : x.phase = .accepted sent pin)
      (hrunning : x.failure = none) (hawaited : awaited = .returned) :
      InitiatorMoves x stores awaited (.pinned sent pin)
        (stores.trust sent.reply.deviceId sent.reply.identityPublicKey)
  | finishes {sent : ConfirmSent} {pin : Option Bytes} {res : HandshakeResult}
      (hphase : x.phase = .pinned sent pin)
      (h : result sent.reply.toHandshakeFields sent.secrets .initiator = .ok res) :
      InitiatorMoves x stores awaited (.confirmed sent pin res) stores

variable {handshake} {x : Initiator} {stores : HandshakeStores} {awaited : Awaited}
  {writable : Bool}

theorem initiatorStep_keys :
    (handshake.initiatorStep x stores awaited writable).1.privateKey = x.privateKey ∧
      (handshake.initiatorStep x stores awaited writable).1.hello = x.hello := by
  unfold initiatorStep Initiator.enter Initiator.write Initiator.fail
  repeat' split
  all_goals exact ⟨rfl, rfl⟩

theorem initiatorStep_moves (handshake : HandshakeV3) (x : Initiator) (stores : HandshakeStores)
    (awaited : Awaited) (writable : Bool) :
    handshake.InitiatorMoves x stores awaited
      (handshake.initiatorStep x stores awaited writable).1.phase
      (handshake.initiatorStep x stores awaited writable).2 := by
  unfold initiatorStep
  split_ifs with hfailed
  · exact .stays
  have hrunning : x.failure = none := by simpa using hfailed
  split
  case h_1 | h_2 | h_3 | h_10 => exact .stays
  case h_4 m2 hphase =>
    cases h : handshake.verifyReply x.hello m2 with
    | error e => exact .stays
    | ok verified => exact .verifies hphase h
  case h_5 verified hphase => exact .checks hphase
  case h_6 verified pin hphase =>
    cases h : handshake.confirm x.privateKey verified pin with
    | error e => exact .stays
    | ok sent =>
        cases writable with
        | false => exact .stays
        | true => exact .confirms hphase h
  case h_7 sent pin m4 hphase =>
    cases h : handshake.verifyFinal sent m4 with
    | error e => exact .stays
    | ok u => exact .accepts hphase h
  case h_8 sent pin hphase => exact .pins hphase hrunning rfl
  case h_9 sent pin hphase =>
    cases h : result sent.reply.toHandshakeFields sent.secrets .initiator with
    | error e => exact .stays
    | ok res => exact .finishes hphase h

/-! ## The responder -/

end HandshakeV3

/-- The stores differ in the count of half-open exchanges at most. -/
structure HandshakeStores.Same (stores stores' : HandshakeStores) : Prop where
  trusted : stores'.trusted = stores.trusted
  sessions : stores'.sessions = stores.sessions
  journal : stores'.journal = stores.journal

namespace HandshakeV3

variable (handshake : HandshakeV3)

inductive ResponderMoves (y : Responder) (stores : HandshakeStores) (awaited : Awaited) :
    ResponderPhase → HandshakeStores → Prop
  | stays {stores' : HandshakeStores} (hsame : stores.Same stores') :
      ResponderMoves y stores awaited y.phase stores'
  | replies {m1 : Bytes} {hello : HelloMessage} {sent : ReplySent} {stores' : HandshakeStores}
      (hphase : y.phase = .waitHello) (hhello : handshake.checkHello m1 = .ok hello)
      (h : handshake.reply y.privateKey y.nonce hello = .ok sent) (hsame : stores.Same stores') :
      ResponderMoves y stores awaited (.sentReply sent) stores'
  | verifies {sent : ReplySent} {m3 : Bytes} {verified : ConfirmVerified}
      (hphase : y.phase = .sentReply sent) (h : handshake.verifyConfirm sent m3 = .ok verified) :
      ResponderMoves y stores awaited (.verified sent verified) stores
  | checks {sent : ReplySent} {verified : ConfirmVerified}
      (hphase : y.phase = .verified sent verified) :
      ResponderMoves y stores awaited
        (.checked sent verified (stores.trusted.lookup sent.hello.deviceId)) stores
  | authenticates {sent : ReplySent} {verified : ConfirmVerified} {pin : Option Bytes}
      (hphase : y.phase = .checked sent verified pin)
      (h : handshake.authenticate sent verified pin = .ok ()) :
      ResponderMoves y stores awaited (.authenticated sent verified pin) stores
  | pins {sent : ReplySent} {verified : ConfirmVerified} {pin : Option Bytes}
      (hphase : y.phase = .authenticated sent verified pin) (hrunning : y.status = .running)
      (hawaited : awaited = .returned) :
      ResponderMoves y stores awaited (.pinned sent verified pin)
        (stores.trust sent.hello.deviceId sent.hello.identityPublicKey)
  /-- The callback runs, and message 4 is not written. -/
  | calls {sent : ReplySent} {verified : ConfirmVerified} {pin : Option Bytes}
      {res : HandshakeResult} {stores' : HandshakeStores}
      (hphase : y.phase = .pinned sent verified pin) (hrunning : y.status = .running)
      (hawaited : awaited = .returned)
      (hresult : result sent.hello.toHandshakeFields sent.secrets .responder = .ok res)
      (htrusted : stores'.trusted = stores.trusted)
      (hsessions : stores'.sessions = stateOf (y.onConfirmed res stores.sessions))
      (hjournal : stores.journal <+: stores'.journal) :
      ResponderMoves y stores awaited y.phase stores'
  | records {sent : ReplySent} {verified : ConfirmVerified} {pin : Option Bytes}
      {res : HandshakeResult} (hphase : y.phase = .pinned sent verified pin)
      (hrunning : y.status = .running) (hawaited : awaited = .returned)
      (hresult : result sent.hello.toHandshakeFields sent.secrets .responder = .ok res) :
      ResponderMoves y stores awaited (.recorded sent verified pin res)
        (stores.record res (stateOf (y.onConfirmed res stores.sessions)))
  | confirms {sent : ReplySent} {verified : ConfirmVerified} {pin : Option Bytes}
      {res : HandshakeResult} {stores' : HandshakeStores}
      (hphase : y.phase = .recorded sent verified pin res) (hsame : stores.Same stores') :
      ResponderMoves y stores awaited (.confirmed sent verified pin res) stores'

variable {handshake} {x : Initiator} {y : Responder} {stores stores' : HandshakeStores}
  {awaited : Awaited} {writable : Bool}

section Refuse

variable (sent : ReplySent) (m3 : Bytes) (error : HandshakeV3Error)

theorem refuse_keeps :
    (handshake.refuse y sent m3 error writable stores).1.phase = y.phase ∧
      (handshake.refuse y sent m3 error writable stores).1.privateKey = y.privateKey ∧
        (handshake.refuse y sent m3 error writable stores).1.nonce = y.nonce := by
  unfold refuse Responder.fail
  cases handshake.rejectMessage sent m3 with
  | error e => exact ⟨rfl, rfl, rfl⟩
  | ok message => cases writable <;> exact ⟨rfl, rfl, rfl⟩

theorem same_refuse : stores.Same (handshake.refuse y sent m3 error writable stores).2 := by
  unfold refuse Responder.fail
  cases handshake.rejectMessage sent m3 with
  | error e => exact ⟨rfl, rfl, rfl⟩
  | ok message => cases writable <;> exact ⟨rfl, rfl, rfl⟩

theorem refuse_stays :
    handshake.ResponderMoves y stores awaited
      (handshake.refuse y sent m3 error writable stores).1.phase
      (handshake.refuse y sent m3 error writable stores).2 := by
  rw [(refuse_keeps _ _ _).1]
  exact .stays (same_refuse _ _ _)

end Refuse

theorem fail_stays (error : HandshakeV3Error) (h : stores.Same stores') :
    handshake.ResponderMoves y stores awaited (y.fail error stores').1.phase
      (y.fail error stores').2 :=
  .stays ⟨h.trusted, h.sessions, h.journal⟩

theorem finishAccept_keys (sent : ReplySent) (verified : ConfirmVerified) (pin : Option Bytes) :
    (handshake.finishAccept y sent verified pin writable stores).1.privateKey = y.privateKey ∧
      (handshake.finishAccept y sent verified pin writable stores).1.nonce = y.nonce := by
  unfold finishAccept
  split
  · exact (refuse_keeps _ _ _).2
  split
  · exact (refuse_keeps _ _ _).2
  split
  · exact ⟨rfl, rfl⟩
  · cases writable <;> exact ⟨rfl, rfl⟩

theorem finishAccept_moves {sent : ReplySent} {verified : ConfirmVerified} {pin : Option Bytes}
    (hphase : y.phase = .pinned sent verified pin) (hrunning : y.status = .running) :
    handshake.ResponderMoves y stores .returned
      (handshake.finishAccept y sent verified pin writable stores).1.phase
      (handshake.finishAccept y sent verified pin writable stores).2 := by
  unfold finishAccept
  split
  case h_1 e hresult => exact refuse_stays _ _ _
  case h_2 res hresult =>
    split
    case h_1 e sessions hcall =>
      have hsame : (stores.callback sessions).Same (handshake.refuse y sent verified.confirm.raw e
          writable (stores.callback sessions)).2 := same_refuse _ _ _
      rw [(refuse_keeps _ _ _).1]
      refine .calls hphase hrunning rfl hresult hsame.trusted ?_ ?_
      · rw [hsame.sessions, hcall]
        rfl
      · rw [hsame.journal]
        exact List.prefix_rfl
    case h_2 u sessions hcall =>
      have hstate : sessions = stateOf (y.onConfirmed res stores.sessions) := by
        rw [hcall]
        rfl
      have hjournal : stores.journal <+: stores.journal ++ [.recorded res] :=
        List.prefix_append _ _
      split
      case h_1 e hmessage => exact .calls hphase hrunning rfl hresult rfl hstate hjournal
      case h_2 message hmessage =>
        cases writable with
        | false => exact .calls hphase hrunning rfl hresult rfl hstate hjournal
        | true =>
            rw [hstate]
            exact .records hphase hrunning rfl hresult

theorem responderStep_keys :
    (handshake.responderStep y stores awaited writable).1.privateKey = y.privateKey ∧
      (handshake.responderStep y stores awaited writable).1.nonce = y.nonce := by
  unfold responderStep Responder.fail Responder.write
  repeat' split
  all_goals first
    | exact ⟨rfl, rfl⟩
    | exact (refuse_keeps _ _ _).2
    | exact finishAccept_keys _ _ _

theorem responderStep_moves (handshake : HandshakeV3) (y : Responder) (stores : HandshakeStores)
    (awaited : Awaited) (writable : Bool) :
    handshake.ResponderMoves y stores awaited
      (handshake.responderStep y stores awaited writable).1.phase
      (handshake.responderStep y stores awaited writable).2 := by
  have hsame : stores.Same stores := ⟨rfl, rfl, rfl⟩
  unfold responderStep
  split
  case h_1 => exact .stays hsame
  case h_2 e hstatus =>
    split
    case h_1 => exact .stays hsame
    case h_2 | h_3 | h_4 => exact fail_stays _ hsame
  case h_3 hrunning =>
    split
    case h_1 m1 hphase =>
      split
      case h_1 e hhello => exact .stays hsame
      case h_2 hello hhello =>
        split_ifs with hbusy
        · exact .stays hsame
        split
        case h_1 e hreply => exact fail_stays _ ⟨rfl, rfl, rfl⟩
        case h_2 sent hreply =>
          cases writable with
          | false => exact fail_stays _ ⟨rfl, rfl, rfl⟩
          | true => exact .replies hphase hhello hreply ⟨rfl, rfl, rfl⟩
    case h_2 sent m3 hphase =>
      split
      case h_1 e hconfirm => exact refuse_stays _ _ _
      case h_2 verified hconfirm => exact .verifies hphase hconfirm
    case h_3 sent verified hphase => exact .checks hphase
    case h_4 sent verified pin hphase =>
      split
      case h_1 e hauthenticate => exact refuse_stays _ _ _
      case h_2 u hauthenticate => exact .authenticates hphase hauthenticate
    case h_5 sent verified pin hphase => exact .pins hphase hrunning rfl
    case h_6 sent verified pin hphase => exact finishAccept_moves hphase hrunning
    case h_7 sent verified pin res hphase => exact .confirms hphase ⟨rfl, rfl, rfl⟩
    case h_8 | h_15 => exact .stays hsame
    case h_9 | h_10 => exact fail_stays _ hsame
    case h_11 | h_12 | h_13 | h_14 => exact refuse_stays _ _ _

/-! ## Pins -/

/-- The trust store changes only when the exchange writes the pin of its peer. -/
theorem InitiatorMoves.trusted_cases {phase : InitiatorPhase}
    (h : handshake.InitiatorMoves x stores awaited phase stores') :
    (stores'.trusted = stores.trusted ∧ ∀ peer ∈ phase.pinned?, peer ∈ x.phase.pinned?) ∨
      ∃ peer pin, x.phase.writing? = some (peer, pin) ∧ x.failure = none ∧ awaited = .returned ∧
        phase.pinned? = some peer ∧
          stores'.trusted = stores.trusted.insert peer.deviceId peer.identityPublicKey := by
  cases h with
  | pins hphase hrunning hawaited =>
      exact .inr ⟨_, _, congrArg InitiatorPhase.writing? hphase, hrunning, hawaited, rfl, rfl⟩
  | stays => exact .inl ⟨rfl, fun _ h ↦ h⟩
  | verifies | checks | confirms | accepts =>
      exact .inl ⟨rfl, fun _ h ↦ absurd h (Option.not_mem_none _)⟩
  | finishes hphase =>
      rw [hphase]
      exact .inl ⟨rfl, fun _ h ↦ h⟩

theorem ResponderMoves.trusted_cases {phase : ResponderPhase}
    (h : handshake.ResponderMoves y stores awaited phase stores') :
    (stores'.trusted = stores.trusted ∧ ∀ peer ∈ phase.pinned?, peer ∈ y.phase.pinned?) ∨
      ∃ peer pin, y.phase.writing? = some (peer, pin) ∧ y.status = .running ∧
        awaited = .returned ∧ phase.pinned? = some peer ∧
          stores'.trusted = stores.trusted.insert peer.deviceId peer.identityPublicKey := by
  cases h with
  | pins hphase hrunning hawaited =>
      exact .inr ⟨_, _, congrArg ResponderPhase.writing? hphase, hrunning, hawaited, rfl, rfl⟩
  | stays hsame => exact .inl ⟨hsame.trusted, fun _ h ↦ h⟩
  | calls _ _ _ _ htrusted => exact .inl ⟨htrusted, fun _ h ↦ h⟩
  | replies _ _ _ hsame =>
      exact .inl ⟨hsame.trusted, fun _ h ↦ absurd h (Option.not_mem_none _)⟩
  | verifies | checks | authenticates =>
      exact .inl ⟨rfl, fun _ h ↦ absurd h (Option.not_mem_none _)⟩
  | records hphase =>
      rw [hphase]
      exact .inl ⟨rfl, fun _ h ↦ h⟩
  | confirms hphase hsame =>
      rw [hphase]
      exact .inl ⟨hsame.trusted, fun _ h ↦ h⟩

/-- A pin that an exchange has read was read before, or is read in this step. -/
theorem InitiatorMoves.reading_cases {phase : InitiatorPhase} {peer : HandshakeFields}
    {pin : Option Bytes} (h : handshake.InitiatorMoves x stores awaited phase stores')
    (hreading : phase.reading? = some (peer, pin)) :
    x.phase.reading? = some (peer, pin) ∨
      stores' = stores ∧ pin = stores.trusted.lookup peer.deviceId := by
  cases h with
  | stays => exact .inl hreading
  | verifies | pins | finishes => cases hreading
  | checks =>
      cases hreading
      exact .inr ⟨rfl, rfl⟩
  | confirms hphase hconfirm =>
      cases hreading
      rw [hphase, ← (confirm_eq_ok.mp hconfirm).2.2]
      exact .inl rfl
  | accepts hphase =>
      cases hreading
      rw [hphase]
      exact .inl rfl

theorem ResponderMoves.reading_cases {phase : ResponderPhase} {peer : HandshakeFields}
    {pin : Option Bytes} (h : handshake.ResponderMoves y stores awaited phase stores')
    (hreading : phase.reading? = some (peer, pin)) :
    y.phase.reading? = some (peer, pin) ∨
      stores' = stores ∧ pin = stores.trusted.lookup peer.deviceId := by
  cases h with
  | stays | calls => exact .inl hreading
  | replies | verifies | pins | records | confirms => cases hreading
  | checks =>
      cases hreading
      exact .inr ⟨rfl, rfl⟩
  | authenticates hphase =>
      cases hreading
      rw [hphase]
      exact .inl rfl

/-! ## Journals -/

theorem InitiatorMoves.journal_grows {phase : InitiatorPhase}
    (h : handshake.InitiatorMoves x stores awaited phase stores') :
    stores.journal <+: stores'.journal := by
  cases h with
  | pins => exact List.prefix_append _ _
  | stays | verifies | checks | confirms | accepts | finishes => exact List.prefix_rfl

theorem ResponderMoves.journal_grows {phase : ResponderPhase}
    (h : handshake.ResponderMoves y stores awaited phase stores') :
    stores.journal <+: stores'.journal := by
  cases h with
  | stays hsame | confirms _ hsame | replies _ _ _ hsame => rw [hsame.journal]
  | verifies | checks | authenticates => exact List.prefix_rfl
  | pins | records => exact List.prefix_append _ _
  | calls _ _ _ _ _ _ hjournal => exact hjournal

end HandshakeV3
end SecureSync
