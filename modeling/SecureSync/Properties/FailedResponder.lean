import SecureSync.HandshakeV3.System
import SecureSync.Library.Machines

/-!
# A responder that fails

The pin is written before the callback runs, and the session recorded before
message 4 is written.  An exchange that fails after either leaves it behind.
-/

namespace SecureSync

open BigEndian Machines Raising

/-- What an exchange finds when it goes on: stores which others may have changed,
the end of what it awaits, and whether the deadline lets it write. -/
structure ResponderInput where
  stores : HandshakeStores
  awaited : Awaited
  writable : Bool

namespace HandshakeV3

variable (handshake : HandshakeV3)

def goOn (y : Responder) (input : ResponderInput) : Responder × HandshakeStores :=
  handshake.responderStep y input.stores input.awaited input.writable

/-- The step changes neither the trust store nor the recorded sessions. -/
def NoTrace (y : Responder) (input : ResponderInput) : Prop :=
  (handshake.goOn y input).2.trusted = input.stores.trusted ∧
    (handshake.goOn y input).2.sessions = input.stores.sessions

end HandshakeV3

/-- If `trust` is called, then with the pin that is there already; and if the
callback is, it leaves the sessions as they are. -/
def Responder.Harmless (y : Responder) (input : ResponderInput) : Prop :=
  y.status = .running → input.awaited = .returned →
    match y.phase with
    | .authenticated sent _ _ => input.stores.trusted.lookup sent.hello.deviceId =
        some sent.hello.identityPublicKey
    | .pinned sent _ _ => ∀ res,
        HandshakeV3.result sent.hello.toHandshakeFields sent.secrets .responder = .ok res →
          stateOf (y.onConfirmed res input.stores.sessions) = input.stores.sessions
    | _ => True

namespace HandshakeV3

variable {handshake : HandshakeV3} {y : Responder} {stores : HandshakeStores} {writable : Bool}
  {sent : ReplySent} {verified : ConfirmVerified} {pin : Option Bytes}

theorem responderStep_authenticated (hrunning : y.status = .running)
    (hphase : y.phase = .authenticated sent verified pin) :
    handshake.responderStep y stores .returned writable =
      ({ y with phase := .pinned sent verified pin },
        stores.trust sent.hello.deviceId sent.hello.identityPublicKey) := by
  simp only [responderStep, hrunning, hphase]

theorem responderStep_pinned (hrunning : y.status = .running)
    (hphase : y.phase = .pinned sent verified pin) :
    handshake.responderStep y stores .returned writable =
      handshake.finishAccept y sent verified pin writable stores := by
  simp only [responderStep, hrunning, hphase]

theorem finishAccept_stores {res : HandshakeResult}
    (hresult : result sent.hello.toHandshakeFields sent.secrets .responder = .ok res) :
    (handshake.finishAccept y sent verified pin writable stores).2.trusted = stores.trusted ∧
      (handshake.finishAccept y sent verified pin writable stores).2.sessions =
        stateOf (y.onConfirmed res stores.sessions) := by
  unfold finishAccept
  rw [hresult]
  dsimp only
  split
  case h_1 e sessions hcall =>
    have hsame : (stores.callback sessions).Same (handshake.refuse y sent verified.confirm.raw e
        writable (stores.callback sessions)).2 := same_refuse _ _ _
    rw [hcall, hsame.trusted, hsame.sessions]
    exact ⟨rfl, rfl⟩
  case h_2 u sessions hcall =>
    rw [hcall]
    split
    case h_1 e hmessage => exact ⟨rfl, rfl⟩
    case h_2 message hmessage => cases writable <;> exact ⟨rfl, rfl⟩

end HandshakeV3

theorem insert_eq_self_iff {trusted : TrustStore} {deviceId : DeviceId} {key : Bytes} :
    trusted.insert deviceId key = trusted ↔ trusted.lookup deviceId = some key := by
  constructor
  · intro h
    rw [← h, Finmap.lookup_insert]
  · intro h
    refine Finmap.ext_lookup fun id ↦ ?_
    by_cases hid : id = deviceId
    · rw [hid, Finmap.lookup_insert, h]
    · rw [Finmap.lookup_insert_of_ne _ hid]

namespace HandshakeV3

variable {handshake : HandshakeV3} {y : Responder} {input : ResponderInput}

theorem noTrace_of_harmless (h : y.Harmless input) : handshake.NoTrace y input := by
  have hmoves := handshake.responderStep_moves y input.stores input.awaited input.writable
  unfold NoTrace goOn
  generalize (handshake.responderStep y input.stores input.awaited input.writable).1.phase =
    phase, (handshake.responderStep y input.stores input.awaited input.writable).2 = stores'
    at hmoves
  cases hmoves with
  | stays hsame => exact ⟨hsame.trusted, hsame.sessions⟩
  | replies _ _ _ hsame | confirms _ hsame => exact ⟨hsame.trusted, hsame.sessions⟩
  | verifies | checks | authenticates => exact ⟨rfl, rfl⟩
  | pins hphase hrunning hawaited =>
      have hpinned := h hrunning hawaited
      rw [hphase] at hpinned
      exact ⟨insert_eq_self_iff.mpr hpinned, rfl⟩
  | calls hphase hrunning hawaited hresult htrusted hsessions =>
      have hsilent := h hrunning hawaited
      rw [hphase] at hsilent
      exact ⟨htrusted, hsessions.trans (hsilent _ hresult)⟩
  | records hphase hrunning hawaited hresult =>
      have hsilent := h hrunning hawaited
      rw [hphase] at hsilent
      exact ⟨rfl, hsilent _ hresult⟩

theorem harmless_of_noTrace (h : handshake.NoTrace y input) : y.Harmless input := by
  obtain ⟨stores, awaited, writable⟩ := input
  intro hrunning hawaited
  obtain rfl : awaited = .returned := hawaited
  unfold NoTrace goOn at h
  split
  case h_1 sent verified pin hphase =>
    rw [responderStep_authenticated hrunning hphase] at h
    exact insert_eq_self_iff.mp h.1
  case h_2 sent verified pin hphase =>
    intro res hresult
    rw [responderStep_pinned hrunning hphase] at h
    exact (finishAccept_stores hresult).2.symm.trans h.2
  case h_3 => trivial

theorem noTrace_iff_harmless (y : Responder) (input : ResponderInput) :
    handshake.NoTrace y input ↔ y.Harmless input :=
  ⟨harmless_of_noTrace, noTrace_of_harmless⟩

end HandshakeV3

/-! ## An exchange on its own -/

namespace HandshakeV3

variable (handshake : HandshakeV3)

def goOnAlone (p : Responder × HandshakeStores) (input : Awaited × Bool) :
    Responder × HandshakeStores :=
  handshake.responderStep p.1 p.2 input.1 input.2

variable {handshake} {y : Responder} {stores stores' : HandshakeStores} {awaited : Awaited}
  {writable : Bool} {phase : ResponderPhase}

/-- A pin is written once only. -/
theorem ResponderMoves.trusted_of_pinned (h : handshake.ResponderMoves y stores awaited phase
    stores') (hpinned : y.phase.pinned?.isSome) :
    stores'.trusted = stores.trusted ∧ phase.pinned?.isSome := by
  cases h with
  | stays hsame => exact ⟨hsame.trusted, hpinned⟩
  | calls _ _ _ _ htrusted => exact ⟨htrusted, hpinned⟩
  | records => exact ⟨rfl, rfl⟩
  | confirms _ hsame => exact ⟨hsame.trusted, rfl⟩
  | replies hphase | verifies hphase | checks hphase | authenticates hphase | pins hphase =>
      rw [hphase] at hpinned
      cases hpinned

theorem trusted_alone_iff {p : Responder × HandshakeStores} {inputs : List (Awaited × Bool)} :
    (inputs.foldl handshake.goOnAlone p).2.trusted = p.2.trusted ↔
      Meets handshake.goOnAlone (fun p input ↦ (handshake.goOnAlone p input).2.trusted =
        p.2.trusted) p inputs := by
  refine foldl_eq_iff_meets (g := fun p : Responder × HandshakeStores ↦ p.2.trusted)
    (S := fun p ↦ p.1.phase.pinned?.isSome) (fun p input ↦ ?_) (fun p input hpinned ↦ ?_)
  · rcases (handshake.responderStep_moves p.1 p.2 input.1 input.2).trusted_cases with
      ⟨htrusted, -⟩ | ⟨peer, pin, -, -, -, hpinned, -⟩
    · exact .inl htrusted
    · exact .inr (Option.isSome_iff_exists.mpr ⟨peer, hpinned⟩)
  · exact (handshake.responderStep_moves p.1 p.2 input.1 input.2).trusted_of_pinned hpinned

end HandshakeV3

/-- An exchange that will not call its callback any more. -/
def Responder.Spent (y : Responder) : Prop := y.status ≠ .running ∨ y.phase.recorded?.isSome

namespace HandshakeV3

variable {handshake : HandshakeV3} {y : Responder} {stores : HandshakeStores} {awaited : Awaited}
  {writable : Bool}

theorem refuse_status (sent : ReplySent) (m3 : Bytes) (error : HandshakeV3Error) :
    (handshake.refuse y sent m3 error writable stores).1.status ≠ .running := by
  unfold refuse Responder.fail
  cases handshake.rejectMessage sent m3 with
  | error e => exact nofun
  | ok message => cases writable <;> exact nofun

theorem spent_finishAccept (sent : ReplySent) (verified : ConfirmVerified) (pin : Option Bytes) :
    (handshake.finishAccept y sent verified pin writable stores).1.Spent := by
  unfold finishAccept
  split
  · exact .inl (refuse_status _ _ _)
  split
  · exact .inl (refuse_status _ _ _)
  split
  · exact .inl nofun
  · cases writable with
    | false => exact .inl nofun
    | true => exact .inr rfl

/-- The sessions change only when the callback runs, and it runs once. -/
theorem sessions_responderStep :
    (handshake.responderStep y stores awaited writable).2.sessions = stores.sessions ∨
      (handshake.responderStep y stores awaited writable).1.Spent := by
  have hmoves := handshake.responderStep_moves y stores awaited writable
  have hpinned : ∀ sent verified pin, y.phase = .pinned sent verified pin → y.status = .running →
      awaited = .returned → (handshake.responderStep y stores awaited writable).1.Spent := by
    rintro sent verified pin hphase hrunning rfl
    rw [responderStep_pinned hrunning hphase]
    exact spent_finishAccept _ _ _
  generalize (handshake.responderStep y stores awaited writable).1.phase = phase,
    (handshake.responderStep y stores awaited writable).2 = stores' at hmoves ⊢
  cases hmoves with
  | stays hsame | replies _ _ _ hsame | confirms _ hsame => exact .inl hsame.sessions
  | verifies | checks | authenticates | pins => exact .inl rfl
  | calls hphase hrunning hawaited => exact .inr (hpinned _ _ _ hphase hrunning hawaited)
  | records hphase hrunning hawaited => exact .inr (hpinned _ _ _ hphase hrunning hawaited)

theorem spent_responderStep (h : y.Spent) :
    (handshake.responderStep y stores awaited writable).2.sessions = stores.sessions ∧
      (handshake.responderStep y stores awaited writable).1.Spent := by
  rcases h with hstatus | hrecorded
  · unfold responderStep
    split
    case h_1 => exact ⟨rfl, .inl hstatus⟩
    case h_2 e _ =>
      split
      case h_1 => exact ⟨rfl, .inl hstatus⟩
      case h_2 | h_3 | h_4 => exact ⟨rfl, .inl nofun⟩
    case h_3 hrunning => exact absurd hrunning hstatus
  · have hmoves := handshake.responderStep_moves y stores awaited writable
    unfold Responder.Spent
    generalize (handshake.responderStep y stores awaited writable).1.phase = phase,
      (handshake.responderStep y stores awaited writable).2 = stores' at hmoves ⊢
    cases hmoves with
    | stays hsame => exact ⟨hsame.sessions, .inr hrecorded⟩
    | confirms _ hsame => exact ⟨hsame.sessions, .inr rfl⟩
    | replies hphase | verifies hphase | checks hphase | authenticates hphase | pins hphase
    | calls hphase | records hphase =>
        rw [hphase] at hrecorded
        cases hrecorded

theorem sessions_alone_iff {p : Responder × HandshakeStores} {inputs : List (Awaited × Bool)} :
    (inputs.foldl handshake.goOnAlone p).2.sessions = p.2.sessions ↔
      Meets handshake.goOnAlone (fun p input ↦ (handshake.goOnAlone p input).2.sessions =
        p.2.sessions) p inputs :=
  foldl_eq_iff_meets (g := fun p : Responder × HandshakeStores ↦ p.2.sessions)
    (S := fun p ↦ p.1.Spent) (fun _ _ ↦ sessions_responderStep)
    (fun _ _ h ↦ spent_responderStep h)

/-- On its own, an exchange ends with the stores that it began with if and only
if no step of it leaves a trace. -/
theorem kept_alone_iff {p : Responder × HandshakeStores} {inputs : List (Awaited × Bool)} :
    ((inputs.foldl handshake.goOnAlone p).2.trusted = p.2.trusted ∧
        (inputs.foldl handshake.goOnAlone p).2.sessions = p.2.sessions) ↔
      Meets handshake.goOnAlone (fun p input ↦ p.1.Harmless ⟨p.2, input.1, input.2⟩) p inputs := by
  rw [trusted_alone_iff, sessions_alone_iff, ← meets_and]
  exact meets_congr fun (p : Responder × HandshakeStores) (input : Awaited × Bool) ↦
    noTrace_iff_harmless p.1 ⟨p.2, input.1, input.2⟩

end HandshakeV3

/-- A failed exchange leaves no trace if and only if `trust`, when it is called,
finds the pin there already and the callback, when it is, leaves the sessions as
they are: whatever others do to the stores meanwhile, and for the stores before
and after an exchange on its own. -/
theorem failed_leaves_no_trace_iff (handshake : HandshakeV3) (privateKey nonce : Bytes)
    (onConfirmed : OnConfirmed) :
    (∀ (inputs : List ResponderInput) (e : HandshakeV3Error),
        (inputs.foldl (fun y input ↦ (handshake.goOn y input).1)
            (HandshakeV3.accept privateKey nonce onConfirmed)).status = .failed e →
          (Meets (fun y input ↦ (handshake.goOn y input).1) handshake.NoTrace
              (HandshakeV3.accept privateKey nonce onConfirmed) inputs ↔
            Meets (fun y input ↦ (handshake.goOn y input).1) Responder.Harmless
              (HandshakeV3.accept privateKey nonce onConfirmed) inputs)) ∧
      ∀ (stores after : HandshakeStores) (y : Responder) (inputs : List (Awaited × Bool))
        (e : HandshakeV3Error),
        inputs.foldl handshake.goOnAlone (HandshakeV3.accept privateKey nonce onConfirmed, stores) =
            (y, after) →
          y.status = .failed e →
            ((after.trusted = stores.trusted ∧ after.sessions = stores.sessions) ↔
              Meets handshake.goOnAlone (fun p input ↦ p.1.Harmless ⟨p.2, input.1, input.2⟩)
                (HandshakeV3.accept privateKey nonce onConfirmed, stores) inputs) := by
  refine ⟨fun inputs e _ ↦ meets_congr HandshakeV3.noTrace_iff_harmless,
    fun stores after y inputs e hrun _ ↦ ?_⟩
  rw [← HandshakeV3.kept_alone_iff, hrun]

/-! ### Bob fails -/

/-- Alice's hello, then bytes that are no message 3. -/
def badConfirm : List (Awaited × Bool) :=
  [(.message ((v3PairSetting.handshake false).initiate (encode 32 11) (encode 32 12) true).hello,
    true), (.message [], true), (.returned, true)]

theorem failed_leaves_no_trace_badConfirm :
    Meets (v3PairSetting.handshake true).goOnAlone
      (fun p input ↦ p.1.Harmless ⟨p.2, input.1, input.2⟩)
      (HandshakeV3.accept (encode 32 21) (encode 32 22) keepSession, noStores true) badConfirm := by
  have hfailed : (badConfirm.foldl (v3PairSetting.handshake true).goOnAlone
      (HandshakeV3.accept (encode 32 21) (encode 32 22) keepSession, noStores true)).1.status =
        .failed (.message (.decode .header)) := by
    decide +kernel
  exact ((failed_leaves_no_trace_iff (v3PairSetting.handshake true) (encode 32 21) (encode 32 22)
    keepSession).2 (noStores true) _ _ badConfirm _ rfl hfailed).mp
      ⟨by decide +kernel, by decide +kernel⟩

/-- Alice stays pinned after the callback has raised, and her session recorded
after message 4 came too late. -/
theorem failed_responder_leaves_traces :
    (∃ p ∈ (v3PairSetting.exec noStores (v3PairSetting.relay ⟨noStores, [], []⟩
          (pairTurns (fun _ ↦ throw .onConfirmed) true))).responders,
        p.2.status = .failed .onConfirmed) ∧
      (noStores true).trusted.lookup "alice" = none ∧
        ((v3PairSetting.exec noStores (v3PairSetting.relay ⟨noStores, [], []⟩
            (pairTurns (fun _ ↦ throw .onConfirmed) true))).stores true).trusted.lookup "alice" =
          some (encode 32 1) ∧
          (∃ p ∈ (v3PairSetting.exec noStores (v3PairSetting.relay ⟨noStores, [], []⟩
              (pairTurns keepSession false))).responders, p.2.status = .failed .deadline) ∧
            (noStores true).sessions = [] ∧
              ((v3PairSetting.exec noStores (v3PairSetting.relay ⟨noStores, [], []⟩
                (pairTurns keepSession false))).stores true).sessions ≠ [] := by
  decide +kernel

end SecureSync
