import SecureSync.HandshakeV3.System

/-!
# What every exchange has checked

An exchange in some phase has passed the checks of all phases before it, on
values that no longer change.
-/

namespace SecureSync

open Raising

theorem forall_mem_none {α : Type} {P : α → Prop} : ∀ a ∈ (none : Option α), P a :=
  fun _ h ↦ absurd h (Option.not_mem_none _)

theorem forall_mem_some {α : Type} {P : α → Prop} {a : α} (h : P a) : ∀ b ∈ some a, P b := by
  rintro _ ⟨⟩
  exact h

/-- The key read from the trust store is none or that of the peer. -/
def PinFits (peer : HandshakeFields) (pin : Option Bytes) : Prop :=
  pin = none ∨ pin = some peer.identityPublicKey

namespace InitiatorPhase

def pin? : InitiatorPhase → Option (ConfirmSent × Option Bytes)
  | .idle | .sentHello | .verified _ | .checked .. => none
  | .sentConfirm sent pin | .accepted sent pin | .pinned sent pin | .confirmed sent pin _ =>
      some (sent, pin)

structure Sound (handshake : HandshakeV3) (privateKey m1 : Bytes) (phase : InitiatorPhase) :
    Prop where
  hello : phase ≠ .idle → ∃ nonce, handshake.hello privateKey nonce = .ok m1
  verified : ∀ v ∈ phase.verified?, v.Valid handshake m1
  sent : ∀ sent ∈ phase.sent?, sent.Valid handshake privateKey
  pin : ∀ p ∈ phase.pin?, PinFits p.1.reply.toHandshakeFields p.2
  accepted : ∀ sent ∈ phase.accepted?, ∃ m4, handshake.verifyFinal sent m4 = .ok ()
  confirmed : ∀ p ∈ phase.confirmed?,
    HandshakeV3.result p.1.reply.toHandshakeFields p.1.secrets .initiator = .ok p.2

variable {handshake : HandshakeV3} {x : Initiator} {stores stores' : HandshakeStores}
  {awaited : Awaited} {phase : InitiatorPhase}

theorem Sound.move (h : x.phase.Sound handshake x.privateKey x.hello)
    (hmove : handshake.InitiatorMoves x stores awaited phase stores') :
    phase.Sound handshake x.privateKey x.hello := by
  cases hmove with
  | stays => exact h
  | verifies hphase hverify =>
      rw [hphase] at h
      have hvalid := (HandshakeV3.verifyReply_eq_ok.mp hverify).1
      exact ⟨fun _ ↦ h.hello (by simp), forall_mem_some hvalid, forall_mem_none, forall_mem_none,
        forall_mem_none, forall_mem_none⟩
  | checks hphase =>
      rw [hphase] at h
      exact ⟨fun _ ↦ h.hello (by simp), h.verified, forall_mem_none, forall_mem_none,
        forall_mem_none, forall_mem_none⟩
  | confirms hphase hconfirm =>
      rw [hphase] at h
      obtain ⟨hpin, hvalid, rfl⟩ := HandshakeV3.confirm_eq_ok.mp hconfirm
      exact ⟨fun _ ↦ h.hello (by simp), h.verified, forall_mem_some hvalid, forall_mem_some hpin,
        forall_mem_none, forall_mem_none⟩
  | accepts hphase hfinal =>
      rw [hphase] at h
      exact ⟨fun _ ↦ h.hello (by simp), h.verified, h.sent, h.pin, forall_mem_some ⟨_, hfinal⟩,
        forall_mem_none⟩
  | pins hphase hrunning hawaited =>
      rw [hphase] at h
      exact ⟨fun _ ↦ h.hello (by simp), h.verified, h.sent, h.pin, h.accepted, forall_mem_none⟩
  | finishes hphase hresult =>
      rw [hphase] at h
      exact ⟨fun _ ↦ h.hello (by simp), h.verified, h.sent, h.pin, h.accepted,
        forall_mem_some hresult⟩

end InitiatorPhase

namespace ResponderPhase

def pin? : ResponderPhase → Option (ReplySent × Option Bytes)
  | .waitHello | .sentReply _ | .verified .. | .checked .. => none
  | .authenticated sent _ pin | .pinned sent _ pin | .recorded sent _ pin _
  | .confirmed sent _ pin _ => some (sent, pin)

/-- What message 1 and the answer to it have established. -/
structure SoundReply (handshake : HandshakeV3) (privateKey nonce : Bytes) (sent : ReplySent) :
    Prop where
  hello : sent.hello.Valid
  deviceId_ne : sent.hello.deviceId ≠ handshake.ownDeviceId
  identityKey_ne : sent.hello.identityPublicKey ≠ handshake.ownIdentity.publicKey
  reply : sent.Valid handshake privateKey nonce

structure Sound (handshake : HandshakeV3) (privateKey nonce : Bytes) (phase : ResponderPhase) :
    Prop where
  sent : ∀ sent ∈ phase.sent?, SoundReply handshake privateKey nonce sent
  verified : ∀ p ∈ phase.verified?, p.2.Valid handshake p.1
  authenticated : ∀ p ∈ phase.authenticated?,
    confirmationMac handshake.crypto.hmac p.1.secrets.initiatorConfirmationKey p.2.t3s =
      .ok p.2.confirm.macI
  pin : ∀ p ∈ phase.pin?, PinFits p.1.hello.toHandshakeFields p.2
  recorded : ∀ p ∈ phase.recorded?,
    HandshakeV3.result p.1.hello.toHandshakeFields p.1.secrets .responder = .ok p.2.2

variable {handshake : HandshakeV3} {y : Responder} {stores stores' : HandshakeStores}
  {awaited : Awaited} {phase : ResponderPhase}

theorem Sound.move (h : y.phase.Sound handshake y.privateKey y.nonce)
    (hmove : handshake.ResponderMoves y stores awaited phase stores') :
    phase.Sound handshake y.privateKey y.nonce := by
  cases hmove with
  | stays _ => exact h
  | calls => exact h
  | replies hphase hhello hreply hsame =>
      obtain ⟨hvalid, rfl⟩ := HandshakeV3.reply_eq_ok.mp hreply
      obtain ⟨hhello, -, hid, hkey⟩ := HandshakeV3.checkHello_eq_ok.mp hhello
      exact ⟨forall_mem_some ⟨hhello, hid, hkey, hvalid⟩, forall_mem_none, forall_mem_none,
        forall_mem_none, forall_mem_none⟩
  | verifies hphase hconfirm =>
      rw [hphase] at h
      have hmacR := (h.sent _ rfl).reply.length_macR
      have hvalid := ((HandshakeV3.verifyConfirm_eq_ok hmacR).mp hconfirm).1
      exact ⟨h.sent, forall_mem_some hvalid, forall_mem_none, forall_mem_none, forall_mem_none⟩
  | checks hphase =>
      rw [hphase] at h
      exact ⟨h.sent, h.verified, forall_mem_none, forall_mem_none, forall_mem_none⟩
  | authenticates hphase hauthenticate =>
      rw [hphase] at h
      have hvalid := (h.verified _ rfl).confirm_valid
      obtain ⟨hpin, hmac⟩ := (HandshakeV3.authenticate_eq_ok hvalid).mp hauthenticate
      exact ⟨h.sent, h.verified, forall_mem_some hmac, forall_mem_some hpin, forall_mem_none⟩
  | pins hphase hrunning hawaited =>
      rw [hphase] at h
      exact ⟨h.sent, h.verified, h.authenticated, h.pin, forall_mem_none⟩
  | records hphase hrunning hawaited hresult =>
      rw [hphase] at h
      exact ⟨h.sent, h.verified, h.authenticated, h.pin, forall_mem_some hresult⟩
  | confirms hphase hsame =>
      rw [hphase] at h
      exact ⟨h.sent, h.verified, h.authenticated, h.pin, h.recorded⟩

end ResponderPhase

def Initiator.Sound (handshake : HandshakeV3) (x : Initiator) : Prop :=
  x.phase.Sound handshake x.privateKey x.hello

def Responder.Sound (handshake : HandshakeV3) (y : Responder) : Prop :=
  y.phase.Sound handshake y.privateKey y.nonce

namespace HandshakeV3

variable {handshake : HandshakeV3}

theorem sound_initiate (privateKey nonce : Bytes) (writable : Bool) :
    (handshake.initiate privateKey nonce writable).Sound handshake := by
  unfold initiate
  cases hhello : handshake.hello privateKey nonce with
  | error e => exact ⟨fun h ↦ absurd rfl h, forall_mem_none, forall_mem_none, forall_mem_none,
      forall_mem_none, forall_mem_none⟩
  | ok hello =>
      cases writable with
      | false => exact ⟨fun h ↦ absurd rfl h, forall_mem_none, forall_mem_none, forall_mem_none,
          forall_mem_none, forall_mem_none⟩
      | true => exact ⟨fun _ ↦ ⟨nonce, hhello⟩, forall_mem_none, forall_mem_none, forall_mem_none,
          forall_mem_none, forall_mem_none⟩

theorem sound_accept (privateKey nonce : Bytes) (onConfirmed : OnConfirmed) :
    (accept privateKey nonce onConfirmed).Sound handshake :=
  ⟨forall_mem_none, forall_mem_none, forall_mem_none, forall_mem_none, forall_mem_none⟩

end HandshakeV3

section Step

variable {handshake : HandshakeV3} {stores : HandshakeStores} {awaited : Awaited} {writable : Bool}

theorem Initiator.Sound.step {x : Initiator} (h : x.Sound handshake) :
    (handshake.initiatorStep x stores awaited writable).1.Sound handshake := by
  have hkeys := @HandshakeV3.initiatorStep_keys handshake x stores awaited writable
  rw [Initiator.Sound, hkeys.1, hkeys.2]
  exact InitiatorPhase.Sound.move h (HandshakeV3.initiatorStep_moves ..)

theorem Responder.Sound.step {y : Responder} (h : y.Sound handshake) :
    (handshake.responderStep y stores awaited writable).1.Sound handshake := by
  have hkeys := @HandshakeV3.responderStep_keys handshake y stores awaited writable
  rw [Responder.Sound, hkeys.1, hkeys.2]
  exact ResponderPhase.Sound.move h (HandshakeV3.responderStep_moves ..)

end Step

namespace HandshakeSetting

variable {δ : Type} (setting : HandshakeSetting δ)

structure Sound (w : HandshakeWorld δ) : Prop where
  initiators : ∀ p ∈ w.initiators, p.2.Sound (setting.handshake p.1)
  responders : ∀ p ∈ w.responders, p.2.Sound (setting.handshake p.1)

variable [DecidableEq δ] {setting} {w : HandshakeWorld δ}

theorem Sound.step (h : setting.Sound w) (event : HandshakeEvent δ) :
    setting.Sound (setting.step w event) where
  initiators p hp := by
    rcases mem_initiators_step hp with
      hp | ⟨privateKey, nonce, writable, heq⟩ | ⟨i, x, awaited, writable, -, hx, heq⟩
    · exact h.initiators p hp
    · rw [heq]
      exact HandshakeV3.sound_initiate privateKey nonce writable
    · rw [heq]
      exact (h.initiators _ (List.mem_of_getElem? hx)).step
  responders p hp := by
    rcases mem_responders_step hp with
      hp | ⟨privateKey, nonce, onConfirmed, heq⟩ | ⟨j, y, awaited, writable, -, hy, heq⟩
    · exact h.responders p hp
    · rw [heq]
      exact HandshakeV3.sound_accept privateKey nonce onConfirmed
    · rw [heq]
      exact (h.responders _ (List.mem_of_getElem? hy)).step

theorem sound_exec (stores : δ → HandshakeStores) (events : List (HandshakeEvent δ)) :
    setting.Sound (setting.exec stores events) :=
  exec_induction ⟨List.forall_mem_nil _, List.forall_mem_nil _⟩ (fun _ event h ↦ h.step event)
    events

end HandshakeSetting
end SecureSync
