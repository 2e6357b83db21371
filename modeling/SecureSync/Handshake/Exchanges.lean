import SecureSync.Infrastructure.X25519Handshake

/-!
# Concurrent v2 exchanges

Any number of calls of `initiate` and `accept`, which go on in any order.  The network
hands each of them whatever message it likes.
-/

namespace SecureSync

open Raising

/-! ## One call -/

/-- What a call waits for: the message of its peer, and then the trust store or the writer. -/
inductive CallInput (μ : Type) where
  | message (message : μ)
  | returned
  | raised

inductive InitiatePhase where
  | sentHello
  | verified (response : HandshakeMessage)
  | finished (response : HandshakeMessage) (result : HandshakeResult)
  | failed
  deriving DecidableEq

/-- A call of `initiate` that has written its hello. -/
structure InitiateCall where
  privateKey : Bytes
  salt : Bytes
  phase : InitiatePhase
  deriving DecidableEq

inductive AcceptPhase where
  | waiting
  | verified (request : Hello)
  | answered (request : Hello)
  | finished (request : Hello) (result : HandshakeResult)
  /-- A response that was signed before may have gone out. -/
  | failed (request? : Option Hello)
  deriving DecidableEq

/-- The request for which the response is signed. -/
def AcceptPhase.answered? : AcceptPhase → Option Hello
  | .waiting | .verified _ => none
  | .answered request | .finished request _ => some request
  | .failed request? => request?

/-- A call of `accept`, with the ephemeral key that it will draw. -/
structure AcceptCall where
  privateKey : Bytes
  phase : AcceptPhase
  deriving DecidableEq

namespace X25519Handshake

variable (handshake : X25519Handshake)

/-- The two awaits of `_verify_and_trust` are apart: what it pins, it pins when `trust`
returns. -/
def initiateStep (call : InitiateCall) (trusted : TrustStore) :
    CallInput HandshakeMessage → InitiatePhase × TrustStore
  | .message response =>
      match call.phase with
      | .sentHello =>
          match handshake.verifyAndTrust trusted response (call.salt ++ response.publicKey) with
          | .error _ => (.failed, trusted)
          | .ok _ => (.verified response, trusted)
      | phase => (phase, trusted)
  | .returned =>
      match call.phase with
      | .verified response =>
          match handshake.deriveResult .initiator call.privateKey response
            (handshake.hello call.privateKey call.salt) response with
          | .error _ => (.failed, trusted.insert response.deviceId response.identityPublicKey)
          | .ok result =>
              (.finished response result,
                trusted.insert response.deviceId response.identityPublicKey)
      | phase => (phase, trusted)
  | .raised =>
      match call.phase with
      | .finished response result => (.finished response result, trusted)
      | _ => (.failed, trusted)

def acceptStep (call : AcceptCall) (trusted : TrustStore) :
    CallInput Hello → AcceptPhase × TrustStore
  | .message request =>
      match call.phase with
      | .waiting =>
          match handshake.verifyAndTrust trusted request.toHandshakeMessage
            (request.salt ++ request.publicKey) with
          | .error _ => (.failed none, trusted)
          | .ok _ => (.verified request, trusted)
      | phase => (phase, trusted)
  | .returned =>
      match call.phase with
      | .verified request =>
          (.answered request, trusted.insert request.deviceId request.identityPublicKey)
      | .answered request =>
          match handshake.finishAccept call.privateKey request with
          | .error _ => (.failed (some request), trusted)
          | .ok result => (.finished request result, trusted)
      | phase => (phase, trusted)
  | .raised =>
      match call.phase with
      | .finished request result => (.finished request result, trusted)
      | phase => (.failed phase.answered?, trusted)

end X25519Handshake

/-! ## All calls together -/

/-- The honest devices and the libraries that they share. -/
structure X25519Setting (δ : Type) where
  deviceId : δ → DeviceId
  transferPort : δ → ℤ
  manifestPort : δ → ℤ
  identity : δ → IdentityKeyPair
  keyExchange : KeyExchange
  identityProvider : IdentityProvider
  hkdf : Hkdf

structure ExchangeWorld (δ : Type) where
  trusted : δ → TrustStore
  initiated : List (δ × InitiateCall)
  accepted : List (δ × AcceptCall)

inductive ExchangeEvent (δ : Type) where
  | initiate (device : δ) (privateKey salt : Bytes)
  | accept (device : δ) (privateKey : Bytes)
  | initiator (i : ℕ) (input : CallInput HandshakeMessage)
  | responder (j : ℕ) (input : CallInput Hello)

namespace X25519Setting

variable {δ : Type} (setting : X25519Setting δ)

def handshake (d : δ) : X25519Handshake where
  ownDeviceId := setting.deviceId d
  ownTransferPort := setting.transferPort d
  ownManifestPort := setting.manifestPort d
  keyExchange := setting.keyExchange
  identityProvider := setting.identityProvider
  ownIdentity := setting.identity d
  hkdf := setting.hkdf

variable [DecidableEq δ]

def step (w : ExchangeWorld δ) : ExchangeEvent δ → ExchangeWorld δ
  | .initiate d privateKey salt =>
      { w with initiated := w.initiated ++ [(d, ⟨privateKey, salt, .sentHello⟩)] }
  | .accept d privateKey =>
      { w with accepted := w.accepted ++ [(d, ⟨privateKey, .waiting⟩)] }
  | .initiator i input =>
      match w.initiated[i]? with
      | none => w
      | some (d, call) =>
          let next := (setting.handshake d).initiateStep call (w.trusted d) input
          { w with
            trusted := Function.update w.trusted d next.2
            initiated := w.initiated.set i (d, { call with phase := next.1 }) }
  | .responder j input =>
      match w.accepted[j]? with
      | none => w
      | some (d, call) =>
          let next := (setting.handshake d).acceptStep call (w.trusted d) input
          { w with
            trusted := Function.update w.trusted d next.2
            accepted := w.accepted.set j (d, { call with phase := next.1 }) }

/-- The world after the events, from trust stores with no exchange under way. -/
def exec (trusted : δ → TrustStore) (events : List (ExchangeEvent δ)) : ExchangeWorld δ :=
  events.foldl setting.step ⟨trusted, [], []⟩

end X25519Setting

/-! ## What a call has established -/

namespace InitiatePhase

/-- The response whose signature is verified. -/
def peer? : InitiatePhase → Option HandshakeMessage
  | .sentHello | .failed => none
  | .verified response | .finished response _ => some response

def finished? : InitiatePhase → Option (HandshakeMessage × HandshakeResult)
  | .sentHello | .verified _ | .failed => none
  | .finished response result => some (response, result)

variable {phase : InitiatePhase} {response : HandshakeMessage} {result : HandshakeResult}

theorem peer?_of_finished? (h : (response, result) ∈ phase.finished?) :
    response ∈ phase.peer? := by
  cases phase <;> cases h
  rfl

end InitiatePhase

namespace AcceptPhase

/-- The request whose signature is verified, until the call fails. -/
def peer? : AcceptPhase → Option Hello
  | .waiting | .failed _ => none
  | .verified request | .answered request | .finished request _ => some request

def finished? : AcceptPhase → Option (Hello × HandshakeResult)
  | .waiting | .verified _ | .answered _ | .failed _ => none
  | .finished request result => some (request, result)

variable {phase : AcceptPhase} {request : Hello} {result : HandshakeResult}

theorem answered?_of_finished? (h : (request, result) ∈ phase.finished?) :
    request ∈ phase.answered? := by
  cases phase <;> cases h
  rfl

theorem peer?_of_finished? (h : (request, result) ∈ phase.finished?) :
    request ∈ phase.peer? := by
  cases phase <;> cases h
  rfl

end AcceptPhase

structure InitiateCall.Sound (handshake : X25519Handshake) (call : InitiateCall) : Prop where
  verified : ∀ response ∈ call.phase.peer?,
    handshake.identityProvider.verify response.identityPublicKey
      (call.salt ++ response.publicKey) response.signature = true
  finished : ∀ p ∈ call.phase.finished?,
    handshake.deriveResult .initiator call.privateKey p.1
      (handshake.hello call.privateKey call.salt) p.1 = .ok p.2

structure AcceptCall.Sound (handshake : X25519Handshake) (call : AcceptCall) : Prop where
  verified : ∀ request ∈ call.phase.peer?,
    handshake.identityProvider.verify request.identityPublicKey
      (request.salt ++ request.publicKey) request.signature = true
  finished : ∀ p ∈ call.phase.finished?, handshake.finishAccept call.privateKey p.1 = .ok p.2

theorem X25519Handshake.verify_of_verifyAndTrust {handshake : X25519Handshake}
    {trusted trusted' : TrustStore} {message : HandshakeMessage} {signedData : Bytes}
    (h : handshake.verifyAndTrust trusted message signedData = .ok trusted') :
    handshake.identityProvider.verify message.identityPublicKey signedData message.signature =
      true := by
  unfold verifyAndTrust at h
  split_ifs at h with hverify
  simpa using hverify

section Step

variable {handshake : X25519Handshake} {trusted : TrustStore}

theorem InitiateCall.Sound.of_peer?_none {call : InitiateCall} (h : call.phase.peer? = none) :
    call.Sound handshake where
  verified response hresponse := by
    rw [h] at hresponse
    cases hresponse
  finished p hp := by
    have hpeer := InitiatePhase.peer?_of_finished? hp
    rw [h] at hpeer
    cases hpeer

theorem AcceptCall.Sound.of_peer?_none {call : AcceptCall} (h : call.phase.peer? = none) :
    call.Sound handshake where
  verified request hrequest := by
    rw [h] at hrequest
    cases hrequest
  finished p hp := by
    have hpeer := AcceptPhase.peer?_of_finished? hp
    rw [h] at hpeer
    cases hpeer

theorem InitiateCall.Sound.step {call : InitiateCall} (h : call.Sound handshake)
    (input : CallInput HandshakeMessage) :
    InitiateCall.Sound handshake
      { call with phase := (handshake.initiateStep call trusted input).1 } := by
  obtain ⟨privateKey, salt, phase⟩ := call
  cases input with
  | message response =>
      cases phase with
      | sentHello =>
          unfold X25519Handshake.initiateStep
          dsimp only
          cases hverify :
              handshake.verifyAndTrust trusted response (salt ++ response.publicKey) with
          | error e => exact .of_peer?_none rfl
          | ok trusted' =>
              refine ⟨?_, ?_⟩
              · rintro _ ⟨⟩
                exact X25519Handshake.verify_of_verifyAndTrust hverify
              · rintro _ ⟨⟩
      | verified | finished | failed => exact h
  | returned =>
      cases phase with
      | verified response =>
          unfold X25519Handshake.initiateStep
          dsimp only
          cases hresult : handshake.deriveResult .initiator privateKey response
            (handshake.hello privateKey salt) response with
          | error e => exact .of_peer?_none rfl
          | ok result =>
              refine ⟨?_, ?_⟩
              · rintro _ ⟨⟩
                exact h.verified _ rfl
              · rintro _ ⟨⟩
                exact hresult
      | sentHello | finished | failed => exact h
  | raised =>
      cases phase with
      | finished => exact h
      | sentHello | verified | failed => exact .of_peer?_none rfl

/-- What a call has signed stays signed, also where the call fails. -/
theorem X25519Handshake.answered?_acceptStep {call : AcceptCall} {request : Hello}
    (h : request ∈ call.phase.answered?) (input : CallInput Hello) :
    request ∈ (handshake.acceptStep call trusted input).1.answered? := by
  obtain ⟨privateKey, phase⟩ := call
  cases input with
  | message other =>
      cases phase with
      | waiting => cases h
      | verified | answered | finished | failed => exact h
  | returned =>
      cases phase with
      | answered request' =>
          unfold acceptStep
          dsimp only
          cases handshake.finishAccept privateKey request' <;> exact h
      | verified => cases h
      | waiting | finished | failed => exact h
  | raised =>
      cases phase <;> exact h

theorem AcceptCall.Sound.step {call : AcceptCall} (h : call.Sound handshake)
    (input : CallInput Hello) :
    AcceptCall.Sound handshake
      { call with phase := (handshake.acceptStep call trusted input).1 } := by
  obtain ⟨privateKey, phase⟩ := call
  cases input with
  | message request =>
      cases phase with
      | waiting =>
          unfold X25519Handshake.acceptStep
          dsimp only
          cases hverify : handshake.verifyAndTrust trusted request.toHandshakeMessage
            (request.salt ++ request.publicKey) with
          | error e => exact .of_peer?_none rfl
          | ok trusted' =>
              refine ⟨?_, ?_⟩
              · rintro _ ⟨⟩
                exact X25519Handshake.verify_of_verifyAndTrust hverify
              · rintro _ ⟨⟩
      | verified | answered | finished | failed => exact h
  | returned =>
      cases phase with
      | verified request =>
          refine ⟨?_, ?_⟩
          · rintro _ ⟨⟩
            exact h.verified _ rfl
          · rintro _ ⟨⟩
      | answered request =>
          unfold X25519Handshake.acceptStep
          dsimp only
          cases hresult : handshake.finishAccept privateKey request with
          | error e => exact .of_peer?_none rfl
          | ok result =>
              refine ⟨?_, ?_⟩
              · rintro _ ⟨⟩
                exact h.verified _ rfl
              · rintro _ ⟨⟩
                exact hresult
      | waiting | finished | failed => exact h
  | raised =>
      cases phase with
      | finished => exact h
      | waiting | verified | answered | failed => exact .of_peer?_none rfl

end Step

namespace X25519Setting

variable {δ : Type} {setting : X25519Setting δ}

structure Sound (setting : X25519Setting δ) (w : ExchangeWorld δ) : Prop where
  initiated : ∀ p ∈ w.initiated, p.2.Sound (setting.handshake p.1)
  accepted : ∀ p ∈ w.accepted, p.2.Sound (setting.handshake p.1)

variable [DecidableEq δ] {w : ExchangeWorld δ}

theorem Sound.step (h : setting.Sound w) (event : ExchangeEvent δ) :
    setting.Sound (setting.step w event) := by
  cases event with
  | initiate d privateKey salt =>
      refine ⟨fun p hp ↦ ?_, h.accepted⟩
      rcases List.mem_append.mp hp with hp | hp
      · exact h.initiated p hp
      · obtain rfl := List.mem_singleton.mp hp
        exact .of_peer?_none rfl
  | accept d privateKey =>
      refine ⟨h.initiated, fun p hp ↦ ?_⟩
      rcases List.mem_append.mp hp with hp | hp
      · exact h.accepted p hp
      · obtain rfl := List.mem_singleton.mp hp
        exact .of_peer?_none rfl
  | initiator i input =>
      cases hcall : w.initiated[i]? with
      | none =>
          simp only [X25519Setting.step, hcall]
          exact h
      | some entry =>
          obtain ⟨d, call⟩ := entry
          simp only [X25519Setting.step, hcall]
          refine ⟨fun p hp ↦ ?_, h.accepted⟩
          rcases List.mem_or_eq_of_mem_set hp with hp | rfl
          · exact h.initiated p hp
          · exact (h.initiated _ (List.mem_of_getElem? hcall)).step input
  | responder j input =>
      cases hcall : w.accepted[j]? with
      | none =>
          simp only [X25519Setting.step, hcall]
          exact h
      | some entry =>
          obtain ⟨d, call⟩ := entry
          simp only [X25519Setting.step, hcall]
          refine ⟨h.initiated, fun p hp ↦ ?_⟩
          rcases List.mem_or_eq_of_mem_set hp with hp | rfl
          · exact h.accepted p hp
          · exact (h.accepted _ (List.mem_of_getElem? hcall)).step input

theorem sound_exec (trusted : δ → TrustStore) (events : List (ExchangeEvent δ)) :
    setting.Sound (setting.exec trusted events) := by
  unfold exec
  induction events using List.reverseRecOn with
  | nil => exact ⟨List.forall_mem_nil _, List.forall_mem_nil _⟩
  | append_singleton events event ih =>
      rw [List.foldl_append]
      exact ih.step event

end X25519Setting
end SecureSync
