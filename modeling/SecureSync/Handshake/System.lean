import SecureSync.Channel.Records
import SecureSync.Infrastructure.SessionCoordinator

/-!
# The wired v2 handshake

One device runs the handshake server, its drain loop and its secure channel; the
others initiate.  A hello that has arrived can be sent to the server again, on
a connection whose answer no initiator reads.
-/

namespace SecureSync

open Raising

/-- The devices and the parameters they share. -/
structure Setting (δ π : Type) where
  net : Network δ π
  responder : δ
  keyExchange : KeyExchange
  identityProvider : IdentityProvider
  identity : δ → IdentityKeyPair
  hkdf : Hkdf
  transferPort : δ → ℤ
  manifestPort : δ → ℤ

/-- A call of `initiate`, by its ephemeral key and salt. -/
structure Attempt (δ : Type) where
  initiator : δ
  privateKey : Bytes
  salt : Bytes

/-- A call of `accept` that has written its response, to the connection of the
initiator or to another. -/
structure Answer where
  attempt : ℕ
  privateKey : Bytes
  own : Bool
  deriving DecidableEq

/-- Where the session of one side comes from. -/
structure Source (δ : Type) where
  device : δ
  answer : Answer
  role : Role
  peer : HandshakeMessage
  material : KeyMaterial
  deriving DecidableEq

structure Handshaking (δ π : Type) where
  world : World δ π
  trusted : δ → TrustStore
  attempts : List (Attempt δ)
  /-- The attempts whose hello has reached the server. -/
  arrived : List ℕ
  answers : List Answer
  /-- The answers after which `accept` has yet to derive the keys. -/
  deriving_ : List Answer
  /-- `HandshakeServer.results`. -/
  results : List (Source δ)
  /-- Whether the drain loop still runs. -/
  draining : Bool
  /-- The attempts that have returned to their initiator. -/
  completed : List ℕ
  recorded : List (Source δ × ℚ)

namespace Setting

variable {δ π : Type} (S : Setting δ π)

def handshake (d : δ) : X25519Handshake where
  ownDeviceId := S.net.deviceId d
  ownTransferPort := S.transferPort d
  ownManifestPort := S.manifestPort d
  keyExchange := S.keyExchange
  identityProvider := S.identityProvider
  ownIdentity := S.identity d
  hkdf := S.hkdf

def hello (attempt : Attempt δ) : Hello :=
  (S.handshake attempt.initiator).hello attempt.privateKey attempt.salt

def response (attempt : Attempt δ) (answer : Answer) : HandshakeMessage :=
  (S.handshake S.responder).ownMessage answer.privateKey attempt.salt

/-- The ephemeral key in an answer. -/
def answerPub (answer : Answer) : Bytes := S.keyExchange.publicKey answer.privateKey

def material (attempt : Attempt δ) (answer : Answer) (sharedSecret : Bytes) : KeyMaterial :=
  X25519Handshake.keyMaterial sharedSecret (S.hello attempt) (S.response attempt answer)

def result (source : Source δ) : HandshakeResult :=
  X25519Handshake.result source.peer ((source.material.schedule S.hkdf).keys S.hkdf source.role)

def accepted (attempt : Attempt δ) (answer : Answer) (sharedSecret : Bytes) : Source δ where
  device := S.responder
  answer := answer
  role := .responder
  peer := (S.hello attempt).toHandshakeMessage
  material := S.material attempt answer sharedSecret

def initiated (attempt : Attempt δ) (answer : Answer) (sharedSecret : Bytes) : Source δ where
  device := attempt.initiator
  answer := answer
  role := .initiator
  peer := S.response attempt answer
  material := S.material attempt answer sharedSecret

/-- The arguments of the session; the initiator's is confirmed from the start. -/
def terms (source : Source δ) : SessionTerms :=
  (S.result source).terms (source.role = .initiator)

variable [DecidableEq δ]

/-- Record the session of a source, unless `put` raises. -/
def record (st : Handshaking δ π) (source : Source δ) (now : ℚ) : Handshaking δ π :=
  let act := Act.put source.device (S.terms source) now
  let done := Completed (SessionStore.put (.start (S.terms source) now) now
    (st.world.endpoints source.device).store)
  { st with
    world := S.net.step st.world act
    draining := st.draining && (source.role = .initiator || done)
    recorded := if done then st.recorded ++ [(source, now)] else st.recorded }

/-- The steps of the channel; a session is recorded by a handshake only. -/
def IsTraffic : Act δ π → Prop
  | .seal .. | .deliver .. | .forget .. => True
  | .put .. | .confirm .. => False

inductive Step : Handshaking δ π → Handshaking δ π → Prop
  | initiate (st : Handshaking δ π) (attempt : Attempt δ)
      (hother : attempt.initiator ≠ S.responder) :
      Step st { st with attempts := st.attempts ++ [attempt] }
  /-- `accept` up to its response, to a hello that arrives or is sent again; the
  ephemeral key is fresh. -/
  | answer (st : Handshaking δ π) (attempt : Attempt δ) (ans : Answer) (message : HandshakeMessage)
      (trusted : TrustStore) (hattempt : st.attempts[ans.attempt]? = some attempt)
      (hown : ans.own = true ↔ ans.attempt ∉ st.arrived)
      (hfresh : S.answerPub ans ∉ st.answers.map S.answerPub)
      (h : (S.handshake S.responder).answer ans.privateKey (st.trusted S.responder)
        (S.hello attempt) = .ok (message, trusted)) :
      Step st { st with
        arrived := ans.attempt :: st.arrived
        trusted := Function.update st.trusted S.responder trusted
        answers := st.answers ++ [ans]
        deriving_ := st.deriving_ ++ [ans] }
  /-- A hello that is turned away, or not answered. -/
  | refuse (st : Handshaking δ π) (attempt : ℕ) :
      Step st { st with arrived := attempt :: st.arrived }
  /-- `accept` from its response on, and `results.put`. -/
  | publish (st : Handshaking δ π) (attempt : Attempt δ) (ans : Answer) (sharedSecret : Bytes)
      (hans : ans ∈ st.deriving_) (hattempt : st.attempts[ans.attempt]? = some attempt)
      (hshared : S.keyExchange.deriveSharedSecret ans.privateKey (S.hello attempt).publicKey =
        some sharedSecret)
      (h : (S.handshake S.responder).finishAccept ans.privateKey (S.hello attempt) =
        .ok (S.result (S.accepted attempt ans sharedSecret))) :
      Step st { st with
        deriving_ := st.deriving_.erase ans
        results := st.results ++ [S.accepted attempt ans sharedSecret] }
  /-- A connection that ends before its result is published. -/
  | abandon (st : Handshaking δ π) (ans : Answer) :
      Step st { st with deriving_ := st.deriving_.erase ans }
  /-- One round of the drain loop. -/
  | drain (st : Handshaking δ π) (source : Source δ) (rest : List (Source δ)) (now : ℚ)
      (hdraining : st.draining = true) (hresults : st.results = source :: rest) :
      Step st (S.record { st with results := rest } source now)
  /-- `initiate` from the response on, and the rest of `ensure_session`. -/
  | complete (st : Handshaking δ π) (attempt : Attempt δ) (ans : Answer) (sharedSecret : Bytes)
      (trusted : TrustStore) (now : ℚ) (hans : ans ∈ st.answers) (hown : ans.own = true)
      (hattempt : st.attempts[ans.attempt]? = some attempt) (hnew : ans.attempt ∉ st.completed)
      (hshared : S.keyExchange.deriveSharedSecret attempt.privateKey
        (S.response attempt ans).publicKey = some sharedSecret)
      (h : (S.handshake attempt.initiator).finishInitiate attempt.privateKey attempt.salt
        (st.trusted attempt.initiator) (S.response attempt ans) =
          .ok (S.result (S.initiated attempt ans sharedSecret), trusted)) :
      Step st (S.record { st with
        trusted := Function.update st.trusted attempt.initiator trusted
        completed := ans.attempt :: st.completed } (S.initiated attempt ans sharedSecret) now)
  /-- Sealing, opening and losing sessions, with an ideal cipher. -/
  | traffic (st : Handshaking δ π) (act : Act δ π) (htraffic : IsTraffic act)
      (hideal : S.net.Unforged st.world act) : Step st { st with world := S.net.step st.world act }
  /-- The responder loses all it holds in memory. -/
  | restart (st : Handshaking δ π) (sessionIds : List Bytes) :
      Step st { st with
        world := S.net.step st.world (.forget S.responder sessionIds)
        deriving_ := []
        results := []
        draining := true }

def start : Handshaking δ π where
  world := .start S.net.policy
  trusted _ := ∅
  attempts := []
  arrived := []
  answers := []
  deriving_ := []
  results := []
  draining := true
  completed := []
  recorded := []

inductive Run : Handshaking δ π → Prop
  | start : Run S.start
  | step {st st' : Handshaking δ π} (h : Run st) (hstep : S.Step st st') : Run st'

end Setting

/-! ### A pair of devices on which to run examples -/

/-- Alice initiates, Bob responds; HKDF shows what it is given. -/
def pairSetting : Setting Bool (Fin 128) where
  net := pairNetwork
  responder := true
  keyExchange :=
    { publicKey := id
      deriveSharedSecret := fun privateKey peer ↦ some (List.zipWith (· + ·) privateKey peer) }
  identityProvider :=
    { sign := fun key data ↦ key ++ data
      verify := fun key data signature ↦ signature = key ++ data }
  identity responds := if responds then ⟨[2], [2]⟩ else ⟨[1], [1]⟩
  hkdf call :=
    if call.length = sessionIdSize then call.info.reverse.take sessionIdSize
    else call.secret ++ call.info
  transferPort _ := 9000
  manifestPort _ := 9001

def pairAttempt : Attempt Bool := ⟨false, [7], [0]⟩

/-- The answer to Alice, and the one to her hello sent again. -/
def pairAnswer (own : Bool) : Answer := ⟨0, if own then [11] else [12], own⟩

/-- Bob answers Alice's hello. -/
def answerPair (st : Handshaking Bool (Fin 128)) (own : Bool) :
    Handshaking Bool (Fin 128) := { st with
  arrived := 0 :: st.arrived
  trusted := Function.update st.trusted true ((st.trusted true).insert "alice" [1])
  answers := st.answers ++ [pairAnswer own]
  deriving_ := st.deriving_ ++ [pairAnswer own] }

def pairSecret (own : Bool) : Bytes := if own then [18] else [19]

def pairSource (own : Bool) : Source Bool :=
  pairSetting.accepted pairAttempt (pairAnswer own) (pairSecret own)

def pairInitiated : Source Bool :=
  pairSetting.initiated pairAttempt (pairAnswer true) (pairSecret true)

def publishPair (st : Handshaking Bool (Fin 128)) (own : Bool) :
    Handshaking Bool (Fin 128) := { st with
  deriving_ := st.deriving_.erase (pairAnswer own)
  results := st.results ++ [pairSource own] }

def drainPair (st : Handshaking Bool (Fin 128)) (own : Bool) : Handshaking Bool (Fin 128) :=
  pairSetting.record { st with results := [] } (pairSource own) 0

def completePair (st : Handshaking Bool (Fin 128)) : Handshaking Bool (Fin 128) :=
  pairSetting.record { st with
    trusted := Function.update st.trusted false ((st.trusted false).insert "bob" [2])
    completed := 0 :: st.completed }
      pairInitiated 0

def pairAsked : Handshaking Bool (Fin 128) := { pairSetting.start with attempts := [pairAttempt] }

def pairPublished : Handshaking Bool (Fin 128) := publishPair (answerPair pairAsked true) true

def pairEstablished : Handshaking Bool (Fin 128) := completePair (drainPair pairPublished true)

theorem pairPublished_run : pairSetting.Run pairPublished := by
  have hasked : pairSetting.Run pairAsked := .step .start (.initiate _ pairAttempt (by decide))
  have hanswered : pairSetting.Run (answerPair pairAsked true) :=
    .step hasked (.answer _ pairAttempt (pairAnswer true) _ _ rfl (by decide) (by decide) rfl)
  exact .step hanswered (.publish _ pairAttempt (pairAnswer true) (pairSecret true)
    (by decide) rfl rfl rfl)

theorem pairEstablished_run : pairSetting.Run pairEstablished :=
  .step (.step pairPublished_run (.drain _ _ [] 0 rfl rfl))
    (.complete _ pairAttempt (pairAnswer true) (pairSecret true) _ 0 (by decide) rfl rfl (by decide)
      rfl rfl)

end SecureSync
