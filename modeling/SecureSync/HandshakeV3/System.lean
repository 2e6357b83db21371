import SecureSync.HandshakeV3.Moves

/-!
# Concurrent v3 exchanges

Any number of exchanges of honest devices, which go on in any order.  The
network hands each of them whatever bytes it likes.
-/

namespace SecureSync

open BigEndian Raising

/-- The honest devices and the libraries that they share. -/
structure HandshakeSetting (δ : Type) where
  crypto : HandshakeCrypto
  deviceId : δ → DeviceId
  transferPort : δ → ℤ
  manifestPort : δ → ℤ
  identity : δ → IdentityKeyPair
  maxHalfOpen : δ → ℕ

/-- The stores of each device, and the exchanges that have been started on it. -/
structure HandshakeWorld (δ : Type) where
  stores : δ → HandshakeStores
  initiators : List (δ × Initiator)
  responders : List (δ × Responder)

inductive HandshakeEvent (δ : Type) where
  | initiate (device : δ) (privateKey nonce : Bytes) (writable : Bool)
  | accept (device : δ) (privateKey nonce : Bytes) (onConfirmed : OnConfirmed)
  | initiator (i : ℕ) (awaited : Awaited) (writable : Bool)
  | responder (j : ℕ) (awaited : Awaited) (writable : Bool)

namespace HandshakeSetting

variable {δ : Type} (setting : HandshakeSetting δ)

def handshake (d : δ) : HandshakeV3 where
  ownDeviceId := setting.deviceId d
  ownTransferPort := setting.transferPort d
  ownManifestPort := setting.manifestPort d
  crypto := setting.crypto
  ownIdentity := setting.identity d
  maxHalfOpen := setting.maxHalfOpen d

variable [DecidableEq δ]

def step (w : HandshakeWorld δ) : HandshakeEvent δ → HandshakeWorld δ
  | .initiate d privateKey nonce writable =>
      { w with
        initiators := w.initiators ++
          [(d, (setting.handshake d).initiate privateKey nonce writable)] }
  | .accept d privateKey nonce onConfirmed =>
      { w with
        responders := w.responders ++ [(d, HandshakeV3.accept privateKey nonce onConfirmed)] }
  | .initiator i awaited writable =>
      match w.initiators[i]? with
      | none => w
      | some (d, x) =>
          let next := (setting.handshake d).initiatorStep x (w.stores d) awaited writable
          { w with
            stores := Function.update w.stores d next.2
            initiators := w.initiators.set i (d, next.1) }
  | .responder j awaited writable =>
      match w.responders[j]? with
      | none => w
      | some (d, y) =>
          let next := (setting.handshake d).responderStep y (w.stores d) awaited writable
          { w with
            stores := Function.update w.stores d next.2
            responders := w.responders.set j (d, next.1) }

/-- The world after the events, from stores with no exchange under way. -/
def exec (stores : δ → HandshakeStores) (events : List (HandshakeEvent δ)) : HandshakeWorld δ :=
  events.foldl setting.step ⟨stores, [], []⟩

variable {setting} {w : HandshakeWorld δ} {event : HandshakeEvent δ}

theorem exec_append (stores : δ → HandshakeStores) (events : List (HandshakeEvent δ)) :
    setting.exec stores (events ++ [event]) = setting.step (setting.exec stores events) event := by
  rw [exec, List.foldl_append]
  rfl

/-- What one step keeps holds in every world. -/
theorem exec_induction {P : HandshakeWorld δ → Prop} {stores : δ → HandshakeStores}
    (hstart : P ⟨stores, [], []⟩) (hstep : ∀ w event, P w → P (setting.step w event))
    (events : List (HandshakeEvent δ)) : P (setting.exec stores events) := by
  induction events using List.reverseRecOn with
  | nil => exact hstart
  | append_singleton events event ih =>
      rw [exec_append]
      exact hstep _ _ ih

/-! ### Where exchanges and stores come from -/

/-- Nothing new comes to be in a list but at its end. -/
theorem getElem?_concat_cases {α : Type} {l : List α} {a b : α} {i : ℕ}
    (h : (l ++ [a])[i]? = some b) : l[i]? = some b ∨ b = a := by
  rw [List.getElem?_append] at h
  split_ifs at h with hlt
  · exact .inl h
  · rw [List.getElem?_singleton] at h
    split_ifs at h
    exact .inr (Option.some.inj h).symm

theorem getElem?_set_cases {α : Type} {l : List α} {a b : α} {i j : ℕ}
    (h : (l.set j a)[i]? = some b) : l[i]? = some b ∨ j = i ∧ b = a := by
  rw [List.getElem?_set] at h
  split_ifs at h with hij
  · exact .inr ⟨hij, (Option.some.inj h).symm⟩
  · exact .inl h

theorem initiators_step {i : ℕ} {p : δ × Initiator}
    (hp : (setting.step w event).initiators[i]? = some p) :
    w.initiators[i]? = some p ∨
      (∃ privateKey nonce writable,
        p.2 = (setting.handshake p.1).initiate privateKey nonce writable) ∨
      ∃ x awaited writable, event = .initiator i awaited writable ∧
        w.initiators[i]? = some (p.1, x) ∧
          p.2 = ((setting.handshake p.1).initiatorStep x (w.stores p.1) awaited writable).1 := by
  cases event with
  | initiate d privateKey nonce writable =>
      rcases getElem?_concat_cases hp with hp | rfl
      · exact .inl hp
      · exact .inr (.inl ⟨privateKey, nonce, writable, rfl⟩)
  | accept d privateKey nonce onConfirmed => exact .inl hp
  | initiator j awaited writable =>
      simp only [step] at hp
      split at hp
      · exact .inl hp
      · rename_i d x hx
        rcases getElem?_set_cases hp with hp | ⟨rfl, rfl⟩
        · exact .inl hp
        · exact .inr (.inr ⟨x, awaited, writable, rfl, hx, rfl⟩)
  | responder j awaited writable =>
      simp only [step] at hp
      split at hp <;> exact .inl hp

theorem responders_step {j : ℕ} {p : δ × Responder}
    (hp : (setting.step w event).responders[j]? = some p) :
    w.responders[j]? = some p ∨
      (∃ privateKey nonce onConfirmed, p.2 = HandshakeV3.accept privateKey nonce onConfirmed) ∨
      ∃ y awaited writable, event = .responder j awaited writable ∧
        w.responders[j]? = some (p.1, y) ∧
          p.2 = ((setting.handshake p.1).responderStep y (w.stores p.1) awaited writable).1 := by
  cases event with
  | initiate d privateKey nonce writable => exact .inl hp
  | accept d privateKey nonce onConfirmed =>
      rcases getElem?_concat_cases hp with hp | rfl
      · exact .inl hp
      · exact .inr (.inl ⟨privateKey, nonce, onConfirmed, rfl⟩)
  | initiator i awaited writable =>
      simp only [step] at hp
      split at hp <;> exact .inl hp
  | responder i awaited writable =>
      simp only [step] at hp
      split at hp
      · exact .inl hp
      · rename_i d y hy
        rcases getElem?_set_cases hp with hp | ⟨rfl, rfl⟩
        · exact .inl hp
        · exact .inr (.inr ⟨y, awaited, writable, rfl, hy, rfl⟩)

theorem mem_initiators_step {p : δ × Initiator} (hp : p ∈ (setting.step w event).initiators) :
    p ∈ w.initiators ∨
      (∃ privateKey nonce writable,
        p.2 = (setting.handshake p.1).initiate privateKey nonce writable) ∨
      ∃ i x awaited writable, event = .initiator i awaited writable ∧
        w.initiators[i]? = some (p.1, x) ∧
          p.2 = ((setting.handshake p.1).initiatorStep x (w.stores p.1) awaited writable).1 := by
  obtain ⟨i, hi⟩ := List.mem_iff_getElem?.mp hp
  rcases initiators_step hi with hi | hnew | ⟨x, awaited, writable, hx⟩
  · exact .inl (List.mem_of_getElem? hi)
  · exact .inr (.inl hnew)
  · exact .inr (.inr ⟨i, x, awaited, writable, hx⟩)

theorem mem_responders_step {p : δ × Responder} (hp : p ∈ (setting.step w event).responders) :
    p ∈ w.responders ∨
      (∃ privateKey nonce onConfirmed, p.2 = HandshakeV3.accept privateKey nonce onConfirmed) ∨
      ∃ j y awaited writable, event = .responder j awaited writable ∧
        w.responders[j]? = some (p.1, y) ∧
          p.2 = ((setting.handshake p.1).responderStep y (w.stores p.1) awaited writable).1 := by
  obtain ⟨j, hj⟩ := List.mem_iff_getElem?.mp hp
  rcases responders_step hj with hj | hnew | ⟨y, awaited, writable, hy⟩
  · exact .inl (List.mem_of_getElem? hj)
  · exact .inr (.inl hnew)
  · exact .inr (.inr ⟨j, y, awaited, writable, hy⟩)

theorem stores_of_initiator {i : ℕ} {d : δ} {x : Initiator} (awaited : Awaited) (writable : Bool)
    (hx : w.initiators[i]? = some (d, x)) :
    (setting.step w (.initiator i awaited writable)).stores = Function.update w.stores d
      ((setting.handshake d).initiatorStep x (w.stores d) awaited writable).2 := by
  simp only [step, hx]

theorem stores_of_responder {j : ℕ} {d : δ} {y : Responder} (awaited : Awaited) (writable : Bool)
    (hy : w.responders[j]? = some (d, y)) :
    (setting.step w (.responder j awaited writable)).stores = Function.update w.stores d
      ((setting.handshake d).responderStep y (w.stores d) awaited writable).2 := by
  simp only [step, hy]

/-- The stores of a device change in a step of one of its own exchanges only. -/
theorem stores_step (w : HandshakeWorld δ) (event : HandshakeEvent δ) (d : δ) :
    (setting.step w event).stores d = w.stores d ∨
      (∃ i x awaited writable, event = .initiator i awaited writable ∧
        w.initiators[i]? = some (d, x) ∧ (setting.step w event).stores d =
          ((setting.handshake d).initiatorStep x (w.stores d) awaited writable).2) ∨
      ∃ j y awaited writable, event = .responder j awaited writable ∧
        w.responders[j]? = some (d, y) ∧ (setting.step w event).stores d =
          ((setting.handshake d).responderStep y (w.stores d) awaited writable).2 := by
  cases event with
  | initiate => exact .inl rfl
  | accept => exact .inl rfl
  | initiator i awaited writable =>
      cases hx : w.initiators[i]? with
      | none => exact .inl (by simp only [step, hx])
      | some p =>
          obtain ⟨d', x⟩ := p
          rw [stores_of_initiator awaited writable hx]
          by_cases hd : d = d'
          · subst hd
            rw [Function.update_self]
            exact .inr (.inl ⟨i, x, awaited, writable, rfl, hx, rfl⟩)
          · rw [Function.update_of_ne hd]
            exact .inl rfl
  | responder j awaited writable =>
      cases hy : w.responders[j]? with
      | none => exact .inl (by simp only [step, hy])
      | some p =>
          obtain ⟨d', y⟩ := p
          rw [stores_of_responder awaited writable hy]
          by_cases hd : d = d'
          · subst hd
            rw [Function.update_self]
            exact .inr (.inr ⟨j, y, awaited, writable, rfl, hy, rfl⟩)
          · rw [Function.update_of_ne hd]
            exact .inl rfl

/-- The events of a network that passes on what has been written so far. -/
def relay (setting : HandshakeSetting δ) :
    HandshakeWorld δ → List (HandshakeWorld δ → HandshakeEvent δ) → List (HandshakeEvent δ)
  | _, [] => []
  | w, event :: events => event w :: setting.relay (setting.step w (event w)) events

end HandshakeSetting

/-! ### A pair of devices on which to run examples -/

/-- A checksum that stands in for the hash functions. -/
def checksum (bs : Bytes) : ℕ := bs.foldl (fun sum b ↦ 257 * sum + b.toNat + 1) 0

def pairCrypto : HandshakeCrypto where
  sha256 bs := encode 32 (checksum bs)
  hmac key transcript := encode 32 (checksum (key ++ transcript))
  hkdf call := encode call.length (checksum (call.secret ++ (call.salt ++ call.info)))
  keyExchange :=
    { publicKey := id
      deriveSharedSecret := fun privateKey peer ↦
        some (encode 32 (decode privateKey + decode peer)) }
  identityProvider :=
    { sign := fun key message ↦ encode 64 (checksum (key ++ message))
      verify := fun key message signature ↦ signature = encode 64 (checksum (key ++ message)) }

/-- Alice and Bob. -/
def v3PairSetting : HandshakeSetting Bool where
  crypto := pairCrypto
  deviceId second := if second then "bob" else "alice"
  transferPort _ := 9000
  manifestPort _ := 9001
  identity second := if second then ⟨encode 32 2, encode 32 2⟩ else ⟨encode 32 1, encode 32 1⟩
  maxHalfOpen _ := maxHalfOpen

theorem pairCrypto_commutes : pairCrypto.keyExchange.Commutes := by
  intro privateKey privateKey'
  exact congrArg (fun n ↦ some (encode 32 n)) (Nat.add_comm _ _)

def noStores {δ : Type} (_ : δ) : HandshakeStores := ⟨∅, [], 0, []⟩

/-- The `k`-th message of an exchange. -/
def fromInitiator {δ : Type} (w : HandshakeWorld δ) (i k : ℕ) : Awaited :=
  .message (((w.initiators.map fun p ↦ p.2.written).getD i []).getD k [])

def fromResponder {δ : Type} (w : HandshakeWorld δ) (j k : ℕ) : Awaited :=
  .message (((w.responders.map fun p ↦ p.2.written).getD j []).getD k [])

/-- A callback that records every session. -/
def keepSession : OnConfirmed := fun result ↦ modify (result :: ·)

/-- Alice initiates, and the network passes everything on; message 4 may come
too late to be written. -/
def pairTurns (onConfirmed : OnConfirmed) (writable : Bool) :
    List (HandshakeWorld Bool → HandshakeEvent Bool) :=
  [fun _ ↦ .initiate false (encode 32 11) (encode 32 12) true,
   fun _ ↦ .accept true (encode 32 21) (encode 32 22) onConfirmed,
   fun w ↦ .responder 0 (fromInitiator w 0 0) true,
   fun w ↦ .initiator 0 (fromResponder w 0 0) true,
   fun _ ↦ .initiator 0 .returned true,
   fun _ ↦ .initiator 0 .returned true,
   fun w ↦ .responder 0 (fromInitiator w 0 1) true,
   fun _ ↦ .responder 0 .returned true,
   fun _ ↦ .responder 0 .returned true,
   fun _ ↦ .responder 0 .returned true,
   fun _ ↦ .responder 0 .returned writable,
   fun w ↦ .initiator 0 (fromResponder w 0 1) true,
   fun _ ↦ .initiator 0 .returned true,
   fun _ ↦ .initiator 0 .returned true,
   fun _ ↦ .responder 0 .returned true]

/-- Nothing goes wrong. -/
def pairEvents : List (HandshakeEvent Bool) :=
  v3PairSetting.relay ⟨noStores, [], []⟩ (pairTurns keepSession true)

end SecureSync
