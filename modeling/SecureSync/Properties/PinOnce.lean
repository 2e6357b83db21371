import SecureSync.HandshakeV3.Soundness
import SecureSync.Library.Machines

/-!
# Trust on first use

An exchange reads the pin of its peer, goes on for several messages and writes
the pin.  What another exchange pins in between is overwritten.
-/

namespace SecureSync

open BigEndian Machines Raising

/-! ## Writing a pin -/

/-- An exchange, by its place among those of its kind. -/
inductive ExchangeName where
  | initiator (i : ℕ)
  | responder (j : ℕ)

def HandshakeEvent.exchange? {δ : Type} : HandshakeEvent δ → Option ExchangeName
  | .initiate .. | .accept .. => none
  | .initiator i _ _ => some (.initiator i)
  | .responder j _ _ => some (.responder j)

namespace HandshakeWorld

variable {δ : Type} (w : HandshakeWorld δ)

/-- The pin that is written in this step, and on which device. -/
def writes? : HandshakeEvent δ → Option (δ × HandshakeFields × Option Bytes)
  | .initiator i .returned _ => do
      let p ← w.initiators[i]?
      guard (p.2.failure = none)
      return (p.1, ← p.2.phase.writing?)
  | .responder j .returned _ => do
      let p ← w.responders[j]?
      guard (p.2.status = .running)
      return (p.1, ← p.2.phase.writing?)
  | _ => none

/-- The device of the exchange, the peer whose pin it has read and not yet written,
and what it has read. -/
def reading? : ExchangeName → Option (δ × HandshakeFields × Option Bytes)
  | .initiator i => do
      let p ← w.initiators[i]?
      return (p.1, ← p.2.phase.reading?)
  | .responder j => do
      let p ← w.responders[j]?
      return (p.1, ← p.2.phase.reading?)

/-- An exchange that writes a pin finds the one that it has read, or its own. -/
def Undisturbed (event : HandshakeEvent δ) : Prop :=
  ∀ p ∈ w.writes? event, (w.stores p.1).trusted.lookup p.2.1.deviceId = p.2.2 ∨
    (w.stores p.1).trusted.lookup p.2.1.deviceId = some p.2.1.identityPublicKey

/-- No exchange on the device has read the pin of this peer's ID for another key. -/
def KeysAgree (event : HandshakeEvent δ) : Prop :=
  ∀ p ∈ w.writes? event,
    (∀ q ∈ w.initiators, q.1 = p.1 → ∀ r ∈ q.2.phase.reading?,
      p.2.1.deviceId = r.1.deviceId → p.2.1.identityPublicKey = r.1.identityPublicKey) ∧
    ∀ q ∈ w.responders, q.1 = p.1 → ∀ r ∈ q.2.phase.reading?,
      p.2.1.deviceId = r.1.deviceId → p.2.1.identityPublicKey = r.1.identityPublicKey

instance [DecidableEq δ] (event : HandshakeEvent δ) : Decidable (w.KeysAgree event) :=
  inferInstanceAs (Decidable (∀ p ∈ w.writes? event,
    (∀ q ∈ w.initiators, q.1 = p.1 → ∀ r ∈ q.2.phase.reading?,
      p.2.1.deviceId = r.1.deviceId → p.2.1.identityPublicKey = r.1.identityPublicKey) ∧
    ∀ q ∈ w.responders, q.1 = p.1 → ∀ r ∈ q.2.phase.reading?,
      p.2.1.deviceId = r.1.deviceId → p.2.1.identityPublicKey = r.1.identityPublicKey))

variable {w}

theorem reading?_initiator {i : ℕ} {d : δ} {peer : HandshakeFields} {pin : Option Bytes} :
    w.reading? (.initiator i) = some (d, peer, pin) ↔
      ∃ x, w.initiators[i]? = some (d, x) ∧ x.phase.reading? = some (peer, pin) := by
  simp only [reading?, Option.bind_eq_bind, Option.bind_eq_some_iff, Option.pure_def,
    Option.some.injEq, Prod.mk.injEq, Prod.exists]
  constructor
  · rintro ⟨d', x, hx, peer', pin', hreading, rfl, rfl, rfl⟩
    exact ⟨x, hx, hreading⟩
  · rintro ⟨x, hx, hreading⟩
    exact ⟨d, x, hx, peer, pin, hreading, rfl, rfl, rfl⟩

theorem reading?_responder {j : ℕ} {d : δ} {peer : HandshakeFields} {pin : Option Bytes} :
    w.reading? (.responder j) = some (d, peer, pin) ↔
      ∃ y, w.responders[j]? = some (d, y) ∧ y.phase.reading? = some (peer, pin) := by
  simp only [reading?, Option.bind_eq_bind, Option.bind_eq_some_iff, Option.pure_def,
    Option.some.injEq, Prod.mk.injEq, Prod.exists]
  constructor
  · rintro ⟨d', y, hy, peer', pin', hreading, rfl, rfl, rfl⟩
    exact ⟨y, hy, hreading⟩
  · rintro ⟨y, hy, hreading⟩
    exact ⟨d, y, hy, peer, pin, hreading, rfl, rfl, rfl⟩

theorem writes?_initiator {i : ℕ} {d : δ} {x : Initiator} {writable : Bool}
    {peer : HandshakeFields} {pin : Option Bytes} (hx : w.initiators[i]? = some (d, x))
    (hrunning : x.failure = none) (hphase : x.phase.writing? = some (peer, pin)) :
    w.writes? (.initiator i .returned writable) = some (d, peer, pin) := by
  simp [writes?, hx, hrunning, hphase]

theorem writes?_responder {j : ℕ} {d : δ} {y : Responder} {writable : Bool}
    {peer : HandshakeFields} {pin : Option Bytes} (hy : w.responders[j]? = some (d, y))
    (hrunning : y.status = .running) (hphase : y.phase.writing? = some (peer, pin)) :
    w.writes? (.responder j .returned writable) = some (d, peer, pin) := by
  simp [writes?, hy, hrunning, hphase]

theorem exists_of_writes? {event : HandshakeEvent δ} {d : δ} {peer : HandshakeFields}
    {pin : Option Bytes} (h : w.writes? event = some (d, peer, pin)) :
    (∃ x, (d, x) ∈ w.initiators ∧ x.phase.writing? = some (peer, pin)) ∨
      ∃ y, (d, y) ∈ w.responders ∧ y.phase.writing? = some (peer, pin) := by
  unfold writes? at h
  split at h
  · obtain ⟨⟨d', x⟩, hx, h⟩ := Option.bind_eq_some_iff.mp h
    obtain ⟨-, -, h⟩ := Option.bind_eq_some_iff.mp h
    obtain ⟨p, hp, h⟩ := Option.bind_eq_some_iff.mp h
    obtain ⟨rfl, rfl⟩ := Prod.mk.inj (Option.some.inj h)
    exact .inl ⟨x, List.mem_of_getElem? hx, hp⟩
  · obtain ⟨⟨d', y⟩, hy, h⟩ := Option.bind_eq_some_iff.mp h
    obtain ⟨-, -, h⟩ := Option.bind_eq_some_iff.mp h
    obtain ⟨p, hp, h⟩ := Option.bind_eq_some_iff.mp h
    obtain ⟨rfl, rfl⟩ := Prod.mk.inj (Option.some.inj h)
    exact .inr ⟨y, List.mem_of_getElem? hy, hp⟩
  · cases h

/-- Who writes a pin has read it. -/
theorem exists_reading_of_writes? {event : HandshakeEvent δ} {d : δ} {peer : HandshakeFields}
    {pin : Option Bytes} (h : w.writes? event = some (d, peer, pin)) :
    ∃ name, event.exchange? = some name ∧ w.reading? name = some (d, peer, pin) := by
  unfold writes? at h
  split at h
  · obtain ⟨⟨d', x⟩, hx, h⟩ := Option.bind_eq_some_iff.mp h
    obtain ⟨-, -, h⟩ := Option.bind_eq_some_iff.mp h
    obtain ⟨p, hp, h⟩ := Option.bind_eq_some_iff.mp h
    obtain ⟨rfl, rfl⟩ := Prod.mk.inj (Option.some.inj h)
    exact ⟨_, rfl, reading?_initiator.mpr ⟨x, hx, InitiatorPhase.reading?_of_writing? hp⟩⟩
  · obtain ⟨⟨d', y⟩, hy, h⟩ := Option.bind_eq_some_iff.mp h
    obtain ⟨-, -, h⟩ := Option.bind_eq_some_iff.mp h
    obtain ⟨p, hp, h⟩ := Option.bind_eq_some_iff.mp h
    obtain ⟨rfl, rfl⟩ := Prod.mk.inj (Option.some.inj h)
    exact ⟨_, rfl, reading?_responder.mpr ⟨y, hy, ResponderPhase.reading?_of_writing? hp⟩⟩
  · cases h

theorem KeysAgree.key_eq {event : HandshakeEvent δ} {name : ExchangeName} {d : δ}
    {peer peer' : HandshakeFields} {pin pin' : Option Bytes} (h : w.KeysAgree event)
    (hwrites : w.writes? event = some (d, peer', pin'))
    (hreading : w.reading? name = some (d, peer, pin)) (hid : peer'.deviceId = peer.deviceId) :
    peer'.identityPublicKey = peer.identityPublicKey := by
  obtain ⟨hinitiators, hresponders⟩ := h _ hwrites
  cases name with
  | initiator i =>
      obtain ⟨x, hx, hphase⟩ := reading?_initiator.mp hreading
      exact hinitiators _ (List.mem_of_getElem? hx) rfl _ hphase hid
  | responder j =>
      obtain ⟨y, hy, hphase⟩ := reading?_responder.mp hreading
      exact hresponders _ (List.mem_of_getElem? hy) rfl _ hphase hid

end HandshakeWorld

theorem InitiatorPhase.Sound.fits_of_writing {handshake : HandshakeV3} {privateKey m1 : Bytes}
    {phase : InitiatorPhase} (h : phase.Sound handshake privateKey m1) {peer : HandshakeFields}
    {pin : Option Bytes} (hwriting : phase.writing? = some (peer, pin)) : PinFits peer pin := by
  cases phase <;> cases hwriting
  exact h.pin _ rfl

theorem ResponderPhase.Sound.fits_of_writing {handshake : HandshakeV3} {privateKey nonce : Bytes}
    {phase : ResponderPhase} (h : phase.Sound handshake privateKey nonce) {peer : HandshakeFields}
    {pin : Option Bytes} (hwriting : phase.writing? = some (peer, pin)) : PinFits peer pin := by
  cases phase <;> cases hwriting
  exact h.pin _ rfl

theorem lookup_insert_of_fits {trusted : TrustStore} {peer : HandshakeFields}
    {pin : Option Bytes} {deviceId : DeviceId} {key : Bytes} (hfits : PinFits peer pin)
    (hfound : trusted.lookup peer.deviceId = pin ∨
      trusted.lookup peer.deviceId = some peer.identityPublicKey)
    (hkey : trusted.lookup deviceId = some key) :
    (trusted.insert peer.deviceId peer.identityPublicKey).lookup deviceId = some key := by
  by_cases hid : deviceId = peer.deviceId
  · subst hid
    have hpinned : some peer.identityPublicKey = some key := by
      rcases hfound with hfound | hfound
      · rw [hkey] at hfound
        rcases hfits with rfl | rfl
        · cases hfound
        · exact hfound.symm
      · exact hfound.symm.trans hkey
    rw [Finmap.lookup_insert, hpinned]
  · rw [Finmap.lookup_insert_of_ne _ hid, hkey]

theorem HandshakeV3.pinned?_initiate (handshake : HandshakeV3) (privateKey nonce : Bytes)
    (writable : Bool) : (handshake.initiate privateKey nonce writable).phase.pinned? = none := by
  unfold initiate
  cases handshake.hello privateKey nonce with
  | error e => rfl
  | ok hello => cases writable <;> rfl

/-- An exchange on this device has confirmed a session with this peer. -/
def HandshakeWorld.Confirmed {δ : Type} (w : HandshakeWorld δ) (d : δ) (peer : HandshakeFields) :
    Prop :=
  (∃ x sent res, (d, x) ∈ w.initiators ∧ (sent, res) ∈ x.phase.confirmed? ∧
      sent.reply.toHandshakeFields = peer) ∨
    ∃ y sent v res, (d, y) ∈ w.responders ∧ (sent, v, res) ∈ y.phase.confirmed? ∧
      sent.hello.toHandshakeFields = peer

namespace HandshakeSetting

variable {δ : Type} {setting : HandshakeSetting δ} {w : HandshakeWorld δ}
  {event : HandshakeEvent δ} {d : δ} {deviceId : DeviceId} {key : Bytes}

/-- The pin that is about to be written fits the one that was read. -/
theorem Sound.pinFits (h : setting.Sound w) {peer : HandshakeFields} {pin : Option Bytes}
    (hwrites : w.writes? event = some (d, peer, pin)) : PinFits peer pin := by
  rcases HandshakeWorld.exists_of_writes? hwrites with ⟨x, hx, hwriting⟩ | ⟨y, hy, hwriting⟩
  · exact (h.initiators _ hx).fits_of_writing hwriting
  · exact (h.responders _ hy).fits_of_writing hwriting

variable [DecidableEq δ]

theorem trusted_step (w : HandshakeWorld δ) (event : HandshakeEvent δ) (d : δ) :
    ((setting.step w event).stores d).trusted = (w.stores d).trusted ∨
      ∃ peer pin, w.writes? event = some (d, peer, pin) ∧
        ((setting.step w event).stores d).trusted =
          (w.stores d).trusted.insert peer.deviceId peer.identityPublicKey := by
  rcases setting.stores_step w event d with
    hstores | ⟨i, x, awaited, writable, rfl, hx, hstores⟩ |
      ⟨j, y, awaited, writable, rfl, hy, hstores⟩
  · exact .inl (by rw [hstores])
  · rw [hstores]
    have hmoves := (setting.handshake d).initiatorStep_moves x (w.stores d) awaited writable
    rcases hmoves.trusted_cases with
      ⟨htrusted, -⟩ | ⟨peer, pin, hwriting, hrunning, rfl, -, htrusted⟩
    · exact .inl htrusted
    · exact .inr ⟨peer, pin, HandshakeWorld.writes?_initiator hx hrunning hwriting, htrusted⟩
  · rw [hstores]
    have hmoves := (setting.handshake d).responderStep_moves y (w.stores d) awaited writable
    rcases hmoves.trusted_cases with
      ⟨htrusted, -⟩ | ⟨peer, pin, hwriting, hrunning, rfl, -, htrusted⟩
    · exact .inl htrusted
    · exact .inr ⟨peer, pin, HandshakeWorld.writes?_responder hy hrunning hwriting, htrusted⟩

/-- A pin stays. -/
theorem Sound.lookup_step (h : setting.Sound w) (hundisturbed : w.Undisturbed event)
    (hkey : (w.stores d).trusted.lookup deviceId = some key) :
    ((setting.step w event).stores d).trusted.lookup deviceId = some key := by
  rcases setting.trusted_step w event d with htrusted | ⟨peer, pin, hwrites, htrusted⟩
  · rw [htrusted, hkey]
  · rw [htrusted]
    exact lookup_insert_of_fits (h.pinFits hwrites) (hundisturbed _ hwrites) hkey

/-! ## Between reading and writing -/

theorem reading?_initiate (handshake : HandshakeV3) (privateKey nonce : Bytes) (writable : Bool) :
    (handshake.initiate privateKey nonce writable).phase.reading? = none := by
  unfold HandshakeV3.initiate
  cases handshake.hello privateKey nonce with
  | error e => rfl
  | ok hello => cases writable <;> rfl

/-- A pin that is held as read was held before, or is read from the store as it is. -/
theorem reading?_step {name : ExchangeName} {peer : HandshakeFields} {pin : Option Bytes}
    (h : (setting.step w event).reading? name = some (d, peer, pin)) :
    w.reading? name = some (d, peer, pin) ∨
      pin = ((setting.step w event).stores d).trusted.lookup peer.deviceId := by
  cases name with
  | initiator i =>
      obtain ⟨x, hx, hreading⟩ := HandshakeWorld.reading?_initiator.mp h
      rw [HandshakeWorld.reading?_initiator]
      rcases initiators_step hx with hx | ⟨privateKey, nonce, writable, heq⟩ |
        ⟨x₀, awaited, writable, rfl, hx₀, heq⟩
      · exact .inl ⟨x, hx, hreading⟩
      · dsimp only at heq
        rw [heq, reading?_initiate] at hreading
        cases hreading
      · dsimp only at heq
        rw [heq] at hreading
        have hmoves := (setting.handshake d).initiatorStep_moves x₀ (w.stores d) awaited writable
        rcases hmoves.reading_cases hreading with hreading | ⟨hstores, hpin⟩
        · exact .inl ⟨x₀, hx₀, hreading⟩
        · rw [stores_of_initiator awaited writable hx₀, Function.update_self, hstores]
          exact .inr hpin
  | responder j =>
      obtain ⟨y, hy, hreading⟩ := HandshakeWorld.reading?_responder.mp h
      rw [HandshakeWorld.reading?_responder]
      rcases responders_step hy with hy | ⟨privateKey, nonce, onConfirmed, heq⟩ |
        ⟨y₀, awaited, writable, rfl, hy₀, heq⟩
      · exact .inl ⟨y, hy, hreading⟩
      · dsimp only at heq
        rw [heq] at hreading
        cases hreading
      · dsimp only at heq
        rw [heq] at hreading
        have hmoves := (setting.handshake d).responderStep_moves y₀ (w.stores d) awaited writable
        rcases hmoves.reading_cases hreading with hreading | ⟨hstores, hpin⟩
        · exact .inl ⟨y₀, hy₀, hreading⟩
        · rw [stores_of_responder awaited writable hy₀, Function.update_self, hstores]
          exact .inr hpin

/-- An exchange holds what it has read of a pin, and another key is pinned under the
same ID on its device. -/
def Overtaken (setting : HandshakeSetting δ) (stores : δ → HandshakeStores)
    (before : List (HandshakeEvent δ)) (other : HandshakeEvent δ) (name : ExchangeName) (d : δ)
    (peer : HandshakeFields) (pin : Option Bytes) : Prop :=
  (setting.exec stores before).reading? name = some (d, peer, pin) ∧
    ∃ peer' pin', (setting.exec stores before).writes? other = some (d, peer', pin') ∧
      peer'.deviceId = peer.deviceId ∧ peer'.identityPublicKey ≠ peer.identityPublicKey

/-- No exchange that writes its pin has been overtaken since it read it. -/
def ReadsStand (setting : HandshakeSetting δ) (stores : δ → HandshakeStores)
    (events : List (HandshakeEvent δ)) : Prop :=
  ∀ before other between event after name d peer pin,
    events = before ++ other :: between ++ event :: after →
      event.exchange? = some name →
        (setting.exec stores (before ++ other :: between)).writes? event = some (d, peer, pin) →
          ¬ setting.Overtaken stores before other name d peer pin

/-- The store holds what was read or the peer's own key, unless the exchange has
been overtaken. -/
theorem lookup_of_reading {stores : δ → HandshakeStores} {events : List (HandshakeEvent δ)}
    {name : ExchangeName} {peer : HandshakeFields} {pin : Option Bytes}
    (h : (setting.exec stores events).reading? name = some (d, peer, pin)) :
    ((setting.exec stores events).stores d).trusted.lookup peer.deviceId = pin ∨
      ((setting.exec stores events).stores d).trusted.lookup peer.deviceId =
        some peer.identityPublicKey ∨
      ∃ before other between, events = before ++ other :: between ∧
        setting.Overtaken stores before other name d peer pin := by
  induction events using List.reverseRecOn with
  | nil => cases name <;> simp [HandshakeWorld.reading?, exec] at h
  | append_singleton events event ih =>
      rw [exec_append] at h ⊢
      rcases reading?_step h with hreading | hpin
      · have hwritten := setting.trusted_step (setting.exec stores events) event d
        rcases hwritten with htrusted | ⟨peer', pin', hwrites, htrusted⟩
        · rw [htrusted]
          refine (ih hreading).imp_right (Or.imp_right ?_)
          rintro ⟨before, other, between, rfl, hovertaken⟩
          exact ⟨before, other, between ++ [event], by simp, hovertaken⟩
        · by_cases hid : peer'.deviceId = peer.deviceId
          · by_cases hkey : peer'.identityPublicKey = peer.identityPublicKey
            · rw [htrusted, hid, Finmap.lookup_insert, hkey]
              exact .inr (.inl rfl)
            · exact .inr (.inr ⟨events, event, [], rfl, hreading, peer', pin', hwrites, hid,
                hkey⟩)
          · rw [htrusted, Finmap.lookup_insert_of_ne _ (Ne.symm hid)]
            refine (ih hreading).imp_right (Or.imp_right ?_)
            rintro ⟨before, other, between, rfl, hovertaken⟩
            exact ⟨before, other, between ++ [event], by simp, hovertaken⟩
      · exact .inl hpin.symm

/-- Where no exchange is overtaken, each finds the pin that it has read. -/
theorem ReadsStand.undisturbed {stores : δ → HandshakeStores} {events : List (HandshakeEvent δ)}
    (h : setting.ReadsStand stores events) :
    Meets setting.step HandshakeWorld.Undisturbed ⟨stores, [], []⟩ events := by
  rw [meets_iff]
  rintro done event after rfl ⟨d, peer, pin⟩ hwrites
  obtain ⟨name, hname, hreading⟩ := HandshakeWorld.exists_reading_of_writes? hwrites
  rcases lookup_of_reading hreading with hpin | hkey | ⟨before, other, between, rfl, hovertaken⟩
  · exact .inl hpin
  · exact .inr hkey
  · exact absurd hovertaken (h before other between event after name d peer pin rfl hname hwrites)

/-- It is enough that no two exchanges hold different keys for one ID. -/
theorem readsStand_of_keysAgree {stores : δ → HandshakeStores} {events : List (HandshakeEvent δ)}
    (h : Meets setting.step HandshakeWorld.KeysAgree ⟨stores, [], []⟩ events) :
    setting.ReadsStand stores events := by
  rintro before other between event after name d peer pin rfl - -
    ⟨hreading, peer', pin', hwrites, hid, hkey⟩
  have hagree : (setting.exec stores before).KeysAgree other := by
    rw [meets_iff] at h
    exact h before other (between ++ event :: after) (by simp)
  exact hkey (hagree.key_eq hwrites hreading hid)

/-- What every exchange has pinned is in the trust store. -/
structure PinsHold (setting : HandshakeSetting δ) (w : HandshakeWorld δ) : Prop
    extends setting.Sound w where
  pinnedByInitiator : ∀ p ∈ w.initiators, ∀ peer ∈ p.2.phase.pinned?,
    (w.stores p.1).trusted.lookup peer.deviceId = some peer.identityPublicKey
  pinnedByResponder : ∀ p ∈ w.responders, ∀ peer ∈ p.2.phase.pinned?,
    (w.stores p.1).trusted.lookup peer.deviceId = some peer.identityPublicKey

theorem PinsHold.step (h : setting.PinsHold w) (hundisturbed : w.Undisturbed event) :
    setting.PinsHold (setting.step w event) where
  toSound := h.toSound.step event
  pinnedByInitiator p hp peer hpeer := by
    rcases mem_initiators_step hp with
      hp | ⟨privateKey, nonce, writable, heq⟩ | ⟨i, x, awaited, writable, rfl, hx, heq⟩
    · exact h.toSound.lookup_step hundisturbed (h.pinnedByInitiator p hp peer hpeer)
    · rw [heq, HandshakeV3.pinned?_initiate] at hpeer
      cases hpeer
    · rw [heq] at hpeer
      have hmoves := (setting.handshake p.1).initiatorStep_moves x (w.stores p.1) awaited writable
      rcases hmoves.trusted_cases with
        ⟨-, hpinned⟩ | ⟨peer', pin, -, -, -, hpinned, htrusted⟩
      · exact h.toSound.lookup_step hundisturbed
          (h.pinnedByInitiator _ (List.mem_of_getElem? hx) peer (hpinned peer hpeer))
      · obtain rfl : peer' = peer := Option.some.inj (hpinned.symm.trans hpeer)
        rw [stores_of_initiator awaited writable hx, Function.update_self, htrusted,
          Finmap.lookup_insert]
  pinnedByResponder p hp peer hpeer := by
    rcases mem_responders_step hp with
      hp | ⟨privateKey, nonce, onConfirmed, heq⟩ | ⟨j, y, awaited, writable, rfl, hy, heq⟩
    · exact h.toSound.lookup_step hundisturbed (h.pinnedByResponder p hp peer hpeer)
    · rw [heq] at hpeer
      cases hpeer
    · rw [heq] at hpeer
      have hmoves := (setting.handshake p.1).responderStep_moves y (w.stores p.1) awaited writable
      rcases hmoves.trusted_cases with
        ⟨-, hpinned⟩ | ⟨peer', pin, -, -, -, hpinned, htrusted⟩
      · exact h.toSound.lookup_step hundisturbed
          (h.pinnedByResponder _ (List.mem_of_getElem? hy) peer (hpinned peer hpeer))
      · obtain rfl : peer' = peer := Option.some.inj (hpinned.symm.trans hpeer)
        rw [stores_of_responder awaited writable hy, Function.update_self, htrusted,
          Finmap.lookup_insert]

omit [DecidableEq δ] in
theorem PinsHold.of_confirmed (h : setting.PinsHold w) {peer : HandshakeFields}
    (hconfirmed : w.Confirmed d peer) :
    (w.stores d).trusted.lookup peer.deviceId = some peer.identityPublicKey := by
  rcases hconfirmed with ⟨x, sent, res, hx, hres, rfl⟩ | ⟨y, sent, v, res, hy, hres, rfl⟩
  · exact h.pinnedByInitiator _ hx _ (InitiatorPhase.pinned?_of_confirmed? hres)
  · exact h.pinnedByResponder _ hy _ (ResponderPhase.pinned?_of_confirmed? hres)

end HandshakeSetting

/-- If no other key is pinned under a device ID while an exchange that goes on to
write its pin has read it and not yet written it, then no pin is ever replaced, and
all sessions confirmed with one device ID on a device are with one identity key. -/
theorem pins_never_replaced {δ : Type} [DecidableEq δ] {setting : HandshakeSetting δ}
    (stores : δ → HandshakeStores) (events later : List (HandshakeEvent δ))
    (hstand : setting.ReadsStand stores (events ++ later)) :
    (∀ d deviceId key,
        ((setting.exec stores events).stores d).trusted.lookup deviceId = some key →
          ((setting.exec stores (events ++ later)).stores d).trusted.lookup deviceId =
            some key) ∧
      ∀ d peer peer', (setting.exec stores (events ++ later)).Confirmed d peer →
        (setting.exec stores (events ++ later)).Confirmed d peer' →
          peer.deviceId = peer'.deviceId →
            peer.identityPublicKey = peer'.identityPublicKey := by
  have hstart : setting.PinsHold ⟨stores, [], []⟩ :=
    ⟨⟨List.forall_mem_nil _, List.forall_mem_nil _⟩, List.forall_mem_nil _, List.forall_mem_nil _⟩
  have hundisturbed := hstand.undisturbed
  obtain ⟨hbefore, hafter⟩ := meets_append.mp hundisturbed
  refine ⟨fun d deviceId key hkey ↦ ?_, fun d peer peer' hpeer hpeer' hid ↦ ?_⟩
  · have hkept := hafter.induction (P := fun w ↦ setting.Sound w ∧
      (w.stores d).trusted.lookup deviceId = some key)
      (fun w event hevent h ↦ ⟨h.1.step event, h.1.lookup_step hevent h.2⟩)
      ⟨setting.sound_exec stores events, hkey⟩
    rw [HandshakeSetting.exec, List.foldl_append]
    exact hkept.2
  · have hpins : setting.PinsHold (setting.exec stores (events ++ later)) :=
      hundisturbed.induction (fun w event hevent h ↦ h.step hevent) hstart
    have hkey := hpins.of_confirmed hpeer
    rw [hid, hpins.of_confirmed hpeer'] at hkey
    exact (Option.some.inj hkey).symm

/-! ### Two Bobs -/

/-- Alice, and two devices that call themselves Bob. -/
def namesakeSetting : HandshakeSetting (Fin 3) where
  crypto := pairCrypto
  deviceId d := if d = 0 then "alice" else "bob"
  transferPort _ := 9000
  manifestPort _ := 9001
  identity d := ⟨encode 32 (d.val + 1), encode 32 (d.val + 1)⟩
  maxHalfOpen _ := maxHalfOpen

/-- Alice's exchange `k`, with the device `k + 1`, up to its message 3. -/
def namesakeOpening (k : ℕ) (d : Fin 3) : List (HandshakeWorld (Fin 3) → HandshakeEvent (Fin 3)) :=
  [fun _ ↦ .initiate 0 (encode 32 (11 + k)) (encode 32 12) true,
   fun _ ↦ .accept d (encode 32 (21 + k)) (encode 32 22) keepSession,
   fun w ↦ .responder k (fromInitiator w k 0) true,
   fun w ↦ .initiator k (fromResponder w k 0) true,
   fun _ ↦ .initiator k .returned true,
   fun _ ↦ .initiator k .returned true]

def namesakeClosing (k : ℕ) : List (HandshakeWorld (Fin 3) → HandshakeEvent (Fin 3)) :=
  [fun w ↦ .responder k (fromInitiator w k 1) true,
   fun _ ↦ .responder k .returned true,
   fun _ ↦ .responder k .returned true,
   fun _ ↦ .responder k .returned true,
   fun _ ↦ .responder k .returned true,
   fun w ↦ .initiator k (fromResponder w k 1) true,
   fun _ ↦ .initiator k .returned true,
   fun _ ↦ .initiator k .returned true]

/-- Alice opens an exchange with the first Bob and then one with device `d`; the
first comes to its end. -/
def overlapFirst (d : Fin 3) : List (HandshakeEvent (Fin 3)) :=
  namesakeSetting.relay ⟨noStores, [], []⟩
    (namesakeOpening 0 1 ++ namesakeOpening 1 d ++ namesakeClosing 0)

/-- The other exchange comes to its end. -/
def overlapSecond (d : Fin 3) : List (HandshakeEvent (Fin 3)) :=
  namesakeSetting.relay (namesakeSetting.exec noStores (overlapFirst d)) (namesakeClosing 1)

/-- Two exchanges with the same Bob may overlap. -/
theorem pins_never_replaced_overlap :
    ((namesakeSetting.exec noStores (overlapFirst 1 ++ overlapSecond 1)).stores 0).trusted.lookup
      "bob" = some (encode 32 2) :=
  (pins_never_replaced noStores (overlapFirst 1) (overlapSecond 1)
    (HandshakeSetting.readsStand_of_keysAgree (by decide +kernel))).1 0 "bob" _ (by decide +kernel)

theorem pin_replaced :
    ((namesakeSetting.exec noStores (overlapFirst 2)).stores 0).trusted.lookup "bob" =
        some (encode 32 2) ∧
      ((namesakeSetting.exec noStores (overlapFirst 2 ++ overlapSecond 2)).stores 0).trusted.lookup
          "bob" = some (encode 32 3) ∧
        ∃ peer peer',
          (namesakeSetting.exec noStores (overlapFirst 2 ++ overlapSecond 2)).Confirmed 0 peer ∧
            (namesakeSetting.exec noStores (overlapFirst 2 ++ overlapSecond 2)).Confirmed 0
                peer' ∧
              peer.deviceId = peer'.deviceId ∧
                peer.identityPublicKey ≠ peer'.identityPublicKey := by
  have hconfirmed : ∀ key ∈ [encode 32 2, encode 32 3],
      ∃ p ∈ (namesakeSetting.exec noStores (overlapFirst 2 ++ overlapSecond 2)).initiators,
        p.1 = 0 ∧ ∃ q ∈ p.2.phase.confirmed?,
          q.1.reply.deviceId = "bob" ∧ q.1.reply.identityPublicKey = key := by
    decide +kernel
  obtain ⟨⟨_, x⟩, hx, rfl, q, hq, hid, hkey⟩ := hconfirmed (encode 32 2) (by simp)
  obtain ⟨⟨_, x'⟩, hx', rfl, q', hq', hid', hkey'⟩ := hconfirmed (encode 32 3) (by simp)
  refine ⟨by decide +kernel, by decide +kernel, q.1.reply.toHandshakeFields,
    q'.1.reply.toHandshakeFields, .inl ⟨x, q.1, q.2, hx, hq, rfl⟩,
    .inl ⟨x', q'.1, q'.2, hx', hq', rfl⟩, hid.trans hid'.symm, ?_⟩
  rw [hkey, hkey']
  decide

end SecureSync
