import SecureSync.HandshakeV3.HonestRun
import SecureSync.Library.Machines
import Mathlib.Tactic.IntervalCases

/-!
# Honest exchanges complete

Two honest endpoints that read each other's messages, in turns that come in any
fair order.  They can only go through the stages of one exchange, and as long as
it is not over, one of them can go on.
-/

namespace SecureSync

open BigEndian Raising Machines

/-! ## Turns -/

/-- An exchange of either kind, each of which reads what the other has written. -/
structure HandshakePair where
  initiator : Initiator
  initiatorStores : HandshakeStores
  responder : Responder
  responderStores : HandshakeStores

/-- What ends the await of an initiator that has been sent these messages. -/
def Initiator.awaits (x : Initiator) (received : List Bytes) : Option Awaited :=
  match x.phase with
  | .sentHello => received[0]?.map .message
  | .sentConfirm .. => received[1]?.map .message
  | _ => some .returned

def Responder.awaits (y : Responder) (received : List Bytes) : Option Awaited :=
  match y.status, y.phase with
  | .running, .waitHello => received[0]?.map .message
  | .running, .sentReply _ => received[1]?.map .message
  | _, _ => some .returned

namespace HandshakePair

/-- A side takes its turn, unless the message that it awaits is not there yet. -/
def turn (I R : HandshakeV3) (w : HandshakePair) : Role → HandshakePair
  | .initiator =>
      match w.initiator.awaits w.responder.written with
      | none => w
      | some awaited =>
          let next := I.initiatorStep w.initiator w.initiatorStores awaited true
          { w with
            initiator := next.1
            initiatorStores := next.2 }
  | .responder =>
      match w.responder.awaits w.initiator.written with
      | none => w
      | some awaited =>
          let next := R.responderStep w.responder w.responderStores awaited true
          { w with
            responder := next.1
            responderStores := next.2 }

def start (I : HandshakeV3) (privateKey nonce privateKey' nonce' : Bytes)
    (onConfirmed : OnConfirmed) (stores stores' : HandshakeStores) : HandshakePair :=
  ⟨I.initiate privateKey nonce true, stores,
    HandshakeV3.accept privateKey' nonce' onConfirmed, stores'⟩

/-- Both sides have reached CONFIRMED, with results that mirror each other. -/
def Completed (I R : HandshakeV3) (w : HandshakePair) : Prop :=
  ∃ p ∈ w.initiator.phase.confirmed?, ∃ q ∈ w.responder.phase.confirmed?,
    w.initiator.failure = none ∧ w.responder.status = .running ∧ p.2.Mirrors I R q.2.2

end HandshakePair

/-! ## The stages of one exchange -/

namespace HonestRun

variable {I R : HandshakeV3} {privateKey nonce privateKey' nonce' : Bytes}
  (r : HonestRun I R privateKey nonce privateKey' nonce')

def initiatorPhase (pin : Option Bytes) : ℕ → InitiatorPhase
  | 0 => .sentHello
  | 1 => .verified r.verified
  | 2 => .checked r.verified pin
  | 3 => .sentConfirm r.confirmSent pin
  | 4 => .accepted r.confirmSent pin
  | 5 => .pinned r.confirmSent pin
  | _ => .confirmed r.confirmSent pin r.res

def initiatorAt (stores : HandshakeStores) (a : ℕ) : Initiator where
  privateKey := privateKey
  hello := r.m1
  phase := r.initiatorPhase (stores.trusted.lookup r.verified.reply.deviceId) a
  failure := none
  written := if a < 3 then [r.m1] else [r.m1, r.confirmSent.message]

def initiatorStoresAt (stores : HandshakeStores) (a : ℕ) : HandshakeStores :=
  if a < 5 then stores
  else stores.trust r.confirmSent.reply.deviceId r.confirmSent.reply.identityPublicKey

def initiatorReads : ℕ → Awaited
  | 0 => .message r.replySent.message
  | 3 => .message r.m4
  | _ => .returned

def responderPhase (pin : Option Bytes) : ℕ → ResponderPhase
  | 0 => .waitHello
  | 1 => .sentReply r.replySent
  | 2 => .verified r.replySent r.confirmVerified
  | 3 => .checked r.replySent r.confirmVerified pin
  | 4 => .authenticated r.replySent r.confirmVerified pin
  | 5 => .pinned r.replySent r.confirmVerified pin
  | 6 => .recorded r.replySent r.confirmVerified pin r.res'
  | _ => .confirmed r.replySent r.confirmVerified pin r.res'

def responderAt (onConfirmed : OnConfirmed) (stores : HandshakeStores) (b : ℕ) : Responder where
  privateKey := privateKey'
  nonce := nonce'
  onConfirmed := onConfirmed
  phase := r.responderPhase (stores.trusted.lookup r.replySent.hello.deviceId) b
  status := .running
  refused := none
  written := if b = 0 then [] else if b < 6 then [r.replySent.message]
    else [r.replySent.message, r.m4]

def responderStoresAt (stores : HandshakeStores) (sessions : List HandshakeResult) (b : ℕ) :
    HandshakeStores :=
  let pinned := stores.beginHalfOpen.trust r.replySent.hello.deviceId
    r.replySent.hello.identityPublicKey
  match b with
  | 0 => stores
  | 1 | 2 | 3 | 4 => stores.beginHalfOpen
  | 5 => pinned
  | 6 => pinned.record r.res' sessions
  | _ => (pinned.record r.res' sessions).endHalfOpen

def responderReads : ℕ → Awaited
  | 0 => .message r.m1
  | 1 => .message r.confirmSent.message
  | _ => .returned

/-! ### One stage after the other -/

variable {stores stores' : HandshakeStores} {onConfirmed : OnConfirmed}
  {sessions : List HandshakeResult} {a b : ℕ}

theorem initiatorStep_at
    (hpin : PinFits (R.ownFields privateKey' nonce') (stores.trusted.lookup R.ownDeviceId))
    (ha : a < 6) :
    I.initiatorStep (r.initiatorAt stores a) (r.initiatorStoresAt stores a) (r.initiatorReads a)
        true =
      (r.initiatorAt stores (a + 1), r.initiatorStoresAt stores (a + 1)) := by
  have hdevice : r.verified.reply.deviceId = R.ownDeviceId :=
    congrArg HandshakeFields.deviceId r.peer_eq
  rw [← hdevice] at hpin
  interval_cases a
  · simp [HandshakeV3.initiatorStep, initiatorAt, initiatorPhase, initiatorReads,
      initiatorStoresAt, Initiator.enter, r.verifyReply_eq, Except.map]
  · rfl
  · simp [HandshakeV3.initiatorStep, initiatorAt, initiatorPhase, initiatorReads,
      initiatorStoresAt, Initiator.write, r.confirm_eq _ hpin]
  · simp [HandshakeV3.initiatorStep, initiatorAt, initiatorPhase, initiatorReads,
      initiatorStoresAt, Initiator.enter, r.verifyFinal_eq, Except.map]
  · rfl
  · simp [HandshakeV3.initiatorStep, initiatorAt, initiatorPhase, initiatorReads,
      initiatorStoresAt, Initiator.enter, r.result_eq, Except.map]

theorem responderStep_at (hhalfOpen : stores.halfOpen < R.maxHalfOpen)
    (hpin : PinFits (I.ownFields privateKey nonce) (stores.trusted.lookup I.ownDeviceId))
    (hcall : onConfirmed r.res' stores.sessions = .ok () sessions) (hb : b < 7) :
    R.responderStep (r.responderAt onConfirmed stores b) (r.responderStoresAt stores sessions b)
        (r.responderReads b) true =
      (r.responderAt onConfirmed stores (b + 1), r.responderStoresAt stores sessions (b + 1)) := by
  have hdevice : r.replySent.hello.deviceId = I.ownDeviceId :=
    congrArg HandshakeFields.deviceId r.peer_eq'
  rw [← hdevice] at hpin
  interval_cases b
  · simp [HandshakeV3.responderStep, responderAt, responderPhase, responderReads,
      responderStoresAt, Responder.write, r.checkHello_eq, r.reply_eq, not_le.mpr hhalfOpen]
  · simp [HandshakeV3.responderStep, responderAt, responderPhase, responderReads,
      responderStoresAt, r.verifyConfirm_eq]
  · rfl
  · simp [HandshakeV3.responderStep, responderAt, responderPhase, responderReads,
      responderStoresAt, r.authenticate_eq _ hpin]
  · rfl
  · simp [HandshakeV3.responderStep, HandshakeV3.finishAccept, responderAt, responderPhase,
      responderReads, responderStoresAt, Responder.write, r.result_eq', r.acceptMessage_eq, hcall]
  · rfl

/-- An initiator waits for message 2, and then for message 4. -/
theorem awaits_initiatorAt (ha : a ≤ 6) :
    (r.initiatorAt stores a).awaits (r.responderAt onConfirmed stores' b).written =
      if a = 0 ∧ b = 0 ∨ a = 3 ∧ b < 6 then none else some (r.initiatorReads a) := by
  interval_cases a
  · by_cases hb : b = 0
    · subst hb
      rfl
    · by_cases hb' : b < 6 <;>
        simp [Initiator.awaits, initiatorAt, initiatorPhase, responderAt, initiatorReads, hb, hb']
  · rfl
  · rfl
  · by_cases hb : b = 0
    · subst hb
      rfl
    · by_cases hb' : b < 6 <;>
        simp [Initiator.awaits, initiatorAt, initiatorPhase, responderAt, initiatorReads, hb, hb']
  · rfl
  · rfl
  · rfl

theorem awaits_responderAt (hb : b ≤ 7) :
    (r.responderAt onConfirmed stores' b).awaits (r.initiatorAt stores a).written =
      if b = 1 ∧ a < 3 then none else some (r.responderReads b) := by
  interval_cases b
  · by_cases ha : a < 3 <;>
      simp [Responder.awaits, responderAt, responderPhase, initiatorAt, responderReads, ha]
  · by_cases ha : a < 3 <;>
      simp [Responder.awaits, responderAt, responderPhase, initiatorAt, responderReads, ha]
  all_goals rfl

end HonestRun

/-! ## The two sides together -/

/-- The stages of the two sides, as far apart as they can be. -/
@[ext]
structure HandshakeStages where
  initiator : ℕ
  responder : ℕ
  initiator_le : initiator ≤ 6
  responder_le : responder ≤ 7
  reply : 1 ≤ initiator → 1 ≤ responder
  confirm : 2 ≤ responder → 3 ≤ initiator
  final : 4 ≤ initiator → 6 ≤ responder

namespace HandshakeStages

def start : HandshakeStages := ⟨0, 0, by omega, by omega, by omega, by omega, by omega⟩

/-- The initiator has nothing to read, or is done. -/
def InitiatorWaits (s : HandshakeStages) : Prop :=
  s.initiator = 0 ∧ s.responder = 0 ∨ s.initiator = 3 ∧ s.responder < 6 ∨ s.initiator = 6

def ResponderWaits (s : HandshakeStages) : Prop :=
  s.responder = 1 ∧ s.initiator < 3 ∨ s.responder = 7

instance (s : HandshakeStages) : Decidable s.InitiatorWaits :=
  inferInstanceAs (Decidable (_ ∨ _ ∨ _))

instance (s : HandshakeStages) : Decidable s.ResponderWaits :=
  inferInstanceAs (Decidable (_ ∨ _))

def turn (s : HandshakeStages) : Role → HandshakeStages
  | .initiator =>
      if h : s.InitiatorWaits then s
      else
        have := s.initiator_le
        have := s.reply
        have := s.final
        have hgoes : ¬ (s.initiator = 0 ∧ s.responder = 0 ∨ s.initiator = 3 ∧ s.responder < 6 ∨
          s.initiator = 6) := h
        ⟨s.initiator + 1, s.responder, by omega, s.responder_le, by omega,
          fun h ↦ Nat.le_succ_of_le (s.confirm h), by omega⟩
  | .responder =>
      if h : s.ResponderWaits then s
      else
        have := s.responder_le
        have := s.confirm
        have hgoes : ¬ (s.responder = 1 ∧ s.initiator < 3 ∨ s.responder = 7) := h
        ⟨s.initiator, s.responder + 1, s.initiator_le, by omega,
          fun h ↦ Nat.le_succ_of_le (s.reply h), by omega,
          fun h ↦ Nat.le_succ_of_le (s.final h)⟩

def Done (s : HandshakeStages) : Prop := s.initiator = 6 ∧ s.responder = 7

/-- How many turns are left. -/
def remaining (s : HandshakeStages) : ℕ := 13 - (s.initiator + s.responder)

variable {s : HandshakeStages} {role : Role}

theorem turn_lowers (s : HandshakeStages) (role : Role) :
    s.turn role = s ∨ (s.turn role).remaining < s.remaining := by
  have hinitiator := s.initiator_le
  have hresponder := s.responder_le
  cases role with
  | initiator =>
      rw [turn]
      split
      · exact .inl rfl
      · rename_i h
        simp only [InitiatorWaits] at h
        right
        simp only [remaining]
        omega
  | responder =>
      rw [turn]
      split
      · exact .inl rfl
      · rename_i h
        simp only [ResponderWaits] at h
        right
        simp only [remaining]
        omega

/-- One of the two sides can go on. -/
theorem exists_turn (h : ¬ s.Done) : ∃ role, (s.turn role).remaining < s.remaining := by
  have hwaits : ¬ s.InitiatorWaits ∨ ¬ s.ResponderWaits := by
    have hreply := s.reply
    have hconfirm := s.confirm
    have hfinal := s.final
    simp only [Done] at h
    simp only [InitiatorWaits, ResponderWaits]
    omega
  have hmoves : ∀ role, s.turn role ≠ s → (s.turn role).remaining < s.remaining :=
    fun role hne ↦ (s.turn_lowers role).resolve_left hne
  rcases hwaits with hwaits | hwaits
  · refine ⟨.initiator, hmoves _ fun heq ↦ ?_⟩
    rw [turn, dif_neg hwaits] at heq
    exact absurd (congrArg HandshakeStages.initiator heq) (Nat.succ_ne_self _)
  · refine ⟨.responder, hmoves _ fun heq ↦ ?_⟩
    rw [turn, dif_neg hwaits] at heq
    exact absurd (congrArg HandshakeStages.responder heq) (Nat.succ_ne_self _)

theorem Done.turn (h : s.Done) (role : Role) : (s.turn role).Done := by
  obtain ⟨hinitiator, hresponder⟩ := h
  cases role with
  | initiator =>
      rw [HandshakeStages.turn, dif_pos (.inr (.inr hinitiator))]
      exact ⟨hinitiator, hresponder⟩
  | responder =>
      rw [HandshakeStages.turn, dif_pos (.inr hresponder)]
      exact ⟨hinitiator, hresponder⟩

theorem exists_done {turns : ℕ → Role} (hfair : Fair turns) :
    ∃ n, ∀ m, n ≤ m → (after HandshakeStages.turn turns start m).Done := by
  obtain ⟨n, hn⟩ := hfair.exists_goal remaining turn_lowers (fun _ ↦ exists_turn) start
  exact ⟨n, fun m hnm ↦ after_induction (fun _ i h ↦ h.turn i) hnm hn⟩

end HandshakeStages

/-! ## Completion -/

namespace HonestRun

variable {I R : HandshakeV3} {privateKey nonce privateKey' nonce' : Bytes}
  (r : HonestRun I R privateKey nonce privateKey' nonce')

def pairAt (onConfirmed : OnConfirmed) (stores stores' : HandshakeStores)
    (sessions : List HandshakeResult) (s : HandshakeStages) : HandshakePair where
  initiator := r.initiatorAt stores s.initiator
  initiatorStores := r.initiatorStoresAt stores s.initiator
  responder := r.responderAt onConfirmed stores' s.responder
  responderStores := r.responderStoresAt stores' sessions s.responder

variable {stores stores' : HandshakeStores} {onConfirmed : OnConfirmed}
  {sessions : List HandshakeResult}

theorem start_eq :
    HandshakePair.start I privateKey nonce privateKey' nonce' onConfirmed stores stores' =
      r.pairAt onConfirmed stores stores' sessions .start := by
  rw [HandshakePair.start, HandshakeV3.initiate, r.hello_eq]
  rfl

/-- Each turn takes the two sides from stages to stages. -/
theorem turn_pairAt
    (hpin : PinFits (R.ownFields privateKey' nonce') (stores.trusted.lookup R.ownDeviceId))
    (hpin' : PinFits (I.ownFields privateKey nonce) (stores'.trusted.lookup I.ownDeviceId))
    (hhalfOpen : stores'.halfOpen < R.maxHalfOpen)
    (hcall : onConfirmed r.res' stores'.sessions = .ok () sessions) (s : HandshakeStages)
    (role : Role) :
    (r.pairAt onConfirmed stores stores' sessions s).turn I R role =
      r.pairAt onConfirmed stores stores' sessions (s.turn role) := by
  cases role with
  | initiator =>
      rw [HandshakePair.turn, pairAt, r.awaits_initiatorAt s.initiator_le, HandshakeStages.turn]
      by_cases hwaits : s.InitiatorWaits
      · rw [dif_pos hwaits]
        rcases hwaits with hread | hread | hdone
        · rw [if_pos (.inl hread)]
          rfl
        · rw [if_pos (.inr hread)]
          rfl
        · rw [if_neg (by omega), hdone]
          simp only [pairAt, hdone]
          rfl
      · rw [dif_neg hwaits]
        simp only [HandshakeStages.InitiatorWaits] at hwaits
        have hle := s.initiator_le
        rw [if_neg (by omega)]
        simp only [r.initiatorStep_at hpin (by omega : s.initiator < 6)]
        rfl
  | responder =>
      rw [HandshakePair.turn, pairAt, r.awaits_responderAt s.responder_le, HandshakeStages.turn]
      by_cases hwaits : s.ResponderWaits
      · rw [dif_pos hwaits]
        rcases hwaits with hread | hdone
        · rw [if_pos hread]
          rfl
        · rw [if_neg (by omega), hdone]
          simp only [pairAt, hdone]
          rfl
      · rw [dif_neg hwaits]
        simp only [HandshakeStages.ResponderWaits] at hwaits
        have hle := s.responder_le
        rw [if_neg (by omega)]
        simp only [r.responderStep_at hhalfOpen hpin' hcall (by omega : s.responder < 7)]
        rfl

theorem completed {s : HandshakeStages} (h : s.Done) :
    (r.pairAt onConfirmed stores stores' sessions s).Completed I R := by
  obtain ⟨hinitiator, hresponder⟩ := h
  refine ⟨(r.confirmSent, r.res), ?_, (r.replySent, r.confirmVerified, r.res'), ?_, rfl, rfl,
    r.mirrors⟩
  · simp only [pairAt, initiatorAt, hinitiator]
    rfl
  · simp only [pairAt, responderAt, hresponder]
    rfl

end HonestRun

/-- Both sides reach CONFIRMED whatever the order of their turns, and their
results mirror each other. -/
theorem honest_handshakes_complete {I R : HandshakeV3} {privateKey nonce privateKey' nonce' : Bytes}
    (h : HonestPair I R privateKey nonce privateKey' nonce') {onConfirmed : OnConfirmed}
    (hcall : ∀ result sessions, ∃ sessions', onConfirmed result sessions = .ok () sessions')
    {stores stores' : HandshakeStores}
    (hpin : PinFits (R.ownFields privateKey' nonce') (stores.trusted.lookup R.ownDeviceId))
    (hpin' : PinFits (I.ownFields privateKey nonce) (stores'.trusted.lookup I.ownDeviceId))
    (hhalfOpen : stores'.halfOpen < R.maxHalfOpen) {turns : ℕ → Role} (hfair : Fair turns) :
    ∃ n, ∀ m, n ≤ m →
      (after (HandshakePair.turn I R) turns
        (.start I privateKey nonce privateKey' nonce' onConfirmed stores stores') m).Completed
        I R := by
  obtain ⟨r⟩ := h.nonempty_run
  obtain ⟨sessions, hsessions⟩ := hcall r.res' stores'.sessions
  obtain ⟨n, hn⟩ := HandshakeStages.exists_done hfair
  refine ⟨n, fun m hnm ↦ ?_⟩
  rw [r.start_eq, after_map (r.turn_pairAt hpin hpin' hhalfOpen hsessions)]
  exact r.completed (hn m hnm)

/-! ### Alice and Bob in turn -/

/-- Keys of 32 bytes, and no secret for a degenerate one. -/
def pointCrypto : HandshakeCrypto :=
  { pairCrypto with
    keyExchange :=
      { publicKey := fun privateKey ↦ encode 32 (decode privateKey)
        deriveSharedSecret := fun privateKey peer ↦
          if encode 32 (decode privateKey) ∈ lowOrderPoints ∨ peer ∈ lowOrderPoints then none
          else some (encode 32 (decode (encode 32 (decode privateKey)) + decode peer)) } }

theorem pointCrypto_works : pointCrypto.Works where
  commutes privateKey privateKey' := by
    simp only [pointCrypto, or_comm, Nat.add_comm]
  publicKey _ := length_encode _ _
  secret privateKey peer secret h := by
    simp only [pointCrypto] at h
    split at h
    · cases h
    · obtain rfl := Option.some.inj h
      exact length_encode _ _
  lowOrder privateKey point hpoint secret h := by
    simp only [pointCrypto, if_pos (Or.inr hpoint)] at h
    cases h
  sha256 _ := length_encode _ _
  hmac _ _ := length_encode _ _
  hkdf _ _ := length_encode _ _

def pointSetting : HandshakeSetting Bool := { v3PairSetting with crypto := pointCrypto }

theorem pointSetting_honest (second : Bool) : (pointSetting.handshake second).Honest where
  deviceId := by cases second <;> exact ⟨by decide +kernel, by decide +kernel, by decide +kernel⟩
  identityKey := by cases second <;> exact length_encode _ _
  transferPort := by cases second <;> decide
  manifestPort := by cases second <;> decide
  signature _ := length_encode _ _
  verifies message := by
    cases second <;> exact decide_eq_true rfl

theorem pointSetting_pair : HonestPair (pointSetting.handshake false)
    (pointSetting.handshake true) (encode 32 11) (encode 32 12) (encode 32 21) (encode 32 22) where
  crypto := rfl
  works := pointCrypto_works
  initiator := pointSetting_honest false
  responder := pointSetting_honest true
  deviceId_ne := by decide
  identityKey_ne := by decide +kernel
  nonce := length_encode _ _
  nonce' := length_encode _ _
  secret := ⟨encode 32 32, by decide +kernel, by decide +kernel⟩

theorem honest_handshakes_complete_pair : ∃ n, ∀ m, n ≤ m →
    (after (HandshakePair.turn (pointSetting.handshake false) (pointSetting.handshake true))
      (fun k ↦ if k % 2 = 0 then .initiator else .responder)
      (.start (pointSetting.handshake false) (encode 32 11) (encode 32 12) (encode 32 21)
        (encode 32 22) keepSession (noStores false) (noStores true)) m).Completed
      (pointSetting.handshake false) (pointSetting.handshake true) := by
  refine honest_handshakes_complete pointSetting_pair
    (fun result sessions ↦ ⟨result :: sessions, rfl⟩) (.inl rfl) (.inl rfl) (by decide) ?_
  intro role n
  cases role with
  | initiator => exact ⟨2 * n, by omega, if_pos (by omega)⟩
  | responder => exact ⟨2 * n + 1, by omega, if_neg (by omega)⟩

end SecureSync
