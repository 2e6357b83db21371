import SecureSync.Channel.Records
import Mathlib.Data.List.Perm.Subperm

/-!
# Nonces

Every encryption under a session takes the next counter of its side, and the
direction byte keeps the two sides apart.
-/

namespace SecureSync

open Raising BigEndian SecureChannel

/-- What happens to the two session objects of a mirrored pair. -/
inductive PairCall (π : Type) where
  | seal (side : Bool) (packetType : PacketType) (payload : π) (clock : ChannelClock)
  | change (side : Bool) (change : SessionChange)
  | confirm (side : Bool)

/-- The session objects of both sides, and the calls of `encrypt` made so far. -/
structure SealingPair (δ π : Type) where
  sessions : Bool → PeerSession
  sent : List (Bool × Sent δ π)

namespace SealingPair

variable {δ π : Type} (net : Network δ π) (devices : Bool → δ)

def write (pair : SealingPair δ π) (side : Bool) (session : PeerSession) : SealingPair δ π :=
  { pair with sessions := Function.update pair.sessions side session }

def step (pair : SealingPair δ π) : PairCall π → SealingPair δ π
  | .seal side packetType payload clock =>
      { pair.write side (stateOf ((net.channel (devices side)).seal packetType payload clock
          (pair.sessions side))) with
        sent := pair.sent ++ (net.sentBy (devices side) (pair.sessions side) packetType payload
          clock).map (side, ·) }
  | .change side change => pair.write side ((pair.sessions side).change change)
  | .confirm side => pair.write side { pair.sessions side with confirmed := true }

def run (sessions : Bool → PeerSession) (calls : List (PairCall π)) : SealingPair δ π :=
  calls.foldl (step net devices) ⟨sessions, []⟩

/-- The encryptions of one side. -/
def sentOf (pair : SealingPair δ π) (side : Bool) : List (Sent δ π) :=
  (pair.sent.filter fun p ↦ p.1 = side).map Prod.snd

/-- The session objects are those of `terms`, and every counter below the next has
been used at most once. -/
structure Numbered (sessions : Bool → PeerSession) (pair : SealingPair δ π) : Prop where
  terms : ∀ side, (sessions side).SameTerms (pair.sessions side)
  counted : ∀ side, (pair.sessions side).nextSendCounter = (pair.sessions side).sentCount + 1
  bounded : ∀ side, (pair.sessions side).sentCount ≤ maxMessagesPerKey
  used : ∀ p ∈ pair.sent, p.2.counter < (pair.sessions p.1).nextSendCounter
  increasing : pair.sent.Pairwise fun p q ↦ p.1 = q.1 → p.2.counter < q.2.counter
  nonce : ∀ p ∈ pair.sent,
    deriveNonce (sessions p.1).role.outgoingDirection p.2.counter = .ok p.2.call.nonce

variable {net devices} {sessions : Bool → PeerSession} {pair : SealingPair δ π}

theorem exhausted_eq_false {session : PeerSession} (h : session.exhausted = false) :
    session.sentCount < maxMessagesPerKey ∧ session.nextSendCounter ≤ maxCounter := by
  simpa [PeerSession.exhausted] using h

theorem sentCount_received (s : PeerSession) (counter : ℕ) (clock : ChannelClock) :
    (received s counter clock).sentCount = s.sentCount := by
  unfold received afterAccept
  dsimp only
  split_ifs <;> rfl

/-- A session object moves on, and nothing is encrypted. -/
theorem Numbered.write (h : pair.Numbered sessions) {side : Bool} {session : PeerSession}
    (hterms : (pair.sessions side).SameTerms session)
    (hcounted : session.nextSendCounter = session.sentCount + 1)
    (hbounded : session.sentCount ≤ maxMessagesPerKey)
    (hused : (pair.sessions side).nextSendCounter ≤ session.nextSendCounter) :
    (pair.write side session).Numbered sessions := by
  have hsessions (other : Bool) : (pair.write side session).sessions other =
      if other = side then session else pair.sessions other := Function.update_apply ..
  refine ⟨fun other ↦ ?_, fun other ↦ ?_, fun other ↦ ?_, fun p hp ↦ ?_, h.increasing, h.nonce⟩
  · rw [hsessions]
    split_ifs with hside
    · exact hside ▸ (h.terms side).trans hterms
    · exact h.terms other
  · rw [hsessions]
    split_ifs
    · exact hcounted
    · exact h.counted other
  · rw [hsessions]
    split_ifs
    · exact hbounded
    · exact h.bounded other
  · have hlt := h.used p hp
    rw [hsessions]
    split_ifs with hside
    · rw [hside] at hlt
      exact hlt.trans_le hused
    · exact hlt

/-- A counter is taken. -/
theorem Numbered.write_counted (h : pair.Numbered sessions) {side : Bool}
    (hexhausted : (pair.sessions side).exhausted = false) :
    (pair.write side (SecureChannel.counted (pair.sessions side))).Numbered sessions :=
  h.write (SecureChannel.sameTerms_counted _) (congrArg (· + 1) (h.counted side))
    (exhausted_eq_false hexhausted).1 (Nat.le_succ _)

/-- The next counter of a side is used. -/
theorem Numbered.append (h : pair.Numbered sessions) {side : Bool} {e : Sent δ π}
    (hlt : e.counter < (pair.sessions side).nextSendCounter)
    (hnew : ∀ p ∈ pair.sent, p.1 = side → p.2.counter < e.counter)
    (hnonce : deriveNonce (sessions side).role.outgoingDirection e.counter = .ok e.call.nonce) :
    Numbered sessions { pair with sent := pair.sent ++ [(side, e)] } where
  terms := h.terms
  counted := h.counted
  bounded := h.bounded
  used p hp := by
    rcases List.mem_append.mp hp with hp | hp
    · exact h.used p hp
    · rw [List.mem_singleton.mp hp]
      exact hlt
  increasing := by
    rw [List.pairwise_append]
    refine ⟨h.increasing, List.pairwise_singleton _ _, fun p hp q hq hside ↦ ?_⟩
    rw [List.mem_singleton] at hq
    subst hq
    exact hnew p hp hside
  nonce p hp := by
    rcases List.mem_append.mp hp with hp | hp
    · exact h.nonce p hp
    · rw [List.mem_singleton.mp hp]
      exact hnonce

theorem Numbered.step (h : pair.Numbered sessions) (call : PairCall π) :
    (pair.step net devices call).Numbered sessions := by
  cases call with
  | «seal» side packetType payload clock =>
      simp only [SealingPair.step]
      have heffect := net.seal_effect (devices side) (pair.sessions side) packetType payload clock
      generalize stateOf ((net.channel (devices side)).seal packetType payload clock
        (pair.sessions side)) = s' at heffect ⊢
      generalize net.sentBy (devices side) (pair.sessions side) packetType payload clock = entries
        at heffect ⊢
      cases heffect with
      | exhausted =>
          rw [List.map_nil, List.append_nil]
          exact h.write (.refl _) (h.counted side) (h.bounded side) le_rfl
      | counted hexhausted =>
          rw [List.map_nil, List.append_nil]
          exact h.write_counted hexhausted
      | sent hexhausted header call frame? hcall hframe =>
          have hmoved : (pair.write side ((SecureChannel.counted (pair.sessions side)).markActive
              clock.seconds)).Numbered sessions :=
            h.write
              ((SecureChannel.sameTerms_counted _).trans (PeerSession.sameTerms_markActive ..))
              (congrArg (· + 1) (h.counted side)) (exhausted_eq_false hexhausted).1 (Nat.le_succ _)
          have hself : (pair.write side ((SecureChannel.counted (pair.sessions side)).markActive
              clock.seconds)).sessions side =
              (SecureChannel.counted (pair.sessions side)).markActive clock.seconds :=
            Function.update_self ..
          refine hmoved.append ?_ (fun p hp hside ↦ ?_) ?_
          · rw [hself]
            exact Nat.lt_succ_self _
          · rw [← hside]
            exact h.used p hp
          · rw [← (h.terms side).role]
            exact hcall.nonce_eq
  | change side change =>
      cases change with
      | allocateCounter =>
          simp only [SealingPair.step, PeerSession.change, PeerSession.allocateCounter]
          split_ifs with hexhausted
          · exact h.write (.refl _) (h.counted side) (h.bounded side) le_rfl
          · exact h.write_counted (Bool.eq_false_of_not_eq_true hexhausted)
      | markActive now =>
          exact h.write (PeerSession.sameTerms_markActive ..) (h.counted side) (h.bounded side)
            le_rfl
      | receive counter clock =>
          simp only [SealingPair.step, PeerSession.change]
          split_ifs
          · apply h.write (SecureChannel.sameTerms_received ..)
            · rw [nextSendCounter_received, sentCount_received]
              exact h.counted side
            · rw [sentCount_received]
              exact h.bounded side
            · exact (nextSendCounter_received ..).ge
          · exact h.write (.refl _) (h.counted side) (h.bounded side) le_rfl
  | confirm side =>
      exact h.write (PeerSession.sameTerms_confirmed _) (h.counted side) (h.bounded side) le_rfl

theorem Numbered.run (hfresh : Numbered sessions (⟨sessions, []⟩ : SealingPair δ π))
    (calls : List (PairCall π)) : (run net devices sessions calls).Numbered sessions := by
  induction calls using List.reverseRecOn with
  | nil => exact hfresh
  | append_singleton calls call ih =>
      rw [SealingPair.run, List.foldl_append]
      exact ih.step call

/-- Two session objects that have just been created. -/
theorem numbered_start (terms : Bool → SessionTerms) (now : Bool → ℚ) :
    Numbered (fun side ↦ .start (terms side) (now side))
      (⟨fun side ↦ .start (terms side) (now side), []⟩ : SealingPair δ π) where
  terms _ := .refl _
  counted _ := rfl
  bounded _ := Nat.zero_le _
  used _ hp := nomatch hp
  increasing := List.Pairwise.nil
  nonce _ hp := nomatch hp

/-! ## The layout of a nonce -/

theorem deriveNonce_injective {direction direction' : UInt8} {counter counter' : ℕ} {nonce : Bytes}
    (h : deriveNonce direction counter = .ok nonce)
    (h' : deriveNonce direction' counter' = .ok nonce) :
    direction = direction' ∧ counter = counter' := by
  have hcounter := counterOfNonce_deriveNonce h
  rw [counterOfNonce_deriveNonce h'] at hcounter
  obtain ⟨-, -, hbytes⟩ := deriveNonce_eq_ok h
  obtain ⟨-, -, hbytes'⟩ := deriveNonce_eq_ok h'
  exact ⟨(List.cons.inj (hbytes.trans hbytes'.symm)).1, hcounter.symm⟩

/-- A counter that is allocated fits the nonce and the message id. -/
theorem packUnsigned_allocated {session session' : PeerSession} {counter : ℕ}
    (h : PeerSession.allocateCounter session = .ok counter session') :
    packUnsigned 8 counter = .ok (encode 8 counter) := by
  obtain ⟨hexhausted, rfl, -⟩ := PeerSession.allocateCounter_eq_ok.mp h
  apply packUnsigned_eq_ok.mpr
  refine ⟨?_, rfl⟩
  exact (exhausted_eq_false hexhausted).2.trans_lt (by decide)

theorem mem_sentOf {side : Bool} {e : Sent δ π} :
    e ∈ pair.sentOf side ↔ (side, e) ∈ pair.sent := by
  rw [sentOf, List.mem_map]
  constructor
  · rintro ⟨p, hp, rfl⟩
    obtain ⟨hp, hside⟩ := List.mem_filter.mp hp
    rw [← of_decide_eq_true hside]
    exact hp
  · intro he
    exact ⟨_, List.mem_filter.mpr ⟨he, decide_eq_true rfl⟩, rfl⟩

theorem exists_deriveNonce (role : Role) {counter : ℕ} (hpos : 0 < counter)
    (hpack : packUnsigned 8 counter = .ok (encode 8 counter)) :
    ∃ nonce, deriveNonce role.outgoingDirection counter = .ok nonce := by
  have hdirection : ¬ (role.outgoingDirection ≠ Role.initiator.outgoingDirection ∧
      role.outgoingDirection ≠ Role.responder.outgoingDirection) := by
    cases role <;> simp
  exact ⟨role.outgoingDirection :: (encode 8 counter ++ [0, 0, 0]),
    by rw [deriveNonce, if_neg hdirection, if_neg hpos.ne', hpack]⟩

/-! ## A run of both sides -/

theorem Numbered.pairwise_counter (h : pair.Numbered sessions) (side : Bool) :
    ((pair.sentOf side).map Sent.counter).Pairwise (· < ·) := by
  rw [sentOf, List.map_map, List.pairwise_map, List.pairwise_filter]
  refine h.increasing.imp fun hlt hside hside' ↦ hlt ?_
  rw [of_decide_eq_true hside, of_decide_eq_true hside']

theorem Numbered.counter_mem (h : pair.Numbered sessions) {side : Bool} {e : Sent δ π}
    (he : e ∈ pair.sentOf side) : 0 < e.counter ∧ e.counter ≤ maxMessagesPerKey := by
  have hmem := mem_sentOf.mp he
  have hlt := h.used _ hmem
  have hbounded := h.bounded side
  have hpos := (deriveNonce_eq_ok (h.nonce _ hmem)).1
  rw [h.counted side] at hlt
  exact ⟨hpos, (Nat.lt_succ_iff.mp hlt).trans hbounded⟩

theorem Numbered.length_sentOf (h : pair.Numbered sessions) (side : Bool) :
    (pair.sentOf side).length ≤ maxMessagesPerKey := by
  have hnodup : ((pair.sentOf side).map Sent.counter).Nodup :=
    (h.pairwise_counter side).imp fun hlt ↦ hlt.ne
  have hsub : (pair.sentOf side).map Sent.counter ⊆ List.range' 1 maxMessagesPerKey := by
    intro c hc
    obtain ⟨e, he, rfl⟩ := List.mem_map.mp hc
    obtain ⟨hpos, hle⟩ := h.counter_mem he
    rw [List.mem_range'_1]
    omega
  have hlength := (hnodup.subperm hsub).length_le
  rwa [List.length_map, List.length_range'] at hlength

/-- Two encryptions under a mirrored pair of sessions have different nonces. -/
theorem Numbered.pairwise_nonce (h : pair.Numbered sessions)
    (hroles : (sessions true).role = (sessions false).role.flip) :
    pair.sent.Pairwise fun p q ↦ p.2.call.nonce ≠ q.2.call.nonce := by
  refine h.increasing.imp_of_mem fun {p q} hp hq hlt hnonce ↦ ?_
  have hp' := h.nonce p hp
  rw [hnonce] at hp'
  obtain ⟨hdirection, hcounter⟩ := deriveNonce_injective hp' (h.nonce q hq)
  have hrole := Role.outgoingDirection_injective hdirection
  have hflip (role : Role) : role.flip ≠ role := by cases role <;> decide
  have hside : p.1 = q.1 := by
    cases hpside : p.1 <;> cases hqside : q.1 <;> rw [hpside, hqside] at hrole
    · rw [hroles] at hrole
      exact absurd hrole.symm (hflip _)
    · rw [hroles] at hrole
      exact absurd hrole (hflip _)
  exact absurd hcounter (hlt hside).ne

end SealingPair

/-- Whatever both sides seal, no nonce is used for two encryptions under their
session, and every counter is packed without overflow. -/
theorem nonces_distinct {δ π : Type} {net : Network δ π} {devices : Bool → δ}
    {terms : Bool → SessionTerms} {now : Bool → ℚ}
    (hmirrored : net.Mirrored (devices false) (.start (terms false) (now false)) (devices true)
      (.start (terms true) (now true))) (calls : List (PairCall π)) :
    let pair := SealingPair.run net devices (fun side ↦ .start (terms side) (now side)) calls
    (pair.sent.Pairwise fun p q ↦ p.2.call.nonce ≠ q.2.call.nonce) ∧
      (∀ p ∈ pair.sent, p.2.call.nonce.length = nonceSize) ∧
      (∀ side, ((pair.sentOf side).map Sent.counter).Pairwise (· < ·) ∧
        (pair.sentOf side).length ≤ 2 ^ 32 ∧ ∀ e ∈ pair.sentOf side, e.counter ≤ 2 ^ 32) ∧
      (∀ session counter session', PeerSession.allocateCounter session = .ok counter session' →
        packUnsigned 8 counter = .ok (encode 8 counter)) ∧
      ∀ side counter session',
        PeerSession.allocateCounter (pair.sessions side) = .ok counter session' →
          ∃ nonce, deriveNonce (pair.sessions side).role.outgoingDirection counter = .ok nonce := by
  intro pair
  have hnumbered : pair.Numbered fun side ↦ .start (terms side) (now side) :=
    (SealingPair.numbered_start terms now).run calls
  refine ⟨hnumbered.pairwise_nonce hmirrored.role, fun p hp ↦ ?_, fun side ↦ ?_,
    fun session counter session' h ↦ SealingPair.packUnsigned_allocated h,
    fun side counter session' h ↦ ?_⟩
  · exact length_deriveNonce (hnumbered.nonce p hp)
  · exact ⟨hnumbered.pairwise_counter side, hnumbered.length_sentOf side,
      fun e he ↦ (hnumbered.counter_mem he).2⟩
  · apply SealingPair.exists_deriveNonce _ _ (SealingPair.packUnsigned_allocated h)
    rw [← (PeerSession.allocateCounter_eq_ok.mp h).2.1, hnumbered.counted side]
    exact Nat.succ_pos _

def pairCalls : List (PairCall (Fin 128)) :=
  [.seal false .heartbeat pairPayload ⟨0, 0⟩, .seal true .heartbeat pairPayload ⟨0, 0⟩]

def pairSealing : SealingPair Bool (Fin 128) :=
  .run pairNetwork id (fun side ↦ .start (pairTerms side) 0) pairCalls

/-- Alice and Bob seal a frame each. -/
theorem nonces_distinct_pairSealing :
    ∃ p q, pairSealing.sent = [p, q] ∧ p.2.call.nonce ≠ q.2.call.nonce := by
  have hmirrored : pairNetwork.Mirrored false (.start (pairTerms false) 0) true
      (.start (pairTerms true) 0) := pair_mirrored pairNetwork.msgpack false
  have hdistinct := (@nonces_distinct _ _ pairNetwork id pairTerms (fun _ ↦ 0) hmirrored
    pairCalls).1
  obtain ⟨p, q, hsent⟩ := List.length_eq_two.mp (show pairSealing.sent.length = 2 by decide +kernel)
  refine ⟨p, q, hsent, ?_⟩
  change pairSealing.sent.Pairwise _ at hdistinct
  rw [hsent] at hdistinct
  exact List.rel_of_pairwise_cons hdistinct (List.mem_singleton_self q)

end SecureSync
