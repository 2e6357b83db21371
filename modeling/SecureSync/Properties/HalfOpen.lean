import SecureSync.HandshakeV3.System
import SecureSync.Library.Admissions

/-!
# Half-open exchanges

`begin_half_open` stands before the `try` of a responder, `end_half_open` in its
`finally`.  The calls are read off the stages of an exchange; the count in the
stores is what these calls make of it, and it is exact.
-/

namespace SecureSync

open BigEndian Raising Admission

/-- Where a responder stands relative to its `try`. -/
inductive TryStage where
  | before
  | inside
  | after
  deriving DecidableEq, Repr

namespace TryStage

/-- `entered`: the exchange has passed `begin_half_open` since it was `before`. -/
def calls (entered : Bool) : TryStage → TryStage → List Call
  | before, inside => [.enter]
  | before, after => if entered then [.enter, .leave] else []
  | inside, after => [.leave]
  | _, _ => []

/-- The calls that lead to a stage. -/
def Reached (stage : TryStage) (calls : List Call) : Prop :=
  match stage with
  | before => calls = []
  | inside => calls = [.enter]
  | after => calls = [] ∨ calls = [.enter, .leave]

theorem Reached.orderly {stage : TryStage} {calls : List Call} (h : stage.Reached calls) :
    calls <+: [.enter, .leave] := by
  cases stage with
  | before =>
      rw [show calls = [] from h]
      exact List.nil_prefix
  | inside =>
      rw [show calls = [.enter] from h]
      exact List.prefix_append [Call.enter] [.leave]
  | after =>
      rcases h with rfl | rfl
      · exact List.nil_prefix
      · exact List.prefix_rfl

theorem Reached.inside_iff {stage : TryStage} {calls : List Call} (h : stage.Reached calls) :
    calls = [.enter] ↔ stage = .inside := by
  cases stage with
  | before => simp [show calls = [] from h]
  | inside => simp [show calls = [.enter] from h]
  | after => rcases h with rfl | rfl <;> simp

theorem foldl_calls_le (entered : Bool) (stage stage' : TryStage) {n limit : ℕ} (h : n ≤ limit)
    (hroom : Call.enter ∈ calls entered stage stage' → n < limit) :
    (calls entered stage stage').foldl Call.count n ≤ limit := by
  revert hroom
  cases stage <;> cases stage' <;> cases entered <;> simp [calls, Call.count] <;> omega

end TryStage

namespace Responder

def stage (y : Responder) : TryStage :=
  match y.status, y.phase with
  | .failed _, _ => .after
  | .rejecting _, _ => .inside
  | .running, .waitHello => .before
  | .running, .confirmed .. => .after
  | .running, _ => .inside

end Responder

namespace HandshakeV3

variable (handshake : HandshakeV3)

/-- The exchange reads a good message 1 and finds room, so that `begin_half_open`
returns. -/
def admits (y : Responder) (stores : HandshakeStores) : Awaited → Bool
  | .message m1 =>
      decide (y.stage = .before) && (handshake.checkHello m1).toBool &&
        decide (stores.halfOpen < handshake.maxHalfOpen)
  | _ => false

/-- The calls of `begin_half_open` and `end_half_open` of one step. -/
def halfOpenCalls (y : Responder) (stores : HandshakeStores) (awaited : Awaited)
    (writable : Bool) : List Call :=
  y.stage.calls (handshake.admits y stores awaited)
    (handshake.responderStep y stores awaited writable).1.stage

variable {handshake} {y : Responder} {stores : HandshakeStores} {awaited : Awaited}
  {writable : Bool}

/-- From within the `try`: the exchange stays there, or leaves it through the `finally`. -/
inductive Held (stores : HandshakeStores) : Responder × HandshakeStores → Prop
  | stays {y : Responder} {stores' : HandshakeStores} (hstage : y.stage = .inside)
      (hcount : stores'.halfOpen = stores.halfOpen) : Held stores (y, stores')
  | leaves {y : Responder} {stores' : HandshakeStores} (hstage : y.stage = .after)
      (hcount : stores'.halfOpen = stores.halfOpen - 1) : Held stores (y, stores')

theorem held_fail (y : Responder) (error : HandshakeV3Error) {stores' : HandshakeStores}
    (h : stores'.halfOpen = stores.halfOpen) : Held stores (y.fail error stores') := by
  refine .leaves rfl ?_
  rw [HandshakeStores.endHalfOpen, h]

theorem held_refuse (y : Responder) (sent : ReplySent) (m3 : Bytes) (error : HandshakeV3Error)
    (writable : Bool) {stores' : HandshakeStores} (h : stores'.halfOpen = stores.halfOpen) :
    Held stores (handshake.refuse y sent m3 error writable stores') := by
  unfold refuse
  split
  · cases writable with
    | false => exact held_fail y error h
    | true => exact .stays rfl h
  · exact held_fail y error h

theorem held_finishAccept (y : Responder) (hrunning : y.status = .running) (sent : ReplySent)
    (verified : ConfirmVerified) (pin : Option Bytes) (writable : Bool) :
    Held stores (handshake.finishAccept y sent verified pin writable stores) := by
  unfold finishAccept
  split
  · exact held_refuse y sent _ _ writable rfl
  split
  · exact held_refuse y sent _ _ writable rfl
  split
  · exact held_fail y _ rfl
  cases writable with
  | false => exact held_fail y _ rfl
  | true =>
      refine .stays ?_ rfl
      simp only [Responder.stage, hrunning]

theorem responderStep_inside (hstage : y.stage = .inside) :
    Held stores (handshake.responderStep y stores awaited writable) := by
  have hsame : Held stores (y, stores) := .stays hstage rfl
  unfold responderStep
  split
  case h_1 => exact hsame
  case h_2 e hstatus =>
    split
    case h_1 => exact hsame
    case h_2 | h_3 | h_4 => exact held_fail y _ rfl
  case h_3 hrunning =>
    have hinside : ∀ phase, { y with phase }.stage = .inside →
        ∀ stores' : HandshakeStores, stores'.halfOpen = stores.halfOpen →
          Held stores ({ y with phase }, stores') := fun phase h _ ↦ .stays h
    split
    case h_1 m1 hphase | h_8 e hphase => simp [Responder.stage, hrunning, hphase] at hstage
    case h_2 sent m3 hphase =>
      split
      · exact held_refuse y sent m3 _ writable rfl
      · exact hinside _ (by simp only [Responder.stage, hrunning]) _ rfl
    case h_3 | h_5 => exact hinside _ (by simp only [Responder.stage, hrunning]) _ rfl
    case h_4 sent verified pin hphase =>
      split
      · exact held_refuse y sent _ _ writable rfl
      · exact hinside _ (by simp only [Responder.stage, hrunning]) _ rfl
    case h_6 sent verified pin hphase => exact held_finishAccept y hrunning sent verified pin _
    case h_7 => exact .leaves (by simp only [Responder.stage, hrunning]) rfl
    case h_9 | h_10 => exact held_fail y _ rfl
    case h_11 | h_12 | h_13 | h_14 => exact held_refuse y _ _ _ writable rfl
    case h_15 => exact hsame

theorem responderStep_after (hstage : y.stage = .after) :
    handshake.responderStep y stores awaited writable = (y, stores) := by
  unfold Responder.stage at hstage
  unfold responderStep
  split at hstage <;> simp_all

theorem stage_eq_before : y.stage = .before ↔ y.status = .running ∧ y.phase = .waitHello := by
  unfold Responder.stage
  split <;> simp_all

/-- Before the `try`: the exchange waits, fails, or passes `begin_half_open` if there is room. -/
inductive Admitted (y : Responder) (stores : HandshakeStores) (awaited : Awaited) :
    Responder × HandshakeStores → Prop
  | waits : Admitted y stores awaited (y, stores)
  | fails {y' : Responder} (hstage : y'.stage = .after)
      (hrefused : handshake.admits y stores awaited = false) :
      Admitted y stores awaited (y', stores)
  | enters {next : Responder × HandshakeStores}
      (hadmits : handshake.admits y stores awaited = true)
      (hheld : Held stores.beginHalfOpen next) : Admitted y stores awaited next

theorem responderStep_before (hstage : y.stage = .before) :
    handshake.Admitted y stores awaited (handshake.responderStep y stores awaited writable) := by
  obtain ⟨hrunning, hphase⟩ := stage_eq_before.mp hstage
  simp only [responderStep, hrunning, hphase]
  cases awaited with
  | returned => exact .waits
  | raised e => exact .fails rfl rfl
  | message m1 =>
      dsimp only
      split
      case h_1 e hhello =>
        apply Admitted.fails
        · rfl
        · simp [admits, hhello, Except.toBool]
      case h_2 hello hhello =>
        split_ifs with hbusy
        · apply Admitted.fails
          · rfl
          · simp [admits, Nat.not_lt.mpr hbusy]
        · apply Admitted.enters
          · simp [admits, hstage, hhello, Except.toBool, Nat.not_le.mp hbusy]
          · split
            · exact held_fail y _ rfl
            · cases writable with
              | false => exact held_fail y _ rfl
              | true =>
                  refine .stays ?_ rfl
                  simp only [Responder.stage, hrunning]

theorem lt_of_admits (h : handshake.admits y stores awaited = true) :
    stores.halfOpen < handshake.maxHalfOpen := by
  unfold admits at h
  split at h
  · exact of_decide_eq_true (Bool.and_elim_right h)
  · cases h

/-- One step of an exchange: the calls that it makes are those that the count shows,
and they go on from where the exchange stood. -/
theorem halfOpenCalls_spec :
    (handshake.responderStep y stores awaited writable).2.halfOpen =
        (handshake.halfOpenCalls y stores awaited writable).foldl Call.count stores.halfOpen ∧
      (∀ calls, y.stage.Reached calls →
        (handshake.responderStep y stores awaited writable).1.stage.Reached
          (calls ++ handshake.halfOpenCalls y stores awaited writable)) ∧
      (Call.enter ∈ handshake.halfOpenCalls y stores awaited writable →
        stores.halfOpen < handshake.maxHalfOpen) := by
  unfold halfOpenCalls
  cases hstage : y.stage with
  | before =>
      have hmove : handshake.Admitted y stores awaited
          (handshake.responderStep y stores awaited writable) := responderStep_before hstage
      generalize handshake.responderStep y stores awaited writable = next at hmove ⊢
      cases hmove with
      | waits => simp [hstage, TryStage.calls]
      | fails hafter hrefused =>
          simp [hafter, hrefused, TryStage.calls, TryStage.Reached]
      | enters hadmits hheld =>
          have hlt := lt_of_admits hadmits
          cases hheld with
          | stays hinside hcount =>
              simpa [hinside, TryStage.calls, TryStage.Reached, Call.count, hcount,
                HandshakeStores.beginHalfOpen] using hlt
          | leaves hafter hcount =>
              simpa [hafter, hadmits, TryStage.calls, TryStage.Reached, Call.count, hcount,
                HandshakeStores.beginHalfOpen] using hlt
  | inside =>
      have hmove : Held stores (handshake.responderStep y stores awaited writable) :=
        responderStep_inside hstage
      generalize handshake.responderStep y stores awaited writable = next at hmove ⊢
      cases hmove with
      | stays hinside hcount => simp [hinside, TryStage.calls, hcount]
      | leaves hafter hcount =>
          simp [hafter, TryStage.calls, TryStage.Reached, Call.count, hcount]
  | after =>
      rw [responderStep_after hstage]
      simp [hstage, TryStage.calls]

def NotBusy (e : HandshakeV3Error) : Prop := ∀ n, e ≠ .busy n

theorem mapError_notBusy {ε α : Type} {wrap : ε → HandshakeV3Error} (h : ∀ e, NotBusy (wrap e))
    (x : Except ε α) : ExceptRaises NotBusy (x.mapError wrap) := by
  intro e he
  obtain ⟨e', -, rfl⟩ := except_mapError_eq_error.mp he
  exact h e'

/-- What goes wrong on the way to message 2 is never taken for a full responder. -/
theorem reply_notBusy (privateKey nonce : Bytes) (hello : HelloMessage) :
    ExceptRaises NotBusy (handshake.reply privateKey nonce hello) := by
  have hmessage {α : Type} (x : Except MessageError α) :
      ExceptRaises NotBusy (x.mapError .message) := mapError_notBusy (by simp [NotBusy]) x
  have hkeys {α : Type} (x : Except HandshakeKeyError α) :
      ExceptRaises NotBusy (x.mapError .keys) := mapError_notBusy (by simp [NotBusy]) x
  have hsecret (privateKey peerPublicKey : Bytes) :
      ExceptRaises NotBusy (handshake.sharedSecret privateKey peerPublicKey) := by
    unfold sharedSecret
    split
    · exact exceptRaises_error (by simp [NotBusy])
    · exact exceptRaises_ok _
  unfold reply
  refine .bind (exceptRaises_require fun _ ↦ by simp [NotBusy]) fun _ _ ↦ ?_
  refine .bind (hmessage _) fun _ _ ↦ .bind (hmessage _) fun _ _ ↦ .bind (hmessage _) fun _ _ ↦ ?_
  refine .bind (hsecret _ _) fun _ _ ↦ .bind (hkeys _) fun _ _ ↦ .bind (hmessage _) fun _ _ ↦ ?_
  exact .bind (hkeys _) fun _ _ ↦ .bind (hmessage _) fun _ _ ↦ exceptRaises_ok _

/-- An exchange with a good message 1 is refused exactly if there is no room. -/
theorem busy_iff (hstage : y.stage = .before) {m1 : Bytes} {hello : HelloMessage}
    (hhello : handshake.checkHello m1 = .ok hello) :
    (∃ n, (handshake.responderStep y stores (.message m1) writable).1.status =
        .failed (.busy n)) ↔ handshake.maxHalfOpen ≤ stores.halfOpen := by
  obtain ⟨hrunning, hphase⟩ := stage_eq_before.mp hstage
  simp only [responderStep, hrunning, hphase, hhello]
  split_ifs with hbusy
  · exact iff_of_true ⟨_, rfl⟩ hbusy
  · refine iff_of_false ?_ hbusy
    rintro ⟨n, h⟩
    split at h
    case h_1 e hreply => exact reply_notBusy _ _ _ e hreply n (ResponderStatus.failed.inj h)
    case h_2 sent hreply =>
      cases writable with
      | false => simp [Responder.write, Responder.fail] at h
      | true => simp [Responder.write, hrunning] at h

/-- An initiator does not touch the count. -/
theorem halfOpen_initiatorStep (x : Initiator) :
    (handshake.initiatorStep x stores awaited writable).2.halfOpen = stores.halfOpen := by
  unfold initiatorStep
  split_ifs
  · rfl
  split
  case h_6 => split <;> rfl
  all_goals rfl

end HandshakeV3

/-! ## Runs -/

/-- The stage of the exchange `j`, if it is one of the device; before it is accepted
it has made no call. -/
def HandshakeWorld.stageOf {δ : Type} [DecidableEq δ] (w : HandshakeWorld δ) (d : δ) (j : ℕ) :
    TryStage :=
  match w.responders[j]? with
  | some (d', y) => if d' = d then y.stage else .before
  | none => .before

namespace HandshakeSetting

variable {δ : Type} [DecidableEq δ] (setting : HandshakeSetting δ)

/-- The calls that a step makes on the instance of a device, each with the exchange
that makes it. -/
def stepCalls (d : δ) (w : HandshakeWorld δ) : HandshakeEvent δ → List (ℕ × Call)
  | .responder j awaited writable =>
      match w.responders[j]? with
      | some (d', y) =>
          if d' = d then
            ((setting.handshake d).halfOpenCalls y (w.stores d) awaited writable).map (j, ·)
          else []
      | none => []
  | .initiate .. | .accept .. | .initiator .. => []

def callLog (d : δ) : HandshakeWorld δ → List (HandshakeEvent δ) → List (ℕ × Call)
  | _, [] => []
  | w, event :: events => setting.stepCalls d w event ++ callLog d (setting.step w event) events

variable {setting} {d : δ} {w : HandshakeWorld δ} {event : HandshakeEvent δ}

theorem callLog_append (w : HandshakeWorld δ) (events : List (HandshakeEvent δ)) :
    setting.callLog d w (events ++ [event]) =
      setting.callLog d w events ++ setting.stepCalls d (events.foldl setting.step w) event := by
  induction events generalizing w with
  | nil => exact List.append_nil _
  | cons first events ih => rw [List.cons_append, callLog, callLog, ih, List.append_assoc]; rfl

theorem stageOf_eq {j : ℕ} {y : Responder} (h : w.responders[j]? = some (d, y)) :
    w.stageOf d j = y.stage := by
  simp only [HandshakeWorld.stageOf, h, if_true]

/-- The count is what the calls so far have made of it, and every exchange stands
where its own calls have led. -/
structure Counted (setting : HandshakeSetting δ) (d : δ) (w : HandshakeWorld δ)
    (log : List (ℕ × Call)) : Prop where
  count : (w.stores d).halfOpen = counter log
  bounded : (w.stores d).halfOpen ≤ setting.maxHalfOpen d
  reached : ∀ j, (w.stageOf d j).Reached (callsOf log j)

theorem stageOf_accept (w : HandshakeWorld δ) (d' : δ) (privateKey nonce : Bytes)
    (onConfirmed : OnConfirmed) (j : ℕ) :
    (setting.step w (.accept d' privateKey nonce onConfirmed)).stageOf d j = w.stageOf d j := by
  simp only [HandshakeWorld.stageOf, step]
  rcases Nat.lt_trichotomy j w.responders.length with hj | rfl | hj
  · rw [List.getElem?_append_left hj]
  · simp only [List.getElem?_concat_length, List.getElem?_eq_none le_rfl]
    split_ifs <;> rfl
  · rw [List.getElem?_eq_none hj.le, List.getElem?_eq_none]
    rw [List.length_append]
    exact hj

theorem Counted.of_eq {log : List (ℕ × Call)} {w' : HandshakeWorld δ} (h : Counted setting d w log)
    (hcount : (w'.stores d).halfOpen = (w.stores d).halfOpen)
    (hstage : ∀ j, w'.stageOf d j = w.stageOf d j) : Counted setting d w' log where
  count := hcount.trans h.count
  bounded := hcount.trans_le h.bounded
  reached j := (hstage j).symm ▸ h.reached j

/-- The exchange `j` of the device goes on. -/
theorem Counted.responder {log : List (ℕ × Call)} (h : Counted setting d w log) {j : ℕ}
    {y : Responder} (hy : w.responders[j]? = some (d, y)) (awaited : Awaited) (writable : Bool) :
    Counted setting d (setting.step w (.responder j awaited writable))
      (log ++
        ((setting.handshake d).halfOpenCalls y (w.stores d) awaited writable).map (j, ·)) := by
  obtain ⟨hcount, hreached, hroom⟩ := @HandshakeV3.halfOpenCalls_spec (setting.handshake d) y
    (w.stores d) awaited writable
  have hstores : ((setting.step w (.responder j awaited writable)).stores d).halfOpen =
      ((setting.handshake d).halfOpenCalls y (w.stores d) awaited writable).foldl Call.count
        (w.stores d).halfOpen := by
    rw [stores_of_responder awaited writable hy, Function.update_self, hcount]
  refine ⟨?_, ?_, fun j' ↦ ?_⟩
  · rw [hstores, counter_append, List.map_map, h.count, show Prod.snd ∘ (j, ·) = id from rfl,
      List.map_id]
  · rw [hstores]
    exact TryStage.foldl_calls_le _ _ _ h.bounded hroom
  · have hset : ((setting.step w (.responder j awaited writable)).responders) = w.responders.set j
        (d, ((setting.handshake d).responderStep y (w.stores d) awaited writable).1) := by
      simp only [step, hy]
    rw [callsOf_append]
    by_cases hj : j = j'
    · subst hj
      have hlt : j < w.responders.length := (List.getElem?_eq_some_iff.mp hy).1
      rw [callsOf_map_self, stageOf_eq (by rw [hset, List.getElem?_set_self hlt])]
      apply hreached
      rw [← stageOf_eq hy]
      exact h.reached j
    · rw [callsOf_map_of_ne _ hj, List.append_nil]
      have hstage := h.reached j'
      simp only [HandshakeWorld.stageOf, hset, List.getElem?_set_ne hj] at hstage ⊢
      exact hstage

/-- The exchange `j` of another device goes on. -/
theorem Counted.other {log : List (ℕ × Call)} (h : Counted setting d w log) {j : ℕ} {d' : δ}
    {y : Responder} (hy : w.responders[j]? = some (d', y)) (hd : d' ≠ d) (awaited : Awaited)
    (writable : Bool) :
    Counted setting d (setting.step w (.responder j awaited writable)) log := by
  apply h.of_eq
  · rw [stores_of_responder awaited writable hy, Function.update_of_ne (Ne.symm hd)]
  · intro j'
    simp only [HandshakeWorld.stageOf, step, hy]
    by_cases hj : j = j'
    · subst hj
      have hlt : j < w.responders.length := (List.getElem?_eq_some_iff.mp hy).1
      simp only [List.getElem?_set_self hlt, hy, if_neg hd]
    · rw [List.getElem?_set_ne hj]

theorem Counted.step {log : List (ℕ × Call)} (h : Counted setting d w log)
    (event : HandshakeEvent δ) :
    Counted setting d (setting.step w event) (log ++ setting.stepCalls d w event) := by
  cases event with
  | initiate d' privateKey nonce writable =>
      rw [stepCalls, List.append_nil]
      exact h.of_eq rfl fun j ↦ rfl
  | accept d' privateKey nonce onConfirmed =>
      rw [stepCalls, List.append_nil]
      exact h.of_eq rfl (stageOf_accept w d' privateKey nonce onConfirmed)
  | initiator i awaited writable =>
      rw [stepCalls, List.append_nil]
      cases hx : w.initiators[i]? with
      | none =>
          have hstep : setting.step w (.initiator i awaited writable) = w := by
            simp only [HandshakeSetting.step, hx]
          rw [hstep]
          exact h
      | some p =>
          obtain ⟨d', x⟩ := p
          refine h.of_eq ?_ fun j ↦ by simp only [HandshakeSetting.step, hx, HandshakeWorld.stageOf]
          rw [stores_of_initiator awaited writable hx]
          by_cases hd : d = d'
          · subst hd
            rw [Function.update_self, HandshakeV3.halfOpen_initiatorStep]
          · rw [Function.update_of_ne hd]
  | responder j awaited writable =>
      cases hy : w.responders[j]? with
      | none =>
          have hstep : setting.step w (.responder j awaited writable) = w := by
            simp only [HandshakeSetting.step, hy]
          rw [hstep]
          simp only [stepCalls, hy, List.append_nil]
          exact h
      | some p =>
          obtain ⟨d', y⟩ := p
          by_cases hd : d' = d
          · subst hd
            simp only [stepCalls, hy, if_true]
            exact h.responder hy awaited writable
          · simp only [stepCalls, hy, if_neg hd, List.append_nil]
            exact h.other hy hd awaited writable

theorem Counted.exec {stores : δ → HandshakeStores} (hstart : (stores d).halfOpen = 0)
    (events : List (HandshakeEvent δ)) :
    Counted setting d (setting.exec stores events) (setting.callLog d ⟨stores, [], []⟩ events) := by
  induction events using List.reverseRecOn with
  | nil => exact ⟨hstart, hstart.trans_le (Nat.zero_le _), fun j ↦ rfl⟩
  | append_singleton events event ih =>
      rw [exec_append, callLog_append]
      exact ih.step event

theorem Counted.orderly {log : List (ℕ × Call)} (h : Counted setting d w log) : Orderly log :=
  fun j ↦ (h.reached j).orderly

theorem Counted.mem_inside {log : List (ℕ × Call)} (h : Counted setting d w log) {j : ℕ} :
    j ∈ inside log ↔ w.stageOf d j = .inside := by
  rw [Admission.mem_inside, (h.reached j).inside_iff]

end HandshakeSetting

open HandshakeSetting in
/-- In every run of the exchanges of all devices: the count of a device is the number
of its exchanges that have entered and not left, none of which leaves before it has
entered or twice; it stays within the limit, and is back at zero once all have ended.
An exchange is refused as busy exactly if as many others as the limit allows are
half-open. -/
theorem halfOpen_exact {δ : Type} [DecidableEq δ] (setting : HandshakeSetting δ)
    (stores : δ → HandshakeStores) (d : δ) (hstart : (stores d).halfOpen = 0)
    (events : List (HandshakeEvent δ)) :
    let w := setting.exec stores events
    let log := setting.callLog d ⟨stores, [], []⟩ events
    (w.stores d).halfOpen = counter log ∧ Orderly log ∧
      (w.stores d).halfOpen = (inside log).card ∧
      (∀ j, j ∈ inside log ↔ ∃ y, w.responders[j]? = some (d, y) ∧ y.stage = .inside) ∧
      (w.stores d).halfOpen ≤ setting.maxHalfOpen d ∧
      (∀ before j after, log = before ++ (j, .leave) :: after →
        j ∈ inside before ∧ 0 < counter before) ∧
      ((∀ p ∈ w.responders, p.1 = d → p.2.stage ≠ .inside) → (w.stores d).halfOpen = 0) ∧
      ∀ j y m1 hello writable, w.responders[j]? = some (d, y) → y.stage = .before →
        (setting.handshake d).checkHello m1 = .ok hello →
          ((∃ n, ((setting.handshake d).responderStep y (w.stores d) (.message m1)
              writable).1.status = .failed (.busy n)) ↔
            ((inside log).erase j).card = setting.maxHalfOpen d) := by
  intro w log
  have hcounted : Counted setting d w log := .exec hstart events
  have hcard : (w.stores d).halfOpen = (inside log).card :=
    hcounted.count.trans hcounted.orderly.counter_eq
  have hmem : ∀ j, j ∈ inside log ↔ ∃ y, w.responders[j]? = some (d, y) ∧ y.stage = .inside := by
    intro j
    rw [hcounted.mem_inside]
    constructor
    · intro hstage
      unfold HandshakeWorld.stageOf at hstage
      split at hstage
      case h_1 d' y hy =>
        split_ifs at hstage with hd
        subst hd
        exact ⟨y, hy, hstage⟩
      case h_2 => cases hstage
    · rintro ⟨y, hy, hstage⟩
      rw [stageOf_eq hy, hstage]
  refine ⟨hcounted.count, hcounted.orderly, hcard, hmem, hcounted.bounded, ?_, ?_, ?_⟩
  · intro before j after hlog
    have horderly := hcounted.orderly
    rw [hlog] at horderly
    exact horderly.of_leave
  · intro hended
    rw [hcard, Finset.card_eq_zero]
    refine Finset.eq_empty_of_forall_notMem fun j hj ↦ ?_
    obtain ⟨y, hy, hstage⟩ := (hmem j).mp hj
    exact hended (d, y) (List.mem_of_getElem? hy) rfl hstage
  · intro j y m1 hello writable hy hstage hhello
    have hout : j ∉ inside log := by
      rw [hmem j]
      rintro ⟨y', hy', hstage'⟩
      obtain rfl : y = y' := congrArg Prod.snd (Option.some.inj (hy.symm.trans hy'))
      rw [hstage] at hstage'
      cases hstage'
    have hbounded : (w.stores d).halfOpen ≤ setting.maxHalfOpen d := hcounted.bounded
    rw [HandshakeV3.busy_iff hstage hhello, Finset.erase_eq_of_notMem hout, ← hcard]
    exact ⟨fun h ↦ Nat.le_antisymm hbounded h, fun h ↦ h.ge⟩

/-- A device with room for one. -/
def narrowSetting : HandshakeSetting Bool := { v3PairSetting with maxHalfOpen := fun _ ↦ 1 }

/-- Bob has sent message 2 to Alice, and has accepted a second connection. -/
def narrowEvents : List (HandshakeEvent Bool) :=
  narrowSetting.relay ⟨noStores, [], []⟩ ((pairTurns keepSession true).take 3 ++
    [fun _ ↦ .accept true (encode 32 23) (encode 32 24) keepSession])

/-- Message 1 of Alice. -/
def narrowHello : Bytes :=
  (((narrowSetting.exec noStores narrowEvents).initiators.map fun p ↦ p.2.hello).getD 0 [])

/-- A second hello is turned away while the first exchange is half-open; when that is
cancelled, there is room again. -/
theorem halfOpen_exact_narrow :
    (∃ y n, (narrowSetting.exec noStores narrowEvents).responders[1]? = some (true, y) ∧
      ((narrowSetting.handshake true).responderStep y
        ((narrowSetting.exec noStores narrowEvents).stores true) (.message narrowHello)
          true).1.status = .failed (.busy n)) ∧
    ((narrowSetting.exec noStores
      (narrowEvents ++ [.responder 0 (.raised .cancelled) true])).stores true).halfOpen = 0 := by
  obtain ⟨-, -, -, -, -, -, -, hbusy⟩ := halfOpen_exact narrowSetting noStores true rfl narrowEvents
  obtain ⟨-, -, -, -, -, -, hended, -⟩ := halfOpen_exact narrowSetting noStores true rfl
    (narrowEvents ++ [.responder 0 (.raised .cancelled) true])
  constructor
  · have hstages : ((narrowSetting.exec noStores narrowEvents).responders.map fun p ↦
        (p.1, p.2.stage))[1]? = some (true, .before) := by
      decide +kernel
    rw [List.getElem?_map, Option.map_eq_some_iff] at hstages
    obtain ⟨⟨d, y⟩, hy, hp⟩ := hstages
    obtain ⟨rfl, hstage⟩ := Prod.mk.inj hp
    cases hhello : (narrowSetting.handshake true).checkHello narrowHello with
    | error e =>
        have hgood : ((narrowSetting.handshake true).checkHello narrowHello).toBool = true := by
          decide +kernel
        rw [hhello] at hgood
        cases hgood
    | ok hello =>
        have hothers : ((inside (narrowSetting.callLog true ⟨noStores, [], []⟩
            narrowEvents)).erase 1).card = 1 := by
          decide +kernel
        obtain ⟨n, hn⟩ := (hbusy 1 y narrowHello hello true hy hstage hhello).mpr hothers
        exact ⟨y, n, hy, hn⟩
  · have hstages : ∀ s ∈ (narrowSetting.exec noStores
        (narrowEvents ++ [.responder 0 (.raised .cancelled) true])).responders.map fun p ↦
          p.2.stage, s ≠ .inside := by
      decide +kernel
    exact hended fun p hp _ ↦ hstages p.2.stage (List.mem_map_of_mem hp)

end SecureSync
