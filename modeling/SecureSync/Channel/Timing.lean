import SecureSync.Channel.Records

/-!
# Runs on a clock

Every step reads a clock that never goes back.  The two times that a session
object carries are then the times at which it was created and last used.
-/

namespace SecureSync

open SecureChannel

variable {δ π : Type}

/-- The clock readings of the step are all `now`. -/
def Act.At (now : ℚ) : Act δ π → Prop
  | .seal _ _ _ _ clock | .deliver _ _ clock => clock.seconds = now
  | .put _ _ time => time = now
  | .confirm _ _ | .forget _ _ => True

inductive Network.TimedRun [DecidableEq δ] (net : Network δ π) : World δ π → ℚ → Prop
  | start (now : ℚ) : net.TimedRun (.start net.policy) now
  | step {w : World δ π} {before now : ℚ} (act : Act δ π) (h : net.TimedRun w before)
      (hle : before ≤ now) (hact : act.At now) : net.TimedRun (net.step w act) now

/-- What the tasks of all devices do between one time and another. -/
inductive Network.TimedSteps [DecidableEq δ] (net : Network δ π) (w₀ : World δ π) (entered : ℚ) :
    World δ π → ℚ → Prop
  | refl : net.TimedSteps w₀ entered w₀ entered
  | step {w : World δ π} {before now : ℚ} (act : Act δ π) (h : net.TimedSteps w₀ entered w before)
      (hle : before ≤ now) (hact : act.At now) : net.TimedSteps w₀ entered (net.step w act) now

/-- What holds of the world that is left and is kept by every step holds later. -/
theorem Network.TimedSteps.induction [DecidableEq δ] {net : Network δ π} {w₀ w : World δ π}
    {entered now : ℚ} {P : World δ π → ℚ → Prop} (h : net.TimedSteps w₀ entered w now)
    (h₀ : P w₀ entered) (hstep : ∀ {w : World δ π} {before now : ℚ} (act : Act δ π),
      before ≤ now → act.At now → P w before → P (net.step w act) now) : P w now := by
  induction h with
  | refl => exact h₀
  | step act _ hle hact ih => exact hstep act hle hact ih

@[simp] theorem SecureChannel.lastActivity_received (s : PeerSession) (counter : ℕ)
    (clock : ChannelClock) : (received s counter clock).lastActivity = clock.seconds := rfl

namespace World

/-- A session with this id was recorded on the device at this time. -/
def CreatedAt (w : World δ π) (d : δ) (sessionId : Bytes) (time : ℚ) : Prop :=
  ∃ s, (d, s) ∈ w.recorded ∧ s.sessionId = sessionId ∧ s.createdAt = time

/-- The device recorded, sealed under or opened for the session at this time. -/
inductive UsedAt (w : World δ π) (d : δ) (sessionId : Bytes) (time : ℚ) : Prop where
  | recorded (h : w.CreatedAt d sessionId time)
  | sent (e : Sent δ π) (h : e ∈ w.sent) (hdevice : e.device = d)
      (hid : e.sessionId = sessionId) (htime : e.clock.seconds = time)
  | opened (o : Opened δ π) (h : o ∈ w.opened) (hdevice : o.device = d)
      (hid : o.sessionId = sessionId) (htime : o.clock.seconds = time)

/-- The times in the session objects are the latest in the records. -/
structure Clocked (w : World δ π) (now : ℚ) : Prop where
  created : ∀ d id s, w.find d id = some s → IsGreatest {t | w.CreatedAt d id t} s.createdAt
  used : ∀ d id s, w.find d id = some s → IsGreatest {t | w.UsedAt d id t} s.lastActivity
  le_now : ∀ d id t, w.UsedAt d id t → t ≤ now

variable {net : Network δ π} {w w' : World δ π} {d : δ} {s s' : PeerSession} {now before : ℚ}

theorem Clocked.mono (h : w.Clocked before) (hle : before ≤ now) : w.Clocked now where
  created := h.created
  used := h.used
  le_now d id t ht := (h.le_now d id t ht).trans hle

theorem createdAt_congr (h : w'.recorded = w.recorded) {d : δ} {id : Bytes} {t : ℚ} :
    w'.CreatedAt d id t ↔ w.CreatedAt d id t := by
  rw [CreatedAt, CreatedAt, h]

theorem usedAt_iff {id : Bytes} {t : ℚ} : w.UsedAt d id t ↔ w.CreatedAt d id t ∨
    (∃ e ∈ w.sent, e.device = d ∧ e.sessionId = id ∧ e.clock.seconds = t) ∨
      ∃ o ∈ w.opened, o.device = d ∧ o.sessionId = id ∧ o.clock.seconds = t := by
  constructor
  · rintro (h | ⟨e, h, h₁, h₂, h₃⟩ | ⟨o, h, h₁, h₂, h₃⟩)
    · exact .inl h
    · exact .inr (.inl ⟨e, h, h₁, h₂, h₃⟩)
    · exact .inr (.inr ⟨o, h, h₁, h₂, h₃⟩)
  · rintro (h | ⟨e, h, h₁, h₂, h₃⟩ | ⟨o, h, h₁, h₂, h₃⟩)
    · exact .recorded h
    · exact .sent e h h₁ h₂ h₃
    · exact .opened o h h₁ h₂ h₃

theorem usedAt_sent {e : Sent δ π} (hsame : w.SameRecords { w' with sent := w.sent })
    (hsent : w'.sent = w.sent ++ [e]) {d : δ} {id : Bytes} {t : ℚ} : w'.UsedAt d id t ↔
      w.UsedAt d id t ∨ e.device = d ∧ e.sessionId = id ∧ e.clock.seconds = t := by
  have hrecorded : w'.recorded = w.recorded := hsame.recorded
  have hopened : w'.opened = w.opened := hsame.opened
  rw [usedAt_iff, usedAt_iff, createdAt_congr hrecorded, hopened, hsent]
  simp only [List.mem_append, List.mem_singleton, or_and_right, exists_or, exists_eq_left]
  grind

theorem usedAt_opened {o : Opened δ π} (hsame : w.SameRecords { w' with opened := w.opened })
    (hopened : w'.opened = w.opened ++ [o]) {d : δ} {id : Bytes} {t : ℚ} : w'.UsedAt d id t ↔
      w.UsedAt d id t ∨ o.device = d ∧ o.sessionId = id ∧ o.clock.seconds = t := by
  have hrecorded : w'.recorded = w.recorded := hsame.recorded
  have hsent : w'.sent = w.sent := hsame.sent
  rw [usedAt_iff, usedAt_iff, createdAt_congr hrecorded, hsent, hopened]
  simp only [List.mem_append, List.mem_singleton, or_and_right, exists_or, exists_eq_left]
  grind

/-- Objects keep the time at which they were created. -/
theorem Clocked.created_of_wrote (h : w.Clocked before) (hfind : w.find d s.sessionId = some s)
    (hwrote : w.Wrote w' d s') (hterms : s.SameTerms s') (hrecorded : w'.recorded = w.recorded)
    (d₁ : δ) (id : Bytes) (s₁ : PeerSession) (hs₁ : w'.find d₁ id = some s₁) :
    IsGreatest {t | w'.CreatedAt d₁ id t} s₁.createdAt := by
  simp only [createdAt_congr hrecorded]
  rcases hwrote.find_cases hs₁ with ⟨rfl, rfl, rfl⟩ | ⟨-, hs₁⟩
  · rw [hterms.createdAt, hterms.sessionId]
    exact h.created _ _ _ hfind
  · exact h.created _ _ _ hs₁

theorem createdAt_recorded {terms : SessionTerms}
    (hrecorded : w'.recorded = w.recorded ++ [(d, .start terms now)]) {d₁ : δ} {id : Bytes}
    {t : ℚ} :
    w'.CreatedAt d₁ id t ↔ w.CreatedAt d₁ id t ∨ (d₁, id) = (d, terms.sessionId) ∧ t = now := by
  constructor
  · rintro ⟨s, hs, rfl, rfl⟩
    rw [hrecorded, List.mem_append, List.mem_singleton] at hs
    rcases hs with hs | hs
    · exact .inl ⟨s, hs, rfl, rfl⟩
    · cases hs
      exact .inr ⟨rfl, rfl⟩
  · rintro (⟨s, hs, rfl, rfl⟩ | ⟨hkey, rfl⟩)
    · exact ⟨s, hrecorded ▸ List.mem_append_left _ hs, rfl, rfl⟩
    · cases hkey
      exact ⟨_, hrecorded ▸ List.mem_append_right _ (List.mem_singleton_self _), rfl, rfl⟩

/-- The session that is written gets a time that no time on record is later than. -/
theorem isGreatest_of_wrote {At At' : δ → Bytes → ℚ → Prop} {stamp : PeerSession → ℚ}
    (hgreatest : ∀ d id s, w.find d id = some s → IsGreatest {t | At d id t} (stamp s))
    (hle : ∀ d id t, At d id t → t ≤ now) (hwrote : w.Wrote w' d s') (hstamp : stamp s' = now)
    (hat : ∀ d₁ id t, At' d₁ id t ↔ At d₁ id t ∨ (d₁, id) = (d, s'.sessionId) ∧ t = now)
    (d₁ : δ) (id : Bytes) (s₁ : PeerSession) (hs₁ : w'.find d₁ id = some s₁) :
    IsGreatest {t | At' d₁ id t} (stamp s₁) := by
  simp only [hat]
  rcases hwrote.find_cases hs₁ with ⟨rfl, rfl, rfl⟩ | ⟨hne, hs₁⟩
  · rw [hstamp]
    refine ⟨.inr ⟨rfl, rfl⟩, ?_⟩
    rintro t (ht | ⟨-, rfl⟩)
    · exact hle _ _ _ ht
    · exact le_rfl
  · simp only [hne, false_and, or_false]
    exact hgreatest _ _ _ hs₁

/-- A session is used now, and no time on record is later. -/
theorem Clocked.used_of_wrote (h : w.Clocked before) (hle : before ≤ now)
    (hwrote : w.Wrote w' d s') (hactivity : s'.lastActivity = now)
    (hused : ∀ d₁ id t, w'.UsedAt d₁ id t ↔
      w.UsedAt d₁ id t ∨ (d₁, id) = (d, s'.sessionId) ∧ t = now)
    (d₁ : δ) (id : Bytes) (s₁ : PeerSession) (hs₁ : w'.find d₁ id = some s₁) :
    IsGreatest {t | w'.UsedAt d₁ id t} s₁.lastActivity :=
  isGreatest_of_wrote h.used (fun d id t ht ↦ (h.le_now d id t ht).trans hle) hwrote hactivity
    hused d₁ id s₁ hs₁

theorem Clocked.le_of_used (h : w.Clocked before) (hle : before ≤ now) {P : δ → Bytes → Prop}
    (hused : ∀ d₁ id t, w'.UsedAt d₁ id t ↔ w.UsedAt d₁ id t ∨ P d₁ id ∧ t = now)
    (d₁ : δ) (id : Bytes) (t : ℚ) (ht : w'.UsedAt d₁ id t) : t ≤ now := by
  rcases (hused d₁ id t).mp ht with ht | ⟨-, rfl⟩
  · exact (h.le_now _ _ _ ht).trans hle
  · exact le_rfl

/-- Nothing is used, and the times in the objects stay as they are. -/
theorem Clocked.unused (h : w.Clocked before) (hle : before ≤ now) (hsame : w.SameRecords w')
    (hfind : ∀ d id s', w'.find d id = some s' → ∃ s, w.find d id = some s ∧
      s'.createdAt = s.createdAt ∧ s'.lastActivity = s.lastActivity) : w'.Clocked now := by
  have hcreated {d : δ} {id : Bytes} {t : ℚ} := @createdAt_congr _ _ w w' hsame.recorded d id t
  have hused {d : δ} {id : Bytes} {t : ℚ} : w'.UsedAt d id t ↔ w.UsedAt d id t := by
    rw [usedAt_iff, usedAt_iff, hcreated, hsame.sent, hsame.opened]
  refine ⟨?_, ?_, fun d id t ht ↦ (h.le_now d id t (hused.mp ht)).trans hle⟩
  · intro d id s' hs'
    obtain ⟨s, hs, htime, -⟩ := hfind d id s' hs'
    simp only [hcreated, htime]
    exact h.created d id s hs
  · intro d id s' hs'
    obtain ⟨s, hs, -, htime⟩ := hfind d id s' hs'
    simp only [hused, htime]
    exact h.used d id s hs

theorem Clocked.effect (h : w.Clocked before) (hle : before ≤ now) {act : Act δ π}
    (hat : act.At now) (heffect : Effect net w act w') : w'.Clocked now := by
  cases heffect with
  | quiet hfind hsame =>
      exact h.unused hle hsame fun d id s' hs' ↦ ⟨s', hfind d id ▸ hs', rfl, rfl⟩
  | changed d s s' hfind hwrote hterms hcounter hwindow hactivity hconfirmed hsame =>
      refine h.unused hle hsame fun d₁ id s₁ hs₁ ↦ ?_
      rcases hwrote.find_cases hs₁ with ⟨rfl, rfl, rfl⟩ | ⟨-, hs₁⟩
      · exact ⟨s, hterms.sessionId ▸ hfind, hterms.createdAt, hactivity⟩
      · exact ⟨s₁, hs₁, rfl, rfl⟩
  | sent d s s' e header hact hfind hwrote hterms hcounter hwindow hactivity hconfirmed hcall
      hdevice hid hcount hframe hsame hsent =>
      subst hact
      have hused (d₁ : δ) (id : Bytes) (t : ℚ) : w'.UsedAt d₁ id t ↔
          w.UsedAt d₁ id t ∨ (d₁, id) = (d, s'.sessionId) ∧ t = now := by
        rw [usedAt_sent hsame hsent, hdevice, hid, hterms.sessionId, Prod.mk.injEq, and_assoc,
          show e.clock.seconds = now from hat, eq_comm, @eq_comm _ id, @eq_comm _ t]
      exact ⟨h.created_of_wrote hfind hwrote hterms hsame.recorded,
        h.used_of_wrote hle hwrote (hactivity.trans hat) hused, h.le_of_used hle hused⟩
  | opened d s packet counter frame clock header encrypted aad framed hact hauthentic hwrote hsame
      hopened =>
      subst hact
      have hterms := SecureChannel.sameTerms_received s counter clock
      have hfind : w.find d s.sessionId = some s := by
        rw [(SessionStore.getBySessionId_eq_some.mp hauthentic.session_eq).2]
        exact Endpoint.find_of_store hauthentic.session_eq
      have hused (d₁ : δ) (id : Bytes) (t : ℚ) : w'.UsedAt d₁ id t ↔ w.UsedAt d₁ id t ∨
          (d₁, id) = (d, (received s counter clock).sessionId) ∧ t = now := by
        rw [usedAt_opened hsame hopened, hterms.sessionId, Prod.mk.injEq, and_assoc,
          show clock.seconds = now from hat, eq_comm, @eq_comm _ id, @eq_comm _ t]
      exact ⟨h.created_of_wrote hfind hwrote hterms hsame.recorded,
        h.used_of_wrote hle hwrote hat hused, h.le_of_used hle hused⟩
  | recorded d terms time hact hwrote hsame hrecorded =>
      subst hact
      obtain rfl : time = now := hat
      have hused (d₁ : δ) (id : Bytes) (t : ℚ) : w'.UsedAt d₁ id t ↔
          w.UsedAt d₁ id t ∨ (d₁, id) = (d, terms.sessionId) ∧ t = time := by
        rw [usedAt_iff, usedAt_iff, createdAt_recorded hrecorded,
          show w'.sent = w.sent from hsame.sent, show w'.opened = w.opened from hsame.opened]
        simp only [or_assoc, or_comm]
      refine ⟨?_, h.used_of_wrote hle hwrote rfl hused, h.le_of_used hle hused⟩
      exact isGreatest_of_wrote h.created
        (fun d id t ht ↦ (h.le_now d id t (.recorded ht)).trans hle) hwrote rfl
        fun _ _ _ ↦ createdAt_recorded hrecorded

theorem clocked_start (policy : SessionPolicy) (now : ℚ) :
    (start policy : World δ π).Clocked now := by
  refine ⟨?_, ?_, ?_⟩
  · intro d id s hs
    cases hs
  · intro d id s hs
    cases hs
  · intro d id t ht
    rw [usedAt_iff, CreatedAt] at ht
    simp [start] at ht

end World

theorem Network.TimedRun.clocked [DecidableEq δ] {net : Network δ π} {w : World δ π} {now : ℚ}
    (hrun : net.TimedRun w now) : w.Clocked now := by
  induction hrun with
  | start now => exact World.clocked_start _ now
  | step act _ hle hact ih => exact ih.effect hle hact (net.effect_step _ act)

/-! ## The policy -/

theorem Network.policy_step [DecidableEq δ] (net : Network δ π) (w : World δ π) (act : Act δ π)
    (d : δ) : ((net.step w act).endpoints d).store.policy = (w.endpoints d).store.policy := by
  have hset (d' : δ) (e : Endpoint) (h : e.store.policy = (w.endpoints d').store.policy) :
      ((w.setEndpoint d' e).endpoints d).store.policy = (w.endpoints d).store.policy := by
    by_cases hd : d = d'
    · subst hd
      rw [World.endpoints_setEndpoint_self, h]
    · rw [World.endpoints_setEndpoint_of_ne w e hd]
  have hrecord (e : Endpoint) (room : SessionStore) (s : PeerSession) :
      (e.moveTo (room.record s)).store.policy = room.policy := rfl
  cases act with
  | «seal» d' sessionId packetType payload clock =>
      simp only [step]
      cases w.find d' sessionId with
      | none => rfl
      | some s =>
          refine hset d' _ ?_
          rw [Endpoint.write]
          cases (w.endpoints d').store.getBySessionId _ <;> rfl
  | deliver d' frame clock =>
      simp only [step]
      cases hopen : (net.channel d').open frame clock (w.endpoints d').store with
      | error e store => exact hset d' _ (by rw [open_error hopen])
      | ok result store =>
          obtain ⟨s, counter, -, -, rfl⟩ := open_eq_ok.mp hopen
          exact hset d' _ rfl
  | put d' terms now =>
      simp only [step]
      cases hput : SessionStore.put (.start terms now) now (w.endpoints d').store with
      | error e store => exact hset d' _ (SessionStore.shrinks_put_error hput).2
      | ok _ store =>
          obtain ⟨-, -, -, rfl⟩ := SessionStore.put_eq_ok.mp hput
          refine hset d' _ ?_
          rw [hrecord, SessionStore.shrinks_makeRoom.2]
  | confirm d' sessionId =>
      refine hset d' _ ?_
      rw [SessionStore.confirm]
      cases (w.endpoints d').store.getBySessionId sessionId <;> rfl
  | forget d' sessionIds => exact hset d' _ (SessionStore.policy_foldl_remove _)

theorem Network.TimedRun.policy [DecidableEq δ] {net : Network δ π} {w : World δ π} {now : ℚ}
    (hrun : net.TimedRun w now) (d : δ) : (w.endpoints d).store.policy = net.policy := by
  induction hrun with
  | start now => rfl
  | step act _ _ _ ih => rw [net.policy_step, ih]

theorem pairStart_timed : pairNetwork.TimedRun pairStart 0 :=
  .step _ (.step _ (.start 0) le_rfl rfl) le_rfl rfl

end SecureSync
