import SecureSync.Infrastructure.HandshakeRateLimit
import Mathlib.Data.List.Induction
import Mathlib.Tactic.NormNum

/-!
# The limit on one source

`SourceIpRateLimiter` against a log that forgets nothing, over every sequence of attempts
and prunings.
-/

namespace SecureSync

open Fading KeyedTable

inductive LimiterCall (T : Type) where
  | allow (source : String) (now : T)
  | prune (now : T)
  deriving DecidableEq, Repr

def LimiterCall.time {T : Type} : LimiterCall T → T
  | .allow _ now => now
  | .prune now => now

namespace SourceIpRateLimiter

variable {T : Type} [LinearOrder T] [Zero T] [Sub T] (limiter : SourceIpRateLimiter T)

/-- An attempt counts as long as it is later than the cutoff. -/
def memory : Memory T where
  Remembers now t := now - limiter.windowS < t
  decidable _ _ := inferInstance
  fade h hlater := (limiter.sub_mono h).trans_lt hlater
  newer h hnow := hnow.trans_le h

/-! ## Runs -/

/-- The dictionary, and the attempts that were allowed. -/
structure LimiterRun (T : Type) where
  attempts : Attempts T
  allowed : List (String × T)

def LimiterRun.allowedOf (run : LimiterRun T) (source : String) : List T :=
  (run.allowed.filter fun attempt ↦ attempt.1 = source).map Prod.snd

def step (run : LimiterRun T) : LimiterCall T → LimiterRun T
  | .allow source now =>
      let (allowed, attempts) := limiter.allow source now run.attempts
      ⟨attempts, if allowed then run.allowed ++ [(source, now)] else run.allowed⟩
  | .prune now => ⟨(limiter.prune now run.attempts).2, run.allowed⟩

def run (calls : List (LimiterCall T)) : LimiterRun T := calls.foldl limiter.step ⟨.empty, []⟩

/-- What an attempt after these calls is answered. -/
def answer (calls : List (LimiterCall T)) (source : String) (now : T) : Bool :=
  (limiter.allow source now (limiter.run calls).attempts).1

/-- The clock does not go back. -/
def Ordered (calls : List (LimiterCall T)) : Prop :=
  (calls.map LimiterCall.time).Pairwise (· ≤ ·)

/-! ## A log that forgets nothing -/

/-- What a call adds to the log of one source. -/
def logStep (source : String) (log : List T) : LimiterCall T → List T
  | .allow source' now =>
      if source' = source ∧ (limiter.memory.recent id now log).length < limiter.maxAttempts then
        log ++ [now]
      else log
  | .prune _ => log

def log (source : String) (calls : List (LimiterCall T)) : List T :=
  calls.foldl (limiter.logStep source) []

theorem log_concat (source : String) (calls : List (LimiterCall T)) (call : LimiterCall T) :
    limiter.log source (calls ++ [call]) = limiter.logStep source (limiter.log source calls) call :=
  List.foldl_concat ..

variable {limiter} {source : String} {now : T} {calls : List (LimiterCall T)}

theorem log_prune : limiter.log source (calls ++ [.prune now]) = limiter.log source calls :=
  limiter.log_concat source calls (.prune now)

theorem mem_log {t : T} (h : t ∈ limiter.log source calls) :
    ∃ call ∈ calls, call.time = t := by
  induction calls using List.reverseRecOn with
  | nil => simp [log] at h
  | append_singleton calls call ih =>
      rw [log_concat] at h
      have hold : t ∈ limiter.log source calls → ∃ call' ∈ calls ++ [call], call'.time = t := by
        intro hmem
        obtain ⟨call', hcall', htime⟩ := ih hmem
        exact ⟨call', List.mem_append_left _ hcall', htime⟩
      cases call with
      | prune => exact hold h
      | allow source' now =>
          rw [logStep] at h
          split_ifs at h
          · rcases List.mem_append.mp h with h | h
            · exact hold h
            · exact ⟨.allow source' now, by simp, (List.mem_singleton.mp h).symm⟩
          · exact hold h

/-- The log of a source has at most so many instants in any window. -/
theorem bounded_log (limiter : SourceIpRateLimiter T) (source : String)
    (calls : List (LimiterCall T)) :
    limiter.memory.Bounded limiter.maxAttempts (limiter.log source calls) := by
  induction calls using List.reverseRecOn with
  | nil => exact Memory.Bounded.nil _
  | append_singleton calls call ih =>
      rw [log_concat]
      cases call with
      | prune => exact ih
      | allow source' now =>
          rw [logStep]
          split_ifs with h
          · exact ih.concat h.2
          · exact ih

/-! ## What the dictionary holds -/

omit [LinearOrder T] [Zero T] [Sub T] in
theorem timesOf_set (attempts : Attempts T) (source other : String) (times : List T) :
    timesOf (attempts.set (source, times)) other =
      if other = source then times else timesOf attempts other := by
  unfold timesOf
  split_ifs with h
  · have hself := Table.find?_set_self (t := attempts) (a := (source, times))
    rw [h, hself]
    rfl
  · rw [Table.find?_set_of_ne h]

theorem timesOf_filter (attempts : Attempts T) (keep : String × List T → Bool) (source : String)
    (hkeep : ∀ times, attempts.find? source = some (source, times) → keep (source, times) = false →
      limiter.memory.recent id now times = []) :
    limiter.memory.recent id now (timesOf (attempts.filter keep) source) =
      limiter.memory.recent id now (timesOf attempts source) := by
  unfold timesOf
  rw [Table.find?_filter]
  cases hfind : attempts.find? source with
  | none => rfl
  | some entry =>
      obtain ⟨other, times⟩ := entry
      obtain rfl : other = source := Table.find?_key hfind
      rw [Option.filter_some]
      split_ifs with hkept
      · rfl
      · exact (hkeep times hfind (by simpa using hkept)).symm

theorem allow_eq (attempts : Attempts T) :
    limiter.allow source now attempts =
      if limiter.maxAttempts ≤ (limiter.memory.recent id now (timesOf attempts source)).length then
        (false, attempts.set (source, limiter.memory.recent id now (timesOf attempts source)))
      else (true, attempts.set
        (source, limiter.memory.recent id now (timesOf attempts source) ++ [now])) := rfl

theorem allow_fst (attempts : Attempts T) :
    (limiter.allow source now attempts).1 =
      decide ((limiter.memory.recent id now (timesOf attempts source)).length <
        limiter.maxAttempts) := by
  rw [allow_eq]
  split_ifs with h
  · exact (decide_eq_false (not_lt.mpr h)).symm
  · exact (decide_eq_true (not_le.mp h)).symm

theorem timesOf_allow (attempts : Attempts T) (other : String) :
    timesOf (limiter.allow source now attempts).2 other =
      if other = source then
        limiter.memory.recent id now (timesOf attempts source) ++
          if (limiter.allow source now attempts).1 then [now] else []
      else timesOf attempts other := by
  rw [allow_eq]
  by_cases h : limiter.maxAttempts ≤
      (limiter.memory.recent id now (timesOf attempts source)).length
  · rw [if_pos h, timesOf_set]
    simp
  · rw [if_neg h, timesOf_set]
    simp

/-- Only entries with nothing left in the window are dropped. -/
theorem recent_timesOf_prune (attempts : Attempts T) (other : String) :
    limiter.memory.recent id now (timesOf (limiter.prune now attempts).2 other) =
      limiter.memory.recent id now (timesOf attempts other) := by
  apply timesOf_filter
  intro times _ hstale
  have hold : ∀ t ∈ times, t ≤ now - limiter.windowS := by simpa using hstale
  rw [Memory.recent, List.filter_eq_nil_iff]
  intro t ht hnew
  exact absurd (of_decide_eq_true hnew) (not_lt.mpr (hold t ht))

theorem allowedOf_step (run : LimiterRun T) (asked : String) :
    (limiter.step run (.allow asked now)).allowedOf source =
      run.allowedOf source ++
        if asked = source ∧ (limiter.allow asked now run.attempts).1 then [now] else [] := by
  unfold step LimiterRun.allowedOf
  dsimp only
  by_cases hsource : asked = source
  · subst hsource
    by_cases hallowed : (limiter.allow asked now run.attempts).1 = true <;> simp [hallowed]
  · by_cases hallowed : (limiter.allow asked now run.attempts).1 = true <;>
      simp [hallowed, hsource]

omit [Zero T] [Sub T] in
theorem ordered_concat {call : LimiterCall T} :
    Ordered (calls ++ [call]) ↔ Ordered calls ∧ ∀ earlier ∈ calls, earlier.time ≤ call.time := by
  simp [Ordered, List.pairwise_append]

variable (limiter calls) in
/-- The attempts that were allowed are those in the logs, and until they are forgotten the
dictionary has them. -/
structure Agrees (run : LimiterRun T) : Prop where
  allowedOf_eq : ∀ source, run.allowedOf source = limiter.log source calls
  recent_eq : ∀ source later, (∀ call ∈ calls, call.time ≤ later) →
    limiter.memory.recent id later (timesOf run.attempts source) =
      limiter.memory.recent id later (limiter.log source calls)

variable {run : LimiterRun T}

theorem Agrees.prune (h : limiter.Agrees calls run) :
    limiter.Agrees (calls ++ [.prune now]) (limiter.step run (.prune now)) where
  allowedOf_eq source := (h.allowedOf_eq source).trans log_prune.symm
  recent_eq source later hlater := by
    have hnow : now ≤ later := hlater (.prune now) (by simp)
    rw [log_concat, ← limiter.memory.recent_recent hnow]
    change limiter.memory.recent id later (limiter.memory.recent id now
      (timesOf (limiter.prune now run.attempts).2 source)) = _
    rw [recent_timesOf_prune, limiter.memory.recent_recent hnow]
    exact h.recent_eq source later fun call hmem ↦ hlater call (List.mem_append_left _ hmem)

/-- An attempt is answered from the log of its source. -/
theorem Agrees.allow_fst (h : limiter.Agrees calls run) (hnow : ∀ call ∈ calls, call.time ≤ now) :
    (limiter.allow source now run.attempts).1 =
      decide ((limiter.memory.recent id now (limiter.log source calls)).length <
        limiter.maxAttempts) := by
  rw [SourceIpRateLimiter.allow_fst, h.recent_eq source now hnow]

theorem Agrees.allow (h : limiter.Agrees calls run) (hcalls : ∀ call ∈ calls, call.time ≤ now)
    (asked : String) :
    limiter.Agrees (calls ++ [.allow asked now]) (limiter.step run (.allow asked now)) where
  allowedOf_eq source := by
    rw [allowedOf_step, h.allow_fst hcalls, log_concat, logStep, h.allowedOf_eq source]
    simp only [decide_eq_true_iff]
    by_cases hsource : asked = source
    · subst hsource
      split_ifs
      · rfl
      · exact List.append_nil _
    · simp [hsource]
  recent_eq source later hlater := by
    have hnow : now ≤ later := hlater (.allow asked now) (by simp)
    have hold := h.recent_eq source later fun call hmem ↦
      hlater call (List.mem_append_left _ hmem)
    rw [log_concat, logStep]
    unfold step
    dsimp only
    rw [timesOf_allow, h.allow_fst hcalls]
    by_cases hsource : source = asked
    · subst hsource
      rw [if_pos rfl, Memory.recent_append, limiter.memory.recent_recent hnow, hold]
      by_cases hfew : (limiter.memory.recent id now (limiter.log source calls)).length <
        limiter.maxAttempts
      · simp [hfew, Memory.recent_append]
      · simp [hfew]
    · rw [if_neg hsource, if_neg fun hlog ↦ hsource hlog.1.symm]
      exact hold

theorem agrees_run (h : Ordered calls) : limiter.Agrees calls (limiter.run calls) := by
  induction calls using List.reverseRecOn with
  | nil => exact ⟨fun _ ↦ rfl, fun _ _ _ ↦ rfl⟩
  | append_singleton calls call ih =>
      obtain ⟨hcalls, hcall⟩ := ordered_concat.mp h
      have hrun : limiter.run (calls ++ [call]) = limiter.step (limiter.run calls) call :=
        List.foldl_concat ..
      rw [hrun]
      cases call with
      | prune now => exact (ih hcalls).prune
      | allow asked now => exact (ih hcalls).allow hcall asked

theorem answer_eq (h : Ordered (calls ++ [.allow source now])) :
    limiter.answer calls source now =
      decide ((limiter.memory.recent id now (limiter.log source calls)).length <
        limiter.maxAttempts) := by
  obtain ⟨hcalls, hnow⟩ := ordered_concat.mp h
  exact (agrees_run hcalls).allow_fst hnow

/-- Prunings, attempts of other sources, and attempts that are denied. -/
def Spares (limiter : SourceIpRateLimiter T) (earlier : List (LimiterCall T)) (source : String) :
    LimiterCall T → Prop
  | .prune _ => True
  | .allow asked now => asked ≠ source ∨ limiter.answer earlier asked now = false

theorem Spares.logStep_eq {call : LimiterCall T} (h : limiter.Spares calls source call)
    (hcalls : Ordered (calls ++ [call])) :
    limiter.logStep source (limiter.log source calls) call = limiter.log source calls := by
  cases call with
  | prune => rfl
  | allow asked now =>
      rw [logStep, if_neg]
      rintro ⟨rfl, hfew⟩
      rcases h with hne | hdenied
      · exact hne rfl
      · rw [answer_eq hcalls] at hdenied
        exact of_decide_eq_false hdenied hfew

omit [Zero T] [Sub T] in
theorem Ordered.sublist {fewer : List (LimiterCall T)} (h : Ordered calls)
    (hsub : fewer.Sublist calls) : Ordered fewer :=
  List.Pairwise.sublist (hsub.map _) h

/-- No window of a source has more than the allowed attempts; an attempt is denied if and
only if the window that ends with it is full; and whatever spares a source changes none of
its later answers. -/
theorem window_exact (limiter : SourceIpRateLimiter T) :
    (∀ calls, Ordered calls → ∀ source t,
      (limiter.memory.within t ((limiter.run calls).allowedOf source)).length ≤
        limiter.maxAttempts) ∧
    (∀ calls source now, Ordered (calls ++ [.allow source now]) →
      (limiter.answer calls source now = false ↔
        (limiter.memory.within now ((limiter.run calls).allowedOf source)).length =
          limiter.maxAttempts)) ∧
    ∀ front call back source now, Ordered (front ++ call :: (back ++ [.allow source now])) →
      limiter.Spares front source call →
      limiter.answer (front ++ call :: back) source now =
        limiter.answer (front ++ back) source now := by
  refine ⟨fun calls h source t ↦ ?_, fun calls source now h ↦ ?_,
    fun front call back source now h hspares ↦ ?_⟩
  · rw [(agrees_run h).allowedOf_eq source]
    exact limiter.bounded_log source calls t
  · obtain ⟨hcalls, hnow⟩ := ordered_concat.mp h
    have hlog : ∀ t ∈ limiter.log source calls, t ≤ now := by
      intro t ht
      obtain ⟨call, hcall, rfl⟩ := mem_log ht
      exact hnow call hcall
    have hbound := limiter.bounded_log source calls now
    rw [answer_eq h, (agrees_run hcalls).allowedOf_eq source, limiter.memory.within_eq_recent hlog,
      decide_eq_false_iff_not]
    rw [limiter.memory.within_eq_recent hlog] at hbound
    omega
  · have hwith : Ordered ((front ++ call :: back) ++ [.allow source now]) := by simpa using h
    have hwithout : Ordered ((front ++ back) ++ [.allow source now]) :=
      hwith.sublist (by simp)
    have hfront : Ordered (front ++ [call]) := hwith.sublist (by simp)
    have hlog : limiter.log source (front ++ call :: back) =
        limiter.log source (front ++ back) := by
      rw [log, List.foldl_append, List.foldl_cons, ← log, hspares.logStep_eq hfront, log, log,
        List.foldl_append]
    rw [answer_eq hwith, answer_eq hwithout, hlog]

/-- One attempt in ten seconds. -/
def oneInTen : SourceIpRateLimiter ℚ where
  maxAttempts := 1
  windowS := 10
  max_pos := Nat.one_pos
  window_pos := by norm_num
  sub_mono h := sub_le_sub_right h 10

/-- At the edge of the window, an attempt that was denied at first is allowed. -/
theorem window_exact_edge :
    oneInTen.answer [.allow "a" 0, .allow "b" 5] "a" 9 = false ∧
    (oneInTen.answer [.allow "a" 0, .allow "a" 9] "a" 10 =
      oneInTen.answer [.allow "a" 0] "a" 10) := by
  have hwindow := oneInTen.window_exact
  refine ⟨(hwindow.2.1 _ _ _ ?_).mpr ?_, hwindow.2.2 [.allow "a" 0] (.allow "a" 9) [] "a" 10 ?_ ?_⟩
  · norm_num [Ordered, LimiterCall.time]
  · decide +kernel
  · norm_num [Ordered, LimiterCall.time]
  · right
    decide +kernel

end SourceIpRateLimiter
end SecureSync
