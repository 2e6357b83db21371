import SecureSync.Infrastructure.HandshakeRateLimit
import SecureSync.Library.TokenBucket
import Mathlib.Data.List.Induction
import Mathlib.Order.Interval.Set.Defs
import Mathlib.Tactic.NormNum

/-!
# The limit on all handshakes

`GlobalHandshakeLimiter` against a bucket that fills continuously, over every sequence of
attempts and readings.
-/

namespace SecureSync

open TokenBucket

inductive BucketCall where
  | allow (now : ℚ)
  | tokens (now : ℚ)
  deriving DecidableEq, Repr

namespace BucketCall

def time : BucketCall → ℚ
  | allow now => now
  | tokens now => now

def isAllow : BucketCall → Bool
  | allow _ => true
  | tokens _ => false

end BucketCall

/-- The state of the bucket, and what the attempts were answered. -/
structure BucketRun where
  state : TokenState
  answers : List (ℚ × Bool)

def admittedIn (answers : List (ℚ × Bool)) : List ℚ := (answers.filter Prod.snd).map Prod.fst

def BucketRun.admitted (run : BucketRun) : List ℚ := admittedIn run.answers

namespace GlobalHandshakeLimiter

variable (limiter : GlobalHandshakeLimiter)

def step (run : BucketRun) : BucketCall → BucketRun
  | .allow now =>
      let (admitted, state) := limiter.allow now run.state
      ⟨state, run.answers ++ [(now, admitted)]⟩
  | .tokens now => ⟨(limiter.readTokens now run.state).2, run.answers⟩

def run (start : ℚ) (calls : List BucketCall) : BucketRun :=
  calls.foldl limiter.step ⟨limiter.start start, []⟩

/-- The clock does not go back. -/
def Ordered (start : ℚ) (calls : List BucketCall) : Prop :=
  (start :: calls.map BucketCall.time).Pairwise (· ≤ ·)

/-! ## The ideal bucket -/

def bucket : Bucket ℚ := ⟨limiter.ratePerS, limiter.burst, limiter.rate_pos.le⟩

/-- What the ideal bucket answers. -/
def idealStep (answers : List (ℚ × Bool)) : BucketCall → List (ℚ × Bool)
  | .allow now => answers ++ [(now, decide (1 ≤ limiter.bucket.level (admittedIn answers) now))]
  | .tokens _ => answers

def ideal (calls : List BucketCall) : List (ℚ × Bool) := calls.foldl limiter.idealStep []

theorem ideal_filter (calls : List BucketCall) :
    limiter.ideal (calls.filter BucketCall.isAllow) = limiter.ideal calls := by
  have hfold : ∀ answers, (calls.filter BucketCall.isAllow).foldl limiter.idealStep answers =
      calls.foldl limiter.idealStep answers := by
    induction calls with
    | nil => exact fun _ ↦ rfl
    | cons call calls ih =>
        intro answers
        cases call with
        | allow now => exact ih _
        | tokens now => exact ih _
  exact hfold []

theorem admittedIn_concat (answers : List (ℚ × Bool)) (now : ℚ) (admitted : Bool) :
    admittedIn (answers ++ [(now, admitted)]) =
      admittedIn answers ++ if admitted then [now] else [] := by
  cases admitted <;> simp [admittedIn]

/-! ## Runs -/

/-- The state says what the ideal bucket holds. -/
structure Tracks (run : BucketRun) : Prop where
  admitted_le : ∀ a ∈ run.admitted, a ≤ run.state.last
  tokens_eq : run.state.tokens = limiter.bucket.level run.admitted run.state.last
  tokens_nonneg : 0 ≤ run.state.tokens

variable {limiter} {run : BucketRun} {start now : ℚ} {calls : List BucketCall}

theorem Tracks.refill (h : limiter.Tracks run) (hnow : run.state.last ≤ now) :
    limiter.refill now run.state = ⟨limiter.bucket.level run.admitted now, now⟩ := by
  rw [Bucket.level_later hnow h.admitted_le, ← h.tokens_eq]
  unfold GlobalHandshakeLimiter.refill
  rw [max_eq_right (sub_nonneg.mpr hnow), mul_comm]
  rfl

theorem Tracks.level_nonneg (h : limiter.Tracks run) (hnow : run.state.last ≤ now) :
    0 ≤ limiter.bucket.level run.admitted now := by
  have hfill : 0 ≤ limiter.ratePerS * (now - run.state.last) :=
    mul_nonneg limiter.rate_pos.le (sub_nonneg.mpr hnow)
  rw [Bucket.level_later hnow h.admitted_le, ← h.tokens_eq]
  exact le_min limiter.burst_pos.le (add_nonneg h.tokens_nonneg hfill)

theorem Tracks.allow_eq (h : limiter.Tracks run) (hnow : run.state.last ≤ now) :
    limiter.allow now run.state =
      if limiter.bucket.level run.admitted now < 1 then
        (false, ⟨limiter.bucket.level run.admitted now, now⟩)
      else (true, ⟨limiter.bucket.level run.admitted now - 1, now⟩) := by
  unfold allow
  rw [h.refill hnow]

theorem Tracks.allow_fst (h : limiter.Tracks run) (hnow : run.state.last ≤ now) :
    (limiter.allow now run.state).1 = decide (1 ≤ limiter.bucket.level run.admitted now) := by
  rw [h.allow_eq hnow]
  split_ifs with hlevel
  · exact (decide_eq_false (not_le.mpr hlevel)).symm
  · exact (decide_eq_true (not_lt.mp hlevel)).symm

theorem Tracks.readTokens (h : limiter.Tracks run) (hnow : run.state.last ≤ now) :
    limiter.Tracks (limiter.step run (.tokens now)) := by
  have hstep : limiter.step run (.tokens now) =
      ⟨⟨limiter.bucket.level run.admitted now, now⟩, run.answers⟩ := by
    change (⟨limiter.refill now run.state, run.answers⟩ : BucketRun) = _
    rw [h.refill hnow]
  rw [hstep]
  exact ⟨fun a ha ↦ (h.admitted_le a ha).trans hnow, rfl, h.level_nonneg hnow⟩

theorem Tracks.allow (h : limiter.Tracks run) (hnow : run.state.last ≤ now) :
    limiter.Tracks (limiter.step run (.allow now)) := by
  change limiter.Tracks ⟨(limiter.allow now run.state).2,
    run.answers ++ [(now, (limiter.allow now run.state).1)]⟩
  rw [h.allow_eq hnow]
  split_ifs with hless
  · have hadmitted : admittedIn (run.answers ++ [(now, false)]) = run.admitted := by
      rw [admittedIn_concat, if_neg (by simp), List.append_nil]
      rfl
    refine ⟨?_, ?_, h.level_nonneg hnow⟩
    · intro a ha
      rw [BucketRun.admitted, hadmitted] at ha
      exact (h.admitted_le a ha).trans hnow
    · change _ = limiter.bucket.level (admittedIn (run.answers ++ [(now, false)])) now
      rw [hadmitted]
  · have hadmitted : admittedIn (run.answers ++ [(now, true)]) = run.admitted ++ [now] := by
      rw [admittedIn_concat, if_pos rfl]
      rfl
    refine ⟨?_, ?_, sub_nonneg.mpr (not_lt.mp hless)⟩
    · intro a ha
      rw [BucketRun.admitted, hadmitted] at ha
      rcases List.mem_append.mp ha with ha | ha
      · exact (h.admitted_le a ha).trans hnow
      · exact (List.mem_singleton.mp ha).le
    · change _ = limiter.bucket.level (admittedIn (run.answers ++ [(now, true)])) now
      rw [hadmitted, Bucket.level_concat]

theorem Tracks.step {call : BucketCall} (h : limiter.Tracks run)
    (hcall : run.state.last ≤ call.time) : limiter.Tracks (limiter.step run call) := by
  cases call with
  | tokens now => exact h.readTokens hcall
  | allow now => exact h.allow hcall

theorem last_step (limiter : GlobalHandshakeLimiter) (run : BucketRun) (call : BucketCall) :
    (limiter.step run call).state.last = call.time := by
  cases call with
  | tokens now => rfl
  | allow now =>
      change (limiter.allow now run.state).2.last = now
      unfold GlobalHandshakeLimiter.allow
      dsimp only
      split_ifs <;> rfl

theorem Tracks.answers_step {call : BucketCall} (h : limiter.Tracks run)
    (hcall : run.state.last ≤ call.time) :
    (limiter.step run call).answers = limiter.idealStep run.answers call := by
  cases call with
  | tokens now => rfl
  | allow now =>
      have hnow : run.state.last ≤ now := hcall
      change run.answers ++ [(now, (limiter.allow now run.state).1)] = _
      rw [h.allow_fst hnow]
      rfl

theorem run_concat (limiter : GlobalHandshakeLimiter) (start : ℚ) (calls : List BucketCall)
    (call : BucketCall) :
    limiter.run start (calls ++ [call]) = limiter.step (limiter.run start calls) call :=
  List.foldl_concat ..

theorem ordered_concat {call : BucketCall} :
    Ordered start (calls ++ [call]) ↔
      Ordered start calls ∧ ∀ t ∈ start :: calls.map BucketCall.time, t ≤ call.time := by
  unfold Ordered
  rw [List.map_append, ← List.cons_append, List.pairwise_append]
  simp

/-- The last call set the time of the last refill. -/
theorem last_mem (limiter : GlobalHandshakeLimiter) (start : ℚ) (calls : List BucketCall) :
    (limiter.run start calls).state.last ∈ start :: calls.map BucketCall.time := by
  induction calls using List.reverseRecOn with
  | nil => exact List.mem_cons_self
  | append_singleton calls call _ =>
      rw [run_concat, last_step]
      simp

theorem tracks_run (h : Ordered start calls) : limiter.Tracks (limiter.run start calls) := by
  induction calls using List.reverseRecOn with
  | nil => exact ⟨by simp [run, BucketRun.admitted, admittedIn], rfl, limiter.burst_pos.le⟩
  | append_singleton calls call ih =>
      obtain ⟨hcalls, hcall⟩ := ordered_concat.mp h
      rw [run_concat]
      exact (ih hcalls).step (hcall _ (limiter.last_mem start calls))

/-- The attempts are answered as by the ideal bucket. -/
theorem answers_run (h : Ordered start calls) :
    (limiter.run start calls).answers = limiter.ideal calls := by
  induction calls using List.reverseRecOn with
  | nil => rfl
  | append_singleton calls call ih =>
      obtain ⟨hcalls, hcall⟩ := ordered_concat.mp h
      have hlast := hcall _ (limiter.last_mem start calls)
      rw [run_concat, (tracks_run hcalls).answers_step hlast, ih hcalls, ideal, ideal,
        List.foldl_concat]

theorem admitted_step (limiter : GlobalHandshakeLimiter) (run : BucketRun) (call : BucketCall) :
    (limiter.step run call).admitted = run.admitted ∨
      (limiter.step run call).admitted = run.admitted ++ [call.time] := by
  cases call with
  | tokens now => exact .inl rfl
  | allow now =>
      change admittedIn (run.answers ++ [(now, (limiter.allow now run.state).1)]) = _ ∨
        admittedIn (run.answers ++ [(now, (limiter.allow now run.state).1)]) = _
      rw [admittedIn_concat]
      cases (limiter.allow now run.state).1 with
      | false => exact .inl (List.append_nil _)
      | true => exact .inr rfl

/-- What is still in the bucket is not less than nothing. -/
theorem Tracks.length_admitted_le (h : limiter.Tracks run) {s t : ℚ} (hs : s ≤ run.state.last)
    (ht : run.state.last ≤ t) :
    ((run.admitted.filter fun a ↦ s ≤ a ∧ a ≤ t).length : ℚ) ≤
      limiter.burst + limiter.ratePerS * (t - s) := by
  have hcount : ((run.admitted.filter fun a ↦ s ≤ a).length : ℚ) +
      limiter.bucket.level run.admitted run.state.last ≤
        limiter.burst + limiter.ratePerS * (run.state.last - s) :=
    Bucket.count_add_level_le hs
  have hlevel : 0 ≤ limiter.bucket.level run.admitted run.state.last :=
    h.tokens_eq ▸ h.tokens_nonneg
  have hfewer : ((run.admitted.filter fun a ↦ s ≤ a ∧ a ≤ t).length : ℚ) ≤
      (run.admitted.filter fun a ↦ s ≤ a).length := by
    apply Nat.cast_le.mpr
    apply List.Sublist.length_le
    apply List.monotone_filter_right
    intro a ha
    rw [decide_eq_true_iff] at ha ⊢
    exact ha.1
  have hstretch : limiter.ratePerS * (run.state.last - s) ≤ limiter.ratePerS * (t - s) :=
    mul_le_mul_of_nonneg_left (sub_le_sub_right ht s) limiter.rate_pos.le
  linarith

/-- No more is admitted than the capacity and what comes in. -/
theorem length_admitted_le (h : Ordered start calls) {s t : ℚ} (hst : s ≤ t) :
    (((limiter.run start calls).admitted.filter fun a ↦ s ≤ a ∧ a ≤ t).length : ℚ) ≤
      limiter.burst + limiter.ratePerS * (t - s) := by
  induction calls using List.reverseRecOn with
  | nil =>
      have hfill := mul_nonneg limiter.rate_pos.le (sub_nonneg.mpr hst)
      exact add_nonneg limiter.burst_pos.le hfill
  | append_singleton calls call ih =>
      obtain ⟨hcalls, hcall⟩ := ordered_concat.mp h
      have hlast := hcall _ (limiter.last_mem start calls)
      have hlater : limiter.Tracks (limiter.run start (calls ++ [call])) := tracks_run h
      have hold := ih hcalls
      rw [run_concat] at hlater ⊢
      rcases limiter.admitted_step (limiter.run start calls) call with hsame | hadded
      · rwa [hsame]
      · by_cases hin : s ≤ call.time ∧ call.time ≤ t
        · rw [← last_step limiter (limiter.run start calls) call] at hin
          exact hlater.length_admitted_le hin.1 hin.2
        · rw [hadded, List.filter_append, List.filter_cons_of_neg (by simpa using hin),
            List.filter_nil, List.append_nil]
          exact hold

/-- Between any two times at most the capacity and what comes in is admitted; the tokens stay
between none and the capacity; a handshake is refused if and only if the ideal bucket does
not hold a whole token; and reading the tokens changes no answer. -/
theorem bucket_exact (limiter : GlobalHandshakeLimiter) (start : ℚ) (calls : List BucketCall)
    (h : Ordered start calls) :
    (∀ s t, s ≤ t → (((limiter.run start calls).admitted.filter fun a ↦ s ≤ a ∧ a ≤ t).length : ℚ) ≤
      limiter.burst + limiter.ratePerS * (t - s)) ∧
    (limiter.run start calls).state.tokens ∈ Set.Icc 0 limiter.burst ∧
    (∀ now, (limiter.readTokens now (limiter.run start calls).state).1 ∈
      Set.Icc 0 limiter.burst) ∧
    (∀ now, Ordered start (calls ++ [.allow now]) →
      ((limiter.allow now (limiter.run start calls).state).1 = false ↔
        limiter.bucket.level (limiter.run start calls).admitted now < 1)) ∧
    (limiter.run start (calls.filter BucketCall.isAllow)).answers =
      (limiter.run start calls).answers := by
  have htracks : limiter.Tracks (limiter.run start calls) := tracks_run h
  have hle : (limiter.run start calls).state.tokens ≤ limiter.burst := by
    rw [htracks.tokens_eq]
    exact Bucket.level_le_burst _ _
  refine ⟨fun s t hst ↦ length_admitted_le h hst, ⟨htracks.tokens_nonneg, hle⟩, fun now ↦ ?_,
    fun now hnow ↦ ?_, ?_⟩
  · refine ⟨le_min limiter.burst_pos.le ?_, min_le_left _ _⟩
    exact add_nonneg htracks.tokens_nonneg
      (mul_nonneg (le_max_left _ _) limiter.rate_pos.le)
  · have hlast : (limiter.run start calls).state.last ≤ now :=
      (ordered_concat.mp hnow).2 _ (limiter.last_mem start calls)
    rw [htracks.allow_fst hlast, decide_eq_false_iff_not, not_le]
  · have hfewer : Ordered start (calls.filter BucketCall.isAllow) :=
      List.Pairwise.sublist ((List.filter_sublist.map _).cons_cons start) h
    rw [answers_run hfewer, answers_run h, ideal_filter]

/-- Two at once, and one each second. -/
def onePerSecond : GlobalHandshakeLimiter := ⟨1, 2, one_pos, two_pos⟩

theorem bucket_exact_burst :
    (onePerSecond.run 0 [.allow 0, .tokens (1 / 2), .allow (1 / 2), .allow 1, .allow 1]).answers =
      [(0, true), (1 / 2, true), (1, true), (1, false)] ∧
    (((onePerSecond.run 0
      [.allow 0, .tokens (1 / 2), .allow (1 / 2), .allow 1, .allow 1]).admitted.filter
        fun a ↦ 0 ≤ a ∧ a ≤ 1).length : ℚ) ≤ 2 + 1 * (1 - 0) := by
  refine ⟨by decide +kernel, ?_⟩
  have hordered : Ordered 0 [.allow 0, .tokens (1 / 2), .allow (1 / 2), .allow 1, .allow 1] := by
    norm_num [Ordered, BucketCall.time]
  exact (onePerSecond.bucket_exact 0 _ hordered).1 0 1 zero_le_one

end GlobalHandshakeLimiter
end SecureSync
