import SecureSync.Library.Fading
import SecureSync.Library.KeyedTable
import Mathlib.Algebra.Order.Field.Rat

/-!
# Limits on handshakes

`handshake_rate_limit.py`: a sliding window for each source, and one token bucket.  Each
call comes with its reading of the clock.
-/

namespace SecureSync

open KeyedTable

/-! ## One window for each source -/

/-- The clock may round, as long as it keeps the order of its readings. -/
structure SourceIpRateLimiter (T : Type) [LinearOrder T] [Zero T] [Sub T] where
  maxAttempts : ℕ
  windowS : T
  max_pos : 0 < maxAttempts
  window_pos : 0 < windowS
  sub_mono : ∀ {now later : T}, now ≤ later → now - windowS ≤ later - windowS

/-- The dictionary of `SourceIpRateLimiter`. -/
abbrev Attempts (T : Type) := Table (Prod.fst : String × List T → String)

namespace SourceIpRateLimiter

variable {T : Type} [LinearOrder T] [Zero T] [Sub T] (limiter : SourceIpRateLimiter T)

/-- `setdefault(source, [])`. -/
def timesOf (attempts : Attempts T) (source : String) : List T :=
  ((attempts.find? source).map Prod.snd).getD []

def allow (source : String) (now : T) (attempts : Attempts T) : Bool × Attempts T :=
  let cutoff := now - limiter.windowS
  let times := (timesOf attempts source).filter fun t ↦ cutoff < t
  if limiter.maxAttempts ≤ times.length then (false, attempts.set (source, times))
  else (true, attempts.set (source, times ++ [now]))

def prune (now : T) (attempts : Attempts T) : ℕ × Attempts T :=
  let cutoff := now - limiter.windowS
  let stale (entry : String × List T) := !entry.2.any fun t ↦ cutoff < t
  ((attempts.items.filter stale).length, attempts.filter fun entry ↦ !stale entry)

end SourceIpRateLimiter

/-! ## One bucket for all -/

structure GlobalHandshakeLimiter where
  ratePerS : ℚ
  burst : ℚ
  rate_pos : 0 < ratePerS
  burst_pos : 0 < burst

structure TokenState where
  tokens : ℚ
  last : ℚ
  deriving DecidableEq, Repr

namespace GlobalHandshakeLimiter

variable (limiter : GlobalHandshakeLimiter)

/-- The bucket is full at first. -/
def start (now : ℚ) : TokenState := ⟨limiter.burst, now⟩

/-- `_refill`. -/
def refill (now : ℚ) (s : TokenState) : TokenState :=
  let elapsed := max 0 (now - s.last)
  ⟨min limiter.burst (s.tokens + elapsed * limiter.ratePerS), now⟩

/-- The property `tokens`, which refills too. -/
def readTokens (now : ℚ) (s : TokenState) : ℚ × TokenState :=
  ((limiter.refill now s).tokens, limiter.refill now s)

def allow (now : ℚ) (s : TokenState) : Bool × TokenState :=
  let refilled := limiter.refill now s
  if refilled.tokens < 1 then (false, refilled)
  else (true, { refilled with tokens := refilled.tokens - 1 })

end GlobalHandshakeLimiter

end SecureSync
