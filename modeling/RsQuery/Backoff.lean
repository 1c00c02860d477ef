import Mathlib.Order.Monotone.Basic
import RsQuery.Lib.Saturating
import RsQuery.Options

/-!
# Backoff delays

The default curve counts milliseconds in 64 bits; a configured curve multiplies a duration
by a power in 32 bits.  Both saturate, and the default one is capped long before it could
show.  `delay_for` takes the default curve whenever the base delay is the default one, and
the default curve knows its own cap only.
-/

namespace RsQuery

/-- `u32::MAX`. -/
def u32Max : Nat := 2 ^ 32 - 1

namespace Duration

/-- `Duration::MAX`. -/
def max : Duration :=
  u64Max * 1000000000 + 999999999

/-- Multiplication that stops at the longest duration. -/
def saturatingMul (d : Duration) (n : Nat) : Duration :=
  Saturating.mul max d n

theorem min_fromMillis (m n : Nat) :
  min (fromMillis m) (fromMillis n) = fromMillis (min m n)
  := Nat.mul_min_mul_right m n 1000000

end Duration

/-- Base backoff delay. -/
def baseRetryDelay : Duration := .fromMillis 1000

/-- Maximum backoff delay. -/
def maxRetryDelay : Duration := .fromSecs 30

/-- `min(1000 * 2^attempt, 30_000)` milliseconds, no jitter. -/
def retryDelay (attempt : Nat) : Duration :=
  let multiplier := Saturating.pow u64Max 2 attempt
  let millis := baseRetryDelay.asMillisU64
  let delay := Saturating.mul u64Max millis multiplier
  .fromMillis (min delay maxRetryDelay.asMillisU64)

namespace RetryConfig

/-- The delay for a retry attempt, with exponential growth and the cap. -/
def delayForAttempt (config : RetryConfig) (attempt : Nat) : Duration :=
  if config.exponentialBackoff then
    let multiplier := Saturating.pow u32Max 2 attempt
    let delay := config.baseDelay.saturatingMul multiplier
    min delay config.maxDelay
  else min config.baseDelay config.maxDelay

/-- The backoff delay for a retry attempt: the default curve where the config has the
default base, the config's own delay elsewhere. -/
def delayFor (config : RetryConfig) (attempt : Nat) : Duration :=
  if config.exponentialBackoff && config.baseDelay = baseRetryDelay then retryDelay attempt
  else config.delayForAttempt attempt

/-- The configured delay, in exact arithmetic. -/
def exactDelay (config : RetryConfig) (attempt : Nat) : Duration :=
  if config.exponentialBackoff then min (config.baseDelay * 2 ^ attempt) config.maxDelay
  else min config.baseDelay config.maxDelay

end RetryConfig

/-! ### The default curve -/

/-- The default curve saturates above its cap only. -/
theorem retryDelay_eq (n : Nat) :
  retryDelay n = .fromMillis (min (1000 * 2 ^ n) 30000)
  := by
  have hcap : min (1000 * Saturating.pow u64Max 2 n) 30000 = min (1000 * 2 ^ n) 30000 := by
    apply (Saturating.min_mul_pow_eq_iff (by decide) (by decide)).mpr
    right
    right
    decide
  rw [← hcap, ← Saturating.min_mul (show 30000 ≤ u64Max by decide)]
  rfl

/-- The delay of the default curve in nanoseconds. -/
theorem retryDelay_eq_min (n : Nat) :
  retryDelay n = min (baseRetryDelay * 2 ^ n) maxRetryDelay
  := by
  have hbase : baseRetryDelay * 2 ^ n = Duration.fromMillis (1000 * 2 ^ n) :=
    Nat.mul_right_comm _ _ _
  have hmax : maxRetryDelay = Duration.fromMillis 30000 := rfl
  rw [retryDelay_eq, hbase, hmax, Duration.min_fromMillis]

/-- A configured delay is exact as long as the power does not saturate, nothing is
multiplied, or the cap is reached by then. -/
theorem RetryConfig.delayForAttempt_eq_exactDelay_iff
    {config : RetryConfig} (hmax : config.maxDelay ≤ Duration.max)
    (hexponential : config.exponentialBackoff = true) (n : Nat) :
  config.delayForAttempt n = config.exactDelay n ↔
    2 ^ n ≤ u32Max ∨ config.baseDelay = 0 ∨ config.maxDelay ≤ config.baseDelay * u32Max
  := by
  rw [delayForAttempt, exactDelay, if_pos hexponential, if_pos hexponential]
  simp only [Duration.saturatingMul]
  rw [Saturating.min_mul hmax]
  apply Saturating.min_mul_pow_eq_iff (by decide) (by decide)

/-- A power of two fits in 32 bits exactly when its exponent is below 32. -/
theorem two_pow_le_u32Max_iff (n : Nat) :
  2 ^ n ≤ u32Max ↔ n < 32
  := by
  rw [← Nat.pow_lt_pow_iff_right (show 1 < 2 by decide)]
  apply Nat.le_sub_one_iff_lt (by decide)

/-- The default curve is the capped exponential without wrap or overflow, grows with the
attempt, and is the delay of the default config. -/
theorem retryDelay_curve :
  (∀ n, retryDelay n = .fromMillis (min (1000 * 2 ^ n) 30000)) ∧ Monotone retryDelay ∧
    ∀ n, retryDelay n = RetryConfig.delayForAttempt {} n
  := by
  refine ⟨retryDelay_eq, ?_, ?_⟩
  · intro m n h
    rw [retryDelay_eq_min, retryDelay_eq_min]
    apply min_le_min_right
    apply Nat.mul_le_mul_left
    apply Nat.pow_le_pow_right (by decide) h
  · intro n
    have hexact : RetryConfig.delayForAttempt {} n = RetryConfig.exactDelay {} n := by
      apply (RetryConfig.delayForAttempt_eq_exactDelay_iff (by decide) rfl n).mpr
      right
      right
      decide
    rw [hexact, retryDelay_eq_min]
    rfl

/-! ### The configured curve -/

namespace RetryConfig

variable {config : RetryConfig} {n : Nat}

/-- The default curve is a configured delay as long as both caps are the default one, or
neither is reached. -/
theorem retryDelay_eq_exactDelay_iff
    (hexponential : config.exponentialBackoff = true)
    (hbase : config.baseDelay = baseRetryDelay) :
  retryDelay n = config.exactDelay n ↔
    config.maxDelay = maxRetryDelay ∨ (n ≤ 4 ∧ baseRetryDelay * 2 ^ n ≤ config.maxDelay)
  := by
  rw [retryDelay_eq_min, exactDelay, if_pos hexponential, hbase]
  rcases Nat.lt_or_ge 4 n with hn | hn
  · -- the default cap is reached
    have hpow : baseRetryDelay * 2 ^ 5 ≤ baseRetryDelay * 2 ^ n :=
      Nat.mul_le_mul_left _ (Nat.pow_le_pow_right (by decide) hn)
    have hcap : maxRetryDelay < baseRetryDelay * 2 ^ n := Nat.lt_of_lt_of_le (by decide) hpow
    rw [min_eq_right hcap.le, or_iff_left (fun h => absurd h.1 (Nat.not_le.mpr hn))]
    constructor
    · intro h
      rcases Nat.le_total (baseRetryDelay * 2 ^ n) config.maxDelay with hle | hge
      · rw [min_eq_left hle] at h
        exact absurd h hcap.ne
      · rw [h, min_eq_right hge]
    · intro h
      rw [h, min_eq_right hcap.le]
  · have hpow : baseRetryDelay * 2 ^ n ≤ baseRetryDelay * 2 ^ 4 :=
      Nat.mul_le_mul_left _ (Nat.pow_le_pow_right (by decide) hn)
    have hcap : baseRetryDelay * 2 ^ n < maxRetryDelay := Nat.lt_of_le_of_lt hpow (by decide)
    rw [min_eq_left hcap.le, eq_comm, min_eq_left_iff]
    constructor
    · intro h
      right
      exact ⟨hn, h⟩
    · rintro (hmax | ⟨-, h⟩)
      · rw [hmax]
        apply hcap.le
      · apply h

/-- The exact delay is within the cap. -/
theorem exactDelay_le (config : RetryConfig) (n : Nat) :
  config.exactDelay n ≤ config.maxDelay
  := by
  unfold exactDelay
  split
  · apply min_le_right
  · apply min_le_right

/-- What the code needs for its delay to be the configured one: growth is off; or the base is
the default one, and the cap is the default one or is not reached by either curve; or the
base is another one, and the power fits in 32 bits, nothing is multiplied, or the cap is
reached by then. -/
def CurveFits (config : RetryConfig) (n : Nat) : Prop :=
  config.exponentialBackoff = false ∨
    (config.baseDelay = baseRetryDelay ∧ (config.maxDelay = maxRetryDelay ∨
      (n ≤ 4 ∧ baseRetryDelay * 2 ^ n ≤ config.maxDelay))) ∨
    (config.baseDelay ≠ baseRetryDelay ∧ (n < 32 ∨ config.baseDelay = 0 ∨
      config.maxDelay ≤ config.baseDelay * u32Max))

instance (config : RetryConfig) (n : Nat) : Decidable (config.CurveFits n) :=
  inferInstanceAs (Decidable (_ ∨ _))

/-- The delay slept before a retry is the configured one in exact arithmetic, and within the
cap, exactly when the curve fits. -/
theorem delayFor_eq_exactDelay_iff
    (config : RetryConfig) (hmax : config.maxDelay ≤ Duration.max) (n : Nat) :
  (config.delayFor n = config.exactDelay n ∧ config.delayFor n ≤ config.maxDelay) ↔
    config.CurveFits n
  := by
  have hle (h : config.delayFor n = config.exactDelay n) : config.delayFor n ≤ config.maxDelay := by
    rw [h]
    apply exactDelay_le
  rw [and_iff_left_of_imp hle, CurveFits, delayFor]
  cases hexponential : config.exponentialBackoff with
  | false => simp [delayForAttempt, exactDelay, hexponential]
  | true =>
    by_cases hbase : config.baseDelay = baseRetryDelay
    · simp only [hbase, Bool.true_and, decide_true, if_true]
      rw [retryDelay_eq_exactDelay_iff hexponential hbase]
      simp
    · simp only [hbase, Bool.true_and, decide_false, Bool.false_eq_true, if_false]
      rw [delayForAttempt_eq_exactDelay_iff hmax hexponential, two_pow_le_u32Max_iff]
      simp [hbase]

/-- A config with its own base and a high cap, at an attempt that fits and one that does
not. -/
theorem delayFor_eq_exactDelay_iff_millis :
  let config : RetryConfig := { baseDelay := .fromMillis 1, maxDelay := .fromSecs 30 }
  (config.delayFor 3 = config.exactDelay 3 ∧ config.delayFor 3 ≤ config.maxDelay) ↔
    config.CurveFits 3
  := by
  apply delayFor_eq_exactDelay_iff
  decide

/-- Where the base is the default one, the delay is over a lower cap. -/
theorem not_delayFor_le_cap :
  let config : RetryConfig := { maxDelay := .fromSecs 5 }
  config.delayFor 3 = .fromSecs 8 ∧ config.exactDelay 3 = .fromSecs 5 ∧
    ¬ config.delayFor 3 ≤ config.maxDelay
  := by
  decide

end RetryConfig

end RsQuery
