import SmirklyAuth.Proofs.RetryBackoff

/-!
# `SmirklyAuth.Proofs.Deadlines`: the time points that the services compute

The services subtract a rate limit window from a clock reading and add a lifetime, a lease, a
delay or a threshold to it. `TimePoint` lists these computations, each with the configured
operand. The parser bounds the operands from below only, and the target computes in 64-bit
nanoseconds, which end in the year 2262. Three of the computations stand behind a condition on
the configuration, and `Occurs` says which.

`Exact` says what a computation has to deliver: the exact sum, on the right side of the clock
reading, and for a deadline a sum that grows with the operand. `timePoints_exact_iff` says for
which accepted configurations all of them are exact at all clock readings from 2020 to 2100. A
window may be as long as the nanoseconds go, a deadline only as long as they go after 2100.
-/

set_option autoImplicit false

namespace SmirklyAuth

open SignedWord (Fits wrap)
open EmailOutboxProcessor (computeEmailOutboxRetryDelay)

/-- The time points that are computed from a clock reading and the configuration. -/
inductive TimePoint where
  /-- `now - rate_limit_window` of `SignIn`. -/
  | signInSince
  /-- `now - rate_limit_window` of `VerifyEmail` and `ResendEmailVerification`. -/
  | verificationSince
  /-- `now - rate_limit_window` of `RequestReset` and `ConfirmReset`. -/
  | resetSince
  /-- `now - window` of `SignUp`. -/
  | signUpSince
  /-- `now + code_ttl` of `EmailVerificationFactory::Create`. -/
  | codeExpiry
  /-- `now + token_ttl` of `RequestReset`. -/
  | tokenExpiry
  /-- `now + stuck_timeout` of `ClaimBatch`. -/
  | leaseExpiry
  /-- `failure_now + delay` of `Tick`, after the given attempt. -/
  | retryAt (attempt : Nat)
  /-- `last_used_at + activity_update_threshold` of `ShouldUpdateLastUsed`. -/
  | activityDue

namespace TimePoint

section

variable (runtime : AuthRuntimePolicies) (cfg : EmailOutboxRuntimeConfig)

/-- The operand of the computation. -/
def operand : TimePoint → Seconds
  | signInSince => runtime.signIn.rateLimitWindow
  | verificationSince => runtime.emailVerification.rateLimitWindow
  | resetSince => runtime.passwordReset.rateLimitWindow
  | signUpSince => runtime.signUp.window
  | codeExpiry => runtime.emailVerification.codeTtl
  | tokenExpiry => runtime.passwordReset.tokenTtl
  | leaseExpiry => cfg.stuckTimeout
  | retryAt attempt => computeEmailOutboxRetryDelay attempt cfg
  | activityDue => runtime.session.activityUpdateThreshold

/-- The start of a window is computed by a subtraction. -/
def isWindow : TimePoint → Bool
  | signInSince | verificationSince | resetSince | signUpSince => true
  | _ => false

/-- Whether the services compute the time point:

- the sign-up window only with a positive limit;
- the lease only while processing is enabled;
- the next attempt only then, for a job that has been claimed, so that a batch is not empty and
  the attempts before this one are below the limit as the statement has it, and only while the
  limit is not reached. The earlier attempts may stem from another configuration. -/
def Occurs : TimePoint → Prop
  | signUpSince => 0 < runtime.signUp.maxAttemptsPerIp
  | leaseExpiry => cfg.processingEnabled = true
  | retryAt attempt => cfg.processingEnabled = true ∧ 0 < toInt32 cfg.batchSize ∧ 1 ≤ attempt ∧
      ((attempt - 1 : Nat) : Int) < toInt32 cfg.maxAttempts ∧ attempt < cfg.maxAttempts
  | _ => True

end

end TimePoint

/-- The start of a window of length `d`: the exact difference, in the past. -/
structure ExactSince (now : Time) (d : Seconds) : Prop where
  converted : d.toNanos = d.nanos
  value : now.minus d = now - d.nanos
  past : now.minus d < now

/-- A deadline after `d`: the exact sum, in the future, and no earlier than that of a shorter
duration. -/
structure ExactUntil (now : Time) (d : Seconds) : Prop where
  converted : d.toNanos = d.nanos
  value : now.plus d = now + d.nanos
  future : d ≠ 0 → now < now.plus d
  mono : ∀ shorter, 0 ≤ shorter → shorter ≤ d → now.plus shorter ≤ now.plus d

/-- What the computation of a time point has to deliver. -/
def TimePoint.Exact (runtime : AuthRuntimePolicies) (cfg : EmailOutboxRuntimeConfig)
    (point : TimePoint) (now : Time) : Prop :=
  if point.isWindow then ExactSince now (point.operand runtime cfg)
  else ExactUntil now (point.operand runtime cfg)

/-- The last attempt after which a job is scheduled again; 0 when there is none. -/
def lastRetry (cfg : EmailOutboxRuntimeConfig) : Nat :=
  if cfg.processingEnabled && 0 < toInt32 cfg.batchSize then
    min (toInt32 cfg.maxAttempts).toNat (cfg.maxAttempts - 1)
  else 0

/-- The durations that are used are short enough. Of the delays, the longest that occurs is the
capped product after the last attempt with a retry. -/
structure DurationsFit (runtime : AuthRuntimePolicies) (cfg : EmailOutboxRuntimeConfig) : Prop where
  signInWindow : runtime.signIn.rateLimitWindow ≤ longestWindow
  verificationWindow : runtime.emailVerification.rateLimitWindow ≤ longestWindow
  resetWindow : runtime.passwordReset.rateLimitWindow ≤ longestWindow
  signUpWindow : runtime.signUp.maxAttemptsPerIp = 0 ∨ runtime.signUp.window ≤ longestWindow
  codeTtl : runtime.emailVerification.codeTtl ≤ longestDeadline
  tokenTtl : runtime.passwordReset.tokenTtl ≤ longestDeadline
  stuckTimeout : cfg.processingEnabled = false ∨ cfg.stuckTimeout ≤ longestDeadline
  activityThreshold : runtime.session.activityUpdateThreshold ≤ longestDeadline
  retryDelay : lastRetry cfg = 0 ∨ cfg.retryMaxDelay ≤ longestDeadline ∨
    cfg.retryBaseDelay * 2 ^ min (lastRetry cfg - 1) 30 ≤ longestDeadline

/-! ### One operand -/

section

variable {d : Int}

/-- A window is exact at all clock readings when its nanoseconds fit. -/
theorem exactSince_iff (hd : 1 ≤ d) :
    (∀ now, ClockReading now → ExactSince now d) ↔ d ≤ longestWindow := by
  constructor
  · intro hall
    have hconverted := (hall _ ClockReading.ends.1).converted
    have hfits : Fits 64 (d * 1000000000) := SignedWord.wrap_eq_self_iff.mp hconverted
    have htop := hfits.2
    unfold longestWindow
    omega
  · intro hle now hnow
    have hvalue := hnow.minus_eq (le_trans (by decide) hd) hle
    constructor
    case converted => exact SignedWord.wrap_eq_self (hnow.fits_window (by omega) hle).1
    case value => exact hvalue
    case past =>
      rw [hvalue]
      exact sub_lt_self now (Seconds.nanos_pos (by omega))

/-- A deadline is exact at all clock readings when it fits after the last one. -/
theorem exactUntil_iff (hd : 0 ≤ d) :
    (∀ now, ClockReading now → ExactUntil now d) ↔ d ≤ longestDeadline := by
  constructor
  · intro hall
    have hvalue := (hall _ ClockReading.ends.2).value
    have hfits : Fits 64 (4102444800 * 1000000000 + d * 1000000000) := by
      show Fits 64 (4102444800 * 1000000000 + Seconds.nanos d)
      rw [← hvalue]
      exact SignedWord.fits_wrap 64 _
    have htop := hfits.2
    unfold longestDeadline
    omega
  · intro hle now hnow
    have hvalue := hnow.plus_eq hd hle
    constructor
    case converted => exact SignedWord.wrap_eq_self (hnow.fits_deadline hd hle).1
    case value => exact hvalue
    case future =>
      intro hne
      have hpos : 0 < d := lt_of_le_of_ne hd (Ne.symm hne)
      rw [hvalue]
      exact lt_add_of_pos_right now (Seconds.nanos_pos hpos)
    case mono =>
      intro shorter hshorter hshort
      -- a shorter duration is in range as well
      rw [hvalue, hnow.plus_eq hshorter (le_trans hshort hle)]
      exact add_le_add_right (mul_le_mul_of_nonneg_right hshort (by decide)) now

/-- A negative operand gives no deadline. -/
theorem not_exactUntil_of_neg (hd : d < 0) (now : Int) : ¬ ExactUntil now d := by
  intro h
  have hfuture := h.future (ne_of_lt hd)
  rw [h.value] at hfuture
  change now < now + d * 1000000000 at hfuture
  omega

end

/-! ### The delays of a job -/

section

variable {cfg : EmailOutboxRuntimeConfig}

/-- The attempts with a retry are those up to the last one. -/
theorem occurs_retryAt_iff {runtime : AuthRuntimePolicies} {n : Nat} :
    TimePoint.Occurs runtime cfg (.retryAt n) ↔ 1 ≤ n ∧ n ≤ lastRetry cfg := by
  unfold TimePoint.Occurs lastRetry
  cases cfg.processingEnabled with
  | false => simp; omega
  | true =>
    by_cases hbatch : 0 < toInt32 cfg.batchSize
    · simp only [hbatch, Bool.true_and, decide_true, if_true, true_and]
      omega
    · simp [hbatch]
      omega

/-- The delays that occur are bounded exactly when the longest of them is. -/
theorem exactRetry_iff (hparsed : cfg.Parsed) {last : Nat} :
    (∀ n, 1 ≤ n → n ≤ last → ∀ now, ClockReading now →
        ExactUntil now (computeEmailOutboxRetryDelay n cfg)) ↔
      last = 0 ∨ cfg.retryMaxDelay ≤ longestDeadline ∨
        cfg.retryBaseDelay * 2 ^ min (last - 1) 30 ≤ longestDeadline := by
  have hbase := hparsed.retryBaseDelay.le
  have hlast : retryProduct cfg.retryBaseDelay last
      = cfg.retryBaseDelay * 2 ^ min (last - 1) 30 := rfl
  rw [← hlast]
  constructor
  · intro hall
    by_contra hnot
    simp only [not_or] at hnot
    obtain ⟨hattempts, hmax, hproduct⟩ := hnot
    have hone : 1 ≤ last := by omega
    by_cases hfits : Fits 64 (retryProduct cfg.retryBaseDelay last)
    · -- the last delay is the capped product, and both numbers are too large
      have hdelay := delay_eq_min hfits
      have hgt : longestDeadline < computeEmailOutboxRetryDelay last cfg := by
        rw [hdelay]
        exact lt_min (Int.not_le.mp hproduct) (Int.not_le.mp hmax)
      have hpos : 0 ≤ computeEmailOutboxRetryDelay last cfg :=
        le_trans (by decide) (le_of_lt hgt)
      have hle := (exactUntil_iff hpos).mp (hall last hone (Nat.le_refl _))
      exact absurd hle (Int.not_le.mpr hgt)
    · -- one of the delays before it is negative
      obtain ⟨n, hn, hnm, hneg⟩ := exists_delay_neg hparsed hone hfits
      have hexact := hall n hn hnm _ ClockReading.ends.1
      exact not_exactUntil_of_neg hneg _ hexact
  · intro hcases n hn hle
    -- the base is at most the longest delay, so no product overflows
    have hsmall : cfg.retryBaseDelay < 2 ^ 33 := by
      rcases hcases with hnone | hmax | hproduct
      · omega
      · exact lt_of_le_of_lt (le_trans hparsed.retryMaxDelay.le hmax) (by decide)
      · have hone : retryProduct cfg.retryBaseDelay 1 = cfg.retryBaseDelay := by
          simp [retryProduct]
        have hmono := retryProduct_mono hbase (n := 1) (m := last) (by omega)
        rw [hone] at hmono
        exact lt_of_le_of_lt (le_trans hmono hproduct) (by decide)
    have hdelay := retryDelay_of_lt hparsed hsmall n
    refine (exactUntil_iff (le_trans (le_trans (by decide) hbase) hdelay.base_le)).mpr ?_
    rcases hcases with hnone | hmax | hproduct
    · omega
    · exact le_trans hdelay.le_max hmax
    · rw [delay_eq_min hdelay.fits]
      exact le_trans (min_le_left _ _)
        (le_trans (retryProduct_mono hbase hle) hproduct)

end

/-! ### All time points -/

/-- At every clock reading from 2020 to 2100 the services compute every time point exactly if
and only if the configured durations that they use are short enough. -/
theorem timePoints_exact_iff {value : AuthRuntimeJson} {runtime : AuthRuntimePolicies}
    (hruntime : parseAuthRuntimePolicies value = .ok runtime)
    {outboxValue : EmailOutboxRuntimeJson} {cfg : EmailOutboxRuntimeConfig}
    (hcfg : parseEmailOutboxRuntimeConfig outboxValue = .ok cfg) :
    (∀ point : TimePoint, point.Occurs runtime cfg → ∀ now, ClockReading now →
        point.Exact runtime cfg now) ↔ DurationsFit runtime cfg := by
  have hparsed := parseAuthRuntimePolicies_parsed hruntime
  have hparsedCfg := parseEmailOutboxRuntimeConfig_parsed hcfg
  have nonneg {d : Seconds} (h : ParsedSeconds 1 d) : 0 ≤ d := le_trans (by decide) h.le
  constructor
  · intro hall
    constructor
    case signInWindow =>
      exact (exactSince_iff hparsed.signInWindow.le).mp (hall .signInSince trivial)
    case verificationWindow =>
      exact (exactSince_iff hparsed.verificationWindow.le).mp (hall .verificationSince trivial)
    case resetWindow => exact (exactSince_iff hparsed.resetWindow.le).mp (hall .resetSince trivial)
    case signUpWindow =>
      refine or_iff_not_imp_left.mpr fun hpos => ?_
      exact (exactSince_iff hparsed.signUpWindow.le).mp
        (hall .signUpSince (Nat.pos_of_ne_zero hpos))
    case codeTtl => exact (exactUntil_iff (nonneg hparsed.codeTtl)).mp (hall .codeExpiry trivial)
    case tokenTtl => exact (exactUntil_iff (nonneg hparsed.tokenTtl)).mp (hall .tokenExpiry trivial)
    case stuckTimeout =>
      refine or_iff_not_imp_left.mpr fun henabled => ?_
      exact (exactUntil_iff (nonneg hparsedCfg.stuckTimeout)).mp
        (hall .leaseExpiry (Bool.eq_true_of_not_eq_false henabled))
    case activityThreshold =>
      exact (exactUntil_iff hparsed.activityThreshold.le).mp (hall .activityDue trivial)
    case retryDelay =>
      exact (exactRetry_iff hparsedCfg).mp fun n hn hle =>
        hall (.retryAt n) (occurs_retryAt_iff.mpr ⟨hn, hle⟩)
  · intro hfit point hoccurs
    cases point with
    | signInSince => exact (exactSince_iff hparsed.signInWindow.le).mpr hfit.signInWindow
    | verificationSince =>
      exact (exactSince_iff hparsed.verificationWindow.le).mpr hfit.verificationWindow
    | resetSince => exact (exactSince_iff hparsed.resetWindow.le).mpr hfit.resetWindow
    | signUpSince =>
      refine (exactSince_iff hparsed.signUpWindow.le).mpr (hfit.signUpWindow.resolve_left ?_)
      exact Nat.pos_iff_ne_zero.mp hoccurs
    | codeExpiry => exact (exactUntil_iff (nonneg hparsed.codeTtl)).mpr hfit.codeTtl
    | tokenExpiry => exact (exactUntil_iff (nonneg hparsed.tokenTtl)).mpr hfit.tokenTtl
    | leaseExpiry =>
      refine (exactUntil_iff (nonneg hparsedCfg.stuckTimeout)).mpr
        (hfit.stuckTimeout.resolve_left ?_)
      exact Bool.eq_false_iff.not_left.mpr hoccurs
    | retryAt n =>
      obtain ⟨hn, hle⟩ := occurs_retryAt_iff.mp hoccurs
      exact (exactRetry_iff hparsedCfg).mpr hfit.retryDelay n hn hle
    | activityDue =>
      exact (exactUntil_iff hparsed.activityThreshold.le).mpr hfit.activityThreshold

/-- A configuration whose codes live for `10 ^ 10` seconds. -/
def longLivedCodes : AuthRuntimeJson where
  emailVerification field := if field = lit "code_ttl_seconds" then some 10000000000 else none

/-- It is accepted. A code that is issued at the start of 2026 expires in 1758, so it is never
accepted. -/
theorem timePoints_overflow :
    let runtime : AuthRuntimePolicies := { emailVerification := { codeTtl := 10000000000 } }
    let now : Int := 1767225600 * 1000000000
    parseAuthRuntimePolicies longLivedCodes = .ok runtime ∧ ClockReading now ∧
      Time.plus now (TimePoint.operand runtime {} .codeExpiry)
        = -6679518473709551616 ∧
      Time.plus now (TimePoint.operand runtime {} .codeExpiry) < now ∧
      ¬ TimePoint.Exact runtime {} .codeExpiry now := by
  intro runtime now
  have hvalue : Time.plus now (TimePoint.operand runtime {} .codeExpiry)
      = -6679518473709551616 := by decide +kernel
  refine ⟨by rfl, ⟨by decide, by decide⟩, hvalue, by rw [hvalue]; decide, ?_⟩
  intro hexact
  have hfuture := ExactUntil.future hexact (by decide)
  rw [show Time.plus now (TimePoint.operand runtime {} .codeExpiry)
    = -6679518473709551616 from hvalue] at hfuture
  exact absurd hfuture (by decide)

/-- The default configuration is exact: a code that is issued at the start of 2026 expires 900
seconds later. -/
theorem timePoints_exact_default :
    DurationsFit {} {} ∧
      TimePoint.Exact {} {} .codeExpiry (1767225600 * 1000000000) := by
  have hfit : DurationsFit {} {} := by
    constructor <;> decide
  have hruntime : parseAuthRuntimePolicies {} = .ok {} := by rfl
  have hcfg : parseEmailOutboxRuntimeConfig {} = .ok {} := by rfl
  have hexact := (timePoints_exact_iff hruntime hcfg).mpr hfit
  exact ⟨hfit, hexact .codeExpiry trivial _ ⟨by decide, by decide⟩⟩

end SmirklyAuth
