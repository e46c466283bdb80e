import SmirklyAuth.Services.Contracts
import SmirklyAuth.Services.Errors

/-!
# `SmirklyAuth.Config.AuthDynamicConfig`: the runtime configuration

The parsers of the authentication policies and of the outbox configuration
(`config/auth_dynamic_config.cpp`), and the provider that the use cases read the policies from
(`config/runtime_config_providers.cpp`).

A parser bounds every value from below and none from above: what it accepts is any value of
the right sign that 64 bits can hold (`AuthRuntimePolicies.Parsed`,
`EmailOutboxRuntimeConfig.Parsed`).

A `JsonObject` is a member of the JSON value that holds integers. `As<std::int64_t>(d)` is
the member, or `d` when it is not there; an exception of the JSON library, for a member of
another type or outside the range of the type, is no part of the model.
-/

set_option autoImplicit false

namespace SmirklyAuth

/-- The integer members of a JSON object. -/
abbrev JsonObject := Str → Option Int64

/-- `ParseSize`. On the target `std::size_t` holds every `std::uint64_t`. -/
def parseSize (value : JsonObject) (field : Str) (defaultValue minValue : Nat) :
    Except Str Nat :=
  let parsed := (value field).getD (Int64.ofNat defaultValue)
  if parsed < 0 then .error (field ++ lit " must not be negative")
  else
    let result := parsed.toInt.toNat
    if result < minValue then .error (field ++ lit " is below minimum") else .ok result

/-- `ParseSeconds`. -/
def parseSeconds (value : JsonObject) (field : Str) (defaultValue minValue : Seconds) :
    Except Str Seconds :=
  let result : Seconds := ((value field).getD (Int64.ofInt defaultValue)).toInt
  if result < minValue then .error (field ++ lit " is below minimum") else .ok result

/-- The value of `SMIRKLY_AUTH_RUNTIME_CONFIG`. -/
structure AuthRuntimeJson where
  signUpRateLimit : JsonObject := fun _ => none
  requireVerifiedEmail : Option Bool := none
  signInRateLimit : JsonObject := fun _ => none
  sessionActivity : JsonObject := fun _ => none
  emailVerification : JsonObject := fun _ => none
  passwordReset : JsonObject := fun _ => none

/-- The members of `sign_up.rate_limit`. -/
def parseSignUp (json : JsonObject) : Except Str SignUpRateLimitPolicy := do
  let config : SignUpRateLimitPolicy := {}
  return {
    window := ← parseSeconds json "window_seconds" config.window 1
    maxAttemptsPerIp := ← parseSize json "max_attempts_per_ip" config.maxAttemptsPerIp 0 }

/-- `sign_in.require_verified_email` and the members of `sign_in.rate_limit`. -/
def parseSignIn (requireVerifiedEmail : Option Bool) (json : JsonObject) :
    Except Str SignInPolicy := do
  let config : SignInPolicy := {}
  return {
    requireVerifiedEmail := requireVerifiedEmail.getD config.requireVerifiedEmail
    rateLimitWindow := ← parseSeconds json "window_seconds" config.rateLimitWindow 1
    maxAttemptsPerIdentifier := ← parseSize json "max_attempts_per_identifier"
      config.maxAttemptsPerIdentifier 0
    maxAttemptsPerUser := ← parseSize json "max_attempts_per_user" config.maxAttemptsPerUser 0
    maxAttemptsPerIp := ← parseSize json "max_attempts_per_ip" config.maxAttemptsPerIp 0 }

/-- The members of `session_activity`. -/
def parseSession (json : JsonObject) : Except Str SessionPolicy := do
  let config : SessionPolicy := {}
  return { config with
    activityUpdateThreshold := ← parseSeconds json "update_threshold_seconds"
      config.activityUpdateThreshold 0 }

/-- The members of `email_verification`. -/
def parseEmailVerification (json : JsonObject) : Except Str EmailVerificationPolicy := do
  let policy : EmailVerificationPolicy := {}
  return {
    codeTtl := ← parseSeconds json "code_ttl_seconds" policy.codeTtl 1
    maxCodeAttempts := ← parseSize json "max_code_attempts" policy.maxCodeAttempts 1
    rateLimitWindow := ← parseSeconds json "rate_limit_window_seconds"
      policy.rateLimitWindow 1
    maxAttemptsPerEmail := ← parseSize json "max_attempts_per_email"
      policy.maxAttemptsPerEmail 0
    maxAttemptsPerUser := ← parseSize json "max_attempts_per_user" policy.maxAttemptsPerUser 0
    maxAttemptsPerIp := ← parseSize json "max_attempts_per_ip" policy.maxAttemptsPerIp 0 }

/-- The members of `password_reset`. -/
def parsePasswordReset (json : JsonObject) : Except Str PasswordResetPolicy := do
  let policy : PasswordResetPolicy := {}
  return {
    tokenTtl := ← parseSeconds json "token_ttl_seconds" policy.tokenTtl 1
    maxTokenAttempts := ← parseSize json "max_token_attempts" policy.maxTokenAttempts 1
    rateLimitWindow := ← parseSeconds json "rate_limit_window_seconds"
      policy.rateLimitWindow 1
    maxAttemptsPerEmail := ← parseSize json "max_attempts_per_email"
      policy.maxAttemptsPerEmail 0
    maxAttemptsPerUser := ← parseSize json "max_attempts_per_user" policy.maxAttemptsPerUser 0
    maxAttemptsPerIp := ← parseSize json "max_attempts_per_ip" policy.maxAttemptsPerIp 0 }

/-- `Parse(value, To<AuthRuntimePolicies>)`. -/
def parseAuthRuntimePolicies (value : AuthRuntimeJson) : Except Str AuthRuntimePolicies := do
  let signUp ← parseSignUp value.signUpRateLimit
  let signIn ← parseSignIn value.requireVerifiedEmail value.signInRateLimit
  let session ← parseSession value.sessionActivity
  let emailVerification ← parseEmailVerification value.emailVerification
  let passwordReset ← parsePasswordReset value.passwordReset
  return { session, signUp, signIn, emailVerification, passwordReset }

/-- `DynamicConfigAuthRuntimePolicyProvider::Get`. The fallback gives the lifetime of the
refresh tokens, the snapshot everything else. -/
def runtimePolicies (fallback runtime : AuthRuntimePolicies) : AuthRuntimePolicies :=
  { runtime with
    session :=
      { fallback.session with
        activityUpdateThreshold := runtime.session.activityUpdateThreshold } }

/-- The value of `SMIRKLY_EMAIL_OUTBOX_RUNTIME_CONFIG`. -/
structure EmailOutboxRuntimeJson where
  processingEnabled : Option Bool := none
  members : JsonObject := fun _ => none

/-- `Parse(value, To<EmailOutboxRuntimeConfig>)`. The maximal delay is bounded from below by
the delay that was read before it. -/
def parseEmailOutboxRuntimeConfig (value : EmailOutboxRuntimeJson) :
    Except Str EmailOutboxRuntimeConfig := do
  let config : EmailOutboxRuntimeConfig := {}
  let batchSize ← parseSize value.members "batch_size" config.batchSize 1
  let maxAttempts ← parseSize value.members "max_attempts" config.maxAttempts 1
  let stuckTimeout ← parseSeconds value.members "stuck_timeout_seconds" config.stuckTimeout 1
  let retryBaseDelay ← parseSeconds value.members "retry_base_delay_seconds"
    config.retryBaseDelay 1
  let retryMaxDelay ← parseSeconds value.members "retry_max_delay_seconds"
    config.retryMaxDelay retryBaseDelay
  return {
    processingEnabled := value.processingEnabled.getD config.processingEnabled
    batchSize, maxAttempts, stuckTimeout, retryBaseDelay, retryMaxDelay }

/-! ### What is accepted -/

variable {value : JsonObject} {field : Str} {defaultValue minValue : Seconds}

/-- A size that is accepted is in its range and below `2^63`. -/
theorem parseSize_ok {defaultValue minValue n : Nat}
    (h : parseSize value field defaultValue minValue = .ok n) :
    minValue ≤ n ∧ n < 2 ^ 63 := by
  simp only [parseSize] at h
  split at h
  · cases h
  split at h
  · cases h
  · obtain rfl := Except.ok.inj h
    have hlt := Int64.toInt_lt ((value field).getD (Int64.ofNat defaultValue))
    omega

/-- A duration that is accepted is not below its minimum. -/
theorem parseSeconds_ok {t : Seconds}
    (h : parseSeconds value field defaultValue minValue = .ok t) : minValue ≤ t := by
  simp only [parseSeconds] at h
  split at h
  · cases h
  · rename_i hmin
    obtain rfl := Except.ok.inj h
    exact Int.not_lt.mp hmin

/-- Every accepted duration is one that `std::chrono::seconds` holds. -/
theorem parseSeconds_fits {t : Seconds}
    (h : parseSeconds value field defaultValue minValue = .ok t) : SignedWord.Fits 64 t := by
  simp only [parseSeconds] at h
  split at h
  · cases h
  · obtain rfl := Except.ok.inj h
    have hlow := Int64.le_toInt ((value field).getD (Int64.ofInt defaultValue))
    have hhigh := Int64.toInt_lt ((value field).getD (Int64.ofInt defaultValue))
    exact ⟨by omega, by omega⟩

/-- A duration as a parser returns it: bounded from below, and in range. -/
structure ParsedSeconds (minValue t : Seconds) : Prop where
  le : minValue ≤ t
  fits : SignedWord.Fits 64 t

/-- The same, with the 64 bits of the JSON integer. -/
theorem parseSeconds_parsed
    {t : Seconds}
    (h : parseSeconds value field defaultValue minValue = .ok t) : ParsedSeconds minValue t :=
  ⟨parseSeconds_ok h, parseSeconds_fits h⟩

/-- The durations of the policies, as the parser returns them. -/
structure AuthRuntimePolicies.Parsed (runtime : AuthRuntimePolicies) : Prop where
  signUpWindow : ParsedSeconds 1 runtime.signUp.window
  signInWindow : ParsedSeconds 1 runtime.signIn.rateLimitWindow
  activityThreshold : ParsedSeconds 0 runtime.session.activityUpdateThreshold
  codeTtl : ParsedSeconds 1 runtime.emailVerification.codeTtl
  verificationWindow : ParsedSeconds 1 runtime.emailVerification.rateLimitWindow
  tokenTtl : ParsedSeconds 1 runtime.passwordReset.tokenTtl
  resetWindow : ParsedSeconds 1 runtime.passwordReset.rateLimitWindow

/-- The durations and limits of an accepted runtime configuration. -/
theorem parseAuthRuntimePolicies_parsed {value : AuthRuntimeJson} {runtime : AuthRuntimePolicies}
    (h : parseAuthRuntimePolicies value = .ok runtime) : runtime.Parsed := by
  obtain ⟨_, hsignUp, h⟩ := except_bind_eq_ok h
  obtain ⟨_, hsignIn, h⟩ := except_bind_eq_ok h
  obtain ⟨_, hsession, h⟩ := except_bind_eq_ok h
  obtain ⟨_, hverification, h⟩ := except_bind_eq_ok h
  obtain ⟨_, hreset, h⟩ := except_bind_eq_ok h
  obtain rfl := Except.ok.inj h
  -- each policy is read member by member, and the durations among them are kept
  obtain ⟨_, hsignUpWindow, hsignUp⟩ := except_bind_eq_ok hsignUp
  obtain ⟨_, -, hsignUp⟩ := except_bind_eq_ok hsignUp
  obtain rfl := Except.ok.inj hsignUp
  obtain ⟨_, hsignInWindow, hsignIn⟩ := except_bind_eq_ok hsignIn
  iterate 3 obtain ⟨_, -, hsignIn⟩ := except_bind_eq_ok hsignIn
  obtain rfl := Except.ok.inj hsignIn
  obtain ⟨_, hthreshold, hsession⟩ := except_bind_eq_ok hsession
  obtain rfl := Except.ok.inj hsession
  obtain ⟨_, hcodeTtl, hverification⟩ := except_bind_eq_ok hverification
  obtain ⟨_, -, hverification⟩ := except_bind_eq_ok hverification
  obtain ⟨_, hverificationWindow, hverification⟩ := except_bind_eq_ok hverification
  iterate 3 obtain ⟨_, -, hverification⟩ := except_bind_eq_ok hverification
  obtain rfl := Except.ok.inj hverification
  obtain ⟨_, htokenTtl, hreset⟩ := except_bind_eq_ok hreset
  obtain ⟨_, -, hreset⟩ := except_bind_eq_ok hreset
  obtain ⟨_, hresetWindow, hreset⟩ := except_bind_eq_ok hreset
  iterate 3 obtain ⟨_, -, hreset⟩ := except_bind_eq_ok hreset
  obtain rfl := Except.ok.inj hreset
  exact
    { signUpWindow := parseSeconds_parsed hsignUpWindow
      signInWindow := parseSeconds_parsed hsignInWindow
      activityThreshold := parseSeconds_parsed hthreshold
      codeTtl := parseSeconds_parsed hcodeTtl
      verificationWindow := parseSeconds_parsed hverificationWindow
      tokenTtl := parseSeconds_parsed htokenTtl
      resetWindow := parseSeconds_parsed hresetWindow }

/-- The durations of the outbox configuration, as the parser returns them. -/
structure EmailOutboxRuntimeConfig.Parsed (cfg : EmailOutboxRuntimeConfig) : Prop where
  stuckTimeout : ParsedSeconds 1 cfg.stuckTimeout
  retryBaseDelay : ParsedSeconds 1 cfg.retryBaseDelay
  retryMaxDelay : ParsedSeconds cfg.retryBaseDelay cfg.retryMaxDelay

/-- The durations and limits of an accepted outbox configuration. -/
theorem parseEmailOutboxRuntimeConfig_parsed {value : EmailOutboxRuntimeJson}
    {cfg : EmailOutboxRuntimeConfig} (h : parseEmailOutboxRuntimeConfig value = .ok cfg) :
    cfg.Parsed := by
  obtain ⟨_, -, h⟩ := except_bind_eq_ok h
  obtain ⟨_, -, h⟩ := except_bind_eq_ok h
  obtain ⟨_, hstuck, h⟩ := except_bind_eq_ok h
  obtain ⟨_, hbase, h⟩ := except_bind_eq_ok h
  obtain ⟨_, hmax, h⟩ := except_bind_eq_ok h
  obtain rfl := Except.ok.inj h
  exact ⟨parseSeconds_parsed hstuck, parseSeconds_parsed hbase, parseSeconds_parsed hmax⟩

/-- What the parser guarantees of the password reset policy. -/
structure PasswordResetPolicy.Accepted (policy : PasswordResetPolicy) : Prop where
  window : 1 ≤ policy.rateLimitWindow
  perEmail : policy.maxAttemptsPerEmail < 2 ^ 63
  perUser : policy.maxAttemptsPerUser < 2 ^ 63
  perIp : policy.maxAttemptsPerIp < 2 ^ 63

/-- The reset policy of an accepted object. -/
theorem parsePasswordReset_accepted {json : JsonObject} {policy : PasswordResetPolicy}
    (h : parsePasswordReset json = .ok policy) : policy.Accepted := by
  obtain ⟨_, -, h⟩ := except_bind_eq_ok h
  obtain ⟨_, -, h⟩ := except_bind_eq_ok h
  obtain ⟨_, hwindow, h⟩ := except_bind_eq_ok h
  obtain ⟨_, hemail, h⟩ := except_bind_eq_ok h
  obtain ⟨_, huser, h⟩ := except_bind_eq_ok h
  obtain ⟨_, hip, h⟩ := except_bind_eq_ok h
  obtain rfl := Except.ok.inj h
  exact ⟨parseSeconds_ok hwindow, (parseSize_ok hemail).2, (parseSize_ok huser).2,
    (parseSize_ok hip).2⟩

/-- The reset policy of an accepted runtime configuration. -/
theorem parseAuthRuntimePolicies_accepted {value : AuthRuntimeJson}
    {runtime : AuthRuntimePolicies} (h : parseAuthRuntimePolicies value = .ok runtime) :
    runtime.passwordReset.Accepted := by
  iterate 4 obtain ⟨_, -, h⟩ := except_bind_eq_ok h
  obtain ⟨_, hreset, h⟩ := except_bind_eq_ok h
  obtain rfl := Except.ok.inj h
  exact parsePasswordReset_accepted hreset

end SmirklyAuth
