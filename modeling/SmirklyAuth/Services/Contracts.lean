import SmirklyAuth.Infra.Sql.Postgres

/-!
# `SmirklyAuth.Services.Contracts`: commands, results, policies and ports

The data that `services/contracts`, `services/policies` and `services/ports` declare. The
policies have the defaults of their headers.

`Ports` is what the use cases call and do not define: the hashers, the token provider and
the functions of the database server. A hash may depend on a random salt, so `hash` takes
one, while `verify` is a function of its arguments. A JSON web token carries its claims and
its expiry, so `ParseRefreshToken` is a fixed decoding of the text plus a check against the
clock.
-/

set_option autoImplicit false

namespace SmirklyAuth

/-! ### `services/contracts` -/

/-- `RequestMeta`: the address and the user agent of a request. -/
structure RequestMeta where
  ip : Option Str := none
  userAgent : Option Str := none
  deriving DecidableEq, Repr

/-- The user and the session of an authenticated request. -/
structure AuthContext where
  userId : Uuid
  sessionId : Uuid
  deriving DecidableEq, Repr

/-- `AuthTokens`: the two tokens that a sign-in or a refresh hands out. -/
structure AuthTokens where
  accessToken : Str
  refreshToken : Str
  deriving DecidableEq, Repr

/-- `SignUpCommand`, as the handler builds it from the request. -/
structure SignUpCommand where
  username : Str
  password : Str
  phone : Option Str := none
  email : Option Str := none
  deriving DecidableEq, Repr

/-- `VerifyEmailCommand`. -/
structure VerifyEmailCommand where
  email : Str
  code : Str

/-- `ResendEmailVerificationCommand`. -/
structure ResendEmailVerificationCommand where
  email : Str

/-- `SignInCommand`: one of the three identifiers is enough. -/
structure SignInCommand where
  username : Option Str := none
  email : Option Str := none
  phone : Option Str := none
  password : Str

/-- `SignInResult`. The handler puts the refresh token into the cookie. -/
structure SignInResult where
  user : User
  tokens : AuthTokens
  sessionId : Uuid
  refreshTokenMaxAge : Seconds
  deriving DecidableEq, Repr

/-- `RefreshCommand`: the token of the cookie. -/
structure RefreshCommand where
  refreshToken : Str

/-- `RefreshResult`: the tokens of the session that replaces the old one. -/
structure RefreshResult where
  accessToken : Str
  refreshToken : Str
  sessionId : Uuid
  refreshTokenMaxAge : Seconds
  deriving DecidableEq, Repr

/-- `MeResult`. -/
structure MeResult where
  user : User
  sessionId : Uuid

/-- `ChangePasswordCommand`. -/
structure ChangePasswordCommand where
  currentPassword : Str
  newPassword : Str

/-- `RequestPasswordResetCommand`. -/
structure RequestPasswordResetCommand where
  email : Str

/-- `ConfirmPasswordResetCommand`: the token comes from the mail. -/
structure ConfirmPasswordResetCommand where
  email : Str
  token : Str
  newPassword : Str

/-! ### `services/policies` -/

/-- `SessionPolicy`, with the defaults of the header. -/
structure SessionPolicy where
  refreshTokenTtl : Seconds := 0
  activityUpdateThreshold : Seconds := 300

/-- `SignUpRateLimitPolicy`: how many sign-ups one address may try in a window. -/
structure SignUpRateLimitPolicy where
  window : Seconds := 900
  maxAttemptsPerIp : Nat := 20

/-- `SignInPolicy`: the limits of the three scopes, and whether the email has to be verified. -/
structure SignInPolicy where
  requireVerifiedEmail : Bool := true
  rateLimitWindow : Seconds := 900
  maxAttemptsPerIdentifier : Nat := 10
  maxAttemptsPerUser : Nat := 10
  maxAttemptsPerIp : Nat := 50

/-- `EmailVerificationPolicy`: the lifetime and the guesses of a code, and the limits for new ones.
-/
structure EmailVerificationPolicy where
  codeTtl : Seconds := 900
  maxCodeAttempts : Nat := 5
  rateLimitWindow : Seconds := 900
  maxAttemptsPerEmail : Nat := 5
  maxAttemptsPerUser : Nat := 5
  maxAttemptsPerIp : Nat := 50

/-- `PasswordResetPolicy`: the lifetime and the guesses of a token, and the limits for new ones. -/
structure PasswordResetPolicy where
  tokenTtl : Seconds := 900
  maxTokenAttempts : Nat := 5
  rateLimitWindow : Seconds := 900
  maxAttemptsPerEmail : Nat := 5
  maxAttemptsPerUser : Nat := 5
  maxAttemptsPerIp : Nat := 50

/-- `kMaxPasswordLength`. -/
def kMaxPasswordLength : Nat := 256

/-- `PasswordPolicy`: the lengths of a password, in bytes. -/
structure PasswordPolicy where
  minLength : Nat := 8
  maxLength : Nat := kMaxPasswordLength

/-- `SignUpPolicy`: which fields a sign-up has to give. -/
structure SignUpPolicy where
  password : PasswordPolicy := {}
  requireEmail : Bool := false
  requirePhone : Bool := false
  requireContact : Bool := true

/-- What `AuthRuntimePolicyProvider::Get` returns. -/
structure AuthRuntimePolicies where
  session : SessionPolicy := {}
  signUp : SignUpRateLimitPolicy := {}
  signIn : SignInPolicy := {}
  emailVerification : EmailVerificationPolicy := {}
  passwordReset : PasswordResetPolicy := {}

/-- `EmailOutboxRuntimeConfig`. -/
structure EmailOutboxRuntimeConfig where
  processingEnabled : Bool := true
  batchSize : Nat := 20
  maxAttempts : Nat := 10
  stuckTimeout : Seconds := 300
  retryBaseDelay : Seconds := 2
  retryMaxDelay : Seconds := 600

/-- `IsRateLimitExceeded`. -/
def isRateLimitExceeded (count limit : Nat) : Bool := 0 < limit && limit ≤ count

/-- `ShouldUpdateLastUsed`. -/
def shouldUpdateLastUsed (session : Session) (now : Time) (threshold : Seconds) : Bool :=
  match session.lastUsedAt with
  | none => true
  | some lastUsedAt => lastUsedAt.plus threshold ≤ now

/-! ### `services/ports` -/

/-- `PasswordHasher`, as its interface has it. -/
structure PasswordHasher where
  /-- `Hash(password)` with the salt it draws. -/
  hash : Str → Str → Str
  verify : Str → Str → Bool

/-- `TokenHasher`, as its interface has it. -/
structure TokenHasher where
  hash : Str → Str
  verify : Str → Str → Bool

/-- The first argument of both functions is the user id. -/
structure VerificationCodeHasher where
  hash : Uuid → Str → Str
  verify : Uuid → Str → Str → Bool

/-- `RefreshTokenClaims`. A token without a family is read, and refused by the service. -/
structure RefreshTokenClaims where
  userId : Uuid
  sessionId : Uuid
  tokenFamilyId : Option Uuid
  deriving DecidableEq, Repr

/-- `AccessTokenClaims`. -/
structure AccessTokenClaims where
  userId : Uuid
  sessionId : Uuid
  deriving DecidableEq, Repr

/-- `JwtTokenProvider`, as its interface has it. -/
structure JwtTokenProvider where
  /-- `GenerateTokens(user_id, session_id, token_family_id)` at a time. -/
  generateTokens : Uuid → Uuid → Uuid → Time → AuthTokens
  /-- The claims of a well-formed refresh token of this provider. -/
  refreshTokenClaims : Str → Option RefreshTokenClaims
  /-- The claims of a well-formed access token of this provider. -/
  accessTokenClaims : Str → Option AccessTokenClaims
  /-- Whether the expiry check of the decoder passes at a time. -/
  unexpired : Str → Time → Bool

namespace JwtTokenProvider

/-- `ParseRefreshToken`: `none` is the exception `InvalidRefreshToken`. -/
def parseRefreshToken (p : JwtTokenProvider) (token : Str) (now : Time) :
    Option RefreshTokenClaims :=
  if p.unexpired token now then p.refreshTokenClaims token else none

/-- `ParseAccessToken`: `none` is the exception `InvalidAccessToken`. -/
def parseAccessToken (p : JwtTokenProvider) (token : Str) (now : Time) :
    Option AccessTokenClaims :=
  if p.unexpired token now then p.accessTokenClaims token else none

end JwtTokenProvider

/-- `VerificationEmail`: the mail with a code. -/
structure VerificationEmail where
  toEmail : Str
  code : Str
  correlationId : Str
  locale : Str
  deriving DecidableEq, Repr

/-- `PasswordResetEmail`: the mail with a token. -/
structure PasswordResetEmail where
  toEmail : Str
  token : Str
  correlationId : Str
  locale : Str
  deriving DecidableEq, Repr

/-- The argument of one of the two methods of `EmailVerificationSender`. -/
inductive EmailMessage where
  | verification (email : VerificationEmail)
  | passwordReset (email : PasswordResetEmail)
  deriving DecidableEq, Repr

/-- `EnqueueEmail`: a mail for the outbox, with the members of its JSON payload. -/
structure EnqueueEmail where
  toEmail : Str
  templateName : Str
  payload : List (Str × Str)
  correlationId : Str

/-- A claimed job. `next_attempt_at`, which the worker does not read, is left out. -/
structure EmailOutboxEntry where
  id : Uuid
  leaseId : Uuid
  toEmail : Str
  templateName : Str
  payload : List (Str × Str)
  correlationId : Str
  attempts : Nat
  deriving DecidableEq, Repr

/-- What the services are built over: the database and the ports of the other layers. -/
structure Ports where
  pg : Postgres
  passwordHasher : PasswordHasher
  refreshTokenHasher : TokenHasher
  resetTokenHasher : TokenHasher
  verificationCodeHasher : VerificationCodeHasher
  tokenProvider : JwtTokenProvider

end SmirklyAuth
