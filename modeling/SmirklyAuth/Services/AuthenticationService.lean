import SmirklyAuth.Services.Factories
import SmirklyAuth.Services.Validation

/-!
# `SmirklyAuth.Services.AuthenticationService`: sign-in, refresh and access tokens

`AuthenticationService` of `services/usecases`. The policies are what the runtime policy
provider returned at the start of the call. Each transaction is a definition of its own,
named after the label that the source passes to `Begin`.
-/

set_option autoImplicit false

namespace SmirklyAuth

open Service

namespace AuthenticationService

/-- The user lookup of `SignIn`. The validator leaves one identifier. -/
def findSignInUser (pg : Postgres) (input : NormalizedSignInInput) (db : Db) : Option User :=
  match input.username, input.email, input.phone with
  | some username, _, _ => usersSelectByUsername pg username db.users
  | none, some email, _ => usersSelectByEmail pg email db.users
  | none, none, some phone => usersSelectByPhone phone db.users
  | none, none, none => none

/-- The transaction `auth.sign_in.record_attempt`. -/
def recordAttemptTx (pg : Postgres) (policy : SignInPolicy) (identifier : Str)
    (userId : Option Uuid) (reqMeta : RequestMeta) (now since : Time) : Tx Unit := do
  let recorded ← SignInAttemptRepository.tryRecordAttempt pg
    (attemptArgs pg identifier userId reqMeta now since policy.maxAttemptsPerIdentifier
      policy.maxAttemptsPerUser policy.maxAttemptsPerIp)
  Tx.require recorded (.tooManySignInAttempts "too many sign-in attempts")

/-- The lambda `record_failed_attempt`. -/
def recordFailedAttempt (pg : Postgres) (policy : SignInPolicy) (identifier : Str)
    (userId : Option Uuid) (reqMeta : RequestMeta) (now since : Time) : Service Unit :=
  transaction (fun _ => .signInAttempt identifier now) fun _ =>
    recordAttemptTx pg policy identifier userId reqMeta now since

/-- The transaction `auth.sign_in`. -/
def signInTx (pg : Postgres) (policy : SessionPolicy) (userId : Uuid) (reqMeta : RequestMeta)
    (sessionId familyId : Uuid) (hash : Str) (i : Input) : Tx Session := do
  let device ← DeviceRepository.insert i (DeviceFactory.webDevice userId)
  SessionRepository.insert pg i
    (SessionFactory.createForSignIn i.now sessionId userId device.id hash familyId reqMeta
      policy.refreshTokenTtl)

/-- `IdGenerator::Generate`. -/
def generateId : Service Uuid := port .generatedId fun i _ => i.generatedId

/-- The part of `SignIn` after the checks. -/
def openSession (ports : Ports) (policy : SessionPolicy) (user : User)
    (reqMeta : RequestMeta) : Service SignInResult := do
  let sessionId ← generateId
  let familyId ← generateId
  let tokens ← port .generatedTokens fun i _ =>
    ports.tokenProvider.generateTokens user.id sessionId familyId i.now
  let hash ← port .hashedToken fun _ _ => ports.refreshTokenHasher.hash tokens.refreshToken
  let session ← transaction (fun session => .signedIn session.id) fun i =>
    signInTx ports.pg policy user.id reqMeta sessionId familyId hash i
  return { user, tokens, sessionId := session.id, refreshTokenMaxAge := policy.refreshTokenTtl }

/-- The pre-check of the three rate limits. -/
def signInLimitsExceeded (policy : SignInPolicy) (counters : AttemptCounters) : Bool :=
  isRateLimitExceeded counters.identifier policy.maxAttemptsPerIdentifier ||
    isRateLimitExceeded counters.user policy.maxAttemptsPerUser ||
    isRateLimitExceeded counters.ip policy.maxAttemptsPerIp

/-- `SignIn`. -/
def signIn (ports : Ports) (policies : AuthRuntimePolicies) (cmd : SignInCommand)
    (reqMeta : RequestMeta) : Service SignInResult := do
  let input ← validated (signInValidateAndNormalize cmd)
  let now ← clock
  let user? ← port .foundUser fun _ db => findSignInUser ports.pg input db
  let userId := user?.map (·.id)
  let since := now.minus policies.signIn.rateLimitWindow
  let counters? ← port .countedAttempts fun _ db =>
    SignInAttemptRepository.countRecentAttempts ports.pg input.rateLimitIdentifier userId
      reqMeta.ip since db
  let counters ← orThrow counters? invalidInet
  throwIf (signInLimitsExceeded policies.signIn counters)
    (.tooManySignInAttempts "too many sign-in attempts")
  let record := recordFailedAttempt ports.pg policies.signIn input.rateLimitIdentifier userId
    reqMeta now since
  match user? with
  | none =>
      record
      throw (.invalidCredentials "invalid credentials")
  | some user =>
      let verified ← port (.verifiedPassword user.password) fun _ _ =>
        ports.passwordHasher.verify cmd.password user.password
      if !verified then
        record
        throw (.invalidCredentials "invalid credentials")
      else if policies.signIn.requireVerifiedEmail && user.email.isSome &&
          !user.isEmailVerified then
        record
        throw (.emailNotVerified "email is not verified")
      else
        openSession ports policies.session user reqMeta

/-- The transaction `auth.refresh`. -/
def refreshTx (pg : Postgres) (session : Session) (data : NewSessionData) (i : Input) :
    Tx Session := do
  let replacement ← SessionRepository.insert pg i data
  let replaced ← SessionRepository.revokeAndReplace i session.id replacement.id
  Tx.require replaced (.refreshSessionRevoked "session already rotated")
  return replacement

/-- The branch of `Refresh` for a revoked session. -/
def refreshRevoked (ports : Ports) (cmd : RefreshCommand) (session : Session) :
    Service RefreshResult := do
  let reused ← port .verifiedToken fun _ _ =>
    ports.refreshTokenHasher.verify cmd.refreshToken session.refreshTokenHash
  if reused then
    let _ ← transaction (fun _ => .reuseDetected session.userId session.tokenFamilyId) fun i =>
      SessionRepository.revokeByTokenFamily i session.userId session.tokenFamilyId
    throw (.refreshTokenReuseDetected "refresh token reuse detected")
  else
    throw (.refreshSessionRevoked "session revoked")

/-- The branch of `Refresh` for an active session. -/
def refreshActive (ports : Ports) (policy : SessionPolicy) (cmd : RefreshCommand)
    (reqMeta : RequestMeta) (session : Session) (now : Time) : Service RefreshResult := do
  throwIf (session.expiresAt ≤ now) (.refreshSessionExpired "session expired")
  let verified ← port .verifiedToken fun _ _ =>
    ports.refreshTokenHasher.verify cmd.refreshToken session.refreshTokenHash
  throwIf (!verified) (.invalidRefreshToken "refresh token hash mismatch")
  let newSessionId ← generateId
  let tokens ← port .generatedTokens fun i _ =>
    ports.tokenProvider.generateTokens session.userId newSessionId session.tokenFamilyId i.now
  let hash ← port .hashedToken fun _ _ => ports.refreshTokenHasher.hash tokens.refreshToken
  let rotationNow ← clock
  let replacement ← transaction (fun replacement => .rotated session.id replacement.id)
    (refreshTx ports.pg session
      (SessionFactory.createForRefreshRotation rotationNow newSessionId session hash reqMeta
        policy.refreshTokenTtl))
  return { accessToken := tokens.accessToken, refreshToken := tokens.refreshToken
           sessionId := replacement.id, refreshTokenMaxAge := policy.refreshTokenTtl }

/-- `Refresh`. -/
def refresh (ports : Ports) (policies : AuthRuntimePolicies) (cmd : RefreshCommand)
    (reqMeta : RequestMeta) : Service RefreshResult := do
  throwIf cmd.refreshToken.isEmpty (.invalidRefreshToken "refresh token is empty")
  let parsed ← port (fun r => .parsedRefreshToken r.1 r.2) fun i _ =>
    (i.now, ports.tokenProvider.parseRefreshToken cmd.refreshToken i.now)
  let claims ← orThrow parsed.2 (.invalidRefreshToken "invalid refresh token")
  let session? ← port .foundSession fun _ db =>
    SessionRepository.findById ports.pg claims.sessionId db
  let session ← orThrow session? (.refreshSessionNotFound "session not found")
  let now ← clock
  throwIf (session.userId != claims.userId)
    (.invalidRefreshToken "refresh token subject mismatch")
  throwIf (claims.tokenFamilyId != some session.tokenFamilyId)
    (.invalidRefreshToken "refresh token family mismatch")
  if session.revokedAt.isSome then refreshRevoked ports cmd session
  else refreshActive ports policies.session cmd reqMeta session now

/-- `AuthenticateAccessToken`. -/
def authenticateAccessToken (ports : Ports) (policies : AuthRuntimePolicies)
    (accessToken : Str) : Service AuthContext := do
  throwIf accessToken.isEmpty (.missingAccessToken "access token is required")
  let parsed ← port (fun r => .parsedAccessToken r.1 r.2) fun i _ =>
    (i.now, ports.tokenProvider.parseAccessToken accessToken i.now)
  let claims ← orThrow parsed.2 (.invalidAccessToken "invalid access token")
  let session? ← port .foundSession fun _ db =>
    SessionRepository.findById ports.pg claims.sessionId db
  let session ← orThrow session? (.authSessionNotFound "session not found")
  throwIf (session.userId != claims.userId)
    (.invalidAccessToken "access token subject mismatch")
  throwIf session.revokedAt.isSome (.authSessionRevoked "session revoked")
  let now ← clock
  throwIf (session.expiresAt ≤ now) (.authSessionExpired "session expired")
  let user? ← port .foundUser fun _ db => usersSelectById claims.userId db.users
  let _ ← orThrow user? (.authUserNotFound "user not found")
  if shouldUpdateLastUsed session now policies.session.activityUpdateThreshold then
    let _ ← transaction (fun _ => .sessionActivity session.id) fun _ =>
      SessionRepository.updateLastUsed session.id now
    return { userId := claims.userId, sessionId := claims.sessionId }
  else
    return { userId := claims.userId, sessionId := claims.sessionId }

end AuthenticationService

end SmirklyAuth
