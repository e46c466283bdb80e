import SmirklyAuth.Protocol.Exceptions
import SmirklyAuth.Protocol.SignUpRows

/-!
# `SmirklyAuth.Protocol.Steps`: what a call can do, by its history

The protocol of the service. The state of a call is the list of events it has emitted.

* `Reads app r evs e db`: a call with the request `r` and the history `evs` may make the
  read, hash or clock call with event `e`; the database is `db` and does not change.
* `Commits app r evs t db db'`: it may commit the transaction `t`, which takes the database
  from `db` to `db'`.
* `Finishes app r evs res`: it may end with `res`.

A history names the values that the later steps use, so the data flow of a use case is
visible in its constructors. A call can also abort (`Command.mayAbort`), and then it throws the
exception of its last step. Every exception is one that the command lists (`Command.Ends`).
-/

set_option autoImplicit false

namespace SmirklyAuth

open Interleaving

/-- The session and the owner that `RevokeSession` and `RevokeCurrentSession` act on. -/
def Command.revocation : Command → Option (AuthContext × Uuid)
  | .revokeSession context sessionId => some (context, sessionId)
  | .revokeCurrentSession context => some (context, context.sessionId)
  | _ => none

/-- Whether a transaction after `evs` can be rolled back. `Refresh` has two transactions:
the rotation, which comes after eight other steps, and the revocation of a family, in which
no statement throws. No statement throws in the revocation of one session. -/
def Command.mayRollBack : Command → List Event → Bool
  | .refresh _ _, evs => evs.length == 8
  | .revokeSession _ _, _ => false
  | .revokeCurrentSession _, _ => false
  | _, _ => true

/-- The history of a `Refresh` call that has revoked a family, which is its last step. -/
def Command.detectedReuse : Command → List Event → Bool
  | .refresh _ _, [_, _, _, _, .committed (.reuseDetected _ _)] => true
  | _, _ => false

/-- The steps that abort. -/
def Command.mayAbort (command : Command) (evs : List Event) : Event → Bool
  | .failed _ => !command.detectedReuse evs
  | .rolledBack _ => command.mayRollBack evs
  | _ => false

/-- The exception of a step that aborts. -/
def Event.thrown : Event → Option Error
  | .failed what => some (.runtimeError what)
  | .rolledBack x => some x
  | _ => none

/-- The account that an event names: the user that was found, the subject of a token that was
accepted, or the user that signed up. -/
def Event.namedUser : Event → Option Uuid
  | .foundUser user => user.map (·.id)
  | .parsedRefreshToken _ claims => claims.map (·.userId)
  | .parsedAccessToken _ claims => claims.map (·.userId)
  | .committed (.signedUp userId) => some userId
  | _ => none

/-- No event names an account. -/
def Nameless (evs : List Event) : Prop := ∀ e ∈ evs, e.namedUser = none

/-- The checks of `Refresh` on the claims of a token and the session they name. -/
structure RefreshChecked (app : App) (cmd : RefreshCommand) (t : Time)
    (claims : RefreshTokenClaims) (s : Session) : Prop where
  nonempty : cmd.refreshToken ≠ []
  session : s.id = claims.sessionId
  parsed : app.ports.tokenProvider.parseRefreshToken cmd.refreshToken t = some claims
  user : s.userId = claims.userId
  family : claims.tokenFamilyId = some s.tokenFamilyId

/-- The checks on a token and on the session that it names. -/
structure AccessChecked (app : App) (token : Str) (t : Time) (claims : AccessTokenClaims)
    (session : Session) (now : Time) : Prop where
  parsed : app.ports.tokenProvider.parseAccessToken token t = some claims
  id : session.id = claims.sessionId
  user : session.userId = claims.userId
  active : session.revokedAt = none
  unexpired : now < session.expiresAt

/-- The first events of a `SignIn` call that found a user. -/
def signInEvents (now : Time) (user : User) (n : AttemptCounters) : List Event :=
  [.clock now, .foundUser (some user), .countedAttempts (some n)]

/-- The first events of a `Refresh` call that found a session. -/
def refreshEvents (t : Time) (claims : RefreshTokenClaims) (s : Session) (now : Time) :
    List Event :=
  [.parsedRefreshToken t (some claims), .foundSession (some s), .clock now]

/-- The events of an authentication up to its decision. -/
def accessEvents (parsedAt : Time) (claims : AccessTokenClaims) (session : Session) (now : Time)
    (user : User) : List Event :=
  [.parsedAccessToken parsedAt (some claims), .foundSession (some session), .clock now,
    .foundUser (some user)]

/-- The first events of a `ConfirmReset` call that found a user. -/
def confirmResetEvents (now : Time) (user : User) : List Event :=
  [.clock now, .foundUser (some user), .committed .resetAttempt]

/-- The first events of a `VerifyEmail` call that found a user. -/
def verifyEmailEvents (now : Time) (user : User) : List Event :=
  [.clock now, .foundUser (some user), .committed .verificationAttempt]

/-- How `RevokeSession` ends, if it does not abort. -/
inductive RevocationEnds (context : AuthContext) (sessionId : Uuid) :
    List Event → Except Error Response → Prop where
  | already {s : Session} (hid : s.id = sessionId) (huser : s.userId = context.userId)
      (hrevoked : s.revokedAt.isSome = true) :
      RevocationEnds context sessionId [.foundSession (some s)] (.ok .done)
  | revoked {s : Session} (huser : s.userId = context.userId) :
      RevocationEnds context sessionId
        [.foundSession (some s), .committed (.revoked sessionId)] (.ok .done)
  | notFound :
      RevocationEnds context sessionId [.foundSession none]
        (.error (.sessionNotFound "session not found"))
  | forbidden {s : Session} (huser : s.userId ≠ context.userId) :
      RevocationEnds context sessionId [.foundSession (some s)]
        (.error (.sessionForbidden "session belongs to another user"))

/-- The ends of the commands that have no constructors of their own in `Finishes`. -/
def OtherEnds (app : App) (command : Command) (evs : List Event)
    (res : Except Error Response) : Prop :=
  match command with
  | .signIn _ _ | .refresh _ _ | .verifyEmail _ _ | .confirmReset _ _
  | .authenticateAccessToken _ => False
  | .signUp cmd _ => ∀ user, res = .ok (.signedUp user) →
      Registered app cmd user ∧ .committed (.signedUp user.id) ∈ evs
  | .revokeSession context sessionId => RevocationEnds context sessionId evs res
  | .revokeCurrentSession context => RevocationEnds context context.sessionId evs res
  | .revokeAllSessions context => ∀ response, res = .ok response →
      .committed (.revokedAll context.userId) ∈ evs
  | .changePassword context _ => ∀ response, res = .ok response →
      ∃ hash, .committed (.passwordChanged context.userId hash) ∈ evs
  | _ => True

section
variable (app : App)

/-- The steps that leave the database as it is. -/
inductive Reads : Request → List Event → Event → Db → Prop where
  -- `SignIn`
  | signInClock {p cmd m now db} : Reads ⟨p, .signIn cmd m⟩ [] (.clock now) db
  | signInUser {p cmd m now db input} (hin : signInValidateAndNormalize cmd = .ok input) :
      Reads ⟨p, .signIn cmd m⟩ [.clock now]
        (.foundUser (AuthenticationService.findSignInUser app.ports.pg input db)) db
  | signInCount {p cmd m now db input user?}
      (hin : signInValidateAndNormalize cmd = .ok input) :
      Reads ⟨p, .signIn cmd m⟩ [.clock now, .foundUser user?]
        (.countedAttempts (SignInAttemptRepository.countRecentAttempts app.ports.pg
          input.rateLimitIdentifier (user?.map (·.id)) m.ip
          (now.minus p.signIn.rateLimitWindow) db)) db
  | signInVerify {p cmd m now db user n}
      (hlim : AuthenticationService.signInLimitsExceeded p.signIn n = false) :
      Reads ⟨p, .signIn cmd m⟩ (signInEvents now user n)
        (.verifiedPassword user.password
          (app.ports.passwordHasher.verify cmd.password user.password)) db
  | signInSessionId {p cmd m now db user n sid} :
      Reads ⟨p, .signIn cmd m⟩
        (signInEvents now user n ++ [.verifiedPassword user.password true])
        (.generatedId sid) db
  | signInFamilyId {p cmd m now db user n sid fam} :
      Reads ⟨p, .signIn cmd m⟩
        (signInEvents now user n ++ [.verifiedPassword user.password true, .generatedId sid])
        (.generatedId fam) db
  | signInTokens {p cmd m now db user n sid fam tokens} :
      Reads ⟨p, .signIn cmd m⟩
        (signInEvents now user n ++ [.verifiedPassword user.password true, .generatedId sid,
          .generatedId fam])
        (.generatedTokens tokens) db
  | signInHash {p cmd m now db user n sid fam tokens} :
      Reads ⟨p, .signIn cmd m⟩
        (signInEvents now user n ++ [.verifiedPassword user.password true, .generatedId sid,
          .generatedId fam, .generatedTokens tokens])
        (.hashedToken (app.ports.refreshTokenHasher.hash tokens.refreshToken)) db
  -- `Refresh`
  | refreshParse {p cmd m t db} :
      Reads ⟨p, .refresh cmd m⟩ []
        (.parsedRefreshToken t
          (app.ports.tokenProvider.parseRefreshToken cmd.refreshToken t)) db
  | refreshFind {p cmd m t claims db} :
      Reads ⟨p, .refresh cmd m⟩ [.parsedRefreshToken t (some claims)]
        (.foundSession (SessionRepository.findById app.ports.pg claims.sessionId db)) db
  | refreshClock {p cmd m t claims s now db} :
      Reads ⟨p, .refresh cmd m⟩ [.parsedRefreshToken t (some claims), .foundSession (some s)]
        (.clock now) db
  | refreshVerify {p cmd m t claims s now db} (hchecked : RefreshChecked app cmd t claims s) :
      Reads ⟨p, .refresh cmd m⟩ (refreshEvents t claims s now)
        (.verifiedToken
          (app.ports.refreshTokenHasher.verify cmd.refreshToken s.refreshTokenHash)) db
  | refreshSessionId {p cmd m t claims s now sid db} (hactive : s.revokedAt.isSome = false) :
      Reads ⟨p, .refresh cmd m⟩ (refreshEvents t claims s now ++ [.verifiedToken true])
        (.generatedId sid) db
  | refreshTokens {p cmd m t claims s now sid tokens db} :
      Reads ⟨p, .refresh cmd m⟩
        (refreshEvents t claims s now ++ [.verifiedToken true, .generatedId sid])
        (.generatedTokens tokens) db
  | refreshHash {p cmd m t claims s now sid tokens db} :
      Reads ⟨p, .refresh cmd m⟩
        (refreshEvents t claims s now ++ [.verifiedToken true, .generatedId sid,
          .generatedTokens tokens])
        (.hashedToken (app.ports.refreshTokenHasher.hash tokens.refreshToken)) db
  | refreshRotationClock {p cmd m t claims s now sid tokens hash rotationNow db} :
      Reads ⟨p, .refresh cmd m⟩
        (refreshEvents t claims s now ++ [.verifiedToken true, .generatedId sid,
          .generatedTokens tokens, .hashedToken hash])
        (.clock rotationNow) db
  -- `AuthenticateAccessToken`
  | accessParse {p token t db} :
      Reads ⟨p, .authenticateAccessToken token⟩ []
        (.parsedAccessToken t (app.ports.tokenProvider.parseAccessToken token t)) db
  | accessFind {p token t claims db} :
      Reads ⟨p, .authenticateAccessToken token⟩ [.parsedAccessToken t (some claims)]
        (.foundSession (SessionRepository.findById app.ports.pg claims.sessionId db)) db
  | accessClock {p token t claims s now db} :
      Reads ⟨p, .authenticateAccessToken token⟩
        [.parsedAccessToken t (some claims), .foundSession (some s)] (.clock now) db
  | accessUser {p token t claims s now db} :
      Reads ⟨p, .authenticateAccessToken token⟩
        [.parsedAccessToken t (some claims), .foundSession (some s), .clock now]
        (.foundUser (usersSelectById claims.userId db.users)) db
  -- `ListSessions`, `RevokeSession`, `GetCurrentUser`
  | listSessions {p context i db} :
      Reads ⟨p, .listSessions context⟩ []
        (.listedSessions
          (SessionRepository.listActiveByUserId app.ports.pg i context.userId db)) db
  | revokeFind {p command context sessionId db}
      (hcmd : Command.revocation command = some (context, sessionId)) :
      Reads ⟨p, command⟩ []
        (.foundSession (SessionRepository.findById app.ports.pg sessionId db)) db
  | currentUser {p context db} :
      Reads ⟨p, .getCurrentUser context⟩ []
        (.foundUser (usersSelectById context.userId db.users)) db
  -- `ChangePassword`
  | changeUser {p context cmd db} :
      Reads ⟨p, .changePassword context cmd⟩ []
        (.foundUser (usersSelectById context.userId db.users)) db
  | changeVerify {p context cmd user db} :
      Reads ⟨p, .changePassword context cmd⟩ [.foundUser (some user)]
        (.verifiedPassword user.password
          (app.ports.passwordHasher.verify cmd.currentPassword user.password)) db
  | changeCompare {p context cmd user db} :
      Reads ⟨p, .changePassword context cmd⟩
        [.foundUser (some user), .verifiedPassword user.password true]
        (.verifiedPassword user.password
          (app.ports.passwordHasher.verify cmd.newPassword user.password)) db
  | changeHash {p context cmd user salt db} :
      Reads ⟨p, .changePassword context cmd⟩
        [.foundUser (some user), .verifiedPassword user.password true,
          .verifiedPassword user.password false]
        (.hashedPassword (app.ports.passwordHasher.hash cmd.newPassword salt)) db
  -- `RequestReset` and `ConfirmReset`
  | requestClock {p cmd m now db} : Reads ⟨p, .requestReset cmd m⟩ [] (.clock now) db
  | requestUser {p cmd m now db} :
      Reads ⟨p, .requestReset cmd m⟩ [.clock now]
        (.foundUser (usersSelectByEmail app.ports.pg cmd.email db.users)) db
  | confirmClock {p cmd m now db} : Reads ⟨p, .confirmReset cmd m⟩ [] (.clock now) db
  | confirmUser {p cmd m now db} :
      Reads ⟨p, .confirmReset cmd m⟩ [.clock now]
        (.foundUser (usersSelectByEmail app.ports.pg cmd.email db.users)) db
  | confirmFind {p cmd m now user db} :
      Reads ⟨p, .confirmReset cmd m⟩ (confirmResetEvents now user)
        (.foundReset (PasswordResetRepository.findActiveByUserId user.id now
          p.passwordReset.maxTokenAttempts db)) db
  | confirmVerify {p cmd m now user row db}
      (hfound : CodeFound user.id now p.passwordReset.maxTokenAttempts row) :
      Reads ⟨p, .confirmReset cmd m⟩
        (confirmResetEvents now user ++ [.foundReset (some row)])
        (.verifiedResetToken row.id
          (app.ports.resetTokenHasher.verify cmd.token row.secretHash)) db
  | confirmCompare {p cmd m now user row db} :
      Reads ⟨p, .confirmReset cmd m⟩
        (confirmResetEvents now user ++ [.foundReset (some row),
          .verifiedResetToken row.id true])
        (.verifiedPassword user.password
          (app.ports.passwordHasher.verify cmd.newPassword user.password)) db
  | confirmHash {p cmd m now user row salt db} :
      Reads ⟨p, .confirmReset cmd m⟩
        (confirmResetEvents now user ++ [.foundReset (some row),
          .verifiedResetToken row.id true, .verifiedPassword user.password false])
        (.hashedPassword (app.ports.passwordHasher.hash cmd.newPassword salt)) db
  -- `VerifyEmail` and `ResendEmailVerification`
  | verifyClock {p cmd m now db} : Reads ⟨p, .verifyEmail cmd m⟩ [] (.clock now) db
  | verifyUser {p cmd m now db} :
      Reads ⟨p, .verifyEmail cmd m⟩ [.clock now]
        (.foundUser (usersSelectByEmail app.ports.pg cmd.email db.users)) db
  | verifyFind {p cmd m now user db} :
      Reads ⟨p, .verifyEmail cmd m⟩ (verifyEmailEvents now user)
        (.foundVerification (EmailVerificationRepository.findActiveByUserId user.id now
          p.emailVerification.maxCodeAttempts db)) db
  | verifyVerify {p cmd m now user row db}
      (hfound : CodeFound user.id now p.emailVerification.maxCodeAttempts row) :
      Reads ⟨p, .verifyEmail cmd m⟩
        (verifyEmailEvents now user ++ [.foundVerification (some row)])
        (.verifiedCode row.id
          (app.ports.verificationCodeHasher.verify user.id cmd.code row.secretHash)) db
  | resendClock {p cmd m now db} :
      Reads ⟨p, .resendEmailVerification cmd m⟩ [] (.clock now) db
  | resendUser {p cmd m now db} :
      Reads ⟨p, .resendEmailVerification cmd m⟩ [.clock now]
        (.foundUser (usersSelectByEmail app.ports.pg cmd.email db.users)) db
  -- `SignUp`
  | signUpClock {p cmd m now db} : Reads ⟨p, .signUp cmd m⟩ [] (.clock now) db
  | signUpExists {p cmd m evs answer db} :
      Reads ⟨p, .signUp cmd m⟩ evs (.userExists answer) db
  | signUpHash {p cmd m evs salt db} :
      Reads ⟨p, .signUp cmd m⟩ evs
        (.hashedPassword (app.ports.passwordHasher.hash cmd.password salt)) db
  -- `Tick`
  | tickClock {p cfg now db} : Reads ⟨p, .tick cfg⟩ [] (.clock now) db
  | tickSend {p cfg evs jobs job message now error db}
      (hclaimed : Event.committed (.claimed jobs) ∈ evs) (hjob : job ∈ jobs)
      (hmessage : EmailOutboxProcessor.parseMessage job = .ok message) :
      Reads ⟨p, .tick cfg⟩ evs (.sentEmail job.id message now error) db
  | tickOutcome {p cfg evs outcome db} :
      Reads ⟨p, .tick cfg⟩ evs (.deliveryOutcome outcome) db
  | tickError {p cfg evs stage db} : Reads ⟨p, .tick cfg⟩ evs (.outboxError stage) db

/-- The transactions, one constructor for each `Begin` of the source. -/
inductive Commits : Request → List Event → TxEvent → Db → Db → Prop where
  | signUpAttempt {p cmd m ip now db db'} (hip : RequestMeta.ip m = some ip)
      (htx : IdentityService.signUpRateLimitTx app.ports.pg p.signUp ip now db =
        .ok ((), db')) :
      Commits ⟨p, .signUp cmd m⟩ [.clock now] .signUpAttempt db db'
  | signedUp {p cmd m evs data i user db db'} (hnamed : Nameless evs)
      (hregistered : Registered app cmd user)
      (htx : IdentityService.signUpTx app.ports p.emailVerification data m i db =
        .ok (user, db')) :
      Commits ⟨p, .signUp cmd m⟩ evs (.signedUp user.id) db db'
  | verificationAttempt {p cmd m now user? db db'}
      (htx : IdentityService.recordAttemptTx app.ports.pg p.emailVerification cmd.email
        (user?.map (·.id)) m now db = .ok ((), db')) :
      Commits ⟨p, .verifyEmail cmd m⟩ [.clock now, .foundUser user?] .verificationAttempt
        db db'
  | codeRejected {p cmd m now user row updated db db'}
      (hfound : CodeFound user.id now p.emailVerification.maxCodeAttempts row)
      (htx : EmailVerificationRepository.incrementAttempts row.id now
        p.emailVerification.maxCodeAttempts db = .ok (updated, db')) :
      Commits ⟨p, .verifyEmail cmd m⟩
        (verifyEmailEvents now user ++ [.foundVerification (some row),
          .verifiedCode row.id false])
        (.codeRejected row.id) db db'
  | emailVerified {p cmd m now user row db db'}
      (hfound : CodeFound user.id now p.emailVerification.maxCodeAttempts row)
      (htx : IdentityService.verifyEmailTx p.emailVerification row.id user.id now db =
        .ok ((), db')) :
      Commits ⟨p, .verifyEmail cmd m⟩
        (verifyEmailEvents now user ++ [.foundVerification (some row),
          .verifiedCode row.id true])
        (.emailVerified row.id user.id) db db'
  | verificationResent {p cmd m now user? i db db'}
      (htx : IdentityService.resendTx app.ports p.emailVerification cmd.email user? m now i db
        = .ok ((), db')) :
      Commits ⟨p, .resendEmailVerification cmd m⟩ [.clock now, .foundUser user?]
        .verificationResent db db'
  | unknownUser {p cmd m now n input db db'}
      (hin : signInValidateAndNormalize cmd = .ok input)
      (htx : AuthenticationService.recordAttemptTx app.ports.pg p.signIn
        input.rateLimitIdentifier none m now (now.minus p.signIn.rateLimitWindow) db =
        .ok ((), db')) :
      Commits ⟨p, .signIn cmd m⟩
        [.clock now, .foundUser none, .countedAttempts (some n)]
        (.signInAttempt input.rateLimitIdentifier now) db db'
  | signInRejected {p cmd m now user n ok input db db'}
      (hin : signInValidateAndNormalize cmd = .ok input)
      (htx : AuthenticationService.recordAttemptTx app.ports.pg p.signIn
        input.rateLimitIdentifier (some user.id) m now (now.minus p.signIn.rateLimitWindow)
        db = .ok ((), db')) :
      Commits ⟨p, .signIn cmd m⟩
        (signInEvents now user n ++ [.verifiedPassword user.password ok])
        (.signInAttempt input.rateLimitIdentifier now) db db'
  | signedIn {p cmd m now user n sid fam tokens hash i session db db'}
      (htx : AuthenticationService.signInTx app.ports.pg p.session user.id m sid fam hash i db
        = .ok (session, db')) :
      Commits ⟨p, .signIn cmd m⟩
        (signInEvents now user n ++ [.verifiedPassword user.password true, .generatedId sid,
          .generatedId fam, .generatedTokens tokens, .hashedToken hash])
        (.signedIn session.id) db db'
  | reuseDetected {p cmd m t claims s now i updated db db'}
      (hchecked : RefreshChecked app cmd t claims s) (hrevoked : s.revokedAt.isSome = true)
      (htx : SessionRepository.revokeByTokenFamily i s.userId s.tokenFamilyId db =
        .ok (updated, db')) :
      Commits ⟨p, .refresh cmd m⟩ (refreshEvents t claims s now ++ [.verifiedToken true])
        (.reuseDetected s.userId s.tokenFamilyId) db db'
  | rotated {p cmd m t claims s now sid tokens hash rotationNow i replacement db db'}
      (hchecked : RefreshChecked app cmd t claims s) (hactive : s.revokedAt.isSome = false)
      (htx : AuthenticationService.refreshTx app.ports.pg s
        (SessionFactory.createForRefreshRotation rotationNow sid s hash m
          p.session.refreshTokenTtl) i db = .ok (replacement, db')) :
      Commits ⟨p, .refresh cmd m⟩
        (refreshEvents t claims s now ++ [.verifiedToken true, .generatedId sid,
          .generatedTokens tokens, .hashedToken hash, .clock rotationNow])
        (.rotated s.id replacement.id) db db'
  | sessionActivity {p token t claims s now user updated db db'}
      (hchecked : AccessChecked app token t claims s now)
      (hdue : shouldUpdateLastUsed s now p.session.activityUpdateThreshold = true)
      (htx : SessionRepository.updateLastUsed s.id now db = .ok (updated, db')) :
      Commits ⟨p, .authenticateAccessToken token⟩ (accessEvents t claims s now user)
        (.sessionActivity s.id) db db'
  | revoked {p command context sessionId s i updated db db'}
      (hcmd : Command.revocation command = some (context, sessionId))
      (hown : s.id = sessionId ∧ s.userId = context.userId)
      (htx : SessionRepository.revokeByUserId i sessionId context.userId db =
        .ok (updated, db')) :
      Commits ⟨p, command⟩ [.foundSession (some s)] (.revoked sessionId) db db'
  | revokedAll {p context i updated db db'}
      (htx : SessionRepository.revokeAllByUserId i context.userId db = .ok (updated, db')) :
      Commits ⟨p, .revokeAllSessions context⟩ [] (.revokedAll context.userId) db db'
  | passwordChanged {p context cmd user hash i db db'} (huser : user.id = context.userId)
      (htx : PasswordService.changePasswordTx context.userId hash i db = .ok ((), db')) :
      Commits ⟨p, .changePassword context cmd⟩
        [.foundUser (some user), .verifiedPassword user.password true,
          .verifiedPassword user.password false, .hashedPassword hash]
        (.passwordChanged context.userId hash) db db'
  | resetRequested {p cmd m now user? i db db'}
      (htx : PasswordService.requestResetTx app.ports p.passwordReset cmd.email user? m now i
        db = .ok ((), db')) :
      Commits ⟨p, .requestReset cmd m⟩ [.clock now, .foundUser user?] .resetRequested db db'
  | resetAttempt {p cmd m now user? db db'}
      (htx : PasswordService.recordAttemptTx app.ports.pg p.passwordReset cmd.email
        (user?.map (·.id)) m now db = .ok ((), db')) :
      Commits ⟨p, .confirmReset cmd m⟩ [.clock now, .foundUser user?] .resetAttempt db db'
  | tokenRejected {p cmd m now user row updated db db'}
      (hfound : CodeFound user.id now p.passwordReset.maxTokenAttempts row)
      (htx : PasswordResetRepository.incrementAttempts row.id now
        p.passwordReset.maxTokenAttempts db = .ok (updated, db')) :
      Commits ⟨p, .confirmReset cmd m⟩
        (confirmResetEvents now user ++ [.foundReset (some row),
          .verifiedResetToken row.id false])
        (.tokenRejected row.id) db db'
  | resetConfirmed {p cmd m now user row hash i db db'}
      (hfound : CodeFound user.id now p.passwordReset.maxTokenAttempts row)
      (htx : PasswordService.confirmResetTx p.passwordReset row.id user.id now hash i db =
        .ok ((), db')) :
      Commits ⟨p, .confirmReset cmd m⟩
        (confirmResetEvents now user ++ [.foundReset (some row),
          .verifiedResetToken row.id true, .verifiedPassword user.password false,
          .hashedPassword hash])
        (.resetConfirmed row.id user.id hash) db db'
  | claimed {p cfg now i jobs db db'}
      (htx : EmailOutboxRepository.claimBatch i cfg now db = .ok (jobs, db')) :
      Commits ⟨p, .tick cfg⟩ [.clock now] (.claimed jobs) db db'
  | markedSent {p cfg evs jobs job now persisted db db'}
      (hclaimed : Event.committed (.claimed jobs) ∈ evs) (hjob : job ∈ jobs)
      (htx : EmailOutboxRepository.markSent job.id job.leaseId now "" db =
        .ok (persisted, db')) :
      Commits ⟨p, .tick cfg⟩ evs (.markedSent job.id job.leaseId persisted) db db'
  | markedDead {p cfg evs jobs job now error persisted db db'}
      (hclaimed : Event.committed (.claimed jobs) ∈ evs) (hjob : job ∈ jobs)
      (hdead : EmailOutboxProcessor.shouldMarkEmailOutboxDead job.attempts cfg.maxAttempts
        (EmailOutboxProcessor.isRetryable error) = true)
      (htx : EmailOutboxRepository.markDead job.id job.leaseId now error.what db =
        .ok (persisted, db')) :
      Commits ⟨p, .tick cfg⟩ evs (.markedDead job.id job.leaseId persisted) db db'
  | rescheduled {p cfg evs jobs job i error persisted db db'}
      (hclaimed : Event.committed (.claimed jobs) ∈ evs) (hjob : job ∈ jobs)
      (halive : EmailOutboxProcessor.shouldMarkEmailOutboxDead job.attempts cfg.maxAttempts
        (EmailOutboxProcessor.isRetryable error) = false)
      (htx : EmailOutboxRepository.reschedule i job.id job.leaseId
        (i.now.plus (EmailOutboxProcessor.computeEmailOutboxRetryDelay job.attempts cfg))
        error.what db = .ok (persisted, db')) :
      Commits ⟨p, .tick cfg⟩ evs (.rescheduled job.id job.leaseId persisted) db db'

/-- The ways to end. The results of `SignIn`, `Refresh`, `AuthenticateAccessToken`, `VerifyEmail`
and `ConfirmReset` are described in full, and so are the exceptions of `Refresh`. -/
inductive Finishes : Request → List Event → Except Error Response → Prop where
  | aborted {r evs e x} (h : r.command.mayAbort evs e = true) (hthrown : e.thrown = some x) :
      Finishes r (evs ++ [e]) (.error x)
  | signedIn {p cmd m now user n sid fam tokens hash input}
      (hin : signInValidateAndNormalize cmd = .ok input)
      (hlim : AuthenticationService.signInLimitsExceeded p.signIn n = false) :
      Finishes ⟨p, .signIn cmd m⟩
        (signInEvents now user n ++ [.verifiedPassword user.password true, .generatedId sid,
          .generatedId fam, .generatedTokens tokens, .hashedToken hash,
          .committed (.signedIn sid)])
        (.ok (.signedIn { user, tokens, sessionId := sid
                          refreshTokenMaxAge := p.session.refreshTokenTtl }))
  | signInThrew {p cmd m evs x} : Finishes ⟨p, .signIn cmd m⟩ evs (.error x)
  | refreshed {p cmd m t claims s now sid tokens hash rotationNow}
      (hchecked : RefreshChecked app cmd t claims s)
      (hverified : app.ports.refreshTokenHasher.verify cmd.refreshToken s.refreshTokenHash =
        true) :
      Finishes ⟨p, .refresh cmd m⟩
        (refreshEvents t claims s now ++ [.verifiedToken true, .generatedId sid,
          .generatedTokens tokens, .hashedToken hash, .clock rotationNow,
          .committed (.rotated s.id sid)])
        (.ok (.refreshed { accessToken := tokens.accessToken
                           refreshToken := tokens.refreshToken, sessionId := sid
                           refreshTokenMaxAge := p.session.refreshTokenTtl }))
  | refreshEmpty {p cmd m} (h : cmd.refreshToken = []) :
      Finishes ⟨p, .refresh cmd m⟩ []
        (.error (.invalidRefreshToken "refresh token is empty"))
  | refreshRejected {p cmd m t} :
      Finishes ⟨p, .refresh cmd m⟩ [.parsedRefreshToken t none]
        (.error (.invalidRefreshToken "invalid refresh token"))
  | refreshNotFound {p cmd m t claims} :
      Finishes ⟨p, .refresh cmd m⟩
        [.parsedRefreshToken t (some claims), .foundSession none]
        (.error (.refreshSessionNotFound "session not found"))
  | refreshMismatch {p cmd m t claims s now x}
      (h : s.userId ≠ claims.userId ∨ claims.tokenFamilyId ≠ some s.tokenFamilyId) :
      Finishes ⟨p, .refresh cmd m⟩ (refreshEvents t claims s now) (.error x)
  | refreshRevoked {p cmd m t claims s now}
      (h : app.ports.refreshTokenHasher.verify cmd.refreshToken s.refreshTokenHash = false) :
      Finishes ⟨p, .refresh cmd m⟩ (refreshEvents t claims s now ++ [.verifiedToken false])
        (.error (.refreshSessionRevoked "session revoked"))
  | refreshReused {p cmd m t claims s now} (hchecked : RefreshChecked app cmd t claims s) :
      Finishes ⟨p, .refresh cmd m⟩
        (refreshEvents t claims s now ++ [.verifiedToken true,
          .committed (.reuseDetected s.userId s.tokenFamilyId)])
        (.error (.refreshTokenReuseDetected "refresh token reuse detected"))
  | refreshActive {p cmd m t claims s now x} (evs : List Event)
      (h : s.revokedAt.isSome = false) :
      Finishes ⟨p, .refresh cmd m⟩ (refreshEvents t claims s now ++ evs) (.error x)
  | accessUpdated {p token t claims s now user}
      (hchecked : AccessChecked app token t claims s now) :
      Finishes ⟨p, .authenticateAccessToken token⟩
        (accessEvents t claims s now user ++ [.committed (.sessionActivity s.id)])
        (.ok (.authenticated { userId := claims.userId, sessionId := claims.sessionId }))
  | accessRecent {p token t claims s now user}
      (hchecked : AccessChecked app token t claims s now)
      (h : shouldUpdateLastUsed s now p.session.activityUpdateThreshold = false) :
      Finishes ⟨p, .authenticateAccessToken token⟩ (accessEvents t claims s now user)
        (.ok (.authenticated { userId := claims.userId, sessionId := claims.sessionId }))
  | accessThrew {p token evs x} : Finishes ⟨p, .authenticateAccessToken token⟩ evs (.error x)
  | emailVerified {p cmd m now user row x} :
      Finishes ⟨p, .verifyEmail cmd m⟩
        (verifyEmailEvents now user ++ [.foundVerification (some row),
          .verifiedCode row.id true, .committed (.emailVerified row.id user.id)])
        (.ok x)
  | verifyEmailThrew {p cmd m evs x} : Finishes ⟨p, .verifyEmail cmd m⟩ evs (.error x)
  | resetConfirmed {p cmd m now user row hash x} :
      Finishes ⟨p, .confirmReset cmd m⟩
        (confirmResetEvents now user ++ [.foundReset (some row),
          .verifiedResetToken row.id true, .verifiedPassword user.password false,
          .hashedPassword hash, .committed (.resetConfirmed row.id user.id hash)])
        (.ok x)
  | confirmResetThrew {p cmd m evs x} : Finishes ⟨p, .confirmReset cmd m⟩ evs (.error x)
  | other {r evs res} (h : OtherEnds app r.command evs res) : Finishes r evs res

/-- One step of a call: it aborts, it reads, or it commits a transaction. -/
inductive ProtocolStep (r : Request) (evs : List Event) : Event → Db → Db → Prop where
  | aborted {e db} (h : r.command.mayAbort evs e = true) : ProtocolStep r evs e db db
  | read {e db} (h : Reads app r evs e db) : ProtocolStep r evs e db db
  | committed {t db db'} (h : Commits app r evs t db db') :
      ProtocolStep r evs (.committed t) db db'

variable {app} in
/-- The step of a transaction that commits. -/
theorem ProtocolStep.commits {r : Request} {evs : List Event} {t : TxEvent} {db db' : Db}
    (h : ProtocolStep app r evs (.committed t) db db') : Commits app r evs t db db' := by
  cases h with
  | aborted hab => cases hab
  | read hread => cases hread
  | committed hcommit => exact hcommit

/-- The protocol of the service. -/
def protocol : Protocol Db Event Error Request Response where
  step := ProtocolStep app
  finish r evs res := Finishes app r evs res ∧ r.command.Ends res

end

end SmirklyAuth
