import SmirklyAuth.Services.Factories
import SmirklyAuth.Services.Validation

/-!
# `SmirklyAuth.Services.IdentityService`: sign-up and email verification

`IdentityService` of `services/usecases`, with the `SignUpPolicy` of its constructor. The
existence checks of `SignUp` read a standby server, so their answer is an input; the
unique indexes decide in the transaction.
-/

set_option autoImplicit false

namespace SmirklyAuth

open Service

namespace IdentityService

/-- The transaction `auth.sign_up.rate_limit`. -/
def signUpRateLimitTx (pg : Postgres) (policy : SignUpRateLimitPolicy) (ip : Str)
    (now : Time) : Tx Unit := do
  let recorded ← SignUpAttemptRepository.tryRecordAttempt pg ip now (now.minus policy.window)
    policy.maxAttemptsPerIp
  Tx.require recorded (.tooManySignUpAttempts "too many sign-up attempts")

/-- The rate limit of `SignUp`, for a request with an address and a positive limit. -/
def limitSignUp (pg : Postgres) (policy : SignUpRateLimitPolicy) (reqMeta : RequestMeta) :
    Service Unit :=
  match reqMeta.ip with
  | none => pure ()
  | some ip =>
      if 0 < policy.maxAttemptsPerIp then do
        let now ← clock
        transaction (fun _ => .signUpAttempt) fun _ => signUpRateLimitTx pg policy ip now
      else pure ()

/-- `if (value && ExistsBy…(*value)) throw error;`. -/
def rejectTaken (value : Option Str) (taken : Str → List User → Bool) (error : Error) :
    Service Unit :=
  match value with
  | none => pure ()
  | some v => do
      let answer ← port .userExists fun i _ => taken v i.standbyUsers
      throwIf answer error

/-- The part of `SignUp` and of `ResendEmailVerification` that stores a code and its
email. -/
def issueCodeTx (ports : Ports) (policy : EmailVerificationPolicy) (userId : Uuid)
    (email : Str) (reqMeta : RequestMeta) (now : Time) (i : Input) : Tx Unit := do
  let rawCode := i.secret
  let codeHash := ports.verificationCodeHasher.hash userId rawCode
  let _ ← EmailVerificationRepository.insert ports.pg i
    (EmailVerificationFactory.create userId codeHash reqMeta now policy.codeTtl)
  EmailOutboxRepository.insert i
    (EmailOutboxFactory.verificationEmail email rawCode userId.text "ru")

/-- The transaction `auth.sign_up`. -/
def signUpTx (ports : Ports) (policy : EmailVerificationPolicy) (data : NewUserData)
    (reqMeta : RequestMeta) (i : Input) : Tx User := do
  let user ← UserRepository.insert ports.pg i data
  match user.email with
  | some email =>
      issueCodeTx ports policy user.id email reqMeta i.now i
      return user
  | none => return user

/-- `SignUp`. -/
def signUp (ports : Ports) (signUpPolicy : SignUpPolicy) (policies : AuthRuntimePolicies)
    (cmd : SignUpCommand) (reqMeta : RequestMeta) : Service User := do
  let input ← validated (signUpValidateAndNormalize signUpPolicy cmd)
  limitSignUp ports.pg policies.signUp reqMeta
  rejectTaken (some input.username.value) (usersExistsByUsername ports.pg)
    (.usernameTaken "username taken")
  rejectTaken (input.email.map (·.value)) (usersExistsByEmail ports.pg)
    (.emailTaken "email taken")
  rejectTaken (input.phone.map (·.value)) usersExistsByPhone (.phoneTaken "phone taken")
  let hash ← port .hashedPassword fun i _ => ports.passwordHasher.hash input.password i.salt
  transaction (fun user => .signedUp user.id)
    (signUpTx ports policies.emailVerification
      (UserFactory.createFromSignUp input.username.value hash (input.email.map (·.value))
        (input.phone.map (·.value)))
      reqMeta)

/-- `TryRecordAttempt` with the limits of the policy, and the exception when it fails. -/
def recordAttemptTx (pg : Postgres) (policy : EmailVerificationPolicy) (email : Str)
    (userId : Option Uuid) (reqMeta : RequestMeta) (now : Time) : Tx Unit := do
  let recorded ← EmailVerificationRepository.tryRecordAttempt pg
    (attemptArgs pg email userId reqMeta now (now.minus policy.rateLimitWindow)
      policy.maxAttemptsPerEmail policy.maxAttemptsPerUser policy.maxAttemptsPerIp)
  Tx.require recorded (.tooManyVerificationAttempts "too many verification attempts")

/-- The transaction `auth.verify_email`. -/
def verifyEmailTx (policy : EmailVerificationPolicy) (verificationId userId : Uuid)
    (now : Time) : Tx Unit := do
  let used ← EmailVerificationRepository.markUsed verificationId now policy.maxCodeAttempts
  Tx.require used (.codeExpired "Verification code expired, exhausted, or already used")
  UserRepository.setEmailVerified userId true

/-- `VerifyEmail`. -/
def verifyEmail (ports : Ports) (policies : AuthRuntimePolicies) (cmd : VerifyEmailCommand)
    (reqMeta : RequestMeta) : Service Unit := do
  let policy := policies.emailVerification
  let now ← clock
  let user? ← port .foundUser fun _ db => usersSelectByEmail ports.pg cmd.email db.users
  throwIf (user?.any (·.isEmailVerified)) (.alreadyVerified "User already verified")
  transaction (fun _ => .verificationAttempt) fun _ =>
    recordAttemptTx ports.pg policy cmd.email (user?.map (·.id)) reqMeta now
  let user ← orThrow user? (.userNotFound "User not found")
  let verification? ← port .foundVerification fun _ db =>
    EmailVerificationRepository.findActiveByUserId user.id now policy.maxCodeAttempts db
  let verification ← orThrow verification?
    (.codeExpired "Verification code expired or not found")
  let verified ← port (.verifiedCode verification.id) fun _ _ =>
    ports.verificationCodeHasher.verify user.id cmd.code verification.secretHash
  if !verified then
    let _ ← transaction (fun _ => .codeRejected verification.id) fun _ =>
      EmailVerificationRepository.incrementAttempts verification.id now
        policy.maxCodeAttempts
    throw (.invalidCode "Invalid verification code")
  else
    transaction (fun _ => .emailVerified verification.id user.id) fun _ =>
      verifyEmailTx policy verification.id user.id now

/-- The transaction `auth.resend_email_verification`. -/
def resendTx (ports : Ports) (policy : EmailVerificationPolicy) (email : Str)
    (user? : Option User) (reqMeta : RequestMeta) (now : Time) (i : Input) : Tx Unit := do
  recordAttemptTx ports.pg policy email (user?.map (·.id)) reqMeta now
  match user? with
  | none => pure ()
  | some user =>
      match user.email with
      | none => pure ()
      | some userEmail =>
          if user.isEmailVerified then pure ()
          else do
            let _ ← EmailVerificationRepository.markActiveUsedByUserId user.id now
            issueCodeTx ports policy user.id userEmail reqMeta now i

/-- `ResendEmailVerification`. -/
def resendEmailVerification (ports : Ports) (policies : AuthRuntimePolicies)
    (cmd : ResendEmailVerificationCommand) (reqMeta : RequestMeta) : Service Unit := do
  let now ← clock
  let user? ← port .foundUser fun _ db => usersSelectByEmail ports.pg cmd.email db.users
  transaction (fun _ => .verificationResent)
    (resendTx ports policies.emailVerification cmd.email user? reqMeta now)

/-- `GetCurrentUser`. -/
def getCurrentUser (context : AuthContext) : Service MeResult := do
  let user? ← port .foundUser fun _ db => usersSelectById context.userId db.users
  let user ← orThrow user? (.authUserNotFound "user not found")
  return { user, sessionId := context.sessionId }

end IdentityService

end SmirklyAuth
