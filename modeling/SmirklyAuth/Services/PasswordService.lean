import SmirklyAuth.Services.Factories
import SmirklyAuth.Services.Validation

/-!
# `SmirklyAuth.Services.PasswordService`: password change and reset

`PasswordService` of `services/usecases`, with the `PasswordPolicy` of its constructor.
-/

set_option autoImplicit false

namespace SmirklyAuth

open Service

namespace PasswordService

/-- The transaction `auth.change_password`. -/
def changePasswordTx (userId : Uuid) (hash : Str) (i : Input) : Tx Unit := do
  UserRepository.updatePasswordHash i userId hash
  let _ ← SessionRepository.revokeAllByUserId i userId

/-- `ChangePassword`. -/
def changePassword (ports : Ports) (passwordPolicy : PasswordPolicy) (context : AuthContext)
    (cmd : ChangePasswordCommand) : Service Unit := do
  throwIf cmd.currentPassword.isEmpty
    (.changePasswordValidation "current password is required")
  throwIf (passwordPolicy.maxLength < cmd.currentPassword.length)
    (.changePasswordValidation "current password is too long")
  validated ((passwordValidate passwordPolicy cmd.newPassword).mapError
    .changePasswordValidation)
  let user? ← port .foundUser fun _ db => usersSelectById context.userId db.users
  let user ← orThrow user? (.authUserNotFound "user not found")
  let verified ← port (.verifiedPassword user.password) fun _ _ =>
    ports.passwordHasher.verify cmd.currentPassword user.password
  throwIf (!verified) (.invalidCurrentPassword "invalid current password")
  let unchanged ← port (.verifiedPassword user.password) fun _ _ =>
    ports.passwordHasher.verify cmd.newPassword user.password
  throwIf unchanged
    (.changePasswordValidation "new password must differ from current password")
  let hash ← port .hashedPassword fun i _ => ports.passwordHasher.hash cmd.newPassword i.salt
  transaction (fun _ => .passwordChanged context.userId hash)
    (changePasswordTx context.userId hash)

/-- `TryRecordAttempt` with the limits of the policy, and the exception when it fails. -/
def recordAttemptTx (pg : Postgres) (policy : PasswordResetPolicy) (email : Str)
    (userId : Option Uuid) (reqMeta : RequestMeta) (now : Time) : Tx Unit := do
  let recorded ← PasswordResetRepository.tryRecordAttempt pg
    (attemptArgs pg email userId reqMeta now (now.minus policy.rateLimitWindow)
      policy.maxAttemptsPerEmail policy.maxAttemptsPerUser policy.maxAttemptsPerIp)
  Tx.require recorded (.tooManyPasswordResetAttempts "too many password reset attempts")

/-- The part of `RequestReset` for a user with an email address. -/
def issueResetTx (ports : Ports) (policy : PasswordResetPolicy) (userId : Uuid) (email : Str)
    (reqMeta : RequestMeta) (now : Time) (i : Input) : Tx Unit := do
  let _ ← PasswordResetRepository.markActiveUsedByUserId userId now
  let rawToken := i.secret
  let tokenHash := ports.resetTokenHasher.hash rawToken
  let reset ← PasswordResetRepository.insert ports.pg i
    { userId, secretHash := tokenHash, expiresAt := now.plus policy.tokenTtl
      ip := reqMeta.ip, userAgent := reqMeta.userAgent }
  EmailOutboxRepository.insert i
    (EmailOutboxFactory.passwordResetEmail email rawToken reset.id.text "ru")

/-- The transaction `auth.password_reset.request`. -/
def requestResetTx (ports : Ports) (policy : PasswordResetPolicy) (email : Str)
    (user? : Option User) (reqMeta : RequestMeta) (now : Time) (i : Input) : Tx Unit := do
  recordAttemptTx ports.pg policy email (user?.map (·.id)) reqMeta now
  match user? with
  | some user =>
      match user.email with
      | some userEmail => issueResetTx ports policy user.id userEmail reqMeta now i
      | none => pure ()
  | none => pure ()

/-- `RequestReset`. -/
def requestReset (ports : Ports) (policies : AuthRuntimePolicies)
    (cmd : RequestPasswordResetCommand) (reqMeta : RequestMeta) : Service Unit := do
  let now ← clock
  let user? ← port .foundUser fun _ db => usersSelectByEmail ports.pg cmd.email db.users
  transaction (fun _ => .resetRequested)
    (requestResetTx ports policies.passwordReset cmd.email user? reqMeta now)

/-- The transaction `auth.password_reset.confirm`. -/
def confirmResetTx (policy : PasswordResetPolicy) (resetId userId : Uuid) (now : Time)
    (hash : Str) (i : Input) : Tx Unit := do
  let used ← PasswordResetRepository.markUsed resetId now policy.maxTokenAttempts
  Tx.require used (.invalidPasswordResetToken
    "password reset token expired, exhausted, or already used")
  UserRepository.updatePasswordHash i userId hash
  let _ ← SessionRepository.revokeAllByUserId i userId

/-- `ConfirmReset`. -/
def confirmReset (ports : Ports) (passwordPolicy : PasswordPolicy)
    (policies : AuthRuntimePolicies) (cmd : ConfirmPasswordResetCommand)
    (reqMeta : RequestMeta) : Service Unit := do
  validated ((passwordValidate passwordPolicy cmd.newPassword).mapError
    .passwordResetValidation)
  let policy := policies.passwordReset
  let now ← clock
  let user? ← port .foundUser fun _ db => usersSelectByEmail ports.pg cmd.email db.users
  transaction (fun _ => .resetAttempt) fun _ =>
    recordAttemptTx ports.pg policy cmd.email (user?.map (·.id)) reqMeta now
  let user ← orThrow user? (.invalidPasswordResetToken "invalid password reset token")
  let reset? ← port .foundReset fun _ db =>
    PasswordResetRepository.findActiveByUserId user.id now policy.maxTokenAttempts db
  let reset ← orThrow reset?
    (.passwordResetExpired "password reset token expired or not found")
  let verified ← port (.verifiedResetToken reset.id) fun _ _ =>
    ports.resetTokenHasher.verify cmd.token reset.secretHash
  if !verified then
    let _ ← transaction (fun _ => .tokenRejected reset.id) fun _ =>
      PasswordResetRepository.incrementAttempts reset.id now policy.maxTokenAttempts
    throw (.invalidPasswordResetToken "invalid password reset token")
  else
    let unchanged ← port (.verifiedPassword user.password) fun _ _ =>
      ports.passwordHasher.verify cmd.newPassword user.password
    throwIf unchanged
      (.passwordResetValidation "new password must differ from current password")
    let hash ← port .hashedPassword fun i _ =>
      ports.passwordHasher.hash cmd.newPassword i.salt
    transaction (fun _ => .resetConfirmed reset.id user.id hash)
      (confirmResetTx policy reset.id user.id now hash)

end PasswordService

end SmirklyAuth
