import SmirklyAuth.Services.Errors

/-!
# `SmirklyAuth.Api.AuthErrorMapper`: exceptions as HTTP errors

`TryMapAuthError` of `api/v0/utils/auth_error_mapper.hpp`. The C++ function tests the dynamic
type of the exception against a list of classes; the constructors of `Error` are the leaves of
that hierarchy, and a base class in the list stands for the leaves that no earlier test took.
-/

set_option autoImplicit false

namespace SmirklyAuth

/-- The statuses that the handlers set, and the one of an exception that a handler lets
through. -/
inductive HttpStatus where
  | ok | created | noContent
  | badRequest | unauthorized | forbidden | notFound | conflict | gone | tooManyRequests
  | internalServerError
  deriving DecidableEq, Repr

/-- `AuthErrorContext`. -/
inductive AuthErrorContext where
  | generic | verifyEmail | resendEmailVerification
  deriving DecidableEq, Repr

/-- `HttpError`. -/
structure HttpError where
  status : HttpStatus
  code : Str
  message : Str
  deriving DecidableEq, Repr

/-- `TryMapAuthError`. -/
def tryMapAuthError (error : Error) (context : AuthErrorContext := .generic) :
    Option HttpError :=
  match error with
  | .signUpValidation what => some ⟨.badRequest, "sign_up.validation_failed", what⟩
  | .tooManySignUpAttempts _ =>
      some ⟨.tooManyRequests, "auth.sign_up.too_many_attempts", "too many sign-up attempts"⟩
  | .usernameTaken _ => some ⟨.conflict, "sign_up.username_taken", "username taken"⟩
  | .emailTaken _ => some ⟨.conflict, "sign_up.email_taken", "email taken"⟩
  | .phoneTaken _ => some ⟨.conflict, "sign_up.phone_taken", "phone taken"⟩
  | .signInValidation what => some ⟨.badRequest, "auth.sign_in.validation_failed", what⟩
  | .invalidCredentials _ =>
      some ⟨.unauthorized, "auth.invalid_credentials", "invalid credentials"⟩
  | .emailNotVerified _ =>
      some ⟨.forbidden, "auth.email_not_verified", "email is not verified"⟩
  | .tooManySignInAttempts _ =>
      some ⟨.tooManyRequests, "auth.sign_in.too_many_attempts", "too many sign-in attempts"⟩
  | .userNotFound _ =>
      some ⟨.notFound, "auth.verify_email.user_not_found", "user not found"⟩
  | .invalidCode _ =>
      some ⟨.badRequest, "auth.verify_email.invalid_code", "invalid verification code"⟩
  | .tooManyVerificationAttempts _ =>
      match context with
      | .resendEmailVerification =>
          some ⟨.tooManyRequests, "auth.resend_email_verification.too_many_attempts",
            "too many verification attempts"⟩
      | _ =>
          some ⟨.tooManyRequests, "auth.verify_email.too_many_attempts",
            "too many verification attempts"⟩
  | .codeExpired _ =>
      some ⟨.gone, "auth.verify_email.code_expired", "verification code expired or not found"⟩
  -- the other `VerifyEmailError`
  | .alreadyVerified _ =>
      some ⟨.badRequest, "auth.verify_email.failed", "email verification failed"⟩
  | .passwordResetValidation what =>
      some ⟨.badRequest, "auth.password_reset.validation_failed", what⟩
  | .tooManyPasswordResetAttempts _ =>
      some ⟨.tooManyRequests, "auth.password_reset.too_many_attempts",
        "too many password reset attempts"⟩
  | .passwordResetExpired _ =>
      some ⟨.gone, "auth.password_reset.expired",
        "password reset token expired or not found"⟩
  | .invalidPasswordResetToken _ =>
      some ⟨.badRequest, "auth.password_reset.invalid_token", "invalid password reset token"⟩
  | .missingAccessToken _ =>
      some ⟨.unauthorized, "auth.missing_access_token", "missing access token"⟩
  | .invalidCurrentPassword _ =>
      some ⟨.unauthorized, "auth.invalid_current_password", "invalid current password"⟩
  | .changePasswordValidation what =>
      some ⟨.badRequest, "auth.change_password.validation_failed", what⟩
  -- the other `AccessTokenError`s
  | .invalidAccessToken _ | .authSessionNotFound _ | .authSessionRevoked _
  | .authSessionExpired _ | .authUserNotFound _ =>
      some ⟨.unauthorized, "auth.invalid_access_token", "invalid access token"⟩
  | .sessionForbidden _ =>
      some ⟨.forbidden, "auth.session_forbidden", "session belongs to another user"⟩
  | .sessionNotFound _ => some ⟨.notFound, "auth.session_not_found", "session not found"⟩
  -- every `RefreshError`
  | .invalidRefreshToken _ | .refreshSessionNotFound _ | .refreshSessionRevoked _
  | .refreshTokenReuseDetected _ | .refreshSessionExpired _ =>
      some ⟨.unauthorized, "auth.invalid_refresh_token", "invalid refresh token"⟩
  | .emailDelivery _ _ | .runtimeError _ => none

end SmirklyAuth
