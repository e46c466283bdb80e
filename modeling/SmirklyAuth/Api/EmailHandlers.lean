import SmirklyAuth.Api.AuthErrorMapper
import SmirklyAuth.Services.IdentityService
import SmirklyAuth.Services.PasswordService

/-!
# `SmirklyAuth.Api.EmailHandlers`: the handlers that take an email address

The handlers of `verify-email`, `resend-email-verification`, `password-reset/request` and
`password-reset/confirm` (`api/v0/handlers/`). Each checks the shape of its fields and passes
them on as they came. A field is what `utils::GetString` returns: `none` for a member that is
missing or no string.

An exception that `TryMapAuthError` does not know leaves the handler, and the server answers
with status 500.
-/

set_option autoImplicit false

namespace SmirklyAuth

open Service

/-- The status of a response, and the code and message of an error body. -/
structure HttpResponse where
  status : HttpStatus
  error : Option (Str × Str) := none
  deriving DecidableEq, Repr

/-- `ErrorResponse(request, error)`. -/
def HttpError.response (error : HttpError) : HttpResponse :=
  { status := error.status, error := some (error.code, error.message) }

/-- `BadRequestResponse`. -/
def badRequestResponse (code message : Str) : HttpResponse :=
  { status := .badRequest, error := some (code, message) }

/-- `AuthErrorResponse`. -/
def authErrorResponse (error : Error) (context : AuthErrorContext := .generic) :
    Service HttpResponse :=
  match tryMapAuthError error context with
  | some mapped => pure mapped.response
  | none => throw error

/-- The `try` block of a handler that answers with status 204. -/
def noContentOrError (context : AuthErrorContext) (call : Service Unit) :
    Service HttpResponse :=
  tryCatchThe Error (do call; return { status := .noContent })
    fun error => authErrorResponse error context

/-- `IsValidEmailShape`: `@` is 64. -/
def isValidEmailShape (email : Str) : Bool :=
  !email.isEmpty && email.length ≤ 320 && email.contains 64

/-- `PasswordResetRequestHandler`. -/
def passwordResetRequestHandler (ports : Ports) (policies : AuthRuntimePolicies)
    (email : Option Str) (reqMeta : RequestMeta) : Service HttpResponse :=
  match email.filter isValidEmailShape with
  | none => pure
      (badRequestResponse "auth.password_reset.validation_failed" "invalid email format")
  | some email =>
    noContentOrError .generic (PasswordService.requestReset ports policies ⟨email⟩ reqMeta)

/-- `PasswordResetConfirmHandler`. -/
def passwordResetConfirmHandler (ports : Ports) (passwordPolicy : PasswordPolicy)
    (policies : AuthRuntimePolicies) (email token newPassword : Option Str)
    (reqMeta : RequestMeta) : Service HttpResponse :=
  match email, token, newPassword with
  | some email, some token, some newPassword =>
    if !isValidEmailShape email then pure
      (badRequestResponse "auth.password_reset.validation_failed" "invalid email format")
    else if token.isEmpty || 512 < token.length then pure
      (badRequestResponse "auth.password_reset.validation_failed" "invalid token format")
    else noContentOrError .generic
      (PasswordService.confirmReset ports passwordPolicy policies ⟨email, token, newPassword⟩
        reqMeta)
  | _, _, _ => pure
      (badRequestResponse "auth.password_reset.validation_failed"
        "email, token and new_password are required")

/-- `kVerificationCodeLength`. -/
def kVerificationCodeLength : Nat := 6

/-- `VerifyEmailHandler`: an address that is already verified is no error. -/
def verifyEmailHandler (ports : Ports) (policies : AuthRuntimePolicies)
    (email code : Option Str) (reqMeta : RequestMeta) : Service HttpResponse :=
  match email.filter (!·.isEmpty), code.filter (!·.isEmpty) with
  | some email, some code =>
    if 320 < email.length || !email.contains 64 then pure
      (badRequestResponse "auth.verify_email.validation_failed" "invalid email format")
    else if code.length ≠ kVerificationCodeLength || !code.all isDigitAscii then pure
      (badRequestResponse "auth.verify_email.validation_failed" "invalid code format")
    else tryCatchThe Error
      (do
        IdentityService.verifyEmail ports policies ⟨email, code⟩ reqMeta
        return { status := .noContent })
      fun error => match error with
        | .alreadyVerified _ => pure { status := .noContent }
        | error => authErrorResponse error .verifyEmail
  | _, _ => pure
      (badRequestResponse "auth.verify_email.validation_failed" "email and code are required")

/-- `ResendEmailVerificationHandler`. -/
def resendEmailVerificationHandler (ports : Ports) (policies : AuthRuntimePolicies)
    (email : Option Str) (reqMeta : RequestMeta) : Service HttpResponse :=
  match email.filter (!·.isEmpty) with
  | none => pure
      (badRequestResponse "auth.resend_email_verification.validation_failed"
        "email is required")
  | some email =>
    if 320 < email.length || !email.contains 64 then pure
      (badRequestResponse "auth.resend_email_verification.validation_failed"
        "invalid email format")
    else noContentOrError .resendEmailVerification
      (IdentityService.resendEmailVerification ports policies ⟨email⟩ reqMeta)

end SmirklyAuth
