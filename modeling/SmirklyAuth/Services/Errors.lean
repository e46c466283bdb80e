import SmirklyAuth.Domain.Models

/-!
# `SmirklyAuth.Services.Errors`: the exceptions of the services

One constructor for each exception class of `services/errors/` that a use case throws,
with the text of its `what()`. `emailDelivery` is `EmailDeliveryError` of the email ports.
`runtimeError` stands for every other `std::exception`: a database error, a failed hash or
a failed commit.
-/

set_option autoImplicit false

namespace SmirklyAuth

/-- The exceptions of the services, each with its text. -/
inductive Error where
  -- `sign_up_errors.hpp`
  | tooManySignUpAttempts (what : Str)
  | usernameTaken (what : Str)
  | emailTaken (what : Str)
  | phoneTaken (what : Str)
  | signUpValidation (what : Str)
  -- `verify_email_errors.hpp`
  | userNotFound (what : Str)
  | invalidCode (what : Str)
  | codeExpired (what : Str)
  | alreadyVerified (what : Str)
  | tooManyVerificationAttempts (what : Str)
  -- `sign_in_errors.hpp`
  | signInValidation (what : Str)
  | invalidCredentials (what : Str)
  | emailNotVerified (what : Str)
  | tooManySignInAttempts (what : Str)
  -- `refresh_errors.hpp`
  | invalidRefreshToken (what : Str)
  | refreshSessionNotFound (what : Str)
  | refreshSessionRevoked (what : Str)
  | refreshTokenReuseDetected (what : Str)
  | refreshSessionExpired (what : Str)
  -- `access_token_errors.hpp`
  | missingAccessToken (what : Str)
  | invalidAccessToken (what : Str)
  | authSessionNotFound (what : Str)
  | authSessionRevoked (what : Str)
  | authSessionExpired (what : Str)
  | authUserNotFound (what : Str)
  | sessionNotFound (what : Str)
  | sessionForbidden (what : Str)
  -- `change_password_errors.hpp`
  | changePasswordValidation (what : Str)
  | invalidCurrentPassword (what : Str)
  -- `password_reset_errors.hpp`
  | passwordResetValidation (what : Str)
  | invalidPasswordResetToken (what : Str)
  | passwordResetExpired (what : Str)
  | tooManyPasswordResetAttempts (what : Str)
  -- `email_verification_sender.hpp`
  | emailDelivery (what : Str) (retryable : Bool)
  | runtimeError (what : Str)
  deriving DecidableEq, Repr

/-- `std::exception::what()`. -/
def Error.what : Error → Str
  | .tooManySignUpAttempts what | .usernameTaken what | .emailTaken what
  | .phoneTaken what | .signUpValidation what | .userNotFound what | .invalidCode what
  | .codeExpired what | .alreadyVerified what | .tooManyVerificationAttempts what
  | .signInValidation what | .invalidCredentials what | .emailNotVerified what
  | .tooManySignInAttempts what | .invalidRefreshToken what | .refreshSessionNotFound what
  | .refreshSessionRevoked what | .refreshTokenReuseDetected what
  | .refreshSessionExpired what | .missingAccessToken what | .invalidAccessToken what
  | .authSessionNotFound what | .authSessionRevoked what | .authSessionExpired what
  | .authUserNotFound what | .sessionNotFound what | .sessionForbidden what
  | .changePasswordValidation what | .invalidCurrentPassword what
  | .passwordResetValidation what | .invalidPasswordResetToken what
  | .passwordResetExpired what | .tooManyPasswordResetAttempts what
  | .emailDelivery what _ | .runtimeError what => what

/-! ### Functions that return or throw -/

section

variable {ε ε' α β : Type}

/-- A sequence of two steps succeeds when both do. -/
theorem except_bind_eq_ok {x : Except ε α} {f : α → Except ε β} {b : β}
    (h : x >>= f = .ok b) : ∃ a, x = .ok a ∧ f a = .ok b := by
  cases x with
  | error what => cases h
  | ok a => exact ⟨a, rfl, h⟩

/-- Translating the error does not change which inputs are accepted. -/
theorem except_mapError_eq_ok {x : Except ε α} {f : ε → ε'} {a : α} :
    x.mapError f = .ok a ↔ x = .ok a := by
  cases x <;> simp [Except.mapError]

/-- A check that throws is passed when its condition is false. -/
theorem except_ite_eq_ok {c : Prop} [Decidable c] {e : ε} {rest : Except ε α} {a : α} :
    (if c then .error e else rest) = .ok a ↔ ¬ c ∧ rest = .ok a := by
  split
  · simp [*]
  · simp [*]

/-- `if (condition) throw error;` -/
def failIf (condition : Bool) (error : ε) : Except ε Unit :=
  if condition then .error error else .ok ()

/-- A check that fails. -/
@[simp] theorem failIf_true (error : ε) : failIf true error = .error error := rfl

/-- A check that passes. -/
@[simp] theorem failIf_false (error : ε) : failIf false error = .ok () := rfl

/-- A check passes when its condition does not hold. -/
theorem failIf_eq_ok {condition : Bool} {error : ε} :
    failIf condition error = .ok () ↔ condition = false := by
  cases condition <;> simp

/-- A check before a computation, when the whole succeeds. -/
theorem failIf_bind_eq_ok {condition : Bool} {error : ε} {rest : Unit → Except ε α} {a : α} :
    failIf condition error >>= rest = .ok a ↔ condition = false ∧ rest () = .ok a := by
  cases condition <;> simp [Bind.bind, Except.bind]

/-- A check before a computation, when the whole fails: either the check or the rest. -/
theorem failIf_bind_eq_error {condition : Bool} {error e : ε} {rest : Unit → Except ε α} :
    failIf condition error >>= rest = .error e ↔
      (condition = true ∧ error = e) ∨ (condition = false ∧ rest () = .error e) := by
  cases condition <;> simp [Bind.bind, Except.bind]

end

end SmirklyAuth
