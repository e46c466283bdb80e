import SmirklyAuth.Domain.ValueObjects
import SmirklyAuth.Services.Contracts
import SmirklyAuth.Services.Errors

/-!
# `SmirklyAuth.Services.Validation`: the validators of `services/validation`

`passwordValidate` throws `std::invalid_argument`, which is its `what()` text here. The
callers turn it into their own exception.
-/

set_option autoImplicit false

namespace SmirklyAuth

/-- The four character classes that `PasswordValidator::Validate` has seen. -/
structure PasswordClasses where
  hasLower : Bool := false
  hasUpper : Bool := false
  hasDigit : Bool := false
  hasOther : Bool := false

/-- `IsLowerAscii`. -/
def isLowerAscii (c : UInt8) : Bool := 97 ≤ c && c ≤ 122

/-- `IsUpperAscii`. -/
def isUpperAscii (c : UInt8) : Bool := 65 ≤ c && c ≤ 90

/-- `IsDigitAscii`. -/
def isDigitAscii (c : UInt8) : Bool := 48 ≤ c && c ≤ 57

/-- `IsControlAscii`. -/
def isControlAscii (c : UInt8) : Bool := c < 32

/-- The loop of `PasswordValidator::Validate`: `none` when it meets a control character. -/
def passwordClasses : Str → PasswordClasses → Option PasswordClasses
  | [], seen => some seen
  | c :: rest, seen =>
      if isControlAscii c || c == 127 then none
      else passwordClasses rest
        { hasLower := seen.hasLower || isLowerAscii c
          hasUpper := seen.hasUpper || isUpperAscii c
          hasDigit := seen.hasDigit || isDigitAscii c
          hasOther := seen.hasOther ||
            (!isLowerAscii c && !isUpperAscii c && !isDigitAscii c) }

/-- `complexity_classes`. -/
def PasswordClasses.count (seen : PasswordClasses) : Nat :=
  seen.hasLower.toNat + seen.hasUpper.toNat + seen.hasDigit.toNat + seen.hasOther.toNat

/-- `PasswordValidator::Validate`. -/
def passwordValidate (policy : PasswordPolicy) (password : Str) : Except Str Unit :=
  if password.isEmpty then .error "password is empty"
  else if password.length < policy.minLength then .error "password is too short"
  else if policy.maxLength < password.length then .error "password is too long"
  else
    match passwordClasses password {} with
    | none => .error "password must not contain control characters"
    | some seen =>
        if seen.count < 3 then
          .error "password must include at least three character classes"
        else .ok ()

/-- `NormalizedSignInInput`: the identifiers after normalisation, and the one that is counted. -/
structure NormalizedSignInInput where
  username : Option Str := none
  email : Option Str := none
  phone : Option Str := none
  rateLimitIdentifier : Str

/-- The `try` block of `SignInValidator::ValidateAndNormalize`: the first identifier that
is present, in the order username, email, phone. -/
def signInIdentifier (cmd : SignInCommand) : Except Str NormalizedSignInInput :=
  match cmd.username, cmd.email, cmd.phone with
  | some raw, _, _ => do
      let username ← Username.create raw
      return { username := some username.value
               rateLimitIdentifier := lit "username:" ++ username.value }
  | none, some raw, _ => do
      let email ← Email.create raw
      return { email := some email.value
               rateLimitIdentifier := lit "email:" ++ email.value }
  | none, none, some raw => do
      let phone ← Phone.create raw
      return { phone := some phone.value
               rateLimitIdentifier := lit "phone:" ++ phone.value }
  | none, none, none => .error "username/email/phone is required"

/-- `SignInValidator::ValidateAndNormalize`. -/
def signInValidateAndNormalize (cmd : SignInCommand) : Except Error NormalizedSignInInput :=
  if cmd.username.isNone && cmd.email.isNone && cmd.phone.isNone then
    .error (.signInValidation "username/email/phone is required")
  else if cmd.password.isEmpty then .error (.signInValidation "password is required")
  else if kMaxPasswordLength < cmd.password.length then
    .error (.signInValidation "password is too long")
  else (signInIdentifier cmd).mapError .signInValidation

/-- `NormalizedSignUpInput`: value objects in place of the texts of the command. -/
structure NormalizedSignUpInput where
  username : Username
  password : Str
  email : Option Email
  phone : Option Phone

/-- The `try` block of `SignUpValidator::ValidateAndNormalize`. -/
def signUpInput (policy : SignUpPolicy) (cmd : SignUpCommand) :
    Except Str NormalizedSignUpInput := do
  passwordValidate policy.password cmd.password
  let username ← Username.create cmd.username
  let email ← cmd.email.mapM Email.create
  let phone ← cmd.phone.mapM Phone.create
  return { username, password := cmd.password, email, phone }

/-- `SignUpValidator::ValidateAndNormalize`. -/
def signUpValidateAndNormalize (policy : SignUpPolicy) (cmd : SignUpCommand) :
    Except Error NormalizedSignUpInput :=
  if policy.requireEmail && cmd.email.isNone then
    .error (.signUpValidation "email is required")
  else if policy.requirePhone && cmd.phone.isNone then
    .error (.signUpValidation "phone is required")
  else if policy.requireContact && cmd.email.isNone && cmd.phone.isNone then
    .error (.signUpValidation "email or phone is required")
  else (signUpInput policy cmd).mapError .signUpValidation

/-- What an accepted sign-up was given, and what the validator makes of it. -/
structure SignUpAccepted (policy : SignUpPolicy) (cmd : SignUpCommand)
    (input : NormalizedSignUpInput) : Prop where
  password : passwordValidate policy.password cmd.password = .ok ()
  samePassword : input.password = cmd.password
  username : Username.create cmd.username = .ok input.username
  email : cmd.email.mapM Email.create = .ok input.email
  phone : cmd.phone.mapM Phone.create = .ok input.phone

/-- The checks in the order of the source accept what `SignUpAccepted` describes. -/
theorem signUpInput_eq_ok {policy : SignUpPolicy} {cmd : SignUpCommand}
    {input : NormalizedSignUpInput} :
    signUpInput policy cmd = .ok input ↔ SignUpAccepted policy cmd input := by
  constructor
  · intro hinput
    obtain ⟨_, hpassword, hinput⟩ := except_bind_eq_ok hinput
    obtain ⟨username, husername, hinput⟩ := except_bind_eq_ok hinput
    obtain ⟨email, hemail, hinput⟩ := except_bind_eq_ok hinput
    obtain ⟨phone, hphone, hinput⟩ := except_bind_eq_ok hinput
    obtain rfl := Except.ok.inj hinput
    exact ⟨hpassword, rfl, husername, hemail, hphone⟩
  · rintro ⟨hpassword, hsame, husername, hemail, hphone⟩
    simp only [signUpInput, hpassword, husername, hemail, hphone]
    rw [← hsame]
    rfl

/-- The same for the function that the service calls. -/
theorem signUpAccepted {policy : SignUpPolicy} {cmd : SignUpCommand}
    {input : NormalizedSignUpInput} (h : signUpValidateAndNormalize policy cmd = .ok input) :
    SignUpAccepted policy cmd input := by
  simp only [signUpValidateAndNormalize, except_ite_eq_ok, except_mapError_eq_ok] at h
  exact signUpInput_eq_ok.mp h.2.2.2

end SmirklyAuth
