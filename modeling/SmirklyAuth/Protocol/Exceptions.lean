import SmirklyAuth.System

/-!
# `SmirklyAuth.Protocol.Exceptions`: what a use case can throw and return

`Command.throws` is the list of the exceptions of a use case, and `Response.answers` the kind of
its responses. `Tx.Throws command tx` says that the transaction throws no exceptions but those of
the command. It is proved here for the statements and the transactions.
-/

set_option autoImplicit false

namespace SmirklyAuth

/-- The exceptions that the use case of a command throws. An exception of the environment can
come from each of them. -/
def Command.throws : Command → Error → Bool
  | _, .runtimeError _ => true
  | .signUp _ _, .signUpValidation _ => true
  | .signUp _ _, .tooManySignUpAttempts _ => true
  | .signUp _ _, .usernameTaken _ => true
  | .signUp _ _, .emailTaken _ => true
  | .signUp _ _, .phoneTaken _ => true
  | .verifyEmail _ _, .userNotFound _ => true
  | .verifyEmail _ _, .invalidCode _ => true
  | .verifyEmail _ _, .codeExpired _ => true
  | .verifyEmail _ _, .alreadyVerified _ => true
  | .verifyEmail _ _, .tooManyVerificationAttempts _ => true
  | .resendEmailVerification _ _, .tooManyVerificationAttempts _ => true
  | .getCurrentUser _, .authUserNotFound _ => true
  | .signIn _ _, .signInValidation _ => true
  | .signIn _ _, .invalidCredentials _ => true
  | .signIn _ _, .emailNotVerified _ => true
  | .signIn _ _, .tooManySignInAttempts _ => true
  | .refresh _ _, .invalidRefreshToken _ => true
  | .refresh _ _, .refreshSessionNotFound _ => true
  | .refresh _ _, .refreshSessionRevoked _ => true
  | .refresh _ _, .refreshTokenReuseDetected _ => true
  | .refresh _ _, .refreshSessionExpired _ => true
  | .authenticateAccessToken _, .missingAccessToken _ => true
  | .authenticateAccessToken _, .invalidAccessToken _ => true
  | .authenticateAccessToken _, .authSessionNotFound _ => true
  | .authenticateAccessToken _, .authSessionRevoked _ => true
  | .authenticateAccessToken _, .authSessionExpired _ => true
  | .authenticateAccessToken _, .authUserNotFound _ => true
  | .revokeSession _ _, .sessionNotFound _ => true
  | .revokeSession _ _, .sessionForbidden _ => true
  | .revokeCurrentSession _, .sessionNotFound _ => true
  | .revokeCurrentSession _, .sessionForbidden _ => true
  | .changePassword _ _, .changePasswordValidation _ => true
  | .changePassword _ _, .invalidCurrentPassword _ => true
  | .changePassword _ _, .authUserNotFound _ => true
  | .requestReset _ _, .tooManyPasswordResetAttempts _ => true
  | .confirmReset _ _, .passwordResetValidation _ => true
  | .confirmReset _ _, .invalidPasswordResetToken _ => true
  | .confirmReset _ _, .passwordResetExpired _ => true
  | .confirmReset _ _, .tooManyPasswordResetAttempts _ => true
  | .tick _, _ => true
  | _, _ => false

/-- The kind of response of a use case. -/
def Response.answers : Response → Command → Bool
  | .signedUp _, .signUp _ _ => true
  | .me _, .getCurrentUser _ => true
  | .signedIn _, .signIn _ _ => true
  | .refreshed _, .refresh _ _ => true
  | .authenticated _, .authenticateAccessToken _ => true
  | .sessions _, .listSessions _ => true
  | .done, .verifyEmail _ _ => true
  | .done, .resendEmailVerification _ _ => true
  | .done, .revokeSession _ _ => true
  | .done, .revokeCurrentSession _ => true
  | .done, .revokeAllSessions _ => true
  | .done, .changePassword _ _ => true
  | .done, .requestReset _ _ => true
  | .done, .confirmReset _ _ => true
  | .done, .tick _ => true
  | _, _ => false

/-- How a use case can end: with an exception of its list, or with a response of its kind. -/
def Command.Ends (command : Command) (res : Except Error Response) : Prop :=
  match res with
  | .ok response => response.answers command = true
  | .error x => command.throws x = true

/-- Every command can end with a fault of the environment. -/
theorem Command.throws_runtimeError (command : Command) (what : Str) :
    command.throws (.runtimeError what) = true := by
  cases command <;> rfl

/-- Every exception of the transaction is one of the command. -/
def Tx.Throws {α : Type} (command : Command) (tx : Tx α) : Prop :=
  ∀ db x, tx db = .error x → command.throws x = true

namespace Tx

variable {α β : Type} {command : Command} {pg : Postgres} {i : Input}

/-! ### Rules -/

/-- A transaction of two parts throws what one of them throws. -/
theorem throws_bind {tx : Tx α} {f : α → Tx β} (htx : tx.Throws command)
    (hf : ∀ a, (f a).Throws command) : (tx >>= f).Throws command := by
  intro db x h
  cases hdb : tx db with
  | error y =>
    have heq : (tx >>= f) db = .error y := by
      show (tx db >>= fun r => f r.1 r.2) = _
      rw [hdb]
      rfl
    rw [heq] at h
    cases h
    exact htx db _ hdb
  | ok r =>
    refine hf r.1 r.2 x ?_
    have heq : (tx >>= f) db = f r.1 r.2 := by
      show (tx db >>= fun r => f r.1 r.2) = _
      rw [hdb]
      rfl
    rw [← heq]
    exact h

/-- A requirement throws its own error. -/
theorem throws_require {cond : Bool} {error : Error} (h : command.throws error = true) :
    (Tx.require cond error).Throws command := by
  intro db x hx
  cases cond with
  | true => cases hx
  | false =>
    cases hx
    exact h

/-- A statement that does not throw. -/
theorem throws_of_ok {tx : Tx α} (h : ∀ db, ∃ r, tx db = .ok r) : tx.Throws command := by
  intro db x hx
  obtain ⟨r, hr⟩ := h db
  rw [hr] at hx
  cases hx

/-! ### Statements -/

/-- Recording an attempt throws nothing of its own. -/
theorem throws_tryRecordAttempt {args : Option AttemptArgs}
    {tryRecord : Postgres → AttemptArgs → List Attempt → Option Attempt}
    {rows : Db → List Attempt} {store : Db → List Attempt → Db} :
    (Tx.tryRecordAttempt pg args tryRecord rows store).Throws command := by
  intro db x h
  unfold Tx.tryRecordAttempt at h
  cases args with
  | none =>
    cases h
    exact command.throws_runtimeError _
  | some args =>
    simp only at h
    split at h <;> cases h

/-- The limiter of a use case: its own exception, and that of a malformed address. -/
theorem throws_recordAttempt {args : Option AttemptArgs}
    {tryRecord : Postgres → AttemptArgs → List Attempt → Option Attempt}
    {rows : Db → List Attempt} {store : Db → List Attempt → Db} {x : Error}
    (hx : command.throws x = true) :
    (do
      let recorded ← Tx.tryRecordAttempt pg args tryRecord rows store
      Tx.require recorded x : Tx Unit).Throws command :=
  throws_bind throws_tryRecordAttempt fun _ => throws_require hx

/-- The limiter of `SignUp`. -/
theorem throws_signUpRateLimitTx {cmd : SignUpCommand} {m : RequestMeta}
    {policy : SignUpRateLimitPolicy} {ip : Str} {now : Time} :
    (IdentityService.signUpRateLimitTx pg policy ip now).Throws (.signUp cmd m) := by
  refine throws_bind ?_ fun _ => throws_require rfl
  intro db x hx
  unfold SignUpAttemptRepository.tryRecordAttempt at hx
  split at hx
  · cases hx
    rfl
  · split at hx <;> cases hx

/-- Inserting a session throws nothing of its own: a duplicate id is a fault. -/
theorem throws_insertSession {data : NewSessionData} :
    (SessionRepository.insert pg i data).Throws command := by
  intro db x h
  unfold SessionRepository.insert at h
  split at h
  · cases h
    exact command.throws_runtimeError _
  · split at h <;> cases h
    exact command.throws_runtimeError _

/-- Inserting a device throws nothing of its own. -/
theorem throws_insertDevice {data : NewDeviceData} :
    (DeviceRepository.insert i data).Throws command := by
  intro db x h
  unfold DeviceRepository.insert at h
  simp only at h
  split at h <;> cases h
  exact command.throws_runtimeError _

/-- Inserting an email code throws nothing of its own. -/
theorem throws_insertVerification {data : NewOneTimeCodeData} :
    (EmailVerificationRepository.insert pg i data).Throws command := by
  intro db x h
  unfold EmailVerificationRepository.insert at h
  split at h
  · cases h
    exact command.throws_runtimeError _
  · split at h <;> cases h
    exact command.throws_runtimeError _

/-- Inserting a reset token throws nothing of its own. -/
theorem throws_insertReset {data : NewOneTimeCodeData} :
    (PasswordResetRepository.insert pg i data).Throws command := by
  intro db x h
  unfold PasswordResetRepository.insert at h
  split at h
  · cases h
    exact command.throws_runtimeError _
  · split at h <;> cases h
    exact command.throws_runtimeError _

/-- Inserting a job throws nothing of its own. -/
theorem throws_insertJob {job : EnqueueEmail} :
    (EmailOutboxRepository.insert i job).Throws command := by
  intro db x h
  unfold EmailOutboxRepository.insert at h
  simp only at h
  split at h <;> cases h
  exact command.throws_runtimeError _

/-! ### Transactions -/

/-- Issuing an email code throws nothing of its own. -/
theorem throws_issueCodeTx {ports : Ports} {policy : EmailVerificationPolicy} {userId : Uuid}
    {email : Str} {m : RequestMeta} {now : Time} :
    (IdentityService.issueCodeTx ports policy userId email m now i).Throws command :=
  throws_bind throws_insertVerification fun _ => throws_insertJob

/-- The unique indexes of the users are what a sign-up can run into. -/
theorem throws_signUpTx {ports : Ports} {policy : EmailVerificationPolicy} {data : NewUserData}
    {cmd : SignUpCommand} {m m' : RequestMeta} :
    (IdentityService.signUpTx ports policy data m' i).Throws (.signUp cmd m) := by
  refine throws_bind ?_ fun user => ?_
  · intro db x h
    unfold UserRepository.insert at h
    simp only at h
    split at h <;> cases h <;> rfl
  · cases user.email with
    | none => exact throws_of_ok fun _ => ⟨_, rfl⟩
    | some email => exact throws_bind throws_issueCodeTx fun _ => throws_of_ok fun _ => ⟨_, rfl⟩

/-- The transaction of `ResendEmailVerification`. -/
theorem throws_resendTx {ports : Ports} {policy : EmailVerificationPolicy} {email : Str}
    {user? : Option User} {cmd : ResendEmailVerificationCommand} {m m' : RequestMeta}
    {now : Time} :
    (IdentityService.resendTx ports policy email user? m' now i).Throws
      (.resendEmailVerification cmd m) := by
  refine throws_bind (throws_recordAttempt rfl) fun _ => ?_
  cases user? with
  | none => exact throws_of_ok fun _ => ⟨_, rfl⟩
  | some user =>
    simp only
    split
    · exact throws_of_ok fun _ => ⟨_, rfl⟩
    · split
      · exact throws_of_ok fun _ => ⟨_, rfl⟩
      · exact throws_bind (throws_of_ok fun _ => ⟨_, rfl⟩) fun _ => throws_issueCodeTx

/-- The transaction of `RequestReset`. -/
theorem throws_requestResetTx {ports : Ports} {policy : PasswordResetPolicy} {email : Str}
    {user? : Option User} {cmd : RequestPasswordResetCommand} {m m' : RequestMeta}
    {now : Time} :
    (PasswordService.requestResetTx ports policy email user? m' now i).Throws
      (.requestReset cmd m) := by
  refine throws_bind (throws_recordAttempt rfl) fun _ => ?_
  cases user? with
  | none => exact throws_of_ok fun _ => ⟨_, rfl⟩
  | some user =>
    simp only
    split
    · refine throws_bind (throws_of_ok fun _ => ⟨_, rfl⟩) fun _ => ?_
      exact throws_bind throws_insertReset fun _ => throws_insertJob
    · exact throws_of_ok fun _ => ⟨_, rfl⟩

end Tx

/-! ### Validators -/

/-- An exception of the validator of a sign-up. -/
theorem signUp_throws {policy : SignUpPolicy} {cmd : SignUpCommand} {m : RequestMeta}
    {x : Error} (h : signUpValidateAndNormalize policy cmd = .error x) :
    (Command.signUp cmd m).throws x = true := by
  unfold signUpValidateAndNormalize at h
  -- each branch of the validator throws its own exception
  split at h
  · cases h
    rfl
  · split at h
    · cases h
      rfl
    · split at h
      · cases h
        rfl
      · cases hinput : signUpInput policy cmd with
        | ok _ => simp [hinput, Except.mapError] at h
        | error what =>
          rw [hinput] at h
          cases h
          rfl

/-- An exception of the validator of a sign-in. -/
theorem signIn_throws {cmd : SignInCommand} {m : RequestMeta} {x : Error}
    (h : signInValidateAndNormalize cmd = .error x) : (Command.signIn cmd m).throws x = true := by
  unfold signInValidateAndNormalize at h
  split at h
  · cases h
    rfl
  · split at h
    · cases h
      rfl
    · split at h
      · cases h
        rfl
      · cases hinput : signInIdentifier cmd with
        | ok _ => simp [hinput, Except.mapError] at h
        | error what =>
          rw [hinput] at h
          cases h
          rfl

/-- A validator that is wrapped throws the exception of its wrapper. -/
theorem throws_of_mapError {α : Type} {command : Command} {value : Except Str α}
    {wrap : Str → Error} (hwrap : ∀ what, command.throws (wrap what) = true) {x : Error}
    (h : value.mapError wrap = .error x) : command.throws x = true := by
  cases value with
  | ok a => cases h
  | error what =>
    cases h
    exact hwrap what

end SmirklyAuth
