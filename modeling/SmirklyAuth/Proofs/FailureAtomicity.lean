import SmirklyAuth.Protocol.SoloRules
import SmirklyAuth.Protocol.Transactions
import SmirklyAuth.System

/-!
# `SmirklyAuth.Proofs.FailureAtomicity`: what a failed call leaves behind

A call has up to three transactions, and every step of it can be hit by a fault.
`Leftover app command db db'` says what a call may have changed when it ended with an
exception: the recorded attempt, the count of a comparison that failed, and the revocation of
a family whose token was used again. `failed_call_leaves` proves it for every use case, every
database and every choice of the faults.

The proof is one walk along each use case with the rules for `Ensures`. Each step asks for
`Leftover` between the database at the start of the call and the current one. So it has to be
shown again only after a transaction that is not the last step of its use case. There are
six of these, and they are the ones that `Leftover` lists.

A fault in a transaction stands for an exception of any call between `Begin` and `Commit`, and
of `Commit` itself.
-/

set_option autoImplicit false

namespace SmirklyAuth

open Interleaving Service
open Sql.Update (Rewrites rewrites_run)

/-! ### The allowed changes -/

/-- The tables of attempts. -/
inductive Flow where
  | signUp | signIn | emailVerification | passwordReset
  deriving DecidableEq, Repr

/-- The table of attempts that a use case writes. -/
def Command.flow : Command → Option Flow
  | .signUp _ _ => some .signUp
  | .signIn _ _ => some .signIn
  | .verifyEmail _ _ => some .emailVerification
  | .resendEmailVerification _ _ => some .emailVerification
  | .requestReset _ _ => some .passwordReset
  | .confirmReset _ _ => some .passwordReset
  | _ => none

/-- The table is unchanged, or `cond` holds and it has one more row. -/
def GrowsIf {ρ : Type} (cond : Prop) (rows rows' : List ρ) : Prop :=
  rows' = rows ∨ cond ∧ ∃ row, rows' = rows ++ [row]

/-- A failed comparison is counted on the row with the id. -/
def OneTimeCode.Counted (id : Uuid) (r r' : OneTimeCode) : Prop :=
  r.id = id ∧ ∃ now, r' = { r with attempts := r.attempts + 1, lastAttemptAt := some now }

/-- An active session of the family is revoked. -/
def SessionOf.RevokedIn (userId familyId : Uuid) (r r' : SessionRow) : Prop :=
  r.userId = userId ∧ r.tokenFamilyId = familyId ∧ r.revokedAt = none ∧
    ∃ now, r' = { r with revokedAt := some now }

/-- What a call that ended with an exception may have changed. -/
structure Leftover (app : App) (command : Command) (db db' : Db) : Prop where
  users : db'.users = db.users
  devices : db'.devices = db.devices
  emailOutbox : db'.emailOutbox = db.emailOutbox
  signUpAttempts :
    GrowsIf (command.flow = some .signUp) db.signUpAttempts db'.signUpAttempts
  signInAttempts :
    GrowsIf (command.flow = some .signIn) db.signInAttempts db'.signInAttempts
  emailVerificationAttempts : GrowsIf (command.flow = some .emailVerification)
    db.emailVerificationAttempts db'.emailVerificationAttempts
  passwordResetAttempts : GrowsIf (command.flow = some .passwordReset)
    db.passwordResetAttempts db'.passwordResetAttempts
  /-- The code was compared with the submitted one and found wrong. -/
  emailVerifications : db'.emailVerifications = db.emailVerifications ∨
    ∃ cmd m, command = .verifyEmail cmd m ∧ ∃ code ∈ db.emailVerifications,
      app.ports.verificationCodeHasher.verify code.userId cmd.code code.secretHash = false ∧
      Rewrites (OneTimeCode.Counted code.id) db.emailVerifications db'.emailVerifications
  /-- The token was compared with the submitted one and found wrong. -/
  passwordResets : db'.passwordResets = db.passwordResets ∨
    ∃ cmd m, command = .confirmReset cmd m ∧ ∃ reset ∈ db.passwordResets,
      app.ports.resetTokenHasher.verify cmd.token reset.secretHash = false ∧
      Rewrites (OneTimeCode.Counted reset.id) db.passwordResets db'.passwordResets
  /-- The submitted token is that of a revoked session, and its family is revoked. -/
  sessions : db'.sessions = db.sessions ∨
    ∃ cmd m, command = .refresh cmd m ∧ ∃ reused ∈ db.sessions,
      reused.revokedAt.isSome = true ∧
      app.ports.refreshTokenHasher.verify cmd.refreshToken reused.refreshTokenHash = true ∧
      Rewrites (SessionOf.RevokedIn reused.userId reused.tokenFamilyId) db.sessions db'.sessions

/-- The tables of accounts, sessions, devices, codes, resets and mail jobs have the same
rows, up to the columns of the rows. -/
structure SameRows (db db' : Db) : Prop where
  users : db'.users.map (·.id) = db.users.map (·.id)
  sessions : db'.sessions.map (·.id) = db.sessions.map (·.id)
  devices : db'.devices.map (·.id) = db.devices.map (·.id)
  emailVerifications : db'.emailVerifications.map (·.id) = db.emailVerifications.map (·.id)
  passwordResets : db'.passwordResets.map (·.id) = db.passwordResets.map (·.id)
  emailOutbox : db'.emailOutbox.map (·.id) = db.emailOutbox.map (·.id)

/-- At most one row changed, and its change is one counted comparison. -/
def CountsOnce (rows rows' : List OneTimeCode) : Prop :=
  rows' = rows ∨ ∃ pre r now post, rows = pre ++ r :: post ∧
    rows' = pre ++ { r with attempts := r.attempts + 1, lastAttemptAt := some now } :: post

section

variable {app : App} {command : Command} {db db' : Db}

/-- Nothing was written. -/
theorem Leftover.refl (app : App) (command : Command) (db : Db) :
    Leftover app command db db where
  users := rfl
  devices := rfl
  emailOutbox := rfl
  signUpAttempts := .inl rfl
  signInAttempts := .inl rfl
  emailVerificationAttempts := .inl rfl
  passwordResetAttempts := .inl rfl
  emailVerifications := .inl rfl
  passwordResets := .inl rfl
  sessions := .inl rfl

/-- None of the changes adds or removes a row of the other tables. -/
theorem Leftover.sameRows (h : Leftover app command db db') : SameRows db db' where
  users := by rw [h.users]
  devices := by rw [h.devices]
  emailOutbox := by rw [h.emailOutbox]
  emailVerifications := by
    rcases h.emailVerifications with heq | ⟨_, _, _, code, _, _, hrows⟩
    · rw [heq]
    · exact hrows.map_eq fun r r' ⟨_, _, hset⟩ => by rw [hset]
  passwordResets := by
    rcases h.passwordResets with heq | ⟨_, _, _, reset, _, _, hrows⟩
    · rw [heq]
    · exact hrows.map_eq fun r r' ⟨_, _, hset⟩ => by rw [hset]
  sessions := by
    rcases h.sessions with heq | ⟨_, _, _, reused, _, _, _, hrows⟩
    · rw [heq]
    · exact hrows.map_eq fun r r' ⟨_, _, _, _, hset⟩ => by rw [hset]

/-- Where ids are unique, a failed comparison is counted on one row. -/
theorem countsOnce_of_rewrites {id : Uuid} {rows rows' : List OneTimeCode}
    (h : Rewrites (OneTimeCode.Counted id) rows rows') (hkeys : (rows.map (·.id)).Nodup) :
    CountsOnce rows rows' := by
  rcases h.eq_or_one (fun _ _ hcounted => hcounted.1) hkeys with
    heq | ⟨pre, r, _, post, hrows, hrows', -, now, rfl⟩
  · exact .inl heq
  · exact .inr ⟨pre, r, now, post, hrows, hrows'⟩

/-- In the tables of codes one attempt of one code is counted, at most. -/
theorem Leftover.countsOnce (h : Leftover app command db db') :
    ((db.emailVerifications.map (·.id)).Nodup →
      CountsOnce db.emailVerifications db'.emailVerifications) ∧
    ((db.passwordResets.map (·.id)).Nodup →
      CountsOnce db.passwordResets db'.passwordResets) := by
  constructor
  · intro hkeys
    rcases h.emailVerifications with heq | ⟨_, _, _, code, _, _, hrows⟩
    · exact .inl heq
    · exact countsOnce_of_rewrites hrows hkeys
  · intro hkeys
    rcases h.passwordResets with heq | ⟨_, _, _, reset, _, _, hrows⟩
    · exact .inl heq
    · exact countsOnce_of_rewrites hrows hkeys

/-- The postcondition of a use case that started in `db`. -/
def Fails {α : Type} (app : App) (command : Command) (db : Db) (result : Except Error α)
    (db' : Db) : Prop :=
  ∀ x, result = .error x → Leftover app command db db'

/-- Any exception may leave this behind. -/
theorem fails_of_leftover {α : Type} (h : Leftover app command db db') (x : Error) :
    Fails (α := α) app command db (.error x) db' := fun _ _ => h

/-- Any exception may leave nothing behind. -/
theorem fails_same {α : Type} (x : Error) : Fails (α := α) app command db (.error x) db :=
  fails_of_leftover (.refl app command db) x

/-- A result is no exception. -/
theorem fails_ok {α : Type} (a : α) : Fails app command db (.ok a) db' := fun _ h => nomatch h

/-- The program of a request is its use case and a wrapper. -/
theorem ensures_wrap {α : Type} {p : Service α} {wrap : α → Response}
    (h : p.Ensures db (Fails app command db)) :
    (p >>= fun a => pure (wrap a)).Ensures db (Fails app command db) := by
  refine Prog.ensures_bind (h.mono fun result db' hend => ?_)
  cases result with
  | ok a => exact Prog.ensures_pure (fails_ok _)
  | error x => exact fun _ _ => hend x rfl

/-- A use case whose last step is its only transaction. -/
theorem ensures_transaction_fails {α : Type} {event : α → TxEvent} {tx : Input → Tx α}
    (h : Leftover app command db db') :
    (transaction event tx).Ensures db' (Fails app command db) :=
  ensures_transaction (fails_of_leftover h) fun _ _ _ _ => fails_ok _

end

/-! ### `SignUp`, `VerifyEmail` and `ResendEmailVerification` -/

section

variable {app : App} {p : AuthRuntimePolicies} {db : Db}

/-- The limiter of the sign-ups: the rest runs with or without a new row of its table. -/
theorem ensures_limitSignUp_bind {α : Type} {policy : SignUpRateLimitPolicy}
    {m : RequestMeta} {g : Unit → Service α} {Q : Except Error α → Db → Prop}
    (hthrow : ∀ x, Q (.error x) db) (hsame : (g ()).Ensures db Q)
    (hrecorded : ∀ row,
      (g ()).Ensures { db with signUpAttempts := db.signUpAttempts ++ [row] } Q) :
    (IdentityService.limitSignUp app.ports.pg policy m >>= g).Ensures db Q := by
  unfold IdentityService.limitSignUp
  split
  · exact hsame
  · split
    · refine Prog.ensures_bind (ensures_port_bind hthrow fun _ => ?_)
      refine ensures_transaction hthrow fun _ _ _ htx => ?_
      obtain ⟨row, rfl⟩ := signUpRateLimitTx_eq_ok htx
      exact hrecorded row
    · exact hsame

/-- The check of a name writes nothing. -/
theorem ensures_rejectTaken_bind {α : Type} {value : Option Str}
    {taken : Str → List User → Bool} {error : Error} {g : Unit → Service α}
    {Q : Except Error α → Db → Prop} (hthrow : ∀ x, Q (.error x) db)
    (h : (g ()).Ensures db Q) :
    (IdentityService.rejectTaken value taken error >>= g).Ensures db Q := by
  unfold IdentityService.rejectTaken
  cases value with
  | none => exact h
  | some v =>
    refine Prog.ensures_bind (ensures_port_bind hthrow fun _ => ?_)
    unfold throwIf
    split
    · exact Prog.ensures_throw (hthrow _)
    · exact Prog.ensures_pure h

/-- A sign-up that fails. -/
theorem signUp_fails (cmd : SignUpCommand) (m : RequestMeta) :
    (IdentityService.signUp app.ports app.signUpPolicy p cmd m).Ensures db
      (Fails app (.signUp cmd m) db) := by
  unfold IdentityService.signUp
  refine ensures_validated_bind fails_same fun input _ => ?_
  -- the rest of the use case, from the database with or without the attempt
  have hrest : ∀ db₁, Leftover app (.signUp cmd m) db db₁ →
      (do
        IdentityService.rejectTaken (some input.username.value)
          (usersExistsByUsername app.ports.pg) (.usernameTaken "username taken")
        IdentityService.rejectTaken (input.email.map (·.value))
          (usersExistsByEmail app.ports.pg) (.emailTaken "email taken")
        IdentityService.rejectTaken (input.phone.map (·.value)) usersExistsByPhone
          (.phoneTaken "phone taken")
        let hash ← port .hashedPassword fun i _ =>
          app.ports.passwordHasher.hash input.password i.salt
        transaction (fun user => .signedUp user.id)
          (IdentityService.signUpTx app.ports p.emailVerification
            (UserFactory.createFromSignUp input.username.value hash
              (input.email.map (·.value)) (input.phone.map (·.value))) m) :
          Service User).Ensures db₁ (Fails app (.signUp cmd m) db) := by
    intro db₁ h
    iterate 3 refine ensures_rejectTaken_bind (fails_of_leftover h) ?_
    refine ensures_port_bind (fails_of_leftover h) fun _ => ?_
    exact ensures_transaction_fails h
  refine ensures_limitSignUp_bind fails_same (hrest db (.refl _ _ _)) fun row => hrest _ ?_
  exact { Leftover.refl app (.signUp cmd m) db with signUpAttempts := .inr ⟨rfl, row, rfl⟩ }

/-- A wrong guess counts one attempt of one code. -/
theorem counted_increment {id : Uuid} {now : Time} {maxAttempts : Nat}
    (rows : List OneTimeCode) :
    Rewrites (OneTimeCode.Counted id) rows
      ((OneTimeCode.incrementAttempts id now maxAttempts).run rows) := by
  refine rewrites_run (fun r hcond => ?_) rows
  have hid : r.id = id := beq_iff_eq.mp (Bool.and_eq_true_iff.mp hcond).1
  exact ⟨hid, now, rfl⟩

/-- A verification that fails. -/
theorem verifyEmail_fails (cmd : VerifyEmailCommand) (m : RequestMeta) :
    (IdentityService.verifyEmail app.ports p cmd m).Ensures db
      (Fails app (.verifyEmail cmd m) db) := by
  unfold IdentityService.verifyEmail
  refine ensures_port_bind fails_same fun i => ?_
  refine ensures_port_bind fails_same fun _ => ?_
  refine ensures_throwIf_bind fails_same fun _ => ?_
  refine ensures_transaction_bind fails_same fun _ _ _ htx => ?_
  -- from here on the attempt is committed, whatever follows
  obtain ⟨row, rfl⟩ := verificationAttemptTx_eq_ok htx
  have hattempt : Leftover app (.verifyEmail cmd m) db
      { db with emailVerificationAttempts := db.emailVerificationAttempts ++ [row] } :=
    { Leftover.refl app (.verifyEmail cmd m) db with
      emailVerificationAttempts := .inr ⟨rfl, row, rfl⟩ }
  refine ensures_orThrow_bind (fails_of_leftover hattempt) fun user _ => ?_
  refine ensures_port_bind (fails_of_leftover hattempt) fun _ => ?_
  refine ensures_orThrow_bind (fails_of_leftover hattempt) fun code hcode => ?_
  obtain ⟨hmem, hfound⟩ := OneTimeCode.findActiveByUserId_eq_some hcode
  refine ensures_port_bind (fails_of_leftover hattempt) fun _ => ?_
  split
  · -- a wrong code is counted before the exception
    rename_i hwrong
    refine ensures_transaction_bind (fails_of_leftover hattempt) fun _ _ _ htx => ?_
    refine Prog.ensures_throw (fails_of_leftover ?_ _)
    cases htx
    refine { hattempt with
      emailVerifications := .inr ⟨cmd, m, rfl, code, hmem, ?_, counted_increment _⟩ }
    rw [hfound.owner]
    simpa using hwrong
  · -- the code and the account are written together or not at all
    exact ensures_transaction_fails hattempt

/-- A repeated verification mail that fails. -/
theorem resendEmailVerification_fails (cmd : ResendEmailVerificationCommand)
    (m : RequestMeta) :
    (IdentityService.resendEmailVerification app.ports p cmd m).Ensures db
      (Fails app (.resendEmailVerification cmd m) db) := by
  unfold IdentityService.resendEmailVerification
  refine ensures_port_bind fails_same fun _ => ?_
  refine ensures_port_bind fails_same fun _ => ?_
  -- the attempt is recorded in the same transaction, so an exception takes it back
  exact ensures_transaction_fails (.refl _ _ _)

end

/-! ### `SignIn`, `Refresh` and `AuthenticateAccessToken` -/

section

variable {app : App} {p : AuthRuntimePolicies} {db : Db}

/-- A refused sign-in has recorded its attempt. -/
theorem recordFailedAttempt_fails (cmd : SignInCommand) (m : RequestMeta) {identifier : Str}
    {userId : Option Uuid} {now since : Time} {error : Error} :
    (do
      AuthenticationService.recordFailedAttempt app.ports.pg p.signIn identifier userId m now
        since
      throw error : Service SignInResult).Ensures db (Fails app (.signIn cmd m) db) := by
  refine ensures_transaction_bind fails_same fun _ _ _ htx => ?_
  obtain ⟨row, -, -, rfl⟩ := signInRecordAttemptTx_eq_ok htx
  refine Prog.ensures_throw (fails_of_leftover ?_ _)
  exact { Leftover.refl app (.signIn cmd m) db with signInAttempts := .inr ⟨rfl, row, rfl⟩ }

/-- A sign-in that fails. -/
theorem signIn_fails (cmd : SignInCommand) (m : RequestMeta) :
    (AuthenticationService.signIn app.ports p cmd m).Ensures db
      (Fails app (.signIn cmd m) db) := by
  unfold AuthenticationService.signIn
  refine ensures_validated_bind fails_same fun input _ => ?_
  iterate 3 refine ensures_port_bind fails_same fun _ => ?_
  refine ensures_orThrow_bind fails_same fun counters _ => ?_
  refine ensures_throwIf_bind fails_same fun _ => ?_
  split
  · exact recordFailedAttempt_fails cmd m
  · refine ensures_port_bind fails_same fun _ => ?_
    split
    · exact recordFailedAttempt_fails cmd m
    · split
      · exact recordFailedAttempt_fails cmd m
      · unfold AuthenticationService.openSession AuthenticationService.generateId
        iterate 4 refine ensures_port_bind fails_same fun _ => ?_
        exact ensures_transaction_bind fails_same fun _ _ _ _ =>
          Prog.ensures_pure (fails_ok _)

/-- A family is revoked. -/
theorem revokedIn_revokeByTokenFamily {now : Time} {userId familyId : Uuid}
    (rows : List SessionRow) :
    Rewrites (SessionOf.RevokedIn userId familyId) rows
      ((sessionsRevokeByTokenFamily now userId familyId).run rows) := by
  refine rewrites_run (fun r hcond => ?_) rows
  simp only [sessionsRevokeByTokenFamily, Bool.and_eq_true, beq_iff_eq,
    Option.isNone_iff_eq_none] at hcond
  exact ⟨hcond.1.1, hcond.1.2, hcond.2, now, rfl⟩

/-- A refresh of a revoked session fails, and may have revoked the family. -/
theorem refreshRevoked_fails (cmd : RefreshCommand) (m : RequestMeta) {row : SessionRow}
    (hrow : row ∈ db.sessions) (hrevoked : row.revokedAt.isSome = true) :
    (AuthenticationService.refreshRevoked app.ports cmd (row.toDomain app.ports.pg)).Ensures db
      (Fails app (.refresh cmd m) db) := by
  unfold AuthenticationService.refreshRevoked
  refine ensures_port_bind fails_same fun _ => ?_
  split
  · -- the revocation of the family is committed, and then the call throws
    rename_i hreused
    refine ensures_transaction_bind fails_same fun _ _ _ htx => ?_
    refine Prog.ensures_throw (fails_of_leftover ?_ _)
    cases htx
    exact { Leftover.refl app (.refresh cmd m) db with
      sessions := .inr ⟨cmd, m, rfl, row, hrow, hrevoked, hreused,
        revokedIn_revokeByTokenFamily _⟩ }
  · exact Prog.ensures_throw (fails_same _)

/-- A refresh of an active session that fails. -/
theorem refreshActive_fails (cmd : RefreshCommand) (m : RequestMeta) {session : Session}
    {now : Time} :
    (AuthenticationService.refreshActive app.ports p.session cmd m session now).Ensures db
      (Fails app (.refresh cmd m) db) := by
  unfold AuthenticationService.refreshActive AuthenticationService.generateId clock
  refine ensures_throwIf_bind fails_same fun _ => ?_
  refine ensures_port_bind fails_same fun _ => ?_
  refine ensures_throwIf_bind fails_same fun _ => ?_
  iterate 4 refine ensures_port_bind fails_same fun _ => ?_
  exact ensures_transaction_bind fails_same fun _ _ _ _ => Prog.ensures_pure (fails_ok _)

/-- A refresh that fails. -/
theorem refresh_fails (cmd : RefreshCommand) (m : RequestMeta) :
    (AuthenticationService.refresh app.ports p cmd m).Ensures db
      (Fails app (.refresh cmd m) db) := by
  unfold AuthenticationService.refresh
  refine ensures_throwIf_bind fails_same fun _ => ?_
  refine ensures_port_bind fails_same fun _ => ?_
  refine ensures_orThrow_bind fails_same fun claims _ => ?_
  refine ensures_port_bind fails_same fun _ => ?_
  refine ensures_orThrow_bind fails_same fun session hsession => ?_
  obtain ⟨row, hfind, rfl⟩ := Option.map_eq_some_iff.mp hsession
  refine ensures_port_bind fails_same fun _ => ?_
  refine ensures_throwIf_bind fails_same fun _ => ?_
  refine ensures_throwIf_bind fails_same fun _ => ?_
  split
  · -- the session was read from the database that the branch starts in
    rename_i hrevoked
    exact refreshRevoked_fails cmd m (List.mem_of_find?_eq_some hfind) hrevoked
  · exact refreshActive_fails cmd m

/-- An authentication that fails. -/
theorem authenticateAccessToken_fails (accessToken : Str) :
    (AuthenticationService.authenticateAccessToken app.ports p accessToken).Ensures db
      (Fails app (.authenticateAccessToken accessToken) db) := by
  unfold AuthenticationService.authenticateAccessToken
  refine ensures_throwIf_bind fails_same fun _ => ?_
  refine ensures_port_bind fails_same fun _ => ?_
  refine ensures_orThrow_bind fails_same fun _ _ => ?_
  refine ensures_port_bind fails_same fun _ => ?_
  refine ensures_orThrow_bind fails_same fun _ _ => ?_
  refine ensures_throwIf_bind fails_same fun _ => ?_
  refine ensures_throwIf_bind fails_same fun _ => ?_
  refine ensures_port_bind fails_same fun _ => ?_
  refine ensures_throwIf_bind fails_same fun _ => ?_
  refine ensures_port_bind fails_same fun _ => ?_
  refine ensures_orThrow_bind fails_same fun _ _ => ?_
  split
  · exact ensures_transaction_bind fails_same fun _ _ _ _ => Prog.ensures_pure (fails_ok _)
  · exact Prog.ensures_pure (fails_ok _)

end

/-! ### `SessionService` and `PasswordService` -/

section

variable {app : App} {p : AuthRuntimePolicies} {command : Command} {db : Db}

/-- A revocation that fails. -/
theorem revokeSession_fails (context : AuthContext) (sessionId : Uuid) :
    (SessionService.revokeSession app.ports context sessionId).Ensures db
      (Fails app command db) := by
  unfold SessionService.revokeSession
  refine ensures_port_bind fails_same fun _ => ?_
  refine ensures_orThrow_bind fails_same fun _ _ => ?_
  refine ensures_throwIf_bind fails_same fun _ => ?_
  split
  · exact Prog.ensures_pure (fails_ok _)
  · exact ensures_transaction_bind fails_same fun _ _ _ _ => Prog.ensures_pure (fails_ok _)

/-- A revocation of all sessions that fails. -/
theorem revokeAllSessions_fails (context : AuthContext) :
    (SessionService.revokeAllSessions context).Ensures db (Fails app command db) :=
  ensures_transaction_bind fails_same fun _ _ _ _ => Prog.ensures_pure (fails_ok _)

/-- A change of the password that fails. -/
theorem changePassword_fails (context : AuthContext) (cmd : ChangePasswordCommand) :
    (PasswordService.changePassword app.ports app.passwordPolicy context cmd).Ensures db
      (Fails app command db) := by
  unfold PasswordService.changePassword
  refine ensures_throwIf_bind fails_same fun _ => ?_
  refine ensures_throwIf_bind fails_same fun _ => ?_
  refine ensures_validated_bind fails_same fun _ _ => ?_
  refine ensures_port_bind fails_same fun _ => ?_
  refine ensures_orThrow_bind fails_same fun _ _ => ?_
  refine ensures_port_bind fails_same fun _ => ?_
  refine ensures_throwIf_bind fails_same fun _ => ?_
  refine ensures_port_bind fails_same fun _ => ?_
  refine ensures_throwIf_bind fails_same fun _ => ?_
  refine ensures_port_bind fails_same fun _ => ?_
  exact ensures_transaction_fails (.refl _ _ _)

/-- A request for a reset that fails. -/
theorem requestReset_fails (cmd : RequestPasswordResetCommand) (m : RequestMeta) :
    (PasswordService.requestReset app.ports p cmd m).Ensures db (Fails app command db) := by
  unfold PasswordService.requestReset
  refine ensures_port_bind fails_same fun _ => ?_
  refine ensures_port_bind fails_same fun _ => ?_
  exact ensures_transaction_fails (.refl _ _ _)

/-- A confirmation of a reset that fails. -/
theorem confirmReset_fails (cmd : ConfirmPasswordResetCommand) (m : RequestMeta) :
    (PasswordService.confirmReset app.ports app.passwordPolicy p cmd m).Ensures db
      (Fails app (.confirmReset cmd m) db) := by
  unfold PasswordService.confirmReset
  refine ensures_validated_bind fails_same fun _ _ => ?_
  refine ensures_port_bind fails_same fun i => ?_
  refine ensures_port_bind fails_same fun _ => ?_
  refine ensures_transaction_bind fails_same fun _ _ _ htx => ?_
  -- from here on the attempt is committed, whatever follows
  obtain ⟨row, rfl⟩ := resetAttemptTx_eq_ok htx
  have hattempt : Leftover app (.confirmReset cmd m) db
      { db with passwordResetAttempts := db.passwordResetAttempts ++ [row] } :=
    { Leftover.refl app (.confirmReset cmd m) db with
      passwordResetAttempts := .inr ⟨rfl, row, rfl⟩ }
  refine ensures_orThrow_bind (fails_of_leftover hattempt) fun user _ => ?_
  refine ensures_port_bind (fails_of_leftover hattempt) fun _ => ?_
  refine ensures_orThrow_bind (fails_of_leftover hattempt) fun reset hreset => ?_
  obtain ⟨hmem, -⟩ := OneTimeCode.findActiveByUserId_eq_some hreset
  refine ensures_port_bind (fails_of_leftover hattempt) fun _ => ?_
  split
  · -- a wrong token is counted before the exception
    rename_i hwrong
    refine ensures_transaction_bind (fails_of_leftover hattempt) fun _ _ _ htx => ?_
    refine Prog.ensures_throw (fails_of_leftover ?_ _)
    cases htx
    exact { hattempt with
      passwordResets := .inr ⟨cmd, m, rfl, reset, hmem, by simpa using hwrong,
        counted_increment _⟩ }
  · refine ensures_port_bind (fails_of_leftover hattempt) fun _ => ?_
    refine ensures_throwIf_bind (fails_of_leftover hattempt) fun _ => ?_
    refine ensures_port_bind (fails_of_leftover hattempt) fun _ => ?_
    -- the reset, the password and the sessions are written together or not at all
    exact ensures_transaction_fails hattempt

end

/-! ### Every use case -/

/-- The request is a use case and not a run of the outbox worker. -/
def Command.isUseCase : Command → Bool
  | .tick _ => false
  | _ => true

/-- The postcondition of every use case. -/
theorem app_fails (app : App) (r : Request) (huse : r.command.isUseCase = true) (db : Db) :
    (app.run r).Ensures db (Fails app r.command db) := by
  obtain ⟨p, command⟩ := r
  cases command with
  | signUp cmd m => exact ensures_wrap (signUp_fails cmd m)
  | verifyEmail cmd m => exact ensures_wrap (verifyEmail_fails cmd m)
  | resendEmailVerification cmd m => exact ensures_wrap (resendEmailVerification_fails cmd m)
  | getCurrentUser context =>
    refine ensures_wrap (ensures_port_bind fails_same fun _ => ?_)
    exact ensures_orThrow_bind fails_same fun _ _ => Prog.ensures_pure (fails_ok _)
  | signIn cmd m => exact ensures_wrap (signIn_fails cmd m)
  | refresh cmd m => exact ensures_wrap (refresh_fails cmd m)
  | authenticateAccessToken token => exact ensures_wrap (authenticateAccessToken_fails token)
  | listSessions context =>
    exact ensures_port_bind fails_same fun _ => Prog.ensures_pure (fails_ok _)
  | revokeSession context sessionId => exact ensures_wrap (revokeSession_fails context sessionId)
  | revokeCurrentSession context => exact ensures_wrap (revokeSession_fails context _)
  | revokeAllSessions context => exact ensures_wrap (revokeAllSessions_fails context)
  | changePassword context cmd => exact ensures_wrap (changePassword_fails context cmd)
  | requestReset cmd m => exact ensures_wrap (requestReset_fails cmd m)
  | confirmReset cmd m => exact ensures_wrap (confirmReset_fails cmd m)
  | tick cfg => cases huse

/-- A use case that ends with an exception has changed nothing but what `Leftover` lists,
wherever the faults hit it. No row of an account, session, device, code, reset or mail job is
left behind, and at most one code or token has its failures counted up by one. -/
theorem failed_call_leaves (app : App) (r : Request) (huse : r.command.isUseCase = true)
    (db : Db) (inputs : Nat → Input) (x : Error)
    (hfailed : ((app.run r).solo inputs db).result = .error x) :
    let db' := ((app.run r).solo inputs db).store
    Leftover app r.command db db' ∧ SameRows db db' ∧
      ((db.emailVerifications.map (·.id)).Nodup →
        CountsOnce db.emailVerifications db'.emailVerifications) ∧
      ((db.passwordResets.map (·.id)).Nodup →
        CountsOnce db.passwordResets db'.passwordResets) := by
  have hleftover := app_fails app r huse db inputs x hfailed
  exact ⟨hleftover, hleftover.sameRows, hleftover.countsOnce⟩

/-- A code of the account. -/
def unitCode : OneTimeCode where
  id := ⟨1⟩
  userId := unitUser.id
  secretHash := "123456"
  createdAt := 0
  expiresAt := seconds 900
  ip := none
  userAgent := none

/-- The account before its address is verified, with one code. -/
def awaitingDb : Db where
  users := [{ unitUser with isEmailVerified := false }]
  emailVerifications := [unitCode]

/-- A wrong code leaves an attempt and a count, and the account as it was. -/
theorem failed_call_leaves_wrongCode :
    let run := (plainApp.run ⟨{}, .verifyEmail ⟨"unit@example.com", "000000"⟩ {}⟩).solo
      (fun _ => {}) awaitingDb
    run.store.emailVerifications.map (·.attempts) = [1] ∧
      run.store.emailVerificationAttempts.length = 1 ∧ run.store.users = awaitingDb.users ∧
      CountsOnce awaitingDb.emailVerifications run.store.emailVerifications := by
  have hall := failed_call_leaves plainApp
    ⟨{}, .verifyEmail ⟨"unit@example.com", "000000"⟩ {}⟩ rfl awaitingDb (fun _ => {})
    (.invalidCode "Invalid verification code") (by rfl)
  exact ⟨by decide +kernel, by decide +kernel, hall.1.users, hall.2.2.1 (List.nodup_singleton _)⟩

end SmirklyAuth
