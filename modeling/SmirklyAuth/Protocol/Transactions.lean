import SmirklyAuth.Services.AuthenticationService
import SmirklyAuth.Services.IdentityService
import SmirklyAuth.Services.PasswordService
import SmirklyAuth.Services.SessionService

/-!
# `SmirklyAuth.Protocol.Transactions`: what each transaction does to the tables

One lemma for each transaction: when it commits, which rows it appends, which `UPDATE`s it
runs, and which constraints held. The tables that a lemma does not mention are unchanged,
since it gives the whole database after the commit.
-/

set_option autoImplicit false

namespace SmirklyAuth

section
variable {α β : Type}

/-- A sequence of statements commits when each of them does. -/
theorem Tx.bind_eq_ok {x : Tx α} {f : α → Tx β} {db : Db} {r : β × Db} :
    (x >>= f) db = .ok r ↔ ∃ a db₁, x db = .ok (a, db₁) ∧ f a db₁ = .ok r := by
  show (Except.bind (x db) fun p => f p.1 p.2) = .ok r ↔ _
  cases hx : x db with
  | error e => simp [Except.bind]
  | ok p => simp [Except.bind, Prod.ext_iff]

/-- A result writes nothing. -/
theorem Tx.pure_eq_ok {a : α} {db : Db} {r : α × Db} :
    (pure a : Tx α) db = .ok r ↔ r = (a, db) := by
  show Except.ok (a, db) = .ok r ↔ _
  rw [Except.ok.injEq, eq_comm]

/-- A requirement writes nothing. -/
theorem Tx.require_eq_ok {cond : Bool} {error : Error} {db : Db} {r : Unit × Db} :
    Tx.require cond error db = .ok r ↔ cond = true ∧ r = ((), db) := by
  unfold Tx.require
  cases cond with
  | false => exact ⟨fun h => (nomatch h), fun h => (nomatch h.1)⟩
  | true => simpa using Tx.pure_eq_ok

end

/-! ### Sessions -/

variable {pg : Postgres} {db db' : Db} {i : Input} {userId : Uuid} {m : RequestMeta}
    {hash email : Str} {user : User} {now : Time} {policy : EmailVerificationPolicy}
    {rows : List OneTimeCode} {ports : Ports}

/-- The session that `FindById` returns has the id it looked for. -/
theorem SessionRepository.id_of_findById {id : Uuid} {s : Session}
    (h : findById pg id db = some s) : s.id = id := by
  obtain ⟨row, hrow, rfl⟩ := Option.map_eq_some_iff.mp h
  unfold sessionsSelectById at hrow
  have hid := List.find?_some hrow
  exact beq_iff_eq.mp hid

/-- A committed insert stored a row with a new id. -/
theorem SessionRepository.insert_eq_ok {data : NewSessionData} {session : Session}
    (h : insert pg i data db = .ok (session, db')) :
    ∃ ip, pg.inetArg data.ip = some ip ∧ (∀ r ∈ db.sessions, r.id ≠ data.id) ∧
      session = (newRow i data ip).toDomain pg ∧
      db' = { db with sessions := db.sessions ++ [newRow i data ip] } := by
  unfold insert at h
  split at h
  · cases h
  · rename_i ip hip
    unfold sessionsInsert at h
    split at h
    · cases h
    · rename_i rows hrows
      split at hrows
      · cases hrows
      · rename_i hfresh
        cases hrows
        cases h
        refine ⟨ip, hip, fun r hr hid => hfresh ?_, rfl, rfl⟩
        exact List.any_eq_true.mpr ⟨r, hr, by simp [newRow, hid]⟩

/-- `auth.sign_in` stores a new device and a new active session of the user. -/
theorem signInTx_eq_ok {policy : SessionPolicy} {sid fam : Uuid}
    {session : Session}
    (h : AuthenticationService.signInTx pg policy userId m sid fam hash i db =
      .ok (session, db')) :
    ∃ device ip, pg.inetArg m.ip = some ip ∧
      (device.userId = userId ∧ ∀ d ∈ db.devices, d.id ≠ device.id) ∧
      (∀ r ∈ db.sessions, r.id ≠ sid) ∧ session.id = sid ∧
      db' = { db with
        devices := db.devices ++ [device]
        sessions := db.sessions ++ [SessionRepository.newRow i
          (SessionFactory.createForSignIn i.now sid userId device.id hash fam m
            policy.refreshTokenTtl) ip] } := by
  unfold AuthenticationService.signInTx at h
  obtain ⟨device, db₁, hdevice, hinsert⟩ := Tx.bind_eq_ok.mp h
  unfold DeviceRepository.insert at hdevice
  simp only at hdevice
  split at hdevice
  · cases hdevice
  · rename_i hunused
    cases hdevice
    obtain ⟨ip, hip, hfresh, hsession, hdb⟩ := SessionRepository.insert_eq_ok hinsert
    refine ⟨_, ip, hip, ⟨rfl, fun d hd hid => hunused ?_⟩, hfresh, by rw [hsession]; rfl, hdb⟩
    exact List.any_eq_true.mpr ⟨d, hd, beq_iff_eq.mpr hid⟩

/-- `auth.refresh` stores a new active session and revokes the old one, which was active. -/
theorem refreshTx_eq_ok {s : Session} {data : NewSessionData} {replacement : Session}
    (h : AuthenticationService.refreshTx pg s data i db = .ok (replacement, db')) :
    ∃ ip, pg.inetArg data.ip = some ip ∧ (∀ r ∈ db.sessions, r.id ≠ data.id) ∧
      replacement.id = data.id ∧
      (sessionsRevokeAndReplace i.dbNow s.id data.id).hits
        (db.sessions ++ [SessionRepository.newRow i data ip]) = true ∧
      db' = { db with
        sessions := (sessionsRevokeAndReplace i.dbNow s.id data.id).run
          (db.sessions ++ [SessionRepository.newRow i data ip]) } := by
  unfold AuthenticationService.refreshTx at h
  obtain ⟨row, db₁, hinsert, hrest⟩ := Tx.bind_eq_ok.mp h
  obtain ⟨replaced, db₂, hreplace, hrest'⟩ := Tx.bind_eq_ok.mp hrest
  obtain ⟨_, db₃, hrequire, hpure⟩ := Tx.bind_eq_ok.mp hrest'
  obtain ⟨hreplaced, hdb₃⟩ := Tx.require_eq_ok.mp hrequire
  cases hdb₃
  cases Tx.pure_eq_ok.mp hpure
  obtain ⟨ip, hip, hfresh, hrow, rfl⟩ := SessionRepository.insert_eq_ok hinsert
  have hid : replacement.id = data.id := by rw [hrow]; rfl
  cases hreplace
  rw [hid] at hreplaced ⊢
  exact ⟨ip, hip, hfresh, rfl, hreplaced, rfl⟩

/-! ### Passwords -/

/-- The user that `FindById` returns has the id it looked for. -/
theorem id_of_usersSelectById {id : Uuid} {users : List User}
    (h : usersSelectById id users = some user) : user.id = id := by
  unfold usersSelectById at h
  have hcond := List.find?_some h
  exact beq_iff_eq.mp (Bool.and_eq_true_iff.mp hcond).1

/-- `auth.change_password` writes the hash and revokes the sessions of the user. -/
theorem changePasswordTx_eq_ok
    (h : PasswordService.changePasswordTx userId hash i db = .ok ((), db')) :
    db' = { db with
      users := (usersUpdatePasswordHash i.dbNow userId hash).run db.users
      sessions := (sessionsRevokeAllByUserId i.dbNow userId).run db.sessions } := by
  cases h
  rfl

/-- `auth.password_reset.confirm` uses the reset, writes the hash and revokes the sessions
of the user. -/
theorem confirmResetTx_eq_ok {policy : PasswordResetPolicy} {resetId : Uuid}
    (h : PasswordService.confirmResetTx policy resetId userId now hash i db = .ok ((), db')) :
    (passwordResetsMarkUsed resetId now.timePointTz policy.maxTokenAttempts).hits
      db.passwordResets = true ∧
    db' = { db with
      passwordResets :=
        (passwordResetsMarkUsed resetId now.timePointTz policy.maxTokenAttempts).run
          db.passwordResets
      users := (usersUpdatePasswordHash i.dbNow userId hash).run db.users
      sessions := (sessionsRevokeAllByUserId i.dbNow userId).run db.sessions } := by
  unfold PasswordService.confirmResetTx at h
  obtain ⟨used, db₁, hmark, hrest⟩ := Tx.bind_eq_ok.mp h
  obtain ⟨_, db₂, hrequire, hwrites⟩ := Tx.bind_eq_ok.mp hrest
  obtain ⟨hused, hdb₂⟩ := Tx.require_eq_ok.mp hrequire
  cases hdb₂
  cases hmark
  cases hwrites
  exact ⟨hused, rfl⟩

/-! ### Attempts -/

/-- An attempt that is recorded and required to be recorded appends one row, with the
identifier and the bound time of the call. -/
theorem Tx.recordAttempt_eq_ok {identifier : Str} {userId : Option Uuid} {since : Time}
    {l₁ l₂ l₃ : Nat} {rows : Db → List Attempt} {store : Db → List Attempt → Db} {error : Error}
    (h : (Tx.tryRecordAttempt pg (attemptArgs pg identifier userId m now since l₁ l₂ l₃)
      Attempt.tryRecord rows store >>= fun recorded => Tx.require recorded error) db =
      .ok ((), db')) :
    ∃ row : Attempt, row.identifier = identifier ∧ row.attemptedAt = now.timePointTz ∧
      db' = store db (rows db ++ [row]) := by
  obtain ⟨recorded, db₁, hrecord, hrequire⟩ := Tx.bind_eq_ok.mp h
  obtain ⟨hrecorded, hdb₁⟩ := Tx.require_eq_ok.mp hrequire
  cases hdb₁
  unfold Tx.tryRecordAttempt at hrecord
  split at hrecord
  · cases hrecord
  · rename_i args hargs
    obtain ⟨ip, -, rfl⟩ := Option.map_eq_some_iff.mp hargs
    split at hrecord
    · cases hrecord
      cases hrecorded
    · rename_i row hrow
      cases hrecord
      unfold Attempt.tryRecord at hrow
      split at hrow
      · cases hrow
        exact ⟨_, rfl, rfl, rfl⟩
      · cases hrow

/-- `auth.sign_in.record_attempt`. -/
theorem signInRecordAttemptTx_eq_ok {policy : SignInPolicy}
    {identifier : Str} {userId : Option Uuid} {since : Time}
    (h : AuthenticationService.recordAttemptTx pg policy identifier userId m now since db =
      .ok ((), db')) :
    ∃ row : Attempt, row.identifier = identifier ∧ row.attemptedAt = now.timePointTz ∧
      db' = { db with signInAttempts := db.signInAttempts ++ [row] } :=
  Tx.recordAttempt_eq_ok h

/-- The attempt of a verification touches only its own table. -/
theorem verificationAttemptTx_eq_ok {userId : Option Uuid}
    (h : IdentityService.recordAttemptTx pg policy email userId m now db = .ok ((), db')) :
    ∃ row, db' = { db with
      emailVerificationAttempts := db.emailVerificationAttempts ++ [row] } := by
  obtain ⟨row, -, -, hdb⟩ := Tx.recordAttempt_eq_ok h
  exact ⟨row, hdb⟩

/-- The attempt of a reset touches only its own table. -/
theorem resetAttemptTx_eq_ok {policy : PasswordResetPolicy} {userId : Option Uuid}
    (h : PasswordService.recordAttemptTx pg policy email userId m now db = .ok ((), db')) :
    ∃ row, db' = { db with
      passwordResetAttempts := db.passwordResetAttempts ++ [row] } := by
  obtain ⟨row, -, -, hdb⟩ := Tx.recordAttempt_eq_ok h
  exact ⟨row, hdb⟩

/-- The attempt of a sign-up touches only its own table. -/
theorem signUpRateLimitTx_eq_ok {policy : SignUpRateLimitPolicy} {ip : Str}
    (h : IdentityService.signUpRateLimitTx pg policy ip now db = .ok ((), db')) :
    ∃ row, db' = { db with signUpAttempts := db.signUpAttempts ++ [row] } := by
  unfold IdentityService.signUpRateLimitTx at h
  obtain ⟨recorded, db₁, hrecord, hrequire⟩ := Tx.bind_eq_ok.mp h
  obtain ⟨hrecorded, hdb₁⟩ := Tx.require_eq_ok.mp hrequire
  cases hdb₁
  unfold SignUpAttemptRepository.tryRecordAttempt at hrecord
  split at hrecord
  · cases hrecord
  · split at hrecord
    · cases hrecord
      cases hrecorded
    · cases hrecord
      exact ⟨_, rfl⟩

/-! ### One-time codes -/

/-- The row that a lookup of the active code of a user at the clock reading `now` returns. -/
structure CodeFound (userId : Uuid) (now : Time) (maxAttempts : Nat) (row : OneTimeCode) :
    Prop where
  owner : row.userId = userId
  active : row.active now.timePointTz maxAttempts = true

/-- The latest code of a list is one of it. -/
theorem OneTimeCode.mem_of_latest {row : OneTimeCode}
    (h : latest rows = some row) : row ∈ rows := by
  induction rows with
  | nil => cases h
  | cons r rows ih =>
    unfold latest at h
    split at h
    · cases h
      exact List.mem_cons_self
    · rename_i r' hlatest
      split at h
      · cases h
        exact List.mem_cons_of_mem _ (ih hlatest)
      · cases h
        exact List.mem_cons_self

/-- A code that is found is a row of the table. -/
theorem OneTimeCode.findActiveByUserId_eq_some {maxAttempts : Nat} {row : OneTimeCode}
    (h : findActiveByUserId userId now.timePointTz maxAttempts rows = some row) :
    row ∈ rows ∧ CodeFound userId now maxAttempts row := by
  obtain ⟨hmem, hcond⟩ := List.mem_filter.mp (mem_of_latest h)
  rw [Bool.and_eq_true, beq_iff_eq] at hcond
  exact ⟨hmem, hcond.1, hcond.2⟩

/-- A code row that may join the table: its id is new, and every other row of its user is
used. Its expiry is a bound time point. -/
structure OneTimeCode.Joins (row : OneTimeCode) (rows : List OneTimeCode) : Prop where
  id : ∀ r ∈ rows, r.id ≠ row.id
  used : ∀ r ∈ rows, r.userId = row.userId → r.usedAt.isSome = true
  unused : row.usedAt = none
  attempts : row.attempts = 0
  expiry : row.expiresAt.timePointTz = row.expiresAt

/-- A committed insert of a new code appended a row that may join the table. -/
theorem OneTimeCode.insert_eq_some {data : NewOneTimeCodeData}
    {ip : Option Inet} {rows' : List OneTimeCode}
    (h : OneTimeCode.insert (.ofData i data ip) rows = some rows') :
    (ofData i data ip).Joins rows ∧ rows' = rows ++ [ofData i data ip] := by
  unfold OneTimeCode.insert at h
  split at h
  · cases h
  · rename_i hid
    split at h
    · cases h
    · rename_i hactive
      cases h
      refine ⟨⟨fun r hr heq => hid ?_, fun r hr huser => ?_, rfl, rfl,
        Time.timePointTz_timePointTz _⟩, rfl⟩
      · exact List.any_eq_true.mpr ⟨r, hr, by simp [heq]⟩
      · -- the partial unique index: an unused row of the same user blocks the insert
        by_contra hused
        refine hactive (Bool.and_eq_true_iff.mpr ⟨rfl, ?_⟩)
        exact List.any_eq_true.mpr ⟨r, hr, by simpa [huser] using hused⟩

/-- A committed insert of a mail job appended it under a new id. -/
theorem EmailOutboxRepository.insert_eq_ok {job : EnqueueEmail}
    (h : EmailOutboxRepository.insert i job db = .ok ((), db')) :
    (∀ j ∈ db.emailOutbox, j.id ≠ i.newJobId) ∧
      db' = { db with emailOutbox := db.emailOutbox ++ [emailOutboxInsert i.newJobId i.dbNow
        job.toEmail job.templateName job.payload job.correlationId] } := by
  unfold EmailOutboxRepository.insert at h
  simp only at h
  split at h
  · cases h
  · rename_i hfresh
    cases h
    exact ⟨fun j hj hid => hfresh (List.any_eq_true.mpr ⟨j, hj, beq_iff_eq.mpr hid⟩), rfl⟩

/-- `issueCodeTx` appends a code of the user, with the hash of the secret, and a mail job with
the secret. -/
theorem issueCodeTx_eq_ok
    (h : IdentityService.issueCodeTx ports policy userId email m now i db = .ok ((), db')) :
    ∃ row job, row.Joins db.emailVerifications ∧
      (row.userId = userId ∧ row.secretHash = ports.verificationCodeHasher.hash userId i.secret) ∧
      job = emailOutboxInsert i.newJobId i.dbNow email "verification_code"
        [("code", i.secret), ("locale", "ru")] userId.text ∧
      (∀ j ∈ db.emailOutbox, j.id ≠ job.id) ∧
      db' = { db with
        emailVerifications := db.emailVerifications ++ [row]
        emailOutbox := db.emailOutbox ++ [job] } := by
  unfold IdentityService.issueCodeTx at h
  obtain ⟨row, db₁, hcode, hjob⟩ := Tx.bind_eq_ok.mp h
  unfold EmailVerificationRepository.insert at hcode
  split at hcode
  · cases hcode
  · split at hcode
    · cases hcode
    · rename_i rows hrows
      cases hcode
      obtain ⟨hjoins, rfl⟩ := OneTimeCode.insert_eq_some hrows
      obtain ⟨hfresh, rfl⟩ := EmailOutboxRepository.insert_eq_ok hjob
      exact ⟨_, _, hjoins, ⟨rfl, rfl⟩, rfl, hfresh, rfl⟩

/-- The user has the identifiers of the data. -/
def NewUserData.Names (data : NewUserData) (user : User) : Prop :=
  user.username = data.username ∧ user.email = data.email ∧ user.phone = data.phone

/-- A new account has the names of the data, a new id, and stands behind the others. -/
theorem UserRepository.insert_eq_ok {data : NewUserData}
    (h : UserRepository.insert pg i data db = .ok (user, db')) :
    data.Names user ∧ (∀ u ∈ db.users, u.id ≠ user.id) ∧
      db' = { db with users := db.users ++ [user] } := by
  unfold UserRepository.insert usersInsert at h
  simp only at h
  split at h <;> cases h
  rename_i husers
  split at husers
  · cases husers
  · rename_i hviolation
    cases husers
    refine ⟨⟨rfl, rfl, rfl⟩, fun u hu hid => ?_, rfl⟩
    unfold usersViolation at hviolation
    rw [if_pos (List.any_eq_true.mpr ⟨u, hu, by simpa using hid⟩)] at hviolation
    cases hviolation

/-- `auth.sign_up` appends a user with a new id and the identifiers of the data and, when the
user has an email address, its code and mail job. -/
theorem signUpTx_eq_ok
    {data : NewUserData}
    (h : IdentityService.signUpTx ports policy data m i db = .ok (user, db')) :
    data.Names user ∧ (∀ u ∈ db.users, u.id ≠ user.id) ∧
      ((user.email = none ∧ db' = { db with users := db.users ++ [user] }) ∨
        ∃ email, user.email = some email ∧
          IdentityService.issueCodeTx ports policy user.id email m i.now i
            { db with users := db.users ++ [user] } = .ok ((), db')) := by
  unfold IdentityService.signUpTx at h
  obtain ⟨row, db₁, hinsert, hcode⟩ := Tx.bind_eq_ok.mp h
  obtain ⟨hnames, hfresh, rfl⟩ := UserRepository.insert_eq_ok hinsert
  cases hemail : row.email with
  | some email =>
    simp only [hemail] at hcode
    obtain ⟨_, db₂, hissue, hpure⟩ := Tx.bind_eq_ok.mp hcode
    cases Tx.pure_eq_ok.mp hpure
    exact ⟨hnames, hfresh, .inr ⟨email, hemail, hissue⟩⟩
  | none =>
    simp only [hemail] at hcode
    cases Tx.pure_eq_ok.mp hcode
    exact ⟨hnames, hfresh, .inl ⟨hemail, rfl⟩⟩

/-- `auth.resend_email_verification` records the attempt. For a user with an unverified
email address it also uses up the codes of the user and issues a new one. -/
theorem resendTx_eq_ok
    {user? : Option User}
    (h : IdentityService.resendTx ports policy email user? m now i db = .ok ((), db')) :
    ∃ attempts, db' = { db with emailVerificationAttempts := attempts } ∨
      ∃ user userEmail, user? = some user ∧ user.email = some userEmail ∧
        IdentityService.issueCodeTx ports policy user.id userEmail m now i
          { db with
            emailVerificationAttempts := attempts
            emailVerifications :=
              (emailVerificationsMarkActiveUsedByUserId user.id now.timePointTz).run
                db.emailVerifications } = .ok ((), db') := by
  unfold IdentityService.resendTx at h
  obtain ⟨_, db₁, hattempt, hcode⟩ := Tx.bind_eq_ok.mp h
  obtain ⟨row, rfl⟩ := verificationAttemptTx_eq_ok hattempt
  refine ⟨db.emailVerificationAttempts ++ [row], ?_⟩
  cases user? with
  | none =>
    cases Tx.pure_eq_ok.mp hcode
    exact .inl rfl
  | some user =>
    cases hemail : user.email with
    | none =>
      simp only [hemail] at hcode
      cases Tx.pure_eq_ok.mp hcode
      exact .inl rfl
    | some userEmail =>
      simp only [hemail] at hcode
      split at hcode
      · cases Tx.pure_eq_ok.mp hcode
        exact .inl rfl
      · obtain ⟨_, db₂, hmark, hissue⟩ := Tx.bind_eq_ok.mp hcode
        cases hmark
        exact .inr ⟨user, userEmail, rfl, hemail, hissue⟩

/-- `auth.verify_email` uses the code and verifies the email address of the user. -/
theorem verifyEmailTx_eq_ok {id : Uuid}
    (h : IdentityService.verifyEmailTx policy id userId now db = .ok ((), db')) :
    (emailVerificationsMarkUsed id now.timePointTz policy.maxCodeAttempts).hits
      db.emailVerifications = true ∧
    db' = { db with
      emailVerifications :=
        (emailVerificationsMarkUsed id now.timePointTz policy.maxCodeAttempts).run
          db.emailVerifications
      users := (usersSetEmailVerified userId true).run db.users } := by
  unfold IdentityService.verifyEmailTx at h
  obtain ⟨used, db₁, hmark, hrest⟩ := Tx.bind_eq_ok.mp h
  obtain ⟨_, db₂, hrequire, hwrite⟩ := Tx.bind_eq_ok.mp hrest
  obtain ⟨hused, hdb₂⟩ := Tx.require_eq_ok.mp hrequire
  cases hdb₂
  cases hmark
  cases hwrite
  exact ⟨hused, rfl⟩

/-- `issueResetTx` uses up the resets of the user and appends a new one, with the hash of the
secret, and a mail job with the secret. -/
theorem issueResetTx_eq_ok {policy : PasswordResetPolicy}
    (h : PasswordService.issueResetTx ports policy userId email m now i db = .ok ((), db')) :
    ∃ row job,
      row.Joins
        ((passwordResetsMarkActiveUsedByUserId userId now.timePointTz).run db.passwordResets) ∧
      (row.userId = userId ∧ row.secretHash = ports.resetTokenHasher.hash i.secret) ∧
      job = emailOutboxInsert i.newJobId i.dbNow email "password_reset"
        [("token", i.secret), ("locale", "ru")] row.id.text ∧
      (∀ j ∈ db.emailOutbox, j.id ≠ job.id) ∧
      db' = { db with
        passwordResets :=
          (passwordResetsMarkActiveUsedByUserId userId now.timePointTz).run db.passwordResets
            ++ [row]
        emailOutbox := db.emailOutbox ++ [job] } := by
  unfold PasswordService.issueResetTx at h
  obtain ⟨_, db₁, hmark, hrest⟩ := Tx.bind_eq_ok.mp h
  cases hmark
  obtain ⟨row, db₂, hcode, hjob⟩ := Tx.bind_eq_ok.mp hrest
  unfold PasswordResetRepository.insert at hcode
  split at hcode
  · cases hcode
  · split at hcode
    · cases hcode
    · rename_i rows hrows
      cases hcode
      obtain ⟨hjoins, rfl⟩ := OneTimeCode.insert_eq_some hrows
      obtain ⟨hfresh, rfl⟩ := EmailOutboxRepository.insert_eq_ok hjob
      exact ⟨_, _, hjoins, ⟨rfl, rfl⟩, rfl, hfresh, rfl⟩

/-- `auth.password_reset.request` records the attempt. For a user with an email address it
also issues a new reset. -/
theorem requestResetTx_eq_ok {policy : PasswordResetPolicy}
    {user? : Option User}
    (h : PasswordService.requestResetTx ports policy email user? m now i db = .ok ((), db')) :
    ∃ attempts, db' = { db with passwordResetAttempts := attempts } ∨
      ∃ user userEmail, user? = some user ∧ user.email = some userEmail ∧
        PasswordService.issueResetTx ports policy user.id userEmail m now i
          { db with passwordResetAttempts := attempts } = .ok ((), db') := by
  unfold PasswordService.requestResetTx at h
  obtain ⟨_, db₁, hattempt, hissue⟩ := Tx.bind_eq_ok.mp h
  obtain ⟨row, rfl⟩ := resetAttemptTx_eq_ok hattempt
  refine ⟨db.passwordResetAttempts ++ [row], ?_⟩
  cases user? with
  | none =>
    cases Tx.pure_eq_ok.mp hissue
    exact .inl rfl
  | some user =>
    cases hemail : user.email with
    | none =>
      simp only [hemail] at hissue
      cases Tx.pure_eq_ok.mp hissue
      exact .inl rfl
    | some userEmail =>
      simp only [hemail] at hissue
      exact .inr ⟨user, userEmail, rfl, hemail, hissue⟩

end SmirklyAuth
