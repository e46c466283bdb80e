import SmirklyAuth.Infra.Sql.EmailOutbox
import SmirklyAuth.Infra.Sql.OneTimeCodes
import SmirklyAuth.Infra.Sql.Sessions
import SmirklyAuth.Infra.Sql.Users
import SmirklyAuth.Services.Runtime

/-!
# `SmirklyAuth.Infra.Repositories`: the repositories of `infra/db/pg`

A method that takes a `DbTransaction` is a `Tx`. It runs a statement of `sql/auth` on its
table and maps the result. A time point is bound as `TimePointTz`. The reads on the primary server
are functions of the database.
The methods that the use cases do not call are left out, except `SoftDelete`, whose effect the
reads of the users and of the sessions see differently.
-/

set_option autoImplicit false

namespace SmirklyAuth

open Sql (Update)

/-- The exception of a violated unique constraint. -/
def uniqueViolation : Error := .runtimeError "duplicate key value violates unique constraint"

/-- The exception of a malformed address text. -/
def invalidInet : Error := .runtimeError "invalid input syntax for type inet"

/-! ### `PostgresUserRepository` and `PostgresDeviceRepository` -/

/-- `NewUserData`. -/
structure NewUserData where
  username : Str
  passwordHash : Str
  email : Option Str
  phone : Option Str

namespace UserRepository

/-- `Insert`: the constraint of a unique violation selects the exception. -/
def insert (pg : Postgres) (i : Input) (data : NewUserData) : Tx User := fun db =>
  let row : User :=
    { id := i.newUserId, username := data.username, password := data.passwordHash
      phone := data.phone, email := data.email
      createdAt := i.dbNow, passwordUpdatedAt := i.dbNow }
  match usersInsert pg row db.users with
  | .ok users => .ok (row, { db with users })
  | .error .usersUsernameUniq => .error (.usernameTaken "username taken")
  | .error .usersEmailUniq => .error (.emailTaken "email taken")
  | .error .usersPhoneUniq => .error (.phoneTaken "phone taken")
  | .error .usersPkey => .error uniqueViolation

/-- `SetEmailVerified`. -/
def setEmailVerified (userId : Uuid) (verified : Bool) : Tx Unit := fun db =>
  .ok ((), { db with users := (usersSetEmailVerified userId verified).run db.users })

/-- `UpdatePasswordHash`. -/
def updatePasswordHash (i : Input) (userId : Uuid) (hash : Str) : Tx Unit := fun db =>
  .ok ((), { db with users := (usersUpdatePasswordHash i.dbNow userId hash).run db.users })

/-- `SoftDelete`. -/
def softDelete (i : Input) (userId : Uuid) : Tx Unit := fun db =>
  .ok ((), { db with users := (usersSoftDelete i.dbNow userId).run db.users })

end UserRepository

/-- `NewDeviceData`. -/
structure NewDeviceData where
  userId : Uuid
  deviceType : DeviceType
  deviceName : Option Str
  osVersion : Option Str
  appVersion : Option Str
  fingerprint : Option Str

/-- `devices_insert`. -/
def DeviceRepository.insert (i : Input) (data : NewDeviceData) : Tx Device := fun db =>
  let row : Device :=
    { id := i.newDeviceId, userId := data.userId, deviceType := data.deviceType
      deviceName := data.deviceName, osVersion := data.osVersion
      appVersion := data.appVersion, fingerprint := data.fingerprint
      createdAt := i.dbNow, lastSeenAt := some i.dbNow }
  if db.devices.any fun d => d.id == row.id then .error uniqueViolation
  else .ok (row, { db with devices := db.devices ++ [row] })

/-! ### `PostgresSessionRepository` -/

/-- `NewSessionData`. -/
structure NewSessionData where
  id : Uuid
  userId : Uuid
  deviceId : Option Uuid
  refreshTokenHash : Str
  ip : Option Str
  userAgent : Option Str
  expiresAt : Time
  tokenFamilyId : Uuid
  replacedBySessionId : Option Uuid

/-- The columns of a row with `ip::text`. -/
def SessionOf.toDomain (pg : Postgres) (r : SessionRow) : Session where
  id := r.id
  userId := r.userId
  deviceId := r.deviceId
  refreshTokenHash := r.refreshTokenHash
  ip := r.ip.map pg.inetText
  userAgent := r.userAgent
  createdAt := r.createdAt
  lastUsedAt := r.lastUsedAt
  expiresAt := r.expiresAt
  revokedAt := r.revokedAt
  tokenFamilyId := r.tokenFamilyId
  replacedBySessionId := r.replacedBySessionId

namespace SessionRepository

/-- The row that `sessions_insert` stores. -/
def newRow (i : Input) (data : NewSessionData) (ip : Option Inet) : SessionRow where
  id := data.id
  userId := data.userId
  deviceId := data.deviceId
  refreshTokenHash := data.refreshTokenHash
  ip := ip
  userAgent := data.userAgent
  createdAt := i.dbNow
  lastUsedAt := some i.dbNow
  expiresAt := data.expiresAt.timePointTz
  revokedAt := none
  tokenFamilyId := data.tokenFamilyId
  replacedBySessionId := data.replacedBySessionId

/-- `Insert`: the address is bound as `inet`, and the id must be new. -/
def insert (pg : Postgres) (i : Input) (data : NewSessionData) : Tx Session := fun db =>
  match pg.inetArg data.ip with
  | none => .error invalidInet
  | some ip =>
    match sessionsInsert (newRow i data ip) db.sessions with
    | none => .error uniqueViolation
    | some sessions => .ok ((newRow i data ip).toDomain pg, { db with sessions })

/-- `FindById`. -/
def findById (pg : Postgres) (id : Uuid) (db : Db) : Option Session :=
  (sessionsSelectById id db.sessions).map (·.toDomain pg)

/-- `ListActiveByUserId`. -/
def listActiveByUserId (pg : Postgres) (i : Input) (userId : Uuid) (db : Db) :
    List Session :=
  (sessionsSelectActiveByUserId i.dbNow userId db.sessions).map (·.toDomain pg)

/-- An `UPDATE` of `sessions`; the result says whether it touched a row. -/
def update (u : Update SessionRow) : Tx Bool := fun db =>
  .ok (u.hits db.sessions, { db with sessions := u.run db.sessions })

/-- `RevokeByUserId`. -/
def revokeByUserId (i : Input) (id userId : Uuid) : Tx Bool :=
  update (sessionsRevokeByUserId i.dbNow id userId)

/-- `RevokeAllByUserId`. -/
def revokeAllByUserId (i : Input) (userId : Uuid) : Tx Bool :=
  update (sessionsRevokeAllByUserId i.dbNow userId)

/-- `RevokeAndReplace`. -/
def revokeAndReplace (i : Input) (id replacementId : Uuid) : Tx Bool :=
  update (sessionsRevokeAndReplace i.dbNow id replacementId)

/-- `RevokeByTokenFamily`. -/
def revokeByTokenFamily (i : Input) (userId familyId : Uuid) : Tx Bool :=
  update (sessionsRevokeByTokenFamily i.dbNow userId familyId)

/-- `UpdateLastUsed`. The time is bound in microseconds. -/
def updateLastUsed (id : Uuid) (lastUsedAt : Time) : Tx Bool :=
  update (sessionsUpdateLastUsed id lastUsedAt.timePointTz)

end SessionRepository

/-! ### `PostgresEmailVerificationRepository` and `PostgresPasswordResetRepository` -/

/-- `NewEmailVerificationData` and `NewPasswordResetData`. -/
structure NewOneTimeCodeData where
  userId : Uuid
  secretHash : Str
  expiresAt : Time
  ip : Option Str
  userAgent : Option Str

/-- The row that an insert into either table stores. -/
def OneTimeCode.ofData (i : Input) (data : NewOneTimeCodeData) (ip : Option Inet) :
    OneTimeCode where
  id := i.newCodeId
  userId := data.userId
  secretHash := data.secretHash
  createdAt := i.dbNow
  expiresAt := data.expiresAt.timePointTz
  ip := ip
  userAgent := data.userAgent

/-- The arguments of `TryRecordAttempt`; `none` when the address text is malformed. -/
def attemptArgs (pg : Postgres) (identifier : Str) (userId : Option Uuid)
    (reqMeta : RequestMeta) (now since : Time) (maxPerIdentifier maxPerUser maxPerIp : Nat) :
    Option AttemptArgs :=
  (pg.inetArg reqMeta.ip).map fun ip =>
    { identifier, userId, ip, userAgent := reqMeta.userAgent
      now := now.timePointTz, since := since.timePointTz
      maxPerIdentifier, maxPerUser, maxPerIp }

/-- `TryRecordAttempt` on the table that `rows` reads and `store` writes. -/
def Tx.tryRecordAttempt (pg : Postgres) (args : Option AttemptArgs)
    (tryRecord : Postgres → AttemptArgs → List Attempt → Option Attempt)
    (rows : Db → List Attempt) (store : Db → List Attempt → Db) : Tx Bool := fun db =>
  match args with
  | none => .error invalidInet
  | some args =>
    match tryRecord pg args (rows db) with
    | none => .ok (false, db)
    | some row => .ok (true, store db (rows db ++ [row]))

namespace EmailVerificationRepository

/-- `Insert`. -/
def insert (pg : Postgres) (i : Input) (data : NewOneTimeCodeData) : Tx OneTimeCode :=
  fun db =>
  match pg.inetArg data.ip with
  | none => .error invalidInet
  | some ip =>
    match emailVerificationsInsert (.ofData i data ip) db.emailVerifications with
    | none => .error uniqueViolation
    | some emailVerifications => .ok (.ofData i data ip, { db with emailVerifications })

/-- `FindActiveByUserId`. -/
def findActiveByUserId (userId : Uuid) (now : Time) (maxAttempts : Nat) (db : Db) :
    Option OneTimeCode :=
  emailVerificationsFindActiveByUserId userId now.timePointTz maxAttempts db.emailVerifications

/-- An `UPDATE` of `email_verifications`. -/
def update (u : Update OneTimeCode) : Tx Bool := fun db =>
  .ok (u.hits db.emailVerifications,
    { db with emailVerifications := u.run db.emailVerifications })

/-- `MarkUsed`. -/
def markUsed (id : Uuid) (usedAt : Time) (maxAttempts : Nat) : Tx Bool :=
  update (emailVerificationsMarkUsed id usedAt.timePointTz maxAttempts)

/-- `MarkActiveUsedByUserId`. -/
def markActiveUsedByUserId (userId : Uuid) (usedAt : Time) : Tx Bool :=
  update (emailVerificationsMarkActiveUsedByUserId userId usedAt.timePointTz)

/-- `IncrementAttempts`. -/
def incrementAttempts (id : Uuid) (now : Time) (maxAttempts : Nat) : Tx Bool :=
  update (emailVerificationsIncrementAttempts id now.timePointTz maxAttempts)

/-- `TryRecordAttempt`. -/
def tryRecordAttempt (pg : Postgres) (args : Option AttemptArgs) : Tx Bool :=
  Tx.tryRecordAttempt pg args emailVerificationAttemptsTryRecord
    (·.emailVerificationAttempts) fun db rows => { db with emailVerificationAttempts := rows }

end EmailVerificationRepository

namespace PasswordResetRepository

/-- `Insert`. -/
def insert (pg : Postgres) (i : Input) (data : NewOneTimeCodeData) : Tx OneTimeCode :=
  fun db =>
  match pg.inetArg data.ip with
  | none => .error invalidInet
  | some ip =>
    match passwordResetsInsert (.ofData i data ip) db.passwordResets with
    | none => .error uniqueViolation
    | some passwordResets => .ok (.ofData i data ip, { db with passwordResets })

/-- `FindActiveByUserId`. -/
def findActiveByUserId (userId : Uuid) (now : Time) (maxAttempts : Nat) (db : Db) :
    Option OneTimeCode :=
  passwordResetsFindActiveByUserId userId now.timePointTz maxAttempts db.passwordResets

/-- An `UPDATE` of `password_resets`. -/
def update (u : Update OneTimeCode) : Tx Bool := fun db =>
  .ok (u.hits db.passwordResets, { db with passwordResets := u.run db.passwordResets })

/-- `MarkUsed`. -/
def markUsed (id : Uuid) (usedAt : Time) (maxAttempts : Nat) : Tx Bool :=
  update (passwordResetsMarkUsed id usedAt.timePointTz maxAttempts)

/-- `MarkActiveUsedByUserId`. -/
def markActiveUsedByUserId (userId : Uuid) (usedAt : Time) : Tx Bool :=
  update (passwordResetsMarkActiveUsedByUserId userId usedAt.timePointTz)

/-- `IncrementAttempts`. -/
def incrementAttempts (id : Uuid) (now : Time) (maxAttempts : Nat) : Tx Bool :=
  update (passwordResetsIncrementAttempts id now.timePointTz maxAttempts)

/-- `TryRecordAttempt`. -/
def tryRecordAttempt (pg : Postgres) (args : Option AttemptArgs) : Tx Bool :=
  Tx.tryRecordAttempt pg args passwordResetAttemptsTryRecord
    (·.passwordResetAttempts) fun db rows => { db with passwordResetAttempts := rows }

end PasswordResetRepository

/-! ### `PostgresSignInAttemptRepository` and `PostgresSignUpAttemptRepository` -/

namespace SignInAttemptRepository

/-- `CountRecentAttempts`; `none` when the address text is malformed. -/
def countRecentAttempts (pg : Postgres) (identifier : Str) (userId : Option Uuid)
    (ip : Option Str) (since : Time) (db : Db) : Option AttemptCounters :=
  (pg.inetArg ip).map fun ip =>
    signInAttemptsCountRecent pg identifier userId ip since.timePointTz db.signInAttempts

/-- `TryRecordAttempt`. -/
def tryRecordAttempt (pg : Postgres) (args : Option AttemptArgs) : Tx Bool :=
  Tx.tryRecordAttempt pg args signInAttemptsTryRecord
    (·.signInAttempts) fun db rows => { db with signInAttempts := rows }

end SignInAttemptRepository

/-- `PostgresSignUpAttemptRepository::TryRecordAttempt`. -/
def SignUpAttemptRepository.tryRecordAttempt (pg : Postgres) (ip : Str) (now since : Time)
    (maxPerIp : Nat) : Tx Bool := fun db =>
  match pg.inet ip with
  | none => .error invalidInet
  | some ip =>
    match signUpAttemptsTryRecord ip now.timePointTz since.timePointTz maxPerIp
        db.signUpAttempts with
    | none => .ok (false, db)
    | some row => .ok (true, { db with signUpAttempts := db.signUpAttempts ++ [row] })

/-! ### `PostgresEmailOutboxRepository` -/

/-- The entry that `ClaimBatch` builds from a returned row and its new lease. -/
def OutboxJob.toEntry (leaseId : Uuid) (j : OutboxJob) : EmailOutboxEntry where
  id := j.id
  leaseId := leaseId
  toEmail := j.toEmail
  templateName := j.template
  payload := j.payload
  correlationId := j.correlationId
  attempts := j.attempts

namespace EmailOutboxRepository

/-- `Insert`: a pending job, with a new id. -/
def insert (i : Input) (job : EnqueueEmail) : Tx Unit := fun db =>
  let row := emailOutboxInsert i.newJobId i.dbNow job.toEmail job.templateName job.payload
    job.correlationId
  if db.emailOutbox.any fun j => j.id == row.id then .error uniqueViolation
  else .ok ((), { db with emailOutbox := db.emailOutbox ++ [row] })

/-- `ClaimBatch`. -/
def claimBatch (i : Input) (cfg : EmailOutboxRuntimeConfig) (now : Time) :
    Tx (List EmailOutboxEntry) := fun db =>
  if toInt32 cfg.batchSize < 0 then .error (.runtimeError "LIMIT must not be negative")
  else
    let ids := emailOutboxCandidates cfg.batchSize now.timePointTz cfg.maxAttempts db.emailOutbox
    let claim := emailOutboxClaim ids now.timePointTz (now.plus cfg.stuckTimeout).timePointTz
      i.leaseId
    .ok ((db.emailOutbox.filter claim.cond).map fun j => (claim.set j).toEntry (i.leaseId j.id),
      { db with emailOutbox := claim.run db.emailOutbox })

/-- An `UPDATE` of `email_outbox`; the result says whether it touched a row. -/
def update (u : Update OutboxJob) : Tx Bool := fun db =>
  .ok (u.hits db.emailOutbox, { db with emailOutbox := u.run db.emailOutbox })

/-- `MarkSent`. -/
def markSent (id leaseId : Uuid) (now : Time) (lastError : Str) : Tx Bool :=
  update (emailOutboxMarkSent id leaseId lastError now.timePointTz)

/-- `Reschedule` reads the clock for `updated_at`. -/
def reschedule (i : Input) (id leaseId : Uuid) (nextAt : Time) (lastError : Str) : Tx Bool :=
  update (emailOutboxReschedule id leaseId nextAt.timePointTz lastError i.laterNow.timePointTz)

/-- `MarkDead`. -/
def markDead (id leaseId : Uuid) (now : Time) (lastError : Str) : Tx Bool :=
  update (emailOutboxMarkDead id leaseId lastError now.timePointTz)

end EmailOutboxRepository

end SmirklyAuth
