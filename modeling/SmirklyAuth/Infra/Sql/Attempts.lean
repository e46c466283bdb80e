import SmirklyAuth.Infra.Sql.Postgres

/-!
# `SmirklyAuth.Infra.Sql.Attempts`: the tables of attempts

The three tables with the scopes identifier, user and address share the text of their
statements up to the table and the prefix of the lock keys. `sign_up_attempts` has the one
scope address.

`lockKeys` is the set of keys that `…_lock_scopes` locks before `…_try_record` counts the
rows since `since` and inserts the new row when no positive limit is reached. The limits
are `std::size_t` values cast to `bigint`.
-/

set_option autoImplicit false

namespace SmirklyAuth

/-- The arguments of `TryRecordAttempt` on a table with three scopes, after the cast of the
address. -/
structure AttemptArgs where
  identifier : Str
  userId : Option Uuid
  ip : Option Inet
  userAgent : Option Str
  now : Time
  since : Time
  maxPerIdentifier : Nat
  maxPerUser : Nat
  maxPerIp : Nat

/-- `SignInAttemptCounters` and its siblings. -/
structure AttemptCounters where
  identifier : Nat
  user : Nat
  ip : Nat
  deriving DecidableEq, Repr

namespace Attempt

/-- `lower(email) = lower($1)`. -/
def sameIdentifier (pg : Postgres) (identifier : Str) (r : Attempt) : Bool :=
  pg.lower r.identifier == pg.lower identifier

/-- `user_id = NULLIF($2, '')::uuid`. A `NULL` on either side makes it false. -/
def sameUser (userId : Option Uuid) (r : Attempt) : Bool :=
  userId.isSome && r.userId == userId

/-- `ip = NULLIF($3, '')::inet`. -/
def sameIp (ip : Option Inet) (r : Attempt) : Bool := ip.isSome && r.ip == ip

/-- `…_count_recent`, also the common table expression `counters` of `…_try_record`. -/
def countRecent (pg : Postgres) (identifier : Str) (userId : Option Uuid)
    (ip : Option Inet) (since : Time) (rows : List Attempt) : AttemptCounters :=
  let recent := rows.filter fun r => decide (since ≤ r.attemptedAt) &&
    (r.sameIdentifier pg identifier || r.sameUser userId || r.sameIp ip)
  { identifier := recent.countP (·.sameIdentifier pg identifier)
    user := recent.countP (·.sameUser userId)
    ip := recent.countP (·.sameIp ip) }

/-- The `WHERE` clause of the `INSERT` of `…_try_record`. -/
def allows (args : AttemptArgs) (n : AttemptCounters) : Bool :=
  (toInt64 args.maxPerIdentifier == 0 || (n.identifier : Int) < toInt64 args.maxPerIdentifier) &&
  (toInt64 args.maxPerUser == 0 || args.userId.isNone ||
    (n.user : Int) < toInt64 args.maxPerUser) &&
  (toInt64 args.maxPerIp == 0 || args.ip.isNone || (n.ip : Int) < toInt64 args.maxPerIp)

/-- The row that `…_try_record` inserts. -/
def ofArgs (args : AttemptArgs) : Attempt where
  identifier := args.identifier
  userId := args.userId
  ip := args.ip
  userAgent := args.userAgent
  attemptedAt := args.now

/-- `…_try_record`: the inserted row, or `none` when the statement returns no row. -/
def tryRecord (pg : Postgres) (args : AttemptArgs) (rows : List Attempt) : Option Attempt :=
  if allows args (countRecent pg args.identifier args.userId args.ip args.since rows) then
    some (ofArgs args)
  else none

/-- The keys of `…_lock_scopes`, before they are ordered: the prefix names the table and
the scope. -/
def lockKeys (pg : Postgres) (table scope : Str) (args : AttemptArgs) : List Str :=
  [table ++ lit ":" ++ scope ++ lit ":" ++ pg.lower args.identifier]
    ++ (args.userId.map fun u => table ++ lit ":user:" ++ u.text).toList
    ++ (args.ip.map fun a => table ++ lit ":ip:" ++ pg.host a).toList

end Attempt

/-- `sign_in_attempts_count_recent`. -/
def signInAttemptsCountRecent := Attempt.countRecent

/-- `sign_in_attempts_try_record`. -/
def signInAttemptsTryRecord := Attempt.tryRecord

/-- `sign_in_attempts_lock_scopes`. -/
def signInAttemptsLockScopes (pg : Postgres) := Attempt.lockKeys pg "auth:sign-in" "identifier"

/-- `email_verification_attempts_try_record`. -/
def emailVerificationAttemptsTryRecord := Attempt.tryRecord

/-- `email_verification_attempts_lock_scopes`. -/
def emailVerificationAttemptsLockScopes (pg : Postgres) :=
  Attempt.lockKeys pg "auth:email-verification" "email"

/-- `password_reset_attempts_try_record`. -/
def passwordResetAttemptsTryRecord := Attempt.tryRecord

/-- `password_reset_attempts_lock_scopes`. -/
def passwordResetAttemptsLockScopes (pg : Postgres) :=
  Attempt.lockKeys pg "auth:password-reset" "email"

/-- `sign_up_attempts_try_record`. -/
def signUpAttemptsTryRecord (ip : Inet) (now since : Time) (maxPerIp : Nat)
    (rows : List SignUpAttempt) : Option SignUpAttempt :=
  let ipAttempts := rows.countP fun r => r.ip == ip && decide (since ≤ r.attemptedAt)
  if toInt64 maxPerIp == 0 || (ipAttempts : Int) < toInt64 maxPerIp then
    some { ip := ip, attemptedAt := now }
  else none

/-- `sign_up_attempts_lock_scope`. -/
def signUpAttemptsLockScope (pg : Postgres) (ip : Inet) : List Str :=
  [lit "auth:sign-up:ip:" ++ pg.host ip]

end SmirklyAuth
