import SmirklyAuth.Domain.Models
import SmirklyAuth.Lib.Update

/-!
# `SmirklyAuth.Infra.Sql.OneTimeCodes`: email verifications and password resets

`sql/auth/*/email_verifications` and `sql/auth/*/password_resets` hold the same five
statements for two tables. `OneTimeCode` has one definition of each, and the statements of
the two tables are its instances. The last argument of the statements with a limit is
`max_attempts`, which the repositories cast to a 32-bit integer.
-/

set_option autoImplicit false

namespace SmirklyAuth

open Sql (Update)

namespace OneTimeCode

/-- `used_at IS NULL AND expires_at > $2 AND attempts < $3`, the condition that the lookup
and the two conditional updates share. -/
def active (now : Time) (maxAttempts : Nat) (r : OneTimeCode) : Bool :=
  r.usedAt.isNone && now < r.expiresAt && (r.attempts : Int) < toInt32 maxAttempts

/-- `ORDER BY created_at DESC LIMIT 1`: the row with the largest `created_at`, the first
of them in the table when several have it. -/
def latest : List OneTimeCode → Option OneTimeCode
  | [] => none
  | r :: rows =>
      match latest rows with
      | none => some r
      | some r' => if r.createdAt < r'.createdAt then some r' else some r

/-- `…_find_active_by_user_id`. -/
def findActiveByUserId (userId : Uuid) (now : Time) (maxAttempts : Nat)
    (rows : List OneTimeCode) : Option OneTimeCode :=
  latest (rows.filter fun r => r.userId == userId && r.active now maxAttempts)

/-- `…_insert`: `none` when the primary key or the index `…_one_active_per_user` is
violated. -/
def insert (row : OneTimeCode) (rows : List OneTimeCode) : Option (List OneTimeCode) :=
  if rows.any fun r => r.id == row.id then none
  else if row.usedAt.isNone && rows.any fun r => r.userId == row.userId && r.usedAt.isNone then
    none
  else some (rows ++ [row])

/-- `…_mark_used`. -/
def markUsed (id : Uuid) (usedAt : Time) (maxAttempts : Nat) : Update OneTimeCode where
  cond r := r.id == id && r.active usedAt maxAttempts
  set r := { r with usedAt := some usedAt }

/-- `…_mark_active_used_by_user_id`. -/
def markActiveUsedByUserId (userId : Uuid) (usedAt : Time) : Update OneTimeCode where
  cond r := r.userId == userId && r.usedAt.isNone
  set r := { r with usedAt := some usedAt }

/-- `…_increment_attempts`. -/
def incrementAttempts (id : Uuid) (now : Time) (maxAttempts : Nat) : Update OneTimeCode where
  cond r := r.id == id && r.active now maxAttempts
  set r := { r with attempts := r.attempts + 1, lastAttemptAt := some now }

end OneTimeCode

/-- `email_verifications_find_active_by_user_id`. -/
def emailVerificationsFindActiveByUserId := OneTimeCode.findActiveByUserId

/-- `email_verifications_insert`. -/
def emailVerificationsInsert := OneTimeCode.insert

/-- `email_verifications_mark_used`. -/
def emailVerificationsMarkUsed := OneTimeCode.markUsed

/-- `email_verifications_mark_active_used_by_user_id`. -/
def emailVerificationsMarkActiveUsedByUserId := OneTimeCode.markActiveUsedByUserId

/-- `email_verifications_increment_attempts`. -/
def emailVerificationsIncrementAttempts := OneTimeCode.incrementAttempts

/-- `password_resets_find_active_by_user_id`. -/
def passwordResetsFindActiveByUserId := OneTimeCode.findActiveByUserId

/-- `password_resets_insert`. -/
def passwordResetsInsert := OneTimeCode.insert

/-- `password_resets_mark_used`. -/
def passwordResetsMarkUsed := OneTimeCode.markUsed

/-- `password_resets_mark_active_used_by_user_id`. -/
def passwordResetsMarkActiveUsedByUserId := OneTimeCode.markActiveUsedByUserId

/-- `password_resets_increment_attempts`. -/
def passwordResetsIncrementAttempts := OneTimeCode.incrementAttempts

end SmirklyAuth
