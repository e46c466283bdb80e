import Mathlib.Data.List.Sort
import SmirklyAuth.Domain.Models
import SmirklyAuth.Lib.Update

/-!
# `SmirklyAuth.Infra.Sql.Sessions`: the statements of `sql/auth/*/sessions`

Every revocation is an `UPDATE` with the condition `revoked_at IS NULL`, so a revoked row
is never written again. `now` is `NOW()`, the start of the transaction.
-/

set_option autoImplicit false

namespace SmirklyAuth

open Sql (Update)

/-- `sessions_select_by_id`. -/
def sessionsSelectById (id : Uuid) (sessions : List SessionRow) : Option SessionRow :=
  sessions.find? fun r => r.id == id

/-- The order of `sessions_select_active_by_user_id`: latest use first, rows that were
never used last, then latest creation first. -/
def sessionsActiveOrder (a b : SessionRow) : Bool :=
  match a.lastUsedAt, b.lastUsedAt with
  | some x, some y => y < x || (x == y && b.createdAt ≤ a.createdAt)
  | some _, none => true
  | none, some _ => false
  | none, none => b.createdAt ≤ a.createdAt

/-- `sessions_select_active_by_user_id`. -/
def sessionsSelectActiveByUserId (now : Time) (userId : Uuid) (sessions : List SessionRow) :
    List SessionRow :=
  (sessions.filter fun r => r.userId == userId && r.revokedAt.isNone && now < r.expiresAt)
    |>.insertionSort fun a b => sessionsActiveOrder a b = true

/-- `sessions_insert`: `none` when the primary key is taken. -/
def sessionsInsert (row : SessionRow) (sessions : List SessionRow) :
    Option (List SessionRow) :=
  if sessions.any fun r => r.id == row.id then none else some (sessions ++ [row])

/-- `sessions_revoke_by_user_id`. -/
def sessionsRevokeByUserId (now : Time) (id userId : Uuid) : Update SessionRow where
  cond r := r.id == id && r.userId == userId && r.revokedAt.isNone
  set r := { r with revokedAt := some now }

/-- `sessions_revoke_all_by_user_id`. -/
def sessionsRevokeAllByUserId (now : Time) (userId : Uuid) : Update SessionRow where
  cond r := r.userId == userId && r.revokedAt.isNone
  set r := { r with revokedAt := some now }

/-- `sessions_revoke_by_token_family`. -/
def sessionsRevokeByTokenFamily (now : Time) (userId familyId : Uuid) :
    Update SessionRow where
  cond r := r.userId == userId && r.tokenFamilyId == familyId && r.revokedAt.isNone
  set r := { r with revokedAt := some now }

/-- `sessions_revoke_and_replace`. -/
def sessionsRevokeAndReplace (now : Time) (id replacementId : Uuid) :
    Update SessionRow where
  cond r := r.id == id && r.revokedAt.isNone
  set r := { r with revokedAt := some now, replacedBySessionId := some replacementId }

/-- `sessions_update_last_used`: `GREATEST(COALESCE(last_used_at, $2), $2)`. -/
def sessionsUpdateLastUsed (id : Uuid) (lastUsedAt : Time) : Update SessionRow where
  cond r := r.id == id && r.revokedAt.isNone
  set r := { r with lastUsedAt := some (max (r.lastUsedAt.getD lastUsedAt) lastUsedAt) }

end SmirklyAuth
