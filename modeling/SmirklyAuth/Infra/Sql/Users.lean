import SmirklyAuth.Infra.Sql.Postgres
import SmirklyAuth.Lib.Update

/-!
# `SmirklyAuth.Infra.Sql.Users`: the statements of `sql/auth/*/users` and `devices`

The unique indexes of `0007_add_users_uniqueness` make every `SELECT` below return at most
one row, so the model takes the first one. `usersInsert` checks the three indexes and the
primary key and reports the index that fails.
-/

set_option autoImplicit false

namespace SmirklyAuth

open Sql (Update)

/-- `users_select_by_id`. -/
def usersSelectById (id : Uuid) (users : List User) : Option User :=
  users.find? fun u => u.id == id && u.deletedAt.isNone

/-- `users_select_by_username`. -/
def usersSelectByUsername (pg : Postgres) (username : Str) (users : List User) :
    Option User :=
  users.find? fun u => pg.lower u.username == pg.lower username && u.deletedAt.isNone

/-- `users_select_by_email`. A `NULL` email is equal to nothing. -/
def usersSelectByEmail (pg : Postgres) (email : Str) (users : List User) : Option User :=
  users.find? fun u => u.email.map pg.lower == some (pg.lower email) && u.deletedAt.isNone

/-- `users_select_by_phone`. -/
def usersSelectByPhone (phone : Str) (users : List User) : Option User :=
  users.find? fun u => u.phone == some phone && u.deletedAt.isNone

/-- `users_exists_by_username`. -/
def usersExistsByUsername (pg : Postgres) (username : Str) (users : List User) : Bool :=
  users.any fun u => pg.lower u.username == pg.lower username && u.deletedAt.isNone

/-- `users_exists_by_email`. -/
def usersExistsByEmail (pg : Postgres) (email : Str) (users : List User) : Bool :=
  users.any fun u => u.email.map pg.lower == some (pg.lower email) && u.deletedAt.isNone

/-- `users_exists_by_phone`. -/
def usersExistsByPhone (phone : Str) (users : List User) : Bool :=
  users.any fun u => u.phone == some phone && u.deletedAt.isNone

/-- The constraints of `users` that an `INSERT` can violate. -/
inductive UsersConstraint where
  | usersPkey | usersUsernameUniq | usersEmailUniq | usersPhoneUniq
  deriving DecidableEq, Repr

/-- The first constraint that the new row violates. -/
def usersViolation (pg : Postgres) (row : User) (users : List User) :
    Option UsersConstraint :=
  if users.any fun u => u.id == row.id then some .usersPkey
  else if usersExistsByUsername pg row.username users then some .usersUsernameUniq
  else if row.email.any fun email => usersExistsByEmail pg email users then
    some .usersEmailUniq
  else if row.phone.any fun phone => usersExistsByPhone phone users then
    some .usersPhoneUniq
  else none

/-- `users_insert`. -/
def usersInsert (pg : Postgres) (row : User) (users : List User) :
    Except UsersConstraint (List User) :=
  match usersViolation pg row users with
  | some constraint => .error constraint
  | none => .ok (users ++ [row])

/-- `users_update_password_hash`. -/
def usersUpdatePasswordHash (now : Time) (id : Uuid) (hash : Str) : Update User where
  cond u := u.id == id && u.deletedAt.isNone
  set u := { u with password := hash, passwordUpdatedAt := now }

/-- `users_set_email_verified`. -/
def usersSetEmailVerified (id : Uuid) (verified : Bool) : Update User where
  cond u := u.id == id && u.deletedAt.isNone
  set u := { u with isEmailVerified := verified }

/-- `users_soft_delete`. -/
def usersSoftDelete (now : Time) (id : Uuid) : Update User where
  cond u := u.id == id && u.deletedAt.isNone
  set u := { u with deletedAt := some now }

end SmirklyAuth
