import SmirklyAuth.Domain.Models

/-!
# `SmirklyAuth.Infra.Sql.Postgres`: the PostgreSQL functions the statements use

`Postgres` collects the functions of the database server that occur in `sql/auth/` and are
not defined there: `lower`, the casts between `text` and `inet`, and `host`. They are
parameters of the model. `nullIfEmpty` is `NULLIF($n, '')`.
-/

set_option autoImplicit false

namespace SmirklyAuth

/-- Functions of the PostgreSQL server. -/
structure Postgres where
  /-- `lower(text)`. -/
  lower : Str → Str
  /-- The cast `text::inet`; `none` is the error of a malformed address. -/
  inet : Str → Option Inet
  /-- The cast `inet::text`. -/
  inetText : Inet → Str
  /-- `host(inet)`. -/
  host : Inet → Str

/-- `NULLIF($n, '')` on a parameter that the repository binds with `value_or("")`. -/
def nullIfEmpty : Option Str → Option Str
  | some (c :: cs) => some (c :: cs)
  | _ => none

/-- `NULLIF($n, '')::inet`: `none` when the cast fails. -/
def Postgres.inetArg (pg : Postgres) (ip : Option Str) : Option (Option Inet) :=
  match nullIfEmpty ip with
  | none => some none
  | some text => (pg.inet text).map some

end SmirklyAuth
