import SmirklyAuth.Infra.Sql.Schema

/-!
# `SmirklyAuth.Api.ReadinessHandler`: the migration check of the readiness probe

`CheckMigrations` of `api/health/readiness_handler.cpp`. It asks the server for the tables and
the column that the service needs, and for the version that the migration tool has recorded. An
exception of the driver is a failed check.
-/

set_option autoImplicit false

namespace SmirklyAuth

/-- `kExpectedSchemaVersion`. -/
def kExpectedSchemaVersion : Int := 11

/-- The members of `details`. -/
structure MigrationDetails where
  schemaReady : Bool
  hasSchemaMigrations : Bool
  expectedVersion : Int := kExpectedSchemaVersion
  mode : Option Str := none
  version : Option Int := none
  dirty : Option Bool := none
  deriving DecidableEq, Repr

/-- `CheckResult`. -/
structure CheckResult where
  ok : Bool := false
  message : Str
  details : Option MigrationDetails := none
  deriving DecidableEq, Repr

/-- The driver during a probe: whether each of the two queries throws, and what `As<int>` makes
of a `bigint`, where `none` is an exception. -/
structure ProbeDriver where
  schemaQueryFails : Bool := false
  migrationsQueryFails : Bool := false
  asInt : Int → Option Int

/-- The column `schema_ready` of the first query. -/
def schemaReady (s : Schema) : Bool :=
  s.hasTable "users" && s.hasTable "devices" && s.hasTable "sessions" &&
    s.hasTable "email_outbox" && s.hasTable "email_verifications" &&
    s.hasTable "email_verification_attempts" && s.hasTable "sign_in_attempts" &&
    s.hasTable "password_resets" && s.hasTable "password_reset_attempts" &&
    s.hasColumn "email_outbox" "lease_id"

/-- The part after the first query, for a schema that is ready. -/
def checkVersion (driver : ProbeDriver) (s : Schema) (details : MigrationDetails) :
    Option CheckResult :=
  match s.schemaMigrations with
  | none => some
    { ok := true, message := "schema objects are present"
      details := some { details with mode := some (lit "schema-only") } }
  | some rows =>
    if driver.migrationsQueryFails then none
    else
      let details := { details with mode := some (lit "schema-migrations") }
      match Schema.latest rows with
      | none => some { message := "schema_migrations is empty", details := some details }
      | some row => do
        let version ← driver.asInt row.version
        let details := { details with version := some version, dirty := some row.dirty }
        if row.dirty then
          some { message := "schema_migrations is dirty", details := some details }
        else if version < kExpectedSchemaVersion then
          some
            { message := "schema_migrations version is behind binary expectation"
              details := some details }
        else
          some { ok := true, message := "schema migrations are current", details := some details }

/-- The `try` block of `CheckMigrations`: `none` is an exception. -/
def tryCheckMigrations (driver : ProbeDriver) (s : Schema) : Option CheckResult :=
  if driver.schemaQueryFails then none
  else
    let details : MigrationDetails :=
      { schemaReady := schemaReady s, hasSchemaMigrations := s.schemaMigrations.isSome }
    if !schemaReady s then some
      { message := "required auth schema objects are missing", details := some details }
    else checkVersion driver s details

/-- `CheckMigrations`. -/
def checkMigrations (driver : ProbeDriver) (s : Schema) : CheckResult :=
  (tryCheckMigrations driver s).getD { message := "migration check failed" }

end SmirklyAuth
