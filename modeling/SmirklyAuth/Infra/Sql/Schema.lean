import Mathlib.Data.List.Sort
import SmirklyAuth.Domain.Models

/-!
# `SmirklyAuth.Infra.Sql.Schema`: tables, migrations and statements

The schema that the service expects, from three places of the source that are maintained apart:
the tables that the files of `migrations/` create, the statements of `sql/auth` with the table
that each of them reads or writes, and the contents of `schema_migrations`, which the migration
tool keeps.

A migration is the list of its changes to tables and columns. Types, extensions, indexes and
constraints are left out: no statement and no probe of the service looks at them.
-/

set_option autoImplicit false

namespace SmirklyAuth

/-- The tables of `migrations/`. -/
inductive AuthTable where
  | users | devices | sessions | emailOutbox | emailVerifications | emailVerificationAttempts
  | signInAttempts | passwordResets | passwordResetAttempts | signUpAttempts
  deriving DecidableEq, Repr

/-- The name of a table. -/
def AuthTable.name : AuthTable → Str
  | users => "users"
  | devices => "devices"
  | sessions => "sessions"
  | emailOutbox => "email_outbox"
  | emailVerifications => "email_verifications"
  | emailVerificationAttempts => "email_verification_attempts"
  | signInAttempts => "sign_in_attempts"
  | passwordResets => "password_resets"
  | passwordResetAttempts => "password_reset_attempts"
  | signUpAttempts => "sign_up_attempts"

/-- The files of `sql/auth`. -/
inductive AuthStatement where
  | devicesSelectById
  | emailOutboxClaimBatch
  | emailVerificationsFindActiveByUserId
  | passwordResetsFindActiveByUserId
  | sessionsSelectActiveByUserId | sessionsSelectById
  | signInAttemptsCountRecent
  | usersExistsByEmail | usersExistsByPhone | usersExistsByUsername
  | usersSelectByEmail | usersSelectById | usersSelectByPhone | usersSelectByUsername
  | devicesInsert
  | emailOutboxInsert | emailOutboxMarkDead | emailOutboxMarkSent | emailOutboxReschedule
  | emailVerificationAttemptsLockScopes | emailVerificationAttemptsTryRecord
  | emailVerificationsIncrementAttempts | emailVerificationsInsert
  | emailVerificationsMarkActiveUsedByUserId | emailVerificationsMarkUsed
  | passwordResetAttemptsLockScopes | passwordResetAttemptsTryRecord
  | passwordResetsIncrementAttempts | passwordResetsInsert
  | passwordResetsMarkActiveUsedByUserId | passwordResetsMarkUsed
  | sessionsInsert | sessionsRevoke | sessionsRevokeAllByUserId | sessionsRevokeAndReplace
  | sessionsRevokeByTokenFamily | sessionsRevokeByUserId | sessionsUpdateLastUsed
  | signInAttemptsLockScopes | signInAttemptsTryRecord
  | signUpAttemptsLockScope | signUpAttemptsTryRecord
  | usersInsert | usersSetEmailVerified | usersSetPhoneVerified | usersSoftDelete
  | usersUpdatePasswordHash
  deriving DecidableEq, Repr

namespace AuthStatement

/-- The table that a statement reads or writes. Those that only take advisory locks have none. -/
def table : AuthStatement → Option AuthTable
  | devicesSelectById | devicesInsert => some .devices
  | emailOutboxClaimBatch | emailOutboxInsert | emailOutboxMarkDead | emailOutboxMarkSent
  | emailOutboxReschedule => some .emailOutbox
  | emailVerificationsFindActiveByUserId | emailVerificationsIncrementAttempts
  | emailVerificationsInsert | emailVerificationsMarkActiveUsedByUserId
  | emailVerificationsMarkUsed => some .emailVerifications
  | emailVerificationAttemptsTryRecord => some .emailVerificationAttempts
  | passwordResetsFindActiveByUserId | passwordResetsIncrementAttempts | passwordResetsInsert
  | passwordResetsMarkActiveUsedByUserId | passwordResetsMarkUsed => some .passwordResets
  | passwordResetAttemptsTryRecord => some .passwordResetAttempts
  | sessionsSelectActiveByUserId | sessionsSelectById | sessionsInsert | sessionsRevoke
  | sessionsRevokeAllByUserId | sessionsRevokeAndReplace | sessionsRevokeByTokenFamily
  | sessionsRevokeByUserId | sessionsUpdateLastUsed => some .sessions
  | signInAttemptsCountRecent | signInAttemptsTryRecord => some .signInAttempts
  | signUpAttemptsTryRecord => some .signUpAttempts
  | usersExistsByEmail | usersExistsByPhone | usersExistsByUsername | usersSelectByEmail
  | usersSelectById | usersSelectByPhone | usersSelectByUsername | usersInsert
  | usersSetEmailVerified | usersSetPhoneVerified | usersSoftDelete
  | usersUpdatePasswordHash => some .users
  | emailVerificationAttemptsLockScopes | passwordResetAttemptsLockScopes
  | signInAttemptsLockScopes | signUpAttemptsLockScope => none

end AuthStatement

/-! ### Databases -/

/-- A table of the schema `public`. -/
structure TableDef where
  name : Str
  columns : List Str
  deriving DecidableEq, Repr

/-- A row of `schema_migrations`. -/
structure MigrationRow where
  version : Int
  dirty : Bool
  deriving DecidableEq, Repr

/-- The tables of the schema `public`, and the rows of `schema_migrations` when it is there. -/
structure Schema where
  tables : List TableDef := []
  schemaMigrations : Option (List MigrationRow) := none
  deriving DecidableEq, Repr

namespace Schema

/-- `to_regclass('public.name') IS NOT NULL`. -/
def hasTable (s : Schema) (name : Str) : Bool := s.tables.any (·.name == name)

/-- A row of `information_schema.columns` for the schema `public`. -/
def hasColumn (s : Schema) (table column : Str) : Bool :=
  s.tables.any fun t => t.name == table && t.columns.contains column

/-- `SELECT version, dirty FROM schema_migrations ORDER BY version DESC LIMIT 1`. -/
def latest (rows : List MigrationRow) : Option MigrationRow :=
  (rows.insertionSort fun a b => b.version ≤ a.version).head?

end Schema

/-! ### Migrations -/

/-- A change of a migration. -/
inductive SchemaChange where
  | createTable (table : AuthTable) (columns : List String)
  | createTableIfNotExists (table : AuthTable) (columns : List String)
  | addColumn (table : AuthTable) (column : String)

/-- Apply a change: `none` is an error of the server. -/
def SchemaChange.apply (s : Schema) : SchemaChange → Option Schema
  | createTable table columns =>
    if s.hasTable table.name then none
    else some { s with tables := s.tables ++ [⟨table.name, columns.map lit⟩] }
  | createTableIfNotExists table columns =>
    if s.hasTable table.name then some s
    else some { s with tables := s.tables ++ [⟨table.name, columns.map lit⟩] }
  | addColumn table column =>
    if s.hasTable table.name && !s.hasColumn table.name (lit column) then
      some { s with tables := s.tables.map fun t =>
        if t.name == table.name then { t with columns := t.columns ++ [lit column] } else t }
    else none

/-- The columns that the tables of attempts with three scopes share. -/
def attemptColumns (identifier : String) : List String :=
  ["id", identifier, "user_id", "ip", "user_agent", "attempted_at"]

/-- The columns that the tables of codes share. -/
def codeColumns (hash : String) : List String :=
  ["id", "user_id", hash, "created_at", "expires_at", "used_at", "attempts", "last_attempt_at",
    "ip", "user_agent"]

/-- The files `migrations/*.up.sql`, in order. -/
def migrations : List (List SchemaChange) :=
  [ [],
    [.createTable .users ["id", "username", "email", "phone", "password_hash",
      "is_email_verified", "is_phone_verified", "created_at", "password_updated_at",
      "deleted_at"]],
    [.createTable .devices ["id", "user_id", "device_type", "device_name", "os_version",
      "app_version", "fingerprint", "created_at", "last_seen_at"]],
    [.createTable .sessions ["id", "user_id", "device_id", "refresh_token_hash", "ip",
      "user_agent", "created_at", "last_used_at", "expires_at", "revoked_at", "token_family_id",
      "replaced_by_session_id"]],
    [.createTable .emailOutbox ["id", "to_email", "template", "payload", "correlation_id",
      "status", "attempts", "next_attempt_at", "locked_until", "last_error", "created_at",
      "updated_at"]],
    [.createTableIfNotExists .emailVerifications (codeColumns "code_hash")],
    [],
    [.createTableIfNotExists .emailVerificationAttempts (attemptColumns "email")],
    [.createTableIfNotExists .signInAttempts (attemptColumns "login_identifier")],
    [.createTableIfNotExists .passwordResets (codeColumns "token_hash"),
      .createTableIfNotExists .passwordResetAttempts (attemptColumns "email")],
    [.addColumn .emailOutbox "lease_id"],
    [.createTableIfNotExists .signUpAttempts ["id", "ip", "attempted_at"]] ]

/-- A new database after the first `n` migrations. -/
def migrated (n : Nat) : Option Schema :=
  (migrations.take n).flatten.foldlM SchemaChange.apply {}

end SmirklyAuth
