import SmirklyAuth.Api.ReadinessHandler

/-!
# `SmirklyAuth.Proofs.Readiness`: what a passed migration check says about the tables

A check that is passed has found nine tables and one column. The statements of `sql/auth` need
ten tables: `sign_up_attempts`, which the last migration creates, is not asked for, and the
version that is expected is the one before it. So a passed check leaves exactly this table open
(`usable_iff_of_ok`), and a database that lacks the last migration is reported as ready
(`migratedDb_spec`).
-/

set_option autoImplicit false

namespace SmirklyAuth

/-- Every table that a statement reads or writes is there. -/
def Schema.Usable (s : Schema) : Prop :=
  ∀ statement : AuthStatement, ∀ table, statement.table = some table →
    s.hasTable table.name = true

/-- A statement for each table. -/
theorem AuthStatement.exists_table (table : AuthTable) :
    ∃ statement : AuthStatement, statement.table = some table := by
  cases table with
  | users => exact ⟨.usersInsert, rfl⟩
  | devices => exact ⟨.devicesInsert, rfl⟩
  | sessions => exact ⟨.sessionsInsert, rfl⟩
  | emailOutbox => exact ⟨.emailOutboxInsert, rfl⟩
  | emailVerifications => exact ⟨.emailVerificationsInsert, rfl⟩
  | emailVerificationAttempts => exact ⟨.emailVerificationAttemptsTryRecord, rfl⟩
  | signInAttempts => exact ⟨.signInAttemptsTryRecord, rfl⟩
  | passwordResets => exact ⟨.passwordResetsInsert, rfl⟩
  | passwordResetAttempts => exact ⟨.passwordResetAttemptsTryRecord, rfl⟩
  | signUpAttempts => exact ⟨.signUpAttemptsTryRecord, rfl⟩

/-- The tables of the migrations, one by one. -/
theorem Schema.usable_iff {s : Schema} :
    s.Usable ↔ ∀ table : AuthTable, s.hasTable table.name = true := by
  constructor
  · intro h table
    obtain ⟨statement, hstatement⟩ := AuthStatement.exists_table table
    exact h statement table hstatement
  · intro h statement table _
    exact h table

/-- A passed check has found the schema ready, in either mode. -/
theorem schemaReady_of_ok {driver : ProbeDriver} {s : Schema}
    (h : (checkMigrations driver s).ok = true) : schemaReady s = true := by
  cases hready : schemaReady s with
  | true => rfl
  | false =>
    unfold checkMigrations tryCheckMigrations at h
    cases hfails : driver.schemaQueryFails <;> simp [hfails, hready] at h

/-- The tables that the check asks for. -/
theorem hasTable_of_schemaReady {s : Schema} (h : schemaReady s = true) {table : AuthTable}
    (htable : table ≠ .signUpAttempts) : s.hasTable table.name = true := by
  simp only [schemaReady, Bool.and_eq_true] at h
  obtain ⟨⟨⟨⟨⟨⟨⟨⟨⟨husers, hdevices⟩, hsessions⟩, hemailOutbox⟩, hemailVerifications⟩,
    hemailVerificationAttempts⟩, hsignInAttempts⟩, hpasswordResets⟩, hpasswordResetAttempts⟩,
    _⟩ := h
  cases table with
  | users => exact husers
  | devices => exact hdevices
  | sessions => exact hsessions
  | emailOutbox => exact hemailOutbox
  | emailVerifications => exact hemailVerifications
  | emailVerificationAttempts => exact hemailVerificationAttempts
  | signInAttempts => exact hsignInAttempts
  | passwordResets => exact hpasswordResets
  | passwordResetAttempts => exact hpasswordResetAttempts
  | signUpAttempts => exact absurd rfl htable

/-- When the check is passed, the statements have their tables exactly when `sign_up_attempts`
is there. -/
theorem usable_iff_of_ok (driver : ProbeDriver) (s : Schema)
    (hok : (checkMigrations driver s).ok = true) :
    s.Usable ↔ s.hasTable "sign_up_attempts" = true := by
  rw [Schema.usable_iff]
  constructor
  · intro h
    exact h .signUpAttempts
  · intro hsignUp table
    by_cases htable : table = .signUpAttempts
    · rw [htable]
      exact hsignUp
    · exact hasTable_of_schemaReady (schemaReady_of_ok hok) htable

/-! ### Migrated databases -/

/-- A driver that throws nothing. -/
def plainDriver : ProbeDriver where
  asInt version := some version

/-- A new database after `n` migrations, with the version that the migration tool records. -/
def migratedDb (n : Nat) : Schema :=
  { (migrated n).getD {} with schemaMigrations := some [⟨n, false⟩] }

/-- The check is passed from the eleventh migration on, and `sign_up_attempts` comes with the
twelfth. -/
theorem migratedDb_spec : ∀ n ≤ 12,
    (checkMigrations plainDriver (migratedDb n)).ok = decide (11 ≤ n) ∧
      (migratedDb n).hasTable AuthTable.signUpAttempts.name = decide (n = 12) := by
  decide +kernel

/-- All migrations: the check is passed, and every statement has its table. -/
theorem usable_iff_of_ok_migrated :
    (checkMigrations plainDriver (migratedDb 12)).ok = true ∧ (migratedDb 12).Usable := by
  obtain ⟨hok, hsignUp⟩ := migratedDb_spec 12 (by decide)
  exact ⟨hok, (usable_iff_of_ok plainDriver (migratedDb 12) hok).mpr hsignUp⟩

/-- All migrations but the last one: the check is passed, with and without `schema_migrations`,
and the statement that records a sign-up attempt has no table. -/
theorem not_usable_of_ok_before_last :
    (checkMigrations plainDriver (migratedDb 11)).ok = true ∧
      (checkMigrations plainDriver { migratedDb 11 with schemaMigrations := none }).ok = true ∧
      AuthStatement.signUpAttemptsTryRecord.table = some .signUpAttempts ∧
      (migratedDb 11).hasTable AuthTable.signUpAttempts.name = false ∧
      ¬ (migratedDb 11).Usable := by
  obtain ⟨hok, hmissing⟩ := migratedDb_spec 11 (by decide)
  refine ⟨hok, by decide +kernel, rfl, hmissing, ?_⟩
  intro husable
  have hthere := husable .signUpAttemptsTryRecord .signUpAttempts rfl
  rw [hmissing] at hthere
  cases hthere

end SmirklyAuth
