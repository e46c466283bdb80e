import SmirklyAuth.Lib.SlidingWindow
import SmirklyAuth.Protocol.AttemptTables
import SmirklyAuth.System

/-!
# `SmirklyAuth.Proofs.AttemptWindows`: the sliding windows of the attempt tables

`TryRecordAttempt` runs `…_lock_scopes`, which takes an advisory lock for each scope of the
call, and then `…_try_record`, which counts the rows and inserts one. Any number of calls run
concurrently at READ COMMITTED, and their clock readings come in any order.

`attempts_within_windows`: in every state, for every scope with a positive limit, every closed
interval of the length of the window has at most as many committed rows as the limit. It holds
for `sign_in_attempts`, `email_verification_attempts` and `password_reset_attempts` with their
three scopes, and for `sign_up_attempts` with the scope address.

The lock keys are texts and the counted columns are `uuid` and `inet` values. Two calls that
count a common row have a common key: the text of the user id and `host(inet)` are functions of
the values, and the identifier is lower-cased on both sides. The user ids are those of rows of
`users`, so the service passes the text that `id::text` has yielded.
-/

set_option autoImplicit false

namespace SmirklyAuth

open ReadCommitted

/-- The tables with three scopes. -/
inductive AttemptTable where
  | signIn
  | emailVerification
  | passwordReset
  deriving DecidableEq, Repr

namespace AttemptTable

/-- `…_lock_scopes` of the table. -/
def lockScopes : AttemptTable → Postgres → AttemptArgs → List Str
  | signIn => signInAttemptsLockScopes
  | emailVerification => emailVerificationAttemptsLockScopes
  | passwordReset => passwordResetAttemptsLockScopes

/-- `…_try_record` of the table. -/
def tryRecord : AttemptTable → Postgres → AttemptArgs → List Attempt → Option Attempt
  | signIn => signInAttemptsTryRecord
  | emailVerification => emailVerificationAttemptsTryRecord
  | passwordReset => passwordResetAttemptsTryRecord

/-- The lock key of a scope. -/
def lockKey (pg : Postgres) (table : AttemptTable) : AttemptScope → Str
  | .identifier lowered =>
      match table with
      | signIn => lit "auth:sign-in" ++ lit ":" ++ lit "identifier" ++ lit ":" ++ lowered
      | emailVerification =>
          lit "auth:email-verification" ++ lit ":" ++ lit "email" ++ lit ":" ++ lowered
      | passwordReset => lit "auth:password-reset" ++ lit ":" ++ lit "email" ++ lit ":" ++ lowered
  | .user id =>
      match table with
      | signIn => lit "auth:sign-in" ++ lit ":user:" ++ id.text
      | emailVerification => lit "auth:email-verification" ++ lit ":user:" ++ id.text
      | passwordReset => lit "auth:password-reset" ++ lit ":user:" ++ id.text
  | .ip address =>
      match table with
      | signIn => lit "auth:sign-in" ++ lit ":ip:" ++ pg.host address
      | emailVerification => lit "auth:email-verification" ++ lit ":ip:" ++ pg.host address
      | passwordReset => lit "auth:password-reset" ++ lit ":ip:" ++ pg.host address

/-- A call locks the key of every scope of its row. -/
theorem lockScopes_eq (pg : Postgres) (table : AttemptTable) (args : AttemptArgs) :
    table.lockScopes pg args = (AttemptScope.ofArgs pg args).map (table.lockKey pg) := by
  obtain ⟨identifier, userId, ip, userAgent, now, since, _, _, _⟩ := args
  cases table <;> cases userId <;> cases ip <;> rfl

/-- The three statements are one. -/
theorem tryRecord_eq (table : AttemptTable) : table.tryRecord = Attempt.tryRecord := by
  cases table <;> rfl

end AttemptTable

/-- The window and the limits of a policy. The limits are `std::size_t` values. -/
structure AttemptLimits where
  window : Seconds
  maxPerIdentifier : Nat
  maxPerUser : Nat
  maxPerIp : Nat
  identifier_lt : maxPerIdentifier < 2 ^ 64
  user_lt : maxPerUser < 2 ^ 64
  ip_lt : maxPerIp < 2 ^ 64

namespace AttemptLimits

/-- The limit of a scope. -/
def max (limits : AttemptLimits) : AttemptScope → Nat
  | .identifier _ => limits.maxPerIdentifier
  | .user _ => limits.maxPerUser
  | .ip _ => limits.maxPerIp

/-- A limit is a `std::size_t`. -/
theorem max_lt (limits : AttemptLimits) (scope : AttemptScope) : limits.max scope < 2 ^ 64 := by
  cases scope with
  | identifier _ => exact limits.identifier_lt
  | user _ => exact limits.user_lt
  | ip _ => exact limits.ip_lt

/-- Every interval of the length of the window has at most as many rows of a scope as the limit
of the scope, when the limit is positive. -/
def Respected (limits : AttemptLimits) (pg : Postgres) (rows : List Attempt) : Prop :=
  ∀ scope T, 0 < limits.max scope →
    rows.countP (fun r => scope.contains pg r && decide (T ≤ r.attemptedAt) &&
      decide (r.attemptedAt ≤ T + limits.window.nanos)) ≤ limits.max scope

end AttemptLimits

/-- One call of `TryRecordAttempt` with the clock reading `now`. `order` is the order of the lock
keys, which depends on the collation of the database. -/
structure AttemptCall (pg : Postgres) (table : AttemptTable) (limits : AttemptLimits) where
  args : AttemptArgs
  now : Time
  bound : args.now = now.timePointTz
  since : args.since = Time.timePointTz (now - limits.window.nanos)
  maxes : ∀ scope : AttemptScope, scope.limit args = limits.max scope
  order : List Str
  mem_order : ∀ key, key ∈ order ↔ key ∈ table.lockScopes pg args

section
variable {τ : Type} {pg : Postgres} {table : AttemptTable} {limits : AttemptLimits}

/-- The bound start of the window is a window before the bound clock reading. -/
theorem AttemptCall.since_eq (call : AttemptCall pg table limits) :
    call.args.since = call.args.now - limits.window.nanos := by
  rw [call.since, call.bound, Time.timePointTz_sub_nanos]

/-- The statements of the calls. The transaction commits or is rolled back after them. -/
def attemptSystem (calls : τ → AttemptCall pg table limits) : System τ Attempt Str where
  prog t := (calls t).order.map .lock ++ [.insert (table.tryRecord pg (calls t).args) false]
  conflict _ _ := false

/-- The limiter of the table, with the scopes that have a limit. -/
def AttemptLimits.limiter (limits : AttemptLimits) (pg : Postgres) (table : AttemptTable) :
    Limiter Attempt Str { scope : AttemptScope // 0 < limits.max scope } where
  holds scope r := scope.1.contains pg r
  time r := r.attemptedAt
  window := limits.window.nanos
  limit scope := limits.max scope
  key scope := table.lockKey pg scope

/-- Every call takes the locks of its scopes, and counts before it inserts. -/
theorem AttemptLimits.guards (calls : τ → AttemptCall pg table limits) :
    (limits.limiter pg table).Guards (attemptSystem calls) := by
  refine Limiter.guards_of_prog (fun _ => rfl) ?_
  intro t rows row scope hmake hholds
  rw [AttemptTable.tryRecord_eq] at hmake
  obtain ⟨rfl, hbelow⟩ := Attempt.tryRecord_eq_some_iff.mp hmake
  have hmem : scope.1 ∈ AttemptScope.ofArgs pg (calls t).args := AttemptScope.mem_ofArgs.mpr hholds
  refine ⟨?_, ?_⟩
  · rw [(calls t).mem_order, AttemptTable.lockScopes_eq]
    exact List.mem_map.mpr ⟨scope.1, hmem, rfl⟩
  · have hlimit : scope.1.limit (calls t).args = limits.max scope.1 := (calls t).maxes scope.1
    have hscope := hbelow scope.1 hmem
    rw [hlimit, (calls t).since_eq] at hscope
    exact lt_of_belowLimit (limits.max_lt scope.1) scope.2 hscope

end

/-! ### `sign_up_attempts` -/

/-- The window and the limit of the sign-up policy. -/
structure SignUpLimits where
  window : Seconds
  maxPerIp : Nat
  ip_lt : maxPerIp < 2 ^ 64

/-- Every interval of the length of the window has at most as many rows of an address as the
limit, when the limit is positive. -/
def SignUpLimits.Respected (limits : SignUpLimits) (rows : List SignUpAttempt) : Prop :=
  0 < limits.maxPerIp → ∀ (ip : Inet) (T : Time),
    rows.countP (fun r => r.ip == ip && decide (T ≤ r.attemptedAt) &&
      decide (r.attemptedAt ≤ T + limits.window.nanos)) ≤ limits.maxPerIp

/-- One call of `TryRecordAttempt` with the clock reading `now`. -/
structure SignUpCall where
  ip : Inet
  now : Time

section
variable {τ : Type} {limits : SignUpLimits}

/-- The statements of the calls. -/
def signUpSystem (pg : Postgres) (limits : SignUpLimits) (calls : τ → SignUpCall) :
    System τ SignUpAttempt Str where
  prog t := (signUpAttemptsLockScope pg (calls t).ip).map .lock ++
    [.insert (signUpAttemptsTryRecord (calls t).ip (calls t).now.timePointTz
      (Time.timePointTz ((calls t).now - limits.window.nanos)) limits.maxPerIp) false]
  conflict _ _ := false

/-- The limiter of the table. -/
def SignUpLimits.limiter (limits : SignUpLimits) (pg : Postgres) :
    Limiter SignUpAttempt Str Inet where
  holds ip r := r.ip == ip
  time r := r.attemptedAt
  window := limits.window.nanos
  limit _ := limits.maxPerIp
  key ip := lit "auth:sign-up:ip:" ++ pg.host ip

/-- A sign-up takes the lock of its address, and counts before it inserts. -/
theorem SignUpLimits.guards (pg : Postgres) (hpos : 0 < limits.maxPerIp)
    (calls : τ → SignUpCall) : (limits.limiter pg).Guards (signUpSystem pg limits calls) := by
  refine Limiter.guards_of_prog (fun _ => rfl) ?_
  intro t rows row ip hmake hholds
  simp only [signUpAttemptsTryRecord, Time.timePointTz_sub_nanos] at hmake
  split at hmake
  · rename_i hbelow
    cases hmake
    have hip : (calls t).ip = ip := beq_iff_eq.mp hholds
    rw [← hip]
    exact ⟨List.mem_singleton.mpr rfl, lt_of_belowLimit limits.ip_lt hpos hbelow⟩
  · cases hmake

end

/-- Any number of calls of `TryRecordAttempt` interleave statement by statement, with clock
readings in any order. In every state, every closed interval of the length of the window has at
most as many committed rows of a scope as its limit, when the limit is positive. -/
theorem attempts_within_windows (pg : Postgres) :
    (∀ (table : AttemptTable) (limits : AttemptLimits) (τ : Type) [DecidableEq τ]
      (calls : τ → AttemptCall pg table limits) (rows : List Attempt) (s : State τ Attempt Str),
      limits.Respected pg rows →
      Steps (attemptSystem calls) (fun _ _ => True) (.initial rows) s →
      limits.Respected pg s.committedRows) ∧
    (∀ (limits : SignUpLimits) (τ : Type) [DecidableEq τ] (calls : τ → SignUpCall)
      (rows : List SignUpAttempt) (s : State τ SignUpAttempt Str),
      limits.Respected rows →
      Steps (signUpSystem pg limits calls) (fun _ _ => True) (.initial rows) s →
      limits.Respected s.committedRows) := by
  refine ⟨?_, ?_⟩
  · intro table limits τ _ calls rows s hrows h
    have hbounded : (limits.limiter pg table).Bounded s.committedRows :=
      Limiter.bounded_of_steps (AttemptLimits.guards calls)
        (fun scope T => hrows scope.1 T scope.2) h
    exact fun scope T hpos => hbounded ⟨scope, hpos⟩ T
  · intro limits τ _ calls rows s hrows h hpos
    exact Limiter.bounded_of_steps (SignUpLimits.guards pg hpos calls) (hrows hpos) h

/-! ### A concrete run -/

/-- One attempt for each user within ten seconds, and no other limit. -/
def oneAttempt : AttemptLimits where
  window := 10
  maxPerIdentifier := 0
  maxPerUser := 1
  maxPerIp := 0
  identifier_lt := by decide
  user_lt := by decide
  ip_lt := by decide

/-- The arguments of two calls for the account: one with its name, and one with its email
address whose clock is three seconds behind. -/
def unitAttemptArgs (second : Bool) : AttemptArgs where
  identifier := if second then "unit@example.com" else "unit_user"
  userId := some unitUser.id
  ip := none
  userAgent := none
  now := if second then seconds 20 else seconds 23
  since := if second then seconds 10 else seconds 13
  maxPerIdentifier := 0
  maxPerUser := 1
  maxPerIp := 0

/-- The calls of the two servers. -/
def unitAttempts (second : Bool) : AttemptCall plainApp.ports.pg .signIn oneAttempt where
  args := unitAttemptArgs second
  now := if second then seconds 20 else seconds 23
  bound := by cases second <;> rfl
  since := by cases second <;> rfl
  maxes := by
    intro scope
    cases scope <;> rfl
  order := AttemptTable.lockScopes .signIn plainApp.ports.pg (unitAttemptArgs second)
  mem_order := fun _ => Iff.rfl

/-- The second call waits for the lock of the user, counts the row of the first one and records
nothing. -/
theorem attempts_within_windows_twoCalls :
    oneAttempt.Respected plainApp.ports.pg [] ∧
      ∃ s : State Bool Attempt Str,
        Steps (attemptSystem unitAttempts) (fun _ _ => True) (.initial []) s ∧
        (s.txns true).status = .committed ∧ (s.txns false).status = .committed ∧
        s.committedRows.length = 1 ∧ oneAttempt.Respected plainApp.ports.pg s.committedRows := by
  have hempty : oneAttempt.Respected plainApp.ports.pg [] := fun _ _ _ => Nat.zero_le _
  refine ⟨hempty, ?_⟩
  obtain ⟨s, hs, hsecond, hfirst, hlength⟩ : ∃ s ∈ replay (attemptSystem unitAttempts)
      (fun _ _ => True) (.initial []) [.run false, .run true, .run false, .run false, .commit false,
        .run true, .run true, .commit true],
      (s.txns true).status = .committed ∧ (s.txns false).status = .committed ∧
        s.committedRows.length = 1 := by decide +kernel
  have hsteps := steps_of_replay hs
  have hrespected := (attempts_within_windows plainApp.ports.pg).1 .signIn oneAttempt Bool
    unitAttempts [] s hempty hsteps
  exact ⟨s, hsteps, hsecond, hfirst, hlength, hrespected⟩

end SmirklyAuth
