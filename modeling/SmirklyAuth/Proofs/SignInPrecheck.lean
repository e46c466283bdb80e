import SmirklyAuth.Config.AuthDynamicConfig
import SmirklyAuth.Protocol.AttemptTables
import SmirklyAuth.Protocol.SoloRules
import SmirklyAuth.System

/-!
# `SmirklyAuth.Proofs.SignInPrecheck`: the two decisions about the sign-in limits

`SignIn` decides twice whether a limit is reached. The pre-check counts with
`sign_in_attempts_count_recent` and compares in C++. The recorder counts and compares in
`sign_in_attempts_try_record`, where an absent user or address is a `NULL`. Both decide by the
same scopes: one that the call has, with a positive limit and no fewer rows than the limit
(`signInLimitsExceeded_iff`, `Attempt.allows_iff`).

The first path compares `std::size_t` values, the second one their casts to `bigint`. Limits below
`2 ^ 63` are kept by the cast, and both decisions agree (`signInPrecheck_agrees`). The parser of
the runtime configuration accepts no others (`runtimePolicies_fitsBigint`). At `2 ^ 63` the cast is
negative, and the recorder inserts nothing where the pre-check lets the call pass
(`signInPrecheck_disagrees`).
-/

set_option autoImplicit false

namespace SmirklyAuth

open AuthenticationService Interleaving Service

/-! ### The limits -/

/-- The cast to `bigint` keeps the three limits. -/
structure SignInPolicy.FitsBigint (policy : SignInPolicy) : Prop where
  identifier : policy.maxAttemptsPerIdentifier < 2 ^ 63
  user : policy.maxAttemptsPerUser < 2 ^ 63
  ip : policy.maxAttemptsPerIp < 2 ^ 63

/-- `ParseSize` yields nonnegative `std::int64_t` values. -/
theorem parseSignIn_fitsBigint {verified : Option Bool} {json : JsonObject} {policy : SignInPolicy}
    (h : parseSignIn verified json = .ok policy) : policy.FitsBigint := by
  unfold parseSignIn at h
  obtain ⟨_, _, h⟩ := except_bind_eq_ok h
  obtain ⟨_, hidentifier, h⟩ := except_bind_eq_ok h
  obtain ⟨_, huser, h⟩ := except_bind_eq_ok h
  obtain ⟨_, hip, h⟩ := except_bind_eq_ok h
  obtain rfl := Except.ok.inj h
  exact ⟨(parseSize_ok hidentifier).2, (parseSize_ok huser).2, (parseSize_ok hip).2⟩

/-- The limits of every runtime configuration that the parser accepts. -/
theorem runtimePolicies_fitsBigint {value : AuthRuntimeJson} {runtime : AuthRuntimePolicies}
    (fallback : AuthRuntimePolicies) (h : parseAuthRuntimePolicies value = .ok runtime) :
    (runtimePolicies fallback runtime).signIn.FitsBigint := by
  unfold parseAuthRuntimePolicies at h
  obtain ⟨_, _, h⟩ := except_bind_eq_ok h
  obtain ⟨_, hsignIn, h⟩ := except_bind_eq_ok h
  iterate 3 obtain ⟨_, _, h⟩ := except_bind_eq_ok h
  obtain rfl := Except.ok.inj h
  exact parseSignIn_fitsBigint hsignIn

/-! ### One decision -/

/-- The arguments that `SignIn` passes to `TryRecordAttempt`, as the repository binds them: with
the address after its cast and with the times in whole microseconds. -/
def signInArgs (policy : SignInPolicy) (identifier : Str) (userId : Option Uuid)
    (ip : Option Inet) (userAgent : Option Str) (now since : Time) : AttemptArgs where
  identifier := identifier
  userId := userId
  ip := ip
  userAgent := userAgent
  now := now.timePointTz
  since := since.timePointTz
  maxPerIdentifier := policy.maxAttemptsPerIdentifier
  maxPerUser := policy.maxAttemptsPerUser
  maxPerIp := policy.maxAttemptsPerIp

/-- A scope of the arguments has a positive limit, and its rows have reached it. -/
def ReachedLimit (pg : Postgres) (args : AttemptArgs) (rows : List Attempt) : Prop :=
  ∃ scope ∈ AttemptScope.ofArgs pg args, 0 < scope.limit args ∧
    scope.limit args ≤ scope.count pg args.since rows

/-- The test of the pre-check, as an inequality. -/
theorem isRateLimitExceeded_iff {count limit : Nat} :
    isRateLimitExceeded count limit = true ↔ 0 < limit ∧ limit ≤ count := by
  simp [isRateLimitExceeded]

/-- An unknown user has no rows. -/
theorem countRecent_user_none (pg : Postgres) (identifier : Str) (ip : Option Inet) (since : Time)
    (rows : List Attempt) : (Attempt.countRecent pg identifier none ip since rows).user = 0 := by
  show List.countP _ _ = 0
  simp [Attempt.sameUser]

/-- A missing address has no rows. -/
theorem countRecent_ip_none (pg : Postgres) (identifier : Str) (userId : Option Uuid)
    (since : Time) (rows : List Attempt) :
    (Attempt.countRecent pg identifier userId none since rows).ip = 0 := by
  show List.countP _ _ = 0
  simp [Attempt.sameIp]

/-- The pre-check rejects for a scope that the call has and whose limit is positive. -/
theorem signInLimitsExceeded_iff {pg : Postgres} {policy : SignInPolicy} {identifier : Str}
    {userId : Option Uuid} {ip : Option Inet} {userAgent : Option Str} {now since : Time}
    {rows : List Attempt} :
    signInLimitsExceeded policy
        (Attempt.countRecent pg identifier userId ip since.timePointTz rows) = true ↔
      ReachedLimit pg (signInArgs policy identifier userId ip userAgent now since) rows := by
  simp only [signInLimitsExceeded, Bool.or_eq_true, isRateLimitExceeded_iff,
    Attempt.countRecent_identifier]
  -- a counter of a scope that is absent is zero, and no positive limit is below it
  have hzero {limit : Nat} : ¬ (0 < limit ∧ limit = 0) := by omega
  cases userId with
  | none =>
    cases ip with
    | none =>
      simp [ReachedLimit, AttemptScope.ofArgs, AttemptScope.limit, signInArgs,
        countRecent_user_none, countRecent_ip_none, hzero]
    | some address =>
      simp [ReachedLimit, AttemptScope.ofArgs, AttemptScope.limit, signInArgs,
        countRecent_user_none, Attempt.countRecent_ip, hzero]
  | some id =>
    cases ip with
    | none =>
      simp [ReachedLimit, AttemptScope.ofArgs, AttemptScope.limit, signInArgs,
        Attempt.countRecent_user, countRecent_ip_none]
      omega
    | some address =>
      simp [ReachedLimit, AttemptScope.ofArgs, AttemptScope.limit, signInArgs,
        Attempt.countRecent_user, Attempt.countRecent_ip, or_assoc]

/-- The limits of a policy, as the scopes have them. -/
theorem SignInPolicy.FitsBigint.limit_lt {policy : SignInPolicy} (h : policy.FitsBigint)
    (identifier : Str) (userId : Option Uuid) (ip : Option Inet) (userAgent : Option Str)
    (now since : Time) (scope : AttemptScope) :
    scope.limit (signInArgs policy identifier userId ip userAgent now since) < 2 ^ 63 := by
  cases scope with
  | identifier _ => exact h.identifier
  | user _ => exact h.user
  | ip _ => exact h.ip

/-- The recorder refuses exactly when a limit is reached. -/
theorem tryRecord_eq_none_iff {pg : Postgres} {args : AttemptArgs} {rows : List Attempt}
    (hfits : ∀ scope : AttemptScope, scope.limit args < 2 ^ 63) :
    signInAttemptsTryRecord pg args rows = none ↔ ReachedLimit pg args rows := by
  have hbelow (scope : AttemptScope) (count : Nat) :
      belowLimit (scope.limit args) count = true ↔
        scope.limit args = 0 ∨ count < scope.limit args := belowLimit_iff_of_lt (hfits scope)
  rw [Option.eq_none_iff_forall_ne_some]
  constructor
  · intro hnone
    by_contra hnot
    apply hnone _ (Attempt.tryRecord_eq_some_iff.mpr ⟨rfl, ?_⟩)
    intro scope hscope
    rw [hbelow]
    by_contra hreached
    exact hnot ⟨scope, hscope, by omega, by omega⟩
  · rintro ⟨scope, hscope, hpositive, hreached⟩ row hrow
    have hfree := (hbelow _ _).mp ((Attempt.tryRecord_eq_some_iff.mp hrow).2 scope hscope)
    omega

/-! ### `CountRecentAttempts` and `TryRecordAttempt` -/

section

variable (pg : Postgres) (policy : SignInPolicy) (identifier : Str) (userId : Option Uuid)
  (reqMeta : RequestMeta) (now since : Time) (db : Db)

/-- The pre-check: whether it rejects the call, or `none` for a malformed address. -/
def precheck : Option Bool :=
  (SignInAttemptRepository.countRecentAttempts pg identifier userId reqMeta.ip since db).map
    (signInLimitsExceeded policy)

/-- `TryRecordAttempt` with the arguments of `SignIn`. -/
def recordAttempt : Tx Bool :=
  SignInAttemptRepository.tryRecordAttempt pg
    (attemptArgs pg identifier userId reqMeta now since policy.maxAttemptsPerIdentifier
      policy.maxAttemptsPerUser policy.maxAttemptsPerIp)

variable {pg policy identifier userId reqMeta now since db}

/-- The arguments of the recorder, for a request whose address is bound. -/
theorem attemptArgs_of_inetArg {ip : Option Inet} (h : pg.inetArg reqMeta.ip = some ip) :
    attemptArgs pg identifier userId reqMeta now since policy.maxAttemptsPerIdentifier
        policy.maxAttemptsPerUser policy.maxAttemptsPerIp
      = some (signInArgs policy identifier userId ip reqMeta.userAgent now since) := by
  rw [attemptArgs, h]
  rfl

/-- What the recorder does follows from the pre-check. -/
theorem recordAttempt_eq (hfits : policy.FitsBigint) (now : Time) {rejects : Bool}
    (h : precheck pg policy identifier userId reqMeta since db = some rejects) :
    ∃ ip, pg.inetArg reqMeta.ip = some ip ∧
      recordAttempt pg policy identifier userId reqMeta now since db =
        if rejects then .ok (false, db)
        else .ok (true, { db with signInAttempts := db.signInAttempts ++
          [.ofArgs (signInArgs policy identifier userId ip reqMeta.userAgent now since)] }) := by
  unfold precheck SignInAttemptRepository.countRecentAttempts at h
  cases hip : pg.inetArg reqMeta.ip with
  | none =>
    rw [hip] at h
    cases h
  | some ip =>
    rw [hip, Option.map_some, Option.map_some, Option.some.injEq] at h
    subst h
    refine ⟨ip, rfl, ?_⟩
    unfold recordAttempt SignInAttemptRepository.tryRecordAttempt Tx.tryRecordAttempt
    rw [attemptArgs_of_inetArg hip]
    have hnone : signInAttemptsTryRecord pg
        (signInArgs policy identifier userId ip reqMeta.userAgent now since)
          db.signInAttempts = none ↔ _ :=
      tryRecord_eq_none_iff (hfits.limit_lt identifier userId ip reqMeta.userAgent now since)
    rw [← signInLimitsExceeded_iff] at hnone
    cases hrecord : signInAttemptsTryRecord pg
      (signInArgs policy identifier userId ip reqMeta.userAgent now since) db.signInAttempts with
    | none =>
      have hexceeded := hnone.mp hrecord
      simp only [signInAttemptsCountRecent, hexceeded, hrecord, if_true]
    | some row =>
      have hexceeded : signInLimitsExceeded policy
          (Attempt.countRecent pg identifier userId ip since.timePointTz db.signInAttempts)
            = false := by
        rw [← Bool.not_eq_true, ← hnone, hrecord]
        simp
      obtain ⟨rfl, _⟩ := Attempt.tryRecord_eq_some_iff.mp hrecord
      simp only [signInAttemptsCountRecent, hexceeded, hrecord, Bool.false_eq_true, if_false]

/-- The pre-check rejects the call exactly when the recorder would insert nothing. -/
theorem precheck_rejects_iff (hfits : policy.FitsBigint) :
    precheck pg policy identifier userId reqMeta since db = some true ↔
      recordAttempt pg policy identifier userId reqMeta now since db = .ok (false, db) := by
  cases hcheck : precheck pg policy identifier userId reqMeta since db with
  | none =>
    have hip : pg.inetArg reqMeta.ip = none := by
      simpa [precheck, SignInAttemptRepository.countRecentAttempts] using hcheck
    have hargs : attemptArgs pg identifier userId reqMeta now since
        policy.maxAttemptsPerIdentifier policy.maxAttemptsPerUser
        policy.maxAttemptsPerIp = none := by
      rw [attemptArgs, hip, Option.map_none]
    unfold recordAttempt SignInAttemptRepository.tryRecordAttempt Tx.tryRecordAttempt
    rw [hargs]
    simp
  | some rejects =>
    obtain ⟨ip, _, hrecord⟩ := recordAttempt_eq hfits now hcheck
    rw [hrecord]
    cases rejects with
    | true => simp
    | false => simp

/-- A rejected call has a scope with a positive limit that is reached. -/
theorem reachedLimit_of_precheck (now : Time)
    (h : precheck pg policy identifier userId reqMeta since db = some true) :
    ∃ args, attemptArgs pg identifier userId reqMeta now since policy.maxAttemptsPerIdentifier
        policy.maxAttemptsPerUser policy.maxAttemptsPerIp = some args ∧
      ReachedLimit pg args db.signInAttempts := by
  unfold precheck SignInAttemptRepository.countRecentAttempts at h
  cases hip : pg.inetArg reqMeta.ip with
  | none =>
    rw [hip] at h
    cases h
  | some ip =>
    rw [hip, Option.map_some, Option.map_some, Option.some.injEq] at h
    exact ⟨_, attemptArgs_of_inetArg hip, signInLimitsExceeded_iff.mp h⟩

end

/-! ### A call that runs alone -/

/-- The exceptions of the statements of `auth.sign_in` are those of the database. -/
theorem signInTx_error {pg : Postgres} {policy : SessionPolicy} {userId : Uuid}
    {reqMeta : RequestMeta} {sessionId familyId : Uuid} {hash : Str} {i : Input} {db : Db}
    {x : Error} (h : signInTx pg policy userId reqMeta sessionId familyId hash i db = .error x) :
    x = uniqueViolation ∨ x = invalidInet := by
  change Except.bind (DeviceRepository.insert i (DeviceFactory.webDevice userId) db) _ = _ at h
  cases hdevice : DeviceRepository.insert i (DeviceFactory.webDevice userId) db with
  | error y =>
    rw [hdevice] at h
    obtain rfl : y = x := Except.error.inj h
    unfold DeviceRepository.insert at hdevice
    simp only at hdevice
    split at hdevice
    · exact .inl (Except.error.inj hdevice).symm
    · cases hdevice
  | ok r =>
    rw [hdevice] at h
    change SessionRepository.insert pg i _ r.2 = _ at h
    unfold SessionRepository.insert at h
    split at h
    · exact .inr (Except.error.inj h).symm
    · split at h
      · exact .inl (Except.error.inj h).symm
      · cases h

section

variable {ports : Ports} {policies : AuthRuntimePolicies} {cmd : SignInCommand}
  {reqMeta : RequestMeta} {inputs : Nat → Input} {db : Db} {input : NormalizedSignInInput}

/-- The user that a call looks up. -/
def signInUserId (ports : Ports) (input : NormalizedSignInInput) (db : Db) : Option Uuid :=
  (findSignInUser ports.pg input db).map (·.id)

/-- The pre-check of a call that reads the clock at `now`. -/
def signInPrecheck (ports : Ports) (policies : AuthRuntimePolicies) (input : NormalizedSignInInput)
    (reqMeta : RequestMeta) (now : Time) (db : Db) : Option Bool :=
  precheck ports.pg policies.signIn input.rateLimitIdentifier (signInUserId ports input db) reqMeta
    (now.minus policies.signIn.rateLimitWindow) db

/-- What can go wrong with the session of a sign-in that runs alone. -/
theorem openSession_error {policy : SessionPolicy} {user : User} {x : Error}
    (hquiet : Quiet inputs)
    (h : ((openSession ports policy user reqMeta).solo inputs db).result = .error x) :
    x = uniqueViolation ∨ x = invalidInet := by
  unfold openSession generateId at h
  rw [solo_port_bind (hquiet 0), solo_port_bind (hquiet.rest 0),
    solo_port_bind (hquiet.rest.rest 0), solo_port_bind (hquiet.rest.rest.rest 0)] at h
  simp only [Solo.after_result] at h
  generalize (Solo.rest inputs 0).generatedId = familyId at h
  generalize ports.tokenProvider.generateTokens _ _ _ _ = tokens at h
  generalize ports.refreshTokenHasher.hash _ = hash at h
  have hfault := hquiet.rest.rest.rest.rest 0
  cases htx : signInTx ports.pg policy user.id reqMeta (inputs 0).generatedId familyId hash
    (inputs 4) db with
  | ok r =>
    obtain ⟨session, db'⟩ := r
    rw [solo_transaction_bind_ok hfault htx] at h
    cases h
  | error y =>
    rw [solo_transaction_bind_error hfault htx] at h
    obtain rfl := Except.error.inj h
    exact signInTx_error htx

/-- A call that the pre-check rejects. -/
theorem signIn_rejected (hin : signInValidateAndNormalize cmd = .ok input) (hquiet : Quiet inputs)
    (h : signInPrecheck ports policies input reqMeta (inputs 0).now db = some true) :
    ((signIn ports policies cmd reqMeta).solo inputs db).result
      = .error (.tooManySignInAttempts "too many sign-in attempts") := by
  obtain ⟨counters, hcount, hexceeded⟩ := Option.map_eq_some_iff.mp h
  unfold signIn clock
  rw [hin, validated_ok_bind, solo_port_bind (hquiet 0), solo_port_bind (hquiet.rest 0),
    solo_port_bind (hquiet.rest.rest 0)]
  simp only [Solo.after_result]
  unfold signInUserId at hcount
  rw [hcount, orThrow_some_bind, hexceeded]
  rfl

/-- How a call ends that the pre-check lets pass: it fails and has recorded its failure, or it
goes on to open a session. -/
inductive Passed (ports : Ports) (policies : AuthRuntimePolicies) (reqMeta : RequestMeta)
    (db recorded : Db) (r : Solo Db Input Event Error SignInResult) : Prop
  | invalidCredentials (hresult : r.result = .error (.invalidCredentials "invalid credentials"))
      (hstore : r.store = recorded)
  | emailNotVerified (hresult : r.result = .error (.emailNotVerified "email is not verified"))
      (hstore : r.store = recorded)
  | opens (user : User) (inputs : Nat → Input) (hquiet : Quiet inputs)
      (hresult : r.result
        = ((openSession ports policies.session user reqMeta).solo inputs db).result)

/-- Earlier events change nothing. -/
theorem Passed.after {recorded : Db} {r : Solo Db Input Event Error SignInResult}
    (h : Passed ports policies reqMeta db recorded r) (events : List Event) :
    Passed ports policies reqMeta db recorded (r.after events) := by
  cases h with
  | invalidCredentials hresult hstore => exact .invalidCredentials hresult hstore
  | emailNotVerified hresult hstore => exact .emailNotVerified hresult hstore
  | opens user inputs hquiet hresult => exact .opens user inputs hquiet hresult

/-- The failure is recorded as `SignIn` asks for it. -/
theorem recordFailedAttempt_solo {pg : Postgres} {policy : SignInPolicy} {identifier : Str}
    {userId : Option Uuid} {now since : Time} {recorded : Db} {x : Error}
    (hquiet : Quiet inputs)
    (h : recordAttempt pg policy identifier userId reqMeta now since db = .ok (true, recorded)) :
    let r := (recordFailedAttempt pg policy identifier userId reqMeta now since >>=
      fun _ => (throw x : Service SignInResult)).solo inputs db
    r.result = .error x ∧ r.store = recorded := by
  have htx : recordAttemptTx pg policy identifier userId reqMeta now since db
      = .ok ((), recorded) := by
    change Except.bind (recordAttempt pg policy identifier userId reqMeta now since db) _ = _
    rw [h]
    rfl
  unfold recordFailedAttempt
  rw [solo_transaction_bind_ok (hquiet 0) htx]
  exact ⟨rfl, rfl⟩

/-- A call that the pre-check lets pass. -/
theorem signIn_passed (hfits : policies.signIn.FitsBigint)
    (hin : signInValidateAndNormalize cmd = .ok input) (hquiet : Quiet inputs)
    (h : signInPrecheck ports policies input reqMeta (inputs 0).now db = some false) :
    ∃ args, attemptArgs ports.pg input.rateLimitIdentifier (signInUserId ports input db) reqMeta
        (inputs 0).now ((inputs 0).now.minus policies.signIn.rateLimitWindow)
        policies.signIn.maxAttemptsPerIdentifier policies.signIn.maxAttemptsPerUser
        policies.signIn.maxAttemptsPerIp = some args ∧
      Passed ports policies reqMeta db
        { db with signInAttempts := db.signInAttempts ++ [.ofArgs args] }
        ((signIn ports policies cmd reqMeta).solo inputs db) := by
  obtain ⟨ip, hip, hrecord⟩ := recordAttempt_eq hfits (inputs 0).now h
  simp only [Bool.false_eq_true, if_false] at hrecord
  obtain ⟨counters, hcount, hexceeded⟩ := Option.map_eq_some_iff.mp h
  refine ⟨_, attemptArgs_of_inetArg hip, ?_⟩
  generalize hrecorded : ({ db with signInAttempts := db.signInAttempts ++ [.ofArgs _] } : Db)
    = recorded at hrecord ⊢
  unfold signInUserId at hcount hrecord
  unfold signIn clock
  -- clock, lookup and count: the first three inputs
  rw [hin, validated_ok_bind, solo_port_bind (hquiet 0), solo_port_bind (hquiet.rest 0),
    solo_port_bind (hquiet.rest.rest 0), hcount, orThrow_some_bind, hexceeded, throwIf_false_bind]
  refine ((Passed.after ?_ _).after _).after _
  cases hfind : findSignInUser ports.pg input db with
  | none =>
    rw [hfind] at hrecord
    obtain ⟨hresult, hstore⟩ := recordFailedAttempt_solo
      (x := .invalidCredentials "invalid credentials") hquiet.rest.rest.rest hrecord
    exact .invalidCredentials hresult hstore
  | some user =>
    rw [hfind] at hrecord
    rw [solo_port_bind (hquiet.rest.rest.rest 0)]
    refine Passed.after ?_ _
    split
    · obtain ⟨hresult, hstore⟩ := recordFailedAttempt_solo
        (x := .invalidCredentials "invalid credentials") hquiet.rest.rest.rest.rest hrecord
      exact .invalidCredentials hresult hstore
    split
    · obtain ⟨hresult, hstore⟩ := recordFailedAttempt_solo
        (x := .emailNotVerified "email is not verified") hquiet.rest.rest.rest.rest hrecord
      exact .emailNotVerified hresult hstore
    · exact .opens user _ hquiet.rest.rest.rest.rest rfl

end

/-! ### Both decisions agree -/

/-- The pre-check rejects a call exactly when the recorder would insert nothing, for a scope that
the call has and whose limit is positive. A call that runs alone is refused by the pre-check or
not at all, and when it fails after the pre-check it has recorded its failure. -/
theorem signInPrecheck_agrees (ports : Ports) (policies : AuthRuntimePolicies)
    (hfits : policies.signIn.FitsBigint) :
    (∀ identifier userId reqMeta now since db,
      (precheck ports.pg policies.signIn identifier userId reqMeta since db = some true ↔
        recordAttempt ports.pg policies.signIn identifier userId reqMeta now since db
          = .ok (false, db))) ∧
    (∀ identifier userId reqMeta now since db,
      precheck ports.pg policies.signIn identifier userId reqMeta since db = some true →
      ∃ args, attemptArgs ports.pg identifier userId reqMeta now since
          policies.signIn.maxAttemptsPerIdentifier policies.signIn.maxAttemptsPerUser
          policies.signIn.maxAttemptsPerIp = some args ∧
        ReachedLimit ports.pg args db.signInAttempts) ∧
    (∀ cmd input reqMeta inputs db, signInValidateAndNormalize cmd = .ok input → Quiet inputs →
      signInPrecheck ports policies input reqMeta (inputs 0).now db = some true →
      ((signIn ports policies cmd reqMeta).solo inputs db).result
        = .error (.tooManySignInAttempts "too many sign-in attempts")) ∧
    ∀ cmd input reqMeta inputs db, signInValidateAndNormalize cmd = .ok input → Quiet inputs →
      signInPrecheck ports policies input reqMeta (inputs 0).now db = some false →
      let r := (signIn ports policies cmd reqMeta).solo inputs db
      (∀ what, r.result ≠ .error (.tooManySignInAttempts what)) ∧
      ((∃ what, r.result = .error (.invalidCredentials what) ∨
          r.result = .error (.emailNotVerified what)) →
        ∃ row, row.identifier = input.rateLimitIdentifier ∧
          row.attemptedAt = (inputs 0).now.timePointTz ∧
          r.store = { db with signInAttempts := db.signInAttempts ++ [row] }) := by
  refine ⟨?_, ?_, ?_, ?_⟩
  · intro identifier userId reqMeta now since db
    exact precheck_rejects_iff hfits
  · intro identifier userId reqMeta now since db hrejects
    exact reachedLimit_of_precheck now hrejects
  · intro cmd input reqMeta inputs db hin hquiet hrejects
    exact signIn_rejected hin hquiet hrejects
  · intro cmd input reqMeta inputs db hin hquiet hpasses
    obtain ⟨args, hargs, hpassed⟩ := signIn_passed hfits hin hquiet hpasses
    obtain ⟨ip, _, rfl⟩ := Option.map_eq_some_iff.mp hargs
    cases hpassed with
    | invalidCredentials hresult hstore =>
      exact ⟨fun what => by simp [hresult], fun _ => ⟨_, rfl, rfl, hstore⟩⟩
    | emailNotVerified hresult hstore =>
      exact ⟨fun what => by simp [hresult], fun _ => ⟨_, rfl, rfl, hstore⟩⟩
    | opens user inputs' hquiet' hresult =>
      -- the exceptions of the database are none of the three
      have hdatabase {x : Error}
          (h : ((signIn ports policies cmd reqMeta).solo inputs db).result = .error x) :
          x = uniqueViolation ∨ x = invalidInet :=
        openSession_error hquiet' (hresult.symm.trans h)
      constructor
      · intro what hmany
        rcases hdatabase hmany with h | h <;> cases h
      · rintro ⟨what, hfailed | hfailed⟩
        · rcases hdatabase hfailed with h | h <;> cases h
        · rcases hdatabase hfailed with h | h <;> cases h

/-- With a wrong password and the default limits, the pre-check lets the first call of a user
pass, and the call records its failure. -/
theorem signInPrecheck_agrees_unitUser :
    ∃ runtime, parseAuthRuntimePolicies {} = .ok runtime ∧
      ∃ row, ((signIn plainApp.ports (runtimePolicies {} runtime)
          { username := some "unit_user", password := "wrong" } {}).solo (fun _ => {}) unitDb).store
        = { unitDb with signInAttempts := [row] } := by
  obtain ⟨runtime, hparsed⟩ : ∃ runtime, parseAuthRuntimePolicies {} = .ok runtime := ⟨_, rfl⟩
  refine ⟨runtime, hparsed, ?_⟩
  have hfits := runtimePolicies_fitsBigint {} hparsed
  cases hparsed
  obtain ⟨row, _, _, hstore⟩ := ((signInPrecheck_agrees plainApp.ports _ hfits).2.2.2
    { username := some "unit_user", password := "wrong" }
    { username := some "unit_user", rateLimitIdentifier := "username:unit_user" } {} (fun _ => {})
    unitDb rfl (fun _ => rfl) rfl).2
    ⟨"invalid credentials", .inl rfl⟩
  exact ⟨row, hstore⟩

/-- A limit of `2 ^ 63` failures per identifier on an empty table: the pre-check lets the call
pass, and the recorder, which compares with the negative cast, inserts nothing. -/
theorem signInPrecheck_disagrees :
    let policy : SignInPolicy := { maxAttemptsPerIdentifier := 2 ^ 63 }
    precheck plainPostgres policy "username:unit_user" none {} 0 {} = some false ∧
      recordAttempt plainPostgres policy "username:unit_user" none {} 0 0 {} = .ok (false, {}) := by
  exact ⟨by decide +kernel, rfl⟩

end SmirklyAuth
