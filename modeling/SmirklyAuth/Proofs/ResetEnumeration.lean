import SmirklyAuth.Api.EmailHandlers
import SmirklyAuth.Protocol.ResetLimiter
import SmirklyAuth.System

/-!
# `SmirklyAuth.Proofs.ResetEnumeration`: what the reset endpoints tell about an account

The same calls of `password-reset/request` and `password-reset/confirm` run on two databases,
one with an account for the address `e` and one without. `Related` is what the databases have
in common before each call, and every call keeps it, whatever it is (`alike_of_related`).

The answers differ at one place. `ConfirmReset` throws `InvalidPasswordResetToken` for an
unknown address and `PasswordResetExpired` for an account without an active reset, and the
two have different statuses. `ResetCall.reveals` is the condition for that on the database
before the call, and `resetAnswers_eq_iff` says that nothing else tells the databases apart.

Three assumptions are explicit: the calls are hit by no fault, the identifiers that the
database draws are new, and a hash is the hash of one token.
-/

set_option autoImplicit false

namespace SmirklyAuth

open Interleaving Service Sql

/-! ### A confirmation with a wrong token -/

/-- What `ConfirmReset` returns and leaves behind when the token is the token of no reset. -/
def confirmOutcome (ports : Ports) (passwordPolicy : PasswordPolicy)
    (policy : PasswordResetPolicy) (email newPassword : Str) (reqMeta : RequestMeta)
    (now : Time) (db : Db) : Except Error Unit × Db :=
  match passwordValidate passwordPolicy newPassword with
  | .error what => (.error (.passwordResetValidation what), db)
  | .ok () =>
    let user? := usersSelectByEmail ports.pg email db.users
    match recordReset ports.pg policy email (user?.map (·.id)) reqMeta now
        db.passwordResetAttempts with
    | .error x => (.error x, db)
    | .ok rows =>
      match user? with
      | none => (.error (.invalidPasswordResetToken "invalid password reset token"),
          { db with passwordResetAttempts := rows })
      | some user =>
        match passwordResetsFindActiveByUserId user.id now.timePointTz policy.maxTokenAttempts
            db.passwordResets with
        | none => (.error (.passwordResetExpired "password reset token expired or not found"),
            { db with passwordResetAttempts := rows })
        | some reset => (.error (.invalidPasswordResetToken "invalid password reset token"),
            { db with
              passwordResetAttempts := rows
              passwordResets := (passwordResetsIncrementAttempts reset.id now.timePointTz
                policy.maxTokenAttempts).run db.passwordResets })

/-- A confirmation with a wrong token that runs alone, from its lookup to its exception. -/
theorem confirmReset_solo {ports : Ports} {passwordPolicy : PasswordPolicy}
    {policies : AuthRuntimePolicies} {email token newPassword : Str} {reqMeta : RequestMeta}
    {inputs : Nat → Input} {db : Db} (hquiet : Quiet inputs)
    (hwrong : ∀ r ∈ db.passwordResets,
      ports.resetTokenHasher.verify token r.secretHash = false) :
    let r := (PasswordService.confirmReset ports passwordPolicy policies
      ⟨email, token, newPassword⟩ reqMeta).solo inputs db
    (r.result, r.store) = confirmOutcome ports passwordPolicy policies.passwordReset email
      newPassword reqMeta (inputs 0).now db := by
  unfold PasswordService.confirmReset confirmOutcome clock
  cases passwordValidate passwordPolicy newPassword with
  | error what => rfl
  | ok _ =>
    simp only [Except.mapError, validated_ok_bind]
    rw [solo_port_bind (hquiet 0), solo_port_bind (hquiet.rest 0)]
    simp only [Solo.after_result, Solo.after_store]
    cases hrecord : recordReset ports.pg policies.passwordReset email
      ((usersSelectByEmail ports.pg email db.users).map (·.id)) reqMeta (inputs 0).now
      db.passwordResetAttempts with
    | error x =>
      rw [solo_transaction_bind_error (hquiet.rest.rest 0)
        (by rw [recordAttemptTx_eq, hrecord]; rfl)]
    | ok rows =>
      rw [solo_transaction_bind_ok (hquiet.rest.rest 0)
        (by rw [recordAttemptTx_eq, hrecord]; rfl)]
      simp only [Solo.after_result, Solo.after_store]
      cases usersSelectByEmail ports.pg email db.users with
      | none => rfl
      | some user =>
        simp only [orThrow_some_bind]
        rw [solo_port_bind (hquiet.rest.rest.rest 0)]
        simp only [Solo.after_result, Solo.after_store]
        simp only [PasswordResetRepository.findActiveByUserId]
        cases hfind : passwordResetsFindActiveByUserId user.id (inputs 0).now.timePointTz
          policies.passwordReset.maxTokenAttempts db.passwordResets with
        | none => rfl
        | some reset =>
          have hmem := (OneTimeCode.findActiveByUserId_eq_some hfind).1
          simp only [orThrow_some_bind]
          rw [solo_port_bind (hquiet.rest.rest.rest.rest 0)]
          simp only [hwrong reset hmem, Bool.not_false, if_true, Solo.after_result,
            Solo.after_store]
          rw [solo_transaction_bind_ok (hquiet.rest.rest.rest.rest.rest 0) rfl]
          rfl

/-! ### The endpoints -/

/-- The fields of the body of a call. -/
inductive ResetBody where
  | request (email : Option Str)
  | confirm (email token newPassword : Option Str)

/-- A call of one of the two endpoints, with the inputs of its steps. -/
structure ResetCall where
  body : ResetBody
  reqMeta : RequestMeta := {}
  inputs : Nat → Input

/-- The handler of a call. -/
def ResetCall.handler (app : App) (policies : AuthRuntimePolicies) (call : ResetCall) :
    Service HttpResponse :=
  match call.body with
  | .request email => passwordResetRequestHandler app.ports policies email call.reqMeta
  | .confirm email token newPassword =>
    passwordResetConfirmHandler app.ports app.passwordPolicy policies email token newPassword
      call.reqMeta

/-- The status and the error code that the client sees. -/
def httpAnswer : Except Error HttpResponse → HttpStatus × Option Str
  | .ok response => (response.status, response.error.map (·.1))
  | .error _ => (.internalServerError, none)

/-- The answers to calls that run one after the other. -/
def resetAnswers (app : App) (policies : AuthRuntimePolicies) :
    List ResetCall → Db → List (HttpStatus × Option Str)
  | [], _ => []
  | call :: calls, db =>
    let r := (call.handler app policies).solo call.inputs db
    httpAnswer r.result :: resetAnswers app policies calls r.store

/-- The answer to a use case that ended. -/
def useCaseAnswer : Except Error Unit → HttpStatus × Option Str
  | .ok () => (.noContent, none)
  | .error x => match tryMapAuthError x with
    | some mapped => (mapped.status, some mapped.code)
    | none => (.internalServerError, none)

/-- The reply of a call without a result, and that it writes what the call writes. -/
theorem noContentOrError_solo (call : Service Unit) (inputs : Nat → Input) (db : Db) :
    let r := (noContentOrError .generic call).solo inputs db
    (httpAnswer r.result, r.store)
      = (useCaseAnswer (call.solo inputs db).result, (call.solo inputs db).store) := by
  simp only [noContentOrError, Prog.solo_tryCatch, Prog.solo_bind, Solo.next]
  cases (call.solo inputs db).result with
  | ok _ => rfl
  | error x =>
    simp only [Solo.after_result, Solo.after_store, authErrorResponse, useCaseAnswer]
    cases tryMapAuthError x <;> rfl

/-! ### The two databases -/

/-- The account is the only difference between the accounts, the attempts are those of the
same calls, and the second database has the resets of the other accounts. -/
structure TwinDbs (pg : Postgres) (e : Str) (account : User) (db₁ db₂ : Db) : Prop where
  users : Registration pg e account db₁.users db₂.users
  attempts : TwinAttempts pg e account.id db₁.passwordResetAttempts db₂.passwordResetAttempts
  resets : db₂.passwordResets = db₁.passwordResets.filter (·.userId != account.id)

section

variable (u : Update OneTimeCode) (rows : List OneTimeCode) (id : Uuid)

/-- An update that keeps the owner of a row can be done before or after a selection by
owner. -/
theorem filter_owner_run (hkeeps : u.Keeps (·.userId)) :
    (u.run rows).filter (·.userId != id) = u.run (rows.filter (·.userId != id)) := by
  rw [Update.run, Update.run, List.filter_map]
  refine congrArg _ (List.filter_congr fun r _ => ?_)
  simp only [Function.comp, hkeeps.apply r]

/-- An update of the rows of one account is not seen by the others. -/
theorem filter_owner_run_own (hkeeps : u.Keeps (·.userId))
    (hown : ∀ r ∈ rows, u.cond r = true → r.userId = id) :
    (u.run rows).filter (·.userId != id) = rows.filter (·.userId != id) := by
  rw [filter_owner_run u rows id hkeeps, Update.run]
  conv_rhs => rw [← List.map_id (rows.filter _)]
  refine List.map_congr_left fun r hr => ?_
  obtain ⟨hmem, howner⟩ := List.mem_filter.mp hr
  refine Update.apply_neg (Bool.eq_false_iff.mpr fun hcond => ?_)
  simp [hown r hmem hcond] at howner

end

/-- There is no latest row of an empty list only. -/
theorem latest_eq_none_iff {rows : List OneTimeCode} :
    OneTimeCode.latest rows = none ↔ rows = [] := by
  cases rows with
  | nil => simp [OneTimeCode.latest]
  | cons r rows =>
    simp only [OneTimeCode.latest, reduceCtorEq, iff_false]
    split
    · simp
    · split <;> simp

/-- The account has a reset that is unused, not expired and not exhausted at a clock reading. -/
def hasActiveReset (db : Db) (accountId : Uuid) (now : Time) (maxAttempts : Nat) : Bool :=
  db.passwordResets.any fun r => r.userId == accountId && r.active now.timePointTz maxAttempts

/-- No code is found when none is active. -/
theorem findActive_eq_none_iff {db : Db} {accountId : Uuid} {now : Time} {maxAttempts : Nat} :
    passwordResetsFindActiveByUserId accountId now.timePointTz maxAttempts
        db.passwordResets = none ↔
      hasActiveReset db accountId now maxAttempts = false := by
  simp only [passwordResetsFindActiveByUserId, OneTimeCode.findActiveByUserId,
    latest_eq_none_iff, List.filter_eq_nil_iff, hasActiveReset, List.any_eq_false]

/-- No reset of the database has one of the tokens. -/
def Unissued (hasher : TokenHasher) (tokens : List Str) (db : Db) : Prop :=
  ∀ token ∈ tokens, ∀ r ∈ db.passwordResets, hasher.verify token r.secretHash = false

/-- An update that keeps the hashes. -/
theorem verify_run {hasher : TokenHasher} {token : Str} {u : Update OneTimeCode}
    {rows : List OneTimeCode} (hkeeps : u.Keeps (·.secretHash))
    (h : ∀ r ∈ rows, hasher.verify token r.secretHash = false) :
    ∀ r ∈ u.run rows, hasher.verify token r.secretHash = false := by
  intro r hr
  obtain ⟨r₀, hr₀, rfl⟩ := Update.mem_run.mp hr
  rw [hkeeps.apply r₀]
  exact h r₀ hr₀

/-- A token that was issued to nobody, on the other side. -/
theorem TwinDbs.unissued {pg : Postgres} {e : Str} {account : User} {db₁ db₂ : Db}
    (h : TwinDbs pg e account db₁ db₂) {hasher : TokenHasher} {tokens : List Str}
    (hunissued : Unissued hasher tokens db₁) : Unissued hasher tokens db₂ := by
  intro token htoken r hr
  rw [h.resets] at hr
  exact hunissued token htoken r (List.mem_filter.mp hr).1

/-! ### A request in both databases -/

section

variable {ports : Ports} {policy : PasswordResetPolicy} {e : Str} {account : User}
  {db₁ db₂ : Db}

/-- A request that was admitted, on both sides. -/
theorem requestedReset_twin (h : TwinDbs ports.pg e account db₁ db₂) (m : Str)
    (reqMeta : RequestMeta) (now : Time) (i : Input) {rows₁ rows₂ : List Attempt}
    (hrows : TwinAttempts ports.pg e account.id rows₁ rows₂) :
    TwinDbs ports.pg e account
      (requestedReset ports policy (usersSelectByEmail ports.pg m db₁.users) reqMeta now i
        { db₁ with passwordResetAttempts := rows₁ })
      (requestedReset ports policy (usersSelectByEmail ports.pg m db₂.users) reqMeta now i
        { db₂ with passwordResetAttempts := rows₂ }) := by
  by_cases hm : ports.pg.lower m = ports.pg.lower e
  · -- only the first database has somebody to send a token to
    rw [h.users.select_registered hm, h.users.select_unknown hm]
    obtain ⟨address, haddress, -⟩ := Option.map_eq_some_iff.mp h.users.email
    simp only [requestedReset, Option.bind_some, haddress, Option.map_some, Option.bind_none]
    refine ⟨h.users, hrows, ?_⟩
    have hown := filter_owner_run_own
      (passwordResetsMarkActiveUsedByUserId account.id now.timePointTz)
      db₁.passwordResets account.id (fun _ => rfl) fun r _ hcond => by
        simp only [passwordResetsMarkActiveUsedByUserId, OneTimeCode.markActiveUsedByUserId,
          Bool.and_eq_true, beq_iff_eq] at hcond
        exact hcond.1
    simp only [issuedReset, List.filter_append, hown]
    rw [h.resets]
    simp [newReset, OneTimeCode.ofData]
  · rw [h.users.select_other hm]
    cases hselect : usersSelectByEmail ports.pg m db₂.users with
    | none => exact ⟨h.users, hrows, h.resets⟩
    | some user =>
      have hne := h.users.id_ne_of_select hselect
      cases haddress : user.email with
      | none =>
        simp only [requestedReset, Option.bind_some, haddress, Option.map_none]
        exact ⟨h.users, hrows, h.resets⟩
      | some address =>
        simp only [requestedReset, Option.bind_some, haddress, Option.map_some]
        refine ⟨h.users, hrows, ?_⟩
        simp only [issuedReset, List.filter_append, h.resets]
        rw [filter_owner_run _ _ _ fun _ => rfl]
        simp [newReset, OneTimeCode.ofData, hne]

/-- A request has the same result on both sides, and leaves them in step. -/
theorem requestOutcome_twin (haccepted : policy.Accepted) (hlimits : policy.HidesAccounts)
    (h : TwinDbs ports.pg e account db₁ db₂) (m : Str) (reqMeta : RequestMeta)
    (inputs : Nat → Input) :
    let outcome db := requestOutcome ports policy m reqMeta inputs db
    (outcome db₁).1 = (outcome db₂).1 ∧
      TwinDbs ports.pg e account (outcome db₁).2 (outcome db₂).2 := by
  simp only [requestOutcome]
  split
  · exact ⟨rfl, h⟩
  · rcases recordReset_twin m haccepted hlimits h.users h.attempts reqMeta (inputs 0).now with
      ⟨x, h₁, h₂⟩ | ⟨rows₁, rows₂, h₁, h₂, hrows⟩
    · simp only at h₁ h₂
      rw [h₁, h₂]
      exact ⟨rfl, h⟩
    · simp only at h₁ h₂
      rw [h₁, h₂]
      exact ⟨rfl, requestedReset_twin h m reqMeta _ _ hrows⟩

/-- The token of a request is the token of the reset it issues. -/
theorem requestOutcome_unissued {tokens : List Str} {db : Db} {inputs : Nat → Input}
    (hhasher : ∀ token secret,
      ports.resetTokenHasher.verify token (ports.resetTokenHasher.hash secret) = true →
        token = secret)
    (hsecret : (inputs 2).secret ∉ tokens) (m : Str) (reqMeta : RequestMeta)
    (h : Unissued ports.resetTokenHasher tokens db) :
    Unissued ports.resetTokenHasher tokens
      (requestOutcome ports policy m reqMeta inputs db).2 := by
  simp only [requestOutcome]
  split
  · exact h
  · split
    · exact h
    · unfold requestedReset
      split
      · intro token htoken r hr
        rcases List.mem_append.mp hr with hr | hr
        · exact verify_run (fun _ => rfl) (h token htoken) r hr
        · rw [List.mem_singleton.mp hr]
          refine Bool.eq_false_iff.mpr fun hverify => hsecret ?_
          rw [← hhasher token _ hverify]
          exact htoken
      · exact h

/-! ### A confirmation in both databases -/

/-- The limits admit a call for the account. -/
def underLimits (pg : Postgres) (policy : PasswordResetPolicy) (email : Str) (accountId : Uuid)
    (reqMeta : RequestMeta) (now : Time) (rows : List Attempt) : Bool :=
  (pg.inetArg reqMeta.ip).any fun ip =>
    admitsReset pg (resetArgs policy email (some accountId) reqMeta now ip) rows

/-- The limits admit a request when its attempt is recorded. -/
theorem underLimits_iff {pg : Postgres} {email : Str} {accountId : Uuid}
    {reqMeta : RequestMeta} {now : Time} {rows : List Attempt} :
    underLimits pg policy email accountId reqMeta now rows = true ↔
      ∃ rows', recordReset pg policy email (some accountId) reqMeta now rows = .ok rows' := by
  unfold underLimits
  cases hip : pg.inetArg reqMeta.ip with
  | none =>
    simp only [Option.any_none, Bool.false_eq_true, false_iff]
    rintro ⟨rows', h⟩
    obtain ⟨ip, hip'⟩ := inetArg_of_recordReset h
    rw [hip] at hip'
    cases hip'
  | some ip =>
    rw [recordReset_eq hip, Option.any_some]
    split
    · simp [*]
    · simp [*]

/-- The call confirms a reset of the account with an acceptable password, the limits admit
it, and the account has no active reset. -/
def confirmReveals (ports : Ports) (passwordPolicy : PasswordPolicy)
    (policy : PasswordResetPolicy) (e : Str) (account : User) (email newPassword : Str)
    (reqMeta : RequestMeta) (now : Time) (db : Db) : Bool :=
  (passwordValidate passwordPolicy newPassword).toBool &&
  ports.pg.lower email == ports.pg.lower e &&
  underLimits ports.pg policy email account.id reqMeta now db.passwordResetAttempts &&
  !hasActiveReset db account.id now policy.maxTokenAttempts

/-- The other accounts have the same active resets in both databases. -/
theorem TwinDbs.findActive_eq {pg : Postgres} (h : TwinDbs pg e account db₁ db₂) {id : Uuid}
    (hid : id ≠ account.id) (now : Time) (maxAttempts : Nat) :
    passwordResetsFindActiveByUserId id now maxAttempts db₁.passwordResets
      = passwordResetsFindActiveByUserId id now maxAttempts db₂.passwordResets := by
  simp only [passwordResetsFindActiveByUserId, OneTimeCode.findActiveByUserId, h.resets,
    List.filter_filter]
  refine congrArg _ (List.filter_congr fun r _ => ?_)
  by_cases howner : r.userId = id
  · simp [howner, hid]
  · simp [howner]

/-- A failed comparison with a reset of the account changes no reset of the others. -/
theorem filter_owner_increment {rows : List OneTimeCode} (hkeys : (rows.map (·.id)).Nodup)
    {reset : OneTimeCode} (hmem : reset ∈ rows) (howner : reset.userId = account.id)
    (now : Time) (maxAttempts : Nat) :
    ((passwordResetsIncrementAttempts reset.id now maxAttempts).run rows).filter
        (·.userId != account.id)
      = rows.filter (·.userId != account.id) := by
  refine filter_owner_run_own _ _ _ (fun _ => rfl) fun r hr hcond => ?_
  simp only [passwordResetsIncrementAttempts, OneTimeCode.incrementAttempts, Bool.and_eq_true,
    beq_iff_eq] at hcond
  rw [List.inj_on_of_nodup_map hkeys hr hmem hcond.1, howner]

/-- The client can tell status 410 from status 400. -/
theorem expired_ne_invalid (what what' : Str) :
    useCaseAnswer (.error (.passwordResetExpired what))
      ≠ useCaseAnswer (.error (.invalidPasswordResetToken what')) := by
  intro h
  have hstatus : HttpStatus.gone = HttpStatus.badRequest := congrArg Prod.fst h
  cases hstatus

/-- A confirmation for the address of the account: the answers differ exactly when there is
no active reset, and the databases stay related in any case. -/
theorem confirmOutcome_account {passwordPolicy : PasswordPolicy} (haccepted : policy.Accepted)
    (hlimits : policy.HidesAccounts) (h : TwinDbs ports.pg e account db₁ db₂)
    (hkeys : (db₁.passwordResets.map (·.id)).Nodup) {m newPassword : Str}
    (hm : ports.pg.lower m = ports.pg.lower e)
    (hpassword : passwordValidate passwordPolicy newPassword = .ok ()) (reqMeta : RequestMeta)
    (now : Time) :
    let outcome db := confirmOutcome ports passwordPolicy policy m newPassword reqMeta now db
    (useCaseAnswer (outcome db₁).1 = useCaseAnswer (outcome db₂).1 ↔
      (underLimits ports.pg policy m account.id reqMeta now db₁.passwordResetAttempts &&
        !hasActiveReset db₁ account.id now policy.maxTokenAttempts) = false) ∧
    TwinDbs ports.pg e account (outcome db₁).2 (outcome db₂).2 := by
  have hrecord := recordReset_twin m haccepted hlimits h.users h.attempts reqMeta now
  simp only [confirmOutcome, hpassword, h.users.select_registered hm,
    h.users.select_unknown hm, Option.map_some, Option.map_none] at hrecord ⊢
  rcases hrecord with ⟨x, h₁, h₂⟩ | ⟨rows₁, rows₂, h₁, h₂, hrows⟩
  · have hlimited : underLimits ports.pg policy m account.id reqMeta now
        db₁.passwordResetAttempts = false := by
      refine Bool.eq_false_iff.mpr fun hunder => ?_
      obtain ⟨rows, hok⟩ := underLimits_iff.mp hunder
      rw [h₁] at hok
      cases hok
    rw [h₁, h₂, hlimited]
    exact ⟨by simp, h⟩
  · rw [h₁, h₂, underLimits_iff.mpr ⟨rows₁, h₁⟩]
    cases hfind : passwordResetsFindActiveByUserId account.id now.timePointTz
      policy.maxTokenAttempts db₁.passwordResets with
    | none =>
      rw [findActive_eq_none_iff.mp hfind]
      exact ⟨iff_of_false (expired_ne_invalid _ _) (by decide), h.users, hrows, h.resets⟩
    | some reset =>
      have hactive : hasActiveReset db₁ account.id now policy.maxTokenAttempts = true := by
        by_contra hnone
        rw [findActive_eq_none_iff.mpr (by simpa using hnone)] at hfind
        cases hfind
      obtain ⟨hmem, howner, -⟩ := OneTimeCode.findActiveByUserId_eq_some hfind
      rw [hactive]
      refine ⟨iff_of_true rfl (by decide), h.users, hrows, ?_⟩
      simp only [filter_owner_increment hkeys hmem howner]
      exact h.resets

/-- A confirmation for another address. -/
theorem confirmOutcome_other {passwordPolicy : PasswordPolicy} (haccepted : policy.Accepted)
    (hlimits : policy.HidesAccounts) (h : TwinDbs ports.pg e account db₁ db₂)
    {m newPassword : Str} (hm : ports.pg.lower m ≠ ports.pg.lower e)
    (hpassword : passwordValidate passwordPolicy newPassword = .ok ()) (reqMeta : RequestMeta)
    (now : Time) :
    let outcome db := confirmOutcome ports passwordPolicy policy m newPassword reqMeta now db
    (outcome db₁).1 = (outcome db₂).1 ∧
      TwinDbs ports.pg e account (outcome db₁).2 (outcome db₂).2 := by
  have hrecord := recordReset_twin m haccepted hlimits h.users h.attempts reqMeta now
  simp only [confirmOutcome, hpassword, h.users.select_other hm] at hrecord ⊢
  rcases hrecord with ⟨x, h₁, h₂⟩ | ⟨rows₁, rows₂, h₁, h₂, hrows⟩
  · rw [h₁, h₂]
    exact ⟨rfl, h⟩
  · rw [h₁, h₂]
    cases hselect : usersSelectByEmail ports.pg m db₂.users with
    | none => exact ⟨rfl, h.users, hrows, h.resets⟩
    | some user =>
      have hid := h.users.id_ne_of_select hselect
      simp only [h.findActive_eq hid now.timePointTz policy.maxTokenAttempts]
      cases passwordResetsFindActiveByUserId user.id now.timePointTz policy.maxTokenAttempts
        db₂.passwordResets with
      | none => exact ⟨rfl, h.users, hrows, h.resets⟩
      | some reset =>
        refine ⟨rfl, h.users, hrows, ?_⟩
        simp only [h.resets]
        rw [filter_owner_run _ _ _ fun _ => rfl]

/-- A confirmation has the same result on both sides, and leaves them in step. -/
theorem confirmOutcome_twin (passwordPolicy : PasswordPolicy) (haccepted : policy.Accepted)
    (hlimits : policy.HidesAccounts) (h : TwinDbs ports.pg e account db₁ db₂)
    (hkeys : (db₁.passwordResets.map (·.id)).Nodup) (m newPassword : Str)
    (reqMeta : RequestMeta) (now : Time) :
    let outcome db := confirmOutcome ports passwordPolicy policy m newPassword reqMeta now db
    (useCaseAnswer (outcome db₁).1 = useCaseAnswer (outcome db₂).1 ↔
      confirmReveals ports passwordPolicy policy e account m newPassword reqMeta now db₁
        = false) ∧
    TwinDbs ports.pg e account (outcome db₁).2 (outcome db₂).2 := by
  cases hpassword : passwordValidate passwordPolicy newPassword with
  | error what =>
    simp only [confirmOutcome, confirmReveals, hpassword]
    exact ⟨by simp [Except.toBool], h⟩
  | ok _ =>
    by_cases hm : ports.pg.lower m = ports.pg.lower e
    · simpa only [confirmReveals, hpassword, Except.toBool, hm, beq_self_eq_true,
        Bool.true_and] using
        confirmOutcome_account haccepted hlimits h hkeys hm hpassword reqMeta now
    · obtain ⟨hresult, htwin⟩ :=
        confirmOutcome_other haccepted hlimits h hm hpassword reqMeta now
      refine ⟨iff_of_true (congrArg useCaseAnswer hresult) ?_, htwin⟩
      simp [confirmReveals, hm]

end

/-- A confirmation with a wrong token keeps the keys and the hashes of the tables. -/
theorem confirmOutcome_frame (ports : Ports) (passwordPolicy : PasswordPolicy)
    (policy : PasswordResetPolicy) (email newPassword : Str) (reqMeta : RequestMeta)
    (now : Time) (db : Db) :
    let db' := (confirmOutcome ports passwordPolicy policy email newPassword reqMeta now db).2
    (∃ u : Update OneTimeCode, u.Keeps (·.id) ∧ u.Keeps (·.secretHash) ∧
      db'.passwordResets = u.run db.passwordResets) ∧ db'.emailOutbox = db.emailOutbox := by
  -- the update that changes nothing
  have hsame : ∃ u : Update OneTimeCode, u.Keeps (·.id) ∧ u.Keeps (·.secretHash) ∧
      db.passwordResets = u.run db.passwordResets :=
    ⟨⟨fun _ => false, id⟩, fun _ => rfl, fun _ => rfl, (List.map_id _).symm⟩
  simp only [confirmOutcome]
  split
  · exact ⟨hsame, rfl⟩
  split
  · exact ⟨hsame, rfl⟩
  split
  · exact ⟨hsame, rfl⟩
  split
  · exact ⟨hsame, rfl⟩
  · exact ⟨⟨_, fun _ => rfl, fun _ => rfl, rfl⟩, rfl⟩

/-- A confirmation uses no new id. -/
theorem FreshIds.confirm {ports : Ports} {passwordPolicy : PasswordPolicy}
    {policy : PasswordResetPolicy} {codeIds jobIds : List Uuid} {db : Db}
    (h : FreshIds codeIds jobIds db) (email newPassword : Str) (reqMeta : RequestMeta)
    (now : Time) :
    FreshIds codeIds jobIds
      (confirmOutcome ports passwordPolicy policy email newPassword reqMeta now db).2 := by
  obtain ⟨⟨u, hid, -, hrows⟩, hjobs⟩ :=
    confirmOutcome_frame ports passwordPolicy policy email newPassword reqMeta now db
  refine ⟨?_, ?_⟩
  · rw [hrows, hid.map_run]
    exact h.codes
  · rw [hjobs]
    exact h.jobs

/-! ### Sequences of calls -/

/-- The identifiers that the database draws for the requests among the calls. -/
def drawnIds (draw : Input → Uuid) (calls : List ResetCall) : List Uuid :=
  calls.filterMap fun call => match call.body with
    | .request _ => some (draw (call.inputs 2))
    | .confirm _ _ _ => none

/-- The tokens that the calls submit. -/
def submittedTokens (calls : List ResetCall) : List Str :=
  calls.filterMap fun call => match call.body with
    | .request _ => none
    | .confirm _ token _ => token

/-- The tokens that the token generator returns in the calls. -/
def issuedTokens (calls : List ResetCall) : List Str :=
  calls.filterMap fun call => match call.body with
    | .request _ => some (call.inputs 2).secret
    | .confirm _ _ _ => none

/-- The call is a well-formed confirmation that gives the account away. -/
def ResetCall.reveals (app : App) (policies : AuthRuntimePolicies) (e : Str) (account : User)
    (call : ResetCall) (db : Db) : Bool :=
  match call.body with
  | .confirm (some email) (some token) (some newPassword) =>
    isValidEmailShape email && !(token.isEmpty || 512 < token.length) &&
      confirmReveals app.ports app.passwordPolicy policies.passwordReset e account email
        newPassword call.reqMeta (call.inputs 0).now db
  | _ => false

/-- No call of the sequence gives the account away in the database it finds. -/
def neverReveals (app : App) (policies : AuthRuntimePolicies) (e : Str) (account : User) :
    List ResetCall → Db → Bool
  | [], _ => true
  | call :: calls, db =>
    !call.reveals app policies e account db &&
      neverReveals app policies e account calls
        ((call.handler app policies).solo call.inputs db).store

/-- The two databases before the calls that are left. -/
structure Related (ports : Ports) (e : Str) (account : User) (tokens : List Str)
    (calls : List ResetCall) (db₁ db₂ : Db) : Prop where
  twins : TwinDbs ports.pg e account db₁ db₂
  unissued : Unissued ports.resetTokenHasher tokens db₁
  fresh₁ : FreshIds (drawnIds (·.newCodeId) calls) (drawnIds (·.newJobId) calls) db₁
  fresh₂ : FreshIds (drawnIds (·.newCodeId) calls) (drawnIds (·.newJobId) calls) db₂

section

variable {app : App} {policies : AuthRuntimePolicies} {e : Str} {account : User}
  {tokens : List Str} {calls : List ResetCall} {db₁ db₂ : Db}

/-- Both databases answer a call alike and keep what matters. -/
def Alike (app : App) (policies : AuthRuntimePolicies) (e : Str) (account : User)
    (tokens : List Str) (call : ResetCall) (calls : List ResetCall) (db₁ db₂ : Db) : Prop :=
  let run db := (call.handler app policies).solo call.inputs db
  (httpAnswer (run db₁).result = httpAnswer (run db₂).result ↔
    call.reveals app policies e account db₁ = false) ∧
  Related app.ports e account tokens calls (run db₁).store (run db₂).store

/-- A call that the handler rejects. -/
theorem alike_of_pure {call : ResetCall} (response : HttpResponse)
    (hhandler : call.handler app policies = pure response)
    (hreveals : call.reveals app policies e account db₁ = false)
    (h : Related app.ports e account tokens calls db₁ db₂) :
    Alike app policies e account tokens call calls db₁ db₂ := by
  simp only [Alike, hhandler, Prog.solo_pure, hreveals]
  exact ⟨by simp, h⟩

/-- A call that reaches its use case, with the result and the database that the use case
leaves. -/
theorem alike_of_useCase {call : ResetCall} (useCase : Service Unit)
    (hhandler : call.handler app policies = noContentOrError .generic useCase)
    {outcome : Db → Except Error Unit × Db}
    (hrun₁ : ((useCase.solo call.inputs db₁).result, (useCase.solo call.inputs db₁).store)
      = outcome db₁)
    (hrun₂ : ((useCase.solo call.inputs db₂).result, (useCase.solo call.inputs db₂).store)
      = outcome db₂)
    (hanswer : useCaseAnswer (outcome db₁).1 = useCaseAnswer (outcome db₂).1 ↔
      call.reveals app policies e account db₁ = false)
    (hrelated : Related app.ports e account tokens calls (outcome db₁).2 (outcome db₂).2) :
    Alike app policies e account tokens call calls db₁ db₂ := by
  obtain ⟨hanswer₁, hstore₁⟩ := Prod.mk.inj (noContentOrError_solo useCase call.inputs db₁)
  obtain ⟨hanswer₂, hstore₂⟩ := Prod.mk.inj (noContentOrError_solo useCase call.inputs db₂)
  simp only [Alike, hhandler, hanswer₁, hanswer₂, hstore₁, hstore₂]
  rw [← hrun₁, ← hrun₂] at hanswer hrelated
  exact ⟨hanswer, hrelated⟩

variable (haccepted : policies.passwordReset.Accepted)
  (hlimits : policies.passwordReset.HidesAccounts)
include haccepted hlimits

/-- The handler of the confirmation does not tell the sides apart. -/
theorem alike_confirm {email token newPassword : Option Str}
    {reqMeta : RequestMeta} {inputs : Nat → Input} (hquiet : Quiet inputs)
    (htoken : ∀ t, token = some t → t ∈ tokens)
    (h : Related app.ports e account tokens
      (⟨.confirm email token newPassword, reqMeta, inputs⟩ :: calls) db₁ db₂) :
    Alike app policies e account tokens ⟨.confirm email token newPassword, reqMeta, inputs⟩
      calls db₁ db₂ := by
  have hrelated : Related app.ports e account tokens calls db₁ db₂ :=
    ⟨h.twins, h.unissued, h.fresh₁, h.fresh₂⟩
  match email, token, newPassword with
  | none, _, _ => exact alike_of_pure _ rfl rfl hrelated
  | some _, none, _ => exact alike_of_pure _ rfl rfl hrelated
  | some _, some _, none => exact alike_of_pure _ rfl rfl hrelated
  | some m, some t, some p =>
    -- only a well-formed request reaches the use case
    by_cases hshape : isValidEmailShape m = true
    · by_cases hformat : (t.isEmpty || 512 < t.length) = true
      · refine alike_of_pure (badRequestResponse
          "auth.password_reset.validation_failed" "invalid token format") ?_ ?_ hrelated
        · simp [ResetCall.handler, passwordResetConfirmHandler, hshape, hformat]
        · simp [ResetCall.reveals, hformat]
      · have hkeys : (db₁.passwordResets.map (·.id)).Nodup :=
          (List.nodup_append.mp h.fresh₁.codes).1
        have hwrong := h.unissued t (htoken t rfl)
        obtain ⟨hanswer, htwins⟩ := confirmOutcome_twin app.passwordPolicy haccepted hlimits
          h.twins hkeys m p reqMeta (inputs 0).now
        refine alike_of_useCase
          (PasswordService.confirmReset app.ports app.passwordPolicy policies ⟨m, t, p⟩
            reqMeta) ?_ (confirmReset_solo hquiet hwrong)
          (confirmReset_solo hquiet (h.twins.unissued h.unissued t (htoken t rfl))) ?_ ?_
        · simp [ResetCall.handler, passwordResetConfirmHandler, hshape, hformat]
        · rw [hanswer]
          simp [ResetCall.reveals, hshape, hformat]
        · refine ⟨htwins, ?_, h.fresh₁.confirm m p reqMeta _, h.fresh₂.confirm m p reqMeta _⟩
          intro t' ht'
          obtain ⟨⟨u, -, hhash, hrows⟩, -⟩ := confirmOutcome_frame app.ports app.passwordPolicy
            policies.passwordReset m p reqMeta (inputs 0).now db₁
          rw [hrows]
          exact verify_run hhash (h.unissued t' ht')
    · refine alike_of_pure (badRequestResponse
        "auth.password_reset.validation_failed" "invalid email format") ?_ ?_ hrelated
      · simp [ResetCall.handler, passwordResetConfirmHandler, hshape]
      · simp [ResetCall.reveals, hshape]

variable (hhasher : ∀ token secret,
  app.ports.resetTokenHasher.verify token (app.ports.resetTokenHasher.hash secret) = true →
    token = secret)
include hhasher

/-- The handler of the request does not tell the sides apart. -/
theorem alike_request {email : Option Str} {reqMeta : RequestMeta} {inputs : Nat → Input}
    (hsecret : (inputs 2).secret ∉ tokens)
    (h : Related app.ports e account tokens (⟨.request email, reqMeta, inputs⟩ :: calls)
      db₁ db₂) :
    Alike app policies e account tokens ⟨.request email, reqMeta, inputs⟩ calls db₁ db₂ := by
  have hfresh₁ : FreshIds ((inputs 2).newCodeId :: drawnIds (·.newCodeId) calls)
    ((inputs 2).newJobId :: drawnIds (·.newJobId) calls) db₁ := h.fresh₁
  have hfresh₂ : FreshIds ((inputs 2).newCodeId :: drawnIds (·.newCodeId) calls)
    ((inputs 2).newJobId :: drawnIds (·.newJobId) calls) db₂ := h.fresh₂
  cases hemail : email.filter isValidEmailShape with
  | none =>
    refine alike_of_pure _ (by
      show passwordResetRequestHandler app.ports policies email reqMeta = _
      rw [passwordResetRequestHandler, hemail]) rfl ?_
    exact ⟨h.twins, h.unissued, hfresh₁.step (.inl rfl) (.inl rfl),
      hfresh₂.step (.inl rfl) (.inl rfl)⟩
  | some m =>
    obtain ⟨hresult, htwins⟩ :=
      requestOutcome_twin haccepted hlimits h.twins m reqMeta inputs
    refine alike_of_useCase _ (by
      show passwordResetRequestHandler app.ports policies email reqMeta = _
      rw [passwordResetRequestHandler, hemail]) (requestReset_solo hfresh₁)
      (requestReset_solo hfresh₂) (iff_of_true (congrArg useCaseAnswer hresult) rfl) ?_
    exact ⟨htwins, requestOutcome_unissued hhasher hsecret m reqMeta h.unissued,
      (requestOutcome_frame app.ports policies.passwordReset m reqMeta inputs hfresh₁).2,
      (requestOutcome_frame app.ports policies.passwordReset m reqMeta inputs hfresh₂).2⟩

/-- No call tells the sides apart. -/
theorem alike_of_related {call : ResetCall} (hquiet : Quiet call.inputs)
    (hsecrets : ∀ secret ∈ issuedTokens [call], secret ∉ tokens)
    (htokens : ∀ token ∈ submittedTokens [call], token ∈ tokens)
    (h : Related app.ports e account tokens (call :: calls) db₁ db₂) :
    Alike app policies e account tokens call calls db₁ db₂ := by
  obtain ⟨body, reqMeta, inputs⟩ := call
  cases body with
  | request email =>
    exact alike_request haccepted hlimits hhasher (hsecrets _ List.mem_cons_self) h
  | confirm email token newPassword =>
    refine alike_confirm haccepted hlimits hquiet (fun t ht => htokens t ?_) h
    subst ht
    exact List.mem_cons_self

/-- The answers to a sequence of calls, by induction on the calls. -/
theorem resetAnswers_of_related (hquiet : ∀ call ∈ calls, Quiet call.inputs)
    (hsecrets : ∀ secret ∈ issuedTokens calls, secret ∉ tokens)
    (htokens : ∀ token ∈ submittedTokens calls, token ∈ tokens)
    (h : Related app.ports e account tokens calls db₁ db₂) :
    resetAnswers app policies calls db₁ = resetAnswers app policies calls db₂ ↔
      neverReveals app policies e account calls db₁ = true := by
  induction calls generalizing db₁ db₂ with
  | nil => simp [resetAnswers, neverReveals]
  | cons call calls ih =>
    have hissued : issuedTokens (call :: calls) = issuedTokens [call] ++ issuedTokens calls := by
      rw [issuedTokens, ← List.singleton_append, List.filterMap_append]
      rfl
    have hsubmitted : submittedTokens (call :: calls)
        = submittedTokens [call] ++ submittedTokens calls := by
      rw [submittedTokens, ← List.singleton_append, List.filterMap_append]
      rfl
    simp only [hissued, hsubmitted, List.mem_append] at hsecrets htokens
    obtain ⟨hanswer, hrelated⟩ := alike_of_related haccepted hlimits hhasher
      (hquiet call List.mem_cons_self) (fun secret hs => hsecrets secret (.inl hs))
      (fun token ht => htokens token (.inl ht)) h
    have hrest := ih (fun call' hcall => hquiet call' (List.mem_cons_of_mem _ hcall))
      (fun secret hs => hsecrets secret (.inr hs)) (fun token ht => htokens token (.inr ht))
      hrelated
    simp only [resetAnswers, neverReveals, List.cons.injEq, hanswer, hrest, Bool.and_eq_true,
      Bool.not_eq_true']

end

/-! ### The main result -/

/-- With limits that a policy accepted by the parser may have, `0 < perEmail ≤ perUser`, and
with tokens that no reset has: a sequence of calls gets the same statuses and error codes with
and without the account exactly when no confirmation that the limits admit finds the account
without an active reset. -/
theorem resetAnswers_eq_iff {app : App} {json : AuthRuntimeJson} {runtime : AuthRuntimePolicies}
    (hparse : parseAuthRuntimePolicies json = .ok runtime) (fallback : AuthRuntimePolicies)
    (hpositive : 0 < runtime.passwordReset.maxAttemptsPerEmail)
    (hle : runtime.passwordReset.maxAttemptsPerEmail ≤ runtime.passwordReset.maxAttemptsPerUser)
    (hhasher : ∀ token secret,
      app.ports.resetTokenHasher.verify token (app.ports.resetTokenHasher.hash secret) = true →
        token = secret)
    {e : Str} {account : User} {db₁ db₂ : Db} (htwins : TwinDbs app.ports.pg e account db₁ db₂)
    (calls : List ResetCall) (hquiet : ∀ call ∈ calls, Quiet call.inputs)
    (hfresh₁ : FreshIds (drawnIds (·.newCodeId) calls) (drawnIds (·.newJobId) calls) db₁)
    (hfresh₂ : FreshIds (drawnIds (·.newCodeId) calls) (drawnIds (·.newJobId) calls) db₂)
    (htokens : ∀ token ∈ submittedTokens calls, token ∉ issuedTokens calls ∧
      ∀ r ∈ db₁.passwordResets,
        app.ports.resetTokenHasher.verify token r.secretHash = false) :
    let policies := runtimePolicies fallback runtime
    resetAnswers app policies calls db₁ = resetAnswers app policies calls db₂ ↔
      neverReveals app policies e account calls db₁ = true := by
  intro policies
  have haccepted : policies.passwordReset.Accepted := by
    show runtime.passwordReset.Accepted
    exact parseAuthRuntimePolicies_accepted hparse
  exact resetAnswers_of_related haccepted (.inr ⟨hpositive, hle⟩) hhasher hquiet
    (fun secret hissued hsubmitted => (htokens secret hsubmitted).1 hissued) (fun _ => id)
    ⟨htwins, fun token htoken => (htokens token htoken).2, hfresh₁, hfresh₂⟩

/-- A confirmation with a guessed token. -/
def guessedConfirmation : ResetCall :=
  { body := .confirm (some "unit@example.com") (some "guess") (some "New_password1")
    inputs := fun _ => {} }

/-- Without a request before it, a confirmation is answered with status 410 for a registered
address and with status 400 for an unknown one. -/
theorem confirmation_reveals_account :
    resetAnswers plainApp {} [guessedConfirmation] unitDb
        = [(.gone, some (lit "auth.password_reset.expired"))] ∧
      resetAnswers plainApp {} [guessedConfirmation] {}
        = [(.badRequest, some (lit "auth.password_reset.invalid_token"))] := by
  decide +kernel

/-- After a request the two are answered alike. -/
theorem resetAnswers_eq_iff_requested :
    resetAnswers plainApp {}
        [⟨.request (some "unit@example.com"), {}, fun _ => { secret := "secret" }⟩,
          guessedConfirmation] unitDb
      = resetAnswers plainApp {}
        [⟨.request (some "unit@example.com"), {}, fun _ => { secret := "secret" }⟩,
          guessedConfirmation] {} := by
  have hparse : parseAuthRuntimePolicies {} = .ok {} := rfl
  have hhasher : ∀ token secret, plainApp.ports.resetTokenHasher.verify token
      (plainApp.ports.resetTokenHasher.hash secret) = true → token = secret := by
    intro token secret h
    exact beq_iff_eq.mp h
  have htwins : TwinDbs plainApp.ports.pg (lit "unit@example.com") unitUser unitDb {} :=
    ⟨⟨⟨[], [], rfl, rfl⟩, by decide, rfl, by simp, by simp⟩, .nil, rfl⟩
  refine (resetAnswers_eq_iff hparse {} (by decide) (by decide) hhasher htwins _ ?_
    ⟨by decide, by decide⟩ ⟨by decide, by decide⟩ ?_).mpr (by decide +kernel)
  · intro call hcall n
    simp only [List.mem_cons, List.not_mem_nil, or_false] at hcall
    rcases hcall with rfl | rfl <;> rfl
  · decide +kernel

end SmirklyAuth
