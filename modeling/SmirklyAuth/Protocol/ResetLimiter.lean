import SmirklyAuth.Config.AuthDynamicConfig
import SmirklyAuth.Protocol.AttemptTables
import SmirklyAuth.Protocol.SoloRules
import SmirklyAuth.Protocol.Transactions

/-!
# `SmirklyAuth.Protocol.ResetLimiter`: password reset requests as a limiter

Whether `RequestReset` accepts a call depends on the table of attempts, on the account that
the email address belongs to, and on nothing else in the database. `recordReset` is the
attempt as a function of the table, and `requestReset_solo` says what a call that runs alone
returns and writes.

The second part compares two databases. `Registration` says that one of them has an account
for an email address and the other has not. `TwinAttempts` relates their tables of attempts:
the same rows, except that the rows of the address carry the id of the account in the first
database and no id in the second. `recordReset_twin` is the one place where the limits
matter: with them the two databases record the same attempts.
-/

set_option autoImplicit false

namespace SmirklyAuth

open Interleaving Service Sql

/-! ### One attempt -/

/-- The exception of a call that a limit of the policy stops. -/
def tooManyResets : Error := .tooManyPasswordResetAttempts "too many password reset attempts"

/-- The table after a recorded attempt, or the exception of `recordAttemptTx`. -/
def recordReset (pg : Postgres) (policy : PasswordResetPolicy) (email : Str)
    (userId : Option Uuid) (reqMeta : RequestMeta) (now : Time) (rows : List Attempt) :
    Except Error (List Attempt) :=
  match attemptArgs pg email userId reqMeta now (now.minus policy.rateLimitWindow)
      policy.maxAttemptsPerEmail policy.maxAttemptsPerUser policy.maxAttemptsPerIp with
  | none => .error invalidInet
  | some args => match passwordResetAttemptsTryRecord pg args rows with
    | none => .error tooManyResets
    | some row => .ok (rows ++ [row])

/-- The transaction of the attempt only touches its table. -/
theorem recordAttemptTx_eq (pg : Postgres) (policy : PasswordResetPolicy) (email : Str)
    (userId : Option Uuid) (reqMeta : RequestMeta) (now : Time) (db : Db) :
    PasswordService.recordAttemptTx pg policy email userId reqMeta now db
      = (recordReset pg policy email userId reqMeta now db.passwordResetAttempts).map
          fun rows => ((), { db with passwordResetAttempts := rows }) := by
  unfold recordReset PasswordService.recordAttemptTx
  cases hargs : attemptArgs pg email userId reqMeta now (now.minus policy.rateLimitWindow)
    policy.maxAttemptsPerEmail policy.maxAttemptsPerUser policy.maxAttemptsPerIp with
  | none => rfl
  | some args =>
    simp only [bind, StateT.bind, PasswordResetRepository.tryRecordAttempt, Tx.tryRecordAttempt]
    cases passwordResetAttemptsTryRecord pg args db.passwordResetAttempts <;> rfl

variable {pg : Postgres} {policy : PasswordResetPolicy} {email : Str} {reqMeta : RequestMeta}
    {now : Time} {codeIds jobIds : List Uuid} {db : Db} {ports : Ports}

/-- A recorded attempt has an address that PostgreSQL accepts. -/
theorem inetArg_of_recordReset
    {userId : Option Uuid} {rows rows' : List Attempt}
    (h : recordReset pg policy email userId reqMeta now rows = .ok rows') :
    ∃ ip, pg.inetArg reqMeta.ip = some ip := by
  cases hip : pg.inetArg reqMeta.ip with
  | some ip => exact ⟨ip, rfl⟩
  | none =>
    simp only [recordReset, attemptArgs, hip, Option.map_none] at h
    cases h

/-- The arguments of an attempt, once the address is cast. -/
def resetArgs (policy : PasswordResetPolicy) (email : Str) (userId : Option Uuid)
    (reqMeta : RequestMeta) (now : Time) (ip : Option Inet) : AttemptArgs where
  identifier := email
  userId := userId
  ip := ip
  userAgent := reqMeta.userAgent
  now := now.timePointTz
  since := (now.minus policy.rateLimitWindow).timePointTz
  maxPerIdentifier := policy.maxAttemptsPerEmail
  maxPerUser := policy.maxAttemptsPerUser
  maxPerIp := policy.maxAttemptsPerIp

/-- The limits admit the attempt. -/
def admitsReset (pg : Postgres) (args : AttemptArgs) (rows : List Attempt) : Bool :=
  Attempt.allows args
    (Attempt.countRecent pg args.identifier args.userId args.ip args.since rows)

/-- The row of a request that the limits admit, and none otherwise. -/
theorem recordReset_eq
    {userId : Option Uuid} {ip : Option Inet}
    (hip : pg.inetArg reqMeta.ip = some ip) (rows : List Attempt) :
    recordReset pg policy email userId reqMeta now rows =
      if admitsReset pg (resetArgs policy email userId reqMeta now ip) rows then
        .ok (rows ++ [.ofArgs (resetArgs policy email userId reqMeta now ip)])
      else .error tooManyResets := by
  simp only [recordReset, attemptArgs, hip, Option.map_some, passwordResetAttemptsTryRecord,
    Attempt.tryRecord]
  by_cases h : admitsReset pg (resetArgs policy email userId reqMeta now ip) rows = true
  · rw [if_pos h]
    simp only [admitsReset, resetArgs] at h
    simp only [h, if_true]
    rfl
  · rw [if_neg h]
    simp only [admitsReset, resetArgs] at h
    simp only [h, if_false, Bool.false_eq_true]

/-! ### Issuing a reset -/

/-- The identifiers that the database generates next are new: the ids of the resets and of
the mail jobs that it holds, and those to come, are all different. -/
structure FreshIds (codeIds jobIds : List Uuid) (db : Db) : Prop where
  codes : (db.passwordResets.map (·.id) ++ codeIds).Nodup
  jobs : (db.emailOutbox.map (·.id) ++ jobIds).Nodup

/-- An identifier that was drawn and not used, or was used for a new row. -/
private theorem nodup_of_used {α : Type} {xs xs' ids : List α} {id : α}
    (h : (xs ++ id :: ids).Nodup) (hxs : xs' = xs ∨ xs' = xs ++ [id]) : (xs' ++ ids).Nodup := by
  rcases hxs with rfl | rfl
  · exact h.sublist (List.Sublist.append_left (List.sublist_cons_self id ids) xs')
  · rwa [List.append_assoc, List.singleton_append]

/-- One request takes at most the first of the new ids. -/
theorem FreshIds.step {codeId jobId : Uuid} {db' : Db}
    (h : FreshIds (codeId :: codeIds) (jobId :: jobIds) db)
    (hcodes : db'.passwordResets.map (·.id) = db.passwordResets.map (·.id) ∨
      db'.passwordResets.map (·.id) = db.passwordResets.map (·.id) ++ [codeId])
    (hjobs : db'.emailOutbox.map (·.id) = db.emailOutbox.map (·.id) ∨
      db'.emailOutbox.map (·.id) = db.emailOutbox.map (·.id) ++ [jobId]) :
    FreshIds codeIds jobIds db' :=
  ⟨nodup_of_used h.codes hcodes, nodup_of_used h.jobs hjobs⟩

/-- The next id of a code is not in the table. -/
theorem FreshIds.code_notMem {codeId : Uuid}
    (h : FreshIds (codeId :: codeIds) jobIds db) : codeId ∉ db.passwordResets.map (·.id) :=
  fun hmem => (List.nodup_append.mp h.codes).2.2 _ hmem _ List.mem_cons_self rfl

/-- The next id of a job is not in the table. -/
theorem FreshIds.job_notMem {jobId : Uuid}
    (h : FreshIds codeIds (jobId :: jobIds) db) : jobId ∉ db.emailOutbox.map (·.id) :=
  fun hmem => (List.nodup_append.mp h.jobs).2.2 _ hmem _ List.mem_cons_self rfl

/-- The row of a new reset. -/
def newReset (ports : Ports) (policy : PasswordResetPolicy) (userId : Uuid)
    (reqMeta : RequestMeta) (now : Time) (i : Input) (ip : Option Inet) : OneTimeCode :=
  .ofData i
    { userId, secretHash := ports.resetTokenHasher.hash i.secret
      expiresAt := now.plus policy.tokenTtl, ip := reqMeta.ip, userAgent := reqMeta.userAgent }
    ip

/-- The job that mails the token of a new reset. -/
def newResetJob (i : Input) (email : Str) : OutboxJob :=
  emailOutboxInsert i.newJobId i.dbNow email "password_reset"
    [("token", i.secret), ("locale", "ru")] i.newCodeId.text

/-- The database after a new reset. -/
def issuedReset (ports : Ports) (policy : PasswordResetPolicy) (userId : Uuid) (email : Str)
    (reqMeta : RequestMeta) (now : Time) (i : Input) (ip : Option Inet) (db : Db) : Db :=
  { db with
    passwordResets :=
      (passwordResetsMarkActiveUsedByUserId userId now.timePointTz).run db.passwordResets
        ++ [newReset ports policy userId reqMeta now i ip]
    emailOutbox := db.emailOutbox ++ [newResetJob i email] }

/-- Superseding the codes of a user keeps their ids. -/
theorem markActiveUsed_keeps_id (userId : Uuid) (now : Time) :
    (OneTimeCode.markActiveUsedByUserId userId now).Keeps (·.id) := fun _ => rfl

/-- The update leaves no unused row of the user. -/
theorem not_unused_of_mem_markActiveUsed {userId : Uuid}
    {rows : List OneTimeCode} {r : OneTimeCode}
    (hr : r ∈ (OneTimeCode.markActiveUsedByUserId userId now).run rows) :
    ¬(r.userId = userId ∧ r.usedAt = none) := by
  obtain ⟨r₀, -, rfl⟩ := Update.mem_run.mp hr
  by_cases hcond : (OneTimeCode.markActiveUsedByUserId userId now).cond r₀ = true
  · rw [Update.apply_pos hcond]
    rintro ⟨-, husedAt⟩
    cases husedAt
  · rw [Update.apply_neg (by simpa using hcond)]
    simpa [OneTimeCode.markActiveUsedByUserId] using hcond

/-- A row with a new key can be inserted after that update. -/
theorem insert_markActiveUsed (row : OneTimeCode) {rows : List OneTimeCode}
    (hkey : row.id ∉ rows.map (·.id)) :
    OneTimeCode.insert row ((OneTimeCode.markActiveUsedByUserId row.userId now).run rows)
      = some ((OneTimeCode.markActiveUsedByUserId row.userId now).run rows ++ [row]) := by
  rw [← (markActiveUsed_keeps_id row.userId now).map_run rows] at hkey
  have hprimary : ¬((OneTimeCode.markActiveUsedByUserId row.userId now).run rows).any
      (fun r => r.id == row.id) = true := by
    intro h
    obtain ⟨r, hr, hid⟩ := List.any_eq_true.mp h
    exact hkey (List.mem_map.mpr ⟨r, hr, beq_iff_eq.mp hid⟩)
  have hactive : ¬((OneTimeCode.markActiveUsedByUserId row.userId now).run rows).any
      (fun r => r.userId == row.userId && r.usedAt.isNone) = true := by
    intro h
    obtain ⟨r, hr, hunused⟩ := List.any_eq_true.mp h
    simp only [Bool.and_eq_true, beq_iff_eq, Option.isNone_iff_eq_none] at hunused
    exact not_unused_of_mem_markActiveUsed hr hunused
  rw [OneTimeCode.insert, if_neg hprimary, if_neg (by simp [hactive])]

/-- With new identifiers and an address that PostgreSQL accepts, nothing stops a reset. -/
theorem issueResetTx_eq {userId : Uuid} {i : Input} {ip : Option Inet}
    (hip : ports.pg.inetArg reqMeta.ip = some ip)
    (hcode : i.newCodeId ∉ db.passwordResets.map (·.id))
    (hjob : i.newJobId ∉ db.emailOutbox.map (·.id)) :
    PasswordService.issueResetTx ports policy userId email reqMeta now i db
      = .ok ((), issuedReset ports policy userId email reqMeta now i ip db) := by
  have hinsert : passwordResetsInsert (newReset ports policy userId reqMeta now i ip)
      ((passwordResetsMarkActiveUsedByUserId userId now.timePointTz).run db.passwordResets)
      = some ((passwordResetsMarkActiveUsedByUserId userId now.timePointTz).run db.passwordResets
        ++ [newReset ports policy userId reqMeta now i ip]) :=
    insert_markActiveUsed (newReset ports policy userId reqMeta now i ip) hcode
  have henqueue : ¬(db.emailOutbox.any fun j => j.id == i.newJobId) = true := by
    intro h
    obtain ⟨j, hj, hid⟩ := List.any_eq_true.mp h
    exact hjob (List.mem_map.mpr ⟨j, hj, beq_iff_eq.mp hid⟩)
  simp only [newReset] at hinsert
  simp only [PasswordService.issueResetTx, bind, StateT.bind,
    PasswordResetRepository.markActiveUsedByUserId, PasswordResetRepository.update,
    PasswordResetRepository.insert, hip, hinsert, Except.bind, EmailOutboxRepository.insert]
  exact if_neg henqueue

/-! ### A request that runs alone -/

/-- The database after an accepted request, once the attempt is recorded. -/
def requestedReset (ports : Ports) (policy : PasswordResetPolicy) (user? : Option User)
    (reqMeta : RequestMeta) (now : Time) (i : Input) (db : Db) : Db :=
  match user?.bind fun user => user.email.map (user.id, ·) with
  | some (userId, email) =>
    issuedReset ports policy userId email reqMeta now i (ports.pg.inetArg reqMeta.ip).join db
  | none => db

/-- The second transaction, when the new ids are not in use. -/
theorem requestResetTx_eq
    {user? : Option User} {i : Input}
    (hcode : i.newCodeId ∉ db.passwordResets.map (·.id))
    (hjob : i.newJobId ∉ db.emailOutbox.map (·.id)) :
    PasswordService.requestResetTx ports policy email user? reqMeta now i db
      = (recordReset ports.pg policy email (user?.map (·.id)) reqMeta now
          db.passwordResetAttempts).map fun rows =>
            ((), requestedReset ports policy user? reqMeta now i
              { db with passwordResetAttempts := rows }) := by
  simp only [PasswordService.requestResetTx, bind, StateT.bind, recordAttemptTx_eq]
  cases hrecord : recordReset ports.pg policy email (user?.map (·.id)) reqMeta now
    db.passwordResetAttempts with
  | error x => rfl
  | ok rows =>
    obtain ⟨ip, hip⟩ := inetArg_of_recordReset hrecord
    cases user? with
    | none => rfl
    | some user =>
      cases hemail : user.email with
      | none =>
        simp only [Except.map, Except.bind, hemail, requestedReset, Option.bind_some,
          Option.map_none]
        rfl
      | some userEmail =>
        simp only [Except.map, Except.bind, hemail, requestedReset, Option.bind_some,
          Option.map_some, hip]
        exact issueResetTx_eq hip hcode hjob

/-- What `RequestReset` returns and leaves behind. -/
def requestOutcome (ports : Ports) (policy : PasswordResetPolicy) (email : Str)
    (reqMeta : RequestMeta) (inputs : Nat → Input) (db : Db) : Except Error Unit × Db :=
  match (inputs 0).fault <|> (inputs 1).fault <|> (inputs 2).fault with
  | some what => (.error (.runtimeError what), db)
  | none =>
    let user? := usersSelectByEmail ports.pg email db.users
    let now := (inputs 0).now
    match recordReset ports.pg policy email (user?.map (·.id)) reqMeta now
        db.passwordResetAttempts with
    | .error x => (.error x, db)
    | .ok rows => (.ok (), requestedReset ports policy user? reqMeta now (inputs 2)
        { db with passwordResetAttempts := rows })

/-- A request that runs alone, from its lookup to its reply. -/
theorem requestReset_solo {policies : AuthRuntimePolicies} {inputs : Nat → Input}
    (hfresh : FreshIds ((inputs 2).newCodeId :: codeIds) ((inputs 2).newJobId :: jobIds) db) :
    let r := (PasswordService.requestReset ports policies ⟨email⟩ reqMeta).solo inputs db
    (r.result, r.store)
      = requestOutcome ports policies.passwordReset email reqMeta inputs db := by
  unfold PasswordService.requestReset clock requestOutcome
  cases h₀ : (inputs 0).fault with
  | some what =>
    rw [solo_port_bind_fault h₀]
    rfl
  | none =>
    rw [solo_port_bind h₀]
    cases h₁ : (Solo.rest inputs 0).fault with
    | some what =>
      rw [solo_port_bind_fault h₁]
      simp only [Solo.rest_apply] at h₁
      simp [h₁]
    | none =>
      rw [solo_port_bind h₁]
      simp only [Solo.rest_apply] at h₁
      cases h₂ : (Solo.rest (Solo.rest inputs) 0).fault with
      | some what =>
        rw [solo_transaction_fault h₂]
        simp only [Solo.rest_apply] at h₂
        simp [h₁, h₂]
      | none =>
        rw [solo_transaction h₂]
        simp only [Solo.rest_apply] at h₂
        simp only [h₁, h₂, Solo.rest_apply,
          requestResetTx_eq hfresh.code_notMem hfresh.job_notMem, Option.orElse_eq_orElse,
          Option.orElse_none]
        cases recordReset ports.pg policies.passwordReset email
          ((usersSelectByEmail ports.pg email db.users).map (·.id)) reqMeta (inputs 0).now
          db.passwordResetAttempts <;> rfl

/-! ### What a request does not touch -/

/-- Issuing a token writes no attempt. -/
theorem requestedReset_attempts (ports : Ports) (policy : PasswordResetPolicy)
    (user? : Option User) (reqMeta : RequestMeta) (now : Time) (i : Input) (db : Db) :
    (requestedReset ports policy user? reqMeta now i db).passwordResetAttempts
      = db.passwordResetAttempts := by
  unfold requestedReset
  split <;> rfl

/-- Issuing a token writes no account. -/
theorem requestedReset_users (ports : Ports) (policy : PasswordResetPolicy)
    (user? : Option User) (reqMeta : RequestMeta) (now : Time) (i : Input) (db : Db) :
    (requestedReset ports policy user? reqMeta now i db).users = db.users := by
  unfold requestedReset
  split <;> rfl

/-- Issuing a token uses up one id of either kind. -/
theorem requestedReset_fresh (ports : Ports) (policy : PasswordResetPolicy)
    (user? : Option User) (reqMeta : RequestMeta) (now : Time) (i : Input)
    (h : FreshIds (i.newCodeId :: codeIds) (i.newJobId :: jobIds) db) :
    FreshIds codeIds jobIds (requestedReset ports policy user? reqMeta now i db) := by
  unfold requestedReset
  split
  · refine h.step (.inr ?_) (.inr ?_)
    · rw [issuedReset, List.map_append]
      exact congrArg (· ++ [i.newCodeId])
        ((markActiveUsed_keeps_id _ now.timePointTz).map_run db.passwordResets)
    · rw [issuedReset, List.map_append]
      rfl
  · exact h.step (.inl rfl) (.inl rfl)

/-- A request leaves the accounts alone and uses at most the identifiers drawn for it. -/
theorem requestOutcome_frame (ports : Ports) (policy : PasswordResetPolicy) (email : Str)
    (reqMeta : RequestMeta) (inputs : Nat → Input)
    (h : FreshIds ((inputs 2).newCodeId :: codeIds) ((inputs 2).newJobId :: jobIds) db) :
    let db' := (requestOutcome ports policy email reqMeta inputs db).2
    db'.users = db.users ∧ FreshIds codeIds jobIds db' := by
  have hstays := h.step (.inl rfl) (.inl rfl)
  simp only [requestOutcome]
  split
  · exact ⟨rfl, hstays⟩
  · split
    · exact ⟨rfl, hstays⟩
    · exact ⟨requestedReset_users .., requestedReset_fresh _ _ _ _ _ _ ⟨h.codes, h.jobs⟩⟩

/-! ### An account more -/

/-- `account` is registered with the address `e`, and is the only difference between the two
tables. The unique indexes of `users` leave no other account with the address or the id. -/
structure Registration (pg : Postgres) (e : Str) (account : User)
    (registered unknown : List User) : Prop where
  tables : ∃ front back, registered = front ++ account :: back ∧ unknown = front ++ back
  email : account.email.map pg.lower = some (pg.lower e)
  notDeleted : account.deletedAt = none
  emailUniq : ∀ u ∈ unknown, u.deletedAt = none → u.email.map pg.lower ≠ some (pg.lower e)
  idUniq : ∀ u ∈ unknown, u.id ≠ account.id

namespace Registration

variable {pg : Postgres} {e m : Str} {account : User} {registered unknown : List User}

/-- Without the account nobody is found under its email. -/
theorem select_unknown (h : Registration pg e account registered unknown)
    (hm : pg.lower m = pg.lower e) : usersSelectByEmail pg m unknown = none := by
  simp only [usersSelectByEmail, List.find?_eq_none, hm, Bool.and_eq_true, beq_iff_eq,
    Option.isNone_iff_eq_none]
  exact fun u hu hmatch => h.emailUniq u hu hmatch.2 hmatch.1

/-- With the account it is found under its email. -/
theorem select_registered (h : Registration pg e account registered unknown)
    (hm : pg.lower m = pg.lower e) : usersSelectByEmail pg m registered = some account := by
  have hnone := h.select_unknown hm
  obtain ⟨front, back, rfl, rfl⟩ := h.tables
  simp only [usersSelectByEmail, List.find?_append, Option.or_eq_none_iff] at hnone ⊢
  rw [hnone.1, Option.none_or, List.find?_cons_of_pos]
  simp [hm, h.email, h.notDeleted]

/-- Another email finds the same in both databases. -/
theorem select_other (h : Registration pg e account registered unknown)
    (hm : pg.lower m ≠ pg.lower e) :
    usersSelectByEmail pg m registered = usersSelectByEmail pg m unknown := by
  obtain ⟨front, back, rfl, rfl⟩ := h.tables
  simp only [usersSelectByEmail, List.find?_append]
  rw [List.find?_cons_of_neg]
  simp only [h.email, Bool.and_eq_true, beq_iff_eq, Option.some.injEq]
  exact fun hmatch => hm hmatch.1.symm

/-- Whoever is found without the account is somebody else. -/
theorem id_ne_of_select (h : Registration pg e account registered unknown) {user : User}
    (hselect : usersSelectByEmail pg m unknown = some user) : user.id ≠ account.id :=
  h.idUniq user (List.mem_of_find?_eq_some hselect)

end Registration

/-! ### The tables of attempts of the two databases -/

/-- The row without the account of the address. -/
def anonymise (pg : Postgres) (e : Str) (r : Attempt) : Attempt :=
  if pg.lower r.identifier = pg.lower e then { r with userId := none } else r

/-- The attempts where the address belongs to the account, and those of the same calls where
it belongs to nobody. -/
structure TwinAttempts (pg : Postgres) (e : Str) (accountId : Uuid)
    (registered unknown : List Attempt) : Prop where
  rows : unknown = registered.map (anonymise pg e)
  owner : ∀ r ∈ registered, r.userId = some accountId ↔ pg.lower r.identifier = pg.lower e

namespace TwinAttempts

variable {pg : Postgres} {e : Str} {accountId : Uuid} {registered unknown : List Attempt}

/-- Two empty tables. -/
theorem nil : TwinAttempts pg e accountId [] [] := ⟨rfl, by simp⟩

/-- A row on one side, and what is left of it without the account on the other. -/
private theorem append (h : TwinAttempts pg e accountId registered unknown) {r : Attempt}
    (howner : r.userId = some accountId ↔ pg.lower r.identifier = pg.lower e) :
    TwinAttempts pg e accountId (registered ++ [r]) (unknown ++ [anonymise pg e r]) := by
  refine ⟨by rw [h.rows, List.map_append, List.map_singleton], ?_⟩
  intro r' hr'
  rcases List.mem_append.mp hr' with hr' | hr'
  · exact h.owner r' hr'
  · rw [List.mem_singleton.mp hr']
    exact howner

/-- The attempt on the account, which the other side has counted for nobody. -/
theorem append_account (h : TwinAttempts pg e accountId registered unknown) (r : Attempt)
    (hidentifier : pg.lower r.identifier = pg.lower e) (huser : r.userId = some accountId) :
    TwinAttempts pg e accountId (registered ++ [r]) (unknown ++ [{ r with userId := none }]) := by
  have happend := h.append (iff_of_true huser hidentifier)
  rwa [anonymise, if_pos hidentifier] at happend

/-- An attempt on another email is the same on both sides. -/
theorem append_other (h : TwinAttempts pg e accountId registered unknown) (r : Attempt)
    (hidentifier : pg.lower r.identifier ≠ pg.lower e) (huser : r.userId ≠ some accountId) :
    TwinAttempts pg e accountId (registered ++ [r]) (unknown ++ [r]) := by
  have happend := h.append (iff_of_false huser hidentifier)
  rwa [anonymise, if_neg hidentifier] at happend

/-- Every scope but the account itself has as many rows in one table as in the other. -/
theorem count_eq (h : TwinAttempts pg e accountId registered unknown) (since : Time)
    {scope : AttemptScope} (hscope : scope ≠ .user accountId) :
    scope.count pg since registered = scope.count pg since unknown := by
  rw [h.rows, AttemptScope.count, AttemptScope.count, List.countP_map]
  refine List.countP_congr fun r hr => ?_
  by_cases hr' : pg.lower r.identifier = pg.lower e
  · have huser := (h.owner r hr).mpr hr'
    cases scope with
    | identifier lowered => simp [anonymise, hr', AttemptScope.contains]
    | ip address => simp [anonymise, hr', AttemptScope.contains]
    | user id =>
      have hne : accountId ≠ id := fun hid => hscope (by rw [hid])
      simp [anonymise, hr', AttemptScope.contains, huser, hne]
  · simp [anonymise, hr']

/-- The rows of the account are the rows of the address. -/
theorem count_user (h : TwinAttempts pg e accountId registered unknown) (since : Time) :
    (AttemptScope.user accountId).count pg since registered
      = (AttemptScope.identifier (pg.lower e)).count pg since registered := by
  refine List.countP_congr fun r hr => ?_
  simp only [AttemptScope.contains, Bool.and_eq_true, beq_iff_eq, h.owner r hr]

/-- A call for the address: the limit of the account asks for no more than the limit of the
address, so the two databases decide alike. -/
theorem admits_account (h : TwinAttempts pg e accountId registered unknown) {args : AttemptArgs}
    (hidentifier : pg.lower args.identifier = pg.lower e) (huser : args.userId = some accountId)
    (hlimits : ∀ n, belowLimit args.maxPerIdentifier n = true →
      belowLimit args.maxPerUser n = true) :
    admitsReset pg args registered = admitsReset pg { args with userId := none } unknown := by
  rw [Bool.eq_iff_iff, admitsReset, admitsReset, Attempt.allows_iff, Attempt.allows_iff]
  constructor
  · intro hall scope hscope
    have hne : scope ≠ .user accountId := by
      rintro rfl
      simp [AttemptScope.ofArgs] at hscope
    have hmem : scope ∈ AttemptScope.ofArgs pg args := by
      simp only [AttemptScope.ofArgs, huser, Option.map_none, Option.toList_none,
        List.append_nil, List.mem_append] at hscope ⊢
      exact hscope.imp .inl id
    have hbelow := hall scope hmem
    rw [h.count_eq args.since hne] at hbelow
    cases scope <;> exact hbelow
  · intro hall scope hscope
    have hidentifier' := hall (.identifier (pg.lower args.identifier))
      (by simp [AttemptScope.ofArgs])
    rw [← h.count_eq args.since (by simp)] at hidentifier'
    by_cases hne : scope = .user accountId
    · rw [hne, h.count_user, ← hidentifier]
      exact hlimits _ hidentifier'
    · have hmem : scope ∈ AttemptScope.ofArgs pg { args with userId := none } := by
        simp only [AttemptScope.ofArgs, huser, Option.map_some, Option.toList_some,
          List.mem_append, List.mem_singleton, Option.map_none, Option.toList_none,
          List.append_nil] at hscope ⊢
        rcases hscope with (hscope | hscope) | hscope
        · exact .inl hscope
        · exact absurd hscope hne
        · exact .inr hscope
      have hbelow := hall scope hmem
      rw [← h.count_eq args.since hne] at hbelow
      cases scope <;> exact hbelow

/-- A call for another address. -/
theorem admits_other (h : TwinAttempts pg e accountId registered unknown) {args : AttemptArgs}
    (huser : args.userId ≠ some accountId) :
    admitsReset pg args registered = admitsReset pg args unknown := by
  rw [Bool.eq_iff_iff, admitsReset, admitsReset, Attempt.allows_iff, Attempt.allows_iff]
  refine forall₂_congr fun scope hscope => ?_
  have hne : scope ≠ .user accountId := by
    rintro rfl
    rw [AttemptScope.mem_ofArgs] at hscope
    exact huser (beq_iff_eq.mp hscope)
  rw [h.count_eq args.since hne]

end TwinAttempts

/-- The condition on the limits: no limit per account, or one that the limit per address
reaches first. -/
def PasswordResetPolicy.HidesAccounts (policy : PasswordResetPolicy) : Prop :=
  policy.maxAttemptsPerUser = 0 ∨
    0 < policy.maxAttemptsPerEmail ∧ policy.maxAttemptsPerEmail ≤ policy.maxAttemptsPerUser

/-- The limit of the user rejects nothing that the limit of the email admits. -/
theorem PasswordResetPolicy.HidesAccounts.belowLimit
    (h : policy.HidesAccounts) (haccepted : policy.Accepted) (n : Nat)
    (hbelow : belowLimit policy.maxAttemptsPerEmail n = true) :
    SmirklyAuth.belowLimit policy.maxAttemptsPerUser n = true := by
  rw [belowLimit_iff_of_lt haccepted.perEmail] at hbelow
  rw [belowLimit_iff_of_lt haccepted.perUser]
  unfold PasswordResetPolicy.HidesAccounts at h
  omega

/-- One attempt for any address, in both databases: the same exception, or a row in each. -/
theorem recordReset_twin {e : Str} (m : Str)
    {account : User} {users₁ users₂ : List User} {rows₁ rows₂ : List Attempt}
    (haccepted : policy.Accepted) (hlimits : policy.HidesAccounts)
    (hreg : Registration pg e account users₁ users₂)
    (htwin : TwinAttempts pg e account.id rows₁ rows₂) (reqMeta : RequestMeta) (now : Time) :
    let record users rows := recordReset pg policy m
      ((usersSelectByEmail pg m users).map (·.id)) reqMeta now rows
    (∃ x, record users₁ rows₁ = .error x ∧ record users₂ rows₂ = .error x) ∨
      ∃ rows₁' rows₂', record users₁ rows₁ = .ok rows₁' ∧ record users₂ rows₂ = .ok rows₂' ∧
        TwinAttempts pg e account.id rows₁' rows₂' := by
  intro record
  simp only [record]
  cases hip : pg.inetArg reqMeta.ip with
  | none => exact .inl ⟨invalidInet, by simp [recordReset, attemptArgs, hip]⟩
  | some ip =>
    simp only [recordReset_eq hip]
    by_cases hm : pg.lower m = pg.lower e
    · -- the call is for the address of the account
      rw [hreg.select_registered hm, hreg.select_unknown hm, Option.map_some, Option.map_none]
      have hadmits : admitsReset pg (resetArgs policy m (some account.id) reqMeta now ip) rows₁
          = admitsReset pg (resetArgs policy m none reqMeta now ip) rows₂ :=
        htwin.admits_account hm rfl (hlimits.belowLimit haccepted)
      rw [hadmits]
      split
      · exact .inr ⟨_, _, rfl, rfl, htwin.append_account _ hm rfl⟩
      · exact .inl ⟨_, rfl, rfl⟩
    · -- it is not, and the id of whoever it is for is not the id of the account
      rw [hreg.select_other hm]
      have huser : (usersSelectByEmail pg m users₂).map (·.id) ≠ some account.id := by
        intro h
        obtain ⟨user, hselect, hid⟩ := Option.map_eq_some_iff.mp h
        exact hreg.id_ne_of_select hselect hid
      generalize (usersSelectByEmail pg m users₂).map (·.id) = userId at huser
      have hadmits : admitsReset pg (resetArgs policy m userId reqMeta now ip) rows₁
          = admitsReset pg (resetArgs policy m userId reqMeta now ip) rows₂ :=
        htwin.admits_other huser
      rw [hadmits]
      split
      · exact .inr ⟨_, _, rfl, rfl, htwin.append_other _ hm huser⟩
      · exact .inl ⟨_, rfl, rfl⟩

end SmirklyAuth
