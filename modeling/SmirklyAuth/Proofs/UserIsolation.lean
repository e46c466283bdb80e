import SmirklyAuth.Lib.Ownership
import SmirklyAuth.Protocol.CodeTables
import SmirklyAuth.Protocol.Refinement
import SmirklyAuth.Protocol.SessionTable

/-!
# `SmirklyAuth.Proofs.UserIsolation`: a call writes only the rows of its user

A call acts for one account: the one of its `AuthContext`, the one that its token names, or
the one that its identifier or email address resolves to (`actingUser`). Its statements name
rows by ids that come from elsewhere: a session id of the caller, the session id of a token,
the id of a code that the call read some steps before. Six of them carry no user id at all
(`sessions_revoke_and_replace`, `sessions_update_last_used`, `…_mark_used`,
`…_increment_attempts`).

`FoundRows` is the invariant: a row that a call has found still belongs to the user it had.
`serves_commit` says that every transaction then is a sequence of statements for the acting
user (`Sql.ActsFor`), in each of the five tables of an account. `call_isolated` is the result
for the steps of a call in any run.
-/

set_option autoImplicit false

namespace SmirklyAuth

open Interleaving
open Sql (ActsFor Owns Update)

/-! ### The acting user -/

/-- The `AuthContext` of a command. -/
def Command.context : Command → Option AuthContext
  | .getCurrentUser context => some context
  | .listSessions context => some context
  | .revokeSession context _ => some context
  | .revokeCurrentSession context => some context
  | .revokeAllSessions context => some context
  | .changePassword context _ => some context
  | _ => none

/-- The account that a call acts for: the one of its context, or else the first one that its
events name. -/
def actingUser (r : Request) (evs : List Event) : Option Uuid :=
  match r.command.context with
  | some context => some context.userId
  | none => evs.findSome? Event.namedUser

/-- A call acts for one account from its first step to its last. -/
theorem actingUser_append {r : Request} {evs evs' : List Event} {u : Uuid}
    (h : actingUser r evs = some u) : actingUser r (evs ++ evs') = some u := by
  unfold actingUser at h ⊢
  cases hcontext : r.command.context with
  | some context =>
    rw [hcontext] at h
    exact h
  | none =>
    simp only [hcontext] at h
    show (evs ++ evs').findSome? Event.namedUser = some u
    rw [List.findSome?_append, h]
    rfl

/-! ### The rows of an account -/

/-- The rows of one account. -/
structure AccountRows where
  users : List User
  devices : List Device
  sessions : List SessionRow
  emailVerifications : List OneTimeCode
  passwordResets : List OneTimeCode

/-- The rows of the account `userId`. -/
def Db.rowsOf (db : Db) (userId : Uuid) : AccountRows where
  users := db.users.filter fun u => u.id = userId
  devices := db.devices.filter fun d => d.userId = userId
  sessions := db.sessions.filter fun s => s.userId = userId
  emailVerifications := db.emailVerifications.filter fun v => v.userId = userId
  passwordResets := db.passwordResets.filter fun p => p.userId = userId

/-- The primary keys are unique. -/
structure Db.Keyed (db : Db) : Prop where
  users : (db.users.map (·.id)).Nodup
  devices : (db.devices.map (·.id)).Nodup
  sessions : (db.sessions.map (·.id)).Nodup
  emailVerifications : (db.emailVerifications.map (·.id)).Nodup
  passwordResets : (db.passwordResets.map (·.id)).Nodup

/-- What a step for `actor` may do: the rows of the other accounts are the same after it, and
a row that was not there before it belongs to `actor`. -/
structure Isolated (actor : Option Uuid) (db db' : Db) : Prop where
  others : ∀ userId, some userId ≠ actor → db'.rowsOf userId = db.rowsOf userId
  users : ∀ u ∈ db'.users, u ∉ db.users → some u.id = actor
  devices : ∀ d ∈ db'.devices, d ∉ db.devices → some d.userId = actor
  sessions : ∀ s ∈ db'.sessions, s ∉ db.sessions → some s.userId = actor
  emailVerifications : ∀ v ∈ db'.emailVerifications, v ∉ db.emailVerifications →
    some v.userId = actor
  passwordResets : ∀ p ∈ db'.passwordResets, p ∉ db.passwordResets → some p.userId = actor

/-- The five tables change by statements for `actor`. -/
structure Serves (actor : Option Uuid) (db db' : Db) : Prop where
  users : ActsFor (·.id) (·.id) actor db.users db'.users := by exact .refl
  devices : ActsFor (·.id) (·.userId) actor db.devices db'.devices := by exact .refl
  sessions : ActsFor (·.id) (·.userId) actor db.sessions db'.sessions := by exact .refl
  emailVerifications : ActsFor (·.id) (·.userId) actor db.emailVerifications
    db'.emailVerifications := by exact .refl
  passwordResets : ActsFor (·.id) (·.userId) actor db.passwordResets db'.passwordResets := by
    exact .refl

namespace Serves

variable {actor : Option Uuid} {db db' : Db}

/-- What a step for one user writes is isolated. -/
theorem isolated (h : Serves actor db db') : Isolated actor db db' where
  others userId hne := by
    unfold Db.rowsOf
    rw [h.users.others hne, h.devices.others hne, h.sessions.others hne,
      h.emailVerifications.others hne, h.passwordResets.others hne]
  users _ hu hnew := h.users.written hu hnew
  devices _ hd hnew := h.devices.written hd hnew
  sessions _ hs hnew := h.sessions.written hs hnew
  emailVerifications _ hv hnew := h.emailVerifications.written hv hnew
  passwordResets _ hp hnew := h.passwordResets.written hp hnew

/-- Ids stay unique. -/
theorem keyed (h : Serves actor db db') (hkeyed : db.Keyed) : db'.Keyed where
  users := h.users.nodup hkeyed.users
  devices := h.devices.nodup hkeyed.devices
  sessions := h.sessions.nodup hkeyed.sessions
  emailVerifications := h.emailVerifications.nodup hkeyed.emailVerifications
  passwordResets := h.passwordResets.nodup hkeyed.passwordResets

/-- The same for either table of codes. -/
theorem codes (h : Serves actor db db') (kind : CodeKind) :
    ActsFor (·.id) (·.userId) actor (kind.rows db) (kind.rows db') := by
  cases kind with
  | emailVerification => exact h.emailVerifications
  | passwordReset => exact h.passwordResets

end Serves

/-- The ids of the codes. -/
theorem Db.Keyed.codes {db : Db} (h : db.Keyed) (kind : CodeKind) :
    ((kind.rows db).map (·.id)).Nodup := by
  cases kind with
  | emailVerification => exact h.emailVerifications
  | passwordReset => exact h.passwordResets

/-- The isolation of a step for an actor that is known only later. -/
theorem Isolated.of_later {actor later : Option Uuid} {db db' : Db} (h : Isolated actor db db')
    (hlater : ∀ u, actor = some u → later = some u) : Isolated later db db' := by
  have hsome : ∀ userId, some userId = actor → some userId = later :=
    fun userId heq => (hlater userId heq.symm).symm
  exact
    { others := fun userId hne => h.others userId fun heq => hne (hsome userId heq)
      users := fun u hu hnew => hsome _ (h.users u hu hnew)
      devices := fun d hd hnew => hsome _ (h.devices d hd hnew)
      sessions := fun s hs hnew => hsome _ (h.sessions s hs hnew)
      emailVerifications := fun v hv hnew => hsome _ (h.emailVerifications v hv hnew)
      passwordResets := fun p hp hnew => hsome _ (h.passwordResets p hp hnew) }

/-! ### The rows that a call has found -/

/-- A row that a call with the events `evs` has found belongs to the same user now. -/
structure FoundRows (db : Db) (evs : List Event) : Prop where
  session : ∀ s, Event.foundSession (some s) ∈ evs →
    Owns (·.id) (·.userId) db.sessions s.id s.userId
  code : ∀ (kind : CodeKind) row, kind.found row ∈ evs →
    Owns (·.id) (·.userId) (kind.rows db) row.id row.userId

namespace FoundRows

variable {app : App} {r : Request} {evs : List Event} {e : Event} {db db' : Db}
  {actor : Option Uuid}

/-- Before the first event nothing was found. -/
theorem nil (db : Db) : FoundRows db [] := ⟨fun _ h => (nomatch h), fun _ _ h => (nomatch h)⟩

/-- The statements of any call keep the owners. -/
theorem serves (h : FoundRows db evs) (hserves : Serves actor db db') : FoundRows db' evs where
  session s hs := hserves.sessions.owns (h.session s hs)
  code kind row hrow := (hserves.codes kind).owns (h.code kind row hrow)

/-- A row that the step finds is a row of the table. -/
theorem step (h : FoundRows db evs) (hstep : ProtocolStep app r evs e db db')
    (hserves : Serves actor db db') : FoundRows db' (evs ++ [e]) where
  session s hs := by
    rcases List.mem_append.mp hs with hs | hs
    · exact hserves.sessions.owns (h.session s hs)
    · cases List.mem_singleton.mp hs
      cases hstep with
      | aborted hab => cases hab
      | read hread =>
        obtain ⟨row, hrow, hnode⟩ := List.mem_map.mp (reads_foundSession hread)
        -- a session and its row have the same node, hence the same id and user
        exact ⟨row, hrow, congrArg (·.id) hnode, congrArg (·.owner) hnode⟩
  code kind row hrow := by
    rcases List.mem_append.mp hrow with hrow | hrow
    · exact (hserves.codes kind).owns (h.code kind row hrow)
    · rw [← List.mem_singleton.mp hrow] at hstep
      generalize he : kind.found row = e' at hstep
      cases hstep with
      | aborted hab => cases kind <;> subst he <;> cases hab
      | read hread => exact ⟨row, reads_foundCode (he ▸ hread), rfl, rfl⟩
      | committed _ => cases kind <;> cases he

end FoundRows

/-! ### The transactions -/

/-- The ids that the first part of a condition compares. -/
theorem eq_of_beq_and {a b : Uuid} {c : Bool} (h : (a == b && c) = true) : a = b :=
  beq_iff_eq.mp (Bool.and_eq_true_iff.mp h).1

/-- An account that is stored is the first one that the call names. -/
theorem actingUser_signedUp {p : AuthRuntimePolicies} {cmd : SignUpCommand} {m : RequestMeta}
    {evs : List Event} {userId : Uuid} (h : Nameless evs) :
    actingUser ⟨p, .signUp cmd m⟩ (evs ++ [.committed (.signedUp userId)]) = some userId := by
  show (evs ++ [Event.committed (.signedUp userId)]).findSome? Event.namedUser = some userId
  rw [List.findSome?_append, List.findSome?_eq_none_iff.mpr h]
  rfl

section
variable {app : App} {r : Request} {evs : List Event} {e : Event} {t : TxEvent} {db db' : Db}

/-- The update of one code, by its id, after the call has found it. -/
theorem actsFor_code (kind : CodeKind) {row : OneTimeCode} {userId : Uuid} {now : Time}
    {M : Nat} {u : Update OneTimeCode} (hkeyed : db.Keyed) (hfound : FoundRows db evs)
    (hmem : kind.found row ∈ evs) (hcode : CodeFound userId now M row)
    (hid : u.Keeps (·.id)) (huser : u.Keeps (·.userId))
    (hcond : ∀ r, u.cond r = true → r.id = row.id) :
    ActsFor (·.id) (·.userId) (some userId) (kind.rows db) (u.run (kind.rows db)) := by
  have howns := hfound.code kind row hmem
  rw [hcode.owner] at howns
  exact .update_key .refl hid huser hcond (hkeyed.codes kind) howns

/-- The statements of a new code: the codes of the user are used up, and one is added. -/
theorem actsFor_issued {rows : List OneTimeCode} {row : OneTimeCode} {userId : Uuid} {now : Time}
    (hjoins : row.Joins ((OneTimeCode.markActiveUsedByUserId userId now).run rows))
    (huser : row.userId = userId) :
    ActsFor (·.id) (·.userId) (some userId) rows
      ((OneTimeCode.markActiveUsedByUserId userId now).run rows ++ [row]) := by
  refine .insert ?_ (congrArg some huser) hjoins.id
  exact .update_owner .refl (fun _ => rfl) (fun _ => rfl) fun _ hc => eq_of_beq_and hc

/-- The statements of a new password: the hash of the account, and its sessions. -/
theorem serves_password {now : Time} {userId : Uuid} {hash : Str}
    (hresets : ActsFor (·.id) (·.userId) (some userId) db.passwordResets db'.passwordResets)
    (husers : db'.users = (usersUpdatePasswordHash now userId hash).run db.users)
    (hsessions : db'.sessions = (sessionsRevokeAllByUserId now userId).run db.sessions)
    (hdevices : db'.devices = db.devices)
    (hcodes : db'.emailVerifications = db.emailVerifications) : Serves (some userId) db db' where
  users := by
    rw [husers]
    exact .update_owner .refl (fun _ => rfl) (fun _ => rfl) fun _ hc => eq_of_beq_and hc
  devices := by
    rw [hdevices]
    exact .refl
  sessions := by
    rw [hsessions]
    exact .update_owner .refl (fun _ => rfl) (fun _ => rfl) fun _ hc => eq_of_beq_and hc
  emailVerifications := by
    rw [hcodes]
    exact .refl
  passwordResets := hresets

/-- Every transaction acts for the user of its call. -/
theorem serves_commit (h : Commits app r evs t db db') (hkeyed : db.Keyed)
    (hfound : FoundRows db evs) : Serves (actingUser r (evs ++ [.committed t])) db db' := by
  cases h with
  | signUpAttempt _ htx =>
    obtain ⟨_, rfl⟩ := signUpRateLimitTx_eq_ok htx
    exact {}
  | signedUp hnamed _ htx =>
    rw [actingUser_signedUp hnamed]
    obtain ⟨_, hnew, ⟨_, rfl⟩ | ⟨_, _, hissue⟩⟩ := signUpTx_eq_ok htx
    · exact { users := .insert .refl rfl hnew }
    · obtain ⟨row, _, hjoins, ⟨huser, _⟩, _, _, rfl⟩ := issueCodeTx_eq_ok hissue
      exact { users := .insert .refl rfl hnew
              emailVerifications := .insert .refl (congrArg some huser) hjoins.id }
  | verificationAttempt htx =>
    obtain ⟨_, rfl⟩ := verificationAttemptTx_eq_ok htx
    exact {}
  | codeRejected hcode htx =>
    cases htx
    -- the code is named by its id alone, and the call has found it
    exact
      { emailVerifications := actsFor_code .emailVerification hkeyed hfound
          (by simp [CodeKind.found]) hcode (fun _ => rfl) (fun _ => rfl)
          fun _ hc => eq_of_beq_and hc }
  | emailVerified hcode htx =>
    obtain ⟨_, rfl⟩ := verifyEmailTx_eq_ok htx
    exact
      { users := .update_owner .refl (fun _ => rfl) (fun _ => rfl) fun _ hc => eq_of_beq_and hc
        emailVerifications := actsFor_code .emailVerification hkeyed hfound
          (by simp [CodeKind.found]) hcode (fun _ => rfl) (fun _ => rfl)
          fun _ hc => eq_of_beq_and hc }
  | verificationResent htx =>
    obtain ⟨_, rfl | ⟨_, _, rfl, _, hissue⟩⟩ := resendTx_eq_ok htx
    · exact {}
    · obtain ⟨row, _, hjoins, ⟨huser, _⟩, _, _, rfl⟩ := issueCodeTx_eq_ok hissue
      exact { emailVerifications := actsFor_issued hjoins huser }
  | unknownUser _ htx =>
    obtain ⟨_, _, _, rfl⟩ := signInRecordAttemptTx_eq_ok htx
    exact {}
  | signInRejected _ htx =>
    obtain ⟨_, _, _, rfl⟩ := signInRecordAttemptTx_eq_ok htx
    exact {}
  | signedIn htx =>
    obtain ⟨device, _, _, ⟨huser, hdevice⟩, hnew, _, rfl⟩ := signInTx_eq_ok htx
    exact { devices := .insert .refl (congrArg some huser) hdevice
            sessions := .insert .refl rfl hnew }
  | reuseDetected hchecked _ htx =>
    cases htx
    -- the statement asks for the user of the session, who is the subject of the token
    exact
      { sessions := .update_owner .refl (fun _ => rfl) (fun _ => rfl) fun _ hc =>
          (eq_of_beq_and (Bool.and_eq_true_iff.mp hc).1).trans hchecked.user }
  | rotated hchecked _ htx =>
    obtain ⟨_, _, hnew, _, _, rfl⟩ := refreshTx_eq_ok htx
    -- the old session is named by its id alone
    have howns := hfound.session _ (List.mem_cons_of_mem _ List.mem_cons_self)
    rw [hchecked.user] at howns
    exact
      { sessions := .update_key (.insert .refl (congrArg some hchecked.user) hnew)
          (fun _ => rfl) (fun _ => rfl) (fun _ hc => eq_of_beq_and hc) hkeyed.sessions howns }
  | sessionActivity hchecked _ htx =>
    cases htx
    -- by its id alone again, and here the use case has checked the subject
    have howns := hfound.session _ (List.mem_cons_of_mem _ List.mem_cons_self)
    rw [hchecked.user] at howns
    exact
      { sessions := .update_key .refl (fun _ => rfl) (fun _ => rfl)
          (fun _ hc => eq_of_beq_and hc) hkeyed.sessions howns }
  | @revoked _ command context _ _ _ _ _ _ hcmd _ htx =>
    cases htx
    -- the statement asks for the user of the context
    have hcontext : command.context = some context := by
      cases command <;> first | cases hcmd; rfl | cases hcmd
    unfold actingUser
    simp only [hcontext]
    exact
      { sessions := .update_owner .refl (fun _ => rfl) (fun _ => rfl) fun _ hc =>
          beq_iff_eq.mp (Bool.and_eq_true_iff.mp (Bool.and_eq_true_iff.mp hc).1).2 }
  | revokedAll htx =>
    cases htx
    exact
      { sessions := .update_owner .refl (fun _ => rfl) (fun _ => rfl)
          fun _ hc => eq_of_beq_and hc }
  | passwordChanged _ htx =>
    cases changePasswordTx_eq_ok htx
    exact serves_password .refl rfl rfl rfl rfl
  | resetRequested htx =>
    obtain ⟨_, rfl | ⟨_, _, rfl, _, hissue⟩⟩ := requestResetTx_eq_ok htx
    · exact {}
    · obtain ⟨row, _, hjoins, ⟨huser, _⟩, _, _, rfl⟩ := issueResetTx_eq_ok hissue
      exact { passwordResets := actsFor_issued hjoins huser }
  | resetAttempt htx =>
    obtain ⟨_, rfl⟩ := resetAttemptTx_eq_ok htx
    exact {}
  | tokenRejected hcode htx =>
    cases htx
    exact
      { passwordResets := actsFor_code .passwordReset hkeyed hfound
          (by simp [CodeKind.found]) hcode (fun _ => rfl) (fun _ => rfl)
          fun _ hc => eq_of_beq_and hc }
  | resetConfirmed hcode htx =>
    obtain ⟨_, rfl⟩ := confirmResetTx_eq_ok htx
    refine serves_password ?_ rfl rfl rfl rfl
    exact actsFor_code .passwordReset hkeyed hfound (by simp [CodeKind.found]) hcode
      (fun _ => rfl) (fun _ => rfl) fun _ hc => eq_of_beq_and hc
  | claimed htx =>
    -- from here on the worker, which writes no table of an account
    unfold EmailOutboxRepository.claimBatch at htx
    split at htx <;> cases htx
    exact {}
  | markedSent _ _ htx =>
    cases htx
    exact {}
  | markedDead _ _ _ htx =>
    cases htx
    exact {}
  | rescheduled _ _ _ htx =>
    cases htx
    exact {}

/-- Every step acts for the user of its call. -/
theorem serves_step (hstep : ProtocolStep app r evs e db db') (hkeyed : db.Keyed)
    (hfound : FoundRows db evs) : Serves (actingUser r (evs ++ [e])) db db' := by
  cases hstep with
  | aborted _ => exact {}
  | read _ => exact {}
  | committed hcommit => exact serves_commit hcommit hkeyed hfound

end

/-! ### Runs -/

section
variable {app : App} {A : SysAdmission} {s s₁ s₂ : SysState}

/-- In every run the keys stay unique, and the rows that the calls have found keep their
users. -/
theorem foundRows_of_reachable (hs : Reachable app.run A Db.Keyed s) :
    s.store.Keyed ∧ ∀ c, FoundRows s.store (own c s.trace) := by
  refine Reachable.invariant (J := fun db tr => db.Keyed ∧ ∀ c, FoundRows db (own c tr))
    (app_refines app) ?_ ?_ hs
  · intro db hkeyed
    exact ⟨hkeyed, fun _ => .nil db⟩
  · rintro s db c r e ⟨hkeyed, hfound⟩ _ _ hstep
    have hserves := serves_step hstep hkeyed (hfound c)
    exact ⟨hserves.keyed hkeyed, forall_own_snoc ((hfound c).step hstep hserves)
      fun c' => (hfound c').serves hserves⟩

/-- Isolation of users. Take any run from a database with unique keys, a step of a call in it
(from `s₁` to `s₂`), and any continuation of the run. The step leaves the rows of every account
but one as they are, and every row that it writes belongs to that account: the one that the
call, by the events it has emitted in the end, acts for. -/
theorem call_isolated {c : Nat} {e : Event} {r : Request} {p : Service Response}
    (hs : Reachable app.run A Db.Keyed s₁) (hstep : Step app.run A s₁ s₂)
    (hevent : s₂.trace = s₁.trace ++ [(c, e)]) (hcall : s₁.calls c = some ⟨r, p⟩)
    (hrest : Steps app.run A s₂ s) :
    Isolated (actingUser r (own c s.trace)) s₁.store s₂.store := by
  obtain ⟨hkeyed, hfound⟩ := foundRows_of_reachable hs
  obtain ⟨r', p₁, p₂, db, hcall', _, _, hprotocol, rfl⟩ :=
    hstep.of_event (app_refines app) hs hevent
  rw [hcall] at hcall'
  cases hcall'
  have hserves := serves_step hprotocol hkeyed (hfound c)
  -- the account is the same at the end, if it is known at this step
  refine hserves.isolated.of_later fun u hu => ?_
  obtain ⟨tr, htr⟩ := hrest.exists_trace
  rw [htr, hevent, own_append, own_append, own_singleton_self]
  exact actingUser_append hu

end

/-- An active session. -/
def activeSession (id userId : Uuid) : SessionRow where
  id
  userId
  deviceId := none
  refreshTokenHash := []
  ip := none
  userAgent := none
  createdAt := 0
  lastUsedAt := none
  expiresAt := seconds 3600
  revokedAt := none
  tokenFamilyId := id
  replacedBySessionId := none

/-- Two accounts with one session each. -/
def twoAccounts : Db where
  users := [unitUser, { unitUser with id := ⟨8⟩, username := "unit_user_2", email := none }]
  sessions := [activeSession ⟨1⟩ unitUser.id, activeSession ⟨2⟩ ⟨8⟩]

/-- The sessions of one account are revoked, and that of the other one is not. -/
theorem call_isolated_revokeAll : ∃ s₁ s₂ : SysState,
    s₁.store = twoAccounts ∧ Isolated (some unitUser.id) s₁.store s₂.store ∧
      s₂.store.sessions.map (·.revokedAt.isSome) = [true, false] := by
  let r : Request := { command := .revokeAllSessions ⟨unitUser.id, ⟨1⟩⟩ }
  let s₀ : SysState := State.initial twoAccounts
  have hkeyed : twoAccounts.Keyed := by constructor <;> decide
  have hstart : Step plainApp.run anyRun s₀ (s₀.begin plainApp.run 0 r) :=
    .start 0 r rfl trivial
  have hact := Step.act (M := plainApp.run) (A := anyRun) (s := s₀.begin plainApp.run 0 r)
    0 r _ _ {} rfl ⟨rfl, trivial⟩
  exact ⟨_, _, rfl, call_isolated (.step (.init hkeyed) hstart) hact rfl rfl .refl, rfl⟩

end SmirklyAuth
