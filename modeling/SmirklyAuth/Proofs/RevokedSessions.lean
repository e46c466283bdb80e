import SmirklyAuth.Proofs.AccessChecks
import SmirklyAuth.Proofs.UserIsolation
import SmirklyAuth.Protocol.SessionRows
import SmirklyAuth.Protocol.UserTable

/-!
# `SmirklyAuth.Proofs.RevokedSessions`: revocations in a run of the use cases

Two facts about sessions, at the level of the use cases.

A use case that revokes sessions and returns has revoked them: `ended_of_returned` is about the
sessions that were there when the call started, whatever the other calls do meanwhile.

A revoked session is of no use to a call that starts later. `AuthenticateAccessToken` neither
writes nor returns a context (`authentication_refused`), and the only thing that `Refresh` does
is to revoke the rest of the family (`refresh_refused`).
-/

set_option autoImplicit false

namespace SmirklyAuth

open Interleaving
open Sql (Owns Update)

/-- Every row with the id is revoked. -/
def Ended (id : Uuid) (rows : List SessionRow) : Prop :=
  ∀ row ∈ rows, row.id = id → row.revokedAt.isSome = true

/-- The transaction revokes the session `id` of the account `userId`. -/
def TxEvent.EndsSession (t : TxEvent) (id userId : Uuid) : Prop :=
  t.revokesUser = some userId ∨ t = .revoked id

/-! ### Statements -/

/-- A row after a statement that revokes it. -/
theorem revoked_apply {u : Update SessionRow} {now : Time} {row : SessionRow}
    (hset : (u.set row).revokedAt = some now) (hcond : u.cond row = row.revokedAt.isNone) :
    (u.apply row).revokedAt.isSome = true := by
  cases hrevoked : row.revokedAt with
  | none =>
    rw [Update.apply_pos (by rw [hcond, hrevoked]; rfl), hset]
    rfl
  | some t =>
    rw [Update.apply_neg (by rw [hcond, hrevoked]; rfl), hrevoked]
    rfl

section
variable {app : App} {r : Request} {evs : List Event} {e : Event} {t : TxEvent} {db db' : Db}
  {id userId : Uuid}

/-- A revocation of all sessions of the owner. -/
theorem ended_run_all (now : Time) (hkeyed : db.Keyed)
    (howns : Owns (·.id) (·.userId) db.sessions id userId) :
    Ended id ((sessionsRevokeAllByUserId now userId).run db.sessions) := by
  intro row' hrow' hid
  obtain ⟨row, hrow, rfl⟩ := Update.mem_run.mp hrow'
  have hid' : row.id = id := ((ages_revokeAllByUserId now userId).apply row).id ▸ hid
  have huser : row.userId = userId := howns.owner_eq hkeyed.sessions hrow hid'
  exact revoked_apply rfl (by simp [sessionsRevokeAllByUserId, huser])

/-- A revocation of one session by its owner. -/
theorem ended_run_single (now : Time) (hkeyed : db.Keyed)
    (howns : Owns (·.id) (·.userId) db.sessions id userId) :
    Ended id ((sessionsRevokeByUserId now id userId).run db.sessions) := by
  intro row' hrow' hid
  obtain ⟨row, hrow, rfl⟩ := Update.mem_run.mp hrow'
  have hid' : row.id = id := ((ages_revokeByUserId now id userId).apply row).id ▸ hid
  have huser : row.userId = userId := howns.owner_eq hkeyed.sessions hrow hid'
  exact revoked_apply rfl (by simp [sessionsRevokeByUserId, hid', huser])

/-- A transaction that revokes a session, in a call that has found what it asks for. -/
theorem ended_of_commit (h : Commits app r evs t db db')
    (hkeyed : db.Keyed) (hfound : FoundRows db evs)
    (howns : Owns (·.id) (·.userId) db.sessions id userId) (hends : t.EndsSession id userId) :
    Ended id db'.sessions := by
  cases h with
  | revoked _ hown htx =>
    cases htx
    obtain heq | heq := hends
    · cases heq
    cases heq
    -- the session that the call has found is the one of its user
    have hfirst := hfound.session _ List.mem_cons_self
    rw [hown.1, hown.2] at hfirst
    exact ended_run_single _ hkeyed hfirst
  | revokedAll htx =>
    cases htx
    obtain heq | heq := hends
    · cases heq
      exact ended_run_all _ hkeyed howns
    · cases heq
  | passwordChanged _ htx =>
    cases changePasswordTx_eq_ok htx
    obtain heq | heq := hends
    · cases heq
      exact ended_run_all _ hkeyed howns
    · cases heq
  | resetConfirmed _ htx =>
    obtain ⟨_, rfl⟩ := confirmResetTx_eq_ok htx
    obtain heq | heq := hends
    · cases heq
      exact ended_run_all _ hkeyed howns
    · cases heq
  | _ => exact absurd hends (by simp [TxEvent.EndsSession, TxEvent.revokesUser])

/-- No step makes a revoked session active again. -/
theorem Ended.step (h : Ended id db.sessions) (hstep : ProtocolStep app r evs e db db')
    (hthere : ∃ row ∈ db.sessions, row.id = id) : Ended id db'.sessions := by
  cases hstep with
  | aborted _ => exact h
  | read _ => exact h
  | committed hcommit =>
    intro row' hrow' hid
    rcases (rows_commit hcommit).origin hrow' with ⟨row, hrow, hlater⟩ | hnew
    · have hrevoked := h row hrow (hlater.id ▸ hid)
      rw [hlater.revoked hrevoked]
      exact hrevoked
    · -- an id that is there is not given to a new row
      obtain ⟨row, hrow, hrowId⟩ := hthere
      exact absurd (hrowId.trans hid.symm) (hnew row hrow)

end

/-! ### Calls that revoke -/

section
variable {app : App} {A : SysAdmission} {s₁ s₂ : SysState} {id userId : Uuid} {c : Nat}

/-- A session keeps its owner, and once the call `c` has revoked it, it stays revoked. -/
theorem ended_of_steps (hs₁ : Reachable app.run A Db.Keyed s₁) (h : Steps app.run A s₁ s₂)
    (hnew : s₁.calls c = none) (howns : Owns (·.id) (·.userId) s₁.store.sessions id userId) :
    Owns (·.id) (·.userId) s₂.store.sessions id userId ∧
      ((∃ t, .committed t ∈ own c s₂.trace ∧ t.EndsSession id userId) →
        Ended id s₂.store.sessions) := by
  refine Steps.rule (J := fun s : SysState =>
    Owns (fun row : SessionRow => row.id) (·.userId) s.store.sessions id userId ∧
    ((∃ t, Event.committed t ∈ own c s.trace ∧ t.EndsSession id userId) →
      Ended id s.store.sessions)) (app_refines app) (fun _ _ _ _ hJ _ _ => hJ) ?_ hs₁ h
    ⟨howns, fun ⟨t, ht, _⟩ => ?_⟩
  · rintro s c' r p p' e db hs ⟨howns, hended⟩ _ _ _ hstep
    obtain ⟨hkeyed, hfound⟩ := foundRows_of_reachable hs
    have hserves := serves_step hstep hkeyed (hfound c')
    refine ⟨hserves.sessions.owns howns, fun ⟨t, ht, hends⟩ => ?_⟩
    by_cases hold : .committed t ∈ own c s.trace
    · obtain ⟨row, hrow, hid, _⟩ := howns
      exact (hended ⟨t, hold, hends⟩).step hstep ⟨row, hrow, hid⟩
    · -- the transaction is the step itself
      have hevent : e = .committed t := by
        rcases List.mem_append.mp (mem_own.mp ht) with hmem | hmem
        · exact absurd (mem_own.mpr hmem) hold
        · exact (congrArg Prod.snd (List.mem_singleton.mp hmem)).symm
      subst hevent
      exact ended_of_commit hstep.commits hkeyed (hfound c') howns hends
  · rw [(hs₁.obeys (app_refines app)).2 c hnew] at ht
    cases ht

/-- A session that a call has found revoked is revoked now. -/
theorem ended_of_found {s : SysState} (hs : Reachable app.run A Db.Keyed s) {session : Session}
    (hfound : .foundSession (some session) ∈ own c s.trace)
    (hrevoked : session.revokedAt.isSome = true) : Ended session.id s.store.sessions := by
  obtain ⟨hkeyed, _⟩ := foundRows_of_reachable hs
  obtain ⟨found, row, rfl, hrow, hlater⟩ := foundInv_of_reachable hs c session (mem_own.mp hfound)
  intro row' hrow' hid
  have hsame : row' = row := List.inj_on_of_nodup_map hkeyed.sessions hrow'
    (List.mem_of_find?_eq_some hrow) (hid.trans (id_of_select hrow).symm)
  rw [hsame, hlater.revoked hrevoked]
  exact hrevoked

/-- The lookup by email finds the same account as long as the service runs. -/
theorem selectByEmail_step {app : App} {r : Request} {evs : List Event} {e : Event} {db db' : Db}
    (hstep : ProtocolStep app r evs e db db') {pg : Postgres} {email : Str} {userId : Uuid}
    (h : (usersSelectByEmail pg email db.users).map (·.id) = some userId) :
    (usersSelectByEmail pg email db'.users).map (·.id) = some userId := by
  -- an update that keeps the columns of the lookup
  have hrun : ∀ w : Update User, w.Keeps (·.id) → w.Keeps (·.email) → w.Keeps (·.deletedAt) →
      (usersSelectByEmail pg email (w.run db.users)).map (·.id) = some userId := by
    intro w hid hemail hdeleted
    have hsame : (fun u : User => u.email.map pg.lower == some (pg.lower email) &&
        u.deletedAt.isNone) ∘ w.apply = fun u => u.email.map pg.lower == some (pg.lower email) &&
        u.deletedAt.isNone := by
      funext u
      simp only [Function.comp, hemail.apply u, hdeleted.apply u]
    unfold usersSelectByEmail Update.run at *
    rw [List.find?_map, hsame, Option.map_map, ← h]
    exact Option.map_congr fun u _ => hid.apply u
  cases hstep with
  | aborted _ => exact h
  | read _ => exact h
  | committed hcommit =>
    have husers := users_commit hcommit
    generalize db'.users = users' at husers
    cases husers with
    | joined _ =>
      obtain ⟨user, hfind, hid⟩ := Option.map_eq_some_iff.mp h
      unfold usersSelectByEmail at hfind ⊢
      rw [List.find?_append, hfind]
      exact congrArg some hid
    | verified => exact hrun _ (fun _ => rfl) (fun _ => rfl) fun _ => rfl
    | password _ => exact hrun _ (fun _ => rfl) (fun _ => rfl) fun _ => rfl
    | unchanged _ => exact h

/-- The account that a `ConfirmReset` call finds is the one that was there when it started. -/
theorem confirmReset_user (hs₁ : Reachable app.run A Db.Keyed s₁) (h : Steps app.run A s₁ s₂)
    (hnew : s₁.calls c = none) {r : Request} {p : Service Response}
    (hc : s₂.calls c = some ⟨r, p⟩) {cmd : ConfirmPasswordResetCommand} {reqMeta : RequestMeta}
    (hcommand : r.command = .confirmReset cmd reqMeta)
    (huser : (usersSelectByEmail app.ports.pg cmd.email s₁.store.users).map (·.id) =
      some userId)
    {user : User} (hfound : .foundUser (some user) ∈ own c s₂.trace) : user.id = userId := by
  have hsince := Steps.since
    (J := fun db => (usersSelectByEmail app.ports.pg cmd.email db.users).map (·.id) =
      some userId)
    (F := fun r e => r.command = .confirmReset cmd reqMeta → ∀ user, e = .foundUser (some user) →
      user.id = userId) (app_refines app) ?_ hs₁ h huser
  · exact hsince.2 c _ hnew hc _ hfound hcommand user rfl
  · rintro s db c ⟨p, command⟩ e _ hJ hstep
    refine ⟨selectByEmail_step hstep hJ, ?_⟩
    rintro rfl user rfl
    cases hstep with
    | aborted hab => cases hab
    | read hread =>
      generalize hevent : Event.foundUser (some user) = e at hread
      generalize own c s.trace = evs at hread
      cases hread with
      | confirmUser =>
        rw [← Event.foundUser.inj hevent] at hJ
        exact Option.some.inj hJ
      | _ => cases hevent

/-- The use case revokes the session `id` of the account `userId`, when it starts with the table
`users`. -/
def Command.EndsSession (pg : Postgres) (users : List User) (command : Command)
    (id userId : Uuid) : Prop :=
  match command with
  | .revokeSession _ sessionId => id = sessionId
  | .revokeCurrentSession context => id = context.sessionId
  | .revokeAllSessions context => userId = context.userId
  | .changePassword context _ => userId = context.userId
  | .confirmReset cmd _ => (usersSelectByEmail pg cmd.email users).map (·.id) = some userId
  | _ => False

/-- A use case that revokes sessions and has returned has revoked those that were there when it
started. -/
theorem ended_of_returned (hs₁ : Reachable app.run A Db.Keyed s₁) (h : Steps app.run A s₁ s₂)
    (hnew : s₁.calls c = none) (howns : Owns (·.id) (·.userId) s₁.store.sessions id userId)
    {r : Request} {response : Response} (hc : s₂.calls c = some ⟨r, .done response⟩)
    (hends : r.command.EndsSession app.ports.pg s₁.store.users id userId) :
    Ended id s₂.store.sessions := by
  have hs₂ := hs₁.steps h
  have hlater := (ended_of_steps hs₁ h hnew howns).2
  have hfinish := (hs₂.finish (app_refines app) hc).1
  generalize hevs : own c s₂.trace = evs at hfinish
  -- a revocation that returns has found the session revoked or revoked it
  have hrevocation : ∀ context, RevocationEnds context id evs (.ok response) →
      Ended id s₂.store.sessions := by
    intro context hrevocation
    generalize hres : Except.ok response = res at hrevocation
    cases hrevocation with
    | already hid _ hrevoked =>
      exact hid ▸ ended_of_found hs₂ (hevs ▸ List.mem_singleton_self _) hrevoked
    | revoked _ => exact hlater ⟨.revoked id, by rw [hevs]; simp, .inr rfl⟩
    | _ => cases hres
  obtain ⟨p, command⟩ := r
  cases command with
  | revokeSession context sessionId =>
    cases hends
    cases hfinish with
    | other hreturned => exact hrevocation context hreturned
  | revokeCurrentSession context =>
    cases hends
    cases hfinish with
    | other hreturned => exact hrevocation context hreturned
  | revokeAllSessions context =>
    cases hends
    cases hfinish with
    | other hreturned => exact hlater ⟨_, hevs ▸ hreturned response rfl, .inl rfl⟩
  | changePassword context cmd =>
    cases hends
    cases hfinish with
    | other hreturned =>
      obtain ⟨hash, hmem⟩ := hreturned response rfl
      exact hlater ⟨_, hevs ▸ hmem, .inl rfl⟩
  | confirmReset cmd reqMeta =>
    cases hfinish with
    | @resetConfirmed _ _ _ now user row hash _ =>
      -- the account is the one of the email address
      have huser : user.id = userId := confirmReset_user hs₁ h hnew hc rfl hends
        (by rw [hevs]; simp [confirmResetEvents])
      refine hlater ⟨.resetConfirmed row.id user.id hash, by rw [hevs]; simp, .inl ?_⟩
      exact congrArg some huser
    | other hopen => cases hopen
  | _ => cases hends

end

/-! ### Calls that start after a revocation -/

section
variable {app : App} {A : SysAdmission} {s₁ s₂ : SysState} {id : Uuid} {c : Nat}

/-- What later calls find of a revoked session. -/
theorem found_revoked (hs₁ : Reachable app.run A Db.Keyed s₁) (h : Steps app.run A s₁ s₂)
    (hthere : ∃ row ∈ s₁.store.sessions, row.id = id) (hended : Ended id s₁.store.sessions)
    (hnew : s₁.calls c = none) {session : Session}
    (hfound : .foundSession (some session) ∈ own c s₂.trace) (hid : session.id = id) :
    session.revokedAt.isSome = true := by
  have hsince := Steps.since
    (J := fun db => (∃ row ∈ db.sessions, row.id = id) ∧ Ended id db.sessions)
    (F := fun _ e => ∀ session, e = .foundSession (some session) → session.id = id →
      session.revokedAt.isSome = true) (app_refines app) ?_ hs₁ h ⟨hthere, hended⟩
  · obtain ⟨call, hc⟩ := (hs₁.steps h).started hfound
    exact hsince.2 c call hnew hc _ hfound session rfl hid
  · rintro s db c r e _ ⟨⟨row, hrow, hrowId⟩, hended⟩ hstep
    refine ⟨⟨?_, hended.step hstep ⟨row, hrow, hrowId⟩⟩, ?_⟩
    · cases hselect : sessionsSelectById id s.store.sessions with
      | none =>
        have hnone := List.find?_eq_none.mp hselect row hrow
        simp [hrowId] at hnone
      | some row' =>
        obtain ⟨row'', hrow'', _⟩ := hasNext_step hstep hselect
        exact ⟨row'', List.mem_of_find?_eq_some hrow'', id_of_select hrow''⟩
    · rintro session rfl hid
      cases hstep with
      | aborted hab => cases hab
      | read hread =>
        obtain ⟨found, hfound, rfl⟩ := reads_foundRow hread
        exact hended found (List.mem_of_find?_eq_some hfound) hid

variable {token : Str} {call : Call Db Input Event Error Request Response}

/-- A token that is accepted has its claims. -/
theorem claims_of_parseAccessToken {tp : JwtTokenProvider} {t : Time}
    {claims : AccessTokenClaims} (h : tp.parseAccessToken token t = some claims) :
    tp.accessTokenClaims token = some claims := by
  unfold JwtTokenProvider.parseAccessToken at h
  split at h
  · exact h
  · cases h

/-- The same for a refresh token. -/
theorem claims_of_parseRefreshToken {tp : JwtTokenProvider} {t : Time}
    {claims : RefreshTokenClaims} (h : tp.parseRefreshToken token t = some claims) :
    tp.refreshTokenClaims token = some claims := by
  unfold JwtTokenProvider.parseRefreshToken at h
  split at h
  · exact h
  · cases h

/-- An authentication with a token of a revoked session accepts nothing. -/
theorem not_accessed (hs₁ : Reachable app.run A Db.Keyed s₁) (h : Steps app.run A s₁ s₂)
    (hthere : ∃ row ∈ s₁.store.sessions, row.id = id) (hended : Ended id s₁.store.sessions)
    (hnew : s₁.calls c = none)
    (htoken : (app.ports.tokenProvider.accessTokenClaims token).map (·.sessionId) = some id)
    (claims : AccessTokenClaims) : ¬ Accessed app token claims (own c s₂.trace) := by
  rintro ⟨_, session, _, _, _, hevs, hchecked⟩
  rw [claims_of_parseAccessToken hchecked.parsed] at htoken
  have hid : session.id = id := hchecked.id.trans (Option.some.inj htoken)
  have hfound : .foundSession (some session) ∈ own c s₂.trace := by
    rw [hevs]
    simp [accessEvents]
  have hrevoked := found_revoked hs₁ h hthere hended hnew hfound hid
  rw [hchecked.active] at hrevoked
  cases hrevoked

/-- `AuthenticateAccessToken` with a token of a revoked session: no transaction commits, and no
context is returned. -/
theorem authentication_refused (hs₁ : Reachable app.run A Db.Keyed s₁)
    (h : Steps app.run A s₁ s₂) (hthere : ∃ row ∈ s₁.store.sessions, row.id = id)
    (hended : Ended id s₁.store.sessions) (hnew : s₁.calls c = none)
    (htoken : (app.ports.tokenProvider.accessTokenClaims token).map (·.sessionId) = some id)
    (hc : s₂.calls c = some call)
    (hcommand : call.request.command = .authenticateAccessToken token) :
    (∀ t, .committed t ∉ own c s₂.trace) ∧
      ∀ context, call.prog ≠ .ended (.ok (.authenticated context)) := by
  have hrefused := not_accessed hs₁ h hthere hended hnew htoken
  refine ⟨fun t ht => ?_, fun context hprog => ?_⟩
  · obtain ⟨claims, hclaims⟩ := accessed_of_committed (hs₁.steps h) hc hcommand ht
    exact hrefused claims hclaims
  · obtain ⟨⟨p, command⟩, prog⟩ := call
    cases hcommand
    cases hprog
    obtain ⟨claims, hclaims, _⟩ := accessed_of_done (hs₁.steps h) hc
    exact hrefused claims hclaims

/-- What a `Refresh` call that exchanges a token has checked and found. -/
def Exchanging (app : App) (cmd : RefreshCommand) (evs : List Event) : Prop :=
  ∃ t claims session, RefreshChecked app cmd t claims session ∧
    session.revokedAt.isSome = false ∧ .foundSession (some session) ∈ evs

/-- The transactions of `Refresh`. -/
theorem refresh_commits {s : SysState} {I : Db → Prop} (hs : Reachable app.run A I s)
    (hc : s.calls c = some call) {cmd : RefreshCommand} {reqMeta : RequestMeta}
    (hcommand : call.request.command = .refresh cmd reqMeta) {t : TxEvent}
    (ht : .committed t ∈ own c s.trace) :
    (∃ userId family, t = .reuseDetected userId family) ∨ Exchanging app cmd (own c s.trace) := by
  refine Reachable.call_invariant (J := fun r evs => r.command = .refresh cmd reqMeta →
    ∀ t, .committed t ∈ evs → (∃ userId family, t = .reuseDetected userId family) ∨
      Exchanging app cmd evs) (app_refines app) (fun _ _ _ _ h => nomatch h) ?_ hs c call hc
    hcommand t ht
  rintro s db c ⟨p, command⟩ e hs hJ _ _ hstep rfl t hmem
  rcases List.mem_append.mp hmem with hold | hlast
  · refine (hJ rfl t hold).imp_right fun hexchanging => ?_
    obtain ⟨t', claims, session, hchecked, hactive, hfound⟩ := hexchanging
    exact ⟨t', claims, session, hchecked, hactive, List.mem_append_left _ hfound⟩
  · cases List.mem_singleton.mp hlast
    have hcommit : Commits app ⟨p, .refresh cmd reqMeta⟩ (own c s.trace) t s.store db :=
      ProtocolStep.commits hstep
    generalize own c s.trace = evs at hcommit
    cases hcommit with
    | reuseDetected => exact .inl ⟨_, _, rfl⟩
    | rotated hchecked hactive _ =>
      exact .inr ⟨_, _, _, hchecked, hactive, by simp [refreshEvents]⟩
    | revoked hcmd => cases hcmd

/-- `Refresh` with a token of a revoked session: it may revoke the family, and it returns no
tokens. -/
theorem refresh_refused (hs₁ : Reachable app.run A Db.Keyed s₁) (h : Steps app.run A s₁ s₂)
    (hthere : ∃ row ∈ s₁.store.sessions, row.id = id) (hended : Ended id s₁.store.sessions)
    (hnew : s₁.calls c = none) {cmd : RefreshCommand} {reqMeta : RequestMeta}
    (htoken : (app.ports.tokenProvider.refreshTokenClaims cmd.refreshToken).map (·.sessionId) =
      some id) (hc : s₂.calls c = some call)
    (hcommand : call.request.command = .refresh cmd reqMeta) :
    (∀ t, .committed t ∈ own c s₂.trace → ∃ userId family, t = .reuseDetected userId family) ∧
      ∀ response, call.prog ≠ .ended (.ok response) := by
  have hnone : ¬ Exchanging app cmd (own c s₂.trace) := by
    rintro ⟨_, claims, session, hchecked, hactive, hfound⟩
    rw [claims_of_parseRefreshToken hchecked.parsed] at htoken
    have hid : session.id = id := hchecked.session.trans (Option.some.inj htoken)
    rw [found_revoked hs₁ h hthere hended hnew hfound hid] at hactive
    cases hactive
  have hcommits (t : TxEvent) (ht : .committed t ∈ own c s₂.trace) :
      ∃ userId family, t = .reuseDetected userId family :=
    (refresh_commits (hs₁.steps h) hc hcommand ht).resolve_right hnone
  refine ⟨hcommits, fun response hprog => ?_⟩
  obtain ⟨⟨p, command⟩, prog⟩ := call
  cases hcommand
  cases hprog
  -- a call that returns tokens has rotated the session
  have hfinish := ((hs₁.steps h).finish (app_refines app) hc).1
  generalize hevs : own c s₂.trace = evs at hfinish
  cases hfinish with
  | @refreshed _ _ _ _ _ s _ sid _ _ _ _ _ =>
    obtain ⟨_, _, heq⟩ := hcommits (.rotated s.id sid) (by rw [hevs]; simp)
    cases heq
  | other hopen => cases hopen

end

end SmirklyAuth
