import SmirklyAuth.Proofs.AccountChanges
import SmirklyAuth.Proofs.HttpAuthority
import SmirklyAuth.Proofs.TokenFamily

/-!
# `SmirklyAuth.Proofs.SessionEnds`: who ends a session

`session_end_caused` says what stands behind every revocation in every run of the process. The
step belongs to an HTTP request, and the request has shown one of the following:

* the current refresh token of the session, which `Refresh` exchanges for a new one;
* a refresh token of the same family that was exchanged before;
* an access token of the account, to an endpoint that ends sessions (for `change-password` also
  a password that fits the hash which the request has read);
* a reset token of the account.

So nobody else can log a user out, and the alarm for a reused token is never a false one: in a
family with an active session every other session was exchanged (`Lineage.Chained`), so the
token that raises it has been used before.
-/

set_option autoImplicit false

namespace SmirklyAuth

open Interleaving Dialogue Lineage
open Sql (Update)

/-! ### The use cases -/

/-- What stands behind the end of the session `r`, which is `r'` afterwards. -/
inductive SessionCause (app : App) (db db' : Db) (evs : List Event) (r r' : SessionRow) :
    Command → Prop where
  | rotated {cmd reqMeta t claims} (new : SessionRow)
      (hread : .parsedRefreshToken t (some claims) ∈ evs)
      (hparsed : app.ports.tokenProvider.parseRefreshToken cmd.refreshToken t = some claims)
      (hsession : claims.sessionId = r.id)
      (hknown : app.ports.refreshTokenHasher.verify cmd.refreshToken r.refreshTokenHash = true)
      (hnew : new ∈ db'.sessions) (hactive : new.revokedAt = none)
      (hfamily : new.tokenFamilyId = r.tokenFamilyId)
      (hlink : r'.replacedBySessionId = some new.id) :
      SessionCause app db db' evs r r' (.refresh cmd reqMeta)
  | reused {cmd reqMeta t claims} (spent : SessionRow) (hspent : spent ∈ db.sessions)
      (hread : .parsedRefreshToken t (some claims) ∈ evs)
      (hparsed : app.ports.tokenProvider.parseRefreshToken cmd.refreshToken t = some claims)
      (hsession : claims.sessionId = spent.id)
      (hknown : app.ports.refreshTokenHasher.verify cmd.refreshToken
        spent.refreshTokenHash = true)
      (hfamily : spent.tokenFamilyId = r.tokenFamilyId)
      (hexchanged : spent.replacedBySessionId.isSome = true) :
      SessionCause app db db' evs r r' (.refresh cmd reqMeta)
  | revoked {command context} (hcommand : Command.revocation command = some (context, r.id))
      (huser : context.userId = r.userId) : SessionCause app db db' evs r r' command
  | revokedAll {context} (huser : context.userId = r.userId) :
      SessionCause app db db' evs r r' (.revokeAllSessions context)
  | passwordChanged {context cmd} (user : User) (huser : context.userId = r.userId)
      (hread : .foundUser (some user) ∈ evs) (hid : user.id = r.userId)
      (hknown : app.ports.passwordHasher.verify cmd.currentPassword user.password = true) :
      SessionCause app db db' evs r r' (.changePassword context cmd)
  | reset {cmd reqMeta} (row : OneTimeCode) (hread : .foundReset (some row) ∈ evs)
      (howner : row.userId = r.userId)
      (hknown : app.ports.resetTokenHasher.verify cmd.token row.secretHash = true) :
      SessionCause app db db' evs r r' (.confirmReset cmd reqMeta)

/-- The events of a larger history explain as much. -/
theorem SessionCause.mono {app : App} {db db' : Db} {evs evs' : List Event} {r r' : SessionRow}
    {command : Command} (h : SessionCause app db db' evs r r' command)
    (hsub : ∀ e ∈ evs, e ∈ evs') : SessionCause app db db' evs' r r' command := by
  cases h with
  | rotated new hread hparsed hsession hknown hnew hactive hfamily hlink =>
    exact .rotated new (hsub _ hread) hparsed hsession hknown hnew hactive hfamily hlink
  | reused spent hspent hread hparsed hsession hknown hfamily hexchanged =>
    exact .reused spent hspent (hsub _ hread) hparsed hsession hknown hfamily hexchanged
  | revoked hcommand huser => exact .revoked hcommand huser
  | revokedAll huser => exact .revokedAll huser
  | passwordChanged user huser hread hid hknown =>
    exact .passwordChanged user huser (hsub _ hread) hid hknown
  | reset row hread howner hknown => exact .reset row (hsub _ hread) howner hknown

section
variable {app : App} {A : SysAdmission} {I : Db → Prop} {s : SysState}

/-- What the comparison of `Refresh` says. -/
theorem refresh_verified (hs : Reachable app.run A I s) {c : Nat}
    {call : Call Db Input Event Error Request Response} (hc : s.calls c = some call)
    {cmd : RefreshCommand} {reqMeta : RequestMeta}
    (hcommand : call.request.command = .refresh cmd reqMeta) {t now : Time}
    {claims : RefreshTokenClaims} {session : Session} {rest : List Event}
    (hevs : own c s.trace =
      refreshEvents t claims session now ++ .verifiedToken true :: rest) :
    app.ports.refreshTokenHasher.verify cmd.refreshToken session.refreshTokenHash = true := by
  refine Reachable.call_invariant (J := fun r evs => r.command = .refresh cmd reqMeta → ∀ rest,
    evs = refreshEvents t claims session now ++ .verifiedToken true :: rest →
      app.ports.refreshTokenHasher.verify cmd.refreshToken session.refreshTokenHash = true)
    (app_refines app) ?_ ?_ hs c call hc hcommand rest hevs
  · intro r _ _ _ h
    simp [refreshEvents] at h
  rintro s db c ⟨p, command⟩ e _ hJ _ _ hstep rfl rest heq
  rcases List.eq_nil_or_concat rest with rfl | ⟨rest', last, rfl⟩
  · -- the comparison is the step itself
    obtain ⟨hevs, he⟩ := List.append_inj' heq rfl
    cases he
    cases hstep with
    | aborted hab => cases hab
    | read hread =>
      rw [hevs] at hread
      generalize hevent : Event.verifiedToken true = e at hread
      generalize hhist : refreshEvents t claims session now = evs at hread
      cases hread with
      | refreshVerify _ =>
        cases hhist
        exact (Event.verifiedToken.inj hevent).symm
      | _ => cases hevent
  · rw [List.concat_eq_append, ← List.cons_append, ← List.append_assoc] at heq
    exact hJ rfl rest' (List.append_inj' heq rfl).1

end

section
variable {app : App} {db db' : Db} {r r' : SessionRow}

/-- A session that a statement has ended met its condition. -/
theorem cond_of_ended {u : Update SessionRow} {rows : List SessionRow}
    (hids : (rows.map (·.id)).Nodup) (hkeeps : u.Keeps (·.id)) (hr : r ∈ rows)
    (hactive : r.revokedAt = none) (hr' : r' ∈ u.run rows) (hid : r'.id = r.id)
    (hended : r'.revokedAt ≠ none) : u.cond r = true ∧ r' = u.set r := by
  obtain ⟨r₀, hr₀, rfl⟩ := Update.mem_run.mp hr'
  rw [hkeeps.apply] at hid
  obtain rfl : r₀ = r := List.inj_on_of_nodup_map hids hr₀ hr hid
  by_cases hcond : u.cond r₀ = true
  · exact ⟨hcond, Update.apply_pos hcond⟩
  · rw [Update.apply_neg (Bool.eq_false_iff.mpr hcond)] at hended
    exact absurd hactive hended

/-- A session that a call has found is a row of the table. -/
theorem FamilyInv.row_of_found {tr : Trace} (h : FamilyInv db tr) {c : Nat} {session : Session}
    (hfound : (c, .foundSession (some session)) ∈ tr) :
    ∃ row ∈ db.sessions, session.node.Evolves row.node := by
  obtain ⟨a, ha, hevolves⟩ := h.found c session hfound
  obtain ⟨row, hrow, rfl⟩ := List.mem_map.mp ha
  exact ⟨row, hrow, hevolves⟩

/-- The sessions have different ids. -/
theorem FamilyInv.sessionIds {tr : Trace} (h : FamilyInv db tr) :
    (db.sessions.map (·.id)).Nodup := by
  have hids := h.wf.ids
  rw [Db.nodes, List.map_map] at hids
  exact hids

/-- The owner of the sessions that a statement for all sessions of a user ends. -/
theorem user_of_revokeAll {now : Time} {userId : Uuid} (hids : (db.sessions.map (·.id)).Nodup)
    (hr : r ∈ db.sessions) (hactive : r.revokedAt = none)
    (hr' : r' ∈ (sessionsRevokeAllByUserId now userId).run db.sessions) (hid : r'.id = r.id)
    (hended : r'.revokedAt ≠ none) : userId = r.userId := by
  obtain ⟨hcond, _⟩ := cond_of_ended hids (fun _ => rfl) hr hactive hr' hid hended
  simp only [sessionsRevokeAllByUserId, Bool.and_eq_true, beq_iff_eq] at hcond
  exact hcond.1.symm

/-- A rotation ends the session that the call has found, and its token fits. -/
theorem sessionCause_of_rotated {evs : List Event} {cmd : RefreshCommand} {m : RequestMeta}
    {t : Time} {claims : RefreshTokenClaims} {session : Session} {data : NewSessionData}
    {i : Input} {replacement : Session} (hread : .parsedRefreshToken t (some claims) ∈ evs)
    (hchecked : RefreshChecked app cmd t claims session)
    (hfamily : data.tokenFamilyId = session.tokenFamilyId)
    (htx : AuthenticationService.refreshTx app.ports.pg session data i db =
      .ok (replacement, db'))
    (hknown : app.ports.refreshTokenHasher.verify cmd.refreshToken
      session.refreshTokenHash = true)
    (hids : (db.sessions.map (·.id)).Nodup)
    (hfound : ∃ row ∈ db.sessions, session.node.Evolves row.node)
    (hr : r ∈ db.sessions) (hactive : r.revokedAt = none) (hr' : r' ∈ db'.sessions)
    (hid : r'.id = r.id) (hended : r'.revokedAt ≠ none) :
    SessionCause app db db' evs r r' (.refresh cmd m) := by
  obtain ⟨ip, _, hnew, _, _, rfl⟩ := refreshTx_eq_ok htx
  have hids' : ((db.sessions ++ [SessionRepository.newRow i data ip]).map (·.id)).Nodup :=
    Sql.nodup_keys_snoc hids hnew
  obtain ⟨hcond, rfl⟩ := cond_of_ended hids' (fun _ => rfl) (List.mem_append_left _ hr) hactive
    hr' hid hended
  simp only [sessionsRevokeAndReplace, Bool.and_eq_true, beq_iff_eq] at hcond
  -- the row that the call has found is the one that it ends
  obtain ⟨row, hrow, hevolves⟩ := hfound
  obtain rfl : row = r :=
    List.inj_on_of_nodup_map hids hrow hr (hevolves.id.trans hcond.1.symm)
  have hhash : row.refreshTokenHash = session.refreshTokenHash := hevolves.payload
  have hfam : row.tokenFamilyId = session.tokenFamilyId := hevolves.family
  have hother : (sessionsRevokeAndReplace i.dbNow session.id data.id).cond
      (SessionRepository.newRow i data ip) = false := by
    have hne : data.id ≠ session.id := fun heq => hnew row hr (hcond.1.trans heq.symm)
    simp [sessionsRevokeAndReplace, SessionRepository.newRow, hne]
  have hmem := Update.apply_mem_run (u := sessionsRevokeAndReplace i.dbNow session.id data.id)
    (List.mem_append_right db.sessions
      (List.mem_singleton_self (SessionRepository.newRow i data ip)))
  rw [Update.apply_neg hother] at hmem
  exact .rotated _ hread hchecked.parsed (hchecked.session.symm.trans hcond.1.symm) (hhash ▸ hknown)
    hmem rfl (hfamily.trans hfam.symm) rfl

/-- The alarm for a reused token ends the family of a session that was exchanged. -/
theorem sessionCause_of_reused {evs : List Event} {cmd : RefreshCommand} {m : RequestMeta}
    {t now : Time} {claims : RefreshTokenClaims} {session : Session}
    (hread : .parsedRefreshToken t (some claims) ∈ evs)
    (hchecked : RefreshChecked app cmd t claims session)
    (hrevoked : session.revokedAt.isSome = true)
    (hknown : app.ports.refreshTokenHasher.verify cmd.refreshToken
      session.refreshTokenHash = true)
    (hids : (db.sessions.map (·.id)).Nodup) (hchained : Chained db.nodes)
    (hfound : ∃ row ∈ db.sessions, session.node.Evolves row.node)
    (hr : r ∈ db.sessions) (hactive : r.revokedAt = none)
    (hr' : r' ∈ (sessionsRevokeByTokenFamily now session.userId session.tokenFamilyId).run
      db.sessions)
    (hid : r'.id = r.id) (hended : r'.revokedAt ≠ none) :
    SessionCause app db db' evs r r' (.refresh cmd m) := by
  obtain ⟨hcond, _⟩ := cond_of_ended hids (fun _ => rfl) hr hactive hr' hid hended
  simp only [sessionsRevokeByTokenFamily, Bool.and_eq_true, beq_iff_eq] at hcond
  obtain ⟨spent, hspent, hevolves⟩ := hfound
  have hhash : spent.refreshTokenHash = session.refreshTokenHash := hevolves.payload
  have hspentId : spent.id = session.id := hevolves.id
  have hfam : spent.tokenFamilyId = r.tokenFamilyId := hevolves.family.trans hcond.1.2.symm
  have hlive : r.node.live = true := by simp [SessionOf.node, hactive]
  refine .reused spent hspent hread hchecked.parsed (hchecked.session.symm.trans hspentId.symm)
    (hhash ▸ hknown) hfam ?_
  -- the found session is revoked, so it is not the active one of its family
  rcases hchained _ (mem_nodes hspent) _ (mem_nodes hr) hfam hlive with heq | hnext
  · have hdead : session.node.live = true := hevolves.live (heq ▸ hlive)
    simp [Option.isNone_iff_eq_none.mp hdead] at hrevoked
  · exact hnext

/-- A transaction that ends a session, given what the events of its call say. -/
theorem sessionCause_of_commits {req : Request} {evs : List Event} {tx : TxEvent}
    (h : Commits app req evs tx db db') (hids : (db.sessions.map (·.id)).Nodup)
    (hchained : Chained db.nodes)
    (hfound : ∀ session, .foundSession (some session) ∈ evs →
      ∃ row ∈ db.sessions, session.node.Evolves row.node)
    (hverified : ∀ cmd m t claims session now rest, req.command = .refresh cmd m →
      evs = refreshEvents t claims session now ++ .verifiedToken true :: rest →
        app.ports.refreshTokenHasher.verify cmd.refreshToken session.refreshTokenHash = true)
    (hexplained : ∀ e ∈ evs, Explained app req.command evs e)
    (hcompared : ∀ context cmd hash, req.command = .changePassword context cmd →
      evs[1]? = some (.verifiedPassword hash true) →
        app.ports.passwordHasher.verify cmd.currentPassword hash = true)
    (hr : r ∈ db.sessions) (hactive : r.revokedAt = none) (hr' : r' ∈ db'.sessions)
    (hid : r'.id = r.id) (hended : r'.revokedAt ≠ none) :
    SessionCause app db db' evs r r' req.command := by
  -- a table with the same rows ends nothing
  have hsame : r' ∈ db.sessions → False := by
    intro hmem
    rw [List.inj_on_of_nodup_map hids hmem hr hid] at hended
    exact hended hactive
  have hframe := commits_frame h
  cases h with
  | signedIn htx =>
    obtain ⟨_, _, _, _, hnew, _, rfl⟩ := signInTx_eq_ok htx
    rcases List.mem_append.mp hr' with hmem | hlast
    · exact (hsame hmem).elim
    · rw [List.mem_singleton.mp hlast] at hid
      exact absurd hid.symm (hnew r hr)
  | reuseDetected hchecked hrevoked htx =>
    cases htx
    exact sessionCause_of_reused (by simp [refreshEvents]) hchecked hrevoked
      (hverified _ _ _ _ _ _ [] rfl rfl) hids hchained (hfound _ (by simp [refreshEvents])) hr
      hactive hr' hid hended
  | rotated hchecked _ htx =>
    exact sessionCause_of_rotated (by simp [refreshEvents]) hchecked rfl htx
      (hverified _ _ _ _ _ _ _ rfl rfl) hids (hfound _ (by simp [refreshEvents])) hr hactive hr'
      hid hended
  | sessionActivity _ _ htx =>
    cases htx
    obtain ⟨_, rfl⟩ := cond_of_ended hids (fun _ => rfl) hr hactive hr' hid hended
    exact absurd hactive hended
  | revoked hcommand _ htx =>
    cases htx
    obtain ⟨hcond, _⟩ := cond_of_ended hids (fun _ => rfl) hr hactive hr' hid hended
    simp only [sessionsRevokeByUserId, Bool.and_eq_true, beq_iff_eq] at hcond
    rw [← hcond.1.1] at hcommand
    exact .revoked hcommand hcond.1.2.symm
  | revokedAll htx =>
    cases htx
    exact .revokedAll (user_of_revokeAll hids hr hactive hr' hid hended)
  | @passwordChanged _ context cmd user _ _ _ _ huser htx =>
    cases changePasswordTx_eq_ok htx
    have howner := user_of_revokeAll hids hr hactive hr' hid hended
    exact .passwordChanged user howner (by simp) (huser.trans howner)
      (hcompared context cmd user.password rfl rfl)
  | @resetConfirmed _ cmd reqMeta _ user row _ _ _ _ hrow htx =>
    obtain ⟨_, rfl⟩ := confirmResetTx_eq_ok htx
    have howner := user_of_revokeAll hids hr hactive hr' hid hended
    obtain ⟨_, _, row', hcommand, hrow', _, hknown⟩ :=
      hexplained (.verifiedResetToken row.id true) (by simp)
    cases hcommand
    obtain rfl : row' = row := by simpa [confirmResetEvents] using hrow'
    exact .reset row' (by simp) (hrow.owner.trans howner) hknown
  | _ => exact (hsame (hframe.sessions rfl ▸ hr')).elim

end

section
variable {app : App} {start : Request → Prop} {act : SysState → Nat → Event → Prop}
  {s s' : SysState}

/-- In every run the families with an active session are chains. -/
theorem chained_of_reachable (hs : Reachable app.run (admission start act) Seed s) :
    Chained s.store.nodes := by
  have hinv : FamilyInv s.store s.trace ∧ Chained s.store.nodes :=
    Reachable.invariant (A := admission start act)
      (J := fun db tr => FamilyInv db tr ∧ Chained db.nodes) (app_refines app)
      (fun db hseed => ⟨FamilyInv.init hseed, by simp [Db.nodes, hseed.sessions, Chained]⟩)
      (fun _ _ c _ _ hJ _ hact hstep =>
        ⟨hJ.1.step hact.1 hstep, (hJ.1.change hstep).chained hJ.1.wf hJ.2⟩) hs
  exact hinv.2

/-- A step of a run that ends a session. -/
theorem sessionCause_of_step (hs : Reachable app.run (admission start act) Seed s)
    (hstep : Step app.run (admission start act) s s') {c : Nat} {e : Event}
    (hevent : s'.trace = s.trace ++ [(c, e)])
    {call : Call Db Input Event Error Request Response} (hc : s.calls c = some call)
    {r r' : SessionRow} (hr : r ∈ s.store.sessions) (hactive : r.revokedAt = none)
    (hr' : r' ∈ s'.store.sessions) (hid : r'.id = r.id) (hended : r'.revokedAt ≠ none) :
    SessionCause app s.store s'.store (own c s.trace) r r' call.request.command := by
  obtain ⟨_, _, _, db, hc', _, _, hprotocol, rfl⟩ := hstep.of_event (app_refines app) hs hevent
  rw [hc] at hc'
  cases hc'
  have hinv := familyInv_of_reachable hs
  have hids := hinv.sessionIds
  replace hr' : r' ∈ db.sessions := hr'
  have hsame : r' ∈ s.store.sessions → False := by
    intro hmem
    rw [List.inj_on_of_nodup_map hids hmem hr hid] at hended
    exact hended hactive
  cases hprotocol with
  | aborted _ => exact (hsame hr').elim
  | read _ => exact (hsame hr').elim
  | committed hcommit =>
    exact sessionCause_of_commits hcommit hids (chained_of_reachable hs)
      (fun _ hfound => hinv.row_of_found (mem_own.mp hfound))
      (fun _ _ _ _ _ _ _ hcommand hevs => refresh_verified hs hc hcommand hevs)
      (explained_of_reachable hs c _ hc)
      (fun _ _ _ hcommand => changePassword_compared hs hc hcommand) hr hactive hr' hid hended

end

/-! ### The requests -/

/-- The access token of the request was accepted for the context: the events of the request start
with the reading of the token, which names a session that the request found active, unexpired at
its clock reading and of the user in the token. -/
def Authorised (server : HttpServer) (s : HttpState) (c : Nat) (call : HttpCall)
    (context : AuthContext) : Prop :=
  ∃ token claims, call.bearer = some token ∧
    Accessed server.app token claims (own c s.trace) ∧
    context = { userId := claims.userId, sessionId := claims.sessionId }

/-- Take any run of the process from a database without sessions, codes and mails, and a step
after which an active session is revoked. The step is one of an HTTP request, which has asked for
a use case that ends the session for a reason (`SessionCause`): it holds the refresh token of the
session, or one of its family that was exchanged before, or it acts for the account of the
session, with an accepted access token or a reset token of the account. -/
theorem session_end_caused (server : HttpServer) (s s' : HttpState)
    (hs : Reachable server.serve httpRun Seed s) (hstep : Step server.serve httpRun s s')
    (r r' : SessionRow) (hr : r ∈ s.store.sessions) (hactive : r.revokedAt = none)
    (hr' : r' ∈ s'.store.sessions) (hid : r'.id = r.id) (hended : r'.revokedAt ≠ none) :
    ∃ c e call prog command, s'.trace = s.trace ++ [(c, e)] ∧
      s.calls c = some ⟨.http call, prog⟩ ∧ server.Asks call command ∧
      SessionCause server.app s.store s'.store (own c s.trace) r r' command ∧
      ∀ context, command.context = some context → Authorised server s c call context := by
  obtain ⟨t, ht, hsim⟩ := reachable_simulated hs
  obtain ⟨t', _, hsim', hacts⟩ := step_simulated hs hsim hstep
  have hids := (familyInv_of_reachable ht).sessionIds
  cases hstep with
  | start c incoming _ _ =>
    -- the start of a request leaves the table as it is
    rw [hsim.store] at hids
    rw [List.inj_on_of_nodup_map hids hr' hr hid] at hended
    exact absurd hactive hended
  | act c incoming f k i hc _ =>
    obtain ⟨m, sub, t₁, hsub, hstep₁, hevent₁, hstore₁, _⟩ := hacts c _ rfl
    rw [hsim'.store] at hstore₁
    rw [← hsim.store] at hr
    rw [← hstore₁] at hr'
    have hcause := sessionCause_of_step ht hstep₁ hevent₁ hsub hr hactive hr' hid hended
    rw [hsim.store, hstore₁] at hcause
    cases incoming with
    | tick cfg =>
      -- the worker asks for its own use case only
      have hguarded : (server.plan (.tick cfg)).Guarded (fun _ r => r.command = .tick cfg) [] :=
        ⟨rfl, fun _ => trivial⟩
      obtain ⟨_, hcommand, _⟩ := (hsim.tracks c _ hc).guarded hguarded hsub
      rw [hcommand] at hcause
      cases hcause with
      | revoked hrevocation _ => cases hrevocation
    | http call =>
      obtain ⟨_, ⟨_, hasks⟩, _⟩ :=
        (hsim.tracks c _ hc).guarded (httpPlan_guarded server call).map hsub
      exact ⟨c, _, call, _, sub.request.command, rfl, hc, hasks,
        hcause.mono fun e => hsim.mem_own,
        fun context hcontext => accessed_of_context ht hsim hc hsub hcontext⟩

/-- A request to `refresh` with the first token of a family. -/
def refreshOverHttp : Incoming :=
  .http
    { policies := hourSessions
      endpoint := .refresh
      request := { remoteAddress := [], refreshCookie := unitToken ⟨1⟩ ⟨2⟩ } }

/-- The token is exchanged, and the second request with it ends the session of the first. -/
theorem session_end_caused_reuse : ∃ (s s' : HttpState) (r r' : SessionRow),
    r ∈ s.store.sessions ∧ r.revokedAt = none ∧ r' ∈ s'.store.sessions ∧ r'.id = r.id ∧
      r'.revokedAt ≠ none ∧ r'.replacedBySessionId = none ∧
      ∃ c e call prog command, s'.trace = s.trace ++ [(c, e)] ∧
        s.calls c = some ⟨.http call, prog⟩ ∧ plainServer.Asks call command ∧
        SessionCause plainServer.app s.store s'.store (own c s.trace) r r' command := by
  obtain ⟨s, s', e, hs, hstep, _, r, hr, hactive, r', hr', hid, hended, hlast⟩ :=
    exists_step_of_replay (M := plainServer.serve) (A := httpRun) (I := Seed) (d := unitDb)
    ([.start 0 signInOverHttp] ++ httpActs 0 (signInInputs ⟨1⟩ ⟨2⟩) ++
      [.start 1 refreshOverHttp] ++ httpActs 1 (refreshInputs ⟨3⟩) ++
      [.start 2 refreshOverHttp] ++ httpActs 2 (List.replicate 4 {}))
    2 {} (fun s s' => ∃ r ∈ s.store.sessions, r.revokedAt = none ∧
      ∃ r' ∈ s'.store.sessions, r'.id = r.id ∧ r'.revokedAt ≠ none ∧
        r'.replacedBySessionId = none) (by decide) (by decide +kernel)
  obtain ⟨c, e, call, prog, command, hevent, hc, hasks, hcause, _⟩ :=
    session_end_caused plainServer s s' hs hstep r r' hr hactive hr' hid hended
  exact ⟨s, s', r, r', hr, hactive, hr', hid, hended, hlast, c, e, call, prog, command, hevent, hc,
    hasks, hcause⟩

end SmirklyAuth
