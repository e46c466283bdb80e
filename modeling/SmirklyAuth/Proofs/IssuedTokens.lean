import SmirklyAuth.Protocol.SoloRules
import SmirklyAuth.Protocol.Transactions
import SmirklyAuth.System

/-!
# `SmirklyAuth.Proofs.IssuedTokens`: the access tokens of `SignIn` and `Refresh`

`AuthenticateAccessToken` accepts a token when the session is active and the account is there.
`SignIn` looks the account up, so its tokens are accepted. `Refresh` reads the session only: for
an account that has been soft-deleted it rotates the session and returns an access token that
the next call refuses.

* `Issued`: what a call that has returned tokens leaves in the database.
* `authenticate_iff`: when the next call accepts such a token.
* `issuedToken_accepted_iff`: the main result.
-/

set_option autoImplicit false

namespace SmirklyAuth

open Interleaving Solo Service

/-- `ParseAccessToken` inverts `GenerateTokens`, and no access token is empty. -/
structure TokenLaw (p : JwtTokenProvider) : Prop where
  claims : ∀ userId sessionId familyId now,
    p.accessTokenClaims (p.generateTokens userId sessionId familyId now).accessToken
      = some ⟨userId, sessionId⟩
  nonempty : ∀ userId sessionId familyId now,
    (p.generateTokens userId sessionId familyId now).accessToken ≠ []

/-- The state after a call that took the database from `db` to `db'` and returned an access
token: the session is active and belongs to the user of the token. -/
structure Issued (app : App) (db db' : Db) (accessToken : Str) (context : AuthContext) :
    Prop where
  users : db'.users = db.users
  session : ∃ row, sessionsSelectById context.sessionId db'.sessions = some row ∧
    row.userId = context.userId ∧ row.revokedAt = none
  token : ∃ familyId now, accessToken = (app.ports.tokenProvider.generateTokens context.userId
    context.sessionId familyId now).accessToken

/-- The next call authenticates the token as `context` exactly when `P`, as long as neither the
token nor the session has expired and no step of the call fails. -/
def AcceptedIff (app : App) (db : Db) (accessToken : Str) (context : AuthContext) (P : Prop) :
    Prop :=
  ∀ policies inputs, Quiet inputs →
    (∀ n, app.ports.tokenProvider.unexpired accessToken (inputs n).now = true) →
    (∀ row ∈ db.sessions, row.id = context.sessionId → ∀ n, (inputs n).now < row.expiresAt) →
    (((app.run ⟨policies, .authenticateAccessToken accessToken⟩).solo inputs db).result
      = .ok (.authenticated context) ↔ P)

/-! ### The next call -/

section

variable {app : App} {db db' : Db} {accessToken : Str} {context : AuthContext}

/-- When an issued token is accepted, and with which context. -/
theorem authenticate_iff (hlaw : TokenLaw app.ports.tokenProvider)
    (h : Issued app db db' accessToken context) {policies : AuthRuntimePolicies}
    {inputs : Nat → Input} (hquiet : Quiet inputs)
    (htoken : app.ports.tokenProvider.unexpired accessToken (inputs 0).now = true)
    (hsession : ∀ row ∈ db'.sessions, row.id = context.sessionId → (inputs 2).now < row.expiresAt) :
    ((AuthenticationService.authenticateAccessToken app.ports policies accessToken).solo inputs
        db').result = .ok context ↔ (usersSelectById context.userId db.users).isSome = true := by
  obtain ⟨row, hfind, huser, hactive⟩ := h.session
  obtain ⟨familyId, issued, htokenEq⟩ := h.token
  have hempty : accessToken.isEmpty = false := by
    rw [htokenEq]
    simpa using hlaw.nonempty context.userId context.sessionId familyId issued
  have hparse : app.ports.tokenProvider.parseAccessToken accessToken (inputs 0).now
      = some ⟨context.userId, context.sessionId⟩ := by
    rw [JwtTokenProvider.parseAccessToken, if_pos htoken, htokenEq, hlaw.claims]
  have hread : SessionRepository.findById app.ports.pg context.sessionId db'
      = some (row.toDomain app.ports.pg) := by
    rw [SessionRepository.findById, hfind, Option.map_some]
  have hexpires : decide ((row.toDomain app.ports.pg).expiresAt ≤ (inputs 2).now) = false := by
    have hid : row.id = context.sessionId := by simpa using List.find?_some hfind
    have hlt := hsession row (List.mem_of_find?_eq_some hfind) hid
    exact decide_eq_false (not_le.mpr hlt)
  -- the call passes one check after the other, down to the look-up of the account
  unfold AuthenticationService.authenticateAccessToken clock
  rw [hempty, throwIf_false_bind, solo_port_bind (hquiet 0), hparse, orThrow_some_bind,
    solo_port_bind (hquiet 1)]
  have hsubject : ((row.toDomain app.ports.pg).userId != context.userId) = false := by
    simpa [SessionOf.toDomain] using huser
  have hopen : (row.toDomain app.ports.pg).revokedAt.isSome = false := by
    simp [SessionOf.toDomain, hactive]
  rw [hread, orThrow_some_bind]
  simp only
  rw [hsubject, throwIf_false_bind, hopen, throwIf_false_bind, solo_port_bind (hquiet 2)]
  simp only [rest_apply, Nat.zero_add, Nat.reduceAdd]
  rw [hexpires, throwIf_false_bind, solo_port_bind (hquiet 3), h.users]
  cases usersSelectById context.userId db.users with
  | none => exact ⟨fun hresult => (nomatch hresult), fun hsome => (nomatch hsome)⟩
  | some user =>
    rw [orThrow_some_bind]
    -- the use of the session is stored only now and then
    split
    · rw [solo_transaction_bind_ok (hquiet 4) rfl]
      simp
    · simp

/-- The same, for every caller and every time. -/
theorem Issued.acceptedIff (hlaw : TokenLaw app.ports.tokenProvider)
    (h : Issued app db db' accessToken context) :
    AcceptedIff app db' accessToken context
      ((usersSelectById context.userId db.users).isSome = true) := by
  intro policies inputs hquiet htoken hsession
  rw [← authenticate_iff hlaw h hquiet (htoken 0) fun row hrow hid => hsession row hrow hid 2]
  show (Prog.solo (_ >>= _) inputs db').result = _ ↔ _
  rw [Prog.solo_bind, Solo.next, after_result]
  cases ((AuthenticationService.authenticateAccessToken app.ports policies accessToken).solo
    inputs db').result with
  | ok a => simp
  | error x => simp

end

/-! ### The calls that issue tokens -/

section

variable {app : App} {db : Db} {policies : AuthRuntimePolicies}

/-- A row with a new id is found under it. -/
theorem exists_active_snoc {rows : List SessionRow} {row : SessionRow} {id userId : Uuid}
    (hfresh : ∀ r ∈ rows, r.id ≠ id) (hid : row.id = id) (huser : row.userId = userId)
    (hactive : row.revokedAt = none) :
    ∃ r, sessionsSelectById id (rows ++ [row]) = some r ∧ r.userId = userId ∧
      r.revokedAt = none := by
  have hnone : rows.find? (fun r => r.id == id) = none := by
    rw [List.find?_eq_none]
    intro r hr
    simpa using hfresh r hr
  refine ⟨row, ?_, huser, hactive⟩
  rw [sessionsSelectById, List.find?_append, hnone]
  simp [hid]

/-- The rotation does not revoke the replacement. -/
theorem run_revokeAndReplace_snoc {rows : List SessionRow} {row replacement : SessionRow}
    {now : Time} {id : Uuid} (hrow : row ∈ rows) (hfresh : ∀ r ∈ rows, r.id ≠ id)
    (hid : replacement.id = id) :
    (sessionsRevokeAndReplace now row.id id).run (rows ++ [replacement])
      = (sessionsRevokeAndReplace now row.id id).run rows ++ [replacement] := by
  have hmiss : (sessionsRevokeAndReplace now row.id id).cond replacement = false := by
    have hne : id ≠ row.id := Ne.symm (hfresh row hrow)
    simp [sessionsRevokeAndReplace, hid, hne]
  rw [Sql.Update.run, Sql.Update.run, List.map_append, List.map_singleton,
    Sql.Update.apply_neg hmiss]

/-- A look-up that asks for accounts that are not deleted. -/
theorem live_of_find? {p : User → Bool} {user : User} {users : List User}
    (h : users.find? (fun u => p u && u.deletedAt.isNone) = some user) :
    user ∈ users ∧ user.deletedAt.isNone = true := by
  have hfound := List.find?_some h
  simp only [Bool.and_eq_true] at hfound
  exact ⟨List.mem_of_find?_eq_some h, hfound.2⟩

/-- The account that a sign-in finds is not deleted. -/
theorem usersSelectById_of_findSignInUser {pg : Postgres} {input : NormalizedSignInInput}
    {user : User} (h : AuthenticationService.findSignInUser pg input db = some user) :
    (usersSelectById user.id db.users).isSome = true := by
  have hlive : user ∈ db.users ∧ user.deletedAt.isNone = true := by
    unfold AuthenticationService.findSignInUser usersSelectByUsername usersSelectByEmail
      usersSelectByPhone at h
    -- by username, by address, by number, or by nothing
    split at h
    · exact live_of_find? h
    · exact live_of_find? h
    · exact live_of_find? h
    · cases h
  rw [usersSelectById, List.find?_isSome]
  exact ⟨user, hlive.1, by simp [hlive.2]⟩

/-- What is asked of a call that issues tokens. -/
def Issues {α : Type} (P : α → Db → Prop) (result : Except Error α) (db' : Db) : Prop :=
  ∀ a, result = .ok a → P a db'

/-- A call that fails issues nothing. -/
theorem issues_error {α : Type} {P : α → Db → Prop} {db' : Db} (x : Error) :
    Issues P (.error x) db' := fun _ h => nomatch h

/-- A call that returns a result of the kind. -/
theorem issues_ok {α : Type} {P : α → Db → Prop} {a : α} {db' : Db} (h : P a db') :
    Issues P (.ok a) db' := by
  rintro _ ⟨⟩
  exact h

/-- A transaction before an exception issues nothing. -/
theorem issues_transaction_throw {α β : Type} {P : α → Db → Prop} {event : β → TxEvent}
    {tx : Input → Tx β} {x : Error} :
    (transaction event tx >>= fun _ => throw x).Ensures db (Issues P) :=
  ensures_transaction_bind issues_error fun _ _ _ _ => Prog.ensures_throw (issues_error x)

/-- A new session issues its token. -/
theorem openSession_issues (user : User) (m : RequestMeta) :
    (AuthenticationService.openSession app.ports policies.session user m).Ensures db
      (Issues fun result db' =>
        result.user = user ∧ Issued app db db' result.tokens.accessToken
          ⟨user.id, result.sessionId⟩) := by
  unfold AuthenticationService.openSession AuthenticationService.generateId
  -- two ids, the tokens and the hash
  iterate 4 refine ensures_port_bind issues_error fun _ => ?_
  refine ensures_transaction_bind issues_error fun i session db' htx => ?_
  obtain ⟨device, ip, -, -, hfresh, hid, rfl⟩ := signInTx_eq_ok htx
  refine Prog.ensures_pure (issues_ok ⟨rfl, rfl, ?_, ?_⟩)
  · simp only [hid]
    exact exists_active_snoc hfresh rfl rfl rfl
  · simp only [hid]
    exact ⟨_, _, rfl⟩

/-- A sign-in issues a token for an account that is there. -/
theorem signIn_issues (cmd : SignInCommand) (m : RequestMeta) :
    (AuthenticationService.signIn app.ports policies cmd m).Ensures db
      (Issues fun result db' =>
        Issued app db db' result.tokens.accessToken ⟨result.user.id, result.sessionId⟩ ∧
          (usersSelectById result.user.id db.users).isSome = true) := by
  unfold AuthenticationService.signIn AuthenticationService.recordFailedAttempt
  refine ensures_validated_bind issues_error fun input _ => ?_
  iterate 3 refine ensures_port_bind issues_error fun _ => ?_
  refine ensures_orThrow_bind issues_error fun counters _ => ?_
  refine ensures_throwIf_bind issues_error fun _ => ?_
  split
  · -- no account: the attempt is recorded
    exact issues_transaction_throw
  · rename_i user huser
    refine ensures_port_bind issues_error fun _ => ?_
    -- a wrong password, then an address that is not verified
    split
    · exact issues_transaction_throw
    split
    · exact issues_transaction_throw
    · refine (openSession_issues user m).mono fun result db' hend a ha => ?_
      obtain ⟨rfl, hissued⟩ := hend a ha
      exact ⟨hissued, usersSelectById_of_findSignInUser huser⟩

/-- A rotation issues a token for the owner of the old session. -/
theorem refreshActive_issues (cmd : RefreshCommand) (m : RequestMeta) {row : SessionRow}
    (hrow : row ∈ db.sessions) (now : Time) :
    (AuthenticationService.refreshActive app.ports policies.session cmd m
        (row.toDomain app.ports.pg) now).Ensures db
      (Issues fun result db' =>
        Issued app db db' result.accessToken ⟨row.userId, result.sessionId⟩) := by
  unfold AuthenticationService.refreshActive AuthenticationService.generateId clock
  refine ensures_throwIf_bind issues_error fun _ => ?_
  refine ensures_port_bind issues_error fun _ => ?_
  refine ensures_throwIf_bind issues_error fun _ => ?_
  iterate 4 refine ensures_port_bind issues_error fun _ => ?_
  refine ensures_transaction_bind issues_error fun i replacement db' htx => ?_
  obtain ⟨ip, -, hfresh, hid, -, rfl⟩ := refreshTx_eq_ok htx
  refine Prog.ensures_pure (issues_ok ⟨rfl, ?_, ?_⟩)
  · simp only [hid]
    rw [show (row.toDomain app.ports.pg).id = row.id from rfl,
      run_revokeAndReplace_snoc hrow hfresh rfl]
    refine exists_active_snoc ?_ rfl rfl rfl
    -- the rotation writes no id, so the new one is still new
    intro r hr
    obtain ⟨r₀, hr₀, rfl⟩ := Sql.Update.mem_run.mp hr
    have hkeeps : ∀ id, (sessionsRevokeAndReplace i.dbNow row.id id).Keeps (·.id) := fun _ _ => rfl
    rw [(hkeeps _).apply r₀]
    exact hfresh r₀ hr₀
  · simp only [hid]
    exact ⟨_, _, rfl⟩

/-- A refresh issues a token for the owner of the token it was called with. -/
theorem refresh_issues (cmd : RefreshCommand) (m : RequestMeta) :
    (AuthenticationService.refresh app.ports policies cmd m).Ensures db
      (Issues fun result db' => ∃ claims,
        app.ports.tokenProvider.refreshTokenClaims cmd.refreshToken = some claims ∧
          Issued app db db' result.accessToken ⟨claims.userId, result.sessionId⟩) := by
  unfold AuthenticationService.refresh
  refine ensures_throwIf_bind issues_error fun _ => ?_
  refine ensures_port_bind issues_error fun i => ?_
  refine ensures_orThrow_bind issues_error fun claims hclaims => ?_
  refine ensures_port_bind issues_error fun _ => ?_
  refine ensures_orThrow_bind issues_error fun session hsession => ?_
  obtain ⟨row, hfind, rfl⟩ := Option.map_eq_some_iff.mp hsession
  refine ensures_port_bind issues_error fun _ => ?_
  refine ensures_throwIf_bind issues_error fun hsubject => ?_
  refine ensures_throwIf_bind issues_error fun _ => ?_
  split
  · -- a revoked session never gets new tokens
    unfold AuthenticationService.refreshRevoked
    refine ensures_port_bind issues_error fun _ => ?_
    split
    · exact issues_transaction_throw
    · exact Prog.ensures_throw (issues_error _)
  · have huser : row.userId = claims.userId := by simpa [SessionOf.toDomain] using hsubject
    have hparsed : app.ports.tokenProvider.refreshTokenClaims cmd.refreshToken = some claims := by
      simp only [JwtTokenProvider.parseRefreshToken] at hclaims
      split at hclaims
      · exact hclaims
      · cases hclaims
    refine (refreshActive_issues cmd m (List.mem_of_find?_eq_some hfind) _).mono
      fun result db' hend a ha => ⟨claims, hparsed, ?_⟩
    rw [← huser]
    exact hend a ha

/-- The program of a request wraps the result of the use case. -/
theorem issues_of_run {α : Type} {p : Service α} {wrap : α → Response} {P : α → Db → Prop}
    (h : p.Ensures db (Issues P)) {inputs : Nat → Input} {a : α}
    (hwrap : ∀ b, wrap b = wrap a → b = a)
    (hresult : ((p >>= fun b => pure (wrap b)).solo inputs db).result = .ok (wrap a)) :
    P a ((p >>= fun b => pure (wrap b)).solo inputs db).store := by
  rw [Prog.solo_bind, Solo.next, after_result] at hresult
  rw [Prog.solo_bind, Solo.next, after_store]
  have hend := h inputs
  cases hp : (p.solo inputs db).result with
  | ok b =>
    rw [hp] at hresult hend
    obtain rfl := hwrap b (Except.ok.inj hresult)
    exact hend b rfl
  | error x =>
    rw [hp] at hresult
    cases hresult

end

/-- The access token of a `SignIn` is accepted by the next call, from every database. That of a
`Refresh` is accepted exactly when the account that the refresh token names is not deleted. -/
theorem issuedToken_accepted_iff (app : App) (hlaw : TokenLaw app.ports.tokenProvider) (db : Db)
    (policies : AuthRuntimePolicies) (m : RequestMeta) (inputs : Nat → Input) :
    (∀ cmd result,
      ((app.run ⟨policies, .signIn cmd m⟩).solo inputs db).result = .ok (.signedIn result) →
      AcceptedIff app ((app.run ⟨policies, .signIn cmd m⟩).solo inputs db).store
        result.tokens.accessToken ⟨result.user.id, result.sessionId⟩ True) ∧
    (∀ cmd result,
      ((app.run ⟨policies, .refresh cmd m⟩).solo inputs db).result = .ok (.refreshed result) →
      ∃ claims, app.ports.tokenProvider.refreshTokenClaims cmd.refreshToken = some claims ∧
        AcceptedIff app ((app.run ⟨policies, .refresh cmd m⟩).solo inputs db).store
          result.accessToken ⟨claims.userId, result.sessionId⟩
          ((usersSelectById claims.userId db.users).isSome = true)) := by
  constructor
  · intro cmd result hresult
    obtain ⟨hissued, hlive⟩ := issues_of_run (signIn_issues cmd m)
      (fun _ hb => Response.signedIn.inj hb) hresult
    have haccepted := hissued.acceptedIff hlaw
    simp only [hlive] at haccepted
    exact haccepted
  · intro cmd result hresult
    obtain ⟨claims, hclaims, hissued⟩ := issues_of_run (refresh_issues cmd m)
      (fun _ hb => Response.refreshed.inj hb) hresult
    exact ⟨claims, hclaims, hissued.acceptedIff hlaw⟩

/-! ### Concrete calls -/

/-- The call authenticates nobody because the account is gone. -/
def refusesUser (app : App) (db : Db) (accessToken : Str) : Bool :=
  match ((app.run ⟨hourSessions, .authenticateAccessToken accessToken⟩).solo (fun _ => {})
    db).result with
  | .error (.authUserNotFound _) => true
  | _ => false

/-- The inputs of a list, and then the default ones. -/
def inputsOf (inputs : List Input) (n : Nat) : Input := inputs.getD n {}

/-- The account has signed in. -/
def signedInDb : Db :=
  ((plainApp.run (signInUnitUser "old_password")).solo (inputsOf (signInInputs ⟨1⟩ ⟨2⟩))
    unitDb).store

/-- Then it was deleted. -/
def deletedDb : Db :=
  { signedInDb with users := (usersSoftDelete 0 unitUser.id).run signedInDb.users }

/-- A refresh of the account that runs alone. -/
def refreshUnitUser (db : Db) : Solo Db Input Event Error Response :=
  (plainApp.run (refreshWith (unitToken ⟨1⟩ ⟨2⟩))).solo (inputsOf (refreshInputs ⟨3⟩)) db

/-- `Refresh` still issues tokens for the deleted account, and the next call refuses them. The
token never expires and the session lasts for another hour. -/
theorem issuedToken_refused :
    UserRepository.softDelete {} unitUser.id signedInDb = .ok ((), deletedDb) ∧
      ∃ result, (refreshUnitUser deletedDb).result = .ok (.refreshed result) ∧
        refusesUser plainApp (refreshUnitUser deletedDb).store result.accessToken = true ∧
        plainTokenProvider.unexpired result.accessToken 0 = true ∧
        (sessionsSelectById result.sessionId (refreshUnitUser deletedDb).store.sessions).any
          (fun row => 0 < row.expiresAt && row.revokedAt.isNone) = true := by
  have hcheck : (match (refreshUnitUser deletedDb).result with
      | .ok (.refreshed result) =>
        refusesUser plainApp (refreshUnitUser deletedDb).store result.accessToken &&
          (sessionsSelectById result.sessionId (refreshUnitUser deletedDb).store.sessions).any
            (fun row => 0 < row.expiresAt && row.revokedAt.isNone)
      | _ => false) = true := by
    decide +kernel
  refine ⟨rfl, ?_⟩
  split at hcheck
  · rename_i result hresult
    obtain ⟨hrefused, hactive⟩ := Bool.and_eq_true_iff.mp hcheck
    exact ⟨result, hresult, hrefused, rfl, hactive⟩
  · cases hcheck

/-- The bytes of a number below `256 ^ k`. -/
theorem foldr_bytes (k n : Nat) :
    ((List.range k).map fun i => (n >>> (8 * i)).toUInt8).foldr (fun b m => b.toNat + 256 * m) 0
      = n % 256 ^ k := by
  -- on the number of bytes; the first byte is the remainder, the others are those of `n / 256`
  induction k generalizing n with
  | zero => simp [Nat.mod_one]
  | succ k ih =>
    have hshift : ∀ i, n >>> (8 * (i + 1)) = (n / 256) >>> (8 * i) := by
      intro i
      rw [Nat.mul_succ, Nat.add_comm, Nat.shiftRight_add, Nat.shiftRight_eq_div_pow n 8]
    have hrest := ih (n / 256)
    rw [List.range_succ_eq_map, List.map_cons, List.map_map, List.foldr_cons]
    simp only [Function.comp_def, Nat.succ_eq_add_one, hshift]
    rw [hrest, Nat.pow_succ', Nat.mod_mul]
    simp

/-- An id is read back from its bytes. -/
theorem Uuid.ofBytes_bytes (u : Uuid) : Uuid.ofBytes u.bytes = u := by
  have hlt : u.bits.toNat < 256 ^ 16 := u.bits.isLt
  unfold Uuid.ofBytes Uuid.bytes
  rw [foldr_bytes, Nat.mod_eq_of_lt hlt, BitVec.ofNat_toNat, BitVec.setWidth_eq]

/-- The provider of the example keeps the law. -/
theorem plainTokenProvider_law : TokenLaw plainTokenProvider where
  claims userId sessionId familyId now := by
    have hlength (u : Uuid) : u.bytes.length = 16 := by simp [Uuid.bytes]
    simp only [plainTokenProvider]
    rw [List.take_left' (hlength userId), List.drop_left' (hlength userId), Uuid.ofBytes_bytes,
      Uuid.ofBytes_bytes]
  nonempty _ _ _ _ := List.cons_ne_nil _ _

/-- As long as the account is there, the new token is accepted. -/
theorem issuedToken_accepted_unitUser :
    ∃ result, (refreshUnitUser signedInDb).result = .ok (.refreshed result) ∧
      AcceptedIff plainApp (refreshUnitUser signedInDb).store result.accessToken
        ⟨unitUser.id, result.sessionId⟩ True := by
  have hcheck : (match (refreshUnitUser signedInDb).result with
      | .ok (.refreshed _) => true
      | _ => false) = true := by
    decide +kernel
  have hlive : (usersSelectById unitUser.id signedInDb.users).isSome = true := by decide +kernel
  have hclaims : plainTokenProvider.refreshTokenClaims (unitToken ⟨1⟩ ⟨2⟩)
      = some ⟨unitUser.id, ⟨1⟩, some ⟨2⟩⟩ := by
    decide +kernel
  split at hcheck
  · rename_i result hresult
    obtain ⟨claims, hparsed, haccepted⟩ := (issuedToken_accepted_iff plainApp
      plainTokenProvider_law signedInDb hourSessions {} (inputsOf (refreshInputs ⟨3⟩))).2
      ⟨unitToken ⟨1⟩ ⟨2⟩⟩ result hresult
    cases hclaims.symm.trans hparsed
    simp only [hlive] at haccepted
    exact ⟨result, hresult, haccepted⟩
  · cases hcheck

end SmirklyAuth
