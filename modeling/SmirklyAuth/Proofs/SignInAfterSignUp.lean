import SmirklyAuth.Protocol.Refinement
import SmirklyAuth.Protocol.SoloRules
import SmirklyAuth.Protocol.UserTable

/-!
# `SmirklyAuth.Proofs.SignInAfterSignUp`: whoever can sign up can sign in

An `Identifier` is one of the three identifiers as it was typed. Sign-up stores the normal
forms of its identifiers and sign-in looks up the normal form of the one it is given, so the
two agree on what an account is called:

* `accountsInv_of_reachable`: in every run the row of an account keeps the identifiers that
  its sign-up registered.
* `Registered.selects_iff`: the lookup of sign-in selects the row if and only if the
  identifier has the normal form of one of those of the sign-up. The lookup folds its key
  with `lower`, which changes nothing because normal forms are in lower case and ASCII.
* `signIn_solo`: what `SignIn` returns when it gets past its checks.

`signIn_after_signUp` puts them together for the policies that the application component
constructs. Sign-in limits the length of a password as sign-up does.
-/

set_option autoImplicit false

namespace SmirklyAuth

open Interleaving Service

/-! ### Identifiers -/

/-- An identifier of an account, as it was typed or in its normal form. -/
inductive Identifier where
  | username (value : Str)
  | email (value : Str)
  | phone (value : Str)
  deriving DecidableEq, Repr

namespace Identifier

/-- The identifier after normalisation. -/
def normal : Identifier → Identifier
  | .username raw => .username (Username.normalize raw)
  | .email raw => .email (Email.normalize raw)
  | .phone raw => .phone (Phone.normalize raw)

/-- The sign-in with this identifier alone. -/
def command (password : Str) : Identifier → SignInCommand
  | .username raw => { username := some raw, password }
  | .email raw => { email := some raw, password }
  | .phone raw => { phone := some raw, password }

/-- The value object of the identifier can be built. -/
def Accepted : Identifier → Prop
  | .username raw => ∃ username, Username.create raw = .ok username
  | .email raw => ∃ email, Email.create raw = .ok email
  | .phone raw => ∃ phone, Phone.create raw = .ok phone

/-- What the validator of sign-in makes of an accepted identifier. -/
def input : Identifier → NormalizedSignInInput
  | .username raw =>
      { username := some (Username.normalize raw)
        rateLimitIdentifier := lit "username:" ++ Username.normalize raw }
  | .email raw =>
      { email := some (Email.normalize raw)
        rateLimitIdentifier := lit "email:" ++ Email.normalize raw }
  | .phone raw =>
      { phone := some (Phone.normalize raw)
        rateLimitIdentifier := lit "phone:" ++ Phone.normalize raw }

/-- The condition of the three `SELECT` statements. -/
def selects (pg : Postgres) (ident : Identifier) (user : User) : Bool :=
  (match ident with
    | .username value => pg.lower user.username == pg.lower value
    | .email value => user.email.map pg.lower == some (pg.lower value)
    | .phone value => user.phone == some value) && user.deletedAt.isNone

/-- A sign-in looks for the account that has the normalised identifier. -/
theorem findSignInUser_input (pg : Postgres) (ident : Identifier) (db : Db) :
    AuthenticationService.findSignInUser pg ident.input db
      = db.users.find? (ident.normal.selects pg) := by
  cases ident <;> rfl

variable {input : NormalizedSignInInput}

/-- A value object in a `do` block, for each of the three classes. -/
theorem create_bind_eq_ok {α : Type} (create : Str → Except Str α) {value : α → Str}
    (normalize : Str → Str) (hcreate : ∀ raw a, create raw = .ok a → value a = normalize raw)
    (build : Str → NormalizedSignInInput) {raw : Str} :
    (do let a ← create raw; return build (value a)) = .ok input ↔
      (∃ a, create raw = .ok a) ∧ input = build (normalize raw) := by
  cases h : create raw with
  | error what =>
    refine ⟨fun hbind => (nomatch hbind), ?_⟩
    rintro ⟨⟨a, ha⟩, -⟩
    cases ha
  | ok a =>
    rw [← hcreate raw a h]
    constructor
    · intro hbind
      exact ⟨⟨a, rfl⟩, (Except.ok.inj hbind).symm⟩
    · rintro ⟨-, rfl⟩
      rfl

/-- The validator accepts an identifier exactly when its value object can be built. -/
theorem signInIdentifier_command {ident : Identifier} {password : Str} :
    signInIdentifier (ident.command password) = .ok input ↔
      ident.Accepted ∧ input = ident.input := by
  cases ident with
  | username raw =>
    exact create_bind_eq_ok Username.create Username.normalize (fun _ _ => Username.create_eq_ok.mp)
      fun value => { username := some value, rateLimitIdentifier := lit "username:" ++ value }
  | email raw =>
    exact create_bind_eq_ok Email.create Email.normalize (fun _ _ => Email.create_eq_ok.mp)
      fun value => { email := some value, rateLimitIdentifier := lit "email:" ++ value }
  | phone raw =>
    exact create_bind_eq_ok Phone.create Phone.normalize (fun _ _ => Phone.create_eq_ok.mp)
      fun value => { phone := some value, rateLimitIdentifier := lit "phone:" ++ value }

/-- The sign-ins that are accepted, and what is looked up. -/
theorem signInValidateAndNormalize_command {ident : Identifier} {password : Str} :
    signInValidateAndNormalize (ident.command password) = .ok input ↔
      (password ≠ [] ∧ password.length ≤ kMaxPasswordLength) ∧
        ident.Accepted ∧ input = ident.input := by
  have hsome : ((ident.command password).username.isNone &&
      (ident.command password).email.isNone && (ident.command password).phone.isNone)
        = false := by
    cases ident <;> rfl
  have hpassword : (ident.command password).password = password := by
    cases ident <;> rfl
  unfold signInValidateAndNormalize
  rw [hsome, hpassword, if_neg Bool.false_ne_true]
  by_cases hempty : password = []
  · simp [hempty]
  · rw [if_neg (by simpa using hempty)]
    by_cases hlong : kMaxPasswordLength < password.length
    · simp [hlong, Nat.not_le.mpr hlong]
    · rw [if_neg hlong, except_mapError_eq_ok, signInIdentifier_command]
      simp [hempty, Nat.not_lt.mp hlong]

end Identifier

/-- The identifiers of a sign-up, as they were typed. -/
def SignUpCommand.identifiers (cmd : SignUpCommand) : List Identifier :=
  .username cmd.username :: ((cmd.email.map .email).toList ++ (cmd.phone.map .phone).toList)

/-- The identifier has the normal form of one of those of the sign-up. -/
def SignUpCommand.Names (cmd : SignUpCommand) (ident : Identifier) : Prop :=
  ident.normal ∈ cmd.identifiers.map Identifier.normal

section

variable {app : App} {cmd : SignUpCommand} {ident : Identifier} {account : User}

/-- The account is called what the sign-up was called. -/
theorem Registered.names_iff (h : Registered app cmd account) :
    cmd.Names ident ↔ match ident.normal with
      | .username value => account.username = value
      | .email value => account.email = some value
      | .phone value => account.phone = some value := by
  unfold SignUpCommand.Names SignUpCommand.identifiers
  rw [h.username, h.email, h.phone]
  cases ident with
  | username raw =>
    simp only [Identifier.normal, List.map_cons, List.mem_cons]
    simp [Identifier.normal, eq_comm]
  | email raw => simp [Identifier.normal]
  | phone raw => simp [Identifier.normal]

/-- The identifiers of the account are values of value objects. -/
theorem Registered.username_value (h : Registered app cmd account) :
    ∃ username : Username, username.value = account.username := by
  obtain ⟨input, hinput⟩ := h.accepted
  refine ⟨input.username, ?_⟩
  rw [h.username]
  exact Username.create_eq_ok.mp (signUpAccepted hinput).username

/-- The email of a new account is normalised. -/
theorem Registered.email_value (h : Registered app cmd account) {value : Str}
    (hvalue : account.email = some value) :
    ∃ email : Email, email.value = value ∧ ∃ raw, value = Email.normalize raw := by
  obtain ⟨input, hinput⟩ := h.accepted
  have hmap := map_value_of_mapM (fun _ _ => Email.create_eq_ok.mp) (signUpAccepted hinput).email
  rw [← h.email, hvalue] at hmap
  obtain ⟨email, -, hemail⟩ := Option.map_eq_some_iff.mp hmap
  obtain ⟨raw, -, hraw⟩ := Option.map_eq_some_iff.mp (h.email.symm.trans hvalue)
  exact ⟨email, hemail, raw, hraw.symm⟩

/-- The phone number of a new account is normalised. -/
theorem Registered.phone_value (h : Registered app cmd account) {value : Str}
    (hvalue : account.phone = some value) : ∃ phone : Phone, phone.value = value := by
  obtain ⟨input, hinput⟩ := h.accepted
  have hmap := map_value_of_mapM (fun _ _ => Phone.create_eq_ok.mp) (signUpAccepted hinput).phone
  rw [← h.phone, hvalue] at hmap
  obtain ⟨phone, -, hphone⟩ := Option.map_eq_some_iff.mp hmap
  exact ⟨phone, hphone⟩

/-- Every spelling of an identifier of the account is accepted. -/
theorem Registered.accepted_of_names (h : Registered app cmd account)
    (hnames : cmd.Names ident) : ident.Accepted := by
  rw [h.names_iff] at hnames
  cases ident with
  | username raw =>
    obtain ⟨username, husername⟩ := h.username_value
    exact ⟨username, Username.create_eq_ok.mpr (husername.trans hnames)⟩
  | email raw =>
    obtain ⟨email, hemail, -⟩ := h.email_value hnames
    exact ⟨email, Email.create_eq_ok.mpr hemail⟩
  | phone raw =>
    obtain ⟨phone, hphone⟩ := h.phone_value hnames
    exact ⟨phone, Phone.create_eq_ok.mpr hphone⟩

/-- The lookup selects the account exactly for the identifiers of its sign-up. -/
theorem Registered.selects_iff (h : Registered app cmd account) {pg : Postgres}
    (hlower : ∀ s, Strings.IsAscii s → pg.lower s = Strings.toLower s)
    (haccepted : ident.Accepted) :
    ident.normal.selects pg account = true ↔ cmd.Names ident ∧ account.deletedAt = none := by
  unfold Identifier.selects
  rw [h.names_iff, Bool.and_eq_true, Option.isNone_iff_eq_none]
  refine and_congr_left fun _ => ?_
  -- both sides of the comparison are normal forms, which `lower` leaves as they are
  cases ident with
  | username raw =>
    obtain ⟨username, husername⟩ := h.username_value
    obtain ⟨username', hcreate⟩ := haccepted
    have hstored : pg.lower account.username = account.username :=
      lower_normal hlower h.username (husername ▸ username.isAscii)
    have hgiven : pg.lower (Username.normalize raw) = Username.normalize raw :=
      lower_normal hlower rfl (Username.create_eq_ok.mp hcreate ▸ username'.isAscii)
    simp only [Identifier.normal, hstored, hgiven, beq_iff_eq]
  | email raw =>
    obtain ⟨email', hcreate⟩ := haccepted
    have hgiven : pg.lower (Email.normalize raw) = Email.normalize raw :=
      lower_normal hlower rfl (Email.create_eq_ok.mp hcreate ▸ email'.isAscii)
    have hstored : account.email.map pg.lower = account.email := by
      cases hvalue : account.email with
      | none => rfl
      | some value =>
        obtain ⟨email, hemail, raw', hraw⟩ := h.email_value hvalue
        exact congrArg some (lower_normal hlower hraw (hemail ▸ email.isAscii))
    simp only [Identifier.normal, hstored, hgiven, beq_iff_eq]
  -- phone numbers are compared without `lower`
  | phone raw => simp only [Identifier.normal, beq_iff_eq]

end

/-! ### Accounts in a run -/

/-- The account of every sign-up that has committed is in the table, with the identifiers of
the sign-up. -/
structure AccountsInv (app : App) (s : SysState) : Prop where
  nodup : (s.store.users.map (·.id)).Nodup
  registered : ∀ c p cmd m prog id, s.calls c = some ⟨⟨p, .signUp cmd m⟩, prog⟩ →
    (c, .committed (.signedUp id)) ∈ s.trace →
    ∃ u ∈ s.store.users, u.id = id ∧ Registered app cmd u

section

variable {app : App} {cmd : SignUpCommand} {u : User}

/-- An update that does not write the identifiers. -/
theorem Registered.apply (h : Registered app cmd u) {w : Sql.Update User}
    (husername : w.Keeps (·.username)) (hemail : w.Keeps (·.email))
    (hphone : w.Keeps (·.phone)) : Registered app cmd (w.apply u) where
  accepted := h.accepted
  username := (husername.apply u).trans h.username
  email := (hemail.apply u).trans h.email
  phone := (hphone.apply u).trans h.phone

/-- Every transaction keeps the identifiers of an account. -/
theorem UsersCommit.keeps_registered {t : TxEvent} {users users' : List User}
    (h : UsersCommit t users users') (hu : u ∈ users) (hregistered : Registered app cmd u) :
    ∃ u' ∈ users', u'.id = u.id ∧ Registered app cmd u' := by
  cases h with
  | joined _ => exact ⟨u, List.mem_append_left _ hu, rfl, hregistered⟩
  | @verified _ userId =>
    have hid : (usersSetEmailVerified userId true).Keeps (·.id) := fun _ => rfl
    exact ⟨_, Sql.Update.apply_mem_run hu, hid.apply u,
      hregistered.apply (fun _ => rfl) (fun _ => rfl) fun _ => rfl⟩
  | @password _ userId hash now _ _ =>
    have hid : (usersUpdatePasswordHash now userId hash).Keeps (·.id) := fun _ => rfl
    exact ⟨_, Sql.Update.apply_mem_run hu, hid.apply u,
      hregistered.apply (fun _ => rfl) (fun _ => rfl) fun _ => rfl⟩
  | unchanged _ => exact ⟨u, hu, rfl, hregistered⟩

/-- Every step keeps the ids unique and the identifiers of the accounts. -/
theorem accounts_step {r : Request} {evs : List Event} {e : Event} {db db' : Db}
    (hstep : ProtocolStep app r evs e db db') (hnodup : (db.users.map (·.id)).Nodup) :
    (db'.users.map (·.id)).Nodup ∧ ∀ cmd, ∀ u ∈ db.users, Registered app cmd u →
      ∃ u' ∈ db'.users, u'.id = u.id ∧ Registered app cmd u' := by
  cases hstep with
  | aborted _ => exact ⟨hnodup, fun _ u hu h => ⟨u, hu, rfl, h⟩⟩
  | read _ => exact ⟨hnodup, fun _ u hu h => ⟨u, hu, rfl, h⟩⟩
  | committed hcommit =>
    have husers := users_commit hcommit
    exact ⟨husers.nodup hnodup, fun _ u hu h => husers.keeps_registered hu h⟩

end

variable {s : SysState} {ports : Ports} {reqMeta : RequestMeta} {db : Db} {pg : Postgres}
    {user : User}

/-- The accounts have different ids in every state that is reached. -/
theorem users_nodup_of_reachable {app : App} {A : SysAdmission}
    (hs : Reachable app.run A (fun db => (db.users.map (·.id)).Nodup) s) :
    (s.store.users.map (·.id)).Nodup := by
  refine Reachable.invariant (J := fun db _ => (db.users.map (·.id)).Nodup) (app_refines app)
    (fun _ hnodup => hnodup) ?_ hs
  intro s db c r e hnodup _ _ hstep
  exact (accounts_step hstep hnodup).1

/-- The invariant holds in every reachable state. -/
theorem accountsInv_of_reachable {app : App} {A : SysAdmission}
    (hs : Reachable app.run A (fun db => (db.users.map (·.id)).Nodup) s) :
    AccountsInv app s := by
  refine ⟨users_nodup_of_reachable hs, ?_⟩
  have hevents := Reachable.event_invariant
    (F := fun r e db => ∀ cmd m id, r.command = .signUp cmd m → e = .committed (.signedUp id) →
      ∃ u ∈ db.users, u.id = id ∧ Registered app cmd u)
    (app_refines app) ?_ ?_ hs
  · intro c p cmd m prog id hcall hmem
    exact hevents c _ hcall _ (mem_own.mpr hmem) cmd m id rfl rfl
  · intro s db c r e hs hstep r' e' hfact cmd m id hr he
    obtain ⟨u, hu, hid, hregistered⟩ := hfact cmd m id hr he
    obtain ⟨u', hu', hid', hregistered'⟩ :=
      (accounts_step hstep (users_nodup_of_reachable hs)).2 cmd u hu hregistered
    exact ⟨u', hu', hid'.trans hid, hregistered'⟩
  · -- the sign-up commits in this step
    rintro s db c ⟨p, command⟩ e _ _ hstep cmd m id rfl rfl
    have hcommit := ProtocolStep.commits hstep
    generalize own c s.trace = evs at hcommit
    cases hcommit with
    | signedUp _ hregistered htx => exact ⟨_, mem_of_signUpTx htx, rfl, hregistered⟩

/-- A sign-up that has returned an account has committed it. -/
theorem committed_of_signedUp {app : App} {A : SysAdmission} {I : Db → Prop}
    (hs : Reachable app.run A I s) {c : Nat} {p : AuthRuntimePolicies} {cmd : SignUpCommand}
    {m : RequestMeta} (hcall : s.calls c = some ⟨⟨p, .signUp cmd m⟩, .done (.signedUp user)⟩) :
    .committed (.signedUp user.id) ∈ own c s.trace := by
  have hfinish := (hs.finish (app_refines app) hcall).1
  generalize own c s.trace = evs at hfinish ⊢
  cases hfinish with
  | other h => exact (h user rfl).2

/-! ### `SignIn` in a state -/

/-- A sign-in that returns an account has looked it up with its identifier. -/
theorem signIn_ensures_found {policies : AuthRuntimePolicies}
    {cmd : SignInCommand} :
    (AuthenticationService.signIn ports policies cmd reqMeta).Ensures db fun result _ =>
      ∀ r, result = .ok r → ∃ input, signInValidateAndNormalize cmd = .ok input ∧
        AuthenticationService.findSignInUser ports.pg input db = some r.user := by
  unfold AuthenticationService.signIn
  refine ensures_validated_bind (fun _ _ h => nomatch h) fun input hin => ?_
  refine ensures_port_bind (fun _ _ h => nomatch h) fun i => ?_
  refine ensures_port_bind (fun _ _ h => nomatch h) fun _ => ?_
  refine ensures_port_bind (fun _ _ h => nomatch h) fun _ => ?_
  refine ensures_orThrow_bind (fun _ _ h => nomatch h) fun counters _ => ?_
  refine ensures_throwIf_bind (fun _ _ h => nomatch h) fun _ => ?_
  -- a recorded attempt ends with an exception
  have hrecord : ∀ userId error,
      (do
        AuthenticationService.recordFailedAttempt ports.pg policies.signIn
          input.rateLimitIdentifier userId reqMeta i.now
          (i.now.minus policies.signIn.rateLimitWindow)
        throw error : Service SignInResult).Ensures db fun result _ =>
          ∀ r, result = .ok r → ∃ input, signInValidateAndNormalize cmd = .ok input ∧
            AuthenticationService.findSignInUser ports.pg input db = some r.user := by
    intro userId error
    exact ensures_transaction_bind (fun _ _ h => nomatch h) fun _ _ _ _ =>
      Prog.ensures_throw fun _ h => nomatch h
  cases hfind : AuthenticationService.findSignInUser ports.pg input db with
  | none => exact hrecord _ _
  | some user =>
    refine ensures_port_bind (fun _ _ h => nomatch h) fun _ => ?_
    split
    · exact hrecord _ _
    · split
      · exact hrecord _ _
      · unfold AuthenticationService.openSession AuthenticationService.generateId
        iterate 4 refine ensures_port_bind (fun _ _ h => nomatch h) fun _ => ?_
        refine ensures_transaction_bind (fun _ _ h => nomatch h) fun _ session _ _ => ?_
        refine Prog.ensures_pure fun r h => ?_
        cases h
        exact ⟨input, hin, hfind⟩

/-- No limit of sign-in is reached, and the address of the request is well formed. -/
def underSignInLimits (pg : Postgres) (policy : SignInPolicy) (identifier : Str)
    (userId : Uuid) (reqMeta : RequestMeta) (now : Time) (db : Db) : Bool :=
  (SignInAttemptRepository.countRecentAttempts pg identifier (some userId) reqMeta.ip
    (now.minus policy.rateLimitWindow) db).any fun counters =>
      !AuthenticationService.signInLimitsExceeded policy counters

/-- The identifiers that the environment draws for a new session and its device are new. -/
structure FreshSession (inputs : Nat → Input) (db : Db) : Prop where
  session : (inputs 4).generatedId ∉ db.sessions.map (·.id)
  device : (inputs 8).newDeviceId ∉ db.devices.map (·.id)

/-- A device with a new id is inserted. -/
theorem DeviceRepository.insert_ok {i : Input} (data : NewDeviceData)
    (hdevice : i.newDeviceId ∉ db.devices.map (·.id)) :
    ∃ device, DeviceRepository.insert i data db
      = .ok (device, { db with devices := db.devices ++ [device] }) := by
  have hnew : ∀ d ∈ db.devices, ¬ d.id = i.newDeviceId :=
    fun d hd h => hdevice (h ▸ List.mem_map_of_mem hd)
  unfold DeviceRepository.insert
  simp only
  rw [if_neg (by simpa using hnew)]
  exact ⟨_, rfl⟩

/-- A session with a new id and an address that is one is inserted. -/
theorem SessionRepository.insert_ok (i : Input) (data : NewSessionData) (db : Db)
    (hip : (pg.inetArg data.ip).isSome = true) (hsession : data.id ∉ db.sessions.map (·.id)) :
    ∃ session db', SessionRepository.insert pg i data db = .ok (session, db') := by
  obtain ⟨ip, hip⟩ := Option.isSome_iff_exists.mp hip
  have hnew : ∀ r ∈ db.sessions, ¬ r.id = data.id :=
    fun r hr h => hsession (h ▸ List.mem_map_of_mem hr)
  have hinsert : sessionsInsert (SessionRepository.newRow i data ip) db.sessions
      = some (db.sessions ++ [SessionRepository.newRow i data ip]) :=
    if_neg (by simpa [SessionRepository.newRow] using hnew)
  unfold SessionRepository.insert
  simp only [hip, hinsert]
  exact ⟨_, _, rfl⟩

/-- The transaction of a sign-in with new identifiers commits. -/
theorem signInTx_ok {policy : SessionPolicy} {userId sessionId familyId : Uuid} {hash : Str}
    {i : Input} (hip : (pg.inetArg reqMeta.ip).isSome = true)
    (hsession : sessionId ∉ db.sessions.map (·.id))
    (hdevice : i.newDeviceId ∉ db.devices.map (·.id)) :
    ∃ session db', AuthenticationService.signInTx pg policy userId reqMeta sessionId familyId
      hash i db = .ok (session, db') := by
  obtain ⟨device, hinsert⟩ := DeviceRepository.insert_ok (DeviceFactory.webDevice userId) hdevice
  let data := SessionFactory.createForSignIn i.now sessionId userId device.id hash familyId
    reqMeta policy.refreshTokenTtl
  obtain ⟨session, db', hopen⟩ := SessionRepository.insert_ok i data
    { db with devices := db.devices ++ [device] } hip hsession
  exact ⟨session, db', Tx.bind_eq_ok.mpr ⟨device, _, hinsert, hopen⟩⟩

/-- A session that is opened alone, from its token to its result. -/
theorem openSession_solo {policy : SessionPolicy} {inputs : Nat → Input} (hquiet : Quiet inputs)
    (hip : (ports.pg.inetArg reqMeta.ip).isSome = true)
    (hsession : (inputs 0).generatedId ∉ db.sessions.map (·.id))
    (hdevice : (inputs 4).newDeviceId ∉ db.devices.map (·.id)) :
    ∃ r, ((AuthenticationService.openSession ports policy user reqMeta).solo inputs db).result
      = .ok r ∧ r.user = user := by
  unfold AuthenticationService.openSession AuthenticationService.generateId
  rw [solo_port_bind (hquiet 0), solo_port_bind (hquiet.rest 0),
    solo_port_bind (hquiet.rest.rest 0), solo_port_bind (hquiet.rest.rest.rest 0)]
  simp only [Solo.after_result]
  generalize (Solo.rest inputs 0).generatedId = familyId
  generalize ports.tokenProvider.generateTokens _ _ _ _ = tokens
  generalize ports.refreshTokenHasher.hash _ = hash
  have hcommits : ∃ session db', AuthenticationService.signInTx ports.pg policy user.id reqMeta
      (inputs 0).generatedId familyId hash (inputs 4) db = .ok (session, db') :=
    signInTx_ok hip hsession hdevice
  obtain ⟨session, db', htx⟩ := hcommits
  rw [solo_transaction_bind_ok (hquiet.rest.rest.rest.rest 0) htx]
  exact ⟨_, rfl, rfl⟩

/-- What a sign-in returns when it gets past its checks. -/
theorem signIn_solo {policies : AuthRuntimePolicies} {cmd : SignInCommand}
    {inputs : Nat → Input} {input : NormalizedSignInInput} (hquiet : Quiet inputs)
    (hin : signInValidateAndNormalize cmd = .ok input)
    (hfind : AuthenticationService.findSignInUser ports.pg input db = some user)
    (hlimits : underSignInLimits ports.pg policies.signIn input.rateLimitIdentifier user.id
      reqMeta (inputs 0).now db = true)
    (hverify : ports.passwordHasher.verify cmd.password user.password = true)
    (hemail : user.email.isSome = true → user.isEmailVerified = true)
    (hfresh : FreshSession inputs db) :
    ∃ r, ((AuthenticationService.signIn ports policies cmd reqMeta).solo inputs db).result
      = .ok r ∧ r.user = user := by
  unfold underSignInLimits at hlimits
  cases hcount : SignInAttemptRepository.countRecentAttempts ports.pg input.rateLimitIdentifier
    (some user.id) reqMeta.ip ((inputs 0).now.minus policies.signIn.rateLimitWindow) db with
  | none =>
    rw [hcount] at hlimits
    cases hlimits
  | some counters =>
    rw [hcount, Option.any_some, Bool.not_eq_true'] at hlimits
    have hip : (ports.pg.inetArg reqMeta.ip).isSome = true := by
      obtain ⟨ip, hip, -⟩ := Option.map_eq_some_iff.mp hcount
      rw [hip]
      rfl
    unfold AuthenticationService.signIn clock
    -- clock, lookup, count, password check: the first four inputs
    rw [hin, validated_ok_bind, solo_port_bind (hquiet 0), solo_port_bind (hquiet.rest 0)]
    simp only [Solo.after_result, hfind, Option.map_some]
    rw [solo_port_bind (hquiet.rest.rest 0)]
    simp only [hcount, orThrow_some_bind, hlimits, throwIf_false_bind, Solo.after_result]
    rw [solo_port_bind (hquiet.rest.rest.rest 0)]
    -- an account without an address needs no verification
    have hunverified : (policies.signIn.requireVerifiedEmail && user.email.isSome &&
        !user.isEmailVerified) = false := by
      cases hsome : user.email.isSome with
      | false => rw [Bool.and_false, Bool.false_and]
      | true => rw [hemail hsome, Bool.not_true, Bool.and_false]
    simp only [hverify, hunverified, Bool.not_true, Bool.false_eq_true, if_false,
      Solo.after_result]
    exact openSession_solo hquiet.rest.rest.rest.rest hip hfresh.session hfresh.device

/-! ### Both together -/

/-- The command and the account of a `SignUp` call that has returned. -/
def signedUpAs (s : SysState) (c : Nat) : Option (SignUpCommand × User) :=
  match s.calls c with
  | some ⟨⟨_, .signUp cmd _⟩, .done (.signedUp user)⟩ => some (cmd, user)
  | _ => none

/-- A call that has signed an account up. -/
theorem signedUpAs_eq_some {c : Nat} {cmd : SignUpCommand}
    (h : signedUpAs s c = some (cmd, user)) :
    ∃ p m, s.calls c = some ⟨⟨p, .signUp cmd m⟩, .done (.signedUp user)⟩ := by
  unfold signedUpAs at h
  split at h
  · rename_i p cmd' m user' hcall
    cases h
    exact ⟨p, m, hcall⟩
  · cases h

/-- Two accounts that are not deleted have no value of the index in common. -/
def UniqueIndex (key : User → Option Str) (users : List User) : Prop :=
  ∀ u ∈ users, ∀ v ∈ users, u.deletedAt = none → v.deletedAt = none →
    ∀ k, key u = some k → key v = some k → u = v

/-- The unique indexes of `0007_add_users_uniqueness`. -/
structure UsersIndexes (pg : Postgres) (users : List User) : Prop where
  username : UniqueIndex (fun u => some (pg.lower u.username)) users
  email : UniqueIndex (fun u => u.email.map pg.lower) users
  phone : UniqueIndex (·.phone) users

/-- An identifier selects at most one account. -/
theorem UsersIndexes.eq_of_selects {users : List User}
    (h : UsersIndexes pg users) {ident : Identifier} {u v : User} (hu : u ∈ users)
    (hv : v ∈ users) (hselects : ident.selects pg u = true)
    (hselects' : ident.selects pg v = true) : u = v := by
  simp only [Identifier.selects, Bool.and_eq_true, Option.isNone_iff_eq_none]
    at hselects hselects'
  obtain ⟨hkey, hactive⟩ := hselects
  obtain ⟨hkey', hactive'⟩ := hselects'
  cases ident with
  | username value =>
    exact h.username u hu v hv hactive hactive' (pg.lower value)
      (congrArg some (beq_iff_eq.mp hkey)) (congrArg some (beq_iff_eq.mp hkey'))
  | email value =>
    exact h.email u hu v hv hactive hactive' _ (beq_iff_eq.mp hkey) (beq_iff_eq.mp hkey')
  | phone value =>
    exact h.phone u hu v hv hactive hactive' _ (beq_iff_eq.mp hkey) (beq_iff_eq.mp hkey')

/-- The lookup finds the one account that the identifier selects. -/
theorem UsersIndexes.find_eq {users : List User} (h : UsersIndexes pg users)
    {ident : Identifier} {account : User} (hmem : account ∈ users)
    (hselects : ident.selects pg account = true) :
    users.find? (ident.selects pg) = some account := by
  have hsome : (users.find? (ident.selects pg)).isSome = true :=
    List.find?_isSome.mpr ⟨account, hmem, hselects⟩
  obtain ⟨u, hu⟩ := Option.isSome_iff_exists.mp hsome
  have hmem' := List.mem_of_find?_eq_some hu
  rw [hu, h.eq_of_selects hmem' hmem (List.find?_some hu) hselects]

/-- A password that sign-up accepts is one that sign-in accepts. -/
theorem passwordValidate_default {password : Str} (h : passwordValidate {} password = .ok ()) :
    password ≠ [] ∧ password.length ≤ kMaxPasswordLength := by
  unfold passwordValidate at h
  split at h
  · cases h
  rename_i hempty
  split at h
  · cases h
  split at h
  · cases h
  rename_i hlong
  exact ⟨by simpa using hempty, Nat.not_lt.mp hlong⟩

/-- In every state of a run after a sign-up has returned: if the account has the password of
the sign-up and is neither deleted nor unverified, then every spelling of each identifier of
the sign-up signs in to it. No other identifier signs in to it, with any password. -/
theorem signIn_after_signUp (app : App) (hpolicy : app.signUpPolicy = {})
    (hlower : ∀ s, Strings.IsAscii s → app.ports.pg.lower s = Strings.toLower s)
    (hhasher : ∀ password salt, app.ports.passwordHasher.verify password
      (app.ports.passwordHasher.hash password salt) = true)
    (A : SysAdmission) (s : SysState)
    (hs : Reachable app.run A (fun db => (db.users.map (·.id)).Nodup) s)
    (c : Nat) (cmd : SignUpCommand) (user : User) (hsignedUp : signedUpAs s c = some (cmd, user))
    (account : User) (haccount : account ∈ s.store.users) (hid : account.id = user.id)
    (hindexes : UsersIndexes app.ports.pg s.store.users) :
    (account.deletedAt = none →
      (∃ salt, account.password = app.ports.passwordHasher.hash cmd.password salt) →
      (account.email.isSome = true → account.isEmailVerified = true) →
      ∀ (ident : Identifier) policies reqMeta inputs, cmd.Names ident → Quiet inputs →
        FreshSession inputs s.store →
        underSignInLimits app.ports.pg policies.signIn ident.input.rateLimitIdentifier
          account.id reqMeta (inputs 0).now s.store = true →
        ∃ r, ((AuthenticationService.signIn app.ports policies (ident.command cmd.password)
          reqMeta).solo inputs s.store).result = .ok r ∧ r.user = account) ∧
    ∀ (ident : Identifier) password policies reqMeta inputs r, ¬ cmd.Names ident →
      ((AuthenticationService.signIn app.ports policies (ident.command password)
        reqMeta).solo inputs s.store).result = .ok r → r.user.id ≠ user.id := by
  have hinv := accountsInv_of_reachable hs
  obtain ⟨p, m, hcall⟩ := signedUpAs_eq_some hsignedUp
  have hcommitted := committed_of_signedUp hs hcall
  obtain ⟨row, hrow, hrowId, hrowRegistered⟩ :=
    hinv.registered c p cmd m _ user.id hcall (mem_own.mp hcommitted)
  -- the row of the sign-up is the only one with its id
  have hregistered : ∀ u ∈ s.store.users, u.id = user.id → Registered app cmd u := by
    intro u hu huId
    rw [List.inj_on_of_nodup_map hinv.nodup hu hrow (huId.trans hrowId.symm)]
    exact hrowRegistered
  constructor
  · intro hactive ⟨salt, hpassword⟩ hverified ident policies reqMeta inputs hnames hquiet hfresh
      hlimits
    have hname := hregistered account haccount hid
    have haccepted := hname.accepted_of_names hnames
    have hselects := (hname.selects_iff hlower haccepted).mpr ⟨hnames, hactive⟩
    obtain ⟨input, hinput⟩ := hname.accepted
    have hvalid := (signUpAccepted hinput).password
    rw [hpolicy] at hvalid
    have hin := Identifier.signInValidateAndNormalize_command.mpr
      ⟨passwordValidate_default hvalid, haccepted, rfl⟩
    have hverify : app.ports.passwordHasher.verify (ident.command cmd.password).password
        account.password = true := by
      rw [hpassword]
      cases ident <;> exact hhasher _ _
    refine signIn_solo hquiet hin ?_ hlimits hverify hverified hfresh
    rw [Identifier.findSignInUser_input]
    exact hindexes.find_eq haccount hselects
  · intro ident password policies reqMeta inputs r hnames hresult hrId
    obtain ⟨input, hin, hfind⟩ := signIn_ensures_found inputs r hresult
    obtain ⟨-, haccepted, rfl⟩ := Identifier.signInValidateAndNormalize_command.mp hin
    rw [Identifier.findSignInUser_input] at hfind
    have hname := hregistered r.user (List.mem_of_find?_eq_some hfind) hrId
    exact hnames ((hname.selects_iff hlower haccepted).mp (List.find?_some hfind)).1

/-- A sign-up with a phone number. -/
def phoneSignUp : SignUpCommand where
  username := "Unit_User"
  password := "Passw0rd"
  phone := some "+1 234 567-89-01"

/-- The account that the sign-up creates. -/
def phoneUser : User where
  id := ⟨0⟩
  username := "unit_user"
  password := "Passw0rd"
  phone := some "+12345678901"
  email := none
  createdAt := 0
  passwordUpdatedAt := 0

/-- After the sign-up another spelling of the phone number signs in. -/
theorem signIn_after_signUp_phone :
    ∃ s : SysState, signedUpAs s 1 = some (phoneSignUp, phoneUser) ∧
      ∃ r, ((AuthenticationService.signIn plainApp.ports {}
        ((Identifier.phone " (+1) 2345678901").command "Passw0rd") {}).solo (fun _ => {})
          s.store).result = .ok r ∧ r.user = phoneUser := by
  obtain ⟨s, hs, hsignedUp, hstore⟩ := exists_reachable_of_replay (M := plainApp.run)
    (A := anyRun) (I := fun db : Db => (db.users.map (·.id)).Nodup) (d := {})
    (.start 1 ⟨{}, .signUp phoneSignUp {}⟩ :: acts 1 [{}, {}, {}, {}])
    (fun s => signedUpAs s 1 = some (phoneSignUp, phoneUser) ∧ s.store = { users := [phoneUser] })
    List.nodup_nil (by decide +kernel)
  have hindexes : UsersIndexes plainApp.ports.pg s.store.users := by
    have hone : ∀ key, UniqueIndex key [phoneUser] := by
      intro key u hu v hv _ _ _ _ _
      rw [List.mem_singleton.mp hu, List.mem_singleton.mp hv]
    rw [hstore]
    exact ⟨hone _, hone _, hone _⟩
  have hall := signIn_after_signUp plainApp rfl (fun _ _ => rfl) (fun _ _ => beq_self_eq_true _)
    anyRun s hs 1 phoneSignUp phoneUser hsignedUp phoneUser (by rw [hstore]; exact .head _) rfl
    hindexes
  refine ⟨s, hsignedUp, hall.1 rfl ⟨[], rfl⟩ (fun h => nomatch h) _ {} {} _ ?_ (fun _ => rfl)
    ?_ ?_⟩
  · unfold SignUpCommand.Names
    decide +kernel
  · rw [hstore]
    exact ⟨List.not_mem_nil, List.not_mem_nil⟩
  · rw [hstore]
    decide +kernel

end SmirklyAuth
