import SmirklyAuth.Api.EmailHandlers
import SmirklyAuth.Protocol.Refinement
import SmirklyAuth.Protocol.SoloRules

/-!
# `SmirklyAuth.Proofs.EmailSpelling`: which account an address means

`SignUp` stores the normal form of an address, and `SignIn` looks the normal form up. The
handlers of `verify-email`, `resend-email-verification` and of the two `password-reset`
endpoints pass the address on as it was typed, and the lookup only ignores the case of its
letters. `lookedUp` is the account that a call has looked up, and each of the calls looks up
one (`lookedUp_clock_find`).

So the calls agree on an address that has no spaces at its ends, and on no other
(`emailUses_resolve_stored_iff`): `SignUp` accepts ` unit@example.com`, and nobody who types
it again can verify it or reset the password (`emailUses_miss_account`).
-/

set_option autoImplicit false

namespace SmirklyAuth

open Interleaving Service

/-! ### The account of a call -/

/-- The account that a call has looked up first. -/
def lookedUp (events : List Event) : Option (Option User) :=
  events.findSome? fun
    | .foundUser user? => some user?
    | _ => none

/-- The first lookup counts. -/
@[simp] theorem lookedUp_append (events events' : List Event) :
    lookedUp (events ++ events') = (lookedUp events).or (lookedUp events') :=
  List.findSome?_append

section

variable {α : Type} {inputs : Nat → Input} {db : Db}

/-- The use cases read the clock and look the account up. -/
theorem lookedUp_clock_find (hquiet : Quiet inputs) (find : Db → Option User)
    (rest : Time → Option User → Service α) :
    lookedUp ((do
      let now ← clock
      let user? ← port .foundUser fun _ db => find db
      rest now user?).solo inputs db).events = some (find db) := by
  unfold clock
  rw [solo_port_bind (hquiet 0), solo_port_bind (hquiet.rest 0)]
  simp only [Solo.after_events, lookedUp_append]
  rfl

/-- What a handler does after its use case does not matter. -/
theorem lookedUp_tryCatch {call : Service Unit} {user? : Option User} (response : HttpResponse)
    (handler : Error → Service HttpResponse)
    (h : lookedUp (call.solo inputs db).events = some user?) :
    lookedUp ((tryCatchThe Error (do call; return response) handler).solo inputs db).events
      = some user? := by
  simp only [Prog.solo_tryCatch, Prog.solo_bind, Solo.next, Solo.after_events,
    lookedUp_append, h, Option.some_or]

end

/-- The calls that take an email address, with their other fields. -/
inductive EmailUse where
  | signIn (password : Str)
  | verifyEmail (code : Str)
  | resendEmailVerification
  | requestReset
  | confirmReset (token newPassword : Str)

/-- The other fields pass their checks. -/
def EmailUse.wellFormed (passwordPolicy : PasswordPolicy) : EmailUse → Bool
  | .signIn password => !password.isEmpty && password.length ≤ kMaxPasswordLength
  | .verifyEmail code => code.length == kVerificationCodeLength && code.all isDigitAscii
  | .resendEmailVerification => true
  | .requestReset => true
  | .confirmReset token newPassword => !token.isEmpty && token.length ≤ 512 &&
      (passwordValidate passwordPolicy newPassword).toBool

/-- The account that a call with the address `raw` looks up. -/
def EmailUse.resolves (app : App) (policies : AuthRuntimePolicies) (reqMeta : RequestMeta)
    (raw : Str) (inputs : Nat → Input) (db : Db) : EmailUse → Option (Option User)
  | .signIn password => lookedUp ((AuthenticationService.signIn app.ports policies
      { email := some raw, password } reqMeta).solo inputs db).events
  | .verifyEmail code => lookedUp ((verifyEmailHandler app.ports policies (some raw)
      (some code) reqMeta).solo inputs db).events
  | .resendEmailVerification => lookedUp ((resendEmailVerificationHandler app.ports policies
      (some raw) reqMeta).solo inputs db).events
  | .requestReset => lookedUp ((passwordResetRequestHandler app.ports policies (some raw)
      reqMeta).solo inputs db).events
  | .confirmReset token newPassword => lookedUp ((passwordResetConfirmHandler app.ports
      app.passwordPolicy policies (some raw) (some token) (some newPassword)
      reqMeta).solo inputs db).events

/-- The key that a call looks up. -/
def EmailUse.key (raw : Str) : EmailUse → Str
  | .signIn _ => Email.normalize raw
  | _ => raw

section

variable {app : App} {policies : AuthRuntimePolicies} {reqMeta : RequestMeta} {raw : Str}
  {inputs : Nat → Input} {db : Db}

/-- The shape that the handlers of the reset ask for. -/
theorem isValidEmailShape_iff :
    isValidEmailShape raw = true ↔ raw.length ≤ 320 ∧ 64 ∈ raw := by
  simp only [isValidEmailShape, Bool.and_eq_true, decide_eq_true_eq, List.contains_iff_mem]
  constructor
  · rintro ⟨⟨-, hlength⟩, hat⟩
    exact ⟨hlength, hat⟩
  · rintro ⟨hlength, hat⟩
    cases raw with
    | nil => cases hat
    | cons c cs => exact ⟨⟨rfl, hlength⟩, hat⟩

/-- A sign-in looks the account up under the normalised email. -/
theorem signIn_resolves {email : Email} (hemail : Email.create raw = .ok email)
    (hquiet : Quiet inputs) {password : Str}
    (hfields : (EmailUse.signIn password).wellFormed app.passwordPolicy = true) :
    (EmailUse.signIn password).resolves app policies reqMeta raw inputs db
      = some (usersSelectByEmail app.ports.pg (Email.normalize raw) db.users) := by
  simp only [EmailUse.wellFormed, Bool.and_eq_true, Bool.not_eq_true', decide_eq_true_eq]
    at hfields
  have hvalid : signInValidateAndNormalize { email := some raw, password }
      = .ok { email := some email.value, rateLimitIdentifier := lit "email:" ++ email.value } := by
    simp only [signInValidateAndNormalize, signInIdentifier, hemail, hfields.1,
      Nat.not_lt.mpr hfields.2]
    rfl
  simp only [EmailUse.resolves, AuthenticationService.signIn, hvalid, validated_ok_bind]
  rw [lookedUp_clock_find hquiet]
  rw [← Email.create_eq_ok.mp hemail]
  rfl

/-- A call looks up its key. -/
theorem EmailUse.resolves_eq {email : Email} (hemail : Email.create raw = .ok email)
    (hlength : raw.length ≤ 320) (hquiet : Quiet inputs) (use : EmailUse)
    (hfields : use.wellFormed app.passwordPolicy = true) :
    use.resolves app policies reqMeta raw inputs db
      = some (usersSelectByEmail app.ports.pg (use.key raw) db.users) := by
  -- an accepted address has an `@`, so it passes the checks of every handler
  have hat : 64 ∈ raw := Email.at_mem hemail
  have hshape : isValidEmailShape raw = true := isValidEmailShape_iff.mpr ⟨hlength, hat⟩
  have hnonempty : (!raw.isEmpty) = true := by simp [List.ne_nil_of_mem hat]
  have hcontains : raw.contains 64 = true := List.contains_iff_mem.mpr hat
  have hsize : ¬ 320 < raw.length := Nat.not_lt.mpr hlength
  cases use with
  | signIn password => exact signIn_resolves hemail hquiet hfields
  | verifyEmail code =>
    simp only [EmailUse.wellFormed, Bool.and_eq_true, beq_iff_eq] at hfields
    have hcode : (!code.isEmpty) = true := by
      have hne : code ≠ [] := by
        rintro rfl
        cases hfields.1
      simp [hne]
    simp only [EmailUse.resolves, verifyEmailHandler, Option.filter_some, hnonempty, hcode,
      if_true, hsize, hcontains, hfields.1, hfields.2, decide_false, Bool.not_true, Bool.or_false,
      Bool.false_eq_true, if_false, ne_eq, not_true_eq_false]
    exact lookedUp_tryCatch _ _ (lookedUp_clock_find hquiet _ _)
  | resendEmailVerification =>
    simp only [EmailUse.resolves, resendEmailVerificationHandler, Option.filter_some, hnonempty,
      if_true, hsize, hcontains, decide_false, Bool.not_true, Bool.or_false, Bool.false_eq_true,
      if_false]
    exact lookedUp_tryCatch _ _ (lookedUp_clock_find hquiet _ _)
  | requestReset =>
    simp only [EmailUse.resolves, passwordResetRequestHandler, Option.filter_some, hshape,
      if_true]
    exact lookedUp_tryCatch _ _ (lookedUp_clock_find hquiet _ _)
  | confirmReset token newPassword =>
    simp only [EmailUse.wellFormed, Bool.and_eq_true, Bool.not_eq_true', decide_eq_true_eq]
      at hfields
    obtain ⟨⟨htoken, hlong⟩, hpassword⟩ := hfields
    have hvalid : passwordValidate app.passwordPolicy newPassword = .ok () := by
      cases h : passwordValidate app.passwordPolicy newPassword with
      | ok _ => rfl
      | error what =>
        rw [h] at hpassword
        cases hpassword
    simp only [EmailUse.resolves, passwordResetConfirmHandler, hshape, htoken,
      Nat.not_lt.mpr hlong, Bool.not_true, Bool.false_eq_true, if_false, decide_false,
      Bool.or_false]
    refine lookedUp_tryCatch _ _ ?_
    simp only [PasswordService.confirmReset, hvalid, Except.mapError, validated_ok_bind]
    exact lookedUp_clock_find hquiet _ _

end

/-! ### Agreement -/

/-- The database server folds an address and its normal form to one string if and only if the
address has no spaces at its ends. -/
theorem lower_eq_lower_normalize_iff {pg : Postgres} {raw : Str}
    (hlower : ∀ s, Strings.IsAscii s → pg.lower s = Strings.toLower s)
    (hascii : Strings.IsAscii raw) (hnormal : Strings.IsAscii (Email.normalize raw)) :
    pg.lower raw = pg.lower (Email.normalize raw) ↔ Strings.trim raw = raw := by
  rw [hlower raw hascii, hlower _ hnormal, Email.normalize, Strings.toLower_toLower]
  constructor
  · -- folding keeps the length, so nothing was trimmed
    intro h
    have hlength := congrArg List.length h
    rw [Strings.length_toLower, Strings.length_toLower] at hlength
    exact Strings.trim_eq_of_length hlength
  · intro h
    rw [h]

/-- Two spellings with one lower-case form find one account. -/
theorem usersSelectByEmail_congr {pg : Postgres} {a b : Str} (h : pg.lower a = pg.lower b)
    (users : List User) : usersSelectByEmail pg a users = usersSelectByEmail pg b users := by
  simp only [usersSelectByEmail, h]

/-- Two keys that the server folds to different strings are told apart by an account. -/
theorem usersSelectByEmail_ne {pg : Postgres} {a b : Str} (h : pg.lower a ≠ pg.lower b)
    (user : User) (hemail : user.email = some b) (hdeleted : user.deletedAt = none) :
    usersSelectByEmail pg a [user] ≠ usersSelectByEmail pg b [user] := by
  have hne : ¬ pg.lower b = pg.lower a := fun heq => h heq.symm
  simp [usersSelectByEmail, hemail, hdeleted, hne]

/-- A sign-up that runs alone returns a row with its identifiers. -/
theorem signUp_solo_registered {app : App} {p : AuthRuntimePolicies} {cmd : SignUpCommand}
    {m : RequestMeta} {inputs : Nat → Input} {db : Db} {user : User}
    (h : ((IdentityService.signUp app.ports app.signUpPolicy p cmd m).solo inputs db).result
      = .ok user) : Registered app cmd user := by
  obtain ⟨-, hend, -⟩ := (signUp_obeys p cmd m).solo_invariant (J := fun _ _ => True)
    (fun _ _ _ _ _ _ => trivial) inputs db trivial
  rw [h] at hend
  generalize [] ++ _ = evs at hend
  cases hend with
  | other hregistered => exact (hregistered user rfl).1

/-- `SignUp` stores the normal form of the address, and every other call with the address as
it was typed looks the stored value up, if and only if the address has no spaces at its
ends. -/
theorem emailUses_resolve_stored_iff (app : App)
    (hlower : ∀ s, Strings.IsAscii s → app.ports.pg.lower s = Strings.toLower s)
    (cmd : SignUpCommand) (raw : Str)
    (hvalid : (signUpValidateAndNormalize app.signUpPolicy cmd).isOk = true)
    (hraw : cmd.email = some raw) (hlength : raw.length ≤ 320) :
    (∃ stored,
      (∀ policies reqMeta inputs db user,
        ((IdentityService.signUp app.ports app.signUpPolicy policies cmd reqMeta).solo inputs
          db).result = .ok user → user.email = some stored) ∧
      ∀ (use : EmailUse) policies reqMeta inputs db,
        use.wellFormed app.passwordPolicy = true → Quiet inputs →
          use.resolves app policies reqMeta raw inputs db
            = some (usersSelectByEmail app.ports.pg stored db.users)) ↔
      Strings.trim raw = raw := by
  obtain ⟨input, hinput⟩ : ∃ input, signUpValidateAndNormalize app.signUpPolicy cmd
      = .ok input := by
    cases h : signUpValidateAndNormalize app.signUpPolicy cmd with
    | ok input => exact ⟨input, rfl⟩
    | error x =>
      rw [h] at hvalid
      cases hvalid
  obtain ⟨email, hemail⟩ : ∃ email, Email.create raw = .ok email := by
    have hmap := (signUpAccepted hinput).email
    rw [hraw] at hmap
    obtain ⟨email, hemail, -⟩ := except_bind_eq_ok hmap
    exact ⟨email, hemail⟩
  have hnormal : Strings.IsAscii (Email.normalize raw) := by
    rw [← Email.create_eq_ok.mp hemail]
    exact email.isAscii
  have hiff := lower_eq_lower_normalize_iff hlower (Email.isAscii_raw hemail) hnormal
  constructor
  · -- `SignIn` and `RequestReset` agree on a database with one account
    rintro ⟨stored, -, huses⟩
    by_contra htrim
    have hne := usersSelectByEmail_ne (fun h => htrim (hiff.mp h))
      { unitUser with email := some (Email.normalize raw) } rfl rfl
    refine hne (Option.some.inj ?_)
    let db : Db := { users := [{ unitUser with email := some (Email.normalize raw) }] }
    have hquiet : Quiet fun _ => {} := fun _ => rfl
    have hsignIn := huses (.signIn [65]) {} {} _ db rfl hquiet
    have hreset := huses .requestReset {} {} _ db rfl hquiet
    rw [EmailUse.resolves_eq hemail hlength hquiet _ rfl] at hsignIn hreset
    exact hreset.trans hsignIn.symm
  · intro htrim
    refine ⟨Email.normalize raw, fun policies reqMeta inputs db user hresult => ?_,
      fun use policies reqMeta inputs db hfields hquiet => ?_⟩
    · rw [(signUp_solo_registered hresult).email, hraw]
      rfl
    · rw [EmailUse.resolves_eq hemail hlength hquiet use hfields]
      cases use with
      | signIn password => rfl
      | _ => exact congrArg some (usersSelectByEmail_congr (hiff.mpr htrim) _)

/-! ### Two spellings of one address -/

/-- A sign-up with a space before the address. -/
def spacedSignUp : SignUpCommand where
  username := "unit_user"
  password := "Passw0rd"
  email := some " unit@example.com"

/-- The account that the sign-up creates. -/
def spacedUser : User where
  id := ⟨0⟩
  username := "unit_user"
  password := "Passw0rd"
  phone := none
  email := some "unit@example.com"
  createdAt := 0
  passwordUpdatedAt := 0

/-- An address in mixed case finds the account when it is typed again. -/
theorem emailUses_resolve_mixedCase :
    EmailUse.requestReset.resolves plainApp {} {} "Unit@Example.COM" (fun _ => {})
      { users := [spacedUser] } = some (some spacedUser) := by
  let cmd : SignUpCommand :=
    { username := "unit_user", password := "Passw0rd", email := some "Unit@Example.COM" }
  obtain ⟨stored, hsignUp, huses⟩ := (emailUses_resolve_stored_iff plainApp (fun _ _ => rfl) cmd
    "Unit@Example.COM" (by decide +kernel) rfl (by decide +kernel)).mpr (by decide +kernel)
  have hstored := hsignUp {} {} (fun _ => {}) {} spacedUser (by decide +kernel)
  obtain rfl : lit "unit@example.com" = stored := Option.some.inj hstored
  rw [huses .requestReset {} {} (fun _ => {}) { users := [spacedUser] } rfl fun _ => rfl]
  decide +kernel

/-- `SignUp` accepts an address with a space before it, and `SignIn` finds the account. With
the same text the other four calls find none. -/
theorem emailUses_miss_account :
    let signedUp := (IdentityService.signUp plainApp.ports plainApp.signUpPolicy {} spacedSignUp
      {}).solo (fun _ => {}) {}
    let resolves (use : EmailUse) :=
      use.resolves plainApp {} {} " unit@example.com" (fun _ => {}) signedUp.store
    signedUp.result = .ok spacedUser ∧
      resolves (.signIn "Passw0rd") = some (some spacedUser) ∧
      resolves (.verifyEmail "123456") = some none ∧
      resolves .resendEmailVerification = some none ∧
      resolves .requestReset = some none ∧
      resolves (.confirmReset "token" "Passw0rd2") = some none := by
  decide +kernel

end SmirklyAuth
