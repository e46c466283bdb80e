import SmirklyAuth.Infra.AddressTexts
import SmirklyAuth.Infra.Workers.EmailOutboxProcessor
import SmirklyAuth.Lib.Interleaving
import SmirklyAuth.Services.AuthenticationService
import SmirklyAuth.Services.IdentityService
import SmirklyAuth.Services.PasswordService
import SmirklyAuth.Services.SessionService

/-!
# `SmirklyAuth.System`: the service as a system of concurrent calls

`App.run` is the program of a request. A run of the system starts any number of requests
and interleaves their steps (`Interleaving.Reachable`). A `Request` carries the policies
that `AuthRuntimePolicyProvider::Get` returned to it, so a run with a fixed policy is a run
whose requests all carry it.

`Seed` is the database at the start of a run: accounts, and no sessions, codes, attempts or
mail jobs. `App.admission` is the assumption of every run: a generated session or family id
has not been generated before.
-/

set_option autoImplicit false

namespace SmirklyAuth

open Interleaving

/-- The ports of `AuthApplicationComponent` and the constant policies of its services. -/
structure App where
  ports : Ports
  passwordPolicy : PasswordPolicy := {}
  signUpPolicy : SignUpPolicy := {}

/-- The use cases, and one run of the outbox worker. -/
inductive Command where
  | signUp (cmd : SignUpCommand) (reqMeta : RequestMeta)
  | verifyEmail (cmd : VerifyEmailCommand) (reqMeta : RequestMeta)
  | resendEmailVerification (cmd : ResendEmailVerificationCommand) (reqMeta : RequestMeta)
  | getCurrentUser (context : AuthContext)
  | signIn (cmd : SignInCommand) (reqMeta : RequestMeta)
  | refresh (cmd : RefreshCommand) (reqMeta : RequestMeta)
  | authenticateAccessToken (accessToken : Str)
  | listSessions (context : AuthContext)
  | revokeSession (context : AuthContext) (sessionId : Uuid)
  | revokeCurrentSession (context : AuthContext)
  | revokeAllSessions (context : AuthContext)
  | changePassword (context : AuthContext) (cmd : ChangePasswordCommand)
  | requestReset (cmd : RequestPasswordResetCommand) (reqMeta : RequestMeta)
  | confirmReset (cmd : ConfirmPasswordResetCommand) (reqMeta : RequestMeta)
  | tick (cfg : EmailOutboxRuntimeConfig)

/-- A command and the policies that its call read. -/
structure Request where
  policies : AuthRuntimePolicies := {}
  command : Command

/-- The results of the commands. -/
inductive Response where
  | signedUp (user : User)
  | me (result : MeResult)
  | signedIn (result : SignInResult)
  | refreshed (result : RefreshResult)
  | authenticated (context : AuthContext)
  | sessions (sessions : List Session)
  | done

/-- The program of a request. -/
def App.run (app : App) (r : Request) : Service Response :=
  match r.command with
  | .signUp cmd reqMeta => do
      return .signedUp (← IdentityService.signUp app.ports app.signUpPolicy r.policies cmd
        reqMeta)
  | .verifyEmail cmd reqMeta => do
      IdentityService.verifyEmail app.ports r.policies cmd reqMeta
      return .done
  | .resendEmailVerification cmd reqMeta => do
      IdentityService.resendEmailVerification app.ports r.policies cmd reqMeta
      return .done
  | .getCurrentUser context => do
      return .me (← IdentityService.getCurrentUser context)
  | .signIn cmd reqMeta => do
      return .signedIn (← AuthenticationService.signIn app.ports r.policies cmd reqMeta)
  | .refresh cmd reqMeta => do
      return .refreshed (← AuthenticationService.refresh app.ports r.policies cmd reqMeta)
  | .authenticateAccessToken accessToken => do
      return .authenticated (← AuthenticationService.authenticateAccessToken app.ports
        r.policies accessToken)
  | .listSessions context => do
      return .sessions (← SessionService.listSessions app.ports context)
  | .revokeSession context sessionId => do
      SessionService.revokeSession app.ports context sessionId
      return .done
  | .revokeCurrentSession context => do
      SessionService.revokeCurrentSession app.ports context
      return .done
  | .revokeAllSessions context => do
      SessionService.revokeAllSessions context
      return .done
  | .changePassword context cmd => do
      PasswordService.changePassword app.ports app.passwordPolicy context cmd
      return .done
  | .requestReset cmd reqMeta => do
      PasswordService.requestReset app.ports r.policies cmd reqMeta
      return .done
  | .confirmReset cmd reqMeta => do
      PasswordService.confirmReset app.ports app.passwordPolicy r.policies cmd reqMeta
      return .done
  | .tick cfg => do
      EmailOutboxProcessor.tick cfg
      return .done

/-- The events of all calls, each with the number of its call. -/
abbrev Trace := List (Nat × Event)

/-- A state of the system. -/
abbrev SysState := State Db Input Event Error Request Response

/-- The database at the start of a run. -/
structure Seed (db : Db) : Prop where
  users : (db.users.map (·.id)).Nodup
  sessions : db.sessions = []
  emailVerifications : db.emailVerifications = []
  passwordResets : db.passwordResets = []
  signInAttempts : db.signInAttempts = []
  emailOutbox : db.emailOutbox = []

instance (db : Db) : Decidable (Seed db) :=
  decidable_of_iff
    ((db.users.map (·.id)).Nodup ∧ db.sessions = [] ∧ db.emailVerifications = [] ∧
      db.passwordResets = [] ∧ db.signInAttempts = [] ∧ db.emailOutbox = [])
    ⟨fun ⟨h₁, h₂, h₃, h₄, h₅, h₆⟩ => ⟨h₁, h₂, h₃, h₄, h₅, h₆⟩,
      fun h => ⟨h.1, h.2, h.3, h.4, h.5, h.6⟩⟩

/-- A generated identifier has not been generated before. -/
def freshIds (tr : Trace) : Event → Bool
  | .generatedId id => tr.all fun p => p.2 != .generatedId id
  | _ => true

/-- The assumptions on a run of the service. -/
abbrev SysAdmission := Admission Db Input Event Error Request Response

/-- The runs with fresh generated identifiers, whose requests satisfy `start` and whose
steps satisfy `act`. -/
def admission (start : Request → Prop) (act : SysState → Nat → Event → Prop) :
    SysAdmission where
  start := start
  act s c e := freshIds s.trace e = true ∧ act s c e

/-- The runs of all requests, with fresh generated identifiers. -/
def anyRun : SysAdmission := admission (fun _ => True) fun _ _ _ => True

instance (start : Request → Prop) (act : SysState → Nat → Event → Prop) [DecidablePred start]
    (r : Request) : Decidable ((admission start act).start r) :=
  inferInstanceAs (Decidable (start r))

instance (start : Request → Prop) (act : SysState → Nat → Event → Prop)
    [∀ s c e, Decidable (act s c e)] (s : SysState) (c : Nat) (e : Event) :
    Decidable ((admission start act).act s c e) :=
  inferInstanceAs (Decidable (freshIds s.trace e = true ∧ act s c e))

instance (r : Request) : Decidable (anyRun.start r) := isTrue trivial

instance (s : SysState) (c : Nat) (e : Event) : Decidable (anyRun.act s c e) :=
  inferInstanceAs (Decidable (freshIds s.trace e = true ∧ True))

/-! ### What a run says of its calls -/

/-- The clock reading with which a call begins. -/
def clockOf (tr : Trace) (c : Nat) : Option Time :=
  match (own c tr).head? with
  | some (.clock t) => some t
  | _ => none

/-- The first event of a call stays its first event. -/
theorem clockOf_append {tr tr' : Trace} {c : Nat} (h : own c tr ≠ []) :
    clockOf (tr ++ tr') c = clockOf tr c := by
  unfold clockOf
  rw [own_append, List.head?_append_of_ne_nil _ h]

/-- The exception that a call ended with. -/
def raised (s : SysState) (c : Nat) : Option Error :=
  match s.calls c with
  | some ⟨_, .raise x⟩ => some x
  | _ => none

/-- The call is a `Refresh` call that presents the token. -/
def presents (s : SysState) (token : Str) (c : Nat) : Bool :=
  match s.calls c with
  | some ⟨⟨_, .refresh cmd _⟩, _⟩ => cmd.refreshToken == token
  | _ => false

/-- The call is a `Refresh` call that has exchanged the token for new ones. -/
def exchanged (s : SysState) (token : Str) (c : Nat) : Bool :=
  match s.calls c with
  | some ⟨⟨_, .refresh cmd _⟩, .done _⟩ => cmd.refreshToken == token
  | _ => false

/-- A call has ended with an exception. -/
theorem raised_eq_some {s : SysState} {c : Nat} {x : Error} :
    raised s c = some x ↔ ∃ r, s.calls c = some ⟨r, .raise x⟩ := by
  unfold raised
  constructor
  · intro h
    split at h
    · rename_i r y hcall
      cases h
      exact ⟨r, hcall⟩
    · cases h
  · rintro ⟨r, hcall⟩
    simp [hcall]

/-- A call is a refresh with the token. -/
theorem presents_iff {s : SysState} {token : Str} {c : Nat} :
    presents s token c = true ↔
      ∃ p m prog, s.calls c = some ⟨⟨p, .refresh ⟨token⟩ m⟩, prog⟩ := by
  unfold presents
  constructor
  · intro h
    split at h
    · rename_i p cmd m prog hcall
      obtain rfl : cmd.refreshToken = token := by simpa using h
      exact ⟨p, m, prog, hcall⟩
    · cases h
  · rintro ⟨p, m, prog, hcall⟩
    simp [hcall]

/-- A refresh with the token has ended without an exception. -/
theorem exchanged_iff {s : SysState} {token : Str} {c : Nat} :
    exchanged s token c = true ↔
      ∃ p m x, s.calls c = some ⟨⟨p, .refresh ⟨token⟩ m⟩, .done x⟩ := by
  unfold exchanged
  constructor
  · intro h
    split at h
    · rename_i p cmd m x hcall
      obtain rfl : cmd.refreshToken = token := by simpa using h
      exact ⟨p, m, x, hcall⟩
    · cases h
  · rintro ⟨p, m, x, hcall⟩
    simp [hcall]

/-! ### A concrete service -/

/-- The 16 bytes of a UUID, the lowest one first. -/
def Uuid.bytes (u : Uuid) : Str :=
  (List.range 16).map fun i => (u.bits.toNat >>> (8 * i)).toUInt8

/-- The UUID with the given bytes. -/
def Uuid.ofBytes (bytes : Str) : Uuid :=
  ⟨BitVec.ofNat 128 (bytes.foldr (fun b n => b.toNat + 256 * n) 0)⟩

/-- Tokens that spell out their claims and never expire. The first byte tells refresh
tokens from access tokens. -/
def plainTokenProvider : JwtTokenProvider where
  generateTokens userId sessionId familyId _ :=
    { accessToken := 0 :: (userId.bytes ++ sessionId.bytes)
      refreshToken := 1 :: (userId.bytes ++ sessionId.bytes ++ familyId.bytes) }
  refreshTokenClaims
    | 1 :: claims => some
        { userId := .ofBytes (claims.take 16)
          sessionId := .ofBytes ((claims.drop 16).take 16)
          tokenFamilyId := some (.ofBytes (claims.drop 32)) }
    | _ => none
  accessTokenClaims
    | 0 :: claims => some
        { userId := .ofBytes (claims.take 16), sessionId := .ofBytes (claims.drop 16) }
    | _ => none
  unexpired _ _ := true

/-- The service with plain texts in place of hashes, for concrete runs. -/
def plainApp : App where
  ports :=
    { pg := plainPostgres
      passwordHasher := ⟨fun password _ => password, fun password hash => password == hash⟩
      refreshTokenHasher := ⟨id, fun token hash => token == hash⟩
      resetTokenHasher := ⟨id, fun token hash => token == hash⟩
      verificationCodeHasher := ⟨fun _ => id, fun _ code hash => code == hash⟩
      tokenProvider := plainTokenProvider }

/-- The call `c` takes one step for each input. -/
def acts (c : Nat) (inputs : List Input) : List (Move Input Request) := inputs.map (.act c)

/-- The account of the concrete runs. -/
def unitUser : User where
  id := ⟨7⟩
  username := "unit_user"
  password := "old_password"
  phone := none
  email := some "unit@example.com"
  isEmailVerified := true
  createdAt := 0
  passwordUpdatedAt := 0

/-- A database with one account. -/
def unitDb : Db := { users := [unitUser] }

/-- A schedule that replays from `unitDb` to a state with the property `P` is a run to such a
state. -/
theorem exists_run (app : App) (A : SysAdmission) [∀ r, Decidable (A.start r)]
    [∀ s c e, Decidable (A.act s c e)] (ms : List (Move Input Request)) (P : SysState → Prop)
    [DecidablePred P] (h : (replay app.run A (State.initial unitDb) ms).any (P ·) = true) :
    ∃ s, Reachable app.run A Seed s ∧ P s :=
  exists_reachable_of_replay ms P (by decide) h

/-- The time after the given number of seconds. -/
def seconds (n : Nat) : Time := Seconds.nanos n

/-- The default policies, with sessions of one hour. -/
def hourSessions : AuthRuntimePolicies := { session := { refreshTokenTtl := 3600 } }

/-- A sign-in of that account. -/
def signInUnitUser (password : Str) : Request :=
  ⟨hourSessions, .signIn { username := some "unit_user", password } {}⟩

/-- A refresh. -/
def refreshWith (token : Str) : Request := ⟨hourSessions, .refresh ⟨token⟩ {}⟩

/-- The inputs of a `SignIn` call that succeeds. -/
def signInInputs (sessionId familyId : Uuid) : List Input :=
  [{}, {}, {}, {}, { generatedId := sessionId }, { generatedId := familyId }, {}, {}, {}]

/-- The inputs of a `Refresh` call that reaches its transaction. -/
def refreshInputs (sessionId : Uuid) : List Input :=
  [{}, {}, {}, {}, { generatedId := sessionId }, {}, {}, {}, {}]

/-- The refresh token of a session of the account. -/
def unitToken (sessionId familyId : Uuid) : Str :=
  (plainTokenProvider.generateTokens unitUser.id sessionId familyId 0).refreshToken

/-- A change of the password of that account. -/
def changeUnitPassword (currentPassword newPassword : Str) : Request :=
  ⟨hourSessions, .changePassword ⟨unitUser.id, ⟨1⟩⟩ { currentPassword, newPassword }⟩

end SmirklyAuth
