import SmirklyAuth.Api.Handlers
import SmirklyAuth.Lib.Dialogue

/-!
# `SmirklyAuth.Protocol.HttpPlans`: a request as a dialogue with the use cases

A handler calls at most two use cases. The ones behind an access token call
`AuthenticateAccessToken` and then a use case for the context that it returned. The plan of a
request says which use cases it calls, on what condition, and what it answers.

`HttpServer.serve_eq_prog` is the connection to the handlers: the program of a request is the
program of its plan.
-/

set_option autoImplicit false

namespace SmirklyAuth

open Interleaving Service

/-- The plan of an HTTP request. -/
abbrev Plan := Dialogue Request Error Response Reply

namespace Plan

/-- The plan that asks nothing more. -/
def reply (reply : Reply) : Plan := .answer (.ok reply)

/-- Go on with a value that a handler has read, or end with its exception. -/
def read {α : Type} (value : Except Error α) (next : α → Plan) : Plan :=
  match value with
  | .ok a => next a
  | .error x => .answer (.error x)

/-- A use case, and the reply to its exceptions. -/
def ask (policies : AuthRuntimePolicies) (command : Command) (next : Response → Plan)
    (context : AuthErrorContext := .generic) (cookie : Option Cookie := none) : Plan :=
  .call ⟨policies, command⟩ fun
    | .ok response => next response
    | .error x => .answer (errorResult x context cookie)

/-- The plan after a response of another use case, which a use case does not return. -/
def stray : Plan := .answer (.error (.runtimeError "unexpected response"))

/-- A use case whose success is answered with status 204. -/
def noContent (policies : AuthRuntimePolicies) (command : Command)
    (context : AuthErrorContext := .generic) : Plan :=
  ask policies command (fun _ => reply noContentReply) context

end Plan

namespace HttpServer

variable (server : HttpServer)

/-- `SignUpHandler`, as a plan. -/
def signUpPlan (policies : AuthRuntimePolicies) (request : ApiRequest) : Plan :=
  match SignUpRequest.fromJson request.body with
  | .error _ => .reply
      (badRequestResponse "sign_up.validation_failed" "invalid request body").reply
  | .ok dto => .ask policies (.signUp dto.toDomain (server.requestMeta request)) fun
      | .signedUp user => .reply (signUpReply user)
      | _ => .stray

/-- `SignInHandler`, as a plan. -/
def signInPlan (policies : AuthRuntimePolicies) (request : ApiRequest) : Plan :=
  match SignInRequest.parse request.body with
  | .error _ => .reply
      (badRequestResponse "auth.sign_in.validation_failed" "invalid request body").reply
  | .ok dto => .ask policies (.signIn dto.toDomain (server.requestMeta request)) fun
      | .signedIn result => .reply (signInReply result)
      | _ => .stray

/-- `RefreshHandler`, as a plan: an empty cookie is refused without a call. -/
def refreshPlan (policies : AuthRuntimePolicies) (request : ApiRequest) : Plan :=
  if request.refreshCookie.isEmpty then .reply
    (HttpResponse.reply
      { status := .unauthorized
        error := some ("auth.invalid_refresh_token", "invalid refresh token") })
  else .ask policies (.refresh ⟨request.refreshCookie⟩ (server.requestMeta request)) fun
    | .refreshed result => .reply (refreshReply result)
    | _ => .stray

/-- An authentication, and a plan for the context. -/
def withAccessTokenPlan (policies : AuthRuntimePolicies) (token : Str)
    (cookie : Option Cookie) (action : AuthContext → Plan) : Plan :=
  .ask policies (.authenticateAccessToken token)
    (fun
      | .authenticated context => action context
      | _ => .stray)
    .generic cookie

/-- The handlers behind an access token, as a plan: without a token nothing is asked. -/
def authenticatedPlan (policies : AuthRuntimePolicies) (request : ApiRequest)
    (cookie : Option Cookie) (action : AuthContext → Plan) : Plan :=
  match extractBearerToken request.authorization with
  | none => .reply { missingAccessTokenReply with cookie }
  | some token => withAccessTokenPlan policies token cookie action

/-- `LogoutHandler`, as a plan. -/
def logoutPlan (policies : AuthRuntimePolicies) (request : ApiRequest) : Plan :=
  authenticatedPlan policies request (some clearRefreshCookie) fun context =>
    .ask policies (.revokeCurrentSession context)
      (fun _ => .reply (noContentReply (some clearRefreshCookie)))
      .generic (some clearRefreshCookie)

/-- `SessionsRevokeAllHandler`, as a plan. -/
def sessionsRevokeAllPlan (policies : AuthRuntimePolicies) (request : ApiRequest) : Plan :=
  authenticatedPlan policies request (some clearRefreshCookie) fun context =>
    .ask policies (.revokeAllSessions context)
      (fun _ => .reply (noContentReply (some clearRefreshCookie)))
      .generic (some clearRefreshCookie)

/-- `MeHandler`, as a plan. -/
def mePlan (policies : AuthRuntimePolicies) (request : ApiRequest) : Plan :=
  authenticatedPlan policies request none fun context =>
    .ask policies (.getCurrentUser context) fun
      | .me result => .reply (meReply result)
      | _ => .stray

/-- `SessionsHandler`, as a plan. -/
def sessionsPlan (policies : AuthRuntimePolicies) (request : ApiRequest) : Plan :=
  authenticatedPlan policies request none fun context =>
    .ask policies (.listSessions context) fun
      | .sessions sessions => .reply (server.sessionsReply sessions context.sessionId)
      | _ => .stray

/-- `SessionRevokeHandler`, as a plan. The id of the path is read after the authentication. -/
def sessionRevokePlan (policies : AuthRuntimePolicies) (request : ApiRequest) : Plan :=
  authenticatedPlan policies request none fun context =>
    match server.uuid request.sessionIdArg with
    | none => .answer (.error invalidUuid)
    | some sessionId => .noContent policies (.revokeSession context sessionId)

/-- `ChangePasswordHandler`, as a plan. It reads the body before the authentication. -/
def changePasswordPlan (policies : AuthRuntimePolicies) (request : ApiRequest) : Plan :=
  match extractBearerToken request.authorization with
  | none => .reply missingAccessTokenReply
  | some token =>
    .read (request.body.hasMember "current_password") fun hasCurrent =>
    .read (request.body.hasMember "new_password") fun hasNew =>
    if !hasCurrent || !hasNew then
      .reply (badRequestResponse "auth.change_password.validation_failed"
        "current_password and new_password are required").reply
    else
      .read (request.body.asString "current_password") fun currentPassword =>
      .read (request.body.asString "new_password") fun newPassword =>
      withAccessTokenPlan policies token none fun context =>
        .ask policies (.changePassword context { currentPassword, newPassword }) fun _ =>
          .reply (noContentReply (some clearRefreshCookie))

/-- `VerifyEmailHandler`, as a plan. -/
def verifyEmailPlan (policies : AuthRuntimePolicies) (request : ApiRequest)
    (email code : Option Str) : Plan :=
  match email.filter (!·.isEmpty), code.filter (!·.isEmpty) with
  | some email, some code =>
    if 320 < email.length || !email.contains 64 then .reply
      (badRequestResponse "auth.verify_email.validation_failed" "invalid email format").reply
    else if code.length ≠ kVerificationCodeLength || !code.all isDigitAscii then .reply
      (badRequestResponse "auth.verify_email.validation_failed" "invalid code format").reply
    else .call ⟨policies, .verifyEmail ⟨email, code⟩ (server.requestMeta request)⟩ fun
      | .ok _ => Plan.reply noContentReply
      | .error (.alreadyVerified _) => Plan.reply noContentReply
      | .error x => .answer (errorResult x .verifyEmail)
  | _, _ => .reply
      (badRequestResponse "auth.verify_email.validation_failed"
        "email and code are required").reply

/-- `ResendEmailVerificationHandler`, as a plan. -/
def resendEmailVerificationPlan (policies : AuthRuntimePolicies) (request : ApiRequest)
    (email : Option Str) : Plan :=
  match email.filter (!·.isEmpty) with
  | none => .reply
      (badRequestResponse "auth.resend_email_verification.validation_failed"
        "email is required").reply
  | some email =>
    if 320 < email.length || !email.contains 64 then .reply
      (badRequestResponse "auth.resend_email_verification.validation_failed"
        "invalid email format").reply
    else .noContent policies (.resendEmailVerification ⟨email⟩ (server.requestMeta request))
      .resendEmailVerification

/-- `PasswordResetRequestHandler`, as a plan. -/
def passwordResetRequestPlan (policies : AuthRuntimePolicies) (request : ApiRequest)
    (email : Option Str) : Plan :=
  match email.filter isValidEmailShape with
  | none => .reply
      (badRequestResponse "auth.password_reset.validation_failed" "invalid email format").reply
  | some email => .noContent policies (.requestReset ⟨email⟩ (server.requestMeta request))

/-- `PasswordResetConfirmHandler`, as a plan. -/
def passwordResetConfirmPlan (policies : AuthRuntimePolicies) (request : ApiRequest)
    (email token newPassword : Option Str) : Plan :=
  match email, token, newPassword with
  | some email, some token, some newPassword =>
    if !isValidEmailShape email then .reply
      (badRequestResponse "auth.password_reset.validation_failed" "invalid email format").reply
    else if token.isEmpty || 512 < token.length then .reply
      (badRequestResponse "auth.password_reset.validation_failed" "invalid token format").reply
    else .noContent policies
      (.confirmReset ⟨email, token, newPassword⟩ (server.requestMeta request))
  | _, _, _ => .reply
      (badRequestResponse "auth.password_reset.validation_failed"
        "email, token and new_password are required").reply

/-- The plan of an HTTP request. -/
def httpPlan (call : HttpCall) : Plan :=
  let policies := call.policies
  let request := call.request
  match call.endpoint with
  | .signUp => server.signUpPlan policies request
  | .verifyEmail =>
      .read (getString request.body "email") fun email =>
      .read (getString request.body "code") fun code =>
      server.verifyEmailPlan policies request email code
  | .resendEmailVerification =>
      .read (getString request.body "email") fun email =>
      server.resendEmailVerificationPlan policies request email
  | .passwordResetRequest =>
      .read (getString request.body "email") fun email =>
      server.passwordResetRequestPlan policies request email
  | .passwordResetConfirm =>
      .read (getString request.body "email") fun email =>
      .read (getString request.body "token") fun token =>
      .read (getString request.body "new_password") fun newPassword =>
      server.passwordResetConfirmPlan policies request email token newPassword
  | .signIn => server.signInPlan policies request
  | .refresh => server.refreshPlan policies request
  | .logout => logoutPlan policies request
  | .changePassword => changePasswordPlan policies request
  | .me => mePlan policies request
  | .sessions => server.sessionsPlan policies request
  | .sessionsRevokeAll => sessionsRevokeAllPlan policies request
  | .sessionRevoke => server.sessionRevokePlan policies request

/-- The plan of the process for one request or one run of the worker. -/
def plan : Incoming → Dialogue Request Error Response (Option Reply)
  | .http call => (server.httpPlan call).map some
  | .tick cfg => .call ⟨{}, .tick cfg⟩ fun res => .answer (res.map fun _ => none)

/-! ### The plans are the handlers -/

section

variable {app : App} {γ : Type} {x : Service γ} {j : γ → Response} {r : Request}

/-- A use case in a `try` block is the first call of a plan. The exceptions of the rest of the
block are caught too. -/
theorem tryCatch_bind_eq_prog (hrun : app.run r = x >>= fun a => pure (j a))
    {g : γ → Service Reply} {h : Error → Service Reply} {k : Except Error Response → Plan}
    (hok : ∀ a, tryCatchThe Error (g a) h = (k (.ok (j a))).prog app.run)
    (herror : ∀ e, h e = (k (.error e)).prog app.run) :
    tryCatchThe Error (x >>= g) h = (Dialogue.call r k).prog app.run := by
  rw [Prog.tryCatch_eq_attempt, Prog.bind_eq_attempt, Prog.attempt_attempt, Dialogue.prog, hrun,
    Prog.bind_eq_attempt, Prog.attempt_attempt]
  congr 1
  funext res
  cases res with
  | ok a =>
    show (g a).attempt _ = (k (.ok (j a))).prog app.run
    rw [← hok, Prog.tryCatch_eq_attempt]
  | error e => exact herror e

/-- The reply to an exception is an answer without a question. -/
theorem authErrorReply_eq_prog (error : Error) (cookie : Option Cookie) :
    authErrorReply error cookie = (Dialogue.answer (errorResult error .generic cookie) :
      Plan).prog app.run := by
  unfold authErrorReply
  cases errorResult error .generic cookie <;> rfl

/-- A value that a handler has read. -/
theorem validated_bind_eq_prog {value : Except Error γ} {g : γ → Service Reply}
    {next : γ → Plan} (h : ∀ a, g a = (next a).prog app.run) :
    (validated value >>= g) = (Plan.read value next).prog app.run := by
  cases value with
  | ok a => exact h a
  | error x => rfl

/-- A use case in the `try` block of a handler, then the reply to its result. -/
theorem tryCatch_return_eq_prog (hrun : app.run r = x >>= fun a => pure (j a))
    {reply : γ → Reply} {next : Response → Plan} {cookie : Option Cookie}
    (hnext : ∀ a, next (j a) = .reply (reply a)) :
    tryCatchThe Error (do let a ← x; return reply a) (fun error => authErrorReply error cookie)
      = (Plan.ask r.policies r.command next .generic cookie).prog app.run := by
  refine tryCatch_bind_eq_prog hrun (fun a => ?_) fun e => authErrorReply_eq_prog e cookie
  show _ = (next (j a)).prog app.run
  rw [hnext]
  rfl

/-- A handler that answers with status 204. -/
theorem noContentOrError_eq_prog {call : Service Unit} {context : AuthErrorContext}
    (hrun : app.run r = call >>= fun _ => pure .done) :
    HttpResponse.reply <$> noContentOrError context call
      = (Plan.noContent r.policies r.command context).prog app.run := by
  unfold noContentOrError Plan.noContent Plan.ask
  rw [Prog.tryCatch_eq_attempt, Prog.bind_eq_attempt, Prog.attempt_attempt, Prog.map_attempt,
    Dialogue.prog, hrun, Prog.bind_eq_attempt, Prog.attempt_attempt]
  congr 1
  funext res
  cases res with
  | ok _ => rfl
  | error e =>
    show HttpResponse.reply <$> authErrorResponse e context = Prog.ended (errorResult e context)
    unfold authErrorResponse errorResult
    cases tryMapAuthError e context <;> rfl

end

/-- An authentication in front of an action. -/
theorem withAccessToken_eq_prog (policies : AuthRuntimePolicies) (token : Str)
    (cookie : Option Cookie) {action : AuthContext → Service Reply} {next : AuthContext → Plan}
    (h : ∀ context, tryCatchThe Error (action context) (fun error => authErrorReply error cookie)
      = (next context).prog server.app.run) :
    server.withAccessToken policies token cookie action
      = (withAccessTokenPlan policies token cookie next).prog server.app.run :=
  tryCatch_bind_eq_prog (r := ⟨policies, .authenticateAccessToken token⟩) rfl h
    fun e => authErrorReply_eq_prog e cookie

/-- A handler behind an access token runs its plan, if the action behind it does. -/
theorem authenticated_eq_prog (policies : AuthRuntimePolicies) (request : ApiRequest)
    (cookie : Option Cookie) {action : AuthContext → Service Reply} {next : AuthContext → Plan}
    (h : ∀ context, tryCatchThe Error (action context) (fun error => authErrorReply error cookie)
      = (next context).prog server.app.run) :
    server.authenticated policies request cookie action
      = (authenticatedPlan policies request cookie next).prog server.app.run := by
  unfold authenticated authenticatedPlan
  cases extractBearerToken request.authorization with
  | none => rfl
  | some token => exact server.withAccessToken_eq_prog policies token cookie h

/-- The handler of change-password runs its plan. -/
theorem changePasswordHandler_eq_prog (policies : AuthRuntimePolicies) (request : ApiRequest) :
    server.changePasswordHandler policies request
      = (changePasswordPlan policies request).prog server.app.run := by
  unfold changePasswordHandler changePasswordPlan
  cases extractBearerToken request.authorization with
  | none => rfl
  | some token =>
    refine validated_bind_eq_prog fun hasCurrent => validated_bind_eq_prog fun hasNew => ?_
    cases !hasCurrent || !hasNew with
    | true => rfl
    | false =>
      refine validated_bind_eq_prog fun currentPassword => ?_
      refine validated_bind_eq_prog fun newPassword => ?_
      refine server.withAccessToken_eq_prog policies token none fun context => ?_
      exact tryCatch_return_eq_prog
        (r := ⟨policies, .changePassword context { currentPassword, newPassword }⟩)
        (j := fun _ => .done) rfl fun _ => rfl

/-- The handler of verify-email runs its plan. -/
theorem verifyEmailHandler_eq_prog (policies : AuthRuntimePolicies) (request : ApiRequest)
    (email code : Option Str) :
    HttpResponse.reply <$> verifyEmailHandler server.app.ports policies email code
        (server.requestMeta request)
      = (server.verifyEmailPlan policies request email code).prog server.app.run := by
  unfold verifyEmailHandler verifyEmailPlan
  cases email.filter (!·.isEmpty) with
  | none => rfl
  | some email =>
    cases code.filter (!·.isEmpty) with
    | none => rfl
    | some code =>
      simp only
      split
      · rfl
      · split
        · rfl
        · rw [Prog.tryCatch_eq_attempt, Prog.bind_eq_attempt, Prog.attempt_attempt,
            Prog.map_attempt, Dialogue.prog]
          show _ = (do
            IdentityService.verifyEmail server.app.ports policies ⟨email, code⟩
              (server.requestMeta request)
            pure Response.done : Service Response).attempt _
          rw [Prog.bind_eq_attempt, Prog.attempt_attempt]
          congr 1
          funext res
          cases res with
          | ok _ => rfl
          | error e =>
            -- the exception `AlreadyVerified` has its own branch
            cases e <;> rfl

/-- Every endpoint runs the plan of its call. -/
theorem handle_eq_prog (call : HttpCall) :
    server.handle call = (server.httpPlan call).prog server.app.run := by
  obtain ⟨policies, endpoint, request⟩ := call
  cases endpoint with
  | signUp =>
    show server.signUpHandler policies request = (server.signUpPlan policies request).prog _
    unfold signUpHandler signUpPlan
    cases SignUpRequest.fromJson request.body with
    | error _ => rfl
    | ok dto => exact tryCatch_return_eq_prog (r := ⟨policies, .signUp _ _⟩) rfl fun _ => rfl
  | verifyEmail =>
    exact validated_bind_eq_prog fun email => validated_bind_eq_prog fun code =>
      server.verifyEmailHandler_eq_prog policies request email code
  | resendEmailVerification =>
    refine validated_bind_eq_prog fun email => ?_
    unfold resendEmailVerificationHandler resendEmailVerificationPlan
    cases email.filter (!·.isEmpty) with
    | none => rfl
    | some email =>
      simp only
      split
      · rfl
      · exact noContentOrError_eq_prog (r := ⟨policies, .resendEmailVerification _ _⟩) rfl
  | passwordResetRequest =>
    refine validated_bind_eq_prog fun email => ?_
    unfold passwordResetRequestHandler passwordResetRequestPlan
    cases email.filter isValidEmailShape with
    | none => rfl
    | some email => exact noContentOrError_eq_prog (r := ⟨policies, .requestReset _ _⟩) rfl
  | passwordResetConfirm =>
    refine validated_bind_eq_prog fun email => validated_bind_eq_prog fun token => ?_
    refine validated_bind_eq_prog fun newPassword => ?_
    unfold passwordResetConfirmHandler passwordResetConfirmPlan
    cases email <;> cases token <;> cases newPassword <;> try rfl
    simp only
    split
    · rfl
    · split
      · rfl
      · exact noContentOrError_eq_prog (r := ⟨policies, .confirmReset _ _⟩) rfl
  | signIn =>
    show server.signInHandler policies request = (server.signInPlan policies request).prog _
    unfold signInHandler signInPlan
    cases SignInRequest.parse request.body with
    | error _ => rfl
    | ok dto => exact tryCatch_return_eq_prog (r := ⟨policies, .signIn _ _⟩) rfl fun _ => rfl
  | refresh =>
    show server.refreshHandler policies request = (server.refreshPlan policies request).prog _
    unfold refreshHandler refreshPlan
    split
    · rfl
    · exact tryCatch_return_eq_prog (r := ⟨policies, .refresh _ _⟩) rfl fun _ => rfl
  | logout =>
    exact server.authenticated_eq_prog policies request _ fun context =>
      tryCatch_return_eq_prog (r := ⟨policies, .revokeCurrentSession context⟩)
        (j := fun _ => .done) rfl fun _ => rfl
  | changePassword => exact server.changePasswordHandler_eq_prog policies request
  | me =>
    exact server.authenticated_eq_prog policies request _ fun context =>
      tryCatch_return_eq_prog (r := ⟨policies, .getCurrentUser context⟩) rfl fun _ => rfl
  | sessions =>
    exact server.authenticated_eq_prog policies request _ fun context =>
      tryCatch_return_eq_prog (r := ⟨policies, .listSessions context⟩) rfl fun _ => rfl
  | sessionsRevokeAll =>
    exact server.authenticated_eq_prog policies request _ fun context =>
      tryCatch_return_eq_prog (r := ⟨policies, .revokeAllSessions context⟩)
        (j := fun _ => .done) rfl fun _ => rfl
  | sessionRevoke =>
    refine server.authenticated_eq_prog policies request _ fun context => ?_
    cases server.uuid request.sessionIdArg with
    | none => rfl
    | some sessionId =>
      exact tryCatch_return_eq_prog (r := ⟨policies, .revokeSession context sessionId⟩)
        (j := fun _ => .done) rfl fun _ => rfl

/-- The program of a request is the program of its plan. -/
theorem serve_eq_prog (incoming : Incoming) :
    server.serve incoming = (server.plan incoming).prog server.app.run := by
  cases incoming with
  | http call => rw [serve, plan, Dialogue.prog_map, handle_eq_prog]
  | tick cfg =>
    show (EmailOutboxProcessor.tick cfg >>= fun _ => pure none) = (do
      EmailOutboxProcessor.tick cfg
      pure Response.done : Service Response).attempt _
    rw [Prog.bind_eq_attempt, Prog.bind_eq_attempt, Prog.attempt_attempt]
    congr 1
    funext res
    cases res <;> rfl

end HttpServer

end SmirklyAuth
