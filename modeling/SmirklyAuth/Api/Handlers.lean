import SmirklyAuth.Api.Http
import SmirklyAuth.System

/-!
# `SmirklyAuth.Api.Handlers`: the HTTP service

The handlers of `api/v0/handlers` as programs, and `HttpServer.serve`, the program of a
request to the process: an HTTP request to one of the endpoints, or a run of the outbox worker.

The six handlers behind an access token share `withAccessToken`. Three of them also clear the
refresh cookie: `logout` and `DELETE sessions` before they look at the token, so that an error
response clears it too, and `change-password` after the password has been changed.

`HttpServer` holds what the handlers use and do not define: the use cases, the extractor of
the client address, the cast of a path argument to `uuid` and `UtcTimestring`.
-/

set_option autoImplicit false

namespace SmirklyAuth

open Service

/-- The process: its use cases and the components of its handlers. -/
structure HttpServer where
  app : App
  inet : InetLibrary
  extractor : ClientIpExtractor inet
  /-- The cast `text::uuid`; `none` is the error of a malformed text. -/
  uuid : Str → Option Uuid
  /-- `ToIsoUtc`. -/
  isoUtc : Time → Str

/-- The error that the database reports for a malformed `uuid`. -/
def invalidUuid : Error := .runtimeError "invalid input syntax for type uuid"

/-- The routes of `configs/static_config.yaml` that reach a use case. -/
inductive Endpoint where
  | signUp | verifyEmail | resendEmailVerification
  | passwordResetRequest | passwordResetConfirm
  | signIn | refresh | logout | changePassword | me
  | sessions | sessionsRevokeAll | sessionRevoke
  deriving DecidableEq, Repr

/-- An HTTP request, and the policies that the use case read during it. -/
structure HttpCall where
  policies : AuthRuntimePolicies := {}
  endpoint : Endpoint
  request : ApiRequest

/-- What the process can be asked to do. -/
inductive Incoming where
  | http (call : HttpCall)
  | tick (cfg : EmailOutboxRuntimeConfig)

/-- `AuthErrorResponse` in a handler that may have set a cookie. -/
def authErrorReply (error : Error) (cookie : Option Cookie := none) : Service Reply :=
  validated (errorResult error .generic cookie)

/-- The JSON body of the user in the reply to `sign-in`. -/
def signInUserJson (user : User) : Json :=
  .object
    [(lit "id", .string user.id.text), (lit "username", .string user.username),
      (lit "email", .orNull user.email), (lit "phone", .orNull user.phone),
      (lit "is_email_verified", .bool user.isEmailVerified),
      (lit "is_phone_verified", .bool user.isPhoneVerified)]

/-- The reply to a sign-in. The refresh token is only in the cookie. -/
def signInReply (result : SignInResult) : Reply where
  status := .ok
  body := .object
    [(lit "user", signInUserJson result.user),
      (lit "session_id", .string result.sessionId.text),
      (lit "tokens", .object [(lit "access_token", .string result.tokens.accessToken)])]
  cookie := some (refreshTokenCookie result.tokens.refreshToken result.refreshTokenMaxAge)
  headers := [(lit "X-Service-Name", lit "smirkly-auth")]

/-- The reply to a refresh. The refresh token is only in the cookie. -/
def refreshReply (result : RefreshResult) : Reply where
  status := .ok
  body := .object
    [(lit "tokens", .object [(lit "access_token", .string result.accessToken)]),
      (lit "session_id", .string result.sessionId.text)]
  cookie := some (refreshTokenCookie result.refreshToken result.refreshTokenMaxAge)

/-- The reply to a sign-up. -/
def signUpReply (user : User) : Reply where
  status := .created
  body := .object [(lit "user", (toUserDto user).toJson)]

/-- The reply of `/me`. -/
def meReply (result : MeResult) : Reply where
  status := .ok
  body := .object
    [(lit "user", (toUserDto result.user).toJson),
      (lit "session_id", .string result.sessionId.text)]

/-- A reply without a body. -/
def noContentReply (cookie : Option Cookie := none) : Reply :=
  { status := .noContent, cookie }

namespace HttpServer

variable (server : HttpServer)

/-- `request_meta_extractor_.Extract(request)`. -/
def requestMeta (request : ApiRequest) : RequestMeta :=
  RequestMetaExtractor.extract server.extractor request.toHttpRequest

/-- `ToSessionJson`. -/
def toSessionJson (session : Session) (currentSessionId : Uuid) : Json :=
  .object
    [(lit "id", .string session.id.text),
      (lit "device_id", .orNull (session.deviceId.map Uuid.text)),
      (lit "ip", .orNull session.ip),
      (lit "user_agent", .orNull session.userAgent),
      (lit "created_at", .string (server.isoUtc session.createdAt)),
      (lit "last_used_at", .orNull (session.lastUsedAt.map server.isoUtc)),
      (lit "expires_at", .string (server.isoUtc session.expiresAt)),
      (lit "current", .bool (session.id == currentSessionId))]

/-- The reply with the list of sessions. -/
def sessionsReply (sessions : List Session) (currentSessionId : Uuid) : Reply where
  status := .ok
  body := .object
    [(lit "sessions", .array (sessions.map fun s => server.toSessionJson s currentSessionId))]

/-- `SignUpHandler`. -/
def signUpHandler (policies : AuthRuntimePolicies) (request : ApiRequest) : Service Reply :=
  match SignUpRequest.fromJson request.body with
  | .error _ => pure
      (badRequestResponse "sign_up.validation_failed" "invalid request body").reply
  | .ok dto => tryCatchThe Error
      (do
        let user ← IdentityService.signUp server.app.ports server.app.signUpPolicy policies
          dto.toDomain (server.requestMeta request)
        return signUpReply user)
      fun error => authErrorReply error

/-- `SignInHandler`. -/
def signInHandler (policies : AuthRuntimePolicies) (request : ApiRequest) : Service Reply :=
  match SignInRequest.parse request.body with
  | .error _ => pure
      (badRequestResponse "auth.sign_in.validation_failed" "invalid request body").reply
  | .ok dto => tryCatchThe Error
      (do
        let result ← AuthenticationService.signIn server.app.ports policies dto.toDomain
          (server.requestMeta request)
        return signInReply result)
      fun error => authErrorReply error

/-- `RefreshHandler`. -/
def refreshHandler (policies : AuthRuntimePolicies) (request : ApiRequest) : Service Reply :=
  if request.refreshCookie.isEmpty then pure
    (HttpResponse.reply
      { status := .unauthorized
        error := some ("auth.invalid_refresh_token", "invalid refresh token") })
  else tryCatchThe Error
    (do
      let result ← AuthenticationService.refresh server.app.ports policies
        ⟨request.refreshCookie⟩ (server.requestMeta request)
      return refreshReply result)
    fun error => authErrorReply error

/-- The `try` block of a handler that authenticates its caller. -/
def withAccessToken (policies : AuthRuntimePolicies) (token : Str) (cookie : Option Cookie)
    (action : AuthContext → Service Reply) : Service Reply :=
  tryCatchThe Error
    (do
      let context ← AuthenticationService.authenticateAccessToken server.app.ports policies
        token
      action context)
    fun error => authErrorReply error cookie

/-- A handler that authenticates its caller first, with the cookie it sets on every reply. -/
def authenticated (policies : AuthRuntimePolicies) (request : ApiRequest)
    (cookie : Option Cookie) (action : AuthContext → Service Reply) : Service Reply :=
  match extractBearerToken request.authorization with
  | none => pure { missingAccessTokenReply with cookie }
  | some token => server.withAccessToken policies token cookie action

/-- `LogoutHandler`. -/
def logoutHandler (policies : AuthRuntimePolicies) (request : ApiRequest) : Service Reply :=
  server.authenticated policies request (some clearRefreshCookie) fun context => do
    SessionService.revokeCurrentSession server.app.ports context
    return noContentReply (some clearRefreshCookie)

/-- `SessionsRevokeAllHandler`. -/
def sessionsRevokeAllHandler (policies : AuthRuntimePolicies) (request : ApiRequest) :
    Service Reply :=
  server.authenticated policies request (some clearRefreshCookie) fun context => do
    SessionService.revokeAllSessions context
    return noContentReply (some clearRefreshCookie)

/-- `MeHandler`. -/
def meHandler (policies : AuthRuntimePolicies) (request : ApiRequest) : Service Reply :=
  server.authenticated policies request none fun context => do
    let result ← IdentityService.getCurrentUser context
    return meReply result

/-- `SessionsHandler`. -/
def sessionsHandler (policies : AuthRuntimePolicies) (request : ApiRequest) : Service Reply :=
  server.authenticated policies request none fun context => do
    let sessions ← SessionService.listSessions server.app.ports context
    return server.sessionsReply sessions context.sessionId

/-- `SessionRevokeHandler`. The first statement of `RevokeSession` casts the path argument. -/
def sessionRevokeHandler (policies : AuthRuntimePolicies) (request : ApiRequest) :
    Service Reply :=
  server.authenticated policies request none fun context =>
    match server.uuid request.sessionIdArg with
    | none => throw invalidUuid
    | some sessionId => do
        SessionService.revokeSession server.app.ports context sessionId
        return noContentReply

/-- `ChangePasswordHandler`. The two members are read outside of the `try` block. -/
def changePasswordHandler (policies : AuthRuntimePolicies) (request : ApiRequest) :
    Service Reply :=
  match extractBearerToken request.authorization with
  | none => pure missingAccessTokenReply
  | some token => do
      let hasCurrent ← validated (request.body.hasMember "current_password")
      let hasNew ← validated (request.body.hasMember "new_password")
      if !hasCurrent || !hasNew then
        pure (badRequestResponse "auth.change_password.validation_failed"
          "current_password and new_password are required").reply
      else
        let currentPassword ← validated (request.body.asString "current_password")
        let newPassword ← validated (request.body.asString "new_password")
        server.withAccessToken policies token none fun context => do
          PasswordService.changePassword server.app.ports server.app.passwordPolicy context
            { currentPassword, newPassword }
          return noContentReply (some clearRefreshCookie)

/-- The program of an HTTP request. The handlers that take an email address read their members
with `GetString`. -/
def handle (call : HttpCall) : Service Reply :=
  let policies := call.policies
  let request := call.request
  match call.endpoint with
  | .signUp => server.signUpHandler policies request
  | .verifyEmail => do
      let email ← validated (getString request.body "email")
      let code ← validated (getString request.body "code")
      HttpResponse.reply <$> verifyEmailHandler server.app.ports policies email code
        (server.requestMeta request)
  | .resendEmailVerification => do
      let email ← validated (getString request.body "email")
      HttpResponse.reply <$> resendEmailVerificationHandler server.app.ports policies email
        (server.requestMeta request)
  | .passwordResetRequest => do
      let email ← validated (getString request.body "email")
      HttpResponse.reply <$> passwordResetRequestHandler server.app.ports policies email
        (server.requestMeta request)
  | .passwordResetConfirm => do
      let email ← validated (getString request.body "email")
      let token ← validated (getString request.body "token")
      let newPassword ← validated (getString request.body "new_password")
      HttpResponse.reply <$> passwordResetConfirmHandler server.app.ports
        server.app.passwordPolicy policies email token newPassword (server.requestMeta request)
  | .signIn => server.signInHandler policies request
  | .refresh => server.refreshHandler policies request
  | .logout => server.logoutHandler policies request
  | .changePassword => server.changePasswordHandler policies request
  | .me => server.meHandler policies request
  | .sessions => server.sessionsHandler policies request
  | .sessionsRevokeAll => server.sessionsRevokeAllHandler policies request
  | .sessionRevoke => server.sessionRevokeHandler policies request

/-- The program of the process for one request or one run of the worker. -/
def serve : Incoming → Service (Option Reply)
  | .http call => some <$> server.handle call
  | .tick cfg => do
      EmailOutboxProcessor.tick cfg
      return none

end HttpServer

end SmirklyAuth
