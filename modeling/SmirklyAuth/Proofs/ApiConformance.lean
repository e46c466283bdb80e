import SmirklyAuth.Proofs.AccessChecks
import SmirklyAuth.Proofs.HttpRuns

/-!
# `SmirklyAuth.Proofs.ApiConformance`: the replies are the documented ones

`openapi/auth-v0.yaml` documents the statuses of every endpoint, the cookies and the shape of
an error. `reply_conforms` says that every reply of every run is one of the documented ones,
and that the exceptions which leave a handler, and become status 500, are those of the
environment or of a malformed request. The cookie of `sign-in` and `refresh` has the refresh
token that the request itself has generated, and the configured lifetime.

For most endpoints this follows from the exceptions of their use cases (`Command.Ends`). For
`logout` it does not: `RevokeCurrentSession` throws `SessionNotFound` and `SessionForbidden`,
and neither of 403 and 404 is documented. The two cannot be thrown in a run of the process. The
context comes from an authentication that has found the session, no statement deletes a session
or gives it to another user (`revokeCurrentSession_throws`).
-/

set_option autoImplicit false

namespace SmirklyAuth

open Interleaving Dialogue
open Sql (Owns)

/-! ### The document -/

/-- The statuses that the document lists for an endpoint. -/
def Endpoint.statuses : Endpoint → List HttpStatus
  | .signUp => [.created, .badRequest, .conflict, .tooManyRequests]
  | .verifyEmail => [.noContent, .badRequest, .notFound, .gone, .tooManyRequests]
  | .resendEmailVerification => [.noContent, .badRequest, .tooManyRequests]
  | .passwordResetRequest => [.noContent, .badRequest, .tooManyRequests]
  | .passwordResetConfirm => [.noContent, .badRequest, .gone, .tooManyRequests]
  | .signIn => [.ok, .badRequest, .unauthorized, .forbidden, .tooManyRequests]
  | .refresh => [.ok, .unauthorized]
  | .logout => [.noContent, .unauthorized]
  | .changePassword => [.noContent, .badRequest, .unauthorized]
  | .me => [.ok, .unauthorized]
  | .sessions => [.ok, .unauthorized]
  | .sessionsRevokeAll => [.noContent, .unauthorized]
  | .sessionRevoke => [.noContent, .unauthorized, .forbidden, .notFound]

/-- The statuses of a success. -/
def HttpStatus.isSuccess : HttpStatus → Bool
  | .ok | .created | .noContent => true
  | _ => false

/-- The `Set-Cookie` headers of the document. -/
inductive CookieHeader where
  | refreshTokenCookie
  | clearRefreshTokenCookie
  deriving DecidableEq, Repr

/-- The header that the document lists for a status of an endpoint. -/
def Endpoint.cookieHeader : Endpoint → HttpStatus → Option CookieHeader
  | .signIn, .ok | .refresh, .ok => some .refreshTokenCookie
  | .logout, .noContent | .changePassword, .noContent | .sessionsRevokeAll, .noContent =>
      some .clearRefreshTokenCookie
  | _, _ => none

/-- `logout` and `DELETE sessions` clear the cookie before they do anything else. -/
def Endpoint.clearsFirst : Endpoint → Bool
  | .logout | .sessionsRevokeAll => true
  | _ => false

/-- The cookie of a reply to a request with the events `evs`. `RefreshTokenCookie` has the refresh
token that the request has generated, and its `Max-Age` is the configured lifetime. Where the
document lists no header there is no cookie, but the two endpoints that clear it first clear it
with every reply. -/
def HttpCall.SetsCookie (call : HttpCall) (evs : List Event) (status : HttpStatus)
    (cookie : Option Cookie) : Prop :=
  match call.endpoint.cookieHeader status with
  | some .refreshTokenCookie => ∃ tokens, .generatedTokens tokens ∈ evs ∧
      cookie = some (refreshTokenCookie tokens.refreshToken call.policies.session.refreshTokenTtl)
  | some .clearRefreshTokenCookie => cookie = some clearRefreshCookie
  | none => cookie = if call.endpoint.clearsFirst then some clearRefreshCookie else none

/-- The schema `Error`. -/
def Json.IsError (body : Json) : Prop :=
  ∃ code message, body = .object [(lit "code", .string code), (lit "message", .string message)]

/-- A documented reply to a request with the events `evs`. -/
structure Conforms (call : HttpCall) (evs : List Event) (reply : Reply) : Prop where
  status : reply.status ∈ call.endpoint.statuses
  cookie : call.SetsCookie evs reply.status reply.cookie
  noContent : reply.status = .noContent → reply.body = .null
  error : reply.status.isSuccess = false → reply.body.IsError

/-- A request ends with a documented reply or with an exception that is no auth error. -/
def Replies (call : HttpCall) (evs : List Event) (res : Except Error Reply) : Prop :=
  match res with
  | .ok reply => Conforms call evs reply
  | .error x => ∃ what, x = .runtimeError what

/-! ### Exceptions -/

/-- The document has the status of the exception, or the exception is no auth error. -/
def Endpoint.documents (endpoint : Endpoint) (context : AuthErrorContext) (x : Error) : Bool :=
  match tryMapAuthError x context with
  | some mapped => endpoint.statuses.contains mapped.status && !mapped.status.isSuccess
  | none => match x with
    | .runtimeError _ => true
    | _ => false

/-- A reply that is made from an error has a body. -/
theorem isError_reply {response : HttpResponse} {error : Str × Str}
    (h : response.error = some error) : response.reply.body.IsError := by
  unfold HttpResponse.reply
  simp only [h]
  exact ⟨_, _, rfl⟩

section
variable {call : HttpCall} {evs : List Event}

/-- The document lists no cookie for an error. -/
theorem setsCookie_error {status : HttpStatus} (hsuccess : status.isSuccess = false) :
    call.SetsCookie evs status
      (if call.endpoint.clearsFirst then some clearRefreshCookie else none) := by
  have hheader : call.endpoint.cookieHeader status = none := by
    cases status <;> first | cases hsuccess; done | cases call.endpoint <;> rfl
  unfold HttpCall.SetsCookie
  rw [hheader]

variable {cookie : Option Cookie}

/-- A reply with an error body. -/
theorem conforms_error {status : HttpStatus} {code message : Str}
    (hstatus : status ∈ call.endpoint.statuses) (hsuccess : status.isSuccess = false)
    (hcookie : cookie = if call.endpoint.clearsFirst then some clearRefreshCookie else none) :
    Conforms call evs
      { HttpResponse.reply ⟨status, some (code, message)⟩ with cookie := cookie } where
  status := hstatus
  cookie := hcookie ▸ setsCookie_error hsuccess
  noContent h := by
    rw [show status = .noContent from h] at hsuccess
    cases hsuccess
  error _ := isError_reply (show HttpResponse.error ⟨status, some (code, message)⟩ = _ from rfl)

/-- The reply to a documented exception. -/
theorem replies_errorResult {context : AuthErrorContext} {x : Error}
    (h : call.endpoint.documents context x = true)
    (hcookie : cookie = if call.endpoint.clearsFirst then some clearRefreshCookie else none) :
    Replies call evs (errorResult x context cookie) := by
  unfold Endpoint.documents at h
  unfold errorResult
  cases hmap : tryMapAuthError x context with
  | some mapped =>
    simp only [hmap, Bool.and_eq_true, List.contains_iff_mem, Bool.not_eq_true'] at h
    exact conforms_error h.1 h.2 hcookie
  | none =>
    simp only [hmap] at h
    cases x with
    | runtimeError what => exact ⟨what, rfl⟩
    | _ => cases h

/-- A reply without a body. -/
theorem conforms_noContent
    (hstatus : HttpStatus.noContent ∈ call.endpoint.statuses)
    (hcookie : call.SetsCookie evs .noContent cookie) :
    Conforms call evs (noContentReply cookie) :=
  { status := hstatus, cookie := hcookie, noContent := fun _ => rfl, error := fun h => nomatch h }

/-- A reply with the result of a use case. -/
theorem conforms_success {reply : Reply} (hstatus : reply.status ∈ call.endpoint.statuses)
    (hsuccess : reply.status.isSuccess = true) (hbody : reply.status ≠ .noContent)
    (hcookie : call.SetsCookie evs reply.status reply.cookie) : Conforms call evs reply where
  status := hstatus
  cookie := hcookie
  noContent h := absurd h hbody
  error h := by
    rw [hsuccess] at h
    cases h

end

/-! ### The current session -/

section
variable {app : App} {s : SysState}

/-- The lookup finds the session of an owner. -/
theorem findById_of_owns {pg : Postgres} {db : Db} {id userId : Uuid} (hkeyed : db.Keyed)
    (h : Owns (·.id) (·.userId) db.sessions id userId) :
    ∃ session, SessionRepository.findById pg id db = some session ∧
      session.userId = userId := by
  obtain ⟨row, hrow, hid, huser⟩ := h
  have hselect : sessionsSelectById id db.sessions = some row := by
    cases hfind : sessionsSelectById id db.sessions with
    | none =>
      have hnone := List.find?_eq_none.mp hfind row hrow
      simp [hid] at hnone
    | some row' =>
      have hmem := List.mem_of_find?_eq_some hfind
      have hid' : row'.id = row.id := (id_of_select hfind).trans hid.symm
      rw [List.inj_on_of_nodup_map hkeyed.sessions hmem hrow hid']
  refine ⟨row.toDomain pg, ?_, huser⟩
  rw [SessionRepository.findById, hselect, Option.map_some]

/-- What an authentication that returned a context has found. -/
theorem owns_of_authenticated {A : SysAdmission} (hs : Reachable app.run A Db.Keyed s) {c : Nat}
    {p : AuthRuntimePolicies} {token : Str} {context : AuthContext}
    (hc : s.calls c = some ⟨⟨p, .authenticateAccessToken token⟩,
      .done (.authenticated context)⟩) :
    Owns (·.id) (·.userId) s.store.sessions context.sessionId context.userId := by
  obtain ⟨claims, ⟨_, session, _, _, _, hevs, hchecked⟩, rfl⟩ :=
    accessed_of_done hs hc
  obtain ⟨_, hfound⟩ := foundRows_of_reachable hs
  have howns := (hfound c).session session (by rw [hevs]; simp [accessEvents])
  rwa [hchecked.id, hchecked.user] at howns

/-- `RevokeCurrentSession` finds the session of its context, and it belongs to the user. -/
theorem currentSession_found (hs : Reachable app.run vouchedRun Db.Keyed s) :
    ∀ c call, s.calls c = some call → ∀ context, call.request.command =
      .revokeCurrentSession context → ∀ session?, .foundSession session? ∈ own c s.trace →
      ∃ session, session? = some session ∧ session.userId = context.userId := by
  refine Reachable.call_rule (J := fun r evs => ∀ context, r.command =
    .revokeCurrentSession context → ∀ session?, .foundSession session? ∈ evs →
    ∃ session, session? = some session ∧ session.userId = context.userId)
    (app_refines app) (fun _ _ _ _ _ h => nomatch h) ?_ hs
  rintro s db c ⟨p, command⟩ prog e hs hc hJ _ ⟨_, hvouched⟩ hstep context rfl session? hmem
  rcases List.mem_append.mp hmem with hold | hlast
  · exact hJ context rfl session? hold
  · cases List.mem_singleton.mp hlast
    obtain ⟨c', p', token, hc'⟩ := hvouched _ context hc rfl
    obtain ⟨hkeyed, _⟩ := foundRows_of_reachable hs
    cases hstep with
    | aborted hab => cases hab
    | read hread =>
      generalize own c s.trace = evs at hread
      cases hread with
      | revokeFind hcmd =>
        cases hcmd
        exact findById_of_owns hkeyed (owns_of_authenticated hs hc')

/-- `RevokeCurrentSession` throws only the exceptions of the environment. -/
theorem revokeCurrentSession_throws (hs : Reachable app.run vouchedRun Db.Keyed s) {c : Nat}
    {p : AuthRuntimePolicies} {context : AuthContext} {x : Error}
    (hc : s.calls c = some ⟨⟨p, .revokeCurrentSession context⟩, .ended (.error x)⟩) :
    ∃ what, x = .runtimeError what := by
  have hfound := currentSession_found hs c _ hc context rfl
  have hfinish := (hs.ended (app_refines app) hc).1
  generalize own c s.trace = evs at hfinish hfound
  cases hfinish with
  | @aborted _ _ e _ hab hthrown =>
    cases e <;> cases hab
    cases hthrown
    exact ⟨_, rfl⟩
  | other hends =>
    cases hends with
    | notFound =>
      obtain ⟨_, hsome, _⟩ := hfound none (by simp)
      cases hsome
    | forbidden huser =>
      obtain ⟨_, hsome, hsame⟩ := hfound _ List.mem_cons_self
      cases hsome
      exact absurd hsame huser

end

/-! ### The results of the calls -/

/-- The tokens of a result are those that the call has generated, with the configured lifetime. -/
def HandsOut (policies : AuthRuntimePolicies) (evs : List Event) (tokens : AuthTokens)
    (maxAge : Seconds) : Prop :=
  .generatedTokens tokens ∈ evs ∧ maxAge = policies.session.refreshTokenTtl

/-- What is known of the result of a call, in a run of the process, of a request with the events
`evs`. -/
structure CallEnds (evs : List Event) (r : Request) (res : Except Error Response) : Prop where
  ends : r.command.Ends res
  current : ∀ context, r.command = .revokeCurrentSession context →
    ∀ x, res = .error x → ∃ what, x = .runtimeError what
  signedIn : ∀ result, res = .ok (.signedIn result) →
    HandsOut r.policies evs result.tokens result.refreshTokenMaxAge
  refreshed : ∀ result, res = .ok (.refreshed result) →
    HandsOut r.policies evs ⟨result.accessToken, result.refreshToken⟩ result.refreshTokenMaxAge

section
variable {app : App} {s : SysState}

/-- The tokens of a sign-in. -/
theorem handsOut_of_signedIn {A : SysAdmission} {I : Db → Prop} (hs : Reachable app.run A I s)
    {c : Nat} {r : Request} {result : SignInResult}
    (hc : s.calls c = some ⟨r, .done (.signedIn result)⟩) :
    HandsOut r.policies (own c s.trace) result.tokens result.refreshTokenMaxAge := by
  obtain ⟨hfinish, hends⟩ := hs.finish (app_refines app) hc
  obtain ⟨p, command⟩ := r
  cases command with
  | signIn cmd m =>
    generalize own c s.trace = evs at hfinish ⊢
    cases hfinish with
    | signedIn => exact ⟨by simp, rfl⟩
    | other hopen => cases hopen
  | _ => cases hends

/-- The tokens of a rotation. -/
theorem handsOut_of_refreshed {A : SysAdmission} {I : Db → Prop} (hs : Reachable app.run A I s)
    {c : Nat} {r : Request} {result : RefreshResult}
    (hc : s.calls c = some ⟨r, .done (.refreshed result)⟩) :
    HandsOut r.policies (own c s.trace) ⟨result.accessToken, result.refreshToken⟩
      result.refreshTokenMaxAge := by
  obtain ⟨hfinish, hends⟩ := hs.finish (app_refines app) hc
  obtain ⟨p, command⟩ := r
  cases command with
  | refresh cmd m =>
    generalize own c s.trace = evs at hfinish ⊢
    cases hfinish with
    | refreshed => exact ⟨by simp, rfl⟩
    | other hopen => cases hopen
  | _ => cases hends

/-- What the runs of the use cases say of a call that has ended. -/
theorem callEnds_of_reachable (hs : Reachable app.run vouchedRun Db.Keyed s) {c : Nat}
    {r : Request} {res : Except Error Response} (hc : s.calls c = some ⟨r, .ended res⟩)
    {evs : List Event} (hevs : ∀ e ∈ own c s.trace, e ∈ evs) : CallEnds evs r res where
  ends := (hs.ended (app_refines app) hc).2
  current := by
    obtain ⟨p, command⟩ := r
    rintro context rfl x rfl
    exact revokeCurrentSession_throws hs hc
  signedIn := by
    rintro result rfl
    exact (handsOut_of_signedIn hs hc).imp_left (hevs _)
  refreshed := by
    rintro result rfl
    exact (handsOut_of_refreshed hs hc).imp_left (hevs _)

end

/-! ### The plans -/

section
variable {call : HttpCall} {evs : List Event}

variable {cookie : Option Cookie}

/-- A use case of a plan: its exceptions are documented, and so is what follows a response. -/
theorem settles_ask {command : Command} {next : Response → Plan} {context : AuthErrorContext}
    (herror : ∀ x, CallEnds evs ⟨call.policies, command⟩ (.error x) → command.throws x = true →
      call.endpoint.documents context x = true)
    (hcookie : cookie = if call.endpoint.clearsFirst then some clearRefreshCookie else none)
    (hnext : ∀ response, CallEnds evs ⟨call.policies, command⟩ (.ok response) →
      response.answers command = true →
        (next response).Settles (CallEnds evs) (Replies call evs)) :
    (Plan.ask call.policies command next context cookie).Settles (CallEnds evs)
      (Replies call evs) := by
  intro res hres
  cases res with
  | ok response => exact hnext response hres hres.ends
  | error x => exact replies_errorResult (herror x hres hres.ends) hcookie

/-- A use case whose success is answered with status 204. -/
theorem settles_ask_noContent {command : Command} {context : AuthErrorContext}
    {success : Option Cookie}
    (herror : ∀ x, command.throws x = true → call.endpoint.documents context x = true)
    (hcookie : cookie = if call.endpoint.clearsFirst then some clearRefreshCookie else none)
    (hstatus : HttpStatus.noContent ∈ call.endpoint.statuses)
    (hsuccess : call.SetsCookie evs .noContent success) :
    (Plan.ask call.policies command (fun _ => .reply (noContentReply success)) context
      cookie).Settles (CallEnds evs) (Replies call evs) :=
  settles_ask (fun x _ => herror x) hcookie
    fun _ _ _ => conforms_noContent hstatus hsuccess

/-- A value of the request, whose exception leaves the handler. -/
theorem settles_read {α : Type} {value : Except Error α} {next : α → Plan}
    (hvalue : ∀ x, value = .error x → ∃ what, x = .runtimeError what)
    (hnext : ∀ a, (next a).Settles (CallEnds evs) (Replies call evs)) :
    (Plan.read value next).Settles (CallEnds evs) (Replies call evs) := by
  cases value with
  | ok a => exact hnext a
  | error x => exact hvalue x rfl

/-- A reply that refuses the body of a request. -/
theorem settles_badRequest {code message : Str}
    (hstatus : HttpStatus.badRequest ∈ call.endpoint.statuses)
    (hcookie : call.endpoint.clearsFirst = false) :
    (Plan.reply (badRequestResponse code message).reply).Settles (CallEnds evs)
      (Replies call evs) :=
  conforms_error hstatus rfl (by rw [hcookie]; rfl)

/-- The authentication of a request, whose exceptions are all answered with 401. -/
theorem settles_withAccessToken {token : Str}
    {action : AuthContext → Plan} (hstatus : HttpStatus.unauthorized ∈ call.endpoint.statuses)
    (hcookie : cookie = if call.endpoint.clearsFirst then some clearRefreshCookie else none)
    (h : ∀ context, (action context).Settles (CallEnds evs) (Replies call evs)) :
    (HttpServer.withAccessTokenPlan call.policies token cookie action).Settles (CallEnds evs)
      (Replies call evs) := by
  refine settles_ask (fun x _ hthrows => ?_) hcookie fun response _ hanswers => ?_
  · unfold Endpoint.documents
    cases x <;> first
      | cases hthrows; done
      | simp [tryMapAuthError, HttpStatus.isSuccess, hstatus]
  · cases response with
    | authenticated context => exact h context
    | _ => cases hanswers

/-- A handler that starts with the authentication of the bearer token. -/
theorem settles_authenticated {action : AuthContext → Plan}
    (hstatus : HttpStatus.unauthorized ∈ call.endpoint.statuses)
    (hcookie : cookie = if call.endpoint.clearsFirst then some clearRefreshCookie else none)
    (h : ∀ context, (action context).Settles (CallEnds evs) (Replies call evs)) :
    (HttpServer.authenticatedPlan call.policies call.request cookie action).Settles
      (CallEnds evs) (Replies call evs) := by
  unfold HttpServer.authenticatedPlan
  cases extractBearerToken call.request.authorization with
  | none => exact conforms_error hstatus rfl hcookie
  | some token => exact settles_withAccessToken hstatus hcookie h

end

variable {body : Json} {name : Str} {x : Error}

/-- A member of the body that cannot be read is an exception outside of the `try` block. -/
theorem hasMember_throws
    (h : body.hasMember name = .error x) : ∃ what, x = .runtimeError what := by
  cases body <;> cases h <;> exact ⟨_, rfl⟩

/-- So is a member of a value that is no object. -/
theorem member_throws
    (h : body.member name = .error x) : ∃ what, x = .runtimeError what := by
  cases body <;> cases h <;> exact ⟨_, rfl⟩

/-- So is a member that is no text. -/
theorem asString_throws
    (h : body.asString name = .error x) : ∃ what, x = .runtimeError what := by
  unfold Json.asString at h
  split at h
  · cases h
  · cases h
    exact ⟨_, rfl⟩
  · rename_i hmember
    cases h
    exact member_throws hmember

/-- `GetString` throws what `HasMember` throws. -/
theorem getString_throws
    (h : getString body name = .error x) : ∃ what, x = .runtimeError what := by
  unfold getString at h
  split at h
  · rename_i hmember
    cases h
    exact hasMember_throws hmember
  · cases h
  · cases h

/-! ### The handlers -/

section
variable (server : HttpServer) (policies : AuthRuntimePolicies) (request : ApiRequest)
  (evs : List Event)

/-- The replies of sign-up. -/
theorem signUpPlan_settles :
    (server.signUpPlan policies request).Settles (CallEnds evs)
      (Replies ⟨policies, .signUp, request⟩ evs) := by
  unfold HttpServer.signUpPlan
  split
  · exact settles_badRequest (by simp [Endpoint.statuses]) rfl
  · refine settles_ask (fun x _ hthrows => ?_) rfl fun response hresponse hanswers => ?_
    · cases x <;> first | rfl | cases hthrows
    · cases response with
      | signedUp user =>
        exact conforms_success (by simp [signUpReply, Endpoint.statuses]) rfl nofun rfl
      | _ => cases hanswers

/-- The replies of sign-in. The cookie carries the token of the result. -/
theorem signInPlan_settles :
    (server.signInPlan policies request).Settles (CallEnds evs)
      (Replies ⟨policies, .signIn, request⟩ evs) := by
  unfold HttpServer.signInPlan
  split
  · exact settles_badRequest (by simp [Endpoint.statuses]) rfl
  · refine settles_ask (fun x _ hthrows => ?_) rfl fun response hresponse hanswers => ?_
    · cases x <;> first | rfl | cases hthrows
    · cases response with
      | signedIn result =>
        obtain ⟨htokens, hmaxAge⟩ := hresponse.signedIn result rfl
        refine conforms_success (by simp [signInReply, Endpoint.statuses]) rfl nofun
          ⟨result.tokens, htokens, ?_⟩
        rw [signInReply, hmaxAge]
      | _ => cases hanswers

/-- The replies of refresh. The cookie carries the token of the result. -/
theorem refreshPlan_settles :
    (server.refreshPlan policies request).Settles (CallEnds evs)
      (Replies ⟨policies, .refresh, request⟩ evs) := by
  unfold HttpServer.refreshPlan
  split
  · exact conforms_error (by simp [Endpoint.statuses]) rfl rfl
  · refine settles_ask (fun x _ hthrows => ?_) rfl fun response hresponse hanswers => ?_
    · cases x <;> first | rfl | cases hthrows
    · cases response with
      | refreshed result =>
        obtain ⟨htokens, hmaxAge⟩ := hresponse.refreshed result rfl
        refine conforms_success (by simp [refreshReply, Endpoint.statuses]) rfl nofun
          ⟨_, htokens, ?_⟩
        rw [refreshReply, hmaxAge]
      | _ => cases hanswers

/-- The replies of verify-email. -/
theorem verifyEmailPlan_settles (email code : Option Str) :
    (server.verifyEmailPlan policies request email code).Settles (CallEnds evs)
      (Replies ⟨policies, .verifyEmail, request⟩ evs) := by
  unfold HttpServer.verifyEmailPlan
  split
  · split
    · exact settles_badRequest (by simp [Endpoint.statuses]) rfl
    · split
      · exact settles_badRequest (by simp [Endpoint.statuses]) rfl
      · intro res hres
        simp only
        split
        · exact conforms_noContent (by simp [Endpoint.statuses]) rfl
        · exact conforms_noContent (by simp [Endpoint.statuses]) rfl
        · rename_i x _
          refine replies_errorResult ?_ rfl
          have hthrows := hres.ends
          cases x <;> first | rfl | cases hthrows
  · exact settles_badRequest (by simp [Endpoint.statuses]) rfl

/-- The replies of resend-verification. -/
theorem resendEmailVerificationPlan_settles (email : Option Str) :
    (server.resendEmailVerificationPlan policies request email).Settles (CallEnds evs)
      (Replies ⟨policies, .resendEmailVerification, request⟩ evs) := by
  unfold HttpServer.resendEmailVerificationPlan
  split
  · exact settles_badRequest (by simp [Endpoint.statuses]) rfl
  · split
    · exact settles_badRequest (by simp [Endpoint.statuses]) rfl
    · refine settles_ask_noContent (fun x hthrows => ?_) rfl (by simp [Endpoint.statuses]) rfl
      cases x <;> first | rfl | cases hthrows

/-- The replies of the request for a reset. -/
theorem passwordResetRequestPlan_settles (email : Option Str) :
    (server.passwordResetRequestPlan policies request email).Settles (CallEnds evs)
      (Replies ⟨policies, .passwordResetRequest, request⟩ evs) := by
  unfold HttpServer.passwordResetRequestPlan
  split
  · exact settles_badRequest (by simp [Endpoint.statuses]) rfl
  · refine settles_ask_noContent (fun x hthrows => ?_) rfl (by simp [Endpoint.statuses]) rfl
    cases x <;> first | rfl | cases hthrows

/-- The replies of the confirmation of a reset. -/
theorem passwordResetConfirmPlan_settles (email token newPassword : Option Str) :
    (server.passwordResetConfirmPlan policies request email token newPassword).Settles
      (CallEnds evs) (Replies ⟨policies, .passwordResetConfirm, request⟩ evs) := by
  unfold HttpServer.passwordResetConfirmPlan
  split
  · split
    · exact settles_badRequest (by simp [Endpoint.statuses]) rfl
    · split
      · exact settles_badRequest (by simp [Endpoint.statuses]) rfl
      · refine settles_ask_noContent (fun x hthrows => ?_) rfl (by simp [Endpoint.statuses]) rfl
        cases x <;> first | rfl | cases hthrows
  · exact settles_badRequest (by simp [Endpoint.statuses]) rfl

/-- The replies of logout. All of them clear the cookie. -/
theorem logoutPlan_settles :
    (HttpServer.logoutPlan policies request).Settles (CallEnds evs)
      (Replies ⟨policies, .logout, request⟩ evs) := by
  refine settles_authenticated (by simp [Endpoint.statuses]) rfl fun context => ?_
  refine settles_ask (fun x hx _ => ?_) rfl
    fun _ _ _ => conforms_noContent (by simp [Endpoint.statuses]) rfl
  -- the table of the exceptions has two more, which no run of the process throws
  obtain ⟨what, rfl⟩ := hx.current context rfl x rfl
  rfl

/-- The replies of `DELETE /sessions`. All of them clear the cookie. -/
theorem sessionsRevokeAllPlan_settles :
    (HttpServer.sessionsRevokeAllPlan policies request).Settles (CallEnds evs)
      (Replies ⟨policies, .sessionsRevokeAll, request⟩ evs) := by
  refine settles_authenticated (by simp [Endpoint.statuses]) rfl fun context => ?_
  refine settles_ask_noContent (fun x hthrows => ?_) rfl (by simp [Endpoint.statuses]) rfl
  cases x <;> first | rfl | cases hthrows

/-- The replies of `/me`. -/
theorem mePlan_settles :
    (HttpServer.mePlan policies request).Settles (CallEnds evs)
      (Replies ⟨policies, .me, request⟩ evs) := by
  refine settles_authenticated (by simp [Endpoint.statuses]) rfl fun context => ?_
  refine settles_ask (fun x _ hthrows => ?_) rfl fun response hresponse hanswers => ?_
  · cases x <;> first | rfl | cases hthrows
  · cases response with
    | me result => exact conforms_success (by simp [meReply, Endpoint.statuses]) rfl nofun rfl
    | _ => cases hanswers

/-- The replies of the list of sessions. -/
theorem sessionsPlan_settles :
    (server.sessionsPlan policies request).Settles (CallEnds evs)
      (Replies ⟨policies, .sessions, request⟩ evs) := by
  refine settles_authenticated (by simp [Endpoint.statuses]) rfl fun context => ?_
  refine settles_ask (fun x _ hthrows => ?_) rfl fun response hresponse hanswers => ?_
  · cases x <;> first | rfl | cases hthrows
  · cases response with
    | sessions sessions =>
      exact conforms_success (by simp [HttpServer.sessionsReply, Endpoint.statuses]) rfl nofun rfl
    | _ => cases hanswers

/-- The replies of the revocation of one session. -/
theorem sessionRevokePlan_settles :
    (server.sessionRevokePlan policies request).Settles (CallEnds evs)
      (Replies ⟨policies, .sessionRevoke, request⟩ evs) := by
  refine settles_authenticated (by simp [Endpoint.statuses]) rfl fun context => ?_
  cases server.uuid request.sessionIdArg with
  | none => exact ⟨_, rfl⟩
  | some sessionId =>
    refine settles_ask_noContent (fun x hthrows => ?_) rfl (by simp [Endpoint.statuses]) rfl
    cases x <;> first | rfl | cases hthrows

/-- The replies of change-password. The cookie is cleared on success. -/
theorem changePasswordPlan_settles :
    (HttpServer.changePasswordPlan policies request).Settles (CallEnds evs)
      (Replies ⟨policies, .changePassword, request⟩ evs) := by
  unfold HttpServer.changePasswordPlan
  split
  · exact conforms_error (by simp [Endpoint.statuses]) rfl rfl
  · refine settles_read (fun _ => hasMember_throws) fun hasCurrent => ?_
    refine settles_read (fun _ => hasMember_throws) fun hasNew => ?_
    split
    · exact settles_badRequest (by simp [Endpoint.statuses]) rfl
    · refine settles_read (fun _ => asString_throws) fun current => ?_
      refine settles_read (fun _ => asString_throws) fun new => ?_
      refine settles_withAccessToken (by simp [Endpoint.statuses]) rfl fun context => ?_
      refine settles_ask_noContent (fun x hthrows => ?_) rfl (by simp [Endpoint.statuses]) rfl
      cases x <;> first | rfl | cases hthrows

end

/-- Every plan ends with a documented reply or with an exception that is no auth error. -/
theorem httpPlan_settles (server : HttpServer) (call : HttpCall) (evs : List Event) :
    (server.httpPlan call).Settles (CallEnds evs) (Replies call evs) := by
  obtain ⟨policies, endpoint, request⟩ := call
  cases endpoint with
  | signUp => exact signUpPlan_settles server policies request evs
  | verifyEmail =>
    refine settles_read (fun _ => getString_throws) fun email => ?_
    refine settles_read (fun _ => getString_throws) fun code => ?_
    exact verifyEmailPlan_settles server policies request evs email code
  | resendEmailVerification =>
    refine settles_read (fun _ => getString_throws) fun email => ?_
    exact resendEmailVerificationPlan_settles server policies request evs email
  | passwordResetRequest =>
    refine settles_read (fun _ => getString_throws) fun email => ?_
    exact passwordResetRequestPlan_settles server policies request evs email
  | passwordResetConfirm =>
    refine settles_read (fun _ => getString_throws) fun email => ?_
    refine settles_read (fun _ => getString_throws) fun token => ?_
    refine settles_read (fun _ => getString_throws) fun password => ?_
    exact passwordResetConfirmPlan_settles server policies request evs email token password
  | signIn => exact signInPlan_settles server policies request evs
  | refresh => exact refreshPlan_settles server policies request evs
  | logout => exact logoutPlan_settles policies request evs
  | sessionsRevokeAll => exact sessionsRevokeAllPlan_settles policies request evs
  | me => exact mePlan_settles policies request evs
  | sessions => exact sessionsPlan_settles server policies request evs
  | sessionRevoke => exact sessionRevokePlan_settles server policies request evs
  | changePassword => exact changePasswordPlan_settles policies request evs

/-! ### The replies of a run -/

/-- In every run of the process on a database with distinct keys, a request that has ended has
got a reply that the document lists for its endpoint, with the documented cookie and body, or an
exception of the environment or of the parsing of the request, which becomes status 500. -/
theorem reply_conforms (server : HttpServer) (s : HttpState)
    (hs : Reachable server.serve httpRun Db.Keyed s) (c : Nat) (call : HttpCall)
    (res : Except Error (Option Reply)) (hc : s.calls c = some ⟨.http call, .ended res⟩) :
    (∃ reply, res = .ok (some reply) ∧ Conforms call (own c s.trace) reply) ∨
      ∃ what, res = .error (.runtimeError what) := by
  obtain ⟨t, ht, hsim⟩ := reachable_simulated hs
  rcases settled_of_simulates hsim hc (httpPlan_settles server call (own c s.trace))
    (fun _ _ _ hn => callEnds_of_reachable ht hn fun _ => hsim.mem_own) with
    ⟨_, hres, what, rfl⟩ | hreply
  · exact .inr ⟨what, hres⟩
  · exact .inl hreply

/-- A sign-in and a logout. -/
theorem reply_conforms_signInAndLogout : ∃ (s : HttpState) (call : HttpCall) (reply : Reply),
    Reachable plainServer.serve httpRun Db.Keyed s ∧ answered s 1 = some (call, reply) ∧
      (call.endpoint, reply.status) = (.logout, .noContent) ∧
      Conforms call (own 1 s.trace) reply := by
  obtain ⟨s, hs, ⟨call, reply⟩, hcall, hstatus⟩ := exists_reachable_of_replay
    (M := plainServer.serve) (A := httpRun) (I := Db.Keyed) (d := unitDb) signInAndLogout
    (fun s => ∃ x ∈ answered s 1, (x.1.endpoint, x.2.status) = (.logout, .noContent))
    (by constructor <;> decide) (by decide +kernel)
  refine ⟨s, call, reply, hs, hcall, hstatus, ?_⟩
  rcases reply_conforms plainServer s hs 1 call _ (calls_of_answered hcall) with h | h
  · obtain ⟨_, heq, hconforms⟩ := h
    cases heq
    exact hconforms
  · obtain ⟨_, heq⟩ := h
    cases heq

end SmirklyAuth
