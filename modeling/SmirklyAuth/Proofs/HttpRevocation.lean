import SmirklyAuth.Proofs.HttpAuthority

/-!
# `SmirklyAuth.Proofs.HttpRevocation`: the end of a session, as clients see it

Two results on the endpoints and on revoked sessions, for every run of the process.

* `noContent_revokes`: an endpoint that ends sessions answers 204 only when the sessions that
  were there at the start of the request are revoked.
* `revoked_session_refused`: a request that starts after the session of its access token, or of
  its refresh cookie, has been revoked is refused. It changes nothing, except that a replayed
  refresh token revokes the rest of its family.

Together they say that a client that has got the 204 cannot use the tokens of the ended sessions
any more, from the next request on.
-/

set_option autoImplicit false

namespace SmirklyAuth

open Interleaving Dialogue
open Sql (Owns)

/-! ### Refusals -/

/-- The credential of a request belongs to the session `id`. -/
def HttpServer.Presents (server : HttpServer) (call : HttpCall) (id : Uuid) : Prop :=
  match call.endpoint with
  | .refresh =>
      (server.app.ports.tokenProvider.refreshTokenClaims call.request.refreshCookie).map
        (·.sessionId) = some id
  | endpoint => endpoint.isProtected = true ∧ ∃ token, call.bearer = some token ∧
      (server.app.ports.tokenProvider.accessTokenClaims token).map (·.sessionId) = some id

/-- A session is presented by the cookie of a refresh or by the bearer token of a protected request.
-/
theorem HttpServer.Presents.cases {server : HttpServer} {call : HttpCall} {id : Uuid}
    (h : server.Presents call id) :
    (call.endpoint = .refresh ∧
      (server.app.ports.tokenProvider.refreshTokenClaims call.request.refreshCookie).map
        (·.sessionId) = some id) ∨
    (call.endpoint.isProtected = true ∧ ∃ token, call.bearer = some token ∧
      (server.app.ports.tokenProvider.accessTokenClaims token).map (·.sessionId) = some id) := by
  unfold HttpServer.Presents at h
  split at h
  · rename_i hendpoint
    exact .inl ⟨hendpoint, h⟩
  · exact .inr h

/-- A reply that refuses a request. `change-password` looks at its body before it looks at the
token. -/
def Refused (endpoint : Endpoint) (res : Except Error Reply) : Prop :=
  ∀ reply, res = .ok reply →
    reply.status = .unauthorized ∨ endpoint = .changePassword ∧ reply.status = .badRequest

/-- What is known of the calls of a request with a credential of a revoked session. -/
def RefusedCall (r : Request) (res : Except Error Response) : Prop :=
  r.command.Ends res ∧ match r.command with
    | .authenticateAccessToken _ => ∀ context, res ≠ .ok (.authenticated context)
    | .refresh _ _ => ∀ response, res ≠ .ok response
    | _ => True

section
variable {endpoint : Endpoint} {policies : AuthRuntimePolicies}

/-- The exceptions of the two use cases are answered with 401. -/
theorem refused_errorResult {command : Command} {x : Error} {cookie : Option Cookie}
    (hcommand : (∃ token, command = .authenticateAccessToken token) ∨
      ∃ cmd reqMeta, command = .refresh cmd reqMeta)
    (hx : command.throws x = true) : Refused endpoint (errorResult x .generic cookie) := by
  intro reply hreply
  rcases hcommand with ⟨token, rfl⟩ | ⟨cmd, reqMeta, rfl⟩
  · cases x <;> first | (cases hx; done) | (cases hreply; done) | (cases hreply; exact .inl rfl)
  · cases x <;> first | (cases hx; done) | (cases hreply; done) | (cases hreply; exact .inl rfl)

/-- Behind a refused access token nothing happens. -/
theorem refused_withAccessToken {token : Str} {cookie : Option Cookie}
    {action : AuthContext → Plan} :
    (HttpServer.withAccessTokenPlan policies token cookie action).Settles RefusedCall
      (Refused endpoint) := by
  intro res hres
  cases res with
  | error x => exact refused_errorResult (.inl ⟨token, rfl⟩) hres.1
  | ok response =>
    have hanswers : response.answers (.authenticateAccessToken token) = true := hres.1
    cases response with
    | authenticated context => exact absurd rfl (hres.2 context)
    | _ => cases hanswers

/-- The same where the token is taken from the header. -/
theorem refused_authenticated {request : ApiRequest} {cookie : Option Cookie}
    {action : AuthContext → Plan} :
    (HttpServer.authenticatedPlan policies request cookie action).Settles RefusedCall
      (Refused endpoint) := by
  unfold HttpServer.authenticatedPlan
  split
  · intro reply hreply
    cases hreply
    exact .inl rfl
  · exact refused_withAccessToken

/-- Reading the body keeps a refusal. -/
theorem refused_read {α : Type} {value : Except Error α} {next : α → Plan}
    (hnext : ∀ a, (next a).Settles RefusedCall (Refused endpoint)) :
    (Plan.read value next).Settles RefusedCall (Refused endpoint) := by
  cases value with
  | ok a => exact hnext a
  | error x => exact fun _ h => nomatch h

end

/-- The plans of the endpoints that read a credential. -/
theorem httpPlan_refused (server : HttpServer) (call : HttpCall)
    (h : call.endpoint = .refresh ∨ call.endpoint.isProtected = true) :
    (server.httpPlan call).Settles RefusedCall (Refused call.endpoint) := by
  obtain ⟨policies, endpoint, request⟩ := call
  cases endpoint with
  | refresh =>
    show (server.refreshPlan policies request).Settles RefusedCall (Refused .refresh)
    unfold HttpServer.refreshPlan
    split
    · intro reply hreply
      cases hreply
      exact .inl rfl
    · intro res hres
      cases res with
      | error x => exact refused_errorResult (.inr ⟨_, _, rfl⟩) hres.1
      | ok response => exact absurd rfl (hres.2 response)
  | logout => exact refused_authenticated
  | sessionsRevokeAll => exact refused_authenticated
  | me => exact refused_authenticated
  | sessions => exact refused_authenticated
  | sessionRevoke => exact refused_authenticated
  | changePassword =>
    show (HttpServer.changePasswordPlan policies request).Settles RefusedCall
      (Refused .changePassword)
    unfold HttpServer.changePasswordPlan
    split
    · intro reply hreply
      cases hreply
      exact .inl rfl
    · refine refused_read fun hasCurrent => refused_read fun hasNew => ?_
      split
      · intro reply hreply
        cases hreply
        exact .inr ⟨rfl, rfl⟩
      · exact refused_read fun current => refused_read fun new => refused_withAccessToken
  | _ => rcases h with h | h <;> cases h

section
variable {server : HttpServer} {s₂ : HttpState} {t₁ t₂ : SysState} {c : Nat} {call : HttpCall}
  {prog : Service (Option Reply)} {id : Uuid}
  (ht₁ : Reachable server.app.run vouchedRun Db.Keyed t₁)
  (h : Steps server.app.run vouchedRun t₁ t₂)
  (hthere : ∃ row ∈ t₁.store.sessions, row.id = id) (hended : Ended id t₁.store.sessions)
  (hidle : ∀ n, t₁.calls (Nat.pair c n) = none)
  (hsim : Simulates server.app.run server.plan s₂ t₂)
  (hc : s₂.calls c = some ⟨.http call, prog⟩)
include ht₁ h hthere hended hidle hsim hc

/-- The calls of a request to a protected endpoint with a token of a revoked session: the
authentication of the token, which is refused. -/
theorem protected_call_refused (hprotected : call.endpoint.isProtected = true)
    {token : Str} (htoken : call.bearer = some token)
    (hclaims : (server.app.ports.tokenProvider.accessTokenClaims token).map (·.sessionId) =
      some id)
    {n : Nat} {sub : Call Db Input Event Error Request Response}
    (hsub : t₂.calls (Nat.pair c n) = some sub) :
    sub.request.command = .authenticateAccessToken token ∧
      (∀ t, .committed t ∉ own (Nat.pair c n) t₂.trace) ∧
      ∀ context, sub.prog ≠ .ended (.ok (.authenticated context)) := by
  obtain ⟨token', htoken', hcalls⟩ := calls_of_protected hsim hc hprotected hsub
  rw [htoken] at htoken'
  cases htoken'
  rcases hcalls with ⟨rfl, hrequest⟩ | ⟨context, _, hfirst⟩
  · have hcommand : sub.request.command = .authenticateAccessToken token := by rw [hrequest]
    exact ⟨hcommand,
      authentication_refused ht₁ h hthere hended (hidle 0) hclaims hsub hcommand⟩
  · -- a call for a context comes after an authentication that has succeeded
    have hrefused := (authentication_refused ht₁ h hthere hended (hidle 0) hclaims hfirst rfl).2
    exact absurd rfl (hrefused context)

/-- The call of a request to `refresh` with a cookie of a revoked session. -/
theorem refresh_call_refused (hendpoint : call.endpoint = .refresh)
    (hclaims : (server.app.ports.tokenProvider.refreshTokenClaims
      call.request.refreshCookie).map (·.sessionId) = some id)
    {n : Nat} {sub : Call Db Input Event Error Request Response}
    (hsub : t₂.calls (Nat.pair c n) = some sub) :
    (∃ cmd reqMeta, sub.request.command = .refresh cmd reqMeta) ∧
      (∀ t, .committed t ∈ own (Nat.pair c n) t₂.trace →
        ∃ userId family, t = .reuseDetected userId family) ∧
      ∀ response, sub.prog ≠ .ended (.ok response) := by
  have hcommand := calls_of_refresh hsim hc hendpoint hsub
  exact ⟨⟨_, _, hcommand⟩,
    refresh_refused ht₁ h hthere hended (hidle n) hclaims hsub hcommand⟩

end

/-- A request that starts after the session of its access token or refresh cookie has been
revoked: it is answered with 401 (`change-password` may find its body invalid first, which is
400) or ends with an exception that becomes status 500, which is one of the environment or, at
`change-password`, of a body with another JSON type. No transaction commits, except the one that
revokes the family of a replayed refresh token. -/
theorem revoked_session_refused (server : HttpServer) (s₁ s₂ : HttpState)
    (hs₁ : Reachable server.serve httpRun Db.Keyed s₁) (h : Steps server.serve httpRun s₁ s₂)
    (row : SessionRow) (hrow : row ∈ s₁.store.sessions) (hrevoked : row.revokedAt.isSome = true)
    (c : Nat) (hnew : s₁.calls c = none) (call : HttpCall) (prog : Service (Option Reply))
    (hc : s₂.calls c = some ⟨.http call, prog⟩) (hpresents : server.Presents call row.id) :
    (∀ t, .committed t ∈ own c s₂.trace →
      call.endpoint = .refresh ∧ ∃ userId family, t = .reuseDetected userId family) ∧
    ∀ res, prog = .ended res →
      (∃ what, res = .error (.runtimeError what)) ∨ ∃ reply, res = .ok (some reply) ∧
        (reply.status = .unauthorized ∨
          call.endpoint = .changePassword ∧ reply.status = .badRequest) := by
  obtain ⟨t₁, ht₁, hsim₁⟩ := reachable_simulated hs₁
  obtain ⟨t₂, hsteps, hsim₂⟩ := steps_simulated hs₁ hsim₁ h
  have ht₂ := ht₁.steps hsteps
  obtain ⟨hkeyed, _⟩ := foundRows_of_reachable ht₁
  rw [← hsim₁.store] at hrow
  have hended : Ended row.id t₁.store.sessions := by
    intro row' hrow' hid
    rw [List.inj_on_of_nodup_map hkeyed.sessions hrow' hrow hid]
    exact hrevoked
  have hthere : ∃ row' ∈ t₁.store.sessions, row'.id = row.id := ⟨row, hrow, rfl⟩
  have hidle := hsim₁.idle c hnew
  -- every call of the request is refused
  have hcalls : ∀ n sub, t₂.calls (Nat.pair c n) = some sub →
      (∀ t, .committed t ∈ own (Nat.pair c n) t₂.trace →
        call.endpoint = .refresh ∧ ∃ userId family, t = .reuseDetected userId family) ∧
      ∀ res, sub.prog = .ended res → RefusedCall sub.request res := by
    intro n sub hsub
    have hends : ∀ res, sub.prog = .ended res → sub.request.command.Ends res := by
      rintro res hprog
      obtain ⟨r, p⟩ := sub
      cases hprog
      exact (ht₂.ended (app_refines server.app) hsub).2
    rcases hpresents.cases with ⟨hendpoint, hclaims⟩ | ⟨hprotected, token, htoken, hclaims⟩
    · obtain ⟨⟨cmd, reqMeta, hcommand⟩, hcommits, hresult⟩ :=
        refresh_call_refused ht₁ hsteps hthere hended hidle hsim₂ hc hendpoint hclaims hsub
      refine ⟨fun t ht => ⟨hendpoint, hcommits t ht⟩, fun res hprog => ⟨hends res hprog, ?_⟩⟩
      rw [hcommand]
      exact fun response heq => hresult response (hprog.trans (congrArg _ heq))
    · obtain ⟨hcommand, hcommits, hresult⟩ := protected_call_refused ht₁ hsteps hthere hended
        hidle hsim₂ hc hprotected htoken hclaims hsub
      refine ⟨fun t ht => absurd ht (hcommits t), fun res hprog => ⟨hends res hprog, ?_⟩⟩
      rw [hcommand]
      exact fun context heq => hresult context (hprog.trans (congrArg _ heq))
  refine ⟨fun t ht => ?_, fun res hprog => ?_⟩
  · obtain ⟨n, hn⟩ := hsim₂.exists_own ht
    obtain ⟨sub, hsub⟩ := ht₂.started hn
    exact (hcalls n sub hsub).1 t hn
  · cases hprog
    have hendpoint : call.endpoint = .refresh ∨ call.endpoint.isProtected = true :=
      hpresents.cases.imp (·.1) (·.1)
    have hconforms := settled_of_simulates hsim₂ hc
      (httpPlan_settles server call (own c s₂.trace))
      fun _ _ _ hn => callEnds_of_reachable ht₂ hn fun _ => hsim₂.mem_own
    rcases settled_of_simulates hsim₂ hc (httpPlan_refused server call hendpoint)
      (fun n r res hn => (hcalls n _ hn).2 res rfl) with ⟨x, rfl, _⟩ | ⟨reply, rfl, hrefused⟩
    · rcases hconforms with ⟨x', heq, what, rfl⟩ | ⟨_, heq, _⟩
      · exact .inl ⟨what, heq⟩
      · cases heq
    · exact .inr ⟨reply, rfl, hrefused reply rfl⟩

/-- A request with the token of the session that has been logged out. -/
theorem revoked_session_refused_me : ∃ (s : HttpState) (call : HttpCall) (reply : Reply),
    answered s 2 = some (call, reply) ∧ call.endpoint = .me ∧ reply.status = .unauthorized ∧
      ∀ t, .committed t ∉ own 2 s.trace := by
  obtain ⟨s₁, s₂, hs₁, hsteps, ⟨row, hrow, hid, hrevoked⟩, hnone, ⟨call, reply⟩, hanswered,
    hendpoint, hclaims⟩ := exists_steps_of_replay (M := plainServer.serve) (A := httpRun)
    (I := Db.Keyed) (d := unitDb) signInAndLogout
    ([.start 2 (withUnitToken .me ⟨1⟩)] ++ httpActs 2 (List.replicate 2 {}))
    (fun s₁ s₂ => (∃ row ∈ s₁.store.sessions, row.id = ⟨1⟩ ∧ row.revokedAt.isSome) ∧
      (s₁.calls 2).isNone ∧ ∃ x ∈ answered s₂ 2, x.1.endpoint = .me ∧
        (x.1.bearer.bind plainTokenProvider.accessTokenClaims).map (·.sessionId) = some ⟨1⟩)
    (by constructor <;> decide) (by decide +kernel)
  replace hendpoint : call.endpoint = .me := hendpoint
  obtain ⟨claims, hbind, hsession⟩ := Option.map_eq_some_iff.mp hclaims
  obtain ⟨token, htoken, haccess⟩ := Option.bind_eq_some_iff.mp hbind
  have hpresents : plainServer.Presents call row.id := by
    unfold HttpServer.Presents
    rw [hendpoint]
    exact ⟨rfl, token, htoken, by rw [hid, ← hsession]; exact congrArg (Option.map _) haccess⟩
  obtain ⟨hcommits, hreply⟩ := revoked_session_refused plainServer s₁ s₂ hs₁ hsteps row hrow
    hrevoked 2 (Option.isNone_iff_eq_none.mp hnone) call _ (calls_of_answered hanswered) hpresents
  refine ⟨s₂, call, reply, hanswered, hendpoint, ?_, fun t ht => ?_⟩
  · rcases hreply _ rfl with ⟨_, heq⟩ | ⟨_, heq, hstatus | ⟨hother, _⟩⟩
    · cases heq
    · cases heq
      exact hstatus
    · rw [hendpoint] at hother
      cases hother
  · have hrefresh := (hcommits t ht).1
    rw [hendpoint] at hrefresh
    cases hrefresh

/-! ### Promises -/

/-- The request asks to end the session of the row, with the table `users` at its start. -/
def HttpServer.EndsSession (server : HttpServer) (users : List User) (call : HttpCall)
    (row : SessionRow) : Prop :=
  match call.endpoint with
  | .logout => ∃ token claims, call.bearer = some token ∧
      server.app.ports.tokenProvider.accessTokenClaims token = some claims ∧
      row.id = claims.sessionId
  | .sessionsRevokeAll | .changePassword => ∃ token claims, call.bearer = some token ∧
      server.app.ports.tokenProvider.accessTokenClaims token = some claims ∧
      row.userId = claims.userId
  | .sessionRevoke => server.uuid call.request.sessionIdArg = some row.id
  | .passwordResetConfirm => ∃ email, getString call.request.body "email" = .ok (some email) ∧
      (usersSelectByEmail server.app.ports.pg email users).map (·.id) = some row.userId
  | _ => False

/-- What is known of the calls: an authentication returns the claims of its token, and when a
use case that ends the session has returned, the session is `gone`. -/
def EndingCall (server : HttpServer) (users : List User) (row : SessionRow) (gone : Prop)
    (r : Request) (res : Except Error Response) : Prop :=
  match r.command with
  | .authenticateAccessToken token => ∀ context, res = .ok (.authenticated context) →
      server.app.ports.tokenProvider.accessTokenClaims token =
        some { userId := context.userId, sessionId := context.sessionId }
  | command => ∀ response, res = .ok response →
      command.EndsSession server.app.ports.pg users row.id row.userId → gone

/-- A reply with status 204 comes when the session is `gone`. -/
def Promises (gone : Prop) (res : Except Error Reply) : Prop :=
  ∀ reply, res = .ok reply → reply.status = .noContent → gone

section
variable {server : HttpServer} {users : List User} {row : SessionRow} {gone : Prop}
  {policies : AuthRuntimePolicies}

/-- No exception is answered with 204. -/
theorem promises_errorResult {x : Error} {context : AuthErrorContext} {cookie : Option Cookie} :
    Promises gone (errorResult x context cookie) := by
  intro reply hreply hstatus
  unfold errorResult at hreply
  split at hreply
  · rename_i mapped hmapped
    cases hreply
    replace hstatus : mapped.status = .noContent := hstatus
    cases x <;> first
      | (cases hmapped; done)
      | (cases hmapped; cases hstatus)
      | (cases context <;> cases hmapped <;> cases hstatus)
  · cases hreply

/-- A rejected body promises nothing. -/
theorem promises_badRequest {code message : Str} :
    (Plan.reply (badRequestResponse code message).reply).Settles
      (EndingCall server users row gone) (Promises gone) := by
  intro reply hreply hstatus
  cases hreply
  cases hstatus

/-- Reading the body promises nothing. -/
theorem promises_read {α : Type} {value : Except Error α} {next : α → Plan}
    (hnext : ∀ a, value = .ok a → (next a).Settles (EndingCall server users row gone)
      (Promises gone)) :
    (Plan.read value next).Settles (EndingCall server users row gone) (Promises gone) := by
  cases value with
  | ok a => exact hnext a rfl
  | error x => exact fun _ h => nomatch h

/-- A use case that ends the session. -/
theorem promises_ask {command : Command} {next : Response → Plan} {context : AuthErrorContext}
    {cookie : Option Cookie}
    (hends : command.EndsSession server.app.ports.pg users row.id row.userId)
    (hnext : ∀ response, ∃ res, next response = .answer res) :
    (Plan.ask policies command next context cookie).Settles (EndingCall server users row gone)
      (Promises gone) := by
  intro res hres
  cases res with
  | error x => exact promises_errorResult
  | ok response =>
    obtain ⟨res, hanswer⟩ := hnext response
    have hgone : gone := by
      cases command <;> first | exact hres response rfl hends | cases hends
    simp only [hanswer]
    exact fun _ _ _ => hgone

/-- A promise behind an access token is made by what comes after the authentication. -/
theorem promises_withAccessToken {token : Str} {cookie : Option Cookie}
    {action : AuthContext → Plan}
    (h : ∀ context : AuthContext, server.app.ports.tokenProvider.accessTokenClaims token =
      some { userId := context.userId, sessionId := context.sessionId } →
      (action context).Settles (EndingCall server users row gone) (Promises gone)) :
    (HttpServer.withAccessTokenPlan policies token cookie action).Settles
      (EndingCall server users row gone) (Promises gone) := by
  intro res hres
  cases res with
  | error x => exact promises_errorResult
  | ok response =>
    cases response with
    | authenticated context => exact h context (hres context rfl)
    | _ => exact fun _ h => nomatch h

/-- The same where the token is taken from the header. -/
theorem promises_authenticated {request : ApiRequest} {cookie : Option Cookie}
    {action : AuthContext → Plan}
    (h : ∀ token, extractBearerToken request.authorization = some token →
      ∀ context : AuthContext, server.app.ports.tokenProvider.accessTokenClaims token =
        some { userId := context.userId, sessionId := context.sessionId } →
        (action context).Settles (EndingCall server users row gone) (Promises gone)) :
    (HttpServer.authenticatedPlan policies request cookie action).Settles
      (EndingCall server users row gone) (Promises gone) := by
  unfold HttpServer.authenticatedPlan
  split
  · intro reply hreply hstatus
    cases hreply
    cases hstatus
  · rename_i token htoken
    exact promises_withAccessToken (h token htoken)

end

/-- The plans of the endpoints that end sessions. -/
theorem httpPlan_promises (server : HttpServer) (call : HttpCall) (users : List User)
    (row : SessionRow) (gone : Prop) (h : server.EndsSession users call row) :
    (server.httpPlan call).Settles (EndingCall server users row gone) (Promises gone) := by
  obtain ⟨policies, endpoint, request⟩ := call
  cases endpoint with
  | logout =>
    obtain ⟨token, claims, htoken, hclaims, hid⟩ := h
    refine promises_authenticated fun token' htoken' context hcontext => ?_
    cases htoken.symm.trans htoken'
    cases hclaims.symm.trans hcontext
    exact promises_ask hid fun _ => ⟨_, rfl⟩
  | sessionsRevokeAll =>
    obtain ⟨token, claims, htoken, hclaims, huser⟩ := h
    refine promises_authenticated fun token' htoken' context hcontext => ?_
    cases htoken.symm.trans htoken'
    cases hclaims.symm.trans hcontext
    exact promises_ask huser fun _ => ⟨_, rfl⟩
  | sessionRevoke =>
    refine promises_authenticated fun token' htoken' context hcontext => ?_
    rw [show server.uuid request.sessionIdArg = some row.id from h]
    exact promises_ask rfl fun _ => ⟨_, rfl⟩
  | changePassword =>
    obtain ⟨token, claims, htoken, hclaims, huser⟩ := h
    show (HttpServer.changePasswordPlan policies request).Settles _ _
    unfold HttpServer.changePasswordPlan
    rw [show extractBearerToken request.authorization = some token from htoken]
    refine promises_read fun hasCurrent _ => promises_read fun hasNew _ => ?_
    split
    · exact promises_badRequest
    · refine promises_read fun current _ => promises_read fun new _ => ?_
      refine promises_withAccessToken fun context hcontext => ?_
      cases hclaims.symm.trans hcontext
      exact promises_ask huser fun _ => ⟨_, rfl⟩
  | passwordResetConfirm =>
    obtain ⟨email, hemail, huser⟩ := h
    refine promises_read fun email? hread => promises_read fun token _ =>
      promises_read fun password _ => ?_
    cases hemail.symm.trans hread
    unfold HttpServer.passwordResetConfirmPlan
    split
    · rename_i heq _ _
      cases heq
      split
      · exact promises_badRequest
      · split
        · exact promises_badRequest
        · exact promises_ask huser fun _ => ⟨_, rfl⟩
    · exact promises_badRequest
  | _ => cases h

/-- An endpoint that ends sessions answers 204 only when the sessions are revoked. `logout` and
`DELETE sessions/{id}` end one session, `DELETE sessions` and `change-password` all sessions of
the account of the token, and `password-reset/confirm` all sessions of the account with the
email. This is about every session that was there before the request started; the other requests
of the run may do anything meanwhile. -/
theorem noContent_revokes (server : HttpServer) (s₁ s₂ : HttpState)
    (hs₁ : Reachable server.serve httpRun Db.Keyed s₁) (h : Steps server.serve httpRun s₁ s₂)
    (c : Nat) (hnew : s₁.calls c = none) (call : HttpCall) (reply : Reply)
    (hc : s₂.calls c = some ⟨.http call, .ended (.ok (some reply))⟩)
    (hstatus : reply.status = .noContent) (row : SessionRow) (hrow : row ∈ s₁.store.sessions)
    (hends : server.EndsSession s₁.store.users call row) :
    ∃ row' ∈ s₂.store.sessions, row'.id = row.id ∧ row'.revokedAt.isSome = true := by
  obtain ⟨t₁, ht₁, hsim₁⟩ := reachable_simulated hs₁
  obtain ⟨t₂, hsteps, hsim₂⟩ := steps_simulated hs₁ hsim₁ h
  have ht₂ := ht₁.steps hsteps
  have hidle := hsim₁.idle c hnew
  rw [← hsim₁.store] at hrow hends
  have howns : Owns (·.id) (·.userId) t₁.store.sessions row.id row.userId :=
    ⟨row, hrow, rfl, rfl⟩
  have hcalls : ∀ n r res, t₂.calls (Nat.pair c n) = some ⟨r, .ended res⟩ →
      EndingCall server t₁.store.users row (Ended row.id t₂.store.sessions) r res := by
    intro n r res hn
    unfold EndingCall
    split
    · rename_i token hcommand
      obtain ⟨p, command⟩ := r
      cases hcommand
      rintro context rfl
      obtain ⟨claims, ⟨_, _, _, _, _, _, hchecked⟩, rfl⟩ :=
        accessed_of_done ht₂ hn
      exact claims_of_parseAccessToken hchecked.parsed
    · rintro response rfl hcommand
      exact ended_of_returned ht₁ hsteps (hidle n) howns hn hcommand
  have hended : Ended row.id t₂.store.sessions := by
    rcases settled_of_simulates hsim₂ hc
      (httpPlan_promises server call t₁.store.users row _ hends) hcalls with
      ⟨x, heq, _⟩ | ⟨reply', heq, hpromise⟩
    · cases heq
    · cases heq
      exact hpromise reply rfl hstatus
  obtain ⟨row', hrow', hid, _⟩ := (ended_of_steps ht₁ hsteps (hidle 0) howns).1
  rw [← hsim₂.store]
  exact ⟨row', hrow', hid, hended row' hrow' hid⟩

/-- A logout that answers 204. -/
theorem noContent_revokes_logout : ∃ (s₁ s₂ : HttpState) (row row' : SessionRow),
    row ∈ s₁.store.sessions ∧ row.revokedAt = none ∧ row' ∈ s₂.store.sessions ∧
      row'.id = row.id ∧ row'.revokedAt.isSome = true := by
  obtain ⟨s₁, s₂, hs₁, hsteps, ⟨row, hrow, hid, hactive⟩, hnone, ⟨call, reply⟩, hanswered,
    hendpoint, hstatus, hclaims⟩ := exists_steps_of_replay (M := plainServer.serve) (A := httpRun)
    (I := Db.Keyed) (d := unitDb)
    ([.start 0 signInOverHttp] ++ httpActs 0 (signInInputs ⟨1⟩ ⟨2⟩))
    ([.start 1 (withUnitToken .logout ⟨1⟩)] ++ httpActs 1 (List.replicate 6 {}))
    (fun s₁ s₂ => (∃ row ∈ s₁.store.sessions, row.id = ⟨1⟩ ∧ row.revokedAt = none) ∧
      (s₁.calls 1).isNone ∧ ∃ x ∈ answered s₂ 1, x.1.endpoint = .logout ∧
        x.2.status = .noContent ∧
        (x.1.bearer.bind plainTokenProvider.accessTokenClaims).map (·.sessionId) = some ⟨1⟩)
    (by constructor <;> decide) (by decide +kernel)
  replace hendpoint : call.endpoint = .logout := hendpoint
  obtain ⟨claims, hbind, hsession⟩ := Option.map_eq_some_iff.mp hclaims
  obtain ⟨token, htoken, haccess⟩ := Option.bind_eq_some_iff.mp hbind
  have hends : plainServer.EndsSession s₁.store.users call row := by
    unfold HttpServer.EndsSession
    rw [hendpoint]
    exact ⟨token, claims, htoken, haccess, hid.trans hsession.symm⟩
  obtain ⟨row', hrow', hid', hrevoked⟩ := noContent_revokes plainServer s₁ s₂ hs₁ hsteps 1
    (Option.isNone_iff_eq_none.mp hnone) call reply (calls_of_answered hanswered) hstatus row
    hrow hends
  exact ⟨s₁, s₂, row, row', hrow, hactive, hrow', hid', hrevoked⟩

end SmirklyAuth
