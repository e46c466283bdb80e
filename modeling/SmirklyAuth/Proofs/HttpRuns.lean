import SmirklyAuth.Proofs.SessionAddress
import SmirklyAuth.Proofs.UserIsolation
import SmirklyAuth.Protocol.HttpPlans

/-!
# `SmirklyAuth.Proofs.HttpRuns`: runs of the process are runs of the use cases

The process serves any number of HTTP requests at once, and the outbox worker runs beside
them. `http_refines` says that such a run is a run of the use cases that the requests call:
the database and the events are the same at every point, and each reply is the one that the
plan of its request gives for the results of its calls.

The handlers add one thing to the use cases. A use case that takes an `AuthContext` trusts its
caller. In a run of the process the context of every such call was returned by an
authentication before (`Vouched`), so the modules that follow work with `vouchedRun`.
-/

set_option autoImplicit false

namespace SmirklyAuth

open Interleaving Dialogue

/-- A state of the process. -/
abbrev HttpState := State Db Input Event Error Incoming (Option Reply)

/-- The runs of the process, with fresh generated identifiers. -/
def httpRun : Admission Db Input Event Error Incoming (Option Reply) where
  start _ := True
  act s _ e := freshIds s.trace e = true

instance (r : Incoming) : Decidable (httpRun.start r) := isTrue trivial

instance (s : HttpState) (c : Nat) (e : Event) : Decidable (httpRun.act s c e) :=
  inferInstanceAs (Decidable (freshIds s.trace e = true))

/-- An authentication has returned the context that the call acts for. -/
def Vouched (s : SysState) (c : Nat) : Prop :=
  ∀ call context, s.calls c = some call → call.request.command.context = some context →
    ∃ c' p token, s.calls c' =
      some ⟨⟨p, .authenticateAccessToken token⟩, .done (.authenticated context)⟩

/-- The runs of the use cases in which every context has been returned before. -/
def vouchedRun : SysAdmission := admission (fun _ => True) fun s c _ => Vouched s c

/-! ### What the plans ask for -/

/-- The endpoints behind an access token. -/
def Endpoint.isProtected : Endpoint → Bool
  | .logout | .changePassword | .me | .sessions | .sessionsRevokeAll | .sessionRevoke => true
  | _ => false

/-- The access token of a request. -/
def HttpCall.bearer (call : HttpCall) : Option Str :=
  extractBearerToken call.request.authorization

/-- What a request may ask for after the calls of `hist`. A request to a protected endpoint
starts with the authentication of its own access token. A use case for a context is the second
call, after the authentication that has returned the context. -/
def Entitled (call : HttpCall) (hist : List (Request × Except Error Response)) (r : Request) :
    Prop :=
  match r.command.context with
  | none => call.endpoint.isProtected = true →
      hist = [] ∧ ∃ token, call.bearer = some token ∧
        r = ⟨call.policies, .authenticateAccessToken token⟩
  | some context => ∃ token, call.bearer = some token ∧
      hist = [(⟨call.policies, .authenticateAccessToken token⟩, .ok (.authenticated context))]

/-- What a request says when it asks for a use case that can end sessions. -/
def HttpServer.Asks (server : HttpServer) (call : HttpCall) : Command → Prop
  | .refresh cmd _ => call.endpoint = .refresh ∧ cmd.refreshToken = call.request.refreshCookie
  | .revokeCurrentSession _ => call.endpoint = .logout
  | .revokeSession _ sessionId => call.endpoint = .sessionRevoke ∧
      server.uuid call.request.sessionIdArg = some sessionId
  | .revokeAllSessions _ => call.endpoint = .sessionsRevokeAll
  | .changePassword _ cmd => call.endpoint = .changePassword ∧
      call.request.body.asString "current_password" = .ok cmd.currentPassword
  | .confirmReset cmd _ => call.endpoint = .passwordResetConfirm ∧
      getString call.request.body "token" = .ok (some cmd.token)
  | _ => True

/-- What a plan may ask for: the request is entitled to it and has asked for it. -/
def HttpServer.Allows (server : HttpServer) (call : HttpCall)
    (hist : List (Request × Except Error Response)) (r : Request) : Prop :=
  Entitled call hist r ∧ server.Asks call r.command

section

variable {server : HttpServer} {hist : List (Request × Except Error Response)} {call : HttpCall}
  {policies : AuthRuntimePolicies}

/-- Reading the body asks nothing. -/
theorem guarded_read {α : Type} {G : List (Request × Except Error Response) → Request → Prop}
    {value : Except Error α} {next : α → Plan}
    (h : ∀ a, value = .ok a → (next a).Guarded G hist) :
    (Plan.read value next).Guarded G hist := by
  cases value with
  | ok a => exact h a rfl
  | error x => trivial

variable {command : Command} {cookie : Option Cookie}

/-- A question that is allowed, and what may be asked after its answer. -/
theorem guarded_ask {G : List (Request × Except Error Response) → Request → Prop}
    {next : Response → Plan} {context : AuthErrorContext} (hG : G hist ⟨policies, command⟩)
    (h : ∀ response, (next response).Guarded G (hist ++ [(⟨policies, command⟩, .ok response)])) :
    (Plan.ask policies command next context cookie).Guarded G hist := by
  refine ⟨hG, fun res => ?_⟩
  cases res with
  | ok response => exact h response
  | error x => trivial

/-- A use case without a context, of an endpoint that is not protected. -/
theorem entitled_open (hcontext : command.context = none)
    (hopen : call.endpoint.isProtected = false) : Entitled call hist ⟨policies, command⟩ := by
  unfold Entitled
  rw [hcontext, hopen]
  exact fun h => nomatch h

/-- The plan behind an authentication may use the context that it returned. -/
theorem guarded_withAccessToken {token : Str}
    {action : AuthContext → Plan} (htoken : call.bearer = some token)
    (h : ∀ context, (action context).Guarded (server.Allows call)
      [(⟨call.policies, .authenticateAccessToken token⟩, .ok (.authenticated context))]) :
    (HttpServer.withAccessTokenPlan call.policies token cookie action).Guarded (server.Allows call)
      [] := by
  refine guarded_ask ⟨fun _ => ⟨rfl, token, htoken, rfl⟩, trivial⟩ fun response => ?_
  cases response with
  | authenticated context => exact h context
  | _ => trivial

/-- What may be asked behind an access token, where the token is taken from the header. -/
theorem guarded_authenticated {action : AuthContext → Plan}
    (h : ∀ token, call.bearer = some token → ∀ context,
      (action context).Guarded (server.Allows call)
        [(⟨call.policies, .authenticateAccessToken token⟩, .ok (.authenticated context))]) :
    (HttpServer.authenticatedPlan call.policies call.request cookie action).Guarded
      (server.Allows call) [] := by
  unfold HttpServer.authenticatedPlan
  split
  · trivial
  · rename_i token htoken
    exact guarded_withAccessToken htoken (h token htoken)

/-- The use case for a context is the last call of its plan. -/
theorem guarded_contextual {token : Str} {context : AuthContext}
    {next : Response → Plan} (htoken : call.bearer = some token)
    (hcontext : command.context = some context) (hasks : server.Asks call command)
    (h : ∀ response, ∃ res, next response = .answer res) :
    (Plan.ask policies command next .generic cookie).Guarded (server.Allows call)
      [(⟨call.policies, .authenticateAccessToken token⟩, .ok (.authenticated context))] := by
  refine guarded_ask ⟨?_, hasks⟩ fun response => ?_
  · unfold Entitled
    rw [hcontext]
    exact ⟨token, htoken, rfl⟩
  · obtain ⟨res, hres⟩ := h response
    rw [hres]
    trivial

end

/-- The plans of the endpoints that are not protected. -/
theorem openPlan_guarded (server : HttpServer) (call : HttpCall)
    (hopen : call.endpoint.isProtected = false) :
    (server.httpPlan call).Guarded (server.Allows call) [] := by
  have hone : ∀ {hist} {command : Command}, command.context = none →
      Entitled call hist ⟨call.policies, command⟩ := fun h => entitled_open h hopen
  unfold HttpServer.httpPlan
  cases hendpoint : call.endpoint with
  | signUp =>
    unfold HttpServer.signUpPlan
    simp only
    split
    · trivial
    · refine guarded_ask ⟨hone rfl, trivial⟩ fun response => ?_
      cases response <;> trivial
  | verifyEmail =>
    refine guarded_read fun email _ => guarded_read fun code _ => ?_
    unfold HttpServer.verifyEmailPlan
    split
    · split
      · trivial
      · split
        · trivial
        · refine ⟨⟨hone rfl, trivial⟩, fun res => ?_⟩
          simp only
          split <;> trivial
    · trivial
  | resendEmailVerification =>
    refine guarded_read fun email _ => ?_
    unfold HttpServer.resendEmailVerificationPlan
    split
    · trivial
    · split
      · trivial
      · exact guarded_ask ⟨hone rfl, trivial⟩ fun _ => trivial
  | passwordResetRequest =>
    refine guarded_read fun email _ => ?_
    unfold HttpServer.passwordResetRequestPlan
    split
    · trivial
    · exact guarded_ask ⟨hone rfl, trivial⟩ fun _ => trivial
  | passwordResetConfirm =>
    refine guarded_read fun email _ => guarded_read fun token htoken => ?_
    refine guarded_read fun password _ => ?_
    unfold HttpServer.passwordResetConfirmPlan
    split
    · split
      · trivial
      · split
        · trivial
        · exact guarded_ask ⟨hone rfl, hendpoint, htoken⟩ fun _ => trivial
    · trivial
  | signIn =>
    unfold HttpServer.signInPlan
    simp only
    split
    · trivial
    · refine guarded_ask ⟨hone rfl, trivial⟩ fun response => ?_
      cases response <;> trivial
  | refresh =>
    unfold HttpServer.refreshPlan
    simp only
    split
    · trivial
    · refine guarded_ask ⟨hone rfl, hendpoint, rfl⟩ fun response => ?_
      cases response <;> trivial
  | _ => simp [hendpoint, Endpoint.isProtected] at hopen

/-- The plans of the protected endpoints. -/
theorem protectedPlan_guarded (server : HttpServer) (call : HttpCall)
    (hprotected : call.endpoint.isProtected = true) :
    (server.httpPlan call).Guarded (server.Allows call) [] := by
  unfold HttpServer.httpPlan
  cases hendpoint : call.endpoint with
  | logout =>
    exact guarded_authenticated fun token htoken context =>
      guarded_contextual htoken rfl hendpoint fun _ => ⟨_, rfl⟩
  | sessionsRevokeAll =>
    exact guarded_authenticated fun token htoken context =>
      guarded_contextual htoken rfl hendpoint fun _ => ⟨_, rfl⟩
  | me =>
    refine guarded_authenticated fun token htoken context =>
      guarded_contextual htoken rfl trivial fun response => ?_
    cases response <;> exact ⟨_, rfl⟩
  | sessions =>
    refine guarded_authenticated fun token htoken context =>
      guarded_contextual htoken rfl trivial fun response => ?_
    cases response <;> exact ⟨_, rfl⟩
  | sessionRevoke =>
    refine guarded_authenticated fun token htoken context => ?_
    cases harg : server.uuid call.request.sessionIdArg with
    | none => trivial
    | some sessionId =>
      exact guarded_contextual htoken rfl ⟨hendpoint, harg⟩ fun _ => ⟨_, rfl⟩
  | changePassword =>
    unfold HttpServer.changePasswordPlan
    simp only
    split
    · trivial
    · rename_i token htoken
      refine guarded_read fun hasCurrent _ => guarded_read fun hasNew _ => ?_
      split
      · trivial
      · refine guarded_read fun current hcurrent => guarded_read fun new _ => ?_
        exact guarded_withAccessToken htoken fun context =>
          guarded_contextual htoken rfl ⟨hendpoint, hcurrent⟩ fun _ => ⟨_, rfl⟩
  | _ => simp [hendpoint, Endpoint.isProtected] at hprotected

/-- Every plan asks only for what it may ask for. -/
theorem httpPlan_guarded (server : HttpServer) (call : HttpCall) :
    (server.httpPlan call).Guarded (server.Allows call) [] := by
  cases hprotected : call.endpoint.isProtected with
  | false => exact openPlan_guarded server call hprotected
  | true => exact protectedPlan_guarded server call hprotected

/-! ### The simulation -/

/-- The numbers of the calls do not matter for the freshness of an identifier. -/
theorem freshIds_map (f : Nat → Nat) (tr : Trace) (e : Event) :
    freshIds (tr.map fun p => (f p.1, p.2)) e = freshIds tr e := by
  cases e <;> simp [freshIds, List.all_map, Function.comp_def]

section
variable {server : HttpServer} {I : Db → Prop}

/-- The server runs the plans. -/
theorem serve_eq (server : HttpServer) :
    server.serve = fun r => (server.plan r).prog server.app.run :=
  funext server.serve_eq_prog

variable {s' : HttpState} {s : SysState}

/-- In the run of the use cases, the contexts have been returned before. -/
theorem vouched_of_simulates
    (h : Simulates server.app.run server.plan s' s) (c n : Nat) :
    Vouched s (Nat.pair c n) := by
  intro call context hcall hcontext
  cases hc : s'.calls c with
  | none =>
    rw [h.idle c hc n] at hcall
    cases hcall
  | some call' =>
    obtain ⟨incoming, prog⟩ := call'
    cases incoming with
    | tick cfg =>
      -- a run of the worker has one call, without a context
      have hguarded : (server.plan (.tick cfg)).Guarded (fun _ r => r.command.context = none)
          [] := ⟨rfl, fun _ => trivial⟩
      obtain ⟨_, hnone, _⟩ := (h.tracks c _ hc).guarded hguarded hcall
      rw [hnone] at hcontext
      cases hcontext
    | http request =>
      obtain ⟨hist, ⟨hentitled, _⟩, _, hended⟩ :=
        (h.tracks c _ hc).guarded (httpPlan_guarded server request).map hcall
      unfold Entitled at hentitled
      rw [hcontext] at hentitled
      obtain ⟨token, _, rfl⟩ := hentitled
      exact ⟨Nat.pair c 0, _, token, hended 0 _ rfl⟩

/-- What may happen to a request may happen to its calls. -/
theorem vouchedRun_act {c n : Nat}
    {call : Call Db Input Event Error Request Response} {e : Event}
    (h : Simulates server.app.run server.plan s' s) (_ : s.calls (Nat.pair c n) = some call)
    (hact : httpRun.act s' c e) : vouchedRun.act s (Nat.pair c n) e := by
  refine ⟨?_, vouched_of_simulates h c n⟩
  rw [← freshIds_map (fun c => c.unpair.1), h.trace]
  exact hact

/-- One step of the server. -/
theorem step_simulated {s₁' : HttpState}
    (hs' : Reachable server.serve httpRun I s')
    (hsim : Simulates server.app.run server.plan s' s)
    (h : Step server.serve httpRun s' s₁') :
    ∃ s₁, Steps server.app.run vouchedRun s s₁ ∧
      Simulates server.app.run server.plan s₁' s₁ ∧
      ∀ c e, s₁'.trace = s'.trace ++ [(c, e)] → ActsVia server.app.run vouchedRun c e s s₁ := by
  rw [serve_eq] at hs' h
  exact h.simulated (fun r _ => guarded_of_forall (fun _ _ => trivial) _ _)
    (fun _ _ _ _ _ _ => vouchedRun_act) hs'.admitted hsim

/-- A sequence of steps of the server. -/
theorem steps_simulated {s₁' : HttpState}
    (hs' : Reachable server.serve httpRun I s')
    (hsim : Simulates server.app.run server.plan s' s)
    (h : Steps server.serve httpRun s' s₁') :
    ∃ s₁, Steps server.app.run vouchedRun s s₁ ∧
      Simulates server.app.run server.plan s₁' s₁ := by
  rw [serve_eq] at hs' h
  exact h.simulated (fun r _ => guarded_of_forall (fun _ _ => trivial) _ _)
    (fun _ _ _ _ _ _ => vouchedRun_act) hs' hsim

/-- A state of the server that is reached. -/
theorem reachable_simulated (hs' : Reachable server.serve httpRun I s') :
    ∃ s, Reachable server.app.run vouchedRun I s ∧
      Simulates server.app.run server.plan s' s := by
  rw [serve_eq] at hs'
  exact hs'.simulated (fun r _ => guarded_of_forall (fun _ _ => trivial) _ _)
    fun _ _ _ _ _ _ => vouchedRun_act

/-- The end of a request, from what its plan settles for the results of its calls. -/
theorem settled_of_simulates {s : HttpState} {t : SysState}
    (hsim : Simulates server.app.run server.plan s t) {c : Nat} {call : HttpCall}
    {res : Except Error (Option Reply)} (hc : s.calls c = some ⟨.http call, .ended res⟩)
    {E : Request → Except Error Response → Prop} {Q : Except Error Reply → Prop}
    (hsettles : (server.httpPlan call).Settles E Q)
    (hE : ∀ n r res, t.calls (Nat.pair c n) = some ⟨r, .ended res⟩ → E r res) :
    (∃ x, res = .error x ∧ Q (.error x)) ∨ ∃ reply, res = .ok (some reply) ∧ Q (.ok reply) := by
  obtain ⟨hist, hconversation, hended⟩ := (hsim.tracks c _ hc).conversation rfl
  have hplan : (server.plan (.http call)).Settles E fun res =>
      (∃ x, res = .error x ∧ Q (.error x)) ∨
        ∃ reply, res = .ok (some reply) ∧ Q (.ok reply) := by
    refine Settles.map hsettles fun res hres => ?_
    cases res with
    | ok reply => exact .inr ⟨reply, rfl, hres⟩
    | error x => exact .inl ⟨x, rfl, hres⟩
  refine hplan.conversation hconversation fun e he => ?_
  obtain ⟨n, hn⟩ := List.mem_iff_getElem?.mp he
  have hcall := hended n
  rw [hn, Option.map_some] at hcall
  exact hE n _ _ hcall

end

/-- Every run of the process is a run of the use cases in which the contexts have been returned
by authentications. The database is the same, and so are the events in their order; the event of
a request `c` is the event of one of its calls `Nat.pair c n`. A request that has ended has made
the calls of a conversation that follows its plan, each call has ended, and the reply or the
exception of the request is the one at the end of the conversation. -/
theorem http_refines (server : HttpServer) (I : Db → Prop) (s : HttpState)
    (hs : Reachable server.serve httpRun I s) :
    ∃ t : SysState, Reachable server.app.run vouchedRun I t ∧ t.store = s.store ∧
      t.trace.map (fun p => (p.1.unpair.1, p.2)) = s.trace ∧
      ∀ c incoming res, s.calls c = some ⟨incoming, .ended res⟩ →
        ∃ hist, Conversation (server.plan incoming) hist res ∧
          ∀ n, t.calls (Nat.pair c n) = hist[n]?.map fun e => ⟨e.1, .ended e.2⟩ := by
  obtain ⟨t, ht, hsim⟩ := reachable_simulated hs
  refine ⟨t, ht, hsim.store, hsim.trace, fun c incoming res hc => ?_⟩
  exact (hsim.tracks c _ hc).conversation rfl

/-! ### A concrete process -/

/-- The process of the concrete runs, without trusted proxies. -/
def plainServer : HttpServer where
  app := plainApp
  inet := plainInet
  extractor := directExtractor
  uuid text := if text.length = 16 then some (.ofBytes text) else none
  isoUtc _ := []

/-- A request that has got a reply. -/
def answered (s : HttpState) (c : Nat) : Option (HttpCall × Reply) :=
  match s.calls c with
  | some ⟨.http request, .done (some reply)⟩ => some (request, reply)
  | _ => none

/-- A request that was answered has ended. -/
theorem calls_of_answered {s : HttpState} {c : Nat} {call : HttpCall} {reply : Reply}
    (h : answered s c = some (call, reply)) :
    s.calls c = some ⟨.http call, .ended (.ok (some reply))⟩ := by
  unfold answered at h
  split at h
  · rename_i hc
    cases h
    exact hc
  · cases h

/-- A request that has started. -/
def requested (s : HttpState) (c : Nat) : Option HttpCall :=
  match s.calls c with
  | some ⟨.http request, _⟩ => some request
  | _ => none

/-- A request that was made has a call. -/
theorem calls_of_requested {s : HttpState} {c : Nat} {call : HttpCall}
    (h : requested s c = some call) : ∃ prog, s.calls c = some ⟨.http call, prog⟩ := by
  unfold requested at h
  split at h
  · rename_i prog hc
    cases h
    exact ⟨prog, hc⟩
  · cases h

/-- The statuses of the replies to a list of requests. -/
def statuses (s : HttpState) (cs : List Nat) : List (Option HttpStatus) :=
  cs.map fun c => (answered s c).map (·.2.status)

/-- A sign-in over HTTP. -/
def signInOverHttp : Incoming :=
  .http
    { policies := hourSessions
      endpoint := .signIn
      request :=
        { remoteAddress := []
          body := .object [(lit "username", .string (lit "unit_user")),
            (lit "password", .string (lit "old_password"))] } }

/-- A request to an endpoint with the access token of a session of the account. -/
def withUnitToken (endpoint : Endpoint) (sessionId : Uuid) : Incoming :=
  .http
    { policies := hourSessions
      endpoint := endpoint
      request :=
        { remoteAddress := []
          authorization := lit "Bearer " ++
            (plainTokenProvider.generateTokens unitUser.id sessionId ⟨0⟩ 0).accessToken } }

/-- The call `c` takes one step for each input. -/
def httpActs (c : Nat) (inputs : List Input) : List (Move Input Incoming) := inputs.map (.act c)

/-- A sign-in, and a logout with the access token of the new session. -/
def signInAndLogout : List (Move Input Incoming) :=
  [.start 0 signInOverHttp] ++ httpActs 0 (signInInputs ⟨1⟩ ⟨2⟩) ++
    [.start 1 (withUnitToken .logout ⟨1⟩)] ++ httpActs 1 (List.replicate 6 {})

/-- The two requests are answered, and the calls of the services reach the same store. -/
theorem http_refines_signInAndLogout : ∃ (s : HttpState) (t : SysState),
    statuses s [0, 1] = [some .ok, some .noContent] ∧
      Reachable plainServer.app.run vouchedRun (· = unitDb) t ∧ t.store = s.store := by
  obtain ⟨s, hs, hstatus⟩ := exists_reachable_of_replay (M := plainServer.serve) (A := httpRun)
    (I := (· = unitDb)) signInAndLogout
    (fun s => statuses s [0, 1] = [some .ok, some .noContent]) rfl (by decide +kernel)
  obtain ⟨t, ht, hstore, _⟩ := http_refines plainServer (· = unitDb) s hs
  exact ⟨s, t, hstatus, ht, hstore⟩

end SmirklyAuth
