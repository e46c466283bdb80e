import SmirklyAuth.Proofs.ApiConformance
import SmirklyAuth.Proofs.RevokedSessions

/-!
# `SmirklyAuth.Proofs.HttpAuthority`: what a request may write

A request to one of the six endpoints behind an access token first authenticates its own token
and then runs one use case for the context that it got (`calls_of_protected`). So its own events
start with those of an authentication that has accepted the token (`accessed_of_context`).
`protected_authority` is what follows for the database: such a request writes only after its
token has been accepted and the session of the token has been found active, and it writes only
rows of the account that the token names.
-/

set_option autoImplicit false

namespace SmirklyAuth

open Interleaving Dialogue
open Sql (Owns)

/-! ### The calls of a request -/

section
variable {server : HttpServer} {s : HttpState} {t : SysState} {c : Nat} {call : HttpCall}
  {prog : Service (Option Reply)}

variable {sub : Call Db Input Event Error Request Response}

/-- A request to a protected endpoint has called the authentication of its own token first, and
then a use case for the context that this authentication has returned. -/
theorem calls_of_protected (hsim : Simulates server.app.run server.plan s t)
    (hc : s.calls c = some ⟨.http call, prog⟩) (hprotected : call.endpoint.isProtected = true)
    {n : Nat}
    (hsub : t.calls (Nat.pair c n) = some sub) :
    ∃ token, call.bearer = some token ∧
      (n = 0 ∧ sub.request = ⟨call.policies, .authenticateAccessToken token⟩ ∨
        ∃ context, sub.request.command.context = some context ∧
          t.calls (Nat.pair c 0) = some ⟨⟨call.policies, .authenticateAccessToken token⟩,
            .ended (.ok (.authenticated context))⟩) := by
  obtain ⟨hist, ⟨hentitled, _⟩, hlength, hended⟩ :=
    (hsim.tracks c _ hc).guarded (httpPlan_guarded server call).map hsub
  unfold Entitled at hentitled
  cases hcontext : sub.request.command.context with
  | none =>
    rw [hcontext] at hentitled
    obtain ⟨hfirst, token, htoken, hrequest⟩ := hentitled hprotected
    rw [show hist = [] from hfirst] at hlength
    exact ⟨token, htoken, .inl ⟨hlength.symm, hrequest⟩⟩
  | some context =>
    rw [hcontext] at hentitled
    obtain ⟨token, htoken, rfl⟩ := hentitled
    exact ⟨token, htoken, .inr ⟨context, rfl, hended 0 _ rfl⟩⟩

/-- What the first call of a request has checked, the events of the request show. -/
theorem accessed_of_first (hsim : Simulates server.app.run server.plan s t) {token : Str}
    {claims : AccessTokenClaims}
    (h : Accessed server.app token claims (own (Nat.pair c 0) t.trace)) :
    Accessed server.app token claims (own c s.trace) := by
  obtain ⟨rest, hown, _⟩ := hsim.first c
  rw [hown]
  exact h.append rest

/-- A call for a context comes after the access token of its request was accepted. -/
theorem accessed_of_context {I : Db → Prop} (ht : Reachable server.app.run vouchedRun I t)
    (hsim : Simulates server.app.run server.plan s t)
    (hc : s.calls c = some ⟨.http call, prog⟩) {n : Nat}
    (hsub : t.calls (Nat.pair c n) = some sub) {context : AuthContext}
    (hcontext : sub.request.command.context = some context) :
    ∃ token claims, call.bearer = some token ∧
      Accessed server.app token claims (own c s.trace) ∧
      context = { userId := claims.userId, sessionId := claims.sessionId } := by
  obtain ⟨hist, ⟨hentitled, _⟩, _, hended⟩ :=
    (hsim.tracks c _ hc).guarded (httpPlan_guarded server call).map hsub
  unfold Entitled at hentitled
  rw [hcontext] at hentitled
  obtain ⟨token, htoken, rfl⟩ := hentitled
  obtain ⟨claims, hclaims, heq⟩ := accessed_of_done ht (hended 0 _ rfl)
  exact ⟨token, claims, htoken, accessed_of_first hsim hclaims, heq⟩

/-- A request to `refresh` has called `Refresh` with its cookie. -/
theorem calls_of_refresh (hsim : Simulates server.app.run server.plan s t)
    (hc : s.calls c = some ⟨.http call, prog⟩) (hendpoint : call.endpoint = .refresh) {n : Nat}
    (hsub : t.calls (Nat.pair c n) = some sub) :
    sub.request.command =
      .refresh ⟨call.request.refreshCookie⟩ (server.requestMeta call.request) := by
  have hguarded : (server.plan (.http call)).Guarded (fun _ r => r.command =
      .refresh ⟨call.request.refreshCookie⟩ (server.requestMeta call.request)) [] := by
    refine Guarded.map ?_
    unfold HttpServer.httpPlan
    simp only [hendpoint]
    unfold HttpServer.refreshPlan
    split
    · trivial
    · refine ⟨rfl, fun res => ?_⟩
      rcases res with x | response
      · trivial
      · cases response <;> trivial
  obtain ⟨_, hcommand, _⟩ := (hsim.tracks c _ hc).guarded hguarded hsub
  exact hcommand

end

/-! ### Authority -/

/-- The account of an authentication that has accepted its token. -/
theorem actingUser_of_accessed {app : App} {token : Str} {claims : AccessTokenClaims}
    {evs : List Event} (h : Accessed app token claims evs) (p : AuthRuntimePolicies)
    (evs' : List Event) :
    actingUser ⟨p, .authenticateAccessToken token⟩ (evs ++ evs') = some claims.userId := by
  obtain ⟨_, _, _, _, _, rfl, _⟩ := h
  rfl

/-- The use cases behind an access token write neither attempts nor mails. -/
theorem unowned_of_commits {app : App} {r : Request} {evs : List Event} {tx : TxEvent}
    {db db' : Db} (h : Commits app r evs tx db db')
    (hcommand : (∃ token, r.command = .authenticateAccessToken token) ∨
      ∃ context, r.command.context = some context) :
    tx.writesAttempts = false ∧ tx.writesOutbox = false := by
  cases h <;> first
    | exact ⟨rfl, rfl⟩
    | rcases hcommand with ⟨_, hnone⟩ | ⟨_, hnone⟩ <;> cases hnone

/-- What a step for an account may do: the rows of the other accounts are the same after it, a
row that was not there before it belongs to the account, and the tables whose rows belong to no
account, those of the attempts and of the mails, are the same. -/
structure WritesOnly (userId : Uuid) (db db' : Db) : Prop where
  isolated : Isolated (some userId) db db'
  attempts : db'.attempts = db.attempts
  outbox : db'.emailOutbox = db.emailOutbox

/-- A step of a request to a protected endpoint that changes the database comes after its own
access token has been accepted: the events of the request start with the reading of the token,
which named a session that the request found active, unexpired at its clock reading and of the
user in the token. The step writes only rows of that user. -/
theorem protected_authority (server : HttpServer) (s s' : HttpState)
    (hs : Reachable server.serve httpRun Db.Keyed s) (hstep : Step server.serve httpRun s s')
    (c : Nat) (e : Event) (hevent : s'.trace = s.trace ++ [(c, e)]) (call : HttpCall)
    (prog : Service (Option Reply)) (hc : s.calls c = some ⟨.http call, prog⟩)
    (hprotected : call.endpoint.isProtected = true) (hwrites : s'.store ≠ s.store) :
    ∃ token claims, call.bearer = some token ∧
      Accessed server.app token claims (own c s.trace) ∧
      WritesOnly claims.userId s.store s'.store := by
  obtain ⟨t, ht, hsim⟩ := reachable_simulated hs
  obtain ⟨t', _, hsim', hacts⟩ := step_simulated hs hsim hstep
  obtain ⟨m, sub, t₁, hsub, hstep₁, hevent₁, hstore₁, _⟩ := hacts c e hevent
  rw [hsim'.store] at hstore₁
  -- the step of the use case that the request waits for
  obtain ⟨r, p, p', db, hsub', _, _, hprotocol, rfl⟩ :=
    hstep₁.of_event (app_refines server.app) ht hevent₁
  rw [hsub] at hsub'
  cases hsub'
  obtain ⟨hkeyed, hfound⟩ := foundRows_of_reachable ht
  have hserves := serves_step hprotocol hkeyed (hfound _)
  replace hstore₁ : db = s'.store := hstore₁
  rw [hstore₁, hsim.store] at hserves
  obtain ⟨tx, rfl, hcommit⟩ : ∃ tx, e = .committed tx ∧
      Commits server.app r (own (Nat.pair c m) t.trace) tx s.store s'.store := by
    rw [← hstore₁, ← hsim.store]
    cases hprotocol with
    | aborted _ => exact absurd (hstore₁.symm.trans hsim.store) hwrites
    | read _ => exact absurd (hstore₁.symm.trans hsim.store) hwrites
    | committed hcommit => exact ⟨_, rfl, hcommit⟩
  have hframe := commits_frame hcommit
  obtain ⟨token, htoken, ⟨rfl, hrequest⟩ | ⟨context, hcontext, hfirst⟩⟩ :=
    calls_of_protected hsim hc hprotected hsub
  · -- the authentication itself writes, after it has accepted the token
    obtain rfl : r = _ := hrequest
    obtain ⟨claims, hclaims⟩ := hcommit.accessed
    rw [actingUser_of_accessed hclaims] at hserves
    obtain ⟨hattempts, houtbox⟩ := unowned_of_commits hcommit (.inl ⟨token, rfl⟩)
    exact ⟨token, claims, htoken, accessed_of_first hsim hclaims, hserves.isolated,
      hframe.attempts hattempts, hframe.outbox houtbox⟩
  · -- the use case for the context that the authentication has returned
    obtain ⟨claims, hclaims, rfl⟩ := accessed_of_done ht hfirst
    have hactor : actingUser r (own (Nat.pair c m) t.trace ++ [.committed tx]) =
        some claims.userId := by
      unfold actingUser
      rw [show r.command.context = _ from hcontext]
    rw [hactor] at hserves
    obtain ⟨hattempts, houtbox⟩ := unowned_of_commits hcommit (.inr ⟨_, hcontext⟩)
    exact ⟨token, claims, htoken, accessed_of_first hsim hclaims, hserves.isolated,
      hframe.attempts hattempts, hframe.outbox houtbox⟩

/-- The last step of a logout. -/
theorem protected_authority_logout : ∃ (s s' : HttpState) (call : HttpCall),
    requested s 1 = some call ∧ call.endpoint = .logout ∧ s'.store ≠ s.store ∧
      ∃ token claims, call.bearer = some token ∧
        Accessed plainServer.app token claims (own 1 s.trace) ∧
        WritesOnly claims.userId s.store s'.store := by
  obtain ⟨s, s', e, hs, hstep, hevent, hendpoint, hchanged⟩ := exists_step_of_replay
    (M := plainServer.serve) (A := httpRun) (I := Db.Keyed) (d := unitDb)
    ([.start 0 signInOverHttp] ++ httpActs 0 (signInInputs ⟨1⟩ ⟨2⟩) ++
      [.start 1 (withUnitToken .logout ⟨1⟩)] ++ httpActs 1 (List.replicate 5 {}))
    1 {} (fun s s' => (requested s 1).map (·.endpoint) = some .logout ∧
      s'.store.sessions ≠ s.store.sessions) (by constructor <;> decide) (by decide +kernel)
  obtain ⟨call, hcall, hlogout⟩ := Option.map_eq_some_iff.mp hendpoint
  obtain ⟨prog, hc⟩ := calls_of_requested hcall
  have hstore : s'.store ≠ s.store := fun heq => hchanged (congrArg Db.sessions heq)
  exact ⟨s, s', call, hcall, hlogout, hstore, protected_authority plainServer s s' hs hstep 1 e
    hevent call prog hc (by rw [hlogout]; rfl) hstore⟩

end SmirklyAuth
