import SmirklyAuth.Lib.Outcomes
import SmirklyAuth.Protocol.Refinement

/-!
# `SmirklyAuth.Proofs.AccessChecks`: what an authentication has checked

`AuthenticateAccessToken` writes, and returns a context, only after it has accepted the token,
found the session that the token names, and checked its user, its revocation and its expiry
(`Accessed`).
-/

set_option autoImplicit false

namespace SmirklyAuth

open Interleaving

/-- The events of an authentication that has accepted its token. -/
def Accessed (app : App) (token : Str) (claims : AccessTokenClaims) (evs : List Event) : Prop :=
  ∃ t session now user rest, evs = accessEvents t claims session now user ++ rest ∧
    AccessChecked app token t claims session now

/-- What a request has accepted stays in its history. -/
theorem Accessed.append {app : App} {token : Str} {claims : AccessTokenClaims}
    {evs : List Event} (h : Accessed app token claims evs) (evs' : List Event) :
    Accessed app token claims (evs ++ evs') := by
  obtain ⟨t, session, now, user, rest, rfl, hchecked⟩ := h
  exact ⟨t, session, now, user, rest ++ evs', List.append_assoc _ _ _, hchecked⟩

section
variable {app : App} {token : Str}

/-- A transaction of an authentication comes after the checks. -/
theorem Commits.accessed {p : AuthRuntimePolicies} {evs : List Event} {t : TxEvent} {db db' : Db}
    (h : Commits app ⟨p, .authenticateAccessToken token⟩ evs t db db') :
    ∃ claims, Accessed app token claims evs := by
  cases h with
  | sessionActivity hchecked => exact ⟨_, _, _, _, _, [], (List.append_nil _).symm, hchecked⟩
  | revoked hcmd => cases hcmd

variable {A : SysAdmission} {I : Db → Prop} {s : SysState}

/-- An authentication that returned a context has accepted its token. -/
theorem accessed_of_done (hs : Reachable app.run A I s) {c : Nat} {p : AuthRuntimePolicies}
    {context : AuthContext} (hc : s.calls c =
      some ⟨⟨p, .authenticateAccessToken token⟩, .done (.authenticated context)⟩) :
    ∃ claims, Accessed app token claims (own c s.trace) ∧
      context = { userId := claims.userId, sessionId := claims.sessionId } := by
  have hfinish := (hs.finish (app_refines app) hc).1
  generalize own c s.trace = evs at hfinish ⊢
  cases hfinish with
  | accessUpdated hchecked => exact ⟨_, ⟨_, _, _, _, _, rfl, hchecked⟩, rfl⟩
  | accessRecent hchecked =>
    exact ⟨_, ⟨_, _, _, _, [], (List.append_nil _).symm, hchecked⟩, rfl⟩
  | other h => cases h

/-- An authentication that has written has accepted its token. -/
theorem accessed_of_committed (hs : Reachable app.run A I s) {c : Nat}
    {call : Call Db Input Event Error Request Response} (hc : s.calls c = some call)
    (htoken : call.request.command = .authenticateAccessToken token) {t : TxEvent}
    (ht : .committed t ∈ own c s.trace) : ∃ claims, Accessed app token claims (own c s.trace) := by
  refine Reachable.call_invariant (J := fun r evs => r.command = .authenticateAccessToken token →
    ∀ t, .committed t ∈ evs → ∃ claims, Accessed app token claims evs)
    (app_refines app) (fun _ _ _ _ h => nomatch h) ?_ hs c call hc htoken t ht
  rintro s db c ⟨p, command⟩ e hs hJ _ _ hstep rfl t hmem
  -- the transaction came before, or it is the step itself
  rcases List.mem_append.mp hmem with hold | hlast
  · obtain ⟨claims, hclaims⟩ := hJ rfl t hold
    exact ⟨claims, hclaims.append _⟩
  · cases List.mem_singleton.mp hlast
    obtain ⟨claims, hclaims⟩ := (ProtocolStep.commits hstep).accessed
    exact ⟨claims, hclaims.append _⟩

end

end SmirklyAuth
