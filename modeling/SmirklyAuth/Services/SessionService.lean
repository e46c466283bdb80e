import SmirklyAuth.Infra.Repositories

/-!
# `SmirklyAuth.Services.SessionService`: listing and revoking sessions

`SessionService` of `services/usecases`.
-/

set_option autoImplicit false

namespace SmirklyAuth

open Service

namespace SessionService

/-- `ListSessions`. -/
def listSessions (ports : Ports) (context : AuthContext) : Service (List Session) :=
  port .listedSessions fun i db =>
    SessionRepository.listActiveByUserId ports.pg i context.userId db

/-- `RevokeSession`. -/
def revokeSession (ports : Ports) (context : AuthContext) (sessionId : Uuid) :
    Service Unit := do
  let target? ← port .foundSession fun _ db =>
    SessionRepository.findById ports.pg sessionId db
  let target ← orThrow target? (.sessionNotFound "session not found")
  throwIf (target.userId != context.userId)
    (.sessionForbidden "session belongs to another user")
  if target.revokedAt.isSome then
    return ()
  else
    let _ ← transaction (fun _ => .revoked sessionId) fun i =>
      SessionRepository.revokeByUserId i sessionId context.userId

/-- `RevokeCurrentSession`. -/
def revokeCurrentSession (ports : Ports) (context : AuthContext) : Service Unit :=
  revokeSession ports context context.sessionId

/-- `RevokeAllSessions`. -/
def revokeAllSessions (context : AuthContext) : Service Unit := do
  let _ ← transaction (fun _ => .revokedAll context.userId) fun i =>
    SessionRepository.revokeAllByUserId i context.userId

end SessionService

end SmirklyAuth
