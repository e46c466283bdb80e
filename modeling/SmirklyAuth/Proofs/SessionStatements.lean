import SmirklyAuth.Lib.CommitOrder
import SmirklyAuth.Proofs.BulkRevocation
import SmirklyAuth.Protocol.Transactions

/-!
# `SmirklyAuth.Proofs.SessionStatements`: the session transactions, statement by statement

The use cases are modelled with each transaction as one step. PostgreSQL runs them at READ
COMMITTED, where the statements of concurrent transactions interleave and every statement sees
the rows that are committed when it starts. Here the transactions that write single sessions are
programs of single statements:

* `SignIn` inserts a session;
* `Refresh` inserts the replacement and then runs `sessions_revoke_and_replace`, and throws when
  this yields no row;
* `RevokeSession` and `RevokeCurrentSession` run `sessions_revoke_by_user_id`;
* `AuthenticateAccessToken` runs `sessions_update_last_used`.

`sessionTransactions_serial`: for every interleaving of any number of them, with rollbacks at any
point, the committed table is the one that the transactions of the use cases yield, one after the
other, and no session is rotated twice. So the steps of the use cases are not too coarse here. The
bulk revocations are left out, and with them the transaction `reuse_detected` of `Refresh`: there
are runs with them that have no such order, since a replacement that a concurrent `Refresh` has
not yet committed escapes them.
-/

set_option autoImplicit false

namespace SmirklyAuth

open Sql (Update)
open ReadCommitted

/-- What a call has computed when its transaction on `sessions` begins. -/
inductive SessionCall where
  | signIn (i : Input) (data : NewSessionData)
  | refresh (i : Input) (session : Session) (data : NewSessionData)
  | revoke (i : Input) (sessionId userId : Uuid)
  | activity (sessionId : Uuid) (lastUsedAt : Time)

namespace SessionCall

/-- `sessions_insert`. The statement fails when the address is not an `inet` value. -/
def insertStatement (pg : Postgres) (i : Input) (data : NewSessionData) :
    Statement SessionRow Empty :=
  .insert (fun _ => (pg.inetArg data.ip).map (SessionRepository.newRow i data)) true

/-- The statements on `sessions`. -/
def statements (pg : Postgres) : SessionCall → List (Statement SessionRow Empty)
  | signIn i data => [insertStatement pg i data]
  | refresh i session data =>
      [insertStatement pg i data,
        .update (sessionsRevokeAndReplace i.dbNow session.id data.id) true]
  | revoke i sessionId userId => [.update (sessionsRevokeByUserId i.dbNow sessionId userId) false]
  | activity sessionId lastUsedAt =>
      [.update (sessionsUpdateLastUsed sessionId lastUsedAt.timePointTz) false]

/-- The same transaction as one step of the use case. -/
def atomic (pg : Postgres) : SessionCall → Tx Unit
  | signIn i data => do
      let _ ← SessionRepository.insert pg i data
  | refresh i session data => do
      let _ ← AuthenticationService.refreshTx pg session data i
  | revoke i sessionId userId => do
      let _ ← SessionRepository.revokeByUserId i sessionId userId
  | activity sessionId lastUsedAt => do
      let _ ← SessionRepository.updateLastUsed sessionId lastUsedAt

/-- The session that the call has found before its transaction. -/
def target : SessionCall → Option Uuid
  | signIn _ _ => none
  | refresh _ session _ => some session.id
  | revoke _ sessionId _ => some sessionId
  | activity sessionId _ => some sessionId

end SessionCall

/-- Calls on one table. `fresh`: a replacement has a new id. -/
structure SessionCalls (τ : Type) where
  pg : Postgres
  rows : List SessionRow
  call : τ → SessionCall
  ids : (rows.map (·.id)).Nodup
  fresh : ∀ t i session data, call t = .refresh i session data → data.id ≠ session.id

namespace SessionCalls

variable {τ : Type} [DecidableEq τ]

/-- The calls as transactions over the table of the sessions. -/
def system (calls : SessionCalls τ) : System τ SessionRow Empty where
  prog t := (calls.call t).statements calls.pg
  conflict r r' := decide (r.id = r'.id)

/-- A transaction runs when the session that the call has found is committed. -/
def Ready (calls : SessionCalls τ) (s : State τ SessionRow Empty) : Action τ → Prop
  | .run t => ∀ id ∈ (calls.call t).target, ∃ r ∈ s.committedRows, r.id = id
  | _ => True

instance (calls : SessionCalls τ) (s : State τ SessionRow Empty) (a : Action τ) :
    Decidable (calls.Ready s a) :=
  match a with
  | .run t =>
      decidable_of_iff ((calls.call t).target.all fun id => s.committedRows.any (·.id == id))
        (by simp [Ready, Option.all_eq_true])
  | .touch _ _ => .isTrue trivial
  | .finish _ => .isTrue trivial
  | .commit _ => .isTrue trivial
  | .rollback _ => .isTrue trivial

/-- The transactions as steps of the use cases, one after the other. -/
def inOrder (calls : SessionCalls τ) : List τ → Tx Unit
  | [] => pure ()
  | t :: ts => do
      (calls.call t).atomic calls.pg
      calls.inOrder ts

/-! ### The statements -/

section
variable {calls : SessionCalls τ} {t : τ} {u : Update SessionRow} {required : Bool}

/-- What an `UPDATE` of a single session does: its condition is about the key, the owner and
`revoked_at`, and it neither writes the key and the owner nor takes a revocation back. -/
structure Single (calls : SessionCalls τ) (t : τ) (u : Update SessionRow) : Prop where
  target : ∃ id ∈ (calls.call t).target, ∀ r, u.cond r = true → r.id = id
  cond : ∃ P : Uuid → Uuid → Bool, ∀ r, u.cond r = (P r.id r.userId && r.revokedAt.isNone)
  id : ∀ r, (u.set r).id = r.id
  userId : ∀ r, (u.set r).userId = r.userId
  revoked : ∀ r, (u.set r).revokedAt = none → r.revokedAt = none

omit [DecidableEq τ] in
/-- Every update of a call writes one row. -/
theorem single_of_mem (h : .update u required ∈ calls.system.prog t) : calls.Single t u := by
  change .update u required ∈ (calls.call t).statements calls.pg at h
  cases hcall : calls.call t with
  | signIn i data => simp [hcall, SessionCall.statements, SessionCall.insertStatement] at h
  | refresh i session data =>
    simp only [hcall, SessionCall.statements, SessionCall.insertStatement, List.mem_cons,
      reduceCtorEq, Statement.update.injEq, List.not_mem_nil, or_false, false_or] at h
    obtain ⟨rfl, _⟩ := h
    refine ⟨⟨session.id, by simp [hcall, SessionCall.target], fun r hr => ?_⟩,
      ⟨fun id _ => id == session.id, fun r => rfl⟩, fun _ => rfl, fun _ => rfl,
      by simp [sessionsRevokeAndReplace]⟩
    simp only [sessionsRevokeAndReplace, Bool.and_eq_true, beq_iff_eq] at hr
    exact hr.1
  | revoke i sessionId userId =>
    simp only [hcall, SessionCall.statements, List.mem_singleton, Statement.update.injEq] at h
    obtain ⟨rfl, _⟩ := h
    refine ⟨⟨sessionId, by simp [hcall, SessionCall.target], fun r hr => ?_⟩,
      ⟨fun id user => id == sessionId && user == userId, fun r => rfl⟩, fun _ => rfl, fun _ => rfl,
      by simp [sessionsRevokeByUserId]⟩
    simp only [sessionsRevokeByUserId, Bool.and_eq_true, beq_iff_eq] at hr
    exact hr.1.1
  | activity sessionId lastUsedAt =>
    simp only [hcall, SessionCall.statements, List.mem_singleton, Statement.update.injEq] at h
    obtain ⟨rfl, _⟩ := h
    refine ⟨⟨sessionId, by simp [hcall, SessionCall.target], fun r hr => ?_⟩,
      ⟨fun id _ => id == sessionId, fun r => rfl⟩, fun _ => rfl, fun _ => rfl, fun _ h => h⟩
    simp only [sessionsUpdateLastUsed, Bool.and_eq_true, beq_iff_eq] at hr
    exact hr.1

omit [DecidableEq τ] in
/-- The statements of single sessions are separate. -/
theorem separate (calls : SessionCalls τ) : Separate calls.system (·.id) where
  conflict _ _ := rfl
  keeps t u required x h := (single_of_mem h).id x
  constant t make required h := by
    change .insert make required ∈ (calls.call t).statements calls.pg at h
    intro rows
    cases hcall : calls.call t with
    | signIn i data =>
      simp only [hcall, SessionCall.statements, SessionCall.insertStatement, List.mem_singleton,
        Statement.insert.injEq] at h
      rw [h.1]
    | refresh i session data =>
      simp only [hcall, SessionCall.statements, SessionCall.insertStatement, List.mem_cons,
        Statement.insert.injEq, reduceCtorEq, List.not_mem_nil, or_false] at h
      rw [h.1]
    | revoke i sessionId userId => simp [hcall, SessionCall.statements] at h
    | activity sessionId lastUsedAt => simp [hcall, SessionCall.statements] at h
  own t := by
    change ((calls.call t).statements calls.pg).Pairwise _
    cases hcall : calls.call t with
    | signIn i data => exact List.pairwise_singleton _ _
    | refresh i session data =>
      -- the replacement is not the session that is replaced
      have hne := calls.fresh t i session data hcall
      refine List.pairwise_pair.mpr fun x hx u required heq => ?_
      cases heq
      obtain ⟨ip, _, rfl⟩ : ∃ ip, calls.pg.inetArg data.ip = some ip ∧
          SessionRepository.newRow i data ip = x := by
        simpa [SessionCall.insertStatement, Statement.newRow] using hx
      simp [sessionsRevokeAndReplace, SessionRepository.newRow, hne]
    | revoke i sessionId userId => exact List.pairwise_singleton _ _
    | activity sessionId lastUsedAt => exact List.pairwise_singleton _ _
  stable t u required t' u' required' x h h' hfalse htrue := by
    obtain ⟨P, hcond⟩ := (single_of_mem h).cond
    have hset := single_of_mem h'
    rw [hcond, Bool.and_eq_false_iff] at hfalse ⊢
    rw [hset.id, hset.userId]
    rcases hfalse with hkey | hrevoked
    · exact .inl hkey
    · refine .inr ?_
      rw [Option.isNone_eq_false_iff] at hrevoked ⊢
      by_contra hnone
      rw [hset.revoked x (Option.not_isSome_iff_eq_none.mp hnone)] at hrevoked
      cases hrevoked

end

omit [DecidableEq τ] in
/-- The session of a transaction is committed when it begins, so no new row meets its
statement. -/
theorem sealed_of_pinned {calls : SessionCalls τ} {s : State τ SessionRow Empty}
    (hs : Pinned (·.id) (fun t => (calls.call t).target) s) : Sealed calls.system s := by
  intro t u hactive hstarted c hc t' x hnone hpending hne
  have hbegun := begun_of_started hstarted
  obtain ⟨j, required, hprog, _⟩ := hstarted
  obtain ⟨id, hid, htarget⟩ := (single_of_mem (List.mem_of_getElem? hprog)).target
  by_contra hcond
  exact hs.key_ne hactive hbegun hid hc hnone hpending
    (htarget x (by simpa using hcond))

/-! ### The transactions of the use cases -/

section
variable {calls : SessionCalls τ} {t : τ} {db : Db} {rows rows' : List SessionRow}

omit [DecidableEq τ] in
/-- `sessions_insert` as a statement and as a step of the repository. -/
theorem exec_insertStatement {i : Input} {data : NewSessionData}
    (h : (SessionCall.insertStatement calls.pg i data).exec calls.system.conflict db.sessions =
      some rows) :
    ∃ session, SessionRepository.insert calls.pg i data db =
        .ok (session, { db with sessions := rows }) ∧ session.id = data.id := by
  rcases Statement.exec_insert h with ⟨row, hmake, hfree, rfl⟩ | ⟨_, hoptional, _⟩
  · obtain ⟨ip, hip, rfl⟩ := Option.map_eq_some_iff.mp hmake
    have hinsert : sessionsInsert (SessionRepository.newRow i data ip) db.sessions =
        some (db.sessions ++ [SessionRepository.newRow i data ip]) := by
      refine if_neg fun htaken => ?_
      obtain ⟨r, hr, hid⟩ := List.any_eq_true.mp htaken
      exact of_decide_eq_false (hfree r hr) (beq_iff_eq.mp hid).symm
    refine ⟨(SessionRepository.newRow i data ip).toDomain calls.pg, ?_, rfl⟩
    simp [SessionRepository.insert, hip, hinsert]
  · cases hoptional

omit [DecidableEq τ] in
/-- An `UPDATE` as a statement and as a step of the repository. -/
theorem exec_update (db : Db) {u : Update SessionRow} {required : Bool}
    (h : (.update u required : Statement SessionRow Empty).exec calls.system.conflict db.sessions =
      some rows) :
    SessionRepository.update u db = .ok (u.hits db.sessions, { db with sessions := rows }) ∧
      (required = true → u.hits db.sessions = true) := by
  obtain ⟨rfl, hhits⟩ := Statement.exec_update h
  exact ⟨rfl, hhits⟩

omit [DecidableEq τ] in
/-- A transaction that can be executed without interruption is a step of its use case. -/
theorem atomic_of_exec (h : calls.system.exec db.sessions t = some rows) :
    (calls.call t).atomic calls.pg db = .ok ((), { db with sessions := rows }) := by
  change ((calls.call t).statements calls.pg).foldlM _ _ = _ at h
  cases hcall : calls.call t with
  | signIn i data =>
    rw [hcall, SessionCall.statements, List.foldlM_cons] at h
    obtain ⟨rows₁, hinsert, hrest⟩ := Option.bind_eq_some_iff.mp h
    cases hrest
    obtain ⟨session, hok, _⟩ := exec_insertStatement hinsert
    exact Tx.bind_eq_ok.mpr ⟨session, _, hok, rfl⟩
  | refresh i session data =>
    rw [hcall, SessionCall.statements, List.foldlM_cons] at h
    obtain ⟨rows₁, hinsert, hrest⟩ := Option.bind_eq_some_iff.mp h
    rw [List.foldlM_cons] at hrest
    obtain ⟨rows₂, hupdate, hlast⟩ := Option.bind_eq_some_iff.mp hrest
    cases hlast
    obtain ⟨replacement, hok, hid⟩ := exec_insertStatement hinsert
    obtain ⟨hreplaced, hhits⟩ := exec_update { db with sessions := rows₁ } hupdate
    have hrequire := hhits rfl
    refine Tx.bind_eq_ok.mpr ⟨replacement, { db with sessions := rows }, ?_, rfl⟩
    refine Tx.bind_eq_ok.mpr ⟨replacement, _, hok, ?_⟩
    rw [← hid] at hreplaced hrequire
    refine Tx.bind_eq_ok.mpr ⟨_, _, hreplaced, ?_⟩
    exact Tx.bind_eq_ok.mpr ⟨(), _, Tx.require_eq_ok.mpr ⟨hrequire, rfl⟩, rfl⟩
  | revoke i sessionId userId =>
    rw [hcall, SessionCall.statements, List.foldlM_cons] at h
    obtain ⟨rows₁, hupdate, hrest⟩ := Option.bind_eq_some_iff.mp h
    cases hrest
    exact Tx.bind_eq_ok.mpr ⟨_, _, (exec_update db hupdate).1, rfl⟩
  | activity sessionId lastUsedAt =>
    rw [hcall, SessionCall.statements, List.foldlM_cons] at h
    obtain ⟨rows₁, hupdate, hrest⟩ := Option.bind_eq_some_iff.mp h
    cases hrest
    exact Tx.bind_eq_ok.mpr ⟨_, _, (exec_update db hupdate).1, rfl⟩

omit [DecidableEq τ] in
/-- The same for a sequence of transactions. -/
theorem inOrder_of_execAll {ts : List τ} (h : calls.system.execAll ts db.sessions = some rows) :
    calls.inOrder ts db = .ok ((), { db with sessions := rows }) := by
  induction ts generalizing db with
  | nil =>
    cases h
    rfl
  | cons t ts ih =>
    rw [System.execAll, List.foldlM_cons] at h
    obtain ⟨rows₁, hfirst, hrest⟩ := Option.bind_eq_some_iff.mp h
    have hlater : calls.inOrder ts { db with sessions := rows₁ } =
        .ok ((), { db with sessions := rows }) := ih hrest
    exact Tx.bind_eq_ok.mpr ⟨(), _, atomic_of_exec hfirst, hlater⟩

end

/-- The transaction rotates the session. -/
def Rotates (calls : SessionCalls τ) (id : Uuid) (t : τ) : Prop :=
  ∃ i session data, calls.call t = .refresh i session data ∧ session.id = id

omit [DecidableEq τ] in
/-- A rotation needs an active session and revokes it. -/
theorem Rotates.update {calls : SessionCalls τ} {id : Uuid} {t : τ} (h : calls.Rotates id t) :
    ∃ u, .update u true ∈ calls.system.prog t ∧ ∀ r, u.cond r = true →
      r.id = id ∧ ¬ r.revokedAt.isSome = true ∧ (u.set r).revokedAt.isSome = true := by
  obtain ⟨i, session, data, hcall, rfl⟩ := h
  refine ⟨sessionsRevokeAndReplace i.dbNow session.id data.id, ?_, fun r hr => ?_⟩
  · simp [system, hcall, SessionCall.statements]
  · simp only [sessionsRevokeAndReplace, Bool.and_eq_true, beq_iff_eq] at hr
    refine ⟨hr.1, ?_, rfl⟩
    simp [Option.isNone_iff_eq_none.mp hr.2]

/-- Any number of SignIn, Refresh (but for `reuse_detected`), RevokeSession and activity
transactions run concurrently, statement by statement, and may be rolled back at any point. In
every state the committed sessions are those that the committed transactions yield as steps of
the use cases, one after the other in some order, and each session was rotated by at most one of
them. -/
theorem sessionTransactions_serial (calls : SessionCalls τ) (db : Db)
    (hdb : db.sessions = calls.rows) (s : State τ SessionRow Empty)
    (hs : Steps calls.system calls.Ready (State.initial calls.rows) s) :
    (∃ (ts : List τ) (db' : Db), ts.Nodup ∧ (∀ t, t ∈ ts ↔ (s.txns t).status = .committed) ∧
      calls.inOrder ts db = .ok ((), db') ∧ s.committedRows.Perm db'.sessions) ∧
    ∀ id t t', (s.txns t).status = .committed → (s.txns t').status = .committed →
      calls.Rotates id t → calls.Rotates id t' → t = t' := by
  obtain ⟨_, hserial⟩ := serial_of_steps (separate calls) calls.ids (Pinned.initial calls.ids)
    (fun s a s' hpinned hok heffect => hpinned.step (separate calls) heffect
      fun t hrun => by rw [hrun] at hok; exact hok)
    (fun _ => sealed_of_pinned) hs
  obtain ⟨ts, hnodup, hmem, rows', hexec, hperm⟩ := hserial.order
  refine ⟨⟨ts, { db with sessions := rows' }, hnodup, hmem, ?_, hperm⟩, ?_⟩
  · exact inOrder_of_execAll (by rw [hdb]; exact hexec)
  · intro id t t' ht ht' hrotates hrotates'
    have hkept : ∀ t u required r, .update u required ∈ calls.system.prog t →
        r.revokedAt.isSome = true → (u.set r).revokedAt.isSome = true := by
      intro t u required r hmem hrevoked
      by_contra hnone
      rw [(single_of_mem hmem).revoked r (Option.not_isSome_iff_eq_none.mp hnone)] at hrevoked
      cases hrevoked
    exact (separate calls).spent_once hkept (C := calls.Rotates id) (fun _ h => h.update) calls.ids
      hexec hnodup t ((hmem t).mpr ht) hrotates t' ((hmem t').mpr ht') hrotates'

end SessionCalls

/-- Two calls of `Refresh` with the same token, and the activity of the session. -/
inductive UnitRefresh where
  | first
  | second
  | activity
  deriving DecidableEq

/-- The calls over a table with one session. -/
def unitRefreshes : SessionCalls UnitRefresh where
  pg := plainApp.ports.pg
  rows := [unitSession]
  call
    | .first => .refresh { dbNow := 10 } (unitSession.toDomain plainApp.ports.pg)
        (SessionFactory.createForRefreshRotation 10 ⟨2⟩ (unitSession.toDomain plainApp.ports.pg)
          "2nd_token" {} 3600)
    | .second => .refresh { dbNow := 10 } (unitSession.toDomain plainApp.ports.pg)
        (SessionFactory.createForRefreshRotation 10 ⟨3⟩ (unitSession.toDomain plainApp.ports.pg)
          "3rd_token" {} 3600)
    | .activity => .activity unitSession.id 5
  ids := List.nodup_singleton unitSession.id
  fresh := by
    intro t i session data hcall
    cases t with
    | first =>
      cases hcall
      decide
    | second =>
      cases hcall
      decide
    | activity => cases hcall

/-- Both calls insert their replacement before one of them comes to the session. The activity is
recorded in between. The second `Refresh` finds the session revoked and is rolled back. -/
theorem sessionTransactions_serial_twoRefreshes :
    ∃ s : State UnitRefresh SessionRow Empty,
      Steps unitRefreshes.system unitRefreshes.Ready (State.initial unitRefreshes.rows) s ∧
      (s.txns .first).status = .committed ∧ (s.txns .second).status = .rolledBack ∧
      (s.txns .activity).status = .committed ∧
      ∃ (ts : List UnitRefresh) (db' : Db), (∀ t, t ∈ ts ↔ (s.txns t).status = .committed) ∧
        unitRefreshes.inOrder ts { unitDb with sessions := [unitSession] } = .ok ((), db') ∧
        s.committedRows.Perm db'.sessions := by
  obtain ⟨s, hs, hfirst, hsecond, hactivity⟩ : ∃ s ∈ replay unitRefreshes.system
      unitRefreshes.Ready (State.initial unitRefreshes.rows)
      [.run .first, .run .second, .run .activity, .touch .activity 0, .run .first, .run .second,
        .finish .activity, .commit .activity, .touch .first 0, .finish .first, .commit .first,
        .touch .second 0, .finish .second],
      (s.txns .first).status = .committed ∧ (s.txns .second).status = .rolledBack ∧
        (s.txns .activity).status = .committed := by decide +kernel
  have hreach := steps_of_replay hs
  obtain ⟨⟨ts, db', _, hmem, horder, hperm⟩, _⟩ := SessionCalls.sessionTransactions_serial
    unitRefreshes { unitDb with sessions := [unitSession] } rfl s hreach
  exact ⟨s, hreach, hfirst, hsecond, hactivity, ts, db', hmem, horder, hperm⟩

end SmirklyAuth
