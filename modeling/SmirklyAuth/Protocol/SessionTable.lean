import SmirklyAuth.Lib.Lineage
import SmirklyAuth.Protocol.Frame

/-!
# `SmirklyAuth.Protocol.SessionTable`: the sessions as a registry of credentials

`SessionOf.node` forgets the columns of a session that no invariant of token families
needs. What is left is a node of `Lineage`: the id, the family, the user, the hash of the
refresh token, whether the session is active, and its replacement.

`sessions_commit` says which step of a registry each transaction is. `reads_foundRow`
says that a session found by a call was the row of its id.
-/

set_option autoImplicit false

namespace SmirklyAuth

open Lineage
open Sql (Update)

/-- A session as a node of the library: its id, owner, family and token hash. -/
abbrev SessionNode := Node Uuid Uuid Uuid Str

/-- The node of a session. It is live while `revoked_at` is `NULL`. -/
def SessionOf.node {Ip : Type} (r : SessionOf Ip) : SessionNode where
  id := r.id
  family := r.tokenFamilyId
  owner := r.userId
  payload := r.refreshTokenHash
  live := r.revokedAt.isNone
  next := r.replacedBySessionId

/-- The registry of a database. -/
def Db.nodes (db : Db) : List SessionNode := db.sessions.map (·.node)

/-- The domain's session is the same node as its row. -/
theorem SessionOf.node_toDomain (pg : Postgres) (r : SessionRow) :
    (r.toDomain pg).node = r.node := rfl

/-- The user whose sessions a transaction revokes. -/
def TxEvent.revokesUser : TxEvent → Option Uuid
  | .revokedAll userId => some userId
  | .passwordChanged userId _ => some userId
  | .resetConfirmed _ userId _ => some userId
  | _ => none

/-- The transactions that open, rotate or revoke sessions. -/
def TxEvent.onSessions : TxEvent → Bool
  | .signedIn _ => true
  | .rotated _ _ => true
  | .reuseDetected _ _ => true
  | .revoked _ => true
  | t => t.revokesUser.isSome

/-- The steps of the registry, with the history of the call that makes them. -/
inductive SessionsCommit :
    List Event → TxEvent → List SessionNode → List SessionNode → Prop where
  | opened {now user n sid fam tokens hash ns} {x : SessionNode} (hid : x.id = sid)
      (hfamily : x.family = fam) (howner : x.owner = user.id) (hlive : x.live = true)
      (hnext : x.next = none) (hnew : ∀ a ∈ ns, a.id ≠ x.id) :
      SessionsCommit
        (signInEvents now user n ++ [.verifiedPassword user.password true, .generatedId sid,
          .generatedId fam, .generatedTokens tokens, .hashedToken hash])
        (.signedIn sid) ns (open_ x ns)
  | rotated {evs s sid ns} {x : SessionNode} (hfound : Event.foundSession (some s) ∈ evs)
      (hid : x.id = sid) (hfamily : x.family = s.tokenFamilyId) (howner : x.owner = s.userId)
      (hnext : x.next = none) (hnew : ∀ a ∈ ns, a.id ≠ x.id)
      (hold : ∃ o ∈ ns ++ [x], o.id = s.id ∧ o.live = true) :
      SessionsCommit evs (.rotated s.id sid) ns (rotate s.id x ns)
  | family {evs userId fam ns} :
      SessionsCommit evs (.reuseDetected userId fam) ns
        (retire (fun a => a.owner == userId && a.family == fam) ns)
  | user {evs t userId ns} (h : t.revokesUser = some userId) :
      SessionsCommit evs t ns (retire (fun a => a.owner == userId) ns)
  | single {evs id userId ns} :
      SessionsCommit evs (.revoked id) ns
        (retire (fun a => a.id == id && a.owner == userId) ns)
  | unchanged {evs t ns} (h : t.onSessions = false) : SessionsCommit evs t ns ns

/-- A revocation is a retirement: it only sets `revoked_at` of active rows. -/
theorem map_node_run_revoke {u : Update SessionRow} {p : SessionNode → Bool} {now : Time}
    (hset : u.set = fun r => { r with revokedAt := some now })
    (hcond : ∀ r, u.cond r = (p r.node && r.revokedAt.isNone)) (rows : List SessionRow) :
    (u.run rows).map (·.node) = retire p (rows.map (·.node)) := by
  rw [Update.run, retire, List.map_map, List.map_map]
  refine List.map_congr_left fun r _ => ?_
  simp only [Function.comp]
  cases hrevoked : r.revokedAt with
  | none =>
    cases hp : p r.node with
    | false => simp [Update.apply, hcond, hp]
    | true =>
      rw [Update.apply_pos (by simp [hcond, hp, hrevoked]), hset, if_pos rfl]
      rfl
  | some t =>
    -- a revoked row is not touched, and its node is retired already
    rw [Update.apply_neg (by simp [hcond, hrevoked])]
    simp [SessionOf.node, hrevoked]

/-- `sessions_revoke_and_replace` exchanges the old node for the new one. -/
theorem map_node_run_replace (now : Time) (old new : Uuid) (rows : List SessionRow) :
    ((sessionsRevokeAndReplace now old new).run rows).map (·.node) =
      (rows.map (·.node)).map (exchange old new) := by
  rw [Update.run, List.map_map, List.map_map]
  refine List.map_congr_left fun r _ => ?_
  simp only [Function.comp]
  have hnode : r.node.id = old ∧ r.node.live = true ↔
      (sessionsRevokeAndReplace now old new).cond r = true := by
    simp [sessionsRevokeAndReplace, SessionOf.node]
  by_cases hcond : (sessionsRevokeAndReplace now old new).cond r = true
  · rw [Update.apply_pos hcond, exchange, if_pos (hnode.mpr hcond)]
    rfl
  · rw [Update.apply_neg (Bool.eq_false_iff.mpr hcond), exchange,
      if_neg fun h => hcond (hnode.mp h)]

/-- The use of a session does not change its node. -/
theorem map_node_run_activity (id : Uuid) (now : Time) (rows : List SessionRow) :
    ((sessionsUpdateLastUsed id now).run rows).map (·.node) = rows.map (·.node) :=
  Update.Keeps.map_run (fun _ => rfl) rows

/-- The update of `auth.sessions.revoke`, of the bulk revocations and of reuse detection. -/
theorem map_node_run_single (now : Time) (id userId : Uuid) (rows : List SessionRow) :
    ((sessionsRevokeByUserId now id userId).run rows).map (·.node) =
      retire (fun a => a.id == id && a.owner == userId) (rows.map (·.node)) :=
  map_node_run_revoke rfl (fun _ => rfl) rows

/-- Revoking the sessions of a user, on the nodes. -/
theorem map_node_run_all (now : Time) (userId : Uuid) (rows : List SessionRow) :
    ((sessionsRevokeAllByUserId now userId).run rows).map (·.node) =
      retire (fun a => a.owner == userId) (rows.map (·.node)) :=
  map_node_run_revoke rfl (fun _ => rfl) rows

/-- Revoking a family, on the nodes. -/
theorem map_node_run_family (now : Time) (userId fam : Uuid) (rows : List SessionRow) :
    ((sessionsRevokeByTokenFamily now userId fam).run rows).map (·.node) =
      retire (fun a => a.owner == userId && a.family == fam) (rows.map (·.node)) :=
  map_node_run_revoke rfl (fun _ => rfl) rows

section
variable {app : App} {r : Request} {evs : List Event} {t : TxEvent} {db db' : Db}

/-- A transaction that leaves the table alone is no step of the registry. -/
theorem SessionsCommit.of_sessions_eq (ht : t.onSessions = false)
    (h : db'.sessions = db.sessions) : SessionsCommit evs t db.nodes db'.nodes := by
  rw [Db.nodes, Db.nodes, h]
  exact .unchanged ht

/-- An id that no row has, on the nodes. -/
theorem mem_nodes_ne {id : Uuid} {x : SessionNode} (hx : x.id = id)
    (h : ∀ r ∈ db.sessions, r.id ≠ id) : ∀ a ∈ db.nodes, a.id ≠ x.id := by
  intro a ha
  obtain ⟨row, hrow, rfl⟩ := List.mem_map.mp ha
  rw [hx]
  exact h row hrow

/-- Every transaction is a step of the registry. -/
theorem sessions_commit (h : Commits app r evs t db db') :
    SessionsCommit evs t db.nodes db'.nodes := by
  have hframe := commits_frame h
  cases h with
  | signedIn htx =>
    obtain ⟨_, _, _, _, hnew, rfl, rfl⟩ := signInTx_eq_ok htx
    simp only [Db.nodes, List.map_append, List.map_singleton]
    exact .opened rfl rfl rfl rfl rfl (mem_nodes_ne rfl hnew)
  | reuseDetected hchecked hrevoked htx =>
    cases htx
    simp only [Db.nodes, map_node_run_family]
    exact .family
  | @rotated p cmd m _ _ s _ sid _ hash rotationNow i _ _ _ hchecked hactive htx =>
    obtain ⟨ip, _, hnew, hid, hhits, rfl⟩ := refreshTx_eq_ok htx
    obtain ⟨o, ho, hcond⟩ := Update.hits_iff.mp hhits
    let x := (SessionRepository.newRow i (SessionFactory.createForRefreshRotation rotationNow
      sid s hash m p.session.refreshTokenTtl) ip).node
    have hrotate : rotate s.id x db.nodes = (db.sessions ++ [SessionRepository.newRow i
        (SessionFactory.createForRefreshRotation rotationNow sid s hash m
          p.session.refreshTokenTtl) ip]).map (fun r => exchange s.id x.id r.node) := by
      rw [rotate, Db.nodes, ← List.map_singleton, ← List.map_append, List.map_map]
      rfl
    rw [hid]
    simp only [Db.nodes, map_node_run_replace, List.map_map]
    refine hrotate ▸ SessionsCommit.rotated (x := x) ?_ rfl rfl rfl rfl (mem_nodes_ne rfl hnew)
      ⟨o.node, ?_, ?_⟩
    · simp [refreshEvents]
    · have hmem := List.mem_map_of_mem (f := fun r : SessionRow => r.node) ho
      rw [List.map_append] at hmem
      exact hmem
    · simpa [sessionsRevokeAndReplace, SessionOf.node] using hcond
  | sessionActivity hactive hdue htx =>
    cases htx
    simp only [Db.nodes, map_node_run_activity]
    exact .unchanged rfl
  | revoked hcmd hactive htx =>
    cases htx
    simp only [Db.nodes, map_node_run_single]
    exact .single
  | revokedAll htx =>
    cases htx
    simp only [Db.nodes, map_node_run_all]
    exact .user rfl
  | passwordChanged _ htx =>
    cases changePasswordTx_eq_ok htx
    simp only [Db.nodes, map_node_run_all]
    exact .user rfl
  | resetConfirmed _ htx =>
    obtain ⟨_, rfl⟩ := confirmResetTx_eq_ok htx
    simp only [Db.nodes, map_node_run_all]
    exact .user rfl
  | _ => exact .of_sessions_eq rfl (hframe.sessions rfl)

/-- The lookup finds a row with the id. -/
theorem id_of_select {id : Uuid} {rows : List SessionRow} {row : SessionRow}
    (h : sessionsSelectById id rows = some row) : row.id = id := by
  have hid := List.find?_some h
  exact eq_of_beq hid

/-- A session that a call found is the row with its id. -/
theorem reads_foundRow {s : Session} (h : Reads app r evs (.foundSession (some s)) db) :
    ∃ row, sessionsSelectById s.id db.sessions = some row ∧ s = row.toDomain app.ports.pg := by
  have hselect : ∀ id, SessionRepository.findById app.ports.pg id db = some s →
      ∃ row, sessionsSelectById s.id db.sessions = some row ∧ s = row.toDomain app.ports.pg := by
    intro id hfind
    obtain ⟨row, hrow, rfl⟩ := Option.map_eq_some_iff.mp hfind
    have hid : row.id = id := id_of_select hrow
    exact ⟨row, hid.symm ▸ hrow, rfl⟩
  generalize he : Event.foundSession (some s) = e at h
  cases h with
  | refreshFind => exact hselect _ (Event.foundSession.inj he).symm
  | accessFind => exact hselect _ (Event.foundSession.inj he).symm
  | revokeFind hcmd => exact hselect _ (Event.foundSession.inj he).symm
  | _ => cases he

/-- A session that was read is a node of the table. -/
theorem reads_foundSession {s : Session} (h : Reads app r evs (.foundSession (some s)) db) :
    s.node ∈ db.nodes := by
  obtain ⟨row, hrow, rfl⟩ := reads_foundRow h
  rw [SessionOf.node_toDomain]
  exact List.mem_map_of_mem (List.mem_of_find?_eq_some hrow)

end

end SmirklyAuth
