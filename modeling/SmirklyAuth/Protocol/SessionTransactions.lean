import SmirklyAuth.Lib.RowVersions
import SmirklyAuth.Services.Factories

/-!
# `SmirklyAuth.Protocol.SessionTransactions`: the statements on `sessions`, one by one

`PgTransactionManager::Begin` passes the default options, so every transaction runs at the
isolation level READ COMMITTED. Here the transactions that rotate a session or revoke many
sessions are programs of single statements:

* `Refresh` inserts the replacement and then runs `sessions_revoke_and_replace`. It throws, and
  the transaction is rolled back, when that statement yields no row.
* `RevokeAllByUserId` (`ChangePassword`, `ConfirmReset`, `RevokeAllSessions`) and
  `RevokeByTokenFamily` (reuse detection) are one `UPDATE`. The other statements of these
  transactions work on other tables.

A `SessionSystem` has any number of them. The invariants say which session is the replacement
of which.
-/

set_option autoImplicit false

namespace SmirklyAuth

open Sql (Update)
open ReadCommitted

/-- What a call of `Refresh` has computed when its transaction begins. `session` is the row that
`FindById` returned, and `ip` is the address of the replacement as `inet`. -/
structure Rotation where
  input : Input
  session : Session
  newSessionId : Uuid
  refreshTokenHash : Str
  reqMeta : RequestMeta
  now : Time
  ttl : Seconds
  ip : Option Inet

namespace Rotation

/-- The replacement. -/
def row (q : Rotation) : SessionRow :=
  SessionRepository.newRow q.input
    (SessionFactory.createForRefreshRotation q.now q.newSessionId q.session q.refreshTokenHash
      q.reqMeta q.ttl) q.ip

/-- `RevokeAndReplace`. -/
def revoke (q : Rotation) : Update SessionRow :=
  sessionsRevokeAndReplace q.input.dbNow q.session.id q.row.id

end Rotation

/-- A transaction that writes `sessions`. -/
inductive SessionTxn where
  | refresh (q : Rotation)
  | revokeAllByUserId (now : Time) (userId : Uuid)
  | revokeByTokenFamily (now : Time) (userId familyId : Uuid)

namespace SessionTxn

/-- The statements of the transaction. No statement takes an advisory lock. -/
def statements : SessionTxn → List (Statement SessionRow Empty)
  | refresh q => [.insert (fun _ => some q.row) true, .update q.revoke true]
  | revokeAllByUserId now userId => [.update (sessionsRevokeAllByUserId now userId) false]
  | revokeByTokenFamily now userId familyId =>
      [.update (sessionsRevokeByTokenFamily now userId familyId) false]

/-- The sessions that a bulk revocation is about. -/
def scope : SessionTxn → Option (SessionRow → Bool)
  | refresh _ => none
  | revokeAllByUserId _ userId => some fun r => r.userId == userId
  | revokeByTokenFamily _ userId familyId =>
      some fun r => r.userId == userId && r.tokenFamilyId == familyId

end SessionTxn

/-- What no statement changes: the id, the user and the family. -/
def SessionRow.identity (r : SessionRow) : Uuid × Uuid × Uuid :=
  (r.id, r.userId, r.tokenFamilyId)

namespace SessionTxn

variable {x : SessionTxn} {u : Update SessionRow} {required : Bool} {P : SessionRow → Bool}

/-- What an `UPDATE` of the transaction does: it revokes active sessions, keeps their identity,
and only `Refresh` writes the link to the replacement. -/
structure Revokes (x : SessionTxn) (u : Update SessionRow) : Prop where
  active : ∀ r, u.cond r = true → r.revokedAt = none
  revoked : ∀ r, (u.set r).revokedAt.isSome = true
  identity : ∀ r, (u.set r).identity = r.identity
  link : x.scope.isSome = true → ∀ r, (u.set r).replacedBySessionId = r.replacedBySessionId

/-- The updates of a transaction are its revocations. -/
theorem revokes (h : .update u required ∈ x.statements) : x.Revokes u := by
  cases x with
  | refresh q =>
    simp only [statements, List.mem_cons, reduceCtorEq, Statement.update.injEq,
      List.not_mem_nil, or_false, false_or] at h
    obtain ⟨rfl, _⟩ := h
    refine ⟨fun r hcond => ?_, fun _ => rfl, fun _ => rfl, fun hscope => nomatch hscope⟩
    simp only [Rotation.revoke, sessionsRevokeAndReplace, Bool.and_eq_true] at hcond
    exact Option.isNone_iff_eq_none.mp hcond.2
  | revokeAllByUserId now userId =>
    simp only [statements, List.mem_singleton, Statement.update.injEq] at h
    obtain ⟨rfl, _⟩ := h
    refine ⟨fun r hcond => ?_, fun _ => rfl, fun _ => rfl, fun _ _ => rfl⟩
    simp only [sessionsRevokeAllByUserId, Bool.and_eq_true] at hcond
    exact Option.isNone_iff_eq_none.mp hcond.2
  | revokeByTokenFamily now userId familyId =>
    simp only [statements, List.mem_singleton, Statement.update.injEq] at h
    obtain ⟨rfl, _⟩ := h
    refine ⟨fun r hcond => ?_, fun _ => rfl, fun _ => rfl, fun _ _ => rfl⟩
    simp only [sessionsRevokeByTokenFamily, Bool.and_eq_true] at hcond
    exact Option.isNone_iff_eq_none.mp hcond.2

/-- A bulk revocation is one statement, on the active sessions of its scope. -/
theorem statements_of_scope (h : x.scope = some P) :
    ∃ u, x.statements = [.update u false] ∧ ∀ r, u.cond r = (P r && r.revokedAt.isNone) := by
  cases x with
  | refresh q => cases h
  | revokeAllByUserId now userId =>
    cases h
    exact ⟨_, rfl, fun _ => rfl⟩
  | revokeByTokenFamily now userId familyId =>
    cases h
    exact ⟨_, rfl, fun _ => rfl⟩

/-- Only the rotation has no scope. -/
theorem refresh_of_scope (h : x.scope = none) : ∃ q, x = .refresh q := by
  cases x with
  | refresh q => exact ⟨q, rfl⟩
  | revokeAllByUserId now userId => cases h
  | revokeByTokenFamily now userId familyId => cases h

/-- The user and the family decide whether a session is in the scope. -/
theorem scope_congr (h : x.scope = some P) {r r' : SessionRow} (huser : r.userId = r'.userId)
    (hfamily : r.tokenFamilyId = r'.tokenFamilyId) : P r = P r' := by
  cases x with
  | refresh q => cases h
  | revokeAllByUserId now userId =>
    cases h
    simp only [huser]
  | revokeByTokenFamily now userId familyId =>
    cases h
    simp only [huser, hfamily]

end SessionTxn

/-- Transactions on one table.

- `ids`: the primary key.
- `linked`: a session and its replacement have the same user and family.
- `read`: the session of a `Refresh` was read from the table, so the row with its id has its
  user and its family. -/
structure SessionSystem (τ : Type) where
  rows : List SessionRow
  txn : τ → SessionTxn
  ids : (rows.map (·.id)).Nodup
  linked : ∀ r ∈ rows, ∀ id, r.replacedBySessionId = some id →
    ∃ r' ∈ rows, r'.identity = (id, r.userId, r.tokenFamilyId)
  read : ∀ t q, txn t = .refresh q →
    ∀ r, (r ∈ rows ∨ ∃ t' q', txn t' = .refresh q' ∧ r = q'.row) → r.id = q.session.id →
      r.identity = (q.session.id, q.session.userId, q.session.tokenFamilyId)

namespace SessionSystem

variable {τ : Type} [DecidableEq τ]

/-- The statements of the transactions, and the primary key as unique constraint. -/
def system (sys : SessionSystem τ) : System τ SessionRow Empty where
  prog t := (sys.txn t).statements
  conflict r r' := r.id == r'.id

/-- No transaction has begun. -/
abbrev initial (sys : SessionSystem τ) : State τ SessionRow Empty := .initial sys.rows

/-! ### What holds in every state -/

section
variable (sys : SessionSystem τ)

/-- A version of the session that a `Refresh` has read has the user and the family that it has
read. -/
def Known (r : SessionRow) : Prop :=
  ∀ t q, sys.txn t = .refresh q → r.id = q.session.id →
    r.identity = (q.session.id, q.session.userId, q.session.tokenFamilyId)

/-- How the open version of a session comes from the committed one. -/
structure Written (t : τ) (r x : SessionRow) : Prop where
  identity : x.identity = r.identity
  revoked : x.revokedAt.isSome = true
  link : (sys.txn t).scope.isSome = true → x.replacedBySessionId = r.replacedBySessionId

/-- What holds in every state of a run.

- `linked`: the replacement of a committed session is committed.
- `opened`: a transaction sees the replacement of a session that it has written.
- `inserted`: a `Refresh` that has inserted its replacement sees it. -/
structure Consistent (s : State τ SessionRow Empty) : Prop where
  sound : Sound sys.system s
  known : AllVersions sys.Known s
  keyed : Keyed (·.id) s
  written : Derived sys.Written s
  linked : ∀ c ∈ s.cells, ∀ r id, c.committed = some r → r.replacedBySessionId = some id →
    Present SessionRow.identity s (id, r.userId, r.tokenFamilyId)
  opened : ∀ c ∈ s.cells, ∀ t x id, c.pending = some (t, x) → x.replacedBySessionId = some id →
    Visible SessionRow.identity s t (id, x.userId, x.tokenFamilyId)
  inserted : ∀ t q, sys.txn t = .refresh q → (s.txns t).status = .active → 0 < (s.txns t).pc →
    Visible SessionRow.identity s t q.row.identity

end

section
variable {sys : SessionSystem τ} {s s' : State τ SessionRow Empty} {a : Action τ} {t : τ}
  {u : Update SessionRow} {required : Bool} {q : Rotation}

omit [DecidableEq τ] in
/-- The updates of a program are revocations of its transaction. -/
theorem revokes_of_mem (h : .update u required ∈ sys.system.prog t) : (sys.txn t).Revokes u :=
  SessionTxn.revokes h

omit [DecidableEq τ] in
/-- The condition of a bulk revocation. -/
theorem cond_of_mem {P : SessionRow → Bool} (hP : (sys.txn t).scope = some P)
    (h : .update u required ∈ sys.system.prog t) (r : SessionRow) :
    u.cond r = (P r && r.revokedAt.isNone) := by
  obtain ⟨u', hprog, hcond⟩ := SessionTxn.statements_of_scope hP
  change .update u required ∈ (sys.txn t).statements at h
  rw [hprog, List.mem_singleton, Statement.update.injEq] at h
  rw [h.1]
  exact hcond r

omit [DecidableEq τ] in
/-- The statement of a `Refresh` after the first one. -/
theorem revoke_of_mem (hq : sys.txn t = .refresh q)
    (h : .update u required ∈ sys.system.prog t) : u = q.revoke := by
  simp only [system, SessionTxn.statements, hq, List.mem_cons, reduceCtorEq,
    Statement.update.injEq, List.not_mem_nil, or_false, false_or] at h
  exact h.1

omit [DecidableEq τ] in
/-- Only a `Refresh` inserts a row, and it is its replacement. -/
theorem row_of_insert {make : List SessionRow → Option SessionRow} {rows : List SessionRow}
    {row : SessionRow} (h : .insert make required ∈ sys.system.prog t)
    (hmake : make rows = some row) : ∃ q, sys.txn t = .refresh q ∧ row = q.row := by
  cases htxn : sys.txn t with
  | refresh q =>
    simp only [system, SessionTxn.statements, htxn, List.mem_cons, Statement.insert.injEq,
      reduceCtorEq, List.not_mem_nil, or_false] at h
    rw [h.1] at hmake
    exact ⟨q, rfl, (Option.some.inj hmake).symm⟩
  | revokeAllByUserId now userId =>
    simp [system, SessionTxn.statements, htxn] at h
  | revokeByTokenFamily now userId familyId =>
    simp [system, SessionTxn.statements, htxn] at h

/-- The start is consistent. -/
theorem Consistent.initial (sys : SessionSystem τ) : sys.Consistent sys.initial where
  sound := Sound.initial _
  known := AllVersions.initial fun r hr t q hq hid => sys.read t q hq r (.inl hr) hid
  keyed := Keyed.initial sys.ids
  written := Derived.initial _
  linked := by
    intro c hc r id hr hlink
    obtain ⟨i, hi⟩ := List.mem_iff_getElem?.mp hc
    obtain ⟨r₀, hr₀, rfl⟩ := State.cell_initial hi
    cases hr
    obtain ⟨r', hr', hid⟩ := sys.linked r (List.mem_of_getElem? hr₀) id hlink
    exact ⟨⟨some r', none⟩, List.mem_map.mpr ⟨r', hr', rfl⟩, r', rfl, hid⟩
  opened := by
    intro c hc t x id hx
    obtain ⟨i, hi⟩ := List.mem_iff_getElem?.mp hc
    obtain ⟨r₀, _, rfl⟩ := State.cell_initial hi
    cases hx
  inserted _ _ _ _ hpc := absurd hpc (Nat.lt_irrefl 0)

/-- Every version of a row has the identity of the row. -/
theorem Consistent.identity (h : sys.Consistent s) :
    Derived (fun _ r x => SessionRow.identity x = SessionRow.identity r) s :=
  fun c hc r t x hr hx => (h.written c hc r t x hr hx).identity

omit [DecidableEq τ] in
/-- The updates of the programs keep the identity. -/
theorem identity_of_mem (t : τ) (u : Update SessionRow) (required : Bool) (r : SessionRow)
    (h : .update u required ∈ sys.system.prog t) : (u.set r).identity = r.identity :=
  (revokes_of_mem h).identity r

omit [DecidableEq τ] in
/-- The first statement of a `Refresh` inserts the replacement. -/
theorem next_refresh (hq : sys.txn t = .refresh q) (hactive : (s.txns t).status = .active)
    (hpc : (s.txns t).pc = 0) :
    sys.system.next s t = some (.insert (fun _ => some q.row) true) := by
  simp [System.next, hactive, system, SessionTxn.statements, hq, hpc]

/-- A `Refresh` gets past its first statement by inserting the replacement. -/
theorem visible_row (h : Effect sys.system s a s') (hq : sys.txn t = .refresh q)
    (hactive : (s.txns t).status = .active) (hactive' : (s'.txns t).status = .active)
    (hpc : (s.txns t).pc = 0) (hpc' : 0 < (s'.txns t).pc) :
    Visible SessionRow.identity s' t q.row.identity := by
  have hnext := next_refresh hq hactive hpc
  have hactor : t = a.actor := by
    by_contra hne
    rw [h.frame hne] at hpc'
    omega
  subst hactor
  cases h with
  | @inserted t make required row hnext' hmake _ =>
    cases hnext.symm.trans hnext'
    cases hmake
    refine ⟨⟨none, some (t, q.row)⟩, ?_, q.row, Cell.seenBy_of_pending rfl, rfl⟩
    exact List.mem_append_right _ List.mem_cons_self
  | locked hnext' _ => exact nomatch hnext.symm.trans hnext'
  | passed hnext' _ => exact nomatch hnext.symm.trans hnext'
  | opened hnext' _ => exact nomatch hnext.symm.trans hnext'
  | touched hnext' _ _ _ _ => exact nomatch hnext.symm.trans hnext'
  | finished hnext' _ _ => exact nomatch hnext.symm.trans hnext'
  | committed _ hnext' => exact nomatch hnext.symm.trans hnext'
  | rolledBack _ => simp [State.rollback] at hactive'

/-- A transaction sees the replacement of a session that it sees. -/
theorem Consistent.visible_of_seenBy (hs : sys.Consistent s) {c : Cell τ SessionRow}
    (hc : c ∈ s.cells) {r : SessionRow} {id : Uuid} (hseen : c.seenBy t = some r)
    (hlink : r.replacedBySessionId = some id) :
    Visible SessionRow.identity s t (id, r.userId, r.tokenFamilyId) := by
  rcases c.seenBy_cases t with ⟨x, hx, hseen'⟩ | ⟨_, hseen'⟩
  · rw [hseen] at hseen'
    cases hseen'
    exact hs.opened c hc t r id hx hlink
  · rw [hseen] at hseen'
    exact (hs.linked c hc r id hseen'.symm hlink).visible hs.identity

/-- A session that a `Refresh` revokes has the user and the family of the replacement, which
the transaction has inserted before. -/
theorem Consistent.visible_replacement (hs : sys.Consistent s) (hq : sys.txn t = .refresh q)
    (hnext : sys.system.next s t = some (.update u required)) {c : Cell τ SessionRow}
    (hc : c ∈ s.cells) {r : SessionRow} (hseen : c.seenBy t = some r) (hcond : u.cond r = true) :
    Visible SessionRow.identity s t (q.row.id, r.userId, r.tokenFamilyId) := by
  have hactive := (System.next_eq_some hnext).1
  have hpc : 0 < (s.txns t).pc := by
    by_contra hzero
    have hinsert := next_refresh hq hactive (by omega)
    exact nomatch hnext.symm.trans hinsert
  rw [revoke_of_mem hq (System.next_mem hnext)] at hcond
  simp only [Rotation.revoke, sessionsRevokeAndReplace, Bool.and_eq_true, beq_iff_eq] at hcond
  have hknown := hs.known c hc r (Cell.mem_versions_of_seenBy hseen) t q hq hcond.1
  have howner : r.userId = q.row.userId ∧ r.tokenFamilyId = q.row.tokenFamilyId :=
    Prod.mk.inj (Prod.mk.inj hknown).2
  rw [howner.1, howner.2]
  exact hs.inserted t q hq hactive hpc

/-- Every action keeps the table consistent. -/
theorem Consistent.step (hs : sys.Consistent s) (h : Effect sys.system s a s') :
    sys.Consistent s' where
  sound := h.sound hs.sound
  known := by
    refine h.allVersions ?_ ?_ hs.known
    · intro t make required rows row hmem hmake t' q' hq' hid
      obtain ⟨q, hq, rfl⟩ := row_of_insert hmem hmake
      exact sys.read t' q' hq' q.row (.inr ⟨t, q, hq, rfl⟩) hid
    · intro t u required x hmem hx t' q' hq' hid
      have hkeep : (u.set x).identity = x.identity := identity_of_mem t u required x hmem
      rw [hkeep]
      exact hx t' q' hq' ((congrArg Prod.fst hkeep).symm.trans hid)
  keyed := by
    refine h.keyed ?_ ?_ hs.keyed
    · intro x y hne
      exact ne_of_beq_false hne
    · intro t u required x hmem
      exact congrArg Prod.fst (identity_of_mem t u required x hmem)
  written := by
    refine h.derived ?_ ?_ hs.written
    · intro t u required r hmem hcond
      have hrevokes := revokes_of_mem hmem
      exact ⟨hrevokes.identity r, hrevokes.revoked r, fun hbulk => hrevokes.link hbulk r⟩
    · intro t u required r x hmem hx
      have hrevokes := revokes_of_mem hmem
      exact ⟨(hrevokes.identity x).trans hx.identity, hrevokes.revoked x,
        fun hbulk => (hrevokes.link hbulk x).trans (hx.link hbulk)⟩
  linked := by
    intro c' hc' r id hr hlink
    obtain ⟨i, hi⟩ := List.mem_iff_getElem?.mp hc'
    rcases h.cell_of hi with ⟨c, hc, hchange⟩ | ⟨_, _, _, _, rfl⟩
    · have hmem : c ∈ s.cells := List.mem_of_getElem? hc
      rcases hchange.committed_of hr with hr | ⟨t, _, rfl, hx⟩
      · exact h.present hs.identity (hs.linked c hmem r id hr hlink)
      · -- the commit of the transaction that has written the link
        exact (hs.opened c hmem t r id hx hlink).commit
    · cases hr
  opened := by
    intro c' hc' t x id hx hlink
    have hactive' : (s'.txns t).status = .active := (h.sound hs.sound).active c' hc' t x hx
    refine h.visible hs.identity identity_of_mem hactive' ?_
    obtain ⟨i, hi⟩ := List.mem_iff_getElem?.mp hc'
    rcases h.cell_of hi with ⟨c, hc, hchange⟩ | ⟨_, row, hins, _, rfl⟩
    · have hmem : c ∈ s.cells := List.mem_of_getElem? hc
      rcases hchange.pending hx with hx | ⟨_, u, required, y, hnext, _, hseen, hcond, rfl⟩
      · exact hs.opened c hmem t x id hx hlink
      · -- the transaction has written the row now
        have hkeep : (u.set y).identity = y.identity :=
          identity_of_mem t u required y (System.next_mem hnext)
        have howner : (u.set y).userId = y.userId ∧ (u.set y).tokenFamilyId = y.tokenFamilyId :=
          Prod.mk.inj (Prod.mk.inj hkeep).2
        rw [howner.1, howner.2]
        cases htxn : (sys.txn t).scope with
        | some P =>
          have hbulk : (sys.txn t).scope.isSome = true := by rw [htxn]; rfl
          rw [(revokes_of_mem (System.next_mem hnext)).link hbulk y] at hlink
          exact hs.visible_of_seenBy hmem hseen hlink
        | none =>
          obtain ⟨q, hq⟩ := SessionTxn.refresh_of_scope htxn
          rw [revoke_of_mem hq (System.next_mem hnext)] at hlink
          cases hlink
          exact hs.visible_replacement hq hnext hmem hseen hcond
    · -- a new session has no replacement
      obtain ⟨make, required, hnext, hmake⟩ := hins.made
      obtain ⟨q, _, rfl⟩ := row_of_insert (System.next_mem hnext) hmake
      cases hx
      cases hlink
  inserted := by
    intro t q hq hactive' hpc'
    have hactive : (s.txns t).status = .active := by
      by_contra hended
      rw [h.ended hended] at hactive'
      exact hended hactive'
    by_cases hpc : 0 < (s.txns t).pc
    · exact h.visible hs.identity identity_of_mem hactive' (hs.inserted t q hq hactive hpc)
    · exact visible_row h hq hactive hactive' (by omega) hpc'

/-- The table is consistent in every state of a run. -/
theorem Consistent.steps {ok : State τ SessionRow Empty → Action τ → Prop}
    (hs : sys.Consistent s) (h : Steps sys.system ok s s') : sys.Consistent s' :=
  Steps.rule (fun _ _ _ hs _ heffect => hs.step heffect) h hs

/-- The id identifies a committed session. -/
theorem Consistent.eq_of_id (hs : sys.Consistent s) {r r' : SessionRow}
    (hr : r ∈ s.committedRows) (hr' : r' ∈ s.committedRows) (hid : r.id = r'.id) : r = r' := by
  obtain ⟨c, hc, hcommitted⟩ := List.mem_filterMap.mp hr
  obtain ⟨c', hc', hcommitted'⟩ := List.mem_filterMap.mp hr'
  obtain ⟨i, hi⟩ := List.mem_iff_getElem?.mp hc
  obtain ⟨j, hj⟩ := List.mem_iff_getElem?.mp hc'
  have hij : i = j := (hs.keyed i j c c' hi hj r (Cell.mem_versions.mpr (.inl hcommitted)) r'
    (Cell.mem_versions.mpr (.inl hcommitted'))).mp hid
  subst hij
  cases hi.symm.trans hj
  exact Option.some.inj (hcommitted.symm.trans hcommitted')

/-- The replacement of a committed session is committed, with its user and its family. -/
theorem Consistent.replacement (hs : sys.Consistent s) {r : SessionRow} {id : Uuid}
    (hr : r ∈ s.committedRows) (hlink : r.replacedBySessionId = some id) :
    ∃ r' ∈ s.committedRows, r'.identity = (id, r.userId, r.tokenFamilyId) := by
  obtain ⟨c, hc, hcommitted⟩ := List.mem_filterMap.mp hr
  obtain ⟨c', hc', r', hcommitted', hid⟩ := hs.linked c hc r id hcommitted hlink
  exact ⟨r', List.mem_filterMap.mpr ⟨c', hc', hcommitted'⟩, hid⟩

end

end SessionSystem

end SmirklyAuth
