import SmirklyAuth.Protocol.Refinement
import SmirklyAuth.Protocol.SessionTable

/-!
# `SmirklyAuth.Protocol.SessionRows`: the versions of one row of `sessions`

`sessions_select_by_id` finds a row as long as the service runs: no statement deletes a row, and
`sessions_insert` refuses an id that is taken. `Later` says what the statements do to the row in
between. A revoked row is never written again, the address is never written at all, and
`last_used_at` does not decrease.

`rows_commit` goes once through the transactions. `hasNext_step` follows one row through a step,
`RowsCommit.origin` says where a row comes from, and `foundInv_of_reachable` relates what a call
has found to the row of now.
-/

set_option autoImplicit false

namespace SmirklyAuth

open Interleaving
open Sql (Update)

/-- The second time is there when the first one is, and it is not earlier. -/
def NotEarlier (a b : Option Time) : Prop := ∀ t, a = some t → ∃ t', b = some t' ∧ t ≤ t'

/-- The same time is not earlier. -/
theorem NotEarlier.refl (a : Option Time) : NotEarlier a a := fun t h => ⟨t, h, le_refl t⟩

/-- Not earlier is transitive. -/
theorem NotEarlier.trans {a b c : Option Time} (hab : NotEarlier a b) (hbc : NotEarlier b c) :
    NotEarlier a c := by
  intro t ht
  obtain ⟨t', ht', hle⟩ := hab t ht
  obtain ⟨t'', ht'', hle'⟩ := hbc t' ht'
  exact ⟨t'', ht'', le_trans hle hle'⟩

/-- `r'` is a later version of the row `r`. -/
structure Later (r r' : SessionRow) : Prop where
  id : r'.id = r.id
  ip : r'.ip = r.ip
  revoked : r.revokedAt.isSome = true → r' = r
  lastUsed : NotEarlier r.lastUsedAt r'.lastUsedAt

/-- A row is a later version of itself. -/
theorem Later.refl (r : SessionRow) : Later r r := ⟨rfl, rfl, fun _ => rfl, .refl _⟩

/-- A later version of a later version. -/
theorem Later.trans {r r' r'' : SessionRow} (h : Later r r') (h' : Later r' r'') :
    Later r r'' where
  id := h'.id.trans h.id
  ip := h'.ip.trans h.ip
  revoked hr := by
    have heq := h.revoked hr
    rw [h'.revoked (heq ▸ hr), heq]
  lastUsed := h.lastUsed.trans h'.lastUsed

/-- A row that is active was active before. -/
theorem Later.active {r r' : SessionRow} (h : Later r r') (hactive : r'.revokedAt = none) :
    r.revokedAt = none := by
  by_contra hrevoked
  rw [h.revoked (Option.isSome_iff_ne_none.mpr hrevoked)] at hactive
  exact hrevoked hactive

/-! ### Statements -/

/-- A statement that makes later versions. -/
def Ages (u : Update SessionRow) : Prop := ∀ r, u.cond r = true → Later r (u.set r)

/-- An update that ages the rows ages each row. -/
theorem Ages.apply {u : Update SessionRow} (h : Ages u) (r : SessionRow) : Later r (u.apply r) := by
  by_cases hcond : u.cond r = true
  · rw [Update.apply_pos hcond]
    exact h r hcond
  · rw [Update.apply_neg (Bool.eq_false_iff.mpr hcond)]
    exact .refl r

/-- The lookup after a statement finds the new version. -/
theorem Ages.select_run {u : Update SessionRow} (h : Ages u) (id : Uuid) (rows : List SessionRow) :
    sessionsSelectById id (u.run rows) = (sessionsSelectById id rows).map u.apply := by
  unfold sessionsSelectById Update.run
  rw [List.find?_map]
  have hid : (fun r : SessionRow => r.id == id) ∘ u.apply = fun r => r.id == id := by
    funext r
    exact congrArg (· == id) (h.apply r).id
  rw [hid]

/-- A row that is found is still found when rows are appended. -/
theorem select_append {id : Uuid} {rows : List SessionRow} {row : SessionRow}
    (h : sessionsSelectById id rows = some row) (rows' : List SessionRow) :
    sessionsSelectById id (rows ++ rows') = some row := by
  unfold sessionsSelectById at h ⊢
  rw [List.find?_append, h]
  rfl

/-- A revocation sets `revoked_at` of a row where it is `NULL`. -/
theorem ages_of_revokes {u : Update SessionRow} (hcond : ∀ r, u.cond r = true → r.revokedAt = none)
    (hset : ∀ r, (u.set r).id = r.id ∧ (u.set r).ip = r.ip ∧
      (u.set r).lastUsedAt = r.lastUsedAt) : Ages u := by
  intro r hr
  obtain ⟨hid, hip, hused⟩ := hset r
  have hactive := hcond r hr
  exact
    { id := hid
      ip := hip
      revoked := fun hrevoked => by simp [hactive] at hrevoked
      lastUsed := hused ▸ .refl _ }

/-- A revocation by id ages the rows. -/
theorem ages_revokeByUserId (now : Time) (id userId : Uuid) :
    Ages (sessionsRevokeByUserId now id userId) :=
  ages_of_revokes (fun r h => by simpa using ((Bool.and_eq_true _ _).mp h).2)
    fun _ => ⟨rfl, rfl, rfl⟩

/-- A revocation of all sessions of a user ages the rows. -/
theorem ages_revokeAllByUserId (now : Time) (userId : Uuid) :
    Ages (sessionsRevokeAllByUserId now userId) :=
  ages_of_revokes (fun r h => by simpa using ((Bool.and_eq_true _ _).mp h).2)
    fun _ => ⟨rfl, rfl, rfl⟩

/-- A revocation of a family ages the rows. -/
theorem ages_revokeByTokenFamily (now : Time) (userId familyId : Uuid) :
    Ages (sessionsRevokeByTokenFamily now userId familyId) :=
  ages_of_revokes (fun r h => by simpa using ((Bool.and_eq_true _ _).mp h).2)
    fun _ => ⟨rfl, rfl, rfl⟩

/-- A rotation ages the rows. -/
theorem ages_revokeAndReplace (now : Time) (id replacementId : Uuid) :
    Ages (sessionsRevokeAndReplace now id replacementId) :=
  ages_of_revokes (fun r h => by simpa using ((Bool.and_eq_true _ _).mp h).2)
    fun _ => ⟨rfl, rfl, rfl⟩

/-- `GREATEST` does not decrease `last_used_at`. -/
theorem ages_updateLastUsed (id : Uuid) (now : Time) : Ages (sessionsUpdateLastUsed id now) := by
  intro r hr
  have hactive : r.revokedAt = none := by simpa using ((Bool.and_eq_true _ _).mp hr).2
  refine ⟨rfl, rfl, fun hrevoked => by simp [hactive] at hrevoked, ?_⟩
  intro t ht
  refine ⟨_, rfl, ?_⟩
  rw [ht]
  exact le_max_left t now

/-! ### Steps and runs -/

section

variable {app : App} {r : Request} {evs : List Event} {e : Event} {t : TxEvent} {db db' : Db}
  {id : Uuid} {row : SessionRow}

/-- The row with an id has a later version in the table. The two versions have the same
`last_used_at` unless `used` holds. -/
def HasNext (id : Uuid) (row : SessionRow) (used : Prop) (sessions : List SessionRow) : Prop :=
  ∃ row', sessionsSelectById id sessions = some row' ∧ Later row row' ∧
    (¬ used → row'.lastUsedAt = row.lastUsedAt)

/-- A table that did not change. -/
theorem HasNext.refl {used : Prop} {rows : List SessionRow}
    (h : sessionsSelectById id rows = some row) : HasNext id row used rows :=
  ⟨row, h, .refl row, fun _ => rfl⟩

/-- An update that ages the rows and does not write their last use. -/
theorem hasNext_run {u : Update SessionRow} (hu : Ages u) (hkeeps : u.Keeps (·.lastUsedAt))
    {used : Prop} {rows : List SessionRow} (h : sessionsSelectById id rows = some row) :
    HasNext id row used (u.run rows) :=
  ⟨u.apply row, by rw [hu.select_run, h, Option.map_some], hu.apply row,
    fun _ => hkeeps.apply row⟩

/-- `sessions_update_last_used` writes the row of its id. -/
theorem hasNext_activity (other : Uuid) (now : Time) {rows : List SessionRow}
    (h : sessionsSelectById id rows = some row) :
    HasNext id row (other = id) ((sessionsUpdateLastUsed other now).run rows) := by
  have hu := ages_updateLastUsed other now
  refine ⟨_, by rw [hu.select_run, h, Option.map_some], hu.apply row, fun hne => ?_⟩
  have hid : row.id = id := id_of_select h
  have hcond : (sessionsUpdateLastUsed other now).cond row = false := by
    simp [sessionsUpdateLastUsed, hid, Ne.symm hne]
  rw [Update.apply_neg hcond]

/-- What a transaction does to the table: it inserts a row with a new id, it revokes, it does
both, or it writes `last_used_at`. -/
inductive RowsCommit (t : TxEvent) (rows : List SessionRow) : List SessionRow → Prop where
  | inserted {row : SessionRow} (hnew : ∀ r ∈ rows, r.id ≠ row.id) :
      RowsCommit t rows (rows ++ [row])
  | revoked {u : Update SessionRow} (hages : Ages u) (hkeeps : u.Keeps (·.lastUsedAt)) :
      RowsCommit t rows (u.run rows)
  | replaced {u : Update SessionRow} {row : SessionRow} (hnew : ∀ r ∈ rows, r.id ≠ row.id)
      (hages : Ages u) (hkeeps : u.Keeps (·.lastUsedAt)) :
      RowsCommit t rows (u.run (rows ++ [row]))
  | used {id : Uuid} (now : Time) (ht : t = .sessionActivity id) :
      RowsCommit t rows ((sessionsUpdateLastUsed id now).run rows)
  | unchanged : RowsCommit t rows rows

/-- What a commit of any command does to the rows. -/
theorem rows_commit (h : Commits app r evs t db db') :
    RowsCommit t db.sessions db'.sessions := by
  have hframe := commits_frame h
  cases h with
  | signedIn htx =>
    obtain ⟨_, _, _, _, hnew, _, rfl⟩ := signInTx_eq_ok htx
    exact .inserted hnew
  | reuseDetected _ _ htx =>
    cases htx
    exact .revoked (ages_revokeByTokenFamily _ _ _) fun _ => rfl
  | rotated _ _ htx =>
    obtain ⟨_, _, hnew, _, _, rfl⟩ := refreshTx_eq_ok htx
    exact .replaced hnew (ages_revokeAndReplace _ _ _) fun _ => rfl
  | sessionActivity _ _ htx =>
    cases htx
    exact .used _ rfl
  | revoked _ _ htx =>
    cases htx
    exact .revoked (ages_revokeByUserId _ _ _) fun _ => rfl
  | revokedAll htx =>
    cases htx
    exact .revoked (ages_revokeAllByUserId _ _) fun _ => rfl
  | passwordChanged _ htx =>
    cases changePasswordTx_eq_ok htx
    exact .revoked (ages_revokeAllByUserId _ _) fun _ => rfl
  | resetConfirmed _ htx =>
    obtain ⟨_, rfl⟩ := confirmResetTx_eq_ok htx
    exact .revoked (ages_revokeAllByUserId _ _) fun _ => rfl
  | _ =>
    rw [hframe.sessions rfl]
    exact .unchanged

/-- The next version of a row, after a commit. -/
theorem RowsCommit.hasNext {rows rows' : List SessionRow} (h : RowsCommit t rows rows')
    (hrow : sessionsSelectById id rows = some row) :
    HasNext id row (t = .sessionActivity id) rows' := by
  cases h with
  | inserted hnew => exact .refl (select_append hrow _)
  | revoked hages hkeeps => exact hasNext_run hages hkeeps hrow
  | replaced hnew hages hkeeps => exact hasNext_run hages hkeeps (select_append hrow _)
  | used now ht =>
    rw [ht, TxEvent.sessionActivity.injEq]
    exact hasNext_activity _ now hrow
  | unchanged => exact .refl hrow

/-- A row of the new table is a later version of an old row, or its id is new. -/
theorem RowsCommit.origin {rows rows' : List SessionRow} (h : RowsCommit t rows rows')
    {row' : SessionRow} (hrow : row' ∈ rows') :
    (∃ row ∈ rows, Later row row') ∨ ∀ row ∈ rows, row.id ≠ row'.id := by
  have hupdate : ∀ u, Ages u → row' ∈ u.run rows → ∃ row ∈ rows, Later row row' := by
    intro u hages hmem
    obtain ⟨row, hold, rfl⟩ := Update.mem_run.mp hmem
    exact ⟨row, hold, hages.apply row⟩
  cases h with
  | inserted hnew =>
    rcases List.mem_append.mp hrow with hold | hlast
    · exact .inl ⟨row', hold, .refl row'⟩
    · exact .inr (List.mem_singleton.mp hlast ▸ hnew)
  | revoked hages hkeeps => exact .inl (hupdate _ hages hrow)
  | replaced hnew hages hkeeps =>
    obtain ⟨row, hmem, rfl⟩ := Update.mem_run.mp hrow
    rcases List.mem_append.mp hmem with hold | hlast
    · exact .inl ⟨row, hold, hages.apply row⟩
    · rw [(hages.apply row).id]
      exact .inr (List.mem_singleton.mp hlast ▸ hnew)
  | used now ht => exact .inl (hupdate _ (ages_updateLastUsed _ _) hrow)
  | unchanged => exact .inl ⟨row', hrow, .refl row'⟩

/-- A step of any call keeps the row or makes a later version of it. Only the transaction
`auth.session_activity` writes `last_used_at`. -/
theorem hasNext_step (h : ProtocolStep app r evs e db db')
    (hrow : sessionsSelectById id db.sessions = some row) :
    HasNext id row (e = .committed (.sessionActivity id)) db'.sessions := by
  cases h with
  | aborted _ => exact .refl hrow
  | read _ => exact .refl hrow
  | committed hcommit =>
    rw [Event.committed.injEq]
    exact (rows_commit hcommit).hasNext hrow

end

/-- What a call has found is an earlier version of the row that is there now. -/
def FoundInv (pg : Postgres) (db : Db) (tr : Trace) : Prop :=
  ∀ c session, (c, .foundSession (some session)) ∈ tr →
    ∃ found row, session = found.toDomain pg ∧
      sessionsSelectById session.id db.sessions = some row ∧ Later found row

/-- What a call has read about a session was in the table then, and has a later version now. -/
theorem foundInv_of_reachable {app : App} {A : SysAdmission} {I : Db → Prop} {s : SysState}
    (hs : Reachable app.run A I s) : FoundInv app.ports.pg s.store s.trace := by
  refine Reachable.invariant (J := FoundInv app.ports.pg) (app_refines app) ?_ ?_ hs
  · intro db _ c session hmem
    exact absurd hmem List.not_mem_nil
  · intro s db c r e hinv _ _ hstep c' session hmem
    rcases List.mem_append.mp hmem with hold | hlast
    · obtain ⟨found, row, hsession, hrow, hlater⟩ := hinv c' session hold
      obtain ⟨row', hrow', hlater', _⟩ := hasNext_step hstep hrow
      exact ⟨found, row', hsession, hrow', hlater.trans hlater'⟩
    · -- a session that is found now is the row itself
      obtain rfl := congrArg Prod.snd (List.mem_singleton.mp hlast)
      cases hstep with
      | aborted hab => cases hab
      | read hread =>
        obtain ⟨row, hrow, hsession⟩ := reads_foundRow hread
        exact ⟨row, row, hsession, hrow, .refl row⟩

end SmirklyAuth
