import SmirklyAuth.Lib.CommitOrder
import SmirklyAuth.Proofs.AttemptWindows
import SmirklyAuth.Protocol.CodeTables

/-!
# `SmirklyAuth.Proofs.CodeStatements`: the transactions on one-time codes, statement by statement

The transactions on `email_verifications` and on `password_resets`, as PostgreSQL runs them at
READ COMMITTED:

* `RequestReset` and `ResendEmailVerification` take the advisory locks of `TryRecordAttempt`, run
  `…_mark_active_used_by_user_id` for all codes of the user and insert the new code;
* `ConfirmReset` and `VerifyEmail` run `…_mark_used` for the code that they have found, and throw
  when it yields no row;
* after a wrong text they run `…_increment_attempts`.

The first transaction touches all codes of the user, and a code that a concurrent transaction has
inserted and not yet committed is invisible to it. The lock of the user excludes this: the
transactions that issue codes for one user come one after the other.

`codeTransactions_serial`: for every interleaving of any number of these transactions, with
rollbacks at any point, the committed codes are those that the repositories yield in some order
of whole transactions, where the index `…_one_active_per_user` rejects none of them. Of the codes
of a user at most one is unused, and each code is consumed at most once.

`SignUp` issues the first code of an account that no other transaction can find before the
commit. Such a code is one of the rows at the start.
-/

set_option autoImplicit false

namespace SmirklyAuth

open Sql (Update)
open ReadCommitted

namespace CodeKind

/-- The attempts that the use cases of the table record. -/
def attempts : CodeKind → AttemptTable
  | .emailVerification => .emailVerification
  | .passwordReset => .passwordReset

/-- `Insert` of the repository. -/
def insert : CodeKind → Postgres → Input → NewOneTimeCodeData → Tx OneTimeCode
  | .emailVerification => EmailVerificationRepository.insert
  | .passwordReset => PasswordResetRepository.insert

/-- An `UPDATE` of the repository. -/
def update : CodeKind → Update OneTimeCode → Tx Bool
  | .emailVerification => EmailVerificationRepository.update
  | .passwordReset => PasswordResetRepository.update

/-- The database with another table of codes. -/
def store : CodeKind → Db → List OneTimeCode → Db
  | .emailVerification, db, rows => { db with emailVerifications := rows }
  | .passwordReset, db, rows => { db with passwordResets := rows }

/-- What `ConfirmReset` and `VerifyEmail` throw when the code was used meanwhile. -/
def usedError : CodeKind → Error
  | .emailVerification => .codeExpired "Verification code expired, exhausted, or already used"
  | .passwordReset =>
      .invalidPasswordResetToken "password reset token expired, exhausted, or already used"

/-- The table that was stored is there. -/
theorem rows_store (kind : CodeKind) (db : Db) (rows : List OneTimeCode) :
    kind.rows (kind.store db rows) = rows := by
  cases kind <;> rfl

/-- Storing the table that is there changes nothing. -/
theorem store_rows (kind : CodeKind) (db : Db) : kind.store db (kind.rows db) = db := by
  cases kind <;> rfl

/-- The last table that was stored counts. -/
theorem store_store (kind : CodeKind) (db : Db) (rows rows' : List OneTimeCode) :
    kind.store (kind.store db rows) rows' = kind.store db rows' := by
  cases kind <;> rfl

/-- The update of the repository, on its table. -/
theorem update_eq (kind : CodeKind) (u : Update OneTimeCode) (db : Db) :
    kind.update u db = .ok (u.hits (kind.rows db), kind.store db (u.run (kind.rows db))) := by
  cases kind <;> rfl

/-- The insert of the repository, on its table. -/
theorem insert_eq {kind : CodeKind} {pg : Postgres} {i : Input}
    {data : NewOneTimeCodeData} {ip : Option Inet} {db : Db} {rows : List OneTimeCode}
    (hip : pg.inetArg data.ip = some ip)
    (h : OneTimeCode.insert (.ofData i data ip) (kind.rows db) = some rows) :
    kind.insert pg i data db = .ok (.ofData i data ip, kind.store db rows) := by
  cases kind with
  | emailVerification =>
    replace h : emailVerificationsInsert (.ofData i data ip) db.emailVerifications = some rows := h
    simp [CodeKind.insert, EmailVerificationRepository.insert, hip, h, CodeKind.store]
  | passwordReset =>
    replace h : passwordResetsInsert (.ofData i data ip) db.passwordResets = some rows := h
    simp [CodeKind.insert, PasswordResetRepository.insert, hip, h, CodeKind.store]

end CodeKind

/-- What a call has computed when its transaction begins. `order` is the order in which the lock
statement takes its keys. -/
inductive CodeCall where
  | issue (args : AttemptArgs) (order : List Str) (now : Time) (i : Input)
      (data : NewOneTimeCodeData)
  | confirm (id : Uuid) (now : Time) (maxAttempts : Nat)
  | reject (id : Uuid) (now : Time) (maxAttempts : Nat)

namespace CodeCall

/-- The statements on the table of codes and the lock statement. -/
def statements (pg : Postgres) : CodeCall → List (Statement OneTimeCode Str)
  | issue _ order now i data => order.map .lock ++
      [.update (OneTimeCode.markActiveUsedByUserId data.userId now) false,
        .insert (fun _ => (pg.inetArg data.ip).map (OneTimeCode.ofData i data)) true]
  | confirm id now maxAttempts => [.update (OneTimeCode.markUsed id now maxAttempts) true]
  | reject id now maxAttempts => [.update (OneTimeCode.incrementAttempts id now maxAttempts) false]

/-- The same transaction as one step, with the index `…_one_active_per_user`. -/
def atomic (pg : Postgres) (kind : CodeKind) : CodeCall → Tx Unit
  | issue _ _ now i data => do
      let _ ← kind.update (OneTimeCode.markActiveUsedByUserId data.userId now)
      let _ ← kind.insert pg i data
  | confirm id now maxAttempts => do
      let used ← kind.update (OneTimeCode.markUsed id now maxAttempts)
      Tx.require used kind.usedError
  | reject id now maxAttempts => do
      let _ ← kind.update (OneTimeCode.incrementAttempts id now maxAttempts)

/-- The code that the call has found before its transaction. -/
def target : CodeCall → Option Uuid
  | issue _ _ _ _ _ => none
  | confirm id _ _ => some id
  | reject id _ _ => some id

end CodeCall

/-- Of the codes of a user at most one is unused. -/
def OneActive (rows : List OneTimeCode) : Prop :=
  rows.Pairwise fun r r' => r.userId = r'.userId → r.usedAt = none → r'.usedAt ≠ none

/-- Calls on one table of codes. `locks`: a call that issues a code passes the id of its user to
`TryRecordAttempt` and takes the keys of the lock statement. -/
structure CodeCalls (τ : Type) where
  kind : CodeKind
  pg : Postgres
  rows : List OneTimeCode
  call : τ → CodeCall
  ids : (rows.map (·.id)).Nodup
  oneActive : OneActive rows
  locks : ∀ t args order now i data, call t = .issue args order now i data →
    args.userId = some data.userId ∧ ∀ key, key ∈ order ↔ key ∈ kind.attempts.lockScopes pg args

namespace CodeCalls

variable {τ : Type} [DecidableEq τ]

/-- The calls as transactions over one table. -/
def system (calls : CodeCalls τ) : System τ OneTimeCode Str where
  prog t := (calls.call t).statements calls.pg
  conflict r r' := decide (r.id = r'.id)

/-- A transaction runs when the code that the call has found is committed. -/
def Ready (calls : CodeCalls τ) (s : State τ OneTimeCode Str) : Action τ → Prop
  | .run t => ∀ id ∈ (calls.call t).target, ∃ r ∈ s.committedRows, r.id = id
  | _ => True

instance (calls : CodeCalls τ) (s : State τ OneTimeCode Str) (a : Action τ) :
    Decidable (calls.Ready s a) :=
  match a with
  | .run t =>
      decidable_of_iff ((calls.call t).target.all fun id => s.committedRows.any (·.id == id))
        (by simp [Ready, Option.all_eq_true])
  | .touch _ _ => .isTrue trivial
  | .finish _ => .isTrue trivial
  | .commit _ => .isTrue trivial
  | .rollback _ => .isTrue trivial

/-- The transactions as single steps, one after the other. -/
def inOrder (calls : CodeCalls τ) : List τ → Tx Unit
  | [] => pure ()
  | t :: ts => do
      (calls.call t).atomic calls.pg calls.kind
      calls.inOrder ts

/-! ### The statements -/

section
variable {calls : CodeCalls τ} {t : τ} {u : Update OneTimeCode} {required : Bool}

/-- A code after a statement: its key, its user and its expiry stay, it does not become unused,
and its failures do not get fewer. -/
structure Aged (r r' : OneTimeCode) : Prop where
  id : r'.id = r.id
  userId : r'.userId = r.userId
  expiresAt : r'.expiresAt = r.expiresAt
  used : r'.usedAt = none → r.usedAt = none
  attempts : r.attempts ≤ r'.attempts

/-- The updates of the transactions: the one that issues a code, and those of a single code. -/
inductive Updates (calls : CodeCalls τ) (t : τ) : Update OneTimeCode → Prop where
  | all {args order now i data} (hcall : calls.call t = .issue args order now i data) :
      Updates calls t (OneTimeCode.markActiveUsedByUserId data.userId now)
  | used {id now maxAttempts} (hcall : calls.call t = .confirm id now maxAttempts) :
      Updates calls t (OneTimeCode.markUsed id now maxAttempts)
  | counted {id now maxAttempts} (hcall : calls.call t = .reject id now maxAttempts) :
      Updates calls t (OneTimeCode.incrementAttempts id now maxAttempts)

omit [DecidableEq τ] in
/-- The updates of a call. -/
theorem updates_of_mem (h : .update u required ∈ calls.system.prog t) : calls.Updates t u := by
  change .update u required ∈ (calls.call t).statements calls.pg at h
  cases hcall : calls.call t with
  | issue args order now i data =>
    simp only [hcall, CodeCall.statements, List.mem_append, List.mem_map, reduceCtorEq, and_false,
      exists_false, List.mem_cons, Statement.update.injEq, List.not_mem_nil, or_false,
      false_or] at h
    rw [h.1]
    exact .all hcall
  | confirm id now maxAttempts =>
    simp only [hcall, CodeCall.statements, List.mem_singleton, Statement.update.injEq] at h
    rw [h.1]
    exact .used hcall
  | reject id now maxAttempts =>
    simp only [hcall, CodeCall.statements, List.mem_singleton, Statement.update.injEq] at h
    rw [h.1]
    exact .counted hcall

omit [DecidableEq τ] in
/-- Every update only ages the rows. -/
theorem Updates.aged (h : calls.Updates t u) (r : OneTimeCode) : Aged r (u.set r) := by
  cases h with
  | all _ =>
    exact ⟨rfl, rfl, rfl, by simp [OneTimeCode.markActiveUsedByUserId], Nat.le_refl _⟩
  | used _ => exact ⟨rfl, rfl, rfl, by simp [OneTimeCode.markUsed], Nat.le_refl _⟩
  | counted _ => exact ⟨rfl, rfl, rfl, fun hused => hused, Nat.le_succ _⟩

/-- A row that is active was active when it was younger. -/
theorem active_of_aged {r r' : OneTimeCode} (h : Aged r r') {now : Time} {maxAttempts : Nat}
    (hactive : r'.active now maxAttempts = true) : r.active now maxAttempts = true := by
  simp only [OneTimeCode.active, Bool.and_eq_true, Option.isNone_iff_eq_none,
    decide_eq_true_eq] at hactive ⊢
  have hattempts := h.attempts
  rw [h.expiresAt] at hactive
  exact ⟨⟨h.used hactive.1.1, hactive.1.2⟩, by omega⟩

omit [DecidableEq τ] in
/-- A code that does not meet an update does not come to meet it. -/
theorem Updates.cond_of_aged (h : calls.Updates t u) {r r' : OneTimeCode} (haged : Aged r r')
    (hcond : u.cond r' = true) : u.cond r = true := by
  cases h with
  | all _ =>
    simp only [OneTimeCode.markActiveUsedByUserId, Bool.and_eq_true, beq_iff_eq,
      Option.isNone_iff_eq_none] at hcond ⊢
    exact ⟨haged.userId.symm.trans hcond.1, haged.used hcond.2⟩
  | used _ =>
    simp only [OneTimeCode.markUsed, Bool.and_eq_true, beq_iff_eq] at hcond ⊢
    exact ⟨haged.id.symm.trans hcond.1, active_of_aged haged hcond.2⟩
  | counted _ =>
    simp only [OneTimeCode.incrementAttempts, Bool.and_eq_true, beq_iff_eq] at hcond ⊢
    exact ⟨haged.id.symm.trans hcond.1, active_of_aged haged hcond.2⟩

omit [DecidableEq τ] in
/-- The statements on codes are separate. -/
theorem separate (calls : CodeCalls τ) : Separate calls.system (·.id) where
  conflict _ _ := rfl
  keeps t u required x h := ((updates_of_mem h).aged x).id
  constant t make required h rows := by
    change .insert make required ∈ (calls.call t).statements calls.pg at h
    cases hcall : calls.call t with
    | issue args order now i data =>
      simp only [hcall, CodeCall.statements, List.mem_append, List.mem_map, reduceCtorEq,
        and_false, exists_false, List.mem_cons, Statement.insert.injEq, List.not_mem_nil,
        or_false, false_or] at h
      rw [h.1]
    | confirm id now maxAttempts => simp [hcall, CodeCall.statements] at h
    | reject id now maxAttempts => simp [hcall, CodeCall.statements] at h
  own t := by
    change ((calls.call t).statements calls.pg).Pairwise _
    cases hcall : calls.call t with
    | issue args order now i data =>
      -- the new code is inserted by the last statement
      rw [CodeCall.statements, List.pairwise_append]
      refine ⟨?_, ?_, ?_⟩
      · rw [List.pairwise_map]
        exact List.pairwise_of_forall (by simp [Statement.newRow])
      · exact List.pairwise_pair.mpr (by simp [Statement.newRow])
      · intro st hst _ _ x hx
        obtain ⟨key, _, rfl⟩ := List.mem_map.mp hst
        cases hx
    | confirm id now maxAttempts => exact List.pairwise_singleton _ _
    | reject id now maxAttempts => exact List.pairwise_singleton _ _
  stable t u required t' u' required' x h h' hfalse _ := by
    rw [Bool.eq_false_iff] at hfalse ⊢
    exact fun hcond => hfalse ((updates_of_mem h).cond_of_aged ((updates_of_mem h').aged x) hcond)

end

/-! ### The lock of the user -/

section
variable {calls : CodeCalls τ} {s s' : State τ OneTimeCode Str} {a : Action τ} {t : τ}

/-- The key that every transaction which issues a code for the user locks. -/
def userKey (calls : CodeCalls τ) (userId : Uuid) : Str :=
  calls.kind.attempts.lockKey calls.pg (.user userId)

omit [DecidableEq τ] in
/-- A call that issues a code locks its user. -/
theorem userKey_mem {args : AttemptArgs} {order : List Str} {now : Time} {i : Input}
    {data : NewOneTimeCodeData} (hcall : calls.call t = .issue args order now i data) :
    calls.userKey data.userId ∈ order := by
  obtain ⟨huser, horder⟩ := calls.locks t args order now i data hcall
  rw [horder, AttemptTable.lockScopes_eq]
  exact List.mem_map.mpr ⟨.user data.userId, by simp [AttemptScope.ofArgs, huser], rfl⟩

omit [DecidableEq τ] in
/-- A transaction that is past its locks holds the one of its user. -/
theorem holds_userKey (hs : Sound calls.system s) {args : AttemptArgs} {order : List Str}
    {now : Time} {i : Input} {data : NewOneTimeCodeData}
    (hcall : calls.call t = .issue args order now i data) (hactive : (s.txns t).status = .active)
    (hpc : order.length ≤ (s.txns t).pc) : (calls.userKey data.userId, t) ∈ s.locks := by
  obtain ⟨j, hj, hkey⟩ := List.mem_iff_getElem.mp (userKey_mem hcall)
  refine hs.held t hactive j _ (Nat.lt_of_lt_of_le hj hpc) ?_
  change ((calls.call t).statements calls.pg)[j]? = _
  rw [hcall, CodeCall.statements, List.getElem?_append_left (by rw [List.length_map]; exact hj),
    List.getElem?_map, List.getElem?_eq_getElem hj, hkey]
  rfl

/-- What holds in every state of a run. `issued`: a new code was inserted by a transaction that
issues codes for its user, and the transaction has no statement left. -/
structure Guarded (calls : CodeCalls τ) (s : State τ OneTimeCode Str) : Prop where
  sound : Sound calls.system s
  pinned : Pinned (·.id) (fun t => (calls.call t).target) s
  issued : ∀ c ∈ s.cells, c.committed = none → ∀ t x, c.pending = some (t, x) →
    (s.txns t).pc = (calls.system.prog t).length ∧
      ∃ args order now i data, calls.call t = .issue args order now i data ∧
        x.userId = data.userId

omit [DecidableEq τ] in
/-- The start, before any call has taken a lock. -/
theorem Guarded.initial (calls : CodeCalls τ) : calls.Guarded (State.initial calls.rows) where
  sound := .initial _
  pinned := .initial calls.ids
  issued c hc hnone := by
    obtain ⟨r, _, rfl⟩ := List.mem_map.mp hc
    cases hnone

/-- A transaction that has inserted its code goes on to its end only. -/
theorem txns_of_end (h : Effect calls.system s a s')
    (hpc : (s.txns t).pc = (calls.system.prog t).length)
    (hactive : (s'.txns t).status = .active) : s'.txns t = s.txns t := by
  by_cases heq : t = a.actor
  rotate_left
  · exact h.frame heq
  subst heq
  have hnext : calls.system.next s a.actor = none := by
    simp [System.next, h.actor_active, hpc]
  cases h with
  | locked hnext' _ => cases hnext.symm.trans hnext'
  | inserted hnext' _ _ => cases hnext.symm.trans hnext'
  | passed hnext' _ => cases hnext.symm.trans hnext'
  | opened hnext' _ => cases hnext.symm.trans hnext'
  | touched hnext' _ _ _ _ => cases hnext.symm.trans hnext'
  | finished hnext' _ _ => cases hnext.symm.trans hnext'
  | committed _ _ => simp [State.commit, Action.actor] at hactive
  | rolledBack _ => simp [State.rollback] at hactive

omit [DecidableEq τ] in
/-- The insert is the last statement, and the new code is one of the user. -/
theorem issue_of_insert {pc : Nat} {make : List OneTimeCode → Option OneTimeCode}
    {required : Bool} {rows : List OneTimeCode} {row : OneTimeCode}
    (h : (calls.system.prog t)[pc]? = some (.insert make required))
    (hmake : make rows = some row) : pc + 1 = (calls.system.prog t).length ∧
      ∃ args order now i data, calls.call t = .issue args order now i data ∧
        row.userId = data.userId := by
  change ((calls.call t).statements calls.pg)[pc]? = _ at h
  change _ = ((calls.call t).statements calls.pg).length ∧ _
  cases hcall : calls.call t with
  | issue args order now i data =>
    rw [hcall, CodeCall.statements, List.getElem?_append] at h
    split at h
    · simp [List.getElem?_map] at h
    · rename_i hlen
      rw [List.length_map] at hlen h
      obtain ⟨n, hn⟩ : ∃ n, pc = order.length + n := ⟨pc - order.length, by omega⟩
      subst hn
      rw [Nat.add_sub_cancel_left] at h
      rcases n with _ | _ | n
      · cases h
      · cases h
        obtain ⟨ip, _, rfl⟩ := Option.map_eq_some_iff.mp hmake
        exact ⟨by simp [CodeCall.statements], args, order, now, i, data, rfl, rfl⟩
      · cases h
  | confirm id now maxAttempts =>
    rw [hcall] at h
    have hmem := List.mem_of_getElem? h
    simp [CodeCall.statements] at hmem
  | reject id now maxAttempts =>
    rw [hcall] at h
    have hmem := List.mem_of_getElem? h
    simp [CodeCall.statements] at hmem

/-- One action keeps the guard. -/
theorem Guarded.step (hs : calls.Guarded s) (h : Effect calls.system s a s')
    (hok : calls.Ready s a) : calls.Guarded s' where
  sound := h.sound hs.sound
  pinned := by
    refine hs.pinned.step (separate calls) h fun t hrun => ?_
    rw [hrun] at hok
    exact hok
  issued c' hc' hnone t x hpending := by
    have hactive : (s'.txns t).status = .active :=
      (h.sound hs.sound).active c' hc' t x hpending
    obtain ⟨i, hi⟩ := List.mem_iff_getElem?.mp hc'
    rcases h.cell_of hi with ⟨c, hc, hchange⟩ | ⟨t', row, hins, _, rfl⟩
    · have hmem : c ∈ s.cells := List.mem_of_getElem? hc
      have hnone₀ : c.committed = none := by
        cases hcommitted : c.committed with
        | none => rfl
        | some r =>
          obtain ⟨r', hr', _⟩ := hchange.committed_some hcommitted
          rw [hnone] at hr'
          cases hr'
      rcases hchange.pending hpending with hold | ⟨_, u, required, y, hnext, _, hseen, _⟩
      · obtain ⟨hpc, hissue⟩ := hs.issued c hmem hnone₀ t x hold
        rw [txns_of_end h hpc hactive]
        exact ⟨hpc, hissue⟩
      · -- a transaction does not update the code that it has inserted
        rcases c.seenBy_cases t with ⟨z, hz, _⟩ | ⟨_, hcommitted⟩
        · obtain ⟨hpc, _⟩ := hs.issued c hmem hnone₀ t z hz
          have hcurrent := (System.next_eq_some hnext).2
          rw [hpc, List.getElem?_length] at hcurrent
          cases hcurrent
        · rw [hseen, hnone₀] at hcommitted
          cases hcommitted
    · cases hpending
      obtain ⟨make, required, hnext, hmake⟩ := hins.made
      obtain ⟨hlast, hissue⟩ := issue_of_insert (System.next_eq_some hnext).2 hmake
      rw [hins.pc h]
      exact ⟨hlast, hissue⟩

omit [DecidableEq τ] in
/-- A new code is not one that a started statement of another transaction should have seen. -/
theorem Guarded.sealed (hs : calls.Guarded s) : Sealed calls.system s := by
  intro t u hactive hstarted c hc t' x hnone hpending hne
  have hbegun := begun_of_started hstarted
  obtain ⟨hpc', args', order', now', i', data', hcall', hx⟩ := hs.issued c hc hnone t' x hpending
  have hactive' : (s.txns t').status = .active := hs.sound.active c hc t' x hpending
  obtain ⟨j, required, hprog, hj⟩ := hstarted
  rw [Bool.eq_false_iff]
  intro hcond
  cases updates_of_mem (List.mem_of_getElem? hprog) with
  | @all args order now i data hcall =>
    -- both transactions hold the lock of the user
    have huser : data'.userId = data.userId := by
      simp only [OneTimeCode.markActiveUsedByUserId, Bool.and_eq_true, beq_iff_eq] at hcond
      exact hx.symm.trans hcond.1
    have hpast : order.length ≤ (s.txns t).pc := by
      by_contra hbefore
      have hlock : j < order.length := by omega
      change ((calls.call t).statements calls.pg)[j]? = _ at hprog
      rw [hcall, CodeCall.statements,
        List.getElem?_append_left (by rw [List.length_map]; exact hlock), List.getElem?_map,
        List.getElem?_eq_getElem hlock] at hprog
      cases hprog
    have hpast' : order'.length ≤ (s.txns t').pc := by
      rw [hpc']
      change _ ≤ ((calls.call t').statements calls.pg).length
      rw [hcall', CodeCall.statements, List.length_append, List.length_map]
      exact Nat.le_add_right _ _
    have hheld := holds_userKey hs.sound hcall hactive hpast
    have hheld' := holds_userKey hs.sound hcall' hactive' hpast'
    rw [huser] at hheld'
    exact hne (hs.sound.exclusive _ t' t hheld' hheld)
  | @used id now maxAttempts hcall =>
    have hid : id ∈ (calls.call t).target := by rw [hcall]; rfl
    refine hs.pinned.key_ne hactive hbegun hid hc hnone hpending ?_
    simp only [OneTimeCode.markUsed, Bool.and_eq_true, beq_iff_eq] at hcond
    exact hcond.1
  | @counted id now maxAttempts hcall =>
    have hid : id ∈ (calls.call t).target := by rw [hcall]; rfl
    refine hs.pinned.key_ne hactive hbegun hid hc hnone hpending ?_
    simp only [OneTimeCode.incrementAttempts, Bool.and_eq_true, beq_iff_eq] at hcond
    exact hcond.1

end

/-! ### The transactions as single steps -/

section
variable {calls : CodeCalls τ} {t : τ} {db : Db} {rows rows' : List OneTimeCode}

omit [DecidableEq τ] in
/-- What a transaction does to the table when nothing interrupts it. -/
inductive Outcome (calls : CodeCalls τ) (t : τ) (rows : List OneTimeCode) :
    List OneTimeCode → Prop where
  | issued {args order now i data ip} (hcall : calls.call t = .issue args order now i data)
      (hip : calls.pg.inetArg data.ip = some ip)
      (hnew : ∀ r ∈ rows, i.newCodeId ≠ r.id) :
      Outcome calls t rows ((OneTimeCode.markActiveUsedByUserId data.userId now).run rows ++
        [OneTimeCode.ofData i data ip])
  | used {id now maxAttempts} (hcall : calls.call t = .confirm id now maxAttempts)
      (hhits : (OneTimeCode.markUsed id now maxAttempts).hits rows = true) :
      Outcome calls t rows ((OneTimeCode.markUsed id now maxAttempts).run rows)
  | counted {id now maxAttempts} (hcall : calls.call t = .reject id now maxAttempts) :
      Outcome calls t rows ((OneTimeCode.incrementAttempts id now maxAttempts).run rows)

omit [DecidableEq τ] in
/-- A call that runs alone has an outcome of its kind. -/
theorem outcome_of_exec (h : calls.system.exec rows t = some rows') :
    calls.Outcome t rows rows' := by
  change ((calls.call t).statements calls.pg).foldlM _ _ = _ at h
  cases hcall : calls.call t with
  | issue args order now i data =>
    rw [hcall, CodeCall.statements, List.foldlM_append] at h
    obtain ⟨rows₁, hlocks, hrest⟩ := Option.bind_eq_some_iff.mp h
    -- locks leave the table as it is
    have hsame : rows₁ = rows := by
      refine foldlM_exec_rule (P := (· = rows)) ?_ rfl hlocks
      intro st hst rows₂ rows₃ hrows₂ hlock
      obtain ⟨key, _, rfl⟩ := List.mem_map.mp hst
      cases hlock
      exact hrows₂
    subst hsame
    rw [List.foldlM_cons] at hrest
    obtain ⟨rows₂, hupdate, hrest⟩ := Option.bind_eq_some_iff.mp hrest
    rw [List.foldlM_cons] at hrest
    obtain ⟨rows₃, hinsert, hlast⟩ := Option.bind_eq_some_iff.mp hrest
    cases hlast
    obtain ⟨rfl, _⟩ := Statement.exec_update hupdate
    rcases Statement.exec_insert hinsert with ⟨row, hmake, hfree, rfl⟩ | ⟨_, hoptional, _⟩
    · obtain ⟨ip, hip, rfl⟩ := Option.map_eq_some_iff.mp hmake
      refine .issued hcall hip fun r hr heq => ?_
      have hkeeps : (OneTimeCode.markActiveUsedByUserId data.userId now).Keeps (·.id) :=
        fun _ => rfl
      exact of_decide_eq_false (hfree _ (Update.apply_mem_run hr))
        (heq.trans (hkeeps.apply r).symm)
    · cases hoptional
  | confirm id now maxAttempts =>
    rw [hcall, CodeCall.statements, List.foldlM_cons] at h
    obtain ⟨rows₁, hupdate, hlast⟩ := Option.bind_eq_some_iff.mp h
    cases hlast
    obtain ⟨rfl, hhits⟩ := Statement.exec_update hupdate
    exact .used hcall (hhits rfl)
  | reject id now maxAttempts =>
    rw [hcall, CodeCall.statements, List.foldlM_cons] at h
    obtain ⟨rows₁, hupdate, hlast⟩ := Option.bind_eq_some_iff.mp h
    cases hlast
    obtain ⟨rfl, _⟩ := Statement.exec_update hupdate
    exact .counted hcall

/-- After `…_mark_active_used_by_user_id` the user has no unused code. -/
theorem used_of_markActive {userId : Uuid} {now : Time} {r : OneTimeCode}
    (hr : r ∈ (OneTimeCode.markActiveUsedByUserId userId now).run rows)
    (huser : r.userId = userId) : r.usedAt ≠ none := by
  obtain ⟨r₀, _, rfl⟩ := Update.mem_run.mp hr
  have hkeeps : (OneTimeCode.markActiveUsedByUserId userId now).Keeps (·.userId) := fun _ => rfl
  have huser₀ : r₀.userId = userId := (hkeeps.apply r₀).symm.trans huser
  cases hused : r₀.usedAt with
  | none => simp [Update.apply, OneTimeCode.markActiveUsedByUserId, huser₀, hused]
  | some time => simp [Update.apply, OneTimeCode.markActiveUsedByUserId, hused]

omit [DecidableEq τ] in
/-- A transaction that can be executed without interruption is a step of the repository, and the
index does not reject it. -/
theorem atomic_of_exec (h : calls.system.exec (calls.kind.rows db) t = some rows) :
    (calls.call t).atomic calls.pg calls.kind db = .ok ((), calls.kind.store db rows) := by
  cases outcome_of_exec h with
  | @issued args order now i data ip hcall hip hnew =>
    rw [hcall]
    have hkeeps : (OneTimeCode.markActiveUsedByUserId data.userId now).Keeps (·.id) := fun _ => rfl
    have hinsert : OneTimeCode.insert (.ofData i data ip)
        ((OneTimeCode.markActiveUsedByUserId data.userId now).run (calls.kind.rows db)) =
        some ((OneTimeCode.markActiveUsedByUserId data.userId now).run (calls.kind.rows db) ++
          [.ofData i data ip]) := by
      unfold OneTimeCode.insert
      rw [if_neg, if_neg]
      · -- the codes of the user are used
        intro hactive
        rw [Bool.and_eq_true] at hactive
        obtain ⟨r, hr, hunused⟩ := List.any_eq_true.mp hactive.2
        rw [Bool.and_eq_true, beq_iff_eq, Option.isNone_iff_eq_none] at hunused
        exact used_of_markActive hr hunused.1 hunused.2
      · intro htaken
        obtain ⟨r, hr, hid⟩ := List.any_eq_true.mp htaken
        obtain ⟨r₀, hr₀, rfl⟩ := Update.mem_run.mp hr
        exact hnew r₀ hr₀ ((beq_iff_eq.mp hid).symm.trans (hkeeps.apply r₀))
    rw [← calls.kind.rows_store db (Update.run _ _)] at hinsert
    refine Tx.bind_eq_ok.mpr ⟨_, _, calls.kind.update_eq _ db, ?_⟩
    refine Tx.bind_eq_ok.mpr ⟨_, _, CodeKind.insert_eq hip hinsert, ?_⟩
    rw [CodeKind.store_store, CodeKind.rows_store]
    rfl
  | @used id now maxAttempts hcall hhits =>
    rw [hcall]
    refine Tx.bind_eq_ok.mpr ⟨_, _, calls.kind.update_eq _ db, ?_⟩
    exact Tx.require_eq_ok.mpr ⟨hhits, rfl⟩
  | @counted id now maxAttempts hcall =>
    rw [hcall]
    exact Tx.bind_eq_ok.mpr ⟨_, _, calls.kind.update_eq _ db, rfl⟩

omit [DecidableEq τ] in
/-- The same for a sequence of transactions. -/
theorem inOrder_of_execAll {ts : List τ}
    (h : calls.system.execAll ts (calls.kind.rows db) = some rows) :
    calls.inOrder ts db = .ok ((), calls.kind.store db rows) := by
  induction ts generalizing db with
  | nil =>
    cases h
    rw [CodeKind.store_rows]
    rfl
  | cons t ts ih =>
    rw [System.execAll, List.foldlM_cons] at h
    obtain ⟨rows₁, hfirst, hrest⟩ := Option.bind_eq_some_iff.mp h
    have hlater : calls.inOrder ts (calls.kind.store db rows₁) =
        .ok ((), calls.kind.store (calls.kind.store db rows₁) rows) :=
      ih (by rw [CodeKind.rows_store]; exact hrest)
    rw [CodeKind.store_store] at hlater
    exact Tx.bind_eq_ok.mpr ⟨(), _, atomic_of_exec hfirst, hlater⟩

/-- Updates that only age codes keep one active code per user. -/
theorem OneActive.run {u : Update OneTimeCode} (h : OneActive rows)
    (haged : ∀ r, Aged r (u.set r)) : OneActive (u.run rows) := by
  have hstep : ∀ r, (u.apply r).userId = r.userId ∧
      ((u.apply r).usedAt = none → r.usedAt = none) := by
    intro r
    unfold Update.apply
    split
    · exact ⟨(haged r).userId, (haged r).used⟩
    · exact ⟨rfl, id⟩
  refine List.pairwise_map.mpr (h.imp fun {r r'} hpair huser hused hused' => ?_)
  rw [(hstep r).1, (hstep r').1] at huser
  exact hpair huser ((hstep r).2 hused) ((hstep r').2 hused')

omit [DecidableEq τ] in
/-- Every transaction keeps one active code per user. -/
theorem OneActive.exec (h : OneActive rows) (hexec : calls.system.exec rows t = some rows') :
    OneActive rows' := by
  cases outcome_of_exec hexec with
  | @issued args order now i data ip hcall _ _ =>
    refine List.pairwise_append.mpr ⟨OneActive.run h (Updates.all hcall).aged,
      List.pairwise_singleton _ _, ?_⟩
    intro r hr new hnew huser hused
    rw [List.mem_singleton.mp hnew] at huser
    exact absurd hused (used_of_markActive hr huser)
  | used hcall _ => exact OneActive.run h (Updates.used hcall).aged
  | counted hcall => exact OneActive.run h (Updates.counted hcall).aged

end

/-- The transaction consumes the code. -/
def Consumes (calls : CodeCalls τ) (id : Uuid) (t : τ) : Prop :=
  ∃ now maxAttempts, calls.call t = .confirm id now maxAttempts

omit [DecidableEq τ] in
/-- A code is consumed while it is unused. -/
theorem Consumes.update {calls : CodeCalls τ} {id : Uuid} {t : τ} (h : calls.Consumes id t) :
    ∃ u, .update u true ∈ calls.system.prog t ∧ ∀ r, u.cond r = true →
      r.id = id ∧ ¬ r.usedAt.isSome = true ∧ (u.set r).usedAt.isSome = true := by
  obtain ⟨now, maxAttempts, hcall⟩ := h
  refine ⟨OneTimeCode.markUsed id now maxAttempts, ?_, fun r hr => ?_⟩
  · simp [system, hcall, CodeCall.statements]
  · simp only [OneTimeCode.markUsed, OneTimeCode.active, Bool.and_eq_true, beq_iff_eq,
      Option.isNone_iff_eq_none] at hr
    refine ⟨hr.1, ?_, rfl⟩
    simp [hr.2.1.1]

/-- Any number of transactions that issue, confirm and reject codes run concurrently, statement
by statement, and may be rolled back at any point. In every state the committed codes are those
that the committed transactions yield as steps of the repositories, one after the other in some
order, and the index `…_one_active_per_user` rejects none of them. Of the codes of a user at most
one is unused, and each code was consumed by at most one transaction. -/
theorem codeTransactions_serial (calls : CodeCalls τ) (db : Db)
    (hdb : calls.kind.rows db = calls.rows) (s : State τ OneTimeCode Str)
    (hs : Steps calls.system calls.Ready (State.initial calls.rows) s) :
    (∃ (ts : List τ) (db' : Db), ts.Nodup ∧ (∀ t, t ∈ ts ↔ (s.txns t).status = .committed) ∧
      calls.inOrder ts db = .ok ((), db') ∧ s.committedRows.Perm (calls.kind.rows db')) ∧
    OneActive s.committedRows ∧
    ∀ id t t', (s.txns t).status = .committed → (s.txns t').status = .committed →
      calls.Consumes id t → calls.Consumes id t' → t = t' := by
  obtain ⟨_, hserial⟩ := serial_of_steps (separate calls) calls.ids (Guarded.initial calls)
    (fun _ _ _ hguarded hok heffect => hguarded.step heffect hok)
    (fun _ hguarded => hguarded.sealed) hs
  obtain ⟨ts, hnodup, hmem, rows', hexec, hperm⟩ := hserial.order
  refine ⟨⟨ts, calls.kind.store db rows', hnodup, hmem, ?_, ?_⟩, ?_, ?_⟩
  · exact inOrder_of_execAll (by rw [hdb]; exact hexec)
  · rw [CodeKind.rows_store]
    exact hperm
  · have hactive : OneActive rows' :=
      System.execAll_rule (P := OneActive) (fun _ _ _ => OneActive.exec) calls.oneActive hexec
    refine (hperm.pairwise_iff fun {r r'} hpair huser hused hused' => ?_).mpr hactive
    exact hpair huser.symm hused' hused
  · intro id t t' ht ht' hconsumes hconsumes'
    have hkept : ∀ t u required r, .update u required ∈ calls.system.prog t →
        r.usedAt.isSome = true → (u.set r).usedAt.isSome = true := by
      intro t u required r hmem hused
      by_contra hnone
      rw [((updates_of_mem hmem).aged r).used (Option.not_isSome_iff_eq_none.mp hnone)] at hused
      cases hused
    exact (separate calls).spent_once hkept (C := calls.Consumes id) (fun _ h => h.update)
      calls.ids hexec hnodup t ((hmem t).mpr ht) hconsumes t' ((hmem t').mpr ht') hconsumes'

end CodeCalls

/-- The arguments of `TryRecordAttempt` in a reset of the account. -/
def unitResetArgs : AttemptArgs where
  identifier := "unit@example.com"
  userId := some unitUser.id
  ip := none
  userAgent := none
  now := 10
  since := 0
  maxPerIdentifier := 5
  maxPerUser := 5
  maxPerIp := 5

/-- A new code for that account. -/
def unitResetData : NewOneTimeCodeData where
  userId := unitUser.id
  secretHash := "2nd_hash"
  expiresAt := 3600
  ip := none
  userAgent := none

/-- Two calls of `RequestReset`, and a call of `ConfirmReset` that has found the code before. -/
inductive UnitReset where
  | first
  | second
  | confirm
  deriving DecidableEq

/-- The three calls over a table with one code. -/
def unitResets : CodeCalls UnitReset where
  kind := .passwordReset
  pg := plainApp.ports.pg
  rows := [OneTimeCode.ofData { newCodeId := ⟨1⟩ } unitResetData none]
  call
    | .first => .issue unitResetArgs
        (passwordResetAttemptsLockScopes plainApp.ports.pg unitResetArgs) 10
        { newCodeId := ⟨2⟩ } unitResetData
    | .second => .issue unitResetArgs
        (passwordResetAttemptsLockScopes plainApp.ports.pg unitResetArgs) 10
        { newCodeId := ⟨3⟩ } unitResetData
    | .confirm => .confirm ⟨1⟩ 10 5
  ids := by decide
  oneActive := List.pairwise_singleton _ _
  locks := by
    intro t args order now i data hcall
    cases t with
    | first =>
      cases hcall
      exact ⟨rfl, fun _ => Iff.rfl⟩
    | second =>
      cases hcall
      exact ⟨rfl, fun _ => Iff.rfl⟩
    | confirm => cases hcall

/-- The first `RequestReset` uses the old code up while the `ConfirmReset` waits for it. The second
one waits for the lock of the user and uses up the code of the first. -/
theorem codeTransactions_serial_resets :
    ∃ s : State UnitReset OneTimeCode Str,
      Steps unitResets.system unitResets.Ready (State.initial unitResets.rows) s ∧
      (s.txns .first).status = .committed ∧ (s.txns .second).status = .committed ∧
      (s.txns .confirm).status = .rolledBack ∧ OneActive s.committedRows ∧
      ∃ (ts : List UnitReset) (db' : Db), (∀ t, t ∈ ts ↔ (s.txns t).status = .committed) ∧
        unitResets.inOrder ts { unitDb with passwordResets := unitResets.rows } = .ok ((), db') ∧
        s.committedRows.Perm db'.passwordResets := by
  obtain ⟨s, hs, hfirst, hsecond, hconfirm⟩ : ∃ s ∈ replay unitResets.system unitResets.Ready
      (State.initial unitResets.rows)
      [.run .first, .run .first, .run .confirm, .run .first, .touch .first 0, .finish .first,
        .run .first, .commit .first, .touch .confirm 0, .run .second, .run .second, .run .second,
        .finish .confirm, .touch .second 1, .finish .second, .run .second, .commit .second],
      (s.txns .first).status = .committed ∧ (s.txns .second).status = .committed ∧
        (s.txns .confirm).status = .rolledBack := by decide +kernel
  have hreach := steps_of_replay hs
  obtain ⟨⟨ts, db', _, hmem, horder, hperm⟩, hactive, _⟩ := CodeCalls.codeTransactions_serial
    unitResets { unitDb with passwordResets := unitResets.rows } rfl s hreach
  exact ⟨s, hreach, hfirst, hsecond, hconfirm, hactive, ts, db', hmem, horder, hperm⟩

end SmirklyAuth
