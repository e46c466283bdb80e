import SmirklyAuth.Proofs.Passwords
import SmirklyAuth.Protocol.CodeTables

/-!
# `SmirklyAuth.Proofs.OneTimeCodes`: a code is accepted once, and only the latest one

`VerifyEmail` and `ConfirmReset` look up the active code of a user, compare it with the text
they were given, and use it in a later transaction. A resend, a wrong guess or another call
can run in between. The statements of that transaction carry the whole condition again:
`…_mark_used` touches the row only while it is unused, unexpired and below the limit.

`CodeInv` is the invariant of a table and the trace. `oneTimeCodes_accepted_once` says, for
both tables and every run with a fixed limit: a user has at most one unused code, a code is
consumed at most once, every success has consumed a code, and the consumed code was the
latest one of its user, unexpired at the clock reading of the call and below the limit.
-/

set_option autoImplicit false

namespace SmirklyAuth

open Interleaving

namespace CodeKind

/-- The event consumes the code with the id. -/
def consumes (kind : CodeKind) (id : Uuid) (p : Nat × Event) : Bool :=
  (kind.consumed p.2).any fun code => code.1 == id

/-- The call is a call of the use case that accepts codes of this kind, and it has
succeeded. -/
def succeeded : CodeKind → SysState → Nat → Bool
  | .emailVerification, s, c =>
      match s.calls c with
      | some ⟨⟨_, .verifyEmail _ _⟩, .done _⟩ => true
      | _ => false
  | .passwordReset, s, c =>
      match s.calls c with
      | some ⟨⟨_, .confirmReset _ _⟩, .done _⟩ => true
      | _ => false

/-- What a code of this kind is good for: the change of an account that a step of a call
with the given command makes. -/
def grants : CodeKind → Command → User → User → Bool
  | .emailVerification, _, u, u' => !u.isEmailVerified && u'.isEmailVerified
  | .passwordReset, .confirmReset _ _, u, u' => u'.password != u.password
  | .passwordReset, _, _, _ => false

end CodeKind

/-! ### The invariant -/

/-- The invariant of a table of codes and the trace:

- `valid`: the rows are valid;
- `found`: a code that a call has found is still a row, with the same user and the same
  expiry;
- `spent`: a code that was consumed is a used row;
- `once`: a code is consumed at most once. -/
structure CodeInv (kind : CodeKind) (M : Nat) (db : Db) (tr : Trace) : Prop where
  valid : CodesValid M (kind.rows db)
  found : ∀ c row, (c, kind.found row) ∈ tr → ∃ r ∈ kind.rows db, row.Evolves r
  spent : ∀ c e id userId, (c, e) ∈ tr → kind.consumed e = some (id, userId) →
    ∃ r ∈ kind.rows db, r.id = id ∧ r.usedAt.isSome = true
  once : ∀ id, tr.countP (kind.consumes id) ≤ 1

section
variable {app : App} {kind : CodeKind} {M : Nat} {r : Request} {db db' : Db} {tr : Trace}
  {c : Nat} {e : Event} {rows : List OneTimeCode} {id userId : Uuid}

/-- Before the first call there is no code. -/
theorem CodeInv.init (h : Seed db) : CodeInv kind M db [] where
  valid := by
    rw [h.codes kind]
    exact CodesValid.nil M
  found _ _ hmem := nomatch hmem
  spent _ _ _ _ hmem := nomatch hmem
  once _ := Nat.zero_le 1

/-- A step that finds a code is a read. -/
theorem found_reads {row : OneTimeCode}
    (hstep : ProtocolStep app r (own c tr) (kind.found row) db db') :
    Reads app r (own c tr) (kind.found row) db ∧ db' = db := by
  generalize he : kind.found row = e at hstep
  cases hstep with
  | aborted hab => cases kind <;> subst he <;> cases hab
  | read hread => exact ⟨hread, rfl⟩
  | committed _ => cases kind <;> cases he

/-- The code that a step consumes is an active row of the account, at the clock reading of
the call. -/
theorem CodeInv.consumed_row (h : CodeInv kind M db tr)
    (hstep : CodesStep kind M (own c tr) e (kind.rows db) rows)
    (he : kind.consumed e = some (id, userId)) :
    ∃ row ∈ kind.rows db, ∃ now, row.id = id ∧ row.userId = userId ∧
      clockOf tr c = some now ∧ row.active now.timePointTz M = true ∧
      rows = (OneTimeCode.markUsed id now.timePointTz M).run (kind.rows db) := by
  cases hstep with
  | quiet _ hnone => rw [hnone] at he; cases he
  | issued _ hnone _ _ => rw [hnone] at he; cases he
  | rejected _ hnone _ _ => rw [hnone] at he; cases he
  | @consumed _ now found _ hsome hclock hmem hfound hhits =>
    rw [hsome] at he
    cases he
    obtain ⟨row, hrow, hcond⟩ := Sql.Update.hits_iff.mp hhits
    obtain ⟨hid, hactive⟩ := Bool.and_eq_true_iff.mp hcond
    -- the row that the call found has kept its user
    obtain ⟨row', hrow', hevolves⟩ := h.found c found (mem_own.mp hmem)
    have heq : row' = row :=
      h.valid.eq_of_id hrow' hrow (hevolves.id.trans (beq_iff_eq.mp hid).symm)
    have huser : row.userId = found.userId := heq ▸ hevolves.userId
    have hnow : clockOf tr c = some now := by
      unfold clockOf
      rw [hclock]
    exact ⟨row, hrow, now, beq_iff_eq.mp hid, huser.trans hfound.owner, hnow, hactive, rfl⟩

/-- A code that a step consumes has not been consumed before, and it is used afterwards. -/
theorem CodeInv.consumed_fresh (h : CodeInv kind M db tr)
    (hstep : CodesStep kind M (own c tr) e (kind.rows db) rows)
    (he : kind.consumed e = some (id, userId)) :
    tr.countP (kind.consumes id) = 0 ∧ ∃ row ∈ rows, row.id = id ∧ row.usedAt.isSome = true := by
  obtain ⟨row, hrow, now, hid, _, _, hactive, rfl⟩ := h.consumed_row hstep he
  have hunused := (OneTimeCode.active_iff.mp hactive).1
  constructor
  · rw [List.countP_eq_zero]
    rintro ⟨c', e'⟩ hmem hconsumes
    obtain ⟨⟨id', userId'⟩, hcode, hcodeId⟩ := (Option.any_eq_true _ _).mp hconsumes
    obtain ⟨row', hrow', hid', hused⟩ := h.spent c' e' id' userId' hmem hcode
    have heq : row' = row :=
      h.valid.eq_of_id hrow' hrow (hid'.trans ((beq_iff_eq.mp hcodeId).trans hid.symm))
    rw [heq, hunused] at hused
    cases hused
  · have hcond : (OneTimeCode.markUsed id now.timePointTz M).cond row = true := by
      simp [OneTimeCode.markUsed, hid, hactive]
    refine ⟨_, Sql.Update.apply_mem_run hrow, ?_⟩
    rw [Sql.Update.apply_pos hcond]
    exact ⟨hid, rfl⟩

/-- Every step keeps the invariant. -/
theorem CodeInv.step (h : CodeInv kind M db tr) (hM : kind.limit r.policies = M)
    (hstep : ProtocolStep app r (own c tr) e db db') :
    CodeInv kind M db' (tr ++ [(c, e)]) := by
  have hcodes := codes_step hstep hM
  have hlater : ∀ row ∈ kind.rows db, ∃ row' ∈ kind.rows db', row.Evolves row' :=
    fun row hrow => hcodes.evolves hrow
  constructor
  · exact hcodes.valid h.valid
  · intro c' row hmem
    rcases List.mem_append.mp hmem with hmem | hmem
    · obtain ⟨row₁, hrow₁, hevolves₁⟩ := h.found c' row hmem
      obtain ⟨row₂, hrow₂, hevolves₂⟩ := hlater row₁ hrow₁
      exact ⟨row₂, hrow₂, hevolves₁.trans hevolves₂⟩
    · cases List.mem_singleton.mp hmem
      obtain ⟨hread, rfl⟩ := found_reads hstep
      exact ⟨row, reads_foundCode hread, .refl row⟩
  · intro c' e' id userId hmem he
    rcases List.mem_append.mp hmem with hmem | hmem
    · obtain ⟨row, hrow, hid, hused⟩ := h.spent c' e' id userId hmem he
      obtain ⟨row', hrow', hevolves⟩ := hlater row hrow
      exact ⟨row', hrow', hevolves.id.trans hid, hevolves.used hused⟩
    · cases List.mem_singleton.mp hmem
      exact (h.consumed_fresh hcodes he).2
  · intro id
    rw [List.countP_append, List.countP_singleton]
    split
    · rename_i hconsumes
      obtain ⟨⟨id', userId⟩, hcode, hcodeId⟩ := (Option.any_eq_true _ _).mp hconsumes
      cases beq_iff_eq.mp hcodeId
      rw [(h.consumed_fresh hcodes hcode).1]
    · exact h.once id

end

/-! ### Whole runs -/

/-- The runs with a fixed limit of failures. -/
abbrev fixedLimit (kind : CodeKind) (M : Nat) : SysAdmission :=
  admission (fun r => kind.limit r.policies = M) fun _ _ _ => True

/-- The rows and the history fit together in every state that is reached. -/
theorem codeInv_of_reachable {app : App} {kind : CodeKind} {M : Nat}
    {act : SysState → Nat → Event → Prop} {s : SysState}
    (hs : Reachable app.run (admission (fun r => kind.limit r.policies = M) act) Seed s) :
    CodeInv kind M s.store s.trace :=
  Reachable.invariant (A := admission _ act) (J := CodeInv kind M) (app_refines app)
    (fun _ => CodeInv.init) (fun _ _ _ _ _ h hM _ hstep => h.step hM hstep) hs

/-- A call that has succeeded has consumed a code. -/
theorem consumed_of_succeeded {app : App} {A : SysAdmission} {kind : CodeKind} {s : SysState}
    {c : Nat} (hs : Reachable app.run A Seed s) (h : kind.succeeded s c = true) :
    ∃ e id userId, (c, e) ∈ s.trace ∧ kind.consumed e = some (id, userId) := by
  have hmem : ∀ e, e ∈ own c s.trace → (c, e) ∈ s.trace := fun e => mem_own.mp
  cases kind with
  | emailVerification =>
    simp only [CodeKind.succeeded] at h
    split at h
    · rename_i hcall
      have hfin := (hs.finish (app_refines app) hcall).1
      change Finishes app _ (own c s.trace) _ at hfin
      generalize own c s.trace = evs at hfin hmem
      cases hfin with
      | @emailVerified _ _ _ _ user row =>
        exact ⟨.committed (.emailVerified row.id user.id), _, _, hmem _ (by simp), rfl⟩
      | other hopen => cases hopen
    · cases h
  | passwordReset =>
    simp only [CodeKind.succeeded] at h
    split at h
    · rename_i hcall
      have hfin := (hs.finish (app_refines app) hcall).1
      change Finishes app _ (own c s.trace) _ at hfin
      generalize own c s.trace = evs at hfin hmem
      cases hfin with
      | @resetConfirmed _ _ _ _ user row hash =>
        exact ⟨.committed (.resetConfirmed row.id user.id hash), _, _, hmem _ (by simp), rfl⟩
      | other hopen => cases hopen
    · cases h

/-- What a code is good for happens only when a code of the account is consumed. -/
theorem consumed_of_grants {app : App} {kind : CodeKind} {r : Request} {evs : List Event}
    {e : Event} {db db' : Db} (hstep : ProtocolStep app r evs e db db')
    (hnodup : (db.users.map (·.id)).Nodup) {u u' : User} (hu : u ∈ db.users)
    (hu' : u' ∈ db'.users) (heq : u'.id = u.id)
    (hgrants : kind.grants r.command u u' = true) :
    ∃ id, kind.consumed e = some (id, u.id) := by
  have hne : u' ≠ u := by
    rintro rfl
    unfold CodeKind.grants at hgrants
    split at hgrants <;> simp at hgrants
  cases hstep with
  | aborted _ => exact absurd (List.inj_on_of_nodup_map hnodup hu' hu heq) hne
  | read _ => exact absurd (List.inj_on_of_nodup_map hnodup hu' hu heq) hne
  | committed hcommit =>
    rcases (users_commit hcommit).changed hnodup hu hu' heq hne with
      ⟨id, rfl, rfl⟩ | ⟨hash, now, hwrite, rfl⟩
    · cases kind with
      | emailVerification => exact ⟨id, rfl⟩
      | passwordReset =>
        -- the password has not changed
        unfold CodeKind.grants at hgrants
        split at hgrants <;> simp_all
    · cases kind with
      | emailVerification => simp [CodeKind.grants] at hgrants
      | passwordReset =>
        -- of the transactions of `ConfirmReset` only the last one writes a password
        cases hcommit with
        | @resetConfirmed _ _ _ _ user row _ _ _ _ _ _ =>
          have huser : user.id = u.id := congrArg Prod.fst (Option.some.inj hwrite)
          exact ⟨row.id, by rw [← huser]; rfl⟩
        | passwordChanged _ _ => cases hgrants
        | _ => cases hwrite

/-- The code with the id is the latest one of the user, it is unused and below the limit, and
it has not expired at the clock reading of the call. -/
def ConsumesLatest (kind : CodeKind) (M : Nat) (s : SysState) (c : Nat) (id userId : Uuid) :
    Prop :=
  ∃ row now, row.id = id ∧
    ((kind.rows s.store).filter fun r => r.userId == userId).getLast? = some row ∧
    row.usedAt = none ∧ clockOf s.trace c = some now ∧ now < row.expiresAt ∧ row.attempts < M

/-- What holds of the codes in a state. -/
structure OneTimeCodes (kind : CodeKind) (M : Nat) (s : SysState) : Prop where
  unused : ∀ userId, ((kind.rows s.store).filter fun r =>
    r.userId == userId && r.usedAt.isNone).length ≤ 1
  attempts : ∀ row ∈ kind.rows s.store, row.attempts ≤ M
  once : ∀ id, s.trace.countP (kind.consumes id) ≤ 1
  succeeded : ∀ c, kind.succeeded s c = true →
    ∃ e id userId, (c, e) ∈ s.trace ∧ kind.consumed e = some (id, userId)

/-- What holds of a step that emits the event `e` of the call `c`: a code that it consumes is
the latest one, and it does not grant anything without consuming a code of the account. -/
structure OneTimeStep (kind : CodeKind) (M : Nat) (s s' : SysState) (c : Nat) (e : Event) :
    Prop where
  latest : ∀ id userId, kind.consumed e = some (id, userId) →
    ConsumesLatest kind M s c id userId
  granted : ∀ call, s.calls c = some call → ∀ u ∈ s.store.users, ∀ u' ∈ s'.store.users,
    u'.id = u.id → kind.grants call.request.command u u' = true →
    ∃ id, kind.consumed e = some (id, u.id)

/-- In every run with a fixed limit, codes are used once and only the latest code of a user
is accepted. -/
theorem oneTimeCodes_accepted_once (app : App) (kind : CodeKind) (M : Nat) (s : SysState)
    (hs : Reachable app.run (fixedLimit kind M) Seed s) :
    OneTimeCodes kind M s ∧ ∀ s' c e, Step app.run (fixedLimit kind M) s s' →
      s'.trace = s.trace ++ [(c, e)] → OneTimeStep kind M s s' c e := by
  have hinv : CodeInv kind M s.store s.trace := codeInv_of_reachable hs
  constructor
  · exact
      { unused := hinv.valid.unused_le_one
        attempts := hinv.valid.attempts
        once := hinv.once
        succeeded := fun c hc => consumed_of_succeeded hs hc }
  · intro s' c e h htr
    obtain ⟨r, prog, prog', db, hcall, hM, _, hstep, rfl⟩ := h.of_event (app_refines app) hs htr
    constructor
    · intro id userId he
      obtain ⟨row, hrow, now, hid, huser, hclock, hactive, _⟩ :=
        hinv.consumed_row (codes_step hstep hM) he
      obtain ⟨hunused, hexpiry, hlimit⟩ := OneTimeCode.active_iff.mp hactive
      have hlast := hinv.valid.last_of_unused hrow hunused
      rw [huser] at hlast
      have hbelow : row.attempts < M := by
        have hle := toInt32_le M
        omega
      -- the expiry has whole microseconds, so the bound clock reading decides for the exact one
      have hunexpired := Time.lt_of_timePointTz_lt hexpiry (hinv.valid.expiry row hrow)
      exact ⟨row, now, hid, hlast, hunused, hclock, hunexpired, hbelow⟩
    · intro call hcall' u hu u' hu' heq hgrants
      cases hcall.symm.trans hcall'
      exact consumed_of_grants hstep (passwordInv_of_reachable hs).nodup hu hu' heq hgrants

/-- A request for a reset of the account. -/
def requestUnitReset : Request := ⟨hourSessions, .requestReset ⟨"unit@example.com"⟩ {}⟩

/-- A confirmation of a reset of the account. -/
def confirmUnitReset (token : Str) : Request :=
  ⟨hourSessions, .confirmReset ⟨"unit@example.com", token, "1st_password"⟩ {}⟩

/-- Two calls present the same token at the same time, and one of them succeeds. -/
theorem oneTimeCodes_accepted_once_twoCalls :
    ∃ s : SysState, Reachable plainApp.run (fixedLimit .passwordReset 5) Seed s ∧
      CodeKind.passwordReset.succeeded s 2 = true ∧ (raised s 3).isSome = true ∧
      OneTimeCodes .passwordReset 5 s := by
  obtain ⟨s, hs, hdone, hraised⟩ := exists_run plainApp (fixedLimit .passwordReset 5)
    (.start 1 requestUnitReset ::
      acts 1 [{}, {}, { newCodeId := ⟨1⟩, newJobId := ⟨2⟩, secret := "token" }] ++
      [.start 2 (confirmUnitReset "token"), .start 3 (confirmUnitReset "token")] ++
      acts 2 [{}, {}, {}, {}, {}, {}, {}] ++ acts 3 [{}, {}, {}, {}, {}, {}, {}] ++
      acts 2 [{}] ++ acts 3 [{}])
    (fun s => CodeKind.passwordReset.succeeded s 2 ∧ (raised s 3).isSome) (by decide +kernel)
  exact ⟨s, hs, hdone, hraised, (oneTimeCodes_accepted_once plainApp .passwordReset 5 s hs).1⟩

end SmirklyAuth
