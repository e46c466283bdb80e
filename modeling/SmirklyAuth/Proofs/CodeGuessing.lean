import SmirklyAuth.Proofs.OneTimeCodes

/-!
# `SmirklyAuth.Proofs.CodeGuessing`: how many guesses one code can take

`VerifyEmail` and `ConfirmReset` look up an active code, compare it, and count a failure in
a transaction of its own. The limit of failures is checked at the lookup only, so any number
of calls can compare a code that was looked up while it was below the limit.

A failure that is counted before a lookup is visible in the row that the lookup returns
(`GuessCountInv.seen`). So at most `M` wrong guesses are compared with a code if every wrong
guess was counted before the next call that compares the code looked it up
(`guessesCounted`): `codeGuesses_bounded`. In `codeGuesses_concurrent` two calls look up a
code with the limit one before either of them counts.
-/

set_option autoImplicit false

namespace SmirklyAuth

open Interleaving

namespace CodeKind

/-- The event is a comparison of the code with a wrong guess. -/
def guesses (kind : CodeKind) (id : Uuid) (p : Nat × Event) : Bool :=
  kind.compared p.2 == some (id, false)

/-- The event counts a failure of the code. -/
def rejects (kind : CodeKind) (id : Uuid) (p : Nat × Event) : Bool :=
  kind.rejected p.2 == some id

/-- The event is the lookup of the call. -/
def isLookup (kind : CodeKind) (c : Nat) (p : Nat × Event) : Bool :=
  p.1 == c && kind.looksUp p.2

/-- Every wrong guess of the code so far was counted before the call looked up its code. -/
def guessesCounted (kind : CodeKind) (tr : Trace) (c : Nat) (id : Uuid) : Bool :=
  tr.all fun p => !kind.guesses id p ||
    (before (kind.isLookup c) tr).any fun q => q.1 == p.1 && kind.rejects id q

end CodeKind

/-! ### The invariant -/

/-- `n` failures of the code are accounted for: the row has counted them, or the code is not
accepted any more. -/
def Accounted (M n : Nat) (row : OneTimeCode) : Prop :=
  n ≤ row.attempts ∨ row.usedAt.isSome = true ∨ toInt32 M ≤ row.attempts

/-- The invariant of the guesses:

- `rejected`: a failure is counted for a row of the table;
- `counted`: the failures that the trace has counted are accounted for;
- `seen`: so are, in a row that a call has found, the failures counted before its lookup;
- `single`: a call compares at most once;
- `bounded`: at most `M` wrong guesses were compared with a code. -/
structure GuessCountInv (kind : CodeKind) (M : Nat) (db : Db) (tr : Trace) : Prop where
  rejected : ∀ c e id, (c, e) ∈ tr → kind.rejected e = some id → ∃ r ∈ kind.rows db, r.id = id
  counted : ∀ row ∈ kind.rows db, Accounted M (tr.countP (kind.rejects row.id)) row
  seen : ∀ c row, (c, kind.found row) ∈ tr →
    Accounted M ((before (kind.isLookup c) tr).countP (kind.rejects row.id)) row
  single : ∀ id, ((tr.filter (kind.guesses id)).map Prod.fst).Nodup
  bounded : ∀ id, tr.countP (kind.guesses id) ≤ M

/-- What a row accounts for, its later versions do. -/
theorem Accounted.evolves {M n : Nat} {row row' : OneTimeCode} (h : Accounted M n row)
    (hevolves : row.Evolves row') : Accounted M n row' := by
  have hle := hevolves.attempts
  rcases h with h | h | h
  · exact .inl (by omega)
  · exact .inr (.inl (hevolves.used h))
  · exact .inr (.inr (by omega))

section
variable {app : App} {kind : CodeKind} {M : Nat} {r : Request} {db db' : Db} {tr : Trace}
  {c : Nat} {e : Event} {rows : List OneTimeCode}

/-- Before the first call there is no guess. -/
theorem GuessCountInv.init (h : Seed db) : GuessCountInv kind M db [] where
  rejected _ _ _ hmem := nomatch hmem
  counted := by
    intro row hrow
    rw [h.codes kind] at hrow
    cases hrow
  seen _ _ hmem := nomatch hmem
  single _ := List.nodup_nil
  bounded _ := Nat.zero_le M

/-- What a call has found, it has looked up. -/
theorem found_looksUp (kind : CodeKind) (row : OneTimeCode) :
    kind.looksUp (kind.found row) = true := by
  cases kind <;> rfl

/-- A step that compares a code is a read. -/
theorem compared_reads {id : Uuid} {ok : Bool}
    (hstep : ProtocolStep app r (own c tr) e db db')
    (he : kind.compared e = some (id, ok)) : Reads app r (own c tr) e db ∧ db' = db := by
  cases hstep with
  | aborted hab => cases kind <;> cases e <;> first | cases hab | cases he
  | read hread => exact ⟨hread, rfl⟩
  | committed _ => cases kind <;> cases he

/-- The number of counted failures of a code after one more event. -/
theorem countP_rejects_snoc (kind : CodeKind) (id : Uuid) (tr : Trace) (c : Nat) (e : Event) :
    (tr ++ [(c, e)]).countP (kind.rejects id) =
      tr.countP (kind.rejects id) + if kind.rejected e = some id then 1 else 0 := by
  rw [List.countP_append, List.countP_singleton]
  simp [CodeKind.rejects]

/-- A counted failure is a failure of a row. -/
theorem CodesStep.rejected_row (h : CodesStep kind M (own c tr) e (kind.rows db) rows)
    (hcode : CodeInv kind M db tr) {id : Uuid} (he : kind.rejected e = some id) :
    ∃ row ∈ kind.rows db, row.id = id := by
  cases h with
  | quiet hnone _ => rw [hnone] at he; cases he
  | issued hnone _ _ _ => rw [hnone] at he; cases he
  | @rejected _ _ row hsome _ hmem _ =>
    rw [hsome] at he
    cases he
    obtain ⟨row', hrow', hevolves⟩ := hcode.found c row (mem_own.mp hmem)
    exact ⟨row', hrow', hevolves.id⟩
  | consumed hnone _ _ _ _ _ => rw [hnone] at he; cases he

/-- A step that counts a failure counts it in the row, unless the row is used or at the
limit: the call has found the row unexpired at the same clock reading. -/
theorem CodesStep.accounted (h : CodesStep kind M (own c tr) e (kind.rows db) rows)
    (hcode : CodeInv kind M db tr) {row : OneTimeCode} (hrow : row ∈ kind.rows db) {n : Nat}
    (hn : Accounted M n row) (he : kind.rejected e = some row.id) :
    ∃ row' ∈ rows, row.Evolves row' ∧ Accounted M (n + 1) row' := by
  cases h with
  | quiet hnone _ => rw [hnone] at he; cases he
  | issued hnone _ _ _ => rw [hnone] at he; cases he
  | @rejected _ now found hsome _ hmem hfound =>
    have hevolves : ∀ r, OneTimeCode.Evolves r
        ((OneTimeCode.incrementAttempts found.id now.timePointTz M).apply r) :=
      .apply (OneTimeCode.incrementAttempts_evolves found.id now.timePointTz M)
    refine ⟨_, Sql.Update.apply_mem_run hrow, hevolves row, ?_⟩
    have hid : found.id = row.id := Option.some.inj (hsome.symm.trans he)
    cases hactive : row.active now.timePointTz M with
    | true =>
      have hcond : (OneTimeCode.incrementAttempts found.id now.timePointTz M).cond row = true := by
        simp [OneTimeCode.incrementAttempts, hid, hactive]
      obtain ⟨hunused, _, hlimit⟩ := OneTimeCode.active_iff.mp hactive
      rcases hn with hn | hn | hn
      · rw [Sql.Update.apply_pos hcond]
        exact .inl (Nat.succ_le_succ hn)
      · rw [hunused] at hn
        cases hn
      · omega
    | false =>
      -- the expiry is the one that the call has seen
      obtain ⟨row', hrow', hlater⟩ := hcode.found c found (mem_own.mp hmem)
      have heq : row' = row := hcode.valid.eq_of_id hrow' hrow (hlater.id.trans hid)
      have hexpiry : now.timePointTz < row.expiresAt := by
        rw [← heq, hlater.expiresAt]
        exact (OneTimeCode.active_iff.mp hfound.active).2.1
      have hclosed : row.usedAt.isSome = true ∨ toInt32 M ≤ row.attempts := by
        by_contra hopen
        rw [not_or, Bool.not_eq_true, Option.isSome_eq_false_iff, Option.isNone_iff_eq_none,
          Int.not_le] at hopen
        rw [OneTimeCode.active_iff.mpr ⟨hopen.1, hexpiry, hopen.2⟩] at hactive
        cases hactive
      exact Accounted.evolves (.inr hclosed) (hevolves row)
  | consumed hnone _ _ _ _ _ => rw [hnone] at he; cases he

end

section
variable {app : App} {kind : CodeKind} {M : Nat} {r : Request} {db db' : Db} {tr : Trace}
  {c : Nat} {e : Event}

/-- The failures that the trace has counted stay accounted for. -/
theorem GuessCountInv.counted_step (h : GuessCountInv kind M db tr) (hcode : CodeInv kind M db tr)
    (hcodes : CodesStep kind M (own c tr) e (kind.rows db) (kind.rows db')) :
    ∀ row ∈ kind.rows db', Accounted M ((tr ++ [(c, e)]).countP (kind.rejects row.id)) row := by
  intro row' hrow'
  rw [countP_rejects_snoc]
  rcases hcodes.origin hrow' with ⟨row, hrow, hevolves⟩ | ⟨hnone, hnew⟩
  · have hn := h.counted row hrow
    rw [hevolves.id]
    split
    · rename_i he
      obtain ⟨row'', hrow'', hevolves'', hn''⟩ := hcodes.accounted hcode hrow hn he
      have heq : row'' = row' := (hcodes.valid hcode.valid).eq_of_id hrow'' hrow'
        (hevolves''.id.trans hevolves.id.symm)
      rw [← heq]
      exact hn''
    · exact hn.evolves hevolves
  · -- nothing was counted for the id of a new code
    have hzero : tr.countP (kind.rejects row'.id) = 0 := by
      rw [List.countP_eq_zero]
      rintro ⟨c', e'⟩ hmem hrejects
      obtain ⟨row, hrow, hid⟩ := h.rejected c' e' _ hmem (beq_iff_eq.mp hrejects)
      exact hnew row hrow hid
    rw [hzero, hnone]
    exact .inl (Nat.zero_le _)

/-- So do those that a call has seen in the row it found. -/
theorem GuessCountInv.seen_step (h : GuessCountInv kind M db tr)
    (hstep : ProtocolStep app r (own c tr) e db db') {c' : Nat} {row : OneTimeCode}
    (hmem : (c', kind.found row) ∈ tr ++ [(c, e)]) :
    Accounted M ((before (kind.isLookup c') (tr ++ [(c, e)])).countP (kind.rejects row.id))
      row := by
  have hlookup : kind.isLookup c' (c', kind.found row) = true := by
    simp [CodeKind.isLookup, found_looksUp]
  rcases List.mem_append.mp hmem with hmem | hmem
  · rw [before_append_of_mem hmem hlookup]
    exact h.seen c' row hmem
  · cases List.mem_singleton.mp hmem
    -- the lookup is the step itself, and the first one of the call
    have hfirst : ∀ p ∈ tr, kind.isLookup c p = false := by
      rintro ⟨c'', e''⟩ hp
      by_contra hne
      obtain ⟨hcc, hlooks⟩ := Bool.and_eq_true_iff.mp (Bool.eq_true_of_not_eq_false hne)
      cases beq_iff_eq.mp hcc
      have hread := (found_reads hstep).1
      rw [reads_lookup_first hread (found_looksUp kind row) e'' (mem_own.mpr hp)] at hlooks
      cases hlooks
    rw [before_snoc hfirst hlookup]
    exact h.counted row (reads_foundCode (found_reads hstep).1)

/-- The calls that have guessed a code wrong have counted their failures, if they did so
before the lookup of a call that compares the code now. -/
theorem GuessCountInv.guesses_lt (h : GuessCountInv kind M db tr) {id : Uuid} {ok : Bool}
    (hread : Reads app r (own c tr) e db) (hM : kind.limit r.policies = M)
    (he : kind.compared e = some (id, ok)) (hcounted : kind.guessesCounted tr c id = true) :
    tr.countP (kind.guesses id) < M := by
  obtain ⟨⟨row, userId, now, rfl, hmem, hfound⟩, _⟩ := reads_compared hread hM he
  obtain ⟨hunused, _, hlimit⟩ := OneTimeCode.active_iff.mp hfound.active
  have hcalls : ((tr.filter (kind.guesses row.id)).map Prod.fst).length ≤
      (before (kind.isLookup c) tr).countP (kind.rejects row.id) := by
    refine length_le_countP (h.single row.id) fun c' hc' => ?_
    obtain ⟨p, hp, rfl⟩ := List.mem_map.mp hc'
    obtain ⟨hp, hguess⟩ := List.mem_filter.mp hp
    have hall := List.all_eq_true.mp hcounted p hp
    rw [hguess, Bool.not_true, Bool.false_or] at hall
    obtain ⟨⟨c'', e''⟩, hq, hrejects⟩ := List.any_eq_true.mp hall
    rw [Bool.and_eq_true, beq_iff_eq] at hrejects
    exact ⟨e'', hrejects.1 ▸ hq, hrejects.2⟩
  rw [List.length_map, ← List.countP_eq_length_filter] at hcalls
  have hle := toInt32_le M
  -- the row was unused and below the limit, so it has counted these failures
  rcases h.seen c row (mem_own.mp hmem) with hseen | hused | hfull
  · omega
  · rw [hunused] at hused
    cases hused
  · omega

/-- Every step keeps the invariant, if the guesses are counted in time. -/
theorem GuessCountInv.step (h : GuessCountInv kind M db tr) (hcode : CodeInv kind M db tr)
    (hM : kind.limit r.policies = M)
    (hcounted : ∀ id ok, kind.compared e = some (id, ok) → kind.guessesCounted tr c id = true)
    (hstep : ProtocolStep app r (own c tr) e db db') :
    GuessCountInv kind M db' (tr ++ [(c, e)]) := by
  have hcodes := codes_step hstep hM
  constructor
  · intro c' e' id hmem he
    have hold : ∃ row ∈ kind.rows db, row.id = id := by
      rcases List.mem_append.mp hmem with hmem | hmem
      · exact h.rejected c' e' id hmem he
      · cases List.mem_singleton.mp hmem
        exact hcodes.rejected_row hcode he
    obtain ⟨row, hrow, hid⟩ := hold
    obtain ⟨row', hrow', hevolves⟩ := hcodes.evolves hrow
    exact ⟨row', hrow', hevolves.id.trans hid⟩
  · exact h.counted_step hcode hcodes
  · intro c' row hmem
    exact h.seen_step hstep hmem
  · intro id
    rw [List.filter_append, List.map_append]
    cases hguess : kind.guesses id (c, e) with
    | false => simpa [hguess] using h.single id
    | true =>
      obtain ⟨hread, rfl⟩ := compared_reads hstep (beq_iff_eq.mp hguess)
      have hnone := (reads_compared hread hM (beq_iff_eq.mp hguess)).2
      refine (h.single id).append (by simp [hguess]) ?_
      -- the call has not compared before
      intro c' hc' hx
      simp only [hguess, List.filter_cons_of_pos, List.filter_nil, List.map_singleton,
        List.mem_singleton] at hx
      obtain ⟨⟨c'', e''⟩, hp, rfl⟩ := List.mem_map.mp hc'
      obtain ⟨hp, hguess'⟩ := List.mem_filter.mp hp
      simp only at hx
      subst hx
      have he'' := hnone e'' (mem_own.mpr hp)
      simp [CodeKind.guesses, he''] at hguess'
  · intro id
    rw [List.countP_append, List.countP_singleton]
    split
    · rename_i hguess
      have he := beq_iff_eq.mp hguess
      obtain ⟨hread, rfl⟩ := compared_reads hstep he
      have hlt := h.guesses_lt hread hM he (hcounted id false he)
      omega
    · exact h.bounded id

end

/-! ### Whole runs -/

/-- A call compares a code only if the wrong guesses so far have been counted in time. -/
def CodeKind.comparesCounted (kind : CodeKind) (tr : Trace) (c : Nat) (e : Event) : Bool :=
  match kind.compared e with
  | some (id, _) => kind.guessesCounted tr c id
  | none => true

/-- The runs with a fixed limit in which every wrong guess of a code is counted before the
next call that compares the code looks it up. -/
abbrev countedGuesses (kind : CodeKind) (M : Nat) : SysAdmission :=
  admission (fun r => kind.limit r.policies = M) fun s c e =>
    kind.comparesCounted s.trace c e = true

/-- At most `M` wrong guesses were compared with one code. -/
def CodeGuessesBounded (kind : CodeKind) (M : Nat) (s : SysState) : Prop :=
  ∀ id, s.trace.countP (kind.guesses id) ≤ M

/-- In these runs the bound holds. -/
theorem codeGuesses_bounded (app : App) (kind : CodeKind) (M : Nat) (s : SysState)
    (hs : Reachable app.run (countedGuesses kind M) Seed s) : CodeGuessesBounded kind M s := by
  have hinv : CodeInv kind M s.store s.trace ∧ GuessCountInv kind M s.store s.trace := by
    refine Reachable.invariant (A := countedGuesses kind M)
      (J := fun db tr => CodeInv kind M db tr ∧ GuessCountInv kind M db tr) (app_refines app)
      (fun _ hseed => ⟨.init hseed, .init hseed⟩) ?_ hs
    intro s db c r e h hM hact hstep
    refine ⟨h.1.step hM hstep, h.2.step h.1 hM (fun id ok he => ?_) hstep⟩
    have hcounted := hact.2
    simp only [CodeKind.comparesCounted, he] at hcounted
    exact hcounted
  exact hinv.2.bounded

/-- An account without a verified email address. -/
def unverifiedDb : Db := { users := [{ unitUser with isEmailVerified := false }] }

/-- One failure per code, and no other limits. -/
def oneFailure : AuthRuntimePolicies where
  emailVerification := { maxCodeAttempts := 1, maxAttemptsPerEmail := 0
                         maxAttemptsPerUser := 0, maxAttemptsPerIp := 0 }
  passwordReset := { maxTokenAttempts := 1, maxAttemptsPerEmail := 0
                     maxAttemptsPerUser := 0, maxAttemptsPerIp := 0 }

/-- The request that issues a code for the account. -/
def issueUnitCode : CodeKind → Request
  | .emailVerification => ⟨oneFailure, .resendEmailVerification ⟨"unit@example.com"⟩ {}⟩
  | .passwordReset => ⟨oneFailure, .requestReset ⟨"unit@example.com"⟩ {}⟩

/-- The request that presents a code. -/
def presentUnitCode : CodeKind → Str → Request
  | .emailVerification, code => ⟨oneFailure, .verifyEmail ⟨"unit@example.com", code⟩ {}⟩
  | .passwordReset, code =>
      ⟨oneFailure, .confirmReset ⟨"unit@example.com", code, "1st_password"⟩ {}⟩

/-- A code is issued, and two calls are started to guess it. -/
def issueAndGuess (kind : CodeKind) : List (Move Input Request) :=
  .start 1 (issueUnitCode kind) :: acts 1 [{}, {}, { newCodeId := ⟨1⟩, secret := "code" }] ++
    [.start 2 (presentUnitCode kind "1st"), .start 3 (presentUnitCode kind "2nd")]

/-- Two calls find the code before one of them has counted its failure, and both compare. -/
theorem codeGuesses_exceed_limit (kind : CodeKind) :
    ∃ s : SysState, Reachable plainApp.run (fixedLimit kind 1) Seed s ∧
      ¬ CodeGuessesBounded kind 1 s := by
  obtain ⟨s, hs, hcount⟩ := exists_reachable_of_replay (M := plainApp.run) (A := fixedLimit kind 1)
    (I := Seed) (d := unverifiedDb)
    (issueAndGuess kind ++ acts 2 [{}, {}, {}, {}] ++ acts 3 [{}, {}, {}, {}] ++ acts 2 [{}] ++
      acts 3 [{}])
    (fun s => s.trace.countP (kind.guesses ⟨1⟩) = 2) (by decide)
    (by cases kind <;> decide +kernel)
  refine ⟨s, hs, fun hbounded => ?_⟩
  have hle := hbounded ⟨1⟩
  omega

/-- Two calls look up the code before either of them has counted its failure, so two guesses
are compared although the limit is one, in both tables. -/
theorem codeGuesses_concurrent :
    (∃ s : SysState, Reachable plainApp.run (fixedLimit .emailVerification 1) Seed s ∧
      ¬ CodeGuessesBounded .emailVerification 1 s) ∧
    ∃ s : SysState, Reachable plainApp.run (fixedLimit .passwordReset 1) Seed s ∧
      ¬ CodeGuessesBounded .passwordReset 1 s :=
  ⟨codeGuesses_exceed_limit .emailVerification, codeGuesses_exceed_limit .passwordReset⟩

/-- The first call counts its failure, and the second one finds no active code any more. -/
theorem codeGuesses_bounded_counted :
    ∃ s : SysState, Reachable plainApp.run (countedGuesses .passwordReset 1) Seed s ∧
      s.trace.countP (CodeKind.passwordReset.guesses ⟨1⟩) = 1 ∧ (raised s 3).isSome = true ∧
      CodeGuessesBounded .passwordReset 1 s := by
  obtain ⟨s, hs, hcount, hraised⟩ := exists_reachable_of_replay (M := plainApp.run)
    (A := countedGuesses .passwordReset 1) (I := Seed) (d := unverifiedDb)
    (issueAndGuess .passwordReset ++ acts 2 [{}, {}, {}, {}, {}, {}] ++ acts 3 [{}, {}, {}, {}])
    (fun s => s.trace.countP (CodeKind.passwordReset.guesses ⟨1⟩) = 1 ∧ (raised s 3).isSome)
    (by decide) (by decide +kernel)
  exact ⟨s, hs, hcount, hraised, codeGuesses_bounded plainApp .passwordReset 1 s hs⟩

end SmirklyAuth
