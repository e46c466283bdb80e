import SmirklyAuth.Protocol.Frame

/-!
# `SmirklyAuth.Protocol.CodeTables`: the two tables of one-time codes

`CodeKind` names the tables `email_verifications` and `password_resets`. For each of them
it also names the events that find, compare, reject and consume a code, so that one proof
covers both tables.

`codes_step` says what a step of a call does to the rows. `CodesValid` is the invariant of
the rows: the ids are unique, of the codes of a user only the one inserted last can be
unused, and no code has more failures than the limit. Every step keeps it
(`CodesStep.valid`).
-/

set_option autoImplicit false

namespace SmirklyAuth

open Sql (Update)

/-- The tables of one-time codes. -/
inductive CodeKind where
  | emailVerification | passwordReset
  deriving DecidableEq, Repr

namespace CodeKind

/-- The table of a kind of code. -/
def rows : CodeKind → Db → List OneTimeCode
  | .emailVerification, db => db.emailVerifications
  | .passwordReset, db => db.passwordResets

/-- The limit of failures of one code. -/
def limit : CodeKind → AuthRuntimePolicies → Nat
  | .emailVerification, p => p.emailVerification.maxCodeAttempts
  | .passwordReset, p => p.passwordReset.maxTokenAttempts

/-- The event of a call that found a code. -/
def found : CodeKind → OneTimeCode → Event
  | .emailVerification, row => .foundVerification (some row)
  | .passwordReset, row => .foundReset (some row)

/-- The code that a call compared with the text it was given, and the answer. -/
def compared : CodeKind → Event → Option (Uuid × Bool)
  | .emailVerification, .verifiedCode id ok => some (id, ok)
  | .passwordReset, .verifiedResetToken id ok => some (id, ok)
  | _, _ => none

/-- The code whose failures a transaction counts up. -/
def rejected : CodeKind → Event → Option Uuid
  | .emailVerification, .committed (.codeRejected id) => some id
  | .passwordReset, .committed (.tokenRejected id) => some id
  | _, _ => none

/-- The code that a transaction consumes, and the account for which it does so. -/
def consumed : CodeKind → Event → Option (Uuid × Uuid)
  | .emailVerification, .committed (.emailVerified id userId) => some (id, userId)
  | .passwordReset, .committed (.resetConfirmed id userId _) => some (id, userId)
  | _, _ => none

end CodeKind

/-- A run starts without codes. -/
theorem Seed.codes {db : Db} (h : Seed db) (kind : CodeKind) : kind.rows db = [] := by
  cases kind with
  | emailVerification => exact h.emailVerifications
  | passwordReset => exact h.passwordResets

/-! ### The steps of a table -/

/-- What a step of a call with the history `evs` does to a table:

- `quiet`: nothing;
- `issued`: it appends a code, after it has used up the codes of the user (`SignUp` does not
  do this, since its user is new);
- `rejected`: it counts a failure of a code that the call found at the clock reading `now`;
- `consumed`: it uses a code that the call found at the clock reading `now`. -/
inductive CodesStep (kind : CodeKind) (M : Nat) (evs : List Event) (e : Event)
    (rows : List OneTimeCode) : List OneTimeCode → Prop where
  | quiet (hrejected : kind.rejected e = none) (hconsumed : kind.consumed e = none) :
      CodesStep kind M evs e rows rows
  | issued {base row} (hrejected : kind.rejected e = none) (hconsumed : kind.consumed e = none)
      (hbase : base = rows ∨
        ∃ now, base = (OneTimeCode.markActiveUsedByUserId row.userId now).run rows)
      (hjoins : row.Joins base) : CodesStep kind M evs e rows (base ++ [row])
  | rejected {userId now row} (hrejected : kind.rejected e = some row.id)
      (hconsumed : kind.consumed e = none) (hmem : kind.found row ∈ evs)
      (hfound : CodeFound userId now M row) :
      CodesStep kind M evs e rows
        ((OneTimeCode.incrementAttempts row.id now.timePointTz M).run rows)
  | consumed {userId now row} (hrejected : kind.rejected e = none)
      (hconsumed : kind.consumed e = some (row.id, userId))
      (hclock : evs.head? = some (.clock now)) (hmem : kind.found row ∈ evs)
      (hfound : CodeFound userId now M row)
      (hhits : (OneTimeCode.markUsed row.id now.timePointTz M).hits rows = true) :
      CodesStep kind M evs e rows ((OneTimeCode.markUsed row.id now.timePointTz M).run rows)

section
variable {app : App} {r : Request} {evs : List Event} {e : Event} {db db' : Db} {M : Nat}

/-- Every transaction is a step of `email_verifications`. -/
theorem verifications_commit {t : TxEvent} (h : Commits app r evs t db db')
    (hM : CodeKind.emailVerification.limit r.policies = M) :
    CodesStep .emailVerification M evs (.committed t) db.emailVerifications
      db'.emailVerifications := by
  subst hM
  have hframe := commits_frame h
  cases h with
  | signedUp _ _ htx =>
    obtain ⟨_, _, ⟨_, rfl⟩ | ⟨_, _, hissue⟩⟩ := signUpTx_eq_ok htx
    · exact .quiet rfl rfl
    · obtain ⟨row, _, hjoins, _, _, _, rfl⟩ := issueCodeTx_eq_ok hissue
      exact .issued rfl rfl (.inl rfl) hjoins
  | @verificationResent _ _ _ now _ _ _ _ htx =>
    obtain ⟨_, rfl | ⟨_, _, _, _, hissue⟩⟩ := resendTx_eq_ok htx
    · exact .quiet rfl rfl
    · obtain ⟨row, _, hjoins, ⟨huser, _⟩, _, _, rfl⟩ := issueCodeTx_eq_ok hissue
      exact .issued rfl rfl (.inr ⟨now.timePointTz, by rw [huser]; rfl⟩) hjoins
  | codeRejected hfound htx =>
    cases htx
    exact .rejected rfl rfl (by simp [CodeKind.found]) hfound
  | emailVerified hfound htx =>
    obtain ⟨hhits, rfl⟩ := verifyEmailTx_eq_ok htx
    exact .consumed rfl rfl rfl (by simp [CodeKind.found]) hfound hhits
  | _ =>
    rw [hframe.verifications rfl]
    exact .quiet rfl rfl

/-- Every transaction is a step of `password_resets`. -/
theorem resets_commit {t : TxEvent} (h : Commits app r evs t db db')
    (hM : CodeKind.passwordReset.limit r.policies = M) :
    CodesStep .passwordReset M evs (.committed t) db.passwordResets db'.passwordResets := by
  subst hM
  have hframe := commits_frame h
  cases h with
  | @resetRequested _ _ _ now _ _ _ _ htx =>
    obtain ⟨_, rfl | ⟨_, _, _, _, hissue⟩⟩ := requestResetTx_eq_ok htx
    · exact .quiet rfl rfl
    · obtain ⟨row, _, hjoins, ⟨huser, _⟩, _, _, rfl⟩ := issueResetTx_eq_ok hissue
      exact .issued rfl rfl (.inr ⟨now.timePointTz, by rw [huser]; rfl⟩) hjoins
  | tokenRejected hfound htx =>
    cases htx
    exact .rejected rfl rfl (by simp [CodeKind.found]) hfound
  | resetConfirmed hfound htx =>
    obtain ⟨hhits, rfl⟩ := confirmResetTx_eq_ok htx
    exact .consumed rfl rfl rfl (by simp [CodeKind.found]) hfound hhits
  | _ =>
    rw [hframe.resets rfl]
    exact .quiet rfl rfl

/-- Every step of a call is a step of the table. -/
theorem codes_step {kind : CodeKind} (h : ProtocolStep app r evs e db db')
    (hM : kind.limit r.policies = M) : CodesStep kind M evs e (kind.rows db) (kind.rows db') := by
  cases h with
  | aborted hab =>
    -- only `failed` and `rolledBack` abort
    have hquiet : kind.rejected e = none ∧ kind.consumed e = none := by
      cases e <;> cases kind <;> first | exact ⟨rfl, rfl⟩ | cases hab
    exact .quiet hquiet.1 hquiet.2
  | read hread =>
    have hquiet : kind.rejected e = none ∧ kind.consumed e = none := by
      cases hread <;> cases kind <;> exact ⟨rfl, rfl⟩
    exact .quiet hquiet.1 hquiet.2
  | committed hcommit =>
    cases kind with
    | emailVerification => exact verifications_commit hcommit hM
    | passwordReset => exact resets_commit hcommit hM

/-- A code that a call found is a row of the table. -/
theorem reads_foundCode {kind : CodeKind} {row : OneTimeCode}
    (h : Reads app r evs (kind.found row) db) : row ∈ kind.rows db := by
  cases kind with
  | emailVerification =>
    generalize he : CodeKind.emailVerification.found row = e at h
    cases h with
    | verifyFind =>
      exact (OneTimeCode.findActiveByUserId_eq_some (Event.foundVerification.inj he).symm).1
    | _ => cases he
  | passwordReset =>
    generalize he : CodeKind.passwordReset.found row = e at h
    cases h with
    | confirmFind =>
      exact (OneTimeCode.findActiveByUserId_eq_some (Event.foundReset.inj he).symm).1
    | _ => cases he

end

/-! ### The life of a row -/

/-- `r'` is `r` some statements later: a used code stays used, and no failure is
forgotten. -/
structure OneTimeCode.Evolves (r r' : OneTimeCode) : Prop where
  id : r'.id = r.id
  userId : r'.userId = r.userId
  expiresAt : r'.expiresAt = r.expiresAt
  used : r.usedAt.isSome = true → r'.usedAt.isSome = true
  attempts : r.attempts ≤ r'.attempts

namespace OneTimeCode

/-- A row that no statement touched. -/
theorem Evolves.refl (r : OneTimeCode) : r.Evolves r :=
  ⟨rfl, rfl, rfl, fun h => h, Nat.le_refl _⟩

/-- One statement after the other. -/
theorem Evolves.trans {r r' r'' : OneTimeCode} (h : r.Evolves r') (h' : r'.Evolves r'') :
    r.Evolves r'' where
  id := h'.id.trans h.id
  userId := h'.userId.trans h.userId
  expiresAt := h'.expiresAt.trans h.expiresAt
  used hused := h'.used (h.used hused)
  attempts := Nat.le_trans h.attempts h'.attempts

/-- A row evolves under an update if every row does that meets its condition. -/
theorem Evolves.apply {u : Update OneTimeCode} (h : ∀ r, Evolves r (u.set r)) (r : OneTimeCode) :
    r.Evolves (u.apply r) := by
  unfold Update.apply
  split
  · exact h r
  · exact Evolves.refl r

/-- Redeeming a code only sets its time of use. -/
theorem markUsed_evolves (id : Uuid) (now : Time) (M : Nat) (r : OneTimeCode) :
    r.Evolves ((markUsed id now M).set r) :=
  ⟨rfl, rfl, rfl, fun _ => rfl, Nat.le_refl _⟩

/-- Superseding codes only sets their time of use. -/
theorem markActiveUsed_evolves (userId : Uuid) (now : Time) (r : OneTimeCode) :
    r.Evolves ((markActiveUsedByUserId userId now).set r) :=
  ⟨rfl, rfl, rfl, fun _ => rfl, Nat.le_refl _⟩

/-- A wrong guess only counts one attempt. -/
theorem incrementAttempts_evolves (id : Uuid) (now : Time) (M : Nat) (r : OneTimeCode) :
    r.Evolves ((incrementAttempts id now M).set r) :=
  ⟨rfl, rfl, rfl, fun h => h, Nat.le_succ _⟩

/-- What it means that a code is active. -/
theorem active_iff {now : Time} {M : Nat} {r : OneTimeCode} :
    r.active now M = true ↔
      r.usedAt = none ∧ now < r.expiresAt ∧ (r.attempts : Int) < toInt32 M := by
  simp [active, and_assoc]

end OneTimeCode

/-- The cast to a 32-bit integer never makes a limit larger. -/
theorem toInt32_le (n : Nat) : toInt32 n ≤ n := toInt_ofNat_le 32 n

section
variable {kind : CodeKind} {M : Nat} {evs : List Event} {e : Event}
  {rows rows' : List OneTimeCode}

/-- Every row of the table lives on. -/
theorem CodesStep.evolves (h : CodesStep kind M evs e rows rows') {r : OneTimeCode}
    (hr : r ∈ rows) : ∃ r' ∈ rows', r.Evolves r' := by
  cases h with
  | quiet _ _ => exact ⟨r, hr, .refl r⟩
  | issued _ _ hbase _ =>
    rcases hbase with rfl | ⟨now, rfl⟩
    · exact ⟨r, List.mem_append_left _ hr, .refl r⟩
    · exact ⟨_, List.mem_append_left _ (Update.apply_mem_run hr),
        .apply (OneTimeCode.markActiveUsed_evolves _ now) r⟩
  | rejected _ _ _ _ =>
    exact ⟨_, Update.apply_mem_run hr, .apply (OneTimeCode.incrementAttempts_evolves _ _ M) r⟩
  | consumed _ _ _ _ _ _ =>
    exact ⟨_, Update.apply_mem_run hr, .apply (OneTimeCode.markUsed_evolves _ _ M) r⟩

/-- The invariant of a table of codes:

- `ids`: the ids are unique;
- `latest`: a code with a later code of the same user is used;
- `attempts`: no code has more than `M` failures;
- `expiry`: every expiry is a bound time point. -/
structure CodesValid (M : Nat) (rows : List OneTimeCode) : Prop where
  ids : (rows.map (·.id)).Nodup
  latest : rows.Pairwise fun a b => a.userId = b.userId → a.usedAt.isSome = true
  attempts : ∀ r ∈ rows, r.attempts ≤ M
  expiry : ∀ r ∈ rows, r.expiresAt.timePointTz = r.expiresAt

namespace CodesValid

/-- An empty table. -/
theorem nil (M : Nat) : CodesValid M [] :=
  ⟨List.nodup_nil, List.Pairwise.nil, fun _ h => (nomatch h), fun _ h => (nomatch h)⟩

/-- Two rows with one id are the same row. -/
theorem eq_of_id (h : CodesValid M rows) {a b : OneTimeCode} (ha : a ∈ rows) (hb : b ∈ rows)
    (hid : a.id = b.id) : a = b :=
  List.inj_on_of_nodup_map h.ids ha hb hid

/-- An update that lets rows evolve within the limit keeps the invariant. -/
theorem run (h : CodesValid M rows) {u : Update OneTimeCode}
    (hset : ∀ r, OneTimeCode.Evolves r (u.set r))
    (hlimit : ∀ r, u.cond r = true → r.attempts ≤ M → (u.set r).attempts ≤ M) :
    CodesValid M (u.run rows) where
  ids := by
    rw [Update.Keeps.map_run (fun r => (hset r).id) rows]
    exact h.ids
  latest := by
    rw [Update.run, List.pairwise_map]
    refine h.latest.imp fun {a b} hab heq => ?_
    have ha := OneTimeCode.Evolves.apply hset a
    have hb := OneTimeCode.Evolves.apply hset b
    rw [ha.userId, hb.userId] at heq
    exact ha.used (hab heq)
  attempts := by
    intro r hr
    obtain ⟨r₀, hr₀, rfl⟩ := Update.mem_run.mp hr
    have hle := h.attempts r₀ hr₀
    unfold Update.apply
    split
    · rename_i hcond
      exact hlimit r₀ hcond hle
    · exact hle
  expiry := by
    intro r hr
    obtain ⟨r₀, hr₀, rfl⟩ := Update.mem_run.mp hr
    rw [(OneTimeCode.Evolves.apply hset r₀).expiresAt]
    exact h.expiry r₀ hr₀

/-- A code that may join the table keeps the invariant. -/
theorem append (h : CodesValid M rows) {row : OneTimeCode} (hjoins : row.Joins rows) :
    CodesValid M (rows ++ [row]) where
  ids := Sql.nodup_keys_snoc h.ids hjoins.id
  latest := by
    rw [List.pairwise_append]
    refine ⟨h.latest, List.pairwise_singleton _ _, fun r hr b hb => ?_⟩
    rw [List.mem_singleton.mp hb]
    exact hjoins.used r hr
  attempts := by
    intro r hr
    rcases List.mem_append.mp hr with hr | hr
    · exact h.attempts r hr
    · rw [List.mem_singleton.mp hr, hjoins.attempts]
      exact Nat.zero_le M
  expiry := by
    intro r hr
    rcases List.mem_append.mp hr with hr | hr
    · exact h.expiry r hr
    · rw [List.mem_singleton.mp hr]
      exact hjoins.expiry

end CodesValid

/-- Every step keeps the invariant. -/
theorem CodesStep.valid (h : CodesStep kind M evs e rows rows') (hvalid : CodesValid M rows) :
    CodesValid M rows' := by
  cases h with
  | quiet _ _ => exact hvalid
  | issued _ _ hbase hjoins =>
    rcases hbase with rfl | ⟨now, rfl⟩
    · exact hvalid.append hjoins
    · exact (hvalid.run (OneTimeCode.markActiveUsed_evolves _ now) fun _ _ hle => hle).append
        hjoins
  | @rejected _ now row _ _ _ _ =>
    refine hvalid.run (OneTimeCode.incrementAttempts_evolves _ _ M) fun r hcond _ => ?_
    -- a failure is counted only below the limit
    obtain ⟨_, hactive⟩ := Bool.and_eq_true_iff.mp hcond
    have hlt := (OneTimeCode.active_iff.mp hactive).2.2
    have hle := toInt32_le M
    show r.attempts + 1 ≤ M
    omega
  | consumed _ _ _ _ _ _ =>
    exact hvalid.run (OneTimeCode.markUsed_evolves _ _ M) fun _ _ hle => hle

/-- A user has at most one unused code. -/
theorem CodesValid.unused_le_one (h : CodesValid M rows) (userId : Uuid) :
    (rows.filter fun r => r.userId == userId && r.usedAt.isNone).length ≤ 1 := by
  have hlatest := h.latest
  clear h
  induction rows with
  | nil => exact Nat.zero_le 1
  | cons r rows ih =>
    obtain ⟨hhead, htail⟩ := List.pairwise_cons.mp hlatest
    rw [List.filter_cons]
    split
    · rename_i hr
      simp only [Bool.and_eq_true, beq_iff_eq, Option.isNone_iff_eq_none] at hr
      -- the later codes of the user would make this one used
      have hnone : rows.filter (fun r => r.userId == userId && r.usedAt.isNone) = [] := by
        rw [List.filter_eq_nil_iff]
        intro b hb hcond
        simp only [Bool.and_eq_true, beq_iff_eq] at hcond
        have hused := hhead b hb (hr.1.trans hcond.1.symm)
        rw [hr.2] at hused
        cases hused
      rw [hnone]
      exact Nat.le_refl 1
    · exact ih htail

/-- An unused code is the last one of its user. -/
theorem CodesValid.last_of_unused (h : CodesValid M rows) {r : OneTimeCode} (hr : r ∈ rows)
    (hunused : r.usedAt = none) :
    (rows.filter fun r' => r'.userId == r.userId).getLast? = some r := by
  obtain ⟨before, after, rfl⟩ := List.append_of_mem hr
  have hlater := (List.pairwise_append.mp h.latest).2.1
  have hafter : after.filter (fun r' => r'.userId == r.userId) = [] := by
    rw [List.filter_eq_nil_iff]
    intro b hb hcond
    have hused := (List.pairwise_cons.mp hlater).1 b hb (beq_iff_eq.mp hcond).symm
    rw [hunused] at hused
    cases hused
  rw [List.filter_append, List.filter_cons_of_pos (by simp), hafter, List.getLast?_append]
  rfl

end

/-! ### Lookups and comparisons -/

/-- The event is a lookup of a code. -/
def CodeKind.looksUp : CodeKind → Event → Bool
  | .emailVerification, .foundVerification _ => true
  | .passwordReset, .foundReset _ => true
  | _, _ => false

section
variable {app : App} {r : Request} {evs : List Event} {e : Event} {db db' : Db} {M : Nat}
  {kind : CodeKind}

/-- A call looks up a code once. -/
theorem reads_lookup_first (h : Reads app r evs e db) (hlooks : kind.looksUp e = true) :
    ∀ e' ∈ evs, kind.looksUp e' = false := by
  cases h with
  | confirmFind =>
    cases kind <;> simp [CodeKind.looksUp, confirmResetEvents] at hlooks ⊢
  | verifyFind =>
    cases kind <;> simp [CodeKind.looksUp, verifyEmailEvents] at hlooks ⊢
  | _ => cases kind <;> cases hlooks

/-- A call compares once, and only a code that it has found and that was active then. -/
theorem reads_compared {id : Uuid} {ok : Bool} (h : Reads app r evs e db)
    (hM : kind.limit r.policies = M) (hcompared : kind.compared e = some (id, ok)) :
    (∃ row userId now, row.id = id ∧ kind.found row ∈ evs ∧ CodeFound userId now M row) ∧
      ∀ e' ∈ evs, kind.compared e' = none := by
  subst hM
  cases h with
  | @confirmVerify _ _ _ now user row _ hfound =>
    cases kind with
    | emailVerification => cases hcompared
    | passwordReset =>
      cases hcompared
      refine ⟨⟨row, user.id, now, rfl, by simp [CodeKind.found], hfound⟩, ?_⟩
      simp [CodeKind.compared, confirmResetEvents]
  | @verifyVerify _ _ _ now user row _ hfound =>
    cases kind with
    | emailVerification =>
      cases hcompared
      refine ⟨⟨row, user.id, now, rfl, by simp [CodeKind.found], hfound⟩, ?_⟩
      simp [CodeKind.compared, verifyEmailEvents]
    | passwordReset => cases hcompared
  | _ => cases kind <;> cases hcompared

end

section
variable {kind : CodeKind} {M : Nat} {evs : List Event} {e : Event}
  {rows rows' : List OneTimeCode}

/-- A row of the new table was a row of the old one, or it is the new code of the step. -/
theorem CodesStep.origin (h : CodesStep kind M evs e rows rows') {r' : OneTimeCode}
    (hr' : r' ∈ rows') :
    (∃ r ∈ rows, r.Evolves r') ∨ (kind.rejected e = none ∧ ∀ r ∈ rows, r.id ≠ r'.id) := by
  cases h with
  | quiet _ _ => exact .inl ⟨r', hr', .refl r'⟩
  | @issued base row hnone _ hbase hjoins =>
    rcases List.mem_append.mp hr' with hr' | hr'
    · rcases hbase with rfl | ⟨now, rfl⟩
      · exact .inl ⟨r', hr', .refl r'⟩
      · obtain ⟨r, hr, rfl⟩ := Update.mem_run.mp hr'
        exact .inl ⟨r, hr, .apply (OneTimeCode.markActiveUsed_evolves _ now) r⟩
    · rw [List.mem_singleton.mp hr']
      refine .inr ⟨hnone, fun r hr => ?_⟩
      rcases hbase with rfl | ⟨now, rfl⟩
      · exact hjoins.id r hr
      · rw [← (OneTimeCode.Evolves.apply
          (OneTimeCode.markActiveUsed_evolves row.userId now) r).id]
        exact hjoins.id _ (Update.apply_mem_run hr)
  | rejected _ _ _ _ =>
    obtain ⟨r, hr, rfl⟩ := Update.mem_run.mp hr'
    exact .inl ⟨r, hr, .apply (OneTimeCode.incrementAttempts_evolves _ _ M) r⟩
  | consumed _ _ _ _ _ _ =>
    obtain ⟨r, hr, rfl⟩ := Update.mem_run.mp hr'
    exact .inl ⟨r, hr, .apply (OneTimeCode.markUsed_evolves _ _ M) r⟩

end

end SmirklyAuth
