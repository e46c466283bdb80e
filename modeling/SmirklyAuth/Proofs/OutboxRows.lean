import SmirklyAuth.Proofs.OutboxClaims
import SmirklyAuth.Protocol.CodeTables

/-!
# `SmirklyAuth.Proofs.OutboxRows`: the row invariant of the outbox

Five statements write `email_outbox`, and a constraint of the table ties the status of a row
to its lease. `outbox_row_invariant` says that no history of calls breaks the tie, whatever
times and lease ids the callers pass: a row is `processing` exactly while it has a lease and
a time at which the lease runs out, and its attempts are the times it was handed out, at most
`max_attempts`. From every such table, a call changes no address, clears the payload exactly
when it closes the job, and leaves a closed job alone.
-/

set_option autoImplicit false

namespace SmirklyAuth

/-- The number of times that a history has handed out the job. -/
def handedOut (log : List OutboxRecord) (id : Uuid) : Nat :=
  (grants log).countP fun g => g.jobId == id

/-- The columns of a row fit together:

- `leased`: the row has a lease exactly while it is processed;
- `locked`: the lease has an end exactly then;
- `attempts`: the attempts are at most `M`. -/
structure OutboxJob.WellFormed (M : Nat) (j : OutboxJob) : Prop where
  leased : j.status = .processing ↔ j.leaseId.isSome = true
  locked : j.lockedUntil.isSome = true ↔ j.status = .processing
  attempts : j.attempts ≤ M

/-- What a call may change in the row `j`, which is `j'` after it:

- `payload`: the payload changes only when the job is closed;
- `cleared`: a job that is closed has the empty payload;
- `closed`: a job that was closed before is not changed and not handed out. -/
structure OutboxJob.Respects (x : OutboxRecord) (j j' : OutboxJob) : Prop where
  toEmail : j'.toEmail = j.toEmail
  template : j'.template = j.template
  correlationId : j'.correlationId = j.correlationId
  payload : j'.payload ≠ j.payload → j.isOpen = true ∧ j'.isOpen = false
  cleared : j.isOpen = true → j'.isOpen = false → j'.payload = []
  closed : j.isOpen = false → j' = j ∧ ∀ g ∈ x.grants, g.jobId ≠ j.id

namespace OutboxJob.Moves

variable {x : OutboxRecord} {j j' : OutboxJob}

/-- Every move of a row keeps the row well formed. -/
theorem wellFormed {M : Nat} (h : j.Moves x j') (hlimit : x.1.HasLimit M)
    (hj : j.WellFormed M) : j'.WellFormed M := by
  cases h with
  | idle _ _ => exact hj
  | @claimed _ cfg now _ _ _ hdue =>
    have hcfg : cfg.maxAttempts = M := hlimit
    have hbelow : (j.attempts : Int) < toInt32 M := by
      simp only [OutboxJob.claimable, Bool.and_eq_true, decide_eq_true_eq] at hdue
      rw [← hcfg]
      exact hdue.1.2
    have hle := toInt32_le M
    have hattempts : j.attempts + 1 ≤ M := by omega
    exact ⟨by simp [OutboxJob.handOut], by simp [OutboxJob.handOut], hattempts⟩
  | sent _ => exact ⟨by simp, by simp, hj.attempts⟩
  | rescheduled _ => exact ⟨by simp, by simp, hj.attempts⟩
  | dead _ => exact ⟨by simp, by simp, hj.attempts⟩

/-- A claim adds one to the attempts of the rows that it hands out. -/
theorem attempts_eq (h : j.Moves x j') (hnodup : (x.grants.map (·.jobId)).Nodup) :
    j'.attempts = j.attempts + x.grants.countP fun g => g.jobId == j.id := by
  cases h with
  | idle hgrant _ =>
    have hnone : (x.grants.countP fun g => g.jobId == j.id) = 0 := by
      rw [List.countP_eq_zero]
      intro g hg
      simp [hgrant g hg]
    omega
  | claimed hgrant _ =>
    -- the batch has unique ids, so the row is handed out once
    have hone := List.count_eq_one_of_mem hnodup (List.mem_map.mpr ⟨_, hgrant, rfl⟩)
    rw [List.count_eq_countP, List.countP_map] at hone
    exact congrArg (j.attempts + ·) hone.symm
  | sent _ => rfl
  | rescheduled _ => rfl
  | dead _ => rfl

/-- A row that holds a lease is open. -/
theorem isOpen_of_leasedBy {id leaseId : Uuid} (h : j.leasedBy id leaseId = true) :
    j.isOpen = true := by
  simp only [OutboxJob.leasedBy, Bool.and_eq_true, beq_iff_eq] at h
  simp [OutboxJob.isOpen, h.2]

/-- A row that is due is open. -/
theorem isOpen_of_claimable {now : Time} {M : Nat} (h : j.claimable now M = true) :
    j.isOpen = true := by
  simp only [OutboxJob.claimable, Bool.and_eq_true] at h
  exact h.1.1.1

/-- A row that is open stays open with its payload, or it is closed without one. -/
theorem respects_of_isOpen (hopen : j.isOpen = true) (htoEmail : j'.toEmail = j.toEmail)
    (htemplate : j'.template = j.template) (hcorrelation : j'.correlationId = j.correlationId)
    (hpayload : (j'.isOpen = true ∧ j'.payload = j.payload) ∨
      (j'.isOpen = false ∧ j'.payload = [])) : j.Respects x j' where
  toEmail := htoEmail
  template := htemplate
  correlationId := hcorrelation
  payload hne := by
    rcases hpayload with ⟨_, hsame⟩ | ⟨hclosed, _⟩
    · exact absurd hsame hne
    · exact ⟨hopen, hclosed⟩
  cleared _ hclosed := by
    rcases hpayload with ⟨hopen', _⟩ | ⟨_, hempty⟩
    · rw [hopen'] at hclosed
      cases hclosed
    · exact hempty
  closed hclosed := by
    rw [hopen] at hclosed
    cases hclosed

/-- A call that does not hand out the row may leave it as it is. -/
theorem respects_self (hgrant : ∀ g ∈ x.grants, g.jobId ≠ j.id) : j.Respects x j := by
  by_cases hopen : j.isOpen = true
  · exact respects_of_isOpen hopen rfl rfl rfl (.inl ⟨hopen, rfl⟩)
  · exact ⟨rfl, rfl, rfl, fun hne => absurd rfl hne, fun hopen' => absurd hopen' hopen,
      fun _ => ⟨rfl, hgrant⟩⟩

/-- Every move respects the row. -/
theorem respects (h : j.Moves x j') : j.Respects x j' := by
  cases h with
  | idle hgrant _ => exact respects_self hgrant
  | claimed _ hdue =>
    exact respects_of_isOpen (isOpen_of_claimable hdue) rfl rfl rfl (.inl ⟨rfl, rfl⟩)
  | sent hleased =>
    exact respects_of_isOpen (isOpen_of_leasedBy hleased) rfl rfl rfl (.inr ⟨rfl, rfl⟩)
  | rescheduled hleased =>
    exact respects_of_isOpen (isOpen_of_leasedBy hleased) rfl rfl rfl (.inl ⟨rfl, rfl⟩)
  | dead hleased =>
    exact respects_of_isOpen (isOpen_of_leasedBy hleased) rfl rfl rfl (.inr ⟨rfl, rfl⟩)

end OutboxJob.Moves

/-! ### Whole histories -/

/-- Every row is well formed and counts the times it was handed out. -/
def OutboxRowInv (M : Nat) (jobs : List OutboxJob) (log : List OutboxRecord) : Prop :=
  ∀ j ∈ jobs, j.WellFormed M ∧ j.attempts = handedOut log j.id

/-- One entry more hands out the jobs that it grants. -/
theorem handedOut_snoc (log : List OutboxRecord) (x : OutboxRecord) (id : Uuid) :
    handedOut (log ++ [x]) id = handedOut log id + x.grants.countP fun g => g.jobId == id := by
  simp [handedOut]

section
variable {M : Nat} {jobs jobs' : List OutboxJob} {log : List OutboxRecord} {x : OutboxRecord}

/-- Every call keeps the invariant. -/
theorem OutboxRowInv.step (h : OutboxRowInv M jobs log) (hrun : OutboxRun log jobs)
    (hlimit : x.1.HasLimit M) (heffect : OutboxEffect x jobs jobs') :
    OutboxRowInv M jobs' (log ++ [x]) := by
  intro j' hj'
  rw [handedOut_snoc]
  cases heffect with
  | @inserted id now toEmail template payload correlationId hgrants _ hnew =>
    rw [hgrants, List.countP_nil, Nat.add_zero]
    rcases List.mem_append.mp hj' with hj | hj
    · exact h j' hj
    · rw [List.mem_singleton.mp hj]
      -- no history has handed out a job with a new id
      have hzero : handedOut log id = 0 := by
        unfold handedOut
        rw [List.countP_eq_zero]
        intro g hg heq
        obtain ⟨k, hk, hid⟩ := exists_of_mem_grants hrun g hg
        exact hnew k hk (hid.trans (beq_iff_eq.mp heq))
      exact ⟨⟨by simp [emailOutboxInsert], by simp [emailOutboxInsert], Nat.zero_le M⟩,
        hzero.symm⟩
  | moved hrows hgrants _ =>
    obtain ⟨j, hj, rfl⟩ := List.mem_map.mp hj'
    obtain ⟨hwell, hcount⟩ := h j hj
    have hmoves := hrows j hj
    refine ⟨hmoves.wellFormed hlimit hwell, ?_⟩
    rw [hmoves.id_eq, hmoves.attempts_eq (hgrants.nodup (outboxRun_nodup hrun)), hcount]

/-- The invariant holds after every history with the limit `M`. -/
theorem outboxRowInv_of_run (hrun : OutboxRun log jobs) (hlimit : ∀ x ∈ log, x.1.HasLimit M) :
    OutboxRowInv M jobs log := by
  refine outboxRun_rule (J := fun jobs log => (∀ x ∈ log, x.1.HasLimit M) →
    OutboxRowInv M jobs log) ?_ ?_ hrun hlimit
  · intro _ j hj
    cases hj
  · intro log jobs jobs' x hrun ih heffect hlimit
    have hlog : ∀ y ∈ log, y.1.HasLimit M := fun y hy => hlimit y (List.mem_append_left _ hy)
    have hx : x.1.HasLimit M := hlimit x (List.mem_append_right _ (List.mem_singleton_self x))
    exact (ih hlog).step hrun hx heffect

/-- A call leaves one row with each old id, and respects it. -/
theorem OutboxEffect.respects (hnodup : (jobs.map (·.id)).Nodup)
    (h : OutboxEffect x jobs jobs') {j : OutboxJob} (hj : j ∈ jobs) :
    ∃ j' ∈ jobs', j'.id = j.id ∧ (∀ k ∈ jobs', k.id = j.id → k = j') ∧ j.Respects x j' := by
  have hnodup' := h.nodup hnodup
  have hrow : ∃ j' ∈ jobs', j'.id = j.id ∧ j.Respects x j' := by
    cases h with
    | inserted hgrants _ _ =>
      refine ⟨j, List.mem_append_left _ hj, rfl, OutboxJob.Moves.respects_self fun g hg => ?_⟩
      rw [hgrants] at hg
      cases hg
    | @moved f hrows _ _ =>
      exact ⟨f j, List.mem_map_of_mem hj, (hrows j hj).id_eq, (hrows j hj).respects⟩
  obtain ⟨j', hj', hid, hrespects⟩ := hrow
  refine ⟨j', hj', hid, fun k hk hkid => ?_, hrespects⟩
  exact List.inj_on_of_nodup_map hnodup' hk hj' (hkid.trans hid.symm)

end

/-- For every history of calls with the limit `M`: each row is processed exactly while it has
a lease, and its attempts are the times it was handed out, at most `M`. Every further call
leaves one row with each id and respects it. -/
theorem outbox_row_invariant (M : Nat) (log : List OutboxRecord) (jobs : List OutboxJob)
    (hrun : OutboxRun log jobs) (hlimit : ∀ x ∈ log, x.1.HasLimit M) :
    (∀ j ∈ jobs, j.WellFormed M ∧ j.attempts = handedOut log j.id) ∧
    ∀ op res jobs', OutboxOp.exec op jobs = .ok (res, jobs') → ∀ j ∈ jobs,
      ∃ j' ∈ jobs', j'.id = j.id ∧ (∀ k ∈ jobs', k.id = j.id → k = j') ∧
        j.Respects (op, res) j' := by
  have hnodup := outboxRun_nodup hrun
  refine ⟨outboxRowInv_of_run hrun hlimit, fun op res jobs' hop j hj => ?_⟩
  exact (OutboxOp.exec_effect hnodup hop).respects hnodup hj

/-- A job is enqueued and claimed, and a worker with a lease of its own tries to store a
result: the row is still processed, under the lease of the claim. -/
theorem outbox_row_invariant_foreignLease :
    ∃ log jobs, OutboxRun log jobs ∧ (∀ x ∈ log, x.1.HasLimit 2) ∧
      ∃ j ∈ jobs, j.attempts = 1 ∧ j.leaseId.isSome = true ∧ handedOut log j.id = 1 := by
  obtain ⟨⟨log, jobs⟩, hp, hlimit, j, hj, hstatus, hattempts⟩ :
      ∃ p ∈ Journal.replay OutboxOp.exec []
        [.insert { newJobId := ⟨1⟩ } ⟨"unit@example.com", "password_reset", [], ""⟩,
        .claimBatch { leaseId := fun _ => ⟨7⟩ } { maxAttempts := 2 } 0, .markSent ⟨1⟩ ⟨9⟩ 1 ""],
      (∀ x ∈ p.1, x.1.HasLimit 2) ∧ ∃ j ∈ p.2, j.status = .processing ∧ j.attempts = 1 := by
    decide +kernel
  have hrun : OutboxRun log jobs := Journal.run_of_replay hp
  obtain ⟨hwell, hcount⟩ := (outbox_row_invariant 2 log jobs hrun hlimit).1 j hj
  exact ⟨log, jobs, hrun, hlimit, j, hj, hattempts, hwell.leased.mp hstatus,
    hcount.symm.trans hattempts⟩

end SmirklyAuth
