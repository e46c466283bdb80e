import SmirklyAuth.Lib.Journal
import SmirklyAuth.Protocol.Frame
import SmirklyAuth.Protocol.Refinement

/-!
# `SmirklyAuth.Protocol.OutboxOperations`: the outbox repository as a component of its own

`OutboxOp` is a call of `Insert`, `ClaimBatch`, `MarkSent`, `Reschedule` or `MarkDead`, with
any arguments: any times, and any lease ids, also those of other workers. `OutboxOp.exec`
runs the transaction of the repository on the table. A `Journal.Run` of these operations is
a history of the table under any number of workers.

A `Grant` is what `ClaimBatch` hands out: a job, its new lease, the clock reading of the claim
and its `stuck_timeout`.

`OutboxOp.exec_effect` says once what an operation does, row by row (`OutboxJob.Moves`). The
invariants of the histories are derived from it.

`step_outbox` connects the two levels: a step of the service leaves the table alone, or it is
one operation, and its event is the entry of the journal. So the table of the service, in every
reachable state, is the result of such a history (`outboxRun_of_reachable`), and `RowStep` says
where each row after a step comes from.
-/

set_option autoImplicit false

namespace SmirklyAuth

open Sql (Update)
open Interleaving (Reachable own)

/-- The ids of the jobs that an event hands out. -/
def Event.claimedIds : Event → List Uuid
  | .committed (.claimed jobs) => jobs.map (·.id)
  | _ => []

/-- The job, the lease and the status of a result that an event has stored. -/
def Event.transition : Event → Option (Uuid × Uuid × OutboxStatus)
  | .committed (.markedSent id leaseId true) => some (id, leaseId, .sent)
  | .committed (.rescheduled id leaseId true) => some (id, leaseId, .pending)
  | .committed (.markedDead id leaseId true) => some (id, leaseId, .dead)
  | _ => none

/-- The three transactions that store a result. -/
theorem Event.transition_cases {e : Event} {id leaseId : Uuid} {status : OutboxStatus}
    (h : e.transition = some (id, leaseId, status)) :
    (e = .committed (.markedSent id leaseId true) ∧ status = .sent) ∨
    (e = .committed (.rescheduled id leaseId true) ∧ status = .pending) ∨
    (e = .committed (.markedDead id leaseId true) ∧ status = .dead) := by
  unfold Event.transition at h
  split at h
  · cases h
    exact .inl ⟨rfl, rfl⟩
  · cases h
    exact .inr (.inl ⟨rfl, rfl⟩)
  · cases h
    exact .inr (.inr ⟨rfl, rfl⟩)
  · cases h

/-- A transaction that stores a result of a job touches the job. -/
theorem Event.touches_of_transition {e : Event} {id leaseId : Uuid} {status : OutboxStatus}
    (h : e.transition = some (id, leaseId, status)) : e.touches = some id := by
  rcases Event.transition_cases h with ⟨rfl, _⟩ | ⟨rfl, _⟩ | ⟨rfl, _⟩ <;> rfl

/-- A call of the outbox repository. The input adds the generated ids and the clock that
`Reschedule` reads for `updated_at`. -/
inductive OutboxOp where
  | insert (i : Input) (job : EnqueueEmail)
  | claimBatch (i : Input) (cfg : EmailOutboxRuntimeConfig) (now : Time)
  | markSent (id leaseId : Uuid) (now : Time) (lastError : Str)
  | reschedule (i : Input) (id leaseId : Uuid) (nextAt : Time) (lastError : Str)
  | markDead (id leaseId : Uuid) (now : Time) (lastError : Str)

/-- What a call of the outbox repository returns. -/
inductive OutboxResult where
  | inserted
  | claimed (jobs : List EmailOutboxEntry)
  | persisted (ok : Bool)
  deriving DecidableEq, Repr

namespace OutboxOp

/-- The transaction of a call. -/
def tx : OutboxOp → Tx OutboxResult
  | .insert i job => do
      EmailOutboxRepository.insert i job
      return .inserted
  | .claimBatch i cfg now => return .claimed (← EmailOutboxRepository.claimBatch i cfg now)
  | .markSent id leaseId now lastError =>
      return .persisted (← EmailOutboxRepository.markSent id leaseId now lastError)
  | .reschedule i id leaseId nextAt lastError =>
      return .persisted (← EmailOutboxRepository.reschedule i id leaseId nextAt lastError)
  | .markDead id leaseId now lastError =>
      return .persisted (← EmailOutboxRepository.markDead id leaseId now lastError)

/-- The transaction on the table `email_outbox` alone. -/
def exec (op : OutboxOp) (jobs : List OutboxJob) :
    Except Error (OutboxResult × List OutboxJob) :=
  (op.tx { emailOutbox := jobs }).map fun p => (p.1, p.2.emailOutbox)

/-- The statement of a call that stores the result of a job. -/
def resultUpdate : OutboxOp → Option (Update OutboxJob)
  | .markSent id leaseId now lastError =>
      some (emailOutboxMarkSent id leaseId lastError now.timePointTz)
  | .reschedule i id leaseId nextAt lastError =>
      some (emailOutboxReschedule id leaseId nextAt.timePointTz lastError i.laterNow.timePointTz)
  | .markDead id leaseId now lastError =>
      some (emailOutboxMarkDead id leaseId lastError now.timePointTz)
  | _ => none

/-- The job and the lease for which a call stores a result. -/
def lease : OutboxOp → Option (Uuid × Uuid)
  | .markSent id leaseId _ _ => some (id, leaseId)
  | .reschedule _ id leaseId _ _ => some (id, leaseId)
  | .markDead id leaseId _ _ => some (id, leaseId)
  | _ => none

/-- `max_attempts` of a claim is `M`. -/
def HasLimit (M : Nat) : OutboxOp → Prop
  | .claimBatch _ cfg _ => cfg.maxAttempts = M
  | _ => True

instance (M : Nat) : DecidablePred (HasLimit M)
  | .claimBatch _ cfg _ => inferInstanceAs (Decidable (cfg.maxAttempts = M))
  | .insert _ _ | .markSent _ _ _ _ | .reschedule _ _ _ _ _ | .markDead _ _ _ _ =>
      .isTrue trivial

end OutboxOp

/-- An entry of the journal. -/
abbrev OutboxRecord := OutboxOp × OutboxResult

/-- A job that a claim handed out, under a new lease, with the clock reading of the claim. -/
structure Grant where
  jobId : Uuid
  leaseId : Uuid
  claimedAt : Time
  stuckTimeout : Seconds
  deriving DecidableEq, Repr

/-- The column `locked_until` after the claim: the sum of the 64-bit clock, as it is bound. -/
def Grant.lockedUntil (g : Grant) : Time := (g.claimedAt.plus g.stuckTimeout).timePointTz

namespace OutboxRecord

/-- The grants of an entry. -/
def grants : OutboxRecord → List Grant
  | (.claimBatch _ cfg now, .claimed jobs) =>
      jobs.map fun job => ⟨job.id, job.leaseId, now, cfg.stuckTimeout⟩
  | _ => []

/-- The job and the lease whose result the entry has stored. -/
def stored : OutboxRecord → Option (Uuid × Uuid)
  | (op, .persisted true) => op.lease
  | _ => none

end OutboxRecord

/-- An entry has stored a result if its call returned `true`. -/
theorem OutboxRecord.stored_eq_some {x : OutboxRecord} {p : Uuid × Uuid} :
    x.stored = some p ↔ x.2 = .persisted true ∧ x.1.lease = some p := by
  obtain ⟨op, res⟩ := x
  cases res with
  | persisted ok => cases ok <;> simp [stored]
  | _ => simp [stored]

/-- The grants of a history, in order. -/
def grants (log : List OutboxRecord) : List Grant := log.flatMap OutboxRecord.grants

/-- The empty history has no grants. -/
@[simp] theorem grants_nil : grants [] = [] := rfl

/-- The grants of the first entry come first. -/
@[simp] theorem grants_cons (x : OutboxRecord) (log : List OutboxRecord) :
    grants (x :: log) = x.grants ++ grants log := List.flatMap_cons

/-- The grants of two histories, one after the other. -/
@[simp] theorem grants_append (log log' : List OutboxRecord) :
    grants (log ++ log') = grants log ++ grants log' := List.flatMap_append

/-- The grants of one entry. -/
theorem grants_singleton (x : OutboxRecord) : grants [x] = x.grants := by
  simp

/-- The histories of the table, from the empty table on. -/
abbrev OutboxRun (log : List OutboxRecord) (jobs : List OutboxJob) : Prop :=
  Journal.Run OutboxOp.exec [] log jobs

/-! ### What an operation does -/

/-- The statement with which `ClaimBatch` claims its candidates. -/
def claimOf (i : Input) (cfg : EmailOutboxRuntimeConfig) (now : Time) (jobs : List OutboxJob) :
    Update OutboxJob :=
  emailOutboxClaim (emailOutboxCandidates cfg.batchSize now.timePointTz cfg.maxAttempts jobs)
    now.timePointTz (now.plus cfg.stuckTimeout).timePointTz i.leaseId

/-- The row of a job that a claim hands out. -/
def OutboxJob.handOut (i : Input) (cfg : EmailOutboxRuntimeConfig) (now : Time)
    (j : OutboxJob) : OutboxJob :=
  { j with
    status := .processing
    lockedUntil := some (now.plus cfg.stuckTimeout).timePointTz
    leaseId := some (i.leaseId j.id)
    attempts := j.attempts + 1
    updatedAt := now.timePointTz
    lastError := none }

/-- The claim of a batch hands out the row. -/
theorem claimOf_set (i : Input) (cfg : EmailOutboxRuntimeConfig) (now : Time)
    (jobs : List OutboxJob) (j : OutboxJob) :
    (claimOf i cfg now jobs).set j = j.handOut i cfg now := rfl

/-- The successful calls, with what they return and the table after them. -/
inductive OutboxOp.Runs : OutboxOp → OutboxResult → List OutboxJob → List OutboxJob → Prop where
  | insert {i job jobs} (hnew : ∀ j ∈ jobs, j.id ≠ i.newJobId) :
      Runs (.insert i job) .inserted jobs (jobs ++ [emailOutboxInsert i.newJobId i.dbNow
        job.toEmail job.templateName job.payload job.correlationId])
  | claimBatch {i cfg now jobs} (hsize : ¬ toInt32 cfg.batchSize < 0) :
      Runs (.claimBatch i cfg now) (.claimed ((jobs.filter (claimOf i cfg now jobs).cond).map
        fun j => ((claimOf i cfg now jobs).set j).toEntry (i.leaseId j.id))) jobs
        ((claimOf i cfg now jobs).run jobs)
  | result {op u jobs} (hop : op.resultUpdate = some u) :
      Runs op (.persisted (u.hits jobs)) jobs (u.run jobs)

section
variable {op : OutboxOp} {res : OutboxResult} {jobs jobs' : List OutboxJob} {db db' : Db}

/-- The transaction of a call does the same whatever the other tables hold. -/
theorem OutboxOp.runs_of_tx (h : op.tx db = .ok (res, db')) :
    op.Runs res db.emailOutbox db'.emailOutbox := by
  cases op with
  | insert i job =>
    obtain ⟨_, _, hinsert, hpure⟩ := Tx.bind_eq_ok.mp h
    cases Tx.pure_eq_ok.mp hpure
    obtain ⟨hnew, rfl⟩ := EmailOutboxRepository.insert_eq_ok hinsert
    exact .insert hnew
  | claimBatch i cfg now =>
    obtain ⟨_, _, hclaim, hpure⟩ := Tx.bind_eq_ok.mp h
    cases Tx.pure_eq_ok.mp hpure
    unfold EmailOutboxRepository.claimBatch at hclaim
    split at hclaim
    · cases hclaim
    · rename_i hsize
      cases hclaim
      exact .claimBatch hsize
  | _ =>
    cases h
    exact .result rfl

/-- A call on the table alone is such a successful call. -/
theorem OutboxOp.runs_of_exec (h : op.exec jobs = .ok (res, jobs')) : op.Runs res jobs jobs' := by
  unfold OutboxOp.exec at h
  cases htx : op.tx { emailOutbox := jobs } with
  | error x => rw [htx] at h; cases h
  | ok p =>
    rw [htx] at h
    cases h
    have htx' : op.tx { emailOutbox := jobs } = .ok (p.1, p.2) := htx
    exact runs_of_tx htx'

/-- Every successful call is one on the table alone. -/
theorem OutboxOp.exec_of_runs (h : op.Runs res jobs jobs') : op.exec jobs = .ok (res, jobs') := by
  cases h with
  | @insert i job _ hnew =>
    have hany : ¬ (jobs.any fun j => j.id == i.newJobId) = true := by simpa using hnew
    have hinsert : EmailOutboxRepository.insert i job { emailOutbox := jobs } =
        .ok ((), { emailOutbox := jobs ++ [emailOutboxInsert i.newJobId i.dbNow job.toEmail
          job.templateName job.payload job.correlationId] }) := if_neg hany
    have htx : (OutboxOp.insert i job).tx { emailOutbox := jobs } = .ok (.inserted, _) :=
      Tx.bind_eq_ok.mpr ⟨_, _, hinsert, rfl⟩
    unfold OutboxOp.exec
    rw [htx]
    rfl
  | @claimBatch i cfg now _ hsize =>
    have hclaim : EmailOutboxRepository.claimBatch i cfg now { emailOutbox := jobs } =
        .ok (_, { emailOutbox := (claimOf i cfg now jobs).run jobs }) := if_neg hsize
    have htx : (OutboxOp.claimBatch i cfg now).tx { emailOutbox := jobs } =
        .ok (.claimed _, _) := Tx.bind_eq_ok.mpr ⟨_, _, hclaim, rfl⟩
    unfold OutboxOp.exec
    rw [htx]
    rfl
  | result hop =>
    cases op <;> simp only [resultUpdate, reduceCtorEq, Option.some.injEq] at hop <;>
      subst hop <;> rfl

end

/-- What a call does to one row of the table:

- `idle`: nothing, because the row is not claimed and does not hold the lease of the call;
- `claimed`: a due row is handed out under a new lease;
- `sent`, `rescheduled`, `dead`: the row holds the lease of the call, and its result is
  stored. -/
inductive OutboxJob.Moves : OutboxRecord → OutboxJob → OutboxJob → Prop where
  | idle {x j} (hgrant : ∀ g ∈ OutboxRecord.grants x, g.jobId ≠ j.id)
      (hlease : ∀ id leaseId, x.1.lease = some (id, leaseId) → j.leasedBy id leaseId = false) :
      Moves x j j
  | claimed {i cfg now entries j}
      (hgrant : ⟨j.id, i.leaseId j.id, now, cfg.stuckTimeout⟩ ∈
        OutboxRecord.grants (.claimBatch i cfg now, .claimed entries))
      (hdue : j.claimable now.timePointTz cfg.maxAttempts = true) :
      Moves (.claimBatch i cfg now, .claimed entries) j (j.handOut i cfg now)
  | sent {id leaseId now lastError j} (hleased : j.leasedBy id leaseId = true) :
      Moves (.markSent id leaseId now lastError, .persisted true) j
        { j with
          status := .sent
          payload := []
          lockedUntil := none
          leaseId := none
          lastError := some lastError
          updatedAt := now.timePointTz }
  | rescheduled {i id leaseId nextAt lastError j} (hleased : j.leasedBy id leaseId = true) :
      Moves (.reschedule i id leaseId nextAt lastError, .persisted true) j
        { j with
          status := .pending
          nextAttemptAt := nextAt.timePointTz
          lockedUntil := none
          leaseId := none
          lastError := some lastError
          updatedAt := i.laterNow.timePointTz }
  | dead {id leaseId now lastError j} (hleased : j.leasedBy id leaseId = true) :
      Moves (.markDead id leaseId now lastError, .persisted true) j
        { j with
          status := .dead
          payload := []
          lockedUntil := none
          leaseId := none
          lastError := some lastError
          updatedAt := now.timePointTz }

/-- What a call does to the table: it appends a new job, or it moves the rows. -/
inductive OutboxEffect (x : OutboxRecord) (jobs : List OutboxJob) : List OutboxJob → Prop where
  | inserted {id now toEmail template payload correlationId} (hgrants : x.grants = [])
      (hstored : x.stored = none) (hnew : ∀ j ∈ jobs, j.id ≠ id) :
      OutboxEffect x jobs
        (jobs ++ [emailOutboxInsert id now toEmail template payload correlationId])
  | moved {f : OutboxJob → OutboxJob} (hrows : ∀ j ∈ jobs, j.Moves x (f j))
      (hgrants : (x.grants.map (·.jobId)).Sublist (jobs.map (·.id)))
      (hstored : ∀ id leaseId, x.stored = some (id, leaseId) →
        ∃ j ∈ jobs, j.leasedBy id leaseId = true) :
      OutboxEffect x jobs (jobs.map f)

section
variable {op : OutboxOp} {res : OutboxResult} {jobs jobs' : List OutboxJob}

variable {u : Update OutboxJob} {j : OutboxJob} {x : OutboxRecord} {log : List OutboxRecord}

/-- The statement of a call asks for the lease of the call. -/
theorem OutboxOp.resultUpdate_cond (hop : op.resultUpdate = some u) :
    ∃ id leaseId, op.lease = some (id, leaseId) ∧ ∀ j, u.cond j = j.leasedBy id leaseId := by
  cases op <;> simp only [resultUpdate, reduceCtorEq, Option.some.injEq] at hop <;>
    exact ⟨_, _, rfl, fun j => by rw [← hop]; rfl⟩

/-- A row that holds the lease of the call gets its result. -/
theorem OutboxOp.moves_of_leasedBy {id leaseId : Uuid}
    (hop : op.resultUpdate = some u) (hlease : op.lease = some (id, leaseId))
    (hleased : j.leasedBy id leaseId = true) : j.Moves (op, .persisted true) (u.set j) := by
  cases op with
  | insert => cases hop
  | claimBatch => cases hop
  | markSent => cases hop; cases hlease; exact .sent hleased
  | reschedule => cases hop; cases hlease; exact .rescheduled hleased
  | markDead => cases hop; cases hlease; exact .dead hleased

/-- The candidates are due rows of the table. -/
theorem mem_emailOutboxCandidates {batchSize : Nat} {now : Time} {M : Nat} {id : Uuid}
    (h : id ∈ emailOutboxCandidates batchSize now M jobs) :
    ∃ j ∈ jobs, j.id = id ∧ j.claimable now M = true := by
  unfold emailOutboxCandidates at h
  obtain ⟨j, hj, hid⟩ := List.mem_map.mp h
  have hj' := (List.mem_insertionSort _).mp (List.mem_of_mem_take hj)
  obtain ⟨hmem, hdue⟩ := List.mem_filter.mp hj'
  exact ⟨j, hmem, hid, hdue⟩

/-- The grants of a claim, one for each row that it takes. -/
theorem grants_claimBatch (i : Input) (cfg : EmailOutboxRuntimeConfig) (now : Time)
    (rows : List OutboxJob) (claim : Update OutboxJob) :
    OutboxRecord.grants (.claimBatch i cfg now, .claimed (rows.map fun j =>
      (claim.set j).toEntry (i.leaseId j.id))) =
      rows.map fun j => ⟨(claim.set j).id, i.leaseId j.id, now, cfg.stuckTimeout⟩ := by
  simp [OutboxRecord.grants, OutboxJob.toEntry]

/-- A claim moves each row: a candidate is due and is handed out, the others stay. -/
theorem moves_of_claim (hnodup : (jobs.map (·.id)).Nodup) (i : Input)
    (cfg : EmailOutboxRuntimeConfig) (now : Time) (hj : j ∈ jobs) :
    j.Moves (.claimBatch i cfg now, .claimed ((jobs.filter (claimOf i cfg now jobs).cond).map
      fun k => ((claimOf i cfg now jobs).set k).toEntry (i.leaseId k.id)))
      ((claimOf i cfg now jobs).apply j) := by
  cases hcond : (claimOf i cfg now jobs).cond j with
  | true =>
    rw [Update.apply_pos hcond, claimOf_set]
    have hcandidate : j.id ∈ emailOutboxCandidates cfg.batchSize now.timePointTz
        cfg.maxAttempts jobs := List.contains_iff_mem.mp hcond
    obtain ⟨k, hk, hid, hdue⟩ := mem_emailOutboxCandidates hcandidate
    -- the candidate with this id is the row itself
    have hkj : k = j := List.inj_on_of_nodup_map hnodup hk hj hid
    subst hkj
    refine .claimed ?_ hdue
    rw [grants_claimBatch]
    exact List.mem_map.mpr ⟨k, List.mem_filter.mpr ⟨hk, hcond⟩, rfl⟩
  | false =>
    rw [Update.apply_neg hcond]
    refine .idle (fun g hg hid => ?_) (fun _ _ hlease => nomatch hlease)
    rw [grants_claimBatch] at hg
    obtain ⟨k, hk, rfl⟩ := List.mem_map.mp hg
    have htaken := (List.mem_filter.mp hk).2
    have hid' : k.id = j.id := hid
    simp only [claimOf, emailOutboxClaim] at hcond htaken
    rw [hid', hcond] at htaken
    cases htaken

/-- A call that stores a result moves each row: the row that holds the lease, or none. -/
theorem OutboxOp.moves_of_result (hop : op.resultUpdate = some u) (hj : j ∈ jobs) :
    j.Moves (op, .persisted (u.hits jobs)) (u.apply j) := by
  obtain ⟨id, leaseId, hlease, hcond⟩ := resultUpdate_cond hop
  cases hj' : u.cond j with
  | true =>
    have hhits : u.hits jobs = true := Update.hits_iff.mpr ⟨j, hj, hj'⟩
    rw [Update.apply_pos hj', hhits]
    exact moves_of_leasedBy hop hlease (hcond j ▸ hj')
  | false =>
    rw [Update.apply_neg hj']
    refine .idle (fun g hg => ?_) fun id' leaseId' hlease' => ?_
    · have hnone : OutboxRecord.grants (op, .persisted (u.hits jobs)) = [] := by
        cases op <;> rfl
      rw [hnone] at hg
      cases hg
    · cases hlease.symm.trans hlease'
      exact hcond j ▸ hj'

/-- Every call has such an effect, if the ids of the table are unique. -/
theorem OutboxOp.exec_effect (hnodup : (jobs.map (·.id)).Nodup)
    (h : op.exec jobs = .ok (res, jobs')) : OutboxEffect (op, res) jobs jobs' := by
  cases runs_of_exec h with
  | insert hnew => exact .inserted rfl rfl hnew
  | @claimBatch i cfg now _ _ =>
    refine .moved (fun j hj => moves_of_claim hnodup i cfg now hj) ?_
      (fun _ _ hstored => nomatch hstored)
    rw [grants_claimBatch, List.map_map]
    exact List.filter_sublist.map _
  | @result _ u _ hop =>
    obtain ⟨id, leaseId, hlease, hcond⟩ := resultUpdate_cond hop
    have hgrants : OutboxRecord.grants (op, .persisted (u.hits jobs)) = [] := by
      cases op <;> rfl
    refine .moved (fun j hj => moves_of_result hop hj) (hgrants ▸ List.nil_sublist _) ?_
    intro id' leaseId' hstored
    obtain ⟨hhits, hlease'⟩ := OutboxRecord.stored_eq_some.mp hstored
    cases hlease.symm.trans hlease'
    obtain ⟨j, hj, hj'⟩ := Update.hits_iff.mp (OutboxResult.persisted.inj hhits)
    exact ⟨j, hj, hcond j ▸ hj'⟩

/-! ### The rule for histories -/

/-- A row keeps its id. -/
theorem OutboxJob.Moves.id_eq {j' : OutboxJob} (h : j.Moves x j') :
    j'.id = j.id := by
  cases h <;> rfl

/-- The ids of the table stay unique. -/
theorem OutboxEffect.nodup (h : OutboxEffect x jobs jobs')
    (hnodup : (jobs.map (·.id)).Nodup) : (jobs'.map (·.id)).Nodup := by
  cases h with
  | inserted _ _ hnew => exact Sql.nodup_keys_snoc hnodup hnew
  | @moved f hrows _ _ =>
    have hids : (jobs.map f).map (·.id) = jobs.map (·.id) := by
      rw [List.map_map]
      exact List.map_congr_left fun j hj => (hrows j hj).id_eq
    rw [hids]
    exact hnodup

/-- The ids are unique after every history. -/
theorem outboxRun_nodup (h : OutboxRun log jobs) :
    (jobs.map (·.id)).Nodup := by
  induction h with
  | nil => exact List.nodup_nil
  | snoc _ hop ih => exact (OutboxOp.exec_effect ih hop).nodup ih

/-- The rule for an invariant of the table and the journal: it holds for the empty table, and
the effect of every call keeps it. -/
theorem outboxRun_rule {J : List OutboxJob → List OutboxRecord → Prop} (hinit : J [] [])
    (hstep : ∀ (log : List OutboxRecord) (jobs jobs' : List OutboxJob) (x : OutboxRecord),
      OutboxRun log jobs → J jobs log → OutboxEffect x jobs jobs' → J jobs' (log ++ [x]))
    (h : OutboxRun log jobs) : J jobs log :=
  Journal.Run.rule (J := J) hinit (fun log jobs₁ jobs₂ op res hrun hJ hop =>
    hstep log jobs₁ jobs₂ (op, res) hrun hJ
      (OutboxOp.exec_effect (outboxRun_nodup hrun) hop)) h

/-- No job is ever deleted. -/
theorem OutboxEffect.keeps (h : OutboxEffect x jobs jobs')
    (hj : j ∈ jobs) : ∃ j' ∈ jobs', j'.id = j.id := by
  cases h with
  | inserted _ _ _ => exact ⟨j, List.mem_append_left _ hj, rfl⟩
  | @moved f hrows _ _ => exact ⟨f j, List.mem_map_of_mem hj, (hrows j hj).id_eq⟩

/-- A job that was handed out is a row of the table. -/
theorem exists_of_mem_grants (h : OutboxRun log jobs) :
    ∀ g ∈ grants log, ∃ j ∈ jobs, j.id = g.jobId := by
  refine outboxRun_rule (J := fun jobs log => ∀ g ∈ grants log, ∃ j ∈ jobs, j.id = g.jobId)
    (fun _ hg => nomatch hg) ?_ h
  intro log jobs jobs' x _ ih heffect g hg
  have hold : ∃ j ∈ jobs, j.id = g.jobId := by
    rw [grants_append, grants_singleton] at hg
    rcases List.mem_append.mp hg with hg | hg
    · exact ih g hg
    · cases heffect with
      | inserted hgrants _ _ =>
        rw [hgrants] at hg
        cases hg
      | moved _ hgrants _ => exact List.mem_map.mp (hgrants.subset (List.mem_map_of_mem hg))
  obtain ⟨j, hj, hid⟩ := hold
  obtain ⟨j', hj', hid'⟩ := heffect.keeps hj
  exact ⟨j', hj', hid'.trans hid⟩

end

/-! ### The steps of the service -/

/-- The journal entry of a step of a call, after the events `evs` of the call:

- `enqueued`: a use case enqueues a mail;
- `claimed`: a worker claims a batch at the time that it has read;
- `markedSent`, `rescheduled`, `markedDead`: a worker stores a result of a job that it has
  taken, under the lease of the job. -/
inductive Event.Journals (r : Request) (evs : List Event) : Event → OutboxRecord → Prop where
  | enqueued {e i job} (hr : ∀ cfg, r.command ≠ .tick cfg) (hids : e.claimedIds = [])
      (htransition : e.transition = none) : Journals r evs e (.insert i job, .inserted)
  | claimed {p cfg i now jobs} (hr : r = ⟨p, .tick cfg⟩) (hevs : evs = [.clock now]) :
      Journals r evs (.committed (.claimed jobs)) (.claimBatch i cfg now, .claimed jobs)
  | markedSent {p cfg job now lastError persisted} (hr : r = ⟨p, .tick cfg⟩)
      (htook : Took evs job) :
      Journals r evs (.committed (.markedSent job.id job.leaseId persisted))
        (.markSent job.id job.leaseId now lastError, .persisted persisted)
  | rescheduled {p cfg job i nextAt lastError persisted} (hr : r = ⟨p, .tick cfg⟩)
      (htook : Took evs job) :
      Journals r evs (.committed (.rescheduled job.id job.leaseId persisted))
        (.reschedule i job.id job.leaseId nextAt lastError, .persisted persisted)
  | markedDead {p cfg job now lastError persisted} (hr : r = ⟨p, .tick cfg⟩)
      (htook : Took evs job) :
      Journals r evs (.committed (.markedDead job.id job.leaseId persisted))
        (.markDead job.id job.leaseId now lastError, .persisted persisted)

/-- What a step of a call does to the table: nothing, or one successful call of the
repository. -/
inductive OutboxStep (r : Request) (evs : List Event) (e : Event) (jobs : List OutboxJob) :
    List OutboxJob → Prop where
  | quiet (hids : e.claimedIds = []) (htransition : e.transition = none) :
      OutboxStep r evs e jobs jobs
  | called {x jobs'} (hentry : e.Journals r evs x) (hruns : x.1.Runs x.2 jobs jobs') :
      OutboxStep r evs e jobs jobs'

section
variable {app : App} {r : Request} {evs : List Event} {t : TxEvent} {e : Event} {db db' : Db}
  {jobs jobs' : List OutboxJob}

/-- A step that enqueues a job and hands out nothing. -/
theorem OutboxStep.of_insert {i : Input} {toEmail template : Str} {payload : List (Str × Str)}
    {correlationId : Str} (hr : ∀ cfg, r.command ≠ .tick cfg) (hids : e.claimedIds = [])
    (htransition : e.transition = none) (hnew : ∀ j ∈ jobs, j.id ≠ i.newJobId) :
    OutboxStep r evs e jobs (jobs ++ [emailOutboxInsert i.newJobId i.dbNow toEmail template
      payload correlationId]) := by
  have hentry : e.Journals r evs (.insert i ⟨toEmail, template, payload, correlationId⟩,
      .inserted) := .enqueued hr hids htransition
  exact .called hentry (.insert hnew)

/-- A transaction of a use case calls at most one operation of the outbox. -/
theorem commit_outbox (h : Commits app r evs t db db') :
    OutboxStep r evs (.committed t) db.emailOutbox db'.emailOutbox := by
  have hframe := commits_frame h
  cases h with
  | signedUp _ _ htx =>
    obtain ⟨_, _, ⟨_, rfl⟩ | ⟨_, _, hissue⟩⟩ := signUpTx_eq_ok htx
    · exact .quiet rfl rfl
    · obtain ⟨_, _, _, _, rfl, hnew, rfl⟩ := issueCodeTx_eq_ok hissue
      exact .of_insert (fun _ h => nomatch h) rfl rfl hnew
  | verificationResent htx =>
    obtain ⟨_, rfl | ⟨_, _, _, _, hissue⟩⟩ := resendTx_eq_ok htx
    · exact .quiet rfl rfl
    · obtain ⟨_, _, _, _, rfl, hnew, rfl⟩ := issueCodeTx_eq_ok hissue
      exact .of_insert (fun _ h => nomatch h) rfl rfl hnew
  | resetRequested htx =>
    obtain ⟨_, rfl | ⟨_, _, _, _, hissue⟩⟩ := requestResetTx_eq_ok htx
    · exact .quiet rfl rfl
    · obtain ⟨_, _, _, _, rfl, hnew, rfl⟩ := issueResetTx_eq_ok hissue
      exact .of_insert (fun _ h => nomatch h) rfl rfl hnew
  | @claimed p cfg now i jobs _ _ htx =>
    have hop : (OutboxOp.claimBatch i cfg now).tx db = .ok (.claimed jobs, db') :=
      Tx.bind_eq_ok.mpr ⟨_, _, htx, rfl⟩
    exact .called (.claimed rfl rfl) (OutboxOp.runs_of_tx hop)
  | @markedSent _ _ _ _ job now _ _ _ hclaimed hjob htx =>
    cases htx
    exact .called (x := (.markSent job.id job.leaseId now "", _))
      (.markedSent rfl ⟨_, hclaimed, hjob⟩) (.result rfl)
  | @markedDead _ _ _ _ job now error _ _ _ hclaimed hjob _ htx =>
    cases htx
    exact .called (x := (.markDead job.id job.leaseId now error.what, _))
      (.markedDead rfl ⟨_, hclaimed, hjob⟩) (.result rfl)
  | @rescheduled _ cfg _ _ job i error _ _ _ hclaimed hjob _ htx =>
    cases htx
    exact .called (x := (.reschedule i job.id job.leaseId (i.now.plus
        (EmailOutboxProcessor.computeEmailOutboxRetryDelay job.attempts cfg)) error.what, _))
      (.rescheduled rfl ⟨_, hclaimed, hjob⟩) (.result rfl)
  | _ =>
    rw [hframe.outbox rfl]
    exact .quiet rfl rfl

/-- A step of a call calls at most one operation of the outbox. -/
theorem step_outbox (h : ProtocolStep app r evs e db db') :
    OutboxStep r evs e db.emailOutbox db'.emailOutbox := by
  cases h with
  | aborted hab =>
    cases e <;> first | exact .quiet rfl rfl | cases hab
  | read hread => cases hread <;> exact .quiet rfl rfl
  | committed hcommit => exact commit_outbox hcommit

/-- The jobs that a step hands out are the grants of its entry. -/
theorem Event.Journals.grants_eq {x : OutboxRecord} (h : e.Journals r evs x) :
    x.grants.map (·.jobId) = e.claimedIds := by
  cases h with
  | enqueued _ hids _ => exact hids.symm
  | claimed _ _ => simp [OutboxRecord.grants, Event.claimedIds]
  | _ => rfl

/-- The result that an entry has stored, in the event of its step. -/
theorem Event.Journals.transition_eq {op : OutboxOp} {persisted : Bool}
    (h : e.Journals r evs (op, .persisted persisted)) :
    ∃ id leaseId status, op.lease = some (id, leaseId) ∧
      e.transition = if persisted then some (id, leaseId, status) else none := by
  cases h with
  | markedSent => exact ⟨_, _, .sent, rfl, by cases persisted <;> rfl⟩
  | rescheduled => exact ⟨_, _, .pending, rfl, by cases persisted <;> rfl⟩
  | markedDead => exact ⟨_, _, .dead, rfl, by cases persisted <;> rfl⟩

/-- The effect of a step. -/
theorem OutboxStep.effect (h : OutboxStep r evs e jobs jobs') (hnodup : (jobs.map (·.id)).Nodup) :
    (jobs' = jobs ∧ e.claimedIds = []) ∨
      ∃ x, e.Journals r evs x ∧ OutboxEffect x jobs jobs' := by
  cases h with
  | quiet hids _ => exact .inl ⟨rfl, hids⟩
  | called hentry hruns =>
    exact .inr ⟨_, hentry, OutboxOp.exec_effect hnodup (OutboxOp.exec_of_runs hruns)⟩

/-- The ids of the table stay unique. -/
theorem OutboxStep.nodup (h : OutboxStep r evs e jobs jobs') (hnodup : (jobs.map (·.id)).Nodup) :
    (jobs'.map (·.id)).Nodup := by
  rcases h.effect hnodup with ⟨rfl, _⟩ | ⟨_, _, heffect⟩
  · exact hnodup
  · exact heffect.nodup hnodup

/-- No job is ever deleted. -/
theorem OutboxStep.keeps (h : OutboxStep r evs e jobs jobs') (hnodup : (jobs.map (·.id)).Nodup)
    {j : OutboxJob} (hj : j ∈ jobs) : ∃ j' ∈ jobs', j'.id = j.id := by
  rcases h.effect hnodup with ⟨rfl, _⟩ | ⟨_, _, heffect⟩
  · exact ⟨j, hj, rfl⟩
  · exact heffect.keeps hj

/-- Only jobs of the table are handed out. -/
theorem OutboxStep.claimed_mem (h : OutboxStep r evs e jobs jobs')
    (hnodup : (jobs.map (·.id)).Nodup) {id : Uuid} (hid : id ∈ e.claimedIds) :
    ∃ j ∈ jobs, j.id = id := by
  rcases h.effect hnodup with ⟨_, hnone⟩ | ⟨x, hentry, heffect⟩
  · rw [hnone] at hid
    cases hid
  · rw [← hentry.grants_eq] at hid
    cases heffect with
    | inserted hgrants _ _ =>
      rw [hgrants] at hid
      cases hid
    | moved _ hgrants _ => exact List.mem_map.mp (hgrants.subset hid)

/-- Where a row of the table comes from, after a step of a call:

- `same`: it was there, and the step has not handed it out;
- `enqueued`: it is the row of a new job;
- `claimed`: a worker has taken the job, which was due at the time that the worker has read;
- `stored`: a worker has stored a result of a job that it has taken, and the row held the lease
  of the job. -/
inductive RowStep (r : Request) (evs : List Event) (e : Event) (jobs : List OutboxJob)
    (j' : OutboxJob) : Prop where
  | same (hj : j' ∈ jobs) (hids : j'.id ∉ e.claimedIds)
  | enqueued (hnew : ∀ j ∈ jobs, j.id ≠ j'.id) (hids : e.claimedIds = [])
      (hstatus : j'.status = .pending) (hattempts : j'.attempts = 0)
  | claimed {p cfg i now j} (hr : r = ⟨p, .tick cfg⟩) (hevs : evs = [.clock now])
      (hj : j ∈ jobs) (hids : j.id ∈ e.claimedIds)
      (hdue : j.claimable now.timePointTz cfg.maxAttempts = true)
      (hrow : j' = j.handOut i cfg now)
  | stored {p cfg job j} (hr : r = ⟨p, .tick cfg⟩) (htook : Took evs job) (hj : j ∈ jobs)
      (hleased : j.leasedBy job.id job.leaseId = true) (hids : e.claimedIds = [])
      (hid : j'.id = j.id) (hattempts : j'.attempts = j.attempts)
      (he : e.transition = some (job.id, job.leaseId, j'.status))

/-- A row that an operation has moved. -/
theorem OutboxJob.Moves.rowStep {x : OutboxRecord} {j j' : OutboxJob} (h : j.Moves x j')
    (hj : j ∈ jobs) (hentry : e.Journals r evs x) : RowStep r evs e jobs j' := by
  cases h with
  | idle hgrant _ =>
    refine .same hj fun hid => ?_
    rw [← hentry.grants_eq] at hid
    obtain ⟨g, hg, hgid⟩ := List.mem_map.mp hid
    exact hgrant g hg hgid
  | claimed hgrant hdue =>
    have hid : j.id ∈ e.claimedIds := by
      rw [← hentry.grants_eq]
      exact List.mem_map.mpr ⟨_, hgrant, rfl⟩
    cases hentry with
    | claimed hr hevs => exact .claimed hr hevs hj hid hdue rfl
  | sent hleased =>
    cases hentry with
    | markedSent hr htook => exact .stored hr htook hj hleased rfl rfl rfl rfl
  | rescheduled hleased =>
    cases hentry with
    | rescheduled hr htook => exact .stored hr htook hj hleased rfl rfl rfl rfl
  | dead hleased =>
    cases hentry with
    | markedDead hr htook => exact .stored hr htook hj hleased rfl rfl rfl rfl

/-- Every row after a step. -/
theorem OutboxStep.row (h : OutboxStep r evs e jobs jobs') (hnodup : (jobs.map (·.id)).Nodup)
    {j' : OutboxJob} (hj' : j' ∈ jobs') : RowStep r evs e jobs j' := by
  rcases h.effect hnodup with ⟨rfl, hnone⟩ | ⟨x, hentry, heffect⟩
  · exact .same hj' (by simp [hnone])
  · cases heffect with
    | inserted hgrants _ hnew =>
      have hids : e.claimedIds = [] := by rw [← hentry.grants_eq, hgrants, List.map_nil]
      rcases List.mem_append.mp hj' with hj | hj
      · exact .same hj (by simp [hids])
      · rw [List.mem_singleton.mp hj]
        exact .enqueued hnew hids rfl rfl
    | moved hrows _ _ =>
      obtain ⟨j, hj, rfl⟩ := List.mem_map.mp hj'
      exact (hrows j hj).rowStep hj hentry

/-- What a claim returns: the new version of a row that was due, under the new lease. -/
theorem OutboxStep.entry {entries : List EmailOutboxEntry}
    (h : OutboxStep r evs (.committed (.claimed entries)) jobs jobs')
    (hnodup : (jobs.map (·.id)).Nodup) {entry : EmailOutboxEntry} (hentry : entry ∈ entries) :
    ∃ p cfg i now, r = ⟨p, .tick cfg⟩ ∧ evs = [.clock now] ∧ ∃ j ∈ jobs,
      j.claimable now.timePointTz cfg.maxAttempts = true ∧ j.handOut i cfg now ∈ jobs' ∧
      entry = (j.handOut i cfg now).toEntry (i.leaseId j.id) := by
  cases h with
  | quiet hids _ =>
    have hnil : entries = [] := List.map_eq_nil_iff.mp hids
    rw [hnil] at hentry
    cases hentry
  | called hjournal hruns =>
    cases hjournal with
    | enqueued _ hids _ =>
      have hnil : entries = [] := List.map_eq_nil_iff.mp hids
      rw [hnil] at hentry
      cases hentry
    | @claimed p cfg i now _ hr hevs =>
      generalize hres : OutboxResult.claimed entries = res at hruns
      cases hruns with
      | claimBatch _ =>
        cases hres
        obtain ⟨j, hj, rfl⟩ := List.mem_map.mp hentry
        obtain ⟨hmem, hcond⟩ := List.mem_filter.mp hj
        have hcandidate : j.id ∈ emailOutboxCandidates cfg.batchSize now.timePointTz
            cfg.maxAttempts jobs := List.contains_iff_mem.mp hcond
        obtain ⟨k, hk, hid, hdue⟩ := mem_emailOutboxCandidates hcandidate
        have hkj : k = j := List.inj_on_of_nodup_map hnodup hk hmem hid
        subst hkj
        refine ⟨p, cfg, i, now, hr, hevs, k, hmem, hdue, ?_, rfl⟩
        rw [← claimOf_set i cfg now jobs, ← Update.apply_pos hcond]
        exact Update.apply_mem_run hmem
      | result hop => cases hop

end

/-! ### The histories of the service -/

section
variable {app : App} {start : Request → Prop} {act : SysState → Nat → Event → Prop}
  {s : SysState}

/-- In every reachable state of the service, the table is the result of a history of
operations, and the jobs that the history grants are those that the workers took. -/
theorem outboxRun_of_reachable (hs : Reachable app.run (admission start act) Seed s) :
    ∃ log, OutboxRun log s.store.emailOutbox ∧
      (grants log).map (·.jobId) = s.trace.flatMap fun p => p.2.claimedIds := by
  refine Reachable.invariant (A := admission start act) (J := fun db tr => ∃ log,
    OutboxRun log db.emailOutbox ∧
      (grants log).map (·.jobId) = tr.flatMap fun p => p.2.claimedIds) (app_refines app)
    (fun db hseed => ?_) (fun s db c r e hJ _ _ hstep => ?_) hs
  · rw [hseed.emailOutbox]
    exact ⟨[], .nil, rfl⟩
  · obtain ⟨log, hrun, hgrants⟩ := hJ
    rw [List.flatMap_append, List.flatMap_singleton]
    generalize hrows : db.emailOutbox = rows
    have hcalled := step_outbox hstep
    rw [hrows] at hcalled
    cases hcalled with
    | quiet hids _ =>
      rw [hids, List.append_nil]
      exact ⟨log, hrun, hgrants⟩
    | @called x _ hentry hruns =>
      refine ⟨log ++ [x], hrun.snoc (OutboxOp.exec_of_runs hruns), ?_⟩
      rw [grants_append, grants_singleton, List.map_append, hgrants, hentry.grants_eq]

/-- The ids of the table are unique in every reachable state. -/
theorem outboxIds_of_reachable (hs : Reachable app.run (admission start act) Seed s) :
    (s.store.emailOutbox.map (·.id)).Nodup := by
  obtain ⟨log, hrun, _⟩ := outboxRun_of_reachable hs
  exact outboxRun_nodup hrun

end

end SmirklyAuth
