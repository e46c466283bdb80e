import Mathlib.Data.List.Sort
import SmirklyAuth.Domain.Models
import SmirklyAuth.Lib.Update

/-!
# `SmirklyAuth.Infra.Sql.EmailOutbox`: the statements of `sql/auth/*/email_outbox`

`emailOutboxClaimBatch` selects the due jobs whose attempts are below the limit and whose
lease, if any, has run out, and hands out the first `batch_size` of them under new leases.
The three result statements require the lease id that the claim handed out.
-/

set_option autoImplicit false

namespace SmirklyAuth

open Sql (Update)

/-- The `WHERE` clause of the common table expression `candidates`. -/
def OutboxJob.claimable (now : Time) (maxAttempts : Nat) (j : OutboxJob) : Bool :=
  (j.status == .pending || j.status == .processing) && j.nextAttemptAt ≤ now &&
    (j.attempts : Int) < toInt32 maxAttempts && j.lockedUntil.all fun until_ => until_ ≤ now

/-- `ORDER BY next_attempt_at ASC, created_at ASC`. -/
def OutboxJob.claimOrder (a b : OutboxJob) : Bool :=
  a.nextAttemptAt < b.nextAttemptAt ||
    (a.nextAttemptAt == b.nextAttemptAt && a.createdAt ≤ b.createdAt)

/-- The common table expression `candidates`: the ids of the jobs to claim, in order. A
negative `LIMIT` is an error of the statement. -/
def emailOutboxCandidates (batchSize : Nat) (now : Time) (maxAttempts : Nat)
    (jobs : List OutboxJob) : List Uuid :=
  (((jobs.filter (·.claimable now maxAttempts)).insertionSort
    fun a b => a.claimOrder b = true).take (toInt32 batchSize).toNat).map (·.id)

/-- The `UPDATE` of `email_outbox_claim_batch` on the candidate ids. `lease` is the value
of `gen_random_uuid()` for each row. -/
def emailOutboxClaim (ids : List Uuid) (now lockUntil : Time) (lease : Uuid → Uuid) :
    Update OutboxJob where
  cond j := ids.contains j.id
  set j := { j with
    status := .processing
    lockedUntil := some lockUntil
    leaseId := some (lease j.id)
    attempts := j.attempts + 1
    updatedAt := now
    lastError := none }

/-- `email_outbox_insert`: the columns that the statement does not name take their
defaults. -/
def emailOutboxInsert (id : Uuid) (now : Time) (toEmail template : Str)
    (payload : List (Str × Str)) (correlationId : Str) : OutboxJob where
  id := id
  toEmail := toEmail
  template := template
  payload := payload
  correlationId := correlationId
  nextAttemptAt := now
  createdAt := now
  updatedAt := now

/-- The condition of the three result statements. -/
def OutboxJob.leasedBy (id leaseId : Uuid) (j : OutboxJob) : Bool :=
  j.id == id && j.leaseId == some leaseId && j.status == .processing

/-- `email_outbox_mark_sent`. -/
def emailOutboxMarkSent (id leaseId : Uuid) (lastError : Str) (now : Time) :
    Update OutboxJob where
  cond j := j.leasedBy id leaseId
  set j := { j with
    status := .sent
    payload := []
    lockedUntil := none
    leaseId := none
    lastError := some lastError
    updatedAt := now }

/-- `email_outbox_reschedule`. -/
def emailOutboxReschedule (id leaseId : Uuid) (nextAt : Time) (lastError : Str)
    (now : Time) : Update OutboxJob where
  cond j := j.leasedBy id leaseId
  set j := { j with
    status := .pending
    nextAttemptAt := nextAt
    lockedUntil := none
    leaseId := none
    lastError := some lastError
    updatedAt := now }

/-- `email_outbox_mark_dead`. -/
def emailOutboxMarkDead (id leaseId : Uuid) (lastError : Str) (now : Time) :
    Update OutboxJob where
  cond j := j.leasedBy id leaseId
  set j := { j with
    status := .dead
    payload := []
    lockedUntil := none
    leaseId := none
    lastError := some lastError
    updatedAt := now }

end SmirklyAuth
