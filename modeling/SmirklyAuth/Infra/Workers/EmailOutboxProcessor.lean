import SmirklyAuth.Infra.Repositories

/-!
# `SmirklyAuth.Infra.Workers.EmailOutboxProcessor`: the outbox worker

One run of `EmailOutboxProcessor::Tick`, with the configuration that the provider returned
at its start. A worker that crashes is a `Tick` that takes no further step.
-/

set_option autoImplicit false

namespace SmirklyAuth

open Service

namespace EmailOutboxProcessor

/-- `ShouldMarkEmailOutboxDead`. -/
def shouldMarkEmailOutboxDead (attempt maxAttempts : Nat) (retryable : Bool) : Bool :=
  !retryable || maxAttempts ≤ attempt

/-- `ComputeEmailOutboxRetryDelay`. The product is one of two `long long` values. -/
def computeEmailOutboxRetryDelay (attempt : Nat) (cfg : EmailOutboxRuntimeConfig) : Seconds :=
  let exponent := if attempt = 0 then 0 else attempt - 1
  let pow2 : Nat := if 30 ≤ exponent then 2 ^ 30 else 2 ^ exponent
  let delay := SignedWord.wrap 64 (cfg.retryBaseDelay * pow2)
  min delay cfg.retryMaxDelay

/-- The message of a job: the template selects the members of the payload. -/
def parseMessage (job : EmailOutboxEntry) : Except Error EmailMessage :=
  let locale := (job.payload.lookup (lit "locale")).getD "ru"
  if job.templateName = lit "verification_code" then
    match job.payload.lookup (lit "code") with
    | some code => .ok (.verification
        { toEmail := job.toEmail, code, correlationId := job.correlationId, locale })
    | none => .error (.emailDelivery "invalid verification email outbox payload" false)
  else if job.templateName = lit "password_reset" then
    match job.payload.lookup (lit "token") with
    | some token => .ok (.passwordReset
        { toEmail := job.toEmail, token, correlationId := job.correlationId, locale })
    | none => .error (.emailDelivery "invalid password reset email outbox payload" false)
  else .error (.emailDelivery (lit "unknown email outbox template: " ++ job.templateName) false)

/-- `SendVerificationEmail` or `SendPasswordResetEmail`. -/
def send (job : EmailOutboxEntry) (message : EmailMessage) : Service Unit := do
  let answer ← port (fun r => .sentEmail job.id message r.1 r.2) fun i _ =>
    (i.now, i.deliveryError)
  match answer.2 with
  | none => pure ()
  | some (what, retryable) => throw (.emailDelivery what retryable)

/-- The body of the outer `try` for one job. -/
def deliver (job : EmailOutboxEntry) : Service Unit := do
  let message ← validated (parseMessage job)
  send job message
  let persisted ← transaction (.markedSent job.id job.leaseId) fun i =>
    EmailOutboxRepository.markSent job.id job.leaseId i.now ""
  report (.deliveryOutcome (if persisted then .sent else .leaseLost))

/-- `IsRetryable` of an `EmailDeliveryError`; every other exception is retryable. -/
def isRetryable : Error → Bool
  | .emailDelivery _ retryable => retryable
  | _ => true

/-- The body of the inner `try`: store the failure `e` of a job. -/
def persistFailure (cfg : EmailOutboxRuntimeConfig) (job : EmailOutboxEntry) (e : Error) :
    Service Unit :=
  if shouldMarkEmailOutboxDead job.attempts cfg.maxAttempts (isRetryable e) then do
    let persisted ← transaction (.markedDead job.id job.leaseId) fun i =>
      EmailOutboxRepository.markDead job.id job.leaseId i.now e.what
    report (.deliveryOutcome (if persisted then .dead else .leaseLost))
  else do
    let persisted ← transaction (.rescheduled job.id job.leaseId) fun i =>
      EmailOutboxRepository.reschedule i job.id job.leaseId
        (i.now.plus (computeEmailOutboxRetryDelay job.attempts cfg)) e.what
    report (.deliveryOutcome (if persisted then .retryScheduled else .leaseLost))

/-- The loop body of `Tick`. -/
def processJob (cfg : EmailOutboxRuntimeConfig) (job : EmailOutboxEntry) : Service Unit :=
  tryCatchThe Error (deliver job) fun e =>
    tryCatchThe Error (persistFailure cfg job e) fun _ => report (.outboxError .persist)

/-- The loop of `Tick`. -/
def processBatch (cfg : EmailOutboxRuntimeConfig) : List EmailOutboxEntry → Service Unit
  | [] => pure ()
  | job :: batch => do
      processJob cfg job
      processBatch cfg batch

/-- The claim of `Tick`: the batch, or `none` when the transaction throws. -/
def claim (cfg : EmailOutboxRuntimeConfig) (now : Time) :
    Service (Option (List EmailOutboxEntry)) :=
  tryCatchThe Error
    (do
      let batch ← transaction .claimed fun i => EmailOutboxRepository.claimBatch i cfg now
      return some batch)
    fun _ => do
      report (.outboxError .claim)
      return none

/-- `Tick`. -/
def tick (cfg : EmailOutboxRuntimeConfig) : Service Unit :=
  if cfg.processingEnabled then do
    let now ← clock
    let batch? ← claim cfg now
    match batch? with
    | none => pure ()
    | some batch => processBatch cfg batch
  else pure ()

end EmailOutboxProcessor

end SmirklyAuth
