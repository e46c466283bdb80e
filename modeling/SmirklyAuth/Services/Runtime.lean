import SmirklyAuth.Infra.Sql.Attempts
import SmirklyAuth.Lib.Resumption
import SmirklyAuth.Services.Contracts
import SmirklyAuth.Services.Errors

/-!
# `SmirklyAuth.Services.Runtime`: use cases as resumptions over the database

A use case is a `Service`: a resumption whose store is the database. Each call of a port
is one atomic step (`port`), and so is each transaction from `Begin` to `Commit`
(`transaction`). Everything between two steps is local to the call.

`Input` is what the environment adds to a step: clock readings, generated values, the
answer of the mail server, and `fault`, the exception of a port or of `Commit` that is no
part of the service. A step with a fault leaves the database as it was and throws.

`Event` records what a step did and what the rest of the call saw of it.
-/

set_option autoImplicit false

namespace SmirklyAuth

open Interleaving (Prog)

/-- What the environment contributes to one step. -/
structure Input where
  /-- `std::chrono::system_clock::now()`. -/
  now : Time := 0
  /-- A second reading of the clock in the same step. -/
  laterNow : Time := 0
  /-- `NOW()`, the start of the transaction. -/
  dbNow : Time := 0
  /-- `IdGenerator::Generate()`. -/
  generatedId : Uuid := ⟨0⟩
  /-- The default `gen_random_uuid()` of `users.id`. -/
  newUserId : Uuid := ⟨0⟩
  /-- The default of `devices.id`. -/
  newDeviceId : Uuid := ⟨0⟩
  /-- The default of `email_verifications.id` and of `password_resets.id`. -/
  newCodeId : Uuid := ⟨0⟩
  /-- The default of `email_outbox.id`. -/
  newJobId : Uuid := ⟨0⟩
  /-- `gen_random_uuid()` for each row that `email_outbox_claim_batch` updates. -/
  leaseId : Uuid → Uuid := id
  /-- `VerificationCodeGenerator::Generate()` or `TokenGenerator::Generate()`. -/
  secret : Str := []
  /-- The salt of a password hash. -/
  salt : Str := []
  /-- The table `users` as a read on a standby server sees it. -/
  standbyUsers : List User := []
  /-- The `EmailDeliveryError` of the email sender, if it throws one. -/
  deliveryError : Option (Str × Bool) := none
  /-- The `what()` of an exception that the environment causes. -/
  fault : Option Str := none

/-- `EmailOutboxDeliveryOutcome`. -/
inductive DeliveryOutcome where
  | sent | retryScheduled | dead | leaseLost
  deriving DecidableEq, Repr

/-- `EmailOutboxErrorStage`. -/
inductive ErrorStage where
  | claim | persist
  deriving DecidableEq, Repr

/-- The committed transactions, each with the rows it is about. -/
inductive TxEvent where
  | signUpAttempt
  | signedUp (userId : Uuid)
  | verificationAttempt
  | codeRejected (id : Uuid)
  | emailVerified (id userId : Uuid)
  | verificationResent
  | signInAttempt (identifier : Str) (now : Time)
  | signedIn (sessionId : Uuid)
  | reuseDetected (userId familyId : Uuid)
  | rotated (sessionId replacementId : Uuid)
  | sessionActivity (sessionId : Uuid)
  | revoked (sessionId : Uuid)
  | revokedAll (userId : Uuid)
  | passwordChanged (userId : Uuid) (hash : Str)
  | resetRequested
  | resetAttempt
  | tokenRejected (id : Uuid)
  | resetConfirmed (id userId : Uuid) (hash : Str)
  | claimed (jobs : List EmailOutboxEntry)
  | markedSent (id leaseId : Uuid) (persisted : Bool)
  | markedDead (id leaseId : Uuid) (persisted : Bool)
  | rescheduled (id leaseId : Uuid) (persisted : Bool)
  deriving DecidableEq, Repr

/-- The event of a step. -/
inductive Event where
  | clock (now : Time)
  | generatedId (id : Uuid)
  | hashedPassword (hash : Str)
  | verifiedPassword (hash : Str) (ok : Bool)
  | generatedTokens (tokens : AuthTokens)
  | hashedToken (hash : Str)
  | verifiedToken (ok : Bool)
  | parsedRefreshToken (now : Time) (claims : Option RefreshTokenClaims)
  | parsedAccessToken (now : Time) (claims : Option AccessTokenClaims)
  | verifiedCode (id : Uuid) (ok : Bool)
  | verifiedResetToken (id : Uuid) (ok : Bool)
  | userExists (answer : Bool)
  | foundUser (user : Option User)
  | foundSession (session : Option Session)
  | listedSessions (sessions : List Session)
  | countedAttempts (counters : Option AttemptCounters)
  | foundVerification (row : Option OneTimeCode)
  | foundReset (row : Option OneTimeCode)
  | sentEmail (jobId : Uuid) (message : EmailMessage) (now : Time) (error : Option (Str × Bool))
  | deliveryOutcome (outcome : DeliveryOutcome)
  | outboxError (stage : ErrorStage)
  | committed (tx : TxEvent)
  | rolledBack (error : Error)
  | failed (what : Str)
  deriving DecidableEq, Repr

/-- The events of steps that end with an exception and leave the database as it was. -/
def Event.aborts : Event → Bool
  | .rolledBack _ => true
  | .failed _ => true
  | _ => false

/-- A use case. -/
abbrev Service := Prog Db Input Event Error

/-- The statements of one transaction. -/
abbrev Tx := StateT Db (Except Error)

namespace Service

variable {α : Type}

/-- One call of a port that only reads the database. -/
def port (event : α → Event) (f : Input → Db → α) : Service α :=
  .act
    (fun i db => match i.fault with
      | some what => (.failed what, db)
      | none => (event (f i db), db))
    (fun i db => match i.fault with
      | some what => .raise (.runtimeError what)
      | none => .done (f i db))

/-- `Begin`, the statements of `tx` and `Commit`. A transaction that throws before `Commit`
is rolled back. -/
def transaction (event : α → TxEvent) (tx : Input → Tx α) : Service α :=
  .act
    (fun i db => match i.fault with
      | some what => (.failed what, db)
      | none => match tx i db with
        | .ok (a, db') => (.committed (event a), db')
        | .error x => (.rolledBack x, db))
    (fun i db => match i.fault with
      | some what => .raise (.runtimeError what)
      | none => match tx i db with
        | .ok (a, _) => .done a
        | .error x => .raise x)

/-- A call of a `noexcept` port that only reports. -/
def report (event : Event) : Service Unit := .act (fun _ db => (event, db)) fun _ _ => .done ()

/-- `if (cond) throw error;`. -/
def throwIf (cond : Bool) (error : Error) : Service Unit :=
  if cond then throw error else pure ()

/-- `if (!value) throw error;`, and the value after it. -/
def orThrow (value : Option α) (error : Error) : Service α :=
  match value with
  | some a => pure a
  | none => throw error

/-- The result of a validator, or its exception. -/
def validated (value : Except Error α) : Service α :=
  match value with
  | .ok a => pure a
  | .error error => throw error

/-- `std::chrono::system_clock::now()`. -/
def clock : Service Time := port .clock fun i _ => i.now

end Service

/-- `if (!cond) throw error;` inside a transaction. -/
def Tx.require (cond : Bool) (error : Error) : Tx Unit :=
  if cond then pure () else throw error

end SmirklyAuth
