import SmirklyAuth.Config.AuthDynamicConfig
import SmirklyAuth.Infra.Workers.EmailOutboxProcessor

/-!
# `SmirklyAuth.Proofs.SqlLimits`: the limits that reach the statements

The services hold a limit as a `std::size_t`, and the parser accepts every value below
`2 ^ 63`. Eight calls cast a limit to a signed 32-bit parameter of a statement: two in
`ClaimBatch`, and one in each of `FindActiveByUserId`, `MarkUsed` and `IncrementAttempts` of the
two repositories of codes. `ConfiguredLimits` says that the cast changes none of them, and that
the statements select the rows that the configured limits name. `configuredLimits_iff` says for
which configurations this is so.

The comparison of the worker (`ShouldMarkEmailOutboxDead`) has no cast. So above `2 ^ 31` the
statement and the worker disagree on the same limit.
-/

set_option autoImplicit false

namespace SmirklyAuth

open EmailOutboxProcessor (shouldMarkEmailOutboxDead)

/-- The cast to `int`, as that of the library. -/
theorem toInt32_eq_wrap (n : Nat) : toInt32 n = SignedWord.wrap 32 n := by
  rw [toInt32, SignedWord.wrap, BitVec.ofInt_natCast]

/-- The cast keeps exactly the numbers below `2 ^ 31`. -/
theorem toInt32_eq_iff (n : Nat) : toInt32 n = n ↔ n < 2 ^ 31 := by
  rw [toInt32_eq_wrap, SignedWord.wrap_eq_self_iff]
  unfold SignedWord.Fits
  omega

/-! ### The rows that a configured limit names -/

/-- The job is due and has fewer attempts than the configured number. -/
def OutboxJob.dueBelow (now : Time) (maxAttempts : Nat) (j : OutboxJob) : Bool :=
  (j.status == .pending || j.status == .processing) && j.nextAttemptAt ≤ now &&
    j.attempts < maxAttempts && j.lockedUntil.all fun until_ => until_ ≤ now

/-- The first `batchSize` jobs that are due and below the limit, in the order of the claim. -/
def configuredCandidates (batchSize : Nat) (now : Time) (maxAttempts : Nat)
    (jobs : List OutboxJob) : List Uuid :=
  (((jobs.filter (·.dueBelow now maxAttempts)).insertionSort
    fun a b => a.claimOrder b = true).take batchSize).map (·.id)

/-- The code is unused, not expired, and has fewer attempts than the configured number. -/
def OneTimeCode.openBelow (now : Time) (maxAttempts : Nat) (r : OneTimeCode) : Bool :=
  r.usedAt.isNone && now < r.expiresAt && r.attempts < maxAttempts

/-- The integers that are bound are the configured ones, and the statements select the rows
that the configured limits name. `active` is the condition that the lookup of a code and its
two conditional updates share. -/
structure ConfiguredLimits (runtime : AuthRuntimePolicies) (cfg : EmailOutboxRuntimeConfig) :
    Prop where
  batchSize : toInt32 cfg.batchSize = cfg.batchSize
  maxAttempts : toInt32 cfg.maxAttempts = cfg.maxAttempts
  maxCodeAttempts : toInt32 runtime.emailVerification.maxCodeAttempts
    = runtime.emailVerification.maxCodeAttempts
  maxTokenAttempts : toInt32 runtime.passwordReset.maxTokenAttempts
    = runtime.passwordReset.maxTokenAttempts
  claimable : ∀ now j, OutboxJob.claimable now cfg.maxAttempts j = j.dueBelow now cfg.maxAttempts
  candidates : ∀ now jobs, emailOutboxCandidates cfg.batchSize now cfg.maxAttempts jobs
    = configuredCandidates cfg.batchSize now cfg.maxAttempts jobs
  codes : ∀ now r, OneTimeCode.active now runtime.emailVerification.maxCodeAttempts r
    = r.openBelow now runtime.emailVerification.maxCodeAttempts
  tokens : ∀ now r, OneTimeCode.active now runtime.passwordReset.maxTokenAttempts r
    = r.openBelow now runtime.passwordReset.maxTokenAttempts
  /-- After a failed delivery that may be repeated, the worker gives a job up exactly when the
  statement would not select it again. -/
  dead : ∀ attempts : Nat, shouldMarkEmailOutboxDead attempts cfg.maxAttempts true = false ↔
    (attempts : Int) < toInt32 cfg.maxAttempts

/-! ### Below `2 ^ 31` -/

section

variable {n : Nat}

/-- The comparison after the cast. -/
theorem lt_toInt32_iff (h : n < 2 ^ 31) (attempts : Nat) :
    (attempts : Int) < toInt32 n ↔ attempts < n := by
  rw [(toInt32_eq_iff n).mpr h]
  omega

/-- The jobs that the statement claims are those below the configured limit. -/
theorem claimable_eq_dueBelow (h : n < 2 ^ 31) (now : Time) (j : OutboxJob) :
    j.claimable now n = j.dueBelow now n := by
  have hlt : decide ((j.attempts : Int) < toInt32 n) = decide (j.attempts < n) :=
    decide_eq_decide.mpr (lt_toInt32_iff h j.attempts)
  rw [OutboxJob.claimable, OutboxJob.dueBelow, hlt]

/-- The codes that the statement finds are those below the configured limit. -/
theorem active_eq_openBelow (h : n < 2 ^ 31) (now : Time) (r : OneTimeCode) :
    r.active now n = r.openBelow now n := by
  have hlt : decide ((r.attempts : Int) < toInt32 n) = decide (r.attempts < n) :=
    decide_eq_decide.mpr (lt_toInt32_iff h r.attempts)
  rw [OneTimeCode.active, OneTimeCode.openBelow, hlt]

/-- The batch of the statement is the configured one. -/
theorem candidates_eq_configured {batchSize : Nat} (hbatch : batchSize < 2 ^ 31)
    (h : n < 2 ^ 31) (now : Time) (jobs : List OutboxJob) :
    emailOutboxCandidates batchSize now n jobs = configuredCandidates batchSize now n jobs := by
  have hfilter : jobs.filter (·.claimable now n) = jobs.filter (·.dueBelow now n) :=
    List.filter_congr fun j _ => claimable_eq_dueBelow h now j
  have hlimit : (toInt32 batchSize).toNat = batchSize := by
    rw [(toInt32_eq_iff batchSize).mpr hbatch, Int.toNat_natCast]
  rw [emailOutboxCandidates, configuredCandidates, hfilter, hlimit]

/-- A job is kept when the next claim can take it. -/
theorem shouldMarkDead_iff_lt (h : n < 2 ^ 31) (attempts : Nat) :
    shouldMarkEmailOutboxDead attempts n true = false ↔ (attempts : Int) < toInt32 n := by
  rw [lt_toInt32_iff h]
  simp [shouldMarkEmailOutboxDead]

end

/-! ### The main result -/

/-- The statements see the configured limits exactly when all four are below `2 ^ 31`. -/
theorem configuredLimits_iff (runtime : AuthRuntimePolicies) (cfg : EmailOutboxRuntimeConfig) :
    ConfiguredLimits runtime cfg ↔
      cfg.batchSize < 2 ^ 31 ∧ cfg.maxAttempts < 2 ^ 31 ∧
        runtime.emailVerification.maxCodeAttempts < 2 ^ 31 ∧
        runtime.passwordReset.maxTokenAttempts < 2 ^ 31 := by
  constructor
  · intro h
    exact ⟨(toInt32_eq_iff _).mp h.batchSize, (toInt32_eq_iff _).mp h.maxAttempts,
      (toInt32_eq_iff _).mp h.maxCodeAttempts, (toInt32_eq_iff _).mp h.maxTokenAttempts⟩
  · rintro ⟨hbatch, hattempts, hcode, htoken⟩
    exact
      { batchSize := (toInt32_eq_iff _).mpr hbatch
        maxAttempts := (toInt32_eq_iff _).mpr hattempts
        maxCodeAttempts := (toInt32_eq_iff _).mpr hcode
        maxTokenAttempts := (toInt32_eq_iff _).mpr htoken
        claimable := claimable_eq_dueBelow hattempts
        candidates := candidates_eq_configured hbatch hattempts
        codes := active_eq_openBelow hcode
        tokens := active_eq_openBelow htoken
        dead := shouldMarkDead_iff_lt hattempts }

/-- A configuration with a limit of `2 ^ 32` attempts. -/
def manyAttempts : EmailOutboxRuntimeJson where
  members field := if field = lit "max_attempts" then some 4294967296 else none

/-- A job that is due. -/
def dueJob : OutboxJob where
  id := ⟨1⟩
  toEmail := "unit@example.com"
  template := "verification_code"
  payload := []
  correlationId := []
  nextAttemptAt := 0
  createdAt := 0
  updatedAt := 0

/-- It is accepted, the statement gets a limit of zero attempts, and no job is ever claimed,
while the worker would not give the job up. -/
theorem configuredLimits_truncated :
    let cfg : EmailOutboxRuntimeConfig := { maxAttempts := 4294967296 }
    parseEmailOutboxRuntimeConfig manyAttempts = .ok cfg ∧ toInt32 cfg.maxAttempts = 0 ∧
      dueJob.dueBelow 0 cfg.maxAttempts = true ∧
      emailOutboxCandidates cfg.batchSize 0 cfg.maxAttempts [dueJob] = [] ∧
      configuredCandidates cfg.batchSize 0 cfg.maxAttempts [dueJob] = [dueJob.id] ∧
      shouldMarkEmailOutboxDead dueJob.attempts cfg.maxAttempts true = false := by
  refine ⟨by rfl, by decide +kernel, by decide +kernel, by decide +kernel, by decide +kernel, ?_⟩
  decide +kernel

end SmirklyAuth
