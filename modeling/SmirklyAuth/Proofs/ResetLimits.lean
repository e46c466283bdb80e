import Mathlib.Data.Finset.Card
import SmirklyAuth.Protocol.ResetLimiter
import SmirklyAuth.System

/-!
# `SmirklyAuth.Proofs.ResetLimits`: when the reset limiter tells that an account exists

A row of `password_reset_attempts` counts against the email address, against the account of
the address if there is one, and against the client address. A caller who sees which calls
are limited can tell whether the account exists as soon as the limit per account is reached
before the limit per address.

* `requestOutcomes_eq_of_hidesAccounts`: with no limit per account, or with a limit per
  address that is not larger, every sequence of calls has the same outcomes in a database
  with the account and in one without it.
* `attack_outcome`: with any other limits and no limit per client address, the calls for the
  address at one time are stopped in the first database and not in the second.
-/

set_option autoImplicit false

namespace SmirklyAuth

open Interleaving

/-- A call of `RequestReset`, with the inputs of its steps. -/
structure ResetRequest where
  email : Str
  reqMeta : RequestMeta := {}
  inputs : Nat → Input

namespace ResetRequest

/-- The id that the database draws for a reset of the call. -/
def codeId (call : ResetRequest) : Uuid := (call.inputs 2).newCodeId

/-- The id that the database draws for the mail job of the call. -/
def jobId (call : ResetRequest) : Uuid := (call.inputs 2).newJobId

end ResetRequest

/-- The outcomes of calls that run one after the other. -/
def requestOutcomes (ports : Ports) (policies : AuthRuntimePolicies) :
    List ResetRequest → Db → List (Except Error Unit)
  | [], _ => []
  | call :: calls, db =>
    let r := (PasswordService.requestReset ports policies ⟨call.email⟩ call.reqMeta).solo
      call.inputs db
    r.result :: requestOutcomes ports policies calls r.store

/-! ### One call -/

/-- The outcome of a call and the table of attempts after it. -/
def limiterStep (pg : Postgres) (policy : PasswordResetPolicy) (userId : Option Uuid)
    (call : ResetRequest) (rows : List Attempt) : Except Error Unit × List Attempt :=
  match (call.inputs 0).fault <|> (call.inputs 1).fault <|> (call.inputs 2).fault with
  | some what => (.error (.runtimeError what), rows)
  | none =>
    match recordReset pg policy call.email userId call.reqMeta (call.inputs 0).now rows with
    | .error x => (.error x, rows)
    | .ok rows' => (.ok (), rows')

section

variable (ports : Ports) (policies : AuthRuntimePolicies)

/-- A call leaves the accounts alone, uses at most the identifiers drawn for it, and is
decided by the table of attempts. -/
theorem requestReset_step (call : ResetRequest) {codeIds jobIds : List Uuid} {db : Db}
    (hfresh : FreshIds (call.codeId :: codeIds) (call.jobId :: jobIds) db) :
    let r := (PasswordService.requestReset ports policies ⟨call.email⟩ call.reqMeta).solo
      call.inputs db
    r.store.users = db.users ∧ FreshIds codeIds jobIds r.store ∧
      (r.result, r.store.passwordResetAttempts)
        = limiterStep ports.pg policies.passwordReset
          ((usersSelectByEmail ports.pg call.email db.users).map (·.id)) call
          db.passwordResetAttempts := by
  intro r
  have hsolo : (r.result, r.store) = requestOutcome ports policies.passwordReset call.email
    call.reqMeta call.inputs db := requestReset_solo hfresh
  obtain ⟨hresult, hstore⟩ := Prod.ext_iff.mp hsolo
  obtain ⟨husers, hrest⟩ := requestOutcome_frame ports policies.passwordReset call.email
    call.reqMeta call.inputs hfresh
  simp only at hresult hstore
  rw [hresult, hstore]
  refine ⟨husers, hrest, ?_⟩
  simp only [requestOutcome, limiterStep]
  cases ((call.inputs 0).fault <|> (call.inputs 1).fault <|> (call.inputs 2).fault) with
  | some what => rfl
  | none =>
    cases recordReset ports.pg policies.passwordReset call.email
      ((usersSelectByEmail ports.pg call.email db.users).map (·.id)) call.reqMeta
      (call.inputs 0).now db.passwordResetAttempts with
    | error x => rfl
    | ok rows => simp only [requestedReset_attempts]

/-! ### Limits that hide the account -/

variable {pg : Postgres} {policy : PasswordResetPolicy} {e : Str} {account : User}
    {reqMeta : RequestMeta} {ip : Option Inet} {ids : List Uuid}

/-- One request, on both sides. -/
theorem limiterStep_twin
    {users₁ users₂ : List User} {rows₁ rows₂ : List Attempt} (haccepted : policy.Accepted)
    (hlimits : policy.HidesAccounts) (hreg : Registration pg e account users₁ users₂)
    (htwin : TwinAttempts pg e account.id rows₁ rows₂) (call : ResetRequest) :
    let step users rows := limiterStep pg policy
      ((usersSelectByEmail pg call.email users).map (·.id)) call rows
    (step users₁ rows₁).1 = (step users₂ rows₂).1 ∧
      TwinAttempts pg e account.id (step users₁ rows₁).2 (step users₂ rows₂).2 := by
  simp only [limiterStep]
  split
  · exact ⟨rfl, htwin⟩
  · rcases recordReset_twin call.email haccepted hlimits hreg htwin call.reqMeta
      (call.inputs 0).now with ⟨x, h₁, h₂⟩ | ⟨rows₁', rows₂', h₁, h₂, htwin'⟩
    · simp only at h₁ h₂
      rw [h₁, h₂]
      exact ⟨rfl, htwin⟩
    · simp only at h₁ h₂
      rw [h₁, h₂]
      exact ⟨rfl, htwin'⟩

/-- The same calls have the same outcomes with and without the account. -/
theorem requestOutcomes_eq_of_hidesAccounts
    (haccepted : policies.passwordReset.Accepted)
    (hlimits : policies.passwordReset.HidesAccounts) (calls : List ResetRequest) {db₁ db₂ : Db}
    (hreg : Registration ports.pg e account db₁.users db₂.users)
    (htwin : TwinAttempts ports.pg e account.id db₁.passwordResetAttempts
      db₂.passwordResetAttempts)
    (hfresh₁ : FreshIds (calls.map (·.codeId)) (calls.map (·.jobId)) db₁)
    (hfresh₂ : FreshIds (calls.map (·.codeId)) (calls.map (·.jobId)) db₂) :
    requestOutcomes ports policies calls db₁ = requestOutcomes ports policies calls db₂ := by
  induction calls generalizing db₁ db₂ with
  | nil => rfl
  | cons call calls ih =>
    obtain ⟨husers₁, hrest₁, hstep₁⟩ := requestReset_step ports policies call hfresh₁
    obtain ⟨husers₂, hrest₂, hstep₂⟩ := requestReset_step ports policies call hfresh₂
    obtain ⟨hresult, htwin'⟩ := limiterStep_twin haccepted hlimits hreg htwin call
    simp only [← hstep₁, ← hstep₂] at hresult htwin'
    simp only [requestOutcomes, hresult]
    rw [ih (by rwa [husers₁, husers₂]) htwin' hrest₁ hrest₂]

/-! ### Limits that show the account -/

/-- A clock reading at which the window does not start in the future. A window whose nanoseconds
overflow needs the last one. -/
def attackTime (window : Seconds) : Time := if 0 ≤ window.toNanos then 0 else 2 ^ 63 - 1

/-- The window does not start after the reading, whatever its length wraps to. -/
theorem minus_attackTime_le (window : Seconds) :
    (attackTime window).minus window ≤ attackTime window := by
  unfold Time.minus attackTime
  by_cases hpositive : 0 ≤ window.toNanos
  · rw [if_pos hpositive]
    refine le_trans (SignedWord.wrap_le ?_) (Int.sub_le_self 0 hpositive)
    have hfits : SignedWord.Fits 64 window.toNanos := SignedWord.fits_wrap 64 _
    have hhigh := hfits.2
    omega
  · -- no time point is later than the last one
    rw [if_neg hpositive]
    have hhigh := (SignedWord.fits_wrap 64 (2 ^ 63 - 1 - window.toNanos)).2
    show (SignedWord.wrap 64 (2 ^ 63 - 1 - window.toNanos) : Int) ≤ 2 ^ 63 - 1
    omega

/-- A call for the address from one client at one time. -/
def attackCall (e : Str) (reqMeta : RequestMeta) (now : Time) (id : Uuid) : ResetRequest :=
  { email := e, reqMeta, inputs := fun _ => { now, newCodeId := id, newJobId := id } }

/-- The limits of the address and of the account admit a call after `n` calls. -/
def attackAdmitted (policy : PasswordResetPolicy) (userId : Option Uuid) (n : Nat) : Bool :=
  belowLimit policy.maxAttemptsPerEmail n &&
    (userId.isNone || belowLimit policy.maxAttemptsPerUser n)

/-- The `n`th request of the attack counts the `n` before it. -/
theorem admitsReset_attack {now : Time}
    (hnow : now.minus policy.rateLimitWindow ≤ now) (hperIp : policy.maxAttemptsPerIp = 0)
    (e : Str) (userId : Option Uuid) (reqMeta : RequestMeta) (ip : Option Inet) (n : Nat) :
    let args := resetArgs policy e userId reqMeta now ip
    admitsReset pg args (List.replicate n (.ofArgs args)) = attackAdmitted policy userId n := by
  intro args
  have hsince : args.since ≤ (Attempt.ofArgs args).attemptedAt :=
    Time.timePointTz_mono hnow
  -- every row of the table is in every scope of the call
  have hcount : ∀ scope ∈ AttemptScope.ofArgs pg args,
      scope.count pg args.since (List.replicate n (.ofArgs args)) = n := by
    intro scope hscope
    rw [AttemptScope.count, List.countP_replicate, AttemptScope.mem_ofArgs.mp hscope]
    simp [hsince]
  have hadmits : admitsReset pg args (List.replicate n (.ofArgs args)) = true ↔
      ∀ scope ∈ AttemptScope.ofArgs pg args, belowLimit (scope.limit args) n = true := by
    rw [admitsReset, Attempt.allows_iff]
    exact forall₂_congr fun scope hscope => by rw [hcount scope hscope]
  rw [Bool.eq_iff_iff, hadmits]
  cases userId <;> cases ip <;>
    simp [args, AttemptScope.ofArgs, AttemptScope.limit, attackAdmitted, resetArgs, hperIp,
      belowLimit_zero]

/-- One request of the attack. -/
theorem limiterStep_attack {now : Time}
    (hnow : now.minus policy.rateLimitWindow ≤ now) (hperIp : policy.maxAttemptsPerIp = 0)
    (e : Str) (userId : Option Uuid)
    (hip : pg.inetArg reqMeta.ip = some ip) (id : Uuid) (n : Nat) :
    let row := Attempt.ofArgs (resetArgs policy e userId reqMeta now ip)
    limiterStep pg policy userId (attackCall e reqMeta now id) (List.replicate n row) =
      if attackAdmitted policy userId n then (.ok (), List.replicate (n + 1) row)
      else (.error tooManyResets, List.replicate n row) := by
  intro row
  show (match recordReset pg policy e userId reqMeta now (List.replicate n row) with
    | Except.error x => (Except.error x, List.replicate n row)
    | Except.ok rows' => (Except.ok (), rows')) = _
  rw [recordReset_eq hip, admitsReset_attack hnow hperIp, ← List.replicate_succ']
  cases attackAdmitted policy userId n <;> rfl

/-- The last call of the attack, when the limits admit the calls before it. -/
theorem attack_outcome
    {userId : Option Uuid} {now : Time}
    (hnow : now.minus policies.passwordReset.rateLimitWindow ≤ now)
    (hperIp : policies.passwordReset.maxAttemptsPerIp = 0)
    (hip : ports.pg.inetArg reqMeta.ip = some ip) {n : Nat} {db : Db}
    (huser : (usersSelectByEmail ports.pg e db.users).map (·.id) = userId)
    (hrows : db.passwordResetAttempts
      = List.replicate n (.ofArgs (resetArgs policies.passwordReset e userId reqMeta now ip)))
    (hfresh : FreshIds ids ids db) (hids : ids ≠ [])
    (hadmitted : ∀ k, n ≤ k → k + 1 < n + ids.length →
      attackAdmitted policies.passwordReset userId k = true) :
    (requestOutcomes ports policies (ids.map (attackCall e reqMeta now)) db).getLast? = some
      (if attackAdmitted policies.passwordReset userId (n + ids.length - 1) then .ok ()
        else .error tooManyResets) := by
  induction ids generalizing n db with
  | nil => exact absurd rfl hids
  | cons id ids ih =>
    obtain ⟨husers, hrest, hstep⟩ :=
      requestReset_step ports policies (attackCall e reqMeta now id) hfresh
    have huser' : (usersSelectByEmail ports.pg (attackCall e reqMeta now id).email db.users).map
      (·.id) = userId := huser
    rw [huser', hrows, limiterStep_attack hnow hperIp e userId hip] at hstep
    rw [List.map_cons, requestOutcomes, List.getLast?_cons]
    by_cases hlast : ids = []
    · subst hlast
      have hresult := congrArg Prod.fst hstep
      simp only at hresult
      rw [List.map_nil, requestOutcomes, hresult]
      simp only [List.getLast?_nil, Option.getD_none, List.length_singleton,
        Nat.add_sub_cancel]
      split <;> rfl
    · have hlength := List.length_pos_of_ne_nil hlast
      rw [if_pos (hadmitted n le_rfl (by rw [List.length_cons]; omega))] at hstep
      have hcount : n + (id :: ids).length - 1 = n + 1 + ids.length - 1 := by
        rw [List.length_cons]
        omega
      rw [ih (by rw [husers]; exact huser) (congrArg Prod.snd hstep) hrest hlast
        fun k hk hlt => hadmitted k (by omega) (by rw [List.length_cons]; omega), hcount]
      rfl

/-- There is an identifier for each call, as long as the tables have room. -/
theorem exists_fresh_ids (used : List Uuid) {n : Nat} (hroom : used.length + n ≤ 2 ^ 128) :
    ∃ ids : List Uuid, ids.length = n ∧ ids.Nodup ∧ ∀ id ∈ ids, id ∉ used := by
  classical
  let all : Finset Uuid := (Finset.range (used.length + n)).image fun k => ⟨BitVec.ofNat 128 k⟩
  have hall : all.card = used.length + n := by
    rw [Finset.card_image_of_injOn, Finset.card_range]
    intro a ha b hb hab
    have ha' : a < 2 ^ 128 := lt_of_lt_of_le (Finset.mem_range.mp ha) hroom
    have hb' : b < 2 ^ 128 := lt_of_lt_of_le (Finset.mem_range.mp hb) hroom
    have hnat := congrArg (fun u : Uuid => u.bits.toNat) hab
    simpa only [BitVec.toNat_ofNat, Nat.mod_eq_of_lt ha', Nat.mod_eq_of_lt hb'] using hnat
  have hfree : n ≤ (all \ used.toFinset).card := by
    have hle := Finset.le_card_sdiff used.toFinset all
    have hused := List.toFinset_card_le used
    omega
  obtain ⟨ids, hsubset, hcard⟩ := Finset.exists_subset_card_eq hfree
  refine ⟨ids.toList, by rw [Finset.length_toList, hcard], ids.nodup_toList, ?_⟩
  intro id hid hmem
  have hsdiff := Finset.mem_sdiff.mp (hsubset (Finset.mem_toList.mp hid))
  exact hsdiff.2 (List.mem_toFinset.mpr hmem)

/-- When a request of the attack is admitted. -/
theorem attackAdmitted_iff (haccepted : policy.Accepted)
    {userId : Option Uuid} {n : Nat} :
    attackAdmitted policy userId n = true ↔
      (policy.maxAttemptsPerEmail = 0 ∨ n < policy.maxAttemptsPerEmail) ∧
        (userId = none ∨ policy.maxAttemptsPerUser = 0 ∨ n < policy.maxAttemptsPerUser) := by
  simp only [attackAdmitted, Bool.and_eq_true, Bool.or_eq_true, Option.isNone_iff_eq_none,
    belowLimit_iff_of_lt haccepted.perEmail, belowLimit_iff_of_lt haccepted.perUser]

/-- New ids are fresh. -/
theorem FreshIds.of_new {db : Db} (h : FreshIds [] [] db) (hids : ids.Nodup)
    (hcodes : ∀ id ∈ ids, id ∉ db.passwordResets.map (·.id))
    (hjobs : ∀ id ∈ ids, id ∉ db.emailOutbox.map (·.id)) : FreshIds ids ids db := by
  have hkeys := h.codes
  have hjobKeys := h.jobs
  rw [List.append_nil] at hkeys hjobKeys
  refine ⟨List.nodup_append.mpr ⟨hkeys, hids, ?_⟩, List.nodup_append.mpr ⟨hjobKeys, hids, ?_⟩⟩
  · rintro a ha b hb rfl
    exact hcodes a hb ha
  · rintro a ha b hb rfl
    exact hjobs a hb ha

/-- The attack on a policy whose limit per account is reached first. -/
theorem exists_attack (haccepted : policies.passwordReset.Accepted)
    (hlimits : ¬policies.passwordReset.HidesAccounts)
    (hperIp : policies.passwordReset.maxAttemptsPerIp = 0)
    (hip : ports.pg.inetArg reqMeta.ip = some ip) {db₁ db₂ : Db}
    (hreg : Registration ports.pg e account db₁.users db₂.users)
    (hempty₁ : db₁.passwordResetAttempts = []) (hempty₂ : db₂.passwordResetAttempts = [])
    (hlength : ids.length = policies.passwordReset.maxAttemptsPerUser + 1)
    (hfresh₁ : FreshIds ids ids db₁) (hfresh₂ : FreshIds ids ids db₂) :
    let calls := ids.map (attackCall e reqMeta (attackTime policies.passwordReset.rateLimitWindow))
    (requestOutcomes ports policies calls db₁).getLast? = some (.error tooManyResets) ∧
      (requestOutcomes ports policies calls db₂).getLast? = some (.ok ()) := by
  have hids : ids ≠ [] := List.ne_nil_of_length_pos (by omega)
  have hnow := minus_attackTime_le policies.passwordReset.rateLimitWindow
  unfold PasswordResetPolicy.HidesAccounts at hlimits
  have hregistered : (usersSelectByEmail ports.pg e db₁.users).map (·.id)
      = some account.id := by
    rw [hreg.select_registered rfl, Option.map_some]
  have hunknown : (usersSelectByEmail ports.pg e db₂.users).map (·.id) = none := by
    rw [hreg.select_unknown rfl, Option.map_none]
  constructor
  · rw [attack_outcome ports policies hnow hperIp hip (n := 0) hregistered hempty₁
      hfresh₁ hids, if_neg]
    · rw [attackAdmitted_iff haccepted]
      simp only [reduceCtorEq, false_or]
      omega
    · intro k _ hk
      rw [attackAdmitted_iff haccepted]
      simp only [reduceCtorEq, false_or]
      omega
  · rw [attack_outcome ports policies hnow hperIp hip (n := 0) hunknown hempty₂
      hfresh₂ hids, if_pos]
    · rw [attackAdmitted_iff haccepted]
      simp only [true_or, and_true]
      omega
    · intro k _ hk
      rw [attackAdmitted_iff haccepted]
      simp only [true_or, and_true]
      omega

end

/-! ### The main result -/

/-- With a policy that the parser accepts, and starting without attempts: the outcomes of the
calls do not depend on the account if there is no limit per account or a positive limit per
address up to it. Otherwise, with no limit per client address, a client at any address can
tell. The bound on the tables says that there are identifiers left for the calls. -/
theorem resetLimiter_hides_or_shows {ports : Ports} {json : AuthRuntimeJson}
    {runtime : AuthRuntimePolicies} (hparse : parseAuthRuntimePolicies json = .ok runtime)
    (fallback : AuthRuntimePolicies) {e : Str} {account : User} {db₁ db₂ : Db}
    (hreg : Registration ports.pg e account db₁.users db₂.users)
    (hempty₁ : db₁.passwordResetAttempts = []) (hempty₂ : db₂.passwordResetAttempts = []) :
    let policies := runtimePolicies fallback runtime
    let perEmail := policies.passwordReset.maxAttemptsPerEmail
    let perUser := policies.passwordReset.maxAttemptsPerUser
    let perIp := policies.passwordReset.maxAttemptsPerIp
    let freshFor (calls : List ResetRequest) (db : Db) :=
      FreshIds (calls.map (·.codeId)) (calls.map (·.jobId)) db
    ((perUser = 0 ∨ 0 < perEmail ∧ perEmail ≤ perUser) →
      ∀ calls, freshFor calls db₁ → freshFor calls db₂ →
        requestOutcomes ports policies calls db₁ = requestOutcomes ports policies calls db₂) ∧
    (¬(perUser = 0 ∨ 0 < perEmail ∧ perEmail ≤ perUser) → perIp = 0 →
      freshFor [] db₁ → freshFor [] db₂ →
      db₁.passwordResets.length + db₂.passwordResets.length + db₁.emailOutbox.length
        + db₂.emailOutbox.length + perUser < 2 ^ 128 →
      ∀ reqMeta : RequestMeta, (ports.pg.inetArg reqMeta.ip).isSome →
        ∃ calls : List ResetRequest, (∀ call ∈ calls, call.email = e ∧ call.reqMeta = reqMeta) ∧
          freshFor calls db₁ ∧ freshFor calls db₂ ∧
          (requestOutcomes ports policies calls db₁).getLast? = some (.error tooManyResets) ∧
          (requestOutcomes ports policies calls db₂).getLast? = some (.ok ())) := by
  intro policies perEmail perUser perIp freshFor
  have haccepted : policies.passwordReset.Accepted := by
    show runtime.passwordReset.Accepted
    exact parseAuthRuntimePolicies_accepted hparse
  constructor
  · intro hlimits calls hfresh₁ hfresh₂
    have htwin : TwinAttempts ports.pg e account.id db₁.passwordResetAttempts
        db₂.passwordResetAttempts := by
      rw [hempty₁, hempty₂]
      exact .nil
    exact requestOutcomes_eq_of_hidesAccounts ports policies haccepted hlimits calls hreg htwin
      hfresh₁ hfresh₂
  · -- the attack needs ids that are new in both databases
    intro hlimits hperIp hkeys₁ hkeys₂ hroom reqMeta hip
    obtain ⟨ip, hip⟩ := Option.isSome_iff_exists.mp hip
    obtain ⟨ids, hlength, hnodup, hnew⟩ := exists_fresh_ids
      (db₁.passwordResets.map (·.id) ++ db₂.passwordResets.map (·.id)
        ++ db₁.emailOutbox.map (·.id) ++ db₂.emailOutbox.map (·.id)) (n := perUser + 1)
      (by simp only [List.length_append, List.length_map]; omega)
    simp only [List.mem_append, not_or] at hnew
    have hfresh₁ : FreshIds ids ids db₁ :=
      hkeys₁.of_new hnodup (fun id hid => (hnew id hid).1.1.1) fun id hid => (hnew id hid).1.2
    have hfresh₂ : FreshIds ids ids db₂ :=
      hkeys₂.of_new hnodup (fun id hid => (hnew id hid).1.1.2) fun id hid => (hnew id hid).2
    let now := attackTime policies.passwordReset.rateLimitWindow
    have hcalls : (ids.map (attackCall e reqMeta now)).map (·.codeId) = ids ∧
        (ids.map (attackCall e reqMeta now)).map (·.jobId) = ids := by
      simp only [List.map_map]
      exact ⟨List.map_id _, List.map_id _⟩
    refine ⟨ids.map (attackCall e reqMeta now), ?_, ?_, ?_, exists_attack ports policies haccepted
      hlimits hperIp hip hreg hempty₁ hempty₂ hlength hfresh₁ hfresh₂⟩
    · intro call hcall
      obtain ⟨id, -, rfl⟩ := List.mem_map.mp hcall
      exact ⟨rfl, rfl⟩
    · simp only [freshFor, hcalls]
      exact hfresh₁
    · simp only [freshFor, hcalls]
      exact hfresh₂

/-- The configuration that limits the resets of an account and nothing else. -/
def perUserOnly : AuthRuntimeJson :=
  { passwordReset := fun field =>
      if field = lit "max_attempts_per_email" ∨ field = lit "max_attempts_per_ip" then some 0
      else none }

/-- The default configuration hides the account, `perUserOnly` shows it. -/
theorem resetLimiter_hides_or_shows_unit :
    requestOutcomes plainApp.ports {} ([⟨1⟩, ⟨2⟩].map (attackCall "Unit@Example.com" {} 0)) unitDb
        = requestOutcomes plainApp.ports {}
          ([⟨1⟩, ⟨2⟩].map (attackCall "Unit@Example.com" {} 0)) {} ∧
      ∃ runtime calls, parseAuthRuntimePolicies perUserOnly = .ok runtime ∧
        (requestOutcomes plainApp.ports (runtimePolicies {} runtime) calls unitDb).getLast?
          = some (.error tooManyResets) ∧
        (requestOutcomes plainApp.ports (runtimePolicies {} runtime) calls {}).getLast?
          = some (.ok ()) := by
  have hreg : Registration plainApp.ports.pg (lit "Unit@Example.com") unitUser unitDb.users
      ({} : Db).users :=
    ⟨⟨[], [], rfl, rfl⟩, by decide, rfl, by simp, by simp⟩
  have hdefault : parseAuthRuntimePolicies {} = .ok {} := rfl
  obtain ⟨hhides, -⟩ := resetLimiter_hides_or_shows hdefault {} hreg rfl rfl
  have hparse : parseAuthRuntimePolicies perUserOnly
      = .ok { passwordReset := { maxAttemptsPerEmail := 0, maxAttemptsPerIp := 0 } } := rfl
  obtain ⟨-, hshows⟩ := resetLimiter_hides_or_shows hparse {} hreg rfl rfl
  refine ⟨hhides (by decide) _ ⟨by decide, by decide⟩ ⟨by decide, by decide⟩, ?_⟩
  obtain ⟨calls, -, -, -, houtcomes⟩ := hshows (by decide) rfl ⟨by decide, by decide⟩
    ⟨by decide, by decide⟩ (by decide) {} rfl
  exact ⟨_, calls, hparse, houtcomes⟩

end SmirklyAuth
