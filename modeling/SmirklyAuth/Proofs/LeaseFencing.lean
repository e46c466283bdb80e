import SmirklyAuth.Protocol.OutboxOperations

/-!
# `SmirklyAuth.Proofs.LeaseFencing`: what a worker can do with an old lease

A worker keeps the lease of a job for as long as it likes. It can store a result late, store
it twice, or store it after another worker has claimed the job again. `lease_fencing` says
that the lease fences all of this, for every history of calls with fresh lease ids: one lease
stores at most one result, and none after the job was handed out again.

A job is handed out again when its lease has run out, or when the worker has rescheduled it.
So two claims of one job within the time of the first lease should have a `Reschedule` of that
lease between them. The code does not ensure this on its own: `next_attempt_at` is the clock
at the failure plus a delay, and the clock can be set back between the claim and the failure
(`lease_overlap`). It holds when no `Reschedule` sets a time before the claim of its lease, no
`stuck_timeout` is negative, and the sum of the clock and the `stuck_timeout` does not overflow
(`Orderly`). The columns have microseconds, so the last microsecond of a lease belongs to the
next claim.
-/

set_option autoImplicit false

namespace SmirklyAuth

open Sql (Update)
open Interleaving (Reachable)

/-- All leases of the history are different. -/
def FreshLeases (log : List OutboxRecord) : Prop := ((grants log).map (·.leaseId)).Nodup

/-- The number of results that were stored under the lease. -/
def storedCount (log : List OutboxRecord) (leaseId : Uuid) : Nat :=
  log.countP fun x => x.stored.any fun p => p.2 == leaseId

/-- The last grant of the job. -/
def latestGrant (log : List OutboxRecord) (id : Uuid) : Option Grant :=
  ((grants log).filter fun g => g.jobId == id).getLast?

/-! ### The last grant of a job -/

section
variable {log : List OutboxRecord} {x : OutboxRecord} {id : Uuid} {g g' : Grant}

/-- The last grant of a job is a grant of the job. -/
theorem mem_of_latestGrant (h : latestGrant log id = some g) :
    g ∈ grants log ∧ g.jobId = id := by
  obtain ⟨hg, hid⟩ := List.mem_filter.mp (List.mem_of_getLast? h)
  exact ⟨hg, beq_iff_eq.mp hid⟩

/-- The last grant of two histories is that of the second, if it has one. -/
theorem latestGrant_append (log log' : List OutboxRecord) (id : Uuid) :
    latestGrant (log ++ log') id = (latestGrant log' id).or (latestGrant log id) := by
  simp [latestGrant, List.getLast?_append]

/-- A job that was never handed out has no last grant. -/
theorem latestGrant_eq_none (h : ∀ g ∈ grants log, g.jobId ≠ id) :
    latestGrant log id = none := by
  have hnil : ((grants log).filter fun g => g.jobId == id) = [] := by
    rw [List.filter_eq_nil_iff]
    intro g hg heq
    exact h g hg (beq_iff_eq.mp heq)
  rw [latestGrant, hnil]
  rfl

/-- A call that does not hand out the job leaves its last grant. -/
theorem latestGrant_snoc_of_ne (h : ∀ g ∈ x.grants, g.jobId ≠ id) :
    latestGrant (log ++ [x]) id = latestGrant log id := by
  rw [latestGrant_append, latestGrant_eq_none (by simpa using h), Option.none_or]

/-- A claim hands out a job once, and this is its last grant. -/
theorem latestGrant_snoc_of_mem (hnodup : (x.grants.map (·.jobId)).Nodup)
    (hg : g ∈ x.grants) : latestGrant (log ++ [x]) g.jobId = some g := by
  cases hlast : latestGrant [x] g.jobId with
  | none =>
    exfalso
    rw [latestGrant, List.getLast?_eq_none_iff, grants_singleton,
      List.filter_eq_nil_iff] at hlast
    exact hlast g hg (beq_self_eq_true _)
  | some g' =>
    obtain ⟨hg', hid⟩ := mem_of_latestGrant hlast
    rw [grants_singleton] at hg'
    have heq : g' = g := List.inj_on_of_nodup_map hnodup hg' hg hid
    rw [latestGrant_append, hlast, heq]
    rfl

/-- A fresh lease has one grant. -/
theorem FreshLeases.eq_of_leaseId (h : FreshLeases log) (hg : g ∈ grants log)
    (hg' : g' ∈ grants log) (hlease : g.leaseId = g'.leaseId) : g = g' :=
  List.inj_on_of_nodup_map h hg hg' hlease

/-- The first part of a history with fresh leases has fresh leases. -/
theorem FreshLeases.of_append {log' : List OutboxRecord} (h : FreshLeases (log ++ log')) :
    FreshLeases log := by
  unfold FreshLeases at h ⊢
  rw [grants_append, List.map_append] at h
  exact h.of_append_left

/-- A lease that a later call hands out has not been handed out before. -/
theorem FreshLeases.ne_of_mem {log' : List OutboxRecord} (h : FreshLeases (log ++ log'))
    (hg : g ∈ grants log) (hg' : g' ∈ grants log') : g.leaseId ≠ g'.leaseId := by
  unfold FreshLeases at h
  rw [grants_append, List.map_append, List.nodup_append] at h
  exact h.2.2 _ (List.mem_map_of_mem hg) _ (List.mem_map_of_mem hg')

end

/-- A call counts once if it has stored a result under the lease. -/
theorem storedCount_snoc (log : List OutboxRecord) (x : OutboxRecord) (leaseId : Uuid) :
    storedCount (log ++ [x]) leaseId =
      storedCount log leaseId + if x.stored.any (fun p => p.2 == leaseId) then 1 else 0 := by
  unfold storedCount
  rw [List.countP_append, List.countP_singleton]

/-- The row that holds the lease of a call. -/
theorem OutboxJob.leaseId_of_leasedBy {j : OutboxJob} {id leaseId : Uuid}
    (h : j.leasedBy id leaseId = true) : j.id = id ∧ j.leaseId = some leaseId := by
  simp only [OutboxJob.leasedBy, Bool.and_eq_true, beq_iff_eq] at h
  exact h.1

/-! ### One result for each lease -/

/-- The invariant of the leases:

- `held`: the lease of a row is that of the last grant of the job, and no result was stored
  under it;
- `once`: at most one result was stored under each lease;
- `granted`: a lease under which a result was stored has been handed out. -/
structure LeaseInv (jobs : List OutboxJob) (log : List OutboxRecord) : Prop where
  held : ∀ j ∈ jobs, ∀ leaseId, j.leaseId = some leaseId →
    (∃ g, latestGrant log j.id = some g ∧ g.leaseId = leaseId) ∧ storedCount log leaseId = 0
  once : ∀ leaseId, storedCount log leaseId ≤ 1
  granted : ∀ leaseId, storedCount log leaseId ≠ 0 → ∃ g ∈ grants log, g.leaseId = leaseId

section
variable {jobs jobs' : List OutboxJob} {log : List OutboxRecord} {x : OutboxRecord}

/-- Two rows never hold the same lease. -/
theorem LeaseInv.eq_of_leaseId (h : LeaseInv jobs log) (hfresh : FreshLeases log)
    (hnodup : (jobs.map (·.id)).Nodup) {j k : OutboxJob} (hj : j ∈ jobs) (hk : k ∈ jobs)
    {leaseId : Uuid} (hjl : j.leaseId = some leaseId) (hkl : k.leaseId = some leaseId) :
    j = k := by
  obtain ⟨g, hg, hgl⟩ := (h.held j hj leaseId hjl).1
  obtain ⟨g', hg', hgl'⟩ := (h.held k hk leaseId hkl).1
  obtain ⟨hmem, hid⟩ := mem_of_latestGrant hg
  obtain ⟨hmem', hid'⟩ := mem_of_latestGrant hg'
  have hgg : g = g' := hfresh.eq_of_leaseId hmem hmem' (hgl.trans hgl'.symm)
  have hjk : j.id = k.id := by rw [← hid, ← hid', hgg]
  exact List.inj_on_of_nodup_map hnodup hj hk hjk

/-- A row that the call leaves alone keeps its part of the invariant: no other row holds its
lease, so the call has not stored a result under it. -/
theorem LeaseInv.not_stored (h : LeaseInv jobs log) (hfresh : FreshLeases log)
    (hnodup : (jobs.map (·.id)).Nodup)
    (hstored : ∀ id leaseId, x.stored = some (id, leaseId) →
      ∃ k ∈ jobs, k.leasedBy id leaseId = true)
    {j : OutboxJob} (hj : j ∈ jobs) {leaseId : Uuid} (hjl : j.leaseId = some leaseId)
    (hidle : ∀ id leaseId, x.1.lease = some (id, leaseId) → j.leasedBy id leaseId = false) :
    x.stored.any (fun p => p.2 == leaseId) = false := by
  cases hx : x.stored with
  | none => rfl
  | some p =>
    obtain ⟨id, leaseId'⟩ := p
    obtain ⟨k, hk, hleased⟩ := hstored id leaseId' hx
    rw [Option.any_some, beq_eq_false_iff_ne]
    rintro rfl
    have hkl := (OutboxJob.leaseId_of_leasedBy hleased).2
    have hjk : j = k := h.eq_of_leaseId hfresh hnodup hj hk hjl hkl
    have hquiet := hidle id leaseId' (OutboxRecord.stored_eq_some.mp hx).2
    rw [hjk, hleased] at hquiet
    cases hquiet

/-- The lease of a row after a move: the row was left alone, or it has just been claimed. -/
theorem LeaseInv.held_of_moves (h : LeaseInv jobs log) (hfresh : FreshLeases (log ++ [x]))
    (hnodup : (jobs.map (·.id)).Nodup) (hgrants : (x.grants.map (·.jobId)).Nodup)
    (hstored : ∀ id leaseId, x.stored = some (id, leaseId) →
      ∃ k ∈ jobs, k.leasedBy id leaseId = true)
    {j j' : OutboxJob} (hj : j ∈ jobs) (hmoves : j.Moves x j') {leaseId : Uuid}
    (hlease : j'.leaseId = some leaseId) :
    (∃ g, latestGrant (log ++ [x]) j'.id = some g ∧ g.leaseId = leaseId) ∧
      storedCount (log ++ [x]) leaseId = 0 := by
  cases hmoves with
  | idle hgrant hidle =>
    have hquiet := h.not_stored hfresh.of_append hnodup hstored hj hlease hidle
    obtain ⟨hlatest, hcount⟩ := h.held j hj leaseId hlease
    rw [latestGrant_snoc_of_ne hgrant, storedCount_snoc, hquiet, hcount]
    exact ⟨hlatest, rfl⟩
  | @claimed i _ _ _ _ hgrant _ =>
    cases hlease
    refine ⟨⟨_, latestGrant_snoc_of_mem hgrants hgrant, rfl⟩, ?_⟩
    -- a result under the new lease would mean an older grant of it
    have hcount : storedCount log (i.leaseId j.id) = 0 := by
      by_contra hne
      obtain ⟨g, hg, hgl⟩ := h.granted _ hne
      exact hfresh.ne_of_mem hg (by rw [grants_singleton]; exact hgrant) hgl
    rw [storedCount_snoc, hcount]
    rfl
  | sent _ => cases hlease
  | rescheduled _ => cases hlease
  | dead _ => cases hlease

/-- Every call keeps the invariant. -/
theorem LeaseInv.step (h : LeaseInv jobs log) (hfresh : FreshLeases (log ++ [x]))
    (hnodup : (jobs.map (·.id)).Nodup) (heffect : OutboxEffect x jobs jobs') :
    LeaseInv jobs' (log ++ [x]) := by
  have hfresh₀ := hfresh.of_append
  cases heffect with
  | inserted hgrants hstored hnew =>
    have hcount : ∀ leaseId, storedCount (log ++ [x]) leaseId = storedCount log leaseId := by
      intro leaseId
      simp [storedCount_snoc, hstored]
    have hlatest : ∀ id, latestGrant (log ++ [x]) id = latestGrant log id := by
      intro id
      exact latestGrant_snoc_of_ne (by simp [hgrants])
    refine ⟨fun j hj leaseId hlease => ?_, fun leaseId => ?_, fun leaseId hne => ?_⟩
    · rw [hcount, hlatest]
      rcases List.mem_append.mp hj with hj | hj
      · exact h.held j hj leaseId hlease
      · rw [List.mem_singleton.mp hj] at hlease
        cases hlease
    · rw [hcount]
      exact h.once leaseId
    · rw [hcount] at hne
      obtain ⟨g, hg, hgl⟩ := h.granted leaseId hne
      exact ⟨g, by simp [hg], hgl⟩
  | @moved f hrows hgrants hstored =>
    -- a lease under which the call stores a result is held by a row
    have hfirst : ∀ leaseId, x.stored.any (fun p => p.2 == leaseId) = true →
        (∃ id g, latestGrant log id = some g ∧ g.leaseId = leaseId) ∧
          storedCount log leaseId = 0 := by
      intro leaseId hany
      obtain ⟨⟨id, leaseId'⟩, hx, heq⟩ := (Option.any_eq_true _ _).mp hany
      cases beq_iff_eq.mp heq
      obtain ⟨j, hj, hleased⟩ := hstored id leaseId' hx
      obtain ⟨hlatest, hzero⟩ :=
        h.held j hj leaseId' (OutboxJob.leaseId_of_leasedBy hleased).2
      exact ⟨⟨j.id, hlatest⟩, hzero⟩
    refine ⟨fun j' hj' leaseId hlease => ?_, fun leaseId => ?_, fun leaseId hne => ?_⟩
    · obtain ⟨j, hj, rfl⟩ := List.mem_map.mp hj'
      exact h.held_of_moves hfresh hnodup (hgrants.nodup hnodup) hstored hj (hrows j hj) hlease
    · have hone := h.once leaseId
      rw [storedCount_snoc]
      split
      · have hzero := (hfirst leaseId (by assumption)).2
        omega
      · omega
    · rw [storedCount_snoc] at hne
      have hold : ∃ g ∈ grants log, g.leaseId = leaseId := by
        split at hne
        · obtain ⟨⟨_, g, hlatest, hgl⟩, _⟩ := hfirst leaseId (by assumption)
          exact ⟨g, (mem_of_latestGrant hlatest).1, hgl⟩
        · exact h.granted leaseId hne
      obtain ⟨g, hg, hgl⟩ := hold
      exact ⟨g, by simp [hg], hgl⟩

/-- The invariant holds after every history with fresh leases. -/
theorem leaseInv_of_run (hrun : OutboxRun log jobs) (hfresh : FreshLeases log) :
    LeaseInv jobs log := by
  refine outboxRun_rule (J := fun jobs log => FreshLeases log → LeaseInv jobs log) ?_ ?_ hrun
    hfresh
  · intro _
    exact ⟨fun _ hj => (nomatch hj), fun _ => Nat.zero_le 1, fun _ hne => absurd rfl hne⟩
  · intro log jobs jobs' x hrun ih heffect hfresh
    exact (ih hfresh.of_append).step hfresh (outboxRun_nodup hrun) heffect

/-- No row holds the lease of a job that was handed out again. -/
theorem LeaseInv.not_held_of_reclaimed (h : LeaseInv jobs log) (hfresh : FreshLeases log)
    {before after : List OutboxRecord} (hlog : log = before ++ x :: after) {g g' : Grant}
    (hg : g ∈ x.grants) (hg' : g' ∈ grants after) (hid : g'.jobId = g.jobId) {j : OutboxJob}
    (hj : j ∈ jobs) : j.leaseId ≠ some g.leaseId := by
  intro hlease
  obtain ⟨⟨k, hlatest, hkl⟩, _⟩ := h.held j hj g.leaseId hlease
  have hsplit : log = (before ++ [x]) ++ after := by simp [hlog]
  have hgmem : g ∈ grants (before ++ [x]) := by simp [hg]
  -- the last grant of the row is `g`, so the row is that of the job
  obtain ⟨hkmem, hkid⟩ := mem_of_latestGrant hlatest
  have hkg : k = g := hfresh.eq_of_leaseId hkmem (by rw [hsplit]; simp [hg]) hkl
  subst hkg
  -- but the last grant of the job is one of `after`
  rw [hsplit, latestGrant_append] at hlatest
  cases hafter : latestGrant after j.id with
  | none =>
    rw [latestGrant, List.getLast?_eq_none_iff, List.filter_eq_nil_iff] at hafter
    exact hafter g' hg' (beq_iff_eq.mpr (hid.trans hkid))
  | some k' =>
    rw [hafter, Option.some_or] at hlatest
    cases hlatest
    rw [hsplit] at hfresh
    exact hfresh.ne_of_mem hgmem (mem_of_latestGrant hafter).1 rfl

/-- A call under a lease that no row holds returns `false` and changes nothing. -/
theorem OutboxOp.exec_of_not_held {op : OutboxOp} {id leaseId : Uuid}
    (hlease : op.lease = some (id, leaseId)) (h : ∀ j ∈ jobs, j.leaseId ≠ some leaseId) :
    op.exec jobs = .ok (.persisted false, jobs) := by
  have hupdate : ∃ u, op.resultUpdate = some u := by
    cases op <;> first | exact ⟨_, rfl⟩ | cases hlease
  obtain ⟨u, hop⟩ := hupdate
  obtain ⟨id', leaseId', hlease', hcond⟩ := resultUpdate_cond hop
  cases hlease.symm.trans hlease'
  have hmiss : ∀ j ∈ jobs, u.cond j = false := by
    intro j hj
    rw [hcond, Bool.eq_false_iff]
    intro hleased
    exact h j hj (OutboxJob.leaseId_of_leasedBy hleased).2
  have hhits : u.hits jobs = false := by
    rw [Bool.eq_false_iff]
    intro hhits
    obtain ⟨j, hj, hj'⟩ := Update.hits_iff.mp hhits
    rw [hmiss j hj] at hj'
    cases hj'
  rw [exec_of_runs (.result hop), hhits, Update.run_of_not_hits hhits]

end

/-! ### Two claims within the time of one lease -/

/-- The time at which the lease runs out: `t1 + stuck_timeout`, as numbers. -/
def Grant.expiresAt (g : Grant) : Time := g.claimedAt + g.stuckTimeout.nanos

/-- The conditions on an entry, after the grants `gs`: a `Reschedule` sets a time that is not
before the claim of its lease. The `stuck_timeout` of a claim is not negative, and its sum with
the clock reading does not overflow. -/
def OutboxRecord.OrderlyAfter (gs : List Grant) : OutboxRecord → Prop
  | (.reschedule _ _ leaseId nextAt _, _) => ∀ g ∈ gs, g.leaseId = leaseId → g.claimedAt ≤ nextAt
  | (.claimBatch _ cfg now, _) => 0 ≤ cfg.stuckTimeout ∧ now.FitsPlus cfg.stuckTimeout
  | _ => True

instance (gs : List Grant) : DecidablePred (OutboxRecord.OrderlyAfter gs)
  | (.reschedule _ _ leaseId nextAt _, _) =>
      inferInstanceAs (Decidable (∀ g ∈ gs, g.leaseId = leaseId → g.claimedAt ≤ nextAt))
  | (.claimBatch _ cfg now, _) =>
      inferInstanceAs (Decidable (0 ≤ cfg.stuckTimeout ∧ now.FitsPlus cfg.stuckTimeout))
  | (.insert _ _, _) | (.markSent _ _ _ _, _) | (.markDead _ _ _ _, _) => .isTrue trivial

/-- Every entry meets the conditions, after the grants `gs` and those of the entries before
it. -/
def OrderlyFrom (gs : List Grant) : List OutboxRecord → Prop
  | [] => True
  | x :: log => x.OrderlyAfter gs ∧ OrderlyFrom (gs ++ x.grants) log

instance : ∀ (gs : List Grant) (log : List OutboxRecord), Decidable (OrderlyFrom gs log)
  | _, [] => .isTrue trivial
  | gs, x :: log =>
      have := instDecidableOrderlyFrom (gs ++ x.grants) log
      inferInstanceAs (Decidable (x.OrderlyAfter gs ∧ OrderlyFrom (gs ++ x.grants) log))

/-- Every entry of the history meets the conditions. -/
abbrev Orderly (log : List OutboxRecord) : Prop := OrderlyFrom [] log

/-- The entry releases the lease of the grant by a successful `Reschedule`. -/
def OutboxRecord.reschedules (g : Grant) : OutboxRecord → Bool
  | (.reschedule _ id leaseId _ _, .persisted true) => id == g.jobId && leaseId == g.leaseId
  | _ => false

/-- Two claims of one job within the time of the first lease have a successful `Reschedule` of
that lease between them. The times are compared as the columns hold them, in microseconds. -/
def ReleasedBetweenClaims (log : List OutboxRecord) : Prop :=
  ∀ before x middle y after, log = before ++ x :: (middle ++ y :: after) →
    ∀ g ∈ OutboxRecord.grants x, ∀ g' ∈ OutboxRecord.grants y, g'.jobId = g.jobId →
      g'.claimedAt.timePointTz < g.expiresAt.timePointTz →
        ∃ z ∈ middle, OutboxRecord.reschedules g z = true

/-- The row of the job of `g` is not claimed before the lease of `g` runs out:

- `closed`: the job is closed;
- `leased`: it is under a lease that runs out no earlier, that of `g` or a later one;
- `waiting`: its next attempt is no earlier. -/
inductive OutboxJob.Waits (log : List OutboxRecord) (g : Grant) (j : OutboxJob) : Prop where
  | closed (hpending : j.status ≠ .pending) (hprocessing : j.status ≠ .processing)
  | leased (h : Grant) (hmem : h ∈ grants log) (hlease : j.leaseId = some h.leaseId)
      (hlocked : j.lockedUntil = some h.lockedUntil) (hexpires : g.lockedUntil ≤ h.lockedUntil)
      (hclaimed : h = g ∨ g.lockedUntil ≤ h.claimedAt.timePointTz)
  | waiting (hpending : j.status = .pending) (hnext : g.lockedUntil ≤ j.nextAttemptAt)

section
variable {jobs jobs' : List OutboxJob} {log : List OutboxRecord} {x : OutboxRecord}
  {g : Grant} {j j' : OutboxJob}

/-- A row that waits is not due before the lease of `g` has run out. -/
theorem OutboxJob.Waits.le_of_claimable {now : Time} {M : Nat} (h : j.Waits log g)
    (hdue : j.claimable now M = true) : g.lockedUntil ≤ now := by
  simp only [OutboxJob.claimable, Bool.and_eq_true, Bool.or_eq_true, beq_iff_eq,
    decide_eq_true_eq] at hdue
  obtain ⟨⟨⟨hopen, hnow⟩, _⟩, hlock⟩ := hdue
  cases h with
  | closed hpending hprocessing => rcases hopen with h | h <;> contradiction
  | leased h _ _ hlocked hexpires _ =>
    rw [hlocked, Option.all_some, decide_eq_true_eq] at hlock
    exact le_trans hexpires hlock
  | waiting _ hnext => exact le_trans hnext hnow

/-- The entries of the second part come after the grants of the first. -/
theorem orderlyFrom_append (gs : List Grant) (log log' : List OutboxRecord) :
    OrderlyFrom gs (log ++ log') ↔ OrderlyFrom gs log ∧ OrderlyFrom (gs ++ grants log) log' := by
  induction log generalizing gs with
  | nil => simp [OrderlyFrom]
  | cons x log ih =>
    show (_ ∧ OrderlyFrom (gs ++ x.grants) (log ++ log')) ↔ _
    rw [ih, grants_cons, ← List.append_assoc]
    exact and_assoc.symm

/-- The last entry of an orderly history, and the history before it. -/
theorem Orderly.of_snoc (h : Orderly (log ++ [x])) :
    Orderly log ∧ x.OrderlyAfter (grants log) := by
  obtain ⟨hlog, hx⟩ := (orderlyFrom_append [] log [x]).mp h
  exact ⟨hlog, hx.1⟩

/-- A call that leaves the row alone leaves it waiting. -/
theorem OutboxJob.Waits.mono (h : j.Waits log g) (log' : List OutboxRecord) :
    j.Waits (log ++ log') g := by
  cases h with
  | closed hpending hprocessing => exact .closed hpending hprocessing
  | leased h hmem hlease hlocked hexpires hclaimed =>
    exact .leased h (by simp [hmem]) hlease hlocked hexpires hclaimed
  | waiting hpending hnext => exact .waiting hpending hnext

/-- A row that waits goes on waiting, unless its lease is that of `g` and is rescheduled. -/
theorem OutboxJob.Waits.step (h : j.Waits log g) (hmoves : j.Moves x j')
    (horderly : x.OrderlyAfter (grants log)) (hkept : x.reschedules g = false)
    (hid : j.id = g.jobId) : j'.Waits (log ++ [x]) g := by
  cases hmoves with
  | idle _ _ => exact h.mono [x]
  | @claimed i cfg now entries _ hgrant hdue =>
    -- the claim came after the lease of `g` had run out
    have hnow : g.lockedUntil ≤ now.timePointTz := h.le_of_claimable hdue
    have hplus : now.timePointTz ≤ (now.plus cfg.stuckTimeout).timePointTz := by
      rw [Time.plus_eq horderly.2]
      exact Time.timePointTz_mono
        (Int.le_add_of_nonneg_right (Int.mul_nonneg horderly.1 (by decide)))
    exact .leased ⟨j.id, i.leaseId j.id, now, cfg.stuckTimeout⟩
      (by rw [grants_append, grants_singleton]; exact List.mem_append_right _ hgrant) rfl rfl
      (le_trans hnow hplus) (.inr hnow)
  | sent _ => exact .closed (by simp) (by simp)
  | @rescheduled i id leaseId nextAt lastError _ hleased =>
    obtain ⟨hjid, hjl⟩ := OutboxJob.leaseId_of_leasedBy hleased
    have hstatus : j.status = .processing := by
      simp only [OutboxJob.leasedBy, Bool.and_eq_true, beq_iff_eq] at hleased
      exact hleased.2
    cases h with
    | closed _ hprocessing => exact absurd hstatus hprocessing
    | leased h hmem hlease _ _ hclaimed =>
      have heq : h.leaseId = leaseId := Option.some.inj (hlease.symm.trans hjl)
      have hnext : h.claimedAt.timePointTz ≤ nextAt.timePointTz :=
        Time.timePointTz_mono (horderly h hmem heq)
      rcases hclaimed with rfl | hlater
      · -- this is the lease of `g`
        simp [OutboxRecord.reschedules, ← heq, ← hjid, hid] at hkept
      · exact .waiting rfl (le_trans hlater hnext)
    | waiting hpending _ =>
      rw [hstatus] at hpending
      cases hpending
  | dead _ => exact .closed (by simp) (by simp)

/-- A job that a call hands out is due at the time of the grant. -/
theorem OutboxEffect.claimable_of_mem (h : OutboxEffect x jobs jobs') (hg : g ∈ x.grants)
    (hnodup : (jobs.map (·.id)).Nodup) :
    ∃ j ∈ jobs, j.id = g.jobId ∧ ∃ M, j.claimable g.claimedAt.timePointTz M = true := by
  cases h with
  | inserted hgrants _ _ =>
    rw [hgrants] at hg
    cases hg
  | @moved f hrows hgrants _ =>
    obtain ⟨j, hj, hid⟩ := List.mem_map.mp (hgrants.subset (List.mem_map_of_mem hg))
    have hmoves := hrows j hj
    generalize f j = j' at hmoves
    cases hmoves with
    | idle hgrant _ => exact absurd hid.symm (hgrant g hg)
    | claimed hgrant hdue =>
      have heq := List.inj_on_of_nodup_map (hgrants.nodup hnodup) hgrant hg hid
      subst heq
      exact ⟨j, hj, hid, _, hdue⟩
    | sent _ => cases hg
    | rescheduled _ => cases hg
    | dead _ => cases hg

/-- The row that a claim has handed out waits. -/
theorem OutboxJob.Moves.waits (hmoves : j.Moves x j') (hg : g ∈ x.grants)
    (hnodup : (x.grants.map (·.jobId)).Nodup) (hid : j.id = g.jobId) :
    j'.Waits (log ++ [x]) g := by
  cases hmoves with
  | idle hgrant _ => exact absurd hid.symm (hgrant g hg)
  | @claimed i cfg now _ _ hgrant _ =>
    have heq : ⟨j.id, i.leaseId j.id, now, cfg.stuckTimeout⟩ = g :=
      List.inj_on_of_nodup_map hnodup hgrant hg hid
    subst heq
    exact .leased ⟨j.id, i.leaseId j.id, now, cfg.stuckTimeout⟩
      (by rw [grants_append, grants_singleton]; exact List.mem_append_right _ hg)
      rfl rfl (le_refl _) (.inl rfl)
  | sent _ => cases hg
  | rescheduled _ => cases hg
  | dead _ => cases hg

/-- After a claim, the row waits as long as the lease is not rescheduled. -/
theorem waits_of_run (hrun : OutboxRun log jobs) :
    Orderly log → ∀ before x after, log = before ++ x :: after →
      ∀ g ∈ OutboxRecord.grants x, (∀ z ∈ after, OutboxRecord.reschedules g z = false) →
        ∀ j ∈ jobs, j.id = g.jobId → j.Waits log g := by
  refine outboxRun_rule (J := fun jobs log => Orderly log → ∀ before x after,
    log = before ++ x :: after → ∀ g ∈ OutboxRecord.grants x,
      (∀ z ∈ after, OutboxRecord.reschedules g z = false) → ∀ j ∈ jobs, j.id = g.jobId →
        j.Waits log g) ?_ ?_ hrun
  · intro _ before x after hlog
    simp at hlog
  · intro log jobs jobs' y hrun ih heffect horderly before x after hlog g hg hkept j' hj' hid
    obtain ⟨horderly₀, hy⟩ := horderly.of_snoc
    rcases Journal.snoc_eq_append_cons hlog with ⟨rfl, rfl, rfl⟩ | ⟨after', rfl, rfl⟩
    · -- the claim is the last call
      cases heffect with
      | inserted hgrants _ _ =>
        rw [hgrants] at hg
        cases hg
      | moved hrows hgrants _ =>
        obtain ⟨j, hj, rfl⟩ := List.mem_map.mp hj'
        have hmoves := hrows j hj
        exact hmoves.waits hg (hgrants.nodup (outboxRun_nodup hrun))
          (hmoves.id_eq.symm.trans hid)
    · -- the claim is older, and the row has waited since
      have hkept₀ : ∀ z ∈ after', OutboxRecord.reschedules g z = false := fun z hz =>
        hkept z (List.mem_append_left _ hz)
      have hwaits := ih horderly₀ before x after' rfl g hg hkept₀
      cases heffect with
      | inserted hgrants _ hnew =>
        rcases List.mem_append.mp hj' with hj | hj
        · exact (hwaits j' hj hid).mono [y]
        · obtain ⟨k, hk, hkid⟩ := exists_of_mem_grants hrun g (by simp [hg])
          rw [List.mem_singleton.mp hj] at hid
          exact absurd (hkid.trans hid.symm) (hnew k hk)
      | moved hrows _ _ =>
        obtain ⟨j, hj, rfl⟩ := List.mem_map.mp hj'
        have hmoves := hrows j hj
        have hid₀ : j.id = g.jobId := hmoves.id_eq.symm.trans hid
        have hlast : OutboxRecord.reschedules g y = false :=
          hkept y (List.mem_append_right _ (List.mem_singleton_self y))
        exact (hwaits j hj hid₀).step hmoves hy hlast hid₀

end

/-- The lease of an orderly history is locked until it runs out. -/
theorem Orderly.lockedUntil_eq {log : List OutboxRecord} (h : Orderly log) {g : Grant}
    (hg : g ∈ grants log) : g.lockedUntil = g.expiresAt.timePointTz := by
  obtain ⟨x, hx, hgx⟩ := List.mem_flatMap.mp hg
  obtain ⟨before, after, rfl⟩ := List.append_of_mem hx
  have horderly := ((orderlyFrom_append [] before (x :: after)).mp h).2.1
  obtain ⟨op, res⟩ := x
  cases op with
  | claimBatch i cfg now =>
    cases res with
    | claimed jobs =>
      obtain ⟨job, _, rfl⟩ := List.mem_map.mp hgx
      exact congrArg Time.timePointTz (Time.plus_eq horderly.2)
    | _ => cases hgx
  | _ => cases hgx

/-- For every history of calls with fresh leases: at most one result is stored under each
lease, and once the job was handed out again, a call under the old lease returns `false` and
changes nothing. In an orderly history, two claims of one job within the time of the first
lease have a successful `Reschedule` of that lease between them. -/
theorem lease_fencing (log : List OutboxRecord) (jobs : List OutboxJob)
    (hrun : OutboxRun log jobs) (hfresh : FreshLeases log) :
    (∀ g ∈ grants log, storedCount log g.leaseId ≤ 1) ∧
    (∀ before x after, log = before ++ x :: after → ∀ g ∈ OutboxRecord.grants x,
      (∃ g' ∈ grants after, g'.jobId = g.jobId) → ∀ op id, OutboxOp.lease op =
        some (id, g.leaseId) → op.exec jobs = .ok (.persisted false, jobs)) ∧
    (Orderly log → ReleasedBetweenClaims log) := by
  have hinv := leaseInv_of_run hrun hfresh
  refine ⟨fun g _ => hinv.once g.leaseId, ?_, ?_⟩
  · rintro before x after hlog g hg ⟨g', hg', hid⟩ op id hlease
    exact OutboxOp.exec_of_not_held hlease fun j hj =>
      hinv.not_held_of_reclaimed hfresh hlog hg hg' hid hj
  · intro horderly before x middle y after hlog g hg g' hg' hid hearly
    have hsplit : log = (before ++ x :: middle) ++ y :: after := by simp [hlog]
    rw [hsplit] at hrun horderly
    obtain ⟨jobs₁, jobs₂, hrun₁, hy, _⟩ := hrun.split
    have hnodup := outboxRun_nodup hrun₁
    obtain ⟨j, hj, hjid, M, hdue⟩ :=
      (OutboxOp.exec_effect hnodup hy).claimable_of_mem hg' hnodup
    by_contra hnone
    have hkept : ∀ z ∈ middle, OutboxRecord.reschedules g z = false := by
      intro z hz
      rw [Bool.eq_false_iff]
      exact fun hreleased => hnone ⟨z, hz, hreleased⟩
    have hwaits : j.Waits (before ++ x :: middle) g :=
      waits_of_run hrun₁ ((orderlyFrom_append [] _ _).mp horderly).1 before x middle rfl g hg
        hkept j hj (hjid.trans hid)
    have hlocked := horderly.lockedUntil_eq (g := g) (by simp [hg])
    exact absurd (hwaits.le_of_claimable hdue) (not_le.mpr (hlocked ▸ hearly))

/-! ### Concrete histories -/

instance (log : List OutboxRecord) : Decidable (FreshLeases log) :=
  inferInstanceAs (Decidable (List.Nodup _))

/-- The configuration of the concrete workers: leases of ten seconds, and a first delay of
one. -/
def tenSecondLeases : EmailOutboxRuntimeConfig := { stuckTimeout := 10, retryBaseDelay := 1 }

/-- The calls of three workers. The first claims the job and stalls. The second claims it
after fifteen seconds. Its clock is set back before the delivery fails, so the next attempt is
after five seconds, and the third claims the job then. -/
def clockSetBack : List OutboxOp :=
  [.insert { newJobId := ⟨2⟩ } ⟨"unit@example.com", "password_reset",
      [("token", "token"), ("locale", "ru")], Uuid.text ⟨1⟩⟩,
    .claimBatch { leaseId := fun _ => ⟨11⟩ } tenSecondLeases 0,
    .claimBatch { leaseId := fun _ => ⟨12⟩ } tenSecondLeases (seconds 15),
    .reschedule {} ⟨2⟩ ⟨12⟩ ((seconds 3).plus
      (EmailOutboxProcessor.computeEmailOutboxRetryDelay 2 tenSecondLeases)) "timeout",
    .claimBatch { leaseId := fun _ => ⟨13⟩ } tenSecondLeases (seconds 5)]

/-- The same as a run of the service: a reset mail is enqueued, and three workers run. -/
def clockSetBackTicks : List (Interleaving.Move Input Request) :=
  .start 1 ⟨hourSessions, .requestReset ⟨"unit@example.com"⟩ {}⟩ ::
    acts 1 [{}, {}, { newCodeId := ⟨1⟩, newJobId := ⟨2⟩, secret := "token" }] ++
  .start 2 ⟨hourSessions, .tick tenSecondLeases⟩ ::
    acts 2 [{}, { leaseId := fun _ => ⟨11⟩ }] ++
  .start 3 ⟨hourSessions, .tick tenSecondLeases⟩ ::
    acts 3 [{ now := seconds 15 }, { leaseId := fun _ => ⟨12⟩ },
      { now := seconds 15, deliveryError := some ("timeout", true) }, { now := seconds 3 }] ++
  .start 4 ⟨hourSessions, .tick tenSecondLeases⟩ ::
    acts 4 [{ now := seconds 5 }, { leaseId := fun _ => ⟨13⟩ }]

/-- The history shows two claims within the time of the first lease, with no `Reschedule` of
that lease between them. -/
def overlaps : List OutboxRecord → Bool
  | [_, x, z₁, z₂, y] => x.grants.any fun g => y.grants.any fun g' =>
      g'.jobId == g.jobId && g'.claimedAt.timePointTz < g.expiresAt.timePointTz &&
        !z₁.reschedules g && !z₂.reschedules g
  | _ => false

/-- Such a history breaks the rule for two claims. -/
theorem not_releasedBetweenClaims_of_overlaps {log : List OutboxRecord}
    (h : overlaps log = true) : ¬ ReleasedBetweenClaims log := by
  unfold overlaps at h
  split at h
  · rename_i w x z₁ z₂ y
    simp only [List.any_eq_true, Bool.and_eq_true, beq_iff_eq, decide_eq_true_eq,
      Bool.not_eq_true'] at h
    obtain ⟨g, hg, g', hg', ⟨⟨hid, hearly⟩, hz₁⟩, hz₂⟩ := h
    intro hreleased
    obtain ⟨z, hz, hreschedules⟩ :=
      hreleased [w] x [z₁, z₂] y [] rfl g hg g' hg' hid hearly
    simp only [List.mem_cons, List.not_mem_nil, or_false] at hz
    rcases hz with rfl | rfl
    · rw [hz₁] at hreschedules
      cases hreschedules
    · rw [hz₂] at hreschedules
      cases hreschedules
  · cases h

/-- With a clock that is set back, a job is handed out twice within the time of the first
lease, without a `Reschedule` of that lease. The table of the history is that of a run of the
service with three workers. -/
theorem lease_overlap :
    ∃ log jobs, OutboxRun log jobs ∧ FreshLeases log ∧ ¬ ReleasedBetweenClaims log ∧
      ∃ s : SysState, Reachable plainApp.run anyRun Seed s ∧ s.store.emailOutbox = jobs := by
  obtain ⟨⟨log, jobs⟩, hp, hfresh, hoverlaps, hticks⟩ :
      ∃ p ∈ Journal.replay OutboxOp.exec [] clockSetBack, FreshLeases p.1 ∧ overlaps p.1 ∧
        (Interleaving.replay plainApp.run anyRun (.initial unitDb) clockSetBackTicks).any
          fun s => s.store.emailOutbox = p.2 := by
    decide +kernel
  exact ⟨log, jobs, Journal.run_of_replay hp, hfresh,
    not_releasedBetweenClaims_of_overlaps hoverlaps, exists_run _ _ _ _ hticks⟩

/-- The second worker reschedules its own claim in time: the third claim is within the time of
the second lease, and the rule for two claims holds. -/
theorem lease_fencing_rescheduled :
    ∃ log jobs, OutboxRun log jobs ∧ FreshLeases log ∧ Orderly log ∧
      ReleasedBetweenClaims log ∧ ∀ g ∈ grants log, storedCount log g.leaseId ≤ 1 := by
  obtain ⟨⟨log, jobs⟩, hp, hfresh, horderly⟩ : ∃ p ∈ Journal.replay OutboxOp.exec []
      [.insert { newJobId := ⟨2⟩ } ⟨"unit@example.com", "password_reset", [], ""⟩,
        .claimBatch { leaseId := fun _ => ⟨11⟩ } tenSecondLeases 0,
        .reschedule {} ⟨2⟩ ⟨11⟩ (seconds 5) "timeout",
        .claimBatch { leaseId := fun _ => ⟨12⟩ } tenSecondLeases (seconds 5),
        .markSent ⟨2⟩ ⟨12⟩ (seconds 6) ""], FreshLeases p.1 ∧ Orderly p.1 := by
    decide +kernel
  have hrun : OutboxRun log jobs := Journal.run_of_replay hp
  obtain ⟨honce, _, hreleased⟩ := lease_fencing log jobs hrun hfresh
  exact ⟨log, jobs, hrun, hfresh, horderly, hreleased horderly, honce⟩

end SmirklyAuth
