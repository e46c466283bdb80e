import SmirklyAuth.Protocol.OutboxOperations

/-!
# `SmirklyAuth.Proofs.OutboxClaims`: which mail jobs can still be claimed

`email_outbox_claim_batch` counts an attempt when it hands out a job and requires that the
attempts are below the limit. Whether a job is given up is decided later, by the worker that
holds the lease. So the job of a worker that stops in its last attempt is `processing`, with
its payload, and no claim ever takes it again (`outbox_stranded`).

The counter of a job is the number of claims that took it, in every reachable state
(`OutboxInv.counted`). Hence the exact condition: an open job can still be claimed if and only
if fewer than `max_attempts` claims have taken it (`outbox_claimable_iff`).
-/

set_option autoImplicit false

namespace SmirklyAuth

open Interleaving

/-- The job is neither sent nor given up. -/
def OutboxJob.isOpen (j : OutboxJob) : Bool :=
  j.status == .pending || j.status == .processing

/-- From some time on, the condition of `ClaimBatch` holds for the job. -/
def OutboxJob.StillClaimable (M : Nat) (j : OutboxJob) : Prop :=
  ∃ T : Time, ∀ now : Time, T ≤ now → j.claimable now M = true

/-- The number of claims that have taken the job. -/
def claimCount (tr : Trace) (id : Uuid) : Nat := tr.countP fun p => decide (id ∈ p.2.claimedIds)

/-- An open job can be claimed again exactly when its attempts are below the limit: the retry
time and the lease pass. -/
theorem OutboxJob.stillClaimable_iff {M : Nat} {j : OutboxJob} (hopen : j.isOpen = true) :
    j.StillClaimable M ↔ (j.attempts : Int) < toInt32 M := by
  unfold OutboxJob.isOpen at hopen
  constructor
  · rintro ⟨T, hT⟩
    have hnow := hT T (le_refl T)
    simp only [OutboxJob.claimable, Bool.and_eq_true, decide_eq_true_eq] at hnow
    exact hnow.1.2
  · intro hlimit
    cases hlease : j.lockedUntil with
    | none =>
      refine ⟨j.nextAttemptAt, fun now hnow => ?_⟩
      simp [OutboxJob.claimable, hopen, hlimit, hlease, hnow]
    | some until_ =>
      refine ⟨max j.nextAttemptAt until_, fun now hnow => ?_⟩
      have hdue : j.nextAttemptAt ≤ now := le_trans (le_max_left _ _) hnow
      have hfree : until_ ≤ now := le_trans (le_max_right _ _) hnow
      simp [OutboxJob.claimable, hopen, hlimit, hlease, hdue, hfree]

/-! ### The counter of attempts -/

/-- The invariant of the jobs and the trace:

- `ids`: the ids of the table are unique;
- `claimed`: a job that was claimed is a row of the table;
- `counted`: the attempts of a job are the claims that have taken it. -/
structure OutboxInv (db : Db) (tr : Trace) : Prop where
  ids : (db.emailOutbox.map (·.id)).Nodup
  claimed : ∀ c e id, (c, e) ∈ tr → id ∈ e.claimedIds → ∃ j ∈ db.emailOutbox, j.id = id
  counted : ∀ j ∈ db.emailOutbox, j.attempts = claimCount tr j.id

/-- A step counts once if it hands out the job. -/
theorem claimCount_snoc (tr : Trace) (c : Nat) (e : Event) (id : Uuid) :
    claimCount (tr ++ [(c, e)]) id =
      claimCount tr id + if id ∈ e.claimedIds then 1 else 0 := by
  unfold claimCount
  rw [List.countP_append, List.countP_singleton]
  simp

section
variable {app : App} {r : Request} {db db' : Db} {tr : Trace} {c : Nat} {e : Event}

/-- A run starts without jobs. -/
theorem OutboxInv.init (h : Seed db) : OutboxInv db [] where
  ids := by
    rw [h.emailOutbox]
    exact List.nodup_nil
  claimed _ _ _ hmem := nomatch hmem
  counted j hj := by
    rw [h.emailOutbox] at hj
    cases hj

/-- No claim has taken a job with a new id. -/
theorem OutboxInv.claimCount_eq_zero (h : OutboxInv db tr) {id : Uuid}
    (hnew : ∀ j ∈ db.emailOutbox, j.id ≠ id) : claimCount tr id = 0 := by
  unfold claimCount
  rw [List.countP_eq_zero]
  rintro ⟨c, e⟩ hmem htaken
  obtain ⟨j, hj, hid⟩ := h.claimed c e id hmem (of_decide_eq_true htaken)
  exact hnew j hj hid

/-- Every step keeps the invariant. -/
theorem OutboxInv.step (h : OutboxInv db tr)
    (hstep : ProtocolStep app r (own c tr) e db db') : OutboxInv db' (tr ++ [(c, e)]) := by
  have hjobs := step_outbox hstep
  refine ⟨hjobs.nodup h.ids, ?_, ?_⟩
  · intro c' e' id hmem hid
    have hold : ∃ j ∈ db.emailOutbox, j.id = id := by
      rcases List.mem_append.mp hmem with hmem | hmem
      · exact h.claimed c' e' id hmem hid
      · cases List.mem_singleton.mp hmem
        exact hjobs.claimed_mem h.ids hid
    obtain ⟨j, hj, hjid⟩ := hold
    obtain ⟨j', hj', hjid'⟩ := hjobs.keeps h.ids hj
    exact ⟨j', hj', hjid'.trans hjid⟩
  · intro j' hj'
    rw [claimCount_snoc]
    cases hjobs.row h.ids hj' with
    | same hj hids => rw [if_neg hids, h.counted j' hj, Nat.add_zero]
    | enqueued hnew hids _ hattempts =>
      rw [hattempts, h.claimCount_eq_zero hnew, hids]
      simp
    | @claimed _ _ _ _ j _ _ hj hids _ hrow =>
      subst hrow
      show j.attempts + 1 = claimCount tr j.id + if j.id ∈ e.claimedIds then 1 else 0
      rw [if_pos hids, h.counted j hj]
    | stored _ _ hj _ hids hid hattempts _ =>
      rw [hattempts, hid, h.counted _ hj, hids]
      simp

end

/-- The invariant holds in every reachable state. -/
theorem outboxInv_of_reachable {app : App} {start : Request → Prop}
    {act : SysState → Nat → Event → Prop} {s : SysState}
    (hs : Reachable app.run (admission start act) Seed s) : OutboxInv s.store s.trace :=
  Reachable.invariant (A := admission start act) (J := OutboxInv) (app_refines app)
    (fun _ => OutboxInv.init) (fun _ _ _ _ _ h _ _ hstep => h.step hstep) hs

/-! ### Whole runs -/

/-- The workers run with a fixed limit. -/
def outboxLimit (M : Nat) (r : Request) : Bool :=
  match r.command with
  | .tick cfg => cfg.maxAttempts == M
  | _ => true

/-- The runs in which all workers have the limit `M`. A worker may stop at any step. -/
abbrev fixedMaxAttempts (M : Nat) : SysAdmission :=
  admission (fun r => outboxLimit M r = true) fun _ _ _ => True

/-- An open job can still be claimed if and only if fewer than `M` claims have taken it. -/
theorem outbox_claimable_iff (app : App) (M : Nat) (s : SysState)
    (hs : Reachable app.run (fixedMaxAttempts M) Seed s) :
    ∀ j ∈ s.store.emailOutbox, j.isOpen = true →
      (j.StillClaimable M ↔ (claimCount s.trace j.id : Int) < toInt32 M) := by
  intro j hj hopen
  have hcount := (outboxInv_of_reachable hs).counted j hj
  rw [← hcount]
  exact OutboxJob.stillClaimable_iff hopen

/-- A reset mail is enqueued, and a worker with the given limit takes it and stops. -/
def claimAndStop (maxAttempts : Nat) : List (Move Input Request) :=
  .start 1 ⟨hourSessions, .requestReset ⟨"unit@example.com"⟩ {}⟩ ::
    acts 1 [{}, {}, { newCodeId := ⟨1⟩, newJobId := ⟨2⟩, secret := "token" }] ++
    .start 2 ⟨hourSessions, .tick { maxAttempts }⟩ :: acts 2 [{}, { leaseId := fun _ => ⟨3⟩ }]

/-- The worker of the last attempt stops: the job is open, it still holds the raw token, and
no claim takes it at any time. -/
theorem outbox_stranded :
    ∃ s : SysState, Reachable plainApp.run (fixedMaxAttempts 1) Seed s ∧
      ∃ j ∈ s.store.emailOutbox, j.status = .processing ∧
        j.payload.lookup (lit "token") = some (lit "token") ∧ ¬ j.StillClaimable 1 := by
  obtain ⟨s, hs, j, hj, hstatus, hpayload, hattempts⟩ := exists_run plainApp (fixedMaxAttempts 1)
    (claimAndStop 1) (fun s => ∃ j ∈ s.store.emailOutbox, j.status = .processing ∧
      j.payload.lookup (lit "token") = some (lit "token") ∧ j.attempts = 1) (by decide +kernel)
  have hopen : j.isOpen = true := by simp [OutboxJob.isOpen, hstatus]
  refine ⟨s, hs, j, hj, hstatus, hpayload, fun hclaimable => ?_⟩
  have hlt := (OutboxJob.stillClaimable_iff hopen).mp hclaimable
  have hone : toInt32 1 = 1 := by decide
  omega

/-- With a limit of two, the same job can be claimed again. -/
theorem outbox_claimable_iff_secondAttempt :
    ∃ s : SysState, Reachable plainApp.run (fixedMaxAttempts 2) Seed s ∧
      ∃ j ∈ s.store.emailOutbox, j.status = .processing ∧ j.StillClaimable 2 := by
  obtain ⟨s, hs, j, hj, hstate⟩ := exists_run plainApp (fixedMaxAttempts 2) (claimAndStop 2)
    (fun s => ∃ j ∈ s.store.emailOutbox, j.status = .processing ∧ claimCount s.trace j.id = 1)
    (by decide +kernel)
  have hopen : j.isOpen = true := by simp [OutboxJob.isOpen, hstate.1]
  have htwo : toInt32 2 = 2 := by decide
  have hlt : (claimCount s.trace j.id : Int) < toInt32 2 := by omega
  exact ⟨s, hs, j, hj, hstate.1, (outbox_claimable_iff plainApp 2 s hs j hj hopen).mpr hlt⟩

end SmirklyAuth
