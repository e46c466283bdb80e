import SmirklyAuth.Protocol.CodeTables
import SmirklyAuth.Protocol.OutboxOperations

/-!
# `SmirklyAuth.Proofs.OutboxDelivery`: the mails that a worker delivers

The send of a mail and the transaction that stores its success are in one `try` block. When
the transaction aborts, the handler treats the mail as not delivered: it schedules the job
again, or gives it up (`delivered_then_failed`). A mail that was delivered is never
treated so when this transaction does not abort (`delivered_not_failed`).
-/

set_option autoImplicit false

namespace SmirklyAuth

open Interleaving

/-- The step sends the mail of the job. -/
def Event.sends (id : Uuid) : Event → Bool
  | .sentEmail id' _ _ _ => id' == id
  | _ => false

/-! ### The batch of a claim -/

section
variable {app : App} {p : AuthRuntimePolicies} {cfg : EmailOutboxRuntimeConfig}
  {evs : List Event} {jobs : List EmailOutboxEntry} {db db' : Db}

/-- The candidates of a claim are at most `batch_size`. -/
theorem emailOutboxCandidates_length_le (batchSize : Nat) (now : Time) (M : Nat)
    (rows : List OutboxJob) :
    (emailOutboxCandidates batchSize now M rows).length ≤ batchSize := by
  have hcast := toInt32_le batchSize
  unfold emailOutboxCandidates
  rw [List.length_map, List.length_take]
  omega

/-- A claim takes at most `batch_size` rows, all different. -/
theorem claimOf_batch {rows : List OutboxJob} (hnodup : (rows.map (·.id)).Nodup) (i : Input)
    (cfg : EmailOutboxRuntimeConfig) (now : Time) :
    ((rows.filter (claimOf i cfg now rows).cond).map (·.id)).Nodup ∧
      (rows.filter (claimOf i cfg now rows).cond).length ≤ cfg.batchSize := by
  have htaken : ((rows.filter (claimOf i cfg now rows).cond).map (·.id)).Nodup :=
    hnodup.sublist (List.filter_sublist.map _)
  refine ⟨htaken, ?_⟩
  -- the ids of the batch are among the candidates
  have hsub : ∀ id ∈ (rows.filter (claimOf i cfg now rows).cond).map (·.id),
      id ∈ emailOutboxCandidates cfg.batchSize now.timePointTz cfg.maxAttempts rows := by
    intro id hid
    obtain ⟨j, hj, rfl⟩ := List.mem_map.mp hid
    exact List.contains_iff_mem.mp (List.mem_filter.mp hj).2
  have hle := (List.subperm_of_subset htaken hsub).length_le
  rw [List.length_map] at hle
  exact hle.trans (emailOutboxCandidates_length_le _ _ _ _)

/-- A batch has at most `batch_size` jobs, all different. -/
theorem claimed_batch (hnodup : (db.emailOutbox.map (·.id)).Nodup)
    (hstep : ProtocolStep app ⟨p, .tick cfg⟩ evs (.committed (.claimed jobs)) db db') :
    jobs.length ≤ cfg.batchSize ∧ (jobs.map (·.id)).Nodup := by
  have hcommit := hstep.commits
  cases hcommit with
  | @claimed _ _ now i _ _ _ htx =>
    have hop : (OutboxOp.claimBatch i cfg now).tx db = .ok (.claimed jobs, db') :=
      Tx.bind_eq_ok.mpr ⟨_, _, htx, rfl⟩
    have hruns := OutboxOp.runs_of_tx hop
    generalize db'.emailOutbox = rows' at hruns
    cases hruns with
    | claimBatch _ =>
      obtain ⟨htaken, hlength⟩ := claimOf_batch hnodup i cfg now
      rw [List.length_map, List.map_map]
      exact ⟨hlength, htaken⟩

/-- Only a worker sends mails, and only those of the jobs that it has taken. -/
theorem took_of_sentEmail {r : Request} {id : Uuid} {message : EmailMessage} {now : Time}
    {error : Option (Str × Bool)}
    (h : ProtocolStep app r evs (.sentEmail id message now error) db db') :
    ∃ p cfg job, r = ⟨p, .tick cfg⟩ ∧ Took evs job ∧ job.id = id ∧
      EmailOutboxProcessor.parseMessage job = .ok message := by
  cases h with
  | aborted hab => cases hab
  | read hread =>
    cases hread with
    | tickSend hclaimed hjob hmessage =>
      exact ⟨_, _, _, rfl, ⟨_, hclaimed, hjob⟩, rfl, hmessage⟩

/-- Only a worker takes jobs. -/
theorem tick_of_claimed {r : Request} {entries : List EmailOutboxEntry}
    (h : ProtocolStep app r evs (.committed (.claimed entries)) db db') :
    ∃ p cfg, r = ⟨p, .tick cfg⟩ := by
  cases h.commits with
  | claimed _ => exact ⟨_, _, rfl⟩

/-- The jobs of every batch are different. -/
theorem batches_distinct {start : Request → Prop} {act : SysState → Nat → Event → Prop}
    {s : SysState} (hs : Reachable app.run (admission start act) Seed s) :
    ∀ c jobs, .committed (.claimed jobs) ∈ own c s.trace → (jobs.map (·.id)).Nodup := by
  refine Reachable.rule (A := admission start act) (J := fun s => ∀ c jobs,
    Event.committed (.claimed jobs) ∈ own c s.trace → (jobs.map (·.id)).Nodup) (app_refines app)
    (fun _ _ _ _ hmem => nomatch hmem) (fun _ _ _ _ h _ _ => h) ?_ hs
  intro s c r _ _ e d hs h _ _ _ hstep c' jobs hmem
  rcases List.mem_append.mp (mem_own.mp hmem) with hold | hnew
  · exact h c' jobs (mem_own.mpr hold)
  · cases List.mem_singleton.mp hnew
    obtain ⟨p, cfg, rfl⟩ := tick_of_claimed hstep
    exact (claimed_batch (outboxIds_of_reachable hs) hstep).2

end

/-! ### Workers of concrete runs -/

/-- The configuration with which a worker runs. -/
def workerConfig (s : SysState) (c : Nat) : Option EmailOutboxRuntimeConfig :=
  match s.calls c with
  | some ⟨⟨_, .tick cfg⟩, _⟩ => some cfg
  | _ => none

/-- A call with a configuration is that of a worker. -/
theorem workerConfig_eq_some {s : SysState} {c : Nat} {cfg : EmailOutboxRuntimeConfig}
    (h : workerConfig s c = some cfg) : ∃ p prog, s.calls c = some ⟨⟨p, .tick cfg⟩, prog⟩ := by
  unfold workerConfig at h
  split at h
  · rename_i p cfg' prog hcall
    cases h
    exact ⟨p, prog, hcall⟩
  · cases h

/-- The mails that a worker has delivered. -/
def deliveries (tr : Trace) (c : Nat) : List (Uuid × EmailMessage × Time) :=
  (own c tr).filterMap fun
    | .sentEmail id message now none => some (id, message, now)
    | _ => none

/-- A delivery is a send that returned normally. -/
theorem mem_deliveries {tr : Trace} {c : Nat} {id : Uuid} {message : EmailMessage} {now : Time}
    (h : (id, message, now) ∈ deliveries tr c) : (c, .sentEmail id message now none) ∈ tr := by
  obtain ⟨e, he, hsome⟩ := List.mem_filterMap.mp h
  split at hsome
  · cases hsome
    exact mem_own.mp he
  · cases hsome

/-- A reset mail for the account of the concrete runs, at the given time, with the ids of the
token and the job. -/
def enqueueResetAt (now : Time) (c : Nat) (codeId jobId : Uuid) : List (Move Input Request) :=
  .start c ⟨hourSessions, .requestReset ⟨"unit@example.com"⟩ {}⟩ ::
    acts c [{ now }, { now }, { now, newCodeId := codeId, newJobId := jobId, secret := "token" }]

/-- The same at the epoch. -/
def enqueueReset (c : Nat) (codeId jobId : Uuid) : List (Move Input Request) :=
  enqueueResetAt 0 c codeId jobId

/-! ### Delivered mails -/

/-- The step has delivered a mail. -/
def Event.isDelivery : Event → Bool
  | .sentEmail _ _ _ none => true
  | _ => false

/-- The runs in which no transaction aborts that follows a delivery: neither its `Begin`, nor
`MarkSent`, nor its `Commit` throws. -/
abbrev storedDeliveries : SysAdmission :=
  admission (fun _ => True) fun s c e =>
    (own c s.trace).getLast?.any Event.isDelivery = true → e.aborts = false

/-- The invariant of a worker:

- `stored`: no step after a delivery aborts;
- `kept`: it stores no failure of a job whose mail it has delivered. -/
structure DeliveredInv (evs : List Event) : Prop where
  stored : ∀ before e e' after, evs = before ++ e :: e' :: after → e.isDelivery = true →
    e'.aborts = false
  kept : ∀ id message now, .sentEmail id message now none ∈ evs → ∀ tx,
    .committed tx ∈ evs → TxEvent.storesFailure id tx = false

/-- A transaction that stores a failure of a job touches the job. -/
theorem TxEvent.touches_of_storesFailure {id : Uuid} {tx : TxEvent}
    (h : tx.storesFailure id = true) : (Event.committed tx).touches = some id := by
  cases tx with
  | rescheduled => exact congrArg some (beq_iff_eq.mp h)
  | markedDead => exact congrArg some (beq_iff_eq.mp h)
  | _ => cases h

section
variable {cfg : EmailOutboxRuntimeConfig} {t : Time} {done rest : List EmailOutboxEntry}
  {job : EmailOutboxEntry} {evs tail : List Event} {e : Event} {db db' : Db}

/-- The current job is none of those that are done. -/
theorem Treated.not_touched (h : Treated done evs)
    (hnodup : ((done ++ job :: rest).map (·.id)).Nodup) {a : Event} (ha : a ∈ evs) :
    a.touches ≠ some job.id := by
  intro htouches
  obtain ⟨k, hk, hid⟩ := h.touched a ha job.id htouches
  rw [List.map_append, List.map_cons, List.nodup_append] at hnodup
  exact hnodup.2.2 k.id (List.mem_map_of_mem hk) job.id (.head _) hid

/-- A worker has not delivered the mail of a job when it stores its failure. -/
theorem DeliveredInv.not_delivered {x : Error}
    (h : DeliveredInv (tickEvents t (done ++ job :: rest) (evs ++ tail)))
    (hnodup : ((done ++ job :: rest).map (·.id)).Nodup) (htreated : Treated done evs)
    (htail : Undelivered job tail x) {message : EmailMessage} {now : Time} :
    .sentEmail job.id message now none ∉ tickEvents t (done ++ job :: rest) (evs ++ tail) := by
  intro hmem
  have hmem' : .sentEmail job.id message now none ∈ evs ++ tail := by
    simpa [tickEvents] using hmem
  rcases List.mem_append.mp hmem' with hmem' | hmem'
  · exact htreated.not_touched hnodup hmem' rfl
  · cases htail with
    | unparsed => cases hmem'
    | refused => cases List.mem_singleton.mp hmem'
    | rejected => cases List.mem_singleton.mp hmem'
    | @unstored message' now' what _ =>
      -- the transaction after the delivery aborted
      have hkept := h.stored (tickEvents t (done ++ job :: rest) evs)
        (.sentEmail job.id message' now' none) (.failed what) [] rfl rfl
      cases hkept

/-- The step that stores a failure comes without a delivery of the mail. -/
theorem DeliveredInv.not_delivered_of_order (h : DeliveredInv evs)
    (hdistinct : ∀ jobs, .committed (.claimed jobs) ∈ evs → (jobs.map (·.id)).Nodup)
    {tx : TxEvent} {id : Uuid} (hstep : TickStep cfg evs (.committed tx) db db')
    (hfailure : tx.storesFailure id = true) {message : EmailMessage} {now : Time} :
    .sentEmail id message now none ∉ evs := by
  obtain ⟨t, done, job, rest, evs₀, tail, x, rfl, htreated, htail, rfl⟩ :=
    hstep.of_failure hfailure
  exact h.not_delivered (hdistinct _ (.tail _ (.head _))) htreated htail

/-- The step that sends a mail comes before any failure of the job is stored. -/
theorem not_failed_of_order
    (hdistinct : ∀ jobs, .committed (.claimed jobs) ∈ evs → (jobs.map (·.id)).Nodup)
    {id : Uuid} {message : EmailMessage} {now : Time} {error : Option (Str × Bool)}
    (hstep : TickStep cfg evs (.sentEmail id message now error) db db') {tx : TxEvent}
    (htx : .committed tx ∈ evs) : tx.storesFailure id = false := by
  rw [Bool.eq_false_iff]
  intro hfailure
  obtain ⟨t, done, job, rest, evs₀, rfl, htreated, rfl, _⟩ := hstep.of_sentEmail
  rcases htx with _ | ⟨_, _ | ⟨_, htx⟩⟩
  · cases hfailure
  · exact htreated.not_touched (hdistinct _ (.tail _ (.head _))) htx
      (TxEvent.touches_of_storesFailure hfailure)

/-- Every step of a worker keeps the invariant. -/
theorem DeliveredInv.step (h : DeliveredInv evs)
    (hadmitted : evs.getLast?.any Event.isDelivery = true → e.aborts = false)
    (hdistinct : ∀ jobs, .committed (.claimed jobs) ∈ evs → (jobs.map (·.id)).Nodup)
    (htick : TickStep cfg evs e db db') :
    DeliveredInv (evs ++ [e]) := by
  constructor
  · intro before a a' after hevs hdelivery
    have hsplit : evs ++ [e] = (before ++ [a]) ++ a' :: after := by simp [hevs]
    rcases Journal.snoc_eq_append_cons hsplit with ⟨hbefore, rfl, rfl⟩ | ⟨after', rfl, hlog⟩
    · apply hadmitted
      rw [← hbefore]
      simp [hdelivery]
    · exact h.stored before a a' after' (by simp [hlog]) hdelivery
  · intro id message now hsent tx htx
    rcases List.mem_append.mp hsent with hold | hnew
    · rcases List.mem_append.mp htx with htx | htx
      · exact h.kept id message now hold tx htx
      · cases List.mem_singleton.mp htx
        rw [Bool.eq_false_iff]
        exact fun hfailure => h.not_delivered_of_order hdistinct htick hfailure hold
    · cases List.mem_singleton.mp hnew
      rcases List.mem_append.mp htx with htx | htx
      · exact not_failed_of_order hdistinct htick htx
      · cases List.mem_singleton.mp htx

/-- A worker starts without events. -/
theorem DeliveredInv.init : DeliveredInv [] where
  stored before _ _ _ hevs := by simp at hevs
  kept _ _ _ hmem := nomatch hmem

end

/-- A worker never schedules or gives up a job again whose mail it has delivered, in every run
in which the transaction that stores the delivery does not abort. -/
theorem delivered_not_failed (app : App) (s : SysState)
    (hs : Reachable app.run storedDeliveries Seed s) :
    ∀ c p cfg prog id message now, s.calls c = some ⟨⟨p, .tick cfg⟩, prog⟩ →
      (c, .sentEmail id message now none) ∈ s.trace → ∀ leaseId persisted,
        (c, .committed (.rescheduled id leaseId persisted)) ∉ s.trace ∧
        (c, .committed (.markedDead id leaseId persisted)) ∉ s.trace := by
  have hcalls := Reachable.call_invariant (A := storedDeliveries)
    (J := fun r evs => ∀ p cfg, r = ⟨p, .tick cfg⟩ → DeliveredInv evs)
    (app_refinesTick app) (fun _ _ _ _ _ => .init) ?_ hs
  · intro c p cfg prog id message now hcall hsent leaseId persisted
    have hkept := (hcalls c _ hcall p cfg rfl).kept id message now (mem_own.mpr hsent)
    constructor
    · intro hmem
      have hfalse := hkept _ (mem_own.mpr hmem)
      simp [TxEvent.storesFailure] at hfalse
    · intro hmem
      have hfalse := hkept _ (mem_own.mpr hmem)
      simp [TxEvent.storesFailure] at hfalse
  · rintro s d c r e hs hJ _ ⟨_, hadmitted⟩ htick p cfg rfl
    exact (hJ p cfg rfl).step hadmitted (batches_distinct hs c) htick

/-- A worker with the given limit delivers a mail, and the connection to the database is lost
before it has stored this. -/
def lostConnection (maxAttempts : Nat) : List (Move Input Request) :=
  enqueueReset 1 ⟨1⟩ ⟨2⟩ ++ .start 2 ⟨hourSessions, .tick { maxAttempts }⟩ ::
    acts 2 [{}, {}, {}, { fault := some "connection lost" }, {}]

/-- The worker has delivered a mail and then stored the status for its job. -/
def deliveredThen (status : OutboxStatus) (s : SysState) : Prop :=
  ∃ id message now leaseId, (2, .sentEmail id message now none) ∈ s.trace ∧
    ((2, .committed (.rescheduled id leaseId true)) ∈ s.trace ∨
      (2, .committed (.markedDead id leaseId true)) ∈ s.trace) ∧
    ∃ j ∈ s.store.emailOutbox, j.id = id ∧ j.status = status

/-- Such a run exists if the replay of the lost connection shows one. -/
theorem exists_deliveredThen (maxAttempts : Nat) (leaseId : Uuid) {status : OutboxStatus}
    (h : (replay plainApp.run anyRun (State.initial unitDb) (lostConnection maxAttempts)).any
      (fun s => ∃ d ∈ deliveries s.trace 2,
        ((2, .committed (.rescheduled d.1 leaseId true)) ∈ s.trace ∨
          (2, .committed (.markedDead d.1 leaseId true)) ∈ s.trace) ∧
        ∃ j ∈ s.store.emailOutbox, j.id = d.1 ∧ j.status = status) = true) :
    ∃ s : SysState, Reachable plainApp.run anyRun Seed s ∧ deliveredThen status s := by
  obtain ⟨s, hs, ⟨id, message, now⟩, hd, hfailure, hrow⟩ := exists_run _ _ _ _ h
  exact ⟨s, hs, id, message, now, leaseId, mem_deliveries hd, hfailure, hrow⟩

/-- When the delivery cannot be stored, the worker schedules the delivered mail again, or
gives it up in its last attempt. -/
theorem delivered_then_failed :
    (∃ s : SysState, Reachable plainApp.run anyRun Seed s ∧ deliveredThen .pending s) ∧
    (∃ s : SysState, Reachable plainApp.run anyRun Seed s ∧ deliveredThen .dead s) := by
  constructor
  · exact exists_deliveredThen 10 ⟨2⟩ (by decide +kernel)
  · exact exists_deliveredThen 1 ⟨2⟩ (by decide +kernel)

/-- A worker that delivers its mail and stores this. -/
theorem delivered_not_failed_stored :
    ∃ s : SysState, Reachable plainApp.run storedDeliveries Seed s ∧
      ∃ id message now, (2, .sentEmail id message now none) ∈ s.trace ∧
        ∀ leaseId persisted, (2, .committed (.rescheduled id leaseId persisted)) ∉ s.trace := by
  obtain ⟨s, hs, hcfg, hsome⟩ := exists_run plainApp storedDeliveries
    (enqueueReset 1 ⟨1⟩ ⟨2⟩ ++ .start 2 ⟨hourSessions, .tick {}⟩ :: acts 2 [{}, {}, {}, {}])
    (fun s => (workerConfig s 2).isSome ∧ deliveries s.trace 2 ≠ []) (by decide +kernel)
  obtain ⟨cfg, hcfg⟩ := Option.isSome_iff_exists.mp hcfg
  obtain ⟨p, prog, hcall⟩ := workerConfig_eq_some hcfg
  obtain ⟨⟨id, message, now⟩, hd⟩ := List.exists_mem_of_ne_nil _ hsome
  have hmem := mem_deliveries hd
  exact ⟨s, hs, id, message, now, hmem, fun leaseId persisted =>
    (delivered_not_failed plainApp s hs 2 p cfg prog id message now hcall hmem leaseId
      persisted).1⟩

end SmirklyAuth
