import SmirklyAuth.Lib.Solo
import SmirklyAuth.Proofs.OutboxDelivery

/-!
# `SmirklyAuth.Proofs.TickAccounting`: every claimed job is accounted for

`Tick` handles the jobs of its batch one after the other, and each of them ends with one call of
the metrics. `JobAccount` says what the events of one job are: exactly one record, which agrees
with the status that this `Tick` has committed for the job, and no rescheduling of a job that
cannot succeed. It is read off the ways in which a job ends (`Settled`). `TickEffect` says what
the events stand for in the table.

The description holds in every run of the service. Other workers may hold or change the same
rows, and every port and every transaction may fail at any time.
-/

set_option autoImplicit false

namespace SmirklyAuth

open Interleaving Prog EmailOutboxProcessor
open Sql (Update)

/-! ### Events -/

/-- The status that a record stands for. -/
def Event.recordedStatus : Event → Option OutboxStatus
  | .deliveryOutcome .sent => some .sent
  | .deliveryOutcome .retryScheduled => some .pending
  | .deliveryOutcome .dead => some .dead
  | _ => none

/-- The transaction is that of `Reschedule`, with or without effect. -/
def Event.reschedules : Event → Bool
  | .committed (.rescheduled _ _ _) => true
  | _ => false

/-- The events of a job that is done:

- `record`: one record, of a delivery outcome or of a persist error, and the transition of the
  job that was committed is the recorded one;
- `sends`: only mails of this job were sent;
- `permanent`: a job that cannot succeed is not rescheduled. -/
structure JobAccount (job : EmailOutboxEntry) (evs : List Event) : Prop where
  record : ∃ record, evs.filter Event.isRecord = [record] ∧ record ≠ .outboxError .claim ∧
    evs.filterMap Event.transition =
      (record.recordedStatus.map fun status => (job.id, job.leaseId, status)).toList
  sends : ∀ id message now error, .sentEmail id message now error ∈ evs → id = job.id
  permanent : Undeliverable job evs → ∀ e ∈ evs, e.reschedules = false

/-- What a step of `Tick` does to the jobs. A transition gives the new status to the job that is
processed under the lease. A step that is neither a transition nor a claim does nothing. -/
def TickEffect (e : Event) (rows rows' : List OutboxJob) : Prop :=
  match e.transition with
  | some (id, leaseId, status) =>
      (∃ j ∈ rows, j.leasedBy id leaseId = true) ∧
        List.Forall₂ (fun j j' =>
          if j.leasedBy id leaseId then j'.id = j.id ∧ j'.status = status else j' = j) rows rows'
  | none => (∃ jobs, e = .committed (.claimed jobs)) ∨ rows' = rows

/-! ### One job -/

section
variable {cfg : EmailOutboxRuntimeConfig} {job : EmailOutboxEntry} {tail : List Event} {x : Error}

/-- A job that is not delivered yet has no record and no result. -/
theorem Undelivered.quiet (h : Undelivered job tail x) :
    tail.filter Event.isRecord = [] ∧ tail.filterMap Event.transition = [] ∧
      ∀ e ∈ tail, e.reschedules = false := by
  cases h <;> simp [Event.isRecord, Event.transition, Event.reschedules]

/-- Only the mail of the job was sent. -/
theorem Treated.sends_of_singleton (h : Treated [job] tail) :
    ∀ id message now error, .sentEmail id message now error ∈ tail → id = job.id := by
  intro id message now error hmem
  obtain ⟨k, hk, hid⟩ := h.touched _ hmem id rfl
  rw [← hid, List.mem_singleton.mp hk]

/-- The error of a job without a message is permanent. -/
theorem isRetryable_of_parseMessage (h : parseMessage job = .error x) :
    isRetryable x = false := by
  simp only [parseMessage] at h
  split at h
  · split at h
    · cases h
    · cases h
      rfl
  split at h
  · split at h
    · cases h
    · cases h
      rfl
  · cases h
    rfl

/-- A job that cannot be delivered has thrown an exception that is not retryable. -/
theorem Undelivered.isRetryable_eq_false (h : Undelivered job tail x)
    (hpermanent : Undeliverable job tail) : isRetryable x = false := by
  rcases hpermanent with ⟨y, hy⟩ | ⟨message, now, what, hsent⟩
  · cases h with
    | unparsed hx => exact isRetryable_of_parseMessage hx
    | refused hx => cases hx.symm.trans hy
    | rejected hx => cases hx.symm.trans hy
    | unstored hx => cases hx.symm.trans hy
  · cases h with
    | unparsed _ => cases hsent
    | refused _ => cases List.mem_singleton.mp hsent
    | rejected _ =>
      cases List.mem_singleton.mp hsent
      rfl
    | unstored _ => simp at hsent

/-- The account of a job whose failure is handled, by a transaction or its fault and the
record. -/
theorem Undelivered.account (h : Undelivered job tail x) {e record : Event}
    (htreated : Treated [job] (tail ++ [e, record])) (hsend : e.isSend = false)
    (hnone : e.isRecord = false) (hrecord : record.isRecord = true)
    (hstage : record ≠ .outboxError .claim)
    (htransition : e.transition
      = record.recordedStatus.map fun status => (job.id, job.leaseId, status))
    (hreschedules : e.reschedules = true → isRetryable x = true) :
    JobAccount job (tail ++ [e, record]) := by
  obtain ⟨hrecords, htransitions, hquiet⟩ := h.quiet
  have hlast : record.isSend = false ∧ record.transition = none ∧
      record.reschedules = false := by
    cases record <;> first | exact ⟨rfl, rfl, rfl⟩ | cases hrecord
  constructor
  case record =>
    refine ⟨record, ?_, hstage, ?_⟩
    · simp [hrecords, hnone, hrecord]
    · rw [← htransition]
      simp only [List.filterMap_append, htransitions, List.filterMap_cons, hlast.2.1,
        List.filterMap_nil, List.nil_append]
      cases e.transition <;> rfl
  case sends => exact htreated.sends_of_singleton
  case permanent =>
    intro hpermanent
    -- the last two steps send nothing, so the reason is one of the events before them
    have hreason : Undeliverable job tail := by
      refine hpermanent.imp id ?_
      rintro ⟨message, now, what, hsent⟩
      refine ⟨message, now, what, ?_⟩
      simp only [List.mem_append, List.mem_cons, List.not_mem_nil, or_false] at hsent
      rcases hsent with hsent | rfl | rfl
      · exact hsent
      · cases hsend
      · cases hlast.1
    have hretry := h.isRetryable_eq_false hreason
    intro a ha
    simp only [List.mem_append, List.mem_cons, List.not_mem_nil, or_false] at ha
    rcases ha with ha | rfl | rfl
    · exact hquiet a ha
    · rw [Bool.eq_false_iff]
      intro hagain
      rw [hreschedules hagain] at hretry
      cases hretry
    · exact hlast.2.2

/-- Whatever happens to a job, it is accounted for. -/
theorem Settled.account {segment : List Event} (h : Settled cfg job segment) :
    JobAccount job segment := by
  have htreated := h.treated
  cases h with
  | @sent message now persisted hmessage =>
    constructor
    case record =>
      refine ⟨.deliveryOutcome (if persisted then .sent else .leaseLost), rfl, by simp, ?_⟩
      cases persisted <;> rfl
    case sends => exact htreated.sends_of_singleton
    case permanent =>
      intro _ a ha
      simp only [List.mem_cons, List.not_mem_nil, or_false] at ha
      rcases ha with rfl | rfl | rfl <;> rfl
  | @dead _ _ persisted htail _ =>
    refine htail.account htreated rfl rfl rfl (by simp) (by cases persisted <;> rfl)
      fun hagain => ?_
    cases hagain
  | @rescheduled _ _ persisted htail halive =>
    -- only a failure that may be retried is scheduled again
    refine htail.account htreated rfl rfl rfl (by simp) (by cases persisted <;> rfl) fun _ => ?_
    simp only [shouldMarkEmailOutboxDead, Bool.or_eq_false_iff, Bool.not_eq_false'] at halive
    exact halive.1
  | unpersisted htail =>
    refine htail.account htreated rfl rfl rfl (by simp) rfl fun hagain => ?_
    cases hagain

/-- Weaker descriptions of the jobs. -/
theorem TickDone.mono {R R' : EmailOutboxEntry → List Event → Prop} {evs : List Event}
    (h : TickDone cfg R evs) (hR : ∀ job segment, R job segment → R' job segment) :
    TickDone cfg R' evs := by
  cases h with
  | disabled hdisabled => exact .disabled hdisabled
  | unclaimed hab => exact .unclaimed hab
  | claimed hjobs => exact .claimed (hjobs.imp hR)

end

/-! ### The table -/

section
variable {r : Request} {evs : List Event} {e : Event} {rows rows' : List OutboxJob}

/-- What a call that stores a result does to a row: the row that holds the lease gets the
status, and the others stay. -/
theorem OutboxJob.Moves.of_transition {x : OutboxRecord} {j j' : OutboxJob} {id leaseId : Uuid}
    {status : OutboxStatus} (h : j.Moves x j') (hentry : e.Journals r evs x)
    (hlease : x.1.lease = some (id, leaseId))
    (he : e.transition = some (id, leaseId, status)) :
    if j.leasedBy id leaseId then j'.id = j.id ∧ j'.status = status else j' = j := by
  cases h with
  | idle _ hidle =>
    rw [hidle id leaseId hlease]
    exact rfl
  | claimed => cases hlease
  | sent hleased =>
    cases hentry with
    | markedSent =>
      cases he
      rw [hleased]
      exact ⟨rfl, rfl⟩
  | rescheduled hleased =>
    cases hentry with
    | rescheduled =>
      cases he
      rw [hleased]
      exact ⟨rfl, rfl⟩
  | dead hleased =>
    cases hentry with
    | markedDead =>
      cases he
      rw [hleased]
      exact ⟨rfl, rfl⟩

/-- The event of a step of `Tick` says what it does to the table. -/
theorem OutboxStep.tickEffect {p : AuthRuntimePolicies} {cfg : EmailOutboxRuntimeConfig}
    (h : OutboxStep ⟨p, .tick cfg⟩ evs e rows rows') : TickEffect e rows rows' := by
  cases h with
  | quiet _ hnone =>
    rw [TickEffect, hnone]
    exact .inr rfl
  | @called x _ hentry hruns =>
    obtain ⟨op, res⟩ := x
    cases hruns with
    | insert =>
      cases hentry with
      | enqueued hr => exact absurd rfl (hr cfg)
    | claimBatch =>
      cases hentry with
      | claimed => exact .inl ⟨_, rfl⟩
    | @result _ u _ hop =>
      obtain ⟨id, leaseId, status, hlease, htransition⟩ := hentry.transition_eq
      cases hhits : u.hits rows with
      | false =>
        rw [hhits] at htransition
        rw [TickEffect, htransition]
        exact .inr (Update.run_of_not_hits hhits)
      | true =>
        have he : e.transition = some (id, leaseId, status) := by
          rw [htransition, hhits]
          rfl
        rw [TickEffect, he]
        constructor
        · obtain ⟨j, hj, hleased⟩ := Update.hits_iff.mp hhits
          obtain ⟨id', leaseId', hlease', hcond⟩ := OutboxOp.resultUpdate_cond hop
          cases hlease.symm.trans hlease'
          exact ⟨j, hj, hcond j ▸ hleased⟩
        · rw [Update.run, List.forall₂_map_right_iff, List.forall₂_same]
          intro j hj
          exact (OutboxOp.moves_of_result hop hj).of_transition hentry hlease he

end

/-! ### A whole run of `Tick` -/

/-- In every run of the service, a `Tick` that has returned has accounted for every job of its
batch, and each of its steps changes the table as its event says. It never throws, unless the
clock does. A `Tick` that is not interrupted for good returns. -/
theorem tick_accounts (app : App) {A : SysAdmission} {I : Db → Prop} {s : SysState}
    (hs : Reachable app.run A I s) {c : Nat} {p : AuthRuntimePolicies}
    {cfg : EmailOutboxRuntimeConfig} {prog : Service Response}
    (hc : s.calls c = some ⟨⟨p, .tick cfg⟩, prog⟩) :
    (∀ response, prog = .done response → TickDone cfg JobAccount (own c s.trace)) ∧
    (∀ x, prog = .raise x → ∃ e, e.aborts = true ∧ own c s.trace = [e]) ∧
    (∀ e s', Step app.run A s s' → s'.trace = s.trace ++ [(c, e)] →
      TickEffect e s.store.emailOutbox s'.store.emailOutbox) ∧
    ∀ inputs db,
      TickEnds cfg JobAccount ((app.run ⟨p, .tick cfg⟩).solo inputs db).events
        ((app.run ⟨p, .tick cfg⟩).solo inputs db).result := by
  have hobeys := ((hs.obeys (app_refinesTick app)).1 c _ hc).2
  refine ⟨?_, ?_, ?_, ?_⟩
  · rintro response rfl
    exact TickDone.mono hobeys fun _ _ => Settled.account
  · rintro x rfl
    exact hobeys
  · intro e s' hstep htrace
    obtain ⟨r, p', p'', d, hcall, -, -, hprotocol, rfl⟩ :=
      hstep.of_event (app_refines app) hs htrace
    cases hc.symm.trans hcall
    exact (step_outbox hprotocol).tickEffect
  · intro inputs db
    have hends := ((app_refinesTick app ⟨p, .tick cfg⟩).solo_invariant (J := fun _ _ => True)
      (fun _ _ _ _ _ _ => trivial) inputs db trivial).2
    revert hends
    generalize ((app.run ⟨p, .tick cfg⟩).solo inputs db).result = result
    intro hends
    cases result with
    | ok _ => exact TickDone.mono hends fun _ _ => Settled.account
    | error _ => exact hends

/-- The configuration of a worker that has returned. -/
def finishedTick (s : SysState) (c : Nat) : Option EmailOutboxRuntimeConfig :=
  match s.calls c with
  | some ⟨⟨_, .tick cfg⟩, .done _⟩ => some cfg
  | _ => none

/-- A worker that has returned, with its configuration. -/
theorem finishedTick_eq_some {s : SysState} {c : Nat} {cfg : EmailOutboxRuntimeConfig}
    (h : finishedTick s c = some cfg) :
    ∃ p response, s.calls c = some ⟨⟨p, .tick cfg⟩, .done response⟩ := by
  unfold finishedTick at h
  split at h
  · rename_i p cfg' response hcall
    cases h
    exact ⟨p, response, hcall⟩
  · cases h

/-- A worker with two jobs. The sender refuses the first for good and takes the second. -/
theorem tick_accounts_refused :
    ∃ s : SysState, Reachable plainApp.run anyRun Seed s ∧
      ∃ cfg, TickDone cfg JobAccount (own 3 s.trace) ∧
        .deliveryOutcome .dead ∈ own 3 s.trace ∧ .deliveryOutcome .sent ∈ own 3 s.trace := by
  obtain ⟨s, hs, hfinished, hdead, hsent⟩ := exists_run plainApp anyRun
    (enqueueReset 1 ⟨1⟩ ⟨2⟩ ++ enqueueReset 2 ⟨3⟩ ⟨4⟩ ++
      .start 3 ⟨hourSessions, .tick {}⟩ ::
        acts 3 [{}, {}, { deliveryError := some (lit "mailbox unavailable", false) }, {}, {}, {},
          {}, {}])
    (fun s => (finishedTick s 3).isSome ∧ .deliveryOutcome .dead ∈ own 3 s.trace ∧
      .deliveryOutcome .sent ∈ own 3 s.trace) (by decide +kernel)
  obtain ⟨cfg, hcfg⟩ := Option.isSome_iff_exists.mp hfinished
  obtain ⟨p, response, hcall⟩ := finishedTick_eq_some hcfg
  exact ⟨s, hs, cfg, (tick_accounts plainApp hs hcall).1 response rfl, hdead, hsent⟩

end SmirklyAuth
