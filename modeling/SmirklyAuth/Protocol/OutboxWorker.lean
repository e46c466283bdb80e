import SmirklyAuth.Protocol.Rules
import SmirklyAuth.System

/-!
# `SmirklyAuth.Protocol.OutboxWorker`: the steps of `Tick`

`Tick` reads the clock, claims a batch, and treats its jobs one after the other. This module
walks along its functions once. `Undelivered` lists the ways in which the body of the outer
`try` throws, each with the events of the job and the exception, and `Settled` lists the ways in
which a job ends. The history of a worker is the clock, the claim, the events of the jobs that
are done, and the events of the current job. `TickStep` says which step can follow such a
history, and what it does to the database. `tick_spec` is the result of the walk.

A fault of a port or of the database is a `runtime_error`, which is retryable. So the walk keeps
the exception of a step.

Every fact about workers is read off `TickStep`: the jobs that are done (`Treated`), the step
that sends a mail (`TickStep.of_sentEmail`), and the reasons of the steps that store a result.
-/

set_option autoImplicit false

namespace SmirklyAuth

open Interleaving Prog EmailOutboxProcessor

/-! ### Events -/

/-- The step starts to send a mail. -/
def Event.isSend : Event → Bool
  | .sentEmail _ _ _ _ => true
  | _ => false

/-- A call of `RecordDeliveryOutcome` or `RecordError`. -/
def Event.isRecord : Event → Bool
  | .deliveryOutcome _ | .outboxError _ => true
  | _ => false

/-- The transaction stores a failure of the job. -/
def TxEvent.storesFailure (id : Uuid) : TxEvent → Bool
  | .rescheduled id' _ _ | .markedDead id' _ _ => id' == id
  | _ => false

/-- The job whose mail the step sends, or whose result it stores. -/
def Event.touches : Event → Option Uuid
  | .sentEmail id _ _ _ | .committed (.markedSent id _ _) | .committed (.rescheduled id _ _)
  | .committed (.markedDead id _ _) => some id
  | _ => none

/-- The worker has taken the job. -/
def Took (evs : List Event) (job : EmailOutboxEntry) : Prop :=
  ∃ jobs, .committed (.claimed jobs) ∈ evs ∧ job ∈ jobs

/-- The job cannot be delivered: it has no message, or the sender has refused it for good. -/
def Undeliverable (job : EmailOutboxEntry) (evs : List Event) : Prop :=
  (∃ x, parseMessage job = .error x) ∨
    ∃ message now what, .sentEmail job.id message now (some (what, false)) ∈ evs

/-- The history of a `Tick` that has claimed a batch. -/
def tickEvents (t : Time) (jobs : List EmailOutboxEntry) (evs : List Event) : List Event :=
  .clock t :: .committed (.claimed jobs) :: evs

/-- What comes after the claim is appended. -/
theorem tickEvents_append (t : Time) (jobs : List EmailOutboxEntry) (evs tail : List Event) :
    tickEvents t jobs evs ++ tail = tickEvents t jobs (evs ++ tail) := rfl

/-! ### One job -/

/-- The events of a job until the body of the outer `try` throws, with the exception:

- `unparsed`: the payload has no message;
- `refused`: the port itself throws;
- `rejected`: the mail server refuses the message;
- `unstored`: the message was sent, and the transaction that stores this fails. -/
inductive Undelivered (job : EmailOutboxEntry) : List Event → Error → Prop where
  | unparsed {x} (h : parseMessage job = .error x) : Undelivered job [] x
  | refused {message what} (h : parseMessage job = .ok message) :
      Undelivered job [.failed what] (.runtimeError what)
  | rejected {message now what retryable} (h : parseMessage job = .ok message) :
      Undelivered job [.sentEmail job.id message now (some (what, retryable))]
        (.emailDelivery what retryable)
  | unstored {message now what} (h : parseMessage job = .ok message) :
      Undelivered job [.sentEmail job.id message now none, .failed what] (.runtimeError what)

/-- The events of a job that is done:

- `sent`: its mail was sent, and this was stored if the lease is still valid;
- `dead`, `rescheduled`: its failure was stored, if the lease is still valid;
- `unpersisted`: the transaction that stores the failure fails. -/
inductive Settled (cfg : EmailOutboxRuntimeConfig) (job : EmailOutboxEntry) :
    List Event → Prop where
  | sent {message now persisted} (h : parseMessage job = .ok message) :
      Settled cfg job [.sentEmail job.id message now none,
        .committed (.markedSent job.id job.leaseId persisted),
        .deliveryOutcome (if persisted then .sent else .leaseLost)]
  | dead {tail x persisted} (h : Undelivered job tail x)
      (hdead : shouldMarkEmailOutboxDead job.attempts cfg.maxAttempts (isRetryable x) = true) :
      Settled cfg job (tail ++ [.committed (.markedDead job.id job.leaseId persisted),
        .deliveryOutcome (if persisted then .dead else .leaseLost)])
  | rescheduled {tail x persisted} (h : Undelivered job tail x)
      (halive : shouldMarkEmailOutboxDead job.attempts cfg.maxAttempts (isRetryable x) = false) :
      Settled cfg job (tail ++ [.committed (.rescheduled job.id job.leaseId persisted),
        .deliveryOutcome (if persisted then .retryScheduled else .leaseLost)])
  | unpersisted {tail x what} (h : Undelivered job tail x) :
      Settled cfg job (tail ++ [.failed what, .outboxError .persist])

/-- A step that treats the job, after its events `tail`. -/
inductive JobStep (cfg : EmailOutboxRuntimeConfig) (job : EmailOutboxEntry) :
    List Event → Event → Db → Db → Prop where
  | sent {message now error db} (h : parseMessage job = .ok message) :
      JobStep cfg job [] (.sentEmail job.id message now error) db db
  | markedSent {message sentAt now persisted db db'}
      (htx : EmailOutboxRepository.markSent job.id job.leaseId now "" db =
        .ok (persisted, db')) :
      JobStep cfg job [.sentEmail job.id message sentAt none]
        (.committed (.markedSent job.id job.leaseId persisted)) db db'
  | markedDead {tail x now persisted db db'} (h : Undelivered job tail x)
      (hdead : shouldMarkEmailOutboxDead job.attempts cfg.maxAttempts (isRetryable x) = true)
      (htx : EmailOutboxRepository.markDead job.id job.leaseId now x.what db =
        .ok (persisted, db')) :
      JobStep cfg job tail (.committed (.markedDead job.id job.leaseId persisted)) db db'
  | rescheduled {tail x i persisted db db'} (h : Undelivered job tail x)
      (halive : shouldMarkEmailOutboxDead job.attempts cfg.maxAttempts (isRetryable x) = false)
      (htx : EmailOutboxRepository.reschedule i job.id job.leaseId
        (i.now.plus (computeEmailOutboxRetryDelay job.attempts cfg)) x.what db =
          .ok (persisted, db')) :
      JobStep cfg job tail (.committed (.rescheduled job.id job.leaseId persisted)) db db'
  | recorded {tail e db} (h : e.isRecord = true) : JobStep cfg job tail e db db

/-! ### A whole `Tick` -/

/-- A step of `Tick`, after the events of the worker. -/
inductive TickStep (cfg : EmailOutboxRuntimeConfig) : List Event → Event → Db → Db → Prop where
  | aborted {evs e db} (h : e.aborts = true) : TickStep cfg evs e db db
  | clock {now db} : TickStep cfg [] (.clock now) db db
  | claimed {i now jobs db db'}
      (htx : EmailOutboxRepository.claimBatch i cfg now db = .ok (jobs, db')) :
      TickStep cfg [.clock now] (.committed (.claimed jobs)) db db'
  | unclaimed {evs db} : TickStep cfg evs (.outboxError .claim) db db
  | treats {t done job rest segments tail e db db'}
      (hdone : List.Forall₂ (Settled cfg) done segments) (h : JobStep cfg job tail e db db') :
      TickStep cfg (tickEvents t (done ++ job :: rest) (segments.flatten ++ tail)) e db db'

/-- The events of a `Tick` that has returned, where `R` describes the events of a job. -/
inductive TickDone (cfg : EmailOutboxRuntimeConfig)
    (R : EmailOutboxEntry → List Event → Prop) : List Event → Prop where
  | disabled (h : cfg.processingEnabled = false) : TickDone cfg R []
  | unclaimed {now e} (h : e.aborts = true) :
      TickDone cfg R [.clock now, e, .outboxError .claim]
  | claimed {now jobs segments} (h : List.Forall₂ R jobs segments) :
      TickDone cfg R (tickEvents now jobs segments.flatten)

/-- How a `Tick` ends. Only the clock could make it throw. -/
def TickEnds {α : Type} (cfg : EmailOutboxRuntimeConfig)
    (R : EmailOutboxEntry → List Event → Prop) (evs : List Event) : Except Error α → Prop
  | .ok _ => TickDone cfg R evs
  | .error _ => ∃ e, e.aborts = true ∧ evs = [e]

/-! ### The walk -/

section
variable {cfg : EmailOutboxRuntimeConfig} {t : Time} {done rest : List EmailOutboxEntry}
  {job : EmailOutboxEntry} {segments : List (List Event)}
  {Q : List Event → Except Error Unit → Prop}

/-- Sending a job and marking it as sent. -/
theorem deliver_spec (hdone : List.Forall₂ (Settled cfg) done segments)
    (hok : ∀ segment, Settled cfg job segment →
      Q (tickEvents t (done ++ job :: rest) (segments.flatten ++ segment)) (.ok ()))
    (hthrow : ∀ tail x, Undelivered job tail x →
      Q (tickEvents t (done ++ job :: rest) (segments.flatten ++ tail)) (.error x)) :
    (deliver job).Obeys (TickStep cfg) Q
      (tickEvents t (done ++ job :: rest) (segments.flatten ++ [])) := by
  unfold deliver
  refine obeys_validated_bind (fun x hx => hthrow [] x (.unparsed hx)) fun message hmessage => ?_
  rw [obeys_bind]
  unfold send
  refine obeys_port_bind ⟨fun _ _ => .aborted rfl, fun what => ?_⟩ fun i _ =>
    ⟨.treats hdone (.sent hmessage), ?_⟩
  · rw [List.append_nil]
    exact hthrow _ _ (.refused hmessage)
  rw [List.append_nil, tickEvents_append]
  simp only
  cases i.deliveryError with
  | some error => exact hthrow _ _ (.rejected hmessage)
  | none =>
    simp only [obeys_pure]
    refine obeys_transaction_bind ⟨fun _ _ => .aborted rfl, fun what => ?_⟩
      (fun _ _ _ htx => nomatch htx) fun _ _ persisted _ htx =>
        ⟨.treats hdone (.markedSent htx), ?_⟩
    · rw [tickEvents_append, List.append_assoc]
      exact hthrow _ _ (.unstored hmessage)
    · rw [tickEvents_append, List.append_assoc]
      refine obeys_report (fun _ => .treats hdone (.recorded rfl)) ?_
      rw [tickEvents_append, List.append_assoc]
      exact hok _ (.sent hmessage)

/-- Storing the failure of a job, after its events `tail`. -/
theorem persistFailure_spec {tail : List Event} {x : Error}
    (hdone : List.Forall₂ (Settled cfg) done segments) (htail : Undelivered job tail x)
    (hok : ∀ segment, Settled cfg job segment →
      Q (tickEvents t (done ++ job :: rest) (segments.flatten ++ segment)) (.ok ()))
    (hthrow : ∀ what x',
      Q (tickEvents t (done ++ job :: rest) (segments.flatten ++ (tail ++ [.failed what])))
        (.error x')) :
    (persistFailure cfg job x).Obeys (TickStep cfg) Q
      (tickEvents t (done ++ job :: rest) (segments.flatten ++ tail)) := by
  have hfault : Faults (TickStep cfg) Q
      (tickEvents t (done ++ job :: rest) (segments.flatten ++ tail)) := by
    refine ⟨fun _ _ => .aborted rfl, fun what => ?_⟩
    rw [tickEvents_append, List.append_assoc]
    exact hthrow what _
  unfold persistFailure
  split
  · rename_i hdead
    refine obeys_transaction_bind hfault (fun _ _ _ htx => nomatch htx)
      fun _ _ persisted _ htx => ⟨.treats hdone (.markedDead htail hdead htx), ?_⟩
    rw [tickEvents_append, List.append_assoc]
    refine obeys_report (fun _ => .treats hdone (.recorded rfl)) ?_
    rw [tickEvents_append, List.append_assoc, List.append_assoc]
    exact hok _ (.dead htail hdead)
  · rename_i halive
    have halive' := Bool.eq_false_iff.mpr halive
    refine obeys_transaction_bind hfault (fun _ _ _ htx => nomatch htx)
      fun _ _ persisted _ htx => ⟨.treats hdone (.rescheduled htail halive' htx), ?_⟩
    rw [tickEvents_append, List.append_assoc]
    refine obeys_report (fun _ => .treats hdone (.recorded rfl)) ?_
    rw [tickEvents_append, List.append_assoc, List.append_assoc]
    exact hok _ (.rescheduled htail halive')

/-- Whatever happens to a job, it is done afterwards. -/
theorem processJob_spec (hdone : List.Forall₂ (Settled cfg) done segments)
    (hok : ∀ segment, Settled cfg job segment →
      Q (tickEvents t (done ++ job :: rest) (segments.flatten ++ segment)) (.ok ())) :
    (processJob cfg job).Obeys (TickStep cfg) Q
      (tickEvents t (done ++ job :: rest) (segments.flatten ++ [])) := by
  unfold processJob
  rw [obeys_tryCatch]
  refine deliver_spec hdone hok fun tail x htail => ?_
  simp only [obeys_tryCatch]
  refine persistFailure_spec hdone htail hok fun what _ => ?_
  refine obeys_report (fun _ => .treats hdone (.recorded rfl)) ?_
  rw [tickEvents_append, List.append_assoc, List.append_assoc]
  exact hok _ (.unpersisted htail)

/-- The loop treats the jobs in order. -/
theorem processBatch_spec (hdone : List.Forall₂ (Settled cfg) done segments)
    (hok : ∀ segments', List.Forall₂ (Settled cfg) (done ++ rest) segments' →
      Q (tickEvents t (done ++ rest) segments'.flatten) (.ok ())) :
    (processBatch cfg rest).Obeys (TickStep cfg) Q
      (tickEvents t (done ++ rest) segments.flatten) := by
  -- on the jobs that are left; those that are done grow by one
  induction rest generalizing done segments with
  | nil =>
    rw [List.append_nil] at hok ⊢
    exact hok segments hdone
  | cons job rest ih =>
    unfold processBatch
    rw [obeys_bind, ← List.append_nil segments.flatten]
    refine processJob_spec hdone fun segment hsegment => ?_
    have hsplit : done ++ job :: rest = (done ++ [job]) ++ rest := by simp
    have hflatten : segments.flatten ++ segment = (segments ++ [segment]).flatten := by simp
    rw [hsplit] at hok ⊢
    rw [hflatten]
    exact ih (List.rel_append hdone (.cons hsegment .nil)) hok

end

/-- Every step of `Tick` is a `TickStep`, and it ends with every job of its batch done. -/
theorem tick_spec (cfg : EmailOutboxRuntimeConfig) :
    (tick cfg).Obeys (TickStep cfg) (TickEnds cfg (Settled cfg)) [] := by
  unfold tick
  split
  · refine obeys_port_bind ⟨fun _ _ => .aborted rfl, fun _ => ⟨_, rfl, rfl⟩⟩ fun i _ =>
      ⟨.clock, ?_⟩
    rw [obeys_bind]
    unfold claim
    rw [obeys_tryCatch]
    refine obeys_transaction_bind
      ⟨fun _ _ => .aborted rfl, fun _ _ _ => ⟨.unclaimed, .unclaimed rfl⟩⟩
      (fun _ _ _ _ => ⟨.aborted rfl, fun _ _ => ⟨.unclaimed, .unclaimed rfl⟩⟩)
      fun _ _ jobs _ htx => ⟨.claimed htx, ?_⟩
    have hnone : List.Forall₂ (Settled cfg) [] [] := .nil
    exact processBatch_spec (t := i.now) hnone fun segments h => .claimed h
  · rename_i hdisabled
    exact .disabled (by simpa using hdisabled)

/-- The protocol of the workers. It says nothing about the other calls. -/
def tickProtocol : Protocol Db Event Error Request Response where
  step r := match r.command with
    | .tick cfg => TickStep cfg
    | _ => fun _ _ _ _ => True
  finish r evs result := match r.command with
    | .tick cfg => TickEnds cfg (Settled cfg) evs result
    | _ => True

/-- Every worker keeps the protocol. -/
theorem app_refinesTick (app : App) : Refines app.run tickProtocol := by
  rintro ⟨p, command⟩
  cases command with
  | tick cfg =>
    show Obeys (TickStep cfg) (TickEnds cfg (Settled cfg)) [] _
    unfold App.run
    simp only
    rw [obeys_bind]
    exact (tick_spec cfg).mono fun _ r h => by cases r <;> exact h
  | _ => exact obeys_of_forall (fun _ _ _ _ => trivial) (fun _ _ => trivial) [] _

/-! ### The jobs that are done -/

/-- The events of the jobs that are done: each job was sent at most once, and only these jobs
were touched. -/
structure Treated (done : List EmailOutboxEntry) (evs : List Event) : Prop where
  count : evs.countP Event.isSend ≤ done.length
  touched : ∀ e ∈ evs, ∀ id, e.touches = some id → ∃ job ∈ done, job.id = id

section
variable {cfg : EmailOutboxRuntimeConfig} {job : EmailOutboxEntry} {tail segment : List Event}

/-- A job that is not delivered was sent at most once, and no other job was touched. -/
theorem Undelivered.treated {x : Error} (h : Undelivered job tail x) : Treated [job] tail := by
  cases h <;> constructor <;> simp [List.countP_cons, Event.isSend, Event.touches]

/-- A job that is done was sent at most once, and no other job was touched. -/
theorem Settled.treated (h : Settled cfg job segment) : Treated [job] segment := by
  have happend : ∀ {tail x e e'}, Undelivered job tail x → e.isSend = false →
      (∀ id, e.touches = some id → id = job.id) → e'.isSend = false → e'.touches = none →
      Treated [job] (tail ++ [e, e']) := by
    intro tail x e e' htail he hid he' hid'
    have hcount := htail.treated.count
    refine ⟨by simpa [List.countP_append, he, he'] using hcount, fun a ha id htouches => ?_⟩
    simp only [List.mem_append, List.mem_cons, List.not_mem_nil, or_false] at ha
    rcases ha with ha | rfl | rfl
    · exact htail.treated.touched a ha id htouches
    · exact ⟨job, .head _, (hid id htouches).symm⟩
    · rw [hid'] at htouches
      cases htouches
  cases h with
  | sent => constructor <;> simp [List.countP_cons, Event.isSend, Event.touches]
  | dead htail _ => exact happend htail rfl (by simp [Event.touches]) rfl rfl
  | rescheduled htail _ => exact happend htail rfl (by simp [Event.touches]) rfl rfl
  | unpersisted htail => exact happend htail rfl (by simp [Event.touches]) rfl rfl

/-- The events of all jobs that are done. -/
theorem treated_of_settled {done : List EmailOutboxEntry} {segments : List (List Event)}
    (h : List.Forall₂ (Settled cfg) done segments) : Treated done segments.flatten := by
  induction h with
  | nil => exact ⟨Nat.le_refl 0, fun _ he => nomatch he⟩
  | @cons job segment done segments hsegment _ ih =>
    have hfirst := hsegment.treated
    have hcount := hfirst.count
    have hrest := ih.count
    constructor
    · rw [List.flatten_cons, List.countP_append, List.length_cons]
      rw [List.length_singleton] at hcount
      omega
    · intro e he id hid
      rw [List.flatten_cons] at he
      rcases List.mem_append.mp he with he | he
      · obtain ⟨k, hk, hkid⟩ := hfirst.touched e he id hid
        rw [List.mem_singleton.mp hk] at hkid
        exact ⟨job, .head _, hkid⟩
      · obtain ⟨k, hk, hkid⟩ := ih.touched e he id hid
        exact ⟨k, .tail _ hk, hkid⟩

end

/-! ### What a step tells about the history -/

section
variable {cfg : EmailOutboxRuntimeConfig} {evs : List Event} {db db' : Db} {id : Uuid}

/-- The job of a batch is one that the worker has taken. -/
theorem took_tickEvents (t : Time) (done rest : List EmailOutboxEntry) (job : EmailOutboxEntry)
    (evs : List Event) : Took (tickEvents t (done ++ job :: rest) evs) job :=
  ⟨done ++ job :: rest, .tail _ (.head _), List.mem_append_right _ (.head _)⟩

/-- A worker starts to send the job that comes after those that are done. -/
theorem TickStep.of_sentEmail {message : EmailMessage} {now : Time} {error : Option (Str × Bool)}
    (h : TickStep cfg evs (.sentEmail id message now error) db db') :
    ∃ t done job rest evs₀, evs = tickEvents t (done ++ job :: rest) evs₀ ∧ Treated done evs₀ ∧
      job.id = id ∧ parseMessage job = .ok message := by
  cases h with
  | aborted hab => cases hab
  | treats hdone hjob =>
    cases hjob with
    | sent hmessage =>
      rw [List.append_nil]
      exact ⟨_, _, _, _, _, rfl, treated_of_settled hdone, rfl, hmessage⟩
    | recorded hrecord => cases hrecord

/-- A worker marks a job as sent after a send that has returned normally. -/
theorem TickStep.of_markedSent {leaseId : Uuid} {persisted : Bool}
    (h : TickStep cfg evs (.committed (.markedSent id leaseId persisted)) db db') :
    ∃ job message now sentAt, Took evs job ∧ job.id = id ∧ job.leaseId = leaseId ∧
      .sentEmail id message sentAt none ∈ evs ∧
      EmailOutboxRepository.markSent id leaseId now "" db = .ok (persisted, db') := by
  cases h with
  | aborted hab => cases hab
  | treats hdone hjob =>
    cases hjob with
    | markedSent htx =>
      exact ⟨_, _, _, _, took_tickEvents _ _ _ _ _, rfl, rfl,
        .tail _ (.tail _ (List.mem_append_right _ (.head _))), htx⟩
    | recorded hrecord => cases hrecord

/-- A worker stores a failure after the events of a job that was not delivered. -/
theorem TickStep.of_failure {tx : TxEvent} (hfailure : tx.storesFailure id = true)
    (h : TickStep cfg evs (.committed tx) db db') :
    ∃ t done job rest evs₀ tail x, evs = tickEvents t (done ++ job :: rest) (evs₀ ++ tail) ∧
      Treated done evs₀ ∧ Undelivered job tail x ∧ job.id = id := by
  cases h with
  | aborted hab => cases hab
  | claimed _ => cases hfailure
  | treats hdone hjob =>
    cases hjob with
    | markedSent _ => cases hfailure
    | markedDead htail _ _ =>
      exact ⟨_, _, _, _, _, _, _, rfl, treated_of_settled hdone, htail, beq_iff_eq.mp hfailure⟩
    | rescheduled htail _ _ =>
      exact ⟨_, _, _, _, _, _, _, rfl, treated_of_settled hdone, htail, beq_iff_eq.mp hfailure⟩
    | recorded hrecord => cases hrecord

/-- An exception that is not retryable has a reason. -/
theorem Undelivered.undeliverable {job : EmailOutboxEntry} {tail : List Event} {x : Error}
    (h : Undelivered job tail x) (hretry : isRetryable x = false) : Undeliverable job tail := by
  cases h with
  | unparsed hx => exact .inl ⟨x, hx⟩
  | refused _ => cases hretry
  | @rejected message now what retryable _ =>
    have hfalse : retryable = false := hretry
    subst hfalse
    exact .inr ⟨message, now, what, .head _⟩
  | unstored _ => cases hretry

/-- A worker gives up a job in its last attempt, or when the job cannot be delivered. -/
theorem TickStep.of_markedDead {leaseId : Uuid} {persisted : Bool}
    (h : TickStep cfg evs (.committed (.markedDead id leaseId persisted)) db db') :
    ∃ job, Took evs job ∧ job.id = id ∧
      (cfg.maxAttempts ≤ job.attempts ∨ Undeliverable job evs) := by
  cases h with
  | aborted hab => cases hab
  | treats hdone hjob =>
    cases hjob with
    | markedDead htail hdead _ =>
      refine ⟨_, took_tickEvents _ _ _ _ _, rfl, ?_⟩
      simp only [shouldMarkEmailOutboxDead, Bool.or_eq_true, Bool.not_eq_true',
        decide_eq_true_eq] at hdead
      rcases hdead with hretry | hlast
      · refine .inr ((htail.undeliverable hretry).imp id ?_)
        rintro ⟨message, now, what, hsent⟩
        exact ⟨message, now, what, .tail _ (.tail _ (List.mem_append_right _ hsent))⟩
      · exact .inl hlast
    | recorded hrecord => cases hrecord

end

end SmirklyAuth
