import SmirklyAuth.Lib.Outcomes
import SmirklyAuth.Proofs.MailedSecrets
import SmirklyAuth.Proofs.OutboxDelivery

/-!
# `SmirklyAuth.Proofs.MailAccounting`: what the outbox says about the mails is true

The runs are those of all use cases with any number of workers. A worker may stop at any step,
and then another one takes its jobs again. So a mail can be sent more than once. This holds in
spite of it:

- all sends of a job are sends of one message, which carries the secret of a stored code to the
  address of its user;
- a job is sent at most as often as its row counts attempts, and these are at most `M`;
- a job that is marked as sent was delivered, and a job that was given up has used its `M`
  attempts or was refused for good by the sender.

The message of a job is no column of the table once the job is closed, because `MarkSent` and
`MarkDead` clear the payload. `Ledger` keeps it as a function of the id of the job, to which
each transaction that enqueues a mail adds one value.

The status of a row is stored by a worker for a reason (`TickStep`), and the reason is an event
of the run (`FateInv`). One reason of the source never occurs: every job of a batch has a
message, so no job is given up because of its payload.
-/

set_option autoImplicit false

namespace SmirklyAuth

open Interleaving EmailOutboxProcessor

/-- The number of sends of the job, by any worker. -/
def sendCount (tr : Trace) (id : Uuid) : Nat := tr.countP fun p => p.2.sends id

/-- The message carries the secret of a code of the service:

- `stored`: the code is a row of its table;
- `address`: the message goes to the address that is stored for the user of the row;
- `holds`, `hash`, `accepted`: the message holds the secret that was hashed for the row, and
  the hasher accepts it. -/
structure CarriesSecret (app : App) (db : Db) (message : EmailMessage) (kind : CodeKind)
    (row : OneTimeCode) (secret : Str) : Prop where
  stored : row ∈ kind.rows db
  address : ∃ user ∈ db.users, user.id = row.userId ∧ user.email = some message.toEmail
  holds : kind.secretOf message = some secret
  hash : row.secretHash = kind.hash app.ports row.userId secret
  accepted : kind.accepts app.ports row secret = true

/-- The message carries a secret of the service. -/
def Carries (app : App) (db : Db) (message : EmailMessage) : Prop :=
  ∃ kind row secret, CarriesSecret app db message kind row secret

/-- What the row of a job says is true:

- `sends`: every send of the mail has been counted as an attempt before;
- `limit`: there are at most `M` attempts;
- `sent`: a job that is marked as sent was sent, and the sender returned normally;
- `dead`: a job that was given up has used its attempts, or the sender has refused it for
  good. -/
structure OutboxJob.Accounted (M : Nat) (tr : Trace) (job : OutboxJob) : Prop where
  sends : sendCount tr job.id ≤ job.attempts
  limit : job.attempts ≤ M
  sent : job.status = .sent → ∃ c message now, (c, .sentEmail job.id message now none) ∈ tr
  dead : job.status = .dead → job.attempts = M ∨
    ∃ c message now what, (c, .sentEmail job.id message now (some (what, false))) ∈ tr

/-! ### The jobs of a batch -/

/-- What a claim hands out: the new version of a row that was due. -/
theorem row_of_claimed {app : App} {r : Request} {evs : List Event} {db db' : Db}
    {entries : List EmailOutboxEntry} (hnodup : (db.emailOutbox.map (·.id)).Nodup)
    (h : ProtocolStep app r evs (.committed (.claimed entries)) db db') :
    ∀ entry ∈ entries, ∃ j' ∈ db'.emailOutbox, ∃ leaseId,
      j'.isOpen = true ∧ entry = j'.toEntry leaseId := by
  intro entry hentry
  obtain ⟨_, _, _, _, _, _, _, _, _, hrow, heq⟩ := (step_outbox h).entry hnodup hentry
  exact ⟨_, hrow, _, rfl, heq⟩

/-! ### The content of the mails -/

/-- The invariant of the mails, for a message `content id` of each job:

- `carried`: the message of a job carries a secret;
- `readable`: `Tick` reads this message from a job that is open;
- `taken`: the jobs that a worker has taken are rows with this message;
- `sent`: so are the jobs whose mails were sent. -/
structure Ledger (app : App) (content : Uuid → EmailMessage) (db : Db) (tr : Trace) : Prop where
  carried : ∀ job ∈ db.emailOutbox, Carries app db (content job.id)
  readable : ∀ job ∈ db.emailOutbox, job.isOpen = true → ∀ leaseId,
    parseMessage (job.toEntry leaseId) = .ok (content job.id)
  taken : ∀ c entries, (c, .committed (.claimed entries)) ∈ tr → ∀ entry ∈ entries,
    (∃ job ∈ db.emailOutbox, job.id = entry.id) ∧ parseMessage entry = .ok (content entry.id)
  sent : ∀ c id message now error, (c, .sentEmail id message now error) ∈ tr →
    (∃ job ∈ db.emailOutbox, job.id = id) ∧ message = content id

section
variable {app : App} {r : Request} {e : Event} {db db' : Db} {tr : Trace} {c : Nat}
  {content content' : Uuid → EmailMessage}

/-- A run starts without mail jobs. -/
theorem Seed.forall_jobs {P : OutboxJob → Prop} (h : Seed db) : ∀ job ∈ db.emailOutbox, P job := by
  intro job hjob
  rw [h.emailOutbox] at hjob
  cases hjob

/-- The ledger of a run that starts. -/
theorem Ledger.init (h : Seed db) : Ledger app content db [] where
  carried := h.forall_jobs
  readable := h.forall_jobs
  taken _ _ hmem := by simp at hmem
  sent _ _ _ _ _ hmem := by simp at hmem

/-- A message goes on to carry its secret. -/
theorem Carries.keep {message : EmailMessage} (h : Carries app db message)
    (hmail : MailStep app db db')
    (husers : ∀ u ∈ db.users, ∃ u' ∈ db'.users, u'.id = u.id ∧ u'.email = u.email) :
    Carries app db' message := by
  obtain ⟨kind, row, secret, hcarries⟩ := h
  obtain ⟨row', hrow', hsame⟩ := hmail.keeps_secret hcarries.stored
  obtain ⟨user, huser, hid, hemail⟩ := hcarries.address
  obtain ⟨user', huser', hid', hemail'⟩ := husers user huser
  refine ⟨kind, row', secret, hrow', ⟨user', huser', ?_, hemail'.trans hemail⟩, hcarries.holds,
    ?_, ?_⟩
  · rw [hid', hid, hsame.userId]
  · rw [hsame.secretHash, hsame.userId]
    exact hcarries.hash
  · have haccepts : kind.accepts app.ports row' secret = kind.accepts app.ports row secret := by
      cases kind <;> simp only [CodeKind.accepts, hsame.userId, hsame.secretHash]
    rw [haccepts]
    exact hcarries.accepted

/-- The jobs that were taken and sent, after a step that keeps the content of the old jobs. -/
theorem Ledger.history_step (h : Ledger app content db tr)
    (hnodup : (db.emailOutbox.map (·.id)).Nodup)
    (hstep : ProtocolStep app r (own c tr) e db db')
    (hagree : ∀ job ∈ db.emailOutbox, content' job.id = content job.id)
    (hcarried : ∀ job ∈ db'.emailOutbox, Carries app db' (content' job.id))
    (hreadable : ∀ job ∈ db'.emailOutbox, job.isOpen = true → ∀ leaseId,
      parseMessage (job.toEntry leaseId) = .ok (content' job.id)) :
    Ledger app content' db' (tr ++ [(c, e)]) := by
  have hkeeps : ∀ id, (∃ job ∈ db.emailOutbox, job.id = id) →
      (∃ job ∈ db'.emailOutbox, job.id = id) ∧ content' id = content id := by
    rintro id ⟨job, hjob, rfl⟩
    obtain ⟨job', hjob', hid⟩ := (step_outbox hstep).keeps hnodup hjob
    exact ⟨⟨job', hjob', hid⟩, hagree job hjob⟩
  refine ⟨hcarried, hreadable, ?_, ?_⟩
  · intro c' entries hmem entry hentry
    rcases List.mem_append.mp hmem with hold | hnew
    · obtain ⟨hrow, hparse⟩ := h.taken c' entries hold entry hentry
      obtain ⟨hrow', hsame⟩ := hkeeps entry.id hrow
      rw [hsame]
      exact ⟨hrow', hparse⟩
    · -- the batch of this step
      cases List.mem_singleton.mp hnew
      obtain ⟨j', hj', leaseId, hopen, rfl⟩ := row_of_claimed hnodup hstep entry hentry
      exact ⟨⟨j', hj', rfl⟩, hreadable j' hj' hopen leaseId⟩
  · intro c' id message now error hmem
    rcases List.mem_append.mp hmem with hold | hnew
    · obtain ⟨hrow, hmessage⟩ := h.sent c' id message now error hold
      obtain ⟨hrow', hsame⟩ := hkeeps id hrow
      rw [hsame]
      exact ⟨hrow', hmessage⟩
    · -- the send of this step: the worker has taken the job before
      cases List.mem_singleton.mp hnew
      obtain ⟨_, _, job, _, ⟨jobs, hclaimed, hjob⟩, rfl, hmessage⟩ := took_of_sentEmail hstep
      obtain ⟨hrow, hparse⟩ := h.taken c jobs (mem_own.mp hclaimed) job hjob
      obtain ⟨hrow', hsame⟩ := hkeeps job.id hrow
      rw [hsame]
      exact ⟨hrow', Except.ok.inj (hmessage.symm.trans hparse)⟩

/-- Every step keeps the ledger. A step that enqueues a mail adds its message. -/
theorem Ledger.step (h : Ledger app content db tr) (hports : app.ports.VerifiesSecrets)
    (hnodup : (db.emailOutbox.map (·.id)).Nodup) (hmail : MailStep app db db')
    (hstep : ProtocolStep app r (own c tr) e db db') :
    ∃ content', Ledger app content' db' (tr ++ [(c, e)]) := by
  have hcarry : ∀ job ∈ db.emailOutbox, Carries app db' (content job.id) := fun job hjob =>
    (h.carried job hjob).keep hmail fun _ => keeps_addresses hstep
  cases hmail with
  | kept _ hjobs =>
    refine ⟨content, h.history_step hnodup hstep (fun _ _ => rfl) ?_ ?_⟩
    · intro job' hjob'
      obtain ⟨job, hjob, hsame⟩ := exists_of_forall₂_right hjobs hjob'
      rw [hsame.id]
      exact hcarry job hjob
    · intro job' hjob' hopen leaseId
      obtain ⟨job, hjob, hsame⟩ := exists_of_forall₂_right hjobs hjob'
      rw [hsame.parseMessage_eq hopen, hsame.id]
      exact h.readable job hjob (hsame.payload hopen).1 leaseId
  | @issued kind _ row id now email secret correlationId _ hrow _ hhash hemail hnew hjob =>
    have hmails : Mails app db' kind row (emailOutboxInsert id now email kind.template
        [(kind.member, secret), ("locale", "ru")] correlationId) :=
      mails_of_issue hports hhash hemail
    obtain ⟨message, text, hparse, hto, hsecret, hhash', haccepts⟩ := hmails.secret rfl ⟨0⟩
    have hold : ∀ job ∈ db.emailOutbox, Function.update content id message job.id =
        content job.id := fun job hmem => Function.update_of_ne (hnew job hmem) message content
    refine ⟨Function.update content id message, h.history_step hnodup hstep hold ?_ ?_⟩
    · intro job hmem
      rw [hjob] at hmem
      rcases List.mem_append.mp hmem with hmem | hmem
      · rw [hold job hmem]
        exact hcarry job hmem
      · rw [List.mem_singleton.mp hmem]
        show Carries app db' (Function.update content id message id)
        rw [Function.update_self]
        refine ⟨kind, row, text, ?_, ?_, hsecret, hhash', haccepts⟩
        · rw [hrow]
          exact List.mem_append_right _ (List.mem_singleton_self row)
        · rw [hto]
          exact hemail
    · intro job hmem hopen leaseId
      rw [hjob] at hmem
      rcases List.mem_append.mp hmem with hmem | hmem
      · rw [hold job hmem]
        exact h.readable job hmem hopen leaseId
      · rw [List.mem_singleton.mp hmem]
        show _ = Except.ok (Function.update content id message id)
        rw [Function.update_self]
        -- the lease is no part of the message
        exact hparse

end

/-! ### The sends of a worker -/

/-- The invariant of a call: it sends a mail at most as often as it has taken the job. -/
def SendInv (evs : List Event) : Prop :=
  ∀ id, evs.countP (Event.sends id) ≤ evs.countP fun e => decide (id ∈ e.claimedIds)

section
variable {app : App} {r : Request} {evs : List Event} {e : Event} {db db' : Db}

/-- A send of the mail of a job touches the job. -/
theorem Event.touches_of_sends {id : Uuid} (h : e.sends id = true) : e.touches = some id := by
  cases e <;> simp_all [Event.sends, Event.touches]

/-- A worker that starts to send a mail has taken the job and has not sent the mail before. -/
theorem TickStep.counts_of_send {cfg : EmailOutboxRuntimeConfig} {id : Uuid}
    {message : EmailMessage} {now : Time} {error : Option (Str × Bool)}
    (h : TickStep cfg evs (.sentEmail id message now error) db db')
    (hdistinct : ∀ jobs, .committed (.claimed jobs) ∈ evs → (jobs.map (·.id)).Nodup) :
    evs.countP (Event.sends id) = 0 ∧
      0 < evs.countP fun e => decide (id ∈ e.claimedIds) := by
  obtain ⟨t, done, job, rest, evs₀, rfl, htreated, rfl, _⟩ := h.of_sentEmail
  have hnodup := hdistinct (done ++ job :: rest) (.tail _ (.head _))
  constructor
  · rw [List.countP_eq_zero]
    intro a ha hsends
    -- the first two events are the clock and the claim, the rest is about other jobs
    rcases List.mem_cons.mp ha with rfl | ha
    · cases hsends
    rcases List.mem_cons.mp ha with rfl | ha
    · cases hsends
    exact htreated.not_touched hnodup ha (Event.touches_of_sends hsends)
  · rw [List.countP_pos_iff]
    refine ⟨.committed (.claimed (done ++ job :: rest)), .tail _ (.head _), ?_⟩
    simp [Event.claimedIds]

/-- Every step keeps the invariant. -/
theorem SendInv.step (h : SendInv evs)
    (hdistinct : ∀ jobs, .committed (.claimed jobs) ∈ evs → (jobs.map (·.id)).Nodup)
    (hstep : ProtocolStep app r evs e db db') (htick : tickProtocol.step r evs e db db') :
    SendInv (evs ++ [e]) := by
  intro id
  have hbefore := h id
  rw [List.countP_append, List.countP_append, List.countP_singleton]
  split
  · rename_i hsends
    cases e with
    | sentEmail id' message now error =>
      have hid : id' = id := by simpa [Event.sends] using hsends
      subst hid
      obtain ⟨p, cfg, _, rfl, _⟩ := took_of_sentEmail hstep
      have hcounts := TickStep.counts_of_send htick hdistinct
      omega
    | _ => cases hsends
  · omega

end

/-- No mail is sent more often than its job was taken. -/
theorem sendCount_le_claimCount {app : App} {start : Request → Prop}
    {act : SysState → Nat → Event → Prop} {s : SysState}
    (hs : Reachable app.run (admission start act) Seed s) (id : Uuid) :
    sendCount s.trace id ≤ claimCount s.trace id := by
  have hcalls := Reachable.call_invariant (A := admission start act) (J := fun _ => SendInv)
    ((app_refines app).inter (app_refinesTick app)) (fun _ _ _ => Nat.le_refl 0) ?_ hs
  · exact hs.countP_le (p := Event.sends id) (q := fun e => decide (id ∈ e.claimedIds))
      fun c call hcall => hcalls c call hcall id
  · rintro s d c r e hs hJ _ _ ⟨hstep, htick⟩
    exact hJ.step (batches_distinct hs c) hstep htick

/-! ### The status of a job -/

/-- What the status of a job says about the run. -/
def Fate (M : Nat) (tr : Trace) (id : Uuid) : OutboxStatus → Prop
  | .sent => ∃ c message now, (c, .sentEmail id message now none) ∈ tr
  | .dead => M ≤ claimCount tr id ∨
      ∃ c message now what, (c, .sentEmail id message now (some (what, false))) ∈ tr
  | _ => True

/-- The invariant of the jobs:

- `limit`: a job has at most `M` attempts;
- `counted`: the attempts that a worker has read are claims that have happened;
- `fate`: the status of every job is true. -/
structure FateInv (M : Nat) (db : Db) (tr : Trace) : Prop where
  limit : ∀ job ∈ db.emailOutbox, job.attempts ≤ M
  counted : ∀ c entries, (c, .committed (.claimed entries)) ∈ tr → ∀ entry ∈ entries,
    entry.attempts ≤ claimCount tr entry.id
  fate : ∀ job ∈ db.emailOutbox, Fate M tr job.id job.status

section
variable {app : App} {M : Nat} {r : Request} {e : Event} {db db' : Db} {tr : Trace} {c : Nat}
  {content : Uuid → EmailMessage}

/-- A step takes no claim back. -/
theorem claimCount_le_snoc (tr : Trace) (c : Nat) (e : Event) (id : Uuid) :
    claimCount tr id ≤ claimCount (tr ++ [(c, e)]) id := by
  rw [claimCount_snoc]
  exact Nat.le_add_right _ _

/-- What the status says stays true. -/
theorem Fate.snoc {id : Uuid} {status : OutboxStatus} (h : Fate M tr id status) :
    Fate M (tr ++ [(c, e)]) id status := by
  cases status with
  | sent =>
    obtain ⟨c', message, now, hmem⟩ := h
    exact ⟨c', message, now, List.mem_append_left _ hmem⟩
  | dead =>
    rcases h with hlast | ⟨c', message, now, what, hmem⟩
    · exact .inl (hlast.trans (claimCount_le_snoc tr c e id))
    · exact .inr ⟨c', message, now, what, List.mem_append_left _ hmem⟩
  | _ => trivial

/-- A run starts without jobs. -/
theorem FateInv.init (h : Seed db) : FateInv M db [] where
  limit := h.forall_jobs
  counted _ _ hmem := by simp at hmem
  fate := h.forall_jobs

/-- The status that a worker stores is true. -/
theorem FateInv.fate_of_transition (h : FateInv M db tr) (hledger : Ledger app content db tr)
    {cfg : EmailOutboxRuntimeConfig} (hM : cfg.maxAttempts = M) {id leaseId : Uuid}
    {status : OutboxStatus} (he : e.transition = some (id, leaseId, status))
    (htick : TickStep cfg (own c tr) e db db') : Fate M tr id status := by
  rcases Event.transition_cases he with ⟨rfl, rfl⟩ | ⟨rfl, rfl⟩ | ⟨rfl, rfl⟩
  · obtain ⟨_, message, _, sentAt, _, _, _, hsent, _⟩ := htick.of_markedSent
    exact ⟨c, message, sentAt, mem_own.mp hsent⟩
  · trivial
  · obtain ⟨job, ⟨jobs, hclaimed, hjob⟩, rfl, hreason⟩ := htick.of_markedDead
    rcases hreason with hlast | ⟨x, hparse⟩ | ⟨message, now, what, hsent⟩
    · -- the worker has read the counter, and it has only grown since
      have hcounted := h.counted c jobs (mem_own.mp hclaimed) job hjob
      exact .inl (by omega)
    · -- every job of a batch has a message
      have hread := (hledger.taken c jobs (mem_own.mp hclaimed) job hjob).2
      rw [hparse] at hread
      cases hread
    · exact .inr ⟨c, message, now, what, mem_own.mp hsent⟩

/-- Every step keeps the invariant. -/
theorem FateInv.step (h : FateInv M db tr) (hledger : Ledger app content db tr)
    (houtbox : OutboxInv db' (tr ++ [(c, e)])) (hnodup : (db.emailOutbox.map (·.id)).Nodup)
    (hM : outboxLimit M r = true) (hstep : ProtocolStep app r (own c tr) e db db')
    (htick : tickProtocol.step r (own c tr) e db db') :
    FateInv M db' (tr ++ [(c, e)]) := by
  have htable := step_outbox hstep
  refine ⟨?_, ?_, ?_⟩
  · intro job hjob
    cases htable.row hnodup hjob with
    | same hold _ => exact h.limit job hold
    | enqueued _ _ _ hattempts =>
      rw [hattempts]
      exact Nat.zero_le M
    | @claimed p cfg i now j hr _ hj _ hdue hrow =>
      -- only a claim counts an attempt, and it takes a job below the limit
      subst hr hrow
      have hcfg : cfg.maxAttempts = M := beq_iff_eq.mp hM
      simp only [OutboxJob.claimable, Bool.and_eq_true, decide_eq_true_eq, hcfg] at hdue
      have hlimit := hdue.1.2
      have hcast := toInt32_le M
      show j.attempts + 1 ≤ M
      omega
    | stored _ _ hj _ _ _ hattempts _ =>
      rw [hattempts]
      exact h.limit _ hj
  · intro c' entries hmem entry hentry
    rcases List.mem_append.mp hmem with hold | hnew
    · have hcounted := h.counted c' entries hold entry hentry
      exact hcounted.trans (claimCount_le_snoc tr c e entry.id)
    · cases List.mem_singleton.mp hnew
      obtain ⟨j', hj', _, _, rfl⟩ := row_of_claimed hnodup hstep entry hentry
      exact Nat.le_of_eq (houtbox.counted j' hj')
  · intro job hjob
    cases htable.row hnodup hjob with
    | same hold _ => exact (h.fate job hold).snoc
    | enqueued _ _ hstatus _ =>
      rw [hstatus]
      trivial
    | claimed _ _ _ _ _ hrow =>
      rw [hrow]
      trivial
    | @stored p cfg taken j hr _ _ hleased _ hid _ he =>
      subst hr
      have hcfg : cfg.maxAttempts = M := beq_iff_eq.mp hM
      have hjob' : job.id = taken.id := by
        simp only [OutboxJob.leasedBy, Bool.and_eq_true, beq_iff_eq] at hleased
        exact hid.trans hleased.1.1
      rw [hjob']
      exact (h.fate_of_transition hledger hcfg he htick).snoc

end

/-! ### Whole runs -/

/-- The invariant of the mails and the jobs. -/
structure MailAccount (app : App) (M : Nat) (db : Db) (tr : Trace) : Prop where
  mail : MailInv app db tr
  outbox : OutboxInv db tr
  ledger : ∃ content, Ledger app content db tr
  fates : FateInv M db tr

section
variable {app : App} {M : Nat} {s : SysState}

/-- The invariant holds in every reachable state, when all workers have the limit. -/
theorem mailAccount_of_reachable {start : Request → Prop} {act : SysState → Nat → Event → Prop}
    (hports : app.ports.VerifiesSecrets) (hstart : ∀ r, start r → outboxLimit M r = true)
    (hs : Reachable app.run (admission start act) Seed s) :
    MailAccount app M s.store s.trace := by
  refine Reachable.invariant (A := admission start act) (J := MailAccount app M)
    ((app_refines app).inter (app_refinesTick app)) (fun db hseed => ?_) ?_ hs
  · -- there are no jobs yet, so any message will do
    exact ⟨.init hseed, .init hseed, ⟨fun _ => .passwordReset ⟨[], [], [], []⟩, .init hseed⟩,
      .init hseed⟩
  · rintro s db c r e ⟨hmail, houtbox, ⟨content, hledger⟩, hfates⟩ hr _ ⟨hstep, htick⟩
    have hstored := mails_step hstep hmail.ids (hmail.found c)
    have houtbox' := houtbox.step hstep
    exact ⟨hmail.step hports hstep, houtbox', hledger.step hports hmail.ids hstored hstep,
      hfates.step hledger houtbox' hmail.ids (hstart r hr) hstep htick⟩

/-- The accounts of the mails. In every run of the use cases and of any number of workers with
the limit `M`, which may stop at any step, there is one message for each job. It carries a
secret of the service to the address of its user, and whatever is sent for the job is this
message. The rows of the jobs tell the truth about the run. -/
theorem mail_accounted (hports : app.ports.VerifiesSecrets)
    (hs : Reachable app.run (fixedMaxAttempts M) Seed s) :
    ∃ content : Uuid → EmailMessage,
      (∀ job ∈ s.store.emailOutbox, Carries app s.store (content job.id)) ∧
      (∀ c id message now error, (c, .sentEmail id message now error) ∈ s.trace →
        (∃ job ∈ s.store.emailOutbox, job.id = id) ∧ message = content id) ∧
      ∀ job ∈ s.store.emailOutbox, job.Accounted M s.trace := by
  have hinv := mailAccount_of_reachable hports (fun _ hr => hr) hs
  obtain ⟨content, hledger⟩ := hinv.ledger
  refine ⟨content, hledger.carried, hledger.sent, ?_⟩
  intro job hjob
  have hcount := hinv.outbox.counted job hjob
  have hlimit := hinv.fates.limit job hjob
  have hfate := hinv.fates.fate job hjob
  refine ⟨?_, hlimit, ?_, ?_⟩
  · rw [hcount]
    exact sendCount_le_claimCount hs job.id
  · intro hstatus
    rw [hstatus] at hfate
    exact hfate
  · intro hstatus
    rw [hstatus] at hfate
    rcases hfate with hlast | hrefused
    · exact .inl (by omega)
    · exact .inr hrefused

end

/-- A reset mail that the mail server refuses for now, and the second attempt a day later. -/
def refusedThenSent : List (Move Input Request) :=
  enqueueReset 1 ⟨1⟩ ⟨2⟩ ++
  .start 2 ⟨hourSessions, .tick { maxAttempts := 2 }⟩ ::
    acts 2 [{}, { leaseId := fun _ => ⟨3⟩ }, { deliveryError := some ("busy", true) }, {}, {}] ++
  .start 3 ⟨hourSessions, .tick { maxAttempts := 2 }⟩ ::
    acts 3 [{ now := seconds 86400 }, { leaseId := fun _ => ⟨4⟩ }, {}, {}, {}]

/-- The job was sent twice, the second time with success, and both mails are the same. -/
theorem mail_accounted_secondAttempt :
    ∃ s : SysState, Reachable hmacApp.run (fixedMaxAttempts 2) Seed s ∧
      ∃ job ∈ s.store.emailOutbox, job.status = .sent ∧ sendCount s.trace job.id = 2 ∧
        job.Accounted 2 s.trace ∧ ∃ message, Carries hmacApp s.store message ∧
          ∀ c message' now error, (c, .sentEmail job.id message' now error) ∈ s.trace →
            message' = message := by
  obtain ⟨s, hs, job, hjob, hstate⟩ := exists_run hmacApp (fixedMaxAttempts 2) refusedThenSent
    (fun s => ∃ j ∈ s.store.emailOutbox, j.status = .sent ∧ sendCount s.trace j.id = 2)
    (by decide +kernel)
  obtain ⟨content, hcarried, hsent, haccounted⟩ :=
    mail_accounted (Ports.verifiesSecrets_of_hmac rfl rfl) hs
  exact ⟨s, hs, job, hjob, hstate.1, hstate.2, haccounted job hjob, content job.id,
    hcarried job hjob, fun c message' now error hmem =>
      (hsent c job.id message' now error hmem).2⟩

end SmirklyAuth
