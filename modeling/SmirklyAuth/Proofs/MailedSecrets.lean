import Mathlib.Data.List.Forall2
import SmirklyAuth.Infra.Security.HmacSha256
import SmirklyAuth.Proofs.OutboxRows
import SmirklyAuth.Protocol.UserTable

/-!
# `SmirklyAuth.Proofs.MailedSecrets`: the mailed secret is the stored secret

A code or a reset token exists in two places: its hash in `email_verifications` or
`password_resets`, and its text in the payload of a mail job, until the job is closed. One
transaction writes both rows, and neither row names the other.

`secrets_mailed` says that they still belong together in every reachable state. The rows of a
table of codes and the mail jobs of its template are paired in their order (`Mails`): the job
goes to the address that is stored for the user of the row, and while the job is open, what
`Tick` reads from it is a secret that the hasher accepts for the row. `IssueStep` says that the
two rows of a pair are stored by the same step.

The argument has two halves. A transaction that issues a code appends a pair. Every other
step keeps what the pairing is about: the user and the hash of a code (`SameSecret`), the
address and the open payload of a job (`SameMail`), the address of a user.
-/

set_option autoImplicit false

namespace SmirklyAuth

open Interleaving
open Sql (Update)

/-- The address of a message. -/
def EmailMessage.toEmail : EmailMessage → Str
  | .verification email => email.toEmail
  | .passwordReset email => email.toEmail

namespace CodeKind

/-- The template of the mails of this kind. -/
def template : CodeKind → Str
  | .emailVerification => "verification_code"
  | .passwordReset => "password_reset"

/-- The member of the payload that holds the secret. -/
def member : CodeKind → Str
  | .emailVerification => "code"
  | .passwordReset => "token"

/-- The mail jobs of this kind, in the order of their insertion. -/
def jobs (kind : CodeKind) (db : Db) : List OutboxJob :=
  db.emailOutbox.filter fun j => j.template = kind.template

/-- The secret in a message of this kind. -/
def secretOf : CodeKind → EmailMessage → Option Str
  | .emailVerification, .verification email => some email.code
  | .passwordReset, .passwordReset email => some email.token
  | _, _ => none

/-- The hash that is stored for a secret. -/
def hash (ports : Ports) (userId : Uuid) (secret : Str) : CodeKind → Str
  | .emailVerification => ports.verificationCodeHasher.hash userId secret
  | .passwordReset => ports.resetTokenHasher.hash secret

/-- Whether the hasher accepts a secret for a row. -/
def accepts (ports : Ports) (row : OneTimeCode) (secret : Str) : CodeKind → Bool
  | .emailVerification => ports.verificationCodeHasher.verify row.userId secret row.secretHash
  | .passwordReset => ports.resetTokenHasher.verify secret row.secretHash

end CodeKind

/-- The job mails the secret of the row:

- `template`: it is a job of the kind;
- `toEmail`: it goes to the address that is stored for the user of the row;
- `secret`: while it is neither sent nor dead, `Tick` reads a message to that address from it,
  with a secret that was hashed for the row and that the hasher accepts. -/
structure Mails (app : App) (db : Db) (kind : CodeKind) (row : OneTimeCode) (job : OutboxJob) :
    Prop where
  template : job.template = kind.template
  toEmail : ∃ user ∈ db.users, user.id = row.userId ∧ user.email = some job.toEmail
  secret : job.isOpen = true → ∀ leaseId, ∃ message secret,
    EmailOutboxProcessor.parseMessage (job.toEntry leaseId) = .ok message ∧
      message.toEmail = job.toEmail ∧ kind.secretOf message = some secret ∧
      row.secretHash = kind.hash app.ports row.userId secret ∧
      kind.accepts app.ports row secret = true

/-- What a step does to the codes and the jobs: it adds neither, or it adds one code and one
job, which is of the same kind and the only new job. -/
inductive IssueStep (db db' : Db) : Prop where
  | none (hrows : ∀ kind : CodeKind, (kind.rows db').map (·.id) = (kind.rows db).map (·.id))
      (hjobs : db'.emailOutbox.map (·.id) = db.emailOutbox.map (·.id)) : IssueStep db db'
  | issued (kind : CodeKind) (row : OneTimeCode) (job : OutboxJob)
      (hrow : (kind.rows db').map (·.id) = (kind.rows db).map (·.id) ++ [row.id])
      (hother : ∀ kind' ≠ kind, kind'.rows db' = kind'.rows db)
      (htemplate : job.template = kind.template)
      (hjob : db'.emailOutbox = db.emailOutbox ++ [job]) : IssueStep db db'

/-! ### What a step keeps -/

/-- The columns of a code that no statement writes. -/
structure OneTimeCode.SameSecret (r r' : OneTimeCode) : Prop where
  id : r'.id = r.id
  userId : r'.userId = r.userId
  secretHash : r'.secretHash = r.secretHash

/-- What a worker leaves of a job: only a job that is closed loses its payload. -/
structure OutboxJob.SameMail (j j' : OutboxJob) : Prop where
  id : j'.id = j.id
  toEmail : j'.toEmail = j.toEmail
  template : j'.template = j.template
  correlationId : j'.correlationId = j.correlationId
  payload : j'.isOpen = true → j.isOpen = true ∧ j'.payload = j.payload

/-- A row has its own secret. -/
theorem OneTimeCode.SameSecret.refl (r : OneTimeCode) : r.SameSecret r := ⟨rfl, rfl, rfl⟩

/-- One step after the other. -/
theorem OneTimeCode.SameSecret.trans {r r' r'' : OneTimeCode} (h : r.SameSecret r')
    (h' : r'.SameSecret r'') : r.SameSecret r'' :=
  ⟨h'.id.trans h.id, h'.userId.trans h.userId, h'.secretHash.trans h.secretHash⟩

/-- A job has its own mail. -/
theorem OutboxJob.SameMail.refl (j : OutboxJob) : j.SameMail j :=
  ⟨rfl, rfl, rfl, rfl, fun hopen => ⟨hopen, rfl⟩⟩

/-- A statement that writes none of these columns keeps them in every row. -/
theorem sameSecret_run {u : Update OneTimeCode} (h : ∀ r, OneTimeCode.SameSecret r (u.set r))
    (rows : List OneTimeCode) : List.Forall₂ OneTimeCode.SameSecret rows (u.run rows) := by
  have hrewrites := Update.rewrites_run (u := u) (fun r _ => h r) rows
  refine hrewrites.imp ?_
  rintro r r' (rfl | hsame)
  · exact .refl r'
  · exact hsame

/-- Every move of the worker keeps the mail. -/
theorem OutboxJob.Moves.sameMail {x : OutboxRecord} {j j' : OutboxJob} (h : j.Moves x j') :
    j.SameMail j' := by
  have hrespects := h.respects
  refine ⟨h.id_eq, hrespects.toEmail, hrespects.template, hrespects.correlationId, ?_⟩
  intro hopen
  have hopen' : j.isOpen = true := by
    by_contra hclosed
    -- a closed job stays as it is
    have hsame := (hrespects.closed (Bool.eq_false_iff.mpr hclosed)).1
    rw [hsame] at hopen
    exact hclosed hopen
  refine ⟨hopen', ?_⟩
  -- a move that writes the payload closes the job
  by_contra hne
  have hclosed := (hrespects.payload hne).2
  rw [hopen] at hclosed
  cases hclosed

/-- A column of the accounts that no statement of a transaction writes. -/
theorem UsersCommit.keeps_email {t : TxEvent} {users users' : List User}
    (h : UsersCommit t users users') {u : User} (hu : u ∈ users) :
    ∃ u' ∈ users', u'.id = u.id ∧ u'.email = u.email := by
  have hrun : ∀ w : Update User, w.Keeps (·.id) → w.Keeps (·.email) →
      ∃ u' ∈ w.run users, u'.id = u.id ∧ u'.email = u.email :=
    fun w hid hemail => ⟨_, Update.apply_mem_run hu, hid.apply u, hemail.apply u⟩
  cases h with
  | joined _ => exact ⟨u, List.mem_append_left _ hu, rfl, rfl⟩
  | verified => exact hrun _ (fun _ => rfl) fun _ => rfl
  | password _ => exact hrun _ (fun _ => rfl) fun _ => rfl
  | unchanged _ => exact ⟨u, hu, rfl, rfl⟩

/-! ### The transactions -/

/-- The steps of codes and jobs:

- `kept`: no row is added;
- `issued`: one code and one job are added, with the hash and the text of one secret. The
  address of the job is the one of the user of the code. -/
inductive MailStep (app : App) (db db' : Db) : Prop where
  | kept (hrows : ∀ kind : CodeKind,
        List.Forall₂ OneTimeCode.SameSecret (kind.rows db) (kind.rows db'))
      (hjobs : List.Forall₂ OutboxJob.SameMail db.emailOutbox db'.emailOutbox) :
      MailStep app db db'
  | issued (kind : CodeKind) {base row id now email secret correlationId}
      (hbase : List.Forall₂ OneTimeCode.SameSecret (kind.rows db) base)
      (hrow : kind.rows db' = base ++ [row])
      (hother : ∀ kind' ≠ kind, kind'.rows db' = kind'.rows db)
      (hhash : row.secretHash = kind.hash app.ports row.userId secret)
      (hemail : ∃ user ∈ db'.users, user.id = row.userId ∧ user.email = some email)
      (hnew : ∀ j ∈ db.emailOutbox, j.id ≠ id)
      (hjob : db'.emailOutbox = db.emailOutbox ++ [emailOutboxInsert id now email kind.template
        [(kind.member, secret), ("locale", "ru")] correlationId]) : MailStep app db db'

/-- A pair of a row and the row it has become. -/
theorem exists_of_forall₂_left {α β : Type} {R : α → β → Prop} {as : List α} {bs : List β}
    (h : List.Forall₂ R as bs) {a : α} (ha : a ∈ as) : ∃ b ∈ bs, R a b := by
  induction h with
  | nil => cases ha
  | cons hab _ ih =>
    rcases List.mem_cons.mp ha with rfl | ha
    · exact ⟨_, .head _, hab⟩
    · obtain ⟨b, hb, hR⟩ := ih ha
      exact ⟨b, .tail _ hb, hR⟩

/-- The row that another row comes from. -/
theorem exists_of_forall₂_right {α β : Type} {R : α → β → Prop} {as : List α} {bs : List β}
    (h : List.Forall₂ R as bs) {b : β} (hb : b ∈ bs) : ∃ a ∈ as, R a b :=
  exists_of_forall₂_left h.flip hb

/-- A step keeps the codes and their secrets. -/
theorem MailStep.keeps_secret {app : App} {db db' : Db} (h : MailStep app db db')
    {kind : CodeKind} {row : OneTimeCode} (hrow : row ∈ kind.rows db) :
    ∃ row' ∈ kind.rows db', row.SameSecret row' := by
  cases h with
  | kept hrows _ => exact exists_of_forall₂_left (hrows kind) hrow
  | issued kind₀ hbase hnew hother _ _ _ _ =>
    by_cases hkind : kind = kind₀
    · subst hkind
      obtain ⟨row', hrow', hsame⟩ := exists_of_forall₂_left hbase hrow
      rw [hnew]
      exact ⟨row', List.mem_append_left _ hrow', hsame⟩
    · rw [hother kind hkind]
      exact ⟨row, hrow, .refl row⟩

/-- A call that adds no job keeps the mails. -/
theorem OutboxEffect.sameMail {x : OutboxRecord} {jobs jobs' : List OutboxJob}
    (h : OutboxEffect x jobs jobs') (hlength : jobs'.length = jobs.length) :
    List.Forall₂ OutboxJob.SameMail jobs jobs' := by
  cases h with
  | inserted _ _ _ => simp at hlength
  | moved hrows _ _ =>
    rw [List.forall₂_map_right_iff, List.forall₂_same]
    exact fun j hj => (hrows j hj).sameMail

section
variable {app : App} {r : Request} {evs : List Event} {e : Event} {t : TxEvent} {db db' : Db}

/-- The same for a transaction. -/
theorem commit_sameMail (h : Commits app r evs t db db')
    (hnodup : (db.emailOutbox.map (·.id)).Nodup)
    (hlength : db'.emailOutbox.length = db.emailOutbox.length) :
    List.Forall₂ OutboxJob.SameMail db.emailOutbox db'.emailOutbox := by
  rcases (commit_outbox h).effect hnodup with ⟨hsame, _⟩ | ⟨_, _, heffect⟩
  · rw [hsame, List.forall₂_same]
    exact fun j _ => .refl j
  · exact heffect.sameMail hlength

/-- Two tables of codes that keep their secrets. -/
theorem sameSecret_rows
    (hverifications : List.Forall₂ OneTimeCode.SameSecret db.emailVerifications
      db'.emailVerifications)
    (hresets : List.Forall₂ OneTimeCode.SameSecret db.passwordResets db'.passwordResets)
    (kind : CodeKind) :
    List.Forall₂ OneTimeCode.SameSecret (kind.rows db) (kind.rows db') := by
  cases kind with
  | emailVerification => exact hverifications
  | passwordReset => exact hresets

/-- A table that nothing touched. -/
theorem sameSecret_refl (rows : List OneTimeCode) :
    List.Forall₂ OneTimeCode.SameSecret rows rows :=
  List.forall₂_same.mpr fun r _ => .refl r

/-- A new code of `email_verifications` and its job. -/
theorem mailStep_of_issueCode {policy : EmailVerificationPolicy} {userId : Uuid} {email : Str}
    {m : RequestMeta} {now : Time} {i : Input} {base : Db}
    (h : IdentityService.issueCodeTx app.ports policy userId email m now i base = .ok ((), db'))
    (hcodes : List.Forall₂ OneTimeCode.SameSecret db.emailVerifications base.emailVerifications)
    (hresets : base.passwordResets = db.passwordResets)
    (houtbox : base.emailOutbox = db.emailOutbox)
    (hemail : ∃ user ∈ base.users, user.id = userId ∧ user.email = some email) :
    MailStep app db db' := by
  obtain ⟨row, _, _, ⟨huser, hhash⟩, rfl, hnew, rfl⟩ := issueCodeTx_eq_ok h
  subst huser
  refine .issued .emailVerification hcodes rfl ?_ hhash hemail (houtbox ▸ hnew)
    (congrArg (· ++ [_]) houtbox)
  intro kind hkind
  cases kind with
  | emailVerification => exact absurd rfl hkind
  | passwordReset => exact hresets

/-- A new code of `password_resets` and its job. -/
theorem mailStep_of_issueReset {policy : PasswordResetPolicy} {userId : Uuid} {email : Str}
    {m : RequestMeta} {now : Time} {i : Input} {base : Db}
    (h : PasswordService.issueResetTx app.ports policy userId email m now i base = .ok ((), db'))
    (hcodes : base.emailVerifications = db.emailVerifications)
    (hresets : base.passwordResets = db.passwordResets)
    (houtbox : base.emailOutbox = db.emailOutbox)
    (hemail : ∃ user ∈ base.users, user.id = userId ∧ user.email = some email) :
    MailStep app db db' := by
  obtain ⟨row, _, _, ⟨huser, hhash⟩, rfl, hnew, rfl⟩ := issueResetTx_eq_ok h
  subst huser
  refine .issued .passwordReset ?_ rfl ?_ hhash hemail (houtbox ▸ hnew)
    (congrArg (· ++ [_]) houtbox)
  · rw [hresets]
    exact sameSecret_run (fun _ => ⟨rfl, rfl, rfl⟩) _
  · intro kind hkind
    cases kind with
    | emailVerification => exact hcodes
    | passwordReset => exact absurd rfl hkind

/-- The users that a call has found have kept their addresses. -/
def FoundAddresses (db : Db) (evs : List Event) : Prop :=
  ∀ user, Event.foundUser (some user) ∈ evs →
    ∃ u ∈ db.users, u.id = user.id ∧ u.email = user.email

/-- A step that leaves the codes as they are and adds no job. -/
theorem MailStep.of_same (hverifications : db'.emailVerifications = db.emailVerifications)
    (hresets : db'.passwordResets = db.passwordResets)
    (hjobs : List.Forall₂ OutboxJob.SameMail db.emailOutbox db'.emailOutbox) :
    MailStep app db db' := by
  refine .kept (sameSecret_rows ?_ ?_) hjobs
  · rw [hverifications]
    exact sameSecret_refl _
  · rw [hresets]
    exact sameSecret_refl _

/-- Every transaction is a step of the codes and the jobs. -/
theorem mails_commit (h : Commits app r evs t db db')
    (hnodup : (db.emailOutbox.map (·.id)).Nodup) (hfound : FoundAddresses db evs) :
    MailStep app db db' := by
  have hframe := commits_frame h
  have hjobs := commit_sameMail h hnodup
  cases h with
  -- the three transactions that can issue a code
  | signedUp _ _ htx =>
    obtain ⟨_, _, ⟨_, rfl⟩ | ⟨_, hemail, hissue⟩⟩ := signUpTx_eq_ok htx
    · exact .of_same rfl rfl (hjobs rfl)
    · exact mailStep_of_issueCode hissue (sameSecret_refl _) rfl rfl
        ⟨_, List.mem_append_right _ (List.mem_singleton_self _), rfl, hemail⟩
  | verificationResent htx =>
    obtain ⟨_, rfl | ⟨user, _, rfl, hemail, hissue⟩⟩ := resendTx_eq_ok htx
    · exact .of_same rfl rfl (hjobs rfl)
    · obtain ⟨u, hu, hid, hsame⟩ := hfound user (by simp)
      exact mailStep_of_issueCode hissue (sameSecret_run (fun _ => ⟨rfl, rfl, rfl⟩) _) rfl rfl
        ⟨u, hu, hid, hsame.trans hemail⟩
  | resetRequested htx =>
    obtain ⟨_, rfl | ⟨user, _, rfl, hemail, hissue⟩⟩ := requestResetTx_eq_ok htx
    · exact .of_same rfl rfl (hjobs rfl)
    · obtain ⟨u, hu, hid, hsame⟩ := hfound user (by simp)
      exact mailStep_of_issueReset hissue rfl rfl rfl ⟨u, hu, hid, hsame.trans hemail⟩
  -- the four that write the other columns of a code
  | codeRejected _ htx =>
    cases htx
    exact .kept (sameSecret_rows (sameSecret_run (fun _ => ⟨rfl, rfl, rfl⟩) _)
      (sameSecret_refl _)) (hjobs rfl)
  | emailVerified _ htx =>
    obtain ⟨_, rfl⟩ := verifyEmailTx_eq_ok htx
    exact .kept (sameSecret_rows (sameSecret_run (fun _ => ⟨rfl, rfl, rfl⟩) _)
      (sameSecret_refl _)) (hjobs rfl)
  | tokenRejected _ htx =>
    cases htx
    exact .kept (sameSecret_rows (sameSecret_refl _)
      (sameSecret_run (fun _ => ⟨rfl, rfl, rfl⟩) _)) (hjobs rfl)
  | resetConfirmed _ htx =>
    obtain ⟨_, rfl⟩ := confirmResetTx_eq_ok htx
    exact .kept (sameSecret_rows (sameSecret_refl _)
      (sameSecret_run (fun _ => ⟨rfl, rfl, rfl⟩) _)) (hjobs rfl)
  -- the worker
  | claimed htx =>
    unfold EmailOutboxRepository.claimBatch at htx
    split at htx <;> cases htx
    exact .of_same rfl rfl (hjobs (List.length_map _))
  | markedSent _ _ htx =>
    cases htx
    exact .of_same rfl rfl (hjobs (List.length_map _))
  | markedDead _ _ _ htx =>
    cases htx
    exact .of_same rfl rfl (hjobs (List.length_map _))
  | rescheduled _ _ _ htx =>
    cases htx
    exact .of_same rfl rfl (hjobs (List.length_map _))
  | _ =>
    exact .of_same (hframe.verifications rfl) (hframe.resets rfl)
      (hjobs (congrArg List.length (hframe.outbox rfl)))

/-- A step keeps the addresses of the users. -/
theorem keeps_addresses (h : ProtocolStep app r evs e db db') {u : User} (hu : u ∈ db.users) :
    ∃ u' ∈ db'.users, u'.id = u.id ∧ u'.email = u.email := by
  cases h with
  | aborted _ => exact ⟨u, hu, rfl, rfl⟩
  | read _ => exact ⟨u, hu, rfl, rfl⟩
  | committed hcommit => exact (users_commit hcommit).keeps_email hu

/-- Every step of a call is a step of the codes and the jobs. -/
theorem mails_step (h : ProtocolStep app r evs e db db')
    (hnodup : (db.emailOutbox.map (·.id)).Nodup) (hfound : FoundAddresses db evs) :
    MailStep app db db' := by
  have hsame : MailStep app db db :=
    .of_same rfl rfl (List.forall₂_same.mpr fun j _ => .refl j)
  cases h with
  | aborted _ => exact hsame
  | read _ => exact hsame
  | committed hcommit => exact mails_commit hcommit hnodup hfound

/-- The addresses that any call has found stay. -/
theorem FoundAddresses.keep {evs' : List Event} (hfound : FoundAddresses db evs')
    (h : ProtocolStep app r evs e db db') : FoundAddresses db' evs' := by
  intro user huser
  obtain ⟨u, hu, hid, hemail⟩ := hfound user huser
  obtain ⟨u', hu', hid', hemail'⟩ := keeps_addresses h hu
  exact ⟨u', hu', hid'.trans hid, hemail'.trans hemail⟩

/-- A user that the step finds has its address in the table. -/
theorem FoundAddresses.step (hfound : FoundAddresses db evs)
    (h : ProtocolStep app r evs e db db') : FoundAddresses db' (evs ++ [e]) := by
  intro user huser
  rcases List.mem_append.mp huser with huser | huser
  · exact hfound.keep h user huser
  · cases List.mem_singleton.mp huser
    cases h with
    | aborted hab => cases hab
    | read hread => exact ⟨user, reads_foundUser hread, rfl, rfl⟩

end

/-! ### The pairs -/

/-- Two lists that are paired stay paired when their elements change so that each pair keeps
its property. -/
theorem forall₂_of_changes {α β : Type} {R R' : α → β → Prop} {S : α → α → Prop}
    {T : β → β → Prop} {as as' : List α} {bs bs' : List β} (h : List.Forall₂ R as bs)
    (has : List.Forall₂ S as as') (hbs : List.Forall₂ T bs bs')
    (hpair : ∀ a b a' b', R a b → S a a' → T b b' → R' a' b') : List.Forall₂ R' as' bs' := by
  -- on the pairing; the two lists of changes follow it
  induction h generalizing as' bs' with
  | nil =>
    cases has
    cases hbs
    exact .nil
  | cons hab _ ih =>
    cases has with
    | cons ha has =>
      cases hbs with
      | cons hb hbs => exact .cons (hpair _ _ _ _ hab ha hb) (ih has hbs)

/-- The kinds have different templates. -/
theorem CodeKind.template_injective {kind kind' : CodeKind}
    (h : kind.template = kind'.template) : kind = kind' := by
  cases kind <;> cases kind' <;> first | rfl | exact absurd h (by decide +kernel)

section
variable {app : App} {db db' : Db} {kind : CodeKind} {row row' : OneTimeCode}
  {job job' : OutboxJob}

/-- `Tick` reads the same message from a job whose mail is the same. -/
theorem OutboxJob.SameMail.parseMessage_eq (h : job.SameMail job') (hopen : job'.isOpen = true)
    (leaseId : Uuid) : EmailOutboxProcessor.parseMessage (job'.toEntry leaseId) =
      EmailOutboxProcessor.parseMessage (job.toEntry leaseId) := by
  unfold EmailOutboxProcessor.parseMessage OutboxJob.toEntry
  simp only [(h.payload hopen).2, h.template, h.toEmail, h.correlationId]

/-- A pair stays a pair. -/
theorem Mails.keep (h : Mails app db kind row job) (hrow : row.SameSecret row')
    (hjob : job.SameMail job')
    (husers : ∀ u ∈ db.users, ∃ u' ∈ db'.users, u'.id = u.id ∧ u'.email = u.email) :
    Mails app db' kind row' job' where
  template := hjob.template.trans h.template
  toEmail := by
    obtain ⟨user, huser, hid, hemail⟩ := h.toEmail
    obtain ⟨user', huser', hid', hemail'⟩ := husers user huser
    rw [hrow.userId, hjob.toEmail]
    exact ⟨user', huser', hid'.trans hid, hemail'.trans hemail⟩
  secret := by
    intro hopen leaseId
    obtain ⟨message, secret, hparse, hto, hsecret, hhash, haccepts⟩ :=
      h.secret (hjob.payload hopen).1 leaseId
    have hsame : kind.accepts app.ports row' secret = kind.accepts app.ports row secret := by
      cases kind <;> simp only [CodeKind.accepts, hrow.userId, hrow.secretHash]
    rw [hjob.parseMessage_eq hopen, hjob.toEmail, hrow.secretHash, hrow.userId]
    exact ⟨message, secret, hparse, hto, hsecret, hhash, hsame.trans haccepts⟩

/-- A code and a job with the hash and the text of one secret are a pair. -/
theorem mails_of_issue {id : Uuid} {now : Time} {email secret correlationId : Str}
    (hports : app.ports.VerifiesSecrets)
    (hhash : row.secretHash = kind.hash app.ports row.userId secret)
    (hemail : ∃ user ∈ db.users, user.id = row.userId ∧ user.email = some email) :
    Mails app db kind row (emailOutboxInsert id now email kind.template
      [(kind.member, secret), ("locale", "ru")] correlationId) where
  template := rfl
  toEmail := hemail
  secret := by
    intro _ leaseId
    -- `parseMessage` computes on the payload, given the kind
    cases kind with
    | emailVerification =>
      refine ⟨_, secret, rfl, rfl, rfl, hhash, ?_⟩
      show app.ports.verificationCodeHasher.verify row.userId secret row.secretHash = true
      rw [hhash]
      exact hports.code row.userId secret
    | passwordReset =>
      refine ⟨_, secret, rfl, rfl, rfl, hhash, ?_⟩
      show app.ports.resetTokenHasher.verify secret row.secretHash = true
      rw [hhash]
      exact hports.token secret

end

/-- The invariant of a run:

- `ids`: the ids of the jobs are unique;
- `pairs`: the codes and the jobs of each kind are paired;
- `kinds`: every job is of a kind;
- `found`: the users that a call has found have kept their addresses. -/
structure MailInv (app : App) (db : Db) (tr : Trace) : Prop where
  ids : (db.emailOutbox.map (·.id)).Nodup
  pairs : ∀ kind : CodeKind, List.Forall₂ (Mails app db kind) (kind.rows db) (kind.jobs db)
  kinds : ∀ job ∈ db.emailOutbox, ∃ kind : CodeKind, job.template = kind.template
  found : ∀ c, FoundAddresses db (own c tr)

section
variable {app : App} {r : Request} {e : Event} {db db' : Db} {tr : Trace} {c : Nat}

/-- Before the first call there are no codes and no mails. -/
theorem MailInv.init (h : Seed db) : MailInv app db [] where
  ids := by
    rw [h.emailOutbox]
    exact List.nodup_nil
  pairs kind := by
    rw [h.codes kind, CodeKind.jobs, h.emailOutbox]
    exact .nil
  kinds := by
    rw [h.emailOutbox]
    exact fun _ hj => nomatch hj
  found _ _ hmem := nomatch hmem

/-- The jobs of a kind stay where they are when the mails are the same. -/
theorem jobs_sameMail (h : List.Forall₂ OutboxJob.SameMail db.emailOutbox db'.emailOutbox)
    (kind : CodeKind) : List.Forall₂ OutboxJob.SameMail (kind.jobs db) (kind.jobs db') := by
  refine List.rel_filter ?_ h
  intro job job' hsame
  simp only [hsame.template]

/-- A column that the changes of the rows keep. -/
theorem map_eq_of_changes {α κ : Type} {S : α → α → Prop} {f : α → κ} {rows rows' : List α}
    (h : List.Forall₂ S rows rows') (hS : ∀ a a', S a a' → f a' = f a) :
    rows'.map f = rows.map f :=
  Update.Rewrites.map_eq (h.imp fun _ _ => Or.inr) hS

/-- What the steps of codes and jobs look like from outside. -/
theorem MailStep.issueStep (h : MailStep app db db') : IssueStep db db' := by
  cases h with
  | kept hrows hjobs =>
    exact .none (fun kind => map_eq_of_changes (hrows kind) fun _ _ hsame => hsame.id)
      (map_eq_of_changes hjobs fun _ _ hsame => hsame.id)
  | @issued kind base row _ _ _ _ _ hbase hrow hother _ _ _ hjob =>
    refine .issued kind row _ ?_ hother rfl hjob
    rw [hrow, List.map_append, map_eq_of_changes hbase fun _ _ hsame => hsame.id]
    rfl

/-- Every step keeps the pairs. -/
theorem MailStep.pairs (h : MailStep app db db') (hports : app.ports.VerifiesSecrets)
    (husers : ∀ u ∈ db.users, ∃ u' ∈ db'.users, u'.id = u.id ∧ u'.email = u.email)
    (hpairs : ∀ kind : CodeKind,
      List.Forall₂ (Mails app db kind) (kind.rows db) (kind.jobs db)) (kind : CodeKind) :
    List.Forall₂ (Mails app db' kind) (kind.rows db') (kind.jobs db') := by
  cases h with
  | kept hrows hjobs =>
    exact forall₂_of_changes (hpairs kind) (hrows kind) (jobs_sameMail hjobs kind)
      fun _ _ _ _ hmails hrow hjob => hmails.keep hrow hjob husers
  | @issued issuedKind base row _ _ _ _ _ hbase hrow hother hhash hemail _ hjob =>
    -- the old pairs stay, whether or not their codes were used up by the new one
    have hkeep : ∀ rows, List.Forall₂ OneTimeCode.SameSecret (kind.rows db) rows →
        List.Forall₂ (Mails app db' kind) rows (kind.jobs db) := fun rows hsame =>
      forall₂_of_changes (hpairs kind) hsame
        (List.forall₂_same.mpr fun job _ => OutboxJob.SameMail.refl job)
        fun _ _ _ _ hmails hrow hjob => hmails.keep hrow hjob husers
    rw [CodeKind.jobs, hjob, List.filter_append]
    by_cases hkind : kind = issuedKind
    · subst hkind
      rw [hrow]
      refine List.rel_append (hkeep base hbase) ?_
      rw [List.filter_cons_of_pos (by exact decide_eq_true rfl)]
      exact .cons (mails_of_issue hports hhash hemail) .nil
    · -- the new job has the template of the other kind
      rw [hother kind hkind, List.filter_cons_of_neg ?_, List.filter_nil, List.append_nil]
      · exact hkeep _ (sameSecret_refl _)
      · simp only [decide_eq_true_eq]
        exact fun htemplate => hkind (CodeKind.template_injective htemplate.symm)

/-- Every step keeps the invariant. -/
theorem MailInv.step (h : MailInv app db tr) (hports : app.ports.VerifiesSecrets)
    (hstep : ProtocolStep app r (own c tr) e db db') : MailInv app db' (tr ++ [(c, e)]) := by
  have hmail := mails_step hstep h.ids (h.found c)
  refine ⟨?_, hmail.pairs hports (fun _ => keeps_addresses hstep) h.pairs, ?_, ?_⟩
  · cases hmail with
    | kept _ hjobs =>
      rw [map_eq_of_changes hjobs fun _ _ hsame => hsame.id]
      exact h.ids
    | issued _ _ _ _ _ _ hnew hjob =>
      rw [hjob]
      exact Sql.nodup_keys_snoc h.ids hnew
  · intro job hmem
    cases hmail with
    | kept _ hjobs =>
      have hmem' := List.mem_map_of_mem (f := fun j : OutboxJob => j.template) hmem
      rw [map_eq_of_changes hjobs fun _ _ hsame => hsame.template] at hmem'
      obtain ⟨old, hold, htemplate⟩ := List.mem_map.mp hmem'
      obtain ⟨kind, hkind⟩ := h.kinds old hold
      exact ⟨kind, htemplate.symm.trans hkind⟩
    | issued kind _ _ _ _ _ _ hjob =>
      rw [hjob] at hmem
      rcases List.mem_append.mp hmem with hmem | hmem
      · exact h.kinds job hmem
      · rw [List.mem_singleton.mp hmem]
        exact ⟨kind, rfl⟩
  · exact forall_own_snoc ((h.found c).step hstep) fun c' => (h.found c').keep hstep

end

section
variable {app : App} {A : SysAdmission} {s : SysState}

/-- The invariant holds in every reachable state. -/
theorem mailInv_of_reachable (hports : app.ports.VerifiesSecrets)
    (hs : Reachable app.run A Seed s) : MailInv app s.store s.trace :=
  Reachable.invariant (J := MailInv app) (app_refines app) (fun _ => MailInv.init)
    (fun _ _ _ _ _ hinv _ _ hstep => hinv.step hports hstep) hs

/-- The mailed secret is the stored secret. In every reachable state the rows of each table of
codes and the mail jobs of its template are paired in their order, each job mails the secret of
its row and of no other, and every job of the outbox is such a job. Every step adds the two rows
of a pair together, or none. -/
theorem secrets_mailed (hports : app.ports.VerifiesSecrets)
    (hs : Reachable app.run A Seed s) :
    (∀ kind : CodeKind,
      List.Forall₂ (Mails app s.store kind) (kind.rows s.store) (kind.jobs s.store)) ∧
    (∀ job ∈ s.store.emailOutbox, ∃! kind : CodeKind, job ∈ kind.jobs s.store) ∧
    (s.store.emailOutbox.map (·.id)).Nodup ∧
    ∀ s', Step app.run A s s' → IssueStep s.store s'.store := by
  have hinv := mailInv_of_reachable hports hs
  refine ⟨hinv.pairs, ?_, hinv.ids, ?_⟩
  · intro job hjob
    obtain ⟨kind, hkind⟩ := hinv.kinds job hjob
    refine ⟨kind, List.mem_filter.mpr ⟨hjob, decide_eq_true hkind⟩, ?_⟩
    intro kind' hkind'
    have htemplate := of_decide_eq_true (List.mem_filter.mp hkind').2
    exact CodeKind.template_injective (htemplate.symm.trans hkind)
  · intro s' hstep
    rcases hstep.protocol (app_refines app) hs with
      ⟨c, r, _, _, rfl⟩ | ⟨c, r, _, _, e, db, _, _, _, hprotocol, rfl⟩
    · exact .none (fun _ => rfl) rfl
    · exact (mails_step hprotocol hinv.ids (hinv.found c)).issueStep

end

/-- The hasher of tokens with a digest that can be evaluated. -/
def unitTokenHasher : HmacSha256TokenHasher where
  digest key data := key ++ data
  pepper := "unit-pepper"
  nonempty := by decide
  size := by decide

/-- The concrete service, with the hashers of the source. -/
def hmacApp : App :=
  { plainApp with ports :=
      { plainApp.ports with
        verificationCodeHasher := HmacSha256VerificationCodeHasher.port ⟨unitTokenHasher⟩
        resetTokenHasher := unitTokenHasher.port } }

/-- The token and the mail of a database that has one of each. -/
def soleReset (db : Db) : Option (OneTimeCode × OutboxJob) :=
  match db.passwordResets, db.emailOutbox with
  | [row], [job] => some (row, job)
  | _, _ => none

/-- The only code and the only mail of a database. -/
theorem soleReset_eq_some {db : Db} {row : OneTimeCode} {job : OutboxJob}
    (h : soleReset db = some (row, job)) :
    db.passwordResets = [row] ∧ db.emailOutbox = [job] := by
  unfold soleReset at h
  split at h
  · rename_i hrows hjobs
    cases h
    exact ⟨hrows, hjobs⟩
  · cases h

/-- A reset that was requested with another spelling of the address. -/
theorem secrets_mailed_otherSpelling : ∃ (s : SysState) (row : OneTimeCode) (job : OutboxJob),
    Reachable hmacApp.run anyRun Seed s ∧ s.store.passwordResets = [row] ∧
      s.store.emailOutbox = [job] ∧ job.toEmail = lit "unit@example.com" ∧
      Mails hmacApp s.store .passwordReset row job := by
  obtain ⟨s, hs, ⟨row, job⟩, hsole, hcheck⟩ := exists_run hmacApp anyRun
    (.start 1 ⟨hourSessions, .requestReset ⟨"UNIT@example.com"⟩ {}⟩ ::
      acts 1 [{}, {}, { newCodeId := ⟨1⟩, newJobId := ⟨2⟩, secret := "token" }])
    (fun s => ∃ found ∈ soleReset s.store, found.2.template = CodeKind.passwordReset.template ∧
      found.2.toEmail = lit "unit@example.com") (by decide +kernel)
  obtain ⟨hrows, hjobs⟩ := soleReset_eq_some hsole
  have hpairs := (secrets_mailed (Ports.verifiesSecrets_of_hmac rfl rfl) hs).1 .passwordReset
  have hone : CodeKind.passwordReset.jobs s.store = [job] := by
    simpa [CodeKind.jobs, hjobs] using hcheck.1
  rw [hone, CodeKind.rows, hrows] at hpairs
  cases hpairs with
  | cons hmails _ => exact ⟨s, row, job, hs, hrows, hjobs, hcheck.2, hmails⟩

end SmirklyAuth
