import SmirklyAuth.Infra.Messaging.SmtpEmailVerificationSender
import SmirklyAuth.Proofs.MailAccounting
import SmirklyAuth.Proofs.OutgoingMail

/-!
# `SmirklyAuth.Proofs.SmtpDelivery`: from a row of the outbox to libcurl

The outbox worker sees a send as an exception or none. Here the sender is the one of the
service: `SmtpEmailVerificationSender` over `SmtpEmailSender`, `CurlSmtpClient` and libcurl. What
libcurl, the clock and the random generator do at each step of a run is arbitrary (`MailEnv`).

So the status of a row says something about libcurl. A job that is marked as sent was accepted
by the mail server, as a message that reads as the mail of a stored code. A job that is given up
before its last attempt had an error of the configuration, of the login, of the certificates or
of the protocol: a network that is down, a timeout or an unknown code only ever costs an
attempt.
-/

set_option autoImplicit false

namespace SmirklyAuth

open Interleaving

/-- The kinds of errors for which the sender does not ask for a retry. -/
def SmtpErrorKind.isPermanent : SmtpErrorKind → Bool
  | .auth | .tls | .protocol => true
  | _ => false

/-- A result that is an error of a permanent kind. -/
def SmtpSendResult.Fatal (result : SmtpSendResult) : Prop :=
  result.ok = false ∧ result.kind.isPermanent = true

/-- The subject of the mail of a message. -/
def EmailMessage.subject : EmailMessage → Str
  | .verification _ => "Smirkly verification code"
  | .passwordReset _ => "Smirkly password reset"

/-- The body of the mail of a message. -/
def EmailMessage.body : EmailMessage → Str
  | .verification email => SmtpEmailSender.secretBody "Your verification code: " email.code
  | .passwordReset email => SmtpEmailSender.secretBody "Your password reset token: " email.token

/-- The correlation id of a message, which only an error text shows. -/
def EmailMessage.correlationId : EmailMessage → Str
  | .verification email => email.correlationId
  | .passwordReset email => email.correlationId

namespace SmtpEmailVerificationSender

variable (sender : SmtpEmailVerificationSender)

/-- The mail of a message. -/
def mail (system : MailSystem) (message : EmailMessage) : Rfc822Message :=
  sender.smtpSender.message system message.toEmail message.subject message.body

/-- The mail server has accepted the mail of a message:

- `accepted`: libcurl has a handle and returns `CURLE_OK` for the request with this mail and this
  one recipient;
- `reads`: a reader splits the mail into the header, with the address of the message as `To`,
  and the body with the secret. -/
structure Accepted (system : MailSystem) (curl : Curl) (message : EmailMessage) : Prop where
  accepted : curl.easyInit = true ∧ (curl.easyPerform (sender.smtpSender.client.request
    sender.smtpSender.fromEmail [message.toEmail] (sender.mail system message))).1 = .ok
  reads : Rfc822.parse (sender.mail system message).payload =
    some (sender.smtpSender.fields system message.toEmail message.subject,
      writeBody message.body ++ Rfc822.crlf)

/-- The sender gives the message up: its result is an error of a permanent kind. -/
def GivesUp (system : MailSystem) (curl : Curl) (message : EmailMessage) : Prop :=
  (sender.smtpSender.sendPlaintext system curl message.toEmail message.subject
    message.body).Fatal

end SmtpEmailVerificationSender

/-! ### The results of a send -/

/-- A result that is not ok and not retryable is of a permanent kind. -/
def SmtpSendResult.Classified (result : SmtpSendResult) : Prop :=
  result.ok = false → result.retryable = false → result.kind.isPermanent = true

/-- Only `CURLE_OK` is a success. -/
theorem mapCurlError_ok {curl : Curl} {code : CurlCode} {errbuf : Str}
    (h : (mapCurlError curl code errbuf).ok = true) : code = .ok := by
  cases code <;> first | rfl | cases h

/-- Every code is classified. -/
theorem mapCurlError_classified (curl : Curl) (code : CurlCode) (errbuf : Str) :
    (mapCurlError curl code errbuf).Classified := by
  intro hok hretry
  cases code with
  | ok => cases hok
  | operationTimedOut | couldntConnect | couldntResolveHost | couldntResolveProxy | recvError
  | sendError | other => cases hretry
  | _ => rfl

section
variable {ε α : Type} {P : ε → Prop} {condition : Bool} {error : ε}

/-- A property of the errors of a check. -/
theorem forall_error_failIf (herror : P error) :
    ∀ x, failIf condition error = .error x → P x := by
  intro x hx
  cases condition with
  | true => exact Except.error.inj hx ▸ herror
  | false => cases hx

/-- A property of the errors of a sequence of checks. -/
theorem forall_error_failIf_bind {rest : Unit → Except ε α} (herror : P error)
    (hrest : ∀ x, rest () = .error x → P x) :
    ∀ x, failIf condition error >>= rest = .error x → P x := by
  intro x hx
  rcases failIf_bind_eq_error.mp hx with ⟨_, rfl⟩ | ⟨_, hx⟩
  · exact herror
  · exact hrest x hx

end

/-- What the client refuses by itself is refused for good. -/
theorem CurlSmtpClient.precheck_fatal (client : CurlSmtpClient) (rcptTo : List Str)
    (message : Rfc822Message) :
    ∀ result, client.precheck rcptTo message = .error result → result.Fatal := by
  unfold CurlSmtpClient.precheck
  iterate 5 refine forall_error_failIf_bind ⟨rfl, rfl⟩ ?_
  exact forall_error_failIf ⟨rfl, rfl⟩

/-- The same for the sender. -/
theorem SmtpEmailSender.precheck_fatal (sender : SmtpEmailSender) (toEmail subject : Str) :
    ∀ result, sender.precheck toEmail subject = .error result → result.Fatal := by
  unfold SmtpEmailSender.precheck
  refine forall_error_failIf_bind ⟨rfl, rfl⟩ ?_
  refine forall_error_failIf_bind ⟨rfl, rfl⟩ ?_
  exact forall_error_failIf ⟨rfl, rfl⟩

/-- What `Send` can return: a fatal result, a retryable one without a handle, or what libcurl
says about the request. -/
theorem CurlSmtpClient.send_cases (client : CurlSmtpClient) (curl : Curl) (mailFrom : Str)
    (rcptTo : List Str) (message : Rfc822Message) :
    (client.send curl mailFrom rcptTo message).Fatal ∨
      (client.send curl mailFrom rcptTo message).retryable = true ∧
        (client.send curl mailFrom rcptTo message).ok = false ∨
      curl.easyInit = true ∧ ∃ errbuf, client.send curl mailFrom rcptTo message =
        mapCurlError curl (curl.easyPerform (client.request mailFrom rcptTo message)).1
          errbuf := by
  unfold CurlSmtpClient.send
  split
  · rename_i result hcheck
    exact .inl (client.precheck_fatal rcptTo message result hcheck)
  · unfold CurlSmtpClient.transfer
    split
    · rename_i hinit
      exact .inr (.inr ⟨hinit, _, rfl⟩)
    · exact .inr (.inl ⟨rfl, rfl⟩)

section
variable {sender : SmtpEmailSender} {system : MailSystem} {curl : Curl}
  {toEmail subject body : Str}

/-- What `SendPlaintext` can return, likewise. -/
theorem SmtpEmailSender.sendPlaintext_cases (sender : SmtpEmailSender) (system : MailSystem)
    (curl : Curl) (toEmail subject body : Str) :
    (sender.sendPlaintext system curl toEmail subject body).Fatal ∨
      (sender.sendPlaintext system curl toEmail subject body).retryable = true ∧
        (sender.sendPlaintext system curl toEmail subject body).ok = false ∨
      sender.precheck toEmail subject = .ok () ∧ curl.easyInit = true ∧
        ∃ errbuf, sender.sendPlaintext system curl toEmail subject body =
          mapCurlError curl (curl.easyPerform (sender.client.request sender.fromEmail [toEmail]
            (sender.message system toEmail subject body))).1 errbuf := by
  unfold SmtpEmailSender.sendPlaintext
  cases hcheck : sender.precheck toEmail subject with
  | error result =>
    -- libcurl is not called
    exact .inl (sender.precheck_fatal toEmail subject result hcheck)
  | ok =>
    rcases sender.client.send_cases curl sender.fromEmail [toEmail]
      (sender.message system toEmail subject body) with hfatal | hagain | hcurl
    · exact .inl hfatal
    · exact .inr (.inl hagain)
    · exact .inr (.inr ⟨rfl, hcurl⟩)

/-- A send that is ok: libcurl has accepted the message, and the message reads as it was
written. -/
theorem SmtpEmailSender.accepted_of_ok (hdate : containsCrlf system.date = false)
    (h : (sender.sendPlaintext system curl toEmail subject body).ok = true) :
    (curl.easyInit = true ∧ (curl.easyPerform (sender.client.request sender.fromEmail [toEmail]
      (sender.message system toEmail subject body))).1 = .ok) ∧
    Rfc822.parse (sender.message system toEmail subject body).payload =
      some (sender.fields system toEmail subject, writeBody body ++ Rfc822.crlf) := by
  rcases sender.sendPlaintext_cases system curl toEmail subject body with
    hfatal | ⟨_, hfail⟩ | ⟨hcheck, hinit, _, heq⟩
  · rw [hfatal.1] at h
    cases h
  · rw [hfail] at h
    cases h
  · rw [heq] at h
    refine ⟨⟨hinit, mapCurlError_ok h⟩, ?_⟩
    rw [SmtpEmailSender.payload_eq]
    refine Rfc822.parse_render (by simp [SmtpEmailSender.fields]) (fun field hmem => ?_) _
    exact (SmtpEmailSender.fields_plain hdate hcheck field hmem).1

/-- Every result of a send is classified. -/
theorem SmtpEmailSender.sendPlaintext_classified :
    (sender.sendPlaintext system curl toEmail subject body).Classified := by
  rcases sender.sendPlaintext_cases system curl toEmail subject body with
    hfatal | ⟨hagain, _⟩ | ⟨_, _, _, heq⟩
  · intro _ _
    exact hfatal.2
  · intro _ hretry
    rw [hagain] at hretry
    cases hretry
  · rw [heq]
    exact mapCurlError_classified _ _ _

end

namespace SmtpEmailVerificationSender

variable {sender : SmtpEmailVerificationSender} {system : MailSystem} {curl : Curl}
  {message : EmailMessage}

/-- The two methods are one: the outcome of a message is that of its plain text. -/
theorem send_eq (sender : SmtpEmailVerificationSender) (system : MailSystem) (curl : Curl)
    (message : EmailMessage) :
    sender.send system curl message =
      deliveryError (sender.smtpSender.sendPlaintext system curl message.toEmail message.subject
        message.body) message.correlationId := by
  cases message <;> rfl

/-- A send that returns: the mail server has accepted the mail. -/
theorem accepted_of_send (hdate : containsCrlf system.date = false)
    (h : sender.send system curl message = none) : sender.Accepted system curl message := by
  rw [send_eq] at h
  unfold deliveryError at h
  split at h
  · rename_i hok
    obtain ⟨haccepted, hreads⟩ := SmtpEmailSender.accepted_of_ok hdate hok
    exact ⟨haccepted, hreads⟩
  · cases h

/-- A send that throws a permanent error. -/
theorem givesUp_of_send {what : Str} (h : sender.send system curl message = some (what, false)) :
    sender.GivesUp system curl message := by
  rw [send_eq] at h
  unfold deliveryError at h
  split at h
  · cases h
  · rename_i hok
    have hfalse := Bool.eq_false_iff.mpr hok
    have hretry := congrArg Prod.snd (Option.some.inj h)
    exact ⟨hfalse, SmtpEmailSender.sendPlaintext_classified hfalse hretry⟩

end SmtpEmailVerificationSender

/-! ### Runs with the SMTP sender -/

/-- What the sender finds at each step of a run: the clock and the random generator, and
libcurl. A formatted date is one line. -/
structure MailEnv where
  system : Nat → MailSystem
  curl : Nat → Curl
  date : ∀ n, containsCrlf (system n).date = false

/-- A send at the step `n` has the outcome of the SMTP sender at this step. -/
def sentBySmtp (sender : SmtpEmailVerificationSender) (env : MailEnv) (n : Nat) : Event → Bool
  | .sentEmail _ message _ error => error == sender.send (env.system n) (env.curl n) message
  | _ => true

/-- The runs in which the workers have the limit `M` and use the SMTP sender. -/
abbrev smtpRun (sender : SmtpEmailVerificationSender) (env : MailEnv) (M : Nat) : SysAdmission :=
  admission (fun r => outboxLimit M r = true) fun s _ e =>
    sentBySmtp sender env s.trace.length e = true

section
variable {app : App} {sender : SmtpEmailVerificationSender} {env : MailEnv} {M : Nat}
  {s : SysState}

/-- The step `n` of the run sends the mail of the job, with this outcome. -/
def SendsAt (s : SysState) (n : Nat) (jobId : Uuid) (message : EmailMessage)
    (error : Option (Str × Bool)) : Prop :=
  ∃ c now, s.trace[n]? = some (c, .sentEmail jobId message now error)

/-- A mail of the trace is sent at one of its steps. -/
theorem sendsAt_of_mem {c : Nat} {jobId : Uuid} {message : EmailMessage} {now : Time}
    {error : Option (Str × Bool)} (h : (c, .sentEmail jobId message now error) ∈ s.trace) :
    ∃ n, SendsAt s n jobId message error := by
  obtain ⟨n, hn⟩ := List.getElem?_of_mem h
  exact ⟨n, c, now, hn⟩

/-- Every send of a run has the outcome of the SMTP sender at its step. -/
theorem sentBySmtp_of_reachable (hs : Reachable app.run (smtpRun sender env M) Seed s) :
    ∀ n jobId message error, SendsAt s n jobId message error →
      error = sender.send (env.system n) (env.curl n) message := by
  have htrace : ∀ (n : Nat) c e, s.trace[n]? = some (c, e) → sentBySmtp sender env n e = true := by
    refine Reachable.invariant (A := smtpRun sender env M)
      (J := fun _ tr => ∀ (n : Nat) c e, tr[n]? = some (c, e) → sentBySmtp sender env n e = true)
      (app_refines app) (fun _ _ _ _ _ hmem => ?_) ?_ hs
    · simp at hmem
    · rintro s db c r e hJ _ ⟨_, hsmtp⟩ _ n c' e' hn
      rcases Nat.lt_or_ge n s.trace.length with hold | hnew
      · rw [List.getElem?_append_left hold] at hn
        exact hJ n c' e' hn
      · -- a step is numbered by the length of the trace before it
        rw [List.getElem?_append_right hnew, List.getElem?_singleton] at hn
        split at hn
        · cases hn
          obtain rfl : n = s.trace.length := by omega
          exact hsmtp
        · cases hn
  rintro n jobId message error ⟨c, now, hn⟩
  exact beq_iff_eq.mp (htrace n c _ hn)

/-- From the status of a row to libcurl. In every run with the SMTP sender, whatever libcurl
does, there is a message for each job that carries a secret of the service. If the job is marked
as sent, the mail server has accepted this mail at a step of the run that sends the job. If the
job was given up, it has used its attempts, or the sender had an error of a permanent kind at a
step that sends the job. -/
theorem status_of_libcurl (hports : app.ports.VerifiesSecrets)
    (hs : Reachable app.run (smtpRun sender env M) Seed s) :
    ∀ job ∈ s.store.emailOutbox, ∃ message, Carries app s.store message ∧
      (job.status = .sent → ∃ n, SendsAt s n job.id message none ∧
        sender.Accepted (env.system n) (env.curl n) message) ∧
      (job.status = .dead → job.attempts = M ∨ ∃ n what,
        SendsAt s n job.id message (some (what, false)) ∧
        sender.GivesUp (env.system n) (env.curl n) message) := by
  intro job hjob
  have hinv := mailAccount_of_reachable hports (fun _ hr => hr) hs
  have hsmtp := sentBySmtp_of_reachable hs
  obtain ⟨content, hledger⟩ := hinv.ledger
  have hfate := hinv.fates.fate job hjob
  refine ⟨content job.id, hledger.carried job hjob, ?_, ?_⟩
  · intro hstatus
    -- a send of this job returned without an error, and it sent the message of the job
    rw [hstatus] at hfate
    obtain ⟨c, message, now, hsent⟩ := hfate
    obtain ⟨n, hn⟩ := sendsAt_of_mem hsent
    have hsend := hsmtp n job.id message none hn
    rw [← (hledger.sent c job.id message now none hsent).2]
    exact ⟨n, hn, SmtpEmailVerificationSender.accepted_of_send (env.date n) hsend.symm⟩
  · intro hstatus
    rw [hstatus] at hfate
    rcases hfate with hlast | ⟨c, message, now, what, hsent⟩
    · -- no job has more than `M` attempts
      have hcount := hinv.outbox.counted job hjob
      have hlimit := hinv.fates.limit job hjob
      exact .inl (by omega)
    · obtain ⟨n, hn⟩ := sendsAt_of_mem hsent
      have hsend := hsmtp n job.id message (some (what, false)) hn
      rw [← (hledger.sent c job.id message now (some (what, false)) hsent).2]
      exact .inr ⟨n, what, hn, SmtpEmailVerificationSender.givesUp_of_send hsend.symm⟩

end

/-- libcurl that has a handle and returns one code. -/
def curlReturning (code : CurlCode) : Curl where
  easyInit := true
  easyPerform _ := (code, [])
  easyStrerror _ := "Could not connect to server"

/-- The mail server cannot be reached before the eighth step. -/
def serverDownFirst : MailEnv where
  system _ := SmtpEmailSender.unitMailSystem
  curl n := curlReturning (if n < 8 then .couldntConnect else .ok)
  date _ := by decide

/-- The sender of the concrete run. -/
def unitVerificationSender : SmtpEmailVerificationSender := ⟨SmtpEmailSender.unitSender⟩

/-- The first attempt finds no server, and the second one, a day later, delivers the mail. -/
def deliveredLater : List (Move Input Request) :=
  let message := .passwordReset ⟨"unit@example.com", "token", (⟨1⟩ : Uuid).text, "ru"⟩
  let deliveryError := unitVerificationSender.send (serverDownFirst.system 5)
    (serverDownFirst.curl 5) message
  enqueueReset 1 ⟨1⟩ ⟨2⟩ ++
  .start 2 ⟨hourSessions, .tick { maxAttempts := 2 }⟩ ::
    acts 2 [{}, { leaseId := fun _ => ⟨3⟩ }, { deliveryError }, {}, {}] ++
  .start 3 ⟨hourSessions, .tick { maxAttempts := 2 }⟩ ::
    acts 3 [{ now := seconds 86400 }, { leaseId := fun _ => ⟨4⟩ }, {}, {}, {}]

/-- The job of this run is marked as sent, and the mail server has accepted its mail. -/
theorem status_of_libcurl_deliveredLater :
    ∃ s : SysState,
      Reachable hmacApp.run (smtpRun unitVerificationSender serverDownFirst 2) Seed s ∧
      ∃ job ∈ s.store.emailOutbox, job.status = .sent ∧ sendCount s.trace job.id = 2 ∧
        ∃ message, Carries hmacApp s.store message ∧ ∃ n, SendsAt s n job.id message none ∧
          unitVerificationSender.Accepted (serverDownFirst.system n) (serverDownFirst.curl n)
            message := by
  obtain ⟨s, hs, job, hjob, hstatus, hcount⟩ := exists_run hmacApp
    (smtpRun unitVerificationSender serverDownFirst 2) deliveredLater
    (fun s => ∃ j ∈ s.store.emailOutbox, j.status = .sent ∧ sendCount s.trace j.id = 2)
    (by decide +kernel)
  obtain ⟨message, hcarries, hsent, _⟩ :=
    status_of_libcurl (Ports.verifiesSecrets_of_hmac rfl rfl) hs job hjob
  exact ⟨s, hs, job, hjob, hstatus, hcount, message, hcarries, hsent hstatus⟩

end SmirklyAuth
