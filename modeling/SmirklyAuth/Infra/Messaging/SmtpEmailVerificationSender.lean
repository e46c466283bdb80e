import SmirklyAuth.Infra.Messaging.SmtpEmailSender

/-!
# `SmirklyAuth.Infra.Messaging.SmtpEmailVerificationSender`: the sender of the outbox

`infra/providers/email/smtp_email_verification_sender.cpp`. The two methods pass a message to the
SMTP sender and throw an `EmailDeliveryError` when its result is not ok.

* The exception is a value: `none` when the method returns, else the text and the flag.
* `LogEmailVerificationSender` calls the wrapped sender and rethrows its exception, so it has
  the same outcome.
-/

set_option autoImplicit false

namespace SmirklyAuth

/-- `static_cast<int>` of a `SmtpErrorKind`. -/
def SmtpErrorKind.toInt : SmtpErrorKind → Nat
  | .none => 0
  | .auth => 1
  | .network => 2
  | .timeout => 3
  | .tls => 4
  | .protocol => 5
  | .rateLimited => 6
  | .unknown => 7

/-- `SmtpEmailVerificationSender`. -/
structure SmtpEmailVerificationSender where
  smtpSender : SmtpEmailSender

namespace SmtpEmailVerificationSender

/-- The `EmailDeliveryError` that the methods throw for a result. -/
def deliveryError (result : SmtpSendResult) (correlationId : Str) : Option (Str × Bool) :=
  if result.ok then none
  else
    some (lit "SMTP send failed" ++ lit " kind=" ++ lit (toString result.kind.toInt) ++
      lit " retryable=" ++ (if result.retryable then lit "1" else lit "0") ++
      lit " error=" ++ result.error ++ lit " correlation_id=" ++ correlationId, result.retryable)

variable (sender : SmtpEmailVerificationSender) (system : MailSystem) (curl : Curl)

/-- `SendVerificationEmail`. -/
def sendVerificationEmail (msg : VerificationEmail) : Option (Str × Bool) :=
  deliveryError (sender.smtpSender.sendVerificationCode system curl msg.toEmail msg.code)
    msg.correlationId

/-- `SendPasswordResetEmail`. -/
def sendPasswordResetEmail (msg : PasswordResetEmail) : Option (Str × Bool) :=
  deliveryError (sender.smtpSender.sendPasswordResetToken system curl msg.toEmail msg.token)
    msg.correlationId

/-- The method that `Tick` calls for a message. -/
def send : EmailMessage → Option (Str × Bool)
  | .verification msg => sender.sendVerificationEmail system curl msg
  | .passwordReset msg => sender.sendPasswordResetEmail system curl msg

end SmtpEmailVerificationSender

end SmirklyAuth
