import SmirklyAuth.Infra.Messaging.CurlSmtpClient
import SmirklyAuth.Services.Validation

/-!
# `SmirklyAuth.Infra.Messaging.SmtpEmailSender`: the messages of the service

`infra/messaging/smtp/smtp_email_sender.cpp`. `SendPlaintext` checks the fields of the header,
builds the message and hands it to the client.

* `MailSystem` holds what a message takes from the system: the time that
  `NowRfc2822DateUtc` formats, as text, and the values that the two calls of `RandomHex` draw.
* `std::isalnum` is that of the `C` locale.
-/

set_option autoImplicit false

namespace SmirklyAuth

/-- What `BuildPlaintextRfc822` takes from the system. -/
structure MailSystem where
  /-- `NowRfc2822DateUtc()`. -/
  date : Str
  /-- The values that `RandomHex(16)` draws. -/
  draw16 : Vector UInt8 16
  /-- The values that `RandomHex(8)` draws. -/
  draw8 : Vector UInt8 8

/-- `ContainsCrlf`. CR is 13, LF is 10. -/
def containsCrlf (s : Str) : Bool := s.contains 13 || s.contains 10

/-- `ExtractDomain`: what follows the first `@`, which is 64. -/
def extractDomain (email : Str) : Str :=
  let domain := (email.dropWhile (· ≠ 64)).drop 1
  if domain.isEmpty then "localhost" else domain

/-- `RandomHex`, for the values that are drawn. -/
def randomHex (values : List UInt8) : Str :=
  values.flatMap fun v => [hexDigit (v.toNat / 16), hexDigit (v.toNat % 16)]

/-- `MakeMessageId`. -/
def makeMessageId (system : MailSystem) (fromEmail : Str) : Str :=
  lit "<" ++ randomHex system.draw16.toList ++ lit "." ++ randomHex system.draw8.toList ++
    lit "@" ++ extractDomain fromEmail ++ lit ">"

/-- The characters of a display name: letters, digits, space, `_`, `.` and `-`. -/
def isDisplayChar (c : UInt8) : Bool :=
  isLowerAscii c || isUpperAscii c || isDigitAscii c || c == 32 || c == 95 || c == 46 || c == 45

/-- `FormatMailbox`. -/
def formatMailbox (email displayName : Str) : Str :=
  if displayName.isEmpty then email
  else if displayName.all isDisplayChar then displayName ++ lit " <" ++ email ++ lit ">"
  else email

/-- What the loop of `BuildPlaintextRfc822` writes at one index of the body. -/
def writeBodyAt (body : Str) (i : Nat) : Str :=
  let c := body.getD i 0
  if c == 10 then
    (if i == 0 || body.getD (i - 1) 0 != 13 then lit "\r" else []) ++ lit "\n"
  else [c]

/-- The loop of `BuildPlaintextRfc822` over the body. -/
def writeBody (body : Str) : Str := (List.range body.length).flatMap (writeBodyAt body)

/-- `BuildPlaintextRfc822`. -/
def buildPlaintextRfc822 (system : MailSystem) (fromEmail fromName toEmail subject body : Str) :
    Rfc822Message where
  payload :=
    lit "From: " ++ formatMailbox fromEmail fromName ++ lit "\r\n" ++
    lit "To: " ++ toEmail ++ lit "\r\n" ++
    lit "Subject: " ++ subject ++ lit "\r\n" ++
    lit "Date: " ++ system.date ++ lit "\r\n" ++
    lit "Message-ID: " ++ makeMessageId system fromEmail ++ lit "\r\n" ++
    lit "MIME-Version: 1.0\r\n" ++
    lit "Content-Type: text/plain; charset=UTF-8\r\n" ++
    lit "Content-Transfer-Encoding: 8bit\r\n" ++
    lit "\r\n" ++
    writeBody body ++
    lit "\r\n"

/-- `SmtpEmailSender`. -/
structure SmtpEmailSender where
  client : CurlSmtpClient
  fromEmail : Str
  fromName : Str := []

namespace SmtpEmailSender

/-- The results that `SendPlaintext` returns before it builds a message. -/
def precheck (sender : SmtpEmailSender) (toEmail subject : Str) : Except SmtpSendResult Unit := do
  failIf sender.fromEmail.isEmpty ⟨false, false, .protocol, "From email is empty"⟩
  failIf toEmail.isEmpty ⟨false, false, .protocol, "To email is empty"⟩
  failIf (containsCrlf sender.fromEmail || containsCrlf toEmail || containsCrlf subject ||
      containsCrlf sender.fromName)
    ⟨false, false, .protocol, "CRLF in headers is not allowed"⟩

/-- The message that `SendPlaintext` builds. -/
def message (sender : SmtpEmailSender) (system : MailSystem) (toEmail subject body : Str) :
    Rfc822Message :=
  buildPlaintextRfc822 system sender.fromEmail sender.fromName toEmail subject body

/-- `SendPlaintext`. -/
def sendPlaintext (sender : SmtpEmailSender) (system : MailSystem) (curl : Curl)
    (toEmail subject body : Str) : SmtpSendResult :=
  match sender.precheck toEmail subject with
  | .error result => result
  | .ok () =>
    sender.client.send curl sender.fromEmail [toEmail]
      (sender.message system toEmail subject body)

/-- The body of a mail with a secret. -/
def secretBody (introduction secret : Str) : Str :=
  introduction ++ secret ++ lit "\r\n\r\nIf you didn't request it, ignore this message.\r\n"

/-- `SendVerificationCode`. -/
def sendVerificationCode (sender : SmtpEmailSender) (system : MailSystem) (curl : Curl)
    (toEmail code : Str) : SmtpSendResult :=
  sender.sendPlaintext system curl toEmail "Smirkly verification code"
    (secretBody "Your verification code: " code)

/-- `SendPasswordResetToken`. -/
def sendPasswordResetToken (sender : SmtpEmailSender) (system : MailSystem) (curl : Curl)
    (toEmail token : Str) : SmtpSendResult :=
  sender.sendPlaintext system curl toEmail "Smirkly password reset"
    (secretBody "Your password reset token: " token)

end SmtpEmailSender

end SmirklyAuth
