import SmirklyAuth.Infra.Messaging.SmtpEmailSender
import SmirklyAuth.Lib.Rfc822

/-!
# `SmirklyAuth.Proofs.OutgoingMail`: the mails that the sender hands to libcurl

The loop that writes the body and `LooksLikeCrLfText` test the same thing at every index, an LF
that no CR precedes (`isLoneLf_append`). So the loop normalises (`writeBody_eq`), the test accepts
what is normalised (`looksLikeCrLfText_eq`), and both are functions of `Lib.Rfc822`.

The payload is the rendering of eight fields (`payload_eq`), and no value has a CR or an LF
(`fields_plain`): the guards of `SendPlaintext` are on the parts from which the values are
made. The message then parses as it was rendered.
-/

set_option autoImplicit false

namespace SmirklyAuth

/-! ### The two loops over a text -/

/-- The test at an index sees the byte there and the one before. -/
theorem isLoneLf_append (before : Str) (c : UInt8) (rest : Str) :
    isLoneLf (before ++ c :: rest) before.length = Rfc822.bareLf before.getLast? c := by
  cases List.eq_nil_or_concat before with
  | inl h => simp [h, isLoneLf, Rfc822.bareLf]
  | inr h =>
    obtain ⟨before, previous, rfl⟩ := h
    simp [isLoneLf, Rfc822.bareLf, List.getD_eq_getElem?_getD, bne]

/-- The loop over the body puts a CR where the test fails. -/
theorem writeBodyAt_eq (body : Str) (i : Nat) :
    writeBodyAt body i =
      if isLoneLf body i then [Rfc822.cr, body.getD i 0] else [body.getD i 0] := by
  unfold writeBodyAt isLoneLf
  by_cases hlf : body.getD i 0 = 10
  · simp only [hlf, beq_self_eq_true, Bool.true_and, if_true]
    split <;> rfl
  · simp only [beq_false_of_ne hlf, Bool.false_and]
    rfl

/-- The loop over the body from an index on. -/
theorem flatMap_writeBodyAt (before rest : Str) :
    (List.range' before.length rest.length).flatMap (writeBodyAt (before ++ rest)) =
      Rfc822.normalizeAfter before.getLast? rest := by
  induction rest generalizing before with
  | nil => rfl
  | cons c rest ih =>
    have hget : (before ++ c :: rest).getD before.length 0 = c := by
      simp [List.getD_eq_getElem?_getD]
    have hrest := ih (before ++ [c])
    rw [List.append_assoc, List.singleton_append, List.length_append, List.getLast?_concat] at hrest
    rw [List.length_cons, List.range'_succ, List.flatMap_cons, writeBodyAt_eq, hget,
      isLoneLf_append, Rfc822.normalizeAfter]
    split
    · exact congrArg ([Rfc822.cr, c] ++ ·) hrest
    · exact congrArg ([c] ++ ·) hrest

/-- The loop over the body normalises its line endings. -/
theorem writeBody_eq (body : Str) : writeBody body = Rfc822.normalizeAfter none body := by
  have hloop := flatMap_writeBodyAt [] body
  rw [List.nil_append, List.length_nil, ← List.range_eq_range'] at hloop
  exact hloop

/-- The loop of `LooksLikeCrLfText` from an index on. -/
theorem all_not_isLoneLf (before rest : Str) :
    (List.range' before.length rest.length).all (fun i => !isLoneLf (before ++ rest) i) =
      Rfc822.crlfTextAfter before.getLast? rest := by
  induction rest generalizing before with
  | nil => rfl
  | cons c rest ih =>
    have hrest := ih (before ++ [c])
    rw [List.append_assoc, List.singleton_append, List.length_append, List.getLast?_concat] at hrest
    rw [List.length_cons, List.range'_succ, List.all_cons, isLoneLf_append, Rfc822.crlfTextAfter]
    exact congrArg (!Rfc822.bareLf before.getLast? c && ·) hrest

/-- The check of the client is that of the library. -/
theorem looksLikeCrLfText_eq (s : Str) : looksLikeCrLfText s = Rfc822.crlfTextAfter none s := by
  have hloop := all_not_isLoneLf [] s
  rw [List.nil_append, List.length_nil, ← List.range_eq_range'] at hloop
  exact hloop

/-! ### The header -/

/-- A text has a line break if one of its parts has one. -/
@[simp] theorem containsCrlf_append (s t : Str) :
    containsCrlf (s ++ t) = (containsCrlf s || containsCrlf t) := by
  simp only [containsCrlf, List.contains_append]
  cases s.contains 13 <;> cases s.contains 10 <;> simp

/-- A text without either character of a line break. -/
theorem containsCrlf_eq_false {s : Str} :
    containsCrlf s = false ↔ Rfc822.cr ∉ s ∧ Rfc822.lf ∉ s := by
  simp [containsCrlf]

/-- No CR and no LF comes from a part of a text without them. -/
theorem containsCrlf_of_sublist {s t : Str} (h : s.Sublist t) (ht : containsCrlf t = false) :
    containsCrlf s = false := by
  rw [containsCrlf_eq_false] at ht ⊢
  exact ⟨fun hmem => ht.1 (h.subset hmem), fun hmem => ht.2 (h.subset hmem)⟩

/-- The domain of an address without a line break. -/
theorem containsCrlf_extractDomain {email : Str} (h : containsCrlf email = false) :
    containsCrlf (extractDomain email) = false := by
  simp only [extractDomain]
  have hdomain : ((email.dropWhile (· ≠ 64)).drop 1).Sublist email :=
    (List.drop_sublist 1 _).trans (List.dropWhile_sublist _)
  split
  · decide
  · exact containsCrlf_of_sublist hdomain h

/-- Hexadecimal digits are no line break. -/
theorem containsCrlf_randomHex (values : List UInt8) : containsCrlf (randomHex values) = false := by
  induction values with
  | nil => rfl
  | cons v values ih =>
    have hdigit : ∀ n < 16, containsCrlf [hexDigit n] = false := by decide
    have hhigh := hdigit (v.toNat / 16) (by have := v.toNat_lt; omega)
    have hlow := hdigit (v.toNat % 16) (Nat.mod_lt _ (by decide))
    show containsCrlf ([hexDigit (v.toNat / 16)] ++ ([hexDigit (v.toNat % 16)] ++ randomHex values))
      = false
    rw [containsCrlf_append, containsCrlf_append, hhigh, hlow, ih]
    rfl

/-- The message id of an address without a line break. -/
theorem containsCrlf_makeMessageId (system : MailSystem) {email : Str}
    (h : containsCrlf email = false) : containsCrlf (makeMessageId system email) = false := by
  have hlit : containsCrlf (lit "<") = false ∧ containsCrlf (lit ".") = false ∧
      containsCrlf (lit "@") = false ∧ containsCrlf (lit ">") = false := by decide
  simp [makeMessageId, hlit, containsCrlf_randomHex, containsCrlf_extractDomain h]

/-- The mailbox of an address and a name without a line break. -/
theorem containsCrlf_formatMailbox {email displayName : Str} (h : containsCrlf email = false)
    (hname : containsCrlf displayName = false) :
    containsCrlf (formatMailbox email displayName) = false := by
  have hlit : containsCrlf (lit " <") = false ∧ containsCrlf (lit ">") = false := by decide
  unfold formatMailbox
  split
  · exact h
  · split
    · simp [h, hname, hlit]
    · exact h

namespace SmtpEmailSender

/-- The header of a message. -/
def fields (sender : SmtpEmailSender) (system : MailSystem) (toEmail subject : Str) :
    List (Str × Str) :=
  [(lit "From", formatMailbox sender.fromEmail sender.fromName),
   (lit "To", toEmail),
   (lit "Subject", subject),
   (lit "Date", system.date),
   (lit "Message-ID", makeMessageId system sender.fromEmail),
   (lit "MIME-Version", lit "1.0"),
   (lit "Content-Type", lit "text/plain; charset=UTF-8"),
   (lit "Content-Transfer-Encoding", lit "8bit")]

variable {sender : SmtpEmailSender} {system : MailSystem} {toEmail subject : Str}

/-- What is built is the rendering of the fields and of the body with its last line end. -/
theorem payload_eq (body : Str) :
    (sender.message system toEmail subject body).payload =
      Rfc822.render (sender.fields system toEmail subject) (writeBody body ++ Rfc822.crlf) := by
  have hcrlf : lit "\r\n" = Rfc822.crlf := rfl
  have hfrom : lit "From: " = lit "From" ++ Rfc822.colon := rfl
  have hto : lit "To: " = lit "To" ++ Rfc822.colon := rfl
  have hsubject : lit "Subject: " = lit "Subject" ++ Rfc822.colon := rfl
  have hdate : lit "Date: " = lit "Date" ++ Rfc822.colon := rfl
  have hid : lit "Message-ID: " = lit "Message-ID" ++ Rfc822.colon := rfl
  have hversion : lit "MIME-Version: 1.0\r\n" =
    Rfc822.Field.line (lit "MIME-Version", lit "1.0") ++ Rfc822.crlf := rfl
  have htype : lit "Content-Type: text/plain; charset=UTF-8\r\n" =
    Rfc822.Field.line (lit "Content-Type", lit "text/plain; charset=UTF-8") ++ Rfc822.crlf := rfl
  have hencoding : lit "Content-Transfer-Encoding: 8bit\r\n" =
    Rfc822.Field.line (lit "Content-Transfer-Encoding", lit "8bit") ++ Rfc822.crlf := rfl
  unfold message buildPlaintextRfc822
  rw [hcrlf, hfrom, hto, hsubject, hdate, hid, hversion, htype, hencoding]
  simp [Rfc822.render, fields, Rfc822.Field.line]

/-- What the sender checks before it composes a message. -/
theorem precheck_eq_ok :
    sender.precheck toEmail subject = .ok () ↔
      sender.fromEmail ≠ [] ∧ toEmail ≠ [] ∧ containsCrlf sender.fromEmail = false ∧
        containsCrlf toEmail = false ∧ containsCrlf subject = false ∧
        containsCrlf sender.fromName = false := by
  simp [precheck, failIf_bind_eq_ok, failIf_eq_ok, and_assoc]

/-- A field without CR and LF is plain when its name is. -/
theorem line_of_containsCrlf {name value : Str} (hname : 58 ∉ name ∧ containsCrlf name = false)
    (hvalue : containsCrlf value = false) :
    Rfc822.Field.Plain (name, value) ∧ Rfc822.lf ∉ Rfc822.Field.line (name, value) := by
  have hcolon : containsCrlf Rfc822.colon = false := by decide
  have hline : containsCrlf (Rfc822.Field.line (name, value)) = false := by
    simp [Rfc822.Field.line, hname.2, hvalue, hcolon]
  rw [containsCrlf_eq_false] at hline
  exact ⟨⟨hname.1, hline.1⟩, hline.2⟩

/-- The guards of `SendPlaintext` are enough for every value of the header. -/
theorem fields_plain (hdate : containsCrlf system.date = false)
    (hok : sender.precheck toEmail subject = .ok ()) :
    ∀ field ∈ sender.fields system toEmail subject,
      Rfc822.Field.Plain field ∧ Rfc822.lf ∉ Rfc822.Field.line field := by
  obtain ⟨_, _, hfrom, hto, hsubject, hname⟩ := precheck_eq_ok.mp hok
  unfold fields
  simp only [List.forall_mem_cons]
  exact ⟨line_of_containsCrlf (by decide) (containsCrlf_formatMailbox hfrom hname),
    line_of_containsCrlf (by decide) hto,
    line_of_containsCrlf (by decide) hsubject,
    line_of_containsCrlf (by decide) hdate,
    line_of_containsCrlf (by decide) (containsCrlf_makeMessageId system hfrom),
    line_of_containsCrlf (by decide) (by decide),
    line_of_containsCrlf (by decide) (by decide),
    line_of_containsCrlf (by decide) (by decide),
    List.forall_mem_nil _⟩

/-- A message that is built has CR LF line endings. -/
theorem looksLikeCrLfText_payload (hdate : containsCrlf system.date = false)
    (hok : sender.precheck toEmail subject = .ok ()) (body : Str) :
    looksLikeCrLfText (sender.message system toEmail subject body).payload = true := by
  have hbody : Rfc822.crlfTextAfter none (writeBody body ++ Rfc822.crlf) = true := by
    rw [writeBody_eq]
    exact Rfc822.crlfTextAfter_append_crlf (Rfc822.crlfTextAfter_normalizeAfter none body)
  rw [looksLikeCrLfText_eq, payload_eq]
  exact Rfc822.crlfText_render (fun field hmem => (fields_plain hdate hok field hmem).2) hbody

end SmtpEmailSender

/-! ### What `Send` returns -/

/-- A text that libcurl itself reports. -/
def Curl.Reports (curl : Curl) (text : Str) : Prop :=
  (∃ request, cStr (curl.easyPerform request).2 = text) ∨ ∃ code, curl.easyStrerror code = text

/-- A failed transfer has the text of libcurl. -/
theorem mapCurlError_error (curl : Curl) (code : CurlCode) (errbuf : Str) :
    (mapCurlError curl code errbuf).ok = true ∨
      (mapCurlError curl code errbuf).error = cStr errbuf ∨
      (mapCurlError curl code errbuf).error = curl.easyStrerror code := by
  by_cases hbuffer : (cStr errbuf).isEmpty = true
  · cases code <;> simp [mapCurlError, hbuffer]
  · cases code <;> simp [mapCurlError, hbuffer]

namespace CurlSmtpClient

variable {client : CurlSmtpClient} {curl : Curl} {rcptTo : List Str} {message : Rfc822Message}

/-- The line-ending error is the only one with its text. -/
theorem precheck_ne_lineEndingError (h : looksLikeCrLfText message.payload = true) :
    client.precheck rcptTo message ≠ .error lineEndingError := by
  intro hcheck
  have htexts :
      (⟨false, false, .protocol, "SMTP host is empty"⟩ : SmtpSendResult) ≠ lineEndingError ∧
      (⟨false, false, .auth, "SMTP username is empty"⟩ : SmtpSendResult) ≠ lineEndingError ∧
      (⟨false, false, .auth, "SMTP app_password is empty"⟩ : SmtpSendResult) ≠ lineEndingError ∧
      (⟨false, false, .protocol, "No recipients"⟩ : SmtpSendResult) ≠ lineEndingError ∧
      (⟨false, false, .protocol, "RFC822 payload is empty"⟩ : SmtpSendResult)
        ≠ lineEndingError := by
    decide
  simp [precheck, failIf_bind_eq_error, h, htexts] at hcheck

/-- libcurl does not return the error of the check. -/
theorem transfer_ne_lineEndingError (h : ¬ curl.Reports lineEndingError.error) (mailFrom : Str) :
    client.transfer curl mailFrom rcptTo message ≠ lineEndingError := by
  intro htransfer
  unfold transfer at htransfer
  split at htransfer
  · have herror := mapCurlError_error curl
      (curl.easyPerform (client.request mailFrom rcptTo message)).1
      (curl.easyPerform (client.request mailFrom rcptTo message)).2
    simp only at htransfer
    rw [htransfer] at herror
    rcases herror with hsuccess | hbuffer | hcode
    · cases hsuccess
    · exact h (.inl ⟨_, hbuffer.symm⟩)
    · exact h (.inr ⟨_, hcode.symm⟩)
  · have hkind := congrArg SmtpSendResult.kind htransfer
    cases hkind

/-- A message that passes the check is not refused by it. -/
theorem send_ne_lineEndingError (hpayload : looksLikeCrLfText message.payload = true)
    (hcurl : ¬ curl.Reports lineEndingError.error) (mailFrom : Str) :
    client.send curl mailFrom rcptTo message ≠ lineEndingError := by
  intro hsend
  unfold send at hsend
  split at hsend
  · rename_i result hcheck
    exact precheck_ne_lineEndingError hpayload (hsend ▸ hcheck)
  · exact transfer_ne_lineEndingError hcurl mailFrom hsend

end CurlSmtpClient

namespace SmtpEmailSender

/-- A message that `SendPlaintext` builds reads as the eight fields of the header, in this order,
and the normalised body. The client does not reject it for its line endings: no text of its own
says so, and only libcurl could. -/
theorem outgoingMail_wellFormed (sender : SmtpEmailSender) (system : MailSystem)
    (toEmail subject body : Str) (hdate : containsCrlf system.date = false)
    (hok : sender.precheck toEmail subject = .ok ()) :
    Rfc822.parse (sender.message system toEmail subject body).payload =
        some
          ([(lit "From", formatMailbox sender.fromEmail sender.fromName),
            (lit "To", toEmail),
            (lit "Subject", subject),
            (lit "Date", system.date),
            (lit "Message-ID", makeMessageId system sender.fromEmail),
            (lit "MIME-Version", lit "1.0"),
            (lit "Content-Type", lit "text/plain; charset=UTF-8"),
            (lit "Content-Transfer-Encoding", lit "8bit")],
          Rfc822.normalizeAfter none body ++ Rfc822.crlf) ∧
      (∀ field ∈ sender.fields system toEmail subject,
        containsCrlf (Rfc822.Field.line field) = false) ∧
      writeBody (writeBody body) = writeBody body ∧
      looksLikeCrLfText (sender.message system toEmail subject body).payload = true ∧
      sender.client.precheck [toEmail] (sender.message system toEmail subject body)
        ≠ .error CurlSmtpClient.lineEndingError ∧
      ∀ curl : Curl, ¬ curl.Reports CurlSmtpClient.lineEndingError.error →
        sender.sendPlaintext system curl toEmail subject body
          ≠ CurlSmtpClient.lineEndingError := by
  have hfields := fields_plain hdate hok
  have hcrlf := looksLikeCrLfText_payload hdate hok body
  refine ⟨?_, ?_, ?_, hcrlf, CurlSmtpClient.precheck_ne_lineEndingError hcrlf, ?_⟩
  · rw [payload_eq, writeBody_eq]
    exact Rfc822.parse_render (by simp [fields]) (fun field hmem => (hfields field hmem).1) _
  · intro field hmem
    exact containsCrlf_eq_false.mpr ⟨(hfields field hmem).1.cr_not_mem, (hfields field hmem).2⟩
  · rw [writeBody_eq body, writeBody_eq, Rfc822.normalizeAfter_idem]
  · intro curl hcurl
    unfold sendPlaintext
    rw [hok]
    exact CurlSmtpClient.send_ne_lineEndingError hcrlf hcurl _

/-- A sender that is configured. -/
def unitSender : SmtpEmailSender where
  client := ⟨{ host := "smtp.example.com", username := "smirkly", appPassword := "secret" }⟩
  fromEmail := "no-reply@example.com"
  fromName := "Smirkly"

/-- A time and the values of a generator. -/
def unitMailSystem : MailSystem where
  date := "Thu, 01 Jan 2026 00:00:00 +0000"
  draw16 := Vector.replicate 16 0
  draw8 := Vector.replicate 8 255

/-- A body with both kinds of line endings and a lone CR. -/
theorem outgoingMail_wellFormed_mixed :
    unitSender.precheck "unit_user@example.com" "Hello" = .ok () ∧
      (Rfc822.parse (unitSender.message unitMailSystem "unit_user@example.com" "Hello"
        "\none\r\ntwo\rthree\n").payload).map Prod.snd =
          some (lit "\r\none\r\ntwo\rthree\r\n\r\n") := by
  refine ⟨by decide, ?_⟩
  rw [(outgoingMail_wellFormed unitSender unitMailSystem "unit_user@example.com" "Hello"
    "\none\r\ntwo\rthree\n" (by decide) (by decide)).1]
  decide

end SmtpEmailSender

end SmirklyAuth
