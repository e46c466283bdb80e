import SmirklyAuth.Services.Errors

/-!
# `SmirklyAuth.Infra.Messaging.CurlSmtpClient`: the SMTP client over libcurl

`infra/messaging/smtp/curl_smtp_client.cpp`. `Send` checks the configuration and the payload, sets
the options of a handle, lets libcurl perform the transfer and maps its code.

* `Curl` is libcurl: whether `curl_easy_init` gives a handle, and for the options of a handle the
  code of `curl_easy_perform` with the contents of the error buffer.
* The options that are set to constants (`CURLOPT_SSL_VERIFYPEER`, `CURLOPT_SSL_VERIFYHOST`,
  `CURLOPT_UPLOAD`, `CURLOPT_TCP_KEEPALIVE`) are not part of `CurlRequest`. `ReadCallback` hands
  out the payload in pieces, in order and up to its size: `CurlRequest` has the payload.
-/

set_option autoImplicit false

namespace SmirklyAuth

/-- `TlsMode`. -/
inductive TlsMode where
  | none
  | startTls
  | tls
  deriving DecidableEq, Repr

/-- `SmtpConfig`. -/
structure SmtpConfig where
  host : Str
  port : UInt16 := 587
  tlsMode : TlsMode := .startTls
  username : Str
  appPassword : Str
  connectTimeoutMs : Int := 20000
  timeoutMs : Int := 30000

/-- `SmtpErrorKind`. -/
inductive SmtpErrorKind where
  | none | auth | network | timeout | tls | protocol | rateLimited | unknown
  deriving DecidableEq, Repr

/-- `SmtpSendResult`. -/
structure SmtpSendResult where
  ok : Bool
  retryable : Bool
  kind : SmtpErrorKind
  error : Str
  deriving DecidableEq, Repr

/-- `Rfc822Message`. -/
structure Rfc822Message where
  payload : Str

/-- `CURLcode`: the codes that `MapCurlError` names, and the others. -/
inductive CurlCode where
  | ok
  | loginDenied | remoteAccessDenied
  | operationTimedOut
  | couldntConnect | couldntResolveHost | couldntResolveProxy | recvError | sendError
  | sslConnectError | sslCacert | sslCacertBadfile | useSslFailed
  | weirdServerReply | unsupportedProtocol | badFunctionArgument
  | other (code : Nat)
  deriving DecidableEq, Repr

/-- The options of a handle. -/
structure CurlRequest where
  url : Str
  username : Str
  password : Str
  /-- `CURLUSESSL_ALL` and not `CURLUSESSL_NONE`. -/
  useSslAll : Bool
  connectTimeoutMs : Int
  timeoutMs : Int
  mailFrom : Str
  mailRcpt : List Str
  readData : Str

/-- libcurl. -/
structure Curl where
  /-- `curl_easy_init()` is not null. -/
  easyInit : Bool
  /-- `curl_easy_perform`: the code and the error buffer. -/
  easyPerform : CurlRequest → CurlCode × Str
  /-- `curl_easy_strerror`. -/
  easyStrerror : CurlCode → Str

/-- `MakeUrl`. -/
def makeUrl (cfg : SmtpConfig) : Str :=
  (if cfg.tlsMode = .tls then lit "smtps://" else lit "smtp://") ++ cfg.host ++ lit ":" ++
    lit (toString cfg.port.toNat)

/-- `EnsureAngleBrackets`. -/
def ensureAngleBrackets (s : Str) : Str :=
  if s.head? = some 60 ∧ s.getLast? = some 62 then s else lit "<" ++ s ++ lit ">"

/-- The test of `LooksLikeCrLfText` at one index: an LF at the beginning or after no CR. -/
def isLoneLf (s : Str) (i : Nat) : Bool :=
  s.getD i 0 == 10 && (i == 0 || s.getD (i - 1) 0 != 13)

/-- `LooksLikeCrLfText`. -/
def looksLikeCrLfText (s : Str) : Bool := (List.range s.length).all fun i => !isLoneLf s i

/-- `MapCurlError`. -/
def mapCurlError (curl : Curl) (code : CurlCode) (errbuf : Str) : SmtpSendResult :=
  let error := if (cStr errbuf).isEmpty then curl.easyStrerror code else cStr errbuf
  match code with
  | .ok => { ok := true, retryable := false, kind := .none, error := [] }
  | .loginDenied | .remoteAccessDenied =>
    { ok := false, retryable := false, kind := .auth, error }
  | .operationTimedOut => { ok := false, retryable := true, kind := .timeout, error }
  | .couldntConnect | .couldntResolveHost | .couldntResolveProxy | .recvError | .sendError =>
    { ok := false, retryable := true, kind := .network, error }
  | .sslConnectError | .sslCacert | .sslCacertBadfile | .useSslFailed =>
    { ok := false, retryable := code = .sslConnectError, kind := .tls, error }
  | .weirdServerReply | .unsupportedProtocol | .badFunctionArgument =>
    { ok := false, retryable := false, kind := .protocol, error }
  | .other _ => { ok := false, retryable := true, kind := .unknown, error }

/-- `CurlSmtpClient`. -/
structure CurlSmtpClient where
  cfg : SmtpConfig

namespace CurlSmtpClient

/-- The line-ending error of `Send`. -/
def lineEndingError : SmtpSendResult :=
  { ok := false, retryable := false, kind := .protocol,
    error := "RFC822 payload must use CRLF (\\r\\n) line endings" }

/-- The results that `Send` returns before it uses libcurl. -/
def precheck (client : CurlSmtpClient) (rcptTo : List Str) (message : Rfc822Message) :
    Except SmtpSendResult Unit := do
  failIf client.cfg.host.isEmpty ⟨false, false, .protocol, "SMTP host is empty"⟩
  failIf client.cfg.username.isEmpty ⟨false, false, .auth, "SMTP username is empty"⟩
  failIf client.cfg.appPassword.isEmpty ⟨false, false, .auth, "SMTP app_password is empty"⟩
  failIf rcptTo.isEmpty ⟨false, false, .protocol, "No recipients"⟩
  failIf message.payload.isEmpty ⟨false, false, .protocol, "RFC822 payload is empty"⟩
  failIf (!looksLikeCrLfText message.payload) lineEndingError

/-- The options that `Send` sets. -/
def request (client : CurlSmtpClient) (mailFrom : Str) (rcptTo : List Str)
    (message : Rfc822Message) : CurlRequest :=
  { url := cStr (makeUrl client.cfg)
    username := cStr client.cfg.username
    password := cStr client.cfg.appPassword
    useSslAll := client.cfg.tlsMode ≠ .none
    connectTimeoutMs := client.cfg.connectTimeoutMs
    timeoutMs := client.cfg.timeoutMs
    mailFrom := cStr (ensureAngleBrackets mailFrom)
    mailRcpt := rcptTo.map fun r => cStr (ensureAngleBrackets r)
    readData := message.payload }

/-- The part of `Send` that uses libcurl. -/
def transfer (client : CurlSmtpClient) (curl : Curl) (mailFrom : Str) (rcptTo : List Str)
    (message : Rfc822Message) : SmtpSendResult :=
  if curl.easyInit then
    let (code, errbuf) := curl.easyPerform (client.request mailFrom rcptTo message)
    mapCurlError curl code errbuf
  else ⟨false, true, .unknown, "curl_easy_init failed"⟩

/-- `Send`. -/
def send (client : CurlSmtpClient) (curl : Curl) (mailFrom : Str) (rcptTo : List Str)
    (message : Rfc822Message) : SmtpSendResult :=
  match client.precheck rcptTo message with
  | .error result => result
  | .ok () => client.transfer curl mailFrom rcptTo message

end CurlSmtpClient

end SmirklyAuth
