import SmirklyAuth.Infra.Repositories

/-!
# `SmirklyAuth.Services.Factories`: the factories of `services/factories`

The session factories read the clock, which is their argument `now` here.
-/

set_option autoImplicit false

namespace SmirklyAuth

/-- `UserFactory::CreateFromSignUp`. -/
def UserFactory.createFromSignUp (username passwordHash : Str) (email phone : Option Str) :
    NewUserData where
  username := username
  passwordHash := passwordHash
  email := email
  phone := phone

/-- `DeviceFactory::WebDevice`. -/
def DeviceFactory.webDevice (userId : Uuid) : NewDeviceData where
  userId := userId
  deviceType := .web
  deviceName := none
  osVersion := none
  appVersion := none
  fingerprint := none

namespace SessionFactory

/-- `CreateForSignIn`. -/
def createForSignIn (now : Time) (sessionId userId deviceId : Uuid) (refreshTokenHash : Str)
    (tokenFamilyId : Uuid) (reqMeta : RequestMeta) (ttl : Seconds) : NewSessionData where
  id := sessionId
  userId := userId
  deviceId := some deviceId
  refreshTokenHash := refreshTokenHash
  ip := reqMeta.ip
  userAgent := reqMeta.userAgent
  expiresAt := now.plus ttl
  tokenFamilyId := tokenFamilyId
  replacedBySessionId := none

/-- `CreateForRefreshRotation`: the address and the user agent of the previous session are
kept when the request has none. -/
def createForRefreshRotation (now : Time) (sessionId : Uuid) (previous : Session)
    (refreshTokenHash : Str) (reqMeta : RequestMeta) (ttl : Seconds) : NewSessionData where
  id := sessionId
  userId := previous.userId
  deviceId := previous.deviceId
  refreshTokenHash := refreshTokenHash
  ip := reqMeta.ip.or previous.ip
  userAgent := reqMeta.userAgent.or previous.userAgent
  expiresAt := now.plus ttl
  tokenFamilyId := previous.tokenFamilyId
  replacedBySessionId := none

end SessionFactory

/-- `EmailVerificationFactory::Create`. -/
def EmailVerificationFactory.create (userId : Uuid) (codeHash : Str) (reqMeta : RequestMeta)
    (now : Time) (ttl : Seconds) : NewOneTimeCodeData where
  userId := userId
  secretHash := codeHash
  expiresAt := now.plus ttl
  ip := reqMeta.ip
  userAgent := reqMeta.userAgent

namespace EmailOutboxFactory

/-- `VerificationEmail`. -/
def verificationEmail (toEmail code correlationId locale : Str) : EnqueueEmail where
  toEmail := toEmail
  templateName := "verification_code"
  payload := [("code", code), ("locale", locale)]
  correlationId := correlationId

/-- `PasswordResetEmail`. -/
def passwordResetEmail (toEmail token correlationId locale : Str) : EnqueueEmail where
  toEmail := toEmail
  templateName := "password_reset"
  payload := [("token", token), ("locale", locale)]
  correlationId := correlationId

end EmailOutboxFactory

end SmirklyAuth
