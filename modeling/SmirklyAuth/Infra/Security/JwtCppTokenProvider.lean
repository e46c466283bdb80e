import Mathlib.Data.List.DropRight
import SmirklyAuth.Services.Contracts
import SmirklyAuth.Services.Errors

/-!
# `SmirklyAuth.Infra.Security.JwtCppTokenProvider`: signed tokens

`JwtCppTokenProvider` of `infra/security/jwt`. OpenSSL, the JWT library and the UUID parser of
Boost are parameters.

* `OpenSsl.encodeBlock` is `EVP_EncodeBlock`: its return value and the text it wrote, for the
  bytes behind its pointer and the `int` that says how many of them it is to encode.
* `JwtLibrary` signs a header and claims, and verifies a token with a public key. What it
  returns for a token that was signed is the header and the claims that were signed. The
  parameters `issuer` and `aud` of `jwt::decode` ask for two checks that the parsers make
  themselves, and are left out.
* An identifier is passed to `GenerateTokens` as a text in any spelling. What the parsers return
  is the UUID, which stands for its canonical text.
-/

set_option autoImplicit false

namespace SmirklyAuth

/-- What the provider calls of OpenSSL. -/
structure OpenSsl where
  encodeBlock : Str → Int → Int × Str
  /-- The big-endian bytes of the modulus and of the exponent of a PEM public key, or the text
  of the exception of `ExtractRsaPublicNumbers`. -/
  rsaPublicNumbers : Str → Except Str (Str × Str)

/-- The body of the loop of `Base64UrlEncode`: `+` is 43, `/` is 47, `-` is 45, `_` is 95. -/
def toUrlSafe (c : UInt8) : UInt8 := if c == 43 then 45 else if c == 47 then 95 else c

/-- `Base64UrlEncode`: `=` is 61. -/
def base64UrlEncode (ssl : OpenSsl) (bytes : Str) : Except Str Str :=
  if bytes.isEmpty then .ok []
  else
    let encodedSize := 4 * ((bytes.length + 2) / 3)
    let (written, text) := ssl.encodeBlock bytes (toInt32 bytes.length)
    if written < 0 then .error "failed to base64-encode RSA public key"
    else
      -- the buffer has the size `encodedSize` before the call and `written` after `resize`
      let buffer := text ++ List.replicate (encodedSize - text.length) 0
      let encoded := (buffer ++ List.replicate written.toNat 0).take written.toNat
      .ok ((encoded.map toUrlSafe).rdropWhile (· == 61))

/-- `ToBytes`, applied to the bytes of a `BIGNUM`. -/
def toBytes (bytes : Str) : Except Str Str :=
  if bytes.isEmpty then .error "invalid RSA public key integer" else .ok bytes

/-- `JwtConfig`. -/
structure JwtConfig where
  privateKeyPem : Str
  publicKeyPem : Str
  keyId : Str
  issuer : Str
  audience : Str
  accessTtl : Seconds
  refreshTtl : Seconds
  deriving DecidableEq

/-- `kAlgorithm`. -/
def kAlgorithm : Str := "RS256"

/-- `kAccessTokenType`. -/
def kAccessTokenType : Str := "access"

/-- `kRefreshTokenType`. -/
def kRefreshTokenType : Str := "refresh"

/-- `BuildPublicJwksJson`: the members of the only key. -/
def buildPublicJwks (ssl : OpenSsl) (config : JwtConfig) : Except Str (List (Str × Str)) := do
  let numbers ← ssl.rsaPublicNumbers config.publicKeyPem
  let modulus ← base64UrlEncode ssl (← toBytes numbers.1)
  let exponent ← base64UrlEncode ssl (← toBytes numbers.2)
  return [("kty", "RSA"), ("use", "sig"), ("kid", config.keyId), ("alg", kAlgorithm),
    ("n", modulus), ("e", exponent)]

/-- `ValidateConfig`. -/
def validateConfig (config : JwtConfig) : Except Str Unit :=
  if config.privateKeyPem.isEmpty then
    .error "jwt.private-key-path points to an empty private key"
  else if config.publicKeyPem.isEmpty then
    .error "jwt.public-key-path points to an empty public key"
  else if config.keyId.isEmpty then .error "jwt.key-id must not be empty"
  else if config.issuer.isEmpty then .error "jwt.issuer must not be empty"
  else if config.audience.isEmpty then .error "jwt.audience must not be empty"
  else if config.accessTtl ≤ 0 then .error "jwt.access-token-ttl-seconds must be positive"
  else if config.refreshTtl ≤ 0 then .error "jwt.refresh-token-ttl-seconds must be positive"
  else .ok ()

/-- A JSON value of a header or of a payload. -/
inductive JsonValue where
  | string (value : Str)
  | number (value : Int)
  deriving DecidableEq

/-- The members of a JSON object, in the order in which they were added. -/
abbrev JsonMembers := List (Str × JsonValue)

/-- `jwt::jwt_object`. -/
structure JwtObject where
  header : JsonMembers
  payload : JsonMembers
  deriving DecidableEq

/-- The JWT library and the parser of UUIDs. -/
structure JwtLibrary where
  /-- `jwt_object::signature` with a private key, or the message of its error code. -/
  sign : Str → JwtObject → Except Str Str
  /-- The header and the claims of a token whose signature verifies with a public key. -/
  verified : Str → Str → Option JwtObject
  /-- The number that a claim holds for a time point. -/
  numericDate : Int → Int
  /-- Whether the time in an `exp` claim has passed at a time point. -/
  expired : Int → Int → Bool
  /-- `BoostUuidFromString`: `none` is its exception. -/
  uuidFromString : Str → Option Uuid
  verified_sign : ∀ {privateKey publicKey obj obj' token}, sign privateKey obj = .ok token →
    verified publicKey token = some obj' → obj' = obj

namespace JwtLibrary

/-- The `exp` claim has not passed. A token without the claim does not expire. -/
def unexpired (lib : JwtLibrary) (obj : JwtObject) (now : Time) : Bool :=
  match obj.payload.lookup (lit "exp") with
  | some (.number exp) => !lib.expired exp now
  | _ => true

/-- `jwt::decode` with `verify(true)`: `none` is an exception. -/
def decode (lib : JwtLibrary) (token publicKey : Str) (now : Time) : Option JwtObject :=
  (lib.verified publicKey token).filter fun obj => lib.unexpired obj now

/-- What the private key signs verifies with the public key. -/
def KeyPair (lib : JwtLibrary) (privateKey publicKey : Str) : Prop :=
  ∀ obj, ∃ token, lib.sign privateKey obj = .ok token ∧ (lib.verified publicKey token).isSome

end JwtLibrary

/-- An exception inside a parser: one of the service, or any other `std::exception`. -/
inductive JwtException where
  | auth (error : Error)
  | other

/-- `get_claim_value<std::string>` and `at(..).get<std::string>()`. -/
def JsonMembers.getString (members : JsonMembers) (name : Str) : Except JwtException Str :=
  match members.lookup name with
  | some (.string value) => .ok value
  | _ => .error .other

/-- A member that is a string. -/
def textMember (name : String) (value : Str) : Str × JsonValue := (lit name, .string value)

/-- A member that is a number. -/
def numberMember (name : String) (value : Int) : Str × JsonValue := (lit name, .number value)

/-- `JwtCppTokenProvider`, with the two libraries it is built on. -/
structure JwtCppTokenProvider where
  lib : JwtLibrary
  config : JwtConfig
  publicJwks : List (Str × Str)

namespace JwtCppTokenProvider

/-- The constructor. -/
def create (lib : JwtLibrary) (ssl : OpenSsl) (config : JwtConfig) :
    Except Str JwtCppTokenProvider := do
  validateConfig config
  return ⟨lib, config, ← buildPublicJwks ssl config⟩

variable (p : JwtCppTokenProvider)

/-- The header and the claims that `GenerateToken` signs. -/
def tokenObject (userId sessionId : Str) (tokenFamilyId : Option Str) (tokenType : Str)
    (ttl : Seconds) (now : Time) : JwtObject where
  header := [textMember "alg" kAlgorithm, textMember "kid" p.config.keyId]
  payload :=
    [textMember "sub" userId, textMember "sid" sessionId, textMember "type" tokenType] ++
      (tokenFamilyId.map (textMember "fam")).toList ++
      [textMember "iss" p.config.issuer, textMember "aud" p.config.audience,
        numberMember "iat" (p.lib.numericDate now),
        numberMember "exp" (p.lib.numericDate (now.plus ttl))]

/-- `GenerateToken`. -/
def generateToken (userId sessionId : Str) (tokenFamilyId : Option Str) (tokenType : Str)
    (ttl : Seconds) (now : Time) : Except Str Str :=
  match p.lib.sign p.config.privateKeyPem
      (p.tokenObject userId sessionId tokenFamilyId tokenType ttl now) with
  | .ok token => .ok token
  | .error message => .error (lit "failed to sign JWT with RSA key: " ++ message)

/-- `GenerateAccessToken`. -/
def generateAccessToken (userId sessionId : Str) (now : Time) : Except Str Str :=
  p.generateToken userId sessionId none kAccessTokenType p.config.accessTtl now

/-- `GenerateRefreshToken`. -/
def generateRefreshToken (userId sessionId tokenFamilyId : Str) (now : Time) : Except Str Str :=
  p.generateToken userId sessionId (some tokenFamilyId) kRefreshTokenType p.config.refreshTtl now

/-- `GenerateTokens`: the two tokens read the clock one after the other. -/
def generateTokens (userId sessionId tokenFamilyId : Str) (now now' : Time) :
    Except Str AuthTokens := do
  return {
    accessToken := ← p.generateAccessToken userId sessionId now
    refreshToken := ← p.generateRefreshToken userId sessionId tokenFamilyId now' }

/-- `CanonicalUuidString`: the UUID stands for its canonical text. -/
def canonicalUuid (uuid : Str) : Except JwtException Uuid :=
  match p.lib.uuidFromString uuid with
  | some value => .ok value
  | none => .error .other

/-- The part that the two parsers share: the checks on a decoded token, and its user and session.
`invalid` is the exception of the parser. -/
def checkClaims (tokenType : Str) (invalid : Error) (obj : JwtObject) :
    Except JwtException (Uuid × Uuid) := do
  let keyId ← obj.header.getString "kid"
  failIf (keyId != p.config.keyId) (.auth invalid)
  let issuer ← obj.payload.getString "iss"
  failIf (issuer != p.config.issuer) (.auth invalid)
  let audience ← obj.payload.getString "aud"
  failIf (audience != p.config.audience) (.auth invalid)
  let actualType ← obj.payload.getString "type"
  failIf (actualType != tokenType) (.auth invalid)
  let userId ← p.canonicalUuid (← obj.payload.getString "sub")
  let sessionId ← p.canonicalUuid (← obj.payload.getString "sid")
  return (userId, sessionId)

/-- The `catch` clauses of a parser. -/
def caught (invalid : Error) : JwtException → Error
  | .auth error => error
  | .other => invalid

/-- `::jwt::decode` inside a parser. -/
def decodeToken (token : Str) (now : Time) : Except JwtException JwtObject :=
  match p.lib.decode token p.config.publicKeyPem now with
  | some obj => .ok obj
  | none => .error .other

/-- The claims of a decoded refresh token. A family that is missing or no UUID is left out. -/
def refreshClaims (obj : JwtObject) : Except JwtException RefreshTokenClaims := do
  let (userId, sessionId) ←
    p.checkClaims kRefreshTokenType (.invalidRefreshToken "invalid refresh token") obj
  let family := (obj.payload.getString "fam" >>= p.canonicalUuid).toOption
  return { userId, sessionId, tokenFamilyId := family }

/-- `ParseRefreshToken`. -/
def parseRefreshToken (refreshToken : Str) (now : Time) : Except Error RefreshTokenClaims :=
  (p.decodeToken refreshToken now >>= p.refreshClaims).mapError
    (caught (.invalidRefreshToken "invalid refresh token"))

/-- The claims of a decoded access token. -/
def accessClaims (obj : JwtObject) : Except JwtException AccessTokenClaims := do
  let (userId, sessionId) ←
    p.checkClaims kAccessTokenType (.invalidAccessToken "invalid access token") obj
  return { userId, sessionId }

/-- `ParseAccessToken`. -/
def parseAccessToken (accessToken : Str) (now : Time) : Except Error AccessTokenClaims :=
  (p.decodeToken accessToken now >>= p.accessClaims).mapError
    (caught (.invalidAccessToken "invalid access token"))

/-- The provider as a port. A token that cannot be signed is a fault of the step that asks for
it, and an empty text here. -/
def port : JwtTokenProvider where
  generateTokens userId sessionId familyId now :=
    { accessToken := (p.generateAccessToken userId.text sessionId.text now).toOption.getD []
      refreshToken :=
        (p.generateRefreshToken userId.text sessionId.text familyId.text now).toOption.getD [] }
  refreshTokenClaims token :=
    (p.lib.verified p.config.publicKeyPem token).bind fun obj => (p.refreshClaims obj).toOption
  accessTokenClaims token :=
    (p.lib.verified p.config.publicKeyPem token).bind fun obj => (p.accessClaims obj).toOption
  unexpired token now :=
    (p.lib.verified p.config.publicKeyPem token).all fun obj => p.lib.unexpired obj now

end JwtCppTokenProvider

end SmirklyAuth
