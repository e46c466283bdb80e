import SmirklyAuth.Infra.Security.HmacSha256
import SmirklyAuth.Infra.Security.JwtCppTokenProvider
import SmirklyAuth.Infra.Security.RandomTokenGenerator

/-!
# `SmirklyAuth.Components.AuthSecurityComponent`: the static security configuration

`AuthSecurityComponent` with the schema of its configuration, and the parser it calls
(`config/auth_security_config.cpp`). The component is built when the service starts. An
exception of one of the constructors keeps the service from starting, and is the text of the
error here.

The members are typed as the schema types them. `As<std::string>()` of a member that is missing
throws, so the members without a default are fields and not options.
-/

set_option autoImplicit false

namespace SmirklyAuth

/-- `Argon2idParams`. -/
structure Argon2idParams where
  timeCost : Nat := 2
  memoryCostKib : Nat := 19 * 1024
  parallelism : Nat := 1
  saltLength : Nat := 16
  hashLength : Nat := 32
  deriving DecidableEq, Repr

/-- What the static configuration says about tokens. -/
structure JwtSettings where
  privateKeyPath : Str
  publicKeyPath : Str
  keyId : Str
  issuer : Str
  audience : Str
  accessTtl : Seconds
  refreshTtl : Seconds
  deriving DecidableEq, Repr

/-- What the static configuration says about the hashing of passwords. -/
structure PasswordHashingSettings where
  taskProcessorName : Str
  argon2id : Argon2idParams
  deriving DecidableEq, Repr

/-- The static configuration of the component. -/
structure AuthSecuritySettings where
  jwt : JwtSettings
  passwordHashing : PasswordHashingSettings
  passwordResetTokenBytes : Nat
  refreshTokenPepper : Str
  verificationCodePepper : Str
  deriving DecidableEq, Repr

/-- The configuration of the component. -/
structure AuthSecurityYaml where
  taskProcessor : Option Str := none
  argon2id : Str → Option Int64 := fun _ => none
  passwordResetTokenBytes : Option Int64 := none
  refreshTokenPepper : Str
  verificationCodePepper : Str
  jwt : JwtSettings

namespace AuthSecurityConfig

/-- `ParseSize`. On the target `std::size_t` holds every `std::uint64_t`. -/
def parseSize (value : Option Int64) (key : Str) (defaultValue : Nat) : Except Str Nat :=
  let value := value.getD (Int64.ofNat defaultValue)
  if value ≤ 0 then .error (key ++ lit " must be positive") else .ok value.toInt.toNat

/-- `ParseUint32`. -/
def parseUint32 (value : Option Int64) (key : Str) (defaultValue : Nat) : Except Str Nat :=
  let value := value.getD (Int64.ofNat defaultValue)
  if value ≤ 0 || 4294967295 < value then
    .error (key ++ lit " must be a positive uint32 value")
  else .ok value.toInt.toNat

/-- The members of `password-hashing.argon2id`. -/
def parseArgon2id (cfg : Str → Option Int64) : Except Str Argon2idParams := do
  let defaults : Argon2idParams := {}
  let member (key : Str) (defaultValue : Nat) := parseUint32 (cfg key) key defaultValue
  return {
    timeCost := ← member "time-cost" defaults.timeCost
    memoryCostKib := ← member "memory-cost-kib" defaults.memoryCostKib
    parallelism := ← member "parallelism" defaults.parallelism
    saltLength := ← member "salt-length" defaults.saltLength
    hashLength := ← member "hash-length" defaults.hashLength }

/-- `ParseAuthSecuritySettings`. -/
def parseAuthSecuritySettings (cfg : AuthSecurityYaml) : Except Str AuthSecuritySettings := do
  let taskProcessorName := cfg.taskProcessor.getD (lit "password-hashing-task-processor")
  let argon2id ← parseArgon2id cfg.argon2id
  failIf taskProcessorName.isEmpty (lit "password-hashing.task-processor must not be empty")
  let passwordResetTokenBytes ←
    parseSize cfg.passwordResetTokenBytes "password_reset_token_bytes" 32
  failIf cfg.refreshTokenPepper.isEmpty (lit "refresh-token-pepper must not be empty")
  failIf cfg.verificationCodePepper.isEmpty (lit "verification-code-pepper must not be empty")
  return {
    jwt := cfg.jwt
    passwordHashing := { taskProcessorName, argon2id }
    passwordResetTokenBytes
    refreshTokenPepper := cfg.refreshTokenPepper
    verificationCodePepper := cfg.verificationCodePepper }

/-- `ReadTextFile`. -/
def readTextFile (files : Str → Option Str) (path : Str) : Except Str Str :=
  match files path with
  | some text => .ok text
  | none => .error (lit "failed to open JWT key file: " ++ path)

/-- `LoadJwtConfig`. -/
def loadJwtConfig (files : Str → Option Str) (settings : JwtSettings) : Except Str JwtConfig := do
  return {
    privateKeyPem := ← readTextFile files settings.privateKeyPath
    publicKeyPem := ← readTextFile files settings.publicKeyPath
    keyId := settings.keyId
    issuer := settings.issuer
    audience := settings.audience
    accessTtl := settings.accessTtl
    refreshTtl := settings.refreshTtl }

end AuthSecurityConfig

/-- The operating system and the libraries that the component is linked with. -/
structure SecurityPlatform where
  files : Str → Option Str
  jwt : JwtLibrary
  ssl : OpenSsl
  hmac : Str → Str → Str

/-- `AuthSecurityComponent::Impl`, without the hasher of passwords. -/
structure AuthSecurityComponent where
  tokenProvider : JwtCppTokenProvider
  refreshTokenHasher : HmacSha256TokenHasher
  verificationCodeHasher : HmacSha256VerificationCodeHasher
  passwordResetTokenGenerator : RandomTokenGenerator

namespace AuthSecurityComponent

/-- An integer member keeps the bounds of the schema. -/
def withinBounds (value : Option Int64) (minimum : Int64) (maximum : Option Int64 := none) : Bool :=
  value.all fun v => minimum ≤ v && maximum.all (v ≤ ·)

/-- The bounds of `GetStaticConfigSchema`. -/
def schemaAccepts (cfg : AuthSecurityYaml) : Bool :=
  withinBounds (cfg.argon2id "time-cost") 1 &&
  withinBounds (cfg.argon2id "memory-cost-kib") 8 &&
  withinBounds (cfg.argon2id "parallelism") 1 &&
  withinBounds (cfg.argon2id "salt-length") 8 (some 1024) &&
  withinBounds (cfg.argon2id "hash-length") 4 (some 1024) &&
  withinBounds cfg.passwordResetTokenBytes 16

/-- The constructor. -/
def create (platform : SecurityPlatform) (cfg : AuthSecurityYaml) :
    Except Str AuthSecurityComponent := do
  let settings ← AuthSecurityConfig.parseAuthSecuritySettings cfg
  let jwtConfig ← AuthSecurityConfig.loadJwtConfig platform.files settings.jwt
  let tokenProvider ← JwtCppTokenProvider.create platform.jwt platform.ssl jwtConfig
  let refreshTokenHasher ←
    HmacSha256TokenHasher.create platform.hmac settings.refreshTokenPepper
  let verificationCodeHasher ←
    HmacSha256TokenHasher.create platform.hmac settings.verificationCodePepper
  let passwordResetTokenGenerator ←
    RandomTokenGenerator.create settings.passwordResetTokenBytes
  return {
    tokenProvider
    refreshTokenHasher
    verificationCodeHasher := ⟨verificationCodeHasher⟩
    passwordResetTokenGenerator }

end AuthSecurityComponent

end SmirklyAuth
