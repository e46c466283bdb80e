import Mathlib.Data.List.Basic
import SmirklyAuth.Domain.SystemClock

/-!
# `SmirklyAuth.Domain.Models`: values, rows and the database

The values of the service and the tables of `migrations/`. A table is the list of its rows
in insertion order.

* `Str` is `std::string`: a list of bytes. A literal is written as a Lean string.
* `Uuid` is a value of a `UUID` column. Every identifier text that the service handles is
  the canonical text of one (`id::text`, the id generator, `CanonicalUuidString`), so the
  model passes the value and writes `Uuid.text` where the text itself is used.
* A column of type `TIMESTAMPTZ` is a `Time`, the time point that the driver reads from it.
* `Inet` is a value of an `INET` column: the address and the netmask length.
* `password_resets` and `email_verifications` have the same columns up to the name of the
  hash, and so have the three tables of attempts with three scopes. `OneTimeCode` and
  `Attempt` are their rows.
-/

set_option autoImplicit false

namespace SmirklyAuth

/-- A C++ `std::string`: its bytes. -/
abbrev Str := List UInt8

/-- The bytes of an ASCII literal. -/
def lit (s : String) : Str := s.toList.map fun c => c.toNat.toUInt8

instance : Coe String Str := ⟨lit⟩

/-- `std::string::c_str` as a C function reads it: up to the first zero byte. -/
def cStr (s : Str) : Str := s.takeWhile (· ≠ 0)

/-- The cast `static_cast<std::int32_t>` of a `std::size_t`. -/
def toInt32 (n : Nat) : Int := (BitVec.ofNat 32 n).toInt

/-- The cast `static_cast<std::int64_t>` of a `std::size_t`. -/
def toInt64 (n : Nat) : Int := (BitVec.ofNat 64 n).toInt

/-- A cast never makes a number larger. -/
theorem toInt_ofNat_le (w n : Nat) : (BitVec.ofNat w n).toInt ≤ n := by
  have hle : (BitVec.ofNat w n).toNat ≤ n := by
    rw [BitVec.toNat_ofNat]
    exact Nat.mod_le _ _
  rw [BitVec.toInt_eq_toNat_cond]
  split <;> omega

/-- A value of type `UUID`. -/
structure Uuid where
  bits : BitVec 128
  deriving DecidableEq, Repr

/-- The hexadecimal digit of a nibble, in lower case. -/
def hexDigit (n : Nat) : UInt8 := (if n < 10 then 48 + n else 87 + n).toUInt8

/-- The canonical text of a UUID: 32 hexadecimal digits in groups of 8, 4, 4, 4 and 12. -/
def Uuid.text (u : Uuid) : Str :=
  (List.range 32).flatMap fun i =>
    let digit := hexDigit ((u.bits.toNat >>> (4 * (31 - i))) % 16)
    if i = 8 ∨ i = 12 ∨ i = 16 ∨ i = 20 then [45, digit] else [digit]

/-- A value of type `INET`. -/
structure Inet where
  isV6 : Bool
  address : Nat
  netmask : Nat
  deriving DecidableEq, Repr

/-- `domain::models::User`, a row of `users`. `password` is the column `password_hash`. -/
structure User where
  id : Uuid
  username : Str
  password : Str
  phone : Option Str
  email : Option Str
  isEmailVerified : Bool := false
  isPhoneVerified : Bool := false
  createdAt : Time
  passwordUpdatedAt : Time
  deletedAt : Option Time := none
  deriving DecidableEq, Repr

/-- `domain::models::DeviceType`. -/
inductive DeviceType where
  | ios | android | web | desktop
  deriving DecidableEq, Repr

/-- `domain::models::Device`, a row of `devices`. -/
structure Device where
  id : Uuid
  userId : Uuid
  deviceType : DeviceType
  deviceName : Option Str
  osVersion : Option Str
  appVersion : Option Str
  fingerprint : Option Str
  createdAt : Time
  lastSeenAt : Option Time
  deriving DecidableEq, Repr

/-- A row of `sessions` when `Ip` is `Inet`, and `domain::models::Session` when `Ip` is the
text that `ip::text` yields. -/
structure SessionOf (Ip : Type) where
  id : Uuid
  userId : Uuid
  deviceId : Option Uuid
  refreshTokenHash : Str
  ip : Option Ip
  userAgent : Option Str
  createdAt : Time
  lastUsedAt : Option Time
  expiresAt : Time
  revokedAt : Option Time
  tokenFamilyId : Uuid
  replacedBySessionId : Option Uuid
  deriving DecidableEq, Repr

/-- A session as the table has it, with the address as `inet`. -/
abbrev SessionRow := SessionOf Inet

/-- A session as the service has it, with the address as text. -/
abbrev Session := SessionOf Str

/-- A row of `email_verifications` or of `password_resets`. `secretHash` is the column
`code_hash` of the first and `token_hash` of the second. -/
structure OneTimeCode where
  id : Uuid
  userId : Uuid
  secretHash : Str
  createdAt : Time
  expiresAt : Time
  usedAt : Option Time := none
  attempts : Nat := 0
  lastAttemptAt : Option Time := none
  ip : Option Inet
  userAgent : Option Str
  deriving DecidableEq, Repr

/-- A row of `sign_in_attempts`, `email_verification_attempts` or
`password_reset_attempts`. `identifier` is the column `login_identifier` of the first and
`email` of the others. -/
structure Attempt where
  identifier : Str
  userId : Option Uuid
  ip : Option Inet
  userAgent : Option Str
  attemptedAt : Time
  deriving DecidableEq, Repr

/-- A row of `sign_up_attempts`. -/
structure SignUpAttempt where
  ip : Inet
  attemptedAt : Time
  deriving DecidableEq, Repr

/-- The values of `email_outbox.status`. -/
inductive OutboxStatus where
  | pending | processing | sent | dead
  deriving DecidableEq, Repr

/-- A row of `email_outbox`. `payload` is a JSON object of strings, and `{}` is the empty
list. -/
structure OutboxJob where
  id : Uuid
  toEmail : Str
  template : Str
  payload : List (Str × Str)
  correlationId : Str
  status : OutboxStatus := .pending
  attempts : Nat := 0
  nextAttemptAt : Time
  lockedUntil : Option Time := none
  leaseId : Option Uuid := none
  lastError : Option Str := none
  createdAt : Time
  updatedAt : Time
  deriving DecidableEq, Repr

/-- The tables of the service. -/
structure Db where
  users : List User := []
  devices : List Device := []
  sessions : List SessionRow := []
  emailVerifications : List OneTimeCode := []
  emailVerificationAttempts : List Attempt := []
  passwordResets : List OneTimeCode := []
  passwordResetAttempts : List Attempt := []
  signInAttempts : List Attempt := []
  signUpAttempts : List SignUpAttempt := []
  emailOutbox : List OutboxJob := []
  deriving DecidableEq, Repr

end SmirklyAuth
