import SmirklyAuth.Domain.Models

/-!
# `SmirklyAuth.Infra.Security.RandomVerificationCodeGenerator`: the codes of email verification

`RandomVerificationCodeGenerator` of `infra/security/verification`. The outer loop draws a
buffer of 32 bytes from `RAND_bytes` while the code is too short, the inner one goes over the
buffer and stops when the code has its length.

The draws are the argument: the contents of each buffer, or `none` when `RAND_bytes` fails. A
call that would need more draws than there are has not finished.
-/

set_option autoImplicit false

namespace SmirklyAuth

/-- `RandomVerificationCodeGenerator`. -/
structure RandomVerificationCodeGenerator where
  length : Nat

namespace RandomVerificationCodeGenerator

/-- `kDigits`. -/
def kDigits : Str := "0123456789"

/-- `kMaxUniformDigitByte`. -/
def kMaxUniformDigitByte : UInt8 := 249

/-- `kRandomBufferSize`. -/
def kRandomBufferSize : Nat := 32

/-- `kDigits[byte % kDigits.size()]`. -/
def digitOf (byte : UInt8) : UInt8 := kDigits[byte.toNat % kDigits.length]?.getD 0

/-- The loop over a buffer. -/
def readBuffer (length : Nat) : Str → Str → Str
  | [], code => code
  | byte :: rest, code =>
    if kMaxUniformDigitByte < byte then readBuffer length rest code
    else
      let code := code ++ [digitOf byte]
      if code.length == length then code else readBuffer length rest code

/-- The loop over the draws: `none` when there are too few of them. -/
def fillCode (length : Nat) : List (Option Str) → Str → Option (Except Str Str)
  | draws, code =>
    if code.length < length then
      match draws with
      | [] => none
      | none :: _ => some (.error "RAND_bytes failed")
      | some buffer :: rest => fillCode length rest (readBuffer length buffer code)
    else some (.ok code)

/-- `Generate`. -/
def generate (g : RandomVerificationCodeGenerator) (draws : List (Option Str)) :
    Option (Except Str Str) :=
  fillCode g.length draws []

end RandomVerificationCodeGenerator

end SmirklyAuth
