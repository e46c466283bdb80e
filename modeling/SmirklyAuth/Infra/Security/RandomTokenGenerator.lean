import SmirklyAuth.Domain.Models

/-!
# `SmirklyAuth.Infra.Security.RandomTokenGenerator`: the tokens of password resets

`Base64UrlNoPadding` and `RandomTokenGenerator` of `infra/security/token`. The loop over the
groups of three bytes is a recursion that takes three bytes at a time. Its body packs them into
an `unsigned int` and reads the four characters off with shifts and masks.

`RAND_bytes` of OpenSSL is a parameter. Its count is an `int`, and the buffer has zeros
where it wrote nothing.
-/

set_option autoImplicit false

namespace SmirklyAuth

/-- `kBase64UrlAlphabet`. -/
def kBase64UrlAlphabet : Str := "ABCDEFGHIJKLMNOPQRSTUVWXYZabcdefghijklmnopqrstuvwxyz0123456789-_"

/-- `kBase64UrlAlphabet[bits & 0x3f]`. -/
def base64UrlChar (bits : UInt32) : UInt8 := kBase64UrlAlphabet[(bits &&& 0x3f).toNat]?.getD 0

/-- `Base64UrlNoPadding`. -/
def base64UrlNoPadding : Str → Str
  | a :: b :: c :: rest =>
    let value := a.toUInt32 <<< 16 ||| b.toUInt32 <<< 8 ||| c.toUInt32
    [base64UrlChar (value >>> 18), base64UrlChar (value >>> 12), base64UrlChar (value >>> 6),
      base64UrlChar value] ++ base64UrlNoPadding rest
  | [a] =>
    let value := a.toUInt32 <<< 16
    [base64UrlChar (value >>> 18), base64UrlChar (value >>> 12)]
  | [a, b] =>
    let value := a.toUInt32 <<< 16 ||| b.toUInt32 <<< 8
    [base64UrlChar (value >>> 18), base64UrlChar (value >>> 12), base64UrlChar (value >>> 6)]
  | [] => []

/-- A call of `RAND_bytes`: the bytes for each count it can be asked for, or its failure. It
fills as many bytes as it is asked for, and a negative count is an error. -/
structure RandBytes where
  fill : Int → Option Str
  length_fill : ∀ num bytes, fill num = some bytes → bytes.length = num

/-- `RandomTokenGenerator`. -/
structure RandomTokenGenerator where
  byteLength : Nat
  atLeast : 16 ≤ byteLength

namespace RandomTokenGenerator

/-- The constructor. -/
def create (byteLength : Nat) : Except Str RandomTokenGenerator :=
  if h : byteLength < 16 then .error "random token byte length must be at least 16"
  else .ok ⟨byteLength, Nat.le_of_not_lt h⟩

/-- `Generate`. -/
def generate (g : RandomTokenGenerator) (rand : RandBytes) : Except Str Str :=
  let bytes : Str := List.replicate g.byteLength 0
  match rand.fill (toInt32 bytes.length) with
  | none => .error "RAND_bytes failed"
  | some random => .ok (base64UrlNoPadding (random ++ bytes.drop random.length))

end RandomTokenGenerator

end SmirklyAuth
