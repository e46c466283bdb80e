import SmirklyAuth.Services.Contracts

/-!
# `SmirklyAuth.Infra.Security.HmacSha256`: the hashers of codes and tokens

`HmacSha256TokenHasher` and `HmacSha256VerificationCodeHasher`. The digest is a parameter: a
function of the key and of the data, `HMAC` with `EVP_sha256` of OpenSSL. When it fails, the
hasher throws, which is a fault of the step that calls it.
-/

set_option autoImplicit false

namespace SmirklyAuth

/-- `HmacSha256TokenHasher`. The constructor rejects the peppers that the fields exclude. -/
structure HmacSha256TokenHasher where
  digest : Str → Str → Str
  pepper : Str
  nonempty : pepper ≠ []
  size : pepper.length ≤ 2147483647

namespace HmacSha256TokenHasher

/-- The constructor, for the digest of the library. -/
def create (digest : Str → Str → Str) (pepper : Str) : Except Str HmacSha256TokenHasher :=
  if hempty : pepper = [] then .error "HMAC pepper must not be empty"
  else if hsize : 2147483647 < pepper.length then .error "HMAC pepper is too large"
  else .ok ⟨digest, pepper, hempty, Nat.le_of_not_lt hsize⟩

/-- `kHashPrefix`. -/
def kHashPrefix : Str := "hmac-sha256:v1:"

/-- `ToHex`. -/
def toHex (data : Str) : Str :=
  data.flatMap fun b => [hexDigit (b.toNat / 16), hexDigit (b.toNat % 16)]

/-- `HasPrefix`. -/
def hasPrefix (value start : Str) : Bool :=
  start.length ≤ value.length && value.take start.length == start

/-- `Hash`. -/
def hash (h : HmacSha256TokenHasher) (token : Str) : Str :=
  kHashPrefix ++ toHex (h.digest h.pepper token)

/-- `Verify`. -/
def verify (h : HmacSha256TokenHasher) (token hash : Str) : Bool :=
  if !hasPrefix hash kHashPrefix then false
  else
    let expected := h.hash token
    if expected.length != hash.length then false else expected == hash

/-- The hasher accepts the token that it has hashed. -/
theorem verify_hash (h : HmacSha256TokenHasher) (token : Str) :
    h.verify token (h.hash token) = true := by
  have hstart : hasPrefix (h.hash token) kHashPrefix = true := by
    simp [hasPrefix, hash]
  simp [verify, hstart]

/-- The hasher as a port. -/
def port (h : HmacSha256TokenHasher) : TokenHasher := ⟨h.hash, h.verify⟩

end HmacSha256TokenHasher

/-- `HmacSha256VerificationCodeHasher`. -/
structure HmacSha256VerificationCodeHasher where
  hmac : HmacSha256TokenHasher

namespace HmacSha256VerificationCodeHasher

/-- `BuildScopedValue`. -/
def buildScopedValue (userId code : Str) : Str :=
  lit "email-verification:v1" ++ [0] ++ userId ++ [0] ++ code

/-- `Hash`. -/
def hash (h : HmacSha256VerificationCodeHasher) (userId code : Str) : Str :=
  h.hmac.hash (buildScopedValue userId code)

/-- `Verify`. -/
def verify (h : HmacSha256VerificationCodeHasher) (userId code hash : Str) : Bool :=
  h.hmac.verify (buildScopedValue userId code) hash

/-- The hasher as a port. -/
def port (h : HmacSha256VerificationCodeHasher) : VerificationCodeHasher where
  hash userId code := h.hash userId.text code
  verify userId code hash := h.verify userId.text code hash

end HmacSha256VerificationCodeHasher

/-- The hashers of the two kinds of codes accept what they have hashed. -/
structure Ports.VerifiesSecrets (ports : Ports) : Prop where
  code : ∀ userId code, ports.verificationCodeHasher.verify userId code
    (ports.verificationCodeHasher.hash userId code) = true
  token : ∀ token, ports.resetTokenHasher.verify token (ports.resetTokenHasher.hash token) = true

/-- The hashers of the service do. -/
theorem Ports.verifiesSecrets_of_hmac {ports : Ports} {code : HmacSha256VerificationCodeHasher}
    {token : HmacSha256TokenHasher} (hcode : ports.verificationCodeHasher = code.port)
    (htoken : ports.resetTokenHasher = token.port) : ports.VerifiesSecrets where
  code _ _ := by
    rw [hcode]
    exact code.hmac.verify_hash _
  token _ := by
    rw [htoken]
    exact token.verify_hash _

end SmirklyAuth
