import SmirklyAuth.Domain.Models

/-!
# `SmirklyAuth.Domain.ValueObjects`: usernames, email addresses and phone numbers

`Username`, `Email` and `Phone` (`domain/value_objects/`) and the string helpers they use
(`common/strings/`). A value object is a normalised string that passed the checks of its
constructor, so a value that fails them cannot be built. `create` is the constructor on a
raw string; its error is the text of the `std::invalid_argument`.

`char` is signed on the target: a byte from 128 on is negative.
-/

set_option autoImplicit false

namespace SmirklyAuth

namespace Strings

/-- The value of a signed `char`. -/
def signed (c : UInt8) : Int := c.toBitVec.toInt

/-- `ToLowerAscii`. -/
def toLowerAscii (c : UInt8) : UInt8 := if 65 ≤ c ∧ c ≤ 90 then c - 65 + 97 else c

/-- `ToLowerAsciiInPlace`. -/
def toLower (s : Str) : Str := s.map toLowerAscii

/-- `IsAsciiSpace`: space, `\t`, `\n`, `\r`, `\f` and `\v`. -/
def isAsciiSpace (c : UInt8) : Bool :=
  c == 32 || c == 9 || c == 10 || c == 13 || c == 12 || c == 11

/-- `LTrimView`. -/
def lTrim (s : Str) : Str := s.dropWhile isAsciiSpace

/-- `RTrimView`. -/
def rTrim (s : Str) : Str := (s.reverse.dropWhile isAsciiSpace).reverse

/-- `TrimView` and `TrimCopy`. -/
def trim (s : Str) : Str := rTrim (lTrim s)

end Strings

namespace Username

/-- `kMinLength` of a username. -/
def kMinLength : Nat := 3

/-- `kMaxLength` of a username. -/
def kMaxLength : Nat := 32

/-- `Username::Normalize`. -/
def normalize (raw : Str) : Str := Strings.toLower (Strings.trim raw)

/-- `IsAllowedUsernameChar`: lower-case letters, digits and `_`. -/
def isAllowedChar (c : UInt8) : Bool := (97 ≤ c && c ≤ 122) || (48 ≤ c && c ≤ 57) || c == 95

/-- The checks of the constructor on the normalised value. -/
def check (value : Str) : Except Str Unit :=
  if value.length < kMinLength ∨ value.length > kMaxLength then
    .error "username must be 3..32 characters long"
  else if !value.all isAllowedChar then
    .error "username may contain only lowercase latin letters, digits and underscore"
  else if value.head? = some 95 ∨ value.getLast? = some 95 then
    .error "username must not start or end with underscore"
  else .ok ()

end Username

/-- A normalised username that passed the checks. -/
structure Username where
  value : Str
  checked : Username.check value = .ok ()

namespace Email

/-- `kMaxLength` of an email. -/
def kMaxLength : Nat := 254

/-- `Email::Normalize`. -/
def normalize (raw : Str) : Str := Strings.toLower (Strings.trim raw)

/-- `IsAsciiControlOrSpace`. The comparison is on signed characters. -/
def isAsciiControlOrSpace (c : UInt8) : Bool := Strings.signed c ≤ 32 || c == 127

/-- The checks of the constructor on the normalised value. `@` is 64 and `.` is 46. -/
def check (value : Str) : Except Str Unit :=
  if value.isEmpty then .error "email is empty"
  else if value.length > kMaxLength then .error "email is too long"
  else match value.idxOf? 64 with
    | none => .error "email must contain local and domain parts"
    | some pos =>
      let domain := value.drop (pos + 1)
      if pos = 0 ∨ pos + 1 = value.length then
        .error "email must contain local and domain parts"
      else if domain.contains 64 then .error "email must contain a single '@'"
      else if !domain.contains 46 ∨ domain.head? = some 46 ∨ domain.getLast? = some 46 then
        .error "email domain is invalid"
      else if value.any isAsciiControlOrSpace then
        .error "email must not contain spaces or control characters"
      else .ok ()

end Email

/-- A normalised email address that passed the checks. -/
structure Email where
  value : Str
  checked : Email.check value = .ok ()

namespace Phone

/-- `kMinDigits` of a phone number. -/
def kMinDigits : Nat := 8

/-- `kMaxDigits` of a phone number. -/
def kMaxDigits : Nat := 15

/-- `IsFormattingChar`: space, `-`, `(`, `)` and `\t`. -/
def isFormattingChar (c : UInt8) : Bool := c == 32 || c == 45 || c == 40 || c == 41 || c == 9

/-- `Phone::Normalize`. -/
def normalize (raw : Str) : Str := (Strings.trim raw).filter fun c => !isFormattingChar c

/-- `IsDigit`. -/
def isDigit (c : UInt8) : Bool := 48 ≤ c && c ≤ 57

/-- The checks of the constructor on the normalised value. `+` is 43. -/
def check (value : Str) : Except Str Unit :=
  let digits := value.length - 1
  if value.isEmpty then .error "phone is empty"
  else if value.head? ≠ some 43 then
    .error "phone must use E.164 format and start with '+'"
  else if digits < kMinDigits ∨ digits > kMaxDigits then
    .error "phone must contain 8..15 digits"
  else if !value.tail.all isDigit then
    .error "phone must contain only digits after '+'"
  else .ok ()

end Phone

/-- A normalised phone number that passed the checks. -/
structure Phone where
  value : Str
  checked : Phone.check value = .ok ()

/-- The constructor `Username(raw)`. -/
def Username.create (raw : Str) : Except Str Username :=
  match h : Username.check (Username.normalize raw) with
  | .ok () => .ok ⟨Username.normalize raw, h⟩
  | .error what => .error what

/-- The constructor `Email(raw)`. -/
def Email.create (raw : Str) : Except Str Email :=
  match h : Email.check (Email.normalize raw) with
  | .ok () => .ok ⟨Email.normalize raw, h⟩
  | .error what => .error what

/-- The constructor `Phone(raw)`. -/
def Phone.create (raw : Str) : Except Str Phone :=
  match h : Phone.check (Phone.normalize raw) with
  | .ok () => .ok ⟨Phone.normalize raw, h⟩
  | .error what => .error what

end SmirklyAuth
