import Mathlib.Data.Nat.Bitwise
import SmirklyAuth.Infra.Security.JwtCppTokenProvider
import SmirklyAuth.Infra.Security.RandomTokenGenerator
import SmirklyAuth.Lib.Base64
import SmirklyAuth.Proofs.SqlLimits

/-!
# `SmirklyAuth.Proofs.TokenEncoding`: the two encoders of base64url

`Base64UrlNoPadding` packs bytes into words and reads six bits at a time off them.
`Base64UrlEncode` takes the padded text of the library, replaces two characters and drops the
padding. Both are base64 over the URL-safe alphabet (`base64UrlNoPadding_eq`,
`base64UrlEncode_eq`), so what is true of base64 is true of them.

The only assumption is on `EVP_EncodeBlock`: it writes the padded text over the standard alphabet
and returns its length. It is made for the one call that the encoder makes (`EncodesStandard`);
since the encoder casts the number of bytes to `int`, a library that keeps to its documentation
meets it as long as the length of the text is an `int` (`OpenSsl.Documented.encodesStandard`).
-/

set_option autoImplicit false

namespace SmirklyAuth

open Base64 (Alphabet)

/-- The URL-safe alphabet. -/
def base64Url : Alphabet where
  chars := kBase64UrlAlphabet
  length_chars := by decide +kernel
  nodup := by decide +kernel

/-- The standard alphabet. -/
def base64Standard : Alphabet where
  chars := lit "ABCDEFGHIJKLMNOPQRSTUVWXYZabcdefghijklmnopqrstuvwxyz0123456789+/"
  length_chars := by decide +kernel
  nodup := by decide +kernel

/-! ### The hand-written loop -/

/-- The three bytes do not overlap in the word. -/
theorem pack_toNat (a b c : UInt8) :
    (a.toUInt32 <<< 16 ||| b.toUInt32 <<< 8 ||| c.toUInt32).toNat
      = a.toNat * 65536 + b.toNat * 256 + c.toNat := by
  have ha := a.toNat_lt
  have hb := b.toNat_lt
  have hc := c.toNat_lt
  have hlow : b.toNat * 256 ||| c.toNat = b.toNat * 256 + c.toNat := by
    rw [Nat.mul_comm]
    exact (Nat.two_pow_add_eq_or_of_lt (i := 8) (by omega) b.toNat).symm
  have hhigh : a.toNat * 65536 ||| (b.toNat * 256 + c.toNat)
      = a.toNat * 65536 + (b.toNat * 256 + c.toNat) := by
    rw [Nat.mul_comm]
    exact (Nat.two_pow_add_eq_or_of_lt (i := 16) (by omega) a.toNat).symm
  simp only [UInt32.toNat_or, UInt32.toNat_shiftLeft, UInt8.toNat_toUInt32]
  simp only [UInt32.reduceToNat, Nat.reduceMod, Nat.shiftLeft_eq, Nat.reducePow]
  rw [Nat.mod_eq_of_lt (by omega), Nat.mod_eq_of_lt (by omega), Nat.or_assoc, hlow, hhigh]
  omega

/-- A character of the loop is that of the low six bits. -/
theorem base64UrlChar_eq (value : UInt32) {n : Nat} (h : value.toNat % 64 = n) :
    base64UrlChar value = base64Url.char n := by
  have hmask : (value &&& 0x3f).toNat = value.toNat % 64 := by
    rw [UInt32.toNat_and]
    exact Nat.and_two_pow_sub_one_eq_mod value.toNat 6
  rw [base64UrlChar, hmask, h, Alphabet.char, base64Url]

/-- A shift selects the digit that starts at its bit. -/
theorem base64UrlChar_shift (value shift : UInt32) {n k : Nat} (hshift : shift.toNat = k)
    (hk : k < 32) (h : value.toNat / 2 ^ k % 64 = n) :
    base64UrlChar (value >>> shift) = base64Url.char n := by
  apply base64UrlChar_eq
  rw [UInt32.toNat_shiftRight, hshift, Nat.mod_eq_of_lt hk, Nat.shiftRight_eq_div_pow]
  exact h

/-- The loop computes base64 over its alphabet. -/
theorem base64UrlNoPadding_eq (bytes : Str) :
    base64UrlNoPadding bytes = base64Url.encode bytes := by
  fun_induction base64UrlNoPadding bytes with
  | case1 a b c rest value ih =>
    have hvalue := pack_toNat a b c
    rw [ih, base64UrlChar_shift value 18 (k := 18) rfl (by omega) (by rw [hvalue]),
      base64UrlChar_shift value 12 (k := 12) rfl (by omega) (by rw [hvalue]),
      base64UrlChar_shift value 6 (k := 6) rfl (by omega) (by rw [hvalue]),
      base64UrlChar_eq value (by rw [hvalue])]
    rfl
  | case2 a value =>
    -- the word of the last group has zeros for the bytes that are missing
    have hword : value = a.toUInt32 <<< 16 ||| UInt8.toUInt32 0 <<< 8 ||| UInt8.toUInt32 0 := by
      show a.toUInt32 <<< 16 = _
      simp
    have hvalue := pack_toNat a 0 0
    rw [← hword] at hvalue
    rw [base64UrlChar_shift value 18 (k := 18) rfl (by omega) (by rw [hvalue]),
      base64UrlChar_shift value 12 (k := 12) rfl (by omega) (by rw [hvalue])]
    rfl
  | case3 a b value =>
    have hword : value = a.toUInt32 <<< 16 ||| b.toUInt32 <<< 8 ||| UInt8.toUInt32 0 := by
      show a.toUInt32 <<< 16 ||| b.toUInt32 <<< 8 = _
      simp
    have hvalue := pack_toNat a b 0
    rw [← hword] at hvalue
    rw [base64UrlChar_shift value 18 (k := 18) rfl (by omega) (by rw [hvalue]),
      base64UrlChar_shift value 12 (k := 12) rfl (by omega) (by rw [hvalue]),
      base64UrlChar_shift value 6 (k := 6) rfl (by omega) (by rw [hvalue])]
    rfl
  | case4 => rfl

/-! ### The encoder on top of the library -/

/-- `EVP_EncodeBlock` writes standard padded base64 of the bytes and returns its length. -/
def OpenSsl.EncodesStandard (ssl : OpenSsl) (bytes : Str) : Prop :=
  ssl.encodeBlock bytes (toInt32 bytes.length)
    = (((base64Standard.encodePadded bytes).length : Int), base64Standard.encodePadded bytes)

/-- `EVP_EncodeBlock` as it is documented: it writes the text of as many bytes as it is told and
returns the length of the text, if that is an `int`. -/
def OpenSsl.Documented (ssl : OpenSsl) : Prop :=
  ∀ bytes, (base64Standard.encodePadded bytes).length < 2 ^ 31 →
    ssl.encodeBlock bytes bytes.length
      = (((base64Standard.encodePadded bytes).length : Int), base64Standard.encodePadded bytes)

/-- The cast of the number of bytes to `int` changes nothing if the length of the text is one. -/
theorem OpenSsl.Documented.encodesStandard {ssl : OpenSsl} (hssl : ssl.Documented) {bytes : Str}
    (h : 4 * ((bytes.length + 2) / 3) < 2 ^ 31) : ssl.EncodesStandard bytes := by
  have hbytes : bytes.length < 2 ^ 31 := by omega
  have hcast : toInt32 bytes.length = bytes.length := (toInt32_eq_iff _).mpr hbytes
  rw [OpenSsl.EncodesStandard, hcast]
  apply hssl
  rw [Alphabet.length_encodePadded]
  exact h

/-- The loop over the characters replaces one alphabet by the other. -/
theorem toUrlSafe_char : ∀ d < 64, toUrlSafe (base64Standard.char d) = base64Url.char d := by
  decide +kernel

/-- Replacing characters and dropping the padding gives base64 over the URL-safe alphabet. -/
theorem base64UrlEncode_eq {ssl : OpenSsl} {bytes : Str} (h : ssl.EncodesStandard bytes) :
    base64UrlEncode ssl bytes = .ok (base64Url.encode bytes) := by
  cases bytes with
  | nil => rfl
  | cons b rest =>
    have hstrip := base64Standard.rdropWhile_padded base64Url toUrlSafe_char rfl (by decide +kernel)
      (b :: rest)
    generalize htext : base64Standard.encodePadded (b :: rest) = text at hstrip
    rw [OpenSsl.EncodesStandard, htext] at h
    have htake (padding : Str) : (text ++ padding).take text.length = text := List.take_left
    unfold base64UrlEncode
    rw [h]
    simp only [List.isEmpty_cons, Bool.false_eq_true, if_false, Int.toNat_natCast,
      List.append_assoc, htake, hstrip]
    rw [if_neg (by omega)]

/-- The two encoders return the same text for every sequence of bytes whose padded text the
library writes. It does so up to a text of 2 GiB, where the length is no `int` any more. The text
of the loop has `⌈4 n / 3⌉` characters of the URL-safe alphabet and decodes to the bytes, so that
different bytes have different texts, whatever the library does. -/
theorem base64Url_encoders_agree (ssl : OpenSsl) (bytes : Str) :
    (ssl.EncodesStandard bytes →
      base64UrlEncode ssl bytes = .ok (base64UrlNoPadding bytes)) ∧
    (ssl.Documented → 4 * ((bytes.length + 2) / 3) < 2 ^ 31 → ssl.EncodesStandard bytes) ∧
    (base64UrlNoPadding bytes).length = (4 * bytes.length + 2) / 3 ∧
    (∀ c ∈ base64UrlNoPadding bytes, c ∈ kBase64UrlAlphabet) ∧
    base64Url.decode (base64UrlNoPadding bytes) = some bytes ∧
    ∀ other, base64UrlNoPadding other = base64UrlNoPadding bytes → other = bytes := by
  simp only [base64UrlNoPadding_eq]
  refine ⟨base64UrlEncode_eq, fun hssl => hssl.encodesStandard, base64Url.length_encode bytes, ?_,
    base64Url.decode_encode bytes, ?_⟩
  · intro c hc
    exact base64Url.mem_of_mem_encode hc
  · intro other heq
    exact base64Url.encode_injective heq

/-- A library that keeps to the documentation. A key file is read as the bytes of its modulus. -/
def documentedOpenSsl : OpenSsl where
  encodeBlock data num :=
    if num < 0 then (-1, [])
    else
      let text := base64Standard.encodePadded (data.take num.toNat)
      (text.length, text)
  rsaPublicNumbers pem := .ok (pem, [1, 0, 1])

/-- It encodes the first bytes, so all of them when it is told their number. -/
theorem documentedOpenSsl_documented : documentedOpenSsl.Documented := by
  intro bytes _
  have hnum : ¬ (bytes.length : Int) < 0 := by omega
  simp only [documentedOpenSsl, if_neg hnum, Int.toNat_natCast, List.take_length]

/-- A text whose last group has one byte. -/
theorem base64Url_encoders_agree_foob :
    documentedOpenSsl.EncodesStandard (lit "foob") ∧
      base64UrlEncode documentedOpenSsl (lit "foob") = .ok (base64UrlNoPadding (lit "foob")) ∧
      base64UrlNoPadding (lit "foob") = lit "Zm9vYg" := by
  obtain ⟨hagree, hstandard, -⟩ := base64Url_encoders_agree documentedOpenSsl (lit "foob")
  have h := hstandard documentedOpenSsl_documented (by decide)
  exact ⟨h, hagree h, by decide +kernel⟩

end SmirklyAuth
