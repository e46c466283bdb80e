import SmirklyAuth.Lib.Trim
import SmirklyAuth.Services.Validation

/-!
# `SmirklyAuth.Protocol.Identifiers`: what a value object holds

A value object is built from a raw string by normalising it and checking the result, so it
depends on the raw string through its normal form only (`Email.create_eq_ok` and its
siblings). The normal forms of usernames and email addresses are in lower case, and those of
all three consist of ASCII characters. This is what makes a lookup with `lower` of the
database server agree with the stored value.
-/

set_option autoImplicit false

namespace SmirklyAuth

/-- A property of the 256 bytes that was checked for each. -/
theorem forall_byte {P : UInt8 → Prop} (h : ∀ n < 256, P (UInt8.ofNat n)) (b : UInt8) : P b := by
  rw [← UInt8.ofNat_toNat (x := b)]
  exact h b.toNat b.toNat_lt

/-- The first position of a character. -/
theorem idxOf?_append_cons {l d : Str} {a : UInt8} (h : a ∉ l) :
    (l ++ a :: d).idxOf? a = some l.length := by
  induction l with
  | nil => simp [List.idxOf?_cons]
  | cons c l ih =>
    simp only [List.mem_cons, not_or] at h
    simp [List.idxOf?_cons, ih h.2, Ne.symm h.1]

namespace Strings

/-- Every byte is an ASCII character. -/
def IsAscii (s : Str) : Prop := ∀ c ∈ s, c < 128

/-- A character is lowered once. -/
theorem toLowerAscii_idem (c : UInt8) : toLowerAscii (toLowerAscii c) = toLowerAscii c := by
  grind [toLowerAscii]

/-- A text is lowered once. -/
theorem toLower_toLower (s : Str) : toLower (toLower s) = toLower s := by
  simp only [toLower, List.map_map]
  exact List.map_congr_left fun c _ => toLowerAscii_idem c

/-- Lowering does not change the length. -/
theorem length_toLower (s : Str) : (toLower s).length = s.length := List.length_map _

/-- Trimming, as a relation. -/
theorem trims_iff {s t : Str} : Trim.Trims isAsciiSpace s t ↔ t = trim s := Trim.trims_iff

/-- Trimming takes spaces off both ends. -/
theorem exists_trimmed (s : Str) :
    ∃ before after, s = before ++ trim s ++ after ∧ (∀ c ∈ before, isAsciiSpace c = true) ∧
      ∀ c ∈ after, isAsciiSpace c = true :=
  (trims_iff.mpr rfl).padded

/-- The trimmed text is a part of the text. -/
theorem trim_isSublist (s : Str) : trim s <:+: s := by
  obtain ⟨before, after, hs, -, -⟩ := exists_trimmed s
  exact ⟨before, after, hs.symm⟩

/-- What trimming takes off is spaces. -/
theorem mem_trim_or_space {s : Str} {c : UInt8} (hc : c ∈ s) :
    c ∈ trim s ∨ isAsciiSpace c = true := by
  obtain ⟨before, after, hs, hbefore, hafter⟩ := exists_trimmed s
  rw [hs, List.mem_append, List.mem_append] at hc
  rcases hc with (hc | hc) | hc
  · exact .inr (hbefore c hc)
  · exact .inl hc
  · exact .inr (hafter c hc)

/-- White space is ASCII. -/
theorem isAsciiSpace_lt (c : UInt8) : isAsciiSpace c = true → c < 128 := by
  grind [isAsciiSpace]

/-- A string is as much ASCII as its trimmed form. -/
theorem isAscii_of_trim {s : Str} (h : IsAscii (trim s)) : IsAscii s := by
  intro c hc
  rcases mem_trim_or_space hc with hc | hc
  · exact h c hc
  · exact isAsciiSpace_lt c hc

/-- A text is ASCII if its lowered form is. -/
theorem isAscii_of_toLower {s : Str} (h : IsAscii (Strings.toLower s)) : IsAscii s := by
  have hbyte : ∀ c : UInt8, toLowerAscii c < 128 → c < 128 := by grind [toLowerAscii]
  exact fun c hc => hbyte c (h _ (List.mem_map_of_mem hc))

/-- Only a string without spaces at its ends has the length of its trimmed form. -/
theorem trim_eq_of_length {s : Str} (h : s.length = (trim s).length) : trim s = s :=
  (trim_isSublist s).eq_of_length h.symm

end Strings

/-! ### Constructors -/

/-- The usernames that are accepted, and what is kept of them. -/
theorem Username.create_eq_ok {raw : Str} {username : Username} :
    Username.create raw = .ok username ↔ username.value = Username.normalize raw := by
  obtain ⟨value, checked⟩ := username
  unfold Username.create
  split
  · simp only [Except.ok.injEq, Username.mk.injEq]
    exact eq_comm
  · rename_i what hcheck
    simp only [reduceCtorEq, false_iff]
    rintro rfl
    rw [checked] at hcheck
    cases hcheck

/-- The emails that are accepted, and what is kept of them. -/
theorem Email.create_eq_ok {raw : Str} {email : Email} :
    Email.create raw = .ok email ↔ email.value = Email.normalize raw := by
  obtain ⟨value, checked⟩ := email
  unfold Email.create
  split
  · simp only [Except.ok.injEq, Email.mk.injEq]
    exact eq_comm
  · rename_i what hcheck
    simp only [reduceCtorEq, false_iff]
    rintro rfl
    rw [checked] at hcheck
    cases hcheck

/-- The phone numbers that are accepted, and what is kept of them. -/
theorem Phone.create_eq_ok {raw : Str} {phone : Phone} :
    Phone.create raw = .ok phone ↔ phone.value = Phone.normalize raw := by
  obtain ⟨value, checked⟩ := phone
  unfold Phone.create
  split
  · simp only [Except.ok.injEq, Phone.mk.injEq]
    exact eq_comm
  · rename_i what hcheck
    simp only [reduceCtorEq, false_iff]
    rintro rfl
    rw [checked] at hcheck
    cases hcheck

/-! ### What the checks leave -/

/-- `char` is signed on the target, so the check for control characters catches the bytes
from 128 on as well. -/
theorem Email.isAsciiControlOrSpace_eq_false (c : UInt8) :
    isAsciiControlOrSpace c = false ↔ 32 < c ∧ c < 127 := by
  revert c
  exact forall_byte (by decide +kernel)

/-- An email address in normal form: printable ASCII characters, and an `@` among them. -/
theorem Email.check_eq_ok {value : Str} (h : Email.check value = .ok ()) :
    64 ∈ value ∧ ∀ c ∈ value, 32 < c ∧ c < 127 := by
  simp only [Email.check] at h
  -- empty, too long, without `@`
  split at h
  · cases h
  split at h
  · cases h
  split at h
  · cases h
  rename_i pos hpos
  -- the two parts, a second `@`, the domain, and last the characters
  split at h
  · cases h
  split at h
  · cases h
  split at h
  · cases h
  split at h
  · cases h
  · rename_i hany
    constructor
    · obtain ⟨hlt, hat, -⟩ := List.idxOf?_eq_some_iff.mp hpos
      rw [← hat]
      exact List.getElem_mem hlt
    · intro c hc
      apply (isAsciiControlOrSpace_eq_false c).mp
      exact Bool.eq_false_iff.mpr fun hbad => hany (List.any_eq_true.mpr ⟨c, hc, hbad⟩)

/-- The `@` of an address is in the raw string. -/
theorem Email.at_mem {raw : Str} {email : Email} (h : Email.create raw = .ok email) :
    64 ∈ raw := by
  have hbyte : ∀ c : UInt8, Strings.toLowerAscii c = 64 → c = 64 := by
    grind [Strings.toLowerAscii]
  have hmem := (Email.check_eq_ok email.checked).1
  rw [Email.create_eq_ok.mp h, Email.normalize, Strings.toLower, List.mem_map] at hmem
  obtain ⟨c, hc, hat⟩ := hmem
  rw [← hbyte c hat]
  exact (Strings.trim_isSublist raw).subset hc

/-- An accepted email is ASCII. -/
theorem Email.isAscii (email : Email) : Strings.IsAscii email.value := by
  intro c hc
  have hlt := ((Email.check_eq_ok email.checked).2 c hc).2
  exact UInt8.lt_trans hlt (by decide)

/-- Only ASCII strings are accepted as addresses. -/
theorem Email.isAscii_raw {raw : Str} {email : Email} (h : Email.create raw = .ok email) :
    Strings.IsAscii raw := by
  have hascii := email.isAscii
  rw [Email.create_eq_ok.mp h] at hascii
  exact Strings.isAscii_of_trim (Strings.isAscii_of_toLower hascii)

/-- A username in normal form consists of ASCII characters. -/
theorem Username.isAscii (username : Username) : Strings.IsAscii username.value := by
  have hbyte : ∀ c : UInt8, Username.isAllowedChar c = true → c < 128 := by
    grind [Username.isAllowedChar]
  have hchecked := username.checked
  simp only [Username.check] at hchecked
  split at hchecked
  · cases hchecked
  split at hchecked
  · cases hchecked
  · rename_i hall
    simp only [Bool.not_eq_true', Bool.not_eq_false, List.all_eq_true] at hall
    exact fun c hc => hbyte c (hall c hc)

/-- Where the server folds ASCII strings as the service does, it leaves a normal form as it
is. -/
theorem lower_normal {pg : Postgres}
    (hlower : ∀ s, Strings.IsAscii s → pg.lower s = Strings.toLower s) {value s : Str}
    (hvalue : value = Strings.toLower s) (hascii : Strings.IsAscii value) :
    pg.lower value = value := by
  rw [hlower value hascii, hvalue, Strings.toLower_toLower]

end SmirklyAuth
