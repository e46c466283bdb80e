import SmirklyAuth.Protocol.Identifiers

/-!
# `SmirklyAuth.Proofs.InputGrammar`: which strings a sign-up accepts

The constructors of the value objects and `PasswordValidator` are loops with early exits over
signed characters. Here is what they accept, as grammars on bytes: `UsernameText`, `EmailText`,
`PhoneText` and `PasswordText`. `Trim.Trims` stands for the trimming. `signUp_grammar` collects
the equivalences and adds that an accepted value is accepted again and stays as it is.

`Phone::Normalize` alone is not idempotent. It trims before it removes the formatting characters,
and that can uncover further white space: `-\n+1…` loses the `-` first and the line feed only
when it is normalised again. An accepted number has no white space left, so this does no harm.
-/

set_option autoImplicit false

namespace SmirklyAuth

open Trim (Trims)

/-! ### The grammars -/

/-- A username: 3 to 32 characters of `[a-z0-9_]`, with no `_` at either end. -/
structure UsernameText (s : Str) : Prop where
  length : 3 ≤ s.length ∧ s.length ≤ 32
  chars : ∀ c ∈ s, (97 ≤ c ∧ c ≤ 122) ∨ (48 ≤ c ∧ c ≤ 57) ∨ c = 95
  head : s.head? ≠ some 95
  last : s.getLast? ≠ some 95

/-- An email address: 1 to 254 printable ASCII characters, a nonempty local part, one `@` and a
domain with a `.` that is neither its first nor its last character. -/
structure EmailText (s : Str) : Prop where
  length : 1 ≤ s.length ∧ s.length ≤ 254
  chars : ∀ c ∈ s, 32 < c ∧ c < 127
  parts : ∃ localPart domain, s = localPart ++ 64 :: domain ∧ 64 ∉ localPart ∧ 64 ∉ domain ∧
    localPart ≠ [] ∧ 46 ∈ domain ∧ domain.head? ≠ some 46 ∧ domain.getLast? ≠ some 46

/-- A phone number: `+` and 8 to 15 digits. -/
def PhoneText (s : Str) : Prop :=
  ∃ digits, s = 43 :: digits ∧ 8 ≤ digits.length ∧ digits.length ≤ 15 ∧
    ∀ c ∈ digits, 48 ≤ c ∧ c ≤ 57

/-- The characters that are neither letters nor digits. -/
def isOtherAscii (c : UInt8) : Bool := !isLowerAscii c && !isUpperAscii c && !isDigitAscii c

/-- A password: a length within the policy, no control character, and characters of at least
three of the four classes. -/
structure PasswordText (policy : PasswordPolicy) (s : Str) : Prop where
  length : policy.minLength ≤ s.length ∧ s.length ≤ policy.maxLength
  chars : ∀ c ∈ s, 32 ≤ c ∧ c ≠ 127
  classes : 3 ≤ [isLowerAscii, isUpperAscii, isDigitAscii, isOtherAscii].countP
    fun isOf => s.any isOf

/-- A raw username, before it is trimmed and folded to lower case. -/
def RawUsername (raw : Str) : Prop :=
  ∃ t, Trims Strings.isAsciiSpace raw t ∧ UsernameText (Strings.toLower t)

/-- A raw email address. -/
def RawEmail (raw : Str) : Prop :=
  ∃ t, Trims Strings.isAsciiSpace raw t ∧ EmailText (Strings.toLower t)

/-- A raw phone number, before it is trimmed and its formatting characters are removed. -/
def RawPhone (raw : Str) : Prop :=
  ∃ t, Trims Strings.isAsciiSpace raw t ∧ PhoneText (t.filter fun c => !Phone.isFormattingChar c)

/-- A sign-up: the required contacts are present, and what is present is well formed. -/
structure SignUpText (policy : SignUpPolicy) (cmd : SignUpCommand) : Prop where
  requireEmail : policy.requireEmail = true → cmd.email.isSome = true
  requirePhone : policy.requirePhone = true → cmd.phone.isSome = true
  requireContact : policy.requireContact = true → cmd.email.isSome = true ∨ cmd.phone.isSome = true
  username : RawUsername cmd.username
  email : ∀ raw, cmd.email = some raw → RawEmail raw
  phone : ∀ raw, cmd.phone = some raw → RawPhone raw
  password : PasswordText policy.password cmd.password

/-! ### The checks -/

/-- The checks of a username accept the grammar. -/
theorem Username.check_iff (value : Str) : Username.check value = .ok () ↔ UsernameText value := by
  have hchars : value.all isAllowedChar = true ↔
      ∀ c ∈ value, (97 ≤ c ∧ c ≤ 122) ∨ (48 ≤ c ∧ c ≤ 57) ∨ c = 95 := by
    simp [isAllowedChar, or_assoc]
  simp only [Username.check, kMinLength, kMaxLength, except_ite_eq_ok, Bool.not_eq_true',
    Bool.not_eq_false, hchars, not_or, and_true]
  constructor
  · rintro ⟨hlength, hall, hhead, hlast⟩
    exact ⟨by omega, hall, hhead, hlast⟩
  · intro h
    have hlength := h.length
    exact ⟨by omega, h.chars, h.head, h.last⟩

/-- The checks of a phone number accept the grammar. -/
theorem Phone.check_iff (value : Str) : Phone.check value = .ok () ↔ PhoneText value := by
  have hdigits : value.tail.all isDigit = true ↔ ∀ c ∈ value.tail, 48 ≤ c ∧ c ≤ 57 := by
    simp [isDigit]
  simp only [Phone.check, kMinDigits, kMaxDigits, except_ite_eq_ok, Bool.not_eq_true',
    Bool.not_eq_false, hdigits, not_or, and_true, Decidable.not_not]
  constructor
  · rintro ⟨-, hplus, hcount, hall⟩
    cases value with
    | nil => cases hplus
    | cons c digits =>
      rw [List.head?_cons, Option.some.injEq] at hplus
      rw [List.length_cons, Nat.add_sub_cancel] at hcount
      exact ⟨digits, by rw [hplus], by omega, by omega, hall⟩
  · rintro ⟨digits, rfl, hlow, hhigh, hall⟩
    rw [List.length_cons, Nat.add_sub_cancel]
    exact ⟨by simp, rfl, by omega, hall⟩

/-- The checks on an address, given its two parts. -/
theorem Email.check_parts {l d : Str} (h : 64 ∉ l) :
    Email.check (l ++ 64 :: d) = .ok () ↔
      (l ++ 64 :: d).length ≤ 254 ∧ l ≠ [] ∧ 64 ∉ d ∧ 46 ∈ d ∧ d.head? ≠ some 46 ∧
        d.getLast? ≠ some 46 ∧ ∀ c ∈ l ++ 64 :: d, 32 < c ∧ c < 127 := by
  have hdomain : (l ++ 64 :: d).drop (l.length + 1) = d := by
    rw [List.drop_append]
    simp
  have hend : l.length + 1 = (l ++ 64 :: d).length ↔ d = [] := by
    rw [List.length_append, List.length_cons, ← List.length_eq_zero_iff]
    omega
  have hchars : ¬ (l ++ 64 :: d).any isAsciiControlOrSpace = true ↔
      ∀ c ∈ l ++ 64 :: d, 32 < c ∧ c < 127 := by
    simp only [Bool.not_eq_true, List.any_eq_false, ← isAsciiControlOrSpace_eq_false]
  have hmem : ∀ c : UInt8, d.contains c = true ↔ c ∈ d := fun c => List.contains_iff_mem
  unfold Email.check kMaxLength
  -- the first `@` is the one after the local part
  rw [idxOf?_append_cons h]
  simp only [hdomain, except_ite_eq_ok, hchars, hend, hmem, List.length_eq_zero_iff, not_or,
    Bool.not_eq_true', Bool.not_eq_false, Nat.not_lt, and_true]
  constructor
  · rintro ⟨-, hlength, ⟨hlocal, -⟩, hsingle, ⟨hdot, hfirst, hlast⟩, hall⟩
    exact ⟨hlength, hlocal, hsingle, hdot, hfirst, hlast, hall⟩
  · rintro ⟨hlength, hlocal, hsingle, hdot, hfirst, hlast, hall⟩
    exact ⟨by simp, hlength, ⟨hlocal, List.ne_nil_of_mem hdot⟩, hsingle, ⟨hdot, hfirst, hlast⟩,
      hall⟩

/-- The checks of an email accept the grammar. -/
theorem Email.check_iff (value : Str) : Email.check value = .ok () ↔ EmailText value := by
  constructor
  · intro h
    -- split at the first `@`
    have hat : 64 ∈ value := (Email.check_eq_ok h).1
    obtain ⟨localPart, domain, rfl, hlocal⟩ := List.eq_append_cons_of_mem hat
    obtain ⟨hlength, hne, hsingle, hdot, hfirst, hlast, hall⟩ := (Email.check_parts hlocal).mp h
    exact ⟨⟨List.length_pos_of_mem hat, hlength⟩, hall,
      localPart, domain, rfl, hlocal, hsingle, hne, hdot, hfirst, hlast⟩
  · rintro ⟨hlength, hall, localPart, domain, rfl, hlocal, hsingle, hne, hdot, hfirst, hlast⟩
    exact (Email.check_parts hlocal).mpr ⟨hlength.2, hne, hsingle, hdot, hfirst, hlast, hall⟩

/-! ### Passwords -/

/-- The classes of a password, added to those seen before. -/
def PasswordClasses.join (seen : PasswordClasses) (s : Str) : PasswordClasses where
  hasLower := seen.hasLower || s.any isLowerAscii
  hasUpper := seen.hasUpper || s.any isUpperAscii
  hasDigit := seen.hasDigit || s.any isDigitAscii
  hasOther := seen.hasOther || s.any isOtherAscii

/-- The loop stops at a control character and otherwise collects the classes. -/
theorem passwordClasses_eq (s : Str) (seen : PasswordClasses) :
    passwordClasses s seen =
      if s.any fun c => isControlAscii c || c == 127 then none else some (seen.join s) := by
  induction s generalizing seen with
  | nil => simp [passwordClasses, PasswordClasses.join]
  | cons c s ih =>
    by_cases hc : (isControlAscii c || c == 127) = true
    · simp [passwordClasses, hc]
    · rw [passwordClasses, if_neg hc, ih]
      simp only [List.any_cons, hc, Bool.false_or, PasswordClasses.join, Bool.or_assoc,
        isOtherAscii]

/-- The number of classes that occur. -/
theorem join_count (s : Str) :
    (PasswordClasses.join {} s).count =
      [isLowerAscii, isUpperAscii, isDigitAscii, isOtherAscii].countP fun isOf => s.any isOf := by
  simp only [PasswordClasses.count, PasswordClasses.join, Bool.false_or, List.countP_cons,
    List.countP_nil]
  -- what is left is about four Booleans
  generalize s.any isLowerAscii = a, s.any isUpperAscii = b, s.any isDigitAscii = c,
    s.any isOtherAscii = d
  revert a b c d
  decide

/-- The checks of a password accept the grammar. -/
theorem passwordValidate_iff (policy : PasswordPolicy) (s : Str) :
    passwordValidate policy s = .ok () ↔ PasswordText policy s := by
  have hbyte : ∀ c : UInt8, (isControlAscii c || c == 127) = false ↔ 32 ≤ c ∧ c ≠ 127 := by
    grind [isControlAscii]
  have hcontrol : (s.any fun c => isControlAscii c || c == 127) = false ↔
      ∀ c ∈ s, 32 ≤ c ∧ c ≠ 127 := by
    simp only [List.any_eq_false, Bool.not_eq_true, hbyte]
  unfold passwordValidate
  rw [passwordClasses_eq]
  simp only [except_ite_eq_ok, Nat.not_lt]
  constructor
  · rintro ⟨-, hmin, hmax, h⟩
    cases hany : s.any fun c => isControlAscii c || c == 127 with
    | true => simp [hany] at h
    | false =>
      rw [hany, if_neg (by decide)] at h
      have hclasses := (except_ite_eq_ok.mp h).1
      rw [join_count] at hclasses
      exact ⟨⟨hmin, hmax⟩, hcontrol.mp hany, by omega⟩
  · intro h
    -- the source asks for a nonempty password first, which the classes imply
    have hne : s ≠ [] := by
      rintro rfl
      exact absurd h.classes (by simp)
    have hclasses := h.classes
    rw [← join_count] at hclasses
    rw [hcontrol.mpr h.chars, if_neg (by decide)]
    exact ⟨by simpa using hne, h.length.1, h.length.2, except_ite_eq_ok.mpr ⟨by omega, rfl⟩⟩

/-! ### Raw strings -/

/-- What is asked of the trimmed string is asked of some string that trimming leaves. -/
theorem exists_trims {P : Str → Prop} (raw : Str) :
    (∃ t, Trims Strings.isAsciiSpace raw t ∧ P t) ↔ P (Strings.trim raw) := by
  simp only [Strings.trims_iff, exists_eq_left]

/-- A value object holds a checked string, so it exists when the normal form passes. -/
theorem exists_create_iff {β : Type} {create : Str → Except Str β} {value : β → Str}
    {check : Str → Except Str Unit} {raw normal : Str}
    (hcreate : ∀ x, create raw = .ok x ↔ value x = normal)
    (hchecked : ∀ x, check (value x) = .ok ())
    (hmk : check normal = .ok () → ∃ x, value x = normal) :
    (∃ x, create raw = .ok x) ↔ check normal = .ok () := by
  simp only [hcreate]
  constructor
  · rintro ⟨x, rfl⟩
    exact hchecked x
  · exact hmk

/-- The raw usernames that are accepted. -/
theorem Username.accepts_iff (raw : Str) :
    (∃ username, Username.create raw = .ok username) ↔ RawUsername raw := by
  rw [RawUsername, exists_trims (P := fun t => UsernameText (Strings.toLower t)),
    ← Username.check_iff]
  exact exists_create_iff (fun _ => Username.create_eq_ok) (·.checked) fun h => ⟨⟨_, h⟩, rfl⟩

/-- The raw emails that are accepted. -/
theorem Email.accepts_iff (raw : Str) :
    (∃ email, Email.create raw = .ok email) ↔ RawEmail raw := by
  rw [RawEmail, exists_trims (P := fun t => EmailText (Strings.toLower t)), ← Email.check_iff]
  exact exists_create_iff (fun _ => Email.create_eq_ok) (·.checked) fun h => ⟨⟨_, h⟩, rfl⟩

/-- The raw phone numbers that are accepted. -/
theorem Phone.accepts_iff (raw : Str) :
    (∃ phone, Phone.create raw = .ok phone) ↔ RawPhone raw := by
  rw [RawPhone, exists_trims (P := fun t => PhoneText (t.filter fun c => !isFormattingChar c)),
    ← Phone.check_iff]
  exact exists_create_iff (fun _ => Phone.create_eq_ok) (·.checked) fun h => ⟨⟨_, h⟩, rfl⟩

/-! ### Normal forms -/

/-- A string without spaces and capitals is left alone. -/
theorem toLower_trim_eq_self {s : Str} (hspace : ∀ c ∈ s, Strings.isAsciiSpace c = false)
    (hlower : Strings.toLower s = s) : Strings.toLower (Strings.trim s) = s := by
  have htrim : Strings.trim s = s := Trim.trim_eq_self_of_forall hspace
  rw [htrim, hlower]

/-- A normalised username stays as it is. -/
theorem Username.normalize_value {raw : Str} {username : Username}
    (h : Username.create raw = .ok username) : normalize username.value = username.value := by
  have hbyte : ∀ c : UInt8, (97 ≤ c ∧ c ≤ 122) ∨ (48 ≤ c ∧ c ≤ 57) ∨ c = 95 →
      Strings.isAsciiSpace c = false := by
    grind [Strings.isAsciiSpace]
  have hchars := ((Username.check_iff _).mp username.checked).chars
  apply toLower_trim_eq_self
  · intro c hc
    exact hbyte c (hchars c hc)
  · rw [Username.create_eq_ok.mp h, normalize, Strings.toLower_toLower]

/-- A normalised email stays as it is. -/
theorem Email.normalize_value {raw : Str} {email : Email} (h : Email.create raw = .ok email) :
    normalize email.value = email.value := by
  have hbyte : ∀ c : UInt8, 32 < c ∧ c < 127 → Strings.isAsciiSpace c = false := by
    grind [Strings.isAsciiSpace]
  have hchars := ((Email.check_iff _).mp email.checked).chars
  apply toLower_trim_eq_self
  · intro c hc
    exact hbyte c (hchars c hc)
  · rw [Email.create_eq_ok.mp h, normalize, Strings.toLower_toLower]

/-- An accepted number has neither white space nor formatting characters. -/
theorem Phone.normalize_value (phone : Phone) : normalize phone.value = phone.value := by
  have hbyte : ∀ c : UInt8, c = 43 ∨ (48 ≤ c ∧ c ≤ 57) →
      Strings.isAsciiSpace c = false ∧ isFormattingChar c = false := by
    grind [Strings.isAsciiSpace, isFormattingChar]
  obtain ⟨digits, hvalue, -, -, hall⟩ := (Phone.check_iff _).mp phone.checked
  have hchars : ∀ c ∈ phone.value,
      Strings.isAsciiSpace c = false ∧ isFormattingChar c = false := by
    intro c hc
    rw [hvalue, List.mem_cons] at hc
    exact hbyte c (hc.imp id (hall c))
  have htrim : Strings.trim phone.value = phone.value :=
    Trim.trim_eq_self_of_forall fun c hc => (hchars c hc).1
  rw [normalize, htrim, List.filter_eq_self]
  intro c hc
  rw [(hchars c hc).2]
  rfl

/-! ### The validator -/

/-- An optional field is accepted when what is there is accepted. -/
theorem exists_mapM_eq_ok {β : Type} {create : Str → Except Str β} {P : Str → Prop}
    (hcreate : ∀ raw, (∃ x, create raw = .ok x) ↔ P raw) (field : Option Str) :
    (∃ x, field.mapM create = .ok x) ↔ ∀ raw, field = some raw → P raw := by
  cases field with
  | none => simp [Option.mapM_none, pure, Except.pure]
  | some raw =>
    simp only [Option.some.injEq, forall_eq', ← hcreate]
    constructor
    · rintro ⟨x, h⟩
      obtain ⟨y, hy, -⟩ := except_bind_eq_ok h
      exact ⟨y, hy⟩
    · rintro ⟨y, hy⟩
      exact ⟨some y, by simp [hy, Functor.map, Except.map]⟩

/-- The sign-ups that are accepted. -/
theorem signUp_accepts_iff (policy : SignUpPolicy) (cmd : SignUpCommand) :
    (∃ input, signUpValidateAndNormalize policy cmd = .ok input) ↔ SignUpText policy cmd := by
  have hrequired : ∀ required present : Bool,
      ¬ (required && !present) = true ↔ (required = true → present = true) := by decide
  have heither : ∀ required email phone : Bool,
      ((required && !email) = true → phone = true) ↔
        (required = true → email = true ∨ phone = true) := by decide
  simp only [signUpValidateAndNormalize, except_ite_eq_ok, except_mapError_eq_ok,
    signUpInput_eq_ok, exists_and_left, ← Option.not_isSome, hrequired, heither]
  constructor
  · rintro ⟨hemail, hphone, hcontact, input, h⟩
    constructor
    case requireEmail => exact hemail
    case requirePhone => exact hphone
    case requireContact => exact hcontact
    case username => exact (Username.accepts_iff _).mp ⟨_, h.username⟩
    case email => exact (exists_mapM_eq_ok Email.accepts_iff _).mp ⟨_, h.email⟩
    case phone => exact (exists_mapM_eq_ok Phone.accepts_iff _).mp ⟨_, h.phone⟩
    case password => exact (passwordValidate_iff _ _).mp h.password
  · intro h
    obtain ⟨username, husername⟩ := (Username.accepts_iff _).mpr h.username
    obtain ⟨email, hemail⟩ := (exists_mapM_eq_ok Email.accepts_iff _).mpr h.email
    obtain ⟨phone, hphone⟩ := (exists_mapM_eq_ok Phone.accepts_iff _).mpr h.phone
    have hpassword := (passwordValidate_iff _ _).mpr h.password
    exact ⟨h.requireEmail, h.requirePhone, h.requireContact,
      ⟨username, cmd.password, email, phone⟩, hpassword, rfl, husername, hemail, hphone⟩

/-- The command that carries the values of an accepted input. -/
def NormalizedSignUpInput.command (input : NormalizedSignUpInput) : SignUpCommand where
  username := input.username.value
  password := input.password
  phone := input.phone.map (·.value)
  email := input.email.map (·.value)

/-- An optional field that was accepted is accepted again. -/
theorem mapM_value {β : Type} {create : Str → Except Str β} {value : β → Str}
    (hcreate : ∀ raw x, create raw = .ok x → create (value x) = .ok x) {field : Option Str}
    {x : Option β} (h : field.mapM create = .ok x) : (x.map value).mapM create = .ok x := by
  cases field with
  | none =>
    obtain rfl := Except.ok.inj h
    rfl
  | some raw =>
    obtain ⟨y, hy, hx⟩ := except_bind_eq_ok h
    obtain rfl := Except.ok.inj hx
    simp [hcreate raw y hy, Functor.map, Except.map]

/-- An optional field is there after its validation if it was there before. -/
theorem isSome_of_mapM {β : Type} {create : Str → Except Str β} {field : Option Str}
    {x : Option β} (h : field.mapM create = .ok x) : x.isSome = field.isSome := by
  cases field with
  | none =>
    obtain rfl := Except.ok.inj h
    rfl
  | some raw =>
    obtain ⟨y, -, hx⟩ := except_bind_eq_ok h
    obtain rfl := Except.ok.inj hx
    rfl

/-- A sign-up with the normalised fields is accepted, and gives the same fields. -/
theorem signUp_idempotent {policy : SignUpPolicy} {cmd : SignUpCommand}
    {input : NormalizedSignUpInput} (h : signUpValidateAndNormalize policy cmd = .ok input) :
    signUpValidateAndNormalize policy input.command = .ok input := by
  have haccepted := signUpAccepted h
  have hemail : input.command.email.isSome = cmd.email.isSome := by
    rw [NormalizedSignUpInput.command, Option.isSome_map, isSome_of_mapM haccepted.email]
  have hphone : input.command.phone.isSome = cmd.phone.isSome := by
    rw [NormalizedSignUpInput.command, Option.isSome_map, isSome_of_mapM haccepted.phone]
  simp only [signUpValidateAndNormalize, except_ite_eq_ok, except_mapError_eq_ok,
    signUpInput_eq_ok, ← Option.not_isSome, hemail, hphone] at h ⊢
  refine ⟨h.1, h.2.1, h.2.2.1, ?_⟩
  constructor
  case password =>
    rw [NormalizedSignUpInput.command, haccepted.samePassword]
    exact haccepted.password
  case samePassword => rfl
  case username =>
    exact Username.create_eq_ok.mpr (Username.normalize_value haccepted.username).symm
  case email =>
    exact mapM_value (fun raw email h => Email.create_eq_ok.mpr (Email.normalize_value h).symm)
      haccepted.email
  case phone =>
    exact mapM_value (fun raw phone _ => Phone.create_eq_ok.mpr phone.normalize_value.symm)
      haccepted.phone

/-- A value object accepts exactly the strings of its grammar, and its value is accepted again
and is its own normal form. The validator accepts exactly the sign-ups whose fields are well
formed, and what it accepts stays as it is. -/
theorem signUp_grammar :
    (∀ raw, (∃ username, Username.create raw = .ok username) ↔ RawUsername raw) ∧
    (∀ raw, (∃ email, Email.create raw = .ok email) ↔ RawEmail raw) ∧
    (∀ raw, (∃ phone, Phone.create raw = .ok phone) ↔ RawPhone raw) ∧
    (∀ raw username, Username.create raw = .ok username →
      Username.create username.value = .ok username ∧
      Username.normalize username.value = username.value) ∧
    (∀ raw email, Email.create raw = .ok email →
      Email.create email.value = .ok email ∧ Email.normalize email.value = email.value) ∧
    (∀ raw phone, Phone.create raw = .ok phone →
      Phone.create phone.value = .ok phone ∧ Phone.normalize phone.value = phone.value) ∧
    (∀ policy cmd,
      (∃ input, signUpValidateAndNormalize policy cmd = .ok input) ↔ SignUpText policy cmd) ∧
    ∀ policy cmd input, signUpValidateAndNormalize policy cmd = .ok input →
      signUpValidateAndNormalize policy input.command = .ok input := by
  refine ⟨Username.accepts_iff, Email.accepts_iff, Phone.accepts_iff, ?_, ?_, ?_,
    signUp_accepts_iff, fun policy cmd input => signUp_idempotent⟩
  · intro raw username h
    have hnormal := Username.normalize_value h
    exact ⟨Username.create_eq_ok.mpr hnormal.symm, hnormal⟩
  · intro raw email h
    have hnormal := Email.normalize_value h
    exact ⟨Email.create_eq_ok.mpr hnormal.symm, hnormal⟩
  · intro raw phone _
    exact ⟨Phone.create_eq_ok.mpr phone.normalize_value.symm, phone.normalize_value⟩

end SmirklyAuth
