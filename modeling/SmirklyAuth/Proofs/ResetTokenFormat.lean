import SmirklyAuth.Api.EmailHandlers
import SmirklyAuth.Components.AuthSecurityComponent
import SmirklyAuth.Proofs.TokenClaims

/-!
# `SmirklyAuth.Proofs.ResetTokenFormat`: can an issued reset token be submitted

The generator encodes `n` random bytes as `⌈4 n / 3⌉` characters, and the handler of
`password-reset/confirm` takes at most 512. The configuration bounds `n` from below only, so the
two meet exactly up to 384 bytes (`length_generate`, `redeemable_iff_of_generate`).

Above `2 ^ 31` the generator passes a cast of `n` to `RAND_bytes`. When the cast is negative the
library fails and no token is issued.
-/

set_option autoImplicit false

namespace SmirklyAuth

/-! ### The generator -/

namespace RandomTokenGenerator

/-- A token that is returned encodes as many bytes as are configured, also when the library was
asked for fewer. -/
theorem length_generate {g : RandomTokenGenerator} {rand : RandBytes} {token : Str}
    (h : g.generate rand = .ok token) :
    0 ≤ toInt32 g.byteLength ∧ token.length = (4 * g.byteLength + 2) / 3 := by
  simp only [generate, List.length_replicate] at h
  split at h
  · cases h
  · rename_i random hfill
    obtain rfl := Except.ok.inj h
    have hlength := rand.length_fill _ _ hfill
    have hle := toInt_ofNat_le 32 g.byteLength
    have hbytes : (random ++ (List.replicate g.byteLength 0).drop random.length).length
        = g.byteLength := by
      rw [List.length_append, List.length_drop, List.length_replicate]
      unfold toInt32 at hlength
      omega
    rw [base64UrlNoPadding_eq, base64Url.length_encode, hbytes]
    exact ⟨by omega, rfl⟩

/-- A library that always succeeds, with zeros for random bytes. -/
def zeroBytes : RandBytes where
  fill num := if num < 0 then none else some (List.replicate num.toNat 0)
  length_fill num bytes h := by
    split at h
    · cases h
    · obtain rfl := Option.some.inj h
      rw [List.length_replicate]
      omega

/-- A length that is no negative `int` gives a token. -/
theorem exists_generate {g : RandomTokenGenerator} (h : 0 ≤ toInt32 g.byteLength) :
    ∃ token, g.generate zeroBytes = .ok token := by
  have hfill : zeroBytes.fill (toInt32 g.byteLength)
      = some (List.replicate (toInt32 g.byteLength).toNat 0) := if_neg (not_lt.mpr h)
  simp only [generate, List.length_replicate, hfill]
  exact ⟨_, rfl⟩

end RandomTokenGenerator

/-! ### The handler and the stored row -/

/-- The handler of `password-reset/confirm` passes the token on to the use case. -/
def Submittable (token : Str) : Prop :=
  ∀ ports passwordPolicy policies email newPassword reqMeta, isValidEmailShape email = true →
    passwordResetConfirmHandler ports passwordPolicy policies (some email) (some token)
        (some newPassword) reqMeta
      = noContentOrError .generic (PasswordService.confirmReset ports passwordPolicy policies
          ⟨email, token, newPassword⟩ reqMeta)

/-- The row that `RequestReset` stores for the token verifies with it. -/
def VerifiesStored (hasher : HmacSha256TokenHasher) (token : Str) : Prop :=
  ∀ ports policy userId email reqMeta now i db db', ports.resetTokenHasher = hasher.port →
    i.secret = token →
    PasswordService.issueResetTx ports policy userId email reqMeta now i db = .ok ((), db') →
    ∃ row rows, db'.passwordResets = rows ++ [row] ∧ row.userId = userId ∧
      ports.resetTokenHasher.verify token row.secretHash = true

/-- A token fits the hash that was stored for it. -/
theorem verifiesStored (hasher : HmacSha256TokenHasher) (token : Str) :
    VerifiesStored hasher token := by
  intro ports policy userId email reqMeta now i db db' hport hsecret htx
  obtain ⟨row, _, _, ⟨huser, hhash⟩, _, _, rfl⟩ := issueResetTx_eq_ok htx
  rw [hsecret, hport] at hhash
  refine ⟨row, _, rfl, huser, ?_⟩
  rw [hport, hhash]
  exact hasher.verify_hash token

/-- A token of up to 512 characters passes the handler. -/
theorem submittable_of_length {token : Str} (hpos : 0 < token.length)
    (hle : token.length ≤ 512) : Submittable token := by
  intro ports passwordPolicy policies email newPassword reqMeta hemail
  have hformat : (token.isEmpty || decide (512 < token.length)) = false := by
    rw [List.isEmpty_eq_false_iff.mpr (List.ne_nil_of_length_pos hpos)]
    simpa using hle
  simp only [passwordResetConfirmHandler, hemail, hformat]
  rfl

/-- The handler answers a longer token itself. With an empty password the use case would have
answered differently. -/
theorem not_submittable_of_length {token : Str} (hlt : 512 < token.length) :
    ¬ Submittable token := by
  intro h
  have hemail : isValidEmailShape (lit "unit@example.com") = true := by decide
  have hformat : (token.isEmpty || decide (512 < token.length)) = true := by simp [hlt]
  have heq := h plainApp.ports {} {} (lit "unit@example.com") [] {} hemail
  unfold passwordResetConfirmHandler at heq
  simp only [hemail, Bool.not_true, Bool.false_eq_true, if_false, hformat, if_true] at heq
  exact absurd (Interleaving.Prog.done.inj heq) (by decide)

/-- The token passes the format check, and verifies against what is stored for it. -/
structure Redeemable (hasher : HmacSha256TokenHasher) (token : Str) : Prop where
  submittable : Submittable token
  verifies : VerifiesStored hasher token

/-- A generated token can be redeemed when it has at most 384 bytes. -/
theorem redeemable_iff_of_generate {g : RandomTokenGenerator} {rand : RandBytes} {token : Str}
    (hasher : HmacSha256TokenHasher) (h : g.generate rand = .ok token) :
    Redeemable hasher token ↔ g.byteLength ≤ 384 := by
  have hlength := (RandomTokenGenerator.length_generate h).2
  have hbytes := g.atLeast
  constructor
  · intro hredeemable
    by_contra hlarge
    exact not_submittable_of_length (by omega) hredeemable.submittable
  · intro hsmall
    exact ⟨submittable_of_length (by omega) (by omega), verifiesStored hasher token⟩

/-! ### The accepted configurations -/

/-- The number of random bytes that a configuration asks for. -/
def AuthSecurityYaml.tokenBytes (cfg : AuthSecurityYaml) : Nat :=
  (cfg.passwordResetTokenBytes.getD 32).toInt.toNat

/-- A size of the static configuration. -/
theorem AuthSecurityConfig.parseSize_eq_ok {value : Option Int64} {key : Str} {d n : Nat}
    (h : AuthSecurityConfig.parseSize value key d = .ok n) :
    n = (value.getD (Int64.ofNat d)).toInt.toNat := by
  simp only [AuthSecurityConfig.parseSize] at h
  split at h
  · cases h
  · exact (Except.ok.inj h).symm

/-- The bytes of a token are those of the configuration, or the default. -/
theorem AuthSecurityConfig.passwordResetTokenBytes_eq {cfg : AuthSecurityYaml}
    {settings : AuthSecuritySettings}
    (h : AuthSecurityConfig.parseAuthSecuritySettings cfg = .ok settings) :
    settings.passwordResetTokenBytes = cfg.tokenBytes := by
  unfold parseAuthSecuritySettings at h
  obtain ⟨_, _, h⟩ := except_bind_eq_ok h
  obtain ⟨_, _, h⟩ := except_bind_eq_ok h
  obtain ⟨_, hbytes, h⟩ := except_bind_eq_ok h
  obtain ⟨_, _, h⟩ := except_bind_eq_ok h
  obtain ⟨_, _, h⟩ := except_bind_eq_ok h
  obtain rfl := Except.ok.inj h
  exact parseSize_eq_ok hbytes

/-- The generator of the component has that many bytes. -/
theorem AuthSecurityComponent.byteLength_eq {platform : SecurityPlatform} {cfg : AuthSecurityYaml}
    {component : AuthSecurityComponent}
    (h : AuthSecurityComponent.create platform cfg = .ok component) :
    component.passwordResetTokenGenerator.byteLength = cfg.tokenBytes := by
  unfold AuthSecurityComponent.create at h
  obtain ⟨settings, hsettings, h⟩ := except_bind_eq_ok h
  iterate 4 obtain ⟨_, _, h⟩ := except_bind_eq_ok h
  obtain ⟨generator, hgenerator, h⟩ := except_bind_eq_ok h
  obtain rfl := Except.ok.inj h
  rw [← AuthSecurityConfig.passwordResetTokenBytes_eq hsettings]
  unfold RandomTokenGenerator.create at hgenerator
  split at hgenerator
  · cases hgenerator
  · obtain rfl := Except.ok.inj hgenerator
    rfl

/-- A configuration issues redeemable tokens only, exactly when it asks for at most 384 random
bytes, or for a number that `RAND_bytes` refuses, so that it issues no token at all. -/
theorem issuedResetTokens_redeemable_iff (platform : SecurityPlatform) (cfg : AuthSecurityYaml)
    (component : AuthSecurityComponent)
    (hcreate : AuthSecurityComponent.create platform cfg = .ok component) :
    (∀ rand token, component.passwordResetTokenGenerator.generate rand = .ok token →
        Redeemable component.refreshTokenHasher token) ↔
      cfg.tokenBytes ≤ 384 ∨ toInt32 cfg.tokenBytes < 0 := by
  rw [← AuthSecurityComponent.byteLength_eq hcreate]
  constructor
  · intro h
    by_contra hnot
    obtain ⟨hlarge, hasked⟩ := not_or.mp hnot
    obtain ⟨token, htoken⟩ := RandomTokenGenerator.exists_generate (not_lt.mp hasked)
    exact hlarge ((redeemable_iff_of_generate _ htoken).mp (h _ token htoken))
  · intro h rand token htoken
    have hasked := (RandomTokenGenerator.length_generate htoken).1
    rcases h with hsmall | hnegative
    · exact (redeemable_iff_of_generate _ htoken).mpr hsmall
    · exact absurd hasked (not_le.mpr hnegative)

/-- Key files that can be read, and the libraries of the token proofs. -/
def unitPlatform : SecurityPlatform where
  files path := some path
  jwt := unaryJwtLibrary
  ssl := documentedOpenSsl
  hmac pepper data := pepper ++ data

/-- A configuration that asks for a number of random bytes, or for none in particular. -/
def unitSecurityYaml (tokenBytes : Option Int64) : AuthSecurityYaml where
  passwordResetTokenBytes := tokenBytes
  refreshTokenPepper := "refresh pepper"
  verificationCodePepper := "code pepper"
  jwt :=
    { privateKeyPath := "unit key", publicKeyPath := "unit key", keyId := "unit-rs256"
      issuer := "smirkly-auth-unit", audience := "smirkly-api-unit", accessTtl := 900
      refreshTtl := 3600 }

/-- The default of 32 bytes is redeemable. -/
theorem issuedResetTokens_redeemable_default :
    ∃ component, AuthSecurityComponent.create unitPlatform (unitSecurityYaml none) = .ok component ∧
      ∀ rand token, component.passwordResetTokenGenerator.generate rand = .ok token →
        Redeemable component.refreshTokenHasher token := by
  refine ⟨_, rfl, ?_⟩
  exact (issuedResetTokens_redeemable_iff unitPlatform (unitSecurityYaml none) _ rfl).mpr
    (.inl (by decide))

/-- 385 bytes are accepted by the schema, the parser and the generator. The token has 514
characters, and the handler rejects it with every address and every password. -/
theorem issuedResetToken_not_submittable_385 :
    AuthSecurityComponent.schemaAccepts (unitSecurityYaml (some 385)) = true ∧
    ∃ component token,
      AuthSecurityComponent.create unitPlatform (unitSecurityYaml (some 385)) = .ok component ∧
      component.passwordResetTokenGenerator.generate RandomTokenGenerator.zeroBytes = .ok token ∧
      token.length = 514 ∧ ¬ Submittable token := by
  obtain ⟨component, hcreate⟩ : ∃ component,
      AuthSecurityComponent.create unitPlatform (unitSecurityYaml (some 385)) = .ok component :=
    ⟨_, rfl⟩
  have hbytes : component.passwordResetTokenGenerator.byteLength = 385 := by
    rw [AuthSecurityComponent.byteLength_eq hcreate]
    decide
  obtain ⟨token, htoken⟩ := RandomTokenGenerator.exists_generate
    (g := component.passwordResetTokenGenerator) (by rw [hbytes]; decide)
  have hlength := (RandomTokenGenerator.length_generate htoken).2
  rw [hbytes] at hlength
  exact ⟨by decide, component, token, hcreate, htoken, hlength,
    not_submittable_of_length (by omega)⟩

end SmirklyAuth
