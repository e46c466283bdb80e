import Mathlib.Logic.Equiv.List
import SmirklyAuth.Proofs.IssuedTokens
import SmirklyAuth.Proofs.TokenEncoding

/-!
# `SmirklyAuth.Proofs.TokenClaims`: what a parser reads from a generated token

A parser of one provider meets a token that another provider with the same libraries has
generated. What it decodes is what was signed (`decodeToken_generated`), and the checks then
compare the two configurations and the two types (`checkClaims_tokenObject`). The round trip,
the two kinds of tokens and the foreign configurations are three cases of these two equations.

`KeyPair` says that the two keys of a configuration belong together. Without it a parser may
reject the tokens of its own provider, but never reads anything else from them.
-/

set_option autoImplicit false

namespace SmirklyAuth

namespace JwtCppTokenProvider

variable {p q : JwtCppTokenProvider} {userId sessionId : Str} {familyId : Option Str}
  {tokenType : Str} {ttl : Seconds} {now now' : Int} {token : Str}

/-! ### The members of a signed token -/

section

variable (p userId sessionId familyId tokenType ttl now)

/-- The expiry of a signed token. -/
theorem lookup_exp : (p.tokenObject userId sessionId familyId tokenType ttl now).payload.lookup
    (lit "exp") = some (.number (p.lib.numericDate (Time.plus now ttl))) := by
  cases familyId <;> rfl

/-- The family of a signed token. -/
theorem getString_fam (family : Str) :
    (p.tokenObject userId sessionId (some family) tokenType ttl now).payload.getString (lit "fam")
      = .ok family := rfl

end

/-! ### Decoding -/

/-- The signature of a token verifies with the public key of the provider. -/
def verifies (q : JwtCppTokenProvider) (token : Str) : Bool :=
  (q.lib.verified q.config.publicKeyPem token).isSome

/-- A token of the lifetime `ttl` that was generated at `now` has not expired at `now'`. -/
def beforeExpiry (p : JwtCppTokenProvider) (ttl : Seconds) (now now' : Int) : Bool :=
  !p.lib.expired (p.lib.numericDate (Time.plus now ttl)) now'

/-- A generated token is a signed one. -/
theorem sign_of_generateToken
    (h : p.generateToken userId sessionId familyId tokenType ttl now = .ok token) :
    p.lib.sign p.config.privateKeyPem
      (p.tokenObject userId sessionId familyId tokenType ttl now) = .ok token := by
  unfold generateToken at h
  split at h
  · rename_i token' hsign
    rw [hsign, h]
  · cases h

/-- A generated token decodes to what was signed, or not at all. -/
theorem decodeToken_generated (hlib : q.lib = p.lib)
    (h : p.generateToken userId sessionId familyId tokenType ttl now = .ok token) :
    q.decodeToken token now' =
      if q.verifies token && p.beforeExpiry ttl now now' then
        .ok (p.tokenObject userId sessionId familyId tokenType ttl now)
      else .error .other := by
  have hexp := lookup_exp p userId sessionId familyId tokenType ttl now
  have hsign := sign_of_generateToken h
  cases hverified : q.lib.verified q.config.publicKeyPem token with
  | none => simp [decodeToken, JwtLibrary.decode, verifies, hverified]
  | some obj =>
    rw [← hlib] at hsign
    obtain rfl := q.lib.verified_sign hsign hverified
    have hunexpired : q.lib.unexpired (p.tokenObject userId sessionId familyId tokenType ttl now)
        now' = p.beforeExpiry ttl now now' := by
      rw [JwtLibrary.unexpired, hexp, hlib]
      rfl
    simp only [decodeToken, JwtLibrary.decode, verifies, hverified, Option.isSome_some,
      Bool.true_and]
    cases hbefore : p.beforeExpiry ttl now now' with
    | false => simp [Option.filter, hunexpired, hbefore]
    | true => simp [Option.filter, hunexpired, hbefore]

/-! ### The checks -/

/-- The checks of a parser of `q` on a token of `p` compare the configurations and the types. -/
theorem checkClaims_tokenObject (expected : Str) (invalid : Error) :
    q.checkClaims expected invalid (p.tokenObject userId sessionId familyId tokenType ttl now) =
      (do
        failIf (p.config.keyId != q.config.keyId) (.auth invalid)
        failIf (p.config.issuer != q.config.issuer) (.auth invalid)
        failIf (p.config.audience != q.config.audience) (.auth invalid)
        failIf (tokenType != expected) (.auth invalid)
        let user ← q.canonicalUuid userId
        let session ← q.canonicalUuid sessionId
        return (user, session)) := by
  cases familyId <;> rfl

/-- The two providers write and expect the same key id, issuer and audience. -/
structure SameAudience (p q : JwtCppTokenProvider) : Prop where
  keyId : p.config.keyId = q.config.keyId
  issuer : p.config.issuer = q.config.issuer
  audience : p.config.audience = q.config.audience

/-- A token of another configuration or of another type does not pass the checks. -/
theorem checkClaims_eq_error {expected : Str} (invalid : Error)
    (h : ¬ (SameAudience p q ∧ tokenType = expected)) :
    q.checkClaims expected invalid (p.tokenObject userId sessionId familyId tokenType ttl now)
      = .error (.auth invalid) := by
  -- whichever of the four checks fails first, the exception is the same
  have hchecks (a b c d : Bool) (rest : Except JwtException (Uuid × Uuid))
      (hany : (a || b || c || d) = true) :
      (do failIf a (JwtException.auth invalid); failIf b (.auth invalid); failIf c (.auth invalid)
          failIf d (.auth invalid); rest) = .error (.auth invalid) := by
    cases a <;> cases b <;> cases c <;> cases d <;> first | rfl | cases hany
  rw [checkClaims_tokenObject]
  apply hchecks
  by_contra hnone
  simp only [Bool.or_eq_true, bne_iff_ne, ne_eq, not_or, not_not] at hnone
  exact h ⟨⟨hnone.1.1.1, hnone.1.1.2, hnone.1.2⟩, hnone.2⟩

/-- A token of the own configuration and of the expected type passes the checks. -/
theorem checkClaims_eq_ok {user session : Uuid} (invalid : Error)
    (huser : p.lib.uuidFromString userId = some user)
    (hsession : p.lib.uuidFromString sessionId = some session) :
    p.checkClaims tokenType invalid (p.tokenObject userId sessionId familyId tokenType ttl now)
      = .ok (user, session) := by
  rw [checkClaims_tokenObject]
  simp only [bne_self_eq_false, failIf_false, canonicalUuid, huser, hsession]
  rfl

/-! ### The parsers -/

/-- The exceptions of the two parsers. -/
def invalidRefresh : Error := .invalidRefreshToken "invalid refresh token"

/-- The exception for an access token. -/
def invalidAccess : Error := .invalidAccessToken "invalid access token"

/-- A refresh token of another audience or another kind is refused. -/
theorem parseRefreshToken_eq_error (hlib : q.lib = p.lib)
    (hgenerated : p.generateToken userId sessionId familyId tokenType ttl now = .ok token)
    (h : ¬ (SameAudience p q ∧ tokenType = kRefreshTokenType)) :
    q.parseRefreshToken token now' = .error invalidRefresh := by
  unfold parseRefreshToken
  rw [decodeToken_generated hlib hgenerated]
  split
  · show (q.refreshClaims _).mapError _ = _
    rw [refreshClaims, checkClaims_eq_error _ h]
    rfl
  · rfl

/-- An access token of another audience or another kind is refused. -/
theorem parseAccessToken_eq_error (hlib : q.lib = p.lib)
    (hgenerated : p.generateToken userId sessionId familyId tokenType ttl now = .ok token)
    (h : ¬ (SameAudience p q ∧ tokenType = kAccessTokenType)) :
    q.parseAccessToken token now' = .error invalidAccess := by
  unfold parseAccessToken
  rw [decodeToken_generated hlib hgenerated]
  split
  · show (q.accessClaims _).mapError _ = _
    rw [accessClaims, checkClaims_eq_error _ h]
    rfl
  · rfl

/-- The refresh parser on a token of its own provider. -/
theorem parseRefreshToken_own {family : Str} {user session familyUuid : Uuid}
    (huser : p.lib.uuidFromString userId = some user)
    (hsession : p.lib.uuidFromString sessionId = some session)
    (hfamily : p.lib.uuidFromString family = some familyUuid)
    (hgenerated : p.generateRefreshToken userId sessionId family now = .ok token) :
    p.parseRefreshToken token now' =
      if p.verifies token && p.beforeExpiry p.config.refreshTtl now now' then
        .ok ⟨user, session, some familyUuid⟩
      else .error invalidRefresh := by
  unfold parseRefreshToken
  rw [decodeToken_generated rfl hgenerated]
  split
  · show (p.refreshClaims _).mapError _ = _
    rw [refreshClaims, checkClaims_eq_ok _ huser hsession, getString_fam]
    show Except.mapError _
      (Except.ok (RefreshTokenClaims.mk user session (p.canonicalUuid family).toOption)) = _
    rw [canonicalUuid, hfamily]
    rfl
  · rfl

/-- The access parser on a token of its own provider. -/
theorem parseAccessToken_own {user session : Uuid}
    (huser : p.lib.uuidFromString userId = some user)
    (hsession : p.lib.uuidFromString sessionId = some session)
    (hgenerated : p.generateAccessToken userId sessionId now = .ok token) :
    p.parseAccessToken token now' =
      if p.verifies token && p.beforeExpiry p.config.accessTtl now now' then .ok ⟨user, session⟩
      else .error invalidAccess := by
  unfold parseAccessToken
  rw [decodeToken_generated rfl hgenerated]
  split
  · show (p.accessClaims _).mapError _ = _
    rw [accessClaims, checkClaims_eq_ok _ huser hsession]
    rfl
  · rfl

/-! ### Providers that were accepted -/

/-- A provider that is built has its configuration. -/
theorem create_eq_ok {lib : JwtLibrary} {ssl : OpenSsl} {config : JwtConfig}
    (h : create lib ssl config = .ok p) : p.lib = lib ∧ p.config = config := by
  unfold create at h
  obtain ⟨_, _, h⟩ := except_bind_eq_ok h
  obtain ⟨_, _, h⟩ := except_bind_eq_ok h
  obtain rfl := Except.ok.inj h
  exact ⟨rfl, rfl⟩

/-- With keys that belong together every token is generated, and its signature verifies. -/
theorem exists_generateToken (hkeys : p.lib.KeyPair p.config.privateKeyPem p.config.publicKeyPem)
    (userId sessionId : Str) (familyId : Option Str) (tokenType : Str) (ttl : Seconds)
    (now : Int) :
    ∃ token, p.generateToken userId sessionId familyId tokenType ttl now = .ok token ∧
      p.verifies token = true := by
  obtain ⟨token, hsign, hverifies⟩ :=
    hkeys (p.tokenObject userId sessionId familyId tokenType ttl now)
  refine ⟨token, ?_, hverifies⟩
  unfold generateToken
  rw [hsign]

/-- The provider reads back what it generated from these texts, as long as it has not expired. -/
structure RoundTrips (p : JwtCppTokenProvider) (userId sessionId family : Str)
    (claims : RefreshTokenClaims) (now : Int) : Prop where
  refresh : ∃ token, p.generateRefreshToken userId sessionId family now = .ok token ∧
    ∀ now', p.beforeExpiry p.config.refreshTtl now now' = true →
      p.parseRefreshToken token now' = .ok claims
  access : ∃ token, p.generateAccessToken userId sessionId now = .ok token ∧
    ∀ now', p.beforeExpiry p.config.accessTtl now now' = true →
      p.parseAccessToken token now' = .ok ⟨claims.userId, claims.sessionId⟩

/-- A token is read as what it was made from. -/
theorem roundTrips {family : Str} {user session familyUuid : Uuid}
    (hkeys : p.lib.KeyPair p.config.privateKeyPem p.config.publicKeyPem)
    (huser : p.lib.uuidFromString userId = some user)
    (hsession : p.lib.uuidFromString sessionId = some session)
    (hfamily : p.lib.uuidFromString family = some familyUuid) (now : Int) :
    p.RoundTrips userId sessionId family ⟨user, session, some familyUuid⟩ now where
  refresh := by
    obtain ⟨token, hgenerated, hverifies⟩ := exists_generateToken hkeys userId sessionId
      (some family) kRefreshTokenType p.config.refreshTtl now
    refine ⟨token, hgenerated, ?_⟩
    intro now' hbefore
    rw [parseRefreshToken_own huser hsession hfamily hgenerated, hverifies, hbefore]
    rfl
  access := by
    obtain ⟨token, hgenerated, hverifies⟩ := exists_generateToken hkeys userId sessionId
      none kAccessTokenType p.config.accessTtl now
    refine ⟨token, hgenerated, ?_⟩
    intro now' hbefore
    rw [parseAccessToken_own huser hsession hgenerated, hverifies, hbefore]
    rfl

/-- The provider has generated the token as a refresh token. -/
def IssuedRefresh (p : JwtCppTokenProvider) (token : Str) : Prop :=
  ∃ userId sessionId family now, p.generateRefreshToken userId sessionId family now = .ok token

/-- The provider has generated the token as an access token. -/
def IssuedAccess (p : JwtCppTokenProvider) (token : Str) : Prop :=
  ∃ userId sessionId now, p.generateAccessToken userId sessionId now = .ok token

/-- The refresh parser throws `InvalidRefreshToken`, at any time. -/
def RejectsRefresh (q : JwtCppTokenProvider) (token : Str) : Prop :=
  ∀ now, q.parseRefreshToken token now = .error invalidRefresh

/-- The access parser throws `InvalidAccessToken`, at any time. -/
def RejectsAccess (q : JwtCppTokenProvider) (token : Str) : Prop :=
  ∀ now, q.parseAccessToken token now = .error invalidAccess

/-- Claims round-trip through a token in any spelling of the identifiers, the two kinds of
tokens are disjoint, and a provider with another key id, issuer or audience rejects both kinds,
whatever its keys are. -/
theorem tokens_roundTrip_disjoint (lib : JwtLibrary) (ssl : OpenSsl) (config config' : JwtConfig)
    (p q : JwtCppTokenProvider) (hp : create lib ssl config = .ok p)
    (hq : create lib ssl config' = .ok q) :
    (lib.KeyPair config.privateKeyPem config.publicKeyPem →
      ∀ userId sessionId family user session familyUuid,
        lib.uuidFromString userId = some user → lib.uuidFromString sessionId = some session →
        lib.uuidFromString family = some familyUuid →
        ∀ now, p.RoundTrips userId sessionId family ⟨user, session, some familyUuid⟩ now) ∧
    (∀ token, p.IssuedRefresh token → p.RejectsAccess token) ∧
    (∀ token, p.IssuedAccess token → p.RejectsRefresh token) ∧
    (config'.keyId ≠ config.keyId ∨ config'.issuer ≠ config.issuer ∨
        config'.audience ≠ config.audience →
      ∀ token, p.IssuedRefresh token ∨ p.IssuedAccess token →
        q.RejectsRefresh token ∧ q.RejectsAccess token) := by
  obtain ⟨rfl, rfl⟩ := create_eq_ok hp
  obtain ⟨hlib, rfl⟩ := create_eq_ok hq
  refine ⟨?_, ?_, ?_, ?_⟩
  · intro hkeys userId sessionId family user session familyUuid huser hsession hfamily now
    exact roundTrips hkeys huser hsession hfamily now
  · rintro token ⟨userId, sessionId, family, now, hgenerated⟩ now'
    apply parseAccessToken_eq_error rfl hgenerated
    rintro ⟨_, htype⟩
    exact absurd htype (by decide)
  · rintro token ⟨userId, sessionId, now, hgenerated⟩ now'
    apply parseRefreshToken_eq_error rfl hgenerated
    rintro ⟨_, htype⟩
    exact absurd htype (by decide)
  · intro hforeign token hissued
    have hdifferent : ¬ SameAudience p q := by
      rintro ⟨hkeyId, hissuer, haudience⟩
      rcases hforeign with h | h | h
      · exact h hkeyId.symm
      · exact h hissuer.symm
      · exact h haudience.symm
    rcases hissued with ⟨userId, sessionId, family, now, hgenerated⟩ |
      ⟨userId, sessionId, now, hgenerated⟩
    · exact ⟨fun now' => parseRefreshToken_eq_error hlib hgenerated fun h => hdifferent h.1,
        fun now' => parseAccessToken_eq_error hlib hgenerated fun h => hdifferent h.1⟩
    · exact ⟨fun now' => parseRefreshToken_eq_error hlib hgenerated fun h => hdifferent h.1,
        fun now' => parseAccessToken_eq_error hlib hgenerated fun h => hdifferent h.1⟩

/-! ### The provider as a port -/

/-- The provider keeps the law that the service relies on. -/
theorem tokenLaw_port (hkeys : p.lib.KeyPair p.config.privateKeyPem p.config.publicKeyPem)
    (hcanonical : ∀ u : Uuid, p.lib.uuidFromString u.text = some u)
    (hempty : p.lib.verified p.config.publicKeyPem [] = none) : TokenLaw p.port := by
  have htoken (user session family : Uuid) (t : Time) : ∃ obj,
      p.lib.verified p.config.publicKeyPem (p.port.generateTokens user session family t).accessToken
        = some obj ∧ p.accessClaims obj = .ok ⟨user, session⟩ := by
    obtain ⟨token, hgenerated, hverifies⟩ := exists_generateToken hkeys user.text session.text
      none kAccessTokenType p.config.accessTtl t
    obtain ⟨obj, hobj⟩ := Option.isSome_iff_exists.mp hverifies
    have haccess : (p.port.generateTokens user session family t).accessToken = token := by
      show (Except.toOption (p.generateToken _ _ _ _ _ _)).getD [] = token
      rw [hgenerated]
      rfl
    rw [haccess]
    refine ⟨obj, hobj, ?_⟩
    obtain rfl := p.lib.verified_sign (sign_of_generateToken hgenerated) hobj
    rw [accessClaims, checkClaims_eq_ok _ (hcanonical user) (hcanonical session)]
    rfl
  constructor
  · intro user session family t
    obtain ⟨obj, hobj, hclaims⟩ := htoken user session family t
    show Option.bind (p.lib.verified p.config.publicKeyPem _) _ = _
    rw [hobj, Option.bind_some, hclaims]
    rfl
  · intro user session family t hnil
    obtain ⟨obj, hobj, _⟩ := htoken user session family t
    rw [hnil, hempty] at hobj
    cases hobj

end JwtCppTokenProvider

/-! ### Texts as signatures -/

/-- A code number for every byte, so that objects have one. -/
instance encodableUInt8 : Encodable UInt8 :=
  Encodable.ofLeftInverse UInt8.toNat UInt8.ofNat fun _ => UInt8.ofNat_toNat

/-- A value is a string or a number. -/
def JsonValue.equiv : JsonValue ≃ Str ⊕ Int where
  toFun
    | .string value => .inl value
    | .number value => .inr value
  invFun
    | .inl value => .string value
    | .inr value => .number value
  left_inv v := by cases v <;> rfl
  right_inv v := by cases v <;> rfl

instance : Encodable JsonValue := Encodable.ofEquiv _ JsonValue.equiv

instance : Encodable JwtObject :=
  Encodable.ofEquiv (JsonMembers × JsonMembers)
    ⟨fun obj => (obj.header, obj.payload), fun m => ⟨m.1, m.2⟩, fun _ => rfl, fun _ => rfl⟩

/-- The value of a hexadecimal digit, in lower or upper case. -/
def hexValue (c : UInt8) : Option Nat :=
  (List.range 16).find? fun n => hexDigit n == c || (10 ≤ n && hexDigit n == c + 32)

/-- The digits of a UUID: without braces, and without the four dashes if it has them. -/
def uuidDigits (s : Str) : Str :=
  let s := if s.head? = some 123 ∧ s.getLast? = some 125 then s.tail.dropLast else s
  if s.length = 36 ∧ [8, 13, 18, 23].all fun n => s.drop n |>.head? |>.any (· == 45) then
    s.take 8 ++ (s.drop 9).take 4 ++ (s.drop 14).take 4 ++ (s.drop 19).take 4 ++ s.drop 24
  else s

/-- A library whose token is the code number of the key and of what was signed, in unary. A key
verifies what it has signed. The parser of UUIDs takes the spellings that are documented for
`boost::uuids::string_generator`: with or without dashes, with or without braces. -/
def unaryJwtLibrary : JwtLibrary where
  sign key obj := .ok (List.replicate (Encodable.encode (key, obj)) 49)
  verified key token := do
    let (signer, obj) ← (Encodable.decode token.length : Option (Str × JwtObject))
    if signer = key then some obj else none
  numericDate t := t.tdiv 1000000000
  expired exp now := exp < now.tdiv 1000000000
  uuidFromString s := do
    let digits ← (uuidDigits s).mapM hexValue
    if digits.length = 32 then some ⟨BitVec.ofNat 128 (digits.foldl (fun n d => 16 * n + d) 0)⟩
    else none
  verified_sign := by
    intro privateKey publicKey obj obj' token hsign hverified
    obtain rfl := Except.ok.inj hsign
    rw [List.length_replicate, Encodable.encodek] at hverified
    simp only [Option.bind_eq_bind, Option.bind_some] at hverified
    split at hverified
    · exact (Option.some.inj hverified).symm
    · cases hverified

/-- A key verifies what it has signed. -/
theorem unaryJwtLibrary_keyPair (key : Str) : unaryJwtLibrary.KeyPair key key := by
  intro obj
  refine ⟨_, rfl, ?_⟩
  show Option.isSome (Option.bind (Encodable.decode (List.replicate _ _).length) _) = true
  rw [List.length_replicate, Encodable.encodek]
  simp

/-- A configuration that the constructor accepts. -/
def unitJwtConfig : JwtConfig where
  privateKeyPem := "unit key"
  publicKeyPem := "unit key"
  keyId := "unit-rs256"
  issuer := "smirkly-auth-unit"
  audience := "smirkly-api-unit"
  accessTtl := 900
  refreshTtl := 3600

/-- Identifiers in canonical spelling, in compact spelling and in braces come back, and a provider
for another audience with the same keys rejects the tokens. -/
theorem tokens_roundTrip_disjoint_unitUser :
    ∃ p q, JwtCppTokenProvider.create unaryJwtLibrary documentedOpenSsl unitJwtConfig = .ok p ∧
      JwtCppTokenProvider.create unaryJwtLibrary documentedOpenSsl
        { unitJwtConfig with audience := "other-api" } = .ok q ∧
      p.RoundTrips "00000000-0000-0000-0000-000000000001" "00000000000000000000000000000002"
        "\x7b00000000-0000-0000-0000-000000000003\x7d" ⟨⟨1⟩, ⟨2⟩, some ⟨3⟩⟩ 0 ∧
      p.beforeExpiry unitJwtConfig.accessTtl 0 1 = true ∧
      ∀ token, p.IssuedRefresh token → p.RejectsAccess token ∧ q.RejectsRefresh token := by
  refine ⟨_, _, rfl, rfl, ?_⟩
  obtain ⟨hroundTrips, hkinds, _, hforeign⟩ := JwtCppTokenProvider.tokens_roundTrip_disjoint
    unaryJwtLibrary documentedOpenSsl unitJwtConfig { unitJwtConfig with audience := "other-api" }
    _ _ rfl rfl
  refine ⟨?_, by decide, ?_⟩
  · exact hroundTrips (unaryJwtLibrary_keyPair _) _ _ _ ⟨1⟩ ⟨2⟩ ⟨3⟩ (by decide +kernel)
      (by decide +kernel) (by decide +kernel) 0
  · intro token hissued
    have hrejected := hforeign (.inr (.inr (by decide))) token (.inl hissued)
    exact ⟨hkinds token hissued, hrejected.1⟩

end SmirklyAuth
