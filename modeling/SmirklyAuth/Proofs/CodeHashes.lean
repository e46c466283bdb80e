import Mathlib.Data.Set.Function
import SmirklyAuth.Infra.Security.HmacSha256

/-!
# `SmirklyAuth.Proofs.CodeHashes`: a stored hash belongs to one user and one code

`HmacSha256VerificationCodeHasher` hashes the user id and the code as one text, with NUL bytes
between the parts. A user id has no NUL byte, so the text determines both parts
(`buildScopedValue_inj`), whatever the code is. The digest is printed in hexadecimal, which
determines it (`toHex_injective`). What remains is the digest: HMAC-SHA256 has finitely many
values, so it is injective only on a set of inputs, and `used` is such a set.
-/

set_option autoImplicit false

namespace SmirklyAuth

/-! ### Hexadecimal text -/

/-- `kHex`. -/
def kHex : Str := "0123456789abcdef"

/-- The digits are distinct. -/
theorem hexDigit_inj : ∀ m < 16, ∀ n < 16, hexDigit m = hexDigit n → m = n := by
  decide

/-- A digit is one of the table. -/
theorem hexDigit_mem_kHex : ∀ n < 16, hexDigit n ∈ kHex := by
  decide

namespace HmacSha256TokenHasher

/-- Two digits for each byte. -/
@[simp] theorem toHex_cons (b : UInt8) (data : Str) :
    toHex (b :: data) = hexDigit (b.toNat / 16) :: hexDigit (b.toNat % 16) :: toHex data := rfl

/-- Two characters for each byte. -/
theorem length_toHex (data : Str) : (toHex data).length = 2 * data.length := by
  induction data with
  | nil => rfl
  | cons b data ih =>
    simp only [toHex_cons, List.length_cons, ih]
    omega

/-- The text has only digits of the table. -/
theorem mem_kHex_of_mem_toHex {data : Str} {c : UInt8} (h : c ∈ toHex data) : c ∈ kHex := by
  induction data with
  | nil => cases h
  | cons b data ih =>
    have hb := b.toNat_lt
    simp only [toHex_cons, List.mem_cons] at h
    rcases h with rfl | rfl | h
    · exact hexDigit_mem_kHex _ (by omega)
    · exact hexDigit_mem_kHex _ (by omega)
    · exact ih h

/-- The text determines the bytes: two digits at a time. -/
theorem toHex_injective : Function.Injective toHex := by
  intro xs
  induction xs with
  | nil =>
    intro ys h
    cases ys with
    | nil => rfl
    | cons y ys => cases h
  | cons x xs ih =>
    intro ys h
    cases ys with
    | nil => cases h
    | cons y ys =>
      have hx := x.toNat_lt
      have hy := y.toNat_lt
      simp only [toHex_cons, List.cons.injEq] at h
      have hhigh := hexDigit_inj _ (by omega) _ (by omega) h.1
      have hlow := hexDigit_inj _ (by omega) _ (by omega) h.2.1
      have hbyte : x = y := UInt8.toNat_inj.mp (by omega)
      rw [hbyte, ih h.2.2]

/-- The checks of `Verify` on the stored text amount to a comparison. -/
theorem verify_iff (h : HmacSha256TokenHasher) (token stored : Str) :
    h.verify token stored = true ↔ stored = h.hash token := by
  constructor
  · intro hverify
    unfold verify at hverify
    split at hverify
    · cases hverify
    · simp only at hverify
      split at hverify
      · cases hverify
      · exact (beq_iff_eq.mp hverify).symm
  · rintro rfl
    exact h.verify_hash token

end HmacSha256TokenHasher

/-! ### The scoped value -/

/-- The first separator ends the first part. -/
theorem append_cons_inj_of_notMem_left {sep : UInt8} {xs ys xs' ys' : Str} (hx : sep ∉ xs)
    (hx' : sep ∉ xs') (h : xs ++ sep :: ys = xs' ++ sep :: ys') : xs = xs' ∧ ys = ys' := by
  induction xs generalizing xs' with
  | nil =>
    cases xs' with
    | nil => exact ⟨rfl, (List.cons.inj h).2⟩
    | cons c rest =>
      have hsep : sep = c := (List.cons.inj h).1
      exact absurd (hsep ▸ List.mem_cons_self) hx'
  | cons c xs ih =>
    cases xs' with
    | nil =>
      have hsep : c = sep := (List.cons.inj h).1
      exact absurd (hsep ▸ List.mem_cons_self) hx
    | cons c' rest =>
      obtain ⟨rfl, htail⟩ := List.cons.inj h
      obtain ⟨rfl, hys⟩ := ih (fun hmem => hx (List.mem_cons_of_mem _ hmem))
        (fun hmem => hx' (List.mem_cons_of_mem _ hmem)) htail
      exact ⟨rfl, hys⟩

namespace HmacSha256VerificationCodeHasher

/-- The separator is not in an id, so that it marks the end of it. -/
theorem buildScopedValue_inj {userId userId' code code' : Str} (huser : 0 ∉ userId)
    (huser' : 0 ∉ userId')
    (h : buildScopedValue userId code = buildScopedValue userId' code') :
    userId = userId' ∧ code = code' := by
  simp only [buildScopedValue, List.append_assoc, List.append_cancel_left_eq,
    List.singleton_append] at h
  exact append_cons_inj_of_notMem_left huser huser' (List.cons.inj h).2

/-- A stored text that `Verify` accepts: the domain of the hash and 64 digits in lower case. -/
structure HashText (stored : Str) : Prop where
  head : stored.take HmacSha256TokenHasher.kHashPrefix.length = HmacSha256TokenHasher.kHashPrefix
  length : stored.length = HmacSha256TokenHasher.kHashPrefix.length + 64
  digits : ∀ c ∈ stored.drop HmacSha256TokenHasher.kHashPrefix.length, c ∈ kHex

/-- A hash has the form that the verification accepts. -/
theorem hashText_hash {h : HmacSha256VerificationCodeHasher}
    (hsize : ∀ data, (h.hmac.digest h.hmac.pepper data).length = 32) (userId code : Str) :
    HashText (h.hash userId code) where
  head := List.take_left
  length := by
    show (_ ++ HmacSha256TokenHasher.toHex _).length = _
    rw [List.length_append, HmacSha256TokenHasher.length_toHex, hsize]
  digits := by
    intro c hc
    have hdrop : (h.hash userId code).drop HmacSha256TokenHasher.kHashPrefix.length
        = HmacSha256TokenHasher.toHex
          (h.hmac.digest h.hmac.pepper (buildScopedValue userId code)) :=
      List.drop_left
    rw [hdrop] at hc
    exact HmacSha256TokenHasher.mem_kHex_of_mem_toHex hc

/-- A hash verifies with its own user and code only, and nothing verifies that is no hash. The
digest is assumed injective on the inputs that are used. -/
theorem verify_hash_iff (h : HmacSha256VerificationCodeHasher) (used : Set (Str × Str))
    (hsize : ∀ data, (h.hmac.digest h.hmac.pepper data).length = 32)
    (hinjective : Set.InjOn (h.hmac.digest h.hmac.pepper)
      (Set.image (fun input => buildScopedValue input.1 input.2) used)) :
    (∀ userId code userId' code', (userId, code) ∈ used → (userId', code') ∈ used →
      0 ∉ userId → 0 ∉ userId' →
      (h.verify userId' code' (h.hash userId code) = true ↔ userId' = userId ∧ code' = code)) ∧
    (∀ userId' code' stored, 0 ∉ userId' →
      (∀ userId code, 0 ∉ userId → stored ≠ h.hash userId code) →
      h.verify userId' code' stored = false) ∧
    (∀ userId' code' stored, ¬ HashText stored → h.verify userId' code' stored = false) := by
  have hverify (userId' code' stored : Str) :
      h.verify userId' code' stored = true ↔ stored = h.hash userId' code' :=
    h.hmac.verify_iff _ stored
  refine ⟨?_, ?_, ?_⟩
  · intro userId code userId' code' hused hused' huser huser'
    rw [hverify]
    constructor
    · intro heq
      have hdigest := HmacSha256TokenHasher.toHex_injective (List.append_cancel_left heq)
      have hscoped := hinjective (Set.mem_image_of_mem _ hused) (Set.mem_image_of_mem _ hused')
        hdigest
      obtain ⟨rfl, rfl⟩ := buildScopedValue_inj huser huser' hscoped
      exact ⟨rfl, rfl⟩
    · rintro ⟨rfl, rfl⟩
      rfl
  · intro userId' code' stored huser' hnone
    rw [← Bool.not_eq_true, hverify]
    exact hnone userId' code' huser'
  · intro userId' code' stored hshape
    rw [← Bool.not_eq_true, hverify]
    rintro rfl
    exact hshape (hashText_hash hsize userId' code')

/-- A digest of 32 bytes that keeps short inputs apart. -/
def paddedHasher : HmacSha256VerificationCodeHasher where
  hmac :=
    { digest := fun _ data => (data ++ List.replicate 32 0).take 32
      pepper := "pepper"
      nonempty := by decide
      size := by decide }

/-- The hash of a code does not verify the code that has a NUL byte before it. -/
theorem verify_hash_iff_nul :
    paddedHasher.verify (lit "u") (lit "1") (paddedHasher.hash (lit "u") (lit "1")) = true ∧
    paddedHasher.verify (lit "u") (0 :: lit "1") (paddedHasher.hash (lit "u") (lit "1")) = false ∧
    paddedHasher.verify (lit "u") (lit "1") (lit "hmac-sha256:v2:") = false := by
  let used : Set (Str × Str) := {(lit "u", lit "1"), (lit "u", 0 :: lit "1")}
  obtain ⟨hown, _, hshape⟩ := verify_hash_iff paddedHasher used
    (by
      intro data
      show ((data ++ List.replicate 32 0).take 32).length = 32
      simp)
    (by
      rw [Set.image_pair]
      rintro x (rfl | rfl) y (rfl | rfl) heq
      · rfl
      · exact absurd heq (by decide)
      · exact absurd heq (by decide)
      · rfl)
  have hfirst : (lit "u", lit "1") ∈ used := Set.mem_insert _ _
  have hsecond : (lit "u", 0 :: lit "1") ∈ used := Set.mem_insert_of_mem _ rfl
  refine ⟨?_, ?_, ?_⟩
  · exact (hown _ _ _ _ hfirst hfirst (by decide) (by decide)).mpr ⟨rfl, rfl⟩
  · rw [← Bool.not_eq_true, hown _ _ _ _ hfirst hsecond (by decide) (by decide)]
    decide
  · apply hshape
    intro h
    exact absurd h.length (by decide)

end HmacSha256VerificationCodeHasher

end SmirklyAuth
