import Mathlib.Algebra.Order.Ring.Int
import Mathlib.Tactic.Ring
import Mathlib.Tactic.Positivity

/-!
# `SmirklyAuth.Lib.SignedWord`: signed arithmetic in a register of fixed width

`wrap w n` is what a two's complement register of `w` bits holds when the mathematical result
of an operation is `n`. It is `n` exactly when `n` fits (`wrap_eq_self_iff`), so a machine
computation is exact when each of its intermediate results fits.

Doubling is the case that the proofs need beyond this. A positive number that is doubled until
it no longer fits shows up as a negative one at the first step that overflows
(`exists_wrap_neg`), even when a later step happens to wrap to something plausible.
-/

set_option autoImplicit false

namespace SignedWord

/-- The contents of a register of `w` bits after an operation with the result `n`. -/
def wrap (w : Nat) (n : Int) : Int := (BitVec.ofInt w n).toInt

/-- The number is one of those that `w` bits can hold. -/
def Fits (w : Nat) (n : Int) : Prop := -2 ^ w ≤ 2 * n ∧ 2 * n < 2 ^ w

instance (w : Nat) (n : Int) : Decidable (Fits w n) :=
  inferInstanceAs (Decidable (_ ∧ _))

variable {w : Nat} {n : Int}

/-- The balanced remainder. -/
theorem wrap_eq_bmod (w : Nat) (n : Int) : wrap w n = n.bmod (2 ^ w) := BitVec.toInt_ofInt n

/-- A register holds what fits. -/
theorem fits_wrap (w : Nat) (n : Int) : Fits w (wrap w n) :=
  ⟨BitVec.le_two_mul_toInt, BitVec.two_mul_toInt_lt⟩

/-- What fits is held as it is. -/
theorem wrap_eq_self (h : Fits w n) : wrap w n = n := by
  obtain ⟨hlow, hhigh⟩ := h
  rw [wrap_eq_bmod]
  apply Int.bmod_eq_of_le
  · push_cast
    omega
  · push_cast
    omega

/-- A result survives exactly when it fits. -/
theorem wrap_eq_self_iff : wrap w n = n ↔ Fits w n := by
  constructor
  · intro h
    rw [← h]
    exact fits_wrap w n
  · exact wrap_eq_self

/-- A number that is too large by less than the size of the register comes out smaller by this
size. -/
theorem wrap_eq_sub (hlow : 2 ^ w ≤ 2 * n) (hhigh : 2 * n < 3 * 2 ^ w) :
    wrap w n = n - 2 ^ w := by
  have hshift : wrap w n = wrap w (n - 2 ^ w) := by
    rw [wrap_eq_bmod, wrap_eq_bmod]
    have hcast : ((2 ^ w : Nat) : Int) = 2 ^ w := by push_cast; rfl
    rw [← hcast, Int.sub_bmod_right]
  rw [hshift]
  exact wrap_eq_self ⟨by omega, by omega⟩

/-- Below the size of the register it comes out negative. -/
theorem wrap_neg_of_overflow (hlow : 2 ^ w ≤ 2 * n) (hhigh : n < 2 ^ w) : wrap w n < 0 := by
  rw [wrap_eq_sub hlow (by omega)]
  omega

/-- A number that is not too small never comes out larger. -/
theorem wrap_le (h : -2 ^ w ≤ 2 * n) : wrap w n ≤ n := by
  by_cases hneg : n < 0
  · have hpos : (0 : Int) < 2 ^ w := by positivity
    exact le_of_eq (wrap_eq_self ⟨h, by omega⟩)
  · have hmod : n % ((2 ^ w : Nat) : Int) ≤ n := by
      have hquot : 0 ≤ n / ((2 ^ w : Nat) : Int) :=
        Int.ediv_nonneg (by omega) (Int.natCast_nonneg _)
      have hprod := mul_nonneg (Int.natCast_nonneg (2 ^ w)) hquot
      have hsum := Int.emod_add_mul_ediv n ((2 ^ w : Nat) : Int)
      omega
    rw [wrap_eq_bmod, Int.bmod_def]
    split
    · exact hmod
    · omega

/-- The second operand of a sum may be held in a register first. -/
theorem wrap_add_wrap (a b : Int) : wrap w (a + wrap w b) = wrap w (a + b) := by
  rw [wrap_eq_bmod, wrap_eq_bmod, wrap_eq_bmod, Int.add_bmod_bmod]

/-- Doubling a positive number until it no longer fits passes through a negative one. -/
theorem exists_wrap_neg {b : Int} (hb : 0 < b) (hfits : Fits w b) {k : Nat}
    (hover : ¬ Fits w (b * 2 ^ k)) : ∃ j ≤ k, wrap w (b * 2 ^ j) < 0 := by
  induction k with
  | zero =>
    rw [pow_zero, mul_one] at hover
    exact absurd hfits hover
  | succ k ih =>
    by_cases hk : Fits w (b * 2 ^ k)
    · -- the product fitted one step before, so it is too large by less than one register
      have hpos : 0 < b * 2 ^ k := by positivity
      have hdouble : b * 2 ^ (k + 1) = 2 * (b * 2 ^ k) := by ring
      have htop := hk.2
      refine ⟨k + 1, Nat.le_refl _, wrap_neg_of_overflow ?_ ?_⟩
      · by_contra hlow
        exact hover ⟨by omega, by omega⟩
      · omega
    · obtain ⟨j, hj, hneg⟩ := ih hk
      exact ⟨j, Nat.le_succ_of_le hj, hneg⟩

end SignedWord
