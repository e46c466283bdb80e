import Mathlib.Data.Nat.Bitwise

/-!
# `SmirklyAuth.Lib.BitPrefix`: the leading bits of a sequence of bytes

Bits are counted in network order: bit `i` is in byte `i / 8`, and bit 0 of a byte is its most
significant one. `agreeUpTo_iff` reduces the agreement of the first `n` bits to that of `n / 8`
whole bytes and of one masked byte. A byte that is not there counts as zero.
-/

set_option autoImplicit false

namespace BitPrefix

/-- The byte at a position. -/
def byteAt (bytes : List UInt8) (i : Nat) : UInt8 := bytes[i]?.getD 0

/-- A bit of a byte, from the most significant one. -/
def bitOf (x : UInt8) (j : Nat) : Bool := x.toNat.testBit (7 - j)

/-- Bit `i` in network order. -/
def bit (bytes : List UInt8) (i : Nat) : Bool := bitOf (byteAt bytes (i / 8)) (i % 8)

/-- The first `n` bits agree. -/
def AgreeUpTo (n : Nat) (xs ys : List UInt8) : Prop := ∀ i < n, bit xs i = bit ys i

/-- The mask that keeps the first `r` bits of a byte. -/
def mask (r : Nat) : UInt8 := (255 <<< (8 - r) : Nat).toUInt8

/-- The bits of the mask are the first `r` ones. -/
theorem testBit_mask {r : Nat} (k : Nat) :
    (mask r).toNat.testBit k = decide (8 - r ≤ k ∧ k < 8) := by
  have hones : (255 : Nat) = 2 ^ 8 - 1 := rfl
  rw [mask, Nat.toUInt8, UInt8.toNat_ofNat', Nat.testBit_mod_two_pow, Nat.testBit_shiftLeft, hones,
    Nat.testBit_two_pow_sub_one]
  by_cases hlow : 8 - r ≤ k
  · by_cases hhigh : k < 8
    · have hshift : k - (8 - r) < 8 := by omega
      simp [hlow, hhigh, hshift]
    · simp [hhigh]
  · simp [hlow]

/-- Two bytes agree under the mask when their first bits do. -/
theorem and_mask_eq_iff {r : Nat} (hr : r ≤ 8) (x y : UInt8) :
    x &&& mask r = y &&& mask r ↔ ∀ j < r, bitOf x j = bitOf y j := by
  rw [← UInt8.toNat_inj, UInt8.toNat_and, UInt8.toNat_and]
  constructor
  · intro h j hj
    have hbit := congrArg (fun n => n.testBit (7 - j)) h
    have hkept : 8 - r ≤ 7 - j ∧ 7 - j < 8 := by omega
    simp only [Nat.testBit_and, testBit_mask, hkept, and_self, decide_true, Bool.and_true] at hbit
    exact hbit
  · intro h
    apply Nat.eq_of_testBit_eq
    intro k
    rw [Nat.testBit_and, Nat.testBit_and, testBit_mask]
    -- bit `k` counts from the right, and the mask keeps the left `r` of them
    by_cases hk : 8 - r ≤ k ∧ k < 8
    · have hbit := h (7 - k) (by omega)
      rw [bitOf, bitOf, show 7 - (7 - k) = k by omega] at hbit
      rw [hbit]
    · rw [decide_eq_false hk, Bool.and_false, Bool.and_false]

/-- A byte is its eight bits. -/
theorem byte_eq_iff (x y : UInt8) : x = y ↔ ∀ j < 8, bitOf x j = bitOf y j := by
  have hfull (z : UInt8) : z &&& mask 8 = z := by
    rw [show mask 8 = -1 by decide, UInt8.and_neg_one]
  rw [← and_mask_eq_iff (Nat.le_refl 8), hfull, hfull]

/-- Whole bytes, and the first bits of one more. -/
theorem agreeUpTo_iff (n : Nat) (xs ys : List UInt8) :
    AgreeUpTo n xs ys ↔
      (∀ i < n / 8, byteAt xs i = byteAt ys i) ∧
        byteAt xs (n / 8) &&& mask (n % 8) = byteAt ys (n / 8) &&& mask (n % 8) := by
  have hbit (zs : List UInt8) (i j : Nat) (hj : j < 8) :
      bit zs (8 * i + j) = bitOf (byteAt zs i) j := by
    rw [bit, show (8 * i + j) / 8 = i by omega, show (8 * i + j) % 8 = j by omega]
  have hmask := and_mask_eq_iff (show n % 8 ≤ 8 by omega) (byteAt xs (n / 8)) (byteAt ys (n / 8))
  constructor
  · intro h
    constructor
    · intro i hi
      rw [byte_eq_iff]
      intro j hj
      rw [← hbit xs i j hj, ← hbit ys i j hj]
      exact h (8 * i + j) (by omega)
    · rw [hmask]
      intro j hj
      rw [← hbit xs _ j (by omega), ← hbit ys _ j (by omega)]
      exact h (8 * (n / 8) + j) (by omega)
  · rintro ⟨hbytes, hlast⟩ i hi
    -- the bit is in a whole byte, or in the one that is cut
    by_cases hwhole : i / 8 < n / 8
    · rw [bit, bit, hbytes _ hwhole]
    · have hsame : i / 8 = n / 8 := by omega
      rw [bit, bit, hsame]
      exact hmask.mp hlast (i % 8) (by omega)

end BitPrefix
