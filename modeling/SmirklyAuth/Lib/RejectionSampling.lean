import Mathlib.Algebra.BigOperators.Ring.Finset
import Mathlib.Data.List.OfFn
import Mathlib.Logic.Equiv.Fin.Basic
import Mathlib.SetTheory.Cardinal.Finite

/-!
# `SmirklyAuth.Lib.RejectionSampling`: accepted symbols of a random stream

A sampler reads symbols from a stream, rejects some and turns the others into digits: `classify`
is `none` for a symbol that is rejected. Its output is the beginning of the accepted digits.
`count classify N c` is the number of streams of `N` symbols whose accepted digits begin with
`c`.

When every digit is the image of the same number of symbols, all outputs of one length are
equally frequent (`count_congr`). The argument is a recurrence in the length of the stream
(`count_succ`): the first symbol is rejected, or it is accepted as the first digit.

A stream may come in blocks (`card_blocks`).
-/

set_option autoImplicit false

namespace RejectionSampling

variable {α δ : Type} {classify : α → Option δ}

/-- The number of streams of `N` symbols whose accepted digits begin with `c`. -/
noncomputable def count (classify : α → Option δ) (N : Nat) (c : List δ) : Nat :=
  Nat.card { s : Fin N → α // c <+: (List.ofFn s).filterMap classify }

/-- No digit is accepted from an empty stream. -/
theorem count_zero_cons (d : δ) (c : List δ) : count classify 0 (d :: c) = 0 := by
  have hempty : IsEmpty { s : Fin 0 → α // d :: c <+: (List.ofFn s).filterMap classify } := by
    constructor
    rintro ⟨s, hs⟩
    simp at hs
  exact Nat.card_of_isEmpty

/-- Split a stream into its first symbol and the others. -/
theorem count_eq_sum [Fintype α] (N : Nat) (c : List δ) :
    count classify (N + 1) c = ∑ a : α,
      Nat.card { s : Fin N → α // c <+: (a :: List.ofFn s).filterMap classify } := by
  have hsplit : { s : Fin (N + 1) → α // c <+: (List.ofFn s).filterMap classify } ≃
      { p : α × (Fin N → α) // c <+: (p.1 :: List.ofFn p.2).filterMap classify } :=
    ((Fin.consEquiv fun _ => α).subtypeEquiv fun p => by simp [Fin.consEquiv]).symm
  have hsigma : { p : α × (Fin N → α) // c <+: (p.1 :: List.ofFn p.2).filterMap classify } ≃
      Σ a : α, { s : Fin N → α // c <+: (a :: List.ofFn s).filterMap classify } :=
    Equiv.subtypeProdEquivSigmaSubtype fun a s => c <+: (a :: List.ofFn s).filterMap classify
  rw [count, Nat.card_congr (hsplit.trans hsigma), Nat.card_sigma]

/-- The first symbol is rejected, or it is accepted as the first digit. -/
theorem count_succ [Fintype α] [DecidableEq δ] (N : Nat) (d : δ) (c : List δ) :
    count classify (N + 1) (d :: c) =
      Nat.card { a // classify a = none } * count classify N (d :: c) +
        Nat.card { a // classify a = some d } * count classify N c := by
  have hterm (a : α) :
      Nat.card { s : Fin N → α // d :: c <+: (a :: List.ofFn s).filterMap classify } =
        (if classify a = none then count classify N (d :: c) else 0) +
          if classify a = some d then count classify N c else 0 := by
    cases ha : classify a with
    | none => simp [ha, count]
    | some d' =>
      by_cases hd : d' = d
      · simp [ha, hd, count]
      · have hd' : d ≠ d' := Ne.symm hd
        simp [ha, hd, hd']
  rw [count_eq_sum, Finset.sum_congr rfl fun a _ => hterm a, Finset.sum_add_distrib]
  simp [Finset.sum_ite, Nat.card_eq_fintype_card, Fintype.card_subtype]

/-- Digits that come from equally many symbols are equally frequent, and so are the outputs of
one length. -/
theorem count_congr [Fintype α] [DecidableEq δ] {digit : δ → Prop}
    (hfair : ∀ d d', digit d → digit d' →
      Nat.card { a // classify a = some d } = Nat.card { a // classify a = some d' })
    {c c' : List δ} (hlength : c.length = c'.length) (hc : ∀ d ∈ c, digit d)
    (hc' : ∀ d ∈ c', digit d) (N : Nat) : count classify N c = count classify N c' := by
  -- on the length of the stream; a rejected symbol leaves the output as it is
  induction N generalizing c c' with
  | zero =>
    cases c with
    | nil =>
      obtain rfl := List.length_eq_zero_iff.mp hlength.symm
      rfl
    | cons d c =>
      cases c' with
      | nil => cases hlength
      | cons d' c' => rw [count_zero_cons, count_zero_cons]
  | succ N ih =>
    cases c with
    | nil =>
      obtain rfl := List.length_eq_zero_iff.mp hlength.symm
      rfl
    | cons d c =>
      cases c' with
      | nil => cases hlength
      | cons d' c' =>
        have htail : c.length = c'.length := Nat.succ.inj hlength
        rw [count_succ, count_succ, ih hlength hc hc',
          ih htail (fun x hx => hc x (List.mem_cons_of_mem _ hx))
            (fun x hx => hc' x (List.mem_cons_of_mem _ hx)),
          hfair d d' (hc d List.mem_cons_self) (hc' d' List.mem_cons_self)]

/-- A stream that comes in `m` blocks of `k` symbols is a stream of `m * k` symbols. -/
theorem card_blocks (m k : Nat) (P : List α → Prop) :
    Nat.card { s : Fin m → Fin k → α // P (List.ofFn fun i => List.ofFn (s i)).flatten } =
      Nat.card { s : Fin (m * k) → α // P (List.ofFn s) } := by
  let e : (Fin m → Fin k → α) ≃ (Fin (m * k) → α) :=
    (Equiv.curry (Fin m) (Fin k) α).symm.trans (finProdFinEquiv.arrowCongr (Equiv.refl α))
  apply Nat.card_congr
  apply e.subtypeEquiv
  intro s
  have hflatten : List.ofFn (e s) = (List.ofFn fun i => List.ofFn (s i)).flatten := by
    rw [List.ofFn_mul]
    congr 2
    funext i
    congr 1
    funext j
    have hindex : finProdFinEquiv (i, j) = ⟨i * k + j, by
        calc (i : Nat) * k + j < (i + 1) * k := by rw [Nat.add_mul, Nat.one_mul]; omega
          _ ≤ m * k := Nat.mul_le_mul_right _ i.isLt⟩ := by
      apply Fin.ext
      show (j : Nat) + k * i = i * k + j
      rw [Nat.mul_comm, Nat.add_comm]
    rw [← hindex]
    show Function.uncurry s (finProdFinEquiv.symm (finProdFinEquiv (i, j))) = s i j
    rw [Equiv.symm_apply_apply]
    rfl
  rw [hflatten]

end RejectionSampling
