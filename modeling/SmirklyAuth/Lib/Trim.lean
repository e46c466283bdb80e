import Mathlib.Data.List.TakeWhile

/-!
# `SmirklyAuth.Lib.Trim`: taking a class of characters off both ends of a list

`trim p s` is the usual computation: drop from the left, reverse, drop, reverse. `Trims p s t`
is what it is for: `s` is `t` with characters of the class on both sides, and `t` neither begins
nor ends with one. `trims_iff` says that the two are the same.
-/

set_option autoImplicit false

namespace Trim

variable {α : Type} {p : α → Bool}

/-- Drop the characters of the class from both ends. -/
def trim (p : α → Bool) (s : List α) : List α := ((s.dropWhile p).reverse.dropWhile p).reverse

/-- `t` is `s` without the characters of the class at both ends. -/
structure Trims (p : α → Bool) (s t : List α) : Prop where
  padded : ∃ before after, s = before ++ t ++ after ∧ (∀ c ∈ before, p c = true) ∧
    ∀ c ∈ after, p c = true
  head : ∀ c, t.head? = some c → p c = false
  last : ∀ c, t.getLast? = some c → p c = false

/-- Nothing is left of white space. -/
theorem dropWhile_eq_nil_of_forall {s : List α} (h : ∀ c ∈ s, p c = true) : s.dropWhile p = [] :=
  List.dropWhile_eq_nil_iff.mpr h

/-- Nothing is dropped before another character. -/
theorem dropWhile_eq_self_of_head {s : List α} (h : ∀ c, s.head? = some c → p c = false) :
    s.dropWhile p = s := by
  cases s with
  | nil => rfl
  | cons c rest => rw [List.dropWhile_cons_of_neg (by simp [h c rfl])]

/-- Padding does not matter. -/
theorem trim_append {before s after : List α} (hbefore : ∀ c ∈ before, p c = true)
    (hafter : ∀ c ∈ after, p c = true) : trim p (before ++ s ++ after) = trim p s := by
  have hleft : (before ++ s ++ after).dropWhile p = (s ++ after).dropWhile p := by
    rw [List.append_assoc, List.dropWhile_append_of_pos hbefore]
  have hright : ∀ t : List α, (t ++ after).reverse.dropWhile p = t.reverse.dropWhile p := by
    intro t
    rw [List.reverse_append, List.dropWhile_append_of_pos]
    exact fun c hc => hafter c (List.mem_reverse.mp hc)
  unfold trim
  rw [hleft, List.dropWhile_append]
  -- the padding on the right is dropped with the rest, or it is at the end of what is left
  cases hs : s.dropWhile p with
  | nil => simp [dropWhile_eq_nil_of_forall hafter]
  | cons c rest =>
    show ((c :: rest ++ after).reverse.dropWhile p).reverse = _
    rw [hright]

/-- A list that neither begins nor ends with a character of the class stays as it is. -/
theorem trim_eq_self {s : List α} (hhead : ∀ c, s.head? = some c → p c = false)
    (hlast : ∀ c, s.getLast? = some c → p c = false) : trim p s = s := by
  unfold trim
  rw [dropWhile_eq_self_of_head hhead, dropWhile_eq_self_of_head, List.reverse_reverse]
  intro c hc
  rw [List.head?_reverse] at hc
  exact hlast c hc

/-- So does a list without such characters. -/
theorem trim_eq_self_of_forall {s : List α} (h : ∀ c ∈ s, p c = false) : trim p s = s :=
  trim_eq_self (fun c hc => h c (List.mem_of_mem_head? hc))
    fun c hc => h c (List.mem_of_mem_getLast? hc)

/-- What is left starts with another character. -/
theorem head_dropWhile {s : List α} {c : α} (h : (s.dropWhile p).head? = some c) :
    p c = false := by
  have hnot := List.head?_dropWhile_not p s
  rw [h] at hnot
  simpa using hnot

/-- What is dropped from the right belongs to the class. -/
theorem exists_dropped (s : List α) :
    ∃ after, s = (s.reverse.dropWhile p).reverse ++ after ∧ ∀ c ∈ after, p c = true := by
  refine ⟨(s.reverse.takeWhile p).reverse, ?_, ?_⟩
  · rw [← List.reverse_append, List.takeWhile_append_dropWhile, List.reverse_reverse]
  · intro c hc
    exact List.mem_takeWhile_imp (List.mem_reverse.mp hc)

/-- The function has the property. -/
theorem trims_trim (p : α → Bool) (s : List α) : Trims p s (trim p s) := by
  obtain ⟨after, hafter, hall⟩ := exists_dropped (p := p) (s.dropWhile p)
  constructor
  case padded =>
    refine ⟨s.takeWhile p, after, ?_, fun c hc => List.mem_takeWhile_imp hc, hall⟩
    calc s = s.takeWhile p ++ s.dropWhile p := List.takeWhile_append_dropWhile.symm
      _ = s.takeWhile p ++ (trim p s ++ after) := congrArg (s.takeWhile p ++ ·) hafter
      _ = s.takeWhile p ++ trim p s ++ after := (List.append_assoc _ _ _).symm
  case head =>
    intro c hc
    -- the first character of the result is the first one that was not dropped
    have hprefix : (s.dropWhile p).head? = some c := by
      rw [hafter, List.head?_append]
      show ((trim p s).head?.or after.head?) = some c
      rw [hc]
      rfl
    exact head_dropWhile hprefix
  case last =>
    intro c hc
    rw [trim, List.getLast?_reverse] at hc
    exact head_dropWhile hc

/-- The computation and its purpose. -/
theorem trims_iff {s t : List α} : Trims p s t ↔ t = trim p s := by
  constructor
  · rintro ⟨⟨before, after, rfl, hbefore, hafter⟩, hhead, hlast⟩
    rw [trim_append hbefore hafter, trim_eq_self hhead hlast]
  · rintro rfl
    exact trims_trim p s

end Trim
