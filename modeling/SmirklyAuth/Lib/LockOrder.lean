import Mathlib.Data.List.Pairwise
import Mathlib.Logic.Function.Basic
import Mathlib.Logic.Relation
import Mathlib.Order.Basic

/-!
# `SmirklyAuth.Lib.LockOrder`: locks that are taken in a fixed order

Any number of transactions run at the same time. Each one has a list of exclusive locks that it
takes from the left, one at a time. It keeps what it has taken until it ends, and it can end at
any moment. A transaction waits for another one when that one holds its next lock.

A deadlock is a cycle of waiting transactions. `Reachable.acyclic` is the classical argument
against it: when the locks have a rank that grows along every list, the rank of the next lock
grows along every chain of waiting transactions (`rank_lt_of_waits`), so no chain comes back.
-/

set_option autoImplicit false

namespace LockOrder

/-- A running transaction: the locks it holds, and those it has still to take. -/
structure Holder (L : Type) where
  held : List L
  todo : List L

variable {T L K : Type}

/-- The transactions that are running. -/
abbrev State (T L : Type) := T → Option (Holder L)

/-- One step of the system, for transactions whose lists satisfy `plan`. -/
inductive Step [DecidableEq T] (plan : List L → Prop) : State T L → State T L → Prop where
  | start {s : State T L} (t : T) (locks : List L) (hnew : s t = none) (hplan : plan locks) :
      Step plan s (Function.update s t (some ⟨[], locks⟩))
  | acquire {s : State T L} (t : T) (lock : L) (held rest : List L)
      (ht : s t = some ⟨held, lock :: rest⟩)
      (hfree : ∀ u h, u ≠ t → s u = some h → lock ∉ h.held) :
      Step plan s (Function.update s t (some ⟨held ++ [lock], rest⟩))
  | finish {s : State T L} (t : T) : Step plan s (Function.update s t none)

/-- The states of a run that starts without transactions. -/
def Reachable [DecidableEq T] (plan : List L → Prop) (s : State T L) : Prop :=
  Relation.ReflTransGen (Step plan) (fun _ => none) s

/-- The next lock of `t` is `lock`. -/
def Next (s : State T L) (t : T) (lock : L) : Prop :=
  ∃ held rest, s t = some ⟨held, lock :: rest⟩

/-- `t` waits for a lock that `u` holds. -/
def Waits (s : State T L) (t u : T) : Prop :=
  t ≠ u ∧ ∃ lock h, Next s t lock ∧ s u = some h ∧ lock ∈ h.held

section

variable [Preorder K] {rank : L → K}

/-- The locks of a list are in order. -/
def Ordered (rank : L → K) (locks : List L) : Prop :=
  locks.Pairwise fun a b => rank a < rank b

/-- Every transaction takes its locks in order. -/
def InOrder (rank : L → K) (s : State T L) : Prop :=
  ∀ t h, s t = some h → Ordered rank (h.held ++ h.todo)

variable {s s' : State T L}

/-- What a transaction holds comes before its next lock. -/
theorem InOrder.lt_next {t : T} {h : Holder L} {a b : L} (hs : InOrder rank s)
    (ht : s t = some h) (ha : a ∈ h.held) (hb : Next s t b) : rank a < rank b := by
  obtain ⟨held, rest, ht'⟩ := hb
  rw [ht'] at ht
  cases ht
  have hordered := List.pairwise_append.mp (hs t _ ht')
  exact hordered.2.2 a ha b List.mem_cons_self

/-- Along a chain of waiting transactions the rank of the next lock grows. -/
theorem rank_lt_of_waits (hs : InOrder rank s) {t u : T} {a b : L}
    (h : Relation.TransGen (Waits s) t u) (ha : Next s t a) (hb : Next s u b) :
    rank a < rank b := by
  have hunique : ∀ {v c d}, Next s v c → Next s v d → c = d := by
    rintro v c d ⟨_, _, hc⟩ ⟨_, _, hd⟩
    rw [hc] at hd
    cases hd
    rfl
  induction h generalizing b with
  | @single u hwait =>
    obtain ⟨-, lock, h, hnext, hu, hheld⟩ := hwait
    rw [hunique ha hnext]
    exact hs.lt_next hu hheld hb
  | @tail u v _ hwait ih =>
    -- `u` waits for a lock of `v`, and `v` waits for a later one
    obtain ⟨-, lock, h, hnext, hv, hheld⟩ := hwait
    exact lt_trans (ih hnext) (hs.lt_next hv hheld hb)

variable [DecidableEq T] {plan : List L → Prop}

/-- A holder that is in order may take the place of another one. -/
theorem inOrder_update {t : T} {h : Holder L} (hs : InOrder rank s)
    (hh : Ordered rank (h.held ++ h.todo)) :
    InOrder rank (Function.update s t (some h)) := by
  intro u k hu
  by_cases hut : u = t
  · subst hut
    rw [Function.update_self, Option.some.injEq] at hu
    subst hu
    exact hh
  · rw [Function.update_of_ne hut] at hu
    exact hs u k hu

/-- A step keeps the order: taking a lock moves it from one list to the other. -/
theorem Step.inOrder (hplan : ∀ locks, plan locks → Ordered rank locks) (h : Step plan s s')
    (hs : InOrder rank s) : InOrder rank s' := by
  cases h with
  | start t locks hnew hlocks => exact inOrder_update hs (hplan locks hlocks)
  | acquire t lock held rest ht hfree =>
    have hordered := hs t _ ht
    refine inOrder_update hs ?_
    show Ordered rank ((held ++ [lock]) ++ rest)
    rw [List.append_assoc]
    exact hordered
  | finish t =>
    intro u k hu
    by_cases hut : u = t
    · subst hut
      rw [Function.update_self] at hu
      cases hu
    · rw [Function.update_of_ne hut] at hu
      exact hs u k hu

/-- If every plan is in order, every holder is. -/
theorem Reachable.inOrder (hplan : ∀ locks, plan locks → Ordered rank locks)
    (hs : Reachable plan s) : InOrder rank s := by
  induction hs with
  | refl => exact fun _ _ h => nomatch h
  | tail _ hstep ih => exact hstep.inOrder hplan ih

/-- Transactions that take their locks in order never wait for each other in a cycle. -/
theorem Reachable.acyclic (hplan : ∀ locks, plan locks → Ordered rank locks)
    (hs : Reachable plan s) (t : T) : ¬ Relation.TransGen (Waits s) t t := by
  intro hcycle
  have hnext : ∃ lock, Next s t lock := by
    cases Relation.TransGen.head'_iff.mp hcycle with
    | intro u h =>
      obtain ⟨-, lock, -, hnext, -, -⟩ := h.1
      exact ⟨lock, hnext⟩
  obtain ⟨lock, hlock⟩ := hnext
  exact lt_irrefl _ (rank_lt_of_waits (hs.inOrder hplan) hcycle hlock hlock)

end

end LockOrder
