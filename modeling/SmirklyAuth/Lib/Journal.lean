import Mathlib.Data.List.Basic

/-!
# `SmirklyAuth.Lib.Journal`: runs of operations with their results

A component offers operations on a store. Each operation is atomic. It throws and leaves the
store as it was, or it returns a result with a new store. A `Run` keeps the journal of a
history: the operations that returned, in order, each with its result. Who calls an operation
and with which arguments is left open, so a run covers any number of clients.

`Run.rule` is the invariant rule, for a property of the store and the journal so far.
`Run.split` cuts a history at one entry. `replay` is the executable form of a history.
-/

set_option autoImplicit false

namespace Journal

variable {σ ω ρ χ : Type}

/-- An entry of a journal with a last entry is that last entry, or it stands before it. -/
theorem snoc_eq_append_cons {α : Type} {log before after : List α} {x y : α}
    (h : log ++ [y] = before ++ x :: after) :
    (before = log ∧ x = y ∧ after = []) ∨
      ∃ after', after = after' ++ [y] ∧ log = before ++ x :: after' := by
  rcases List.eq_nil_or_concat after with rfl | ⟨after', z, rfl⟩
  · obtain ⟨hlog, hy⟩ := List.append_inj' h rfl
    exact .inl ⟨hlog.symm, (List.singleton_injective hy).symm, rfl⟩
  · rw [List.concat_eq_append, ← List.cons_append, ← List.append_assoc] at h
    obtain ⟨hlog, hy⟩ := List.append_inj' h rfl
    exact .inr ⟨after', by rw [List.concat_eq_append, List.singleton_injective hy], hlog⟩

/-- Two different entries of a journal: the second stands after the first, or before it. -/
theorem mem_or_mem_of_append_cons {α : Type} {before after before' after' : List α} {x y : α}
    (h : before ++ x :: after = before' ++ y :: after') (hne : x ≠ y) : y ∈ after ∨ x ∈ after' := by
  induction before generalizing before' with
  | nil =>
    cases before' with
    | nil => exact absurd (List.cons.inj h).1 hne
    | cons z before' =>
      rw [(List.cons.inj h).2]
      exact .inl (by simp)
  | cons z before ih =>
    cases before' with
    | nil =>
      rw [← (List.cons.inj h).2]
      exact .inr (by simp)
    | cons z' before' => exact ih (List.cons.inj h).2

/-- `Run exec s log s'`: the operations of `log` take the store `s` to `s'`, in order and
with the results of `log`. -/
inductive Run (exec : ω → σ → Except χ (ρ × σ)) (s : σ) : List (ω × ρ) → σ → Prop where
  | nil : Run exec s [] s
  | snoc {log : List (ω × ρ)} {s₁ s₂ : σ} {op : ω} {r : ρ} (h : Run exec s log s₁)
      (hop : exec op s₁ = .ok (r, s₂)) : Run exec s (log ++ [(op, r)]) s₂

section
variable {exec : ω → σ → Except χ (ρ × σ)} {s s' : σ}

/-- The invariant rule: a property of store and journal that every operation keeps. -/
theorem Run.rule {J : σ → List (ω × ρ) → Prop} (hinit : J s [])
    (hstep : ∀ (log : List (ω × ρ)) (s₁ s₂ : σ) (op : ω) (r : ρ), Run exec s log s₁ →
      J s₁ log → exec op s₁ = .ok (r, s₂) → J s₂ (log ++ [(op, r)]))
    {log : List (ω × ρ)} (h : Run exec s log s') : J s' log := by
  induction h with
  | nil => exact hinit
  | snoc h hop ih => exact hstep _ _ _ _ _ h ih hop

/-- A history cut at one entry: the run before it, the operation, and the run after it. -/
theorem Run.split {before after : List (ω × ρ)} {x : ω × ρ}
    (h : Run exec s (before ++ x :: after) s') :
    ∃ s₁ s₂, Run exec s before s₁ ∧ exec x.1 s₁ = .ok (x.2, s₂) ∧ Run exec s₂ after s' := by
  generalize hlog : before ++ x :: after = log at h
  -- the last entry of the run is `x` itself or belongs to `after`
  induction h generalizing after with
  | nil => simp at hlog
  | @snoc log s₁ s₂ op r h hop ih =>
    rcases snoc_eq_append_cons hlog.symm with ⟨rfl, rfl, rfl⟩ | ⟨after', rfl, rfl⟩
    · exact ⟨s₁, s₂, h, hop, .nil⟩
    · obtain ⟨t₁, t₂, hbefore, hx, hafter⟩ := ih rfl
      exact ⟨t₁, t₂, hbefore, hx, hafter.snoc hop⟩

/-- A history with one more operation before it. -/
theorem Run.cons {log : List (ω × ρ)} {s₁ : σ} {op : ω} {r : ρ}
    (hop : exec op s = .ok (r, s₁)) (h : Run exec s₁ log s') :
    Run exec s ((op, r) :: log) s' := by
  induction h with
  | nil => exact Run.nil.snoc hop
  | snoc _ hlast ih => exact ih.snoc hlast

end

/-- The history of a list of operations, or `none` when one of them throws. -/
def replay (exec : ω → σ → Except χ (ρ × σ)) (s : σ) : List ω → Option (List (ω × ρ) × σ)
  | [] => some ([], s)
  | op :: ops =>
      match exec op s with
      | .ok (r, s₁) => (replay exec s₁ ops).map fun p => ((op, r) :: p.1, p.2)
      | .error _ => none

/-- A list of operations that replays is a history. -/
theorem run_of_replay {exec : ω → σ → Except χ (ρ × σ)} {s : σ} {ops : List ω}
    {p : List (ω × ρ) × σ} (h : replay exec s ops = some p) : Run exec s p.1 p.2 := by
  induction ops generalizing s p with
  | nil =>
    cases h
    exact .nil
  | cons op ops ih =>
    simp only [replay] at h
    split at h
    · rename_i hop
      obtain ⟨q, hq, rfl⟩ := Option.map_eq_some_iff.mp h
      exact .cons hop (ih hq)
    · cases h

end Journal
