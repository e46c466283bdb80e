import Mathlib.Data.List.Nodup
import Mathlib.Data.List.Pairwise

/-!
# `SmirklyAuth.Lib.Update`: conditional updates of a table

A table is a list of rows in insertion order. `Update` is the statement
`UPDATE … SET … WHERE …`: a condition and the new value of a row that meets it. `run`
applies it to every row and `hits` says whether `RETURNING` yields a row.

The lemmas say which rows a table holds after an update, and that an update which does
not write a column leaves the list of its values as it is. `Rewrites` is the effect of an
update without its statement: the rows stay in their places, and some of them change.
-/

set_option autoImplicit false

namespace Sql

/-- A row with a new key keeps the keys of a table unique. -/
theorem nodup_keys_snoc {ρ κ : Type} {f : ρ → κ} {rows : List ρ} {row : ρ}
    (h : (rows.map f).Nodup) (hnew : ∀ r ∈ rows, f r ≠ f row) :
    ((rows ++ [row]).map f).Nodup := by
  rw [List.map_append]
  refine h.append (List.nodup_singleton _) fun k hk hrow => ?_
  obtain ⟨r, hr, rfl⟩ := List.mem_map.mp hk
  exact hnew r hr (List.mem_singleton.mp hrow)

/-- An `UPDATE` statement: the rows that meet `cond` become `set` of themselves. -/
structure Update (ρ : Type) where
  cond : ρ → Bool
  set : ρ → ρ

namespace Update

variable {ρ κ : Type}

/-- The new value of one row. -/
def apply (u : Update ρ) (r : ρ) : ρ := if u.cond r then u.set r else r

/-- The table after the statement. -/
def run (u : Update ρ) (rows : List ρ) : List ρ := rows.map u.apply

/-- Whether the statement touches a row, so that `RETURNING` is not empty. -/
def hits (u : Update ρ) (rows : List ρ) : Bool := rows.any u.cond

variable {u : Update ρ} {rows : List ρ} {f : ρ → κ} {change : ρ → ρ → Prop}

/-- A row that meets the condition is written. -/
theorem apply_pos {r : ρ} (h : u.cond r = true) : u.apply r = u.set r := by
  simp [apply, h]

/-- Another row stays as it is. -/
theorem apply_neg {r : ρ} (h : u.cond r = false) : u.apply r = r := by
  simp [apply, h]

/-- A row of the new table is the new value of an old row. -/
theorem mem_run {r : ρ} :
    r ∈ u.run rows ↔ ∃ r₀ ∈ rows, u.apply r₀ = r := List.mem_map

/-- The written row is in the table. -/
theorem apply_mem_run {r : ρ} (h : r ∈ rows) :
    u.apply r ∈ u.run rows := mem_run.mpr ⟨r, h, rfl⟩

/-- An update hits a table that has a row with its condition. -/
theorem hits_iff :
    u.hits rows = true ↔ ∃ r ∈ rows, u.cond r = true := by
  simp [hits]

/-- A statement that touches no row leaves the table as it is. -/
theorem run_of_not_hits (h : u.hits rows = false) :
    u.run rows = rows := by
  have hkeep : ∀ r ∈ rows, u.apply r = r := by
    intro r hr
    exact apply_neg (by simpa using List.any_eq_false.mp h r hr)
  rw [run, List.map_congr_left hkeep, List.map_id']

/-- The statement does not write the column `f`. -/
def Keeps (u : Update ρ) (f : ρ → κ) : Prop := ∀ r, f (u.set r) = f r

/-- What the update keeps of every row it keeps of each row. -/
theorem Keeps.apply (h : u.Keeps f) (r : ρ) :
    f (u.apply r) = f r := by
  unfold Update.apply
  split
  · exact h r
  · rfl

/-- A column that the statement does not write has the same list of values after it. -/
theorem Keeps.map_run (h : u.Keeps f) (rows : List ρ) :
    (u.run rows).map f = rows.map f := by
  rw [run, List.map_map]
  exact List.map_congr_left fun r _ => h.apply r

/-- The new table has the rows of the old one in their order, each of them as it was or
changed by `change`. -/
def Rewrites (change : ρ → ρ → Prop) (rows rows' : List ρ) : Prop :=
  List.Forall₂ (fun r r' => r' = r ∨ change r r') rows rows'

/-- An update rewrites the rows that meet its condition. -/
theorem rewrites_run
    (h : ∀ r, u.cond r = true → change r (u.set r)) (rows : List ρ) :
    Rewrites change rows (u.run rows) := by
  induction rows with
  | nil => exact .nil
  | cons r rows ih =>
    refine .cons ?_ ih
    by_cases hcond : u.cond r = true
    · rw [apply_pos hcond]
      exact .inr (h r hcond)
    · exact .inl (apply_neg (Bool.eq_false_iff.mpr hcond))

/-- Changes that keep a column keep the list of its values. -/
theorem Rewrites.map_eq {rows' : List ρ}
    (h : Rewrites change rows rows') (hkeeps : ∀ r r', change r r' → f r' = f r) :
    rows'.map f = rows.map f := by
  induction h with
  | nil => rfl
  | cons hrow _ ih =>
    rw [List.map_cons, List.map_cons, ih]
    rcases hrow with rfl | hchange
    · rfl
    · rw [hkeeps _ _ hchange]

/-- Changes of the rows with one key change at most one row where keys are unique. -/
theorem Rewrites.eq_or_one {k : κ} {rows' : List ρ}
    (h : Rewrites change rows rows') (hkey : ∀ r r', change r r' → f r = k)
    (hnodup : (rows.map f).Nodup) :
    rows' = rows ∨ ∃ pre r r' post, rows = pre ++ r :: post ∧ rows' = pre ++ r' :: post ∧
      change r r' := by
  induction h with
  | nil => exact .inl rfl
  | @cons r r' rows rows' hrow hrest ih =>
    rw [List.map_cons, List.nodup_cons] at hnodup
    rcases ih hnodup.2 with rfl | ⟨pre, q, q', post, rfl, rfl, hchange⟩
    · rcases hrow with rfl | hchange
      · exact .inl rfl
      · exact .inr ⟨[], r, r', rows', rfl, rfl, hchange⟩
    · -- the key of the changed row is taken, so the first row stays
      rcases hrow with rfl | hfirst
      · exact .inr ⟨r' :: pre, q, q', post, rfl, rfl, hchange⟩
      · refine absurd ?_ hnodup.1
        rw [hkey _ _ hfirst, ← hkey _ _ hchange]
        exact List.mem_map_of_mem (List.mem_append_right _ List.mem_cons_self)

end Update

end Sql
