import SmirklyAuth.Lib.Update

/-!
# `SmirklyAuth.Lib.Ownership`: statements that act for one owner

The rows of a table have a key and an owner. `ActsFor key owner actor rows rows'` says that
`rows'` comes from `rows` by statements for `actor`: `UPDATE`s that touch only its rows and
write neither column, and inserts of its rows with new keys. `none` may change nothing.

The rows of every other owner then stay as they are (`ActsFor.others`), and a row that was
written belongs to the actor (`ActsFor.written`).

`Owns key owner rows k o` says that the row with the key `k` belongs to `o`. The statements of
any actor keep it (`ActsFor.owns`), so it is what a caller may rely on after it has read a row.
Where keys are unique, it tells whose row an `UPDATE … WHERE id = k` touches
(`Owns.owner_eq`).
-/

set_option autoImplicit false

namespace Sql

section
variable {ρ κ ω : Type} (key : ρ → κ) (owner : ρ → ω)

/-- A sequence of statements for `actor`, the last one outermost. -/
inductive ActsFor (actor : Option ω) (rows : List ρ) : List ρ → Prop where
  | refl : ActsFor actor rows rows
  | update {rows'} {u : Update ρ} (h : ActsFor actor rows rows') (hkey : u.Keeps key)
      (howner : u.Keeps owner)
      (hcond : ∀ r ∈ rows', u.cond r = true → some (owner r) = actor) :
      ActsFor actor rows (u.run rows')
  | insert {rows'} {row : ρ} (h : ActsFor actor rows rows')
      (howner : some (owner row) = actor) (hnew : ∀ r ∈ rows', key r ≠ key row) :
      ActsFor actor rows (rows' ++ [row])

/-- The row with the key `k` belongs to `o`. -/
def Owns (rows : List ρ) (k : κ) (o : ω) : Prop := ∃ r ∈ rows, key r = k ∧ owner r = o

end

section
variable {ρ κ ω : Type} {key : ρ → κ} {owner : ρ → ω} {actor : Option ω} {rows rows' : List ρ}

/-- An update that touches no row of `o` leaves the rows of `o` as they are. -/
theorem filter_run_of_owner [DecidableEq ω] {u : Update ρ} {o : ω} (howner : u.Keeps owner)
    (hcond : ∀ r ∈ rows, u.cond r = true → owner r ≠ o) :
    (u.run rows).filter (fun r => owner r = o) = rows.filter fun r => owner r = o := by
  have hsame : ((fun r => decide (owner r = o)) ∘ u.apply) = fun r => decide (owner r = o) := by
    funext r
    simp only [Function.comp, howner.apply r]
  have hkeep : ∀ r ∈ rows.filter (fun r => owner r = o), u.apply r = r := by
    intro r hr
    obtain ⟨hmem, ho⟩ := List.mem_filter.mp hr
    have hskip : ¬ u.cond r = true := fun hc => hcond r hmem hc (of_decide_eq_true ho)
    exact Update.apply_neg (Bool.eq_false_iff.mpr hskip)
  rw [Update.run, List.filter_map, hsame, List.map_congr_left hkeep, List.map_id']

namespace ActsFor

/-- The rows of everybody but the actor stay as they are. -/
theorem others [DecidableEq ω] (h : ActsFor key owner actor rows rows') {o : ω}
    (ho : some o ≠ actor) :
    rows'.filter (fun r => owner r = o) = rows.filter fun r => owner r = o := by
  -- on the statements
  induction h with
  | refl => rfl
  | update _ _ howner hcond ih =>
    rw [← ih]
    refine filter_run_of_owner howner fun r hr hc hro => ho ?_
    rw [← hro]
    exact hcond r hr hc
  | @insert _ row _ howner _ ih =>
    have hrow : owner row ≠ o := by
      rintro rfl
      exact ho howner
    have hnone : [row].filter (fun r => decide (owner r = o)) = [] := by simp [hrow]
    rw [List.filter_append, ih, hnone, List.append_nil]

/-- A row that was written, inserted or changed, belongs to the actor. -/
theorem written [DecidableEq ω] (h : ActsFor key owner actor rows rows') {r : ρ}
    (hr : r ∈ rows') (hnew : r ∉ rows) : some (owner r) = actor := by
  -- a row of somebody else would have been there before
  by_contra ho
  have hmem : r ∈ rows'.filter fun r' => owner r' = owner r :=
    List.mem_filter.mpr ⟨hr, decide_eq_true rfl⟩
  rw [h.others ho] at hmem
  exact hnew (List.mem_of_mem_filter hmem)

/-- The keys stay unique. -/
theorem nodup (h : ActsFor key owner actor rows rows') (hnodup : (rows.map key).Nodup) :
    (rows'.map key).Nodup := by
  induction h with
  | refl => exact hnodup
  | update _ hkey _ _ ih =>
    rw [hkey.map_run]
    exact ih
  | insert _ _ hnew ih => exact nodup_keys_snoc ih hnew

/-- The row with a key keeps its owner. -/
theorem owns (h : ActsFor key owner actor rows rows') {k : κ} {o : ω}
    (ho : Owns key owner rows k o) : Owns key owner rows' k o := by
  induction h with
  | refl => exact ho
  | update _ hkey howner _ ih =>
    obtain ⟨r, hr, hk, hro⟩ := ih
    exact ⟨_, Update.apply_mem_run hr, (hkey.apply r).trans hk, (howner.apply r).trans hro⟩
  | insert _ _ _ ih =>
    obtain ⟨r, hr, hk, hro⟩ := ih
    exact ⟨r, List.mem_append_left _ hr, hk, hro⟩

end ActsFor

/-- Where keys are unique, every row with the key has the owner. -/
theorem Owns.owner_eq (hnodup : (rows.map key).Nodup) {k : κ} {o : ω}
    (h : Owns key owner rows k o) {r : ρ} (hr : r ∈ rows) (hk : key r = k) : owner r = o := by
  obtain ⟨r', hr', hk', ho⟩ := h
  rw [← ho, List.inj_on_of_nodup_map hnodup hr hr' (hk.trans hk'.symm)]

/-- An update of the rows of the actor. -/
theorem ActsFor.update_owner {o : ω} {u : Update ρ}
    (h : ActsFor key owner (some o) rows rows') (hkey : u.Keeps key) (howner : u.Keeps owner)
    (hcond : ∀ r, u.cond r = true → owner r = o) :
    ActsFor key owner (some o) rows (u.run rows') :=
  h.update hkey howner fun r _ hc => congrArg some (hcond r hc)

/-- An update of the row with a key, which belongs to the actor. -/
theorem ActsFor.update_key {k : κ} {o : ω} {u : Update ρ}
    (h : ActsFor key owner (some o) rows rows') (hkey : u.Keeps key) (howner : u.Keeps owner)
    (hcond : ∀ r, u.cond r = true → key r = k) (hnodup : (rows.map key).Nodup)
    (howns : Owns key owner rows k o) : ActsFor key owner (some o) rows (u.run rows') := by
  refine h.update hkey howner ?_
  intro r hr hc
  exact congrArg some ((h.owns howns).owner_eq (h.nodup hnodup) hr (hcond r hc))

end

end Sql
