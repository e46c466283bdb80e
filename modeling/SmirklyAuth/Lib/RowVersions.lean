import SmirklyAuth.Lib.ReadCommitted

/-!
# `SmirklyAuth.Lib.RowVersions`: what the versions of a row have in common

Invariants of a table under concurrent transactions at READ COMMITTED. Each of them asks
something of the single statements and gives it for the versions of the rows in every state:

* `Effect.allVersions`: a condition on rows;
* `Effect.keyed`: a unique key identifies the rows;
* `Effect.derived`: how the open version of a row comes from the committed one.

`Present` and `Visible` say that a row is committed, or that a transaction sees it. Such a row
stays as long as no update writes the columns in question.
-/

set_option autoImplicit false

namespace ReadCommitted

open Sql (Update)

variable {τ ρ κ : Type} [DecidableEq τ]

section
variable {sys : System τ ρ κ} {s s' : State τ ρ κ} {a : Action τ} {t : τ} {i : Nat}
  {c c' : Cell τ ρ} {x y : ρ}

/-- A version after an action is an old version of the row, or the new value of one. -/
theorem Cell.Change.version (h : c.Change sys s s' i a c') (hx : x ∈ c'.versions) :
    x ∈ c.versions ∨ ∃ t u required y, .update u required ∈ sys.prog t ∧ y ∈ c.versions ∧
      u.cond y = true ∧ x = u.set y := by
  rcases Cell.mem_versions.mp hx with hx | ⟨t, hx⟩
  · rcases h.committed_of hx with hx | ⟨t, _, _, hx⟩
    · exact .inl (Cell.mem_versions.mpr (.inl hx))
    · exact .inl (Cell.mem_versions.mpr (.inr ⟨t, hx⟩))
  · rcases h.pending hx with hx | ⟨_, u, required, y, hnext, _, hseen, hcond, rfl⟩
    · exact .inl (Cell.mem_versions.mpr (.inr ⟨t, hx⟩))
    · have hy : y ∈ c.versions := Cell.mem_versions_of_seenBy hseen
      exact .inr ⟨t, u, required, y, System.next_mem hnext, hy, hcond, rfl⟩

/-- All versions of all rows meet the condition. -/
def AllVersions (K : ρ → Prop) (s : State τ ρ κ) : Prop :=
  ∀ c ∈ s.cells, ∀ x ∈ c.versions, K x

omit [DecidableEq τ] in
/-- A row of the initial table is committed and has no other version. -/
theorem State.cell_initial {rows : List ρ}
    (h : (State.initial rows : State τ ρ κ).cells[i]? = some c) :
    ∃ r, rows[i]? = some r ∧ c = ⟨some r, none⟩ := by
  change (rows.map fun r => (⟨some r, none⟩ : Cell τ ρ))[i]? = some c at h
  rw [List.getElem?_map] at h
  obtain ⟨r, hr, rfl⟩ := Option.map_eq_some_iff.mp h
  exact ⟨r, hr, rfl⟩

omit [DecidableEq τ] in
/-- At the start the committed rows are the only versions. -/
theorem AllVersions.initial {K : ρ → Prop} {rows : List ρ} (h : ∀ r ∈ rows, K r) :
    AllVersions K (State.initial rows : State τ ρ κ) := by
  intro c hc x hx
  obtain ⟨i, hi⟩ := List.mem_iff_getElem?.mp hc
  obtain ⟨r, hr, rfl⟩ := State.cell_initial hi
  have hxr : x = r := by simpa [Cell.versions] using hx
  rw [hxr]
  exact h r (List.mem_of_getElem? hr)

/-- A condition that inserts establish and updates keep holds of all versions. -/
theorem Effect.allVersions {K : ρ → Prop} (h : Effect sys s a s')
    (hinsert : ∀ t make required rows row, .insert make required ∈ sys.prog t →
      make rows = some row → K row)
    (hupdate : ∀ t u required x, .update u required ∈ sys.prog t → K x → K (u.set x))
    (hs : AllVersions K s) : AllVersions K s' := by
  intro c' hc' x hx
  obtain ⟨i, hi⟩ := List.mem_iff_getElem?.mp hc'
  rcases h.cell_of hi with ⟨c, hc, hchange⟩ | ⟨t, row, hins, _, rfl⟩
  · have hold : ∀ y ∈ c.versions, K y := hs c (List.mem_of_getElem? hc)
    rcases hchange.version hx with hx | ⟨t, u, required, y, hmem, hy, _, rfl⟩
    · exact hold x hx
    · exact hupdate t u required y hmem (hold y hy)
  · obtain ⟨make, required, hnext, hmake⟩ := hins.made
    have hrow : x = row := by simpa [Cell.versions] using hx
    rw [hrow]
    exact hinsert t make required _ row (System.next_mem hnext) hmake

/-- Two versions have the same key exactly when they are versions of one row. -/
def Keyed {α : Type} (key : ρ → α) (s : State τ ρ κ) : Prop :=
  ∀ (i j : Nat) ci cj, s.cells[i]? = some ci → s.cells[j]? = some cj →
    ∀ x ∈ ci.versions, ∀ y ∈ cj.versions, (key x = key y ↔ i = j)

omit [DecidableEq τ] in
/-- At the start the keys are those of the committed rows. -/
theorem Keyed.initial {α : Type} {key : ρ → α} {rows : List ρ} (h : (rows.map key).Nodup) :
    Keyed key (State.initial rows : State τ ρ κ) := by
  intro i j ci cj hi hj x hx y hy
  obtain ⟨ri, hri, rfl⟩ := State.cell_initial hi
  obtain ⟨rj, hrj, rfl⟩ := State.cell_initial hj
  have hxr : x = ri := by simpa [Cell.versions] using hx
  have hyr : y = rj := by simpa [Cell.versions] using hy
  rw [hxr, hyr]
  have hki : (rows.map key)[i]? = some (key ri) := by rw [List.getElem?_map, hri]; rfl
  have hkj : (rows.map key)[j]? = some (key rj) := by rw [List.getElem?_map, hrj]; rfl
  have hlt : i < (rows.map key).length := (List.getElem?_eq_some_iff.mp hki).1
  rw [← List.getElem?_inj hlt h, hki, hkj, Option.some.injEq]

/-- A key that the unique constraint covers and that no update writes identifies the rows. -/
theorem Effect.keyed {α : Type} {key : ρ → α} (h : Effect sys s a s')
    (hconflict : ∀ x y, sys.conflict x y = false → key x ≠ key y)
    (hupdate : ∀ t u required x, .update u required ∈ sys.prog t → key (u.set x) = key x)
    (hs : Keyed key s) : Keyed key s' := by
  -- an old cell has a version with the same key in the state before
  have hold : ∀ {i : Nat} {c c' : Cell τ ρ} {x : ρ}, c.Change sys s s' i a c' →
      x ∈ c'.versions → ∃ x₀ ∈ c.versions, key x = key x₀ := by
    intro i c c' x hchange hx
    rcases hchange.version hx with hx | ⟨t, u, required, y, hmem, hy, _, rfl⟩
    · exact ⟨x, hx, rfl⟩
    · exact ⟨y, hy, hupdate t u required y hmem⟩
  -- a new row has a key of its own
  have hnew : ∀ {i : Nat} {c : Cell τ ρ} {t : τ} {x row : ρ}, s.cells[i]? = some c →
      x ∈ c.versions → Inserted sys s s' t row → key row ≠ key x := by
    intro i c t x row hc hx hins
    exact hconflict _ _ (hins.new c (List.mem_of_getElem? hc) x hx)
  have hlt : ∀ {i : Nat} {c : Cell τ ρ}, s.cells[i]? = some c → i < s.cells.length :=
    fun hc => (List.getElem?_eq_some_iff.mp hc).1
  intro i j ci' cj' hi hj x hx y hy
  rcases h.cell_of hi with ⟨ci, hci, hchangei⟩ | ⟨t, row, hinsi, rfl, rfl⟩
  · obtain ⟨x₀, hx₀, hkeyx⟩ := hold hchangei hx
    rcases h.cell_of hj with ⟨cj, hcj, hchangej⟩ | ⟨t, row, hinsj, rfl, rfl⟩
    · obtain ⟨y₀, hy₀, hkeyy⟩ := hold hchangej hy
      rw [hkeyx, hkeyy]
      exact hs i j ci cj hci hcj x₀ hx₀ y₀ hy₀
    · have hrow : y = row := by simpa [Cell.versions] using hy
      rw [hkeyx, hrow]
      exact iff_of_false (hnew hci hx₀ hinsj).symm (Nat.ne_of_lt (hlt hci))
  · have hrowi : x = row := by simpa [Cell.versions] using hx
    rcases h.cell_of hj with ⟨cj, hcj, hchangej⟩ | ⟨_, _, _, rfl, _⟩
    · obtain ⟨y₀, hy₀, hkeyy⟩ := hold hchangej hy
      rw [hkeyy, hrowi]
      exact iff_of_false (hnew hcj hy₀ hinsi) (Nat.ne_of_gt (hlt hcj))
    · -- the new cell has one version
      rw [hi] at hj
      cases hj
      have hrowj : y = row := by simpa [Cell.versions] using hy
      rw [hrowi, hrowj]
      exact iff_of_true rfl rfl

/-- An open version of a committed row is derived from it. -/
def Derived (R : τ → ρ → ρ → Prop) (s : State τ ρ κ) : Prop :=
  ∀ c ∈ s.cells, ∀ r t x, c.committed = some r → c.pending = some (t, x) → R t r x

omit [DecidableEq τ] in
/-- At the start nothing is written. -/
theorem Derived.initial {R : τ → ρ → ρ → Prop} (rows : List ρ) :
    Derived R (State.initial rows : State τ ρ κ) := by
  intro c hc r t x _ hx
  obtain ⟨i, hi⟩ := List.mem_iff_getElem?.mp hc
  obtain ⟨r, _, rfl⟩ := State.cell_initial hi
  cases hx

/-- What every update of a transaction establishes and keeps holds between the committed
version of a row and the open one. -/
theorem Effect.derived {R : τ → ρ → ρ → Prop} (h : Effect sys s a s')
    (hupdate : ∀ t u required r, .update u required ∈ sys.prog t → u.cond r = true →
      R t r (u.set r))
    (hagain : ∀ t u required r x, .update u required ∈ sys.prog t → R t r x →
      R t r (u.set x))
    (hs : Derived R s) : Derived R s' := by
  intro c' hc' r t x hr hx
  obtain ⟨i, hi⟩ := List.mem_iff_getElem?.mp hc'
  rcases h.cell_of hi with ⟨c, hc, hchange⟩ | ⟨_, _, _, _, rfl⟩
  rotate_left
  · cases hr
  have hold := hs c (List.mem_of_getElem? hc)
  rcases hchange.pending hx with hpending | ⟨rfl, u, required, y, hnext, hfree, hseen, hcond, rfl⟩
  · rcases hchange.committed_of hr with hr | ⟨t', _, rfl, hcommit⟩
    · exact hold r t x hr hpending
    · -- the commit has made the open version the committed one
      rw [hpending] at hcommit
      cases hcommit
      rw [State.commit, List.getElem?_map, hc] at hi
      cases hi
      exact absurd hx (c.pending_commit_ne t r)
  · rcases hchange.committed_of hr with hr | ⟨_, hne, _, _⟩
    · have hmem := System.next_mem hnext
      unfold Cell.seenBy at hseen
      split at hseen
      · rename_i t' z hz
        rw [if_pos (hfree t' z hz)] at hseen
        cases hseen
        rw [hfree t' y hz] at hz
        exact hagain t u required r y hmem (hold r t y hr hz)
      · rw [hr] at hseen
        cases hseen
        exact hupdate t u required r hmem hcond
    · cases hne

end

/-! ### Rows that are committed or visible -/

/-- A committed row with the value `v` of `f`. -/
def Present {α : Type} (f : ρ → α) (s : State τ ρ κ) (v : α) : Prop :=
  ∃ c ∈ s.cells, ∃ x, c.committed = some x ∧ f x = v

/-- A row with the value `v` of `f` that the transaction sees. -/
def Visible {α : Type} (f : ρ → α) (s : State τ ρ κ) (t : τ) (v : α) : Prop :=
  ∃ c ∈ s.cells, ∃ x, c.seenBy t = some x ∧ f x = v

section
variable {sys : System τ ρ κ} {s s' : State τ ρ κ} {a : Action τ} {t : τ} {c : Cell τ ρ}
  {x : ρ} {α : Type} {f : ρ → α} {v : α}

/-- A transaction sees its own version. -/
theorem Cell.seenBy_of_pending (h : c.pending = some (t, x)) : c.seenBy t = some x := by
  simp [Cell.seenBy, h]

/-- Without a version of its own it sees the committed one. -/
theorem Cell.seenBy_of_ne (h : ∀ x, c.pending ≠ some (t, x)) : c.seenBy t = c.committed := by
  unfold Cell.seenBy
  split
  · rename_i t' x hpending
    refine if_neg fun heq => h x ?_
    rw [hpending, heq]
  · rfl

/-- It does not see the version of another transaction. -/
theorem Cell.seenBy_of_other {t' : τ} (h : c.pending = some (t', x)) (hne : t' ≠ t) :
    c.seenBy t = c.committed := by
  simp [Cell.seenBy, h, hne]

/-- A transaction sees the version that it has written, or the committed one. -/
theorem Cell.seenBy_cases (t : τ) (c : Cell τ ρ) :
    (∃ x, c.pending = some (t, x) ∧ c.seenBy t = some x) ∨
      (∀ x, c.pending ≠ some (t, x)) ∧ c.seenBy t = c.committed := by
  by_cases h : ∃ x, c.pending = some (t, x)
  · obtain ⟨x, hx⟩ := h
    exact .inl ⟨x, hx, Cell.seenBy_of_pending hx⟩
  · have hne : ∀ x, c.pending ≠ some (t, x) := fun x hx => h ⟨x, hx⟩
    exact .inr ⟨hne, Cell.seenBy_of_ne hne⟩

/-- What a transaction sees is committed by its commit. -/
theorem Cell.commit_of_seenBy (h : c.seenBy t = some x) : (c.commit t).committed = some x := by
  rcases Cell.commit_cases t c with ⟨heq, hne⟩ | ⟨y, hpending, heq⟩
  · rw [heq, ← Cell.seenBy_of_ne hne]
    exact h
  · rw [Cell.seenBy_of_pending hpending] at h
    rw [heq]
    exact h

/-- What a transaction sees is there after its commit. -/
theorem Visible.commit (h : Visible f s t v) : Present f (s.commit t) v := by
  obtain ⟨c, hc, x, hseen, hx⟩ := h
  exact ⟨c.commit t, List.mem_map.mpr ⟨c, hc, rfl⟩, x, Cell.commit_of_seenBy hseen, hx⟩

/-- A committed row stays, when no update writes `f`. -/
theorem Effect.present (h : Effect sys s a s') (hd : Derived (fun _ r x => f x = f r) s)
    (hv : Present f s v) : Present f s' v := by
  obtain ⟨c, hc, x, hx, hxv⟩ := hv
  obtain ⟨i, hi⟩ := List.mem_iff_getElem?.mp hc
  obtain ⟨c', hi', hchange⟩ := h.cell hi
  obtain ⟨y, hy, hyx⟩ := hchange.committed_some hx
  refine ⟨c', List.mem_of_getElem? hi', y, hy, ?_⟩
  rcases hyx with rfl | ⟨t, hpending⟩
  · exact hxv
  · exact (hd c hc x t y hx hpending).trans hxv

/-- A transaction sees the rows that are committed. -/
theorem Present.visible (hd : Derived (fun _ r x => f x = f r) s) (hv : Present f s v) :
    Visible f s t v := by
  obtain ⟨c, hc, x, hx, hxv⟩ := hv
  rcases c.seenBy_cases t with ⟨y, hpending, hseen⟩ | ⟨_, hseen⟩
  · exact ⟨c, hc, y, hseen, (hd c hc x t y hx hpending).trans hxv⟩
  · exact ⟨c, hc, x, hseen.trans hx, hxv⟩

/-- A transaction that goes on still sees the row, when no update writes `f`. -/
theorem Effect.visible (h : Effect sys s a s') (hd : Derived (fun _ r x => f x = f r) s)
    (hupdate : ∀ t u required x, .update u required ∈ sys.prog t → f (u.set x) = f x)
    (hactive : (s'.txns t).status = .active) (hv : Visible f s t v) : Visible f s' t v := by
  obtain ⟨c, hc, x, hseen, hxv⟩ := hv
  obtain ⟨i, hi⟩ := List.mem_iff_getElem?.mp hc
  obtain ⟨c', hi', hchange⟩ := h.cell hi
  have hmem : c' ∈ s'.cells := List.mem_of_getElem? hi'
  -- another transaction is the one that ends
  have hother : ∀ t', s' = s.commit t' ∨ s' = s.rollback t' → t' ≠ t := by
    rintro t' (rfl | rfl) rfl <;> simp [State.commit, State.rollback] at hactive
  cases hchange with
  | same => exact ⟨c, hmem, x, hseen, hxv⟩
  | @written t' u required _ hnext _ _ hfree =>
    refine ⟨_, hmem, ?_⟩
    rcases Cell.write_cases t' u c with ⟨heq, _⟩ | ⟨y, hseen', _, heq⟩
    · rw [heq]
      exact ⟨x, hseen, hxv⟩
    · rw [heq]
      by_cases heq' : t' = t
      · subst heq'
        rw [hseen] at hseen'
        cases hseen'
        refine ⟨u.set x, Cell.seenBy_of_pending rfl, ?_⟩
        rw [hupdate t' u required x (System.next_mem hnext), hxv]
      · -- the row is free for the other transaction, so the committed version is seen
        have hne : ∀ y, c.pending ≠ some (t, y) := fun y hy => heq' (hfree t y hy).symm
        rw [Cell.seenBy_of_ne hne] at hseen
        exact ⟨x, (Cell.seenBy_of_other rfl heq').trans hseen, hxv⟩
  | @committed t' hs' _ _ =>
    refine ⟨_, hmem, ?_⟩
    rcases Cell.commit_cases t' c with ⟨heq, _⟩ | ⟨y, hpending, heq⟩
    · rw [heq]
      exact ⟨x, hseen, hxv⟩
    · rw [Cell.seenBy_of_other hpending (hother t' (.inl hs'))] at hseen
      rw [heq]
      exact ⟨y, rfl, (hd c hc x t' y hseen hpending).trans hxv⟩
  | rolledBack hs' _ =>
    refine ⟨_, hmem, ?_⟩
    rcases Cell.rollback_cases a.actor c with ⟨heq, _⟩ | ⟨y, hpending, heq⟩
    · rw [heq]
      exact ⟨x, hseen, hxv⟩
    · rw [Cell.seenBy_of_other hpending (hother _ (.inr hs'))] at hseen
      rw [heq]
      exact ⟨x, hseen, hxv⟩

end

end ReadCommitted
