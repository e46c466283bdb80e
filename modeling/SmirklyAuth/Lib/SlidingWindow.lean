import Mathlib.Algebra.Order.Ring.Int
import Mathlib.Data.List.Count
import SmirklyAuth.Lib.RowVersions

/-!
# `SmirklyAuth.Lib.SlidingWindow`: a limiter that counts and inserts under locks

Every row has a time and belongs to some scopes. Each scope has a limit and a lock key. A
transaction takes the locks of the scopes of its row, counts the rows of each scope since
`time - window`, and inserts its row when every count is below the limit (`Limiter.Guards`).

The transactions interleave statement by statement, and their times come in any order.
`Limiter.bounded_of_steps`: in every state, every interval of length `window` has at most
`limit` committed rows of a scope. The reason is that the row of a window that was inserted last
has counted the others: the transactions that had inserted them have committed, because they
held the same lock.
-/

set_option autoImplicit false

namespace ReadCommitted

/-- The scopes `ι` of the rows, and what is limited. -/
structure Limiter (ρ κ ι : Type) where
  holds : ι → ρ → Bool
  time : ρ → Int
  window : Int
  limit : ι → Nat
  key : ι → κ

namespace Limiter

variable {τ ρ κ ι : Type} [DecidableEq τ]

/-- The row is in the scope and not older than `since`. -/
def recent (lim : Limiter ρ κ ι) (i : ι) (since : Int) (r : ρ) : Bool :=
  lim.holds i r && decide (since ≤ lim.time r)

/-- The row is in the scope and its time is in the closed interval from `T` to `T + window`. -/
def inside (lim : Limiter ρ κ ι) (i : ι) (T : Int) (r : ρ) : Bool :=
  lim.holds i r && decide (T ≤ lim.time r) && decide (lim.time r ≤ T + lim.window)

/-- No interval has more rows of a scope than its limit. -/
def Bounded (lim : Limiter ρ κ ι) (rows : List ρ) : Prop :=
  ∀ i T, rows.countP (lim.inside i T) ≤ lim.limit i

/-- The transactions respect the limits.

- `inserts`: rows are inserted and never updated.
- `locked`: the locks of the scopes are taken before the row is inserted.
- `counted`: a row is inserted only when every scope of it is below its limit. -/
structure Guards (lim : Limiter ρ κ ι) (sys : System τ ρ κ) : Prop where
  inserts : ∀ t u required, .update u required ∉ sys.prog t
  locked : ∀ t (pc : Nat) make required rows row i,
    (sys.prog t)[pc]? = some (.insert make required) → make rows = some row →
    lim.holds i row = true → ∃ j < pc, (sys.prog t)[j]? = some (.lock (lim.key i))
  counted : ∀ t make required rows row i, .insert make required ∈ sys.prog t →
    make rows = some row → lim.holds i row = true →
    rows.countP (lim.recent i (lim.time row - lim.window)) < lim.limit i

omit [DecidableEq τ] in
/-- Transactions that take locks and then insert one row respect the limits, when each of them
has locked every scope of its row and has found it below its limit. -/
theorem guards_of_prog {lim : Limiter ρ κ ι} {sys : System τ ρ κ} {locks : τ → List κ}
    {make : τ → List ρ → Option ρ} {required : τ → Bool}
    (hprog : ∀ t, sys.prog t = (locks t).map .lock ++ [.insert (make t) (required t)])
    (h : ∀ t rows row i, make t rows = some row → lim.holds i row = true →
      lim.key i ∈ locks t ∧
        rows.countP (lim.recent i (lim.time row - lim.window)) < lim.limit i) :
    lim.Guards sys where
  inserts := by
    intro t u required hmem
    simp [hprog] at hmem
  locked := by
    intro t pc make' required' rows row i hpc hmake hi
    rw [hprog, List.getElem?_append] at hpc
    split at hpc
    · simp [List.getElem?_map] at hpc
    · -- the insert is the last statement
      rename_i hlen
      rw [List.length_map] at hlen hpc
      rw [List.getElem?_singleton] at hpc
      split at hpc
      · cases hpc
        obtain ⟨j, hj, hkey⟩ := List.mem_iff_getElem.mp (h t rows row i hmake hi).1
        refine ⟨j, by omega, ?_⟩
        rw [hprog, List.getElem?_append_left (by rw [List.length_map]; exact hj),
          List.getElem?_map, List.getElem?_eq_getElem hj, hkey]
        rfl
      · cases hpc
  counted := by
    intro t make' required' rows row i hmem hmake hi
    simp only [hprog, List.mem_append, List.mem_map, reduceCtorEq, and_false, exists_false,
      List.mem_singleton, Statement.insert.injEq, false_or] at hmem
    rw [hmem.1] at hmake
    exact (h t rows row i hmake hi).2

/-- What holds in every state of a run.

- `fresh`: an open version is a new row.
- `held`: the transaction that has inserted a row holds the locks of its scopes.
- `bounded`: the bound holds for all rows, committed or not. -/
structure Invariant (lim : Limiter ρ κ ι) (sys : System τ ρ κ) (s : State τ ρ κ) : Prop where
  sound : Sound sys s
  fresh : ∀ c ∈ s.cells, ∀ t x, c.pending = some (t, x) → c.committed = none
  held : ∀ c ∈ s.cells, ∀ t x i, c.pending = some (t, x) → lim.holds i x = true →
    (lim.key i, t) ∈ s.locks
  bounded : ∀ i T, s.cells.countP (fun c => c.versions.any (lim.inside i T)) ≤ lim.limit i

section
variable {lim : Limiter ρ κ ι} {sys : System τ ρ κ} {s s' : State τ ρ κ} {a : Action τ} {t : τ}
  {i : ι} {T : Int} {c c' : Cell τ ρ} {x : ρ}

omit [DecidableEq τ] in
/-- The start, if the committed rows keep the limits. -/
theorem Invariant.initial {rows : List ρ} (h : lim.Bounded rows) :
    lim.Invariant sys (State.initial rows : State τ ρ κ) where
  sound := Sound.initial rows
  fresh := by
    intro c hc t x hx
    obtain ⟨j, hj⟩ := List.mem_iff_getElem?.mp hc
    obtain ⟨r, _, rfl⟩ := State.cell_initial hj
    cases hx
  held := by
    intro c hc t x i hx
    obtain ⟨j, hj⟩ := List.mem_iff_getElem?.mp hc
    obtain ⟨r, _, rfl⟩ := State.cell_initial hj
    cases hx
  bounded := by
    intro i T
    have hany : ∀ r : ρ, (⟨some r, none⟩ : Cell τ ρ).versions.any (lim.inside i T) =
        lim.inside i T r := by
      intro r
      simp [Cell.versions]
    change (rows.map fun r => (⟨some r, none⟩ : Cell τ ρ)).countP _ ≤ lim.limit i
    rw [List.countP_map]
    simp only [Function.comp_def, hany]
    exact h i T

/-- An action on a row that is there adds no version. -/
theorem Guards.version_of (hg : lim.Guards sys) {j : Nat}
    (hchange : c.Change sys s s' j a c') (hx : x ∈ c'.versions) : x ∈ c.versions := by
  rcases hchange.version hx with hx | ⟨t, u, required, _, hmem, _⟩
  · exact hx
  · exact absurd hmem (hg.inserts t u required)

/-- A row of a scope that a transaction has locked is visible to the transaction. -/
theorem Invariant.seenBy (hs : lim.Invariant sys s) (hc : c ∈ s.cells)
    (hlock : (lim.key i, t) ∈ s.locks) (hx : x ∈ c.versions) (hi : lim.holds i x = true) :
    c.seenBy t = some x := by
  rcases Cell.mem_versions.mp hx with hx | ⟨t', hx⟩
  · have hne : ∀ y, c.pending ≠ some (t, y) := by
      intro y hy
      rw [hs.fresh c hc t y hy] at hx
      cases hx
    rw [Cell.seenBy_of_ne hne]
    exact hx
  · -- the transaction that has inserted the row holds the same lock
    have hlock' : (lim.key i, t') ∈ s.locks := hs.held c hc t' x i hx hi
    have heq : t' = t := hs.sound.exclusive _ t' t hlock' hlock
    subst heq
    exact Cell.seenBy_of_pending hx

omit [DecidableEq τ] in
/-- A row of the window is recent when the last row of the window is recorded. -/
theorem recent_of_inside {row : ρ} (hrow : lim.inside i T row = true)
    (hx : lim.inside i T x = true) : lim.recent i (lim.time row - lim.window) x = true := by
  simp only [inside, Bool.and_eq_true, decide_eq_true_eq] at hrow hx
  simp only [recent, Bool.and_eq_true, decide_eq_true_eq]
  exact ⟨hx.1.1, by omega⟩

/-- The rows of a window are among those that the transaction counts for a row of the window. -/
theorem Invariant.countP_le (hs : lim.Invariant sys s) {row : ρ}
    (hlock : (lim.key i, t) ∈ s.locks) (hrow : lim.inside i T row = true) :
    s.cells.countP (fun c => c.versions.any (lim.inside i T)) ≤
      (s.view t).countP (lim.recent i (lim.time row - lim.window)) := by
  rw [State.view, List.countP_filterMap]
  refine List.countP_mono_left fun c hc hany => ?_
  obtain ⟨x, hx, hinside⟩ := List.any_eq_true.mp hany
  have hholds : lim.holds i x = true := by
    simp only [inside, Bool.and_eq_true] at hinside
    exact hinside.1.1
  rw [hs.seenBy hc hlock hx hholds]
  exact recent_of_inside hrow hinside

/-- A new row leaves every window within its limit. -/
theorem Invariant.inserted (hs : lim.Invariant sys s) (hg : lim.Guards sys) {row : ρ}
    (hins : Inserted sys s s' t row) (i : ι) (T : Int) :
    s'.cells.countP (fun c => c.versions.any (lim.inside i T)) ≤ lim.limit i := by
  have hversions : (⟨none, some (t, row)⟩ : Cell τ ρ).versions = [row] := rfl
  rw [hins.cells, List.countP_append, List.countP_singleton, hversions]
  by_cases hrow : lim.inside i T row = true
  · obtain ⟨make, required, hnext, hmake⟩ := hins.made
    obtain ⟨hactive, hcurrent⟩ := System.next_eq_some hnext
    have hholds : lim.holds i row = true := by
      simp only [inside, Bool.and_eq_true] at hrow
      exact hrow.1.1
    obtain ⟨j, hj, hlocked⟩ := hg.locked t _ make required _ row i hcurrent hmake hholds
    have hlock : (lim.key i, t) ∈ s.locks := hs.sound.held t hactive j _ hj hlocked
    have hcounted := hg.counted t make required _ row i (System.next_mem hnext) hmake hholds
    have hle := hs.countP_le hlock hrow
    simp only [List.any_cons, List.any_nil, hrow, Bool.or_false, if_true]
    omega
  · have hbounded := hs.bounded i T
    simp only [List.any_cons, List.any_nil, Bool.or_false, hrow, Bool.false_eq_true, if_false]
    exact hbounded

/-- Every action keeps the invariant. -/
theorem Invariant.step (hs : lim.Invariant sys s) (hg : lim.Guards sys)
    (h : Effect sys s a s') : lim.Invariant sys s' where
  sound := h.sound hs.sound
  fresh := by
    intro c' hc' t x hx
    obtain ⟨j, hj⟩ := List.mem_iff_getElem?.mp hc'
    rcases h.cell_of hj with ⟨c, hc, hchange⟩ | ⟨_, _, _, _, rfl⟩
    · have hmem : c ∈ s.cells := List.mem_of_getElem? hc
      rcases hchange.pending hx with hpending | ⟨_, u, required, _, hnext, _⟩
      · -- the commit of the row would have closed the version
        by_contra hcommitted
        obtain ⟨y, hy⟩ := Option.ne_none_iff_exists'.mp hcommitted
        rcases hchange.committed_of hy with hold | ⟨t', _, rfl, hpending'⟩
        · rw [hs.fresh c hmem t x hpending] at hold
          cases hold
        · cases hpending.symm.trans hpending'
          rw [State.commit, List.getElem?_map, hc] at hj
          cases hj
          exact c.pending_commit_ne t x hx
      · exact absurd (System.next_mem hnext) (hg.inserts t u required)
    · rfl
  held := by
    intro c' hc' t x i hx hi
    have hactive : (s'.txns t).status = .active := (h.sound hs.sound).active c' hc' t x hx
    refine h.lock_kept hactive ?_
    obtain ⟨j, hj⟩ := List.mem_iff_getElem?.mp hc'
    rcases h.cell_of hj with ⟨c, hc, hchange⟩ | ⟨_, row, hins, _, rfl⟩
    · rcases hchange.pending hx with hpending | ⟨_, u, required, _, hnext, _⟩
      · exact hs.held c (List.mem_of_getElem? hc) t x i hpending hi
      · exact absurd (System.next_mem hnext) (hg.inserts t u required)
    · cases hx
      obtain ⟨make, required, hnext, hmake⟩ := hins.made
      obtain ⟨hactive', hcurrent⟩ := System.next_eq_some hnext
      obtain ⟨j, hj, hlocked⟩ := hg.locked t _ make required _ x i hcurrent hmake hi
      exact hs.sound.held t hactive' j _ hj hlocked
  bounded := by
    intro i T
    -- an action on the rows that are there adds no version
    have hmap : ∀ f : Cell τ ρ → Cell τ ρ, (∀ c x, x ∈ (f c).versions → x ∈ c.versions) →
        (s.cells.map f).countP (fun c => c.versions.any (lim.inside i T)) ≤ lim.limit i := by
      intro f hf
      rw [List.countP_map]
      refine le_trans (List.countP_mono_left fun c _ hany => ?_) (hs.bounded i T)
      obtain ⟨x, hx, hinside⟩ := List.any_eq_true.mp hany
      exact List.any_eq_true.mpr ⟨x, hf c x hx, hinside⟩
    cases h with
    | locked _ _ => exact hs.bounded i T
    | passed _ _ => exact hs.bounded i T
    | opened _ _ => exact hs.bounded i T
    | finished _ _ _ => exact hs.bounded i T
    | inserted hnext hmake hnew =>
      exact hs.inserted hg ⟨rfl, ⟨_, _, hnext, hmake⟩, hnew⟩ i T
    | @touched t u required _ _ _ hnext _ _ _ _ =>
      exact absurd (System.next_mem hnext) (hg.inserts t u required)
    | @committed t hactive hnext =>
      refine hmap (·.commit t) fun c x hx => ?_
      exact hg.version_of (j := 0) (.committed rfl hactive hnext) hx
    | rolledBack hactive =>
      refine hmap (·.rollback a.actor) fun c x hx => ?_
      exact hg.version_of (j := 0) (.rolledBack rfl hactive) hx

/-- The committed rows are within the limits in every state of every run. -/
theorem bounded_of_steps [DecidableEq κ] {ok : State τ ρ κ → Action τ → Prop} {rows : List ρ}
    (hg : lim.Guards sys) (hrows : lim.Bounded rows)
    (h : Steps sys ok (State.initial rows) s) : lim.Bounded s.committedRows := by
  have hs : lim.Invariant sys s :=
    Steps.rule (fun _ _ _ hs _ heffect => hs.step hg heffect) h (.initial hrows)
  intro i T
  refine le_trans ?_ (hs.bounded i T)
  rw [State.committedRows, List.countP_filterMap]
  refine List.countP_mono_left fun c _ hany => ?_
  cases hx : c.committed with
  | none => simp [hx] at hany
  | some x =>
    have hinside : lim.inside i T x = true := by simpa [hx] using hany
    exact List.any_eq_true.mpr ⟨x, Cell.mem_versions.mpr (.inl hx), hinside⟩

end

end Limiter

end ReadCommitted
