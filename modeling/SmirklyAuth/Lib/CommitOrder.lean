import SmirklyAuth.Lib.Atomic
import SmirklyAuth.Lib.RowVersions

/-!
# `SmirklyAuth.Lib.CommitOrder`: runs with the result of the transactions in commit order

READ COMMITTED does not make transactions serializable. This file says when it does: the table
of every run is the one that the committed transactions yield when they are executed one after
the other, in the order of their commits (`serial_of_steps`). The conditions are

* `Separate`: the unique key is not written, an inserted row does not depend on what the
  transaction sees, an `UPDATE` does not meet a row that its own transaction has inserted, and
  a row that does not meet an `UPDATE` does not come to meet it through another one;
* `Sealed`: while a transaction is active, no other one has an open row which an `UPDATE` that
  has started should have seen. It has to be shown for each system, from its keys or its locks.

The proof compares, for every active transaction and every row, the version that the transaction
sees with the one that its statements make of the newest committed version (`InStep`). A row that
the transaction has written is locked, so the committed version stays. A row that it has passed
does not meet its statements, and goes on not to meet them when another transaction commits.
-/

set_option autoImplicit false

namespace ReadCommitted

open Sql (Update)

variable {τ ρ κ : Type}

/-! ### Active transactions -/

section
variable [DecidableEq τ]

/-- The statements that the transaction is done with, as far as the row is concerned. -/
def System.done (sys : System τ ρ κ) (s : State τ ρ κ) (t : τ) (i : Nat) :
    List (Statement ρ κ) :=
  match (s.txns t).scan with
  | some scan => (sys.prog t).take (if i ∈ scan.ahead then (s.txns t).pc else (s.txns t).pc + 1)
  | none => (sys.prog t).take (s.txns t).pc

/-- The row that the transaction has inserted. -/
def Cell.ownedBy (t : τ) (c : Cell τ ρ) : Option ρ :=
  if c.committed.isSome then none else c.seenBy t

/-- The rows that the transaction has inserted. -/
def State.ownRows (s : State τ ρ κ) (t : τ) : List ρ := s.cells.filterMap (·.ownedBy t)

/-- The `UPDATE` is behind the transaction or in progress. -/
def Started (sys : System τ ρ κ) (s : State τ ρ κ) (t : τ) (u : Update ρ) : Prop :=
  ∃ (j : Nat) (required : Bool), (sys.prog t)[j]? = some (.update u required) ∧
    (j < (s.txns t).pc ∨ j = (s.txns t).pc ∧ (s.txns t).scan.isSome = true)

/-- No `UPDATE` that an active transaction has started meets a row that another transaction has
inserted and not committed. -/
def Sealed (sys : System τ ρ κ) (s : State τ ρ κ) : Prop :=
  ∀ t u, (s.txns t).status = .active → Started sys s t u → ∀ c ∈ s.cells, ∀ t' x,
    c.committed = none → c.pending = some (t', x) → t' ≠ t → u.cond x = false

/-- What the transaction sees of a committed row is what the statements make of it.

- `quiet`: a row that the transaction has not written does not meet the statements;
- `written`: a row that it has written is what they make of the committed version. -/
structure Cell.InStep (t : τ) (sts : List (Statement ρ κ)) (c : Cell τ ρ) : Prop where
  quiet : ∀ x, c.committed = some x → (∀ y, c.pending ≠ some (t, y)) →
    ∀ u required, .update u required ∈ sts → u.cond x = false
  written : ∀ x y, c.committed = some x → c.pending = some (t, y) → y = rewriteAll sts x

/-- The transaction has written a row that meets the `UPDATE` after the statements. -/
def Hit (s : State τ ρ κ) (t : τ) (sts : List (Statement ρ κ)) (u : Update ρ) : Prop :=
  ∃ c ∈ s.cells, ∃ x y, c.committed = some x ∧ c.pending = some (t, y) ∧
    u.cond (rewriteAll sts x) = true

/-- The transaction is in step with the committed rows.

- `ahead`: an `UPDATE` comes to each row once;
- `rows`: each row is in step, after the statements that the transaction is done with;
- `own`: the transaction has inserted the rows of the statements behind it;
- `made`: a required insert behind it has inserted a row;
- `hit`: a required `UPDATE` behind it has written a row. -/
structure InStep (sys : System τ ρ κ) (s : State τ ρ κ) (t : τ) : Prop where
  ahead : ∀ scan, (s.txns t).scan = some scan → scan.ahead.Nodup
  rows : ∀ (i : Nat) c, s.cells[i]? = some c → c.InStep t (sys.done s t i)
  own : s.ownRows t = newRows ((sys.prog t).take (s.txns t).pc)
  made : ∀ (j : Nat) make, j < (s.txns t).pc →
    (sys.prog t)[j]? = some (.insert make true) → (make []).isSome = true
  hit : ∀ (j : Nat) u, (sys.prog t)[j]? = some (.update u true) →
    (j < (s.txns t).pc ∨ j = (s.txns t).pc ∧ (s.txns t).scan.any (·.touched) = true) →
      Hit s t ((sys.prog t).take j) u

end

section
variable [DecidableEq τ] {α : Type} [DecidableEq α] {sys : System τ ρ κ} {key : ρ → α}
  {s s' : State τ ρ κ} {a : Action τ} {t : τ} {i : Nat} {c c' : Cell τ ρ} {x y : ρ}
  {u : Update ρ} {required : Bool} {st : Statement ρ κ} {sts : List (Statement ρ κ)}

/-! ### Rows in step -/

/-- What a transaction sees of a row in step with its statements. -/
theorem Cell.InStep.seenBy (h : c.InStep t sts) (hx : c.committed = some x) :
    c.seenBy t = some (rewriteAll sts x) := by
  rcases c.seenBy_cases t with ⟨y, hpending, hseen⟩ | ⟨hne, hseen⟩
  · rw [hseen, h.written x y hx hpending]
  · rw [hseen, hx, rewriteAll_of_quiet (h.quiet x hx hne)]

omit [DecidableEq τ] in
/-- A row that is not committed is in step with anything. -/
theorem Cell.InStep.of_none (h : c.committed = none) : c.InStep t sts where
  quiet x hx := by
    rw [h] at hx
    cases hx
  written x y hx := by
    rw [h] at hx
    cases hx

/-- An `UPDATE` that does not meet what the transaction sees. -/
theorem Cell.InStep.skip (h : c.InStep t sts)
    (hmiss : ∀ y, c.seenBy t = some y → u.cond y = false) :
    c.InStep t (sts ++ [.update u required]) where
  quiet x hx hfree v required' hv := by
    rw [List.mem_append, List.mem_singleton] at hv
    rcases hv with hv | hv
    · exact h.quiet x hx hfree v required' hv
    · cases hv
      exact hmiss x ((Cell.seenBy_of_ne hfree).trans hx)
  written x y hx hy := by
    rw [rewriteAll_snoc, ← h.written x y hx hy]
    exact (Update.apply_neg (hmiss y (Cell.seenBy_of_pending hy))).symm

/-- An `UPDATE` does not change the committed version. -/
theorem Cell.committed_write (t : τ) (u : Update ρ) (c : Cell τ ρ) :
    (c.write t u).committed = c.committed := by
  rcases Cell.write_cases t u c with ⟨heq, _⟩ | ⟨_, _, _, heq⟩ <;> rw [heq]

/-- The `UPDATE` comes to the row. -/
theorem Cell.InStep.write (h : c.InStep t sts) :
    (c.write t u).InStep t (sts ++ [.update u required]) := by
  rcases Cell.write_cases t u c with ⟨heq, hcond⟩ | ⟨z, hseen, hcond, heq⟩
  · rw [heq]
    refine h.skip fun y hy => ?_
    simpa [hy] using hcond
  · rw [heq]
    refine ⟨fun x hx hfree => absurd rfl (hfree (u.set z)), fun x y hx hy => ?_⟩
    cases hy
    cases hseen.symm.trans (h.seenBy hx)
    rw [rewriteAll_snoc]
    exact (Update.apply_pos hcond).symm

omit [DecidableEq τ] in
/-- A statement that is not an `UPDATE` makes no difference to the rows that are there. -/
theorem Cell.InStep.snoc_iff (hst : ∀ u required, st ≠ .update u required) :
    c.InStep t (sts ++ [st]) ↔ c.InStep t sts := by
  have hmem : ∀ u required, .update u required ∈ sts ++ [st] ↔ .update u required ∈ sts := by
    intro u required
    rw [List.mem_append, List.mem_singleton]
    exact or_iff_left fun heq => hst u required heq.symm
  have hrewrite : ∀ x, rewriteAll (sts ++ [st]) x = rewriteAll sts x := by
    intro x
    rw [rewriteAll_snoc]
    cases st with
    | update u required => exact absurd rfl (hst u required)
    | lock key => rfl
    | insert make required => rfl
  constructor
  · intro h
    exact ⟨fun x hx hfree u required hu => h.quiet x hx hfree u required ((hmem u required).mpr hu),
      fun x y hx hy => (h.written x y hx hy).trans (hrewrite x)⟩
  · intro h
    exact ⟨fun x hx hfree u required hu => h.quiet x hx hfree u required ((hmem u required).mp hu),
      fun x y hx hy => (h.written x y hx hy).trans (hrewrite x).symm⟩

/-- A row that a transaction has written does not change while others act. -/
theorem Cell.Change.kept (h : c.Change sys s s' i a c') (hpending : c.pending = some (t, y))
    (hne : t ≠ a.actor) : c' = c := by
  cases h with
  | same => rfl
  | written _ _ _ hfree => exact absurd (hfree t y hpending) hne
  | @committed t' _ _ _ =>
    rcases Cell.commit_cases t' c with ⟨heq, _⟩ | ⟨z, hz, _⟩
    · exact heq
    · cases hpending.symm.trans hz
      exact absurd rfl hne
  | rolledBack _ _ =>
    rcases Cell.rollback_cases a.actor c with ⟨heq, _⟩ | ⟨z, hz, _⟩
    · exact heq
    · cases hpending.symm.trans hz
      exact absurd rfl hne

/-- A transaction writes a row only when it acts. -/
theorem Cell.Change.pending_other (h : c.Change sys s s' i a c')
    (hpending : c'.pending = some (t, y)) (hne : t ≠ a.actor) : c.pending = some (t, y) := by
  rcases h.pending hpending with hold | ⟨rfl, _⟩
  · exact hold
  · exact absurd rfl hne

/-! ### Statements behind a transaction -/

omit [DecidableEq τ] in
/-- A statement that is done is one of the program. -/
theorem System.mem_of_done (h : st ∈ sys.done s t i) : st ∈ sys.prog t := by
  unfold System.done at h
  split at h <;> exact List.mem_of_mem_take h

omit [DecidableEq τ] in
/-- A transaction that is done with an `UPDATE` has started it. -/
theorem started_of_done (h : .update u required ∈ sys.done s t i) : Started sys s t u := by
  have htake : ∀ n, .update u required ∈ (sys.prog t).take n →
      ∃ j < n, (sys.prog t)[j]? = some (.update u required) := by
    intro n hmem
    obtain ⟨j, hj⟩ := List.mem_iff_getElem?.mp hmem
    rw [List.getElem?_take] at hj
    split at hj
    · rename_i hlt
      exact ⟨j, hlt, hj⟩
    · cases hj
  unfold System.done at h
  split at h
  · rename_i scan hscan
    obtain ⟨j, hj, hprog⟩ := htake _ h
    refine ⟨j, required, hprog, ?_⟩
    rw [hscan]
    split at hj
    · exact .inl hj
    · rcases Nat.lt_succ_iff_lt_or_eq.mp hj with hlt | heq
      · exact .inl hlt
      · exact .inr ⟨heq, rfl⟩
  · obtain ⟨j, hj, hprog⟩ := htake _ h
    exact ⟨j, required, hprog, .inl hj⟩

omit [DecidableEq τ] in
/-- The statements that are done after one more. -/
theorem System.take_succ (h : (sys.prog t)[(s.txns t).pc]? = some st) :
    (sys.prog t).take ((s.txns t).pc + 1) = (sys.prog t).take (s.txns t).pc ++ [st] := by
  rw [List.take_add_one, h]
  rfl

omit [DecidableEq τ] in
/-- The transaction is done with the statements behind it, and perhaps with the next one. -/
theorem System.done_cases (sys : System τ ρ κ) (s : State τ ρ κ) (t : τ) (i : Nat) :
    sys.done s t i = (sys.prog t).take (s.txns t).pc ∨
      sys.done s t i = (sys.prog t).take ((s.txns t).pc + 1) := by
  unfold System.done
  split
  · split
    · exact .inl rfl
    · exact .inr rfl
  · exact .inl rfl

/-! ### Steps of the other transactions -/

/-- A transaction without a version of its own owns no row. -/
theorem Cell.ownedBy_of_ne (h : ∀ y, c.pending ≠ some (t, y)) : c.ownedBy t = none := by
  unfold Cell.ownedBy
  split
  · rfl
  · rename_i hnone
    rw [Cell.seenBy_of_ne h]
    exact Option.not_isSome_iff_eq_none.mp hnone

/-- A committed row belongs to nobody. -/
theorem Cell.ownedBy_of_committed (h : c.committed = some x) : c.ownedBy t = none := by
  simp [Cell.ownedBy, h]

/-- Whose row it is does not change by the action of another transaction. -/
theorem Cell.Change.ownedBy_other (h : c.Change sys s s' i a c') (hne : t ≠ a.actor) :
    c'.ownedBy t = c.ownedBy t := by
  by_cases hpending : ∃ y, c.pending = some (t, y)
  · obtain ⟨y, hy⟩ := hpending
    rw [h.kept hy hne]
  · have hfree : ∀ y, c.pending ≠ some (t, y) := fun y hy => hpending ⟨y, hy⟩
    have hfree' : ∀ y, c'.pending ≠ some (t, y) := fun y hy => hfree y (h.pending_other hy hne)
    rw [Cell.ownedBy_of_ne hfree, Cell.ownedBy_of_ne hfree']

/-- What is read off the single rows stays, when no row changes in it. -/
theorem filterMap_eq_of_getElem {β γ : Type} {f : β → Option γ} {l l' : List β}
    (hlen : l'.length = l.length)
    (h : ∀ (i : Nat) c c', l[i]? = some c → l'[i]? = some c' → f c' = f c) :
    l'.filterMap f = l.filterMap f := by
  induction l generalizing l' with
  | nil => rw [List.length_eq_zero_iff.mp hlen]
  | cons c l ih =>
    cases l' with
    | nil => cases hlen
    | cons c' l' =>
      have hrest := ih (Nat.succ.inj hlen) fun i d d' hd hd' => h (i + 1) d d' hd hd'
      rw [List.filterMap_cons, List.filterMap_cons, hrest, h 0 c c' rfl rfl]

/-- The same for the rows of a table, where an action inserts at most one row. -/
theorem Effect.filterMap_cells (h : Effect sys s a s') {β : Type} {f : Cell τ ρ → Option β}
    (hf : ∀ (i : Nat) c c', s.cells[i]? = some c → c.Change sys s s' i a c' → f c' = f c) :
    s'.cells.filterMap f = s.cells.filterMap f ∨ ∃ row,
      s'.cells = s.cells ++ [⟨none, some (a.actor, row)⟩] := by
  have hsame : s'.cells.length = s.cells.length →
      s'.cells.filterMap f = s.cells.filterMap f := by
    intro hlen
    refine filterMap_eq_of_getElem hlen fun i c c' hc hc' => ?_
    obtain ⟨c'', hc'', hchange⟩ := h.cell hc
    cases hc'.symm.trans hc''
    exact hf i c c' hc hchange
  cases h with
  | @inserted t _ _ row _ _ _ => exact .inr ⟨row, rfl⟩
  | locked _ _ => exact .inl rfl
  | passed _ _ => exact .inl rfl
  | opened _ _ => exact .inl rfl
  | finished _ _ _ => exact .inl rfl
  | touched _ _ _ _ _ => exact .inl (hsame (List.length_set ..))
  | committed _ _ => exact .inl (hsame (List.length_map ..))
  | rolledBack _ => exact .inl (hsame (List.length_map ..))

/-- The rows of a transaction do not change by the action of another one. -/
theorem Effect.ownRows_other (h : Effect sys s a s') (hne : t ≠ a.actor) :
    s'.ownRows t = s.ownRows t := by
  rcases h.filterMap_cells (f := Cell.ownedBy t) fun i c c' _ hchange => hchange.ownedBy_other hne
    with heq | ⟨row, hcells⟩
  · exact heq
  · have hnone : (⟨none, some (a.actor, row)⟩ : Cell τ ρ).ownedBy t = none := by
      refine Cell.ownedBy_of_ne fun y hy => ?_
      cases hy
      exact hne rfl
    simp [State.ownRows, hcells, hnone]

/-- A row stays in step while another transaction acts. -/
theorem Cell.InStep.other (hrow : c.InStep t (sys.done s t i)) (hsys : Separate sys key)
    (hne : t ≠ a.actor) (hactive : (s.txns t).status = .active)
    (hother : c.InStep a.actor (sys.done s a.actor i)) (hsealed : Sealed sys s)
    (hc : c ∈ s.cells) (hchange : c.Change sys s s' i a c') :
    c'.InStep t (sys.done s t i) where
  quiet x hx hfree u required hu := by
    have hfree₀ : ∀ y, c.pending ≠ some (t, y) := by
      intro y hy
      rw [hchange.kept hy hne] at hfree
      exact hfree y hy
    rcases hchange.committed_of hx with hold | ⟨t', rfl, _, hpending⟩
    · exact hrow.quiet x hold hfree₀ u required hu
    · cases hcommitted : c.committed with
      | some x₀ =>
        -- the other transaction has rewritten a row that was quiet
        rw [hother.written x₀ x hcommitted hpending]
        have hold := hrow.quiet x₀ hcommitted hfree₀ u required hu
        exact hsys.rewriteAll_cond (System.mem_of_done hu) (fun _ => System.mem_of_done) hold
      | none =>
        exact hsealed t u hactive (started_of_done hu) c hc t' x hcommitted hpending hne.symm
  written x y hx hy := by
    have hold := hchange.pending_other hy hne
    rw [hchange.kept hold hne] at hx
    exact hrow.written x y hx hold

/-- A transaction stays in step while another one acts. -/
theorem InStep.other (hs : InStep sys s t) (hsys : Separate sys key) (h : Effect sys s a s')
    (hne : t ≠ a.actor) (hactive : (s.txns t).status = .active)
    (hother : InStep sys s a.actor) (hsealed : Sealed sys s) : InStep sys s' t := by
  have hframe := h.frame hne
  refine ⟨?_, ?_, ?_, ?_, ?_⟩
  · rw [hframe]
    exact hs.ahead
  · intro i c' hc'
    rcases h.cell_of hc' with ⟨c, hc, hchange⟩ | ⟨_, _, _, _, rfl⟩
    · rw [System.done, hframe, ← System.done]
      exact (hs.rows i c hc).other hsys hne hactive (hother.rows i c hc) hsealed
        (List.mem_of_getElem? hc) hchange
    · exact .of_none rfl
  · rw [h.ownRows_other hne, hframe]
    exact hs.own
  · rw [hframe]
    exact hs.made
  · intro j u hu hj
    rw [hframe] at hj
    obtain ⟨c, hc, x, y, hx, hy, hcond⟩ := hs.hit j u hu hj
    obtain ⟨i, hi⟩ := List.mem_iff_getElem?.mp hc
    obtain ⟨c', hi', hchange⟩ := h.cell hi
    rw [hchange.kept hy hne] at hi'
    exact ⟨c, List.mem_of_getElem? hi', x, y, hx, hy, hcond⟩

/-! ### Steps of the transaction itself -/

/-- A lock or an insert: the transaction goes on, and the rows that were there stay. -/
theorem InStep.advance (hs : InStep sys s t) (hst : (sys.prog t)[(s.txns t).pc]? = some st)
    (hquiet : ∀ u required, st ≠ .update u required)
    (hmade : ∀ make, st = .insert make true → (make []).isSome = true)
    (htxn : s'.txns t = { pc := (s.txns t).pc + 1 })
    (hcells : s'.cells = s.cells ++ st.newRow.map fun row => ⟨none, some (t, row)⟩) :
    InStep sys s' t := by
  refine ⟨?_, ?_, ?_, ?_, ?_⟩
  · intro scan hscan
    rw [htxn] at hscan
    cases hscan
  · intro i c hc
    have hdone : sys.done s' t i = (sys.prog t).take (s.txns t).pc ++ [st] := by
      rw [System.done, htxn]
      exact System.take_succ hst
    rw [hcells, List.getElem?_append] at hc
    split at hc
    · have hrow := hs.rows i c hc
      rw [hdone]
      rcases sys.done_cases s t i with heq | heq
      · rw [heq] at hrow
        exact (Cell.InStep.snoc_iff hquiet).mpr hrow
      · rw [heq, System.take_succ hst] at hrow
        exact hrow
    · obtain ⟨row, _, rfl⟩ := List.mem_map.mp (List.mem_of_getElem? hc)
      exact .of_none rfl
  · rw [htxn, System.take_succ hst, newRows_snoc, ← hs.own, State.ownRows, hcells,
      List.filterMap_append, ← State.ownRows, List.filterMap_map]
    congr 1
    refine (List.filterMap_congr fun row _ => ?_).trans List.filterMap_some
    simp [Cell.ownedBy, Cell.seenBy]
  · intro j make hj hinsert
    rw [htxn] at hj
    rcases Nat.lt_succ_iff_lt_or_eq.mp hj with hlt | rfl
    · exact hs.made j make hlt hinsert
    · rw [hst] at hinsert
      exact hmade make (Option.some.inj hinsert)
  · intro j u hu hj
    rw [htxn] at hj
    have hlt : j < (s.txns t).pc := by
      rcases hj with hj | ⟨_, hscan⟩
      · rcases Nat.lt_succ_iff_lt_or_eq.mp hj with hlt | rfl
        · exact hlt
        · rw [hst] at hu
          exact absurd (Option.some.inj hu) (hquiet u true)
      · cases hscan
    obtain ⟨c, hc, hrest⟩ := hs.hit j u hu (.inl hlt)
    refine ⟨c, ?_, hrest⟩
    rw [hcells]
    exact List.mem_append_left _ hc

/-- The start of an `UPDATE`: a row that it does not collect does not meet it. -/
theorem InStep.start (hs : InStep sys s t)
    (hst : (sys.prog t)[(s.txns t).pc]? = some (.update u required))
    (hscan : (s.txns t).scan = none)
    (htxn : s'.txns t = { pc := (s.txns t).pc, scan := some ⟨s.targets t u, false⟩ })
    (hcells : s'.cells = s.cells) : InStep sys s' t := by
  refine ⟨?_, ?_, ?_, ?_, ?_⟩
  · intro scan hscan'
    rw [htxn] at hscan'
    cases hscan'
    exact List.nodup_range.filter _
  · intro i c hc
    rw [hcells] at hc
    have hrow := hs.rows i c hc
    simp only [System.done, hscan] at hrow
    by_cases hi : i ∈ s.targets t u
    · simpa [System.done, htxn, hi] using hrow
    · have hmiss : ∀ y, c.seenBy t = some y → u.cond y = false := by
        intro y hseen
        by_contra hcond
        exact hi (State.mem_targets hc hseen (by simpa using hcond))
      have hdone : sys.done s' t i = (sys.prog t).take (s.txns t).pc ++ [.update u required] := by
        rw [← System.take_succ hst]
        simp [System.done, htxn, hi]
      rw [hdone]
      exact hrow.skip hmiss
  · rw [htxn, ← hs.own, State.ownRows, hcells]
    rfl
  · rw [htxn]
    exact hs.made
  · intro j v hv hj
    rw [htxn] at hj
    rw [Hit, hcells]
    rcases hj with hlt | ⟨_, htouched⟩
    · exact hs.hit j v hv (.inl hlt)
    · cases htouched

/-- The end of an `UPDATE` that has come to all its rows. -/
theorem InStep.finish (hs : InStep sys s t) {touched : Bool}
    (hst : (sys.prog t)[(s.txns t).pc]? = some (.update u required))
    (hscan : (s.txns t).scan = some ⟨[], touched⟩) (htouched : required = true → touched = true)
    (htxn : s'.txns t = { pc := (s.txns t).pc + 1 }) (hcells : s'.cells = s.cells) :
    InStep sys s' t := by
  refine ⟨?_, ?_, ?_, ?_, ?_⟩
  · intro scan hscan'
    rw [htxn] at hscan'
    cases hscan'
  · intro i c hc
    rw [hcells] at hc
    have hdone : sys.done s' t i = sys.done s t i := by
      simp [System.done, htxn, hscan]
    rw [hdone]
    exact hs.rows i c hc
  · rw [htxn, System.take_succ hst, newRows_snoc, ← hs.own, State.ownRows, hcells]
    simp [State.ownRows, Statement.newRow]
  · intro j make hj hinsert
    rw [htxn] at hj
    rcases Nat.lt_succ_iff_lt_or_eq.mp hj with hlt | rfl
    · exact hs.made j make hlt hinsert
    · rw [hst] at hinsert
      cases hinsert
  · intro j v hv hj
    rw [htxn] at hj
    rw [Hit, hcells]
    refine hs.hit j v hv ?_
    rcases hj with hj | ⟨_, hnone⟩
    · rcases Nat.lt_succ_iff_lt_or_eq.mp hj with hlt | rfl
      · exact .inl hlt
      · rw [hst] at hv
        cases hv
        exact .inr ⟨rfl, by simp [hscan, htouched]⟩
    · cases hnone

/-- An `UPDATE` does not meet the rows that its transaction has inserted. -/
theorem InStep.cond_own (hs : InStep sys s t) (hsys : Separate sys key)
    (hst : (sys.prog t)[(s.txns t).pc]? = some (.update u required)) (hc : c ∈ s.cells)
    (hown : c.ownedBy t = some y) : u.cond y = false := by
  have hmem : y ∈ newRows ((sys.prog t).take (s.txns t).pc) := by
    rw [← hs.own]
    exact List.mem_filterMap.mpr ⟨c, hc, hown⟩
  obtain ⟨st, hst', hy⟩ := List.mem_flatMap.mp hmem
  obtain ⟨j, hj⟩ := List.mem_iff_getElem?.mp hst'
  rw [List.getElem?_take] at hj
  split at hj
  · rename_i hlt
    obtain ⟨hj', hget⟩ := List.getElem?_eq_some_iff.mp hj
    obtain ⟨hpc, hget'⟩ := List.getElem?_eq_some_iff.mp hst
    have hpair := List.pairwise_iff_getElem.mp (hsys.own t) j (s.txns t).pc hj' hpc hlt
    rw [hget, hget'] at hpair
    exact hpair y hy u required rfl
  · cases hj

/-- A row that an `UPDATE` of the transaction meets is committed. -/
theorem InStep.base (hs : InStep sys s t) (hsys : Separate sys key)
    (hst : (sys.prog t)[(s.txns t).pc]? = some (.update u required))
    (hc : s.cells[i]? = some c) (hseen : c.seenBy t = some y) (hcond : u.cond y = true) :
    ∃ x, c.committed = some x ∧ y = rewriteAll (sys.done s t i) x := by
  cases hx : c.committed with
  | some x => exact ⟨x, rfl, Option.some.inj (hseen.symm.trans ((hs.rows i c hc).seenBy hx))⟩
  | none =>
    have hown : c.ownedBy t = some y := by simp [Cell.ownedBy, hx, hseen]
    rw [hs.cond_own hsys hst (List.mem_of_getElem? hc) hown] at hcond
    cases hcond

/-- A row that the transaction has written stays written when it comes to a row. -/
theorem Hit.touch (h : Hit s t sts u) {v : Update ρ} (hc : s.cells[i]? = some c)
    (hcells : s'.cells = s.cells.set i (c.write t v)) : Hit s' t sts u := by
  obtain ⟨d, hd, x, y, hx, hy, hcond⟩ := h
  obtain ⟨k, hk⟩ := List.mem_iff_getElem?.mp hd
  by_cases hne : k = i
  · subst hne
    cases hc.symm.trans hk
    have hpending : ∃ y', (c.write t v).pending = some (t, y') := by
      rcases Cell.write_cases t v c with ⟨heq, _⟩ | ⟨z, _, _, heq⟩
      · exact ⟨y, by rw [heq, hy]⟩
      · exact ⟨v.set z, by rw [heq]⟩
    obtain ⟨y', hy'⟩ := hpending
    refine ⟨c.write t v, ?_, x, y', (c.committed_write t v).trans hx, hy', hcond⟩
    rw [hcells]
    exact List.mem_set (List.getElem?_eq_some_iff.mp hc).1 _
  · refine ⟨d, ?_, x, y, hx, hy, hcond⟩
    rw [hcells]
    exact List.mem_of_getElem? ((List.getElem?_set_ne (Ne.symm hne)).trans hk)

/-- The `UPDATE` comes to a row. -/
theorem InStep.touch (hs : InStep sys s t) (hsys : Separate sys key) {scan : Scan}
    (hst : (sys.prog t)[(s.txns t).pc]? = some (.update u required))
    (hscan : (s.txns t).scan = some scan) (hi : i ∈ scan.ahead) (hc : s.cells[i]? = some c)
    (htxn : s'.txns t =
      { pc := (s.txns t).pc
        scan := some ⟨scan.ahead.erase i, scan.touched || (c.seenBy t).any u.cond⟩ })
    (hcells : s'.cells = s.cells.set i (c.write t u)) : InStep sys s' t := by
  have hnodup : scan.ahead.Nodup := hs.ahead scan hscan
  have hdone : sys.done s t i = (sys.prog t).take (s.txns t).pc := by
    simp [System.done, hscan, hi]
  have hcell : ∀ {k : Nat} {c' : Cell τ ρ}, s'.cells[k]? = some c' →
      k = i ∧ c' = c.write t u ∨ k ≠ i ∧ s.cells[k]? = some c' := by
    intro k c' hc'
    rw [hcells, List.getElem?_set] at hc'
    split at hc'
    · rename_i heq
      split at hc'
      · exact .inl ⟨heq.symm, (Option.some.inj hc').symm⟩
      · cases hc'
    · rename_i hne
      exact .inr ⟨Ne.symm hne, hc'⟩
  refine ⟨?_, ?_, ?_, ?_, ?_⟩
  · intro scan' hscan'
    rw [htxn] at hscan'
    cases hscan'
    exact hnodup.erase i
  · intro k c' hc'
    rcases hcell hc' with ⟨rfl, rfl⟩ | ⟨hne, hold⟩
    · have hdone' : sys.done s' t k = sys.done s t k ++ [.update u required] := by
        rw [hdone, ← System.take_succ hst]
        simp [System.done, htxn, hnodup.not_mem_erase]
      rw [hdone']
      exact (hs.rows k c hc).write
    · have hdone' : sys.done s' t k = sys.done s t k := by
        simp [System.done, htxn, hscan, List.mem_erase_of_ne hne]
      rw [hdone']
      exact hs.rows k c' hold
  · have hrows : s'.ownRows t = s.ownRows t := by
      refine filterMap_eq_of_getElem (by rw [hcells, List.length_set]) fun k d d' hd hd' => ?_
      rcases hcell hd' with ⟨rfl, rfl⟩ | ⟨_, hold⟩
      · cases hc.symm.trans hd
        rcases Cell.write_cases t u c with ⟨heq, _⟩ | ⟨z, hseen, hcond, _⟩
        · rw [heq]
        · obtain ⟨x, hx, _⟩ := hs.base hsys hst hc hseen hcond
          rw [Cell.ownedBy_of_committed hx,
            Cell.ownedBy_of_committed ((c.committed_write t u).trans hx)]
      · rw [Option.some.inj (hd.symm.trans hold)]
    rw [hrows, htxn]
    exact hs.own
  · rw [htxn]
    exact hs.made
  · intro j v hv hj
    rw [htxn] at hj
    rcases hj with hlt | ⟨rfl, htouched⟩
    · exact (hs.hit j v hv (.inl hlt)).touch hc hcells
    · rw [Option.any_some, Bool.or_eq_true] at htouched
      rcases htouched with htouched | hnow
      · have hold : (s.txns t).scan.any (·.touched) = true := by rw [hscan]; exact htouched
        exact (hs.hit _ v hv (.inr ⟨rfl, hold⟩)).touch hc hcells
      · -- the row that meets the condition now
        rw [hst] at hv
        cases hv
        obtain ⟨y, hseen, hcond⟩ := (Option.any_eq_true _ _).mp hnow
        obtain ⟨x, hx, hy⟩ := hs.base hsys hst hc hseen hcond
        have hpending : (c.write t u).pending = some (t, u.set y) := by
          simp [Cell.write, hseen, hcond]
        refine ⟨c.write t u, ?_, x, u.set y, (c.committed_write t u).trans hx, hpending, ?_⟩
        · rw [hcells]
          exact List.mem_set (List.getElem?_eq_some_iff.mp hc).1 _
        · rw [← hdone, ← hy]
          exact hcond

/-- A transaction stays in step while it acts. -/
theorem InStep.actor (hs : InStep sys s a.actor) (hsys : Separate sys key)
    (h : Effect sys s a s') (hactive : (s'.txns a.actor).status = .active) :
    InStep sys s' a.actor := by
  cases h with
  | @locked t key hnext _ =>
    refine hs.advance (System.next_eq_some hnext).2 (by simp) (by simp) ?_ ?_
    · exact Function.update_self ..
    · exact (List.append_nil _).symm
  | @inserted t make required row hnext hmake _ =>
    have hnew : make [] = some row := by
      rw [← hsys.constant t make required (System.next_mem hnext), hmake]
    refine hs.advance (System.next_eq_some hnext).2 (by simp) ?_ ?_ ?_
    · intro make' heq
      cases heq
      rw [hnew]
      rfl
    · exact Function.update_self ..
    · simp [Statement.newRow, hnew, Action.actor]
  | @passed t make hnext hmake =>
    have hnew : make [] = none := by
      rw [← hsys.constant t make false (System.next_mem hnext), hmake]
    refine hs.advance (System.next_eq_some hnext).2 (by simp) (by simp) ?_ ?_
    · exact Function.update_self ..
    · simp [Statement.newRow, hnew, State.goOn, State.setTxn]
  | opened hnext hscan =>
    exact hs.start (System.next_eq_some hnext).2 hscan (Function.update_self ..) rfl
  | touched hnext hscan hahead hcell _ =>
    exact hs.touch hsys (System.next_eq_some hnext).2 hscan hahead hcell
      (Function.update_self ..) rfl
  | finished hnext hscan htouched =>
    exact hs.finish (System.next_eq_some hnext).2 hscan htouched (Function.update_self ..) rfl
  | committed _ _ => simp [State.commit, Action.actor] at hactive
  | rolledBack _ => simp [State.rollback] at hactive

/-! ### Commits -/

/-- A commit makes what the transaction sees the committed table. -/
theorem State.committedRows_commit (s : State τ ρ κ) (t : τ) :
    (s.commit t).committedRows = s.view t := by
  unfold State.committedRows State.view State.commit
  rw [List.filterMap_map]
  refine List.filterMap_congr fun c _ => ?_
  show (c.commit t).committed = c.seenBy t
  rcases c.seenBy_cases t with ⟨x, hpending, hseen⟩ | ⟨hne, hseen⟩
  · rw [hseen]
    exact Cell.commit_of_seenBy hseen
  · rw [hseen]
    rcases Cell.commit_cases t c with ⟨heq, _⟩ | ⟨x, hpending, _⟩
    · rw [heq]
    · exact absurd hpending (hne x)

/-- The rows that a transaction sees are the committed ones, as it has rewritten them, and its
own. -/
theorem view_perm {cells : List (Cell τ ρ)} {f : ρ → ρ}
    (h : ∀ c ∈ cells, ∀ x, c.committed = some x → c.seenBy t = some (f x)) :
    (cells.filterMap (·.seenBy t)).Perm
      ((cells.filterMap (·.committed)).map f ++ cells.filterMap (·.ownedBy t)) := by
  induction cells with
  | nil => exact .refl _
  | cons c cells ih =>
    have hrest := ih fun d hd => h d (List.mem_cons_of_mem _ hd)
    cases hx : c.committed with
    | some x =>
      have hseen := h c List.mem_cons_self x hx
      simpa [List.filterMap_cons, hx, hseen, Cell.ownedBy_of_committed hx] using hrest
    | none =>
      have hown : c.ownedBy t = c.seenBy t := by simp [Cell.ownedBy, hx]
      cases hseen : c.seenBy t with
      | none => simpa [List.filterMap_cons, hx, hseen, hown] using hrest
      | some y =>
        simp only [List.filterMap_cons, hx, hseen, hown]
        exact (hrest.cons y).trans List.perm_middle.symm

omit [DecidableEq τ] [DecidableEq α] in
/-- Rows that are read off different cells have different keys. -/
theorem Keyed.nodup (h : Keyed key s) {f : Cell τ ρ → Option ρ}
    (hf : ∀ c x, f c = some x → x ∈ c.versions) : ((s.cells.filterMap f).map key).Nodup := by
  rw [List.Nodup, List.pairwise_map, List.pairwise_filterMap, List.pairwise_iff_getElem]
  intro i j hi hj hlt x hx y hy heq
  have hij := (h i j _ _ (List.getElem?_eq_getElem hi) (List.getElem?_eq_getElem hj) x (hf _ x hx) y
    (hf _ y hy)).mp heq
  omega

/-- What a transaction commits is the result of its statements on the committed table. -/
theorem InStep.exec (hs : InStep sys s t) (hsys : Separate sys key) (hkeyed : Keyed key s)
    (hactive : (s.txns t).status = .active) (hnext : sys.next s t = none) :
    ∃ rows, sys.exec s.committedRows t = some rows ∧ (s.commit t).committedRows.Perm rows := by
  have hend : (sys.prog t).length ≤ (s.txns t).pc := by
    simpa [System.next, hactive] using hnext
  have htake : (sys.prog t).take (s.txns t).pc = sys.prog t := List.take_of_length_le hend
  have hdone : ∀ i, sys.done s t i = sys.prog t := by
    intro i
    rcases sys.done_cases s t i with heq | heq
    · rw [heq, htake]
    · rw [heq, List.take_of_length_le (Nat.le_succ_of_le hend)]
  have hview : (s.view t).Perm (s.committedRows.map (rewriteAll (sys.prog t)) ++
      newRows (sys.prog t)) := by
    rw [← htake, ← hs.own, htake]
    refine view_perm fun c hc x hx => ?_
    obtain ⟨i, hi⟩ := List.mem_iff_getElem?.mp hc
    rw [(hs.rows i c hi).seenBy hx, hdone]
  refine ⟨_, hsys.foldlM_exec (fun _ hst => hst) (hsys.own t) ?_ ?_ ?_, ?_⟩
  · have hnodup : ((s.view t).map key).Nodup :=
      hkeyed.nodup fun c x hx => Cell.mem_versions_of_seenBy hx
    rw [(hview.map key).nodup_iff, List.map_append, List.map_map] at hnodup
    have hkeys : s.committedRows.map (key ∘ rewriteAll (sys.prog t)) = s.committedRows.map key :=
      List.map_congr_left fun x _ => hsys.key_rewriteAll (fun _ hst => hst) x
    rwa [hkeys] at hnodup
  · intro make hmem
    obtain ⟨j, hj⟩ := List.mem_iff_getElem?.mp hmem
    have hlt : j < (s.txns t).pc :=
      Nat.lt_of_lt_of_le (List.getElem?_eq_some_iff.mp hj).1 hend
    exact hs.made j make hlt hj
  · intro j u hj
    have hlt : j < (s.txns t).pc :=
      Nat.lt_of_lt_of_le (List.getElem?_eq_some_iff.mp hj).1 hend
    obtain ⟨c, hc, x, _, hx, _, hcond⟩ := hs.hit j u hj (.inl hlt)
    exact ⟨x, List.mem_filterMap.mpr ⟨c, hc, hx⟩, hcond⟩
  · rw [State.committedRows_commit]
    exact hview

/-- Only a commit changes the committed table. -/
theorem Effect.committedRows_cases (h : Effect sys s a s') :
    (∃ t, (s.txns t).status = .active ∧ sys.next s t = none ∧ s' = s.commit t) ∨
      s'.committedRows = s.committedRows ∧
        ∀ t, (s'.txns t).status = .committed ↔ (s.txns t).status = .committed := by
  have hkept : (s'.txns a.actor).status ≠ .committed → s'.committedRows = s.committedRows ∧
      ∀ t, (s'.txns t).status = .committed ↔ (s.txns t).status = .committed := by
    intro hopen
    constructor
    · rcases h.filterMap_cells (f := Cell.committed) (by
        intro i c c' _ hchange
        cases hchange with
        | same => rfl
        | written _ _ _ _ => exact c.committed_write _ _
        | committed hs' _ _ => simp [hs', State.commit, Action.actor] at hopen
        | rolledBack _ _ =>
          rcases Cell.rollback_cases a.actor c with ⟨heq, _⟩ | ⟨_, _, heq⟩ <;> rw [heq])
        with heq | ⟨row, hcells⟩
      · exact heq
      · simp [State.committedRows, hcells]
    · intro t
      by_cases heq : t = a.actor
      · subst heq
        rw [h.actor_active]
        simp [hopen]
      · rw [h.frame heq]
  cases h with
  | committed hactive hnext => exact .inl ⟨_, hactive, hnext, rfl⟩
  | rolledBack _ => exact .inr (hkept (by simp [State.rollback]))
  | _ => exact .inr (hkept (by simp [State.goOn, State.setTxn, Action.actor]))

/-- What holds in every state: the active transactions are in step, and the committed table is
the result of the committed transactions in some order. -/
structure Serial (sys : System τ ρ κ) (key : ρ → α) (rows : List ρ) (s : State τ ρ κ) : Prop where
  keyed : Keyed key s
  inStep : ∀ t, (s.txns t).status = .active → InStep sys s t
  order : ∃ ts : List τ, ts.Nodup ∧ (∀ t, t ∈ ts ↔ (s.txns t).status = .committed) ∧
    ∃ rows', sys.execAll ts rows = some rows' ∧ s.committedRows.Perm rows'

omit [DecidableEq α] in
/-- The start is serial. -/
theorem Serial.initial {rows : List ρ} (h : (rows.map key).Nodup) :
    Serial sys key rows (State.initial rows) where
  keyed := .initial h
  inStep t _ := by
    have hnone : ∀ c ∈ (State.initial rows : State τ ρ κ).cells, ∃ r : ρ, c = ⟨some r, none⟩ := by
      intro c hc
      obtain ⟨r, _, rfl⟩ := List.mem_map.mp hc
      exact ⟨r, rfl⟩
    refine ⟨fun _ => nofun, fun i c hc => ?_, ?_, fun _ _ => nofun, ?_⟩
    · obtain ⟨r, rfl⟩ := hnone c (List.mem_of_getElem? hc)
      exact ⟨fun x _ _ u required hu => (nomatch hu), fun _ _ _ hy => (nomatch hy)⟩
    · refine List.filterMap_eq_nil_iff.mpr fun c hc => ?_
      obtain ⟨r, rfl⟩ := hnone c hc
      rfl
    · rintro j u _ (hj | ⟨_, hj⟩)
      · exact absurd hj (Nat.not_lt_zero j)
      · cases hj
  order := by
    refine ⟨[], .nil, fun t => ⟨nofun, nofun⟩, rows, rfl, ?_⟩
    simp [State.committedRows, State.initial, List.filterMap_map]

/-- Every action keeps the order. -/
theorem Serial.step {rows : List ρ} (hs : Serial sys key rows s) (hsys : Separate sys key)
    (hsealed : Sealed sys s) (h : Effect sys s a s') : Serial sys key rows s' where
  keyed := by
    refine h.keyed (fun x y hfree => ?_) hsys.keeps hs.keyed
    rw [hsys.conflict, decide_eq_false_iff_not] at hfree
    exact hfree
  inStep t hactive' := by
    have hactor := hs.inStep a.actor h.actor_active
    by_cases heq : t = a.actor
    · subst heq
      exact hactor.actor hsys h hactive'
    · have hactive : (s.txns t).status = .active := by
        rw [h.frame heq] at hactive'
        exact hactive'
      exact (hs.inStep t hactive).other hsys h heq hactive hactor hsealed
  order := by
    obtain ⟨ts, hnodup, hmem, rows', hexec, hperm⟩ := hs.order
    rcases h.committedRows_cases with ⟨t, hactive, hnext, rfl⟩ | ⟨hrows, hstatus⟩
    · obtain ⟨rows₁, hexec₁, hperm₁⟩ :=
        (hs.inStep t hactive).exec hsys hs.keyed hactive hnext
      obtain ⟨rows₂, hexec₂, hperm₂⟩ := hsys.exec_perm hperm hexec₁
      have hnew : t ∉ ts := by
        simp [hmem, hactive]
      refine ⟨ts ++ [t], ?_, fun t' => ?_, rows₂, ?_, hperm₁.trans hperm₂⟩
      · exact hnodup.append (List.nodup_singleton t) (by simpa using hnew)
      · rw [List.mem_append, List.mem_singleton, hmem]
        by_cases heq : t' = t
        · simp [heq, State.commit]
        · simp [heq, State.commit]
      · rw [System.execAll, List.foldlM_append, ← System.execAll, hexec]
        simp [hexec₂]
    · refine ⟨ts, hnodup, fun t => (hmem t).trans (hstatus t).symm, rows', hexec, ?_⟩
      rw [hrows]
      exact hperm

/-- The committed table of a run is the result of the committed transactions, one after the
other. `K` is an invariant of the system from which `Sealed` follows. -/
theorem serial_of_steps [DecidableEq κ] {ok : State τ ρ κ → Action τ → Prop}
    {K : State τ ρ κ → Prop} {rows : List ρ} (hsys : Separate sys key)
    (hrows : (rows.map key).Nodup) (hinit : K (State.initial rows))
    (hstep : ∀ s a s', K s → ok s a → Effect sys s a s' → K s')
    (hsealed : ∀ s, K s → Sealed sys s) (h : Steps sys ok (State.initial rows) s) :
    K s ∧ Serial sys key rows s := by
  refine Steps.rule (J := fun s => K s ∧ Serial sys key rows s) ?_ h ⟨hinit, .initial hrows⟩
  rintro s a s' ⟨hK, hs⟩ hok heffect
  exact ⟨hstep s a s' hK hok heffect, hs.step hsys (hsealed s hK) heffect⟩

/-! ### Transactions on rows that they have found -/

omit [DecidableEq τ] [DecidableEq α] in
/-- The transaction has started its first statement. -/
def Begun (s : State τ ρ κ) (t : τ) : Prop :=
  0 < (s.txns t).pc ∨ (s.txns t).scan.isSome = true

/-- The row with the key `target t` is committed when the transaction `t` begins, and it stays. -/
structure Pinned (key : ρ → α) (target : τ → Option α) (s : State τ ρ κ) : Prop where
  keyed : Keyed key s
  derived : Derived (fun _ r x => key x = key r) s
  found : ∀ t, (s.txns t).status = .active → Begun s t → ∀ k ∈ target t, Present key s k

omit [DecidableEq τ] [DecidableEq α] in
/-- The start, where no transaction has begun. -/
theorem Pinned.initial {rows : List ρ} {target : τ → Option α} (h : (rows.map key).Nodup) :
    Pinned key target (State.initial rows : State τ ρ κ) where
  keyed := .initial h
  derived := .initial rows
  found t _ hbegun := by
    rcases hbegun with hpc | hscan
    · exact absurd hpc (Nat.lt_irrefl 0)
    · cases hscan

omit [DecidableEq τ] in
/-- A transaction has begun when one of its updates has started. -/
theorem begun_of_started (h : Started sys s t u) : Begun s t := by
  obtain ⟨j, _, _, hlt | ⟨_, hscan⟩⟩ := h
  · exact .inl (Nat.zero_lt_of_lt hlt)
  · exact .inr hscan

/-- A transaction that has begun after an action had begun before, or it runs now. -/
theorem Effect.begun_cases (h : Effect sys s a s') (hactive : (s'.txns t).status = .active)
    (hbegun : Begun s' t) : (s.txns t).status = .active ∧ Begun s t ∨ a = .run t := by
  by_cases heq : t = a.actor
  rotate_left
  · rw [h.frame heq] at hactive
    rw [Begun, h.frame heq] at hbegun
    exact .inl ⟨hactive, hbegun⟩
  subst heq
  cases h with
  | locked _ _ => exact .inr rfl
  | inserted _ _ _ => exact .inr rfl
  | passed _ _ => exact .inr rfl
  | opened _ _ => exact .inr rfl
  | touched hnext hscan _ _ _ =>
    exact .inl ⟨(System.next_eq_some hnext).1, .inr (Option.isSome_of_eq_some hscan)⟩
  | finished hnext hscan _ =>
    exact .inl ⟨(System.next_eq_some hnext).1, .inr (Option.isSome_of_eq_some hscan)⟩
  | committed _ _ => simp [State.commit, Action.actor] at hactive
  | rolledBack _ => simp [State.rollback] at hactive

/-- One action. The row has to be there when its transaction begins. -/
theorem Pinned.step {target : τ → Option α} (hs : Pinned key target s) (hsys : Separate sys key)
    (h : Effect sys s a s')
    (hready : ∀ t, a = .run t → ∀ k ∈ target t, ∃ x ∈ s.committedRows, key x = k) :
    Pinned key target s' where
  keyed := by
    refine h.keyed (fun x y hfree => ?_) hsys.keeps hs.keyed
    rw [hsys.conflict, decide_eq_false_iff_not] at hfree
    exact hfree
  derived := by
    refine h.derived ?_ ?_ hs.derived
    · intro t u required r hmem _
      exact hsys.keeps t u required r hmem
    · intro t u required r x hmem hx
      exact (hsys.keeps t u required x hmem).trans hx
  found t hactive' hbegun' k hk := by
    refine h.present hs.derived ?_
    rcases h.begun_cases hactive' hbegun' with ⟨hactive, hbegun⟩ | hrun
    · exact hs.found t hactive hbegun k hk
    · obtain ⟨x, hx, hxk⟩ := hready t hrun k hk
      obtain ⟨c, hc, hcommitted⟩ := List.mem_filterMap.mp hx
      exact ⟨c, hc, x, hcommitted, hxk⟩

omit [DecidableEq τ] [DecidableEq α] in
/-- A new row does not have the key of a row that a transaction has found. -/
theorem Pinned.key_ne {target : τ → Option α} (hs : Pinned key target s)
    (hactive : (s.txns t).status = .active) (hbegun : Begun s t) {k : α} (hk : k ∈ target t)
    (hc : c ∈ s.cells) (hnone : c.committed = none) {t' : τ} (hpending : c.pending = some (t', x)) :
    key x ≠ k := by
  obtain ⟨d, hd, y, hy, hyk⟩ := hs.found t hactive hbegun k hk
  intro hxk
  obtain ⟨i, hi⟩ := List.mem_iff_getElem?.mp hc
  obtain ⟨j, hj⟩ := List.mem_iff_getElem?.mp hd
  have hij : i = j := (hs.keyed i j c d hi hj x (Cell.mem_versions.mpr (.inr ⟨t', hpending⟩)) y
    (Cell.mem_versions.mpr (.inl hy))).mp (hxk.trans hyk.symm)
  subst hij
  cases hi.symm.trans hj
  rw [hnone] at hy
  cases hy

/-- A transaction that has inserted a row is past the statement. -/
theorem Inserted.pc {row : ρ} (hins : Inserted sys s s' t row) (h : Effect sys s a s') :
    (s'.txns t).pc = (s.txns t).pc + 1 := by
  have hcells := hins.cells
  have hlen : s'.cells.length = s.cells.length + 1 := by simp [hcells]
  cases h with
  | @inserted t' _ _ row' _ _ _ =>
    have hsame := List.append_cancel_left hcells
    cases hsame
    simp [State.goOn, State.setTxn]
  | touched _ _ _ _ _ => simp at hlen
  | committed _ _ => simp [State.commit] at hlen
  | rolledBack _ => simp [State.rollback] at hlen
  | _ => simp [State.goOn, State.setTxn] at hlen

end

end ReadCommitted
