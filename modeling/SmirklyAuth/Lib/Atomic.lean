import Mathlib.Data.List.Induction
import Mathlib.Data.List.Perm.Basic
import SmirklyAuth.Lib.ReadCommitted

/-!
# `SmirklyAuth.Lib.Atomic`: transactions without interruption

`System.exec` executes the statements of one transaction on a table that no other transaction
uses. `Separate` is a condition on the statements of a system under which the result can be
written down: each row is rewritten by the updates, and the new rows stand at the end
(`Separate.foldlM_exec`). The order of the rows does not matter (`Separate.exec_perm`).
-/

set_option autoImplicit false

namespace ReadCommitted

open Sql (Update)

variable {τ ρ κ : Type}

namespace Statement

/-- The statement on a table that no other transaction uses. -/
def exec (conflict : ρ → ρ → Bool) (rows : List ρ) : Statement ρ κ → Option (List ρ)
  | .lock _ => some rows
  | .insert make required =>
      match make rows with
      | some row => if rows.any (conflict row) then none else some (rows ++ [row])
      | none => if required then none else some rows
  | .update u required => if required && !u.hits rows then none else some (u.run rows)

/-- What the statement makes of a row that is there. -/
def rewrite : Statement ρ κ → ρ → ρ
  | .update u _, x => u.apply x
  | _, x => x

/-- The row that the statement inserts, when it does not depend on the table. -/
def newRow : Statement ρ κ → List ρ
  | .insert make _ => (make []).toList
  | _ => []

/-- A lock rewrites no row. -/
@[simp] theorem rewrite_lock (key : κ) : (.lock key : Statement ρ κ).rewrite = id := rfl

/-- An `INSERT` rewrites no row. -/
@[simp] theorem rewrite_insert (make : List ρ → Option ρ) (required : Bool) :
    (.insert make required : Statement ρ κ).rewrite = id := rfl

/-- An `UPDATE` rewrites the rows that meet its condition. -/
@[simp] theorem rewrite_update (u : Update ρ) (required : Bool) :
    (.update u required : Statement ρ κ).rewrite = u.apply := rfl

end Statement

/-- What follows from the execution of a statement. -/
theorem Statement.exec_insert {conflict : ρ → ρ → Bool} {make : List ρ → Option ρ}
    {required : Bool} {rows rows' : List ρ}
    (h : (.insert make required : Statement ρ κ).exec conflict rows = some rows') :
    (∃ row, make rows = some row ∧ (∀ x ∈ rows, conflict row x = false) ∧ rows' = rows ++ [row]) ∨
      make rows = none ∧ required = false ∧ rows' = rows := by
  simp only [Statement.exec] at h
  split at h
  · rename_i row hmake
    split at h
    · cases h
    · rename_i hfree
      cases h
      refine .inl ⟨row, hmake, fun x hx => ?_, rfl⟩
      exact Bool.eq_false_iff.mpr fun hconflict => hfree (List.any_eq_true.mpr ⟨x, hx, hconflict⟩)
  · rename_i hmake
    split at h
    · cases h
    · rename_i hoptional
      cases h
      exact .inr ⟨hmake, by simpa using hoptional, rfl⟩

/-- What an `UPDATE` returns, and that a required one has met a row. -/
theorem Statement.exec_update {conflict : ρ → ρ → Bool} {u : Update ρ} {required : Bool}
    {rows rows' : List ρ}
    (h : (.update u required : Statement ρ κ).exec conflict rows = some rows') :
    rows' = u.run rows ∧ (required = true → u.hits rows = true) := by
  simp only [Statement.exec] at h
  split at h
  · cases h
  · rename_i hfound
    cases h
    refine ⟨rfl, fun hrequired => ?_⟩
    simpa [hrequired] using hfound

/-- The whole transaction. It has no result when one of its statements fails. -/
def System.exec (sys : System τ ρ κ) (rows : List ρ) (t : τ) : Option (List ρ) :=
  (sys.prog t).foldlM (Statement.exec sys.conflict) rows

/-- Transactions one after the other. -/
def System.execAll (sys : System τ ρ κ) (ts : List τ) (rows : List ρ) : Option (List ρ) :=
  ts.foldlM sys.exec rows

/-- What statements make of a row that is there. -/
def rewriteAll (sts : List (Statement ρ κ)) (x : ρ) : ρ := sts.foldl (fun x st => st.rewrite x) x

/-- The rows that statements insert. -/
def newRows (sts : List (Statement ρ κ)) : List ρ := sts.flatMap Statement.newRow

/-- No statement rewrites nothing. -/
@[simp] theorem rewriteAll_nil (x : ρ) : rewriteAll ([] : List (Statement ρ κ)) x = x := rfl

/-- The last statement rewrites what the others have made. -/
@[simp] theorem rewriteAll_snoc (sts : List (Statement ρ κ)) (st : Statement ρ κ) (x : ρ) :
    rewriteAll (sts ++ [st]) x = st.rewrite (rewriteAll sts x) := by
  simp [rewriteAll]

/-- The last statement adds its row behind the others. -/
@[simp] theorem newRows_snoc (sts : List (Statement ρ κ)) (st : Statement ρ κ) :
    newRows (sts ++ [st]) = newRows sts ++ st.newRow := by
  simp [newRows]

/-- The conditions on the statements.

- `conflict`: the unique constraint is the one of the key;
- `keeps`: no update writes the key;
- `constant`: an inserted row does not depend on what the transaction sees;
- `own`: an update does not meet a row that its transaction has inserted before;
- `stable`: a row that does not meet an update does not come to meet it. -/
structure Separate {α : Type} [DecidableEq α] (sys : System τ ρ κ) (key : ρ → α) : Prop where
  conflict : ∀ x y, sys.conflict x y = decide (key x = key y)
  keeps : ∀ t u required x, .update u required ∈ sys.prog t → key (u.set x) = key x
  constant : ∀ t make required, .insert make required ∈ sys.prog t → ∀ rows, make rows = make []
  own : ∀ t, (sys.prog t).Pairwise fun st st' => ∀ x ∈ st.newRow, ∀ u required,
    st' = .update u required → u.cond x = false
  stable : ∀ t u required t' u' required' x, .update u required ∈ sys.prog t →
    .update u' required' ∈ sys.prog t' → u.cond x = false → u'.cond x = true →
      u.cond (u'.set x) = false

section
variable {α : Type} [DecidableEq α] {sys : System τ ρ κ} {key : ρ → α} {t : τ}
  {sts : List (Statement ρ κ)} {rows rows' : List ρ} {x : ρ} {u : Update ρ}

/-- Statements that a row does not meet leave it as it is. -/
theorem rewriteAll_of_quiet (h : ∀ u required, .update u required ∈ sts → u.cond x = false) :
    rewriteAll sts x = x := by
  induction sts using List.reverseRecOn with
  | nil => rfl
  | append_singleton sts st ih =>
    rw [rewriteAll_snoc, ih fun u required hmem => h u required (List.mem_append_left _ hmem)]
    cases st with
    | update u required => exact Update.apply_neg (h u required (by simp))
    | lock key => rfl
    | insert make required => rfl

/-- A row that does not meet an update does not meet it after other statements. -/
theorem Separate.rewriteAll_cond (hsys : Separate sys key) {t' : τ} {required : Bool}
    (hu : .update u required ∈ sys.prog t) (hsts : ∀ st ∈ sts, st ∈ sys.prog t')
    (hx : u.cond x = false) : u.cond (rewriteAll sts x) = false := by
  induction sts using List.reverseRecOn with
  | nil => exact hx
  | append_singleton sts st ih =>
    have hold := ih fun st hst => hsts st (List.mem_append_left _ hst)
    rw [rewriteAll_snoc]
    cases st with
    | update u' required' =>
      by_cases hcond : u'.cond (rewriteAll sts x) = true
      · rw [Statement.rewrite, Update.apply_pos hcond]
        exact hsys.stable t u required t' u' required' _ hu (hsts _ (by simp)) hold hcond
      · rw [Statement.rewrite, Update.apply_neg (Bool.eq_false_iff.mpr hcond)]
        exact hold
    | lock key => exact hold
    | insert make required => exact hold

/-- Statements do not write the key. -/
theorem Separate.key_rewriteAll (hsys : Separate sys key) (hsts : ∀ st ∈ sts, st ∈ sys.prog t)
    (x : ρ) : key (rewriteAll sts x) = key x := by
  induction sts using List.reverseRecOn with
  | nil => rfl
  | append_singleton sts st ih =>
    rw [rewriteAll_snoc, ← ih fun st hst => hsts st (List.mem_append_left _ hst)]
    cases st with
    | update u required =>
      have hkeeps : u.Keeps key := fun x => hsys.keeps t u required x (hsts _ (by simp))
      exact hkeeps.apply _
    | lock key => rfl
    | insert make required => rfl

/-- What a statement makes of a table, when a required row is there and the key of a new row is
not taken. -/
theorem Separate.exec_eq (hsys : Separate sys key) {st : Statement ρ κ} (hst : st ∈ sys.prog t)
    (hkeys : ∀ row ∈ st.newRow, ∀ x ∈ rows, key row ≠ key x)
    (hmade : ∀ make, st = .insert make true → (make []).isSome = true)
    (hhit : ∀ u, st = .update u true → u.hits rows = true) :
    st.exec sys.conflict rows = some (rows.map st.rewrite ++ st.newRow) := by
  cases st with
  | lock key => simp [Statement.exec, Statement.newRow]
  | insert make required =>
    have hconst := hsys.constant t make required hst
    cases hmake : make [] with
    | some row =>
      have hfree : rows.any (sys.conflict row) = false := by
        rw [List.any_eq_false]
        intro x hx
        rw [hsys.conflict, decide_eq_true_iff]
        exact hkeys row (by simp [Statement.newRow, hmake]) x hx
      simp [Statement.exec, Statement.newRow, hconst, hmake, hfree]
    | none =>
      have hoptional : required = false := by
        cases required with
        | true => simpa [hmake] using hmade make rfl
        | false => rfl
      simp [Statement.exec, Statement.newRow, hconst, hmake, hoptional]
  | update u required =>
    have hdone : (required && !u.hits rows) = false := by
      cases required with
      | true => simp [hhit u rfl]
      | false => rfl
    simp [Statement.exec, Statement.newRow, hdone, Update.run]

/-- What a sequence of statements makes of a table, when its required rows are there and the
keys are unique. -/
theorem Separate.foldlM_exec (hsys : Separate sys key) (hsts : ∀ st ∈ sts, st ∈ sys.prog t)
    (hown : sts.Pairwise fun st st' => ∀ x ∈ st.newRow, ∀ u required,
      st' = .update u required → u.cond x = false)
    (hkeys : (rows.map key ++ (newRows sts).map key).Nodup)
    (hmade : ∀ make, .insert make true ∈ sts → (make []).isSome = true)
    (hhit : ∀ (j : Nat) u, sts[j]? = some (.update u true) →
      ∃ x ∈ rows, u.cond (rewriteAll (sts.take j) x) = true) :
    sts.foldlM (Statement.exec sys.conflict) rows =
      some (rows.map (rewriteAll sts) ++ newRows sts) := by
  induction sts using List.reverseRecOn with
  | nil =>
    have hid : rows.map (rewriteAll ([] : List (Statement ρ κ))) = rows := List.map_id' rows
    simp [hid, newRows]
  | append_singleton sts st ih =>
    have hbefore : ∀ st ∈ sts, st ∈ sys.prog t := fun st hst => hsts st (List.mem_append_left _ hst)
    rw [newRows_snoc, List.map_append, ← List.append_assoc] at hkeys
    rw [List.pairwise_append] at hown
    have hrest := ih hbefore hown.1 (hkeys.sublist (List.sublist_append_left _ _))
      (fun make hmem => hmade make (List.mem_append_left _ hmem)) (by
        intro j u hj
        have hlt : j < sts.length := (List.getElem?_eq_some_iff.mp hj).1
        have hhere := hhit j u (by rw [List.getElem?_append_left hlt]; exact hj)
        rwa [List.take_append_of_le_length (Nat.le_of_lt hlt)] at hhere)
    -- the last statement, on the rows that the others have made
    have hlast : st.exec sys.conflict (rows.map (rewriteAll sts) ++ newRows sts) =
        some ((rows.map (rewriteAll sts) ++ newRows sts).map st.rewrite ++ st.newRow) := by
      refine hsys.exec_eq (hsts st (by simp)) ?_ (fun make heq => hmade make (by simp [heq])) ?_
      · intro row hrow x hx heq
        refine List.disjoint_of_nodup_append hkeys ?_ (List.mem_map_of_mem hrow)
        rw [heq]
        rcases List.mem_append.mp hx with hx | hx
        · obtain ⟨y, hy, rfl⟩ := List.mem_map.mp hx
          rw [hsys.key_rewriteAll hbefore]
          exact List.mem_append_left _ (List.mem_map_of_mem hy)
        · exact List.mem_append_right _ (List.mem_map_of_mem hx)
      · rintro u rfl
        obtain ⟨x, hx, hcond⟩ := hhit sts.length u (by simp)
        rw [List.take_left] at hcond
        exact Update.hits_iff.mpr ⟨_, List.mem_append_left _ (List.mem_map_of_mem hx), hcond⟩
    have hkept : ∀ x ∈ newRows sts, st.rewrite x = x := by
      intro x hx
      obtain ⟨st', hmem, hx⟩ := List.mem_flatMap.mp hx
      cases st with
      | update u required =>
        exact Update.apply_neg (hown.2.2 st' hmem _ (by simp) x hx u required rfl)
      | lock key => rfl
      | insert make required => rfl
    have hrewrite : rewriteAll (sts ++ [st]) = st.rewrite ∘ rewriteAll sts :=
      funext (rewriteAll_snoc sts st)
    rw [List.foldlM_append, hrest]
    simp only [Option.bind_eq_bind, Option.bind_some, List.foldlM_cons, List.foldlM_nil, hlast]
    rw [List.map_append, List.map_map, List.map_congr_left hkept, List.map_id', ← hrewrite,
      newRows_snoc, List.append_assoc]
    rfl

/-- The order of the rows of a table does not matter to a statement. -/
theorem Separate.exec_perm_one (hsys : Separate sys key) {st : Statement ρ κ}
    (hst : st ∈ sys.prog t) (h : rows.Perm rows') {rows₁ : List ρ}
    (hexec : st.exec sys.conflict rows = some rows₁) :
    ∃ rows₁', st.exec sys.conflict rows' = some rows₁' ∧ rows₁.Perm rows₁' := by
  cases st with
  | lock key =>
    cases hexec
    exact ⟨rows', rfl, h⟩
  | insert make required =>
    have hsame : make rows' = make rows := by
      rw [hsys.constant t make required hst, ← hsys.constant t make required hst rows]
    cases hmake : make rows with
    | some row =>
      by_cases htaken : rows.any (sys.conflict row) = true
      · simp [Statement.exec, hmake, htaken] at hexec
      · refine ⟨rows' ++ [row], ?_, ?_⟩
        · simp only [Statement.exec, hsame, hmake, ← h.any_eq]
          exact if_neg htaken
        · simp only [Statement.exec, hmake, if_neg htaken, Option.some.injEq] at hexec
          exact hexec ▸ h.append_right _
    | none =>
      cases required with
      | true => simp [Statement.exec, hmake] at hexec
      | false =>
        simp only [Statement.exec, hmake, Bool.false_eq_true, if_false, Option.some.injEq] at hexec
        exact ⟨rows', by simp [Statement.exec, hsame, hmake], hexec ▸ h⟩
  | update u required =>
    have hhits : u.hits rows' = u.hits rows := h.symm.any_eq
    by_cases hfail : (required && !u.hits rows) = true
    · simp [Statement.exec, hfail] at hexec
    · simp only [Statement.exec, if_neg hfail, Option.some.injEq] at hexec
      refine ⟨u.run rows', ?_, hexec ▸ h.map _⟩
      rw [Statement.exec, hhits, if_neg hfail]

/-- The order of the rows of a table does not matter to a transaction. -/
theorem Separate.exec_perm (hsys : Separate sys key) (h : rows.Perm rows') {rows₁ : List ρ}
    (hexec : sys.exec rows t = some rows₁) :
    ∃ rows₁', sys.exec rows' t = some rows₁' ∧ rows₁.Perm rows₁' := by
  have hall : ∀ sts : List (Statement ρ κ), (∀ st ∈ sts, st ∈ sys.prog t) →
      ∀ {rows rows' : List ρ}, rows.Perm rows' →
        sts.foldlM (Statement.exec sys.conflict) rows = some rows₁ →
        ∃ rows₁', sts.foldlM (Statement.exec sys.conflict) rows' = some rows₁' ∧
          rows₁.Perm rows₁' := by
    intro sts hsts
    induction sts with
    | nil =>
      intro rows rows' h hexec
      cases hexec
      exact ⟨rows', rfl, h⟩
    | cons st sts ih =>
      intro rows rows' h hexec
      rw [List.foldlM_cons] at hexec
      obtain ⟨rows₂, hfirst, hrest⟩ := Option.bind_eq_some_iff.mp hexec
      obtain ⟨rows₂', hfirst', h₂⟩ :=
        hsys.exec_perm_one (hsts st List.mem_cons_self) h hfirst
      obtain ⟨rows₁', hrest', h₁⟩ :=
        ih (fun st hst => hsts st (List.mem_cons_of_mem _ hst)) h₂ hrest
      refine ⟨rows₁', ?_, h₁⟩
      rw [List.foldlM_cons, hfirst']
      exact hrest'
  exact hall (sys.prog t) (fun _ hst => hst) h hexec

end

/-! ### Rules -/

section
variable {sys : System τ ρ κ} {t : τ} {ts : List τ} {rows rows' : List ρ} {I P : List ρ → Prop}

/-- What every statement keeps is kept by a sequence of statements. -/
theorem foldlM_exec_rule {conflict : ρ → ρ → Bool} {sts : List (Statement ρ κ)}
    (h : ∀ st ∈ sts, ∀ rows rows', P rows → st.exec conflict rows = some rows' → P rows')
    (hP : P rows) (hexec : sts.foldlM (Statement.exec conflict) rows = some rows') : P rows' := by
  induction sts generalizing rows with
  | nil =>
    cases hexec
    exact hP
  | cons st sts ih =>
    rw [List.foldlM_cons] at hexec
    obtain ⟨rows₁, hfirst, hrest⟩ := Option.bind_eq_some_iff.mp hexec
    exact ih (fun st hst => h st (List.mem_cons_of_mem _ hst))
      (h st List.mem_cons_self rows rows₁ hP hfirst) hrest

/-- One transaction more, at the end of a sequence. -/
theorem System.execAll_snoc : sys.execAll (ts ++ [t]) rows = some rows' ↔
    ∃ rows₁, sys.execAll ts rows = some rows₁ ∧ sys.exec rows₁ t = some rows' := by
  simp [System.execAll, Option.bind_eq_some_iff]

/-- What every transaction keeps holds after a sequence of them. -/
theorem System.execAll_rule (h : ∀ t rows rows', P rows → sys.exec rows t = some rows' → P rows')
    (hP : P rows) (hexec : sys.execAll ts rows = some rows') : P rows' := by
  induction ts using List.reverseRecOn generalizing rows' with
  | nil =>
    cases hexec
    exact hP
  | append_singleton ts t ih =>
    obtain ⟨rows₁, hbefore, hlast⟩ := System.execAll_snoc.mp hexec
    exact h t rows₁ rows' (ih hbefore) hlast

/-- What all transactions keep, and what those of `C` establish and cannot do twice, is done
once. -/
theorem System.execAll_once {C : τ → Prop}
    (hkeeps : ∀ t rows rows', I rows ∧ P rows → sys.exec rows t = some rows' → P rows')
    (honce : ∀ t rows rows', I rows → C t → sys.exec rows t = some rows' → ¬ P rows ∧ P rows')
    (hI : ∀ t rows rows', I rows → sys.exec rows t = some rows' → I rows') (hrows : I rows)
    (hexec : sys.execAll ts rows = some rows') (hnodup : ts.Nodup) :
    ∀ t ∈ ts, C t → ∀ t' ∈ ts, C t' → t = t' := by
  have hboth : (∀ t ∈ ts, C t → P rows') ∧ ∀ t ∈ ts, C t → ∀ t' ∈ ts, C t' → t = t' := by
    induction ts using List.reverseRecOn generalizing rows' with
    | nil => exact ⟨nofun, nofun⟩
    | append_singleton ts u ih =>
      obtain ⟨rows₁, hbefore, hlast⟩ := System.execAll_snoc.mp hexec
      have hI₁ : I rows₁ := System.execAll_rule hI hrows hbefore
      obtain ⟨hdone, hold⟩ := ih hbefore (hnodup.sublist (List.sublist_append_left _ _))
      have hnew : ∀ t ∈ ts, C t → ¬ C u := fun t ht hC hu =>
        (honce u rows₁ rows' hI₁ hu hlast).1 (hdone t ht hC)
      constructor
      · intro t ht hC
        rcases List.mem_append.mp ht with ht | ht
        · exact hkeeps u rows₁ rows' ⟨hI₁, hdone t ht hC⟩ hlast
        · rw [List.mem_singleton.mp ht] at hC
          exact (honce u rows₁ rows' hI₁ hC hlast).2
      · intro t ht hC t' ht' hC'
        rcases List.mem_append.mp ht with ht | ht <;> rcases List.mem_append.mp ht' with ht' | ht'
        · exact hold t ht hC t' ht' hC'
        · rw [List.mem_singleton.mp ht'] at hC'
          exact absurd hC' (hnew t ht hC)
        · rw [List.mem_singleton.mp ht] at hC
          exact absurd hC (hnew t' ht' hC')
        · rw [List.mem_singleton.mp ht, List.mem_singleton.mp ht']
  exact hboth.2

end

/-! ### Rows that are spent once -/

/-- The row with the key `k` is spent. -/
def Spent {α : Type} (key : ρ → α) (spent : ρ → Prop) (k : α) (rows : List ρ) : Prop :=
  ∃ r ∈ rows, key r = k ∧ spent r

section
variable {α : Type} [DecidableEq α] {sys : System τ ρ κ} {key : ρ → α} {spent : ρ → Prop} {k : α}
  {t : τ} {sts : List (Statement ρ κ)} {rows rows' : List ρ}

/-- Keys stay unique. -/
theorem Separate.nodup_exec (hsys : Separate sys key) {st : Statement ρ κ}
    (hst : st ∈ sys.prog t) (h : (rows.map key).Nodup)
    (hexec : st.exec sys.conflict rows = some rows') : (rows'.map key).Nodup := by
  cases st with
  | lock key =>
    cases hexec
    exact h
  | insert make required =>
    rcases Statement.exec_insert hexec with ⟨row, _, hfree, rfl⟩ | ⟨_, _, rfl⟩
    · refine Sql.nodup_keys_snoc h fun r hr heq => ?_
      have hconflict := hfree r hr
      rw [hsys.conflict, decide_eq_false_iff_not] at hconflict
      exact hconflict heq.symm
    · exact h
  | update u required =>
    obtain ⟨rfl, _⟩ := Statement.exec_update hexec
    have hkeeps : u.Keeps key := fun x => hsys.keeps t u required x hst
    rw [hkeeps.map_run]
    exact h

/-- A spent row stays spent. -/
theorem Separate.spent_exec (hsys : Separate sys key)
    (hspent : ∀ t u required x, .update u required ∈ sys.prog t → spent x → spent (u.set x))
    {st : Statement ρ κ} (hst : st ∈ sys.prog t) (h : Spent key spent k rows)
    (hexec : st.exec sys.conflict rows = some rows') : Spent key spent k rows' := by
  obtain ⟨r, hr, hrk, hrspent⟩ := h
  cases st with
  | lock key =>
    cases hexec
    exact ⟨r, hr, hrk, hrspent⟩
  | insert make required =>
    rcases Statement.exec_insert hexec with ⟨row, _, _, rfl⟩ | ⟨_, _, rfl⟩
    · exact ⟨r, List.mem_append_left _ hr, hrk, hrspent⟩
    · exact ⟨r, hr, hrk, hrspent⟩
  | update u required =>
    obtain ⟨rfl, _⟩ := Statement.exec_update hexec
    have hkeeps : u.Keeps key := fun x => hsys.keeps t u required x hst
    refine ⟨u.apply r, Update.apply_mem_run hr, (hkeeps.apply r).trans hrk, ?_⟩
    unfold Update.apply
    split
    · exact hspent t u required r hst hrspent
    · exact hrspent

/-- A required `UPDATE` that only meets the row `k` while it is not spent, and spends it, is in
one transaction of a sequence. -/
theorem Separate.spent_once (hsys : Separate sys key)
    (hspent : ∀ t u required x, .update u required ∈ sys.prog t → spent x → spent (u.set x))
    {C : τ → Prop} (hC : ∀ t, C t → ∃ u, .update u true ∈ sys.prog t ∧
      ∀ x, u.cond x = true → key x = k ∧ ¬ spent x ∧ spent (u.set x))
    {ts : List τ} (hrows : (rows.map key).Nodup) (hexec : sys.execAll ts rows = some rows')
    (hnodup : ts.Nodup) : ∀ t ∈ ts, C t → ∀ t' ∈ ts, C t' → t = t' := by
  refine System.execAll_once (I := fun rows => (rows.map key).Nodup) (P := Spent key spent k)
    ?_ ?_ ?_ hrows hexec hnodup
  · rintro t rows rows' ⟨_, hP⟩ hexec
    exact foldlM_exec_rule (fun st hst _ _ => hsys.spent_exec hspent hst) hP hexec
  · intro t rows rows' hrows hC' hexec
    obtain ⟨u, hu, hcond⟩ := hC t hC'
    -- the statements before the update, and those after it
    obtain ⟨before, after, hprog⟩ := List.append_of_mem hu
    have hmem : ∀ st, st ∈ before ∨ st ∈ after → st ∈ sys.prog t := by
      intro st hst
      rw [hprog]
      rcases hst with hst | hst
      · exact List.mem_append_left _ hst
      · exact List.mem_append_right _ (List.mem_cons_of_mem _ hst)
    rw [System.exec, hprog, List.foldlM_append] at hexec
    obtain ⟨rows₁, hbefore, hexec⟩ := Option.bind_eq_some_iff.mp hexec
    rw [List.foldlM_cons] at hexec
    obtain ⟨rows₂, hupdate, hafter⟩ := Option.bind_eq_some_iff.mp hexec
    have hrows₁ : (rows₁.map key).Nodup :=
      foldlM_exec_rule (P := fun rows => (rows.map key).Nodup)
        (fun st hst _ _ => hsys.nodup_exec (hmem st (.inl hst))) hrows hbefore
    obtain ⟨rfl, hhits⟩ := Statement.exec_update hupdate
    obtain ⟨r, hr, hmet⟩ := Update.hits_iff.mp (hhits rfl)
    obtain ⟨hrk, hfresh, hset⟩ := hcond r hmet
    constructor
    · intro hP
      obtain ⟨r', hr', hrk', hspent'⟩ := foldlM_exec_rule (P := Spent key spent k)
        (fun st hst _ _ => hsys.spent_exec hspent (hmem st (.inl hst))) hP hbefore
      rw [List.inj_on_of_nodup_map hrows₁ hr hr' (hrk.trans hrk'.symm)] at hfresh
      exact hfresh hspent'
    · refine foldlM_exec_rule (P := Spent key spent k)
        (fun st hst _ _ => hsys.spent_exec hspent (hmem st (.inr hst))) ?_ hafter
      refine ⟨u.apply r, Update.apply_mem_run hr, ?_, ?_⟩
      · rw [Update.apply_pos hmet, hsys.keeps t u true r hu]
        exact hrk
      · rw [Update.apply_pos hmet]
        exact hset
  · intro t rows rows' hI hexec
    exact foldlM_exec_rule (P := fun rows => (rows.map key).Nodup)
      (fun st hst _ _ => hsys.nodup_exec hst) hI hexec

end

end ReadCommitted
