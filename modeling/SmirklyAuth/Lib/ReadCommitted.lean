import Mathlib.Data.List.Basic
import Mathlib.Logic.Function.Basic
import Mathlib.Logic.Relation
import SmirklyAuth.Lib.Update

/-!
# `SmirklyAuth.Lib.ReadCommitted`: transactions at the isolation level READ COMMITTED

Any number of transactions work on one table, statement by statement.

* A `Cell` is a row with its versions: the committed one, and the one that an open
  transaction has written. The open version is also the row lock.
* A statement sees the rows that were committed when it started, and the rows that its own
  transaction has written (`State.view`).
* An `UPDATE` collects the rows that meet its condition when it starts. Then it goes through
  them one by one, in any order. It waits for a row that another transaction has locked.
  When the row is free, it evaluates the condition again on the newest committed version
  (`Cell.write`).
* An `INSERT` adds a row that is computed from what it sees. The row is invisible to the other
  transactions until the commit.
* A lock statement takes an advisory lock, which is exclusive until its transaction ends.
* A transaction ends with a commit or a rollback. It can be rolled back at any time, and it is
  rolled back when a statement that has to yield a row yields none.

`State.act` executes one action. `Effect` says what an action can do, and every invariant is
proved from it.
-/

set_option autoImplicit false

namespace ReadCommitted

open Sql (Update)

/-- A row and its versions. -/
structure Cell (τ ρ : Type) where
  committed : Option ρ
  pending : Option (τ × ρ)

/-- A statement. The flag says whether the transaction is rolled back when the statement
yields no row. -/
inductive Statement (ρ κ : Type) where
  | lock (key : κ)
  | insert (make : List ρ → Option ρ) (required : Bool)
  | update (u : Update ρ) (required : Bool)

/-- The transactions and the unique constraint of the table. -/
structure System (τ ρ κ : Type) where
  prog : τ → List (Statement ρ κ)
  conflict : ρ → ρ → Bool

/-- Whether a transaction still runs, and how it has ended. -/
inductive Status where
  | active | committed | rolledBack
  deriving DecidableEq, Repr

/-- An `UPDATE` in progress: the rows ahead of it, and whether it has written one. -/
structure Scan where
  ahead : List Nat
  touched : Bool

/-- The state of a transaction: its next statement, and how far it is. -/
structure Txn where
  pc : Nat := 0
  scan : Option Scan := none
  status : Status := .active

/-- The rows, the locks that are held, and the transactions. -/
structure State (τ ρ κ : Type) where
  cells : List (Cell τ ρ)
  locks : List (κ × τ)
  txns : τ → Txn

/-- What a transaction does next. -/
inductive Action (τ : Type) where
  /-- Take the next lock, insert the next row, or start the next `UPDATE`. -/
  | run (t : τ)
  /-- Go on with a row that is ahead of the `UPDATE` in progress. -/
  | touch (t : τ) (i : Nat)
  /-- End the `UPDATE` in progress. -/
  | finish (t : τ)
  | commit (t : τ)
  | rollback (t : τ)

/-- The transaction that acts. -/
def Action.actor {τ : Type} : Action τ → τ
  | .run t => t
  | .touch t _ => t
  | .finish t => t
  | .commit t => t
  | .rollback t => t

variable {τ ρ κ : Type} [DecidableEq τ]

namespace Cell

/-- The version that the transaction sees. -/
def seenBy (t : τ) (c : Cell τ ρ) : Option ρ :=
  match c.pending with
  | some (t', x) => if t' = t then some x else c.committed
  | none => c.committed

/-- Another transaction has written the row. -/
def lockedFor (t : τ) (c : Cell τ ρ) : Bool := c.pending.any fun p => decide (p.1 ≠ t)

/-- The row after the `UPDATE` has come to it. -/
def write (t : τ) (u : Update ρ) (c : Cell τ ρ) : Cell τ ρ :=
  match c.seenBy t with
  | some x => if u.cond x then { c with pending := some (t, u.set x) } else c
  | none => c

/-- The version of a transaction becomes the committed one. -/
def commit (t : τ) (c : Cell τ ρ) : Cell τ ρ :=
  match c.pending with
  | some (t', x) => if t' = t then ⟨some x, none⟩ else c
  | none => c

/-- The version of a transaction is dropped. -/
def rollback (t : τ) (c : Cell τ ρ) : Cell τ ρ :=
  if c.pending.any fun p => decide (p.1 = t) then { c with pending := none } else c

/-- The versions of the row. -/
def versions (c : Cell τ ρ) : List ρ := c.committed.toList ++ (c.pending.map (·.2)).toList

end Cell

namespace State

/-- The rows that a statement of the transaction sees. -/
def view (s : State τ ρ κ) (t : τ) : List ρ := s.cells.filterMap (·.seenBy t)

/-- The rows that are committed. -/
def committedRows (s : State τ ρ κ) : List ρ := s.cells.filterMap (·.committed)

/-- The rows that an `UPDATE` collects when it starts. -/
def targets (s : State τ ρ κ) (t : τ) (u : Update ρ) : List Nat :=
  (List.range s.cells.length).filter fun i => (s.cells[i]?.bind (·.seenBy t)).any u.cond

/-- The state with another record of a transaction. -/
def setTxn (s : State τ ρ κ) (t : τ) (x : Txn) : State τ ρ κ :=
  { s with txns := Function.update s.txns t x }

/-- The transaction goes on with its next statement. -/
def goOn (s : State τ ρ κ) (t : τ) : State τ ρ κ :=
  s.setTxn t { pc := (s.txns t).pc + 1 }

/-- `COMMIT`: the versions of the transaction count, and its locks are free. -/
def commit (s : State τ ρ κ) (t : τ) : State τ ρ κ where
  cells := s.cells.map (·.commit t)
  locks := s.locks.filter fun l => decide (l.2 ≠ t)
  txns := Function.update s.txns t { pc := (s.txns t).pc, status := .committed }

/-- `ROLLBACK`: the versions of the transaction are gone, and its locks are free. -/
def rollback (s : State τ ρ κ) (t : τ) : State τ ρ κ where
  cells := s.cells.map (·.rollback t)
  locks := s.locks.filter fun l => decide (l.2 ≠ t)
  txns := Function.update s.txns t { pc := (s.txns t).pc, status := .rolledBack }

end State

/-- The next statement of a transaction that is active. -/
def System.next (sys : System τ ρ κ) (s : State τ ρ κ) (t : τ) : Option (Statement ρ κ) :=
  match (s.txns t).status with
  | .active => (sys.prog t)[(s.txns t).pc]?
  | _ => none

/-- The state after one action, or `none` when the action is not possible: the transaction has
to wait, or it has nothing of this kind to do. -/
def State.act [DecidableEq κ] (sys : System τ ρ κ) (s : State τ ρ κ) :
    Action τ → Option (State τ ρ κ)
  | .run t =>
      match sys.next s t, (s.txns t).scan with
      | some (.lock key), none =>
          if s.locks.any fun l => decide (l.1 = key ∧ l.2 ≠ t) then none
          else some { s.goOn t with locks := (key, t) :: s.locks }
      | some (.insert make required), none =>
          match make (s.view t) with
          | some row =>
              if s.cells.any fun c => c.versions.any (sys.conflict row) then none
              else some { s.goOn t with cells := s.cells ++ [⟨none, some (t, row)⟩] }
          | none => some (if required then s.rollback t else s.goOn t)
      | some (.update u _), none =>
          some (s.setTxn t { pc := (s.txns t).pc, scan := some ⟨s.targets t u, false⟩ })
      | _, _ => none
  | .touch t i =>
      match sys.next s t, (s.txns t).scan, s.cells[i]? with
      | some (.update u _), some scan, some c =>
          if scan.ahead.contains i && !c.lockedFor t then
            some
              { s.setTxn t
                  { pc := (s.txns t).pc
                    scan := some ⟨scan.ahead.erase i,
                      scan.touched || (c.seenBy t).any u.cond⟩ } with
                cells := s.cells.set i (c.write t u) }
          else none
      | _, _, _ => none
  | .finish t =>
      match sys.next s t, (s.txns t).scan with
      | some (.update _ required), some ⟨[], touched⟩ =>
          some (if required && !touched then s.rollback t else s.goOn t)
      | _, _ => none
  | .commit t =>
      match (s.txns t).status, sys.next s t with
      | .active, none => some (s.commit t)
      | _, _ => none
  | .rollback t =>
      match (s.txns t).status with
      | .active => some (s.rollback t)
      | _ => none

/-! ### What an action does -/

/-- The ways in which an action changes the state. -/
inductive Effect (sys : System τ ρ κ) (s : State τ ρ κ) : Action τ → State τ ρ κ → Prop where
  | locked {t key} (hnext : sys.next s t = some (.lock key))
      (hfree : ∀ t', (key, t') ∈ s.locks → t' = t) :
      Effect sys s (.run t) { s.goOn t with locks := (key, t) :: s.locks }
  | inserted {t make required row} (hnext : sys.next s t = some (.insert make required))
      (hmake : make (s.view t) = some row)
      (hnew : ∀ c ∈ s.cells, ∀ x ∈ c.versions, sys.conflict row x = false) :
      Effect sys s (.run t) { s.goOn t with cells := s.cells ++ [⟨none, some (t, row)⟩] }
  | passed {t make} (hnext : sys.next s t = some (.insert make false))
      (hmake : make (s.view t) = none) : Effect sys s (.run t) (s.goOn t)
  | opened {t u required} (hnext : sys.next s t = some (.update u required))
      (hscan : (s.txns t).scan = none) :
      Effect sys s (.run t)
        (s.setTxn t { pc := (s.txns t).pc, scan := some ⟨s.targets t u, false⟩ })
  | touched {t u required scan i c} (hnext : sys.next s t = some (.update u required))
      (hscan : (s.txns t).scan = some scan) (hahead : i ∈ scan.ahead)
      (hcell : s.cells[i]? = some c) (hfree : ∀ t' x, c.pending = some (t', x) → t' = t) :
      Effect sys s (.touch t i)
        { s.setTxn t
            { pc := (s.txns t).pc
              scan := some ⟨scan.ahead.erase i, scan.touched || (c.seenBy t).any u.cond⟩ } with
          cells := s.cells.set i (c.write t u) }
  | finished {t u required touched} (hnext : sys.next s t = some (.update u required))
      (hscan : (s.txns t).scan = some ⟨[], touched⟩) (htouched : required = true → touched = true) :
      Effect sys s (.finish t) (s.goOn t)
  | committed {t} (hactive : (s.txns t).status = .active) (hnext : sys.next s t = none) :
      Effect sys s (.commit t) (s.commit t)
  | rolledBack {a : Action τ} (hactive : (s.txns a.actor).status = .active) :
      Effect sys s a (s.rollback a.actor)

section
variable {sys : System τ ρ κ} {s s' : State τ ρ κ} {a : Action τ} {t : τ}

omit [DecidableEq τ] in
/-- A transaction with a next statement is active, and the statement is in its program. -/
theorem System.next_eq_some {st : Statement ρ κ} (h : sys.next s t = some st) :
    (s.txns t).status = .active ∧ (sys.prog t)[(s.txns t).pc]? = some st := by
  unfold System.next at h
  split at h
  · rename_i hactive
    exact ⟨hactive, h⟩
  · cases h

/-- A row that is free for a transaction has no version of another one. -/
theorem Cell.lockedFor_eq_false {c : Cell τ ρ} (h : c.lockedFor t = false) :
    ∀ t' x, c.pending = some (t', x) → t' = t := by
  intro t' x hpending
  simpa [Cell.lockedFor, hpending] using h

/-- Every action that is possible has one of these effects. -/
theorem effect_of_act [DecidableEq κ] (h : s.act sys a = some s') : Effect sys s a s' := by
  cases a with
  | run t =>
    simp only [State.act] at h
    split at h
    · rename_i key hnext hscan
      split at h
      · cases h
      · rename_i hfree
        cases h
        refine .locked hnext fun t' hlock => ?_
        by_contra hne
        exact hfree (List.any_eq_true.mpr ⟨(key, t'), hlock, by simp [hne]⟩)
    · rename_i make required hnext hscan
      have hactive := (System.next_eq_some hnext).1
      split at h
      · rename_i row hmake
        split at h
        · cases h
        · rename_i hnew
          cases h
          refine .inserted hnext hmake fun c hc x hx => ?_
          by_contra hconflict
          refine hnew (List.any_eq_true.mpr ⟨c, hc, List.any_eq_true.mpr ⟨x, hx, ?_⟩⟩)
          simpa using hconflict
      · rename_i hmake
        cases h
        cases required with
        | true => exact .rolledBack hactive
        | false =>
          -- without a row the statement does nothing
          exact .passed hnext hmake
    · rename_i u required hnext hscan
      cases h
      exact .opened hnext hscan
    · cases h
  | touch t i =>
    simp only [State.act] at h
    split at h
    · rename_i u required scan c hnext hscan hcell
      split at h
      · rename_i hcond
        cases h
        simp only [Bool.and_eq_true, List.contains_iff_mem, Bool.not_eq_true'] at hcond
        exact .touched hnext hscan hcond.1 hcell (Cell.lockedFor_eq_false hcond.2)
      · cases h
    · cases h
  | finish t =>
    simp only [State.act] at h
    split at h
    · rename_i u required touched hnext hscan
      have hactive := (System.next_eq_some hnext).1
      cases h
      split
      · exact .rolledBack hactive
      · rename_i hcond
        refine .finished hnext hscan fun hrequired => ?_
        simpa [hrequired] using hcond
    · cases h
  | commit t =>
    simp only [State.act] at h
    split at h
    · rename_i hactive hnext
      cases h
      exact .committed hactive hnext
    · cases h
  | rollback t =>
    simp only [State.act] at h
    split at h
    · rename_i hactive
      cases h
      exact .rolledBack hactive
    · cases h

end

/-! ### The start of an `UPDATE` -/

section
variable {sys : System τ ρ κ} {s s' : State τ ρ κ} {t : τ}

/-- A transaction whose statements are updates starts one. -/
theorem opened_of_act [DecidableEq κ] (h : s.act sys (.run t) = some s')
    (hprog : ∀ st ∈ sys.prog t, ∃ u required, st = .update u required) :
    ∃ u required, sys.next s t = some (.update u required) ∧
      s' = s.setTxn t { pc := (s.txns t).pc, scan := some ⟨s.targets t u, false⟩ } := by
  have hupdate : ∀ st, sys.next s t = some st → ∃ u required, st = .update u required :=
    fun st hnext => hprog st (List.mem_of_getElem? (System.next_eq_some hnext).2)
  simp only [State.act] at h
  split at h
  · rename_i hnext _
    obtain ⟨_, _, heq⟩ := hupdate _ hnext
    cases heq
  · rename_i hnext _
    obtain ⟨_, _, heq⟩ := hupdate _ hnext
    cases heq
  · rename_i u required hnext _
    cases h
    exact ⟨u, required, hnext, rfl⟩
  · cases h

/-- A row that the transaction sees and that meets the condition is a target. -/
theorem State.mem_targets {u : Update ρ} {i : Nat} {c : Cell τ ρ} {x : ρ}
    (hc : s.cells[i]? = some c) (hseen : c.seenBy t = some x) (hcond : u.cond x = true) :
    i ∈ s.targets t u := by
  have hlt : i < s.cells.length := (List.getElem?_eq_some_iff.mp hc).1
  refine List.mem_filter.mpr ⟨List.mem_range.mpr hlt, ?_⟩
  rw [hc, Option.bind_some, hseen]
  exact hcond

end

/-! ### Runs -/

/-- The rows are committed, and no transaction has done anything. -/
def State.initial (rows : List ρ) : State τ ρ κ where
  cells := rows.map fun r => ⟨some r, none⟩
  locks := []
  txns := fun _ => {}

section
variable [DecidableEq κ]

/-- One step of a run whose actions are admitted by `ok`. -/
def Step (sys : System τ ρ κ) (ok : State τ ρ κ → Action τ → Prop) (s s' : State τ ρ κ) :
    Prop :=
  ∃ a, ok s a ∧ s.act sys a = some s'

/-- The states that further steps reach. -/
abbrev Steps (sys : System τ ρ κ) (ok : State τ ρ κ → Action τ → Prop) :
    State τ ρ κ → State τ ρ κ → Prop :=
  Relation.ReflTransGen (Step sys ok)

/-- The state after a schedule. -/
def replay (sys : System τ ρ κ) (ok : State τ ρ κ → Action τ → Prop)
    [∀ s a, Decidable (ok s a)] (s : State τ ρ κ) :
    List (Action τ) → Option (State τ ρ κ)
  | [] => some s
  | a :: as => if ok s a then (s.act sys a).bind (replay sys ok · as) else none

variable {sys : System τ ρ κ} {ok : State τ ρ κ → Action τ → Prop} {s s' : State τ ρ κ}

/-- A property that every effect of an admitted action keeps holds in every state of a run. -/
theorem Steps.rule {J : State τ ρ κ → Prop}
    (hstep : ∀ s a s', J s → ok s a → Effect sys s a s' → J s')
    (h : Steps sys ok s s') (hJ : J s) : J s' := by
  induction h with
  | refl => exact hJ
  | tail _ hlast ih =>
    obtain ⟨a, hok, hact⟩ := hlast
    exact hstep _ a _ ih hok (effect_of_act hact)

/-- A replay that passes is a sequence of steps. -/
theorem steps_of_replay [∀ s a, Decidable (ok s a)] {as : List (Action τ)}
    (h : replay sys ok s as = some s') :
    Steps sys ok s s' := by
  induction as generalizing s with
  | nil =>
    simp only [replay, Option.some.injEq] at h
    rw [h]
  | cons a as ih =>
    simp only [replay] at h
    split at h
    · rename_i hok
      obtain ⟨s₁, hact, hrest⟩ := Option.bind_eq_some_iff.mp h
      exact .head ⟨a, hok, hact⟩ (ih hrest)
    · cases h

end

/-! ### Versions -/

namespace Cell

section
variable {t : τ} {u : Update ρ} {c : Cell τ ρ} {x : ρ}

omit [DecidableEq τ] in
/-- The versions of a row. -/
theorem mem_versions : x ∈ c.versions ↔ c.committed = some x ∨ ∃ t, c.pending = some (t, x) := by
  unfold versions
  cases hpending : c.pending with
  | none => simp
  | some p =>
    obtain ⟨t', y⟩ := p
    simp [eq_comm]

/-- What a transaction sees of a row is one of its versions. -/
theorem mem_versions_of_seenBy (h : c.seenBy t = some x) : x ∈ c.versions := by
  rw [mem_versions]
  unfold seenBy at h
  split at h
  · rename_i t' y hpending
    split at h
    · cases h
      exact .inr ⟨t', hpending⟩
    · exact .inl h
  · exact .inl h

/-- Coming to a row leaves it, or adds the new value of the version that was seen. -/
theorem write_cases (t : τ) (u : Update ρ) (c : Cell τ ρ) :
    c.write t u = c ∧ (c.seenBy t).any u.cond = false ∨
      ∃ x, c.seenBy t = some x ∧ u.cond x = true ∧
        c.write t u = { c with pending := some (t, u.set x) } := by
  unfold write
  cases hseen : c.seenBy t with
  | none => exact .inl ⟨rfl, rfl⟩
  | some x =>
    cases hcond : u.cond x with
    | false => exact .inl ⟨by simp [hcond], by simp [hcond]⟩
    | true => exact .inr ⟨x, rfl, hcond, by simp [hcond]⟩

/-- A commit changes the rows that the transaction has a version of, and no other. -/
theorem commit_cases (t : τ) (c : Cell τ ρ) :
    (c.commit t = c ∧ ∀ x, c.pending ≠ some (t, x)) ∨
      ∃ x, c.pending = some (t, x) ∧ c.commit t = ⟨some x, none⟩ := by
  unfold commit
  split
  · rename_i t' x hpending
    split
    · rename_i heq
      subst heq
      exact .inr ⟨x, hpending, rfl⟩
    · rename_i hne
      refine .inl ⟨rfl, fun y hy => hne ?_⟩
      rw [hpending] at hy
      cases hy
      rfl
  · rename_i hpending
    exact .inl ⟨rfl, fun y hy => by rw [hpending] at hy; cases hy⟩

/-- A rollback changes the rows that the transaction has a version of, and no other. -/
theorem rollback_cases (t : τ) (c : Cell τ ρ) :
    (c.rollback t = c ∧ ∀ x, c.pending ≠ some (t, x)) ∨
      ∃ x, c.pending = some (t, x) ∧ c.rollback t = { c with pending := none } := by
  unfold rollback
  cases hpending : c.pending with
  | none => exact .inl ⟨by simp, fun x hx => by cases hx⟩
  | some p =>
    obtain ⟨t', x⟩ := p
    by_cases heq : t' = t
    · subst heq
      exact .inr ⟨x, rfl, by simp⟩
    · refine .inl ⟨by simp [heq], fun y hy => heq ?_⟩
      cases hy
      rfl

/-- After its commit the transaction has no version. -/
theorem pending_commit_ne (c : Cell τ ρ) (t : τ) (x : ρ) :
    (c.commit t).pending ≠ some (t, x) := by
  rcases commit_cases t c with ⟨heq, hne⟩ | ⟨y, _, heq⟩
  · rw [heq]
    exact hne x
  · rw [heq]
    exact fun h => nomatch h

/-- After its rollback the transaction has no version. -/
theorem pending_rollback_ne (c : Cell τ ρ) (t : τ) (x : ρ) :
    (c.rollback t).pending ≠ some (t, x) := by
  rcases rollback_cases t c with ⟨heq, hne⟩ | ⟨y, _, heq⟩
  · rw [heq]
    exact hne x
  · rw [heq]
    exact fun h => nomatch h

end

end Cell

/-! ### Rows -/

/-- What an action does to a row that is there. -/
inductive Cell.Change (sys : System τ ρ κ) (s s' : State τ ρ κ) (i : Nat) (c : Cell τ ρ) :
    Action τ → Cell τ ρ → Prop where
  | same {a} : Change sys s s' i c a c
  | written {t u required scan} (hnext : sys.next s t = some (.update u required))
      (hscan : (s.txns t).scan = some scan) (hahead : i ∈ scan.ahead)
      (hfree : ∀ t' x, c.pending = some (t', x) → t' = t) :
      Change sys s s' i c (.touch t i) (c.write t u)
  | committed {t} (hs' : s' = s.commit t) (hactive : (s.txns t).status = .active)
      (hnext : sys.next s t = none) : Change sys s s' i c (.commit t) (c.commit t)
  | rolledBack {a} (hs' : s' = s.rollback a.actor) (hactive : (s.txns a.actor).status = .active) :
      Change sys s s' i c a (c.rollback a.actor)

/-- An action inserts the row into a new cell. -/
structure Inserted (sys : System τ ρ κ) (s s' : State τ ρ κ) (t : τ) (row : ρ) : Prop where
  cells : s'.cells = s.cells ++ [⟨none, some (t, row)⟩]
  made : ∃ make required, sys.next s t = some (.insert make required) ∧
    make (s.view t) = some row
  new : ∀ c ∈ s.cells, ∀ x ∈ c.versions, sys.conflict row x = false

section
variable {sys : System τ ρ κ} {s s' : State τ ρ κ} {a : Action τ} {t : τ} {i : Nat}
  {c c' : Cell τ ρ} {x y : ρ}

/-- Every row after an action was there before, or the action has inserted it. -/
theorem Effect.cell_of (h : Effect sys s a s') (hc' : s'.cells[i]? = some c') :
    (∃ c, s.cells[i]? = some c ∧ c.Change sys s s' i a c') ∨
      ∃ t row, Inserted sys s s' t row ∧ i = s.cells.length ∧ c' = ⟨none, some (t, row)⟩ := by
  cases h with
  | locked _ _ => exact .inl ⟨c', hc', .same⟩
  | passed _ _ => exact .inl ⟨c', hc', .same⟩
  | opened _ _ => exact .inl ⟨c', hc', .same⟩
  | finished _ _ _ => exact .inl ⟨c', hc', .same⟩
  | @inserted t make required row hnext hmake hnew =>
    have hcells := hc'
    change (s.cells ++ [⟨none, some (t, row)⟩])[i]? = some c' at hcells
    rw [List.getElem?_append] at hcells
    split at hcells
    · exact .inl ⟨c', hcells, .same⟩
    · rename_i hlen
      rw [List.getElem?_singleton] at hcells
      split at hcells
      · cases hcells
        exact .inr ⟨t, row, ⟨rfl, ⟨make, required, hnext, hmake⟩, hnew⟩, by omega, rfl⟩
      · cases hcells
  | @touched t u required scan j c hnext hscan hahead hcell hfree =>
    change (s.cells.set j (c.write t u))[i]? = some c' at hc'
    rw [List.getElem?_set] at hc'
    split at hc'
    · rename_i hij
      subst hij
      split at hc'
      · cases hc'
        exact .inl ⟨c, hcell, .written hnext hscan hahead hfree⟩
      · cases hc'
    · exact .inl ⟨c', hc', .same⟩
  | @committed t hactive hnext =>
    change (s.cells.map (·.commit t))[i]? = some c' at hc'
    rw [List.getElem?_map] at hc'
    obtain ⟨c, hc, rfl⟩ := Option.map_eq_some_iff.mp hc'
    exact .inl ⟨c, hc, .committed rfl hactive hnext⟩
  | rolledBack hactive =>
    change (s.cells.map (·.rollback a.actor))[i]? = some c' at hc'
    rw [List.getElem?_map] at hc'
    obtain ⟨c, hc, rfl⟩ := Option.map_eq_some_iff.mp hc'
    exact .inl ⟨c, hc, .rolledBack rfl hactive⟩

/-- Rows are only appended. -/
theorem Effect.length_le (h : Effect sys s a s') : s.cells.length ≤ s'.cells.length := by
  cases h with
  | inserted _ _ _ => simp
  | touched _ _ _ _ _ => simp
  | committed _ _ => simp [State.commit]
  | rolledBack _ => simp [State.rollback]
  | locked _ _ => exact Nat.le_refl _
  | passed _ _ => exact Nat.le_refl _
  | opened _ _ => exact Nat.le_refl _
  | finished _ _ _ => exact Nat.le_refl _

/-- A row stays in its place. -/
theorem Effect.cell (h : Effect sys s a s') (hc : s.cells[i]? = some c) :
    ∃ c', s'.cells[i]? = some c' ∧ c.Change sys s s' i a c' := by
  have hlt : i < s.cells.length := (List.getElem?_eq_some_iff.mp hc).1
  have hlt' : i < s'.cells.length := Nat.lt_of_lt_of_le hlt h.length_le
  refine ⟨s'.cells[i], List.getElem?_eq_getElem hlt', ?_⟩
  rcases h.cell_of (List.getElem?_eq_getElem hlt') with ⟨c₀, hc₀, hchange⟩ | ⟨_, _, _, heq, _⟩
  · rw [hc] at hc₀
    cases hc₀
    exact hchange
  · omega

omit [DecidableEq τ] in
/-- The next statement is one of the program. -/
theorem System.next_mem {st : Statement ρ κ} (h : sys.next s t = some st) : st ∈ sys.prog t :=
  List.mem_of_getElem? (System.next_eq_some h).2

/-- The version that an open transaction has written was there before, or it is the new value
of the version that the transaction has seen. -/
theorem Cell.Change.pending (h : c.Change sys s s' i a c') (hx : c'.pending = some (t, x)) :
    c.pending = some (t, x) ∨
      (a = .touch t i ∧ ∃ u required y, sys.next s t = some (.update u required) ∧
        (∀ t' z, c.pending = some (t', z) → t' = t) ∧ c.seenBy t = some y ∧
        u.cond y = true ∧ x = u.set y) := by
  cases h with
  | same => exact .inl hx
  | @written t' u required _ hnext _ _ hfree =>
    rcases Cell.write_cases t' u c with ⟨heq, _⟩ | ⟨y, hseen, hcond, heq⟩
    · rw [heq] at hx
      exact .inl hx
    · rw [heq] at hx
      cases hx
      exact .inr ⟨rfl, u, required, y, hnext, hfree, hseen, hcond, rfl⟩
  | @committed t' _ _ _ =>
    rcases Cell.commit_cases t' c with ⟨heq, _⟩ | ⟨y, _, heq⟩
    · rw [heq] at hx
      exact .inl hx
    · rw [heq] at hx
      cases hx
  | rolledBack _ _ =>
    rcases Cell.rollback_cases a.actor c with ⟨heq, _⟩ | ⟨y, _, heq⟩
    · rw [heq] at hx
      exact .inl hx
    · rw [heq] at hx
      cases hx

/-- The committed version was committed before, or its transaction commits now. -/
theorem Cell.Change.committed_of (h : c.Change sys s s' i a c') (hx : c'.committed = some x) :
    c.committed = some x ∨ ∃ t, a = .commit t ∧ s' = s.commit t ∧ c.pending = some (t, x) := by
  cases h with
  | same => exact .inl hx
  | @written t' u _ _ _ _ _ _ =>
    rcases Cell.write_cases t' u c with ⟨heq, _⟩ | ⟨y, _, _, heq⟩ <;> rw [heq] at hx <;>
      exact .inl hx
  | @committed t' hs' _ _ =>
    rcases Cell.commit_cases t' c with ⟨heq, _⟩ | ⟨y, hpending, heq⟩
    · rw [heq] at hx
      exact .inl hx
    · rw [heq] at hx
      cases hx
      exact .inr ⟨t', rfl, hs', hpending⟩
  | rolledBack _ _ =>
    rcases Cell.rollback_cases a.actor c with ⟨heq, _⟩ | ⟨y, _, heq⟩ <;> rw [heq] at hx <;>
      exact .inl hx

/-- A committed row stays committed, in the old version or in the one that was open. -/
theorem Cell.Change.committed_some (h : c.Change sys s s' i a c') (hx : c.committed = some x) :
    ∃ y, c'.committed = some y ∧ (y = x ∨ ∃ t, c.pending = some (t, y)) := by
  cases h with
  | same => exact ⟨x, hx, .inl rfl⟩
  | @written t' u _ _ _ _ _ _ =>
    refine ⟨x, ?_, .inl rfl⟩
    rcases Cell.write_cases t' u c with ⟨heq, _⟩ | ⟨y, _, _, heq⟩ <;> rw [heq] <;> exact hx
  | @committed t' _ _ _ =>
    rcases Cell.commit_cases t' c with ⟨heq, _⟩ | ⟨y, hpending, heq⟩
    · rw [heq]
      exact ⟨x, hx, .inl rfl⟩
    · rw [heq]
      exact ⟨y, rfl, .inr ⟨t', hpending⟩⟩
  | rolledBack _ _ =>
    refine ⟨x, ?_, .inl rfl⟩
    rcases Cell.rollback_cases a.actor c with ⟨heq, _⟩ | ⟨y, _, heq⟩ <;> rw [heq] <;> exact hx

/-- An `UPDATE` that comes to a row writes it, or the transaction is rolled back. -/
theorem Effect.touch_cell (h : Effect sys s (.touch t i) s') (hc : s.cells[i]? = some c) :
    s' = s.rollback t ∨ ∃ u required, sys.next s t = some (.update u required) ∧
      (∀ t' x, c.pending = some (t', x) → t' = t) ∧ s'.cells[i]? = some (c.write t u) := by
  cases h with
  | rolledBack _ => exact .inl rfl
  | @touched _ u required scan _ c₀ hnext _ _ hcell hfree =>
    rw [hc] at hcell
    cases hcell
    have hlt : i < s.cells.length := (List.getElem?_eq_some_iff.mp hc).1
    refine .inr ⟨u, required, hnext, hfree, ?_⟩
    change (s.cells.set i (c.write t u))[i]? = some (c.write t u)
    rw [List.getElem?_set_self hlt]

end

/-! ### Transactions and their locks -/

section
variable {sys : System τ ρ κ} {s s' : State τ ρ κ} {a : Action τ} {t : τ} {c : Cell τ ρ} {x : ρ}

/-- An action does nothing to the other transactions. -/
theorem Effect.frame (h : Effect sys s a s') (hne : t ≠ a.actor) : s'.txns t = s.txns t := by
  cases h <;> exact Function.update_of_ne hne _ _

/-- Only a transaction that runs acts. -/
theorem Effect.actor_active (h : Effect sys s a s') : (s.txns a.actor).status = .active := by
  cases h with
  | locked hnext _ => exact (System.next_eq_some hnext).1
  | inserted hnext _ _ => exact (System.next_eq_some hnext).1
  | passed hnext _ => exact (System.next_eq_some hnext).1
  | opened hnext _ => exact (System.next_eq_some hnext).1
  | touched hnext _ _ _ _ => exact (System.next_eq_some hnext).1
  | finished hnext _ _ => exact (System.next_eq_some hnext).1
  | committed hactive _ => exact hactive
  | rolledBack hactive => exact hactive

/-- A transaction that has ended does nothing any more. -/
theorem Effect.ended (h : Effect sys s a s') (hended : (s.txns t).status ≠ .active) :
    s'.txns t = s.txns t := by
  refine h.frame ?_
  rintro rfl
  exact hended h.actor_active

/-- An active transaction stays active, or it has ended now. -/
theorem Effect.active (h : Effect sys s a s') (hactive : (s.txns t).status = .active) :
    (s'.txns t).status = .active ∨ s' = s.commit t ∨ s' = s.rollback t := by
  by_cases heq : t = a.actor
  · subst heq
    cases h with
    | committed _ _ => exact .inr (.inl rfl)
    | rolledBack _ => exact .inr (.inr rfl)
    | _ => exact .inl (by simp [State.goOn, State.setTxn, Action.actor])
  · rw [h.frame heq]
    exact .inl hactive

/-- A row stays ahead of an `UPDATE` until the `UPDATE` comes to it. -/
theorem Effect.ahead (h : Effect sys s a s') {u : Update ρ} {required : Bool} {scan : Scan}
    {i : Nat} (hnext : sys.next s t = some (.update u required))
    (hscan : (s.txns t).scan = some scan) (hi : i ∈ scan.ahead) :
    (sys.next s' t = some (.update u required) ∧
      ∃ scan', (s'.txns t).scan = some scan' ∧ i ∈ scan'.ahead) ∨
    a = .touch t i ∨ s' = s.rollback t := by
  by_cases heq : t = a.actor
  rotate_left
  · -- another transaction acts
    have hkept : s'.txns t = s.txns t := h.frame heq
    refine .inl ⟨?_, scan, by rw [hkept]; exact hscan, hi⟩
    simpa only [System.next, hkept] using hnext
  subst heq
  cases h with
  | rolledBack _ => exact .inr (.inr rfl)
  | locked hnext' _ => exact nomatch hnext.symm.trans hnext'
  | inserted hnext' _ _ => exact nomatch hnext.symm.trans hnext'
  | passed hnext' _ => exact nomatch hnext.symm.trans hnext'
  | committed _ hnext' => exact nomatch hnext.symm.trans hnext'
  | opened _ hscan' => exact nomatch hscan.symm.trans hscan'
  | finished _ hscan' _ =>
    cases hscan.symm.trans hscan'
    cases hi
  | @touched t' u' _ scan' j c _ hscan' _ _ _ =>
    cases hscan.symm.trans hscan'
    by_cases hij : j = i
    · rw [hij]
      exact .inr (.inl rfl)
    · obtain ⟨_, hcurrent⟩ := System.next_eq_some hnext
      refine .inl ⟨?_, ⟨scan.ahead.erase j, scan.touched || (c.seenBy t').any u'.cond⟩, ?_,
        (List.mem_erase_of_ne (Ne.symm hij)).mpr hi⟩
      · simpa only [System.next, State.setTxn, Action.actor, Function.update_self] using hcurrent
      · simp only [State.setTxn, Action.actor, Function.update_self]

/-- A transaction that has written a row had done so before, or it is the one that acts. -/
theorem Effect.pending (h : Effect sys s a s') {c' : Cell τ ρ} (hc' : c' ∈ s'.cells)
    (hpending : c'.pending = some (t, x)) :
    (∃ c ∈ s.cells, ∃ y, c.pending = some (t, y)) ∨ (s.txns t).status = .active := by
  obtain ⟨i, hi⟩ := List.mem_iff_getElem?.mp hc'
  rcases h.cell_of hi with ⟨c, hc, hchange⟩ | ⟨_, _, hins, _, rfl⟩
  · rcases hchange.pending hpending with hpending | ⟨_, _, _, _, hnext, _⟩
    · exact .inl ⟨c, List.mem_of_getElem? hc, x, hpending⟩
    · exact .inr (System.next_eq_some hnext).1
  · obtain ⟨_, _, hnext, _⟩ := hins.made
    cases hpending
    exact .inr (System.next_eq_some hnext).1

/-- What holds in every state of a run:

- `active`: only active transactions have written rows;
- `exclusive`: an advisory lock has one holder;
- `held`: an active transaction holds the locks of the statements behind it. -/
structure Sound (sys : System τ ρ κ) (s : State τ ρ κ) : Prop where
  active : ∀ c ∈ s.cells, ∀ t x, c.pending = some (t, x) → (s.txns t).status = .active
  exclusive : ∀ key t t', (key, t) ∈ s.locks → (key, t') ∈ s.locks → t = t'
  held : ∀ t, (s.txns t).status = .active → ∀ j key, j < (s.txns t).pc →
    (sys.prog t)[j]? = some (.lock key) → (key, t) ∈ s.locks

omit [DecidableEq τ] in
/-- The start is sound. -/
theorem Sound.initial (rows : List ρ) : Sound sys (State.initial rows) where
  active c hc t x hpending := by
    obtain ⟨r, _, rfl⟩ := List.mem_map.mp hc
    cases hpending
  exclusive _ _ _ h := nomatch h
  held _ _ _ _ hj := absurd hj (Nat.not_lt_zero _)

/-- A transaction that goes on keeps its locks. -/
theorem Effect.lock_kept (h : Effect sys s a s') (hactive : (s'.txns t).status = .active)
    {key : κ} (hlock : (key, t) ∈ s.locks) : (key, t) ∈ s'.locks := by
  have hne : s' = s.commit a.actor ∨ s' = s.rollback a.actor → t ≠ a.actor := by
    rintro (rfl | rfl) rfl <;> simp [State.commit, State.rollback] at hactive
  cases h with
  | locked _ _ => exact List.mem_cons_of_mem _ hlock
  | committed _ _ => exact List.mem_filter.mpr ⟨hlock, decide_eq_true (hne (.inl rfl))⟩
  | rolledBack _ => exact List.mem_filter.mpr ⟨hlock, decide_eq_true (hne (.inr rfl))⟩
  | _ => exact hlock

/-- The transaction that acts holds its locks, and the one that it has taken now. -/
theorem Sound.held_actor (hs : Sound sys s) (h : Effect sys s a s')
    (hactive : (s'.txns a.actor).status = .active) {j : Nat} {key : κ}
    (hj : j < (s'.txns a.actor).pc) (hlock : (sys.prog a.actor)[j]? = some (.lock key)) :
    (key, a.actor) ∈ s'.locks := by
  have hold : j < (s.txns a.actor).pc → (key, a.actor) ∈ s.locks := fun hlt =>
    hs.held a.actor h.actor_active j key hlt hlock
  -- a statement that the transaction has passed now is its last statement
  have hpassed : ∀ st, sys.next s a.actor = some st → (∀ key', st ≠ .lock key') →
      j < (s.txns a.actor).pc + 1 → (key, a.actor) ∈ s.locks := by
    intro st hnext hst hlt
    refine hold (Nat.lt_of_le_of_ne (Nat.le_of_lt_succ hlt) ?_)
    rintro rfl
    rw [(System.next_eq_some hnext).2] at hlock
    exact hst key (Option.some.inj hlock)
  cases h with
  | @locked t key' hnext _ =>
    simp only [State.goOn, State.setTxn, Action.actor, Function.update_self] at hj
    by_cases hlast : j = (s.txns t).pc
    · rw [hlast, Action.actor, (System.next_eq_some hnext).2] at hlock
      cases hlock
      exact List.mem_cons_self
    · exact List.mem_cons_of_mem _ (hold (by simp only [Action.actor]; omega))
  | inserted hnext _ _ =>
    simp only [State.goOn, State.setTxn, Action.actor, Function.update_self] at hj
    exact hpassed _ hnext (fun _ => nofun) hj
  | passed hnext _ =>
    simp only [State.goOn, State.setTxn, Action.actor, Function.update_self] at hj
    exact hpassed _ hnext (fun _ => nofun) hj
  | finished hnext _ _ =>
    simp only [State.goOn, State.setTxn, Action.actor, Function.update_self] at hj
    exact hpassed _ hnext (fun _ => nofun) hj
  | opened _ _ =>
    simp only [State.setTxn, Action.actor, Function.update_self] at hj
    exact hold hj
  | touched _ _ _ _ _ =>
    simp only [State.setTxn, Action.actor, Function.update_self] at hj
    exact hold hj
  | committed _ _ => simp [State.commit, Action.actor] at hactive
  | rolledBack _ => simp [State.rollback] at hactive

/-- Every action keeps these facts. -/
theorem Effect.sound (h : Effect sys s a s') (hs : Sound sys s) : Sound sys s' where
  active := by
    intro c' hc' t x hpending
    have hactive : (s.txns t).status = .active := by
      rcases h.pending hc' hpending with ⟨c, hc, y, hy⟩ | hactive
      · exact hs.active c hc t y hy
      · exact hactive
    rcases h.active hactive with hactive | rfl | rfl
    · exact hactive
    · obtain ⟨c, _, rfl⟩ := List.mem_map.mp hc'
      exact absurd hpending (c.pending_commit_ne t x)
    · obtain ⟨c, _, rfl⟩ := List.mem_map.mp hc'
      exact absurd hpending (c.pending_rollback_ne t x)
  exclusive := by
    intro key t t' ht ht'
    cases h with
    | @locked t₀ key₀ _ hfree =>
      simp only [List.mem_cons, Prod.mk.injEq] at ht ht'
      rcases ht with ⟨rfl, rfl⟩ | ht <;> rcases ht' with ⟨heq, rfl⟩ | ht'
      · rfl
      · exact (hfree t' ht').symm
      · exact hfree t (heq ▸ ht)
      · exact hs.exclusive key t t' ht ht'
    | committed _ _ =>
      exact hs.exclusive key t t' (List.mem_filter.mp ht).1 (List.mem_filter.mp ht').1
    | rolledBack _ =>
      exact hs.exclusive key t t' (List.mem_filter.mp ht).1 (List.mem_filter.mp ht').1
    | inserted _ _ _ => exact hs.exclusive key t t' ht ht'
    | passed _ _ => exact hs.exclusive key t t' ht ht'
    | opened _ _ => exact hs.exclusive key t t' ht ht'
    | touched _ _ _ _ _ => exact hs.exclusive key t t' ht ht'
    | finished _ _ _ => exact hs.exclusive key t t' ht ht'
  held := by
    intro t hactive j key hj hlock
    by_cases heq : t = a.actor
    · subst heq
      exact hs.held_actor h hactive hj hlock
    · refine h.lock_kept hactive ?_
      rw [h.frame heq] at hactive hj
      exact hs.held t hactive j key hj hlock

end

end ReadCommitted
