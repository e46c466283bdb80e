import SmirklyAuth.Services.Runtime

/-!
# `SmirklyAuth.Protocol.Rules`: `Obeys` for the operations of a use case

One rule for each operation of `Services.Runtime`, in the form in which it stands in a `do`
block: the operation, then the rest. A step that aborts ends the call (or its `try` block).
`Faults S Q evs` collects what the rules need of `S` and `Q` for a step that fails after the
events `evs`. A transaction can also be rolled back, with the exception of its statements.
-/

set_option autoImplicit false

namespace SmirklyAuth

open Interleaving Prog

variable {α β : Type} {S : List Event → Event → Db → Db → Prop}
  {Q : List Event → Except Error β → Prop} {evs : List Event}

/-- `S` lets a step fail, and `Q` holds of its exception. -/
structure Faults (S : List Event → Event → Db → Db → Prop)
    (Q : List Event → Except Error β → Prop) (evs : List Event) : Prop where
  failed : ∀ what db, S evs (.failed what) db db
  finish : ∀ what, Q (evs ++ [.failed what]) (.error (.runtimeError what))

variable {g : α → Service β} {event : α → TxEvent} {tx : Input → Tx α}

/-- The rule of a port: it fails, or the block goes on with its answer. -/
theorem obeys_port_bind (hf : Faults S Q evs) {event : α → Event} {f : Input → Db → α}
    (h : ∀ i db, S evs (event (f i db)) db db ∧
      Obeys S Q (evs ++ [event (f i db)]) (g (f i db))) :
    Obeys S Q evs (Service.port event f >>= g) := by
  intro i db
  simp only
  cases i.fault with
  | none => exact h i db
  | some what => exact ⟨hf.failed _ _, hf.finish _⟩

/-- The same rule for a call of a port at the end of a block. -/
theorem obeys_port (hf : Faults S Q evs) {event : β → Event} {f : Input → Db → β}
    (h : ∀ i db, S evs (event (f i db)) db db ∧ Q (evs ++ [event (f i db)]) (.ok (f i db))) :
    Obeys S Q evs (Service.port event f) := by
  intro i db
  simp only
  cases i.fault with
  | none => exact h i db
  | some what => exact ⟨hf.failed _ _, hf.finish _⟩

/-- The rule of a transaction: it fails, it is rolled back, or the block goes on. -/
theorem obeys_transaction_bind (hf : Faults S Q evs)
    (hroll : ∀ i db x, tx i db = .error x →
      S evs (.rolledBack x) db db ∧ Q (evs ++ [.rolledBack x]) (.error x))
    (h : ∀ i db a db', tx i db = .ok (a, db') → S evs (.committed (event a)) db db' ∧
      Obeys S Q (evs ++ [.committed (event a)]) (g a)) :
    Obeys S Q evs (Service.transaction event tx >>= g) := by
  intro i db
  simp only
  cases i.fault with
  | some what => exact ⟨hf.failed _ _, hf.finish _⟩
  | none =>
    cases htx : tx i db with
    | error x => exact hroll i db x htx
    | ok r => exact h i db r.1 r.2 htx

/-- The same rule for a transaction at the end of a block. -/
theorem obeys_transaction (hf : Faults S Q evs) {event : β → TxEvent} {tx : Input → Tx β}
    (hroll : ∀ i db x, tx i db = .error x →
      S evs (.rolledBack x) db db ∧ Q (evs ++ [.rolledBack x]) (.error x))
    (h : ∀ i db b db', tx i db = .ok (b, db') → S evs (.committed (event b)) db db' ∧
      Q (evs ++ [.committed (event b)]) (.ok b)) :
    Obeys S Q evs (Service.transaction event tx) := by
  intro i db
  simp only
  cases i.fault with
  | some what => exact ⟨hf.failed _ _, hf.finish _⟩
  | none =>
    cases htx : tx i db with
    | error x => exact hroll i db x htx
    | ok r => exact h i db r.1 r.2 htx

/-- A report is one step, and it does not throw. -/
theorem obeys_report {event : Event} {Q : List Event → Except Error Unit → Prop}
    (h : ∀ db, S evs event db db) (hQ : Q (evs ++ [event]) (.ok ())) :
    Obeys S Q evs (Service.report event) := fun _ db => ⟨h db, hQ⟩

/-- A check throws, or the block goes on. -/
theorem obeys_throwIf_bind {cond : Bool} {error : Error} {g : Unit → Service β}
    (hthrow : cond = true → Q evs (.error error))
    (hrest : cond = false → Obeys S Q evs (g ())) :
    Obeys S Q evs (Service.throwIf cond error >>= g) := by
  cases cond with
  | true => exact hthrow rfl
  | false => exact hrest rfl

/-- A missing value throws, or the block goes on with the value. -/
theorem obeys_orThrow_bind {value : Option α} {error : Error}
    (hthrow : value = none → Q evs (.error error))
    (hrest : ∀ a, value = some a → Obeys S Q evs (g a)) :
    Obeys S Q evs (Service.orThrow value error >>= g) := by
  cases value with
  | none => exact hthrow rfl
  | some a => exact hrest a rfl

/-- A validator throws, or the block goes on with its result. -/
theorem obeys_validated_bind {value : Except Error α}
    (hthrow : ∀ x, value = .error x → Q evs (.error x))
    (hrest : ∀ a, value = .ok a → Obeys S Q evs (g a)) :
    Obeys S Q evs (Service.validated value >>= g) := by
  cases value with
  | error x => exact hthrow x rfl
  | ok a => exact hrest a rfl

end SmirklyAuth
