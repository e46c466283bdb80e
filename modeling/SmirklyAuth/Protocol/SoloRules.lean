import SmirklyAuth.Lib.Solo
import SmirklyAuth.Services.Runtime

/-!
# `SmirklyAuth.Protocol.SoloRules`: running a use case alone

One rule for each kind of step of a `Service`, with and without a fault. They rewrite the
run of a `do` block to the run of what follows its first step, which is how the modules
below compute the result and the database that a call leaves.

The rules for `Ensures` prove a postcondition of a `do` block. A step may be hit by a fault or
be rolled back, so each of them asks for the postcondition of an exception that leaves the
database as it is.
-/

set_option autoImplicit false

namespace SmirklyAuth

open Interleaving Solo

/-- No step of the call is hit by a fault. -/
def Quiet (inputs : Nat → Input) : Prop := ∀ n, (inputs n).fault = none

/-- The inputs that are left are quiet too. -/
theorem Quiet.rest {inputs : Nat → Input} (h : Quiet inputs) : Quiet (rest inputs) :=
  fun n => h (n + 1)

namespace Service

variable {α β : Type} {inputs : Nat → Input} {db : Db}

/-! What a call does between two steps. -/

/-- A validation that passed. -/
@[simp] theorem validated_ok_bind (a : α) (g : α → Service β) :
    (validated (.ok a) >>= g) = g a := rfl

/-- A value that is there. -/
@[simp] theorem orThrow_some_bind (a : α) (x : Error) (g : α → Service β) :
    (orThrow (some a) x >>= g) = g a := rfl

/-- A test that passed. -/
@[simp] theorem throwIf_false_bind (x : Error) (g : Unit → Service β) :
    (throwIf false x >>= g) = g () := rfl

/-! The steps. -/

variable {g : α → Service β} {event : α → TxEvent} {tx : Input → Tx α}

/-- A read without a fault, before the rest of the call. -/
theorem solo_port_bind {event : α → Event} {f : Input → Db → α}
    (hfault : (inputs 0).fault = none) :
    (port event f >>= g).solo inputs db
      = ((g (f (inputs 0) db)).solo (rest inputs) db).after [event (f (inputs 0) db)] := by
  show Prog.solo (.act _ _) inputs db = _
  simp only [Prog.solo, hfault]
  rfl

/-- A read with a fault ends the call. -/
theorem solo_port_bind_fault {event : α → Event} {f : Input → Db → α}
    {what : Str} (hfault : (inputs 0).fault = some what) :
    (port event f >>= g).solo inputs db
      = ⟨[.failed what], .error (.runtimeError what), rest inputs, db⟩ := by
  show Prog.solo (.act _ _) inputs db = _
  simp only [Prog.solo, hfault]
  rfl

/-- A transaction without a fault commits or rolls back. -/
theorem solo_transaction
    (hfault : (inputs 0).fault = none) :
    (transaction event tx).solo inputs db = match tx (inputs 0) db with
      | .ok (a, db') => ⟨[.committed (event a)], .ok a, rest inputs, db'⟩
      | .error x => ⟨[.rolledBack x], .error x, rest inputs, db⟩ := by
  simp only [transaction, Prog.solo, hfault]
  cases tx (inputs 0) db <;> rfl

/-- A transaction with a fault ends the call and writes nothing. -/
theorem solo_transaction_fault {what : Str}
    (hfault : (inputs 0).fault = some what) :
    (transaction event tx).solo inputs db
      = ⟨[.failed what], .error (.runtimeError what), rest inputs, db⟩ := by
  simp only [transaction, Prog.solo, hfault]
  rfl

/-- A transaction that commits, before the rest of the call. -/
theorem solo_transaction_bind_ok {a : α} {db' : Db} (hfault : (inputs 0).fault = none)
    (htx : tx (inputs 0) db = .ok (a, db')) :
    (transaction event tx >>= g).solo inputs db
      = ((g a).solo (rest inputs) db').after [.committed (event a)] := by
  rw [Prog.solo_bind, solo_transaction hfault, htx]
  rfl

/-- A transaction that rolls back ends the call. -/
theorem solo_transaction_bind_error {x : Error} (hfault : (inputs 0).fault = none)
    (htx : tx (inputs 0) db = .error x) :
    (transaction event tx >>= g).solo inputs db
      = ⟨[.rolledBack x], .error x, rest inputs, db⟩ := by
  rw [Prog.solo_bind, solo_transaction hfault, htx]
  rfl

/-! Postconditions. -/

section

variable {Q : Except Error β → Db → Prop}

variable {g : α → Service β}

/-- The rule for a read: whatever it returns, the rest keeps the condition. -/
theorem ensures_port_bind {event : α → Event} {f : Input → Db → α}
    (hthrow : ∀ x, Q (.error x) db) (h : ∀ i, (g (f i db)).Ensures db Q) :
    (port event f >>= g).Ensures db Q := by
  intro inputs
  cases hfault : (inputs 0).fault with
  | none =>
    rw [solo_port_bind hfault]
    exact h _ _
  | some what =>
    rw [solo_port_bind_fault hfault]
    exact hthrow _

/-- The rule for a transaction at the end of a call. -/
theorem ensures_transaction {event : β → TxEvent} {tx : Input → Tx β}
    (hthrow : ∀ x, Q (.error x) db) (h : ∀ i b db', tx i db = .ok (b, db') → Q (.ok b) db') :
    (transaction event tx).Ensures db Q := by
  intro inputs
  cases hfault : (inputs 0).fault with
  | none =>
    rw [solo_transaction hfault]
    cases htx : tx (inputs 0) db with
    | ok r => exact h _ _ _ htx
    | error x => exact hthrow x
  | some what =>
    rw [solo_transaction_fault hfault]
    exact hthrow _

/-- The rule for a transaction before the rest of a call. -/
theorem ensures_transaction_bind {event : α → TxEvent} {tx : Input → Tx α}
    (hthrow : ∀ x, Q (.error x) db)
    (h : ∀ i a db', tx i db = .ok (a, db') → (g a).Ensures db' Q) :
    (transaction event tx >>= g).Ensures db Q :=
  Prog.ensures_bind (ensures_transaction hthrow h)

/-- The rule for a test: the rest may assume that it passed. -/
theorem ensures_throwIf_bind {cond : Bool} {error : Error} {g : Unit → Service β}
    (hthrow : ∀ x, Q (.error x) db) (h : cond = false → (g ()).Ensures db Q) :
    (throwIf cond error >>= g).Ensures db Q := by
  cases cond with
  | true => exact Prog.ensures_throw (hthrow _)
  | false => exact h rfl

/-- The rule for a value that may be missing. -/
theorem ensures_orThrow_bind {value : Option α} {error : Error}
    (hthrow : ∀ x, Q (.error x) db) (h : ∀ a, value = some a → (g a).Ensures db Q) :
    (orThrow value error >>= g).Ensures db Q := by
  cases value with
  | none => exact Prog.ensures_throw (hthrow _)
  | some a => exact h a rfl

/-- The rule for a validation. -/
theorem ensures_validated_bind {value : Except Error α}
    (hthrow : ∀ x, Q (.error x) db) (h : ∀ a, value = .ok a → (g a).Ensures db Q) :
    (validated value >>= g).Ensures db Q := by
  cases value with
  | error x => exact Prog.ensures_throw (hthrow x)
  | ok a => exact h a rfl

end

end Service

end SmirklyAuth
