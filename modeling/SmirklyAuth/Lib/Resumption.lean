import Mathlib.Logic.Relation

/-!
# `SmirklyAuth.Lib.Resumption`: calls as resumptions over a shared store

A `Prog` is the rest of a call. It has returned, it has thrown, or its next action is an
atomic step on a store that other calls also use. A step gets an input that the
environment picks (a clock reading, a fresh identifier, a fault). It writes the store,
emits one event, and goes on with a program that depends on the input and on the store it
saw. Between two steps of a call, every other call can run.

`Prog` is a monad with exceptions, so a service is written as a `do` block.

`Prog.Obeys S Q evs p` is the rule for such a block. `evs` is the list of events the call
has emitted so far. Each step that `p` can take, from every store, emits an event that `S`
allows after those events, and each way to finish satisfies `Q`. `obeys_bind` and
`obeys_tryCatch` reduce a `do` block to its steps.
-/

set_option autoImplicit false

namespace Interleaving

/-- The rest of a call: a result, an exception, or one atomic step and what follows it.
`σ` is the store, `ι` the input of a step, `ε` its event and `χ` the exceptions. -/
inductive Prog (σ ι ε χ α : Type) : Type where
  | done (a : α)
  | raise (x : χ)
  | act (f : ι → σ → ε × σ) (k : ι → σ → Prog σ ι ε χ α)

namespace Prog

variable {σ ι ε χ α β : Type}

/-- Run `p`, then go on with its result. An exception of `p` ends the whole program. -/
def bind : Prog σ ι ε χ α → (α → Prog σ ι ε χ β) → Prog σ ι ε χ β
  | .done a, g => g a
  | .raise x, _ => .raise x
  | .act f k, g => .act f fun i s => (k i s).bind g

/-- Run `p`, and go on with the handler when it throws. -/
def tryCatch : Prog σ ι ε χ α → (χ → Prog σ ι ε χ α) → Prog σ ι ε χ α
  | .done a, _ => .done a
  | .raise x, h => h x
  | .act f k, h => .act f fun i s => (k i s).tryCatch h

instance : Monad (Prog σ ι ε χ) where
  pure := .done
  bind := bind

instance : MonadExceptOf χ (Prog σ ι ε χ) where
  throw := .raise
  tryCatch := tryCatch

/-- Every step of `p` satisfies `S` and every way to finish satisfies `Q`. The first
argument of both is the list of events the call has emitted so far. The store before a
step is arbitrary, because other calls run between two steps. -/
def Obeys (S : List ε → ε → σ → σ → Prop) (Q : List ε → Except χ α → Prop) :
    List ε → Prog σ ι ε χ α → Prop
  | evs, .done a => Q evs (.ok a)
  | evs, .raise x => Q evs (.error x)
  | evs, .act f k => ∀ i s,
      S evs (f i s).1 s (f i s).2 ∧ Obeys S Q (evs ++ [(f i s).1]) (k i s)

section
variable {S : List ε → ε → σ → σ → Prop}

variable {Q Q' : List ε → Except χ α → Prop} {evs : List ε} {p : Prog σ ι ε χ α}

/-- A result obeys the rules when it meets the condition. -/
theorem obeys_pure (evs : List ε) (a : α) :
    Obeys (ι := ι) S Q evs (pure a) ↔ Q evs (.ok a) := Iff.rfl

/-- A weaker condition on the results. -/
theorem Obeys.mono
    (hQ : ∀ evs r, Q evs r → Q' evs r) (h : Obeys S Q evs p) : Obeys S Q' evs p := by
  induction p generalizing evs with
  | done a => exact hQ _ _ h
  | raise x => exact hQ _ _ h
  | act f k ih => exact fun i s => ⟨(h i s).1, ih i s (h i s).2⟩

/-- A description that allows everything. -/
theorem obeys_of_forall (hS : ∀ evs e s s', S evs e s s')
    (hQ : ∀ evs r, Q evs r) (evs : List ε) (p : Prog σ ι ε χ α) : Obeys S Q evs p := by
  induction p generalizing evs with
  | done a => exact hQ _ _
  | raise x => exact hQ _ _
  | act f k ih => exact fun i s => ⟨hS _ _ _ _, ih i s _⟩

/-- Another description of a program, by a property of the events that its steps keep. -/
theorem Obeys.carry {S' : List ε → ε → σ → σ → Prop}
    {J : List ε → Prop} (h : Obeys S Q evs p)
    (hevs : J evs)
    (hstep : ∀ evs e s s', J evs → S evs e s s' → S' evs e s s' ∧ J (evs ++ [e]))
    (hend : ∀ evs r, J evs → Q evs r → Q' evs r) : Obeys S' Q' evs p := by
  induction p generalizing evs with
  | done a => exact hend _ _ hevs h
  | raise x => exact hend _ _ hevs h
  | act f k ih =>
    intro i s
    obtain ⟨hs, hk⟩ := h i s
    obtain ⟨hs', hevs'⟩ := hstep _ _ _ _ hevs hs
    exact ⟨hs', ih i s hk hevs'⟩

/-- Two descriptions of the same program. -/
theorem Obeys.and {S' : List ε → ε → σ → σ → Prop} (h : Obeys S Q evs p) (h' : Obeys S' Q' evs p) :
    Obeys (fun evs e s s' => S evs e s s' ∧ S' evs e s s')
      (fun evs r => Q evs r ∧ Q' evs r) evs p := by
  induction p generalizing evs with
  | done a => exact ⟨h, h'⟩
  | raise x => exact ⟨h, h'⟩
  | act f k ih => exact fun i s => ⟨⟨(h i s).1, (h' i s).1⟩, ih i s (h i s).2 (h' i s).2⟩

/-- A `do` block obeys `S` when its first part does and every result of that part leads to
a rest that does. The events of the first part are part of the history of the rest. -/
theorem obeys_bind {Q : List ε → Except χ β → Prop} (evs : List ε)
    (p : Prog σ ι ε χ α) (g : α → Prog σ ι ε χ β) :
    Obeys S Q evs (p >>= g) ↔
      Obeys S (fun evs' r => match r with
        | .ok a => Obeys S Q evs' (g a)
        | .error x => Q evs' (.error x)) evs p := by
  show Obeys S Q evs (p.bind g) ↔ _
  induction p generalizing evs with
  | done a => rfl
  | raise x => rfl
  | act f k ih => simp only [bind, Obeys, ih]

/-- A `try` block obeys `S` when its body does and every exception of the body leads to a
handler that does. -/
theorem obeys_tryCatch (evs : List ε)
    (p : Prog σ ι ε χ α) (h : χ → Prog σ ι ε χ α) :
    Obeys S Q evs (tryCatchThe χ p h) ↔
      Obeys S (fun evs' r => match r with
        | .ok a => Q evs' (.ok a)
        | .error x => Obeys S Q evs' (h x)) evs p := by
  show Obeys S Q evs (p.tryCatch h) ↔ _
  induction p generalizing evs with
  | done a => rfl
  | raise x => rfl
  | act f k ih => simp only [tryCatch, Obeys, ih]

end

end Prog

end Interleaving
