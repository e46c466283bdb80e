import SmirklyAuth.Lib.Resumption

/-!
# `SmirklyAuth.Lib.Solo`: a call that runs alone

`Prog.solo p inputs s` runs a call from the store `s` to its end while no other call takes a
step. The environment picks `inputs 0` for the first step, `inputs 1` for the second, and so
on. A program has no loop of its own, so every call ends and `solo` is total.

`solo_bind` and `solo_tryCatch` take a `do` block apart. `Obeys.solo_invariant` carries a
property of the events and of the store along the run, from a description of the steps.
`Ensures p s Q` is the postcondition of a call that starts in the store `s`: its result and
the store it leaves satisfy `Q`, whatever the inputs. `ensures_bind` is its rule for a `do`
block, and the store that the rest of the block starts in is known there.
-/

set_option autoImplicit false

namespace Interleaving

/-- How a call ended: its events, its result, the inputs it did not use and the store. -/
structure Solo (σ ι ε χ α : Type) where
  events : List ε
  result : Except χ α
  inputs : Nat → ι
  store : σ

namespace Solo

variable {σ ι ε χ α β : Type}

/-- The inputs after the first one. -/
def rest (inputs : Nat → ι) : Nat → ι := fun n => inputs (n + 1)

/-- The inputs that are left, one by one. -/
@[simp] theorem rest_apply (inputs : Nat → ι) (n : Nat) : rest inputs n = inputs (n + 1) := rfl

/-- The same end, with events before it. -/
def after (events : List ε) (r : Solo σ ι ε χ α) : Solo σ ι ε χ α :=
  { r with events := events ++ r.events }

/-- Earlier events do not change the result. -/
@[simp] theorem after_result (events : List ε) (r : Solo σ ι ε χ α) :
    (r.after events).result = r.result := rfl

/-- Earlier events do not change the store. -/
@[simp] theorem after_store (events : List ε) (r : Solo σ ι ε χ α) :
    (r.after events).store = r.store := rfl

/-- Earlier events come first. -/
@[simp] theorem after_events (events : List ε) (r : Solo σ ι ε χ α) :
    (r.after events).events = events ++ r.events := rfl

/-- Go on from the end of a call with a result or with an exception. -/
def next (r : Solo σ ι ε χ α) (k : Except χ α → (Nat → ι) → σ → Solo σ ι ε χ β) :
    Solo σ ι ε χ β :=
  (k r.result r.inputs r.store).after r.events

end Solo

namespace Prog

variable {σ ι ε χ α β : Type}

/-- Run a call to its end. -/
def solo : Prog σ ι ε χ α → (Nat → ι) → σ → Solo σ ι ε χ α
  | .done a, inputs, s => ⟨[], .ok a, inputs, s⟩
  | .raise x, inputs, s => ⟨[], .error x, inputs, s⟩
  | .act f k, inputs, s =>
    ((k (inputs 0) s).solo (Solo.rest inputs) (f (inputs 0) s).2).after [(f (inputs 0) s).1]

/-- A result uses no input and has no event. -/
@[simp] theorem solo_pure (a : α) (inputs : Nat → ι) (s : σ) :
    (pure a : Prog σ ι ε χ α).solo inputs s = ⟨[], .ok a, inputs, s⟩ := rfl

/-- A sequence runs its second part with what the first has left. -/
theorem solo_bind (p : Prog σ ι ε χ α) (g : α → Prog σ ι ε χ β) (inputs : Nat → ι) (s : σ) :
    (p >>= g).solo inputs s = (p.solo inputs s).next fun result inputs s => match result with
      | .ok a => (g a).solo inputs s
      | .error x => ⟨[], .error x, inputs, s⟩ := by
  show (p.bind g).solo inputs s = _
  induction p generalizing inputs s with
  | done a => rfl
  | raise x => rfl
  | act f k ih =>
    simp only [bind, solo, ih]
    rfl

/-- The handler of an exception runs with what the call has left. -/
theorem solo_tryCatch (p : Prog σ ι ε χ α) (h : χ → Prog σ ι ε χ α) (inputs : Nat → ι)
    (s : σ) :
    (tryCatchThe χ p h).solo inputs s
      = (p.solo inputs s).next fun result inputs s => match result with
        | .ok a => ⟨[], .ok a, inputs, s⟩
        | .error x => (h x).solo inputs s := by
  show (p.tryCatch h).solo inputs s = _
  induction p generalizing inputs s with
  | done a => rfl
  | raise x => rfl
  | act f k ih =>
    simp only [tryCatch, solo, ih]
    rfl

/-- What each step of a description keeps holds at the end of the call, together with the
condition of the description on the result. -/
theorem Obeys.solo_invariant {S : List ε → ε → σ → σ → Prop} {Q : List ε → Except χ α → Prop}
    {J : List ε → σ → Prop} {evs : List ε} {p : Prog σ ι ε χ α} (h : Obeys S Q evs p)
    (step : ∀ evs e s s', J evs s → S evs e s s' → J (evs ++ [e]) s') (inputs : Nat → ι)
    (s : σ) (hs : J evs s) :
    J (evs ++ (p.solo inputs s).events) (p.solo inputs s).store ∧
      Q (evs ++ (p.solo inputs s).events) (p.solo inputs s).result := by
  induction p generalizing evs inputs s with
  | done a =>
    rw [show evs ++ (solo (.done a) inputs s).events = evs from List.append_nil evs]
    exact ⟨hs, h⟩
  | raise x =>
    rw [show evs ++ (solo (.raise x) inputs s).events = evs from List.append_nil evs]
    exact ⟨hs, h⟩
  | act f k ih =>
    obtain ⟨hstep, hrest⟩ := h (inputs 0) s
    have hend := ih _ _ hrest (Solo.rest inputs) _ (step _ _ _ _ hs hstep)
    simp only [List.append_assoc] at hend
    exact hend

/-! ### Postconditions -/

/-- Every run of the call alone from `s` ends with a result and a store that satisfy `Q`. -/
def Ensures (p : Prog σ ι ε χ α) (s : σ) (Q : Except χ α → σ → Prop) : Prop :=
  ∀ inputs, Q (p.solo inputs s).result (p.solo inputs s).store

section

variable {s : σ} {Q : Except χ α → σ → Prop}

/-- The rule for a result. -/
theorem ensures_pure {a : α} (h : Q (.ok a) s) : (pure a : Prog σ ι ε χ α).Ensures s Q :=
  fun _ => h

/-- The rule for an exception. -/
theorem ensures_throw {x : χ} (h : Q (.error x) s) :
    (throw x : Prog σ ι ε χ α).Ensures s Q := fun _ => h

/-- A weaker postcondition. -/
theorem Ensures.mono {Q' : Except χ α → σ → Prop} {p : Prog σ ι ε χ α}
    (h : p.Ensures s Q) (hQ : ∀ result s', Q result s' → Q' result s') : p.Ensures s Q' :=
  fun inputs => hQ _ _ (h inputs)

/-- The rule for a sequence. -/
theorem ensures_bind {p : Prog σ ι ε χ β} {g : β → Prog σ ι ε χ α}
    (h : p.Ensures s fun result s' => match result with
      | .ok b => (g b).Ensures s' Q
      | .error x => Q (.error x) s') : (p >>= g).Ensures s Q := by
  intro inputs
  have hp := h inputs
  rw [solo_bind]
  simp only [Solo.next, Solo.after_result, Solo.after_store]
  cases hresult : (p.solo inputs s).result with
  | ok b =>
    rw [hresult] at hp
    exact hp _
  | error x =>
    rw [hresult] at hp
    exact hp

end

end Prog

end Interleaving
