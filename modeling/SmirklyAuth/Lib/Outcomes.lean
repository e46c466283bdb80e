import Mathlib.Algebra.BigOperators.Group.Finset.Piecewise
import Mathlib.Algebra.Order.BigOperators.Group.Finset
import SmirklyAuth.Lib.Interleaving

/-!
# `SmirklyAuth.Lib.Outcomes`: how a call can end

`Prog.attempt` runs a program and goes on with its result or its exception. A `do` block and a
`try` block are both of this form, so equations between programs are proved with its laws.

`Reachable.ended` says how a call of a run has ended. `Reachable.countP_le` compares the numbers
of two kinds of events in a run, when they compare so in each call.
-/

set_option autoImplicit false

namespace Interleaving

variable {σ ι ε χ κ α β γ : Type}

namespace Prog

/-- Run `p`, and go on with its result or its exception. -/
def attempt : Prog σ ι ε χ α → (Except χ α → Prog σ ι ε χ β) → Prog σ ι ε χ β
  | .done a, k => k (.ok a)
  | .raise x, k => k (.error x)
  | .act f g, k => .act f fun i s => (g i s).attempt k

/-- A call that has ended. -/
def ended : Except χ α → Prog σ ι ε χ α
  | .ok a => .done a
  | .error x => .raise x

/-- Going on from a call that has ended. -/
@[simp] theorem ended_attempt (res : Except χ α) (k : Except χ α → Prog σ ι ε χ β) :
    (ended res : Prog σ ι ε χ α).attempt k = k res := by
  cases res <;> rfl

/-- A call that has ended does not act. -/
theorem ended_ne_act (res : Except χ α) (f : ι → σ → ε × σ) (g : ι → σ → Prog σ ι ε χ α) :
    ended res ≠ .act f g := by
  cases res <;> simp [ended]

/-- A call ends with one result. -/
theorem ended_injective : Function.Injective (ended : Except χ α → Prog σ ι ε χ α) := by
  intro res res' h
  cases res <;> cases res' <;> simp_all [ended]

/-- A call has ended, or it has a next action. -/
theorem ended_or_act (p : Prog σ ι ε χ α) : (∃ res, p = ended res) ∨ ∃ f g, p = .act f g := by
  cases p with
  | done a => exact .inl ⟨.ok a, rfl⟩
  | raise x => exact .inl ⟨.error x, rfl⟩
  | act f g => exact .inr ⟨f, g, rfl⟩

/-- Going on twice. -/
theorem attempt_attempt (p : Prog σ ι ε χ α) (k : Except χ α → Prog σ ι ε χ β)
    (k' : Except χ β → Prog σ ι ε χ γ) :
    (p.attempt k).attempt k' = p.attempt fun res => (k res).attempt k' := by
  induction p with
  | done a => rfl
  | raise x => rfl
  | act f g ih => simp only [attempt, ih]

/-- A `do` block passes an exception on. -/
theorem bind_eq_attempt (p : Prog σ ι ε χ α) (g : α → Prog σ ι ε χ β) :
    p >>= g = p.attempt fun res => match res with
      | .ok a => g a
      | .error x => .raise x := by
  show p.bind g = _
  induction p with
  | done a => rfl
  | raise x => rfl
  | act f k ih => simp only [bind, attempt, ih]

/-- A `try` block passes a result on. -/
theorem tryCatch_eq_attempt (p : Prog σ ι ε χ α) (h : χ → Prog σ ι ε χ α) :
    tryCatchThe χ p h = p.attempt fun res => match res with
      | .ok a => .done a
      | .error x => h x := by
  show p.tryCatch h = _
  induction p with
  | done a => rfl
  | raise x => rfl
  | act f k ih => simp only [tryCatch, attempt, ih]

/-- Mapping the result of what comes next. -/
theorem map_attempt (f : β → γ) (p : Prog σ ι ε χ α) (k : Except χ α → Prog σ ι ε χ β) :
    f <$> p.attempt k = p.attempt fun res => f <$> k res := by
  show (p.attempt k).bind _ = p.attempt fun res => (k res).bind _
  induction p with
  | done a => rfl
  | raise x => rfl
  | act g h ih => simp only [bind, attempt, ih]

end Prog

variable {M : κ → Prog σ ι ε χ α} {A : Admission σ ι ε χ κ α} {I : σ → Prop} {s : State σ ι ε χ κ α}

/-- What the protocol says of a call that has ended. -/
theorem Reachable.ended {P : Protocol σ ε χ κ α} (hM : Refines M P) (hs : Reachable M A I s)
    {c : Nat} {r : κ} {res : Except χ α} (hc : s.calls c = some ⟨r, .ended res⟩) :
    P.finish r (own c s.trace) res := by
  have hend := ((hs.obeys hM).1 c _ hc).2
  cases res with
  | ok a => exact hend
  | error x => exact hend

/-- A call that has emitted an event has started. -/
theorem Reachable.started (hs : Reachable M A I s) {c : Nat} {e : ε}
    (he : e ∈ own c s.trace) : ∃ call, s.calls c = some call := by
  have hM : Refines M ⟨fun _ _ _ _ _ => True, fun _ _ _ => True⟩ :=
    fun r => Prog.obeys_of_forall (fun _ _ _ _ => trivial) (fun _ _ => trivial) [] (M r)
  cases hc : s.calls c with
  | some call => exact ⟨call, rfl⟩
  | none =>
    rw [(hs.obeys hM).2 c hc] at he
    cases he

/-- What a run from `s` on emits. Every step keeps `J` of the store, and while `J` holds every
event satisfies `F`. So `F` holds of all events of the calls that start after `s`. -/
theorem Steps.since
    {P : Protocol σ ε χ κ α} {s' : State σ ι ε χ κ α} {J : σ → Prop} {F : κ → ε → Prop}
    (hM : Refines M P)
    (hstep : ∀ (s : State σ ι ε χ κ α) (d : σ) (c : Nat) (r : κ) (e : ε), Reachable M A I s →
      J s.store → P.step r (own c s.trace) e s.store d → J d ∧ F r e)
    (hs : Reachable M A I s) (h : Steps M A s s') (hJ : J s.store) :
    J s'.store ∧ ∀ c call, s.calls c = none → s'.calls c = some call →
      ∀ e ∈ own c s'.trace, F call.request e := by
  refine Steps.rule (J := fun s' => J s'.store ∧ ∀ c call, s.calls c = none →
    s'.calls c = some call → ∀ e ∈ own c s'.trace, F call.request e) hM ?_ ?_ hs h
    ⟨hJ, fun c call hc hcall => ?_⟩
  · intro s₁ c r hs₁ ⟨hJ₁, hF⟩ hc _
    refine ⟨hJ₁, fun c' call hc' hcall e he => ?_⟩
    rcases State.calls_begin hcall with ⟨rfl, rfl⟩ | hcall
    · -- a call that starts has emitted nothing
      rw [State.begin, (hs₁.obeys hM).2 c' hc] at he
      cases he
    · exact hF c' call hc' hcall e he
  · intro s₁ c r p p' e d hs₁ ⟨hJ₁, hF⟩ hc _ _ hp
    obtain ⟨hJd, hFe⟩ := hstep s₁ d c r e hs₁ hJ₁ hp
    refine ⟨hJd, fun c' call hc' hcall e' he' => ?_⟩
    rcases State.calls_advance hcall with ⟨rfl, rfl, hown⟩ | ⟨hcall, hown⟩ <;> rw [hown] at he'
    · rcases List.mem_append.mp he' with hold | hlast
      · exact hF c' _ hc' hc e' hold
      · exact List.mem_singleton.mp hlast ▸ hFe
    · exact hF c' call hc' hcall e' he'
  · rw [hc] at hcall
    cases hcall

section
variable {M : κ → Prog σ ι ε χ α} {A : Admission σ ι ε χ κ α} [∀ r, Decidable (A.start r)]
  [∀ s c e, Decidable (A.act s c e)] {I : σ → Prop}

/-- Two schedules, one after the other. -/
theorem exists_steps_of_replay {d : σ} (ms ms' : List (Move ι κ))
    (P : State σ ι ε χ κ α → State σ ι ε χ κ α → Prop) [∀ s s', Decidable (P s s')] (hd : I d)
    (h : (replay M A (State.initial d) ms).any (fun s =>
      (replay M A s ms').any (P s ·)) = true) :
    ∃ s s', Reachable M A I s ∧ Steps M A s s' ∧ P s s' := by
  obtain ⟨s, hs, hrest⟩ := (Option.any_eq_true _ _).mp h
  obtain ⟨s', hs', hP⟩ := (Option.any_eq_true _ _).mp hrest
  exact ⟨s, s', (Reachable.init hd).steps (steps_of_replay hs), steps_of_replay hs',
    of_decide_eq_true hP⟩

/-- A schedule, and one more action of the call `c`. -/
theorem exists_step_of_replay {d : σ} (ms : List (Move ι κ)) (c : Nat) (i : ι)
    (P : State σ ι ε χ κ α → State σ ι ε χ κ α → Prop) [∀ s s', Decidable (P s s')] (hd : I d)
    (h : (replay M A (State.initial d) ms).any (fun s =>
      (replayMove M A s (.act c i)).any (P s ·)) = true) :
    ∃ s s' e, Reachable M A I s ∧ Step M A s s' ∧ s'.trace = s.trace ++ [(c, e)] ∧ P s s' := by
  obtain ⟨s, hs, hmove⟩ := (Option.any_eq_true _ _).mp h
  obtain ⟨s', hs', hP⟩ := (Option.any_eq_true _ _).mp hmove
  have hevent : ∃ e, s'.trace = s.trace ++ [(c, e)] := by
    simp only [replayMove] at hs'
    split at hs'
    · split at hs'
      · cases hs'
        exact ⟨_, rfl⟩
      · cases hs'
    · cases hs'
  obtain ⟨e, he⟩ := hevent
  exact ⟨s, s', e, (Reachable.init hd).steps (steps_of_replay hs), step_of_replayMove hs', he,
    of_decide_eq_true hP⟩

end

/-! ### Counting over all calls -/

/-- The events of a trace, counted call by call. -/
theorem countP_eq_sum_own (p : ε → Bool) (tr : List (Nat × ε)) (S : Finset Nat)
    (hS : ∀ x ∈ tr, x.1 ∈ S) :
    tr.countP (fun x => p x.2) = ∑ c ∈ S, (own c tr).countP p := by
  induction tr with
  | nil => simp [own]
  | cons x tr ih =>
    -- one more event, of the call `x.1`
    have hown : ∀ c, (own c (x :: tr)).countP p =
        (own c tr).countP p + if x.1 = c then (if p x.2 = true then 1 else 0) else 0 := by
      intro c
      by_cases hc : x.1 = c
      · simp [own, hc, List.countP_cons]
      · simp [own, hc]
    have hx : x.1 ∈ S := hS x (.head _)
    have hrest := ih fun y hy => hS y (.tail _ hy)
    simp only [hown]
    rw [Finset.sum_add_distrib, Finset.sum_ite_eq, if_pos hx, List.countP_cons, hrest]

/-- What holds for the counts of each call holds for the counts of the run. -/
theorem Reachable.countP_le {p q : ε → Bool} (hs : Reachable M A I s)
    (h : ∀ c call, s.calls c = some call → (own c s.trace).countP p ≤ (own c s.trace).countP q) :
    s.trace.countP (fun x => p x.2) ≤ s.trace.countP (fun x => q x.2) := by
  have hcallers : ∀ x ∈ s.trace, x.1 ∈ (s.trace.map Prod.fst).toFinset := by
    intro x hx
    exact List.mem_toFinset.mpr (List.mem_map_of_mem hx)
  rw [countP_eq_sum_own p s.trace _ hcallers, countP_eq_sum_own q s.trace _ hcallers]
  refine Finset.sum_le_sum fun c hc => ?_
  obtain ⟨⟨c', e⟩, hmem, rfl⟩ := List.mem_map.mp (List.mem_toFinset.mp hc)
  obtain ⟨call, hcall⟩ := hs.started (mem_own.mpr hmem)
  exact h c' call hcall

end Interleaving
