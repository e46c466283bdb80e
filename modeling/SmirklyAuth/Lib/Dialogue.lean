import Mathlib.Data.Nat.Pairing
import SmirklyAuth.Lib.Outcomes

/-!
# `SmirklyAuth.Lib.Dialogue`: programs that are made of calls

A server answers a request by calling operations one after the other. Each operation is a
program on the shared store, and the next call depends on how the ones before it ended. A
`Dialogue` is such a plan: an answer, or a call and what follows each of its results.
`Dialogue.prog M` is the program of a plan, with `M r` for the call `r`.

The system whose programs are plans and the system whose programs are the operations run on the
same store. `Simulates` relates a state of the first one to a state of the second one. The
`n`th call of the request `c` is the call `Nat.pair c n` there, and it starts when the call
before it has ended.

* `Step.simulated`, `Steps.simulated` and `Reachable.simulated`: every run of the plans is a
  run of the operations, with the same store and the same events in the same order.
* `Tracks` says where a request is in its plan. `Tracks.guarded` says what has been returned
  before a call: `Guarded G` is a condition on each call of a plan and the results before it.
  `Tracks.conversation` lists the calls of a request that has ended.
-/

set_option autoImplicit false

namespace Interleaving

variable {σ ι ε χ κ κ' α β γ : Type}

/-- A plan of calls: it has an answer, or it makes a call and goes on with what the call
returned or threw. -/
inductive Dialogue (κ χ α β : Type) where
  | answer (res : Except χ β)
  | call (r : κ) (k : Except χ α → Dialogue κ χ α β)

namespace Dialogue

/-- The program of a plan. -/
def prog (M : κ → Prog σ ι ε χ α) : Dialogue κ χ α β → Prog σ ι ε χ β
  | .answer res => .ended res
  | .call r k => (M r).attempt fun res => (k res).prog M

/-- The same plan with another answer. -/
def map (f : β → γ) : Dialogue κ χ α β → Dialogue κ χ α γ
  | .answer res => .answer (res.map f)
  | .call r k => .call r fun res => (k res).map f

/-- Mapping the answer of a dialogue maps the result of its program. -/
theorem prog_map (M : κ → Prog σ ι ε χ α) (f : β → γ) (d : Dialogue κ χ α β) :
    (d.map f).prog M = f <$> d.prog M := by
  show _ = (d.prog M).bind fun b => .done (f b)
  induction d with
  | answer res => cases res <;> rfl
  | call r k ih =>
    simp only [map, prog, ih]
    rw [show ∀ p : Prog σ ι ε χ β, (p.bind fun b => .done (f b)) = f <$> p from fun _ => rfl,
      Prog.map_attempt]
    rfl

/-- Every call of the plan satisfies `G`, which also gets the calls before it with their
results. -/
def Guarded (G : List (κ × Except χ α) → κ → Prop) :
    List (κ × Except χ α) → Dialogue κ χ α β → Prop
  | _, .answer _ => True
  | hist, .call r k => G hist r ∧ ∀ res, (k res).Guarded G (hist ++ [(r, res)])

variable {G : List (κ × Except χ α) → κ → Prop} {d : Dialogue κ χ α β}
    {hist : List (κ × Except χ α)} {M : κ → Prog σ ι ε χ α}
    {calls : Nat → Option (Call σ ι ε χ κ α)} {p : Prog σ ι ε χ β}

/-- A condition that always holds guards every question. -/
theorem guarded_of_forall (hG : ∀ hist r, G hist r)
    (d : Dialogue κ χ α β) (hist : List (κ × Except χ α)) : d.Guarded G hist := by
  induction d generalizing hist with
  | answer res => trivial
  | call r k ih => exact ⟨hG hist r, fun res => ih res _⟩

/-- Mapping the answer asks the same questions. -/
theorem Guarded.map {f : β → γ} (h : d.Guarded G hist) :
    (d.map f).Guarded G hist := by
  induction d generalizing hist with
  | answer res => trivial
  | call r k ih => exact ⟨h.1, fun res => ih res (h.2 res)⟩

/-- Where a program is in its plan. `calls n` is the `n`th call that it has made. -/
inductive Tracks (M : κ → Prog σ ι ε χ α) :
    (Nat → Option (Call σ ι ε χ κ α)) → Dialogue κ χ α β → Prog σ ι ε χ β → Prop where
  | answered {calls res} (hnone : ∀ n, calls n = none) : Tracks M calls (.answer res) (.ended res)
  | waiting {calls r k f g} (hcall : calls 0 = some ⟨r, .act f g⟩)
      (hnone : ∀ n, calls (n + 1) = none) :
      Tracks M calls (.call r k) (.act f fun i s => (g i s).attempt fun res => (k res).prog M)
  | returned {calls r k res p} (hcall : calls 0 = some ⟨r, .ended res⟩)
      (h : Tracks M (fun n => calls (n + 1)) (k res) p) : Tracks M calls (.call r k) p

/-- A plan that makes a call has started it. -/
theorem Tracks.started {r : κ}
    {k : Except χ α → Dialogue κ χ α β} (h : Tracks M calls (.call r k) p) :
    calls 0 ≠ none := by
  cases h with
  | waiting hcall _ => simp [hcall]
  | returned hcall _ => simp [hcall]

/-- What a plan has asked for satisfies its guard, and the results in the guard are those of the
calls before, which have ended. -/
theorem Tracks.guarded
    (h : Tracks M calls d p) (hd : d.Guarded G hist) {n : Nat}
    {call : Call σ ι ε χ κ α} (hcall : calls n = some call) :
    ∃ hist', G (hist ++ hist') call.request ∧ hist'.length = n ∧
      ∀ m e, hist'[m]? = some e → calls m = some ⟨e.1, .ended e.2⟩ := by
  induction h generalizing hist n with
  | answered hnone => simp [hnone] at hcall
  | @waiting calls r k f g h0 hnone =>
    cases n with
    | zero =>
      rw [h0] at hcall
      cases hcall
      exact ⟨[], by simpa using hd.1, rfl, by simp⟩
    | succ n => simp [hnone] at hcall
  | @returned calls r k res p h0 h ih =>
    cases n with
    | zero =>
      rw [h0] at hcall
      cases hcall
      exact ⟨[], by simpa using hd.1, rfl, by simp⟩
    | succ n =>
      obtain ⟨hist', hG, hlength, hended⟩ := ih (hd.2 res) hcall
      refine ⟨(r, res) :: hist', by simpa using hG, by simp [hlength], ?_⟩
      intro m e he
      cases m with
      | zero =>
        cases he
        exact h0
      | succ m => exact hended m e he

/-- The plan ends with `res` after the calls of the list, with their results. -/
inductive Conversation : Dialogue κ χ α β → List (κ × Except χ α) → Except χ β → Prop where
  | answer {res} : Conversation (.answer res) [] res
  | call {r k x hist res} (h : Conversation (k x) hist res) :
      Conversation (.call r k) ((r, x) :: hist) res

/-- A request that has ended has made the calls of a conversation, and all of them have
ended. -/
theorem Tracks.conversation (h : Tracks M calls d p) {res : Except χ β}
    (hp : p = .ended res) :
    ∃ hist, Conversation d hist res ∧
      ∀ n, calls n = hist[n]?.map fun e => ⟨e.1, .ended e.2⟩ := by
  induction h with
  | answered hnone =>
    cases Prog.ended_injective hp
    exact ⟨[], .answer, hnone⟩
  | waiting => exact absurd hp.symm (Prog.ended_ne_act _ _ _)
  | @returned calls r k x p hcall h ih =>
    obtain ⟨hist, hconversation, hcalls⟩ := ih hp
    refine ⟨(r, x) :: hist, .call hconversation, fun n => ?_⟩
    cases n with
    | zero => exact hcall
    | succ n => exact hcalls n

/-- Every answer of the plan satisfies `Q`, if the results of its calls satisfy `E`. -/
def Settles (E : κ → Except χ α → Prop) (Q : Except χ β → Prop) : Dialogue κ χ α β → Prop
  | .answer res => Q res
  | .call r k => ∀ x, E r x → (k x).Settles E Q

/-- The answer of a conversation whose calls have ended as they may. -/
theorem Settles.conversation {E : κ → Except χ α → Prop} {Q : Except χ β → Prop} {res : Except χ β}
    (h : d.Settles E Q) (hd : Conversation d hist res) (hE : ∀ e ∈ hist, E e.1 e.2) : Q res := by
  induction hd with
  | answer => exact h
  | @call r k x hist res hd ih =>
    exact ih (h x (hE _ List.mem_cons_self)) fun e he => hE e (List.mem_cons_of_mem _ he)

/-- Mapping the answer maps the condition. -/
theorem Settles.map {E : κ → Except χ α → Prop} {Q : Except χ β → Prop}
    {Q' : Except χ γ → Prop} {f : β → γ} (h : d.Settles E Q)
    (hQ : ∀ res, Q res → Q' (res.map f)) : (d.map f).Settles E Q' := by
  induction d with
  | answer res => exact hQ res h
  | call r k ih => exact fun x hx => ih x (h x hx)

end Dialogue

open Dialogue

/-- The state `s'` of the requests, each of which follows its plan, as a state `s` of the
calls they have made. The steps of a request start with those of its first call. -/
structure Simulates (M : κ → Prog σ ι ε χ α) (D : κ' → Dialogue κ χ α β)
    (s' : State σ ι ε χ κ' β) (s : State σ ι ε χ κ α) : Prop where
  store : s.store = s'.store
  trace : s.trace.map (fun p => (p.1.unpair.1, p.2)) = s'.trace
  idle : ∀ c, s'.calls c = none → ∀ n, s.calls (Nat.pair c n) = none
  tracks : ∀ c call, s'.calls c = some call →
    Tracks M (fun n => s.calls (Nat.pair c n)) (D call.request) call.prog
  first : ∀ c, ∃ rest, own c s'.trace = own (Nat.pair c 0) s.trace ++ rest ∧
    ((∀ n, s.calls (Nat.pair c (n + 1)) = none) → rest = [])

/-- What the steps of a request change: the store, the trace and its own calls from the `n`th
one on. -/
structure Moved (c n : Nat) (tr : List (Nat × ε)) (d : σ) (s s₁ : State σ ι ε χ κ α) :
    Prop where
  store : s₁.store = d
  trace : s₁.trace = s.trace ++ tr
  calls : ∀ c', (∀ m, c' ≠ Nat.pair c (n + m)) → s₁.calls c' = s.calls c'

section
variable {M : κ → Prog σ ι ε χ α} {A : Admission σ ι ε χ κ α} {A' : Admission σ ι ε χ κ' β}
  {D : κ' → Dialogue κ χ α β} {I : σ → Prop}

/-- Nothing has happened. -/
theorem Moved.refl (c n : Nat) (s : State σ ι ε χ κ α) : Moved c n [] s.store s s :=
  ⟨rfl, (List.append_nil _).symm, fun _ _ => rfl⟩

variable {c n : Nat} {tr : List (Nat × ε)} {s s₁ : State σ ι ε χ κ α} {s' : State σ ι ε χ κ' β}

/-- One stretch after the other. -/
theorem Moved.trans {tr' : List (Nat × ε)} {d d' : σ}
    {s₂ : State σ ι ε χ κ α} (h : Moved c n tr d s s₁) (h' : Moved c n tr' d' s₁ s₂) :
    Moved c n (tr ++ tr') d' s s₂ where
  store := h'.store
  trace := by rw [h'.trace, h.trace, List.append_assoc]
  calls c' hc' := (h'.calls c' hc').trans (h.calls c' hc')

/-- More calls may have changed. -/
theorem Moved.weaken {d : σ}
    (h : Moved c (n + 1) tr d s s₁) : Moved c n tr d s s₁ where
  store := h.store
  trace := h.trace
  calls c' hc' := h.calls c' fun m => by
    rw [Nat.add_assoc, Nat.add_comm 1 m]
    exact hc' (m + 1)

/-- The calls of a request have different numbers. -/
theorem pair_ne_later (c n m : Nat) : Nat.pair c n ≠ Nat.pair c (n + 1 + m) := by
  intro h
  have := (Nat.pair_eq_pair.mp h).2
  omega

/-- The calls of different requests have different numbers. -/
theorem pair_ne_of_ne {c' : Nat} (h : c' ≠ c) (n m : Nat) : Nat.pair c' n ≠ Nat.pair c m :=
  fun heq => h (Nat.pair_eq_pair.mp heq).1

/-- The calls of a request that come after its `n`th one. -/
theorem tracks_shift {d : Dialogue κ χ α β}
    {p : Prog σ ι ε χ β} :
    Tracks M (fun m => s.calls (Nat.pair c (n + 1 + m))) d p ↔
      Tracks M (fun m => s.calls (Nat.pair c (n + (m + 1)))) d p := by
  simp only [Nat.add_assoc, Nat.add_comm 1]

/-- The plan `d` can start from the `n`th call of the request `c` on. -/
def Opens (M : κ → Prog σ ι ε χ α) (A : Admission σ ι ε χ κ α) (c n : Nat)
    (d : Dialogue κ χ α β) : Prop :=
  ∀ s : State σ ι ε χ κ α, (∀ m, s.calls (Nat.pair c (n + m)) = none) →
    ∃ s₁, Steps M A s s₁ ∧ Moved c n [] s.store s s₁ ∧
      Tracks M (fun m => s₁.calls (Nat.pair c (n + m))) d (d.prog M)

/-- A request goes on with the rest `q` of its `n`th call. If that call has ended, the next
calls start at once. -/
theorem exists_resumed {r : κ} {q : Prog σ ι ε χ α}
    {k : Except χ α → Dialogue κ χ α β} (hk : ∀ res, Opens M A c (n + 1) (k res))
    (hcall : s.calls (Nat.pair c n) = some ⟨r, q⟩)
    (hnone : ∀ m, s.calls (Nat.pair c (n + 1 + m)) = none) :
    ∃ s₁, Steps M A s s₁ ∧ Moved c n [] s.store s s₁ ∧
      Tracks M (fun m => s₁.calls (Nat.pair c (n + m))) (.call r k)
        (q.attempt fun res => (k res).prog M) := by
  rcases Prog.ended_or_act q with ⟨res, rfl⟩ | ⟨f, g, rfl⟩
  · obtain ⟨s₁, hsteps, hmoved, htracks⟩ := hk res s hnone
    refine ⟨s₁, hsteps, hmoved.weaken, ?_⟩
    rw [Prog.ended_attempt]
    refine .returned ?_ (tracks_shift.mp htracks)
    show s₁.calls (Nat.pair c n) = _
    rw [hmoved.calls _ (pair_ne_later c n), hcall]
  · refine ⟨s, .refl, .refl c n s, .waiting hcall fun m => ?_⟩
    rw [Nat.add_comm m 1, ← Nat.add_assoc]
    exact hnone m

/-- A plan starts its first call, and the next ones as long as the calls end without a
step. -/
theorem opens_of_guarded (c n : Nat) (d : Dialogue κ χ α β) {hist : List (κ × Except χ α)}
    (hd : d.Guarded (fun _ r => A.start r) hist) : Opens M A c n d := by
  induction d generalizing hist n with
  | answer res =>
    intro s hnone
    exact ⟨s, .refl, .refl c n s, .answered hnone⟩
  | call r k ih =>
    intro s hnone
    have hstep : Step M A s (s.begin M (Nat.pair c n) r) := .start _ r (hnone 0) hd.1
    have hmoved : Moved c n [] s.store s (s.begin M (Nat.pair c n) r) :=
      { store := rfl
        trace := (List.append_nil _).symm
        calls := fun c' hc' => Function.update_of_ne (hc' 0) _ _ }
    have hlater : ∀ m, (s.begin M (Nat.pair c n) r).calls (Nat.pair c (n + 1 + m)) = none := by
      intro m
      show Function.update s.calls _ _ _ = none
      rw [Function.update_of_ne (Ne.symm (pair_ne_later c n m)), Nat.add_assoc]
      exact hnone (1 + m)
    obtain ⟨s₁, hsteps, hrest, htracks⟩ := exists_resumed (s := s.begin M (Nat.pair c n) r)
      (fun res => ih res (n + 1) (hd.2 res)) (Function.update_self _ _ _) hlater
    exact ⟨s₁, .head hstep hsteps, hmoved.trans hrest, htracks⟩

/-- One call of the request `c` emits `e`, and then calls may start. -/
def ActsVia (M : κ → Prog σ ι ε χ α) (A : Admission σ ι ε χ κ α) (c : Nat) (e : ε)
    (s s₂ : State σ ι ε χ κ α) : Prop :=
  ∃ m call s₁, s.calls (Nat.pair c m) = some call ∧ Step M A s s₁ ∧
    s₁.trace = s.trace ++ [(Nat.pair c m, e)] ∧ s₁.store = s₂.store ∧ Steps M A s₁ s₂

/-- An event of a request is a sequence of steps of the calls. -/
theorem ActsVia.steps {e : ε} {s₂ : State σ ι ε χ κ α} (h : ActsVia M A c e s s₂) :
    Steps M A s s₂ := by
  obtain ⟨_, _, _, _, hstep, _, _, hsteps⟩ := h
  exact .head hstep hsteps

/-- One action of a request is one action of the call it waits for, which is its last one, and
then its plan may start further calls. -/
theorem exists_moved {d : Dialogue κ χ α β}
    {hist : List (κ × Except χ α)} {p : Prog σ ι ε χ β} {f : ι → σ → ε × σ}
    {g : ι → σ → Prog σ ι ε χ β} {i : ι}
    (h : Tracks M (fun m => s.calls (Nat.pair c (n + m))) d p) (hp : p = .act f g)
    (hd : d.Guarded (fun _ r => A.start r) hist)
    (hact : ∀ m call, s.calls (Nat.pair c m) = some call →
      A.act s (Nat.pair c m) (f i s.store).1) :
    ∃ s₂ m, ActsVia M A c (f i s.store).1 s s₂ ∧
      Moved c n [(Nat.pair c m, (f i s.store).1)] (f i s.store).2 s s₂ ∧
      Tracks M (fun m => s₂.calls (Nat.pair c (n + m))) d (g i s.store) ∧
      (∀ k, m < k → s.calls (Nat.pair c k) = none) ∧ s₂.calls (Nat.pair c m) ≠ none := by
  generalize hcalls : (fun m => s.calls (Nat.pair c (n + m))) = calls at h
  -- the calls that have ended are skipped, up to the one the request waits for
  induction h generalizing hist n with
  | answered hnone => exact absurd hp (Prog.ended_ne_act _ _ _)
  | @waiting calls r k f' g' hcall hnone =>
    subst hcalls
    cases hp
    have hstep : Step M A s (s.advance (Nat.pair c n) r (f i s.store).1 (f i s.store).2
        (g' i s.store)) := .act _ r f g' i hcall (hact n _ hcall)
    have hmoved : Moved c n [(Nat.pair c n, (f i s.store).1)] (f i s.store).2 s
        (s.advance (Nat.pair c n) r (f i s.store).1 (f i s.store).2 (g' i s.store)) :=
      { store := rfl
        trace := rfl
        calls := fun c' hc' => Function.update_of_ne (hc' 0) _ _ }
    have hlater : ∀ m, (s.advance (Nat.pair c n) r (f i s.store).1 (f i s.store).2
        (g' i s.store)).calls (Nat.pair c (n + 1 + m)) = none := by
      intro m
      show Function.update s.calls _ _ _ = none
      rw [Function.update_of_ne (Ne.symm (pair_ne_later c n m)), Nat.add_assoc, Nat.add_comm 1]
      exact hnone m
    obtain ⟨s₂, hsteps, hrest, htracks⟩ := exists_resumed
      (fun res => opens_of_guarded (M := M) (A := A) c (n + 1) (k res) (hd.2 res))
      (Function.update_self _ _ _) hlater
    refine ⟨s₂, n, ⟨n, _, _, hcall, hstep, rfl, hrest.store.symm, hsteps⟩, hmoved.trans hrest,
      htracks, fun k hk => ?_, htracks.started⟩
    obtain ⟨j, rfl⟩ := Nat.exists_eq_add_of_lt hk
    exact hnone j
  | @returned calls r k res p hcall h ih =>
    subst hcalls
    obtain ⟨s₂, m, hacts, hmoved, htracks, hlast⟩ := ih hp (hd.2 res) (n := n + 1)
      (funext fun m => by rw [Nat.add_assoc, Nat.add_comm 1 m])
    refine ⟨s₂, m, hacts, hmoved.weaken, .returned ?_ (tracks_shift.mp htracks), hlast⟩
    show s₂.calls (Nat.pair c n) = _
    rw [hmoved.calls _ (pair_ne_later c n)]
    exact hcall

/-- The calls of the other requests are as before. -/
theorem Moved.other {c' : Nat} {d : σ}
    (h : Moved c n tr d s s₁) (hc : c' ≠ c) (m : Nat) :
    s₁.calls (Nat.pair c' m) = s.calls (Nat.pair c' m) :=
  h.calls _ fun _ => pair_ne_of_ne hc _ _

/-- A step of the last call of a request comes after those of its first call. -/
theorem Simulates.first_snoc {m : Nat}
    {e : ε} (h : Simulates M D s' s) (hlast : ∀ k, m < k → s.calls (Nat.pair c k) = none)
    (hstarted : s₁.calls (Nat.pair c m) ≠ none)
    (htrace : s₁.trace = s.trace ++ [(Nat.pair c m, e)]) :
    ∃ rest, own c (s'.trace ++ [(c, e)]) = own (Nat.pair c 0) s₁.trace ++ rest ∧
      ((∀ n, s₁.calls (Nat.pair c (n + 1)) = none) → rest = []) := by
  obtain ⟨rest, hown, hrest⟩ := h.first c
  rw [htrace, own_append, own_append, hown, own_singleton_self]
  cases m with
  | zero =>
    -- the request has made no other call
    rw [hrest fun n => hlast (n + 1) n.succ_pos]
    exact ⟨[], by simp, fun _ => rfl⟩
  | succ m =>
    have hother : Nat.pair c (m + 1) ≠ Nat.pair c 0 := fun heq =>
      nomatch (Nat.pair_eq_pair.mp heq).2
    exact ⟨rest ++ [e], by simp [own_singleton_ne hother], fun hnone => absurd (hnone m) hstarted⟩

/-- The calls of a request after its steps, and those of the other ones. -/
theorem Simulates.moved {d : σ} (h : Simulates M D s' s) (call : Call σ ι ε χ κ' β)
    (hmoved : Moved c 0 tr d s s₁)
    (htracks : Tracks M (fun n => s₁.calls (Nat.pair c n)) (D call.request) call.prog)
    {tr' : List (Nat × ε)} (htr : tr.map (fun p => (p.1.unpair.1, p.2)) = tr')
    (hown : ∀ p ∈ tr', p.1 = c)
    (hfirst : ∃ rest, own c (s'.trace ++ tr') = own (Nat.pair c 0) s₁.trace ++ rest ∧
      ((∀ n, s₁.calls (Nat.pair c (n + 1)) = none) → rest = [])) :
    Simulates M D ⟨d, s'.trace ++ tr', Function.update s'.calls c (some call)⟩ s₁ where
  store := hmoved.store
  trace := by rw [hmoved.trace, List.map_append, h.trace, htr]
  idle c' hc' n := by
    by_cases hcc : c' = c
    · subst hcc
      simp at hc'
    · rw [hmoved.other hcc]
      exact h.idle c' (by simpa [Function.update_of_ne hcc] using hc') n
  tracks c' call' hcall' := by
    by_cases hcc : c' = c
    · subst hcc
      simp only [Function.update_self, Option.some.injEq] at hcall'
      subst hcall'
      exact htracks
    · simp only [Function.update_of_ne hcc] at hcall'
      simpa only [hmoved.other hcc] using h.tracks c' call' hcall'
  first c' := by
    by_cases hcc : c' = c
    · subst hcc
      exact hfirst
    · have htr₁ : own c' tr' = [] := own_eq_nil fun p hp heq => hcc (heq.symm.trans (hown p hp))
      have htr₂ : own (Nat.pair c' 0) tr = [] := own_eq_nil fun p hp heq => hcc <| by
        rw [← hown _ (htr ▸ List.mem_map_of_mem hp), heq, Nat.unpair_pair]
      simpa only [own_append, hmoved.trace, htr₁, htr₂, List.append_nil, hmoved.other hcc]
        using h.first c'

/-- An event of a request is an event of one of its calls. -/
theorem Simulates.exists_own
    (h : Simulates M D s' s) {e : ε} (he : e ∈ own c s'.trace) :
    ∃ n, e ∈ own (Nat.pair c n) s.trace := by
  rw [mem_own, ← h.trace] at he
  obtain ⟨⟨d, _⟩, hmem, heq⟩ := List.mem_map.mp he
  cases heq
  exact ⟨d.unpair.2, by rw [mem_own, Nat.pair_unpair]; exact hmem⟩

/-- An event of one of its calls is an event of a request. -/
theorem Simulates.mem_own
    (h : Simulates M D s' s) {e : ε} (he : e ∈ own (Nat.pair c n) s.trace) :
    e ∈ own c s'.trace := by
  rw [Interleaving.mem_own, ← h.trace]
  exact List.mem_map.mpr ⟨_, Interleaving.mem_own.mp he, by simp⟩

/-- Only admitted calls have started. -/
theorem Reachable.admitted (hs : Reachable M A I s) (c : Nat)
    (call : Call σ ι ε χ κ α) (hcall : s.calls c = some call) : A.start call.request := by
  have hM : Refines M ⟨fun _ _ _ _ _ => True, fun _ _ _ => True⟩ :=
    fun r => Prog.obeys_of_forall (fun _ _ _ _ => trivial) (fun _ _ => trivial) [] (M r)
  exact ((hs.obeys hM).1 c call hcall).1

section
variable (hstart : ∀ r, A'.start r → (D r).Guarded (fun _ r => A.start r) [])
  (hact : ∀ s' s c n call e, Simulates M D s' s → s.calls (Nat.pair c n) = some call →
    A'.act s' c e → A.act s (Nat.pair c n) e)
include hstart hact

/-- The start of a request is the start of its first calls, and a step of a request is a step
of one of its calls. -/
theorem Step.simulated {s₁' : State σ ι ε χ κ' β}
    (hadmitted : ∀ c call, s'.calls c = some call → A'.start call.request)
    (hsim : Simulates M D s' s) (h : Step (fun r => (D r).prog M) A' s' s₁') :
    ∃ s₁, Steps M A s s₁ ∧ Simulates M D s₁' s₁ ∧
      ∀ c e, s₁'.trace = s'.trace ++ [(c, e)] → ActsVia M A c e s s₁ := by
  cases h with
  | start c r hc hr =>
    have hnone : ∀ m, s.calls (Nat.pair c (0 + m)) = none := fun m => hsim.idle c hc _
    obtain ⟨s₁, hsteps, hmoved, htracks⟩ :=
      opens_of_guarded (M := M) c 0 (D r) (hstart r hr) s hnone
    refine ⟨s₁, hsteps, ?_, fun c e htr => ?_⟩
    · rw [hsim.store] at hmoved
      -- a request that starts has no steps
      obtain ⟨rest, hown, hrest⟩ := hsim.first c
      obtain rfl := hrest fun n => hsim.idle c hc _
      have hsim₁ := hsim.moved ⟨r, (D r).prog M⟩ hmoved (by simpa using htracks) rfl (by simp)
        ⟨[], by simpa [hmoved.trace] using hown, fun _ => rfl⟩
      rwa [List.map_nil, List.append_nil] at hsim₁
    · -- the start of a request emits nothing
      have hlen := congrArg List.length htr
      simp [State.begin] at hlen
  | act c r f g i hc ha =>
    have htracks : Tracks M (fun m => s.calls (Nat.pair c (0 + m))) (D r) (.act f g) := by
      simpa using hsim.tracks c _ hc
    rw [← hsim.store] at ha
    obtain ⟨s₁, m, hacts, hmoved, hnext, hlast, hstarted⟩ := exists_moved (A := A) htracks rfl
      (hstart r (hadmitted c _ hc)) fun m call hcall => hact s' s c m call _ hsim hcall ha
    rw [← hsim.store]
    refine ⟨s₁, hacts.steps, ?_, fun c' e htr => ?_⟩
    · exact hsim.moved ⟨r, g i s.store⟩ hmoved (by simpa using hnext) (by simp) (by simp)
        (hsim.first_snoc hlast hstarted hmoved.trace)
    · obtain ⟨_, hlast⟩ := List.append_inj' htr rfl
      cases List.singleton_injective hlast
      exact hacts

/-- A sequence of steps of the requests is simulated by one of the calls. -/
theorem Steps.simulated {s₁' : State σ ι ε χ κ' β}
    (hs' : Reachable (fun r => (D r).prog M) A' I s') (hsim : Simulates M D s' s)
    (h : Steps (fun r => (D r).prog M) A' s' s₁') :
    ∃ s₁, Steps M A s s₁ ∧ Simulates M D s₁' s₁ := by
  induction h with
  | refl => exact ⟨s, .refl, hsim⟩
  | tail hrun hstep ih =>
    obtain ⟨s₁, hsteps, hsim₁⟩ := ih
    obtain ⟨s₂, hnext, hsim₂, _⟩ :=
      hstep.simulated hstart hact (hs'.steps hrun).admitted hsim₁
    exact ⟨s₂, hsteps.trans hnext, hsim₂⟩

/-- Every run of the requests is a run of their calls. -/
theorem Reachable.simulated (hs' : Reachable (fun r => (D r).prog M) A' I s') :
    ∃ s, Reachable M A I s ∧ Simulates M D s' s := by
  induction hs' with
  | @init d hd =>
    exact ⟨State.initial d, .init hd, ⟨rfl, rfl, fun _ _ _ => rfl, fun _ _ h => (nomatch h),
      fun _ => ⟨[], rfl, fun _ => rfl⟩⟩⟩
  | step hs' hstep ih =>
    obtain ⟨s, hs, hsim⟩ := ih
    obtain ⟨s₁, hsteps, hsim₁, _⟩ := hstep.simulated hstart hact hs'.admitted hsim
    exact ⟨s₁, hs.steps hsteps, hsim₁⟩

end

end

end Interleaving
