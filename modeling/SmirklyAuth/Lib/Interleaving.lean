import Mathlib.Data.List.Infix
import Mathlib.Data.List.Perm.Subperm
import Mathlib.Logic.Function.Basic
import SmirklyAuth.Lib.Resumption

/-!
# `SmirklyAuth.Lib.Interleaving`: runs of any number of calls on one store

A `State` is the store, the trace of all events so far and the calls that have started.
A step starts a new call or runs the next atomic action of one call. An `Admission` says
which requests may start and which events are possible: it carries the assumptions of a
run, such as the freshness of generated identifiers. A call that crashes, or whose
transaction fails for good, is a call that takes no further step, so `Reachable` covers
these runs too.

`Protocol` is the abstract side. `Protocol.step r evs e s s'` says that a call with
request `r` that has emitted `evs` may emit `e` and take the store from `s` to `s'`.
`Protocol.finish r evs res` says what a finished call can return. `Refines M P` connects
the two sides: every program of `M` obeys `P`.

The rules:

* `Reachable.obeys`: in a reachable state every started call obeys the protocol from its
  own events on. `Reachable.finish` is the case of a finished call.
* `Reachable.rule`: an invariant that every protocol step keeps holds in every reachable
  state. `Reachable.invariant` is the case of an invariant of store and trace alone,
  `Reachable.call_invariant` that of an invariant of each call, `Reachable.event_invariant` that
  of an invariant of each event and the store, and `Steps.rule` the case of a run that continues
  from a reachable state.
* `replay`: the executable form of a run, for the runs of concrete schedules.
-/

set_option autoImplicit false

namespace Interleaving

/-- A started call: its request and the rest of its program. -/
structure Call (σ ι ε χ κ α : Type) where
  request : κ
  prog : Prog σ ι ε χ α

/-- The store, the events of all calls in order, and the calls that have started. -/
structure State (σ ι ε χ κ α : Type) where
  store : σ
  trace : List (Nat × ε)
  calls : Nat → Option (Call σ ι ε χ κ α)

/-- The assumptions on a run: the requests that may start, and the events that a call may
emit in a state. -/
structure Admission (σ ι ε χ κ α : Type) where
  start : κ → Prop
  act : State σ ι ε χ κ α → Nat → ε → Prop

/-- What one step of a call may do, and what a finished call may return. -/
structure Protocol (σ ε χ κ α : Type) where
  step : κ → List ε → ε → σ → σ → Prop
  finish : κ → List ε → Except χ α → Prop

variable {σ ι ε χ κ α : Type}

/-- What both protocols allow. -/
def Protocol.inter (P P' : Protocol σ ε χ κ α) : Protocol σ ε χ κ α where
  step r evs e s s' := P.step r evs e s s' ∧ P'.step r evs e s s'
  finish r evs res := P.finish r evs res ∧ P'.finish r evs res

/-- The events that the call `c` has emitted, in order. -/
def own (c : Nat) (tr : List (Nat × ε)) : List ε :=
  tr.filterMap fun p => if p.1 = c then some p.2 else none

/-- The events of a call, in two parts of a trace. -/
@[simp] theorem own_append (c : Nat) (tr tr' : List (Nat × ε)) :
    own c (tr ++ tr') = own c tr ++ own c tr' := List.filterMap_append

/-- An event of the call itself. -/
@[simp] theorem own_singleton_self (c : Nat) (e : ε) : own c [(c, e)] = [e] := by
  simp [own]

variable {c : Nat} {tr : List (Nat × ε)} {q : Nat × ε → Bool}

/-- An event of another call. -/
theorem own_singleton_ne {c' : Nat} (h : c' ≠ c) (e : ε) : own c [(c', e)] = [] := by
  simp [own, h]

/-- Events of other calls. -/
theorem own_eq_nil (h : ∀ p ∈ tr, p.1 ≠ c) : own c tr = [] := by
  refine List.filterMap_eq_nil_iff.mpr fun p hp => ?_
  simp [h p hp]

/-- The events of a call are those that the trace has under its number. -/
@[simp] theorem mem_own {e : ε} :
    e ∈ own c tr ↔ (c, e) ∈ tr := by
  simp [own, List.mem_filterMap]

/-- The calls other than `c` keep their own events when `c` emits one. -/
theorem own_append_ne {c' : Nat} (h : c' ≠ c) (tr : List (Nat × ε)) (e : ε) :
    own c (tr ++ [(c', e)]) = own c tr := by
  rw [own_append, own_singleton_ne h, List.append_nil]

/-- A property of the events of each call, after `c` has emitted one. -/
theorem forall_own_snoc {P : List ε → Prop} {e : ε}
    (hself : P (own c tr ++ [e])) (hother : ∀ c', P (own c' tr)) :
    ∀ c', P (own c' (tr ++ [(c, e)])) := by
  intro c'
  by_cases hc : c' = c
  · rw [hc, own_append, own_singleton_self]
    exact hself
  · rw [own_append_ne (Ne.symm hc)]
    exact hother c'

/-- One of the own events of a call is an event of the trace, with the others around it. -/
theorem exists_of_own_eq {e : ε} {before after : List ε}
    (h : own c tr = before ++ e :: after) :
    ∃ tr₁ tr₂, tr = tr₁ ++ (c, e) :: tr₂ ∧ own c tr₁ = before ∧ own c tr₂ = after := by
  obtain ⟨tr₁, tr', rfl, hbefore, hrest⟩ := List.filterMap_eq_append_iff.mp h
  obtain ⟨skipped, ⟨c', e'⟩, tr₂, rfl, hskipped, hmem, hafter⟩ :=
    List.filterMap_eq_cons_iff.mp hrest
  have hce : c' = c ∧ e' = e := by simpa using hmem
  obtain ⟨rfl, rfl⟩ := hce
  refine ⟨tr₁ ++ skipped, tr₂, by simp, ?_, hafter⟩
  have hnone : own c' skipped = [] := List.filterMap_eq_nil_iff.mpr hskipped
  rw [own_append, hnone, List.append_nil]
  exact hbefore

/-- A call with an event has own events. -/
theorem own_ne_nil {e : ε} (h : (c, e) ∈ tr) :
    own c tr ≠ [] := List.ne_nil_of_mem (mem_own.mpr h)

/-- Distinct calls with an event that meets `q` are at most as many as these events. -/
theorem length_le_countP {cs : List Nat}
    (hnodup : cs.Nodup) (h : ∀ c ∈ cs, ∃ e, (c, e) ∈ tr ∧ q (c, e) = true) :
    cs.length ≤ tr.countP q := by
  have hsub : cs ⊆ (tr.filter q).map Prod.fst := by
    intro c hc
    obtain ⟨e, he, hq⟩ := h c hc
    exact List.mem_map.mpr ⟨(c, e), List.mem_filter.mpr ⟨he, hq⟩, rfl⟩
  calc cs.length ≤ ((tr.filter q).map Prod.fst).length :=
        (List.subperm_of_subset hnodup hsub).length_le
    _ = tr.countP q := by rw [List.length_map, List.countP_eq_length_filter]

/-- The part of a trace before the first event that meets `q`. -/
def before (q : Nat × ε → Bool) (tr : List (Nat × ε)) : List (Nat × ε) :=
  tr.takeWhile fun p => !q p

/-- What stands before an entry stands in the trace. -/
theorem mem_of_mem_before {p : Nat × ε}
    (h : p ∈ before q tr) : p ∈ tr := (List.takeWhile_sublist _).subset h

/-- Once an event has met `q`, the part before it stays. -/
theorem before_append_of_mem {p : Nat × ε}
    (hp : p ∈ tr) (hq : q p = true) (tr' : List (Nat × ε)) :
    before q (tr ++ tr') = before q tr := by
  induction tr with
  | nil => cases hp
  | cons x tr ih =>
    unfold before at ih ⊢
    rw [List.cons_append, List.takeWhile_cons, List.takeWhile_cons]
    cases hx : q x with
    | true => rfl
    | false =>
      have hp' : p ∈ tr := by
        rcases List.mem_cons.mp hp with rfl | hp
        · rw [hq] at hx
          cases hx
        · exact hp
      simp only [Bool.not_false, if_true]
      rw [ih hp']

/-- The first event that meets `q` has the whole trace before it. -/
theorem before_snoc {x : Nat × ε}
    (h : ∀ p ∈ tr, q p = false) (hx : q x = true) : before q (tr ++ [x]) = tr := by
  have hall : ∀ p ∈ tr, (fun p => !q p) p = true := fun p hp => by simp [h p hp]
  rw [before, List.takeWhile_append_of_pos hall, List.takeWhile_cons]
  simp [hx]

namespace State

/-- No call has started. -/
def initial (d : σ) : State σ ι ε χ κ α := ⟨d, [], fun _ => none⟩

/-- The call `c` starts with the request `r`. -/
def begin (M : κ → Prog σ ι ε χ α) (s : State σ ι ε χ κ α) (c : Nat) (r : κ) :
    State σ ι ε χ κ α :=
  { s with calls := Function.update s.calls c (some ⟨r, M r⟩) }

/-- The call `c` with the request `r` has emitted `e`, left the store `d` and goes on with
`p`. -/
def advance (s : State σ ι ε χ κ α) (c : Nat) (r : κ) (e : ε) (d : σ)
    (p : Prog σ ι ε χ α) : State σ ι ε χ κ α :=
  ⟨d, s.trace ++ [(c, e)], Function.update s.calls c (some ⟨r, p⟩)⟩

variable {s : State σ ι ε χ κ α} {c c' : Nat} {r : κ} {call : Call σ ι ε χ κ α}

/-- After the start of a call, a started call is the new one or an old one. -/
theorem calls_begin {M : κ → Prog σ ι ε χ α} (h : (s.begin M c r).calls c' = some call) :
    (c' = c ∧ call = ⟨r, M r⟩) ∨ s.calls c' = some call := by
  by_cases hcc : c' = c
  · subst hcc
    simp only [begin, Function.update_self, Option.some.injEq] at h
    exact .inl ⟨rfl, h.symm⟩
  · simp only [begin, Function.update_of_ne hcc] at h
    exact .inr h

/-- After an event of the call `c`, a started call is that one, with one more own event, or
another one with the events that it had. -/
theorem calls_advance {e : ε} {d : σ} {p : Prog σ ι ε χ α}
    (h : (s.advance c r e d p).calls c' = some call) :
    (c' = c ∧ call = ⟨r, p⟩ ∧ own c' (s.advance c r e d p).trace = own c' s.trace ++ [e]) ∨
      (s.calls c' = some call ∧ own c' (s.advance c r e d p).trace = own c' s.trace) := by
  by_cases hcc : c' = c
  · subst hcc
    simp only [advance, Function.update_self, Option.some.injEq] at h
    exact .inl ⟨rfl, h.symm, by rw [advance, own_append, own_singleton_self]⟩
  · simp only [advance, Function.update_of_ne hcc] at h
    exact .inr ⟨h, own_append_ne (Ne.symm hcc) _ _⟩

end State

section
variable (M : κ → Prog σ ι ε χ α) (A : Admission σ ι ε χ κ α)

/-- One step of the system: a call starts, or a started call runs its next action. -/
inductive Step : State σ ι ε χ κ α → State σ ι ε χ κ α → Prop where
  | start {s : State σ ι ε χ κ α} (c : Nat) (r : κ) (hc : s.calls c = none)
      (hr : A.start r) : Step s (s.begin M c r)
  | act {s : State σ ι ε χ κ α} (c : Nat) (r : κ) (f : ι → σ → ε × σ)
      (k : ι → σ → Prog σ ι ε χ α) (i : ι) (hc : s.calls c = some ⟨r, .act f k⟩)
      (ha : A.act s c (f i s.store).1) :
      Step s (s.advance c r (f i s.store).1 (f i s.store).2 (k i s.store))

/-- The states that a run from a store in `I` reaches. -/
inductive Reachable (I : σ → Prop) : State σ ι ε χ κ α → Prop where
  | init {d : σ} (hd : I d) : Reachable I (State.initial d)
  | step {s s' : State σ ι ε χ κ α} (hs : Reachable I s) (h : Step M A s s') :
      Reachable I s'

/-- Every program of `M` obeys the protocol from its start. -/
def Refines (P : Protocol σ ε χ κ α) : Prop :=
  ∀ r, (M r).Obeys (P.step r) (P.finish r) []

end

/-- Two protocols at once. -/
theorem Refines.inter {M : κ → Prog σ ι ε χ α} {P P' : Protocol σ ε χ κ α} (h : Refines M P)
    (h' : Refines M P') : Refines M (P.inter P') := fun r => (h r).and (h' r)

section
variable {M : κ → Prog σ ι ε χ α} {A : Admission σ ι ε χ κ α} {I : σ → Prop}
  {P : Protocol σ ε χ κ α} {s : State σ ι ε χ κ α}

/-- Every started call is admitted and obeys the protocol from its own events on, and a
call that has not started has emitted nothing. -/
theorem Reachable.obeys (hM : Refines M P) (hs : Reachable M A I s) :
    (∀ c call, s.calls c = some call → A.start call.request ∧
      call.prog.Obeys (P.step call.request) (P.finish call.request) (own c s.trace)) ∧
    (∀ c, s.calls c = none → own c s.trace = []) := by
  induction hs with
  | init hd => exact ⟨fun _ _ h => (nomatch h), fun _ _ => rfl⟩
  | @step s s' hs h ih =>
    obtain ⟨ihSome, ihNone⟩ := ih
    cases h with
    | start c r hc hr =>
      refine ⟨fun c' call h => ?_, fun c' h => ?_⟩
      · rcases State.calls_begin h with ⟨rfl, rfl⟩ | h
        · exact ⟨hr, by simpa [State.begin, ihNone c' hc] using hM r⟩
        · exact ihSome c' call h
      · by_cases hcc : c' = c
        · subst hcc
          simp [State.begin] at h
        · simp only [State.begin, Function.update_of_ne hcc] at h
          exact ihNone c' h
    | act c r f k i hc ha =>
      obtain ⟨hr, hobeys⟩ := ihSome c _ hc
      refine ⟨fun c' call h => ?_, fun c' h => ?_⟩
      · rcases State.calls_advance h with ⟨rfl, rfl, hown⟩ | ⟨h, hown⟩ <;> rw [hown]
        · exact ⟨hr, (hobeys i s.store).2⟩
        · exact ihSome c' call h
      · by_cases hcc : c' = c
        · subst hcc
          simp [State.advance] at h
        · simp only [State.advance, Function.update_of_ne hcc] at h ⊢
          rw [own_append_ne (Ne.symm hcc)]
          exact ihNone c' h

/-- What a finished call returned is what the protocol allows after its events. -/
theorem Reachable.finish (hM : Refines M P) (hs : Reachable M A I s) {c : Nat} {r : κ}
    {a : α} (hc : s.calls c = some ⟨r, .done a⟩) : P.finish r (own c s.trace) (.ok a) :=
  ((hs.obeys hM).1 c _ hc).2

variable {s' : State σ ι ε χ κ α} {J : State σ ι ε χ κ α → Prop}

/-- A step is the start of an admitted call, or a protocol step of one. -/
theorem Step.protocol (hM : Refines M P) (hs : Reachable M A I s)
    (h : Step M A s s') :
    (∃ c r, s.calls c = none ∧ A.start r ∧ s' = s.begin M c r) ∨
    ∃ c r p p' e d, s.calls c = some ⟨r, p⟩ ∧ A.start r ∧ A.act s c e ∧
      P.step r (own c s.trace) e s.store d ∧ s' = s.advance c r e d p' := by
  cases h with
  | start c r hc hr => exact .inl ⟨c, r, hc, hr, rfl⟩
  | act c r f k i hc ha =>
    obtain ⟨hr, hobeys⟩ := (hs.obeys hM).1 c _ hc
    exact .inr ⟨c, r, _, _, _, _, hc, hr, ha, (hobeys i s.store).1, rfl⟩

/-- The step that emitted a given event is a protocol step of its call. -/
theorem Step.of_event {c : Nat} {e : ε} (hM : Refines M P)
    (hs : Reachable M A I s) (h : Step M A s s') (htr : s'.trace = s.trace ++ [(c, e)]) :
    ∃ r p p' d, s.calls c = some ⟨r, p⟩ ∧ A.start r ∧ A.act s c e ∧
      P.step r (own c s.trace) e s.store d ∧ s' = s.advance c r e d p' := by
  rcases h.protocol hM hs with ⟨c', r, hc, hr, rfl⟩ | ⟨c', r, p, p', e', d, hc, hr, ha, hp, rfl⟩
  · -- the start of a call emits nothing
    have hlen := congrArg List.length htr
    simp [State.begin] at hlen
  · obtain ⟨_, hlast⟩ := List.append_inj' htr rfl
    cases List.singleton_injective hlast
    exact ⟨r, p, p', d, hc, hr, ha, hp, rfl⟩

/-- The states that further steps reach. -/
abbrev Steps (M : κ → Prog σ ι ε χ α) (A : Admission σ ι ε χ κ α) :
    State σ ι ε χ κ α → State σ ι ε χ κ α → Prop :=
  Relation.ReflTransGen (Step M A)

/-- Steps lead from a reachable state to a reachable one. -/
theorem Reachable.steps (hs : Reachable M A I s)
    (h : Steps M A s s') : Reachable M A I s' := by
  induction h with
  | refl => exact hs
  | tail _ hstep ih => exact .step ih hstep

/-- Further steps only add events. -/
theorem Steps.exists_trace (h : Steps M A s s') :
    ∃ tr, s'.trace = s.trace ++ tr := by
  induction h with
  | refl => exact ⟨[], (List.append_nil _).symm⟩
  | tail _ hstep ih =>
    obtain ⟨tr, htr⟩ := ih
    cases hstep with
    | start c r hc hr => exact ⟨tr, htr⟩
    | act c r f k i hc ha =>
      rw [State.advance, htr, List.append_assoc]
      exact ⟨_, rfl⟩

section
variable (hM : Refines M P) (hinit : ∀ d, I d → J (State.initial d))
  (hstart : ∀ (s : State σ ι ε χ κ α) (c : Nat) (r : κ), Reachable M A I s → J s →
    s.calls c = none → A.start r → J (s.begin M c r))
  (hact : ∀ (s : State σ ι ε χ κ α) (c : Nat) (r : κ) (p p' : Prog σ ι ε χ α) (e : ε)
    (d : σ), Reachable M A I s → J s → s.calls c = some ⟨r, p⟩ → A.start r →
    A.act s c e → P.step r (own c s.trace) e s.store d → J (s.advance c r e d p'))
include hM hstart hact

/-- The rule for a property of states that every step keeps: a call that starts keeps it,
and so does every protocol step of an admitted call. The step gets the request and the own
events of its call, and the state it starts from is reachable. -/
theorem Step.rule (hs : Reachable M A I s) (h : Step M A s s') (hJ : J s) : J s' := by
  rcases h.protocol hM hs with ⟨c, r, hc, hr, rfl⟩ | ⟨c, r, p, p', e, d, hc, hr, ha, hp, rfl⟩
  · exact hstart s c r hs hJ hc hr
  · exact hact s c r p p' e d hs hJ hc hr ha hp

/-- The same rule for the states that a run reaches from a reachable one. -/
theorem Steps.rule (hs : Reachable M A I s) (h : Steps M A s s') (hJ : J s) : J s' := by
  induction h with
  | refl => exact hJ
  | tail hrun hstep ih => exact hstep.rule hM hstart hact (hs.steps hrun) ih

include hinit

/-- The invariant rule: a property that holds initially and that every step keeps holds in
every reachable state. -/
theorem Reachable.rule (hs : Reachable M A I s) : J s := by
  induction hs with
  | init hd => exact hinit _ hd
  | step hs h ih => exact h.rule hM hstart hact hs ih

end

/-- The invariant rule for a property of store and trace, which the start of a call keeps. -/
theorem Reachable.invariant {J : σ → List (Nat × ε) → Prop} (hM : Refines M P)
    (hinit : ∀ d, I d → J d [])
    (hact : ∀ (s : State σ ι ε χ κ α) (d : σ) (c : Nat) (r : κ) (e : ε), J s.store s.trace →
      A.start r → A.act s c e → P.step r (own c s.trace) e s.store d →
      J d (s.trace ++ [(c, e)]))
    (hs : Reachable M A I s) : J s.store s.trace :=
  Reachable.rule (J := fun s => J s.store s.trace) hM hinit (fun _ _ _ _ h _ _ => h)
    (fun s c r _ _ e d _ hJ _ hr ha hstep => hact s d c r e hJ hr ha hstep) hs

/-- The invariant rule for a property of each call, of its request and its own events: it
holds for no events, and every step of the call keeps it. The step also gets the state of its
call, for admissions that depend on it. -/
theorem Reachable.call_rule {J : κ → List ε → Prop} (hM : Refines M P)
    (hinit : ∀ r, A.start r → J r [])
    (hact : ∀ (s : State σ ι ε χ κ α) (d : σ) (c : Nat) (r : κ) (p : Prog σ ι ε χ α) (e : ε),
      Reachable M A I s → s.calls c = some ⟨r, p⟩ → J r (own c s.trace) → A.start r →
      A.act s c e → P.step r (own c s.trace) e s.store d → J r (own c s.trace ++ [e]))
    (hs : Reachable M A I s) :
    ∀ c call, s.calls c = some call → J call.request (own c s.trace) := by
  refine Reachable.rule (J := fun s => ∀ c call, s.calls c = some call →
    J call.request (own c s.trace)) hM (fun _ _ _ _ h => nomatch h) ?_ ?_ hs
  · intro s c r hs hJ hc hr c' call hcall
    rcases State.calls_begin hcall with ⟨rfl, rfl⟩ | hcall
    · rw [State.begin, (hs.obeys hM).2 c' hc]
      exact hinit r hr
    · exact hJ c' call hcall
  · intro s c r p p' e d hs hJ hc hr ha hstep c' call hcall
    rcases State.calls_advance hcall with ⟨rfl, rfl, hown⟩ | ⟨hcall, hown⟩ <;> rw [hown]
    · exact hact s d c' r p e hs hc (hJ c' _ hc) hr ha hstep
    · exact hJ c' call hcall

/-- The same rule without the state of the call. -/
theorem Reachable.call_invariant {J : κ → List ε → Prop} (hM : Refines M P)
    (hinit : ∀ r, A.start r → J r [])
    (hact : ∀ (s : State σ ι ε χ κ α) (d : σ) (c : Nat) (r : κ) (e : ε), Reachable M A I s →
      J r (own c s.trace) → A.start r → A.act s c e → P.step r (own c s.trace) e s.store d →
      J r (own c s.trace ++ [e]))
    (hs : Reachable M A I s) :
    ∀ c call, s.calls c = some call → J call.request (own c s.trace) :=
  hs.call_rule hM hinit fun s d c r _ e hs _ => hact s d c r e hs

/-- The invariant rule for a property of each event of each call, of its request and the store:
every step keeps it for the events that are there, and it holds for the event of the step. -/
theorem Reachable.event_invariant {F : κ → ε → σ → Prop} (hM : Refines M P)
    (hkeep : ∀ (s : State σ ι ε χ κ α) (d : σ) (c : Nat) (r : κ) (e : ε), Reachable M A I s →
      P.step r (own c s.trace) e s.store d → ∀ r' e', F r' e' s.store → F r' e' d)
    (hnew : ∀ (s : State σ ι ε χ κ α) (d : σ) (c : Nat) (r : κ) (e : ε), Reachable M A I s →
      (∀ e' ∈ own c s.trace, F r e' s.store) → P.step r (own c s.trace) e s.store d → F r e d)
    (hs : Reachable M A I s) :
    ∀ c call, s.calls c = some call → ∀ e ∈ own c s.trace, F call.request e s.store := by
  refine Reachable.rule (J := fun s => ∀ c call, s.calls c = some call →
    ∀ e ∈ own c s.trace, F call.request e s.store) hM (fun _ _ _ _ h => nomatch h) ?_ ?_ hs
  · intro s c r hs hJ hc _ c' call hcall
    rcases State.calls_begin hcall with ⟨rfl, rfl⟩ | hcall
    · -- a call that starts has emitted nothing
      rw [State.begin, (hs.obeys hM).2 c' hc]
      exact fun e he => absurd he List.not_mem_nil
    · exact hJ c' call hcall
  · intro s c r p p' e d hs hJ hc _ _ hstep c' call hcall
    rcases State.calls_advance hcall with ⟨rfl, rfl, hown⟩ | ⟨hcall, hown⟩ <;> rw [hown]
    · intro e' he'
      rcases List.mem_append.mp he' with hold | hlast
      · exact hkeep s d c' r e hs hstep r e' (hJ c' _ hc e' hold)
      · exact List.mem_singleton.mp hlast ▸ hnew s d c' r e hs (hJ c' _ hc) hstep
    · exact fun e' he' => hkeep s d c r e hs hstep _ e' (hJ c' call hcall e' he')

end

/-- While each value is emitted by one call only, an event that emits no old value keeps this. -/
theorem emitter_unique_snoc {β : Type} (emits : ε → β → Prop) {tr : List (Nat × ε)}
    {q : Nat × ε}
    (h : ∀ p ∈ tr, ∀ p' ∈ tr, ∀ b, emits p.2 b → emits p'.2 b → p.1 = p'.1)
    (hnew : ∀ p ∈ tr, ∀ b, emits q.2 b → ¬ emits p.2 b) :
    ∀ p ∈ tr ++ [q], ∀ p' ∈ tr ++ [q], ∀ b, emits p.2 b → emits p'.2 b → p.1 = p'.1 := by
  intro p hp p' hp' b hb hb'
  rcases List.mem_append.mp hp with hp | hp <;> rcases List.mem_append.mp hp' with hp' | hp'
  · exact h p hp p' hp' b hb hb'
  · cases List.mem_singleton.mp hp'
    exact absurd hb (hnew p hp b hb')
  · cases List.mem_singleton.mp hp
    exact absurd hb' (hnew p' hp' b hb)
  · rw [List.mem_singleton.mp hp, List.mem_singleton.mp hp']

/-! ### Replaying a schedule -/

/-- One entry of a schedule. -/
inductive Move (ι κ : Type) where
  | start (c : Nat) (r : κ)
  | act (c : Nat) (i : ι)

section
variable (M : κ → Prog σ ι ε χ α) (A : Admission σ ι ε χ κ α) [∀ r, Decidable (A.start r)]
  [∀ s c e, Decidable (A.act s c e)]

/-- The state after one entry, or `none` when the entry is not a step. -/
def replayMove (s : State σ ι ε χ κ α) : Move ι κ → Option (State σ ι ε χ κ α)
  | .start c r =>
      match s.calls c with
      | none => if A.start r then some (s.begin M c r) else none
      | some _ => none
  | .act c i =>
      match s.calls c with
      | some ⟨r, .act f k⟩ =>
          if A.act s c (f i s.store).1 then
            some (s.advance c r (f i s.store).1 (f i s.store).2 (k i s.store))
          else none
      | _ => none

/-- The state after a whole schedule. -/
def replay (s : State σ ι ε χ κ α) : List (Move ι κ) → Option (State σ ι ε χ κ α)
  | [] => some s
  | m :: ms => (replayMove M A s m).bind (replay · ms)

variable {M A} {I : σ → Prop}

/-- An entry that replays is a step. -/
theorem step_of_replayMove {s s' : State σ ι ε χ κ α} {m : Move ι κ}
    (h : replayMove M A s m = some s') : Step M A s s' := by
  cases m with
  | start c r =>
    simp only [replayMove] at h
    split at h
    · rename_i hc
      split at h
      · rename_i hr
        cases h
        exact .start c r hc hr
      · cases h
    · cases h
  | act c i =>
    simp only [replayMove] at h
    split at h
    · rename_i r f k hc
      split at h
      · rename_i ha
        cases h
        exact .act c r f k i hc ha
      · cases h
    · cases h

/-- A schedule that replays is a sequence of steps. -/
theorem steps_of_replay {s s' : State σ ι ε χ κ α} {ms : List (Move ι κ)}
    (h : replay M A s ms = some s') : Steps M A s s' := by
  induction ms generalizing s with
  | nil =>
    simp only [replay, Option.some.injEq] at h
    rw [h]
  | cons m ms ih =>
    simp only [replay, Option.bind_eq_some_iff] at h
    obtain ⟨s₁, hm, hrest⟩ := h
    exact .head (step_of_replayMove hm) (ih hrest)

/-- A schedule that replays to a state with the property `P` proves that such a state is
reachable. -/
theorem exists_reachable_of_replay {d : σ} (ms : List (Move ι κ))
    (P : State σ ι ε χ κ α → Prop) [DecidablePred P] (hd : I d)
    (h : (replay M A (State.initial d) ms).any (P ·) = true) : ∃ s, Reachable M A I s ∧ P s := by
  obtain ⟨s, hs, hP⟩ := (Option.any_eq_true _ _).mp h
  exact ⟨s, (Reachable.init hd).steps (steps_of_replay hs), of_decide_eq_true hP⟩

end

end Interleaving
