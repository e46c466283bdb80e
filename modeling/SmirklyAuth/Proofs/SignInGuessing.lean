import SmirklyAuth.Protocol.Frame
import SmirklyAuth.Protocol.Refinement

/-!
# `SmirklyAuth.Proofs.SignInGuessing`: how many passwords an attacker can try

`SignIn` counts the recent failures of an identifier, then checks the password, and then
records a failure. Nothing holds the three steps together, so a call may check its password
although other calls that passed the same count have already been answered "wrong".

The table of attempts holds exactly the recorded failures, in the order of the trace
(`GuessInv.table`), and a count is the number of recorded failures before it
(`GuessInv.counted`). So the bound holds for a call if every rival that was answered
"wrong" before it had recorded its failure before the call counted (`guessesRecorded`):
`signIn_guesses_bounded`. In `signIn_guesses_concurrent` two calls count before either of
them records, and the limit of one wrong password does not hold.
-/

set_option autoImplicit false

namespace SmirklyAuth

open Interleaving

/-! ### The identifier of a call -/

/-- The rate-limit identifier of a `SignIn` call. -/
def signInIdentifierOf (s : SysState) (c : Nat) : Option Str :=
  match s.calls c with
  | some ⟨⟨_, .signIn cmd _⟩, _⟩ =>
      match signInValidateAndNormalize cmd with
      | .ok input => some input.rateLimitIdentifier
      | .error _ => none
  | _ => none

section
variable {app : App} {s : SysState} {c c' : Nat} {r : Request} {prog prog' : Service Response}
  {e : Event} {db : Db}

/-- The request of a call never changes. -/
theorem signInIdentifierOf_advance (hc' : s.calls c' = some ⟨r, prog⟩) :
    signInIdentifierOf (s.advance c' r e db prog') c = signInIdentifierOf s c := by
  by_cases hcc : c = c'
  · subst hcc
    simp only [signInIdentifierOf, State.advance, Function.update_self, hc']
    obtain ⟨p, command⟩ := r
    cases command <;> rfl
  · simp only [signInIdentifierOf, State.advance, Function.update_of_ne hcc]

/-- A new call does not change the identifier of another one. -/
theorem signInIdentifierOf_begin (hc' : s.calls c' = none) (hc : s.calls c ≠ none) :
    signInIdentifierOf (s.begin app.run c' r) c = signInIdentifierOf s c := by
  have hcc : c ≠ c' := fun heq => hc (heq ▸ hc')
  simp only [signInIdentifierOf, State.begin, Function.update_of_ne hcc]

/-- The identifier of a sign-in. -/
theorem signInIdentifierOf_signIn {p : AuthRuntimePolicies} {cmd : SignInCommand}
    {m : RequestMeta} {input : NormalizedSignInInput}
    (hc : s.calls c = some ⟨⟨p, .signIn cmd m⟩, prog⟩)
    (hin : signInValidateAndNormalize cmd = .ok input) :
    signInIdentifierOf s c = some input.rateLimitIdentifier := by
  simp only [signInIdentifierOf, hc, hin]

end

/-! ### The recorded failures -/

/-- The failure that an event records: the two columns of its row. -/
def Event.guess : Event → Option (Str × Time)
  | .committed (.signInAttempt identifier now) => some (identifier, now.timePointTz)
  | _ => none

/-- The event records a failure of the identifier since the given time. -/
def recentGuess (pg : Postgres) (identifier : Str) (since : Time) (p : Nat × Event) : Bool :=
  p.2.guess.any fun g => decide (since ≤ g.2) && pg.lower g.1 == pg.lower identifier

/-- The first count of `…_count_recent` is the number of recent rows of the identifier. -/
theorem countRecent_identifier (pg : Postgres) (identifier : Str) (userId : Option Uuid)
    (ip : Option Inet) (since : Time) (rows : List Attempt) :
    (Attempt.countRecent pg identifier userId ip since rows).identifier =
      rows.countP fun r => decide (since ≤ r.attemptedAt) && r.sameIdentifier pg identifier := by
  simp only [Attempt.countRecent, List.countP_filter]
  refine List.countP_congr fun r _ => ?_
  cases r.sameIdentifier pg identifier <;> simp

/-- A step appends to the table the failure that it records. -/
theorem signInAttempts_step {app : App} {r : Request} {evs : List Event} {e : Event}
    {db db' : Db} (hstep : ProtocolStep app r evs e db db') :
    db'.signInAttempts.map (fun a => (a.identifier, a.attemptedAt)) =
      db.signInAttempts.map (fun a => (a.identifier, a.attemptedAt)) ++ e.guess.toList := by
  cases hstep with
  | aborted hab => cases e <;> first | exact (List.append_nil _).symm | cases hab
  | read hread => cases hread <;> exact (List.append_nil _).symm
  | committed hcommit =>
    have hframe := commits_frame hcommit
    cases hcommit with
    | unknownUser hin htx =>
      obtain ⟨row, hid, hat, rfl⟩ := signInRecordAttemptTx_eq_ok htx
      simp [Event.guess, hid, hat]
    | signInRejected hin htx =>
      obtain ⟨row, hid, hat, rfl⟩ := signInRecordAttemptTx_eq_ok htx
      simp [Event.guess, hid, hat]
    | _ =>
      rw [hframe.signInAttempts rfl]
      exact (List.append_nil _).symm

variable {s : SysState} {c : Nat} {W : Seconds}

/-- A failure that a call records is its own: its identifier and its clock reading. -/
theorem commits_guess {app : App} {r : Request}
    {prog : Service Response} {i : Str} {t : Time} {db : Db}
    (hc : s.calls c = some ⟨r, prog⟩)
    (hcommit : Commits app r (own c s.trace) (.signInAttempt i t) s.store db) :
    signInIdentifierOf s c = some i ∧ clockOf s.trace c = some t := by
  unfold clockOf
  generalize own c s.trace = evs at hcommit
  cases hcommit with
  | unknownUser hin htx => exact ⟨signInIdentifierOf_signIn hc hin, rfl⟩
  | signInRejected hin htx => exact ⟨signInIdentifierOf_signIn hc hin, rfl⟩

/-! ### Rivals -/

/-- The call counts the recent failures in this event. -/
def isCount (c : Nat) (p : Nat × Event) : Bool :=
  p.1 == c && match p.2 with
    | .countedAttempts _ => true
    | _ => false

/-- The call checks a password in this event. -/
def isCheck (c : Nat) (p : Nat × Event) : Bool :=
  p.1 == c && match p.2 with
    | .verifiedPassword _ _ => true
    | _ => false

/-- `c'` is another `SignIn` call for the identifier of `c`, with a clock reading in the
window of `W` seconds that ends with the reading of `c`. -/
def rivals (W : Seconds) (s : SysState) (c c' : Nat) : Bool :=
  c' != c && (signInIdentifierOf s c).isSome &&
    signInIdentifierOf s c' == signInIdentifierOf s c &&
    match clockOf s.trace c', clockOf s.trace c with
    | some t', some t => decide (t - W.nanos ≤ t') && decide (t' ≤ t)
    | _, _ => false

/-- The rival `c'` was answered "wrong" before `c` checked its password. -/
def GuessedBefore (W : Seconds) (s : SysState) (c c' : Nat) : Prop :=
  rivals W s c c' = true ∧ ∃ hash, (c', .verifiedPassword hash false) ∈ before (isCheck c) s.trace

/-- The start of the window of `c` does not overflow. -/
def windowFits (W : Seconds) (s : SysState) (c : Nat) : Bool :=
  (clockOf s.trace c).all fun t => decide (t.FitsMinus W)

/-- Every rival that has been answered "wrong" recorded its failure before `c` counted. -/
def guessesRecorded (W : Seconds) (s : SysState) (c : Nat) : Bool :=
  s.trace.all fun p => match p.2 with
    | .verifiedPassword _ false => !rivals W s c p.1 ||
        (before (isCount c) s.trace).any fun q => q.1 == p.1 && q.2.guess.isSome
    | _ => true

/-- The row of a clock reading in the window is in the counted window. -/
theorem since_le_of_windowFits {t t' : Time}
    (h : windowFits W s c = true) (ht : clockOf s.trace c = some t) (hle : t - W.nanos ≤ t') :
    (t.minus W).timePointTz ≤ t'.timePointTz := by
  simp only [windowFits, ht, Option.all_some, decide_eq_true_eq] at h
  rw [Time.minus_eq h]
  exact Time.timePointTz_mono hle

/-- What a rival is. -/
theorem rivals_iff {c' : Nat} :
    rivals W s c c' = true ↔ c' ≠ c ∧ ∃ i t t', signInIdentifierOf s c = some i ∧
      signInIdentifierOf s c' = some i ∧ clockOf s.trace c = some t ∧
      clockOf s.trace c' = some t' ∧ t - W.nanos ≤ t' ∧ t' ≤ t := by
  unfold rivals
  cases hi : signInIdentifierOf s c with
  | none => simp
  | some i =>
    cases ht' : clockOf s.trace c' with
    | none => simp
    | some t' =>
      cases ht : clockOf s.trace c with
      | none => simp
      | some t => simp [and_assoc]

/-- The later state gives the calls of the earlier one the same identifiers and clock
readings. -/
def SameCalls (s s' : SysState) : Prop :=
  ∀ c, own c s.trace ≠ [] → signInIdentifierOf s' c = signInIdentifierOf s c ∧
    clockOf s'.trace c = clockOf s.trace c

/-- An event of a call does not change the requests. -/
theorem sameCalls_advance {r : Request} {prog prog' : Service Response}
    {e : Event} {db : Db} (hc : s.calls c = some ⟨r, prog⟩) :
    SameCalls s (s.advance c r e db prog') :=
  fun _ hown => ⟨signInIdentifierOf_advance hc, clockOf_append hown⟩

/-- Which calls are rivals does not change by events. -/
theorem SameCalls.rivals_eq {s' : SysState} (h : SameCalls s s') {c' : Nat}
    (hc : own c s.trace ≠ []) (hc' : own c' s.trace ≠ []) :
    rivals W s' c c' = rivals W s c c' := by
  unfold rivals
  rw [(h c hc).1, (h c hc).2, (h c' hc').1, (h c' hc').2]

/-! ### The invariant -/

/-- The limits of the `SignIn` calls of a run: at most `L` failures of an identifier in `W`
seconds. -/
def signInLimits (L : Nat) (W : Seconds) (r : Request) : Bool :=
  match r.command with
  | .signIn _ _ => r.policies.signIn.maxAttemptsPerIdentifier == L &&
      r.policies.signIn.rateLimitWindow == W
  | _ => true

/-- The limits of an admitted sign-in. -/
theorem signInLimits_signIn {L : Nat} {p : AuthRuntimePolicies}
    {cmd : SignInCommand} {m : RequestMeta}
    (h : signInLimits L W ⟨p, .signIn cmd m⟩ = true) :
    p.signIn.maxAttemptsPerIdentifier = L ∧ p.signIn.rateLimitWindow = W := by
  simpa [signInLimits] using h

/-- The invariant of the failures:

- `table`: the table holds the failures that the trace has recorded;
- `recorded`: a recorded failure carries the identifier and the clock reading of its call;
- `counted`: a count is the number of failures recorded before it;
- `bounded`: fewer than `L` rivals were answered "wrong" before a call checked its
  password. -/
structure GuessInv (app : App) (L : Nat) (W : Seconds) (s : SysState) : Prop where
  table : s.store.signInAttempts.map (fun a => (a.identifier, a.attemptedAt)) =
    s.trace.filterMap (·.2.guess)
  recorded : ∀ c i t, (c, .committed (.signInAttempt i t)) ∈ s.trace →
    signInIdentifierOf s c = some i ∧ clockOf s.trace c = some t
  counted : ∀ c i t n, signInIdentifierOf s c = some i → clockOf s.trace c = some t →
    (c, .countedAttempts (some n)) ∈ s.trace → n.identifier =
      (before (isCount c) s.trace).countP (recentGuess app.ports.pg i (t.minus W).timePointTz)
  bounded : ∀ c hash ok, (c, .verifiedPassword hash ok) ∈ s.trace → ∀ cs : List Nat,
    cs.Nodup → (∀ c' ∈ cs, GuessedBefore W s c c') → cs.length < L

section
variable {app : App} {L : Nat} {W : Seconds} {s s' : SysState}

variable {c : Nat}

/-- What the invariant says of the calls and events of a state is also true in a later
state. -/
theorem GuessInv.recorded_later (h : GuessInv app L W s) (hsame : SameCalls s s')
    {i : Str} {t : Time} (hmem : (c, .committed (.signInAttempt i t)) ∈ s.trace) :
    signInIdentifierOf s' c = some i ∧ clockOf s'.trace c = some t := by
  have hown := own_ne_nil hmem
  rw [(hsame c hown).1, (hsame c hown).2]
  exact h.recorded c i t hmem

/-- What was counted stays a bound when more events follow. -/
theorem GuessInv.counted_later (h : GuessInv app L W s) (hsame : SameCalls s s')
    {i : Str} {t : Time} {n : AttemptCounters} (hi : signInIdentifierOf s' c = some i)
    (ht : clockOf s'.trace c = some t) (hmem : (c, .countedAttempts (some n)) ∈ s.trace)
    {tr : Trace} (htr : s'.trace = s.trace ++ tr) :
    n.identifier = (before (isCount c) s'.trace).countP
      (recentGuess app.ports.pg i (t.minus W).timePointTz) := by
  have hown := own_ne_nil hmem
  rw [(hsame c hown).1] at hi
  rw [(hsame c hown).2] at ht
  have hcount : isCount c (c, .countedAttempts (some n)) = true := by simp [isCount]
  rw [htr, before_append_of_mem hmem hcount]
  exact h.counted c i t n hi ht hmem

/-- The bound on the guesses before a comparison stays one when more events follow. -/
theorem GuessInv.bounded_later (h : GuessInv app L W s) (hsame : SameCalls s s')
    {hash : Str} {ok : Bool} (hmem : (c, .verifiedPassword hash ok) ∈ s.trace) {tr : Trace}
    (htr : s'.trace = s.trace ++ tr) {cs : List Nat} (hnodup : cs.Nodup)
    (hcs : ∀ c' ∈ cs, GuessedBefore W s' c c') : cs.length < L := by
  refine h.bounded c hash ok hmem cs hnodup fun c' hc' => ?_
  obtain ⟨hrival, hash', hwrong⟩ := hcs c' hc'
  have hcheck : isCheck c (c, .verifiedPassword hash ok) = true := by simp [isCheck]
  rw [htr, before_append_of_mem hmem hcheck] at hwrong
  refine ⟨?_, hash', hwrong⟩
  rw [← hsame.rivals_eq (own_ne_nil hmem) (own_ne_nil (mem_of_mem_before hwrong))]
  exact hrival

/-- A call that starts keeps the invariant. -/
theorem GuessInv.begin (h : GuessInv app L W s) {r : Request}
    (hidle : ∀ c, s.calls c = none → own c s.trace = []) (hc : s.calls c = none) :
    GuessInv app L W (s.begin app.run c r) := by
  have hsame : SameCalls s (s.begin app.run c r) := fun c' hown =>
    ⟨signInIdentifierOf_begin hc fun hnone => hown (hidle c' hnone), rfl⟩
  have htr : (s.begin app.run c r).trace = s.trace ++ [] := (List.append_nil _).symm
  exact
    { table := h.table
      recorded := fun c' i t hmem => h.recorded_later hsame hmem
      counted := fun c' i t n hi ht hmem => h.counted_later hsame hi ht hmem htr
      bounded := fun c' hash ok hmem cs hnodup hcs =>
        h.bounded_later hsame hmem htr hnodup hcs }

/-- The number of failures that a count sees. -/
theorem GuessInv.count_eq (h : GuessInv app L W s) (identifier : Str) (userId : Option Uuid)
    (ip : Option Inet) (since : Time) :
    (Attempt.countRecent app.ports.pg identifier userId ip since
      s.store.signInAttempts).identifier =
      s.trace.countP (recentGuess app.ports.pg identifier since) := by
  rw [countRecent_identifier]
  -- the condition reads only the two columns that the trace determines
  let P : Str × Time → Bool := fun g =>
    decide (since ≤ g.2) && app.ports.pg.lower g.1 == app.ports.pg.lower identifier
  have hrows : (s.store.signInAttempts.countP fun r =>
      decide (since ≤ r.attemptedAt) && r.sameIdentifier app.ports.pg identifier) =
      (s.store.signInAttempts.map (fun a => (a.identifier, a.attemptedAt))).countP P := by
    rw [List.countP_map]
    rfl
  rw [hrows, h.table, List.countP_filterMap]
  refine List.countP_congr fun p _ => ?_
  show ((p.2.guess.map P).getD false = true) ↔ (p.2.guess.any P = true)
  cases p.2.guess <;> rfl

section
variable {c : Nat} {r : Request} {prog prog' : Service Response} {e : Event} {db : Db}

/-- A call counts once, and it sees every failure recorded so far. -/
theorem GuessInv.counted_now (h : GuessInv app L W s) (hlimits : signInLimits L W r = true)
    (hc : s.calls c = some ⟨r, prog⟩) {n : AttemptCounters}
    (hread : Reads app r (own c s.trace) (.countedAttempts (some n)) s.store) {i : Str}
    {t : Time} (hi : signInIdentifierOf s c = some i) (ht : clockOf s.trace c = some t) :
    n.identifier = s.trace.countP (recentGuess app.ports.pg i (t.minus W).timePointTz) ∧
      ∀ p ∈ s.trace, isCount c p = false := by
  have hmem : ∀ e, (c, e) ∈ s.trace → e ∈ own c s.trace := fun e => mem_own.mpr
  unfold clockOf at ht
  generalize hevs : own c s.trace = evs at hread hmem ht
  generalize he : Event.countedAttempts (some n) = e at hread
  cases hread with
  | @signInCount p cmd m now _ input user? hin =>
    obtain ⟨ip, _, hcount⟩ := Option.map_eq_some_iff.mp (Event.countedAttempts.inj he).symm
    have hident : i = input.rateLimitIdentifier :=
      Option.some.inj (hi.symm.trans (signInIdentifierOf_signIn hc hin))
    have hnow : t = now := (Option.some.inj ht).symm
    refine ⟨?_, ?_⟩
    · rw [← hcount, hident, hnow, ← (signInLimits_signIn hlimits).2]
      exact h.count_eq _ _ _ _
    · -- its history so far is a clock reading and a lookup
      rintro ⟨c', e'⟩ hp
      by_contra hne
      obtain ⟨hcc, hcounts⟩ := Bool.and_eq_true_iff.mp (Bool.eq_true_of_not_eq_false hne)
      cases beq_iff_eq.mp hcc
      have hown := hmem e' hp
      simp only [List.mem_cons, List.not_mem_nil, or_false] at hown
      rcases hown with rfl | rfl <;> cases hcounts
  | _ => cases he

/-- A rival that has recorded its failure before a call counts is among those that it counts, if
its window fits the clock. -/
theorem GuessInv.recent_of_rival (h : GuessInv app L W s) (hfits : windowFits W s c = true)
    (hrecorded : guessesRecorded W s c = true) {i hash : Str} {now : Time} {c' : Nat}
    (hident : signInIdentifierOf s c = some i) (hnow : clockOf s.trace c = some now)
    (hrival : rivals W s c c' = true) (hwrong : (c', .verifiedPassword hash false) ∈ s.trace) :
    ∃ e, (c', e) ∈ before (isCount c) s.trace ∧
      recentGuess app.ports.pg i (now.minus W).timePointTz (c', e) = true := by
  have hall := List.all_eq_true.mp hrecorded _ hwrong
  rw [hrival, Bool.not_true, Bool.false_or] at hall
  obtain ⟨⟨c'', e⟩, hq, hguess⟩ := List.any_eq_true.mp hall
  rw [Bool.and_eq_true, beq_iff_eq] at hguess
  obtain ⟨rfl, hsome⟩ := hguess
  refine ⟨e, hq, ?_⟩
  -- the failure that the rival recorded is its own, so it is recent
  obtain ⟨_, i', t, t', hi, hi', ht, ht', hsince, _⟩ := rivals_iff.mp hrival
  cases hident.symm.trans hi
  cases hnow.symm.trans ht
  cases e with
  | committed tx =>
    cases tx with
    | signInAttempt identifier at_ =>
      obtain ⟨hi'', hat⟩ := h.recorded c'' identifier at_ (mem_of_mem_before hq)
      cases hi'.symm.trans hi''
      cases ht'.symm.trans hat
      have hrecent := since_le_of_windowFits hfits hnow hsince
      simp [recentGuess, Event.guess, hrecent]
    | _ => cases hsome
  | _ => cases hsome

/-- A call that checks a password after every rival has recorded its failure, and whose window
fits the clock, has fewer than `L` of them. -/
theorem GuessInv.checked_now (h : GuessInv app L W s) (hL : 0 < L)
    (hlimits : signInLimits L W r = true) (hc : s.calls c = some ⟨r, prog⟩) {hash : Str} {ok : Bool}
    (hread : Reads app r (own c s.trace) (.verifiedPassword hash ok) s.store)
    (hfits : windowFits W s c = true) (hrecorded : guessesRecorded W s c = true) {cs : List Nat}
    (hnodup : cs.Nodup) (hcs : ∀ c' ∈ cs, rivals W s c c' = true ∧
      ∃ hash, (c', .verifiedPassword hash false) ∈ s.trace) : cs.length < L := by
  have hnone : signInIdentifierOf s c = none → cs.length < L := fun hident => by
    -- a call that is no sign-in has no rivals
    cases cs with
    | nil => exact hL
    | cons c' cs =>
      obtain ⟨_, i, _, _, hi, _⟩ := rivals_iff.mp (hcs c' List.mem_cons_self).1
      rw [hident] at hi
      cases hi
  have hmem : ∀ e, e ∈ own c s.trace → (c, e) ∈ s.trace := fun e => mem_own.mp
  generalize hevs : own c s.trace = evs at hread hmem
  generalize he : Event.verifiedPassword hash ok = e at hread
  cases hread with
  | @signInVerify p cmd m now _ user n hlim =>
    have hcounts : (c, .countedAttempts (some n)) ∈ s.trace := hmem _ (by simp [signInEvents])
    have hbelow : n.identifier < L := by
      simp only [AuthenticationService.signInLimitsExceeded, isRateLimitExceeded,
        Bool.or_eq_false_iff, Bool.and_eq_false_iff, decide_eq_false_iff_not] at hlim
      have hmax := (signInLimits_signIn hlimits).1
      omega
    cases hident : signInIdentifierOf s c with
    | none => exact hnone hident
    | some i =>
      have hnow : clockOf s.trace c = some now := by rw [clockOf, hevs]; rfl
      rw [h.counted c i now n hident hnow hcounts] at hbelow
      refine Nat.lt_of_le_of_lt (length_le_countP hnodup fun c' hc' => ?_) hbelow
      obtain ⟨hrival, _, hwrong⟩ := hcs c' hc'
      exact h.recent_of_rival hfits hrecorded hident hnow hrival hwrong
  | changeVerify => exact hnone (by rw [signInIdentifierOf, hc])
  | changeCompare => exact hnone (by rw [signInIdentifierOf, hc])
  | confirmCompare => exact hnone (by rw [signInIdentifierOf, hc])
  | _ => cases he

/-- A step of a call keeps the invariant. -/
theorem GuessInv.advance (h : GuessInv app L W s) (hL : 0 < L) (hlimits : signInLimits L W r = true)
    (hc : s.calls c = some ⟨r, prog⟩)
    (hchecks : ∀ hash ok, e = .verifiedPassword hash ok →
      windowFits W s c = true ∧ guessesRecorded W s c = true)
    (hstep : ProtocolStep app r (own c s.trace) e s.store db) :
    GuessInv app L W (s.advance c r e db prog') := by
  have hsame : SameCalls s (s.advance c r e db prog') := sameCalls_advance hc
  have htr : (s.advance c r e db prog').trace = s.trace ++ [(c, e)] := rfl
  have hident : signInIdentifierOf (s.advance c r e db prog') c = signInIdentifierOf s c :=
    signInIdentifierOf_advance hc
  -- a new event is the one of this step
  have hnew : ∀ c' e', (c', e') ∈ (s.advance c r e db prog').trace →
      (c', e') ∈ s.trace ∨ (c' = c ∧ e' = e) := fun c' e' hmem => by
    rw [htr, List.mem_append, List.mem_singleton, Prod.mk.injEq] at hmem
    exact hmem
  constructor
  · show db.signInAttempts.map _ = _
    rw [signInAttempts_step hstep, h.table, htr, List.filterMap_append]
    cases hguess : e.guess <;> simp [hguess]
  · intro c' i t hmem
    rcases hnew _ _ hmem with hmem | ⟨rfl, rfl⟩
    · exact h.recorded_later hsame hmem
    · obtain ⟨hi, ht⟩ := commits_guess hc hstep.commits
      have hown : own c' s.trace ≠ [] := fun hnil => by simp [clockOf, hnil] at ht
      rw [hident, htr, clockOf_append hown]
      exact ⟨hi, ht⟩
  · intro c' i t n hi ht hmem
    rcases hnew _ _ hmem with hmem | ⟨rfl, rfl⟩
    · exact h.counted_later hsame hi ht hmem htr
    · cases hstep with
      | aborted hab => cases hab
      | read hread =>
        rw [hident] at hi
        have hown : own c' s.trace ≠ [] := fun hnil => by
          rw [hnil] at hread
          nomatch hread
        rw [htr, clockOf_append hown] at ht
        obtain ⟨hcount, hfirst⟩ := h.counted_now hlimits hc hread hi ht
        rw [htr, before_snoc hfirst (by simp [isCount])]
        exact hcount
  · intro c' hash ok hmem cs hnodup hcs
    rcases hnew _ _ hmem with hmem | ⟨rfl, rfl⟩
    · exact h.bounded_later hsame hmem htr hnodup hcs
    · cases hstep with
      | aborted hab => cases hab
      | read hread =>
        obtain ⟨hfits, hrecorded⟩ := hchecks hash ok rfl
        refine h.checked_now hL hlimits hc hread hfits hrecorded hnodup fun c'' hc'' => ?_
        obtain ⟨hrival, hash', hwrong⟩ := hcs c'' hc''
        have hne : c'' ≠ c' := (rivals_iff.mp hrival).1
        have hold : (c'', .verifiedPassword hash' false) ∈ s.trace := by
          rcases hnew _ _ (mem_of_mem_before hwrong) with hold | ⟨heq, _⟩
          · exact hold
          · exact absurd heq hne
        have hown : own c' s.trace ≠ [] := fun hnil => by
          rw [hnil] at hread
          nomatch hread
        rw [hsame.rivals_eq hown (own_ne_nil hold)] at hrival
        exact ⟨hrival, hash', hold⟩

end

end

/-! ### Whole runs -/

/-- A call checks a password only if its window fits the clock and its rivals have recorded their
failures in time. -/
def checksRecorded (W : Seconds) (s : SysState) (c : Nat) : Event → Bool
  | .verifiedPassword _ _ => windowFits W s c && guessesRecorded W s c
  | _ => true

/-- The runs in which the window of a call that checks a password fits the clock, and every rival
of the call that has been answered "wrong" recorded its failure before the call counted. -/
abbrev recordedGuesses (L : Nat) (W : Seconds) : SysAdmission :=
  admission (fun r => signInLimits L W r = true) fun s c e => checksRecorded W s c e = true

/-- The call is a `SignIn` call that has succeeded. -/
def signedIn (s : SysState) (c : Nat) : Bool :=
  match s.calls c with
  | some ⟨⟨_, .signIn _ _⟩, .done _⟩ => true
  | _ => false

/-- Fewer than `L` rivals of a `SignIn` call that has succeeded were answered "wrong" before
it checked its password. -/
def GuessesBounded (L : Nat) (W : Seconds) (s : SysState) : Prop :=
  ∀ c, signedIn s c = true → ∀ cs : List Nat, cs.Nodup →
    (∀ c' ∈ cs, GuessedBefore W s c c') → cs.length < L

/-- The guesses are accounted for in every state that is reached. -/
theorem guessInv_of_reachable {app : App} {L : Nat} (hL : 0 < L)
    (hs : Reachable app.run (recordedGuesses L W) Seed s) : GuessInv app L W s := by
  refine Reachable.rule (A := recordedGuesses L W) (J := GuessInv app L W) (app_refines app)
    ?_ ?_ ?_ hs
  · intro db hseed
    refine ⟨?_, fun _ _ _ hmem => (nomatch hmem), fun _ _ _ _ _ _ hmem => (nomatch hmem),
      fun _ _ _ hmem => (nomatch hmem)⟩
    show db.signInAttempts.map _ = _
    rw [hseed.signInAttempts]
    rfl
  · intro s c r hs h hc _
    exact h.begin (hs.obeys (app_refines app)).2 hc
  · intro s c r prog prog' e db _ h hc hr hact hstep
    refine h.advance hL hr hc (fun hash ok he => ?_) hstep
    subst he
    exact Bool.and_eq_true_iff.mp hact.2

/-- In these runs the bound holds. -/
theorem signIn_guesses_bounded (app : App) (L : Nat) (W : Seconds) (hL : 0 < L) (s : SysState)
    (hs : Reachable app.run (recordedGuesses L W) Seed s) : GuessesBounded L W s := by
  intro c hdone cs hnodup hcs
  have hinv : GuessInv app L W s := guessInv_of_reachable hL hs
  unfold signedIn at hdone
  split at hdone
  · rename_i p cmd m x hcall
    have hfin := (hs.finish (app_refines app) hcall).1
    have hmem : ∀ e, e ∈ own c s.trace → (c, e) ∈ s.trace := fun e => mem_own.mp
    change Finishes app _ (own c s.trace) (.ok x) at hfin
    generalize own c s.trace = evs at hfin hmem
    cases hfin with
    | @signedIn _ _ _ _ user =>
      have hchecked : (c, .verifiedPassword user.password true) ∈ s.trace := hmem _ (by simp)
      exact hinv.bounded c _ _ hchecked cs hnodup hcs
    | other hopen => cases hopen
  · cases hdone

/-- A limit on the failures per identifier, and no other limits. -/
def guessLimit (limit : Nat) : AuthRuntimePolicies where
  session := { refreshTokenTtl := 3600 }
  signIn := { maxAttemptsPerIdentifier := limit, maxAttemptsPerUser := 0, maxAttemptsPerIp := 0 }

/-- A guess at the password of the account. -/
def guessUnitPassword (limit : Nat) (password : Str) : Request :=
  ⟨guessLimit limit, .signIn { username := some "unit_user", password } {}⟩

/-- Two calls count the failures, the first one is answered "wrong", and then the second one
checks the right password. -/
def concurrentGuesses : List (Move Input Request) :=
  [.start 1 (guessUnitPassword 1 "wrong"), .start 2 (guessUnitPassword 1 "old_password")] ++
    acts 1 [{}, {}, {}] ++ acts 2 [{}, {}, {}] ++ acts 1 [{}] ++
    acts 2 ((signInInputs ⟨1⟩ ⟨2⟩).drop 3)

/-- The second call signs in although the one wrong password of the window was taken. -/
theorem signIn_guesses_concurrent :
    ∃ s : SysState,
      Reachable plainApp.run (admission (fun r => signInLimits 1 900 r = true) fun _ _ _ => True)
        Seed s ∧ ¬ GuessesBounded 1 900 s := by
  obtain ⟨s, hs, hdone, hrival, hwrong⟩ := exists_run plainApp
    (admission (fun r => signInLimits 1 900 r = true) fun _ _ _ => True) concurrentGuesses
    (fun s => signedIn s 2 ∧ rivals 900 s 2 1 ∧
      (1, .verifiedPassword "old_password" false) ∈ before (isCheck 2) s.trace)
    (by decide +kernel)
  refine ⟨s, hs, fun hbounded => ?_⟩
  have hguessed : ∀ c' ∈ [1], GuessedBefore 900 s 2 c' := fun c' hc' => by
    rw [List.mem_singleton.mp hc']
    exact ⟨hrival, _, hwrong⟩
  have hlt := hbounded 2 hdone [1] (List.nodup_singleton 1) hguessed
  exact Nat.lt_irrefl 1 hlt

/-- One wrong password is recorded, and the next call, with a limit of two, signs in. -/
theorem signIn_guesses_bounded_recorded :
    ∃ s : SysState, Reachable plainApp.run (recordedGuesses 2 900) Seed s ∧
      signedIn s 2 = true ∧ rivals 900 s 2 1 = true ∧ GuessesBounded 2 900 s := by
  obtain ⟨s, hs, hdone, hrival⟩ := exists_run plainApp (recordedGuesses 2 900)
    (.start 1 (guessUnitPassword 2 "wrong") :: acts 1 [{}, {}, {}, {}, {}] ++
      .start 2 (guessUnitPassword 2 "old_password") :: acts 2 (signInInputs ⟨1⟩ ⟨2⟩))
    (fun s => signedIn s 2 ∧ rivals 900 s 2 1) (by decide +kernel)
  exact ⟨s, hs, hdone, hrival, signIn_guesses_bounded plainApp 2 900 Nat.two_pos s hs⟩

end SmirklyAuth
