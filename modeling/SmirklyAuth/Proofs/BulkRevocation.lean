import Mathlib.Data.Fintype.Basic
import SmirklyAuth.Protocol.SessionTransactions
import SmirklyAuth.System

/-!
# `SmirklyAuth.Proofs.BulkRevocation`: bulk revocation and concurrent rotation

A bulk revocation is one `UPDATE`. It misses the replacement that a concurrent `Refresh` has
inserted and not yet committed, and it does not revoke the old session a second time. So the
replacement survives the revocation (`bulkRevocation_survivor`).

The race needs a `Refresh` that has the lock of a session before the bulk revocation comes to
it, and that has not committed when the bulk revocation starts. `Calm` excludes this step by
step:

* a bulk revocation does not start while a `Refresh` has an open write on a session of its scope;
* a `Refresh` does not come to a session that is still ahead of a bulk revocation.

`bulkRevocation_complete`: after a bulk revocation that meets `Calm`, no session that was
committed when it started and no replacement of such a session is active.
-/

set_option autoImplicit false

namespace SmirklyAuth

open Sql (Update)
open ReadCommitted

/-- No session of the scope that was committed in `s` is active in `s'`, and no replacement of
such a session is. -/
def NoneSurvives {τ : Type} (P : SessionRow → Bool) (s s' : State τ SessionRow Empty) : Prop :=
  ∀ r ∈ s.committedRows, P r = true → ∀ x ∈ s'.committedRows,
    (x.id = r.id ∨ ∃ r' ∈ s'.committedRows, r'.id = r.id ∧ r'.replacedBySessionId = some x.id) →
    x.revokedAt.isSome = true

instance {τ : Type} (P : SessionRow → Bool) (s s' : State τ SessionRow Empty) :
    Decidable (NoneSurvives P s s') := by
  unfold NoneSurvives
  infer_instance

namespace SessionSystem

variable {τ : Type} [DecidableEq τ]

/-- No `Refresh` has an open write on a session of the scope. -/
def quiet (sys : SessionSystem τ) (s : State τ SessionRow Empty) (P : SessionRow → Bool) : Bool :=
  s.cells.all fun c =>
    !c.committed.any P || c.pending.all fun p => (sys.txn p.1).scope.isSome

/-- The condition on a step: a bulk revocation starts when no `Refresh` has an open write in its
scope, and a `Refresh` does not come to a session that is ahead of a bulk revocation. -/
def Calm (sys : SessionSystem τ) (s : State τ SessionRow Empty) : Action τ → Prop
  | .run t => ((sys.txn t).scope.all fun P => sys.quiet s P) = true
  | .touch t i => (sys.txn t).scope.isNone = true →
      ∀ b, (sys.txn b).scope.isSome = true →
        ((s.txns b).scan.all fun scan => !scan.ahead.contains i) = true
  | _ => True

instance [Fintype τ] (sys : SessionSystem τ) (s : State τ SessionRow Empty) (a : Action τ) :
    Decidable (sys.Calm s a) := by
  cases a <;> unfold Calm <;> infer_instance

section
variable {sys : SessionSystem τ} {s s' s₁ s₂ : State τ SessionRow Empty} {a : Action τ}
  {b t : τ} {i : Nat} {c c' : Cell τ SessionRow} {r₀ : SessionRow} {P : SessionRow → Bool}

/-- The row is the session `r₀`, and its link has not changed. An open version is revoked. -/
structure Keeps (r₀ : SessionRow) (c : Cell τ SessionRow) : Prop where
  committed : ∃ r, c.committed = some r ∧ r.identity = r₀.identity ∧
    r.replacedBySessionId = r₀.replacedBySessionId
  pending : ∀ t x, c.pending = some (t, x) → x.identity = r₀.identity ∧
    x.replacedBySessionId = r₀.replacedBySessionId ∧ x.revokedAt.isSome = true

/-- The row is revoked, or it will be with the commit of `b`. -/
def Done (b : τ) (c : Cell τ SessionRow) : Prop :=
  (∃ x, c.pending = some (b, x)) ∨ ∃ r, c.committed = some r ∧ r.revokedAt.isSome = true

/-- The row is still ahead of the bulk revocation `b`. -/
def Ahead (sys : SessionSystem τ) (s : State τ SessionRow Empty) (b : τ) (i : Nat) : Prop :=
  ∃ u required scan, sys.system.next s b = some (.update u required) ∧
    (s.txns b).scan = some scan ∧ i ∈ scan.ahead

/-- The bulk revocation `b` takes care of the session `r₀` in the cell `i`. -/
def Tracked (sys : SessionSystem τ) (b : τ) (i : Nat) (r₀ : SessionRow)
    (s : State τ SessionRow Empty) : Prop :=
  ∃ c, s.cells[i]? = some c ∧ Keeps r₀ c ∧ (sys.Ahead s b i ∨ Done b c)

/-- What a transaction sees of a row that keeps its identity and its link. -/
theorem Keeps.seen (h : Keeps r₀ c) {x : SessionRow} (hx : c.seenBy t = some x) :
    x.identity = r₀.identity ∧ x.replacedBySessionId = r₀.replacedBySessionId := by
  rcases c.seenBy_cases t with ⟨y, hpending, hseen⟩ | ⟨_, hseen⟩
  · cases hx.symm.trans hseen
    exact ⟨(h.pending t x hpending).1, (h.pending t x hpending).2.1⟩
  · obtain ⟨r, hr, hid, hlink⟩ := h.committed
    cases (hx.symm.trans hseen).trans hr
    exact ⟨hid, hlink⟩

/-- What a transaction sees of a row that is done is revoked. -/
theorem Keeps.revoked_of_done (h : Keeps r₀ c) (hdone : Done b c)
    (hfree : ∀ t' y, c.pending = some (t', y) → t' = t) {x : SessionRow}
    (hx : c.seenBy t = some x) : x.revokedAt.isSome = true := by
  rcases c.seenBy_cases t with ⟨y, hpending, hseen⟩ | ⟨hne, hseen⟩
  · cases hx.symm.trans hseen
    exact (h.pending t x hpending).2.2
  · rcases hdone with ⟨y, hy⟩ | ⟨r, hr, hrevoked⟩
    · -- the row is free, so the open version is the one of the transaction itself
      have hbt : b = t := hfree b y hy
      exact absurd (hbt ▸ hy) (hne y)
    · cases (hx.symm.trans hseen).trans hr
      exact hrevoked

/-- The link of a session does not change under a bulk revocation. -/
theorem Keeps.step (h : Keeps r₀ c) (hb : (sys.txn b).scope.isSome = true)
    (hcover : sys.Ahead s b i ∨ Done b c) (hcalm : sys.Calm s a)
    (hchange : c.Change sys.system s s' i a c') : Keeps r₀ c' where
  committed := by
    obtain ⟨r, hr, hid, hlink⟩ := h.committed
    obtain ⟨r', hr', hcases⟩ := hchange.committed_some hr
    refine ⟨r', hr', ?_⟩
    rcases hcases with rfl | ⟨t, hpending⟩
    · exact ⟨hid, hlink⟩
    · exact ⟨(h.pending t r' hpending).1, (h.pending t r' hpending).2.1⟩
  pending := by
    intro t x hx
    rcases hchange.pending hx with hx | ⟨rfl, u, required, y, hnext, hfree, hseen, hcond, rfl⟩
    · exact h.pending t x hx
    · have hrevokes := revokes_of_mem (System.next_mem hnext)
      obtain ⟨hid, hlink⟩ := h.seen hseen
      refine ⟨(hrevokes.identity y).trans hid, ?_, hrevokes.revoked y⟩
      cases hscope : (sys.txn t).scope with
      | some P =>
        have hbulk : (sys.txn t).scope.isSome = true := by rw [hscope]; rfl
        exact (hrevokes.link hbulk y).trans hlink
      | none =>
        -- a `Refresh` finds the session revoked
        have hrefresh : (sys.txn t).scope.isNone = true := by rw [hscope]; rfl
        rcases hcover with ⟨_, _, scan, _, hscan, hahead⟩ | hdone
        · have hnot := hcalm hrefresh b hb
          simp [hscan, hahead] at hnot
        · have hrevoked := h.revoked_of_done hdone hfree hseen
          rw [hrevokes.active y hcond] at hrevoked
          cases hrevoked

/-- A row that is done stays done, unless `b` is rolled back. -/
theorem Done.step (hdone : Done b c) (h : Keeps r₀ c) (hb : s' ≠ s.rollback b)
    (hchange : c.Change sys.system s s' i a c') : Done b c' := by
  rcases hdone with ⟨x, hx⟩ | ⟨r, hr, hrevoked⟩
  · cases hchange with
    | same => exact .inl ⟨x, hx⟩
    | @written t u _ _ _ _ _ hfree =>
      cases hfree b x hx
      rcases Cell.write_cases b u c with ⟨heq, _⟩ | ⟨y, _, _, heq⟩
      · exact .inl ⟨x, by rw [heq]; exact hx⟩
      · exact .inl ⟨u.set y, by rw [heq]⟩
    | @committed t _ _ _ =>
      rcases Cell.commit_cases t c with ⟨heq, _⟩ | ⟨y, hy, heq⟩
      · exact .inl ⟨x, by rw [heq]; exact hx⟩
      · exact .inr ⟨y, by rw [heq], (h.pending t y hy).2.2⟩
    | rolledBack hs' _ =>
      rcases Cell.rollback_cases a.actor c with ⟨heq, _⟩ | ⟨y, hy, _⟩
      · exact .inl ⟨x, by rw [heq]; exact hx⟩
      · cases hx.symm.trans hy
        exact absurd hs' hb
  · obtain ⟨r', hr', hcases⟩ := hchange.committed_some hr
    rcases hcases with rfl | ⟨t, hpending⟩
    · exact .inr ⟨r', hr', hrevoked⟩
    · exact .inr ⟨r', hr', (h.pending t r' hpending).2.2⟩

/-- The bulk revocation is done with a session of its scope when it has come to it. -/
theorem Keeps.done_of_write (h : Keeps r₀ c) (hb : (sys.txn b).scope = some P)
    (hr₀ : P r₀ = true) {u : Update SessionRow} {required : Bool}
    (hmem : .update u required ∈ sys.system.prog b) : Done b (c.write b u) := by
  rcases Cell.write_cases b u c with ⟨heq, hcond⟩ | ⟨y, _, _, heq⟩
  · rw [heq]
    rcases c.seenBy_cases b with ⟨x, hx, _⟩ | ⟨_, hseen⟩
    · exact .inl ⟨x, hx⟩
    · -- the committed version is in the scope, so the condition failed on `revoked_at`
      obtain ⟨r, hr, hid, _⟩ := h.committed
      have howner : r.userId = r₀.userId ∧ r.tokenFamilyId = r₀.tokenFamilyId :=
        Prod.mk.inj (Prod.mk.inj hid).2
      have hscope : P r = true := by
        rw [SessionTxn.scope_congr hb howner.1 howner.2]
        exact hr₀
      rw [hseen, hr, Option.any_some, cond_of_mem hb hmem, hscope, Bool.true_and] at hcond
      refine .inr ⟨r, hr, ?_⟩
      rw [← Option.not_isNone, hcond]
      rfl
  · exact .inl ⟨u.set y, by rw [heq]⟩

/-- Every action that meets `Calm` keeps the session tracked, until `b` is rolled back. -/
theorem Tracked.step (htracked : sys.Tracked b i r₀ s) (h : Effect sys.system s a s')
    (hcalm : sys.Calm s a) (hb : (sys.txn b).scope = some P) (hr₀ : P r₀ = true)
    (hrollback : s' ≠ s.rollback b) : sys.Tracked b i r₀ s' := by
  obtain ⟨c, hc, hkeeps, hcover⟩ := htracked
  obtain ⟨c', hc', hchange⟩ := h.cell hc
  have hbulk : (sys.txn b).scope.isSome = true := by rw [hb]; rfl
  refine ⟨c', hc', hkeeps.step hbulk hcover hcalm hchange, ?_⟩
  rcases hcover with ⟨u, required, scan, hnext, hscan, hahead⟩ | hdone
  · rcases h.ahead hnext hscan hahead with ⟨hnext', scan', hscan', hahead'⟩ | rfl | hrolled
    · exact .inl ⟨u, required, scan', hnext', hscan', hahead'⟩
    · -- the bulk revocation comes to the session
      rcases h.touch_cell hc with hrolled | ⟨u', required', hnext', _, hwritten⟩
      · exact absurd hrolled hrollback
      · cases hc'.symm.trans hwritten
        exact .inr (hkeeps.done_of_write hb hr₀ (System.next_mem hnext'))
    · exact absurd hrolled hrollback
  · exact .inr (hdone.step hkeeps hrollback hchange)

/-- In a quiet state every session of the scope has its link, also in an open version. -/
theorem keeps_of_quiet (hs : sys.Consistent s) (hquiet : sys.quiet s P = true)
    (hc : s.cells[i]? = some c) (hr : c.committed = some r₀) (hr₀ : P r₀ = true) :
    Keeps r₀ c where
  committed := ⟨r₀, hr, rfl, rfl⟩
  pending := by
    intro t x hx
    have hmem : c ∈ s.cells := List.mem_of_getElem? hc
    have hbulk : (sys.txn t).scope.isSome = true := by
      have hcell := List.all_eq_true.mp hquiet c hmem
      simpa [hr, hr₀, hx] using hcell
    have hwritten := hs.written c hmem r₀ t x hr hx
    exact ⟨hwritten.identity, hwritten.link hbulk, hwritten.revoked⟩

/-- A bulk revocation that starts in a quiet state takes care of every session of its scope. -/
theorem tracked_of_start (hs : sys.Consistent s) (hcalm : sys.Calm s (.run b))
    (hb : (sys.txn b).scope = some P) (hstart : s.act sys.system (.run b) = some s₁)
    (hc : s.cells[i]? = some c) (hr : c.committed = some r₀) (hr₀ : P r₀ = true) :
    sys.Tracked b i r₀ s₁ := by
  have hquiet : sys.quiet s P = true := by
    simpa only [Calm, hb, Option.all_some] using hcalm
  obtain ⟨u₀, hprog, _⟩ := SessionTxn.statements_of_scope hb
  obtain ⟨u, required, hnext, rfl⟩ := opened_of_act hstart fun st hst => by
    change st ∈ (sys.txn b).statements at hst
    rw [hprog, List.mem_singleton] at hst
    exact ⟨u₀, false, hst⟩
  refine ⟨c, hc, keeps_of_quiet hs hquiet hc hr hr₀, ?_⟩
  cases hrevoked : r₀.revokedAt.isSome with
  | true => exact .inr (.inr ⟨r₀, hr, hrevoked⟩)
  | false =>
    rcases c.seenBy_cases b with ⟨x, hx, _⟩ | ⟨_, hseen⟩
    · exact .inr (.inl ⟨x, hx⟩)
    · -- the session is one of those that the statement collects
      have hcond : u.cond r₀ = true := by
        rw [cond_of_mem hb (System.next_mem hnext), hr₀, Bool.true_and, ← Option.not_isSome,
          hrevoked]
        rfl
      have htarget : i ∈ s.targets b u := State.mem_targets hc (hseen.trans hr) hcond
      have hcurrent := (System.next_eq_some hnext).2
      refine .inl ⟨u, required, ⟨s.targets b u, false⟩, ?_, ?_, htarget⟩
      · simpa only [System.next, State.setTxn, Function.update_self] using hcurrent
      · simp only [State.setTxn, Function.update_self]

/-- A session stays tracked through a run, unless the bulk revocation is rolled back. -/
theorem Tracked.steps (htracked : sys.Tracked b i r₀ s) (h : Steps sys.system sys.Calm s s')
    (hb : (sys.txn b).scope = some P) (hr₀ : P r₀ = true) :
    (s'.txns b).status = .rolledBack ∨ sys.Tracked b i r₀ s' := by
  refine Steps.rule (J := fun s => (s.txns b).status = .rolledBack ∨ sys.Tracked b i r₀ s)
    ?_ h (.inr htracked)
  intro s a s' hJ hcalm heffect
  rcases hJ with hrolled | htracked
  · have hended : (s.txns b).status ≠ .active := by rw [hrolled]; decide
    rw [heffect.ended hended]
    exact .inl hrolled
  · by_cases hrollback : s' = s.rollback b
    · rw [hrollback]
      exact .inl (by simp [State.rollback])
    · exact .inr (htracked.step heffect hcalm hb hr₀ hrollback)

/-- After the commit of the bulk revocation the session is revoked and has its old link. -/
theorem Tracked.revoked (h : sys.Tracked b i r₀ s) (hs : sys.Consistent s)
    (hcommitted : (s.txns b).status = .committed) :
    ∃ c r, s.cells[i]? = some c ∧ c.committed = some r ∧ r.identity = r₀.identity ∧
      r.replacedBySessionId = r₀.replacedBySessionId ∧ r.revokedAt.isSome = true := by
  have hended : (s.txns b).status ≠ .active := by rw [hcommitted]; decide
  obtain ⟨c, hc, hkeeps, hcover⟩ := h
  obtain ⟨r, hr, hid, hlink⟩ := hkeeps.committed
  refine ⟨c, r, hc, hr, hid, hlink, ?_⟩
  rcases hcover with ⟨_, _, _, hnext, _, _⟩ | ⟨x, hx⟩ | ⟨r', hr', hrevoked⟩
  · exact absurd (System.next_eq_some hnext).1 hended
  · exact absurd (hs.sound.active c (List.mem_of_getElem? hc) b x hx) hended
  · cases hr.symm.trans hr'
    exact hrevoked

/-- The sessions of the scope that were committed at the start are revoked. -/
theorem revoked_of_steps (hs : sys.Consistent s) (hb : (sys.txn b).scope = some P)
    (hcalm : sys.Calm s (.run b)) (hstart : s.act sys.system (.run b) = some s₁)
    (hrun : Steps sys.system sys.Calm s₁ s₂) (hdone : (s₂.txns b).status = .committed)
    {r : SessionRow} (hr : r ∈ s.committedRows) (hP : P r = true) :
    ∃ r₂ ∈ s₂.committedRows, r₂.identity = r.identity ∧
      r₂.replacedBySessionId = r.replacedBySessionId ∧ r₂.revokedAt.isSome = true := by
  obtain ⟨c, hc, hcommitted⟩ := List.mem_filterMap.mp hr
  obtain ⟨i, hi⟩ := List.mem_iff_getElem?.mp hc
  have hs₂ : sys.Consistent s₂ := (hs.step (effect_of_act hstart)).steps hrun
  have hstarted := tracked_of_start hs hcalm hb hstart hi hcommitted hP
  rcases hstarted.steps hrun hb hP with hrolled | htracked
  · rw [hdone] at hrolled
    cases hrolled
  · obtain ⟨c₂, r₂, hc₂, hr₂, hfacts⟩ := htracked.revoked hs₂ hdone
    exact ⟨r₂, List.mem_filterMap.mpr ⟨c₂, List.mem_of_getElem? hc₂, hr₂⟩, hfacts⟩

end

/-- Any number of `Refresh` and bulk revocation transactions run concurrently, statement by
statement. A bulk revocation starts in the state `s`. When the steps from there on meet `Calm`
and the bulk revocation has committed, no session of its scope that was committed in `s` and no
replacement of such a session is active. -/
theorem bulkRevocation_complete (sys : SessionSystem τ) {b : τ} {P : SessionRow → Bool}
    (hb : (sys.txn b).scope = some P) {s s₁ s₂ : State τ SessionRow Empty}
    (hreach : Steps sys.system (fun _ _ => True) sys.initial s)
    (hcalm : sys.Calm s (.run b)) (hstart : s.act sys.system (.run b) = some s₁)
    (hrun : Steps sys.system sys.Calm s₁ s₂) (hdone : (s₂.txns b).status = .committed) :
    NoneSurvives P s s₂ := by
  have hs : sys.Consistent s := (Consistent.initial sys).steps hreach
  have hs₂ : sys.Consistent s₂ := (hs.step (effect_of_act hstart)).steps hrun
  have hrevoked : ∀ {r}, r ∈ s.committedRows → P r = true → _ :=
    fun hr hP => revoked_of_steps hs hb hcalm hstart hrun hdone hr hP
  intro r hr hP x hx hcases
  obtain ⟨r₂, hr₂, hid, hlink, hr₂revoked⟩ := hrevoked hr hP
  rcases hcases with heq | ⟨r', hr', heq, hreplaced⟩
  · -- the session itself
    have hxr : x = r₂ := hs₂.eq_of_id hx hr₂ (heq.trans (congrArg Prod.fst hid).symm)
    rw [hxr]
    exact hr₂revoked
  · -- the replacement was committed and in the scope when the bulk revocation started
    have hrr : r' = r₂ := hs₂.eq_of_id hr' hr₂ (heq.trans (congrArg Prod.fst hid).symm)
    rw [hrr, hlink] at hreplaced
    obtain ⟨n, hn, hnid⟩ := hs.replacement hr hreplaced
    have howner : n.userId = r.userId ∧ n.tokenFamilyId = r.tokenFamilyId :=
      Prod.mk.inj (Prod.mk.inj hnid).2
    have hPn : P n = true := by
      rw [SessionTxn.scope_congr hb howner.1 howner.2]
      exact hP
    obtain ⟨n₂, hn₂, hn₂id, _, hn₂revoked⟩ := hrevoked hn hPn
    have hxn : x = n₂ :=
      hs₂.eq_of_id hx hn₂ (congrArg Prod.fst (hn₂id.trans hnid)).symm
    rw [hxn]
    exact hn₂revoked

end SessionSystem

/-! ### Concrete runs -/

/-- A session of the account that the bulk revocation finds. -/
def unitSession : SessionRow where
  id := ⟨1⟩
  userId := unitUser.id
  deviceId := none
  refreshTokenHash := "1st_token"
  ip := none
  userAgent := none
  createdAt := 0
  lastUsedAt := none
  expiresAt := 3600
  revokedAt := none
  tokenFamilyId := ⟨9⟩
  replacedBySessionId := none

/-- The `Refresh` that replaces the session. -/
def unitRotation : Rotation where
  input := { dbNow := 10 }
  session := unitSession.toDomain plainApp.ports.pg
  newSessionId := ⟨2⟩
  refreshTokenHash := "2nd_token"
  reqMeta := {}
  now := 10
  ttl := 3600
  ip := none

/-- The `Refresh` is the transaction `false`, and the bulk revocation is `true`. -/
def race (bulk : SessionTxn) (hbulk : bulk.scope.isSome = true) : SessionSystem Bool where
  rows := [unitSession]
  txn t := if t then bulk else .refresh unitRotation
  ids := by decide
  linked := by
    intro r hr id hlink
    rw [List.mem_singleton.mp hr] at hlink
    cases hlink
  read := by
    have hrotation : ∀ (t : Bool) q,
        (if t then bulk else .refresh unitRotation) = SessionTxn.refresh q → q = unitRotation := by
      rintro (_ | _) q hq
      · cases hq
        rfl
      · rw [if_pos rfl] at hq
        rw [hq] at hbulk
        cases hbulk
    intro t q hq r hr hid
    rw [hrotation t q hq] at hid ⊢
    rcases hr with hr | ⟨t', q', hq', rfl⟩
    · rw [List.mem_singleton.mp hr]
      rfl
    · rw [hrotation t' q' hq'] at hid
      exact absurd hid (by decide)

/-- The bulk revocations of the account and of the family of the session. -/
def unitBulk (family : Bool) : SessionTxn :=
  if family then .revokeByTokenFamily 20 unitUser.id ⟨9⟩ else .revokeAllByUserId 20 unitUser.id

/-- The race of the two transactions. -/
def unitRace (family : Bool) : SessionSystem Bool :=
  race (unitBulk family) (by cases family <;> rfl)

/-- Both transactions of the race commit, and a session of the scope survives the bulk
revocation. -/
def RaceSurvivor (family : Bool) : Prop :=
  ∃ P, (unitBulk family).scope = some P ∧
    ∃ s s₁ s₂ : State Bool SessionRow Empty,
      Steps (unitRace family).system (fun _ _ => True) (unitRace family).initial s ∧
      s.act (unitRace family).system (.run true) = some s₁ ∧
      Steps (unitRace family).system (fun _ _ => True) s₁ s₂ ∧
      (s₂.txns false).status = .committed ∧ (s₂.txns true).status = .committed ∧
      (sessionsSelectActiveByUserId 30 unitUser.id s₂.committedRows).map (·.id) = [⟨2⟩] ∧
      ¬ NoneSurvives P s s₂

/-- The rotation reads the old row before the revocation, and inserts the new one after it. -/
theorem raceSurvivor_of_schedule (family : Bool) : RaceSurvivor family := by
  obtain ⟨P, hP, s, hs, s₁, hstart, s₂, hs₂, hcheck⟩ : ∃ P ∈ (unitBulk family).scope,
      ∃ s ∈ replay (unitRace family).system (fun _ _ => True) (unitRace family).initial
        [.run false, .run false, .touch false 0],
      ∃ s₁ ∈ s.act (unitRace family).system (.run true),
      ∃ s₂ ∈ replay (unitRace family).system (fun _ _ => True) s₁
        [.finish false, .commit false, .touch true 0, .finish true, .commit true],
      (s₂.txns false).status = .committed ∧ (s₂.txns true).status = .committed ∧
        (sessionsSelectActiveByUserId 30 unitUser.id s₂.committedRows).map (·.id) = [⟨2⟩] ∧
        ¬ NoneSurvives P s s₂ := by
    cases family <;> decide +kernel
  exact ⟨P, hP, s, s₁, s₂, steps_of_replay hs, hstart, steps_of_replay hs₂, hcheck⟩

/-- The `Refresh` has inserted the replacement and has locked the old session when the bulk
revocation starts, of the family or of all sessions of the user. It commits before the bulk
revocation comes to the session. -/
theorem bulkRevocation_survivor : RaceSurvivor true ∧ RaceSurvivor false :=
  ⟨raceSurvivor_of_schedule true, raceSurvivor_of_schedule false⟩

/-- The `Refresh` has inserted the replacement when the bulk revocation starts, and comes to the
old session after it. Its transaction is rolled back. -/
theorem bulkRevocation_complete_first :
    ∃ s s₁ s₂ : State Bool SessionRow Empty,
      Steps (unitRace true).system (fun _ _ => True) (unitRace true).initial s ∧
      s.act (unitRace true).system (.run true) = some s₁ ∧
      Steps (unitRace true).system (unitRace true).Calm s₁ s₂ ∧
      (s₂.txns false).status = .rolledBack ∧ (s₂.txns true).status = .committed ∧
      NoneSurvives (fun r => r.userId == unitUser.id && r.tokenFamilyId == ⟨9⟩) s s₂ := by
  obtain ⟨s, hs, hcalm, s₁, hstart, s₂, hs₂, hfirst, hsecond⟩ :
      ∃ s ∈ replay (unitRace true).system (fun _ _ => True) (unitRace true).initial [.run false],
      (unitRace true).Calm s (.run true) ∧ ∃ s₁ ∈ s.act (unitRace true).system (.run true),
      ∃ s₂ ∈ replay (unitRace true).system (unitRace true).Calm s₁ [.touch true 0, .run false,
        .finish true, .commit true, .touch false 0, .finish false],
      (s₂.txns false).status = .rolledBack ∧ (s₂.txns true).status = .committed := by
    decide +kernel
  have hreach := steps_of_replay hs
  have hsteps := steps_of_replay hs₂
  exact ⟨s, s₁, s₂, hreach, hstart, hsteps, hfirst, hsecond,
    SessionSystem.bulkRevocation_complete (unitRace true) rfl hreach hcalm hstart hsteps hsecond⟩

end SmirklyAuth
