import SmirklyAuth.Lib.Outcomes
import SmirklyAuth.Lib.Solo
import SmirklyAuth.Protocol.SessionRows

/-!
# `SmirklyAuth.Proofs.SessionActivity`: when a session was last used

`AuthenticateAccessToken` decides on a session that it read earlier whether `last_used_at` is to
be written, and `sessions_update_last_used` takes the later one of two times. Between the two
steps other calls run, with clocks of their own.

An authentication that succeeds has written the row, or what it had read was recent enough
(`Finishes`). Both facts stay true. What was read is an earlier version of the row
of now (`FoundInv`), and what was written is not later than the row unless it had been revoked
before (`ActivityInv`).

The column has whole microseconds, so what is written is up to a microsecond before the clock
reading. A threshold of a second or more covers this, the threshold 0 does not
(`sessionActivity_stale`). A sum that overflows makes the call write, and so does no harm.

The transactions of `auth.session_activity` commute (`foldl_touch_perm`), and they are the only
ones that write the column.
-/

set_option autoImplicit false

namespace SmirklyAuth

open Interleaving Prog

variable {id : Uuid} {session : Session} {A : SysAdmission} {I : Db → Prop} {s : SysState}
    {row : SessionRow} {now : Time} {threshold : Seconds}

/-! ### What was read and what was written -/

/-- `GREATEST(COALESCE(last_used_at, $2), $2)`. -/
def touch (lastUsedAt : Option Time) (now : Time) : Option Time :=
  some (max (lastUsedAt.getD now) now)

section

variable {app : App} {r : Request} {evs : List Event} {e : Event} {db db' : Db} {id : Uuid}
  {row : SessionRow} {now : Time}

/-- The transaction `auth.session_activity` and the call that runs it. -/
theorem commits_sessionActivity (h : Commits app r evs (.sessionActivity id) db db') :
    ∃ t claims session now user, evs = accessEvents t claims session now user ∧
      session.id = id ∧
      db'.sessions = (sessionsUpdateLastUsed id now.timePointTz).run db.sessions := by
  generalize ht : TxEvent.sessionActivity id = t at h
  cases h with
  | sessionActivity _ _ htx =>
    obtain rfl := TxEvent.sessionActivity.inj ht
    cases htx
    exact ⟨_, _, _, _, _, rfl, rfl, rfl⟩
  | _ => cases ht

/-- The row after the update: an active one has been touched, a revoked one is as it was. -/
theorem select_touched (h : sessionsSelectById id db.sessions = some row)
    (hdb : db'.sessions = (sessionsUpdateLastUsed id now).run db.sessions) :
    ∃ row', sessionsSelectById id db'.sessions = some row' ∧
      (row'.revokedAt = none → row.revokedAt = none ∧
        row'.lastUsedAt = touch row.lastUsedAt now) := by
  refine ⟨_, by rw [hdb, (ages_updateLastUsed id now).select_run, h, Option.map_some], ?_⟩
  intro hactive
  by_cases hcond : (sessionsUpdateLastUsed id now).cond row = true
  · rw [Sql.Update.apply_pos hcond] at hactive ⊢
    exact ⟨hactive, rfl⟩
  · -- the condition is the id and `revoked_at IS NULL`
    rw [Sql.Update.apply_neg (Bool.eq_false_iff.mpr hcond)] at hactive
    have hid := id_of_select h
    simp [sessionsUpdateLastUsed, hid, hactive] at hcond

end

/-- What a call has written to an active session is not later than its row. -/
def ActivityInv (db : Db) (tr : Trace) : Prop :=
  ∀ c t claims session now user,
    own c tr =
      accessEvents t claims session now user ++ [.committed (.sessionActivity session.id)] →
    ∃ row, sessionsSelectById session.id db.sessions = some row ∧
      (row.revokedAt = none → NotEarlier (some now.timePointTz) row.lastUsedAt)

section

variable {app : App} {r : Request} {e : Event} {db db' : Db} {tr : Trace} {c : Nat}

/-- One step keeps the invariant. -/
theorem ActivityInv.step (h : ActivityInv db tr) (hfound : FoundInv app.ports.pg db tr)
    (hstep : ProtocolStep app r (own c tr) e db db') : ActivityInv db' (tr ++ [(c, e)]) := by
  intro c' t claims session now user hown
  by_cases hc : c' = c
  · -- the call of the step has just committed its transaction
    subst hc
    rw [own_append, own_singleton_self] at hown
    obtain ⟨hevs, hlast⟩ := List.append_inj' hown rfl
    obtain rfl := List.singleton_injective hlast
    have hmem : Event.foundSession (some session) ∈ own c' tr := by
      rw [hevs]
      simp [accessEvents]
    obtain ⟨_, row, _, hrow, _⟩ := hfound c' session (mem_own.mp hmem)
    obtain ⟨t', claims', session', now', user', hevs', _, hdb⟩ :=
      commits_sessionActivity hstep.commits
    have hnow : now' = now := by
      rw [hevs, accessEvents, accessEvents] at hevs'
      simp only [List.cons.injEq, Event.clock.injEq] at hevs'
      exact hevs'.2.2.1.symm
    subst hnow
    obtain ⟨row', hrow', htouched⟩ := select_touched hrow hdb
    refine ⟨row', hrow', fun hactive u hu => ?_⟩
    obtain rfl := Option.some.inj hu
    exact ⟨_, (htouched hactive).2, le_max_right _ _⟩
  · rw [own_append_ne (Ne.symm hc)] at hown
    obtain ⟨row, hrow, hused⟩ := h c' t claims session now user hown
    obtain ⟨row', hrow', hlater, _⟩ := hasNext_step hstep hrow
    exact ⟨row', hrow', fun hactive => (hused (hlater.active hactive)).trans hlater.lastUsed⟩

end

/-- Every update of the last use belongs to a call that has read its clock. -/
theorem activityInv_of_reachable {app : App}
    (hs : Reachable app.run A I s) : ActivityInv s.store s.trace := by
  refine Reachable.rule (J := fun s : SysState => ActivityInv s.store s.trace) (app_refines app)
    ?_ (fun _ _ _ _ hJ _ _ => hJ) ?_ hs
  · intro db _ c t claims session now user hown
    simp [State.initial, own, accessEvents] at hown
  · intro s c r p p' e db hs hJ _ _ _ hstep
    exact ActivityInv.step hJ (foundInv_of_reachable hs) hstep

/-! ### The order of the updates -/

/-- The clock reading of a call. -/
def clockReading (evs : List Event) : Option Time :=
  evs.findSome? fun e => match e with
    | .clock now => some now
    | _ => none

/-- The times that the transactions of `auth.session_activity` write to a session after the trace
`tr`, in the order of the transactions: each writes the bound clock reading of its call. -/
def updateTimes (id : Uuid) : Trace → Trace → List Time
  | _, [] => []
  | tr, p :: recent =>
    (if p.2 = .committed (.sessionActivity id) then
      ((clockReading (own p.1 tr)).map Time.timePointTz).toList else []) ++
      updateTimes id (tr ++ [p]) recent

/-- The times of the updates, with one event more. -/
theorem updateTimes_snoc (id : Uuid) (tr recent : Trace) (p : Nat × Event) :
    updateTimes id tr (recent ++ [p]) = updateTimes id tr recent ++
      if p.2 = .committed (.sessionActivity id) then
        ((clockReading (own p.1 (tr ++ recent))).map Time.timePointTz).toList else [] := by
  induction recent generalizing tr with
  | nil => simp [updateTimes]
  | cons q recent ih => simp [updateTimes, ih]

/-- The updates commute. -/
theorem touch_comm (lastUsedAt : Option Time) (t t' : Time) :
    touch (touch lastUsedAt t) t' = touch (touch lastUsedAt t') t := by
  cases lastUsedAt with
  | none => simp [touch, max_comm]
  | some u => simp [touch, max_right_comm]

/-- The order of the updates does not matter. -/
theorem foldl_touch_perm {times times' : List Time} (h : times.Perm times')
    (lastUsedAt : Option Time) : times.foldl touch lastUsedAt = times'.foldl touch lastUsedAt :=
  h.foldl_eq' (fun t _ t' _ u => touch_comm u t t') lastUsedAt

/-- A row and what the updates have made of its `last_used_at` while it was active. -/
def Touched (id : Uuid) (row : SessionRow) (tr : Trace) (s : SysState) : Prop :=
  ∃ recent row', s.trace = tr ++ recent ∧ sessionsSelectById id s.store.sessions = some row' ∧
    Later row row' ∧ (row'.revokedAt = none → row.revokedAt = none ∧
      row'.lastUsedAt = (updateTimes id tr recent).foldl touch row.lastUsedAt)

section

variable {app : App} {r : Request} {evs : List Event} {e : Event} {db db' : Db} {id : Uuid}
  {row : SessionRow}

/-- One step: the updates of the row, in the words of `touch`. -/
theorem touched_step (hstep : ProtocolStep app r evs e db db')
    (hrow : sessionsSelectById id db.sessions = some row) :
    ∃ row', sessionsSelectById id db'.sessions = some row' ∧ Later row row' ∧
      (row'.revokedAt = none → row.revokedAt = none ∧
        row'.lastUsedAt = (if e = .committed (.sessionActivity id) then
            ((clockReading evs).map Time.timePointTz).toList
          else []).foldl touch row.lastUsedAt) := by
  obtain ⟨row', hrow', hlater, hkept⟩ := hasNext_step hstep hrow
  refine ⟨row', hrow', hlater, fun hactive => ?_⟩
  by_cases he : e = .committed (.sessionActivity id)
  · subst he
    obtain ⟨t, claims, session, now, user, rfl, _, hdb⟩ := commits_sessionActivity hstep.commits
    obtain ⟨row₁, hrow₁, htouched⟩ := select_touched hrow hdb
    obtain rfl := Option.some.inj (hrow'.symm.trans hrow₁)
    rw [if_pos rfl]
    exact htouched hactive
  · rw [if_neg he]
    exact ⟨hlater.active hactive, hkept he⟩

end

/-- What the updates of a stretch make of a row. -/
theorem touched_of_steps {app : App} {s' : SysState}
    (hs : Reachable app.run A I s) (h : Steps app.run A s s')
    (hrow : sessionsSelectById id s.store.sessions = some row) : Touched id row s.trace s' := by
  refine Steps.rule (J := fun s' : SysState => Touched id row s.trace s') (app_refines app)
    (fun _ _ _ _ hJ _ _ => hJ) ?_ hs h
    ⟨[], row, (List.append_nil _).symm, hrow, .refl row, fun hactive => ⟨hactive, rfl⟩⟩
  intro s₁ c r p p' e db _ hJ _ _ _ hstep
  obtain ⟨recent, row₁, htr, hrow₁, hlater, hused⟩ := hJ
  obtain ⟨row₂, hrow₂, hlater', hused'⟩ := touched_step hstep hrow₁
  refine ⟨recent ++ [(c, e)], row₂, ?_, hrow₂, hlater.trans hlater', fun hactive => ?_⟩
  · rw [State.advance, htr, List.append_assoc]
  · obtain ⟨hactive₁, hused₂⟩ := hused' hactive
    obtain ⟨hactive₀, hused₁⟩ := hused hactive₁
    refine ⟨hactive₀, ?_⟩
    rw [updateTimes_snoc, List.foldl_append, ← hused₁, hused₂, htr]

/-! ### The bound -/

/-- `last_used_at` is less than the threshold before `now`, and with the threshold 0 less than a
microsecond. -/
def Fresh (lastUsedAt : Option Time) (now : Time) (threshold : Seconds) : Prop :=
  ∃ t, lastUsedAt = some t ∧ now < t + max threshold.nanos 1000

/-- A later use is fresh as well. -/
theorem Fresh.later {a b : Option Time}
    (h : Fresh a now threshold) (hab : NotEarlier a b) : Fresh b now threshold := by
  obtain ⟨t, ht, hrecent⟩ := h
  obtain ⟨t', ht', hle⟩ := hab t ht
  exact ⟨t', ht', lt_of_lt_of_le hrecent (Int.add_le_add_right hle _)⟩

/-- What was bound at `now` is fresh at `now`. -/
theorem fresh_of_bound {lastUsedAt : Option Time}
    (h : NotEarlier (some now.timePointTz) lastUsedAt) : Fresh lastUsedAt now threshold := by
  obtain ⟨t, ht, hle⟩ := h _ rfl
  refine ⟨t, ht, lt_of_lt_of_le (Time.lt_timePointTz_add now) ?_⟩
  exact add_le_add hle (le_max_right _ _)

/-- So is what needs no update. -/
theorem fresh_of_not_due
    (hread : ∀ t, session.lastUsedAt = some t → SignedWord.Fits 64 t) (hd : 0 ≤ threshold)
    (h : shouldUpdateLastUsed session now threshold = false) :
    Fresh session.lastUsedAt now threshold := by
  unfold shouldUpdateLastUsed at h
  split at h
  · cases h
  · rename_i t ht
    have hlt : now < t.plus threshold := Int.not_le.mp (of_decide_eq_false h)
    refine ⟨t, ht, lt_of_lt_of_le hlt (le_trans (Time.plus_le (hread t ht) hd) ?_)⟩
    exact Int.add_le_add_left (le_max_left _ _) t

/-- When an authentication has succeeded on a session that is active, its row is fresh. -/
theorem fresh_of_authenticated {app : App}
    (hs : Reachable app.run A I s)
    (hrow : sessionsSelectById id s.store.sessions = some row) (hactive : row.revokedAt = none)
    {c : Nat} {p : AuthRuntimePolicies} {token : Str} {userId : Uuid}
    (hread : ∀ session t, (c, .foundSession (some session)) ∈ s.trace →
      session.lastUsedAt = some t → SignedWord.Fits 64 t)
    (hd : 0 ≤ p.session.activityUpdateThreshold)
    (hcall : s.calls c = some ⟨⟨p, .authenticateAccessToken token⟩,
      .done (.authenticated ⟨userId, id⟩)⟩)
    (hclock : (c, .clock now) ∈ s.trace) :
    Fresh row.lastUsedAt now p.session.activityUpdateThreshold := by
  have hend := (hs.finish (app_refines app) hcall).1
  generalize hown : own c s.trace = evs at hend
  have hmem : Event.clock now ∈ evs := hown ▸ mem_own.mpr hclock
  cases hend with
  | @accessUpdated _ _ t claims session now' user hchecked =>
    have hnow : now = now' := by simpa [accessEvents] using hmem
    obtain ⟨row', hrow', hused⟩ := activityInv_of_reachable hs c t claims session now' user hown
    rw [hchecked.id] at hrow'
    obtain rfl := Option.some.inj (hrow.symm.trans hrow')
    exact hnow ▸ fresh_of_bound (hused hactive)
  | @accessRecent _ _ t claims session now' user hchecked hrecent =>
    have hnow : now = now' := by simpa [accessEvents] using hmem
    have hfound : (c, Event.foundSession (some session)) ∈ s.trace := by
      rw [← mem_own, hown]
      simp [accessEvents]
    have hfits := fun t => hread session t hfound
    obtain ⟨found, row', rfl, hrow', hlater⟩ := foundInv_of_reachable hs c session hfound
    rw [hchecked.id] at hrow'
    obtain rfl := Option.some.inj (hrow.symm.trans hrow')
    exact hnow ▸ (fresh_of_not_due hfits hd hrecent).later hlater.lastUsed
  | other h => cases h

/-- The row after the statements `sessions_update_last_used` with these times. -/
def applyUpdates (id : Uuid) (times : List Time) (row : SessionRow) : SessionRow :=
  times.foldl (fun row now => (sessionsUpdateLastUsed id now).apply row) row

/-- The updates on an active row, as a fold over their times. -/
theorem applyUpdates_lastUsedAt (hid : row.id = id)
    (hactive : row.revokedAt = none) (times : List Time) :
    (applyUpdates id times row).lastUsedAt = times.foldl touch row.lastUsedAt := by
  induction times generalizing row with
  | nil => rfl
  | cons now times ih =>
    have hcond : (sessionsUpdateLastUsed id now).cond row = true := by
      simp [sessionsUpdateLastUsed, hid, hactive]
    show (applyUpdates id times ((sessionsUpdateLastUsed id now).apply row)).lastUsedAt = _
    rw [Sql.Update.apply_pos hcond]
    exact ih hid hactive

/-- A row of `sessions` in a run of the service, from a state `s` to a later state `s'`. What a
call reads from `last_used_at` is a 64-bit time point. `last_used_at` does not decrease. It stays
fresh for every authentication that has succeeded before the session was revoked. And while the
session is active it is what the updates in between make of it, in whatever order they are
applied. -/
theorem sessionActivity_monotone_fresh (app : App) (A : SysAdmission) (I : Db → Prop)
    (s s' : SysState) (hs : Reachable app.run A I s) (hsteps : Steps app.run A s s') (id : Uuid)
    (row : SessionRow) (hrow : sessionsSelectById id s.store.sessions = some row)
    (hread : ∀ c session t, (c, .foundSession (some session)) ∈ s.trace →
      session.lastUsedAt = some t → SignedWord.Fits 64 t) :
    ∃ recent row', s'.trace = s.trace ++ recent ∧
      sessionsSelectById id s'.store.sessions = some row' ∧
      NotEarlier row.lastUsedAt row'.lastUsedAt ∧
      (row.revokedAt = none → ∀ c p token userId now,
        s.calls c = some ⟨⟨p, .authenticateAccessToken token⟩,
          .done (.authenticated ⟨userId, id⟩)⟩ →
        (c, .clock now) ∈ s.trace → 0 ≤ p.session.activityUpdateThreshold →
        Fresh row'.lastUsedAt now p.session.activityUpdateThreshold) ∧
      (row'.revokedAt = none → ∀ times, times.Perm (updateTimes id s.trace recent) →
        row'.lastUsedAt = (applyUpdates id times row).lastUsedAt) := by
  obtain ⟨recent, row', htr, hrow', hlater, hused⟩ := touched_of_steps hs hsteps hrow
  refine ⟨recent, row', htr, hrow', hlater.lastUsed, ?_, ?_⟩
  · intro hactive c p token userId now hcall hclock hd
    have hfresh := fresh_of_authenticated hs hrow hactive (hread c) hd hcall hclock
    exact hfresh.later hlater.lastUsed
  · intro hactive times hperm
    obtain ⟨hactive₀, hfold⟩ := hused hactive
    rw [applyUpdates_lastUsedAt (id_of_select hrow) hactive₀, hfold, foldl_touch_perm hperm]

/-- The call is an authentication with this threshold that has returned the context. -/
def authenticated (s : SysState) (c : Nat) (context : AuthContext) (threshold : Seconds) : Bool :=
  match s.calls c with
  | some ⟨⟨p, .authenticateAccessToken _⟩, .done (.authenticated result)⟩ =>
      result == context && p.session.activityUpdateThreshold == threshold
  | _ => false

/-- A call that has authenticated its context under a threshold. -/
theorem authenticated_iff {c : Nat} {context : AuthContext} :
    authenticated s c context threshold = true ↔
      ∃ p token, s.calls c = some ⟨⟨p, .authenticateAccessToken token⟩,
        .done (.authenticated context)⟩ ∧ p.session.activityUpdateThreshold = threshold := by
  unfold authenticated
  constructor
  · intro h
    split at h
    · rename_i p token result hcall
      simp only [Bool.and_eq_true, beq_iff_eq] at h
      obtain ⟨rfl, hthreshold⟩ := h
      exact ⟨p, token, hcall, hthreshold⟩
    · cases h
  · rintro ⟨p, token, hcall, rfl⟩
    simp [hcall]

/-- A session that was opened at time zero. -/
def openedDb : Db :=
  ((plainApp.run (signInUnitUser "old_password")).solo (fun n => (signInInputs ⟨1⟩ ⟨2⟩).getD n {})
    unitDb).store

/-- An authentication with the access token of that session. -/
def authenticateUnitUser (policies : AuthRuntimePolicies) : Request :=
  ⟨policies, .authenticateAccessToken
    (plainTokenProvider.generateTokens unitUser.id ⟨1⟩ ⟨2⟩ 0).accessToken⟩

/-- Two authentications. The one with the later clock ends first. -/
def laterClockFirst : List (Move Input Request) :=
  [.start 0 (authenticateUnitUser hourSessions), .start 1 (authenticateUnitUser hourSessions)] ++
    acts 1 [{}, {}, { now := seconds 600 }, {}] ++ acts 0 [{}, {}, { now := seconds 900 }, {}, {}]

/-- What the calls of a state have read from `last_used_at` are 64-bit time points. -/
def readsFit (tr : Trace) : Bool :=
  tr.all fun p => match p.2 with
    | .foundSession (some session) =>
        session.lastUsedAt.all fun t => decide (SignedWord.Fits 64 t)
    | _ => true

/-- A time that a call has read fits the clock. -/
theorem fits_of_readsFit {tr : Trace} (h : readsFit tr = true) {c : Nat}
    {t : Time} (hmem : (c, .foundSession (some session)) ∈ tr)
    (ht : session.lastUsedAt = some t) : SignedWord.Fits 64 t := by
  have hfits := List.all_eq_true.mp h _ hmem
  simpa [ht] using hfits

/-- The second one writes an earlier time, and the later one stays. -/
theorem sessionActivity_monotone_fresh_reordered : ∃ s s' row row',
    Reachable plainApp.run anyRun (· = openedDb) s ∧ Steps plainApp.run anyRun s s' ∧
      sessionsSelectById ⟨1⟩ s.store.sessions = some row ∧
      sessionsSelectById ⟨1⟩ s'.store.sessions = some row' ∧
      updateTimes ⟨1⟩ s.trace [(1, .committed (.sessionActivity ⟨1⟩))] = [seconds 600] ∧
      Fresh row'.lastUsedAt (seconds 900) 300 ∧ row'.lastUsedAt = some (seconds 900) := by
  obtain ⟨s, s', hreach, hsteps, ⟨hcall, hfits, hclock, htimes, row, hrow, hactive, hused⟩, htr,
    row₁, hrow₁, hactive'⟩ := exists_steps_of_replay (M := plainApp.run) (A := anyRun)
    (I := (· = openedDb)) laterClockFirst (acts 1 [{}])
    (fun s s' => (authenticated s 0 ⟨unitUser.id, ⟨1⟩⟩ 300 ∧ readsFit s.trace ∧
      (0, .clock (seconds 900)) ∈ s.trace ∧
      updateTimes ⟨1⟩ s.trace [(1, .committed (.sessionActivity ⟨1⟩))] = [seconds 600] ∧
      ∃ row ∈ sessionsSelectById ⟨1⟩ s.store.sessions, row.revokedAt = none ∧
        row.lastUsedAt = some (seconds 900)) ∧
      s'.trace = s.trace ++ [(1, .committed (.sessionActivity ⟨1⟩))] ∧
      ∃ row' ∈ sessionsSelectById ⟨1⟩ s'.store.sessions, row'.revokedAt = none) rfl
    (by decide +kernel)
  obtain ⟨p, token, hdone, hthreshold⟩ := authenticated_iff.mp hcall
  obtain ⟨recent, row', htr', hrow', _, hfresh, hupdates⟩ :=
    sessionActivity_monotone_fresh plainApp anyRun (· = openedDb) s s' hreach hsteps ⟨1⟩ row hrow
      fun _ _ _ hmem ht => fits_of_readsFit hfits hmem ht
  obtain rfl := List.append_cancel_left (htr.symm.trans htr')
  obtain rfl := Option.some.inj (hrow'.symm.trans hrow₁)
  have hkept := hfresh hactive 0 p token unitUser.id (seconds 900) hdone hclock
    (by rw [hthreshold]; decide)
  rw [hthreshold] at hkept
  refine ⟨s, s', row, row', hreach, hsteps, hrow, hrow', htimes, hkept, ?_⟩
  rw [hupdates hactive' [seconds 600] (htimes ▸ .refl _),
    applyUpdates_lastUsedAt (id_of_select hrow) hactive, hused]
  rfl

/-- The policies with the smallest threshold that the parser accepts. -/
def noThreshold : AuthRuntimePolicies :=
  { session := { refreshTokenTtl := 3600, activityUpdateThreshold := 0 } }

/-- With the threshold 0, an authentication writes its clock reading and leaves `last_used_at`
before it: the column has no room for the last nanosecond. -/
theorem sessionActivity_stale : ∃ s row t, ∃ now : Time,
    Reachable plainApp.run anyRun (· = openedDb) s ∧
      sessionsSelectById ⟨1⟩ s.store.sessions = some row ∧ row.revokedAt = none ∧
      authenticated s 0 ⟨unitUser.id, ⟨1⟩⟩ 0 = true ∧ (0, .clock now) ∈ s.trace ∧
      row.lastUsedAt = some t ∧ ¬ (now ≤ t ∨ now < t + Seconds.nanos 0) := by
  obtain ⟨s, hs, hcall, hclock, row, hrow, hactive, hused⟩ := exists_reachable_of_replay
    (M := plainApp.run) (A := anyRun) (I := (· = openedDb))
    (.start 0 (authenticateUnitUser noThreshold) ::
      acts 0 [{}, {}, { now := seconds 600 + 1 }, {}, {}])
    (fun s => authenticated s 0 ⟨unitUser.id, ⟨1⟩⟩ 0 ∧ (0, .clock (seconds 600 + 1)) ∈ s.trace ∧
      ∃ row ∈ sessionsSelectById ⟨1⟩ s.store.sessions, row.revokedAt = none ∧
        row.lastUsedAt = some (seconds 600)) rfl (by decide +kernel)
  exact ⟨s, row, seconds 600, seconds 600 + 1, hs, hrow, hactive, hcall, hclock, hused,
    by decide⟩

end SmirklyAuth
