import SmirklyAuth.Proofs.OutboxDelivery

/-!
# `SmirklyAuth.Proofs.OutboxDeadlines`: sends before the lease runs out

`ClaimBatch` gives all jobs of a batch one deadline, `now + stuck_timeout`, and `Tick` then
sends them one after the other. A slow mail server makes the later sends start after the
deadline, when another worker has claimed the job and sent the same mail
(`sends_twice_after_deadline`).

The sends start in time when the batch is small enough for the server: at most `D` from one
send to the next, and `batch_size · D < stuck_timeout`. Whether a lease has run out is decided by
the worker that claims next, with its own clock and with what the column holds. So the theorem
also asks for one clock that is never set back, for a sum of clock and `stuck_timeout` that does
not overflow, and for fresh lease ids (`timelySends`). Then, whenever a worker starts to send a
job, its lease has not run out, nobody has claimed the job since, and no other worker has started
to send it since (`sends_before_deadline`).
-/

set_option autoImplicit false

namespace SmirklyAuth

open Interleaving

/-! ### The runs -/

/-- The clock reading of a step: that of a call, or that of a send when it starts. -/
def Event.reading : Event → Option Time
  | .clock t => some t
  | .sentEmail _ _ now _ => some now
  | _ => none

/-- The last clock reading of a call. -/
def lastReading (evs : List Event) : Option Time := (evs.filterMap Event.reading).getLast?

/-- A send starts at most `D` microseconds after the last clock reading of its worker. -/
def startsWithin (D : Nat) (evs : List Event) : Event → Bool
  | .sentEmail _ _ now _ => (lastReading evs).all fun t => now ≤ t + (D * 1000 : Nat)
  | _ => true

/-- A clock reading is one between 2020 and 2100, and not before an earlier one of the run. -/
def readsOneClock (tr : Trace) (e : Event) : Bool :=
  e.reading.all fun t => decide (ClockReading t) && tr.all fun p => p.2.reading.all (· ≤ t)

/-- The leases that an event hands out. -/
def Event.claimedLeases : Event → List Uuid
  | .committed (.claimed jobs) => jobs.map (·.leaseId)
  | _ => []

/-- A claim hands out leases that no other claim has handed out. -/
def leasesFresh (tr : Trace) (e : Event) : Bool :=
  e.claimedLeases.all fun leaseId => tr.all fun p => !p.2.claimedLeases.contains leaseId

/-- The time for the whole batch is shorter than the lease, and the end of the lease does not
overflow at any clock reading between 2020 and 2100. -/
def batchFits (D : Nat) (r : Request) : Bool :=
  match r.command with
  | .tick cfg => (cfg.batchSize : Int) * D < cfg.stuckTimeout * 1000000 &&
      cfg.stuckTimeout ≤ longestDeadline
  | _ => true

/-- The runs in which no worker needs more than `D` microseconds from the claim to the first send
and from one send to the next, this leaves time for every batch, all clock readings are those of
one clock, and the leases are fresh. -/
abbrev timelySends (D : Nat) : SysAdmission :=
  admission (fun r => batchFits D r = true) fun s c e =>
    startsWithin D (own c s.trace) e = true ∧ readsOneClock s.trace e = true ∧
      leasesFresh s.trace e = true

/-- At the end of the history, the worker `c` alone holds the job: it has claimed the job, and
since then nobody has claimed it again and no other worker has started to send it. -/
def HoldsAlone (tr : Trace) (c : Nat) (id : Uuid) : Prop :=
  ∃ before jobs after, tr = before ++ (c, .committed (.claimed jobs)) :: after ∧
    id ∈ jobs.map (·.id) ∧
    ∀ q ∈ after, id ∉ q.2.claimedIds ∧ (q.2.sends id = true → q.1 = c)

/-! ### The clock of a worker -/

/-- The invariant of a worker:

- `batch`: its batch has at most `batch_size` jobs;
- `reading`: its last clock reading is at most `D` for each send after the claim;
- `inTime`: every send has started before the lease ran out. -/
structure DeadlineInv (D : Nat) (cfg : EmailOutboxRuntimeConfig) (evs : List Event) : Prop where
  batch : ∀ jobs, .committed (.claimed jobs) ∈ evs → jobs.length ≤ cfg.batchSize
  reading : ∀ t, evs.head? = some (.clock t) →
    ∃ m, lastReading evs = some m ∧ m ≤ t + (evs.countP Event.isSend * (D * 1000) : Nat)
  inTime : ∀ t, evs.head? = some (.clock t) → ∀ id message now error,
    .sentEmail id message now error ∈ evs → now < t + cfg.stuckTimeout.nanos

/-- The last clock reading is that of the last step, if it has one. -/
theorem lastReading_snoc (evs : List Event) (e : Event) :
    lastReading (evs ++ [e]) = e.reading.or (lastReading evs) := by
  unfold lastReading
  rw [List.filterMap_append, List.getLast?_append]
  cases h : e.reading <;> simp [h]

section
variable {app : App} {p : AuthRuntimePolicies} {cfg : EmailOutboxRuntimeConfig} {D : Nat}
  {evs : List Event} {e : Event} {db db' : Db}

/-- A worker starts without events. -/
theorem DeadlineInv.init : DeadlineInv D cfg [] where
  batch _ hmem := nomatch hmem
  reading _ hhead := nomatch hhead
  inTime _ hhead := nomatch hhead

/-- A step that reads no clock keeps the readings and the sends. -/
theorem DeadlineInv.quiet (h : DeadlineInv D cfg evs) (hreading : e.reading = none)
    (hbatch : ∀ jobs, e = .committed (.claimed jobs) → jobs.length ≤ cfg.batchSize) :
    DeadlineInv D cfg (evs ++ [e]) := by
  have hsend : e.isSend = false := by
    cases e <;> first | rfl | cases hreading
  have hhead : ∀ t, (evs ++ [e]).head? = some (.clock t) → evs.head? = some (.clock t) := by
    intro t hclock
    cases evs with
    | nil =>
      cases hclock
      cases hreading
    | cons a evs => exact hclock
  constructor
  · intro jobs hmem
    rcases List.mem_append.mp hmem with hmem | hmem
    · exact h.batch jobs hmem
    · exact hbatch jobs (List.mem_singleton.mp hmem).symm
  · intro t hclock
    rw [lastReading_snoc, hreading, Option.none_or, List.countP_append,
      List.countP_eq_zero.mpr (by simp [hsend] : ∀ a ∈ [e], ¬ a.isSend = true), Nat.add_zero]
    exact h.reading t (hhead t hclock)
  · intro t hclock id message now error hmem
    rcases List.mem_append.mp hmem with hmem | hmem
    · exact h.inTime t (hhead t hclock) id message now error hmem
    · rw [← List.mem_singleton.mp hmem] at hreading
      cases hreading

/-- `k` intervals of at most `D`, then one more: the sum stays below the time for `n` of them. -/
theorem interval_sum_le {t m now : Int} {k n D : Nat} (hbound : m ≤ t + (k * D : Nat))
    (hnow : now ≤ m + D) (hk : k + 1 ≤ n) :
    now ≤ t + ((k + 1) * D : Nat) ∧ now ≤ t + (n * D : Nat) := by
  have hmul : (k + 1) * D ≤ n * D := Nat.mul_le_mul_right D hk
  have hsucc : (k + 1) * D = k * D + D := Nat.succ_mul k D
  omega

/-- The next send of a worker starts at most `D` for each job of the batch after the claim. -/
theorem DeadlineInv.send_le {t : Time} {done rest : List EmailOutboxEntry} {job : EmailOutboxEntry}
    {message : EmailMessage} {now : Time} {error : Option (Str × Bool)}
    (h : DeadlineInv D cfg (tickEvents t (done ++ job :: rest) evs)) (htreated : Treated done evs)
    (hwithin : startsWithin D (tickEvents t (done ++ job :: rest) evs)
      (.sentEmail job.id message now error) = true) :
    now ≤ t + ((evs.countP Event.isSend + 1) * (D * 1000) : Nat) ∧
      now ≤ t + ((done ++ job :: rest).length * (D * 1000) : Nat) := by
  obtain ⟨m, hm, hbound⟩ := h.reading t rfl
  have hnow : now ≤ m + (D * 1000 : Nat) := by
    simpa [startsWithin, hm] using hwithin
  have hcount : (tickEvents t (done ++ job :: rest) evs).countP Event.isSend =
      evs.countP Event.isSend := rfl
  rw [hcount] at hbound
  -- this is one more send, and the batch has a job for each
  have hjobs : evs.countP Event.isSend + 1 ≤ (done ++ job :: rest).length := by
    have htaken := htreated.count
    rw [List.length_append, List.length_cons]
    omega
  exact interval_sum_le hbound hnow hjobs

/-- The time for a batch is shorter than the lease. -/
theorem batch_lt_stuckTimeout {n size D : Nat} {S : Int} (hn : n ≤ size)
    (hfits : (size : Int) * D < S * 1000000) :
    ((n * (D * 1000) : Nat) : Int) < Seconds.nanos S := by
  have hmul : n * D ≤ size * D := Nat.mul_le_mul_right D hn
  have hsize : ((size * D : Nat) : Int) < S * 1000000 := by
    push_cast
    exact hfits
  have hassoc : n * (D * 1000) = n * D * 1000 := (Nat.mul_assoc n D 1000).symm
  show ((n * (D * 1000) : Nat) : Int) < S * 1000000000
  omega

/-- The next send of a worker starts in time. -/
theorem DeadlineInv.send {t : Time} {done rest : List EmailOutboxEntry} {job : EmailOutboxEntry}
    {message : EmailMessage} {now : Time} {error : Option (Str × Bool)}
    (h : DeadlineInv D cfg (tickEvents t (done ++ job :: rest) evs)) (htreated : Treated done evs)
    (hfits : (cfg.batchSize : Int) * D < cfg.stuckTimeout * 1000000)
    (hwithin : startsWithin D (tickEvents t (done ++ job :: rest) evs)
      (.sentEmail job.id message now error) = true) :
    DeadlineInv D cfg (tickEvents t (done ++ job :: rest) evs ++
      [.sentEmail job.id message now error]) := by
  obtain ⟨hnext, hlast⟩ := h.send_le htreated hwithin
  have hlength := h.batch (done ++ job :: rest) (.tail _ (.head _))
  have hstart : now < t + cfg.stuckTimeout.nanos :=
    lt_of_le_of_lt hlast (Int.add_lt_add_left (batch_lt_stuckTimeout hlength hfits) t)
  constructor
  · intro jobs hmem
    rcases List.mem_append.mp hmem with hmem | hmem
    · exact h.batch jobs hmem
    · cases List.mem_singleton.mp hmem
  · intro t' hclock
    cases hclock
    refine ⟨now, by rw [lastReading_snoc]; rfl, ?_⟩
    rw [List.countP_append]
    exact hnext
  · intro t' hclock id message' now' error' hmem
    cases hclock
    rcases List.mem_append.mp hmem with hmem | hmem
    · exact h.inTime t rfl id message' now' error' hmem
    · cases List.mem_singleton.mp hmem
      exact hstart

/-- Every step of a worker keeps the invariant. -/
theorem DeadlineInv.step (h : DeadlineInv D cfg evs)
    (hfits : (cfg.batchSize : Int) * D < cfg.stuckTimeout * 1000000)
    (hwithin : startsWithin D evs e = true) (hnodup : (db.emailOutbox.map (·.id)).Nodup)
    (hstep : ProtocolStep app ⟨p, .tick cfg⟩ evs e db db') (htick : TickStep cfg evs e db db') :
    DeadlineInv D cfg (evs ++ [e]) := by
  cases he : e.reading with
  | none =>
    refine h.quiet he fun jobs hclaimed => ?_
    subst hclaimed
    exact (claimed_batch hnodup hstep).1
  | some m =>
    cases e with
    | clock now =>
      -- the clock is read before all other steps
      cases htick with
      | aborted hab => cases hab
      | treats _ hjob =>
        cases hjob with
        | recorded hrecord => cases hrecord
      | clock =>
        constructor
        · intro jobs hmem
          cases List.mem_singleton.mp hmem
        · intro t hclock
          cases hclock
          exact ⟨now, rfl, by simp [Event.isSend]⟩
        · intro t _ id message now error hmem
          cases List.mem_singleton.mp hmem
    | sentEmail id message now error =>
      obtain ⟨t, done, job, rest, evs₀, rfl, htreated, rfl, _⟩ := htick.of_sentEmail
      exact h.send htreated hfits hwithin
    | _ => cases he

end

/-- The conditions on the configuration of a worker. -/
theorem batchFits_tick {D : Nat} {p : AuthRuntimePolicies} {cfg : EmailOutboxRuntimeConfig}
    (h : batchFits D ⟨p, .tick cfg⟩ = true) :
    (cfg.batchSize : Int) * D < cfg.stuckTimeout * 1000000 ∧
      cfg.stuckTimeout ≤ longestDeadline := by
  unfold batchFits at h
  simpa using h

/-- The invariant of every worker, in every run with timely sends. -/
theorem deadlineInv_of_reachable {app : App} {D : Nat} {s : SysState}
    (hs : Reachable app.run (timelySends D) Seed s) :
    ∀ c p cfg prog, s.calls c = some ⟨⟨p, .tick cfg⟩, prog⟩ →
      DeadlineInv D cfg (own c s.trace) := by
  have hcalls := Reachable.call_invariant (A := timelySends D)
    (J := fun r evs => ∀ p cfg, r = ⟨p, .tick cfg⟩ → DeadlineInv D cfg evs)
    ((app_refines app).inter (app_refinesTick app)) (fun _ _ _ _ _ => .init) ?_ hs
  · intro c p cfg prog hcall
    exact hcalls c _ hcall p cfg rfl
  · rintro s d c r e hs hJ hstart ⟨_, hwithin, _, _⟩ ⟨hstep, htick⟩ p cfg rfl
    exact (hJ p cfg rfl).step (batchFits_tick hstart).1 hwithin (outboxIds_of_reachable hs)
      hstep htick

/-! ### The lease of a job -/

/-- The row of the job is under the lease of the job until `L`. -/
def EmailOutboxEntry.HeldUntil (db : Db) (job : EmailOutboxEntry) (L : Time) : Prop :=
  ∃ j ∈ db.emailOutbox, j.leasedBy job.id job.leaseId = true ∧ j.lockedUntil = some L

/-- A clock reading of the run has reached `L`. -/
def Reached (tr : Trace) (L : Time) : Prop :=
  ∃ q ∈ tr, ∃ m, q.2.reading = some m ∧ L ≤ m.timePointTz

/-- The invariant of the leases. A job that its worker has not touched since the claim is still
under its lease, and nobody has claimed it since, or the clock has reached the end of the lease.
The end is later than the time for the whole batch. -/
def HeldInv (D : Nat) (db : Db) (tr : Trace) : Prop :=
  ∀ before c jobs after, tr = before ++ (c, .committed (.claimed jobs)) :: after →
    ∀ job ∈ jobs, (∀ e ∈ own c after, e.touches ≠ some job.id) →
      ∃ t L : Time, own c before = [.clock t] ∧
        t.timePointTz + (jobs.length * (D * 1000) : Nat) < L ∧
        ((job.HeldUntil db L ∧ ∀ q ∈ after, job.id ∉ q.2.claimedIds) ∨ Reached tr L)

/-- The invariant of the sends:

- `readings`: every clock reading is one between 2020 and 2100;
- `fresh`: a lease belongs to one worker;
- `held`: the leases are held;
- `alone`: every worker that has started to send a job held it alone. -/
structure SendsAlone (D : Nat) (db : Db) (tr : Trace) : Prop where
  readings : ∀ q ∈ tr, ∀ t, q.2.reading = some t → ClockReading t
  fresh : ∀ q ∈ tr, ∀ q' ∈ tr, ∀ l, l ∈ q.2.claimedLeases → l ∈ q'.2.claimedLeases → q.1 = q'.1
  held : HeldInv D db tr
  alone : ∀ before c id message now error after,
    tr = before ++ (c, .sentEmail id message now error) :: after → HoldsAlone before c id

section
variable {app : App} {D : Nat} {r : Request} {db db' : Db} {tr : Trace} {c : Nat} {e : Event}

/-- A run starts without events. -/
theorem SendsAlone.init : SendsAlone D db [] where
  readings _ hmem := nomatch hmem
  fresh _ hmem := nomatch hmem
  held before _ _ _ htr := by simp at htr
  alone before _ _ _ _ _ _ htr := by simp at htr

/-- A clock reading is in range and not before an earlier one. -/
theorem reading_of_readsOneClock {t : Time} (h : readsOneClock tr e = true)
    (ht : e.reading = some t) :
    ClockReading t ∧ ∀ q ∈ tr, ∀ m, q.2.reading = some m → m ≤ t := by
  unfold readsOneClock at h
  rw [ht, Option.all_some, Bool.and_eq_true, decide_eq_true_eq, List.all_eq_true] at h
  refine ⟨h.1, fun q hq m hm => ?_⟩
  have hle := h.2 q hq
  rw [hm, Option.all_some, decide_eq_true_eq] at hle
  exact hle

/-- What has been reached stays reached. -/
theorem Reached.snoc {L : Time} (h : Reached tr L) (q : Nat × Event) : Reached (tr ++ [q]) L := by
  obtain ⟨q', hq', m, hm, hle⟩ := h
  exact ⟨q', List.mem_append_left _ hq', m, hm, hle⟩

/-- No claim before has handed out a lease of the event. -/
theorem not_claimed_of_leasesFresh (h : leasesFresh tr e = true) :
    ∀ q ∈ tr, ∀ l, l ∈ e.claimedLeases → l ∉ q.2.claimedLeases := by
  intro q hq l hl
  simpa using List.all_eq_true.mp (List.all_eq_true.mp h l hl) q hq

/-- A claim puts its jobs under their leases, until after the time for the whole batch. -/
theorem SendsAlone.held_of_claim (h : SendsAlone D db tr) (hr : batchFits D r = true)
    (hnodup : (db.emailOutbox.map (·.id)).Nodup) {jobs : List EmailOutboxEntry}
    (hstep : ProtocolStep app r (own c tr) (.committed (.claimed jobs)) db db')
    {job : EmailOutboxEntry} (hjob : job ∈ jobs) :
    ∃ t L : Time, own c tr = [.clock t] ∧ t.timePointTz + (jobs.length * (D * 1000) : Nat) < L ∧
      job.HeldUntil db' L := by
  obtain ⟨p, cfg, i, now, rfl, hown, j, _, _, hrow, rfl⟩ :=
    (step_outbox hstep).entry hnodup hjob
  obtain ⟨hfits, hlongest⟩ := batchFits_tick hr
  have hclock : (c, .clock now) ∈ tr := mem_own.mp (by rw [hown]; exact .head _)
  have hreading := h.readings _ hclock now rfl
  have hbatch := batch_lt_stuckTimeout (claimed_batch hnodup hstep).1 hfits
  have hpositive : 0 ≤ cfg.stuckTimeout := by
    have hzero : (0 : Int) ≤ cfg.batchSize * D := by positivity
    have hlt : (0 : Int) < cfg.stuckTimeout * 1000000 := lt_of_le_of_lt hzero hfits
    exact le_of_lt (Int.pos_of_mul_pos_left hlt (by decide))
  refine ⟨now, (now.plus cfg.stuckTimeout).timePointTz, hown, ?_, j.handOut i cfg now, hrow,
    ?_, rfl⟩
  · rw [hreading.plus_eq hpositive hlongest, Time.timePointTz_add_nanos]
    exact Int.add_lt_add_left hbatch _
  · simp [OutboxJob.leasedBy, OutboxJob.handOut, OutboxJob.toEntry]

/-- A job that is held stays held, unless its worker stores a result or the clock has reached the
end of the lease. -/
theorem SendsAlone.held_step (h : SendsAlone D db tr)
    (hnodup : (db.emailOutbox.map (·.id)).Nodup)
    (hstep : ProtocolStep app r (own c tr) e db db') {c' : Nat} {jobs : List EmailOutboxEntry}
    (hclaimed : (c', .committed (.claimed jobs)) ∈ tr) {job : EmailOutboxEntry}
    (hjob : job ∈ jobs) (hquiet : c = c' → e.touches ≠ some job.id) {L : Time}
    (hheld : job.HeldUntil db L) :
    (job.HeldUntil db' L ∧ job.id ∉ e.claimedIds) ∨ Reached tr L := by
  obtain ⟨j, hj, hleased, hlocked⟩ := hheld
  have hjid : j.id = job.id ∧ j.leaseId = some job.leaseId := by
    simp only [OutboxJob.leasedBy, Bool.and_eq_true, beq_iff_eq] at hleased
    exact hleased.1
  have htable := step_outbox hstep
  obtain ⟨j', hj', hid'⟩ := htable.keeps hnodup hj
  -- the row of the job after the step comes from the row before it
  have hsame : ∀ k ∈ db.emailOutbox, k.id = j'.id → k = j := fun k hk hkid =>
    List.inj_on_of_nodup_map hnodup hk hj (hkid.trans hid')
  cases htable.row hnodup hj' with
  | same hold hids =>
    have heq := hsame j' hold rfl
    subst heq
    exact .inl ⟨⟨j', hj', hleased, hlocked⟩, by rw [← hjid.1]; exact hids⟩
  | enqueued hnew _ _ _ => exact absurd hid'.symm (hnew j hj)
  | @claimed p cfg i now k hr hevs hk _ hdue hrow =>
    -- the job was due, so the worker has read a time at which the lease had run out
    have heq := hsame k hk (by rw [hrow]; rfl)
    subst heq
    simp only [OutboxJob.claimable, Bool.and_eq_true, hlocked, Option.all_some,
      decide_eq_true_eq] at hdue
    exact .inr ⟨(c, .clock now), mem_own.mp (by rw [hevs]; exact .head _), now, rfl, hdue.2⟩
  | @stored p cfg job' k hr htook hk hleased' _ hid _ he =>
    -- the worker of the lease has stored a result
    have heq := hsame k hk hid.symm
    subst heq
    have hk' : k.id = job'.id ∧ k.leaseId = some job'.leaseId := by
      simp only [OutboxJob.leasedBy, Bool.and_eq_true, beq_iff_eq] at hleased'
      exact hleased'.1
    obtain ⟨jobs', hclaimed', hjob'⟩ := htook
    have hlease : job'.leaseId = job.leaseId := Option.some.inj (hk'.2.symm.trans hjid.2)
    have hcc : c = c' := h.fresh _ (mem_own.mp hclaimed') _ hclaimed job.leaseId
      (hlease ▸ List.mem_map_of_mem hjob') (List.mem_map_of_mem hjob)
    refine absurd ?_ (hquiet hcc)
    have hjobs : job'.id = job.id := hk'.1.symm.trans hjid.1
    rw [← hjobs]
    exact Event.touches_of_transition he

/-- Every step keeps the leases. -/
theorem SendsAlone.held_snoc (h : SendsAlone D db tr) (hr : batchFits D r = true)
    (hnodup : (db.emailOutbox.map (·.id)).Nodup)
    (hstep : ProtocolStep app r (own c tr) e db db') : HeldInv D db' (tr ++ [(c, e)]) := by
  intro before c' jobs after htr job hjob hquiet
  rcases Journal.snoc_eq_append_cons htr with ⟨rfl, heq, rfl⟩ | ⟨after', rfl, rfl⟩
  · -- the claim is the last step
    cases heq
    obtain ⟨t, L, hown, hlate, hheld⟩ := h.held_of_claim hr hnodup hstep hjob
    exact ⟨t, L, hown, hlate, .inl ⟨hheld, fun _ hmem => nomatch hmem⟩⟩
  · -- the claim is older, and the step has not touched the job for its worker
    have hquiet₀ : ∀ a ∈ own c' after', a.touches ≠ some job.id := by
      intro a ha
      exact hquiet a (by rw [own_append]; exact List.mem_append_left _ ha)
    obtain ⟨t, L, hown, hlate, hstate⟩ := h.held before c' jobs after' rfl job hjob hquiet₀
    refine ⟨t, L, hown, hlate, ?_⟩
    rcases hstate with ⟨hheld, hnone⟩ | hreached
    · have hlast : c = c' → e.touches ≠ some job.id := by
        rintro rfl
        exact hquiet e (by simp)
      rcases h.held_step hnodup hstep (by simp) hjob hlast hheld with ⟨hheld', hids⟩ | hreached
      · refine .inl ⟨hheld', fun q hq => ?_⟩
        rcases List.mem_append.mp hq with hq | hq
        · exact hnone q hq
        · rw [List.mem_singleton.mp hq]
          exact hids
      · exact .inr (hreached.snoc _)
    · exact .inr (hreached.snoc _)

/-- No other worker has started to send a job since the claim: it held the job alone then, and
now the job is with the later claim. -/
theorem SendsAlone.not_sent (h : SendsAlone D db tr) {before after : Trace}
    {jobs : List EmailOutboxEntry} {id : Uuid}
    (htr : tr = before ++ (c, .committed (.claimed jobs)) :: after) (hid : id ∈ jobs.map (·.id))
    (hnone : ∀ q ∈ after, id ∉ q.2.claimedIds) :
    ∀ q ∈ after, q.2.sends id = true → q.1 = c := by
  rintro ⟨c', a⟩ hq hsends
  by_contra hne
  cases a with
  | sentEmail id' message now error =>
    have hid' : id' = id := beq_iff_eq.mp hsends
    subst hid'
    obtain ⟨after₁, after₂, rfl⟩ := List.append_of_mem hq
    have hsplit : tr = (before ++ (c, .committed (.claimed jobs)) :: after₁) ++
        (c', .sentEmail id' message now error) :: after₂ := by simp [htr]
    obtain ⟨before', jobs', rest, heq, hid₁, hrest⟩ := h.alone _ c' id' _ _ _ _ hsplit
    have hdifferent : (c, Event.committed (.claimed jobs)) ≠ (c', .committed (.claimed jobs')) :=
      fun hsame => hne (Prod.mk.inj hsame).1.symm
    rcases Journal.mem_or_mem_of_append_cons heq hdifferent with hmem | hmem
    · -- the other worker claimed the job later
      exact hnone _ (List.mem_append_left _ hmem) hid₁
    · -- the other worker claimed the job before, and then this worker did
      exact (hrest _ hmem).1 hid
  | _ => cases hsends

/-- A worker that starts to send a job holds it alone. -/
theorem SendsAlone.holdsAlone (h : SendsAlone D db tr) {cfg : EmailOutboxRuntimeConfig}
    (hdeadline : DeadlineInv D cfg (own c tr)) (hbatch : ∀ jobs,
      .committed (.claimed jobs) ∈ own c tr → (jobs.map (·.id)).Nodup)
    {id : Uuid} {message : EmailMessage} {now : Time} {error : Option (Str × Bool)}
    (hwithin : startsWithin D (own c tr) (.sentEmail id message now error) = true)
    (hclock : readsOneClock tr (.sentEmail id message now error) = true)
    (htick : TickStep cfg (own c tr) (.sentEmail id message now error) db db') :
    HoldsAlone tr c id := by
  obtain ⟨t, done, job, rest, evs₀, hown, htreated, rfl, _⟩ := htick.of_sentEmail
  have hnodup := hbatch (done ++ job :: rest) (by rw [hown]; exact .tail _ (.head _))
  rw [hown] at hdeadline hwithin
  obtain ⟨before, after, rfl, hbefore, hafter⟩ := exists_of_own_eq
    (show own c tr = [.clock t] ++ .committed (.claimed (done ++ job :: rest)) :: evs₀ from hown)
  have hjob : job ∈ done ++ job :: rest := by simp
  obtain ⟨t', L, ht', hlate, hstate⟩ := h.held before c _ after rfl job hjob fun a ha =>
    htreated.not_touched hnodup (hafter ▸ ha)
  cases hbefore.symm.trans ht'
  rcases hstate with ⟨_, hnone⟩ | ⟨q, hq, m, hm, hreached⟩
  · have hid : job.id ∈ (done ++ job :: rest).map (·.id) := List.mem_map_of_mem hjob
    exact ⟨before, _, after, rfl, hid, fun q hq =>
      ⟨hnone q hq, h.not_sent rfl hid hnone q hq⟩⟩
  · -- the clock has not reached the end of the lease yet
    exfalso
    have hnow : m ≤ now := (reading_of_readsOneClock hclock rfl).2 q hq m hm
    have hend := (hdeadline.send_le htreated hwithin).2
    have hmicros : now.timePointTz ≤
        t.timePointTz + ((done ++ job :: rest).length * (D * 1000) : Nat) := by
      refine le_trans (Time.timePointTz_mono hend) (le_of_eq ?_)
      rw [← Nat.mul_assoc]
      exact Time.timePointTz_add_micros t _
    exact absurd (lt_of_le_of_lt (le_trans (Time.timePointTz_mono hnow) hmicros) hlate)
      (not_lt.mpr hreached)

end

/-- The invariant holds in every run with timely sends. -/
theorem sendsAlone_of_reachable {app : App} {D : Nat} {s : SysState}
    (hs : Reachable app.run (timelySends D) Seed s) : SendsAlone D s.store s.trace := by
  refine Reachable.rule (A := timelySends D) (J := fun s => SendsAlone D s.store s.trace)
    ((app_refines app).inter (app_refinesTick app)) (fun _ _ => .init) (fun _ _ _ _ h _ _ => h)
    ?_ hs
  rintro s c r prog _ e db hs h hc hr ⟨_, hwithin, hclock, hfresh⟩ ⟨hstep, htick⟩
  have hnodup := outboxIds_of_reachable hs
  refine ⟨?_, emitter_unique_snoc (fun e l => l ∈ Event.claimedLeases e) h.fresh
    (not_claimed_of_leasesFresh hfresh), h.held_snoc hr hnodup hstep, ?_⟩
  · intro q hq t ht
    rcases List.mem_append.mp hq with hq | hq
    · exact h.readings q hq t ht
    · rw [List.mem_singleton.mp hq] at ht
      exact (reading_of_readsOneClock hclock ht).1
  · intro before c' id message now error after htr
    rcases Journal.snoc_eq_append_cons htr with ⟨rfl, heq, rfl⟩ | ⟨after', rfl, htr'⟩
    · cases heq
      obtain ⟨p, cfg, _, rfl, _⟩ := took_of_sentEmail hstep
      exact h.holdsAlone (deadlineInv_of_reachable hs c p cfg prog hc)
        (batches_distinct hs c) hwithin hclock htick
    · exact h.alone before c' id message now error after' htr'

/-- With at most `D` from the claim to the first send and from one send to the next, with batches
for which this is enough, with one clock that is not set back, with sums that do not overflow and
with fresh leases, whenever a worker starts to send a job, its lease has not run out, nobody has
claimed the job since the claim of this worker, and no other worker has started to send it since. -/
theorem sends_before_deadline (app : App) (D : Nat) (s : SysState)
    (hs : Reachable app.run (timelySends D) Seed s) :
    ∀ before c id message now error after,
      s.trace = before ++ (c, .sentEmail id message now error) :: after →
      HoldsAlone before c id ∧
      ∀ p cfg prog t, s.calls c = some ⟨⟨p, .tick cfg⟩, prog⟩ → clockOf s.trace c = some t →
        now < t + cfg.stuckTimeout.nanos := by
  intro before c id message now error after htr
  refine ⟨(sendsAlone_of_reachable hs).alone before c id message now error after htr, ?_⟩
  intro p cfg prog t hcall hclock
  have hinv := deadlineInv_of_reachable hs c p cfg prog hcall
  have hhead : (own c s.trace).head? = some (.clock t) := by
    unfold clockOf at hclock
    split at hclock
    · rename_i heq
      cases hclock
      exact heq
    · cases hclock
  exact hinv.inTime t hhead id message now error (mem_own.mpr (by rw [htr]; simp))

/-! ### Concrete runs -/

/-- Two mails, and two workers with the default configuration. The first worker claims both
mails, and the mail server takes more than five minutes for the first one. Then the second
worker claims the second mail, and both workers send it. -/
def slowServer : List (Move Input Request) :=
  enqueueReset 1 ⟨1⟩ ⟨2⟩ ++ enqueueReset 2 ⟨3⟩ ⟨4⟩ ++
  .start 3 ⟨hourSessions, .tick {}⟩ :: acts 3 [{}, {}, {}, { now := seconds 310 }, {}] ++
  .start 4 ⟨hourSessions, .tick {}⟩ ::
    acts 4 [{ now := seconds 310 }, { leaseId := fun _ => ⟨9⟩ },
      { now := seconds 310 }] ++
  acts 3 [{ now := seconds 311 }]

/-- With the default configuration, a slow mail server makes a worker send a mail after its
lease has run out, and another worker has sent the same mail. -/
theorem sends_twice_after_deadline :
    ∃ s : SysState, Reachable plainApp.run anyRun Seed s ∧
      ∃ p cfg prog t id message now now', s.calls 3 = some ⟨⟨p, .tick cfg⟩, prog⟩ ∧
        clockOf s.trace 3 = some t ∧ (3, .sentEmail id message now none) ∈ s.trace ∧
        t + cfg.stuckTimeout.nanos ≤ now ∧ (4, .sentEmail id message now' none) ∈ s.trace := by
  obtain ⟨s, hs, cfg, hcfg, t, ht, ⟨id, message, now⟩, hd, hlate, ⟨id', message', now'⟩, hd', rfl,
    rfl⟩ := exists_run plainApp anyRun slowServer (fun s => ∃ cfg ∈ workerConfig s 3,
      ∃ t ∈ clockOf s.trace 3, ∃ d ∈ deliveries s.trace 3, t + cfg.stuckTimeout.nanos ≤ d.2.2 ∧
        ∃ d' ∈ deliveries s.trace 4, d'.1 = d.1 ∧ d'.2.1 = d.2.1) (by decide +kernel)
  obtain ⟨p, prog, hcall⟩ := workerConfig_eq_some hcfg
  exact ⟨s, hs, p, cfg, prog, t, id', message', now, now', hcall, ht, mem_deliveries hd, hlate,
    mem_deliveries hd'⟩

/-- The first moment of 2026. -/
def newYear : Time := seconds 1767225600

/-- Two mails, and two workers. The first worker claims both mails and needs a second for each.
The second worker looks for jobs between the two sends and gets none. -/
def timelyServer : List (Move Input Request) :=
  enqueueResetAt newYear 1 ⟨1⟩ ⟨2⟩ ++ enqueueResetAt newYear 2 ⟨3⟩ ⟨4⟩ ++
  .start 3 ⟨hourSessions, .tick {}⟩ ::
    acts 3 [{ now := newYear }, {}, { now := newYear + seconds 1 }, {}, {}] ++
  .start 4 ⟨hourSessions, .tick {}⟩ ::
    acts 4 [{ now := newYear + seconds 1 }, { leaseId := fun _ => ⟨9⟩ }] ++
  acts 3 [{ now := newYear + seconds 2 }]

/-- The second send of the first worker starts two seconds after the claim. -/
theorem sends_before_deadline_twoSeconds :
    ∃ s : SysState, Reachable plainApp.run (timelySends 1000000) Seed s ∧
      (4, .committed (.claimed [])) ∈ s.trace ∧ ∃ before id message now after t,
        s.trace = before ++ (3, .sentEmail id message now none) :: after ∧
        HoldsAlone before 3 id ∧ clockOf s.trace 3 = some t ∧ t + seconds 2 ≤ now ∧
        now < t + Seconds.nanos 300 := by
  obtain ⟨s, hs, hother, cfg, hcfg, htimeout, t, ht, ⟨id, message, now⟩, hd, hlater⟩ :=
    exists_run plainApp (timelySends 1000000) timelyServer (fun s =>
      (4, .committed (.claimed [])) ∈ s.trace ∧ ∃ cfg ∈ workerConfig s 3, cfg.stuckTimeout = 300 ∧
        ∃ t ∈ clockOf s.trace 3, ∃ d ∈ deliveries s.trace 3, t + seconds 2 ≤ d.2.2)
      (by decide +kernel)
  obtain ⟨p, prog, hcall⟩ := workerConfig_eq_some hcfg
  obtain ⟨before, after, htr⟩ := List.append_of_mem (mem_deliveries hd)
  obtain ⟨halone, hbefore⟩ :=
    sends_before_deadline plainApp 1000000 s hs before 3 id message now none after htr
  have hend := hbefore p cfg prog t hcall ht
  rw [htimeout] at hend
  exact ⟨s, hs, hother, before, id, message, now, after, t, htr, halone, ht, hlater, hend⟩

end SmirklyAuth
