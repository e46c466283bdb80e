import SmirklyAuth.Protocol.Refinement
import SmirklyAuth.Protocol.SessionTable

/-!
# `SmirklyAuth.Proofs.TokenFamily`: the sessions of a token family

`FamilyInv` is the invariant of every run: the sessions form a well-formed registry of
credentials (`Lineage.WellFormed`), what a call has read of a session still holds of its
row up to revocation, every family was opened by one sign-in with a family id of its own,
and no session is rotated twice.

`tokenFamily_linear` reads the shape of a family off the invariant.
-/

set_option autoImplicit false

namespace SmirklyAuth

open Interleaving Lineage

/-- The two events are not rotations of one session. -/
def DistinctRotations (p q : Nat × Event) : Prop :=
  ∀ old n m, p.2 = .committed (.rotated old n) → q.2 ≠ .committed (.rotated old m)

instance : Std.Symm DistinctRotations := ⟨fun _ _ h old n m hq hp => h old m n hp hq⟩

/-- The invariant of the sessions table and the trace:

- `wf`: the sessions are a well-formed registry;
- `generated`: no two calls generated the same identifier;
- `found`: a session that a call has read is still there, and only its activity and its
  replacement may have changed;
- `opened`: the family of a session was generated by a sign-in that has committed;
- `rotated`: a rotated session points to its replacement;
- `once`: no session was rotated twice. -/
structure FamilyInv (db : Db) (tr : Trace) : Prop where
  wf : WellFormed db.nodes
  generated : ∀ q ∈ tr, ∀ q' ∈ tr, ∀ id, q.2 = .generatedId id → q'.2 = .generatedId id →
    q.1 = q'.1
  found : ∀ c s, (c, .foundSession (some s)) ∈ tr → ∃ a ∈ db.nodes, s.node.Evolves a
  opened : ∀ a ∈ db.nodes, ∃ c sid, (c, .generatedId a.family) ∈ tr ∧
    (c, .committed (.signedIn sid)) ∈ tr
  rotated : ∀ c old new, (c, .committed (.rotated old new)) ∈ tr →
    ∃ a ∈ db.nodes, a.id = old ∧ a.next = some new
  once : tr.Pairwise DistinctRotations

/-- Before the first call there is no session. -/
theorem FamilyInv.init {db : Db} (h : Seed db) : FamilyInv db [] := by
  have hnodes : db.nodes = [] := by rw [Db.nodes, h.sessions, List.map_nil]
  constructor
  · rw [hnodes]
    exact .nil
  · intro q hq
    cases hq
  · intro c s hc
    cases hc
  · intro a ha
    rw [hnodes] at ha
    cases ha
  · intro c old new hc
    cases hc
  · exact .nil

section
variable {db : Db} {tr : Trace} {c : Nat} {evs : List Event} {t : TxEvent}
  {ns : List SessionNode}

/-- The old session of a rotation is live, and it is the one that the call has read. -/
theorem FamilyInv.rotates (h : FamilyInv db tr) {s : Session} {x : SessionNode}
    (hfound : (c, .foundSession (some s)) ∈ tr) (hfamily : x.family = s.tokenFamilyId)
    (howner : x.owner = s.userId) (hnext : x.next = none)
    (hnew : ∀ a ∈ db.nodes, a.id ≠ x.id)
    (hold : ∃ o ∈ db.nodes ++ [x], o.id = s.id ∧ o.live = true) :
    ∃ o, Rotates db.nodes s.id o x := by
  obtain ⟨a, ha, hsa⟩ := h.found c s hfound
  obtain ⟨o, ho, hoid, holive⟩ := hold
  have homem : o ∈ db.nodes := by
    rcases List.mem_append.mp ho with ho | ho
    · exact ho
    · -- the new session has an identifier that the table does not hold
      cases List.mem_singleton.mp ho
      exact absurd (hsa.id.trans hoid.symm) (hnew a ha)
  obtain rfl : o = a := h.wf.eq_of_id homem ha (hoid.trans hsa.id.symm)
  exact ⟨o, hnew, ha, hoid, holive, hsa.family.trans hfamily.symm,
    hsa.owner.trans howner.symm, hnext⟩

/-- A sign-in opens a family that no session has. -/
theorem FamilyInv.family_new (h : FamilyInv db tr) {fam : Uuid}
    (hgen : .generatedId fam ∈ own c tr) (hfirst : ∀ sid, .committed (.signedIn sid) ∉ own c tr) :
    ∀ a ∈ db.nodes, a.family ≠ fam := by
  rintro a ha rfl
  obtain ⟨c', sid, hgen', hsigned⟩ := h.opened a ha
  obtain rfl : c' = c := h.generated _ hgen' _ (mem_own.mp hgen) a.family rfl rfl
  exact hfirst sid (mem_own.mpr hsigned)

/-- One transaction changes the registry, and a family that it adds is one that a sign-in
opens. -/
theorem FamilyInv.commit (h : FamilyInv db tr)
    (hc : SessionsCommit (own c tr) t db.nodes ns) :
    Change db.nodes ns ∧
      ∀ a ∈ ns, (∃ b ∈ db.nodes, b.family = a.family) ∨
        ∃ sid, t = .signedIn sid ∧ .generatedId a.family ∈ own c tr := by
  generalize hevs : own c tr = evs at hc
  cases hc with
  | @opened _ _ _ _ fam _ _ _ x hid hfamily howner hlive hnext hnew =>
    have hfam : ∀ a ∈ db.nodes, a.family ≠ fam :=
      h.family_new (c := c) (by simp [hevs]) fun sid => by simp [hevs, signInEvents]
    refine ⟨.opened hnew (hfamily ▸ hfam) hnext, fun a ha => ?_⟩
    rcases List.mem_append.mp ha with ha | ha
    · exact .inl ⟨a, ha, rfl⟩
    · cases List.mem_singleton.mp ha
      exact .inr ⟨_, rfl, by simp [hfamily]⟩
  | rotated hfound hid hfamily howner hnext hnew hold =>
    obtain ⟨o, ho⟩ := h.rotates (mem_own.mp (hevs ▸ hfound)) hfamily howner hnext hnew hold
    exact ⟨.rotated ho, fun a ha => .inl (ho.family_of_mem_rotate h.wf ha)⟩
  | family => exact ⟨.retired _, fun a ha => .inl (family_of_mem_retire ha)⟩
  | user => exact ⟨.retired _, fun a ha => .inl (family_of_mem_retire ha)⟩
  | single => exact ⟨.retired _, fun a ha => .inl (family_of_mem_retire ha)⟩
  | unchanged => exact ⟨.unchanged, fun a ha => .inl ⟨a, ha, rfl⟩⟩

/-- A rotation exchanges a live session. -/
theorem FamilyInv.commit_rotated (h : FamilyInv db tr) {old new : Uuid}
    (hc : SessionsCommit (own c tr) (.rotated old new) db.nodes ns) :
    (∃ a ∈ ns, a.id = old ∧ a.next = some new) ∧
      ∃ o ∈ db.nodes, o.id = old ∧ o.live = true := by
  generalize hevs : own c tr = evs at hc
  cases hc with
  | rotated hfound hid hfamily howner hnext hnew hold =>
    obtain ⟨o, ho⟩ := h.rotates (mem_own.mp (hevs ▸ hfound)) hfamily howner hnext hnew hold
    exact ⟨⟨_, ho.old_mem_rotate, ho.id, by rw [hid]⟩, o, ho.mem, ho.id, ho.live⟩
  | user hrevokes => cases hrevokes
  | unchanged hquiet => cases hquiet

end

section
variable {app : App} {r : Request} {db db' : Db} {tr : Trace} {c : Nat} {e : Event}

/-- An admitted event generates no old identifier. -/
theorem not_generated_of_freshIds (hfresh : freshIds tr e = true) :
    ∀ q ∈ tr, ∀ id, e = .generatedId id → q.2 ≠ .generatedId id := by
  rintro q hq id rfl
  simpa using List.all_eq_true.mp hfresh q hq

/-- The invariant after a step, from what the step does to the registry. -/
theorem FamilyInv.extend (h : FamilyInv db tr) (hfresh : freshIds tr e = true)
    (hchange : Change db.nodes db'.nodes)
    (hfound : ∀ s, e = .foundSession (some s) → ∃ a ∈ db'.nodes, s.node.Evolves a)
    (hopened : ∀ a ∈ db'.nodes, (∃ b ∈ db.nodes, b.family = a.family) ∨
      ∃ sid, e = .committed (.signedIn sid) ∧ .generatedId a.family ∈ own c tr)
    (hrotated : ∀ old new, e = .committed (.rotated old new) →
      (∃ a ∈ db'.nodes, a.id = old ∧ a.next = some new) ∧
        ∃ o ∈ db.nodes, o.id = old ∧ o.live = true) :
    FamilyInv db' (tr ++ [(c, e)]) := by
  have hevolves := hchange.evolves h.wf
  constructor
  · exact hchange.wellFormed h.wf
  · exact emitter_unique_snoc (fun e id => e = Event.generatedId id) h.generated
      (not_generated_of_freshIds hfresh)
  · intro c' s hmem
    simp only [List.mem_append, List.mem_singleton, Prod.mk.injEq] at hmem
    rcases hmem with hmem | ⟨_, rfl⟩
    · obtain ⟨a, ha, hsa⟩ := h.found c' s hmem
      obtain ⟨b, hb, hab⟩ := hevolves a ha
      exact ⟨b, hb, hsa.trans hab⟩
    · exact hfound s rfl
  · intro a ha
    rcases hopened a ha with ⟨b, hb, hfam⟩ | ⟨sid, rfl, hgen⟩
    · obtain ⟨c', sid, hgen, hsigned⟩ := h.opened b hb
      exact ⟨c', sid, List.mem_append_left _ (hfam ▸ hgen), List.mem_append_left _ hsigned⟩
    · exact ⟨c, sid, List.mem_append_left _ (mem_own.mp hgen),
        List.mem_append_right _ (List.mem_singleton_self _)⟩
  · intro c' old new hmem
    simp only [List.mem_append, List.mem_singleton, Prod.mk.injEq] at hmem
    rcases hmem with hmem | ⟨_, rfl⟩
    · obtain ⟨a, ha, rfl, hnext⟩ := h.rotated c' old new hmem
      obtain ⟨b, hb, hab⟩ := hevolves a ha
      exact ⟨b, hb, hab.id, hab.next new hnext⟩
    · exact (hrotated old new rfl).1
  · refine List.pairwise_append.mpr ⟨h.once, List.pairwise_singleton _ _, ?_⟩
    rintro ⟨c', e'⟩ hmem q hq old n m rfl hrot
    cases List.mem_singleton.mp hq
    -- the first rotation retired the session, the second one found it live
    obtain ⟨a, ha, haid, hnext⟩ := h.rotated c' old n hmem
    obtain ⟨o, ho, hoid, hlive⟩ := (hrotated old m hrot).2
    have hao : a = o := h.wf.eq_of_id ha ho (haid.trans hoid.symm)
    have hdead : a.live = false := (h.wf.retired a ha n hnext).1
    rw [hao, hlive] at hdead
    cases hdead

/-- What a step does to the registry. -/
theorem FamilyInv.change (h : FamilyInv db tr)
    (hstep : ProtocolStep app r (own c tr) e db db') : Change db.nodes db'.nodes := by
  cases hstep with
  | aborted _ => exact .unchanged
  | read _ => exact .unchanged
  | committed hcommit => exact (h.commit (sessions_commit hcommit)).1

/-- Every step keeps the invariant. -/
theorem FamilyInv.step (h : FamilyInv db tr) (hfresh : freshIds tr e = true)
    (hstep : ProtocolStep app r (own c tr) e db db') : FamilyInv db' (tr ++ [(c, e)]) := by
  cases hstep with
  | aborted hab =>
    refine h.extend hfresh .unchanged ?_ (fun a ha => .inl ⟨a, ha, rfl⟩) ?_
    · rintro s rfl
      cases hab
    · rintro old new rfl
      cases hab
  | read hread =>
    refine h.extend hfresh .unchanged ?_ (fun a ha => .inl ⟨a, ha, rfl⟩) ?_
    · rintro s rfl
      exact ⟨s.node, reads_foundSession hread, .refl _⟩
    · rintro old new rfl
      generalize own c tr = evs at hread
      cases hread
  | committed hcommit =>
    have hsessions := sessions_commit hcommit
    obtain ⟨hchange, hfamily⟩ := h.commit hsessions
    refine h.extend hfresh hchange (fun s hs => by cases hs) (fun a ha => ?_) ?_
    · rcases hfamily a ha with hold | ⟨sid, rfl, hgen⟩
      · exact .inl hold
      · exact .inr ⟨sid, rfl, hgen⟩
    · intro old new hrot
      cases hrot
      exact h.commit_rotated hsessions

/-- The invariant holds in every reachable state. -/
theorem familyInv_of_reachable {start : Request → Prop}
    {act : SysState → Nat → Event → Prop} {s : SysState}
    (hs : Reachable app.run (admission start act) Seed s) : FamilyInv s.store s.trace :=
  Reachable.invariant (A := admission start act) (J := FamilyInv) (app_refines app)
    (fun _ => FamilyInv.init) (fun _ _ _ _ _ h _ ha hstep => h.step ha.1 hstep) hs

end

/-! ### The shape of a family -/

/-- The link from a replaced session to its replacement. -/
def ReplacedBy (rows : List SessionRow) (a b : SessionRow) : Prop :=
  a ∈ rows ∧ b ∈ rows ∧ a.replacedBySessionId = some b.id

/-- The sessions of each family form one chain:

- `oneActive`: at most one session of a family is active;
- `oneUser`: the sessions of a family have one user;
- `replaced`: a replaced session is revoked, and its replacement is of its family;
- `replacesOne`: no session replaces two sessions;
- `acyclic`: the links form no cycle. -/
structure LinearFamilies (rows : List SessionRow) : Prop where
  oneActive : ∀ family,
    (rows.filter fun r => r.tokenFamilyId == family && r.revokedAt.isNone).length ≤ 1
  oneUser : ∀ a ∈ rows, ∀ b ∈ rows, a.tokenFamilyId = b.tokenFamilyId → a.userId = b.userId
  replaced : ∀ a ∈ rows, ∀ n, a.replacedBySessionId = some n →
    a.revokedAt.isSome = true ∧
      ∃ b, ReplacedBy rows a b ∧ b.id = n ∧ b.tokenFamilyId = a.tokenFamilyId
  replacesOne : ∀ a b c, ReplacedBy rows a c → ReplacedBy rows b c → a = b
  acyclic : ∀ a, ¬ Relation.TransGen (ReplacedBy rows) a a

/-- A row is a node of the table. -/
theorem mem_nodes {db : Db} {r : SessionRow} (h : r ∈ db.sessions) : r.node ∈ db.nodes :=
  List.mem_map_of_mem h

/-- Two rows with one node are the same row. -/
theorem row_eq_of_node {db : Db} (hwf : WellFormed db.nodes) {a b : SessionRow}
    (ha : a ∈ db.sessions) (hb : b ∈ db.sessions) (h : a.node = b.node) : a = b := by
  have hids : (db.sessions.map (·.id)).Nodup := by
    have hmap : db.nodes.map (·.id) = db.sessions.map (·.id) := by
      rw [Db.nodes, List.map_map]
      rfl
    exact hmap ▸ hwf.ids
  have hid : a.id = b.id := congrArg Node.id h
  exact List.inj_on_of_nodup_map hids ha hb hid

/-- A list without two different members has at most one. -/
private theorem length_le_one_of_pairwise {α : Type} {l : List α} (hnodup : l.Nodup)
    (h : ∀ a ∈ l, ∀ b ∈ l, a = b) : l.length ≤ 1 := by
  match l, hnodup, h with
  | [], _, _ => exact Nat.zero_le _
  | [_], _, _ => exact Nat.le_refl _
  | a :: b :: l, hnodup, h =>
    have hab : a = b := h a (by simp) b (by simp)
    simp [hab] at hnodup

/-- A well-formed registry is a table of linear families. -/
theorem linearFamilies_of_wellFormed {db : Db} (hwf : WellFormed db.nodes) :
    LinearFamilies db.sessions := by
  have hnodup : db.sessions.Nodup := by
    have hmap : (db.sessions.map (·.node)).Nodup := (List.Nodup.of_map _ hwf.ids)
    exact List.Nodup.of_map _ hmap
  have hlink : ∀ a b, ReplacedBy db.sessions a b → Replaces db.nodes a.node b.node :=
    fun a b ⟨ha, hb, hn⟩ => ⟨mem_nodes ha, mem_nodes hb, hn⟩
  constructor
  · intro family
    refine length_le_one_of_pairwise (hnodup.filter _) fun a ha b hb => ?_
    simp only [List.mem_filter, Bool.and_eq_true, beq_iff_eq] at ha hb
    obtain ⟨hamem, hafam, halive⟩ := ha
    obtain ⟨hbmem, hbfam, hblive⟩ := hb
    have hnode : a.node = b.node :=
      hwf.oneLive _ (mem_nodes hamem) _ (mem_nodes hbmem) (hafam.trans hbfam.symm) halive hblive
    exact row_eq_of_node hwf hamem hbmem hnode
  · intro a ha b hb hfam
    exact hwf.owner _ (mem_nodes ha) _ (mem_nodes hb) hfam
  · intro a ha n hn
    obtain ⟨hdead, x, hx, hxid, hxfam⟩ := hwf.retired _ (mem_nodes ha) n hn
    obtain ⟨b, hb, rfl⟩ := List.mem_map.mp hx
    have hrevoked : a.revokedAt.isSome = true := by
      have hnone : a.revokedAt.isNone = false := hdead
      rw [← Option.not_isNone, hnone, Bool.not_false]
    exact ⟨hrevoked, b, ⟨ha, hb, hn.trans (congrArg some hxid.symm)⟩, hxid, hxfam⟩
  · rintro a b c hac hbc
    have hnode : a.node = b.node :=
      hwf.single _ (hlink a c hac).1 _ (hlink b c hbc).1 _ hac.2.2 hbc.2.2
    exact row_eq_of_node hwf hac.1 hbc.1 hnode
  · intro a hcycle
    exact hwf.acyclic a.node (hcycle.lift (·.node) hlink)

section
variable {app : App} {s : SysState} {c : Nat} {token : Str} {start : Request → Prop}
  {act : SysState → Nat → Event → Prop}

/-- A call that exchanged a token has found the session of its claims, verified the token
against it, and rotated it. -/
theorem exchanged_rotated (hs : Reachable app.run (admission start act) Seed s)
    (hdone : exchanged s token c = true) :
    ∃ t claims old new, RefreshChecked app ⟨token⟩ t claims old ∧
      app.ports.refreshTokenHasher.verify token old.refreshTokenHash = true ∧
      (c, .foundSession (some old)) ∈ s.trace ∧
      (c, .committed (.rotated old.id new)) ∈ s.trace := by
  obtain ⟨p, m, x, hcall⟩ := exchanged_iff.mp hdone
  have hfin : Finishes app ⟨p, .refresh ⟨token⟩ m⟩ (own c s.trace) (.ok x) :=
    (hs.finish (app_refines app) hcall).1
  have htrace : ∀ e, e ∈ own c s.trace → (c, e) ∈ s.trace := fun e => mem_own.mp
  generalize own c s.trace = evs at hfin htrace
  cases hfin with
  | @refreshed _ _ _ t claims old now sid tokens hash rotationNow hchecked hverified =>
    refine ⟨t, claims, old, sid, hchecked, hverified, htrace _ ?_, htrace _ ?_⟩
    · simp [refreshEvents]
    · simp
  | other h => cases h

/-- The claims of a token do not depend on the time at which it is parsed. -/
theorem claims_unique {tp : JwtTokenProvider} {t t' : Time} {claims claims' : RefreshTokenClaims}
    (h : tp.parseRefreshToken token t = some claims)
    (h' : tp.parseRefreshToken token t' = some claims') : claims = claims' := by
  unfold JwtTokenProvider.parseRefreshToken at h h'
  split at h
  · split at h'
    · exact Option.some.inj (h.symm.trans h')
    · cases h'
  · cases h

/-- Two rotations of one session are the same event of one call. -/
theorem FamilyInv.rotated_once {db : Db} {tr : Trace} (h : FamilyInv db tr) {c c' : Nat}
    {old n m : Uuid} (hc : (c, .committed (.rotated old n)) ∈ tr)
    (hc' : (c', .committed (.rotated old m)) ∈ tr) : c = c' := by
  by_contra hne
  have hpq : DistinctRotations (c, .committed (.rotated old n)) (c', .committed (.rotated old m)) :=
    h.once.forall hc hc' fun heq => hne (congrArg Prod.fst heq)
  exact hpq old n m rfl rfl

/-- In every reachable state of every run the sessions of each token family form one chain,
and no refresh token has been exchanged by two calls. -/
theorem tokenFamily_linear (app : App) (s : SysState)
    (hs : Reachable app.run anyRun Seed s) :
    LinearFamilies s.store.sessions ∧
      ∀ token c c', exchanged s token c = true → exchanged s token c' = true → c = c' := by
  have hinv : FamilyInv s.store s.trace := familyInv_of_reachable hs
  refine ⟨linearFamilies_of_wellFormed hinv.wf, fun token c c' hc hc' => ?_⟩
  obtain ⟨t, claims, old, n, hchecked, _, _, hrot⟩ := exchanged_rotated hs hc
  obtain ⟨t', claims', old', n', hchecked', _, _, hrot'⟩ := exchanged_rotated hs hc'
  have hclaims : claims = claims' := claims_unique hchecked.parsed hchecked'.parsed
  have hid : old.id = old'.id := by
    rw [hchecked.session, hchecked'.session, hclaims]
  exact hinv.rotated_once hrot (hid ▸ hrot')

/-- Two calls refresh with the token of the first session after both have read it while it
was active. -/
def concurrentRefreshes : List (Move Input Request) :=
  .start 0 (signInUnitUser "old_password") :: acts 0 (signInInputs ⟨1⟩ ⟨2⟩) ++
    [.start 1 (refreshWith (unitToken ⟨1⟩ ⟨2⟩)), .start 2 (refreshWith (unitToken ⟨1⟩ ⟨2⟩))] ++
    acts 1 ((refreshInputs ⟨3⟩).take 4) ++ acts 2 ((refreshInputs ⟨4⟩).take 4) ++
    acts 1 ((refreshInputs ⟨3⟩).drop 4) ++ acts 2 ((refreshInputs ⟨4⟩).drop 4)

/-- In a run in which both calls commit or roll back, one of them has exchanged the token
and the family has two sessions. -/
theorem tokenFamily_linear_concurrentRefreshes :
    ∃ s : SysState, Reachable plainApp.run anyRun Seed s ∧ s.store.sessions.length = 2 ∧
      exchanged s (unitToken ⟨1⟩ ⟨2⟩) 1 = true ∧ (raised s 2).isSome = true ∧
      LinearFamilies s.store.sessions ∧
      ∀ token c c', exchanged s token c = true → exchanged s token c' = true → c = c' := by
  obtain ⟨s, hs, hlength, hspent, hraised⟩ := exists_run plainApp anyRun concurrentRefreshes
    (fun s => s.store.sessions.length = 2 ∧ exchanged s (unitToken ⟨1⟩ ⟨2⟩) 1 ∧
      (raised s 2).isSome) (by decide +kernel)
  exact ⟨s, hs, hlength, hspent, hraised, tokenFamily_linear plainApp s hs⟩

end

end SmirklyAuth
