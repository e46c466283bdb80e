import SmirklyAuth.Proofs.TokenFamily

/-!
# `SmirklyAuth.Proofs.TokenReuse`: a refresh token that is presented again

A token is spent once it has been exchanged: the session of its claims is revoked for good,
and it keeps the hash that the token was verified against (`SpentBy`).

A later call that presents a spent token can only walk along `ReusePath`: it finds the
revoked session, verifies the token and revokes the family. From then on the family is dead
(`Lineage.Dead`), and no step of any call changes that, because the one transaction that
opens a session in an old family needs a live session of it.

`reuse_kills_family` is the result for whole runs.
-/

set_option autoImplicit false

namespace SmirklyAuth

open Interleaving Lineage

/-! ### Spent tokens -/

/-- The token names the session of `a`, which is revoked and keeps the hash that the token
passes. -/
structure SpentBy (app : App) (token : Str) (claims : RefreshTokenClaims) (a : SessionNode) :
    Prop where
  nonempty : token ≠ []
  decoded : app.ports.tokenProvider.refreshTokenClaims token = some claims
  id : a.id = claims.sessionId
  user : a.owner = claims.userId
  family : claims.tokenFamilyId = some a.family
  verified : app.ports.refreshTokenHasher.verify token a.payload = true
  dead : a.live = false

/-- A spent token stays spent. -/
theorem SpentBy.evolves {app : App} {token : Str} {claims : RefreshTokenClaims}
    {a b : SessionNode} (h : SpentBy app token claims a) (hab : a.Evolves b) :
    SpentBy app token claims b where
  nonempty := h.nonempty
  decoded := h.decoded
  id := hab.id.trans h.id
  user := hab.owner.trans h.user
  family := hab.family.symm ▸ h.family
  verified := hab.payload.symm ▸ h.verified
  dead := Bool.eq_false_iff.mpr fun hlive => by
    have hdead := h.dead
    rw [hab.live hlive] at hdead
    cases hdead

section
variable {app : App} {s : SysState} {c : Nat} {token : Str}

/-- An exchanged token is spent. -/
theorem exchanged_spent (hs : Reachable app.run anyRun Seed s)
    (hdone : exchanged s token c = true) :
    ∃ claims, ∃ a ∈ s.store.nodes, SpentBy app token claims a := by
  obtain ⟨t, claims, old, new, hchecked, hverified, hfound, hrot⟩ := exchanged_rotated hs hdone
  have hinv : FamilyInv s.store s.trace := familyInv_of_reachable hs
  obtain ⟨a, ha, hold⟩ := hinv.found c old hfound
  have hdead : a.live = false := by
    obtain ⟨b, hb, hbid, hnext⟩ := hinv.rotated c old.id new hrot
    have hba : b = a := hinv.wf.eq_of_id hb ha (hbid.trans hold.id.symm)
    exact hba ▸ (hinv.wf.retired b hb new hnext).1
  have hparsed := hchecked.parsed
  unfold JwtTokenProvider.parseRefreshToken at hparsed
  split at hparsed
  · exact ⟨claims, a, ha, {
      nonempty := hchecked.nonempty
      decoded := hparsed
      id := hold.id.trans hchecked.session
      user := hold.owner.trans hchecked.user
      family := hold.family.symm ▸ hchecked.family
      verified := hold.payload.symm ▸ hverified
      dead := hdead }⟩
  · cases hparsed

end

/-- The lookup of a session by the id of its node. -/
theorem findById_of_mem (pg : Postgres) {db : Db} (hwf : WellFormed db.nodes) {a : SessionNode}
    (ha : a ∈ db.nodes) : ∃ s, SessionRepository.findById pg a.id db = some s ∧ s.node = a := by
  obtain ⟨row, hrow, rfl⟩ := List.mem_map.mp ha
  have hsome : (sessionsSelectById row.id db.sessions).isSome = true := by
    unfold sessionsSelectById
    rw [List.find?_isSome]
    exact ⟨row, hrow, beq_iff_eq.mpr rfl⟩
  obtain ⟨found, hfound⟩ := Option.isSome_iff_exists.mp hsome
  have hmem : found ∈ db.sessions ∧ found.id = row.id := by
    unfold sessionsSelectById at hfound
    have hid := List.find?_some hfound
    exact ⟨List.mem_of_find?_eq_some hfound, beq_iff_eq.mp hid⟩
  have hnode : found.node = row.node :=
    hwf.eq_of_id (mem_nodes hmem.1) (mem_nodes hrow) hmem.2
  refine ⟨found.toDomain pg, ?_, hnode⟩
  show (sessionsSelectById row.id db.sessions).map (·.toDomain pg) = _
  rw [hfound]
  rfl

/-! ### The path of a call that presents a spent token -/

/-- The histories of a call that presents a spent token, as long as the token is accepted
and no port fails. -/
inductive ReusePath (app : App) (token : Str) (claims : RefreshTokenClaims) :
    List Event → Prop where
  | started : ReusePath app token claims []
  | parsed {t} : ReusePath app token claims [.parsedRefreshToken t (some claims)]
  | found {t} {s : Session} (h : SpentBy app token claims s.node) :
      ReusePath app token claims
        [.parsedRefreshToken t (some claims), .foundSession (some s)]
  | clocked {t} {s : Session} {now} (h : SpentBy app token claims s.node) :
      ReusePath app token claims
        [.parsedRefreshToken t (some claims), .foundSession (some s), .clock now]
  | verified {t} {s : Session} {now} (h : SpentBy app token claims s.node) :
      ReusePath app token claims
        [.parsedRefreshToken t (some claims), .foundSession (some s), .clock now,
          .verifiedToken true]
  | reused {t} {s : Session} {now} (h : SpentBy app token claims s.node) :
      ReusePath app token claims
        [.parsedRefreshToken t (some claims), .foundSession (some s), .clock now,
          .verifiedToken true, .committed (.reuseDetected s.userId s.tokenFamilyId)]

/-- A call that meets a used token has five events at most. -/
theorem ReusePath.length_le {app : App} {token : Str} {claims : RefreshTokenClaims}
    {evs : List Event} (h : ReusePath app token claims evs) : evs.length ≤ 5 := by
  cases h <;> simp

/-- A session whose token was used is revoked. -/
theorem SpentBy.revoked {app : App} {token : Str} {claims : RefreshTokenClaims} {s : Session}
    (h : SpentBy app token claims s.node) : s.revokedAt.isSome = true := by
  have hnone : s.revokedAt.isNone = false := h.dead
  rw [← Option.not_isNone, hnone, Bool.not_false]

section
variable {app : App} {token : Str} {claims : RefreshTokenClaims} {p : AuthRuntimePolicies}
  {m : RequestMeta} {evs : List Event} {e : Event} {db db' : Db}

/-- A read along the path, which does not end it. -/
theorem ReusePath.read (h : ReusePath app token claims evs) (hwf : WellFormed db.nodes)
    (hspent : ∃ a ∈ db.nodes, SpentBy app token claims a)
    (hread : Reads app ⟨p, .refresh ⟨token⟩ m⟩ evs e db)
    (haccepted : ∀ t x, e = .parsedRefreshToken t x →
      app.ports.tokenProvider.unexpired token t = true) :
    ReusePath app token claims (evs ++ [e]) ∧ (evs ++ [e]).length < 5 := by
  obtain ⟨a, ha, hsa⟩ := hspent
  cases hread with
  | @refreshParse _ _ _ t =>
    have hparse : app.ports.tokenProvider.parseRefreshToken token t = some claims := by
      rw [JwtTokenProvider.parseRefreshToken, if_pos (haccepted t _ rfl), hsa.decoded]
    rw [hparse]
    exact ⟨.parsed, by simp⟩
  | refreshFind =>
    cases h with
    | parsed =>
      obtain ⟨s, hfind, hnode⟩ := findById_of_mem app.ports.pg hwf ha
      rw [← hsa.id, hfind]
      exact ⟨.found (hnode ▸ hsa), by simp⟩
  | refreshClock =>
    cases h with
    | found h => exact ⟨.clocked h, by simp⟩
  | @refreshVerify _ _ _ _ _ s =>
    simp only [refreshEvents] at h ⊢
    cases h with
    | clocked h =>
      have hverify : app.ports.refreshTokenHasher.verify token s.refreshTokenHash = true :=
        h.verified
      rw [hverify]
      exact ⟨.verified h, by simp⟩
  | refreshSessionId hactive =>
    -- the path never leaves towards the rotation: the session it found is revoked
    simp only [refreshEvents, List.cons_append, List.nil_append] at h
    cases h with
    | verified h =>
      rw [h.revoked] at hactive
      cases hactive
  | refreshTokens => cases h
  | refreshHash => cases h
  | refreshRotationClock => cases h
  | revokeFind hcmd => cases hcmd

end

section
variable {app : App} {token : Str} {claims : RefreshTokenClaims} {p : AuthRuntimePolicies}
  {m : RequestMeta} {db db' : Db} {tr : Trace} {c : Nat} {e : Event}

/-- The one transaction of the path revokes the whole family. -/
theorem ReusePath.commit (hinv : FamilyInv db tr)
    (h : ReusePath app token claims (own c tr)) {t : TxEvent}
    (hspent : ∃ a ∈ db.nodes, SpentBy app token claims a)
    (hcommit : Commits app ⟨p, .refresh ⟨token⟩ m⟩ (own c tr) t db db') :
    ReusePath app token claims (own c tr ++ [.committed t]) ∧
      ∀ f, claims.tokenFamilyId = some f → Dead f db'.nodes := by
  have hsessions := sessions_commit hcommit
  generalize own c tr = evs at h hcommit hsessions
  cases hcommit with
  | @reuseDetected _ _ _ _ _ s =>
    simp only [refreshEvents, List.cons_append, List.nil_append] at h ⊢
    cases h with
    | verified h =>
      refine ⟨.reused h, fun f hf => ?_⟩
      generalize db'.nodes = ns at hsessions ⊢
      cases hsessions with
      | family =>
        refine dead_retire fun b hb hbfam _ => ?_
        -- one user owns the whole family, so the condition on the user excludes nothing
        obtain ⟨a, ha, hsa⟩ := hspent
        have hfam : some f = some a.family := hf.symm.trans hsa.family
        have howner : b.owner = a.owner :=
          hinv.wf.owner b hb a ha (hbfam.trans (Option.some.inj hfam))
        have huser : a.owner = s.userId := hsa.user.trans h.user.symm
        have hfamily : b.family = s.tokenFamilyId :=
          hbfam.trans (Option.some.inj (hf.symm.trans h.family))
        simp [howner, huser, hfamily]
      | user hrevokes => cases hrevokes
      | unchanged hquiet => cases hquiet
  | rotated => cases h
  | revoked hcmd => cases hcmd

/-- A step along the path. When it is the fifth one, the family is dead after it. -/
theorem ReusePath.step (hinv : FamilyInv db tr)
    (h : ReusePath app token claims (own c tr))
    (hspent : ∃ a ∈ db.nodes, SpentBy app token claims a)
    (hstep : ProtocolStep app ⟨p, .refresh ⟨token⟩ m⟩ (own c tr) e db db')
    (haccepted : ∀ t x, e = .parsedRefreshToken t x →
      app.ports.tokenProvider.unexpired token t = true)
    (hfault : ∀ what, e ≠ .failed what) :
    ReusePath app token claims (own c tr ++ [e]) ∧
      ((own c tr ++ [e]).length = 5 → ∀ f, claims.tokenFamilyId = some f →
        Dead f db'.nodes) := by
  cases hstep with
  | aborted hab =>
    -- a fault is excluded, and no history of the path is as long as the one that rolls back
    cases e with
    | failed what => exact absurd rfl (hfault what)
    | rolledBack x =>
      have hlen : (own c tr).length = 8 := beq_iff_eq.mp hab
      have hle := h.length_le
      omega
    | _ => cases hab
  | read hread =>
    obtain ⟨hnext, hlt⟩ := h.read hinv.wf hspent hread haccepted
    exact ⟨hnext, fun hlen => absurd hlen (Nat.ne_of_lt hlt)⟩
  | committed hcommit =>
    have hnext := h.commit hinv hspent hcommit
    exact ⟨hnext.1, fun _ => hnext.2⟩

end

/-! ### Whole runs -/

/-- The call `c` presents the token or has not started, every time it parsed the token the
token was accepted, and no port has failed. -/
structure Undisturbed (app : App) (token : Str) (c : Nat) (s : SysState) : Prop where
  call : s.calls c = none ∨ presents s token c = true
  accepted : ∀ t x, (c, .parsedRefreshToken t x) ∈ s.trace →
    app.ports.tokenProvider.unexpired token t = true
  faultless : ∀ what, (c, .failed what) ∉ s.trace

/-- The invariant of a run after the token was spent. -/
structure ReuseInv (app : App) (token : Str) (claims : RefreshTokenClaims) (c : Nat)
    (s : SysState) : Prop where
  spent : ∃ a ∈ s.store.nodes, SpentBy app token claims a
  path : ReusePath app token claims (own c s.trace)
  dead : (own c s.trace).length = 5 → ∀ f, claims.tokenFamilyId = some f →
    Dead f s.store.nodes

section
variable {app : App} {token : Str} {claims : RefreshTokenClaims} {c c' : Nat} {s : SysState}
  {r : Request} {prog prog' : Service Response} {e : Event} {db : Db}

/-- What is undisturbed after a new call was undisturbed before it. -/
theorem Undisturbed.of_begin (h : Undisturbed app token c (s.begin app.run c' r))
    (hc' : s.calls c' = none) : Undisturbed app token c s := by
  refine ⟨?_, h.accepted, h.faultless⟩
  by_cases hcc : c = c'
  · exact .inl (hcc ▸ hc')
  · have hcall := h.call
    simpa only [State.begin, presents, Function.update_of_ne hcc] using hcall

/-- What is undisturbed after an event was undisturbed before it. -/
theorem Undisturbed.of_advance (h : Undisturbed app token c (s.advance c' r e db prog'))
    (hc' : s.calls c' = some ⟨r, prog⟩) : Undisturbed app token c s := by
  have htrace : ∀ x, x ∈ s.trace → x ∈ (s.advance c' r e db prog').trace :=
    fun x hx => List.mem_append_left _ hx
  refine ⟨?_, fun t x hx => h.accepted t x (htrace _ hx), fun what hw => ?_⟩
  · have hcall := h.call
    by_cases hcc : c = c'
    · -- the request of a call never changes
      subst hcc
      rcases hcall with hcall | hcall
      · simp [State.advance] at hcall
      · obtain ⟨p, m, _, hpres⟩ := presents_iff.mp hcall
        simp only [State.advance, Function.update_self, Option.some.injEq,
          Call.mk.injEq] at hpres
        exact .inr (presents_iff.mpr ⟨p, m, prog, by rw [hc', hpres.1]⟩)
    · simpa only [State.advance, presents, Function.update_of_ne hcc] using hcall
  · exact h.faultless what (htrace _ hw)

/-- The family of a used token has a session. -/
theorem SpentBy.exists_family (h : ∃ a ∈ db.nodes, SpentBy app token claims a) {f : Uuid}
    (hf : claims.tokenFamilyId = some f) : ∃ a ∈ db.nodes, a.family = f := by
  obtain ⟨a, ha, hsa⟩ := h
  exact ⟨a, ha, Option.some.inj (hsa.family.symm.trans hf)⟩

/-- A step of any call keeps the invariant. -/
theorem ReuseInv.advance (hinv : FamilyInv s.store s.trace) (h : ReuseInv app token claims c s)
    (hc' : s.calls c' = some ⟨r, prog⟩)
    (hstep : ProtocolStep app r (own c' s.trace) e s.store db)
    (hnext : Undisturbed app token c (s.advance c' r e db prog')) :
    ReuseInv app token claims c (s.advance c' r e db prog') := by
  have hspent : ∃ a ∈ db.nodes, SpentBy app token claims a := by
    obtain ⟨a, ha, hsa⟩ := h.spent
    obtain ⟨b, hb, hab⟩ := (hinv.change hstep).evolves hinv.wf a ha
    exact ⟨b, hb, hsa.evolves hab⟩
  by_cases hcc : c' = c
  · subst hcc
    have hmem : (c', e) ∈ (s.advance c' r e db prog').trace :=
      List.mem_append_right _ (List.mem_singleton_self _)
    have hown : own c' (s.advance c' r e db prog').trace = own c' s.trace ++ [e] := by
      rw [State.advance, own_append, own_singleton_self]
    obtain hcall | hcall := (hnext.of_advance hc').call
    · rw [hc'] at hcall
      cases hcall
    · obtain ⟨p, m, _, hpres⟩ := presents_iff.mp hcall
      rw [hc', Option.some.injEq, Call.mk.injEq] at hpres
      rw [hpres.1] at hstep
      obtain ⟨hpath, hdead⟩ := h.path.step hinv h.spent hstep
        (fun t x he => hnext.accepted t x (he ▸ hmem))
        (fun what he => hnext.faultless what (he ▸ hmem))
      exact ⟨hspent, hown ▸ hpath, fun hlen => hdead (hown ▸ hlen)⟩
  · have hown : own c (s.advance c' r e db prog').trace = own c s.trace :=
      own_append_ne hcc s.trace e
    refine ⟨hspent, hown ▸ h.path, fun hlen f hf => ?_⟩
    exact (hinv.change hstep).dead hinv.wf (SpentBy.exists_family h.spent hf)
      (h.dead (hown ▸ hlen) f hf)

/-- The invariant holds in every continuation of a run that has spent the token. -/
theorem reuseInv_of_steps {s₀ : SysState} {c₀ : Nat}
    (hs₀ : Reachable app.run anyRun Seed s₀) (hspent : exchanged s₀ token c₀ = true)
    (hidle : s₀.calls c = none) (hrun : Steps app.run anyRun s₀ s)
    (hfree : Undisturbed app token c s) : ∃ claims, ReuseInv app token claims c s := by
  obtain ⟨claims, hnode⟩ := exchanged_spent hs₀ hspent
  have hown : own c s₀.trace = [] := (hs₀.obeys (app_refines app)).2 c hidle
  have hbase : ReuseInv app token claims c s₀ := by
    refine ⟨hnode, ?_, ?_⟩
    · rw [hown]
      exact .started
    · rw [hown]
      exact fun hlen => (nomatch hlen)
  refine ⟨claims, Steps.rule (A := anyRun)
    (J := fun s => Undisturbed app token c s → ReuseInv app token claims c s)
    (app_refines app) ?_ ?_ hs₀ hrun (fun _ => hbase) hfree⟩
  · intro s c' r _ hJ hc' _ hnext
    have h := hJ (hnext.of_begin hc')
    exact ⟨h.spent, h.path, h.dead⟩
  · intro s c' r prog prog' e db hs hJ hc' _ _ hstep hnext
    exact (hJ (hnext.of_advance hc')).advance (familyInv_of_reachable hs) hc' hstep hnext

end

/-- The family of the sessions that a refresh token may refresh. -/
def tokenFamily (app : App) (token : Str) : Option Uuid :=
  (app.ports.tokenProvider.refreshTokenClaims token).bind (·.tokenFamilyId)

/-- From `s` on, no session of the family is ever active, and no refresh token of it is
exchanged that was not exchanged before. -/
def DeadFrom (app : App) (f : Uuid) (s : SysState) : Prop :=
  ∀ s', Steps app.run anyRun s s' →
    (∀ a ∈ s'.store.sessions, a.tokenFamilyId = f → a.revokedAt.isSome = true) ∧
    ∀ token c, tokenFamily app token = some f → exchanged s' token c = true →
      exchanged s token c = true

section
variable {app : App} {token : Str} {c c' : Nat} {s s' : SysState} {f : Uuid}

/-- A call that exchanges a token in its last step rotates a live session of the family of
the token. -/
theorem not_dead_of_exchange {r : Request} {prog' : Service Response} {e : Event}
    {db : Db} (hs : Reachable app.run anyRun Seed s)
    (hs' : Reachable app.run anyRun Seed (s.advance c r e db prog'))
    (hstep : ProtocolStep app r (own c s.trace) e s.store db)
    (hfam : tokenFamily app token = some f)
    (hdone : exchanged (s.advance c r e db prog') token c = true) : ¬ Dead f s.store.nodes := by
  obtain ⟨p, m, x, hcall⟩ := exchanged_iff.mp hdone
  have hfin : Finishes app ⟨p, .refresh ⟨token⟩ m⟩ (own c s.trace ++ [e]) (.ok x) := by
    have h := (hs'.finish (app_refines app) hcall).1
    rwa [State.advance, own_append, own_singleton_self] at h
  have hinv : FamilyInv s.store s.trace := familyInv_of_reachable hs
  generalize hevs : own c s.trace ++ [e] = evs at hfin
  cases hfin with
  | @refreshed _ _ _ t claims old now sid tokens hash rotationNow hchecked hverified =>
    -- the last event of the history is the rotation, and the session was read before it
    have hsplit : own c s.trace ++ [e] =
        (refreshEvents t claims old now ++ [.verifiedToken true, .generatedId sid,
          .generatedTokens tokens, .hashedToken hash, .clock rotationNow]) ++
        [.committed (.rotated old.id sid)] := by
      rw [hevs, List.append_assoc]
      rfl
    obtain ⟨hhistory, hlast⟩ := List.append_inj' hsplit rfl
    cases List.singleton_injective hlast
    have hcommit := hstep.commits
    obtain ⟨_, o, ho, hoid, hlive⟩ := hinv.commit_rotated (sessions_commit hcommit)
    have hfound : (c, .foundSession (some old)) ∈ s.trace :=
      mem_own.mp (by simp [hhistory, refreshEvents])
    obtain ⟨a, ha, hold⟩ := hinv.found c old hfound
    have hao : a = o := hinv.wf.eq_of_id ha ho (hold.id.trans hoid.symm)
    have hof : o.family = f := by
      have hclaims : claims.tokenFamilyId = some f := by
        have hparsed := hchecked.parsed
        unfold JwtTokenProvider.parseRefreshToken at hparsed
        split at hparsed
        · rwa [tokenFamily, hparsed] at hfam
        · cases hparsed
      exact hao ▸ hold.family.trans (Option.some.inj (hchecked.family.symm.trans hclaims))
    intro hdead
    rw [hdead o ho hof] at hlive
    cases hlive
  | other h => cases h

end

section
variable {app : App} {s s' : SysState} {f : Uuid}

/-- A family that is dead in a reachable state is dead from then on. -/
theorem deadFrom_of_dead (hs : Reachable app.run anyRun Seed s)
    (hmem : ∃ a ∈ s.store.nodes, a.family = f) (hdead : Dead f s.store.nodes) :
    DeadFrom app f s := by
  have hrule : ∀ s', Steps app.run anyRun s s' →
      ((∃ a ∈ s'.store.nodes, a.family = f) ∧ Dead f s'.store.nodes) ∧
      ∀ token c, tokenFamily app token = some f → exchanged s' token c = true →
        exchanged s token c = true := by
    intro s' hrun
    induction hrun with
    | refl => exact ⟨⟨hmem, hdead⟩, fun _ _ _ h => h⟩
    | @tail s₁ s₂ hrun hstep ih =>
      obtain ⟨⟨⟨a, ha, haf⟩, hdead⟩, hback⟩ := ih
      have hs₁ : Reachable app.run anyRun Seed s₁ := hs.steps hrun
      have hinv : FamilyInv s₁.store s₁.trace := familyInv_of_reachable hs₁
      have hs₂ : Reachable app.run anyRun Seed s₂ := .step hs₁ hstep
      rcases hstep.protocol (app_refines app) hs₁ with
        ⟨c', r, hc', _, rfl⟩ | ⟨c', r, prog, prog', e, db, hc', _, _, hproto, rfl⟩
      · refine ⟨⟨⟨a, ha, haf⟩, hdead⟩, fun token c hfam hdone => hback token c hfam ?_⟩
        by_cases hcc : c = c'
        · -- a call that has just started has rotated nothing
          subst hcc
          obtain ⟨_, _, _, _, _, _, _, hrot⟩ := exchanged_rotated hs₂ hdone
          have hown : own c s₁.trace = [] := (hs₁.obeys (app_refines app)).2 c hc'
          have hmem : Event.committed _ ∈ own c s₁.trace := mem_own.mpr hrot
          rw [hown] at hmem
          cases hmem
        · simpa only [exchanged, State.begin, Function.update_of_ne hcc] using hdone
      · obtain ⟨b, hb, hab⟩ := (hinv.change hproto).evolves hinv.wf a ha
        have hbf : b.family = f := hab.family.trans haf
        refine ⟨⟨⟨b, hb, hbf⟩, (hinv.change hproto).dead hinv.wf ⟨a, ha, haf⟩ hdead⟩, ?_⟩
        intro token c hfam hdone
        refine hback token c hfam ?_
        by_cases hcc : c = c'
        · subst hcc
          exact absurd hdead (not_dead_of_exchange hs₁ hs₂ hproto hfam hdone)
        · simpa only [exchanged, State.advance, Function.update_of_ne hcc] using hdone
  intro s' hrun
  obtain ⟨⟨_, hdead'⟩, hback⟩ := hrule s' hrun
  refine ⟨fun a ha haf => ?_, hback⟩
  have hnone : a.revokedAt.isNone = false := hdead' a.node (mem_nodes ha) haf
  rw [← Option.not_isNone, hnone, Bool.not_false]

end

section
variable {app : App} {token : Str} {claims : RefreshTokenClaims} {p : AuthRuntimePolicies}
  {m : RequestMeta} {evs : List Event} {e : Event} {db db' : Db}

/-- No event on the way is an abort. -/
theorem ReusePath.no_thrown (h : ReusePath app token claims evs) :
    ∀ e ∈ evs, e.thrown = none := by
  cases h <;> simp [Event.thrown]

/-- No tokens are generated along the path. -/
theorem ReusePath.no_tokens (h : ReusePath app token claims evs) (tokens : AuthTokens) :
    .generatedTokens tokens ∉ evs := by
  cases h <;> simp

/-- A call on the path does not return. -/
theorem ReusePath.not_returned (h : ReusePath app token claims evs) {x : Response} :
    ¬ Finishes app ⟨p, .refresh ⟨token⟩ m⟩ evs (.ok x) := by
  intro hfin
  cases hfin with
  | refreshed => nomatch h
  | other hopen => cases hopen

/-- A call on the path that has thrown is at its end, and it has thrown
`RefreshTokenReuseDetected`. -/
theorem ReusePath.thrown (h : ReusePath app token claims evs) (hnonempty : token ≠ [])
    {x : Error} (hfin : Finishes app ⟨p, .refresh ⟨token⟩ m⟩ evs (.error x)) :
    x = .refreshTokenReuseDetected "refresh token reuse detected" ∧ evs.length = 5 := by
  cases hfin with
  | @aborted _ _ e _ _ hthrown =>
    rw [h.no_thrown e (List.mem_append_right _ (List.mem_singleton_self e))] at hthrown
    cases hthrown
  | refreshEmpty hempty => exact absurd hempty hnonempty
  | refreshRejected => cases h
  | refreshNotFound => cases h
  | refreshMismatch hmismatch =>
    simp only [refreshEvents] at h
    cases h with
    | clocked h =>
      rcases hmismatch with huser | hfamily
      · exact absurd h.user huser
      · exact absurd h.family hfamily
  | refreshRevoked => cases h
  | refreshReused => exact ⟨rfl, rfl⟩
  | refreshActive rest hactive =>
    -- in every history with a session, the session is revoked
    simp only [refreshEvents, List.cons_append, List.nil_append] at h
    cases h with
    | clocked h => rw [h.revoked] at hactive; cases hactive
    | verified h => rw [h.revoked] at hactive; cases hactive
    | reused h => rw [h.revoked] at hactive; cases hactive
  | other hopen => cases hopen

/-- Nothing follows the revocation of the family. -/
theorem ReusePath.last (h : ReusePath app token claims evs) (hlen : evs.length = 5) :
    ¬ ProtocolStep app ⟨p, .refresh ⟨token⟩ m⟩ evs e db db' := by
  intro hstep
  cases h with
  | reused h =>
    cases hstep with
    | aborted hab => cases e <;> cases hab
    | read hread => cases hread
    | committed hcommit => cases hcommit
  | _ => cases hlen

/-- The steps of the path generate no identifiers, so they are possible in every run. -/
theorem ReusePath.fresh (h : ReusePath app token claims evs) {tr : Trace}
    (hstep : ProtocolStep app ⟨p, .refresh ⟨token⟩ m⟩ evs e db db') : freshIds tr e = true := by
  cases e with
  | generatedId id =>
    cases hstep with
    | aborted hab => cases hab
    | read hread =>
      cases hread with
      | refreshSessionId hactive =>
        simp only [refreshEvents, List.cons_append, List.nil_append] at h
        cases h with
        | verified h =>
          rw [h.revoked] at hactive
          cases hactive
  | _ => rfl

end

/-- A refresh token that was exchanged in `s₀` and is presented again by a call that starts
later, with the token accepted and no port failing: the call generates no tokens, it ends
after five steps and can always take the next one, it ends with
`RefreshTokenReuseDetected`, and from then on the family of the token is dead. -/
theorem reuse_kills_family (app : App) (token : Str) (s₀ s : SysState) (c₀ c : Nat)
    (hs₀ : Reachable app.run anyRun Seed s₀) (hspent : exchanged s₀ token c₀ = true)
    (hidle : s₀.calls c = none) (hrun : Steps app.run anyRun s₀ s)
    (hpresents : presents s token c = true)
    (haccepted : ∀ t x, (c, .parsedRefreshToken t x) ∈ s.trace →
      app.ports.tokenProvider.unexpired token t = true)
    (hfaultless : ∀ what, (c, .failed what) ∉ s.trace) :
    (∀ tokens, (c, .generatedTokens tokens) ∉ s.trace) ∧
    match s.calls c with
    | some ⟨_, .raise x⟩ =>
        x = .refreshTokenReuseDetected "refresh token reuse detected" ∧
        ∃ f, tokenFamily app token = some f ∧ DeadFrom app f s
    | some ⟨_, .act f _⟩ =>
        (own c s.trace).length < 5 ∧ ∀ i, anyRun.act s c (f i s.store).1
    | _ => False := by
  have hs : Reachable app.run anyRun Seed s := hs₀.steps hrun
  obtain ⟨claims, hinv⟩ := reuseInv_of_steps hs₀ hspent hidle hrun
    ⟨.inr hpresents, haccepted, hfaultless⟩
  obtain ⟨a, ha, hsa⟩ := hinv.spent
  refine ⟨fun tokens hmem => hinv.path.no_tokens tokens (mem_own.mpr hmem), ?_⟩
  obtain ⟨p, m, prog, hcall⟩ := presents_iff.mp hpresents
  have hobeys := ((hs.obeys (app_refines app)).1 c _ hcall).2
  rw [hcall]
  cases prog with
  | done x => exact absurd hobeys.1 hinv.path.not_returned
  | raise x =>
    obtain ⟨hx, hlen⟩ := hinv.path.thrown hsa.nonempty hobeys.1
    have hfam : tokenFamily app token = some a.family := by
      rw [tokenFamily, hsa.decoded]
      exact hsa.family
    exact ⟨hx, a.family, hfam,
      deadFrom_of_dead hs ⟨a, ha, rfl⟩ (hinv.dead hlen a.family hsa.family)⟩
  | act f k =>
    have hstep := fun i => (hobeys i s.store).1
    refine ⟨?_, fun i => ⟨hinv.path.fresh (hstep i), trivial⟩⟩
    have hne : (own c s.trace).length ≠ 5 := fun hlen => hinv.path.last hlen (hstep {})
    exact Nat.lt_of_le_of_ne hinv.path.length_le hne

/-- One call exchanges the token of the first session, and a second one reads that session
while it is active. -/
def exchangeRun : List (Move Input Request) :=
  .start 0 (signInUnitUser "old_password") :: acts 0 (signInInputs ⟨1⟩ ⟨2⟩) ++
    [.start 1 (refreshWith (unitToken ⟨1⟩ ⟨2⟩)), .start 2 (refreshWith (unitToken ⟨3⟩ ⟨2⟩))] ++
    acts 1 (refreshInputs ⟨3⟩) ++ acts 2 ((refreshInputs ⟨4⟩).take 4)

/-- A third call presents the exchanged token again, and then the second call goes on. -/
def reuseRun : List (Move Input Request) :=
  .start 3 (refreshWith (unitToken ⟨1⟩ ⟨2⟩)) :: acts 3 [{}, {}, {}, {}, {}] ++
    acts 2 ((refreshInputs ⟨4⟩).drop 4)

/-- In such a run the call that was in flight does not bring the family back. -/
theorem reuse_kills_family_reuseRun :
    ∃ s₀ s : SysState, Reachable plainApp.run anyRun Seed s₀ ∧
      exchanged s₀ (unitToken ⟨1⟩ ⟨2⟩) 1 = true ∧ Steps plainApp.run anyRun s₀ s ∧
      raised s 3 = some (.refreshTokenReuseDetected "refresh token reuse detected") ∧
      (raised s 2).isSome = true ∧ DeadFrom plainApp ⟨2⟩ s := by
  obtain ⟨s₀, hs₀, hspent, hidle, s, hreplay, hpresents, hraised, hsecond, hclean⟩ :=
    exists_run plainApp anyRun exchangeRun (fun s₀ => exchanged s₀ (unitToken ⟨1⟩ ⟨2⟩) 1 ∧
      (s₀.calls 3).isNone ∧ ∃ s ∈ replay plainApp.run anyRun s₀ reuseRun,
        presents s (unitToken ⟨1⟩ ⟨2⟩) 3 ∧ (raised s 3).isSome ∧ (raised s 2).isSome ∧
        s.trace.all fun p => match p.2 with | .failed _ => false | _ => true) (by decide +kernel)
  have hrun : Steps plainApp.run anyRun s₀ s := steps_of_replay hreplay
  have hfaultless : ∀ what, (3, Event.failed what) ∉ s.trace := fun what hmem => by
    have hp := List.all_eq_true.mp hclean _ hmem
    cases hp
  have hresult := (reuse_kills_family plainApp (unitToken ⟨1⟩ ⟨2⟩) s₀ s 1 3 hs₀ hspent
    (Option.isNone_iff_eq_none.mp hidle) hrun hpresents (fun _ _ _ => rfl) hfaultless).2
  have hfamily : tokenFamily plainApp (unitToken ⟨1⟩ ⟨2⟩) = some ⟨2⟩ := by decide +kernel
  obtain ⟨x, hx⟩ := Option.isSome_iff_exists.mp hraised
  obtain ⟨r, hcall⟩ := raised_eq_some.mp hx
  rw [hcall] at hresult
  obtain ⟨hreused, f, hf, hdead⟩ := hresult
  cases hfamily.symm.trans hf
  exact ⟨s₀, s, hs₀, hspent, hrun, hreused ▸ hx, hsecond, hdead⟩

end SmirklyAuth
