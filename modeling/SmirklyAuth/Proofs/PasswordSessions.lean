import SmirklyAuth.Proofs.Passwords
import SmirklyAuth.Proofs.TokenFamily

/-!
# `SmirklyAuth.Proofs.PasswordSessions`: the sessions of a password

`SessionsCurrent` says that every active session descends, through rotations, from a
sign-in that verified the password which is stored now. The two transactions that write a
password revoke every session of the account, so the only way to lose the property is a
sign-in that read the account before such a transaction and opens its session after it.

`sessions_current` is the result for the runs without such a sign-in, and
`signIn_outlives_password` is a run with one.
-/

set_option autoImplicit false

namespace SmirklyAuth

open Interleaving Lineage

/-- A sign-in has verified the hash and opened the session `root`. -/
def OpenedWith (tr : Trace) (root : Uuid) (hash : Str) : Prop :=
  ∃ c, (c, .committed (.signedIn root)) ∈ tr ∧ (c, .verifiedPassword hash true) ∈ tr

/-- A session that was opened with a hash has been opened with it. -/
theorem OpenedWith.append {tr : Trace} {root : Uuid} {hash : Str} (h : OpenedWith tr root hash)
    (tr' : Trace) : OpenedWith (tr ++ tr') root hash := by
  obtain ⟨c, hsigned, hverified⟩ := h
  exact ⟨c, List.mem_append_left _ hsigned, List.mem_append_left _ hverified⟩

/-- The session `id` of the account `owner` descends from a sign-in with the password that
is stored for the account. -/
def Authenticated (db : Db) (tr : Trace) (id owner : Uuid) : Prop :=
  ∃ root hash, Relation.ReflTransGen (Link db.nodes) root id ∧ OpenedWith tr root hash ∧
    db.storedHash owner = some hash

/-- The invariant of the live sessions. -/
def OriginInv (db : Db) (tr : Trace) : Prop :=
  ∀ a ∈ db.nodes, a.live = true → Authenticated db tr a.id a.owner

/-- Before the first call there is no session. -/
theorem OriginInv.init {db : Db} (h : Seed db) : OriginInv db [] := by
  intro a ha
  rw [Db.nodes, h.sessions] at ha
  cases ha

/-- The transactions that write a password revoke the sessions of the account. -/
theorem TxEvent.revokesUser_of_passwordWrite {t : TxEvent} {userId : Uuid} {hash : Str}
    (h : t.passwordWrite = some (userId, hash)) : t.revokesUser = some userId := by
  cases t <;> cases h <;> rfl

/-- A transaction that does not revoke the sessions of a user does not write the password. -/
theorem Event.writesPassword_committed {t : TxEvent} {userId : Uuid}
    (h : t.revokesUser ≠ some userId) : (Event.committed t).writesPassword userId = false := by
  rw [Event.writesPassword, beq_eq_false_iff_ne]
  intro hwrite
  obtain ⟨⟨u, hash⟩, hsome, rfl⟩ := Option.map_eq_some_iff.mp hwrite
  exact h (TxEvent.revokesUser_of_passwordWrite hsome)

section
variable {app : App} {r : Request} {db db' : Db} {tr : Trace} {c : Nat} {e : Event}
  {t : TxEvent} {id owner : Uuid}

/-- A step that does not write the password of an account leaves the stored hash. -/
theorem PasswordInv.storedHash_step (h : PasswordInv db tr)
    (hstep : ProtocolStep app r (own c tr) e db db') (hquiet : e.writesPassword owner = false)
    {hash : Str} (hstored : db.storedHash owner = some hash) :
    db'.storedHash owner = some hash := by
  obtain ⟨hnodup, hkeeps⟩ := users_step hstep h.nodup
  obtain ⟨u, hfind, rfl⟩ := Option.map_eq_some_iff.mp hstored
  have hid : u.id = owner := by
    have hcond := List.find?_some hfind
    exact beq_iff_eq.mp hcond
  obtain ⟨u', hu', hid', hpassword⟩ :=
    hkeeps u (List.mem_of_find?_eq_some hfind) (hid ▸ hquiet)
  rw [← hpassword, ← hid, ← hid']
  exact Db.storedHash_of_mem hnodup hu'

/-- A step that does not write the password keeps the origin of a session. -/
theorem Authenticated.step (h : Authenticated db tr id owner) (hfamily : FamilyInv db tr)
    (hpassword : PasswordInv db tr) (hstep : ProtocolStep app r (own c tr) e db db')
    (hquiet : e.writesPassword owner = false) :
    Authenticated db' (tr ++ [(c, e)]) id owner := by
  obtain ⟨root, hash, hchain, hopened, hstored⟩ := h
  refine ⟨root, hash, ?_, hopened.append _, hpassword.storedHash_step hstep hquiet hstored⟩
  have hevolves := (hfamily.change hstep).evolves hfamily.wf
  exact Relation.ReflTransGen.mono (fun _ _ hlink => hevolves.link hlink) _ _ hchain

/-- A sign-in whose read is still current opens a session of the stored password. -/
theorem authenticated_of_signIn (hpassword : PasswordInv db tr) {user : User} {sid : Uuid}
    (hfound : (c, .foundUser (some user)) ∈ tr)
    (hverified : (c, .verifiedPassword user.password true) ∈ tr)
    (hcurrent : currentReads c tr = true)
    (hstep : ProtocolStep app r (own c tr) (.committed (.signedIn sid)) db db') :
    Authenticated db' (tr ++ [(c, .committed (.signedIn sid))]) sid user.id := by
  have hstored : db.storedHash user.id = some user.password :=
    hpassword.storedHash_eq hfound hcurrent
  refine ⟨sid, user.password, .refl, ⟨c, ?_, List.mem_append_left _ hverified⟩, ?_⟩
  · exact List.mem_append_right _ (List.mem_singleton_self _)
  · exact hpassword.storedHash_step hstep rfl hstored

/-- A committed transaction keeps the invariant. -/
theorem OriginInv.commit (h : OriginInv db tr) (hfamily : FamilyInv db tr)
    (hpassword : PasswordInv db tr) (hcommit : Commits app r (own c tr) t db db')
    (hcurrent : ∀ sid, t = .signedIn sid → currentReads c tr = true) :
    OriginInv db' (tr ++ [(c, .committed t)]) := by
  have hstep : ProtocolStep app r (own c tr) (.committed t) db db' := .committed hcommit
  have hold : ∀ a ∈ db.nodes, a.live = true → t.revokesUser ≠ some a.owner →
      Authenticated db' (tr ++ [(c, .committed t)]) a.id a.owner := fun a ha hlive hne =>
    (h a ha hlive).step hfamily hpassword hstep (Event.writesPassword_committed hne)
  have hsessions := sessions_commit hcommit
  generalize hevs : own c tr = evs at hsessions
  generalize hns : db'.nodes = ns at hsessions
  intro a ha hlive
  rw [hns] at ha
  cases hsessions with
  | @opened _ user _ sid _ _ _ _ x hid _ howner _ _ _ =>
    rcases List.mem_append.mp ha with ha | ha
    · exact hold a ha hlive (by simp [TxEvent.revokesUser])
    · cases List.mem_singleton.mp ha
      rw [hid, howner]
      refine authenticated_of_signIn hpassword (mem_own.mp ?_) (mem_own.mp ?_)
        (hcurrent sid rfl) hstep
      · simp [hevs, signInEvents]
      · simp [hevs]
  | @rotated _ s sid _ x hfound hid hfam howner hnext hnew hexists =>
    obtain ⟨o, ho⟩ := hfamily.rotates (mem_own.mp (hevs ▸ hfound)) hfam howner hnext hnew hexists
    rcases ho.mem_rotate hfamily.wf ha with rfl | rfl | ⟨ha, _⟩
    · -- the new session descends from the exchanged one
      obtain ⟨root, hash, hchain, hopened, hstored⟩ :=
        hold o ho.mem ho.live (by simp [TxEvent.revokesUser])
      rw [ho.owner] at hstored
      refine ⟨root, hash, hchain.tail ?_, hopened, hstored⟩
      rw [hns, ho.id]
      exact ho.link
    · cases hlive
    · exact hold a ha hlive (by simp [TxEvent.revokesUser])
  | family =>
    exact hold a (mem_of_live_retire ha hlive).1 hlive (by simp [TxEvent.revokesUser])
  | @user _ _ userId _ hrevokes =>
    obtain ⟨hmem, hspared⟩ := mem_of_live_retire ha hlive
    refine hold a hmem hlive fun heq => ?_
    have howner : userId = a.owner := Option.some.inj (hrevokes.symm.trans heq)
    simp [howner] at hspared
  | single =>
    exact hold a (mem_of_live_retire ha hlive).1 hlive (by simp [TxEvent.revokesUser])
  | unchanged hquiet =>
    refine hold a ha hlive fun heq => ?_
    cases t <;> simp_all [TxEvent.onSessions, TxEvent.revokesUser]

end

/-- A sign-in commits only if its read is still current. -/
def signInsCurrent (tr : Trace) (c : Nat) : Event → Bool
  | .committed (.signedIn _) => currentReads c tr
  | _ => true

/-- The runs in which no transaction writes the password of an account between the read of
a `SignIn` call for it and the commit of that call. -/
abbrev currentSignIns : SysAdmission :=
  admission (fun _ => True) fun s c e => signInsCurrent s.trace c e = true

/-- Every active session descends, through zero or more rotations, from a sign-in whose
password check was made against the hash that is stored now. -/
def SessionsCurrent (s : SysState) : Prop :=
  ∀ a ∈ s.store.sessions, a.revokedAt = none → ∃ root c hash,
    Relation.ReflTransGen
      (fun p q => ∃ r ∈ s.store.sessions, r.id = p ∧ r.replacedBySessionId = some q) root a.id ∧
    (c, .committed (.signedIn root)) ∈ s.trace ∧ (c, .verifiedPassword hash true) ∈ s.trace ∧
    s.store.storedHash a.userId = some hash

/-- Where every session comes from, in every state that is reached. -/
theorem originInv_of_reachable {app : App} {s : SysState}
    (hs : Reachable app.run currentSignIns Seed s) : OriginInv s.store s.trace := by
  refine Reachable.rule (A := currentSignIns) (J := fun s => OriginInv s.store s.trace)
    (app_refines app) (fun _ => OriginInv.init) (fun _ _ _ _ h _ _ => h) ?_ hs
  intro s c r _ _ e db hs h _ _ hact hstep
  have hfamily : FamilyInv s.store s.trace := familyInv_of_reachable hs
  have hpassword : PasswordInv s.store s.trace := passwordInv_of_reachable hs
  have hquiet : (∀ userId, e.writesPassword userId = false) → db = s.store →
      OriginInv db (s.trace ++ [(c, e)]) := by
    rintro hnone rfl a ha hlive
    exact (h a ha hlive).step hfamily hpassword hstep (hnone a.owner)
  cases hstep with
  | aborted hab => exact hquiet (fun _ => by cases e <;> first | rfl | cases hab) rfl
  | read hread =>
    refine hquiet (fun _ => ?_) rfl
    generalize own c s.trace = evs at hread
    cases hread <;> rfl
  | committed hcommit =>
    refine h.commit hfamily hpassword hcommit ?_
    rintro sid rfl
    exact hact.2

/-- In these runs every active session was opened with the password that is stored now. -/
theorem sessions_current (app : App) (s : SysState)
    (hs : Reachable app.run currentSignIns Seed s) : SessionsCurrent s := by
  intro a ha hactive
  have hlive : a.node.live = true := Option.isNone_iff_eq_none.mpr hactive
  obtain ⟨root, hash, hchain, ⟨c, hsigned, hverified⟩, hstored⟩ :=
    originInv_of_reachable hs a.node (mem_nodes ha) hlive
  refine ⟨root, c, hash, ?_, hsigned, hverified, hstored⟩
  refine Relation.ReflTransGen.mono (fun p q hlink => ?_) _ _ hchain
  obtain ⟨b, hb, hid, hnext⟩ := hlink
  obtain ⟨row, hrow, rfl⟩ := List.mem_map.mp hb
  exact ⟨row, hrow, hid, hnext⟩

/-- A sign-in verifies the old password, the password is changed, and then the sign-in goes
on. -/
def signInAcrossChange : List (Move Input Request) :=
  .start 0 (signInUnitUser "old_password") :: acts 0 ((signInInputs ⟨1⟩ ⟨2⟩).take 4) ++
    .start 1 (changeUnitPassword "old_password" "1st_password") ::
    acts 1 [{}, {}, {}, {}, {}] ++ acts 0 ((signInInputs ⟨1⟩ ⟨2⟩).drop 4)

/-- The session that it opens is active, and no sign-in has verified the stored password. -/
theorem signIn_outlives_password :
    ∃ s : SysState, Reachable plainApp.run anyRun Seed s ∧ ¬ SessionsCurrent s := by
  obtain ⟨s, hs, ⟨a, ha, hactive, hhash⟩, hunverified⟩ := exists_run plainApp anyRun
    signInAcrossChange (fun s => (∃ a ∈ s.store.sessions, a.revokedAt = none ∧
      s.store.storedHash a.userId = some "1st_password") ∧
        ∀ p ∈ s.trace, p.2 ≠ .verifiedPassword "1st_password" true) (by decide +kernel)
  refine ⟨s, hs, fun hcurrent => ?_⟩
  obtain ⟨root, c, hash, _, _, hverified, hstored⟩ := hcurrent a ha hactive
  cases hhash.symm.trans hstored
  exact hunverified _ hverified rfl

/-- The password is changed, and then a sign-in with the new one opens a session and
rotates it. -/
theorem sessions_current_afterChange :
    ∃ s : SysState, Reachable plainApp.run currentSignIns Seed s ∧
      (s.store.sessions.any fun a => a.revokedAt.isNone) = true ∧ SessionsCurrent s := by
  obtain ⟨s, hs, hactive⟩ := exists_run plainApp currentSignIns
    (.start 1 (changeUnitPassword "old_password" "1st_password") :: acts 1 [{}, {}, {}, {}, {}] ++
      .start 0 (signInUnitUser "1st_password") :: acts 0 (signInInputs ⟨1⟩ ⟨2⟩) ++
      .start 2 (refreshWith (unitToken ⟨1⟩ ⟨2⟩)) :: acts 2 (refreshInputs ⟨3⟩))
    (fun s => (s.store.sessions.any fun a => a.revokedAt.isNone) = true) (by decide +kernel)
  exact ⟨s, hs, hactive, sessions_current plainApp s hs⟩

end SmirklyAuth
