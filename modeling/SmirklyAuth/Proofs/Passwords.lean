import SmirklyAuth.Lib.Journal
import SmirklyAuth.Protocol.Refinement
import SmirklyAuth.Protocol.UserTable

/-!
# `SmirklyAuth.Proofs.Passwords`: the password a call has read and the one that is stored

A call reads an account in one step and uses the hash in later ones. `PasswordInv` says how
long such a read is good: as long as no transaction has written the password of the
account, the hash that the call has read is the stored one.

`ChangePassword` verifies the current password against the hash it has read, and its
transaction overwrites the stored hash whatever it is. So the hash it overwrites is the
verified one only if the read is still current (`currentReads`):
`changePassword_replaces_verified` for the runs in which it is, and
`changePassword_lostUpdate` for a run in which it is not.
-/

set_option autoImplicit false

namespace SmirklyAuth

open Interleaving

/-- The event is a transaction that writes the password of the account. -/
def Event.writesPassword (userId : Uuid) : Event → Bool
  | .committed t => (t.passwordWrite.map (·.1)) == some userId
  | _ => false

/-- No password that the call `c` has read was written after the read. -/
def currentReads (c : Nat) : Trace → Bool
  | [] => true
  | (c', .foundUser (some user)) :: tr =>
      (c' != c || tr.all fun p => !p.2.writesPassword user.id) && currentReads c tr
  | _ :: tr => currentReads c tr

/-- The condition on a trace holds of its end. -/
theorem currentReads_tail {c : Nat} {p : Nat × Event} {tr : Trace}
    (h : currentReads c (p :: tr) = true) : currentReads c tr = true := by
  unfold currentReads at h
  split at h
  · rename_i heq
    cases heq
  · rename_i heq
    cases heq
    exact (Bool.and_eq_true_iff.mp h).2
  · rename_i heq
    cases heq
    exact h

/-- What `currentReads` says of one read. -/
theorem currentReads_after {c : Nat} {user : User} {pre post : Trace}
    (h : currentReads c (pre ++ (c, .foundUser (some user)) :: post) = true) :
    ∀ p ∈ post, p.2.writesPassword user.id = false := by
  induction pre with
  | nil =>
    rw [List.nil_append, currentReads, Bool.and_eq_true] at h
    have hall : post.all (fun p => !p.2.writesPassword user.id) = true := by
      simpa using h.1
    intro p hp
    simpa using List.all_eq_true.mp hall p hp
  | cons q pre ih => exact ih (currentReads_tail h)

/-- The invariant of the accounts and the trace: the ids are unique, and a hash that a call
has read is stored until a transaction writes it. -/
structure PasswordInv (db : Db) (tr : Trace) : Prop where
  nodup : (db.users.map (·.id)).Nodup
  found : ∀ c user pre post, tr = pre ++ (c, .foundUser (some user)) :: post →
    (∀ p ∈ post, p.2.writesPassword user.id = false) →
    ∃ u ∈ db.users, u.id = user.id ∧ u.password = user.password

/-- Before the first call no password was written. -/
theorem PasswordInv.init {db : Db} (h : Seed db) : PasswordInv db [] := by
  refine ⟨h.users, fun c user pre post hsplit => ?_⟩
  have hlen := congrArg List.length hsplit
  simp at hlen

section
variable {app : App} {r : Request} {db db' : Db} {tr : Trace} {c : Nat} {e : Event}

/-- The accounts after a step: ids stay unique, and a password that the step does not write
stays. -/
theorem users_step (hstep : ProtocolStep app r (own c tr) e db db')
    (hnodup : (db.users.map (·.id)).Nodup) :
    (db'.users.map (·.id)).Nodup ∧ ∀ u ∈ db.users, e.writesPassword u.id = false →
      ∃ u' ∈ db'.users, u'.id = u.id ∧ u'.password = u.password := by
  cases hstep with
  | aborted _ => exact ⟨hnodup, fun u hu _ => ⟨u, hu, rfl, rfl⟩⟩
  | read _ => exact ⟨hnodup, fun u hu _ => ⟨u, hu, rfl, rfl⟩⟩
  | @committed t _ _ hcommit =>
    have husers := users_commit hcommit
    refine ⟨husers.nodup hnodup, fun u hu hquiet => husers.keeps hu fun hash hwrite => ?_⟩
    simp [Event.writesPassword, hwrite] at hquiet

/-- Every step keeps the invariant. -/
theorem PasswordInv.step (h : PasswordInv db tr)
    (hstep : ProtocolStep app r (own c tr) e db db') : PasswordInv db' (tr ++ [(c, e)]) := by
  obtain ⟨hnodup, hkeeps⟩ := users_step hstep h.nodup
  refine ⟨hnodup, fun c' user pre post hsplit hquiet => ?_⟩
  rcases Journal.snoc_eq_append_cons hsplit with ⟨-, hlast, rfl⟩ | ⟨post, rfl, htr⟩
  · -- the read is the step itself, so the user is a row of the table
    cases hlast
    cases hstep with
    | aborted hab => cases hab
    | read hread => exact ⟨user, reads_foundUser hread, rfl, rfl⟩
  · -- the read is older, and the step does not write the password
    obtain ⟨u, hu, hid, hpassword⟩ := h.found c' user pre post htr fun p hp =>
      hquiet p (List.mem_append_left _ hp)
    have hlastQuiet : e.writesPassword u.id = false :=
      hid ▸ hquiet (c, e) (List.mem_append_right _ (List.mem_singleton_self _))
    obtain ⟨u', hu', hid', hpassword'⟩ := hkeeps u hu hlastQuiet
    exact ⟨u', hu', hid'.trans hid, hpassword'.trans hpassword⟩

/-- The invariant holds in every reachable state. -/
theorem passwordInv_of_reachable {start : Request → Prop}
    {act : SysState → Nat → Event → Prop} {s : SysState}
    (hs : Reachable app.run (admission start act) Seed s) : PasswordInv s.store s.trace :=
  Reachable.invariant (A := admission start act) (J := PasswordInv) (app_refines app)
    (fun _ => PasswordInv.init) (fun _ _ _ _ _ h _ _ hstep => h.step hstep) hs

/-- A hash that a call has read, with nothing written since, is the stored one. -/
theorem PasswordInv.storedHash_eq (h : PasswordInv db tr) {user : User}
    (hmem : (c, .foundUser (some user)) ∈ tr) (hcurrent : currentReads c tr = true) :
    db.storedHash user.id = some user.password := by
  obtain ⟨pre, post, rfl⟩ := List.append_of_mem hmem
  obtain ⟨u, hu, hid, hpassword⟩ := h.found c user pre post rfl (currentReads_after hcurrent)
  rw [← hid, ← hpassword]
  exact Db.storedHash_of_mem h.nodup hu

end

/-! ### `ChangePassword` -/

/-- A `ChangePassword` call commits only if its read is still current. -/
def changesCurrent (tr : Trace) (c : Nat) : Event → Bool
  | .committed (.passwordChanged _ _) => currentReads c tr
  | _ => true

/-- The runs in which no other transaction writes the password of an account between the
read of a `ChangePassword` call for it and the commit of that call. -/
abbrev currentChanges : SysAdmission :=
  admission (fun _ => True) fun s c e => changesCurrent s.trace c e = true

/-- In these runs the hash that a `ChangePassword` call overwrites is the hash against which
it has verified the current password. -/
theorem changePassword_replaces_verified (app : App) (s s' : SysState) (c : Nat)
    (userId : Uuid) (hash : Str) (hs : Reachable app.run currentChanges Seed s)
    (hstep : Step app.run currentChanges s s')
    (hcommit : s'.trace = s.trace ++ [(c, .committed (.passwordChanged userId hash))]) :
    ∃ old, s.store.storedHash userId = some old ∧ (c, .verifiedPassword old true) ∈ s.trace := by
  have hinv : PasswordInv s.store s.trace := passwordInv_of_reachable hs
  obtain ⟨r, _, _, db, _, _, hact, hproto, _⟩ := hstep.of_event (app_refines app) hs hcommit
  have hcurrent : currentReads c s.trace = true := hact.2
  have hmem : ∀ e, e ∈ own c s.trace → (c, e) ∈ s.trace := fun e => mem_own.mp
  have hcommits := hproto.commits
  generalize own c s.trace = evs at hcommits hmem
  cases hcommits with
  | @passwordChanged _ context cmd user _ _ _ _ huser htx =>
    have hstored : s.store.storedHash user.id = some user.password :=
      hinv.storedHash_eq (hmem _ (by simp)) hcurrent
    exact ⟨user.password, huser ▸ hstored, hmem _ (by simp)⟩

/-- Two calls verify the same current password, and then the first one commits. -/
def twoChanges : List (Move Input Request) :=
  [.start 1 (changeUnitPassword "old_password" "1st_password"),
    .start 2 (changeUnitPassword "old_password" "2nd_password")] ++
    acts 2 [{}, {}, {}, {}] ++ acts 1 [{}, {}, {}, {}, {}]

/-- In this run the second call commits as well. It overwrites the password of the first
one, which it has never verified. -/
theorem changePassword_lostUpdate :
    ∃ s s' : SysState, Reachable plainApp.run anyRun Seed s ∧
      Step plainApp.run anyRun s s' ∧
      s'.trace = s.trace ++ [(2, .committed (.passwordChanged unitUser.id "2nd_password"))] ∧
      s.store.storedHash unitUser.id = some "1st_password" ∧
      ¬ ∃ old, s.store.storedHash unitUser.id = some old ∧
        (2, .verifiedPassword old true) ∈ s.trace := by
  obtain ⟨s, hs, hstored, hunverified, s', hreplay, htrace⟩ := exists_run plainApp anyRun twoChanges
    (fun s => s.store.storedHash unitUser.id = some "1st_password" ∧
      (2, .verifiedPassword "1st_password" true) ∉ s.trace ∧
      ∃ s' ∈ replayMove plainApp.run anyRun s (.act 2 {}),
        s'.trace = s.trace ++ [(2, .committed (.passwordChanged unitUser.id "2nd_password"))])
    (by decide +kernel)
  refine ⟨s, s', hs, step_of_replayMove hreplay, htrace, hstored, ?_⟩
  rintro ⟨old, hold, hverified⟩
  cases hstored.symm.trans hold
  exact hunverified hverified

/-- A call that reads after the commit of the first one changes the password that it has
verified. -/
theorem changePassword_replaces_verified_sequential :
    ∃ s s' : SysState, Reachable plainApp.run currentChanges Seed s ∧
      Step plainApp.run currentChanges s s' ∧
      s.store.storedHash unitUser.id = some "1st_password" ∧
      ∃ old, s.store.storedHash unitUser.id = some old ∧
        (2, .verifiedPassword old true) ∈ s.trace := by
  obtain ⟨s, hs, hstored, s', hreplay, htrace⟩ := exists_run plainApp currentChanges
    (.start 1 (changeUnitPassword "old_password" "1st_password") :: acts 1 [{}, {}, {}, {}, {}] ++
      .start 2 (changeUnitPassword "1st_password" "2nd_password") :: acts 2 [{}, {}, {}, {}])
    (fun s => s.store.storedHash unitUser.id = some "1st_password" ∧
      ∃ s' ∈ replayMove plainApp.run currentChanges s (.act 2 {}),
        s'.trace = s.trace ++ [(2, .committed (.passwordChanged unitUser.id "2nd_password"))])
    (by decide +kernel)
  have hstep : Step plainApp.run currentChanges s s' := step_of_replayMove hreplay
  exact ⟨s, s', hs, hstep, hstored, changePassword_replaces_verified plainApp s s' 2 unitUser.id
    "2nd_password" hs hstep htrace⟩

end SmirklyAuth
