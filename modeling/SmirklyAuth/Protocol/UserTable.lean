import SmirklyAuth.Protocol.Frame

/-!
# `SmirklyAuth.Protocol.UserTable`: the accounts and their passwords

`users_commit` says what each transaction does to the table `users`, and
`reads_foundUser` that a user found by a call was a row of it. `TxEvent.passwordWrite`
names the account and the hash of the two transactions that write a password: an account
that a transaction does not write keeps its hash (`UsersCommit.keeps`).
-/

set_option autoImplicit false

namespace SmirklyAuth

open Sql (Update)

/-- The account and the hash that a transaction writes. -/
def TxEvent.passwordWrite : TxEvent → Option (Uuid × Str)
  | .passwordChanged userId hash => some (userId, hash)
  | .resetConfirmed _ userId hash => some (userId, hash)
  | _ => none

/-- The hash that is stored for an account. -/
def Db.storedHash (db : Db) (userId : Uuid) : Option Str :=
  (db.users.find? fun u => u.id == userId).map (·.password)

/-- With unique ids the stored hash is the one of the row with the id. -/
theorem Db.storedHash_of_mem {db : Db} (hnodup : (db.users.map (·.id)).Nodup) {u : User}
    (hu : u ∈ db.users) : db.storedHash u.id = some u.password := by
  have hsome : (db.users.find? fun v => v.id == u.id).isSome = true := by
    rw [List.find?_isSome]
    exact ⟨u, hu, beq_iff_eq.mpr rfl⟩
  obtain ⟨v, hv⟩ := Option.isSome_iff_exists.mp hsome
  have hid : v.id = u.id := by
    have hcond := List.find?_some hv
    exact beq_iff_eq.mp hcond
  have hvu : v = u := List.inj_on_of_nodup_map hnodup (List.mem_of_find?_eq_some hv) hu hid
  rw [Db.storedHash, hv, hvu]
  rfl

/-- The steps of the table `users`. -/
inductive UsersCommit : TxEvent → List User → List User → Prop where
  | joined {users} {user : User} (hnew : ∀ u ∈ users, u.id ≠ user.id) :
      UsersCommit (.signedUp user.id) users (users ++ [user])
  | verified {id userId users} :
      UsersCommit (.emailVerified id userId) users
        ((usersSetEmailVerified userId true).run users)
  | password {t userId hash now users} (h : t.passwordWrite = some (userId, hash)) :
      UsersCommit t users ((usersUpdatePasswordHash now userId hash).run users)
  | unchanged {t users} (h : t.writesUsers = false) : UsersCommit t users users

section
variable {app : App} {r : Request} {evs : List Event} {t : TxEvent} {db db' : Db}
  {users users' : List User}

/-- Every transaction is a step of the table. -/
theorem users_commit (h : Commits app r evs t db db') :
    UsersCommit t db.users db'.users := by
  have hframe := commits_frame h
  cases h with
  | signedUp _ _ htx =>
    obtain ⟨_, hnew, ⟨_, rfl⟩ | ⟨_, _, hissue⟩⟩ := signUpTx_eq_ok htx
    · exact .joined hnew
    · obtain ⟨_, _, _, _, _, _, rfl⟩ := issueCodeTx_eq_ok hissue
      exact .joined hnew
  | emailVerified _ htx =>
    obtain ⟨_, rfl⟩ := verifyEmailTx_eq_ok htx
    exact .verified
  | passwordChanged _ htx =>
    cases changePasswordTx_eq_ok htx
    exact .password rfl
  | resetConfirmed _ htx =>
    obtain ⟨_, rfl⟩ := confirmResetTx_eq_ok htx
    exact .password rfl
  | _ =>
    rw [hframe.users rfl]
    exact .unchanged rfl

/-- The ids of the accounts stay unique. -/
theorem UsersCommit.nodup (h : UsersCommit t users users')
    (hnodup : (users.map (·.id)).Nodup) : (users'.map (·.id)).Nodup := by
  cases h with
  | joined hnew => exact Sql.nodup_keys_snoc hnodup hnew
  | verified =>
    rw [Update.Keeps.map_run (fun _ => rfl) users]
    exact hnodup
  | password _ =>
    rw [Update.Keeps.map_run (fun _ => rfl) users]
    exact hnodup
  | unchanged _ => exact hnodup

/-- An account whose password a transaction does not write keeps it. -/
theorem UsersCommit.keeps (h : UsersCommit t users users') {u : User} (hu : u ∈ users)
    (hquiet : ∀ hash, t.passwordWrite ≠ some (u.id, hash)) :
    ∃ u' ∈ users', u'.id = u.id ∧ u'.password = u.password := by
  cases h with
  | joined _ => exact ⟨u, List.mem_append_left _ hu, rfl, rfl⟩
  | @verified _ userId =>
    have hid : (usersSetEmailVerified userId true).Keeps (·.id) := fun _ => rfl
    have hpassword : (usersSetEmailVerified userId true).Keeps (·.password) := fun _ => rfl
    exact ⟨_, Update.apply_mem_run hu, hid.apply u, hpassword.apply u⟩
  | @password _ userId hash now _ hwrite =>
    have hne : u.id ≠ userId := fun heq => hquiet hash (heq ▸ hwrite)
    have hskip : (usersUpdatePasswordHash now userId hash).cond u = false := by
      simp [usersUpdatePasswordHash, hne]
    have hmem := Update.apply_mem_run (u := usersUpdatePasswordHash now userId hash) hu
    rw [Update.apply_neg hskip] at hmem
    exact ⟨u, hmem, rfl, rfl⟩
  | unchanged _ => exact ⟨u, hu, rfl, rfl⟩

/-- A user that a call found is a row of the table. -/
theorem reads_foundUser {user : User} (h : Reads app r evs (.foundUser (some user)) db) :
    user ∈ db.users := by
  generalize he : Event.foundUser (some user) = e at h
  cases h with
  | signInUser hin =>
    have hfind := (Event.foundUser.inj he).symm
    unfold AuthenticationService.findSignInUser at hfind
    split at hfind
    · exact List.mem_of_find?_eq_some hfind
    · exact List.mem_of_find?_eq_some hfind
    · exact List.mem_of_find?_eq_some hfind
    · cases hfind
  | accessUser => exact List.mem_of_find?_eq_some (Event.foundUser.inj he).symm
  | currentUser => exact List.mem_of_find?_eq_some (Event.foundUser.inj he).symm
  | changeUser => exact List.mem_of_find?_eq_some (Event.foundUser.inj he).symm
  | requestUser => exact List.mem_of_find?_eq_some (Event.foundUser.inj he).symm
  | confirmUser => exact List.mem_of_find?_eq_some (Event.foundUser.inj he).symm
  | verifyUser => exact List.mem_of_find?_eq_some (Event.foundUser.inj he).symm
  | resendUser => exact List.mem_of_find?_eq_some (Event.foundUser.inj he).symm
  | _ => cases he

end

section
variable {t : TxEvent} {users users' : List User} {u u' : User}

/-- An update of the accounts that touches only the account `userId` and keeps the ids: a row
that it changes is a row of that account. -/
theorem id_of_run_ne {w : Update User} {userId : Uuid} (hid : w.Keeps (·.id))
    (hcond : ∀ v, w.cond v = true → v.id = userId) (hnodup : (users.map (·.id)).Nodup)
    (hu : u ∈ users) (hu' : u' ∈ w.run users) (heq : u'.id = u.id) (hne : u' ≠ u) :
    u' = w.set u ∧ u.id = userId := by
  obtain ⟨v, hv, rfl⟩ := Update.mem_run.mp hu'
  have hvu : v = u := List.inj_on_of_nodup_map hnodup hv hu ((hid.apply v).symm.trans heq)
  subst hvu
  cases hc : w.cond v with
  | false => exact absurd (Update.apply_neg hc) hne
  | true => exact ⟨Update.apply_pos hc, hcond v hc⟩

/-- An account changes only by the transactions that write it. -/
theorem UsersCommit.changed (h : UsersCommit t users users')
    (hnodup : (users.map (·.id)).Nodup) (hu : u ∈ users) (hu' : u' ∈ users')
    (heq : u'.id = u.id) (hne : u' ≠ u) :
    (∃ id, t = .emailVerified id u.id ∧ u' = { u with isEmailVerified := true }) ∨
      ∃ hash now, t.passwordWrite = some (u.id, hash) ∧
        u' = { u with password := hash, passwordUpdatedAt := now } := by
  cases h with
  | joined hnew =>
    rcases List.mem_append.mp hu' with hu' | hu'
    · exact absurd (List.inj_on_of_nodup_map hnodup hu' hu heq) hne
    · rw [List.mem_singleton.mp hu'] at heq
      exact absurd heq.symm (hnew u hu)
  | @verified id userId _ =>
    have hcond : ∀ v, (usersSetEmailVerified userId true).cond v = true → v.id = userId := by
      intro v hv
      exact beq_iff_eq.mp (Bool.and_eq_true_iff.mp hv).1
    obtain ⟨rfl, rfl⟩ := id_of_run_ne (fun _ => rfl) hcond hnodup hu hu' heq hne
    exact .inl ⟨id, rfl, rfl⟩
  | @password _ userId hash now _ hwrite =>
    have hcond : ∀ v, (usersUpdatePasswordHash now userId hash).cond v = true →
        v.id = userId := by
      intro v hv
      exact beq_iff_eq.mp (Bool.and_eq_true_iff.mp hv).1
    obtain ⟨rfl, rfl⟩ := id_of_run_ne (fun _ => rfl) hcond hnodup hu hu' heq hne
    exact .inr ⟨hash, now, hwrite, rfl⟩
  | unchanged _ => exact absurd (List.inj_on_of_nodup_map hnodup hu' hu heq) hne

end

end SmirklyAuth
