import SmirklyAuth.Lib.Outcomes
import SmirklyAuth.Proofs.MailedSecrets
import SmirklyAuth.Proofs.OneTimeCodes

/-!
# `SmirklyAuth.Proofs.AccountChanges`: how an account changes

The row of an account in `users` is written in three ways after its sign-up: `ChangePassword`
and `ConfirmReset` write the password, and `VerifyEmail` sets `is_email_verified`.
`account_change_caused` says what stands behind such a write in every run.

* `ChangePassword`: the caller has given a password that the hasher accepts for the hash of the
  account, as the call has read it.
* `ConfirmReset` and `VerifyEmail`: the caller has given a text that the hasher accepts for a
  stored code of the account, and a step before in the run had put the text that was hashed for
  this code into a mail to the address of the account (`Mailed`).

So an account changes hands only through its old password or through its mailbox. The new hash is
always a hash of the password that the caller has asked for.
-/

set_option autoImplicit false

namespace SmirklyAuth

open Interleaving

/-! ### The events of a call -/

/-- The password that a command stores. -/
def Command.newPassword : Command → Option Str
  | .signUp cmd _ => some cmd.password
  | .changePassword _ cmd => some cmd.newPassword
  | .confirmReset cmd _ => some cmd.newPassword
  | _ => none

/-- What an event of a call says about its command and the events before it. -/
def Explained (app : App) (command : Command) (evs : List Event) : Event → Prop
  | .verifiedResetToken id ok => ∃ cmd reqMeta row, command = .confirmReset cmd reqMeta ∧
      .foundReset (some row) ∈ evs ∧ row.id = id ∧
      app.ports.resetTokenHasher.verify cmd.token row.secretHash = ok
  | .verifiedCode id ok => ∃ cmd reqMeta row, command = .verifyEmail cmd reqMeta ∧
      .foundVerification (some row) ∈ evs ∧ row.id = id ∧
      app.ports.verificationCodeHasher.verify row.userId cmd.code row.secretHash = ok
  | .hashedPassword hash => ∃ password salt, command.newPassword = some password ∧
      hash = app.ports.passwordHasher.hash password salt
  | _ => True

section
variable {app : App} {A : SysAdmission} {I : Db → Prop} {s : SysState}

/-- An explanation stays one when more events follow. -/
theorem Explained.append {command : Command} {evs : List Event} {e : Event}
    (h : Explained app command evs e) (evs' : List Event) :
    Explained app command (evs ++ evs') e := by
  cases e with
  | verifiedResetToken id ok =>
    obtain ⟨cmd, reqMeta, row, hcommand, hfound, hrest⟩ := h
    exact ⟨cmd, reqMeta, row, hcommand, List.mem_append_left _ hfound, hrest⟩
  | verifiedCode id ok =>
    obtain ⟨cmd, reqMeta, row, hcommand, hfound, hrest⟩ := h
    exact ⟨cmd, reqMeta, row, hcommand, List.mem_append_left _ hfound, hrest⟩
  | hashedPassword hash => exact h
  | _ => trivial

/-- Every read is explained by the command. -/
theorem reads_explained {r : Request} {evs : List Event} {e : Event} {db : Db}
    (h : Reads app r evs e db) : Explained app r.command evs e := by
  cases h with
  | confirmVerify _ => exact ⟨_, _, _, rfl, by simp, rfl, rfl⟩
  | verifyVerify hfound =>
    refine ⟨_, _, _, rfl, by simp, rfl, ?_⟩
    rw [hfound.owner]
  | changeHash => exact ⟨_, _, rfl, rfl⟩
  | confirmHash => exact ⟨_, _, rfl, rfl⟩
  | signUpHash => exact ⟨_, _, rfl, rfl⟩
  | _ => trivial

/-- Every event of every call is explained. -/
theorem explained_of_reachable (hs : Reachable app.run A I s) :
    ∀ c call, s.calls c = some call → ∀ e ∈ own c s.trace,
      Explained app call.request.command (own c s.trace) e := by
  refine Reachable.call_invariant (J := fun r evs => ∀ e ∈ evs, Explained app r.command evs e)
    (app_refines app) (fun _ _ _ h => nomatch h) ?_ hs
  intro s db c r e _ hJ _ _ hstep e' he'
  rcases List.mem_append.mp he' with hold | hlast
  · exact (hJ e' hold).append _
  · cases List.mem_singleton.mp hlast
    refine Explained.append ?_ _
    cases hstep with
    | aborted hab => cases e <;> trivial
    | read hread => exact reads_explained hread
    | committed _ => trivial

/-- The first comparison of `ChangePassword` is about the current password. -/
theorem changePassword_compared (hs : Reachable app.run A I s) {c : Nat}
    {call : Call Db Input Event Error Request Response} (hc : s.calls c = some call)
    {context : AuthContext} {cmd : ChangePasswordCommand}
    (hcommand : call.request.command = .changePassword context cmd) {hash : Str} {ok : Bool}
    (hevent : (own c s.trace)[1]? = some (.verifiedPassword hash ok)) :
    app.ports.passwordHasher.verify cmd.currentPassword hash = ok := by
  refine Reachable.call_invariant (J := fun r evs => r.command = .changePassword context cmd →
    evs[1]? = some (.verifiedPassword hash ok) →
      app.ports.passwordHasher.verify cmd.currentPassword hash = ok)
    (app_refines app) (fun _ _ _ h => nomatch h) ?_ hs c call hc hcommand hevent
  rintro s db c ⟨p, command⟩ e _ hJ _ _ hstep rfl hsecond
  by_cases hlen : 1 < (own c s.trace).length
  · rw [List.getElem?_append_left hlen] at hsecond
    exact hJ rfl hsecond
  · -- the event of the step is the second one, or there is no second one
    rw [List.getElem?_append_right (by omega)] at hsecond
    have hone : (own c s.trace).length = 1 := by
      by_contra hne
      have hzero : (own c s.trace).length = 0 := by omega
      simp [hzero] at hsecond
    simp only [hone, Nat.sub_self, List.getElem?_cons_zero, Option.some.injEq] at hsecond
    subst hsecond
    cases hstep with
    | aborted hab => cases hab
    | read hread =>
      generalize own c s.trace = evs at hread hone
      generalize hevent : Event.verifiedPassword hash ok = e at hread
      cases hread with
      | changeVerify =>
        cases hevent
        rfl
      | changeCompare => simp at hone
      | _ => cases hevent

end

/-! ### Mailed codes -/

/-- A step of the run up to `s` has put a mail to `address` into the outbox, with the text whose
hash for the account is `hash`. -/
def Mailed (app : App) (A : SysAdmission) (s : SysState) (kind : CodeKind) (userId : Uuid)
    (hash address : Str) : Prop :=
  ∃ s₀ s₁ job message secret, Reachable app.run A Seed s₀ ∧ Step app.run A s₀ s₁ ∧
    Steps app.run A s₁ s ∧ s₁.store.emailOutbox = s₀.store.emailOutbox ++ [job] ∧
    (∀ leaseId, EmailOutboxProcessor.parseMessage (job.toEntry leaseId) = .ok message) ∧
    message.toEmail = address ∧ kind.secretOf message = some secret ∧
    hash = kind.hash app.ports userId secret

/-- The code was mailed to the address that is stored for its account. -/
def MailedCode (app : App) (A : SysAdmission) (s : SysState) (kind : CodeKind)
    (row : OneTimeCode) : Prop :=
  ∃ user ∈ s.store.users, user.id = row.userId ∧
    ∃ address, user.email = some address ∧ Mailed app A s kind row.userId row.secretHash address

/-- A row of the table has the id, the account and the hash of the code. -/
def Stored (s : SysState) (kind : CodeKind) (row : OneTimeCode) : Prop :=
  ∃ stored ∈ kind.rows s.store, row.SameSecret stored

/-- The codes of a state were mailed, and those that its calls have found are still stored. -/
structure CodeHistory (app : App) (A : SysAdmission) (s : SysState) : Prop where
  rows : ∀ kind : CodeKind, ∀ row ∈ kind.rows s.store, MailedCode app A s kind row
  found : ∀ (kind : CodeKind) c row, kind.found row ∈ own c s.trace → Stored s kind row

section
variable {app : App} {A : SysAdmission} {s s' : SysState} {kind : CodeKind} {row row' : OneTimeCode}

/-- A mail that was sent has been sent. -/
theorem Mailed.step {userId : Uuid} {hash address : Str}
    (h : Mailed app A s kind userId hash address) (hstep : Step app.run A s s') :
    Mailed app A s' kind userId hash address := by
  obtain ⟨s₀, s₁, job, message, secret, hs₀, hissue, hsteps, hrest⟩ := h
  exact ⟨s₀, s₁, job, message, secret, hs₀, hissue, hsteps.tail hstep, hrest⟩

/-- A code stays mailed, since neither its hash nor the address of its account changes. -/
theorem MailedCode.step (h : MailedCode app A s kind row) (hstep : Step app.run A s s')
    (hrow : row.SameSecret row')
    (husers : ∀ u ∈ s.store.users, ∃ u' ∈ s'.store.users, u'.id = u.id ∧ u'.email = u.email) :
    MailedCode app A s' kind row' := by
  obtain ⟨user, huser, hid, address, hemail, hmailed⟩ := h
  obtain ⟨user', huser', hid', hemail'⟩ := husers user huser
  rw [← hrow.userId] at hid
  rw [← hrow.userId, ← hrow.secretHash] at hmailed
  exact ⟨user', huser', hid'.trans hid, address, hemail'.trans hemail, hmailed.step hstep⟩

/-- A step that issues a code mails it. -/
theorem mailedCode_of_issue (hs : Reachable app.run A Seed s) (hstep : Step app.run A s s')
    {id : Uuid} {now : Time} {email secret correlationId : Str}
    (hhash : row.secretHash = kind.hash app.ports row.userId secret)
    (hemail : ∃ user ∈ s'.store.users, user.id = row.userId ∧ user.email = some email)
    (hjob : s'.store.emailOutbox = s.store.emailOutbox ++ [emailOutboxInsert id now email
      kind.template [(kind.member, secret), ("locale", "ru")] correlationId]) :
    MailedCode app A s' kind row := by
  obtain ⟨user, huser, hid, haddress⟩ := hemail
  refine ⟨user, huser, hid, email, haddress, ?_⟩
  -- the worker reads the secret back from the payload
  cases kind with
  | emailVerification =>
    exact ⟨s, s', _, .verification ⟨email, secret, correlationId, "ru"⟩, secret, hs, hstep, .refl,
      hjob, fun _ => rfl, rfl, rfl, hhash⟩
  | passwordReset =>
    exact ⟨s, s', _, .passwordReset ⟨email, secret, correlationId, "ru"⟩, secret, hs, hstep,
      .refl, hjob, fun _ => rfl, rfl, rfl, hhash⟩

/-- The rows of a table after a step. -/
theorem mailedRows_step (h : ∀ row ∈ kind.rows s.store, MailedCode app A s kind row)
    (hstep : Step app.run A s s') {rows : List OneTimeCode}
    (hrows : List.Forall₂ OneTimeCode.SameSecret (kind.rows s.store) rows)
    (husers : ∀ u ∈ s.store.users, ∃ u' ∈ s'.store.users, u'.id = u.id ∧ u'.email = u.email) :
    ∀ row ∈ rows, MailedCode app A s' kind row := by
  generalize kind.rows s.store = before at h hrows
  induction hrows with
  | nil => exact fun _ hrow => nomatch hrow
  | @cons r r' before after hsame _ ih =>
    intro row hrow
    rcases List.mem_cons.mp hrow with rfl | hrow
    · exact (h r List.mem_cons_self).step hstep hsame husers
    · exact ih (fun row hrow => h row (List.mem_cons_of_mem _ hrow)) row hrow

/-- One step on the rows: a code is an old one, or its mail was enqueued with it. -/
theorem CodeHistory.rows_step (h : CodeHistory app A s) (hs : Reachable app.run A Seed s)
    (hstep : Step app.run A s s') (hmail : MailStep app s.store s'.store)
    (husers : ∀ u ∈ s.store.users, ∃ u' ∈ s'.store.users, u'.id = u.id ∧ u'.email = u.email)
    (kind : CodeKind) : ∀ row ∈ kind.rows s'.store, MailedCode app A s' kind row := by
  cases hmail with
  | kept hrows _ => exact mailedRows_step (h.rows kind) hstep (hrows kind) husers
  | @issued issuedKind base new id now email secret correlationId hbase hnew hother hhash hemail
      _ hjob =>
    by_cases hkind : kind = issuedKind
    · subst hkind
      rw [hnew]
      intro row hrow
      rcases List.mem_append.mp hrow with hold | hlast
      · exact mailedRows_step (h.rows kind) hstep hbase husers row hold
      · cases List.mem_singleton.mp hlast
        exact mailedCode_of_issue hs hstep hhash hemail hjob
    · rw [hother kind hkind]
      exact mailedRows_step (h.rows kind) hstep (sameSecret_refl _) husers

/-- No step deletes a code or changes its hash. -/
theorem Stored.step (h : Stored s kind row) (hmail : MailStep app s.store s'.store) :
    Stored s' kind row := by
  obtain ⟨stored, hstored, hsame⟩ := h
  obtain ⟨row', hrow', hsame'⟩ := hmail.keeps_secret hstored
  exact ⟨row', hrow', hsame.trans hsame'⟩

/-- A code that a step finds is a row of the table. -/
theorem step_foundCode {r : Request} {evs : List Event} {db db' : Db}
    (h : ProtocolStep app r evs (kind.found row) db db') : row ∈ kind.rows db := by
  generalize he : kind.found row = e at h
  cases h with
  | aborted hab =>
    subst he
    cases kind <;> cases hab
  | read hread => exact reads_foundCode (he ▸ hread)
  | committed _ => cases kind <;> cases he

/-- Every code of every run was mailed, and is stored for good. -/
theorem codeHistory_of_reachable (hports : app.ports.VerifiesSecrets)
    (hs : Reachable app.run A Seed s) : CodeHistory app A s := by
  induction hs with
  | @init db hseed =>
    refine ⟨fun kind row hrow => ?_, fun kind c row hfound => nomatch hfound⟩
    replace hrow : row ∈ kind.rows db := hrow
    rw [hseed.codes kind] at hrow
    cases hrow
  | @step s s' hs hstep ih =>
    have hinv := mailInv_of_reachable hports hs
    rcases hstep.protocol (app_refines app) hs with
      ⟨c, r, _, _, rfl⟩ | ⟨c, r, p, p', e, db, _, _, _, hprotocol, rfl⟩
    · -- the start of a call
      exact ⟨fun kind row hrow => (ih.rows kind row hrow).step hstep (.refl _)
        fun u hu => ⟨u, hu, rfl, rfl⟩, ih.found⟩
    · have hmail := mails_step hprotocol hinv.ids (hinv.found c)
      have husers := fun u hu => keeps_addresses hprotocol (u := u) hu
      refine ⟨ih.rows_step hs hstep hmail husers, fun kind c' row hfound => ?_⟩
      rcases List.mem_append.mp (mem_own.mp hfound) with hold | hlast
      · exact (ih.found kind c' row (mem_own.mpr hold)).step hmail
      · -- a code that is found now is a row of the table
        obtain rfl := congrArg Prod.snd (List.mem_singleton.mp hlast)
        have hstored : Stored s kind row := ⟨row, step_foundCode hprotocol, .refl row⟩
        exact hstored.step hmail

end

/-! ### The changes -/

/-- What stands behind a change of the account `u` to `u'` by a call with the events `evs`:

- `passwordChanged`: the caller knew a password that fits the hash which the call has read;
- `passwordReset`: the caller knew a text that fits a stored reset token of the account, which
  was mailed to the address of the account;
- `emailVerified`: the same for a verification code. -/
inductive AccountChange (app : App) (A : SysAdmission) (s : SysState) (r : Request)
    (evs : List Event) (u u' : User) : Prop where
  | passwordChanged {context cmd} (user : User) (salt : Str) (now : Time)
      (hcommand : r.command = .changePassword context cmd) (hcontext : context.userId = u.id)
      (hread : .foundUser (some user) ∈ evs) (huser : user.id = u.id)
      (hknown : app.ports.passwordHasher.verify cmd.currentPassword user.password = true)
      (hnew : u' = { u with
        password := app.ports.passwordHasher.hash cmd.newPassword salt
        passwordUpdatedAt := now })
  | passwordReset {cmd reqMeta address} (row : OneTimeCode) (salt : Str) (now : Time)
      (hcommand : r.command = .confirmReset cmd reqMeta)
      (hstored : row ∈ s.store.passwordResets) (howner : row.userId = u.id)
      (haddress : u.email = some address)
      (hmailed : Mailed app A s .passwordReset u.id row.secretHash address)
      (hknown : app.ports.resetTokenHasher.verify cmd.token row.secretHash = true)
      (hnew : u' = { u with
        password := app.ports.passwordHasher.hash cmd.newPassword salt
        passwordUpdatedAt := now })
  | emailVerified {cmd reqMeta address} (row : OneTimeCode)
      (hcommand : r.command = .verifyEmail cmd reqMeta)
      (hstored : row ∈ s.store.emailVerifications) (howner : row.userId = u.id)
      (haddress : u.email = some address)
      (hmailed : Mailed app A s .emailVerification u.id row.secretHash address)
      (hknown : app.ports.verificationCodeHasher.verify u.id cmd.code row.secretHash = true)
      (hnew : u' = { u with isEmailVerified := true })

section
variable {app : App} {A : SysAdmission} {s : SysState} {u u' : User}

/-- The address of an account to which a code was mailed. -/
theorem MailedCode.address {kind : CodeKind} {row : OneTimeCode}
    (h : MailedCode app A s kind row) (hnodup : (s.store.users.map (·.id)).Nodup)
    (hu : u ∈ s.store.users) (hid : row.userId = u.id) :
    ∃ address, u.email = some address ∧ Mailed app A s kind u.id row.secretHash address := by
  obtain ⟨user, huser, huserId, address, hemail, hmailed⟩ := h
  have hsame : user = u :=
    List.inj_on_of_nodup_map hnodup huser hu (huserId.trans hid)
  rw [hid] at hmailed
  exact ⟨address, hsame ▸ hemail, hmailed⟩

/-- The hash is the one of a stored code of the account, which was mailed to its address. -/
def MailedTo (app : App) (A : SysAdmission) (s : SysState) (kind : CodeKind) (u : User)
    (hash : Str) : Prop :=
  ∃ stored ∈ kind.rows s.store, stored.userId = u.id ∧ stored.secretHash = hash ∧
    ∃ address, u.email = some address ∧ Mailed app A s kind u.id hash address

/-- A code of the account that a call has found. -/
theorem CodeHistory.mailedTo (h : CodeHistory app A s) (hnodup : (s.store.users.map (·.id)).Nodup)
    (hu : u ∈ s.store.users) {kind : CodeKind} {c : Nat} {row : OneTimeCode}
    (hfound : kind.found row ∈ own c s.trace) (howner : row.userId = u.id) :
    MailedTo app A s kind u row.secretHash := by
  obtain ⟨stored, hstored, hsame⟩ := h.found kind c row hfound
  have hstoredOwner : stored.userId = u.id := hsame.userId.trans howner
  have hmailed := (h.rows kind stored hstored).address hnodup hu hstoredOwner
  rw [hsame.secretHash] at hmailed
  exact ⟨stored, hstored, hstoredOwner, hsame.secretHash, hmailed⟩

/-- A transaction that changes an account, given what the events of its call say. -/
theorem accountChange_of_commits {r : Request} {evs : List Event} {t : TxEvent} {db : Db}
    (hcommit : Commits app r evs t s.store db) (hnodup : (s.store.users.map (·.id)).Nodup)
    (hfound : ∀ (kind : CodeKind) row, kind.found row ∈ evs → row.userId = u.id →
      MailedTo app A s kind u row.secretHash)
    (hexplained : ∀ e ∈ evs, Explained app r.command evs e)
    (hcompared : ∀ context cmd hash, r.command = .changePassword context cmd →
      evs[1]? = some (.verifiedPassword hash true) →
        app.ports.passwordHasher.verify cmd.currentPassword hash = true)
    (hu : u ∈ s.store.users) (hu' : u' ∈ db.users) (hid : u'.id = u.id) (hne : u' ≠ u) :
    AccountChange app A s r evs u u' := by
  rcases (users_commit hcommit).changed hnodup hu hu' hid hne with
    ⟨codeId, rfl, hnew⟩ | ⟨hash, now, hwrite, hnew⟩
  · generalize huserId : u.id = userId at hcommit
    cases hcommit with
    | @emailVerified _ cmd reqMeta now user row _ _ hrow =>
      have howner : row.userId = u.id := hrow.owner.trans huserId.symm
      obtain ⟨stored, hstored, hstoredOwner, hhash, address, haddress, hmailed⟩ :=
        hfound .emailVerification row (by simp [CodeKind.found]) howner
      rw [← hhash] at hmailed
      obtain ⟨_, _, row', hcommand, hrow', _, hknown⟩ :=
        hexplained (.verifiedCode row.id true) (by simp)
      cases hcommand
      obtain rfl : row' = row := by simpa [verifyEmailEvents] using hrow'
      rw [howner, ← hhash] at hknown
      exact .emailVerified stored rfl hstored hstoredOwner haddress hmailed hknown hnew
  · cases hcommit with
    | @passwordChanged _ context cmd user newHash _ _ _ huser _ =>
      obtain ⟨hcontext, rfl⟩ := Prod.ext_iff.mp (Option.some.inj hwrite)
      obtain ⟨_, salt, hpassword, hhash⟩ := hexplained (.hashedPassword newHash) (by simp)
      cases hpassword
      have hknown := hcompared context cmd user.password rfl rfl
      refine .passwordChanged user salt now rfl hcontext (by simp) (huser.trans hcontext) hknown ?_
      rw [hnew, ← hhash]
    | @resetConfirmed _ cmd reqMeta _ user row newHash _ _ _ hrow _ =>
      obtain ⟨huser, rfl⟩ := Prod.ext_iff.mp (Option.some.inj hwrite)
      obtain ⟨stored, hstored, howner, hstoredHash, address, haddress, hmailed⟩ :=
        hfound .passwordReset row (by simp [CodeKind.found]) (hrow.owner.trans huser)
      rw [← hstoredHash] at hmailed
      obtain ⟨_, _, row', hcommand, hrow', _, hknown⟩ :=
        hexplained (.verifiedResetToken row.id true) (by simp)
      cases hcommand
      obtain rfl : row' = row := by simpa [confirmResetEvents] using hrow'
      obtain ⟨_, salt, hpassword, hhash⟩ := hexplained (.hashedPassword newHash) (by simp)
      cases hpassword
      rw [← hstoredHash] at hknown
      refine .passwordReset stored salt now rfl hstored howner haddress hmailed hknown ?_
      rw [hnew, ← hhash]
    | _ => cases hwrite

end

/-- A step changes an account only with its old password or with a secret that was mailed to
its address. Take any run from a database without sessions, codes and mails, a step of a call in
it, and an account that differs after the step. The call is a `ChangePassword` call of the
account with a password that fits the hash it has read, or a `ConfirmReset` or `VerifyEmail`
call with a text that fits a stored code of the account, which an earlier step of the run has
mailed to the address of the account. The new row is the old one with a hash of the requested
password, or with the address marked as verified. -/
theorem account_change_caused (app : App) (hports : app.ports.VerifiesSecrets) (s s' : SysState)
    (hs : Reachable app.run anyRun Seed s) (hstep : Step app.run anyRun s s') (c : Nat)
    (e : Event) (hevent : s'.trace = s.trace ++ [(c, e)]) (r : Request) (p : Service Response)
    (hc : s.calls c = some ⟨r, p⟩) (u u' : User) (hu : u ∈ s.store.users)
    (hu' : u' ∈ s'.store.users) (hid : u'.id = u.id) (hne : u' ≠ u) :
    AccountChange app anyRun s r (own c s.trace) u u' := by
  obtain ⟨_, _, _, db, hc', _, _, hprotocol, rfl⟩ := hstep.of_event (app_refines app) hs hevent
  rw [hc] at hc'
  cases hc'
  have hnodup := (passwordInv_of_reachable hs).nodup
  replace hu' : u' ∈ db.users := hu'
  cases hprotocol with
  | aborted _ => exact absurd (List.inj_on_of_nodup_map hnodup hu' hu hid) hne
  | read _ => exact absurd (List.inj_on_of_nodup_map hnodup hu' hu hid) hne
  | committed hcommit =>
    exact accountChange_of_commits hcommit hnodup
      (fun _ _ => (codeHistory_of_reachable hports hs).mailedTo hnodup hu)
      (explained_of_reachable hs c _ hc)
      (fun _ _ _ hcommand => changePassword_compared hs hc hcommand) hu hu' hid hne

/-- The last step of a reset with the mailed token. -/
theorem account_change_caused_reset : ∃ (s s' : SysState) (r : Request) (u' : User),
    unitUser ∈ s.store.users ∧ u' ∈ s'.store.users ∧ u' ≠ unitUser ∧
      AccountChange hmacApp anyRun s r (own 2 s.trace) unitUser u' := by
  obtain ⟨s, s', e, hs, hstep, hevent, hc, hu, u', hu', hid, hne⟩ := exists_step_of_replay
    (M := hmacApp.run) (A := anyRun) (I := Seed) (d := unitDb)
    (.start 1 requestUnitReset ::
      acts 1 [{}, {}, { newCodeId := ⟨1⟩, newJobId := ⟨2⟩, secret := "token" }] ++
      .start 2 (confirmUnitReset "token") :: acts 2 [{}, {}, {}, {}, {}, {}, {}]) 2 {}
    (fun s s' => (s.calls 2).isSome ∧ unitUser ∈ s.store.users ∧
      ∃ u' ∈ s'.store.users, u'.id = unitUser.id ∧ u' ≠ unitUser) (by decide) (by decide +kernel)
  obtain ⟨⟨r, p⟩, hc⟩ := Option.isSome_iff_exists.mp hc
  exact ⟨s, s', r, u', hu, hu', hne, account_change_caused hmacApp
    (Ports.verifiesSecrets_of_hmac rfl rfl) s s' hs hstep 2 e hevent r p hc unitUser u' hu hu'
    hid hne⟩

end SmirklyAuth
