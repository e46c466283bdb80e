import SmirklyAuth.Protocol.OutboxWorker
import SmirklyAuth.Protocol.Steps

/-!
# `SmirklyAuth.Protocol.Refinement`: the use cases obey the protocol

`app_refines` says that every program of `App.run` obeys `protocol`. Its proof is one walk
along each use case: each operation is a constructor of `Reads` or `Commits`, and each
exception or result one of `Finishes`. For the outbox worker, `tick_spec` is that walk. Every
later proof about runs starts from the protocol and never looks at a program again.
-/

set_option autoImplicit false

namespace SmirklyAuth

open Interleaving Prog

section
variable {app : App} {α : Type}

/-- The results of a use case, wrapped as responses. -/
def Ends (app : App) (r : Request) (wrap : α → Response) (evs : List Event)
    (res : Except Error α) : Prop :=
  Finishes app r evs (res.map wrap) ∧ r.command.Ends (res.map wrap)

variable {r : Request} {wrap : α → Response} {evs : List Event}

/-- A step may fail where every fault is accepted, unless the call has detected reuse and still
has to commit. -/
theorem faults_of_accepts {Q : List Event → Except Error α → Prop}
    (hlive : r.command.detectedReuse evs = false)
    (h : ∀ what, Q (evs ++ [.failed what]) (.error (.runtimeError what))) :
    Faults (ProtocolStep app r) Q evs where
  failed _ _ := .aborted (by rw [Command.mayAbort, hlive, Bool.not_false])
  finish := h

/-- A fault may end a call. -/
theorem faults_ends (hlive : r.command.detectedReuse evs = false) :
    Faults (ProtocolStep app r) (Ends app r wrap) evs :=
  faults_of_accepts hlive fun _ =>
    ⟨.aborted (by rw [Command.mayAbort, hlive, Bool.not_false]) rfl,
      r.command.throws_runtimeError _⟩

/-- An exception inside a transaction may end a call, where the protocol lets it roll back. -/
theorem rolls_ends {β : Type} {tx : Input → Tx β} (hroll : r.command.mayRollBack evs = true)
    (htx : ∀ i, (tx i).Throws r.command) (i : Input) (db : Db) (x : Error)
    (h : tx i db = .error x) : ProtocolStep app r evs (.rolledBack x) db db ∧
      Ends app r wrap (evs ++ [.rolledBack x]) (.error x) :=
  ⟨.aborted hroll, .aborted hroll rfl, htx i db x h⟩

/-- The program of a request is its use case and a wrapper. -/
theorem obeys_wrap {p : Service α}
    (h : p.Obeys (ProtocolStep app r) (Ends app r wrap) evs) :
    (p >>= fun a => pure (wrap a)).Obeys (ProtocolStep app r) ((protocol app).finish r) evs := by
  rw [obeys_bind]
  refine h.mono fun evs' res hres => ?_
  cases res with
  | ok a => exact hres
  | error x => exact hres

/-- `SignIn` follows the protocol. -/
theorem signIn_obeys (p : AuthRuntimePolicies) (cmd : SignInCommand) (m : RequestMeta) :
    (AuthenticationService.signIn app.ports p cmd m).Obeys
      (ProtocolStep app ⟨p, .signIn cmd m⟩) (Ends app ⟨p, .signIn cmd m⟩ .signedIn) [] := by
  unfold AuthenticationService.signIn
  refine obeys_validated_bind (fun x h => ⟨.signInThrew, signIn_throws h⟩) fun input hin => ?_
  refine obeys_port_bind (faults_ends rfl) fun i _ => ⟨.read .signInClock, ?_⟩
  generalize i.now = now
  refine obeys_port_bind (faults_ends rfl) fun _ db => ⟨.read (.signInUser hin), ?_⟩
  generalize AuthenticationService.findSignInUser app.ports.pg input db = user?
  refine obeys_port_bind (faults_ends rfl) fun _ db => ⟨.read (.signInCount hin), ?_⟩
  generalize SignInAttemptRepository.countRecentAttempts app.ports.pg
    input.rateLimitIdentifier _ m.ip _ db = n?
  refine obeys_orThrow_bind (fun _ => ⟨.signInThrew, rfl⟩) fun n hn => ?_
  subst hn
  refine obeys_throwIf_bind (fun _ => ⟨.signInThrew, rfl⟩) fun hlim => ?_
  cases user? with
  | none =>
    refine obeys_transaction_bind (faults_ends rfl)
      (rolls_ends rfl fun _ => Tx.throws_recordAttempt rfl) fun _ _ _ _ htx =>
      ⟨.committed ?_, .signInThrew, rfl⟩
    exact .unknownUser hin htx
  | some user =>
    refine obeys_port_bind (faults_ends rfl) fun _ _ => ⟨.read (.signInVerify hlim), ?_⟩
    cases app.ports.passwordHasher.verify cmd.password user.password with
    | false =>
      refine obeys_transaction_bind (faults_ends rfl)
        (rolls_ends rfl fun _ => Tx.throws_recordAttempt rfl) fun _ _ _ _ htx =>
        ⟨.committed ?_, .signInThrew, rfl⟩
      exact .signInRejected hin htx
    | true =>
      simp only [Bool.not_true, Bool.false_eq_true, if_false]
      split
      · refine obeys_transaction_bind (faults_ends rfl)
          (rolls_ends rfl fun _ => Tx.throws_recordAttempt rfl) fun _ _ _ _ htx =>
          ⟨.committed ?_, .signInThrew, rfl⟩
        exact .signInRejected hin htx
      · unfold AuthenticationService.openSession
        refine obeys_port_bind (faults_ends rfl) fun i _ => ⟨.read .signInSessionId, ?_⟩
        generalize i.generatedId = sid
        refine obeys_port_bind (faults_ends rfl) fun i _ => ⟨.read .signInFamilyId, ?_⟩
        generalize i.generatedId = fam
        refine obeys_port_bind (faults_ends rfl) fun i _ => ⟨.read .signInTokens, ?_⟩
        generalize app.ports.tokenProvider.generateTokens user.id sid fam i.now = tokens
        refine obeys_port_bind (faults_ends rfl) fun _ _ => ⟨.read .signInHash, ?_⟩
        refine obeys_transaction_bind (faults_ends rfl)
          (rolls_ends rfl fun _ => Tx.throws_bind Tx.throws_insertDevice fun _ =>
            Tx.throws_insertSession)
          fun i db session db' htx => ⟨.committed (.signedIn htx), ?_⟩
        obtain ⟨_, _, _, _, _, rfl, _⟩ := signInTx_eq_ok htx
        exact ⟨.signedIn hin hlim, rfl⟩

/-- `Refresh` follows the protocol. -/
theorem refresh_obeys (p : AuthRuntimePolicies) (cmd : RefreshCommand) (m : RequestMeta) :
    (AuthenticationService.refresh app.ports p cmd m).Obeys
      (ProtocolStep app ⟨p, .refresh cmd m⟩) (Ends app ⟨p, .refresh cmd m⟩ .refreshed) [] := by
  unfold AuthenticationService.refresh
  refine obeys_throwIf_bind (fun h => ⟨.refreshEmpty (List.isEmpty_iff.mp h), rfl⟩) fun hempty => ?_
  refine obeys_port_bind (faults_ends rfl) fun i _ => ⟨.read .refreshParse, ?_⟩
  simp only
  generalize i.now = t
  generalize hparsed : app.ports.tokenProvider.parseRefreshToken cmd.refreshToken t = claims?
  refine obeys_orThrow_bind (fun h => h ▸ ⟨.refreshRejected, rfl⟩) fun claims h => ?_
  subst h
  refine obeys_port_bind (faults_ends rfl) fun _ db => ⟨.read .refreshFind, ?_⟩
  generalize hfind : SessionRepository.findById app.ports.pg claims.sessionId db = session?
  refine obeys_orThrow_bind (fun h => h ▸ ⟨.refreshNotFound, rfl⟩) fun s h => ?_
  subst h
  refine obeys_port_bind (faults_ends rfl) fun i _ => ⟨.read .refreshClock, ?_⟩
  generalize i.now = now
  refine obeys_throwIf_bind (fun h => ⟨.refreshMismatch (.inl (bne_iff_ne.mp h)), rfl⟩)
    fun huser => ?_
  refine obeys_throwIf_bind (fun h => ⟨.refreshMismatch (.inr (bne_iff_ne.mp h)), rfl⟩)
    fun hfamily => ?_
  have hchecked : RefreshChecked app cmd t claims s :=
    ⟨by simpa using hempty, SessionRepository.id_of_findById hfind, hparsed,
      by simpa using huser, by simpa using hfamily⟩
  cases hrevoked : s.revokedAt.isSome with
  | true =>
    -- a token of a revoked session: if it fits, the family goes before the exception
    simp only [if_true]
    unfold AuthenticationService.refreshRevoked
    refine obeys_port_bind (faults_ends rfl) fun _ _ => ⟨.read (.refreshVerify hchecked), ?_⟩
    cases hverify : app.ports.refreshTokenHasher.verify cmd.refreshToken s.refreshTokenHash with
    | true =>
      refine obeys_transaction_bind (faults_ends rfl) (fun _ _ _ h => (nomatch h))
        fun _ _ _ _ htx => ⟨.committed (.reuseDetected hchecked hrevoked htx), ?_⟩
      exact ⟨.refreshReused hchecked, rfl⟩
    | false => exact ⟨.refreshRevoked hverify, rfl⟩
  | false =>
    simp only [Bool.false_eq_true, if_false]
    unfold AuthenticationService.refreshActive
    refine obeys_throwIf_bind (fun _ => ⟨.refreshActive [] hrevoked, rfl⟩) fun _ => ?_
    refine obeys_port_bind (faults_ends rfl) fun _ _ => ⟨.read (.refreshVerify hchecked), ?_⟩
    cases hverify : app.ports.refreshTokenHasher.verify cmd.refreshToken s.refreshTokenHash with
    | false => exact ⟨.refreshActive [.verifiedToken false] hrevoked, rfl⟩
    | true =>
      refine obeys_throwIf_bind (fun h => (nomatch h)) fun _ => ?_
      refine obeys_port_bind (faults_ends rfl) fun i _ => ⟨.read (.refreshSessionId hrevoked), ?_⟩
      generalize i.generatedId = sid
      refine obeys_port_bind (faults_ends rfl) fun i _ => ⟨.read .refreshTokens, ?_⟩
      generalize app.ports.tokenProvider.generateTokens s.userId sid s.tokenFamilyId i.now =
        tokens
      refine obeys_port_bind (faults_ends rfl) fun _ _ => ⟨.read .refreshHash, ?_⟩
      refine obeys_port_bind (faults_ends rfl) fun i _ => ⟨.read .refreshRotationClock, ?_⟩
      generalize i.now = rotationNow
      refine obeys_transaction_bind (faults_ends rfl) (rolls_ends rfl fun _ => ?_)
        fun _ _ _ _ htx => ⟨.committed (.rotated hchecked hrevoked htx), ?_⟩
      · refine Tx.throws_bind Tx.throws_insertSession fun _ => ?_
        refine Tx.throws_bind (Tx.throws_of_ok fun _ => ⟨_, rfl⟩) fun _ => ?_
        exact Tx.throws_bind (Tx.throws_require rfl) fun _ => Tx.throws_of_ok fun _ => ⟨_, rfl⟩
      obtain ⟨_, _, _, hid, _⟩ := refreshTx_eq_ok htx
      rw [hid]
      exact ⟨.refreshed hchecked hverify, rfl⟩

/-- `AuthenticateAccessToken` follows the protocol. -/
theorem authenticateAccessToken_obeys (p : AuthRuntimePolicies) (token : Str) :
    (AuthenticationService.authenticateAccessToken app.ports p token).Obeys
      (ProtocolStep app ⟨p, .authenticateAccessToken token⟩)
      (Ends app ⟨p, .authenticateAccessToken token⟩ .authenticated) [] := by
  unfold AuthenticationService.authenticateAccessToken
  refine obeys_throwIf_bind (fun _ => ⟨.accessThrew, rfl⟩) fun _ => ?_
  refine obeys_port_bind (faults_ends rfl) fun i _ => ⟨.read .accessParse, ?_⟩
  simp only
  generalize i.now = t
  generalize hparsed : app.ports.tokenProvider.parseAccessToken token t = claims?
  refine obeys_orThrow_bind (fun _ => ⟨.accessThrew, rfl⟩) fun claims h => ?_
  subst h
  refine obeys_port_bind (faults_ends rfl) fun _ db => ⟨.read .accessFind, ?_⟩
  generalize hfind : SessionRepository.findById app.ports.pg claims.sessionId db = session?
  refine obeys_orThrow_bind (fun _ => ⟨.accessThrew, rfl⟩) fun s h => ?_
  subst h
  refine obeys_throwIf_bind (fun _ => ⟨.accessThrew, rfl⟩) fun huser => ?_
  refine obeys_throwIf_bind (fun _ => ⟨.accessThrew, rfl⟩) fun hactive => ?_
  refine obeys_port_bind (faults_ends rfl) fun i _ => ⟨.read .accessClock, ?_⟩
  generalize i.now = now
  refine obeys_throwIf_bind (fun _ => ⟨.accessThrew, rfl⟩) fun hexpiry => ?_
  have hchecked : AccessChecked app token t claims s now :=
    ⟨hparsed, SessionRepository.id_of_findById hfind, by simpa using huser,
      by simpa using hactive, by simpa using hexpiry⟩
  refine obeys_port_bind (faults_ends rfl) fun _ db => ⟨.read .accessUser, ?_⟩
  generalize usersSelectById claims.userId db.users = user?
  refine obeys_orThrow_bind (fun _ => ⟨.accessThrew, rfl⟩) fun user h => ?_
  subst h
  split
  · rename_i hdue
    exact obeys_transaction_bind (faults_ends rfl) (fun _ _ _ h => (nomatch h))
      fun _ _ _ _ htx =>
        ⟨.committed (.sessionActivity hchecked hdue htx), .accessUpdated hchecked, rfl⟩
  · rename_i hrecent
    exact ⟨.accessRecent hchecked (Bool.eq_false_iff.mpr hrecent), rfl⟩

/-- `RevokeSession` follows the protocol, for the two commands that call it. -/
theorem revokeSession_obeys {p : AuthRuntimePolicies} {command : Command}
    {context : AuthContext} {sessionId : Uuid}
    (hcmd : command.revocation = some (context, sessionId))
    (hlive : ∀ evs, command.detectedReuse evs = false)
    (hends : ∀ evs res, RevocationEnds context sessionId evs res →
      Finishes app ⟨p, command⟩ evs res ∧ command.Ends res) :
    (SessionService.revokeSession app.ports context sessionId).Obeys
      (ProtocolStep app ⟨p, command⟩) (Ends app ⟨p, command⟩ fun _ => .done) [] := by
  unfold SessionService.revokeSession
  refine obeys_port_bind (faults_ends (hlive _)) fun _ db => ⟨.read (.revokeFind hcmd), ?_⟩
  generalize hfind : SessionRepository.findById app.ports.pg sessionId db = target?
  refine obeys_orThrow_bind (fun h => h ▸ hends _ _ .notFound) fun s h => ?_
  subst h
  refine obeys_throwIf_bind (fun h => hends _ _ (.forbidden (by simpa using h))) fun huser => ?_
  have hid := SessionRepository.id_of_findById hfind
  have howner : s.userId = context.userId := by simpa using huser
  split
  · rename_i hrevoked
    exact hends _ _ (.already hid howner hrevoked)
  · exact obeys_transaction_bind (faults_ends (hlive _)) (fun _ _ _ h => (nomatch h))
      fun _ _ _ _ htx =>
        ⟨.committed (.revoked hcmd ⟨hid, howner⟩ htx), hends _ _ (.revoked howner)⟩

/-- `RevokeAllSessions` follows the protocol. -/
theorem revokeAllSessions_obeys (p : AuthRuntimePolicies) (context : AuthContext) :
    (SessionService.revokeAllSessions context).Obeys
      (ProtocolStep app ⟨p, .revokeAllSessions context⟩)
      (Ends app ⟨p, .revokeAllSessions context⟩ fun _ => .done) [] :=
  obeys_transaction_bind (faults_ends rfl) (fun _ _ _ h => (nomatch h)) fun _ _ _ _ htx =>
    ⟨.committed (.revokedAll htx), .other fun _ _ => .head _, rfl⟩

/-- `ChangePassword` follows the protocol. -/
theorem changePassword_obeys (p : AuthRuntimePolicies) (context : AuthContext)
    (cmd : ChangePasswordCommand) :
    (PasswordService.changePassword app.ports app.passwordPolicy context cmd).Obeys
      (ProtocolStep app ⟨p, .changePassword context cmd⟩)
      (Ends app ⟨p, .changePassword context cmd⟩ fun _ => .done) [] := by
  unfold PasswordService.changePassword
  refine obeys_throwIf_bind (fun _ => ⟨.other fun _ h => (nomatch h), rfl⟩) fun _ => ?_
  refine obeys_throwIf_bind (fun _ => ⟨.other fun _ h => (nomatch h), rfl⟩) fun _ => ?_
  refine obeys_validated_bind (fun _ h => ⟨.other fun _ h => (nomatch h),
    throws_of_mapError (fun _ => rfl) h⟩) fun _ _ => ?_
  refine obeys_port_bind (faults_ends rfl) fun _ db => ⟨.read .changeUser, ?_⟩
  generalize hfind : usersSelectById context.userId db.users = user?
  refine obeys_orThrow_bind (fun _ => ⟨.other fun _ h => (nomatch h), rfl⟩) fun user h => ?_
  subst h
  refine obeys_port_bind (faults_ends rfl) fun _ _ => ⟨.read .changeVerify, ?_⟩
  generalize app.ports.passwordHasher.verify cmd.currentPassword user.password = verified
  refine obeys_throwIf_bind (fun _ => ⟨.other fun _ h => (nomatch h), rfl⟩) fun hverified => ?_
  obtain rfl : verified = true := by simpa using hverified
  refine obeys_port_bind (faults_ends rfl) fun _ _ => ⟨.read .changeCompare, ?_⟩
  generalize app.ports.passwordHasher.verify cmd.newPassword user.password = unchanged
  refine obeys_throwIf_bind (fun _ => ⟨.other fun _ h => (nomatch h), rfl⟩) fun hunchanged => ?_
  cases hunchanged
  refine obeys_port_bind (faults_ends rfl) fun i _ => ⟨.read .changeHash, ?_⟩
  generalize app.ports.passwordHasher.hash cmd.newPassword i.salt = hash
  exact obeys_transaction (faults_ends rfl) (fun _ _ _ h => (nomatch h)) fun _ _ _ _ htx =>
    ⟨.committed (.passwordChanged (id_of_usersSelectById hfind) htx),
      .other fun _ _ => ⟨hash, by simp⟩, rfl⟩

/-- `RequestReset` follows the protocol. -/
theorem requestReset_obeys (p : AuthRuntimePolicies) (cmd : RequestPasswordResetCommand)
    (m : RequestMeta) :
    (PasswordService.requestReset app.ports p cmd m).Obeys
      (ProtocolStep app ⟨p, .requestReset cmd m⟩)
      (Ends app ⟨p, .requestReset cmd m⟩ fun _ => .done) [] := by
  unfold PasswordService.requestReset
  refine obeys_port_bind (faults_ends rfl) fun i _ => ⟨.read .requestClock, ?_⟩
  generalize i.now = now
  refine obeys_port_bind (faults_ends rfl) fun _ db => ⟨.read .requestUser, ?_⟩
  generalize usersSelectByEmail app.ports.pg cmd.email db.users = user?
  exact obeys_transaction (faults_ends rfl) (rolls_ends rfl fun _ => Tx.throws_requestResetTx)
    fun _ _ _ _ htx => ⟨.committed (.resetRequested htx), .other trivial, rfl⟩

/-- `ConfirmReset` follows the protocol. -/
theorem confirmReset_obeys (p : AuthRuntimePolicies) (cmd : ConfirmPasswordResetCommand)
    (m : RequestMeta) :
    (PasswordService.confirmReset app.ports app.passwordPolicy p cmd m).Obeys
      (ProtocolStep app ⟨p, .confirmReset cmd m⟩)
      (Ends app ⟨p, .confirmReset cmd m⟩ fun _ => .done) [] := by
  unfold PasswordService.confirmReset
  refine obeys_validated_bind
    (fun _ h => ⟨.confirmResetThrew, throws_of_mapError (fun _ => rfl) h⟩) fun _ _ => ?_
  refine obeys_port_bind (faults_ends rfl) fun i _ => ⟨.read .confirmClock, ?_⟩
  generalize i.now = now
  refine obeys_port_bind (faults_ends rfl) fun _ db => ⟨.read .confirmUser, ?_⟩
  generalize usersSelectByEmail app.ports.pg cmd.email db.users = user?
  refine obeys_transaction_bind (faults_ends rfl)
    (rolls_ends rfl fun _ => Tx.throws_recordAttempt rfl)
    fun _ _ _ _ htx => ⟨.committed (.resetAttempt htx), ?_⟩
  refine obeys_orThrow_bind (fun _ => ⟨.confirmResetThrew, rfl⟩) fun user h => ?_
  subst h
  refine obeys_port_bind (faults_ends rfl) fun _ db => ⟨.read .confirmFind, ?_⟩
  generalize hreset : PasswordResetRepository.findActiveByUserId user.id now _ db = reset?
  refine obeys_orThrow_bind (fun _ => ⟨.confirmResetThrew, rfl⟩) fun row h => ?_
  subst h
  have hfound := (OneTimeCode.findActiveByUserId_eq_some hreset).2
  refine obeys_port_bind (faults_ends rfl) fun _ _ => ⟨.read (.confirmVerify hfound), ?_⟩
  cases app.ports.resetTokenHasher.verify cmd.token row.secretHash with
  | false =>
    exact obeys_transaction_bind (faults_ends rfl) (fun _ _ _ h => (nomatch h))
      fun _ _ _ _ htx => ⟨.committed (.tokenRejected hfound htx), .confirmResetThrew, rfl⟩
  | true =>
    simp only [Bool.not_true, Bool.false_eq_true, if_false]
    refine obeys_port_bind (faults_ends rfl) fun _ _ => ⟨.read .confirmCompare, ?_⟩
    generalize app.ports.passwordHasher.verify cmd.newPassword user.password = unchanged
    refine obeys_throwIf_bind (fun _ => ⟨.confirmResetThrew, rfl⟩) fun hunchanged => ?_
    cases hunchanged
    refine obeys_port_bind (faults_ends rfl) fun i _ => ⟨.read .confirmHash, ?_⟩
    generalize app.ports.passwordHasher.hash cmd.newPassword i.salt = hash
    refine obeys_transaction (faults_ends rfl) (rolls_ends rfl fun _ => ?_) fun _ _ _ _ htx =>
      ⟨.committed (.resetConfirmed hfound htx), .resetConfirmed, rfl⟩
    refine Tx.throws_bind (Tx.throws_of_ok fun _ => ⟨_, rfl⟩) fun _ => ?_
    exact Tx.throws_bind (Tx.throws_require rfl) fun _ => Tx.throws_of_ok fun _ => ⟨_, rfl⟩

/-- `VerifyEmail` follows the protocol. -/
theorem verifyEmail_obeys (p : AuthRuntimePolicies) (cmd : VerifyEmailCommand)
    (m : RequestMeta) :
    (IdentityService.verifyEmail app.ports p cmd m).Obeys
      (ProtocolStep app ⟨p, .verifyEmail cmd m⟩)
      (Ends app ⟨p, .verifyEmail cmd m⟩ fun _ => .done) [] := by
  unfold IdentityService.verifyEmail
  refine obeys_port_bind (faults_ends rfl) fun i _ => ⟨.read .verifyClock, ?_⟩
  generalize i.now = now
  refine obeys_port_bind (faults_ends rfl) fun _ db => ⟨.read .verifyUser, ?_⟩
  generalize usersSelectByEmail app.ports.pg cmd.email db.users = user?
  refine obeys_throwIf_bind (fun _ => ⟨.verifyEmailThrew, rfl⟩) fun _ => ?_
  refine obeys_transaction_bind (faults_ends rfl)
    (rolls_ends rfl fun _ => Tx.throws_recordAttempt rfl)
    fun _ _ _ _ htx => ⟨.committed (.verificationAttempt htx), ?_⟩
  refine obeys_orThrow_bind (fun _ => ⟨.verifyEmailThrew, rfl⟩) fun user h => ?_
  subst h
  refine obeys_port_bind (faults_ends rfl) fun _ db => ⟨.read .verifyFind, ?_⟩
  generalize hcode : EmailVerificationRepository.findActiveByUserId user.id now _ db =
    verification?
  refine obeys_orThrow_bind (fun _ => ⟨.verifyEmailThrew, rfl⟩) fun row h => ?_
  subst h
  have hfound := (OneTimeCode.findActiveByUserId_eq_some hcode).2
  refine obeys_port_bind (faults_ends rfl) fun _ _ => ⟨.read (.verifyVerify hfound), ?_⟩
  cases app.ports.verificationCodeHasher.verify user.id cmd.code row.secretHash with
  | false =>
    exact obeys_transaction_bind (faults_ends rfl) (fun _ _ _ h => (nomatch h))
      fun _ _ _ _ htx => ⟨.committed (.codeRejected hfound htx), .verifyEmailThrew, rfl⟩
  | true =>
    refine obeys_transaction (faults_ends rfl) (rolls_ends rfl fun _ => ?_) fun _ _ _ _ htx =>
      ⟨.committed (.emailVerified hfound htx), .emailVerified, rfl⟩
    refine Tx.throws_bind (Tx.throws_of_ok fun _ => ⟨_, rfl⟩) fun _ => ?_
    exact Tx.throws_bind (Tx.throws_require rfl) fun _ => Tx.throws_of_ok fun _ => ⟨_, rfl⟩

/-- `ResendEmailVerification` follows the protocol. -/
theorem resendEmailVerification_obeys (p : AuthRuntimePolicies)
    (cmd : ResendEmailVerificationCommand) (m : RequestMeta) :
    (IdentityService.resendEmailVerification app.ports p cmd m).Obeys
      (ProtocolStep app ⟨p, .resendEmailVerification cmd m⟩)
      (Ends app ⟨p, .resendEmailVerification cmd m⟩ fun _ => .done) [] := by
  unfold IdentityService.resendEmailVerification
  refine obeys_port_bind (faults_ends rfl) fun i _ => ⟨.read .resendClock, ?_⟩
  generalize i.now = now
  refine obeys_port_bind (faults_ends rfl) fun _ db => ⟨.read .resendUser, ?_⟩
  generalize usersSelectByEmail app.ports.pg cmd.email db.users = user?
  exact obeys_transaction (faults_ends rfl) (rolls_ends rfl fun _ => Tx.throws_resendTx)
    fun _ _ _ _ htx => ⟨.committed (.verificationResent htx), .other trivial, rfl⟩

/-- An event that names nobody. -/
theorem Nameless.snoc {e : Event} (h : Nameless evs) (he : e.namedUser = none) :
    Nameless (evs ++ [e]) := by
  intro e' he'
  rcases List.mem_append.mp he' with he' | he'
  · exact h e' he'
  · rw [List.mem_singleton.mp he']
    exact he

section
variable {p : AuthRuntimePolicies} {cmd : SignUpCommand} {m : RequestMeta}
  {Q : List Event → Except Error Unit → Prop}

/-- The rate limit of `SignUp` names no account. -/
theorem limitSignUp_obeys (hok : ∀ evs, Nameless evs → Q evs (.ok ()))
    (hthrow : ∀ evs x, (Command.signUp cmd m).throws x = true → Q evs (.error x)) :
    (IdentityService.limitSignUp app.ports.pg p.signUp m).Obeys
      (ProtocolStep app ⟨p, .signUp cmd m⟩) Q [] := by
  have hnil : Nameless [] := fun _ h => nomatch h
  unfold IdentityService.limitSignUp
  split
  · exact hok _ hnil
  · rename_i ip hip
    split
    · refine obeys_port_bind (faults_of_accepts rfl fun _ => hthrow _ _ rfl) fun i _ =>
        ⟨.read .signUpClock, ?_⟩
      refine obeys_transaction (faults_of_accepts rfl fun _ => hthrow _ _ rfl)
        (fun _ _ _ h => ⟨.aborted rfl, hthrow _ _ (Tx.throws_signUpRateLimitTx _ _ h)⟩)
        fun _ _ _ _ htx => ⟨.committed (.signUpAttempt hip htx), hok _ ?_⟩
      exact (hnil.snoc rfl).snoc rfl
    · exact hok _ hnil

/-- An existence check of `SignUp` names no account either. -/
theorem rejectTaken_obeys {value : Option Str} {taken : Str → List User → Bool} {error : Error}
    (hevs : Nameless evs) (herror : (Command.signUp cmd m).throws error = true)
    (hok : ∀ evs, Nameless evs → Q evs (.ok ()))
    (hthrow : ∀ evs x, (Command.signUp cmd m).throws x = true → Q evs (.error x)) :
    (IdentityService.rejectTaken value taken error).Obeys
      (ProtocolStep app ⟨p, .signUp cmd m⟩) Q evs := by
  unfold IdentityService.rejectTaken
  cases value with
  | none => exact hok _ hevs
  | some v =>
    refine obeys_port_bind (faults_of_accepts rfl fun _ => hthrow _ _ rfl) fun i _ =>
      ⟨.read .signUpExists, ?_⟩
    unfold Service.throwIf
    split
    · exact hthrow _ _ herror
    · exact hok _ (hevs.snoc rfl)

end

/-- `SignUp` follows the protocol. -/
theorem signUp_obeys (p : AuthRuntimePolicies) (cmd : SignUpCommand) (m : RequestMeta) :
    (IdentityService.signUp app.ports app.signUpPolicy p cmd m).Obeys
      (ProtocolStep app ⟨p, .signUp cmd m⟩) (Ends app ⟨p, .signUp cmd m⟩ .signedUp) [] := by
  have hthrow : ∀ evs x, (Command.signUp cmd m).throws x = true →
      Ends app ⟨p, .signUp cmd m⟩ .signedUp evs (.error x) :=
    fun _ _ h => ⟨.other fun _ h => (nomatch h), h⟩
  unfold IdentityService.signUp
  refine obeys_validated_bind (fun _ h => hthrow _ _ (signUp_throws h)) fun input hin => ?_
  -- the history is left open, so each of the four checks is a first part with any events
  rw [obeys_bind]
  refine limitSignUp_obeys (fun _ hevs => ?_) hthrow
  rw [obeys_bind]
  refine rejectTaken_obeys hevs rfl (fun _ hevs => ?_) hthrow
  rw [obeys_bind]
  refine rejectTaken_obeys hevs rfl (fun _ hevs => ?_) hthrow
  rw [obeys_bind]
  refine rejectTaken_obeys hevs rfl (fun _ hevs => ?_) hthrow
  rw [(signUpAccepted hin).samePassword]
  refine obeys_port_bind (faults_ends rfl) fun _ _ => ⟨.read .signUpHash, ?_⟩
  refine obeys_transaction (faults_ends rfl) (rolls_ends rfl fun _ => Tx.throws_signUpTx)
    fun _ _ _ _ htx => ?_
  have hregistered := registered_of_signUpTx hin htx
  refine ⟨.committed (.signedUp (hevs.snoc rfl) hregistered htx), .other fun user h => ?_, rfl⟩
  cases h
  exact ⟨hregistered, by simp⟩

/-! ### The outbox worker -/

/-- A step of a worker is a step of the protocol. -/
theorem TickStep.protocol {p : AuthRuntimePolicies} {cfg : EmailOutboxRuntimeConfig}
    {e : Event} {db db' : Db} (h : TickStep cfg evs e db db') :
    ProtocolStep app ⟨p, .tick cfg⟩ evs e db db' := by
  cases h with
  | aborted hab =>
    cases e with
    | rolledBack => exact .aborted rfl
    | failed => exact .aborted rfl
    | _ => cases hab
  | clock => exact .read .tickClock
  | claimed htx => exact .committed (.claimed htx)
  | unclaimed => exact .read .tickError
  | @treats t done job rest segments tail _ _ _ _ hjob =>
    obtain ⟨jobs, hclaimed, hmem⟩ := took_tickEvents t done rest job (segments.flatten ++ tail)
    cases hjob with
    | sent hmessage => exact .read (.tickSend hclaimed hmem hmessage)
    | markedSent htx => exact .committed (.markedSent hclaimed hmem htx)
    | markedDead _ hdead htx => exact .committed (.markedDead hclaimed hmem hdead htx)
    | rescheduled _ halive htx => exact .committed (.rescheduled hclaimed hmem halive htx)
    | recorded hrecord =>
      cases e with
      | deliveryOutcome => exact .read .tickOutcome
      | outboxError => exact .read .tickError
      | _ => cases hrecord

/-- The outbox worker obeys the protocol. -/
theorem tick_obeys (p : AuthRuntimePolicies) (cfg : EmailOutboxRuntimeConfig) :
    (EmailOutboxProcessor.tick cfg).Obeys (ProtocolStep app ⟨p, .tick cfg⟩)
      (Ends app ⟨p, .tick cfg⟩ fun _ => .done) [] := by
  refine (tick_spec cfg).carry (J := fun _ => True) trivial
    (fun _ _ _ _ _ h => ⟨h.protocol, trivial⟩) fun evs r _ _ => ⟨.other trivial, ?_⟩
  cases r with
  | ok _ => rfl
  | error x => cases x <;> rfl

/-- Every program of the service obeys the protocol. -/
theorem app_refines (app : App) : Refines app.run (protocol app) := by
  rintro ⟨p, command⟩
  cases command with
  | signUp cmd m => exact obeys_wrap (signUp_obeys p cmd m)
  | verifyEmail cmd m => exact obeys_wrap (verifyEmail_obeys p cmd m)
  | resendEmailVerification cmd m => exact obeys_wrap (resendEmailVerification_obeys p cmd m)
  | getCurrentUser context =>
    refine obeys_wrap (r := ⟨p, .getCurrentUser context⟩) ?_
    refine obeys_port_bind (faults_ends rfl) fun _ _ => ⟨.read .currentUser, ?_⟩
    exact obeys_orThrow_bind (fun _ => ⟨.other trivial, rfl⟩) fun _ _ => ⟨.other trivial, rfl⟩
  | signIn cmd m => exact obeys_wrap (signIn_obeys p cmd m)
  | refresh cmd m => exact obeys_wrap (refresh_obeys p cmd m)
  | authenticateAccessToken token => exact obeys_wrap (authenticateAccessToken_obeys p token)
  | listSessions context =>
    refine obeys_wrap (r := ⟨p, .listSessions context⟩) ?_
    exact obeys_port (faults_ends rfl) fun _ _ => ⟨.read .listSessions, .other trivial, rfl⟩
  | revokeSession context sessionId =>
    exact obeys_wrap (revokeSession_obeys rfl (fun _ => rfl) fun _ _ h =>
      ⟨.other h, by cases h <;> rfl⟩)
  | revokeCurrentSession context =>
    exact obeys_wrap (revokeSession_obeys rfl (fun _ => rfl) fun _ _ h =>
      ⟨.other h, by cases h <;> rfl⟩)
  | revokeAllSessions context => exact obeys_wrap (revokeAllSessions_obeys p context)
  | changePassword context cmd => exact obeys_wrap (changePassword_obeys p context cmd)
  | requestReset cmd m => exact obeys_wrap (requestReset_obeys p cmd m)
  | confirmReset cmd m => exact obeys_wrap (confirmReset_obeys p cmd m)
  | tick cfg => exact obeys_wrap (tick_obeys p cfg)

end

end SmirklyAuth
