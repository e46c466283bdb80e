import SmirklyAuth.Protocol.Steps

/-!
# `SmirklyAuth.Protocol.Frame`: the tables that a transaction leaves alone

`commits_frame` goes once through the transactions and says which tables each of them
writes. The view of a table then looks only at the transactions that write it.
-/

set_option autoImplicit false

namespace SmirklyAuth

namespace TxEvent

/-- The transactions that write `users`. -/
def writesUsers : TxEvent → Bool
  | .signedUp _ | .emailVerified _ _ | .passwordChanged _ _ | .resetConfirmed _ _ _ => true
  | _ => false

/-- The transactions that write `sessions`. -/
def writesSessions : TxEvent → Bool
  | .signedIn _ | .reuseDetected _ _ | .rotated _ _ | .sessionActivity _ | .revoked _
  | .revokedAll _ | .passwordChanged _ _ | .resetConfirmed _ _ _ => true
  | _ => false

/-- The transactions that write `email_verifications`. -/
def writesVerifications : TxEvent → Bool
  | .signedUp _ | .codeRejected _ | .emailVerified _ _ | .verificationResent => true
  | _ => false

/-- The transactions that write `password_resets`. -/
def writesResets : TxEvent → Bool
  | .resetRequested | .tokenRejected _ | .resetConfirmed _ _ _ => true
  | _ => false

/-- The transactions that write `sign_in_attempts`. -/
def writesSignInAttempts : TxEvent → Bool
  | .signInAttempt _ _ => true
  | _ => false

/-- The transactions that write one of the four tables of attempts. -/
def writesAttempts : TxEvent → Bool
  | .signUpAttempt | .verificationAttempt | .verificationResent | .signInAttempt _ _
  | .resetRequested | .resetAttempt => true
  | _ => false

/-- The transactions that write `email_outbox`. -/
def writesOutbox : TxEvent → Bool
  | .signedUp _ | .verificationResent | .resetRequested | .claimed _ | .markedSent _ _ _
  | .markedDead _ _ _ | .rescheduled _ _ _ => true
  | _ => false

end TxEvent

/-- The four tables of attempts. -/
def Db.attempts (db : Db) :
    List SignUpAttempt × List Attempt × List Attempt × List Attempt :=
  (db.signUpAttempts, db.emailVerificationAttempts, db.signInAttempts, db.passwordResetAttempts)

/-- The tables that the transaction does not write are the same before and after it. -/
structure Frame (t : TxEvent) (db db' : Db) : Prop where
  users : t.writesUsers = false → db'.users = db.users
  sessions : t.writesSessions = false → db'.sessions = db.sessions
  verifications : t.writesVerifications = false →
    db'.emailVerifications = db.emailVerifications
  resets : t.writesResets = false → db'.passwordResets = db.passwordResets
  signInAttempts : t.writesSignInAttempts = false → db'.signInAttempts = db.signInAttempts
  attempts : t.writesAttempts = false → db'.attempts = db.attempts
  outbox : t.writesOutbox = false → db'.emailOutbox = db.emailOutbox

section
variable {app : App} {r : Request} {evs : List Event} {t : TxEvent} {db db' : Db}

/-- Every transaction writes only its tables. -/
theorem commits_frame (h : Commits app r evs t db db') : Frame t db db' := by
  cases h with
  | signUpAttempt hip htx =>
    obtain ⟨_, rfl⟩ := signUpRateLimitTx_eq_ok htx
    constructor <;> intro hw <;> first | rfl | cases hw
  | signedUp _ _ htx =>
    obtain ⟨_, _, ⟨_, rfl⟩ | ⟨_, _, hissue⟩⟩ := signUpTx_eq_ok htx
    · constructor <;> intro hw <;> first | rfl | cases hw
    · obtain ⟨_, _, _, _, _, _, rfl⟩ := issueCodeTx_eq_ok hissue
      constructor <;> intro hw <;> first | rfl | cases hw
  | verificationAttempt htx =>
    obtain ⟨_, rfl⟩ := verificationAttemptTx_eq_ok htx
    constructor <;> intro hw <;> first | rfl | cases hw
  | codeRejected hfound htx =>
    cases htx
    constructor <;> intro hw <;> first | rfl | cases hw
  | emailVerified hfound htx =>
    obtain ⟨_, rfl⟩ := verifyEmailTx_eq_ok htx
    constructor <;> intro hw <;> first | rfl | cases hw
  | verificationResent htx =>
    obtain ⟨_, rfl | ⟨_, _, _, _, hissue⟩⟩ := resendTx_eq_ok htx
    · constructor <;> intro hw <;> first | rfl | cases hw
    · obtain ⟨_, _, _, _, _, _, rfl⟩ := issueCodeTx_eq_ok hissue
      constructor <;> intro hw <;> first | rfl | cases hw
  | unknownUser hin htx =>
    obtain ⟨_, _, _, rfl⟩ := signInRecordAttemptTx_eq_ok htx
    constructor <;> intro hw <;> first | rfl | cases hw
  | signInRejected hin htx =>
    obtain ⟨_, _, _, rfl⟩ := signInRecordAttemptTx_eq_ok htx
    constructor <;> intro hw <;> first | rfl | cases hw
  | signedIn htx =>
    obtain ⟨_, _, _, _, _, _, rfl⟩ := signInTx_eq_ok htx
    constructor <;> intro hw <;> first | rfl | cases hw
  | reuseDetected hchecked hrevoked htx =>
    cases htx
    constructor <;> intro hw <;> first | rfl | cases hw
  | rotated hchecked hactive htx =>
    obtain ⟨_, _, _, _, _, rfl⟩ := refreshTx_eq_ok htx
    constructor <;> intro hw <;> first | rfl | cases hw
  | sessionActivity hactive hdue htx =>
    cases htx
    constructor <;> intro hw <;> first | rfl | cases hw
  | revoked hcmd hactive htx =>
    cases htx
    constructor <;> intro hw <;> first | rfl | cases hw
  | revokedAll htx =>
    cases htx
    constructor <;> intro hw <;> first | rfl | cases hw
  | passwordChanged _ htx =>
    cases changePasswordTx_eq_ok htx
    constructor <;> intro hw <;> first | rfl | cases hw
  | resetRequested htx =>
    obtain ⟨_, rfl | ⟨_, _, _, _, hissue⟩⟩ := requestResetTx_eq_ok htx
    · constructor <;> intro hw <;> first | rfl | cases hw
    · obtain ⟨_, _, _, _, _, _, rfl⟩ := issueResetTx_eq_ok hissue
      constructor <;> intro hw <;> first | rfl | cases hw
  | resetAttempt htx =>
    obtain ⟨_, rfl⟩ := resetAttemptTx_eq_ok htx
    constructor <;> intro hw <;> first | rfl | cases hw
  | tokenRejected hfound htx =>
    cases htx
    constructor <;> intro hw <;> first | rfl | cases hw
  | resetConfirmed hfound htx =>
    obtain ⟨_, rfl⟩ := confirmResetTx_eq_ok htx
    constructor <;> intro hw <;> first | rfl | cases hw
  | claimed htx =>
    unfold EmailOutboxRepository.claimBatch at htx
    split at htx <;> cases htx
    constructor <;> intro hw <;> first | rfl | cases hw
  | markedSent hclaimed hjob htx =>
    cases htx
    constructor <;> intro hw <;> first | rfl | cases hw
  | markedDead hclaimed hjob hdead htx =>
    cases htx
    constructor <;> intro hw <;> first | rfl | cases hw
  | rescheduled hclaimed hjob halive htx =>
    cases htx
    constructor <;> intro hw <;> first | rfl | cases hw

end

end SmirklyAuth
