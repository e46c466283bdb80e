import SmirklyAuth.Proofs.ClientSelection
import SmirklyAuth.Proofs.CodeGuessing
import SmirklyAuth.Proofs.CodeHashes
import SmirklyAuth.Proofs.CodeStatements
import SmirklyAuth.Proofs.CodeUniformity
import SmirklyAuth.Proofs.Deadlines
import SmirklyAuth.Proofs.EmailSpelling
import SmirklyAuth.Proofs.FailureAtomicity
import SmirklyAuth.Proofs.HttpRevocation
import SmirklyAuth.Proofs.InputGrammar
import SmirklyAuth.Proofs.LeaseFencing
import SmirklyAuth.Proofs.LockScopes
import SmirklyAuth.Proofs.OutboxDeadlines
import SmirklyAuth.Proofs.PasswordSessions
import SmirklyAuth.Proofs.Readiness
import SmirklyAuth.Proofs.ResetEnumeration
import SmirklyAuth.Proofs.ResetLimits
import SmirklyAuth.Proofs.ResetTokenFormat
import SmirklyAuth.Proofs.SessionActivity
import SmirklyAuth.Proofs.SessionEnds
import SmirklyAuth.Proofs.SessionStatements
import SmirklyAuth.Proofs.SignInAfterSignUp
import SmirklyAuth.Proofs.SignInGuessing
import SmirklyAuth.Proofs.SignInPrecheck
import SmirklyAuth.Proofs.SmtpDelivery
import SmirklyAuth.Proofs.TickAccounting
import SmirklyAuth.Proofs.TokenReuse
