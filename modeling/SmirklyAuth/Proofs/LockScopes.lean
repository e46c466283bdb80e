import Mathlib.Data.List.Lex
import Mathlib.Data.Set.Function
import Mathlib.Order.Interval.Set.Basic
import SmirklyAuth.Lib.LockOrder
import SmirklyAuth.System

/-!
# `SmirklyAuth.Proofs.LockScopes`: the advisory locks of the rate limits

`TryRecordAttempt` begins with a statement that takes one advisory lock for each scope of the
attempt: the identifier, the user if there is one, and the address if there is one. The
transaction keeps them until it ends. Two attempts share any subset of their scopes.

Each statement takes its locks in the order of the keys, and a key only once. So the order of
the keys is a rank in the sense of `LockOrder`, and no cycle of waiting transactions arises
(`lockScopes_acyclic`). A lock is the hash of its key. The rank of a lock is its key, so the
hash has to tell the keys of a run apart.

The order of the server on texts is a parameter: any collation will do.
-/

set_option autoImplicit false

namespace SmirklyAuth

/-- One execution of a lock statement. -/
inductive LockStatement where
  | signIn (args : AttemptArgs)
  | emailVerification (args : AttemptArgs)
  | passwordReset (args : AttemptArgs)
  | signUp (ip : Inet)

section

variable (collation : LinearOrder Str)

/-- `SELECT DISTINCT lock_key … ORDER BY lock_key`. -/
def orderedKeys (keys : List Str) : List Str :=
  haveI : DecidableRel collation.le := collation.toDecidableLE
  keys.dedup.insertionSort collation.le

variable (pg : Postgres)

/-- The keys that a statement locks, in the order in which it does. -/
def LockStatement.keys : LockStatement → List Str
  | .signIn args => orderedKeys collation (signInAttemptsLockScopes pg args)
  | .emailVerification args => orderedKeys collation (emailVerificationAttemptsLockScopes pg args)
  | .passwordReset args => orderedKeys collation (passwordResetAttemptsLockScopes pg args)
  | .signUp ip => signUpAttemptsLockScope pg ip

/-- The locks of a statement: `hashtextextended(lock_key, 0)` for each key. -/
def LockStatement.locks (hash : Str → BitVec 64) (statement : LockStatement) : List (BitVec 64) :=
  (statement.keys collation pg).map hash

/-- The lists of locks that the given statements take. -/
def lockPlans (hash : Str → BitVec 64) (statements : LockStatement → Prop)
    (locks : List (BitVec 64)) : Prop :=
  ∃ statement, statements statement ∧ locks = statement.locks collation pg hash

/-- The keys that the given statements lock. -/
def lockedKeys (statements : LockStatement → Prop) : Set Str :=
  { key | ∃ statement, statements statement ∧ key ∈ statement.keys collation pg }

end

section

variable {collation : LinearOrder Str} {pg : Postgres}

/-- Without repetition, an ordered list is strictly ordered. -/
theorem orderedKeys_pairwise (keys : List Str) :
    (orderedKeys collation keys).Pairwise collation.lt := by
  let := collation
  have hsorted : (orderedKeys collation keys).Pairwise collation.le :=
    List.pairwise_insertionSort collation.le keys.dedup
  have hnodup : (orderedKeys collation keys).Nodup :=
    (List.perm_insertionSort collation.le keys.dedup).nodup_iff.mpr keys.nodup_dedup
  exact (hsorted.and hnodup).imp fun h => lt_of_le_of_ne h.1 h.2

/-- A statement takes its keys in the order of the collation. -/
theorem LockStatement.keys_pairwise (statement : LockStatement) :
    (statement.keys collation pg).Pairwise collation.lt := by
  cases statement with
  | signIn args => exact orderedKeys_pairwise _
  | emailVerification args => exact orderedKeys_pairwise _
  | passwordReset args => exact orderedKeys_pairwise _
  | signUp ip => exact List.pairwise_singleton _ _

variable {hash : Str → BitVec 64} {statements : LockStatement → Prop}

/-- The key of a lock. -/
noncomputable def keyOf (collation : LinearOrder Str) (pg : Postgres) (hash : Str → BitVec 64)
    (statements : LockStatement → Prop) (lock : BitVec 64) : Str :=
  Function.invFunOn hash (lockedKeys collation pg statements) lock

/-- Every statement takes its locks in the order of their keys. -/
theorem lockPlans_ordered (hhash : Set.InjOn hash (lockedKeys collation pg statements))
    {locks : List (BitVec 64)} (h : lockPlans collation pg hash statements locks) :
    letI := collation.toPreorder
    LockOrder.Ordered (keyOf collation pg hash statements) locks := by
  obtain ⟨statement, hstatement, rfl⟩ := h
  have hkey : ∀ key ∈ statement.keys collation pg,
      keyOf collation pg hash statements (hash key) = key := by
    intro key hmem
    exact hhash.leftInvOn_invFunOn ⟨statement, hstatement, hmem⟩
  refine List.pairwise_map.mpr (List.Pairwise.imp_of_mem ?_ statement.keys_pairwise)
  intro a b ha hb hlt
  rw [hkey a ha, hkey b hb]
  exact hlt

/-- Any number of transactions that run these statements and keep their locks never wait for
each other in a cycle, as long as the hash tells their keys apart. -/
theorem lockScopes_acyclic {T : Type} [DecidableEq T]
    (hhash : Set.InjOn hash (lockedKeys collation pg statements))
    {s : LockOrder.State T (BitVec 64)}
    (hs : LockOrder.Reachable (lockPlans collation pg hash statements) s) (t : T) :
    ¬ Relation.TransGen (LockOrder.Waits s) t t := by
  let := collation.toPreorder
  exact hs.acyclic (fun _ hplan => lockPlans_ordered hhash hplan) t

end

/-! ### Two sign-ins from one address -/

/-- An attempt to sign in from the address 203.0.113.7. -/
def attemptOf (identifier : Str) : AttemptArgs where
  identifier := identifier
  userId := none
  ip := some (inetV4 #v[203, 0, 113, 7])
  userAgent := none
  now := 0
  since := 0
  maxPerIdentifier := 10
  maxPerUser := 10
  maxPerIp := 50

/-- The order of the bytes. -/
@[reducible]
def byteOrder : LinearOrder Str :=
  LinearOrder.lift' (List.map UInt8.toNat) (List.map_injective_iff.mpr fun _ _ => UInt8.toNat.inj)

/-- The last eight bytes of a key. -/
def lastBytes (key : Str) : BitVec 64 :=
  BitVec.ofNat 64 (key.foldl (fun n c => n * 256 + c.toNat) 0)

/-- The sign-ins of two accounts. -/
def twoSignIns (statement : LockStatement) : Prop :=
  statement = .signIn (attemptOf "username:a") ∨ statement = .signIn (attemptOf "username:b")

/-- The keys of the two statements: the address is in both of them. -/
theorem keys_twoSignIns :
    LockStatement.keys byteOrder plainPostgres (.signIn (attemptOf "username:a"))
        = [lit "auth:sign-in:identifier:username:a", lit "auth:sign-in:ip:203.0.113.7"] ∧
      LockStatement.keys byteOrder plainPostgres (.signIn (attemptOf "username:b"))
        = [lit "auth:sign-in:identifier:username:b", lit "auth:sign-in:ip:203.0.113.7"] := by
  decide +kernel

/-- The three keys have different locks. -/
theorem lastBytes_injOn :
    Set.InjOn lastBytes (lockedKeys byteOrder plainPostgres twoSignIns) := by
  have hkeys : ∀ key ∈ lockedKeys byteOrder plainPostgres twoSignIns,
      key ∈ [lit "auth:sign-in:identifier:username:a", lit "auth:sign-in:identifier:username:b",
        lit "auth:sign-in:ip:203.0.113.7"] := by
    rintro key ⟨statement, rfl | rfl, hkey⟩
    · rw [keys_twoSignIns.1] at hkey
      revert key
      decide +kernel
    · rw [keys_twoSignIns.2] at hkey
      revert key
      decide +kernel
  have hdistinct : ([lit "auth:sign-in:identifier:username:a",
      lit "auth:sign-in:identifier:username:b",
      lit "auth:sign-in:ip:203.0.113.7"].map lastBytes).Nodup := by
    decide +kernel
  exact fun a ha b hb h => List.inj_on_of_nodup_map hdistinct (hkeys a ha) (hkeys b hb) h

/-- Two lists with the same last lock: the second transaction waits for the first one. -/
theorem exists_waits {L : Type} {plan : List L → Prop} {a b c : L} (hfirst : plan [a, c])
    (hsecond : plan [b, c]) (hfree : b ∉ [a, c]) :
    ∃ s : LockOrder.State Nat L, LockOrder.Reachable plan s ∧ LockOrder.Waits s 1 0 := by
  have halone : ∀ (h : LockOrder.Holder L) (lock : L) (u : Nat) (k : LockOrder.Holder L),
      u ≠ 0 → Function.update (fun _ => none) 0 (some h) u = some k → lock ∉ k.held := by
    intro h lock u k hu hk
    rw [Function.update_of_ne hu] at hk
    cases hk
  -- the first transaction takes both of its locks
  have h₁ : LockOrder.Reachable plan
      (Function.update (fun _ : Nat => none) 0 (some ⟨[], [a, c]⟩)) :=
    .tail .refl (.start 0 _ rfl hfirst)
  have h₂ := h₁.tail (.acquire 0 a [] [c] rfl (halone _ _))
  rw [Function.update_idem] at h₂
  have h₃ := h₂.tail (.acquire 0 c _ [] rfl (halone _ _))
  rw [Function.update_idem] at h₃
  -- the second one gets as far as the lock that they share
  have h₄ := h₃.tail (.start 1 _ rfl hsecond)
  have h₅ := h₄.tail (.acquire 1 b [] [c] rfl ?_)
  · exact ⟨_, h₅, by decide, c, ⟨[a, c], []⟩, ⟨_, _, rfl⟩, rfl, by simp⟩
  · intro u k hu hk
    rw [Function.update_of_ne hu] at hk
    by_cases hzero : u = 0
    · subst hzero
      cases hk
      exact hfree
    · rw [Function.update_of_ne hzero] at hk
      cases hk

/-- The first sign-in holds both locks, and the second waits for the lock of the address. -/
theorem lockScopes_acyclic_sharedAddress :
    ∃ s : LockOrder.State Nat (BitVec 64),
      LockOrder.Reachable (lockPlans byteOrder plainPostgres lastBytes twoSignIns) s ∧
        LockOrder.Waits s 1 0 ∧ ¬ Relation.TransGen (LockOrder.Waits s) 0 0 ∧
        ¬ Relation.TransGen (LockOrder.Waits s) 1 1 := by
  have hfirst : lockPlans byteOrder plainPostgres lastBytes twoSignIns
      [lastBytes (lit "auth:sign-in:identifier:username:a"),
        lastBytes (lit "auth:sign-in:ip:203.0.113.7")] :=
    ⟨_, .inl rfl, by rw [LockStatement.locks, keys_twoSignIns.1]; rfl⟩
  have hsecond : lockPlans byteOrder plainPostgres lastBytes twoSignIns
      [lastBytes (lit "auth:sign-in:identifier:username:b"),
        lastBytes (lit "auth:sign-in:ip:203.0.113.7")] :=
    ⟨_, .inr rfl, by rw [LockStatement.locks, keys_twoSignIns.2]; rfl⟩
  obtain ⟨s, hs, hwaits⟩ := exists_waits hfirst hsecond (by decide +kernel)
  exact ⟨s, hs, hwaits, lockScopes_acyclic lastBytes_injOn hs 0,
    lockScopes_acyclic lastBytes_injOn hs 1⟩

end SmirklyAuth
