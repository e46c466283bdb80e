import Mathlib.Data.List.Count
import SmirklyAuth.Infra.Sql.Attempts

/-!
# `SmirklyAuth.Protocol.AttemptTables`: what `…_try_record` counts

A row of an attempt table belongs to the scope of its lower-cased identifier, to the scope of
its user and to the scope of its address. `Attempt.tryRecord` inserts the row exactly when
every scope of it that has a positive limit is below the limit (`Attempt.tryRecord_eq_some_iff`).

The limits are `std::size_t` values. The cast to `bigint` keeps `0` apart from the other values
and makes no limit larger.
-/

set_option autoImplicit false

namespace SmirklyAuth

/-! ### Limits -/

/-- The cast to a 64-bit integer never makes a limit larger. -/
theorem toInt64_le (n : Nat) : toInt64 n ≤ n := toInt_ofNat_le 64 n

/-- Only the limit `0` is cast to `0`, the value for "no limit". -/
theorem toInt64_eq_zero_iff {n : Nat} (h : n < 2 ^ 64) : toInt64 n = 0 ↔ n = 0 := by
  have hmod : (BitVec.ofNat 64 n).toNat = n := by
    rw [BitVec.toNat_ofNat]
    exact Nat.mod_eq_of_lt h
  unfold toInt64
  rw [BitVec.toInt_eq_toNat_cond, hmod]
  split <;> omega

/-- What `…_try_record` asks of a scope with `count` rows. -/
def belowLimit (limit count : Nat) : Bool :=
  toInt64 limit == 0 || (count : Int) < toInt64 limit

/-- The test of the statement, as an inequality over the integers. -/
theorem belowLimit_iff {limit count : Nat} :
    belowLimit limit count = true ↔ toInt64 limit = 0 ∨ (count : Int) < toInt64 limit := by
  simp only [belowLimit, Bool.or_eq_true, beq_iff_eq, decide_eq_true_eq]

/-- A limit of zero is no limit. -/
theorem belowLimit_zero (count : Nat) : belowLimit 0 count = true := rfl

/-- A limit that is a nonnegative `std::int64_t` is the number it stands for. -/
theorem belowLimit_iff_of_lt {limit count : Nat} (h : limit < 2 ^ 63) :
    belowLimit limit count = true ↔ limit = 0 ∨ count < limit := by
  have hcast : toInt64 limit = limit := by
    unfold toInt64
    rw [BitVec.toInt_eq_toNat_cond, BitVec.toNat_ofNat, Nat.mod_eq_of_lt (by omega)]
    split <;> omega
  rw [belowLimit_iff, hcast]
  omega

/-- Below a positive limit there are fewer attempts than it says. -/
theorem lt_of_belowLimit {limit count : Nat} (hsize : limit < 2 ^ 64) (hpos : 0 < limit)
    (h : belowLimit limit count = true) : count < limit := by
  have hle := toInt64_le limit
  have hne : toInt64 limit ≠ 0 := fun hzero => by
    have := (toInt64_eq_zero_iff hsize).mp hzero
    omega
  rcases belowLimit_iff.mp h with hzero | hlt
  · exact absurd hzero hne
  · omega

/-! ### Scopes -/

/-- What the rows of an attempt table are counted by. -/
inductive AttemptScope where
  | identifier (lowered : Str)
  | user (id : Uuid)
  | ip (address : Inet)
  deriving DecidableEq, Repr

namespace AttemptScope

/-- The row is one of the scope. -/
def contains (pg : Postgres) : AttemptScope → Attempt → Bool
  | identifier lowered, r => pg.lower r.identifier == lowered
  | user id, r => r.userId == some id
  | ip address, r => r.ip == some address

/-- The limit that the arguments have for a scope of this kind. -/
def limit (args : AttemptArgs) : AttemptScope → Nat
  | identifier _ => args.maxPerIdentifier
  | user _ => args.maxPerUser
  | ip _ => args.maxPerIp

/-- The number of rows of the scope that are not older than `since`. -/
def count (pg : Postgres) (scope : AttemptScope) (since : Time) (rows : List Attempt) : Nat :=
  rows.countP fun r => scope.contains pg r && decide (since ≤ r.attemptedAt)

/-- The scopes of the row that the arguments ask to record. -/
def ofArgs (pg : Postgres) (args : AttemptArgs) : List AttemptScope :=
  [identifier (pg.lower args.identifier)] ++ (args.userId.map user).toList ++
    (args.ip.map ip).toList

/-- The scopes of a call are those that its own attempt counts in. -/
theorem mem_ofArgs {pg : Postgres} {args : AttemptArgs} {scope : AttemptScope} :
    scope ∈ ofArgs pg args ↔ scope.contains pg (Attempt.ofArgs args) = true := by
  cases scope with
  | identifier lowered =>
    simp only [ofArgs, contains, Attempt.ofArgs, List.mem_append, List.mem_singleton,
      identifier.injEq, Option.mem_toList, Option.map_eq_some_iff, reduceCtorEq, and_false,
      exists_false, or_false, beq_iff_eq]
    exact eq_comm
  | user id =>
    simp [ofArgs, contains, Attempt.ofArgs]
  | ip address =>
    simp [ofArgs, contains, Attempt.ofArgs]

end AttemptScope

namespace Attempt

variable {pg : Postgres} {args : AttemptArgs} {rows : List Attempt}

/-- A counter of `…_count_recent` is the count of its scope: the condition on the rows admits
every row of the scope. -/
private theorem countP_recent {p q : Attempt → Bool} (since : Time) (rows : List Attempt)
    (h : ∀ r, p r = true → q r = true) :
    (rows.filter fun r => decide (since ≤ r.attemptedAt) && q r).countP p =
      rows.countP fun r => p r && decide (since ≤ r.attemptedAt) := by
  rw [List.countP_filter]
  refine List.countP_congr fun r _ => ?_
  simp only [Bool.and_eq_true]
  exact ⟨fun ⟨hp, hsince, _⟩ => ⟨hp, hsince⟩, fun ⟨hp, hsince⟩ => ⟨hp, hsince, h r hp⟩⟩

/-- The first count of the pre-check is that of the identifier's scope. -/
theorem countRecent_identifier (identifier : Str) (userId : Option Uuid) (ip : Option Inet)
    (since : Time) :
    (countRecent pg identifier userId ip since rows).identifier =
      (AttemptScope.identifier (pg.lower identifier)).count pg since rows := by
  refine countP_recent since rows fun r hr => ?_
  simp only [hr, Bool.true_or]

/-- Its second count is that of the user's scope, if there is a user. -/
theorem countRecent_user (identifier : Str) (id : Uuid) (ip : Option Inet) (since : Time) :
    (countRecent pg identifier (some id) ip since rows).user =
      (AttemptScope.user id).count pg since rows := by
  refine countP_recent since rows fun r hr => ?_
  simp only [hr, Bool.or_true, Bool.true_or]

/-- Its third count is that of the address's scope, if there is an address. -/
theorem countRecent_ip (identifier : Str) (userId : Option Uuid) (address : Inet)
    (since : Time) :
    (countRecent pg identifier userId (some address) since rows).ip =
      (AttemptScope.ip address).count pg since rows := by
  refine countP_recent since rows fun r hr => ?_
  simp only [hr, Bool.or_true]

/-- The row is recorded when every scope of it is below its limit. -/
theorem allows_iff :
    allows args (countRecent pg args.identifier args.userId args.ip args.since rows) = true ↔
      ∀ scope ∈ AttemptScope.ofArgs pg args,
        belowLimit (scope.limit args) (scope.count pg args.since rows) = true := by
  obtain ⟨identifier, userId, ip, userAgent, now, since, maxPerIdentifier, maxPerUser,
    maxPerIp⟩ := args
  -- a scope that the arguments do not have asks for nothing
  cases userId with
  | none =>
    cases ip with
    | none => simp [allows, AttemptScope.ofArgs, AttemptScope.limit, belowLimit_iff,
        countRecent_identifier]
    | some address => simp [allows, AttemptScope.ofArgs, AttemptScope.limit, belowLimit_iff,
        countRecent_identifier, countRecent_ip]
  | some id =>
    cases ip with
    | none => simp [allows, AttemptScope.ofArgs, AttemptScope.limit, belowLimit_iff,
        countRecent_identifier, countRecent_user]
    | some address => simp [allows, AttemptScope.ofArgs, AttemptScope.limit, belowLimit_iff,
        countRecent_identifier, countRecent_user, countRecent_ip, and_assoc]

/-- `…_try_record` inserts the row of its arguments, when every scope of it is below its
limit. -/
theorem tryRecord_eq_some_iff {row : Attempt} :
    tryRecord pg args rows = some row ↔ row = ofArgs args ∧
      ∀ scope ∈ AttemptScope.ofArgs pg args,
        belowLimit (scope.limit args) (scope.count pg args.since rows) = true := by
  rw [← allows_iff]
  unfold tryRecord
  split
  · rename_i hallows
    simp only [Option.some.injEq, hallows, and_true]
    exact eq_comm
  · rename_i hallows
    simp only [reduceCtorEq, hallows, Bool.false_eq_true, and_false]

end Attempt

end SmirklyAuth
