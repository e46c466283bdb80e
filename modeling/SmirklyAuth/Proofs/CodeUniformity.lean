import Mathlib.Data.FinEnum
import SmirklyAuth.Infra.Security.RandomVerificationCodeGenerator
import SmirklyAuth.Lib.RejectionSampling

/-!
# `SmirklyAuth.Proofs.CodeUniformity`: every verification code is equally likely

`Generate` is a rejection sampler. The loop over a buffer appends the accepted digits up to the
length (`readBuffer_eq`), and the loop over the draws does the same with the buffers joined
(`fillCode_eq`): no byte is used twice, and none is skipped that is not above 249. So the code is
the beginning of the accepted digits of the stream, and a digit comes from 25 of the 250 bytes
that are accepted (`card_digit`). The rest is counting.
-/

set_option autoImplicit false

namespace SmirklyAuth

namespace RandomVerificationCodeGenerator

/-- The digit of a byte that is not above 249. -/
def classify (byte : UInt8) : Option UInt8 :=
  if kMaxUniformDigitByte < byte then none else some (digitOf byte)

/-- The accepted digits of a stream. -/
def acceptedDigits (stream : Str) : Str := stream.filterMap classify

/-- The accepted digits of two buffers are those of the one and then those of the other. -/
theorem acceptedDigits_append (s t : Str) :
    acceptedDigits (s ++ t) = acceptedDigits s ++ acceptedDigits t := List.filterMap_append

/-- The accepted digits are those of the bytes up to 249, in the order of the stream. -/
theorem acceptedDigits_eq (stream : Str) :
    acceptedDigits stream = (stream.filter fun b => decide (b ≤ 249)).map digitOf := by
  induction stream with
  | nil => rfl
  | cons b rest ih =>
    unfold acceptedDigits at ih ⊢
    by_cases hb : kMaxUniformDigitByte < b
    · have hrejected : ¬ b ≤ 249 := UInt8.not_le.mpr hb
      simp [classify, hb, hrejected, ih]
    · have haccepted : b ≤ 249 := UInt8.not_lt.mp hb
      simp [classify, hb, haccepted, ih]

/-- The loop over a buffer appends accepted digits until the code has its length. -/
theorem readBuffer_eq (length : Nat) (buffer code : Str) (h : code.length < length) :
    readBuffer length buffer code
      = code ++ (acceptedDigits buffer).take (length - code.length) := by
  induction buffer generalizing code with
  | nil => simp [readBuffer, acceptedDigits]
  | cons b rest ih =>
    rw [readBuffer]
    by_cases hb : kMaxUniformDigitByte < b
    · -- the byte is skipped
      have hdigits : acceptedDigits (b :: rest) = acceptedDigits rest := by
        simp [acceptedDigits, classify, hb]
      rw [if_pos hb, ih code h, hdigits]
    · have hdigits : acceptedDigits (b :: rest) = digitOf b :: acceptedDigits rest := by
        simp [acceptedDigits, classify, hb]
      have hone : length - code.length = (length - code.length - 1) + 1 := by omega
      rw [if_neg hb, hdigits, hone, List.take_succ_cons]
      simp only [List.length_append, List.length_singleton, beq_iff_eq]
      split
      · -- the `break`
        rename_i hfull
        have hnone : length - code.length - 1 = 0 := by omega
        rw [hnone, List.take_zero]
      · rename_i hmore
        rw [ih _ (by simp only [List.length_append, List.length_singleton]; omega)]
        simp [Nat.sub_sub]

/-- The loop over the draws reads the buffers as one stream. -/
theorem fillCode_eq (length : Nat) (buffers : List Str) (code : Str) (h : code.length ≤ length) :
    fillCode length (buffers.map some) code =
      if length ≤ code.length + (acceptedDigits buffers.flatten).length then
        some (.ok (code ++ (acceptedDigits buffers.flatten).take (length - code.length)))
      else none := by
  induction buffers generalizing code with
  | nil =>
    rw [List.map_nil, fillCode]
    by_cases hfull : code.length < length
    · simp [hfull, acceptedDigits]
    · have hlength : code.length = length := by omega
      simp [hlength, acceptedDigits]
  | cons buffer buffers ih =>
    rw [List.map_cons, fillCode, List.flatten_cons, acceptedDigits_append]
    by_cases hfull : code.length < length
    · rw [if_pos hfull, readBuffer_eq length buffer code hfull]
      generalize acceptedDigits buffer = digits at *
      have hlength : (code ++ digits.take (length - code.length)).length
          = code.length + min (length - code.length) digits.length := by simp
      rw [ih _ (by omega), hlength, List.length_append, List.append_assoc, List.take_append]
      have hcondition : length ≤ code.length + min (length - code.length) digits.length +
            (acceptedDigits buffers.flatten).length ↔
          length ≤ code.length + (digits.length + (acceptedDigits buffers.flatten).length) := by
        omega
      have hrest : length - (code.length + min (length - code.length) digits.length)
          = length - code.length - digits.length := by omega
      rw [hrest]
      simp only [hcondition]
    · have hlength : code.length = length := by omega
      simp [hlength]

/-! ### Streams of buffers -/

/-- The draws of `m` calls of `RAND_bytes` that succeed. -/
abbrev Buffers (m : Nat) := Fin m → Fin kRandomBufferSize → UInt8

/-- The buffers, in the order in which they are drawn. -/
def Buffers.toList {m : Nat} (s : Buffers m) : List Str := List.ofFn fun i => List.ofFn (s i)

/-- The bytes of all buffers, in the order in which they are drawn. -/
def Buffers.stream {m : Nat} (s : Buffers m) : Str := s.toList.flatten

/-- `Generate` on these buffers. -/
def generateFrom (g : RandomVerificationCodeGenerator) {m : Nat} (s : Buffers m) :
    Option (Except Str Str) :=
  g.generate (s.toList.map some)

/-- The generator finishes with the code that the accepted digits of the stream begin with. -/
theorem generateFrom_eq_ok_iff {g : RandomVerificationCodeGenerator} {m : Nat} {s : Buffers m}
    {code : Str} :
    g.generateFrom s = some (.ok code) ↔
      code.length = g.length ∧ code <+: acceptedDigits s.stream := by
  unfold generateFrom generate
  rw [fillCode_eq _ _ _ (Nat.zero_le _)]
  simp only [List.length_nil, Nat.zero_add, List.nil_append, Nat.sub_zero]
  constructor
  · intro h
    split at h
    · rename_i hlong
      obtain rfl := Except.ok.inj (Option.some.inj h)
      exact ⟨List.length_take_of_le hlong, List.take_prefix _ _⟩
    · cases h
  · rintro ⟨hlength, hbegins⟩
    have hlong : g.length ≤ (acceptedDigits s.toList.flatten).length :=
      hlength ▸ hbegins.length_le
    have htake : code = (acceptedDigits s.toList.flatten).take code.length :=
      List.prefix_iff_eq_take.mp hbegins
    rw [if_pos hlong, ← hlength, ← htake]

/-- The digit of a byte is its residue modulo ten. -/
theorem digitOf_eq (b : UInt8) : digitOf b = 48 + b % 10 ∧ digitOf b ∈ kDigits := by
  revert b
  decide +kernel

/-- A digit comes from 25 bytes. -/
theorem card_digit (d : UInt8) (hd : d ∈ kDigits) :
    Nat.card { b // classify b = some d } = 25 := by
  have hall : ∀ d ∈ kDigits,
      ((Finset.univ : Finset UInt8).filter fun b => classify b = some d).card = 25 := by
    decide +kernel
  rw [Nat.card_eq_fintype_card, Fintype.card_subtype]
  exact hall d hd

/-- The number of sequences of `m` buffers on which the generator returns the code. -/
noncomputable def returnCount (g : RandomVerificationCodeGenerator) (m : Nat) (code : Str) : Nat :=
  Nat.card { s : Buffers m // g.generateFrom s = some (.ok code) }

/-- The draws that return a code are counted by the library. -/
theorem returnCount_eq_count {g : RandomVerificationCodeGenerator} {m : Nat} {code : Str}
    (h : code.length = g.length) :
    g.returnCount m code = RejectionSampling.count classify (m * kRandomBufferSize) code := by
  unfold returnCount RejectionSampling.count
  rw [← RejectionSampling.card_blocks m kRandomBufferSize fun s => code <+: s.filterMap classify]
  apply Nat.card_congr
  apply Equiv.subtypeEquivRight
  intro s
  rw [generateFrom_eq_ok_iff]
  exact and_iff_right h

/-- Two codes of digits are returned equally often, for every length and every number of
buffers. What is returned has the length, and is made of the first bytes up to 249. -/
theorem codes_uniform (g : RandomVerificationCodeGenerator) (m : Nat) :
    (∀ code code', code.length = g.length → code'.length = g.length →
      (∀ d ∈ code, d ∈ kDigits) → (∀ d ∈ code', d ∈ kDigits) →
      g.returnCount m code = g.returnCount m code') ∧
    ∀ (s : Buffers m) code, g.generateFrom s = some (.ok code) →
      code.length = g.length ∧ (∀ d ∈ code, d ∈ kDigits) ∧
        code = ((s.stream.filter fun b => decide (b ≤ 249)).take g.length).map
          fun b => 48 + b % 10 := by
  constructor
  · intro code code' hlength hlength' hdigits hdigits'
    rw [returnCount_eq_count hlength, returnCount_eq_count hlength']
    apply RejectionSampling.count_congr _ (hlength.trans hlength'.symm) hdigits hdigits'
    intro d d' hd hd'
    rw [card_digit d hd, card_digit d' hd']
  · intro s code hcode
    obtain ⟨hlength, hbegins⟩ := generateFrom_eq_ok_iff.mp hcode
    have heq : code = ((s.stream.filter fun b => decide (b ≤ 249)).take g.length).map digitOf := by
      rw [List.prefix_iff_eq_take.mp hbegins, acceptedDigits_eq, List.map_take, hlength]
    refine ⟨hlength, ?_, ?_⟩
    · intro d hd
      rw [heq] at hd
      obtain ⟨b, _, rfl⟩ := List.mem_map.mp hd
      exact (digitOf_eq b).2
    · rw [heq]
      exact List.map_congr_left fun b _ => (digitOf_eq b).1

/-- On one buffer, the codes "000000" and "917356" are returned equally often; 250 and the bytes
above it are skipped. -/
theorem codes_uniform_six :
    returnCount ⟨6⟩ 1 "000000" = returnCount ⟨6⟩ 1 "917356" ∧
      generateFrom ⟨2⟩ (m := 1) (fun _ j => if j.val < 3 then 250 else 31) = some (.ok "11") ∧
      ("11" : Str).length = 2 := by
  refine ⟨(codes_uniform ⟨6⟩ 1).1 "000000" "917356" (by decide +kernel) (by decide +kernel)
    (by decide +kernel) (by decide +kernel), by decide +kernel, ?_⟩
  exact ((codes_uniform ⟨2⟩ 1).2 (fun _ j => if j.val < 3 then 250 else 31) "11"
    (by decide +kernel)).1

end RandomVerificationCodeGenerator

end SmirklyAuth
