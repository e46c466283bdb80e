import Mathlib.Data.List.DropRight
import Mathlib.Data.List.Nodup

/-!
# `SmirklyAuth.Lib.Base64`: base64 over any alphabet

Three bytes are 24 bits, which are read as four digits of six bits each. A last group of one or
two bytes is filled up with zero bits and gives two or three digits. `digits` computes this on
numbers, `undigits` is the way back, and an `Alphabet` turns digits into characters. The padded
form fills the text up with `=` to a multiple of four characters.

Two encoders whose alphabets differ in a few characters are related by `encode_map`, and a
padded text and the bare one by `rdropWhile_padded`.
-/

set_option autoImplicit false

namespace Base64

/-- The four digits of a group of three bytes. -/
def group (a b c : Nat) : List Nat :=
  let value := a * 65536 + b * 256 + c
  [value / 262144 % 64, value / 4096 % 64, value / 64 % 64, value % 64]

/-- The digits of a sequence of bytes. -/
def digits : List UInt8 → List Nat
  | [] => []
  | [a] => (group a.toNat 0 0).take 2
  | [a, b] => (group a.toNat b.toNat 0).take 3
  | a :: b :: c :: rest => group a.toNat b.toNat c.toNat ++ digits rest

/-- The bytes of a sequence of digits. A single digit is left over from no byte. -/
def undigits : List Nat → Option (List UInt8)
  | [] => some []
  | [_] => none
  | [p, q] => some [(p * 4 + q / 16).toUInt8]
  | [p, q, r] => some [(p * 4 + q / 16).toUInt8, (q % 16 * 16 + r / 4).toUInt8]
  | p :: q :: r :: s :: rest =>
    (undigits rest).map fun bytes =>
      [(p * 4 + q / 16).toUInt8, (q % 16 * 16 + r / 4).toUInt8, (r % 4 * 64 + s).toUInt8] ++ bytes

/-- `n` bytes are `⌈4 n / 3⌉` digits. -/
theorem length_digits (bytes : List UInt8) :
    (digits bytes).length = (4 * bytes.length + 2) / 3 := by
  fun_induction digits bytes with
  | case1 => rfl
  | case2 a => simp [group]
  | case3 a b => simp [group]
  | case4 a b c rest ih =>
    simp only [List.length_append, ih, List.length_cons, group, List.length_nil]
    omega

/-- A digit of a group has six bits. -/
theorem lt_of_mem_group {a b c d : Nat} (h : d ∈ group a b c) : d < 64 := by
  simp only [group, List.mem_cons, List.not_mem_nil, or_false] at h
  omega

/-- A digit of a text has six bits. -/
theorem lt_of_mem_digits {bytes : List UInt8} {d : Nat} (h : d ∈ digits bytes) : d < 64 := by
  fun_induction digits bytes with
  | case1 => cases h
  | case2 a => exact lt_of_mem_group (List.mem_of_mem_take h)
  | case3 a b => exact lt_of_mem_group (List.mem_of_mem_take h)
  | case4 a b c rest ih =>
    rcases List.mem_append.mp h with h | h
    · exact lt_of_mem_group h
    · exact ih h

/-- A byte is known by its number. -/
theorem toUInt8_eq {n : Nat} {a : UInt8} (h : n = a.toNat) : n.toUInt8 = a := by
  rw [h]
  exact UInt8.ofNat_toNat

/-- The digits determine the bytes. -/
theorem undigits_digits (bytes : List UInt8) : undigits (digits bytes) = some bytes := by
  fun_induction digits bytes with
  | case1 => rfl
  | case2 a =>
    have ha := a.toNat_lt
    show some [_] = some [a]
    rw [toUInt8_eq (a := a) (by omega)]
  | case3 a b =>
    have ha := a.toNat_lt
    have hb := b.toNat_lt
    show some [_, _] = some [a, b]
    rw [toUInt8_eq (a := a) (by omega), toUInt8_eq (a := b) (by omega)]
  | case4 a b c rest ih =>
    have ha := a.toNat_lt
    have hb := b.toNat_lt
    have hc := c.toNat_lt
    show (undigits (digits rest)).map _ = some (a :: b :: c :: rest)
    rw [ih, Option.map_some]
    show some (_ :: _ :: _ :: rest) = _
    rw [toUInt8_eq (a := a) (by omega), toUInt8_eq (a := b) (by omega),
      toUInt8_eq (a := c) (by omega)]

/-- The 64 characters that stand for the digits. -/
structure Alphabet where
  chars : List UInt8
  length_chars : chars.length = 64
  nodup : chars.Nodup

namespace Alphabet

variable (A B : Alphabet)

/-- The character of a digit. -/
def char (d : Nat) : UInt8 := A.chars[d]?.getD 0

/-- The digit of a character. -/
def value (c : UInt8) : Option Nat := A.chars.idxOf? c

/-- The text without padding. -/
def encode (bytes : List UInt8) : List UInt8 := (digits bytes).map A.char

/-- The text, filled up with `=` to a multiple of four characters. -/
def encodePadded (bytes : List UInt8) : List UInt8 :=
  A.encode bytes ++ List.replicate ((4 - (A.encode bytes).length % 4) % 4) 61

/-- The bytes of a text without padding. -/
def decode (text : List UInt8) : Option (List UInt8) := (text.mapM A.value).bind undigits

/-- Every digit has a character. -/
theorem char_eq {d : Nat} (h : d < 64) : A.chars[d]? = some (A.char d) := by
  rw [char, List.getElem?_eq_getElem (by rw [A.length_chars]; exact h), Option.getD_some]

/-- The character of a digit is one of the alphabet. -/
theorem char_mem {d : Nat} (h : d < 64) : A.char d ∈ A.chars :=
  List.mem_of_getElem? (A.char_eq h)

/-- The digit of the character of a digit. -/
theorem value_char {d : Nat} (h : d < 64) : A.value (A.char d) = some d := by
  have hd : d < A.chars.length := by rw [A.length_chars]; exact h
  have hget : A.char d = A.chars[d] := by rw [char, List.getElem?_eq_getElem hd, Option.getD_some]
  rw [value, List.idxOf?_eq_some_iff, hget]
  -- no earlier position has this character, because the characters are distinct
  refine ⟨hd, rfl, ?_⟩
  intro j hj heq
  have hjd : j = d := (A.nodup.getElem_inj_iff).mp heq
  omega

/-- The text has a character for every six bits that have begun. -/
theorem length_encode (bytes : List UInt8) :
    (A.encode bytes).length = (4 * bytes.length + 2) / 3 := by
  rw [encode, List.length_map, length_digits]

/-- The padded text has four characters for every three bytes that have begun. -/
theorem length_encodePadded (bytes : List UInt8) :
    (A.encodePadded bytes).length = 4 * ((bytes.length + 2) / 3) := by
  rw [encodePadded, List.length_append, List.length_replicate, length_encode]
  omega

/-- A text has only characters of the alphabet. -/
theorem mem_of_mem_encode {bytes : List UInt8} {c : UInt8} (h : c ∈ A.encode bytes) :
    c ∈ A.chars := by
  obtain ⟨d, hd, rfl⟩ := List.mem_map.mp h
  exact A.char_mem (lt_of_mem_digits hd)

/-- The digits of the characters of a list of digits. -/
theorem mapM_value {ds : List Nat} (h : ∀ d ∈ ds, d < 64) :
    (ds.map A.char).mapM A.value = some ds := by
  induction ds with
  | nil => rfl
  | cons d ds ih =>
    have hd := A.value_char (h d List.mem_cons_self)
    have hds := ih fun d' hd' => h d' (List.mem_cons_of_mem _ hd')
    simp [hd, hds]

/-- A text decodes to the bytes it was made from. -/
theorem decode_encode (bytes : List UInt8) : A.decode (A.encode bytes) = some bytes := by
  rw [decode, encode, A.mapM_value fun _ => lt_of_mem_digits]
  exact undigits_digits bytes

/-- Different bytes have different texts. -/
theorem encode_injective : Function.Injective A.encode := by
  intro xs ys h
  have hdecoded := A.decode_encode xs
  rw [h, A.decode_encode] at hdecoded
  exact (Option.some.inj hdecoded).symm

/-- Replacing the characters of one alphabet by those of another. -/
theorem encode_map {f : UInt8 → UInt8} (h : ∀ d < 64, f (A.char d) = B.char d)
    (bytes : List UInt8) : (A.encode bytes).map f = B.encode bytes := by
  rw [encode, encode, List.map_map]
  apply List.map_congr_left
  intro d hd
  exact h d (lt_of_mem_digits hd)

/-- Dropping the padding, after the characters have been replaced. -/
theorem rdropWhile_padded {f : UInt8 → UInt8} (h : ∀ d < 64, f (A.char d) = B.char d)
    (hpad : f 61 = 61) (hB : 61 ∉ B.chars) (bytes : List UInt8) :
    ((A.encodePadded bytes).map f).rdropWhile (· == 61) = B.encode bytes := by
  have hpadding : ∀ n, ∀ c ∈ (List.replicate n 61).map f, (c == 61) = true := by
    intro n c hc
    rw [List.map_replicate, hpad] at hc
    simp [List.eq_of_mem_replicate hc]
  have htext : (B.encode bytes).rdropWhile (· == 61) = B.encode bytes := by
    rw [List.rdropWhile_eq_self_iff]
    intro hne hlast
    have hmem := B.mem_of_mem_encode (List.getLast_mem hne)
    rw [beq_iff_eq.mp hlast] at hmem
    exact hB hmem
  rw [encodePadded, List.map_append, A.encode_map B h, List.rdropWhile, List.reverse_append,
    List.dropWhile_append_of_pos]
  · exact htext
  · intro c hc
    exact hpadding _ c (List.mem_reverse.mp hc)

end Alphabet

end Base64
