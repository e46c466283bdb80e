import Mathlib.Data.List.Basic

/-!
# `SmirklyAuth.Lib.Rfc822`: header fields, a blank line, a body

A message is a block of header lines, each ended by CR LF, a blank line and a body. `parse` reads
one: it splits the text at the first CR LF CR LF, the part before it at every CR LF, and every
line at its first colon and space. `render` writes one. What is written reads back when no field
holds a CR and no name holds a colon (`parse_render`).

A text has CR LF line endings when every LF follows a CR (`crlfTextAfter`, after the byte
`previous`). `normalizeAfter` puts a CR before every other LF. Its result has CR LF line endings,
and a text that has them is left as it is.
-/

set_option autoImplicit false

namespace Rfc822

/-- The byte CR. -/
abbrev cr : UInt8 := 13

/-- The byte LF. -/
abbrev lf : UInt8 := 10

/-- The end of a line. -/
def crlf : List UInt8 := [cr, lf]

/-! ### Line endings -/

/-- An LF that no CR precedes. -/
def bareLf (previous : Option UInt8) (c : UInt8) : Bool := c == lf && previous != some cr

/-- A carriage return is no bare line feed. -/
@[simp] theorem bareLf_cr (previous : Option UInt8) : bareLf previous cr = false := rfl

/-- A line feed after a carriage return is not bare. -/
@[simp] theorem bareLf_after_cr (c : UInt8) : bareLf (some cr) c = false := by simp [bareLf]

/-- Another character is no bare line feed. -/
theorem bareLf_of_ne {c : UInt8} (h : c ≠ lf) (previous : Option UInt8) :
    bareLf previous c = false := by simp [bareLf, h]

/-- Every LF becomes CR LF unless a CR precedes it. -/
def normalizeAfter : Option UInt8 → List UInt8 → List UInt8
  | _, [] => []
  | previous, c :: rest =>
    if bareLf previous c then cr :: c :: normalizeAfter (some c) rest
    else c :: normalizeAfter (some c) rest

/-- Every LF follows a CR. -/
def crlfTextAfter : Option UInt8 → List UInt8 → Bool
  | _, [] => true
  | previous, c :: rest => !bareLf previous c && crlfTextAfter (some c) rest

/-- A text with CR LF line endings is left as it is. -/
theorem normalizeAfter_eq_self {previous : Option UInt8} {s : List UInt8}
    (h : crlfTextAfter previous s = true) : normalizeAfter previous s = s := by
  induction s generalizing previous with
  | nil => rfl
  | cons c rest ih =>
    simp only [crlfTextAfter, Bool.and_eq_true, Bool.not_eq_true'] at h
    rw [normalizeAfter, h.1, ih h.2]
    rfl

/-- Normalised text has no bare line feed. -/
theorem crlfTextAfter_normalizeAfter (previous : Option UInt8) (s : List UInt8) :
    crlfTextAfter previous (normalizeAfter previous s) = true := by
  induction s generalizing previous with
  | nil => rfl
  | cons c rest ih =>
    rw [normalizeAfter]
    split
    · -- the LF follows the CR that was put before it
      simp [crlfTextAfter, ih]
    · rename_i hc
      simp [crlfTextAfter, hc, ih]

/-- Normalising twice changes nothing more. -/
theorem normalizeAfter_idem (previous : Option UInt8) (s : List UInt8) :
    normalizeAfter previous (normalizeAfter previous s) = normalizeAfter previous s :=
  normalizeAfter_eq_self (crlfTextAfter_normalizeAfter previous s)

/-- Only whether a CR precedes the text matters. -/
theorem crlfTextAfter_of_ne {previous : Option UInt8} {s : List UInt8}
    (h : crlfTextAfter none s = true) : crlfTextAfter previous s = true := by
  cases s with
  | nil => rfl
  | cons c rest =>
    simp only [crlfTextAfter, Bool.and_eq_true, Bool.not_eq_true'] at h ⊢
    have hc : c ≠ lf := by simpa [bareLf] using h.1
    exact ⟨bareLf_of_ne hc previous, h.2⟩

/-- A line with its end, before a text with CR LF line endings. -/
theorem crlfTextAfter_line {line rest : List UInt8} (hline : lf ∉ line)
    (hrest : crlfTextAfter none rest = true) (previous : Option UInt8) :
    crlfTextAfter previous (line ++ crlf ++ rest) = true := by
  induction line generalizing previous with
  | nil => simp [crlf, crlfTextAfter, crlfTextAfter_of_ne hrest]
  | cons c line ih =>
    have hc : c ≠ lf := fun heq => hline (heq ▸ List.mem_cons_self)
    have hrest' := ih (fun hmem => hline (List.mem_cons_of_mem _ hmem)) (some c)
    simp only [List.cons_append, crlfTextAfter, bareLf_of_ne hc, hrest']
    rfl

/-- A last line end. -/
theorem crlfTextAfter_append_crlf {previous : Option UInt8} {s : List UInt8}
    (h : crlfTextAfter previous s = true) : crlfTextAfter previous (s ++ crlf) = true := by
  induction s generalizing previous with
  | nil => rfl
  | cons c rest ih =>
    simp only [crlfTextAfter, List.cons_append, Bool.and_eq_true] at h ⊢
    exact ⟨h.1, ih h.2⟩

/-! ### Splitting -/

section

variable {α : Type} [DecidableEq α]

/-- The parts before and after the first occurrence of `separator`. -/
def splitFirst (separator : List α) : List α → Option (List α × List α)
  | [] => none
  | c :: rest =>
    if separator <+: c :: rest then some ([], (c :: rest).drop separator.length)
    else (splitFirst separator rest).map fun parts => (c :: parts.1, parts.2)

/-- The separator at the beginning of a text. -/
theorem splitFirst_self (x : α) (separator tail : List α) :
    splitFirst (x :: separator) (x :: separator ++ tail) = some ([], tail) := by
  have hbegins : x :: separator <+: x :: (separator ++ tail) :=
    List.prefix_append (x :: separator) tail
  rw [List.cons_append, splitFirst, if_pos hbegins]
  simp

/-- The separator does not begin in a part without its first symbol. -/
theorem splitFirst_append (x : α) (separator : List α) {part : List α} (h : x ∉ part)
    (rest : List α) : splitFirst (x :: separator) (part ++ rest) =
      (splitFirst (x :: separator) rest).map fun parts => (part ++ parts.1, parts.2) := by
  induction part with
  | nil => simp
  | cons c part ih =>
    have hc : x ≠ c := fun heq => h (heq ▸ List.mem_cons_self)
    have hstep : ¬ x :: separator <+: c :: (part ++ rest) := by
      rw [List.cons_prefix_cons]
      exact fun hx => hc hx.1
    rw [List.cons_append, splitFirst, if_neg hstep,
      ih fun hmem => h (List.mem_cons_of_mem _ hmem), Option.map_map]
    rfl

/-- The first occurrence, when the part before it does not have the first symbol. -/
theorem splitFirst_eq (x : α) (separator : List α) {part : List α} (h : x ∉ part)
    (tail : List α) :
    splitFirst (x :: separator) (part ++ (x :: separator ++ tail)) = some (part, tail) := by
  rw [splitFirst_append _ _ h, splitFirst_self]
  simp

end

/-- The lines of a text: it is split at every CR LF. -/
def lines : List UInt8 → List (List UInt8)
  | [] => [[]]
  | [c] => [[c]]
  | c :: d :: rest =>
    if c = cr ∧ d = lf then [] :: lines rest
    else (lines (d :: rest)).modifyHead (c :: ·)

/-- A line without CR, before the end of the text or before its own end. -/
theorem lines_line {line : List UInt8} (h : cr ∉ line) : lines line = [line] := by
  induction line with
  | nil => rfl
  | cons c line ih =>
    have hc : c ≠ cr := fun heq => h (heq ▸ List.mem_cons_self)
    have hline := ih fun hmem => h (List.mem_cons_of_mem _ hmem)
    cases line with
    | nil => rfl
    | cons d line =>
      rw [lines, if_neg fun hcd => hc hcd.1, hline]
      rfl

/-- The first line of a text. -/
theorem lines_line_append {line : List UInt8} (h : cr ∉ line) (rest : List UInt8) :
    lines (line ++ crlf ++ rest) = line :: lines rest := by
  induction line with
  | nil => rfl
  | cons c line ih =>
    have hc : c ≠ cr := fun heq => h (heq ▸ List.mem_cons_self)
    have hline := ih fun hmem => h (List.mem_cons_of_mem _ hmem)
    cases line with
    | nil =>
      show lines (c :: cr :: lf :: rest) = [c] :: lines rest
      rw [lines, if_neg fun hcd => hc hcd.1]
      have hempty : lines (cr :: lf :: rest) = [] :: lines rest := hline
      rw [hempty]
      rfl
    | cons d line =>
      show lines (c :: d :: (line ++ crlf ++ rest)) = (c :: d :: line) :: lines rest
      have htail : lines (d :: (line ++ crlf ++ rest)) = (d :: line) :: lines rest := hline
      rw [lines, if_neg fun hcd => hc hcd.1, htail]
      rfl

/-! ### Messages -/

/-- A header field: its name and its value. -/
abbrev Field := List UInt8 × List UInt8

/-- A blank line after the end of a line. -/
def blankLine : List UInt8 := crlf ++ crlf

/-- What stands between the name and the value of a field. -/
def colon : List UInt8 := [58, 32]

/-- The line of a header field. -/
def Field.line (field : Field) : List UInt8 := field.1 ++ colon ++ field.2

/-- A message of these fields and this body. -/
def render (fields : List Field) (body : List UInt8) : List UInt8 :=
  fields.flatMap (fun field => field.line ++ crlf) ++ crlf ++ body

/-- The header fields and the body of a message. -/
def parse (text : List UInt8) : Option (List Field × List UInt8) := do
  let (head, body) ← splitFirst blankLine text
  let fields ← (lines head).mapM (splitFirst colon)
  return (fields, body)

/-- A line end that no blank line follows. -/
theorem splitFirst_crlf {rest : List UInt8} (h : ∃ c tail, rest = c :: tail ∧ c ≠ cr) :
    splitFirst blankLine (crlf ++ rest) =
      (splitFirst blankLine rest).map fun parts => (crlf ++ parts.1, parts.2) := by
  obtain ⟨c, tail, rfl, hc⟩ := h
  have hcr : ¬ blankLine <+: cr :: lf :: c :: tail := by
    intro hbegins
    simp only [blankLine, crlf, List.cons_append, List.nil_append, List.cons_prefix_cons] at hbegins
    exact hc hbegins.2.2.1.symm
  have hlf : ¬ blankLine <+: lf :: c :: tail := by
    intro hbegins
    simp only [blankLine, crlf, List.cons_append, List.cons_prefix_cons] at hbegins
    exact absurd hbegins.1 (by decide)
  show splitFirst blankLine (cr :: lf :: c :: tail) = _
  rw [splitFirst, if_neg hcr, splitFirst, if_neg hlf, Option.map_map]
  rfl

/-- The first blank line is the one after a block of lines that are not blank. -/
theorem splitFirst_block (line : List UInt8) (block : List (List UInt8)) (body : List UInt8)
    (h : ∀ l ∈ line :: block, l ≠ [] ∧ cr ∉ l) :
    splitFirst blankLine ((line :: block).flatMap (· ++ crlf) ++ crlf ++ body) =
      some (crlf.intercalate (line :: block), body) := by
  induction block generalizing line with
  | nil =>
    have hsplit := splitFirst_eq cr [lf, cr, lf] (h line List.mem_cons_self).2 body
    simpa [blankLine, crlf] using hsplit
  | cons next block ih =>
    have hrest := ih next fun l hl => h l (List.mem_cons_of_mem _ hl)
    have htext : (line :: next :: block).flatMap (· ++ crlf) ++ crlf ++ body =
        line ++ (crlf ++ ((next :: block).flatMap (· ++ crlf) ++ crlf ++ body)) := by
      simp
    -- the next line is not blank, so the end of this one does not begin a blank line
    have hbegins : ∃ c tail,
        (next :: block).flatMap (· ++ crlf) ++ crlf ++ body = c :: tail ∧ c ≠ cr := by
      obtain ⟨hnext, hcr⟩ := h next (List.mem_cons_of_mem _ List.mem_cons_self)
      obtain ⟨c, next, rfl⟩ := List.exists_cons_of_ne_nil hnext
      exact ⟨c, _, rfl, fun heq => hcr (heq ▸ List.mem_cons_self)⟩
    generalize (next :: block).flatMap (· ++ crlf) ++ crlf ++ body = rest at *
    have hline : splitFirst blankLine (line ++ (crlf ++ rest)) = _ :=
      splitFirst_append cr [lf, cr, lf] (h line List.mem_cons_self).2 (crlf ++ rest)
    rw [htext, hline]
    show Option.map _ (splitFirst blankLine (crlf ++ rest)) = _
    rw [splitFirst_crlf hbegins, hrest]
    simp [List.intercalate]

/-- The lines of a block are those that it was made from. -/
theorem lines_intercalate (line : List UInt8) (block : List (List UInt8))
    (h : ∀ l ∈ line :: block, cr ∉ l) :
    lines (crlf.intercalate (line :: block)) = line :: block := by
  induction block generalizing line with
  | nil => simpa [List.intercalate] using lines_line (h line List.mem_cons_self)
  | cons next block ih =>
    have hrest := ih next fun l hl => h l (List.mem_cons_of_mem _ hl)
    have happend : crlf.intercalate (line :: next :: block) =
        line ++ crlf ++ crlf.intercalate (next :: block) := by
      simp [List.intercalate]
    rw [happend, lines_line_append (h line List.mem_cons_self), hrest]

/-- A field without CR, with a name that has no colon. -/
structure Field.Plain (field : Field) : Prop where
  name : 58 ∉ field.1
  cr_not_mem : cr ∉ field.line

/-- Every line of a header block splits into its field. -/
theorem mapM_splitFirst_line {fields : List Field} (h : ∀ field ∈ fields, field.Plain) :
    (fields.map Field.line).mapM (splitFirst colon) = some fields := by
  induction fields with
  | nil => rfl
  | cons field fields ih =>
    have hfield : splitFirst colon field.line = some field := by
      have hsplit := splitFirst_eq 58 [32] (h field List.mem_cons_self).name field.2
      simpa [colon, Field.line] using hsplit
    have hfields := ih fun other hmem => h other (List.mem_cons_of_mem _ hmem)
    simp [hfield, hfields]

/-- What is written reads back. -/
theorem parse_render {fields : List Field} (hne : fields ≠ [])
    (h : ∀ field ∈ fields, field.Plain) (body : List UInt8) :
    parse (render fields body) = some (fields, body) := by
  obtain ⟨field, fields, rfl⟩ := List.exists_cons_of_ne_nil hne
  have hlines : ∀ l ∈ (field :: fields).map Field.line, l ≠ [] ∧ cr ∉ l := by
    intro l hl
    obtain ⟨other, hmem, rfl⟩ := List.mem_map.mp hl
    exact ⟨by simp [Field.line, colon], (h other hmem).cr_not_mem⟩
  have hsplit := splitFirst_block field.line (fields.map Field.line) body hlines
  have hhead := lines_intercalate field.line (fields.map Field.line) fun l hl => (hlines l hl).2
  have hfields := mapM_splitFirst_line h
  rw [List.map_cons] at hfields
  have hrender : render (field :: fields) body =
      (field.line :: fields.map Field.line).flatMap (· ++ crlf) ++ crlf ++ body := by
    rw [← List.map_cons, List.flatMap_map]
    rfl
  rw [parse, hrender, hsplit]
  show ((lines _).mapM (splitFirst colon)).bind _ = _
  rw [hhead, hfields]
  rfl

/-- A message has CR LF line endings when its body has them and its fields have no LF. -/
theorem crlfText_render {fields : List Field} (h : ∀ field ∈ fields, lf ∉ field.line)
    {body : List UInt8} (hbody : crlfTextAfter none body = true) :
    crlfTextAfter none (render fields body) = true := by
  unfold render
  induction fields with
  | nil => exact @crlfTextAfter_line [] body List.not_mem_nil hbody none
  | cons field fields ih =>
    have hrest := ih fun other hmem => h other (List.mem_cons_of_mem _ hmem)
    have hline := crlfTextAfter_line (h field List.mem_cons_self) hrest none
    simpa using hline

end Rfc822
