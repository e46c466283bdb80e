import SmirklyAuth.Infra.Http.RequestMetaExtractor
import SmirklyAuth.Protocol.Identifiers

/-!
# `SmirklyAuth.Infra.AddressTexts`: plain texts of addresses

The C library and the server both read and print addresses, and the model takes both as
parameters. For concrete runs the two are given here: a C library that knows dotted decimal and
IPv6 with all eight groups (`plainInet`), and a server whose casts know these texts and the
netmask length of one host (`plainPostgres`).
-/

set_option autoImplicit false

namespace SmirklyAuth

/-- A string without the separator is one token. -/
theorem splitOn_of_notMem {sep : UInt8} {s : Str} (h : sep ∉ s) : s.splitOn sep = [s] := by
  have hsplit : List.splitOn sep ([sep].intercalate [s]) = [s] :=
    List.splitOn_intercalate sep (by simpa using h) (by simp)
  rwa [List.intercalate_singleton] at hsplit

/-! ### A library that reads dotted decimal and uncompressed IPv6 -/

/-- The decimal digits of a byte. -/
def octetText (b : UInt8) : Str :=
  if b < 10 then [48 + b]
  else if b < 100 then [48 + b / 10, 48 + b % 10]
  else [48 + b / 100, 48 + b / 10 % 10, 48 + b % 10]

/-- An octet of `inet_pton`: at most three digits, no leading zero, at most 255. -/
def readOctet (s : Str) : Option UInt8 :=
  match fromCharsUnsigned s with
  | none => none
  | some n =>
    if s.isEmpty || 3 < s.length || (1 < s.length && s.head? = some 48) || 255 < n then none
    else some n.toUInt8

/-- The two hexadecimal digits of a byte. -/
def hexByte (b : UInt8) : Str := [hexDigit (b.toNat / 16), hexDigit (b.toNat % 16)]

/-- A digit of lower-case hexadecimal. -/
def readHexDigit (c : UInt8) : Option UInt8 :=
  if Phone.isDigit c then some (c - 48) else if 97 ≤ c && c ≤ 102 then some (c - 87) else none

/-- The two bytes of a group of four hexadecimal digits. -/
def readGroup : Str → Option (UInt8 × UInt8)
  | [a, b, c, d] => do
    let a ← readHexDigit a
    let b ← readHexDigit b
    let c ← readHexDigit c
    let d ← readHexDigit d
    pure (a * 16 + b, c * 16 + d)
  | _ => none

/-- The groups of an IPv6 address. -/
def hexGroups : List UInt8 → List Str
  | a :: b :: rest => (hexByte a ++ hexByte b) :: hexGroups rest
  | _ => []

/-- The bytes of the groups of a text. -/
def readGroups : List Str → Option (List UInt8)
  | [] => some []
  | group :: rest => do
    let (a, b) ← readGroup group
    let bytes ← readGroups rest
    pure (a :: b :: bytes)

/-- An octet is read as the byte it was written for. -/
theorem readOctet_octetText (b : UInt8) :
    readOctet (octetText b) = some b ∧ 46 ∉ octetText b := by
  revert b
  exact forall_byte (by decide +kernel)

/-- The two hexadecimal digits of a byte give the byte. -/
theorem readHexDigit_hexByte (b : UInt8) :
    ∃ high low, readHexDigit (hexDigit (b.toNat / 16)) = some high ∧
      readHexDigit (hexDigit (b.toNat % 16)) = some low ∧ high * 16 + low = b := by
  have hspec : ∀ b : UInt8, (do
      let high ← readHexDigit (hexDigit (b.toNat / 16))
      let low ← readHexDigit (hexDigit (b.toNat % 16))
      pure (high * 16 + low)) = some b := forall_byte (by decide +kernel)
  have h := hspec b
  simp only [Option.bind_eq_bind, Option.bind_eq_some_iff, Option.pure_def,
    Option.some.injEq] at h
  obtain ⟨high, hhigh, low, hlow, hb⟩ := h
  exact ⟨high, low, hhigh, hlow, hb⟩

/-- A group is read as its two bytes. -/
theorem readGroup_hexByte (a b : UInt8) : readGroup (hexByte a ++ hexByte b) = some (a, b) := by
  obtain ⟨_, _, h₁, h₂, ha⟩ := readHexDigit_hexByte a
  obtain ⟨_, _, h₃, h₄, hb⟩ := readHexDigit_hexByte b
  simp only [hexByte, List.cons_append, List.nil_append, readGroup, h₁, h₂, h₃, h₄,
    Option.bind_eq_bind, Option.bind_some, Option.pure_def, ha, hb]

/-- The groups of a sequence of bytes are read as the bytes. -/
theorem readGroups_hexGroups (bytes : List UInt8) (heven : bytes.length % 2 = 0) :
    readGroups (hexGroups bytes) = some bytes := by
  fun_induction hexGroups bytes with
  | case1 a b rest ih =>
    have hrest : rest.length % 2 = 0 := by
      simp only [List.length_cons] at heven
      omega
    simp [readGroups, readGroup_hexByte, ih hrest]
  | case2 bytes hne =>
    match bytes with
    | [] => rfl
    | [_] => simp at heven
    | a :: b :: rest => exact absurd rfl (hne a b rest)

/-- A character of no group and not the separator is not in the text. -/
theorem notMem_intercalate {c sep : UInt8} (hc : c ≠ sep) {groups : List Str}
    (h : ∀ group ∈ groups, c ∉ group) : c ∉ [sep].intercalate groups := by
  induction groups with
  | nil => simp
  | cons group rest ih =>
    have hrest := ih fun g hg => h g (List.mem_cons_of_mem _ hg)
    cases rest with
    | nil => simpa using h
    | cons next rest =>
      rw [List.intercalate_cons_cons]
      simp [h group List.mem_cons_self, hc, hrest]

/-- The digits of a byte are no separators. -/
theorem hexByte_digits (b : UInt8) : 46 ∉ hexByte b ∧ 47 ∉ hexByte b ∧ 58 ∉ hexByte b := by
  revert b
  exact forall_byte (by decide +kernel)

/-- A group has no separator in it. -/
theorem hexGroups_digits {bytes : List UInt8} {group : Str} (h : group ∈ hexGroups bytes) :
    46 ∉ group ∧ 47 ∉ group ∧ 58 ∉ group := by
  fun_induction hexGroups bytes with
  | case1 a b rest ih =>
    rcases List.mem_cons.mp h with rfl | h
    · simp [hexByte_digits]
    · exact ih h
  | case2 => cases h

/-- Dotted decimal. -/
def textV4 (address : Vector UInt8 4) : Str :=
  [46].intercalate (address.toList.map octetText)

/-- Four octets with dots between them. -/
def readV4 (s : Str) : Option (Vector UInt8 4) :=
  match (s.splitOn 46).mapM readOctet with
  | some [a, b, c, d] => some #v[a, b, c, d]
  | _ => none

/-- Eight groups, none left out. -/
def textV6 (address : Vector UInt8 16) : Str := [58].intercalate (hexGroups address.toList)

/-- Eight groups with colons between them. -/
def readV6 (s : Str) : Option (Vector UInt8 16) :=
  match readGroups (s.splitOn 58) with
  | some bytes => if h : bytes.length = 16 then some ⟨⟨bytes⟩, h⟩ else none
  | none => none

/-- An IPv4 address is read as it was written. -/
theorem readV4_textV4 (address : Vector UInt8 4) : readV4 (textV4 address) = some address := by
  obtain ⟨⟨bytes⟩, hsize⟩ := address
  match bytes, hsize with
  | [a, b, c, d], _ =>
    have hsplit : List.splitOn 46 (textV4 #v[a, b, c, d])
        = [octetText a, octetText b, octetText c, octetText d] :=
      List.splitOn_intercalate 46 (by simp [readOctet_octetText]) (by simp)
    show readV4 (textV4 #v[a, b, c, d]) = some #v[a, b, c, d]
    simp [readV4, hsplit, readOctet_octetText]

/-- An IPv6 address is read as it was written. -/
theorem readV6_textV6 (address : Vector UInt8 16) : readV6 (textV6 address) = some address := by
  obtain ⟨⟨bytes⟩, hsize⟩ := address
  have hlength : bytes.length = 16 := hsize
  have hsplit : List.splitOn 58 (textV6 ⟨⟨bytes⟩, hsize⟩) = hexGroups bytes := by
    refine List.splitOn_intercalate 58 (fun group hgroup => (hexGroups_digits hgroup).2.2) ?_
    match bytes, hlength with
    | _ :: _ :: _, _ => exact List.cons_ne_nil _ _
  have hread := readGroups_hexGroups bytes (by omega)
  simp only [readV6, hsplit, hread]
  rw [dif_pos hlength]

/-- A text without a dot is one octet at most. -/
theorem readV4_textV6 (address : Vector UInt8 16) : readV4 (textV6 address) = none := by
  have hdot : 46 ∉ textV6 address :=
    notMem_intercalate (by decide) fun group hgroup => (hexGroups_digits hgroup).1
  simp only [readV4, splitOn_of_notMem hdot, List.mapM_cons, List.mapM_nil]
  cases readOctet (textV6 address) <;> rfl

/-- A library that reads dotted decimal and uncompressed IPv6. -/
def plainInet : InetLibrary :=
  { pton4 := readV4
    pton6 := readV6
    ntop4 := textV4
    ntop6 := textV6
    pton4_ntop4 := readV4_textV4
    pton6_ntop6 := readV6_textV6
    pton4_ntop6 := readV4_textV6 }

/-! ### A server that reads the plain texts of addresses -/

/-- The number with these bytes, the lowest one first. -/
def natOfBytes (bytes : List UInt8) : Nat := bytes.foldr (fun b n => b.toNat + 256 * n) 0

/-- The lowest bytes of a number. -/
def bytesOfNat : Nat → Nat → List UInt8
  | 0, _ => []
  | k + 1, n => (n % 256).toUInt8 :: bytesOfNat k (n / 256)

/-- The number of bytes is as asked. -/
theorem length_bytesOfNat (k n : Nat) : (bytesOfNat k n).length = k := by
  induction k generalizing n with
  | zero => rfl
  | succ k ih => rw [bytesOfNat, List.length_cons, ih]

/-- The bytes of the number of a sequence of bytes. -/
theorem bytesOfNat_natOfBytes (bytes : List UInt8) :
    bytesOfNat bytes.length (natOfBytes bytes) = bytes := by
  induction bytes with
  | nil => rfl
  | cons b bytes ih =>
    have hb : b.toNat < 256 := b.toNat_lt
    have hnat : natOfBytes (b :: bytes) = b.toNat + 256 * natOfBytes bytes := rfl
    have hlow : (b.toNat + 256 * natOfBytes bytes) % 256 = b.toNat := by omega
    have hhigh : (b.toNat + 256 * natOfBytes bytes) / 256 = natOfBytes bytes := by omega
    rw [List.length_cons, bytesOfNat, hnat, hlow, hhigh, ih]
    simp

/-- The bytes of an address. -/
def addressOfNat (k n : Nat) : Vector UInt8 k := ⟨⟨bytesOfNat k n⟩, length_bytesOfNat k n⟩

/-- The address of the number of an address. -/
theorem addressOfNat_natOfBytes {k : Nat} (address : Vector UInt8 k) :
    addressOfNat k (natOfBytes address.toList) = address := by
  obtain ⟨⟨bytes⟩, hsize⟩ := address
  subst hsize
  simp only [addressOfNat]
  congr 2
  exact bytesOfNat_natOfBytes bytes

/-- `host`. -/
def plainHost (v : Inet) : Str :=
  if v.isV6 then textV6 (addressOfNat 16 v.address) else textV4 (addressOfNat 4 v.address)

/-- A text is an address, or an address with the netmask length of one host. -/
def plainInetOfText (text : Str) : Option Inet :=
  let address := text.takeWhile (· ≠ 47)
  let netmask := text.dropWhile (· ≠ 47)
  match readV4 address with
  | some bytes =>
    if netmask = [] ∨ netmask = lit "/32" then some ⟨false, natOfBytes bytes.toList, 32⟩ else none
  | none =>
    match readV6 address with
    | some bytes =>
      if netmask = [] ∨ netmask = lit "/128" then some ⟨true, natOfBytes bytes.toList, 128⟩
      else none
    | none => none

/-- A server with these casts. -/
def plainPostgres : Postgres where
  lower := Strings.toLower
  inet := plainInetOfText
  inetText v := plainHost v ++ lit "/" ++ lit (toString v.netmask)
  host := plainHost

/-- The text of an IPv4 address has no netmask. -/
theorem slash_notMem_textV4 (address : Vector UInt8 4) : 47 ∉ textV4 address := by
  have hoctet : ∀ b : UInt8, 47 ∉ octetText b := forall_byte (by decide +kernel)
  refine notMem_intercalate (by decide) fun group hgroup => ?_
  obtain ⟨b, _, rfl⟩ := List.mem_map.mp hgroup
  exact hoctet b

/-- The text of an IPv6 address has no netmask. -/
theorem slash_notMem_textV6 (address : Vector UInt8 16) : 47 ∉ textV6 address :=
  notMem_intercalate (by decide) fun _ hgroup => (hexGroups_digits hgroup).2.1

/-- A text is cut at its first slash. -/
theorem takeWhile_dropWhile_slash {address netmask : Str} (h : 47 ∉ address)
    (hnetmask : netmask = [] ∨ ∃ rest, netmask = 47 :: rest) :
    (address ++ netmask).takeWhile (· ≠ 47) = address ∧
      (address ++ netmask).dropWhile (· ≠ 47) = netmask := by
  have hall : ∀ c ∈ address, decide (c ≠ 47) = true := by
    intro c hc
    have hne : c ≠ 47 := fun heq => h (heq ▸ hc)
    simp [hne]
  rw [List.takeWhile_append_of_pos hall, List.dropWhile_append_of_pos hall]
  rcases hnetmask with rfl | ⟨rest, rfl⟩
  · simp
  · simp

/-- The value of an IPv4 address of one host. -/
def inetV4 (address : Vector UInt8 4) : Inet := ⟨false, natOfBytes address.toList, 32⟩

/-- The value of an IPv6 address of one host. -/
def inetV6 (address : Vector UInt8 16) : Inet := ⟨true, natOfBytes address.toList, 128⟩

/-- `host` of an IPv4 address is its text. -/
theorem plainHost_inetV4 (address : Vector UInt8 4) :
    plainHost (inetV4 address) = textV4 address :=
  congrArg textV4 (addressOfNat_natOfBytes address)

/-- `host` of an IPv6 address is its text. -/
theorem plainHost_inetV6 (address : Vector UInt8 16) :
    plainHost (inetV6 address) = textV6 address :=
  congrArg textV6 (addressOfNat_natOfBytes address)

/-- An IPv4 text is read as its address, with or without the full netmask. -/
theorem plainInetOfText_textV4 (address : Vector UInt8 4) {netmask : Str}
    (h : netmask = [] ∨ netmask = lit "/32") :
    plainInetOfText (textV4 address ++ netmask) = some (inetV4 address) := by
  have hslash : netmask = [] ∨ ∃ rest, netmask = 47 :: rest := h.imp_right fun h => ⟨_, h⟩
  obtain ⟨htake, hdrop⟩ := takeWhile_dropWhile_slash (slash_notMem_textV4 address) hslash
  simp only [plainInetOfText, htake, hdrop, readV4_textV4]
  exact if_pos h

/-- An IPv6 text is read as its address, with or without the full netmask. -/
theorem plainInetOfText_textV6 (address : Vector UInt8 16) {netmask : Str}
    (h : netmask = [] ∨ netmask = lit "/128") :
    plainInetOfText (textV6 address ++ netmask) = some (inetV6 address) := by
  have hslash : netmask = [] ∨ ∃ rest, netmask = 47 :: rest := h.imp_right fun h => ⟨_, h⟩
  obtain ⟨htake, hdrop⟩ := takeWhile_dropWhile_slash (slash_notMem_textV6 address) hslash
  simp only [plainInetOfText, htake, hdrop, readV4_textV6, readV6_textV6]
  exact if_pos h

/-- Whatever is read is an IPv4 or an IPv6 address. -/
theorem plainInetOfText_cases {text : Str} {v : Inet} (h : plainInetOfText text = some v) :
    (∃ address, v = inetV4 address) ∨ ∃ address, v = inetV6 address := by
  simp only [plainInetOfText] at h
  split at h
  · rename_i address _
    split at h
    · exact .inl ⟨address, (Option.some.inj h).symm⟩
    · cases h
  · split at h
    · rename_i address _
      split at h
      · exact .inr ⟨address, (Option.some.inj h).symm⟩
      · cases h
    · cases h

end SmirklyAuth
