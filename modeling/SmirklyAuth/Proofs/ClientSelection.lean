import Mathlib.Data.List.Forall2
import Mathlib.Data.Nat.Digits.Defs
import SmirklyAuth.Lib.BitPrefix
import SmirklyAuth.Proofs.ClientIp

/-!
# `SmirklyAuth.Proofs.ClientSelection`: whose address a request has

What the extractor is for, in terms of addresses and networks instead of byte arrays and masks.

* `IpAddress` is what the C library reads, `IpAddress.canonical` takes an IPv4-mapped address to
  the IPv4 address, and `InNetwork` compares the leading bits.
* `AddressText` and `CidrText` say which strings denote which address and which network.
* `Client` is the choice: the peer if it is not trusted, then the rightmost address that is not
  trusted, then the first of the list.

`extract_selects` says that the extractor makes this choice, and that no spelling of an address
changes its result.
-/

set_option autoImplicit false

namespace SmirklyAuth

open BitPrefix (AgreeUpTo byteAt mask)
open Trim (Trims)

/-! ### Addresses and networks -/

/-- An IP address. -/
inductive IpAddress where
  | v4 (bytes : Vector UInt8 4)
  | v6 (bytes : Vector UInt8 16)
  deriving DecidableEq

namespace IpAddress

/-- An IPv4-mapped address stands for the IPv4 address in it. -/
def canonical : IpAddress → IpAddress
  | v4 bytes => v4 bytes
  | v6 bytes => if isV4Mapped bytes then v4 (mappedV4 bytes) else v6 bytes

/-- The version of an address. -/
def version : IpAddress → IpVersion
  | v4 _ => .v4
  | v6 _ => .v6

/-- The bytes in network order. -/
def bytes : IpAddress → List UInt8
  | v4 bytes => bytes.toList
  | v6 bytes => bytes.toList

/-- The canonical text. -/
def text (inet : InetLibrary) (address : IpAddress) : Str :=
  match address.canonical with
  | v4 bytes => inet.ntop4 bytes
  | v6 bytes => inet.ntop6 bytes

end IpAddress

/-- An address and a number of leading bits. -/
structure Network where
  address : IpAddress
  prefixLength : Nat
  length_le : prefixLength ≤ address.canonical.version.bits

/-- The same version and the same leading bits, after canonicalisation. -/
structure InNetwork (network : Network) (address : IpAddress) : Prop where
  version : network.address.canonical.version = address.canonical.version
  bits : AgreeUpTo network.prefixLength network.address.canonical.bytes address.canonical.bytes

instance (network : Network) (address : IpAddress) : Decidable (InNetwork network address) :=
  decidable_of_iff (network.address.canonical.version = address.canonical.version ∧
      ∀ i < network.prefixLength, BitPrefix.bit network.address.canonical.bytes i
        = BitPrefix.bit address.canonical.bytes i)
    ⟨fun h => ⟨h.1, h.2⟩, fun h => ⟨h.version, h.bits⟩⟩

/-- An address of a proxy that is trusted. -/
def Trusted (networks : List Network) (address : IpAddress) : Prop :=
  ∃ network ∈ networks, InNetwork network address

instance (networks : List Network) (address : IpAddress) : Decidable (Trusted networks address) :=
  inferInstanceAs (Decidable (∃ network ∈ networks, InNetwork network address))

/-! ### Texts -/

/-- What the C library reads: an IPv4 address if it can, else an IPv6 address. -/
def InetLibrary.read (inet : InetLibrary) (s : Str) : Option IpAddress :=
  match inet.pton4 s with
  | some bytes => some (.v4 bytes)
  | none => (inet.pton6 s).map .v6

/-- A string that denotes an address. There may be white space around it. -/
def AddressText (inet : InetLibrary) (s : Str) (address : IpAddress) : Prop :=
  ∃ t, Trims Strings.isAsciiSpace s t ∧ t ≠ [] ∧ 44 ∉ t ∧ inet.read (cStr t) = some address

/-- A string that denotes a length in decimal. -/
def LengthText (s : Str) (n : Nat) : Prop :=
  ∃ t, Trims Strings.isAsciiSpace s t ∧ t ≠ [] ∧ (∀ c ∈ t, 48 ≤ c ∧ c ≤ 57) ∧
    n = Nat.ofDigits 10 (t.reverse.map fun c => c.toNat - 48)

/-- A string that denotes a network: `address` or `address/length`. -/
def CidrText (inet : InetLibrary) (s : Str) (network : Network) : Prop :=
  ∃ t, Trims Strings.isAsciiSpace s t ∧
    ((47 ∉ t ∧ AddressText inet t network.address ∧
        network.prefixLength = network.address.canonical.version.bits) ∨
      ∃ address length, t = address ++ 47 :: length ∧ 47 ∉ address ∧
        AddressText inet address network.address ∧ LengthText length network.prefixLength)

/-! ### The choice -/

/-- The client of a request from `remote` that was forwarded along `chain`. -/
inductive Client (networks : List Network) (remote : IpAddress) (chain : List IpAddress) :
    IpAddress → Prop where
  | direct (hremote : ¬ Trusted networks remote) : Client networks remote chain remote
  | rightmost {left right : List IpAddress} {address : IpAddress}
      (hremote : Trusted networks remote) (hchain : chain ++ [remote] = left ++ address :: right)
      (haddress : ¬ Trusted networks address) (hright : ∀ a ∈ right, Trusted networks a) :
      Client networks remote chain address
  | first {address : IpAddress} {rest : List IpAddress} (hchain : chain = address :: rest)
      (hall : ∀ a ∈ chain ++ [remote], Trusted networks a) : Client networks remote chain address

/-- The IPv4-mapped IPv6 address. -/
def mapV4 (address : Vector UInt8 4) : Vector UInt8 16 :=
  (#v[0, 0, 0, 0, 0, 0, 0, 0, 0, 0, 255, 255] : Vector UInt8 12) ++ address

/-- Another spelling: with more white space, or as an IPv4-mapped address. -/
inductive Respells (inet : InetLibrary) (s : Str) : Str → Prop where
  | same : Respells inet s s
  | padded {before after : Str} (hbefore : ∀ c ∈ before, Strings.isAsciiSpace c = true)
      (hafter : ∀ c ∈ after, Strings.isAsciiSpace c = true) : Respells inet s (before ++ s ++ after)
  | mapped {t : Str} {address : Vector UInt8 4} (hs : AddressText inet s (.v4 address))
      (ht : AddressText inet t (.v6 (mapV4 address))) : Respells inet s t

/-- The peer, the entries of `X-Forwarded-For` and `X-Real-IP` are spelled in another way. -/
structure RespelledRequest (inet : InetLibrary) (request request' : HttpRequest) : Prop where
  remoteAddress : Respells inet request.remoteAddress request'.remoteAddress
  xForwardedFor : List.Forall₂ (Respells inet) (request.xForwardedFor.splitOn 44)
    (request'.xForwardedFor.splitOn 44)
  xRealIp : Respells inet request.xRealIp request'.xRealIp

/-! ### Prefixes of byte arrays -/

/-- A byte within the bounds of the array. -/
theorem getElem?_eq_byteAt (bytes : Vector UInt8 16) {i : Nat} (hi : i < 16) :
    bytes[i]? = some (byteAt bytes.toList i) := by
  simp [byteAt, hi]

/-- `PrefixMatches` compares the leading bits. -/
theorem prefixMatches_iff (network address : Vector UInt8 16) {n : Nat} (hn : n ≤ 128) :
    prefixMatches network address n = true ↔ AgreeUpTo n network.toList address.toList := by
  have hbytes : ((List.range (n / 8)).any fun i => network[i]? ≠ address[i]?) = false ↔
      ∀ i < n / 8, byteAt network.toList i = byteAt address.toList i := by
    simp only [List.any_eq_false, List.mem_range, decide_eq_true_eq, not_not]
    refine forall₂_congr fun i hi => ?_
    rw [getElem?_eq_byteAt _ (by omega), getElem?_eq_byteAt _ (by omega), Option.some.injEq]
  rw [BitPrefix.agreeUpTo_iff, ← hbytes]
  simp only [prefixMatches]
  generalize ((List.range (n / 8)).any fun i => network[i]? ≠ address[i]?) = differs
  cases differs with
  | true => simp
  | false =>
    by_cases hrest : n % 8 = 0
    · -- the mask is empty
      simp [hrest, show mask 0 = 0 by decide]
    · rw [if_neg hrest, getElem?_eq_byteAt _ (by omega), getElem?_eq_byteAt _ (by omega)]
      simp [mask]

/-- The zeros behind an IPv4 address do not count. -/
theorem byteAt_padV4 (address : Vector UInt8 4) (i : Nat) :
    byteAt (padV4 address).toList i = byteAt address.toList i := by
  simp only [byteAt, padV4, Vector.toList_append, List.getElem?_append]
  split
  · rfl
  · rename_i hi
    rw [List.getElem?_eq_none (Nat.le_of_not_lt hi)]
    simp only [Vector.toList_replicate, List.getElem?_replicate]
    split <;> rfl

/-! ### Parsed addresses -/

section

variable {inet : InetLibrary}

/-- The bytes of a canonical address, padded with zeros. -/
def IpAddress.padded (address : IpAddress) : Vector UInt8 16 :=
  match address.canonical with
  | v4 bytes => padV4 bytes
  | v6 bytes => bytes

/-- The padding does not change the bytes, because a missing byte counts as zero. -/
theorem byteAt_padded (address : IpAddress) (i : Nat) :
    byteAt address.padded.toList i = byteAt address.canonical.bytes i := by
  unfold IpAddress.padded
  cases address.canonical with
  | v4 bytes => exact byteAt_padV4 bytes i
  | v6 bytes => rfl

/-- What `ParseIp` makes of an address. -/
def IpAddress.parsed (inet : InetLibrary) (address : IpAddress) : ParsedIp where
  version := address.canonical.version
  bytes := address.padded
  text := address.text inet

/-- A mapped address is parsed as an IPv4 address. -/
theorem parsed_v6 (bytes : Vector UInt8 16) :
    IpAddress.parsed inet (.v6 bytes) =
      if isV4Mapped bytes then .ofV4 inet (mappedV4 bytes) else .ofV6 inet bytes := by
  simp only [IpAddress.parsed, IpAddress.padded, IpAddress.text, IpAddress.canonical]
  split <;> rfl

/-- `ParseIp` trims, reads and canonicalises. -/
theorem parseIp_eq (s : Str) :
    parseIp inet s =
      if Strings.trim s = [] ∨ 44 ∈ Strings.trim s then none
      else (inet.read (cStr (Strings.trim s))).map (IpAddress.parsed inet) := by
  simp only [parseIp, InetLibrary.read, Bool.or_eq_true, List.isEmpty_iff, List.contains_iff_mem]
  split
  · rfl
  cases inet.pton4 (cStr (Strings.trim s)) with
  | some bytes => rfl
  | none =>
    cases inet.pton6 (cStr (Strings.trim s)) with
    | none => rfl
    | some bytes =>
      simp only [Option.map_some, parsed_v6]
      split <;> rfl

variable {s : Str}

/-- What is parsed is what the text denotes. -/
theorem parseIp_eq_some_iff {ip : ParsedIp} :
    parseIp inet s = some ip ↔
      ∃ address, AddressText inet s address ∧ ip = address.parsed inet := by
  simp only [parseIp_eq, AddressText, Strings.trims_iff, exists_eq_left]
  by_cases h : Strings.trim s = [] ∨ 44 ∈ Strings.trim s
  · rw [if_pos h]
    have hnot (address : IpAddress) : ¬ (Strings.trim s ≠ [] ∧ 44 ∉ Strings.trim s ∧
        inet.read (cStr (Strings.trim s)) = some address) := by
      rintro ⟨hne, hcomma, -⟩
      exact h.elim hne hcomma
    simp [hnot]
  · rw [if_neg h]
    rw [not_or] at h
    simp [h.1, h.2, eq_comm]

/-- The text of an address is parsed as that address. -/
theorem AddressText.parseIp {address : IpAddress} (h : AddressText inet s address) :
    parseIp inet s = some (address.parsed inet) :=
  parseIp_eq_some_iff.mpr ⟨address, h, rfl⟩

/-! ### Networks -/

/-- The network as the extractor keeps it. -/
def Network.ipNetwork (network : Network) : IpNetwork where
  version := network.address.canonical.version
  bytes := network.address.padded
  prefixLength := network.prefixLength
  length_le := network.length_le

/-- What `from_chars` accepts is decimal. -/
theorem fromCharsUnsigned_eq_some {n : Nat} (h : fromCharsUnsigned s = some n) :
    (∀ c ∈ s, 48 ≤ c ∧ c ≤ 57) ∧ n = Nat.ofDigits 10 (s.reverse.map fun c => c.toNat - 48) := by
  have hdigits : Nat.ofDigits 10 (s.reverse.map fun c => c.toNat - 48)
      = s.foldl (fun n c => n * 10 + (c.toNat - 48)) 0 := by
    rw [Nat.ofDigits_eq_foldr, List.foldr_map, List.foldr_reverse]
    congr 1
    funext n c
    simp only [Nat.cast_id]
    omega
  simp only [fromCharsUnsigned] at h
  split at h
  · rename_i hall
    obtain rfl := Option.some.inj h
    simp only [Bool.and_eq_true, List.all_eq_true, Phone.isDigit, decide_eq_true_eq] at hall
    exact ⟨hall.1, hdigits.symm⟩
  · cases h

/-- A length that is accepted is written in decimal. -/
theorem parsePrefixLength_eq_some {version : IpVersion}
    {n : { n : Nat // n ≤ version.bits }} (h : parsePrefixLength s version = some n) :
    LengthText s n.val := by
  simp only [parsePrefixLength] at h
  split at h
  · cases h
  rename_i hne
  split at h
  · cases h
  rename_i value hvalue
  split at h
  · obtain rfl := Option.some.inj h
    obtain ⟨hall, hn⟩ := fromCharsUnsigned_eq_some hvalue
    exact ⟨Strings.trim s, Strings.trims_iff.mpr rfl, by simpa using hne, hall, hn⟩
  · cases h

/-- An accepted string denotes the network that is kept. -/
theorem parseTrustedProxyCidr_eq_ok {cidr : Str} {ipNetwork : IpNetwork}
    (h : parseTrustedProxyCidr inet cidr = .ok ipNetwork) :
    ∃ network, CidrText inet cidr network ∧ ipNetwork = network.ipNetwork := by
  have htrims : Trims Strings.isAsciiSpace cidr (Strings.trim cidr) := Strings.trims_iff.mpr rfl
  unfold parseTrustedProxyCidr at h
  by_cases hslash : 47 ∈ Strings.trim cidr
  · -- `address/length`, split at the first `/`
    obtain ⟨part, length, hsplit, hpart⟩ := List.eq_append_cons_of_mem hslash
    have hpos : (part ++ 47 :: length).idxOf? 47 = some part.length := idxOf?_append_cons hpart
    have hdrop : (part ++ 47 :: length).drop (part.length + 1) = length := by
      rw [List.drop_append]
      simp
    simp only [hsplit, hpos, List.take_left, hdrop] at h
    cases haddress : parseIp inet part with
    | none => simp [haddress] at h
    | some ip =>
      obtain ⟨address, htext, rfl⟩ := parseIp_eq_some_iff.mp haddress
      simp only [haddress] at h
      cases hlength : parsePrefixLength length (address.parsed inet).version with
      | none => simp [hlength] at h
      | some n =>
        simp only [hlength] at h
        obtain rfl := Except.ok.inj h
        exact ⟨⟨address, n.val, n.property⟩, ⟨_, htrims, .inr ⟨part, length, hsplit, hpart, htext,
          parsePrefixLength_eq_some hlength⟩⟩, rfl⟩
  · -- an address alone is a network of one
    have hpos : (Strings.trim cidr).idxOf? 47 = none := List.idxOf?_eq_none_iff.mpr hslash
    simp only [hpos] at h
    cases haddress : parseIp inet (Strings.trim cidr) with
    | none => simp [haddress] at h
    | some ip =>
      obtain ⟨address, htext, rfl⟩ := parseIp_eq_some_iff.mp haddress
      simp only [haddress] at h
      obtain rfl := Except.ok.inj h
      exact ⟨⟨address, _, Nat.le_refl _⟩, ⟨_, htrims, .inl ⟨hslash, htext, rfl⟩⟩, rfl⟩

/-- Membership as the extractor tests it. -/
theorem inNetwork_iff (network : Network) (address : IpAddress) :
    (network.ipNetwork.version = (address.parsed inet).version &&
        prefixMatches network.ipNetwork.bytes (address.parsed inet).bytes
          network.ipNetwork.prefixLength) = true ↔ InNetwork network address := by
  have hbits : ∀ version : IpVersion, version.bits ≤ 128 := by
    rintro (_ | _) <;> decide
  have hlength : network.prefixLength ≤ 128 := le_trans network.length_le (hbits _)
  -- the zeros behind an IPv4 address agree whatever the length
  have hagree : AgreeUpTo network.prefixLength network.address.padded.toList
      address.padded.toList ↔
      AgreeUpTo network.prefixLength network.address.canonical.bytes address.canonical.bytes := by
    simp only [AgreeUpTo, BitPrefix.bit, byteAt_padded]
  rw [Bool.and_eq_true, decide_eq_true_eq]
  show _ ∧ prefixMatches network.address.padded address.padded network.prefixLength = true ↔ _
  rw [prefixMatches_iff _ _ hlength, hagree]
  exact ⟨fun h => ⟨h.1, h.2⟩, fun h => ⟨h.version, h.bits⟩⟩

/-! ### Lists of texts -/

section

variable {α β γ : Type}

variable {xs : List α}

/-- A list that was read element by element, when each element denotes something. -/
theorem exists_forall₂_of_mapM {f : α → Except Str β} {R : α → γ → Prop} {g : γ → β}
    (hf : ∀ x y, f x = .ok y → ∃ z, R x z ∧ y = g z) {ys : List β}
    (h : xs.mapM f = .ok ys) : ∃ zs, List.Forall₂ R xs zs ∧ ys = zs.map g := by
  induction xs generalizing ys with
  | nil =>
    obtain rfl := Except.ok.inj h
    exact ⟨[], .nil, rfl⟩
  | cons x xs ih =>
    rw [List.mapM_cons] at h
    obtain ⟨y, hy, h⟩ := except_bind_eq_ok h
    obtain ⟨ys', hys, h⟩ := except_bind_eq_ok h
    obtain rfl := Except.ok.inj h
    obtain ⟨z, hz, rfl⟩ := hf x y hy
    obtain ⟨zs, hzs, rfl⟩ := ih hys
    exact ⟨z :: zs, .cons hz hzs, rfl⟩

/-- A list whose elements all denote something is read as what they denote. -/
theorem mapM_of_forall₂ {f : α → Option β} {R : α → γ → Prop} {g : γ → β}
    (hf : ∀ x z, R x z → f x = some (g z)) {zs : List γ}
    (h : List.Forall₂ R xs zs) : xs.mapM f = some (zs.map g) := by
  induction h with
  | nil => rfl
  | cons hx _ ih => simp [hf _ _ hx, ih]

/-- Two lists are read alike if their elements are. -/
theorem mapM_congr_forall₂ {f : α → Option β} {R : α → α → Prop}
    (hf : ∀ x y, R x y → f x = f y) {ys : List α} (h : List.Forall₂ R xs ys) :
    xs.mapM f = ys.mapM f := by
  induction h with
  | nil => rfl
  | cons hx _ ih => simp [hf _ _ hx, ih]

/-- A list either has a property throughout or has a last element without it. -/
theorem forall_or_exists_rightmost (P : α → Prop) (xs : List α) :
    (∀ x ∈ xs, P x) ∨ ∃ left x right, xs = left ++ x :: right ∧ ¬ P x ∧ ∀ y ∈ right, P y := by
  induction xs with
  | nil => exact .inl (by simp)
  | cons x xs ih =>
    -- an element further right comes before `x`
    rcases ih with hall | ⟨left, y, right, rfl, hy, hright⟩
    · by_cases hx : P x
      · exact .inl (by simpa [hx] using hall)
      · exact .inr ⟨[], x, xs, rfl, hx, hall⟩
    · exact .inr ⟨x :: left, y, right, rfl, hy, hright⟩

end

/-- A blank header has one blank entry, so the test for it makes no difference. -/
theorem parseForwardedFor_eq (header : Str) :
    parseForwardedFor inet header = (header.splitOn 44).mapM (parseIp inet) := by
  unfold parseForwardedFor
  split
  · rename_i hblank
    have hnil : Strings.trim header = [] := by simpa using hblank
    have hcomma : 44 ∉ header := by
      intro hmem
      exact Strings.trim_ne_nil hmem rfl hnil
    simp [splitOn_of_notMem hcomma, parseIp_eq, hnil]
  · rfl

namespace ClientIpExtractor

variable (extractor : ClientIpExtractor inet)

/-- The extractor trusts the addresses of its networks. -/
theorem isTrustedProxy_iff {networks : List Network}
    (h : extractor.trustedProxies = networks.map Network.ipNetwork) (address : IpAddress) :
    extractor.isTrustedProxy (address.parsed inet) = true ↔ Trusted networks address := by
  simp only [isTrustedProxy, h, List.any_map, List.any_eq_true, Function.comp_apply,
    inNetwork_iff, Trusted]

/-- Behind proxies that are all trusted the first address is taken. -/
theorem forwardedClient_eq_front {header : Str} {front remoteIp : ParsedIp}
    {rest : List ParsedIp} (hheader : parseForwardedFor inet header = some (front :: rest))
    (hnone : extractor.rightmostUntrusted (front :: rest ++ [remoteIp]) = none) :
    extractor.forwardedClient remoteIp header = some front.text := by
  simp only [forwardedClient, isEmpty_of_parseForwardedFor hheader, hheader, Bool.false_eq_true,
    if_false]
  rw [hnone]

/-- A blank `X-Real-IP` is no address, so the test for it makes no difference. -/
theorem realIp_eq (header : Str) : realIp inet header = (parseIp inet header).map (·.text) := by
  unfold realIp
  split
  · rename_i hempty
    rw [List.isEmpty_iff.mp hempty]
    rfl
  · rfl

/-- The forwarded client depends on what the header is read as. -/
theorem forwardedClient_congr (remoteIp : ParsedIp) {header header' : Str}
    (h : parseForwardedFor inet header = parseForwardedFor inet header') :
    extractor.forwardedClient remoteIp header = extractor.forwardedClient remoteIp header' := by
  cases hparse : parseForwardedFor inet header' with
  | none =>
    rw [hparse] at h
    rw [extractor.forwardedClient_eq_none remoteIp h,
      extractor.forwardedClient_eq_none remoteIp hparse]
  | some chain =>
    -- neither header is empty, since both were read
    rw [hparse] at h
    simp only [forwardedClient, isEmpty_of_parseForwardedFor h, isEmpty_of_parseForwardedFor hparse,
      h, hparse]

/-- The result depends on what the texts are read as. -/
theorem extract_congr {request request' : HttpRequest}
    (hremote : parseIp inet request.remoteAddress = parseIp inet request'.remoteAddress)
    (hforwarded : parseForwardedFor inet request.xForwardedFor
      = parseForwardedFor inet request'.xForwardedFor)
    (hreal : parseIp inet request.xRealIp = parseIp inet request'.xRealIp) :
    extractor.extract request = extractor.extract request' := by
  simp only [extract, hremote, realIp_eq, hreal]
  cases parseIp inet request'.remoteAddress with
  | none => rfl
  | some remoteIp => simp only [extractor.forwardedClient_congr remoteIp hforwarded]

end ClientIpExtractor

/-! ### Spellings -/

/-- A mapped address stands for the address that it was made from. -/
theorem canonical_mapV4 (address : Vector UInt8 4) :
    (IpAddress.v6 (mapV4 address)).canonical = .v4 address := by
  obtain ⟨⟨bytes⟩, hsize⟩ := address
  match bytes, hsize with
  | [a, b, c, d], _ => rfl

/-- No spelling changes what is parsed. -/
theorem Respells.parseIp_eq {t : Str} (h : Respells inet s t) :
    parseIp inet s = parseIp inet t := by
  cases h with
  | same => rfl
  | @padded before after hbefore hafter =>
    have htrim : Strings.trim (before ++ s ++ after) = Strings.trim s :=
      Trim.trim_append hbefore hafter
    rw [SmirklyAuth.parseIp_eq, SmirklyAuth.parseIp_eq, htrim]
  | @mapped t address hs ht =>
    -- both are parsed as the IPv4 address
    have hparsed : (IpAddress.v6 (mapV4 address)).parsed inet
        = (IpAddress.v4 address).parsed inet := by
      simp only [IpAddress.parsed, IpAddress.padded, IpAddress.text, canonical_mapV4]
      rfl
    rw [hs.parseIp, ht.parseIp, hparsed]

/-- A header has at least one entry. -/
theorem entries_ne_nil {header : Str} {chain : List IpAddress}
    (h : List.Forall₂ (AddressText inet) (header.splitOn 44) chain) : chain ≠ [] := by
  rintro rfl
  exact List.splitOn_ne_nil _ _ (List.forall₂_nil_right_iff.mp h)

/-! ### The main result -/

namespace ClientIpExtractor

variable (extractor : ClientIpExtractor inet)

variable {networks : List Network} {chain : List IpAddress}

/-- The search from the right, on a chain whose last untrusted address is known. -/
theorem rightmostUntrusted_eq_some
    (h : extractor.trustedProxies = networks.map Network.ipNetwork)
    {left right : List IpAddress} {address : IpAddress} (haddress : ¬ Trusted networks address)
    (hright : ∀ a ∈ right, Trusted networks a) :
    extractor.rightmostUntrusted ((left ++ address :: right).map (·.parsed inet))
      = some (address.parsed inet) := by
  have hnone : (right.map (·.parsed inet)).reverse.find?
      (fun ip => !extractor.isTrustedProxy ip) = none := by
    rw [List.find?_eq_none]
    intro ip hip
    obtain ⟨a, ha, rfl⟩ := List.mem_map.mp (List.mem_reverse.mp hip)
    simpa using (extractor.isTrustedProxy_iff h a).mpr (hright a ha)
  have huntrusted : extractor.isTrustedProxy (address.parsed inet) = false := by
    rw [Bool.eq_false_iff, Ne, extractor.isTrustedProxy_iff h]
    exact haddress
  simp [rightmostUntrusted, List.find?_append, hnone, huntrusted]

/-- Nothing is found in a chain of trusted addresses. -/
theorem rightmostUntrusted_eq_none
    (h : extractor.trustedProxies = networks.map Network.ipNetwork)
    (hall : ∀ a ∈ chain, Trusted networks a) :
    extractor.rightmostUntrusted (chain.map (·.parsed inet)) = none := by
  rw [rightmostUntrusted, List.find?_eq_none]
  intro ip hip
  obtain ⟨a, ha, rfl⟩ := List.mem_map.mp (List.mem_reverse.mp hip)
  simpa using (extractor.isTrustedProxy_iff h a).mpr (hall a ha)

/-- The extractor returns the text of the client. -/
theorem extract_eq_client
    (h : extractor.trustedProxies = networks.map Network.ipNetwork) {request : HttpRequest}
    {remote client : IpAddress}
    (hremote : AddressText inet request.remoteAddress remote)
    (hchain : List.Forall₂ (AddressText inet) (request.xForwardedFor.splitOn 44) chain)
    (hclient : Client networks remote chain client) :
    extractor.extract request = some (client.text inet) := by
  have hheader : parseForwardedFor inet request.xForwardedFor
      = some (chain.map (·.parsed inet)) := by
    rw [parseForwardedFor_eq]
    exact mapM_of_forall₂ (fun _ _ htext => AddressText.parseIp htext) hchain
  have hparse := hremote.parseIp
  have htrusted := extractor.isTrustedProxy_iff h remote
  cases hclient with
  | direct huntrusted =>
    rw [← htrusted, Bool.not_eq_true] at huntrusted
    simp only [extract, hparse, huntrusted, Bool.not_false, if_true]
    rfl
  | @rightmost left right _ hpeer hsplit haddress hright =>
    have hfound : extractor.rightmostUntrusted ((left ++ client :: right).map (·.parsed inet))
        = some (client.parsed inet) := extractor.rightmostUntrusted_eq_some h haddress hright
    rw [← hsplit, List.map_append] at hfound
    have hforwarded := extractor.forwardedClient_eq_some hheader hfound
      (by simpa using entries_ne_nil hchain)
    simp only [extract, hparse, htrusted.mpr hpeer, hforwarded, Bool.not_true, Bool.false_eq_true,
      if_false]
    rfl
  | @first _ rest hsplit hall =>
    subst hsplit
    have hnone := extractor.rightmostUntrusted_eq_none h hall
    rw [List.map_append] at hnone
    have hpeer : Trusted networks remote := hall remote (by simp)
    have hforwarded := extractor.forwardedClient_eq_front hheader hnone
    simp only [extract, hparse, htrusted.mpr hpeer, hforwarded, Bool.not_true, Bool.false_eq_true,
      if_false]
    rfl

/-- There is always a client. -/
theorem exists_client (networks : List Network) (remote : IpAddress)
    (hchain : chain ≠ []) : ∃ client, Client networks remote chain client := by
  by_cases hremote : Trusted networks remote
  · rcases forall_or_exists_rightmost (Trusted networks) (chain ++ [remote]) with
      hall | ⟨left, address, right, hsplit, haddress, hright⟩
    · obtain ⟨address, rest, rfl⟩ := List.exists_cons_of_ne_nil hchain
      exact ⟨address, .first rfl hall⟩
    · exact ⟨address, .rightmost hremote hsplit haddress hright⟩
  · exact ⟨remote, .direct hremote⟩

/-- The trusted networks are those that the strings denote. For a request whose list of
addresses is well formed the result is the text of the client. Another spelling of an address
makes no difference, in any request. -/
theorem extract_selects (extractor : ClientIpExtractor inet) :
    ∃ networks, List.Forall₂ (CidrText inet) extractor.trustedProxyCidrs networks ∧
      (∀ request remote chain, AddressText inet request.remoteAddress remote →
        List.Forall₂ (AddressText inet) (request.xForwardedFor.splitOn 44) chain →
        (∃ client, Client networks remote chain client) ∧
        ∀ client, Client networks remote chain client →
          extractor.extract request = some (client.text inet)) ∧
      ∀ request request', RespelledRequest inet request request' →
        extractor.extract request = extractor.extract request' := by
  obtain ⟨networks, hcidrs, hnetworks⟩ :=
    exists_forall₂_of_mapM (fun _ _ => parseTrustedProxyCidr_eq_ok) extractor.parsed
  refine ⟨networks, hcidrs, ?_, ?_⟩
  · intro request remote chain hremote hchain
    exact ⟨exists_client networks remote (entries_ne_nil hchain),
      fun client hclient => extractor.extract_eq_client hnetworks hremote hchain hclient⟩
  · intro request request' h
    apply extractor.extract_congr h.remoteAddress.parseIp_eq _ h.xRealIp.parseIp_eq
    rw [parseForwardedFor_eq, parseForwardedFor_eq]
    exact mapM_congr_forall₂ (fun _ _ hrespells => Respells.parseIp_eq hrespells) h.xForwardedFor

end ClientIpExtractor

end

/-! ### A request through two proxies -/

/-- A string denotes one address. -/
theorem AddressText.unique {inet : InetLibrary} {s : Str} {address address' : IpAddress}
    (h : AddressText inet s address) (h' : AddressText inet s address') : address = address' := by
  obtain ⟨t, ht, -, -, hread⟩ := h
  obtain ⟨t', ht', -, -, hread'⟩ := h'
  rw [Strings.trims_iff] at ht ht'
  subst ht ht'
  exact Option.some.inj (hread.symm.trans hread')

/-- A string denotes one length. -/
theorem LengthText.unique {s : Str} {n n' : Nat} (h : LengthText s n) (h' : LengthText s n') :
    n = n' := by
  obtain ⟨t, ht, -, -, rfl⟩ := h
  obtain ⟨t', ht', -, -, rfl⟩ := h'
  rw [Strings.trims_iff] at ht ht'
  subst ht ht'
  rfl

/-- A string denotes one network: what stands before its first `/` is the address. -/
theorem CidrText.unique {inet : InetLibrary} {s : Str} {network network' : Network}
    (h : CidrText inet s network) (h' : CidrText inet s network') : network = network' := by
  obtain ⟨address, n, hn⟩ := network
  obtain ⟨address', n', hn'⟩ := network'
  obtain ⟨t, ht, h⟩ := h
  obtain ⟨t', ht', h'⟩ := h'
  obtain rfl : t = t' := by rw [Strings.trims_iff.mp ht, Strings.trims_iff.mp ht']
  rcases h with ⟨hslash, htext, hlength⟩ | ⟨part, length, rfl, hpart, htext, hlength⟩
  · rcases h' with ⟨-, htext', hlength'⟩ | ⟨_, _, rfl, -⟩
    · obtain rfl := htext.unique htext'
      obtain rfl : n = n' := hlength.trans hlength'.symm
      rfl
    · exact absurd (by simp) hslash
  · rcases h' with ⟨hslash, -⟩ | ⟨part', length', hsplit, hpart', htext', hlength'⟩
    · exact absurd (by simp) hslash
    · have hpos := idxOf?_append_cons (d := length) hpart
      rw [hsplit, idxOf?_append_cons hpart'] at hpos
      obtain ⟨rfl, htail⟩ := List.append_inj hsplit (Option.some.inj hpos).symm
      obtain rfl := (List.cons.inj htail).2
      obtain rfl := htext.unique htext'
      obtain rfl := hlength.unique hlength'
      rfl

/-- The network that `privateNetwork` trusts. -/
def tenNetwork : Network where
  address := .v4 ⟨#[10, 0, 0, 0], List.size_toArray⟩
  prefixLength := 8
  length_le := by decide

/-- Its text, in parts. -/
theorem cidrText_tenNetwork : CidrText plainInet (lit "10.0.0.0/8") tenNetwork :=
  ⟨lit "10.0.0.0/8", Strings.trims_iff.mpr (by decide +kernel), .inr ⟨lit "10.0.0.0", lit "8",
    by decide +kernel, by decide +kernel,
    ⟨lit "10.0.0.0", Strings.trims_iff.mpr (by decide +kernel), by decide +kernel⟩,
    ⟨lit "8", Strings.trims_iff.mpr (by decide +kernel), by decide +kernel⟩⟩⟩

/-- Behind two proxies of the trusted network. Before them stand the client and an address that the
client has sent. -/
def forwardedTwice : HttpRequest where
  remoteAddress := lit "10.0.0.1"
  xForwardedFor := lit "198.51.100.9, 203.0.113.7, 10.0.0.2"

/-- The same request, with the peer spelled as a mapped address and one more space in the list. -/
def forwardedTwice' : HttpRequest where
  remoteAddress := textV6 (mapV4 #v[10, 0, 0, 1])
  xForwardedFor := lit "198.51.100.9, 203.0.113.7 , 10.0.0.2"

/-- The client is the rightmost address that is not trusted, in either spelling. -/
theorem extract_selects_mapped :
    privateNetwork.extract forwardedTwice = some (lit "203.0.113.7") ∧
      privateNetwork.extract forwardedTwice' = some (lit "203.0.113.7") := by
  obtain ⟨networks, hcidrs, hselects, hrespelled⟩ := privateNetwork.extract_selects
  obtain rfl : networks = [tenNetwork] := by
    rcases hcidrs with - | ⟨hcidr, - | _⟩
    rw [hcidr.unique cidrText_tenNetwork]
  have hpeer : AddressText plainInet (lit "10.0.0.1") (.v4 #v[10, 0, 0, 1]) :=
    ⟨lit "10.0.0.1", Strings.trims_iff.mpr (by decide +kernel), by decide +kernel⟩
  have hmapped : AddressText plainInet (textV6 (mapV4 #v[10, 0, 0, 1]))
      (.v6 (mapV4 #v[10, 0, 0, 1])) :=
    ⟨textV6 (mapV4 #v[10, 0, 0, 1]), Strings.trims_iff.mpr (by decide +kernel), by decide +kernel⟩
  have hentries : forwardedTwice.xForwardedFor.splitOn 44
      = [lit "198.51.100.9", lit " 203.0.113.7", lit " 10.0.0.2"] := by
    decide +kernel
  have hentries' : forwardedTwice'.xForwardedFor.splitOn 44
      = [lit "198.51.100.9", [] ++ lit " 203.0.113.7" ++ lit " ", lit " 10.0.0.2"] := by
    decide +kernel
  have hchain : List.Forall₂ (AddressText plainInet) (forwardedTwice.xForwardedFor.splitOn 44)
      [.v4 #v[198, 51, 100, 9], .v4 #v[203, 0, 113, 7], .v4 #v[10, 0, 0, 2]] := by
    rw [hentries]
    exact .cons ⟨lit "198.51.100.9", Strings.trims_iff.mpr (by decide +kernel), by decide +kernel⟩
      (.cons ⟨lit "203.0.113.7", Strings.trims_iff.mpr (by decide +kernel), by decide +kernel⟩
        (.cons ⟨lit "10.0.0.2", Strings.trims_iff.mpr (by decide +kernel), by decide +kernel⟩ .nil))
  have hclient : Client [tenNetwork] (.v4 #v[10, 0, 0, 1])
      [.v4 #v[198, 51, 100, 9], .v4 #v[203, 0, 113, 7], .v4 #v[10, 0, 0, 2]]
      (.v4 #v[203, 0, 113, 7]) := by
    have hsplit : [IpAddress.v4 #v[198, 51, 100, 9], .v4 #v[203, 0, 113, 7], .v4 #v[10, 0, 0, 2]] ++
        [.v4 #v[10, 0, 0, 1]] = [.v4 #v[198, 51, 100, 9]] ++
        .v4 #v[203, 0, 113, 7] :: [.v4 #v[10, 0, 0, 2], .v4 #v[10, 0, 0, 1]] := rfl
    exact .rightmost (by decide +kernel) hsplit (by decide +kernel) (by decide +kernel)
  have hfirst : privateNetwork.extract forwardedTwice = some (lit "203.0.113.7") :=
    (hselects forwardedTwice _ _ hpeer hchain).2 _ hclient
  have hsame : privateNetwork.extract forwardedTwice = privateNetwork.extract forwardedTwice' := by
    apply hrespelled
    constructor
    case remoteAddress => exact .mapped hpeer hmapped
    case xForwardedFor =>
      rw [hentries, hentries']
      exact .cons .same (.cons (.padded (by simp) (by decide +kernel)) (.cons .same .nil))
    case xRealIp => exact .same
  exact ⟨hfirst, hsame ▸ hfirst⟩

end SmirklyAuth
