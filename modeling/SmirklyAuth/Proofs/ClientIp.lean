import SmirklyAuth.Infra.AddressTexts

/-!
# `SmirklyAuth.Proofs.ClientIp`: what a client can do to its own address

Behind a trusted proxy `X-Forwarded-For` is `p ++ "," ++ s`: the client chose `p`, the
proxies appended `s`. `ParseForwardedFor` reads the whole header or nothing, so the address
that the proxies vouch for is used exactly when each token of `p` is an address too. With
any other `p` the extractor falls back to `X-Real-IP`, which the client may have sent.

* `parseForwardedFor_append`: the chain of `p ++ "," ++ s` is the chain of `p`, if it has
  one, followed by the chain of `s`.
* `ParsedIp.ext_text`: the text of a parsed address determines the address. This is where
  the laws of `InetLibrary` are used.
* `extract_eq_rightmostUntrusted_iff`: the main result.
-/

set_option autoImplicit false

namespace SmirklyAuth

/-! ### Reading a list of tokens -/

section

variable {α β : Type} {f : α → Option β}

/-- A list is read when each of its elements is. -/
theorem mapM_isSome_iff (xs : List α) :
    (xs.mapM f).isSome ↔ ∀ x ∈ xs, (f x).isSome := by
  induction xs with
  | nil => simp
  | cons x xs ih =>
    simp only [List.mapM_cons, List.forall_mem_cons, ← ih]
    cases f x <;> cases xs.mapM f <;> simp

/-- Every result comes from an element. -/
theorem exists_of_mem_mapM {xs : List α} {ys : List β} (h : xs.mapM f = some ys) {y : β}
    (hy : y ∈ ys) : ∃ x, f x = some y := by
  induction xs generalizing ys with
  | nil =>
    simp only [List.mapM_nil, Option.pure_def, Option.some.injEq] at h
    subst h
    cases hy
  | cons x xs ih =>
    simp only [List.mapM_cons, Option.bind_eq_bind, Option.bind_eq_some_iff, Option.pure_def,
      Option.some.injEq] at h
    obtain ⟨y', hx, ys', hxs, rfl⟩ := h
    rcases List.mem_cons.mp hy with rfl | hy
    · exact ⟨x, hx⟩
    · exact ih hxs hy

end

/-- Trimming leaves a character that is no space. -/
theorem Strings.trim_ne_nil {s : Str} {c : UInt8} (hc : c ∈ s)
    (hspace : Strings.isAsciiSpace c = false) : Strings.trim s ≠ [] := by
  intro h
  rcases Strings.mem_trim_or_space hc with hmem | hmem
  · rw [h] at hmem
    cases hmem
  · rw [hspace] at hmem
    cases hmem

section

variable {inet : InetLibrary}

/-! ### Parsed addresses -/

/-- A parsed address is canonical. -/
theorem parseIp_cases {raw : Str} {ip : ParsedIp} (h : parseIp inet raw = some ip) :
    (∃ address, ip = .ofV4 inet address) ∨ ∃ address, ip = .ofV6 inet address := by
  simp only [parseIp] at h
  split at h
  · cases h
  split at h
  · exact .inl ⟨_, (Option.some.inj h).symm⟩
  split at h
  · split at h
    · exact .inl ⟨_, (Option.some.inj h).symm⟩
    · exact .inr ⟨_, (Option.some.inj h).symm⟩
  · cases h

/-- The text of a parsed address reads back as the address. -/
theorem ParsedIp.ext_text {raw raw' : Str} {ip ip' : ParsedIp} (h : parseIp inet raw = some ip)
    (h' : parseIp inet raw' = some ip') (htext : ip.text = ip'.text) : ip = ip' := by
  have hne (a : Vector UInt8 4) (b : Vector UInt8 16) : inet.ntop4 a ≠ inet.ntop6 b := by
    intro hab
    have hread := inet.pton4_ntop6 b
    rw [← hab, inet.pton4_ntop4] at hread
    cases hread
  obtain ⟨a, rfl⟩ | ⟨a, rfl⟩ := parseIp_cases h <;>
    obtain ⟨b, rfl⟩ | ⟨b, rfl⟩ := parseIp_cases h'
  · have hread := inet.pton4_ntop4 a
    rw [show inet.ntop4 a = inet.ntop4 b from htext, inet.pton4_ntop4] at hread
    rw [Option.some.inj hread]
  · exact absurd htext (hne a b)
  · exact absurd htext.symm (hne b a)
  · have hread := inet.pton6_ntop6 a
    rw [show inet.ntop6 a = inet.ntop6 b from htext, inet.pton6_ntop6] at hread
    rw [Option.some.inj hread]

/-! ### The chain of forwarding addresses -/

/-- A well-formed end of the header is read as it stands, behind whatever comes before. -/
theorem parseForwardedFor_append (p : Str) {s : Str} {chain : List ParsedIp}
    (hs : parseForwardedFor inet s = some chain) :
    parseForwardedFor inet (p ++ 44 :: s)
      = ((p.splitOn 44).mapM (parseIp inet)).map (· ++ chain) := by
  have htrim : Strings.trim (p ++ 44 :: s) ≠ [] :=
    Strings.trim_ne_nil (c := 44) (by simp) rfl
  have hchain : (s.splitOn 44).mapM (parseIp inet) = some chain := by
    simp only [parseForwardedFor] at hs
    split at hs
    · cases hs
    · exact hs
  rw [parseForwardedFor, if_neg (by simpa using htrim), List.splitOn_append_cons_self,
    List.mapM_append, hchain]
  cases (p.splitOn 44).mapM (parseIp inet) <;> rfl

/-- Every address of the header is the text of an entry. -/
theorem exists_of_mem_parseForwardedFor {s : Str} {chain : List ParsedIp} {ip : ParsedIp}
    (hs : parseForwardedFor inet s = some chain) (hip : ip ∈ chain) :
    ∃ token, parseIp inet token = some ip := by
  simp only [parseForwardedFor] at hs
  split at hs
  · cases hs
  · exact exists_of_mem_mapM hs hip

/-- A header that is read is not empty. -/
theorem isEmpty_of_parseForwardedFor {header : Str} {chain : List ParsedIp}
    (h : parseForwardedFor inet header = some chain) : header.isEmpty = false := by
  cases header with
  | nil => cases h
  | cons => rfl

namespace ClientIpExtractor

variable (extractor : ClientIpExtractor inet)

/-- Addresses on the left of an untrusted one do not matter, and neither does a trusted peer
on the right. -/
theorem rightmostUntrusted_append {chain : List ParsedIp} {address remoteIp : ParsedIp}
    (hchain : extractor.rightmostUntrusted chain = some address)
    (htrusted : extractor.isTrustedProxy remoteIp = true) (front : List ParsedIp) :
    extractor.rightmostUntrusted (front ++ chain ++ [remoteIp]) = some address := by
  simp only [rightmostUntrusted] at hchain ⊢
  simp [htrusted, hchain, List.find?_append]

/-- The rightmost untrusted address of a header that is read. -/
theorem forwardedClient_eq_some {header : Str} {chain : List ParsedIp}
    {address remoteIp : ParsedIp} (hheader : parseForwardedFor inet header = some chain)
    (haddress : extractor.rightmostUntrusted (chain ++ [remoteIp]) = some address)
    (hchain : chain ≠ []) :
    extractor.forwardedClient remoteIp header = some address.text := by
  cases chain with
  | nil => exact absurd rfl hchain
  | cons front rest =>
    simp only [forwardedClient, isEmpty_of_parseForwardedFor hheader, hheader, Bool.false_eq_true,
      if_false]
    rw [haddress]

/-- An unreadable `X-Forwarded-For` counts as none at all. -/
theorem forwardedClient_eq_none {header : Str} (remoteIp : ParsedIp)
    (hheader : parseForwardedFor inet header = none) :
    extractor.forwardedClient remoteIp header = none := by
  simp [forwardedClient, hheader]

/-! ### The main result -/

/-- Behind a trusted peer, let the proxies append the readable list `s`, and let `address` be
the rightmost address of `s` outside the trusted networks. Whatever `X-Real-IP` is, the
extractor returns `address` exactly when every token of the client's own part `p` is an
address. -/
theorem extract_eq_rightmostUntrusted_iff {remote : Str} {remoteIp : ParsedIp}
    (hremote : parseIp inet remote = some remoteIp)
    (htrusted : extractor.isTrustedProxy remoteIp = true) {s : Str} {chain : List ParsedIp}
    (hs : parseForwardedFor inet s = some chain) {address : ParsedIp}
    (haddress : extractor.rightmostUntrusted chain = some address) (p userAgent : Str) :
    (∀ x, extractor.extract
        { remoteAddress := remote, xForwardedFor := p ++ 44 :: s, xRealIp := x, userAgent }
          = some address.text)
      ↔ ∀ token ∈ p.splitOn 44, (parseIp inet token).isSome := by
  have happend := parseForwardedFor_append p hs
  rw [← mapM_isSome_iff]
  have hmem : address ∈ chain := List.mem_reverse.mp (List.mem_of_find?_eq_some haddress)
  cases hp : (p.splitOn 44).mapM (parseIp inet) with
  | some front =>
    rw [hp, Option.map_some] at happend
    have hne : front ++ chain ≠ [] :=
      List.append_ne_nil_of_right_ne_nil front (List.ne_nil_of_mem hmem)
    have hclient := extractor.forwardedClient_eq_some happend
      (extractor.rightmostUntrusted_append haddress htrusted front) hne
    simp [extract, hremote, htrusted, hclient]
  | none =>
    rw [hp, Option.map_none] at happend
    simp only [Option.isSome_none, Bool.false_eq_true, iff_false]
    intro hall
    -- without `X-Real-IP` the fallback is the peer, and the peer is trusted
    have hpeer := hall []
    simp only [extract, hremote, htrusted, Bool.not_true, Bool.false_eq_true, if_false,
      extractor.forwardedClient_eq_none remoteIp happend, realIp, List.isEmpty_nil, if_true,
      Option.some.injEq] at hpeer
    obtain ⟨token, htoken⟩ := exists_of_mem_parseForwardedFor hs hmem
    have huntrusted := List.find?_some haddress
    rw [← ParsedIp.ext_text hremote htoken hpeer, htrusted] at huntrusted
    cases huntrusted

end ClientIpExtractor

end

/-- An extractor that trusts one private network. -/
def privateNetwork : ClientIpExtractor plainInet where
  trustedProxyCidrs := [lit "10.0.0.0/8"]
  trustedProxies := [⟨.v4, padV4 #v[10, 0, 0, 0], 8, by decide⟩]
  parsed := rfl

/-- The proxy appended `203.0.113.7`. The client sent one token that is no address and an
`X-Real-IP` of its choice, and is taken to be there. -/
theorem extract_spoofed :
    parseForwardedFor plainInet (lit "203.0.113.7")
        = some [.ofV4 plainInet #v[203, 0, 113, 7]] ∧
      privateNetwork.rightmostUntrusted [.ofV4 plainInet #v[203, 0, 113, 7]]
        = some (.ofV4 plainInet #v[203, 0, 113, 7]) ∧
      privateNetwork.extract
          { remoteAddress := lit "10.0.0.1"
            xForwardedFor := lit "unknown" ++ 44 :: lit "203.0.113.7"
            xRealIp := lit "198.51.100.9" }
        = some (lit "198.51.100.9") := by
  decide +kernel

/-- A client that sends an address instead gains nothing. -/
theorem extract_eq_rightmostUntrusted_privateNetwork :
    privateNetwork.extract
        { remoteAddress := lit "10.0.0.1"
          xForwardedFor := lit "198.51.100.9" ++ 44 :: lit "203.0.113.7"
          xRealIp := lit "198.51.100.9" }
      = some (lit "203.0.113.7") := by
  have hremote : parseIp plainInet (lit "10.0.0.1") = some (.ofV4 plainInet #v[10, 0, 0, 1]) := by
    decide +kernel
  have hs : parseForwardedFor plainInet (lit "203.0.113.7")
      = some [.ofV4 plainInet #v[203, 0, 113, 7]] := by
    decide +kernel
  have htext : (ParsedIp.ofV4 plainInet #v[203, 0, 113, 7]).text = lit "203.0.113.7" := by
    decide +kernel
  rw [← htext]
  exact (privateNetwork.extract_eq_rightmostUntrusted_iff hremote (by decide +kernel) hs
    (by decide +kernel) (lit "198.51.100.9") []).mpr (by decide +kernel) _

end SmirklyAuth
