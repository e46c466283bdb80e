import Mathlib.Algebra.Group.Nat.Defs
import SmirklyAuth.Domain.ValueObjects
import SmirklyAuth.Services.Contracts

/-!
# `SmirklyAuth.Infra.Http.RequestMetaExtractor`: the client address of a request

`infra/http/request_meta_extractor.cpp`. The address of the peer is taken as it is unless
the peer is a trusted proxy. Behind a trusted proxy the address comes from
`X-Forwarded-For`, read from the right, then from `X-Real-IP`, then from the peer.

* `inet_pton` and `inet_ntop` belong to the C library. `InetLibrary` holds what they return
  on each address family and the laws the extractor relies on: a printed address reads back
  as itself, and the text of an IPv6 address is no IPv4 address. `inet_ntop` fails only on a
  short buffer, and `INET6_ADDRSTRLEN` is never short.
* `GetHeader` is the empty string for a header that is not there.
* `std::isspace` is `Strings.isAsciiSpace` in the `C` locale, so `Trim` is `Strings.trim`.
-/

set_option autoImplicit false

namespace SmirklyAuth

/-- `inet_pton` and `inet_ntop` on `AF_INET` and `AF_INET6`. -/
structure InetLibrary where
  pton4 : Str → Option (Vector UInt8 4)
  pton6 : Str → Option (Vector UInt8 16)
  ntop4 : Vector UInt8 4 → Str
  ntop6 : Vector UInt8 16 → Str
  pton4_ntop4 : ∀ address, pton4 (ntop4 address) = some address
  pton6_ntop6 : ∀ address, pton6 (ntop6 address) = some address
  pton4_ntop6 : ∀ address, pton4 (ntop6 address) = none

/-- `IpVersion`. -/
inductive IpVersion where
  | v4
  | v6
  deriving DecidableEq, Repr

/-- An address: its family, its bytes from the left, padded with zeros, and its text. -/
structure ParsedIp where
  version : IpVersion
  bytes : Vector UInt8 16
  text : Str
  deriving DecidableEq

/-- The number of bits of an address. -/
def IpVersion.bits : IpVersion → Nat
  | .v4 => 32
  | .v6 => 128

/-- A network of trusted proxies. -/
structure IpNetwork where
  version : IpVersion
  bytes : Vector UInt8 16
  prefixLength : Nat
  length_le : prefixLength ≤ version.bits

/-- `IN6_IS_ADDR_V4MAPPED`: ten zero bytes, then two bytes of ones. -/
def isV4Mapped (address : Vector UInt8 16) : Bool :=
  address.toList.take 12 = List.replicate 10 0 ++ [255, 255]

/-- The last four bytes of an address. -/
def mappedV4 (address : Vector UInt8 16) : Vector UInt8 4 :=
  #v[address[12], address[13], address[14], address[15]]

/-- The 16 bytes that hold an IPv4 address. -/
def padV4 (address : Vector UInt8 4) : Vector UInt8 16 :=
  address ++ (Vector.replicate 12 0 : Vector UInt8 12)

section

variable (inet : InetLibrary)

/-- A parsed IPv4 address. -/
def ParsedIp.ofV4 (address : Vector UInt8 4) : ParsedIp :=
  { version := .v4, bytes := padV4 address, text := inet.ntop4 address }

/-- A parsed IPv6 address. -/
def ParsedIp.ofV6 (address : Vector UInt8 16) : ParsedIp :=
  { version := .v6, bytes := address, text := inet.ntop6 address }

/-- `ParseIp`. The comma is 44. -/
def parseIp (raw : Str) : Option ParsedIp :=
  let raw := Strings.trim raw
  if raw.isEmpty || raw.contains 44 then none
  else
    let value := cStr raw
    match inet.pton4 value with
    | some ipv4 => some (.ofV4 inet ipv4)
    | none =>
      match inet.pton6 value with
      | some ipv6 =>
        if isV4Mapped ipv6 then some (.ofV4 inet (mappedV4 ipv6))
        else some (.ofV6 inet ipv6)
      | none => none

/-- `std::from_chars` into an `unsigned` when it consumes the whole, nonempty input. -/
def fromCharsUnsigned (raw : Str) : Option Nat :=
  let value := raw.foldl (fun n c => n * 10 + (c.toNat - 48)) 0
  if raw.all Phone.isDigit && value < 2 ^ 32 then some value else none

/-- `ParsePrefixLength`. -/
def parsePrefixLength (raw : Str) (version : IpVersion) :
    Option { n : Nat // n ≤ version.bits } :=
  let raw := Strings.trim raw
  if raw.isEmpty then none
  else match fromCharsUnsigned raw with
    | none => none
    | some value => if h : value ≤ version.bits then some ⟨value, h⟩ else none

/-- `PrefixMatches`: the full bytes agree, and the bits of the next byte under the mask. -/
def prefixMatches (network address : Vector UInt8 16) (prefixLength : Nat) : Bool :=
  let fullBytes := prefixLength / 8
  let remainingBits := prefixLength % 8
  if (List.range fullBytes).any fun i => network[i]? ≠ address[i]? then false
  else if remainingBits = 0 then true
  else
    let mask : UInt8 := (255 <<< (8 - remainingBits) : Nat).toUInt8
    network[fullBytes]?.map (· &&& mask) = address[fullBytes]?.map (· &&& mask)

/-- `ParseForwardedFor`: the tokens between the commas, from the left. One token that is no
address makes the whole header unreadable. -/
def parseForwardedFor (header : Str) : Option (List ParsedIp) :=
  if (Strings.trim header).isEmpty then none
  else (header.splitOn 44).mapM (parseIp inet)

/-- `ParseTrustedProxyCidr`. The slash is 47. -/
def parseTrustedProxyCidr (cidr : Str) : Except Str IpNetwork :=
  let cidr := Strings.trim cidr
  let slash := cidr.idxOf? 47
  let addressPart := match slash with
    | none => cidr
    | some pos => cidr.take pos
  match parseIp inet addressPart with
  | none => .error "invalid trusted proxy CIDR address"
  | some address =>
    let length : Option { n : Nat // n ≤ address.version.bits } := match slash with
      | none => some ⟨address.version.bits, Nat.le_refl _⟩
      | some pos => parsePrefixLength (cidr.drop (pos + 1)) address.version
    match length with
    | none => .error "invalid trusted proxy CIDR prefix length"
    | some ⟨length, h⟩ => .ok ⟨address.version, address.bytes, length, h⟩

/-- `ClientIpExtractor`: a list of trusted networks that was read from an accepted
configuration. -/
structure ClientIpExtractor where
  trustedProxyCidrs : List Str
  trustedProxies : List IpNetwork
  parsed : trustedProxyCidrs.mapM (parseTrustedProxyCidr inet) = .ok trustedProxies

/-- The constructor `ClientIpExtractor(config)`. -/
def ClientIpExtractor.create (trustedProxyCidrs : List Str) :
    Except Str (ClientIpExtractor inet) :=
  match h : trustedProxyCidrs.mapM (parseTrustedProxyCidr inet) with
  | .ok trustedProxies => .ok ⟨trustedProxyCidrs, trustedProxies, h⟩
  | .error what => .error what

end

/-- What the extractor reads of an `HttpRequest`. -/
structure HttpRequest where
  remoteAddress : Str
  xForwardedFor : Str := []
  xRealIp : Str := []
  userAgent : Str := []

namespace ClientIpExtractor

variable {inet : InetLibrary} (extractor : ClientIpExtractor inet)

/-- `IsTrustedProxy`. -/
def isTrustedProxy (address : ParsedIp) : Bool :=
  extractor.trustedProxies.any fun network =>
    network.version = address.version &&
      prefixMatches network.bytes address.bytes network.prefixLength

/-- The rightmost address of a chain that is no trusted proxy. -/
def rightmostUntrusted (chain : List ParsedIp) : Option ParsedIp :=
  chain.reverse.find? fun address => !extractor.isTrustedProxy address

/-- The address that `X-Forwarded-For` gives behind the trusted peer `remoteIp`. -/
def forwardedClient (remoteIp : ParsedIp) (header : Str) : Option Str :=
  if header.isEmpty then none
  else match parseForwardedFor inet header with
    | none | some [] => none
    | some (front :: rest) =>
      match extractor.rightmostUntrusted (front :: rest ++ [remoteIp]) with
      | some address => some address.text
      | none => some front.text

/-- The address that `X-Real-IP` gives. -/
def realIp (inet : InetLibrary) (header : Str) : Option Str :=
  if header.isEmpty then none else (parseIp inet header).map ParsedIp.text

/-- `ClientIpExtractor::Extract`. -/
def extract (request : HttpRequest) : Option Str :=
  match parseIp inet request.remoteAddress with
  | none => none
  | some remoteIp =>
    if !extractor.isTrustedProxy remoteIp then some remoteIp.text
    else match extractor.forwardedClient remoteIp request.xForwardedFor with
      | some text => some text
      | none => match realIp inet request.xRealIp with
        | some text => some text
        | none => some remoteIp.text

end ClientIpExtractor

/-- `RequestMetaExtractor::Extract`. -/
def RequestMetaExtractor.extract {inet : InetLibrary} (extractor : ClientIpExtractor inet)
    (request : HttpRequest) : RequestMeta :=
  { ip := extractor.extract request
    userAgent := if request.userAgent.isEmpty then none else some request.userAgent }

end SmirklyAuth
