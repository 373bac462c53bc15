import NoxSdk.Js

/-!
# KPS addresses

An address is `<ipv4>:<udp-port>:<certhash>` or `[<ipv6>]:<udp-port>:<certhash>`. The certhash
is multibase `u` (base64url, no padding) of the multihash `0x12 0x20` of the certificate, 47
characters. A registry profile publishes the address of a member in its `metadataUrl`, and an
entry endpoint is `kps:<address>`.

The parsers work on the characters of a string. Each regular expression of the source is the
Boolean function of its name.
-/

namespace NoxSdk.Kps

open Js (splitAtFirst)

/-! ### Certificate hashes -/

/-- `BASE64URL_ALPHABET`. -/
def base64UrlAlphabet : List Char :=
  "ABCDEFGHIJKLMNOPQRSTUVWXYZabcdefghijklmnopqrstuvwxyz0123456789-_".toList

/-- The state of the base64url decoder: the low bits that are not yet a byte, how many of them
are due, and the bytes so far. -/
structure Base64State where
  buffer : ℕ
  bits : ℕ
  out : Bytes

/-- One character of base64url. -/
def Base64State.step (s : Base64State) (char : Char) : Option Base64State :=
  match base64UrlAlphabet.findIdx? (· == char) with
  | none => none
  | some value =>
    let buffer := (s.buffer * 64 + value) % 0x10000
    let bits := s.bits + 6
    if bits ≥ 8 then
      some ⟨buffer, bits - 8, s.out ++ [UInt8.ofNat (buffer / 2 ^ (bits - 8))]⟩
    else some ⟨buffer, bits, s.out⟩

/-- `decodeBase64UrlNoPad`. -/
def decodeBase64UrlNoPad (text : List Char) : Option Bytes :=
  if Js.length text % 4 = 1 then none
  else
    match text.foldlM Base64State.step ⟨0, 0, []⟩ with
    | none => none
    | some s =>
      -- leftover bits must be zero, or two strings would name the same bytes
      if s.buffer % 2 ^ s.bits ≠ 0 then none else some s.out

/-- `malformed`. -/
def malformed (address : List Char) (reason : String) : Thrown :=
  .noxKpsError s!"Malformed KPS address \"{String.ofList (Js.takeUnits 120 address)}\": {reason}"
    .protocolError

/-- `CERTHASH_LENGTH`. -/
def certhashLength : ℕ := 47

/-- `validateCerthash`. -/
def validateCerthash (certhash address : List Char) : Except Thrown Unit :=
  if Js.length certhash ≠ certhashLength ∨ certhash.head? ≠ some 'u' then
    .error (malformed address
      ("certhash must be multibase 'u' + base64url of a 34-byte sha2-256 multihash " ++
        s!"({certhashLength} characters)"))
  else
    match decodeBase64UrlNoPad certhash.tail with
    | none => .error (malformed address "certhash is not canonical base64url")
    | some bytes =>
      if bytes.length ≠ 34 then
        .error (malformed address "certhash is not canonical base64url")
      else if bytes.take 2 ≠ [0x12, 0x20] then
        .error (malformed address
          "certhash is not a sha2-256 multihash (expected prefix 0x12 0x20)")
      else .ok ()

/-! ### Hosts -/

/-- `IPV4_OCTET`. -/
def isIpv4Octet : List Char → Bool
  | [a] => a.isDigit
  | [a, b] => a.isDigit && a != '0' && b.isDigit
  | ['1', b, c] => b.isDigit && c.isDigit
  | ['2', b, c] =>
    decide ('0' ≤ b ∧ b ≤ '4') && c.isDigit || b == '5' && decide ('0' ≤ c ∧ c ≤ '5')
  | _ => false

/-- `IPV4_RE`. -/
def isIpv4 (host : List Char) : Bool :=
  let octets := host.splitOn '.'
  octets.length == 4 && octets.all isIpv4Octet

/-- `IPV6_GROUP_RE`. -/
def isIpv6Group (group : List Char) : Bool :=
  decide (1 ≤ group.length ∧ group.length ≤ 4) && group.all Js.isHexDigit

/-- `value.split("::")`. -/
def splitHalves : List Char → List (List Char)
  | [] => [[]]
  | ':' :: ':' :: rest => [] :: splitHalves rest
  | c :: rest =>
    match splitHalves rest with
    | [] => [[c]]
    | half :: halves => (c :: half) :: halves

/-- The groups of one half of an IPv6 literal. -/
def groupsOf (part : List Char) : List (List Char) := if part = [] then [] else part.splitOn ':'

/-- The 16-bit units the groups stand for; `embedded` allows an IPv4 address as the last of
them. -/
def unitsOf (embedded : Bool) : List (List Char) → Option ℕ
  | [] => some 0
  | [group] =>
    if embedded && group.contains '.' then if isIpv4 group then some 2 else none
    else if isIpv6Group group then some 1
    else none
  | group :: rest =>
    if isIpv6Group group then (unitsOf embedded rest).map (· + 1) else none

/-- `isIpv6Literal`. -/
def isIpv6Literal (value : List Char) : Bool :=
  if Js.length value < 2 ∨ Js.length value > 45 then false
  else
    match splitHalves value with
    | [whole] => unitsOf true (groupsOf whole) == some 8
    | [before, after] =>
      let tail := groupsOf after
      -- an embedded IPv4 address is the last 32 bits, never just before "::"
      (unitsOf (decide (tail.length > 0)) (groupsOf before ++ tail)).any (decide <| · ≤ 7)
    | _ => false

/-! ### Addresses -/

/-- `KpsAddressParts`. -/
structure KpsAddressParts where
  address : String
  host : String
  port : ℕ
  certhash : String
  ipv6 : Bool
  deriving DecidableEq

/-- `PORT_RE`. -/
def isPortText : List Char → Bool
  | [] => false
  | c :: cs => c != '0' && (c :: cs).all Char.isDigit && decide (cs.length ≤ 4)

/-- The host of an address and what follows its colon. -/
def parseHost (value : List Char) : Except Thrown (Bool × List Char × List Char) :=
  match value with
  | '[' :: tail =>
    match splitAtFirst ']' tail with
    | some (host, ':' :: rest) =>
      if isIpv6Literal host then .ok (true, host, rest)
      else .error (malformed value
        "bracketed host is not an IPv6 literal (zone IDs are not allowed)")
    | _ => .error (malformed value
        "IPv6 host must be bracketed as [<ipv6>]:<port>:<certhash>")
  | _ =>
    match splitAtFirst ':' value with
    | none => .error (malformed value "missing ':' after the host")
    | some (host, rest) =>
      if isIpv4 host then .ok (false, host, rest)
      else .error (malformed value
        "host must be a dotted-quad IPv4 address or a bracketed IPv6 literal")

/-- `parseKpsAddress`. -/
def parseKpsAddress (text : String) : Except Thrown KpsAddressParts :=
  let value := text.toList
  if value = [] then .error (malformed value "address is empty")
  else do
    let (ipv6, host, rest) ← parseHost value
    match splitAtFirst ':' rest with
    | none => .error (malformed value "missing ':' between port and certhash")
    | some (portText, certhash) =>
      if !isPortText portText then
        .error (malformed value "port must be a decimal number without leading zeros")
      else
        let port := Js.parseDigits 10 portText
        if port < 1 ∨ port > 65535 then
          .error (malformed value s!"port {port} is outside 1..65535")
        else do
          validateCerthash certhash value
          let hostText := String.ofList host
          let hashText := String.ofList certhash
          let shown := if ipv6 then s!"[{hostText}]" else hostText
          return ⟨s!"{shown}:{port}:{hashText}", hostText, port, hashText, ipv6⟩

/-- `KPS_ENDPOINT_PREFIX`. -/
def kpsEndpointPrefix : String := "kps:"

/-- `KPS_METADATA_PATH`. -/
def kpsMetadataPath : String := "/metadata.json"

/-- `kpsEntryEndpoint`. -/
def kpsEntryEndpoint (address : String) : Except Thrown String := do
  let parts ← parseKpsAddress address
  return kpsEndpointPrefix ++ parts.address

/-- `kpsAddrFromMetadataUrl`. -/
def kpsAddrFromMetadataUrl (metadataUrl : String) : Option String :=
  match metadataUrl.toList with
  | 'k' :: 'p' :: 's' :: ':' :: rest =>
    match splitAtFirst '/' rest with
    | none => none
    | some (published, path) =>
      if published = [] ∨ '/' :: path ≠ kpsMetadataPath.toList then none
      else
        match parseKpsAddress (String.ofList published) with
        | .error _ => none
        -- the published string must already be canonical
        | .ok parts => if parts.address = String.ofList published then some parts.address else none
  | _ => none

/-! ### An address -/

/-- The characters of the address that the samples use. -/
theorem toList_sampleAddress :
    "192.0.2.1:443:uEiAAAAAAAAAAAAAAAAAAAAAAAAAAAAAAAAAAAAAAAAAAAA".toList =
      ['1', '9', '2', '.', '0', '.', '2', '.', '1', ':', '4', '4', '3', ':', 'u', 'E', 'i'] ++
        List.replicate 44 'A' :=
  String.toList_ofList

/-- Its parts. -/
theorem parseKpsAddress_sample :
    parseKpsAddress "192.0.2.1:443:uEiAAAAAAAAAAAAAAAAAAAAAAAAAAAAAAAAAAAAAAAAAAAA" =
      .ok ⟨"192.0.2.1:443:uEiAAAAAAAAAAAAAAAAAAAAAAAAAAAAAAAAAAAAAAAAAAAA", "192.0.2.1", 443,
        "uEiAAAAAAAAAAAAAAAAAAAAAAAAAAAAAAAAAAAAAAAAAAAA", false⟩ := by
  rw [parseKpsAddress, toList_sampleAddress]
  decide +kernel

/-- It is published at its metadata location. -/
theorem kpsAddrFromMetadataUrl_sample : kpsAddrFromMetadataUrl
    "kps:192.0.2.1:443:uEiAAAAAAAAAAAAAAAAAAAAAAAAAAAAAAAAAAAAAAAAAAAA/metadata.json" =
      some "192.0.2.1:443:uEiAAAAAAAAAAAAAAAAAAAAAAAAAAAAAAAAAAAAAAAAAAAA" := by
  have hurl :
      "kps:192.0.2.1:443:uEiAAAAAAAAAAAAAAAAAAAAAAAAAAAAAAAAAAAAAAAAAAAA/metadata.json".toList =
      'k' :: 'p' :: 's' :: ':' ::
        ("192.0.2.1:443:uEiAAAAAAAAAAAAAAAAAAAAAAAAAAAAAAAAAAAAAAAAAAAA".toList ++
          '/' :: "metadata.json".toList) := by
    rw [toList_sampleAddress]
    exact String.toList_ofList
  have hsplit : splitAtFirst '/'
      ("192.0.2.1:443:uEiAAAAAAAAAAAAAAAAAAAAAAAAAAAAAAAAAAAAAAAAAAAA".toList ++
        '/' :: "metadata.json".toList) =
      some ("192.0.2.1:443:uEiAAAAAAAAAAAAAAAAAAAAAAAAAAAAAAAAAAAAAAAAAAAA".toList,
        "metadata.json".toList) := by
    rw [toList_sampleAddress]
    decide +kernel
  have hpublished : ¬("192.0.2.1:443:uEiAAAAAAAAAAAAAAAAAAAAAAAAAAAAAAAAAAAAAAAAAAAA".toList = [] ∨
      '/' :: "metadata.json".toList ≠ kpsMetadataPath.toList) := by
    rw [toList_sampleAddress]
    decide
  simp only [kpsAddrFromMetadataUrl, hurl, hsplit, if_neg hpublished, String.ofList_toList,
    parseKpsAddress_sample, if_true]

end NoxSdk.Kps
